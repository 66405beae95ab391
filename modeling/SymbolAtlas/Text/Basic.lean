/-!
# Texts and their blanks

A text is the list of its code points. Lengths, offsets and columns all count code points, so
one list index means the same thing everywhere in the library.

Blank characters are those with the Unicode property White_Space, together with the four
information separators U+001C to U+001F:

| From | To | |
|---|---|---|
| U+0009 | U+000D | tab, line feed, vertical tab, form feed, carriage return |
| U+001C | U+0020 | information separators, space |
| U+0085 | U+0085 | next line |
| U+00A0 | U+00A0 | no-break space |
| U+1680 | U+1680 | ogham space mark |
| U+2000 | U+200A | en quad to hair space |
| U+2028 | U+2029 | line and paragraph separator |
| U+202F, U+205F, U+3000 | | narrow no-break, mathematical and ideographic space |
-/

namespace SymbolAtlas

/-- A text is its list of code points. -/
abbrev Text := List Char

/-- Blank characters separate words and may surround them. -/
def isBlank (c : Char) : Bool :=
  let n := c.toNat
  (9 ≤ n && n ≤ 13) || (28 ≤ n && n ≤ 32) || n == 0x85 || n == 0xA0 || n == 0x1680 ||
    (0x2000 ≤ n && n ≤ 0x200A) || n == 0x2028 || n == 0x2029 || n == 0x202F || n == 0x205F ||
    n == 0x3000

/-- Identifiers are runs of ASCII letters, digits, underscores and dollar signs. -/
def isIdent (c : Char) : Bool :=
  c.isAlphanum || c == '_' || c == '$'

namespace Text

/-- The text without its leading blanks. -/
def trimLeft (t : Text) : Text := t.dropWhile isBlank

/-- The text without its trailing blanks. -/
def trimRight (t : Text) : Text := (t.reverse.dropWhile isBlank).reverse

/-- The text without the blanks at either end. -/
def trim (t : Text) : Text := t.trimLeft.trimRight

/-- Whether `p` occurs somewhere in the text. -/
def occurs (p : Text) : Text → Bool
  | [] => p.isEmpty
  | c :: t => p.isPrefixOf (c :: t) || occurs p t

/-- What is left after removing `p` from the front, or the whole text if it does not start so. -/
def dropFront (t p : Text) : Text := (p.isPrefixOf? t).getD t

/-- What is left after removing `p` from the end, or the whole text if it does not end so. -/
def dropBack (t p : Text) : Text :=
  if p.isSuffixOf t then t.take (t.length - p.length) else t

end Text

/-- A line of blanks only, the empty line included. -/
def isBlankLine (line : Text) : Bool := line.all isBlank

end SymbolAtlas
