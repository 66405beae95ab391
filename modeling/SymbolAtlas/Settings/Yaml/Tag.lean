import SymbolAtlas.Settings.Moment
import SymbolAtlas.Settings.Yaml.ScalarText

/-!
# Tags of nodes

A tag says what a node means. It may be written out; otherwise a scalar without quotes is a truth
value, a number, a moment or null where it has the form of one, and text if not. One line end after
such a form does not change what it means.

| Meaning | Form |
|---|---|
| null | nothing, `~`, `null` |
| truth | `yes`, `true`, `on` and `no`, `false`, `off` |
| integer | decimal, binary after `0b`, octal after `0`, hexadecimal after `0x`, or base 60 |
| decimal | digits with a point, an exponent with a sign, base 60, `.inf`, `.nan` |
| moment | a date or a date with a time |
| merge | `<<` |
| default | `=` |
| nothing | `!`, `&`, `*` |

The words may be written in small letters, in capitals, or with a capital first letter.
Underscores among digits do not count, and numbers may have a sign.
-/

namespace SymbolAtlas.Yaml

/-- What a node means. -/
inductive Tag where
  | null
  | truth
  | integer
  | decimal
  | moment
  | text
  /-- A key whose value is merged into the mapping around it. -/
  | merge
  /-- The key of a default value. -/
  | default
  /-- Bytes in base 64. -/
  | binary
  | sequence
  | mapping
  /-- A mapping of which only the keys count. -/
  | set
  /-- A sequence of mappings with one field each, which stand for keys and values in order. -/
  | pairs
  /-- A tag that means nothing here. -/
  | unknown
  deriving DecidableEq, Repr

/-- What the names of all tags that mean something start with. -/
def Tag.space : String := "tag:yaml.org,2002:"

/-- The names of tags. -/
def Tag.names : List (String × Tag) :=
  [("null", .null), ("bool", .truth), ("int", .integer), ("float", .decimal),
    ("timestamp", .moment), ("str", .text), ("merge", .merge), ("value", .default),
    ("binary", .binary), ("seq", .sequence), ("map", .mapping), ("set", .set), ("omap", .pairs),
    ("pairs", .pairs)]

/-- The tag with a name. -/
def Tag.ofName (name : String) : Tag :=
  ((Tag.names.find? fun e => Tag.space ++ e.1 = name).map Prod.snd).getD .unknown

/-- A word in small letters, with a capital first letter, or in capitals. -/
def wordForms (w : String) : List String := [w, w.capitalize, w.toUpper]

/-- Whether a scalar has the form of a truth value. -/
def isTruth (s : String) : Bool :=
  (["yes", "true", "on", "no", "false", "off"].flatMap wordForms).contains s

/-- Whether a scalar stands for null. -/
def isNull (s : String) : Bool := s = "" || s = "~" || (wordForms "null").contains s

/-- The text after a sign, if it has one. -/
def unsigned (t : Text) : Text :=
  match t with
  | '-' :: r | '+' :: r => r
  | r => r

/-- Digits with underscores among them. -/
def isDigits (digit : Char → Bool) (t : Text) : Bool := t.all fun c => digit c || c == '_'

/-- Digits of a decimal number that does not start with an underscore. -/
def isDecimal (t : Text) : Bool :=
  t.head?.any Char.isDigit && isDigits Char.isDigit t

/-- A digit of base 60 after the first: one or two decimal digits below 60. -/
def isSixty (t : Text) : Bool :=
  match t with
  | [c] => c.isDigit
  | [a, b] => '0' ≤ a && a ≤ '5' && b.isDigit
  | _ => false

/-- Whether a text has the form of an integer. -/
def isInteger (t : Text) : Bool :=
  match unsigned t with
  | ['0'] => true
  | '0' :: 'b' :: r => r ≠ [] && isDigits (fun c => c == '0' || c == '1') r
  | '0' :: 'x' :: r => r ≠ [] && isDigits (fun c => (hexDigit? c).isSome) r
  | '0' :: r => isDigits (fun c => '0' ≤ c && c ≤ '7') r
  | r =>
    match r.splitOn ':' with
    | first :: rest => isDecimal first && rest.all isSixty
    | [] => false

/-- Whether a text is nothing or an exponent, which needs a sign. -/
def isExponent (t : Text) : Bool :=
  match t with
  | [] => true
  | e :: s :: digits =>
    (e == 'e' || e == 'E') && (s == '+' || s == '-') && digits ≠ [] && digits.all Char.isDigit
  | _ => false

/-- Whether a text can stand after the point of a decimal number. -/
def isFraction (t : Text) : Bool := isExponent (t.dropWhile fun c => c.isDigit || c == '_')

/-- Whether a text has the form of a decimal number. -/
def isFloating (t : Text) : Bool :=
  let body := unsigned t
  let whole := body.takeWhile (· != '.')
  match body.drop whole.length with
  | '.' :: rest =>
    match whole.splitOn ':' with
    | first :: second :: more =>
      isDecimal first && (second :: more).all isSixty && isDigits Char.isDigit rest
    | _ =>
      if whole = [] then
        (wordForms "inf").contains (String.ofList rest) ||
          (body = t && (["nan", "NaN", "NAN"].contains (String.ofList rest) ||
            (rest.head?.any Char.isDigit && isFraction rest)))
      else isDecimal whole && isFraction rest
  | _ => false

/-- What a scalar of some form means. -/
def Tag.ofForm (s : String) : Tag :=
  if isTruth s then .truth
  else if isFloating s.toList then .decimal
  else if isInteger s.toList then .integer
  else if s = "<<" then .merge
  else if isNull s then .null
  else if (Moment.ofText? 2 s.toList).isSome then .moment
  else if s = "=" then .default
  else if ["!", "&", "*"].contains s then .unknown
  else .text

/-- The text without one line end at its end. -/
def withoutLastBreak (t : Text) : Text := if t.getLast? == some '\n' then t.dropLast else t

/-- What a plain scalar means. -/
def Tag.ofPlain (s : String) : Tag :=
  if s = "\n" then .text else .ofForm (String.ofList (withoutLastBreak s.toList))

end SymbolAtlas.Yaml
