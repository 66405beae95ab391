import SymbolAtlas.Number.Radix
import SymbolAtlas.Text.Printable

/-!
# Faults of expressions

What can be wrong with an expression: with its characters, with the order of its tokens, with a
text in quotes, or with a field in such a text. A fault inside a field says so.
-/

namespace SymbolAtlas.Report.Handler

/-- How a number is written. -/
inductive Notation where
  | decimal
  | imaginary
  | hexadecimal
  | octal
  | binary
  deriving DecidableEq, Repr

/-- The name of a notation. -/
def Notation.text : Notation → String
  | .decimal => "decimal"
  | .imaginary => "imaginary"
  | .hexadecimal => "hexadecimal"
  | .octal => "octal"
  | .binary => "binary"

/-- What is wrong with characters. -/
inductive ScanFault where
  /-- A quote is not closed up to a line. -/
  | unclosedQuote (line : Nat)
  | unclosedTripleQuote (line : Nat)
  | unmatched (bracket : Char)
  /-- A bracket is closed by another one; the line is given where it is not the same. -/
  | mismatched (close opened : Char) (line : Option Nat)
  | neverClosed (opened : Char)
  | tooManyBrackets
  | badNumber (form : Notation)
  | badDigit (digit : Char) (form : Notation)
  | leadingZeros
  | strayBackslash
  | strayCharacter (c : Char)
  | nullCharacter
  | endedEarly
  | unevenIndent
  | mixedIndent
  deriving DecidableEq, Repr

/-- What is wrong with an escape sequence in a text. -/
inductive EscapeFault where
  | shortByte
  | shortUnit
  | shortNumber
  | largeNumber
  | malformedName
  | unknownName
  deriving DecidableEq, Repr

/-- What is wrong with a text that has fields. -/
inductive FieldFault where
  | singleClose
  | tooDeep
  | backslash
  | comment
  | tooManyBrackets
  | unmatched (bracket : Char)
  | mismatched (close opened : Char)
  | unclosedQuote
  | missingClose
  | nothingBefore (c : Char)
  | empty
  | badConversion
  | rest
  deriving DecidableEq, Repr

/-- What is wrong with parameters. -/
inductive ParameterFault where
  | defaultOrder
  | parenthesized
  | nothingBeforeSlash
  | secondSlash
  | slashAfterStar
  | missingComma
  | nothingAfterStar
  | starDefault
  | secondStar
  | doubleDefault
  | afterDouble
  | missingDefault
  deriving DecidableEq, Repr

/-- What is wrong with an expression. -/
inductive Fault where
  | scan (f : ScanFault)
  | invalid
  | unexpectedIndent
  | unexpectedUnindent
  /-- A whole number has too many digits. -/
  | longNumber (digits : Nat)
  /-- An escape sequence takes the characters from one place up to another. -/
  | escape (start stop : Nat) (f : EscapeFault)
  | byteEscape (place : Nat)
  | wideByte
  | mixedBytes
  | field (f : FieldFault)
  /-- A fault of the expression in a field. -/
  | within (f : Fault)
  | missingComma
  | missingElse
  | callWithout (name : String)
  | assignedName
  | assignedHere (what : String)
  | assignedArgument
  | assigned (what : String)
  | renamed (what : String)
  | missingColon
  | missingValue
  | starredValue
  | starred (stars : Nat)
  | loneStar
  | starredClause
  | unpackedClause
  | bareTarget
  | bareClause
  | starAfterUnpacking
  | positionalAfter (unpacking : Bool)
  | parameter (f : ParameterFault)
  deriving DecidableEq, Repr

/-- The number of a character, with four hexadecimal digits or more. -/
def codeText (c : Char) : String :=
  let digits := (Nat.toDigits 16 c.toNat).map Char.toUpper
  "U+" ++ String.ofList (List.replicate (4 - digits.length) '0' ++ digits)

/-- The wording of a fault of characters. -/
def ScanFault.message : ScanFault → String
  | .unclosedQuote line =>
    "unterminated string literal (detected at line " ++ toString line ++ ")"
  | .unclosedTripleQuote line =>
    "unterminated triple-quoted string literal (detected at line " ++ toString line ++ ")"
  | .unmatched b => "unmatched '" ++ b.toString ++ "'"
  | .mismatched c o line =>
    "closing parenthesis '" ++ c.toString ++ "' does not match opening parenthesis '" ++
      o.toString ++ "'" ++
      match line with
      | some n => " on line " ++ toString n
      | none => ""
  | .neverClosed o => "'" ++ o.toString ++ "' was never closed"
  | .tooManyBrackets => "too many nested parentheses"
  | .badNumber form => "invalid " ++ form.text ++ " literal"
  | .badDigit d form => "invalid digit '" ++ d.toString ++ "' in " ++ form.text ++ " literal"
  | .leadingZeros =>
    "leading zeros in decimal integer literals are not permitted; " ++
      "use an 0o prefix for octal integers"
  | .strayBackslash => "unexpected character after line continuation character"
  | .strayCharacter c =>
    if isPrintable c then "invalid character '" ++ c.toString ++ "' (" ++ codeText c ++ ")"
    else "invalid non-printable character " ++ codeText c
  | .nullCharacter => "source code string cannot contain null bytes"
  | .endedEarly => "unexpected EOF while parsing"
  | .unevenIndent => "unindent does not match any outer indentation level"
  | .mixedIndent => "inconsistent use of tabs and spaces in indentation"

/-- The wording of a fault of an escape sequence. -/
def EscapeFault.message : EscapeFault → String
  | .shortByte => "truncated \\xXX escape"
  | .shortUnit => "truncated \\uXXXX escape"
  | .shortNumber => "truncated \\UXXXXXXXX escape"
  | .largeNumber => "illegal Unicode character"
  | .malformedName => "malformed \\N character escape"
  | .unknownName => "unknown Unicode character name"

/-- The wording of a fault of a text with fields. -/
def FieldFault.message : FieldFault → String
  | .singleClose => "f-string: single '\x7d' is not allowed"
  | .tooDeep => "f-string: expressions nested too deeply"
  | .backslash => "f-string expression part cannot include a backslash"
  | .comment => "f-string expression part cannot include '#'"
  | .tooManyBrackets => "f-string: too many nested parenthesis"
  | .unmatched b => "f-string: unmatched '" ++ b.toString ++ "'"
  | .mismatched c o =>
    "f-string: closing parenthesis '" ++ c.toString ++
      "' does not match opening parenthesis '" ++ o.toString ++ "'"
  | .unclosedQuote => "f-string: unterminated string"
  | .missingClose => "f-string: expecting '\x7d'"
  | .nothingBefore c => "f-string: expression required before '" ++ c.toString ++ "'"
  | .empty => "f-string: empty expression not allowed"
  | .badConversion => "f-string: invalid conversion character: expected 's', 'r', or 'a'"
  | .rest => "f-string: unexpected end of string"

/-- The wording of a fault of parameters. -/
def ParameterFault.message : ParameterFault → String
  | .defaultOrder => "non-default argument follows default argument"
  | .parenthesized => "Lambda expression parameters cannot be parenthesized"
  | .nothingBeforeSlash => "at least one argument must precede /"
  | .secondSlash => "/ may appear only once"
  | .slashAfterStar => "/ must be ahead of *"
  | .missingComma => "expected comma between / and *"
  | .nothingAfterStar => "named arguments must follow bare *"
  | .starDefault => "var-positional argument cannot have default value"
  | .secondStar => "* argument may appear only once"
  | .doubleDefault => "var-keyword argument cannot have default value"
  | .afterDouble => "arguments cannot follow var-keyword argument"
  | .missingDefault => "expected default value expression"

/-- The wording of a fault. -/
def Fault.message : Fault → String
  | .scan f => f.message
  | .invalid => "invalid syntax"
  | .unexpectedIndent => "unexpected indent"
  | .unexpectedUnindent => "unexpected unindent"
  | .longNumber digits =>
    RadixError.message 10 "" (.oversize digits) ++
      " - Consider hexadecimal for huge integer literals to avoid decimal conversion limits."
  | .escape start stop f =>
    let place :=
      if stop = start + 1 then "byte 0x5c in position " ++ toString start
      else "bytes in position " ++ toString start ++ "-" ++ toString (stop - 1)
    "(unicode error) 'unicodeescape' codec can't decode " ++ place ++ ": " ++ f.message
  | .byteEscape place => "(value error) invalid \\x escape at position " ++ toString place
  | .wideByte => "bytes can only contain ASCII literal characters"
  | .mixedBytes => "cannot mix bytes and nonbytes literals"
  | .field f => f.message
  | .within f => "f-string: " ++ f.message
  | .missingComma => "invalid syntax. Perhaps you forgot a comma?"
  | .missingElse => "expected 'else' after 'if' expression"
  | .callWithout name =>
    "Missing parentheses in call to '" ++ name ++ "'. Did you mean " ++ name ++ "(...)?"
  | .assignedName => "invalid syntax. Maybe you meant '==' or ':=' instead of '='?"
  | .assignedHere what =>
    "cannot assign to " ++ what ++ " here. Maybe you meant '==' instead of '='?"
  | .assignedArgument => "expression cannot contain assignment, perhaps you meant \"==\"?"
  | .assigned what => "cannot assign to " ++ what
  | .renamed what => "cannot use assignment expressions with " ++ what
  | .missingColon => "':' expected after dictionary key"
  | .missingValue => "expression expected after dictionary key and ':'"
  | .starredValue => "cannot use a starred expression in a dictionary value"
  | .starred n => "cannot use " ++ (if n = 2 then "double " else "") ++ "starred expression here"
  | .loneStar => "Invalid star expression"
  | .starredClause => "iterable unpacking cannot be used in comprehension"
  | .unpackedClause => "dict unpacking cannot be used in dict comprehension"
  | .bareTarget => "did you forget parentheses around the comprehension target?"
  | .bareClause => "Generator expression must be parenthesized"
  | .starAfterUnpacking => "iterable argument unpacking follows keyword argument unpacking"
  | .positionalAfter unpacking =>
    "positional argument follows keyword argument" ++ if unpacking then " unpacking" else ""
  | .parameter f => f.message

end SymbolAtlas.Report.Handler
