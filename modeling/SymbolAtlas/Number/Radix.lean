import SymbolAtlas.Number.Binary
import SymbolAtlas.Number.Numeral
import SymbolAtlas.Text.Digit
import SymbolAtlas.Text.Quoted

/-!
# Numbers in words of any script

An integer in some base is written with blanks around it, perhaps a sign, perhaps a zero and the
letter of its base, and one digit or more; beyond nine the digits are letters. A decimal number is
written as for `Binary`, or as a word for what is infinite or undefined. The digits may be of any
script.

| Base | Letter |
|---|---|
| 2 | `b` |
| 8 | `o` |
| 16 | `x` |

Where the base is no power of two, more than `numeralReach` digits are not worked out.
-/

namespace SymbolAtlas

/-- Why a text is no integer in some base. -/
inductive RadixError where
  | unreadable
  | oversize (digits : Nat)
  deriving DecidableEq, Repr

/-- How much of a text that is no integer is shown. -/
def messageReach : Nat := 200

/-- The wording of an error about a text. -/
def RadixError.message (base : Nat) (text : String) : RadixError → String
  | .unreadable =>
    "invalid literal for int() with base " ++ toString base ++ ": " ++
      String.ofList ((quotedText text).toList.take messageReach)
  | .oversize digits =>
    "Exceeds the limit (" ++ toString numeralReach ++ " digits) for integer string conversion: " ++
      "value has " ++ toString digits ++ " digits; use sys.set_int_max_str_digits() " ++
      "to increase the limit"

namespace Radix

/-- The blanks of ASCII, without the information separators. -/
def isGap (c : Char) : Bool := c == ' ' || (9 ≤ c.toNat && c.toNat ≤ 13)

/-- The text without such blanks at its start. -/
def trimLeft (t : Text) : Text := t.dropWhile isGap

/-- The text without such blanks at either end. -/
def trim (t : Text) : Text := ((trimLeft t).reverse.dropWhile isGap).reverse

/-- Whether a text starts with a minus sign, and what comes after its sign if it has one. -/
def signed (t : Text) : Bool × Text :=
  match t with
  | '-' :: r => (true, r)
  | '+' :: r => (false, r)
  | r => (false, r)

/-- The letter of a base. -/
def letter? (base : Nat) : Option Char :=
  if base = 2 then some 'b' else if base = 8 then some 'o' else if base = 16 then some 'x' else none

/-- What follows the zero and the letter of a base, if they are there. -/
def afterLetter (base : Nat) (t : Text) : Text :=
  match t with
  | '0' :: c :: r => if some c.toLower == letter? base then r else t
  | _ => t

/-- The value of a digit. -/
def digit? (base : Nat) (c : Char) : Option Nat :=
  let value : Option Nat :=
    if c.isDigit then some (c.toNat - '0'.toNat)
    else if c.isAlpha then some (c.toLower.toNat - 'a'.toNat + 10)
    else none
  value.filter (· < base)

/-- The number that digits stand for. -/
def value (base : Nat) (digits : Text) : Nat :=
  digits.foldl (fun n c => n * base + (digit? base c).getD 0) 0

/-- The integer that a text stands for in some base. -/
def integer (base : Nat) (t : Text) : Except RadixError Int :=
  let (negative, body) := signed (trimLeft t.plainDigits)
  let body := afterLetter base body
  let digits := body.takeWhile fun c => (digit? base c).isSome
  if (letter? base).isNone && numeralReach < digits.length then .error (.oversize digits.length)
  else if digits = [] || !(body.drop digits.length).all isGap then .error .unreadable
  else
    let n : Int := value base digits
    .ok (if negative then -n else n)

/-- The decimal number that a text stands for. -/
def decimal? (t : Text) : Option Binary :=
  let bare := trim t.plainDigits
  let (negative, body) := signed bare
  let word := String.ofList (body.map Char.toLower)
  if word = "inf" || word = "infinity" then some (.infinite negative)
  else if word = "nan" then some .undefined
  else Binary.ofText? bare

end Radix

end SymbolAtlas
