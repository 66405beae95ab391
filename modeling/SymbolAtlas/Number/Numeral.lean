import SymbolAtlas.Number.Binary

/-!
# Integers given as text

A numeral in strict form is a minus sign or none and digits without leading zeros. What is not in
strict form is first tidied up:

* blanks around it and a plus sign go;
* leading zeros go, and underscores among those zeros with them;
* a point goes with the zeros after it, of which there has to be one or more;
* underscores go, unless there is one at either end or two next to each other.

Zeros may come after a minus sign or before one, but not both. A numeral in strict form of more
than `numeralReach` digits is not worked out, and neither is one that has so many when it is
tidied up; only the first of the two counts as too large.
-/

namespace SymbolAtlas

/-- How many digits a strict numeral may have. -/
def numeralReach : Nat := 4300

/-- What is wrong with a text that should be an integer. -/
inductive NumeralError where
  | unreadable
  | oversize
  deriving DecidableEq, Repr

namespace Numeral

/-- Digits without leading zeros. -/
def natural (t : Text) : Except NumeralError Nat :=
  let digits := t.takeWhile Char.isDigit
  let whole := digits.length = t.length
  match digits with
  | [] => .error .unreadable
  | '0' :: more => if more = [] && whole then .ok 0 else .error .unreadable
  | _ =>
    if numeralReach < digits.length then .error .oversize
    else if whole then .ok (Binary.digitsValue digits)
    else .error .unreadable

/-- Reads a numeral in strict form. -/
def strict (t : Text) : Except NumeralError Int :=
  match t with
  | '-' :: r => (natural r).map fun n => -(n : Int)
  | r => (natural r).map fun n => (n : Int)

/-- Blanks around a numeral; information separators are none. -/
def isPadding (c : Char) : Bool := isBlank c && !(28 ≤ c.toNat && c.toNat ≤ 31)

/-- The text without the blanks around it. -/
def bare (t : Text) : Text := ((t.dropWhile isPadding).reverse.dropWhile isPadding).reverse

/-- The text without a plus sign, which no other sign may follow. -/
def withoutPlus (t : Text) : Option Text :=
  match t with
  | '+' :: '-' :: _ => none
  | '+' :: r => some r
  | r => some r

/-- What follows a zero, without further zeros and underscores. Before a point, and at the end,
one character of them stays. -/
def afterZeros (last : Char) : Text → Option Text
  | [] => some [last]
  | c :: t =>
    if c == '0' || c == '_' then afterZeros c t
    else if c.isDigit || c == '-' then some (c :: t)
    else if c == '.' then some (last :: c :: t)
    else none

/-- The text without leading zeros. It has to start with a digit or a minus sign. -/
def withoutZeros (t : Text) : Option Text :=
  match t with
  | [] => none
  | c :: r =>
    if c == '0' then afterZeros c r else if c.isDigit || c == '-' then some (c :: r) else none

/-- The text without a point and one or more zeros at its end. -/
def withoutFraction (t : Text) : Text :=
  let whole := t.takeWhile (· != '.')
  match t.drop whole.length with
  | '.' :: '0' :: zeros => if zeros.all (· == '0') then whole else t
  | _ => t

/-- Whether two underscores stand next to each other. -/
def hasTwin : Text → Bool
  | '_' :: '_' :: _ => true
  | _ :: t => hasTwin t
  | [] => false

/-- The text without underscores, where all of them are allowed. -/
def withoutUnderscores (t : Text) : Text :=
  if t.head? == some '_' || t.getLast? == some '_' || hasTwin t then t else t.filter (· != '_')

/-- The digits of a text without its sign, tidied up. -/
def tidyDigits (t : Text) : Option Text :=
  (withoutZeros t).map fun t => withoutUnderscores (withoutFraction t)

/-- The text as it is read when it is not in strict form. -/
def tidy (t : Text) : Option Text :=
  match bare t with
  | '-' :: digits => (tidyDigits digits).map ('-' :: ·)
  | t => (withoutPlus t).bind tidyDigits

end Numeral

/-- The integer that a text stands for. -/
def integerOfText (s : String) : Except NumeralError Int :=
  match Numeral.strict s.toList with
  | .error .unreadable =>
    match Numeral.tidy s.toList with
    | none => .error .unreadable
    | some t => (Numeral.strict t).mapError fun _ => .unreadable
  | result => result

end SymbolAtlas
