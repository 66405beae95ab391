import SymbolAtlas.Text.Basic

/-!
# Binary numbers

Numbers with a fraction are kept with 53 binary digits and exponents from -1074 to 971. Any other
number is rounded to the nearest of these, and of two that are equally near to the one with an
even mantissa. What would be `2 ^ 1024` or more is infinite.

Everything is computed on integers: a number to be rounded comes as a quotient.
-/

namespace SymbolAtlas

/-- A binary number: `mantissa * 2 ^ exponent`, or none that is finite. -/
inductive Binary where
  | finite (mantissa exponent : Int)
  | infinite (negative : Bool)
  /-- The result of an operation that has none. -/
  | undefined
  deriving DecidableEq, Repr

namespace Binary

/-- The power of two with an exponent. -/
def powerOfTwo (n : Nat) : Nat := Nat.pow 2 n

/-- How many binary digits a mantissa has. -/
def precision : Nat := 53

/-- The least exponent. -/
def leastExponent : Int := -1074

/-- The quotient `num / den` rounded to an integer, with ties to even. -/
def roundQuotient (num den : Nat) : Nat :=
  let q := num / den
  let twice := 2 * (num % den)
  if twice < den then q else if den < twice then q + 1 else q + q % 2

/-- The quotient `num / den` in units of `2 ^ e`, as a quotient. -/
def inUnits (num den : Nat) (e : Int) : Nat × Nat :=
  if 0 ≤ e then (num, den * powerOfTwo e.toNat) else (num * powerOfTwo (-e).toNat, den)

/-- The exponent with which a quotient is written: the largest that leaves all binary digits, but
no less than the least one. The sizes of both parts tell it up to one. -/
def exponentFor (num den : Nat) : Int :=
  let guess := max ((num.log2 : Int) - den.log2 - (precision - 1)) leastExponent
  let (n, d) := inUnits num den guess
  if n / d < powerOfTwo (precision - 1) then max (guess - 1) leastExponent else guess

/-- The binary number nearest to `num / den`, with a sign. -/
def ofQuotient (negative : Bool) (num den : Nat) : Binary :=
  let e := exponentFor num den
  let (n, d) := inUnits num den e
  let m := roundQuotient n d
  if 971 < e || (e = 971 && powerOfTwo precision ≤ m) then .infinite negative
  else .finite (if negative then -(m : Int) else m) e

/-- The binary number nearest to an integer. -/
def ofInt (n : Int) : Binary := ofQuotient (n < 0) n.natAbs 1

/-- The binary number nearest to `mantissa * 2 ^ exponent`. -/
def rounded (mantissa exponent : Int) : Binary :=
  if 0 ≤ exponent then
    ofQuotient (mantissa < 0) (mantissa.natAbs * powerOfTwo exponent.toNat) 1
  else ofQuotient (mantissa < 0) mantissa.natAbs (powerOfTwo (-exponent).toNat)

/-- The sum of two numbers. -/
def add : Binary → Binary → Binary
  | .finite m e, .finite n f =>
    let low := min e f
    rounded (m * powerOfTwo (e - low).toNat + n * powerOfTwo (f - low).toNat) low
  | .undefined, _ | _, .undefined => .undefined
  | .infinite a, .infinite b => if a = b then .infinite a else .undefined
  | .infinite a, _ | _, .infinite a => .infinite a

/-- The product of two numbers. -/
def mul : Binary → Binary → Binary
  | .finite m e, .finite n f => rounded (m * n) (e + f)
  | .undefined, _ | _, .undefined => .undefined
  | .infinite a, .infinite b => .infinite (a != b)
  | .infinite a, .finite m _ | .finite m _, .infinite a =>
    if m = 0 then .undefined else .infinite (a != decide (m < 0))

/-- The number with the opposite sign. -/
def neg : Binary → Binary
  | .finite m e => .finite (-m) e
  | .infinite negative => .infinite !negative
  | .undefined => .undefined

/-- The integer that a number is, if it is one. -/
def toInt? : Binary → Option Int
  | .finite m e =>
    if 0 ≤ e then some (m * powerOfTwo e.toNat)
    else
      let unit : Int := powerOfTwo (-e).toNat
      if m % unit = 0 then some (m / unit) else none
  | _ => none

/-- The largest natural number that is not above a number; zero where there is none. -/
def floor : Binary → Nat
  | .finite m e =>
    if 0 ≤ e then (m * powerOfTwo e.toNat).toNat else (m / (powerOfTwo (-e).toNat : Int)).toNat
  | _ => 0

/-! ### Decimal notation -/

/-- The number that decimal digits stand for. -/
def digitsValue (t : Text) : Nat := t.foldl (fun n c => n * 10 + (c.toNat - '0'.toNat)) 0

/-- How far from one a number may be in decimal digits before it is infinite or nothing. -/
def decimalReach : Int := 400

/-- The binary number nearest to `digits * 10 ^ exponent`. A power of ten out of all reach is not
worked out. -/
def ofDecimal (negative : Bool) (digits : Text) (exponent : Int) : Binary :=
  let digits := digits.dropWhile (· == '0')
  let size := digits.length + exponent
  if digits = [] || size < -decimalReach then .finite 0 0
  else if decimalReach < size then .infinite negative
  else
    let n := digitsValue digits
    if 0 ≤ exponent then ofQuotient negative (n * Nat.pow 10 exponent.toNat) 1
    else ofQuotient negative n (Nat.pow 10 (-exponent).toNat)

/-- The exponent at the end of a number: nothing, or a letter, perhaps a sign, and digits. -/
def exponentOf? (t : Text) : Option Int :=
  match t with
  | [] => some 0
  | c :: rest =>
    if c == 'e' || c == 'E' then
      let (negative, digits) : Bool × Text :=
        match rest with
        | '-' :: r => (true, r)
        | '+' :: r => (false, r)
        | r => (false, r)
      if digits = [] || !digits.all Char.isDigit then none
      else some (if negative then -(digitsValue digits : Int) else digitsValue digits)
    else none

/-- Reads a number in decimal notation: digits, perhaps with a point among them or at either end,
and perhaps an exponent. -/
def ofUnsigned? (negative : Bool) (t : Text) : Option Binary :=
  let whole := t.takeWhile Char.isDigit
  let rest := t.drop whole.length
  let (fraction, rest) : Text × Text :=
    match rest with
    | '.' :: r => (r.takeWhile Char.isDigit, r.dropWhile Char.isDigit)
    | r => ([], r)
  if whole = [] && fraction = [] then none
  else (exponentOf? rest).map fun e => ofDecimal negative (whole ++ fraction) (e - fraction.length)

/-- Reads a number in decimal notation with a sign or without one. -/
def ofText? (t : Text) : Option Binary :=
  match t with
  | '-' :: r => ofUnsigned? true r
  | '+' :: r => ofUnsigned? false r
  | r => ofUnsigned? false r

end Binary

end SymbolAtlas
