import SymbolAtlas.Report.Handler.Reading

/-!
# Values of expressions

Only expressions that are values have one: constants, numbers with a sign, sums of a number and an
imaginary one, and tuples, sets and dictionaries of values. The elements of a set and the keys of a
dictionary are not sets or dictionaries and hold none.
-/

namespace SymbolAtlas.Report.Handler

/-- A value, as far as it matters where it may stand. -/
inductive Datum where
  | plain
  | tuple (items : List Datum)
  | set
  | dict
  deriving Repr

/-- Why an expression has no value. -/
inductive ValueFault where
  /-- The expression is no value. -/
  | noValue
  /-- An entry of a dictionary has no key. -/
  | noKey
  | unhashable (kind : String)
  /-- A number is too large for a sum with an imaginary one. -/
  | tooLarge
  deriving DecidableEq, Repr

/-- The wording of a fault. -/
def ValueFault.message : ValueFault → String
  | .noValue => "malformed node or string"
  | .noKey => "malformed node or string: None"
  | .unhashable kind => "unhashable type: '" ++ kind ++ "'"
  | .tooLarge => "int too large to convert to float"

mutual

/-- Why a value can be no element of a set, if it cannot. -/
def Datum.unhashable? : Datum → Option ValueFault
  | .plain => none
  | .tuple items => Datum.unhashableIn? items
  | .set => some (.unhashable "set")
  | .dict => some (.unhashable "dict")

/-- The first of several values that can be no element of a set. -/
def Datum.unhashableIn? : List Datum → Option ValueFault
  | [] => none
  | d :: rest => d.unhashable?.or (Datum.unhashableIn? rest)

end

/-- Checks that a value can be an element of a set. -/
def Datum.checkHash (d : Datum) : Except ValueFault Unit :=
  match d.unhashable? with
  | some f => .error f
  | none => .ok ()

/-- The constant of a number. -/
def Expr.number? : Expr → Option Constant
  | .constant (.whole n) => some (.whole n)
  | .constant .decimal => some .decimal
  | .constant .imaginary => some .imaginary
  | _ => none

/-- The constant of a number that may have a sign. -/
def Expr.signedNumber? : Expr → Option Constant
  | .unary s e => if s = "+" || s = "-" then e.number? else none
  | e => e.number?

/-- Checks a sum of a number and an imaginary one. -/
def sumValue (left right : Expr) : Except ValueFault Datum :=
  match left.signedNumber?, right.number? with
  | some (.whole n), some .imaginary =>
    match Binary.ofInt n with
    | .finite _ _ => .ok .plain
    | _ => .error .tooLarge
  | some .decimal, some .imaginary => .ok .plain
  | _, _ => .error .noValue

mutual

/-- The value of an expression. -/
def Expr.value : Expr → Except ValueFault Datum
  | .constant _ => .ok .plain
  | .tuple items => (Expr.values items).map .tuple
  | .set items => (Expr.checkElements items).map fun () => .set
  | .dict entries => (Expr.checkEntries entries).map fun () => .dict
  | .call (.name t) true => if t = "set".toList then .ok .set else .error .noValue
  | .binary s left right =>
    if s = "+" || s = "-" then sumValue left right else .error .noValue
  | .unary s e => if (Expr.unary s e).signedNumber?.isSome then .ok .plain else .error .noValue
  | _ => .error .noValue

/-- The values of expressions. -/
def Expr.values : List Expr → Except ValueFault (List Datum)
  | [] => .ok []
  | e :: rest =>
    match e.value with
    | .error f => .error f
    | .ok d => (Expr.values rest).map (d :: ·)

/-- Checks the elements of a set. -/
def Expr.checkElements : List Expr → Except ValueFault Unit
  | [] => .ok ()
  | e :: rest =>
    match e.value with
    | .error f => .error f
    | .ok d =>
      match d.checkHash with
      | .error f => .error f
      | .ok () => Expr.checkElements rest

/-- Checks the entries of a dictionary. -/
def Expr.checkEntries : List (Option Expr × Expr) → Except ValueFault Unit
  | [] => .ok ()
  | (none, _) :: _ => .error .noKey
  | (some key, value) :: rest =>
    match key.value with
    | .error f => .error f
    | .ok d =>
      match value.value with
      | .error f => .error f
      | .ok _ =>
        match d.checkHash with
        | .error f => .error f
        | .ok () => Expr.checkEntries rest

end

end SymbolAtlas.Report.Handler
