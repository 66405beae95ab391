import SymbolAtlas.Report.Handler.Token

/-!
# Expressions

Of an expression only those parts are kept that are values or that messages speak about.
-/

namespace SymbolAtlas.Report.Handler

/-- A value that is written as one token. -/
inductive Constant where
  | whole (n : Nat)
  | decimal
  | imaginary
  | text
  | bytes
  | truth (b : Bool)
  | nothing
  | ellipsis
  deriving DecidableEq, Repr

/-- Forms of expressions of which nothing more is kept. -/
inductive Form where
  | attribute
  | lambda
  | operation
  | generator
  | yield
  | await
  | setClauses
  | dictClauses
  | fields
  | conditional
  | named
  deriving DecidableEq, Repr

/-- An expression. -/
inductive Expr where
  | name (t : Text)
  | constant (c : Constant)
  | tuple (items : List Expr)
  | set (items : List Expr)
  /-- Keys and values; an entry that is unpacked has no key. -/
  | dict (entries : List (Option Expr × Expr))
  | starred (e : Expr)
  | unary (operator : String) (e : Expr)
  | binary (operator : String) (left right : Expr)
  /-- A comparison: its first operand, and whether the first operator is `in`. -/
  | comparison (left : Expr) (isIn : Bool)
  /-- A call, and whether it has no arguments. -/
  | call (function : Expr) (empty : Bool)
  | other (form : Form)
  deriving Repr

/-- The name of a constant in messages. -/
def Constant.label : Constant → String
  | .truth b => if b then "True" else "False"
  | .nothing => "None"
  | .ellipsis => "ellipsis"
  | _ => "literal"

/-- The name of a form in messages. -/
def Form.label : Form → String
  | .attribute => "attribute"
  | .lambda => "lambda"
  | .operation => "expression"
  | .generator => "generator expression"
  | .yield => "yield expression"
  | .await => "await expression"
  | .setClauses => "set comprehension"
  | .dictClauses => "dict comprehension"
  | .fields => "f-string expression"
  | .conditional => "conditional expression"
  | .named => "named expression"

/-- What an expression is called in messages. -/
def Expr.label : Expr → String
  | .name _ => "name"
  | .constant c => c.label
  | .tuple _ => "tuple"
  | .set _ => "set display"
  | .dict _ => "dict literal"
  | .starred _ => "starred"
  | .unary _ _ => "expression"
  | .binary _ _ _ => "expression"
  | .comparison _ _ => "comparison"
  | .call _ _ => "function call"
  | .other form => form.label

/-- The names of commands of old, which were written without brackets. -/
def Expr.command? : Expr → Option String
  | .name t =>
    let word := String.ofList t
    if word = "print" || word = "exec" then some word else none
  | _ => none

mutual

/-- The first part of an expression that cannot be a target of a clause. -/
def Expr.wrongTarget? : Expr → Option Expr
  | .tuple items => wrongTargetIn? items
  | .starred e => e.wrongTarget?
  | .comparison left isIn => if isIn then left.wrongTarget? else none
  | .name _ => none
  | .other .attribute => none
  | e => some e

/-- The first part of expressions that cannot be a target. -/
def Expr.wrongTargetIn? : List Expr → Option Expr
  | [] => none
  | e :: rest => e.wrongTarget?.or (wrongTargetIn? rest)

end

/-- The value of a number as it is written. Its digits are counted where there are too many. -/
def Constant.ofNumber (t : Text) : Except Nat Constant :=
  let digits := t.filter (· != '_')
  match digits with
  | '0' :: c :: rest =>
    if c == 'x' || c == 'X' then .ok (.whole (Radix.value 16 rest))
    else if c == 'o' || c == 'O' then .ok (.whole (Radix.value 8 rest))
    else if c == 'b' || c == 'B' then .ok (.whole (Radix.value 2 rest))
    else decimalOf digits
  | _ => decimalOf digits
where
  /-- The value of a number in decimal notation. -/
  decimalOf (digits : Text) : Except Nat Constant :=
    if digits.getLast?.any fun c => c == 'j' || c == 'J' then .ok .imaginary
    else if digits.all Char.isDigit then
      if digits.all (· == '0') then .ok (.whole 0)
      else if numeralReach < digits.length then .error digits.length
      else .ok (.whole (Radix.value 10 digits))
    else .ok .decimal

end SymbolAtlas.Report.Handler
