import SymbolAtlas.Report.Handler.Literal

/-!
# Handlers in tags

A tag that starts with an at sign may give a handler after an equals sign: a name, or a name with
arguments in round brackets. The arguments are an expression, and so is what is given in place of
a handler. The expression has to be a value.
-/

namespace SymbolAtlas.Report.Handler

/-- Why an expression cannot be used. -/
inductive Error where
  /-- It cannot be read. -/
  | unreadable (f : Fault)
  /-- It has no value. -/
  | valueless (f : ValueFault)
  deriving DecidableEq, Repr

/-- What is wrong with an expression, if anything is. -/
def check (t : Text) : Option Error :=
  match Expr.ofText t with
  | .error f => some (.unreadable f)
  | .ok e =>
    match e.value with
    | .error f => some (.valueless f)
    | .ok _ => none

/-- The part of a handler that is an expression: the brackets after its name, or all of it if it
has another form. -/
def expression (t : Text) : Text :=
  let name := t.takeWhile fun c => isWord c || c == '.'
  match t.drop name.length with
  | [] => "()".toList
  | '(' :: rest =>
    if rest.getLast? = some ')' && !rest.contains '\n' then '(' :: rest else t
  | _ => t

end SymbolAtlas.Report.Handler
