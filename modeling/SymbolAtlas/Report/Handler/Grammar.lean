import SymbolAtlas.Report.Handler.Expr

/-!
# Rules and their values

Each rule has alternatives, of which the first one that fits is taken. An alternative is a list of
parts, and what it comes to is worked out from the values of its parts.
-/

namespace SymbolAtlas.Report.Handler

/-- The names of rules. -/
inductive Rule where
  | whole
  | embedded
  | expressions
  | expression
  | certainExpression
  | starExpressions
  | starExpression
  | starNamedExpressions
  | starNamedExpression
  | assignment
  | namedExpression
  | disjunction
  | conjunction
  | inversion
  | comparison
  | comparisonPart
  | bitwiseOr
  | bitwiseXor
  | bitwiseAnd
  | shift
  | sum
  | term
  | factor
  | power
  | awaited
  | primary
  | primaryPart
  | atom
  | strings
  | tuple
  | group
  | generator
  | set
  | setClauses
  | dict
  | dictClauses
  | pairs
  | pair
  | keyValue
  | clauses
  | clause
  | yielded
  | arguments
  | args
  | keywordArgs
  | keywordOrStarred
  | keywordOrDouble
  | starredExpression
  | starTargets
  | starTargetTuple
  | starTarget
  | target
  | starAtom
  | targetPrimary
  | targetEnd
  | lambda
  | parameters
  | parameterList
  | slashPlain
  | slashDefault
  | starParameters
  | doubleParameter
  | plainParameter
  | defaultParameter
  | eitherParameter
  | defaultValue
  | badExpression
  | badCommand
  | badNamed
  | badGroup
  | badClauses
  | badDictClauses
  | badTarget
  | badPairs
  | badKeyValue
  | badArguments
  | badKeyword
  | badParameters
  | badStarParameters
  | badDouble
  | badDefault
  deriving DecidableEq, Repr

/-- A part of an alternative. -/
inductive Item where
  | symbol (s : String)
  | name
  | number
  | quoted
  | newline
  | finish
  /-- A name that is a word with a meaning in some places, or the start of one. -/
  | softWord
  | use (r : Rule)
  /-- Looks whether the parts come next. -/
  | ahead (parts : List Item)
  | notAhead (parts : List Item)
  | oneOf (choices : List (List Item))
  | maybe (parts : List Item)
  /-- Any number of times the same. -/
  | star (parts : List Item)
  /-- One or more times the same. -/
  | plus (parts : List Item)
  /-- One or more times the same, with commas between. -/
  | separated (parts : List Item)
  /-- From here on no other alternative of the rule is tried. -/
  | commit

/-- What follows a value in a chain of attributes and calls. -/
inductive Suffix where
  | attribute
  | call (empty : Bool)
  deriving DecidableEq, Repr

/-- What a part stands for. -/
inductive Value where
  | token (t : Token)
  | expr (e : Expr)
  | list (vs : List Value)
  | entry (key : Option Expr) (value : Expr)
  | suffix (s : Suffix)
  /-- An argument with a name, or with two stars. -/
  | keyword (unpacked : Bool)
  | nothing
  deriving Repr

/-- What an alternative comes to. -/
inductive Result where
  | value (v : Value)
  /-- The rule does not fit after all. -/
  | fail
  | fault (f : Fault)
  deriving Repr

/-- An alternative of a rule. -/
structure Branch where
  parts : List Item
  /-- What it comes to, given the level of its last token and its values. -/
  act : Nat → List Value → Result
  /-- Whether it is only tried to find out what is wrong. -/
  diagnostic : Bool

/-! ### Values -/

namespace Value

/-- One value for several. -/
def ofList (vs : List Value) : Value :=
  match vs with
  | [v] => v
  | vs => .list vs

mutual

/-- The expressions in a value, in order. -/
def exprs : Value → List Expr
  | .expr e => [e]
  | .list vs => exprsIn vs
  | _ => []

/-- The expressions in values, in order. -/
def exprsIn : List Value → List Expr
  | [] => []
  | v :: rest => v.exprs ++ exprsIn rest

end

mutual

/-- The entries in a value, in order. -/
def entries : Value → List (Option Expr × Expr)
  | .entry key value => [(key, value)]
  | .list vs => entriesIn vs
  | _ => []

/-- The entries in values, in order. -/
def entriesIn : List Value → List (Option Expr × Expr)
  | [] => []
  | v :: rest => v.entries ++ entriesIn rest

end

mutual

/-- The arguments with names in a value. -/
def keywords : Value → List Bool
  | .keyword unpacked => [unpacked]
  | .list vs => keywordsIn vs
  | _ => []

/-- The arguments with names in values. -/
def keywordsIn : List Value → List Bool
  | [] => []
  | v :: rest => v.keywords ++ keywordsIn rest

end

/-- The symbol of a token. -/
def symbol : Value → String
  | .token t =>
    match t.kind with
    | .symbol s => s
    | _ => ""
  | _ => ""

/-- The first of several expressions. -/
def firstExpr (vs : List Value) : Expr := (exprsIn vs).headD (.constant .nothing)

/-- An operand, and operators with further operands, which bind to the left. -/
def chain (vs : List Value) : Expr :=
  match vs with
  | .expr first :: .list rest :: _ =>
    rest.foldl (fun left v =>
      match v with
      | .list [operator, .expr right] => .binary operator.symbol left right
      | _ => left) first
  | vs => firstExpr vs

/-- A value with its suffixes. -/
def suffixed (vs : List Value) : Expr :=
  match vs with
  | .expr first :: .list rest :: _ =>
    rest.foldl (fun e v =>
      match v with
      | .suffix .attribute => .other .attribute
      | .suffix (.call empty) => .call e empty
      | _ => e) first
  | vs => firstExpr vs

/-- The arguments of a call. -/
def call (vs : List Value) : Suffix :=
  .call ((exprsIn vs).isEmpty && (keywordsIn vs).isEmpty)

end Value

end SymbolAtlas.Report.Handler
