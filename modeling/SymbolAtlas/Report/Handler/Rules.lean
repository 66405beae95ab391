import SymbolAtlas.Report.Handler.Grammar

/-!
# Grammar of expressions

Some alternatives only serve to find out what is wrong with an expression: they are tried in a
second reading, after a first one without them has failed, and end in a fault. Those for the entries
of dictionaries and for stars without an operand are tried at once.

Rules that build on themselves on the left are written as repetitions, which bind to the left.
-/

namespace SymbolAtlas.Report.Handler

namespace Branch

/-- Parts that stand for what they are. -/
def plain (parts : List Item) : Branch :=
  ⟨parts, fun _ vs => .value (.ofList vs), false⟩

/-- Parts that make an expression. -/
def made (parts : List Item) (make : List Expr → Expr) : Branch :=
  ⟨parts, fun _ vs => .value (.expr (make (Value.exprsIn vs))), false⟩

/-- Parts of which only the form counts. -/
def formed (parts : List Item) (form : Form) : Branch := made parts fun _ => .other form

/-- Parts of which the first expression counts. -/
def inner (parts : List Item) : Branch :=
  ⟨parts, fun _ vs => .value (.expr (Value.firstExpr vs)), false⟩

/-- Parts that are wrong. -/
def faulty (parts : List Item) (f : Fault) : Branch := ⟨parts, fun _ _ => .fault f, false⟩

/-- Wrong parts with a fault that depends on their expressions, or with none. -/
def judged (parts : List Item) (judge : List Expr → Option Fault) : Branch :=
  ⟨parts, fun _ vs =>
    match judge (Value.exprsIn vs) with
    | some f => .fault f
    | none => .fail, false⟩

/-- Parts that are only tried to find out what is wrong. -/
def suspected (parts : List Item) : Branch :=
  ⟨parts, fun _ vs => .value (.ofList vs), true⟩

end Branch

open Branch Item

/-- An operand and any number of operators with further operands. -/
def operations (operand : Rule) (operators : List String) : List Branch :=
  [⟨[use operand, star [oneOf (operators.map fun s => [symbol s]), use operand]],
    fun _ vs => .value (.expr (Value.chain vs)), false⟩]

/-- Operands with a word between them. -/
def joinedBy (operand : Rule) (word : String) : List Branch :=
  [formed [use operand, plus [symbol word, use operand]] .operation, plain [use operand]]

/-- Items with commas between them: a tuple, unless there is one item only and no comma. -/
def listed (item : Rule) : List Branch :=
  [made [use item, plus [symbol ",", use item], maybe [symbol ","]] .tuple,
    made [use item, symbol ","] .tuple, plain [use item]]

/-- A conditional expression, or one of other forms. -/
def conditional : List Branch :=
  [formed [use .disjunction, symbol "if", use .disjunction, symbol "else", use .expression]
      .conditional,
    plain [use .disjunction], plain [use .lambda]]

/-- Constants that are words. -/
def wordConstants : List (List Item) := [[symbol "True"], [symbol "False"], [symbol "None"]]

/-- An expression that is not the name in an assignment. -/
def unassigned : Item := oneOf [[use .assignment], [use .expression, notAhead [symbol ":="]]]

/-- The alternatives of an atom. -/
def atomAlternatives : List Branch :=
  let constant (s : String) (c : Constant) := made [symbol s] fun _ => .constant c
  [plain [name], constant "True" (.truth true), constant "False" (.truth false),
    constant "None" .nothing, plain [ahead [quoted], use .strings], plain [number],
    plain [ahead [symbol "("], oneOf [[use .tuple], [use .group], [use .generator]]],
    plain [ahead [symbol "\x7b"],
      oneOf [[use .dict], [use .set], [use .dictClauses], [use .setClauses]]],
    constant "..." .ellipsis]

/-- The suffixes of a value, each with parts that have to follow. -/
def suffixAlternatives (follow : List Item) : List Branch :=
  let suffix (s : List Value → Suffix) : Nat → List Value → Result := fun _ vs =>
    .value (.suffix (s vs))
  [⟨[symbol ".", name] ++ follow, suffix fun _ => .attribute, false⟩,
    ⟨[use .generator] ++ follow, suffix fun _ => .call false, false⟩,
    ⟨[symbol "(", maybe [use .arguments], symbol ")"] ++ follow, suffix Value.call, false⟩]

/-- Arguments without names, with commas between them. -/
def positionalArgs : Item :=
  separated [oneOf [[use .starredExpression], [unassigned, notAhead [symbol "="]]]]

/-- The clauses of a comprehension: what may come before them, and what follows. -/
def clauseAlternatives : List Branch :=
  let parts := [symbol "for", use .starTargets, symbol "in", commit, use .disjunction,
    star [symbol "if", use .disjunction]]
  [plain (symbol "async" :: parts), plain parts, suspected [use .badTarget]]

/-- An argument with a name. -/
def keywordBranch : Branch :=
  ⟨[name, symbol "=", use .expression], fun _ _ => .value (.keyword false), false⟩

/-! ### Parameters -/

/-- A parameter, which ends with a comma or before a colon. -/
def parameterAlternatives (parts : List Item) : List Branch :=
  [plain (parts ++ [symbol ","]), plain (parts ++ [ahead [symbol ":"]])]

/-- Parameters before a slash. -/
def slashAlternatives (parts : List Item) : List Branch :=
  [plain (parts ++ [symbol "/", symbol ","]),
    plain (parts ++ [symbol "/", ahead [symbol ":"]])]

/-- The alternatives of a list of parameters. -/
def parameterListAlternatives : List Branch :=
  let stars := maybe [use .starParameters]
  let defaults := star [use .defaultParameter]
  [plain [use .slashPlain, star [use .plainParameter], defaults, stars],
    plain [use .slashDefault, defaults, stars],
    plain [plus [use .plainParameter], defaults, stars],
    plain [plus [use .defaultParameter], stars], plain [use .starParameters]]

/-- What is wrong with parameters. -/
def badParameterAlternatives : List Branch :=
  let slash := oneOf [[use .slashPlain], [use .slashDefault]]
  let either := star [use .eitherParameter]
  let plains := star [use .plainParameter]
  let defaults := oneOf [[use .slashDefault], [plus [use .defaultParameter]]]
  let wrong (parts : List Item) (f : ParameterFault) := faulty parts (.parameter f)
  [wrong [plains, defaults, use .plainParameter] .defaultOrder,
    wrong [plains, symbol "(", separated [name], maybe [symbol ","], symbol ")"]
      .parenthesized,
    wrong [symbol "/", symbol ","] .nothingBeforeSlash,
    wrong [slash, either, symbol "/"] .secondSlash,
    wrong [maybe [slash], either, symbol "*",
      oneOf [[symbol ","], [use .plainParameter]], either, symbol "/"] .slashAfterStar,
    wrong [plus [use .eitherParameter], symbol "/", symbol "*"] .missingComma]

/-- What is wrong with parameters after a star. -/
def badStarParameterAlternatives : List Branch :=
  let after := oneOf [[use .plainParameter], [symbol ","]]
  let wrong (parts : List Item) (f : ParameterFault) := faulty parts (.parameter f)
  [wrong [symbol "*",
      oneOf [[symbol ":"], [symbol ",", oneOf [[symbol ":"], [symbol "**"]]]]] .nothingAfterStar,
    wrong [symbol "*", name, symbol "="] .starDefault,
    wrong [symbol "*", after, star [use .eitherParameter], symbol "*", after] .secondStar]

/-- What is wrong with a parameter with two stars. -/
def badDoubleAlternatives : List Branch :=
  let wrong (parts : List Item) (f : ParameterFault) := faulty parts (.parameter f)
  [wrong [symbol "**", name, symbol "="] .doubleDefault,
    wrong [symbol "**", name, symbol ",", name] .afterDouble,
    wrong [symbol "**", name, symbol ",",
      oneOf [[symbol "*"], [symbol "**"], [symbol "/"]]] .afterDouble]

/-! ### Wrong expressions -/

/-- Two expressions without anything between them, inside of brackets, or half a conditional
expression. -/
def badExpressionAlternatives : List Branch :=
  let adjacent : Nat → List Value → Result := fun level vs =>
    match (Value.firstExpr vs).command? with
    | some _ => .fail
    | none => if level = 0 then .fail else .fault .missingComma
  [⟨[notAhead [oneOf [[name, quoted], [softWord]]], use .disjunction, use .certainExpression],
      adjacent, false⟩,
    faulty [use .disjunction, symbol "if", use .disjunction,
      notAhead [oneOf [[symbol "else"], [symbol ":"]]]] .missingElse]

/-- An equals sign in place of a comparison or of an assignment. -/
def badNamedAlternatives : List Branch :=
  let rest := notAhead [oneOf [[symbol "="], [symbol ":="]]]
  [judged [use .expression, symbol ":=", use .expression] fun es =>
      es.head?.map fun e => .renamed e.label,
    faulty [name, symbol "=", use .bitwiseOr, rest] .assignedName,
    judged [notAhead [oneOf ([[use .tuple], [use .generator]] ++ wordConstants)],
        use .bitwiseOr, symbol "=", use .bitwiseOr, rest] fun es =>
      es.head?.map fun e => .assignedHere e.label]

/-- Clauses after something that cannot have any. -/
def badClausesAlternatives : List Branch :=
  let braces := symbol "\x7b"
  [faulty [oneOf [[symbol "("], [braces]], use .starredExpression, use .clauses] .starredClause,
    faulty [braces, use .starNamedExpression, symbol ",", use .starNamedExpressions,
      use .clauses] .bareTarget,
    faulty [braces, use .starNamedExpression, symbol ",", use .clauses] .bareTarget]

/-- A key without a value. -/
def badValueAlternatives : List Branch :=
  [faulty [use .expression, symbol ":", symbol "*", use .bitwiseOr] .starredValue,
    faulty [use .expression, symbol ":", ahead [oneOf [[symbol "\x7d"], [symbol ","]]]]
      .missingValue]

/-- Arguments in the wrong order, or clauses among them. -/
def badArgumentsAlternatives : List Branch :=
  let clausesAfter : Nat → List Value → Result := fun _ vs =>
    match vs with
    | args :: _ => if args.exprs.length ≤ 1 then .fail else .fault .bareClause
    | [] => .fail
  let position : Nat → List Value → Result := fun _ vs =>
    match vs with
    | args :: _ => .fault (.positionalAfter (args.keywords.contains true))
    | [] => .fail
  [faulty [oneOf [[positionalArgs, symbol ",", use .keywordArgs], [use .keywordArgs]], symbol ",",
      separated [use .starredExpression, notAhead [symbol "="]]] .starAfterUnpacking,
    faulty [use .expression, use .clauses, symbol ",",
      maybe [oneOf [[use .args], [use .expression, use .clauses]]]] .bareClause,
    faulty [name, symbol "=", use .expression, use .clauses] .assignedName,
    ⟨[use .args, use .clauses], clausesAfter, false⟩,
    faulty [use .args, symbol ",", use .expression, use .clauses] .bareClause,
    ⟨[use .args, symbol ",", use .args], position, false⟩]

/-- A name of an argument that is none. -/
def badKeywordAlternatives : List Branch :=
  [⟨[oneOf wordConstants, symbol "="], fun _ vs =>
      .fault (.assigned ((vs.head?.map Value.symbol).getD "")), false⟩,
    faulty [name, symbol "=", use .expression, use .clauses] .assignedName,
    faulty [notAhead [name, symbol "="], use .expression, symbol "="] .assignedArgument]

/-! ### All rules -/

/-- The alternatives of a rule. -/
def Rule.alternatives : Rule → List Branch
  | .whole => [inner [use .expressions, star [newline], finish]]
  | .embedded => [plain [use .starExpressions]]
  | .expressions => listed .expression
  | .expression =>
    [suspected [use .badExpression], suspected [use .badCommand]] ++ conditional
  | .certainExpression => conditional
  | .starExpressions => listed .starExpression
  | .starExpression =>
    [made [symbol "*", use .bitwiseOr] fun es => .starred (es.headD (.tuple [])),
      plain [use .expression]]
  | .starNamedExpressions => [plain [separated [use .starNamedExpression], maybe [symbol ","]]]
  | .starNamedExpression =>
    [made [symbol "*", use .bitwiseOr] fun es => .starred (es.headD (.tuple [])),
      plain [use .namedExpression]]
  | .assignment => [formed [name, symbol ":=", commit, use .expression] .named]
  | .namedExpression =>
    [plain [use .assignment], suspected [use .badNamed],
      plain [use .expression, notAhead [symbol ":="]]]
  | .disjunction => joinedBy .conjunction "or"
  | .conjunction => joinedBy .inversion "and"
  | .inversion => [formed [symbol "not", use .inversion] .operation, plain [use .comparison]]
  | .comparison =>
    [⟨[use .bitwiseOr, plus [use .comparisonPart]], fun _ vs =>
        let isIn :=
          match vs with
          | [_, .list (.list (operator :: _) :: _)] => operator.symbol = "in"
          | _ => false
        .value (.expr (.comparison (Value.firstExpr vs) isIn)), false⟩,
      plain [use .bitwiseOr]]
  | .comparisonPart =>
    let simple (s : String) := plain [symbol s, use .bitwiseOr]
    [simple "==", simple "!=", simple "<=", simple "<", simple ">=", simple ">",
      plain [symbol "not", symbol "in", use .bitwiseOr], simple "in",
      plain [symbol "is", symbol "not", use .bitwiseOr], simple "is"]
  | .bitwiseOr => operations .bitwiseXor ["|"]
  | .bitwiseXor => operations .bitwiseAnd ["^"]
  | .bitwiseAnd => operations .shift ["&"]
  | .shift => operations .sum ["<<", ">>"]
  | .sum => operations .term ["+", "-"]
  | .term => operations .factor ["*", "/", "//", "%", "@"]
  | .factor =>
    let signed (s : String) :=
      made [symbol s, use .factor] fun es => .unary s (es.headD (.tuple []))
    [signed "+", signed "-", signed "~", plain [use .power]]
  | .power => [formed [use .awaited, symbol "**", use .factor] .operation, plain [use .awaited]]
  | .awaited => [formed [symbol "await", use .primary] .await, plain [use .primary]]
  | .primary =>
    [⟨[use .atom, star [use .primaryPart]],
      fun _ vs => .value (.expr (Value.suffixed vs)), false⟩]
  | .primaryPart => suffixAlternatives []
  | .atom => atomAlternatives
  | .strings => [plain [plus [quoted]]]
  | .tuple =>
    [made [symbol "(", maybe [use .starNamedExpression, symbol ",",
      maybe [use .starNamedExpressions]], symbol ")"] .tuple]
  | .group =>
    [inner [symbol "(", oneOf [[use .yielded], [use .namedExpression]], symbol ")"],
      suspected [use .badGroup]]
  | .generator =>
    [formed [symbol "(", unassigned, use .clauses, symbol ")"] .generator,
      suspected [use .badClauses]]
  | .set => [made [symbol "\x7b", use .starNamedExpressions, symbol "\x7d"] .set]
  | .setClauses =>
    [formed [symbol "\x7b", use .namedExpression, use .clauses, symbol "\x7d"] .setClauses,
      suspected [use .badClauses]]
  | .dict =>
    [⟨[symbol "\x7b", maybe [use .pairs], symbol "\x7d"],
        fun _ vs => .value (.expr (.dict (Value.entriesIn vs))), false⟩,
      plain [symbol "\x7b", use .badPairs, symbol "\x7d"]]
  | .dictClauses =>
    [formed [symbol "\x7b", use .keyValue, use .clauses, symbol "\x7d"] .dictClauses,
      suspected [use .badDictClauses]]
  | .pairs => [plain [separated [use .pair], maybe [symbol ","]]]
  | .pair =>
    [⟨[symbol "**", use .bitwiseOr],
        fun _ vs => .value (.entry none (Value.firstExpr vs)), false⟩,
      plain [use .keyValue]]
  | .keyValue =>
    [⟨[use .expression, symbol ":", use .expression], fun _ vs =>
      match Value.exprsIn vs with
      | [key, value] => .value (.entry (some key) value)
      | _ => .fail, false⟩]
  | .clauses => [plain [plus [use .clause]]]
  | .clause => clauseAlternatives
  | .yielded =>
    [formed [symbol "yield", symbol "from", use .expression] .yield,
      formed [symbol "yield", maybe [use .starExpressions]] .yield]
  | .arguments =>
    [plain [use .args, maybe [symbol ","], ahead [symbol ")"]],
      suspected [use .badArguments]]
  | .args =>
    [plain [positionalArgs, maybe [symbol ",", use .keywordArgs]], plain [use .keywordArgs]]
  | .keywordArgs =>
    let starred := separated [use .keywordOrStarred]
    let double := separated [use .keywordOrDouble]
    [plain [starred, symbol ",", double], plain [starred], plain [double]]
  | .keywordOrStarred =>
    [suspected [use .badKeyword], keywordBranch, plain [use .starredExpression]]
  | .keywordOrDouble =>
    [suspected [use .badKeyword], keywordBranch,
      ⟨[symbol "**", use .expression], fun _ _ => .value (.keyword true), false⟩]
  | .starredExpression =>
    [made [symbol "*", use .expression] fun es => .starred (es.headD (.tuple [])),
      faulty [symbol "*"] .loneStar]
  | .starTargets =>
    [plain [use .starTarget, notAhead [symbol ","]],
      plain [use .starTarget, star [symbol ",", use .starTarget], maybe [symbol ","]]]
  | .starTargetTuple =>
    [plain [use .starTarget, plus [symbol ",", use .starTarget], maybe [symbol ","]],
      plain [use .starTarget, symbol ","]]
  | .starTarget =>
    [plain [symbol "*", notAhead [symbol "*"], use .starTarget], plain [use .target]]
  | .target =>
    [plain [use .targetPrimary, symbol ".", name, notAhead [use .targetEnd]],
      plain [use .starAtom]]
  | .starAtom =>
    [plain [name], plain [symbol "(", use .target, symbol ")"],
      plain [symbol "(", maybe [use .starTargetTuple], symbol ")"]]
  | .targetPrimary =>
    [plain [use .atom, ahead [use .targetEnd],
      star [oneOf ((suffixAlternatives [ahead [use .targetEnd]]).map Branch.parts)]]]
  | .targetEnd => [plain [oneOf [[symbol "("], [symbol "."]]]]
  | .lambda =>
    [formed [symbol "lambda", maybe [use .parameters], symbol ":", use .expression] .lambda]
  | .parameters => [suspected [use .badParameters], plain [use .parameterList]]
  | .parameterList => parameterListAlternatives
  | .slashPlain => slashAlternatives [plus [use .plainParameter]]
  | .slashDefault =>
    slashAlternatives [star [use .plainParameter], plus [use .defaultParameter]]
  | .starParameters =>
    let double := maybe [use .doubleParameter]
    [suspected [use .badStarParameters],
      plain [symbol "*", use .plainParameter, star [use .eitherParameter], double],
      plain [symbol "*", symbol ",", plus [use .eitherParameter], double],
      plain [use .doubleParameter]]
  | .doubleParameter =>
    [suspected [use .badDouble], plain [symbol "**", use .plainParameter]]
  | .plainParameter => parameterAlternatives [name]
  | .defaultParameter => parameterAlternatives [name, use .defaultValue]
  | .eitherParameter => parameterAlternatives [name, maybe [use .defaultValue]]
  | .defaultValue => [plain [symbol "=", use .expression], suspected [use .badDefault]]
  | .badExpression => badExpressionAlternatives
  | .badCommand =>
    [judged [name, notAhead [symbol "("], use .starExpressions] fun es =>
      (es.head?.bind Expr.command?).map .callWithout]
  | .badNamed => badNamedAlternatives
  | .badGroup =>
    [faulty [symbol "(", use .starredExpression, symbol ")"] (.starred 1),
      faulty [symbol "(", symbol "**", use .expression, symbol ")"] (.starred 2)]
  | .badClauses => badClausesAlternatives
  | .badDictClauses =>
    [faulty [symbol "\x7b", symbol "**", use .bitwiseOr, use .clauses, symbol "\x7d"]
      .unpackedClause]
  | .badTarget =>
    [judged [maybe [symbol "async"], symbol "for", use .starExpressions] fun es =>
      (es.head?.bind Expr.wrongTarget?).map fun e => .assigned e.label]
  | .badPairs =>
    plain [separated [use .pair], symbol ",", use .badKeyValue] :: badValueAlternatives
  | .badKeyValue =>
    faulty [use .expression, notAhead [symbol ":"]] .missingColon :: badValueAlternatives
  | .badArguments => badArgumentsAlternatives
  | .badKeyword => badKeywordAlternatives
  | .badParameters => badParameterAlternatives
  | .badStarParameters => badStarParameterAlternatives
  | .badDouble => badDoubleAlternatives
  | .badDefault =>
    [faulty [symbol "=", ahead [oneOf [[symbol ")"], [symbol ","]]]] (.parameter .missingDefault)]

/-- Whether a rule is remembered at each place where it has been tried. -/
def Rule.isRemembered : Rule → Bool
  | .expression | .starExpression | .disjunction | .conjunction | .inversion | .bitwiseOr
  | .bitwiseXor | .bitwiseAnd | .shift | .sum | .term | .factor | .awaited | .primary | .strings
  | .arguments | .starTarget | .target | .targetPrimary | .badNamed => true
  | _ => false

end SymbolAtlas.Report.Handler
