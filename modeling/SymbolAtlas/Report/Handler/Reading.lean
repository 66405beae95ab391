import SymbolAtlas.Report.Handler.Quoted
import SymbolAtlas.Report.Handler.Rules

/-!
# Reading expressions

An expression is read by its rules, from left to right. A rule that does not fit gives its place
back to the next one, and a rule that is remembered is tried at each place only once.

If the expression cannot be read, it is read a second time, now with the alternatives that find out
what is wrong. Characters that make no token count more than a fault before them, wherever they
are; the expression has to be read up to them only where nothing else is wrong.
-/

namespace SymbolAtlas.Report.Handler

/-- A fault that stops reading. -/
structure Problem where
  fault : Fault
  /-- Whether the tokens end here, so that there is nothing more to look at. -/
  final : Bool
  deriving DecidableEq, Repr

/-- How far an expression has been read. -/
structure Progress where
  /-- The number of the next token. -/
  place : Nat
  /-- How many tokens have been looked at. -/
  seen : Nat
  /-- Whether this reading is to find out what is wrong. -/
  diagnosing : Bool
  /-- For each place the rules that have been tried there, what they stand for if they fit, and the
  place after them. -/
  memory : Array (List (Rule × Option Value × Nat))
  deriving Repr

/-- Before the first token. -/
def Progress.start (src : Source) (seen : Nat) (diagnosing : Bool) : Progress :=
  ⟨0, seen, diagnosing, Array.replicate (src.tokens.size + 1) []⟩

/-- Steps of reading. -/
abbrev Parsing := ExceptT Problem (StateM Progress)

/-- An expression and where it stands. -/
structure Subject where
  source : Source
  /-- Whether it is the expression of a field. -/
  embedded : Bool
  deriving Repr

/-- A fault of this expression. Faults of fields further inside have their own place. -/
def Subject.fault (s : Subject) (f : Fault) : Fault :=
  match s.embedded, f with
  | true, .within _ | true, .scan _ | false, _ => f
  | true, _ => .within f

/-- A fault of tokens that end too early. -/
def Subject.scanFault (s : Subject) (f : ScanFault) : Fault :=
  if s.embedded then .within (.scan f) else .scan f

/-- The fault where the tokens end. -/
def Subject.stopFault (s : Subject) : Fault :=
  match s.source.stop with
  | some (.broken f) => .scan f
  | some stop => s.scanFault (s.source.stopFault stop)
  | none => s.fault .invalid

/-- The fault that counts when there is one before some tokens have been looked at. -/
def Subject.settle (s : Subject) (seen : Nat) (f : Fault) : Fault :=
  match s.source.stop with
  | none => f
  | some (.broken g) => .scan g
  | some (.cut _) =>
    match s.source.brackets, s.source.tokens[seen - 1]? with
    | (c, line) :: _, some t => if line < t.line then s.scanFault (.neverClosed c) else f
    | _, _ => f

namespace Parsing

/-- The next token. -/
def peek (s : Subject) : Parsing Token := do
  let p ← get
  match s.source.tokens[p.place]? with
  | some t =>
    set { p with seen := max p.seen (p.place + 1) }
    return t
  | none => throw ⟨s.stopFault, true⟩

/-- Takes the next token if it is of some kind. -/
def take (s : Subject) (fits : Kind → Bool) : Parsing (Option Token) := do
  let t ← peek s
  if fits t.kind then
    modify fun p => { p with place := p.place + 1 }
    return some t
  else return none

/-- Goes back to a place. -/
def goTo (place : Nat) : Parsing Unit := modify fun p => { p with place }

/-- Raises a fault. -/
def raise {α : Type} (s : Subject) (f : Fault) : Parsing α := throw ⟨s.fault f, false⟩

/-- Takes a number. -/
def takeNumber (s : Subject) : Parsing (Option Value) := do
  match ← take s fun k => match k with | .number _ => true | _ => false with
  | some ⟨.number t, _, _, _⟩ =>
    match Constant.ofNumber t with
    | .ok c => return some (.expr (.constant c))
    | .error digits => raise s (.longNumber digits)
  | _ => return none

/-- Takes a name. -/
def takeName (s : Subject) (fits : Text → Bool) : Parsing (Option Value) := do
  match ← take s fun k => match k with | .name t => fits t | _ => false with
  | some ⟨.name t, _, _, _⟩ => return some (.expr (.name t))
  | _ => return none

/-- What a rule has come to at this place, if it has been tried here. -/
def remembered (r : Rule) : Parsing (Option (Option Value)) := do
  if !r.isRemembered then return none
  let p ← get
  match (p.memory.getD p.place []).lookup r with
  | none => return none
  | some (v, place) =>
    goTo place
    return some v

/-- Keeps what a rule that was tried at a place has come to. -/
def keep (r : Rule) (place : Nat) (v : Option Value) : Parsing Unit :=
  if r.isRemembered then
    modify fun p =>
      { p with memory := p.memory.modify place fun known => (r, v, p.place) :: known }
  else pure ()

end Parsing

/-- Words with a meaning in some places only. -/
def softWords : List String := ["_", "case", "match"]

/-- Whether a name is such a word or the start of one. -/
def startsSoftWord (t : Text) : Bool := softWords.any fun w => t.isPrefixOf w.toList

/-- The texts of tokens with quotes. -/
def Value.quotedTexts (v : Value) : List Text :=
  let text : Value → Option Text
    | .token ⟨.quoted t, _, _, _⟩ => some t
    | _ => none
  match v with
  | .list vs => vs.filterMap text
  | v => (text v).toList

/-- What trying parts has come to. -/
inductive Attempt where
  | fits (vs : List Value)
  | fails (committed : Bool)

open Parsing

mutual

/-- Tries a part, and gives its values if it fits. -/
def tryPart (s : Subject) : (fuel : Nat) → Item → Parsing (Option (List Value))
  | 0, _ => return none
  | fuel + 1, part => do
    let start := (← get).place
    match part with
    | .symbol w => return (← take s (· = .symbol w)).map fun t => [.token t]
    | .newline => return (← take s (· = .newline)).map fun t => [.token t]
    | .finish => return (← take s (· = .finish)).map fun t => [.token t]
    | .quoted =>
      return (← take s fun k => match k with | .quoted _ => true | _ => false).map
        fun t => [.token t]
    | .name => return (← takeName s fun _ => true).map fun v => [v]
    | .softWord => return (← takeName s startsSoftWord).map fun v => [v]
    | .number => return (← takeNumber s).map fun v => [v]
    | .use r => return (← tryRule s fuel r).map fun v => [v]
    | .ahead parts =>
      let found ← tryParts s fuel parts []
      goTo start
      match found with
      | .fits _ => return some []
      | .fails _ => return none
    | .notAhead parts =>
      let found ← tryParts s fuel parts []
      goTo start
      match found with
      | .fits _ => return none
      | .fails _ => return some []
    | .oneOf choices => return (← tryChoices s fuel choices).map fun v => [v]
    | .maybe parts =>
      match ← tryParts s fuel parts [] with
      | .fits vs => return some [.ofList vs]
      | .fails _ =>
        goTo start
        return some [.nothing]
    | .star parts => return some [.list (← tryAgain s fuel parts [])]
    | .plus parts =>
      match ← tryAgain s fuel parts [] with
      | [] => return none
      | vs => return some [.list vs]
    | .separated parts =>
      match ← tryParts s fuel parts [] with
      | .fails _ =>
        goTo start
        return none
      | .fits first =>
        let rest ← tryAgain s fuel (.symbol "," :: parts) []
        return some [.list (.ofList first :: rest)]
    | .commit => return some []

/-- Tries parts one after the other. -/
def tryParts (s : Subject) : (fuel : Nat) → List Item → List Value → Parsing Attempt
  | 0, _, _ => return .fails false
  | _ + 1, [], done => return .fits done
  | fuel + 1, part :: rest, done => do
    match ← tryPart s fuel part with
    | none => return .fails false
    | some vs =>
      match ← tryParts s fuel rest (done ++ vs), part with
      | .fails _, .commit => return .fails true
      | found, _ => return found

/-- Tries parts as often as they fit. -/
def tryAgain (s : Subject) : (fuel : Nat) → List Item → List Value → Parsing (List Value)
  | 0, _, done => return done.reverse
  | fuel + 1, parts, done => do
    let start := (← get).place
    match ← tryParts s fuel parts [] with
    | .fits vs => tryAgain s fuel parts (.ofList vs :: done)
    | .fails _ =>
      goTo start
      return done.reverse

/-- The first of several lists of parts that fits. -/
def tryChoices (s : Subject) : (fuel : Nat) → List (List Item) → Parsing (Option Value)
  | 0, _ => return none
  | _ + 1, [] => return none
  | fuel + 1, parts :: rest => do
    let start := (← get).place
    match ← tryParts s fuel parts [] with
    | .fits vs => return some (.ofList vs)
    | .fails committed =>
      goTo start
      if committed then return none else tryChoices s fuel rest

/-- The first of several alternatives that fits. -/
def tryBranches (s : Subject) : (fuel : Nat) → List Branch → Parsing (Option Value)
  | 0, _ => return none
  | _ + 1, [] => return none
  | fuel + 1, b :: rest => do
    let p ← get
    if b.diagnostic && !p.diagnosing then tryBranches s fuel rest
    else
      match ← tryParts s fuel b.parts [] with
      | .fits vs =>
        let place := (← get).place
        match b.act ((s.source.tokens[place - 1]?.map Token.level).getD 0) vs with
        | .value v => return some v
        | .fail => return none
        | .fault f => raise s f
      | .fails committed =>
        goTo p.place
        if committed then return none else tryBranches s fuel rest

/-- Tries a rule. -/
def tryRule (s : Subject) : (fuel : Nat) → Rule → Parsing (Option Value)
  | 0, _ => return none
  | fuel + 1, r => do
    match ← remembered r with
    | some v => return v
    | none =>
      let p ← get
      if r = .certainExpression then set { p with diagnosing := false }
      let found ← tryBranches s fuel r.alternatives
      if r = .certainExpression then modify fun q => { q with diagnosing := p.diagnosing }
      let value ←
        match r, found with
        | .strings, some v =>
          match joinQuoted (checkEmbedded fuel) v.quotedTexts with
          | .ok e => pure (some (.expr e))
          | .error f => raise s f
        | _, found => pure found
      keep r p.place value
      return value

/-- Checks the expression of a field. -/
def checkEmbedded : (fuel : Nat) → Text → Except Fault Unit
  | 0, _ => .ok ()
  | fuel + 1, t =>
    (readBy ⟨.ofText ('(' :: t ++ [')']), true⟩ .embedded fuel).map fun _ => ()

/-- Reads an expression by a rule. -/
def readBy (s : Subject) (r : Rule) : (fuel : Nat) → Except Fault Value
  | 0 => .error (s.fault .invalid)
  | fuel + 1 =>
    let settled (p : Problem) (seen : Nat) : Fault :=
      if p.final || (s.source.tokens[seen - 1]?).any Token.atEnd then p.fault
      else s.settle seen p.fault
    match (tryRule s fuel r).run.run (.start s.source 0 false) with
    | (.ok (some v), _) => .ok v
    | (.error p, first) => .error (settled p first.seen)
    | (.ok none, first) =>
      match (tryRule s fuel r).run.run (.start s.source first.seen true) with
      | (.error p, second) => .error (settled p second.seen)
      | (.ok _, second) =>
        match (s.source.tokens[first.seen - 1]?).map Token.kind with
        | some .indent => .error (s.fault .unexpectedIndent)
        | some .dedent => .error (s.fault .unexpectedUnindent)
        | _ => .error (s.settle second.seen (s.fault .invalid))

end

/-- How deep rules can be nested in each other for each character of an expression. -/
def depthPerCharacter : Nat := 400

/-- Reads an expression. -/
def Expr.ofText (t : Text) : Except Fault Expr :=
  if t.contains '\x00' then .error (.scan .nullCharacter)
  else
    match readBy ⟨.ofText t, false⟩ .whole (depthPerCharacter * (t.length + 4)) with
    | .ok v => .ok (Value.firstExpr [v])
    | .error f => .error f

end SymbolAtlas.Report.Handler
