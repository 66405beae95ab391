import SymbolAtlas.Settings.Yaml.Name

/-!
# Cutting settings files into tokens

A file is cut into tokens from left to right. What makes this more than a matter of characters is
that a key is known as such only when its colon comes. Until then the place is kept where a key
may have begun, and the colon puts the token `key` there, together with `blockMapping` when the
key stands further in than what is around it. A key has to be on one line with its colon and at
most `keyReach` characters before it.

`Scan` holds the tokens found, and why no more were found if the file is broken.
-/

namespace SymbolAtlas.Yaml

/-- How far a colon may be from the start of its key. -/
def keyReach : Nat := 1024

/-- Whether a place can no longer be that of a key. -/
def Scanner.isStale (s : Scanner) (p : KeyPlace) : Bool :=
  p.line != s.line || p.offset + keyReach < s.offset

namespace Scanning

/-! ### Places of keys -/

/-- Gives up the places that are too far away by now. -/
def dropStale : Scanning Unit := do
  let s ← get
  if s.places.any fun p => s.isStale p && p.required then throw .keyWithoutValue
  set { s with places := s.places.filter fun p => !s.isStale p }

/-- The place of a key at the current level. -/
def place? : Scanning (Option KeyPlace) := do
  let s ← get
  return s.places.find? (·.level == s.level)

/-- Gives up the place at the current level. -/
def dropPlace : Scanning Unit := do
  if (← place?).any (·.required) then throw .keyWithoutValue
  modify fun s => { s with places := s.places.filter (·.level != s.level) }

/-- Keeps the current place as that of a key, if a key is allowed here. -/
def keepPlace : Scanning Unit := do
  if (← get).keyAllowed then
    dropPlace
    modify fun s =>
      let p : KeyPlace :=
        { level := s.level
          token := s.count
          required := s.level == 0 && s.indent == s.column
          offset := s.offset
          line := s.line
          column := s.column }
      { s with places := p :: s.places }

/-! ### Indentation -/

/-- Closes the block collections that stand further in than `column`, given those around the
innermost one. -/
def closeBlocks (column : Int) : List Int → Scanning Unit
  | [] => return
  | o :: os => do
    if column < (← get).indent then
      emit .blockEnd
      modify fun s => { s with indent := o, outer := os }
      closeBlocks column os

/-- Closes block collections, except inside of flow collections. -/
def unwind (column : Int) : Scanning Unit := do
  let s ← get
  if s.level == 0 then closeBlocks column s.outer

/-- Opens a block collection at a column, and tells whether none was open there. -/
def indentTo (column : Nat) : Scanning Bool := do
  let s ← get
  if s.indent < column then
    set { s with indent := column, outer := s.indent :: s.outer }
    return true
  else return false

/-- Opens a block collection for a token that begins here, if there is need. -/
def openBlock (t : Token) : Scanning Unit := do
  let s ← get
  if s.level == 0 then
    if ← indentTo s.column then emit t

/-! ### Tokens -/

/-- Steps over spaces, comments and line ends. After a line end a key may begin, except inside of
flow collections. -/
def skipGap : (fuel : Nat) → Scanning Unit
  | 0 => return
  | fuel + 1 => do
    skipSpaces
    skipComment
    if (← lineBreak?).isSome then
      if (← get).level == 0 then allowKey true
      skipGap fuel

/-- Closes everything at the end of the file. -/
def finish : Scanning Unit := do
  unwind (-1)
  dropPlace
  modify fun s => { s with places := [] }
  emit .streamEnd

/-- A document marker. -/
def marker (t : Token) : Scanning Unit := do
  unwind (-1)
  dropPlace
  allowKey false
  forward 3
  emit t

/-- The start of a flow collection, which may itself be a key. -/
def openFlow (t : Token) : Scanning Unit := do
  keepPlace
  modify fun s => { s with level := s.level + 1, keyAllowed := true }
  forward 1
  emit t

/-- The end of a flow collection. -/
def closeFlow (t : Token) : Scanning Unit := do
  dropPlace
  modify fun s => { s with level := s.level - 1, keyAllowed := false }
  forward 1
  emit t

/-- A comma between the entries of a flow collection. -/
def flowEntry : Scanning Unit := do
  dropPlace
  allowKey true
  forward 1
  emit .flowEntry

/-- Refuses a token of block collections where no key may begin. -/
def needKeyAllowed (e : ScanError) : Scanning Unit := do
  let s ← get
  if s.level == 0 && !s.keyAllowed then throw e

/-- A dash in front of the entry of a block list. -/
def blockEntry : Scanning Unit := do
  needKeyAllowed .entryNotAllowed
  openBlock .blockSequence
  allowKey true
  dropPlace
  forward 1
  emit .blockEntry

/-- A token between keys and values that does not belong to a key before it. -/
def mappingToken (t : Token) : Scanning Unit := do
  openBlock .blockMapping
  allowKey ((← get).level == 0)
  dropPlace
  forward 1
  emit t

/-- A question mark in front of a key. -/
def explicitKey : Scanning Unit := do
  needKeyAllowed .keyNotAllowed
  mappingToken .key

/-- A colon. If a key may have begun before it, that is where the key is. -/
def mappingValue : Scanning Unit := do
  match ← place? with
  | some p =>
    modify fun s => { s with places := s.places.filter (·.level != s.level), keyAllowed := false }
    emitAt p.token .key
    if (← get).level == 0 then
      if ← indentTo p.column then emitAt p.token .blockMapping
    forward 1
    emit .value
  | none =>
    needKeyAllowed .valueNotAllowed
    mappingToken .value

/-- A scalar in quotes. -/
def quotedScalar (quote : Char) : Scanning Unit := do
  keepPlace
  allowKey false
  forward 1
  let text ← quoted quote [] (← get).size
  emit (.scalar (String.ofList text) false)

/-- A scalar without quotes. -/
def plainScalar : Scanning Unit := do
  keepPlace
  allowKey false
  let s ← get
  let text ← plain (s.indent + 1) [] [] s.size
  emit (.scalar (String.ofList text.reverse) true)

/-- A scalar in the lines that follow. -/
def blockScalar (folded : Bool) : Scanning Unit := do
  allowKey true
  dropPlace
  forward 1
  let text ← blockScalarText folded
  emit (.scalar (String.ofList text) false)

/-- An anchor or an alias, which may be a key or the start of one. -/
def nodeName (token : String → Token) : Scanning Unit := do
  keepPlace
  allowKey false
  forward 1
  emit (token (← anchorName))

/-- A tag, which may be the start of a key. -/
def tag : Scanning Unit := do
  keepPlace
  allowKey false
  emit (← tagToken)

/-- A directive. -/
def directive : Scanning Unit := do
  unwind (-1)
  dropPlace
  allowKey false
  forward 1
  emit (← directiveToken)

/-- Whether a plain scalar may begin with a character. -/
def beginsPlain (c : Char) : Scanning Bool := do
  if !isGap (some c) && !"-?:,[]\x7b\x7d#&*!|>'\x22%@\x60".toList.contains c then return true
  let s ← get
  return !isGap (← ahead 1) && (c == '-' || (s.level == 0 && (c == '?' || c == ':')))

/-- Reads the token that a character begins, where that takes no look at what follows it. -/
def simpleToken? (level : Nat) (c : Char) : Option (Scanning Unit) :=
  match c with
  | '[' => some (openFlow .flowSequence)
  | '{' => some (openFlow .flowMapping)
  | ']' => some (closeFlow .flowSequenceEnd)
  | '}' => some (closeFlow .flowMappingEnd)
  | ',' => some flowEntry
  | '*' => some (nodeName .aliasOf)
  | '&' => some (nodeName .anchor)
  | '!' => some tag
  | '\x27' | '\x22' => some (quotedScalar c)
  | '|' => if level == 0 then some (blockScalar false) else none
  | '>' => if level == 0 then some (blockScalar true) else none
  | _ => none

/-- Reads the token that the next character begins. -/
def token (c : Char) : Scanning Unit := do
  let s ← get
  if s.column == 0 && c == '%' then
    return ← directive
  if s.column == 0 && (c == '-' || c == '.') then
    if ← atMarker then
      return ← marker (if c == '-' then .documentStart else .documentEnd)
  if let some read := simpleToken? s.level c then
    return ← read
  if c == '-' then
    if isGap (← ahead 1) then
      return ← blockEntry
  if c == '?' || c == ':' then
    let alone ← if s.level == 0 then isGap <$> ahead 1 else pure true
    if alone then
      return ← if c == '?' then explicitKey else mappingValue
  if ← beginsPlain c then plainScalar else throw (.strayCharacter c)

/-- Steps to the next token and reads it. A byte order mark at the start of the file is passed
over. -/
def nextToken : Scanning Unit := do
  let s ← get
  if s.offset == 0 && s.rest.head? == some '\ufeff' then forward 1
  skipGap s.size
  dropStale
  unwind (← get).column
  match ← next with
  | none => finish
  | some c => token c

end Scanning

/-- The tokens of a file, and why there are no more if it is broken. -/
structure Scan where
  tokens : List Token
  broken : Option ScanError
  deriving DecidableEq, Repr

namespace Scan

/-- The tokens that are settled: from the first place on where a key may have begun, it is open
what the tokens are. -/
def settled (s : Scanner) : List Token :=
  let n := (s.places.map KeyPlace.token).foldl min s.count
  (s.tokens.drop (s.count - n)).reverse

/-- Reads tokens until the end. Every token but the last takes a character or more. A file is
read no further than is needed to settle the next token, so when it breaks off, what was settled
before still counts. -/
def run : (fuel : Nat) → Scanner → Scan
  | 0, s => ⟨s.tokens.reverse, none⟩
  | fuel + 1, s =>
    match Scanning.nextToken.run s with
    | .error e => ⟨settled s, some e⟩
    | .ok ((), after) =>
      if after.tokens.head? == some .streamEnd then ⟨after.tokens.reverse, none⟩
      else
        match Scanning.dropStale.run after with
        | .error e => ⟨settled s, some e⟩
        | .ok ((), after) => run fuel after

/-- The tokens of a file. -/
def ofSource (s : Source) : Scan := run (s.text.length + 2) (.ofSource s)

end Scan

end SymbolAtlas.Yaml
