import SymbolAtlas.Number.Radix
import SymbolAtlas.Settings.Yaml.ScalarText

/-!
# Names, tags and directives

A node may have a name and a tag before it, and a document directives. Tags are written with a
handle, which a directive explains, or verbatim in angle brackets; bytes in them may be written with
percent signs.
-/

namespace SymbolAtlas.Yaml.Scanning

/-- Characters of the names of anchors, tag handles and directives. -/
def isNameChar (c : Char) : Bool := c.isAlphanum || c == '-' || c == '_'

/-- The name of an anchor or an alias, after its first character. -/
def anchorName : Scanning String := do
  let name ← takeRun isNameChar
  if name = [] then throw .badAnchor
  let after ← next
  if isGap after || after.any (fun c => "?:,]\x7d%@\x60".toList.contains c) then
    return String.ofList name
  else throw .badAnchor

/-! ### Tags -/

/-- Characters of tags. -/
def isTagChar (c : Char) : Bool :=
  c.isAlphanum || "-;/?:@&=+$,_.!~*\x27()[]".toList.contains c

/-- Bytes written with percent signs, in reverse. -/
def escapedBytes (out : List UInt8) : (fuel : Nat) → Scanning (List UInt8)
  | 0 => return out
  | fuel + 1 => do
    if (← next) == some '%' then
      forward 1
      let n ← hexCode 2 .badTag fun _ => return
      escapedBytes (n.toUInt8 :: out) fuel
    else return out

/-- The text of a tag. -/
def tagText (out : Text) : (fuel : Nat) → Scanning Text
  | 0 => return out
  | fuel + 1 => do
    let out := out ++ (← takeRun isTagChar)
    if (← next) == some '%' then
      let bytes ← escapedBytes [] (← get).size
      match String.fromUTF8? ⟨bytes.reverse.toArray⟩ with
      | none => throw .badTag
      | some text => tagText (out ++ text.toList) fuel
    else return out

/-- The text of a tag, which may not be empty. -/
def tagSuffix : Scanning String := do
  let text ← tagText [] (← get).size
  if text = [] then throw .badTag else return String.ofList text

/-- A tag handle: an exclamation mark, or a name between two of them. -/
def tagHandle : Scanning String := do
  if (← next) != some '!' then throw .badTag
  if (← ahead 1) == some ' ' then
    forward 1
    return "!"
  let name := ((← get).rest.drop 1).takeWhile isNameChar
  if (← ahead (name.length + 1)) == some '!' then
    forward (name.length + 2)
    return "!" ++ String.ofList name ++ "!"
  else throw .badTag

/-- Whether a second exclamation mark follows before the next space. -/
def hasHandle : Scanning Bool := do
  let run := ((← get).rest.drop 1).takeWhile fun c => c != '!' && c != ' ' && !isBreak c
  return (← ahead (run.length + 1)) == some '!'

/-- A tag. -/
def tagToken : Scanning Token := do
  let c ← ahead 1
  let token ←
    if c == some '<' then do
      forward 2
      let suffix ← tagSuffix
      if (← next) != some '>' then throw .badTag
      forward 1
      pure (Token.tag none suffix)
    else if isGap c then do
      forward 1
      pure (.tag none "!")
    else do
      let handle ← if ← hasHandle then tagHandle else do
        forward 1
        pure "!"
      pure (.tag (some handle) (← tagSuffix))
  if isSpace (← next) then return token else throw .badTag

/-! ### Directives -/

/-- A number in a directive. -/
def directiveNumber : Scanning Nat := do
  let digits := (← get).rest.takeWhile Char.isDigit
  need digits.length
  if digits = [] then throw .badDirective
  if numeralReach < digits.length then throw (.longVersion digits.length)
  forward digits.length
  return Radix.value 10 digits

/-- The version in a directive. -/
def versionToken : Scanning Token := do
  skipSpaces
  let major ← directiveNumber
  if (← next) != some '.' then throw .badDirective
  forward 1
  let _ ← directiveNumber
  if isSpace (← next) then return .version major else throw .badDirective

/-- The handle and the start of tags in a directive. -/
def tagPrefixToken : Scanning Token := do
  skipSpaces
  let handle ← tagHandle
  if (← next) != some ' ' then throw .badDirective
  skipSpaces
  let start ← tagSuffix
  if isSpace (← next) then return .tagPrefix handle start else throw .badDirective

/-- A directive after its percent sign. -/
def directiveToken : Scanning Token := do
  let name ← takeRun isNameChar
  if name = [] || !isSpace (← next) then throw .badDirective
  let token ←
    if name = "YAML".toList then versionToken
    else if name = "TAG".toList then tagPrefixToken
    else do
      let _ ← takeRun fun c => !isBreak c
      pure .reserved
  ignoredLine .badDirective
  return token

end SymbolAtlas.Yaml.Scanning
