import SymbolAtlas.Text.Basic

/-!
# Comment summaries

A documentation comment belongs to a declaration when it ends on the line right above it. Its
summary is its first line of text that is not a tag. The comment's opening is looked for at most
`commentReach` lines above its last one.
-/

namespace SymbolAtlas

/-- How many lines above its last one a comment may start. -/
def commentReach : Nat := 50

/-- The lines of a comment, first one first, given the lines above a declaration, nearest first.
The first line is the nearest one with an opening. -/
def commentLines (front : List Text) : List Text → Option (List Text)
  | [] => none
  | line :: rest =>
    if Text.occurs "/*".toList line then
      if Text.occurs "/**".toList line then some (line :: front) else none
    else commentLines (line :: front) rest

/-- The text of one line of a comment, without its opening, closing and leading asterisks. -/
def commentText (line : Text) : Text :=
  let bare := Text.trim (((Text.trim line).dropFront "/**".toList).dropBack "*/".toList)
  Text.trim (bare.dropWhile (· == '*'))

/-- Whether a comment line says something, rather than being empty or a tag. -/
def isSummary (t : Text) : Bool :=
  match t with
  | [] => false
  | c :: _ => c != '@'

/-- The summary of a declaration, given the lines above it, nearest first. -/
def summaryOf (above : List Text) : Option String :=
  match above with
  | [] => none
  | line :: _ =>
    if "*/".toList.isSuffixOf line.trim then
      (commentLines [] (above.take (commentReach + 1))).bind fun block =>
        ((block.map commentText).find? isSummary).map String.ofList
    else none

end SymbolAtlas
