import SymbolAtlas.Entries
import SymbolAtlas.Symbol

/-!
# Calls inside a file

A call of a function or method is its name, not preceded by an identifier character, followed by
blanks and an opening parenthesis; the place where the name is declared is no call. The caller is
the innermost declaration around the name, or the file. Names alone decide: every callable of
that name becomes a callee.
-/

namespace SymbolAtlas

/-- A call of one symbol by another. -/
structure Edge where
  caller : String
  callee : String
  deriving DecidableEq, Repr

/-- The word for the relation that an edge states. -/
def Edge.label : String := "call"

/-- The length of a call of `name` at the start of a text, through its parenthesis. -/
def callLength? (name : Text) (t : Text) : Option Nat :=
  match name.isPrefixOf? t with
  | none => none
  | some rest =>
    let gap := rest.takeWhile isBlank
    match rest.drop gap.length with
    | '(' :: _ => some (name.length + gap.length + 1)
    | _ => none

/-- The offsets of the calls of `name` in a text that follows the character `before` and starts
at `offset`. The first `skip` characters belong to a call found before. -/
def callsFrom (name : Text) (skip : Nat) (before : Option Char) (offset : Nat) : Text → List Nat
  | [] => []
  | c :: t =>
    match skip with
    | n + 1 => callsFrom name n (some c) (offset + 1) t
    | 0 =>
      match if before.any isIdent then none else callLength? name (c :: t) with
      | some length => offset :: callsFrom name (length - 1) (some c) (offset + 1) t
      | none => callsFrom name 0 (some c) (offset + 1) t

/-- The offsets at which `name` is followed by blanks and a parenthesis, without overlap. -/
def callOffsets (name : String) (t : Text) : List Nat := callsFrom name.toList 0 none 0 t

/-- The last of the symbols whose scope contains the position and starts latest. -/
def enclosing (symbols : List Symbol) (p : Position) : Option Symbol :=
  symbols.foldl (fun best s =>
    if s.scope.contains p && best.all fun b => b.scope.start.le s.scope.start then some s else best)
    none

namespace Snapshot

/-- The functions and methods of a snapshot. -/
def callables (s : Snapshot) : List Symbol := s.symbols.filter (·.kind.isCallable)

/-- Whether a callable called `name` is declared at a position. -/
def declaresAt (s : Snapshot) (name : String) (p : Position) : Bool :=
  s.callables.any fun c => c.name = name && c.selection.start = p

/-- The symbol that a call at a position is made by: the innermost declaration there, or the
first symbol of the snapshot. -/
def callerAt (s : Snapshot) (p : Position) : Option Symbol :=
  (enclosing s.declared p).or s.symbols.head?

/-- The calls of `name`, each linked to every callable of that name. -/
def edgesOf (s : Snapshot) (index : LineIndex) (name : String) : List Edge :=
  (callOffsets name s.source).flatMap fun offset =>
    let p := index.positionOf offset
    if s.declaresAt name p then []
    else
      match s.callerAt p with
      | none => []
      | some caller =>
        (s.callables.filter (·.name = name)).map fun callee => ⟨caller.id, callee.id⟩

/-- The calls of a snapshot without repetition, name by name in order of declaration. -/
def callEdges (s : Snapshot) : List Edge :=
  let index := LineIndex.ofText s.source
  (((s.callables.map Symbol.name).eraseDups).flatMap (s.edgesOf index)).eraseDups

end Snapshot

end SymbolAtlas
