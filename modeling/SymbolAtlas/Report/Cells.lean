import SymbolAtlas.Report.Width
import SymbolAtlas.Text.Basic

/-!
# Cells

Layout counts cells and not characters. A joiner puts the next character into the cells of the one
before it, so that both take no cell, and a selector after a character asks for its picture, which
may take one cell more.

Text is cut between clusters: a character with cells, and all that is shown in the same place.
-/

namespace SymbolAtlas.Report

/-- The character that joins the next one to the one before. -/
def joiner : Char := '\u200d'

/-- The character that asks for the picture of the one before. -/
def selector : Char := '\ufe0f'

/-- How many cells a selector adds after a character. -/
def growth (last : Option Char) : Nat := if last.any grows then 1 else 0

/-- The number of cells of a text, where `last` is the last character with cells before it, and
`joined` says that a joiner comes directly before it. -/
def cellsFrom (last : Option Char) (joined : Bool) : Text → Nat
  | [] => 0
  | c :: t =>
    if joined then cellsFrom last false t
    else if c == joiner then cellsFrom last true t
    else if c == selector then growth last + cellsFrom none false t
    else if cellWidth c = 0 then cellsFrom last false t
    else cellWidth c + cellsFrom (some c) false t

/-- The number of cells of a text. -/
def cells (t : Text) : Nat := cellsFrom none false t

/-- Text filled up with spaces to a number of cells. -/
def fillCells (width : Nat) (t : Text) : Text := t ++ List.replicate (width - cells t) ' '

/-! ### Clusters -/

/-- Characters that are shown in one place, and the number of their cells. -/
structure Cluster where
  text : Text
  cells : Nat
  deriving DecidableEq, Repr

/-- The cluster with another character. -/
def Cluster.push (k : Cluster) (c : Char) (more : Nat) : Cluster := ⟨k.text ++ [c], k.cells + more⟩

/-- The clusters of a text after the cluster `current`, if there is one, where `last` is the last
character with cells and `joined` says that a joiner comes directly before. -/
def clustersFrom (current : Option Cluster) (last : Option Char) (joined : Bool) :
    Text → List Cluster
  | [] => current.toList
  | c :: t =>
    match current with
    | none =>
      let size := if c == joiner || c == selector then 0 else cellWidth c
      clustersFrom (some ⟨[c], size⟩) (if size = 0 then none else some c) false t
    | some k =>
      if joined then clustersFrom (some (k.push c 0)) last false t
      else if c == joiner then clustersFrom (some (k.push c 0)) last true t
      else if c == selector then clustersFrom (some (k.push c (growth last))) none false t
      else if cellWidth c = 0 then clustersFrom (some (k.push c 0)) last false t
      else k :: clustersFrom (some ⟨[c], cellWidth c⟩) (some c) false t

/-- The clusters of a text. -/
def clusters (t : Text) : List Cluster := clustersFrom none none false t

/-! ### Cutting -/

/-- The start of clusters that takes a number of cells. A cluster that would go over the end becomes
a space. -/
def cutCells (width : Nat) : List Cluster → Text
  | [] => []
  | k :: rest =>
    if width = 0 then []
    else if k.cells ≤ width then k.text ++ cutCells (width - k.cells) rest
    else [' ']

/-- Text cut off or filled up with spaces to a number of cells. -/
def fitCells (width : Nat) (t : Text) : Text :=
  if width = 0 then []
  else if cells t ≤ width then fillCells width t
  else cutCells width (clusters t)

/-- Cuts clusters into pieces that take at most a number of cells. `piece` holds the text of the
current piece, which takes `used` cells. -/
def chopClusters (width : Nat) (piece : Text) (used : Nat) : List Cluster → List Text
  | [] => if used = 0 then [] else [piece]
  | k :: rest =>
    if width < used + k.cells then piece :: chopClusters width k.text k.cells rest
    else chopClusters width (piece ++ k.text) (used + k.cells) rest

/-- Cuts a text into pieces that take at most a number of cells. -/
def chopCells (width : Nat) (t : Text) : List Text := chopClusters width [] 0 (clusters t)

end SymbolAtlas.Report
