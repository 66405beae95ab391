import SymbolAtlas.Text.Stream

/-!
# Characters of settings files

A settings file may hold only printable characters, line ends and tabs. It is read and checked piece
by piece as its characters are needed: the first two pieces at once, and each of the others when the
reader comes to it. So what is wrong in a piece shows only if nothing before it was.
-/

namespace SymbolAtlas.Yaml

/-- Why a file cannot be read on. -/
inductive SourceError where
  | encoding (e : Utf8Error)
  /-- It has a character that no file may have. -/
  | unprintable (c : Char)
  deriving DecidableEq, Repr

/-- Whether a character may stand in a settings file. -/
def isAllowed (c : Char) : Bool :=
  let n := c.toNat
  n == 9 || n == 10 || n == 13 || (0x20 ≤ n && n ≤ 0x7E) || n == 0x85 || (0xA0 ≤ n && n ≤ 0xFFFD) ||
    0x10000 ≤ n

/-- The characters of a file, as far as they can be read. -/
structure Source where
  text : Text
  /-- Where the first piece begins that cannot be read, and why it cannot. -/
  stop : Option (Nat × SourceError)
  deriving DecidableEq, Repr

namespace Source

/-- Where the pieces begin that are read together with the character at an offset. -/
def pieceStart (offset : Nat) : Nat :=
  let start := offset / Stream.pieceSize * Stream.pieceSize
  if start < 2 * Stream.pieceSize then 0 else start

/-- The first character that may not stand in a file, and where the pieces around it begin. -/
def unprintable? (t : Text) : Option (Nat × SourceError) :=
  (t.zipIdx.find? fun e => !isAllowed e.1).map fun (c, i) => (pieceStart i, .unprintable c)

/-- The earlier of two places; of two that are the same the first one. -/
def earlier (a b : Option (Nat × SourceError)) : Option (Nat × SourceError) :=
  match a, b with
  | some x, some y => if y.1 < x.1 then some y else some x
  | some x, none => some x
  | none, y => y

/-- The characters of a file. Bytes that are wrong show before characters of the same piece. -/
def ofDecoded (d : Decoded) : Except SourceError Source :=
  let encoding := d.fault.map fun (n, e) => (pieceStart n, SourceError.encoding e)
  match earlier encoding (unprintable? d.text) with
  | some (0, e) => .error e
  | stop => .ok ⟨d.text, stop⟩

end Source

end SymbolAtlas.Yaml
