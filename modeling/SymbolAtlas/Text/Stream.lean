import SymbolAtlas.Number.Binary
import SymbolAtlas.Text.Utf8

/-!
# Files that are read piece by piece

A text file is read `pieceSize` characters at a time, and decoded block by block as the pieces need
it. A block has `blockSize` bytes, or more if that would be too few for the piece, going by how many
bytes the characters of the block before took. A carriage return, with or without a line feed after
it, ends a line like a line feed.

A wrong sequence of bytes shows when its block is decoded, and its place is counted from the start
of the block. A sequence that began in an earlier block counts as the start of the block that breaks
it off, and one that the end of the file breaks off is a block of its own.
-/

namespace SymbolAtlas

/-- The text of a file up to the first block that is wrong. -/
structure Decoded where
  text : Text
  /-- How many characters come before the piece that is wrong, and what is wrong with it. -/
  fault : Option (Nat × Utf8Error)
  deriving DecidableEq, Repr

namespace Stream

/-- How many characters are read at a time. -/
def pieceSize : Nat := 4096

/-- How many bytes are decoded at a time. -/
def blockSize : Nat := 8192

/-- The text that bytes encode, and the bytes at their end that begin a sequence. -/
def decodeBlock (bytes : List UInt8) : Except Utf8Error (Text × List UInt8) :=
  match Utf8.fault? 0 0 bytes with
  | none => .ok (((String.fromUTF8? ⟨bytes.toArray⟩).map String.toList).getD [], [])
  | some e =>
    if e.fault = .ended then
      let whole := bytes.take e.offset
      .ok (((String.fromUTF8? ⟨whole.toArray⟩).map String.toList).getD [], bytes.drop e.offset)
    else .error e

/-- The text with line feeds for all ends of lines. A carriage return at its end is held back,
since a line feed may follow. -/
def unbroken : Text → Text × Bool
  | [] => ([], false)
  | ['\r'] => ([], true)
  | '\r' :: '\n' :: t => let (out, held) := unbroken t; ('\n' :: out, held)
  | c :: t => let (out, held) := unbroken t; ((if c == '\r' then '\n' else c) :: out, held)

/-- How far a file has been decoded. -/
structure State where
  /-- The text of all blocks so far, latest first. -/
  out : List Text
  /-- How many characters that is. -/
  count : Nat
  /-- Bytes that begin a sequence. -/
  pending : List UInt8
  /-- Whether a carriage return is held back. -/
  held : Bool
  /-- How many bytes a character of the last block took. -/
  ratio : Binary
  rest : List UInt8

namespace State

/-- The text so far. -/
def text (s : State) : Text := s.out.reverse.flatten

/-- How many characters come before the piece that is being read. -/
def before (s : State) : Nat := s.count / pieceSize * pieceSize

/-- How many bytes the next block has. -/
def nextSize (s : State) : Nat :=
  let missing := pieceSize - s.count % pieceSize
  max blockSize (max missing (s.ratio.mul (.ofInt missing)).floor)

/-- Adds the text of a block. -/
def push (s : State) (block : Nat) (text : Text) (pending : List UInt8) : State :=
  let (lines, held) := unbroken (if s.held then '\r' :: text else text)
  let n := lines.length
  { out := lines :: s.out
    count := s.count + n
    pending := pending
    held := held
    ratio := if n = 0 then .finite 0 0 else .ofQuotient false block n
    rest := s.rest.drop block }

/-- The text at the end of the file. -/
def finish (s : State) : Decoded :=
  if s.pending ≠ [] then
    ⟨s.text, (Utf8.fault? 0 0 s.pending).map fun e => (s.before, e)⟩
  else ⟨if s.held then s.text ++ ['\n'] else s.text, none⟩

end State

/-- Decodes block after block. -/
def run : (fuel : Nat) → State → Decoded
  | 0, s => s.finish
  | fuel + 1, s =>
    let block := s.rest.take s.nextSize
    if block = [] then s.finish
    else
      match decodeBlock (s.pending ++ block) with
      | .error e => ⟨s.text, some (s.before, e)⟩
      | .ok (text, pending) => run fuel (s.push block.length text pending)

/-- The text of a file. -/
def decode (bytes : ByteArray) : Decoded :=
  run (bytes.size / blockSize + 2) ⟨[], 0, [], false, .finite 0 0, bytes.toList⟩

end Stream

end SymbolAtlas
