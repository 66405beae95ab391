import SymbolAtlas.Text.Basic

/-!
# Text in bytes

Text files are encoded in UTF-8. Bytes that encode no text are refused with the first sequence
that is wrong: a byte that starts none, a sequence that breaks off before another byte, or one
that breaks off at the end.
-/

namespace SymbolAtlas

/-- What is wrong with a sequence of bytes. -/
inductive Utf8Fault where
  | start
  | continuation
  | ended
  deriving DecidableEq, Repr

/-- A sequence of bytes that encodes no character, and where it stands. -/
structure Utf8Error where
  fault : Utf8Fault
  offset : Nat
  /-- The first byte of the sequence. -/
  lead : UInt8
  /-- How many bytes of it were good. -/
  size : Nat
  deriving DecidableEq, Repr

namespace Utf8

/-- Whether a byte may follow the first byte of a sequence; a few of these leave no room for all. -/
def follows (lead byte : UInt8) : Bool :=
  let low : UInt8 := if lead = 0xE0 then 0xA0 else if lead = 0xF0 then 0x90 else 0x80
  let high : UInt8 := if lead = 0xED then 0x9F else if lead = 0xF4 then 0x8F else 0xBF
  low ≤ byte && byte ≤ high

/-- How many bytes follow a first byte, if it is one. -/
def followers? (lead : UInt8) : Option Nat :=
  if lead < 0x80 then some 0
  else if lead < 0xC2 then none
  else if lead < 0xE0 then some 1
  else if lead < 0xF0 then some 2
  else if lead < 0xF5 then some 3
  else none

/-- What is wrong with the bytes after a first byte, and after how many of them. -/
def tailFault? (lead : UInt8) : (count : Nat) → List UInt8 → Option (Utf8Fault × Nat)
  | 0, _ => none
  | _ + 1, [] => some (.ended, 0)
  | count + 1, b :: rest =>
    if follows lead b then (tailFault? 0xFF count rest).map fun (f, n) => (f, n + 1)
    else some (.continuation, 0)

/-- The first wrong sequence of bytes that start at an offset, where the first `skip` of them
belong to a sequence that is right. -/
def fault? (offset skip : Nat) : List UInt8 → Option Utf8Error
  | [] => none
  | b :: rest =>
    match skip with
    | n + 1 => fault? (offset + 1) n rest
    | 0 =>
      match followers? b with
      | none => some ⟨.start, offset, b, 1⟩
      | some count =>
        match tailFault? b count rest with
        | some (f, n) => some ⟨f, offset, b, n + 1⟩
        | none => fault? (offset + 1) count rest

/-- The text that bytes encode. -/
def decode (bytes : ByteArray) : Except Utf8Error Text :=
  match String.fromUTF8? bytes with
  | some s => .ok s.toList
  | none => .error ((fault? 0 0 bytes.toList).getD ⟨.ended, bytes.size, 0, 0⟩)

end Utf8

/-- The wording of a fault. -/
def Utf8Fault.message : Utf8Fault → String
  | .start => "invalid start byte"
  | .continuation => "invalid continuation byte"
  | .ended => "unexpected end of data"

/-- The two hexadecimal digits of a byte. -/
def byteDigits (b : UInt8) : String :=
  String.ofList [Nat.digitChar (b.toNat / 16), Nat.digitChar (b.toNat % 16)]

/-- The wording of an error. -/
def Utf8Error.message (e : Utf8Error) : String :=
  let place :=
    if e.size = 1 then "byte 0x" ++ byteDigits e.lead ++ " in position " ++ toString e.offset
    else "bytes in position " ++ toString e.offset ++ "-" ++ toString (e.offset + e.size - 1)
  "'utf-8' codec can't decode " ++ place ++ ": " ++ e.fault.message

end SymbolAtlas
