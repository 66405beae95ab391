import SymbolAtlas.Text.Basic

/-!
# Bytes in base 64

Three bytes are written as four characters of an alphabet of 64. At the end, one byte is written as
two characters and two bytes as three, filled up to four with equals signs. Characters that are not
in the alphabet do not count, and neither does what comes after a group that is filled up.
-/

namespace SymbolAtlas

/-- The value of a character of the alphabet. -/
def base64Value? (c : Char) : Option Nat :=
  if c.isUpper then some (c.toNat - 'A'.toNat)
  else if c.isLower then some (c.toNat - 'a'.toNat + 26)
  else if c.isDigit then some (c.toNat - '0'.toNat + 52)
  else if c == '+' then some 62
  else if c == '/' then some 63
  else none

/-- The bytes that a text stands for, with `out` holding those before it in reverse. The group
around the text has `place` characters so far, whose bits that make no byte yet are `bits`, and
`fill` equals signs. -/
def base64From (out : List UInt8) (place bits fill : Nat) : Text → Option (List UInt8)
  | [] => if place = 0 then some out.reverse else none
  | c :: t =>
    if c == '=' then
      if place < 2 then base64From out place bits fill t
      else if 4 ≤ place + fill + 1 then some out.reverse
      else base64From out place bits (fill + 1) t
    else
      match base64Value? c with
      | none => base64From out place bits fill t
      | some v =>
        match place with
        | 0 => base64From out 1 v 0 t
        | 1 => base64From ((bits * 4 + v / 16).toUInt8 :: out) 2 (v % 16) 0 t
        | 2 => base64From ((bits * 16 + v / 4).toUInt8 :: out) 3 (v % 4) 0 t
        | _ => base64From ((bits * 64 + v).toUInt8 :: out) 0 0 0 t

/-- The bytes that a text stands for, if its groups are all complete. -/
def base64Bytes? (t : Text) : Option (List UInt8) := base64From [] 0 0 0 t

end SymbolAtlas
