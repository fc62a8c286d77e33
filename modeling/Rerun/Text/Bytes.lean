/-!
Bytes of a text file. Reading never fails: each longest start of a sequence that does not go on to
a character is read as one replacement character.
-/

namespace Rerun.Text

def replacementChar : Char := Char.ofNat 0xfffd

/-- The number of bytes that follow a first byte, the bits it gives, and the range allowed to the
second byte. -/
def leadByte? (b : Nat) : Option (Nat × Nat × Nat × Nat) :=
  if 0xc2 ≤ b ∧ b ≤ 0xdf then some (1, b - 0xc0, 0x80, 0xbf)
  else if b = 0xe0 then some (2, 0, 0xa0, 0xbf)
  else if b = 0xed then some (2, 0xd, 0x80, 0x9f)
  else if 0xe1 ≤ b ∧ b ≤ 0xef then some (2, b - 0xe0, 0x80, 0xbf)
  else if b = 0xf0 then some (3, 0, 0x90, 0xbf)
  else if 0xf1 ≤ b ∧ b ≤ 0xf3 then some (3, b - 0xf0, 0x80, 0xbf)
  else if b = 0xf4 then some (3, 4, 0x80, 0x8f)
  else none

/-- A sequence begun and not finished: how many bytes are missing, the bits so far, and the range
of the next byte. -/
structure Begun where
  missing : Nat
  bits : Nat
  low : Nat
  high : Nat

/-- Decodes the bytes that follow an optional begun sequence. -/
def decodeFrom : Option Begun → List UInt8 → List Char
  | none, [] => []
  | some _, [] => [replacementChar]
  | begun, b :: bs =>
    let n := b.toNat
    let fresh (out : List Char) : List Char :=
      if n < 0x80 then out ++ Char.ofNat n :: decodeFrom none bs
      else
        match leadByte? n with
        | none => out ++ replacementChar :: decodeFrom none bs
        | some (missing, bits, low, high) => out ++ decodeFrom (some ⟨missing, bits, low, high⟩) bs
    match begun with
    | none => fresh []
    | some ⟨missing, bits, low, high⟩ =>
      if low ≤ n ∧ n ≤ high then
        let bits := bits * 64 + (n - 0x80)
        if missing ≤ 1 then Char.ofNat bits :: decodeFrom none bs
        else decodeFrom (some ⟨missing - 1, bits, 0x80, 0xbf⟩) bs
      else fresh [replacementChar]

def decode (bs : List UInt8) : String :=
  String.ofList (decodeFrom none bs)

def hexValue? (c : Char) : Option Nat :=
  let n := c.toNat
  if 48 ≤ n ∧ n ≤ 57 then some (n - 48)
  else if 97 ≤ n ∧ n ≤ 102 then some (n - 87)
  else if 65 ≤ n ∧ n ≤ 70 then some (n - 55)
  else none

/-- Bytes written as pairs of hexadecimal digits. -/
def bytesOfHexChars : List Char → List UInt8
  | h :: l :: cs =>
    match hexValue? h, hexValue? l with
    | some h, some l => UInt8.ofNat (16 * h + l) :: bytesOfHexChars cs
    | _, _ => bytesOfHexChars cs
  | _ => []

def bytesOfHex (s : String) : List UInt8 :=
  bytesOfHexChars s.toList

end Rerun.Text
