import HeaderList.Text.Basic

/-!
# `HeaderList/EncodedWord/Base64.lean` — base64, read with patience

Four characters of the alphabet are three octets. Reading is patient: white space is taken out,
padding that is missing is added, octets outside the alphabet are passed over, and so is padding
that comes too early. Padding that completes a group ends the reading, whatever follows. What is
refused is an end inside a group.
-/

set_option autoImplicit false

namespace HeaderList.Base64

def value? (b : UInt8) : Option Nat :=
  let n := b.toNat
  if 0x41 ≤ n ∧ n ≤ 0x5A then some (n - 0x41)
  else if 0x61 ≤ n ∧ n ≤ 0x7A then some (n - 0x61 + 26)
  else if 0x30 ≤ n ∧ n ≤ 0x39 then some (n - 0x30 + 52)
  else if n = 0x2B then some 62
  else if n = 0x2F then some 63
  else none

/-- How far a group has come: the number of its characters, and the bits of the
last that are in no octet yet. -/
inductive Group
  | empty
  | one (bits : Nat)
  | two (bits : Nat)
  | three (bits : Nat)
deriving DecidableEq, Repr

def Group.count : Group → Nat
  | .empty => 0
  | .one _ => 1
  | .two _ => 2
  | .three _ => 3

/-- The octets of characters that go on with a group, after `pads` equals signs since the
last character of the alphabet. -/
def readFrom (group : Group) (pads : Nat) : Octets → Option Octets
  | [] => if group = .empty then some [] else none
  | b :: rest =>
    if b = Octet.equals then
      if 2 ≤ group.count ∧ 4 ≤ group.count + (pads + 1) then some []
      else readFrom group (pads + 1) rest
    else
      match value? b with
      | none => readFrom group pads rest
      | some v =>
        match group with
        | .empty => readFrom (.one v) 0 rest
        | .one bits => (UInt8.ofNat (bits * 4 + v / 16) :: ·) <$> readFrom (.two (v % 16)) 0 rest
        | .two bits => (UInt8.ofNat (bits * 16 + v / 4) :: ·) <$> readFrom (.three (v % 4)) 0 rest
        | .three bits => (UInt8.ofNat (bits * 64 + v) :: ·) <$> readFrom .empty 0 rest

/-- Octets without white space, padded to whole groups. -/
def complete (payload : Octets) : Octets :=
  let bs := payload.filter (!Octet.isAsciiWhite ·)
  bs ++ List.replicate ((4 - bs.length % 4) % 4) Octet.equals

/-- The octets of a payload, unless it ends inside a group. -/
def decode? (payload : Octets) : Option Octets := readFrom .empty 0 (complete payload)

end HeaderList.Base64
