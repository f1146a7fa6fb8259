import HeaderList.Text.Basic

/-!
# `HeaderList/EncodedWord/QEncoding.lean` — the Q encoding

In the Q encoding a low line is a space, and an equals sign with two hexadecimal digits after it
is the octet of that number. Everything else is itself, an equals sign without two digits
included: no payload is refused.
-/

set_option autoImplicit false

namespace HeaderList.QEncoding

def hexOctet? (a b : UInt8) : Option UInt8 :=
  match Text.hexValue? a.toNat, Text.hexValue? b.toNat with
  | some x, some y => some (UInt8.ofNat (x * 16 + y))
  | _, _ => none

/-- Octets with their escapes resolved, from left to right. -/
def unescape : Octets → Octets
  | [] => []
  | Octet.equals :: a :: b :: rest =>
    match hexOctet? a b with
    | some octet => octet :: unescape rest
    | none => Octet.equals :: unescape (a :: b :: rest)
  | b :: rest => b :: unescape rest

/-- Octets with a space for each low line. -/
def spaces (bs : Octets) : Octets := bs.map fun b => if b = Octet.underscore then Octet.space else b

def decode (payload : Octets) : Octets := unescape (spaces payload)

end HeaderList.QEncoding
