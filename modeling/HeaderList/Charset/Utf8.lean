import HeaderList.Charset.Form

/-!
# `HeaderList/Charset/Utf8.lean` — UTF-8, read and written

Reading follows the table of well-formed sequences: the first octet says how many octets follow,
which bits it gives, and in which range the second one lies; the narrowed ranges keep out
surrogates, overlong sequences, and numbers past the last code point. A sequence that breaks off
is one flaw, as long as the octets that could still have become a character. Writing is
`Utf8.encode`, which has octets for every number; that surrogates are not written is for the
writer of a whole text to see to.
-/

set_option autoImplicit false

namespace HeaderList.Utf8

/-! ## Reading -/

/-- What a first octet of several promises. -/
structure Lead where
  bits : Nat
  low : UInt8
  high : UInt8
  more : Nat

/-- The promise of an octet that starts a sequence of two, three or four. -/
def lead? (b : UInt8) : Option Lead :=
  if b < 0xC2 then none
  else if b < 0xE0 then some ⟨b.toNat - 0xC0, 0x80, 0xBF, 0⟩
  else if b = 0xE0 then some ⟨0, 0xA0, 0xBF, 1⟩
  else if b = 0xED then some ⟨0xD, 0x80, 0x9F, 1⟩
  else if b < 0xF0 then some ⟨b.toNat - 0xE0, 0x80, 0xBF, 1⟩
  else if b = 0xF0 then some ⟨0, 0x90, 0xBF, 2⟩
  else if b < 0xF4 then some ⟨b.toNat - 0xF0, 0x80, 0xBF, 2⟩
  else if b = 0xF4 then some ⟨4, 0x80, 0x8F, 2⟩
  else none

/-- The rest of a sequence of which `taken` octets after the first have been read: an octet between
`low` and `high`, then `more` octets between 80 and BF. -/
def readTail (bits : Nat) (low high : UInt8) (taken : Nat) : (more : Nat) → Octets → Piece
  | _, [] => .flaw .cutShort taken
  | more, b :: rest =>
    if low ≤ b ∧ b ≤ high then
      let bits := bits * 64 + (b.toNat - 0x80)
      match more with
      | 0 => .char (.ofNat bits) (taken + 1)
      | more + 1 => readTail bits 0x80 0xBF (taken + 1) more rest
    else .flaw .badContinuation taken

def read (b : UInt8) (rest : Octets) : Piece :=
  if b < 0x80 then .char (.ofOctet b) 0
  else match lead? b with
    | some l => readTail l.bits l.low l.high 0 l.more rest
    | none => .flaw .badStart 0

/-- A surrogate in three octets, as UTF-8 would write one. -/
def surrogate? : Octets → Option (CodePoint × Nat)
  | a :: b :: c :: _ =>
    if a &&& 0xF0 = 0xE0 ∧ b &&& 0xC0 = 0x80 ∧ c &&& 0xC0 = 0x80 then
      let n := (a &&& 0x0F).toNat * 4096 + (b &&& 0x3F).toNat * 64 + (c &&& 0x3F).toNat
      if (CodePoint.ofNat n).isSurrogate then some (.ofNat n, 3) else none
    else none
  | _ => none

def form : Form := ⟨"utf-8", read, surrogate?⟩

/-! ## Writing -/

def encode (c : CodePoint) : Octets :=
  let n := c.val
  let tail (k : Nat) : UInt8 := UInt8.ofNat (0x80 + k % 64)
  if n < 0x80 then [UInt8.ofNat n]
  else if n < 0x800 then [UInt8.ofNat (0xC0 + n / 64), tail n]
  else if n < 0x10000 then [UInt8.ofNat (0xE0 + n / 4096), tail (n / 64), tail n]
  else [UInt8.ofNat (0xF0 + n / 262144), tail (n / 4096), tail (n / 64), tail n]

end HeaderList.Utf8
