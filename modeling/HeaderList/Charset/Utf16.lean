import HeaderList.Charset.Form

/-!
# `HeaderList/Charset/Utf16.lean` — UTF-16 and UTF-32

The two forms with units of several octets, in either order of octets. UTF-16 writes the
characters past U+FFFF as two surrogate units, a high one and a low one; a surrogate unit
without its partner is a flaw. UTF-32 writes each character as one unit. In both, octets
left over at the end are a flaw.
-/

set_option autoImplicit false

namespace HeaderList

/-- Which octet of a unit comes first. -/
inductive ByteOrder
  | little
  | big
deriving DecidableEq, Repr

/-- The number that octets write in an order. -/
def ByteOrder.number (order : ByteOrder) (bs : Octets) : Nat :=
  match order with
  | .little => bs.foldr (fun b n => n * 256 + b.toNat) 0
  | .big => bs.foldl (fun n b => n * 256 + b.toNat) 0

def ByteOrder.label : ByteOrder → String
  | .little => "le"
  | .big => "be"

namespace Utf16

/-- D800..DBFF, the first unit of a pair. -/
def isHigh (n : Nat) : Bool := 0xD800 ≤ n && n ≤ 0xDBFF

def isLow (n : Nat) : Bool := 0xDC00 ≤ n && n ≤ 0xDFFF

def pair (high low : Nat) : CodePoint := .ofNat (0x10000 + (high - 0xD800) * 0x400 + (low - 0xDC00))

def read (order : ByteOrder) (a : UInt8) : Octets → Piece
  | [] => .flaw .truncated 0
  | b :: rest =>
    let unit := order.number [a, b]
    if isLow unit then .flaw .strayLowSurrogate 1
    else if isHigh unit then
      match rest with
      | c :: d :: _ =>
        let next := order.number [c, d]
        if isLow next then .char (pair unit next) 3 else .flaw .unpairedHighSurrogate 1
      | _ => .flaw .cutShort (1 + rest.length)
    else .char (.ofNat unit) 1

def surrogate? (order : ByteOrder) : Octets → Option (CodePoint × Nat)
  | a :: b :: _ =>
    let unit := order.number [a, b]
    if isHigh unit || isLow unit then some (.ofNat unit, 2) else none
  | _ => none

def form (order : ByteOrder) : Form := ⟨"utf-16-" ++ order.label, read order, surrogate? order⟩

end Utf16

namespace Utf32

def read (order : ByteOrder) (a : UInt8) : Octets → Piece
  | b :: c :: d :: _ =>
    let unit := order.number [a, b, c, d]
    if Utf16.isHigh unit || Utf16.isLow unit then .flaw .surrogate 3
    else if unit < 0x110000 then .char (.ofNat unit) 3
    else .flaw .outOfRange 3
  | rest => .flaw .truncated rest.length

def surrogate? (order : ByteOrder) : Octets → Option (CodePoint × Nat)
  | a :: b :: c :: d :: _ =>
    let unit := order.number [a, b, c, d]
    if Utf16.isHigh unit || Utf16.isLow unit then some (.ofNat unit, 4) else none
  | _ => none

def form (order : ByteOrder) : Form := ⟨"utf-32-" ++ order.label, read order, surrogate? order⟩

end Utf32

end HeaderList
