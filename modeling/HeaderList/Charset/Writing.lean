import HeaderList.Charset.Utf8

/-!
# `HeaderList/Charset/Writing.lean` — texts as octets

A text is written in UTF-8, which has no octets for surrogates, or in ASCII, which has octets for
the first 128 code points only. What the target has no octets for is a fault, which names the
first such code point and those that follow it without a gap. With escapes allowed, U+DC80..U+DCFF
are written as the octets that they carry, under either target (`Target.writeFrom_escaped`).
-/

set_option autoImplicit false

namespace HeaderList

namespace Target

/-- The octets of a code point, if the target has any for it. -/
def octets? : Target → CodePoint → Option Octets
  | utf8, c => if c.isSurrogate then none else some (Utf8.encode c)
  | ascii, c => if c.val < 0x80 then some [UInt8.ofNat c.val] else none

/-- The octets of a text that starts in place `start` of a longer one. -/
def writeFrom (target : Target) (escapes : Bool) (start : Nat) : Text → Except UnicodeFault Octets
  | [] => .ok []
  | c :: rest =>
    match target.octets? c with
    | some bs => (bs ++ ·) <$> writeFrom target escapes (start + 1) rest
    | none =>
      match if escapes then c.escapedOctet? else none with
      | some b => (b :: ·) <$> writeFrom target escapes (start + 1) rest
      | none =>
        .error (.unwritable target start (c :: rest.takeWhile fun d => (target.octets? d).isNone))

theorem octets?_escaped (target : Target) (b : UInt8) :
    target.octets? (CodePoint.escaped b) = none := by
  cases target with
  | utf8 => simp [octets?, CodePoint.isSurrogate_escaped]
  | ascii =>
    have hv := CodePoint.val_escaped b
    rw [octets?, if_neg (by omega)]

theorem writeFrom_escaped (target : Target) (start : Nat) {b : UInt8} (hb : 0x80 ≤ b)
    (rest : Text) :
    target.writeFrom true start (CodePoint.escaped b :: rest) =
      (b :: ·) <$> target.writeFrom true (start + 1) rest := by
  simp [writeFrom, octets?_escaped, CodePoint.escapedOctet?_escaped hb]

end Target

namespace Utf8

/-- The octets of a text without surrogates. -/
def write (t : Text) : Except UnicodeFault Octets := Target.utf8.writeFrom false 0 t

/-- The octets of a text whose surrogates, if any, carry octets. -/
def writeEscaped (t : Text) : Except UnicodeFault Octets := Target.utf8.writeFrom true 0 t

end Utf8

end HeaderList
