/-!
# `HeaderList/Text/Basic.lean` — octets, code points, texts

The two kinds of string that the library moves between. A header arrives as `Octets`; what a
reader sees is a `Text`, a list of code points. A `Text` is not a `String`, because a lone
surrogate is a legitimate member of one: octets that no charset explains travel through a message
as U+DC80..U+DCFF, and a few decoders give a surrogate back. Both are plain lists, so that every
statement about them is a statement about lists.

The section on the written forms of numbers holds what messages need:
decimal and hexadecimal digits.
-/

set_option autoImplicit false

namespace HeaderList

/-- A string of octets, as a header has it on the wire. -/
abbrev Octets := List UInt8

/-- There are code points, which is what their literals ask for. -/
instance CodePoint.neZero : @NeZero Nat Zero.ofOfNat0 0x110000 := ⟨Nat.succ_ne_zero _⟩

/-- A Unicode code point; the surrogates D800..DFFF are code points too. -/
abbrev CodePoint := Fin 0x110000

instance CodePoint.lawfulBEq : @LawfulBEq CodePoint instBEqOfDecidableEq where
  eq_of_beq := of_decide_eq_true
  rfl := of_decide_eq_self_eq_true _

/-- A text: code points in reading order. -/
abbrev Text := List CodePoint

/-! ## Octets with a name -/

namespace Octet

@[match_pattern] abbrev tab : UInt8 := 0x09
@[match_pattern] abbrev lf : UInt8 := 0x0A
@[match_pattern] abbrev cr : UInt8 := 0x0D
@[match_pattern] abbrev space : UInt8 := 0x20
@[match_pattern] abbrev comma : UInt8 := 0x2C
/-- The equals sign: it opens and closes an encoded word, starts a Q escape, and pads base64. -/
@[match_pattern] abbrev equals : UInt8 := 0x3D
@[match_pattern] abbrev question : UInt8 := 0x3F
/-- The low line, a space in the Q encoding. -/
@[match_pattern] abbrev underscore : UInt8 := 0x5F

/-- Space and tab, the white space that can fold a header. -/
def isBlank (b : UInt8) : Bool := b == space || b == tab

def isAsciiWhite (b : UInt8) : Bool := b == space || (tab ≤ b && b ≤ cr)

def isLineBreak (b : UInt8) : Bool := b == cr || b == lf

def toLower (b : UInt8) : UInt8 := if 0x41 ≤ b ∧ b ≤ 0x5A then b + 0x20 else b

end Octet

/-! ## Code points -/

namespace CodePoint

def ofNat (n : Nat) : CodePoint := Fin.ofNat 0x110000 n

def ofChar (c : Char) : CodePoint :=
  ⟨c.toNat, by rcases c.valid with h | h <;> simp only [Char.toNat, UInt32.toNat] at * <;> omega⟩

def ofOctet (b : UInt8) : CodePoint := ⟨b.toNat, by have := b.toNat_lt; omega⟩

/-- U+FFFD, which stands for octets that say nothing. -/
def replacement : CodePoint := 0xFFFD

def isSurrogate (c : CodePoint) : Bool := 0xD800 ≤ c.val && c.val ≤ 0xDFFF

/-- The surrogate that carries an octet no charset explains: U+DC00 plus the octet. -/
def escaped (b : UInt8) : CodePoint := ofNat (0xDC00 + b.toNat)

/-- The octet that a code point carries: those of U+DC80..U+DCFF carry
80..FF, no other carries one. -/
def escapedOctet? (c : CodePoint) : Option UInt8 :=
  if 0xDC80 ≤ c.val ∧ c.val ≤ 0xDCFF then some (UInt8.ofNat (c.val - 0xDC00)) else none

def toChar? (c : CodePoint) : Option Char :=
  if c.isSurrogate then none else some (Char.ofNat c.val)

theorem ofOctet_inj {b c : UInt8} (h : ofOctet b = ofOctet c) : b = c := by
  have hval : (ofOctet b).val = (ofOctet c).val := by rw [h]
  exact UInt8.toNat_inj.1 hval

theorem val_escaped (b : UInt8) : (escaped b).val = 0xDC00 + b.toNat := by
  have := b.toNat_lt
  simp only [escaped, ofNat, Fin.ofNat]
  omega

theorem isSurrogate_escaped (b : UInt8) : (escaped b).isSurrogate = true := by
  have := b.toNat_lt
  rw [isSurrogate, val_escaped, Bool.and_eq_true, decide_eq_true_iff, decide_eq_true_iff]
  omega

theorem escapedOctet?_escaped {b : UInt8} (hb : 0x80 ≤ b) : escapedOctet? (escaped b) = some b := by
  have hlt := b.toNat_lt
  have hge : 0x80 ≤ b.toNat := by simpa [UInt8.le_iff_toNat_le] using hb
  rw [escapedOctet?, val_escaped, if_pos (by omega)]
  simp

end CodePoint

/-! ## Texts -/

namespace Text

def ofString (s : String) : Text := s.toList.map CodePoint.ofChar

def ofOctets (bs : Octets) : Text := bs.map CodePoint.ofOctet

theorem ofOctets_inj {bs cs : Octets} (h : ofOctets bs = ofOctets cs) : bs = cs :=
  (List.map_inj_right fun _ _ => CodePoint.ofOctet_inj).1 h

theorem ofOctet_mem_ofOctets {b : UInt8} {bs : Octets} :
    CodePoint.ofOctet b ∈ ofOctets bs ↔ b ∈ bs := by
  constructor
  · intro h
    obtain ⟨c, hc, heq⟩ := List.mem_map.1 h
    rwa [← CodePoint.ofOctet_inj heq]
  · intro h
    exact List.mem_map_of_mem h

/-- The string with the same characters, unless there is a surrogate. -/
def toString? (t : Text) : Option String := (t.mapM CodePoint.toChar?).map String.ofList

/-- The octets of a text whose code points are all below 100 hexadecimal. -/
def toOctets? (t : Text) : Option Octets :=
  t.mapM fun c => if c.val < 0x100 then some (UInt8.ofNat c.val) else none

end Text

instance : Coe String Text := ⟨Text.ofString⟩

/-! ## Numbers in texts -/

namespace Text

def decimal (n : Nat) : Text := ofString (Nat.repr n)

def hexDigit (n : Nat) : CodePoint :=
  CodePoint.ofNat (if n % 16 < 10 then 0x30 + n % 16 else 0x57 + n % 16)

/-- The value of a hexadecimal digit in either case, given by its number in ASCII. -/
def hexValue? (n : Nat) : Option Nat :=
  if 0x30 ≤ n ∧ n ≤ 0x39 then some (n - 0x30)
  else if 0x41 ≤ n ∧ n ≤ 0x46 then some (n - 0x37)
  else if 0x61 ≤ n ∧ n ≤ 0x66 then some (n - 0x57)
  else none

/-- The last `width` hexadecimal digits of a number. -/
def hex : (width : Nat) → Nat → Text
  | 0, _ => []
  | width + 1, n => hex width (n / 16) ++ [hexDigit n]

end Text

end HeaderList
