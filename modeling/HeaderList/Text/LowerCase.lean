import HeaderList.Text.Basic
import HeaderList.Text.CaseTable

/-!
# `HeaderList/Text/LowerCase.lean` — lower case of a whole text

Header names are compared without regard to case, and a name may hold any Unicode text. Lower case
is a map on single code points with two exceptions: `İ` becomes two code points, and a capital
sigma takes its final form at the end of a word, so the map has to see what stands around it.
-/

set_option autoImplicit false

namespace HeaderList

def inRanges (ranges : List (Nat × Nat)) (n : Nat) : Bool :=
  ranges.any fun (low, high) => low ≤ n && n ≤ high

def CaseRun.lower? (r : CaseRun) (n : Nat) : Option Nat :=
  if r.first ≤ n ∧ n ≤ r.last ∧ (n - r.first) % r.stride = 0 then some (r.target + (n - r.first))
  else none

namespace CodePoint

def lower (c : CodePoint) : Text :=
  if c = 0x130 then [0x69, 0x307]
  else match lowerRuns.findSome? (·.lower? c.val) with
    | some n => [ofNat n]
    | none => [c]

/-- A letter with a case. -/
def isCased (c : CodePoint) : Bool := inRanges casedRanges c.val

/-- A mark that the rule for a final sigma looks through. -/
def isCaseIgnorable (c : CodePoint) : Bool := inRanges ignorableRanges c.val

end CodePoint

namespace Text

/-- Is the first code point that is no mark a cased letter? -/
def startsCased (t : Text) : Bool :=
  match t.dropWhile CodePoint.isCaseIgnorable with
  | [] => false
  | c :: _ => c.isCased

/-- Lower case of a text that follows the reversed text `before`. A capital sigma after a letter and
not before one is final. -/
def lowerAfter (before : Text) : Text → Text
  | [] => []
  | c :: rest =>
    (if c = 0x3A3 then
      [if startsCased before && !startsCased rest then 0x3C2 else 0x3C3]
    else c.lower) ++ lowerAfter (c :: before) rest

def lower (t : Text) : Text := lowerAfter [] t

end Text

/-! ## Nothing is lost

In lower case a text may get longer, but no code point goes away. -/

theorem CodePoint.lower_ne_nil (c : CodePoint) : c.lower ≠ [] := by
  rw [lower]
  split
  · exact List.cons_ne_nil _ _
  · split <;> exact List.cons_ne_nil _ _

theorem Text.lower_ne_nil {t : Text} (h : t ≠ []) : t.lower ≠ [] := by
  obtain ⟨c, rest, rfl⟩ := List.exists_cons_of_ne_nil h
  rw [lower, lowerAfter]
  intro hnil
  have hfirst := (List.append_eq_nil_iff.1 hnil).1
  split at hfirst
  · exact List.cons_ne_nil _ _ hfirst
  · exact c.lower_ne_nil hfirst

/-! ## ASCII -/

theorem lowerRuns_ascii : ∀ n < 0x80, lowerRuns.findSome? (·.lower? n) =
    if 0x41 ≤ n ∧ n ≤ 0x5A then some (n + 0x20) else none := by
  decide +kernel

theorem CodePoint.lower_ofOctet {b : UInt8} (hb : b < 0x80) :
    (ofOctet b).lower = [ofOctet (Octet.toLower b)] := by
  have hlt : b.toNat < 0x80 := by simpa [UInt8.lt_iff_toNat_lt] using hb
  have hval : (ofOctet b).val = b.toNat := rfl
  have hne : ofOctet b ≠ 0x130 := by
    intro h
    have hv : (ofOctet b).val = 0x130 := by rw [h]; rfl
    omega
  have hcase : (0x41 ≤ b ∧ b ≤ 0x5A) ↔ (0x41 ≤ b.toNat ∧ b.toNat ≤ 0x5A) := by
    rw [UInt8.le_iff_toNat_le, UInt8.le_iff_toNat_le]
    rfl
  rw [lower, if_neg hne, hval, lowerRuns_ascii b.toNat hlt, Octet.toLower]
  by_cases h : 0x41 ≤ b.toNat ∧ b.toNat ≤ 0x5A
  · rw [if_pos h, if_pos (hcase.2 h)]
    have hsum : (b + 0x20).toNat = b.toNat + 0x20 := by
      rw [UInt8.toNat_add]
      exact Nat.mod_eq_of_lt (by show b.toNat + 0x20 < 256; omega)
    have heq : ofNat (b.toNat + 0x20) = ofOctet (b + 0x20) := by
      apply Fin.ext
      show (b.toNat + 0x20) % 0x110000 = (b + 0x20).toNat
      rw [hsum]
      exact Nat.mod_eq_of_lt (by omega)
    exact congrArg (fun c => [c]) heq
  · rw [if_neg h, if_neg (fun hle => h (hcase.1 hle))]

namespace Text

theorem lowerAfter_ofOctets {bs : Octets} (h : ∀ b ∈ bs, b < 0x80) (before : Text) :
    lowerAfter before (ofOctets bs) = ofOctets (bs.map Octet.toLower) := by
  induction bs generalizing before with
  | nil => rfl
  | cons b bs ih =>
    rw [List.forall_mem_cons] at h
    have hlt : b.toNat < 0x80 := by simpa [UInt8.lt_iff_toNat_lt] using h.1
    have hne : CodePoint.ofOctet b ≠ 0x3A3 := by
      intro hb
      have hv : (CodePoint.ofOctet b).val = 0x3A3 := by rw [hb]; rfl
      have hval : (CodePoint.ofOctet b).val = b.toNat := rfl
      omega
    show lowerAfter before (CodePoint.ofOctet b :: ofOctets bs) = _
    rw [lowerAfter, if_neg hne, CodePoint.lower_ofOctet h.1, ih h.2]
    rfl

/-- Lower case of an ASCII text is lower case octet by octet. -/
theorem lower_ofOctets {bs : Octets} (h : ∀ b ∈ bs, b < 0x80) :
    (ofOctets bs).lower = ofOctets (bs.map Octet.toLower) :=
  lowerAfter_ofOctets h []

end Text

end HeaderList
