import HeaderList.Charset.Decode

/-!
# `HeaderList/Proofs/Charset/Utf8.lean` — UTF-8 undoes itself

What is written in UTF-8 is read as it was (`decodeFrom_write`), as long as it has no
surrogates, and what is read without a flaw is written as it was (`write_of_decodeFrom`).
Reading and writing were defined apart, by ranges of first octets and by ranges of numbers; the
two meet here, length by length.
-/

set_option autoImplicit false

namespace HeaderList.Utf8

/-! ## One character

One lemma for each length: the first octet makes a promise of so many more octets, and of the
range of the second (`lead?_three`, `lead?_four`); then each octet that follows is taken for its
six bits (`readTail_trail`, `readTail_last`). The numbers go together by arithmetic alone. -/

/-- The octet for the last six bits of a number. -/
def trail (k : Nat) : UInt8 := UInt8.ofNat (0x80 + k % 64)

theorem toNat_trail (k : Nat) : (trail k).toNat = 0x80 + k % 64 :=
  UInt8.toNat_ofNat_of_lt' (show _ < 256 by omega)

theorem trail_bounds (k : Nat) :
    (0x80 : UInt8).toNat ≤ 0x80 + k % 64 ∧ 0x80 + k % 64 ≤ (0xBF : UInt8).toNat := by
  have hlow : (0x80 : UInt8).toNat = 0x80 := rfl
  have hhigh : (0xBF : UInt8).toNat = 0xBF := rfl
  rw [hlow, hhigh]
  omega

section Tail

variable {low high : UInt8} {k : Nat}
  (h : low.toNat ≤ 0x80 + k % 64 ∧ 0x80 + k % 64 ≤ high.toNat) (bits taken : Nat) (rest : Octets)

include h

theorem trail_in_range : low ≤ trail k ∧ trail k ≤ high := by
  rw [UInt8.le_iff_toNat_le, UInt8.le_iff_toNat_le, toNat_trail]
  exact h

theorem readTail_trail (more : Nat) :
    readTail bits low high taken (more + 1) (trail k :: rest) =
      readTail (bits * 64 + k % 64) 0x80 0xBF (taken + 1) more rest := by
  rw [readTail, if_pos (trail_in_range h), toNat_trail, Nat.add_sub_cancel_left]

theorem readTail_last : readTail bits low high taken 0 (trail k :: rest) =
    .char (.ofNat (bits * 64 + k % 64)) (taken + 1) := by
  rw [readTail, if_pos (trail_in_range h), toNat_trail, Nat.add_sub_cancel_left]

end Tail

/-- An octet beyond ASCII is read by what it promises. -/
theorem read_of_lead {b : UInt8} {l : Lead} (hb : 0x80 ≤ b.toNat) (hl : lead? b = some l)
    (rest : Octets) : read b rest = readTail l.bits l.low l.high 0 l.more rest := by
  have hlt : ¬ b < 0x80 := by
    rw [UInt8.lt_iff_toNat_lt]
    exact Nat.not_lt.2 hb
  rw [read, if_neg hlt, hl]

theorem read_one {n : Nat} (h : n < 0x80) (rest : Octets) :
    read (UInt8.ofNat n) rest = .char (.ofNat n) 0 := by
  have hn : (UInt8.ofNat n).toNat = n :=
    UInt8.toNat_ofNat_of_lt' (show _ < 256 by omega)
  have hlt : UInt8.ofNat n < 0x80 := by
    rw [UInt8.lt_iff_toNat_lt, hn]
    exact h
  rw [read, if_pos hlt]
  congr 1
  apply Fin.ext
  simp only [CodePoint.ofOctet, CodePoint.ofNat, Fin.ofNat, hn]
  omega

theorem read_two {n : Nat} (h : 0x80 ≤ n) (h' : n < 0x800) (rest : Octets) :
    read (UInt8.ofNat (0xC0 + n / 64)) (trail n :: rest) = .char (.ofNat n) 1 := by
  have hb : (UInt8.ofNat (0xC0 + n / 64)).toNat = 0xC0 + n / 64 :=
    UInt8.toNat_ofNat_of_lt' (show _ < 256 by omega)
  have hl : lead? (UInt8.ofNat (0xC0 + n / 64)) = some ⟨n / 64, 0x80, 0xBF, 0⟩ := by
    simp only [lead?, UInt8.lt_iff_toNat_lt, hb]
    rw [if_neg (by simp; omega), if_pos (by simp; omega), Nat.add_sub_cancel_left]
  have hn : n / 64 * 64 + n % 64 = n := by omega
  rw [read_of_lead (by omega) hl, readTail_last (trail_bounds n), hn]

/-- The first of three octets asks for a second one that the octets of no surrogate and
of no shorter character have. -/
theorem lead?_three {n : Nat} (h : 0x800 ≤ n) (h' : n < 0x10000) (hs : n < 0xD800 ∨ 0xDFFF < n) :
    ∃ low high, lead? (UInt8.ofNat (0xE0 + n / 4096)) = some ⟨n / 4096, low, high, 1⟩ ∧
      low.toNat ≤ 0x80 + n / 64 % 64 ∧ 0x80 + n / 64 % 64 ≤ high.toNat := by
  have hb : (UInt8.ofNat (0xE0 + n / 4096)).toNat = 0xE0 + n / 4096 :=
    UInt8.toNat_ofNat_of_lt' (show _ < 256 by omega)
  simp only [lead?, UInt8.lt_iff_toNat_lt, ← UInt8.toNat_inj, hb]
  rw [if_neg (by simp; omega), if_neg (by simp)]
  -- E0 would write shorter characters again, and ED the surrogates
  by_cases h0 : n / 4096 = 0
  · rw [if_pos (by simp; omega), h0]
    exact ⟨0xA0, 0xBF, rfl, by simp; omega, by simp; omega⟩
  rw [if_neg (by simp; omega)]
  by_cases hd : n / 4096 = 13
  · rw [if_pos (by simp; omega), hd]
    exact ⟨0x80, 0x9F, rfl, by simp, by simp; omega⟩
  rw [if_neg (by simp; omega), if_pos (by simp; omega), Nat.add_sub_cancel_left]
  exact ⟨0x80, 0xBF, rfl, trail_bounds (n / 64)⟩

theorem read_three {n : Nat} (h : 0x800 ≤ n) (h' : n < 0x10000) (hs : n < 0xD800 ∨ 0xDFFF < n)
    (rest : Octets) :
    read (UInt8.ofNat (0xE0 + n / 4096)) (trail (n / 64) :: trail n :: rest) =
      .char (.ofNat n) 2 := by
  have hb : (UInt8.ofNat (0xE0 + n / 4096)).toNat = 0xE0 + n / 4096 :=
    UInt8.toNat_ofNat_of_lt' (show _ < 256 by omega)
  obtain ⟨low, high, hl, hrange⟩ := lead?_three h h' hs
  have hn : (n / 4096 * 64 + n / 64 % 64) * 64 + n % 64 = n := by omega
  rw [read_of_lead (by omega) hl, readTail_trail hrange, readTail_last (trail_bounds n), hn]

/-- The first of four octets asks for a second one that the octets of no shorter character have,
and none that goes past the last code point. -/
theorem lead?_four {n : Nat} (h : 0x10000 ≤ n) (h' : n < 0x110000) :
    ∃ low high, lead? (UInt8.ofNat (0xF0 + n / 262144)) = some ⟨n / 262144, low, high, 2⟩ ∧
      low.toNat ≤ 0x80 + n / 4096 % 64 ∧ 0x80 + n / 4096 % 64 ≤ high.toNat := by
  have hb : (UInt8.ofNat (0xF0 + n / 262144)).toNat = 0xF0 + n / 262144 :=
    UInt8.toNat_ofNat_of_lt' (show _ < 256 by omega)
  simp only [lead?, UInt8.lt_iff_toNat_lt, ← UInt8.toNat_inj, hb]
  rw [if_neg (by simp; omega), if_neg (by simp; omega), if_neg (by simp; omega),
    if_neg (by simp; omega), if_neg (by simp)]
  -- F0 would write shorter characters again, and F4 goes past the last one
  by_cases h0 : n / 262144 = 0
  · rw [if_pos (by simp; omega), h0]
    exact ⟨0x90, 0xBF, rfl, by simp; omega, by simp; omega⟩
  rw [if_neg (by simp; omega)]
  by_cases h4 : n / 262144 = 4
  · rw [if_neg (by simp; omega), if_pos (by simp; omega), h4]
    exact ⟨0x80, 0x8F, rfl, by simp, by simp; omega⟩
  rw [if_pos (by simp; omega), Nat.add_sub_cancel_left]
  exact ⟨0x80, 0xBF, rfl, trail_bounds (n / 4096)⟩

theorem read_four {n : Nat} (h : 0x10000 ≤ n) (h' : n < 0x110000) (rest : Octets) :
    read (UInt8.ofNat (0xF0 + n / 262144)) (trail (n / 4096) :: trail (n / 64) :: trail n :: rest) =
      .char (.ofNat n) 3 := by
  have hb : (UInt8.ofNat (0xF0 + n / 262144)).toNat = 0xF0 + n / 262144 :=
    UInt8.toNat_ofNat_of_lt' (show _ < 256 by omega)
  obtain ⟨low, high, hl, hrange⟩ := lead?_four h h'
  have hn : ((n / 262144 * 64 + n / 4096 % 64) * 64 + n / 64 % 64) * 64 + n % 64 = n := by omega
  rw [read_of_lead (by omega) hl, readTail_trail hrange, readTail_trail (trail_bounds (n / 64)),
    readTail_last (trail_bounds n), hn]

/-- What is written for a code point is read as it, whatever comes after. -/
theorem read_encode {c : CodePoint} (hc : c.isSurrogate = false) :
    ∃ b tail, encode c = b :: tail ∧ ∀ rest, read b (tail ++ rest) = .char c tail.length := by
  have hval : CodePoint.ofNat c.val = c := Fin.ofNat_val_eq_self c
  have hlt := c.isLt
  simp only [CodePoint.isSurrogate, Bool.and_eq_false_iff, decide_eq_false_iff_not] at hc
  rw [encode]
  dsimp only
  -- the cases of `encode`, by the length of what is written
  split
  · rename_i h1
    exact ⟨_, [], rfl, fun rest => by rw [List.nil_append, read_one h1, hval, List.length_nil]⟩
  · rename_i h1
    split
    · rename_i h2
      exact ⟨_, [trail c.val], rfl, fun rest => (read_two (by omega) h2 rest).trans
        (by rw [hval]; rfl)⟩
    · rename_i h2
      split
      · rename_i h3
        exact ⟨_, [trail (c.val / 64), trail c.val], rfl, fun rest =>
          (read_three (by omega) h3 (by omega) rest).trans (by rw [hval]; rfl)⟩
      · exact ⟨_, [trail (c.val / 4096), trail (c.val / 64), trail c.val], rfl, fun rest =>
          (read_four (by omega) hlt rest).trans (by rw [hval]; rfl)⟩

/-! ## One character, the other way

What is read as a character is what would be written for it, so that no character has two forms. -/

theorem val_ofNat {n : Nat} (h : n < 0x110000) : (CodePoint.ofNat n).val = n := Nat.mod_eq_of_lt h

theorem isSurrogate_ofNat {n : Nat} (h : n < 0x110000) (hs : n < 0xD800 ∨ 0xDFFF < n) :
    (CodePoint.ofNat n).isSurrogate = false := by
  simp only [CodePoint.isSurrogate, val_ofNat h, Bool.and_eq_false_iff, decide_eq_false_iff_not]
  omega

theorem ofNat_eq {n : Nat} {b : UInt8} (h : n = b.toNat) : UInt8.ofNat n = b := by
  rw [h, UInt8.ofNat_toNat]

theorem encode_one {b : UInt8} (hb : b < 0x80) : encode (.ofOctet b) = [b] := by
  have hlt : b.toNat < 0x80 := by simpa [UInt8.lt_iff_toNat_lt] using hb
  have hval : (CodePoint.ofOctet b).val = b.toNat := rfl
  rw [encode]
  dsimp only
  rw [if_pos (by rw [hval]; exact hlt), ofNat_eq hval]

theorem encode_two {b x : UInt8} (hb : 0xC2 ≤ b.toNat ∧ b.toNat < 0xE0)
    (hx : 0x80 ≤ x.toNat ∧ x.toNat ≤ 0xBF) :
    encode (.ofNat ((b.toNat - 0xC0) * 64 + (x.toNat - 0x80))) = [b, x] := by
  generalize hn : (b.toNat - 0xC0) * 64 + (x.toNat - 0x80) = n
  rw [encode]
  dsimp only
  rw [val_ofNat (by omega), if_neg (by omega), if_pos (by omega), ofNat_eq (b := b) (by omega),
    ofNat_eq (b := x) (by omega)]

theorem encode_three {b x y : UInt8} (hb : 0xE0 ≤ b.toNat ∧ b.toNat < 0xF0)
    (hx : 0x80 ≤ x.toNat ∧ x.toNat ≤ 0xBF) (hy : 0x80 ≤ y.toNat ∧ y.toNat ≤ 0xBF)
    (hlow : b.toNat = 0xE0 → 0xA0 ≤ x.toNat) :
    encode (.ofNat (((b.toNat - 0xE0) * 64 + (x.toNat - 0x80)) * 64 + (y.toNat - 0x80))) =
      [b, x, y] := by
  generalize hn : ((b.toNat - 0xE0) * 64 + (x.toNat - 0x80)) * 64 + (y.toNat - 0x80) = n
  rw [encode]
  dsimp only
  rw [val_ofNat (by omega), if_neg (by omega), if_neg (by omega), if_pos (by omega),
    ofNat_eq (b := b) (by omega), ofNat_eq (b := x) (by omega), ofNat_eq (b := y) (by omega)]

theorem encode_four {b x y z : UInt8} (hb : 0xF0 ≤ b.toNat ∧ b.toNat ≤ 0xF4)
    (hx : 0x80 ≤ x.toNat ∧ x.toNat ≤ 0xBF) (hy : 0x80 ≤ y.toNat ∧ y.toNat ≤ 0xBF)
    (hz : 0x80 ≤ z.toNat ∧ z.toNat ≤ 0xBF) (hlow : b.toNat = 0xF0 → 0x90 ≤ x.toNat)
    (hhigh : b.toNat = 0xF4 → x.toNat ≤ 0x8F) :
    encode (.ofNat ((((b.toNat - 0xF0) * 64 + (x.toNat - 0x80)) * 64 + (y.toNat - 0x80)) * 64 +
      (z.toNat - 0x80))) = [b, x, y, z] := by
  generalize hn : (((b.toNat - 0xF0) * 64 + (x.toNat - 0x80)) * 64 + (y.toNat - 0x80)) * 64 +
      (z.toNat - 0x80) = n
  rw [encode]
  dsimp only
  rw [val_ofNat (by omega), if_neg (by omega), if_neg (by omega), if_neg (by omega),
    ofNat_eq (b := b) (by omega), ofNat_eq (b := x) (by omega), ofNat_eq (b := y) (by omega),
    ofNat_eq (b := z) (by omega)]

theorem readTail_eq_char_last {bits taken m : Nat} {low high : UInt8} {bs : Octets} {c : CodePoint}
    (h : readTail bits low high taken 0 bs = .char c m) :
    ∃ x tail, bs = x :: tail ∧ (low.toNat ≤ x.toNat ∧ x.toNat ≤ high.toNat) ∧
      c = .ofNat (bits * 64 + (x.toNat - 0x80)) ∧ m = taken + 1 := by
  cases bs with
  | nil => cases h
  | cons x tail =>
    rw [readTail] at h
    split at h
    · next hx =>
      rw [UInt8.le_iff_toNat_le, UInt8.le_iff_toNat_le] at hx
      obtain ⟨hc, hm⟩ := Piece.char.inj h
      exact ⟨x, tail, rfl, hx, hc.symm, hm.symm⟩
    · cases h

/-- A character that is read had an octet in the range, and was read on behind it. -/
theorem readTail_eq_char_more {bits taken more m : Nat} {low high : UInt8} {bs : Octets}
    {c : CodePoint} (h : readTail bits low high taken (more + 1) bs = .char c m) :
    ∃ x tail, bs = x :: tail ∧ (low.toNat ≤ x.toNat ∧ x.toNat ≤ high.toNat) ∧
      readTail (bits * 64 + (x.toNat - 0x80)) 0x80 0xBF (taken + 1) more tail = .char c m := by
  cases bs with
  | nil => cases h
  | cons x tail =>
    rw [readTail] at h
    split at h
    · next hx =>
      rw [UInt8.le_iff_toNat_le, UInt8.le_iff_toNat_le] at hx
      exact ⟨x, tail, rfl, hx, h⟩
    · cases h

/-- The promises that first octets make, by the number of octets to come. -/
theorem lead?_cases {b : UInt8} {l : Lead} (h : lead? b = some l) :
    (l = ⟨b.toNat - 0xC0, 0x80, 0xBF, 0⟩ ∧ 0xC2 ≤ b.toNat ∧ b.toNat < 0xE0) ∨
    (∃ low high, l = ⟨b.toNat - 0xE0, low, high, 1⟩ ∧ (0xE0 ≤ b.toNat ∧ b.toNat < 0xF0) ∧
      (0x80 ≤ low.toNat ∧ high.toNat ≤ 0xBF) ∧
      (b.toNat = 0xE0 → 0xA0 ≤ low.toNat) ∧ (b.toNat = 0xED → high.toNat ≤ 0x9F)) ∨
    (∃ low high, l = ⟨b.toNat - 0xF0, low, high, 2⟩ ∧ (0xF0 ≤ b.toNat ∧ b.toNat ≤ 0xF4) ∧
      (0x80 ≤ low.toNat ∧ high.toNat ≤ 0xBF) ∧
      (b.toNat = 0xF0 → 0x90 ≤ low.toNat) ∧ (b.toNat = 0xF4 → high.toNat ≤ 0x8F)) := by
  simp only [lead?, UInt8.lt_iff_toNat_lt, ← UInt8.toNat_inj, UInt8.reduceToNat] at h
  split at h
  · cases h
  split at h
  · exact Or.inl ⟨(Option.some.inj h).symm, by omega, by omega⟩
  right
  split at h
  · next h0 =>
    refine Or.inl ⟨0xA0, 0xBF, ?_, by omega, by decide, fun _ => by decide, by omega⟩
    rw [h0]
    exact (Option.some.inj h).symm
  split at h
  · next hd =>
    refine Or.inl ⟨0x80, 0x9F, ?_, by omega, by decide, by omega, fun _ => by decide⟩
    rw [hd]
    exact (Option.some.inj h).symm
  split at h
  · exact Or.inl ⟨0x80, 0xBF, (Option.some.inj h).symm, by omega, by decide, by omega, by omega⟩
  right
  split at h
  · next h0 =>
    refine ⟨0x90, 0xBF, ?_, by omega, by decide, fun _ => by decide, by omega⟩
    rw [h0]
    exact (Option.some.inj h).symm
  split at h
  · exact ⟨0x80, 0xBF, (Option.some.inj h).symm, by omega, by decide, by omega, by omega⟩
  split at h
  · next h4 =>
    refine ⟨0x80, 0x8F, ?_, by omega, by decide, by omega, fun _ => by decide⟩
    rw [h4]
    exact (Option.some.inj h).symm
  · cases h

/-- A character that is read is what would be written for it. -/
theorem encode_of_read {b : UInt8} {rest : Octets} {c : CodePoint} {more : Nat}
    (h : read b rest = .char c more) :
    c.isSurrogate = false ∧ encode c ++ rest.drop more = b :: rest := by
  rw [read] at h
  split at h
  · next hb =>
    obtain ⟨rfl, rfl⟩ := Piece.char.inj h
    have hlt : b.toNat < 0x80 := by simpa [UInt8.lt_iff_toNat_lt] using hb
    have hval : (CodePoint.ofOctet b).val = b.toNat := rfl
    refine ⟨?_, by rw [encode_one hb]; rfl⟩
    simp only [CodePoint.isSurrogate, hval, Bool.and_eq_false_iff, decide_eq_false_iff_not]
    omega
  · have hlow : (0x80 : UInt8).toNat = 0x80 := rfl
    have hhigh : (0xBF : UInt8).toNat = 0xBF := rfl
    cases hl : lead? b with
    | none =>
      rw [hl] at h
      cases h
    | some l =>
      rw [hl] at h
      rcases lead?_cases hl with ⟨rfl, hb⟩ | ⟨low, high, rfl, hb, hbounds, hfirst, hlast⟩ |
        ⟨low, high, rfl, hb, hbounds, hfirst, hlast⟩
      · change readTail (b.toNat - 0xC0) 0x80 0xBF 0 0 rest = _ at h
        obtain ⟨x, tail, rfl, hx, rfl, rfl⟩ := readTail_eq_char_last h
        rw [hlow, hhigh] at hx
        exact ⟨isSurrogate_ofNat (by omega) (by omega), by rw [encode_two hb hx]; rfl⟩
      · change readTail (b.toNat - 0xE0) low high 0 1 rest = _ at h
        obtain ⟨x, tail, rfl, hx, h⟩ := readTail_eq_char_more h
        obtain ⟨y, tail, rfl, hy, rfl, rfl⟩ := readTail_eq_char_last h
        rw [hlow, hhigh] at hy
        refine ⟨isSurrogate_ofNat (by omega) (by omega), ?_⟩
        rw [encode_three hb (by omega) hy (by omega)]
        rfl
      · change readTail (b.toNat - 0xF0) low high 0 2 rest = _ at h
        obtain ⟨x, tail, rfl, hx, h⟩ := readTail_eq_char_more h
        obtain ⟨y, tail, rfl, hy, h⟩ := readTail_eq_char_more h
        obtain ⟨z, tail, rfl, hz, rfl, rfl⟩ := readTail_eq_char_last h
        rw [hlow, hhigh] at hy hz
        refine ⟨isSurrogate_ofNat (by omega) (by omega), ?_⟩
        rw [encode_four hb (by omega) hy hz (by omega) (by omega)]
        rfl

/-! ## Texts

A text is written one character after the other, and read back one after the other, since no octet
of the next character is needed to read the one in front. -/

/-- A text is written character by character, unless it has a surrogate;
the fault is at the first one. -/
theorem writeFrom_cases (t : Text) (k : Nat) :
    ((∀ c ∈ t, c.isSurrogate = false) ∧ Target.utf8.writeFrom false k t = .ok (t.flatMap encode)) ∨
      ∃ u c v span, t = u ++ c :: v ∧ (∀ x ∈ u, x.isSurrogate = false) ∧ c.isSurrogate = true ∧
        Target.utf8.writeFrom false k t =
          .error (.unwritable .utf8 (k + u.length) (c :: span)) := by
  induction t generalizing k with
  | nil => exact Or.inl ⟨by simp, rfl⟩
  | cons c t ih =>
    cases hc : c.isSurrogate with
    | true =>
      refine Or.inr ⟨[], c, t, t.takeWhile fun d => (Target.utf8.octets? d).isNone, rfl, by simp,
        hc, ?_⟩
      simp [Target.writeFrom, Target.octets?, hc]
    | false =>
      have hhead : Target.utf8.writeFrom false k (c :: t) =
          (encode c ++ ·) <$> Target.utf8.writeFrom false (k + 1) t := by
        simp only [Target.writeFrom, Target.octets?, hc, Bool.false_eq_true, if_false]
      rw [hhead]
      rcases ih (k + 1) with ⟨hs, hwrite⟩ | ⟨u, d, v, span, rfl, hu, hd, hwrite⟩
      · rw [hwrite]
        exact Or.inl ⟨List.forall_mem_cons.2 ⟨hc, hs⟩, rfl⟩
      · rw [hwrite]
        refine Or.inr ⟨c :: u, d, v, span, rfl, List.forall_mem_cons.2 ⟨hc, hu⟩, hd, ?_⟩
        rw [List.length_cons, Nat.add_comm u.length, ← Nat.add_assoc]
        rfl

/-- A text that is written has no surrogates, and each of its characters is written. -/
theorem writeFrom_eq_ok {k : Nat} {t : Text} {bs : Octets}
    (h : Target.utf8.writeFrom false k t = .ok bs) :
    (∀ c ∈ t, c.isSurrogate = false) ∧ bs = t.flatMap encode := by
  rcases writeFrom_cases t k with ⟨hs, hwrite⟩ | ⟨_, _, _, _, -, -, -, hwrite⟩
  · exact ⟨hs, Except.ok.inj (h.symm.trans hwrite)⟩
  · cases h.symm.trans hwrite

theorem writeFrom_of_no_surrogate {t : Text} (h : ∀ c ∈ t, c.isSurrogate = false) (k : Nat) :
    Target.utf8.writeFrom false k t = .ok (t.flatMap encode) := by
  rcases writeFrom_cases t k with ⟨-, hwrite⟩ | ⟨u, c, v, _, rfl, -, hc, -⟩
  · exact hwrite
  · cases (h c (by simp)).symm.trans hc

/-- A character that was written is the first to be read, and the rest is read from behind it. -/
theorem decodeFrom_encode {c : CodePoint} (hc : c.isSurrogate = false)
    (policy : Except Fault Policy) (start : Nat) (rest : Octets) :
    form.decodeFrom policy start (encode c ++ rest) =
      (c :: ·) <$> form.decodeFrom policy (start + (encode c).length) rest := by
  obtain ⟨b, tail, henc, hread⟩ := read_encode hc
  have hpiece : form.read b (tail ++ rest) = .char c tail.length := hread rest
  rw [henc, List.cons_append, Form.decodeFrom, hpiece]
  simp only [List.drop_left, List.length_cons]
  rfl

/-- What is written is read as it was, under any policy. -/
theorem decodeFrom_write {t : Text} {bs : Octets} (h : write t = .ok bs)
    (policy : Except Fault Policy) (start : Nat) : form.decodeFrom policy start bs = .ok t := by
  obtain ⟨hs, rfl⟩ := writeFrom_eq_ok h
  clear h -- it is about the whole text, and would stand in the way of the induction
  induction t generalizing start with
  | nil => rw [List.flatMap_nil, Form.decodeFrom]
  | cons c t ih =>
    rw [List.forall_mem_cons] at hs
    rw [List.flatMap_cons, decodeFrom_encode hs.1, ih _ hs.2]
    rfl

/-- Octets that are read without a flaw are what the text would be written in. -/
theorem encode_of_decodeFrom {bs : Octets} {t : Text} {start : Nat}
    (h : form.decodeFrom (.ok .strict) start bs = .ok t) :
    (∀ c ∈ t, c.isSurrogate = false) ∧ t.flatMap encode = bs := by
  -- on the octets that are left: a character takes one at least, and a flaw ends the reading
  induction hn : bs.length using Nat.strongRecOn generalizing bs t start with
  | ind n ih =>
    cases bs with
    | nil =>
      rw [Form.decodeFrom] at h
      cases h
      exact ⟨by simp, rfl⟩
    | cons b rest =>
      rw [Form.decodeFrom] at h
      cases hread : form.read b rest with
      | flaw what more =>
        rw [hread] at h
        cases h
      | char c more =>
        rw [hread] at h
        obtain ⟨hc, hencode⟩ := encode_of_read hread
        dsimp only at h
        cases hrest : form.decodeFrom (.ok .strict) (start + more + 1) (rest.drop more) with
        | error fault =>
          rw [hrest] at h
          cases h
        | ok u =>
          rw [hrest] at h
          cases h
          have hlt : (rest.drop more).length < n := by
            rw [← hn, List.length_drop, List.length_cons]
            omega
          obtain ⟨hu, hflat⟩ := ih _ hlt hrest rfl
          refine ⟨List.forall_mem_cons.2 ⟨hc, hu⟩, ?_⟩
          rw [List.flatMap_cons, hflat, hencode]

/-- What is read without a flaw is written as it was. -/
theorem write_of_decodeFrom {bs : Octets} {t : Text} {start : Nat}
    (h : form.decodeFrom (.ok .strict) start bs = .ok t) : write t = .ok bs := by
  obtain ⟨hs, rfl⟩ := encode_of_decodeFrom h
  exact writeFrom_of_no_surrogate hs 0

/-! ## ASCII in between

The octets of a character are one octet of ASCII, or none of them is, so that a text can be cut
where the octets are cut at one of ASCII. -/

/-- Octets below 0x80 stand for themselves and occur nowhere else. -/
theorem encode_cases (c : CodePoint) :
    (∃ b, b < 0x80 ∧ c = .ofOctet b ∧ encode c = [b]) ∨ ∀ b ∈ encode c, ¬ b < 0x80 := by
  have hlt := c.isLt
  have hhigh : ∀ {m : Nat}, 0x80 ≤ m → m < 256 → ¬ UInt8.ofNat m < 0x80 := by
    intro m hlow hm
    rw [UInt8.lt_iff_toNat_lt, UInt8.toNat_ofNat_of_lt' hm]
    exact Nat.not_lt.2 hlow
  by_cases h : c.val < 0x80
  · have hb : (UInt8.ofNat c.val).toNat = c.val :=
      UInt8.toNat_ofNat_of_lt' (show _ < 256 by omega)
    have hb' : UInt8.ofNat c.val < 0x80 := by
      rw [UInt8.lt_iff_toNat_lt, hb]
      exact h
    have hc : c = .ofOctet (UInt8.ofNat c.val) := Fin.ext hb.symm
    exact Or.inl ⟨_, hb', hc, by rw [hc, encode_one hb', ← hc]⟩
  · right
    intro b hb
    rw [encode] at hb
    dsimp only at hb
    rw [if_neg h] at hb
    split at hb
    · simp only [List.mem_cons, List.not_mem_nil, or_false] at hb
      rcases hb with rfl | rfl <;> exact hhigh (by omega) (by omega)
    split at hb
    · simp only [List.mem_cons, List.not_mem_nil, or_false] at hb
      rcases hb with rfl | rfl | rfl <;> exact hhigh (by omega) (by omega)
    · simp only [List.mem_cons, List.not_mem_nil, or_false] at hb
      rcases hb with rfl | rfl | rfl | rfl <;> exact hhigh (by omega) (by omega)

theorem encode_ne_nil (c : CodePoint) : encode c ≠ [] := by
  rw [encode]
  dsimp only
  split
  · exact List.cons_ne_nil _ _
  split
  · exact List.cons_ne_nil _ _
  split <;> exact List.cons_ne_nil _ _

theorem eq_nil_of_encode {t : Text} (h : t.flatMap encode = []) : t = [] := by
  cases t with
  | nil => rfl
  | cons c t =>
    rw [List.flatMap_cons] at h
    exact absurd (List.append_eq_nil_iff.1 h).1 (encode_ne_nil c)

/-- Where the octets of a text are cut at one of ASCII, the text can be cut at its character. -/
theorem split_encode {b : UInt8} (hb : b < 0x80) {t : Text} {front back : Octets}
    (h : t.flatMap encode = front ++ b :: back) :
    ∃ u v, t = u ++ .ofOctet b :: v ∧ u.flatMap encode = front ∧ v.flatMap encode = back := by
  -- on the text; the cut is behind the first character, or is this character
  induction t generalizing front with
  | nil =>
    have hnil : front ++ b :: back = [] := h.symm
    simp at hnil
  | cons c t ih =>
    rw [List.flatMap_cons] at h
    -- what was cut off behind `c` can be cut further
    have hlater : ∀ more, t.flatMap encode = more ++ b :: back → front = encode c ++ more →
        ∃ u v, c :: t = u ++ .ofOctet b :: v ∧ u.flatMap encode = front ∧
        v.flatMap encode = back := by
      intro more hmore hfront
      obtain ⟨u, v, rfl, hu, hv⟩ := ih hmore
      exact ⟨c :: u, v, rfl, by rw [List.flatMap_cons, hu, hfront], hv⟩
    rcases List.append_eq_append_iff.1 h with ⟨more, hfront, hmore⟩ | ⟨more, hc, hmore⟩
    · exact hlater more hmore hfront
    · cases more with
      | nil => exact hlater [] hmore.symm (by rw [hc, List.append_nil, List.append_nil])
      | cons x more =>
        obtain ⟨rfl, hback⟩ := List.cons.inj hmore
        rcases encode_cases c with ⟨x, -, rfl, hx⟩ | hno
        · rw [hx] at hc
          cases front with
          | nil =>
            obtain ⟨rfl, rfl⟩ := List.cons.inj hc
            exact ⟨[], t, rfl, rfl, hback.symm⟩
          | cons y front =>
            have hnil := (List.cons.inj hc).2
            simp at hnil
        · exact absurd hb (hno b (by rw [hc]; simp))

/-- A text whose octets begin with one of ASCII begins with the same character. -/
theorem cons_of_encode {b : UInt8} (hb : b < 0x80) {t : Text} {back : Octets}
    (h : t.flatMap encode = b :: back) : ∃ v, t = .ofOctet b :: v ∧ v.flatMap encode = back := by
  have hcut : t.flatMap encode = [] ++ b :: back := h
  obtain ⟨u, v, rfl, hu, hv⟩ := split_encode hb hcut
  rw [eq_nil_of_encode hu]
  exact ⟨v, rfl, hv⟩

/-- An octet of ASCII stands in a text only as itself. -/
theorem mem_of_ofOctet_mem {b : UInt8} (hb : b < 0x80) {t : Text} (h : .ofOctet b ∈ t) :
    b ∈ t.flatMap encode := by
  apply List.mem_flatMap_of_mem h
  rw [encode_one hb]
  exact List.mem_singleton.2 rfl

end HeaderList.Utf8
