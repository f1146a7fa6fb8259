import HeaderList.EncodedWord.Decode
import HeaderList.Proofs.EncodedWord.Form

/-!
# `HeaderList/Proofs/EncodedWord/Payload.lean` — payloads that can be undone

Both encodings have a written form, and the reader of payloads undoes it. In the Q encoding there
is a choice at every octet (`QEncoding.Writes`); what has been decoded is not looked at again, so
that an escaped equals sign opens no escape. In base64 there is a choice only about the padding,
of which any part may be left out (`Base64.Writes`).
-/

set_option autoImplicit false

namespace HeaderList

/-! ## The Q encoding -/

namespace QEncoding

/-- A digit, as a capital letter or a small one where it is a letter. -/
def hexDigit (upper : Bool) (n : Nat) : UInt8 :=
  UInt8.ofNat (if n < 10 then 0x30 + n else if upper then 0x37 + n else 0x57 + n)

/-- Can the payload stand for the octets? Each octet stands for itself, unless it means
something else in a payload or to the reader of the word, or it is escaped, or it is a
space and written as a low line. -/
inductive Writes : Octets → Octets → Prop
  | nil : Writes [] []
  | literal {b : UInt8} {p bs : Octets} (hb : b ≠ Octet.equals ∧ b ≠ Octet.underscore ∧
      b ≠ Octet.question ∧ b ≠ Octet.cr ∧ b ≠ Octet.lf) (h : Writes p bs) :
      Writes (b :: p) (b :: bs)
  | space {p bs : Octets} (h : Writes p bs) : Writes (Octet.underscore :: p) (Octet.space :: bs)
  | escape (u v : Bool) (b : UInt8) {p bs : Octets} (h : Writes p bs) :
      Writes (Octet.equals :: hexDigit u (b.toNat / 16) :: hexDigit v (b.toNat % 16) :: p) (b :: bs)

/-- A digit is read as its number, and is nothing that means anything else. -/
theorem hexDigit_table : ∀ n < 16, ∀ upper : Bool,
    Text.hexValue? (hexDigit upper n).toNat = some n ∧ hexDigit upper n ≠ Octet.underscore ∧
      EncodedWord.Fits true (hexDigit upper n) := by
  decide

/-- The two digits of an octet are read as this octet, in whatever letters they are. -/
theorem hexOctet?_digits (u v : Bool) (b : UInt8) :
    hexOctet? (hexDigit u (b.toNat / 16)) (hexDigit v (b.toNat % 16)) = some b := by
  have hlt := b.toNat_lt
  obtain ⟨hhigh, -⟩ := hexDigit_table (b.toNat / 16) (by omega) u
  obtain ⟨hlow, -⟩ := hexDigit_table (b.toNat % 16) (by omega) v
  have hsum : b.toNat / 16 * 16 + b.toNat % 16 = b.toNat := by omega
  simp only [hexOctet?, hhigh, hlow, hsum, UInt8.ofNat_toNat]

theorem unescape_cons {b : UInt8} (hb : b ≠ Octet.equals) (rest : Octets) :
    unescape (b :: rest) = b :: unescape rest := by
  rw [unescape]
  -- the equation of `unescape` for other octets asks that no escape matches
  intro a c tail heq
  exact absurd heq hb

/-- An escape with two digits is the octet that they mean, and what follows is read for itself. -/
theorem unescape_escape {x y b : UInt8} (h : hexOctet? x y = some b) (rest : Octets) :
    unescape (Octet.equals :: x :: y :: rest) = b :: unescape rest := by
  have hcases := unescape.eq_2 x y rest
  rw [h] at hcases
  exact hcases

theorem spaces_cons (b : UInt8) (rest : Octets) :
    spaces (b :: rest) = (if b = Octet.underscore then Octet.space else b) :: spaces rest := rfl

/-- What a payload stands for is what it decodes to. -/
theorem decode_of_writes {p bs : Octets} (h : Writes p bs) : decode p = bs := by
  rw [decode]
  induction h with
  | nil => rfl
  | literal hb h ih =>
    rw [spaces_cons, if_neg hb.2.1, unescape_cons hb.1, ih]
  | space h ih =>
    rw [spaces_cons, if_pos rfl, unescape_cons (by decide), ih]
  | escape u v b h ih =>
    have hlt := b.toNat_lt
    obtain ⟨-, hhigh, -⟩ := hexDigit_table (b.toNat / 16) (by omega) u
    obtain ⟨-, hlow, -⟩ := hexDigit_table (b.toNat % 16) (by omega) v
    -- spaces come first, and leave the digits of an escape alone
    rw [spaces_cons, spaces_cons, spaces_cons, if_neg (by decide), if_neg hhigh, if_neg hlow,
      unescape_escape (hexOctet?_digits u v b), ih]

/-- A payload that stands for octets can be in a word: it has no
question mark and no line break. -/
theorem isField_of_writes {p bs : Octets} (h : Writes p bs) : EncodedWord.IsField true p := by
  induction h with
  | nil => simp [EncodedWord.IsField]
  | literal hb h ih =>
    refine List.forall_mem_cons.2 ⟨⟨?_, hb.2.2.1, fun _ => rfl⟩, ih⟩
    simp [Octet.isLineBreak, hb.2.2.2.1, hb.2.2.2.2]
  | space h ih => exact List.forall_mem_cons.2 ⟨by decide, ih⟩
  | escape u v b h ih =>
    have hlt := b.toNat_lt
    obtain ⟨-, -, hhigh⟩ := hexDigit_table (b.toNat / 16) (by omega) u
    obtain ⟨-, -, hlow⟩ := hexDigit_table (b.toNat % 16) (by omega) v
    exact List.forall_mem_cons.2
      ⟨by decide, List.forall_mem_cons.2 ⟨hhigh, List.forall_mem_cons.2 ⟨hlow, ih⟩⟩⟩

end QEncoding

/-! ## Base64

Octets are written in groups of three, and read one character at a time with the bits that are
left over from the one before. The reader is taken through a group by one lemma for each of its
four states, so that the round trip is an induction over the groups. -/

namespace Base64

/-- The character for six bits. -/
def digit (v : Nat) : UInt8 :=
  UInt8.ofNat (if v < 26 then 0x41 + v else if v < 52 then 0x61 + (v - 26)
    else if v < 62 then 0x30 + (v - 52) else if v = 62 then 0x2B else 0x2F)

/-- The characters of octets, without padding. -/
def encode : Octets → Octets
  | [] => []
  | [a] => [digit (a.toNat / 4), digit (a.toNat % 4 * 16)]
  | [a, b] => [digit (a.toNat / 4), digit (a.toNat % 4 * 16 + b.toNat / 16),
      digit (b.toNat % 16 * 4)]
  | a :: b :: c :: rest =>
    digit (a.toNat / 4) :: digit (a.toNat % 4 * 16 + b.toNat / 16) ::
      digit (b.toNat % 16 * 4 + c.toNat / 64) :: digit (c.toNat % 64) :: encode rest

/-- The number of equals signs that the standard asks for. -/
def padding (bs : Octets) : Nat := (3 - bs.length % 3) % 3

theorem padding_group (a b c : UInt8) (rest : Octets) :
    padding (a :: b :: c :: rest) = padding rest := by
  simp only [padding, List.length_cons]
  omega

/-- Can the payload stand for the octets? Any part of the padding may be missing. -/
def Writes (p bs : Octets) : Prop :=
  ∃ k ≤ padding bs, p = encode bs ++ List.replicate k Octet.equals

/-- A character of the alphabet is read as its bits, and is nothing that means anything else. -/
theorem digit_table : ∀ v < 64, value? (digit v) = some v ∧ digit v ≠ Octet.equals ∧
    Octet.isAsciiWhite (digit v) = false ∧ EncodedWord.Fits true (digit v) := by
  decide

section Characters

variable {b : UInt8} {v : Nat} (hb : value? b = some v) (pads bits : Nat) (rest : Octets)

include hb

theorem ne_equals_of_value? : b ≠ Octet.equals := by
  rintro rfl
  have hnone : value? Octet.equals = none := by decide
  rw [hnone] at hb
  cases hb

theorem readFrom_empty : readFrom .empty pads (b :: rest) = readFrom (.one v) 0 rest := by
  simp only [readFrom, if_neg (ne_equals_of_value? hb), hb]

theorem readFrom_one : readFrom (.one bits) pads (b :: rest) =
    (UInt8.ofNat (bits * 4 + v / 16) :: ·) <$> readFrom (.two (v % 16)) 0 rest := by
  simp only [readFrom, if_neg (ne_equals_of_value? hb), hb]

theorem readFrom_two : readFrom (.two bits) pads (b :: rest) =
    (UInt8.ofNat (bits * 16 + v / 4) :: ·) <$> readFrom (.three (v % 4)) 0 rest := by
  simp only [readFrom, if_neg (ne_equals_of_value? hb), hb]

theorem readFrom_three : readFrom (.three bits) pads (b :: rest) =
    (UInt8.ofNat (bits * 64 + v) :: ·) <$> readFrom .empty 0 rest := by
  simp only [readFrom, if_neg (ne_equals_of_value? hb), hb]

end Characters

theorem value?_digit {v : Nat} (hv : v < 64) : value? (digit v) = some v := (digit_table v hv).1

/-- With all its padding, the written form is read as the octets. -/
theorem readFrom_encode (bs : Octets) :
    readFrom .empty 0 (encode bs ++ List.replicate (padding bs) Octet.equals) = some bs := by
  -- on the groups; the last one may have one octet or two
  fun_induction encode bs with
  | case1 => rfl
  | case2 a =>
    have ha := a.toNat_lt
    have h₁ : a.toNat / 4 * 4 + a.toNat % 4 * 16 / 16 = a.toNat := by omega
    have hpad : List.replicate (padding [a]) Octet.equals = [Octet.equals, Octet.equals] := rfl
    rw [hpad, List.cons_append, List.cons_append, readFrom_empty (value?_digit (by omega)),
      readFrom_one (value?_digit (by omega)), h₁, UInt8.ofNat_toNat]
    rfl
  | case3 a b =>
    have ha := a.toNat_lt
    have hb := b.toNat_lt
    have h₁ : a.toNat / 4 * 4 + (a.toNat % 4 * 16 + b.toNat / 16) / 16 = a.toNat := by omega
    have h₂ : (a.toNat % 4 * 16 + b.toNat / 16) % 16 * 16 + b.toNat % 16 * 4 / 4 =
        b.toNat := by omega
    have hpad : List.replicate (padding [a, b]) Octet.equals = [Octet.equals] := rfl
    rw [hpad, List.cons_append, List.cons_append, List.cons_append,
      readFrom_empty (value?_digit (by omega)), readFrom_one (value?_digit (by omega)),
      readFrom_two (value?_digit (by omega)), h₁, h₂, UInt8.ofNat_toNat,
      UInt8.ofNat_toNat]
    rfl
  | case4 a b c rest ih =>
    have ha := a.toNat_lt
    have hb := b.toNat_lt
    have hc := c.toNat_lt
    have h₁ : a.toNat / 4 * 4 + (a.toNat % 4 * 16 + b.toNat / 16) / 16 = a.toNat := by omega
    have h₂ : (a.toNat % 4 * 16 + b.toNat / 16) % 16 * 16 + (b.toNat % 16 * 4 + c.toNat / 64) / 4 =
        b.toNat := by omega
    have h₃ : (b.toNat % 16 * 4 + c.toNat / 64) % 4 * 64 + c.toNat % 64 = c.toNat := by omega
    -- the four characters of three octets leave no bits over, so the rest is
    -- read as if it stood alone
    rw [padding_group]
    simp only [List.cons_append]
    rw [readFrom_empty (value?_digit (by omega)), readFrom_one (value?_digit (by omega)),
      readFrom_two (value?_digit (by omega)), readFrom_three (value?_digit (by omega)), h₁, h₂,
      h₃, ih,
      UInt8.ofNat_toNat, UInt8.ofNat_toNat, UInt8.ofNat_toNat]
    rfl

/-- The padding is what completes the last group of four. -/
theorem length_encode (bs : Octets) : (encode bs).length % 4 = (4 - padding bs) % 4 := by
  fun_induction encode bs with
  | case1 => rfl
  | case2 a => rfl
  | case3 a b => rfl
  | case4 a b c rest ih =>
    rw [padding_group, ← ih]
    simp only [List.length_cons]
    omega

/-- What holds of the characters for six bits holds of everything that is written. -/
theorem forall_mem_encode {P : UInt8 → Prop} (h : ∀ v < 64, P (digit v)) (bs : Octets) :
    ∀ x ∈ encode bs, P x := by
  fun_induction encode bs with
  | case1 => simp
  | case2 a =>
    have ha := a.toNat_lt
    simp only [List.forall_mem_cons, List.not_mem_nil, false_imp_iff, implies_true, and_true]
    exact ⟨h _ (by omega), h _ (by omega)⟩
  | case3 a b =>
    have ha := a.toNat_lt
    have hb := b.toNat_lt
    simp only [List.forall_mem_cons, List.not_mem_nil, false_imp_iff, implies_true, and_true]
    exact ⟨h _ (by omega), h _ (by omega), h _ (by omega)⟩
  | case4 a b c rest ih =>
    have ha := a.toNat_lt
    have hb := b.toNat_lt
    have hc := c.toNat_lt
    simp only [List.forall_mem_cons]
    exact ⟨h _ (by omega), h _ (by omega), h _ (by omega), h _ (by omega), ih⟩

/-- The reader fills up the padding before it reads, so it does not
matter how much was left out. -/
theorem complete_of_writes {p bs : Octets} (h : Writes p bs) :
    complete p = encode bs ++ List.replicate (padding bs) Octet.equals := by
  obtain ⟨k, hk, rfl⟩ := h
  have hwhite : (encode bs ++ List.replicate k Octet.equals).filter (!Octet.isAsciiWhite ·) =
      encode bs ++ List.replicate k Octet.equals := by
    rw [List.filter_eq_self]
    intro x hx
    rcases List.mem_append.1 hx with hx | hx
    · have hnot : ∀ v < 64, (!Octet.isAsciiWhite (digit v)) = true := by
        intro v hv
        rw [(digit_table v hv).2.2.1]
        rfl
      exact forall_mem_encode (P := fun x => (!Octet.isAsciiWhite x) = true) hnot bs x hx
    · rw [List.eq_of_mem_replicate hx]
      rfl
  have hlen := length_encode bs
  have hpad : padding bs < 3 := Nat.mod_lt _ (by omega)
  -- filled up to whole groups, any part of the padding becomes the whole
  have htotal : k + (4 - ((encode bs).length + k) % 4) % 4 = padding bs := by omega
  rw [complete]
  simp only [hwhite, List.length_append, List.length_replicate]
  rw [List.append_assoc, List.replicate_append_replicate, htotal]

/-- What a payload stands for is what it decodes to. -/
theorem decode?_of_writes {p bs : Octets} (h : Writes p bs) : decode? p = some bs := by
  rw [decode?, complete_of_writes h, readFrom_encode]

theorem isField_of_writes {p bs : Octets} (h : Writes p bs) : EncodedWord.IsField true p := by
  obtain ⟨k, -, rfl⟩ := h
  intro x hx
  rcases List.mem_append.1 hx with hx | hx
  · exact forall_mem_encode (P := EncodedWord.Fits true)
      (fun v hv => (digit_table v hv).2.2.2) bs x hx
  · rw [List.eq_of_mem_replicate hx]
    decide

end Base64

end HeaderList
