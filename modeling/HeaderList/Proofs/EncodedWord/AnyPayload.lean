import HeaderList.Proofs.Defaults
import HeaderList.Proofs.EncodedWord.Grammar
import HeaderList.Proofs.EncodedWord.Payload
import Mathlib.Algebra.Group.Nat.Defs

/-!
# `HeaderList/Proofs/EncodedWord/AnyPayload.lean` — payloads that nobody wrote

What a payload stands for that was written down by the rules is in `Payload`. Here is what any
payload stands for, also one that is damaged.

The reader of the Q encoding goes over a payload twice, once for the low lines and once for the
escapes. It is the same as going over it once (`QEncoding.decode_eq_onePass`), since a low line is
no digit and neither is a space.

The reader of base64 keeps the bits that are in no octet yet. With them, the bits that the
characters spell are the bits of the octets that it answers and of the group that it has come to
(`Base64.readFrom_character` for one character, `Base64.readFrom_characters` for any number). What
is left at the end is a group that is not complete, and the padding that is added completes it,
unless it has one character only.
-/

set_option autoImplicit false

namespace HeaderList

/-! ## The Q encoding

The decoder replaces low lines first and escapes afterwards, so its second pass sees spaces
where low lines were. That does no harm: neither of the two is a digit, and what the second pass
makes is not seen by the first. -/

namespace QEncoding

/-- The octets that one pass over a payload makes: a space of a low line, the octet of that
number of an equals sign and two hexadecimal digits, and every other octet of itself. What has
been made is not looked at again. -/
def onePass : Octets → Octets
  | [] => []
  | Octet.underscore :: rest => Octet.space :: onePass rest
  | Octet.equals :: x :: y :: rest =>
    match hexOctet? x y with
    | some octet => octet :: onePass rest
    | none => Octet.equals :: onePass (x :: y :: rest)
  | b :: rest => b :: onePass rest

theorem unescape_literal {x y : UInt8} (h : hexOctet? x y = none) (rest : Octets) :
    unescape (Octet.equals :: x :: y :: rest) = Octet.equals :: unescape (x :: y :: rest) := by
  have hcases := unescape.eq_2 x y rest
  rw [h] at hcases
  exact hcases

/-- At the end of a payload no escape begins. -/
theorem unescape_short {rest : Octets} (h : ∀ x y more, rest ≠ x :: y :: more) :
    unescape (Octet.equals :: rest) = Octet.equals :: unescape rest := by
  rw [unescape]
  rintro x y more - rfl
  exact h x y more rfl

/-- Whether there are two digits does not depend on which pass comes first. -/
theorem hexOctet?_spaces (x y : UInt8) :
    hexOctet? (if x = Octet.underscore then Octet.space else x)
    (if y = Octet.underscore then Octet.space else y) =
      hexOctet? x y := by
  have hspace : Text.hexValue? Octet.space.toNat = none := by decide
  have hlow : Text.hexValue? Octet.underscore.toNat = none := by decide
  have hsame : ∀ b : UInt8, Text.hexValue? (if b = Octet.underscore then Octet.space else b).toNat =
      Text.hexValue? b.toNat := by
    intro b
    split
    · next hb => rw [hb, hspace, hlow]
    · rfl
  rw [hexOctet?, hexOctet?, hsame, hsame]

/-- Two passes over a payload are as good as one. -/
theorem decode_eq_onePass (payload : Octets) : decode payload = onePass payload := by
  rw [decode]
  -- on the one pass; each case says what the two passes do to its octets
  fun_induction onePass payload with
  | case1 => rfl
  | case2 rest ih =>
    show unescape (spaces (Octet.underscore :: rest)) = Octet.space :: onePass rest
    rw [spaces_cons, if_pos rfl, unescape_cons (by decide), ih]
  | case3 x y rest octet hdigits ih =>
    show unescape (spaces (Octet.equals :: x :: y :: rest)) = octet :: onePass rest
    rw [spaces_cons, spaces_cons, spaces_cons, if_neg (by decide),
      unescape_escape ((hexOctet?_spaces x y).trans hdigits), ih]
  | case4 x y rest hdigits ih =>
    show unescape (spaces (Octet.equals :: x :: y :: rest)) =
        Octet.equals :: onePass (x :: y :: rest)
    rw [← ih, spaces_cons, spaces_cons, spaces_cons, if_neg (by decide),
      unescape_literal ((hexOctet?_spaces x y).trans hdigits)]
  | case5 b rest hlow hshort ih =>
    have hb : b ≠ Octet.underscore := hlow
    rw [spaces_cons, if_neg hb, ← ih]
    by_cases heq : b = Octet.equals
    · subst heq
      refine unescape_short fun x y more hspaces => ?_
      obtain ⟨x', rest', rfl, -, hrest'⟩ := List.map_eq_cons_iff.1 hspaces
      obtain ⟨y', more', rfl, -, -⟩ := List.map_eq_cons_iff.1 hrest'
      exact hshort x' y' more' rfl rfl
    · exact unescape_cons heq _

end QEncoding

/-! ## Bits

A payload in base64 is one row of bits that was cut into sixes, and its octets are
the same row cut into eights. Numbers come in only where six bits are read off a
character and eight are made an octet. -/

namespace Base64

/-- So many bits of a number, the highest first. -/
def bits : (width : Nat) → Nat → List Bool
  | 0, _ => []
  | width + 1, n => bits width (n / 2) ++ [n % 2 == 1]

/-- The number of bits, the highest of which comes first. -/
def number (bs : List Bool) : Nat := bs.foldl (fun n b => 2 * n + b.toNat) 0

/-- The whole octets of bits. Bits at the end that are no octet are left out. -/
def octets (bs : List Bool) : Octets :=
  (List.range (bs.length / 8)).map fun i => UInt8.ofNat (number ((bs.drop (8 * i)).take 8))

theorem length_bits (width n : Nat) : (bits width n).length = width := by
  induction width generalizing n with
  | zero => rfl
  | succ width ih => rw [bits, List.length_append, ih, List.length_singleton]

theorem number_bits {width n : Nat} (h : n < 2 ^ width) : number (bits width n) = n := by
  induction width generalizing n with
  | zero =>
    obtain rfl : n = 0 := by simpa using h
    rfl
  | succ width ih =>
    have hbit : (n % 2 == 1).toNat = n % 2 := by
      rcases Nat.mod_two_eq_zero_or_one n with hmod | hmod <;> rw [hmod] <;> rfl
    have hhalf := ih (n := n / 2) (by omega)
    rw [number] at hhalf
    rw [bits, number, List.foldl_append, hhalf]
    show 2 * (n / 2) + (n % 2 == 1).toNat = n
    rw [hbit]
    omega

/-- Bits behind bits are those of one number. -/
theorem bits_append (high low m : Nat) {n : Nat} (h : n < 2 ^ low) :
    bits high m ++ bits low n = bits (high + low) (m * 2 ^ low + n) := by
  induction low generalizing n with
  | zero =>
    obtain rfl : n = 0 := by simpa using h
    rw [bits, List.append_nil, Nat.pow_zero, Nat.mul_one, Nat.add_zero, Nat.add_zero]
  | succ low ih =>
    have hhalf := ih (n := n / 2) (by omega)
    have hpow : m * 2 ^ (low + 1) = 2 * (m * 2 ^ low) := by rw [Nat.pow_succ]; ac_rfl
    have hdiv : (2 * (m * 2 ^ low) + n) / 2 = m * 2 ^ low + n / 2 := by omega
    have hmod : (2 * (m * 2 ^ low) + n) % 2 = n % 2 := by omega
    rw [bits, ← List.append_assoc, hhalf, ← Nat.add_assoc, bits, hpow, hdiv, hmod]

/-- The first bits of a number can go with those in front of it. -/
theorem bits_regroup (high mid low m : Nat) {n : Nat} (h : n < 2 ^ (mid + low)) :
    bits high m ++ bits (mid + low) n =
      bits (high + mid) (m * 2 ^ mid + n / 2 ^ low) ++ bits low (n % 2 ^ low) := by
  have hlow : n % 2 ^ low < 2 ^ low := Nat.mod_lt _ (Nat.two_pow_pos low)
  have hmid : n / 2 ^ low < 2 ^ mid := by
    rw [Nat.div_lt_iff_lt_mul (Nat.two_pow_pos low), ← Nat.pow_add]
    exact h
  have hcut := bits_append mid low (n / 2 ^ low) hlow
  rw [Nat.mul_comm (n / 2 ^ low), Nat.div_add_mod] at hcut
  rw [← bits_append high mid m hmid, List.append_assoc, hcut]

theorem length_octets (bs : List Bool) : (octets bs).length = bs.length / 8 := by
  rw [octets, List.length_map, List.length_range]

theorem octets_eq_nil {bs : List Bool} (h : bs.length < 8) : octets bs = [] := by
  rw [octets, Nat.div_eq_of_lt h]
  rfl

theorem octets_bits_append {n : Nat} (h : n < 256) (bs : List Bool) :
    octets (bits 8 n ++ bs) = UInt8.ofNat n :: octets bs := by
  have hlen : (bits 8 n ++ bs).length / 8 = bs.length / 8 + 1 := by
    rw [List.length_append, length_bits, Nat.add_comm, Nat.add_div_right _ (by decide)]
  have hfirst : ((bits 8 n ++ bs).drop (8 * 0)).take 8 = bits 8 n := by
    rw [Nat.mul_zero, List.drop_zero, List.take_left' (length_bits 8 n)]
  rw [octets, hlen, List.range_succ_eq_map, List.map_cons, hfirst, number_bits h, List.map_map,
    octets]
  refine congrArg _ (List.map_congr_left fun i _ => ?_)
  have hrest : (bits 8 n ++ bs).drop (8 * (i + 1)) = bs.drop (8 * i) := by
    rw [Nat.mul_succ, Nat.add_comm, ← List.drop_drop, List.drop_left' (length_bits 8 n)]
  rw [Function.comp_apply, hrest]

/-! ## Base64

The decoder goes character by character and keeps the bits that are no octet yet as a number in
its group. Written out, they are the front of the bits that are still to come (`Group.pending`);
this is the invariant that the induction over the characters carries. -/

/-- The bits that characters spell, six each. -/
def spelt (characters : Octets) : List Bool :=
  characters.flatMap fun b => bits 6 ((value? b).getD 0)

theorem length_spelt (characters : Octets) : (spelt characters).length = 6 * characters.length := by
  induction characters with
  | nil => rfl
  | cons b characters ih =>
    rw [spelt, List.flatMap_cons, List.length_append, length_bits, ← spelt, ih, List.length_cons]
    omega

/-- The bits of a group that are in no octet yet. -/
def Group.pending : Group → List Bool
  | .empty => []
  | .one n => bits 6 n
  | .two n => bits 4 n
  | .three n => bits 2 n

/-- Is the number of a group one of so many bits as the group has? -/
def Group.Fits : Group → Prop
  | .empty => True
  | .one n => n < 64
  | .two n => n < 16
  | .three n => n < 4

theorem Group.length_pending (g : Group) : g.pending.length < 8 := by
  cases g <;> simp [pending, length_bits]

theorem lt_of_value? {b : UInt8} {v : Nat} (h : value? b = some v) : v < 64 := by
  simp only [value?] at h
  repeat' split at h
  all_goals cases h <;> omega

/-- White space is not in the alphabet. -/
theorem value?_of_isAsciiWhite {b : UInt8} (h : Octet.isAsciiWhite b = true) : value? b = none := by
  have hle : b.toNat ≤ 0x20 := by
    simp only [Octet.isAsciiWhite, Bool.or_eq_true, Bool.and_eq_true, beq_iff_eq, decide_eq_true_eq,
      UInt8.le_iff_toNat_le] at h
    rcases h with rfl | ⟨-, h⟩
    · decide
    · exact Nat.le_trans h (by decide)
  simp only [value?]
  repeat' split
  all_goals first | rfl | omega

/-- A character adds its six bits to those of the group. If there are eight, an octet is made of
them; the bits that are left are those of the next group. -/
theorem readFrom_character {g : Group} (hg : g.Fits) {b : UInt8} {v : Nat}
    (hb : value? b = some v) :
    ∃ made g', Group.Fits g' ∧ g'.count = (g.count + 1) % 4 ∧
      (∀ more, octets (g.pending ++ (bits 6 v ++ more)) = made ++ octets (g'.pending ++ more)) ∧
      ∀ rest, readFrom g 0 (b :: rest) = (made ++ ·) <$> readFrom g' 0 rest := by
  have hv := lt_of_value? hb
  -- two bits, four or six of the character complete an octet, and in an empty group none do
  cases g with
  | empty =>
    refine ⟨[], .one v, hv, rfl, fun more => rfl, fun rest => ?_⟩
    rw [readFrom_empty hb]
    cases readFrom (.one v) 0 rest <;> rfl
  | one n =>
    have hn : n < 64 := hg
    have hbits : bits 6 n ++ bits 6 v = bits 8 (n * 4 + v / 16) ++ bits 4 (v % 16) :=
      bits_regroup 6 2 4 n hv
    refine ⟨[UInt8.ofNat (n * 4 + v / 16)], .two (v % 16), Nat.mod_lt _ (by decide), rfl,
      fun more => ?_, fun rest => readFrom_one hb 0 n rest⟩
    show octets (bits 6 n ++ (bits 6 v ++ more)) = _
    rw [← List.append_assoc, hbits, List.append_assoc, octets_bits_append (by omega)]
    rfl
  | two n =>
    have hn : n < 16 := hg
    have hbits : bits 4 n ++ bits 6 v = bits 8 (n * 16 + v / 4) ++ bits 2 (v % 4) :=
      bits_regroup 4 4 2 n hv
    refine ⟨[UInt8.ofNat (n * 16 + v / 4)], .three (v % 4), Nat.mod_lt _ (by decide), rfl,
      fun more => ?_, fun rest => readFrom_two hb 0 n rest⟩
    show octets (bits 4 n ++ (bits 6 v ++ more)) = _
    rw [← List.append_assoc, hbits, List.append_assoc, octets_bits_append (by omega)]
    rfl
  | three n =>
    have hn : n < 4 := hg
    have hbits : bits 2 n ++ bits 6 v = bits 8 (n * 64 + v) := bits_append 2 6 n hv
    refine ⟨[UInt8.ofNat (n * 64 + v)], .empty, trivial, by simp [Group.count], fun more => ?_,
      fun rest => readFrom_three hb 0 n rest⟩
    show octets (bits 2 n ++ (bits 6 v ++ more)) = _
    rw [← List.append_assoc, hbits, octets_bits_append (by omega)]
    rfl

/-- Characters make the octets that their bits are, together with those of the group, and leave a
group that has come as far as their number says. -/
theorem readFrom_characters {g : Group} (hg : g.Fits) {characters : Octets}
    (h : ∀ b ∈ characters, value? b ≠ none) :
    ∃ g', Group.count g' = (g.count + characters.length) % 4 ∧
      ∀ rest, readFrom g 0 (characters ++ rest) =
        (octets (g.pending ++ spelt characters) ++ ·) <$> readFrom g' 0 rest := by
  induction characters generalizing g with
  | nil =>
    refine ⟨g, by cases g <;> rfl, fun rest => ?_⟩
    have hnone : octets (g.pending ++ spelt []) = [] :=
      octets_eq_nil (by simpa [spelt] using g.length_pending)
    rw [hnone, List.nil_append]
    cases readFrom g 0 rest <;> rfl
  | cons b characters ih =>
    rw [List.forall_mem_cons] at h
    obtain ⟨v, hv⟩ := Option.ne_none_iff_exists'.1 h.1
    obtain ⟨made, g', hg', hcount', hoctets, hread⟩ := readFrom_character hg hv
    obtain ⟨g'', hcount, hrest⟩ := ih hg' h.2
    refine ⟨g'', by rw [hcount, hcount', List.length_cons]; omega, fun rest => ?_⟩
    have hspelt : spelt (b :: characters) = bits 6 v ++ spelt characters := by
      rw [spelt, List.flatMap_cons, hv]
      rfl
    rw [List.cons_append, hread, hrest, hspelt, hoctets]
    cases readFrom g'' 0 rest with
    | none => rfl
    | some bs => exact congrArg some (List.append_assoc ..).symm

/-- The padding that is added ends the reading, unless the group has a single character. -/
theorem readFrom_padding (g : Group) :
    readFrom g 0 (List.replicate ((4 - g.count) % 4) Octet.equals) =
      if g.count = 1 then none else some [] := by
  cases g <;> rfl

/-- Without its white space, a payload of characters and white space is its characters. -/
theorem filter_isAsciiWhite {payload : Octets}
    (h : ∀ b ∈ payload, value? b ≠ none ∨ Octet.isAsciiWhite b = true) :
    payload.filter (!Octet.isAsciiWhite ·) = payload.filter fun b => (value? b).isSome := by
  refine List.filter_congr fun b hb => ?_
  cases hwhite : Octet.isAsciiWhite b with
  | true =>
    rw [value?_of_isAsciiWhite hwhite]
    rfl
  | false =>
    rcases h b hb with hvalue | hblank
    · exact (Option.isSome_iff_ne_none.2 hvalue).symm
    · rw [hwhite] at hblank
      cases hblank

/-- Characters of the alphabet stand for the whole octets that they spell,
unless a single one is left over. -/
theorem decode?_of_characters {payload characters : Octets}
    (hfilter : payload.filter (!Octet.isAsciiWhite ·) = characters)
    (h : ∀ b ∈ characters, value? b ≠ none) :
    decode? payload =
      if characters.length % 4 = 1 then none else some (octets (spelt characters)) := by
  obtain ⟨g, hcount, hread⟩ := readFrom_characters (g := .empty) trivial h
  have hcount' : g.count = characters.length % 4 := by simpa [Group.count] using hcount
  have hpadding := readFrom_padding g
  rw [hcount'] at hpadding
  rw [decode?, complete]
  simp only [hfilter]
  rw [hread, hpadding]
  split
  · rfl
  · exact congrArg some (List.append_nil _)

/-- White space in a payload makes no difference. -/
theorem decode?_filter (payload : Octets) :
    decode? (payload.filter (!Octet.isAsciiWhite ·)) = decode? payload := by
  rw [decode?, decode?, complete, complete, List.filter_filter]
  simp only [Bool.and_self]

end Base64

/-! ## Words

With the default fallback, whether a word has a text is settled by its payload alone. -/

namespace EncodedWord

variable [d : Decoders] {w : EncodedWord} {bs : Octets}

/-- Is the text of the word that of octets under its charset, with the default
fallback? There is such a text. -/
def DecodesAs (w : EncodedWord) (bs : Octets) : Prop :=
  ∃ t, (Charset.decodeNamed bs (.text w.charsetName) .null .null).result = .ok t ∧
    (w.decode .null).result = .ok t

theorem decodesAs_of_standsFor (hd : d.Replace) (hname : w.charsetName.isEmpty = false)
    (h : w.StandsFor bs) : w.DecodesAs bs :=
  ⟨_, Charset.result_decodeNamed_default hd w.charsetName bs,
    result_decode_of_octets hd hname (octets_eq_ok_iff.2 h)⟩

/-- No payload in the Q encoding is refused, however it is damaged: the word is the text of the
octets that one pass over the payload makes. -/
theorem quoted_decodesAs_onePass (hd : d.Replace) (w : EncodedWord)
    (hname : w.charsetName.isEmpty = false) (hencoding : w.encoding = [0x71] ∨
      w.encoding = [0x51]) : w.DecodesAs (QEncoding.onePass w.payload) := by
  have hpayload := StandsFor.quoted (w := w) hencoding
  rw [QEncoding.decode_eq_onePass] at hpayload
  exact decodesAs_of_standsFor hd hname hpayload

omit d in
/-- Low lines and equals signs that are near to escapes and in them: a low line where a digit
would be, both of them escaped, two equals signs in a row, and one at the end. -/
theorem quoted_of_nested_escapes :
    let w : EncodedWord :=
      ⟨[0x62, 0x69, 0x67, 0x35], [0x51], [0x3D, 0x5F, 0x41, 0x3D, 0x35, 0x46, 0x3D, 0x33, 0x44,
      0x34, 0x31, 0x3D, 0x3D, 0x34, 0x31, 0x3D]⟩
    QEncoding.onePass w.payload = [0x3D, 0x20, 0x41, 0x5F, 0x3D, 0x34, 0x31, 0x3D, 0x41, 0x3D] ∧
      (@decode .asciiOnly w .null).result = .ok "= A_=41=A=" := by
  intro w
  have honePass :
      QEncoding.onePass w.payload =
        [0x3D, 0x20, 0x41, 0x5F, 0x3D, 0x34, 0x31, 0x3D, 0x41, 0x3D] := by
    decide +kernel
  obtain ⟨t, ht, hword⟩ :=
    @quoted_decodesAs_onePass .asciiOnly Decoders.replace_asciiOnly w rfl (Or.inr rfl)
  rw [honePass] at ht
  have htext :
      (@Charset.decodeNamed .asciiOnly [0x3D, 0x20, 0x41, 0x5F, 0x3D, 0x34, 0x31, 0x3D, 0x41, 0x3D]
      (.text w.charsetName) .null .null).result = .ok "= A_=41=A=" := by
    rw [eq_ok_iff_toOption]
    decide +kernel
  rw [htext] at ht
  cases ht
  exact ⟨honePass, hword⟩

/-- A word in base64 has no text if its payload ends inside a group. -/
theorem decode_of_no_octets (hname : w.charsetName.isEmpty = false)
    (hencoding : w.encoding = [0x62] ∨ w.encoding = [0x42]) (h : Base64.decode? w.payload = none) :
    (w.decode .null).result = .error (.word .base64) := by
  have hlower : w.encoding.map Octet.toLower = [0x62] := by
    rcases hencoding with he | he <;> rw [he] <;> rfl
  have hoctets : w.octets = .error .base64 := by
    rw [octets, hlower, if_neg (by decide), if_pos rfl, h]
  simp only [decode, hname, hoctets, Bool.false_eq_true, if_false]
  rfl

theorem not_error_of_decodesAs (h : w.DecodesAs bs) :
    ¬ ∃ fault, (w.decode .null).result = .error (.word fault) := by
  rintro ⟨fault, hfault⟩
  obtain ⟨t, -, ht⟩ := h
  rw [ht] at hfault
  cases hfault

/-- Padding that is missing in base64 is forgiven, and nothing else is lost. Characters of the
alphabet, with white space anywhere between them, are refused where one of them is left over
from the groups of four, and there only; elsewhere they stand for all whole octets that their
bits spell. And the characters of octets, with any part of their padding and white space
anywhere, stand for these octets. -/
theorem base64_forgives_padding (hd : d.Replace) (w : EncodedWord)
    (hname : w.charsetName.isEmpty = false)
    (hencoding : w.encoding = [0x62] ∨ w.encoding = [0x42]) :
    ((∀ b ∈ w.payload, Base64.value? b ≠ none ∨ Octet.isAsciiWhite b = true) →
      let characters := w.payload.filter fun b => (Base64.value? b).isSome
      ((∃ fault, (w.decode .null).result = .error (.word fault)) ↔ characters.length % 4 = 1) ∧
      (characters.length % 4 ≠ 1 → w.DecodesAs (Base64.octets (Base64.spelt characters)) ∧
        (Base64.octets (Base64.spelt characters)).length = 6 * characters.length / 8)) ∧
    ∀ bs, Base64.Writes (w.payload.filter (!Octet.isAsciiWhite ·)) bs → w.DecodesAs bs := by
  constructor
  · intro hpayload characters
    have hcharacters : ∀ b ∈ characters, Base64.value? b ≠ none := by
      intro b hb
      exact Option.isSome_iff_ne_none.1 (List.mem_filter.1 hb).2
    have hdecode := Base64.decode?_of_characters (Base64.filter_isAsciiWhite hpayload) hcharacters
    by_cases hone : characters.length % 4 = 1
    · rw [if_pos hone] at hdecode
      exact ⟨⟨fun _ => hone, fun _ => ⟨_, decode_of_no_octets hname hencoding hdecode⟩⟩,
        fun h => absurd hone h⟩
    · rw [if_neg hone] at hdecode
      have htext := decodesAs_of_standsFor hd hname (.base64 hencoding hdecode)
      refine ⟨⟨fun h => absurd h (not_error_of_decodesAs htext), fun h => absurd h hone⟩,
        fun _ => ⟨htext, ?_⟩⟩
      rw [Base64.length_octets, Base64.length_spelt]
  · intro bs hwrites
    have hdecode := Base64.decode?_of_writes hwrites
    rw [Base64.decode?_filter] at hdecode
    exact decodesAs_of_standsFor hd hname (.base64 hencoding hdecode)

omit d in
/-- Three characters with white space between them, the last of which has bits over;
the four characters of three octets and a lone one; and the characters of one octet,
with one of two equals signs. -/
theorem base64_of_incomplete_groups :
    let leftover : EncodedWord := ⟨[0x62, 0x69, 0x67, 0x35], [0x42], [0x59, 0x20, 0x57, 0x0D, 0x4A]⟩
    let lone : EncodedWord := { leftover with payload := [0x59, 0x57, 0x4A, 0x6A, 0x59] }
    let written : EncodedWord := { leftover with payload := [0x09, 0x59, 0x51, 0x20, 0x3D] }
    (@decode .asciiOnly leftover .null).result = .ok "ab" ∧
      (∃ fault, (@decode .asciiOnly lone .null).result = .error (.word fault)) ∧
      (@decode .asciiOnly written .null).result = .ok "a" := by
  intro leftover lone written
  have hspelt : Base64.octets (Base64.spelt [0x59, 0x57, 0x4A]) = [0x61, 0x62] := by decide +kernel
  have htext : ∀ bs ∈ [[0x61, 0x62], [0x61]],
      (@Charset.decodeNamed .asciiOnly bs (.text "big5") .null .null).result =
        .ok (Text.ofOctets bs) := by
    simp only [eq_ok_iff_toOption]
    decide +kernel
  obtain ⟨hleft, -⟩ :=
    @base64_forgives_padding .asciiOnly Decoders.replace_asciiOnly leftover rfl (Or.inr rfl)
  obtain ⟨hlone, -⟩ :=
    @base64_forgives_padding .asciiOnly Decoders.replace_asciiOnly lone rfl (Or.inr rfl)
  obtain ⟨-, hwritten⟩ :=
    @base64_forgives_padding .asciiOnly Decoders.replace_asciiOnly written rfl (Or.inr rfl)
  refine ⟨?_, (hlone (by decide +kernel)).1.2 (by decide), ?_⟩
  · obtain ⟨⟨t, ht, hword⟩, -⟩ := (hleft (by decide +kernel)).2 (by decide)
    have hcharacters : (leftover.payload.filter fun b => (Base64.value? b).isSome) =
        [0x59, 0x57, 0x4A] := by decide
    rw [hcharacters, hspelt] at ht
    cases ht.symm.trans (htext [0x61, 0x62] (by simp))
    exact hword
  · obtain ⟨t, ht, hword⟩ := hwritten [0x61] ⟨1, by decide, by decide⟩
    cases ht.symm.trans (htext [0x61] (by simp))
    exact hword

end EncodedWord

end HeaderList
