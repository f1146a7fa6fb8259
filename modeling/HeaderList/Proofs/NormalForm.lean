import HeaderList.Proofs.PlainText

/-!
# `HeaderList/Proofs/NormalForm.lean` — reading what was read

The entries of a header without encoded words are in a form (`Text.IsEntry`): they have no
separator but single spaces between other characters. This is so for any octets, also where they
are not UTF-8. A flaw becomes a character of its own, which separates nothing, and an octet that
separates is never taken into a flaw, because the words were cut before they were decoded. So
nothing that was cut off comes back, and no word becomes empty (`IsSpoken.lossy`).

Entries in that form, written with commas between them, are read as they were, in number and
in shape (`read_normal_form`).
-/

set_option autoImplicit false

namespace HeaderList

/-! ## Entries

That no space stands at an end of an entry or next to another one is told by cutting it at spaces:
no part is empty, because the parts are the words that were joined. -/

/-- Has the text characters other than spaces at its ends, single spaces
between, and no other separator? -/
structure Text.IsEntry (e : Text) : Prop where
  ne_nil : e ≠ []
  no_separator : ∀ c ∈ e, c ≠ 0x2C ∧ c ≠ 0x09 ∧ c ≠ 0x0D ∧ c ≠ 0x0A
  start : e.head? ≠ some 0x20
  finish : e.getLast? ≠ some 0x20
  single : ¬ ([0x20, 0x20] : Text) <:+: e

section Splitting

variable {α : Type} [BEq α] [LawfulBEq α] {x : α} {l : List α}

/-- Where no part is empty, a separator stands neither at an end nor next to another. -/
theorem tight_of_splitOn (h : [] ∉ l.splitOn x) :
    l ≠ [] ∧ l.head? ≠ some x ∧ l.getLast? ≠ some x ∧ ¬ [x, x] <:+: l := by
  refine ⟨?_, ?_, ?_, ?_⟩
  · rintro rfl
    exact h List.mem_cons_self
  · intro hhead
    obtain ⟨rest, rfl⟩ := List.head?_eq_some_iff.1 hhead
    rw [List.splitOn_cons_eq_if_modifyHead, if_pos (beq_self_eq_true x)] at h
    exact h List.mem_cons_self
  · intro hlast
    obtain ⟨front, rfl⟩ := List.getLast?_eq_some_iff.1 hlast
    rw [List.splitOn_append_cons_self] at h
    exact h (List.mem_append_right _ List.mem_cons_self)
  · rintro ⟨front, back, rfl⟩
    rw [List.append_assoc, List.cons_append, List.splitOn_append_cons_self, List.singleton_append,
      List.splitOn_cons_eq_if_modifyHead, if_pos (beq_self_eq_true x)] at h
    exact h (List.mem_append_right _ List.mem_cons_self)

omit [BEq α] [LawfulBEq α] in
theorem mem_intercalate {sep : List α} {ls : List (List α)} {a : α} (h : a ∈ sep.intercalate ls) :
    a ∈ sep ∨ ∃ l ∈ ls, a ∈ l := by
  induction ls with
  | nil => cases h
  | cons l ls ih =>
    cases ls with
    | nil =>
      rw [List.intercalate_singleton] at h
      exact Or.inr ⟨l, List.mem_cons_self, h⟩
    | cons k ks =>
      rw [List.intercalate_cons_cons, List.mem_append, List.mem_append] at h
      rcases h with (h | h) | h
      · exact Or.inr ⟨l, List.mem_cons_self, h⟩
      · exact Or.inl h
      · exact (ih h).imp_right fun ⟨m, hm, ha⟩ => ⟨m, List.mem_cons_of_mem l hm, ha⟩

end Splitting

namespace IsSpoken

variable {ws : List Text}

/-- Words with a space between them are an entry. -/
theorem isEntry (h : IsSpoken ws) : Text.IsEntry (List.intercalate [0x20] ws) := by
  have hempty : [] ∉ (List.intercalate [0x20] ws).splitOn 0x20 := by
    rw [h.splitOn_eq]
    intro hmem
    exact (h.words [] hmem).1 rfl
  obtain ⟨hne, hstart, hfinish, hsingle⟩ := tight_of_splitOn hempty
  refine ⟨hne, fun c hc => ?_, hstart, hfinish, hsingle⟩
  rcases mem_intercalate hc with hspace | ⟨w, hw, hcw⟩
  · rw [List.mem_singleton.1 hspace]
    decide
  · obtain ⟨hcomma, hgap, hcr⟩ := (h.words w hw).2 c hcw
    refine ⟨hcomma, ?_, hcr, ?_⟩
    · rintro rfl
      cases hgap
    · rintro rfl
      cases hgap

theorem pieces_eq (h : IsSpoken ws) :
    pieces CodePoint.isGap (· != 0x0D) (List.intercalate [0x20] ws) = ws := by
  refine pieces_intercalate rfl fun w hw => ⟨(h.words w hw).1, fun c hc => ?_⟩
  obtain ⟨-, hgap, hcr⟩ := (h.words w hw).2 c hc
  exact ⟨hgap, by simpa using hcr⟩

theorem no_comma (h : IsSpoken ws) : ∀ c ∈ List.intercalate [0x20] ws, (c == 0x2C) = false := by
  intro c hc
  rw [beq_eq_false_iff_ne]
  exact (h.isEntry.no_separator c hc).1

end IsSpoken

/-! ## Entries with commas between them

What was joined by commas is cut at commas again, as no entry has one in it, and then each part at
its spaces. The space that is written behind a comma is in front of the first word of the next
part, where it is passed over. -/

theorem Text.line_of_no_lf {t : Text} (h : 0x0A ∉ t) : t.line = t := by
  induction t with
  | nil => rfl
  | cons c t ih =>
    rw [List.mem_cons, not_or] at h
    rw [line, if_neg (fun hc => h.1 hc.1.symm), ih h.2]

theorem parts_commaSeparated {wss : List (List Text)} (h : ∀ ws ∈ wss, IsSpoken ws)
    (hne : wss ≠ []) :
    parts (· == 0x2C) CodePoint.isGap (· != 0x0D)
      (Text.commaSeparated (wss.map (List.intercalate [0x20]))) = wss := by
  induction wss with
  | nil => exact absurd rfl hne
  | cons ws wss ih =>
    rw [List.forall_mem_cons] at h
    cases wss with
    | nil =>
      rw [List.map_singleton, Text.commaSeparated, List.intercalate_singleton,
        parts_of_not h.1.no_comma, h.1.pieces_eq]
    | cons vs wss =>
      have hrest := ih h.2 (List.cons_ne_nil vs wss)
      rw [Text.commaSeparated] at hrest ⊢
      rw [List.map_cons, List.map_cons, List.intercalate_cons_cons, List.append_assoc,
        ← List.map_cons, List.cons_append, parts_append_stop h.1.no_comma rfl, h.1.pieces_eq,
        List.singleton_append,
        parts_skip rfl (Or.inl rfl), hrest]

/-- Entries that are written with commas between them are found again. -/
theorem listed_commaSeparated {wss : List (List Text)} (h : ∀ ws ∈ wss, IsSpoken ws) :
    (Text.commaSeparated (wss.map (List.intercalate [0x20]))).listed =
      wss.map (List.intercalate [0x20]) := by
  have hlf : 0x0A ∉ Text.commaSeparated (wss.map (List.intercalate [0x20])) := by
    intro hmem
    rcases mem_intercalate hmem with hsep | ⟨e, he, hmem⟩
    · exact absurd hsep (by decide)
    · obtain ⟨ws, hws, rfl⟩ := List.mem_map.1 he
      exact ((h ws hws).isEntry.no_separator _ hmem).2.2.2 rfl
  rw [Text.listed, Text.words, Text.line_of_no_lf hlf]
  cases wss with
  | nil => rfl
  | cons ws wss =>
    rw [parts_commaSeparated h (List.cons_ne_nil ws wss), List.filter_eq_self.2]
    intro vs hvs
    simpa using (h vs hvs).ne_nil

/-! ## Words that are decoded

Decoding could bring back what was cut off, if octets of a word could read as a
character that separates. In UTF-8 such a character is an octet of its own, and that
octet would have been there to be cut at. -/

section Decoding

variable {bs : Octets} {c : CodePoint}

theorem Form.lossy_ne_nil (form : Form) (h : bs ≠ []) : form.lossy bs ≠ [] := by
  cases bs with
  | nil => exact absurd rfl h
  | cons b rest =>
    rw [lossy]
    split <;> exact List.cons_ne_nil _ _

/-- A character of ASCII is there because its octet is, and what stands for
a flaw can be written again. -/
theorem Utf8.mem_lossy (h : c ∈ Utf8.form.lossy bs) :
    c.isSurrogate = false ∧ ∀ b, b < 0x80 → c = .ofOctet b → b ∈ bs := by
  -- on the reading; a flaw reads as U+FFFD, which is not ASCII
  fun_induction Form.lossy Utf8.form bs with
  | case1 => cases h
  | case2 b rest d more hread ih =>
    obtain ⟨hsurrogate, hencode⟩ := encode_of_read hread
    rcases List.mem_cons.1 h with rfl | h
    · refine ⟨hsurrogate, ?_⟩
      rintro x hx rfl
      rw [encode_one hx] at hencode
      rw [← (List.cons.inj hencode).1]
      exact List.mem_cons_self
    · exact (ih h).imp_right fun hmem x hx hc =>
        List.mem_cons_of_mem b (List.mem_of_mem_drop (hmem x hx hc))
  | case3 b rest what more hread ih =>
    rcases List.mem_cons.1 h with rfl | h
    · refine ⟨by decide, ?_⟩
      intro x hx hc
      have hval : (0xFFFD : Nat) = x.toNat := congrArg Fin.val hc
      have hlt := x.toNat_lt
      omega
    · exact (ih h).imp_right fun hmem x hx hc =>
        List.mem_cons_of_mem b (List.mem_of_mem_drop (hmem x hx hc))

/-- The words of a header are the words of entries also when they are decoded. -/
theorem IsSpoken.lossy {ws : List Octets} (h : ws ∈ Header.words bs) :
    IsSpoken (ws.map Utf8.form.lossy) := by
  obtain ⟨hws, hne⟩ := List.mem_filter.1 h
  refine ⟨by simpa using hne, ?_⟩
  intro t ht
  obtain ⟨w, hw, rfl⟩ := List.mem_map.1 ht
  obtain ⟨hword, hmem⟩ := mem_parts hws hw
  refine ⟨Form.lossy_ne_nil _ hword, fun c hc => ?_⟩
  -- a character that separates would come from an octet that does
  have hascii := (Utf8.mem_lossy hc).2
  refine ⟨?_, ?_, ?_⟩
  · intro hcomma
    exact absurd (hmem _ (hascii Octet.comma (by decide) hcomma)).2.1 (by decide)
  · rw [Bool.eq_false_iff]
    intro hgap
    obtain ⟨b, hb, hcb⟩ := Utf8.isGap_iff.1 hgap
    rw [(hmem b (hascii b (Utf8.lt_of_isGap hb) hcb)).2.2.1] at hb
    cases hb
  · intro hcr
    exact absurd (hmem _ (hascii Octet.cr (by decide) hcr)).2.2.2 (by decide)

theorem mem_of_mem_spoken {e : Text} (he : e ∈ Header.spoken Utf8.form.lossy bs) (hc : c ∈ e) :
    c.isSurrogate = false ∧ (c = 0x20 ∨ ∀ b, b < 0x80 → c = .ofOctet b → b ∈ bs) := by
  obtain ⟨ws, hws, rfl⟩ := List.mem_map.1 he
  rcases mem_intercalate hc with hspace | ⟨t, ht, hct⟩
  · rw [List.mem_singleton.1 hspace]
    exact ⟨by decide, Or.inl rfl⟩
  · obtain ⟨w, hw, rfl⟩ := List.mem_map.1 ht
    obtain ⟨hsurrogate, hascii⟩ := Utf8.mem_lossy hct
    refine ⟨hsurrogate, Or.inr fun b hb hcb => ?_⟩
    have hmem := ((mem_parts (List.mem_filter.1 hws).1 hw).2 b (hascii b hb hcb)).1
    exact (Header.isPrefix_content bs).subset hmem

/-- What is written again has no surrogate, and a question mark only if there was one. -/
theorem mem_of_mem_written (hc : c ∈ Text.commaSeparated (Header.spoken Utf8.form.lossy bs)) :
    c.isSurrogate = false ∧ (c = 0x3F → Octet.question ∈ bs) := by
  rcases mem_intercalate hc with hsep | ⟨e, he, hce⟩
  · simp only [List.mem_cons, List.not_mem_nil, or_false] at hsep
    rcases hsep with rfl | rfl <;> exact ⟨by decide, fun h => absurd h (by decide)⟩
  · obtain ⟨hsurrogate, hascii⟩ := mem_of_mem_spoken he hce
    refine ⟨hsurrogate, ?_⟩
    rintro rfl
    rcases hascii with hspace | hascii
    · exact absurd hspace (by decide)
    · exact hascii Octet.question (by decide) rfl

end Decoding

/-! ## Headers -/

theorem spoken_eq_map (bs : Octets) : Header.spoken Utf8.form.lossy bs =
    ((Header.words bs).map (List.map Utf8.form.lossy)).map (List.intercalate [0x20]) := by
  rw [Header.spoken, List.map_map]
  rfl

theorem isSpoken_of_mem {bs : Octets} {ws : List Text}
    (h : ws ∈ (Header.words bs).map (List.map Utf8.form.lossy)) : IsSpoken ws := by
  obtain ⟨os, hos, rfl⟩ := List.mem_map.1 h
  exact IsSpoken.lossy hos

/-- A header without question marks has a value, whatever else its octets are. Its entries are
texts with single spaces between characters that do not separate, and written with commas between
them they are read as the same value. -/
theorem read_normal_form [Decoders] {bs : Octets} (h : Octet.question ∉ bs) :
    ∃ v, (Header.read (.octets bs) {}).result = .ok v ∧ (∀ e ∈ v.entries, e.IsEntry) ∧
      (Header.read (.text (Text.commaSeparated v.entries)) {}).result = .ok v := by
  have hplain : Plain bs := fun hmarks => h (hmarks.subset (by simp))
  have hlisted : (Text.commaSeparated (Header.spoken Utf8.form.lossy bs)).listed =
      Header.spoken Utf8.form.lossy bs := by
    rw [spoken_eq_map]
    exact listed_commaSeparated fun ws hws => isSpoken_of_mem hws
  have hwritten : ∀ c ∈ Text.commaSeparated (Header.spoken Utf8.form.lossy bs),
      c.isSurrogate = false ∧ (c = 0x3F → Octet.question ∈ bs) := fun c hc => mem_of_mem_written hc
  have hagain := Header.read_text_of_plain (fun c hc => (hwritten c hc).1)
    fun hmarks => h ((hwritten 0x3F (hmarks.subset (by simp))).2 rfl)
  refine ⟨.ofEntries (Header.spoken Utf8.form.lossy bs), Header.read_octets_of_plain hplain, ?_, ?_⟩
  · rw [Value.entries_ofEntries, spoken_eq_map]
    intro e he
    obtain ⟨ws, hws, rfl⟩ := List.mem_map.1 he
    exact (isSpoken_of_mem hws).isEntry
  · rw [Value.entries_ofEntries, hagain, hlisted]

/-- Octets that are not UTF-8, a word cut short by a space, carriage returns, a
folded line, an empty entry. -/
theorem normal_form_of_flaws :
    let bs : Octets :=
      [0x0D, 0xFF, 0x0D, 0x20, 0x09, 0x0D, 0x20, 0xE2, 0x82, 0x20, 0xAC, 0x2C, 0x20, 0x0D, 0x2C,
      0x41, 0x0D, 0x0A, 0x20, 0xC3, 0x28, 0x0A]
    let v : Value := .list ["\uFFFD \uFFFD \uFFFD", "A \uFFFD("]
    (@Header.read .none (.octets bs) {}).result = .ok v ∧ (∀ e ∈ v.entries, e.IsEntry) ∧
      (@Header.read .none (.text "\uFFFD \uFFFD \uFFFD, A \uFFFD(") {}).result = .ok v := by
  intro bs v
  obtain ⟨u, hread, hentries, hagain⟩ := @read_normal_form .none bs (by decide)
  have hv : (@Header.read .none (.octets bs) {}).result = .ok v := by
    rw [eq_ok_iff_toOption]
    decide +kernel
  rw [hv] at hread
  cases hread
  exact ⟨hv, hentries, hagain⟩

end HeaderList
