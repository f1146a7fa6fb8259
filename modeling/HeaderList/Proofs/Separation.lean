import HeaderList.Proofs.Scanner.Attempt

/-!
# `HeaderList/Proofs/Separation.lean` — a comma separates completely

What stands in front of a comma and what stands behind it are read as if each were a header of its
own: the entries of the whole are those of the one and then those of the other (`read_separated`).
No word goes over a comma, no space is left behind it, and no entry is lost or made there, whether
the octets in front end in a word, in white space, in an encoded word or in another comma.

A header can be cut in two wherever an octet comes that is part of no word (`items_append`), as
long as the encoded words in front are the same with and without the octets behind (`Settles`). A
payload may have commas, so that this has to be asked: a word that is not closed in front of the
comma can be closed behind it.
-/

set_option autoImplicit false

namespace HeaderList

/-! ## Cutting in two

That the octets can be cut is a matter of the octet behind the cut and of the
encoded words in front. The first keeps a plain word from going on, and `Settles`
keeps an encoded one from doing so. -/

section Cutting

variable [Decoders] {plain : Octets → Except Fault Text} {fallback : Datum}

/-- Octets are found with others behind them as they are without. -/
theorem Settles.encodedAt_append {b : UInt8} {rest bs l : Octets} (h : Settles fallback bs l)
    (hsuffix : b :: rest <:+ bs) : encodedAt fallback (b :: (rest ++ l)) =
      (encodedAt fallback (b :: rest)).map fun found => found.map fun p => (p.1, p.2 ++ l) := by
  by_cases hb : b = Octet.equals
  · subst hb
    exact h.found rest hsuffix
  · rw [encodedAt_of_ne fallback hb, encodedAt_of_ne fallback hb]
    rfl

/-- Octets that can be cut in two have the items of both parts. -/
theorem items_append {bs l : Octets} (h : Settles fallback bs l)
    (hl : ∀ b ∈ l.head?, Octet.isWord b = false) :
    items plain fallback (bs ++ l) = do
      let is ← items plain fallback bs
      let js ← items plain fallback l
      return is ++ js := by
  -- on the cutting of the octets in front; each case says what comes first in the whole
  fun_induction items plain fallback bs with
  | case1 =>
    rw [List.nil_append]
    cases items plain fallback l <;> rfl
  | case2 b rest hgap ih =>
    rw [List.cons_append, items_gap hgap]
    exact ih (h.of_suffix (List.suffix_cons b rest))
  | case3 rest hgap ih =>
    rw [List.cons_append, items_comma, ih (h.of_suffix (List.suffix_cons _ rest))]
    cases items plain fallback rest with
    | error fault => rfl
    | ok is => cases items plain fallback l <;> rfl
  | case4 b rest hgap hcomma fault hfault =>
    have hword := Octet.startsWord_of_not hgap hcomma
    rw [List.cons_append, items_startsWord hword, h.encodedAt_append (List.suffix_refl _), hfault]
    rfl
  | case5 b rest hgap hcomma text after hfound ih =>
    have hword := Octet.startsWord_of_not hgap hcomma
    rw [List.cons_append, items_startsWord hword, h.encodedAt_append (List.suffix_refl _), hfound]
    change (Item.encoded text :: ·) <$> items plain fallback (after ++ l) = _
    rw [ih (h.of_suffix ((isSuffix_encodedAt fallback hfound).trans (List.suffix_cons b rest)))]
    cases items plain fallback after with
    | error fault => rfl
    | ok is => cases items plain fallback l <;> rfl
  | case6 b rest hgap hcomma hnone ih =>
    have hword := Octet.startsWord_of_not hgap hcomma
    obtain ⟨htake, hdrop⟩ := takeWhile_append_of_not_word hl rest
    rw [List.cons_append, items_startsWord hword, h.encodedAt_append (List.suffix_refl _), hnone]
    change (do
      let text ← plain ((b :: (rest ++ l).takeWhile Octet.isWord).filter (· != Octet.cr))
      let others ← items plain fallback ((rest ++ l).dropWhile Octet.isWord)
      return Item.word text :: others) = _
    rw [htake, hdrop, ih (h.of_suffix ((List.dropWhile_suffix _).trans (List.suffix_cons b rest)))]
    cases plain ((b :: rest.takeWhile Octet.isWord).filter (· != Octet.cr)) with
    | error fault => rfl
    | ok text =>
      cases items plain fallback (rest.dropWhile Octet.isWord) with
      | error fault => rfl
      | ok is => cases items plain fallback l <;> rfl

end Cutting

/-! ## At a comma

A comma is part of no word, and between two entries it is all there is. So the items of the whole
are those of both parts with a comma between them. -/

namespace Header

variable [Decoders] {a b : Octets} {given : Settings}

theorem read_octets_eq_ok_iff {bs : Octets} {v : Value} :
    (read (.octets bs) given).result = .ok v ↔
      (∃ c s, Scanner.start c given = .ok s) ∧ meaning given bs = .ok v := by
  change (readAt (.ofOctets bs) given).1.result = .ok v ↔ _
  constructor
  · intro h
    obtain ⟨s, -, hstart, -, -⟩ := readAt_of_ok h
    have hmeaning := meaning_of_readAt h
    rw [Cursor.rest_ofOctets] at hmeaning
    exact ⟨⟨_, s, hstart⟩, hmeaning⟩
  · rintro ⟨⟨c, s, hstart⟩, h⟩
    exact readAt_of_meaning (start_cursor hstart _) (by rwa [Cursor.rest_ofOctets])

/-- A header with a comma means what its two parts mean, one after the other. -/
theorem meaning_separated (ha : GoesOn a)
    (hsettles : Settles given.fallback a (Octet.comma :: content b)) :
    meaning given (a ++ Octet.comma :: b) = do
      let u ← meaning given a
      let v ← meaning given b
      return .ofEntries (u.entries ++ v.entries) := by
  have hcomma : content (Octet.comma :: b) = Octet.comma :: content b :=
    content_cons_of_ne (by decide) b
  have hboundary : ∀ x ∈ (Octet.comma :: content b).head?, Octet.isWord x = false := by
    intro x hx
    cases hx
    rfl
  rw [meaning, meaning, meaning, content_append_of_goesOn ha, content_of_goesOn ha, hcomma,
    items_append hsettles hboundary, items_comma]
  cases items given.readsWord given.fallback a with
  | error fault => rfl
  | ok is =>
    cases items given.readsWord given.fallback (content b) with
    | error fault => rfl
    | ok js =>
      change Except.ok (Value.ofEntries (Item.entries (is ++ Item.comma :: js))) =
        Except.ok (Value.ofEntries
        ((Value.ofEntries (Item.entries is)).entries ++
          (Value.ofEntries (Item.entries js)).entries))
      rw [Item.entries_append_comma, Value.entries_ofEntries, Value.entries_ofEntries]

end Header

/-- A header with a comma in it, in front of which no line ends, has the entries of the octets in
front of the comma and then those of the octets behind it, each read as a header of its own. It
can be read exactly if the two can be. The octets behind the comma must make no difference to what
is found where an encoded word can be looked for in front of it. -/
theorem read_separated [Decoders] {a b : Octets} {given : Settings} (ha : Header.GoesOn a)
    (hattempts : ∀ w, w <:+ a → [Octet.equals, Octet.question] <+: w →
      attempt given.fallback (w ++ Octet.comma :: b) = attempt given.fallback w) :
    (∀ u v w, (Header.read (.octets a) given).result = .ok u →
      (Header.read (.octets b) given).result = .ok v →
      (Header.read (.octets (a ++ Octet.comma :: b)) given).result = .ok w →
        w.entries = u.entries ++ v.entries) ∧
    ((∃ w, (Header.read (.octets (a ++ Octet.comma :: b)) given).result = .ok w) ↔
      (∃ u, (Header.read (.octets a) given).result = .ok u) ∧
        ∃ v, (Header.read (.octets b) given).result = .ok v) := by
  have hcomma : Octet.comma :: Header.content b <+: Octet.comma :: b :=
    (List.prefix_cons_inj _).2 (Header.isPrefix_content b)
  have hsettles : Settles given.fallback a (Octet.comma :: Header.content b) :=
    settles_of_attempt (fun h => absurd (Option.some.inj h) (by decide)) hcomma hattempts
  have hmeaning := Header.meaning_separated ha hsettles
  simp only [Header.read_octets_eq_ok_iff]
  refine ⟨?_, ?_, ?_⟩
  · rintro u v w ⟨-, hu⟩ ⟨-, hv⟩ ⟨-, hw⟩
    rw [hmeaning, hu, hv] at hw
    cases hw
    exact Value.entries_ofEntries _
  · rintro ⟨w, hgood, hw⟩
    rw [hmeaning] at hw
    obtain ⟨u, hu, hw⟩ := bind_eq_ok hw
    obtain ⟨v, hv, -⟩ := bind_eq_ok hw
    exact ⟨⟨u, hgood, hu⟩, v, hgood, hv⟩
  · rintro ⟨⟨u, hgood, hu⟩, v, -, hv⟩
    refine ⟨.ofEntries (u.entries ++ v.entries), hgood, ?_⟩
    rw [hmeaning, hu, hv]
    rfl

/-- A comma behind a word that is open, and is not an encoded one after all, with an encoded comma
in front of it; behind it come another comma and an encoded word. -/
theorem separation_behind_open_word :
    let a : Octets :=
      [0x78, 0x2C, 0x0D, 0x0A, 0x20, 0x3D, 0x3F, 0x75, 0x74, 0x66, 0x2D, 0x38, 0x3F, 0x71,
      0x3F, 0x61, 0x2C, 0x62, 0x3F, 0x3D, 0x09, 0x3D, 0x3F, 0x79]
    let b : Octets :=
      [0x20, 0x2C, 0x3D, 0x3F, 0x75, 0x74, 0x66, 0x2D, 0x38, 0x3F, 0x62, 0x3F, 0x59, 0x67,
      0x3F, 0x3D, 0x20, 0x63]
    (@Header.read .none (.octets a) {}).result = .ok (.list ["x", "a,b =?y"]) ∧
      (@Header.read .none (.octets b) {}).result = .ok (.text "b c") ∧
      ∃ w, (@Header.read .none (.octets (a ++ Octet.comma :: b)) {}).result = .ok w ∧
        w.entries = (["x", "a,b =?y", "b c"] : List Text) := by
  intro a b
  have ha : (@Header.read .none (.octets a) {}).result = .ok (.list ["x", "a,b =?y"]) := by
    rw [eq_ok_iff_toOption]
    decide +kernel
  have hb : (@Header.read .none (.octets b) {}).result = .ok (.text "b c") := by
    rw [eq_ok_iff_toOption]
    decide +kernel
  have hgoes : Header.GoesOn a := by
    have hlines : ∀ n ≤ a.length, (a.drop n).head? = some Octet.lf →
        Header.endsBefore (a.drop n).tail = false := by decide
    intro rest hrest
    have hline := hlines (a.length - (Octet.lf :: rest).length) (Nat.sub_le _ _)
    rw [← List.suffix_iff_eq_drop.1 hrest] at hline
    exact hline rfl
  have hplaces : ∀ n ≤ a.length, [Octet.equals, Octet.question] <+: a.drop n → n = 5 ∨ n = 21 := by
    decide
  have hword : ∀ more ∈ [[], Octet.comma :: b],
      @attempt .none .null (a.drop 5 ++ more) = .ok (some ("a,b", 15)) := by
    simp only [eq_ok_iff_toOption]
    decide +kernel
  have hnone :
      ∀ more ∈ [[], Octet.comma :: b], @attempt .none .null (a.drop 21 ++ more) = .ok none := by
    simp only [eq_ok_iff_toOption]
    decide +kernel
  have hattempts : ∀ w, w <:+ a → [Octet.equals, Octet.question] <+: w →
      @attempt .none .null (w ++ Octet.comma :: b) = @attempt .none .null w := by
    intro w hw hq
    rw [List.suffix_iff_eq_drop] at hw
    rw [hw] at hq ⊢
    rcases hplaces _ (Nat.sub_le _ _) hq with hn | hn
    · have halone := hword [] (by simp)
      rw [List.append_nil] at halone
      rw [hn, halone, hword _ (by simp)]
    · have halone := hnone [] (by simp)
      rw [List.append_nil] at halone
      rw [hn, halone, hnone _ (by simp)]
  obtain ⟨hentries, hboth⟩ := @read_separated .none a b {} hgoes hattempts
  obtain ⟨w, hw⟩ := hboth.2 ⟨⟨_, ha⟩, _, hb⟩
  exact ⟨ha, hb, w, hw, hentries _ _ w ha hb hw⟩

end HeaderList
