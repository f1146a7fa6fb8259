import HeaderList.Proofs.Layout
import HeaderList.Proofs.Succession
import Mathlib.Logic.Relation

/-!
# `HeaderList/Proofs/Refusals.lean` — what only looks like an encoded word

An equals sign and a question mark where a word may begin need not begin an encoded
word. The scanner finds out by trying, may go far ahead for it, makes a remark, and
comes back to read the same octets as a plain word, which may well be over long before
the place where the attempt gave up.

The places can be told from the octets of the header alone (`refusals`), by a recursion that goes
the way of `items`: a plain word is passed over as a whole, whatever is in it. So a place is where
the cutting into items has a plain word (`items_of_mem_refusals`), and the next place is behind
that word (`refusals_apart`). The scanner does not know of these places. What a step of it does to
them and to the remarks is `Scanner.remarks_step`, and a run takes them up one after the other
(`Scanner.tries_of_readValue`).
-/

set_option autoImplicit false

namespace HeaderList

/-! ## In octets

The recursion is the one of `items`, and has the same cases. A place is told by
the octets that are left, as `items` does not count; the number of the place comes
in with the cursor, in `Passes`. -/

section Octets

variable [Decoders] {plain : Octets → Except Fault Text} {fallback : Datum}

variable (fallback) in
/-- The places in octets where a plain word begins that looks like an encoded one. Each is told
by the octets from there on. -/
def refusals : Octets → List Octets
  | [] => []
  | b :: rest =>
    if Octet.isBlank b ∨ b = Octet.lf ∨ b = Octet.cr then refusals rest
    else if b = Octet.comma then refusals rest
    else
      match _h : encodedAt fallback (b :: rest) with
      | .error _ => []
      | .ok (some (_, after)) => refusals after
      | .ok none =>
        let later := refusals (rest.dropWhile Octet.isWord)
        if [Octet.equals, Octet.question] <+: b :: rest then (b :: rest) :: later else later
termination_by bs => bs.length
decreasing_by
  · simp
  · simp
  · exact length_encodedAt fallback _h
  · exact Nat.lt_succ_of_le (List.dropWhile_suffix _).length_le

theorem refusals_nil : refusals fallback [] = [] := by
  rw [refusals]

theorem refusals_gap {b : UInt8} (h : Octet.isBlank b = true ∨ b = Octet.lf ∨ b = Octet.cr)
    (rest : Octets) : refusals fallback (b :: rest) = refusals fallback rest := by
  rw [refusals, if_pos h]

theorem refusals_comma (rest : Octets) :
    refusals fallback (Octet.comma :: rest) = refusals fallback rest := by
  rw [refusals, if_neg (by decide), if_pos rfl]

theorem refusals_startsWord {b : UInt8} (hb : Octet.StartsWord b) (rest : Octets) :
    refusals fallback (b :: rest) =
      match encodedAt fallback (b :: rest) with
      | .error _ => []
      | .ok (some (_, after)) => refusals fallback after
      | .ok none =>
        let later := refusals fallback (rest.dropWhile Octet.isWord)
        if [Octet.equals, Octet.question] <+: b :: rest then (b :: rest) :: later else later := by
  have h := hb.1
  simp only [Octet.isWord, Bool.not_eq_true', Bool.or_eq_false_iff, beq_eq_false_iff_ne] at h
  rw [refusals, if_neg (by simp [h, hb.2]), if_neg h.2]
  split <;> simp_all

theorem refusals_encoded {rest after : Octets} {t : Text}
    (h : encodedAt fallback (Octet.equals :: rest) = .ok (some (t, after))) :
    refusals fallback (Octet.equals :: rest) = refusals fallback after := by
  rw [refusals_startsWord ⟨by decide, by decide⟩, h]

theorem refusals_word {b : UInt8} (hb : Octet.StartsWord b) {rest : Octets}
    (h : encodedAt fallback (b :: rest) = .ok none) :
    refusals fallback (b :: rest) =
      let later := refusals fallback (rest.dropWhile Octet.isWord)
      if [Octet.equals, Octet.question] <+: b :: rest then (b :: rest) :: later else later := by
  rw [refusals_startsWord hb, h]

/-- A place is in the octets, an equals sign and a question mark are there, and the next one is
not before the word is over that begins there. -/
theorem refusals_apart (fallback : Datum) (bs : Octets) :
    (∀ r ∈ refusals fallback bs, r <:+ bs ∧ [Octet.equals, Octet.question] <+: r) ∧
      (refusals fallback bs).Pairwise fun r r' => r' <:+ r.dropWhile Octet.isWord := by
  -- on the recursion: each case takes octets from the front, so what was a suffix of
  -- the rest is one of the whole
  fun_induction refusals fallback bs with
  | case1 => exact ⟨by simp, .nil⟩
  | case2 b rest hgap ih =>
    exact ⟨fun r hr => (ih.1 r hr).imp_left fun h => h.trans (List.suffix_cons b rest), ih.2⟩
  | case3 rest hgap ih =>
    exact ⟨fun r hr => (ih.1 r hr).imp_left fun h => h.trans (List.suffix_cons _ rest), ih.2⟩
  | case4 => exact ⟨by simp, .nil⟩
  | case5 b rest hgap hcomma text after hfound ih =>
    have hsuffix := (isSuffix_encodedAt fallback hfound).trans (List.suffix_cons b rest)
    exact ⟨fun r hr => (ih.1 r hr).imp_left fun h => h.trans hsuffix, ih.2⟩
  | case6 b rest hgap hcomma hnone later hlooks ih =>
    have hb : Octet.isWord b = true := (Octet.startsWord_of_not hgap hcomma).1
    have hlater : (b :: rest).dropWhile Octet.isWord <:+ b :: rest := List.dropWhile_suffix _
    rw [List.dropWhile_cons_of_pos hb] at hlater
    refine ⟨List.forall_mem_cons.2 ⟨⟨List.suffix_refl _, hlooks⟩, fun r hr => ?_⟩,
      List.pairwise_cons.2 ⟨?_, ih.2⟩⟩
    · exact (ih.1 r hr).imp_left fun h => h.trans hlater
    · intro r hr
      rw [List.dropWhile_cons_of_pos hb]
      exact (ih.1 r hr).1
  | case7 b rest hgap hcomma hnone later hlooks ih =>
    have hlater := (List.dropWhile_suffix Octet.isWord (l := rest)).trans (List.suffix_cons b rest)
    exact ⟨fun r hr => (ih.1 r hr).imp_left fun h => h.trans hlater, ih.2⟩

omit [Decoders] in
/-- What comes after a word, cut off anywhere, does not go on with the word. -/
theorem dropWhile_takeWhile_append {rest pre r : Octets}
    (h : rest.dropWhile Octet.isWord = pre ++ r) :
    (rest.takeWhile Octet.isWord ++ pre).takeWhile Octet.isWord = rest.takeWhile Octet.isWord ∧
      (rest.takeWhile Octet.isWord ++ pre).dropWhile Octet.isWord = pre := by
  have hall : ∀ b ∈ rest.takeWhile Octet.isWord, Octet.isWord b = true :=
    List.all_eq_true.1 List.all_takeWhile
  have hhead := List.head?_dropWhile_not Octet.isWord rest
  rw [h] at hhead
  rw [List.takeWhile_append_of_pos hall, List.dropWhile_append_of_pos hall]
  cases pre with
  | nil => exact ⟨List.append_nil _, rfl⟩
  | cons b pre =>
    have hb : ¬ Octet.isWord b = true := by simpa using hhead
    rw [List.takeWhile_cons_of_neg hb, List.append_nil]
    exact ⟨rfl, List.dropWhile_cons_of_neg hb⟩

/-- At such a place the items are cut: in front of it are those of the octets in front, behind it
is one plain word, and then come those of the octets behind the word. -/
theorem items_of_mem_refusals {bs r : Octets} {is : List Item}
    (h : items plain fallback bs = .ok is) (hr : r ∈ refusals fallback bs) :
    ∃ pre front t after, bs = pre ++ r ∧ items plain fallback pre = .ok front ∧
      plain ((r.takeWhile Octet.isWord).filter (· != Octet.cr)) = .ok t ∧
      items plain fallback (r.dropWhile Octet.isWord) = .ok after ∧
      is = front ++ .word t :: after := by
  -- on the cutting, which takes the same turns as `refusals`
  fun_induction items plain fallback bs generalizing is with
  | case1 =>
    rw [refusals_nil] at hr
    cases hr
  | case2 b rest hgap ih =>
    rw [refusals_gap hgap] at hr
    obtain ⟨pre, front, t, after, rfl, hfront, hword⟩ := ih h hr
    exact ⟨b :: pre, front, t, after, rfl, by rw [items_gap hgap, hfront], hword⟩
  | case3 rest hgap ih =>
    rw [refusals_comma] at hr
    obtain ⟨js, hjs, rfl⟩ := map_eq_ok h
    obtain ⟨pre, front, t, after, rfl, hfront, ht, hafter, rfl⟩ := ih hjs hr
    refine ⟨Octet.comma :: pre, .comma :: front, t, after, rfl, ?_, ht, hafter, rfl⟩
    rw [items_comma, hfront]
    rfl
  | case4 => cases h
  | case5 b rest hgap hcomma text left hfound ih =>
    obtain ⟨rfl, w, hw, rfl, hdecode⟩ := encodedAt_eq_some fallback hfound
    rw [refusals_encoded hfound] at hr
    obtain ⟨js, hjs, rfl⟩ := map_eq_ok h
    obtain ⟨pre, front, t, after, rfl, hfront, ht, hafter, rfl⟩ := ih hjs hr
    -- the word is found as well where the octets end at the place
    have hfound' : encodedAt fallback (Octet.equals :: (w.body ++ pre)) =
        .ok (some (text, pre)) := by
      rw [encodedAt_of_body fallback hw, hdecode]
      rfl
    refine ⟨Octet.equals :: (w.body ++ pre), .encoded text :: front, t, after, by simp, ?_, ht,
      hafter, rfl⟩
    rw [items_encoded hfound', hfront]
    rfl
  | case6 b rest hgap hcomma hnone ih =>
    have hb := Octet.startsWord_of_not hgap hcomma
    obtain ⟨text, htext, h⟩ := bind_eq_ok h
    obtain ⟨js, hjs, h⟩ := bind_eq_ok h
    cases h
    rw [refusals_word hb hnone] at hr
    have hhere : r = b :: rest ∨ r ∈ refusals fallback (rest.dropWhile Octet.isWord) := by
      dsimp only at hr
      split at hr
      · exact List.mem_cons.1 hr
      · exact Or.inr hr
    rcases hhere with rfl | hlater
    · refine ⟨[], [], text, js, rfl, items_nil, ?_, ?_, rfl⟩
      · rw [List.takeWhile_cons_of_pos hb.1, htext]
      · rw [List.dropWhile_cons_of_pos hb.1, hjs]
    · obtain ⟨pre, front, t, after, hdrop, hfront, ht, hafter, rfl⟩ := ih hjs hlater
      have hrest : rest = (rest.takeWhile Octet.isWord ++ pre) ++ r := by
        rw [List.append_assoc, ← hdrop, List.takeWhile_append_dropWhile]
      obtain ⟨htake, hback⟩ := dropWhile_takeWhile_append hdrop
      have hnone' : encodedAt fallback (b :: (rest.takeWhile Octet.isWord ++ pre)) = .ok none := by
        rw [hrest] at hnone
        exact encodedAt_of_longer fallback hnone
      refine ⟨b :: (rest.takeWhile Octet.isWord ++ pre), .word text :: front, t, after, ?_, ?_, ht,
        hafter, rfl⟩
      · rw [List.cons_append, ← hrest]
      · rw [hb.filter_cr] at htext
        rw [items_word hb hnone', htake, hback, htext, hfront]
        rfl

end Octets

/-- Whether a header begins with what looks like an encoded word can be told from its own octets. -/
theorem Header.looksEncoded_content (bs : Octets) :
    [Octet.equals, Octet.question] <+: content bs ↔ [Octet.equals, Octet.question] <+: bs := by
  refine ⟨fun h => h.trans (isPrefix_content bs), ?_⟩
  rintro ⟨more, rfl⟩
  rw [content_append_of_no_lf (by decide)]
  exact List.prefix_append ..

/-! ## In the remarks of a scanner

Only one kind of remark counts here, the one that is made where an attempt fails. Decoding makes
others, and they are filtered out (`places`). -/

/-- Reading an encoded word makes no remark on encoded words. -/
theorem EncodedWord.invalidPlaces_decodeAt [Decoders] (fallback : Datum) (c : Cursor) :
    Notice.invalidPlaces (decodeAt fallback c).1.notices = [] := by
  unfold decodeAt
  split
  · next w d hread =>
    dsimp only
    unfold decode
    split
    · rfl
    · split
      · rfl
      · dsimp only
        split
        · exact Charset.invalidPlaces_decodeNamed ..
        · exact Charset.invalidPlaces_decodeNamed ..
  · rfl

namespace Scanner

/-- The places of the remarks that a scanner has made on what is no encoded word. -/
def places (s : Scanner) : List Int := Notice.invalidPlaces s.notices.toList

theorem places_noting (s : Scanner) {ns : List Notice} (h : Notice.invalidPlaces ns = []) :
    (s.noting ns).places = s.places := by
  simp only [places, noting, Array.toList_append, Notice.invalidPlaces_append, h, List.append_nil]

theorem places_refused (s : Scanner) {ns : List Notice} (h : Notice.invalidPlaces ns = []) :
    (s.refused ns).places = s.places ++ [(s.cursor.pos : Int) - 1] := by
  rw [← s.places_noting h, places, refused, Array.toList_push, Notice.invalidPlaces_append]
  rfl

variable [Decoders] {s t u : Scanner} {spaced more : Bool} {v : Value} {given : Settings}

theorem Closes.places (h : Closes s spaced t) : t.places = s.places := by
  cases h with
  | nothing => rfl
  | word start text => exact places_closed s spaced start text

omit [Decoders] in
theorem places_closeEntry (s : Scanner) : s.closeEntry.places = s.places := by
  unfold closeEntry
  split <;> rfl

theorem Closes.atWordStart (hin : s.wordStart = none → s.atWordStart = true)
    (h : Closes s spaced t) : t.atWordStart = true := by
  cases h with
  | nothing noWord => exact hin noWord
  | word => rfl

/-- What is done with the text of a word makes no remark, and leaves a
place where a word may begin. -/
theorem pushWord_eq_ok {text : Text} {found : Bool} (h : pushWord s text = .ok found t) :
    found = true ∧ t.places = s.places ∧ (s.atWordStart = true → t.atWordStart = true) := by
  rw [pushWord] at h
  split at h
  · cases h
    exact ⟨rfl, rfl, id⟩
  · split at h
    · next u hc =>
      have hclosed := closes_of_closeWord hc
      have hbegin : s.atWordStart = true → u.atWordStart = true :=
        fun hw => hclosed.atWordStart fun _ => hw
      cases h
      exact ⟨rfl, hclosed.places, hbegin⟩
    · cases h

/-- An attempt that finds a word makes no remark on it. One that finds none leaves a remark, and
otherwise the scanner as it was. -/
theorem tryWord_eq_ok {found : Bool} (h : tryWord s = .ok found t) :
    (found = true ∧ t.places = s.places) ∨
      (found = false ∧ ∃ ns, Notice.invalidPlaces ns = [] ∧ t = s.refused ns) := by
  have hnone := EncodedWord.invalidPlaces_decodeAt s.fallback s.cursor.mark
  rw [tryWord_eq] at h
  generalize EncodedWord.decodeAt s.fallback s.cursor.mark = found at h hnone
  obtain ⟨text, cursor⟩ := found
  dsimp only at h
  split at h
  · cases h
    exact Or.inr ⟨rfl, text.notices, hnone, rfl⟩
  · cases h
  · obtain ⟨rfl, hplaces, -⟩ := pushWord_eq_ok h
    exact Or.inl ⟨rfl, hplaces.trans (s.places_noting hnone)⟩

/-! ## One step -/

/-- Does an attempt at an encoded word come to nothing here, and leave `t`? The scanner has tried
where a word may begin. It has come back to the octet behind the equals sign, and but for the
remark it is as it was; then it takes the equals sign as an octet of a plain word. -/
structure TriesInVain (s t : Scanner) : Prop where
  mayBegin : s.atWordStart = true
  looks : [Octet.equals, Octet.question] <+: s.cursor.rest
  tries : tryWord s.moved = .ok false t
  data : t.cursor.data = s.cursor.data
  pos : t.cursor.pos = s.cursor.pos + 1
  wordStart : t.wordStart = s.wordStart
  wordEnd : t.wordEnd = s.wordEnd
  atWordStart : t.atWordStart = s.atWordStart
  fragments : t.fragments = s.fragments
  entries : t.entries = s.entries
  places : t.places = s.places ++ [(s.cursor.pos : Int)]
  goesOn : step s = extend t

/-- An attempt that fails leaves the scanner as it was, but for the mark and the remark. -/
theorem triesInVain_of_tryWord {bs : Octets}
    (hrest : s.cursor.rest = Octet.equals :: Octet.question :: bs) (hw : s.atWordStart = true)
    (h : tryWord s.moved = .ok false t) : TriesInVain s t := by
  have hstep := step_of_attempt hrest hw
  rw [h] at hstep
  obtain ⟨⟨⟩, -⟩ | ⟨-, ns, hnone, rfl⟩ := tryWord_eq_ok h
  have hplaces := s.moved.places_refused hnone
  have hpos : ((s.moved.cursor.pos : Int) - 1) = s.cursor.pos := by simp [moved]
  rw [hpos] at hplaces
  exact ⟨hw, ⟨bs, hrest.symm⟩, h, rfl, rfl, rfl, rfl, rfl, rfl, rfl, hplaces, hstep⟩

/-- What a step does to the remarks: it makes none, and the places that are ahead stay ahead; or
it is an attempt that comes to nothing at the first of them. -/
inductive Remarks (s t : Scanner) : Prop
  | none (places : t.places = s.places)
      (ahead : refusals s.fallback s.line = refusals s.fallback t.line)
  | one (w : Scanner) (tries : TriesInVain s w)
      (places : t.places = s.places ++ [(s.cursor.pos : Int)])
      (ahead : refusals s.fallback s.line = Header.content s.cursor.rest ::
        refusals s.fallback t.line)

/-- Where a plain word is opened, the places ahead are those behind the word, and the place of the
word itself if it looks like an encoded one. -/
theorem refusals_opened {b : UInt8} {bs : Octets} (hrest : s.cursor.rest = b :: bs)
    (hb : Octet.StartsWord b) (hw : s.atWordStart = true)
    (hnone : encodedAt s.fallback (Header.content s.cursor.rest) = .ok none)
    (hu : u.cursor.rest = s.moved.cursor.rest) :
    refusals s.fallback s.line =
      if [Octet.equals, Octet.question] <+: s.cursor.rest then
        Header.content s.cursor.rest :: refusals s.fallback u.opened.line
      else refusals s.fallback u.opened.line := by
  have hcontent := content_of_rest hrest fun hlf => hb.ne_lf hlf.1
  obtain ⟨-, hline⟩ := tail_line_of_atWordStart hw
  obtain ⟨-, hline'⟩ := tail_line_of_inside (s := u.opened) rfl
  have hcursor : u.opened.cursor.rest = s.moved.cursor.rest := hu
  have hlooks := Header.looksEncoded_content s.cursor.rest
  rw [hcontent] at hnone hlooks
  rw [hline, hline', hcursor, hcontent, refusals_word hb hnone]
  simp only [hlooks]

/-- At an attempt the place is the first of those ahead if the attempt fails. If it succeeds, the
places ahead are those behind the encoded word. -/
theorem remarks_attempt {bs : Octets} (hrest : s.cursor.rest = Octet.equals :: Octet.question :: bs)
    (hw : s.atWordStart = true) (h : step s = .ok true t) : Remarks s t := by
  have hcontent := content_of_rest hrest fun hb => absurd hb.1 (by decide)
  rw [step_of_attempt hrest hw] at h
  rcases tryWord_cases s.moved with ⟨ns, ht, hnone⟩ | ⟨fault, u, ht, -⟩ |
    ⟨text, ns, l, ht, -, -, hfound⟩
  · have htries := triesInVain_of_tryWord hrest hw ht
    rw [ht] at h
    obtain ⟨-, u, hclosed, rfl⟩ := closes_of_extend (s := s.moved.refused ns) hw h
    have hnone' : encodedAt s.fallback (Header.content s.cursor.rest) = .ok none := by
      rw [hcontent]
      exact hnone
    have hcursor : u.cursor.rest = s.moved.cursor.rest := by
      rw [hclosed.cursor]
      rfl
    -- the word goes as far as it can, whatever the attempt has looked at
    have hopened := refusals_opened hrest ⟨by decide, by decide⟩ hw hnone' hcursor
    rw [if_pos htries.looks] at hopened
    exact .one _ htries (hclosed.places.trans htries.places) hopened
  · rw [ht] at h
    cases h
  · rw [ht, pushWord_found] at h
    obtain ⟨-, -, hbegin⟩ := pushWord_eq_ok h
    obtain ⟨-, hplaces⟩ | ⟨⟨⟩, -⟩ := tryWord_eq_ok (ht.trans h)
    obtain ⟨-, hline⟩ := tail_line_of_atWordStart hw
    obtain ⟨-, hline'⟩ := tail_line_of_atWordStart (hbegin hw)
    have hfound' : encodedAt s.fallback (Octet.equals :: Header.content s.moved.cursor.rest) =
        .ok (some (text, Header.content (s.moved.accepted ns l).cursor.rest)) := hfound
    refine .none hplaces ?_
    rw [hline, hline', cursor_pushWord h, hcontent, refusals_encoded hfound']

/-- An octet of a plain word has no place of its own: inside a word none is looked for, and a word
that begins without the two marks is passed over by `refusals` as well. -/
theorem remarks_word {b : UInt8} {bs : Octets} (hrest : s.cursor.rest = b :: bs)
    (hb : Octet.StartsWord b)
    (hno : ¬ (b = Octet.equals ∧ s.atWordStart = true ∧ bs.head? = some Octet.question))
    (h : step s = .ok true t) : Remarks s t := by
  rw [step_of_word hrest hb hno] at h
  cases hw : s.atWordStart with
  | false =>
    rw [extend_of_inside (s := s.moved) hw] at h
    cases h
    obtain ⟨-, hline⟩ := tail_line_of_inside hw
    obtain ⟨-, hline'⟩ := tail_line_of_inside (s := s.moved.extended) hw
    refine .none rfl ?_
    rw [hline, content_of_rest hrest fun hlf => hb.ne_lf hlf.1, List.dropWhile_cons_of_pos hb.1]
    exact congrArg _ hline'.symm
  | true =>
    obtain ⟨-, u, hclosed, rfl⟩ := closes_of_extend (s := s.moved) hw h
    have hother : ¬ (b = Octet.equals ∧ bs.head? = some Octet.question) :=
      fun hq => hno ⟨hq.1, hw, hq.2⟩
    have hlooks : ¬ [Octet.equals, Octet.question] <+: s.cursor.rest := by
      rintro ⟨more, hmore⟩
      rw [hrest] at hmore
      obtain ⟨rfl, rfl⟩ := List.cons.inj hmore
      exact hother ⟨rfl, rfl⟩
    have hnone := encodedAt_content_of_not_attempt hrest hb hother
    have hopened := refusals_opened hrest hb hw hnone (congrArg Cursor.rest hclosed.cursor)
    rw [if_neg hlooks] at hopened
    exact .none hclosed.places hopened

/-- A step takes the first place from those that are ahead and remarks
on it, or leaves both alone. -/
theorem remarks_step (hin : s.wordStart = none → s.atWordStart = true) (h : step s = .ok true t) :
    Remarks s t := by
  cases s.meets with
  | nothing hrest =>
    rw [step_of_nil hrest] at h
    cases h
  | lineEnd bs hrest hb =>
    rw [step_of_break hrest hb] at h
    cases h
  | white b bs hrest hb =>
    obtain ⟨hgap, hword⟩ := gap_of_white hb
    obtain ⟨-, hline⟩ :=
      tail_line_of_cons (content_of_rest hrest (not_end_of_white hb)) (Or.inr hword)
    rw [step_of_white hrest hb] at h
    cases h
    refine .none rfl ?_
    rw [hline, refusals_gap hgap]
    rfl
  | cr bs hrest =>
    have hcontent := content_of_rest hrest fun hb => absurd hb.1 (by decide)
    rw [step_of_cr hrest] at h
    cases h
    refine .none rfl ?_
    cases hw : s.atWordStart with
    | true =>
      obtain ⟨-, hline⟩ := tail_line_of_atWordStart hw
      obtain ⟨-, hline'⟩ := tail_line_of_atWordStart (s := s.moved) hw
      rw [hline, hline', hcontent, refusals_gap (Or.inr (Or.inr rfl))]
    | false =>
      obtain ⟨-, hline⟩ := tail_line_of_inside hw
      obtain ⟨-, hline'⟩ := tail_line_of_inside (s := s.moved) hw
      rw [hline, hline', hcontent, List.dropWhile_cons_of_pos (by decide)]
  | comma bs hrest =>
    have hcontent := content_of_rest hrest fun hb => absurd hb.1 (by decide)
    obtain ⟨-, hline⟩ := tail_line_of_cons hcontent (Or.inr rfl)
    rw [step_of_comma hrest] at h
    split at h
    · next u hclose =>
      cases h
      have hclosed := closes_of_closeWord hclose
      have hw : u.closeEntry.atWordStart = true := by
        rw [atWordStart_closeEntry]
        exact hclosed.atWordStart (s := s.moved) hin
      obtain ⟨-, hline'⟩ := tail_line_of_atWordStart hw
      refine .none ((places_closeEntry u).trans hclosed.places) ?_
      rw [hline, hline', cursor_closeEntry, hclosed.cursor, refusals_comma]
    · cases h
  | attempt bs hrest hw => exact remarks_attempt hrest hw h
  | word b bs hrest hb hno => exact remarks_word hrest hb hno h

/-! ## All steps

The remarks are made along the way, and the places that are ahead get fewer as they are made. When
the header is over none is ahead, so all of them have been remarked on. -/

/-- A step after which the header goes on. -/
def Goes (s t : Scanner) : Prop := step s = .ok true t

/-- However many steps it took, what is between two scanners of a run are octets of the header. -/
theorem passes_goes (h : Relation.ReflTransGen Goes s t) : ∃ l, Passes s l t := by
  induction h with
  | refl => exact ⟨[], .refl s⟩
  | tail _ hstep ih =>
    obtain ⟨l, hl⟩ := ih
    obtain ⟨l', -, hl'⟩ := passes_step hstep
    exact ⟨l ++ l', hl.trans hl'⟩

theorem places_answer (h : answer s = .ok v t) : t.places = s.places := by
  rw [answer] at h
  split at h
  · cases h
  · next u hclose =>
    cases h
    exact (places_closeEntry u).trans (closes_of_closeWord hclose).places

/-- What ends a header makes no remark, and there was nothing ahead to remark on. -/
theorem places_end (h : step s = .ok false t) :
    t.places = s.places ∧ Header.content s.cursor.rest = [] := by
  cases moves_of_step h with
  | nothing hrest => exact ⟨rfl, by rw [hrest]; rfl⟩
  | lineEnd bs hrest hends => exact ⟨rfl, by rw [hrest, Header.content_lf hends]⟩

/-- A scanner tries in vain at the places that are ahead, once at each of them and nowhere
else, and makes a remark there. -/
theorem tries_of_readValue (hs : Steady given s) (h : readValue s = .ok v t) :
    ∃ us : List Scanner, us.map (fun u => Header.content u.cursor.rest) =
      refusals given.fallback s.line ∧
      t.places = s.places ++ us.map (fun u => (u.cursor.pos : Int)) ∧
      ∀ u ∈ us, (∃ w, TriesInVain u w) ∧ Relation.ReflTransGen Goes s u := by
  -- along the run; the first of the scanners to find is the one that it starts with, or is later
  induction s using run_induction with
  | head s ih =>
    rw [readValue_eq] at h
    split at h
    · next u hstep =>
      obtain ⟨us, hahead, hplaces, hus⟩ :=
        ih u hstep (hs.step hstep) h
      have hlater : ∀ x ∈ us, (∃ w, TriesInVain x w) ∧ Relation.ReflTransGen Goes s x :=
        fun x hx => (hus x hx).imp_right fun hgoes => .head hstep hgoes
      cases remarks_step hs.inside hstep with
      | none hsame hline =>
        refine ⟨us, ?_, by rw [hplaces, hsame], hlater⟩
        rw [hahead, ← hs.fallback, hline]
      | one w htries hsame hline =>
        refine ⟨s :: us, ?_, ?_, List.forall_mem_cons.2 ⟨⟨⟨w, htries⟩, .refl⟩, hlater⟩⟩
        · rw [List.map_cons, hahead, ← hs.fallback, hline]
        · rw [hplaces, hsame, List.map_cons, List.append_assoc, List.singleton_append]
    · next u hstep =>
      obtain ⟨hsame, hcontent⟩ := places_end hstep
      refine ⟨[], ?_, ?_, by simp⟩
      · rw [(tail_line_of_nil hcontent).2, refusals_nil, List.map_nil]
      · rw [places_answer h, hsame, List.map_nil, List.append_nil]
    · cases h

end Scanner

/-! ## Whole headers

The scanners of a run are told apart by their places in the octets, and the octets in front of a
place are those that the run has passed. So what `refusals` says of octets is said of places. -/

/-- The octets from a place up to the next blank, line feed or comma, or to the end. -/
def Cursor.wordFrom (c : Cursor) (n : Nat) : Octets := (c.data.toList.drop n).takeWhile Octet.isWord

theorem Header.takeWhile_content (bs : Octets) :
    (content bs).takeWhile Octet.isWord = bs.takeWhile Octet.isWord := by
  rcases content_cases bs with h | ⟨more, -, h⟩
  · rw [h]
  · have htake :=
      (takeWhile_append_of_not_word (l := Octet.lf :: more) (by simp [Octet.isWord]) (content bs)).1
    rw [← htake, ← h]

namespace Scanner

variable {s u u' : Scanner} {l l' : Octets}

theorem Passes.wordFrom (h : Passes s l u) :
    (Header.content u.cursor.rest).takeWhile Octet.isWord = s.cursor.wordFrom u.cursor.pos := by
  rw [Header.takeWhile_content, Cursor.rest, Cursor.wordFrom, h.data]

/-- The next place where a scanner tries in vain is behind the word at this one. -/
theorem Passes.apart (h : Passes s l u) (h' : Passes s l' u')
    (hlooks : [Octet.equals, Octet.question] <+: Header.content u.cursor.rest)
    (hbehind : Header.content u'.cursor.rest <:+
      (Header.content u.cursor.rest).dropWhile Octet.isWord) :
    u.cursor.pos < u'.cursor.pos ∧
      u.cursor.pos + (s.cursor.wordFrom u.cursor.pos).length ≤ u'.cursor.pos := by
  have hsame : l ++ Header.content u.cursor.rest = l' ++ Header.content u'.cursor.rest :=
    h.line.symm.trans h'.line
  have hlen := congrArg List.length hsame
  have hsplit := congrArg List.length
    (List.takeWhile_append_dropWhile (p := Octet.isWord) (l := Header.content u.cursor.rest))
  have hfirst : 0 < ((Header.content u.cursor.rest).takeWhile Octet.isWord).length := by
    obtain ⟨more, hmore⟩ := hlooks
    rw [← hmore, List.cons_append, List.takeWhile_cons_of_pos (by decide)]
    exact Nat.succ_pos _
  have hle := hbehind.length_le
  rw [← h.wordFrom, h.pos, h'.pos]
  rw [List.length_append, List.length_append] at hlen
  rw [List.length_append] at hsplit
  omega

end Scanner

namespace Header

variable [Decoders] {c : Cursor} {given : Settings} {v : Value}

/-- Does a scanner come to a place in a header and try in vain there? -/
def TriesInVainAt (c : Cursor) (given : Settings) (n : Nat) : Prop :=
  ∃ s u w, Scanner.start c given = .ok s ∧ Relation.ReflTransGen Scanner.Goes s u ∧
    u.cursor.data = c.data ∧ u.cursor.pos = n ∧ Scanner.TriesInVain u w

/-- The octets of a word at a place in a header are one plain word of its value, which says
`t`: the octets in front of them are cut into the items in front, and the octets behind
them into the items behind. -/
structure StandsAsWord (c : Cursor) (given : Settings) (v : Value) (n : Nat) (pre post : Octets)
    (front after : List Item) (t : Text) : Prop where
  octets : content c.rest = pre ++ (c.wordFrom n ++ post)
  place : n = c.pos + pre.length
  inFront : items given.readsWord given.fallback pre = .ok front
  word : given.readsWord ((c.wordFrom n).filter (· != Octet.cr)) = .ok t
  behind : items given.readsWord given.fallback post = .ok after
  all : items given.readsWord given.fallback (content c.rest) = .ok (front ++ .word t :: after)
  value : v = .ofEntries (Item.entries (front ++ .word t :: after))

/-- The octets passed before such a place are those in front of it where the items are cut. -/
theorem standsAsWord_of_passes {s u : Scanner} {l : Octets} (hstart : Scanner.start c given = .ok s)
    (hu : Scanner.Passes s l u)
    (hmem : content u.cursor.rest ∈ refusals given.fallback (content c.rest))
    (h : meaning given c.rest = .ok v) :
    ∃ pre post front after t, StandsAsWord c given v u.cursor.pos pre post front after t := by
  obtain ⟨is, hitems, rfl⟩ := map_eq_ok h
  obtain ⟨pre, front, t, after, hsplit, hfront, ht, hafter, rfl⟩ :=
    items_of_mem_refusals hitems hmem
  have hc : s.cursor = c := by rw [start_eq_ok hstart]
  have hword := hu.wordFrom
  have hline := hu.line
  rw [hc] at hword hline
  obtain rfl : l = pre := List.append_cancel_right (hline.symm.trans hsplit)
  rw [hword] at ht
  refine ⟨l, (content u.cursor.rest).dropWhile Octet.isWord, front, after, t,
    ⟨?_, by rw [hu.pos, hc], hfront, ht, hafter, hitems, rfl⟩⟩
  rw [← hword, List.takeWhile_append_dropWhile, hline]

/-- What only looks like an encoded word is tried once and stays as it stands. The places of the
remarks on such words go up, and each is behind the word at the one before, also if that has
another equals sign and question mark in it. At each of them the scanner comes to where a word may
begin, finds the equals sign and the question mark, and tries in vain; and the octets there, up to
the next blank, line feed or comma, are one plain word of the value. -/
theorem refused_words_stand (h : (readAt c given).1.result = .ok v) :
    (Notice.invalidPlaces (readAt c given).1.notices).Pairwise
      (fun j k : Int => j < k ∧ j + (c.wordFrom j.toNat).length ≤ k) ∧
    ∀ k ∈ Notice.invalidPlaces (readAt c given).1.notices, ∃ n : Nat, k = n ∧
      TriesInVainAt c given n ∧
      ∃ pre post front after t, StandsAsWord c given v n pre post front after t := by
  have hmeaning := meaning_of_readAt h
  obtain ⟨s, t, hstart, hread, heq⟩ := readAt_of_ok h
  obtain ⟨hrest, hsteady⟩ := Scanner.steady_start hstart
  obtain ⟨us, hahead, hplaces, hus⟩ := Scanner.tries_of_readValue hsteady hread
  have hc : s.cursor = c := by rw [start_eq_ok hstart]
  have hnone : s.places = [] := by rw [start_eq_ok hstart]; rfl
  obtain ⟨-, hline⟩ := Scanner.tail_line_of_atWordStart hrest.atWordStart
  rw [hline, hc] at hahead
  rw [hnone, List.nil_append] at hplaces
  have hpassed : ∀ u ∈ us, ∃ l, Scanner.Passes s l u := fun u hu => Scanner.passes_goes (hus u hu).2
  have hmem : ∀ u ∈ us, content u.cursor.rest ∈ refusals given.fallback (content c.rest) :=
    fun u hu => hahead ▸ List.mem_map_of_mem hu
  obtain ⟨hlooks, hapart⟩ := refusals_apart given.fallback (content c.rest)
  rw [heq]
  show t.places.Pairwise _ ∧ ∀ k ∈ t.places, _
  rw [hplaces]
  constructor
  · rw [← hahead, List.pairwise_map] at hapart
    rw [List.pairwise_map]
    refine hapart.imp_of_mem fun {u u'} hu hu' hbehind => ?_
    obtain ⟨l, hl⟩ := hpassed u hu
    obtain ⟨l', hl'⟩ := hpassed u' hu'
    have hfar := hl.apart hl' (hlooks _ (hmem u hu)).2 hbehind
    rw [hc] at hfar
    rw [Int.toNat_natCast]
    omega
  · intro k hk
    obtain ⟨u, hu, rfl⟩ := List.mem_map.1 hk
    obtain ⟨⟨w, htries⟩, hgoes⟩ := hus u hu
    obtain ⟨l, hl⟩ := hpassed u hu
    have hdata : u.cursor.data = c.data := by rw [hl.data, hc]
    exact ⟨u.cursor.pos, rfl, ⟨s, u, w, hstart, hgoes, hdata, rfl, htries⟩,
      standsAsWord_of_passes hstart hl (hmem u hu) hmeaning⟩

omit [Decoders] in
/-- Three words that only look like encoded ones: the first is cut off by a comma that the attempt
goes over, the second, with a carriage return and with another equals sign and question mark in
it, by a folded line, and the third has a payload that is none. -/
theorem refused_words_of_two_lines :
    let c : Cursor :=
      .ofOctets [0x77, 0x20, 0x3D, 0x3F, 0x75, 0x74, 0x66, 0x2D, 0x38, 0x3F, 0x71, 0x3F, 0x61,
      0x2C, 0x20, 0x3D, 0x3F, 0x78, 0x3D, 0x3F, 0x0D, 0x3F, 0x79, 0x0A, 0x09, 0x3D, 0x3F, 0x75,
      0x74, 0x66, 0x2D, 0x38, 0x3F, 0x62, 0x3F, 0x41, 0x3F, 0x3D, 0x2C, 0x7A]
    let v : Value := .list ["w =?utf-8?q?a", "=?x=??y =?utf-8?b?A?=", "z"]
    (@readAt .none c {}).1.result = .ok v ∧
    Notice.invalidPlaces (@readAt .none c {}).1.notices = [2, 15, 25] ∧
    @TriesInVainAt .none c {} 15 ∧
    ∃ pre post front after, @StandsAsWord .none c {} v 15 pre post front after "=?x=??y" := by
  intro c v
  let : Decoders := .none
  have hread : (@readAt .none c {}).1.result = .ok v := by
    rw [eq_ok_iff_toOption]
    decide +kernel
  have hplaces : Notice.invalidPlaces (@readAt .none c {}).1.notices = [2, 15, 25] := by
    decide +kernel
  obtain ⟨-, hwords⟩ := @refused_words_stand .none c {} v hread
  obtain ⟨n, hn, htries, pre, post, front, after, t, hstands⟩ := hwords 15 (by rw [hplaces]; decide)
  obtain rfl : 15 = n := Int.ofNat.inj hn
  have hword : @Settings.readsWord .none {} ((c.wordFrom 15).filter (· != Octet.cr)) =
      .ok "=?x=??y" := by
    rw [eq_ok_iff_toOption]
    decide +kernel
  obtain rfl : t = "=?x=??y" := Except.ok.inj (hstands.word.symm.trans hword)
  exact ⟨hread, hplaces, htries, pre, post, front, after, hstands⟩

end Header

end HeaderList
