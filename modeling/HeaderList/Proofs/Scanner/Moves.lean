import HeaderList.Proofs.Scanner.Meaning

/-!
# `HeaderList/Proofs/Scanner/Moves.lean` — what a step has left behind

The lemmas of `Scanner/Step` say what a step does to a scanner that meets some octet. Here they
are read the other way: a step that did not fail has left one of ten scanners (`Moves`), and
closing a word has left one of two (`Closes`). What every step keeps is then one short case
analysis, and what every step keeps holds of the scanner that a header is answered with
(`readValue_induction`). How far a step goes is one of these analyses: it passes octets of the
header and leaves the others as they were (`Passes`).
-/

set_option autoImplicit false

namespace HeaderList.Scanner

variable [Decoders] {s t u : Scanner} {more spaced : Bool} {v : Value}

/-! ## One step

The cases of `Moves` are those of `Scanner/Step`, except that an attempt is split by how it ends
and a word by whether one is open. Each case has what the step knew when it took that way, so
that no later proof opens `step`. -/

/-- What closing the open word leaves. -/
inductive Closes (s : Scanner) (spaced : Bool) : Scanner → Prop
  | nothing (noWord : s.wordStart = none) : Closes s spaced s
  | word (start : Nat) (text : Text) (openWord : s.wordStart = some start)
      (reads : (s.reads (s.wordOctets start)).result = .ok text) :
      Closes s spaced (s.closed spaced (s.reads (s.wordOctets start)) text)

/-- Closing the open word, where it succeeds, leaves one of two scanners. -/
theorem closes_of_closeWord (h : closeWord spaced s = .ok () t) : Closes s spaced t := by
  cases hw : s.wordStart with
  | none =>
    rw [closeWord_of_none hw] at h
    cases h
    exact .nothing hw
  | some start =>
    rcases closeWord_of_some hw spaced with ⟨text, hr, hc⟩ | ⟨fault, u, -, hc⟩
    · rw [hc] at h
      cases h
      exact .word start text hw hr
    · rw [hc] at h
      cases h

theorem Closes.cursor (h : Closes s spaced t) : t.cursor = s.cursor := by
  cases h <;> rfl

theorem Closes.fallback (h : Closes s spaced t) : t.fallback = s.fallback := by
  cases h <;> rfl

theorem Closes.noWord (h : Closes s spaced t) : t.wordStart = none := by
  cases h with
  | nothing noWord => exact noWord
  | word => rfl

/-- What a step leaves, with its answer. An attempt goes three ways: it finds an encoded word
without text, or one with a text, or none at all, and then its octets begin a plain word. -/
inductive Moves (s : Scanner) : Bool → Scanner → Prop
  | nothing (rest : s.cursor.rest = []) : Moves s false s
  | lineEnd (bs : Octets) (rest : s.cursor.rest = Octet.lf :: bs)
      (ends : Header.endsBefore bs = true) :
      Moves s false s.moved
  | white (b : UInt8) (bs : Octets) (rest : s.cursor.rest = b :: bs)
      (gap : Octet.isBlank b = true ∨ (b = Octet.lf ∧ Header.endsBefore bs = false)) :
      Moves s true { s.moved with atWordStart := true }
  | cr (bs : Octets) (rest : s.cursor.rest = Octet.cr :: bs) : Moves s true s.moved
  | comma (bs : Octets) (u : Scanner) (rest : s.cursor.rest = Octet.comma :: bs)
      (closes : Closes s.moved false u) : Moves s true u.closeEntry
  | silent (bs : Octets) (ns : List Notice) (l : Octets)
      (rest : s.cursor.rest = Octet.equals :: Octet.question :: bs) (start : s.atWordStart = true)
      (line : Octet.lf ∉ l)
      (word : s.moved.cursor.rest = l ++ (s.moved.accepted ns l).cursor.rest) :
      Moves s true (s.moved.accepted ns l)
  | encoded (bs : Octets) (ns : List Notice) (l : Octets) (text : Text) (u : Scanner)
      (rest : s.cursor.rest = Octet.equals :: Octet.question :: bs) (start : s.atWordStart = true)
      (line : Octet.lf ∉ l) (word : s.moved.cursor.rest = l ++ (s.moved.accepted ns l).cursor.rest)
      (ne : text ≠ []) (closes : Closes (s.moved.accepted ns l) true u) :
      Moves s true { u with fragments := u.fragments.push text }
  | refused (bs : Octets) (ns : List Notice) (u : Scanner)
      (rest : s.cursor.rest = Octet.equals :: Octet.question :: bs) (start : s.atWordStart = true)
      (closes : Closes (s.moved.refused ns) false u) : Moves s true u.opened
  | inside (b : UInt8) (bs : Octets) (rest : s.cursor.rest = b :: bs) (word : Octet.StartsWord b)
      (within : s.atWordStart = false) : Moves s true s.moved.extended
  | between (b : UInt8) (bs : Octets) (u : Scanner) (rest : s.cursor.rest = b :: bs)
      (word : Octet.StartsWord b) (start : s.atWordStart = true)
      (other : ¬ (b = Octet.equals ∧ bs.head? = some Octet.question))
      (closes : Closes s.moved false u) : Moves s true u.opened

/-- Where no word goes on, `extend` closes the one that is open and opens another. -/
theorem closes_of_extend (hw : s.atWordStart = true) (h : extend s = .ok more t) :
    more = true ∧ ∃ u, Closes s false u ∧ t = u.opened := by
  rw [extend_of_atWordStart hw] at h
  split at h
  · next u hc =>
    cases h
    exact ⟨rfl, u, closes_of_closeWord hc, rfl⟩
  · cases h

/-- The three ways of an attempt. The fourth, a fault of the decoder, leaves no scanner. -/
theorem moves_of_attempt {bs : Octets}
    (hrest : s.cursor.rest = Octet.equals :: Octet.question :: bs) (hw : s.atWordStart = true)
    (h : step s = .ok more t) : Moves s more t := by
  rw [step_of_attempt hrest hw] at h
  rcases tryWord_cases s.moved with ⟨ns, ht, -⟩ | ⟨fault, u, ht, -⟩ |
    ⟨text, ns, l, ht, hl, hword, -⟩
  · rw [ht] at h
    -- the cursor is back behind the equals sign, and a plain word begins there
    obtain ⟨rfl, u, hc, rfl⟩ := closes_of_extend (s := s.moved.refused ns) hw h
    exact .refused bs ns u hrest hw hc
  · rw [ht] at h
    cases h
  · rw [ht, pushWord_found, pushWord] at h
    split at h
    · cases h
      exact .silent bs ns l hrest hw hl hword
    · next hne =>
      split at h
      · next u hc =>
        cases h
        exact .encoded bs ns l text u hrest hw hl hword (by simpa using hne)
          (closes_of_closeWord hc)
      · cases h

/-- A step that does not fail has done one of ten things. -/
theorem moves_of_step (h : step s = .ok more t) : Moves s more t := by
  cases s.meets with
  | nothing hrest =>
    rw [step_of_nil hrest] at h
    cases h
    exact .nothing hrest
  | lineEnd bs hrest hb =>
    rw [step_of_break hrest hb] at h
    cases h
    exact .lineEnd bs hrest hb
  | white b bs hrest hb =>
    rw [step_of_white hrest hb] at h
    cases h
    exact .white b bs hrest hb
  | cr bs hrest =>
    rw [step_of_cr hrest] at h
    cases h
    exact .cr bs hrest
  | comma bs hrest =>
    rw [step_of_comma hrest] at h
    split at h
    · next u hc =>
      cases h
      exact .comma bs u hrest (closes_of_closeWord hc)
    · cases h
  | attempt bs hrest hw => exact moves_of_attempt hrest hw h
  | word b bs hrest hb hno =>
    rw [step_of_word hrest hb hno] at h
    cases hw : s.atWordStart with
    | false =>
      rw [extend_of_inside (s := s.moved) hw] at h
      cases h
      exact .inside b bs hrest hb hw
    | true =>
      obtain ⟨rfl, u, hc, rfl⟩ := closes_of_extend (s := s.moved) hw h
      exact .between b bs u hrest hb hw (fun hq => hno ⟨hq.1, hw, hq.2⟩) hc

/-! ## How far a step goes

A scanner looks further than it goes: at the octet behind a line feed, and at a whole line when it
tries to read an encoded word. What counts for the next step is where it has gone. -/

/-- Is `t` the scanner `s` further on in the header, with the octets `l` between the two? -/
structure Passes (s : Scanner) (l : Octets) (t : Scanner) : Prop where
  fallback : t.fallback = s.fallback
  data : t.cursor.data = s.cursor.data
  pos : t.cursor.pos = s.cursor.pos + l.length
  line : Header.content s.cursor.rest = l ++ Header.content t.cursor.rest

section

omit [Decoders]

variable {l l' : Octets}

theorem Passes.refl (s : Scanner) : Passes s [] s := ⟨rfl, rfl, rfl, rfl⟩

theorem Passes.trans (h : Passes s l t) (h' : Passes t l' u) : Passes s (l ++ l') u where
  fallback := h'.fallback.trans h.fallback
  data := h'.data.trans h.data
  pos := by rw [h'.pos, h.pos, List.length_append, Nat.add_assoc]
  line := by rw [h.line, h'.line, List.append_assoc]

/-- What a step does to its fragments, notices and words does not change how far it has gone. -/
theorem Passes.of_cursor (h : Passes s l t) (hf : u.fallback = t.fallback)
    (hc : u.cursor = t.cursor) : Passes s l u :=
  ⟨hf.trans h.fallback, hc ▸ h.data, hc ▸ h.pos, hc ▸ h.line⟩

/-- The octets between two scanners come first in what the one has left, also beyond the line. -/
theorem Passes.rest (h : Passes s l t) : s.cursor.rest = l ++ t.cursor.rest := by
  obtain ⟨more, hmore⟩ := Header.isPrefix_content s.cursor.rest
  rw [h.line, List.append_assoc] at hmore
  have hskip : t.cursor.rest = (s.cursor.skip l.length).rest := Cursor.rest_congr h.data h.pos
  rw [hskip, Cursor.rest_skip_of_eq hmore.symm, hmore]

theorem passes_moved {b : UInt8} {bs : Octets} (h : s.cursor.rest = b :: bs)
    (hb : ¬ (b = Octet.lf ∧ Header.endsBefore bs = true)) : Passes s [b] s.moved :=
  ⟨rfl, rfl, rfl, content_of_rest h hb⟩

/-- An encoded word is in one line. -/
theorem passes_accepted {ns : List Notice} (hl : Octet.lf ∉ l)
    (hword : s.cursor.rest = l ++ (s.accepted ns l).cursor.rest) : Passes s l (s.accepted ns l) :=
  ⟨rfl, rfl, rfl, by rw [hword, Header.content_append_of_no_lf hl]⟩

theorem fallback_closeEntry (s : Scanner) : s.closeEntry.fallback = s.fallback := by
  rw [closeEntry]
  split <;> rfl

theorem fragments_closeEntry (s : Scanner) : s.closeEntry.fragments = #[] := by
  unfold closeEntry
  split
  · next hempty => exact Array.isEmpty_iff.1 hempty
  · rfl

theorem wordStart_closeEntry (s : Scanner) : s.closeEntry.wordStart = s.wordStart := by
  unfold closeEntry
  split <;> rfl

theorem atWordStart_closeEntry (s : Scanner) : s.closeEntry.atWordStart = s.atWordStart := by
  unfold closeEntry
  split <;> rfl

end

/-- A step after which the header goes on has passed octets of the
header, whatever it has looked at. -/
theorem passes_step (h : step s = .ok true t) : ∃ l, l ≠ [] ∧ Passes s l t := by
  cases moves_of_step h with
  | white b bs hrest hgap =>
    exact ⟨[b], by simp, (passes_moved hrest (not_end_of_white hgap)).of_cursor rfl rfl⟩
  | cr bs hrest => exact ⟨_, by simp, passes_moved hrest fun hb => absurd hb.1 (by decide)⟩
  | comma bs u hrest closes =>
    have hmoved := passes_moved hrest fun hb => absurd hb.1 (by decide)
    exact ⟨_, by simp, hmoved.of_cursor (by rw [fallback_closeEntry, closes.fallback])
      (by rw [cursor_closeEntry, closes.cursor])⟩
  | silent bs ns l hrest _ hl hword =>
    have hmoved := passes_moved hrest fun hb => absurd hb.1 (by decide)
    exact ⟨_, by simp, hmoved.trans (passes_accepted hl hword)⟩
  | encoded bs ns l text u hrest _ hl hword _ closes =>
    have hmoved := passes_moved hrest fun hb => absurd hb.1 (by decide)
    exact ⟨_, by simp, (hmoved.trans (passes_accepted hl hword)).of_cursor closes.fallback
      closes.cursor⟩
  | refused bs ns u hrest _ closes =>
    have hmoved := passes_moved hrest fun hb => absurd hb.1 (by decide)
    -- the mark that a failed attempt leaves is no part of where the cursor is
    have hrefused : Passes s [Octet.equals] (s.moved.refused ns) :=
      ⟨hmoved.fallback, hmoved.data, hmoved.pos, hmoved.line⟩
    exact ⟨_, by simp, hrefused.of_cursor closes.fallback closes.cursor⟩
  | inside b bs hrest hword =>
    exact ⟨[b], by simp, (passes_moved hrest fun hb => hword.ne_lf hb.1).of_cursor rfl rfl⟩
  | between b bs u hrest hword _ _ closes =>
    exact ⟨[b], by simp,
      (passes_moved hrest fun hb => hword.ne_lf hb.1).of_cursor closes.fallback closes.cursor⟩

/-! ## All steps of a header -/

/-- What every step keeps, the scanner has that the header is answered with. -/
theorem readValue_induction {P : Scanner → Prop}
    (keeps : ∀ s more t, P s → step s = .ok more t → P t) (hs : P s) (h : readValue s = .ok v t) :
    ∃ u, P u ∧ answer u = .ok v t := by
  induction s using run_induction with
  | head s ih =>
    rw [readValue_eq] at h
    split at h
    · next u hstep => exact ih u hstep (keeps s true u hs hstep) h
    · next u hstep => exact ⟨u, keeps s false u hs hstep, h⟩
    · cases h

end HeaderList.Scanner
