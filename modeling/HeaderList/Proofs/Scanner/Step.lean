import HeaderList.Proofs.Items

/-!
# `HeaderList/Proofs/Scanner/Step.lean` — what a step of the scanner can do

One lemma for each operation of the scanner, and from them one for each kind of octet that
a step can meet: the end, the line feed that ends the header, white space, a carriage
return, a comma, an encoded word, an octet of a plain word. Later files cite these lemmas
and leave the definitions closed.

An attempt to read an encoded word runs ahead on the same cursor, so its lemma (`tryWord_cases`)
says at once what the attempt does to the scanner and what the octets of the header begin with.
-/

set_option autoImplicit false

namespace HeaderList.Scanner

variable [Decoders]

/-! ## The open word

The scanner closes a word when something else comes: another word, a comma, the end. Closing it
decodes its octets, which may fail, and then the space that was pushed for the word is left behind
(`stuck`). Both outcomes are states with a name, and `closeWord_eq` says which it is. -/

/-- How the octets of a plain word read to a scanner. -/
def reads (s : Scanner) (word : Octets) : Traced Text :=
  Charset.decodeNamed word s.charset s.fallback s.errors

omit [Decoders] in
/-- Fragments with one more word: a space in front, unless it is the first, and one
behind if `spaced` says so. -/
def withWord (fragments : Array Text) (spaced : Bool) (word : Text) : Array Text :=
  let fragments := (if fragments.isEmpty then fragments else fragments.push gap).push word
  if spaced then fragments.push gap else fragments

omit [Decoders] in
/-- The scanner after its open word, which read as `word`, has become a fragment. -/
def closed (s : Scanner) (spaced : Bool) (word : Traced Text) (text : Text) : Scanner :=
  { s.noting word.notices with
    fragments := withWord s.fragments spaced text
    wordStart := none
    atWordStart := true }

theorem closeWord_of_none {s : Scanner} (h : s.wordStart = none) (spaced : Bool) :
    closeWord spaced s = .ok () s := by
  rw [closeWord, h]

omit [Decoders] in
/-- The scanner after its open word, which read as `word`, has turned out to have no text. The
space that was pushed in front of the word stays. -/
def stuck (s : Scanner) (word : Traced Text) : Scanner :=
  { s.noting word.notices with
    fragments := if s.fragments.isEmpty then s.fragments else s.fragments.push gap }

/-- What closing an open word does, whether it has a text or not. -/
theorem closeWord_eq {s : Scanner} {start : Nat} (h : s.wordStart = some start) (spaced : Bool) :
    closeWord spaced s =
      let word := s.reads (s.wordOctets start)
      match word.result with
      | .error fault => .error fault (s.stuck word)
      | .ok text => .ok () (s.closed spaced word text) := by
  rw [closeWord]
  split
  · next hnone => cases h.symm.trans hnone
  · next begin hbegin =>
    obtain rfl := Option.some.inj (hbegin.symm.trans h)
    -- a space in front changes neither the octets of the word nor how they read
    have hfront :
        (if s.fragments.isEmpty then s else { s with fragments := s.fragments.push gap }) =
          { s with fragments :=
              if s.fragments.isEmpty then s.fragments else s.fragments.push gap } := by
      split <;> rfl
    rw [hfront]
    rfl

/-- The two ways in which closing an open word can end, for those who do not care
what a failure leaves behind. -/
theorem closeWord_of_some {s : Scanner} {start : Nat} (h : s.wordStart = some start)
    (spaced : Bool) :
    (∃ text, (s.reads (s.wordOctets start)).result = .ok text ∧
      closeWord spaced s = .ok () (s.closed spaced (s.reads (s.wordOctets start)) text)) ∨
    ∃ fault t, (s.reads (s.wordOctets start)).result = .error fault ∧
    closeWord spaced s = .error fault t := by
  rw [closeWord_eq h]
  dsimp only
  cases (s.reads (s.wordOctets start)).result with
  | error fault => exact Or.inr ⟨fault, _, rfl, rfl⟩
  | ok text => exact Or.inl ⟨text, rfl, rfl⟩

/-! ## Attempts

Where an encoded word may begin, the scanner marks its place and lets the reader of encoded words
go ahead. A word that is none brings it back to the mark and leaves a notice, which has the place
of the equals sign, one before the mark (`refused`). A word that is one has been gone over
(`accepted`), and what happens to its text does not depend on how it was found (`pushWord`). -/

omit [Decoders] in
/-- The scanner after an attempt that found no encoded word. -/
def refused (s : Scanner) (ns : List Notice) : Scanner :=
  { s.noting ns with
    cursor := s.cursor.mark
    notices := (s.noting ns).notices.push (.invalidWord ((s.cursor.pos : Int) - 1)) }

omit [Decoders] in
/-- The scanner past the octets `l` of an encoded word, with the notices that reading it made. -/
def accepted (s : Scanner) (ns : List Notice) (l : Octets) : Scanner :=
  { s.noting ns with cursor := s.cursor.mark.skip l.length }

/-- What is done with the text of a word that was found. -/
def pushWord (s : Scanner) (text : Text) : ScanResult Bool :=
  if text.isEmpty then .ok true s
  else match closeWord true s with
    | .ok () s => .ok true { s with fragments := s.fragments.push text }
    | .error fault s => .error fault s

/-- Pushing the text of a word never says that none was found, so the branch
for that case is never taken. -/
theorem pushWord_found (s : Scanner) (text : Text) :
    (match pushWord s text with
      | .ok true t => .ok true t
      | .ok false t => extend t
      | .error fault t => .error fault t) = pushWord s text := by
  rw [pushWord]
  by_cases he : text.isEmpty = true
  · simp only [if_pos he]
  · simp only [if_neg he]
    cases closeWord true s <;> rfl

theorem cursor_pushWord {s t : Scanner} {text : Text} {found : Bool}
    (h : pushWord s text = .ok found t) : t.cursor = s.cursor := by
  rw [pushWord] at h
  split at h
  · cases h
    rfl
  · split at h
    · rename_i hc
      have e := cursor_closeWord hc
      cases h
      exact e
    · cases h

/-- An attempt, in terms of what becomes of the scanner in each case. -/
theorem tryWord_eq (s : Scanner) :
    tryWord s =
      let (text, cursor) := EncodedWord.decodeAt s.fallback s.cursor.mark
      match text.result with
      | .error (.word _) => .ok false (s.refused text.notices)
      | .error fault => .error fault { s.noting text.notices with cursor }
      | .ok t => pushWord { s.noting text.notices with cursor } t := rfl

/-- An attempt past an equals sign finds what the rest of the header begins with. -/
theorem tryWord_cases (s : Scanner) :
    (∃ ns, tryWord s = .ok false (s.refused ns) ∧
      encodedAt s.fallback (Octet.equals :: Header.content s.cursor.rest) = .ok none) ∨
    (∃ fault t, tryWord s = .error fault t ∧
      encodedAt s.fallback (Octet.equals :: Header.content s.cursor.rest) = .error fault) ∨
    ∃ text ns l, tryWord s = pushWord (s.accepted ns l) text ∧ Octet.lf ∉ l ∧
      s.cursor.rest = l ++ (s.accepted ns l).cursor.rest ∧
      encodedAt s.fallback (Octet.equals :: Header.content s.cursor.rest) =
        .ok (some (text, Header.content (s.accepted ns l).cursor.rest)) := by
  -- either there is a word in the octets that are left, and its own octets tell all, or there is
  -- none, and what made the reader stumble does not matter
  by_cases hb : EncodedWord.Begins s.cursor.rest
  · obtain ⟨w, tail, hw, hrest⟩ := hb
    have hd := EncodedWord.decodeAt_of_body s.fallback hw (s.cursor.rest_mark.trans hrest)
    rw [hrest, Header.content_append_of_no_lf hw.no_lf, encodedAt_of_body _ hw, EncodedWord.decode?]
    simp only [tryWord, hd]
    cases hr : (w.decode s.fallback).result with
    | ok text =>
      have htail : (s.cursor.mark.skip w.body.length).rest = tail :=
        Cursor.rest_skip_of_eq (s.cursor.rest_mark.trans hrest)
      refine Or.inr (Or.inr ⟨text, (w.decode s.fallback).notices, w.body, rfl, hw.no_lf, ?_, ?_⟩)
      · rw [accepted, htail]
      · simp [Except.map, accepted, htail]
    | error fault =>
      cases fault with
      | word fault => exact Or.inl ⟨(w.decode s.fallback).notices, rfl, rfl⟩
      | _ => exact Or.inr (Or.inl ⟨_, _, rfl, rfl⟩)
  · obtain ⟨fault, d, hd⟩ := EncodedWord.decodeAt_of_not_begins s.fallback
      (c := s.cursor.mark) (by rwa [s.cursor.rest_mark])
    -- the attempt may have gone beyond the line, but it would not have found less within it
    refine Or.inl ⟨[], by simp only [tryWord, hd]; rfl, encodedAt_of_not_begins _ ?_⟩
    rwa [Header.begins_content]

/-! ## Octets

One lemma for each branch of `step`, in the order of its tests. Each says what the octets in front
of the scanner have to be, and gives the state that the branch leaves in terms of `moved`, which
is the scanner one octet further on. With `meets` they make a case distinction that is complete. -/

omit [Decoders] in
/-- The scanner with the next octet taken and nothing else done. -/
def moved (s : Scanner) : Scanner := { s with cursor := s.cursor.skip 1 }

omit [Decoders] in
/-- The scanner with a word open that has the octet in front of the cursor. -/
def opened (s : Scanner) : Scanner :=
  { s with
    wordStart := some (s.cursor.pos - 1)
    wordEnd := some s.cursor.pos
    atWordStart := false }

/-- Within a word, an octet only moves the end of the word. Carriage returns that came in between
are now inside it, and are dropped when the word is read. -/
theorem extend_of_inside {s : Scanner} (h : s.atWordStart = false) :
    extend s = .ok true { s with wordEnd := some s.cursor.pos } := by
  rw [extend, extendWord, if_neg (by simp [h])]

/-- Where a word begins, the word before it is closed first. -/
theorem extend_of_atWordStart {s : Scanner} (h : s.atWordStart = true) :
    extend s = match closeWord false s with
      | .ok () t => .ok true t.opened
      | .error fault t => .error fault t := by
  rw [extend, extendWord, if_pos h]
  cases closeWord false s <;> rfl

variable {s : Scanner} {b : UInt8} {bs : Octets}

/-- At the end of the octets the header is over, and nothing is taken. -/
theorem step_of_nil (h : s.cursor.rest = []) : step s = .ok false s := by
  rw [step, Cursor.next?_of_nil h]

/-- The line feed that ends the header is taken, so that the cursor stands at the next one. -/
theorem step_of_break (h : s.cursor.rest = Octet.lf :: bs) (hb : Header.endsBefore bs = true) :
    step s = .ok false s.moved := by
  have hf : (s.cursor.skip 1).foldsHere = false := by
    rw [Cursor.foldsHere_eq, EncodedWord.rest_of_octet h]
    simpa [Header.endsBefore] using hb
  simp only [step, Cursor.next?_of_cons h, hf]
  rfl

/-- A blank, and a line feed that the header goes on behind, end a word but do not close it. -/
theorem step_of_white (h : s.cursor.rest = b :: bs)
    (hb : Octet.isBlank b = true ∨ (b = Octet.lf ∧ Header.endsBefore bs = false)) :
    step s = .ok true { s.moved with atWordStart := true } := by
  simp only [step, Cursor.next?_of_cons h]
  rcases hb with hb | ⟨rfl, hb⟩
  · have hlf : b ≠ Octet.lf := by
      rintro rfl
      exact absurd hb (by decide)
    rw [if_neg hlf, if_pos hb]
    rfl
  · have hf : (s.cursor.skip 1).foldsHere = true := by
      rw [Cursor.foldsHere_eq, EncodedWord.rest_of_octet h]
      simpa [Header.endsBefore] using hb
    rw [if_pos rfl, if_pos hf]
    rfl

/-- A carriage return does nothing; it does not even end a word. -/
theorem step_of_cr (h : s.cursor.rest = Octet.cr :: bs) : step s = .ok true s.moved := by
  simp only [step, Cursor.next?_of_cons h]
  rfl

/-- A comma closes the word, and then the entry. -/
theorem step_of_comma (h : s.cursor.rest = Octet.comma :: bs) :
    step s = match closeWord false s.moved with
      | .ok () t => .ok true t.closeEntry
      | .error fault t => .error fault t := by
  simp only [step, Cursor.next?_of_cons h]
  rfl

/-- An equals sign with a question mark behind it is tried as an encoded word, but only where a
word may begin. If that fails it is an octet of a plain word after all. -/
theorem step_of_attempt (h : s.cursor.rest = Octet.equals :: Octet.question :: bs)
    (hw : s.atWordStart = true) :
    step s = match tryWord s.moved with
      | .ok true t => .ok true t
      | .ok false t => extend t
      | .error fault t => .error fault t := by
  have hp : (s.cursor.skip 1).peekIs Octet.question = true := by
    rw [Cursor.peekIs_eq, EncodedWord.rest_of_octet h]
    rfl
  simp only [step, Cursor.next?_of_cons h]
  rw [if_neg (by decide), if_neg (by decide), if_neg (by decide), if_neg (by decide),
    if_pos ⟨trivial, hw, hp⟩]
  rfl

/-- Any other octet, and an equals sign that nothing is tried at, is part of a plain word. -/
theorem step_of_word (h : s.cursor.rest = b :: bs) (hb : Octet.StartsWord b)
    (hno : ¬ (b = Octet.equals ∧ s.atWordStart = true ∧ bs.head? = some Octet.question)) :
    step s = extend s.moved := by
  have hw := hb.1
  simp only [Octet.isWord, Bool.not_eq_true', Bool.or_eq_false_iff, beq_eq_false_iff_ne] at hw
  have hp : (s.cursor.skip 1).peekIs Octet.question = (bs.head? == some Octet.question) := by
    rw [Cursor.peekIs_eq, EncodedWord.rest_of_octet h]
  -- the tests in front of this branch all fail: an octet of a word is none of the others
  simp only [step, Cursor.next?_of_cons h, hp, beq_iff_eq]
  rw [if_neg hw.1.2, if_neg (by simp [hw.1.1]), if_neg hb.2, if_neg hw.2, if_neg hno]
  rfl

omit [Decoders] in
theorem not_end_of_white {b : UInt8} {bs : Octets}
    (hb : Octet.isBlank b = true ∨ (b = Octet.lf ∧ Header.endsBefore bs = false)) :
    ¬ (b = Octet.lf ∧ Header.endsBefore bs = true) := by
  rintro ⟨rfl, he⟩
  rcases hb with hb | ⟨-, hb⟩
  · exact absurd hb (by decide)
  · exact absurd (he.symm.trans hb) (by simp)

omit [Decoders] in
/-- What is white is a gap, and part of no word. -/
theorem gap_of_white {b : UInt8} {bs : Octets}
    (hb : Octet.isBlank b = true ∨ (b = Octet.lf ∧ Header.endsBefore bs = false)) :
    (Octet.isBlank b = true ∨ b = Octet.lf ∨ b = Octet.cr) ∧ Octet.isWord b = false := by
  rcases hb with hb | ⟨rfl, -⟩
  · exact ⟨Or.inl hb, by simp [Octet.isWord, hb]⟩
  · exact ⟨Or.inr (Or.inl rfl), rfl⟩

omit [Decoders] in
/-- What a scanner can meet next. -/
inductive Meets (s : Scanner) : Prop
  | nothing (h : s.cursor.rest = [])
  | lineEnd (bs : Octets) (h : s.cursor.rest = Octet.lf :: bs) (hb : Header.endsBefore bs = true)
  | white (b : UInt8) (bs : Octets) (h : s.cursor.rest = b :: bs)
      (hb : Octet.isBlank b = true ∨ (b = Octet.lf ∧ Header.endsBefore bs = false))
  | cr (bs : Octets) (h : s.cursor.rest = Octet.cr :: bs)
  | comma (bs : Octets) (h : s.cursor.rest = Octet.comma :: bs)
  | attempt (bs : Octets) (h : s.cursor.rest = Octet.equals :: Octet.question :: bs)
      (hw : s.atWordStart = true)
  | word (b : UInt8) (bs : Octets) (h : s.cursor.rest = b :: bs) (hb : Octet.StartsWord b)
      (hno : ¬ (b = Octet.equals ∧ s.atWordStart = true ∧ bs.head? = some Octet.question))

omit [Decoders] in
/-- A scanner meets one of these. -/
theorem meets (s : Scanner) : Meets s := by
  cases hrest : s.cursor.rest with
  | nil => exact .nothing hrest
  | cons b bs =>
    by_cases hlf : b = Octet.lf
    · subst hlf
      cases hend : Header.endsBefore bs with
      | false => exact .white _ bs hrest (Or.inr ⟨rfl, hend⟩)
      | true => exact .lineEnd bs hrest hend
    by_cases hblank : Octet.isBlank b = true
    · exact .white b bs hrest (Or.inl hblank)
    by_cases hcr : b = Octet.cr
    · subst hcr
      exact .cr bs hrest
    by_cases hcomma : b = Octet.comma
    · subst hcomma
      exact .comma bs hrest
    by_cases hattempt : b = Octet.equals ∧ s.atWordStart = true ∧ bs.head? = some Octet.question
    · obtain ⟨rfl, hw, hhead⟩ := hattempt
      obtain ⟨bs, rfl⟩ := List.head?_eq_some_iff.1 hhead
      exact .attempt bs hrest hw
    · exact .word b bs hrest ⟨by simp [Octet.isWord, hlf, hblank, hcomma], hcr⟩ hattempt

end HeaderList.Scanner
