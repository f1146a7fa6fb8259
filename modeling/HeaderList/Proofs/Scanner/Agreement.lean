import HeaderList.Proofs.Scanner.Meaning

/-!
# `HeaderList/Proofs/Scanner/Agreement.lean` — a header reads the same elsewhere

A scanner keeps places, and the places say where in the octets of a message it stands. What it
answers does not depend on them. Two scanners that know the same otherwise (`Scanner.Agree`) and
have the same octets of the header left do the same at every step, down to the fault where there
is one, and so they give the same answer (`Scanner.outcome_readValue`).

One of the scanners may have octets left at the end that the other does not have, as long as they
make no difference to the encoded words in front of them (`Settles`). Carriage returns do not,
which are there where a line feed was taken off and the carriage return in front of it was not.
Blanks in front of a header make no difference either, so that its value is known from its octets
without them (`Header.result_readAt_of_content`).
-/

set_option autoImplicit false

namespace HeaderList

/-! ## Carriage returns at the end -/

/-- Is there nothing but carriage returns? -/
def OnlyCr (crs : Octets) : Prop := ∀ b ∈ crs, b = Octet.cr

theorem OnlyCr.nil : OnlyCr [] := by
  intro b hb
  cases hb

namespace EncodedWord

theorem IsField.no_cr {blanks : Bool} {f : Octets} (h : IsField blanks f) : Octet.cr ∉ f := by
  intro hm
  exact absurd (h _ hm).1 (by decide)

theorem Legible.no_cr {w : EncodedWord} (h : w.Legible) : Octet.cr ∉ w.body := by
  have hq : Octet.cr ≠ Octet.question := by decide
  have he : Octet.cr ≠ Octet.equals := by decide
  simp [body, h.charset.no_cr, h.encoding.no_cr, h.payload.no_cr, hq, he]

/-- A word is over before carriage returns at the end begin. -/
theorem append_eq_of_onlyCr {w : EncodedWord} {bs crs tail : Octets} (hw : w.Legible)
    (hcrs : OnlyCr crs) (h : bs ++ crs = w.body ++ tail) :
    ∃ after, bs = w.body ++ after ∧ tail = after ++ crs := by
  rcases List.append_eq_append_iff.1 h with ⟨as, hbody, htail⟩ | ⟨as, hbs, htail⟩
  · cases as with
    | nil => exact ⟨[], by rw [hbody, List.append_nil, List.append_nil], by rw [htail]; rfl⟩
    | cons a as =>
      have ha : a = Octet.cr := hcrs a (by rw [htail]; exact List.mem_cons_self)
      subst ha
      exact absurd (by rw [hbody]; simp) hw.no_cr
  · exact ⟨as, hbs, htail⟩

theorem begins_append_onlyCr {bs crs : Octets} (hcrs : OnlyCr crs) :
    Begins (bs ++ crs) ↔ Begins bs := by
  constructor
  · rintro ⟨w, tail, hw, h⟩
    obtain ⟨after, hbs, -⟩ := append_eq_of_onlyCr hw hcrs h
    exact ⟨w, after, hw, hbs⟩
  · rintro ⟨w, tail, hw, rfl⟩
    exact ⟨w, tail ++ crs, hw, List.append_assoc ..⟩

end EncodedWord

/-- The encoded word at a place is the same without the carriage returns at the end. -/
theorem encodedAt_append_onlyCr [Decoders] (fallback : Datum) (bs : Octets) {crs : Octets}
    (hcrs : OnlyCr crs) :
    encodedAt fallback (Octet.equals :: (bs ++ crs)) =
      (encodedAt fallback (Octet.equals :: bs)).map fun found => found.map fun p =>
        (p.1, p.2 ++ crs) := by
  by_cases hbegins : EncodedWord.Begins bs
  · exact encodedAt_append_of_begins fallback hbegins crs
  · have hbegins' : ¬ EncodedWord.Begins (bs ++ crs) := by
      rwa [EncodedWord.begins_append_onlyCr hcrs]
    rw [encodedAt_of_not_begins fallback hbegins, encodedAt_of_not_begins fallback hbegins']
    rfl

/-! ## Octets that come after

Carriage returns at the end are one case, and folding white space is another. What the steps below
need of either is that the attempts of the two scanners come to the same. -/

/-- Does it make no difference to the encoded words in octets that others come after
them? No equals sign finds its question mark there, and what is read at an equals sign is
read with the others left over. -/
structure Settles [Decoders] (fallback : Datum) (bs more : Octets) : Prop where
  head : more.head? ≠ some Octet.question
  found : ∀ rest, Octet.equals :: rest <:+ bs →
    encodedAt fallback (Octet.equals :: (rest ++ more)) =
      (encodedAt fallback (Octet.equals :: rest)).map fun found => found.map fun p =>
        (p.1, p.2 ++ more)

theorem Settles.of_suffix [Decoders] {fallback : Datum} {bs cs more : Octets}
    (h : Settles fallback bs more) (hcs : cs <:+ bs) : Settles fallback cs more :=
  ⟨h.head, fun rest hrest => h.found rest (hrest.trans hcs)⟩

theorem settles_onlyCr [Decoders] (fallback : Datum) (bs : Octets) {crs : Octets}
    (hcrs : OnlyCr crs) : Settles fallback bs crs := by
  refine ⟨fun hhead => ?_, fun rest _ => encodedAt_append_onlyCr fallback rest hcrs⟩
  have hcr : Octet.question = Octet.cr := hcrs _ (List.mem_of_mem_head? hhead)
  exact absurd hcr (by decide)

namespace Scanner

/-! ## Agreement

The open word is compared by its octets because the places where it begins and ends are different
in the two scanners. Everything else that a scanner knows is the same or does not matter. -/

/-- Do two scanners know the same, apart from places? The open word is compared by its octets. -/
structure Agree (s t : Scanner) : Prop where
  charset : t.charset = s.charset
  errors : t.errors = s.errors
  fallback : t.fallback = s.fallback
  word : t.wordStart.map t.wordOctets = s.wordStart.map s.wordOctets
  atWordStart : t.atWordStart = s.atWordStart
  fragments : t.fragments = s.fragments
  entries : t.entries = s.entries

/-- Do two results say the same: the same answer of related scanners, or the same fault? -/
inductive Together (R : Scanner → Scanner → Prop) {α : Type} : ScanResult α → ScanResult α → Prop
  | ok (a : α) (s t : Scanner) (h : R s t) : Together R (.ok a s) (.ok a t)
  | error (fault : Fault) (s t : Scanner) : Together R (.error fault s) (.error fault t)

/-- Do two scanners agree, and have the same octets of the header left, but for those that
only the second has at the end? -/
def Alike (crs : Octets) (s t : Scanner) : Prop :=
  Agree s t ∧ Header.content t.cursor.rest = Header.content s.cursor.rest ++ crs

variable {s t : Scanner} {b : UInt8} {bs cs crs : Octets}

theorem Agree.symm (h : Agree s t) : Agree t s :=
  ⟨h.charset.symm, h.errors.symm, h.fallback.symm, h.word.symm, h.atWordStart.symm,
    h.fragments.symm,
    h.entries.symm⟩

theorem Agree.trans {u : Scanner} (h : Agree s t) (h' : Agree t u) : Agree s u :=
  ⟨h'.charset.trans h.charset, h'.errors.trans h.errors, h'.fallback.trans h.fallback,
    h'.word.trans h.word,
    h'.atWordStart.trans h.atWordStart, h'.fragments.trans h.fragments, h'.entries.trans h.entries⟩

theorem Agree.moved (h : Agree s t) : Agree s.moved t.moved :=
  ⟨h.charset, h.errors, h.fallback, h.word, h.atWordStart, h.fragments, h.entries⟩

theorem Agree.withFlag (h : Agree s t) (flag : Bool) :
    Agree { s with atWordStart := flag } { t with atWordStart := flag } :=
  ⟨h.charset, h.errors, h.fallback, h.word, rfl, h.fragments, h.entries⟩

/-- A mark, a place further on and notices change nothing that counts. -/
theorem Agree.elsewhere (h : Agree s t) {c d : Cursor} (hc : c.data = s.cursor.data)
    (hd : d.data = t.cursor.data) (ms ns : Array Notice) :
    Agree { s with cursor := c, notices := ms } { t with cursor := d, notices := ns } := by
  refine ⟨h.charset, h.errors, h.fallback, ?_, h.atWordStart, h.fragments, h.entries⟩
  have hs : ({ s with cursor := c, notices := ms } : Scanner).wordOctets = s.wordOctets := by
    funext start
    simp only [wordOctets, Cursor.slice, hc]
  have ht : ({ t with cursor := d, notices := ns } : Scanner).wordOctets = t.wordOctets := by
    funext start
    simp only [wordOctets, Cursor.slice, hd]
  simp only [hs, ht, h.word]

theorem Agree.closeEntry (h : Agree s t) : Agree s.closeEntry t.closeEntry := by
  unfold Scanner.closeEntry
  rw [h.fragments]
  split
  · exact h
  · exact ⟨h.charset, h.errors, h.fallback, h.word, h.atWordStart, rfl, by simp only [h.entries]⟩

variable [Decoders]

theorem Agree.reads (h : Agree s t) (word : Octets) : t.reads word = s.reads word := by
  rw [Scanner.reads, Scanner.reads, h.charset, h.errors, h.fallback]

/-- Agreeing scanners close their words alike. -/
theorem closeWord_together (h : Agree s t) (spaced : Bool) :
    Together Agree (closeWord spaced s) (closeWord spaced t) := by
  cases hs : s.wordStart with
  | none =>
    have ht : t.wordStart = none := by simpa [hs] using h.word
    rw [closeWord_of_none hs, closeWord_of_none ht]
    exact .ok () s t h
  | some start =>
    obtain ⟨start', ht, hword⟩ : ∃ start', t.wordStart = some start' ∧
        t.wordOctets start' = s.wordOctets start := by simpa [hs] using h.word
    have hreads : t.reads (t.wordOctets start') = s.reads (s.wordOctets start) := by
      rw [hword, h.reads]
    rcases closeWord_of_some hs spaced with ⟨text, hr, hc⟩ | ⟨fault, u, hr, hc⟩
    · rcases closeWord_of_some ht spaced with ⟨text', hr', hc'⟩ | ⟨fault', u', hr', hc'⟩
      · obtain rfl : text' = text := by
          rw [hreads, hr] at hr'
          exact (Except.ok.inj hr').symm
        rw [hc, hc']
        refine .ok () _ _ ⟨h.charset, h.errors, h.fallback, rfl, rfl, ?_, h.entries⟩
        show withWord t.fragments spaced text' = withWord s.fragments spaced text'
        rw [h.fragments]
      · rw [hreads, hr] at hr'
        cases hr'
    · rcases closeWord_of_some ht spaced with ⟨text', hr', hc'⟩ | ⟨fault', u', hr', hc'⟩
      · rw [hreads, hr] at hr'
        cases hr'
      · obtain rfl : fault' = fault := by
          rw [hreads, hr] at hr'
          exact (Except.error.inj hr').symm
        rw [hc, hc']
        exact .error fault' u u'

/-- The text of an encoded word goes to both in the same way. -/
theorem pushWord_together (h : Agree s t) (text : Text) :
    Together Agree (pushWord s text) (pushWord t text) := by
  rw [pushWord, pushWord]
  split
  · exact .ok true s t h
  · generalize hc : closeWord true s = r
    generalize hd : closeWord true t = q
    have hclosed := closeWord_together h true
    rw [hc, hd] at hclosed
    cases hclosed with
    | ok _ u v hu =>
      refine .ok true _ _ ⟨hu.charset, hu.errors, hu.fallback, hu.word, hu.atWordStart, ?_,
        hu.entries⟩
      show v.fragments.push text = u.fragments.push text
      rw [hu.fragments]
    | error fault u v => exact .error fault u v

/-- An octet of a plain word does the same to agreeing scanners, whether it makes
a word longer or begins one. -/
theorem extend_together (h : Agree s t) (hs : Coherent s) (ht : Coherent t)
    (hb : Octet.StartsWord b) (hrest : s.cursor.rest = b :: bs) (hrest' : t.cursor.rest = b :: cs) :
    Together Agree (extend s.moved) (extend t.moved) := by
  cases hw : s.atWordStart with
  | false =>
    have hw' : t.atWordStart = false := h.atWordStart.trans hw
    obtain ⟨start, hstart, hoctets⟩ := wordOctets_extended hs hrest hb hw
    obtain ⟨start', hstart', hoctets'⟩ := wordOctets_extended ht hrest' hb hw'
    have hword : t.wordOctets start' = s.wordOctets start := by
      simpa [hstart, hstart'] using h.word
    rw [extend_of_inside (s := s.moved) hw, extend_of_inside (s := t.moved) hw']
    refine .ok true s.moved.extended t.moved.extended
      ⟨h.charset, h.errors, h.fallback, ?_, h.atWordStart, h.fragments, h.entries⟩
    have hmoved : s.moved.extended.wordStart = some start := hstart
    have hmoved' : t.moved.extended.wordStart = some start' := hstart'
    rw [hmoved, hmoved', Option.map_some, Option.map_some, hoctets, hoctets', hword]
  | true =>
    have hw' : t.atWordStart = true := h.atWordStart.trans hw
    rw [extend_of_atWordStart (s := s.moved) hw, extend_of_atWordStart (s := t.moved) hw']
    generalize hc : closeWord false s.moved = r
    generalize hd : closeWord false t.moved = q
    have hclosed := closeWord_together h.moved false
    rw [hc, hd] at hclosed
    cases hclosed with
    | ok _ u v hu =>
      have hcursor := cursor_closeWord hc
      have hcursor' := cursor_closeWord hd
      refine .ok true u.opened v.opened
        ⟨hu.charset, hu.errors, hu.fallback, ?_, rfl, hu.fragments, hu.entries⟩
      show some (v.opened.wordOctets (v.cursor.pos - 1)) =
          some (u.opened.wordOctets (u.cursor.pos - 1))
      rw [wordOctets_opened hrest hb hcursor, wordOctets_opened hrest' hb hcursor']
    | error fault u v => exact .error fault u v

/-! ## Attempts

What an attempt does is told by what the rest of the header begins with. -/

theorem tryWord_of_none
    (h : encodedAt s.fallback (Octet.equals :: Header.content s.cursor.rest) = .ok none) :
    ∃ ns, tryWord s = .ok false (s.refused ns) := by
  rcases tryWord_cases s with ⟨ns, hs, -⟩ | ⟨fault, u, -, hd⟩ | ⟨text, ns, l, -, -, -, hd⟩
  · exact ⟨ns, hs⟩
  · rw [h] at hd
    cases hd
  · rw [h] at hd
    cases hd

theorem tryWord_of_error {fault : Fault}
    (h : encodedAt s.fallback (Octet.equals :: Header.content s.cursor.rest) = .error fault) :
    ∃ u, tryWord s = .error fault u := by
  rcases tryWord_cases s with ⟨ns, -, hd⟩ | ⟨fault', u, hs, hd⟩ | ⟨text, ns, l, -, -, -, hd⟩
  · rw [h] at hd
    cases hd
  · rw [h] at hd
    obtain rfl := Except.error.inj hd
    exact ⟨u, hs⟩
  · rw [h] at hd
    cases hd

theorem tryWord_of_some {text : Text} {after : Octets}
    (h : encodedAt s.fallback (Octet.equals :: Header.content s.cursor.rest) =
      .ok (some (text, after))) :
    ∃ ns l, tryWord s = pushWord (s.accepted ns l) text ∧
      Header.content (s.accepted ns l).cursor.rest = after := by
  rcases tryWord_cases s with ⟨ns, -, hd⟩ | ⟨fault, u, -, hd⟩ | ⟨text', ns, l, hs, -, -, hd⟩
  · rw [h] at hd
    cases hd
  · rw [h] at hd
    cases hd
  · rw [h] at hd
    simp only [Except.ok.injEq, Option.some.injEq, Prod.mk.injEq] at hd
    obtain ⟨rfl, hafter⟩ := hd
    exact ⟨ns, l, hs, hafter.symm⟩

/-! ## Steps

The octet that is taken is the same for both, so each kind of octet is one lemma, as in
`Scanner/Meaning`. What the second scanner has beyond the end of the first never comes next while
the first has octets left, with one exception: an equals sign looks one octet ahead. -/

omit [Decoders] in
/-- The answers of related results carry over to another relation. -/
theorem Together.imp {R Q : Scanner → Scanner → Prop} {α : Type} {r q : ScanResult α}
    (h : Together R r q) (hq : ∀ a u v, r = .ok a u → q = .ok a v → R u v → Q u v) :
    Together Q r q := by
  cases h with
  | ok a u v huv => exact .ok a u v (hq a u v rfl rfl huv)
  | error fault u v => exact .error fault u v

omit [Decoders] in
/-- After an octet that both have taken, the octets that are left are alike as before. -/
theorem alike_of_moved {u v : Scanner} (huv : Agree u v) (hu : u.cursor = s.moved.cursor)
    (hv : v.cursor = t.moved.cursor) (hrest : s.cursor.rest = b :: bs)
    (hrest' : t.cursor.rest = b :: cs) (hline : Header.content cs = Header.content bs ++ crs) :
    Alike crs u v := by
  refine ⟨huv, ?_⟩
  have hleft : u.cursor.rest = bs := by rw [hu, moved, EncodedWord.rest_of_octet hrest]
  have hleft' : v.cursor.rest = cs := by rw [hv, moved, EncodedWord.rest_of_octet hrest']
  rw [hleft, hleft', hline]

/-- Two scanners that are about to take the same octet, and will be alike behind it. -/
structure Facing (crs : Octets) (s t : Scanner) (b : UInt8) (bs cs : Octets) : Prop where
  agree : Agree s t
  rest : s.cursor.rest = b :: bs
  rest' : t.cursor.rest = b :: cs
  line : Header.content cs = Header.content bs ++ crs

/-- At a comma both close what they have. -/
theorem comma_together (h : Facing crs s t Octet.comma bs cs) :
    Together (Alike crs) (step s) (step t) := by
  rw [step_of_comma h.rest, step_of_comma h.rest']
  generalize hc : closeWord false s.moved = r
  generalize hd : closeWord false t.moved = q
  have hclosed := closeWord_together h.agree.moved false
  rw [hc, hd] at hclosed
  cases hclosed with
  | ok _ u v huv =>
    refine .ok true _ _ (alike_of_moved huv.closeEntry ?_ ?_ h.rest h.rest' h.line)
    · rw [cursor_closeEntry, cursor_closeWord hc]
    · rw [cursor_closeEntry, cursor_closeWord hd]
  | error fault u v => exact .error fault u v

/-- A plain word grows or begins in both. -/
theorem word_together (h : Facing crs s t b bs cs) (hs : Coherent s) (ht : Coherent t)
    (hb : Octet.StartsWord b) : Together (Alike crs) (extend s.moved) (extend t.moved) :=
  (extend_together h.agree hs ht hb h.rest h.rest').imp fun _ _ _ hu hv huv =>
    alike_of_moved huv (cursor_extend hu) (cursor_extend hv) h.rest h.rest' h.line

/-- An attempt has the same end in both, since what comes after the octets settles nothing else;
then both go on behind the word, or take the octets for those of a plain word. -/
theorem attempt_together
    (h : Facing crs s t Octet.equals (Octet.question :: bs) (Octet.question :: cs))
    (hsettles : Settles s.fallback (Header.content s.cursor.rest) crs) (hs : Coherent s)
    (ht : Coherent t) (hw : s.atWordStart = true) : Together (Alike crs) (step s) (step t) := by
  have hw' : t.atWordStart = true := h.agree.atWordStart.trans hw
  have hrest : s.moved.cursor.rest = Octet.question :: bs := EncodedWord.rest_of_octet h.rest
  have hrest' : t.moved.cursor.rest = Octet.question :: cs := EncodedWord.rest_of_octet h.rest'
  have hfound : encodedAt t.moved.fallback (Octet.equals :: Header.content t.moved.cursor.rest) =
      (encodedAt s.moved.fallback (Octet.equals :: Header.content s.moved.cursor.rest)).map
      fun found =>
        found.map fun p => (p.1, p.2 ++ crs) := by
    have hcontent :
        Header.content s.cursor.rest = Octet.equals :: Header.content (Octet.question :: bs) := by
      rw [h.rest, Header.content_cons_of_ne (by decide)]
    rw [h.agree.moved.fallback, hrest, hrest', h.line]
    exact hsettles.found _ ⟨[], hcontent.symm⟩
  rw [step_of_attempt h.rest hw, step_of_attempt h.rest' hw']
  cases hd : encodedAt s.moved.fallback (Octet.equals :: Header.content s.moved.cursor.rest) with
  | error fault =>
    rw [hd] at hfound
    obtain ⟨u, hu⟩ := tryWord_of_error hd
    obtain ⟨v, hv⟩ := tryWord_of_error hfound
    rw [hu, hv]
    exact .error fault u v
  | ok found =>
    rw [hd] at hfound
    cases found with
    | none =>
      obtain ⟨ms, hu⟩ := tryWord_of_none hd
      obtain ⟨ns, hv⟩ := tryWord_of_none hfound
      rw [hu, hv]
      -- the octets are taken for those of a plain word; a mark and a notice are left
      let s' : Scanner := { s with
        cursor := { s.cursor with saved := s.cursor.pos + 1 }
        notices := (s.moved.refused ms).notices }
      let t' : Scanner := { t with
        cursor := { t.cursor with saved := t.cursor.pos + 1 }
        notices := (t.moved.refused ns).notices }
      have hagree : Agree s' t' :=
        h.agree.elsewhere (c := s'.cursor) (d := t'.cursor) rfl rfl s'.notices t'.notices
      have hface : Facing crs s' t' Octet.equals (Octet.question :: bs) (Octet.question :: cs) :=
        ⟨hagree, h.rest, h.rest', h.line⟩
      have hs' : Coherent s' := hs.of_atWordStart rfl rfl (Nat.le_refl _) hw
      have ht' : Coherent t' := ht.of_atWordStart rfl rfl (Nat.le_refl _) hw'
      exact word_together hface hs' ht' ⟨by decide, by decide⟩
    | some found =>
      obtain ⟨ms, l, hu, hline⟩ := tryWord_of_some hd
      obtain ⟨ns, l', hv, hline'⟩ := tryWord_of_some hfound
      rw [hu, hv, pushWord_found, pushWord_found]
      have hagree : Agree (s.moved.accepted ms l) (t.moved.accepted ns l') :=
        h.agree.moved.elsewhere (c := s.moved.cursor.mark.skip l.length)
          (d := t.moved.cursor.mark.skip l'.length) rfl rfl _ _
      refine (pushWord_together hagree found.1).imp fun _ _ _ hu hv huv => ⟨huv, ?_⟩
      rw [cursor_pushWord hu, cursor_pushWord hv, hline, hline']

omit [Decoders] in
/-- A question mark comes next in both headers, or in neither. -/
theorem head?_question (hcrs : crs.head? ≠ some Octet.question)
    (hline : Header.content cs = Header.content bs ++ crs) (h : cs.head? = some Octet.question) :
    bs.head? = some Octet.question := by
  obtain ⟨cs, rfl⟩ := List.head?_eq_some_iff.1 h
  rw [Header.content_cons_of_ne (by decide)] at hline
  cases hbs : Header.content bs with
  | nil =>
    rw [hbs, List.nil_append] at hline
    exact absurd (by rw [← hline, List.head?_cons]) hcrs
  | cons x l =>
    rw [hbs, List.cons_append] at hline
    obtain ⟨more, rfl, -⟩ := Header.content_eq_cons hbs
    rw [List.head?_cons, (List.cons.inj hline).1]

/-- Where an octet of the header is left, both scanners make the same step. -/
theorem step_together (h : Alike crs s t)
    (hsettles : Settles s.fallback (Header.content s.cursor.rest) crs) (hs : Coherent s)
    (ht : Coherent t) (hne : Header.content s.cursor.rest ≠ []) :
    Together (Alike crs) (step s) (step t) := by
  obtain ⟨b, l, hl⟩ := List.exists_cons_of_ne_nil hne
  obtain ⟨bs, hrest, hend, rfl⟩ := Header.content_eq_cons hl
  have hl' : Header.content t.cursor.rest = b :: (Header.content bs ++ crs) := by
    rw [h.2, hl, List.cons_append]
  obtain ⟨cs, hrest', hend', hline⟩ := Header.content_eq_cons hl'
  have hface : Facing crs s t b bs cs := ⟨h.1, hrest, hrest', hline⟩
  have hmeets := s.meets
  cases hmeets with
  | nothing hnone =>
    rw [hnone] at hrest
    cases hrest
  | lineEnd bs' hlf hb =>
    rw [hlf] at hrest
    obtain ⟨rfl, rfl⟩ := List.cons.inj hrest
    exact absurd ⟨rfl, hb⟩ hend
  | white b' bs' hwhite hb =>
    rw [hwhite] at hrest
    obtain ⟨rfl, rfl⟩ := List.cons.inj hrest
    have hb' : Octet.isBlank b' = true ∨ (b' = Octet.lf ∧ Header.endsBefore cs = false) := by
      refine hb.imp_right fun hlf => ⟨hlf.1, ?_⟩
      simpa [hlf.1] using hend'
    rw [step_of_white hwhite hb, step_of_white hrest' hb']
    exact .ok true _ _ (alike_of_moved (h.1.moved.withFlag true) rfl rfl hwhite hrest' hline)
  | cr bs' hcr =>
    rw [hcr] at hrest
    obtain ⟨rfl, rfl⟩ := List.cons.inj hrest
    rw [step_of_cr hcr, step_of_cr hrest']
    exact .ok true _ _ (alike_of_moved h.1.moved rfl rfl hcr hrest' hline)
  | comma bs' hcomma =>
    rw [hcomma] at hrest
    obtain ⟨rfl, rfl⟩ := List.cons.inj hrest
    exact comma_together hface
  | attempt bs' hattempt hw =>
    rw [hattempt] at hrest
    obtain ⟨rfl, rfl⟩ := List.cons.inj hrest
    -- the question mark is in front of both scanners
    rw [Header.content_cons_of_ne (by decide), List.cons_append] at hline
    obtain ⟨cs, rfl, -, hline⟩ := Header.content_eq_cons hline
    exact attempt_together hface hsettles hs ht hw
  | word b' bs' hword hb hno =>
    rw [hword] at hrest
    obtain ⟨rfl, rfl⟩ := List.cons.inj hrest
    have hno' : ¬ (b' = Octet.equals ∧ t.atWordStart = true ∧ cs.head? = some Octet.question) :=
      fun hq => hno ⟨hq.1, h.1.atWordStart ▸ hq.2.1, head?_question hsettles.head hline hq.2.2⟩
    rw [step_of_word hword hb hno, step_of_word hrest' hb hno']
    exact word_together hface hs ht hb

/-! ## Runs

The first scanner comes to the end of its header while the second may have carriage returns left.
Those are passed over without a change, and both answer with what they have. -/

/-- What is answered: a value or a fault, without the scanner that is left. -/
def outcome : ScanResult Value → Except Fault Value
  | .ok value _ => .ok value
  | .error fault _ => .error fault

/-- Agreeing scanners have one answer. -/
theorem outcome_answer (h : Agree s t) : outcome (answer t) = outcome (answer s) := by
  rw [answer, answer]
  generalize hc : closeWord false s = r
  generalize hd : closeWord false t = q
  have hclosed := closeWord_together h false
  rw [hc, hd] at hclosed
  cases hclosed with
  | ok _ u v huv =>
    show Except.ok (Value.ofEntries v.closeEntry.entries.toList) =
      Except.ok (Value.ofEntries u.closeEntry.entries.toList)
    rw [huv.closeEntry.entries]
  | error fault u v => rfl

omit [Decoders] in
theorem agree_moved (s : Scanner) : Agree s s.moved := ⟨rfl, rfl, rfl, rfl, rfl, rfl, rfl⟩

/-- With nothing left but carriage returns, the scanner answers with what it has. -/
theorem outcome_readValue_of_onlyCr (hcrs : OnlyCr crs) (h : Header.content s.cursor.rest = crs) :
    outcome (readValue s) = outcome (answer s) := by
  induction crs generalizing s with
  | nil =>
    rw [readValue_eq]
    rcases Header.content_eq_nil h with hrest | ⟨more, hrest, hmore⟩
    · rw [step_of_nil hrest]
    · rw [step_of_break hrest hmore]
      exact outcome_answer s.agree_moved
  | cons b crs ih =>
    rw [OnlyCr, List.forall_mem_cons] at hcrs
    obtain ⟨rfl, hcrs⟩ := hcrs
    obtain ⟨more, hrest, -, hmore⟩ := Header.content_eq_cons h
    have hleft : Header.content s.moved.cursor.rest = crs := by
      rw [moved, EncodedWord.rest_of_octet hrest, hmore]
    rw [readValue_eq, step_of_cr hrest]
    exact (ih hcrs hleft).trans (outcome_answer s.agree_moved)

/-- A scanner as it can be between two steps. -/
structure Valid (s : Scanner) : Prop where
  coherent : Coherent s
  holds : ∃ held, Holds s held

theorem Valid.step (h : Valid s) (hstep : step s = .ok true t) : Valid t := by
  obtain ⟨held, hg⟩ := h.holds
  have hadv := advance h.coherent hg
  rw [hstep] at hadv
  cases hadv with
  | goesOn _ held' coherent holds _ => exact ⟨coherent, held', holds⟩

/-- Scanners that are alike have the same answer, or the same fault. -/
theorem outcome_readValue (h : Alike crs s t) (hcrs : OnlyCr crs) (hs : Valid s) (ht : Valid t) :
    outcome (readValue t) = outcome (readValue s) := by
  -- along the run of the first scanner
  induction s using run_induction generalizing t with
  | head s ih =>
    -- the end of the first header comes first, and only there the two differ
    by_cases hne : Header.content s.cursor.rest = []
    · have hleft : Header.content t.cursor.rest = crs := by rw [h.2, hne, List.nil_append]
      rw [outcome_readValue_of_onlyCr hcrs hleft, outcome_readValue_of_onlyCr .nil hne,
        outcome_answer h.1]
    · have hstep := step_together h (settles_onlyCr _ _ hcrs) hs.coherent ht.coherent hne
      rw [readValue_eq s, readValue_eq t]
      generalize hu : Scanner.step s = r at hstep
      generalize hv : Scanner.step t = q at hstep
      cases hstep with
      | ok more u v huv =>
        cases more with
        | true => exact ih u hu huv (hs.step hu) (ht.step hv)
        | false => exact outcome_answer huv.1
      | error fault u v => rfl

/-- Blanks in front of a header are passed over. -/
theorem readValue_skip {blanks rest : Octets} (hblanks : ∀ b ∈ blanks, Octet.isBlank b = true)
    (hw : s.atWordStart = true) (h : s.cursor.rest = blanks ++ rest) :
    readValue s = readValue { s with cursor := s.cursor.skip blanks.length } := by
  induction blanks generalizing s with
  | nil => rfl
  | cons b blanks ih =>
    rw [List.forall_mem_cons] at hblanks
    have hmoved : ({ s.moved with atWordStart := true } : Scanner) = s.moved := by
      rw [← hw]
      rfl
    have hrest : s.moved.cursor.rest = blanks ++ rest := EncodedWord.rest_of_octet h
    rw [readValue_eq, step_of_white h (Or.inl hblanks.1), hmoved]
    refine (ih (s := s.moved) hblanks.2 hw hrest).trans ?_
    have hskip : s.moved.cursor.skip blanks.length = s.cursor.skip (b :: blanks).length := by
      rw [moved, Cursor.skip_skip, List.length_cons, Nat.add_comm]
    rw [hskip]
    rfl

end Scanner

/-! ## Headers -/

namespace Header

variable [Decoders] {c d : Cursor} {given : Settings}

theorem result_readAt_of_start {s : Scanner} (h : Scanner.start c given = .ok s) :
    (readAt c given).1.result = Scanner.outcome s.readValue := by
  simp only [readAt, h]
  cases s.readValue <;> rfl

omit [Decoders] in
theorem valid_start {s : Scanner} (h : Scanner.start c given = .ok s) : s.Valid := by
  obtain ⟨hs, hg⟩ := holds_start h
  exact ⟨hs, [], hg⟩

omit [Decoders] in
/-- At the start a scanner knows the same wherever it stands. -/
theorem agree_start {s : Scanner} (h : Scanner.start c given = .ok s) (d : Cursor) :
    Scanner.Agree s { s with cursor := d } := by
  obtain rfl := start_eq_ok h
  exact ⟨rfl, rfl, rfl, rfl, rfl, rfl, rfl⟩

omit [Decoders] in
/-- Whether settings are good does not depend on a place. -/
theorem start_cursor_error {fault : Fault} (h : Scanner.start c given = .error fault) (d : Cursor) :
    Scanner.start d given = .error fault := by
  simp only [Scanner.start, bind, Except.bind] at h ⊢
  split at h
  · exact h
  · split at h
    · exact h
    · cases h

/-- Two headers with the same octets read the same, wherever they stand: blanks in front and
carriage returns at the end make no difference. -/
theorem result_readAt_of_content {blanks crs rest : Octets}
    (hblanks : ∀ b ∈ blanks, Octet.isBlank b = true) (hcrs : OnlyCr crs)
    (hc : c.rest = blanks ++ rest) (hline : content rest = content d.rest ++ crs) :
    (readAt c given).1.result = (readAt d given).1.result := by
  cases hstart : Scanner.start d given with
  | error fault =>
    rw [readAt_of_start_error hstart, readAt_of_start_error (start_cursor_error hstart c)]
  | ok s =>
    have hstart' := start_cursor hstart c
    have hcursor : s.cursor = d := by rw [start_eq_ok hstart]
    have hw : s.atWordStart = true := by rw [start_eq_ok hstart]
    let t : Scanner := { s with cursor := c.skip blanks.length }
    have hrest : t.cursor.rest = rest := Cursor.rest_skip_of_eq hc
    have halike : Scanner.Alike crs s t :=
      ⟨agree_start hstart t.cursor, by rw [hrest, hcursor, hline]⟩
    have hvalid : t.Valid := valid_start (start_cursor hstart t.cursor)
    rw [result_readAt_of_start hstart, result_readAt_of_start hstart',
      Scanner.readValue_skip (s := { s with cursor := c }) hblanks hw hc]
    exact Scanner.outcome_readValue halike hcrs (valid_start hstart) hvalid

end Header

end HeaderList
