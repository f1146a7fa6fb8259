import HeaderList.Proofs.Boundary

/-!
# `HeaderList/Proofs/Succession.lean` — one scanner for header after header

A scanner that has read a header can go on with the next one. It is never reset, so whatever the
first header left in it would get into the second. Nothing is left but the entries: a scanner that
has answered has no open word, no fragment, and stands where a word may begin (`AtRest`). From
there it reads a header as a fresh scanner would, and its answer is the entries it had with those
of the header behind them (`readValue_of_rest`). Over any number of headers it keeps up with fresh
scanners that are used once each (`readValues_keeps_up`).
-/

set_option autoImplicit false

namespace HeaderList

/-- Do two cursors stand in the same place of the same octets? -/
structure Cursor.SamePlace (c d : Cursor) : Prop where
  data : d.data = c.data
  pos : d.pos = c.pos

theorem Cursor.SamePlace.rest {c d : Cursor} (h : c.SamePlace d) : d.rest = c.rest :=
  rest_congr h.data h.pos

namespace Header

variable [Decoders]

/-- The cursor after so many headers, each of which is read by a scanner of its own. -/
def afterMany (given : Settings) : Nat → Cursor → Cursor
  | 0, c => c
  | n + 1, c => afterMany given n (readAt c given).2

end Header

namespace Scanner

/-! ## Between two headers

That nothing is left of a header is an invariant of the end of a run and not of its steps: during
a header there are fragments and words. `Steady` is what the steps keep, and closing the last word
and the last entry makes `AtRest` of it. -/

/-- Is there nothing of an entry in a scanner, so that it can begin with one? -/
structure AtRest (s : Scanner) : Prop where
  noWord : s.wordStart = none
  noFragment : s.fragments = #[]
  atWordStart : s.atWordStart = true

theorem AtRest.coherent {s : Scanner} (h : AtRest s) : Coherent s :=
  .of_closed h.noWord h.atWordStart

theorem AtRest.holds {s : Scanner} (h : AtRest s) : Holds s [] :=
  ⟨h.noFragment ▸ .nil, .nil, by simp⟩

/-- What a scanner keeps as long as it lives: its settings, and that a word
may begin where none is open. -/
structure Steady (given : Settings) (s : Scanner) : Prop where
  charset : s.charset = Setting.charset.value given.charset
  errors : s.errors = Setting.decodeErrors.value given.errors
  fallback : s.fallback = given.fallback
  inside : s.wordStart = none → s.atWordStart = true

variable [Decoders] {s t : Scanner} {given : Settings} {more spaced : Bool} {c d : Cursor}
  {v : Value}

/-- Closing a word leaves the scanner where a word may begin. -/
theorem Steady.closes (hs : Steady given s) (h : Closes s spaced t) : Steady given t := by
  cases h with
  | nothing => exact hs
  | word => exact ⟨hs.charset, hs.errors, hs.fallback, fun _ => rfl⟩

omit [Decoders] in
theorem Steady.closeEntry (hs : Steady given s) : Steady given s.closeEntry := by
  unfold Scanner.closeEntry
  split
  · exact hs
  · exact ⟨hs.charset, hs.errors, hs.fallback, hs.inside⟩

omit [Decoders] in
theorem Steady.opened (hs : Steady given s) : Steady given s.opened :=
  ⟨hs.charset, hs.errors, hs.fallback, fun h => absurd h (by simp [Scanner.opened])⟩

/-- No step changes the settings, or leaves a scanner inside a word that is not open. -/
theorem Steady.step (hs : Steady given s) (h : step s = .ok more t) : Steady given t := by
  have moved : Steady given s.moved := ⟨hs.charset, hs.errors, hs.fallback, hs.inside⟩
  cases moves_of_step h with
  | nothing => exact hs
  | lineEnd => exact moved
  | white => exact ⟨hs.charset, hs.errors, hs.fallback, fun _ => rfl⟩
  | cr => exact moved
  | comma _ _ _ closes => exact (moved.closes closes).closeEntry
  | silent => exact ⟨hs.charset, hs.errors, hs.fallback, hs.inside⟩
  | encoded _ ns l _ _ _ _ _ _ _ closes =>
    have accepted : Steady given (s.moved.accepted ns l) :=
      ⟨hs.charset, hs.errors, hs.fallback, hs.inside⟩
    have closed := accepted.closes closes
    exact ⟨closed.charset, closed.errors, closed.fallback, closed.inside⟩
  | refused _ ns _ _ _ closes =>
    have refused : Steady given (s.moved.refused ns) :=
      ⟨hs.charset, hs.errors, hs.fallback, hs.inside⟩
    exact (refused.closes closes).opened
  | inside => exact ⟨hs.charset, hs.errors, hs.fallback, hs.inside⟩
  | between _ _ _ _ _ _ _ closes => exact (moved.closes closes).opened

/-- An answer closes what is open, so nothing of the header stays behind but entries. -/
theorem Steady.answer (hs : Steady given s) (h : answer s = .ok v t) :
    AtRest t ∧ Steady given t ∧ v = .ofEntries t.entries.toList := by
  rw [Scanner.answer] at h
  split at h
  · cases h
  · next u hclose =>
    cases h
    have closes := closes_of_closeWord hclose
    have steady := hs.closes closes
    refine ⟨⟨?_, fragments_closeEntry u, ?_⟩, steady.closeEntry, rfl⟩
    · rw [wordStart_closeEntry, closes.noWord]
    · rw [atWordStart_closeEntry, steady.inside closes.noWord]

/-- A scanner that has answered is at rest, and has the entries of its answer. -/
theorem Steady.readValue (hs : Steady given s) (h : readValue s = .ok v t) :
    AtRest t ∧ Steady given t ∧ v = .ofEntries t.entries.toList := by
  obtain ⟨u, hu, hanswer⟩ := readValue_induction (fun _ _ _ hs h => Steady.step hs h) hs h
  exact hu.answer hanswer

omit [Decoders] in
theorem steady_start (h : start c given = .ok s) : AtRest s ∧ Steady given s := by
  obtain rfl := Header.start_eq_ok h
  exact ⟨⟨rfl, rfl, rfl⟩, ⟨rfl, rfl, rfl, fun _ => rfl⟩⟩

/-! ## One header

At rest, the outlook of a scanner is its entries and what the header means. -/

theorem Steady.itemsAhead (hs : Steady given s) (l : Octets) :
    s.itemsAhead l = (items given.readsWord given.fallback l).toOption := by
  have hreads : (fun word => (s.reads word).result) = given.readsWord := by
    funext word
    rw [reads, Settings.readsWord, hs.charset, hs.errors, hs.fallback]
  rw [Scanner.itemsAhead, hreads, hs.fallback]

/-- A scanner at rest answers with the entries it has and those that the header means. -/
theorem items_of_readValue (hrest : AtRest s) (hs : Steady given s) (h : readValue s = .ok v t) :
    ∃ is, items given.readsWord given.fallback (Header.content s.cursor.rest) = .ok is ∧
      v = .ofEntries (s.entries.toList ++ Item.entries is) := by
  have hvalue := value?_readValue hrest.coherent hrest.holds
  obtain ⟨htail, hline⟩ := tail_line_of_atWordStart hrest.atWordStart
  rw [h, outlook_of htail hline, wordAhead_of_none hrest.noWord, hs.itemsAhead] at hvalue
  cases hitems : items given.readsWord given.fallback (Header.content s.cursor.rest) with
  | error fault =>
    rw [hitems] at hvalue
    cases hvalue
  | ok is =>
    rw [hitems] at hvalue
    exact ⟨is, rfl, Option.some.inj hvalue⟩

/-- A scanner at rest reads a header as a fresh one does in the same place, and has the entries of
the header behind those that it had. -/
theorem readValue_of_rest (hgood : ∃ s, start c given = .ok s) (hrest : AtRest s)
    (hs : Steady given s) (hplace : Cursor.SamePlace d s.cursor) (h : readValue s = .ok v t) :
    ∃ w, (Header.readAt d given).1.result = .ok w ∧
      t.entries.toList = s.entries.toList ++ w.entries ∧ v = .ofEntries t.entries.toList ∧
      Cursor.SamePlace (Header.readAt d given).2 t.cursor := by
  obtain ⟨is, hitems, hv⟩ := items_of_readValue hrest hs h
  obtain ⟨-, -, hanswer⟩ := hs.readValue h
  have hentries : t.entries.toList = s.entries.toList ++ Item.entries is := by
    rw [← Value.entries_ofEntries t.entries.toList, ← hanswer, hv, Value.entries_ofEntries]
  have hmeaning : Header.meaning given d.rest = .ok (.ofEntries (Item.entries is)) := by
    rw [Header.meaning, ← hplace.rest, hitems]
    rfl
  obtain ⟨s₀, hgood⟩ := hgood
  have hread := Header.readAt_of_meaning (Header.start_cursor hgood d) hmeaning
  refine ⟨_, hread, by rw [hentries, Value.entries_ofEntries], hanswer, ?_⟩
  -- both stand where the header is over
  obtain ⟨hdata, hpos⟩ := Header.pos_readAt hread
  obtain ⟨hdata', hpos'⟩ := pos_readValue h
  refine ⟨by rw [hdata, hdata', hplace.data], ?_⟩
  rw [hpos, hpos', Header.stop, Header.stop, hplace.pos, hplace.rest]

/-! ## Header after header

The used scanner is compared with fresh ones header by header. Its entries pile up, and the fresh
ones start with none, so what is kept up with is the entries of all headers so far. -/

/-- What a scanner answers to so many headers one after the other, and the
scanner after each of them. -/
def readValues : Nat → Scanner → Except Fault (List (Value × Scanner))
  | 0, _ => .ok []
  | n + 1, s =>
    match readValue s with
    | .error fault _ => .error fault
    | .ok v t => ((v, t) :: ·) <$> readValues n t

/-- Does a scanner that has read some headers stand where fresh ones would,
with all that they have found? -/
structure KeepsUp (given : Settings) (c : Cursor) (past : List Text) (vs : List Value) (k : Nat)
    (r : Value × Scanner) : Prop where
  entries : r.1.entries = past ++ (vs.take (k + 1)).flatMap Value.entries
  place : Cursor.SamePlace (Header.afterMany given (k + 1) c) r.2.cursor
  atRest : AtRest r.2

/-- From a scanner at rest, with whatever entries it has. The theorem below is
about one that was just started. -/
theorem keepsUp_of_rest (hgood : ∃ s, start c given = .ok s) {n : Nat} {rs : List (Value × Scanner)}
    (hrest : AtRest s) (hs : Steady given s) (hplace : Cursor.SamePlace d s.cursor)
    (h : s.readValues n = .ok rs) :
    ∃ vs, Header.readMany given n d = .ok vs ∧ rs.length = n ∧ vs.length = n ∧
      ∀ k r, rs[k]? = some r → KeepsUp given d s.entries.toList vs k r := by
  -- on the number of headers; the entries of the scanner and the place of the fresh ones grow
  induction n generalizing s d rs with
  | zero =>
    cases h
    exact ⟨[], rfl, rfl, rfl, fun k r hk => by cases hk⟩
  | succ n ih =>
    rw [readValues] at h
    split at h
    · cases h
    · next v t hread =>
      obtain ⟨others, hothers, rfl⟩ := map_eq_ok h
      -- the first header is read by both, and both are at the start of the next
      obtain ⟨w, hw, hentries, hv, hplace'⟩ := readValue_of_rest hgood hrest hs hplace hread
      obtain ⟨hrest', hs', -⟩ := hs.readValue hread
      obtain ⟨vs, hmany, hlen, hlen', hkeeps⟩ := ih hrest' hs' hplace' hothers
      refine ⟨w :: vs, ?_, by rw [List.length_cons, hlen], by rw [List.length_cons, hlen'], ?_⟩
      · rw [Header.readMany]
        simp only [hw, hmany]
        rfl
      · intro k r hk
        cases k with
        | zero =>
          obtain rfl : (v, t) = r := by simpa using hk
          refine ⟨?_, hplace', hrest'⟩
          rw [hv, Value.entries_ofEntries, hentries]
          simp
        | succ k =>
          have hlater := hkeeps k r (by simpa using hk)
          refine ⟨?_, hlater.place, hlater.atRest⟩
          rw [hlater.entries, hentries, List.take_succ_cons, List.flatMap_cons, List.append_assoc]

/-- One scanner that reads header after header keeps up with fresh scanners that read one header
each. As long as it does not fail, neither do they; after every header it stands where they would,
it has found what they have found together, and it is at rest, as it was at the start. -/
theorem readValues_keeps_up (hstart : start c given = .ok s) {n : Nat} {rs : List (Value × Scanner)}
    (h : s.readValues n = .ok rs) :
    AtRest s ∧ ∃ vs, Header.readMany given n c = .ok vs ∧ rs.length = n ∧ vs.length = n ∧
      ∀ k v t, rs[k]? = some (v, t) →
        v.entries = (vs.take (k + 1)).flatMap Value.entries ∧
        Cursor.SamePlace (Header.afterMany given (k + 1) c) t.cursor ∧ AtRest t := by
  obtain ⟨hrest, hs⟩ := steady_start hstart
  have hplace : Cursor.SamePlace c s.cursor := by
    rw [Header.start_eq_ok hstart]
    exact ⟨rfl, rfl⟩
  have hnone : s.entries.toList = [] := by rw [Header.start_eq_ok hstart]
  obtain ⟨vs, hmany, hlen, hlen', hkeeps⟩ := keepsUp_of_rest ⟨s, hstart⟩ hrest hs hplace h
  refine ⟨hrest, vs, hmany, hlen, hlen', fun k v t hk => ?_⟩
  have hkept := hkeeps k (v, t) hk
  refine ⟨?_, hkept.place, hkept.atRest⟩
  rw [hkept.entries, hnone, List.nil_append]

omit [Decoders] in
/-- Three headers of which the first ends with an encoded word without text, the second goes on in
a folded line, and the third is what only looks like an encoded word. -/
theorem succession_of_three_headers :
    let c : Cursor :=
      .ofOctets [0x61, 0x20, 0x3D, 0x3F, 0x75, 0x74, 0x66, 0x2D, 0x38, 0x3F, 0x71, 0x3F, 0x3F, 0x3D,
      0x0A, 0x62, 0x2C, 0x0A, 0x20, 0x63, 0x0A, 0x3D, 0x3F, 0x0A]
    ∃ s rs, start c {} = .ok s ∧ @readValues .none 3 s = .ok rs ∧
      rs.map Prod.fst = [.text "a", .list ["a", "b", "c"], .list ["a", "b", "c", "=?"]] ∧
      ∃ vs, @Header.readMany .none {} 3 c = .ok vs ∧ vs.length = 3 ∧
        vs.flatMap Value.entries = (["a", "b", "c", "=?"] : List Text) := by
  intro c
  obtain ⟨s, hstart⟩ : ∃ s, start c {} = .ok s := ⟨_, rfl⟩
  have hvalues : (@readValues .none 3 s).toOption.map (List.map Prod.fst) =
      some [.text "a", .list ["a", "b", "c"], .list ["a", "b", "c", "=?"]] := by
    obtain rfl := Header.start_eq_ok hstart
    decide +kernel
  obtain ⟨rs, hrs, hfirst⟩ := Option.map_eq_some_iff.1 hvalues
  rw [← eq_ok_iff_toOption] at hrs
  obtain ⟨-, vs, hmany, -, hlen, hkeeps⟩ := @readValues_keeps_up .none s {} c hstart 3 rs hrs
  refine ⟨s, rs, hstart, hrs, hfirst, vs, hmany, hlen, ?_⟩
  obtain ⟨⟨v, t⟩, hthird, hv⟩ :
      ∃ r : Value × Scanner, rs[2]? = some r ∧ r.1 = .list ["a", "b", "c", "=?"] := by
    have h : (rs.map Prod.fst)[2]? = some (.list ["a", "b", "c", "=?"]) := by rw [hfirst]; rfl
    rwa [List.getElem?_map, Option.map_eq_some_iff] at h
  obtain ⟨hentries, -⟩ := hkeeps 2 v t hthird
  have hall : vs.take 3 = vs := by rw [← hlen, List.take_length]
  rw [hall, show v = _ from hv] at hentries
  exact hentries.symm

end Scanner

end HeaderList
