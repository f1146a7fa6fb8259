import HeaderList.Proofs.Scanner.Outlook

/-!
# `HeaderList/Proofs/Scanner/Meaning.lean` — the scanner reads what a header means

Every step of the scanner keeps its outlook (`advance`): one lemma for each kind of octet, and
an induction along the run (`run_induction`, which the modules after this one use as well). At
the start of a header the outlook is the meaning of the header, and at its end it is the entries,
so the scanner answers with what the header means (`readAt_eq_ok_iff_meaning`).
-/

set_option autoImplicit false

namespace HeaderList

namespace Scanner

open Item (joined entryOf between)

variable [Decoders] {s : Scanner} {held : List Item} {b : UInt8} {bs : Octets}

/-! ## Closing the open word

A word is closed in four of the cases below: at a comma, before another word, before an encoded
word and at the end of the header. What closing does to the items is said once. -/

/-- The scanner without an open word, after its fragments have become others. -/
def settled (s : Scanner) (fragments : Array Text) (ns : Array Notice) : Scanner :=
  { s with fragments, wordStart := none, atWordStart := true, notices := ns }

/-- Closing the open word adds its item to those of the entry. With a space behind it, the
fragments are ready for an encoded word. -/
theorem closeWord_cases (hin : s.wordStart = none → s.atWordStart = true) (hg : Holds s held)
    (spaced : Bool) :
    (∃ word fragments ns, s.wordAhead [] = some word ∧ Item.InEntry word ∧
      closeWord spaced s = .ok () (s.settled fragments ns) ∧
      if spaced then ∀ e, Spells (fragments.push e) (held ++ word ++ [.encoded e])
      else Spells fragments (held ++ word)) ∨
    (s.wordAhead [] = none ∧ ∃ fault t, closeWord spaced s = .error fault t) := by
  cases hw : s.wordStart with
  | none =>
    -- no word is open: nothing is added, and a space may come only where
    -- the last item asks for one
    refine Or.inl ⟨[], s.fragments, s.notices, wordAhead_of_none hw [], .nil, ?_, ?_⟩
    · rw [closeWord_of_none hw, settled, ← hw, ← hin hw]
    · rw [List.append_nil]
      split
      · exact hg.spells.push (hg.last hw)
      · exact hg.spells
  | some start =>
    have ha : s.wordAhead [] =
        (s.reads (s.wordOctets start)).result.toOption.map fun t => [.word t] := by
      simp only [wordAhead, hw, List.append_nil]
    rcases closeWord_of_some hw spaced with ⟨text, hr, hc⟩ | ⟨fault, t, hr, hc⟩
    · refine Or.inl ⟨[.word text], withWord s.fragments spaced text, _, by rw [ha, hr]; rfl,
        .singleton (by simp) rfl, hc, ?_⟩
      cases spaced with
      | false => exact hg.spells.withWord text
      | true => exact hg.spells.withWord_push text
    · exact Or.inr ⟨by rw [ha, hr]; rfl, fault, t, hc⟩

/-! ## One lemma for each kind of octet

Each of them has the same course. The lemma of `Scanner/Step` for this octet says what the step
leaves; what is left is coherent, and its fragments spell the items that are held; and both
outlooks are spelled out by `outlook_of`, which shows that an item has at most gone over from
those that are ahead to those that are held. -/

omit [Decoders] in
/-- An octet that does not end the header is the first of it, and the others are ahead of the
scanner that has gone over this one. -/
theorem content_of_rest (h : s.cursor.rest = b :: bs)
    (hb : ¬ (b = Octet.lf ∧ Header.endsBefore bs = true)) :
    Header.content s.cursor.rest = b :: Header.content s.moved.cursor.rest := by
  rw [h, Header.content_cons hb, moved, EncodedWord.rest_of_octet h]

/-- Where the header has no more octets, what is ahead is the open word alone. -/
theorem ending_eq_outlook (hg : Holds s held) (h : Header.content s.cursor.rest = []) :
    s.ending held = s.outlook held := by
  obtain ⟨htail, hline⟩ := tail_line_of_nil h
  rw [outlook_of htail hline, itemsAhead_nil, ending, List.filter_nil]
  cases hw : s.wordStart with
  | none =>
    rw [wordAhead_of_none hw]
    simp [Item.entries_of_inEntry hg.inEntry]
  | some start =>
    simp only [wordAhead, hw, List.append_nil]
    cases (s.reads (s.wordOctets start)).result with
    | error fault => rfl
    | ok text =>
      have hword : Item.InEntry (held ++ [.word text]) :=
        hg.inEntry.append (.singleton (by simp) rfl)
      simp [Except.toOption, Item.entries_of_inEntry hword]

/-- White space ends the word in the outlook already, so nothing
changes but where the scanner is. -/
theorem advance_white (hs : Coherent s) (hg : Holds s held) (h : s.cursor.rest = b :: bs)
    (hb : Octet.isBlank b = true ∨ (b = Octet.lf ∧ Header.endsBefore bs = false)) :
    Advance s held (step s) := by
  obtain ⟨hgap, hword⟩ := gap_of_white hb
  have hcontent := content_of_rest h (not_end_of_white hb)
  obtain ⟨htail, hline⟩ := tail_line_of_cons hcontent (Or.inr hword)
  rw [step_of_white h hb]
  refine .goesOn _ held (hs.of_atWordStart rfl rfl (Nat.le_succ _) rfl) (hg.congr rfl rfl) ?_
  rw [outlook_of htail hline, itemsAhead_gap s hgap]
  rfl

/-- A carriage return is nothing between two words. Within a word it is passed without becoming
part of it, and `Coherent` remembers that the octets behind the word are carriage returns only. -/
theorem advance_cr (hs : Coherent s) (hg : Holds s held) (h : s.cursor.rest = Octet.cr :: bs) :
    Advance s held (step s) := by
  have hcr : Octet.cr ≠ Octet.lf := by decide
  have hcontent := content_of_rest h (fun hb => hcr hb.1)
  rw [step_of_cr h]
  cases hw : s.atWordStart with
  | true =>
    refine .goesOn _ held (hs.of_atWordStart rfl rfl (Nat.le_succ _) hw) (hg.congr rfl rfl) ?_
    obtain ⟨htail, hline⟩ := tail_line_of_cons hcontent (Or.inl hw)
    obtain ⟨htail', hline'⟩ := tail_line_of_atWordStart (s := s.moved) hw
    rw [outlook_of htail hline, outlook_of htail' hline', itemsAhead_gap s (Or.inr (Or.inr rfl))]
    rfl
  | false =>
    -- the word goes on behind the carriage return, but does not have it
    obtain ⟨start, stop, hstart, hstop, hlt, hle⟩ := hs.inWord hw
    refine .goesOn _ held ⟨hs.inside, fun _ hstart' => ?_, fun _ _ hstop' => ?_⟩
      (hg.congr rfl rfl) ?_
    · obtain rfl := Option.some.inj (hstart.symm.trans hstart')
      exact ⟨stop, hstop, hlt, Nat.le_succ_of_le hle⟩
    · obtain rfl := Option.some.inj (hstop.symm.trans hstop')
      have hslice : s.moved.cursor.slice stop s.moved.cursor.pos =
          s.cursor.slice stop s.cursor.pos ++ [Octet.cr] := Cursor.slice_succ h hle
      rw [hslice]
      simpa [or_imp, forall_and] using hs.tight hw stop hstop
    · obtain ⟨htail, hline⟩ := tail_line_of_inside hw
      obtain ⟨htail', hline'⟩ := tail_line_of_inside (s := s.moved) hw
      rw [outlook_of htail hline, outlook_of htail' hline', hcontent]
      rfl

/-- At a comma the items that are held, with the word that is open, become an entry.
From then on none are held. -/
theorem advance_comma (hs : Coherent s) (hg : Holds s held)
    (h : s.cursor.rest = Octet.comma :: bs) : Advance s held (step s) := by
  have hlf : Octet.comma ≠ Octet.lf := by decide
  obtain ⟨htail, hline⟩ := tail_line_of_cons (content_of_rest h (fun hb => hlf hb.1)) (Or.inr rfl)
  have hout := outlook_of htail hline held
  rw [itemsAhead_comma, List.filter_nil] at hout
  rw [step_of_comma h]
  have hg' : Holds s.moved held := hg.congr rfl rfl
  rcases closeWord_cases (s := s.moved) hs.inside hg' false with
    ⟨word, fragments, ns, ha, hword, hc, hsp⟩ | ⟨ha, fault, t, hc⟩
  · have ha' : s.wordAhead [] = some word := ha
    have hspells : Spells (s.moved.settled fragments ns).fragments (held ++ word) := hsp
    rw [hc]
    simp only [closeEntry_of_spells hspells]
    -- the items that were held have become an entry
    refine .goesOn _ [] (.of_closed rfl rfl) ⟨.nil, .nil, by simp⟩ ?_
    rw [hout, ha']
    change (s.itemsAhead (Header.content s.moved.cursor.rest)).map _ = _
    cases s.itemsAhead (Header.content s.moved.cursor.rest) with
    | none => rfl
    | some is =>
      have hentries := Item.entries_comma (hg.inEntry.append hword) is
      rw [List.append_assoc] at hentries
      simp [settled, moved, hentries]
  · rw [hc]
    refine .fails fault t ?_
    have ha' : s.wordAhead [] = none := ha
    rw [hout, ha']
    rfl

omit [Decoders] in
theorem wordOctets_of_bounds {t : Scanner} {start stop : Nat} (hstop : t.wordEnd = some stop) :
    t.wordOctets start = (t.cursor.slice start stop).filter (· != Octet.cr) := by
  rw [wordOctets, hstop, Option.getD_some]

omit [Decoders] in
/-- The scanner in a word that goes up to the octet in front of the cursor. -/
def extended (s : Scanner) : Scanner := { s with wordEnd := some s.cursor.pos }

omit [Decoders] in
/-- Inside a word an octet is added to those that the word has; the carriage
returns in front of it are not. -/
theorem wordOctets_extended (hs : Coherent s) (h : s.cursor.rest = b :: bs)
    (hb : Octet.StartsWord b) (hw : s.atWordStart = false) :
    ∃ start, s.wordStart = some start ∧
      s.moved.extended.wordOctets start = s.wordOctets start ++ [b] := by
  obtain ⟨start, stop, hstart, hstop, hlt, hle⟩ := hs.inWord hw
  refine ⟨start, hstart, ?_⟩
  have hslice : s.moved.cursor.slice start (s.cursor.pos + 1) =
      s.cursor.slice start stop ++ s.cursor.slice stop s.cursor.pos ++ [b] := by
    rw [← Cursor.slice_append _ (Nat.le_of_lt hlt) hle]
    exact Cursor.slice_succ h (by omega)
  -- between the last octet of the word and this one are carriage returns only
  have hcrs : (s.cursor.slice stop s.cursor.pos).filter (· != Octet.cr) = [] := by
    simpa using hs.tight hw stop hstop
  have hend : s.moved.extended.wordEnd = some (s.cursor.pos + 1) := rfl
  have hcursor : s.moved.extended.cursor = s.moved.cursor := rfl
  rw [wordOctets_of_bounds hend, hcursor, hslice, wordOctets_of_bounds hstop, List.filter_append,
    List.filter_append, hcrs, List.append_nil, hb.filter_cr, List.filter_nil]

omit [Decoders] in
/-- A word that begins has the octet it begins with. -/
theorem wordOctets_opened {u : Scanner} (h : s.cursor.rest = b :: bs) (hb : Octet.StartsWord b)
    (hu : u.cursor = s.moved.cursor) : u.opened.wordOctets (u.cursor.pos - 1) = [b] := by
  have hpos : u.cursor.pos - 1 = s.cursor.pos := by rw [hu]; rfl
  have hend : u.opened.wordEnd = some (s.cursor.pos + 1) := by
    show some u.cursor.pos = some (s.cursor.pos + 1)
    rw [hu]
    rfl
  have hslice : u.opened.cursor.slice s.cursor.pos (s.cursor.pos + 1) = [b] := by
    have hcursor : u.opened.cursor = s.moved.cursor := hu
    have hrest := s.cursor.slice_pos 1
    rw [h] at hrest
    rw [hcursor]
    exact hrest
  rw [hpos, wordOctets_of_bounds hend, hslice]
  exact hb.filter_cr []

/-- Inside a word an octet makes it longer, and the carriage returns in
front of the octet are dropped. -/
theorem advance_inside (hs : Coherent s) (hg : Holds s held) (h : s.cursor.rest = b :: bs)
    (hb : Octet.StartsWord b) (hw : s.atWordStart = false) : Advance s held (extend s.moved) := by
  obtain ⟨start, hstart, hoctets⟩ := wordOctets_extended hs h hb hw
  let t : Scanner := s.moved.extended
  have hext : extend s.moved = .ok true t := extend_of_inside hw
  have hcontent := content_of_rest h (fun hlf => hb.ne_lf hlf.1)
  rw [hext]
  refine .goesOn t held ⟨hs.inside, fun start' hstart' => ?_, fun _ stop' hstop' => ?_⟩
    (hg.congr rfl rfl) ?_
  · obtain ⟨stop, hstop, hlt, hle⟩ := hs.bounds start' hstart'
    exact ⟨s.cursor.pos + 1, rfl, by omega, Nat.le_refl _⟩
  · obtain rfl := Option.some.inj hstop'
    simp [t, extended, moved]
  · obtain ⟨htail, hline⟩ := tail_line_of_inside hw
    obtain ⟨htail', hline'⟩ := tail_line_of_inside (s := t) hw
    rw [hcontent, List.takeWhile_cons_of_pos hb.1] at htail
    rw [hcontent, List.dropWhile_cons_of_pos hb.1] at hline
    have hword : ∀ more, t.wordAhead more = s.wordAhead (b :: more) := by
      intro more
      have hstart' : t.wordStart = some start := hstart
      simp only [wordAhead, hstart, hstart', t, hoctets, List.append_assoc]
      rfl
    rw [outlook_of htail hline, outlook_of htail' hline', hword, hb.filter_cr]
    rfl

/-- Between words an octet ends the word that is open and begins another one. -/
theorem advance_between (hs : Coherent s) (hg : Holds s held) (h : s.cursor.rest = b :: bs)
    (hb : Octet.StartsWord b) (hw : s.atWordStart = true)
    (hno : encodedAt s.fallback (Header.content s.cursor.rest) = .ok none) :
    Advance s held (extend s.moved) := by
  have hcontent := content_of_rest h (fun hlf => hb.ne_lf hlf.1)
  rw [hcontent] at hno
  obtain ⟨htail, hline⟩ := tail_line_of_cons hcontent (Or.inl hw)
  have hout := outlook_of htail hline held
  rw [itemsAhead_word s hb hno, List.filter_nil] at hout
  have hg' : Holds s.moved held := hg.congr rfl rfl
  rw [extend_of_atWordStart (s := s.moved) hw]
  rcases closeWord_cases (s := s.moved) hs.inside hg' false with
    ⟨word, fragments, ns, ha, hword, hc, hsp⟩ | ⟨ha, fault, t, hc⟩
  · have ha' : s.wordAhead [] = some word := ha
    rw [hc]
    let t : Scanner := (s.moved.settled fragments ns).opened
    have hoctets : t.wordOctets s.cursor.pos = [b] :=
      wordOctets_opened (u := s.moved.settled fragments ns) h hb rfl
    have hopen : ∀ more, t.wordAhead more =
        (s.reads (b :: more)).result.toOption.map fun text => [.word text] := by
      intro more
      have hstart : t.wordStart = some s.cursor.pos := rfl
      simp only [wordAhead, hstart, hoctets]
      rfl
    -- the word that was open is held from now on, and the new one is ahead
    refine .goesOn t (held ++ word) ⟨?_, ?_, ?_⟩ ⟨hsp, hg.inEntry.append hword, ?_⟩ ?_
    · intro hnone
      exact absurd hnone (by simp [t, opened])
    · intro start hstart
      obtain rfl := Option.some.inj hstart
      exact ⟨s.cursor.pos + 1, rfl, Nat.lt_succ_self _, Nat.le_refl _⟩
    · intro _ stop hstop
      obtain rfl := Option.some.inj hstop
      simp [t, opened, settled]
    · intro hnone
      exact absurd hnone (by simp [t, opened])
    · have hrest : t.cursor.rest = s.moved.cursor.rest := rfl
      have hahead : ∀ l, t.itemsAhead l = s.itemsAhead l := fun _ => rfl
      have hentries : t.entries = s.entries := rfl
      obtain ⟨htail', hline'⟩ := tail_line_of_inside (s := t) rfl
      rw [hout, ha', outlook_of htail' hline', hopen, hahead, hentries, hrest]
      -- both read the word first, and then the rest of the line
      cases (s.reads (b :: ((Header.content s.moved.cursor.rest).takeWhile Octet.isWord).filter
          (· != Octet.cr))).result with
      | error fault => rfl
      | ok text => simp [Except.toOption, Function.comp_def]
  · rw [hc]
    refine .fails fault t ?_
    have ha' : s.wordAhead [] = none := ha
    rw [hout, ha']
    rfl

/-- An advance may be shown from another scanner with the same outlook. -/
theorem Advance.of_same {t : Scanner} {r : ScanResult Bool} (h : Advance t held r)
    (hsame : t.outlook held = s.outlook held) : Advance s held r := by
  cases h with
  | goesOn u held' coherent holds same => exact .goesOn u held' coherent holds (same.trans hsame)
  | ends u inside holds same => exact .ends u inside holds (same.trans hsame)
  | fails fault u same => exact .fails fault u (hsame ▸ same)

/-- An encoded word ends the word that is open, unless it is empty. -/
theorem advance_pushWord {u : Scanner} {text : Text} (hs : Coherent u) (hg : Holds u held)
    (hw : u.atWordStart = true)
    (hout : s.outlook held = (u.wordAhead []).bind fun word =>
      ((u.itemsAhead (Header.content u.cursor.rest)).map (Item.encoded text :: ·)).map fun is =>
        u.entries.toList ++ Item.entries (held ++ word ++ is)) :
    Advance s held (pushWord u text) := by
  obtain ⟨htail, hline⟩ := tail_line_of_atWordStart hw
  rw [pushWord]
  split
  · rename_i he
    have hskip : (Item.encoded text).counts = false := by simp [Item.counts, he]
    -- an empty encoded word leaves no trace, and so the open word stays open
    refine .goesOn u held hs hg ?_
    rw [outlook_of htail hline, hout]
    simp only [Option.map_map, Function.comp_def, Item.entries_skip hskip]
    rfl
  · rename_i he
    have hcount : Item.InEntry [.encoded text] :=
      .singleton (by simp) (by simpa [Item.counts] using he)
    rcases closeWord_cases hs.inside hg true with
      ⟨word, fragments, ns, ha, hword, hc, hsp⟩ | ⟨ha, fault, t, hc⟩
    · let t : Scanner := { u.settled fragments ns with fragments := fragments.push text }
      -- the open word and the encoded one are held from now on
      have hspells : Spells (fragments.push text) (held ++ word ++ [.encoded text]) := hsp text
      rw [hc]
      refine .goesOn t (held ++ word ++ [.encoded text]) (.of_closed rfl rfl)
        ⟨hspells, (hg.inEntry.append hword).append hcount, ?_⟩ ?_
      · intro _ is i hi
        obtain ⟨-, hi⟩ := List.append_inj' hi rfl
        rw [← List.cons.inj hi |>.1]
        rfl
      · obtain ⟨htail', hline'⟩ := tail_line_of_atWordStart (s := t) rfl
        have hahead : ∀ l, t.itemsAhead l = u.itemsAhead l := fun _ => rfl
        rw [outlook_of htail' hline', wordAhead_of_none rfl, hout, ha, hahead]
        simp only [Option.bind_some, Option.map_map, Function.comp_def, List.append_assoc,
          List.singleton_append]
        rfl
    · rw [hc]
      refine .fails fault t ?_
      rw [hout, ha]
      rfl

/-- Where an encoded word may be, it is read as one, or else as a plain word is. -/
theorem advance_attempt (hs : Coherent s) (hg : Holds s held)
    (h : s.cursor.rest = Octet.equals :: Octet.question :: bs) (hw : s.atWordStart = true) :
    Advance s held (step s) := by
  have hlf : Octet.equals ≠ Octet.lf := by decide
  have hcontent := content_of_rest h (fun hb => hlf hb.1)
  obtain ⟨htail, hline⟩ := tail_line_of_cons hcontent (Or.inl hw)
  have hout := outlook_of htail hline held
  rw [List.filter_nil] at hout
  rw [step_of_attempt h hw]
  rcases tryWord_cases s.moved with ⟨ns, ht, hd⟩ | ⟨fault, t, ht, hd⟩ | ⟨text, ns, l, ht, -, -, hd⟩
  · rw [ht]
    -- a mark and a notice are all that an attempt leaves
    let s' : Scanner := { s with
      cursor := { s.cursor with saved := s.cursor.pos + 1 }
      notices := (s.moved.refused ns).notices }
    have hs' : Coherent s' := hs.of_atWordStart rfl rfl (Nat.le_refl _) hw
    have hno : encodedAt s'.fallback (Header.content s'.cursor.rest) = .ok none := by
      rw [← hcontent] at hd
      exact hd
    -- the attempt has failed, so that the octets are those of a plain word
    exact (advance_between hs' (hg.congr rfl rfl) h ⟨by decide, by decide⟩ hw hno).of_same rfl
  · rw [ht]
    refine .fails fault t ?_
    rw [hout, itemsAhead_fault s hd]
    cases s.wordAhead [] <;> rfl
  · rw [ht, pushWord_found]
    refine advance_pushWord (hs.of_atWordStart rfl rfl ?_ hw) (hg.congr rfl rfl) hw ?_
    · exact Nat.le_add_right_of_le (Nat.le_succ _)
    · rw [hout, itemsAhead_encoded s hd]
      rfl

/-- Where the scanner does not try to read an encoded word, there is none. -/
theorem encodedAt_content_of_not_attempt (h : s.cursor.rest = b :: bs) (hb : Octet.StartsWord b)
    (hno : ¬ (b = Octet.equals ∧ bs.head? = some Octet.question)) :
    encodedAt s.fallback (Header.content s.cursor.rest) = .ok none := by
  rw [content_of_rest h (fun hlf => hb.ne_lf hlf.1)]
  by_cases hbe : b = Octet.equals
  · refine encodedAt_of_not_begins _ ?_
    rw [Header.begins_content, moved, EncodedWord.rest_of_octet h]
    rintro ⟨w, tail, -, rfl⟩
    exact hno ⟨hbe, rfl⟩
  · exact encodedAt_of_ne _ hbe

/-- A step keeps the outlook. -/
theorem advance (hs : Coherent s) (hg : Holds s held) : Advance s held (step s) := by
  cases s.meets with
  | nothing h =>
    rw [step_of_nil h]
    exact .ends s hs.inside hg (ending_eq_outlook hg (by rw [h]; rfl))
  | lineEnd bs h hb =>
    rw [step_of_break h hb]
    refine .ends s.moved hs.inside (hg.congr rfl rfl) ?_
    exact ending_eq_outlook hg (by rw [h, Header.content_lf hb])
  | white b bs h hb => exact advance_white hs hg h hb
  | cr bs h => exact advance_cr hs hg h
  | comma bs h => exact advance_comma hs hg h
  | attempt bs h hw => exact advance_attempt hs hg h hw
  | word b bs h hb hno =>
    rw [step_of_word h hb hno]
    cases hw : s.atWordStart with
    | false => exact advance_inside hs hg h hb hw
    | true =>
      have hnone := encodedAt_content_of_not_attempt h hb fun hq => hno ⟨hq.1, hw, hq.2⟩
      exact advance_between hs hg h hb hw hnone

/-! ## Runs

A run repeats the step, and `readValue` closes the word and the entry that are open after it. Both
are opened one step at a time, and from there on only `advance` is used. -/

/-- What the scanner answers with when the header is over. -/
def answer (s : Scanner) : ScanResult Value :=
  match closeWord false s with
  | .error fault s => .error fault s
  | .ok () s => .ok (.ofEntries s.closeEntry.entries.toList) s.closeEntry

/-- Induction along a run: what holds of every scanner whose next step, if the header goes on after
it, leads to one that it holds of, holds of all scanners. It is on the octets that are left. -/
theorem run_induction {P : Scanner → Prop}
    (head : ∀ s, (∀ t, step s = .ok true t → P t) → P s) (s : Scanner) : P s := by
  induction hn : s.cursor.left using Nat.strongRecOn generalizing s with
  | ind n ih => exact head s fun t hstep => ih t.cursor.left (hn ▸ left_step hstep) t rfl

theorem run_eq (s : Scanner) :
    run s = match step s with
      | .ok true t => run t
      | .ok false t => .ok () t
      | .error fault t => .error fault t := by
  rw [run]
  split <;> rename_i hstep <;> rw [hstep]

/-- To read a header is to take a step and to read what is left of it, or to answer. -/
theorem readValue_eq (s : Scanner) :
    readValue s = match step s with
      | .ok true t => readValue t
      | .ok false t => answer t
      | .error fault t => .error fault t := by
  rw [readValue, run_eq]
  cases step s with
  | error fault t => rfl
  | ok more t => cases more <;> rfl

omit [Decoders] in
/-- The value of a result, without the fault or the scanner that comes with it. -/
def value? : ScanResult Value → Option Value
  | .ok value _ => some value
  | .error _ _ => none

/-- The answer at the end of a header has the items that are held and the open word. -/
theorem value?_answer (hin : s.wordStart = none → s.atWordStart = true) (hg : Holds s held) :
    value? (answer s) = (s.ending held).map Value.ofEntries := by
  rw [answer, ending]
  rcases closeWord_cases hin hg false with ⟨word, fragments, ns, ha, -, hc, hsp⟩ |
    ⟨ha, fault, t, hc⟩
  · have hspells : Spells (s.settled fragments ns).fragments (held ++ word) := hsp
    rw [hc, ha]
    simp only [closeEntry_of_spells hspells]
    rfl
  · rw [hc, ha]
    rfl

/-- A scanner in the middle of a header answers with its outlook. -/
theorem value?_readValue (hs : Coherent s) (hg : Holds s held) :
    value? (readValue s) = (s.outlook held).map Value.ofEntries := by
  -- along the run; `held` changes with the steps
  induction s using run_induction generalizing held with
  | head s ih =>
    have hadv := advance hs hg
    rw [readValue_eq]
    cases hstep : step s with
    | error fault t =>
      rw [hstep] at hadv
      cases hadv with
      | fails fault t same =>
        rw [same]
        rfl
    | ok more t =>
      rw [hstep] at hadv
      cases hadv with
      | goesOn t held' coherent holds same =>
        rw [← same]
        exact ih t hstep coherent holds
      | ends t inside holds same =>
        rw [← same]
        exact value?_answer inside holds

end Scanner

/-! ## Headers

At the start of a header nothing is open and nothing is held, and its outlook is what the header
means. The settings are checked before the first octet, which is why they stand apart in the main
result: a header whose octets have a meaning is not read with settings that are refused. -/

namespace Header

variable [Decoders] {c : Cursor} {given : Settings} {v : Value}

omit [Decoders] in
/-- A scanner starts out empty, with the defaults for what was not given. -/
theorem start_eq_ok {s : Scanner} (h : Scanner.start c given = .ok s) :
    s = { cursor := c, charset := Setting.charset.value given.charset,
          errors := Setting.decodeErrors.value given.errors, fallback := given.fallback } := by
  simp only [Scanner.start, bind, Except.bind] at h
  split at h
  · cases h
  · split at h
    · cases h
    · exact (Except.ok.inj h).symm

omit [Decoders] in
theorem lookup_of_start {s : Scanner} (h : Scanner.start c given = .ok s) :
    ∃ last, Charset.lookup (Setting.fallbackCharset.value given.fallback) = .ok last := by
  simp only [Scanner.start, bind, Except.bind] at h
  split at h
  · cases h
  · split at h
    · cases h
    · rename_i last hlast
      exact ⟨last, hlast⟩

omit [Decoders] in
/-- Whether a scanner starts does not depend on the place where it starts. -/
theorem start_cursor {s : Scanner} (h : Scanner.start c given = .ok s) (d : Cursor) :
    Scanner.start d given = .ok { s with cursor := d } := by
  obtain rfl := start_eq_ok h
  simp only [Scanner.start, bind, Except.bind] at h ⊢
  split at h
  · cases h
  · split at h
    · cases h
    · rfl

/-- At the start, the outlook is the meaning of the header. -/
theorem outlook_start {s : Scanner} (h : Scanner.start c given = .ok s) :
    (s.outlook []).map Value.ofEntries = (meaning given c.rest).toOption := by
  obtain rfl := start_eq_ok h
  rw [Scanner.outlook, Scanner.wordAhead_of_none rfl, meaning]
  change ((items given.readsWord given.fallback (content c.rest)).toOption.map _).map _ = _
  cases items given.readsWord given.fallback (content c.rest) with
  | error fault => rfl
  | ok is => simp [Except.toOption, Functor.map, Except.map]

omit [Decoders] in
theorem holds_start {s : Scanner} (h : Scanner.start c given = .ok s) :
    s.Coherent ∧ s.Holds [] := by
  obtain rfl := start_eq_ok h
  exact ⟨.of_closed rfl rfl, .nil, .nil, by simp⟩

/-- With good settings, a header has the value that it means, or no value where it means none. -/
theorem toOption_readAt {s : Scanner} (h : Scanner.start c given = .ok s) :
    (readAt c given).1.result.toOption = (meaning given c.rest).toOption := by
  obtain ⟨hs, hg⟩ := holds_start h
  rw [← outlook_start h, ← Scanner.value?_readValue hs hg]
  simp only [readAt, h]
  cases s.readValue <;> rfl

/-- Settings that are refused are a fault in front of every octet, and the cursor stays. -/
theorem readAt_of_start_error {fault : Fault} (h : Scanner.start c given = .error fault) :
    readAt c given = (.fail fault, c) := by
  rw [readAt, h]

/-- A value, its notices and the cursor after it are those of a scanner that was started there. -/
theorem readAt_of_ok (h : (readAt c given).1.result = .ok v) :
    ∃ s t, Scanner.start c given = .ok s ∧ s.readValue = .ok v t ∧
      readAt c given = (⟨.ok v, t.notices.toList⟩, t.cursor) := by
  cases hstart : Scanner.start c given with
  | error fault =>
    rw [readAt_of_start_error hstart] at h
    cases h
  | ok s =>
    simp only [readAt, hstart] at h ⊢
    cases hread : s.readValue with
    | error fault t =>
      rw [hread] at h
      cases h
    | ok w t =>
      rw [hread] at h
      cases h
      exact ⟨s, t, rfl, hread, rfl⟩

theorem readAt_of_meaning {s : Scanner} (hstart : Scanner.start c given = .ok s)
    (h : meaning given c.rest = .ok v) : (readAt c given).1.result = .ok v := by
  rw [eq_ok_iff_toOption, toOption_readAt hstart, ← eq_ok_iff_toOption]
  exact h

theorem meaning_of_readAt (h : (readAt c given).1.result = .ok v) :
    meaning given c.rest = .ok v := by
  obtain ⟨s, -, hstart, -, -⟩ := readAt_of_ok h
  rw [eq_ok_iff_toOption, ← toOption_readAt hstart, ← eq_ok_iff_toOption]
  exact h

/-- A header that is read has the shape that its entries ask for. -/
theorem ofEntries_of_readAt (h : (readAt c given).1.result = .ok v) :
    Value.ofEntries v.entries = v := by
  obtain ⟨is, -, rfl⟩ := map_eq_ok (meaning_of_readAt h)
  rw [Value.entries_ofEntries]

/-- A header has a value where the settings are good and its octets have a meaning, and the value is
that meaning. -/
theorem readAt_eq_ok_iff_meaning :
    (readAt c given).1.result = .ok v ↔
      (∃ s, Scanner.start c given = .ok s) ∧ meaning given c.rest = .ok v := by
  constructor
  · intro h
    obtain ⟨s, -, hstart, -, -⟩ := readAt_of_ok h
    exact ⟨⟨s, hstart⟩, meaning_of_readAt h⟩
  · rintro ⟨⟨s, hstart⟩, h⟩
    exact readAt_of_meaning hstart h

omit [Decoders] in
/-- A comma between two words and a comma in an encoded one; then a fold, a carriage return within a
word, two octets that begin no encoded word, and another header. -/
theorem meaning_of_encoded_comma :
    let c : Cursor :=
      .ofOctets [0x61, 0x2C, 0x20, 0x3D, 0x3F, 0x75, 0x74, 0x66, 0x2D, 0x38, 0x3F, 0x71,
      0x3F, 0x62, 0x3D, 0x32, 0x43, 0x3F, 0x3D, 0x0D, 0x0A, 0x09, 0x63, 0x0D, 0x64, 0x20,
      0x3D, 0x3F, 0x78, 0x0A, 0x79]
    let v : Value := .list ["a", "b, cd =?x"]
    @meaning .none {} c.rest = .ok v ∧ (@readAt .none c {}).1.result = .ok v := by
  intro c v
  have hmeaning : @meaning .none {} c.rest = .ok v := by
    rw [eq_ok_iff_toOption]
    decide +kernel
  exact ⟨hmeaning, (@readAt_eq_ok_iff_meaning .none c {} v).2 ⟨⟨_, rfl⟩, hmeaning⟩⟩

end Header

end HeaderList
