import HeaderList.Proofs.Scanner.Agreement
import HeaderList.Proofs.Scanner.Fragments

/-!
# `HeaderList/Proofs/LoopHeads.lean` — the scanner at the head of its loop

A run of the scanner is a loop, and the state at its head is told by a number of fields that its
steps take turns to change: the place where the cursor is and the one it may go back to, the two
ends of the open word, whether a word may begin, the fragments, the entries. Here is what these
fields can be between two steps. The cursor is further on each time, so the loop ends
(`loop_ends`). Without an open word, a word may begin; an open word is behind the cursor and has
no octet in it that would have ended it (`AtHead`). Entries are only added (`entries_step`). Among
the fragments there is a space only where a word stands on both sides.
-/

set_option autoImplicit false

namespace HeaderList

/-! ## Loops

A loop as such: a step that says whether to go on, and the states between two steps, numbered
from the start. What is proved here holds of any loop of this kind, and is used for the scanner
and for the scanner that is watched. -/

section Loops

variable {σ : Type} {step : σ → EStateM.Result Fault σ Bool} {s t u : σ} {m n : Nat}

/-- The state at the head of a loop after so many steps, if it goes on for so long. -/
def loopHead? (step : σ → EStateM.Result Fault σ Bool) (s : σ) : Nat → Option σ
  | 0 => some s
  | n + 1 =>
    match loopHead? step s n with
    | none => none
    | some t =>
      match step t with
      | .ok true u => some u
      | _ => none

theorem loopHead?_succ_iff :
    loopHead? step s (n + 1) = some u ↔ ∃ t, loopHead? step s n = some t ∧ step t = .ok true u := by
  rw [loopHead?]
  cases loopHead? step s n with
  | none => simp
  | some t =>
    cases hstep : step t with
    | error fault v => simp [hstep]
    | ok more v => cases more <;> simp [hstep]

/-- What a step keeps holds at every head. -/
theorem loopHead?_induction {P : σ → Prop} (keeps : ∀ t u, P t → step t = .ok true u → P u)
    (hs : P s) (h : loopHead? step s n = some t) : P t := by
  induction n generalizing t with
  | zero =>
    cases h
    exact hs
  | succ n ih =>
    obtain ⟨u, hu, hstep⟩ := loopHead?_succ_iff.1 h
    exact keeps u t (ih hu) hstep

/-- What holds from one head to the next holds from each head to all later ones. -/
theorem loopHead?_later {R : σ → σ → Prop} (trans : ∀ t u v, R t u → R u v → R t v)
    (next : ∀ t u, step t = .ok true u → R t u) (ht : loopHead? step s m = some t) (hlt : m < n)
    (hu : loopHead? step s n = some u) : R t u := by
  induction n generalizing u with
  | zero => exact absurd hlt (Nat.not_lt_zero m)
  | succ n ih =>
    obtain ⟨v, hv, hstep⟩ := loopHead?_succ_iff.1 hu
    -- the earlier head is before the last but one, or it is the last but one
    rcases Nat.lt_succ_iff_lt_or_eq.1 hlt with hlt | rfl
    · exact trans t v u (ih hlt hv) (next v u hstep)
    · obtain rfl := Option.some.inj (ht.symm.trans hv)
      exact next t u hstep

theorem loopHead?_of_step (h : step s = .ok true t) (n : Nat) :
    loopHead? step s (n + 1) = loopHead? step t n := by
  induction n with
  | zero => simp only [loopHead?, h]
  | succ n ih => rw [loopHead?, ih, loopHead?]

end Loops

variable [Decoders]

/-- A scanner that is watched has the heads that it would have alone. -/
theorem Watched.loopHead?_unwatched (w : Watched) (n : Nat) :
    (loopHead? step w n).map scanner = loopHead? Scanner.step w.scanner n := by
  induction n with
  | zero => rfl
  | succ n ih =>
    rw [loopHead?, loopHead?, ← ih]
    cases loopHead? step w n with
    | none => rfl
    | some v =>
      have hstep := unwatched_step v
      cases hv : step v with
      | error fault x =>
        rw [hv] at hstep
        simp [hv, ← hstep, unwatched]
      | ok more x =>
        rw [hv] at hstep
        cases more <;> simp [hv, ← hstep, unwatched]

namespace Scanner

variable {s t : Scanner} {c : Cursor} {given : Settings} {more spaced : Bool}

/-! ## How long the loop goes on

Every step after which the loop goes on has taken an octet. -/

/-- The loop ends, at the latest when there are no octets left, and as the run does. -/
theorem loop_ends (s : Scanner) :
    ∃ n t, n ≤ s.cursor.left ∧ loopHead? step s n = some t ∧
      ((∃ u, step t = .ok false u ∧ run s = .ok () u) ∨
        ∃ fault u, step t = .error fault u ∧ run s = .error fault u) := by
  -- on the run; a step puts one more head in front
  fun_induction run s with
  | case1 s u hstep ih =>
    obtain ⟨n, t, hle, ht, hends⟩ := ih
    have hlt := left_step hstep
    exact ⟨n + 1, t, by omega, by rw [loopHead?_of_step hstep, ht], hends⟩
  | case2 s u hstep => exact ⟨0, s, Nat.zero_le _, rfl, Or.inl ⟨u, hstep, rfl⟩⟩
  | case3 s fault u hstep => exact ⟨0, s, Nat.zero_le _, rfl, Or.inr ⟨fault, u, hstep, rfl⟩⟩

/-! ## Entries

Entries are only ever added at the end. -/

theorem Closes.entries (h : Closes s spaced t) : s.entries.toList <+: t.entries.toList := by
  cases h <;> exact List.prefix_rfl

omit [Decoders] in
theorem entries_closeEntry (s : Scanner) : s.entries.toList <+: s.closeEntry.entries.toList := by
  unfold closeEntry
  split
  · exact List.prefix_rfl
  · rw [Array.toList_push]
    exact List.prefix_append _ _

/-- An entry stays where it is. -/
theorem entries_step (h : step s = .ok more t) : s.entries.toList <+: t.entries.toList := by
  cases moves_of_step h with
  | comma _ u _ closes => exact closes.entries.trans (entries_closeEntry u)
  | encoded _ _ _ _ _ _ _ _ _ _ closes => exact closes.entries
  | refused _ _ _ _ _ closes => exact closes.entries
  | between _ _ _ _ _ _ _ closes => exact closes.entries
  | _ => exact List.prefix_rfl

/-! ## The open word

A word is kept as two places, and its octets are looked up when it is closed. That they are the
octets of a word is shown along the steps: a word begins with one octet, and grows by an octet and
the carriage returns in front of it. -/

/-- Can octets be an open word? None of them would have ended it, and at the two
ends is no carriage return. -/
structure IsOpenWord (word : Octets) : Prop where
  octets : ∀ b ∈ word, Octet.isWord b = true
  first : word.head? ≠ some Octet.cr
  last : word.getLast? ≠ some Octet.cr

omit [Decoders] in
theorem isOpenWord_singleton {b : UInt8} (hb : Octet.StartsWord b) : IsOpenWord [b] where
  octets := by simpa using hb.1
  first := by simpa using hb.2
  last := by simpa using hb.2

omit [Decoders] in
theorem IsOpenWord.append {word crs : Octets} {b : UInt8} (h : IsOpenWord word) (hne : word ≠ [])
    (hcrs : ∀ b ∈ crs, b = Octet.cr) (hb : Octet.StartsWord b) :
    IsOpenWord (word ++ crs ++ [b]) where
  octets := by
    intro a ha
    rcases List.mem_append.1 ha with ha | ha
    · rcases List.mem_append.1 ha with ha | ha
      · exact h.octets a ha
      · obtain rfl := hcrs a ha
        decide
    · obtain rfl := List.mem_singleton.1 ha
      exact hb.1
  first := by
    obtain ⟨a, word, rfl⟩ := List.exists_cons_of_ne_nil hne
    exact h.first
  last := by
    rw [List.getLast?_concat]
    simpa using hb.2

/-- What holds of a scanner at the head of its loop, beside that its places fit together. The
cursor where it started was `c`. -/
structure AtHead (c : Cursor) (t : Scanner) : Prop where
  data : t.cursor.data = c.data
  behind : c.pos ≤ t.cursor.pos
  within : t.cursor.pos ≤ c.data.size
  word : ∀ start stop, t.wordStart = some start → t.wordEnd = some stop →
    c.pos ≤ start ∧ IsOpenWord (t.cursor.slice start stop)

omit [Decoders] in
/-- A word that was just opened is the octet in front of the cursor. -/
theorem AtHead.opened {b : UInt8} {bs : Octets} {u : Scanner} (hc : AtHead c s)
    (h : s.cursor.rest = b :: bs) (hb : Octet.StartsWord b) (hdata : u.cursor.data = s.cursor.data)
    (hpos : u.cursor.pos = s.cursor.pos + 1) {start stop : Nat}
    (hstart : u.opened.wordStart = some start) (hstop : u.opened.wordEnd = some stop) :
    c.pos ≤ start ∧ IsOpenWord (u.cursor.slice start stop) := by
  obtain rfl := Option.some.inj hstart
  obtain rfl := Option.some.inj hstop
  rw [hpos, Nat.add_sub_cancel, Cursor.slice_congr hdata, Cursor.slice_succ h (Nat.le_refl _),
    Cursor.slice_self]
  exact ⟨hc.behind, isOpenWord_singleton hb⟩

omit [Decoders] in
/-- A word that goes on has the carriage returns in front of the new octet inside. -/
theorem AtHead.extended {b : UInt8} {bs : Octets} (hc : AtHead c s) (hs : Coherent s)
    (h : s.cursor.rest = b :: bs) (hb : Octet.StartsWord b) (hin : s.atWordStart = false)
    {start : Nat} (hstart : s.wordStart = some start) :
    c.pos ≤ start ∧ IsOpenWord (s.cursor.slice start (s.cursor.pos + 1)) := by
  obtain ⟨stop, hstop, hlt, hle⟩ := hs.bounds start hstart
  obtain ⟨hbehind, hword⟩ := hc.word start stop hstart hstop
  have hsize : stop ≤ s.cursor.data.size := Nat.le_trans hle (hc.data ▸ hc.within)
  have hne : s.cursor.slice start stop ≠ [] := by
    apply List.ne_nil_of_length_pos
    rw [s.cursor.length_slice start hsize]
    omega
  rw [Cursor.slice_succ h (by omega), s.cursor.slice_append (Nat.le_of_lt hlt) hle]
  exact ⟨hbehind, hword.append hne (hs.tight hin stop hstop) hb⟩

/-- A step keeps the cursor in the octets, and the open word one that can be open. -/
theorem AtHead.step (hc : AtHead c s) (hs : Coherent s) (h : step s = .ok true t) : AtHead c t := by
  obtain ⟨l, -, passes⟩ := passes_step h
  have hlen := congrArg List.length passes.rest
  have hpos := passes.pos
  have hbehind := hc.behind
  have hwithin := hc.within
  refine ⟨passes.data.trans hc.data, by omega, ?_, ?_⟩
  · simp only [Cursor.rest, List.length_drop, List.length_append, Array.length_toList, passes.data,
      hc.data] at hlen
    omega
  · cases moves_of_step h with
    | white => exact hc.word
    | cr => exact hc.word
    | silent => exact hc.word
    | comma _ u _ closes =>
      intro start stop hstart
      rw [wordStart_closeEntry, closes.noWord] at hstart
      cases hstart
    | encoded _ _ _ _ u _ _ _ _ _ closes =>
      intro start stop hstart
      exact absurd (closes.noWord.symm.trans hstart) (by simp)
    | inside b bs hrest hb hin =>
      intro start stop hstart hstop
      obtain rfl := Option.some.inj hstop
      exact hc.extended hs hrest hb hin hstart
    | refused bs ns u hrest _ closes =>
      intro start stop hstart hstop
      exact hc.opened (u := u) hrest ⟨by decide, by decide⟩ (by rw [closes.cursor]; rfl)
        (by rw [closes.cursor]; rfl)
        hstart hstop
    | between b bs u hrest hb _ _ closes =>
      intro start stop hstart hstop
      exact hc.opened (u := u) hrest hb (by rw [closes.cursor]; rfl)
        (by rw [closes.cursor]; rfl) hstart hstop

/-! ## All of it -/

omit [Decoders] in
theorem atHead_start (h : start c given = .ok s) (hc : c.pos ≤ c.data.size) : AtHead c s := by
  obtain rfl := Header.start_eq_ok h
  exact ⟨rfl, Nat.le_refl _, hc, fun start stop hstart => by cases hstart⟩

/-- Is `s` at an earlier head than `t`, with the cursor further back and no
entry that `t` does not have? -/
structure Before (s t : Scanner) : Prop where
  pos : s.cursor.pos < t.cursor.pos
  entries : s.entries.toList <+: t.entries.toList

omit [Decoders] in
theorem Before.trans {u : Scanner} (h : Before s t) (h' : Before t u) : Before s u :=
  ⟨Nat.lt_trans h.pos h'.pos, h.entries.trans h'.entries⟩

/-- From one head to the next the cursor goes on, and no entry is lost. -/
theorem before_step (h : step s = .ok true t) : Before s t := by
  obtain ⟨l, hne, passes⟩ := passes_step h
  have hpos := passes.pos
  have hlen := List.length_pos_iff.2 hne
  exact ⟨by omega, entries_step h⟩

/-- Between the fragments of a head there are spaces, one at a time. -/
theorem fragments_head (hstart : start c given = .ok s) {n : Nat}
    (h : loopHead? step s n = some t) :
    ∃ fs, loopHead? Watched.step ⟨s, []⟩ n = some ⟨t, fs⟩ ∧
    t.fragments.toList = fs.map Fragment.text ∧
      Spaced 1 0 fs := by
  have hwatched := Watched.loopHead?_unwatched ⟨s, []⟩ n
  rw [h, Option.map_eq_some_iff] at hwatched
  obtain ⟨⟨u, fs⟩, hhead, rfl⟩ := hwatched
  have hbare : Watched.Keeps 1 0 ⟨s, []⟩ := by
    obtain rfl := Header.start_eq_ok hstart
    exact ⟨rfl, .nil 1 0⟩
  have hkept : Watched.Keeps 1 0 ⟨u, fs⟩ :=
    loopHead?_induction (fun _ _ hv hstep => (Watched.leaves_step hv).of_ok hstep) hbare hhead
  exact ⟨fs, hhead, hkept.told, hkept.spaced⟩

/-- The loop of a scanner that starts in the octets ends, after not more steps than there are
octets left, and with what the run ends with. At each of its heads, the cursor is in the
octets and further on than at the heads before, and the entries are those of the heads before,
with others behind them. Where no word is open a word may begin, and an open word lies between
the start and the cursor and has no octet that ends a word, nor a carriage return at one of
its ends. The fragments are texts of words and spaces between them, with no space at an end
and no two of them together. -/
theorem loop_heads (hstart : start c given = .ok s) (hc : c.pos ≤ c.data.size) :
    (∃ n t, n ≤ c.data.size - c.pos ∧ loopHead? step s n = some t ∧
      ((∃ u, step t = .ok false u ∧ run s = .ok () u) ∨
        ∃ fault u, step t = .error fault u ∧ run s = .error fault u)) ∧
    ∀ n t, loopHead? step s n = some t →
      (t.cursor.data = c.data ∧ t.cursor.pos ≤ c.data.size) ∧
      (∀ m u, m < n → loopHead? step s m = some u →
        u.cursor.pos < t.cursor.pos ∧ u.entries.toList <+: t.entries.toList) ∧
      (t.wordStart = none → t.atWordStart = true) ∧
      (∀ start, t.wordStart = some start → ∃ stop, t.wordEnd = some stop ∧ c.pos ≤ start ∧
        start < stop ∧ stop ≤ t.cursor.pos ∧ IsOpenWord (c.slice start stop)) ∧
      ∃ fs, loopHead? Watched.step ⟨s, []⟩ n = some ⟨t, fs⟩ ∧
      t.fragments.toList = fs.map Fragment.text ∧
        fs.head? ≠ some .space ∧ fs.getLast? ≠ some .space ∧ ¬ [.space, .space] <:+: fs := by
  refine ⟨?_, fun n t ht => ?_⟩
  · have hcursor : s.cursor = c := by rw [Header.start_eq_ok hstart]
    obtain ⟨n, t, hle, hends⟩ := loop_ends s
    rw [hcursor] at hle
    exact ⟨n, t, hle, hends⟩
  · obtain ⟨hhead, hvalid⟩ : AtHead c t ∧ Valid t :=
      loopHead?_induction (P := fun t => AtHead c t ∧ Valid t)
        (fun _ _ hu hstep => ⟨hu.1.step hu.2.coherent hstep, hu.2.step hstep⟩)
        ⟨atHead_start hstart hc, Header.valid_start hstart⟩ ht
    have hcoherent := hvalid.coherent
    refine ⟨⟨hhead.data, hhead.within⟩, fun m u hlt hu => ?_, hcoherent.inside,
      fun start hopen => ?_, ?_⟩
    · have hbefore :=
        loopHead?_later (fun _ _ _ h h' => h.trans h') (fun _ _ => before_step) hu hlt ht
      exact ⟨hbefore.pos, hbefore.entries⟩
    · obtain ⟨stop, hstop, hlt, hle⟩ := hcoherent.bounds start hopen
      obtain ⟨hbehind, hword⟩ := hhead.word start stop hopen hstop
      rw [Cursor.slice_congr hhead.data] at hword
      exact ⟨stop, hstop, hbehind, hlt, hle, hword⟩
    · obtain ⟨fs, hwatched, htold, hspaced⟩ := fragments_head hstart ht
      refine ⟨fs, hwatched, htold, hspaced.front, fun hlast => ?_, fun htwo => ?_⟩
      · obtain ⟨front, rfl⟩ := List.getLast?_eq_some_iff.1 hlast
        exact absurd (hspaced.atEnd 1 (List.suffix_append _ _)) (by omega)
      · exact absurd (hspaced.within 2 htwo) (by omega)

omit [Decoders] in
/-- Behind the fourth head an attempt at an encoded word goes ahead, fails and comes back. At the
last head there is an entry, and a word is open that has a carriage return inside. -/
theorem heads_of_eleven_octets :
    let c : Cursor :=
      { data := #[0x2C, 0x78, 0x20, 0x3D, 0x3F, 0x62, 0x2C, 0x20, 0x61, 0x0D, 0x62], pos := 1 }
    ∃ s t, start c {} = .ok s ∧ loopHead? (@step .none) s 10 = some t ∧
      t.cursor.pos = 11 ∧ t.wordStart = some 8 ∧ t.wordEnd = some 11 ∧
      t.entries = #[("x =?b" : Text)] ∧ IsOpenWord (c.slice 8 11) ∧
      ∀ u, loopHead? (@step .none) s 3 = some u → u.cursor.pos < 11 := by
  intro c
  obtain ⟨s, hstart⟩ : ∃ s, start c {} = .ok s := ⟨_, rfl⟩
  have hlast : (loopHead? (@step .none) s 10).map
      (fun t => (t.cursor.pos, t.wordStart, t.wordEnd, t.entries)) =
        some (11, some 8, some 11, #[("x =?b" : Text)]) := by
    obtain rfl := Header.start_eq_ok hstart
    decide +kernel
  obtain ⟨t, ht, hfields⟩ := Option.map_eq_some_iff.1 hlast
  simp only [Prod.mk.injEq] at hfields
  obtain ⟨hpos, hopen, hend, hentries⟩ := hfields
  obtain ⟨-, hheads⟩ := @loop_heads .none s c {} hstart (by decide)
  obtain ⟨-, hbefore, -, hword, -⟩ := hheads 10 t ht
  obtain ⟨stop, hstop, -, -, -, hwords⟩ := hword 8 hopen
  obtain rfl := Option.some.inj (hstop.symm.trans hend)
  exact ⟨s, t, hstart, ht, hpos, hopen, hend, hentries, hwords,
    fun u hu => hpos ▸ (hbefore 3 u (by decide) hu).1⟩

end Scanner

end HeaderList
