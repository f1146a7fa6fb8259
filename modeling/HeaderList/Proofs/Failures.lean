import HeaderList.Proofs.Scanner.Fragments

/-!
# `HeaderList/Proofs/Failures.lean` — what a word that fails leaves behind

A word that does not decode stops the scanner, and whoever called it may call it again. The
scanner is almost as it was before the word: its places, its entries and its settings are the
same, the word is still open, and the next call tries it once more. But the space in front of the
word was pushed before the word was decoded, and it is not taken back. So every failure leaves one
space more, and words that should have one space between them get as many as there were failures.
There are never more of them (`Watched.keeps_afterCalls`), and a word at the end that keeps
failing makes it as many (`Scanner.afterCalls_of_stuck`).
-/

set_option autoImplicit false

namespace HeaderList

/-! ## Calls that may fail

Calls that go on after a failure are a recursion of their own, over any state and any call. The
failures are counted, since the spaces are bounded by their number. -/

section

variable {σ α : Type} {call : σ → EStateM.Result Fault σ α} {s t : σ}

/-- The state after so many calls, and how many of them have failed. A call that fails is followed
by the next one all the same. -/
def afterCalls (call : σ → EStateM.Result Fault σ α) : Nat → σ → σ × Nat
  | 0, s => (s, 0)
  | n + 1, s =>
    match call s with
    | .ok _ t => afterCalls call n t
    | .error _ t => ((afterCalls call n t).1, (afterCalls call n t).2 + 1)

theorem afterCalls_of_ok {a : α} (h : call s = .ok a t) (n : Nat) :
    afterCalls call (n + 1) s = afterCalls call n t := by
  rw [afterCalls, h]

theorem afterCalls_of_error {fault : Fault} (h : call s = .error fault t) (n : Nat) :
    afterCalls call (n + 1) s = ((afterCalls call n t).1, (afterCalls call n t).2 + 1) := by
  rw [afterCalls, h]

end

variable [Decoders]

namespace Watched

/-- A scanner that is watched is called as it would be alone. -/
theorem afterCalls_unwatched (n : Nat) (w : Watched) :
    afterCalls Scanner.readValue n w.scanner =
      ((afterCalls readValue n w).1.scanner, (afterCalls readValue n w).2) := by
  induction n generalizing w with
  | zero => rfl
  | succ n ih =>
    have hcalled := unwatched_readValue w
    cases hread : readValue w with
    | ok v u =>
      rw [hread] at hcalled
      rw [afterCalls_of_ok hcalled.symm, afterCalls_of_ok hread]
      exact ih u
    | error fault u =>
      rw [hread] at hcalled
      rw [afterCalls_of_error hcalled.symm, afterCalls_of_error hread, ih u]

/-- No more spaces come together than there were failures, but for the one that belongs there. -/
theorem keeps_afterCalls {w : Watched} {k : Nat} (h : Keeps (max 1 k) k w) (n : Nat) :
    Keeps (max 1 (k + (afterCalls readValue n w).2)) (k + (afterCalls readValue n w).2)
      (afterCalls readValue n w).1 := by
  induction n generalizing w k with
  | zero => exact h
  | succ n ih =>
    -- a call that starts after `k` failures may be one more
    have hcalled := leaves_readValue (h.mono (by omega) (Nat.le_refl k))
    cases hread : readValue w with
    | ok v u =>
      rw [afterCalls_of_ok hread]
      exact ih ((hcalled.of_ok hread).mono (Nat.zero_le _) (Nat.zero_le k))
    | error fault u =>
      have hmost : k + 1 ≤ max 1 (k + 1) := Nat.le_max_right _ _
      have hlater := ih ((hcalled.of_error hread).mono hmost (Nat.le_refl _))
      rw [Nat.add_assoc, Nat.add_comm 1] at hlater
      rw [afterCalls_of_error hread]
      exact hlater

end Watched

namespace Scanner

variable {s t : Scanner} {fault : Fault} {spaced : Bool}

/-! ## A word that fails

Closing a word is the only thing that a scanner does to a plain word that can fail, so what is
left behind is told by one definition (`stuck`). -/

/-- A word that fails was open, and the scanner is stuck at it. -/
theorem stuck_of_closeWord (h : closeWord spaced s = .error fault t) :
    ∃ start, s.wordStart = some start ∧ (s.reads (s.wordOctets start)).result = .error fault ∧
      t = s.stuck (s.reads (s.wordOctets start)) := by
  cases hstart : s.wordStart with
  | none =>
    rw [closeWord_of_none hstart] at h
    cases h
  | some start =>
    rw [closeWord_eq hstart] at h
    dsimp only at h
    cases hword : (s.reads (s.wordOctets start)).result with
    | ok text =>
      rw [hword] at h
      cases h
    | error reason =>
      rw [hword] at h
      cases h
      exact ⟨start, rfl, hword, rfl⟩

theorem kept_of_closeWord (h : closeWord spaced s = .error fault t) :
    (t.cursor = s.cursor ∧ t.wordStart = s.wordStart ∧ t.wordEnd = s.wordEnd ∧
      t.atWordStart = s.atWordStart ∧ t.entries = s.entries) ∧
    t.fragments = if s.fragments.isEmpty then s.fragments else s.fragments.push gap := by
  obtain ⟨start, -, -, rfl⟩ := stuck_of_closeWord h
  exact ⟨⟨rfl, rfl, rfl, rfl, rfl⟩, rfl⟩

/-- An open word that does not read fails. -/
theorem closeWord_of_unread {start : Nat} (hstart : s.wordStart = some start)
    (h : (s.reads (s.wordOctets start)).result.toOption = none) (spaced : Bool) :
    ∃ fault, closeWord spaced s = .error fault (s.stuck (s.reads (s.wordOctets start))) := by
  rw [closeWord_eq hstart]
  dsimp only
  cases hword : (s.reads (s.wordOctets start)).result with
  | error fault => exact ⟨fault, rfl⟩
  | ok text =>
    rw [hword] at h
    cases h

/-- What has failed once fails again, since nothing that it is read by has changed. -/
theorem closeWord_of_stuck (h : closeWord spaced s = .error fault t) :
    ∃ again u, closeWord spaced t = .error again u := by
  obtain ⟨start, hstart, hfails, rfl⟩ := stuck_of_closeWord h
  have hunread : (s.reads (s.wordOctets start)).result.toOption = none := by
    rw [hfails]
    rfl
  obtain ⟨again, hagain⟩ :=
    closeWord_of_unread (s := s.stuck (s.reads (s.wordOctets start))) hstart hunread spaced
  exact ⟨again, _, hagain⟩

/-- A scanner that has come to the end with a word that fails pushes a space in every call. -/
theorem afterCalls_of_stuck (hend : s.cursor.rest = []) (hsome : s.fragments.isEmpty = false)
    (h : closeWord false s = .error fault t) (n : Nat) :
    (afterCalls readValue n s).1.fragments.toList = s.fragments.toList ++ List.replicate n gap ∧
      (afterCalls readValue n s).2 = n := by
  induction n generalizing s t fault with
  | zero => simp [afterCalls]
  | succ n ih =>
    have hread : readValue s = .error fault t := by
      rw [readValue_eq, step_of_nil hend]
      simp only [answer, h]
    obtain ⟨⟨hcursor, -⟩, hpushed⟩ := kept_of_closeWord h
    rw [hsome, if_neg Bool.false_ne_true] at hpushed
    -- the next call comes to the same word and fails at it, with one space more
    obtain ⟨again, u, hagain⟩ := closeWord_of_stuck h
    obtain ⟨hspaces, hfailed⟩ :=
      ih (hcursor ▸ hend) (by rw [hpushed]; exact Array.isEmpty_push) hagain
    rw [afterCalls_of_error hread]
    refine ⟨?_, congrArg Nat.succ hfailed⟩
    rw [hspaces, hpushed, Array.toList_push, List.append_assoc]
    rfl

/-- A word that fails leaves the scanner as it was, but for the space in front of the word if
there is a fragment before it. Over any number of calls, failed or not, the fragments are the
texts of words and spaces between them; there is no space at the front, and no more of them
come together than calls have failed, or else one. This is how many there are where the last
word of the header keeps failing. -/
theorem spaces_of_failures :
    (∀ (s t : Scanner) (spaced : Bool) (fault : Fault), closeWord spaced s = .error fault t →
      (t.cursor = s.cursor ∧ t.wordStart = s.wordStart ∧ t.wordEnd = s.wordEnd ∧
        t.atWordStart = s.atWordStart ∧ t.entries = s.entries) ∧
      t.fragments = if s.fragments.isEmpty then s.fragments else s.fragments.push gap) ∧
    (∀ (c : Cursor) (given : Settings) (s t : Scanner) (n failed : Nat), start c given = .ok s →
      afterCalls readValue n s = (t, failed) →
      ∃ fs, afterCalls Watched.readValue n ⟨s, []⟩ = (⟨t, fs⟩, failed) ∧
        t.fragments.toList = fs.map Fragment.text ∧ fs.head? ≠ some .space ∧
        ∀ k, List.replicate k .space <:+: fs → k ≤ max 1 failed) ∧
    ∀ (s t : Scanner) (fault : Fault), s.cursor.rest = [] → s.fragments.isEmpty = false →
      closeWord false s = .error fault t → ∀ n,
        (afterCalls readValue n s).1.fragments.toList = s.fragments.toList ++ List.replicate n gap ∧
          (afterCalls readValue n s).2 = n := by
  refine ⟨fun s t spaced fault h => kept_of_closeWord h,
    fun c given s t n failed hstart hcalls => ?_,
    fun s t fault hend hsome h n => afterCalls_of_stuck hend hsome h n⟩
  have hbare : Watched.Keeps (max 1 0) 0 ⟨s, []⟩ := by
    obtain rfl := Header.start_eq_ok hstart
    exact ⟨rfl, .nil _ _⟩
  have hkept := Watched.keeps_afterCalls hbare n
  have hwatched := Watched.afterCalls_unwatched n ⟨s, []⟩
  rw [hcalls] at hwatched
  generalize hlast : afterCalls Watched.readValue n ⟨s, []⟩ = last at hkept hwatched
  obtain ⟨⟨u, fs⟩, count⟩ := last
  obtain ⟨rfl, rfl⟩ := Prod.mk.inj hwatched
  rw [Nat.zero_add] at hkept
  exact ⟨fs, rfl, hkept.told, hkept.spaced.front, hkept.spaced.within⟩

omit [Decoders] in
/-- A header of two words, the second of which is an octet that is no character and is not mended.
The scanner has come to the end of it, and a scanner that starts with it is called two times. -/
theorem spaces_of_two_failures :
    let c : Cursor := .ofOctets [0x61, 0x20, 0xFF]
    let given : Settings := { errors := .text "strict" }
    let s : Scanner :=
      { cursor := { c with pos := 3 }
        charset := .text "utf-8"
        errors := .text "strict"
        fallback := .null
        wordStart := some 2
        wordEnd := some 3
        atWordStart := false
        fragments := #["a"] }
    (∃ fault t, @closeWord .none false s = .error fault t ∧ t.wordStart = some 2 ∧
      t.fragments = #[("a" : Text), gap]) ∧
    (∃ s₀ t fs, start c given = .ok s₀ ∧ afterCalls (@readValue .none) 2 s₀ = (t, 2) ∧
      t.fragments.toList = fs.map Fragment.text ∧ ∀ k, List.replicate k .space <:+: fs → k ≤ 2) ∧
    ∀ n, (afterCalls (@readValue .none) n s).1.fragments.toList =
      ("a" : Text) :: List.replicate n gap := by
  intro c given s
  obtain ⟨hone, hmany, hend⟩ := @spaces_of_failures .none
  obtain ⟨fault, hfails⟩ := @closeWord_of_unread .none s 2 rfl (by decide +kernel) false
  obtain ⟨⟨-, hopen, -⟩, hpushed⟩ := hone s _ false fault hfails
  obtain ⟨s₀, hstart⟩ : ∃ s₀, start c given = .ok s₀ := ⟨_, rfl⟩
  have hfailed : (afterCalls (@readValue .none) 2 s₀).2 = 2 := by
    obtain rfl := Header.start_eq_ok hstart
    decide +kernel
  obtain ⟨fs, -, htold, -, hspaces⟩ := hmany c given s₀ _ 2 2 hstart (Prod.ext rfl hfailed)
  exact ⟨⟨fault, _, hfails, hopen, hpushed⟩,
    ⟨s₀, _, fs, hstart, Prod.ext rfl hfailed, htold, hspaces⟩,
    fun n => (hend s _ fault rfl rfl hfails n).1⟩

omit [Decoders] in
/-- In the same header a failure does make a difference to the fragments, and after the second one
there are two spaces together. -/
theorem two_spaces_between_words :
    let c : Cursor := .ofOctets [0x61, 0x20, 0xFF]
    let given : Settings := { errors := .text "strict" }
    let s : Scanner :=
      { cursor := { c with pos := 3 }
        charset := .text "utf-8"
        errors := .text "strict"
        fallback := .null
        wordStart := some 2
        wordEnd := some 3
        atWordStart := false
        fragments := #["a"] }
    (∃ fault t, @closeWord .none false s = .error fault t ∧ t.fragments ≠ s.fragments) ∧
    ∃ s₀, start c given = .ok s₀ ∧
      [.space, .space] <:+: (afterCalls (@Watched.readValue .none) 2 ⟨s₀, []⟩).1.fragments := by
  intro c given s
  obtain ⟨fault, hfails⟩ := @closeWord_of_unread .none s 2 rfl (by decide +kernel) false
  refine ⟨⟨fault, _, hfails, by decide⟩, _, rfl, ?_⟩
  have hfragments : (afterCalls (@Watched.readValue .none) 2
      ⟨{ cursor := c, charset := .text "utf-8", errors := .text "strict", fallback := .null },
        []⟩).1.fragments = [.read "a", .space, .space] := by
    decide +kernel
  exact ⟨[.read "a"], [], hfragments.symm⟩

end Scanner

end HeaderList
