import HeaderList.Proofs.Scanner.Attempt
import HeaderList.Proofs.Scanner.Continuation
import HeaderList.Proofs.Transport

/-!
# `HeaderList/Proofs/Folding.lean` — a folded line is a space

White space in a header can be of any length and go over a line end. Where it has a blank, it
says no more than one space does (`read_folded`): what stands in front of it is closed or left
open alike, whatever state that is, and what comes after is read alike. The two headers have
the same value or the same fault.

The encoded words in front have to be the same in both headers. A word that is cut off by the
white space may become complete behind it, as the payload may have spaces; so it is asked of every
place in front of the white space where an encoded word can be looked for that what is found there
does not depend on what comes after (`attempt`).
-/

set_option autoImplicit false

namespace HeaderList

/-! ## White space

A scanner goes over folding white space octet by octet and changes in one thing only,
whether the next octet begins a word. Any blank settles that, so it makes no difference
how much white space there is. -/

theorem head?_folding {f : Octets} (hf : IsFolding f) (hne : f ≠ []) (more : Octets) :
    (f ++ more).head? ≠ some Octet.question := by
  cases f with
  | nil => exact absurd rfl hne
  | cons b f =>
    rw [List.cons_append, List.head?_cons]
    intro hb
    rw [Option.some.inj hb] at hf
    rcases hf.1 with hb | hb | ⟨hb, -⟩ <;> exact absurd hb (by decide)

namespace Scanner

variable [Decoders] {s t : Scanner} {f g l : Octets}

/-- Over folding white space, all that happens is that the next octet begins a word, unless
there are carriage returns only. -/
theorem readValue_folding (hf : IsFolding f) (hs : Valid s)
    (h : Header.content s.cursor.rest = f ++ l) :
    ∃ t, readValue s = readValue t ∧
      Agree { s with atWordStart := s.atWordStart || f.any (· != Octet.cr) } t ∧
      Header.content t.cursor.rest = l ∧ Valid t := by
  -- on the white space; the flag is set by the first octet that is no carriage return
  induction f generalizing s with
  | nil => exact ⟨s, rfl, ⟨rfl, rfl, rfl, rfl, by simp, rfl, rfl⟩, h, hs⟩
  | cons b f ih =>
    obtain ⟨hb, hf⟩ := hf
    rw [List.cons_append] at h
    obtain ⟨bs, hrest, hend, hline⟩ := Header.content_eq_cons h
    have hmoved : Header.content s.moved.cursor.rest = f ++ l := by
      rw [moved, EncodedWord.rest_of_octet hrest, hline]
    by_cases hcr : b = Octet.cr
    · subst hcr
      have hstep := step_of_cr hrest
      obtain ⟨t, hread, hagree, hleft, ht⟩ := ih hf (hs.step hstep) hmoved
      exact ⟨t, (readValue_of_step hstep).trans hread, (s.agree_moved.withFlag _).trans hagree,
        hleft, ht⟩
    · have hwhite : Octet.isBlank b = true ∨ (b = Octet.lf ∧ Header.endsBefore bs = false) := by
        rcases hb with hb | hb | hb
        · exact Or.inl hb
        · exact absurd hb hcr
        · exact Or.inr ⟨hb.1, by simpa [hb.1] using hend⟩
      have hstep := step_of_white hrest hwhite
      obtain ⟨t, hread, hagree, hleft, ht⟩ := ih hf (hs.step hstep) hmoved
      refine ⟨t, (readValue_of_step hstep).trans hread, ?_, hleft, ht⟩
      have hflag : (s.atWordStart || (b :: f).any (· != Octet.cr)) = true := by simp [hcr]
      rw [hflag]
      exact (s.agree_moved.withFlag true).trans hagree

/-- With a blank in it, any folding white space comes to the same. -/
theorem outcome_of_foldings (hf : IsFolding f) (hg : IsFolding g)
    (hfblank : ∃ b ∈ f, Octet.isBlank b = true) (hgblank : ∃ b ∈ g, Octet.isBlank b = true)
    (h : Agree s t) (hs : Valid s) (ht : Valid t) (hline : Header.content s.cursor.rest = f ++ l)
    (hline' : Header.content t.cursor.rest = g ++ l) :
    outcome (readValue s) = outcome (readValue t) := by
  have hflag : ∀ {f : Octets} {flag : Bool}, (∃ b ∈ f, Octet.isBlank b = true) →
      (flag || f.any (· != Octet.cr)) = true := by
    rintro f flag ⟨b, hb, hblank⟩
    have hcr : b ≠ Octet.cr := by
      rintro rfl
      exact absurd hblank (by decide)
    rw [Bool.or_eq_true, List.any_eq_true]
    exact Or.inr ⟨b, hb, by simpa using hcr⟩
  obtain ⟨u, hread, hu, hleft, hu'⟩ := readValue_folding hf hs hline
  obtain ⟨v, hread', hv, hleft', hv'⟩ := readValue_folding hg ht hline'
  rw [hflag hfblank] at hu
  rw [hflag hgblank] at hv
  have huv : Agree u v := hu.symm.trans ((h.withFlag true).trans hv)
  have halike : Alike [] u v := ⟨huv, by rw [hleft, hleft', List.append_nil]⟩
  rw [hread, hread', outcome_readValue halike .nil hu' hv']

end Scanner

/-! ## Headers

The octets in front are read alike by `Scanner/Continuation`, with the white space left to
go over in both headers. It need not end the word in front: both scanners are left in the
same situation, whatever that is. -/

/-- Folding white space with a blank in it reads like one space, behind any octets that do not end
with a line feed and in front of any others, as long as the encoded words of those in front do not
depend on it. The two headers have the same value, or the same fault. -/
theorem read_folded [Decoders] {a f b : Octets} {given : Settings} (ha : a.getLast? ≠ some Octet.lf)
    (hf : IsFolding f) (hblank : ∃ x ∈ f, Octet.isBlank x = true)
    (hattempts : ∀ w, w <:+ a → [Octet.equals, Octet.question] <+: w →
      attempt given.fallback (w ++ (f ++ b)) = attempt given.fallback w ∧
      attempt given.fallback (w ++ Octet.space :: b) = attempt given.fallback w) :
    (Header.read (.octets (a ++ (f ++ b))) given).result =
      (Header.read (.octets (a ++ Octet.space :: b)) given).result := by
  have hspace : IsFolding [Octet.space] := by decide
  have hline : ∀ {g : Octets}, IsFolding g → Header.content (g ++ b) = g ++ Header.content b :=
    fun hg => content_folding hg b
  have hfne : f ≠ [] := by
    rintro rfl
    obtain ⟨x, hx, -⟩ := hblank
    cases hx
  have hfolded : Settles given.fallback a (Header.content (f ++ b)) := by
    refine settles_of_attempt ?_ (Header.isPrefix_content _) fun w hw hq => (hattempts w hw hq).1
    rw [hline hf]
    exact head?_folding hf hfne _
  have hspaced : Settles given.fallback a (Header.content ([Octet.space] ++ b)) := by
    refine settles_of_attempt ?_ (Header.isPrefix_content _) fun w hw hq => (hattempts w hw hq).2
    rw [hline hspace]
    exact head?_folding hspace (List.cons_ne_nil _ _) _
  refine Header.result_readAt_of_endings ha hfolded hspaced fun s t hagree hs ht hleft hleft' => ?_
  exact Scanner.outcome_of_foldings hf hspace hblank ⟨_, List.mem_cons_self, rfl⟩ hagree hs ht
    (hleft.trans (hline hf)) (hleft'.trans (hline hspace))

/-- A line that is folded, with carriage returns on both sides of the blanks, behind an open word
that is not an encoded one after all. -/
theorem folded_behind_open_word :
    let a : Octets :=
      [0x78, 0x20, 0x3D, 0x3F, 0x75, 0x74, 0x66, 0x2D, 0x38, 0x3F, 0x71, 0x3F, 0x61, 0x3F, 0x3D,
      0x20, 0x3D, 0x3F, 0x79]
    let f : Octets := [0x0D, 0x0A, 0x20, 0x09, 0x0D]
    let b : Octets := [0x7A, 0x2C, 0x7A]
    (@Header.read .none (.octets (a ++ (f ++ b))) {}).result = .ok (.list ["x a =?y z", "z"]) ∧
      (@Header.read .none (.octets (a ++ Octet.space :: b)) {}).result =
        .ok (.list ["x a =?y z", "z"]) := by
  intro a f b
  have hplaces : ∀ n ≤ a.length, [Octet.equals, Octet.question] <+: a.drop n → n = 2 ∨ n = 16 := by
    decide
  have hattempts : ∀ w, w <:+ a → [Octet.equals, Octet.question] <+: w →
      @attempt .none .null (w ++ (f ++ b)) = @attempt .none .null w ∧
      @attempt .none .null (w ++ Octet.space :: b) = @attempt .none .null w := by
    have hword : ∀ more ∈ [[], f ++ b, Octet.space :: b],
        @attempt .none .null (a.drop 2 ++ more) = .ok (some ("a", 13)) := by
      simp only [eq_ok_iff_toOption]
      decide +kernel
    have hnone : ∀ more ∈ [[], f ++ b, Octet.space :: b],
        @attempt .none .null (a.drop 16 ++ more) = .ok none := by
      simp only [eq_ok_iff_toOption]
      decide +kernel
    intro w hw hq
    rw [List.suffix_iff_eq_drop] at hw
    rw [hw] at hq ⊢
    rcases hplaces _ (Nat.sub_le _ _) hq with hn | hn
    · have halone := hword [] (by simp)
      rw [List.append_nil] at halone
      rw [hn, halone]
      exact ⟨hword _ (by simp), hword _ (by simp)⟩
    · have halone := hnone [] (by simp)
      rw [List.append_nil] at halone
      rw [hn, halone]
      exact ⟨hnone _ (by simp), hnone _ (by simp)⟩
  have hspaced : (@Header.read .none (.octets (a ++ Octet.space :: b)) {}).result =
      .ok (.list ["x a =?y z", "z"]) := by
    rw [eq_ok_iff_toOption]
    decide +kernel
  refine ⟨?_, hspaced⟩
  rw [@read_folded .none a f b {} (by decide) (by decide) ⟨0x20, by decide, by decide⟩ hattempts,
    hspaced]

end HeaderList
