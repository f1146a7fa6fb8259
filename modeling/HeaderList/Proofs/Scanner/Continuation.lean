import HeaderList.Proofs.Scanner.Agreement
import HeaderList.Proofs.Scanner.Moves

/-!
# `HeaderList/Proofs/Scanner/Continuation.lean` — one beginning, two endings

Two headers with the same octets in front go the same way until those are used up, as long as what
comes after makes no difference to the encoded words in them. What the scanners know is then the
same, so the headers have the same answer if the endings have it, for all scanners that know the
same (`Scanner.outcome_of_endings`).

The way is that of a third scanner, which has the octets in front and nothing else. The
two are compared with it step by step and never with each other, so that it does not
matter how far their endings differ.
-/

set_option autoImplicit false

namespace HeaderList.Scanner

variable [Decoders] {s t u : Scanner} {x y : Octets}

/-! ## Going on in a header -/

/-- Is `t` the scanner `s` further on in the header? -/
structure Onward (s t : Scanner) : Prop where
  fallback : t.fallback = s.fallback
  line : Header.content t.cursor.rest <:+ Header.content s.cursor.rest

/-- A step goes on in the same header, with the same fallback charset. -/
theorem onward_step (h : step s = .ok true t) : Onward s t := by
  obtain ⟨l, -, hl⟩ := passes_step h
  exact ⟨hl.fallback, hl.line ▸ List.suffix_append l _⟩

theorem readValue_of_step (h : step s = .ok true t) : readValue s = readValue t := by
  rw [readValue_eq, h]

/-! ## Two endings -/

/-- Two scanners that are alike a third one, but for what comes after, have the same answer or the
same fault if their endings have. -/
theorem outcome_of_endings (ht : Alike x s t) (hu : Alike y s u)
    (hx : Settles s.fallback (Header.content s.cursor.rest) x)
    (hy : Settles s.fallback (Header.content s.cursor.rest) y) (hs : Valid s) (ht' : Valid t)
    (hu' : Valid u) (hend : ∀ v w, Agree v w → Valid v → Valid w →
      Header.content v.cursor.rest = x →
      Header.content w.cursor.rest = y → outcome (readValue v) = outcome (readValue w)) :
    outcome (readValue t) = outcome (readValue u) := by
  -- along the run of the third scanner
  induction s using run_induction generalizing t u with
  | head s ih =>
    by_cases hne : Header.content s.cursor.rest = []
    · exact hend t u (ht.1.symm.trans hu.1) ht' hu' (by rw [ht.2, hne, List.nil_append])
        (by rw [hu.2, hne, List.nil_append])
    · have hstep := step_together ht hx hs.coherent ht'.coherent hne
      have hstep' := step_together hu hy hs.coherent hu'.coherent hne
      rw [readValue_eq t, readValue_eq u]
      generalize hr : Scanner.step s = r at hstep hstep'
      generalize hq : Scanner.step t = q at hstep
      generalize hp : Scanner.step u = p at hstep'
      cases hstep with
      | error fault s₁ t₁ =>
        cases hstep' with
        | error _ _ u₁ => rfl
      | ok more s₁ t₁ ht₁ =>
        cases hstep' with
        | ok _ _ u₁ hu₁ =>
          cases more with
          | false => exact outcome_answer (hu₁.1.symm.trans ht₁.1)
          | true =>
            have hon := onward_step hr
            refine ih s₁ hr ht₁ hu₁ ?_ ?_ (hs.step hr) (ht'.step hq) (hu'.step hp)
            · rw [hon.fallback]
              exact hx.of_suffix hon.line
            · rw [hon.fallback]
              exact hy.of_suffix hon.line

end HeaderList.Scanner

/-! ## Headers -/

namespace HeaderList.Header

/-- A header whose last octet is no line feed goes on in what comes after, or is over before. -/
theorem content_append_cases {bs : Octets} (h : bs.getLast? ≠ some Octet.lf) :
    (content bs = bs ∧ ∀ more, content (bs ++ more) = bs ++ content more) ∨
      ∀ more, content (bs ++ more) = content bs := by
  induction bs with
  | nil => exact Or.inl ⟨rfl, fun _ => rfl⟩
  | cons b bs ih =>
    cases bs with
    | nil =>
      have hb : b ≠ Octet.lf := by simpa using h
      refine Or.inl ⟨content_cons_of_ne hb [], fun more => ?_⟩
      rw [List.cons_append, content_cons_of_ne hb]
      rfl
    | cons c bs =>
      rw [List.getLast?_cons_cons] at h
      have hends : ∀ more, endsBefore (c :: bs ++ more) = endsBefore (c :: bs) := fun _ => rfl
      by_cases hb : b = Octet.lf ∧ endsBefore (c :: bs) = true
      · obtain ⟨rfl, hend⟩ := hb
        refine Or.inr fun more => ?_
        rw [List.cons_append, content_lf hend, content_lf ((hends more).trans hend)]
      · have hb' : ∀ more, ¬ (b = Octet.lf ∧ endsBefore (c :: bs ++ more) = true) := fun more => hb
        rcases ih h with ⟨hself, hmore⟩ | hmore
        · refine Or.inl ⟨by rw [content_cons hb, hself], fun more => ?_⟩
          rw [List.cons_append, content_cons (hb' more), hmore, List.cons_append, List.cons_append,
            List.cons_append]
        · refine Or.inr fun more => ?_
          rw [List.cons_append, content_cons (hb' more), hmore, content_cons hb]

/-- Two headers that begin with the same octets have the same result if their
endings have the same answer. -/
theorem result_readAt_of_endings [Decoders] {a x y : Octets} {given : Settings}
    (ha : a.getLast? ≠ some Octet.lf) (hx : Settles given.fallback a (content x))
    (hy : Settles given.fallback a (content y))
    (hend : ∀ s t, Scanner.Agree s t → Scanner.Valid s → Scanner.Valid t →
      content s.cursor.rest = content x → content t.cursor.rest = content y →
      Scanner.outcome s.readValue = Scanner.outcome t.readValue) :
    (readAt (.ofOctets (a ++ x)) given).1.result =
      (readAt (.ofOctets (a ++ y)) given).1.result := by
  rcases content_append_cases ha with ⟨hself, hmore⟩ | hmore
  · cases hstart : Scanner.start (.ofOctets a) given with
    | error fault =>
      rw [readAt_of_start_error (start_cursor_error hstart _),
        readAt_of_start_error (start_cursor_error hstart _)]
    | ok s =>
      have hcursor : s.cursor = .ofOctets a := by rw [start_eq_ok hstart]
      have hfallback : s.fallback = given.fallback := by rw [start_eq_ok hstart]
      have hline : content s.cursor.rest = a := by rw [hcursor, Cursor.rest_ofOctets, hself]
      have halike :
          ∀ more, Scanner.Alike (content more) s { s with cursor := .ofOctets (a ++ more) } := by
        intro more
        refine ⟨agree_start hstart _, ?_⟩
        rw [hline, Cursor.rest_ofOctets, hmore]
      rw [← hfallback, ← hline] at hx hy
      rw [result_readAt_of_start (start_cursor hstart _),
        result_readAt_of_start (start_cursor hstart _)]
      exact Scanner.outcome_of_endings (halike x) (halike y) hx hy (valid_start hstart)
        (valid_start (start_cursor hstart _)) (valid_start (start_cursor hstart _)) hend
  · -- the header is over in front of both endings
    have hblanks : ∀ b ∈ ([] : Octets), Octet.isBlank b = true := by simp
    have hrest : (Cursor.ofOctets (a ++ x)).rest = [] ++ (a ++ x) := Cursor.rest_ofOctets (a ++ x)
    refine result_readAt_of_content hblanks OnlyCr.nil hrest ?_
    rw [Cursor.rest_ofOctets, List.append_nil, hmore, hmore]

end HeaderList.Header
