import HeaderList.Proofs.Scanner.Agreement

/-!
# `HeaderList/Proofs/Scanner/Attempt.lean` — what is found at an equals sign

Where a word may begin, the scanner looks for an encoded word, and it may look as far as the
octets go. What is found there can depend on octets that come long after: a word that is cut
off where a header is cut may be whole in the whole header. Laws on headers that are put
together ask that it does not, and they ask it of attempts alone: the text that is found and
the place where it ends, or that there is none (`attempt`). What the scanner needs to know
follows from that (`settles_of_attempt`).
-/

set_option autoImplicit false

namespace HeaderList

variable [Decoders] {fallback : Datum}

/-- The text of the encoded word that octets begin with, and where it ends, or
nothing where there is none. -/
def attempt (fallback : Datum) (bs : Octets) : Except Fault (Option (Text × Nat)) :=
  let (found, c) := EncodedWord.decodeAt? fallback ⟨bs.toArray, 1, 0⟩
  found.result.map fun t => t.map (·, c.pos)

theorem attempt_of_body {w : EncodedWord} (hw : w.Legible) (tail : Octets) :
    attempt fallback (Octet.equals :: (w.body ++ tail)) =
      (w.decode? fallback).map fun t => t.map (·, 1 + w.body.length) := by
  obtain ⟨hresult, hcursor⟩ := EncodedWord.decodeAt?_of_body fallback
    (c := ⟨(Octet.equals :: (w.body ++ tail)).toArray, 1, 0⟩) hw rfl
  rw [attempt]
  dsimp only
  rw [hresult, hcursor, Cursor.skip_pos]

theorem attempt_of_not_begins {rest : Octets} (h : ¬ EncodedWord.Begins rest) :
    attempt fallback (Octet.equals :: rest) = .ok none := by
  have hresult := EncodedWord.decodeAt?_of_not_begins fallback
    (c := ⟨(Octet.equals :: rest).toArray, 1, 0⟩) h
  rw [attempt]
  dsimp only
  rw [hresult]
  rfl

theorem encodedAt_of_attempt {bs : Octets} (h : attempt fallback (Octet.equals :: bs) = .ok none) :
    encodedAt fallback (Octet.equals :: bs) = .ok none := by
  by_cases hbegins : EncodedWord.Begins bs
  · obtain ⟨w, tail, hw, rfl⟩ := hbegins
    rw [attempt_of_body hw] at h
    obtain ⟨found, hfound, hnone⟩ := map_eq_ok h
    rw [encodedAt_of_body fallback hw, hfound, Option.map_eq_none_iff.1 hnone]
    rfl
  · exact encodedAt_of_not_begins fallback hbegins

/-- Where no attempt depends on what comes after, the octets are read as they are without it. -/
theorem settles_of_attempt {bs x more : Octets} (hhead : x.head? ≠ some Octet.question)
    (hx : x <+: more) (h : ∀ w, w <:+ bs → [Octet.equals, Octet.question] <+: w →
      attempt fallback (w ++ more) = attempt fallback w) : Settles fallback bs x := by
  refine ⟨hhead, fun rest hrest => ?_⟩
  by_cases hbegins : EncodedWord.Begins rest
  · exact encodedAt_append_of_begins fallback hbegins x
  · rw [encodedAt_of_not_begins fallback hbegins]
    by_cases hquestion : rest.head? = some Octet.question
    · -- a word that is only complete behind the octets is not valid
      obtain ⟨tail, rfl⟩ := List.head?_eq_some_iff.1 hquestion
      obtain ⟨z, rfl⟩ := hx
      have hsame := h _ hrest (List.prefix_append [Octet.equals, Octet.question] tail)
      rw [attempt_of_not_begins hbegins, List.cons_append, ← List.append_assoc] at hsame
      exact encodedAt_of_longer fallback (encodedAt_of_attempt hsame)
    · refine encodedAt_of_not_begins fallback fun hlater => ?_
      have hfirst := EncodedWord.head?_of_begins hlater
      cases rest with
      | nil => exact hhead hfirst
      | cons b rest => exact hquestion hfirst

end HeaderList
