import HeaderList.Text.Basic

/-!
# `HeaderList/Proofs/Pieces.lean` — lists cut into pieces

Cutting a list where a separator stands is the same on octets and on the code points of a text,
and so is what becomes of the pieces: some elements are dropped, and what is then empty is left
out (`pieces`). A list can be cut twice, into parts and each part into pieces (`parts`).

Octets and texts meet where every element that separates is written as one that does, and every
other as elements that do not (`Answers`). Then it does not matter whether a list is cut before or
after it is written (`parts_flatMap`).
-/

set_option autoImplicit false

namespace HeaderList

variable {α β : Type}

/-! ## Cutting -/

section Cutting

variable {p : α → Bool} {a : α} {w l : List α}

theorem splitOnP_cons_of_pos (h : p a = true) (l : List α) :
    (a :: l).splitOnP p = [] :: l.splitOnP p := by
  rw [List.splitOnP_cons_eq_if_modifyHead, if_pos h]

theorem splitOnP_cons_of_neg (h : p a = false) (l : List α) :
    (a :: l).splitOnP p = (l.splitOnP p).modifyHead (a :: ·) := by
  rw [List.splitOnP_cons_eq_if_modifyHead, if_neg (by simp [h])]

/-- What has no separator goes to the front of the first part. -/
theorem splitOnP_append_of_not (hw : ∀ a ∈ w, p a = false) (l : List α) :
    (w ++ l).splitOnP p = (l.splitOnP p).modifyHead (w ++ ·) := by
  induction w with
  | nil =>
    rw [List.nil_append]
    cases l.splitOnP p <;> rfl
  | cons a w ih =>
    rw [List.forall_mem_cons] at hw
    rw [List.cons_append, splitOnP_cons_of_neg hw.1, ih hw.2, List.modifyHead_modifyHead]
    rfl

/-- The parts have elements of the list, and none that separates. -/
theorem mem_of_mem_splitOnP (h : w ∈ l.splitOnP p) {a : α} (ha : a ∈ w) : a ∈ l ∧ p a = false := by
  induction l generalizing w with
  | nil =>
    obtain rfl : w = [] := by simpa using h
    cases ha
  | cons b l ih =>
    cases hb : p b with
    | true =>
      rw [splitOnP_cons_of_pos hb] at h
      rcases List.mem_cons.1 h with rfl | h
      · cases ha
      · exact (ih h ha).imp_left (List.mem_cons_of_mem b)
    | false =>
      rw [splitOnP_cons_of_neg hb] at h
      -- the element becomes the first of the first part
      obtain ⟨first, others, hsplit⟩ := List.exists_cons_of_ne_nil (List.splitOnP_ne_nil p l)
      rw [hsplit, List.modifyHead_cons] at h
      rw [hsplit] at ih
      rcases List.mem_cons.1 h with rfl | h
      · rcases List.mem_cons.1 ha with rfl | ha
        · exact ⟨List.mem_cons_self, hb⟩
        · exact (ih List.mem_cons_self ha).imp_left (List.mem_cons_of_mem b)
      · exact (ih (List.mem_cons_of_mem first h) ha).imp_left (List.mem_cons_of_mem b)

theorem flatten_splitOnP (p : α → Bool) (l : List α) :
    (l.splitOnP p).flatten = l.filter (!p ·) := by
  induction l with
  | nil => rfl
  | cons a l ih =>
    cases ha : p a with
    | true =>
      rw [splitOnP_cons_of_pos ha, List.filter_cons_of_neg (by simp [ha]), ← ih, List.flatten_cons,
        List.nil_append]
    | false =>
      rw [splitOnP_cons_of_neg ha, List.filter_cons_of_pos (by simp [ha]), ← ih]
      cases hsplit : l.splitOnP p with
      | nil => exact absurd hsplit (List.splitOnP_ne_nil p l)
      | cons first others => rfl

end Cutting

/-- Whether anything is in a list does not depend on what it is mapped to. -/
theorem filter_isEmpty_map (f : α → β) (ls : List (List α)) :
    (ls.map (List.map f)).filter (!·.isEmpty) = (ls.filter (!·.isEmpty)).map (List.map f) := by
  have hempty : (fun l : List β => !l.isEmpty) ∘ List.map f = fun l : List α => !l.isEmpty := by
    funext l
    cases l <;> rfl
  rw [List.filter_map, hempty]

/-! ## Pieces -/

/-- The pieces of a list between the elements that separate, with what is kept of them. A piece of
which nothing is kept is left out. -/
def pieces (gap keep : α → Bool) (l : List α) : List (List α) :=
  ((l.splitOnP gap).map (List.filter keep)).filter (!·.isEmpty)

section Pieces

variable {gap keep : α → Bool} {a : α} {w l : List α}

theorem pieces_nil : pieces gap keep [] = [] := rfl

/-- What separates goes, and so does what is not kept. -/
theorem pieces_skip (h : gap a = true ∨ keep a = false) :
    pieces gap keep (a :: l) = pieces gap keep l := by
  cases ha : gap a with
  | true =>
    rw [pieces, splitOnP_cons_of_pos ha]
    rfl
  | false =>
    have hkeep : keep a = false := by simpa [ha] using h
    rw [pieces, splitOnP_cons_of_neg ha, pieces]
    cases l.splitOnP gap with
    | nil => rfl
    | cons first others =>
      have hfirst : (a :: first).filter keep = first.filter keep :=
        List.filter_cons_of_neg (by simp [hkeep])
      rw [List.modifyHead_cons, List.map_cons, List.map_cons, hfirst]

/-- What has no separator is a piece, if a separator or the end comes next
and something is kept of it. -/
theorem pieces_append (hw : ∀ a ∈ w, gap a = false) (hne : w.filter keep ≠ [])
    (hl : ∀ a ∈ l.head?, gap a = true) :
    pieces gap keep (w ++ l) = w.filter keep :: pieces gap keep l := by
  have hcounts : ∀ ws : List (List α), (w.filter keep :: ws).filter (!·.isEmpty) =
      w.filter keep :: ws.filter (!·.isEmpty) :=
    fun ws => List.filter_cons_of_pos (by simpa using hne)
  rw [pieces, splitOnP_append_of_not hw, pieces]
  cases l with
  | nil =>
    rw [List.splitOnP_nil, List.modifyHead_cons, List.append_nil, List.map_cons, hcounts]
    rfl
  | cons a l =>
    rw [splitOnP_cons_of_pos (hl a rfl), List.modifyHead_cons, List.append_nil, List.map_cons,
      hcounts]
    rfl

/-- A piece is not empty, and has what was kept of the list. -/
theorem mem_pieces (h : w ∈ pieces gap keep l) :
    w ≠ [] ∧ ∀ a ∈ w, a ∈ l ∧ gap a = false ∧ keep a = true := by
  obtain ⟨h, hne⟩ := List.mem_filter.1 h
  obtain ⟨part, hpart, rfl⟩ := List.mem_map.1 h
  refine ⟨by simpa using hne, fun a ha => ?_⟩
  obtain ⟨ha, hkeep⟩ := List.mem_filter.1 ha
  obtain ⟨hmem, hgap⟩ := mem_of_mem_splitOnP hpart ha
  exact ⟨hmem, hgap, hkeep⟩

/-- All that does not separate and is kept is in the pieces, in its order. -/
theorem flatten_pieces (gap keep : α → Bool) (l : List α) :
    (pieces gap keep l).flatten = l.filter fun a => !gap a && keep a := by
  rw [pieces, List.flatten_filter_not_isEmpty, ← List.filter_flatten, flatten_splitOnP,
    List.filter_filter]
  congr 1
  funext a
  rw [Bool.and_comm]

/-- Elements that come between are taken out again. -/
theorem pieces_intercalate {x : α} (hx : gap x = true) {ws : List (List α)}
    (hws : ∀ w ∈ ws, w ≠ [] ∧ ∀ a ∈ w, gap a = false ∧ keep a = true) :
    pieces gap keep ([x].intercalate ws) = ws := by
  induction ws with
  | nil => rfl
  | cons w ws ih =>
    rw [List.forall_mem_cons] at hws
    have hgap : ∀ a ∈ w, gap a = false := fun a ha => (hws.1.2 a ha).1
    have hkept : w.filter keep = w := List.filter_eq_self.2 fun a ha => (hws.1.2 a ha).2
    have hne : w.filter keep ≠ [] := by
      rw [hkept]
      exact hws.1.1
    cases ws with
    | nil =>
      have hlast := pieces_append (l := []) hgap hne (by simp)
      rw [List.append_nil, hkept] at hlast
      rw [List.intercalate_singleton, hlast, pieces_nil]
    | cons u us =>
      rw [List.intercalate_cons_cons, List.append_assoc, pieces_append hgap hne (by simpa using hx),
        List.singleton_append, pieces_skip (Or.inl hx), hkept, ih hws.2]

/-! ## Parts

What separates parts separates pieces too. Parts differ in that an empty one is left: between two
commas there may be no words, and whether that makes an entry is for others to say. -/

/-- The pieces of each part of a list. -/
def parts (stop gap keep : α → Bool) (l : List α) : List (List (List α)) :=
  (l.splitOnP stop).map (pieces gap keep)

variable {stop : α → Bool}

theorem parts_stop (h : stop a = true) :
    parts stop gap keep (a :: l) = [] :: parts stop gap keep l := by
  rw [parts, splitOnP_cons_of_pos h]
  rfl

theorem parts_of_not (hstop : ∀ a ∈ w, stop a = false) :
    parts stop gap keep w = [pieces gap keep w] := by
  rw [parts, List.splitOnP_eq_singleton hstop, List.map_singleton]

/-- What stands in front of a separator is a part by itself. -/
theorem parts_append_stop (hstop : ∀ a ∈ w, stop a = false) (ha : stop a = true) :
    parts stop gap keep (w ++ a :: l) = pieces gap keep w :: parts stop gap keep l := by
  rw [parts, List.splitOnP_append_cons_of_forall_mem hstop a ha, List.map_cons]
  rfl

/-- What the parts have was in the list, was kept, and separates neither parts nor pieces. -/
theorem mem_parts {ws : List (List α)} (hws : ws ∈ parts stop gap keep l) (hw : w ∈ ws) :
    w ≠ [] ∧ ∀ a ∈ w, a ∈ l ∧ stop a = false ∧ gap a = false ∧ keep a = true := by
  obtain ⟨part, hpart, rfl⟩ := List.mem_map.1 hws
  obtain ⟨hne, hmem⟩ := mem_pieces hw
  refine ⟨hne, fun a ha => ?_⟩
  obtain ⟨ha, hgap, hkeep⟩ := hmem a ha
  obtain ⟨ha, hstop⟩ := mem_of_mem_splitOnP hpart ha
  exact ⟨ha, hstop, hgap, hkeep⟩

/-- Nothing else is lost, and the order is that of the list. -/
theorem flatten_parts (stop gap keep : α → Bool) (l : List α) :
    (parts stop gap keep l).flatten.flatten = l.filter fun a => !stop a && (!gap a && keep a) := by
  have hparts : List.map List.flatten (parts stop gap keep l) =
      (l.splitOnP stop).map (List.filter fun a => !gap a && keep a) := by
    rw [parts, List.map_map]
    congr 1
    funext w
    exact flatten_pieces gap keep w
  rw [List.flatten_flatten, hparts, ← List.filter_flatten, flatten_splitOnP, List.filter_filter]
  congr 1
  funext a
  rw [Bool.and_comm]

theorem parts_skip (hstop : stop a = false) (h : gap a = true ∨ keep a = false) :
    parts stop gap keep (a :: l) = parts stop gap keep l := by
  rw [parts, splitOnP_cons_of_neg hstop, parts]
  cases l.splitOnP stop with
  | nil => rfl
  | cons first others => rw [List.modifyHead_cons, List.map_cons, pieces_skip h, List.map_cons]

/-- A piece goes to the front of the first part. -/
theorem parts_append (hstop : ∀ a ∈ w, stop a = false) (hw : ∀ a ∈ w, gap a = false)
    (hne : w.filter keep ≠ []) (hl : ∀ a ∈ l.head?, stop a = true ∨ gap a = true) :
    parts stop gap keep (w ++ l) = (parts stop gap keep l).modifyHead (w.filter keep :: ·) := by
  rw [parts, splitOnP_append_of_not hstop, parts]
  -- the first part of what comes next is empty, or begins with what separates
  have hfirst : ∀ first others, l.splitOnP stop = first :: others →
      ∀ a ∈ first.head?, gap a = true := by
    intro first others hsplit a ha
    cases l with
    | nil =>
      obtain ⟨rfl, -⟩ := List.cons.inj hsplit
      cases ha
    | cons b l =>
      cases hb : stop b with
      | true =>
        rw [splitOnP_cons_of_pos hb] at hsplit
        obtain ⟨rfl, -⟩ := List.cons.inj hsplit
        cases ha
      | false =>
        have hgap : gap b = true := by simpa [hb] using hl b rfl
        rw [splitOnP_cons_of_neg hb] at hsplit
        cases hrest : l.splitOnP stop with
        | nil => exact absurd hrest (List.splitOnP_ne_nil stop l)
        | cons second others' =>
          rw [hrest, List.modifyHead_cons] at hsplit
          obtain ⟨rfl, -⟩ := List.cons.inj hsplit
          cases ha
          exact hgap
  cases hsplit : l.splitOnP stop with
  | nil => rfl
  | cons first others =>
    rw [List.modifyHead_cons, List.map_cons, pieces_append hw hne (hfirst first others hsplit)]
    rfl

end Pieces

/-! ## Cutting what is written

The two alphabets are those of texts and octets. An element that separates has to be written as
one element, since writing it as two would make an empty part between them. -/

/-- Is every element that `p` is for written as one that `q` is for, and every other as
elements that it is not for? -/
def Answers (f : α → List β) (p : α → Bool) (q : β → Bool) : Prop :=
  ∀ a, (p a = true ∧ ∃ b, f a = [b] ∧ q b = true) ∨ (p a = false ∧ ∀ b ∈ f a, q b = false)

section Writing

variable {f : α → List β} {p stop gap keep : α → Bool} {q stop' gap' keep' : β → Bool}

/-- What is cut after writing is what is written after cutting. -/
theorem splitOnP_flatMap (h : Answers f p q) (l : List α) :
    (l.flatMap f).splitOnP q = (l.splitOnP p).map (List.flatMap f) := by
  induction l with
  | nil => rfl
  | cons a l ih =>
    rw [List.flatMap_cons]
    rcases h a with ⟨ha, b, hb, hq⟩ | ⟨ha, hq⟩
    · rw [hb, List.singleton_append, splitOnP_cons_of_pos hq, ih, splitOnP_cons_of_pos ha]
      rfl
    · rw [splitOnP_append_of_not hq, ih, splitOnP_cons_of_neg ha]
      cases l.splitOnP p <;> rfl

theorem splitOnP_map {g : α → β} (h : ∀ a, q (g a) = p a) (l : List α) :
    (l.map g).splitOnP q = (l.splitOnP p).map (List.map g) := by
  have hmap : List.map g = List.flatMap fun a => [g a] := by
    funext l
    exact List.map_eq_flatMap
  rw [hmap]
  refine splitOnP_flatMap (fun a => ?_) l
  cases ha : p a with
  | true => exact Or.inl ⟨rfl, g a, rfl, (h a).trans ha⟩
  | false => exact Or.inr ⟨rfl, fun b hb => by rw [List.mem_singleton.1 hb, h, ha]⟩

/-- What is dropped after writing is what is not written. -/
theorem filter_flatMap_of_answers (h : Answers f (!keep ·) (!keep' ·)) (l : List α) :
    (l.flatMap f).filter keep' = (l.filter keep).flatMap f := by
  induction l with
  | nil => rfl
  | cons a l ih =>
    rw [List.flatMap_cons, List.filter_append, ih]
    rcases h a with ⟨ha, b, hb, hq⟩ | ⟨ha, hq⟩
    · rw [hb, List.filter_cons_of_neg (by simpa using hq),
        List.filter_cons_of_neg (by simpa using ha)]
      rfl
    · rw [List.filter_eq_self.2 (by simpa using hq), List.filter_cons_of_pos (by simpa using ha),
        List.flatMap_cons]

/-- The pieces of what is written are the pieces, written. -/
theorem pieces_flatMap (hgap : Answers f gap gap') (hkeep : Answers f (!keep ·) (!keep' ·))
    (hne : ∀ a, f a ≠ []) (l : List α) :
    pieces gap' keep' (l.flatMap f) = (pieces gap keep l).map (List.flatMap f) := by
  have hfilter : List.filter keep' ∘ List.flatMap f = List.flatMap f ∘ List.filter keep := by
    funext w
    exact filter_flatMap_of_answers hkeep w
  have hempty : (fun w : List β => !w.isEmpty) ∘ List.flatMap f = fun w : List α => !w.isEmpty := by
    funext w
    cases w with
    | nil => rfl
    | cons a w => simp [hne a]
  rw [pieces, splitOnP_flatMap hgap, List.map_map, hfilter, ← List.map_map, List.filter_map, hempty,
    pieces]

/-- The parts of what is written are the parts, written. -/
theorem parts_flatMap (hstop : Answers f stop stop') (hgap : Answers f gap gap')
    (hkeep : Answers f (!keep ·) (!keep' ·)) (hne : ∀ a, f a ≠ []) (l : List α) :
    parts stop' gap' keep' (l.flatMap f) =
      (parts stop gap keep l).map (List.map (List.flatMap f)) := by
  rw [parts, splitOnP_flatMap hstop, List.map_map, parts, List.map_map]
  congr 1
  funext w
  exact pieces_flatMap hgap hkeep hne w

end Writing

end HeaderList
