import HeaderList.Proofs.Scanner.Moves

/-!
# `HeaderList/Proofs/Boundary.lean` — where a header ends

A header is over at the first line feed that no blank follows, and nothing in front of that
line feed can move the place: not a word that is only tried, though the attempt may look
beyond the line, and not a carriage return. Of what comes after the place nothing is seen, but
whether it begins with a blank.

The end is told twice. `EndsAt` and `IsEnd` say it of places in octets; `Header.extent` counts the
octets of a header along the octets that are left. The scanner follows the count
(`Scanner.pos_run`), and the count is the place (`isEnd_extent`). Headers that stand one after the
other can then be read one by one (`Header.readMany`).
-/

set_option autoImplicit false

namespace HeaderList

namespace Header

/-! ## The place

Both predicates are about octets that may have any header in front of them, so a place is counted
from the first octet of all. They are decidable, and can be asked of given octets. -/

/-- Is the header over after the octet in this place? -/
def EndsAt (bs : Octets) (i : Nat) : Prop :=
  bs[i]? = some Octet.lf ∧ ∀ b, bs[i + 1]? = some b → Octet.isBlank b = false

/-- Is this the first place, from a place on, where a header is over? -/
structure FirstEnd (bs : Octets) (start i : Nat) : Prop where
  start_le : start ≤ i
  endsAt : EndsAt bs i
  first : ∀ j, start ≤ j → j < i → ¬ EndsAt bs j

instance (bs : Octets) (i : Nat) : Decidable (EndsAt bs i) :=
  decidable_of_iff (bs[i]? = some Octet.lf ∧ bs[i + 1]?.all (fun b => !Octet.isBlank b) = true)
    (by simp [EndsAt, Option.all_eq_true])

instance (bs : Octets) (start i : Nat) : Decidable (FirstEnd bs start i) :=
  decidable_of_iff (start ≤ i ∧ EndsAt bs i ∧
      ((List.range i).all fun j => decide (start ≤ j → ¬ EndsAt bs j)) = true)
    ⟨fun h => ⟨h.1, h.2.1, fun j hle hlt => by
        have hj := List.all_eq_true.1 h.2.2 j (List.mem_range.2 hlt)
        exact of_decide_eq_true hj hle⟩,
      fun h => ⟨h.start_le, h.endsAt, by
        rw [List.all_eq_true]
        intro j hj
        exact decide_eq_true fun hle => h.first j hle (List.mem_range.1 hj)⟩⟩

/-- Where a header that begins in the place `start` is over: behind the first such line feed, or
at the end of everything if there is none. -/
def IsEnd (bs : Octets) (start stop : Nat) : Prop :=
  (∃ i, FirstEnd bs start i ∧ stop = i + 1) ∨
    ((∀ i, start ≤ i → ¬ EndsAt bs i) ∧ stop = max start bs.length)

/-- In the first place it is the test that the scanner makes at a line feed. -/
theorem endsAt_cons_zero {b : UInt8} {bs : Octets} :
    EndsAt (b :: bs) 0 ↔ b = Octet.lf ∧ endsBefore bs = true := by
  cases bs with
  | nil => simp [EndsAt, endsBefore]
  | cons x bs => simp [EndsAt, endsBefore]

theorem endsAt_cons_succ {b : UInt8} {bs : Octets} {i : Nat} :
    EndsAt (b :: bs) (i + 1) ↔ EndsAt bs i := Iff.rfl

theorem endsAt_drop {bs : Octets} {n i : Nat} : EndsAt (bs.drop n) i ↔ EndsAt bs (n + i) := by
  simp only [EndsAt, List.getElem?_drop, Nat.add_assoc]

/-- Only the octet in the place and the one behind it matter. -/
theorem endsAt_congr {bs cs : Octets} {n j : Nat} (h : bs.take n = cs.take n) (hj : j + 1 < n) :
    EndsAt bs j ↔ EndsAt cs j := by
  have hsame : ∀ i, i < n → bs[i]? = cs[i]? := by
    intro i hi
    rw [← List.getElem?_take_of_lt hi, h, List.getElem?_take_of_lt hi]
  rw [EndsAt, EndsAt, hsame j (by omega), hsame (j + 1) hj]

/-- The end of a header is found in what is left from where the header begins. -/
theorem FirstEnd.zero_of_drop {bs : Octets} {start i : Nat} (h : FirstEnd bs start i) :
    FirstEnd (bs.drop start) 0 (i - start) := by
  refine ⟨Nat.zero_le _, ?_, fun j _ hj hend => ?_⟩
  · rw [endsAt_drop, Nat.add_sub_of_le h.start_le]
    exact h.endsAt
  · have hlt : start + j < i := by omega
    exact h.first (start + j) (Nat.le_add_right ..) hlt (endsAt_drop.1 hend)

/-! ## The count

The count is a recursion over the octets that are left, as a run of the scanner is one,
and every step takes some of them from the front. That is why the scanner is compared with
the count and not with the place. -/

/-- The number of octets that a header takes up, with its line feed. -/
def extent : Octets → Nat
  | [] => 0
  | b :: rest => if b = Octet.lf ∧ endsBefore rest = true then 1 else extent rest + 1

theorem extent_lf {rest : Octets} (h : endsBefore rest = true) : extent (Octet.lf :: rest) = 1 := by
  rw [extent, if_pos ⟨rfl, h⟩]

theorem extent_cons {b : UInt8} {rest : Octets} (h : ¬ (b = Octet.lf ∧ endsBefore rest = true)) :
    extent (b :: rest) = extent rest + 1 := by
  rw [extent, if_neg h]

/-- Octets that are the front of a header count in full. -/
theorem extent_append {l rest : Octets} (h : content (l ++ rest) = l ++ content rest) :
    extent (l ++ rest) = l.length + extent rest := by
  induction l with
  | nil => rw [List.nil_append, List.length_nil, Nat.zero_add]
  | cons b l ih =>
    -- the first of them does not end the header, so that what is behind it is a front too
    obtain ⟨more, hmore, hb, hline⟩ := content_eq_cons (l := l ++ content rest) h
    obtain rfl : l ++ rest = more := (List.cons.inj hmore).2
    rw [List.cons_append, extent_cons hb, ih hline, List.length_cons]
    omega

/-- A header goes up to the first line feed that ends it, and takes that one up. -/
theorem content_extent_of_firstEnd {bs : Octets} {i : Nat} (h : FirstEnd bs 0 i) :
    content bs = bs.take i ∧ extent bs = i + 1 := by
  induction bs generalizing i with
  | nil => exact absurd h.endsAt.1 (by simp)
  | cons b bs ih =>
    cases i with
    | zero =>
      obtain ⟨rfl, hend⟩ := endsAt_cons_zero.1 h.endsAt
      exact ⟨content_lf hend, extent_lf hend⟩
    | succ i =>
      have hno : ¬ (b = Octet.lf ∧ endsBefore bs = true) := fun hb =>
        h.first 0 (Nat.le_refl 0) (Nat.succ_pos i) (endsAt_cons_zero.2 hb)
      have hbs : FirstEnd bs 0 i := ⟨Nat.zero_le i, endsAt_cons_succ.1 h.endsAt, fun j _ hj hend =>
        h.first (j + 1) (Nat.zero_le _) (Nat.succ_lt_succ hj) (endsAt_cons_succ.2 hend)⟩
      obtain ⟨hcontent, hextent⟩ := ih hbs
      exact ⟨by rw [content_cons hno, hcontent, List.take_succ_cons],
        by rw [extent_cons hno, hextent]⟩

theorem extent_of_no_end {bs : Octets} (h : ∀ i, ¬ EndsAt bs i) : extent bs = bs.length := by
  induction bs with
  | nil => rfl
  | cons b bs ih =>
    have hno : ¬ (b = Octet.lf ∧ endsBefore bs = true) := fun hb => h 0 (endsAt_cons_zero.2 hb)
    rw [extent_cons hno, ih fun i hi => h (i + 1) (endsAt_cons_succ.2 hi), List.length_cons]

/-- If a header ends anywhere, there is a first place where it does. -/
theorem exists_firstEnd_of_endsAt {bs : Octets} {start i : Nat} (hle : start ≤ i)
    (h : EndsAt bs i) : ∃ j, FirstEnd bs start j := by
  -- down from one end to an earlier one, as long as there is one
  induction i using Nat.strongRecOn with
  | ind i ih =>
    by_cases hfirst : ∃ j, start ≤ j ∧ j < i ∧ EndsAt bs j
    · obtain ⟨j, hj, hlt, hend⟩ := hfirst
      exact ih j hlt hj hend
    · exact ⟨i, hle, h, fun j hj hlt hend => hfirst ⟨j, hj, hlt, hend⟩⟩

/-- The count leads to the place. -/
theorem isEnd_extent (bs : Octets) (start : Nat) :
    IsEnd bs start (start + extent (bs.drop start)) := by
  by_cases h : ∃ i, start ≤ i ∧ EndsAt bs i
  · obtain ⟨i, hle, hend⟩ := h
    obtain ⟨j, hj⟩ := exists_firstEnd_of_endsAt hle hend
    refine Or.inl ⟨j, hj, ?_⟩
    have hle := hj.start_le
    rw [(content_extent_of_firstEnd hj.zero_of_drop).2]
    omega
  · have hno : ∀ i, start ≤ i → ¬ EndsAt bs i := fun i hle hend => h ⟨i, hle, hend⟩
    refine Or.inr ⟨hno, ?_⟩
    rw [extent_of_no_end fun i hi => hno _ (Nat.le_add_right start i) (endsAt_drop.1 hi),
      List.length_drop]
    omega

/-- The place where the header under the cursor is over. -/
def stop (c : Cursor) : Nat := c.pos + extent c.rest

end Header

/-! ## The course of the scanner

The end of the header is an invariant of the run: however far a step has gone, the place that the
count leads to from there is the one that it led to before. -/

namespace Scanner

variable [Decoders] {s t : Scanner}

/-- Does the scanner `t` stand in the same header as `s`, with the same end in front of it? -/
def SameHeader (s t : Scanner) : Prop :=
  t.cursor.data = s.cursor.data ∧ Header.stop t.cursor = Header.stop s.cursor

/-- A step leaves the scanner in the same header, whatever it has looked at. -/
theorem sameHeader_step (h : step s = .ok true t) : SameHeader s t := by
  obtain ⟨l, -, hl⟩ := passes_step h
  have hline := hl.line
  rw [hl.rest] at hline
  refine ⟨hl.data, ?_⟩
  rw [Header.stop, Header.stop, hl.rest, Header.extent_append hline, hl.pos, Nat.add_assoc]

/-- The step that ends the header stands where the header is over: it has gone over the
line feed, if there is one. -/
theorem pos_last_step (h : step s = .ok false t) :
    t.cursor.data = s.cursor.data ∧ t.cursor.pos = Header.stop s.cursor := by
  cases moves_of_step h with
  | nothing hrest => exact ⟨rfl, by rw [Header.stop, hrest, Header.extent, Nat.add_zero]⟩
  | lineEnd bs hrest hb => exact ⟨rfl, by rw [Header.stop, hrest, Header.extent_lf hb]; rfl⟩

/-- A run stands where the header is over, whatever it has met on its way. -/
theorem pos_run (h : run s = .ok () t) :
    t.cursor.data = s.cursor.data ∧ t.cursor.pos = Header.stop s.cursor := by
  -- on the run; the end in front of the scanner is the same all the way
  fun_induction run s with
  | case1 s u hstep ih =>
    obtain ⟨hdata, hstop⟩ := sameHeader_step hstep
    have hrun := ih h
    rwa [hdata, hstop] at hrun
  | case2 s u hstep =>
    cases h
    exact pos_last_step hstep
  | case3 => cases h

/-- Closing the last word and the last entry does not move the cursor. -/
theorem pos_readValue {v : Value} (h : readValue s = .ok v t) :
    t.cursor.data = s.cursor.data ∧ t.cursor.pos = Header.stop s.cursor := by
  rw [readValue] at h
  split at h
  · cases h
  · rename_i u hrun
    split at h
    · cases h
    · rename_i w hc
      have e := cursor_closeWord hc
      cases h
      rw [cursor_closeEntry, e]
      exact pos_run hrun

end Scanner

namespace Header

section

variable [Decoders] {c d : Cursor} {given : Settings} {v : Value}

theorem pos_readAt (h : (readAt c given).1.result = .ok v) :
    (readAt c given).2.data = c.data ∧ (readAt c given).2.pos = stop c := by
  obtain ⟨s, t, hstart, hread, heq⟩ := readAt_of_ok h
  have hcursor : s.cursor = c := by rw [start_eq_ok hstart]
  rw [heq, ← hcursor]
  exact Scanner.pos_readValue hread

/-! ## What comes after

Octets behind the end do matter in one way: a blank there makes the line feed one that does not
end the header. So two headers are compared that are the same up to the line feed, with no blank
behind it in the other one either. -/

omit [Decoders] in
/-- Other octets behind the end leave it where it is, unless they begin with a blank. -/
theorem FirstEnd.congr {bs cs : Octets} {start i : Nat} (h : FirstEnd bs start i)
    (hsame : cs.take (i + 1) = bs.take (i + 1)) (hnext : endsBefore (cs.drop (i + 1)) = true) :
    FirstEnd cs start i := by
  refine ⟨h.start_le, ⟨?_, ?_⟩, fun j hj hlt hend => ?_⟩
  · rw [← List.getElem?_take_of_lt (Nat.lt_succ_self i), hsame,
      List.getElem?_take_of_lt (Nat.lt_succ_self i)]
    exact h.endsAt.1
  · intro b hb
    have hhead : (cs.drop (i + 1)).head? = some b := by rw [List.head?_drop, hb]
    simpa [endsBefore, hhead] using hnext
  · exact h.first j hj hlt ((endsAt_congr hsame (by omega)).1 hend)

/-- The octets of the header are all that its value is made from. -/
theorem readAt_of_content_eq (h : (readAt c given).1.result = .ok v)
    (hcontent : content d.rest = content c.rest) : (readAt d given).1.result = .ok v := by
  cases hstart : Scanner.start c given with
  | error fault =>
    rw [readAt_of_start_error hstart] at h
    cases h
  | ok s =>
    rw [eq_ok_iff_toOption, toOption_readAt hstart] at h
    rw [eq_ok_iff_toOption, toOption_readAt (start_cursor hstart d), meaning, hcontent]
    exact h

/-- Octets behind the end of a header change neither its value nor its end. -/
theorem readAt_congr {i : Nat} (h : (readAt c given).1.result = .ok v)
    (hend : FirstEnd c.data.toList c.pos i) (hpos : d.pos = c.pos)
    (hsame : d.data.toList.take (i + 1) = c.data.toList.take (i + 1))
    (hnext : endsBefore (d.data.toList.drop (i + 1)) = true) :
    (readAt d given).1.result = .ok v ∧ (readAt d given).2.pos = i + 1 := by
  have hend' : FirstEnd d.data.toList d.pos i := hpos ▸ hend.congr hsame hnext
  have hle := hend.start_le
  obtain ⟨hc, -⟩ := content_extent_of_firstEnd hend.zero_of_drop
  obtain ⟨hd, hstop⟩ := content_extent_of_firstEnd hend'.zero_of_drop
  -- both headers are in front of place `i`, where the octets are the same
  have htake : ∀ bs : Octets, (bs.drop c.pos).take (i - c.pos) =
      ((bs.take (i + 1)).drop c.pos).take (i - c.pos) := by
    intro bs
    rw [List.drop_take, List.take_take, Nat.min_eq_left (by omega)]
  have hcontent : content d.rest = content c.rest := by
    rw [Cursor.rest, Cursor.rest, hc, hd, hpos, htake, hsame, ← htake]
  have hv := readAt_of_content_eq h hcontent
  refine ⟨hv, ?_⟩
  rw [(pos_readAt hv).2, stop, Cursor.rest, hstop]
  omega

/-! ## Header after header

The condition that no header but the first begins with a blank is again about the line feed in
front of it: with a blank there the two headers would be one. -/

omit [Decoders] in
/-- A header with the line feed that ends it, and nothing after it. -/
def IsLine (h : Octets) : Prop := ∃ i, FirstEnd h 0 i ∧ h.length = i + 1

/-- The values of so many headers, each of which begins where the one before it is over. -/
def readMany (given : Settings) : Nat → Cursor → Except Fault (List Value)
  | 0, _ => .ok []
  | n + 1, c => do
    let (value, d) := readAt c given
    return (← value.result) :: (← readMany given n d)

omit [Decoders] in
/-- A line in front of other octets is still the header, and takes up what it took up alone. -/
theorem IsLine.append {h more : Octets} (hh : IsLine h) (hnext : endsBefore more = true) :
    content (h ++ more) = content h ∧ extent (h ++ more) = h.length := by
  obtain ⟨i, hfirst, hlen⟩ := hh
  have hfirst' : FirstEnd (h ++ more) 0 i := by
    refine hfirst.congr ?_ ?_
    · rw [← hlen, List.take_left, List.take_length]
    · rw [← hlen, List.drop_left]
      exact hnext
  obtain ⟨hc, -⟩ := content_extent_of_firstEnd hfirst
  obtain ⟨hc', hextent⟩ := content_extent_of_firstEnd hfirst'
  refine ⟨?_, by rw [hextent, hlen]⟩
  rw [hc, hc', List.take_append_of_le_length (by omega)]

theorem readAt_append {h more : Octets} (hv : (readAt (.ofOctets h) given).1.result = .ok v)
    (hh : IsLine h) (hnext : endsBefore more = true) (hc : c.rest = h ++ more) :
    (readAt c given).1.result = .ok v ∧ (readAt c given).2.rest = more := by
  obtain ⟨hcontent, hextent⟩ := hh.append hnext
  have hval : (readAt c given).1.result = .ok v :=
    readAt_of_content_eq hv (by rw [hc, hcontent, Cursor.rest_ofOctets])
  obtain ⟨hdata, hpos⟩ := pos_readAt hval
  refine ⟨hval, ?_⟩
  rw [stop, hc, hextent] at hpos
  have hskip : (readAt c given).2.rest = (c.skip h.length).rest := Cursor.rest_congr hdata hpos
  rw [hskip, Cursor.rest_skip_of_eq hc]

omit [Decoders] in
/-- A line has a first octet, and that one tells for all octets that begin with the line. -/
theorem endsBefore_append {h : Octets} (hh : IsLine h) (hnext : endsBefore h = true)
    {more : Octets} : endsBefore (h ++ more) = true := by
  obtain ⟨i, -, hlen⟩ := hh
  cases h with
  | nil => cases hlen
  | cons b h => exact hnext

/-- So many calls read so many lines, each as it reads alone. -/
theorem readMany_flatten {hs : List Octets} {vs : List Value} {c : Cursor}
    (hlines : ∀ h ∈ hs, IsLine h) (hnext : ∀ h ∈ hs.tail, endsBefore h = true)
    (hvs : hs.map (fun h => (readAt (.ofOctets h) given).1.result) = vs.map .ok)
    (hc : c.rest = hs.flatten) : readMany given hs.length c = .ok vs := by
  -- on the headers; the cursor has gone over those in front
  induction hs generalizing vs c with
  | nil =>
    cases vs with
    | nil => rfl
    | cons v vs => cases hvs
  | cons h hs ih =>
    cases vs with
    | nil => cases hvs
    | cons v vs =>
      obtain ⟨hv, hvs'⟩ := List.cons.inj hvs
      rw [List.forall_mem_cons] at hlines
      -- behind the line feed is the next header, or nothing
      have hmore : endsBefore hs.flatten = true := by
        cases hs with
        | nil => rfl
        | cons h' hs => exact endsBefore_append (hlines.2 h' (by simp)) (hnext h' (by simp))
      obtain ⟨hval, hrest⟩ := readAt_append hv hlines.1 hmore hc
      have hothers := ih hlines.2 (fun h' hm => hnext h' (List.mem_of_mem_tail hm)) hvs' hrest
      rw [List.length_cons, readMany]
      simp only [hval, hothers]
      rfl

/-- Header boundaries can be neither moved nor leaked across. A header that has a value is over at
the first line feed that no blank follows; octets behind that place change neither the value nor
the place; and headers that stand one after the other read as each of them does alone. -/
theorem readAt_keeps_boundaries (given : Settings) :
    (∀ c v, (readAt c given).1.result = .ok v →
      (readAt c given).2.data = c.data ∧ IsEnd c.data.toList c.pos (readAt c given).2.pos) ∧
    (∀ c d v i, (readAt c given).1.result = .ok v → FirstEnd c.data.toList c.pos i →
      d.pos = c.pos → d.data.toList.take (i + 1) = c.data.toList.take (i + 1) →
      endsBefore (d.data.toList.drop (i + 1)) = true →
      (readAt c given).2.pos = i + 1 ∧
        (readAt d given).1.result = .ok v ∧ (readAt d given).2.pos = i + 1) ∧
    (∀ (hs : List Octets) (vs : List Value), (∀ h ∈ hs, IsLine h) →
      (∀ h ∈ hs.tail, endsBefore h = true) →
      hs.map (fun h => (readAt (.ofOctets h) given).1.result) = vs.map .ok →
      readMany given hs.length (.ofOctets hs.flatten) = .ok vs) := by
  refine ⟨fun c v h => ?_, fun c d v i h hend hpos hsame hnext => ?_,
    fun hs vs hlines hnext hvs => ?_⟩
  · obtain ⟨hdata, hpos⟩ := pos_readAt h
    exact ⟨hdata, hpos ▸ isEnd_extent c.data.toList c.pos⟩
  · have hpos' : (readAt c given).2.pos = i + 1 := by
      obtain ⟨-, hextent⟩ := content_extent_of_firstEnd hend.zero_of_drop
      have hle := hend.start_le
      rw [(pos_readAt h).2, stop, Cursor.rest, hextent]
      omega
    exact ⟨hpos', readAt_congr h hend hpos hsame hnext⟩
  · exact readMany_flatten hlines hnext hvs (Cursor.rest_ofOctets _)

end

/-- A word that is begun but not ended in its line, and two headers. -/
theorem boundaries_of_unended_word :
    let word : Octets := [0x61, 0x2C, 0x3D, 0x3F, 0x0A, 0x20, 0x62, 0x0A]
    let other : Octets := [0x63, 0x3F, 0x3D, 0x0A]
    let value : Value := .list [[0x61], [0x3D, 0x3F, 0x20, 0x62]]
    (@readAt .none (.ofOctets word) {}).1.result = .ok value ∧
      (@readAt .none (.ofOctets (word ++ other)) {}).1.result = .ok value ∧
      (@readAt .none (.ofOctets (word ++ other)) {}).2.pos = word.length ∧
      @readMany .none {} 2 (.ofOctets (word ++ other)) = .ok [value, .text [0x63, 0x3F, 0x3D]] := by
  intro word other value
  have hword : (@readAt .none (.ofOctets word) {}).1.result = .ok value :=
    eq_ok_iff_toOption.2 (by decide +kernel)
  have hother : (@readAt .none (.ofOctets other) {}).1.result = .ok (.text [0x63, 0x3F, 0x3D]) :=
    eq_ok_iff_toOption.2 (by decide +kernel)
  have hlineWord : FirstEnd word 0 7 := by decide
  have hlineOther : FirstEnd other 0 3 := by decide
  obtain ⟨-, hleak, hmany⟩ := @readAt_keeps_boundaries .none {}
  obtain ⟨-, hvalue, hpos⟩ := hleak (.ofOctets word) (.ofOctets (word ++ other)) value 7 hword
    hlineWord rfl rfl rfl
  refine ⟨hword, hvalue, hpos, ?_⟩
  refine hmany [word, other] [value, .text [0x63, 0x3F, 0x3D]] ?_ ?_ ?_
  · intro h hh
    simp only [List.mem_cons, List.not_mem_nil, or_false] at hh
    rcases hh with rfl | rfl
    · exact ⟨7, hlineWord, rfl⟩
    · exact ⟨3, hlineOther, rfl⟩
  · decide
  · rw [List.map_cons, List.map_cons, hword, hother]
    rfl

end Header

end HeaderList
