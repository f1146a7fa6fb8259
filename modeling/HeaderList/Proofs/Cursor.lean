import HeaderList.Cursor

/-!
# `HeaderList/Proofs/Cursor.lean` — cursors as lists

What a cursor still has to see is the list `Cursor.rest`, and a reader that goes forward drops
octets from the front of it. This file says so for every operation of a cursor, so that nothing
later has to look at places: a step is `Cursor.skip`, looking ahead is the head of the list, and
the octets between two places are those that were dropped between them.
-/

set_option autoImplicit false

namespace HeaderList.Cursor

/-- The cursor a number of octets further on. -/
def skip (c : Cursor) (n : Nat) : Cursor := { c with pos := c.pos + n }

@[simp] theorem skip_data (c : Cursor) (n : Nat) : (c.skip n).data = c.data := rfl

@[simp] theorem skip_pos (c : Cursor) (n : Nat) : (c.skip n).pos = c.pos + n := rfl

theorem skip_skip (c : Cursor) (m n : Nat) : (c.skip m).skip n = c.skip (m + n) := by
  simp only [skip, Nat.add_assoc]

@[simp] theorem rest_skip (c : Cursor) (n : Nat) : (c.skip n).rest = c.rest.drop n := by
  simp only [rest, skip, List.drop_drop]

theorem rest_skip_of_eq {c : Cursor} {f t : Octets} (h : c.rest = f ++ t) :
    (c.skip f.length).rest = t := by
  rw [rest_skip, h, List.drop_left]

/-- A mark is for going back, and changes nothing ahead. -/
@[simp] theorem rest_mark (c : Cursor) : c.mark.rest = c.rest := rfl

@[simp] theorem rest_ofOctets (bs : Octets) : (ofOctets bs).rest = bs := by
  simp [rest, ofOctets]

/-- What is left is a matter of the octets and the place alone. -/
theorem rest_congr {c d : Cursor} (hdata : c.data = d.data) (hpos : c.pos = d.pos) :
    c.rest = d.rest := by
  rw [rest, rest, hdata, hpos]

theorem next?_of_nil {c : Cursor} (h : c.rest = []) : c.next? = none := next?_eq_none_iff.2 h

/-- With something left, a reader gets the first of it and goes one octet on. -/
theorem next?_of_cons {c : Cursor} {b : UInt8} {bs : Octets} (h : c.rest = b :: bs) :
    c.next? = some (b, c.skip 1) := by
  have hp : c.peek? = some b := by rw [peek?_eq_head?, h, List.head?_cons]
  rw [next?, hp]
  rfl

theorem eq_skip_of_next? {c d : Cursor} {b : UInt8} (h : c.next? = some (b, d)) : d = c.skip 1 := by
  rw [next?_of_cons (rest_next? h)] at h
  simpa using h.symm

theorem peekIs_eq (c : Cursor) (b : UInt8) : c.peekIs b = (c.rest.head? == some b) := by
  rw [peekIs, peek?_eq_head?]

theorem foldsHere_eq (c : Cursor) : c.foldsHere = c.rest.head?.any Octet.isBlank := by
  rw [foldsHere, peek?_eq_head?]

/-! ## The octets between two places

The octets of a word are taken from the data by two places, long after the cursor has gone over
them. The laws of `slice` let a word grow at its end by what the cursor goes over. -/

theorem slice_eq (c : Cursor) (start stop : Nat) :
    c.slice start stop = (c.data.toList.drop start).take (stop - start) := by
  simp [slice, List.extract_eq_take_drop]

theorem slice_append (c : Cursor) {start mid stop : Nat} (h₁ : start ≤ mid) (h₂ : mid ≤ stop) :
    c.slice start stop = c.slice start mid ++ c.slice mid stop := by
  have hsplit : stop - start = (mid - start) + (stop - mid) := by omega
  rw [slice_eq, slice_eq, slice_eq, hsplit, List.take_add, List.drop_drop, Nat.add_sub_of_le h₁]

theorem slice_pos (c : Cursor) (n : Nat) : c.slice c.pos (c.pos + n) = c.rest.take n := by
  rw [slice_eq, rest, Nat.add_sub_cancel_left]

/-- An octet that the cursor goes over comes behind those up to it. -/
theorem slice_succ {c : Cursor} {b : UInt8} {bs : Octets} (h : c.rest = b :: bs) {start : Nat}
    (hle : start ≤ c.pos) : c.slice start (c.pos + 1) = c.slice start c.pos ++ [b] := by
  rw [c.slice_append hle (Nat.le_succ _), c.slice_pos 1, h]
  rfl

theorem length_slice (c : Cursor) (start : Nat) {stop : Nat} (h : stop ≤ c.data.size) :
    (c.slice start stop).length = stop - start := by
  rw [slice, Array.length_toList, Array.size_extract, Nat.min_eq_left h]

@[simp] theorem slice_self (c : Cursor) (n : Nat) : c.slice n n = [] := by
  simp [slice_eq]

theorem slice_congr {c d : Cursor} (h : c.data = d.data) (start stop : Nat) :
    c.slice start stop = d.slice start stop := by
  rw [slice, slice, h]

end HeaderList.Cursor
