import HeaderList.Charset.Writing

/-!
# `HeaderList/Cursor.lean` — a place in the octets of a message

A cursor goes forward over octets that do not change. It can mark its place once and go back to
the mark, which is how a reader tries something and backs out. The octets are an array, so that a
step takes the same time everywhere; what the reader still has to see is the list `Cursor.rest`,
and it is in terms of that list that the steps are described (`Cursor.rest_next?`).
-/

set_option autoImplicit false

namespace HeaderList

/-- A place in octets, and a marked place. -/
structure Cursor where
  data : Array UInt8
  pos : Nat := 0
  saved : Nat := 0
deriving DecidableEq

namespace Cursor

def ofOctets (bs : Octets) : Cursor := ⟨bs.toArray, 0, 0⟩

/-- A cursor over what a caller hands in: octets in any guise, or a
text, which is written in UTF-8. -/
def ofDatum : Datum → Except Fault Cursor
  | .text t => match Utf8.write t with
    | .ok bs => .ok (ofOctets bs)
    | .error fault => .error (.unicode fault)
  | .octets bs | .buffer bs | .view bs => .ok (ofOctets bs)
  | d => .error (.notOctets d.kind)

def rest (c : Cursor) : Octets := c.data.toList.drop c.pos

def left (c : Cursor) : Nat := c.data.size - c.pos

def peek? (c : Cursor) : Option UInt8 := c.data[c.pos]?

/-- The next octet and the cursor past it, if there is one. -/
def next? (c : Cursor) : Option (UInt8 × Cursor) :=
  c.peek?.map fun b => (b, { c with pos := c.pos + 1 })

def peekIs (c : Cursor) (b : UInt8) : Bool := c.peek? == some b

/-- Are the octets the next one, or none at the end? -/
def peekMatches (c : Cursor) (bs : Octets) : Bool := c.peek?.toList == bs

/-- Does a line that starts here continue the one before? -/
def foldsHere (c : Cursor) : Bool := c.peek?.any Octet.isBlank

def mark (c : Cursor) : Cursor := { c with saved := c.pos }

def restore (c : Cursor) : Cursor := { c with pos := c.saved }

def atEnd (c : Cursor) : Bool := c.data.size ≤ c.pos

def slice (c : Cursor) (start stop : Nat) : Octets := (c.data.extract start stop).toList

/-- A cursor in words: its place and the number of octets. -/
def display (c : Cursor) : Text :=
  ("<MessageStream at " : Text) ++ Text.decimal c.pos ++ (" of " : Text) ++
  Text.decimal c.data.size ++
    (">" : Text)

/-! ## What a step does -/

theorem peek?_eq_head? (c : Cursor) : c.peek? = c.rest.head? := by
  simp [peek?, rest, List.head?_drop]

/-- A step takes the first octet of those left. -/
theorem rest_next? {c d : Cursor} {b : UInt8} (h : c.next? = some (b, d)) :
    c.rest = b :: d.rest := by
  simp only [next?, peek?, Option.map_eq_some_iff, Prod.mk.injEq] at h
  obtain ⟨x, hx, rfl, rfl⟩ := h
  have hlt : c.pos < c.data.toList.length := by
    have := (Array.getElem?_eq_some_iff.1 hx).1
    simpa using this
  rw [rest, List.drop_eq_getElem_cons hlt]
  have := (Array.getElem?_eq_some_iff.1 hx).2
  simp [rest, this]

theorem next?_eq_none_iff {c : Cursor} : c.next? = none ↔ c.rest = [] := by
  simp [next?, peek?, rest]

theorem left_next? {c d : Cursor} {b : UInt8} (h : c.next? = some (b, d)) : d.left < c.left := by
  simp only [next?, peek?, Option.map_eq_some_iff, Prod.mk.injEq] at h
  obtain ⟨x, hx, rfl, rfl⟩ := h
  have := (Array.getElem?_eq_some_iff.1 hx).1
  simp only [left]
  omega

end Cursor

end HeaderList
