import HeaderList.Fault

/-!
# `HeaderList/Value.lean` — what a header says

The value of a header is nothing, one text, or a list of texts, and which of these it is
depends on the number of entries alone (`Value.ofEntries`). The entries can always be had
back as a list (`Value.entries_ofEntries`), so the shape is a courtesy to readers and
carries no information of its own.
-/

set_option autoImplicit false

namespace HeaderList

inductive Value
  | empty
  | text (t : Text)
  | list (entries : List Text)
deriving DecidableEq

namespace Value

def ofEntries : List Text → Value
  | [] => empty
  | [t] => text t
  | ts => list ts

def entries : Value → List Text
  | empty => []
  | text t => [t]
  | list ts => ts

def isEmpty : Value → Bool
  | empty => true
  | _ => false

/-- A text counts as given if it has a character, a list if it has an entry. -/
def isTruthy : Value → Bool
  | empty => false
  | text t => !t.isEmpty
  | list ts => !ts.isEmpty

def length? : Value → Option Nat
  | empty => none
  | text t => some t.length
  | list ts => some ts.length

def display : Value → Text
  | empty => "Empty()"
  | text t => ("Text(" : Text) ++ t.quoted ++ (")" : Text)
  | list ts => ("TextList(" : Text) ++ Text.quotedList ts ++ (")" : Text)

/-! ## Values without a shape

Where a value may be of no shape at all, it is an `Option`. What has no shape is
there all the same, so it is not empty and counts as given, but it has no entries to
show and agrees with nothing. -/

/-- The entries of what may have no shape. -/
def entriesOf : Option Value → Except Fault (List Text)
  | some v => .ok v.entries
  | none => .error .shapeless

/-- Is there no value, where there may be no shape? -/
def isEmptyOf (v : Option Value) : Bool := v.any isEmpty

/-- Does what may have no shape count as given? -/
def isTruthyOf (v : Option Value) : Bool := v.all isTruthy

/-- Two values agree where they have the same shape and the same entries. -/
def agree (a b : Option Value) : Bool := a.isSome && a == b

/-! ## Shapes and entries -/

/-- No entry is lost in shaping. -/
@[simp] theorem entries_ofEntries (ts : List Text) : (ofEntries ts).entries = ts := by
  unfold ofEntries
  split <;> rfl

theorem isEmpty_ofEntries (ts : List Text) : (ofEntries ts).isEmpty = ts.isEmpty := by
  unfold ofEntries
  split <;> simp_all [isEmpty]

/-- What does not count as given has no entries, or a single one without text. -/
theorem isTruthy_ofEntries {ts : List Text} :
    (ofEntries ts).isTruthy = false ↔ ts = [] ∨ ts = [[]] := by
  match ts with
  | [] => simp [ofEntries, isTruthy]
  | [t] => simp [ofEntries, isTruthy]
  | t :: u :: more => simp [ofEntries, isTruthy]

/-- A value counts as given if it is not empty, unless all that it has is an entry without text. -/
theorem isTruthy_iff_isEmpty_ofEntries {ts : List Text} :
    ((ofEntries ts).isTruthy = false ↔ (ofEntries ts).isEmpty = true) ↔ ts ≠ [[]] := by
  rw [isTruthy_ofEntries, isEmpty_ofEntries, List.isEmpty_iff]
  cases ts <;> simp

theorem ofEntries_eq_empty_iff {ts : List Text} : ofEntries ts = empty ↔ ts.length = 0 := by
  match ts with
  | [] => simp [ofEntries]
  | [t] => simp [ofEntries]
  | t :: u :: more => simp [ofEntries]

theorem ofEntries_eq_text_iff {ts : List Text} : (∃ t, ofEntries ts = text t) ↔ ts.length = 1 := by
  match ts with
  | [] => simp [ofEntries]
  | [t] => simp [ofEntries]
  | t :: u :: more => simp [ofEntries]

theorem ofEntries_eq_list_iff {ts : List Text} :
    (∃ us, ofEntries ts = list us) ↔ 2 ≤ ts.length := by
  match ts with
  | [] => simp [ofEntries]
  | [t] => simp [ofEntries]
  | t :: u :: more => simp [ofEntries]

end Value

end HeaderList
