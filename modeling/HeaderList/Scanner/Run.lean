import HeaderList.Scanner.State
import HeaderList.Value

/-!
# `HeaderList/Scanner/Run.lean` — from the first octet to the value

One step of a scanner (`Scanner.step`) takes one octet, or an encoded word. A line feed ends the
header unless the next line continues it; white space and such a line feed end a word; a carriage
return does nothing; a comma ends an entry; anything else is part of a word. An encoded word is
tried only where a word begins. Steps are repeated until the header ends (`Scanner.run`). That
they come to an end is `Scanner.left_step`: a step that is not the last leaves fewer octets, also
when it went ahead and came back.
-/

set_option autoImplicit false

namespace HeaderList.Scanner

variable [Decoders]

/-- Takes an octet as part of a plain word, as a step that is not the last. -/
def extend (s : Scanner) : ScanResult Bool :=
  match extendWord s with
  | .ok () s => .ok true s
  | .error fault s => .error fault s

/-- One step; the answer says whether the header goes on. -/
def step (s : Scanner) : ScanResult Bool :=
  match s.cursor.next? with
  | none => .ok false s
  | some (b, cursor) =>
    let s := { s with cursor }
    if b = Octet.lf then
      if cursor.foldsHere then .ok true { s with atWordStart := true } else .ok false s
    else if Octet.isBlank b then .ok true { s with atWordStart := true }
    else if b = Octet.cr then .ok true s
    else if b = Octet.comma then
      match closeWord false s with
      | .ok () s => .ok true s.closeEntry
      | .error fault s => .error fault s
    else if b = Octet.equals ∧ s.atWordStart = true ∧ cursor.peekIs Octet.question = true then
      match tryWord s with
      | .ok true s => .ok true s
      | .ok false s => extend s
      | .error fault s => .error fault s
    else extend s

/-! ## Steps go forward

Only an attempt that fails moves the cursor back, and it moves it back to where the step had come
to. So what a step leaves is compared with what it began with, octet by octet of what it calls. -/

omit [Decoders] in
@[simp] theorem cursor_closeEntry (s : Scanner) : s.closeEntry.cursor = s.cursor := by
  unfold closeEntry
  split <;> rfl

theorem cursor_closeWord {spaced : Bool} {s t : Scanner} (h : closeWord spaced s = .ok () t) :
    t.cursor = s.cursor := by
  unfold closeWord at h
  split at h
  · cases h
    rfl
  · dsimp only at h
    split at h
    · simp at h
    · cases h
      split <;> rfl

theorem cursor_extendWord {s t : Scanner} (h : extendWord s = .ok () t) : t.cursor = s.cursor := by
  unfold extendWord at h
  split at h
  · split at h
    · rename_i hc
      have e := cursor_closeWord hc
      cases h
      exact e
    · simp at h
  · cases h
    rfl

theorem cursor_extend {s t : Scanner} {more : Bool} (h : extend s = .ok more t) :
    t.cursor = s.cursor := by
  unfold extend at h
  split at h
  · rename_i hx
    have e := cursor_extendWord hx
    cases h
    exact e
  · simp at h

theorem left_decodeAt {fallback : Datum} {c : Cursor} {a : Text}
    (h : (EncodedWord.decodeAt fallback c).1.result = .ok a) :
    (EncodedWord.decodeAt fallback c).2.left < c.left := by
  unfold EncodedWord.decodeAt at h ⊢
  split
  · rename_i hr
    exact EncodedWord.takes_read hr
  · rename_i hr
    rw [hr] at h
    simp [Traced.fail] at h

theorem left_tryWord {s t : Scanner} {found : Bool} (h : tryWord s = .ok found t) :
    t.cursor.left ≤ s.cursor.left := by
  unfold tryWord at h
  dsimp only at h
  split at h
  · cases h
    exact Nat.le_refl _
  · simp at h
  · rename_i ha
    have hlt := Nat.le_of_lt (left_decodeAt ha)
    split at h
    · cases h
      exact hlt
    · split at h
      · rename_i hc
        have e := cursor_closeWord hc
        cases h
        simp only [e]
        exact hlt
      · simp at h

/-- A step after which the header goes on leaves fewer octets. -/
theorem left_step {s t : Scanner} (h : step s = .ok true t) : t.cursor.left < s.cursor.left := by
  -- one case for each kind of octet; each has taken it, and some have taken more
  unfold step at h
  split at h
  · simp at h
  · rename_i hn
    have hlt := Cursor.left_next? hn
    dsimp only at h
    split at h
    · split at h
      · cases h
        exact hlt
      · simp at h
    · split at h
      · cases h
        exact hlt
      · split at h
        · cases h
          exact hlt
        · split at h
          · split at h
            · rename_i hc
              have e := cursor_closeWord hc
              cases h
              simpa [e] using hlt
            · simp at h
          · split at h
            · split at h
              · rename_i ht
                have e := left_tryWord ht
                cases h
                exact Nat.lt_of_le_of_lt e hlt
              · rename_i ht
                have e := left_tryWord ht
                rw [cursor_extend h]
                exact Nat.lt_of_le_of_lt e hlt
              · simp at h
            · rw [cursor_extend h]
              exact hlt

/-! ## Runs

The runs of a scanner end because every step that is not the last leaves fewer octets. -/

def run (s : Scanner) : ScanResult Unit :=
  match _step : step s with
  | .ok true t => run t
  | .ok false t => .ok () t
  | .error fault t => .error fault t
termination_by s.cursor.left
decreasing_by exact left_step _step

/-- The value of a header: all of its entries so far, after a run from here. A scanner that has
read one header can go on with the next, and keeps the entries that it has. -/
def readValue (s : Scanner) : ScanResult Value :=
  match run s with
  | .error fault s => .error fault s
  | .ok () s =>
    match closeWord false s with
    | .error fault s => .error fault s
    | .ok () s =>
      let s := s.closeEntry
      .ok (.ofEntries s.entries.toList) s

end HeaderList.Scanner
