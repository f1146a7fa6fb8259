import HeaderList.Fault

/-!
# `HeaderList/Traced.lean` — a result together with its notices

What an operation answers: a value or a fault, and the notices it made on the way, oldest first.
The notices outlive a fault. Nothing in the library reads a notice back, so `Traced.result` of a
chain of steps depends on the results of the steps alone (`Traced.result_bind`).
-/

set_option autoImplicit false

namespace HeaderList

/-- A value or a fault, with the notices made on the way. -/
structure Traced (α : Type) where
  result : Except Fault α
  notices : List Notice

namespace Traced

variable {α β : Type}

def value (a : α) : Traced α := ⟨.ok a, []⟩

def fail (e : Fault) : Traced α := ⟨.error e, []⟩

/-- A step that makes no notices. -/
def silent (r : Except Fault α) : Traced α := ⟨r, []⟩

def noting (n : Notice) (t : Traced α) : Traced α := ⟨t.result, n :: t.notices⟩

/-- A step, then another that sees its value; a fault leaves the second step out. -/
def andThen (t : Traced α) (f : α → Traced β) : Traced β :=
  match t.result with
  | .ok a => ⟨(f a).result, t.notices ++ (f a).notices⟩
  | .error e => ⟨.error e, t.notices⟩

instance : Monad Traced where
  pure := value
  bind := andThen

theorem result_bind (t : Traced α) (f : α → Traced β) :
    (t >>= f).result = t.result >>= fun a => (f a).result := by
  show (andThen t f).result = _
  unfold andThen
  split <;> simp_all [bind, Except.bind]

end Traced

/-! ## Answers

What an answer says about the steps to it. -/

section Answers

variable {α β : Type} {r : Except Fault α}

/-- Which fault there is does not matter to an answer. -/
theorem eq_ok_iff_toOption {a : α} : r = .ok a ↔ r.toOption = some a := by
  cases r <;> simp [Except.toOption]

theorem bind_eq_ok {f : α → Except Fault β} {b : β} (h : (r >>= f) = .ok b) :
    ∃ a, r = .ok a ∧ f a = .ok b := by
  cases r with
  | error fault => cases h
  | ok a => exact ⟨a, rfl, h⟩

theorem map_eq_ok {f : α → β} {b : β} (h : (f <$> r) = .ok b) : ∃ a, r = .ok a ∧ f a = b := by
  cases r with
  | error fault => cases h
  | ok a => exact ⟨a, rfl, Except.ok.inj h⟩

theorem mapM_cons_eq_ok {f : α → Except Fault β} {a : α} {as : List α} {bs : List β}
    (h : (a :: as).mapM f = .ok bs) :
    ∃ b others, f a = .ok b ∧ as.mapM f = .ok others ∧ b :: others = bs := by
  rw [List.mapM_cons] at h
  obtain ⟨b, hb, h⟩ := bind_eq_ok h
  obtain ⟨others, hothers, h⟩ := bind_eq_ok h
  exact ⟨b, others, hb, hothers, Except.ok.inj h⟩

end Answers

end HeaderList
