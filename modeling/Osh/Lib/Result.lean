import Mathlib.Init

namespace Osh.Lib

theorem bind_eq_ok {ε α β : Type} {x : Except ε α} {f : α → Except ε β} {b : β} :
    x >>= f = .ok b ↔ ∃ a, x = .ok a ∧ f a = .ok b := by
  cases x with
  | error e => simp [bind, Except.bind]
  | ok a => simp [bind, Except.bind]

theorem pure_eq_ok {ε α : Type} {a b : α} : (pure a : Except ε α) = .ok b ↔ a = b := by
  simp [pure, Except.pure]

theorem ok_bind {ε α β : Type} {a : α} {f : α → Except ε β} :
    (Except.ok a : Except ε α) >>= f = f a := rfl

def Avoids {ε α : Type} (bad : ε → Prop) (x : Except ε α) : Prop :=
  ∀ e, x = .error e → ¬ bad e

section Avoids
variable {ε α β : Type} {bad : ε → Prop} {x : Except ε α} {f : α → Except ε β}

theorem Avoids.ok {a : α} : Avoids bad (.ok a) := nofun

theorem Avoids.pure {a : α} : Avoids bad (Pure.pure a : Except ε α) := nofun

theorem Avoids.of_returns (h : ∃ a, x = .ok a) : Avoids bad x := by
  obtain ⟨a, rfl⟩ := h
  exact .ok

theorem Avoids.error {e : ε} (he : ¬ bad e) : Avoids bad (.error e : Except ε α) := by
  intro e' h
  cases h
  exact he

theorem Avoids.mono {bad' : ε → Prop} (hx : Avoids bad x) (h : ∀ e, bad' e → bad e) :
    Avoids bad' x := fun e he hb => hx e he (h e hb)

theorem Avoids.bind (hx : Avoids bad x) (hf : ∀ a, x = .ok a → Avoids bad (f a)) :
    Avoids bad (x >>= f) := by
  cases x with
  | error e =>
    intro e' h
    cases h
    exact hx e rfl
  | ok a => exact hf a rfl

end Avoids

end Osh.Lib
