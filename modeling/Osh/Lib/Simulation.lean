import Osh.Lib.Transition

namespace Osh.Lib.System
variable {σ α τ β : Type*} {C : System σ α} {A : System τ β} {okC : σ → α → Prop}
  {okA : τ → β → Prop} {R : σ → τ → Prop} {s s' : τ} {c : σ}

/-- `s'` is reached from `s` in any number of steps that meet `ok`. -/
abbrev Steps (A : System τ β) (ok : τ → β → Prop) (s s' : τ) : Prop := (A.startingAt s).Reach ok s'

theorem Steps.refl : A.Steps okA s s := .init rfl

theorem Steps.step {s₁ : τ} {b : β} (h : A.Steps okA s s₁) (hb : okA s₁ b) (hs : A.step s₁ b s') :
    A.Steps okA s s' := Reach.step h hb hs

theorem Steps.one {b : β} (hb : okA s b) (hs : A.step s b s') : A.Steps okA s s' :=
  Steps.refl.step hb hs

/-- Every step of `C` is matched by steps of `A`, maybe by none, that keep the states related. -/
structure Simulation (C : System σ α) (A : System τ β) (okC : σ → α → Prop) (okA : τ → β → Prop)
    (R : σ → τ → Prop) : Prop where
  init : ∀ c, C.init c → ∃ s, A.init s ∧ R c s
  step : ∀ c x c' s, C.Reach okC c → A.Reach okA s → R c s → okC c x → C.step c x c' →
    ∃ s', A.Steps okA s s' ∧ R c' s'

/-- Every run of `C` is matched by a run of `A`. -/
theorem Simulation.reach (h : Simulation C A okC okA R) (hc : C.Reach okC c) :
    ∃ s, A.Reach okA s ∧ R c s := by
  induction hc with
  | init hc =>
    obtain ⟨s, hs, hr⟩ := h.init _ hc
    exact ⟨s, .init hs, hr⟩
  | step hc hx hs ih =>
    obtain ⟨s, hreach, hr⟩ := ih
    obtain ⟨s', hsteps, hr'⟩ := h.step _ _ _ s hc hreach hr hx hs
    exact ⟨s', hreach.trans hsteps, hr'⟩

end Osh.Lib.System
