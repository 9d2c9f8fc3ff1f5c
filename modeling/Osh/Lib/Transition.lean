import Mathlib.Init

namespace Osh.Lib

structure System (σ α : Type*) where
  init : σ → Prop
  step : σ → α → σ → Prop

namespace System
variable {σ α η : Type*} {S : System σ α} {ok ok' : σ → α → Prop} {I : σ → Prop} {s s' : σ}

/-- The states of the runs all of whose steps meet `ok`. -/
inductive Reach (S : System σ α) (ok : σ → α → Prop) : σ → Prop
  | init {s : σ} (h : S.init s) : Reach S ok s
  | step {s s' : σ} {a : α} (h : Reach S ok s) (ha : ok s a) (hs : S.step s a s') : Reach S ok s'

/-- What holds initially and is kept by every step holds in every state of a run. -/
theorem Reach.invariant (h : S.Reach ok s) (hinit : ∀ s, S.init s → I s)
    (hstep : ∀ s a s', I s → ok s a → S.step s a s' → I s') : I s := by
  induction h with
  | init h => exact hinit _ h
  | step h ha hs ih => exact hstep _ _ _ ih ha hs

theorem Reach.mono (h : S.Reach ok s) (hle : ∀ s a, ok s a → ok' s a) : S.Reach ok' s := by
  induction h with
  | init h => exact .init h
  | step h ha hs ih => exact .step ih (hle _ _ ha) hs

def startingAt (S : System σ α) (s : σ) : System σ α where
  init s' := s' = s
  step := S.step

theorem Reach.trans (h : S.Reach ok s) (h' : (S.startingAt s).Reach ok s') : S.Reach ok s' := by
  induction h' with
  | init h' => exact h' ▸ h
  | step _ ha hs ih => exact .step ih ha hs

/-- The system with a history variable, which every step updates and no step reads. -/
def withHistory (S : System σ α) (start : η) (record : η → σ → α → σ → η) :
    System (σ × η) α where
  init p := S.init p.1 ∧ p.2 = start
  step p a p' := S.step p.1 a p'.1 ∧ p'.2 = record p.2 p.1 a p'.1

variable {start : η} {record : η → σ → α → σ → η} {p : σ × η}

/-- Every run has a history, which may be used to show that its steps meet `ok'`. -/
theorem Reach.exists_history {ok' : σ × η → α → Prop} (h : S.Reach ok s)
    (hok : ∀ s e a, (S.withHistory start record).Reach ok' (s, e) → ok s a → ok' (s, e) a) :
    ∃ e, (S.withHistory start record).Reach ok' (s, e) := by
  induction h with
  | init h => exact ⟨start, .init ⟨h, rfl⟩⟩
  | @step s s' a _ ha hs ih =>
    obtain ⟨e, he⟩ := ih
    exact ⟨record e s a s', .step he (hok s e a he ha) ⟨hs, rfl⟩⟩

theorem Reach.forget {ok : σ × η → α → Prop} (h : (S.withHistory start record).Reach ok p) :
    S.Reach (fun s a => ∃ e, ok (s, e) a) p.1 := by
  induction h with
  | init h => exact .init h.1
  | @step p _ _ _ ha hs ih => exact .step ih ⟨p.2, ha⟩ hs.1

theorem Reach.map_history {η' : Type*} {start' : η'} {record' : η' → σ → α → σ → η'}
    {ok : σ × η → α → Prop} {ok' : σ × η' → α → Prop} {f : η → η'}
    (h : (S.withHistory start record).Reach ok p) (hstart : f start = start')
    (hrecord : ∀ e s a s', f (record e s a s') = record' (f e) s a s')
    (hok : ∀ s e a, (S.withHistory start' record').Reach ok' (s, f e) → ok (s, e) a →
      ok' (s, f e) a) : (S.withHistory start' record').Reach ok' (p.1, f p.2) := by
  induction h with
  | init h =>
    obtain ⟨hi, he⟩ := h
    rw [he, hstart]
    exact .init ⟨hi, rfl⟩
  | @step p p' a _ ha hs ih =>
    obtain ⟨hs, he⟩ := hs
    rw [he, hrecord]
    exact .step ih (hok p.1 p.2 a ih ha) ⟨hs, rfl⟩

/-- The invariant rule for a state and its history. -/
theorem Reach.history_invariant {ok : σ × η → α → Prop} {J : σ → η → Prop}
    (h : (S.withHistory start record).Reach ok p) (hinit : ∀ s, S.init s → J s start)
    (hstep : ∀ s e a s', (S.withHistory start record).Reach ok (s, e) → J s e → ok (s, e) a →
      S.step s a s' → J s' (record e s a s')) : J p.1 p.2 := by
  induction h with
  | init h =>
    obtain ⟨hi, he⟩ := h
    rw [he]
    exact hinit _ hi
  | step hr ha hs ih =>
    obtain ⟨hs, he⟩ := hs
    rw [he]
    exact hstep _ _ _ _ hr ih ha hs

end System
end Osh.Lib
