import Osh.Lib.Follow
import Osh.TaskQueues

namespace Osh
open Lib

variable {nrp : TaskId → Option TaskId} {head : Option TaskId} {l : List TaskId} {n i : Nat}
  {slow fast : TaskId}

/-- What the loop of `has_cycles` finds out about the list from `head` on. -/
inductive CycleCheck (nrp : TaskId → Option TaskId) (head : Option TaskId) (n : Nat) :
    Except Stop Bool → Prop
  | meets {i : Nat} (hi : 0 < i) (hne : follow nrp head i ≠ none)
    (h : follow nrp head i = follow nrp head (2 * i)) : CycleCheck nrp head n (.ok true)
  | ends {i : Nat} (h : follow nrp head i = none) : CycleCheck nrp head n (.ok false)
  | goesOn (hne : follow nrp head (2 * n) ≠ none)
    (h : ∀ i, 0 < i → i ≤ n → follow nrp head i ≠ follow nrp head (2 * i)) :
    CycleCheck nrp head n (.error .diverge)

/-- After `i` rounds in which the two pointers did not meet, `slow` is `i` links behind `head` and
`fast` is twice as many. -/
theorem hasCyclesLoop_check (hs : follow nrp head i = some slow)
    (hf : follow nrp head (2 * i) = some fast)
    (h : ∀ j, 0 < j → j ≤ i → follow nrp head j ≠ follow nrp head (2 * j)) :
    CycleCheck nrp head (i + n) (hasCyclesLoop nrp n slow fast) := by
  induction n generalizing i slow fast with
  | zero => exact .goesOn (by rw [Nat.add_zero, hf]; nofun) h
  | succ n ih =>
    have hs' : follow nrp head (i + 1) = nrp slow := by rw [follow_succ, hs, Option.bind_some]
    have hf' : follow nrp head (2 * i + 1) = nrp fast := by rw [follow_succ, hf, Option.bind_some]
    rw [hasCyclesLoop]
    cases hnext : nrp fast with
    | none => exact .ends (hf'.trans hnext)
    | some next =>
      have hf₂ : follow nrp head (2 * (i + 1)) = nrp next := by
        rw [Nat.mul_succ, follow_succ, hf', hnext, Option.bind_some]
      dsimp only
      cases hslow : nrp slow with
      | none => exact .ends (hs'.trans hslow)
      | some slow' =>
        rw [hslow] at hs'
        cases hfast : nrp next with
        | none => exact .ends (hf₂.trans hfast)
        | some fast' =>
          rw [hfast] at hf₂
          dsimp only
          split_ifs with he
          · exact .meets (Nat.succ_pos i) (by rw [hs']; nofun) (by rw [hs', hf₂, he])
          · rw [Nat.add_succ, ← Nat.succ_add]
            apply ih hs' hf₂
            intro j hj hji
            rcases Nat.le_succ_iff.1 hji with hji | rfl
            · exact h j hj hji
            · rw [hs', hf₂]
              exact fun h => he (Option.some.inj h)

theorem hasCycles_check (nrp : TaskId → Option TaskId) (head : Option TaskId) (n : Nat) :
    CycleCheck nrp head n (hasCycles nrp n head) := by
  cases head with
  | none => exact .ends (i := 0) rfl
  | some t =>
    have h : CycleCheck nrp (some t) (0 + n) (hasCyclesLoop nrp n t t) :=
      hasCyclesLoop_check rfl rfl fun j hj hj' => absurd hj (Nat.not_lt.2 hj')
    rwa [Nat.zero_add] at h

theorem hasCycles_chain (hc : Chain nrp head l) (hn : l.length ≤ 2 * n) :
    hasCycles nrp n head = .ok false := by
  have hend := hc.follow_length
  have h := hasCycles_check nrp head n
  generalize hasCycles nrp n head = result at h ⊢
  cases h with
  | @meets i hi hne h =>
    rw [Nat.two_mul] at h
    exact absurd hend (follow_ne_none hi h hne _)
  | ends => rfl
  | goesOn hne => exact absurd (follow_none hend hn) hne

/-- `has_cycles` decides whether the list from `head` on never ends, in no more rounds than there
are tasks. -/
theorem hasCycles_iff {tasks : Finset TaskId} (hh : ∀ t, head = some t → t ∈ tasks)
    (hs : ∀ t ∈ tasks, ∀ x, nrp t = some x → x ∈ tasks) (hn : tasks.card ≤ n) :
    ∃ cyclic, hasCycles nrp n head = .ok cyclic ∧
      (cyclic = true ↔ ∀ i, follow nrp head i ≠ none) := by
  have h := hasCycles_check nrp head n
  generalize hasCycles nrp n head = result at h ⊢
  cases h with
  | @meets i hi hne h =>
    rw [Nat.two_mul] at h
    exact ⟨true, rfl, iff_of_true rfl (follow_ne_none hi h hne)⟩
  | @ends i h =>
    refine ⟨false, rfl, iff_of_false Bool.false_ne_true fun hne => ?_⟩
    exact hne i h
  | goesOn hne h =>
    -- in this many rounds the pointers meet or the list ends
    have hcard : follow nrp head tasks.card ≠ none := by
      intro hz
      exact hne (follow_none hz (by omega))
    obtain ⟨i, hi, hle, hmeet⟩ := exists_meeting hh hs hcard
    exact absurd hmeet (h i hi (hle.trans hn))

theorem hasCycles_tail : ∃ nrp : TaskId → Option TaskId, nrp 0 = some 1 ∧ nrp 2 = some 1 ∧
    ∃ cyclic, hasCycles nrp 3 (some 0) = .ok cyclic ∧
      (cyclic = true ↔ ∀ i, follow nrp (some 0) i ≠ none) := by
  have hh : ∀ t, some 0 = some t → t ∈ ({0, 1, 2} : Finset TaskId) := by simp
  refine ⟨fun t => if t = 1 then some 2 else some 1, rfl, rfl, ?_⟩
  exact hasCycles_iff hh (by decide) (by decide)

end Osh
