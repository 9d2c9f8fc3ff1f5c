import Mathlib.Data.Finset.Card
import Osh.Lib.Chain

namespace Osh.Lib

variable {α : Type*} {next : α → Option α} {head : Option α} {i j p : Nat} {l : List α}
  {nodes : Finset α}

/-- Where `n` links lead to from `head`. -/
def follow (next : α → Option α) (head : Option α) : Nat → Option α
  | 0 => head
  | n + 1 => (follow next head n).bind next

@[simp] theorem follow_zero : follow next head 0 = head := rfl

@[simp] theorem follow_succ : follow next head (i + 1) = (follow next head i).bind next := rfl

theorem follow_add (n : Nat) : follow next (follow next head i) n = follow next head (i + n) := by
  induction n with
  | zero => rfl
  | succ n ih => rw [← Nat.add_assoc, follow_succ, follow_succ, ih]

theorem follow_none (h : follow next head i = none) (hij : i ≤ j) : follow next head j = none := by
  induction j, hij using Nat.le_induction with
  | base => exact h
  | succ j _ ih => rw [follow_succ, ih, Option.bind_none]

theorem Chain.follow_length (h : Chain next head l) : follow next head l.length = none := by
  induction l generalizing head with
  | nil => exact h
  | cons a l ih =>
    obtain ⟨rfl, h⟩ := h
    rw [List.length_cons, Nat.add_comm, ← follow_add]
    exact ih h

theorem follow_period (h : follow next head i = follow next head (i + p)) (hij : i ≤ j) (n : Nat) :
    follow next head (j + n * p) = follow next head j := by
  obtain ⟨d, rfl⟩ := Nat.exists_eq_add_of_le hij
  have hd : follow next head (i + p + d) = follow next head (i + d) := by
    rw [← follow_add, ← h, follow_add]
  induction n with
  | zero => rw [Nat.zero_mul, Nat.add_zero]
  | succ n ih =>
    have hs : i + d + (n + 1) * p = i + p + d + n * p := by
      rw [Nat.succ_mul]
      omega
    rw [hs, ← follow_add, hd, follow_add, ih]

theorem follow_ne_none (hp : 0 < p) (h : follow next head i = follow next head (i + p))
    (hi : follow next head i ≠ none) (j : Nat) : follow next head j ≠ none := by
  intro hj
  have hle : j ≤ i + j * p := by
    have hjp : j * 1 ≤ j * p := Nat.mul_le_mul_left j hp
    omega
  exact hi ((follow_period h le_rfl j).symm.trans (follow_none hj hle))

section Finite
variable (hh : ∀ a, head = some a → a ∈ nodes)
  (hn : ∀ a ∈ nodes, ∀ b, next a = some b → b ∈ nodes)
include hh hn

theorem follow_mem {a : α} (h : follow next head i = some a) : a ∈ nodes := by
  induction i generalizing a with
  | zero => exact hh a h
  | succ i ih =>
    rw [follow_succ, Option.bind_eq_some_iff] at h
    obtain ⟨b, hb, hba⟩ := h
    exact hn b (ih hb) a hba

theorem exists_repeat (h : follow next head nodes.card ≠ none) : ∃ i p, 0 < p ∧
    i + p ≤ nodes.card ∧ follow next head i = follow next head (i + p) := by
  have hmaps : Set.MapsTo (follow next head) (Finset.range (nodes.card + 1))
      (nodes.map Function.Embedding.some) := by
    intro i hi
    have hi' : i ≤ nodes.card := Nat.lt_succ_iff.1 (Finset.mem_range.1 hi)
    obtain ⟨a, ha⟩ := Option.ne_none_iff_exists'.1 fun hz => h (follow_none hz hi')
    rw [ha]
    exact Finset.mem_map_of_mem _ (follow_mem hh hn ha)
  obtain ⟨i, hi, j, hj, hne, he⟩ := Finset.exists_ne_map_eq_of_card_lt_of_maps_to
    (by rw [Finset.card_map, Finset.card_range]; exact Nat.lt_succ_self _) hmaps
  rw [Finset.mem_range, Nat.lt_succ_iff] at hi hj
  rcases Nat.lt_or_gt_of_ne hne with hlt | hlt
  · obtain ⟨p, rfl⟩ := Nat.exists_eq_add_of_lt hlt
    exact ⟨i, p + 1, Nat.succ_pos p, hj, he⟩
  · obtain ⟨p, rfl⟩ := Nat.exists_eq_add_of_lt hlt
    exact ⟨j, p + 1, Nat.succ_pos p, hi, he.symm⟩

/-- On a walk that does not end, a pointer that moves two links at a time meets one that moves one
link at a time, after no more moves than there are nodes. -/
theorem exists_meeting (h : follow next head nodes.card ≠ none) : ∃ n, 0 < n ∧ n ≤ nodes.card ∧
    follow next head n = follow next head (2 * n) := by
  obtain ⟨i, p, hp, hle, he⟩ := exists_repeat hh hn h
  -- the first multiple of the period behind the tail
  have hlt : i < p * (i / p + 1) := Nat.lt_mul_div_succ i hp
  have hmul : p * (i / p) ≤ i := Nat.mul_div_le i p
  have htwo : 2 * (p * (i / p + 1)) = p * (i / p + 1) + (i / p + 1) * p := by
    rw [Nat.two_mul, Nat.mul_comm (i / p + 1) p]
  refine ⟨p * (i / p + 1), Nat.zero_lt_of_lt hlt, ?_, ?_⟩
  · rw [Nat.mul_succ]
    omega
  · rw [htwo, follow_period he hlt.le]

end Finite

end Osh.Lib
