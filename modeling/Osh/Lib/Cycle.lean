import Mathlib.Data.Fintype.EquivFin
import Mathlib.Data.Int.ModEq
import Mathlib.Data.List.Rotate

namespace Osh.Lib

variable {α : Type*} {l : List α} {a : α} {i j : Nat}

/-- The element at a position that is counted round the list. -/
def cyclic (l : List α) (i : Nat) : Option α := l[i % l.length]?

theorem cyclic_mem (h : cyclic l i = some a) : a ∈ l := List.mem_of_getElem? h

theorem exists_cyclic (hl : l ≠ []) (i : Nat) : ∃ a, cyclic l i = some a :=
  ⟨_, List.getElem?_eq_getElem (Nat.mod_lt i (List.length_pos_of_ne_nil hl))⟩

@[simp] theorem cyclic_add_length : cyclic l (i + l.length) = cyclic l i := by
  unfold cyclic
  rw [Nat.add_mod_right]

theorem cyclic_idxOf [BEq α] [LawfulBEq α] (ha : a ∈ l) : cyclic l (l.idxOf a) = some a := by
  unfold cyclic
  rw [Nat.mod_eq_of_lt (List.idxOf_lt_length_iff.2 ha)]
  exact List.getElem?_idxOf ha

/-- The list around a position: the next element is the head of what follows on a round. -/
theorem cyclic_split (h : cyclic l i = some a) : ∃ pre post, l = pre ++ a :: post ∧
    cyclic l (i + 1) = (post ++ (pre ++ [a])).head? := by
  obtain ⟨hi, ha⟩ := List.getElem?_eq_some_iff.1 h
  have hl : l = l.take (i % l.length) ++ a :: l.drop (i % l.length + 1) := by
    rw [← ha, List.cons_getElem_drop_succ, List.take_append_drop]
  have hlen : (l.take (i % l.length) ++ [a]).length = i % l.length + 1 := by
    rw [List.length_append, List.length_take_of_le hi.le]
    rfl
  refine ⟨_, _, hl, ?_⟩
  have hpos : 0 < l.length := Nat.lt_of_le_of_lt (Nat.zero_le _) hi
  rw [← List.rotate_append_length_eq, hlen, List.append_assoc, List.singleton_append, ← hl, cyclic,
    ← List.head?_rotate (Nat.mod_lt _ hpos), List.rotate_mod, ← List.rotate_mod l (_ % _ + 1),
    Nat.mod_add_mod, List.rotate_mod]

theorem cyclic_succ_ne (hl : l.Nodup) (hn : 1 < l.length) (h : cyclic l i = some a) :
    cyclic l (i + 1) ≠ some a := by
  intro h'
  obtain ⟨pre, post, rfl, hnext⟩ := cyclic_split h
  rw [hnext] at h'
  obtain ⟨hpost, hpre, -⟩ := List.nodup_append.1 hl
  cases post with
  | nil =>
    cases pre with
    | nil => simp at hn
    | cons b pre =>
      cases h'
      exact List.disjoint_of_nodup_append hl List.mem_cons_self List.mem_cons_self
  | cons b post =>
    cases h'
    exact (List.nodup_cons.1 hpre).1 List.mem_cons_self

/-- One round comes to each element once. -/
theorem existsUnique_cyclic (hl : l.Nodup) (ha : a ∈ l) (i : Nat) :
    ∃! j, j < l.length ∧ cyclic l (i + (j + 1)) = some a := by
  have hpos : 0 < l.length := List.length_pos_of_mem ha
  have hinj : Function.Injective fun j : Fin l.length =>
      (⟨(i + (j + 1)) % l.length, Nat.mod_lt _ hpos⟩ : Fin l.length) := by
    intro j j' h
    have hmod : Nat.ModEq l.length (i + (j + 1)) (i + (j' + 1)) := Fin.mk.inj h
    have hmod' := (Nat.ModEq.add_left_cancel' i hmod).add_right_cancel' 1
    exact Fin.ext (hmod'.eq_of_lt_of_lt j.isLt j'.isLt)
  obtain ⟨n, hn, rfl⟩ := List.getElem_of_mem ha
  obtain ⟨j, hj, huniq⟩ := (Finite.injective_iff_bijective.1 hinj).existsUnique ⟨n, hn⟩
  have hj : (i + (j + 1)) % l.length = n := Fin.mk.inj hj
  refine ⟨j, ⟨j.isLt, ?_⟩, fun j' h => ?_⟩
  · unfold cyclic
    rw [hj]
    exact List.getElem?_eq_getElem hn
  · obtain ⟨hlt, hget⟩ := h
    obtain ⟨hlt', hget⟩ := List.getElem?_eq_some_iff.1 hget
    have hpos' : (i + (j' + 1)) % l.length = n := (hl.getElem_inj_iff).1 hget
    exact congrArg Fin.val (huniq ⟨j', hlt⟩ (Fin.ext hpos'))

end Osh.Lib
