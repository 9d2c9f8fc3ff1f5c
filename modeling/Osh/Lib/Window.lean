import Mathlib.Data.Int.ModEq
import Mathlib.Data.List.Basic
import Mathlib.Logic.Function.Basic

namespace Osh.Lib
open Function (update)

variable {α : Type*} {f : Nat → α} {a : α} {n s l : Nat}

/-- The `l` cells of a ring of `n` cells from `s` on. -/
def window (f : Nat → α) (n s l : Nat) : List α :=
  (List.range l).map fun i => f ((s + i) % n)

theorem window_succ : window f n s (l + 1) = window f n s l ++ [f ((s + l) % n)] := by
  simp [window, List.range_succ]

theorem window_cons : window f n s (l + 1) = f (s % n) :: window f n ((s + 1) % n) l := by
  simp only [window, List.range_succ_eq_map, List.map_cons, List.map_map, Nat.add_zero]
  congr 1
  apply List.map_congr_left
  intro i _
  simp only [Function.comp_apply, Nat.mod_add_mod]
  rw [Nat.succ_eq_add_one, Nat.add_assoc, Nat.add_comm 1 i]

theorem window_update (hl : l < n) : window (update f ((s + l) % n) a) n s l = window f n s l := by
  apply List.map_congr_left
  intro i hi
  have hil : i < l := List.mem_range.1 hi
  apply Function.update_of_ne
  intro h
  have hmod : Nat.ModEq n i l := Nat.ModEq.add_left_cancel' s h
  have he := hmod.eq_of_lt_of_lt (hil.trans hl) hl
  omega

/-- A write behind the window makes it longer by the cell that is written. -/
theorem window_push (hl : l < n) :
    window (update f ((s + l) % n) a) n s (l + 1) = window f n s l ++ [a] := by
  rw [window_succ, window_update hl, Function.update_self]

end Osh.Lib
