import Mathlib.Algebra.Order.Ring.Nat
import Mathlib.Algebra.BigOperators.Group.List.Basic
import Mathlib.Data.List.Nodup

namespace Osh.Lib

variable {α : Type*} [DecidableEq α] {l : List α} {f g : α → Nat} {a : α}

theorem sum_map_of_eq_off (hn : l.Nodup) (ha : a ∈ l) (h : ∀ x, x ≠ a → g x = f x) :
    (l.map g).sum + f a = (l.map f).sum + g a := by
  have hp := List.perm_cons_erase ha
  have hrest : (l.erase a).map g = (l.erase a).map f :=
    List.map_congr_left fun x hx => h x (hn.mem_erase_iff.1 hx).1
  rw [(hp.map g).sum_eq, (hp.map f).sum_eq, List.map_cons, List.map_cons, List.sum_cons,
    List.sum_cons, hrest]
  omega

end Osh.Lib
