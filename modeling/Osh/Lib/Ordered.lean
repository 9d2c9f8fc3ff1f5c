import Mathlib.Data.List.Sort

namespace Osh.Lib

variable {α : Type*} {lt le : α → α → Prop} [DecidableRel lt] {a : α} {l : List α}

/-- Inserting before the first element that is strictly behind keeps a list sorted. -/
theorem pairwise_orderedInsert (hlt : ∀ a b, lt a b → le a b) (hge : ∀ a b, ¬ lt a b → le b a)
    (htrans : ∀ a b c, le a b → le b c → le a c) (h : l.Pairwise le) :
    (l.orderedInsert lt a).Pairwise le := by
  induction l with
  | nil => simp
  | cons b l ih =>
    rw [List.orderedInsert]
    obtain ⟨hb, hl⟩ := List.pairwise_cons.1 h
    split_ifs with hab
    · refine List.pairwise_cons.2 ⟨fun c hc => ?_, h⟩
      rcases List.mem_cons.1 hc with rfl | hc
      · exact hlt _ _ hab
      · exact htrans _ _ _ (hlt _ _ hab) (hb c hc)
    · refine List.pairwise_cons.2 ⟨fun c hc => ?_, ih hl⟩
      rcases (List.mem_orderedInsert _).1 hc with rfl | hc
      · exact hge _ _ hab
      · exact hb c hc

theorem orderedInsert_append {l' : List α} (h : ∀ b ∈ l, ¬ lt a b) :
    (l ++ l').orderedInsert lt a = l ++ l'.orderedInsert lt a := by
  induction l with
  | nil => rfl
  | cons b l ih =>
    rw [List.cons_append, List.orderedInsert, if_neg (h b List.mem_cons_self),
      ih fun c hc => h c (List.mem_cons_of_mem b hc)]
    rfl

theorem sublist_before {pre pre' post post' : List α} (hn : (pre ++ a :: post).Nodup)
    (h : (pre' ++ a :: post').Sublist (pre ++ a :: post)) : pre'.Sublist pre := by
  induction pre generalizing pre' with
  | nil =>
    cases pre' with
    | nil => exact .slnil
    | cons b pre' =>
      have hpost : (pre' ++ a :: post').Sublist post := by
        cases h with
        | cons _ h => exact (List.sublist_cons_self b _).trans h
        | cons_cons _ h => exact h
      have ha : a ∈ post := hpost.subset (by simp)
      exact absurd ha (List.nodup_cons.1 hn).1
  | cons b pre ih =>
    have hn' := (List.nodup_cons.1 hn).2
    cases pre' with
    | nil => exact List.nil_sublist _
    | cons c pre' =>
      cases h with
      | cons _ h => exact (ih hn' h).cons b
      | cons_cons _ h => exact (ih hn' h).cons_cons b

end Osh.Lib
