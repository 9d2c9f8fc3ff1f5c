import Osh.BlockedSpec

namespace Osh
open Function (update)
open Lib

variable {o o' : Objects} {w w' : Waitable} {t x : TaskId} {l pre post : List TaskId} {n : Nat}
  {L : Waitable → List TaskId}

abbrev Relisted (o o' : Objects) : Prop :=
  o' = { o with blocked := o'.blocked, nblocked := o'.nblocked }

theorem Relisted.unlink {previous : Option TaskId} : Relisted o (o.unlink w previous t) := rfl

theorem Relisted.trans {o₁ : Objects} (h : Relisted o o₁) (h' : Relisted o₁ o') :
    Relisted o o' := by
  rw [Relisted, h', h]

theorem blockedRemoveLoop_relisted {previous head : Option TaskId}
    (h : blockedRemoveLoop w t n o previous head = .ok o') : Relisted o o' := by
  induction n generalizing previous head with
  | zero =>
    cases head with
    | none => cases h; rfl
    | some b => cases h
  | succ n ih =>
    cases head with
    | none => cases h; rfl
    | some b =>
      unfold blockedRemoveLoop at h
      split_ifs at h
      · cases previous with
        | none =>
          simp only [Except.ok.injEq] at h
          rw [← h]
        | some p =>
          simp only [Except.ok.injEq] at h
          rw [← h]
      · exact ih h

theorem detachList_relisted (h : detachList n o w t = .ok o') : Relisted o o' := by
  cases w with
  | mutex m =>
    unfold detachList at h
    dsimp only at h
    split_ifs at h
    · exact Relisted.unlink.trans (blockedRemoveLoop_relisted h)
    · exact blockedRemoveLoop_relisted h
  | queue q | semaphore s | rwlock r => exact blockedRemoveLoop_relisted h

/-- The blocked list of each object `w` holds `L w`, and no task is on two lists. -/
structure BlockedLists (o : Objects) (L : Waitable → List TaskId) : Prop where
  chain : ∀ w, Chain o.nblocked (o.blocked w) (L w)
  disjoint : ∀ w w' t, t ∈ L w → t ∈ L w' → w = w'
  unlinked : ∀ t, (∀ w, t ∉ L w) → o.nblocked t = none

namespace BlockedLists
variable (hl : BlockedLists o L)
include hl

theorem nodup (w : Waitable) : (L w).Nodup := (hl.chain w).nodup

theorem head (hb : o.blocked w = some t) : ∃ rest, L w = t :: rest :=
  List.head?_eq_some_iff.1 ((hl.chain w).head_eq.symm.trans hb)

theorem of_eq (hb : o'.blocked = o.blocked) (hn : o'.nblocked = o.nblocked) :
    BlockedLists o' L := by
  constructor
  · intro w
    rw [hb, hn]
    exact hl.chain w
  · exact hl.disjoint
  · intro t ht
    rw [hn]
    exact hl.unlinked t ht

theorem unlink (hw : L w = pre ++ t :: post) :
    BlockedLists (o.unlink w pre.getLast? t) (update L w (pre ++ post)) := by
  have htw : t ∈ L w := by simp [hw]
  have hpre : ∀ w' ≠ w, ∀ y ∈ pre, y ∉ L w' := fun w' hw' y hy hy' =>
    hw' (hl.disjoint w' w y hy' (by simp [hw, hy]))
  have hc := hl.chain w
  rw [hw] at hc
  have hn := hc.nodup
  constructor
  · intro w'
    by_cases he : w' = w
    · subst he
      simpa [Objects.unlink] using hc.unlink
    · have ht : t ∉ L w' := fun h => he (hl.disjoint w' w t h htw)
      simp only [Objects.unlink, Function.update_of_ne he]
      refine Chain.update_of_notMem ((hl.chain w').congr fun y hy => setLink_ne ?_) ht
      exact fun h => hpre w' he y h hy
  · intro w₁ w₂ y h₁ h₂
    have hsub : ∀ w', y ∈ update L w (pre ++ post) w' → y ∈ L w' := by
      intro w' h
      by_cases he : w' = w
      · subst he
        rw [Function.update_self] at h
        rw [hw]
        simp only [List.mem_append, List.mem_cons] at h ⊢
        tauto
      · rwa [Function.update_of_ne he] at h
    exact hl.disjoint w₁ w₂ y (hsub w₁ h₁) (hsub w₂ h₂)
  · intro y hy
    simp only [Objects.unlink, Function.update_apply]
    split_ifs with hyt
    · rfl
    · have hyw := hy w
      rw [Function.update_self, List.mem_append, not_or] at hyw
      rw [setLink_ne hyw.1]
      apply hl.unlinked y
      intro w' h
      by_cases he : w' = w
      · subst he
        rw [hw] at h
        simp [hyw, hyt] at h
      · exact hy w' (by rwa [Function.update_of_ne he])

theorem link (ht : ∀ w, t ∉ L w) :
    BlockedLists (o.link w (L w).getLast? t) (update L w (L w ++ [t])) := by
  have hnone := hl.unlinked t ht
  constructor
  · intro w'
    by_cases he : w' = w
    · subst he
      have hc : Chain o.nblocked (o.blocked w') (L w' ++ []) := by simpa using hl.chain w'
      have h := hc.insert (a := t) (by simpa using ht w')
      rw [List.head?_nil, ← hnone, Function.update_eq_self] at h
      simpa [Objects.link] using h
    · simp only [Objects.link, Function.update_of_ne he]
      refine (hl.chain w').congr fun y hy => setLink_ne fun h => he ?_
      exact hl.disjoint w' w y hy h
  · intro w₁ w₂ y h₁ h₂
    have hsub : ∀ w', y ∈ update L w (L w ++ [t]) w' → y ∈ L w' ∨ w' = w ∧ y = t := by
      intro w' h
      by_cases he : w' = w
      · subst he
        simpa using h
      · rw [Function.update_of_ne he] at h
        exact .inl h
    rcases hsub w₁ h₁ with hm₁ | ⟨he₁, hy₁⟩ <;> rcases hsub w₂ h₂ with hm₂ | ⟨he₂, hy₂⟩
    · exact hl.disjoint w₁ w₂ y hm₁ hm₂
    · exact absurd (hy₂ ▸ hm₁) (ht w₁)
    · exact absurd (hy₁ ▸ hm₂) (ht w₂)
    · rw [he₁, he₂]
  · intro y hy
    have hyw := hy w
    rw [Function.update_self, List.mem_append, not_or] at hyw
    simp only [Objects.link]
    rw [setLink_ne hyw.1]
    apply hl.unlinked y
    intro w' h
    by_cases he : w' = w
    · exact hyw.1 (he ▸ h)
    · exact hy w' (by rwa [Function.update_of_ne he])

end BlockedLists

theorem detachList_spec (h : detachList n o w t = .ok o')
    (hc : Chain o.nblocked (o.blocked w) l) :
    t ∉ l ∧ o' = o ∨ ∃ pre post, l = pre ++ t :: post ∧ o' = o.unlink w pre.getLast? t := by
  cases w with
  | queue q | semaphore s | rwlock r => exact blockedRemove_spec h hc
  | mutex m =>
    unfold detachList at h
    dsimp only at h
    split_ifs at h with hm
    · obtain ⟨post, rfl, hp⟩ := chain_some.1 (hm ▸ hc)
      refine .inr ⟨[], post, rfl, ?_⟩
      have hc' : Chain (o.unlink (.mutex m) none t).nblocked
          ((o.unlink (.mutex m) none t).blocked (.mutex m)) post := by
        simpa [Objects.unlink] using Chain.unlink (l := []) hc
      have hn := hc.nodup
      rcases blockedRemove_spec h hc' with ⟨-, ho⟩ | ⟨pre, post, rfl, -⟩
      · exact ho
      · simp at hn
    · exact blockedRemove_spec h hc

/-- A dispatch of `t` takes it off the list that it is on, and leaves the others in their order. -/
theorem BlockedLists.detachList (hl : BlockedLists o L) (h : detachList n o w t = .ok o')
    (ht : ∀ w', t ∈ L w' → w' = w) : BlockedLists o' fun w => (L w).erase t := by
  have hother : ∀ w' ≠ w, (L w').erase t = L w' := fun w' he =>
    List.erase_of_not_mem fun hm => he (ht w' hm)
  rcases detachList_spec h (hl.chain w) with ⟨hn, rfl⟩ | ⟨pre, post, hw, rfl⟩
  · have he : (fun w => (L w).erase t) = L := by
      funext w'
      by_cases he : w' = w
      · rw [he, List.erase_of_not_mem hn]
      · exact hother w' he
    rwa [he]
  · have he : (fun w => (L w).erase t) = update L w (pre ++ post) := by
      funext w'
      by_cases he : w' = w
      · subst he
        have hn := hl.nodup w'
        rw [hw] at hn
        have htp : t ∉ pre := fun h =>
          (List.nodup_append.1 hn).2.2 t h t List.mem_cons_self rfl
        rw [Function.update_self, hw, List.erase_append_right _ htp, List.erase_cons_head]
      · rw [Function.update_of_ne he, hother w' he]
    rw [he]
    exact hl.unlink hw

end Osh
