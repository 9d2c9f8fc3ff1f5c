import Mathlib.Data.List.Basic
import Mathlib.Data.List.Nodup
import Mathlib.Logic.Function.Basic

namespace Osh.Lib
open Function (update)

variable {α : Type*}

/-- Following `next` from `head` visits `l` and then arrives at `stop`. -/
def Segment (next : α → Option α) : Option α → List α → Option α → Prop
  | head, [], stop => head = stop
  | head, a :: l, stop => head = some a ∧ Segment next (next a) l stop

def Chain (next : α → Option α) (head : Option α) (l : List α) : Prop :=
  Segment next head l none

variable {next next' : α → Option α} {head stop mid : Option α} {l l' : List α} {a : α}

@[simp] theorem chain_nil : Chain next head [] ↔ head = none := Iff.rfl

@[simp] theorem chain_cons :
    Chain next head (a :: l) ↔ head = some a ∧ Chain next (next a) l := Iff.rfl

theorem chain_none : Chain next none l ↔ l = [] := by
  cases l with
  | nil => simp
  | cons a l => simp

theorem chain_some : Chain next (some a) l ↔ ∃ l', l = a :: l' ∧ Chain next (next a) l' := by
  cases l with
  | nil => simp
  | cons b l =>
    rw [chain_cons]
    constructor
    · rintro ⟨he, h⟩
      cases he
      exact ⟨l, rfl, h⟩
    · rintro ⟨l', he, h⟩
      cases he
      exact ⟨rfl, h⟩

theorem Chain.head_eq (h : Chain next head l) : head = l.head? := by
  cases l with
  | nil => exact h
  | cons a l => exact h.1

theorem segment_append :
    Segment next head (l ++ l') stop ↔
      ∃ mid, Segment next head l mid ∧ Segment next mid l' stop := by
  induction l generalizing head with
  | nil => simp [Segment]
  | cons a l ih => simp only [List.cons_append, Segment, ih, exists_and_left, and_assoc]

theorem Segment.append (h : Segment next head l mid) (h' : Chain next mid l') :
    Chain next head (l ++ l') :=
  segment_append.2 ⟨mid, h, h'⟩

theorem Chain.split (h : Chain next head (l ++ l')) :
    ∃ mid, Segment next head l mid ∧ Chain next mid l' :=
  segment_append.1 h

theorem Segment.head_ne (h : Segment next head l stop) (hl : l.Nodup) :
    ∀ a ∈ l.tail, head ≠ some a := by
  cases l with
  | nil => nofun
  | cons b l =>
    obtain ⟨rfl, -⟩ := h
    intro a ha he
    cases he
    exact (List.nodup_cons.1 hl).1 ha

theorem Segment.congr (h : Segment next head l stop) (hn : ∀ a ∈ l, next' a = next a) :
    Segment next' head l stop := by
  induction l generalizing head with
  | nil => exact h
  | cons a l ih =>
    refine ⟨h.1, ih ?_ fun b hb => hn b (List.mem_cons_of_mem _ hb)⟩
    rw [hn a List.mem_cons_self]
    exact h.2

theorem Segment.congr_of (h : Segment next head l (some a))
    (hn : ∀ b c, next b = some c → next' b = some c) : Segment next' head l (some a) := by
  induction l generalizing head with
  | nil => exact h
  | cons b l ih =>
    obtain ⟨rfl, h⟩ := h
    refine ⟨rfl, ?_⟩
    cases l with
    | nil => exact hn b a h
    | cons c l =>
      rw [hn b c h.1]
      exact ih ⟨rfl, h.2⟩

theorem Segment.invariant {P : α → Prop} (h : Segment next head l (some a))
    (hh : ∀ b, head = some b → P b) (hn : ∀ b c, next b = some c → P c) : P a := by
  induction l generalizing head with
  | nil => exact hh a h
  | cons b l ih => exact ih h.2 (hn b)

theorem Chain.congr (h : Chain next head l) (hn : ∀ a ∈ l, next' a = next a) :
    Chain next' head l :=
  Segment.congr h hn

theorem Chain.unique (h : Chain next head l) (h' : Chain next head l') : l = l' := by
  induction l generalizing head l' with
  | nil =>
    rw [chain_nil] at h
    subst head
    exact (chain_none.1 h').symm
  | cons a l ih =>
    obtain ⟨rfl, h⟩ := h
    obtain ⟨m, rfl, hm⟩ := chain_some.1 h'
    rw [ih h hm]

theorem Chain.suffix (h : Chain next head (l ++ a :: l')) : Chain next (some a) (a :: l') := by
  obtain ⟨mid, _, hm⟩ := h.split
  exact ⟨rfl, hm.2⟩

theorem Chain.eq_append (h : Chain next head l) (hp : Segment next head l' (some a)) :
    ∃ m, l = l' ++ a :: m := by
  induction l' generalizing head l with
  | nil =>
    obtain rfl : head = some a := hp
    obtain ⟨m, rfl, -⟩ := chain_some.1 h
    exact ⟨m, rfl⟩
  | cons b l' ih =>
    obtain ⟨rfl, hp⟩ := hp
    obtain ⟨l, rfl, hl⟩ := chain_some.1 h
    obtain ⟨m, rfl⟩ := ih hl hp
    exact ⟨m, rfl⟩

/-- A chain visits exactly the nodes that its segments lead to. -/
theorem Chain.mem_iff (h : Chain next head l) : a ∈ l ↔ ∃ l', Segment next head l' (some a) := by
  constructor
  · intro ha
    obtain ⟨l', m, rfl⟩ := List.append_of_mem ha
    obtain ⟨mid, hp, rfl, -⟩ := h.split
    exact ⟨l', hp⟩
  · rintro ⟨l', hp⟩
    obtain ⟨m, rfl⟩ := h.eq_append hp
    simp

theorem Chain.nodup (h : Chain next head l) : l.Nodup := by
  induction l generalizing head with
  | nil => exact List.nodup_nil
  | cons a l ih =>
    refine List.nodup_cons.2 ⟨fun ha => ?_, ih h.2⟩
    obtain ⟨x, y, rfl⟩ := List.append_of_mem ha
    have hs : Chain next (some a) (a :: y) := Chain.suffix (l := a :: x) h
    have hl := congrArg List.length (hs.unique (chain_cons.2 ⟨rfl, h.2⟩))
    simp only [List.length_cons, List.length_append] at hl
    omega

theorem Chain.next_ne_none_iff (h : Chain next head l) (ha : a ∈ l) :
    next a ≠ none ↔ a ∈ l.dropLast := by
  induction l generalizing head with
  | nil => cases ha
  | cons b l ih =>
    have hn := h.nodup
    obtain ⟨rfl, hnext⟩ := h
    cases l with
    | nil =>
      obtain rfl := List.mem_singleton.1 ha
      have hz : next a = none := hnext
      simp [hz]
    | cons c l =>
      rw [List.dropLast_cons_cons, List.mem_cons]
      rcases List.mem_cons.1 ha with rfl | ha
      · have hc : next a = some c := hnext.1
        simp [hc]
      · have hab : a ≠ b := fun he => (List.nodup_cons.1 hn).1 (he ▸ ha)
        rw [ih hnext ha, or_iff_right hab]

variable [DecidableEq α] {p : α} {v : Option α}

theorem Segment.update_of_notMem (h : Segment next head l stop) (ha : a ∉ l) :
    Segment (update next a v) head l stop :=
  h.congr fun _ hb => Function.update_of_ne (ne_of_mem_of_not_mem hb ha) _ _

theorem Chain.update_of_notMem (h : Chain next head l) (ha : a ∉ l) :
    Chain (update next a v) head l :=
  Segment.update_of_notMem h ha

/-- A write to the pointer that a walk reached `v` through: the head of the list, or the link of
the node before. -/
def setLink (head : Option α) (next : α → Option α) (previous v : Option α) :
    Option α × (α → Option α) :=
  match previous with
  | none => (v, next)
  | some p => (head, update next p v)

theorem Chain.setLink {m : List α} (h : Chain next head (l ++ l')) (hv : Chain next v m)
    (hd : ∀ a ∈ l, a ∉ m) :
    Chain (setLink head next l.getLast? v).2 (setLink head next l.getLast? v).1 (l ++ m) := by
  rcases List.eq_nil_or_concat l with rfl | ⟨x, p, rfl⟩
  · exact hv
  · rw [List.concat_eq_append] at h hd ⊢
    have hp : p ∉ x := by
      have hn := h.nodup
      simp only [List.append_assoc, List.nodup_append, List.mem_append] at hn
      exact fun hx => hn.2.2 p hx p (.inl List.mem_cons_self) rfl
    simp only [List.append_assoc, List.singleton_append, List.getLast?_append,
      List.getLast?_singleton, Option.some_or] at h hd ⊢
    obtain ⟨mid, hx, rfl, _⟩ := h.split
    refine (hx.update_of_notMem hp).append ⟨rfl, ?_⟩
    rw [Function.update_self]
    exact hv.update_of_notMem (hd p (by simp))

theorem setLink_ne {x : α} (hx : x ∉ l) :
    (Lib.setLink head next l.getLast? v).2 x = next x := by
  cases hl : l.getLast? with
  | none => rfl
  | some p =>
    exact Function.update_of_ne (ne_of_mem_of_not_mem (List.mem_of_getLast? hl) hx).symm _ _

theorem setLink_head {b : α} (h : (Lib.setLink head next stop v).1 = some b) :
    head = some b ∨ v = some b := by
  cases stop with
  | none => exact .inr h
  | some p => exact .inl h

theorem setLink_link {b : α} (h : (Lib.setLink head next stop v).2 a = some b) :
    next a = some b ∨ v = some b := by
  cases stop with
  | none => exact .inl h
  | some p =>
    simp only [Lib.setLink, Function.update_apply] at h
    split_ifs at h
    · exact .inr h
    · exact .inl h

/-- Linking a new node between a prefix of a chain and the rest. -/
theorem Chain.insert (h : Chain next head (l ++ l')) (ha : a ∉ l ++ l') :
    Chain (Lib.setLink head (update next a l'.head?) l.getLast? (some a)).2
      (Lib.setLink head (update next a l'.head?) l.getLast? (some a)).1 (l ++ a :: l') := by
  rw [List.mem_append, not_or] at ha
  obtain ⟨mid, _, hm⟩ := h.split
  have hv : Chain (update next a l'.head?) (some a) (a :: l') := by
    refine ⟨rfl, ?_⟩
    rw [Function.update_self, ← hm.head_eq]
    exact hm.update_of_notMem ha.2
  apply (h.update_of_notMem (by simp [ha])).setLink hv
  intro b hb hb'
  rcases List.mem_cons.1 hb' with rfl | hb'
  · exact ha.1 hb
  · exact (List.nodup_append.1 h.nodup).2.2 b hb b hb' rfl

/-- Unlinking a node and clearing its link. -/
theorem Chain.unlink (h : Chain next head (l ++ a :: l')) :
    Chain (update (Lib.setLink head next l.getLast? (next a)).2 a none)
      (Lib.setLink head next l.getLast? (next a)).1 (l ++ l') := by
  have hn := h.nodup
  simp only [List.nodup_append, List.nodup_cons, List.mem_cons] at hn
  obtain ⟨mid, _, hm⟩ := h.split
  refine Chain.update_of_notMem (h.setLink hm.2 fun b hb hb' => ?_) fun ha => ?_
  · exact hn.2.2 b hb b (.inr hb') rfl
  · rcases List.mem_append.1 ha with ha | ha
    · exact hn.2.2 a ha a (.inl rfl) rfl
    · exact hn.2.1.1 ha

/-- Clearing the link of a node cuts off what follows it. -/
theorem Chain.truncate (h : Chain next head (l ++ a :: l')) :
    Chain (update next a none) head (l ++ [a]) := by
  have hn := h.nodup
  simp only [List.nodup_append, List.mem_cons] at hn
  obtain ⟨mid, hl, hm, _⟩ := h.split
  refine (hl.update_of_notMem fun ha => hn.2.2 a ha a (.inl rfl) rfl).append ⟨hm, ?_⟩
  exact Function.update_self ..

/-- Every walk along `next` ends. -/
def Grounded (next : α → Option α) : Prop :=
  ∀ a, ∃ l, Chain next (some a) l

omit [DecidableEq α] in
theorem Grounded.chain (h : Grounded next) (head : Option α) : ∃ l, Chain next head l := by
  cases head with
  | none => exact ⟨[], rfl⟩
  | some a => exact h a

theorem Grounded.clear (h : Grounded next) : Grounded (update next a none) := by
  intro b
  obtain ⟨l, hl⟩ := h b
  by_cases ha : a ∈ l
  · obtain ⟨x, y, rfl⟩ := List.append_of_mem ha
    exact ⟨_, hl.truncate⟩
  · exact ⟨l, hl.update_of_notMem ha⟩

/-- A node may be redirected to a walk that does not lead back to it. -/
theorem Grounded.redirect {m : List α} (h : Grounded next) (hv : Chain next v m) (hp : p ∉ m) :
    Grounded (update next p v) := by
  intro b
  obtain ⟨l, hl⟩ := h b
  by_cases hpl : p ∈ l
  · obtain ⟨x, y, rfl⟩ := List.append_of_mem hpl
    obtain ⟨mid, hx, rfl, -⟩ := hl.split
    have hpx : p ∉ x := by
      have hn := hl.nodup
      rw [List.nodup_middle, List.nodup_cons] at hn
      exact fun hm => hn.1 (List.mem_append_left _ hm)
    refine ⟨x ++ p :: m, (hx.update_of_notMem hpx).append ⟨rfl, ?_⟩⟩
    rw [Function.update_self]
    exact hv.update_of_notMem hp
  · exact ⟨l, hl.update_of_notMem hpl⟩

theorem Grounded.setLink {m : List α} (h : Grounded next) (hv : Chain next v m)
    (hp : ∀ a ∈ l, a ∉ m) : Grounded (Lib.setLink head next l.getLast? v).2 := by
  cases hl : l.getLast? with
  | none => exact h
  | some p => exact h.redirect hv (hp p (List.mem_of_getLast? hl))

end Osh.Lib
