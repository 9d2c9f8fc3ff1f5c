import Mathlib.Data.BitVec
import Mathlib.Data.List.Nodup
import Mathlib.Logic.Function.Basic

namespace Osh.Lib
open Function (update)

variable {ι α : Type*} [DecidableEq ι] {f : ι → α} {as bs : List ι} {vs us : List α} {i : ι}

/-- The values `vs` written to the cells `as`, one after the other. -/
def write (f : ι → α) : List ι → List α → ι → α
  | a :: as, v :: vs => write (update f a v) as vs
  | _, _ => f

@[simp] theorem write_nil : write f [] vs = f := by cases vs <;> rfl

@[simp] theorem write_cons {a : ι} {v : α} :
    write f (a :: as) (v :: vs) = write (update f a v) as vs := rfl

theorem write_of_notMem (hi : i ∉ as) : write f as vs i = f i := by
  induction as generalizing f vs with
  | nil => rw [write_nil]
  | cons a as ih =>
    rw [List.mem_cons, not_or] at hi
    cases vs with
    | nil => rfl
    | cons v vs => rw [write_cons, ih hi.2, Function.update_of_ne hi.1]

theorem map_write_of_disjoint (h : bs.Disjoint as) : bs.map (write f as vs) = bs.map f := by
  apply List.map_congr_left
  intro i hi
  exact write_of_notMem (h hi)

/-- What was written to different cells can be read again. -/
theorem map_write (has : as.Nodup) (hl : as.length = vs.length) : as.map (write f as vs) = vs := by
  induction as generalizing f vs with
  | nil =>
    cases vs with
    | nil => rfl
    | cons v vs => cases hl
  | cons a as ih =>
    cases vs with
    | nil => cases hl
    | cons v vs =>
      obtain ⟨ha, has⟩ := List.nodup_cons.1 has
      rw [List.map_cons, write_cons, write_of_notMem ha, Function.update_self,
        ih has (Nat.succ.inj hl)]

theorem write_replicate {v : α} (hi : i ∈ as) :
    write f as (List.replicate as.length v) i = v := by
  induction as generalizing f with
  | nil => cases hi
  | cons a as ih =>
    rw [List.length_cons, List.replicate_succ, write_cons]
    by_cases has : i ∈ as
    · exact ih has
    · obtain rfl := (List.mem_cons.1 hi).resolve_right has
      rw [write_of_notMem has, Function.update_self]

theorem map_write_append (h : (as ++ bs).Nodup) (ha : as.length = vs.length)
    (hb : bs.length = us.length) : (as ++ bs).map (write (write f bs us) as vs) = vs ++ us := by
  obtain ⟨has, hbs, hd⟩ := List.nodup_append'.1 h
  have hd' : bs.Disjoint as := List.disjoint_comm.1 hd
  rw [List.map_append, map_write has ha, map_write_of_disjoint hd',
    map_write hbs hb]

section Words
variable {w : Nat} {a x : BitVec w} {n k m : Nat}

/-- The addresses of `n` words of four bytes from `a` on. -/
def words (a : BitVec w) : Nat → List (BitVec w)
  | 0 => []
  | n + 1 => a :: words (a + 4) n

@[simp] theorem length_words : (words a n).length = n := by
  induction n generalizing a with
  | zero => rfl
  | succ n ih => rw [words, List.length_cons, ih]

theorem words_add : words a (n + k) = words a n ++ words (a + BitVec.ofNat w (4 * n)) k := by
  induction n generalizing a with
  | zero => simp [words]
  | succ n ih =>
    have ha : a + 4 + BitVec.ofNat w (4 * n) = a + BitVec.ofNat w (4 * (n + 1)) := by
      rw [Nat.mul_succ, Nat.add_comm (4 * n), BitVec.ofNat_add, BitVec.add_assoc]
      rfl
    rw [Nat.succ_add, words, words, ih, ha, List.cons_append]

theorem mem_words : x ∈ words a n ↔ ∃ i < n, x = a + BitVec.ofNat w (4 * i) := by
  induction n generalizing a with
  | zero => simp [words]
  | succ n ih =>
    rw [words_add, List.mem_append, ih, words, words, List.mem_singleton]
    constructor
    · rintro (⟨i, hi, hx⟩ | hx)
      · exact ⟨i, Nat.lt_succ_of_lt hi, hx⟩
      · exact ⟨n, Nat.lt_succ_self n, hx⟩
    · rintro ⟨i, hi, hx⟩
      rcases Nat.lt_succ_iff_lt_or_eq.1 hi with hi | rfl
      · exact .inl ⟨i, hi, hx⟩
      · exact .inr hx

theorem notMem_words (hn : 4 * (n + 1) ≤ 2 ^ w) : a + BitVec.ofNat w (4 * n) ∉ words a n := by
  intro hm
  obtain ⟨i, hi, hx⟩ := mem_words.1 hm
  have he := congrArg BitVec.toNat (add_left_cancel hx)
  rw [BitVec.toNat_ofNat, BitVec.toNat_ofNat, Nat.mod_eq_of_lt (by omega),
    Nat.mod_eq_of_lt (by omega)] at he
  omega

theorem nodup_words (hn : 4 * n ≤ 2 ^ w) : (words a n).Nodup := by
  induction n with
  | zero => exact List.nodup_nil
  | succ n ih =>
    rw [words_add, List.nodup_append']
    refine ⟨ih (by omega), List.nodup_singleton _, ?_⟩
    exact List.disjoint_singleton.2 (notMem_words hn)

theorem take_words : (words a n).take k = words a (min k n) := by
  rcases Nat.le_total k n with h | h
  · obtain ⟨m, rfl⟩ := Nat.exists_eq_add_of_le h
    rw [Nat.min_eq_left h, words_add, List.take_append_of_le_length length_words.ge,
      List.take_of_length_le length_words.le]
  · rw [Nat.min_eq_right h, List.take_of_length_le (length_words.trans_le h)]

theorem words_sub (h : k + n ≤ m) : ∀ x ∈ words (a + BitVec.ofNat w (4 * k)) n, x ∈ words a m := by
  intro x hx
  obtain ⟨i, hi, rfl⟩ := mem_words.1 hx
  refine mem_words.2 ⟨k + i, by omega, ?_⟩
  rw [Nat.mul_add, BitVec.ofNat_add, BitVec.add_assoc]

end Words

end Osh.Lib
