/-
# Ledgers of numbered tokens

Tokens are numbered in the order in which they are taken in. A ledger lists the numbers found in
all places together; every token is in EXACTLY ONE place if the list is a permutation of `0, …,
taken - 1`.

* `Filed ks l l'`: from `l` to `l'` as many tokens as `ks` is long were taken in, the `i`-th was put
  into `ks[i]` places, and older tokens at most changed places.
* `Filed.linear_iff`: ownership stays linear EXACTLY when every new token went to one place. A
  token lost can never make up for another one doubled, because numbers are not reused.
-/
import Mathlib.Data.List.Nodup
import Mathlib.Data.List.Perm.Basic
import Mathlib.Data.List.Count

namespace MixiPgw.Lib

open List Function

structure Ledger where
  places : List Nat
  taken : Nat

namespace Ledger

def Linear (l : Ledger) : Prop := l.places.Perm (range l.taken)

def Numbered (l : Ledger) : Prop := ∀ i ∈ l.places, i < l.taken

/-- The entries for tokens `n, n + 1, …` that went to `ks` places. -/
def receipts : List Nat → Nat → List Nat
  | [], _ => []
  | k :: ks, n => replicate k n ++ receipts ks (n + 1)

/-- The step from one ledger to the next. -/
def Filed (ks : List Nat) (l l' : Ledger) : Prop :=
  l'.taken = l.taken + ks.length ∧ l'.places.Perm (l.places ++ receipts ks l.taken)

theorem receipts_append : ∀ (ks ks' : List Nat) (n : Nat),
    receipts (ks ++ ks') n = receipts ks n ++ receipts ks' (n + ks.length)
  | [], _, _ => rfl
  | k :: ks, ks', n => by
    simp only [cons_append, receipts, receipts_append ks ks', append_assoc,
      length_cons, Nat.add_assoc, Nat.add_comm 1]

theorem Linear.numbered {l : Ledger} (h : l.Linear) : l.Numbered :=
  fun _ hi => mem_range.mp (h.mem_iff.mp hi)

theorem Filed.moved {l l' : Ledger} (htaken : l'.taken = l.taken) (h : l'.places.Perm l.places) :
    Filed [] l l' :=
  ⟨htaken, by simpa [receipts] using h⟩

theorem Filed.one {k : Nat} {l l' : Ledger} (htaken : l'.taken = l.taken + 1)
    (h : l'.places.Perm (l.places ++ replicate k l.taken)) : Filed [k] l l' :=
  ⟨htaken, by simpa [receipts] using h⟩

theorem Filed.trans {ks ks' : List Nat} {l l' l'' : Ledger} (h : Filed ks l l')
    (h' : Filed ks' l' l'') : Filed (ks ++ ks') l l'' := by
  refine ⟨by rw [h'.1, h.1, length_append, Nat.add_assoc], h'.2.trans ?_⟩
  rw [receipts_append, ← h.1, ← append_assoc]
  exact h.2.append_right _

theorem linear_replicate_iff {l : Ledger} (hn : l.Numbered) (k : Nat) :
    (l.places ++ replicate k l.taken).Perm (range (l.taken + 1)) ↔ l.Linear ∧ k = 1 := by
  rw [range_succ]
  constructor
  · intro h
    -- the new number occurs in the new entries only
    have hnot : l.taken ∉ l.places := fun hmem => Nat.lt_irrefl _ (hn _ hmem)
    have hcount := h.count_eq l.taken
    simp only [count_append, count_eq_zero_of_not_mem hnot, count_replicate_self,
      count_singleton_self, count_eq_zero_of_not_mem (not_mem_range_self (n := l.taken))] at hcount
    obtain rfl : k = 1 := by omega
    exact ⟨(perm_append_right_iff _).mp h, rfl⟩
  · rintro ⟨h, rfl⟩
    exact h.append_right _

theorem Filed.linear_iff : ∀ {ks : List Nat} {l l' : Ledger}, l.Numbered → Filed ks l l' →
    (l'.Linear ↔ l.Linear ∧ ∀ k ∈ ks, k = 1)
  | [], l, l', _, h => by
    obtain ⟨htaken, hperm⟩ := h
    simp only [receipts, append_nil, length_nil, Nat.add_zero] at htaken hperm
    simp only [Linear, htaken, not_mem_nil, false_imp_iff, implies_true, and_true]
    exact hperm.congr_left _
  | k :: ks, l, l', hn, h => by
    -- the ledger after the first token
    let mid : Ledger := ⟨l.places ++ replicate k l.taken, l.taken + 1⟩
    have hmid : mid.Numbered := by
      intro i hi
      rcases mem_append.mp hi with hi | hi
      · exact Nat.lt_succ_of_lt (hn i hi)
      · exact Nat.lt_succ_of_le (Nat.le_of_eq (eq_of_mem_replicate hi))
    have hrest : Filed ks mid l' := by
      obtain ⟨htaken, hperm⟩ := h
      refine ⟨?_, ?_⟩
      · rw [htaken, length_cons]
        simp only [mid]
        omega
      · simpa only [mid, receipts, append_assoc] using hperm
    have hlin : mid.Linear ↔ l.Linear ∧ k = 1 := linear_replicate_iff hn k
    rw [hrest.linear_iff hmid, hlin, forall_mem_cons, and_assoc]

end Ledger

theorem exists_rest_flatMap {ι α : Type} [DecidableEq ι] {is : List ι} (hnodup : is.Nodup) {i : ι}
    (hi : i ∈ is) (f : ι → List α) :
    ∃ rest, (is.flatMap f).Perm (f i ++ rest) ∧
      ∀ l, (is.flatMap (update f i l)).Perm (l ++ rest) := by
  have hperm : is.Perm (i :: is.erase i) := perm_cons_erase hi
  refine ⟨(is.erase i).flatMap f, hperm.flatMap_right f, fun l => ?_⟩
  have hrest : (is.erase i).flatMap (update f i l) = (is.erase i).flatMap f := by
    refine flatMap_congr fun j hj => update_of_ne ?_ _ _
    rintro rfl
    exact hnodup.not_mem_erase hj
  have hone := hperm.flatMap_right (update f i l)
  rw [flatMap_cons, update_self, hrest] at hone
  exact hone

end MixiPgw.Lib
