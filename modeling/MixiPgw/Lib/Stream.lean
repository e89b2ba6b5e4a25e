/-
# Streams that arrive in segments

A stream socket hands out what it has: one read returns elements of one segment, and no more than it
was asked for. A reader gets what it asks for, read after read, **exactly if every segment ends
where a read is meant to end** (`ends_subset_splits_cons`).
-/
import Mathlib.Data.List.Basic

namespace MixiPgw.Lib.Stream

open List

variable {α : Type} {cs : List (List α)} {n : Nat}

def recv (n : Nat) : List (List α) → List α × List (List α)
  | [] => ([], [])
  | c :: cs => (c.take n, if c.length ≤ n then cs else c.drop n :: cs)

theorem recv_append (n : Nat) (cs : List (List α)) :
    (recv n cs).1 ++ (recv n cs).2.flatten = cs.flatten := by
  cases cs with
  | nil => rfl
  | cons c cs =>
    simp only [recv]
    split
    · rename_i hle
      rw [take_of_length_le hle, flatten_cons]
    · rw [flatten_cons, flatten_cons, ← append_assoc, take_append_drop]

theorem recv_length_le (n : Nat) (cs : List (List α)) : (recv n cs).1.length ≤ n := by
  cases cs with
  | nil => exact Nat.zero_le n
  | cons c cs => exact length_take_le n c

theorem recv_nonempty (hne : ∀ c ∈ cs, c ≠ []) : ∀ c ∈ (recv n cs).2, c ≠ [] := by
  cases cs with
  | nil => exact hne
  | cons c cs =>
    intro d hd
    simp only [recv] at hd
    split at hd
    · exact hne d (mem_cons_of_mem _ hd)
    · rename_i hlt
      rcases mem_cons.mp hd with rfl | hd
      · intro hnil
        have := congrArg length hnil
        rw [length_drop, length_nil] at this
        omega
      · exact hne d (mem_cons_of_mem _ hd)

theorem recv_eq_take (hfull : (recv n cs).1.length = n) :
    (recv n cs).1 = cs.flatten.take n ∧ (recv n cs).2.flatten = cs.flatten.drop n := by
  have happend := recv_append n cs
  constructor
  · rw [← happend, take_left' hfull]
  · rw [← happend, drop_left' hfull]

def ends : List (List α) → List Nat
  | [] => []
  | c :: cs => c.length :: (ends cs).map (c.length + ·)

def splits : List Nat → List Nat
  | [] => []
  | n :: ns => n :: (splits ns).map (n + ·)

variable {p : Nat}

theorem mem_ends_cons {c : List α} :
    p ∈ ends (c :: cs) ↔ p = c.length ∨ ∃ q ∈ ends cs, c.length + q = p := by
  simp only [ends, mem_cons, mem_map]

theorem mem_splits_cons {ns : List Nat} :
    p ∈ splits (n :: ns) ↔ p = n ∨ ∃ q ∈ splits ns, n + q = p := by
  simp only [splits, mem_cons, mem_map]

theorem pos_of_mem_ends (hne : ∀ c ∈ cs, c ≠ []) (hp : p ∈ ends cs) : 0 < p := by
  cases cs with
  | nil => cases hp
  | cons c cs =>
    have hpos : 0 < c.length := length_pos_iff.mpr (hne c mem_cons_self)
    rcases mem_ends_cons.mp hp with rfl | ⟨q, -, rfl⟩ <;> omega

theorem recv_full_iff (hn : n ≤ cs.flatten.length) :
    (recv n cs).1.length = n ↔ ∀ p ∈ ends cs, n ≤ p := by
  cases cs with
  | nil =>
    obtain rfl : n = 0 := Nat.le_zero.mp hn
    simp [recv, ends]
  | cons c cs =>
    have hlen : (recv n (c :: cs)).1.length = min n c.length := length_take
    constructor
    · intro hfull p hp
      rcases mem_ends_cons.mp hp with rfl | ⟨q, -, rfl⟩ <;> omega
    · intro hends
      have := hends c.length (mem_ends_cons.mpr (.inl rfl))
      omega

theorem mem_ends_recv (hne : ∀ c ∈ cs, c ≠ []) (hfull : (recv n cs).1.length = n) :
    p ∈ ends (recv n cs).2 ↔ 0 < p ∧ n + p ∈ ends cs := by
  cases cs with
  | nil => simp [recv, ends]
  | cons c cs =>
    have hle : n ≤ c.length := by
      have hlen : (recv n (c :: cs)).1.length = min n c.length := length_take
      omega
    have htail : ∀ q ∈ ends cs, 0 < q := fun q hq =>
      pos_of_mem_ends (fun d hd => hne d (mem_cons_of_mem _ hd)) hq
    simp only [recv]
    split
    · obtain rfl : c.length = n := by omega
      rw [mem_ends_cons]
      constructor
      · intro hp
        exact ⟨htail p hp, .inr ⟨p, hp, rfl⟩⟩
      · rintro ⟨hpos, h | ⟨q, hq, h⟩⟩
        · omega
        · obtain rfl : q = p := by omega
          exact hq
    · rw [mem_ends_cons, mem_ends_cons, length_drop]
      constructor
      · rintro (rfl | ⟨q, hq, rfl⟩)
        · exact ⟨by omega, .inl (by omega)⟩
        · exact ⟨by omega, .inr ⟨q, hq, by omega⟩⟩
      · rintro ⟨hpos, h | ⟨q, hq, h⟩⟩
        · exact .inl (by omega)
        · exact .inr ⟨q, hq, by omega⟩

theorem ends_subset_splits_cons (hne : ∀ c ∈ cs, c ≠ []) (hn : n ≤ cs.flatten.length)
    {ns : List Nat} :
    ends cs ⊆ splits (n :: ns) ↔
      (recv n cs).1.length = n ∧ ends (recv n cs).2 ⊆ splits ns := by
  constructor
  · intro hsub
    have hfull : (recv n cs).1.length = n := by
      refine (recv_full_iff hn).mpr fun p hp => ?_
      rcases mem_splits_cons.mp (hsub hp) with rfl | ⟨q, -, rfl⟩ <;> omega
    refine ⟨hfull, fun p hp => ?_⟩
    obtain ⟨hpos, hmem⟩ := (mem_ends_recv hne hfull).mp hp
    rcases mem_splits_cons.mp (hsub hmem) with h | ⟨q, hq, h⟩
    · omega
    · obtain rfl : q = p := by omega
      exact hq
  · rintro ⟨hfull, hsub⟩ p hp
    have hle := (recv_full_iff hn).mp hfull p hp
    by_cases heq : p = n
    · exact mem_splits_cons.mpr (.inl heq)
    · have hrest : p - n ∈ ends (recv n cs).2 :=
        (mem_ends_recv hne hfull).mpr ⟨by omega, by rwa [Nat.add_sub_cancel' hle]⟩
      exact mem_splits_cons.mpr (.inr ⟨p - n, hsub hrest, by omega⟩)

end MixiPgw.Lib.Stream
