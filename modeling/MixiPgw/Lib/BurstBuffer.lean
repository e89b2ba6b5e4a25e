/-
# Buffers in front of rings

A sender with one buffer in front of each of its rings. Packets are buffered until there is a burst
of them or a flush comes; then the ring takes all of them or none, and what it does not take is
freed and counted. Whether a ring takes a bulk is told by the caller.

`Accounts` is the ledger that each packet is in one place, in order, and that the counter is over by
a known amount: `Accounts.send` keeps it, and `Accounts.flush` says by how much a flush moves it.
-/
import Mathlib.Algebra.BigOperators.Group.Finset.Basic
import Mathlib.Algebra.BigOperators.Group.Finset.Piecewise
import Mathlib.Data.Fintype.Basic
import Mathlib.Data.UInt

namespace MixiPgw.Lib

open List Function

/-! ## 1. The operations -/

/-- The buffers, what the rings took, what was freed, and the drop counter. -/
structure BurstBuffers (ι α : Type) where
  bufs : ι → List α
  ring : ι → List α
  freed : ι → List α
  drops : UInt64

namespace BurstBuffers

variable {ι α : Type} [DecidableEq ι]

/-- Hands a bulk to a ring that takes all of it or nothing; the buffer is empty afterwards. -/
def enqueueBulk (s : BurstBuffers ι α) (i : ι) (bulk : List α) (taken : Bool) (loss : Nat) :
    BurstBuffers ι α :=
  if taken then
    { s with
      ring := update s.ring i (s.ring i ++ bulk)
      bufs := update s.bufs i [] }
  else
    { s with
      freed := update s.freed i (s.freed i ++ bulk)
      bufs := update s.bufs i []
      drops := s.drops + UInt64.ofNat loss }

def send (burst : Nat) (s : BurstBuffers ι α) (i : ι) (m : α) (taken : Bool) : BurstBuffers ι α :=
  if (s.bufs i ++ [m]).length < burst then
    { s with bufs := update s.bufs i (s.bufs i ++ [m]) }
  else s.enqueueBulk i ((s.bufs i ++ [m]).take burst) taken burst

def flush (loss : Nat) (s : BurstBuffers ι α) (i : ι) (taken : Bool) : BurstBuffers ι α :=
  if (s.bufs i).length = 0 then s else s.enqueueBulk i (s.bufs i) taken loss

theorem flush_bufs_of_ne (s : BurstBuffers ι α) {i j : ι} (hij : j ≠ i) (loss : Nat)
    (taken : Bool) : (s.flush loss i taken).bufs j = s.bufs j := by
  unfold flush enqueueBulk
  split
  · rfl
  · split <;> exact update_of_ne hij _ _

end BurstBuffers

/-! ## 2. The ledger -/

/-- Of the packets sent to a ring, those it took and those buffered are in order, and every one is
on the ring, freed or buffered, once. -/
structure Owned {α : Type} (sent bufs ring freed : List α) : Prop where
  order : (ring ++ bufs).Sublist sent
  once : (ring ++ freed ++ bufs).Perm sent

section

variable {α : Type} {sent bufs ring freed : List α}

theorem Owned.append (h : Owned sent bufs ring freed) (ms : List α) :
    Owned (sent ++ ms) (bufs ++ ms) ring freed := by
  refine ⟨?_, ?_⟩
  · rw [← append_assoc]
    exact h.order.append_right ms
  · rw [← append_assoc]
    exact h.once.append_right ms

theorem Owned.buffer (h : Owned sent bufs ring freed) (m : α) :
    Owned (sent ++ [m]) (bufs ++ [m]) ring freed :=
  h.append [m]

theorem Owned.take (h : Owned sent bufs ring freed) : Owned sent [] (ring ++ bufs) freed := by
  refine ⟨?_, ?_⟩
  · rw [append_nil]
    exact h.order
  · rw [append_nil, append_assoc]
    refine List.Perm.trans ?_ h.once
    rw [append_assoc]
    exact perm_append_comm.append_left ring

theorem Owned.split (h : Owned sent bufs ring freed) (n : Nat) :
    Owned sent [] (ring ++ bufs.take n) (freed ++ bufs.drop n) := by
  refine ⟨?_, ?_⟩
  · rw [append_nil]
    exact ((take_sublist n bufs).append_left ring).trans h.order
  · have hparts : (ring ++ bufs.take n ++ (freed ++ bufs.drop n)).Perm (ring ++ freed ++ bufs) := by
      conv_rhs => rw [← take_append_drop n bufs]
      rw [append_assoc, append_assoc, ← append_assoc freed]
      refine List.Perm.append_left ring ?_
      rw [← append_assoc]
      exact perm_append_comm.append_right _
    rw [append_nil]
    exact hparts.trans h.once

theorem Owned.free (h : Owned sent bufs ring freed) : Owned sent [] ring (freed ++ bufs) := by
  refine ⟨?_, ?_⟩
  · rw [append_nil]
    exact (sublist_append_left ring bufs).trans h.order
  · rw [append_nil, ← append_assoc]
    exact h.once

end

namespace BurstBuffers

variable {ι α : Type} [DecidableEq ι] [Fintype ι]

/-- The ledger: each packet is in one place, no buffer holds a whole burst, and the drop counter is
the number of packets freed and `surplus` more. -/
structure Accounts (burst surplus : Nat) (sent : ι → List α) (s : BurstBuffers ι α) : Prop where
  owned : ∀ i, Owned (sent i) (s.bufs i) (s.ring i) (s.freed i)
  room : ∀ i, (s.bufs i).length < burst
  drops : s.drops = UInt64.ofNat (∑ i, (s.freed i).length + surplus)

variable {burst surplus : Nat} {sent : ι → List α} {s : BurstBuffers ι α}

omit [DecidableEq ι] in
theorem Accounts.over_iff (h : s.Accounts burst surplus sent) (hover : surplus < 2 ^ 64) :
    s.Accounts burst 0 sent ↔ surplus = 0 := by
  constructor
  · intro hright
    have heq := congrArg UInt64.toNat (h.drops.symm.trans hright.drops)
    rw [UInt64.toNat_ofNat', UInt64.toNat_ofNat'] at heq
    omega
  · rintro rfl
    exact h

theorem sum_length_update (freed : ι → List α) (i : ι) (bulk : List α) :
    ∑ j, (update freed i (freed i ++ bulk) j).length =
      ∑ j, (freed j).length + bulk.length := by
  have hone : ∀ j, (update freed i (freed i ++ bulk) j).length =
      (freed j).length + if j = i then bulk.length else 0 := by
    intro j
    by_cases hj : j = i
    · subst hj
      simp
    · simp [hj]
  simp only [hone, Finset.sum_add_distrib, Finset.sum_ite_eq', Finset.mem_univ, if_true]

theorem Accounts.enqueueBulk {sent' : List α} {bulk : List α} {i : ι} {loss : Nat}
    (h : s.Accounts burst surplus sent) (hburst : 0 < burst) (hloss : bulk.length ≤ loss)
    (howned : Owned sent' bulk (s.ring i) (s.freed i)) (taken : Bool) :
    (s.enqueueBulk i bulk taken loss).Accounts burst
      (surplus + if taken then 0 else loss - bulk.length) (update sent i sent') := by
  have hroom : ∀ j, (update s.bufs i [] j).length < burst := by
    intro j
    by_cases hj : j = i
    · subst hj
      rw [update_self]
      exact hburst
    · rw [update_of_ne hj]
      exact h.room j
  cases taken with
  | true =>
    refine ⟨?_, hroom, h.drops⟩
    intro j
    by_cases hj : j = i
    · subst hj
      simpa [BurstBuffers.enqueueBulk] using howned.take
    · simpa [BurstBuffers.enqueueBulk, hj] using h.owned j
  | false =>
    refine ⟨?_, hroom, ?_⟩
    · intro j
      by_cases hj : j = i
      · subst hj
        simpa [BurstBuffers.enqueueBulk] using howned.free
      · simpa [BurstBuffers.enqueueBulk, hj] using h.owned j
    · show s.drops + UInt64.ofNat loss = UInt64.ofNat
        (∑ j, (update s.freed i (s.freed i ++ bulk) j).length +
          (surplus + (loss - bulk.length)))
      rw [sum_length_update, h.drops, ← UInt64.ofNat_add]
      congr 1
      omega

theorem Accounts.send (h : s.Accounts burst surplus sent) (i : ι) (m : α) (taken : Bool) :
    (s.send burst i m taken).Accounts burst surplus
      (update sent i (sent i ++ [m])) := by
  have howned := (h.owned i).buffer m
  unfold BurstBuffers.send
  split
  · rename_i hroom
    refine ⟨?_, ?_, h.drops⟩
    · intro j
      by_cases hj : j = i
      · subst hj
        simpa using howned
      · simpa [hj] using h.owned j
    · intro j
      by_cases hj : j = i
      · subst hj
        simpa using hroom
      · simpa [hj] using h.room j
  · rename_i hfull
    -- one packet more than fits below a burst makes the burst
    have hlen : (s.bufs i ++ [m]).length = burst := by
      have hroom := h.room i
      rw [length_append, length_singleton] at hfull ⊢
      omega
    have hburst : 0 < burst := Nat.lt_of_le_of_lt (Nat.zero_le _) (h.room i)
    rw [take_of_length_le (Nat.le_of_eq hlen)]
    have hbulk := h.enqueueBulk hburst (Nat.le_of_eq hlen) howned taken
    rw [hlen, Nat.sub_self, ite_self, Nat.add_zero] at hbulk
    exact hbulk

/-- What a flush adds to the counter beyond the packets it frees. -/
def excess (loss : Nat) (s : BurstBuffers ι α) (i : ι) (taken : Bool) : Nat :=
  if taken ∨ s.bufs i = [] then 0 else loss - (s.bufs i).length

/-- A flush moves the counter by its excess, and keeps the rest of the ledger. -/
theorem Accounts.flush (h : s.Accounts burst surplus sent) {i : ι} {loss : Nat}
    (hloss : (s.bufs i).length ≤ loss) (taken : Bool) :
    (s.flush loss i taken).Accounts burst (surplus + s.excess loss i taken) sent := by
  unfold BurstBuffers.flush excess
  by_cases hempty : s.bufs i = []
  · rw [if_pos (length_eq_zero_iff.mpr hempty), if_pos (.inr hempty)]
    exact h
  · have hburst : 0 < burst := Nat.lt_of_le_of_lt (Nat.zero_le _) (h.room i)
    have hbulk := h.enqueueBulk hburst hloss (h.owned i) taken
    rw [update_eq_self] at hbulk
    rw [if_neg (fun hlen => hempty (length_eq_zero_iff.mp hlen))]
    simpa [hempty] using hbulk

theorem Accounts.flush_length (h : s.Accounts burst surplus sent) (i : ι) (taken : Bool) :
    (s.flush (s.bufs i).length i taken).Accounts burst surplus sent := by
  have hflush := h.flush (Nat.le_refl (s.bufs i).length) taken
  rw [excess, Nat.sub_self, ite_self, Nat.add_zero] at hflush
  exact hflush

end BurstBuffers

end MixiPgw.Lib
