/-
# Token buckets

A bucket of capacity `cap` gains `rate` tokens for every unit of time. What it has handed out is a
list of visits. `After past` says that such a list is possible for a bucket of which `past` is
known. A bucket that gains less will do as well.

* `After.visit` builds such a list visit by visit.
* `After.spentIn_le`: in every window of time, a bucket hands out at most its capacity plus what it
  gains in the window.
* `Reaches.of_stamp` and `refill_le` are for a bucket kept in 32-bit words: a product or a sum that
  wraps only loses tokens.
-/
import Mathlib.Data.UInt

namespace MixiPgw.Lib.TokenBucket

/-- One visit: `level` tokens were there and `spent` were taken. -/
structure Visit where
  time : Nat
  level : Nat
  spent : Nat

def spentIn (a b : Nat) : List Visit → Nat
  | [] => 0
  | v :: vs => (if a ≤ v.time ∧ v.time ≤ b then v.spent else 0) + spentIn a b vs

/-- The visits after one at time `t` that left `left` tokens. -/
def Follows (cap rate : Nat) : Nat → Nat → List Visit → Prop
  | _, _, [] => True
  | t, left, v :: vs =>
    t ≤ v.time ∧ v.level ≤ cap ∧ v.level ≤ left + rate * (v.time - t) ∧ v.spent ≤ v.level ∧
      Follows cap rate v.time (v.level - v.spent) vs

/-- The visits of a bucket about whose past nothing is known. -/
def Metered (cap rate : Nat) : List Visit → Prop
  | [] => True
  | v :: vs =>
    v.level ≤ cap ∧ v.spent ≤ v.level ∧ Follows cap rate v.time (v.level - v.spent) vs

variable {cap rate : Nat}

variable {vs : List Visit}

theorem Follows.metered {t left : Nat} (h : Follows cap rate t left vs) : Metered cap rate vs := by
  cases vs with
  | nil => trivial
  | cons v vs => exact ⟨h.2.1, h.2.2.2.1, h.2.2.2.2⟩

theorem Follows.spentIn_past {a b : Nat} :
    ∀ {vs : List Visit} {t left : Nat}, Follows cap rate t left vs → b < t → spentIn a b vs = 0
  | [], _, _, _, _ => rfl
  | v :: _, _, _, ⟨ht, _, _, _, hvs⟩, hb => by
    have hv : b < v.time := Nat.lt_of_lt_of_le hb ht
    rw [spentIn, if_neg (fun h => absurd h.2 (Nat.not_le.mpr hv)), hvs.spentIn_past hv]

/-- The potential: what is taken up to `b` was left at `t` or has been gained since. -/
theorem Follows.spentIn_le {a b : Nat} :
    ∀ {vs : List Visit} {t left : Nat}, Follows cap rate t left vs → t ≤ b →
      spentIn a b vs ≤ left + rate * (b - t)
  | [], _, _, _, _ => Nat.zero_le _
  | v :: vs, t, left, ⟨ht, hcap, hgain, hspent, hvs⟩, hb => by
    rcases Nat.lt_or_ge b v.time with hlate | hin
    · rw [spentIn, if_neg (fun h => absurd h.2 (Nat.not_le.mpr hlate)), hvs.spentIn_past hlate]
      exact Nat.zero_le _
    · have hrest := hvs.spentIn_le hin (a := a)
      have hsplit : rate * (b - t) = rate * (v.time - t) + rate * (b - v.time) := by
        rw [← Nat.mul_add]
        congr 1
        omega
      have hhead : (if a ≤ v.time ∧ v.time ≤ b then v.spent else 0) ≤ v.spent := by
        split
        · exact Nat.le_refl _
        · exact Nat.zero_le _
      rw [spentIn]
      omega

theorem Metered.spentIn_le {a b : Nat} (hab : a ≤ b) :
    ∀ {vs : List Visit}, Metered cap rate vs → spentIn a b vs ≤ cap + rate * (b - a)
  | [], _ => Nat.zero_le _
  | v :: vs, ⟨hcap, hspent, hvs⟩ => by
    rw [spentIn]
    by_cases hin : a ≤ v.time ∧ v.time ≤ b
    · have hrest := hvs.spentIn_le hin.2 (a := a)
      have hlen : rate * (b - v.time) ≤ rate * (b - a) := Nat.mul_le_mul_left _ (by omega)
      rw [if_pos hin]
      omega
    · rw [if_neg hin, Nat.zero_add]
      exact hvs.metered.spentIn_le hab

/-! Both kinds of past. -/

/-- The visits of a bucket that had `left` tokens at time `t`, or of one with an unknown past. -/
def After (cap rate : Nat) : Option (Nat × Nat) → List Visit → Prop
  | none => Metered cap rate
  | some (t, left) => Follows cap rate t left

/-- `level` tokens at time `t` are possible after the past. -/
def Reaches (rate : Nat) (past : Option (Nat × Nat)) (t level : Nat) : Prop :=
  ∀ p ∈ past, p.1 ≤ t ∧ level ≤ p.2 + rate * (t - p.1)

theorem After.nil (past : Option (Nat × Nat)) : After cap rate past [] := by
  cases past with
  | none => trivial
  | some p => trivial

variable {past : Option (Nat × Nat)}

theorem After.visit {v : Visit} (hcap : v.level ≤ cap)
    (hspent : v.spent ≤ v.level) (hpast : Reaches rate past v.time v.level)
    (h : After cap rate (some (v.time, v.level - v.spent)) vs) : After cap rate past (v :: vs) := by
  cases past with
  | none => exact ⟨hcap, hspent, h⟩
  | some p => exact ⟨(hpast p rfl).1, hcap, (hpast p rfl).2, hspent, h⟩

theorem After.spentIn_le {a b : Nat} (hab : a ≤ b)
    (h : After cap rate past vs) : spentIn a b vs ≤ cap + rate * (b - a) := by
  cases past with
  | none => exact Metered.spentIn_le hab h
  | some p => exact Metered.spentIn_le hab (Follows.metered h)

/-! Buckets in 32-bit words. -/

theorem elapsed_le {t t' : Nat} (h : t ≤ t') :
    (UInt32.ofNat t' - UInt32.ofNat t).toNat ≤ t' - t := by
  rw [← UInt32.ofNat_sub h, UInt32.toNat_ofNat']
  exact Nat.mod_le _ _

theorem Reaches.of_stamp {t level : Nat} {tokens rate epoch : UInt32}
    (hpast : ∀ p ∈ past, p.1 ≤ t ∧ epoch = UInt32.ofNat p.1 ∧ tokens.toNat = p.2)
    (hgain : level ≤ tokens.toNat + rate.toNat * (UInt32.ofNat t - epoch).toNat) :
    Reaches rate.toNat past t level := by
  intro p hp
  obtain ⟨ht, hstamp, hleft⟩ := hpast p hp
  rw [hstamp, hleft] at hgain
  exact ⟨ht, hgain.trans (Nat.add_le_add_left (Nat.mul_le_mul_left _ (elapsed_le ht)) _)⟩

variable (burst tokens rate dt : UInt32)

/-- A refill stays below the burst and gains no more than the rate says, also when it wraps. -/
theorem refill_le :
    (min burst (tokens + rate * dt)).toNat ≤ burst.toNat ∧
      (min burst (tokens + rate * dt)).toNat ≤ tokens.toNat + rate.toNat * dt.toNat := by
  have hwrap : (tokens + rate * dt).toNat ≤ tokens.toNat + rate.toNat * dt.toNat := by
    rw [UInt32.toNat_add, UInt32.toNat_mul]
    exact (Nat.mod_le _ _).trans (Nat.add_le_add_left (Nat.mod_le _ _) _)
  rw [UInt32.toNat_min]
  exact ⟨Nat.min_le_left _ _, (Nat.min_le_right _ _).trans hwrap⟩

/-- A refill is the one of unbounded numbers if the sum does not wrap, or if what is left of it
still fills the bucket. -/
theorem refill_eq_iff :
    (min burst (tokens + rate * dt)).toNat =
        min burst.toNat (tokens.toNat + rate.toNat * dt.toNat) ↔
      tokens.toNat + rate.toNat * dt.toNat < 2 ^ 32 ∨
        burst.toNat ≤ (tokens.toNat + rate.toNat * dt.toNat) % 2 ^ 32 := by
  have hburst : burst.toNat < 2 ^ 32 := burst.toNat_lt
  have hsum : (tokens + rate * dt).toNat =
      (tokens.toNat + rate.toNat * dt.toNat) % 2 ^ 32 := by
    rw [UInt32.toNat_add, UInt32.toNat_mul, Nat.add_mod_mod]
  rw [UInt32.toNat_min, hsum]
  generalize tokens.toNat + rate.toNat * dt.toNat = sum
  rcases Nat.lt_or_ge sum (2 ^ 32) with hlt | hge
  · rw [Nat.mod_eq_of_lt hlt]
    exact ⟨fun _ => Or.inl hlt, fun _ => rfl⟩
  · rw [Nat.min_eq_left (show burst.toNat ≤ sum by omega), min_eq_left_iff]
    exact ⟨Or.inr, fun h => h.resolve_left (Nat.not_lt.mpr hge)⟩

end MixiPgw.Lib.TokenBucket
