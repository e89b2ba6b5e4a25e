/-
# One's complement sums

The checksum of the Internet protocols is a sum of 16-bit words in ONE'S COMPLEMENT: a carry out of
the top goes back in at the bottom. A message verifies if the sum over all of it, its checksum
included, is minus zero: the plain sum is a multiple of 65535, and not 0 (`verifies_iff`).
-/
import MixiPgw.Lib.Bytes

namespace MixiPgw.Lib.OnesComplement

open Bytes List

def onesAdd (a b : Nat) : Nat := if a + b < 65536 then a + b else a + b - 65535

/-- The one's complement sum of a message; a last odd byte is the upper half of a word. -/
def onesSum : List UInt8 → Nat
  | [] => 0
  | [a] => be16 a 0
  | a :: b :: rest => onesAdd (be16 a b) (onesSum rest)

/-- **The receiver's test.** -/
def Verifies (message : List UInt8) : Prop := onesSum message = 0xffff

instance (message : List UInt8) : Decidable (Verifies message) :=
  inferInstanceAs (Decidable (_ = _))

/-- The plain sum of the same words. -/
def beSum : List UInt8 → Nat
  | [] => 0
  | [a] => be16 a 0
  | a :: b :: rest => be16 a b + beSum rest

theorem onesSum_spec : ∀ message : List UInt8,
    onesSum message < 65536 ∧ onesSum message % 65535 = beSum message % 65535 ∧
      (onesSum message = 0 ↔ beSum message = 0)
  | [] => ⟨by decide, rfl, Iff.rfl⟩
  | [a] => ⟨be16_lt a 0, rfl, Iff.rfl⟩
  | a :: b :: rest => by
    obtain ⟨hlt, hmod, hzero⟩ := onesSum_spec rest
    have hword := be16_lt a b
    rw [onesSum, beSum, onesAdd]
    split <;> omega

theorem verifies_iff {message : List UInt8} :
    Verifies message ↔ beSum message ≠ 0 ∧ beSum message % 65535 = 0 := by
  obtain ⟨hlt, hmod, hzero⟩ := onesSum_spec message
  unfold Verifies
  omega

variable {front back : List UInt8}

theorem beSum_append (heven : front.length % 2 = 0) :
    beSum (front ++ back) = beSum front + beSum back := by
  induction front using beSum.induct with
  | case1 => rw [nil_append, beSum, Nat.zero_add]
  | case2 a => exact absurd heven Nat.one_ne_zero
  | case3 a b rest ih =>
    have hrest : rest.length % 2 = 0 := by
      simp only [length_cons] at heven
      omega
    rw [cons_append, cons_append, beSum, beSum, ih hrest, Nat.add_assoc]

theorem beSum_be16Bytes {n : Nat} (h : n < 65536) : beSum (be16Bytes n) = n := by
  simp only [be16Bytes, beSum, Nat.add_zero]
  exact be16_ofNat n h

/-- The sender's side. `fold` is what folding the carries back into the sum over the message
with two zeroes has left. -/
theorem verifies_complement {fold : Nat} (heven : front.length % 2 = 0) (hlt : fold < 65536)
    (hmod : fold % 65535 = beSum (front ++ [0, 0] ++ back) % 65535)
    (hzero : fold = 0 ↔ beSum (front ++ [0, 0] ++ back) = 0) :
    Verifies (front ++ be16Bytes (65535 - fold) ++ back) := by
  have hsum : ∀ word : List UInt8, word.length = 2 →
      beSum (front ++ word ++ back) = beSum front + beSum word + beSum back := by
    intro word hword
    rw [beSum_append (by rw [length_append]; omega), beSum_append heven]
  rw [hsum [0, 0] rfl] at hmod hzero
  rw [verifies_iff, hsum _ (be16Bytes_length _), beSum_be16Bytes (by omega)]
  have hnone : beSum [0, 0] = 0 := rfl
  omega

end MixiPgw.Lib.OnesComplement
