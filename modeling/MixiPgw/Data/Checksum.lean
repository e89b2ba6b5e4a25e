/-
# `_checksum` and `_wrapsum`

The header checksum of both planes: big-endian words are added up in 32 bits, the carries are folded
back, and the complement goes out in network order. With it in the place of two zeroes a header
passes the receiver's test (`checksum_verifies`).
-/
import MixiPgw.Data.Mbuf
import MixiPgw.Lib.OnesComplement

namespace MixiPgw.Data

open Bytes Lib.OnesComplement List

theorem beSum_le (message : List UInt8) : beSum message ≤ 65535 * ((message.length + 1) / 2) := by
  induction message using beSum.induct with
  | case1 => exact Nat.le_refl _
  | case2 a =>
    have hword := be16_lt a 0
    rw [beSum, length_singleton]
    omega
  | case3 a b rest ih =>
    have hword := be16_lt a b
    have hlen : ((a :: b :: rest).length + 1) / 2 = (rest.length + 1) / 2 + 1 := by
      simp only [length_cons]
      omega
    rw [beSum, hlen]
    omega

theorem sumWords_eq (message : List UInt8) :
    ∀ (n i sum : Nat), i + 2 * n = message.length → sum < 2 ^ 32 →
      sumWords (fun k => message.getD k 0) n i sum =
        (sum + beSum (message.drop i)) % 2 ^ 32 := by
  intro n
  induction n with
  | zero =>
    intro i sum hlen hsum
    rw [sumWords, drop_of_length_le (by omega), beSum, Nat.add_zero, Nat.mod_eq_of_lt hsum]
  | succ n ih =>
    intro i sum hlen hsum
    have hword : message.drop i =
        message.getD i 0 :: message.getD (i + 1) 0 :: message.drop (i + 2) := by
      rw [drop_eq_getElem_cons (by omega), drop_eq_getElem_cons (by omega : i + 1 < _),
        getD_eq_getElem _ _ (by omega), getD_eq_getElem _ _ (by omega)]
    rw [sumWords, ih (i + 2) _ (by omega) (Nat.mod_lt _ (by decide)), hword, beSum,
      Nat.mod_add_mod, Nat.add_assoc]

variable {data data' : Nat → UInt8}

theorem sumWords_congr :
    ∀ (n i sum : Nat), (∀ k < i + 2 * n, data k = data' k) →
      sumWords data n i sum = sumWords data' n i sum := by
  intro n
  induction n with
  | zero =>
    intro i sum _
    rfl
  | succ n ih =>
    intro i sum hsame
    rw [sumWords, sumWords, hsame i (by omega), hsame (i + 1) (by omega),
      ih (i + 2) _ fun k hk => hsame k (by omega)]

theorem checksum_congr {len sum : Nat} (hsame : ∀ i < 2 * ((len + 1) / 2), data i = data' i) :
    checksum data len sum = checksum data' len sum := by
  rw [checksum, checksum, sumWords_congr _ 0 sum fun k hk => hsame k (by omega)]

theorem foldCarry_spec (sum : Nat) :
    foldCarry sum < 65536 ∧ foldCarry sum % 65535 = sum % 65535 ∧
      (foldCarry sum = 0 ↔ sum = 0) := by
  induction sum using foldCarry.induct with
  | case1 sum hnone =>
    rw [foldCarry, dif_pos hnone]
    omega
  | case2 sum hcarry ih =>
    rw [foldCarry, dif_neg hcarry]
    omega

theorem checksum_verifies {front back : List UInt8} (hfront : front.length % 2 = 0)
    (hback : back.length % 2 = 0) (hlen : front.length + back.length < 65536) :
    Verifies (front ++
      wrapsum (checksum (fun i => (front ++ [0, 0] ++ back).getD i 0)
        (front ++ [0, 0] ++ back).length 0) ++ back) := by
  generalize hmessage : front ++ [0, 0] ++ back = message
  have hsize : message.length = front.length + back.length + 2 := by
    rw [← hmessage]
    simp only [length_append, length_cons, length_nil]
    omega
  have hbound := beSum_le message
  have hsum : sumWords (fun i => message.getD i 0) ((message.length + 1) / 2) 0 0 =
      beSum message := by
    rw [sumWords_eq message _ 0 0 (by omega) (by decide), drop_zero, Nat.zero_add]
    exact Nat.mod_eq_of_lt (by omega)
  obtain ⟨hlt, hmod, hzero⟩ := foldCarry_spec (beSum message)
  have hcomplement : wrapsum (checksum (fun i => message.getD i 0) message.length 0) =
      be16Bytes (65535 - foldCarry (beSum message)) := by
    rw [wrapsum, checksum, hsum]
    congr 1
    omega
  rw [hcomplement]
  rw [← hmessage] at hmod hzero ⊢
  exact verifies_complement hfront (hmessage ▸ hlt) hmod hzero

end MixiPgw.Data
