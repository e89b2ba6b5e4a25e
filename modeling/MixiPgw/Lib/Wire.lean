/-
# Numbers and fields on the wire

Numbers in network order of any width, padding to a multiple of four, and a buffer that is filled
from the front while fields behind the filled part are still to be written.
-/
import MixiPgw.Lib.Bytes

namespace MixiPgw.Bytes

open List

/-! ## 1. Network order -/

def beBytes : Nat → Nat → List UInt8
  | 0, _ => []
  | k + 1, n => UInt8.ofNat (n / 256 ^ k) :: beBytes k n

def ofBe (bytes : List UInt8) : Nat := bytes.foldl (fun acc b => acc * 256 + b.toNat) 0

@[simp] theorem length_beBytes (k n : Nat) : (beBytes k n).length = k := by
  induction k with
  | zero => rfl
  | succ k ih => simp [beBytes, ih]

theorem foldl_beBytes (k n acc : Nat) :
    (beBytes k n).foldl (fun acc b => acc * 256 + b.toNat) acc = acc * 256 ^ k + n % 256 ^ k := by
  induction k generalizing acc with
  | zero => simp [beBytes, Nat.mod_one]
  | succ k ih =>
    have hmod : n % 256 ^ (k + 1) = n % 256 ^ k + 256 ^ k * (n / 256 ^ k % 256) := Nat.mod_pow_succ
    have hpow : (256 : Nat) ^ (k + 1) = 256 ^ k * 256 := Nat.pow_succ 256 k
    have hbyte : (UInt8.ofNat (n / 256 ^ k)).toNat = n / 256 ^ k % 256 := UInt8.toNat_ofNat'
    calc (beBytes (k + 1) n).foldl (fun acc b => acc * 256 + b.toNat) acc
        = (acc * 256 + n / 256 ^ k % 256) * 256 ^ k + n % 256 ^ k := by
          rw [beBytes, foldl_cons, ih, hbyte]
      _ = acc * (256 ^ k * 256) + (n % 256 ^ k + 256 ^ k * (n / 256 ^ k % 256)) := by
          rw [Nat.add_mul, Nat.mul_assoc, Nat.mul_comm 256 (256 ^ k),
            Nat.mul_comm (n / 256 ^ k % 256)]
          omega
      _ = acc * 256 ^ (k + 1) + n % 256 ^ (k + 1) := by rw [hmod, hpow]

/-- What is written is read back, up to the width. -/
theorem ofBe_beBytes (k n : Nat) : ofBe (beBytes k n) = n % 256 ^ k := by
  rw [ofBe, foldl_beBytes, Nat.zero_mul, Nat.zero_add]

theorem ofBe_beBytes_of_lt {k n : Nat} (h : n < 256 ^ k) : ofBe (beBytes k n) = n := by
  rw [ofBe_beBytes, Nat.mod_eq_of_lt h]

theorem foldl_ofBe_lt (bytes : List UInt8) (acc : Nat) :
    bytes.foldl (fun acc b => acc * 256 + b.toNat) acc < (acc + 1) * 256 ^ bytes.length := by
  induction bytes generalizing acc with
  | nil => simp
  | cons b bytes ih =>
    have hb := b.toNat_lt
    calc (b :: bytes).foldl (fun acc b => acc * 256 + b.toNat) acc
        < (acc * 256 + b.toNat + 1) * 256 ^ bytes.length := ih _
      _ ≤ ((acc + 1) * 256) * 256 ^ bytes.length := Nat.mul_le_mul_right _ (by omega)
      _ = (acc + 1) * 256 ^ (b :: bytes).length := by
        rw [Nat.mul_assoc, length_cons, Nat.pow_succ, Nat.mul_comm 256]

theorem ofBe_lt (bytes : List UInt8) : ofBe bytes < 256 ^ bytes.length := by
  have h := foldl_ofBe_lt bytes 0
  rwa [Nat.zero_add, Nat.one_mul] at h

/-! ## 2. Padding -/

/-- The next multiple of four. -/
def padd4 (n : Nat) : Nat := n + if n % 4 = 0 then 0 else 4 - n % 4

theorem padd4_spec (n : Nat) : n ≤ padd4 n ∧ padd4 n < n + 4 ∧ padd4 n % 4 = 0 := by
  unfold padd4
  split <;> omega

theorem padd4_eq {n m : Nat} (hle : n ≤ m) (hlt : m < n + 4) (h4 : m % 4 = 0) : padd4 n = m := by
  have := padd4_spec n
  omega

theorem padd4_pos {n : Nat} : 0 < padd4 n ↔ 0 < n := by
  unfold padd4
  split <;> omega

/-! ## 3. Buffers filled from the front -/

theorem splice_append {a b c d : List UInt8} {i : Nat} (hi : a.length = i)
    (hlen : b.length = d.length) : splice (a ++ (b ++ c)) i d = a ++ (d ++ c) := by
  subst hi
  rw [splice, take_left, ← hlen, ← drop_drop, drop_left, drop_left, append_assoc]

/-! ## 4. Bytes at a position -/

/-- The bytes lie at a position inside the buffer. -/
def Source.Lays (s : Source) (p : Nat) (bytes : List UInt8) : Prop :=
  ∃ rest, s.bytes.drop p = bytes ++ rest

theorem Source.block_add (s : Source) (p a b : Nat) :
    s.block p (a + b) = s.block p a ++ s.block (p + a) b := by
  simp only [Source.block, range_add, map_append, map_map, Function.comp_def, Nat.add_assoc]

namespace Source.Lays

variable {s : Source} {p : Nat} {xs ys : List UInt8}

theorem block (h : s.Lays p xs) : s.block p xs.length = xs := by
  obtain ⟨rest, h⟩ := h
  exact Source.block_of_drop h

theorem byte (h : s.Lays p xs) {j : Nat} (hj : j < xs.length) : s.byte (p + j) = xs.getD j 0 := by
  obtain ⟨rest, h⟩ := h
  exact Source.byte_of_drop h hj

theorem left (h : s.Lays p (xs ++ ys)) : s.Lays p xs := by
  obtain ⟨rest, h⟩ := h
  exact ⟨ys ++ rest, by rw [h, append_assoc]⟩

theorem right (h : s.Lays p (xs ++ ys)) : s.Lays (p + xs.length) ys := by
  obtain ⟨rest, h⟩ := h
  exact ⟨rest, by rw [← drop_drop, h, append_assoc, drop_left]⟩

theorem ofBe (h : s.Lays p xs) {k : Nat} (hk : xs.length = k) :
    Bytes.ofBe (s.block p k) = Bytes.ofBe xs := by
  rw [← hk, h.block]

end Source.Lays

end MixiPgw.Bytes
