/-
# Bytes, words and buffers

The general layer under every wire format and every packet buffer.

* §1 is the 32-bit word as a LITTLE-ENDIAN host stores it: `le32` assembles a word, `byteOf` takes
  one byte out, and `bswap32` is `htonl` and `ntohl`.
* §2 is the 16-bit field in network order.
* §3 is the mask algebra, said in arithmetic so that `omega` can go on from there.
* §4 is a byte buffer held in a list: `slice` reads, `splice` overwrites. `writeAt` overwrites
  memory without an end.
* §5 is a buffer behind a pointer: `Source` is the memory there, in and past the buffer, and
  `Traced` records every index that a computation reads.
-/
import Mathlib.Data.Nat.Bitwise
import Mathlib.Data.List.Basic

namespace MixiPgw.Bytes

open List

/-! ## 1. 32-bit words of a little-endian host -/

def le32 (b0 b1 b2 b3 : UInt8) : UInt32 :=
  UInt32.ofNat (b0.toNat + 256 * b1.toNat + 65536 * b2.toNat + 16777216 * b3.toNat)

def byteOf (x : UInt32) (i : Nat) : UInt8 :=
  UInt8.ofNat (x.toNat / 256 ^ i)

def bytesOf (x : UInt32) : List UInt8 :=
  [byteOf x 0, byteOf x 1, byteOf x 2, byteOf x 3]

def bswap32 (x : UInt32) : UInt32 :=
  le32 (byteOf x 3) (byteOf x 2) (byteOf x 1) (byteOf x 0)

variable (b0 b1 b2 b3 : UInt8)

theorem toNat_le32 :
    (le32 b0 b1 b2 b3).toNat =
      b0.toNat + 256 * b1.toNat + 65536 * b2.toNat + 16777216 * b3.toNat := by
  have h0 := b0.toNat_lt
  have h1 := b1.toNat_lt
  have h2 := b2.toNat_lt
  have h3 := b3.toNat_lt
  simp only [le32, UInt32.toNat_ofNat']
  omega

variable (x : UInt32)

theorem toNat_byteOf (i : Nat) : (byteOf x i).toNat = x.toNat / 256 ^ i % 256 := by
  simp [byteOf]

@[simp] theorem byteOf_le32_zero : byteOf (le32 b0 b1 b2 b3) 0 = b0 := by
  apply UInt8.toNat_inj.mp
  rw [toNat_byteOf, toNat_le32]
  have := b0.toNat_lt
  omega

@[simp] theorem byteOf_le32_one : byteOf (le32 b0 b1 b2 b3) 1 = b1 := by
  apply UInt8.toNat_inj.mp
  rw [toNat_byteOf, toNat_le32]
  have := b0.toNat_lt
  have := b1.toNat_lt
  omega

@[simp] theorem byteOf_le32_two : byteOf (le32 b0 b1 b2 b3) 2 = b2 := by
  apply UInt8.toNat_inj.mp
  rw [toNat_byteOf, toNat_le32]
  have := b0.toNat_lt
  have := b1.toNat_lt
  have := b2.toNat_lt
  omega

@[simp] theorem byteOf_le32_three : byteOf (le32 b0 b1 b2 b3) 3 = b3 := by
  apply UInt8.toNat_inj.mp
  rw [toNat_byteOf, toNat_le32]
  have := b0.toNat_lt
  have := b1.toNat_lt
  have := b2.toNat_lt
  have := b3.toNat_lt
  omega

@[simp] theorem le32_byteOf : le32 (byteOf x 0) (byteOf x 1) (byteOf x 2) (byteOf x 3) = x := by
  apply UInt32.toNat_inj.mp
  have := x.toNat_lt
  rw [toNat_le32, toNat_byteOf, toNat_byteOf, toNat_byteOf, toNat_byteOf]
  omega

@[simp] theorem bswap32_le32 : bswap32 (le32 b0 b1 b2 b3) = le32 b3 b2 b1 b0 := by
  simp [bswap32]

@[simp] theorem bswap32_bswap32 : bswap32 (bswap32 x) = x := by
  rw [show bswap32 x = le32 (byteOf x 3) (byteOf x 2) (byteOf x 1) (byteOf x 0) from rfl,
    bswap32_le32, le32_byteOf]

/-- Two words as a little-endian double word, as `*(uint64_t *)p` reads them. -/
def le64 (lo hi : UInt32) : UInt64 := UInt64.ofNat (lo.toNat + 2 ^ 32 * hi.toNat)

@[simp] theorem le64_words (x : UInt64) : le64 x.toUInt32 (x >>> 32).toUInt32 = x := by
  apply UInt64.toNat.inj
  have := x.toNat_lt
  simp [le64, Nat.shiftRight_eq_div_pow]
  omega

/-! ## 2. 16-bit fields in network order -/

def be16 (hi lo : UInt8) : Nat := hi.toNat * 256 + lo.toNat

def be16Bytes (n : Nat) : List UInt8 := [UInt8.ofNat (n / 256), UInt8.ofNat n]

theorem be16_lt (hi lo : UInt8) : be16 hi lo < 65536 := by
  have := hi.toNat_lt
  have := lo.toNat_lt
  unfold be16
  omega

theorem be16_ofNat (n : Nat) (h : n < 65536) :
    be16 (UInt8.ofNat (n / 256)) (UInt8.ofNat n) = n := by
  simp only [be16, UInt8.toNat_ofNat']
  omega

@[simp] theorem be16Bytes_length (n : Nat) : (be16Bytes n).length = 2 := rfl

/-! ## 3. Masks
 Every mask of the program is a window of consecutive bits. -/

theorem and_window (n k w : Nat) : n &&& ((2 ^ w - 1) <<< k) = n / 2 ^ k % 2 ^ w * 2 ^ k := by
  rw [← Nat.shiftRight_eq_div_pow, ← Nat.shiftLeft_eq]
  apply Nat.eq_of_testBit_eq
  intro i
  simp only [Nat.testBit_and, Nat.testBit_shiftLeft, Nat.testBit_two_pow_sub_one,
    Nat.testBit_mod_two_pow, Nat.testBit_shiftRight]
  by_cases hi : k ≤ i
  · rw [Nat.add_sub_cancel' hi]
    simp [hi, Bool.and_comm]
  · simp [hi]

theorem toNat_and_ffffff00 : (x &&& 0xffffff00).toNat = x.toNat / 256 * 256 := by
  have hx := x.toNat_lt
  rw [UInt32.toNat_and, show (0xffffff00 : UInt32).toNat = (2 ^ 24 - 1) <<< 8 from by decide,
    and_window]
  omega

@[simp] theorem le32_and_ffffff00 : le32 b0 b1 b2 b3 &&& 0xffffff00 = le32 0 b1 b2 b3 := by
  apply UInt32.toNat_inj.mp
  have := b0.toNat_lt
  rw [toNat_and_ffffff00, toNat_le32, toNat_le32, UInt8.toNat_zero]
  omega

theorem toNat_and_0fffffff : (x &&& 0x0fffffff).toNat = x.toNat % 268435456 := by
  rw [UInt32.toNat_and, show (0x0fffffff : UInt32).toNat = 2 ^ 28 - 1 from by decide,
    Nat.and_two_pow_sub_one_eq_mod]

theorem or_eq_add (a b k : Nat) (hb : b < 2 ^ k) : b ||| a * 2 ^ k = b + a * 2 ^ k := by
  rw [Nat.or_comm, Nat.mul_comm, ← Nat.two_pow_add_eq_or_of_lt hb]
  omega

theorem le32_zero_or : le32 0 b1 b2 b3 ||| le32 b0 0 0 0 = le32 b0 b1 b2 b3 := by
  apply UInt32.toNat_inj.mp
  have h0 := b0.toNat_lt
  have hor := or_eq_add (b1.toNat + 256 * b2.toNat + 65536 * b3.toNat) b0.toNat 8 (by omega)
  rw [UInt32.toNat_or, toNat_le32, toNat_le32, toNat_le32, Nat.or_comm]
  simp only [show (0 : UInt8).toNat = 0 from rfl, Nat.mul_zero, Nat.add_zero, Nat.zero_add]
  rw [show 256 * b1.toNat + 65536 * b2.toNat + 16777216 * b3.toNat =
    (b1.toNat + 256 * b2.toNat + 65536 * b3.toNat) * 2 ^ 8 from by omega, hor]
  omega

theorem le32_or_zero : le32 b0 b1 b2 0 ||| le32 0 0 0 b3 = le32 b0 b1 b2 b3 := by
  apply UInt32.toNat_inj.mp
  have h0 := b0.toNat_lt
  have h1 := b1.toNat_lt
  have h2 := b2.toNat_lt
  have hor := or_eq_add b3.toNat (b0.toNat + 256 * b1.toNat + 65536 * b2.toNat) 24 (by omega)
  rw [UInt32.toNat_or, toNat_le32, toNat_le32, toNat_le32]
  simp only [show (0 : UInt8).toNat = 0 from rfl, Nat.mul_zero, Nat.add_zero, Nat.zero_add]
  rw [Nat.mul_comm 16777216]
  exact hor

theorem le32_and_ff : le32 b0 b1 b2 b3 &&& 0x000000ff = le32 b0 0 0 0 := by
  apply UInt32.toNat_inj.mp
  have h0 := b0.toNat_lt
  rw [UInt32.toNat_and, show (0x000000ff : UInt32).toNat = 2 ^ 8 - 1 from by decide,
    Nat.and_two_pow_sub_one_eq_mod, toNat_le32, toNat_le32]
  simp only [show (0 : UInt8).toNat = 0 from rfl]
  omega

theorem and_not_of_and_eq_zero {x t : UInt32} (h : x &&& t = 0) : x &&& ~~~t = x := by
  apply UInt32.eq_of_toBitVec_eq
  apply BitVec.eq_of_getLsbD_eq
  intro i hi
  have hbit := congrArg (fun y : UInt32 => y.toBitVec.getLsbD i) h
  simp only [UInt32.toBitVec_and, BitVec.getLsbD_and] at hbit
  simp only [UInt32.toBitVec_and, UInt32.toBitVec_not, BitVec.getLsbD_and, BitVec.getLsbD_not, hi]
  cases hx : x.toBitVec.getLsbD i <;> cases ht : t.toBitVec.getLsbD i <;> simp_all

theorem and_not_or_or (a t o : UInt32) : ((a &&& ~~~t) ||| o) ||| (t ||| o) = a ||| (t ||| o) := by
  apply UInt32.eq_of_toBitVec_eq
  apply BitVec.eq_of_getLsbD_eq
  intro i hi
  simp only [UInt32.toBitVec_and, UInt32.toBitVec_not, UInt32.toBitVec_or, BitVec.getLsbD_and,
    BitVec.getLsbD_not, BitVec.getLsbD_or, hi]
  cases a.toBitVec.getLsbD i <;> cases t.toBitVec.getLsbD i <;> simp

theorem or_or_and_not (a t o : UInt32) :
    ((a ||| (t ||| o)) &&& ~~~t) ||| o = (a &&& ~~~t) ||| o := by
  apply UInt32.eq_of_toBitVec_eq
  apply BitVec.eq_of_getLsbD_eq
  intro i hi
  simp only [UInt32.toBitVec_and, UInt32.toBitVec_not, UInt32.toBitVec_or, BitVec.getLsbD_and,
    BitVec.getLsbD_not, BitVec.getLsbD_or, hi]
  cases a.toBitVec.getLsbD i <;> cases t.toBitVec.getLsbD i <;> cases o.toBitVec.getLsbD i <;> simp

/-- Two words with the bits of `t` cleared and those of `o` set agree if the words agree on all
other bits. -/
theorem and_not_or_eq_iff (a b t o : UInt32) :
    (a &&& ~~~t) ||| o = (b &&& ~~~t) ||| o ↔ a ||| (t ||| o) = b ||| (t ||| o) := by
  constructor
  · intro h
    rw [← and_not_or_or a, h, and_not_or_or]
  · intro h
    rw [← or_or_and_not a, h, or_or_and_not]

/-! ## 4. Buffers -/

def slice (buf : List UInt8) (i n : Nat) : List UInt8 := (buf.drop i).take n

def splice (buf : List UInt8) (i : Nat) (d : List UInt8) : List UInt8 :=
  buf.take i ++ d ++ buf.drop (i + d.length)

variable {buf : List UInt8}

theorem getD_slice {i n j : Nat} (h : j < n) : (slice buf i n).getD j 0 = buf.getD (i + j) 0 := by
  simp [slice, getD_eq_getElem?_getD, h]

variable {d : List UInt8} {i : Nat}

theorem length_splice (h : i + d.length ≤ buf.length) : (splice buf i d).length = buf.length := by
  simp only [splice, length_append, length_take, length_drop]
  omega

theorem getD_splice (h : i + d.length ≤ buf.length) (j : Nat) :
    (splice buf i d).getD j 0 =
      if i ≤ j ∧ j < i + d.length then d.getD (j - i) 0 else buf.getD j 0 := by
  have htake : (buf.take i).length = i := by rw [length_take]; omega
  simp only [splice, getD_eq_getElem?_getD]
  by_cases hlo : j < i
  · rw [append_assoc, getElem?_append_left (by omega), getElem?_take_of_lt hlo, if_neg (by omega)]
  · by_cases hhi : j < i + d.length
    · rw [getElem?_append_left (by rw [length_append]; omega),
        getElem?_append_right (by omega), htake, if_pos ⟨by omega, hhi⟩]
    · rw [getElem?_append_right (by rw [length_append]; omega), if_neg (by omega),
        getElem?_drop, length_append, htake]
      congr 2
      omega

theorem getD_splice_of_lt {i j : Nat} (h : i + d.length ≤ buf.length)
    (hj : j < i) : (splice buf i d).getD j 0 = buf.getD j 0 := by
  rw [getD_splice h, if_neg (by omega)]

theorem getD_splice_mid {i j : Nat} (h : i + d.length ≤ buf.length)
    (hj : j < d.length) : (splice buf i d).getD (i + j) 0 = d.getD j 0 := by
  rw [getD_splice h, if_pos (by omega), Nat.add_sub_cancel_left]

theorem ext_getD {a b : List UInt8} (hl : a.length = b.length)
    (h : ∀ j < a.length, a.getD j 0 = b.getD j 0) : a = b := by
  apply ext_getElem hl
  intro j h1 h2
  have := h j h1
  rwa [getD_eq_getElem _ _ h1, getD_eq_getElem _ _ h2] at this

theorem length_slice {i n : Nat} (h : i + n ≤ buf.length) : (slice buf i n).length = n := by
  rw [slice, length_take, length_drop]
  omega

theorem slice_splice (h : i + d.length ≤ buf.length) : slice (splice buf i d) i d.length = d := by
  have hlen : (slice (splice buf i d) i d.length).length = d.length :=
    length_slice (by rwa [length_splice h])
  refine ext_getD hlen fun j hj => ?_
  rw [hlen] at hj
  rw [getD_slice hj, getD_splice_mid h hj]

theorem slice_splice_of_disjoint {i k n : Nat}
    (h : i + d.length ≤ buf.length) (hk : k + n ≤ buf.length)
    (hout : k + n ≤ i ∨ i + d.length ≤ k) : slice (splice buf i d) k n = slice buf k n := by
  have hlen : (slice (splice buf i d) k n).length = n := length_slice (by rwa [length_splice h])
  refine ext_getD (hlen.trans (length_slice hk).symm) fun j hj => ?_
  rw [hlen] at hj
  rw [getD_slice hj, getD_slice hj, getD_splice h, if_neg (by omega)]

def writeAt (data : Nat → UInt8) (dst : Nat) (bytes : List UInt8) (i : Nat) : UInt8 :=
  if dst ≤ i ∧ i < dst + bytes.length then bytes.getD (i - dst) 0 else data i

variable {data : Nat → UInt8} {dst : Nat} {bytes : List UInt8}

theorem writeAt_inside (h : dst ≤ i) (h' : i < dst + bytes.length) :
    writeAt data dst bytes i = bytes.getD (i - dst) 0 :=
  if_pos ⟨h, h'⟩

theorem writeAt_outside
    (h : i < dst ∨ dst + bytes.length ≤ i) : writeAt data dst bytes i = data i :=
  if_neg (by omega)

theorem writeAt_congr {data data' : Nat → UInt8}
    (h : i < dst ∨ dst + bytes.length ≤ i → data i = data' i) :
    writeAt data dst bytes i = writeAt data' dst bytes i := by
  by_cases hi : i < dst ∨ dst + bytes.length ≤ i
  · rw [writeAt_outside hi, writeAt_outside hi, h hi]
  · rw [writeAt_inside (by omega) (by omega), writeAt_inside (by omega) (by omega)]

/-! ## 5. Reading a buffer through a pointer

Nothing stops C code from reading past the end of a buffer. `Traced` is a computation that records
the indexes it reads. -/

/-- The memory a pointer leads to: the bytes handed over and what lies behind them. -/
structure Source where
  bytes : List UInt8
  past : Nat → UInt8

def Source.byte (s : Source) (i : Nat) : UInt8 := s.bytes.getD i (s.past i)

def Source.block (s : Source) (i n : Nat) : List UInt8 :=
  (range n).map fun k => s.byte (i + k)

@[simp] theorem Source.length_block (s : Source) (i n : Nat) : (s.block i n).length = n := by
  simp [Source.block]

theorem Source.getD_block (s : Source) {i n j : Nat} (h : j < n) :
    (s.block i n).getD j 0 = s.byte (i + j) := by
  simp [Source.block, getD_eq_getElem?_getD, h]

variable {s : Source}

theorem Source.byte_of_drop {p j : Nat} {xs ys : List UInt8}
    (h : s.bytes.drop p = xs ++ ys) (hj : j < xs.length) : s.byte (p + j) = xs.getD j 0 := by
  have hget : s.bytes[p + j]? = some xs[j] := by
    rw [← getElem?_drop, h, getElem?_append_left hj, getElem?_eq_getElem hj]
  simp [Source.byte, getD_eq_getElem?_getD, hget, getElem?_eq_getElem hj]

theorem Source.block_of_drop {p : Nat} {xs ys : List UInt8}
    (h : s.bytes.drop p = xs ++ ys) : s.block p xs.length = xs := by
  refine ext_getD (by simp) fun j hj => ?_
  rw [Source.length_block] at hj
  rw [Source.getD_block _ hj, Source.byte_of_drop h hj]

/-- A value together with the indexes read to compute it, in order. -/
structure Traced (α : Type) where
  val : α
  reads : List Nat

namespace Traced

instance : Monad Traced where
  pure a := ⟨a, []⟩
  bind x f := ⟨(f x.val).val, x.reads ++ (f x.val).reads⟩

variable {α β : Type}

@[simp] theorem val_pure (a : α) : (pure a : Traced α).val = a := rfl
@[simp] theorem reads_pure (a : α) : (pure a : Traced α).reads = [] := rfl
@[simp] theorem val_bind (x : Traced α) (f : α → Traced β) : (x >>= f).val = (f x.val).val := rfl
@[simp] theorem reads_bind (x : Traced α) (f : α → Traced β) :
    (x >>= f).reads = x.reads ++ (f x.val).reads := rfl

@[simp] theorem val_ite (c : Prop) [Decidable c] (x y : Traced α) :
    (if c then x else y).val = if c then x.val else y.val := by
  split <;> rfl

/-- Every recorded read stays below `n`. -/
def Within (x : Traced α) (n : Nat) : Prop := ∀ i ∈ x.reads, i < n

@[simp] theorem within_pure (a : α) (n : Nat) : (pure a : Traced α).Within n := by
  simp [Within]

theorem within_bind {x : Traced α} {f : α → Traced β} {n : Nat} :
    (x >>= f).Within n ↔ x.Within n ∧ (f x.val).Within n := by
  simp [Within, or_imp, forall_and]

abbrev read (s : Source) (i : Nat) : Traced UInt8 := ⟨s.byte i, [i]⟩

abbrev readBlock (s : Source) (i n : Nat) : Traced (List UInt8) := ⟨s.block i n, range' i n⟩

variable {s : Source}

theorem within_read {i n : Nat} : (read s i).Within n ↔ i < n := by
  simp [Within]

theorem within_readBlock {i k n : Nat} : (readBlock s i k).Within n ↔ k = 0 ∨ i + k ≤ n := by
  simp only [Within, mem_range'_1]
  constructor
  · intro h
    by_cases hk : k = 0
    · exact Or.inl hk
    · have := h (i + k - 1) ⟨by omega, by omega⟩
      omega
  · rintro h j ⟨_, hj⟩
    omega

end Traced

end MixiPgw.Bytes
