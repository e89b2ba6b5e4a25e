/-
# Three copies of `_checksum`

The control plane, the dataplane and the tools have a copy each. The one of the control plane is
followed here in the 32 bits the source adds in; the other two, `Data.checksum` and `Misc.checksum`,
stand over `Nat`. They agree on every input, and a zeroed field that is filled in makes the buffer
verify (`checksum_copies`).
-/
import MixiPgw.Data.Checksum
import MixiPgw.Tools.Encap

namespace MixiPgw.Ctrl

open Bytes Lib.OnesComplement List

/-- `ntohs(*_addr)` at byte `i`. -/
def wordAt (data : Nat → UInt8) (i : Nat) : UInt32 := UInt32.ofNat (be16 (data i) (data (i + 1)))

/-- `while (_count > 1)`, and the odd byte behind it. -/
def sumLoop (data : Nat → UInt8) (count i : Nat) (sum : UInt32) : UInt32 :=
  match count with
  | 0 => sum
  | 1 => sum + wordAt data i
  | count + 2 => sumLoop data count (i + 2) (sum + wordAt data i)

variable (sum : UInt32)

theorem toNat_carries : (sum >>> (16 : UInt32)).toNat = sum.toNat / 65536 := by
  rw [UInt32.toNat_shiftRight]
  exact Nat.shiftRight_eq_div_pow sum.toNat 16

theorem carries_eq_zero_iff : sum >>> (16 : UInt32) = 0 ↔ sum.toNat / 65536 = 0 := by
  rw [← UInt32.toNat_inj, toNat_carries]
  rfl

theorem toNat_low : (sum &&& (0xffff : UInt32)).toNat = sum.toNat % 65536 := by
  rw [UInt32.toNat_and]
  exact Nat.and_two_pow_sub_one_eq_mod sum.toNat 16

theorem toNat_fold :
    ((sum &&& (0xffff : UInt32)) + (sum >>> (16 : UInt32))).toNat =
      sum.toNat % 65536 + sum.toNat / 65536 := by
  have hlt := sum.toNat_lt
  rw [UInt32.toNat_add, toNat_low, toNat_carries]
  exact Nat.mod_eq_of_lt (by omega)

/-- `while (_sum>>16)`. -/
def foldSum (sum : UInt32) : UInt32 :=
  if sum >>> (16 : UInt32) = 0 then sum
  else foldSum ((sum &&& (0xffff : UInt32)) + (sum >>> (16 : UInt32)))
termination_by sum.toNat
decreasing_by
  rw [carries_eq_zero_iff] at *
  rw [toNat_fold]
  omega

def checksum (data : Nat → UInt8) (len : UInt16) (sum : UInt32) : UInt32 :=
  ~~~foldSum (sumLoop data len.toNat 0 sum)

/-- `_wrapsum`, as the two bytes it is stored as. -/
def wrapsum (sum : UInt32) : List UInt8 := be16Bytes (sum &&& (0xffff : UInt32)).toNat

variable (data : Nat → UInt8)

theorem toNat_wordAt (i : Nat) : (wordAt data i).toNat = be16 (data i) (data (i + 1)) := by
  have hlt := be16_lt (data i) (data (i + 1))
  exact UInt32.toNat_ofNat_of_lt' (hlt.trans (by decide))

theorem sumLoop_eq (count i : Nat) (sum : UInt32) :
    (sumLoop data count i sum).toNat = Data.sumWords data ((count + 1) / 2) i sum.toNat := by
  fun_induction sumLoop data count i sum with
  | case1 => rfl
  | case2 i sum =>
    rw [UInt32.toNat_add, toNat_wordAt]
    rfl
  | case3 i sum count ih =>
    have hturns : (count + 2 + 1) / 2 = (count + 1) / 2 + 1 := by omega
    rw [ih, hturns, Data.sumWords, UInt32.toNat_add, toNat_wordAt]

theorem foldSum_eq : (foldSum sum).toNat = Data.foldCarry sum.toNat := by
  fun_induction foldSum sum with
  | case1 sum hnone => rw [Data.foldCarry, dif_pos ((carries_eq_zero_iff sum).mp hnone)]
  | case2 sum hcarry ih =>
    rw [ih, toNat_fold, Data.foldCarry.eq_def sum.toNat,
      dif_neg fun hnone => hcarry ((carries_eq_zero_iff sum).mpr hnone)]

theorem toNat_checksum (len : UInt16) (sum : UInt32) :
    (checksum data len sum).toNat = Data.checksum data len.toNat sum.toNat := by
  rw [checksum, UInt32.toNat_not, foldSum_eq, sumLoop_eq, Data.checksum]
  rfl

theorem wrapsum_eq : wrapsum sum = Data.wrapsum sum.toNat := by
  rw [wrapsum, Data.wrapsum, toNat_low]

theorem misc_wrapsum_eq (sum : Nat) :
    be16Bytes (Tools.Misc.wrapsum sum).toNat = Data.wrapsum sum := by
  rw [Tools.Misc.wrapsum, Data.wrapsum, UInt16.toNat_ofNat', Nat.mod_mod]

theorem verifies_splice {s : Source} {p : Nat} (heven : s.bytes.length % 2 = 0)
    (hlen : s.bytes.length ≤ 65534) (hp : p % 2 = 0) (hfield : slice s.bytes p 2 = [0, 0]) :
    Verifies (splice s.bytes p (Data.wrapsum (Data.checksum s.byte s.bytes.length 0))) := by
  have hsize : p + 2 ≤ s.bytes.length := by
    have hfits := congrArg List.length hfield
    simp only [slice, length_take, length_drop, length_cons, length_nil] at hfits
    omega
  have hsplit : s.bytes.take p ++ [0, 0] ++ s.bytes.drop (p + 2) = s.bytes := by
    rw [← hfield, slice, append_assoc, ← drop_drop, take_append_drop, take_append_drop]
  have hfront : (s.bytes.take p).length = p := length_take_of_le (by omega)
  have hback : (s.bytes.drop (p + 2)).length = s.bytes.length - (p + 2) := length_drop
  have hverifies := @Data.checksum_verifies (s.bytes.take p) (s.bytes.drop (p + 2)) (by omega)
    (by omega) (by omega)
  have hread : Data.checksum s.byte s.bytes.length 0 =
      Data.checksum (fun i => s.bytes.getD i 0) s.bytes.length 0 :=
    Data.checksum_congr fun i hi => by
      rw [Source.byte, getD_eq_getElem _ _ (by omega), getD_eq_getElem _ _ (by omega)]
  rw [hread]
  rwa [hsplit] at hverifies

/-- Each copy fills in a zeroed field so that the buffer verifies, and the three return the same
on the same input. -/
theorem checksum_copies (s : Source) (p : Nat) (heven : s.bytes.length % 2 = 0)
    (hlen : s.bytes.length ≤ 65534) (hp : p % 2 = 0) (hfield : slice s.bytes p 2 = [0, 0]) :
    Verifies (splice s.bytes p
        (wrapsum (checksum s.byte (UInt16.ofNat s.bytes.length) 0))) ∧
      Verifies (splice s.bytes p
        (Data.wrapsum (Data.checksum s.byte s.bytes.length 0))) ∧
      Verifies (splice s.bytes p
        (be16Bytes (Tools.Misc.wrapsum (Tools.Misc.checksum s.byte s.bytes.length 0)).toNat)) ∧
      ∀ (data : Nat → UInt8) (len : UInt16) (sum : UInt32),
        (checksum data len sum).toNat = Data.checksum data len.toNat sum.toNat ∧
        Tools.Misc.checksum data len.toNat sum.toNat = Data.checksum data len.toNat sum.toNat ∧
        wrapsum sum = Data.wrapsum sum.toNat ∧
        be16Bytes (Tools.Misc.wrapsum sum.toNat).toNat = Data.wrapsum sum.toNat := by
  have hverifies := verifies_splice heven hlen hp hfield
  have hlen16 : (UInt16.ofNat s.bytes.length).toNat = s.bytes.length :=
    UInt16.toNat_ofNat_of_lt' (Nat.lt_of_le_of_lt hlen (by decide))
  refine ⟨?_, hverifies, ?_, fun data len sum => ⟨toNat_checksum data len sum, rfl,
    wrapsum_eq sum, misc_wrapsum_eq sum.toNat⟩⟩
  · rw [wrapsum_eq, toNat_checksum, hlen16]
    exact hverifies
  · rw [misc_wrapsum_eq]
    exact hverifies

/-- Four bytes with the field behind the first two. -/
theorem checksum_copies_four_bytes :
    Verifies (splice [0x45, 0, 0, 0] 2
      (wrapsum (checksum (Source.byte ⟨[0x45, 0, 0, 0], fun _ => 7⟩) 4 0))) :=
  (checksum_copies ⟨[0x45, 0, 0, 0], fun _ => 7⟩ 2 (by decide) (by decide) (by decide)
    (by decide)).1

end MixiPgw.Ctrl
