/-
# Packet buffers of the dataplane

The part of `rte_mbuf` that the tunnel workers use: one segment whose frame can grow into the
headroom in front of it and shrink from its front, and the user data that travels with it
(`mbuf_userdat`). The buffer is addressed ABSOLUTELY, so that a pointer taken before
`rte_pktmbuf_adj` still means the same bytes; a frame offset is relative to `dataOff`.
-/
import MixiPgw.Lib.Bytes

namespace MixiPgw.Data

open Bytes List

/-! ## 1. User data -/

/-- `MBFU_FLAG`: whether the counter core counts a frame. -/
inductive Flag
  | dc
  | pdu
deriving DecidableEq, Repr

inductive Color
  | green
  | yellow
  | red
deriving DecidableEq, Repr

/-- `POLICER_MODE_…`; two bits have room for a fourth value. -/
inductive Mode
  | lte
  | m3g
  | low
  | reserved
deriving DecidableEq, Repr

/-- `mbuf_userdat_t`. The size has 12 bits. -/
structure UserDat where
  flag : Flag
  size : BitVec 12
  color : Color
  mode : Mode
  teid : UInt32
deriving DecidableEq, Repr

def UserDat.zero : UserDat := ⟨.dc, 0, .green, .lte, 0⟩

/-! ## 2. The buffer -/

/-- A packet buffer. `id` tells buffers apart; nothing in the program reads it. -/
structure Mbuf where
  id : Nat
  buf : Nat → UInt8
  dataOff : Nat
  pktLen : Nat
  udata : UserDat

namespace Mbuf

variable (m : Mbuf)

def byte (i : Nat) : UInt8 := m.buf (m.dataOff + i)

def word (i : Nat) : UInt32 :=
  le32 (m.byte i) (m.byte (i + 1)) (m.byte (i + 2)) (m.byte (i + 3))

def bytes (i n : Nat) : List UInt8 := (range n).map fun k => m.byte (i + k)

def frame : List UInt8 := m.bytes 0 m.pktLen

/-- `memcpy` into the frame at offset `i`. -/
def write (i : Nat) (d : List UInt8) : Mbuf :=
  { m with
    buf := fun a =>
      if m.dataOff + i ≤ a ∧ a < m.dataOff + i + d.length then d.getD (a - (m.dataOff + i)) 0
      else m.buf a }

def adj (n : Nat) : Option Mbuf :=
  if m.pktLen < n then none
  else some { m with dataOff := m.dataOff + n, pktLen := m.pktLen - n }

/-- `rte_pktmbuf_prepend`; all in front of the frame is headroom. -/
def prepend (n : Nat) : Option Mbuf :=
  if m.dataOff < n then none
  else some { m with dataOff := m.dataOff - n, pktLen := m.pktLen + n }

variable {m m' : Mbuf} {i n : Nat} {d : List UInt8}

@[simp] theorem id_write : (m.write i d).id = m.id := rfl
@[simp] theorem pktLen_write : (m.write i d).pktLen = m.pktLen := rfl
@[simp] theorem length_bytes : (m.bytes i n).length = n := by simp [bytes]

variable {j : Nat}

theorem getD_bytes (h : j < n) : (m.bytes i n).getD j 0 = m.byte (i + j) := by
  simp [bytes, getD_eq_getElem?_getD, h]

theorem byte_of_bytes (h : m.bytes i n = d) (j : Nat) (hj : j < n) :
    m.byte (i + j) = d.getD j 0 := by
  rw [← h, getD_bytes hj]

theorem word_of_bytes (h : m.bytes i n = d) (j : Nat) (hj : j + 3 < n) :
    m.word (i + j) =
      le32 (d.getD j 0) (d.getD (j + 1) 0) (d.getD (j + 2) 0) (d.getD (j + 3) 0) := by
  rw [← byte_of_bytes h j (by omega), ← byte_of_bytes h (j + 1) (by omega),
    ← byte_of_bytes h (j + 2) (by omega), ← byte_of_bytes h (j + 3) hj]
  rfl

theorem bytes_append (i a b : Nat) : m.bytes i (a + b) = m.bytes i a ++ m.bytes (i + a) b := by
  unfold bytes
  rw [range_add, map_append, map_map]
  simp only [Function.comp_def, Nat.add_assoc]

theorem bytes_of_frame {front mid back : List UInt8} (h : m.frame = front ++ mid ++ back) :
    m.bytes front.length mid.length = mid := by
  have hlen : m.pktLen = front.length + mid.length + back.length := by
    have := congrArg length h
    simpa [frame, Nat.add_assoc] using this
  rw [frame, hlen, bytes_append, bytes_append] at h
  obtain ⟨hfront, -⟩ := append_inj h (by simp)
  obtain ⟨-, hmid⟩ := append_inj hfront (by simp)
  rwa [Nat.zero_add] at hmid

theorem bytes_congr {i' : Nat} (h : ∀ j < n, m.byte (i + j) = m'.byte (i' + j)) :
    m.bytes i n = m'.bytes i' n := by
  unfold bytes
  exact map_congr_left fun j hj => h j (mem_range.mp hj)

theorem bytes_eq_of (h : ∀ j < d.length, m.byte (i + j) = d.getD j 0) : m.bytes i d.length = d := by
  refine ext_getD length_bytes fun j hj => ?_
  rw [length_bytes] at hj
  rw [getD_bytes hj, h j hj]

theorem byte_write (j : Nat) :
    (m.write i d).byte j = if i ≤ j ∧ j < i + d.length then d.getD (j - i) 0 else m.byte j := by
  unfold byte write
  dsimp only
  by_cases h : i ≤ j ∧ j < i + d.length
  · rw [if_pos h, if_pos (by omega)]
    congr 1
    omega
  · rw [if_neg h, if_neg (by omega)]

theorem byte_write_of_lt (h : j < i) : (m.write i d).byte j = m.byte j := by
  rw [byte_write, if_neg (by omega)]

theorem byte_write_of_ge (h : i + d.length ≤ j) : (m.write i d).byte j = m.byte j := by
  rw [byte_write, if_neg (by omega)]

theorem byte_write_mid (h : j < d.length) : (m.write i d).byte (i + j) = d.getD j 0 := by
  rw [byte_write, if_pos (by omega), Nat.add_sub_cancel_left]

theorem adj_eq (h : n ≤ m.pktLen) :
    m.adj n = some { m with dataOff := m.dataOff + n, pktLen := m.pktLen - n } :=
  if_neg (by omega)

theorem prepend_eq (h : n ≤ m.dataOff) :
    m.prepend n = some { m with dataOff := m.dataOff - n, pktLen := m.pktLen + n } :=
  if_neg (by omega)

theorem byte_adj (h : m.adj n = some m') (j : Nat) : m'.byte j = m.byte (n + j) := by
  unfold adj at h
  split at h
  · exact absurd h (by simp)
  · obtain rfl := Option.some.inj h
    exact congrArg m.buf (Nat.add_assoc m.dataOff n j)

theorem byte_prepend (h : m.prepend n = some m') (j : Nat) : m'.byte (n + j) = m.byte j := by
  unfold prepend at h
  split at h
  · exact absurd h (by simp)
  · rename_i hroom
    obtain rfl := Option.some.inj h
    have haddr : m.dataOff - n + (n + j) = m.dataOff + j := by omega
    exact congrArg m.buf haddr

theorem id_adj (h : m.adj n = some m') : m'.id = m.id := by
  unfold adj at h
  split at h
  · exact absurd h (by simp)
  · obtain rfl := Option.some.inj h
    rfl

theorem pktLen_adj (h : m.adj n = some m') : m'.pktLen = m.pktLen - n := by
  unfold adj at h
  split at h
  · exact absurd h (by simp)
  · obtain rfl := Option.some.inj h
    rfl

theorem id_prepend (h : m.prepend n = some m') : m'.id = m.id := by
  unfold prepend at h
  split at h
  · exact absurd h (by simp)
  · obtain rfl := Option.some.inj h
    rfl

end Mbuf

/-! ## 3. Classification -/

def sixrdEncapperAddr : UInt32 := 0x0a0a0a0a

def isIpv4 (m : Mbuf) : Bool := be16 (m.byte 12) (m.byte 13) = 0x0800

/-- `is_pdu`: a G-PDU on the GTP-U port. -/
def isPdu (m : Mbuf) : Bool :=
  isIpv4 m && m.byte 23 == 17 && be16 (m.byte 36) (m.byte 37) = 2152 && m.byte 43 == 255

/-- `is_user`: a destination `10.x.y.z`. -/
def isUser (m : Mbuf) : Bool := isIpv4 m && m.word 30 &&& 0x000000ff == 0x0000000a

/-! ## 4. The header checksum -/

/-- The loop of `_checksum` over big-endian words; a last odd byte is read with the byte behind
it. -/
def sumWords (data : Nat → UInt8) : Nat → Nat → Nat → Nat
  | 0, _, sum => sum
  | n + 1, i, sum => sumWords data n (i + 2) ((sum + be16 (data i) (data (i + 1))) % 2 ^ 32)

def foldCarry (sum : Nat) : Nat :=
  if h : sum / 65536 = 0 then sum else foldCarry (sum % 65536 + sum / 65536)
termination_by sum
decreasing_by omega

def checksum (data : Nat → UInt8) (len sum : Nat) : Nat :=
  2 ^ 32 - 1 - foldCarry (sumWords data ((len + 1) / 2) 0 sum)

/-- `_wrapsum`, as the two bytes it is stored as. -/
def wrapsum (sum : Nat) : List UInt8 := be16Bytes (sum % 65536)

end MixiPgw.Data
