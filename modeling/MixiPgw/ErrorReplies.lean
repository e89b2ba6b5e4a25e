/-
# Error Indications for unknown tunnels

`error_indicate` of the dataplane (mixi_pgw_data_plane_def.hpp) and `CounterIngress::OnFilter` of
the tools turn a G-PDU with an unknown TEID into an Error Indication in place. `errorReplies_iff`:
the first one answers the frame EXACTLY if its two UDP ports are equal, the second one never.
-/
import Mathlib.Tactic.IntervalCases
import MixiPgw.Tools.CounterFilters

namespace MixiPgw.ErrorReplies

open Bytes Data Tools CounterFilter PktHeader

def rewritten (bf : Mbuf) : Mbuf :=
  let macs := (bf.write 0 (bf.bytes 6 6)).write 6 (bf.bytes 0 6)
  let tIpaddr := macs.bytes 30 4
  let addrs := (macs.write 30 (macs.bytes 26 4)).write 26 tIpaddr
  let ip := (addrs.write 16 (be16Bytes 48)).write 24 [0, 0]
  -- the destination port is assigned to itself and then to the source port
  let ports := (ip.write 36 (ip.bytes 36 2)).write 34 (ip.bytes 36 2)
  let udp := (ports.write 38 (be16Bytes 28)).write 40 [0, 0]
  let teid := (udp.write 50 [16]).write 51 (udp.bytes 46 4)
  let peer := ((teid.write 55 [133]).write 56 (be16Bytes 4)).write 58 tIpaddr
  ((peer.write 43 [26]).write 46 [0, 0, 0, 0]).write 44 (be16Bytes 12)

/-- `error_indicate`; `none` is the panic of a trim that is longer than the frame. -/
def errorIndicate (bf : Mbuf) : Option Mbuf :=
  if bf.pktLen < 62 then none else some { rewritten bf with pktLen := 62 }

/-- A G-PDU: no VLAN tag, an IP header of 20 bytes and no GTP-U options. -/
structure Gpdu extends Mbuf where
  long : 62 ≤ pktLen
  etherType : be16 (toMbuf.byte 12) (toMbuf.byte 13) = 0x0800
  ipHeader : toMbuf.byte 14 = 0x45
  gtpuFlags : toMbuf.byte 42 &&& 0x07 = 0
  gtpuType : toMbuf.byte 43 = 255

def Gpdu.pkt (g : Gpdu) : PktHeader := ⟨g.byte, UInt32.ofNat g.pktLen⟩

/-- The frame `tx` of `len` bytes is an Error Indication for the G-PDU `rx`. -/
structure IsErrorReply (rx tx : Nat → UInt8) (len : Nat) : Prop where
  macs : ∀ j < 6, tx j = rx (6 + j) ∧ tx (6 + j) = rx j
  addresses : ∀ j < 4, tx (26 + j) = rx (30 + j) ∧ tx (30 + j) = rx (26 + j)
  ports : ∀ j < 2, tx (34 + j) = rx (36 + j) ∧ tx (36 + j) = rx (34 + j)
  type : tx 43 = 26
  teid : tx 50 = 16 ∧ ∀ j < 4, tx (51 + j) = rx (46 + j)
  peer : tx 55 = 133 ∧ be16 (tx 56) (tx 57) = 4 ∧ ∀ j < 4, tx (58 + j) = rx (30 + j)
  lengths : be16 (tx 16) (tx 17) + 14 = len ∧ be16 (tx 38) (tx 39) + 34 = len ∧
    be16 (tx 44) (tx 45) + 50 = len
  covers : 62 ≤ len

theorem rewritten_blocks (bf : Mbuf) :
    (∀ j < 6, (rewritten bf).byte j = bf.byte (6 + j) ∧ (rewritten bf).byte (6 + j) = bf.byte j) ∧
    (∀ j < 4, (rewritten bf).byte (26 + j) = bf.byte (30 + j) ∧
      (rewritten bf).byte (30 + j) = bf.byte (26 + j) ∧
      (rewritten bf).byte (51 + j) = bf.byte (46 + j) ∧
      (rewritten bf).byte (58 + j) = bf.byte (30 + j)) ∧
    ∀ j < 2, (rewritten bf).byte (34 + j) = bf.byte (36 + j) ∧
      (rewritten bf).byte (36 + j) = bf.byte (36 + j) := by
  refine ⟨fun j hj => ?_, fun j hj => ?_, fun j hj => ?_⟩ <;> interval_cases j <;>
    simp [rewritten, Mbuf.byte_write, Mbuf.getD_bytes, -List.getD_eq_getElem?_getD]

theorem rewritten_fields (bf : Mbuf) :
    (rewritten bf).byte 43 = 26 ∧ (rewritten bf).byte 50 = 16 ∧ (rewritten bf).byte 55 = 133 ∧
    be16 ((rewritten bf).byte 56) ((rewritten bf).byte 57) = 4 ∧
    be16 ((rewritten bf).byte 16) ((rewritten bf).byte 17) = 48 ∧
    be16 ((rewritten bf).byte 38) ((rewritten bf).byte 39) = 28 ∧
    be16 ((rewritten bf).byte 44) ((rewritten bf).byte 45) = 12 := by
  simp [rewritten, Mbuf.byte_write, be16Bytes, be16]

theorem isErrorReply_rewritten_iff (bf : Mbuf) :
    IsErrorReply bf.byte (rewritten bf).byte 62 ↔ ∀ j < 2, bf.byte (34 + j) = bf.byte (36 + j) := by
  obtain ⟨hmacs, hwords, hports⟩ := rewritten_blocks bf
  constructor
  · intro h j hj
    exact (h.ports j hj).2.symm.trans (hports j hj).2
  · intro h
    obtain ⟨htype, hteid, hpeer, hlen, hip, hudp, hgtpu⟩ := rewritten_fields bf
    exact {
      macs := hmacs
      addresses := fun j hj => ⟨(hwords j hj).1, (hwords j hj).2.1⟩
      ports := fun j hj => ⟨(hports j hj).1, (hports j hj).2.trans (h j hj).symm⟩
      type := htype
      teid := ⟨hteid, fun j hj => (hwords j hj).2.2.1⟩
      peer := ⟨hpeer, hlen, fun j hj => (hwords j hj).2.2.2⟩
      lengths := ⟨by rw [hip], by rw [hudp], by rw [hgtpu]⟩
      covers := Nat.le_refl 62 }

theorem byte_cut (m : Mbuf) (n : Nat) : Mbuf.byte { m with pktLen := n } = m.byte := rfl

theorem errorIndicate_isErrorReply_iff {bf : Mbuf} (h : 62 ≤ bf.pktLen) :
    (∃ bf', errorIndicate bf = some bf' ∧ IsErrorReply bf.byte bf'.byte bf'.pktLen) ↔
      ∀ j < 2, bf.byte (34 + j) = bf.byte (36 + j) := by
  rw [errorIndicate, if_neg (Nat.not_lt.mpr h), ← isErrorReply_rewritten_iff]
  simp only [Option.some.injEq, exists_eq_left', byte_cut]

theorem errorIndication_type (g : Gpdu) : (errorIndication g.pkt).data 43 = 255 := by
  have hvlan : g.pkt.lenVlan = 0 := if_neg (by rw [Gpdu.pkt, g.etherType]; decide)
  have hip : g.pkt.ip = 14 := by rw [ip, hvlan]
  have hfirst : g.pkt.data 14 = 0x45 := g.ipHeader
  have hlen : g.pkt.lenIp = 20 := by
    rw [lenIp, hip, hfirst]
    decide
  have hudp : g.pkt.udp = 34 := by rw [udp, hip, hlen]
  have hgtpu : g.pkt.gtpu = 42 := by rw [gtpu, hudp]
  have hflags : g.pkt.data 42 &&& 0x07 = 0 := g.gtpuFlags
  have hipI : g.pkt.ipI = 50 := by rw [ipI, hgtpu, hflags]; rfl
  have htype : g.pkt.data 43 = 255 := g.gtpuType
  unfold errorIndication resum
  simp only [hip, hudp, hgtpu, hipI]
  iterate 12 rw [writeAt_outside (by simp [bytesOf])]
  exact htype

/-- **When the two functions answer a G-PDU with an Error Indication**: one if the ports are equal,
the other never. -/
theorem errorReplies_iff (g : Gpdu) :
    ((∃ bf', errorIndicate g.toMbuf = some bf' ∧ IsErrorReply g.byte bf'.byte bf'.pktLen) ↔
      ∀ j < 2, g.byte (34 + j) = g.byte (36 + j)) ∧
    ¬ IsErrorReply g.pkt.data (errorIndication g.pkt).data
      (errorIndication g.pkt).len.toNat := by
  refine ⟨errorIndicate_isErrorReply_iff g.long, fun h => ?_⟩
  exact absurd ((errorIndication_type g).symm.trans h.type) (by decide)

def fromOtherPort : Gpdu where
  id := 0
  buf i := match i with
    | 12 => 0x08
    | 14 => 0x45
    | 34 | 36 => 0x08
    | 35 => 0x69
    | 37 => 0x68
    | 42 => 0x30
    | 43 => 255
    | 49 => 7
    | _ => 0
  dataOff := 0
  pktLen := 62
  udata := .zero
  long := Nat.le_refl 62
  etherType := by decide
  ipHeader := by decide
  gtpuFlags := by decide
  gtpuType := by decide

/-- Neither reply is right: `error_indicate` answers to port 2152 instead of 2153, and the reply of
the tools is still a G-PDU. -/
theorem otherPort_misanswered :
    ¬ (∃ bf', errorIndicate fromOtherPort.toMbuf = some bf' ∧
      IsErrorReply fromOtherPort.byte bf'.byte bf'.pktLen) ∧
    ¬ IsErrorReply fromOtherPort.pkt.data (errorIndication fromOtherPort.pkt).data
      (errorIndication fromOtherPort.pkt).len.toNat := by
  constructor
  · rw [errorIndicate_isErrorReply_iff fromOtherPort.long]
    decide
  · intro h
    exact absurd ((errorIndication_type _).symm.trans h.type) (by decide)

end MixiPgw.ErrorReplies
