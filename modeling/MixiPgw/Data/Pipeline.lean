/-
# The tunnel between the sites

`ModifyPacket` of `CoreEncapWorker`, `CoreGtpu2GreWorker` and `CoreGretermWorker` (built with GRE):
a frame gets 36 bytes of outer headers, has them rewritten from GTP-U to GRE in place, and loses
them at the other end. The three together give every IPv4 and every IPv6 frame back
(`tunnel_lossless`); the ether type is told from the version of the inner packet.
-/
import MixiPgw.Data.Workers

namespace MixiPgw.Data

open Bytes List Mbuf

/-- A buffer with `packet_type`, which the driver sets. -/
structure Packet where
  mbuf : Mbuf
  packetType : UInt32

def Packet.frame (p : Packet) : List UInt8 := p.mbuf.bytes 0 p.mbuf.pktLen

def rtePtypeL3Ipv4 : UInt32 := 0x10
def rtePtypeL3Ipv6 : UInt32 := 0x40
def rtePtypeL4Udp : UInt32 := 0x200
def rtePtypeTunnelGre : UInt32 := 0x2000

def Packet.isIpv4Hdr (p : Packet) : Bool := p.packetType &&& rtePtypeL3Ipv4 != 0

def Packet.isIpv6Hdr (p : Packet) : Bool := p.packetType &&& rtePtypeL3Ipv6 != 0

/-- The driver, outside the repository, has marked the frame as IPv4. -/
def Packet.MarkedIpv4 (p : Packet) : Prop := p.isIpv4Hdr = true

/-- The driver has marked the frame as IPv6, and not as IPv4. -/
def Packet.MarkedIpv6 (p : Packet) : Prop := p.isIpv4Hdr = false ∧ p.isIpv6Hdr = true

/-! ## 1. `CoreEncapWorker` -/

/-- The header templates, with what the last frame has put in. -/
structure EncapWorker where
  srcipv4 : UInt32
  totalLength : Nat
  hdrChecksum : List UInt8
  dstAddr : UInt32
  dgramLen : Nat
  gtpuLength : Nat
  hdrChecksum_length : hdrChecksum.length = 2

namespace EncapWorker

def new (srcipv4 : UInt32) : EncapWorker where
  srcipv4 := srcipv4
  totalLength := 0
  hdrChecksum := [0, 0]
  dstAddr := 0
  dgramLen := 0
  gtpuLength := 0
  hdrChecksum_length := rfl

def pgwEgressPort : Nat := 50999

def iph (w : EncapWorker) : List UInt8 :=
  outerIp w.totalLength w.hdrChecksum (bswap32 w.srcipv4) w.dstAddr

def udph (w : EncapWorker) : List UInt8 :=
  be16Bytes pgwEgressPort ++ be16Bytes pgwEgressPort ++ be16Bytes w.dgramLen ++ [0, 0]

/-- `*gtpuh_`; the TEID stays 0. -/
def gtpuh (w : EncapWorker) : List UInt8 :=
  [0x30, 255] ++ be16Bytes w.gtpuLength ++ [0, 0, 0, 0]

/-- The length fields and the checksum for a frame of `len` bytes. -/
def setLengths (w : EncapWorker) (len : Nat) : EncapWorker :=
  let w := { w with totalLength := len + 65536 - 14, hdrChecksum := [0, 0], hdrChecksum_length := rfl }
  { w with
    hdrChecksum := wrapsum (checksum (fun i => w.iph.getD i 0) 20 0)
    dgramLen := len + 65536 - 14 - 20
    gtpuLength := len + 65536 - 14 - 20 - 8 - 8
    hdrChecksum_length := rfl }

/-- `iph_->dst_addr` for a frame with 36 bytes in front; `none` when the driver has found no IP
header. -/
def outerDst (p : Packet) : Option UInt32 :=
  if p.isIpv4Hdr then some (p.mbuf.word (14 + 36 + 16))
  else if p.isIpv6Hdr then
    some ((p.mbuf.word (14 + 36 + 24 + 4) &&& 0xffffff00) ||| 0x0000000a)
  else none

def modifyPacket (w : EncapWorker) (p : Packet) : EncapWorker × Option Packet :=
  match p.mbuf.prepend (20 + 8 + 8) with
  | none => (w, none)
  | some pkt =>
    let pkt := pkt.write 0 (pkt.bytes 36 14)
    match outerDst ⟨pkt, p.packetType⟩ with
    | none => (w, none)
    | some dst =>
      -- only the IPv6 branch sets the ether type
      let pkt := if p.isIpv4Hdr then pkt else pkt.write 12 [0x08, 0x00]
      let w := { w with dstAddr := dst }.setLengths pkt.pktLen
      (w, some ⟨((pkt.write 14 w.iph).write 34 w.udph).write 42 w.gtpuh,
        rtePtypeL3Ipv4 ||| rtePtypeL4Udp⟩)

section

variable (w : EncapWorker)

@[simp] theorem length_iph : w.iph.length = 20 := by
  simp [iph, outerIp, w.hdrChecksum_length, bytesOf]

@[simp] theorem length_udph : w.udph.length = 8 := rfl

@[simp] theorem length_gtpuh : w.gtpuh.length = 8 := rfl

theorem byte_headers (m : Mbuf) {j : Nat} (h : j < 14 ∨ 50 ≤ j) :
    (((m.write 14 w.iph).write 34 w.udph).write 42 w.gtpuh).byte j = m.byte j := by
  simp only [byte_write, length_iph, length_udph, length_gtpuh]
  rw [if_neg (by omega), if_neg (by omega), if_neg (by omega)]

end

theorem byte_moved {m pkt : Mbuf} (h : m.prepend (20 + 8 + 8) = some pkt) (j : Nat) :
    (pkt.write 0 (pkt.bytes 36 14)).byte j =
      if j < 14 then m.byte j else pkt.byte j := by
  rw [byte_write, length_bytes]
  by_cases hj : j < 14
  · rw [if_pos (by omega), if_pos hj, getD_bytes (by omega)]
    exact byte_prepend h j
  · rw [if_neg (by omega), if_neg hj]

/-- The outer destination of a frame, told from the frame as it came. -/
def innerDst (p : Packet) : Option UInt32 :=
  if p.isIpv4Hdr then some (p.mbuf.word 30)
  else if p.isIpv6Hdr then some ((p.mbuf.word 42 &&& 0xffffff00) ||| 0x0000000a)
  else none

theorem outerDst_moved {p : Packet} {pkt : Mbuf} (h : p.mbuf.prepend (20 + 8 + 8) = some pkt) :
    outerDst ⟨pkt.write 0 (pkt.bytes 36 14), p.packetType⟩ = innerDst p := by
  have hbyte : ∀ j, 14 ≤ 36 + j →
      (pkt.write 0 (pkt.bytes 36 14)).byte (36 + j) = p.mbuf.byte j := by
    intro j hj
    rw [byte_moved h, if_neg (by omega)]
    exact byte_prepend h j
  have hword : ∀ i, (pkt.write 0 (pkt.bytes 36 14)).word (36 + i) = p.mbuf.word i := by
    intro i
    unfold word
    rw [Nat.add_assoc, Nat.add_assoc, Nat.add_assoc, hbyte i (by omega), hbyte _ (by omega),
      hbyte _ (by omega), hbyte _ (by omega)]
  unfold outerDst
  rw [show 14 + 36 + 16 = 36 + 30 from rfl, show 14 + 36 + 24 + 4 = 36 + 42 from rfl, hword, hword]
  rfl

/-- 36 bytes more, the old frame from its IP header on behind them, and the ether type of the outer
packet. -/
structure Encapped (p p' : Packet) (dst : UInt32) : Prop where
  pktLen : p'.mbuf.pktLen = p.mbuf.pktLen + 36
  inner : ∀ j, p'.mbuf.byte (50 + j) = p.mbuf.byte (14 + j)
  macs : ∀ j < 12, p'.mbuf.byte j = p.mbuf.byte j
  etherType : ∀ j < 2, p'.mbuf.byte (12 + j) =
    if p.isIpv4Hdr then p.mbuf.byte (12 + j) else [0x08, 0x00].getD j 0
  dst : p'.mbuf.word 30 = dst

theorem word_headers (w : EncapWorker) (m : Mbuf) (len : Nat) (dst : UInt32) :
    (((m.write 14 ({ w with dstAddr := dst }.setLengths len).iph).write 34
      ({ w with dstAddr := dst }.setLengths len).udph).write 42
      ({ w with dstAddr := dst }.setLengths len).gtpuh).word 30 = dst := by
  have hbyte : ∀ k < 4, (((m.write 14 ({ w with dstAddr := dst }.setLengths len).iph).write 34
      ({ w with dstAddr := dst }.setLengths len).udph).write 42
      ({ w with dstAddr := dst }.setLengths len).gtpuh).byte (14 + (16 + k)) =
      (({ w with dstAddr := dst }.setLengths len).iph).getD (16 + k) 0 := by
    intro k hk
    rw [byte_write_of_lt (by omega), byte_write_of_lt (by omega),
      byte_write_mid (by rw [length_iph]; omega)]
  unfold word
  rw [show 30 = 14 + (16 + 0) from rfl, hbyte 0 (by decide), hbyte 1 (by decide),
    hbyte 2 (by decide), hbyte 3 (by decide)]
  exact le32_byteOf dst

theorem modifyPacket_spec (w : EncapWorker) {p : Packet} {dst : UInt32}
    (hroom : 36 ≤ p.mbuf.dataOff) (hdst : innerDst p = some dst) :
    ∃ p', (w.modifyPacket p).2 = some p' ∧ Encapped p p' dst := by
  obtain ⟨pkt, hprep, hlen⟩ :
      ∃ pkt, p.mbuf.prepend (20 + 8 + 8) = some pkt ∧ pkt.pktLen = p.mbuf.pktLen + 36 :=
    ⟨_, prepend_eq hroom, rfl⟩
  have hmoved := byte_moved hprep
  unfold modifyPacket
  rw [hprep]
  dsimp only
  rw [outerDst_moved hprep, hdst]
  generalize hm : pkt.write 0 (pkt.bytes 36 14) = moved at hmoved
  have hmovedLen : moved.pktLen = p.mbuf.pktLen + 36 := by rw [← hm, pktLen_write, hlen]
  refine ⟨_, rfl, ?_, fun j => ?_, fun j hj => ?_, fun j hj => ?_, word_headers ..⟩
  · cases p.isIpv4Hdr <;> exact hmovedLen
  · have hinner : moved.byte (50 + j) = p.mbuf.byte (14 + j) := by
      rw [hmoved, if_neg (by omega), show 50 + j = 36 + (14 + j) by omega]
      exact byte_prepend hprep _
    rw [byte_headers _ _ (Or.inr (by omega)), ← hinner]
    split
    · rfl
    · exact byte_write_of_ge (by simp; omega)
  · rw [byte_headers _ _ (Or.inl (by omega))]
    split
    · rw [hmoved, if_pos (by omega)]
    · rw [byte_write_of_lt hj, hmoved, if_pos (by omega)]
  · rw [byte_headers _ _ (Or.inl (by omega))]
    split
    · rw [hmoved, if_pos (by omega)]
    · exact byte_write_mid hj

end EncapWorker

/-! ## 2. `CoreGtpu2GreWorker` -/

/-- `ModifyPacket`; it cannot fail. -/
def gtpu2GreModifyPacket (pgwipv4 : UInt32) (p : Packet) : Packet :=
  let m := (p.mbuf.write 14 [0x48]).write 30 (bytesOf pgwipv4)
  let m := (m.write 23 [47]).write 24 [0, 0]
  let m := (m.write 34 (replicate 12 0x01)).write 46 [0x00, 0x00, 0x80, 0x00]
  ⟨m, rtePtypeL3Ipv4 ||| rtePtypeTunnelGre⟩

theorem gtpu2Gre_spec (pgwipv4 : UInt32) (p : Packet) :
    (gtpu2GreModifyPacket pgwipv4 p).mbuf.pktLen = p.mbuf.pktLen ∧
      (∀ j, j < 14 ∨ 50 ≤ j →
        (gtpu2GreModifyPacket pgwipv4 p).mbuf.byte j = p.mbuf.byte j) ∧
      (gtpu2GreModifyPacket pgwipv4 p).mbuf.byte 14 = 0x48 ∧
      (gtpu2GreModifyPacket pgwipv4 p).mbuf.byte 23 = 47 := by
  refine ⟨rfl, fun j hj => ?_, ?_, ?_⟩
  · simp only [gtpu2GreModifyPacket, byte_write, bytesOf, length_cons, length_nil, length_replicate]
    rw [if_neg (by omega), if_neg (by omega), if_neg (by omega), if_neg (by omega),
      if_neg (by omega), if_neg (by omega)]
  · simp [gtpu2GreModifyPacket, byte_write]
  · simp [gtpu2GreModifyPacket, byte_write]

/-! ## 3. `CoreGretermWorker` -/

/-- `ModifyPacket`; `none` when the frame was freed. -/
def gretermModifyPacket (p : Packet) : Option Packet :=
  if p.mbuf.byte 23 ≠ 47 then none
  else if (p.mbuf.byte 14 &&& 0x0f) <<< 2 ≠ 32 then none
  else
    let eh := p.mbuf.bytes 0 14
    match p.mbuf.adj 36 with
    | none => none
    | some m =>
      if m.byte 14 &&& 0xf0 ≠ 0x40 then
        some ⟨m.write 0 (eh.take 12 ++ [0x86, 0xdd]),
          (p.packetType &&& ~~~ rtePtypeL3Ipv4) ||| rtePtypeL3Ipv6⟩
      else some ⟨m.write 0 eh, p.packetType ||| rtePtypeL3Ipv4⟩

/-- Termination: the outer headers of a GRE frame with three options are gone, and the ether
type is told from the version. -/
theorem greterm_spec {p : Packet} (hproto : p.mbuf.byte 23 = 47) (hihl : p.mbuf.byte 14 = 0x48)
    (hlen : 36 ≤ p.mbuf.pktLen) :
    ∃ p', gretermModifyPacket p = some p' ∧ p'.mbuf.pktLen = p.mbuf.pktLen - 36 ∧
      (∀ j, p'.mbuf.byte (14 + j) = p.mbuf.byte (50 + j)) ∧
      (∀ j < 12, p'.mbuf.byte j = p.mbuf.byte j) ∧
      ∀ j < 2, p'.mbuf.byte (12 + j) =
        if p.mbuf.byte 50 &&& 0xf0 ≠ 0x40 then [0x86, 0xdd].getD j 0 else p.mbuf.byte (12 + j) := by
  obtain ⟨m, hadj⟩ : ∃ m, p.mbuf.adj 36 = some m := ⟨_, adj_eq hlen⟩
  have hbyte := byte_adj hadj
  have hm := pktLen_adj hadj
  have hbehind : ∀ (d : List UInt8), d.length = 14 → ∀ j,
      (m.write 0 d).byte (14 + j) = p.mbuf.byte (50 + j) := by
    intro d hd j
    rw [byte_write_of_ge (by omega), hbyte]
    congr 1
    omega
  have hfront : ∀ (d : List UInt8), d.length = 14 → ∀ j < 14, (m.write 0 d).byte j = d.getD j 0 := by
    intro d hd j hj
    rw [← byte_write_mid (m := m) (i := 0) (d := d) (by omega), Nat.zero_add]
  unfold gretermModifyPacket
  rw [if_neg (by simp [hproto]), if_neg (by rw [hihl]; decide), hadj]
  dsimp only
  rw [hbyte 14]
  by_cases hver : p.mbuf.byte 50 &&& 0xf0 ≠ 0x40
  · rw [if_pos hver]
    have hd : ((p.mbuf.bytes 0 14).take 12 ++ [0x86, 0xdd]).length = 14 := by simp
    refine ⟨_, rfl, hm, hbehind _ hd, fun j hj => ?_, fun j hj => ?_⟩
    · rw [hfront _ hd j (by omega), getD_append _ _ _ _ (by simp; omega)]
      rw [getD_eq_getElem?_getD, getElem?_take_of_lt hj, ← getD_eq_getElem?_getD,
        getD_bytes (by omega), Nat.zero_add]
    · rw [if_pos hver, hfront _ hd _ (by omega), getD_append_right _ _ _ _ (by simp)]
      congr 1
      simp
  · rw [if_neg hver]
    have hd : (p.mbuf.bytes 0 14).length = 14 := length_bytes
    refine ⟨_, rfl, hm, hbehind _ hd, fun j hj => ?_, fun j hj => ?_⟩
    · rw [hfront _ hd j (by omega), getD_bytes (by omega), Nat.zero_add]
    · rw [if_neg hver, hfront _ hd _ (by omega), getD_bytes (by omega), Nat.zero_add]

/-! ## 4. The tunnel -/

def Packet.CarriesIpv4 (p : Packet) : Prop :=
  p.mbuf.byte 12 = 0x08 ∧ p.mbuf.byte 13 = 0x00 ∧ p.mbuf.byte 14 &&& 0xf0 = 0x40

def Packet.CarriesIpv6 (p : Packet) : Prop :=
  p.mbuf.byte 12 = 0x86 ∧ p.mbuf.byte 13 = 0xdd ∧ p.mbuf.byte 14 &&& 0xf0 = 0x60

/-- **The tunnel is lossless.** Every IP frame with 36 bytes of headroom comes out as it went
in, whatever the templates hold from the frames before. -/
theorem tunnel_lossless (w : EncapWorker) (pgwipv4 : UInt32) (p : Packet)
    (hroom : 36 ≤ p.mbuf.dataOff) (hip : p.CarriesIpv4 ∨ p.CarriesIpv6)
    (hdriver : p.MarkedIpv4 ∨ p.MarkedIpv6) :
    ∃ p₁ p₂, (w.modifyPacket p).2 = some p₁ ∧
      gretermModifyPacket (gtpu2GreModifyPacket pgwipv4 p₁) = some p₂ ∧ p₂.frame = p.frame := by
  obtain ⟨dst, hdst⟩ : ∃ dst, EncapWorker.innerDst p = some dst := by
    unfold EncapWorker.innerDst
    rcases hdriver with h | ⟨h4, h6⟩
    · exact ⟨_, if_pos h⟩
    · simp [h4, h6]
  obtain ⟨p₁, hp₁, henc⟩ := w.modifyPacket_spec hroom hdst
  obtain ⟨hlen, hkeep, hihl, hproto⟩ := gtpu2Gre_spec pgwipv4 p₁
  obtain ⟨p₂, hp₂, hlen₂, hinner, hmacs, htype⟩ :=
    greterm_spec hproto hihl (by rw [hlen, henc.pktLen]; omega)
  refine ⟨p₁, p₂, hp₁, hp₂, ?_⟩
  have hbyte : ∀ j, p₂.mbuf.byte j = p.mbuf.byte j := by
    intro j
    rcases Nat.lt_or_ge j 12 with hj | hj
    · rw [hmacs j hj, hkeep j (by omega), henc.macs j hj]
    rcases Nat.lt_or_ge j 14 with hj' | hj'
    · -- the version of the inner packet gives the ether type back
      obtain ⟨k, rfl⟩ := Nat.exists_eq_add_of_le hj
      have hk : k < 2 := by omega
      have hversion : (gtpu2GreModifyPacket pgwipv4 p₁).mbuf.byte 50 = p.mbuf.byte 14 := by
        rw [hkeep 50 (by omega)]
        exact henc.inner 0
      rw [htype k hk, hversion, hkeep _ (by omega), henc.etherType k hk]
      rcases hip with ⟨h12, h13, hv⟩ | ⟨h12, h13, hv⟩
      · rw [if_neg (by rw [hv]; decide)]
        split
        · rfl
        · rcases (by omega : k = 0 ∨ k = 1) with rfl | rfl
          · exact h12.symm
          · exact h13.symm
      · rw [if_pos (by rw [hv]; decide)]
        rcases (by omega : k = 0 ∨ k = 1) with rfl | rfl
        · exact h12.symm
        · exact h13.symm
    · obtain ⟨k, rfl⟩ := Nat.exists_eq_add_of_le hj'
      rw [hinner, hkeep _ (by omega), henc.inner]
  have hpktLen : p₂.mbuf.pktLen = p.mbuf.pktLen := by
    rw [hlen₂, hlen, henc.pktLen, Nat.add_sub_cancel]
  unfold Packet.frame bytes
  rw [hpktLen]
  exact map_congr_left fun k _ => hbyte _

def ipv6Packet : Packet where
  mbuf :=
    ⟨0, fun a => if a = 140 then 0x86 else if a = 141 then 0xdd else if a = 142 then 0x60 else 7,
      128, 54, UserDat.zero⟩
  packetType := rtePtypeL3Ipv6

theorem tunnel_lossless_ipv6 :
    ∃ p₁ p₂, ((EncapWorker.new 0).modifyPacket ipv6Packet).2 = some p₁ ∧
      gretermModifyPacket (gtpu2GreModifyPacket 0 p₁) = some p₂ ∧ p₂.frame = ipv6Packet.frame :=
  tunnel_lossless (EncapWorker.new 0) 0 ipv6Packet (by decide)
    (Or.inr ⟨rfl, rfl, by decide⟩) (Or.inr ⟨by decide, by decide⟩)

end MixiPgw.Data
