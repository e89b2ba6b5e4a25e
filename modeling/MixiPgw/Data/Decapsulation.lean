/-
# What the ingress workers make of a G-PDU

`CorePgwIngressTunnelWorker::ModifyPacket` takes the outer headers off IN PLACE: the Ethernet header
is copied forward and, for an inner IPv6 packet, an IPv4 header is written over the GTP-U header.

* `decapsulated_iff`: that header NEVER has the length it should, which is taken from the GTP-U
  header after that has been zeroed; inner IPv4 comes out as it should.
* `rejected_intact_iff`: the tunnel worker decapsulates before it looks the session up, so what it
  puts on the error-indication ring is not what was received; the distributor looks first.
-/
import MixiPgw.Data.Cycle
import MixiPgw.Lib.OnesComplement

namespace MixiPgw.Data

open Bytes Lib.OnesComplement Option List Mbuf

variable {m : Mbuf} {ipkey : UInt32}

/-! ## 1. The bytes that are left -/

@[simp] theorem length_ipCap (ipkey : UInt32) : (ipCap ipkey).length = 20 := rfl

theorem decapsulate_ipv4 (ipkey : UInt32) (hversion : innerVersion m ≠ 0x60)
    (hlen : 50 ≤ m.pktLen) :
    ∃ pkt size, decapsulate m ipkey = some (pkt, size) ∧
      pkt.frame = m.bytes 0 14 ++ m.bytes 50 (m.pktLen - 50) := by
  obtain ⟨pkt, hadj⟩ : ∃ pkt, m.adj (20 + 8 + 8) = some pkt := ⟨_, adj_eq (by omega)⟩
  refine ⟨pkt.write 0 (m.bytes 0 14), BitVec.ofNat 12 pkt.pktLen - 14, ?_, ?_⟩
  · unfold decapsulate
    rw [if_neg hversion, hadj]
  · have hsize : (pkt.write 0 (m.bytes 0 14)).pktLen = 14 + (m.pktLen - 50) := by
      rw [pktLen_write, pktLen_adj hadj]
      omega
    have hether : (pkt.write 0 (m.bytes 0 14)).bytes 0 14 = m.bytes 0 14 := by
      refine bytes_congr fun j hj => ?_
      rw [byte_write_mid (by rw [length_bytes]; exact hj), getD_bytes hj]
    have hinner : (pkt.write 0 (m.bytes 0 14)).bytes 14 (m.pktLen - 50) =
        m.bytes 50 (m.pktLen - 50) := by
      refine bytes_congr fun j _ => ?_
      rw [byte_write_of_ge (by rw [length_bytes]; omega), byte_adj hadj]
      congr 1
      omega
    rw [frame, hsize, bytes_append, hether, hinner]

theorem decapsulate_ipv6 (ipkey : UInt32) (hversion : innerVersion m = 0x60)
    (hlen : 50 ≤ m.pktLen) :
    ∃ pkt size, decapsulate m ipkey = some (pkt, size) ∧
      pkt.frame =
        m.bytes 0 12 ++ [0x08, 0x00] ++ ipCap ipkey ++ m.bytes 50 (m.pktLen - 50) := by
  -- the ether type is set in the OLD header, which is then copied
  generalize htyped : m.write 12 [0x08, 0x00] = typed
  have htlen : typed.pktLen = m.pktLen := by rw [← htyped, pktLen_write]
  obtain ⟨pkt, hadj⟩ : ∃ pkt, typed.adj (8 + 8) = some pkt := ⟨_, adj_eq (by omega)⟩
  refine ⟨(pkt.write 0 (typed.bytes 0 14)).write 14 (ipCap ipkey),
    BitVec.ofNat 12 pkt.pktLen - 14 - 20, ?_, ?_⟩
  · unfold decapsulate
    rw [if_pos hversion]
    dsimp only
    rw [htyped, hadj]
  · generalize hout : (pkt.write 0 (typed.bytes 0 14)).write 14 (ipCap ipkey) = out
    have hsize : out.pktLen = 12 + 2 + 20 + (m.pktLen - 50) := by
      rw [← hout, pktLen_write, pktLen_write, pktLen_adj hadj]
      omega
    have hether : ∀ j < 14, out.byte j = typed.byte j := by
      intro j hj
      rw [← hout, byte_write_of_lt hj, ← Nat.zero_add j,
        byte_write_mid (by rw [length_bytes]; exact hj), getD_bytes hj]
    have hmacs : out.bytes 0 12 = m.bytes 0 12 := by
      refine bytes_congr fun j hj => ?_
      rw [hether _ (by omega), ← htyped, byte_write_of_lt (by omega)]
    have htype : out.bytes (0 + 12) 2 = [0x08, 0x00] := by
      refine bytes_eq_of (d := [0x08, 0x00]) fun j hj => ?_
      rw [hether _ (by simp only [length_cons, length_nil] at hj; omega), ← htyped]
      exact byte_write_mid hj
    have hheader : out.bytes (0 + (12 + 2)) 20 = ipCap ipkey := by
      refine bytes_eq_of (d := ipCap ipkey) fun j hj => ?_
      rw [← hout]
      exact byte_write_mid hj
    have hinner : out.bytes (0 + (12 + 2 + 20)) (m.pktLen - 50) = m.bytes 50 (m.pktLen - 50) := by
      refine bytes_congr fun j _ => ?_
      rw [← hout, byte_write_of_ge (by rw [length_ipCap]; omega),
        byte_write_of_ge (by rw [length_bytes]; omega), byte_adj hadj, ← htyped,
        byte_write_of_ge (by simp only [length_cons, length_nil]; omega)]
      congr 1
      omega
    rw [frame, hsize, bytes_append, bytes_append, bytes_append, hmacs, htype, hheader, hinner]

/-! ## 2. What goes out -/

/-- **A well-formed G-PDU without options**: the lengths of its headers agree with the frame's and
with each other. -/
structure GPdu (m : Mbuf) : Prop where
  ether : be16 (m.byte 12) (m.byte 13) = 0x0800
  version : m.byte 14 = 0x45
  totalLength : be16 (m.byte 16) (m.byte 17) + 14 = m.pktLen
  protocol : m.byte 23 = 17
  port : be16 (m.byte 36) (m.byte 37) = 2152
  dgramLen : be16 (m.byte 38) (m.byte 39) + 34 = m.pktLen
  flags : m.byte 42 &&& 0xf7 = 0x30
  type : m.byte 43 = 255
  length : be16 (m.byte 44) (m.byte 45) + 50 = m.pktLen
  inner : innerVersion m = 0x40 ∧ 20 ≤ be16 (m.byte 52) (m.byte 53) ∧
      be16 (m.byte 52) (m.byte 53) + 50 = m.pktLen ∨
    innerVersion m = 0x60 ∧ be16 (m.byte 54) (m.byte 55) + 40 + 50 = m.pktLen

theorem GPdu.isPdu (h : GPdu m) : isPdu m = true := by
  unfold Data.isPdu isIpv4
  simp [h.ether, h.protocol, h.port, h.type]

/-- The IPv4 header that an inner IPv6 packet has to get. -/
structure SixrdHeader (m : Mbuf) (header : List UInt8) : Prop where
  version : header.getD 0 0 = 0x45
  totalLength : be16 (header.getD 2 0) (header.getD 3 0) = 20 + (m.pktLen - 50)
  protocol : header.getD 9 0 = 41
  checksum : Verifies header
  src : slice header 12 4 = [10, m.byte 63, m.byte 64, m.byte 65]
  dst : slice header 16 4 = [10, 10, 10, 10]

/-- **The frame that has to go out** for `m`. -/
structure Decapsulated (m m' : Mbuf) : Prop where
  macs : m'.bytes 0 12 = m.bytes 0 12
  ipv4 : innerVersion m = 0x40 → m'.frame = m.bytes 0 14 ++ m.bytes 50 (m.pktLen - 50)
  ipv6 : innerVersion m = 0x60 → SixrdHeader m (m'.bytes 14 20) ∧
    m'.frame = m.bytes 0 12 ++ [0x08, 0x00] ++ m'.bytes 14 20 ++ m.bytes 50 (m.pktLen - 50)

theorem not_decapsulated_of_ipCap {m' : Mbuf} (ipkey : UInt32) (hversion : innerVersion m = 0x60)
    (hlen : 50 < m.pktLen) (hframe : m'.frame =
      m.bytes 0 12 ++ [0x08, 0x00] ++ ipCap ipkey ++ m.bytes 50 (m.pktLen - 50)) :
    ¬ Decapsulated m m' := by
  intro hdec
  have hheader : m'.bytes 14 20 = ipCap ipkey := bytes_of_frame hframe
  have htotal := (hdec.ipv6 hversion).1.totalLength
  rw [hheader] at htotal
  have htwenty : be16 ((ipCap ipkey).getD 2 0) ((ipCap ipkey).getD 3 0) = 20 :=
    be16_ofNat 20 (by decide)
  omega

/-- **Decapsulation, exactly.** Every well-formed G-PDU that passes the lookup goes out, and it
goes out as it should if and only if the inner packet is IPv4. -/
theorem decapsulated_iff (conf : Conf) (now : UInt32) (errEnq : Bool) (w : Worker) (m : Mbuf)
    (hgpdu : GPdu m) (hauth : authentic w.map m = true) :
    ∃ r, ingressTunnelModifyPacket conf now errEnq w m = some r ∧ r.ret = 0 ∧
      (Decapsulated m r.mbuf ↔ innerVersion m = 0x40) := by
  rcases hgpdu.inner with ⟨hversion, hleast, hlength⟩ | ⟨hversion, hlength⟩
  · have hnot : innerVersion m ≠ 0x60 := by
      rw [hversion]
      decide
    have hsrc : innerSource m = some (m.word (50 + 12)) := by rw [innerSource, if_pos hversion]
    obtain ⟨pkt, size, hdec, hframe⟩ := decapsulate_ipv4 (m.word (50 + 12)) hnot (by omega)
    obtain ⟨r, hr, hret, udata, hmbuf, -⟩ := ingressTunnel_authentic hgpdu.isPdu hsrc hdec hauth
    have hout : r.mbuf.frame = m.bytes 0 14 ++ m.bytes 50 (m.pktLen - 50) := by
      rw [hmbuf]
      exact hframe
    have hmacs : r.mbuf.bytes 0 12 = m.bytes 0 12 := by
      have hsplit : r.mbuf.frame =
          [] ++ m.bytes 0 12 ++ (m.bytes (0 + 12) 2 ++ m.bytes 50 (m.pktLen - 50)) := by
        rw [hout, bytes_append 0 12 2, append_assoc, nil_append]
      exact bytes_of_frame hsplit
    exact ⟨r, hr, hret, fun _ => hversion,
      fun _ => ⟨hmacs, fun _ => hout, fun hsix => absurd hsix hnot⟩⟩
  · have hnot : innerVersion m ≠ 0x40 := by
      rw [hversion]
      decide
    have hsrc : innerSource m = some (m.word (50 + 8 + 4)) := by
      rw [innerSource, if_neg hnot, if_pos hversion]
    obtain ⟨pkt, size, hdec, hframe⟩ := decapsulate_ipv6 (m.word (50 + 8 + 4)) hversion (by omega)
    obtain ⟨r, hr, hret, udata, hmbuf, -⟩ := ingressTunnel_authentic hgpdu.isPdu hsrc hdec hauth
    have hwrong : ¬ Decapsulated m r.mbuf := by
      refine not_decapsulated_of_ipCap (m.word (50 + 8 + 4)) hversion (by omega) ?_
      rw [hmbuf]
      exact hframe
    exact ⟨r, hr, hret, fun hright => absurd hright hwrong, fun hfour => absurd hfour hnot⟩

def gpduAround (inner : List UInt8) : Mbuf where
  id := 0
  buf a :=
    ([0x02, 0, 0, 0, 0, 0x01, 0x02, 0, 0, 0, 0, 0x02, 0x08, 0x00] ++
      outerIp (36 + inner.length) [0, 0] 0 0 ++ be16Bytes 2152 ++ be16Bytes 2152 ++
      be16Bytes (16 + inner.length) ++ [0, 0, 0x30, 255] ++ be16Bytes inner.length ++
      [0, 0, 0, 1] ++ inner).getD a 0
  dataOff := 0
  pktLen := 50 + inner.length
  udata := UserDat.zero

def innerIpv4 : List UInt8 :=
  [0x45, 0, 0, 20, 0, 0, 0, 0, 64, 17, 0, 0, 10, 1, 2, 3, 8, 8, 8, 8]

def innerIpv6 : List UInt8 :=
  [0x60, 0, 0, 0, 0, 0, 59, 64, 0x24, 0, 0, 0, 10, 1, 2, 3] ++ replicate 24 0

def oneSession : Worker where
  map := fun key =>
    if key = le32 0 0 0 1 then some { zeroLookup with active := true, ueIpv4 := le32 10 1 2 3 }
    else none
  findkey := 0
  lookupItm := zeroLookup

theorem gpdu_ipv4 : GPdu (gpduAround innerIpv4) := by
  constructor <;> decide

theorem gpdu_ipv6 : GPdu (gpduAround innerIpv6) := by
  constructor <;> decide

theorem ipv4_decapsulated :
    GPdu (gpduAround innerIpv4) ∧ authentic oneSession.map (gpduAround innerIpv4) = true ∧
      ∃ r, ingressTunnelModifyPacket (plainConf .ingressTunnel) 0 true oneSession
          (gpduAround innerIpv4) = some r ∧ r.ret = 0 ∧
        (Decapsulated (gpduAround innerIpv4) r.mbuf ↔
          innerVersion (gpduAround innerIpv4) = 0x40) :=
  ⟨gpdu_ipv4, by decide, decapsulated_iff _ _ _ _ _ gpdu_ipv4 (by decide)⟩

/-- The header says 20 for itself and a packet of 40 bytes, and its checksum is 0. -/
theorem ipv6_decapsulated_wrong :
    GPdu (gpduAround innerIpv6) ∧ authentic oneSession.map (gpduAround innerIpv6) = true ∧
      (ingressTunnelModifyPacket (plainConf .ingressTunnel) 0 true oneSession
          (gpduAround innerIpv6)).map (fun r => (r.ret, r.mbuf.bytes 16 2, r.mbuf.bytes 24 2)) =
        some (0, [0, 20], [0, 0]) ∧
      ¬ ∃ r, ingressTunnelModifyPacket (plainConf .ingressTunnel) 0 true oneSession
          (gpduAround innerIpv6) = some r ∧ Decapsulated (gpduAround innerIpv6) r.mbuf := by
  refine ⟨gpdu_ipv6, by decide, by decide, ?_⟩
  rintro ⟨r, hr, hdec⟩
  have hsome : r = (ingressTunnelModifyPacket (plainConf .ingressTunnel) 0 true oneSession
      (gpduAround innerIpv6)).get (by decide) := by
    rw [eq_some_iff_get_eq] at hr
    exact hr.2.symm
  have htotal := (hdec.ipv6 (by decide)).1.totalLength
  rw [hsome] at htotal
  cases htotal

/-! ## 3. What is rejected -/

theorem Mbuf.le_of_adj {m m' : Mbuf} {n : Nat} (h : m.adj n = some m') : n ≤ m.pktLen := by
  by_contra hshort
  rw [adj, if_pos (by omega)] at h
  cases h

theorem pktLen_decapsulate
    (h : decapsulate m ipkey = some (pkt, size)) : pkt.pktLen < m.pktLen := by
  unfold decapsulate at h
  split at h
  · dsimp only at h
    split at h
    · cases h
    · rename_i p hadj
      obtain ⟨rfl, -⟩ := Prod.mk.inj (some.inj h)
      have hleast := le_of_adj hadj
      have hlen := pktLen_adj hadj
      rw [pktLen_write] at hleast hlen
      rw [pktLen_write, pktLen_write]
      omega
  · split at h
    · cases h
    · rename_i p hadj
      obtain ⟨rfl, -⟩ := Prod.mk.inj (some.inj h)
      have hleast := le_of_adj hadj
      have hlen := pktLen_adj hadj
      rw [pktLen_write]
      omega

variable {r : Modified}

theorem ingressTunnel_rejected (h : ingressTunnelModifyPacket conf now errEnq w m = some r)
    (herr : r.err = true) : r.mbuf.pktLen < m.pktLen := by
  unfold ingressTunnelModifyPacket at h
  split at h
  · split at h
    · cases h
      exact absurd herr Bool.false_ne_true
    · split at h
      · cases h
        exact absurd herr Bool.false_ne_true
      · rename_i pkt size hdec
        dsimp only at h
        split at h
        · cases h
          have hlen := pktLen_decapsulate hdec
          unfold reject
          split <;> exact hlen
        · cases h
          exact absurd herr Bool.false_ne_true
  · cases h
    exact absurd herr Bool.false_ne_true

theorem ingressDistributor_rejected
    (h : ingressDistributorModifyPacket conf errEnq w m = some r) (herr : r.err = true) :
    r.mbuf = m := by
  have hreject : distributorReject conf errEnq w m = some r → r.mbuf = m := by
    intro hsome
    unfold distributorReject at hsome
    split at hsome
    · split at hsome
      · cases hsome
        rfl
      · cases hsome
        rfl
    · cases hsome
  unfold ingressDistributorModifyPacket at h
  split at h
  · cases h
    rfl
  · split at h
    · exact hreject h
    · split at h
      · exact hreject h
      · cases h
        exact absurd herr Bool.false_ne_true

/-- **The error-indication ring, exactly.** The frame on it is the one that was received if and
only if the worker is a distributor. -/
theorem rejected_intact_iff (conf : Conf) (now : UInt32) (errEnq : Bool) (w : Worker) (m : Mbuf)
    (r : Modified) (hkind : conf.kind ≠ .egressTunnel)
    (h : modifyPacket conf now errEnq w m = some r) (herr : r.err = true) :
    r.mbuf.frame = m.frame ↔ conf.kind = .ingressDistributor := by
  unfold modifyPacket at h
  cases hcase : conf.kind with
  | egressTunnel => exact absurd hcase hkind
  | ingressTunnel =>
    rw [hcase] at h
    have hlen := ingressTunnel_rejected h herr
    constructor
    · intro hsame
      have hsize := congrArg length hsame
      rw [frame, frame, length_bytes, length_bytes] at hsize
      omega
    · intro hdistributor
      exact Kind.noConfusion hdistributor
  | ingressDistributor =>
    rw [hcase] at h
    rw [ingressDistributor_rejected h herr]
    exact ⟨fun _ => rfl, fun _ => rfl⟩

def noSession : Worker := ⟨fun _ => none, 0, zeroLookup⟩

theorem distributor_rejects_intact :
    ∃ r, modifyPacket (plainConf .ingressDistributor) 0 true noSession (gpduAround innerIpv4) =
        some r ∧ r.err = true ∧
      (r.mbuf.frame = (gpduAround innerIpv4).frame ↔
        (plainConf .ingressDistributor).kind = .ingressDistributor) :=
  ⟨_, rfl, rfl, rejected_intact_iff (plainConf .ingressDistributor) 0 true noSession
    (gpduAround innerIpv4) _ (by decide) rfl rfl⟩

/-- The TEID is unknown, and gone from the frame on the ring. -/
theorem tunnel_rejects_decapsulated :
    (modifyPacket (plainConf .ingressTunnel) 0 true noSession (gpduAround innerIpv4)).map
        (fun r => (r.err, r.mbuf.frame)) =
      some (true, (gpduAround innerIpv4).bytes 0 14 ++ innerIpv4) ∧
    ¬ ∃ r, modifyPacket (plainConf .ingressTunnel) 0 true noSession (gpduAround innerIpv4) =
        some r ∧ r.mbuf.frame = (gpduAround innerIpv4).frame := by
  have hframe : (modifyPacket (plainConf .ingressTunnel) 0 true noSession
      (gpduAround innerIpv4)).map (fun r => (r.err, r.mbuf.frame)) =
      some (true, (gpduAround innerIpv4).bytes 0 14 ++ innerIpv4) := by decide
  refine ⟨hframe, ?_⟩
  rintro ⟨r, hr, hsame⟩
  rw [hr] at hframe
  have hpair := Prod.mk.inj (some.inj hframe)
  rw [hsame] at hpair
  exact absurd hpair.2 (by decide)

end MixiPgw.Data
