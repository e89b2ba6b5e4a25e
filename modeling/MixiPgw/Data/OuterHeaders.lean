/-
# The outer headers

`CoreEncapWorker` and `CorePgwEgressTunnelWorker` put an IPv4, a UDP and a GTP-U header in front of
an IP packet. Both keep the headers as TEMPLATES and patch the fields that change from frame to
frame; `Templates.patch` follows the source, where the checksum is computed twice, the first time
over the addresses of the frame before. Nothing of the templates is left (`encapsulateFrom_eq`),
and the headers agree with the frame, for every history (`outer_headers_consistent`).
-/
import MixiPgw.Data.Checksum
import MixiPgw.Data.Cycle
import MixiPgw.Data.Pipeline

namespace MixiPgw.Data

open Bytes Lib.OnesComplement Option List Mbuf EncapWorker

/-! ## 1. Headers in a frame -/

/-- **The headers of a frame agree with it**: the lengths are right, the IPv4 header verifies, and
`inner` is all that follows. -/
structure OuterHeaders (m : Mbuf) (inner : List UInt8) (teid src dst : UInt32) : Prop where
  pktLen : m.pktLen = 14 + 20 + 8 + 8 + inner.length
  version : m.byte 14 = 0x45
  protocol : m.byte 23 = 17
  totalLength : be16 (m.byte 16) (m.byte 17) = 20 + 8 + 8 + inner.length
  dgramLen : be16 (m.byte 38) (m.byte 39) = 8 + 8 + inner.length
  gtpuLength : be16 (m.byte 44) (m.byte 45) = inner.length
  checksum : Verifies (m.bytes 14 20)
  teid : m.word 46 = teid
  src : m.word 26 = src
  dst : m.word 30 = dst
  payload : m.bytes 50 inner.length = inner

def signedIp (len : Nat) (src dst : UInt32) : List UInt8 :=
  outerIp len (wrapsum (checksum (fun i => (outerIp len [0, 0] src dst).getD i 0) 20 0)) src dst

@[simp] theorem length_signedIp (len : Nat) (src dst : UInt32) :
    (signedIp len src dst).length = 20 := rfl

theorem verifies_signedIp (len : Nat) (src dst : UInt32) : Verifies (signedIp len src dst) := by
  have hverifies := @checksum_verifies ([0x45, 0] ++ be16Bytes len ++ [1, 0, 0, 0, 64, 17])
    (bytesOf src ++ bytesOf dst) (by simp) (by simp [bytesOf]) (by simp [bytesOf])
  exact hverifies

/-- The UDP header; no checksum. -/
def udpHeader (port len : Nat) : List UInt8 :=
  be16Bytes port ++ be16Bytes port ++ be16Bytes len ++ [0, 0]

def gtpuHeader (len : Nat) (teid : UInt32) : List UInt8 :=
  [0x30, 255] ++ be16Bytes len ++ bytesOf teid

theorem be16_be16Bytes (n : Nat) : be16 (UInt8.ofNat (n / 256)) (UInt8.ofNat n) = n % 65536 := by
  simp only [be16, UInt8.toNat_ofNat']
  omega

def writeHeaders (m : Mbuf) (ip udp gtpu : List UInt8) : Mbuf :=
  ((m.write 14 ip).write 34 udp).write 42 gtpu

section

variable {m : Mbuf} {ip udp gtpu : List UInt8}

theorem bytes_writeHeaders_ip (hip : ip.length = 20) :
    (writeHeaders m ip udp gtpu).bytes 14 20 = ip := by
  rw [← hip]
  refine bytes_eq_of fun j hj => ?_
  rw [writeHeaders, byte_write_of_lt (by omega), byte_write_of_lt (by omega), byte_write_mid hj]

theorem bytes_writeHeaders_udp (hudp : udp.length = 8) :
    (writeHeaders m ip udp gtpu).bytes 34 8 = udp := by
  rw [← hudp]
  refine bytes_eq_of fun j hj => ?_
  rw [writeHeaders, byte_write_of_lt (by omega), byte_write_mid hj]

theorem bytes_writeHeaders_gtpu (hgtpu : gtpu.length = 8) :
    (writeHeaders m ip udp gtpu).bytes 42 8 = gtpu := by
  rw [← hgtpu]
  refine bytes_eq_of fun j hj => ?_
  rw [writeHeaders, byte_write_mid hj]

theorem bytes_writeHeaders_payload (hip : ip.length = 20) (hudp : udp.length = 8)
    (hgtpu : gtpu.length = 8) (n : Nat) :
    (writeHeaders m ip udp gtpu).bytes 50 n = m.bytes 50 n := by
  refine bytes_congr fun j _ => ?_
  rw [writeHeaders, byte_write_of_ge (by omega), byte_write_of_ge (by omega),
    byte_write_of_ge (by omega)]

end

theorem outerHeaders_writeHeaders {inner : List UInt8} {total port dgram gtpu : Nat}
    {teid src dst : UInt32} (hlen : m.pktLen = 14 + 20 + 8 + 8 + inner.length)
    (hinner : m.bytes 50 inner.length = inner) (htotal : total % 65536 = 20 + 8 + 8 + inner.length)
    (hdgram : dgram % 65536 = 8 + 8 + inner.length) (hgtpu : gtpu % 65536 = inner.length) :
    OuterHeaders (writeHeaders m (signedIp total src dst) (udpHeader port dgram)
      (gtpuHeader gtpu teid)) inner teid src dst := by
  generalize hout : writeHeaders m (signedIp total src dst) (udpHeader port dgram)
    (gtpuHeader gtpu teid) = out
  have hip : out.bytes 14 20 = signedIp total src dst := by
    rw [← hout, bytes_writeHeaders_ip rfl]
  have hudp : out.bytes 34 8 = udpHeader port dgram := by
    rw [← hout, bytes_writeHeaders_udp rfl]
  have hgtp : out.bytes 42 8 = gtpuHeader gtpu teid := by
    rw [← hout, bytes_writeHeaders_gtpu rfl]
  refine ⟨?_, ?_, ?_, ?_, ?_, ?_, ?_, ?_, ?_, ?_, ?_⟩
  · rw [← hout]
    exact hlen
  · exact byte_of_bytes hip 0 (by decide)
  · exact byte_of_bytes hip 9 (by decide)
  · rw [← htotal, ← be16_be16Bytes, byte_of_bytes hip 2 (by decide),
      byte_of_bytes hip 3 (by decide)]
    rfl
  · rw [← hdgram, ← be16_be16Bytes, byte_of_bytes hudp 4 (by decide),
      byte_of_bytes hudp 5 (by decide)]
    rfl
  · rw [← hgtpu, ← be16_be16Bytes, byte_of_bytes hgtp 2 (by decide),
      byte_of_bytes hgtp 3 (by decide)]
    rfl
  · rw [hip]
    exact verifies_signedIp total src dst
  · exact (word_of_bytes hgtp 4 (by decide)).trans (le32_byteOf teid)
  · exact (word_of_bytes hip 12 (by decide)).trans (le32_byteOf src)
  · exact (word_of_bytes hip 16 (by decide)).trans (le32_byteOf dst)
  · rw [← hout, bytes_writeHeaders_payload rfl rfl rfl, hinner]

theorem Mbuf.pktLen_prepend {m m' : Mbuf} (h : m.prepend n = some m') :
    m'.pktLen = m.pktLen + n := by
  unfold prepend at h
  split at h
  · cases h
  · cases h
    rfl

/-- Before the headers are written: `n` bytes in front of the new payload stood the payload. -/
theorem bytes_moved {m m' : Mbuf} (h : m.prepend n = some m')
    (hd : d.length = 14) (hi : n + i = 50) (len : Nat) :
    (m'.write 0 d).bytes 50 len = m.bytes i len := by
  refine bytes_congr fun j _ => ?_
  rw [byte_write_of_ge (by omega), ← hi, Nat.add_assoc, byte_prepend h]

/-! ## 2. `CoreEncapWorker` -/

theorem EncapWorker.modifyPacket_headers (w : EncapWorker) {p p' : Packet}
    (h : (w.modifyPacket p).2 = some p') (hether : 14 ≤ p.mbuf.pktLen)
    (hmax : p'.mbuf.pktLen ≤ 65535) :
    ∃ dst, innerDst p = some dst ∧
      OuterHeaders p'.mbuf (p.mbuf.bytes 14 (p.mbuf.pktLen - 14)) 0 (bswap32 w.srcipv4) dst := by
  unfold modifyPacket at h
  split at h
  · cases h
  · rename_i pkt hprep
    dsimp only at h
    rw [outerDst_moved hprep] at h
    split at h
    · cases h
    · rename_i dst hdst
      cases h
      refine ⟨dst, hdst, ?_⟩
      have hlen := pktLen_prepend hprep
      generalize hmoved : (if p.isIpv4Hdr then pkt.write 0 (pkt.bytes 36 14)
        else (pkt.write 0 (pkt.bytes 36 14)).write 12 [0x08, 0x00]) = moved at hmax ⊢
      have hsize : moved.pktLen = p.mbuf.pktLen + 36 := by
        rw [← hmoved]
        split <;> exact hlen
      have hinner : moved.bytes 50 (p.mbuf.pktLen - 14) = p.mbuf.bytes 14 (p.mbuf.pktLen - 14) := by
        rw [← bytes_moved hprep (@Mbuf.length_bytes pkt 36 14) rfl, ← hmoved]
        split
        · rfl
        · refine bytes_congr fun j _ => ?_
          exact byte_write_of_ge (by simp only [length_cons, length_nil]; omega)
      have hbound : moved.pktLen ≤ 65535 := hmax
      show OuterHeaders (writeHeaders moved
        (signedIp (moved.pktLen + 65536 - 14) (bswap32 w.srcipv4) dst)
        (udpHeader pgwEgressPort (moved.pktLen + 65536 - 14 - 20))
        (gtpuHeader (moved.pktLen + 65536 - 14 - 20 - 8 - 8) 0)) _ _ _ _
      refine outerHeaders_writeHeaders ?_ ?_ ?_ ?_ ?_
      · rw [length_bytes]
        omega
      · rw [length_bytes]
        exact hinner
      all_goals
        rw [length_bytes]
        omega

/-! ## 3. `CorePgwEgressTunnelWorker` -/

/-- `*iph_`, `*udph_` and `*gtpuh_`: the fields that a frame changes. -/
structure Templates where
  totalLength : Nat
  hdrChecksum : List UInt8
  srcAddr : UInt32
  dstAddr : UInt32
  dgramLen : Nat
  gtpuLength : Nat
  tid : UInt32

namespace Templates

def new (srcipv4 : UInt32) : Templates where
  totalLength := 0
  hdrChecksum := [0, 0]
  srcAddr := bswap32 srcipv4
  dstAddr := 0
  dgramLen := 0
  gtpuLength := 0
  tid := 0

variable (t : Templates)

def iph : List UInt8 := outerIp t.totalLength t.hdrChecksum t.srcAddr t.dstAddr

def udph : List UInt8 := udpHeader 2152 t.dgramLen

def gtpuh : List UInt8 := gtpuHeader t.gtpuLength t.tid

/-- The checksum is zeroed and computed over the header as it is. -/
def setChecksum : Templates :=
  let t := { t with hdrChecksum := [0, 0] }
  { t with hdrChecksum := wrapsum (checksum (fun i => t.iph.getD i 0) 20 0) }

/-- The assignments for a frame of `len` bytes, in their order. -/
def patch (len : Nat) (itm : Lookup) : Templates :=
  -- over the addresses of the frame before
  let t := { t with totalLength := len - 14 }.setChecksum
  let t := { t with
    dgramLen := len + 65536 - 14 - 20
    gtpuLength := len + 65536 - 14 - 20 - 8 - 8 }
  let t := { t with
    tid := itm.sgwGtpuTeid
    srcAddr := itm.pgwGtpuIpv4
    dstAddr := itm.sgwGtpuIpv4 }
  t.setChecksum

end Templates

def encapsulateFrom (t : Templates) (m : Mbuf) (itm : Lookup) : Option (Mbuf × Templates) :=
  let n := if isSixrd m then 8 + 8 else 20 + 8 + 8
  let m := if isSixrd m then m.write 12 [0x08, 0x00] else m
  match m.prepend n with
  | none => none
  | some pkt =>
    let pkt := pkt.write 0 (pkt.bytes n 14)
    let t := t.patch pkt.pktLen itm
    some (writeHeaders pkt t.iph t.udph t.gtpuh, t)

/-- Nothing of the templates is left in the frame. -/
theorem encapsulateFrom_eq (t : Templates) (m : Mbuf) (itm : Lookup) :
    (encapsulateFrom t m itm).map Prod.fst = encapsulate m itm := by
  unfold encapsulateFrom encapsulate
  dsimp only
  cases (if isSixrd m then m.write 12 [0x08, 0x00] else m).prepend
      (if isSixrd m then 8 + 8 else 20 + 8 + 8) with
  | none => rfl
  | some pkt => rfl

def templatesAfter (srcipv4 : UInt32) (history : List (Mbuf × Lookup)) : Templates :=
  history.foldl (fun t f => ((encapsulateFrom t f.1 f.2).map Prod.snd).getD t)
    (Templates.new srcipv4)

/-- Where the UE's packet starts: a 6rd frame has an IPv4 header of its own. -/
def ownPacket (m : Mbuf) : Nat := if isSixrd m then 14 + 20 else 14

variable {itm : Lookup}

theorem encapsulate_headers {m pkt : Mbuf} (h : encapsulate m itm = some pkt)
    (hip : 14 + 20 ≤ m.pktLen) (hmax : pkt.pktLen ≤ 65535) :
    OuterHeaders pkt (m.bytes (ownPacket m) (m.pktLen - ownPacket m)) itm.sgwGtpuTeid
      itm.pgwGtpuIpv4 itm.sgwGtpuIpv4 := by
  unfold encapsulate at h
  dsimp only at h
  split at h
  · cases h
  · rename_i p hprep
    cases h
    generalize hn : (if isSixrd m then 8 + 8 else 20 + 8 + 8) = n at hprep hmax ⊢
    generalize htyped : (if isSixrd m then m.write 12 [0x08, 0x00] else m) = typed at hprep
    have hown : n + ownPacket m = 50 ∧ ownPacket m ≤ m.pktLen ∧ 14 ≤ ownPacket m := by
      rw [← hn, ownPacket]
      split <;> omega
    obtain ⟨hsum, hroom, hleast⟩ := hown
    have hsame : ∀ j, 14 ≤ j → typed.byte j = m.byte j := by
      intro j hj
      rw [← htyped]
      split
      · exact byte_write_of_ge (by simp only [length_cons, length_nil]; omega)
      · rfl
    have htlen : typed.pktLen = m.pktLen := by
      rw [← htyped]
      split <;> rfl
    have hlen := pktLen_prepend hprep
    have hinner : (p.write 0 (p.bytes n 14)).bytes 50 (m.pktLen - ownPacket m) =
        m.bytes (ownPacket m) (m.pktLen - ownPacket m) := by
      rw [bytes_moved hprep length_bytes hsum]
      exact bytes_congr fun j _ => hsame _ (by omega)
    have hbound : p.pktLen ≤ 65535 := hmax
    show OuterHeaders (writeHeaders (p.write 0 (p.bytes n 14))
      (signedIp (p.pktLen - 14) itm.pgwGtpuIpv4 itm.sgwGtpuIpv4)
      (udpHeader 2152 (p.pktLen + 65536 - 14 - 20))
      (gtpuHeader (p.pktLen + 65536 - 14 - 20 - 8 - 8) itm.sgwGtpuTeid)) _ _ _ _
    refine outerHeaders_writeHeaders ?_ ?_ ?_ ?_ ?_
    · rw [length_bytes, pktLen_write]
      omega
    · rw [length_bytes]
      exact hinner
    all_goals
      rw [length_bytes]
      omega

theorem encapsulate_isSome (itm : Lookup) (hroom : 20 + 8 + 8 ≤ m.dataOff) :
    (encapsulate m itm).isSome = true := by
  have hprep : ∀ {m' : Mbuf} {n : Nat}, n ≤ 36 → m'.dataOff = m.dataOff →
      ∃ p, m'.prepend n = some p := by
    intro m' n hn hoff
    exact ⟨_, prepend_eq (by omega)⟩
  obtain ⟨p, hp⟩ : ∃ p, (if isSixrd m then m.write 12 [0x08, 0x00] else m).prepend
      (if isSixrd m then 8 + 8 else 20 + 8 + 8) = some p := by
    split <;> exact hprep (by decide) rfl
  unfold encapsulate
  dsimp only
  rw [hp]
  rfl

/-! ## 4. Both workers -/

/-- **Outer headers are consistent**, for both workers, every frame and every history: the first
with any templates at all, the second with those that its history has left. -/
theorem outer_headers_consistent :
    (∀ (w : EncapWorker) (p p' : Packet), (w.modifyPacket p).2 = some p' → 14 ≤ p.mbuf.pktLen →
      p'.mbuf.pktLen ≤ 65535 →
        ∃ dst, innerDst p = some dst ∧
          OuterHeaders p'.mbuf (p.mbuf.bytes 14 (p.mbuf.pktLen - 14)) 0 (bswap32 w.srcipv4) dst) ∧
    ∀ (conf : Conf) (now : UInt32) (errEnq : Bool) (w : Worker) (m : Mbuf) (itm : Lookup)
      (srcipv4 : UInt32) (history : List (Mbuf × Lookup)), isUser m = true →
      w.map (bswap32 (ownKey m)) = some itm → 14 + 20 ≤ m.pktLen →
        (20 + 8 + 8 ≤ m.dataOff → ∃ r, egressTunnelModifyPacket conf now errEnq w m = some r) ∧
        ∀ r, egressTunnelModifyPacket conf now errEnq w m = some r → r.mbuf.pktLen ≤ 65535 →
          r.ret = 0 ∧
            (encapsulateFrom (templatesAfter srcipv4 history) m (itm.police now (udatSize m)).1).map
              (fun f => f.1.frame) = some r.mbuf.frame ∧
            OuterHeaders r.mbuf (m.bytes (ownPacket m) (m.pktLen - ownPacket m)) itm.sgwGtpuTeid
              itm.pgwGtpuIpv4 itm.sgwGtpuIpv4 := by
  constructor
  · intro w p p' h hether hmax
    exact w.modifyPacket_headers h hether hmax
  · intro conf now errEnq w m itm srcipv4 history huser hfound hip
    rw [egressTunnel_found huser hfound]
    generalize hspent : (itm.police now (udatSize m)).1 = spent
    have hentry : spent.toEntry = itm.toEntry := by rw [← hspent, itm.police_toEntry]
    constructor
    · intro hroom
      obtain ⟨pkt, hpkt⟩ := isSome_iff_exists.mp (encapsulate_isSome spent hroom)
      rw [hpkt]
      exact ⟨_, rfl⟩
    · intro r hr hmax
      obtain ⟨pkt, hpkt, rfl⟩ := map_eq_some_iff.mp hr
      have hheaders := encapsulate_headers hpkt hip hmax
      have hfrom := encapsulateFrom_eq (templatesAfter srcipv4 history) m spent
      rw [hpkt] at hfrom
      obtain ⟨f, hf, hfst⟩ := map_eq_some_iff.mp hfrom
      refine ⟨rfl, ?_, ?_⟩
      · rw [hf, map_some, hfst]
        rfl
      · rw [← congrArg Entry.sgwGtpuTeid hentry, ← congrArg Entry.pgwGtpuIpv4 hentry,
          ← congrArg Entry.sgwGtpuIpv4 hentry]
        exact ⟨hheaders.pktLen, hheaders.version, hheaders.protocol, hheaders.totalLength,
          hheaders.dgramLen, hheaders.gtpuLength, hheaders.checksum, hheaders.teid, hheaders.src,
          hheaders.dst, hheaders.payload⟩

def openWorker : Worker := ⟨fun _ => some { zeroLookup with sgwGtpuTeid := 7 }, 0, zeroLookup⟩

/-- An IPv6 frame through the one worker, and a frame to 10.1.2.3 through the other. -/
theorem outer_headers_of_samples :
    (∃ p' dst, ((EncapWorker.new 0).modifyPacket ipv6Packet).2 = some p' ∧
      OuterHeaders p'.mbuf (ipv6Packet.mbuf.bytes 14 40) 0 (bswap32 0) dst) ∧
    ∃ r, egressTunnelModifyPacket (plainConf .egressTunnel) 0 true openWorker
        (downlinkFrame (le32 10 1 2 3)) = some r ∧ r.ret = 0 ∧
      OuterHeaders r.mbuf ((downlinkFrame (le32 10 1 2 3)).bytes 14 20) 7 0 0 := by
  constructor
  · obtain ⟨p', hp'⟩ : ∃ p', ((EncapWorker.new 0).modifyPacket ipv6Packet).2 = some p' := ⟨_, rfl⟩
    have hmax : p'.mbuf.pktLen ≤ 65535 := by
      cases hp'
      decide
    obtain ⟨dst, -, hheaders⟩ :=
      outer_headers_consistent.1 (EncapWorker.new 0) ipv6Packet p' hp' (by decide) hmax
    exact ⟨p', dst, hp', hheaders⟩
  · have hsample := outer_headers_consistent.2 (plainConf .egressTunnel) 0 true openWorker
      (downlinkFrame (le32 10 1 2 3)) { zeroLookup with sgwGtpuTeid := 7 } 0 [] (by decide) rfl
      (by decide)
    obtain ⟨r, hr⟩ := hsample.1 (by decide)
    have hlen : (egressTunnelModifyPacket (plainConf .egressTunnel) 0 true openWorker
        (downlinkFrame (le32 10 1 2 3))).map (fun r => r.mbuf.pktLen) = some 70 := by decide
    have hmax : r.mbuf.pktLen ≤ 65535 := by
      rw [hr] at hlen
      have hsize : r.mbuf.pktLen = 70 := some.inj hlen
      omega
    obtain ⟨hret, -, hheaders⟩ := hsample.2 r hr hmax
    exact ⟨r, hr, hret, hheaders⟩

end MixiPgw.Data
