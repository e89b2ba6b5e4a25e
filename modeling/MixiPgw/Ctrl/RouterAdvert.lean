/-
# Router Advertisements are well formed

The Router Solicitation branch of `event_gtpu_other_req` writes the advertisement over a copy of the
solicitation. Its checksum is taken in `checksum_buffer`, which lives as long as the burst, over a
pseudo header of 36 bytes instead of 40. The copies cover all that is added up
(`raChecksum_reused`), and the fields left out are the upper halves of small numbers
(`routerAdvert_verifies`): **`routerAdvert_wellFormed`**.
-/
import MixiPgw.Ctrl.GtpuBurst
import MixiPgw.Data.Checksum

namespace MixiPgw.Ctrl

open Bytes Lib Lib.OnesComplement List

variable {h : Handle} {rx : RxPacket} {ueipv : UInt32}

/-! ## 1. The checksum buffer -/

def icmpv6Pseudo (rx : RxPacket) : List UInt8 :=
  ipv6SrcAddr ++ ipv6DstAddr ++ be16Bytes 56 ++ [0, copiedByte rx 14]

@[simp] theorem length_icmpv6Pseudo (rx : RxPacket) : (icmpv6Pseudo rx).length = 36 := rfl

@[simp] theorem length_ndOptions (h : Handle) (ueipv : UInt32) :
    (ndOptions h ueipv).length = 40 := rfl

def checksumBuffer (old : Nat → UInt8) (h : Handle) (rx : RxPacket) (ueipv : UInt32) :
    Nat → UInt8 :=
  writeAt (writeAt old 0 (icmpv6Pseudo rx)) 36 (ndRouterAdvertHdr rx [0, 0] ++ ndOptions h ueipv)

theorem getD_checksumBuffer (old : Nat → UInt8) {i : Nat} (hi : i < 92) :
    checksumBuffer old h rx ueipv i =
      (icmpv6Pseudo rx ++ ndRouterAdvertHdr rx [0, 0] ++ ndOptions h ueipv).getD i 0 := by
  have hpseudo := length_icmpv6Pseudo rx
  have hbody : (ndRouterAdvertHdr rx [0, 0] ++ ndOptions h ueipv).length = 56 := rfl
  rw [append_assoc, checksumBuffer]
  by_cases hfront : i < 36
  · rw [writeAt_outside (Or.inl hfront), writeAt_inside (Nat.zero_le i) (by omega), Nat.sub_zero,
      getD_append _ _ _ _ (by omega)]
  · rw [writeAt_inside (by omega) (by omega),
      getD_append_right (icmpv6Pseudo rx) _ _ _ (by omega), hpseudo]

/-- Nothing of an earlier packet is added up. -/
theorem raChecksum_reused (old : Nat → UInt8) :
    Data.wrapsum (Data.checksum (checksumBuffer old h rx ueipv) 92 0) = raChecksum h rx ueipv := by
  rw [Data.checksum_congr fun i hi => getD_checksumBuffer old hi]
  rfl

/-! ## 2. The standard's test -/

/-- The pseudo header of RFC 2460: source, destination, the length in 32 bits, three zeroes, next
header 58. -/
def rfcPseudo (data : List UInt8) : List UInt8 :=
  slice data 16 16 ++ slice data 32 16 ++ be32Bytes (UInt32.ofNat (data.length - 48)) ++
    [0, 0, 0, 58]

/-- **A well-formed advertisement**: the three lengths agree, and the ICMPv6 checksum verifies. -/
structure WellFormedAdvert (data : List UInt8) (teid : UInt32) : Prop where
  gtpuLength : be16 (data.getD 2 0) (data.getD 3 0) + 8 = data.length
  payloadLen : be16 (data.getD 12 0) (data.getD 13 0) + 40 + 8 = data.length
  next : data.getD 14 0 = ippIcmp6
  type : data.getD 48 0 = ndRouterAdvert
  teid : slice data 4 4 = bytesOf teid
  checksum : Verifies (rfcPseudo data ++ data.drop 48)

theorem verifies_congr {message message' : List UInt8} (hsum : beSum message = beSum message') :
    Verifies message ↔ Verifies message' := by
  rw [verifies_iff, verifies_iff, hsum]

theorem beSum_pseudo (body : List UInt8) (hnext : copiedByte rx 14 = 58) :
    beSum (icmpv6Pseudo rx ++ body) =
      beSum (ipv6SrcAddr ++ ipv6DstAddr ++ [0, 0, 0, 56] ++ [0, 0, 0, 58] ++ body) := by
  have hshort : (icmpv6Pseudo rx).length % 2 = 0 := by rw [length_icmpv6Pseudo]
  have hlong : (ipv6SrcAddr ++ ipv6DstAddr ++ [0, 0, 0, 56] ++ [0, 0, 0, 58]).length % 2 = 0 := rfl
  rw [beSum_append hshort, beSum_append hlong, icmpv6Pseudo, hnext]
  rfl

theorem routerAdvert_verifies (hnext : copiedByte rx 14 = 58) :
    Verifies (ipv6SrcAddr ++ ipv6DstAddr ++ [0, 0, 0, 56] ++ [0, 0, 0, 58] ++
      (ndRouterAdvertHdr rx (raChecksum h rx ueipv) ++ ndOptions h ueipv)) := by
  rw [← verifies_congr (beSum_pseudo _ hnext)]
  -- the checksum stands behind the type and the code
  have hverifies := @Data.checksum_verifies (icmpv6Pseudo rx ++ [ndRouterAdvert, copiedByte rx 49])
    ([0x40, 0x58] ++ be16Bytes 1800 ++ replicate 8 0 ++ ndOptions h ueipv) (by simp) (by simp)
    (by simp)
  exact hverifies

theorem wellFormed_routerAdvert {sgwTeid : UInt32} (hnext : copiedByte rx 14 = 58) :
    WellFormedAdvert (routerAdvert h rx sgwTeid ueipv) sgwTeid := by
  have hlen : (routerAdvert h rx sgwTeid ueipv).length = 104 := rfl
  refine ⟨?_, ?_, hnext, rfl, rfl, ?_⟩
  · exact congrArg (· + 8) (be16_ofNat 96 (by decide))
  · exact congrArg (· + 40 + 8) (be16_ofNat 56 (by decide))
  · have hsrc : slice (routerAdvert h rx sgwTeid ueipv) 16 16 = ipv6SrcAddr := rfl
    have hdst : slice (routerAdvert h rx sgwTeid ueipv) 32 16 = ipv6DstAddr := rfl
    have hbody : (routerAdvert h rx sgwTeid ueipv).drop 48 =
        ndRouterAdvertHdr rx (raChecksum h rx ueipv) ++ ndOptions h ueipv := rfl
    rw [rfcPseudo, hlen, hsrc, hdst, hbody]
    exact routerAdvert_verifies hnext

/-! ## 3. What goes out -/

theorem solicitRecord_eq {t : TunnelTable} {r : Row} (hmem : r ∈ t.rows)
    (hteid : r.pgwTeid = (solicitTeid rx).toNat) (hactive : r.activeIn01 = true) :
    solicitRecord true t rx = onRaRecord GtpcParseState.zero r := by
  have hlookup : icmpv6RaLookup (solicitTeid rx).toNat r = true := by
    simp [icmpv6RaLookup, hteid, hactive]
  have hselected : r ∈ t.select (icmpv6RaLookup (solicitTeid rx).toNat) :=
    UniqueTable.mem_select.mpr ⟨hmem, hlookup⟩
  unfold solicitRecord
  rcases select_of_unique (t := t) pgwTeid_mem_keys teid_of_raLookup with hnone | ⟨q, -, -, hone⟩
  · rw [hnone] at hselected
    exact absurd hselected not_mem_nil
  · rw [hone] at hselected
    obtain rfl := mem_singleton.mp hselected
    rw [hone]
    rfl

/-- **Router Advertisements are well formed**, wherever in a burst the solicitation stands:
`mlen`, `node` and `old` are what the packets before it have left. -/
theorem routerAdvert_wellFormed (h : Handle) (mlen : Nat) (old : Nat → UInt8) (node : GtpuNode)
    (x : GtpuIn) (r : Row) (hsolicit : isRouterSolicit mlen x.rx = true)
    (hsize : 8 + 48 ≤ x.rx.datalen) (hok : x.ok = true) (hmem : r ∈ node.table.rows)
    (hteid : r.pgwTeid = (solicitTeid x.rx).toNat) (hactive : r.activeIn01 = true)
    (hoctet : byteOf r.ueAddress 0 = 0) :
    ∃ pckt ueipv, (gtpuTurn h mlen node x).2.1.egress = pgwEnq node.egress pckt ∧
      WellFormedAdvert pckt.data (UInt32.ofNat r.sgwGtpuTeid) ∧
      slice pckt.data 50 2 =
        Data.wrapsum (Data.checksum (checksumBuffer old h x.rx ueipv) 92 0) := by
  have hfields := hsolicit
  simp only [isRouterSolicit, Bool.and_eq_true, decide_eq_true_eq] at hfields
  obtain ⟨⟨⟨⟨⟨htype, -⟩, -⟩, hnxt⟩, -⟩, -⟩ := hfields
  have hnext : copiedByte x.rx 14 = 58 := by
    rw [copiedByte, if_pos (by omega)]
    exact hnxt
  have hrecord := solicitRecord_eq hmem hteid hactive
  have haddr : (onRaRecord GtpcParseState.zero r).db.ueIpvN =
      le32 0 (byteOf r.ueAddress 1) (byteOf r.ueAddress 2) (byteOf r.ueAddress 3) := by
    rw [← hoctet, le32_byteOf]
    rfl
  have hue := uePaaAddress_octets haddr
  have hsent : routerSolicit h mlen x.ok node.table x.rx = some
      ⟨routerAdvert h x.rx (UInt32.ofNat r.sgwGtpuTeid)
        (le32 10 (byteOf r.ueAddress 1) (byteOf r.ueAddress 2) (byteOf r.ueAddress 3)),
        x.rx.caddr, x.rx.saddr⟩ := by
    unfold routerSolicit
    rw [if_pos hsolicit, hok, hrecord]
    dsimp only
    rw [hue]
    rfl
  have hstays : breaksOff mlen node.table x = false := by
    unfold breaksOff
    rw [hok, hrecord]
    dsimp only
    rw [hue]
    simp
  have hturn : (gtpuTurn h mlen node x).2.1.egress = pgwEnq node.egress
      ⟨routerAdvert h x.rx (UInt32.ofNat r.sgwGtpuTeid)
        (le32 10 (byteOf r.ueAddress 1) (byteOf r.ueAddress 2) (byteOf r.ueAddress 3)),
        x.rx.caddr, x.rx.saddr⟩ := by
    unfold gtpuTurn
    rw [if_pos htype, hstays, hsent]
    rfl
  refine ⟨_, le32 10 (byteOf r.ueAddress 1) (byteOf r.ueAddress 2) (byteOf r.ueAddress 3), hturn,
    wellFormed_routerAdvert hnext, ?_⟩
  rw [raChecksum_reused]
  rfl

theorem solicitation_answered :
    ∃ pckt ueipv, (gtpuTurn plainHandle 48 ⟨provisionedTable, [], [], []⟩
        ⟨0, solicitation, true⟩).2.1.egress = pgwEnq [] pckt ∧
      WellFormedAdvert pckt.data (UInt32.ofNat provisioned.sgwGtpuTeid) ∧
      slice pckt.data 50 2 =
        Data.wrapsum (Data.checksum (checksumBuffer (fun _ => 0xff) plainHandle solicitation ueipv)
          92 0) :=
  routerAdvert_wellFormed plainHandle 48 (fun _ => 0xff) ⟨provisionedTable, [], [], []⟩
    ⟨0, solicitation, true⟩ provisioned (by decide +kernel) (by decide) rfl
    (by simp [provisionedTable]) (by decide +kernel) (by decide +kernel) (by decide +kernel)

end MixiPgw.Ctrl
