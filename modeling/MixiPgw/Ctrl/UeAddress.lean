/-
# The address of a UE in three protocols

A row has one address `0.x.y.z`. Create Session, Create PDP Context and Router Solicitations each
make of it what they tell the UE: an IPv4 address `10.x.y.z`, an IPv6 prefix with `x.y.z` in it, or
both. They are the same, but for a Create Session without a PDN type, whose PAA carries `0.0.0.0`:
the address is read from the row only in the branch for a PDN type (`ueAddress_iff`).
-/
import MixiPgw.Ctrl.Lifecycle
import MixiPgw.Ctrl.ErrorIndication
import MixiPgw.Data.Mbuf
import Mathlib.Tactic.IntervalCases

namespace MixiPgw.Ctrl

open Bytes CString Lib Option List PdpProcedure

/-! ## 1. Router Solicitations -/

def gtpuGPdu : UInt8 := 255
def ipv6Version : UInt8 := 0x60
def ippIcmp6 : UInt8 := 58
def ndRouterSolicit : UInt8 := 133
def ndRouterAdvert : UInt8 := 134

def icmpv6RaLookup (teid : Nat) (r : Row) : Bool := r.pgwTeid = teid && r.activeIn01

theorem teid_of_raLookup {teid : Nat} (r : Row) (h : icmpv6RaLookup teid r = true) :
    r.pgwTeid = teid := by
  simp only [icmpv6RaLookup, Bool.and_eq_true, decide_eq_true_eq] at h
  exact h.1

/-- The statement selects `sgw_gtpu_teid` where the others have `sgw_gtpc_teid`. -/
def onRaRecord (cs : GtpcParseState) (r : Row) : GtpcParseState :=
  onTunnelRecord cs { r with sgwGtpcTeid := r.sgwGtpuTeid }

/-- A G-PDU that is taken for a Router Solicitation. `mlen` is 48 at first; an Error Indication
lowers it to 8 or 12. -/
def isRouterSolicit (mlen : Nat) (rx : RxPacket) : Bool :=
  rx.data.byte 1 = gtpuGPdu && mlen ≤ be16 (rx.data.byte 2) (rx.data.byte 3) &&
    rx.data.byte 8 = ipv6Version && rx.data.byte 14 = ippIcmp6 &&
    8 ≤ be16 (rx.data.byte 12) (rx.data.byte 13) && rx.data.byte 48 = ndRouterSolicit

def copiedByte (rx : RxPacket) (i : Nat) : UInt8 := if i < rx.datalen then rx.data.byte i else 0

def solicitTeid (rx : RxPacket) : UInt32 :=
  bswap32 (le32 (copiedByte rx 4) (copiedByte rx 5) (copiedByte rx 6) (copiedByte rx 7))

/-- `fe80::2`. -/
def ipv6SrcAddr : List UInt8 := [0xfe, 0x80] ++ replicate 13 0 ++ [0x02]

/-- `ff02::1`. -/
def ipv6DstAddr : List UInt8 := [0xff, 0x02] ++ replicate 13 0 ++ [0x01]

def raIpv6 (h : Handle) (ueipv : UInt32) : List UInt8 :=
  [0x24, 0x01, 0xf1, 0x00, ((0x0f &&& h.extSetNum) <<< 4) ||| (0x0f &&& h.pgwUnitNum),
    byteOf ueipv 1, byteOf ueipv 2, byteOf ueipv 3, 0x00, 0x00, 0x00, 0x00, 0x00, 0x00, 0x00, 0x00]

def be32Bytes (x : UInt32) : List UInt8 := bytesOf (bswap32 x)

/-- `nd_router_advert`: hop limit 64, other configuration, low preference, 1800 seconds. -/
def ndRouterAdvertHdr (rx : RxPacket) (cksum : List UInt8) : List UInt8 :=
  [ndRouterAdvert, copiedByte rx 49] ++ cksum ++ [0x40, 0x58] ++ be16Bytes 1800 ++
    replicate 8 0

/-- `nd_opt_mtu` and `nd_opt_prefix_info`: an autonomous `/64`. -/
def ndOptions (h : Handle) (ueipv : UInt32) : List UInt8 :=
  [5, 1, 0, 0] ++ be32Bytes 1500 ++ [3, 4, 64, 0x40] ++ be32Bytes 86400 ++ be32Bytes 43200 ++
    replicate 4 0 ++ raIpv6 h ueipv

def raChecksum (h : Handle) (rx : RxPacket) (ueipv : UInt32) : List UInt8 :=
  let buffer := ipv6SrcAddr ++ ipv6DstAddr ++ be16Bytes 56 ++ [0, copiedByte rx 14] ++
    ndRouterAdvertHdr rx [0, 0] ++ ndOptions h ueipv
  Data.wrapsum (Data.checksum (fun i => buffer.getD i 0) 92 0)

/-- The advertisement, in the GTP-U and IPv6 headers of the solicitation. -/
def routerAdvert (h : Handle) (rx : RxPacket) (sgwTeid ueipv : UInt32) : List UInt8 :=
  [copiedByte rx 0, copiedByte rx 1] ++ be16Bytes 96 ++ bytesOf sgwTeid ++
    [copiedByte rx 8, copiedByte rx 9, copiedByte rx 10, copiedByte rx 11] ++ be16Bytes 56 ++
    [copiedByte rx 14, copiedByte rx 15] ++ ipv6SrcAddr ++ ipv6DstAddr ++
    ndRouterAdvertHdr rx (raChecksum h rx ueipv) ++ ndOptions h ueipv

def solicitRecord (ok : Bool) (t : TunnelTable) (rx : RxPacket) : GtpcParseState :=
  if ok then (t.select (icmpv6RaLookup (solicitTeid rx).toNat)).foldl onRaRecord GtpcParseState.zero
  else GtpcParseState.zero

/-- The Router Solicitation branch of `event_gtpu_other_req`: what goes on the EGRESS queue. -/
def routerSolicit (h : Handle) (mlen : Nat) (ok : Bool) (t : TunnelTable) (rx : RxPacket) :
    Option TxPacket :=
  if isRouterSolicit mlen rx then
    let cs := solicitRecord ok t rx
    if cs.flag .record then
      (uePaaAddress cs).map fun ueipv =>
        { data := routerAdvert h rx cs.db.sgwCTeid ueipv, saddr := rx.caddr, caddr := rx.saddr }
    else none
  else none

/-! ## 2. What the messages carry -/

def octets (data : List UInt8) (i n : Nat) : List UInt8 :=
  (range n).map fun k => data.getD (i + k) 0

theorem octets_eq {data d : List UInt8} {i : Nat}
    (h : ∀ k < d.length, data.getD (i + k) 0 = d.getD k 0) : octets data i d.length = d := by
  refine ext_getD (by simp [octets]) fun k hk => ?_
  have hk' : k < d.length := by simpa [octets] using hk
  rw [← h k hk']
  simp [octets, hk']

def ueIpv4 (x y z : UInt8) : List UInt8 := [10, x, y, z]

variable (pckt : TxPacket)

def paaPdnType : UInt8 := pckt.data.getD 35 0 &&& 0x07

/-- The IPv4 address the PAA carries; with both, it comes last. -/
def paaIpv4 : Option (List UInt8) :=
  if paaPdnType pckt = 1 then some (octets pckt.data 36 4)
  else if paaPdnType pckt = 3 then some (octets pckt.data 53 4)
  else none

/-- The length and the first 64 bits of the prefix in the PAA. -/
def paaPrefix : Option (UInt8 × List UInt8) :=
  if paaPdnType pckt = 2 ∨ paaPdnType pckt = 3 then
    some (pckt.data.getD 36 0, octets pckt.data 37 8)
  else none

/-- Where the End User Address of a Create PDP Context Response begins: behind five elements, the
NSAPI, and the charging id. -/
def euaOffset : Nat := if pckt.data.getD 28 0 = gtpcV1IeNsapi then 35 else 33

/-- Behind type, length, organisation and number. -/
def euaIpv4 : Option (List UInt8) :=
  if pckt.data.getD (euaOffset pckt) 0 = gtpcV1IeEndUserAddress ∧
      pckt.data.getD (euaOffset pckt + 4) 0 = 0x21 then
    some (octets pckt.data (euaOffset pckt + 5) 4)
  else none

def raPrefix : UInt8 × List UInt8 :=
  (pckt.data.getD 74 0, octets pckt.data 88 8)

/-- `2401:f100:XYxx:yyzz::/64`. -/
def uePrefix (h : Handle) (x y z : UInt8) : UInt8 × List UInt8 :=
  (64, [0x24, 0x01, 0xf1, 0x00, ((0x0f &&& h.extSetNum) <<< 4) ||| (0x0f &&& h.pgwUnitNum),
    x, y, z])

section

variable {x y z : UInt8}

theorem ten_of_zero : bswap32 (bswap32 (le32 0 x y z) ||| 0x0a000000) = le32 10 x y z := by
  rw [bswap32_le32, show (0x0a000000 : UInt32) = le32 0 0 0 0x0a from rfl, le32_or_zero,
    bswap32_le32]

theorem uePaaAddress_octets {cs : GtpcParseState} (h : cs.db.ueIpvN = le32 0 x y z) :
    uePaaAddress cs = some (le32 10 x y z) := by
  have hzero : bswap32 (le32 0 x y z) >>> 24 = 0 := by
    rw [bswap32_shiftRight_24, byteOf_le32_zero]
  unfold uePaaAddress
  rw [h]
  rw [if_neg (not_not.mpr hzero), ten_of_zero]

@[simp] theorem bytesOf_le32 (a b c d : UInt8) : bytesOf (le32 a b c d) = [a, b, c, d] := by
  simp [bytesOf]

end

section

variable {h : Handle} {cs : GtpcParseState} {pckt : TxPacket} {paa : List UInt8}

theorem paa_at {type : UInt8} {body : List UInt8}
    (hitems : ItemsAt pckt.data (createSessionItems h cs paa))
    (hpaa : gtpcPaaSet type body = some paa) :
    pckt.data.getD 35 0 = type &&& 0x07 ∧
      ∀ j < body.length, pckt.data.getD (36 + j) 0 = body.getD j 0 := by
  have hat : ∀ j < paa.length, pckt.data.getD (31 + j) 0 = paa.getD j 0 :=
    hitems [(gtpcTypeCause, gtpcCauseSet gtpcCauseRequestAccepted),
      (gtpcTypeFTeid, fteidImage 1 7 cs.db.pgwTeid cs.db.pgwCIpvN)] gtpcTypePaa paa _ rfl
  unfold gtpcPaaSet at hpaa
  split at hpaa
  · cases hpaa
  · cases hpaa
    constructor
    · rw [hat 4 (by simp)]
      rfl
    · intro j hj
      have hlen : 5 + j < (gtpcCommHeader gtpcTypePaa (body.length + 1) 0 ++ [type &&& 0x07] ++
          body).length := by
        simp
        omega
      rw [show 36 + j = 31 + (5 + j) by omega, hat (5 + j) hlen,
        getD_append_right _ _ _ _ (by simp)]
      congr 1
      simp

theorem paa_ipv4 {a b c d : UInt8} (hitems : ItemsAt pckt.data (createSessionItems h cs paa))
    (hpaa : gtpcPaaSet 1 [a, b, c, d] = some paa) :
    paaIpv4 pckt = some [a, b, c, d] ∧ paaPrefix pckt = none := by
  obtain ⟨htype, hbody⟩ := paa_at hitems hpaa
  have htype' : paaPdnType pckt = 1 := by
    unfold paaPdnType
    rw [htype]
    rfl
  have haddr : octets pckt.data 36 4 = [a, b, c, d] := octets_eq (d := [a, b, c, d]) hbody
  unfold paaIpv4 paaPrefix
  rw [htype', haddr]
  exact ⟨rfl, rfl⟩

theorem paa_ipv6 {ueipv : UInt32} (hitems : ItemsAt pckt.data (createSessionItems h cs paa))
    (hpaa : gtpcPaaSet 2 (uePaaIpv6 h ueipv) = some paa) :
    paaIpv4 pckt = none ∧
      paaPrefix pckt = some (uePrefix h (byteOf ueipv 1) (byteOf ueipv 2) (byteOf ueipv 3)) := by
  obtain ⟨htype, hbody⟩ := paa_at hitems hpaa
  have htype' : paaPdnType pckt = 2 := by
    unfold paaPdnType
    rw [htype]
    rfl
  have hlen : pckt.data.getD 36 0 = 64 := hbody 0 (Nat.zero_lt_succ _)
  have hprefix : octets pckt.data 37 8 =
      (uePrefix h (byteOf ueipv 1) (byteOf ueipv 2) (byteOf ueipv 3)).2 := by
    refine octets_eq (d := (uePrefix h _ _ _).2) fun k hk => ?_
    have hk' : k < 8 := hk
    have hin : 1 + k < (uePaaIpv6 h ueipv).length := show 1 + k < 17 by omega
    rw [show 37 + k = 36 + (1 + k) by omega, hbody (1 + k) hin]
    interval_cases k <;> rfl
  unfold paaIpv4 paaPrefix
  rw [htype', hlen, hprefix]
  exact ⟨rfl, rfl⟩

end

section

variable {pckt : TxPacket} {x y z : UInt8}

theorem eua_of_element {i : Nat} (hoff : euaOffset pckt = i)
    (hel : ∀ j < 9, pckt.data.getD (i + j) 0 =
      [gtpcV1IeEndUserAddress, 0, 6, 0xf1, 0x21, 10, x, y, z].getD j 0) :
    euaIpv4 pckt = some (ueIpv4 x y z) := by
  have haddr : octets pckt.data (i + 5) 4 = ueIpv4 x y z := by
    refine octets_eq (d := ueIpv4 x y z) fun k hk => ?_
    have hk' : k < 4 := hk
    rw [Nat.add_assoc, hel (5 + k) (by omega), Nat.add_comm 5 k]
    rfl
  unfold euaIpv4
  rw [hoff, if_pos ⟨hel 0 (by decide), hel 4 (by decide)⟩, haddr]

theorem acceptCreatePdpCtx_eua {junk : UInt8} {rx : RxPacket} {reqtypeV1 : UInt8}
    {cs : GtpcParseState} (h : acceptCreatePdpCtx junk rx reqtypeV1 cs = some pckt)
    (hue : cs.db.ueIpvN = le32 0 x y z) : euaIpv4 pckt = some (ueIpv4 x y z) := by
  obtain ⟨-, -, -, -, hdrop⟩ := responseV1_spec h
  have hget : ∀ j, pckt.data.getD (12 + j) 0 =
      ((ResponseV1.acceptCreate.elements junk cs).flatten.flatten).getD j 0 := by
    intro j
    rw [← hdrop]
    simp [getD_eq_getElem?_getD]
  have hendua : endUserAddressV1 cs.db.ueIpvN =
      [[gtpcV1IeEndUserAddress, 0, 6, 0xf1, 0x21, 10, x, y, z]] := by
    unfold endUserAddressV1
    rw [hue, ten_of_zero, bytesOf_le32]
    rfl
  unfold ResponseV1.elements at hget
  rw [hendua] at hget
  cases hnsapi : cs.flagV1 .v1Nsapi with
  | true =>
    simp only [hnsapi] at hget
    refine eua_of_element (i := 35) (if_pos (hget 16)) fun j hj => ?_
    have hel := hget (23 + j)
    interval_cases j <;> exact hel
  | false =>
    simp only [hnsapi] at hget
    have hcharging : pckt.data.getD 28 0 = gtpcV1IeChargingId := hget 16
    have hoff : euaOffset pckt = 33 := by
      unfold euaOffset
      rw [hcharging]
      rfl
    refine eua_of_element hoff fun j hj => ?_
    have hel := hget (21 + j)
    interval_cases j <;> exact hel

end

/-! ## 3. One address -/

def ContextAnswered (r : Row) (pckt : TxPacket) : Prop :=
  ∃ fuel env t rx cs junk, walkV1 fuel env.mem.stack rx = some (some cs) ∧
    hasAll cs.flagV1 createPdp.required = true ∧ CreatePdpAccepts env t cs r ∧
    createPdp.answer junk rx (createPdp.store env t cs) = some pckt

def SolicitAnswered (h : Handle) (r : Row) (pckt : TxPacket) : Prop :=
  ∃ mlen ok t rx, r ∈ t.rows ∧ r.pgwTeid = (solicitTeid rx).toNat ∧
    routerSolicit h mlen ok t rx = some pckt

/-- **One address for all protocols**: the PAA of `pckt` against the version-1 contexts and the
Router Advertisements of the rows with `0.x.y.z`. -/
structure OneAddress (h : Handle) (x y z : UInt8) (pckt : TxPacket) : Prop where
  carries : paaIpv4 pckt ≠ none ∨ paaPrefix pckt ≠ none
  ipv4 : ∀ a, paaIpv4 pckt = some a → a = ueIpv4 x y z
  eua : ∀ r pckt', r.ueAddress = le32 0 x y z → ContextAnswered r pckt' →
    euaIpv4 pckt' = some (ueIpv4 x y z)
  ipv6 : ∀ r pckt', r.ueAddress = le32 0 x y z → SolicitAnswered h r pckt' →
    ∀ q, paaPrefix pckt = some q → raPrefix pckt' = q

theorem walkV1_db {fuel : Nat} {stack : Nat → UInt8} {rx : RxPacket} {cs : GtpcParseState}
    (h : walkV1 fuel stack rx = some (some cs)) : cs.db = GtpcParseState.zero.db := by
  obtain ⟨offset, seqno, cs', hie, rfl⟩ := walkV1_elements h
  exact (ieLoop_sameSession stack rx.data rx.datalen fuel offset hie).db

section

variable {h : Handle} {r : Row} {x y z : UInt8} {pckt : TxPacket}

theorem ContextAnswered.eua (hue : r.ueAddress = le32 0 x y z) (hctx : ContextAnswered r pckt) :
    euaIpv4 pckt = some (ueIpv4 x y z) := by
  obtain ⟨fuel, env, t, rx, cs, junk, hwalk, hreq, hacc, hsent⟩ := hctx
  have hstore : createPdp.store env t cs = onCreatePdpCtx env t cs := if_pos hreq
  obtain ⟨hv, hcs, -⟩ := hacc.spec (walkV1_record hwalk)
  rw [hstore] at hsent
  unfold PdpProcedure.answer at hsent
  rw [hv] at hsent
  refine acceptCreatePdpCtx_eua hsent ?_
  rw [hcs, onTunnelRecord_db (walkV1_db hwalk)]
  exact hue

theorem solicitRecord_ue {ok : Bool} {t : TunnelTable} {rx : RxPacket} (hmem : r ∈ t.rows)
    (hteid : r.pgwTeid = (solicitTeid rx).toNat)
    (hfound : (solicitRecord ok t rx).flag .record = true) :
    (solicitRecord ok t rx).db.ueIpvN = r.ueAddress := by
  unfold solicitRecord at hfound ⊢
  cases ok with
  | false =>
    rw [if_neg (by decide)] at hfound
    cases hfound
  | true =>
    rcases select_of_unique (t := t) pgwTeid_mem_keys teid_of_raLookup
      with hnone | ⟨q, hq, hlookup, hone⟩
    · rw [hnone] at hfound
      cases hfound
    · obtain rfl : q = r := UniqueTable.eq_of_key pgwTeid_mem_keys hq hmem
        ((teid_of_raLookup q hlookup).trans hteid.symm)
      rw [hone]
      rfl

theorem routerAdvert_options (h : Handle) (rx : RxPacket) (sgwTeid ueipv : UInt32) (k : Nat) :
    (routerAdvert h rx sgwTeid ueipv).getD (64 + k) 0 = (ndOptions h ueipv).getD k 0 := by
  have happend : ∀ hdrs : List UInt8, hdrs.length = 64 →
      (hdrs ++ ndOptions h ueipv).getD (64 + k) 0 = (ndOptions h ueipv).getD k 0 := by
    intro hdrs hlen
    rw [getD_append_right _ _ _ _ (hlen ▸ Nat.le_add_right _ _), hlen, Nat.add_sub_cancel_left]
  exact happend _ rfl

theorem raPrefix_routerAdvert (h : Handle) (rx : RxPacket) (sgwTeid ueipv : UInt32)
    (saddr caddr : SockAddr) :
    raPrefix ⟨routerAdvert h rx sgwTeid ueipv, saddr, caddr⟩ =
      uePrefix h (byteOf ueipv 1) (byteOf ueipv 2) (byteOf ueipv 3) := by
  have hget := routerAdvert_options h rx sgwTeid ueipv
  have hoctets : octets (routerAdvert h rx sgwTeid ueipv) 88 8 =
      octets (ndOptions h ueipv) 24 8 := by
    refine map_congr_left fun k _ => ?_
    rw [show 88 + k = 64 + (24 + k) by omega, hget]
  unfold raPrefix
  rw [hoctets, show 74 = 64 + 10 from rfl, hget]
  rfl

theorem SolicitAnswered.prefix_eq (hue : r.ueAddress = le32 0 x y z)
    (hra : SolicitAnswered h r pckt) : raPrefix pckt = uePrefix h x y z := by
  obtain ⟨mlen, ok, t, rx, hmem, hteid, hsent⟩ := hra
  unfold routerSolicit at hsent
  split at hsent
  · dsimp only at hsent
    split at hsent
    · rename_i hfound
      have hdb : (solicitRecord ok t rx).db.ueIpvN = le32 0 x y z :=
        (solicitRecord_ue hmem hteid hfound).trans hue
      rw [uePaaAddress_octets hdb, map_some] at hsent
      obtain rfl := some.inj hsent
      rw [raPrefix_routerAdvert, byteOf_le32_one, byteOf_le32_two, byteOf_le32_three]
    · exact absurd hsent (by simp)
  · exact absurd hsent (by simp)

variable {cs : GtpcParseState}

/-- The address of the PAA, with a PDN type and without one. -/
def PaaSent (h : Handle) (x y z : UInt8) (pckt : TxPacket) (typed : Bool) : Prop :=
  if typed then
    (paaIpv4 pckt = some (ueIpv4 x y z) ∧ paaPrefix pckt = none) ∨
      (paaIpv4 pckt = none ∧ paaPrefix pckt = some (uePrefix h x y z))
  else paaIpv4 pckt = some [0, 0, 0, 0] ∧ paaPrefix pckt = none

theorem paa_spec {paa : List UInt8} (hue : cs.db.ueIpvN = le32 0 x y z)
    (hpaa : createSessionPaa h cs = some paa)
    (hitems : ItemsAt pckt.data (createSessionItems h cs paa)) :
    PaaSent h x y z pckt (cs.flag .pdn) := by
  unfold createSessionPaa at hpaa
  cases hpdn : cs.flag .pdn with
  | false =>
    rw [hpdn] at hpaa
    exact paa_ipv4 hitems hpaa
  | true =>
    rw [hpdn, if_pos rfl, uePaaAddress_octets hue] at hpaa
    dsimp only at hpaa
    rw [bytesOf_le32] at hpaa
    split at hpaa
    · exact Or.inl (paa_ipv4 hitems hpaa)
    · split at hpaa
      · have hboth := paa_ipv6 hitems hpaa
        rw [byteOf_le32_one, byteOf_le32_two, byteOf_le32_three] at hboth
        exact Or.inr hboth
      · exact Or.inl (paa_ipv4 hitems hpaa)

theorem CreateSessionAccepts.paa {env : Env} {rx : RxPacket} {t : TunnelTable}
    (hacc : CreateSessionAccepts h env t cs r)
    (hue : r.ueAddress = le32 0 x y z) (hparse : receive env rx (savedSeqno rx) = some cs)
    (hsent : createSessionAnswer h rx (createSessionStore h env t cs) = some pckt) :
    PaaSent h x y z pckt (cs.flag .pdn) := by
  obtain ⟨hv, hcs, -⟩ := hacc.spec (receive_spec hparse).record
  obtain ⟨paa, hpaa, hitems⟩ := createSessionAnswer_items hv hsent
  have hdb : (createSessionStore h env t cs).cs.db.ueIpvN = le32 0 x y z := by
    rw [hcs]
    show (onTunnelRecord cs r).db.ueIpvN = _
    rw [onTunnelRecord_db (receive_spec hparse).db]
    exact hue
  have hspec := paa_spec hdb hpaa hitems
  rw [(createSessionStore_sameRequest h env t cs).flag .pdn (by decide)] at hspec
  exact hspec

end

/-- **One address for all protocols, exactly with a PDN type**: without one the PAA carries a
variable that only the other branch sets, `0.0.0.0`. -/
theorem ueAddress_iff (h : Handle) (env : Env) (rx : RxPacket) (t : TunnelTable)
    (cs : GtpcParseState) (r : Row) (x y z : UInt8) (hue : r.ueAddress = le32 0 x y z)
    (hparse : receive env rx (savedSeqno rx) = some cs) (hacc : CreateSessionAccepts h env t cs r) :
    ∃ pckt, createSessionAnswer h rx (createSessionStore h env t cs) = some pckt ∧
      (OneAddress h x y z pckt ↔ cs.flag .pdn = true) := by
  have hsame := receive_spec hparse
  obtain ⟨pckt, hsent⟩ := (createSession_answers (t := t) rx hsame.record hsame.db).mpr
    fun r' hr' _ => by rw [← hacc.unique hr', hue, byteOf_le32_zero]
  refine ⟨pckt, hsent, ?_⟩
  have hspec := hacc.paa hue hparse hsent
  cases hpdn : cs.flag .pdn with
  | false =>
    rw [hpdn] at hspec
    refine iff_of_false (fun hone => ?_) (by decide)
    have hzero : [0, 0, 0, 0] = ueIpv4 x y z := hone.ipv4 _ hspec.1
    exact absurd (cons.inj hzero).1 (by decide)
  | true =>
    refine iff_of_true ?_ rfl
    rw [hpdn] at hspec
    rcases hspec with ⟨h4, h6⟩ | ⟨h4, h6⟩
    · refine ⟨Or.inl (by simp [h4]), fun a ha => ?_, fun _ _ => ContextAnswered.eua, ?_⟩
      · exact (some.inj (h4.symm.trans ha)).symm
      · exact fun _ _ _ _ q hq => absurd (h6.symm.trans hq) (by simp)
    · refine ⟨Or.inr (by simp [h6]), fun a ha => absurd (h4.symm.trans ha) (by simp),
        fun _ _ => ContextAnswered.eua, fun r' pckt' hr' hra q hq => ?_⟩
      rw [hra.prefix_eq hr']
      exact some.inj (h6.symm.trans hq)

def ipv6Request : RxPacket :=
  { createSessionRequest with data := ⟨createSessionRequest.data.bytes.set 63 2, fun _ => 0⟩ }

def ipv6Cs : GtpcParseState :=
  (receive calmEnv ipv6Request (savedSeqno ipv6Request)).get (by decide +kernel)

theorem ipv6_accepts :
    CreateSessionAccepts plainHandle calmEnv provisionedTable ipv6Cs provisioned := by
  decide +kernel

def solicitation : RxPacket where
  data := ⟨[0x30, 255, 0, 48, 0, 0, 0, 5, 0x60, 0, 0, 0, 0, 8, 58, 255] ++
    [0xfe, 0x80, 0, 0, 0, 0, 0, 0, 0, 0, 0, 0, 0, 0, 0, 1] ++ ipv6DstAddr ++
    [133, 0, 0, 0, 0, 0, 0, 0], fun _ => 0⟩
  datalen := 56
  saddr := ⟨2, 2152, 1⟩
  caddr := ⟨2, 2152, 2⟩

/-- 0.0.0.7 is one address, for a session with an IPv6 prefix, a version-1 context and an
advertisement. -/
theorem ipv6_one_address : (∃ pckt, createSessionAnswer plainHandle ipv6Request
        (createSessionStore plainHandle calmEnv provisionedTable ipv6Cs) = some pckt ∧
      OneAddress plainHandle 0 0 7 pckt) ∧
      (∃ pckt, ContextAnswered provisioned pckt) ∧
      ∃ pckt, SolicitAnswered plainHandle provisioned pckt := by
  refine ⟨?_, ?_, ?_⟩
  · obtain ⟨pckt, hsent, hiff⟩ := ueAddress_iff plainHandle calmEnv ipv6Request provisionedTable
      ipv6Cs provisioned 0 0 7 (by decide +kernel) (some_get _).symm ipv6_accepts
    exact ⟨pckt, hsent, hiff.mpr (by decide +kernel)⟩
  · obtain ⟨fuel, hwalk⟩ : ∃ fuel, walkV1 fuel calmEnv.mem.stack createPdpRequest =
        some (some (parsedV1 createPdpRequest)) := parsedV1_parses (by decide +kernel)
    have hsent :
        (createPdp.answer 0 createPdpRequest (createdPdp 5)).isSome = true := by
      decide +kernel
    exact ⟨_, fuel, calmEnv, teidTable 5, createPdpRequest, _, 0, hwalk, by decide +kernel,
      createPdp_accepts 5, (some_get hsent).symm⟩
  · have hsent :
        (routerSolicit plainHandle 48 true provisionedTable solicitation).isSome = true := by
      decide +kernel
    exact ⟨_, 48, true, provisionedTable, solicitation, by simp [provisionedTable],
      by decide +kernel, (some_get hsent).symm⟩

def untypedRequest : RxPacket :=
  { createSessionRequest with data := ⟨createSessionRequest.data.bytes.set 59 100, fun _ => 0⟩ }

def untypedCs : GtpcParseState :=
  (receive calmEnv untypedRequest (savedSeqno untypedRequest)).get (by decide +kernel)

theorem untyped_accepts :
    CreateSessionAccepts plainHandle calmEnv provisionedTable untypedCs provisioned := by
  decide +kernel

def untypedResponse : TxPacket :=
  (createSessionAnswer plainHandle untypedRequest
    (createSessionStore plainHandle calmEnv provisionedTable untypedCs)).get (by decide +kernel)

theorem untyped_zero_address :
    CreateSessionAccepts plainHandle calmEnv provisionedTable untypedCs provisioned ∧
      provisioned.ueAddress = le32 0 0 0 7 ∧
      createSessionAnswer plainHandle untypedRequest
        (createSessionStore plainHandle calmEnv provisionedTable untypedCs) = some untypedResponse ∧
      paaIpv4 untypedResponse = some [0, 0, 0, 0] ∧
      ¬ OneAddress plainHandle 0 0 7 untypedResponse := by
  have hzero : paaIpv4 untypedResponse = some [0, 0, 0, 0] := by decide +kernel
  refine ⟨untyped_accepts, by decide +kernel, (some_get _).symm, hzero, fun hone => ?_⟩
  exact absurd (hone.ipv4 _ hzero) (by decide)

end MixiPgw.Ctrl
