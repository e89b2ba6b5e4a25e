/-
# The version-1 responses

`_accept_create_pdp_ctx`, `_accept_update_pdp_ctx`, `_accept_delete_pdp_ctx` and `_denied` of
`event_gtpc_v1_any.c` write a packet struct by struct; the reader takes lengths from the table
`msgs_gtpc_v1`. An element is the list of the pieces it is appended in: QoS has three, the others
one. Every element has the length that the table gives it (`ElementOk`), so every response is read
to its last byte (`response_readable`).
-/
import MixiPgw.Ctrl.Builder
import MixiPgw.Ctrl.WalkV1

namespace MixiPgw.Ctrl

open Bytes Lib List

/-! ## 1. Elements and builders -/

abbrev Element := List (List UInt8)

def gtpcV1IeReorderingReq : UInt8 := 8
def gtpcV1IeRecovery : UInt8 := 14
def gtpcV1IeChargingId : UInt8 := 127
def gtpcV1IeEndUserAddress : UInt8 := 128

def gtpcV1CauseAccepted : UInt8 := 0x80
def gtpcV1CauseNoResourceAvailable : UInt8 := 0xc7

def causeV1 (cause : UInt8) : Element := [[gtpcV1IeCause, cause]]
def reorderingV1 : Element := [[gtpcV1IeReorderingReq, 0]]
def recoveryV1 : Element := [[gtpcV1IeRecovery, 1]]
def teidV1 (type : UInt8) (teid : UInt32) : Element := [type :: bytesOf (bswap32 teid)]
def chargingIdV1 : Element := [[gtpcV1IeChargingId, 0, 0, 0, 0]]

def nsapiV1 (junk nsapi : UInt8) : Element :=
  [[gtpcV1IeNsapi, (junk &&& 0xf0) ||| (nsapi &&& 0x0f)]]

/-- `gtpc_end_user_address_v1_t`: IETF, IPv4, the address in 10.0.0.0/8. -/
def endUserAddressV1 (ueIpvN : UInt32) : Element :=
  [[gtpcV1IeEndUserAddress] ++ be16Bytes 6 ++ [0xf1, 0x21] ++
    bytesOf (bswap32 (bswap32 ueIpvN ||| 0x0a000000))]

def gsnAddressV1 (adrs : UInt32) : Element :=
  [[gtpcV1IeGsnAddress] ++ be16Bytes 4 ++ bytesOf adrs]

def qosLen (cs : GtpcParseState) : Nat := cs.qos.length % 256

/-- The QoS profile goes back as it came. -/
def qosV1 (cs : GtpcParseState) : Element :=
  [[gtpcV1IeQos], be16Bytes (qosLen cs), cs.qos.take (qosLen cs)]

def pcoDnsPartV1 (cs : GtpcParseState) : List UInt8 :=
  if hasAll cs.flagV1 [.dnsIpv4, .dnsIpv6] then pcoDnsIpv4Val
  else if cs.flagV1 .dnsIpv6 then pcoDnsIpv6Val
  else if cs.flagV1 .dnsIpv4 then pcoDnsIpv4Val
  else []

def pcoMtuPartV1 (cs : GtpcParseState) : List UInt8 :=
  if cs.flagV1 .nonipLinkMtu then pcoMtuNonipVal
  else if cs.flagV1 .ipv4LinkMtu then pcoMtuIpv4Val
  else []

def pcoIpcpPartV1 (cs : GtpcParseState) : List UInt8 :=
  if hasAll cs.flagV1 [.ipcpSDns, .ipcpPDns] then pcoDnsIpcpIpv4Val else []

/-- `setup_pco_v1`, cut to the length that is appended; `none` is `ERR`. -/
def setupPcoV1 (cs : GtpcParseState) : Option (List UInt8) :=
  if hasAny cs.flagV1 (pcoAll ++ [.ipcpPDns, .ipcpSDns]) then
    let pcobuffer := pcoDnsPartV1 cs ++ pcoMtuPartV1 cs ++ pcoIpcpPartV1 cs
    let pcoHead := if pcoMtuPartV1 cs ++ pcoIpcpPartV1 cs = [] then 0 else 0x80
    if pcobuffer.length > 1 then
      if pcobuffer.length + 1 ≥ 253 then none
      else some ([gtpcV1IePco] ++ be16Bytes (pcobuffer.length + 1) ++ [pcoHead] ++ pcobuffer)
    else none
  else none

def pcoV1 (cs : GtpcParseState) : List Element :=
  if cs.flagV1 .v1Pco then
    match setupPcoV1 cs with
    | some pco => [[pco]]
    | none => []
  else []

def optionalQosV1 (cs : GtpcParseState) : List Element :=
  if cs.flagV1 .v1Qos then [qosV1 cs] else []

/-- What all four builders do: sequence number and the two bytes behind it, the elements, the TEID
of the header, conversion and `pgw_swap_address`. `none` is `pgw_panic`. -/
def responseV1 (rx : RxPacket) (reqtypeV1 : UInt8) (cs : GtpcParseState) (tid : UInt32)
    (elements : List Element) : Option TxPacket :=
  let pieces := be16Bytes (cs.gtphSeqno.toNat % 65536) :: be16Bytes 0 :: elements.flatten
  match gtpcAppendItems (gtpcV1AllocPacket reqtypeV1) (pieces.map fun piece => (0, piece)) with
  | none => none
  | some lpckt =>
    some
      { data := splice (lpckt.packet.take lpckt.offset) 4 (bytesOf tid)
        saddr := rx.caddr
        caddr := rx.saddr }

inductive ResponseV1
  | acceptCreate
  | acceptUpdate
  | acceptDelete
  | denied
deriving DecidableEq, Repr

def ResponseV1.elements (junk : UInt8) (cs : GtpcParseState) : ResponseV1 → List Element
  | .acceptCreate =>
    [causeV1 gtpcV1CauseAccepted, reorderingV1, recoveryV1,
      teidV1 gtpcV1IeTeidDataI cs.db.pgwTeid, teidV1 gtpcV1IeTeidCtrlPlane cs.db.pgwTeid] ++
    (if cs.flagV1 .v1Nsapi then [nsapiV1 junk cs.nsapi] else []) ++
    [chargingIdV1, endUserAddressV1 cs.db.ueIpvN] ++ pcoV1 cs ++
    [gsnAddressV1 cs.db.pgwCIpvN, gsnAddressV1 cs.db.pgwUIpvN,
      gsnAddressV1 cs.db.pgwCIpvN, gsnAddressV1 cs.db.pgwUIpvN] ++ optionalQosV1 cs
  | .acceptUpdate =>
    [causeV1 gtpcV1CauseAccepted, recoveryV1, teidV1 gtpcV1IeTeidDataI cs.db.pgwTeid,
      teidV1 gtpcV1IeTeidCtrlPlane cs.db.pgwTeid, chargingIdV1] ++ pcoV1 cs ++
    [gsnAddressV1 cs.db.pgwCIpvN, gsnAddressV1 cs.db.pgwUIpvN] ++ optionalQosV1 cs
  | .acceptDelete => [causeV1 gtpcV1CauseAccepted] ++ pcoV1 cs
  | .denied => [causeV1 gtpcV1CauseNoResourceAvailable]

/-- `gtpc_v1_header_(lpckt)->tid`. A created context and a denial take the TEID of the request
as it came; the other two `sgw_c_teid`, which the deletion turns round once more. -/
def ResponseV1.tid (cs : GtpcParseState) : ResponseV1 → UInt32
  | .acceptCreate => bswap32 (bswap32 (teidGrekey (cs.item .cTeid)))
  | .acceptUpdate => bswap32 cs.db.sgwCTeid
  | .acceptDelete => bswap32 (bswap32 cs.db.sgwCTeid)
  | .denied => bswap32 (bswap32 (teidGrekey (cs.item .cTeid)))

def ResponseV1.emit (kind : ResponseV1) (junk : UInt8) (rx : RxPacket) (reqtypeV1 : UInt8)
    (cs : GtpcParseState) : Option TxPacket :=
  responseV1 rx reqtypeV1 cs (kind.tid cs) (kind.elements junk cs)

def acceptCreatePdpCtx := ResponseV1.acceptCreate.emit

def acceptUpdatePdpCtx := ResponseV1.acceptUpdate.emit

def acceptDeletePdpCtx := ResponseV1.acceptDelete.emit

def deniedV1 := ResponseV1.denied.emit

/-- The builder a request ends in; `reqtype_v1` is its type plus 1. -/
def PdpProcedure.answer (p : PdpProcedure) (junk : UInt8) (rx : RxPacket) (out : Outcome) :
    Option TxPacket :=
  match out.verdict with
  | .denied => deniedV1 junk rx (p.reqType + 1) out.cs
  | .accepted =>
    match p with
    | .createPdp => acceptCreatePdpCtx junk rx (p.reqType + 1) out.cs
    | .updatePdp => acceptUpdatePdpCtx junk rx (p.reqType + 1) out.cs
    | .deletePdp => acceptDeletePdpCtx junk rx (p.reqType + 1) out.cs

/-! ## 2. The reader's table knows every element -/

/-- **An element the reader steps over exactly**: the table has its type, with its length or with a
length field that gives it, and it is not empty. -/
def ElementOk (element : List UInt8) : Prop :=
  ∃ len, msgsGtpcV1Len (element.getD 0 0) = some len ∧
    if len = 0 then
      3 < element.length ∧ be16 (element.getD 1 0) (element.getD 2 0) + 3 = element.length
    else 2 ≤ len ∧ element.length = len

theorem elementOk_variable (type : UInt8) (contents : List UInt8)
    (htype : msgsGtpcV1Len type = some 0) (hpos : 0 < contents.length)
    (hlt : contents.length < 65536) :
    ElementOk ([type] ++ be16Bytes contents.length ++ contents) := by
  refine ⟨0, htype, ?_⟩
  have hfield := be16_ofNat _ hlt
  simp only [be16Bytes, cons_append, nil_append, getD_cons_succ,
    getD_cons_zero, length_cons, if_true]
  exact ⟨by omega, by rw [hfield]⟩

theorem elementOk_fixed (type : UInt8) (contents : List UInt8) (hpos : 0 < contents.length)
    (htype : msgsGtpcV1Len type = some (contents.length + 1)) : ElementOk (type :: contents) := by
  refine ⟨contents.length + 1, htype, ?_⟩
  rw [if_neg (Nat.succ_ne_zero _)]
  exact ⟨by omega, rfl⟩

variable {cs : GtpcParseState}

theorem setupPcoV1_ok {pco : List UInt8} (h : setupPcoV1 cs = some pco) :
    ElementOk pco ∧ 0 < pco.length ∧ pco.length ≤ 255 := by
  unfold setupPcoV1 at h
  dsimp only at h
  split at h
  · split at h
    · split at h
      · exact absurd h (by simp)
      · rename_i hsmall
        obtain rfl := Option.some.inj h
        generalize pcoDnsPartV1 cs ++ pcoMtuPartV1 cs ++ pcoIpcpPartV1 cs = pcobuffer at hsmall ⊢
        generalize (if pcoMtuPartV1 cs ++ pcoIpcpPartV1 cs = [] then (0 : UInt8) else 0x80) = pcoHead
        refine ⟨?_, by simp, by simp; omega⟩
        have hok := elementOk_variable gtpcV1IePco (pcoHead :: pcobuffer) rfl (by simp)
          (by simp; omega)
        simpa using hok
    · exact absurd h (by simp)
  · exact absurd h (by simp)

theorem causeV1_ok (cause : UInt8) : ElementOk (causeV1 cause).flatten :=
  elementOk_fixed gtpcV1IeCause [cause] (by simp) rfl

theorem reorderingV1_ok : ElementOk reorderingV1.flatten :=
  elementOk_fixed gtpcV1IeReorderingReq [0] (by simp) rfl

theorem recoveryV1_ok : ElementOk recoveryV1.flatten :=
  elementOk_fixed gtpcV1IeRecovery [1] (by simp) rfl

theorem teidDataV1_ok (teid : UInt32) : ElementOk (teidV1 gtpcV1IeTeidDataI teid).flatten :=
  elementOk_fixed gtpcV1IeTeidDataI (bytesOf (bswap32 teid)) (by simp [bytesOf]) rfl

theorem teidCtrlV1_ok (teid : UInt32) : ElementOk (teidV1 gtpcV1IeTeidCtrlPlane teid).flatten :=
  elementOk_fixed gtpcV1IeTeidCtrlPlane (bytesOf (bswap32 teid)) (by simp [bytesOf]) rfl

theorem nsapiV1_ok (junk nsapi : UInt8) : ElementOk (nsapiV1 junk nsapi).flatten :=
  elementOk_fixed gtpcV1IeNsapi [_] (by simp) rfl

theorem chargingIdV1_ok : ElementOk chargingIdV1.flatten :=
  elementOk_fixed gtpcV1IeChargingId [0, 0, 0, 0] (by simp) rfl

theorem endUserAddressV1_ok (ueIpvN : UInt32) : ElementOk (endUserAddressV1 ueIpvN).flatten :=
  elementOk_variable gtpcV1IeEndUserAddress ([0xf1, 0x21] ++ bytesOf _) rfl (by simp [bytesOf])
    (by simp [bytesOf])

theorem gsnAddressV1_ok (adrs : UInt32) : ElementOk (gsnAddressV1 adrs).flatten :=
  elementOk_variable gtpcV1IeGsnAddress (bytesOf adrs) rfl (by simp [bytesOf]) (by simp [bytesOf])

theorem qosLen_lt (cs : GtpcParseState) : qosLen cs < 256 := Nat.mod_lt _ (by decide)

theorem length_take_qos (cs : GtpcParseState) : (cs.qos.take (qosLen cs)).length = qosLen cs := by
  rw [length_take]
  exact Nat.min_eq_left (Nat.mod_le _ _)

theorem qosV1_ok (hpos : 0 < qosLen cs) : ElementOk (qosV1 cs).flatten := by
  have hlt := qosLen_lt cs
  have hok := elementOk_variable gtpcV1IeQos (cs.qos.take (qosLen cs)) rfl
    (by rwa [length_take_qos]) (by rw [length_take_qos]; omega)
  rw [length_take_qos] at hok
  simpa [qosV1] using hok

theorem ResponseV1.forall_elements {P : Element → Prop} (kind : ResponseV1) (junk : UInt8)
    (cs : GtpcParseState) (hcause : ∀ cause, P (causeV1 cause)) (hreordering : P reorderingV1)
    (hrecovery : P recoveryV1) (hteidData : ∀ teid, P (teidV1 gtpcV1IeTeidDataI teid))
    (hteidCtrl : ∀ teid, P (teidV1 gtpcV1IeTeidCtrlPlane teid)) (hnsapi : P (nsapiV1 junk cs.nsapi))
    (hcharging : P chargingIdV1) (hend : ∀ ueIpvN, P (endUserAddressV1 ueIpvN))
    (hgsn : ∀ adrs, P (gsnAddressV1 adrs)) (hpco : ∀ pco, setupPcoV1 cs = some pco → P [pco])
    (hqos : cs.flagV1 .v1Qos = true → P (qosV1 cs)) : ∀ e ∈ kind.elements junk cs, P e := by
  have hnil : ∀ e ∈ ([] : List Element), P e := by simp
  have hpcos : ∀ e ∈ pcoV1 cs, P e := by
    unfold pcoV1
    split
    · split
      · rename_i hsetup
        simpa using hpco _ hsetup
      · exact hnil
    · exact hnil
  have hnsapis : ∀ e ∈ if cs.flagV1 .v1Nsapi then [nsapiV1 junk cs.nsapi] else [], P e := by
    split
    · simpa using hnsapi
    · exact hnil
  have hqoses : ∀ e ∈ optionalQosV1 cs, P e := by
    unfold optionalQosV1
    split
    · rename_i hflag
      simpa using hqos hflag
    · exact hnil
  cases kind with
  | acceptCreate =>
    simp only [ResponseV1.elements, forall_mem_append, forall_mem_cons]
    exact ⟨⟨⟨⟨⟨⟨hcause _, hreordering, hrecovery, hteidData _, hteidCtrl _, hnil⟩, hnsapis⟩,
      hcharging, hend _, hnil⟩, hpcos⟩, hgsn _, hgsn _, hgsn _, hgsn _, hnil⟩, hqoses⟩
  | acceptUpdate =>
    simp only [ResponseV1.elements, forall_mem_append, forall_mem_cons]
    exact ⟨⟨⟨⟨hcause _, hrecovery, hteidData _, hteidCtrl _, hcharging, hnil⟩, hpcos⟩, hgsn _,
      hgsn _, hnil⟩, hqoses⟩
  | acceptDelete =>
    simp only [ResponseV1.elements, forall_mem_append, forall_mem_cons]
    exact ⟨⟨hcause _, hnil⟩, hpcos⟩
  | denied =>
    simp only [ResponseV1.elements, forall_mem_cons]
    exact ⟨hcause _, hnil⟩

variable (kind : ResponseV1) (junk : UInt8)

theorem ResponseV1.elements_ok (cs : GtpcParseState) :
    ∀ e ∈ kind.elements junk cs, (∀ piece ∈ e, 0 < piece.length) → ElementOk e.flatten := by
  refine kind.forall_elements junk cs (fun c _ => causeV1_ok c) (fun _ => reorderingV1_ok)
    (fun _ => recoveryV1_ok) (fun t _ => teidDataV1_ok t) (fun t _ => teidCtrlV1_ok t)
    (fun _ => nsapiV1_ok junk _) (fun _ => chargingIdV1_ok) (fun u _ => endUserAddressV1_ok u)
    (fun a _ => gsnAddressV1_ok a) (fun pco hsetup _ => ?_) (fun _ hpos => ?_)
  · simpa using (setupPcoV1_ok hsetup).1
  · have hprofile := hpos (cs.qos.take (qosLen cs)) (by simp [qosV1])
    rw [length_take_qos] at hprofile
    exact qosV1_ok hprofile

theorem ResponseV1.pieces_pos (cs : GtpcParseState)
    (hqos : cs.flagV1 .v1Qos = true → 0 < qosLen cs) :
    ∀ e ∈ kind.elements junk cs, ∀ piece ∈ e, 0 < piece.length := by
  refine kind.forall_elements junk cs (fun _ => by simp [causeV1]) (by simp [reorderingV1])
    (by simp [recoveryV1]) (fun _ => by simp [teidV1]) (fun _ => by simp [teidV1])
    (by simp [nsapiV1]) (by simp [chargingIdV1]) (fun _ => by simp [endUserAddressV1])
    (fun _ => by simp [gsnAddressV1]) (fun pco hsetup => ?_) (fun hflag => ?_)
  · simpa using (setupPcoV1_ok hsetup).2.1
  · have hprofile := hqos hflag
    rw [← length_take_qos] at hprofile
    simpa [qosV1, -length_take] using hprofile

/-! ## 3. The bytes of a response -/

theorem length_pcoV1 (cs : GtpcParseState) : (pcoV1 cs).flatten.flatten.length ≤ 255 := by
  unfold pcoV1
  split
  · split
    · rename_i hpco
      simpa using (setupPcoV1_ok hpco).2.2
    · simp
  · simp

theorem length_optionalQosV1 (cs : GtpcParseState) :
    (optionalQosV1 cs).flatten.flatten.length ≤ 258 := by
  have hlt := qosLen_lt cs
  unfold optionalQosV1
  split
  · simp only [qosV1, flatten_cons, flatten_nil, append_nil, length_append,
      length_cons, length_nil, be16Bytes_length, length_take_qos]
    omega
  · simp

theorem ResponseV1.length_elements (cs : GtpcParseState) :
    (kind.elements junk cs).flatten.flatten.length ≤ 600 := by
  have hpco := length_pcoV1 cs
  have hqos := length_optionalQosV1 cs
  have hnsapi : (if cs.flagV1 .v1Nsapi then [nsapiV1 junk cs.nsapi]
      else []).flatten.flatten.length ≤ 2 := by
    split <;> simp [nsapiV1]
  cases kind with
  | acceptCreate =>
    simp only [ResponseV1.elements, flatten_append, length_append]
    have h1 : [causeV1 gtpcV1CauseAccepted, reorderingV1, recoveryV1,
      teidV1 gtpcV1IeTeidDataI cs.db.pgwTeid,
      teidV1 gtpcV1IeTeidCtrlPlane cs.db.pgwTeid].flatten.flatten.length = 16 := rfl
    have h2 : [chargingIdV1, endUserAddressV1 cs.db.ueIpvN].flatten.flatten.length = 14 := rfl
    have h3 : [gsnAddressV1 cs.db.pgwCIpvN, gsnAddressV1 cs.db.pgwUIpvN,
      gsnAddressV1 cs.db.pgwCIpvN, gsnAddressV1 cs.db.pgwUIpvN].flatten.flatten.length = 28 := rfl
    omega
  | acceptUpdate =>
    simp only [ResponseV1.elements, flatten_append, length_append]
    have h1 : [causeV1 gtpcV1CauseAccepted, recoveryV1, teidV1 gtpcV1IeTeidDataI cs.db.pgwTeid,
      teidV1 gtpcV1IeTeidCtrlPlane cs.db.pgwTeid, chargingIdV1].flatten.flatten.length = 19 := rfl
    have h2 : [gsnAddressV1 cs.db.pgwCIpvN,
      gsnAddressV1 cs.db.pgwUIpvN].flatten.flatten.length = 14 := rfl
    omega
  | acceptDelete =>
    simp only [ResponseV1.elements, flatten_append, length_append]
    have h1 : [causeV1 gtpcV1CauseAccepted].flatten.flatten.length = 2 := rfl
    omega
  | denied =>
    have h1 : (ResponseV1.denied.elements junk cs).flatten.flatten.length = 2 := rfl
    omega

variable {rx : RxPacket} {reqtypeV1 : UInt8} {tid : UInt32} {elements : List Element}
  {tx : TxPacket}

/-- What a builder sends: the flags of the fresh packet, a length field that counts everything
behind the first eight bytes, and behind the sequence number the elements. -/
theorem responseV1_spec (h : responseV1 rx reqtypeV1 cs tid elements = some tx) :
    tx.data.length = 12 + elements.flatten.flatten.length ∧ tx.data.length < etherMaxLen ∧
      tx.data.getD 0 0 = 0x32 ∧ be16 (tx.data.getD 2 0) (tx.data.getD 3 0) + 8 = tx.data.length ∧
      tx.data.drop 12 = elements.flatten.flatten := by
  unfold responseV1 at h
  dsimp only at h
  split at h
  · exact absurd h (by simp)
  · rename_i lpckt happ
    obtain rfl := Option.some.inj h
    have hfresh := gtpcV1AllocPacket_room reqtypeV1
    obtain ⟨hroom, -, hlag, hkeep⟩ := gtpcAppendItems_room hfresh happ
    have hbytes := gtpcAppendItems_flatten hfresh happ
    have hoff := gtpcAppendItems_offset hfresh happ
    have hlt := hroom.offset_lt
    rw [gtpcV1AllocPacket_headerLength, gtpcV1AllocPacket_offset] at hlag
    simp only [map_cons, map_map, Function.comp_def, map_id', flatten_cons,
      sum_cons, be16Bytes_length, gtpcV1AllocPacket_offset, length_append] at hbytes hoff
    rw [← length_flatten] at hoff
    have hfour : (bytesOf tid).length = 4 := rfl
    have hfit : 4 + (bytesOf tid).length ≤ lpckt.offset := by omega
    have hlen := hroom.length_splice_take hfit
    have hget : ∀ j < lpckt.offset, ¬ (4 ≤ j ∧ j < 8) →
        (splice (lpckt.packet.take lpckt.offset) 4 (bytesOf tid)).getD j 0 =
          lpckt.packet.getD j 0 :=
      fun _ hj hout => hroom.getD_splice_take hfit hj (by omega)
    dsimp only
    rw [hlen]
    refine ⟨by omega, hlt, ?_, ?_, ?_⟩
    · rw [hget 0 (by omega) (by omega), hkeep 0 (by simp) (by omega)]
      rfl
    · rw [hget 2 (by omega) (by omega), hget 3 (by omega) (by omega)]
      change lpckt.headerLength + 8 = lpckt.offset
      omega
    · refine ext_getD (by rw [length_drop, hlen]; omega) fun j hj => ?_
      rw [length_drop, hlen] at hj
      have hj' := hbytes (2 + (2 + j)) (by omega)
      have hsum : 12 + j = 8 + (2 + (2 + j)) := by omega
      rw [getD_eq_getElem?_getD, getElem?_drop, ← getD_eq_getElem?_getD,
        hget _ (by omega) (by omega), hsum, hj', getD_append_right _ _ _ _ (by simp),
        getD_append_right _ _ _ _ (by simp)]
      simp

theorem responseV1_isSome (rx : RxPacket) (reqtypeV1 : UInt8) (cs : GtpcParseState) (tid : UInt32)
    (hpos : ∀ piece ∈ elements.flatten, 0 < piece.length)
    (hlen : elements.flatten.flatten.length ≤ 600) :
    ∃ tx, responseV1 rx reqtypeV1 cs tid elements = some tx := by
  let pieces := be16Bytes (cs.gtphSeqno.toNat % 65536) :: be16Bytes 0 :: elements.flatten
  have hnonempty : ∀ it ∈ pieces.map fun piece => ((0 : UInt8), piece), 0 < it.2.length := by
    intro it hit
    obtain ⟨piece, hpiece, rfl⟩ := mem_map.mp hit
    rcases mem_cons.mp hpiece with rfl | hpiece
    · simp
    · rcases mem_cons.mp hpiece with rfl | hpiece
      · simp
      · exact hpos piece hpiece
  have hfits : (gtpcV1AllocPacket reqtypeV1).offset +
      ((pieces.map fun piece => ((0 : UInt8), piece)).map fun it => it.2.length).sum <
        etherMaxLen := by
    simp only [pieces, map_cons, map_map, Function.comp_def, sum_cons,
      be16Bytes_length, gtpcV1AllocPacket_offset, ← length_flatten]
    unfold etherMaxLen
    omega
  obtain ⟨lpckt, happ⟩ := gtpcAppendItems_isSome (gtpcV1AllocPacket_room reqtypeV1) hnonempty hfits
  unfold responseV1
  dsimp only
  rw [happ]
  exact ⟨_, rfl⟩

theorem responseV1_pos (h : responseV1 rx reqtypeV1 cs tid elements = some tx) :
    ∀ piece ∈ elements.flatten, 0 < piece.length := by
  unfold responseV1 at h
  dsimp only at h
  split at h
  · exact absurd h (by simp)
  · rename_i happ
    intro piece hpiece
    exact gtpcAppendItems_pos happ (0, piece)
      (mem_map_of_mem (mem_cons_of_mem _ (mem_cons_of_mem _ hpiece)))

/-! ## 4. The walk over a row of elements -/

def elementEnds : Nat → List (List UInt8) → List Nat
  | _, [] => []
  | start, element :: rest => (start + element.length) :: elementEnds (start + element.length) rest

theorem elementEnds_last (start : Nat) (elements : List (List UInt8)) :
    (elementEnds start elements).getLastD start = start + elements.flatten.length := by
  induction elements generalizing start with
  | nil => simp [elementEnds]
  | cons element rest ih =>
    rw [elementEnds, getLastD_cons, ih, flatten_cons, length_append, Nat.add_assoc]

theorem ElementOk.extlen {element rest : List UInt8} (h : ElementOk element) {payload : Source}
    {offset : Nat} (hdrop : payload.bytes.drop offset = element ++ rest)
    (hlt : element.length < 65536) :
    0 < element.length ∧ elementExtlen payload offset = some element.length := by
  obtain ⟨len, htype, hlen⟩ := h
  have hbyte : ∀ j < element.length, payload.byte (offset + j) = element.getD j 0 :=
    fun j hj => Source.byte_of_drop hdrop hj
  by_cases hvar : len = 0
  · rw [if_pos hvar] at hlen
    obtain ⟨hpos, hfield⟩ := hlen
    refine ⟨by omega, ?_⟩
    have hlength : elementLength payload offset + 3 = element.length := by
      rw [elementLength, hbyte 1 (by omega), hbyte 2 (by omega)]
      exact hfield
    have htype' : msgsGtpcV1Len (payload.byte offset) = some 0 := by
      rw [← Nat.add_zero offset, hbyte 0 (by omega), htype, hvar]
    simp only [elementExtlen, htype', if_true]
    rw [if_neg (by omega), hlength, Nat.mod_eq_of_lt hlt]
  · rw [if_neg hvar] at hlen
    obtain ⟨hpos, hfixed⟩ := hlen
    refine ⟨by omega, ?_⟩
    have htype' : msgsGtpcV1Len (payload.byte offset) = some len := by
      rw [← Nat.add_zero offset, hbyte 0 (by omega), htype]
    simp only [elementExtlen, htype', if_neg hvar]
    rw [if_neg (by omega), hfixed]

theorem ieRun_of_elements (stack : Nat → UInt8) (payload : Source) {datalen : Nat}
    (hlt : datalen < 65536) {elements : List (List UInt8)} (hok : ∀ e ∈ elements, ElementOk e)
    {start : Nat} (cs : GtpcParseState) (hdrop : payload.bytes.drop start = elements.flatten)
    (hend : start + elements.flatten.length = datalen) :
    ∃ states cs', Loop.Run (ieStep stack payload datalen) (start, cs) states (some cs') ∧
      states.map Prod.fst = elementEnds start elements := by
  induction elements generalizing start cs with
  | nil =>
    have hstop : ieStep stack payload datalen (start, cs) = .inl (some cs) := if_neg (by
      simp at hend
      omega)
    exact ⟨[], cs, .exit hstop, rfl⟩
  | cons element rest ih =>
    rw [flatten_cons] at hdrop
    rw [flatten_cons, length_append] at hend
    obtain ⟨hpos, hext⟩ := (hok element mem_cons_self).extlen hdrop (by omega)
    obtain ⟨cs1, hnext⟩ := elementNext_of_extlen stack cs hext
    rw [Nat.mod_eq_of_lt (by omega)] at hnext
    have hdrop' : payload.bytes.drop (start + element.length) = rest.flatten := by
      rw [← drop_drop, hdrop, drop_left]
    obtain ⟨states, cs', hrun, hends⟩ :=
      ih (fun e he => hok e (mem_cons_of_mem _ he)) cs1 hdrop' (by omega)
    refine ⟨_ :: states, cs', .next (ieStep_eq_inr.mpr ⟨by dsimp only; omega, hnext⟩) hrun, ?_⟩
    rw [map_cons, hends, elementEnds]

/-! ## 5. Every response is readable -/

/-- **The program reads its own version-1 responses.** A response is sent unless a QoS profile
has length 0, its length field is right, and the element loop stops at the end of each element in
turn and returns no error. -/
theorem response_readable (kind : ResponseV1) (junk : UInt8) (rx : RxPacket) (reqtypeV1 : UInt8)
    (cs : GtpcParseState) :
    ((cs.flagV1 .v1Qos = true → 0 < qosLen cs) → ∃ tx, kind.emit junk rx reqtypeV1 cs = some tx) ∧
      ∀ tx, kind.emit junk rx reqtypeV1 cs = some tx →
        let elements := (kind.elements junk cs).map flatten
        be16 (tx.data.getD 2 0) (tx.data.getD 3 0) + 8 = tx.data.length ∧
          tx.data.drop 12 = elements.flatten ∧
          (elementEnds 12 elements).getLastD 12 = tx.data.length ∧
          ∀ stack past state,
            hasExtension ⟨tx.data, past⟩ = false ∧ firstOffset ⟨tx.data, past⟩ = 12 ∧
              ∃ states state', Loop.Run (ieStep stack ⟨tx.data, past⟩ tx.data.length) (12, state)
                  states (some state') ∧
                states.map Prod.fst = elementEnds 12 elements ∧
                ∃ fuel, loopsV1 fuel stack ⟨tx.data, past⟩ tx.data.length state =
                  some (some state') := by
  refine ⟨fun hqos => ?_, fun tx htx => ?_⟩
  · refine responseV1_isSome rx reqtypeV1 cs _ (fun piece hpiece => ?_)
      (kind.length_elements junk cs)
    obtain ⟨element, helement, hmem⟩ := mem_flatten.mp hpiece
    exact kind.pieces_pos junk cs hqos element helement piece hmem
  · intro elements
    have hok : ∀ e ∈ elements, ElementOk e := by
      intro e he
      obtain ⟨element, helement, rfl⟩ := mem_map.mp he
      exact kind.elements_ok junk cs element helement fun piece hpiece =>
        responseV1_pos htx piece (mem_flatten.mpr ⟨element, helement, hpiece⟩)
    obtain ⟨hlen, hlt, hflags, hheader, hdrop⟩ := responseV1_spec htx
    rw [flatten_flatten] at hlen hdrop
    refine ⟨hheader, hdrop, by rw [elementEnds_last, hlen], fun stack past state => ?_⟩
    have hbyte : (⟨tx.data, past⟩ : Source).byte 0 = 0x32 := by
      have h0 : 0 < tx.data.length := by omega
      rw [← hflags]
      simp [Source.byte, getD_eq_getElem?_getD, h0]
    have hnoext : hasExtension ⟨tx.data, past⟩ = false := by
      rw [hasExtension, hbyte]
      rfl
    have hfirst : firstOffset ⟨tx.data, past⟩ = 12 := by
      rw [firstOffset, hbyte]
      rfl
    unfold etherMaxLen at hlt
    obtain ⟨states, state', hrun, hends⟩ :=
      ieRun_of_elements stack ⟨tx.data, past⟩ (by omega) hok state hdrop hlen.symm
    refine ⟨hnoext, hfirst, states, state', hrun, hends, states.length + 1, ?_⟩
    simp only [loopsV1, hnoext, hfirst, Bool.false_eq_true, if_false]
    exact (ieLoop_eq_iterate _ _ _ _ _ _).trans (hrun.iterate _ (Nat.lt_succ_self _))

def fullState : GtpcParseState :=
  { GtpcParseState.zero with
    flagV1 := fun _ => true
    qos := [1, 2, 3]
    nsapi := 5 }

theorem fullResponse_readable :
    ∃ tx, acceptCreatePdpCtx 0 nsapiRequest 17 fullState = some tx ∧
      ∀ stack past state, ∃ states state',
        Loop.Run (ieStep stack ⟨tx.data, past⟩ tx.data.length) (12, state) states (some state') ∧
          states.length = 14 := by
  obtain ⟨hsent, hread⟩ := response_readable .acceptCreate 0 nsapiRequest 17 fullState
  obtain ⟨tx, htx⟩ := hsent fun _ => by decide
  refine ⟨tx, htx, fun stack past state => ?_⟩
  obtain ⟨-, -, states, state', hrun, hends, -⟩ := (hread tx htx).2.2.2 stack past state
  refine ⟨states, state', hrun, ?_⟩
  rw [← length_map Prod.fst, hends]
  decide +kernel

end MixiPgw.Ctrl
