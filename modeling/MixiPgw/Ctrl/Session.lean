/-
# The GTPv2-C session handlers

`event_gtpc_create_session.c`, `event_gtpc_modify_bearer.c`, `event_gtpc_delete_session.c` and
`event_gtpc_delete_bearer.c`. The phases of a handler are kept apart, as no result about the table
looks at the bytes of a response:

* PARSE: the datagram into a `GtpcParseState` (`receive`);
* STORE: lookups and updates, which end in a `Verdict` (`createSessionStore`, …);
* ANSWER: `_accept` or `_denied` build a packet or break off, and the common tail addresses it
  (`reply`).
-/
import MixiPgw.Ctrl.Tunnel

namespace MixiPgw.Ctrl

open Bytes CString Lib

/-! ## 1. Requests and their environment -/

/-- What a handler reads of its `handle`: the address of `server_gtpc`, the two numbers of the IPv6
address plan, and `PGW_RECOVERY_COUNT`. -/
structure Handle where
  serverGtpc : Option Text
  extSetNum : UInt8
  pgwUnitNum : UInt8
  recoveryCount : UInt8

structure RxPacket where
  data : Source
  datalen : Nat
  saddr : SockAddr
  caddr : SockAddr

structure TxPacket where
  data : List UInt8
  saddr : SockAddr
  caddr : SockAddr
deriving DecidableEq

/-- What a request meets: the memory behind its items, whether `errno` is `ERANGE` before each digit
conversion, and which statements the server answers. -/
structure Env where
  mem : ItemMemory
  errnoRange : Nat → Bool
  db : DbOk

/-- The 24-bit sequence number of a message with a TEID, as loaded. -/
def seqnoOf (data : Source) : UInt32 := le32 (data.byte 8) (data.byte 9) (data.byte 10) 0

def teidOf (data : Source) : UInt32 :=
  le32 (data.byte 4) (data.byte 5) (data.byte 6) (data.byte 7)

/-- The parse phase, started from the saved header values; `none` when the payload is refused. -/
def receive (env : Env) (rx : RxPacket) (saved : GtpcParseState) : Option GtpcParseState :=
  match (gtpcAllocPacketFromPayload rx.data rx.datalen).val with
  | none => none
  | some pkt => some (gtpcIterateItem env.mem pkt saved)

/-- Create Session saves the sequence number only. -/
def savedSeqno (rx : RxPacket) : GtpcParseState :=
  { GtpcParseState.zero with gtphSeqno := seqnoOf rx.data }

/-- The other handlers save the TEID as well, in host order. -/
def savedSeqnoTeid (rx : RxPacket) : GtpcParseState :=
  { GtpcParseState.zero with
    gtphSeqno := seqnoOf rx.data
    gtphTeid := bswap32 (teidOf rx.data) }

inductive Verdict
  | accepted
  | denied
deriving DecidableEq, Repr

structure Outcome where
  table : TunnelTable
  cs : GtpcParseState
  verdict : Verdict

/-! ## 2. The common tail of the builders -/

/-- `gtpc_convert_to_packet`, the two header writes and `pgw_swap_address`. -/
def reply (rx : RxPacket) (teid seqno : UInt32) (lpckt : GtpPacket) : TxPacket :=
  let data := lpckt.packet.take lpckt.offset
  let data := splice data 4 (bytesOf teid)
  let data := splice data 8 [byteOf seqno 0, byteOf seqno 1, byteOf seqno 2]
  { data := data, saddr := rx.caddr, caddr := rx.saddr }

def optionalItem (type : UInt8) : Option (List UInt8) → List (UInt8 × List UInt8)
  | some data => [(type, data)]
  | none => []

def digitsOf (image : List UInt8) (len : Nat) : List UInt8 := slice image 4 len

/-- `pgw_teid` with the EBI of the bearer context in its first four bits. -/
def replaceEbi (pgwTeid : UInt32) (low : UInt8) : UInt32 :=
  (pgwTeid &&& 0x0fffffff) ||| ((0xf0000000 : UInt32) &&& ((low &&& 0xf).toUInt32 <<< (28 : UInt32)))

/-- The EBI goes into `parse_state.pgw_teid`. -/
def GtpcParseState.withEbi (cs : GtpcParseState) : GtpcParseState :=
  { cs with db := { cs.db with pgwTeid := replaceEbi cs.db.pgwTeid (ebiLow (cs.item .ebiB)) } }

def fteidIp (fteid : List UInt8) : Text := inetNtoa (teidBlk fteid)

def recoveryCounter (cs : GtpcParseState) : Option UInt8 :=
  if cs.flag .recovery then some ((cs.item .recovery).getD 4 0) else none

def ratType (cs : GtpcParseState) : Option UInt8 :=
  if cs.flag .rat then some ((cs.item .rat).getD 4 0) else none

/-- `c_teid.teid_grekey && u_teid.teid_grekey`. -/
def bothTeids (cs : GtpcParseState) : Bool :=
  teidGrekey (cs.item .cTeid) != 0 && teidGrekey (cs.item .uTeid) != 0

/-! ## 3. Create Session -/

/-- The gateway addresses, when the node has a server of its own. -/
def createSessionPgwip (h : Handle) (env : Env) (t : TunnelTable) (imsiNum : Nat) :
    Option TunnelTable :=
  match h.serverGtpc with
  | some ip => dbQuery (env.db 0) t (whereImsi imsiNum) (createSessionPgwipUpd ip)
  | none => some t

def createSessionMsisdn (env : Env) (t : TunnelTable) (imsiNum msisdnNum : Nat) :
    Option TunnelTable :=
  if imsiNum ≠ 0 ∧ msisdnNum ≠ 0 then
    dbQuery (env.db 1) t (whereImsi imsiNum) (createSessionImsiMsisdnUpd msisdnNum)
  else some t

def createSessionPrepare (h : Handle) (env : Env) (t : TunnelTable) (imsiNum msisdnNum : Nat) :
    TunnelTable × Bool :=
  match createSessionPgwip h env t imsiNum with
  | none => (t, false)
  | some t1 =>
    match createSessionMsisdn env t1 imsiNum msisdnNum with
    | none => (t1, false)
    | some t2 => (t2, true)

/-- The lookup by IMSI or else by MSISDN, with the IMSI used from there on. -/
def createSessionFind (env : Env) (t : TunnelTable) (imsiNum msisdnNum : Nat)
    (cs : GtpcParseState) : GtpcParseState × Nat :=
  let cs1 := dbExecute (env.db 2) t (createSessionImsiLookup imsiNum) cs
  if cs1.flag .record then (cs1, imsiNum)
  else
    let cs2 := dbExecute (env.db 3) t (createSessionMsisdnLookup msisdnNum) cs1
    (cs2, cs2.db.imsiNum)

/-- `CREATE_SESSION_UPD_SQL` or its `_R_` variant. -/
def createSessionSet (cs : GtpcParseState) : Row → Row :=
  createSessionUpd (teidGrekey (cs.item .cTeid)) (fteidIp (cs.item .cTeid))
    (teidGrekey (cs.item .uTeid)) (fteidIp (cs.item .uTeid)) ((cs.item .bqos).getD 5 0)
    (ebiLow (cs.item .ebiB)) cs.db.pgwTeid (recoveryCounter cs)

/-- `gtpc_digits_get` of the request's MSISDN, then of its IMSI. -/
def msisdnNumOf (env : Env) (cs : GtpcParseState) : Nat :=
  gtpcDigitsGet (env.errnoRange 0) (digitsOf (cs.item .msisdn) 6)

def imsiNumOf (env : Env) (cs : GtpcParseState) : Nat :=
  gtpcDigitsGet (env.errnoRange 1) (digitsOf (cs.item .imsi) 8)

def createSessionStore (h : Handle) (env : Env) (t : TunnelTable) (cs : GtpcParseState) : Outcome :=
  if hasAll cs.flag includedAll then
    match createSessionPrepare h env t (imsiNumOf env cs) (msisdnNumOf env cs) with
    | (t2, false) => ⟨t2, cs, .denied⟩
    | (t2, true) =>
      let found := createSessionFind env t2 (imsiNumOf env cs) (msisdnNumOf env cs) cs
      if found.1.flag .record then
        let cs' := found.1.withEbi
        match dbQuery (env.db 4) t2 (whereImsi found.2) (createSessionSet cs') with
        | none => ⟨t2, cs', .denied⟩
        | some t3 => ⟨t3, cs', .accepted⟩
      else ⟨t2, found.1, .denied⟩
  else ⟨t, cs, .denied⟩

/-- The UE address `10.x.y.z` in network order; `none` is the `break` for a first octet in use. -/
def uePaaAddress (cs : GtpcParseState) : Option UInt32 :=
  let ueipv := bswap32 cs.db.ueIpvN
  if ueipv >>> 24 ≠ 0 then none else some (bswap32 (ueipv ||| 0x0a000000))

/-- `ipv6` of `_accept`: the `/64` of the address plan with the UE's three octets. -/
def uePaaIpv6 (h : Handle) (ueipv : UInt32) : List UInt8 :=
  [0x40, 0x24, 0x01, 0xf1, 0x00, ((0x0f &&& h.extSetNum) <<< 4) ||| (0x0f &&& h.pgwUnitNum),
    byteOf ueipv 1, byteOf ueipv 2, byteOf ueipv 3, 0x00, 0x00, 0x00, 0x00, 0x00, 0x00, 0x00, 0x01]

/-- The PAA item (built without `__IPV64__`). -/
def createSessionPaa (h : Handle) (cs : GtpcParseState) : Option (List UInt8) :=
  if cs.flag .pdn then
    match uePaaAddress cs with
    | none => none
    | some ueipv =>
      if pdnType (cs.item .pdn) = 1 then gtpcPaaSet 1 (bytesOf ueipv)
      else if pdnType (cs.item .pdn) = 2 then gtpcPaaSet 2 (uePaaIpv6 h ueipv)
      else gtpcPaaSet 1 (bytesOf ueipv)
  else gtpcPaaSet 1 (bytesOf 0)

def bearerCtxOf (children : List (List UInt8)) : Option (List UInt8) :=
  (children.foldlM gtpcBearerCtxAddChild []).map gtpcBearerCtxBytes

/-- The items of a builder, or a break before the first append. -/
abbrev BuiltItems := Option (List (UInt8 × List UInt8))

def createSessionAcceptItems (h : Handle) (cs : GtpcParseState) : BuiltItems := do
  let cause := gtpcCauseSet gtpcCauseRequestAccepted
  let pgwCFteid ← gtpcFTeidSet 1 7 cs.db.pgwTeid (some cs.db.pgwCIpvN) none
  let paa ← createSessionPaa h cs
  let ambr := gtpcAmbrSet (bswap32 (load32 (cs.item .ambrR) 4)) (bswap32 (load32 (cs.item .ambrR) 8))
  let pgwUFteid ← gtpcFTeidSet 2 5 cs.db.pgwTeid (some cs.db.pgwUIpvN) none
  let ebi := gtpcEbiSet 0 (ebiLow (cs.item .ebiB))
  let chrg := gtpcChargingIdSet cs.db.pgwTeid
  let bctx ← bearerCtxOf [cause, ebi, pgwUFteid, chrg]
  some ([(gtpcTypeCause, cause), (gtpcTypeFTeid, pgwCFteid), (gtpcTypePaa, paa),
    (gtpcTypeApnRestriction, gtpcApnRestrictionSet 0), (gtpcTypeAmbr, ambr)] ++
    optionalItem gtpcTypePco (setupPco cs) ++
    [(gtpcTypeBearerCtx, bctx), (gtpcTypeRecovery, gtpcRecoverySet h.recoveryCount),
      (gtpcTypePrivateExtension, gtpcPrivateExtensionSet cs)])

def createSessionAccept (h : Handle) (cs : GtpcParseState) : Option GtpPacket :=
  (createSessionAcceptItems h cs).bind (gtpcAppendItems (gtpcAllocPacket gtpcCreateSessionRes))

def createSessionDeniedItems : BuiltItems := do
  let cause := gtpcCauseSet gtpcCauseRequestDeniedApnAccess
  let bctx ← bearerCtxOf [cause, gtpcEbiSet 0 0]
  some [(gtpcTypeCause, cause), (gtpcTypeBearerCtx, bctx)]

def createSessionDenied : Option GtpPacket :=
  createSessionDeniedItems.bind (gtpcAppendItems (gtpcAllocPacket gtpcCreateSessionRes))

/-- The answer phase, addressed with the control TEID of the request. -/
def createSessionAnswer (h : Handle) (rx : RxPacket) (o : Outcome) : Option TxPacket :=
  (match o.verdict with
    | .accepted => createSessionAccept h o.cs
    | .denied => createSessionDenied).map
    (reply rx (teidGrekey (o.cs.item .cTeid)) o.cs.gtphSeqno)

/-! ## 4. Modify Bearer -/

def modifyBearerSet (cs : GtpcParseState) : Row → Row :=
  modifyBearerUpd (teidGrekey (cs.item .cTeid)) (fteidIp (cs.item .cTeid))
    (teidGrekey (cs.item .uTeid)) (fteidIp (cs.item .uTeid)) cs.db.pgwTeid (ratType cs)
    (recoveryCounter cs)

/-- The first update of `_on_modify_bearer`: full with both TEIDs, RAT only, or nothing. -/
def modifyBearerFirst (env : Env) (t : TunnelTable) (cs : GtpcParseState) :
    Option (TunnelTable × GtpcParseState) :=
  if bothTeids cs then
    match dbQuery (env.db 1) t (whereImsi cs.db.imsiNum) (modifyBearerSet cs) with
    | none => none
    | some t1 => some (t1, { cs with db := { cs.db with sgwCTeid := teidGrekey (cs.item .cTeid) } })
  else
    match ratType cs with
    | some rat =>
      match dbQuery (env.db 1) t (whereImsi cs.db.imsiNum)
          (modifyBearerRatonlyUpd rat (recoveryCounter cs)) with
      | none => none
      | some t1 => some (t1, cs)
    | none => some (t, cs)

def modifyBearerStore (env : Env) (t : TunnelTable) (cs : GtpcParseState) : Outcome :=
  let found := dbExecute (env.db 0) t (modifyBearerLookup cs.gtphTeid.toNat) cs
  if found.flag .record then
    match modifyBearerFirst env t found.withEbi with
    | none => ⟨t, found.withEbi, .denied⟩
    | some (t1, cs1) =>
      if cs1.flag .ebiB then
        match dbQuery (env.db 2) t1 (whereImsi cs1.db.imsiNum)
            (modifyBearerEbiUpd (ebiLow (cs1.item .ebiB))) with
        | none => ⟨t1, cs1, .denied⟩
        | some t2 => ⟨t2, cs1, .accepted⟩
      else ⟨t1, cs1, .accepted⟩
  else ⟨t, found, .denied⟩

/-- `_accept` of Modify Bearer; it breaks off when the MSISDN has no 12-digit form. -/
def modifyBearerAcceptItems (h : Handle) (cs : GtpcParseState) : BuiltItems := do
  let cause := gtpcCauseSet gtpcCauseRequestAccepted
  let msisdn ← gtpcMsisdnSet cs.db.msisdnNum
  let ebi := gtpcEbiSet 0 (ebiLow (cs.item .ebiB))
  let chrg := gtpcChargingIdSet cs.db.pgwTeid
  let bctx ← bearerCtxOf [cause, ebi, chrg]
  some ([(gtpcTypeCause, cause), (gtpcTypeMsisdn, msisdn), (gtpcTypeEbi, gtpcEbiSet 0 5),
    (gtpcTypeApnRestriction, gtpcApnRestrictionSet 0)] ++
    optionalItem gtpcTypePco (setupPco cs) ++
    [(gtpcTypeBearerCtx, bctx), (gtpcTypeRecovery, gtpcRecoverySet h.recoveryCount)] ++
    optionalItem gtpcTypePrivateExtension
      (if bothTeids cs then some (gtpcPrivateExtensionSet cs) else none))

def modifyBearerAccept (h : Handle) (cs : GtpcParseState) : Option GtpPacket :=
  (modifyBearerAcceptItems h cs).bind (gtpcAppendItems (gtpcAllocPacket gtpcModifyBearerRes))

def modifyBearerDenied : Option GtpPacket :=
  gtpcAppendItems (gtpcAllocPacket gtpcModifyBearerRes)
    [(gtpcTypeCause, gtpcCauseSet gtpcCauseRequestDeniedApnAccess)]

def modifyBearerAnswer (h : Handle) (rx : RxPacket) (o : Outcome) : Option TxPacket :=
  (match o.verdict with
    | .accepted => modifyBearerAccept h o.cs
    | .denied => modifyBearerDenied).map
    (reply rx o.cs.db.sgwCTeid o.cs.gtphSeqno)

/-! ## 5. Delete Session -/

def deleteSessionStore (env : Env) (t : TunnelTable) (cs : GtpcParseState) : Outcome :=
  let found := dbExecute (env.db 0) t (deleteSessionLookup cs.gtphTeid.toNat) cs
  if found.flag .record then
    match dbQuery (env.db 1) t (whereTeidEbi found.gtphTeid.toNat (ebiLow (found.item .ebiR)).toNat)
        deleteSessionUpd with
    | none => ⟨t, found, .denied⟩
    | some t1 => ⟨t1, found, .accepted⟩
  else ⟨t, found, .denied⟩

def deleteSessionAccept (h : Handle) (cs : GtpcParseState) : Option GtpPacket :=
  gtpcAppendItems (gtpcAllocPacket gtpcDeleteSessionRes)
    ([(gtpcTypeCause, gtpcCauseSet gtpcCauseRequestAccepted)] ++
      optionalItem gtpcTypePco (setupPco cs) ++
      [(gtpcTypeRecovery, gtpcRecoverySet h.recoveryCount)])

def deleteSessionDenied (h : Handle) : Option GtpPacket :=
  gtpcAppendItems (gtpcAllocPacket gtpcDeleteSessionRes)
    [(gtpcTypeCause, gtpcCauseSet gtpcCauseRequestDeniedApnAccess),
      (gtpcTypeRecovery, gtpcRecoverySet h.recoveryCount)]

def deleteSessionAnswer (h : Handle) (rx : RxPacket) (o : Outcome) : Option TxPacket :=
  (match o.verdict with
    | .accepted => deleteSessionAccept h o.cs
    | .denied => deleteSessionDenied h).map
    (reply rx o.cs.db.sgwCTeid o.cs.gtphSeqno)

/-! ## 6. Delete Bearer -/

/-- `_accept` of Delete Bearer; the EBI is the RECORD's. -/
def deleteBearerAccept (cs : GtpcParseState) : Option GtpPacket :=
  gtpcAppendItems (gtpcAllocPacket gtpcDeleteBearerRes)
    ([(gtpcTypeCause, gtpcCauseSet gtpcCauseRequestAccepted),
      (gtpcTypeEbi, gtpcEbiSet 0 cs.db.ebi)] ++ optionalItem gtpcTypePco (setupPco cs))

/-- The request's PCO item, which can go on behind the image. -/
def requestPco (stack : Nat → UInt8) (cs : GtpcParseState) : List UInt8 :=
  let image := cs.item .pco
  (List.range ((be16 (image.getD 1 0) (image.getD 2 0) + 4) % 65536)).map fun i =>
    if i < 5 then image.getD i 0 else pcoByte stack cs (i - 5)

/-- `_denied` of Delete Bearer. It allocates a Delete SESSION Response. -/
def deleteBearerDenied (h : Handle) (env : Env) (cs : GtpcParseState) : Option GtpPacket :=
  gtpcAppendItems (gtpcAllocPacket gtpcDeleteSessionRes)
    ([(gtpcTypeCause, gtpcCauseSet gtpcCauseRequestDeniedApnAccess),
      (gtpcTypeEbi, gtpcEbiSet 0 cs.db.ebi),
      (gtpcTypeRecovery, gtpcRecoverySet h.recoveryCount)] ++
      optionalItem gtpcTypePco
        (if cs.flag .pco then some (requestPco env.mem.stack cs) else none))

def deleteBearerAnswer (h : Handle) (env : Env) (rx : RxPacket) (o : Outcome) : Option TxPacket :=
  (match o.verdict with
    | .accepted => deleteBearerAccept o.cs
    | .denied => deleteBearerDenied h env o.cs).map
    (reply rx o.cs.db.sgwCTeid o.cs.gtphSeqno)

/-! ## 7. One request on a node -/

inductive Procedure
  | createSession
  | modifyBearer
  | deleteSession
  | deleteBearer
deriving DecidableEq, Repr

/-- The message types that start and answer a procedure. -/
def Procedure.reqType : Procedure → UInt8
  | .createSession => gtpcCreateSessionReq
  | .modifyBearer => gtpcModifyBearerReq
  | .deleteSession => gtpcDeleteSessionReq
  | .deleteBearer => gtpcDeleteBearerReq

def Procedure.saved (p : Procedure) (rx : RxPacket) : GtpcParseState :=
  match p with
  | .createSession => savedSeqno rx
  | _ => savedSeqnoTeid rx

def Procedure.store (p : Procedure) (h : Handle) (env : Env) (t : TunnelTable)
    (cs : GtpcParseState) : Outcome :=
  match p with
  | .createSession => createSessionStore h env t cs
  | .modifyBearer => modifyBearerStore env t cs
  | .deleteSession => deleteSessionStore env t cs
  | .deleteBearer => deleteSessionStore env t cs

def Procedure.answer (p : Procedure) (h : Handle) (env : Env) (rx : RxPacket) (o : Outcome) :
    Option TxPacket :=
  match p with
  | .createSession => createSessionAnswer h rx o
  | .modifyBearer => modifyBearerAnswer h rx o
  | .deleteSession => deleteSessionAnswer h rx o
  | .deleteBearer => deleteBearerAnswer h env rx o

def ringSizeMax : Nat := 20 * 1024

/-- `pgw_enq`: a full queue drops the packet and returns `OK`. -/
def pgwEnq (queue : List TxPacket) (pckt : TxPacket) : List TxPacket :=
  if queue.length ≥ ringSizeMax then queue else queue ++ [pckt]

structure NodeState where
  table : TunnelTable
  egress : List TxPacket

def handle (h : Handle) (env : Env) (p : Procedure) (rx : RxPacket) (s : NodeState) : NodeState :=
  match receive env rx (p.saved rx) with
  | none => s
  | some cs =>
    let o := p.store h env s.table cs
    { table := o.table
      egress :=
        match p.answer h env rx o with
        | some pckt => pgwEnq s.egress pckt
        | none => s.egress }

end MixiPgw.Ctrl
