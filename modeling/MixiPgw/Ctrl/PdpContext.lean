/-
# GTPv1-C: PDP contexts

`event_gtpc_v1_any.c` and `gtpc_item_func_v1.c`: the walk over a version-1 message and the
statements of its three requests. The walk's offset is a 16-bit number that a length field can
bring back to where it was, so neither loop is bounded: a walk takes FUEL, and `none` means it is
still going. The responses stand in `ResponsesV1`.
-/
import MixiPgw.Ctrl.StoreSpec

namespace MixiPgw.Ctrl

open Bytes CString Lib Option

/-! ## 1. Information elements -/

def gtpcV1IeCause : UInt8 := 1
def gtpcV1IeImsi : UInt8 := 2
def gtpcV1IeTeidDataI : UInt8 := 16
def gtpcV1IeTeidCtrlPlane : UInt8 := 17
def gtpcV1IeNsapi : UInt8 := 20
def gtpcV1IePco : UInt8 := 132
def gtpcV1IeGsnAddress : UInt8 := 133
def gtpcV1IeMsisdn : UInt8 := 134
def gtpcV1IeQos : UInt8 := 135

/-- The fixed lengths of `msgs_gtpc_v1`, type byte included. -/
def fixedLengths : List (UInt8 × Nat) :=
  [(1, 2), (2, 9), (3, 7), (4, 5), (5, 5), (8, 2), (9, 29), (11, 2), (12, 4), (13, 2), (14, 2),
    (15, 2), (16, 5), (17, 5), (18, 6), (19, 2), (20, 2), (21, 2), (22, 10), (23, 2), (24, 2),
    (25, 3), (26, 3), (27, 3), (28, 3), (29, 2), (127, 5)]

/-- `msgs_gtpc_v1[type].len`; 0 is a variable length, `none` an entry whose type is 0. -/
def msgsGtpcV1Len (type : UInt8) : Option Nat :=
  match fixedLengths.lookup type with
  | some len => some len
  | none => if (128 ≤ type ∧ type ≤ 184) ∨ type = 251 ∨ type = 255 then some 0 else none

def msgsGtpcV1Parser (type : UInt8) : Bool :=
  type ∈ [gtpcV1IeCause, gtpcV1IeImsi, gtpcV1IeTeidDataI, gtpcV1IeTeidCtrlPlane, gtpcV1IeNsapi,
    gtpcV1IePco, gtpcV1IeGsnAddress, gtpcV1IeMsisdn, gtpcV1IeQos]

def GtpcParseState.haveV1 (cs : GtpcParseState) (h : Have) : GtpcParseState :=
  { cs with flagV1 := setFlag cs.flagV1 h }

def GtpcParseState.patch (cs : GtpcParseState) (s : Slot) (i : Nat) (d : List UInt8) :
    GtpcParseState :=
  { cs with item := fun t => if t = s then splice (cs.item s) i d else cs.item t }

def ieBytes (data : Nat → UInt8) (i n : Nat) : List UInt8 := (List.range n).map fun k => data (i + k)

/-- The container loop of the PCO branch, which does not look at the length of a container. -/
def pcoLoopV1 (pco : Nat → UInt8) (len : Nat) : Nat → Nat → GtpcParseState → GtpcParseState
  | 0, _, cs => cs
  | n + 1, offset, cs =>
    if offset < len then
      let pilen := (pco (offset + 2)).toNat
      let type := be16 (pco offset) (pco (offset + 1))
      if type = 0x8021 then
        match gtpcIteratePcoIpcpItem (fun i => pco (offset + 3 + i)) cs with
        | none => cs
        | some cs' => pcoLoopV1 pco len n (offset + 3 + pilen) cs'
      else
        match pcoContainer type with
        | some h => pcoLoopV1 pco len n (offset + 3 + pilen) (cs.haveV1 h)
        | none => pcoLoopV1 pco len n (offset + 3 + pilen) cs
    else cs

/-- Version 1 takes every container for a request. -/
def requestV1 (type _pilen : Nat) (cs : GtpcParseState) : GtpcParseState :=
  match pcoContainer type with
  | some h => cs.haveV1 h
  | none => cs

theorem pcoLoopV1_isLoop (pco : Nat → UInt8) (len : Nat) :
    PcoLoop requestV1 pco len (pcoLoopV1 pco len) := by
  refine ⟨fun _ _ => rfl, fun n offset cs => ?_⟩
  rw [pcoLoopV1, pcoTurn]
  by_cases hmore : offset < len
  · dsimp only
    by_cases hipcp : be16 (pco offset) (pco (offset + 1)) = 0x8021
    · -- an IPCP block is not a container
      have hnone : requestV1 0x8021 (pco (offset + 2)).toNat cs = cs := rfl
      rewrite [hipcp, hnone]
      cases gtpcIteratePcoIpcpItem (fun i => pco (offset + 3 + i)) cs with
      | none => rfl
      | some cs' => rfl
    · rw [if_neg hipcp, if_neg hipcp, requestV1]
      cases pcoContainer (be16 (pco offset) (pco (offset + 1))) with
      | none => rfl
      | some h => rfl
  · rw [if_neg hmore, if_neg hmore]

/-- The PCO branch: up to 257 bytes are copied behind the header in the 258-byte image, and the ones
too many end in its neighbour `paa`. -/
def onPcoV1 (stack : Nat → UInt8) (data : Nat → UInt8) (datalen : Nat) (cs : GtpcParseState) :
    GtpcParseState :=
  let fields := splice (cs.item .pco ++ cs.item .paa) 4 (ieBytes data 3 datalen)
  let cs1 : GtpcParseState :=
    { cs with
      item := fun t =>
        if t = .pco then fields.take 258 else if t = .paa then fields.drop 258 else cs.item t }
  pcoLoopV1 (pcoByte stack cs1) (datalen - 1) 255 0 cs1

/-- A branch that copies an element of one size into an image: the size, the flag, the slot, where
the copy goes, where in the element it starts and how long it is. -/
structure CopyRule where
  size : Nat
  flag : Have
  slot : Slot
  target : Nat
  source : Nat
  count : Nat

/-- The copying branches of `on_gtpcv1_parse_root`. The FIRST address goes to the control plane,
later ones to the user plane. -/
def copyRule (cs : GtpcParseState) (type : UInt8) : Option CopyRule :=
  if type = gtpcV1IeTeidCtrlPlane then some ⟨4, .v1TeidCtrl, .cTeid, 5, 1, 4⟩
  else if type = gtpcV1IeTeidDataI then some ⟨4, .v1TeidData, .uTeid, 5, 1, 4⟩
  else if type = gtpcV1IeImsi then some ⟨8, .v1Imsi, .imsi, 4, 1, 8⟩
  else if type = gtpcV1IeMsisdn then some ⟨7, .v1Msisdn, .msisdn, 4, 4, 6⟩
  else if type = gtpcV1IeGsnAddress then
    if cs.flagV1 .v1IpadrCtrl then some ⟨4, .v1IpadrData, .uTeid, 9, 3, 4⟩
    else some ⟨4, .v1IpadrCtrl, .cTeid, 9, 3, 4⟩
  else none

def onOtherElement (stack : Nat → UInt8) (type : UInt8) (data : Nat → UInt8) (datalen : Nat)
    (cs : GtpcParseState) : GtpcParseState × Bool :=
  if type = gtpcV1IeCause then
    if datalen ≠ 1 then (cs, true) else (cs.haveV1 .v1Cause, true)
  else if type = gtpcV1IeQos then
    if datalen < 256 then ({ cs.haveV1 .v1Qos with qos := ieBytes data 3 datalen }, true)
    else (cs, true)
  else if type = gtpcV1IeNsapi then
    if datalen ≠ 1 then (cs, true)
    else ({ cs.haveV1 .v1Nsapi with nsapi := data 1 &&& 0x0f }, true)
  else if type = gtpcV1IePco then
    if datalen ≥ 258 then (cs, true) else (onPcoV1 stack data datalen (cs.haveV1 .v1Pco), true)
  else (cs, false)

/-- `on_gtpcv1_parse_root`, and its return code; an element of the wrong size is skipped. -/
def onGtpcv1ParseRoot (stack : Nat → UInt8) (type : UInt8) (data : Nat → UInt8) (datalen : Nat)
    (cs₀ : GtpcParseState) : GtpcParseState × Bool :=
  if datalen = 0 then (cs₀, false)
  else
    let cs := cs₀.haveV1 .v1
    match copyRule cs type with
    | some rule =>
      if datalen ≠ rule.size then (cs, true)
      else ((cs.haveV1 rule.flag).patch rule.slot rule.target
        (ieBytes data rule.source rule.count), true)
    | none => onOtherElement stack type data datalen cs

/-! ## 2. The walk -/

/-- The extension-header loop: the offset behind the last header; `none` while it goes on. -/
def extensionLoop (payload : Source) (datalen : Nat) : Nat → Nat → Option Nat
  | 0, _ => none
  | n + 1, offset =>
    if offset < datalen then
      let offset' := (offset + (payload.byte offset).toNat * 4) % 65536
      -- an offset that wraps to 0 reads the byte in front of the buffer
      if payload.byte ((offset' + 2 ^ 64 - 1) % 2 ^ 64) = 0 then some offset'
      else extensionLoop payload datalen n offset'
    else some offset

/-- The element loop: `none` while it goes on, `some none` when it returns `ERR`. -/
def ieLoop (stack : Nat → UInt8) (payload : Source) (datalen : Nat) :
    Nat → Nat → GtpcParseState → Option (Option GtpcParseState)
  | 0, _, _ => none
  | n + 1, offset, cs =>
    if offset < datalen then
      let type := payload.byte offset
      match msgsGtpcV1Len type with
      | none => some none
      | some len =>
        let be := be16 (payload.byte (offset + 1)) (payload.byte (offset + 2))
        let ielen := if len = 0 then be else len - 1
        let extlen := if len = 0 then (be + 3) % 65536 else len
        if msgsGtpcV1Parser type then
          match onGtpcv1ParseRoot stack type (fun i => payload.byte (offset + i)) ielen cs with
          | (_, false) => some none
          | (cs', true) => ieLoop stack payload datalen n ((offset + extlen) % 65536) cs'
        else ieLoop stack payload datalen n ((offset + extlen) % 65536) cs
    else some (some cs)

/-- The walk of `event_gtpc_v1_any_req` up to the switch on the message type. -/
def walkV1 (fuel : Nat) (stack : Nat → UInt8) (rx : RxPacket) : Option (Option GtpcParseState) :=
  let flags := rx.data.byte 0
  let seqno := if flags &&& 0x02 ≠ 0 then be16 (rx.data.byte 8) (rx.data.byte 9) else 0
  let offset := if flags &&& 0x07 ≠ 0 then 12 else 8
  let start :=
    if flags &&& 0x04 ≠ 0 then extensionLoop rx.data rx.datalen fuel offset else some offset
  match start with
  | none => none
  | some offset =>
    match ieLoop stack rx.data rx.datalen fuel offset
        { GtpcParseState.zero with gtphSeqno := UInt32.ofNat seqno } with
    | none => none
    | some none => some none
    | some (some cs) => some (some { cs with gtphTeid := teidOf rx.data })

/-! ## 3. The three requests -/

/-- The requests that reach a statement. -/
inductive PdpProcedure
  | createPdp
  | updatePdp
  | deletePdp
deriving DecidableEq, Repr

def PdpProcedure.reqType : PdpProcedure → UInt8
  | .createPdp => 16
  | .updatePdp => 18
  | .deletePdp => 20

/-- `REQUIRED_CREATE_PDP`, `REQUIRED_UPDATE_PDP` and `REQUIRED_DELETE_PDP`. -/
def PdpProcedure.required : PdpProcedure → List Have
  | .createPdp => [.v1, .v1Msisdn, .v1TeidData, .v1TeidCtrl, .v1IpadrData, .v1IpadrCtrl, .v1Imsi]
  | .updatePdp => [.v1, .v1TeidData, .v1IpadrData, .v1IpadrCtrl]
  | .deletePdp => [.v1, .v1Nsapi]

def createPdpSet (cs : GtpcParseState) (imsiNum : Nat) : Row → Row :=
  createPdpContextUpd (teidGrekey (cs.item .cTeid)) (fteidIp (cs.item .cTeid))
    (teidGrekey (cs.item .uTeid)) (fteidIp (cs.item .uTeid)) 0 0 cs.db.pgwTeid imsiNum

def onCreatePdpCtx (env : Env) (t : TunnelTable) (cs : GtpcParseState) : Outcome :=
  let imsiNum := imsiNumOf env cs
  let found := dbExecute (env.db 0) t (createSessionImsiLookup imsiNum) cs
  if found.flag .record then
    match dbQuery (env.db 1) t (whereImsi imsiNum) (createPdpSet found imsiNum) with
    | none => ⟨t, found, .denied⟩
    | some t1 => ⟨t1, found, .accepted⟩
  else ⟨t, found, .denied⟩

def updatePdpSet (cs : GtpcParseState) : Row → Row :=
  updatePdpContextUpd (teidGrekey (cs.item .cTeid)) (fteidIp (cs.item .cTeid))
    (teidGrekey (cs.item .uTeid)) (fteidIp (cs.item .uTeid))

def onUpdatePdpCtx (env : Env) (t : TunnelTable) (cs : GtpcParseState) : Outcome :=
  let found := dbExecute (env.db 0) t (modifyBearerLookup (bswap32 cs.gtphTeid).toNat) cs
  if found.flag .record then
    if hasAll found.flagV1 [.v1TeidData, .v1TeidCtrl] then
      match dbQuery (env.db 1) t (whereImsi found.db.imsiNum) (updatePdpSet found) with
      | none => ⟨t, found, .denied⟩
      | some t1 =>
        ⟨t1, { found with db := { found.db with sgwCTeid := bswap32 (teidGrekey (found.item .cTeid)) } },
          .accepted⟩
    else
      ⟨t, { found with db := { found.db with sgwCTeid := bswap32 found.db.sgwCTeid } }, .accepted⟩
  else ⟨t, found, .denied⟩

/-- `_on_delete_pdp_ctx`, with the TEID as it lies in the header. -/
def onDeletePdpCtx (env : Env) (t : TunnelTable) (cs : GtpcParseState) : Outcome :=
  let found := dbExecute (env.db 0) t (deleteSessionLookup cs.gtphTeid.toNat) cs
  if found.flag .record then
    match dbQuery (env.db 1) t (whereTeidEbi found.gtphTeid.toNat found.nsapi.toNat)
        deleteSessionUpd with
    | none => ⟨t, found, .denied⟩
    | some t1 => ⟨t1, found, .accepted⟩
  else ⟨t, found, .denied⟩

def PdpProcedure.store (p : PdpProcedure) (env : Env) (t : TunnelTable) (cs : GtpcParseState) :
    Outcome :=
  if hasAll cs.flagV1 p.required then
    match p with
    | .createPdp => onCreatePdpCtx env t cs
    | .updatePdp => onUpdatePdpCtx env t cs
    | .deletePdp => onDeletePdpCtx env t cs
  else ⟨t, cs, .denied⟩

/-! ## 4. One request on the table -/

/-- The table after a version-1 request; a walk that fails or goes on forever leaves it alone. -/
def tableAfterPdp (fuel : Nat) (env : Env) (p : PdpProcedure) (rx : RxPacket) (t : TunnelTable) :
    TunnelTable :=
  match walkV1 fuel env.mem.stack rx with
  | some (some cs) => (p.store env t cs).table
  | _ => t

/-! ## 5. What the walk leaves alone, and what the requests do -/

theorem haveV1_sameSession (cs : GtpcParseState) (h : Have) : SameSession cs (cs.haveV1 h) :=
  ⟨rfl, rfl, rfl, rfl⟩

theorem haveV1_patch_sameSession (cs : GtpcParseState) (h : Have) (s : Slot) (i : Nat)
    (d : List UInt8) : SameSession cs ((cs.haveV1 h).patch s i d) :=
  ⟨rfl, rfl, rfl, rfl⟩

theorem requestV1_sameSession (type pilen : Nat) (cs : GtpcParseState) :
    SameSession cs (requestV1 type pilen cs) := by
  unfold requestV1
  split
  · exact haveV1_sameSession cs _
  · exact SameSession.refl cs

theorem onPcoV1_sameSession (stack data : Nat → UInt8) (datalen : Nat) (cs : GtpcParseState) :
    SameSession cs (onPcoV1 stack data datalen cs) := by
  refine (pcoLoopV1_isLoop _ _).keeps (fun _ _ _ h => h.trans (requestV1_sameSession ..))
    (fun _ _ h => h.trans (ipcpOption_sameSession ..)) 255 ?_
  exact ⟨rfl, rfl, rfl, rfl⟩

theorem onOtherElement_sameSession (stack : Nat → UInt8) (type : UInt8) (data : Nat → UInt8)
    (datalen : Nat) (cs : GtpcParseState) :
    SameSession cs (onOtherElement stack type data datalen cs).1 := by
  have hpco := (haveV1_sameSession cs .v1Pco).trans (onPcoV1_sameSession stack data datalen _)
  unfold onOtherElement
  repeat' split
  all_goals first
    | exact hpco
    | exact ⟨rfl, rfl, rfl, rfl⟩

theorem onGtpcv1ParseRoot_sameSession (stack : Nat → UInt8) (type : UInt8) (data : Nat → UInt8)
    (datalen : Nat) (cs : GtpcParseState) :
    SameSession cs (onGtpcv1ParseRoot stack type data datalen cs).1 := by
  have hv1 := haveV1_sameSession cs .v1
  unfold onGtpcv1ParseRoot
  dsimp only
  split
  · exact SameSession.refl cs
  · split
    · split
      · exact hv1
      · exact hv1.trans (haveV1_patch_sameSession _ _ _ _ _)
    · exact hv1.trans (onOtherElement_sameSession stack type data datalen _)

theorem ieLoop_sameSession (stack : Nat → UInt8) (payload : Source) (datalen : Nat) :
    ∀ (n offset : Nat) {cs cs' : GtpcParseState},
      ieLoop stack payload datalen n offset cs = some (some cs') → SameSession cs cs'
  | 0, _, _, _, h => absurd h (by simp [ieLoop])
  | n + 1, offset, cs, cs', h => by
    simp only [ieLoop] at h
    split at h
    · split at h
      · exact absurd h (by simp)
      · split at h
        · split at h
          · exact absurd h (by simp)
          · rename_i hroot
            have hone := congrArg Prod.fst hroot ▸ onGtpcv1ParseRoot_sameSession stack _ _ _ cs
            exact hone.trans (ieLoop_sameSession stack payload datalen n _ h)
        · exact ieLoop_sameSession stack payload datalen n _ h
    · obtain rfl := some.inj (some.inj h)
      exact SameSession.refl cs

variable {fuel : Nat} {stack : Nat → UInt8} {rx : RxPacket} {cs : GtpcParseState}

theorem walkV1_elements (h : walkV1 fuel stack rx = some (some cs)) :
    ∃ offset seqno cs', ieLoop stack rx.data rx.datalen fuel offset
        { GtpcParseState.zero with gtphSeqno := seqno } = some (some cs') ∧
      cs = { cs' with gtphTeid := teidOf rx.data } := by
  unfold walkV1 at h
  dsimp only at h
  split at h
  · cases h
  · split at h
    · cases h
    · cases h
    · rename_i hie
      exact ⟨_, _, _, hie, (some.inj (some.inj h)).symm⟩

theorem walkV1_record (h : walkV1 fuel stack rx = some (some cs)) : cs.flag .record = false := by
  obtain ⟨offset, seqno, cs', hie, rfl⟩ := walkV1_elements h
  exact (ieLoop_sameSession stack rx.data rx.datalen fuel offset hie).record

/-- **When a Create PDP Context is accepted for a row**, whose TEID it writes back, cut to 32
bits. -/
structure CreatePdpAccepts (env : Env) (t : TunnelTable) (cs : GtpcParseState) (r : Row) :
    Prop where
  mem : r ∈ t.rows
  found : env.db 0 = true ∧ createSessionImsiLookup (imsiNumOf env cs) r = true
  stored : env.db 1 = true ∧
    ∀ r' ∈ t.rows, r'.pgwTeid = (UInt32.ofNat r.pgwTeid).toNat → r'.imsi = r.imsi

def pdpRow (cs : GtpcParseState) (r r' : Row) : Row :=
  createPdpSet (onTunnelRecord cs r) r.imsi r'

theorem onCreatePdpCtx_cases (env : Env) (t : TunnelTable) (hrec : cs.flag .record = false) :
    (∃ r, CreatePdpAccepts env t cs r ∧ (onCreatePdpCtx env t cs).verdict = .accepted ∧
      (onCreatePdpCtx env t cs).table.rows =
        t.rows.map fun r' => if r'.imsi = r.imsi then pdpRow cs r r' else r') ∨
    ((∀ r, ¬ CreatePdpAccepts env t cs r) ∧ (onCreatePdpCtx env t cs).verdict = .denied ∧
      (onCreatePdpCtx env t cs).table = t) := by
  have himsi : ∀ r, createSessionImsiLookup (imsiNumOf env cs) r = true →
      r.imsi = imsiNumOf env cs := fun _ => imsi_of_lookup
  unfold onCreatePdpCtx
  rcases dbExecute_cases (t := t) imsi_mem_keys himsi (env.db 0) cs
    with ⟨hcs, hno⟩ | ⟨r, hr, hok, hpr, hcs⟩
  · dsimp only
    rw [hcs, if_neg (by simp [hrec])]
    exact Or.inr ⟨fun r hr => absurd (hno hr.found.1 r hr.mem) (by simp [hr.found.2]), rfl, rfl⟩
  · dsimp only
    rw [hcs, if_pos (onTunnelRecord_record cs r), ← himsi r hpr]
    have hset : ∀ r', (createPdpSet (onTunnelRecord cs r) r.imsi r').pgwTeid =
        (UInt32.ofNat r.pgwTeid).toNat := fun _ => rfl
    have hstored := dbQuery_setKey (env.db 1) t r.imsi pgwTeid_mem_keys hset
      (by simp +contextual [tunnelKeys, createPdpSet, createPdpContextUpd, setSgw])
    cases hq : dbQuery (env.db 1) t (whereImsi r.imsi)
        (createPdpSet (onTunnelRecord cs r) r.imsi) with
    | none =>
      refine Or.inr ⟨fun r' hr' => ?_, rfl, rfl⟩
      obtain rfl : r' = r := UniqueTable.eq_of_key imsi_mem_keys hr'.mem hr
        ((himsi r' hr'.found.2).trans (himsi r hpr).symm)
      obtain ⟨t1, ht1⟩ := hstored.mpr ⟨hr'.stored.1, fun _ _ _ => hr'.stored.2⟩
      exact absurd ht1 (by simp [hq])
    | some t1 =>
      obtain ⟨hok1, hteid⟩ := hstored.mp ⟨t1, hq⟩
      refine Or.inl ⟨r, ⟨hr, ⟨hok, hpr⟩, hok1, hteid r hr rfl⟩, rfl, ?_⟩
      rw [dbQuery_rows hq]
      simp [whereImsi, pdpRow]

variable {env : Env} {t : TunnelTable} {P : Row → Prop}

/-- The invariant rule of Update PDP Context: the row is in service. -/
theorem onUpdatePdpCtx_forall (hrec : cs.flag .record = false) (hP : ∀ r ∈ t.rows, P r)
    (hset : ∀ (cs' : GtpcParseState) r, r.active = 1 → P r → P (updatePdpSet cs' r)) :
    ∀ r ∈ (onUpdatePdpCtx env t cs).table.rows, P r := by
  unfold onUpdatePdpCtx
  have hkey : ∀ r, modifyBearerLookup (bswap32 cs.gtphTeid).toNat r = true →
      r.pgwTeid = (bswap32 cs.gtphTeid).toNat := fun _ h => (teid_of_modifyLookup h).1
  rcases dbExecute_cases (t := t) pgwTeid_mem_keys hkey (env.db 0) cs
    with ⟨hcs, -⟩ | ⟨r, hr, -, hpr, hcs⟩
  · rw [hcs, if_neg (by simp [hrec])]
    exact hP
  · rw [hcs, if_pos (onTunnelRecord_record cs r)]
    split
    · split
      · exact hP
      · rename_i hq
        refine dbQuery_forall hq hP fun r' hr' hi hr'P => hset _ r' ?_ hr'P
        simp only [whereImsi, decide_eq_true_eq] at hi
        obtain rfl := UniqueTable.eq_of_key imsi_mem_keys hr' hr hi
        exact (teid_of_modifyLookup hpr).2
    · exact hP

theorem onDeletePdpCtx_eq (env : Env) (t : TunnelTable) (cs : GtpcParseState) :
    onDeletePdpCtx env t cs = deleteStore (fun cs => cs.nsapi.toNat) env t cs := rfl

theorem onDeletePdpCtx_forall (hP : ∀ r ∈ t.rows, P r) (hset : ∀ r, P r → P (deleteSessionUpd r)) :
    ∀ r ∈ (onDeletePdpCtx env t cs).table.rows, P r := by
  unfold onDeletePdpCtx
  dsimp only
  split
  · split
    · exact hP
    · rename_i hq
      exact dbQuery_forall hq hP fun r _ _ hr => hset r hr
  · exact hP

end MixiPgw.Ctrl
