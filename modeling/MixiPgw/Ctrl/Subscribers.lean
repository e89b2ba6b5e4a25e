/-
# Subscribers over any history of signals

`event_gtpc_suspend_notification.c` and `event_gtpc_resume_notification.c`, and then every handler
that writes to `tunnel`, in any order.

* `notification_answered`: every notification that can be parsed is acknowledged once.
* `subscribers_permanent`: no history changes an IMSI, a UE's address or more of a TEID than its
  first four bits, so no TEID is ever shared (`teids_never_shared`, `create_accepted_iff`).
* `modify_puts_back`: the update of a Modify Bearer undoes what has come since its lookup.
-/
import MixiPgw.Ctrl.ErrorIndication
import MixiPgw.Ctrl.Echo

namespace MixiPgw.Ctrl

open Bytes CString Lib List

/-! ## 1. Suspend and Resume Notification -/

inductive Notification
  | suspend
  | resume
deriving DecidableEq

namespace Notification

def reqType : Notification → UInt8
  | suspend => gtpcSuspendNotification
  | resume => gtpcResumeNotification

/-- `GTPC_SUSPEND_ACK` and `GTPC_RESUME_ACK`. -/
def ackType : Notification → UInt8
  | suspend => 163
  | resume => 165

/-- `SUSPEND_NOTIFY_UPD_SQL` goes by the TEID, `RESUME_NOTIFY_UPD_SQL` by the IMSI. -/
def rows (env : Env) (cs : GtpcParseState) : Notification → Row → Bool
  | suspend => deleteSessionLookup cs.gtphTeid.toNat
  | resume => whereImsi (gtpcDigitsGet (env.errnoRange 0) (digitsOf (cs.item .imsi) 8))

def upd (n : Notification) (r : Row) : Row :=
  { r with active := (match n with | suspend => 0 | resume => 1), latestGtpVersion := 2 }

/-- Both look the TEID up; only Resume asks for an IMSI. -/
def store (n : Notification) (env : Env) (t : TunnelTable) (cs : GtpcParseState) : Outcome :=
  if n = resume ∧ cs.flag .imsi = false then ⟨t, cs, .denied⟩
  else
    let found := dbExecute (env.db 0) t (deleteSessionLookup cs.gtphTeid.toNat) cs
    if found.flag .record then
      match dbQuery (env.db 1) t (n.rows env found) n.upd with
      | none => ⟨t, found, .denied⟩
      | some t1 => ⟨t1, found, .accepted⟩
    else ⟨t, found, .denied⟩

def answer (n : Notification) (rx : RxPacket) (o : Outcome) : Option TxPacket :=
  let cause := match o.verdict with
    | .accepted => gtpcCauseRequestAccepted
    | .denied => gtpcCauseRequestDeniedApnAccess
  (gtpcAppendItems (gtpcAllocPacket n.ackType) [(gtpcTypeCause, gtpcCauseSet cause)]).map
    (reply rx o.cs.db.sgwCTeid o.cs.gtphSeqno)

def handle (n : Notification) (env : Env) (rx : RxPacket) (s : NodeState) : NodeState :=
  match receive env rx (savedSeqnoTeid rx) with
  | none => s
  | some cs =>
    let o := n.store env s.table cs
    { table := o.table
      egress :=
        match n.answer rx o with
        | some pckt => pgwEnq s.egress pckt
        | none => s.egress }

theorem store_sameRequest (n : Notification) (env : Env) (t : TunnelTable) (cs : GtpcParseState) :
    SameRequest cs (n.store env t cs).cs := by
  have hfind := dbExecute_sameRequest (env.db 0) t (deleteSessionLookup cs.gtphTeid.toNat) cs
  simp only [store]
  repeat' split
  all_goals first | exact SameRequest.refl cs | exact hfind

end Notification

/-- **Every notification that can be parsed is acknowledged once**, by the type behind its own and
with its sequence number, where it came from. -/
theorem notification_answered (n : Notification) (env : Env) (rx : RxPacket) (s : NodeState)
    (cs : GtpcParseState) (hparse : receive env rx (savedSeqnoTeid rx) = some cs)
    (htype : rx.data.byte 1 = n.reqType) (hroom : s.egress.length < ringSizeMax) :
    AnsweredOnce rx s (n.handle env rx s) := by
  have hseq : (n.store env s.table cs).cs.gtphSeqno = seqnoOf rx.data := by
    rw [(n.store_sameRequest env s.table cs).seqno, (receive_spec hparse).seqno]
    rfl
  have hack : n.ackType = n.reqType + 1 ∧ gtpcTypeHeaderlen n.ackType = 12 := by
    cases n <;> decide
  obtain ⟨pkt, hpkt⟩ : ∃ pkt, gtpcAppendItems (gtpcAllocPacket n.ackType) [(gtpcTypeCause,
      gtpcCauseSet (match (n.store env s.table cs).verdict with
        | .accepted => gtpcCauseRequestAccepted
        | .denied => gtpcCauseRequestDeniedApnAccess))] = some pkt :=
    Sized.isSome (n := 6 + 0) (.cons (by simp) sized_nil) (by omega)
  have hfin := finished_of_append hack.2 hpkt
  refine ⟨reply rx (n.store env s.table cs).cs.db.sgwCTeid (seqnoOf rx.data) pkt, ?_, ?_,
    fun j hj => reply_seqno hfin rx _ j hj, rfl, rfl⟩
  · simp only [Notification.handle, hparse, Notification.answer, hpkt, hseq, Option.map_some,
      pgwEnq, if_neg (Nat.not_le.mpr hroom)]
  · rw [reply_type hfin, htype, hack.1]

/-- A Suspend Notification for TEID 0x50000005. -/
def suspendRequest : RxPacket :=
  { deleteBearerRequest with
    data := ⟨[0x48, 162, 0, 8, 0x50, 0, 0, 5, 0, 0, 3, 0], fun _ => 0⟩ }

theorem suspend_answered :
    receive calmEnv suspendRequest (savedSeqnoTeid suspendRequest) =
        some (savedSeqnoTeid suspendRequest) ∧
      AnsweredOnce suspendRequest ⟨createdStore.table, []⟩
        (Notification.suspend.handle calmEnv suspendRequest ⟨createdStore.table, []⟩) :=
  ⟨rfl, notification_answered .suspend calmEnv suspendRequest ⟨createdStore.table, []⟩ _ rfl
    (by decide) (by decide)⟩

/-! ## 2. What writes to the table -/

inductive Signal
  | request (e : Event)
  | notification (n : Notification) (env : Env) (rx : RxPacket)
  | errorIndication (ok : Bool) (rx : RxPacket)
  | echo (restartCounter : UInt32) (node : EchoNode) (x : EchoIn)

def tableAfterSignal (h : Handle) (t : TunnelTable) : Signal → TunnelTable
  | .request e => tableAfter h t e
  | .notification n env rx => (n.handle env rx ⟨t, []⟩).table
  | .errorIndication ok rx => errorIndication ok rx t
  | .echo restartCounter node x => (echoTurn restartCounter { node with table := t } x).2.1.table

/-- What a subscriber keeps: the IMSI, the UE's address and the TEID but for its first four bits. -/
def Row.identity (r : Row) : Nat × Text × Nat := (r.imsi, r.ueipv4, r.pgwTeid % 2 ^ 28)

def identities (t : TunnelTable) : List (Nat × Text × Nat) := t.rows.map Row.identity

/-! ## 3. One signal -/

section

variable {h : Handle} {env : Env} {t t' : TunnelTable} {cs : GtpcParseState} {r : Row} {ok : Bool}
  {p : Row → Bool} {f g : Row → Row}

theorem identities_map (hrows : t'.rows = t.rows.map g)
    (hg : ∀ r ∈ t.rows, (g r).identity = r.identity) : identities t' = identities t := by
  unfold identities
  rw [hrows, map_map]
  exact map_congr_left hg

theorem identities_query (hq : dbQuery ok t p f = some t') (hf : ∀ r, (f r).identity = r.identity) :
    identities t' = identities t :=
  identities_map (dbQuery_rows hq) fun r _ => by
    split
    · exact hf r
    · rfl

/-- The statement of a row that was found before. -/
theorem identities_found (hr : r ∈ t.rows) (hg : (g r).identity = r.identity)
    (hrows : t'.rows = t.rows.map fun r' => if r'.imsi = r.imsi then g r' else r') :
    identities t' = identities t :=
  identities_map hrows fun r' hr' => by
    split
    · rename_i himsi
      obtain rfl := UniqueTable.eq_of_key imsi_mem_keys hr' hr himsi
      exact hg
    · rfl

theorem sessionTeid_mod (cs : GtpcParseState) (r : Row) :
    (sessionTeid cs r).toNat % 2 ^ 28 = r.pgwTeid % 2 ^ 28 := by
  unfold sessionTeid
  rw [toNat_replaceEbi, UInt32.toNat_ofNat']
  omega

theorem identity_of_mod {teid : Nat} (h : teid % 2 ^ 28 = r.pgwTeid % 2 ^ 28) :
    (r.imsi, r.ueipv4, teid % 2 ^ 28) = r.identity :=
  congrArg (fun base => (r.imsi, r.ueipv4, base)) h

theorem createSessionSet_identity :
    (createSessionSet (onTunnelRecord cs r).withEbi r).identity = r.identity := by
  unfold createSessionSet createSessionUpd setRestartCounter
  split
  all_goals exact identity_of_mod (sessionTeid_mod cs r)

theorem firstModifiedRow_identity : (firstModifiedRow cs r r).identity = r.identity := by
  unfold firstModifiedRow modifyBearerFirstSet modifyBearerSet modifyBearerUpd
    modifyBearerRatonlyUpd setRestartCounter setRat
  repeat' split
  all_goals first
    | rfl
    | exact identity_of_mod (sessionTeid_mod cs r)

theorem createSessionPrepare_identities (i m : Nat) :
    identities (createSessionPrepare h env t i m).1 = identities t := by
  unfold createSessionPrepare
  split
  · rfl
  · rename_i t1 hpgwip
    have h1 : identities t1 = identities t :=
      identities_map (createSessionPgwip_rows hpgwip) fun r _ => by
        unfold pgwipSet
        repeat' split
        all_goals rfl
    split
    · exact h1
    · rename_i hmsisdn
      refine (identities_map (createSessionMsisdn_rows hmsisdn) fun r _ => ?_).trans h1
      unfold msisdnSet
      repeat' split
      all_goals rfl

theorem createSessionStore_identities (hrec : cs.flag .record = false) :
    identities (createSessionStore h env t cs).table = identities t := by
  unfold createSessionStore
  split
  · have hprep := @createSessionPrepare_identities h env t (imsiNumOf env cs) (msisdnNumOf env cs)
    split
    · rename_i t2 heq
      rw [heq] at hprep
      exact hprep
    · rename_i t2 heq
      rw [heq] at hprep
      rw [← hprep]
      dsimp only
      rcases createSessionFind_cases env t2 (imsiNumOf env cs) (msisdnNumOf env cs) hrec with
        ⟨hcs, -⟩ | ⟨r, hfind, heq⟩
      · rw [if_neg (by rw [hcs, hrec]; simp)]
      · rw [heq, if_pos (onTunnelRecord_record cs r)]
        split
        · rfl
        · rename_i hq
          exact identities_found hfind.1 createSessionSet_identity
            (by simpa [whereImsi] using dbQuery_rows hq)
  · rfl

theorem modifyBearerStore_identities (hrec : cs.flag .record = false) :
    identities (modifyBearerStore env t cs).table = identities t := by
  by_cases hfound : ∃ r ∈ t.rows, env.db 0 = true ∧ modifyBearerLookup cs.gtphTeid.toNat r = true
  · obtain ⟨r, hr, hok, hpr⟩ := hfound
    rcases modifyBearerStore_of_found hr hok hpr with
      ⟨-, -, htable⟩ | ⟨-, -, -, hrows⟩ | ⟨-, -, -, hrows⟩
    · rw [htable]
    · exact identities_found hr firstModifiedRow_identity hrows
    · refine identities_found hr ?_ hrows
      unfold modifiedRow
      split
      all_goals exact firstModifiedRow_identity
  · rw [modifyBearerStore_of_not_found hrec fun hok r hr => by
      by_contra hpr
      exact hfound ⟨r, hr, hok, by simpa using hpr⟩]

theorem deleteStore_identities (ebi : GtpcParseState → Nat) :
    identities (deleteStore ebi env t cs).table = identities t := by
  simp only [deleteStore]
  repeat' split
  case h_2 hq => exact identities_query hq fun _ => rfl
  all_goals rfl

theorem Procedure.store_identities (p : Procedure) (hrec : cs.flag .record = false) :
    identities (p.store h env t cs).table = identities t := by
  cases p with
  | createSession => exact createSessionStore_identities hrec
  | modifyBearer => exact modifyBearerStore_identities hrec
  | deleteSession | deleteBearer =>
    exact deleteStore_identities fun cs => (ebiLow (cs.item .ebiR)).toNat

theorem pdpStore_identities {proc : PdpProcedure} (hrec : cs.flag .record = false) :
    identities (proc.store env t cs).table = identities t := by
  unfold PdpProcedure.store
  split
  · cases proc with
    | createPdp =>
      rcases onCreatePdpCtx_cases env t hrec with ⟨r, hacc, -, hrows⟩ | ⟨-, -, htable⟩
      · refine identities_found hacc.mem ?_ hrows
        have hteid : (UInt32.ofNat r.pgwTeid).toNat % 2 ^ 28 = r.pgwTeid % 2 ^ 28 := by
          rw [UInt32.toNat_ofNat']
          omega
        exact identity_of_mod hteid
      · rw [htable]
    | updatePdp =>
      simp only [onUpdatePdpCtx]
      repeat' split
      case h_2 hq => exact identities_query hq fun _ => rfl
      all_goals rfl
    | deletePdp => exact deleteStore_identities fun cs => cs.nsapi.toNat
  · rfl

theorem notificationStore_identities (n : Notification) :
    identities (n.store env t cs).table = identities t := by
  simp only [Notification.store]
  repeat' split
  case h_2 hq => exact identities_query hq fun _ => rfl
  all_goals rfl

theorem query_getD_identities (hf : ∀ r, (f r).identity = r.identity) :
    identities ((dbQuery ok t p f).getD t) = identities t := by
  cases hq : dbQuery ok t p f with
  | none => rfl
  | some t' => exact identities_query hq hf

theorem echoTurn_identities (v : UInt32) (node : EchoNode) (x : EchoIn) :
    identities (echoTurn v node x).2.1.table = identities node.table := by
  have hobs : ∀ c, identities (observerSgwPeers node x c).table = identities node.table := by
    intro c
    simp only [observerSgwPeers]
    repeat' split
    all_goals first
      | rfl
      | exact query_getD_identities fun _ => rfl
  simp only [echoTurn]
  repeat' split
  all_goals first
    | rfl
    | exact hobs _

/-- **One signal**, whatever it is and whatever the server answers. -/
theorem tableAfterSignal_identities (h : Handle) (t : TunnelTable) (x : Signal) :
    identities (tableAfterSignal h t x) = identities t := by
  cases x with
  | request e =>
    obtain ⟨env, ⟨p, rx⟩ | ⟨p, fuel, rx⟩⟩ := e
    · simp only [tableAfterSignal, tableAfter, handle]
      split
      · rfl
      · rename_i cs hparse
        exact p.store_identities ((receive_spec hparse).record.trans (p.saved_record rx))
    · simp only [tableAfterSignal, tableAfter, tableAfterPdp]
      split
      · rename_i hwalk
        exact pdpStore_identities (walkV1_record hwalk)
      · rfl
  | notification n env rx =>
    simp only [tableAfterSignal, Notification.handle]
    split
    · rfl
    · exact notificationStore_identities n
  | errorIndication ok rx =>
    simp only [tableAfterSignal, errorIndication]
    split
    · exact query_getD_identities fun _ => rfl
    · rfl
  | echo v node x => exact echoTurn_identities v { node with table := t } x

end

/-! ## 4. Any history -/

variable {h : Handle} {env : Env} {t t' : TunnelTable} {cs : GtpcParseState} {r r' : Row}

theorem foldl_identities (h : Handle) : ∀ (signals : List Signal) (t : TunnelTable),
    identities (signals.foldl (tableAfterSignal h) t) = identities t
  | [], _ => rfl
  | x :: signals, t => (foldl_identities h signals _).trans (tableAfterSignal_identities h t x)

/-- **The subscribers are permanent**: in every state of every run the rows have the IMSIs, the
addresses and the TEIDs, but for their first four bits, that they were provisioned with. -/
theorem subscribers_permanent (h : Handle) (t : TunnelTable) (signals : List Signal) :
    (signals.foldl (tableAfterSignal h) t).rows.map Row.identity = t.rows.map Row.identity :=
  foldl_identities h signals t

/-- The TEIDs differ in more than their first four bits. -/
def DistinctTeids (t : TunnelTable) : Prop := ((identities t).map fun i => i.2.2).Nodup

instance (t : TunnelTable) : Decidable (DistinctTeids t) :=
  inferInstanceAs (Decidable (Nodup _))

theorem foldl_distinctTeids (hteids : DistinctTeids t) (signals : List Signal) :
    DistinctTeids (signals.foldl (tableAfterSignal h) t) := by
  unfold DistinctTeids
  rw [foldl_identities h signals t]
  exact hteids

theorem imsi_of_teid (hsame : identities t' = identities t) (hteids : DistinctTeids t)
    (hr : r ∈ t.rows) (hr' : r' ∈ t'.rows) (hteid : r'.pgwTeid % 2 ^ 28 = r.pgwTeid % 2 ^ 28) :
    r'.imsi = r.imsi := by
  have hmem : r'.identity ∈ identities t := hsame ▸ mem_map_of_mem hr'
  exact congrArg Prod.fst (inj_on_of_nodup_map hteids hmem (mem_map_of_mem hr) hteid)

/-- **A TEID belongs to one subscriber for ever**: those of two sessions, in any two states of a run
and whatever their EBIs, agree only for the same IMSI. -/
theorem teids_never_shared (h : Handle) (t : TunnelTable) (signals signals' : List Signal)
    (cs cs' : GtpcParseState) (r r' : Row) (hteids : DistinctTeids t)
    (hr : r ∈ (signals.foldl (tableAfterSignal h) t).rows)
    (hr' : r' ∈ (signals'.foldl (tableAfterSignal h) t).rows)
    (hteid : sessionTeid cs r = sessionTeid cs' r') : r.imsi = r'.imsi := by
  have hsame := (foldl_identities h signals t).trans (foldl_identities h signals' t).symm
  refine imsi_of_teid hsame (foldl_distinctTeids hteids signals') hr' hr ?_
  rw [← sessionTeid_mod cs, hteid, sessionTeid_mod]

def suspension : Signal := .notification .suspend calmEnv suspendRequest

def neighbourTable : TunnelTable := ⟨[neighbour, provisioned], by decide⟩

/-- Both subscribers have a session. -/
def servedTable : TunnelTable := (createSessionStore plainHandle calmEnv neighbourTable createdCs).table

theorem suspended_keeps_teid :
    let suspended := Notification.suspend.upd createdRow
    sessionTeid createdCs createdRow = sessionTeid modifyCs suspended ∧
      createdRow.imsi = suspended.imsi :=
  ⟨by decide +kernel, teids_never_shared plainHandle servedTable [] [suspension] createdCs
    modifyCs createdRow _ (by decide +kernel) (by decide +kernel) (by decide +kernel)
    (by decide +kernel)⟩

/-- **No Create Session is refused for its TEID.** After any history it is accepted as soon as its
items are there, the MSISDN is nobody else's, a row is found and the server answers. -/
theorem create_accepted_iff (h : Handle) (env : Env) (t : TunnelTable) (cs : GtpcParseState)
    (signals : List Signal) (hrec : cs.flag .record = false) (hteids : DistinctTeids t) :
    let t' := signals.foldl (tableAfterSignal h) t
    (createSessionStore h env t' cs).verdict = .accepted ↔
      hasAll cs.flag includedAll = true ∧
      CreateSessionReady h env t' (imsiNumOf env cs) (msisdnNumOf env cs) ∧
      (∃ r, FindsRow env (t'.rows.map (preparedRow h (imsiNumOf env cs) (msisdnNumOf env cs)))
        (imsiNumOf env cs) (msisdnNumOf env cs) r) ∧ env.db 4 = true := by
  intro t'
  constructor
  · intro hacc
    rcases createSessionStore_cases h env t' hrec with ⟨r, hr, -⟩ | ⟨-, hdenied⟩
    · exact ⟨hr.included, hr.ready, ⟨r, hr.finds⟩, hr.stored.1⟩
    · cases hdenied.symm.trans hacc
  · rintro ⟨hinc, hready, ⟨r, hfinds⟩, hok⟩
    obtain ⟨q, hq, hqr⟩ := mem_map.mp hfinds.1
    refine (CreateSessionAccepts.spec hrec
      ⟨hinc, hready, hfinds, hok, fun r' hr' hteid => ?_⟩).1
    rw [← hqr, preparedRow_imsi]
    refine imsi_of_teid rfl (foldl_distinctTeids hteids signals) hq hr' ?_
    rw [hteid, sessionTeid_mod, ← hqr, preparedRow_pgwTeid]

theorem create_accepted_provisioned :
    DistinctTeids neighbourTable ∧
      (createSessionStore plainHandle calmEnv
        (tableAfterSignal plainHandle neighbourTable suspension) createdCs).verdict =
          .accepted := by
  have hteids : DistinctTeids neighbourTable := by decide +kernel
  exact ⟨hteids, (create_accepted_iff plainHandle calmEnv neighbourTable createdCs [suspension]
    rfl hteids).mpr ⟨by decide +kernel, by decide +kernel, ⟨provisioned, by decide +kernel⟩, rfl⟩⟩

theorem modifyBearerFirstSet_sets_active (hset : bothTeids cs = true ∨ cs.flag .rat = true) :
    (modifyBearerFirstSet cs r).active = 1 := by
  unfold modifyBearerFirstSet
  split
  · simp [modifyBearerSet, modifyBearerUpd]
  · rename_i hboth
    simp [ratType, hset.resolve_left hboth, modifyBearerRatonlyUpd]

/-- **The update of a Modify Bearer undoes what has come since its lookup.** The lock is released in
between, and whatever the other threads have then done with the session, it is active again. -/
theorem modify_puts_back (h : Handle) (env : Env) (t : TunnelTable) (cs : GtpcParseState) (r : Row)
    (signals : List Signal) (hteids : DistinctTeids t) (hr : r ∈ t.rows)
    (hfound : modifyBearerLookup cs.gtphTeid.toNat r = true)
    (hset : bothTeids cs = true ∨ cs.flag .rat = true) (hok : env.db 0 = true ∧ env.db 1 = true) :
    let found := dbExecute (env.db 0) t (modifyBearerLookup cs.gtphTeid.toNat) cs
    ∃ t1 cs1, modifyBearerFirst env (signals.foldl (tableAfterSignal h) t) found.withEbi =
      some (t1, cs1) ∧ ∃ r1 ∈ t1.rows, r1.imsi = r.imsi ∧ r1.active = 1 := by
  intro found
  have hcs : found = onTunnelRecord cs r :=
    dbExecute_of_found pgwTeid_mem_keys (fun _ h => (teid_of_modifyLookup h).1) cs hr hok.1 hfound
  have hsame := foldl_identities h signals t
  have hrat : found.withEbi.flag .rat = cs.flag .rat := by
    rw [hcs]
    exact (onTunnelRecord_sameRequest cs r).flag .rat (by decide)
  rw [hcs] at hrat ⊢
  have hfits : ModifyBearerFirstOk env (signals.foldl (tableAfterSignal h) t)
      (onTunnelRecord cs r).withEbi := by
    unfold ModifyBearerFirstOk
    split
    · refine ⟨hok.2, fun _ _ _ r' hr' hteid => imsi_of_teid hsame hteids hr hr' ?_⟩
      rw [hteid, withEbi_pgwTeid, sessionTeid_mod]
    · exact fun _ => hok.2
  obtain ⟨⟨t1, cs1⟩, hfirst⟩ := (modifyBearerFirst_isSome env _ _).mpr hfits
  -- the subscriber has not gone away
  obtain ⟨q, hq, hid⟩ :
      ∃ q ∈ (signals.foldl (tableAfterSignal h) t).rows, q.identity = r.identity :=
    mem_map.mp (hsame ▸ mem_map_of_mem hr : r.identity ∈ identities _)
  have himsi : q.imsi = r.imsi := congrArg Prod.fst hid
  refine ⟨t1, cs1, hfirst, modifyBearerFirstSet (onTunnelRecord cs r).withEbi q, ?_, ?_, ?_⟩
  · rw [(modifyBearerFirst_spec hfirst).1, mem_map]
    exact ⟨q, hq, if_pos himsi⟩
  · rw [modifyBearerFirstSet_imsi, himsi]
  · refine modifyBearerFirstSet_sets_active ?_
    rw [hrat]
    exact hset

/-- A session that is suspended between the two is active behind them. -/
theorem modify_puts_back_suspended :
    (tableAfterSignal plainHandle createdStore.table suspension).rows.map Row.active = [0] ∧
      ∃ t1 cs1, modifyBearerFirst calmEnv
          (tableAfterSignal plainHandle createdStore.table suspension)
          (dbExecute true createdStore.table (modifyBearerLookup 0x50000005) modifyCs).withEbi =
        some (t1, cs1) ∧ ∃ r1 ∈ t1.rows, r1.imsi = createdRow.imsi ∧ r1.active = 1 :=
  ⟨by decide +kernel, modify_puts_back plainHandle calmEnv createdStore.table modifyCs createdRow
    [suspension] (by decide +kernel) (by decide +kernel) (by decide +kernel)
    (Or.inl (by decide +kernel)) ⟨rfl, rfl⟩⟩

end MixiPgw.Ctrl
