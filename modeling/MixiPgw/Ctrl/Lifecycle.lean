/-
# Sessions from creation to deletion

Created, looked up under the TEID that was handed out, deleted. Both versions share the table and
the statement that deletes, and differ in how they get from four bytes of a header to a number.

* `deletion_takes_effect_iff`: the lookup goes by TEID, the update by TEID AND `ebi`, and nobody
  counts the rows it changed; version 1 takes the TEID in the byte order of the packet.
* `session_lifecycle_iff`: the update of the gateway addresses goes by the IMSI of the request, even
  when the row is then found by MSISDN.
* `denied_createSession_table`: the statements before the lookup are not undone.
* `pdp_lifecycle_iff`: a version-1 context.
-/
import MixiPgw.Ctrl.EbiTeid
import MixiPgw.Ctrl.ResponsesV1

namespace MixiPgw.Ctrl

open Bytes CString Lib List PdpProcedure UniqueTable

/-- The TEID a header denotes, in network order. -/
def headerTeid (rx : RxPacket) : UInt32 := bswap32 (teidOf rx.data)

/-! ## 1. Deletions -/

inductive Deletion
  | session
  | bearer
  | pdp
deriving DecidableEq, Repr

/-- The parse phase of the request's handler ends in `cs`. -/
def Deletion.Parses (env : Env) (rx : RxPacket) (cs : GtpcParseState) : Deletion → Prop
  | .session => receive env rx (Procedure.deleteSession.saved rx) = some cs
  | .bearer => receive env rx (Procedure.deleteBearer.saved rx) = some cs
  | .pdp => ∃ fuel, walkV1 fuel env.mem.stack rx = some (some cs)

def Deletion.store (h : Handle) (env : Env) (t : TunnelTable) (cs : GtpcParseState) :
    Deletion → Outcome
  | .session => Procedure.deleteSession.store h env t cs
  | .bearer => Procedure.deleteBearer.store h env t cs
  | .pdp => deletePdp.store env t cs

/-- What the update compares with the `ebi` column. -/
def Deletion.ebi (cs : GtpcParseState) : Deletion → Nat
  | .session => (ebiLow (cs.item .ebiR)).toNat
  | .bearer => (ebiLow (cs.item .ebiR)).toNat
  | .pdp => cs.nsapi.toNat

structure Deletion.Accepts (d : Deletion) (env : Env) (t : TunnelTable) (cs : GtpcParseState) :
    Prop where
  required : d = .pdp → hasAll cs.flagV1 deletePdp.required = true
  found : DeleteSessionAccepts env t cs

variable {d : Deletion} {env : Env} {rx : RxPacket} {cs : GtpcParseState}

theorem Deletion.Parses.record (h : d.Parses env rx cs) : cs.flag .record = false := by
  cases d with
  | session | bearer => exact (receive_spec h).record.trans (Procedure.saved_record _ rx)
  | pdp =>
    obtain ⟨fuel, hwalk⟩ := h
    exact walkV1_record hwalk

theorem walkV1_gtphTeid {fuel : Nat} {stack : Nat → UInt8}
    (h : walkV1 fuel stack rx = some (some cs)) : cs.gtphTeid = teidOf rx.data := by
  rw [walkV1_eq_loopsV1] at h
  obtain ⟨result, -, hresult⟩ := Option.map_eq_some_iff.mp h
  obtain ⟨cs', -, rfl⟩ := Option.map_eq_some_iff.mp hresult
  rfl

/-- The TEID a deletion works with: the denoted one in version 2, the bytes as they lie in
version 1. -/
theorem Deletion.Parses.gtphTeid (h : d.Parses env rx cs) :
    cs.gtphTeid = headerTeid rx ↔ (d = .pdp → bswap32 (teidOf rx.data) = teidOf rx.data) := by
  cases d with
  | session | bearer =>
    have hteid : cs.gtphTeid = headerTeid rx := (receive_spec h).teid
    simp [hteid]
  | pdp =>
    obtain ⟨fuel, hwalk⟩ := h
    rw [walkV1_gtphTeid hwalk, headerTeid, eq_comm]
    simp

theorem deletePdp_store_cases (env : Env) (t : TunnelTable) (hrec : cs.flag .record = false) :
    DeletionEnds (Deletion.pdp.Accepts env t cs) cs.nsapi.toNat t cs (deletePdp.store env t cs) := by
  have hcases := @deleteStore_cases (fun cs => cs.nsapi.toNat) env t cs (fun _ => rfl) hrec
  by_cases hreq : hasAll cs.flagV1 deletePdp.required = true
  · have hstore : deletePdp.store env t cs = onDeletePdpCtx env t cs := if_pos hreq
    rw [hstore]
    rcases hcases with ⟨hacc, hrest⟩ | ⟨hno, hrest⟩
    · exact .inl ⟨⟨fun _ => hreq, hacc⟩, hrest⟩
    · exact .inr ⟨fun ha => hno ha.found, hrest⟩
  · have hstore : deletePdp.store env t cs = ⟨t, cs, .denied⟩ := if_neg hreq
    rw [hstore]
    exact .inr ⟨fun ha => hreq (ha.required rfl), rfl, rfl⟩

theorem Deletion.store_cases (d : Deletion) (h : Handle) (env : Env) (t : TunnelTable)
    (hrec : cs.flag .record = false) :
    DeletionEnds (d.Accepts env t cs) (d.ebi cs) t cs (d.store h env t cs) := by
  cases d with
  | session | bearer =>
    rcases deleteSessionStore_cases env t hrec with ⟨hacc, hrest⟩ | ⟨hno, hrest⟩
    · exact .inl ⟨⟨by simp, hacc⟩, hrest⟩
    · exact .inr ⟨fun ha => hno ha.found, hrest⟩
  | pdp => exact deletePdp_store_cases env t hrec

/-- **An accepted deletion leaves no row in service under the denoted TEID.** -/
def TakesEffect (d : Deletion) (h : Handle) (env : Env) (rx : RxPacket) (t : TunnelTable)
    (cs : GtpcParseState) : Prop :=
  (d.store h env t cs).verdict = .accepted →
    ∀ r ∈ (d.store h env t cs).table.rows, r.pgwTeid = (headerTeid rx).toNat → r.active ≠ 1

/-- **When an accepted deletion takes effect**: the denoted row is in service, its `ebi` is the
one the update compares with, and a version-1 header reads the same in both byte orders. -/
theorem deletion_takes_effect_iff (d : Deletion) (h : Handle) (env : Env) (rx : RxPacket)
    (t : TunnelTable) (cs : GtpcParseState) (hparse : d.Parses env rx cs) :
    TakesEffect d h env rx t cs ↔
      (d.Accepts env t cs → ∀ r ∈ t.rows, r.pgwTeid = (headerTeid rx).toNat → r.active = 1 →
        (d = .pdp → bswap32 (teidOf rx.data) = teidOf rx.data) ∧ r.ebi = d.ebi cs) := by
  unfold TakesEffect
  rw [← hparse.gtphTeid]
  rcases d.store_cases h env t hparse.record with ⟨hacc, hv, hrows⟩ | ⟨hno, hv, -⟩
  · rw [hrows]
    simp only [hv, true_imp_iff, hacc, forall_mem_map]
    -- the update reaches exactly the rows with its TEID and its `ebi`
    refine forall₂_congr fun r _ => ?_
    have hwhere : whereTeidEbi cs.gtphTeid.toNat (d.ebi cs) r = true ↔
        r.pgwTeid = cs.gtphTeid.toNat ∧ r.ebi = d.ebi cs := by
      simp [whereTeidEbi]
    by_cases hw : whereTeidEbi cs.gtphTeid.toNat (d.ebi cs) r = true
    · obtain ⟨hteid, hebi⟩ := hwhere.mp hw
      rw [if_pos hw]
      refine ⟨fun _ hden _ => ⟨?_, hebi⟩, fun _ _ => by simp [deleteSessionUpd]⟩
      exact UInt32.toNat_inj.mp (hteid.symm.trans hden)
    · rw [if_neg hw]
      refine ⟨fun hkeep hden hact => absurd hact (hkeep hden), fun hmatch hden hact => ?_⟩
      obtain ⟨hteid, hebi⟩ := hmatch hden hact
      exact hw (hwhere.mpr ⟨hden.trans (congrArg UInt32.toNat hteid).symm, hebi⟩)
  · simp [hv, hno]

/-- A bearer without EBI is deleted where the row has EBI 0. -/
theorem deleteBearer_takes_effect :
    Deletion.bearer.Parses calmEnv deleteBearerRequest (savedSeqnoTeid deleteBearerRequest) ∧
      TakesEffect .bearer plainHandle calmEnv deleteBearerRequest subscriberTable
        (savedSeqnoTeid deleteBearerRequest) := by
  have hparse : Deletion.bearer.Parses calmEnv deleteBearerRequest
    (savedSeqnoTeid deleteBearerRequest) := rfl
  refine ⟨hparse, (deletion_takes_effect_iff _ _ _ _ _ _ hparse).mpr fun _ => ?_⟩
  decide +kernel

/-- Two subscribers whose TEIDs are each other's reverse. -/
def reversedTable : TunnelTable :=
  ⟨[subscriber, { subscriber with imsi := 3, msisdn := 4, pgwTeid := 0x05000000, ebi := 5 }],
    by decide⟩

def nsapiCs : GtpcParseState :=
  ((walkV1 8 calmEnv.mem.stack nsapiRequest).get (by decide +kernel)).get (by decide +kernel)

/-- The Delete PDP Context Request for TEID 5 takes the other one out of service. -/
theorem reversedTeid_stays_active :
    Deletion.pdp.Parses calmEnv nsapiRequest nsapiCs ∧ headerTeid nsapiRequest = 5 ∧
      ¬ TakesEffect .pdp plainHandle calmEnv nsapiRequest reversedTable nsapiCs := by
  refine ⟨⟨8, by simp [nsapiCs]⟩, by decide, fun htakes => ?_⟩
  exact absurd (htakes (by decide +kernel) subscriber (by decide +kernel) (by decide)) (by decide)

/-! ## 2. A version-2 session -/

def TunnelTable.others (t : TunnelTable) (imsi : Nat) : List Row :=
  t.rows.filter fun r => r.imsi ≠ imsi

/-- **A session ends as it should**: the deletion is accepted, the row is out of service, and nobody
else's row has changed since before the creation. -/
structure SessionEnds (before : TunnelTable) (imsi : Nat) (o : Outcome) : Prop where
  accepted : o.verdict = .accepted
  inactive : ∃ r ∈ o.table.rows, r.imsi = imsi ∧ r.active = 0
  frame : TunnelTable.others o.table imsi = TunnelTable.others before imsi

theorem others_map_eq_iff {t t' : TunnelTable} {f : Row → Row} (imsi : Nat)
    (hrows : t'.rows = t.rows.map f) (himsi : ∀ r ∈ t.rows, (f r).imsi = r.imsi) :
    TunnelTable.others t' imsi = TunnelTable.others t imsi ↔
      ∀ r ∈ t.rows, r.imsi ≠ imsi → f r = r := by
  have hfilter : TunnelTable.others t' imsi = (TunnelTable.others t imsi).map f := by
    rw [TunnelTable.others, hrows, filter_map]
    congr 1
    exact filter_congr fun r hr => by simp [himsi r hr]
  have hmem : ∀ r, r ∈ TunnelTable.others t imsi ↔ r ∈ t.rows ∧ r.imsi ≠ imsi := by
    simp [TunnelTable.others]
  rw [hfilter]
  constructor
  · intro heq r hr hne
    exact map_inj_left.mp (heq.trans (map_id _).symm) r ((hmem r).mpr ⟨hr, hne⟩)
  · intro hself
    refine (map_congr_left fun r hr => ?_).trans (map_id _)
    exact hself r ((hmem r).mp hr).1 ((hmem r).mp hr).2

def createdRows (h : Handle) (env : Env) (cs : GtpcParseState) (r q : Row) : Row :=
  let q' := preparedRow h (imsiNumOf env cs) (msisdnNumOf env cs) q
  if q.imsi = r.imsi then createSessionSet (onTunnelRecord cs r).withEbi q' else q'

theorem createSessionSet_imsi (cs : GtpcParseState) (r : Row) :
    (createSessionSet cs r).imsi = r.imsi := by
  simp [createSessionSet, createSessionUpd, setSgw]

@[simp] theorem createdRows_imsi (h : Handle) (env : Env) (cs : GtpcParseState) (r q : Row) :
    (createdRows h env cs r q).imsi = q.imsi := by
  unfold createdRows
  split
  · rw [createSessionSet_imsi, preparedRow_imsi]
  · exact preparedRow_imsi h _ _ q

variable {h : Handle} {t : TunnelTable} {r : Row}

theorem CreateSessionAccepts.rows_eq (hrec : cs.flag .record = false)
    (hacc : CreateSessionAccepts h env t cs r) :
    (createSessionStore h env t cs).table.rows = t.rows.map (createdRows h env cs r) := by
  rw [(hacc.spec hrec).2.2, map_map]
  refine map_congr_left fun q _ => ?_
  simp [createdRows]

theorem CreateSessionAccepts.exists_row (hacc : CreateSessionAccepts h env t cs r) :
    ∃ q ∈ t.rows, q.imsi = r.imsi ∧
      r = preparedRow h (imsiNumOf env cs) (msisdnNumOf env cs) q := by
  obtain ⟨q, hq, rfl⟩ := mem_map.mp hacc.finds.1
  exact ⟨q, hq, (preparedRow_imsi h _ _ q).symm, rfl⟩

variable {r q : Row}

/-- The other rows a Create Session can touch have the IMSI of the request, and keep all but
their gateway addresses. -/
theorem CreateSessionAccepts.preparedRow_other (hacc : CreateSessionAccepts h env t cs r)
    (hq : q ∈ t.rows) (hne : q.imsi ≠ r.imsi) :
    preparedRow h (imsiNumOf env cs) (msisdnNumOf env cs) q =
      if q.imsi = imsiNumOf env cs then pgwipSet h q else q := by
  unfold preparedRow
  split
  · rename_i himsi
    -- the row was found by MSISDN, so it has the number and the second statement did not run
    obtain ⟨r₀, hr₀, himsi₀, hr⟩ := hacc.exists_row
    have hother : r₀.imsi ≠ imsiNumOf env cs := fun heq => hne (himsi.trans (heq.symm.trans himsi₀))
    have hsame : r = r₀ := by rw [hr, preparedRow, if_neg hother]
    have hmsisdn : r₀.msisdn = msisdnNumOf env cs := by
      rcases hacc.finds.2 with ⟨-, hlookup⟩ | ⟨-, -, hlookup⟩
      · exact absurd (himsi₀.trans (imsi_of_lookup hlookup)) hother
      · exact hsame ▸ msisdn_of_lookup hlookup
    rw [msisdnSet, if_neg]
    intro hboth
    exact hother ((hacc.ready.msisdn hboth).2 q hq himsi r₀ hr₀ hmsisdn)
  · rfl

theorem CreateSessionAccepts.whereTeidEbi_created (hrec : cs.flag .record = false)
    (hacc : CreateSessionAccepts h env t cs r) (hq : q ∈ t.rows) :
    whereTeidEbi (sessionTeid cs r).toNat (ebiLow (cs.item .ebiB)).toNat
      (createdRows h env cs r q) = decide (q.imsi = r.imsi) := by
  have hrows := hacc.rows_eq hrec
  obtain ⟨r₀, hr₀, himsi₀, -⟩ := hacc.exists_row
  have hteid : (createdRows h env cs r r₀).pgwTeid = (sessionTeid cs r).toNat := by
    simp [createdRows, himsi₀, createSessionSet_pgwTeid]
  have hebi : (createdRows h env cs r r₀).ebi = (ebiLow (cs.item .ebiB)).toNat := by
    simp only [createdRows, himsi₀, if_true, createSessionSet_ebi]
    rfl
  by_cases hi : q.imsi = r.imsi
  · obtain rfl : q = r₀ := eq_of_key imsi_mem_keys hq hr₀ (hi.trans himsi₀.symm)
    simp [whereTeidEbi, hteid, hebi, hi]
  · have hno : (createdRows h env cs r q).pgwTeid ≠ (sessionTeid cs r).toNat := by
      intro heq
      have hmem : ∀ x ∈ t.rows,
          createdRows h env cs r x ∈ (createSessionStore h env t cs).table.rows :=
        fun x hx => hrows ▸ mem_map_of_mem hx
      have hone := eq_of_key pgwTeid_mem_keys (hmem q hq) (hmem r₀ hr₀)
        (heq.trans hteid.symm)
      have himsi := congrArg Row.imsi hone
      rw [createdRows_imsi, createdRows_imsi, himsi₀] at himsi
      exact hi himsi
    simp [whereTeidEbi, hno, hi]

def endedRows (h : Handle) (env : Env) (cs : GtpcParseState) (r q : Row) : Row :=
  if q.imsi = r.imsi then deleteSessionUpd (createdRows h env cs r q) else createdRows h env cs r q

@[simp] theorem endedRows_imsi (h : Handle) (env : Env) (cs : GtpcParseState) (r q : Row) :
    (endedRows h env cs r q).imsi = q.imsi := by
  unfold endedRows
  split <;> simp [deleteSessionUpd]

theorem CreateSessionAccepts.endedRows_other (hacc : CreateSessionAccepts h env t cs r)
    (hq : q ∈ t.rows) :
    (q.imsi ≠ r.imsi → endedRows h env cs r q = q) ↔
      (q.imsi = imsiNumOf env cs → q.imsi ≠ r.imsi → pgwipSet h q = q) := by
  by_cases hi : q.imsi = r.imsi
  · simp [hi]
  · simp only [endedRows, createdRows, hi, if_false, hacc.preparedRow_other hq hi, ne_eq,
      not_false_eq_true, true_imp_iff, ite_eq_right_iff]

/-- **The life of a version-2 session.** A Delete Session Request with the TEID and the EBI of
the creation takes the row out of service. Nobody else's row changes if and only if every other
row with the IMSI had the gateway's own addresses already. -/
theorem session_lifecycle_iff (h : Handle) (env env' : Env) (rx rx' : RxPacket) (t : TunnelTable)
    (cs cs' : GtpcParseState) (r : Row) (pckt : TxPacket)
    (hparse : receive env rx (savedSeqno rx) = some cs) (hacc : CreateSessionAccepts h env t cs r)
    (hsent : createSessionAnswer h rx (createSessionStore h env t cs) = some pckt)
    (hparse' : receive env' rx' (savedSeqnoTeid rx') = some cs')
    (hteid : headerTeid rx' = controlTeid pckt)
    (hebi : ebiLow (cs'.item .ebiR) = ebiLow (cs.item .ebiB)) (hdb : ∀ n, env'.db n = true) :
    SessionEnds t r.imsi (deleteSessionStore env' (createSessionStore h env t cs).table cs') ↔
      ∀ q ∈ t.rows, q.imsi = imsiNumOf env cs → q.imsi ≠ r.imsi → pgwipSet h q = q := by
  have hrec : cs.flag .record = false := (receive_spec hparse).record
  have hrec' : cs'.flag .record = false := (receive_spec hparse').record
  obtain ⟨hv, hcs, -⟩ := hacc.spec hrec
  have hrows := hacc.rows_eq hrec
  have hkey : cs'.gtphTeid = sessionTeid cs r := by
    have hsaved : cs'.gtphTeid = headerTeid rx' := (receive_spec hparse').teid
    rw [hsaved, hteid, createSessionAnswer_controlTeid hv hsent, hcs, withEbi_pgwTeid]
  obtain ⟨r₀, hr₀, himsi₀, -⟩ := hacc.exists_row
  have hmeets : ∀ q ∈ t.rows, whereTeidEbi cs'.gtphTeid.toNat (ebiLow (cs'.item .ebiR)).toNat
      (createdRows h env cs r q) = decide (q.imsi = r.imsi) := by
    rw [hkey, hebi]
    exact fun q hq => hacc.whereTeidEbi_created hrec hq
  have haccepts : DeleteSessionAccepts env' (createSessionStore h env t cs).table cs' := by
    have hr₀teid := hmeets r₀ hr₀
    simp only [himsi₀, decide_true, whereTeidEbi, Bool.and_eq_true, decide_eq_true_eq] at hr₀teid
    exact ⟨hdb 0, hdb 1, _, hrows ▸ mem_map_of_mem hr₀, hr₀teid.1⟩
  rcases deleteSessionStore_cases env' (createSessionStore h env t cs).table hrec' with
    ⟨-, hv', hrows'⟩ | ⟨hno, -⟩
  · have hfinal : (deleteSessionStore env' (createSessionStore h env t cs).table cs').table.rows =
        t.rows.map (endedRows h env cs r) := by
      rw [hrows', hrows, map_map]
      refine map_congr_left fun q hq => ?_
      simp [endedRows, hmeets q hq]
    have hinactive : ∃ x ∈ (deleteSessionStore env' (createSessionStore h env t cs).table
        cs').table.rows, x.imsi = r.imsi ∧ x.active = 0 := by
      rw [hfinal]
      exact ⟨_, mem_map_of_mem hr₀, by simp [himsi₀, endedRows, deleteSessionUpd]⟩
    have hframe := (others_map_eq_iff r.imsi hfinal fun q _ => endedRows_imsi h env cs r q).trans
      (forall₂_congr fun q hq => hacc.endedRows_other hq)
    rw [← hframe]
    exact ⟨fun hends => hends.frame, fun hother => ⟨hv', hinactive, hother⟩⟩
  · exact absurd haccepts hno

def deleteSessionRequest : RxPacket where
  data := ⟨[0x48, 36, 0, 13, 0x50, 0, 0, 5, 0, 0, 3, 0, 73, 0, 1, 0, 5], fun _ => 0⟩
  datalen := 17
  saddr := ⟨2, 2123, 1⟩
  caddr := ⟨2, 2123, 2⟩

def deleteCs : GtpcParseState :=
  (receive calmEnv deleteSessionRequest (savedSeqnoTeid deleteSessionRequest)).get
    (by decide +kernel)

theorem created_session_ends :
    SessionEnds provisionedTable provisioned.imsi
      (deleteSessionStore calmEnv createdStore.table deleteCs) :=
  (session_lifecycle_iff plainHandle calmEnv calmEnv createSessionRequest deleteSessionRequest
    provisionedTable createdCs deleteCs provisioned createdResponse (Option.some_get _).symm
    created_accepts (Option.some_get _).symm (Option.some_get _).symm (by decide +kernel)
    (by decide +kernel) (fun _ => rfl)).mpr (by decide +kernel)

def servedHandle : Handle :=
  { plainHandle with serverGtpc := some [49, 48, 46, 48, 46, 48, 46, 57] }

/-- The provisioned subscriber and somebody without an IMSI. -/
def strangerTable : TunnelTable :=
  ⟨[provisioned, { subscriber with imsi := 0, msisdn := 7, pgwTeid := 9, active := 9 }],
    by decide⟩

def noImsiRequest : RxPacket :=
  { createSessionRequest with
    data := ⟨[0x48, 32, 0, 96] ++ (createSessionRequest.data.bytes.take 12).drop 4 ++
      createSessionRequest.data.bytes.drop 24, fun _ => 0⟩
    datalen := 100 }

def noImsiCs : GtpcParseState :=
  (receive calmEnv noImsiRequest (savedSeqno noImsiRequest)).get (by decide +kernel)

def noImsiStore : Outcome := createSessionStore servedHandle calmEnv strangerTable noImsiCs

def noImsiResponse : TxPacket :=
  (createSessionAnswer servedHandle noImsiRequest noImsiStore).get (by decide +kernel)

theorem noImsi_accepts :
    CreateSessionAccepts servedHandle calmEnv strangerTable noImsiCs provisioned := by
  decide +kernel

/-- The stranger's row has the gateway's addresses. -/
theorem stranger_row_changed :
    CreateSessionAccepts servedHandle calmEnv strangerTable noImsiCs provisioned ∧
      headerTeid deleteSessionRequest = controlTeid noImsiResponse ∧
      ebiLow (deleteCs.item .ebiR) = ebiLow (noImsiCs.item .ebiB) ∧
      ¬ SessionEnds strangerTable provisioned.imsi
        (deleteSessionStore calmEnv noImsiStore.table deleteCs) := by
  refine ⟨noImsi_accepts, by decide +kernel, by decide +kernel, fun hends => ?_⟩
  exact absurd hends.frame (by decide +kernel)

/-! ## 3. A denied Create Session -/

theorem createSessionPrepare_rows (h : Handle) (env : Env) (t : TunnelTable)
    (imsiNum msisdnNum : Nat) :
    (createSessionPrepare h env t imsiNum msisdnNum).1.rows = t.rows ∨
      (createSessionPrepare h env t imsiNum msisdnNum).1.rows =
        t.rows.map (fun r => if r.imsi = imsiNum then pgwipSet h r else r) ∨
      (createSessionPrepare h env t imsiNum msisdnNum).1.rows =
        t.rows.map (preparedRow h imsiNum msisdnNum) := by
  have hspec := (createSessionPrepare_spec h env t imsiNum msisdnNum).2
  unfold createSessionPrepare at hspec ⊢
  cases hpg : createSessionPgwip h env t imsiNum with
  | none => exact .inl rfl
  | some t1 =>
    rw [hpg] at hspec
    dsimp only at hspec ⊢
    cases hms : createSessionMsisdn env t1 imsiNum msisdnNum with
    | none => exact .inr (.inl (createSessionPgwip_rows hpg))
    | some t2 =>
      rw [hms] at hspec
      exact .inr (.inr (hspec rfl))

theorem createSessionStore_denied (hdenied : (createSessionStore h env t cs).verdict = .denied) :
    (hasAll cs.flag includedAll = false ∧ (createSessionStore h env t cs).table = t) ∨
      (hasAll cs.flag includedAll = true ∧ (createSessionStore h env t cs).table =
        (createSessionPrepare h env t (imsiNumOf env cs) (msisdnNumOf env cs)).1) := by
  unfold createSessionStore at hdenied ⊢
  by_cases hinc : hasAll cs.flag includedAll = true
  · refine .inr ⟨hinc, ?_⟩
    rw [if_pos hinc] at hdenied ⊢
    split
    · rename_i hprep
      rw [hprep]
    · rename_i hprep
      rw [hprep] at hdenied ⊢
      dsimp only at hdenied ⊢
      split
      · rename_i hfound
        rw [if_pos hfound] at hdenied
        split
        · rfl
        · rename_i hq
          rw [hq] at hdenied
          exact absurd hdenied (by simp)
      · rfl
  · refine .inl ⟨by simpa using hinc, ?_⟩
    rw [if_neg hinc]

/-- **What a denied Create Session leaves**: the table as it was, or the row with the IMSI with
the gateway's addresses in it, or with the request's MSISDN as well. -/
theorem denied_createSession_table (h : Handle) (env : Env) (t : TunnelTable) (cs : GtpcParseState)
    (hdenied : (createSessionStore h env t cs).verdict = .denied) :
    ((createSessionStore h env t cs).table.rows = t.rows ∨
      (createSessionStore h env t cs).table.rows =
        t.rows.map (fun r => if r.imsi = imsiNumOf env cs then pgwipSet h r else r) ∨
      (createSessionStore h env t cs).table.rows =
        t.rows.map (preparedRow h (imsiNumOf env cs) (msisdnNumOf env cs))) ∧
    (hasAll cs.flag includedAll = false ∨ (∀ r ∈ t.rows, r.imsi ≠ imsiNumOf env cs) →
      (createSessionStore h env t cs).table.rows = t.rows) := by
  rcases createSessionStore_denied hdenied with ⟨hmissing, htable⟩ | ⟨hinc, htable⟩
  · rw [htable]
    exact ⟨.inl rfl, fun _ => rfl⟩
  · rw [htable]
    have hrows := createSessionPrepare_rows h env t (imsiNumOf env cs) (msisdnNumOf env cs)
    refine ⟨hrows, fun hunchanged => ?_⟩
    have hnone : ∀ r ∈ t.rows, r.imsi ≠ imsiNumOf env cs := hunchanged.resolve_left (by simp [hinc])
    rcases hrows with hsame | hpgwip | hboth
    · exact hsame
    · rw [hpgwip]
      exact (map_congr_left fun r hr => if_neg (hnone r hr)).trans (map_id _)
    · rw [hboth]
      exact (map_congr_left fun r hr => if_neg (hnone r hr)).trans (map_id _)

def suspendedTable : TunnelTable := ⟨[neighbour, { provisioned with active := 9 }], by decide⟩

/-- The second row's Create Session is denied and has set the gateway addresses. -/
theorem suspended_denied_changed :
    (createSessionStore servedHandle calmEnv suspendedTable createdCs).verdict = .denied ∧
      (createSessionStore servedHandle calmEnv suspendedTable createdCs).table.rows ≠
        suspendedTable.rows := by
  decide +kernel

def unknownTable : TunnelTable := ⟨[neighbour], by simp⟩

/-- The Create Session of a suspended subscriber leaves the neighbour's row alone, that of an unknown
one the whole table. -/
theorem unknown_denied_table :
    ((createSessionStore servedHandle calmEnv suspendedTable createdCs).verdict = .denied ∧
      (createSessionStore servedHandle calmEnv suspendedTable createdCs).table.rows.head? =
        some neighbour) ∧
    (createSessionStore servedHandle calmEnv unknownTable createdCs).verdict = .denied ∧
      (createSessionStore servedHandle calmEnv unknownTable createdCs).table.rows = [neighbour] := by
  have hother : neighbour.imsi ≠ imsiNumOf calmEnv createdCs := by decide +kernel
  have hdenied : (createSessionStore servedHandle calmEnv suspendedTable createdCs).verdict =
    .denied := by decide +kernel
  have hunknown : (createSessionStore servedHandle calmEnv unknownTable createdCs).verdict =
    .denied := by decide +kernel
  refine ⟨⟨hdenied, ?_⟩, hunknown, (denied_createSession_table _ _ _ _ hunknown).2 (.inr ?_)⟩
  · rcases (denied_createSession_table _ _ _ _ hdenied).1 with hrows | hrows | hrows <;> rw [hrows]
    · rfl
    · exact congrArg some (if_neg hother)
    · exact congrArg some (if_neg hother)
  · exact fun r hr => mem_singleton.mp hr ▸ hother

/-! ## 4. A version-1 context -/

/-- The TEID in the control-plane element of a Create PDP Context Response, behind 2 + 2 + 2 + 5
bytes. -/
def controlTeidV1 (pckt : TxPacket) : UInt32 := bswap32 (load32 pckt.data 24)

variable {junk : UInt8} {pckt : TxPacket}

theorem acceptCreatePdpCtx_controlTeid {reqtypeV1 : UInt8}
    (h : acceptCreatePdpCtx junk rx reqtypeV1 cs = some pckt) :
    controlTeidV1 pckt = cs.db.pgwTeid := by
  obtain ⟨-, -, -, -, hdrop⟩ := responseV1_spec h
  have hget : ∀ j, pckt.data.getD (12 + j) 0 = (pckt.data.drop 12).getD j 0 := by
    simp [getD_eq_getElem?_getD]
  have hbytes : load32 pckt.data 24 = le32 (byteOf (bswap32 cs.db.pgwTeid) 0)
      (byteOf (bswap32 cs.db.pgwTeid) 1) (byteOf (bswap32 cs.db.pgwTeid) 2)
      (byteOf (bswap32 cs.db.pgwTeid) 3) := by
    unfold load32
    rw [hget 12, hget 13, hget 14, hget 15, hdrop]
    rfl
  rw [controlTeidV1, hbytes, le32_byteOf, bswap32_bswap32]

def LooksUp (o : Outcome) (imsi : Nat) : Prop :=
  o.cs.flag .record = true ∧ o.cs.db.imsiNum = imsi

theorem dbExecute_finds_iff {p : Row → Bool} {teid : Nat} {ok : Bool}
    (hp : ∀ r, p r = true → r.pgwTeid = teid)
    (hrec : cs.flag .record = false) (hok : ok = true) (hr : r ∈ t.rows) :
    LooksUp ⟨t, dbExecute ok t p cs, .denied⟩ r.imsi ↔ p r = true := by
  unfold LooksUp
  dsimp only
  constructor
  · rintro ⟨hfound, himsi⟩
    rcases dbExecute_cases (t := t) pgwTeid_mem_keys hp ok cs with ⟨hcs, -⟩ | ⟨r', hr', -, hpr, hcs⟩
    · rw [hcs, hrec] at hfound
      exact absurd hfound (by simp)
    · rw [hcs] at himsi
      obtain rfl : r' = r := eq_of_key imsi_mem_keys hr' hr himsi
      exact hpr
  · intro hpr
    rw [dbExecute_of_found pgwTeid_mem_keys hp cs hr hok hpr]
    exact ⟨onTunnelRecord_record cs r, rfl⟩

theorem onUpdatePdpCtx_looksUp (env : Env) (t : TunnelTable) (cs : GtpcParseState) (imsi : Nat) :
    LooksUp (onUpdatePdpCtx env t cs) imsi ↔
      LooksUp ⟨t, dbExecute (env.db 0) t (modifyBearerLookup (bswap32 cs.gtphTeid).toNat) cs,
        .denied⟩ imsi := by
  unfold onUpdatePdpCtx LooksUp
  dsimp only
  split
  · split
    · split <;> rfl
    · rfl
  · rfl

theorem onDeletePdpCtx_looksUp (env : Env) (t : TunnelTable) (cs : GtpcParseState) (imsi : Nat) :
    LooksUp (onDeletePdpCtx env t cs) imsi ↔
      LooksUp ⟨t, dbExecute (env.db 0) t (deleteSessionLookup cs.gtphTeid.toNat) cs, .denied⟩
        imsi := by
  unfold onDeletePdpCtx LooksUp
  dsimp only
  split
  · split <;> rfl
  · rfl

theorem onCreatePdpCtx_cs (env : Env) (t : TunnelTable) (cs : GtpcParseState) :
    (onCreatePdpCtx env t cs).cs =
      dbExecute (env.db 0) t (createSessionImsiLookup (imsiNumOf env cs)) cs := by
  unfold onCreatePdpCtx
  dsimp only
  split
  · split <;> rfl
  · rfl

theorem CreatePdpAccepts.spec
    (hrec : cs.flag .record = false) (hacc : CreatePdpAccepts env t cs r) :
    (onCreatePdpCtx env t cs).verdict = .accepted ∧
      (onCreatePdpCtx env t cs).cs = onTunnelRecord cs r ∧
      (onCreatePdpCtx env t cs).table.rows =
        t.rows.map fun r' => if r'.imsi = r.imsi then pdpRow cs r r' else r' := by
  have hkey : ∀ q, createSessionImsiLookup (imsiNumOf env cs) q = true → q.imsi = imsiNumOf env cs :=
    fun _ => imsi_of_lookup
  have hcs := dbExecute_of_found imsi_mem_keys hkey cs hacc.mem hacc.found.1 hacc.found.2
  rcases onCreatePdpCtx_cases env t hrec with ⟨r', hacc', hv, hrows⟩ | ⟨hno, -⟩
  · obtain rfl : r' = r := eq_of_key imsi_mem_keys hacc'.mem hacc.mem
      ((hkey r' hacc'.found.2).trans (hkey r hacc.found.2).symm)
    exact ⟨hv, (onCreatePdpCtx_cs env t cs).trans hcs, hrows⟩
  · exact absurd hacc (hno r)

/-- **A context is found again**: an Update and a Delete PDP Context Request look up the
subscriber's row, and an accepted deletion takes it out of service. -/
structure ContextFound (imsi : Nat) (t : TunnelTable) (envU : Env) (csU : GtpcParseState)
    (envD : Env) (csD : GtpcParseState) : Prop where
  update : hasAll csU.flagV1 updatePdp.required = true → envU.db 0 = true →
    LooksUp (updatePdp.store envU t csU) imsi
  delete : hasAll csD.flagV1 deletePdp.required = true → envD.db 0 = true →
    LooksUp (deletePdp.store envD t csD) imsi
  deleted : (deletePdp.store envD t csD).verdict = .accepted →
    ∃ r ∈ (deletePdp.store envD t csD).table.rows, r.imsi = imsi ∧ r.active = 0

/-- The row of a context with `teid`, as the creation leaves it. -/
structure ContextRow (t : TunnelTable) (imsi : Nat) (teid : UInt32) (q : Row) : Prop where
  mem : q ∈ t.rows
  imsi_eq : q.imsi = imsi
  active : q.active = 1
  ebi : q.ebi = 0
  teid_eq : q.pgwTeid = teid.toNat

section

variable {t : TunnelTable} {imsi : Nat} {teid : UInt32} {q : Row} (hrow : ContextRow t imsi teid q)
include hrow

variable {env : Env} {cs : GtpcParseState}

theorem ContextRow.update (hrec : cs.flag .record = false) (hteid : bswap32 cs.gtphTeid = teid)
    (hreq : hasAll cs.flagV1 updatePdp.required = true) (hdb : env.db 0 = true) :
    LooksUp (updatePdp.store env t cs) imsi := by
  have hstore : updatePdp.store env t cs = onUpdatePdpCtx env t cs := if_pos hreq
  rw [← hrow.imsi_eq, hstore, onUpdatePdpCtx_looksUp,
    dbExecute_finds_iff (fun _ h => (teid_of_modifyLookup h).1) hrec hdb hrow.mem]
  simp [modifyBearerLookup, hteid, hrow.teid_eq, hrow.active]

theorem ContextRow.delete_iff (hrec : cs.flag .record = false) (hteid : cs.gtphTeid = bswap32 teid)
    (hreq : hasAll cs.flagV1 deletePdp.required = true) (hdb : env.db 0 = true) :
    LooksUp (deletePdp.store env t cs) imsi ↔ bswap32 teid = teid := by
  have hstore : deletePdp.store env t cs = onDeletePdpCtx env t cs := if_pos hreq
  rw [← hrow.imsi_eq, hstore, onDeletePdpCtx_looksUp,
    dbExecute_finds_iff (fun _ h => by simpa [deleteSessionLookup] using h) hrec hdb hrow.mem]
  simp only [deleteSessionLookup, hteid, hrow.teid_eq, decide_eq_true_eq, UInt32.toNat_inj]
  exact eq_comm

theorem ContextRow.meets_iff (hteid : cs.gtphTeid = bswap32 teid) :
    whereTeidEbi cs.gtphTeid.toNat cs.nsapi.toNat q = true ↔
      bswap32 teid = teid ∧ cs.nsapi = 0 := by
  simp only [whereTeidEbi, hrow.teid_eq, hrow.ebi, hteid, Bool.and_eq_true, decide_eq_true_eq,
    UInt32.toNat_inj]
  rw [eq_comm, eq_comm (a := 0), ← UInt8.toNat_zero, UInt8.toNat_inj]

end

theorem CreatePdpAccepts.created_row (hrec : cs.flag .record = false)
    (hreq : hasAll cs.flagV1 createPdp.required = true)
    (hacc : CreatePdpAccepts env t cs r)
    (hsent : createPdp.answer junk rx (createPdp.store env t cs) =
      some pckt) :
    ∃ q, ContextRow (createPdp.store env t cs).table r.imsi (controlTeidV1 pckt) q := by
  have hstore : createPdp.store env t cs = onCreatePdpCtx env t cs := if_pos hreq
  obtain ⟨hv, hcs, hrows⟩ := hacc.spec hrec
  rw [hstore] at hsent ⊢
  have hteid : controlTeidV1 pckt = UInt32.ofNat r.pgwTeid := by
    unfold PdpProcedure.answer at hsent
    rw [hv] at hsent
    rw [acceptCreatePdpCtx_controlTeid hsent, hcs]
    rfl
  refine ⟨pdpRow cs r r, ?_, rfl, rfl, rfl, by rw [hteid]; rfl⟩
  rw [hrows]
  exact mem_map.mpr ⟨r, hacc.mem, if_pos rfl⟩

/-- **The life of a version-1 context.** Its TEID finds the row for an update. For a deletion
it does if and only if the TEID reads the same in both byte orders and the NSAPI is the 0 that
the creation has put into `ebi`. -/
theorem pdp_lifecycle_iff (env envU envD : Env) (rx rxU rxD : RxPacket) (t : TunnelTable)
    (cs csU csD : GtpcParseState) (r : Row) (junk : UInt8) (pckt : TxPacket)
    (hparse : ∃ fuel, walkV1 fuel env.mem.stack rx = some (some cs))
    (hreq : hasAll cs.flagV1 createPdp.required = true)
    (hacc : CreatePdpAccepts env t cs r)
    (hsent : createPdp.answer junk rx (createPdp.store env t cs) =
      some pckt) (hparseU : ∃ fuel, walkV1 fuel envU.mem.stack rxU = some (some csU))
    (hteidU : headerTeid rxU = controlTeidV1 pckt)
    (hparseD : ∃ fuel, walkV1 fuel envD.mem.stack rxD = some (some csD))
    (hteidD : headerTeid rxD = controlTeidV1 pckt) :
    ContextFound r.imsi (createPdp.store env t cs).table envU csU envD csD ↔
      (hasAll csD.flagV1 deletePdp.required = true → envD.db 0 = true →
        bswap32 (controlTeidV1 pckt) = controlTeidV1 pckt ∧
          (envD.db 1 = true → csD.nsapi = 0)) := by
  obtain ⟨fuel, hwalk⟩ := hparse
  obtain ⟨fuelU, hwalkU⟩ := hparseU
  obtain ⟨fuelD, hwalkD⟩ := hparseD
  have hrecU := walkV1_record hwalkU
  have hrecD := walkV1_record hwalkD
  obtain ⟨q, hrow⟩ := hacc.created_row (walkV1_record hwalk) hreq hsent
  have hkeyU : bswap32 csU.gtphTeid = controlTeidV1 pckt :=
    (congrArg bswap32 (walkV1_gtphTeid hwalkU)).trans hteidU
  have hkeyD : csD.gtphTeid = bswap32 (controlTeidV1 pckt) := by
    rw [walkV1_gtphTeid hwalkD, ← hteidD, headerTeid, bswap32_bswap32]
  generalize (createPdp.store env t cs).table = t1 at hrow ⊢
  generalize controlTeidV1 pckt = T at *
  constructor
  · intro hfound hreqD hdb0
    have hsame : bswap32 T = T :=
      (hrow.delete_iff hrecD hkeyD hreqD hdb0).mp (hfound.delete hreqD hdb0)
    refine ⟨hsame, fun hdb1 => ?_⟩
    rcases deletePdp_store_cases envD t1 hrecD with ⟨-, hv, hrows⟩ | ⟨hno, -⟩
    · have hinactive := hfound.deleted hv
      rw [← hrow.imsi_eq, exists_inactive_iff hrows hrow.mem hrow.active] at hinactive
      exact ((hrow.meets_iff hkeyD).mp hinactive).2
    · exact absurd ⟨fun _ => hreqD, hdb0, hdb1, q, hrow.mem, by rw [hkeyD, hsame, hrow.teid_eq]⟩ hno
  · intro hcond
    refine ⟨hrow.update hrecU hkeyU, fun hreqD hdb =>
      (hrow.delete_iff hrecD hkeyD hreqD hdb).mpr (hcond hreqD hdb).1, fun hv => ?_⟩
    rcases deletePdp_store_cases envD t1 hrecD with ⟨hacc', -, hrows⟩ | ⟨-, hv', -⟩
    · obtain ⟨hdb0, hdb1, -⟩ := hacc'.found
      obtain ⟨hsame, hnsapi⟩ := hcond (hacc'.required rfl) hdb0
      rw [← hrow.imsi_eq, exists_inactive_iff hrows hrow.mem hrow.active]
      exact (hrow.meets_iff hkeyD).mpr ⟨hsame, hnsapi hdb1⟩
    · exact absurd (hv.symm.trans hv') (by simp)

def createPdpRequest : RxPacket where
  data := ⟨[0x32, 16, 0, 49, 0, 0, 0, 0, 0, 1, 0, 0, 2, 0x44, 0x10, 0x00, 0x00, 0x00, 0x00, 0x00,
    0xf1, 16, 0, 0, 0, 8, 17, 0, 0, 0, 7, 20, 5, 133, 0, 4, 10, 0, 0, 1, 133, 0, 4, 10, 0, 0, 2,
    134, 0, 7, 0x91, 0x18, 0x09, 0x21, 0x43, 0x65, 0x87], fun _ => 0⟩
  datalen := 57
  saddr := ⟨2, 2123, 1⟩
  caddr := ⟨2, 2123, 2⟩

def contextRequest (type : UInt8) (teid : List UInt8) (nsapi : UInt8) : RxPacket where
  data := ⟨[0x32, type, 0, 25] ++ teid ++ [0, 2, 0, 0, 20, nsapi, 16, 0, 0, 0, 8,
    133, 0, 4, 10, 0, 0, 1, 133, 0, 4, 10, 0, 0, 2], fun _ => 0⟩
  datalen := 33
  saddr := ⟨2, 2123, 1⟩
  caddr := ⟨2, 2123, 2⟩

def parsedV1 (rx : RxPacket) : GtpcParseState :=
  ((walkV1 16 calmEnv.mem.stack rx).getD none).getD GtpcParseState.zero

theorem parsedV1_parses (h : ((walkV1 16 calmEnv.mem.stack rx).getD none).isSome = true) :
    ∃ fuel, walkV1 fuel calmEnv.mem.stack rx = some (some (parsedV1 rx)) := by
  refine ⟨16, ?_⟩
  unfold parsedV1
  cases hwalk : walkV1 16 calmEnv.mem.stack rx with
  | none => simp [hwalk] at h
  | some result =>
    cases result with
    | none => simp [hwalk] at h
    | some cs => rfl

def withTeid (teid : Nat) : Row := { provisioned with pgwTeid := teid }

def teidTable (teid : Nat) : TunnelTable := ⟨[withTeid teid], by simp⟩

theorem createPdp_accepts (teid : Nat) :
    CreatePdpAccepts calmEnv (teidTable teid) (parsedV1 createPdpRequest) (withTeid teid) where
  mem := by simp [teidTable]
  found :=
    have hlookup : createSessionImsiLookup (imsiNumOf calmEnv (parsedV1 createPdpRequest))
      provisioned = true := by decide +kernel
    ⟨rfl, hlookup⟩
  stored := ⟨rfl, by simp [teidTable]⟩

def createdPdp (teid : Nat) : Outcome :=
  createPdp.store calmEnv (teidTable teid) (parsedV1 createPdpRequest)

def mirroredResponse : TxPacket :=
  (createPdp.answer 0 createPdpRequest (createdPdp 0x44333344)).get (by decide +kernel)

theorem mirrored_context_found :
    controlTeidV1 mirroredResponse = 0x44333344 ∧
      ContextFound provisioned.imsi (createdPdp 0x44333344).table
        calmEnv (parsedV1 (contextRequest 18 [0x44, 0x33, 0x33, 0x44] 5))
        calmEnv (parsedV1 (contextRequest 20 [0x44, 0x33, 0x33, 0x44] 0)) :=
  ⟨by decide +kernel, (pdp_lifecycle_iff calmEnv calmEnv calmEnv createPdpRequest
    (contextRequest 18 [0x44, 0x33, 0x33, 0x44] 5) (contextRequest 20 [0x44, 0x33, 0x33, 0x44] 0)
    (teidTable 0x44333344) _ _ _ (withTeid 0x44333344) 0 mirroredResponse
    (parsedV1_parses (by decide +kernel)) (by decide +kernel) (createPdp_accepts _)
    (Option.some_get _).symm (parsedV1_parses (by decide +kernel)) (by decide +kernel)
    (parsedV1_parses (by decide +kernel)) (by decide +kernel)).mpr
      fun _ _ => ⟨by decide +kernel, fun _ => by decide +kernel⟩⟩

theorem context_not_found :
    (createPdp.answer 0 createPdpRequest (createdPdp 5)).map controlTeidV1 = some 5 ∧
      headerTeid (contextRequest 20 [0, 0, 0, 5] 5) = 5 ∧
      ¬ ContextFound provisioned.imsi (createdPdp 5).table
        calmEnv (parsedV1 (contextRequest 18 [0, 0, 0, 5] 5))
        calmEnv (parsedV1 (contextRequest 20 [0, 0, 0, 5] 5)) := by
  refine ⟨by decide +kernel, by decide, fun hfound => ?_⟩
  exact absurd (hfound.delete (by decide +kernel) rfl).1 (by decide +kernel)

end MixiPgw.Ctrl
