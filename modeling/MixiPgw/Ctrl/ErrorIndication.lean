/-
# GTP-U Error Indications

An Error Indication names a session by the peer's user-plane TEID and address, and
`event_gtpu_other_req` takes the rows with both out of service. Create Session and Modify Bearer
store the TEID as the host loads it; the Error Indication turns the same bytes round first. So it
meets the session it names, and no other, exactly when the TEID reads the same in both byte orders
(`errorIndication_exact_iff`).
-/
import MixiPgw.Ctrl.EbiTeid

namespace MixiPgw.Ctrl

open Bytes CString Lib Option

/-! ## 1. The handler -/

def gtpuErrInd : UInt8 := 26

/-- The offset of `gtpu_err_indication_t`: any of the three flags adds four bytes. -/
def errIndOffset (rx : RxPacket) : Nat := 8 + if rx.data.byte 0 &&& 0x07 ≠ 0 then 4 else 0

/-- `perrind->teid.val`, behind a type byte. -/
def errIndTeid (rx : RxPacket) : UInt32 :=
  let o := errIndOffset rx + 1
  le32 (rx.data.byte o) (rx.data.byte (o + 1)) (rx.data.byte (o + 2)) (rx.data.byte (o + 3))

/-- `perrind->peer.val`, behind a second type byte and a length. -/
def errIndPeer (rx : RxPacket) : UInt32 :=
  let o := errIndOffset rx + 8
  le32 (rx.data.byte o) (rx.data.byte (o + 1)) (rx.data.byte (o + 2)) (rx.data.byte (o + 3))

/-- The `WHERE` of `ERROR_IND_UPD_SQL`. -/
def whereSgwGtpu (teid : Nat) (ip : Text) (r : Row) : Bool :=
  r.sgwGtpuTeid = teid && r.sgwGtpuIpv = ip

def errorIndUpd : Row → Row := deleteSessionUpd

/-- A packet the branch acts on: the type, and the one length the two elements have. -/
def IsErrInd (rx : RxPacket) : Prop :=
  rx.data.byte 1 = gtpuErrInd ∧ errIndOffset rx + 12 = rx.datalen

instance (rx : RxPacket) : Decidable (IsErrInd rx) := inferInstanceAs (Decidable (_ ∧ _))

/-- The Error Indication branch of `event_gtpu_other_req`; `ok` is whether the server answers, and a
failure is only logged. -/
def errorIndication (ok : Bool) (rx : RxPacket) (t : TunnelTable) : TunnelTable :=
  if IsErrInd rx then
    (dbQuery ok t (whereSgwGtpu (bswap32 (errIndTeid rx)).toNat (inetNtoa (errIndPeer rx)))
      errorIndUpd).getD t
  else t

theorem errorIndication_rows (ok : Bool) {rx : RxPacket} (hind : IsErrInd rx) (t : TunnelTable) :
    (errorIndication ok rx t).rows = t.rows.map fun r =>
      if ok && whereSgwGtpu (bswap32 (errIndTeid rx)).toNat (inetNtoa (errIndPeer rx)) r then
        errorIndUpd r
      else r := by
  rw [errorIndication, if_pos hind]
  have hkeep := dbQuery_keepKeys ok (t := t)
    (p := whereSgwGtpu (bswap32 (errIndTeid rx)).toNat (inetNtoa (errIndPeer rx)))
    (f := errorIndUpd) (fun _ => ⟨rfl, rfl, rfl⟩)
  cases ok with
  | false => simp [dbQuery]
  | true =>
    obtain ⟨t', ht'⟩ := hkeep.mpr rfl
    rw [ht', getD_some, dbQuery_rows ht']
    simp

/-! ## 2. What is recorded of the peer -/

/-- The request is accepted for a row and records its user-plane F-TEID: a Create Session, or a
Modify Bearer with both TEIDs. -/
def Procedure.Records (h : Handle) (env : Env) (t : TunnelTable) (cs : GtpcParseState) (r : Row) :
    Procedure → Prop
  | .createSession => CreateSessionAccepts h env t cs r
  | .modifyBearer => ModifyBearerAccepts env t cs r ∧ bothTeids cs = true
  | .deleteSession => False
  | .deleteBearer => False

structure HoldsFteid (cs : GtpcParseState) (q : Row) : Prop where
  active : q.active = 1
  teid : q.sgwGtpuTeid = (teidGrekey (cs.item .uTeid)).toNat
  ip : q.sgwGtpuIpv = fteidIp (cs.item .uTeid)

theorem HoldsFteid.congr {cs cs' : GtpcParseState} {q : Row} (h : HoldsFteid cs' q)
    (hitem : cs'.item .uTeid = cs.item .uTeid) : HoldsFteid cs q :=
  ⟨h.active, hitem ▸ h.teid, hitem ▸ h.ip⟩

theorem createSessionSet_holdsFteid (cs : GtpcParseState) (r : Row) :
    HoldsFteid cs (createSessionSet cs r) where
  active := createSessionSet_active cs r
  teid := by
    unfold createSessionSet createSessionUpd setRestartCounter
    split <;> rfl
  ip := by
    unfold createSessionSet createSessionUpd setRestartCounter
    split <;> rfl

theorem modifyBearerSet_holdsFteid (cs : GtpcParseState) (r : Row) :
    HoldsFteid cs (modifyBearerSet cs r) := by
  constructor <;>
  · unfold modifyBearerSet modifyBearerUpd setRestartCounter setRat
    split <;> split <;> rfl

variable {cs : GtpcParseState}

theorem modifiedRow_holdsFteid (hboth : bothTeids cs = true) (r r' : Row) :
    HoldsFteid cs (modifiedRow cs r r') := by
  have hfirst : HoldsFteid cs (firstModifiedRow cs r r') := by
    have hset : firstModifiedRow cs r r' = modifyBearerSet (onTunnelRecord cs r).withEbi r' :=
      if_pos hboth
    rw [hset]
    exact (modifyBearerSet_holdsFteid (onTunnelRecord cs r).withEbi r').congr rfl
  unfold modifiedRow
  split
  · exact ⟨hfirst.active, hfirst.teid, hfirst.ip⟩
  · exact hfirst

theorem Procedure.Records.holdsFteid {p : Procedure} {h : Handle} {env : Env} {t : TunnelTable}
    {r q : Row} (hrec : cs.flag .record = false) (hp : p.Records h env t cs r)
    (hq : q ∈ (p.store h env t cs).table.rows) (himsi : q.imsi = r.imsi) : HoldsFteid cs q := by
  cases p with
  | createSession =>
    obtain ⟨-, -, hrows⟩ := CreateSessionAccepts.spec hrec hp
    simp only [Procedure.store, hrows] at hq
    obtain ⟨q', -, rfl⟩ := List.mem_map.mp hq
    by_cases hq' : q'.imsi = r.imsi
    · rw [if_pos hq']
      exact (createSessionSet_holdsFteid (onTunnelRecord cs r).withEbi q').congr rfl
    · rw [if_neg hq'] at himsi
      exact absurd himsi hq'
  | modifyBearer =>
    obtain ⟨-, -, hrows⟩ := ModifyBearerAccepts.spec hp.1
    simp only [Procedure.store, hrows] at hq
    obtain ⟨q', -, rfl⟩ := List.mem_map.mp hq
    by_cases hq' : q'.imsi = r.imsi
    · rw [if_pos hq']
      exact modifiedRow_holdsFteid hp.2 r q'
    · rw [if_neg hq'] at himsi
      exact absurd himsi hq'
  | deleteSession => exact hp.elim
  | deleteBearer => exact hp.elim

/-! ## 3. The indication and the session -/

structure NamesFteid (cs : GtpcParseState) (rx : RxPacket) : Prop where
  indication : IsErrInd rx
  teid : errIndTeid rx = teidGrekey (cs.item .uTeid)
  peer : errIndPeer rx = teidBlk (cs.item .uTeid)

/-- The session of `imsi` still stands as the request has left it. -/
def SessionKept (imsi : Nat) (t t' : TunnelTable) : Prop :=
  ∃ q ∈ t.rows, ∃ q' ∈ t'.rows, q.imsi = imsi ∧ q'.imsi = imsi ∧ q'.active = q.active ∧
    q'.sgwGtpuTeid = q.sgwGtpuTeid ∧ q'.sgwGtpuIpv = q.sgwGtpuIpv

/-- The session of `imsi` is taken out of service, and no row without the F-TEID of the request. -/
structure EndsExactly (cs : GtpcParseState) (imsi : Nat) (t t' : TunnelTable) : Prop where
  named : ∃ q' ∈ t'.rows, q'.imsi = imsi ∧ q'.active = 0
  only : ∀ q ∈ t.rows, q.active ≠ 0 → ∀ q' ∈ t'.rows, q'.imsi = q.imsi → q'.active = 0 →
    q.sgwGtpuTeid = (teidGrekey (cs.item .uTeid)).toNat ∧ q.sgwGtpuIpv = fteidIp (cs.item .uTeid)

theorem bswap32_toNat_eq_iff (x : UInt32) : x.toNat = (bswap32 x).toNat ↔ bswap32 x = x := by
  rw [UInt32.toNat_inj]
  exact eq_comm

/-- **An Error Indication and the session it names, exactly.** As long as the session stands as
its request has left it, an Error Indication with the same bytes ends it and touches no row with
another F-TEID if and only if the statement is answered and the TEID reads the same in both byte
orders. -/
theorem errorIndication_exact_iff (p : Procedure) (h : Handle) (env : Env) (req : RxPacket)
    (t : TunnelTable) (cs : GtpcParseState) (r : Row)
    (hreq : receive env req (p.saved req) = some cs) (hrecords : p.Records h env t cs r)
    (t' : TunnelTable) (hkept : SessionKept r.imsi (p.store h env t cs).table t')
    (ok : Bool) (ind : RxPacket) (hind : NamesFteid cs ind) :
    EndsExactly cs r.imsi t' (errorIndication ok ind t') ↔
      ok = true ∧ bswap32 (teidGrekey (cs.item .uTeid)) = teidGrekey (cs.item .uTeid) := by
  obtain ⟨q, hq, q', hq', himsi, himsi', hactive, hteid, hip⟩ := hkept
  have hrec : cs.flag .record = false :=
    (receive_spec hreq).record.trans (Procedure.saved_record p req)
  have hholds := hrecords.holdsFteid hrec hq himsi
  have hrows := errorIndication_rows ok hind.indication t'
  rw [hind.teid, hind.peer] at hrows
  have hmeets : ∀ x : Row, (ok && whereSgwGtpu (bswap32 (teidGrekey (cs.item .uTeid))).toNat
      (inetNtoa (teidBlk (cs.item .uTeid))) x) = true ↔
      ok = true ∧ x.sgwGtpuTeid = (bswap32 (teidGrekey (cs.item .uTeid))).toNat ∧
        x.sgwGtpuIpv = fteidIp (cs.item .uTeid) := by
    simp [whereSgwGtpu, fteidIp]
  have hnamed := exists_inactive_iff hrows hq' (hactive.trans hholds.active)
  rw [himsi', hmeets, hteid, hip, hholds.teid, hholds.ip, bswap32_toNat_eq_iff] at hnamed
  constructor
  · intro hends
    obtain ⟨hok, hpal, -⟩ := hnamed.mp hends.named
    exact ⟨hok, hpal⟩
  · rintro ⟨hok, hpal⟩
    refine ⟨hnamed.mpr ⟨hok, hpal, rfl⟩, fun x hx hxa y hy hyx hya => ?_⟩
    have hmet := (hmeets x).mp (meets_of_deactivated hrows hx hxa hy hyx hya)
    rw [hpal] at hmet
    exact hmet.2

def requestWithUTeid (teid : List UInt8) : RxPacket :=
  { createSessionRequest with
    data := ⟨splice createSessionRequest.data.bytes 78 teid, createSessionRequest.data.past⟩ }

def errIndFor (teid : List UInt8) : RxPacket where
  data := ⟨[0x32, 26, 0, 16, 0, 0, 0, 0, 0, 1, 0, 0, 16] ++ teid ++ [133, 0, 4, 10, 0, 0, 2],
    fun _ => 0⟩
  datalen := 24
  saddr := ⟨2, 2152, 1⟩
  caddr := ⟨2, 2152, 2⟩

def uTeidCs (teid : List UInt8) : GtpcParseState :=
  (receive calmEnv (requestWithUTeid teid) (savedSeqno (requestWithUTeid teid))).getD
    (savedSeqno createSessionRequest)

theorem uTeidCs_received {teid : List UInt8}
    (h : (receive calmEnv (requestWithUTeid teid)
      (savedSeqno (requestWithUTeid teid))).isSome = true) :
    receive calmEnv (requestWithUTeid teid) (savedSeqno (requestWithUTeid teid)) =
      some (uTeidCs teid) := by
  obtain ⟨cs, hcs⟩ := isSome_iff_exists.mp h
  rw [uTeidCs, hcs, getD_some]

def uTeidTable (teid : List UInt8) : TunnelTable :=
  (createSessionStore plainHandle calmEnv provisionedTable (uTeidCs teid)).table

def uTeidRow (teid : List UInt8) : Row :=
  createSessionSet (onTunnelRecord (uTeidCs teid) provisioned).withEbi provisioned

/-- TEID `08 00 00 08` is the same in both orders. -/
theorem palindrome_ends_exactly :
    EndsExactly (uTeidCs [8, 0, 0, 8]) provisioned.imsi (uTeidTable [8, 0, 0, 8])
      (errorIndication true (errIndFor [8, 0, 0, 8]) (uTeidTable [8, 0, 0, 8])) := by
  have hmem : uTeidRow [8, 0, 0, 8] ∈ (uTeidTable [8, 0, 0, 8]).rows := by decide +kernel
  have hacc : CreateSessionAccepts plainHandle calmEnv provisionedTable (uTeidCs [8, 0, 0, 8])
      provisioned := by
    decide +kernel
  exact (errorIndication_exact_iff .createSession plainHandle calmEnv
    (requestWithUTeid [8, 0, 0, 8]) provisionedTable _ provisioned
    (uTeidCs_received (by decide +kernel)) hacc _ ⟨_, hmem, _, hmem, rfl, rfl, rfl, rfl, rfl⟩
    true (errIndFor [8, 0, 0, 8])
    ⟨by decide +kernel, by decide +kernel, by decide +kernel⟩).mpr ⟨rfl, by decide +kernel⟩

/-- TEID `00 00 00 08` is recorded as `0x08000000` and looked for as 8. -/
theorem errorIndication_misses :
    (receive calmEnv createSessionRequest (savedSeqno createSessionRequest)).isSome = true ∧
      createdStore.verdict = .accepted ∧
      slice createSessionRequest.data.bytes 78 4 = [0, 0, 0, 8] ∧
      NamesFteid createdCs (errIndFor [0, 0, 0, 8]) ∧
      createdRow ∈ createdStore.table.rows ∧ createdRow.sgwGtpuTeid = 0x08000000 ∧
      createdRow ∈ (errorIndication true (errIndFor [0, 0, 0, 8]) createdStore.table).rows ∧
      ¬ EndsExactly createdCs provisioned.imsi createdStore.table
        (errorIndication true (errIndFor [0, 0, 0, 8]) createdStore.table) := by
  refine ⟨by decide +kernel, by decide +kernel, by decide +kernel,
    ⟨by decide +kernel, by decide +kernel, by decide +kernel⟩, by decide +kernel,
    by decide +kernel, by decide +kernel, fun hends => ?_⟩
  exact absurd hends.named (by decide +kernel)

end MixiPgw.Ctrl
