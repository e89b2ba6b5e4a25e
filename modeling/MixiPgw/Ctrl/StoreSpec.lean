/-
# What the store phases do

One specification for each store phase of `Ctrl/Session.lean`, in terms of the table BEFORE the
request: the exact condition under which it is accepted for a row (`CreateSessionAccepts`,
`ModifyBearerAccepts`, `DeleteSessionAccepts`) and the table and parse state it then leaves
(`createSessionStore_cases`, `modifyBearerStore_cases`, `deleteSessionStore_cases`).
-/
import MixiPgw.Ctrl.Session

namespace MixiPgw.Ctrl

open Bytes CString Lib List UniqueTable

/-! ## 1. What the request said -/

/-- They differ at most in the record fields and `HAVE_RECORD`. -/
structure SameRequest (cs cs' : GtpcParseState) : Prop where
  seqno : cs'.gtphSeqno = cs.gtphSeqno
  teid : cs'.gtphTeid = cs.gtphTeid
  item : cs'.item = cs.item
  flag : ∀ h, h ≠ .record → cs'.flag h = cs.flag h

variable (cs : GtpcParseState)

theorem SameRequest.refl : SameRequest cs cs :=
  ⟨rfl, rfl, rfl, fun _ _ => rfl⟩

theorem SameRequest.trans {a b c : GtpcParseState} (h : SameRequest a b) (h' : SameRequest b c) :
    SameRequest a c :=
  ⟨h'.seqno.trans h.seqno, h'.teid.trans h.teid, h'.item.trans h.item,
    fun x hx => (h'.flag x hx).trans (h.flag x hx)⟩

theorem onTunnelRecord_sameRequest (r : Row) : SameRequest cs (onTunnelRecord cs r) :=
  ⟨rfl, rfl, rfl, fun x hx => by simp [onTunnelRecord, setFlag, hx]⟩

@[simp] theorem onTunnelRecord_record (r : Row) : (onTunnelRecord cs r).flag .record = true := by
  simp [onTunnelRecord, setFlag]

theorem foldl_onTunnelRecord_sameRequest : ∀ (rows : List Row) (cs : GtpcParseState),
    SameRequest cs (rows.foldl onTunnelRecord cs)
  | [], cs => SameRequest.refl cs
  | r :: rows, cs =>
    (onTunnelRecord_sameRequest cs r).trans (foldl_onTunnelRecord_sameRequest rows _)

theorem dbExecute_sameRequest (ok : Bool) (t : TunnelTable) (p : Row → Bool)
    (cs : GtpcParseState) : SameRequest cs (dbExecute ok t p cs) := by
  unfold dbExecute
  split
  · exact foldl_onTunnelRecord_sameRequest _ cs
  · exact SameRequest.refl cs

theorem withEbi_sameRequest : SameRequest cs cs.withEbi :=
  ⟨rfl, rfl, rfl, fun _ _ => rfl⟩

theorem createSessionFind_sameRequest (env : Env) (t : TunnelTable) (imsiNum msisdnNum : Nat)
    (cs : GtpcParseState) :
    SameRequest cs (createSessionFind env t imsiNum msisdnNum cs).1 := by
  simp only [createSessionFind]
  split
  · exact dbExecute_sameRequest _ _ _ cs
  · exact (dbExecute_sameRequest _ _ _ cs).trans (dbExecute_sameRequest _ _ _ _)

theorem createSessionStore_sameRequest (h : Handle) (env : Env) (t : TunnelTable)
    (cs : GtpcParseState) : SameRequest cs (createSessionStore h env t cs).cs := by
  unfold createSessionStore
  split
  · split
    · exact SameRequest.refl cs
    · dsimp only
      have hfind := fun t2 => createSessionFind_sameRequest env t2 (imsiNumOf env cs)
        (msisdnNumOf env cs) cs
      split
      · split <;> exact (hfind _).trans (withEbi_sameRequest _)
      · exact hfind _
  · exact SameRequest.refl cs

theorem modifyBearerFirst_sameRequest {env : Env} {t t' : TunnelTable} {cs cs' : GtpcParseState}
    (h : modifyBearerFirst env t cs = some (t', cs')) : SameRequest cs cs' := by
  unfold modifyBearerFirst at h
  split at h
  · split at h
    · cases h
    · obtain ⟨-, rfl⟩ := Prod.mk.inj (Option.some.inj h)
      exact ⟨rfl, rfl, rfl, fun _ _ => rfl⟩
  · split at h
    · split at h
      · cases h
      · obtain ⟨-, rfl⟩ := Prod.mk.inj (Option.some.inj h)
        exact SameRequest.refl cs
    · obtain ⟨-, rfl⟩ := Prod.mk.inj (Option.some.inj h)
      exact SameRequest.refl cs

theorem modifyBearerStore_sameRequest (env : Env) (t : TunnelTable) (cs : GtpcParseState) :
    SameRequest cs (modifyBearerStore env t cs).cs := by
  have hfind := dbExecute_sameRequest (env.db 0) t (modifyBearerLookup cs.gtphTeid.toNat) cs
  simp only [modifyBearerStore]
  split
  · split
    · exact hfind.trans (withEbi_sameRequest _)
    · rename_i hfirst
      have hone := (hfind.trans (withEbi_sameRequest _)).trans (modifyBearerFirst_sameRequest hfirst)
      split
      · split <;> exact hone
      · exact hone
  · exact hfind

theorem deleteSessionStore_sameRequest (env : Env) (t : TunnelTable) (cs : GtpcParseState) :
    SameRequest cs (deleteSessionStore env t cs).cs := by
  have hfind := dbExecute_sameRequest (env.db 0) t (deleteSessionLookup cs.gtphTeid.toNat) cs
  simp only [deleteSessionStore]
  split
  · split <;> exact hfind
  · exact hfind

theorem Procedure.store_sameRequest (p : Procedure) (h : Handle) (env : Env) (t : TunnelTable)
    (cs : GtpcParseState) : SameRequest cs (p.store h env t cs).cs := by
  cases p with
  | createSession => exact createSessionStore_sameRequest h env t cs
  | modifyBearer => exact modifyBearerStore_sameRequest env t cs
  | deleteSession => exact deleteSessionStore_sameRequest env t cs
  | deleteBearer => exact deleteSessionStore_sameRequest env t cs

/-! ## 2. Create Session: the updates before the lookup -/

def pgwipSet (h : Handle) (r : Row) : Row :=
  match h.serverGtpc with
  | some ip => createSessionPgwipUpd ip r
  | none => r

def msisdnSet (imsiNum msisdnNum : Nat) (r : Row) : Row :=
  if imsiNum ≠ 0 ∧ msisdnNum ≠ 0 then createSessionImsiMsisdnUpd msisdnNum r else r

/-- A row behind the two updates. -/
def preparedRow (h : Handle) (imsiNum msisdnNum : Nat) (r : Row) : Row :=
  if r.imsi = imsiNum then msisdnSet imsiNum msisdnNum (pgwipSet h r) else r

section

variable (h : Handle) (imsiNum msisdnNum : Nat) (r : Row)

@[simp] theorem pgwipSet_imsi : (pgwipSet h r).imsi = r.imsi := by
  unfold pgwipSet; split <;> rfl

@[simp] theorem pgwipSet_msisdn : (pgwipSet h r).msisdn = r.msisdn := by
  unfold pgwipSet; split <;> rfl

@[simp] theorem preparedRow_imsi : (preparedRow h imsiNum msisdnNum r).imsi = r.imsi := by
  unfold preparedRow msisdnSet pgwipSet; repeat' split
  all_goals rfl

@[simp] theorem preparedRow_pgwTeid : (preparedRow h imsiNum msisdnNum r).pgwTeid = r.pgwTeid := by
  unfold preparedRow msisdnSet pgwipSet; repeat' split
  all_goals rfl

end

/-- **When the two updates go through**: the server answers, and nobody else has the MSISDN. -/
structure CreateSessionReady (h : Handle) (env : Env) (t : TunnelTable) (imsiNum msisdnNum : Nat) :
    Prop where
  pgwip : h.serverGtpc.isSome = true → env.db 0 = true
  msisdn : imsiNum ≠ 0 ∧ msisdnNum ≠ 0 → env.db 1 = true ∧
    ∀ r ∈ t.rows, r.imsi = imsiNum → ∀ r' ∈ t.rows, r'.msisdn = msisdnNum → r'.imsi = imsiNum

instance (h : Handle) (env : Env) (t : TunnelTable) (imsiNum msisdnNum : Nat) :
    Decidable (CreateSessionReady h env t imsiNum msisdnNum) :=
  decidable_of_iff
    ((h.serverGtpc.isSome = true → env.db 0 = true) ∧
      (imsiNum ≠ 0 ∧ msisdnNum ≠ 0 → env.db 1 = true ∧
        ∀ r ∈ t.rows, r.imsi = imsiNum → ∀ r' ∈ t.rows, r'.msisdn = msisdnNum → r'.imsi = imsiNum))
    ⟨fun hready => ⟨hready.1, hready.2⟩, fun hready => ⟨hready.pgwip, hready.msisdn⟩⟩

variable (h : Handle) (env : Env) (t : TunnelTable)

theorem createSessionPgwip_isSome (imsiNum : Nat) :
    (∃ t1, createSessionPgwip h env t imsiNum = some t1) ↔
      (h.serverGtpc.isSome = true → env.db 0 = true) := by
  unfold createSessionPgwip
  cases hs : h.serverGtpc with
  | none => simp
  | some ip =>
    rw [dbQuery_keepKeys (env.db 0) (f := createSessionPgwipUpd ip) fun r => ⟨rfl, rfl, rfl⟩]
    simp

theorem createSessionPgwip_rows {h : Handle} {env : Env} {t t1 : TunnelTable} {imsiNum : Nat}
    (hq : createSessionPgwip h env t imsiNum = some t1) :
    t1.rows = t.rows.map fun r => if r.imsi = imsiNum then pgwipSet h r else r := by
  unfold createSessionPgwip at hq
  cases hs : h.serverGtpc with
  | none =>
    rw [hs] at hq
    cases hq
    simp [pgwipSet, hs]
  | some ip =>
    rw [hs] at hq
    rw [dbQuery_rows hq]
    simp [whereImsi, pgwipSet, hs]

variable (imsiNum msisdnNum : Nat)

theorem createSessionMsisdn_isSome :
    (∃ t2, createSessionMsisdn env t imsiNum msisdnNum = some t2) ↔
      (imsiNum ≠ 0 ∧ msisdnNum ≠ 0 → env.db 1 = true ∧
        ∀ r ∈ t.rows, r.imsi = imsiNum → ∀ r' ∈ t.rows, r'.msisdn = msisdnNum →
          r'.imsi = imsiNum) := by
  unfold createSessionMsisdn
  split
  · rename_i hboth
    rw [dbQuery_setKey _ _ _ msisdn_mem_keys (v := msisdnNum) (fun _ => rfl)
      (by simp [tunnelKeys, createSessionImsiMsisdnUpd])]
    simp [hboth]
  · rename_i hboth
    simp [hboth]

theorem createSessionMsisdn_rows {env : Env} {t t2 : TunnelTable} {imsiNum msisdnNum : Nat}
    (hq : createSessionMsisdn env t imsiNum msisdnNum = some t2) :
    t2.rows = t.rows.map fun r => if r.imsi = imsiNum then msisdnSet imsiNum msisdnNum r else r := by
  unfold createSessionMsisdn at hq
  split at hq
  · rename_i hboth
    rw [dbQuery_rows hq]
    simp [whereImsi, msisdnSet, hboth]
  · rename_i hboth
    cases hq
    simp [msisdnSet, hboth]

/-- The updates before the lookup go through if and only if the table is ready, and then every
row is a prepared one. -/
theorem createSessionPrepare_spec :
    ((createSessionPrepare h env t imsiNum msisdnNum).2 = true ↔
      CreateSessionReady h env t imsiNum msisdnNum) ∧
    ((createSessionPrepare h env t imsiNum msisdnNum).2 = true →
      (createSessionPrepare h env t imsiNum msisdnNum).1.rows =
        t.rows.map (preparedRow h imsiNum msisdnNum)) := by
  unfold createSessionPrepare
  cases hpg : createSessionPgwip h env t imsiNum with
  | none =>
    have hno : ¬ (h.serverGtpc.isSome = true → env.db 0 = true) := by
      rw [← createSessionPgwip_isSome h env t imsiNum, hpg]
      simp
    exact ⟨⟨by simp, fun hr => absurd hr.pgwip hno⟩, by simp⟩
  | some t1 =>
    have hyes := (createSessionPgwip_isSome h env t imsiNum).mp ⟨t1, hpg⟩
    have hrows1 := createSessionPgwip_rows hpg
    -- the first update moves neither key the second one's condition speaks about
    have hcond : (∀ r ∈ t1.rows, r.imsi = imsiNum → ∀ r' ∈ t1.rows, r'.msisdn = msisdnNum →
          r'.imsi = imsiNum) ↔
        (∀ r ∈ t.rows, r.imsi = imsiNum → ∀ r' ∈ t.rows, r'.msisdn = msisdnNum →
          r'.imsi = imsiNum) := by
      simp only [hrows1, forall_mem_map, apply_ite Row.imsi, apply_ite Row.msisdn,
        pgwipSet_imsi, pgwipSet_msisdn, ite_self]
    have hms := createSessionMsisdn_isSome env t1 imsiNum msisdnNum
    rw [hcond] at hms
    dsimp only
    cases hm : createSessionMsisdn env t1 imsiNum msisdnNum with
    | none =>
      rw [hm] at hms
      refine ⟨⟨by simp, fun hr => ?_⟩, by simp⟩
      obtain ⟨t2, ht2⟩ := hms.mpr hr.msisdn
      cases ht2
    | some t2 =>
      refine ⟨⟨fun _ => ⟨hyes, hms.mp ⟨t2, hm⟩⟩, fun _ => rfl⟩, fun _ => ?_⟩
      rw [createSessionMsisdn_rows hm, hrows1, map_map]
      refine map_congr_left fun r _ => ?_
      by_cases hi : r.imsi = imsiNum <;> simp [preparedRow, hi]

/-! ## 3. Create Session: the lookup and the final update -/

/-- **The row a Create Session is for**: by IMSI, or by MSISDN if no row has the IMSI or the first
lookup is not answered. -/
def FindsRow (env : Env) (rows : List Row) (imsiNum msisdnNum : Nat) (r : Row) : Prop :=
  r ∈ rows ∧
    ((env.db 2 = true ∧ createSessionImsiLookup imsiNum r = true) ∨
      ((env.db 2 = true → ∀ r' ∈ rows, createSessionImsiLookup imsiNum r' = false) ∧
        env.db 3 = true ∧ createSessionMsisdnLookup msisdnNum r = true))

instance (env : Env) (rows : List Row) (imsiNum msisdnNum : Nat) (r : Row) :
    Decidable (FindsRow env rows imsiNum msisdnNum r) :=
  inferInstanceAs (Decidable (_ ∧ (_ ∨ _)))

theorem imsi_of_lookup {imsiNum : Nat} {r : Row} (h : createSessionImsiLookup imsiNum r = true) :
    r.imsi = imsiNum := by
  simp only [createSessionImsiLookup, Bool.and_eq_true, decide_eq_true_eq] at h
  exact h.1

theorem msisdn_of_lookup {msisdnNum : Nat} {r : Row}
    (h : createSessionMsisdnLookup msisdnNum r = true) : r.msisdn = msisdnNum := by
  simp only [createSessionMsisdnLookup, Bool.and_eq_true, decide_eq_true_eq] at h
  exact h.1

/-- At most one row is found, as IMSI and MSISDN are unique. -/
theorem FindsRow.unique {env : Env} {t : TunnelTable} {imsiNum msisdnNum : Nat} {r r' : Row}
    (h : FindsRow env t.rows imsiNum msisdnNum r) (h' : FindsRow env t.rows imsiNum msisdnNum r') :
    r = r' := by
  obtain ⟨hr, ⟨hok, hi⟩ | ⟨hno, -, hm⟩⟩ := h
  · obtain ⟨hr', ⟨-, hi'⟩ | ⟨hno', -, -⟩⟩ := h'
    · exact eq_of_key imsi_mem_keys hr hr'
        ((imsi_of_lookup hi).trans (imsi_of_lookup hi').symm)
    · exact absurd (hno' hok r hr) (by simp [hi])
  · obtain ⟨hr', ⟨hok', hi'⟩ | ⟨-, -, hm'⟩⟩ := h'
    · exact absurd (hno hok' r' hr') (by simp [hi'])
    · exact eq_of_key msisdn_mem_keys hr hr'
        ((msisdn_of_lookup hm).trans (msisdn_of_lookup hm').symm)

/-- The lookup finds the row it is for, or leaves the state alone. -/
theorem createSessionFind_cases {cs : GtpcParseState} (hrec : cs.flag .record = false) :
    ((createSessionFind env t imsiNum msisdnNum cs).1 = cs ∧
      ∀ r, ¬ FindsRow env t.rows imsiNum msisdnNum r) ∨
    ∃ r, FindsRow env t.rows imsiNum msisdnNum r ∧
      createSessionFind env t imsiNum msisdnNum cs = (onTunnelRecord cs r, r.imsi) := by
  have himsi : ∀ r, createSessionImsiLookup imsiNum r = true → r.imsi = imsiNum :=
    fun _ => imsi_of_lookup
  have hmsisdn : ∀ r, createSessionMsisdnLookup msisdnNum r = true → r.msisdn = msisdnNum :=
    fun _ => msisdn_of_lookup
  rcases dbExecute_cases (t := t) imsi_mem_keys himsi (env.db 2) cs
    with ⟨hcs, hno⟩ | ⟨r, hr, hok, hpr, hcs⟩
  · rcases dbExecute_cases (t := t) msisdn_mem_keys hmsisdn (env.db 3) cs
      with ⟨hcs', hno'⟩ | ⟨r, hr, hok, hpr, hcs'⟩
    · refine Or.inl ⟨by simp [createSessionFind, hcs, hrec, hcs'], ?_⟩
      rintro r ⟨hr, ⟨hok, hi⟩ | ⟨-, hok, hm⟩⟩
      · exact absurd (hno hok r hr) (by simp [hi])
      · exact absurd (hno' hok r hr) (by simp [hm])
    · refine Or.inr ⟨r, ⟨hr, Or.inr ⟨hno, hok, hpr⟩⟩, ?_⟩
      simp [createSessionFind, hcs, hrec, hcs', onTunnelRecord]
  · refine Or.inr ⟨r, ⟨hr, Or.inl ⟨hok, hpr⟩⟩, ?_⟩
    simp [createSessionFind, hcs, imsi_of_lookup hpr]

/-- The row's TEID with the EBI of the request in its top four bits. -/
def sessionTeid (cs : GtpcParseState) (r : Row) : UInt32 :=
  replaceEbi (UInt32.ofNat r.pgwTeid) (ebiLow (cs.item .ebiB))

/-- **When a Create Session is accepted for a row**, by the table before it. -/
structure CreateSessionAccepts (h : Handle) (env : Env) (t : TunnelTable) (cs : GtpcParseState)
    (r : Row) : Prop where
  included : hasAll cs.flag includedAll = true
  ready : CreateSessionReady h env t (imsiNumOf env cs) (msisdnNumOf env cs)
  finds : FindsRow env (t.rows.map (preparedRow h (imsiNumOf env cs) (msisdnNumOf env cs)))
    (imsiNumOf env cs) (msisdnNumOf env cs) r
  stored : env.db 4 = true ∧
    ∀ r' ∈ t.rows, r'.pgwTeid = (sessionTeid cs r).toNat → r'.imsi = r.imsi

instance (h : Handle) (env : Env) (t : TunnelTable) (cs : GtpcParseState) (r : Row) :
    Decidable (CreateSessionAccepts h env t cs r) :=
  decidable_of_iff
    (hasAll cs.flag includedAll = true ∧
      CreateSessionReady h env t (imsiNumOf env cs) (msisdnNumOf env cs) ∧
      FindsRow env (t.rows.map (preparedRow h (imsiNumOf env cs) (msisdnNumOf env cs)))
        (imsiNumOf env cs) (msisdnNumOf env cs) r ∧
      env.db 4 = true ∧ ∀ r' ∈ t.rows, r'.pgwTeid = (sessionTeid cs r).toNat → r'.imsi = r.imsi)
    ⟨fun hacc => ⟨hacc.1, hacc.2.1, hacc.2.2.1, hacc.2.2.2⟩,
      fun hacc => ⟨hacc.included, hacc.ready, hacc.finds, hacc.stored⟩⟩

variable (cs : GtpcParseState)

theorem createSessionSet_pgwTeid (r : Row) :
    (createSessionSet cs r).pgwTeid = cs.db.pgwTeid.toNat := by
  simp [createSessionSet, createSessionUpd]

theorem createSessionSet_ebi (r : Row) :
    (createSessionSet cs r).ebi = (ebiLow (cs.item .ebiB)).toNat := by
  simp [createSessionSet, createSessionUpd]

theorem createSessionSet_active (r : Row) : (createSessionSet cs r).active = 1 := by
  simp [createSessionSet, createSessionUpd]

/-- The final update fails only with the server or when someone else has the session's TEID. -/
theorem createSessionSet_isSome {h : Handle} {env : Env} {t t2 : TunnelTable} {cs : GtpcParseState}
    {i m : Nat} {r : Row} (hrows : t2.rows = t.rows.map (preparedRow h i m)) (hr : r ∈ t2.rows) :
    (∃ t3, dbQuery (env.db 4) t2 (whereImsi r.imsi)
        (createSessionSet (onTunnelRecord cs r).withEbi) = some t3) ↔
      env.db 4 = true ∧
        ∀ r' ∈ t.rows, r'.pgwTeid = (sessionTeid cs r).toNat → r'.imsi = r.imsi := by
  rw [dbQuery_setKey _ _ _ pgwTeid_mem_keys (createSessionSet_pgwTeid (onTunnelRecord cs r).withEbi)
    (by simp [tunnelKeys, createSessionSet, createSessionUpd, setSgw])]
  refine and_congr_right fun _ => ?_
  have hmap : (∀ r' ∈ t2.rows, r'.pgwTeid = (sessionTeid cs r).toNat → r'.imsi = r.imsi) ↔
      ∀ r' ∈ t.rows, r'.pgwTeid = (sessionTeid cs r).toNat → r'.imsi = r.imsi := by
    simp only [hrows, forall_mem_map, preparedRow_pgwTeid, preparedRow_imsi]
  rw [← hmap]
  exact ⟨fun hall => hall r hr rfl, fun hall _ _ _ => hall⟩

/-- What an accepted Create Session leaves. -/
def CreatedFor (h : Handle) (env : Env) (t : TunnelTable) (cs : GtpcParseState) (r : Row)
    (o : Outcome) : Prop :=
  o.verdict = .accepted ∧ o.cs = (onTunnelRecord cs r).withEbi ∧
    o.table.rows =
      (t.rows.map (preparedRow h (imsiNumOf env cs) (msisdnNumOf env cs))).map fun r' =>
        if r'.imsi = r.imsi then createSessionSet (onTunnelRecord cs r).withEbi r' else r'

/-- Create Session, exactly. The request is accepted for the one row it is for, or there is
no such row and it is denied. -/
theorem createSessionStore_cases {cs : GtpcParseState} (hrec : cs.flag .record = false) :
    (∃ r, CreateSessionAccepts h env t cs r ∧
      CreatedFor h env t cs r (createSessionStore h env t cs)) ∨
    ((∀ r, ¬ CreateSessionAccepts h env t cs r) ∧
      (createSessionStore h env t cs).verdict = .denied) := by
  unfold createSessionStore
  by_cases hinc : hasAll cs.flag includedAll = true
  · rw [if_pos hinc]
    obtain ⟨hready, hrows⟩ :=
      createSessionPrepare_spec h env t (imsiNumOf env cs) (msisdnNumOf env cs)
    rcases hprep : createSessionPrepare h env t (imsiNumOf env cs) (msisdnNumOf env cs) with ⟨t2, ok⟩
    rw [hprep] at hready hrows
    cases ok with
    | false => exact Or.inr ⟨fun r hr => absurd (hready.mpr hr.ready) (by simp), rfl⟩
    | true =>
      have hrows2 := hrows rfl
      dsimp only at hrows2 ⊢
      rcases createSessionFind_cases env t2 (imsiNumOf env cs) (msisdnNumOf env cs) hrec with
        ⟨hcs, hno⟩ | ⟨r, hfind, heq⟩
      · rw [if_neg (by rw [hcs, hrec]; simp)]
        exact Or.inr ⟨fun r hr => hno r (hrows2 ▸ hr.finds), rfl⟩
      · rw [heq, if_pos (onTunnelRecord_record cs r)]
        have hstored := @createSessionSet_isSome h env t t2 cs _ _ r hrows2 hfind.1
        cases hq : dbQuery (env.db 4) t2 (whereImsi r.imsi)
            (createSessionSet (onTunnelRecord cs r).withEbi) with
        | none =>
          refine Or.inr ⟨fun r' hr' => ?_, rfl⟩
          obtain rfl : r = r' := hfind.unique (hrows2 ▸ hr'.finds)
          obtain ⟨t3, ht3⟩ := hstored.mpr hr'.stored
          exact absurd ht3 (by simp [hq])
        | some t3 =>
          refine Or.inl ⟨r, ⟨hinc, hready.mp rfl, hrows2 ▸ hfind, hstored.mp ⟨t3, hq⟩⟩, rfl, rfl, ?_⟩
          rw [dbQuery_rows hq, hrows2]
          simp [whereImsi]
  · rw [if_neg hinc]
    exact Or.inr ⟨fun r hr => hinc hr.included, rfl⟩

theorem CreateSessionAccepts.unique {h : Handle} {env : Env} {t : TunnelTable} {cs : GtpcParseState}
    {r r' : Row} (hr : CreateSessionAccepts h env t cs r)
    (hr' : CreateSessionAccepts h env t cs r') :
    r = r' := by
  obtain ⟨hready, hrows⟩ :=
    createSessionPrepare_spec h env t (imsiNumOf env cs) (msisdnNumOf env cs)
  have hfinds := hr.finds
  have hfinds' := hr'.finds
  rw [← hrows (hready.mpr hr.ready)] at hfinds hfinds'
  exact hfinds.unique hfinds'

theorem CreateSessionAccepts.spec {h : Handle} {env : Env} {t : TunnelTable} {cs : GtpcParseState}
    {r : Row} (hrec : cs.flag .record = false) (hr : CreateSessionAccepts h env t cs r) :
    CreatedFor h env t cs r (createSessionStore h env t cs) := by
  rcases createSessionStore_cases h env t hrec with ⟨r', hr', hspec⟩ | ⟨hno, -⟩
  · obtain rfl := hr.unique hr'
    exact hspec
  · exact absurd hr (hno r)

/-- The invariant rule of Create Session: what the three updates keep holds of every row
afterwards. -/
theorem createSessionStore_forall {h : Handle} {env : Env} {t : TunnelTable} {cs : GtpcParseState}
    {P : Row → Prop} (hP : ∀ r ∈ t.rows, P r)
    (hpgwip : ∀ ip r, P r → P (createSessionPgwipUpd ip r))
    (hmsisdn : ∀ m r, P r → P (createSessionImsiMsisdnUpd m r))
    (hset : ∀ (cs' : GtpcParseState) r, P (createSessionSet cs'.withEbi r)) :
    ∀ r ∈ (createSessionStore h env t cs).table.rows, P r := by
  have hprep : ∀ i m, ∀ r ∈ (createSessionPrepare h env t i m).1.rows, P r := by
    intro i m
    unfold createSessionPrepare
    split
    · exact hP
    · rename_i t1 hpg
      have h1 : ∀ r ∈ t1.rows, P r := by
        unfold createSessionPgwip at hpg
        split at hpg
        · exact dbQuery_forall hpg hP fun r _ _ hr => hpgwip _ r hr
        · obtain rfl := Option.some.inj hpg
          exact hP
      split
      · exact h1
      · rename_i t2 hm
        unfold createSessionMsisdn at hm
        split at hm
        · exact dbQuery_forall hm h1 fun r _ _ hr => hmsisdn _ r hr
        · obtain rfl := Option.some.inj hm
          exact h1
  unfold createSessionStore
  split
  · have h2 := hprep (imsiNumOf env cs) (msisdnNumOf env cs)
    split
    · rename_i t2 heq
      rw [heq] at h2
      exact h2
    · rename_i t2 heq
      rw [heq] at h2
      dsimp only
      split
      · split
        · exact h2
        · rename_i hq
          exact dbQuery_forall hq h2 fun r _ _ _ => hset _ r
      · exact h2
  · exact hP

/-! ## 4. Modify Bearer -/

/-- The first update: both tunnels, or the RAT alone, or nothing. -/
def modifyBearerFirstSet (cs : GtpcParseState) (r : Row) : Row :=
  if bothTeids cs then modifyBearerSet cs r
  else
    match ratType cs with
    | some rat => modifyBearerRatonlyUpd rat (recoveryCounter cs) r
    | none => r

section

variable (cs : GtpcParseState) (r : Row)

@[simp] theorem modifyBearerFirstSet_imsi : (modifyBearerFirstSet cs r).imsi = r.imsi := by
  unfold modifyBearerFirstSet; repeat' split
  all_goals simp [modifyBearerSet, modifyBearerUpd, setSgw, modifyBearerRatonlyUpd]

@[simp] theorem modifyBearerFirstSet_ebi : (modifyBearerFirstSet cs r).ebi = r.ebi := by
  unfold modifyBearerFirstSet; repeat' split
  all_goals simp [modifyBearerSet, modifyBearerUpd, setSgw, modifyBearerRatonlyUpd]

theorem modifyBearerFirstSet_pgwTeid :
    (modifyBearerFirstSet cs r).pgwTeid =
      if bothTeids cs then cs.db.pgwTeid.toNat else r.pgwTeid := by
  unfold modifyBearerFirstSet
  split
  · simp [modifyBearerSet, modifyBearerUpd]
  · split
    · simp [modifyBearerRatonlyUpd]
    · rfl

theorem modifyBearerFirstSet_active (h : r.active = 1) :
    (modifyBearerFirstSet cs r).active = 1 := by
  unfold modifyBearerFirstSet
  split
  · simp [modifyBearerSet, modifyBearerUpd]
  · split
    · simp [modifyBearerRatonlyUpd]
    · exact h

end

/-- The server answers it if it is run, and a new TEID is no other row's. -/
def ModifyBearerFirstOk (env : Env) (t : TunnelTable) (cs : GtpcParseState) : Prop :=
  if bothTeids cs then
    env.db 1 = true ∧ ∀ r ∈ t.rows, r.imsi = cs.db.imsiNum →
      ∀ r' ∈ t.rows, r'.pgwTeid = cs.db.pgwTeid.toNat → r'.imsi = cs.db.imsiNum
  else (cs.flag .rat = true → env.db 1 = true)

variable (env : Env) (t : TunnelTable)

theorem modifyBearerFirst_isSome (cs : GtpcParseState) :
    (∃ x, modifyBearerFirst env t cs = some x) ↔ ModifyBearerFirstOk env t cs := by
  unfold modifyBearerFirst ModifyBearerFirstOk
  split
  · rw [← dbQuery_setKey _ _ _ (f := modifyBearerSet cs) pgwTeid_mem_keys
      (by simp [modifyBearerSet, modifyBearerUpd])
      (by simp [tunnelKeys, modifyBearerSet, modifyBearerUpd, setSgw])]
    cases dbQuery (env.db 1) t (whereImsi cs.db.imsiNum) (modifyBearerSet cs) <;> simp
  · by_cases hflag : cs.flag .rat = true
    · have hrat : ratType cs = some ((cs.item .rat).getD 4 0) := by simp [ratType, hflag]
      simp only [hrat, hflag, true_imp_iff]
      rw [← dbQuery_keepKeys (env.db 1) (t := t) (p := whereImsi cs.db.imsiNum)
        (f := modifyBearerRatonlyUpd ((cs.item .rat).getD 4 0) (recoveryCounter cs))
        (fun r => by simp [modifyBearerRatonlyUpd])]
      cases dbQuery (env.db 1) t (whereImsi cs.db.imsiNum)
        (modifyBearerRatonlyUpd ((cs.item .rat).getD 4 0) (recoveryCounter cs)) <;> simp
    · have hrat : ratType cs = none := by simp [ratType, hflag]
      simp [hrat, hflag]

variable {env : Env}

theorem modifyBearerFirst_spec {t t1 : TunnelTable} {cs cs1 : GtpcParseState}
    (h : modifyBearerFirst env t cs = some (t1, cs1)) :
    t1.rows = (t.rows.map fun r => if r.imsi = cs.db.imsiNum then modifyBearerFirstSet cs r else r) ∧
      cs1.db.imsiNum = cs.db.imsiNum ∧ cs1.db.msisdnNum = cs.db.msisdnNum := by
  unfold modifyBearerFirst at h
  split at h
  · rename_i hboth
    split at h
    · exact absurd h (by simp)
    · rename_i hq
      cases h
      refine ⟨?_, rfl, rfl⟩
      rw [dbQuery_rows hq]
      simp [whereImsi, modifyBearerFirstSet, hboth]
  · rename_i hboth
    split at h
    · rename_i rat hrat
      split at h
      · exact absurd h (by simp)
      · rename_i hq
        cases h
        refine ⟨?_, rfl, rfl⟩
        rw [dbQuery_rows hq]
        simp [whereImsi, modifyBearerFirstSet, hboth, hrat]
    · rename_i hrat
      cases h
      refine ⟨?_, rfl, rfl⟩
      simp [modifyBearerFirstSet, hboth, hrat]

/-- The same, said of the row that was found. -/
def ModifyBearerFirstFits (env : Env) (t : TunnelTable) (cs : GtpcParseState) (r : Row) : Prop :=
  if bothTeids cs then
    env.db 1 = true ∧ ∀ r' ∈ t.rows, r'.pgwTeid = (sessionTeid cs r).toNat → r'.imsi = r.imsi
  else (cs.flag .rat = true → env.db 1 = true)

/-- **When a Modify Bearer is accepted for a row.** -/
structure ModifyBearerAccepts (env : Env) (t : TunnelTable) (cs : GtpcParseState) (r : Row) :
    Prop where
  mem : r ∈ t.rows
  found : env.db 0 = true ∧ modifyBearerLookup cs.gtphTeid.toNat r = true
  first : ModifyBearerFirstFits env t cs r
  second : cs.flag .ebiB = true → env.db 2 = true

theorem teid_of_modifyLookup {teid : Nat} {r : Row} (h : modifyBearerLookup teid r = true) :
    r.pgwTeid = teid ∧ r.active = 1 := by
  simpa [modifyBearerLookup] using h

variable {t : TunnelTable} {cs : GtpcParseState}

theorem modifyBearerFirstOk_iff {r : Row} (hr : r ∈ t.rows) :
    ModifyBearerFirstOk env t (onTunnelRecord cs r).withEbi ↔ ModifyBearerFirstFits env t cs r := by
  have hboth : bothTeids (onTunnelRecord cs r).withEbi = bothTeids cs := rfl
  have hrat : (onTunnelRecord cs r).withEbi.flag .rat = cs.flag .rat :=
    ((onTunnelRecord_sameRequest cs r).trans (withEbi_sameRequest _)).flag .rat (by decide)
  unfold ModifyBearerFirstOk ModifyBearerFirstFits
  rw [hboth, hrat]
  split
  · exact and_congr_right fun _ => ⟨fun h => h r hr rfl, fun h _ _ _ => h⟩
  · exact Iff.rfl

def firstModifiedRow (cs : GtpcParseState) (r r' : Row) : Row :=
  modifyBearerFirstSet (onTunnelRecord cs r).withEbi r'

def modifiedRow (cs : GtpcParseState) (r r' : Row) : Row :=
  if cs.flag .ebiB then modifyBearerEbiUpd (ebiLow (cs.item .ebiB)) (firstModifiedRow cs r r')
  else firstModifiedRow cs r r'

theorem modifyBearerStore_of_not_found (hrec : cs.flag .record = false)
    (hno : env.db 0 = true → ∀ r ∈ t.rows, modifyBearerLookup cs.gtphTeid.toNat r = false) :
    modifyBearerStore env t cs = ⟨t, cs, .denied⟩ := by
  unfold modifyBearerStore
  simp [dbExecute_of_not_found cs hno, hrec]

/-- What an accepted Modify Bearer leaves. -/
def ModifiedFor (t : TunnelTable) (cs : GtpcParseState) (r : Row) (o : Outcome) : Prop :=
  o.verdict = .accepted ∧ o.cs.db.msisdnNum = r.msisdn ∧
    o.table.rows = t.rows.map fun r' => if r'.imsi = r.imsi then modifiedRow cs r r' else r'

/-- Modify Bearer once its row is found: the first update fails; or the EBI update fails, which
leaves the table HALF changed; or both go through. -/
theorem modifyBearerStore_of_found {r : Row} (hr : r ∈ t.rows) (hok : env.db 0 = true)
    (hpr : modifyBearerLookup cs.gtphTeid.toNat r = true) :
    (¬ ModifyBearerFirstFits env t cs r ∧ (modifyBearerStore env t cs).verdict = .denied ∧
      (modifyBearerStore env t cs).table = t) ∨
    (ModifyBearerFirstFits env t cs r ∧ (cs.flag .ebiB = true ∧ env.db 2 = false) ∧
      (modifyBearerStore env t cs).verdict = .denied ∧
      (modifyBearerStore env t cs).table.rows =
        t.rows.map fun r' => if r'.imsi = r.imsi then firstModifiedRow cs r r' else r') ∨
    (ModifyBearerAccepts env t cs r ∧ ModifiedFor t cs r (modifyBearerStore env t cs)) := by
  have hcs : dbExecute (env.db 0) t (modifyBearerLookup cs.gtphTeid.toNat) cs =
      onTunnelRecord cs r :=
    dbExecute_of_found pgwTeid_mem_keys (fun _ h => (teid_of_modifyLookup h).1) cs hr hok hpr
  have hfirst := (modifyBearerFirst_isSome env t (onTunnelRecord cs r).withEbi).trans
    (modifyBearerFirstOk_iff hr)
  unfold modifyBearerStore
  dsimp only
  rw [hcs, if_pos (onTunnelRecord_record cs r)]
  cases hq : modifyBearerFirst env t (onTunnelRecord cs r).withEbi with
  | none =>
    refine Or.inl ⟨fun hfits => ?_, rfl, rfl⟩
    obtain ⟨x, hx⟩ := hfirst.mpr hfits
    exact absurd hx (by simp [hq])
  | some x =>
    obtain ⟨t1, cs1⟩ := x
    have hfits := hfirst.mp ⟨_, hq⟩
    obtain ⟨hrows, himsi, hms⟩ := modifyBearerFirst_spec hq
    have hsame : SameRequest cs cs1 := ((onTunnelRecord_sameRequest cs r).trans
      (withEbi_sameRequest _)).trans (modifyBearerFirst_sameRequest hq)
    have himsi' : cs1.db.imsiNum = r.imsi := himsi
    have hrows1 : t1.rows =
        t.rows.map fun r' => if r'.imsi = r.imsi then firstModifiedRow cs r r' else r' := hrows
    dsimp only
    rw [hsame.flag .ebiB (by decide), hsame.item, himsi']
    by_cases hebi : cs.flag .ebiB = true
    · rw [if_pos hebi]
      have hkeep := dbQuery_keepKeys (env.db 2) (t := t1) (p := whereImsi r.imsi)
        (f := modifyBearerEbiUpd (ebiLow (cs.item .ebiB))) (fun _ => ⟨rfl, rfl, rfl⟩)
      cases hq2 : dbQuery (env.db 2) t1 (whereImsi r.imsi)
          (modifyBearerEbiUpd (ebiLow (cs.item .ebiB))) with
      | none =>
        refine Or.inr (Or.inl ⟨hfits, ⟨hebi, ?_⟩, rfl, hrows1⟩)
        by_contra hdb
        obtain ⟨t2, ht2⟩ := hkeep.mpr (by simpa using hdb)
        exact absurd ht2 (by simp [hq2])
      | some t2 =>
        refine Or.inr (Or.inr ⟨⟨hr, ⟨hok, hpr⟩, hfits, fun _ => hkeep.mp ⟨t2, hq2⟩⟩, rfl, hms, ?_⟩)
        rw [dbQuery_rows hq2, hrows1, map_map]
        refine map_congr_left fun r' _ => ?_
        by_cases hi : r'.imsi = r.imsi <;>
          simp [whereImsi, modifiedRow, firstModifiedRow, hebi, hi]
    · rw [if_neg hebi]
      refine Or.inr (Or.inr ⟨⟨hr, ⟨hok, hpr⟩, hfits, fun h => absurd h hebi⟩, rfl, hms, ?_⟩)
      rw [hrows1]
      simp [modifiedRow, hebi]

/-- Modify Bearer: accepted for the one row it is for, or denied. -/
theorem modifyBearerStore_cases (env : Env) (t : TunnelTable) {cs : GtpcParseState}
    (hrec : cs.flag .record = false) :
    (∃ r, ModifyBearerAccepts env t cs r ∧ ModifiedFor t cs r (modifyBearerStore env t cs)) ∨
    ((∀ r, ¬ ModifyBearerAccepts env t cs r) ∧
      (modifyBearerStore env t cs).verdict = .denied) := by
  by_cases hfound : ∃ r ∈ t.rows, env.db 0 = true ∧ modifyBearerLookup cs.gtphTeid.toNat r = true
  · obtain ⟨r, hr, hok, hpr⟩ := hfound
    -- any row the request could be accepted for is this one
    have hone : ∀ r', ModifyBearerAccepts env t cs r' → r' = r := fun r' hr' =>
      eq_of_key pgwTeid_mem_keys hr'.mem hr
        ((teid_of_modifyLookup hr'.found.2).1.trans (teid_of_modifyLookup hpr).1.symm)
    rcases modifyBearerStore_of_found hr hok hpr with ⟨hno, hv, -⟩ | ⟨-, ⟨hebi, hdb⟩, hv, -⟩ | hacc
    · exact Or.inr ⟨fun r' hr' => hno (hone r' hr' ▸ hr'.first), hv⟩
    · exact Or.inr ⟨fun r' hr' => absurd (hr'.second hebi) (by simp [hdb]), hv⟩
    · exact Or.inl ⟨r, hacc⟩
  · refine Or.inr ⟨fun r hr => hfound ⟨r, hr.mem, hr.found⟩, ?_⟩
    rw [modifyBearerStore_of_not_found hrec fun hok r hr => by
      by_contra hpr
      exact hfound ⟨r, hr, hok, by simpa using hpr⟩]

theorem ModifyBearerAccepts.spec {r : Row} (hr : ModifyBearerAccepts env t cs r) :
    ModifiedFor t cs r (modifyBearerStore env t cs) := by
  rcases modifyBearerStore_of_found hr.mem hr.found.1 hr.found.2 with
    ⟨hno, -⟩ | ⟨-, ⟨hebi, hdb⟩, -⟩ | ⟨-, hspec⟩
  · exact absurd hr.first hno
  · exact absurd (hr.second hebi) (by simp [hdb])
  · exact hspec

/-! ## 5. The deletions -/

/-- The store phase of the three deletions, which compare different things with `ebi`. -/
def deleteStore (ebi : GtpcParseState → Nat) (env : Env) (t : TunnelTable) (cs : GtpcParseState) :
    Outcome :=
  let found := dbExecute (env.db 0) t (deleteSessionLookup cs.gtphTeid.toNat) cs
  if found.flag .record then
    match dbQuery (env.db 1) t (whereTeidEbi found.gtphTeid.toNat (ebi found)) deleteSessionUpd with
    | none => ⟨t, found, .denied⟩
    | some t1 => ⟨t1, found, .accepted⟩
  else ⟨t, found, .denied⟩

theorem deleteSessionStore_eq (cs : GtpcParseState) :
    deleteSessionStore env t cs =
      deleteStore (fun cs => (ebiLow (cs.item .ebiR)).toNat) env t cs := rfl

/-- **When a deletion is accepted**: both statements are answered and some row has the TEID. The
EBI decides only whether that row goes out of service. -/
def DeleteSessionAccepts (env : Env) (t : TunnelTable) (cs : GtpcParseState) : Prop :=
  env.db 0 = true ∧ env.db 1 = true ∧ ∃ r ∈ t.rows, r.pgwTeid = cs.gtphTeid.toNat

/-- How a deletion ends: it is accepted, and the row with the TEID and the EBI goes out of service
if there is one, or the table stays as it is. -/
def DeletionEnds (accepts : Prop) (ebi : Nat) (t : TunnelTable) (cs : GtpcParseState) (o : Outcome) :
    Prop :=
  (accepts ∧ o.verdict = .accepted ∧ o.table.rows = t.rows.map fun r =>
    if whereTeidEbi cs.gtphTeid.toNat ebi r then deleteSessionUpd r else r) ∨
  (¬ accepts ∧ o.verdict = .denied ∧ o.table = t)

/-- One proof for the three deletions. -/
theorem deleteStore_cases {ebi : GtpcParseState → Nat} (env : Env) (t : TunnelTable)
    {cs : GtpcParseState} (hebi : ∀ r, ebi (onTunnelRecord cs r) = ebi cs)
    (hrec : cs.flag .record = false) :
    DeletionEnds (DeleteSessionAccepts env t cs) (ebi cs) t cs (deleteStore ebi env t cs) := by
  have hkey : ∀ r, deleteSessionLookup cs.gtphTeid.toNat r = true → r.pgwTeid = cs.gtphTeid.toNat :=
    fun r hr => by simpa [deleteSessionLookup] using hr
  unfold deleteStore
  rcases dbExecute_cases (t := t) pgwTeid_mem_keys hkey (env.db 0) cs
    with ⟨hcs, hno⟩ | ⟨r, hr, hok, hpr, hcs⟩
  · dsimp only
    rw [hcs, if_neg (by simp [hrec])]
    refine Or.inr ⟨?_, rfl, rfl⟩
    rintro ⟨hok, -, r, hr, hteid⟩
    exact absurd (hno hok r hr) (by simp [deleteSessionLookup, hteid])
  · have hteid : (onTunnelRecord cs r).gtphTeid = cs.gtphTeid := rfl
    dsimp only
    rw [hcs, if_pos (onTunnelRecord_record cs r), hebi, hteid]
    have hkeep := dbQuery_keepKeys (env.db 1) (t := t)
      (p := whereTeidEbi cs.gtphTeid.toNat (ebi cs)) (f := deleteSessionUpd)
      (fun _ => ⟨rfl, rfl, rfl⟩)
    cases hq : dbQuery (env.db 1) t (whereTeidEbi cs.gtphTeid.toNat (ebi cs))
        deleteSessionUpd with
    | none =>
      refine Or.inr ⟨?_, rfl, rfl⟩
      rintro ⟨-, hok1, -⟩
      obtain ⟨t1, ht1⟩ := hkeep.mpr hok1
      exact absurd (hq.symm.trans ht1) (by simp)
    | some t1 =>
      exact Or.inl ⟨⟨hok, hkeep.mp ⟨t1, hq⟩, r, hr, hkey r hpr⟩, rfl, dbQuery_rows hq⟩

theorem deleteSessionStore_cases (env : Env) (t : TunnelTable) {cs : GtpcParseState}
    (hrec : cs.flag .record = false) :
    DeletionEnds (DeleteSessionAccepts env t cs) (ebiLow (cs.item .ebiR)).toNat t cs
      (deleteSessionStore env t cs) :=
  @deleteStore_cases (fun cs => (ebiLow (cs.item .ebiR)).toNat) env t cs (fun _ => rfl) hrec

section

variable {t t' : TunnelTable} {p : Row → Bool}
  (hrows : t'.rows = t.rows.map fun r => if p r then deleteSessionUpd r else r)
include hrows

theorem meets_of_deactivated {r x : Row} (hr : r ∈ t.rows) (hactive : r.active ≠ 0)
    (hx : x ∈ t'.rows) (himsi : x.imsi = r.imsi) (hinactive : x.active = 0) : p r = true := by
  rw [hrows] at hx
  obtain ⟨q, hq, rfl⟩ := mem_map.mp hx
  have hsame : (if p q then deleteSessionUpd q else q).imsi = q.imsi := by split <;> rfl
  obtain rfl : q = r := eq_of_key imsi_mem_keys hq hr (hsame.symm.trans himsi)
  by_contra hno
  rw [if_neg hno] at hinactive
  exact hactive hinactive

/-- An active row goes out of service exactly if the statement is for it. -/
theorem exists_inactive_iff {r : Row} (hr : r ∈ t.rows) (hactive : r.active = 1) :
    (∃ x ∈ t'.rows, x.imsi = r.imsi ∧ x.active = 0) ↔ p r = true := by
  constructor
  · rintro ⟨x, hx, himsi, hinactive⟩
    exact meets_of_deactivated hrows hr (by rw [hactive]; decide) hx himsi hinactive
  · intro hp
    rw [hrows]
    exact ⟨_, mem_map_of_mem hr, by simp [hp, deleteSessionUpd]⟩

end

end MixiPgw.Ctrl
