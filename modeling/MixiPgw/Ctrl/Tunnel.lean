/-
# The tunnel table and the statements run on it

The `tunnel` table of `ocs.sql` with its three unique keys, an instance of `UniqueTable`, and the
SQL of `pgw.h`: a `SELECT` fills the parse state through `on_tunnel_record`, an `UPDATE` is one
atomic statement. The environment decides whether the server answers a statement (`DbOk`); a failed
`UPDATE` changes nothing, a failed `SELECT` delivers no row.
-/
import MixiPgw.Ctrl.Items
import MixiPgw.Lib.UniqueTable

namespace MixiPgw.Ctrl

open Bytes CString Lib List UniqueTable

/-! ## 1. Rows -/

/-- The columns of `tunnel` that the gateway reads or writes. -/
structure Row where
  imsi : Nat
  msisdn : Nat
  ueipv4 : Text
  pgwTeid : Nat
  pgwGtpcIpv : Text
  pgwGtpuIpv : Text
  ebi : Nat
  sgwGtpcTeid : Nat
  sgwGtpcIpv : Text
  sgwGtpuTeid : Nat
  sgwGtpuIpv : Text
  active : Nat
  qci : Nat
  rat : Nat
  latestGtpVersion : Nat
  restartCounter : Nat
deriving DecidableEq, Repr

/-- `UNIQUE KEY` of the table definition: `imsi`, `msisdn`, `pgw_teid`. -/
def tunnelKeys : List (Row → Nat) := [Row.imsi, Row.msisdn, Row.pgwTeid]

/-- No two rows share an IMSI, an MSISDN or a gateway TEID. -/
abbrev TunnelTable := UniqueTable Row Nat tunnelKeys

theorem imsi_mem_keys : Row.imsi ∈ tunnelKeys := by simp [tunnelKeys]
theorem msisdn_mem_keys : Row.msisdn ∈ tunnelKeys := by simp [tunnelKeys]
theorem pgwTeid_mem_keys : Row.pgwTeid ∈ tunnelKeys := by simp [tunnelKeys]

/-! ## 2. Statement texts -/

def Row.activeIn01 (r : Row) : Bool := r.active = 0 || r.active = 1

def whereImsi (imsi : Nat) (r : Row) : Bool := r.imsi = imsi

def createSessionImsiLookup (imsi : Nat) (r : Row) : Bool := r.imsi = imsi && r.activeIn01

def createSessionMsisdnLookup (msisdn : Nat) (r : Row) : Bool := r.msisdn = msisdn && r.activeIn01

def modifyBearerLookup (teid : Nat) (r : Row) : Bool := r.pgwTeid = teid && r.active = 1

def deleteSessionLookup (teid : Nat) (r : Row) : Bool := r.pgwTeid = teid

/-- The `WHERE` of `DELETE_SESSION_UPD_SQL`. -/
def whereTeidEbi (teid ebi : Nat) (r : Row) : Bool := r.pgwTeid = teid && r.ebi = ebi

def createSessionPgwipUpd (ip : Text) (r : Row) : Row := { r with pgwGtpcIpv := ip, pgwGtpuIpv := ip }

def createSessionImsiMsisdnUpd (msisdn : Nat) (r : Row) : Row := { r with msisdn := msisdn }

def setSgw (cTeid : UInt32) (cip : Text) (uTeid : UInt32) (uip : Text) (r : Row) : Row :=
  { r with
    sgwGtpcTeid := cTeid.toNat
    sgwGtpcIpv := cip
    sgwGtpuTeid := uTeid.toNat
    sgwGtpuIpv := uip }

def setRestartCounter (counter : Option UInt8) (r : Row) : Row :=
  match counter with
  | some c => { r with restartCounter := c.toNat }
  | none => r

def setRat (rat : Option UInt8) (r : Row) : Row :=
  match rat with
  | some v => { r with rat := v.toNat }
  | none => r

section

variable (v : Option UInt8) (r : Row)

@[simp] theorem setRestartCounter_imsi : (setRestartCounter v r).imsi = r.imsi := by
  cases v <;> rfl

@[simp] theorem setRestartCounter_msisdn : (setRestartCounter v r).msisdn = r.msisdn := by
  cases v <;> rfl

@[simp] theorem setRestartCounter_pgwTeid : (setRestartCounter v r).pgwTeid = r.pgwTeid := by
  cases v <;> rfl

@[simp] theorem setRestartCounter_ebi : (setRestartCounter v r).ebi = r.ebi := by
  cases v <;> rfl

@[simp] theorem setRestartCounter_active : (setRestartCounter v r).active = r.active := by
  cases v <;> rfl

@[simp] theorem setRat_imsi : (setRat v r).imsi = r.imsi := by cases v <;> rfl
@[simp] theorem setRat_msisdn : (setRat v r).msisdn = r.msisdn := by cases v <;> rfl
@[simp] theorem setRat_pgwTeid : (setRat v r).pgwTeid = r.pgwTeid := by cases v <;> rfl
@[simp] theorem setRat_ebi : (setRat v r).ebi = r.ebi := by cases v <;> rfl
@[simp] theorem setRat_active : (setRat v r).active = r.active := by cases v <;> rfl

end

/-- `CREATE_SESSION_UPD_SQL`, and with a counter `CREATE_SESSION_UPD_R_SQL`. -/
def createSessionUpd (cTeid : UInt32) (cip : Text) (uTeid : UInt32) (uip : Text) (qci ebi : UInt8)
    (pgwTeid : UInt32) (counter : Option UInt8) (r : Row) : Row :=
  setRestartCounter counter
    { setSgw cTeid cip uTeid uip r with
      qci := qci.toNat, active := 1, ebi := ebi.toNat, pgwTeid := pgwTeid.toNat
      latestGtpVersion := 2 }

/-- `MODIFY_BEARER_UPD_SQL` and its `RAT` and `R` variants. -/
def modifyBearerUpd (cTeid : UInt32) (cip : Text) (uTeid : UInt32) (uip : Text) (pgwTeid : UInt32)
    (rat counter : Option UInt8) (r : Row) : Row :=
  setRestartCounter counter (setRat rat
    { setSgw cTeid cip uTeid uip r with
      pgwTeid := pgwTeid.toNat, active := 1, latestGtpVersion := 2 })

def modifyBearerRatonlyUpd (rat : UInt8) (counter : Option UInt8) (r : Row) : Row :=
  setRestartCounter counter { r with rat := rat.toNat, active := 1, latestGtpVersion := 2 }

def modifyBearerEbiUpd (ebi : UInt8) (r : Row) : Row := { r with ebi := ebi.toNat }

def deleteSessionUpd (r : Row) : Row := { r with active := 0 }

/-- `CREATE_PDP_CONTEXT_UPD_SQL`; `qci` and `ebi` are always 0. -/
def createPdpContextUpd (cTeid : UInt32) (cip : Text) (uTeid : UInt32) (uip : Text)
    (qci ebi : Nat) (pgwTeid : UInt32) (imsi : Nat) (r : Row) : Row :=
  { setSgw cTeid cip uTeid uip r with
    qci := qci, active := 1, ebi := ebi, pgwTeid := pgwTeid.toNat, imsi := imsi, rat := 1
    latestGtpVersion := 1 }

def updatePdpContextUpd (cTeid : UInt32) (cip : Text) (uTeid : UInt32) (uip : Text) (r : Row) :
    Row :=
  { setSgw cTeid cip uTeid uip r with rat := 1, active := 1, latestGtpVersion := 1 }

/-! ## 3. Running a statement -/

/-- Whether the server answers the `n`-th statement of a request, in the order of the source. -/
abbrev DbOk := Nat → Bool

/-- `DBPROVIDER_QUERY` of an `UPDATE`; `none` is a non-zero return. -/
def dbQuery (ok : Bool) (t : TunnelTable) (p : Row → Bool) (f : Row → Row) : Option TunnelTable :=
  if ok then t.update p f else none

variable {ok : Bool} {t t' : TunnelTable} {p : Row → Bool} {f : Row → Row}

theorem dbQuery_eq_some : dbQuery ok t p f = some t' ↔ ok = true ∧ t.update p f = some t' := by
  cases ok <;> simp [dbQuery]

theorem dbQuery_rows
    (h : dbQuery ok t p f = some t') : t'.rows = t.rows.map fun r => if p r then f r else r :=
  update_rows (dbQuery_eq_some.mp h).2

theorem dbQuery_forall (h : dbQuery ok t p f = some t') {P : Row → Prop} (hP : ∀ r ∈ t.rows, P r)
    (hf : ∀ r ∈ t.rows, p r = true → P r → P (f r)) : ∀ r ∈ t'.rows, P r :=
  update_forall (dbQuery_eq_some.mp h).2 hP hf

theorem dbQuery_keepKeys (ok : Bool)
    (hf : ∀ r, (f r).imsi = r.imsi ∧ (f r).msisdn = r.msisdn ∧ (f r).pgwTeid = r.pgwTeid) :
    (∃ t', dbQuery ok t p f = some t') ↔ ok = true := by
  simp only [dbQuery_eq_some, exists_and_left, and_iff_left_iff_imp]
  intro _
  refine update_isSome fun k hk r _ _ => ?_
  simp only [tunnelKeys, mem_cons, not_mem_nil, or_false] at hk
  rcases hk with rfl | rfl | rfl
  · exact (hf r).1
  · exact (hf r).2.1
  · exact (hf r).2.2

variable {v : Nat} {k : Row → Nat}

theorem dbQuery_setKey (ok : Bool) (t : TunnelTable) (imsi : Nat)
    (hk : k ∈ tunnelKeys) (hset : ∀ r, k (f r) = v)
    (hrest : ∀ k' ∈ tunnelKeys, k' = k ∨ ∀ r, r.imsi = imsi → k' (f r) = k' r) :
    (∃ t', dbQuery ok t (whereImsi imsi) f = some t') ↔
      ok = true ∧ ∀ r ∈ t.rows, r.imsi = imsi → ∀ r' ∈ t.rows, k r' = v → r'.imsi = imsi := by
  simp only [dbQuery_eq_some, exists_and_left]
  rw [update_isSome_iff imsi_mem_keys (v := imsi) (by simp [whereImsi])]
  simp only [whereImsi, decide_eq_true_eq]
  refine and_congr_right fun _ => ⟨fun h r hr hi r' hr' hv => ?_, fun h r hr hi k' hk' r' hr' he => ?_⟩
  · rw [h r hr hi k hk r' hr' (hv.trans (hset r).symm), hi]
  · rcases hrest k' hk' with rfl | hsame
    · have hi' : r'.imsi = imsi := h r hr hi r' hr' (he.trans (hset r))
      exact eq_of_key imsi_mem_keys hr' hr (hi'.trans hi.symm)
    · exact eq_of_key hk' hr' hr (he.trans (hsame r hi))

/-! ## 4. Lookups -/

/-- `on_tunnel_record`. The addresses go through fixed arrays, and `inet_aton` leaves the old one
alone when it cannot read the new. -/
def onTunnelRecord (cs : GtpcParseState) (r : Row) : GtpcParseState :=
  let ueIpv := strmincpy cs.db.ueIpv r.ueipv4
  let pgwUIpv := strmincpy cs.db.pgwUIpv r.pgwGtpuIpv
  let pgwCIpv := strmincpy cs.db.pgwCIpv r.pgwGtpcIpv
  { cs with
    flag := setFlag cs.flag .record
    db :=
      { ueIpv := ueIpv
        ueIpvN := (inetAton ueIpv).getD cs.db.ueIpvN
        sgwCTeid := UInt32.ofNat r.sgwGtpcTeid
        pgwTeid := UInt32.ofNat r.pgwTeid
        pgwUIpv := pgwUIpv
        pgwUIpvN := (inetAton pgwUIpv).getD cs.db.pgwUIpvN
        pgwCIpv := pgwCIpv
        pgwCIpvN := (inetAton pgwCIpv).getD cs.db.pgwCIpvN
        imsiNum := r.imsi
        msisdnNum := r.msisdn
        ebi := UInt8.ofNat r.ebi } }

/-- `DBPROVIDER_EXECUTE` of a lookup: the callback on every row found. -/
def dbExecute (ok : Bool) (t : TunnelTable) (p : Row → Bool) (cs : GtpcParseState) :
    GtpcParseState :=
  if ok then (t.select p).foldl onTunnelRecord cs else cs

theorem select_of_unique (hk : k ∈ tunnelKeys) (hp : ∀ r, p r = true → k r = v) :
    t.select p = [] ∨ ∃ r ∈ t.rows, p r = true ∧ t.select p = [r] := by
  have hnd : (t.select p).Nodup := (t.unique k hk).of_map k |>.filter p
  have hall : ∀ r ∈ t.select p, k r = v := fun r hr => hp r (mem_select.mp hr).2
  match hsel : t.select p with
  | [] => exact Or.inl rfl
  | [r] =>
    have hr := mem_select.mp (hsel ▸ mem_singleton_self r)
    exact Or.inr ⟨r, hr.1, hr.2, rfl⟩
  | r :: r' :: rest =>
    have hr : r ∈ t.select p := by rw [hsel]; simp
    have hr' : r' ∈ t.select p := by rw [hsel]; simp
    have heq : r = r' := eq_of_key hk (mem_select.mp hr).1
      (mem_select.mp hr').1 ((hall r hr).trans (hall r' hr').symm)
    rw [hsel, heq] at hnd
    simp at hnd

theorem dbExecute_cases (hk : k ∈ tunnelKeys)
    (hp : ∀ r, p r = true → k r = v) (ok : Bool) (cs : GtpcParseState) :
    (dbExecute ok t p cs = cs ∧ (ok = true → ∀ r ∈ t.rows, p r = false)) ∨
      ∃ r ∈ t.rows, ok = true ∧ p r = true ∧ dbExecute ok t p cs = onTunnelRecord cs r := by
  unfold dbExecute
  cases ok with
  | false => exact Or.inl ⟨by simp, by simp⟩
  | true =>
    rcases select_of_unique (t := t) hk hp with hnil | ⟨r, hr, hpr, hone⟩
    · refine Or.inl ⟨by simp [hnil], fun _ r hr => ?_⟩
      by_contra hpr
      have : r ∈ t.select p := mem_select.mpr ⟨hr, by simpa using hpr⟩
      rw [hnil] at this
      simp at this
    · exact Or.inr ⟨r, hr, rfl, hpr, by simp [hone]⟩

theorem dbExecute_of_found (hk : k ∈ tunnelKeys) (hp : ∀ r, p r = true → k r = v)
    (cs : GtpcParseState) {r : Row} (hr : r ∈ t.rows) (hok : ok = true) (hpr : p r = true) :
    dbExecute ok t p cs = onTunnelRecord cs r := by
  rcases dbExecute_cases (t := t) hk hp ok cs with ⟨-, hno⟩ | ⟨r', hr', -, hpr', hcs⟩
  · exact absurd (hno hok r hr) (by simp [hpr])
  · obtain rfl := eq_of_key hk hr' hr ((hp r' hpr').trans (hp r hpr).symm)
    exact hcs

theorem dbExecute_of_not_found (cs : GtpcParseState)
    (hno : ok = true → ∀ r ∈ t.rows, p r = false) : dbExecute ok t p cs = cs := by
  unfold dbExecute
  split
  · rename_i hok
    have hnil : t.select p = [] := filter_eq_nil_iff.mpr fun r hr => by simp [hno hok r hr]
    simp [hnil]
  · rfl

end MixiPgw.Ctrl
