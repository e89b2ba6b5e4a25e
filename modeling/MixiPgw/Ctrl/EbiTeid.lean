/-
# The EBI inside the TEID

Create Session and Modify Bearer replace the first four bits of `pgw_teid` by the EBI of the bearer
context, so that the TEID of an active row should tell its EBI. But the two columns are written by
DIFFERENT statements under different conditions.

* `ebiTeid_throughout_iff`: which histories of requests keep them together.
* `session_found_iff`: the TEID that a Create Session hands out stays valid exactly as long as every
  Modify Bearer with both F-TEIDs carries the session's EBI.
-/
import MixiPgw.Ctrl.PdpContext
import MixiPgw.Ctrl.Responses
import MixiPgw.Lib.Run

namespace MixiPgw.Ctrl

open Bytes CString Lib Option List PdpProcedure UniqueTable

/-! ## 1. The first four bits -/

def nibble (teid : Nat) : Nat := teid / 2 ^ 28 % 16

theorem toNat_replaceEbi (x : UInt32) (low : UInt8) :
    (replaceEbi x low).toNat = x.toNat % 2 ^ 28 + low.toNat % 16 * 2 ^ 28 := by
  have hlow : (low &&& 0xf).toNat = low.toNat % 16 := by
    rw [UInt8.toNat_and, show (0xf : UInt8).toNat = 2 ^ 4 - 1 from by decide,
      Nat.and_two_pow_sub_one_eq_mod]
  have hshift : ((low &&& 0xf).toUInt32 <<< (28 : UInt32)).toNat = low.toNat % 16 * 2 ^ 28 := by
    rw [UInt32.toNat_shiftLeft, UInt8.toNat_toUInt32, hlow,
      show (28 : UInt32).toNat % 32 = 28 from by decide, Nat.shiftLeft_eq]
    omega
  have hmask : ((0xf0000000 : UInt32) &&& ((low &&& 0xf).toUInt32 <<< (28 : UInt32))).toNat =
      low.toNat % 16 * 2 ^ 28 := by
    rw [UInt32.toNat_and, hshift, Nat.and_comm,
      show (0xf0000000 : UInt32).toNat = (2 ^ 4 - 1) <<< 28 from by decide, and_window]
    omega
  unfold replaceEbi
  rw [UInt32.toNat_or, toNat_and_0fffffff, hmask]
  exact or_eq_add _ _ 28 (by omega)

theorem nibble_replaceEbi (x : UInt32) (low : UInt8) :
    nibble (replaceEbi x low).toNat = low.toNat % 16 := by
  rw [toNat_replaceEbi]
  unfold nibble
  omega

theorem nibble_ofNat (n : Nat) : nibble (UInt32.ofNat n).toNat = nibble n := by
  unfold nibble
  rw [UInt32.toNat_ofNat']
  omega

theorem replaceEbi_eq_self (x : UInt32) (low : UInt8) :
    replaceEbi x low = x ↔ low.toNat % 16 = nibble x.toNat := by
  have hx := x.toNat_lt
  rw [← UInt32.toNat_inj, toNat_replaceEbi]
  unfold nibble
  omega

theorem ebiLow_lt (ebi : List UInt8) : (ebiLow ebi).toNat < 16 := by
  unfold ebiLow
  rw [UInt8.toNat_and, show (0x0f : UInt8).toNat = 2 ^ 4 - 1 from by decide,
    Nat.and_two_pow_sub_one_eq_mod]
  omega

@[simp] theorem withEbi_pgwTeid (cs : GtpcParseState) (r : Row) :
    (onTunnelRecord cs r).withEbi.db.pgwTeid = sessionTeid cs r := rfl

theorem nibble_sessionTeid (cs : GtpcParseState) (r : Row) :
    nibble (sessionTeid cs r).toNat = (ebiLow (cs.item .ebiB)).toNat := by
  have hlow := ebiLow_lt (cs.item .ebiB)
  unfold sessionTeid
  rw [nibble_replaceEbi]
  omega

/-! ## 2. One request -/

def Row.EbiTeid (r : Row) : Prop := r.active = 1 → nibble r.pgwTeid = r.ebi % 16

/-- **The relation**: every active row's TEID starts with its EBI. -/
def EbiTeid (t : TunnelTable) : Prop := ∀ r ∈ t.rows, r.EbiTeid

instance (r : Row) : Decidable r.EbiTeid :=
  inferInstanceAs (Decidable (r.active = 1 → nibble r.pgwTeid = r.ebi % 16))

instance (t : TunnelTable) : Decidable (EbiTeid t) :=
  inferInstanceAs (Decidable (∀ r ∈ t.rows, r.EbiTeid))

variable {t : TunnelTable} {r : Row}

/-- Changing one subscriber's row keeps a property of all rows exactly if the new row has it. -/
theorem forall_map_imsi {P : Row → Prop} (hP : ∀ r ∈ t.rows, P r)
    (hr : r ∈ t.rows) (g : Row → Row) :
    (∀ x ∈ t.rows.map fun r' => if r'.imsi = r.imsi then g r' else r', P x) ↔ P (g r) := by
  rw [List.forall_mem_map]
  constructor
  · intro h
    simpa using h r hr
  · intro h r' hr'
    split
    · rename_i hi
      obtain rfl := eq_of_key imsi_mem_keys hr' hr hi
      exact h
    · exact hP r' hr'

variable {h : Handle} {env : Env} {cs : GtpcParseState}

theorem createSessionStore_ebiTeid
    (ht : EbiTeid t) : EbiTeid (createSessionStore h env t cs).table := by
  refine createSessionStore_forall ht (fun _ _ hr => hr) (fun _ _ hr => hr) fun cs' r _ => ?_
  rw [createSessionSet_pgwTeid, createSessionSet_ebi]
  exact nibble_replaceEbi _ _

theorem deleteSession_ebiTeid {p : Row → Bool} (ht : EbiTeid t) :
    ∀ r ∈ t.rows.map fun r => if p r then deleteSessionUpd r else r, r.EbiTeid := by
  rw [List.forall_mem_map]
  intro r hr
  split
  · exact fun hactive => absurd hactive (by simp [deleteSessionUpd])
  · exact ht r hr

theorem deleteSessionStore_ebiTeid (hrec : cs.flag .record = false) (ht : EbiTeid t) :
    EbiTeid (deleteSessionStore env t cs).table := by
  rcases deleteSessionStore_cases env t hrec with ⟨-, -, hrows⟩ | ⟨-, -, htable⟩
  · unfold EbiTeid
    rw [hrows]
    exact deleteSession_ebiTeid ht
  · rw [htable]
    exact ht

/-- **What Modify Bearer needs.** With both F-TEIDs the four bits are rewritten, so the EBI has
to be updated too or be in them already; without them only the EBI can change. -/
def ModifyKeepsEbi (env : Env) (t : TunnelTable) (cs : GtpcParseState) : Prop :=
  ∀ r ∈ t.rows, env.db 0 = true → modifyBearerLookup cs.gtphTeid.toNat r = true →
    ModifyBearerFirstFits env t cs r →
    if bothTeids cs then
      (cs.flag .ebiB = true ∧ env.db 2 = true) ∨ r.ebi % 16 = (ebiLow (cs.item .ebiB)).toNat
    else
      (cs.flag .ebiB = true ∧ env.db 2 = true → (ebiLow (cs.item .ebiB)).toNat = nibble r.pgwTeid)

theorem firstModifiedRow_ebiTeid (hactive : r.active = 1) (hr : r.EbiTeid) :
    (firstModifiedRow cs r r).EbiTeid ↔
      (bothTeids cs = true → r.ebi % 16 = (ebiLow (cs.item .ebiB)).toNat) := by
  have hboth : bothTeids (onTunnelRecord cs r).withEbi = bothTeids cs := rfl
  have hnew := nibble_sessionTeid cs r
  unfold Row.EbiTeid firstModifiedRow
  rw [modifyBearerFirstSet_active _ _ hactive, modifyBearerFirstSet_pgwTeid, hboth,
    modifyBearerFirstSet_ebi, withEbi_pgwTeid]
  by_cases hb : bothTeids cs = true
  · simp only [hb, if_true, hnew, true_imp_iff]
    exact eq_comm
  · simp only [hb, if_false, Bool.false_eq_true, false_imp_iff, iff_true, true_imp_iff]
    exact hr hactive

theorem modifiedRow_ebiTeid (hactive : r.active = 1) (hr : r.EbiTeid) :
    (modifiedRow cs r r).EbiTeid ↔
      if bothTeids cs then
        cs.flag .ebiB = true ∨ r.ebi % 16 = (ebiLow (cs.item .ebiB)).toNat
      else (cs.flag .ebiB = true → (ebiLow (cs.item .ebiB)).toNat = nibble r.pgwTeid) := by
  have hlow := ebiLow_lt (cs.item .ebiB)
  unfold modifiedRow
  by_cases hebi : cs.flag .ebiB = true
  · have hboth : bothTeids (onTunnelRecord cs r).withEbi = bothTeids cs := rfl
    have hnew := nibble_sessionTeid cs r
    have hact := modifyBearerFirstSet_active (onTunnelRecord cs r).withEbi r hactive
    simp only [hebi, if_true, true_or, true_imp_iff, Row.EbiTeid, modifyBearerEbiUpd,
      firstModifiedRow, hact, modifyBearerFirstSet_pgwTeid, hboth, withEbi_pgwTeid]
    by_cases hb : bothTeids cs = true
    · simp only [hb, if_true, hnew, iff_true]
      omega
    · simp only [hb, if_false, Bool.false_eq_true]
      omega
  · simp only [hebi, if_false, Bool.false_eq_true, false_or, false_imp_iff,
      firstModifiedRow_ebiTeid hactive hr]
    by_cases hb : bothTeids cs = true <;> simp [hb]

theorem modifyBearerStore_ebiTeid_iff (hrec : cs.flag .record = false) (ht : EbiTeid t) :
    EbiTeid (modifyBearerStore env t cs).table ↔ ModifyKeepsEbi env t cs := by
  by_cases hfound : ∃ r ∈ t.rows, env.db 0 = true ∧ modifyBearerLookup cs.gtphTeid.toNat r = true
  · obtain ⟨r, hr, hok, hpr⟩ := hfound
    have hactive := (teid_of_modifyLookup hpr).2
    -- the condition speaks about this row only
    have hone : ∀ r' ∈ t.rows, modifyBearerLookup cs.gtphTeid.toNat r' = true → r' = r :=
      fun r' hr' hpr' => eq_of_key pgwTeid_mem_keys hr' hr
        ((teid_of_modifyLookup hpr').1.trans (teid_of_modifyLookup hpr).1.symm)
    rcases modifyBearerStore_of_found hr hok hpr with
      ⟨hno, -, htable⟩ | ⟨hfits, ⟨hebi, hdb⟩, -, hrows⟩ | ⟨hacc, -, -, hrows⟩
    · rw [htable]
      exact iff_of_true ht fun r' hr' _ hpr' hfits => absurd (hone r' hr' hpr' ▸ hfits) hno
    · unfold EbiTeid
      rw [hrows, forall_map_imsi ht hr, firstModifiedRow_ebiTeid hactive (ht r hr)]
      constructor
      · intro h r' hr' _ hpr' _
        obtain rfl := hone r' hr' hpr'
        by_cases hb : bothTeids cs = true
        · simp only [hb, if_true]
          exact Or.inr (h hb)
        · simp [hb, hdb]
      · intro h hb
        have hneed := h r hr hok hpr hfits
        simpa [hb, hdb] using hneed
    · unfold EbiTeid
      rw [hrows, forall_map_imsi ht hr, modifiedRow_ebiTeid hactive (ht r hr)]
      have hsecond : (cs.flag .ebiB = true ∧ env.db 2 = true) ↔ cs.flag .ebiB = true :=
        ⟨fun h => h.1, fun h => ⟨h, hacc.second h⟩⟩
      constructor
      · intro h r' hr' _ hpr' _
        obtain rfl := hone r' hr' hpr'
        rw [hsecond]
        exact h
      · intro h
        have hneed := h r hr hok hpr hacc.first
        rwa [hsecond] at hneed
  · rw [modifyBearerStore_of_not_found hrec fun hok r hr => by
      by_contra hpr
      exact hfound ⟨r, hr, hok, by simpa using hpr⟩]
    exact iff_of_true ht fun r hr hok hpr _ => absurd ⟨r, hr, hok, hpr⟩ hfound

/-- **What Create PDP Context needs**: it sets the EBI to 0 and keeps the TEID. -/
def CreatePdpKeepsEbi (env : Env) (t : TunnelTable) (cs : GtpcParseState) : Prop :=
  hasAll cs.flagV1 createPdp.required = true →
    ∀ r, CreatePdpAccepts env t cs r → nibble r.pgwTeid = 0

theorem createPdp_ebiTeid_iff (hrec : cs.flag .record = false) (ht : EbiTeid t) :
    EbiTeid (createPdp.store env t cs).table ↔ CreatePdpKeepsEbi env t cs := by
  unfold PdpProcedure.store CreatePdpKeepsEbi
  by_cases hreq : hasAll cs.flagV1 createPdp.required = true
  · simp only [hreq, if_true, true_imp_iff]
    rcases onCreatePdpCtx_cases env t hrec with ⟨r, hacc, -, hrows⟩ | ⟨hno, -, htable⟩
    · have hnew : (pdpRow cs r r).EbiTeid ↔ nibble r.pgwTeid = 0 := by
        rw [← nibble_ofNat r.pgwTeid]
        exact ⟨fun h => h rfl, fun h _ => h⟩
      unfold EbiTeid
      rw [hrows, forall_map_imsi ht hacc.mem, hnew]
      refine ⟨fun h r' hr' => ?_, fun h => h r hacc⟩
      obtain rfl : r' = r := eq_of_key imsi_mem_keys hr'.mem hacc.mem
        ((imsi_of_lookup hr'.found.2).trans (imsi_of_lookup hacc.found.2).symm)
      exact h
    · rw [htable]
      exact iff_of_true ht fun r hr => absurd hr (hno r)
  · simp only [hreq, if_false, Bool.false_eq_true, false_imp_iff, iff_true]
    exact ht

theorem updatePdp_ebiTeid (hrec : cs.flag .record = false) (ht : EbiTeid t) :
    EbiTeid (updatePdp.store env t cs).table := by
  unfold PdpProcedure.store
  split
  · exact onUpdatePdpCtx_forall hrec ht fun _ _ hactive hr _ => hr hactive
  · exact ht

theorem deletePdp_ebiTeid (ht : EbiTeid t) : EbiTeid (deletePdp.store env t cs).table := by
  unfold PdpProcedure.store
  split
  · exact onDeletePdpCtx_forall ht fun _ _ hactive => absurd hactive (by simp [deleteSessionUpd])
  · exact ht

/-! ## 3. Any history of requests -/

inductive Request
  | session (p : Procedure) (rx : RxPacket)
  | pdp (p : PdpProcedure) (fuel : Nat) (rx : RxPacket)

structure Event where
  env : Env
  request : Request

def tableAfter (h : Handle) (t : TunnelTable) (e : Event) : TunnelTable :=
  match e.request with
  | .session p rx => (handle h e.env p rx ⟨t, []⟩).table
  | .pdp p fuel rx => tableAfterPdp fuel e.env p rx t

/-- A request as a step; the handlers always return. -/
def requestStep (h : Handle) (t : TunnelTable) (e : Event) : Option TunnelTable :=
  some (tableAfter h t e)

/-- **What a request needs to keep the relation**, in the table it meets. -/
def KeepsEbi (t : TunnelTable) (e : Event) : Prop :=
  match e.request with
  | .session .modifyBearer rx =>
    ∀ cs, receive e.env rx (savedSeqnoTeid rx) = some cs → ModifyKeepsEbi e.env t cs
  | .pdp .createPdp fuel rx =>
    ∀ cs, walkV1 fuel e.env.mem.stack rx = some (some cs) → CreatePdpKeepsEbi e.env t cs
  | _ => True

variable {rx : RxPacket}

theorem session_ebiTeid_iff {p : Procedure} (ht : EbiTeid t) :
    EbiTeid (handle h env p rx ⟨t, []⟩).table ↔ KeepsEbi t ⟨env, .session p rx⟩ := by
  unfold handle
  cases hrx : receive env rx (p.saved rx) with
  | none =>
    refine iff_of_true ht ?_
    cases p with
    | modifyBearer =>
      intro cs hcs
      exact absurd (hrx.symm.trans hcs) (by simp)
    | createSession | deleteSession | deleteBearer => trivial
  | some cs =>
    have hrec : cs.flag .record = false := (receive_spec hrx).record.trans (p.saved_record rx)
    dsimp only
    cases p with
    | createSession => exact iff_of_true (createSessionStore_ebiTeid ht) trivial
    | modifyBearer =>
      refine (modifyBearerStore_ebiTeid_iff hrec ht).trans ⟨fun hkeep cs' hcs' => ?_, fun hkeep => ?_⟩
      · obtain rfl : cs = cs' := some.inj (hrx.symm.trans hcs')
        exact hkeep
      · exact hkeep cs hrx
    | deleteSession => exact iff_of_true (deleteSessionStore_ebiTeid hrec ht) trivial
    | deleteBearer => exact iff_of_true (deleteSessionStore_ebiTeid hrec ht) trivial

theorem pdp_ebiTeid_iff {p : PdpProcedure} {fuel : Nat} (ht : EbiTeid t) :
    EbiTeid (tableAfterPdp fuel env p rx t) ↔ KeepsEbi t ⟨env, .pdp p fuel rx⟩ := by
  unfold tableAfterPdp
  split
  · rename_i cs hwalk
    have hrec := walkV1_record hwalk
    cases p with
    | createPdp =>
      refine (createPdp_ebiTeid_iff hrec ht).trans ⟨fun hkeep cs' hcs' => ?_, fun hkeep => ?_⟩
      · obtain rfl : cs = cs' := some.inj (some.inj (hwalk.symm.trans hcs'))
        exact hkeep
      · exact hkeep cs hwalk
    | updatePdp => exact iff_of_true (updatePdp_ebiTeid hrec ht) trivial
    | deletePdp => exact iff_of_true (deletePdp_ebiTeid ht) trivial
  · rename_i hno
    refine iff_of_true ht ?_
    cases p with
    | createPdp => exact fun cs hcs => absurd hcs (hno cs)
    | updatePdp | deletePdp => trivial

theorem tableAfter_ebiTeid_iff (h : Handle) (t : TunnelTable) (e : Event) (ht : EbiTeid t) :
    EbiTeid (tableAfter h t e) ↔ KeepsEbi t e := by
  obtain ⟨env, request⟩ := e
  cases request with
  | session p rx => exact session_ebiTeid_iff ht
  | pdp p fuel rx => exact pdp_ebiTeid_iff ht

/-- **Any history of requests, exactly.** The relation holds in every state of a run if and only
if every request gets what it needs in the state it meets. -/
theorem ebiTeid_throughout_iff (h : Handle) (t : TunnelTable) (ht : EbiTeid t)
    (events : List Event) :
    Throughout (requestStep h) EbiTeid t events ↔ EachStep (requestStep h) KeepsEbi t events := by
  refine throughout_iff_eachStep (fun s e s' hs _ hstep => ?_) ht eachStep_true
  obtain rfl := some.inj hstep
  exact tableAfter_ebiTeid_iff h s e hs

def boundSubscriber : Row := { subscriber with pgwTeid := 0x50000005, ebi := 5 }

def boundTable : TunnelTable :=
  ⟨[boundSubscriber, { neighbour with pgwTeid := 0x60000009, ebi := 6 }], by decide⟩

theorem boundTable_throughout :
    EbiTeid boundTable ∧
      Throughout (requestStep plainHandle) EbiTeid boundTable
        [⟨calmEnv, .session .deleteBearer deleteBearerRequest⟩,
          ⟨calmEnv, .session .createSession createSessionRequest⟩] :=
  ⟨by decide, (ebiTeid_throughout_iff plainHandle boundTable (by decide) _).mpr
    fun _ _ => ⟨trivial, eachStep_singleton trivial⟩⟩

/-- A Modify Bearer Request for that TEID with both F-TEIDs and no EBI. -/
def modifyWithoutEbi : RxPacket where
  data := ⟨[0x48, 34, 0, 38, 0x50, 0, 0, 5, 0, 0, 1, 0, 87, 0, 9, 0, 0x86, 0, 0, 0, 7, 10, 0, 0, 1,
    93, 0, 13, 0, 87, 0, 9, 0, 0x84, 0, 0, 0, 8, 10, 0, 0, 2], fun _ => 0⟩
  datalen := 42
  saddr := ⟨2, 2123, 1⟩
  caddr := ⟨2, 2123, 2⟩

/-- It zeroes the four bits and leaves the column alone. -/
theorem modifyWithoutEbi_breaks :
    EbiTeid boundTable ∧
      ¬ EbiTeid
        (tableAfter plainHandle boundTable ⟨calmEnv, .session .modifyBearer modifyWithoutEbi⟩) := by
  decide +kernel

/-! ## 4. The TEID that was handed out -/

/-- The session of `imsi` is active, and `MODIFY_BEARER_LOOKUP_SQL` finds it for `teid`. -/
def SessionFound (teid : UInt32) (imsi : Nat) (t : TunnelTable) : Prop :=
  ∃ r ∈ t.rows, r.imsi = imsi ∧ modifyBearerLookup teid.toNat r = true

instance (teid : UInt32) (imsi : Nat) (t : TunnelTable) : Decidable (SessionFound teid imsi t) :=
  inferInstanceAs (Decidable (∃ r ∈ t.rows, r.imsi = imsi ∧ modifyBearerLookup teid.toNat r = true))

def tableAfterModify (h : Handle) (t : TunnelTable) (e : Env × RxPacket) : TunnelTable :=
  tableAfter h t ⟨e.1, .session .modifyBearer e.2⟩

def modifyStep (h : Handle) (t : TunnelTable) (e : Env × RxPacket) : Option TunnelTable :=
  some (tableAfterModify h t e)

def ModifyAcceptedFor (imsi : Nat) (t : TunnelTable) (e : Env × RxPacket) : Prop :=
  ∃ cs r, receive e.1 e.2 (savedSeqnoTeid e.2) = some cs ∧ ModifyBearerAccepts e.1 t cs r ∧
    r.imsi = imsi

/-- **What a Modify Bearer needs to leave the TEID alone**: with both F-TEIDs, the EBI that the TEID
has; none counts as 0. -/
def KeepsTeid (teid : UInt32) (e : Env × RxPacket) : Prop :=
  ∀ cs, receive e.1 e.2 (savedSeqnoTeid e.2) = some cs → bothTeids cs = true →
    (ebiLow (cs.item .ebiB)).toNat = nibble teid.toNat

section

variable (cs : GtpcParseState) (r r' : Row)

@[simp] theorem modifiedRow_imsi : (modifiedRow cs r r').imsi = r'.imsi := by
  unfold modifiedRow
  split <;> exact modifyBearerFirstSet_imsi _ _

theorem modifiedRow_active (hactive : r'.active = 1) : (modifiedRow cs r r').active = 1 := by
  unfold modifiedRow
  split <;> exact modifyBearerFirstSet_active _ _ hactive

theorem modifiedRow_pgwTeid :
    (modifiedRow cs r r').pgwTeid =
      if bothTeids cs then (sessionTeid cs r).toNat else r'.pgwTeid := by
  unfold modifiedRow
  split <;> exact modifyBearerFirstSet_pgwTeid _ _

end

variable {teid : UInt32}

theorem modifiedRow_found_iff (hr : modifyBearerLookup teid.toNat r = true) :
    modifyBearerLookup teid.toNat (modifiedRow cs r r) = true ↔
      (bothTeids cs = true → (ebiLow (cs.item .ebiB)).toNat = nibble teid.toNat) := by
  obtain ⟨hteid, hactive⟩ := teid_of_modifyLookup hr
  have hlow := ebiLow_lt (cs.item .ebiB)
  have hself : (sessionTeid cs r).toNat = teid.toNat ↔
      (ebiLow (cs.item .ebiB)).toNat = nibble teid.toNat := by
    unfold sessionTeid
    rw [hteid, UInt32.ofNat_toNat, UInt32.toNat_inj, replaceEbi_eq_self, Nat.mod_eq_of_lt hlow]
  simp only [modifyBearerLookup, modifiedRow_pgwTeid, modifiedRow_active cs r r hactive, decide_true,
    Bool.and_true, decide_eq_true_eq]
  by_cases hb : bothTeids cs = true
  · simp only [hb, if_true, hself, true_imp_iff]
  · simp [hb, hteid]

theorem modify_sessionFound_iff {imsi : Nat}
    {e : Env × RxPacket} (hfound : SessionFound teid imsi t) (hacc : ModifyAcceptedFor imsi t e) :
    SessionFound teid imsi (tableAfterModify h t e) ↔ KeepsTeid teid e := by
  obtain ⟨env, rx⟩ := e
  obtain ⟨cs, r, hrx, hacc, rfl⟩ := hacc
  obtain ⟨r', hr', himsi, hlookup⟩ := hfound
  obtain rfl : r' = r := eq_of_key imsi_mem_keys hr' hacc.mem himsi
  have htable : (tableAfterModify h t (env, rx)).rows =
      t.rows.map fun x => if x.imsi = r'.imsi then modifiedRow cs r' x else x := by
    rw [← hacc.spec.2.2]
    simp [tableAfterModify, tableAfter, handle, Procedure.saved, hrx, Procedure.store]
  have hkeeps : KeepsTeid teid (env, rx) ↔
      (bothTeids cs = true → (ebiLow (cs.item .ebiB)).toNat = nibble teid.toNat) := by
    refine ⟨fun hk => hk cs hrx, fun hk cs' hcs' => ?_⟩
    obtain rfl : cs = cs' := some.inj (hrx.symm.trans hcs')
    exact hk
  rw [hkeeps, ← modifiedRow_found_iff hlookup]
  unfold SessionFound
  rw [htable]
  constructor
  · rintro ⟨x, hx, hximsi, hxlookup⟩
    obtain ⟨y, hy, rfl⟩ := mem_map.mp hx
    by_cases hyi : y.imsi = r'.imsi
    · obtain rfl : y = r' := eq_of_key imsi_mem_keys hy hr' hyi
      simpa using hxlookup
    · exact absurd hximsi (by simp [hyi])
  · intro hnew
    exact ⟨modifiedRow cs r' r', mem_map.mpr ⟨r', hr', by simp⟩, by simp, hnew⟩

theorem createSessionStore_sessionFound (hrec : cs.flag .record = false)
    (hacc : CreateSessionAccepts h env t cs r) :
    SessionFound (sessionTeid cs r) r.imsi (createSessionStore h env t cs).table := by
  obtain ⟨-, -, hrows⟩ := hacc.spec hrec
  refine ⟨createSessionSet (onTunnelRecord cs r).withEbi r, ?_, ?_, ?_⟩
  · rw [hrows]
    exact mem_map.mpr ⟨r, hacc.finds.1, by simp⟩
  · simp [createSessionSet, createSessionUpd, setSgw]
  · simp [modifyBearerLookup, createSessionSet_pgwTeid, createSessionSet_active]

/-- **The TEID handed out, exactly.** Behind Modify Bearers accepted for its session, the
session is active and found for the TEID of the response if and only if each of them leaves the
TEID alone. -/
theorem session_found_iff (h : Handle) (env : Env) (rx : RxPacket) (t : TunnelTable)
    (cs : GtpcParseState) (r : Row) (pckt : TxPacket)
    (hrx : receive env rx (savedSeqno rx) = some cs) (hacc : CreateSessionAccepts h env t cs r)
    (hsent : createSessionAnswer h rx (createSessionStore h env t cs) = some pckt)
    (modifies : List (Env × RxPacket))
    (hmodifies : EachStep (modifyStep h) (ModifyAcceptedFor r.imsi)
      (createSessionStore h env t cs).table modifies) :
    Throughout (modifyStep h) (SessionFound (controlTeid pckt) r.imsi)
        (createSessionStore h env t cs).table modifies ↔
      EachStep (modifyStep h) (fun _ e => KeepsTeid (controlTeid pckt) e)
        (createSessionStore h env t cs).table modifies := by
  have hrec : cs.flag .record = false := (receive_spec hrx).record
  obtain ⟨hv, hcs, -⟩ := hacc.spec hrec
  have hteid : controlTeid pckt = sessionTeid cs r := by
    rw [createSessionAnswer_controlTeid hv hsent, hcs, withEbi_pgwTeid]
  rw [hteid]
  refine throughout_iff_eachStep (fun s e s' hs ha hstep => ?_)
    (createSessionStore_sessionFound hrec hacc) hmodifies
  obtain rfl := some.inj hstep
  exact modify_sessionFound_iff hs ha

/-- A Modify Bearer Request for that TEID with both F-TEIDs and EBI 5. -/
def modifyWithEbi : RxPacket where
  data := ⟨[0x48, 34, 0, 43, 0x50, 0, 0, 5, 0, 0, 2, 0, 87, 0, 9, 0, 0x86, 0, 0, 0, 7, 10, 0, 0, 1,
    93, 0, 18, 0, 73, 0, 1, 0, 5, 87, 0, 9, 0, 0x84, 0, 0, 0, 8, 10, 0, 0, 2], fun _ => 0⟩
  datalen := 47
  saddr := ⟨2, 2123, 1⟩
  caddr := ⟨2, 2123, 2⟩

def createdCs : GtpcParseState :=
  (receive calmEnv createSessionRequest (savedSeqno createSessionRequest)).get (by decide +kernel)

def createdStore : Outcome := createSessionStore plainHandle calmEnv provisionedTable createdCs

def createdResponse : TxPacket :=
  (createSessionAnswer plainHandle createSessionRequest createdStore).get (by decide +kernel)

theorem created_accepts :
    CreateSessionAccepts plainHandle calmEnv provisionedTable createdCs provisioned := by
  decide +kernel

def createdRow : Row := createSessionSet (onTunnelRecord createdCs provisioned).withEbi provisioned

def modifyCs : GtpcParseState :=
  (receive calmEnv modifyWithEbi (savedSeqnoTeid modifyWithEbi)).get (by decide +kernel)

theorem modifyCs_accepts : ModifyBearerAccepts calmEnv createdStore.table modifyCs createdRow where
  mem := by decide +kernel
  found := by decide +kernel
  first := by
    unfold ModifyBearerFirstFits
    decide +kernel
  second := fun _ => rfl

theorem modifyWithEbi_keeps : KeepsTeid (controlTeid createdResponse) (calmEnv, modifyWithEbi) := by
  intro cs hcs _
  obtain rfl : modifyCs = cs := some.inj ((some_get _).trans hcs)
  decide +kernel

/-- With its EBI the session survives. -/
theorem created_stays_found :
    EachStep (modifyStep plainHandle) (ModifyAcceptedFor provisioned.imsi) createdStore.table
        [(calmEnv, modifyWithEbi)] ∧
      Throughout (modifyStep plainHandle)
        (SessionFound (controlTeid createdResponse) provisioned.imsi) createdStore.table
        [(calmEnv, modifyWithEbi)] := by
  have hmodify : EachStep (modifyStep plainHandle) (ModifyAcceptedFor provisioned.imsi)
      createdStore.table [(calmEnv, modifyWithEbi)] :=
    eachStep_singleton ⟨modifyCs, createdRow, (some_get _).symm, modifyCs_accepts, rfl⟩
  exact ⟨hmodify, (session_found_iff plainHandle calmEnv createSessionRequest provisionedTable
    createdCs provisioned createdResponse (some_get _).symm created_accepts
    (some_get _).symm _ hmodify).mpr (eachStep_singleton modifyWithEbi_keeps)⟩

/-- Without it the request is accepted and the TEID is gone. -/
theorem modifyWithoutEbi_loses :
    controlTeid createdResponse = 0x50000005 ∧
      SessionFound 0x50000005 provisioned.imsi createdStore.table ∧
      (receive calmEnv modifyWithoutEbi (savedSeqnoTeid modifyWithoutEbi)).map
        (fun cs => (modifyBearerStore calmEnv createdStore.table cs).verdict) = some .accepted ∧
      ¬ SessionFound 0x50000005 provisioned.imsi
        (tableAfterModify plainHandle createdStore.table (calmEnv, modifyWithoutEbi)) := by
  decide +kernel

end MixiPgw.Ctrl
