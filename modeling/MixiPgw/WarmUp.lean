/-
# Warm-up and replication

A worker of the dataplane learns of a session twice. `Cycle` gets the Private Extension of the
response through the warm-up ring, and some seconds later `VirtualCycle` gets the row from the
binlog. Both build a `lookup_t` and put it under the same key.

WHAT IS DIFFERENT: `Cycle` leaves the mode, the rates and the tokens as the stack had them.
`VirtualCycle` zeroes its record and sets the mode and the rates, but `OnNotify` never sets the
event number, so that it installs nothing at all. The two agree for every content of the stack
EXACTLY for the sessions that neither installs (**`warmup_replicated_iff`**).
-/
import MixiPgw.EndToEnd
import MixiPgw.Ctrl.Lifecycle
import MixiPgw.Data.Binlog

namespace MixiPgw

open Bytes CString Ctrl Data Option

/-! ## 1. The two paths -/

def varchar64 (t : Text) : Varchar64 := ⟨t.take 64, List.length_take_le 64 t⟩

/-- A row of the control plane as the sender has it; the columns that no `UPDATE` of the control
plane sets are those of `rest`. -/
def tunnelRowOf (rest : TunnelRow) (r : Row) : TunnelRow :=
  { rest with
    imsi := UInt64.ofNat r.imsi
    msisdn := UInt64.ofNat r.msisdn
    ueipv4 := varchar64 r.ueipv4
    pgwTeid := UInt64.ofNat r.pgwTeid
    pgwGtpcIpv := varchar64 r.pgwGtpcIpv
    pgwGtpuIpv := varchar64 r.pgwGtpuIpv
    ebi := UInt64.ofNat r.ebi
    sgwGtpcTeid := UInt64.ofNat r.sgwGtpcTeid
    sgwGtpcIpv := varchar64 r.sgwGtpcIpv
    sgwGtpuTeid := UInt64.ofNat r.sgwGtpuTeid
    sgwGtpuIpv := varchar64 r.sgwGtpuIpv
    active := UInt64.ofNat r.active
    qci := UInt64.ofNat r.qci }

def replicated (conf : Conf) (pol : Policer) (rd : Reader) (map : LookupMap)
    (old new : TunnelRow) : Option LookupMap :=
  (follow conf pol (rd, map) (stream [.update [(old, new)]])).map Prod.snd

def warmedUp {conf : Conf} (junk : Lookup) (s : Core conf) (m : Mbuf) : LookupMap :=
  (warmupStep junk s m).worker.map

/-- The frame ends with the Private Extension of the parse state. -/
def EndsWithExtension (cs : GtpcParseState) (m : Mbuf) : Prop :=
  32 ≤ m.pktLen ∧ m.bytes (m.pktLen - 32) 32 = gtpcPrivateExtensionSet cs

/-! ## 2. What they are to agree in -/

/-- The fields that `ModifyPacket` uses: all but `stat.active`. -/
def used (itm : Lookup) : Lookup := { itm with active := false }

/-- The tables have the same keys, and the same under each. -/
def SameEntry (map map' : LookupMap) : Prop := ∀ k, (map k).map used = (map' k).map used

/-- No entry that was there has more tokens. -/
def NoGain (map map' : LookupMap) : Prop :=
  ∀ k before after, map k = some before → map' k = some after →
    after.commitRate ≤ before.commitRate ∧ after.excessRate ≤ before.excessRate

/-- The warm-up does what replication does, and neither refills a bucket. -/
def Replicates {conf : Conf} (pol : Policer) (rd : Reader) (s : Core conf) (m : Mbuf)
    (old new : TunnelRow) (junk : Lookup) : Prop :=
  ∃ map, replicated conf pol rd s.worker.map old new = some map ∧
    SameEntry (warmedUp junk s m) map ∧
    NoGain s.worker.map (warmedUp junk s m) ∧ NoGain s.worker.map map

theorem NoGain.refl (map : LookupMap) : NoGain map map := by
  intro k before after hbefore hafter
  obtain rfl : before = after := some.inj (hbefore.symm.trans hafter)
  exact ⟨UInt32.le_refl _, UInt32.le_refl _⟩

/-! ## 3. The comparison -/

section

variable {conf : Conf} {cs : GtpcParseState} {s : Core conf} {m : Mbuf}

theorem replicated_eq (pol : Policer) (rd : Reader) (map : LookupMap) (old new : TunnelRow) :
    replicated conf pol rd map old new = some map := by
  have hread : ∀ c ∈ [Change.update [(old, new)]], c.readable := by
    intro c hc
    obtain rfl := List.mem_singleton.mp hc
    rfl
  unfold replicated
  rw [follow_stream, if_pos hread]

theorem warmedUp_incomplete (hm : EndsWithExtension cs m) (hc : ¬Complete cs) (junk : Lookup) :
    warmedUp junk s m = s.worker.map := by
  have hentry : (warmupItem junk m).toEntry = sessionEntry junk cs := warmupItem_extension junk hm.2
  have hvalid : ¬warmupValid (warmupItem junk m) = true := by
    intro hvalid
    refine hc ?_
    simpa [warmupValid, hentry, sessionEntry, Complete, and_assoc] using hvalid
  unfold warmedUp warmupStep
  rw [if_neg hvalid]

theorem warmedUp_mode (hm : EndsWithExtension cs m) (hc : Complete cs) (junk : Lookup) :
    (warmedUp junk s m (sessionKey conf cs)).map (fun itm => itm.mode) = some junk.mode := by
  have hentry : (warmedUp junk s m (sessionKey conf cs)).map Lookup.toEntry =
      some (sessionEntry junk cs) := warmupStep_extension hc hm.2
  obtain ⟨itm, hitm, heq⟩ := map_eq_some_iff.mp hentry
  have hmode : itm.toEntry.mode = (sessionEntry junk cs).mode := congrArg Entry.mode heq
  rw [hitm, map_some, hmode]
  rfl

theorem SameEntry.mode {map map' : LookupMap} (h : SameEntry map map') (k : UInt32) :
    (map k).map (fun itm => itm.mode) = (map' k).map (fun itm => itm.mode) := by
  have hk := congrArg (Option.map fun itm => itm.mode) (h k)
  rw [map_map, map_map] at hk
  exact hk

theorem replicates_iff (hm : EndsWithExtension cs m) (pol : Policer) (rd : Reader)
    (old new : TunnelRow) :
    (∀ junk, Replicates pol rd s m old new junk) ↔ ¬Complete cs := by
  constructor
  · intro h hc
    -- two contents of the stack give two modes, and replication gives one
    have hmode : ∀ junk : Lookup,
        some junk.mode = (s.worker.map (sessionKey conf cs)).map (fun itm => itm.mode) := by
      intro junk
      obtain ⟨map, hmap, hsame, -, -⟩ := h junk
      obtain rfl : s.worker.map = map := some.inj ((replicated_eq pol rd _ old new).symm.trans hmap)
      rw [← warmedUp_mode hm hc junk]
      exact hsame.mode _
    have htwo := (hmode zeroLookup).trans (hmode { zeroLookup with mode := .low }).symm
    cases htwo
  · intro hc junk
    refine ⟨s.worker.map, replicated_eq pol rd _ old new, ?_, ?_, NoGain.refl _⟩
    · rw [warmedUp_incomplete hm hc junk]
      exact fun _ => rfl
    · rw [warmedUp_incomplete hm hc junk]
      exact NoGain.refl _

end

/-- **Warm-up equals replication EXACTLY for the sessions that neither installs**: if and only if
one of the five values of the extension is zero. -/
theorem warmup_replicated_iff (h : Handle) (env : Env) (rx : RxPacket) (t : TunnelTable)
    (cs : GtpcParseState) (r : Row) (hrx : receive env rx (savedSeqno rx) = some cs)
    (hacc : CreateSessionAccepts h env t cs r) (conf : Conf) (s : Core conf) (m : Mbuf)
    (hm : EndsWithExtension (createSessionStore h env t cs).cs m) (pol : Policer) (rd : Reader)
    (old rest : TunnelRow) :
    ∃ row ∈ (createSessionStore h env t cs).table.rows, row.imsi = r.imsi ∧ row.active = 1 ∧
      ((∀ junk, Replicates pol rd s m old (tunnelRowOf rest row) junk) ↔
        ¬Complete (createSessionStore h env t cs).cs) := by
  obtain ⟨-, -, hrows⟩ := hacc.spec (receive_spec hrx).record
  refine ⟨createSessionSet (onTunnelRecord cs r).withEbi r, ?_, createSessionSet_imsi _ _,
    createSessionSet_active _ _, replicates_iff hm pol rd old _⟩
  rw [hrows]
  exact List.mem_map.mpr ⟨r, hacc.finds.1, if_pos rfl⟩

theorem zeroTeid_replicated :
    ∃ row ∈ zeroTeidStore.table.rows, row.imsi = zeroTeidRow.imsi ∧ row.active = 1 ∧
      ∀ junk, Replicates ⟨0, 0, 0, 0⟩ newReader (idleCore (plainConf .egressTunnel))
        (frameOf (gtpcPrivateExtensionSet zeroTeidStore.cs)) (sampleRow 0)
        (tunnelRowOf (sampleRow 0) row) junk := by
  obtain ⟨row, hrow, himsi, hactive, hiff⟩ := warmup_replicated_iff plainHandle calmEnv
    zeroEbiRequest zeroTeidTable zeroTeidCs zeroTeidRow (some_get _).symm zeroTeid_accepts
    (plainConf .egressTunnel) (idleCore _) (frameOf (gtpcPrivateExtensionSet zeroTeidStore.cs))
    ⟨Nat.le_refl 32, bytes_frameOf (gtpcPrivateExtensionSet zeroTeidStore.cs)⟩ ⟨0, 0, 0, 0⟩
    newReader (sampleRow 0) (sampleRow 0)
  refine ⟨row, hrow, himsi, hactive, hiff.mpr ?_⟩
  rintro ⟨-, hteid, -⟩
  exact hteid (by decide +kernel)

/-- The warm-up installs the session with the mode of the stack, the binlog event nothing. -/
theorem created_not_replicated :
    CreateSessionAccepts plainHandle calmEnv provisionedTable createdCs provisioned ∧
    (∀ junk, (warmedUp junk (idleCore (plainConf .egressTunnel))
        (frameOf (gtpcPrivateExtensionSet createdStore.cs))
        (sessionKey (plainConf .egressTunnel) createdStore.cs)).map (fun itm => itm.mode) =
      some junk.mode) ∧
    replicated (plainConf .egressTunnel) ⟨0, 0, 0, 0⟩ newReader noEntries (sampleRow 0)
      (tunnelRowOf (sampleRow 0) createdRow) = some noEntries ∧
    ¬∀ junk, Replicates ⟨0, 0, 0, 0⟩ newReader (idleCore (plainConf .egressTunnel))
      (frameOf (gtpcPrivateExtensionSet createdStore.cs)) (sampleRow 0)
      (tunnelRowOf (sampleRow 0) createdRow) junk := by
  have hm : EndsWithExtension createdStore.cs (frameOf (gtpcPrivateExtensionSet createdStore.cs)) :=
    ⟨Nat.le_refl 32, bytes_frameOf (gtpcPrivateExtensionSet createdStore.cs)⟩
  have hc : Complete createdStore.cs := by
    unfold Complete
    decide +kernel
  exact ⟨created_accepts, warmedUp_mode hm hc, replicated_eq _ _ _ _ _,
    fun hall => (replicates_iff hm _ _ _ _).mp hall hc⟩

end MixiPgw
