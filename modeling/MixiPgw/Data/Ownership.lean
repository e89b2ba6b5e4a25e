/-
# Linear ownership of packet buffers

Every buffer that a core dequeues has to end in exactly one place: the output ring or the burst
buffer in front of it, the error-indication ring, or freed once. **`ownedOnce_throughout_iff`**:
ownership stays linear EXACTLY as long as no warm-up frame with a zero value is dequeued (it is
skipped before it is freed) and no frame that the distributor rejects is taken by the
error-indication ring (it is handed on as well).
-/
import MixiPgw.Data.Cycle
import MixiPgw.Lib.Ledger

namespace MixiPgw.Data

open Bytes Lib List Option

variable {conf : Conf}

/-! ## 1. The ledger of a core -/

def Core.places (s : Core conf) : List Nat :=
  s.ringTo.map Mbuf.id ++ s.output.bufs.map Mbuf.id ++ s.ringErr.map Mbuf.id ++ s.freed

def Core.ledger (s : Core conf) : Ledger := ⟨s.places, s.taken⟩

/-- **Linear ownership.** -/
def OwnedOnce (s : Core conf) : Prop := s.ledger.Linear

instance (s : Core conf) : Decidable (OwnedOnce s) :=
  inferInstanceAs (Decidable (s.places.Perm (range s.taken)))

/-! ## 2. The parts of a cycle -/

section

variable {s s' : Core conf} {m : Mbuf} {f : Frame} {e : CycleIn} {r : Modified} {b : Bool}

theorem enqueueBulk_places (s : Core conf) (bulk : List Mbuf) (b : Bool) :
    (enqueueBulk s bulk b).places.Perm
      (s.ringTo.map Mbuf.id ++ bulk.map Mbuf.id ++ s.ringErr.map Mbuf.id ++ s.freed) := by
  unfold enqueueBulk Core.places
  split
  · simp [OutBuf.empty]
  · simp only [OutBuf.empty, map_nil, append_nil, append_assoc]
    refine List.Perm.append_left _ ?_
    rw [← append_assoc]
    exact perm_append_comm.trans (by simp)

theorem sendOrBuffer_taken : (sendOrBuffer s m b).taken = s.taken := by
  unfold sendOrBuffer enqueueBulk
  repeat' split
  all_goals rfl

theorem sendOrBuffer_places : (sendOrBuffer s m b).places.Perm (s.places ++ [m.id]) := by
  -- the new buffer behind the burst buffer, where both branches start from
  have hsent : (s.ringTo.map Mbuf.id ++ (s.output.bufs ++ [m]).map Mbuf.id ++
      s.ringErr.map Mbuf.id ++ s.freed).Perm (s.places ++ [m.id]) := by
    simp only [Core.places, map_append, append_assoc]
    refine List.Perm.append_left _ (List.Perm.append_left _ ?_)
    exact perm_append_comm.trans (by simp)
  unfold sendOrBuffer
  split
  · exact hsent
  · rw [take_of_length_le (by have := s.output.room; simp; omega)]
    exact (enqueueBulk_places s _ b).trans hsent

theorem flush_filed : Ledger.Filed [] s.ledger (flush e s).1.ledger := by
  unfold flush burstFlush
  split
  · split
    · refine .moved ?_ (enqueueBulk_places s _ _)
      unfold enqueueBulk
      split <;> rfl
    · exact .moved rfl (.refl _)
  · exact .moved rfl (.refl _)

theorem replicate_ite (p : Prop) [Decidable p] (i : Nat) :
    replicate (if p then 1 else 0) i = if p then [i] else [] := by
  split <;> rfl

theorem settle_places (hid : r.mbuf.id = s.taken) :
    (settle s f r).places.Perm
      (s.places ++ replicate ((if r.err then 1 else 0) + (if r.freed then 1 else 0)) s.taken) := by
  rw [replicate_add, replicate_ite, replicate_ite]
  unfold settle Core.places
  by_cases herr : r.err = true <;> by_cases hfreed : r.freed = true <;>
    simp only [herr, hfreed, if_true, if_false, Bool.false_eq_true, map_append, map_cons,
      map_nil, hid, append_nil, nil_append, append_assoc]
  · refine List.Perm.append_left _ (List.Perm.append_left _ (List.Perm.append_left _ ?_))
    rw [← append_assoc, ← append_assoc]
    exact List.Perm.append_right _ perm_append_comm
  · refine List.Perm.append_left _ (List.Perm.append_left _ (List.Perm.append_left _ ?_))
    exact perm_append_comm
  · exact .refl _
  · exact .refl _

theorem frameStep_filed (h : frameStep s f = some s') :
    ∃ r, modifyPacket conf f.now f.errEnq s.worker (f.numbered s.taken) = some r ∧
      Ledger.Filed [r.places] s.ledger s'.ledger := by
  unfold frameStep at h
  split at h
  · cases h
  · rename_i r hr
    have hid : r.mbuf.id = s.taken := (modifyPacket_spec hr).1
    refine ⟨r, hr, ?_⟩
    split at h
    · rename_i hret
      obtain rfl := some.inj h
      refine .one sendOrBuffer_taken (sendOrBuffer_places.trans ?_)
      have hplaces : r.places = ((if r.err then 1 else 0) + (if r.freed then 1 else 0)) + 1 := by
        unfold Modified.places
        rw [if_pos hret]
        omega
      rw [hplaces, replicate_add, ← append_assoc, hid]
      exact List.Perm.append_right _ (settle_places hid)
    · rename_i hret
      obtain rfl := some.inj h
      refine .one rfl ?_
      have hplaces : r.places = (if r.err then 1 else 0) + (if r.freed then 1 else 0) := by
        unfold Modified.places
        rw [if_neg hret]
        omega
      rw [hplaces]
      exact settle_places hid

def FrameDoubled (conf : Conf) (map : LookupMap) (f : Frame) : Prop :=
  conf.kind = .ingressDistributor ∧ doubled f.errEnq map f.mbuf = true

instance (map : LookupMap) (f : Frame) : Decidable (FrameDoubled conf map f) :=
  inferInstanceAs (Decidable (conf.kind = .ingressDistributor ∧ doubled f.errEnq map f.mbuf = true))

theorem frameDoubled_congr {map map' : LookupMap} (h : SameEntries map map') (f : Frame) :
    FrameDoubled conf map' f ↔ FrameDoubled conf map f := by
  unfold FrameDoubled doubled
  rw [authentic_congr h]

/-- A burst: every frame goes to one place exactly if none is doubled. -/
theorem burst_filed : ∀ {fs : List Frame} {s s' : Core conf}, burst s fs = some s' →
    ∃ ks, Ledger.Filed ks s.ledger s'.ledger ∧
      ((∀ k ∈ ks, k = 1) ↔ ∀ f ∈ fs, ¬ FrameDoubled conf s.worker.map f)
  | [], s, s', h => by
    obtain rfl := some.inj h
    exact ⟨[], .moved rfl (.refl _), by simp⟩
  | f :: fs, s, s', h => by
    rw [burst_cons] at h
    obtain ⟨s₁, hs₁, hrest⟩ := bind_eq_some_iff.mp h
    obtain ⟨r, hr, hfiled⟩ := frameStep_filed hs₁
    obtain ⟨r', hr', hworker, -, -⟩ := frameStep_spec hs₁
    obtain rfl := some.inj (hr.symm.trans hr')
    obtain ⟨-, hmap, hplaces⟩ := modifyPacket_spec hr
    rw [← hworker] at hmap
    obtain ⟨ks, hks, hall⟩ := burst_filed hrest
    refine ⟨[r.places] ++ ks, hfiled.trans hks, ?_⟩
    have hone : r.places = 1 ↔ ¬ FrameDoubled conf s.worker.map f := by
      have hsame : doubled f.errEnq s.worker.map (f.numbered s.taken) =
          doubled f.errEnq s.worker.map f.mbuf := rfl
      rw [hplaces, hsame]
      unfold FrameDoubled
      split <;> simp_all
    simp only [singleton_append, forall_mem_cons, hone, hall, frameDoubled_congr hmap]

theorem warmupStep_filed (junk : Lookup) (s : Core conf) (m : Mbuf) :
    Ledger.Filed [if warmupValid (warmupItem junk m) then 1 else 0] s.ledger
      (warmupStep junk s m).ledger := by
  unfold warmupStep
  dsimp only
  split
  · refine .one rfl ?_
    simp [Core.ledger, Core.places]
  · refine .one rfl ?_
    simp [Core.ledger, Core.places]

theorem foldl_warmupStep_filed (junk : Lookup) : ∀ (ms : List Mbuf) (s : Core conf),
    ∃ ks, Ledger.Filed ks s.ledger (ms.foldl (warmupStep junk) s).ledger ∧
      ((∀ k ∈ ks, k = 1) ↔ ∀ m ∈ ms, warmupValid (warmupItem junk m) = true)
  | [], s => ⟨[], .moved rfl (.refl _), by simp⟩
  | m :: ms, s => by
    obtain ⟨ks, hks, hall⟩ := foldl_warmupStep_filed junk ms (warmupStep junk s m)
    refine ⟨_, (warmupStep_filed junk s m).trans hks, ?_⟩
    simp only [singleton_append, forall_mem_cons, hall]
    cases warmupValid (warmupItem junk m) <;> simp

/-- The warm-up part: every buffer is freed exactly if its five values are there. -/
theorem warmup_filed (e : CycleIn) (s : Core conf) :
    ∃ ks, Ledger.Filed ks s.ledger (warmup e s).ledger ∧
      ((∀ k ∈ ks, k = 1) ↔
        (warmupDue s = true → ∀ m ∈ e.warmups, warmupValid (warmupItem e.junk m) = true)) := by
  unfold warmup
  by_cases hdue : warmupDue s = true
  · obtain ⟨ks, hks, hall⟩ := foldl_warmupStep_filed e.junk e.warmups s
    rw [if_pos hdue]
    exact ⟨ks, hks, by simp only [hall, hdue, true_imp_iff]⟩
  · rw [if_neg hdue]
    exact ⟨[], .moved rfl (.refl _), by simp [hdue]⟩

end

/-! ## 3. Any run -/

/-- **What a cycle needs to keep ownership linear.** -/
def KeepsOwnership (s : Core conf) (e : CycleIn) : Prop :=
  (∀ f ∈ e.frames, ¬ FrameDoubled conf s.worker.map f) ∧
    (warmupDue s = true → ∀ m ∈ e.warmups, warmupValid (warmupItem e.junk m) = true)

theorem cycleStep_ownedOnce_iff {s s' : Core conf} {e : CycleIn} (hs : OwnedOnce s)
    (h : cycleStep s e = some s') : OwnedOnce s' ↔ KeepsOwnership s e := by
  obtain ⟨s₁, hs₁, rfl⟩ := cycleStep_some h
  obtain ⟨ks, hks, hburst⟩ := burst_filed hs₁
  obtain ⟨ks', hks', hwarm⟩ := warmup_filed e s₁
  have hdue : warmupDue s₁ = warmupDue s := by
    unfold warmupDue
    rw [burst_warmupCount hs₁]
  have hfiled := (hks.trans hks').trans (flush_filed (s := warmup e s₁) (e := e))
  rw [append_nil] at hfiled
  rw [hdue] at hwarm
  unfold OwnedOnce at hs ⊢
  rw [hfiled.linear_iff hs.numbered, forall_mem_append, hburst, hwarm]
  exact ⟨fun h => h.2, fun h => ⟨hs, h⟩⟩

/-- **Any run, exactly.** From a state in which every buffer is in one place, that is so in every
state of a run if and only if every cycle of the run gets what it needs. -/
theorem ownedOnce_throughout_iff (s : Core conf) (hs : OwnedOnce s) (events : List CycleIn) :
    Throughout cycleStep OwnedOnce s events ↔ EachStep cycleStep KeepsOwnership s events :=
  throughout_iff_eachStep (fun _ _ _ hs _ hstep => cycleStep_ownedOnce_iff hs hstep) hs eachStep_true

def innerIpv4Frame : Frame where
  mbuf := ⟨0, fun a => if a = 50 then 0x45 else 0, 0, 100, UserDat.zero⟩
  now := 0
  errEnq := true
  bulkEnq := true

theorem ingressTunnel_ownedOnce :
    OwnedOnce (idleCore (plainConf .ingressTunnel)) ∧
      Throughout cycleStep OwnedOnce (idleCore (plainConf .ingressTunnel))
        (replicate 2 (plainCycle [innerIpv4Frame, innerIpv4Frame] [])) := by
  have hkeeps (s : Core (plainConf .ingressTunnel)) :
      KeepsOwnership s (plainCycle [innerIpv4Frame, innerIpv4Frame] []) :=
    ⟨fun _ _ h => absurd h.1 (by decide), fun _ _ hm => absurd hm (by simp [plainCycle])⟩
  exact ⟨by decide, (ownedOnce_throughout_iff _ (by decide) _).mpr
    fun _ _ => ⟨hkeeps _, eachStep_singleton (hkeeps _)⟩⟩

/-- The distributor puts a rejected frame on both rings, and every worker loses a warm-up frame
without values. -/
theorem ownership_fails :
    (∀ kind, OwnedOnce (idleCore (plainConf kind))) ∧
      ¬ Throughout cycleStep OwnedOnce (idleCore (plainConf .ingressDistributor))
        [plainCycle [innerIpv4Frame] []] ∧
      ¬ Throughout cycleStep OwnedOnce (idleCore (plainConf .egressTunnel))
        [plainCycle [] [innerIpv4Frame.mbuf]] := by
  refine ⟨fun kind => by cases kind <;> decide, fun h => ?_, fun h => ?_⟩
  · exact absurd (h.2 _ rfl).head (by decide +kernel)
  · exact absurd (h.2 _ rfl).head (by decide +kernel)

end MixiPgw.Data
