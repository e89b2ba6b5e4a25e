/-
# Anti-spoofing

A G-PDU may leave an ingress core through its output path only if its TEID is in the table and its
inner source address is that of the session (`authentic`). But the tunnel worker forwards what it
rejects when there is no error-indication ring, and the distributor returns 0 after the ring has
taken the frame, so that its caller sends it as well (`LetsThrough`):
**`spoofFree_throughout_iff`**.
-/
import MixiPgw.Data.Cycle

namespace MixiPgw.Data

open Bytes Lib List

variable {conf : Conf}

/-! ## 1. One frame -/

/-- **No spoofed packet went out**: every G-PDU handed to the output path passed the check against
the table of that moment. -/
def SpoofFree (s : Core conf) : Prop :=
  ∀ h ∈ s.handed, isPdu h.received = true → authentic h.worker.map h.received = true

instance (s : Core conf) : Decidable (SpoofFree s) :=
  inferInstanceAs (Decidable
    (∀ h ∈ s.handed, isPdu h.received = true → authentic h.worker.map h.received = true))

/-- A G-PDU that is handed on without passing the check. -/
def LetsThrough (conf : Conf) (f : Frame) : Prop :=
  match conf.kind with
  | .egressTunnel => False
  | .ingressTunnel => decapsulable f.mbuf = true ∧ conf.ringErrInd = false
  | .ingressDistributor => (innerSource f.mbuf).isSome = true ∧ f.errEnq = true

theorem ret_authentic_iff (hkind : conf.kind ≠ .egressTunnel) {w : Worker} {f : Frame} {n : Nat}
    {r : Modified} (hpdu : isPdu f.mbuf = true)
    (h : modifyPacket conf f.now f.errEnq w (f.numbered n) = some r) :
    (r.ret = 0 → authentic w.map f.mbuf = true) ↔
      authentic w.map f.mbuf = true ∨ ¬ LetsThrough conf f := by
  unfold modifyPacket at h
  unfold LetsThrough
  cases hk : conf.kind with
  | egressTunnel => exact absurd hk hkind
  | ingressTunnel =>
    rw [hk] at h
    have hret : r.ret = 0 ↔ decapsulable f.mbuf = true ∧
        (authentic w.map f.mbuf = true ∨ conf.ringErrInd = false) :=
      ingressTunnel_ret (m := f.numbered n) hpdu h
    tauto
  | ingressDistributor =>
    rw [hk] at h
    have hret : r.ret = 0 ↔
        authentic w.map f.mbuf = true ∨ doubled f.errEnq w.map f.mbuf = true :=
      (ingressDistributor_spec h).2.2.2
    rw [hret]
    unfold doubled
    cases authentic w.map f.mbuf <;> simp

def FrameGuarded (conf : Conf) (map : LookupMap) (f : Frame) : Prop :=
  isPdu f.mbuf = true → authentic map f.mbuf = true ∨ ¬ LetsThrough conf f

theorem frameGuarded_congr {map map' : LookupMap} (h : SameEntries map map') (f : Frame) :
    FrameGuarded conf map' f ↔ FrameGuarded conf map f := by
  unfold FrameGuarded
  rw [authentic_congr h]

theorem frameStep_spoofFree_iff (hkind : conf.kind ≠ .egressTunnel) {s s' : Core conf} {f : Frame}
    (h : frameStep s f = some s') :
    SpoofFree s' ↔ SpoofFree s ∧ FrameGuarded conf s.worker.map f := by
  obtain ⟨r, hr, -, hhanded, -⟩ := frameStep_spec h
  have hcall : FrameGuarded conf s.worker.map f ↔
      (r.ret = 0 → isPdu f.mbuf = true → authentic s.worker.map f.mbuf = true) := by
    unfold FrameGuarded
    by_cases hpdu : isPdu f.mbuf = true
    · simp only [hpdu, true_imp_iff]
      exact (ret_authentic_iff hkind hpdu hr).symm
    · simp [hpdu]
  rw [hcall]
  unfold SpoofFree
  rw [hhanded]
  by_cases hret : r.ret = 0
  · simp only [hret, if_true, true_imp_iff, forall_mem_append, forall_mem_singleton]
    exact Iff.rfl
  · simp only [hret, if_false, false_imp_iff, and_true]

/-! ## 2. Any run -/

theorem burst_spoofFree_iff (hkind : conf.kind ≠ .egressTunnel) :
    ∀ {fs : List Frame} {s s' : Core conf}, burst s fs = some s' →
      (SpoofFree s' ↔ SpoofFree s ∧ ∀ f ∈ fs, FrameGuarded conf s.worker.map f)
  | [], s, s', h => by
    obtain rfl := Option.some.inj h
    simp
  | f :: fs, s, s', h => by
    rw [burst_cons] at h
    obtain ⟨s₁, hs₁, hrest⟩ := Option.bind_eq_some_iff.mp h
    obtain ⟨r, hr, hworker, -, -⟩ := frameStep_spec hs₁
    have hmap := (modifyPacket_spec hr).2.1
    rw [← hworker] at hmap
    simp only [burst_spoofFree_iff hkind hrest, frameStep_spoofFree_iff hkind hs₁,
      frameGuarded_congr hmap, forall_mem_cons, and_assoc]

/-- **What a cycle needs**, from its burst and the table it finds. -/
def Guarded (s : Core conf) (e : CycleIn) : Prop :=
  ∀ f ∈ e.frames, FrameGuarded conf s.worker.map f

/-- **Any run of an ingress core, exactly.** Only authentic G-PDUs are handed to the output path
in every state of a run if and only if every cycle of the run is guarded. -/
theorem spoofFree_throughout_iff (hkind : conf.kind ≠ .egressTunnel) (s : Core conf)
    (hs : SpoofFree s) (events : List CycleIn) :
    Throughout cycleStep SpoofFree s events ↔ EachStep cycleStep Guarded s events := by
  refine throughout_iff_eachStep (fun s e s' hs _ hstep => ?_) hs eachStep_true
  obtain ⟨s₁, hs₁, hhanded⟩ := cycleStep_handed hstep
  have hsame : SpoofFree s' ↔ SpoofFree s₁ := by
    unfold SpoofFree
    rw [hhanded]
  rw [hsame, burst_spoofFree_iff hkind hs₁]
  exact ⟨fun h => h.2, fun h => ⟨hs, h⟩⟩

def spoofedFrame : Frame where
  mbuf :=
    ⟨0, fun a =>
      if a = 12 then 0x08 else if a = 23 then 17 else if a = 36 then 0x08 else if a = 37 then 0x68
      else if a = 43 then 255 else if a = 50 then 0x45 else 0, 0, 100, UserDat.zero⟩
  now := 0
  errEnq := true
  bulkEnq := true

theorem ingressTunnel_spoofFree :
    (plainConf .ingressTunnel).kind ≠ .egressTunnel ∧
      SpoofFree (idleCore (plainConf .ingressTunnel)) ∧
      Throughout cycleStep SpoofFree (idleCore (plainConf .ingressTunnel))
        [plainCycle [spoofedFrame] []] :=
  ⟨by decide, by decide, (spoofFree_throughout_iff (by decide) _ (by decide) _).mpr
    (eachStep_singleton fun f hf _ => Or.inr fun hlets => absurd hlets.2 (by decide))⟩

/-- Without a ring it is let through, and by the distributor always. -/
theorem spoofed_frame_forwarded :
    isPdu spoofedFrame.mbuf = true ∧
      ¬ Throughout cycleStep SpoofFree (idleCore { plainConf .ingressTunnel with ringErrInd := false })
        [plainCycle [spoofedFrame] []] ∧
      ¬ Throughout cycleStep SpoofFree (idleCore (plainConf .ingressDistributor))
        [plainCycle [spoofedFrame] []] := by
  refine ⟨by decide, fun h => ?_, fun h => ?_⟩
  · exact absurd (h.2 _ rfl).head (by decide +kernel)
  · exact absurd (h.2 _ rfl).head (by decide +kernel)

end MixiPgw.Data
