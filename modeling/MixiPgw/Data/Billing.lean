/-
# Who is charged for a frame

The egress tunnel worker writes the key of the subscriber into the user data of a frame and the
egress counter core adds the frame's size to the entry of that key. But that key is the one that
the frame BEFORE has left in `findkey_` (`charge_modifyPacket`). **`billed_throughout_iff`**: every
counted frame is charged to its own subscriber, with its own size, exactly if the user frame before
it had the same key and the size fits into 12 bits.
-/
import MixiPgw.Data.Cycle
import Mathlib.Algebra.GroupWithZero.Nat

namespace MixiPgw.Data

open Bytes Lib Option List

variable {conf : Conf}

/-! ## 1. The counter core -/

/-- `counting_item_t`; `key` is the second it was made in. -/
structure CountingItem where
  key : UInt32
  used : UInt32
  used3g : UInt32
  usedLow : UInt32
deriving DecidableEq

/-- `COUNT_MAP_SZ` as a modulus. -/
instance instNeZeroCountMapSz : NeZero 16 := ⟨by decide⟩

structure Charge where
  key : UInt32
  used : Nat
  mode : Mode
deriving DecidableEq

/-- The column of a mode gets the value on top. -/
def CountingItem.add (itm : CountingItem) (used : UInt32) : Mode → CountingItem
  | .low => { itm with usedLow := itm.usedLow + used }
  | .m3g => { itm with used3g := itm.used3g + used }
  | .lte | .reserved => { itm with used := itm.used + used }

/-- Low speed lets only green frames pass, 3G drops the red ones. -/
def policedAway (udat : UserDat) : Bool :=
  (udat.mode == .low && udat.color != .green) || (udat.mode == .m3g && udat.color == .red)

/-- What `CoreCounterEgressWorker::Cycle` counts for a frame. -/
def charge (m : Mbuf) : Option Charge :=
  if policedAway m.udata then none
  else
    match m.udata.flag with
    | .pdu => some ⟨m.udata.teid, m.udata.size.toNat, m.udata.mode⟩
    | .dc => none

theorem charge_pdu {m : Mbuf} {size : BitVec 12} {color : Color} {mode : Mode} {teid : UInt32}
    (h : m.udata = ⟨.pdu, size, color, mode, teid⟩) :
    charge m =
      if policedAway ⟨.pdu, size, color, mode, 0⟩ then none else some ⟨teid, size.toNat, mode⟩ := by
  unfold charge
  rw [h]
  rfl

/-! ## 2. One frame -/

theorem udatSize_toNat (m : Mbuf) :
    (udatSize m).toNat = m.pktLen - 14 ↔ 14 ≤ m.pktLen ∧ m.pktLen - 14 < 4096 := by
  unfold udatSize
  rw [BitVec.toNat_sub, BitVec.toNat_ofNat, show (14 : BitVec 12).toNat = 14 from rfl]
  omega

/-- **The counter core will count the frame**: it is a user frame, its session is found, and the
policer lets it pass. -/
def counted (w : Worker) (f : Frame) : Bool :=
  isUser f.mbuf &&
    match w.map (bswap32 (ownKey f.mbuf)) with
    | none => false
    | some itm =>
      !policedAway ⟨.pdu, udatSize f.mbuf, (itm.police f.now (udatSize f.mbuf)).2, itm.mode, 0⟩

variable {f : Frame} {r : Modified}

/-- What is counted: the size of this frame on the key of the one before. -/
theorem charge_modifyPacket (hkind : conf.kind = .egressTunnel) {w : Worker} {n : Nat}
    (h : modifyPacket conf f.now f.errEnq w (f.numbered n) = some r) :
    if counted w f then
      r.ret = 0 ∧ ∃ mode, charge r.mbuf = some ⟨w.findkey, (udatSize f.mbuf).toNat, mode⟩
    else r.ret = 0 → charge r.mbuf = none := by
  unfold modifyPacket at h
  rw [hkind] at h
  have huser' : isUser (f.numbered n) = isUser f.mbuf := rfl
  unfold counted
  by_cases huser : isUser f.mbuf = true
  · rw [huser]
    cases hmap : w.map (bswap32 (ownKey f.mbuf)) with
    | none =>
      rw [egressTunnel_notFound (huser'.trans huser) hmap] at h
      cases h
      intro hret
      cases hring : conf.ringErrInd with
      | true => exact absurd hret (by simp [reject, hring])
      | false => simp [reject, hring, forward, charge, policedAway]
    | some itm =>
      rw [egressTunnel_found (huser'.trans huser) hmap] at h
      obtain ⟨pkt, -, rfl⟩ := map_eq_some_iff.mp h
      have hcharge := charge_pdu
        (m := { pkt with
          udata := ⟨.pdu, udatSize f.mbuf, (itm.police f.now (udatSize f.mbuf)).2, itm.mode,
            w.findkey⟩ }) rfl
      by_cases hpol : policedAway
          ⟨.pdu, udatSize f.mbuf, (itm.police f.now (udatSize f.mbuf)).2, itm.mode, 0⟩ = true
      · rw [if_pos hpol] at hcharge
        simp only [hpol]
        exact fun _ => hcharge
      · rw [if_neg hpol] at hcharge
        simp only [hpol]
        exact ⟨rfl, itm.mode, hcharge⟩
  · rw [egressTunnel_pass (by simpa [huser'] using huser)] at h
    cases h
    simp [huser, forward, charge, policedAway, UserDat.zero]

theorem findkey_modifyPacket (hkind : conf.kind = .egressTunnel) {w : Worker} {n : Nat}
    (h : modifyPacket conf f.now f.errEnq w (f.numbered n) = some r) :
    r.worker.findkey = if isUser f.mbuf then ownKey f.mbuf else w.findkey := by
  unfold modifyPacket at h
  rw [hkind] at h
  have huser' : isUser (f.numbered n) = isUser f.mbuf := rfl
  by_cases huser : isUser f.mbuf = true
  · rw [if_pos huser]
    cases hmap : w.map (bswap32 (ownKey f.mbuf)) with
    | none =>
      rw [egressTunnel_notFound (huser'.trans huser) hmap] at h
      cases h
      unfold reject
      split <;> rfl
    | some itm =>
      rw [egressTunnel_found (huser'.trans huser) hmap] at h
      obtain ⟨pkt, -, rfl⟩ := map_eq_some_iff.mp h
      rfl
  · rw [if_neg huser]
    rw [egressTunnel_pass (by simpa [huser'] using huser)] at h
    cases h
    rfl

/-! ## 3. Any run -/

/-- **The frame is charged to its own subscriber with its own size**, if at all. -/
def ChargedRight (h : Handed) : Prop :=
  ∀ c ∈ charge h.sent, c.key = ownKey h.received ∧ c.used = h.received.pktLen - 14

instance (h : Handed) : Decidable (ChargedRight h) :=
  inferInstanceAs (Decidable
    (∀ c ∈ charge h.sent, c.key = ownKey h.received ∧ c.used = h.received.pktLen - 14))

def Billed (s : Core conf) : Prop := ∀ h ∈ s.handed, ChargedRight h

instance (s : Core conf) : Decidable (Billed s) :=
  inferInstanceAs (Decidable (∀ h ∈ s.handed, ChargedRight h))

/-- The key in `findkey_`: the last user frame's. -/
def prevKey (key : UInt32) (fs : List Frame) : UInt32 :=
  fs.foldl (fun key f => if isUser f.mbuf then ownKey f.mbuf else key) key

theorem frameStep_findkey (hkind : conf.kind = .egressTunnel) {s s' : Core conf}
    (h : frameStep s f = some s') : s'.worker.findkey = prevKey s.worker.findkey [f] := by
  obtain ⟨r, hr, hworker, -, -⟩ := frameStep_spec h
  rw [hworker, findkey_modifyPacket hkind hr]
  rfl

def OwnCharge (key : UInt32) (m : Mbuf) : Prop :=
  key = ownKey m ∧ 14 ≤ m.pktLen ∧ m.pktLen - 14 < 4096

theorem frameStep_billed_iff (hkind : conf.kind = .egressTunnel) {s s' : Core conf}
    (h : frameStep s f = some s') :
    Billed s' ↔
      Billed s ∧ (counted s.worker f = true → OwnCharge s.worker.findkey f.mbuf) := by
  obtain ⟨r, hr, -, hhanded, -⟩ := frameStep_spec h
  have hcharge := charge_modifyPacket hkind hr
  unfold Billed
  rw [hhanded]
  by_cases hcount : counted s.worker f = true
  · rw [if_pos hcount] at hcharge
    obtain ⟨hret, mode, hsome⟩ := hcharge
    have hone : ChargedRight ⟨s.worker, f.numbered s.taken, r.mbuf⟩ ↔
        OwnCharge s.worker.findkey f.mbuf := by
      unfold ChargedRight OwnCharge
      rw [hsome, ← udatSize_toNat]
      simp only [mem_def, some.injEq, forall_eq']
      exact Iff.rfl
    simp only [hret, if_true, forall_mem_append, forall_mem_singleton, hone, hcount, true_imp_iff]
  · rw [if_neg hcount] at hcharge
    by_cases hret : r.ret = 0
    · have hone : ChargedRight ⟨s.worker, f.numbered s.taken, r.mbuf⟩ :=
        fun c hc => absurd ((hcharge hret).symm.trans hc) (by simp)
      simp only [hret, if_true, forall_mem_append, forall_mem_singleton, hone, hcount,
        Bool.false_eq_true, false_imp_iff, and_true]
    · simp only [hret, if_false, hcount, Bool.false_eq_true, false_imp_iff, and_true]

/-- **What a burst needs**: a counted frame follows a user frame of its own subscriber. -/
def FramesBillRight (s : Core conf) (fs : List Frame) : Prop :=
  ∀ before f after, fs = before ++ f :: after → ∀ s₁, burst s before = some s₁ →
    counted s₁.worker f = true → OwnCharge (prevKey s.worker.findkey before) f.mbuf

theorem framesBillRight_cons (hkind : conf.kind = .egressTunnel) {s s₁ : Core conf}
    {fs : List Frame} (h : frameStep s f = some s₁) :
    FramesBillRight s (f :: fs) ↔
      (counted s.worker f = true → OwnCharge s.worker.findkey f.mbuf) ∧ FramesBillRight s₁ fs := by
  have hkey := frameStep_findkey hkind h
  constructor
  · intro hall
    refine ⟨fun hcount => hall [] f fs rfl s rfl hcount, fun before g after hfs s₂ hs₂ hcount => ?_⟩
    have hburst : burst s (f :: before) = some s₂ := by rw [burst_cons, h]; exact hs₂
    have hright := hall (f :: before) g after (by rw [hfs]; rfl) s₂ hburst hcount
    rw [hkey]
    exact hright
  · rintro ⟨hfirst, hrest⟩ before g after hfs s₂ hs₂ hcount
    cases before with
    | nil =>
      obtain ⟨rfl, -⟩ := cons.inj hfs
      cases hs₂
      exact hfirst hcount
    | cons f' before =>
      obtain ⟨rfl, hfs'⟩ := cons.inj hfs
      rw [burst_cons, h] at hs₂
      have hright := hrest before g after hfs' s₂ hs₂ hcount
      rw [hkey] at hright
      exact hright

theorem burst_billed_iff (hkind : conf.kind = .egressTunnel) :
    ∀ {fs : List Frame} {s s' : Core conf}, burst s fs = some s' →
      (Billed s' ↔ Billed s ∧ FramesBillRight s fs)
  | [], s, s', h => by
    obtain rfl := some.inj h
    exact ⟨fun hs => ⟨hs, fun before f after hfs => absurd hfs (by simp)⟩, fun hs => hs.1⟩
  | f :: fs, s, s', h => by
    rw [burst_cons] at h
    obtain ⟨s₁, hs₁, hrest⟩ := bind_eq_some_iff.mp h
    rw [burst_billed_iff hkind hrest, frameStep_billed_iff hkind hs₁,
      framesBillRight_cons hkind hs₁, and_assoc]

def BillsRight (s : Core conf) (e : CycleIn) : Prop := FramesBillRight s e.frames

/-- **Any run of an egress core, exactly.** Every counted frame is charged to its own subscriber
with its own size if and only if it follows a user frame with its own key and its size fits. -/
theorem billed_throughout_iff (hkind : conf.kind = .egressTunnel) (s : Core conf) (hs : Billed s)
    (events : List CycleIn) :
    Throughout cycleStep Billed s events ↔ EachStep cycleStep BillsRight s events := by
  refine throughout_iff_eachStep (fun s e s' hs _ hstep => ?_) hs eachStep_true
  obtain ⟨s₁, hs₁, hhanded⟩ := cycleStep_handed hstep
  have hsame : Billed s' ↔ Billed s₁ := by
    unfold Billed
    rw [hhanded]
  rw [hsame, burst_billed_iff hkind hs₁]
  exact ⟨fun h => h.2, fun h => ⟨hs, h⟩⟩

def userFrame (last : UInt8) : Frame where
  mbuf :=
    ⟨0, fun a =>
      if a = 128 + 12 then 0x08 else if a = 128 + 30 then 0x0a else if a = 128 + 33 then last else 0,
      128, 100, UserDat.zero⟩
  now := 0
  errEnq := true
  bulkEnq := true

def billingCore (key : UInt32) : Core (plainConf .egressTunnel) :=
  { idleCore (plainConf .egressTunnel) with
    worker := ⟨fun k => if k = 1 ∨ k = 2 then some zeroLookup else none, key, zeroLookup⟩ }

theorem userFrame_billed :
    (plainConf .egressTunnel).kind = .egressTunnel ∧
      Billed (billingCore (ownKey (userFrame 1).mbuf)) ∧
      Throughout cycleStep Billed (billingCore (ownKey (userFrame 1).mbuf))
        [plainCycle [userFrame 1, userFrame 1] []] := by
  have hright : BillsRight (billingCore (ownKey (userFrame 1).mbuf))
      (plainCycle [userFrame 1, userFrame 1] []) := by
    intro before f after hfs s₁ _ _
    rcases before with _ | ⟨f₀, _ | ⟨f₁, before⟩⟩
    · obtain ⟨rfl, -⟩ := cons.inj hfs
      exact ⟨rfl, by decide, by decide⟩
    · obtain ⟨rfl, hrest⟩ := cons.inj hfs
      obtain ⟨rfl, -⟩ := cons.inj hrest
      exact ⟨by decide, by decide, by decide⟩
    · exact absurd (congrArg length hfs) (by simp [plainCycle])
  exact ⟨rfl, by decide, (billed_throughout_iff rfl _ (by decide) _).mpr (eachStep_singleton hright)⟩

/-- The second frame is charged to the first one's subscriber. -/
theorem userFrame_misbilled :
    Billed (billingCore (ownKey (userFrame 1).mbuf)) ∧
      (cycleStep (billingCore (ownKey (userFrame 1).mbuf))
          (plainCycle [userFrame 1, userFrame 2] [])).map
        (fun s => s.handed.map fun h => (charge h.sent).map Charge.key) =
        some [some (ownKey (userFrame 1).mbuf), some (ownKey (userFrame 1).mbuf)] ∧
      ¬ Throughout cycleStep Billed (billingCore (ownKey (userFrame 1).mbuf))
        [plainCycle [userFrame 1, userFrame 2] []] := by
  refine ⟨by decide, by decide +kernel, fun h => ?_⟩
  exact absurd (h.2 _ rfl).head (by decide +kernel)

end MixiPgw.Data
