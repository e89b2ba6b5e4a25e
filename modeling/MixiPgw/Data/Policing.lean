/-
# The rate limit of a session

Both tunnel workers colour a user's packets with two token buckets in the table entry, refilled by
the seconds since the entry's last packet, in 32 bits, so that a refill may wrap.

* `police_rate`: over every run, a session's green and yellow bytes in a window stay below the burst
  and what the window has earned. A refill that wraps only loses tokens.
* `refill_exact_iff`: after which idle times none are lost.
-/
import MixiPgw.Data.Billing
import MixiPgw.Lib.TokenBucket

namespace MixiPgw.Data

open Bytes Lib Lib.TokenBucket Option List Function

/-! ## 1. Buckets -/

inductive Bucket
  | commit
  | excess
deriving DecidableEq, Repr

namespace Bucket

def color : Bucket → Color
  | commit => .green
  | excess => .yellow

def tokens : Bucket → Lookup → UInt32
  | commit, itm => itm.commitRate
  | excess, itm => itm.excessRate

def burst : Bucket → Lookup → UInt32
  | commit, itm => itm.commitBurstSize
  | excess, itm => itm.excessBurstSize

def rate : Bucket → Lookup → UInt32
  | commit, itm => itm.commitInformationRate
  | excess, itm => itm.excessInformationRate

end Bucket

def Lookup.SameRates (itm itm' : Lookup) : Prop :=
  ∀ b : Bucket, b.burst itm' = b.burst itm ∧ b.rate itm' = b.rate itm

variable (itm : Lookup)

theorem Lookup.refill_sameRates (now : UInt32) : itm.SameRates (itm.refill now) := by
  intro b
  unfold refill
  dsimp only
  split <;> cases b <;> exact ⟨rfl, rfl⟩

theorem Lookup.refill_epochW (now : UInt32) : (itm.refill now).epochW = now := by
  unfold refill
  dsimp only
  split
  · rfl
  · rename_i hdt
    simp only [not_not] at hdt
    rw [← UInt32.sub_add_cancel now itm.epochW, hdt, UInt32.zero_add]

/-- A refill stays below the burst and gains no more than the rate says, also when it wraps. -/
theorem Lookup.refill_tokens (now : UInt32) (b : Bucket)
    (h : (b.tokens itm).toNat ≤ (b.burst itm).toNat) :
    (b.tokens (itm.refill now)).toNat ≤ (b.burst itm).toNat ∧
      (b.tokens (itm.refill now)).toNat ≤
        (b.tokens itm).toNat + (b.rate itm).toNat * (now - itm.epochW).toNat := by
  unfold refill
  dsimp only
  split
  · cases b <;> exact refill_le _ _ _ _
  · exact ⟨h, Nat.le_add_right _ _⟩

def Bucket.taken (b : Bucket) (color : Color) (size : BitVec 12) : Nat :=
  if color = b.color then size.toNat else 0

theorem Lookup.police_bucket (now : UInt32) (size : BitVec 12) (b : Bucket) :
    b.taken (itm.police now size).2 size ≤ (b.tokens (itm.refill now)).toNat ∧
      (b.tokens (itm.police now size).1).toNat =
        (b.tokens (itm.refill now)).toNat - b.taken (itm.police now size).2 size ∧
      (itm.police now size).1.epochW = now ∧ itm.SameRates (itm.police now size).1 := by
  have hsize : (UInt32.ofNat size.toNat).toNat = size.toNat :=
    UInt32.toNat_ofNat_of_lt' (Nat.lt_of_lt_of_le size.isLt (by decide))
  have hepoch := itm.refill_epochW now
  have hrates := itm.refill_sameRates now
  unfold police
  by_cases hgreen : UInt32.ofNat size.toNat ≤ (itm.refill now).commitRate
  · rw [if_pos hgreen]
    have hle := UInt32.le_iff_toNat_le.mp hgreen
    rw [hsize] at hle
    refine ⟨?_, ?_, hepoch, fun b' => ?_⟩
    · cases b <;> simp [Bucket.taken, Bucket.color, Bucket.tokens, hle]
    · cases b
      · simp [Bucket.taken, Bucket.color, Bucket.tokens, UInt32.toNat_sub_of_le _ _ hgreen, hsize]
      · simp [Bucket.taken, Bucket.color, Bucket.tokens]
    · cases b'
      · exact hrates .commit
      · exact hrates .excess
  · rw [if_neg hgreen]
    by_cases hyellow : UInt32.ofNat size.toNat ≤ (itm.refill now).excessRate
    · rw [if_pos hyellow]
      have hle := UInt32.le_iff_toNat_le.mp hyellow
      rw [hsize] at hle
      refine ⟨?_, ?_, hepoch, fun b' => ?_⟩
      · cases b <;> simp [Bucket.taken, Bucket.color, Bucket.tokens, hle]
      · cases b
        · simp [Bucket.taken, Bucket.color, Bucket.tokens]
        · simp [Bucket.taken, Bucket.color, Bucket.tokens, UInt32.toNat_sub_of_le _ _ hyellow, hsize]
      · cases b'
        · exact hrates .commit
        · exact hrates .excess
    · rw [if_neg hyellow]
      refine ⟨?_, ?_, hepoch, hrates⟩ <;> cases b <;> simp [Bucket.taken, Bucket.color]

/-! ## 2. One call -/

def tableKey (kind : Kind) (m : Mbuf) : UInt32 :=
  match kind with
  | .egressTunnel => bswap32 (ownKey m)
  | .ingressTunnel | .ingressDistributor => gtphTid m

/-- The frame without the Ethernet header and, on the way in, without what the worker takes off; the
outer header of a 6rd frame is not counted. -/
def userBytes (kind : Kind) (m : Mbuf) : Nat :=
  match kind with
  | .egressTunnel => m.pktLen - 14
  | .ingressTunnel | .ingressDistributor =>
    if innerVersion m = 0x60 then m.pktLen - (8 + 8) - 14 - 20 else m.pktLen - (20 + 8 + 8) - 14

/-- The frame was policed as a packet of `size` bytes of the session `itm`. -/
structure PolicedAs (kind : Kind) (now : UInt32) (w : Worker) (m : Mbuf) (r : Modified)
    (itm : Lookup) (size : BitVec 12) : Prop where
  found : w.map (tableKey kind m) = some itm
  map : r.worker.map = update w.map (tableKey kind m) (some (itm.police now size).1)
  flag : r.mbuf.udata.flag = .pdu
  color : r.mbuf.udata.color = (itm.police now size).2
  bytes : m.pktLen ≤ 2048 → userBytes kind m ≤ size.toNat

section

variable {conf : Conf} {now : UInt32} {errEnq : Bool} {w : Worker} {m : Mbuf} {r : Modified}

theorem sub_le_toNat_sub {len : Nat} (n : BitVec 12) (hlen : len ≤ 2048) :
    len - n.toNat ≤ (BitVec.ofNat 12 len - n).toNat := by
  rw [BitVec.toNat_sub, BitVec.toNat_ofNat]
  omega

theorem reject_quiet {w' : Worker} {m' : Mbuf} (hmap : w'.map = w.map)
    (hflag : m'.udata.flag = .dc) :
    (reject conf errEnq w' m').worker.map = w.map ∧
      (reject conf errEnq w' m').mbuf.udata.flag = .dc := by
  unfold reject
  split
  · exact ⟨hmap, hflag⟩
  · exact ⟨hmap, rfl⟩

theorem egressTunnel_police (h : egressTunnelModifyPacket conf now errEnq w m = some r) :
    (r.worker.map = w.map ∧ r.mbuf.udata.flag = .dc) ∨
      ∃ itm size, PolicedAs .egressTunnel now w m r itm size := by
  cases huser : isUser m with
  | false =>
    rw [egressTunnel_pass huser] at h
    cases h
    exact Or.inl ⟨rfl, rfl⟩
  | true =>
    cases hmap : w.map (bswap32 (ownKey m)) with
    | none =>
      rw [egressTunnel_notFound huser hmap] at h
      cases h
      exact Or.inl (reject_quiet rfl rfl)
    | some itm =>
      rw [egressTunnel_found huser hmap] at h
      obtain ⟨pkt, -, rfl⟩ := map_eq_some_iff.mp h
      exact Or.inr ⟨itm, udatSize m, hmap, rfl, rfl, rfl, fun hlen => sub_le_toNat_sub 14 hlen⟩

theorem decapsulate_bytes {ipkey : UInt32} {pkt : Mbuf} {size : BitVec 12}
    (h : decapsulate m ipkey = some (pkt, size)) (hlen : m.pktLen ≤ 2048) :
    userBytes .ingressTunnel m ≤ size.toNat := by
  unfold decapsulate at h
  unfold userBytes
  dsimp only at h ⊢
  by_cases hsix : innerVersion m = 0x60
  · rw [if_pos hsix] at h ⊢
    cases hadj : (m.write 12 [0x08, 0x00]).adj (8 + 8) with
    | none => simp [hadj] at h
    | some pkt' =>
      rw [hadj] at h
      obtain ⟨-, rfl⟩ := Prod.mk.inj (some.inj h)
      have hpkt : pkt'.pktLen = m.pktLen - (8 + 8) := by
        rw [Mbuf.pktLen_adj hadj, Mbuf.pktLen_write]
      rw [BitVec.sub_sub, hpkt]
      exact sub_le_toNat_sub 34 (by omega)
  · rw [if_neg hsix] at h ⊢
    cases hadj : m.adj (20 + 8 + 8) with
    | none => simp [hadj] at h
    | some pkt' =>
      rw [hadj] at h
      obtain ⟨-, rfl⟩ := Prod.mk.inj (some.inj h)
      rw [Mbuf.pktLen_adj hadj]
      exact sub_le_toNat_sub 14 (by omega)

theorem ingressTunnel_police (h : ingressTunnelModifyPacket conf now errEnq w m = some r) :
    (r.worker.map = w.map ∧ r.mbuf.udata.flag = .dc) ∨
      ∃ itm size, PolicedAs .ingressTunnel now w m r itm size := by
  unfold ingressTunnelModifyPacket at h
  cases hpdu : isPdu m with
  | false =>
    rw [if_neg (by rw [hpdu]; exact Bool.noConfusion)] at h
    obtain rfl := some.inj h
    exact Or.inl ⟨rfl, rfl⟩
  | true =>
    rw [if_pos hpdu] at h
    cases hsrc : innerSource m with
    | none =>
      rw [hsrc] at h
      obtain rfl := some.inj h
      exact Or.inl ⟨rfl, rfl⟩
    | some ipkey =>
      rw [hsrc] at h
      dsimp only at h
      cases hdec : decapsulate m ipkey with
      | none =>
        rw [hdec] at h
        obtain rfl := some.inj h
        exact Or.inl ⟨rfl, rfl⟩
      | some dec =>
        obtain ⟨pkt, size⟩ := dec
        rw [hdec] at h
        dsimp only at h
        cases hfind : findUpdate w.map (bswap32 (gtphTid m)) (ingressCallback ipkey now size) with
        | none =>
          rw [hfind] at h
          obtain rfl := some.inj h
          exact Or.inl (reject_quiet rfl rfl)
        | some found =>
          obtain ⟨map, itm', color⟩ := found
          rw [hfind] at h
          obtain rfl := some.inj h
          obtain ⟨itm, itm'', hitm, hcb, rfl⟩ := findUpdate_some hfind
          rw [bswap32_bswap32] at hitm
          obtain ⟨rfl, hpair⟩ := ingressCallback_some hcb
          have hcolor : color = (itm.police now size).2 := by rw [← hpair]
          refine Or.inr ⟨itm, size, hitm, ?_, rfl, hcolor, decapsulate_bytes hdec⟩
          rw [bswap32_bswap32]
          rfl

/-- What a tunnel worker does to the table: nothing, or it polices one packet and marks it. -/
theorem modifyPacket_police (hkind : conf.kind ≠ .ingressDistributor)
    (h : modifyPacket conf now errEnq w m = some r) :
    (r.worker.map = w.map ∧ r.mbuf.udata.flag = .dc) ∨
      ∃ itm size, PolicedAs conf.kind now w m r itm size := by
  unfold modifyPacket at h
  cases hk : conf.kind with
  | egressTunnel =>
    rw [hk] at h
    exact egressTunnel_police h
  | ingressTunnel =>
    rw [hk] at h
    exact ingressTunnel_police h
  | ingressDistributor => exact absurd hk hkind

end

/-! ## 3. Runs -/

/-- A frame and its second; `now_` has 32 bits of that. -/
structure Arrival where
  time : Nat
  errEnq : Bool
  mbuf : Mbuf

def Arrival.now (f : Arrival) : UInt32 := UInt32.ofNat f.time

def police (conf : Conf) (w : Worker) (f : Arrival) : Option Worker :=
  (modifyPacket conf f.now f.errEnq w f.mbuf).map Modified.worker

/-- The bytes that a call has counted for `key`, with the colour and in the window. -/
def countedBytes (conf : Conf) (key : UInt32) (color : Color) (a b : Nat) (f : Arrival)
    (r : Modified) : Nat :=
  if (a ≤ f.time ∧ f.time ≤ b) ∧ tableKey conf.kind f.mbuf = key ∧ r.mbuf.udata.flag = .pdu ∧
      r.mbuf.udata.color = color then userBytes conf.kind f.mbuf
  else 0

/-- The bytes with the colour from second `a` to second `b`. -/
def coloredBytes (conf : Conf) (key : UInt32) (color : Color) (a b : Nat) :
    Worker → List Arrival → Nat
  | _, [] => 0
  | w, f :: fs =>
    match modifyPacket conf f.now f.errEnq w f.mbuf with
    | none => 0
    | some r => countedBytes conf key color a b f r + coloredBytes conf key color a b r.worker fs

section

variable {conf : Conf} {key : UInt32}

def Lookup.WithinBursts (itm : Lookup) : Prop :=
  ∀ b : Bucket, (b.tokens itm).toNat ≤ (b.burst itm).toNat

variable {itm : Lookup}

theorem Lookup.WithinBursts.police (h : itm.WithinBursts) (now : UInt32)
    (size : BitVec 12) : (itm.police now size).1.WithinBursts := by
  intro b
  obtain ⟨-, htokens, -, hrates⟩ := itm.police_bucket now size b
  rw [htokens, (hrates b).1]
  exact (Nat.sub_le _ _).trans (itm.refill_tokens now b (h b)).1

structure Visited (conf : Conf) (key : UInt32) (b : Bucket) (f : Arrival) (r : Modified)
    (itm itm' : Lookup) (v : Visit) : Prop where
  left : r.worker.map key = some itm'
  sameRates : itm.SameRates itm'
  withinBursts : itm'.WithinBursts
  epochW : itm'.epochW = f.now
  time : v.time = f.time
  level_le_burst : v.level ≤ (b.burst itm).toNat
  level_le_gain : v.level ≤ (b.tokens itm).toNat + (b.rate itm).toNat * (f.now - itm.epochW).toNat
  spent_le : v.spent ≤ v.level
  tokens : (b.tokens itm').toNat = v.level - v.spent
  counted : ∀ a z, countedBytes conf key b.color a z f r ≤
    if a ≤ v.time ∧ v.time ≤ z then v.spent else 0

/-- One call and one session: a visit, or nothing to do with it. -/
theorem visited_or_not (hkind : conf.kind ≠ .ingressDistributor) {w : Worker} {f : Arrival}
    {r : Modified} (hr : modifyPacket conf f.now f.errEnq w f.mbuf = some r)
    (hitm : w.map key = some itm) (hin : itm.WithinBursts) (hlen : f.mbuf.pktLen ≤ 2048)
    (b : Bucket) :
    (r.worker.map key = some itm ∧ ∀ a z, countedBytes conf key b.color a z f r = 0) ∨
      ∃ itm' v, Visited conf key b f r itm itm' v := by
  rcases modifyPacket_police hkind hr with ⟨hmap, hflag⟩ | ⟨itm', size, hp⟩
  · refine Or.inl ⟨hmap ▸ hitm, fun a z => if_neg fun hc => ?_⟩
    rw [hflag] at hc
    exact Flag.noConfusion hc.2.2.1
  · by_cases hkey : tableKey conf.kind f.mbuf = key
    · subst hkey
      obtain rfl := some.inj (hitm.symm.trans hp.found)
      obtain ⟨hle, htokens, hepoch, hrates⟩ := itm.police_bucket f.now size b
      obtain ⟨hburst, hgain⟩ := itm.refill_tokens f.now b (hin b)
      refine Or.inr ⟨_, ⟨f.time, (b.tokens (itm.refill f.now)).toNat,
        b.taken (itm.police f.now size).2 size⟩, ?_, hrates, hin.police f.now size, hepoch, rfl,
        hburst, hgain, hle, htokens, fun a z => ?_⟩
      · rw [hp.map, update_self]
      · unfold countedBytes
        split
        · rename_i hc
          rw [if_pos hc.1, Bucket.taken, ← hp.color, if_pos hc.2.2.2]
          exact hp.bytes hlen
        · exact Nat.zero_le _
    · refine Or.inl ⟨?_, fun a z => if_neg fun hc => hkey hc.2.1⟩
      rw [hp.map, update_of_ne (Ne.symm hkey)]
      exact hitm

theorem after_coloredBytes (hkind : conf.kind ≠ .ingressDistributor) (b : Bucket) {itm₀ : Lookup} :
    ∀ (fs : List Arrival) (w : Worker) (itm : Lookup) (past : Option (Nat × Nat)),
      w.map key = some itm → itm₀.SameRates itm → itm.WithinBursts →
      (∀ p ∈ past, itm.epochW = UInt32.ofNat p.1 ∧ (b.tokens itm).toNat = p.2) →
      (∀ p ∈ past, ∀ f ∈ fs, p.1 ≤ f.time) → (∀ f ∈ fs, f.mbuf.pktLen ≤ 2048) →
      fs.Pairwise (·.time ≤ ·.time) →
      ∃ vs, After (b.burst itm₀).toNat (b.rate itm₀).toNat past vs ∧
        ∀ a z, coloredBytes conf key b.color a z w fs ≤ spentIn a z vs := by
  intro fs
  induction fs with
  | nil => exact fun w itm past _ _ _ _ _ _ _ => ⟨[], After.nil past, fun _ _ => Nat.le_refl _⟩
  | cons f fs ih =>
    intro w itm past hitm hsame hin hpast hafter hlen hsorted
    obtain ⟨hhead, htail⟩ := pairwise_cons.mp hsorted
    have hlen' : ∀ f ∈ fs, f.mbuf.pktLen ≤ 2048 := fun g hg => hlen g (mem_cons_of_mem _ hg)
    simp only [coloredBytes]
    cases hr : modifyPacket conf f.now f.errEnq w f.mbuf with
    | none => exact ⟨[], After.nil past, fun _ _ => Nat.le_refl _⟩
    | some r =>
      dsimp only
      rcases visited_or_not hkind hr hitm hin (hlen f mem_cons_self) b with
        ⟨hkeep, hzero⟩ | ⟨itm', v, hv⟩
      · obtain ⟨vs, hvs, hle⟩ := ih r.worker itm past hkeep hsame hin hpast
          (fun p hp g hg => hafter p hp g (mem_cons_of_mem _ hg)) hlen' htail
        exact ⟨vs, hvs, fun a z => by rw [hzero a z, Nat.zero_add]; exact hle a z⟩
      · obtain ⟨vs, hvs, hle⟩ := ih r.worker itm' (some (v.time, v.level - v.spent)) hv.left
          (fun c => ⟨(hv.sameRates c).1.trans (hsame c).1, (hv.sameRates c).2.trans (hsame c).2⟩)
          hv.withinBursts
          (by rintro _ ⟨⟩; exact ⟨hv.time ▸ hv.epochW, hv.tokens⟩)
          (by rintro _ ⟨⟩; exact hv.time ▸ hhead) hlen' htail
        have hcap : v.level ≤ (b.burst itm₀).toNat := (hsame b).1 ▸ hv.level_le_burst
        refine ⟨v :: vs, hvs.visit hcap hv.spent_le ?_,
          fun a z => Nat.add_le_add (hv.counted a z) (hle a z)⟩
        have hgain := hv.level_le_gain
        rw [(hsame b).2] at hgain
        rw [hv.time]
        exact Reaches.of_stamp
          (fun p hp => ⟨hafter p hp f mem_cons_self, hpast p hp⟩) hgain

theorem police_withinBursts (hkind : conf.kind ≠ .ingressDistributor) {w w' : Worker} {f : Arrival}
    (hitm : w.map key = some itm) (hin : itm.WithinBursts) (h : police conf w f = some w') :
    ∃ itm', w'.map key = some itm' ∧ itm.SameRates itm' ∧ itm'.WithinBursts := by
  obtain ⟨r, hr, rfl⟩ := map_eq_some_iff.mp h
  rcases modifyPacket_police hkind hr with ⟨hmap, -⟩ | ⟨itm', size, hp⟩
  · exact ⟨itm, hmap ▸ hitm, fun _ => ⟨rfl, rfl⟩, hin⟩
  · by_cases hkey : tableKey conf.kind f.mbuf = key
    · subst hkey
      obtain rfl := some.inj (hitm.symm.trans hp.found)
      exact ⟨_, by rw [hp.map, update_self], (itm.police_bucket f.now size .commit).2.2.2,
        hin.police f.now size⟩
    · refine ⟨itm, ?_, fun _ => ⟨rfl, rfl⟩, hin⟩
      rw [hp.map, update_of_ne (Ne.symm hkey)]
      exact hitm

/-- **The rate limit.** From second `a` to second `z` at most `CBS + CIR * (z - a)` of a
session's bytes are coloured green and at most `EBS + EIR * (z - a)` yellow, and its tokens never
exceed the bursts. -/
theorem police_rate (conf : Conf) (hkind : conf.kind ≠ .ingressDistributor) (w : Worker)
    (key : UInt32) (itm : Lookup) (hitm : w.map key = some itm)
    (hcommit : itm.commitRate ≤ itm.commitBurstSize)
    (hexcess : itm.excessRate ≤ itm.excessBurstSize) (fs : List Arrival)
    (hlen : ∀ f ∈ fs, f.mbuf.pktLen ≤ 2048) (hsorted : fs.Pairwise (·.time ≤ ·.time)) :
    (∀ a z, a ≤ z →
      coloredBytes conf key .green a z w fs ≤
          itm.commitBurstSize.toNat + itm.commitInformationRate.toNat * (z - a) ∧
        coloredBytes conf key .yellow a z w fs ≤
          itm.excessBurstSize.toNat + itm.excessInformationRate.toNat * (z - a)) ∧
      Throughout (police conf)
        (fun w => ∃ itm', w.map key = some itm' ∧ itm'.commitRate ≤ itm.commitBurstSize ∧
          itm'.excessRate ≤ itm.excessBurstSize) w fs := by
  have hin : itm.WithinBursts := by
    intro b
    cases b with
    | commit => exact UInt32.le_iff_toNat_le.mp hcommit
    | excess => exact UInt32.le_iff_toNat_le.mp hexcess
  constructor
  · intro a z haz
    have hbound : ∀ b : Bucket, coloredBytes conf key b.color a z w fs ≤
        (b.burst itm).toNat + (b.rate itm).toNat * (z - a) := by
      intro b
      obtain ⟨vs, hvs, hle⟩ := after_coloredBytes hkind b fs w itm none hitm
        (fun _ => ⟨rfl, rfl⟩) hin (by simp) (by simp) hlen hsorted
      exact (hle a z).trans (hvs.spentIn_le haz)
    exact ⟨hbound .commit, hbound .excess⟩
  · have hrun : Throughout (police conf)
        (fun w => ∃ itm', w.map key = some itm' ∧ itm.SameRates itm' ∧ itm'.WithinBursts) w fs := by
      refine throughout_of_eachStep ?_ ⟨itm, hitm, fun _ => ⟨rfl, rfl⟩, hin⟩ eachStep_true
      rintro w f w' ⟨itm₁, hitm₁, hsame, hin₁⟩ - hstep
      obtain ⟨itm₂, hitm₂, hsame₂, hin₂⟩ := police_withinBursts hkind hitm₁ hin₁ hstep
      exact ⟨itm₂, hitm₂, fun b => ⟨(hsame₂ b).1.trans (hsame b).1, (hsame₂ b).2.trans (hsame b).2⟩,
        hin₂⟩
    refine hrun.mono ?_
    rintro w ⟨itm', hitm', hsame, hin'⟩
    have hle : ∀ b : Bucket, (b.tokens itm').toNat ≤ (b.burst itm).toNat := by
      intro b
      rw [← (hsame b).1]
      exact hin' b
    exact ⟨itm', hitm', UInt32.le_iff_toNat_le.mpr (hle .commit),
      UInt32.le_iff_toNat_le.mpr (hle .excess)⟩

def slowWorker : Worker :=
  ⟨fun k =>
    if k = 1 then
      some { zeroLookup with commitRate := 100, commitBurstSize := 100, commitInformationRate := 10 }
    else none, 0, zeroLookup⟩

def userArrival (time : Nat) : Arrival := ⟨time, true, (userFrame 1).mbuf⟩

theorem police_rate_slow :
    coloredBytes (plainConf .egressTunnel) 1 .green 0 5 slowWorker
        [userArrival 0, userArrival 0, userArrival 5] = 86 ∧
      coloredBytes (plainConf .egressTunnel) 1 .green 0 5 slowWorker
        [userArrival 0, userArrival 0, userArrival 5] ≤ 100 + 10 * (5 - 0) := by
  refine ⟨by decide +kernel, ?_⟩
  exact ((police_rate (plainConf .egressTunnel) (by decide) slowWorker 1 _ rfl (by decide)
    (by decide) [userArrival 0, userArrival 0, userArrival 5] (by decide) (by decide)).1 0 5
    (by decide)).1

end

/-! ## 4. After an idle time -/

def Bucket.found (b : Bucket) (itm : Lookup) (dt : UInt32) : Nat :=
  (b.tokens (itm.refill (itm.epochW + dt))).toNat

def Bucket.earned (b : Bucket) (itm : Lookup) (dt : UInt32) : Nat :=
  (b.tokens itm).toNat + (b.rate itm).toNat * dt.toNat

/-- **The refill is exact** for both buckets, and a shorter idle time would not have been better. -/
structure RefillsExactly (itm : Lookup) (dt : UInt32) : Prop where
  exact : ∀ b : Bucket, b.found itm dt = min (b.burst itm).toNat (b.earned itm dt)
  never_fewer : ∀ b : Bucket, ∀ dt' ≤ dt, b.found itm dt' ≤ b.found itm dt

variable (b : Bucket) (itm : Lookup)

theorem Bucket.found_zero : b.found itm 0 = (b.tokens itm).toNat := by
  have hsub : itm.epochW - itm.epochW = 0 := UInt32.sub_self _
  unfold Bucket.found Lookup.refill
  rw [UInt32.add_zero]
  dsimp only
  rw [if_neg (not_not.mpr hsub)]

theorem Bucket.found_eq {dt : UInt32} (hdt : dt ≠ 0) :
    b.found itm dt = (min (b.burst itm) (b.tokens itm + b.rate itm * dt)).toNat := by
  have hsub : itm.epochW + dt - itm.epochW = dt := by
    rw [UInt32.add_comm, UInt32.add_sub_cancel]
  unfold Bucket.found Lookup.refill
  rw [hsub]
  dsimp only
  rw [if_pos hdt]
  cases b <;> rfl

theorem Bucket.found_le (dt : UInt32) (hin : b.tokens itm ≤ b.burst itm) :
    b.found itm dt ≤ min (b.burst itm).toNat (b.earned itm dt) := by
  obtain ⟨hburst, hgain⟩ := itm.refill_tokens (itm.epochW + dt) b (UInt32.le_iff_toNat_le.mp hin)
  rw [UInt32.add_comm itm.epochW, UInt32.add_sub_cancel, UInt32.add_comm dt] at hgain
  exact Nat.le_min.mpr ⟨hburst, hgain⟩

/-- **The idle times after which nothing is missing**: in each bucket the sum of the tokens and
the earnings stays below `2 ^ 32`, or the rest that the wrap leaves fills the bucket all the
same. -/
theorem refill_exact_iff (itm : Lookup) (dt : UInt32) :
    RefillsExactly itm dt ↔
      ∀ b : Bucket, b.tokens itm ≤ b.burst itm ∧
        (b.earned itm dt < 2 ^ 32 ∨ (b.burst itm).toNat ≤ b.earned itm dt % 2 ^ 32) := by
  constructor
  · rintro ⟨hexact, hnever⟩ b
    have hzero : (b.tokens itm).toNat ≤ b.found itm dt := by
      rw [← b.found_zero itm]
      exact hnever b 0 (UInt32.le_iff_toNat_le.mpr (Nat.zero_le _))
    have hin : b.tokens itm ≤ b.burst itm := by
      rw [hexact b] at hzero
      exact UInt32.le_iff_toNat_le.mpr (hzero.trans (Nat.min_le_left _ _))
    refine ⟨hin, ?_⟩
    by_cases hdt : dt = 0
    · subst hdt
      exact Or.inl (b.tokens itm).toNat_lt
    · have heq := hexact b
      rw [b.found_eq itm hdt] at heq
      exact (refill_eq_iff _ _ _ _).mp heq
  · intro h
    have hexact : ∀ b : Bucket, b.found itm dt = min (b.burst itm).toNat (b.earned itm dt) := by
      intro b
      by_cases hdt : dt = 0
      · subst hdt
        rw [b.found_zero]
        exact (Nat.min_eq_right (UInt32.le_iff_toNat_le.mp (h b).1)).symm
      · rw [b.found_eq itm hdt]
        exact (refill_eq_iff _ _ _ _).mpr (h b).2
    refine ⟨hexact, fun b dt' hle => ?_⟩
    have hearned : b.earned itm dt' ≤ b.earned itm dt :=
      Nat.add_le_add_left (Nat.mul_le_mul_left _ (UInt32.le_iff_toNat_le.mp hle)) _
    calc b.found itm dt' ≤ min (b.burst itm).toNat (b.earned itm dt') := b.found_le itm dt' (h b).1
      _ ≤ min (b.burst itm).toNat (b.earned itm dt) := min_le_min_left _ hearned
      _ = b.found itm dt := (hexact b).symm

/-- With a million bytes a second: a full bucket after one second, 32704 tokens after 4295. -/
theorem idle_user_finds_less :
    let itm : Lookup :=
      { zeroLookup with commitBurstSize := 1000000, commitInformationRate := 1000000 }
    Bucket.commit.found itm 1 = 1000000 ∧ Bucket.commit.found itm 4295 = 32704 ∧
      ¬ RefillsExactly itm 4295 := by
  refine ⟨by decide, by decide, ?_⟩
  intro h
  exact absurd (h.exact .commit) (by decide)

end MixiPgw.Data
