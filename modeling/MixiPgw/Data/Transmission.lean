/-
# Transmission: many rings, one buffer

`CoreTx::Cycle` reads the ring of each worker into the one buffer in front of the network card and
hands that over as soon as it holds a burst; `BurstFlushTx` hands over what there is. The card
takes a first part of the burst, and the core frees the rest, but counts the WHOLE burst as dropped.
 **`transmission_accounts`**: order, ownership and the bound on the buffer hold in every run; the
drop counter is right EXACTLY as long as the card takes each burst as a whole or not at all.
-/
import MixiPgw.Lib.BurstBuffer
import MixiPgw.Lib.Run
import Mathlib.Data.List.FinRange

namespace MixiPgw.Data.Transmission

open Lib List

/-! ## 1. The functions -/

/-- The settings; the buffer has `DEFAULT_MBUF_ARRAY_SIZE` places. -/
structure TxConf where
  burstFm : Nat
  burstTo : Nat
  flushDelay : Nat
  wkCnt : Nat
  fits : burstTo - 1 + burstFm ≤ 512
  wkCnt_lt : wkCnt < 2 ^ 32

/-- The core. Each packet comes with its ring; `dequeued` are all of them, and `peak` is the most
that have been in the buffer. -/
structure CoreTx (wkCnt : Nat) (α : Type) where
  output : List (Fin wkCnt × α)
  transmitted : List (Fin wkCnt × α)
  freed : List (Fin wkCnt × α)
  dropCount : UInt64
  dequeued : List (Fin wkCnt × α)
  peak : Nat

namespace CoreTx

variable {wkCnt : Nat} {α : Type}

def new : CoreTx wkCnt α := ⟨[], [], [], 0, [], 0⟩

/-- `rte_eth_tx_burst` and what follows; the card would take `accepted` packets. -/
def transmit (s : CoreTx wkCnt α) (accepted : Nat) : CoreTx wkCnt α :=
  let curpos := s.output.length
  let nburst := min accepted (UInt16.ofNat curpos).toNat
  { s with
    output := []
    transmitted := s.transmitted ++ s.output.take nburst
    freed := s.freed ++ s.output.drop nburst
    -- `counter_.Inc(0, curpos, 0, 0)`
    dropCount := if nburst < curpos then s.dropCount + UInt64.ofNat curpos else s.dropCount }

/-- The body of the loop over the rings, for a ring that holds `queue`. -/
def readRing (conf : TxConf) (s : CoreTx wkCnt α) (n : Fin wkCnt) (queue : List α)
    (accepted : Nat) : CoreTx wkCnt α :=
  let burst := (queue.take conf.burstFm).map (Prod.mk n)
  if burst.length = 0 then s
  else
    let s := { s with
      output := s.output ++ burst
      dequeued := s.dequeued ++ burst
      peak := max s.peak (s.output ++ burst).length }
    if s.output.length < conf.burstTo then s else s.transmit accepted

def burstFlushTx (s : CoreTx wkCnt α) (accepted : Nat) : CoreTx wkCnt α :=
  if 0 < s.output.length then s.transmit accepted else s

/-- `Cycle`, with the new value of `*cnt`. -/
def cycle (conf : TxConf) (s : CoreTx wkCnt α) (queues : Fin wkCnt → List α)
    (accepted : Fin wkCnt → Nat) (cnt acceptedFlush : Nat) : CoreTx wkCnt α × Nat :=
  let s := (finRange wkCnt).foldl (fun s n => s.readRing conf n (queues n) (accepted n)) s
  if conf.flushDelay ≠ 0 ∧ conf.flushDelay ≤ cnt then (s.burstFlushTx acceptedFlush, 0)
  else (s, cnt)

end CoreTx

/-- A call, with what is on the rings, `*cnt` and what the card takes. -/
inductive TxCall (wkCnt : Nat) (α : Type)
  | cycle (queues : Fin wkCnt → List α) (accepted : Fin wkCnt → Nat) (cnt acceptedFlush : Nat)
  | flush (accepted : Nat)

def txStep {α : Type} (conf : TxConf) (s : CoreTx conf.wkCnt α) :
    TxCall conf.wkCnt α → Option (CoreTx conf.wkCnt α)
  | .cycle queues accepted cnt acceptedFlush =>
    some (s.cycle conf queues accepted cnt acceptedFlush).1
  | .flush accepted => some (s.burstFlushTx accepted)

/-! ## 2. The ledger -/

inductive TxOp (wkCnt : Nat) (α : Type)
  | ring (n : Fin wkCnt) (queue : List α) (accepted : Nat)
  | flush (accepted : Nat)

def TxOp.apply {wkCnt : Nat} {α : Type} (conf : TxConf) (s : CoreTx wkCnt α) :
    TxOp wkCnt α → CoreTx wkCnt α
  | .ring n queue accepted => s.readRing conf n queue accepted
  | .flush accepted => s.burstFlushTx accepted

def TxCall.ops {wkCnt : Nat} {α : Type} (conf : TxConf) : TxCall wkCnt α → List (TxOp wkCnt α)
  | .cycle queues accepted cnt acceptedFlush =>
    (finRange wkCnt).map (fun n => .ring n (queues n) (accepted n)) ++
      if conf.flushDelay ≠ 0 ∧ conf.flushDelay ≤ cnt then [.flush acceptedFlush] else []
  | .flush accepted => [.flush accepted]

section

variable {α : Type} {conf : TxConf} {wkCnt : Nat} {s : CoreTx wkCnt α} {surplus : Nat}

theorem txStep_eq (s : CoreTx conf.wkCnt α) (call : TxCall conf.wkCnt α) :
    txStep conf s call = some ((call.ops conf).foldl (TxOp.apply conf) s) := by
  cases call with
  | flush accepted => rfl
  | cycle queues accepted cnt acceptedFlush =>
    unfold txStep CoreTx.cycle TxCall.ops
    dsimp only
    rw [foldl_append, foldl_map]
    split <;> rfl

theorem length_ops_le (call : TxCall conf.wkCnt α) : (call.ops conf).length ≤ conf.wkCnt + 1 := by
  cases call with
  | flush accepted => exact Nat.succ_le_succ (Nat.zero_le _)
  | cycle queues accepted cnt acceptedFlush =>
    unfold TxCall.ops
    rw [length_append, length_map, length_finRange]
    split
    · exact Nat.le_refl _
    · exact Nat.le_succ _

/-- Every packet is in one place, the buffer is short of a burst, and the counter is over by
`surplus`. -/
structure Accounts (conf : TxConf) (surplus : Nat) (s : CoreTx wkCnt α) : Prop where
  owned : Owned s.dequeued s.output s.transmitted s.freed
  room : s.output.length ≤ conf.burstTo - 1
  peak : s.peak ≤ conf.burstTo - 1 + conf.burstFm
  dropCount : s.dropCount = UInt64.ofNat (s.freed.length + surplus)

/-- The packets that the card has taken, if there are others that it has not. -/
def excess (burst accepted : Nat) : Nat := if burst ≤ accepted then 0 else accepted

theorem excess_eq_zero_iff {burst accepted : Nat} :
    excess burst accepted = 0 ↔ accepted = 0 ∨ burst ≤ accepted := by
  unfold excess
  split <;> omega

theorem accounts_transmit (howned : Owned s.dequeued s.output s.transmitted s.freed)
    (hlen : s.output.length ≤ 512) (hpeak : s.peak ≤ conf.burstTo - 1 + conf.burstFm)
    (hdrop : s.dropCount = UInt64.ofNat (s.freed.length + surplus)) (accepted : Nat) :
    Accounts conf (surplus + excess s.output.length accepted) (s.transmit accepted) := by
  have hcast : (UInt16.ofNat s.output.length).toNat = s.output.length := Nat.mod_eq_of_lt (by omega)
  unfold CoreTx.transmit
  refine ⟨howned.split _, Nat.zero_le _, hpeak, ?_⟩
  dsimp only
  rw [length_append, length_drop, hdrop]
  unfold excess
  by_cases hall : s.output.length ≤ accepted
  · rw [if_neg (by omega), if_pos hall]
    congr 1
    omega
  · rw [if_pos (by omega), if_neg hall, ← UInt64.ofNat_add]
    congr 1
    omega

def TxOp.excess (conf : TxConf) (s : CoreTx wkCnt α) : TxOp wkCnt α → Nat
  | .ring _ queue accepted =>
    let curpos := s.output.length + (queue.take conf.burstFm).length
    if (queue.take conf.burstFm).length = 0 ∨ curpos < conf.burstTo then 0
    else Transmission.excess curpos accepted
  | .flush accepted => Transmission.excess s.output.length accepted

theorem Accounts.apply (h : Accounts conf surplus s) (op : TxOp wkCnt α) :
    Accounts conf (surplus + op.excess conf s) (op.apply conf s) := by
  have hfits := conf.fits
  have hroom := h.room
  cases op with
  | flush accepted =>
    unfold TxOp.apply TxOp.excess CoreTx.burstFlushTx
    dsimp only
    split
    · exact accounts_transmit h.owned (by omega) h.peak h.dropCount accepted
    · have hzero : excess s.output.length accepted = 0 := excess_eq_zero_iff.mpr (.inr (by omega))
      rw [hzero]
      exact h
  | ring n queue accepted =>
    have hread : (queue.take conf.burstFm).length ≤ conf.burstFm := length_take_le _ _
    unfold TxOp.apply TxOp.excess CoreTx.readRing
    dsimp only
    rw [length_append, length_map]
    by_cases hnone : (queue.take conf.burstFm).length = 0
    · rw [if_pos hnone, if_pos (.inl hnone)]
      exact h
    · rw [if_neg hnone]
      have howned := h.owned.append ((queue.take conf.burstFm).map (Prod.mk n))
      have hpeak : max s.peak (s.output.length + (queue.take conf.burstFm).length) ≤
          conf.burstTo - 1 + conf.burstFm := by
        have := h.peak
        omega
      by_cases hshort : s.output.length + (queue.take conf.burstFm).length < conf.burstTo
      · rw [if_pos hshort, if_pos (.inr hshort)]
        refine ⟨howned, ?_, hpeak, h.dropCount⟩
        rw [length_append, length_map]
        omega
      · rw [if_neg hshort, if_neg (not_or.mpr ⟨hnone, hshort⟩)]
        have hburst : Accounts conf (surplus + _) _ := accounts_transmit
          (s := { s with
            output := s.output ++ (queue.take conf.burstFm).map (Prod.mk n)
            dequeued := s.dequeued ++ (queue.take conf.burstFm).map (Prod.mk n)
            peak := max s.peak (s.output.length + (queue.take conf.burstFm).length) })
          howned (by rw [length_append, length_map]; omega) hpeak h.dropCount accepted
        rw [length_append, length_map] at hburst
        exact hburst

def surplusOf (conf : TxConf) : CoreTx wkCnt α → List (TxOp wkCnt α) → Nat
  | _, [] => 0
  | s, op :: ops => op.excess conf s + surplusOf conf (op.apply conf s) ops

theorem Accounts.run (h : Accounts conf surplus s) (ops : List (TxOp wkCnt α)) :
    Accounts conf (surplus + surplusOf conf s ops) (ops.foldl (TxOp.apply conf) s) := by
  induction ops generalizing s surplus with
  | nil => exact h
  | cons op ops ih =>
    have hrest := ih (h.apply op)
    rw [Nat.add_assoc] at hrest
    exact hrest

theorem Accounts.over_iff (h : Accounts conf surplus s) (hover : surplus < 2 ^ 64) :
    Accounts conf 0 s ↔ surplus = 0 := by
  constructor
  · intro hright
    have heq := congrArg UInt64.toNat (h.dropCount.symm.trans hright.dropCount)
    rw [UInt64.toNat_ofNat', UInt64.toNat_ofNat'] at heq
    omega
  · rintro rfl
    exact h

/-- The card takes the burst as a whole or not at all, if there is one. -/
def WholeOrNone (conf : TxConf) (s : CoreTx wkCnt α) : TxOp wkCnt α → Prop
  | .ring _ queue accepted =>
    let curpos := s.output.length + (queue.take conf.burstFm).length
    (queue.take conf.burstFm).length = 0 ∨ curpos < conf.burstTo ∨ accepted = 0 ∨ curpos ≤ accepted
  | .flush accepted => accepted = 0 ∨ s.output.length ≤ accepted

theorem TxOp.excess_eq_zero_iff (op : TxOp wkCnt α) :
    op.excess conf s = 0 ↔ WholeOrNone conf s op := by
  cases op with
  | flush accepted => exact Transmission.excess_eq_zero_iff
  | ring _ queue accepted =>
    unfold TxOp.excess WholeOrNone
    dsimp only
    rw [← Transmission.excess_eq_zero_iff]
    split
    · rename_i hnone
      exact iff_of_true rfl (hnone.imp_right .inl)
    · rename_i hburst
      obtain ⟨hsome, hfull⟩ := not_or.mp hburst
      exact ⟨fun hz => .inr (.inr hz), fun hz => (hz.resolve_left hsome).resolve_left hfull⟩

def opStep (conf : TxConf) (s : CoreTx wkCnt α) (op : TxOp wkCnt α) : Option (CoreTx wkCnt α) :=
  some (op.apply conf s)

theorem surplusOf_eq_zero_iff (ops : List (TxOp wkCnt α)) :
    surplusOf conf s ops = 0 ↔ EachStep (opStep conf) (WholeOrNone conf) s ops := by
  induction ops generalizing s with
  | nil => exact iff_of_true rfl trivial
  | cons op ops ih =>
    rw [eachStep_cons (show opStep conf s op = some (op.apply conf s) from rfl), ← ih,
      ← op.excess_eq_zero_iff]
    exact Nat.add_eq_zero_iff

theorem TxOp.excess_le (h : Accounts conf surplus s) (op : TxOp wkCnt α) :
    op.excess conf s ≤ 512 := by
  have hfits := conf.fits
  have hroom := h.room
  have hone {burst accepted : Nat} (hburst : burst ≤ 512) :
      Transmission.excess burst accepted ≤ 512 := by
    unfold Transmission.excess
    split <;> omega
  cases op with
  | flush accepted => exact hone (by omega)
  | ring _ queue accepted =>
    have hread : (queue.take conf.burstFm).length ≤ conf.burstFm := length_take_le _ _
    unfold TxOp.excess
    dsimp only
    split
    · exact Nat.zero_le _
    · exact hone (by omega)

theorem surplusOf_le (h : Accounts conf surplus s) (ops : List (TxOp wkCnt α)) :
    surplusOf conf s ops ≤ 512 * ops.length := by
  induction ops generalizing s surplus with
  | nil => exact Nat.le_refl 0
  | cons op ops ih =>
    have hop := op.excess_le h
    have hrest := ih (h.apply op)
    unfold surplusOf
    rw [length_cons]
    omega

end

/-! ## 3. Runs -/

section

variable {α : Type} {conf : TxConf}

def ofRing {wkCnt : Nat} (n : Fin wkCnt) (l : List (Fin wkCnt × α)) : List (Fin wkCnt × α) :=
  l.filter fun p => p.1 = n

/-- **What always holds**: the order of each ring, every packet in one place, once, and never
more than `burst_to_ - 1 + burst_fm_` of them in the buffer. -/
structure Sound (conf : TxConf) (s : CoreTx conf.wkCnt α) : Prop where
  rings : ∀ n, (ofRing n s.transmitted).Sublist (ofRing n s.dequeued)
  owned : Owned s.dequeued s.output s.transmitted s.freed
  room : s.output.length ≤ conf.burstTo - 1
  peak : s.peak ≤ conf.burstTo - 1 + conf.burstFm

variable {s : CoreTx conf.wkCnt α}

theorem Accounts.sound {surplus : Nat} (h : Accounts conf surplus s) : Sound conf s :=
  ⟨fun _ => ((sublist_append_left _ _).trans h.owned.order).filter _, h.owned, h.room, h.peak⟩

def Counted (s : CoreTx conf.wkCnt α) : Prop := s.dropCount = UInt64.ofNat s.freed.length

theorem accounts_zero_iff : Accounts conf 0 s ↔ Sound conf s ∧ Counted s :=
  ⟨fun h => ⟨h.sound, h.dropCount⟩, fun h => ⟨h.1.owned, h.1.room, h.1.peak, h.2⟩⟩

theorem accounts_new : Accounts conf 0 (CoreTx.new : CoreTx conf.wkCnt α) :=
  ⟨⟨.refl _, .refl _⟩, Nat.zero_le _, Nat.zero_le _, rfl⟩

/-- Every burst of a call is taken as a whole or not at all. -/
def CallWhole (conf : TxConf) (s : CoreTx conf.wkCnt α) (call : TxCall conf.wkCnt α) : Prop :=
  EachStep (opStep conf) (WholeOrNone conf) s (call.ops conf)

theorem accounts_step_iff {s s' : CoreTx conf.wkCnt α} {call : TxCall conf.wkCnt α}
    (h : Accounts conf 0 s) (hstep : txStep conf s call = some s') :
    Accounts conf 0 s' ↔ CallWhole conf s call := by
  rw [txStep_eq] at hstep
  obtain rfl := Option.some.inj hstep
  have hrun := h.run (call.ops conf)
  rw [Nat.zero_add] at hrun
  have hle := surplusOf_le h (call.ops conf)
  have hfew := length_ops_le call
  have hwk := conf.wkCnt_lt
  rw [hrun.over_iff (by omega)]
  exact surplusOf_eq_zero_iff _

/-- **Transmission.** Order, ownership and the bound hold after every call, and the drop counter
is the number of packets freed if and only if the card takes each burst as a whole or not at all. -/
theorem transmission_accounts (conf : TxConf) (calls : List (TxCall conf.wkCnt α)) :
    Throughout (txStep conf) (Sound conf) CoreTx.new calls ∧
      (Throughout (txStep conf) (fun s => Sound conf s ∧ Counted s) CoreTx.new calls ↔
        EachStep (txStep conf) (CallWhole conf) CoreTx.new calls) := by
  constructor
  · refine (throughout_of_eachStep (P := fun s => ∃ surplus, Accounts conf surplus s)
      (C := fun _ _ => True) ?_ ⟨0, accounts_new⟩ eachStep_true).mono fun s ⟨_, hs⟩ => hs.sound
    intro s call s' ⟨surplus, hs⟩ _ hstep
    rw [txStep_eq] at hstep
    obtain rfl := Option.some.inj hstep
    exact ⟨_, hs.run (call.ops conf)⟩
  · rw [← throughout_iff_eachStep (A := fun _ _ => True)
      (fun _ _ _ hs _ hstep => accounts_step_iff hs hstep) accounts_new eachStep_true]
    exact ⟨fun h => h.mono fun s => accounts_zero_iff.mpr,
      fun h => h.mono fun s => accounts_zero_iff.mp⟩

end

def pairConf : TxConf := ⟨2, 2, 0, 1, by decide, by decide⟩

/-- Of two packets one is freed, and the counter goes up by two. -/
theorem transmission_overcounts :
    ((txStep pairConf (CoreTx.new : CoreTx 1 Nat)
        (.cycle (fun _ => [7, 8]) (fun _ => 1) 0 0)).map fun s =>
      (s.transmitted.map Prod.snd, s.freed.map Prod.snd, s.dropCount)) = some ([7], [8], 2) ∧
    ¬ Throughout (txStep pairConf) (fun s => Sound pairConf s ∧ Counted s)
        (CoreTx.new : CoreTx 1 Nat) [.cycle (fun _ => [7, 8]) (fun _ => 1) 0 0] := by
  refine ⟨by decide, fun h => ?_⟩
  have hlast : (2 : UInt64) = UInt64.ofNat 1 := (h.2 _ rfl).2
  cases hlast

end MixiPgw.Data.Transmission
