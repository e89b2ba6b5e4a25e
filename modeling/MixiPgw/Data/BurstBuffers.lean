/-
# The burst buffers of the cores

Packets are kept in arrays until a burst is full or a flush is due: by every core in front of
`ring_to_` (`CoreInterface`), by the reception cores in front of each worker (`CoreRx`,
`CoreRxDistributor`), and by the counting cores in front of the pass-through ring
(`CoreCounterWorker`). The functions are the two operations of `Lib/BurstBuffer`; but
`BurstFlushDistributeRx` counts a whole burst where it frees fewer packets,
`SendOrBufferPassThrough` neither keeps nor frees a packet when there is no ring, and `CoreRx` has
arrays for sixteen workers and does not look how many there are.
**`burst_buffers_account`** says for which runs the ledger is right.
-/
import MixiPgw.Data.Cycle
import MixiPgw.Lib.BurstBuffer
import Mathlib.Data.List.FinRange

namespace MixiPgw.Data

open Lib Option List BurstBuffers

/-! ## 1. The functions -/

/-- `burst_to_`: a burst fits into `DEFAULT_MBUF_ARRAY_SIZE`. -/
structure BurstTo where
  size : Nat
  pos : 0 < size
  fits : size ≤ 512

section

variable {ι α : Type} [DecidableEq ι]

namespace CoreInterface

/-- `CoreInterface::SendOrBuffer`; `ringTo` is `ring_to_`. -/
def sendOrBuffer (burst : BurstTo) (ringTo : ι) (s : BurstBuffers ι α) (mbuf : α)
    (taken : Bool) : BurstBuffers ι α :=
  s.send burst.size ringTo mbuf taken

def burstFlush (ringTo : ι) (s : BurstBuffers ι α) (taken : Bool) : BurstBuffers ι α :=
  s.flush (s.bufs ringTo).length ringTo taken

end CoreInterface

/-- `DEFAULT_MBUF_OUT_SIZE`: the rows of `output_rx_` and `output_cnt_rx_`. -/
def mbufOutSize : Nat := 16

namespace CoreRx

/-- The row of a worker; `none` is an access behind the arrays. -/
def row (wk : Nat) : Option (Fin mbufOutSize) :=
  if h : wk < mbufOutSize then some ⟨wk, h⟩ else none

def sendOrBufferRx (burst : BurstTo) (s : BurstBuffers (Fin mbufOutSize) α) (wk : Nat)
    (mbuf : α) (taken : Bool) : Option (BurstBuffers (Fin mbufOutSize) α) :=
  (row wk).map fun n => s.send burst.size n mbuf taken

/-- The loop over `ring_rx_`, which `SetRingAddr` fills without a limit. -/
def burstFlushRx (wkcnt : Nat) (s : BurstBuffers (Fin mbufOutSize) α) (taken : Nat → Bool) :
    Option (BurstBuffers (Fin mbufOutSize) α) :=
  (range wkcnt).foldlM
    (fun s wk => (row wk).map fun n => s.flush (s.bufs n).length n (taken wk)) s

end CoreRx

inductive DistRing
  | ingress
  | egress
deriving DecidableEq

instance : Fintype DistRing := ⟨{.ingress, .egress}, fun r => by cases r <;> decide⟩

namespace CoreRxDistributor

variable (burst : BurstTo) (s : BurstBuffers DistRing α)

def sendOrBufferDistributeRx (wk : DistRing) (mbuf : α) (taken : Bool) : BurstBuffers DistRing α :=
  s.send burst.size wk mbuf taken

/-- `CoreRxDistributor::BurstFlushDistributeRx`: a refused flush counts `burst_to_` drops. -/
def burstFlushDistributeRx (taken : DistRing → Bool) : BurstBuffers DistRing α :=
  [DistRing.ingress, .egress].foldl (fun s n => s.flush burst.size n (taken n)) s

end CoreRxDistributor

/-- The rings of a counting core: `ring_to_` and `ring_pass_through_`. -/
inductive CounterRing
  | to
  | passThrough
deriving DecidableEq

instance : Fintype CounterRing := ⟨{.to, .passThrough}, fun r => by cases r <;> decide⟩

namespace CoreCounterWorker

/-- `CoreCounterWorker::SendOrBufferPassThrough`; `connected` says that there is a ring. -/
def sendOrBufferPassThrough (burst : BurstTo) (connected : Bool) (s : BurstBuffers CounterRing α)
    (mbuf : α) (taken : Bool) : BurstBuffers CounterRing α :=
  if connected then s.send burst.size .passThrough mbuf taken else s

def burstFlushPassthrough (connected : Bool) (s : BurstBuffers CounterRing α) (taken : Bool) :
    BurstBuffers CounterRing α :=
  if connected then s.flush (s.bufs .passThrough).length .passThrough taken else s

end CoreCounterWorker

end

/-! ## 2. Runs -/

/-- A core's buffers and the packets handed to each of them. -/
structure BurstRun (ι α : Type) where
  buffers : BurstBuffers ι α
  sent : ι → List α

namespace BurstRun

variable {ι α : Type}

def start (bufs : ι → List α) : BurstRun ι α := ⟨⟨bufs, fun _ => [], fun _ => [], 0⟩, fun _ => []⟩

/-- Order, one place for each packet, at most one packet less than a burst in a buffer, and the drop
counter. -/
def Right [Fintype ι] (burst : BurstTo) (r : BurstRun ι α) : Prop :=
  r.buffers.Accounts burst.size 0 r.sent

def hand [DecidableEq ι] (r : BurstRun ι α) (i : ι) (mbuf : α) : ι → List α :=
  Function.update r.sent i (r.sent i ++ [mbuf])

end BurstRun

/-- A call with the outcomes of the bulk enqueue. -/
inductive BurstOp (ι α : Type)
  | send (wk : ι) (mbuf : α) (taken : Bool)
  | flush (taken : ι → Bool)

section

variable {α : Type}

def interfaceStep (burst : BurstTo) (r : BurstRun Unit α) :
    BurstOp Unit α → Option (BurstRun Unit α)
  | .send _ mbuf taken =>
    some ⟨CoreInterface.sendOrBuffer burst () r.buffers mbuf taken, r.hand () mbuf⟩
  | .flush taken => some ⟨CoreInterface.burstFlush () r.buffers (taken ()), r.sent⟩

/-- A call of a reception core with `wkcnt` rings. -/
inductive RxOp (wkcnt : Nat) (α : Type)
  | send (wk : Fin wkcnt) (mbuf : α) (taken : Bool)
  | flush (taken : Nat → Bool)

/-- The state is `none` once a call has written behind the arrays. -/
def rxStep {wkcnt : Nat} (burst : BurstTo) (r : Option (BurstRun (Fin mbufOutSize) α)) :
    RxOp wkcnt α → Option (Option (BurstRun (Fin mbufOutSize) α))
  | .send wk mbuf taken =>
    some <| r.bind fun r => (CoreRx.row wk).bind fun n =>
      (CoreRx.sendOrBufferRx burst r.buffers wk mbuf taken).map (⟨·, r.hand n mbuf⟩)
  | .flush taken =>
    some <| r.bind fun r => (CoreRx.burstFlushRx wkcnt r.buffers taken).map (⟨·, r.sent⟩)

def RxRight (burst : BurstTo) (r : Option (BurstRun (Fin mbufOutSize) α)) : Prop :=
  ∃ run, r = some run ∧ run.Right burst

def distributorStep (burst : BurstTo) (r : BurstRun DistRing α) :
    BurstOp DistRing α → Option (BurstRun DistRing α)
  | .send wk mbuf taken =>
    some ⟨CoreRxDistributor.sendOrBufferDistributeRx burst r.buffers wk mbuf taken, r.hand wk mbuf⟩
  | .flush taken => some ⟨CoreRxDistributor.burstFlushDistributeRx burst r.buffers taken, r.sent⟩

/-- A call of a counting core, of `CoreInterface` or its own. -/
inductive CounterOp (α : Type)
  | send (mbuf : α) (taken : Bool)
  | flush (taken : Bool)
  | sendPassThrough (mbuf : α) (taken : Bool)
  | flushPassthrough (taken : Bool)

def passThroughStep (burst : BurstTo) (connected : Bool) (r : BurstRun CounterRing α) :
    CounterOp α → Option (BurstRun CounterRing α)
  | .send mbuf taken =>
    some ⟨CoreInterface.sendOrBuffer burst .to r.buffers mbuf taken, r.hand .to mbuf⟩
  | .flush taken => some ⟨CoreInterface.burstFlush .to r.buffers taken, r.sent⟩
  | .sendPassThrough mbuf taken =>
    some ⟨CoreCounterWorker.sendOrBufferPassThrough burst connected r.buffers mbuf taken,
      r.hand .passThrough mbuf⟩
  | .flushPassthrough taken =>
    some ⟨CoreCounterWorker.burstFlushPassthrough connected r.buffers taken, r.sent⟩

/-- The constructor does not set `output_cnt_pass_through_`. -/
def junkPassThrough (junk : List α) : CounterRing → List α
  | .to => []
  | .passThrough => junk

/-- The call stays in the rows of the arrays. -/
def InRows {wkcnt : Nat} (_ : Option (BurstRun (Fin mbufOutSize) α)) : RxOp wkcnt α → Prop
  | .send wk _ _ => wk.val < mbufOutSize
  | .flush _ => wkcnt ≤ mbufOutSize

/-- No ring refuses the rest of a burst. -/
def FlushTaken (r : BurstRun DistRing α) : BurstOp DistRing α → Prop
  | .send _ _ _ => True
  | .flush taken =>
    (taken .ingress = true ∨ r.buffers.bufs .ingress = []) ∧
      (taken .egress = true ∨ r.buffers.bufs .egress = [])

/-- A packet that is to pass through finds a ring. -/
def FindsRing (connected : Bool) (_ : BurstRun CounterRing α) : CounterOp α → Prop
  | .sendPassThrough _ _ => connected = true
  | _ => True

end

/-! ## 3. The ledger -/

section

variable {α : Type} {burst : BurstTo}

theorem start_right {ι : Type} [Fintype ι] :
    (BurstRun.start fun _ : ι => ([] : List α)).Right burst := by
  refine ⟨fun _ => ⟨List.Sublist.refl _, List.Perm.refl _⟩, fun _ => burst.pos, ?_⟩
  show (0 : UInt64) = UInt64.ofNat (∑ _i : ι, 0 + 0)
  rw [Finset.sum_const_zero]
  rfl

theorem interface_right (ops : List (BurstOp Unit α)) :
    Throughout (interfaceStep burst) (BurstRun.Right burst) (.start fun _ => []) ops := by
  refine throughout_of_eachStep (C := fun _ _ => True) ?_ start_right eachStep_true
  intro r op r' hr _ hstep
  cases op with
  | send wk mbuf taken =>
    obtain rfl := some.inj hstep
    exact hr.send () mbuf taken
  | flush taken =>
    obtain rfl := some.inj hstep
    exact hr.flush_length () (taken ())

/-- The loop comes to its end exactly if every ring has a row. -/
theorem burstFlushRx_spec {sent : Fin mbufOutSize → List α} (taken : Nat → Bool)
    {s : BurstBuffers (Fin mbufOutSize) α} (h : s.Accounts burst.size 0 sent) (wkcnt : Nat) :
    if wkcnt ≤ mbufOutSize then
      ∃ s', CoreRx.burstFlushRx wkcnt s taken = some s' ∧ s'.Accounts burst.size 0 sent
    else CoreRx.burstFlushRx wkcnt s taken = none := by
  induction wkcnt with
  | zero => exact ⟨s, rfl, h⟩
  | succ wk ih =>
    have hlast : CoreRx.burstFlushRx (wk + 1) s taken =
        (CoreRx.burstFlushRx wk s taken).bind fun s =>
          (CoreRx.row wk).map fun n => s.flush (s.bufs n).length n (taken wk) := by
      unfold CoreRx.burstFlushRx
      rw [range_succ, foldlM_append]
      simp
    rw [hlast]
    by_cases hwk : wk < mbufOutSize
    · rw [if_pos (Nat.le_of_lt hwk)] at ih
      obtain ⟨s', hs', haccounts⟩ := ih
      rw [if_pos (Nat.succ_le_of_lt hwk), hs', bind_some, CoreRx.row, dif_pos hwk]
      exact ⟨_, rfl, haccounts.flush_length ⟨wk, hwk⟩ (taken wk)⟩
    · rw [if_neg (by omega), CoreRx.row, dif_neg hwk]
      cases CoreRx.burstFlushRx wk s taken <;> rfl

theorem rx_step_iff {wkcnt : Nat} {op : RxOp wkcnt α}
    {r r' : Option (BurstRun (Fin mbufOutSize) α)} (hr : RxRight burst r)
    (hstep : rxStep burst r op = some r') : RxRight burst r' ↔ InRows r op := by
  obtain ⟨run, rfl, hrun⟩ := hr
  cases op with
  | send wk mbuf taken =>
    obtain rfl := some.inj hstep
    by_cases hwk : wk.val < mbufOutSize
    · refine iff_of_true ⟨⟨_, run.hand ⟨wk, hwk⟩ mbuf⟩, ?_, hrun.send ⟨wk, hwk⟩ mbuf taken⟩ hwk
      rw [bind_some, CoreRx.sendOrBufferRx, CoreRx.row, dif_pos hwk]
      rfl
    · refine iff_of_false ?_ hwk
      rintro ⟨_, hnone, -⟩
      simp [CoreRx.row, hwk] at hnone
  | flush taken =>
    obtain rfl := some.inj hstep
    have hspec := burstFlushRx_spec taken hrun wkcnt
    by_cases hle : wkcnt ≤ mbufOutSize
    · rw [if_pos hle] at hspec
      obtain ⟨s', hs', haccounts⟩ := hspec
      exact iff_of_true ⟨⟨s', run.sent⟩, by rw [bind_some, hs', map_some], haccounts⟩ hle
    · rw [if_neg hle] at hspec
      refine iff_of_false ?_ hle
      rintro ⟨_, hnone, -⟩
      rw [bind_some, hspec] at hnone
      cases hnone

theorem rx_right_iff {wkcnt : Nat} (ops : List (RxOp wkcnt α)) :
    Throughout (rxStep burst) (RxRight burst) (some (.start fun _ => [])) ops ↔
      EachStep (rxStep burst) InRows (some (.start fun _ => [])) ops :=
  throughout_iff_eachStep (A := fun _ _ => True) (fun _ _ _ hr _ hstep => rx_step_iff hr hstep)
    ⟨_, rfl, start_right⟩ eachStep_true

theorem inRows_of_le {wkcnt : Nat} (hle : wkcnt ≤ mbufOutSize)
    (r : Option (BurstRun (Fin mbufOutSize) α)) (op : RxOp wkcnt α) : InRows r op := by
  cases op with
  | send wk mbuf taken => exact Nat.lt_of_lt_of_le wk.isLt hle
  | flush taken => exact hle

theorem excess_eq_zero_iff {ι : Type} {s : BurstBuffers ι α} {i : ι} {taken : Bool}
    (hroom : (s.bufs i).length < burst.size) :
    s.excess burst.size i taken = 0 ↔ taken = true ∨ s.bufs i = [] := by
  unfold excess
  constructor
  · intro h
    by_contra hrest
    rw [if_neg hrest] at h
    omega
  · intro h
    rw [if_pos h]

theorem distributor_flush_iff {sent : DistRing → List α} {s : BurstBuffers DistRing α}
    (h : s.Accounts burst.size 0 sent) (taken : DistRing → Bool) :
    (CoreRxDistributor.burstFlushDistributeRx burst s taken).Accounts burst.size 0 sent ↔
      (taken .ingress = true ∨ s.bufs .ingress = []) ∧
        (taken .egress = true ∨ s.bufs .egress = []) := by
  have hin := h.flush (Nat.le_of_lt (h.room .ingress)) (taken .ingress)
  have hkeep : (s.flush burst.size .ingress (taken .ingress)).bufs .egress = s.bufs .egress :=
    s.flush_bufs_of_ne (by decide) _ _
  have hout := hin.flush (Nat.le_of_lt (hin.room .egress)) (taken .egress)
  have hsame : (s.flush burst.size .ingress (taken .ingress)).excess burst.size .egress
      (taken .egress) = s.excess burst.size .egress (taken .egress) := by
    unfold excess
    rw [hkeep]
  -- each ring adds less than a burst to the counter, so the two of them cannot wrap it
  have hsmall : ∀ i, s.excess burst.size i (taken i) ≤ 512 := by
    intro i
    unfold excess
    split
    · exact Nat.zero_le _
    · exact Nat.le_trans (Nat.sub_le _ _) burst.fits
  have hiff := hout.over_iff (by have := hsmall .ingress; have := hsmall .egress; omega)
  refine hiff.trans ?_
  rw [← excess_eq_zero_iff (h.room .ingress), ← excess_eq_zero_iff (h.room .egress)]
  omega

theorem distributor_right_iff (ops : List (BurstOp DistRing α)) :
    Throughout (distributorStep burst) (BurstRun.Right burst) (.start fun _ => []) ops ↔
      EachStep (distributorStep burst) FlushTaken (.start fun _ => []) ops := by
  refine throughout_iff_eachStep (A := fun _ _ => True) ?_ start_right eachStep_true
  intro r op r' hr _ hstep
  cases op with
  | send wk mbuf taken =>
    obtain rfl := some.inj hstep
    exact iff_of_true (hr.send wk mbuf taken) trivial
  | flush taken =>
    obtain rfl := some.inj hstep
    exact distributor_flush_iff hr taken

theorem passThrough_step_iff {connected : Bool} {r r' : BurstRun CounterRing α} {op : CounterOp α}
    (hr : r.Right burst) (hstep : passThroughStep burst connected r op = some r') :
    r'.Right burst ↔ FindsRing connected r op := by
  cases op with
  | send mbuf taken =>
    obtain rfl := some.inj hstep
    exact iff_of_true (hr.send .to mbuf taken) trivial
  | flush taken =>
    obtain rfl := some.inj hstep
    exact iff_of_true (hr.flush_length .to taken) trivial
  | sendPassThrough mbuf taken =>
    obtain rfl := some.inj hstep
    cases connected with
    | true => exact iff_of_true (hr.send .passThrough mbuf taken) rfl
    | false =>
      refine iff_of_false ?_ Bool.false_ne_true
      intro hlost
      -- the packet is nowhere: there is one more than on the ring, freed and buffered
      have hbefore := (hr.owned .passThrough).once.length_eq
      have hafter := (hlost.owned .passThrough).once.length_eq
      simp [BurstRun.hand, CoreCounterWorker.sendOrBufferPassThrough] at hbefore hafter
      omega
  | flushPassthrough taken =>
    obtain rfl := some.inj hstep
    refine iff_of_true ?_ trivial
    cases connected with
    | true => exact hr.flush_length .passThrough taken
    | false => exact hr

theorem passThrough_right_iff (connected : Bool) (junk : List α) (ops : List (CounterOp α)) :
    Throughout (passThroughStep burst connected) (BurstRun.Right burst)
        (.start (junkPassThrough junk)) ops ↔
      junk = [] ∧ EachStep (passThroughStep burst connected) (FindsRing connected)
        (.start (junkPassThrough junk)) ops := by
  have hruns {r : BurstRun CounterRing α} (hr : r.Right burst) :
      Throughout (passThroughStep burst connected) (BurstRun.Right burst) r ops ↔
        EachStep (passThroughStep burst connected) (FindsRing connected) r ops :=
    throughout_iff_eachStep (A := fun _ _ => True)
      (fun _ _ _ hr _ hstep => passThrough_step_iff hr hstep) hr eachStep_true
  constructor
  · intro h
    have hjunk : junk = [] := nil_perm.mp (h.head.owned .passThrough).once.symm
    exact ⟨hjunk, (hruns h.head).mp h⟩
  · rintro ⟨rfl, hfinds⟩
    have hempty : junkPassThrough ([] : List α) = fun _ => [] := by
      funext i
      cases i <;> rfl
    refine (hruns ?_).mpr hfinds
    rw [hempty]
    exact start_right

/-- **The four burst buffers.** The ledger is right throughout for `CoreInterface`; for `CoreRx` if
and only if the calls stay in the sixteen rows, as they do with at most sixteen workers; for
`CoreRxDistributor` if and only if no ring refuses a flush of what is buffered; for the
pass-through of `CoreCounterWorker` if and only if `output_cnt_pass_through_` happens to start at
zero and no packet comes while there is no ring. -/
theorem burst_buffers_account (burst : BurstTo) : (∀ ops : List (BurstOp Unit α),
        Throughout (interfaceStep burst) (BurstRun.Right burst) (.start fun _ => []) ops) ∧
      (∀ (wkcnt : Nat) (ops : List (RxOp wkcnt α)),
        (Throughout (rxStep burst) (RxRight burst) (some (.start fun _ => [])) ops ↔
          EachStep (rxStep burst) InRows (some (.start fun _ => [])) ops) ∧
        (wkcnt ≤ mbufOutSize →
          Throughout (rxStep burst) (RxRight burst) (some (.start fun _ => [])) ops)) ∧
      (∀ ops : List (BurstOp DistRing α),
        Throughout (distributorStep burst) (BurstRun.Right burst) (.start fun _ => []) ops ↔
          EachStep (distributorStep burst) FlushTaken (.start fun _ => []) ops) ∧
      ∀ (connected : Bool) (junk : List α) (ops : List (CounterOp α)),
        Throughout (passThroughStep burst connected) (BurstRun.Right burst)
            (.start (junkPassThrough junk)) ops ↔
          junk = [] ∧ EachStep (passThroughStep burst connected) (FindsRing connected)
            (.start (junkPassThrough junk)) ops := by
  refine ⟨interface_right, fun wkcnt ops => ⟨rx_right_iff ops, fun hle => ?_⟩,
    distributor_right_iff, passThrough_right_iff⟩
  exact (rx_right_iff ops).mpr (eachStep_true.mono fun r op _ _ _ => inRows_of_le hle r op)

def burstOfTwo : BurstTo := ⟨2, by decide, by decide⟩

/-- The seventeenth of seventeen workers has no row; one packet of a burst of two is refused and
counted twice; a packet finds no ring. -/
theorem burst_buffers_miscount :
    ¬Throughout (rxStep burstOfTwo) (RxRight burstOfTwo) (some (.start fun _ => ([] : List Nat)))
        [(.send 16 7 true : RxOp 17 Nat)] ∧
      ¬Throughout (distributorStep burstOfTwo) (BurstRun.Right burstOfTwo)
        (.start fun _ => ([] : List Nat)) [.send .ingress 7 true, .flush fun _ => false] ∧
      ¬Throughout (passThroughStep burstOfTwo false) (BurstRun.Right burstOfTwo)
        (.start (junkPassThrough ([] : List Nat))) [.sendPassThrough 7 true] := by
  refine ⟨?_, ?_, ?_⟩
  · rw [rx_right_iff]
    intro h
    exact Nat.lt_irrefl mbufOutSize (h _ rfl).1
  · rw [distributor_right_iff]
    intro h
    obtain ⟨hflush, -⟩ := (h _ rfl).2 _ rfl
    exact absurd hflush.1 (by decide)
  · rw [passThrough_right_iff]
    rintro ⟨-, h⟩
    exact Bool.false_ne_true (h _ rfl).1

end

end MixiPgw.Data
