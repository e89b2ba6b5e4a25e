/-
# Usage records on the connection to the usage server

`CoreTransferWorker::VirtualCycle` hands each record to `Send`, which writes it to the TCP
connection: wait for the socket, write what it takes, and again, eleven rounds at most. Timeouts,
interruptions and partial writes all use up rounds, and a `Send` that gives up reports a failure,
whatever it has written. **`virtualCycle_boundaries_iff`**: the stream consists of the records
reported as sent EXACTLY if the socket takes of each record nothing or all.
-/
import MixiPgw.Lib.Loop
import Mathlib.Data.List.Infix
import Mathlib.Data.UInt

namespace MixiPgw.Data.UsageTransfer

open Lib List Option Loop

/-! ## 1. `Send` and `VirtualCycle` -/

/-- A round of `Send`: `select` times out, is interrupted or fails, or `send` takes up to so many
bytes, or fails, which ends the process. -/
inductive Round
  | timeout
  | interrupted
  | failed
  | writable (n : Nat)
  | broken

structure Sending where
  retrycnt : Nat
  allsend : Nat
  written : List UInt8

inductive SendEnd
  | returned (ret : Int) (written : List UInt8)
  | exited (written : List UInt8)
deriving DecidableEq

section

variable (data : List UInt8) (rounds : Nat → Round)

/-- One turn of the loop; the retries are counted before the result of `select` is looked at. -/
def turn (s : Sending) : SendEnd ⊕ Sending :=
  if 10 < s.retrycnt then .inl (.returned (-1) s.written)
  else
    match rounds s.retrycnt with
    | .timeout => .inr { s with retrycnt := s.retrycnt + 1 }
    | .interrupted => .inr { s with retrycnt := s.retrycnt + 1 }
    | .failed => .inl (.returned (-1) s.written)
    | .broken => .inl (.exited s.written)
    | .writable n =>
      let part := (data.drop s.allsend).take n
      let allsend := s.allsend + part.length
      if data.length ≤ allsend then .inl (.returned allsend (s.written ++ part))
      else .inr ⟨s.retrycnt + 1, allsend, s.written ++ part⟩

def send : Option SendEnd := iterate (turn data rounds) 12 ⟨0, 0, []⟩

end

structure Attempt where
  payload : List UInt8
  rounds : Nat → Round

/-- The connection, the records with what `Send` reported, and the counters. -/
structure Worker where
  stream : List UInt8
  sends : List (List UInt8 × Bool)
  dropBytes : UInt64
  transferBytes : UInt64
  transferCount : UInt64

def Worker.new : Worker := ⟨[], [], 0, 0, 0⟩

/-- The body of the loop over the burst; `none` ends the process. -/
def Worker.transfer (w : Worker) (a : Attempt) : Option Worker :=
  match send a.payload a.rounds with
  | some (.returned ret written) =>
    let len := UInt64.ofNat a.payload.length
    let w := { w with
      stream := w.stream ++ written
      sends := w.sends ++ [(a.payload, decide (0 ≤ ret))]
      transferCount := w.transferCount + 1 }
    if ret < 0 then some { w with dropBytes := w.dropBytes + len }
    else some { w with transferBytes := w.transferBytes + len }
  | _ => none

def Worker.virtualCycle (w : Worker) (burst : List Attempt) : Option Worker :=
  burst.foldlM Worker.transfer w

def Worker.run (w : Worker) (bursts : List (List Attempt)) : Option Worker :=
  bursts.foldlM Worker.virtualCycle w

/-! ## 2. One `Send` -/

/-- What the socket would take in `left` rounds from `k` on, up to the first failure. -/
def roomFrom (rounds : Nat → Round) : Nat → Nat → Nat
  | 0, _ => 0
  | left + 1, k =>
    match rounds k with
    | .writable n => n + roomFrom rounds left (k + 1)
    | .timeout => roomFrom rounds left (k + 1)
    | .interrupted => roomFrom rounds left (k + 1)
    | .failed => 0
    | .broken => 0

def room (rounds : Nat → Round) : Nat := roomFrom rounds 11 0

def Ends (data : List UInt8) (total : Nat) : SendEnd → Prop
  | .exited _ => True
  | .returned ret written => written = data.take total ∧
      (0 ≤ ret ∧ data.length ≤ total ∨ ret < 0 ∧ (data = [] ∨ total < data.length))

section

variable {data : List UInt8} {rounds : Nat → Round}

theorem iterate_turn (left : Nat) {k a : Nat} (hk : k + left = 11)
    (ha : data = [] ∨ a < data.length) :
    ∃ e, iterate (turn data rounds) (left + 1) ⟨k, a, data.take a⟩ = some e ∧
      Ends data (a + roomFrom rounds left k) e := by
  induction left generalizing k a with
  | zero =>
    have hturn : turn data rounds ⟨k, a, data.take a⟩ = .inl (.returned (-1) (data.take a)) :=
      if_pos (show 10 < k by omega)
    exact ⟨_, iterate_exit hturn 0, rfl, .inr ⟨by decide, ha⟩⟩
  | succ left ih =>
    have hnext : k + 1 + left = 11 := by omega
    have hturn : turn data rounds ⟨k, a, data.take a⟩ = _ := if_neg (show ¬ 10 < k by omega)
    unfold roomFrom
    cases hround : rounds k with
    | timeout =>
      rw [hround] at hturn
      rw [iterate_next hturn]
      exact ih hnext ha
    | interrupted =>
      rw [hround] at hturn
      rw [iterate_next hturn]
      exact ih hnext ha
    | failed =>
      rw [hround] at hturn
      exact ⟨_, iterate_exit hturn _, rfl, .inr ⟨by decide, ha⟩⟩
    | broken =>
      rw [hround] at hturn
      exact ⟨_, iterate_exit hturn _, trivial⟩
    | writable n =>
      rw [hround] at hturn
      dsimp only at hturn ⊢
      have hwritten : data.take a ++ (data.drop a).take n = data.take (a + n) := (take_add ..).symm
      rw [hwritten, length_take, length_drop] at hturn
      rw [← Nat.add_assoc]
      split at hturn
      · have hall : data.length ≤ a + n := by
          rcases ha with rfl | ha
          · exact Nat.zero_le _
          · omega
        refine ⟨_, iterate_exit hturn _, ?_, .inl ⟨Int.natCast_nonneg _, by omega⟩⟩
        rw [take_of_length_le hall, take_of_length_le (by omega)]
      · rename_i hdone
        have hsome : a + min n (data.length - a) = a + n := by omega
        rw [hsome] at hturn hdone
        rw [iterate_next hturn]
        exact ih hnext (.inr (Nat.lt_of_not_le hdone))

/-- `Send` returns or the process ends, and has written what there was room for. -/
theorem send_ends (data : List UInt8) (rounds : Nat → Round) :
    ∃ e, send data rounds = some e ∧ Ends data (room rounds) e := by
  have h : ∃ e, send data rounds = some e ∧ Ends data (0 + room rounds) e :=
    iterate_turn 11 rfl ((Nat.eq_zero_or_pos _).imp_left length_eq_zero_iff.mp)
  rwa [Nat.zero_add] at h

end

/-! ## 3. Record boundaries -/

def delivered (sends : List (List UInt8 × Bool)) : List UInt8 :=
  (sends.filter Prod.snd).flatMap Prod.fst

def Worker.Aligned (w : Worker) : Prop := w.stream = delivered w.sends

instance (w : Worker) : Decidable w.Aligned := inferInstanceAs (Decidable (_ = _))

/-- **The condition**: the socket takes nothing of the record or has room for all of it. -/
def Attempt.Whole (a : Attempt) : Prop := room a.rounds = 0 ∨ a.payload.length ≤ room a.rounds

section

variable {w w' : Worker} {a : Attempt}

theorem delivered_snoc (sends : List (List UInt8 × Bool)) (payload : List UInt8) (ok : Bool) :
    delivered (sends ++ [(payload, ok)]) = delivered sends ++ if ok then payload else [] := by
  unfold delivered
  cases ok <;> simp

theorem Worker.transfer_spec (h : w.transfer a = some w') :
    ∃ ok, w'.stream = w.stream ++ a.payload.take (room a.rounds) ∧
      w'.sends = w.sends ++ [(a.payload, ok)] ∧
      (ok = true ∧ a.payload.length ≤ room a.rounds ∨
        ok = false ∧ (a.payload = [] ∨ room a.rounds < a.payload.length)) := by
  obtain ⟨e, hsend, hends⟩ := send_ends a.payload a.rounds
  unfold Worker.transfer at h
  rw [hsend] at h
  cases e with
  | exited written => exact absurd h (by simp)
  | returned ret written =>
    obtain ⟨rfl, hret⟩ := hends
    refine ⟨decide (0 ≤ ret), ?_⟩
    have hreport : decide (0 ≤ ret) = true ∧ a.payload.length ≤ room a.rounds ∨
        decide (0 ≤ ret) = false ∧ (a.payload = [] ∨ room a.rounds < a.payload.length) :=
      hret.imp (And.imp_left decide_eq_true)
        (And.imp_left fun hneg => decide_eq_false (Int.not_le.mpr hneg))
    dsimp only at h
    split at h
    · obtain rfl := some.inj h
      exact ⟨rfl, rfl, hreport⟩
    · obtain rfl := some.inj h
      exact ⟨rfl, rfl, hreport⟩

theorem Worker.aligned_transfer_iff (hw : w.Aligned) (h : w.transfer a = some w') :
    w'.Aligned ↔ a.Whole := by
  obtain ⟨ok, hstream, hsends, hreport⟩ := Worker.transfer_spec h
  unfold Worker.Aligned at hw ⊢
  rw [hstream, hsends, delivered_snoc, hw, append_cancel_left_eq]
  rcases hreport with ⟨rfl, hroom⟩ | ⟨rfl, hnil | hroom⟩
  · exact iff_of_true (take_of_length_le hroom) (.inr hroom)
  · rw [hnil, take_nil]
    exact iff_of_true rfl (.inr (by rw [hnil]; exact Nat.zero_le _))
  · rw [if_neg (by decide), take_eq_nil_iff]
    constructor
    · rintro (hzero | hnil)
      · exact .inl hzero
      · rw [hnil] at hroom
        exact absurd hroom (Nat.not_lt_zero _)
    · intro hwhole
      exact .inl (hwhole.resolve_right (Nat.not_le_of_lt hroom))

theorem Worker.aligned_iff {as : List Attempt} (hw : w.Aligned) (h : w.virtualCycle as = some w') :
    (∀ before, before <+: as → ∀ v, w.virtualCycle before = some v → v.Aligned) ↔
      ∀ a ∈ as, a.Whole := by
  induction as generalizing w with
  | nil =>
    refine iff_of_true (fun before hbefore v hv => ?_) fun a ha => absurd ha not_mem_nil
    rw [prefix_nil.mp hbefore] at hv
    obtain rfl := some.inj hv
    exact hw
  | cons a as ih =>
    obtain ⟨w₁, hfirst, hrest⟩ := bind_eq_some_iff.mp h
    have hone := Worker.aligned_transfer_iff hw hfirst
    have hcons (before : List Attempt) (v : Worker) :
        w.virtualCycle (a :: before) = some v ↔ w₁.virtualCycle before = some v := by
      unfold Worker.virtualCycle
      rw [foldlM_cons, hfirst]
      rfl
    rw [forall_mem_cons]
    constructor
    · intro hall
      have hw₁ : w₁.Aligned := hall [a] ⟨as, rfl⟩ w₁ ((hcons [] w₁).mpr rfl)
      refine ⟨hone.mp hw₁, (ih hw₁ hrest).mp fun before hbefore v hv => ?_⟩
      exact hall (a :: before) ((prefix_cons_inj a).mpr hbefore) v ((hcons before v).mpr hv)
    · rintro ⟨hwhole, hwholes⟩ before hbefore v hv
      cases before with
      | nil =>
        obtain rfl := some.inj hv
        exact hw
      | cons b before =>
        obtain ⟨rfl, hlater⟩ := cons_prefix_cons.mp hbefore
        exact (ih (hone.mpr hwhole) hrest).mpr hwholes before hlater v ((hcons before v).mp hv)

theorem Worker.run_eq_virtualCycle (w : Worker) (bursts : List (List Attempt)) :
    w.run bursts = w.virtualCycle bursts.flatten := by
  induction bursts generalizing w with
  | nil => rfl
  | cons burst bursts ih =>
    unfold Worker.virtualCycle at *
    rw [flatten_cons, foldlM_append]
    exact congrArg _ (funext ih)

end

/-- **Record boundaries.** Between any two calls of `Send` the connection carries the records
reported as sent, whole, once and in order, if and only if for each record the socket takes
nothing or all of it in the eleven rounds of its `Send`. -/
theorem virtualCycle_boundaries_iff (bursts : List (List Attempt)) (w : Worker)
    (hrun : Worker.new.run bursts = some w) :
    (∀ before, before <+: bursts.flatten → ∀ v, Worker.new.virtualCycle before = some v →
      v.stream = delivered v.sends) ↔
      ∀ a ∈ bursts.flatten, room a.rounds = 0 ∨ a.payload.length ≤ room a.rounds := by
  rw [Worker.run_eq_virtualCycle] at hrun
  exact Worker.aligned_iff rfl hrun

/-- A record of `sizeof(counting_t)` bytes; the socket takes so many bytes, once, and then
nothing. -/
def stalledRecord (n : Nat) : Attempt :=
  ⟨List.replicate 1036 0, fun k => if k = 0 then .writable n else .timeout⟩

/-- The record is reported as failed, and one byte is on the connection. -/
theorem stalledRecord_torn :
    (Worker.new.virtualCycle [stalledRecord 1]).map (fun w => (w.stream, w.sends.map Prod.snd)) =
      some ([0], [false]) ∧
      (Worker.new.virtualCycle [stalledRecord 1]).map (fun w => decide w.Aligned) = some false := by
  decide +kernel

/-- Two bursts: a record goes out, the next one is refused, a third goes out. -/
def wholeBursts : List (List Attempt) :=
  [[stalledRecord 1036, stalledRecord 0], [stalledRecord 2000]]

theorem stalledRecord_whole :
    ∃ w, Worker.new.run wholeBursts = some w ∧
      ∀ before, before <+: wholeBursts.flatten → ∀ v, Worker.new.virtualCycle before = some v →
        v.stream = delivered v.sends := by
  have hsome : (Worker.new.run wholeBursts).isSome = true := by decide +kernel
  obtain ⟨w, hw⟩ := isSome_iff_exists.mp hsome
  exact ⟨w, hw, (virtualCycle_boundaries_iff wholeBursts w hw).mpr (by decide +kernel)⟩

end MixiPgw.Data.UsageTransfer
