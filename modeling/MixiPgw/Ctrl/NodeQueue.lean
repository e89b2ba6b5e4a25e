/-
# The queues of a node

Threads put packets on the ingress and egress queue of a node with `pgw_enq` and take bursts off
with `pgw_deq_burst`; each call is one locked section. A full queue drops the packet, counts the
drop and returns `OK`.

**`node_delivers_iff`**: nothing that was accepted is lost EXACTLY as long as no packet meets a full
queue. What is lost is counted (`node_accounts`).
-/
import MixiPgw.Ctrl.Session
import MixiPgw.Lib.Burst
import MixiPgw.Lib.Run
import Mathlib.Data.UInt

namespace MixiPgw.Ctrl

open Lib List Function

/-! ## 1. The functions -/

inductive RetCd
  | ok
  | err
deriving DecidableEq, Repr

/-- The queue of a call; every `order` but `INGRESS` is egress. -/
inductive Order
  | ingress
  | egress
deriving DecidableEq, Repr

/-- A `TAILQ` of packets, with `_queue_count` and `_queue_drops`. -/
structure Queue (α : Type) where
  packets : List α
  count : UInt64
  drops : UInt64

abbrev Queues (α : Type) := Order → Queue α

section

variable {α : Type}

def Queue.enq (q : Queue α) (packet : α) : Queue α :=
  if ringSizeMax ≤ q.count.toNat then { q with drops := q.drops + 1 }
  else { q with count := q.count + 1, packets := q.packets ++ [packet] }

def Queues.pgwEnq (node : Queues α) (order : Order) (packet : α) : Queues α × RetCd :=
  (update node order ((node order).enq packet), .ok)

/-- `TAILQ_FOREACH_SAFE` of `pgw_deq_burst`: the packets taken, then what stays. The length is
looked at behind each packet. -/
def deqLoop (length : Nat) : List α → List α → List α × List α
  | packets, [] => (packets, [])
  | packets, cur :: rest =>
    if length ≤ packets.length + 1 then (packets ++ [cur], rest)
    else deqLoop length (packets ++ [cur]) rest

def Queue.deqBurst (q : Queue α) (length : UInt32) : Queue α × List α :=
  let (packets, rest) := deqLoop length.toNat [] q.packets
  ({ q with packets := rest, count := q.count - UInt64.ofNat packets.length }, packets)

/-- `pgw_deq_burst`; the return value is the number of packets. -/
def Queues.pgwDeqBurst (node : Queues α) (order : Order) (length : UInt32) : Queues α × List α :=
  let (q, packets) := (node order).deqBurst length
  (update node order q, packets)

end

/-! ## 2. Runs -/

inductive QueueOp (α : Type)
  | enq (order : Order) (packet : α)
  | deqBurst (order : Order) (length : UInt32)

/-- The queues, and what their callers have been told and given. -/
structure QueueRun (α : Type) where
  queues : Queues α
  told : Order → List α
  delivered : Order → List α

namespace QueueRun

variable {α : Type}

def init : QueueRun α := ⟨fun _ => ⟨[], 0, 0⟩, fun _ => [], fun _ => []⟩

def step (s : QueueRun α) : QueueOp α → Option (QueueRun α)
  | .enq order packet =>
    match s.queues.pgwEnq order packet with
    | (queues, .ok) =>
      some { s with
        queues := queues
        told := update s.told order (s.told order ++ [packet]) }
    | (queues, .err) => some { s with queues := queues }
  | .deqBurst order length =>
    let (queues, packets) := s.queues.pgwDeqBurst order length
    some { s with
      queues := queues
      delivered := update s.delivered order (s.delivered order ++ packets) }

end QueueRun

/-- The count is the number of packets, the queue is bounded, and what was handed out, with what is
queued behind it, is in the order of the calls of `pgw_enq`. -/
structure Queue.Ordered {α : Type} (q : Queue α) (told delivered : List α) : Prop where
  count : q.count.toNat = q.packets.length
  bounded : q.packets.length ≤ ringSizeMax
  inOrder : (delivered ++ q.packets).Sublist told

/-- Besides, every packet accepted is queued or was handed out, once. -/
structure Queue.Delivers {α : Type} (q : Queue α) (told delivered : List α) : Prop
    extends q.Ordered told delivered where
  all : told = delivered ++ q.packets

namespace QueueRun

variable {α : Type}

def Delivers (s : QueueRun α) : Prop :=
  ∀ order, (s.queues order).Delivers (s.told order) (s.delivered order)

def HasRoom (s : QueueRun α) : QueueOp α → Prop
  | .enq order _ => (s.queues order).packets.length < ringSizeMax
  | .deqBurst _ _ => True

instance (s : QueueRun α) : ∀ op : QueueOp α, Decidable (HasRoom s op)
  | .enq _ _ => inferInstanceAs (Decidable (_ < _))
  | .deqBurst _ _ => instDecidableTrue

end QueueRun

/-! ## 3. What the queues deliver -/

section

variable {α : Type} {q : Queue α} {told delivered : List α}

theorem deqLoop_append (length : Nat) :
    ∀ (queue packets : List α),
      (deqLoop length packets queue).1 ++ (deqLoop length packets queue).2 = packets ++ queue := by
  intro queue
  induction queue with
  | nil => exact fun packets => rfl
  | cons cur rest ih =>
    intro packets
    unfold deqLoop
    split
    · exact append_assoc packets [cur] rest
    · rw [ih, append_assoc]
      rfl

theorem Queue.Ordered.enq_packets (h : q.Ordered told delivered)
    (hroom : q.packets.length < ringSizeMax) (packet : α) :
    (q.enq packet).packets = q.packets ++ [packet] := by
  unfold Queue.enq
  rw [if_neg (by rw [h.count]; exact Nat.not_le_of_lt hroom)]

theorem Queue.Ordered.enq (h : q.Ordered told delivered) (packet : α) :
    (q.enq packet).Ordered (told ++ [packet]) delivered := by
  unfold Queue.enq
  split
  · exact ⟨h.count, h.bounded, h.inOrder.trans (sublist_append_left _ _)⟩
  · rename_i hroom
    have hlt : q.packets.length < ringSizeMax := by
      rw [← h.count]
      exact Nat.lt_of_not_le hroom
    have hsmall : q.count.toNat + 1 < 2 ^ 64 := by
      rw [h.count]
      exact Nat.lt_of_le_of_lt hlt (by decide)
    refine ⟨?_, ?_, ?_⟩
    · rw [length_append, ← h.count]
      exact Nat.mod_eq_of_lt hsmall
    · rw [length_append]
      exact hlt
    · rw [← append_assoc]
      exact h.inOrder.append_right [packet]

theorem Queue.Delivers.enq_iff (h : q.Delivers told delivered) (packet : α) :
    (q.enq packet).Delivers (told ++ [packet]) delivered ↔ q.packets.length < ringSizeMax := by
  constructor
  · intro h'
    by_contra hfull
    have hdrop : (q.enq packet).packets = q.packets := by
      unfold Queue.enq
      rw [if_pos (by rw [h.count]; exact Nat.le_of_not_lt hfull)]
    have hall := congrArg List.length h'.all
    rw [hdrop, h.all] at hall
    simp at hall
  · intro hlt
    refine ⟨h.toOrdered.enq packet, ?_⟩
    rw [h.toOrdered.enq_packets hlt, ← append_assoc, ← h.all]

theorem Queue.Ordered.deqBurst (h : q.Ordered told delivered) (length : UInt32) :
    (q.deqBurst length).1.Ordered told (delivered ++ (q.deqBurst length).2) := by
  have hsplit := deqLoop_append length.toNat q.packets []
  unfold Queue.deqBurst
  generalize deqLoop length.toNat [] q.packets = r at hsplit ⊢
  obtain ⟨packets, rest⟩ := r
  have hlen : packets.length + rest.length = q.packets.length := by
    rw [← length_append]
    exact congrArg List.length hsplit
  have hbound := h.bounded
  refine ⟨?_, ?_, ?_⟩
  · have hret : (UInt64.ofNat packets.length).toNat = packets.length := by
      refine UInt64.toNat_ofNat_of_lt' (Nat.lt_of_le_of_lt ?_ (by decide : ringSizeMax < 2 ^ 64))
      exact Nat.le_trans (Nat.le_add_right _ _) (hlen ▸ hbound)
    have hle : UInt64.ofNat packets.length ≤ q.count := by
      rw [UInt64.le_iff_toNat_le, h.count]
      omega
    show (q.count - UInt64.ofNat packets.length).toNat = rest.length
    rw [UInt64.toNat_sub_of_le _ _ hle, h.count]
    omega
  · exact Nat.le_trans (Nat.le_add_left _ _) (hlen ▸ hbound)
  · rw [append_assoc]
    exact hsplit ▸ h.inOrder

theorem Queue.Delivers.deqBurst (h : q.Delivers told delivered) (length : UInt32) :
    (q.deqBurst length).1.Delivers told (delivered ++ (q.deqBurst length).2) := by
  refine ⟨h.toOrdered.deqBurst length, ?_⟩
  have hsplit := deqLoop_append length.toNat q.packets []
  rw [h.all, append_assoc]
  exact congrArg (delivered ++ ·) hsplit.symm

end

namespace QueueRun

variable {α : Type} {s s' : QueueRun α}

variable {P : Queue α → List α → List α → Prop} (order : Order)

theorem forall_update (q : Queue α)
    (told delivered : List α) (hother : ∀ o, P (s.queues o) (s.told o) (s.delivered o)) :
    (∀ o, P (update s.queues order q o) (update s.told order told o)
        (update s.delivered order delivered o)) ↔ P q told delivered := by
  constructor
  · intro h
    have horder := h order
    rw [update_self, update_self, update_self] at horder
    exact horder
  · intro h o
    by_cases ho : o = order
    · subst ho
      rw [update_self, update_self, update_self]
      exact h
    · rw [update_of_ne ho, update_of_ne ho, update_of_ne ho]
      exact hother o

variable {op : QueueOp α}

/-- What a call does: it changes its queue and the books of that. -/
theorem step_iff
    (hs : ∀ o, P (s.queues o) (s.told o) (s.delivered o)) (hstep : step s op = some s') :
    (∀ o, P (s'.queues o) (s'.told o) (s'.delivered o)) ↔
      match op with
      | .enq order packet =>
        P ((s.queues order).enq packet) (s.told order ++ [packet]) (s.delivered order)
      | .deqBurst order length =>
        P ((s.queues order).deqBurst length).1 (s.told order)
          (s.delivered order ++ ((s.queues order).deqBurst length).2) := by
  cases op with
  | enq order packet =>
    cases hstep
    have hiff := forall_update order ((s.queues order).enq packet) (s.told order ++ [packet])
      (s.delivered order) hs
    rw [update_eq_self] at hiff
    exact hiff
  | deqBurst order length =>
    cases hstep
    have hiff := forall_update order ((s.queues order).deqBurst length).1 (s.told order)
      (s.delivered order ++ ((s.queues order).deqBurst length).2) hs
    rw [update_eq_self] at hiff
    exact hiff

theorem Delivers.step_iff (hs : s.Delivers) (hstep : s.step op = some s') :
    s'.Delivers ↔ HasRoom s op := by
  refine Iff.trans (QueueRun.step_iff hs hstep) ?_
  cases op with
  | enq order packet => exact (hs order).enq_iff packet
  | deqBurst order length => exact iff_of_true ((hs order).deqBurst length) trivial

theorem init_delivers : (init : QueueRun α).Delivers :=
  fun _ => ⟨⟨rfl, Nat.zero_le _, List.Sublist.refl _⟩, rfl⟩

theorem delivers_iff_room (hs : s.Delivers) (ops : List (QueueOp α)) :
    Throughout step Delivers s ops ↔ EachStep step HasRoom s ops :=
  throughout_iff_eachStep (A := fun _ _ => True) (fun _ _ _ hs _ hstep => hs.step_iff hstep) hs
    eachStep_true

/-- **The queues deliver what they accept exactly as long as they have room**, in every
interleaving: if and only if no call of `pgw_enq` meets `RING_SIZE_MAX` packets. -/
theorem node_delivers_iff (ops : List (QueueOp α)) :
    Throughout step Delivers (init : QueueRun α) ops ↔ EachStep step HasRoom init ops :=
  delivers_iff_room init_delivers ops

theorem room_of_enqs :
    ∀ (packets : List α) (s : QueueRun α), s.Delivers →
      EachStep step HasRoom s (packets.map (.enq order)) →
      (s.queues order).packets.length + packets.length ≤ ringSizeMax := by
  intro packets
  induction packets with
  | nil => exact fun s hs _ => (hs order).bounded
  | cons packet packets ih =>
    intro s hs hroom
    obtain ⟨hhead, htail⟩ := hroom _ rfl
    have hstep : s.step (.enq order packet) = some _ := rfl
    have hnext := ih _ ((hs.step_iff hstep).mpr hhead) htail
    dsimp only [Queues.pgwEnq] at hnext
    rw [update_self, (hs order).enq_packets hhead, length_append, length_singleton] at hnext
    rw [length_cons]
    omega

theorem enqs_lost {packets : List α} (hmany : ringSizeMax < packets.length) :
    ¬Throughout step Delivers (init : QueueRun α) (packets.map (.enq order)) := by
  intro h
  have hroom := room_of_enqs order packets init init_delivers
    ((delivers_iff_room init_delivers _).mp h)
  exact Nat.not_lt_of_le (Nat.le_trans (Nat.le_add_left _ _) hroom) hmany

theorem accepted_and_lost :
    ¬Throughout step Delivers (init : QueueRun Nat)
      ((List.range (ringSizeMax + 1)).map (.enq .ingress)) :=
  enqs_lost .ingress (by rw [length_range]; exact Nat.lt_succ_self _)

end QueueRun

/-! ## 4. What they have lost -/

/-- What was accepted is queued or handed out, in order, or has been counted as a drop. -/
structure Queue.Accounts {α : Type} (q : Queue α) (told delivered : List α) : Prop
    extends q.Ordered told delivered where
  drops : UInt64.ofNat told.length = UInt64.ofNat (delivered ++ q.packets).length + q.drops

section

variable {α : Type} {q : Queue α} {told delivered : List α}

theorem Queue.Accounts.enq (h : q.Accounts told delivered) (packet : α) :
    (q.enq packet).Accounts (told ++ [packet]) delivered := by
  refine ⟨h.toOrdered.enq packet, ?_⟩
  have hdrops := h.drops
  rw [length_append, UInt64.ofNat_add, hdrops]
  unfold Queue.enq
  split
  · exact UInt64.add_assoc _ _ _
  · have hlen : (delivered ++ (q.packets ++ [packet])).length =
        (delivered ++ q.packets).length + [packet].length := by
      rw [← append_assoc, length_append]
    rw [hlen, UInt64.ofNat_add]
    exact add_right_comm _ _ _

theorem Queue.Accounts.deqBurst (h : q.Accounts told delivered) (length : UInt32) :
    (q.deqBurst length).1.Accounts told (delivered ++ (q.deqBurst length).2) := by
  refine ⟨h.toOrdered.deqBurst length, ?_⟩
  have hsplit : (q.deqBurst length).2 ++ (q.deqBurst length).1.packets = q.packets :=
    deqLoop_append length.toNat q.packets []
  rw [append_assoc, hsplit]
  exact h.drops

/-- **Every packet is accounted for**, in every interleaving: it is queued or was handed out, in the
order of the calls, or it has been counted as a drop, modulo 2^64. -/
theorem node_accounts (ops : List (QueueOp α)) :
    Throughout QueueRun.step
      (fun s => ∀ order, (s.queues order).Accounts (s.told order) (s.delivered order))
      (QueueRun.init : QueueRun α) ops := by
  refine throughout_of_eachStep (C := fun _ _ => True) (fun s op s' hs _ hstep => ?_)
    (fun order => ⟨(QueueRun.init_delivers order).toOrdered, rfl⟩) eachStep_true
  refine (QueueRun.step_iff hs hstep).mpr ?_
  cases op with
  | enq order packet => exact (hs order).enq packet
  | deqBurst order length => exact (hs order).deqBurst length

end

/-! ## 5. Event handlers -/

section

variable {υ σ α : Type}

def Queue.of (packets : List α) : Queue α := ⟨packets, UInt64.ofNat packets.length, 0⟩

/-- An event handler: `pgw_deq_burst` of at most 32 packets, and the loop over them. -/
def eventBurst (turn : Turn υ σ α) (start : υ) (q : Queue α) (s : σ) : Queue α × σ × RetCd :=
  let (q', packets) := q.deqBurst 32
  if 0 < packets.length then (q', burst turn start s packets, .ok) else (q', s, .err)

theorem deqLoop_all (length : Nat) :
    ∀ (queue packets : List α), packets.length + queue.length ≤ length →
      deqLoop length packets queue = (packets ++ queue, []) := by
  intro queue
  induction queue with
  | nil => exact fun packets _ => by rw [append_nil]; rfl
  | cons cur rest ih =>
    intro packets hlen
    rw [length_cons] at hlen
    unfold deqLoop
    split
    · obtain rfl : rest = [] := length_eq_zero_iff.mp (by omega)
      rfl
    · rw [ih (packets ++ [cur]) (by rw [length_append, length_singleton]; omega), append_assoc]
      rfl

variable {packets : List α}

theorem eventBurst_of (turn : Turn υ σ α) (start : υ) (hlen : packets.length ≤ 32) (s : σ) :
    (eventBurst turn start (.of packets) s).2.1 = burst turn start s packets := by
  have hall : ((Queue.of packets).deqBurst 32).2 = packets :=
    congrArg Prod.fst (deqLoop_all 32 packets [] (by simpa using hlen))
  unfold eventBurst
  dsimp only
  rw [hall]
  split
  · rfl
  · obtain rfl : packets = [] := length_eq_zero_iff.mp (by omega)
    rfl

theorem eventBurst_eq_iff {turn : Turn υ σ α} {start : υ} {s : σ} (hlen : packets.length ≤ 32) :
    (∀ pre, pre <+: packets → (eventBurst turn start (.of pre) s).2.1 =
      pre.foldl (fun s x => (eventBurst turn start (.of [x]) s).2.1) s) ↔
      EachTurn turn (AsAlone turn start) start s packets := by
  rw [← burst_eq_oneByOne_iff]
  refine forall₂_congr fun pre hpre => ?_
  rw [eventBurst_of turn start (hpre.length_le.trans hlen)]
  rfl

end

end MixiPgw.Ctrl
