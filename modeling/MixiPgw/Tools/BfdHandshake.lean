/-
# Two BFD endpoints

Two managers send each other the control packets of one session, over channels that lose nothing and
keep the order. A session comes up by DOWN, INIT, UP, and each packet carries the state its sender
was in when it was sent.

WHAT BREAKS IT. A session in INIT or UP that takes in a DOWN packet goes back to DOWN, and a peer
that sends two of them before it has heard anything takes the session up with the first one and down
again with the second one. No session ever goes back to DOWN if and ONLY if neither end takes in a
second DOWN packet (`comes_up_monotonically_iff`).
-/
import MixiPgw.Tools.Bfd

namespace MixiPgw.Tools.Bfd

open Lib List Function Option BfdSessionManager

/-! ## 1. The handshake -/

inductive End
  | a
  | b
deriving DecidableEq, Repr

def End.peer : End → End
  | .a => .b
  | .b => .a

@[simp] theorem End.peer_peer (i : End) : i.peer.peer = i := by
  cases i <;> rfl

theorem End.peer_ne (i : End) : i.peer ≠ i := by
  cases i <;> decide

theorem End.eq_peer {i j : End} (h : j ≠ i) : j = i.peer := by
  cases i <;> cases j <;> first | rfl | exact absurd rfl h

/-- The states of the ends and of the packets under way to each, and the DOWN packets each has taken
in. -/
structure Handshake where
  state : End → BfdState
  queue : End → List BfdState
  downs : End → Nat

namespace Handshake

def send (h : Handshake) (i : End) (n : Nat) : Handshake :=
  { h with
    queue := update h.queue i.peer (h.queue i.peer ++ replicate n (h.state i)) }

theorem queue_send (h : Handshake) (i : End) (n : Nat) :
    (h.send i n).queue = update h.queue i.peer
      (h.queue i.peer ++ replicate n (h.state i)) := rfl

def take (h : Handshake) (i : End) (r : BfdState) (rest : List BfdState) : Handshake where
  state := update h.state i (nextState (h.state i) r)
  queue := update h.queue i rest
  downs := update h.downs i (h.downs i + if r = .down then 1 else 0)

inductive Step : Handshake → Handshake → Prop
  | send (h : Handshake) (i : End) (n : Nat) : Step h (h.send i n)
  | take (h : Handshake) (i : End) (r : BfdState) (rest : List BfdState) (n : Nat)
      (hqueue : h.queue i = r :: rest) : Step h ((h.take i r rest).send i n)

/-- **The invariant of a handshake in which no end has gone back.** -/
structure Calm (h : Handshake) : Prop where
  state_ne : ∀ i, h.state i ≠ .adminDown
  queue_ne : ∀ i, ∀ r ∈ h.queue i, r ≠ .adminDown
  /-- no DOWN packet behind another one -/
  ordered : ∀ i, (h.queue i).Pairwise fun r r' => r' = .down → r = .down
  /-- an end that is DOWN has sent nothing else -/
  sent : ∀ i, h.state i = .down → ∀ r ∈ h.queue i.peer, r = .down
  /-- an end that has left DOWN has done so by a DOWN packet, or no such packet will come -/
  left : ∀ i, h.state i ≠ .down →
    h.downs i ≠ 0 ∨ h.state i.peer ≠ .down ∧ ∀ r ∈ h.queue i, r ≠ .down
  counted : ∀ i, h.downs i ≠ 0 → h.state i ≠ .down
  once : ∀ i, h.downs i ≤ 1

variable {h : Handshake}

theorem Calm.send (hcalm : h.Calm) (i : End) (n : Nat) : (h.send i n).Calm := by
  have hmem : ∀ j, ∀ r ∈ (h.send i n).queue j, r ∈ h.queue j ∨ j = i.peer ∧ r = h.state i := by
    intro j r hr
    rw [queue_send] at hr
    by_cases hj : j = i.peer
    · subst hj
      rw [update_self] at hr
      rcases mem_append.mp hr with hold | hnew
      · exact .inl hold
      · exact .inr ⟨rfl, eq_of_mem_replicate hnew⟩
    · rw [update_of_ne hj] at hr
      exact .inl hr
  refine ⟨hcalm.state_ne, ?_, ?_, ?_, ?_, hcalm.counted, hcalm.once⟩
  · intro j r hr
    rcases hmem j r hr with hold | ⟨-, rfl⟩
    · exact hcalm.queue_ne j r hold
    · exact hcalm.state_ne i
  · intro j
    rw [queue_send]
    by_cases hj : j = i.peer
    · subst hj
      rw [update_self, pairwise_append]
      refine ⟨hcalm.ordered _, pairwise_replicate.mpr (.inr id), ?_⟩
      intro r hr r' hr' hdown
      rw [eq_of_mem_replicate hr'] at hdown
      exact hcalm.sent i hdown r hr
    · rw [update_of_ne hj]
      exact hcalm.ordered j
  · intro j hdown r hr
    rcases hmem j.peer r hr with hold | ⟨hpeer, rfl⟩
    · exact hcalm.sent j hdown r hold
    · have hji : j = i := by rw [← j.peer_peer, hpeer, i.peer_peer]
      exact hji ▸ hdown
  · intro j hleft
    rcases hcalm.left j hleft with hcount | ⟨hpeer, hqueue⟩
    · exact .inl hcount
    · refine .inr ⟨hpeer, fun r hr => ?_⟩
      rcases hmem j r hr with hold | ⟨hj, rfl⟩
      · exact hqueue r hold
      · subst hj
        rw [i.peer_peer] at hpeer
        exact hpeer

variable {i : End} {rest : List BfdState}

theorem Calm.state_down_iff (hcalm : h.Calm)
    (hqueue : h.queue i = .down :: rest) : h.state i = .down ↔ h.downs i = 0 := by
  constructor
  · intro hdown
    by_contra hcount
    exact hcalm.counted i hcount hdown
  · intro hzero
    by_contra hleft
    rcases hcalm.left i hleft with hcount | ⟨-, hnone⟩
    · exact hcount hzero
    · exact hnone .down (hqueue ▸ mem_cons_self) rfl

variable {r : BfdState}

theorem Calm.of_other (hcalm : h.Calm) (hqueue : h.queue i = r :: rest) (hr : r ≠ .down) :
    h.state i.peer ≠ .down ∧ ∀ r' ∈ rest, r' ≠ .down := by
  constructor
  · intro hdown
    refine hr (hcalm.sent i.peer hdown r ?_)
    rw [i.peer_peer, hqueue]
    exact mem_cons_self
  · intro r' hr' hdown
    have hordered := hcalm.ordered i
    rw [hqueue, pairwise_cons] at hordered
    exact hr (hordered.1 r' hr' hdown)

theorem nextState_ne_down {s r : BfdState} (hs : s ≠ .down) (hs' : s ≠ .adminDown)
    (hr : r ≠ .down) (hr' : r ≠ .adminDown) : nextState s r ≠ .down := by
  cases s <;> cases r <;> first | contradiction | exact BfdState.noConfusion

theorem nextState_ne_adminDown {s : BfdState} (hs : s ≠ .adminDown) (r : BfdState) :
    nextState s r ≠ .adminDown := by
  cases s <;> cases r <;> first | contradiction | exact BfdState.noConfusion

theorem Calm.downs_take_iff (hcalm : h.Calm) (i : End) (r : BfdState) (rest : List BfdState) :
    (∀ j, (h.take i r rest).downs j ≤ 1) ↔ (r = .down → h.downs i = 0) := by
  unfold Handshake.take
  dsimp only
  constructor
  · intro hall hr
    have := hall i
    rw [update_self, if_pos hr] at this
    omega
  · intro hfirst j
    by_cases hj : j = i
    · subst hj
      rw [update_self]
      by_cases hr : r = .down
      · rw [if_pos hr, hfirst hr]
      · rw [if_neg hr]
        exact hcalm.once j
    · rw [update_of_ne hj]
      exact hcalm.once j

theorem Calm.of_nextState_down (hcalm : h.Calm)
    (hqueue : h.queue i = r :: rest) (hfirst : r = .down → h.downs i = 0)
    (hnext : nextState (h.state i) r = .down) : h.state i = .down ∧ r ≠ .down := by
  have hadmin : r ≠ .adminDown := hcalm.queue_ne i r (hqueue ▸ mem_cons_self)
  have hr : r ≠ .down := by
    rintro rfl
    rw [(hcalm.state_down_iff hqueue).mpr (hfirst rfl)] at hnext
    exact absurd hnext (by decide)
  refine ⟨?_, hr⟩
  by_contra hleft
  exact nextState_ne_down hleft (hcalm.state_ne i) hr hadmin hnext

theorem Calm.take (hcalm : h.Calm)
    (hqueue : h.queue i = r :: rest) (hfirst : r = .down → h.downs i = 0) :
    (h.take i r rest).Calm := by
  have hne := i.peer_ne
  have hrest : ∀ r' ∈ rest, r' ∈ h.queue i := fun r' hr' => hqueue ▸ mem_cons_of_mem _ hr'
  have hdown := fun hnext => hcalm.of_nextState_down hqueue hfirst hnext
  refine ⟨?_, ?_, ?_, ?_, ?_, ?_, (hcalm.downs_take_iff i r rest).mpr hfirst⟩ <;> intro j <;>
    unfold Handshake.take <;> dsimp only <;> by_cases hj : j = i
  · subst hj
    rw [update_self]
    exact nextState_ne_adminDown (hcalm.state_ne j) r
  · rw [update_of_ne hj]
    exact hcalm.state_ne j
  · subst hj
    rw [update_self]
    exact fun r' hr' => hcalm.queue_ne j r' (hrest r' hr')
  · rw [update_of_ne hj]
    exact hcalm.queue_ne j
  · subst hj
    have hordered := hcalm.ordered j
    rw [hqueue, pairwise_cons] at hordered
    rw [update_self]
    exact hordered.2
  · rw [update_of_ne hj]
    exact hcalm.ordered j
  · -- `sent`, of the end that has taken the packet in
    subst hj
    rw [update_self, update_of_ne hne]
    exact fun hnext => hcalm.sent j (hdown hnext).1
  · obtain rfl := End.eq_peer hj
    rw [update_of_ne hne, i.peer_peer, update_self]
    intro hpeer r' hr'
    exact hcalm.sent i.peer hpeer r' (by rw [i.peer_peer]; exact hrest r' hr')
  · -- `left`, of the end that has taken the packet in
    subst hj
    rw [update_self, update_self, update_of_ne hne, update_self]
    intro _
    by_cases hr : r = .down
    · exact .inl (by simp [hr])
    · exact .inr (hcalm.of_other hqueue hr)
  · obtain rfl := End.eq_peer hj
    rw [update_of_ne hne, update_of_ne hne, update_of_ne hne, i.peer_peer, update_self]
    intro hleft
    rcases hcalm.left i.peer hleft with hcount | ⟨hstate, hnone⟩
    · exact .inl hcount
    · rw [i.peer_peer] at hstate
      exact .inr ⟨fun hnext => hstate (hdown hnext).1, hnone⟩
  · subst hj
    rw [update_self, update_self]
    intro hcount hnext
    obtain ⟨hstate, hr⟩ := hdown hnext
    rw [if_neg hr] at hcount
    exact hcalm.counted j hcount hstate
  · rw [update_of_ne hj, update_of_ne hj]
    exact hcalm.counted j

/-- One step of a calm handshake: no end goes back exactly if none has taken in more than one
DOWN packet. -/
theorem Calm.step {h h' : Handshake} (hcalm : h.Calm) (hstep : Step h h') :
    ((∀ i, h.state i ≠ .down → h'.state i ≠ .down) ↔ ∀ i, h'.downs i ≤ 1) ∧
      ((∀ i, h'.downs i ≤ 1) → h'.Calm) := by
  cases hstep with
  | send i n => exact ⟨iff_of_true (fun _ => id) hcalm.once, fun _ => hcalm.send i n⟩
  | take i r rest n hqueue =>
    have hadmin : r ≠ .adminDown := hcalm.queue_ne i r (hqueue ▸ mem_cons_self)
    have hcount : (∀ j, ((h.take i r rest).send i n).downs j ≤ 1) ↔ (r = .down → h.downs i = 0) :=
      hcalm.downs_take_iff i r rest
    rw [hcount]
    refine ⟨?_, fun hfirst => (hcalm.take hqueue hfirst).send i n⟩
    unfold Handshake.send Handshake.take
    dsimp only
    constructor
    · rintro hback rfl
      rw [← hcalm.state_down_iff hqueue]
      by_contra hleft
      have hnext := hback i hleft
      rw [update_self] at hnext
      -- INIT and UP both go back with a DOWN packet
      revert hnext hleft
      have := hcalm.state_ne i
      cases hs : h.state i <;> simp_all [nextState]
    · intro hfirst j hleft
      by_cases hj : j = i
      · subst hj
        rw [update_self]
        have hr : r ≠ .down := by
          rintro rfl
          exact hleft ((hcalm.state_down_iff hqueue).mpr (hfirst rfl))
        exact nextState_ne_down hleft (hcalm.state_ne j) hr hadmin
      · rw [update_of_ne hj]
        exact hleft

end Handshake

/-! ## 2. Two managers -/

/-- Both ends, the packets under way to each of them, and the DOWN packets each has taken in. -/
structure Net where
  manager : End → BfdSessionManager
  queue : End → List Packet
  downs : End → Nat

inductive NetEvent
  | tick (i : End) (curms : UInt64)
  | receive (i : End) (curms : UInt64)
deriving Repr

section

-- the address and port under which each end knows the other one
variable (key : End → UInt64)

def Net.receive (s : Net) (i : End) (curms : UInt64) (bfd : Packet) (rest : List Packet) : Net :=
  let received := onBfdRecieve (s.manager i) (key i) bfd bfdMinpktlen curms
  let queue := update s.queue i rest
  { manager := update s.manager i received.1
    queue := update queue i.peer (queue i.peer ++ received.2.toList)
    downs := update s.downs i
      (s.downs i + if takenIn (s.manager i) (key i) bfd bfdMinpktlen ∧ bfd.state = .down then 1
        else 0) }

def Net.step (s : Net) : NetEvent → Option Net
  | .tick i curms =>
    some
      { s with
        queue := update s.queue i.peer
          (s.queue i.peer ++ (onBfdThread (s.manager i) curms (key i)).toList) }
  | .receive i curms =>
    match s.queue i with
    | [] => some s
    | bfd :: rest => some (s.receive key i curms bfd rest)

def Net.state (s : Net) (i : End) : BfdState := (s.manager i).stateOf (key i)

/-- **No end moves back to DOWN** from INIT or UP. -/
def NeverBack (s : Net) (e : NetEvent) : Prop :=
  ∀ s', s.step key e = some s' → ∀ i, s.state key i = .init ∨ s.state key i = .up →
    s'.state key i ≠ .down

/-- No end has taken in a second DOWN packet. -/
def Net.OneDown (s : Net) : Prop := s.downs .a ≤ 1 ∧ s.downs .b ≤ 1

instance (s : Net) : Decidable s.OneDown := inferInstanceAs (Decidable (_ ∧ _))

/-! ## 3. The managers are a handshake -/

/-- The state a packet under way will be taken in with, if the checks let it in. -/
def carried (bfd : Packet) : Option BfdState :=
  if admitted bfd bfdMinpktlen then some bfd.state else none

def Net.handshake (s : Net) : Handshake where
  state := s.state key
  queue := fun i => (s.queue i).filterMap carried
  downs := s.downs

/-- Both ends have a session with each other. -/
def Net.Connected (s : Net) : Prop := ∀ i, ((s.manager i).bfdSessions (key i)).isSome

variable {key}

theorem carried_transmitUnsafe (psess : BfdSession) :
    ∃ n, (transmitUnsafe psess).toList.filterMap carried =
      replicate n psess.sessionState := by
  cases h : transmitUnsafe psess with
  | none => exact ⟨0, rfl⟩
  | some bfd =>
    cases hadm : admitted bfd bfdMinpktlen with
    | false => exact ⟨0, by simp [carried, hadm]⟩
    | true =>
      refine ⟨1, ?_⟩
      have hdiscr : psess.localDiscr ≠ 0 ∧ bfd.state = psess.sessionState := by
        unfold transmitUnsafe at h
        dsimp only at h
        split at h
        · cases h
        split at h
        · obtain rfl := some.inj h
          have hmy : psess.localDiscr ≠ 0 := by
            intro hzero
            simp [admitted, packetOf, hzero] at hadm
          exact ⟨hmy, if_pos hmy⟩
        · cases h
      simp [carried, hadm, hdiscr.2]

theorem takenIn_of_connected {m : BfdSessionManager} {k : UInt64} (h : (m.bfdSessions k).isSome)
    (bfd : Packet) (len : Nat) : takenIn m k bfd len = admitted bfd len := by
  obtain ⟨psess, hpsess⟩ := isSome_iff_exists.mp h
  simp [takenIn, sessionFor, hpsess]

theorem carried_onBfdThread (m : BfdSessionManager) (curms k : UInt64) :
    ∃ n, (onBfdThread m curms k).toList.filterMap carried = replicate n (m.stateOf k) := by
  unfold onBfdThread stateOf
  cases hsess : m.bfdSessions k with
  | none => exact ⟨0, rfl⟩
  | some psess =>
    dsimp only
    split
    · exact carried_transmitUnsafe psess
    · exact ⟨0, rfl⟩

theorem filterMap_update (queue : End → List Packet) (i : End) (l : List Packet) :
    (fun j => (update queue i l j).filterMap carried) =
      update (fun j => (queue j).filterMap carried) i (l.filterMap carried) := by
  funext j
  by_cases hj : j = i
  · subst hj
    simp
  · simp [hj]

variable {s : Net} {i : End} {bfd : Packet} {rest : List Packet}

theorem handshake_receive (hconn : s.Connected key)
    (curms : UInt64) (hqueue : s.queue i = bfd :: rest) (hadm : admitted bfd bfdMinpktlen = true) :
    ∃ n, (s.receive key i curms bfd rest).handshake key =
        ((s.handshake key).take i bfd.state (rest.filterMap carried)).send i n ∧
      (s.receive key i curms bfd rest).Connected key := by
  have htaken : takenIn (s.manager i) (key i) bfd bfdMinpktlen = true :=
    (takenIn_of_connected (hconn i) bfd bfdMinpktlen).trans hadm
  obtain ⟨psess, hsess, hnext, hback⟩ := onBfdRecieve_takenIn curms htaken
  have hstate : psess.sessionState = nextState (s.state key i) bfd.state := hnext
  obtain ⟨n, hn⟩ : ∃ n, ((onBfdRecieve (s.manager i) (key i) bfd bfdMinpktlen curms).2.toList.filterMap
      carried) = replicate n psess.sessionState := by
    rcases hback with hnone | hsent
    · exact ⟨0, by rw [hnone]; rfl⟩
    · rw [hsent]
      exact carried_transmitUnsafe psess
  have hmoved : (s.receive key i curms bfd rest).state key =
      update (s.state key) i psess.sessionState := by
    funext j
    unfold Net.state Net.receive
    by_cases hj : j = i
    · subst hj
      simp only [update_self, stateOf, hsess]
    · simp only [update_of_ne hj]
  refine ⟨n, ?_, ?_⟩
  · unfold Net.handshake
    rw [hmoved, hstate]
    unfold Net.receive Handshake.take Handshake.send
    dsimp only
    rw [filterMap_update, filterMap_update, filterMap_append, hn, hstate, update_self, htaken]
    simp [update_of_ne i.peer_ne]
  · intro j
    unfold Net.receive
    by_cases hj : j = i
    · subst hj
      simp only [update_self, hsess, isSome_some]
    · simp only [update_of_ne hj]
      exact hconn j

theorem handshake_receive_of_not_admitted (hconn : s.Connected key)
    (curms : UInt64) (hqueue : s.queue i = bfd :: rest) (hadm : admitted bfd bfdMinpktlen = false) :
    (s.receive key i curms bfd rest).handshake key = s.handshake key ∧
      (s.receive key i curms bfd rest).Connected key := by
  have htaken : takenIn (s.manager i) (key i) bfd bfdMinpktlen = false :=
    (takenIn_of_connected (hconn i) bfd bfdMinpktlen).trans hadm
  have hsame := (onBfdRecieve_not_takenIn curms htaken).2 (hconn i)
  have hrecv : s.receive key i curms bfd rest = { s with queue := update s.queue i rest } := by
    unfold Net.receive
    rw [hsame, htaken]
    simp
  rw [hrecv]
  refine ⟨?_, hconn⟩
  unfold Net.handshake
  rw [filterMap_update]
  have hcarried : (s.queue i).filterMap carried = rest.filterMap carried := by
    rw [hqueue]
    simp [carried, hadm]
  rw [← hcarried, update_eq_self]
  rfl

theorem handshake_step {s s' : Net} {e : NetEvent} (hconn : s.Connected key)
    (hstep : s.step key e = some s') :
    (s.handshake key).Step (s'.handshake key) ∧ s'.Connected key := by
  have hidle : (s.handshake key).Step (s.handshake key) := by
    have hsend : (s.handshake key).send .a 0 = s.handshake key := by
      simp [Handshake.send]
    have hstep := Handshake.Step.send (s.handshake key) .a 0
    rwa [hsend] at hstep
  cases e with
  | tick i curms =>
    obtain rfl := some.inj hstep
    obtain ⟨n, hn⟩ := carried_onBfdThread (s.manager i) curms (key i)
    refine ⟨?_, hconn⟩
    have hview : Net.handshake key
        { s with
          queue := update s.queue i.peer
            (s.queue i.peer ++ (onBfdThread (s.manager i) curms (key i)).toList) } =
        (s.handshake key).send i n := by
      unfold Net.handshake Handshake.send
      rw [filterMap_update, filterMap_append, hn]
      rfl
    rw [hview]
    exact .send _ i n
  | receive i curms =>
    simp only [Net.step] at hstep
    cases hqueue : s.queue i with
    | nil =>
      rw [hqueue] at hstep
      obtain rfl := some.inj hstep
      exact ⟨hidle, hconn⟩
    | cons bfd rest =>
      rw [hqueue] at hstep
      obtain rfl := some.inj hstep
      cases hadm : admitted bfd bfdMinpktlen with
      | false =>
        obtain ⟨hview, hconn'⟩ := handshake_receive_of_not_admitted hconn curms hqueue hadm
        exact ⟨hview ▸ hidle, hconn'⟩
      | true =>
        obtain ⟨n, hview, hconn'⟩ := handshake_receive hconn curms hqueue hadm
        refine ⟨?_, hconn'⟩
        rw [hview]
        refine .take _ i _ _ n ?_
        show (s.queue i).filterMap carried = _
        rw [hqueue]
        simp [carried, hadm]

/-! ## 4. Never back -/

theorem oneDown_iff (s : Net) : s.OneDown ↔ ∀ i, s.downs i ≤ 1 := by
  constructor
  · rintro ⟨ha, hb⟩ i
    cases i
    · exact ha
    · exact hb
  · exact fun h => ⟨h .a, h .b⟩

/-- **Two sessions that start in DOWN never go back to it if and only if neither end takes in a
second DOWN packet**, in every interleaving of rounds and receptions. -/
theorem comes_up_monotonically_iff (manager : End → BfdSessionManager)
    (hstart : ∀ i, ∃ psess, (manager i).bfdSessions (key i) = some psess ∧
      psess.sessionState = .down) (events : List NetEvent) :
    EachStep (Net.step key) (NeverBack key) ⟨manager, fun _ => [], fun _ => 0⟩ events ↔
      Throughout (Net.step key) Net.OneDown ⟨manager, fun _ => [], fun _ => 0⟩ events := by
  have hdown : ∀ i, (manager i).stateOf (key i) = .down := by
    intro i
    obtain ⟨psess, hsess, hstate⟩ := hstart i
    rw [stateOf, hsess]
    exact hstate
  have hconn : Net.Connected key ⟨manager, fun _ => [], fun _ => 0⟩ := by
    intro i
    obtain ⟨psess, hsess, -⟩ := hstart i
    exact hsess ▸ rfl
  have hcalm : (Net.handshake key ⟨manager, fun _ => [], fun _ => 0⟩).Calm := by
    refine ⟨?_, by simp [Net.handshake], by simp [Net.handshake], by simp [Net.handshake], ?_,
      by simp [Net.handshake], by simp [Net.handshake]⟩
    · intro i
      show (manager i).stateOf (key i) ≠ .adminDown
      rw [hdown i]
      decide
    · intro i hleft
      exact absurd (hdown i) hleft
  have hthrough : Throughout (Net.step key) Net.OneDown ⟨manager, fun _ => [], fun _ => 0⟩ events ↔
      EachStep (Net.step key) (fun s e => ∀ s', s.step key e = some s' → s'.OneDown)
        ⟨manager, fun _ => [], fun _ => 0⟩ events := by
    refine throughout_iff_eachStep ?_ ⟨Nat.zero_le 1, Nat.zero_le 1⟩ eachStep_true
    intro s e s' _ _ hstep
    constructor
    · intro hone s'' hstep''
      exact some.inj (hstep.symm.trans hstep'') ▸ hone
    · exact fun hall => hall s' hstep
  rw [hthrough]
  -- both conditions speak of one step of a calm handshake
  refine eachStep_congr (I := fun s => s.Connected key ∧ (s.handshake key).Calm) ?_ ?_ ⟨hconn, hcalm⟩
  · rintro s e ⟨hconn, hcalm⟩
    refine forall_congr' fun s' => forall_congr' fun hstep => ?_
    rw [oneDown_iff]
    refine Iff.trans ?_ (hcalm.step (handshake_step hconn hstep).1).1
    refine forall_congr' fun i => imp_congr_left ?_
    have hadmin := hcalm.state_ne i
    change s.state key i ≠ .adminDown at hadmin
    change s.state key i = .init ∨ s.state key i = .up ↔ s.state key i ≠ .down
    cases hstate : s.state key i <;> simp_all
  · rintro s e s' ⟨hconn, hcalm⟩ hone hstep
    obtain ⟨hshake, hconn'⟩ := handshake_step hconn hstep
    exact ⟨hconn', (hcalm.step hshake).2 ((oneDown_iff s').mp (hone s' hstep))⟩

/-! A session that was UP and has been told DOWN goes on sending; its peer has just subscribed. -/

def peerKey : End → UInt64
  | .a => 7
  | .b => 8

def restarted : End → BfdSessionManager
  | .a =>
    [controlPacket .down 9 0, controlPacket .init 9 16777216, controlPacket .down 9 0].foldl
      (fun m bfd => (onBfdRecieve m 7 bfd bfdMinpktlen 0).1) (BfdSessionManager.new.subscribe 7)
  | .b => BfdSessionManager.new.subscribe 8

/-- One packet in each direction and one more bring both sessions up. -/
theorem comes_up_one_by_one :
    EachStep (Net.step peerKey) (NeverBack peerKey) ⟨restarted, fun _ => [], fun _ => 0⟩
      [.tick .a 0, .receive .b 0, .tick .b 0, .receive .a 0, .tick .a 0, .receive .b 0] ∧
    ([.tick .a 0, .receive .b 0, .tick .b 0, .receive .a 0, .tick .a 0, .receive .b 0].foldlM
      (Net.step peerKey) ⟨restarted, fun _ => [], fun _ => 0⟩).map
        (fun s => (s.state peerKey .a, s.state peerKey .b)) = some (.up, .up) := by
  refine ⟨(comes_up_monotonically_iff restarted ?_ _).mpr (by decide +kernel), by decide +kernel⟩
  intro i
  cases i <;> exact ⟨_, rfl, by decide +kernel⟩

/-- **Two DOWN packets on the way** take the receiver to INIT and back to DOWN. -/
theorem two_downs_take_back :
    (restarted .a).stateOf 7 = .down ∧ (restarted .b).stateOf 8 = .down ∧
    ¬EachStep (Net.step peerKey) (NeverBack peerKey) ⟨restarted, fun _ => [], fun _ => 0⟩
      [.tick .a 0, .tick .a 0, .receive .b 0, .receive .b 0] := by
  refine ⟨by decide +kernel, by decide +kernel, ?_⟩
  intro h
  obtain ⟨-, h⟩ := h _ rfl
  obtain ⟨-, h⟩ := h _ rfl
  obtain ⟨-, h⟩ := h _ rfl
  obtain ⟨h, -⟩ := h _ rfl
  exact h _ rfl .b (by decide +kernel) (by decide +kernel)

end

end MixiPgw.Tools.Bfd
