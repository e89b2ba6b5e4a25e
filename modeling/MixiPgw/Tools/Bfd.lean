/-
# BFD sessions

`BfdSessionManager` of the tools: a map of sessions with other hosts, a thread that sends a control
packet for every session once in a while, and the function that takes in a control packet. A packet
that is let in moves a session by the automaton of the protocol (`stateOf_onBfdRecieve`), and
nothing else moves a session: the thread NEVER does. A session is to be taken down when its peer
has been silent for the detection time. Nobody does that (`failure_detected_iff`).
-/
import MixiPgw.Lib.Bytes
import MixiPgw.Lib.Run
import Mathlib.Logic.Function.Basic

namespace MixiPgw.Tools.Bfd

open Bytes Lib Option Function

/-! ## 1. Packets and sessions -/

inductive BfdState
  | adminDown
  | down
  | init
  | up
deriving DecidableEq, Repr

/-- `bfd_t`. The words are as the host loads them. -/
structure Packet where
  vers : UInt8
  diag : UInt8
  state : BfdState
  poll : Bool
  final : Bool
  auth : Bool
  demand : Bool
  multipoint : Bool
  detectMult : UInt8
  myDiscr : UInt32
  yourDiscr : UInt32
  minTxInt : UInt32
  minRxInt : UInt32
  minEchoRxInt : UInt32
deriving DecidableEq, Repr

/-- `BfdSession`. `conn` says whether `conn_` is there. -/
structure BfdSession where
  sessionState : BfdState
  remoteSessionState : BfdState
  localDiscr : UInt32
  remoteDiscr : UInt32
  localDiag : UInt32
  desiredMinTxInterval : UInt32
  requiredMinRxInterval : UInt32
  remoteMinRxInterval : UInt32
  remoteDemandMode : Bool
  detectMult : UInt32
  mustCeaseTxEcho : Bool
  mustTerminate : Bool
  detectTime : UInt64
  pollbitOn : Bool
  receivedMinRxInterval : UInt32
  conn : Bool
deriving DecidableEq, Repr

def bfddfltDetectmult : UInt32 := 3

def bfddfltDesiredmintx : UInt32 := 1000000

def bfddfltRequiredminrx : UInt32 := 1000000

def BfdSession.new : BfdSession where
  sessionState := .down
  remoteSessionState := .down
  localDiscr := 0
  remoteDiscr := 0
  localDiag := 0
  desiredMinTxInterval := bfddfltDesiredmintx
  requiredMinRxInterval := bfddfltRequiredminrx
  remoteMinRxInterval := 0
  remoteDemandMode := false
  detectMult := bfddfltDetectmult
  mustCeaseTxEcho := false
  mustTerminate := false
  detectTime := 0
  pollbitOn := false
  receivedMinRxInterval := 0
  conn := false

/-- `bfd_sessions_`, by address and port of the peer, and the counter of the discriminators. -/
structure BfdSessionManager where
  bfdSessions : UInt64 → Option BfdSession
  localDiscriminatorIncr : UInt32

namespace BfdSessionManager

def new : BfdSessionManager := ⟨fun _ => none, 0⟩

def set (m : BfdSessionManager) (key : UInt64) (psess : BfdSession) : BfdSessionManager :=
  { m with bfdSessions := update m.bfdSessions key (some psess) }

def subscribe (m : BfdSessionManager) (key : UInt64) : BfdSessionManager := m.set key .new

def stateOf (m : BfdSessionManager) (key : UInt64) : BfdState :=
  match m.bfdSessions key with
  | none => .down
  | some psess => psess.sessionState

variable (m : BfdSessionManager)

@[simp] theorem bfdSessions_set (key : UInt64) (psess : BfdSession) :
    (m.set key psess).bfdSessions key = some psess :=
  update_self ..

@[simp] theorem stateOf_set (key : UInt64) (psess : BfdSession) :
    (m.set key psess).stateOf key = psess.sessionState := by
  rw [stateOf, bfdSessions_set]

theorem stateOf_set_of_ne {key key' : UInt64} (h : key' ≠ key)
    (psess : BfdSession) : (m.set key psess).stateOf key' = m.stateOf key' := by
  simp only [stateOf, set, update_of_ne h]

end BfdSessionManager

structure Timeval where
  sec : Nat
  usec : Fin 1000000
deriving DecidableEq, Repr

def Timeval.micros (tv : Timeval) : Nat := tv.sec * 1000000 + tv.usec

def getMicrosecondArround (tv : Timeval) : UInt64 :=
  UInt64.ofNat tv.sec <<< 19 + UInt64.ofNat tv.usec

-- 2 ^ 19 is less than a million: at the turn of a second this clock goes back
example : getMicrosecondArround ⟨1, 0⟩ < getMicrosecondArround ⟨0, 999999⟩ := by decide

/-! ## 2. What goes out -/

def packetOf (psess : BfdSession) : Packet where
  vers := 1
  diag := psess.localDiag.toUInt8 &&& 0x1f
  state := if psess.localDiscr ≠ 0 then psess.sessionState else .down
  poll := false
  final := psess.pollbitOn
  auth := false
  demand := false
  multipoint := false
  detectMult := psess.detectMult.toUInt8
  myDiscr := psess.localDiscr
  yourDiscr := psess.remoteDiscr
  minTxInt := bswap32 psess.desiredMinTxInterval
  minRxInt := bswap32 psess.requiredMinRxInterval
  minEchoRxInt := bswap32 psess.receivedMinRxInterval

/-- `transmit_unsafe` with `sendudp`: the packet that is written, if one is. -/
def transmitUnsafe (psess : BfdSession) : Option Packet :=
  let bfd := packetOf psess
  if (bfd.yourDiscr = 0 ∨ bfd.myDiscr = 0) ∧ bfd.state ≠ .down then none
  else if psess.conn then some bfd
  else none

/-- One round of `on_bfd_thread`, at the time `curms`: what is sent to each peer. -/
def onBfdThread (m : BfdSessionManager) (curms : UInt64) (key : UInt64) : Option Packet :=
  match m.bfdSessions key with
  | none => none
  | some psess =>
    if psess.detectTime > curms ∧ psess.mustCeaseTxEcho = false ∧ psess.mustTerminate = false ∧
        psess.remoteDiscr ≠ 0 ∧ psess.remoteMinRxInterval ≠ 0 then
      transmitUnsafe psess
    else none

/-! ## 3. What comes in -/

def bfdMinpktlen : Nat := 24

/-- The checks of `on_bfd_recieve` on the packet alone. -/
def admitted (bfd : Packet) (len : Nat) : Bool :=
  if len ≠ bfdMinpktlen then false
  else if bfd.multipoint then false
  else if bfd.vers ≠ 1 then false
  else if bfd.auth then false
  else if bfd.myDiscr = 0 then false
  else if bfd.detectMult = 0 then false
  else !(bfd.yourDiscr = 0 && !(bfd.state = .down || bfd.state = .adminDown))

def connect (m : BfdSessionManager) (psess : BfdSession) : BfdSession × UInt32 :=
  if psess.conn then (psess, m.localDiscriminatorIncr)
  else
    let incr := m.localDiscriminatorIncr + 1
    ({ psess with conn := true, localDiscr := bswap32 incr }, if incr > 0x7fffffff then 0 else incr)

/-- What a session takes from a packet before its state moves. Neither `min_rx_int` here is put
into host order. -/
def learn (psess : BfdSession) (bfd : Packet) (curms : UInt64) : BfdSession :=
  { psess with
    remoteSessionState := bfd.state
    remoteDemandMode := bfd.demand
    remoteDiscr := bfd.myDiscr
    remoteMinRxInterval := bfd.minRxInt
    receivedMinRxInterval := min psess.receivedMinRxInterval bfd.minRxInt
    mustTerminate := psess.mustTerminate || bfd.final
    detectTime :=
      curms + (bfd.detectMult.toUInt32 * max bfd.minRxInt psess.desiredMinTxInterval).toUInt64 }

def bfddiagNeighborsaiddown : UInt32 := 3

def react (psess : BfdSession) : BfdSession :=
  if psess.remoteSessionState = .adminDown then
    if psess.sessionState ≠ .down then
      { psess with localDiag := bfddiagNeighborsaiddown, sessionState := .down }
    else psess
  else if psess.sessionState = .down then
    if psess.remoteSessionState = .down then { psess with sessionState := .init }
    else if psess.remoteSessionState = .init then { psess with sessionState := .up }
    else psess
  else if psess.sessionState = .init then
    if psess.remoteSessionState = .init ∨ psess.remoteSessionState = .up then
      { psess with sessionState := .up }
    else { psess with sessionState := .down, remoteDiscr := 0 }
  else if psess.remoteSessionState = .down then
    { psess with localDiag := bfddiagNeighborsaiddown, sessionState := .down }
  else psess

/-- The session a packet is let through to: one that says DOWN and knows no discriminator of ours
gets a new one. -/
def sessionFor (m : BfdSessionManager) (key : UInt64) (bfd : Packet) : Option BfdSession :=
  match m.bfdSessions key with
  | some psess => some psess
  | none => if bfd.state = .down then some .new else none

/-- `on_bfd_recieve`: the manager behind it and what is sent back. -/
def onBfdRecieve (m : BfdSessionManager) (key : UInt64) (bfd : Packet) (len : Nat)
    (curms : UInt64) : BfdSessionManager × Option Packet :=
  if admitted bfd len = false then (m, none)
  else if bfd.yourDiscr ≠ 0 ∧ m.bfdSessions key = none then
    let psess :=
      { BfdSession.new with
        remoteDiscr := bfd.myDiscr, localDiscr := bfd.yourDiscr, sessionState := .down }
    (m.set key psess, transmitUnsafe psess)
  else
    match sessionFor m key bfd with
    | none => (m, none)
    | some psess =>
      let (psess, incr) := connect m psess
      let m := { m with localDiscriminatorIncr := incr }
      let psess := learn psess bfd curms
      if psess.sessionState = .adminDown then (m.set key psess, none)
      else
        let psess := react psess
        if bfd.poll then
          let psess := { psess with pollbitOn := true }
          (m.set key psess, transmitUnsafe psess)
        else (m.set key psess, none)

/-! ## 4. The automaton -/

def nextState : BfdState → BfdState → BfdState
  | .adminDown, _ => .adminDown
  | .down, .down => .init
  | .down, .init => .up
  | .down, _ => .down
  | .init, .init => .up
  | .init, .up => .up
  | .init, _ => .down
  | .up, .down => .down
  | .up, .adminDown => .down
  | .up, _ => .up

theorem sessionState_react (psess : BfdSession) (h : psess.sessionState ≠ .adminDown) :
    (react psess).sessionState = nextState psess.sessionState psess.remoteSessionState := by
  unfold react
  cases hs : psess.sessionState <;> cases hr : psess.remoteSessionState <;>
    simp_all [nextState]

def takenIn (m : BfdSessionManager) (key : UInt64) (bfd : Packet) (len : Nat) : Bool :=
  admitted bfd len && !(bfd.yourDiscr ≠ 0 && (m.bfdSessions key).isNone) &&
    (sessionFor m key bfd).isSome

variable {m : BfdSessionManager} {key : UInt64} {bfd : Packet}

theorem sessionState_sessionFor {psess : BfdSession} (h : sessionFor m key bfd = some psess) :
    psess.sessionState = m.stateOf key := by
  unfold sessionFor at h
  unfold BfdSessionManager.stateOf
  cases hsess : m.bfdSessions key with
  | some psess' =>
    rw [hsess] at h
    rw [some.inj h]
  | none =>
    rw [hsess] at h
    dsimp only at h
    split at h
    · rw [← some.inj h]
      rfl
    · cases h

theorem sessionState_connect (m : BfdSessionManager) (psess : BfdSession) :
    (connect m psess).1.sessionState = psess.sessionState := by
  unfold connect
  split <;> rfl

variable {len : Nat}

theorem onBfdRecieve_takenIn (curms : UInt64) (h : takenIn m key bfd len = true) :
    ∃ psess, (onBfdRecieve m key bfd len curms).1.bfdSessions =
        update m.bfdSessions key (some psess) ∧
      psess.sessionState = nextState (m.stateOf key) bfd.state ∧
      ((onBfdRecieve m key bfd len curms).2 = none ∨
        (onBfdRecieve m key bfd len curms).2 = transmitUnsafe psess) := by
  unfold takenIn at h
  simp only [Bool.and_eq_true, Bool.not_eq_true', Bool.and_eq_false_iff, decide_eq_false_iff_not,
    not_not, isNone_eq_false_iff] at h
  obtain ⟨⟨hadm, hknown⟩, hsome⟩ := h
  obtain ⟨psess, hpsess⟩ := isSome_iff_exists.mp hsome
  have hfirst : ¬(bfd.yourDiscr ≠ 0 ∧ m.bfdSessions key = none) := by
    rintro ⟨hyour, hnone⟩
    rcases hknown with hzero | hsess
    · exact hyour hzero
    · rw [hnone] at hsess
      cases hsess
  have hstate : (learn (connect m psess).1 bfd curms).sessionState = m.stateOf key :=
    (sessionState_connect m psess).trans (sessionState_sessionFor hpsess)
  unfold onBfdRecieve
  rw [if_neg (by simp [hadm]), if_neg hfirst, hpsess]
  dsimp only
  by_cases hadmin : (learn (connect m psess).1 bfd curms).sessionState = .adminDown
  · rw [if_pos hadmin]
    refine ⟨_, rfl, ?_, .inl rfl⟩
    rw [hadmin, ← hstate, hadmin]
    rfl
  · rw [if_neg hadmin]
    have hreact := sessionState_react _ hadmin
    rw [hstate] at hreact
    split
    · exact ⟨_, rfl, hreact, .inr rfl⟩
    · exact ⟨_, rfl, hreact, .inl rfl⟩

theorem onBfdRecieve_not_takenIn (curms : UInt64) (h : takenIn m key bfd len = false) :
    (onBfdRecieve m key bfd len curms).1.stateOf key = m.stateOf key ∧
      ((m.bfdSessions key).isSome → onBfdRecieve m key bfd len curms = (m, none)) := by
  unfold onBfdRecieve
  by_cases hadm : admitted bfd len = false
  · rw [if_pos hadm]
    exact ⟨rfl, fun _ => rfl⟩
  rw [if_neg hadm]
  by_cases hfirst : bfd.yourDiscr ≠ 0 ∧ m.bfdSessions key = none
  · rw [if_pos hfirst]
    dsimp only
    refine ⟨?_, fun hsome => ?_⟩
    · rw [BfdSessionManager.stateOf_set, BfdSessionManager.stateOf, hfirst.2]
    · rw [hfirst.2] at hsome
      cases hsome
  rw [if_neg hfirst]
  have hnone : sessionFor m key bfd = none := by
    rw [Bool.not_eq_false] at hadm
    rw [takenIn, hadm, Bool.true_and, Bool.and_eq_false_iff] at h
    rcases h with hknown | hnone
    · simp only [Bool.not_eq_false', Bool.and_eq_true, decide_eq_true_eq,
        isNone_iff_eq_none] at hknown
      exact absurd hknown hfirst
    · exact not_isSome_iff_eq_none.mp (by simp [hnone])
  rw [hnone]
  exact ⟨rfl, fun _ => rfl⟩

/-- A packet moves the state of its session by the automaton, or not at all. -/
theorem stateOf_onBfdRecieve (m : BfdSessionManager) (key : UInt64) (bfd : Packet) (len : Nat)
    (curms : UInt64) :
    (onBfdRecieve m key bfd len curms).1.stateOf key =
      if takenIn m key bfd len then nextState (m.stateOf key) bfd.state else m.stateOf key := by
  by_cases h : takenIn m key bfd len = true
  · obtain ⟨psess, hsess, hstate, -⟩ := onBfdRecieve_takenIn curms h
    rw [if_pos h, BfdSessionManager.stateOf, hsess, update_self]
    exact hstate
  · rw [if_neg h]
    exact (onBfdRecieve_not_takenIn curms (by simpa using h)).1

theorem stateOf_onBfdRecieve_of_ne (m : BfdSessionManager) {key key' : UInt64} (hne : key' ≠ key)
    (bfd : Packet) (len : Nat) (curms : UInt64) :
    (onBfdRecieve m key bfd len curms).1.stateOf key' = m.stateOf key' := by
  unfold onBfdRecieve
  split
  · rfl
  split
  · exact BfdSessionManager.stateOf_set_of_ne m hne _
  split
  · rfl
  dsimp only
  split
  · exact BfdSessionManager.stateOf_set_of_ne _ hne _
  split <;> exact BfdSessionManager.stateOf_set_of_ne _ hne _

/-! ## 5. Detection -/

inductive Event
  | receive (key : UInt64) (bfd : Packet) (len : Nat) (now : Timeval)
  | tick (now : Timeval)

/-- When a session has last taken a packet in, and its detection time in microseconds: `detect_mult`
times the larger one of the peer's interval and its own. -/
structure Reception where
  time : Nat
  detection : Nat
deriving DecidableEq, Repr

/-- A manager, and for the session with one peer the states of the packets it has taken in and the
last reception. -/
structure Watched where
  manager : BfdSessionManager
  taken : List BfdState
  last : Option Reception

/-- The reception of a packet: the peer's interval in host order, and our own. -/
def reception (m : BfdSessionManager) (key : UInt64) (bfd : Packet) (now : Timeval) : Reception where
  time := now.micros
  detection := bfd.detectMult.toNat * max (bswap32 bfd.minRxInt).toNat
    ((sessionFor m key bfd).getD .new).desiredMinTxInterval.toNat

/-- One event, watched for the session with the peer `key`. The thread only sends. -/
def Watched.step (key : UInt64) (s : Watched) : Event → Option Watched
  | .receive key' bfd len now =>
    let manager := (onBfdRecieve s.manager key' bfd len (getMicrosecondArround now)).1
    if key' = key ∧ takenIn s.manager key bfd len then
      some ⟨manager, s.taken ++ [bfd.state], some (reception s.manager key bfd now)⟩
    else some ⟨manager, s.taken, s.last⟩
  | .tick _ => some s

/-- A tick that comes later than the detection time of the last reception allows. -/
def Watched.Late (s : Watched) (e : Event) : Prop :=
  ∃ now last, e = .tick now ∧ s.last = some last ∧ now.micros > last.time + last.detection

/-- **Failure detection**: behind a late tick the session is not UP. -/
def DetectsFailure (key : UInt64) (s : Watched) (e : Event) : Prop :=
  s.Late e → ∀ s', s.step key e = some s' → s'.manager.stateOf key ≠ .up

theorem stateOf_step {s s' : Watched} {e : Event}
    (h : s.manager.stateOf key = s.taken.foldl nextState .down) (hstep : s.step key e = some s') :
    s'.manager.stateOf key = s'.taken.foldl nextState .down := by
  cases e with
  | receive key' bfd len now =>
    simp only [Watched.step] at hstep
    by_cases hkey : key' = key
    · subst hkey
      have hmove := stateOf_onBfdRecieve s.manager key' bfd len (getMicrosecondArround now)
      by_cases htaken : takenIn s.manager key' bfd len = true
      · rw [if_pos ⟨rfl, htaken⟩] at hstep
        rw [if_pos htaken, h] at hmove
        rw [← some.inj hstep]
        simpa using hmove
      · rw [if_neg fun hand => htaken hand.2] at hstep
        rw [if_neg htaken, h] at hmove
        rw [← some.inj hstep]
        exact hmove
    · rw [if_neg fun hand => hkey hand.1] at hstep
      rw [← some.inj hstep]
      exact (stateOf_onBfdRecieve_of_ne s.manager (Ne.symm hkey) bfd len _).trans h
  | tick now =>
    rw [← some.inj hstep]
    exact h

/-- **A silent peer is detected exactly where the packets alone have already taken the session out
of UP.** For every sequence of packets and ticks, whatever the clock. -/
theorem failure_detected_iff (key : UInt64) (events : List Event) :
    EachStep (Watched.step key) (DetectsFailure key) ⟨.new, [], none⟩ events ↔
      EachStep (Watched.step key) (fun s e => s.Late e → s.taken.foldl nextState .down ≠ .up)
        ⟨.new, [], none⟩ events := by
  refine eachStep_congr (I := fun s => s.manager.stateOf key = s.taken.foldl nextState .down)
    ?_ (fun s e s' h _ hstep => stateOf_step h hstep) rfl
  intro s e h
  constructor
  · intro hdetects hlate
    obtain ⟨now, last, rfl, -⟩ := id hlate
    rw [← h]
    exact hdetects hlate s rfl
  · intro hdown hlate s' hstep
    obtain ⟨now, last, rfl, -⟩ := id hlate
    rw [← some.inj hstep, h]
    exact hdown hlate

def controlPacket (state : BfdState) (myDiscr yourDiscr : UInt32) : Packet where
  vers := 1
  diag := 0
  state := state
  poll := false
  final := false
  auth := false
  demand := false
  multipoint := false
  detectMult := 3
  myDiscr := myDiscr
  yourDiscr := yourDiscr
  minTxInt := bswap32 bfddfltDesiredmintx
  minRxInt := bswap32 bfddfltRequiredminrx
  minEchoRxInt := 0

/-- **A session that comes UP stays UP although its peer is silent** for an hour. The detection
time is three seconds. -/
theorem silent_peer_stays_up :
    ¬EachStep (Watched.step 7) (DetectsFailure 7) ⟨.new, [], none⟩
      [.receive 7 (controlPacket .down 9 0) 24 ⟨1, 0⟩,
        .receive 7 (controlPacket .init 9 16777216) 24 ⟨2, 0⟩, .tick ⟨3600, 0⟩] := by
  intro h
  obtain ⟨-, h⟩ := h _ rfl
  obtain ⟨-, h⟩ := h _ rfl
  obtain ⟨h, -⟩ := h _ rfl
  exact h ⟨⟨3600, 0⟩, ⟨2000000, 3000000⟩, rfl, by decide +kernel, by decide⟩ _ rfl
    (by decide +kernel)

end MixiPgw.Tools.Bfd
