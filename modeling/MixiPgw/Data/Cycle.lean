/-
# One cycle of a worker core

`CorePgwBaseWorker::Cycle` with `CoreInterface::SendOrBuffer` and `BurstFlush`: a burst through
`ModifyPacket`, from time to time the warm-up ring, from time to time a flush.

Rings and the free list are kept as HISTORIES, everything they ever received, and a buffer is
numbered by the dequeue it came from (`taken`), so that one that the pool hands out again is new.
`handed` are the calls of `SendOrBuffer`. What each part of a cycle can do is said once
(`frameStep_spec`, `cycleStep_some`).
-/
import MixiPgw.Data.Workers
import MixiPgw.Lib.Run

namespace MixiPgw.Data

open Bytes Lib Option

/-! ## 1. The state of a core -/

/-- `output_` with its count, below the burst size. -/
structure OutBuf (n : Nat) where
  bufs : List Mbuf
  room : bufs.length < n

/-- A call of `SendOrBuffer`: the worker and the frame before `ModifyPacket`, and the frame handed
over. -/
structure Handed where
  worker : Worker
  received : Mbuf
  sent : Mbuf

structure Core (conf : Conf) where
  worker : Worker
  warmupCount : Nat
  output : OutBuf conf.burstTo
  ringTo : List Mbuf
  ringErr : List Mbuf
  freed : List Nat
  taken : Nat
  handed : List Handed

variable {conf : Conf}

def OutBuf.empty (conf : Conf) : OutBuf conf.burstTo := ⟨[], conf.burstTo_pos⟩

/-! ## 2. The output path -/

/-- `rte_ring_sp_enqueue_bulk` of the buffered frames: all or none, which are freed. -/
def enqueueBulk (s : Core conf) (bulk : List Mbuf) (bulkEnq : Bool) : Core conf :=
  if bulkEnq then { s with ringTo := s.ringTo ++ bulk, output := OutBuf.empty conf }
  else { s with freed := s.freed ++ bulk.map Mbuf.id, output := OutBuf.empty conf }

def sendOrBuffer (s : Core conf) (m : Mbuf) (bulkEnq : Bool) : Core conf :=
  if h : (s.output.bufs ++ [m]).length < conf.burstTo then
    { s with output := ⟨s.output.bufs ++ [m], h⟩ }
  else enqueueBulk s ((s.output.bufs ++ [m]).take conf.burstTo) bulkEnq

def burstFlush (s : Core conf) (bulkEnq : Bool) : Core conf :=
  if 0 < s.output.bufs.length then enqueueBulk s s.output.bufs bulkEnq else s

/-! ## 3. The burst -/

def Frame.numbered (f : Frame) (n : Nat) : Mbuf := { f.mbuf with id := n }

def settle (s : Core conf) (f : Frame) (r : Modified) : Core conf :=
  { s with
    worker := r.worker
    ringErr := if r.err then s.ringErr ++ [r.mbuf] else s.ringErr
    freed := if r.freed then s.freed ++ [r.mbuf.id] else s.freed
    taken := s.taken + 1
    handed := if r.ret = 0 then s.handed ++ [⟨s.worker, f.numbered s.taken, r.mbuf⟩] else s.handed }

def frameStep (s : Core conf) (f : Frame) : Option (Core conf) :=
  match modifyPacket conf f.now f.errEnq s.worker (f.numbered s.taken) with
  | none => none
  | some r =>
    if r.ret = 0 then some (sendOrBuffer (settle s f r) r.mbuf f.bulkEnq) else some (settle s f r)

/-- The two loops over a burst; they differ in prefetching. -/
def burst (s : Core conf) (fs : List Frame) : Option (Core conf) := fs.foldlM frameStep s

/-! ## 4. The warm-up ring -/

/-- The five values of the Private Extension of a warm-up frame, over what the stack holds. -/
def warmupItem (junk : Lookup) (m : Mbuf) : Lookup :=
  let pehdr := m.pktLen - 32
  { junk with
    sgwGtpuIpv4 := m.word (pehdr + 12)
    sgwGtpuTeid := m.word (pehdr + 16)
    ueIpv4 := m.word (pehdr + 20)
    ueTeid := m.word (pehdr + 24)
    pgwGtpuIpv4 := m.word (pehdr + 28) }

def warmupValid (itm : Lookup) : Bool :=
  itm.ueIpv4 != 0 && itm.ueTeid != 0 && itm.sgwGtpuIpv4 != 0 && itm.sgwGtpuTeid != 0 &&
    itm.pgwGtpuIpv4 != 0

def nkey (conf : Conf) (itm : Lookup) : UInt32 :=
  match conf.kind with
  | .egressTunnel => itm.ueIpv4
  | .ingressTunnel | .ingressDistributor => itm.ueTeid

/-- The key of a session in network byte order. -/
def Entry.key (conf : Conf) (e : Entry) : UInt32 :=
  match conf.kind with
  | .egressTunnel => bswap32 e.ueIpv4
  | .ingressTunnel | .ingressDistributor => bswap32 e.ueTeid

theorem key_toEntry (conf : Conf) (itm : Lookup) :
    itm.toEntry.key conf = bswap32 (nkey conf itm) := by
  unfold Entry.key nkey
  split <;> rfl

/-- One turn of the warm-up loop. `continue` is in front of the call that frees the buffer. -/
def warmupStep (junk : Lookup) (s : Core conf) (m : Mbuf) : Core conf :=
  let itm := warmupItem junk m
  if warmupValid itm then
    { s with
      worker := { s.worker with
        map := Function.update s.worker.map (bswap32 (nkey conf itm)) (some itm) }
      freed := s.freed ++ [s.taken]
      taken := s.taken + 1 }
  else { s with taken := s.taken + 1 }

/-! ## 5. The cycle -/

/-- What a cycle meets: the burst, the warm-up ring, the stack, the caller's cycle counter and
whether the output ring takes a flush. -/
structure CycleIn where
  frames : List Frame
  warmups : List Mbuf
  junk : Lookup
  cnt : Nat
  flushEnq : Bool

def warmupDue (s : Core conf) : Bool :=
  s.warmupCount > 14000000 / conf.burstFm && conf.ringWarmup

def warmup (e : CycleIn) (s : Core conf) : Core conf :=
  if warmupDue s then { e.warmups.foldl (warmupStep e.junk) s with warmupCount := 0 }
  else { s with warmupCount := (s.warmupCount + 1) % 2 ^ 64 }

/-- The flush part of `Cycle`, with the counter it leaves. -/
def flush (e : CycleIn) (s : Core conf) : Core conf × Nat :=
  if conf.flushDelay ≠ 0 ∧ e.cnt ≥ conf.flushDelay then (burstFlush s e.flushEnq, 0) else (s, e.cnt)

/-- `CorePgwBaseWorker::Cycle`, with the counter it leaves; `none` is a crash of `ModifyPacket`. -/
def cycle (s : Core conf) (e : CycleIn) : Option (Core conf × Nat) :=
  match burst s e.frames with
  | none => none
  | some s => some (flush e (warmup e s))

def cycleStep (s : Core conf) (e : CycleIn) : Option (Core conf) := (cycle s e).map Prod.fst

/-! ## 6. What the parts of a cycle do -/

section

variable {s s' : Core conf} {m : Mbuf} {f : Frame} {e : CycleIn} {r : Modified} {b : Bool}

/-- A part of a cycle that only moves buffers leaves the worker and the calls of `SendOrBuffer`
alone. -/
structure OnlyMoves (s s' : Core conf) : Prop where
  worker : s'.worker = s.worker
  handed : s'.handed = s.handed
  warmupCount : s'.warmupCount = s.warmupCount

theorem sendOrBuffer_onlyMoves : OnlyMoves s (sendOrBuffer s m b) := by
  unfold sendOrBuffer enqueueBulk
  repeat' split
  all_goals exact ⟨rfl, rfl, rfl⟩

theorem flush_onlyMoves : OnlyMoves s (flush e s).1 := by
  unfold flush burstFlush enqueueBulk
  repeat' split
  all_goals exact ⟨rfl, rfl, rfl⟩

/-- One turn of the burst loop. The frame is handed over exactly if `ModifyPacket` returned
0. -/
theorem frameStep_spec (h : frameStep s f = some s') :
    ∃ r, modifyPacket conf f.now f.errEnq s.worker (f.numbered s.taken) = some r ∧
      s'.worker = r.worker ∧
      s'.handed =
        (if r.ret = 0 then s.handed ++ [⟨s.worker, f.numbered s.taken, r.mbuf⟩] else s.handed) ∧
      s'.warmupCount = s.warmupCount := by
  unfold frameStep at h
  split at h
  · cases h
  · rename_i r hr
    refine ⟨r, hr, ?_⟩
    split at h
    · obtain rfl := some.inj h
      have hmoves : OnlyMoves (settle s f r) (sendOrBuffer (settle s f r) r.mbuf f.bulkEnq) :=
        sendOrBuffer_onlyMoves
      rw [hmoves.worker, hmoves.handed, hmoves.warmupCount]
      exact ⟨rfl, rfl, rfl⟩
    · obtain rfl := some.inj h
      exact ⟨rfl, rfl, rfl⟩

theorem burst_cons {fs : List Frame} :
    burst s (f :: fs) = (frameStep s f).bind fun s₁ => burst s₁ fs := rfl

theorem burst_warmupCount : ∀ {fs : List Frame} {s s' : Core conf}, burst s fs = some s' →
    s'.warmupCount = s.warmupCount
  | [], _, _, h => by rw [some.inj h]
  | f :: fs, s, s', h => by
    rw [burst_cons] at h
    obtain ⟨s₁, hs₁, hrest⟩ := bind_eq_some_iff.mp h
    obtain ⟨-, -, -, -, hcount⟩ := frameStep_spec hs₁
    exact (burst_warmupCount hrest).trans hcount

theorem warmupStep_handed (junk : Lookup) (s : Core conf) (m : Mbuf) :
    (warmupStep junk s m).handed = s.handed := by
  unfold warmupStep
  dsimp only
  split <;> rfl

theorem foldl_warmupStep_handed (junk : Lookup) : ∀ (ms : List Mbuf) (s : Core conf),
    (ms.foldl (warmupStep junk) s).handed = s.handed
  | [], _ => rfl
  | m :: ms, s => (foldl_warmupStep_handed junk ms _).trans (warmupStep_handed junk s m)

theorem warmup_handed (e : CycleIn) (s : Core conf) : (warmup e s).handed = s.handed := by
  unfold warmup
  split
  · exact foldl_warmupStep_handed e.junk e.warmups s
  · rfl

theorem cycleStep_some (h : cycleStep s e = some s') :
    ∃ s₁, burst s e.frames = some s₁ ∧ s' = (flush e (warmup e s₁)).1 := by
  unfold cycleStep cycle at h
  split at h
  · cases h
  · rename_i s₁ hs₁
    exact ⟨s₁, hs₁, (some.inj h).symm⟩

theorem cycleStep_handed (h : cycleStep s e = some s') :
    ∃ s₁, burst s e.frames = some s₁ ∧ s'.handed = s₁.handed := by
  obtain ⟨s₁, hs₁, rfl⟩ := cycleStep_some h
  exact ⟨s₁, hs₁, by rw [flush_onlyMoves.handed, warmup_handed]⟩

end

/-! ## 7. A core at rest -/

def plainConf (kind : Kind) : Conf where
  kind := kind
  ringErrInd := true
  ringWarmup := true
  burstFm := 32
  burstTo := 32
  flushDelay := 0
  greipv4 := 0
  gresrcipv4 := 0
  burstFm_pos := by decide
  burstTo_pos := by decide

def idleCore (conf : Conf) : Core conf where
  worker := ⟨fun _ => none, 0, zeroLookup⟩
  warmupCount := 14000001
  output := OutBuf.empty conf
  ringTo := []
  ringErr := []
  freed := []
  taken := 0
  handed := []

def plainCycle (frames : List Frame) (warmups : List Mbuf) : CycleIn where
  frames := frames
  warmups := warmups
  junk := zeroLookup
  cnt := 0
  flushEnq := true

def frameOf (data : List UInt8) : Mbuf :=
  ⟨0, fun a => data.getD (a - 128) 0, 128, data.length, UserDat.zero⟩

/-- A frame from 198.51.100.1. -/
def downlinkFrame (dst : UInt32) : Mbuf :=
  frameOf (List.replicate 12 0 ++ [0x08, 0x00] ++ [0x45, 0, 0, 20, 0, 0, 0, 0, 64, 17, 0, 0] ++
    [198, 51, 100, 1] ++ bytesOf dst)

end MixiPgw.Data
