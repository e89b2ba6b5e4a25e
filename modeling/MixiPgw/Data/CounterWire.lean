/-
# Two readers of one counter packet

What `ForwardTransfer` puts into a packet is written to a database twice: by `CoreCounterLogWorker`
of the dataplane, and by `Diameter::ReqAny` of the tools, which knows items of 8 octets instead of
16, takes every second one out of the middle of an item, and disagrees on which of INGRESS and
EGRESS is the S5 side. **`consumers_disagree`**: their rows are never the same.
-/
import MixiPgw.Data.Counter
import Mathlib.Tactic.IntervalCases

namespace MixiPgw.Data

open Bytes Lib List
open scoped List

/-! ## 1. The packet on the wire -/

def counterIngress : UInt8 := 0xfe
def counterEgress : UInt8 := 0xff

def CountEntry.octets (e : CountEntry) : List UInt8 :=
  bytesOf e.key ++ bytesOf e.item.used ++ bytesOf e.item.used3g ++ bytesOf e.item.usedLow

/-- The 1036 bytes of a packet; `mem` is what is not written. -/
def CountingPacket.wire (p : CountingPacket) (mem : Nat → UInt8) (i : Nat) : UInt8 :=
  if i < 8 then ([p.type, 0x00, 0x04, 0x0c] ++ bytesOf p.count).getD i 0
  else if i < 12 then mem i
  else
    match p.slot ((i - 12) / 16) with
    | some e => e.octets.getD ((i - 12) % 16) 0
    | none => mem i

def wireWord (w : Nat → UInt8) (i : Nat) : UInt32 := le32 (w i) (w (i + 1)) (w (i + 2)) (w (i + 3))

/-! ## 2. The readers -/

structure TrafficRow where
  key : UInt32
  usedS5 : UInt32
  usedSgi : UInt32
deriving DecidableEq

/-- `Diameter::ReqAny`: the rows of its statement, for items of 8 octets. -/
def reqAny (w : Nat → UInt8) : List TrafficRow :=
  (range (wireWord w 4).toNat).map fun n =>
    let key := wireWord w (12 + 8 * n)
    let used := wireWord w (12 + 8 * n + 4)
    if w 0 = counterIngress then ⟨key, 0, used⟩ else ⟨key, used, 0⟩

/-- One column of an item in `CoreCounterLogWorker::VirtualCycle`, and the kind of traffic. -/
def logColumn (type : UInt8) (key used : UInt32) (kind : Nat) : List (TrafficRow × Nat) :=
  let row : TrafficRow := if type = counterEgress then ⟨key, 0, used⟩ else ⟨key, used, 0⟩
  if row.usedS5 ≠ 0 ∨ row.usedSgi ≠ 0 then [(row, kind)] else []

def logItem (type : UInt8) (key used used3g usedLow : UInt32) : List (TrafficRow × Nat) :=
  logColumn type key used 0 ++ logColumn type key used3g 1 ++ logColumn type key usedLow 2

/-- `CoreCounterLogWorker::VirtualCycle` on one packet, of the length of a `counting_t`. -/
def logRows (w : Nat → UInt8) : List (TrafficRow × Nat) :=
  (range (wireWord w 4).toNat).flatMap fun m =>
    logItem (w 0) (wireWord w (12 + 16 * m)) (wireWord w (12 + 16 * m + 4))
      (wireWord w (12 + 16 * m + 8)) (wireWord w (12 + 16 * m + 12))

/-! ## 3. What they read -/

section

variable {p : CountingPacket} {mem : Nat → UInt8}

theorem wire_type : p.wire mem 0 = p.type := rfl

theorem wireWord_count : wireWord (p.wire mem) 4 = p.count := le32_byteOf p.count

end

variable {row : TrafficRow × Nat}

theorem logColumn_side {type : UInt8} {key used : UInt32} {kind : Nat}
    (h : row ∈ logColumn type key used kind) :
    if type = counterEgress then row.1.usedSgi ≠ 0 else row.1.usedS5 ≠ 0 := by
  unfold logColumn at h
  by_cases htype : type = counterEgress
  · simp only [htype, if_true] at h ⊢
    split at h
    · rename_i hbytes
      rw [mem_singleton.mp h]
      simpa using hbytes
    · exact absurd h not_mem_nil
  · simp only [htype, if_false] at h ⊢
    split at h
    · rename_i hbytes
      rw [mem_singleton.mp h]
      simpa using hbytes
    · exact absurd h not_mem_nil

theorem logRows_side {w : Nat → UInt8} (h : row ∈ logRows w) :
    if w 0 = counterEgress then row.1.usedSgi ≠ 0 else row.1.usedS5 ≠ 0 := by
  obtain ⟨m, -, hm⟩ := mem_flatMap.mp h
  rcases mem_append.mp hm with hm | hm
  · rcases mem_append.mp hm with hm | hm
    · exact logColumn_side hm
    · exact logColumn_side hm
  · exact logColumn_side hm

theorem reqAny_first {w : Nat → UInt8} (hcount : 0 < (wireWord w 4).toNat) :
    ∃ row ∈ reqAny w, if w 0 = counterIngress then row.usedS5 = 0 else row.usedSgi = 0 := by
  refine ⟨_, mem_map.mpr ⟨0, mem_range.mpr hcount, rfl⟩, ?_⟩
  by_cases htype : w 0 = counterIngress <;> simp [htype]

/-- **The two consumers never agree**: for no packet that is handed over are the rows of `ReqAny`
those of the log worker. -/
theorem consumers_disagree (type : UInt8) (htype : type = counterIngress ∨ type = counterEgress)
    (es : List CounterEvent) (s : Counter) (hrun : Counter.new.run type es = some s)
    (p : CountingPacket) (hp : p ∈ s.handed) (mem : Nat → UInt8) :
    ¬ reqAny (p.wire mem) ~ (logRows (p.wire mem)).map Prod.fst := by
  intro hsame
  have hfilled : Filled type p := (Counter.conserved_new.run hrun).filled p hp
  have hcount : 0 < (wireWord (p.wire mem) 4).toNat := by
    rw [wireWord_count]
    exact hfilled.one_le
  obtain ⟨row, hrow, hside⟩ := reqAny_first hcount
  obtain ⟨row', hrow', rfl⟩ := mem_map.mp (hsame.mem_iff.mp hrow)
  have hlog := logRows_side hrow'
  rw [wire_type, hfilled.type_eq] at hside hlog
  rcases htype with rfl | rfl
  · rw [if_pos rfl] at hside
    exact hlog hside
  · rw [if_pos rfl] at hlog
    exact hlog hside

theorem drained_consumers_disagree :
    ∃ s p, drainedCounter = some s ∧ p ∈ s.handed ∧
      ¬ reqAny (p.wire fun _ => 0) ~ (logRows (p.wire fun _ => 0)).map Prod.fst := by
  have hsome : (drainedCounter.bind fun s => s.handed.head?).isSome = true := by decide +kernel
  obtain ⟨p, hp⟩ := Option.isSome_iff_exists.mp hsome
  obtain ⟨s, hs, hhead⟩ := Option.bind_eq_some_iff.mp hp
  have hmem : p ∈ s.handed := mem_of_mem_head? hhead
  exact ⟨s, p, hs, hmem, consumers_disagree 0xff (Or.inr rfl) _ s hs p hmem _⟩

/-- Key 7 with 100 bytes at full and 50 at low speed, all egress. -/
theorem drained_rows :
    drainedCounter.map (fun s => s.handed.map fun p =>
        (reqAny (p.wire fun _ => 0), logRows (p.wire fun _ => 0))) =
      some [([⟨7, 100, 0⟩], [(⟨7, 0, 100⟩, 0), (⟨7, 0, 50⟩, 2)])] := by
  decide +kernel

end MixiPgw.Data
