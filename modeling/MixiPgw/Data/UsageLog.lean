/-
# The usage log

`CoreCounterLogWorker::VirtualCycle` takes a burst of counter packets off its ring, collects their
rows into one `INSERT` statement, frees each buffer, and sends the statement. But a buffer that has
not the size of a `counting_t` ends the cycle with a `return`: it and those behind it are never
freed, and the rows collected before are never sent. The statement is sent even without rows. And
a packet may claim more than its 64 items. `usage_log_loses_nothing_iff` says over which cycles
NOTHING is lost.
-/
import MixiPgw.Data.CounterWire
import Mathlib.Algebra.Order.BigOperators.Group.List
import Mathlib.Data.List.TakeWhile

namespace MixiPgw.Data.UsageLog

open Bytes Lib List
open scoped List

/-! ## 1. The cycle -/

abbrev Row := TrafficRow × Nat

def sizeofCounting : Nat := 1036

def rowText (counter : Nat) (row : Row) : String :=
  (if counter = 0 then "" else ",") ++ "(" ++ toString row.1.key ++ "," ++
    toString row.1.usedS5 ++ "," ++ toString row.1.usedSgi ++ "," ++ toString row.2 ++ ")"

def sqlText (rows : List Row) : String :=
  rows.zipIdx.foldl (fun sql row => sql ++ rowText row.2 row.1)
    "INSERT INTO traffic_log(`teid`,`used_s5`,`used_sgi`,`type`)VALUES"

/-- The loop: the rows collected, the buffers freed, and whether it came to its end. -/
def storeLoop : List Mbuf → List Row → List Nat → List Row × List Nat × Bool
  | [], rows, freed => (rows, freed, true)
  | m :: burst, rows, freed =>
    if m.pktLen ≠ sizeofCounting then (rows, freed, false)
    else storeLoop burst (rows ++ logRows m.byte) (freed ++ [m.id])

structure Cycled where
  rc : Int
  sent : List (List Row)
  freed : List Nat
deriving DecidableEq

/-- `CoreCounterLogWorker::VirtualCycle`; `mysqlQuery` says which statements succeed. -/
def virtualCycle (mysqlQuery : String → Bool) (burst : List Mbuf) : Cycled :=
  if burst = [] then ⟨0, [], []⟩
  else
    match storeLoop burst [] [] with
    | (_, freed, false) => ⟨-1, [], freed⟩
    | (rows, freed, true) => ⟨if mysqlQuery (sqlText rows) then 0 else -1, [rows], freed⟩

structure Cycle where
  mysqlQuery : String → Bool
  burst : List Mbuf

def Cycle.done (c : Cycle) : Cycled := virtualCycle c.mysqlQuery c.burst

/-! ## 2. What the loop leaves -/

def itemRows (w : Nat → UInt8) : List Row :=
  (range (min (wireWord w 4).toNat transferRingBurst)).flatMap fun m =>
    logItem (w 0) (wireWord w (12 + 16 * m)) (wireWord w (12 + 16 * m + 4))
      (wireWord w (12 + 16 * m + 8)) (wireWord w (12 + 16 * m + 12))

def strayRows (w : Nat → UInt8) : List Row :=
  ((range ((wireWord w 4).toNat - transferRingBurst)).map (transferRingBurst + ·)).flatMap
    fun m =>
      logItem (w 0) (wireWord w (12 + 16 * m)) (wireWord w (12 + 16 * m + 4))
        (wireWord w (12 + 16 * m + 8)) (wireWord w (12 + 16 * m + 12))

theorem logRows_eq (w : Nat → UInt8) : logRows w = itemRows w ++ strayRows w := by
  unfold logRows itemRows strayRows
  rcases Nat.le_total (wireWord w 4).toNat transferRingBurst with hle | hle
  · rw [Nat.min_eq_left hle, Nat.sub_eq_zero_of_le hle]
    simp
  · rw [Nat.min_eq_right hle, ← flatMap_append, ← range_add, Nat.add_sub_cancel' hle]

theorem storeLoop_eq (burst : List Mbuf) : ∀ (rows : List Row) (freed : List Nat),
    storeLoop burst rows freed =
      let sized := burst.takeWhile (·.pktLen = sizeofCounting)
      (rows ++ sized.flatMap (logRows ·.byte), freed ++ sized.map (·.id),
        burst.all (·.pktLen = sizeofCounting)) := by
  induction burst with
  | nil => simp [storeLoop]
  | cons m burst ih =>
    intro rows freed
    unfold storeLoop
    by_cases hsize : m.pktLen = sizeofCounting
    · rw [ih]
      simp [hsize]
    · simp [hsize]

variable {c : Cycle}

/-- A burst of correctly sized buffers is freed, and its rows go out in one statement. -/
theorem done_of_sized (hne : c.burst ≠ []) (hsized : ∀ m ∈ c.burst, m.pktLen = sizeofCounting) :
    c.done.sent = [c.burst.flatMap (logRows ·.byte)] ∧ c.done.freed = c.burst.map (·.id) := by
  have hall : c.burst.all (·.pktLen = sizeofCounting) = true := by
    simpa using hsized
  have htake : c.burst.takeWhile (·.pktLen = sizeofCounting) = c.burst :=
    takeWhile_eq_self_iff.mpr (by simpa using hsized)
  unfold Cycle.done virtualCycle
  rw [if_neg hne, storeLoop_eq, htake, hall]
  exact ⟨rfl, rfl⟩

/-- With another one in it nothing is sent, and not all is freed. -/
theorem done_of_not_sized (h : ¬∀ m ∈ c.burst, m.pktLen = sizeofCounting) :
    c.done.sent = [] ∧ c.done.freed.length < c.burst.length := by
  have hne : c.burst ≠ [] := by
    intro hnil
    exact h (by simp [hnil])
  have hall : c.burst.all (·.pktLen = sizeofCounting) = false := by
    simpa using h
  have hlt : (c.burst.takeWhile (·.pktLen = sizeofCounting)).length < c.burst.length := by
    refine Nat.lt_of_le_of_ne (takeWhile_sublist _).length_le fun hlen => h ?_
    have htake := (takeWhile_sublist (fun m : Mbuf => m.pktLen = sizeofCounting)).eq_of_length
      hlen
    simpa using takeWhile_eq_self_iff.mp htake
  unfold Cycle.done virtualCycle
  rw [if_neg hne, storeLoop_eq, hall]
  exact ⟨rfl, by simpa using hlt⟩

theorem done_freed_length_le (c : Cycle) : c.done.freed.length ≤ c.burst.length := by
  by_cases hsized : ∀ m ∈ c.burst, m.pktLen = sizeofCounting
  · by_cases hne : c.burst = []
    · unfold Cycle.done virtualCycle
      simp [hne]
    · rw [(done_of_sized hne hsized).2, length_map]
  · exact Nat.le_of_lt (done_of_not_sized hsized).2

/-! ## 3. Nothing is lost -/

def expectedRows (burst : List Mbuf) : List Row :=
  (burst.filter (·.pktLen = sizeofCounting)).flatMap (itemRows ·.byte)

/-- **The log loses nothing**: the rows sent are those of the items, once; no statement is without
rows; and every buffer is freed once. -/
structure LosesNothing (cycles : List Cycle) : Prop where
  rows : (cycles.flatMap fun c => c.done.sent.flatten) ~ cycles.flatMap fun c => expectedRows c.burst
  statements : ∀ c ∈ cycles, ∀ rows ∈ c.done.sent, rows ≠ []
  freed : (cycles.flatMap fun c => c.done.freed) ~ cycles.flatMap fun c => c.burst.map (·.id)

structure Loggable (burst : List Mbuf) : Prop where
  sized : ∀ m ∈ burst, m.pktLen = sizeofCounting
  stray : ∀ m ∈ burst, strayRows m.byte = []
  some_row : burst.flatMap (itemRows ·.byte) ≠ []

theorem lengths_eq_of_perm {α β : Type} {l : List α} {f g : α → List β}
    (hperm : l.flatMap f ~ l.flatMap g) (hle : ∀ a ∈ l, (f a).length ≤ (g a).length) :
    ∀ a ∈ l, (f a).length = (g a).length := by
  have hlen := hperm.length_eq
  clear hperm
  induction l with
  | nil => simp
  | cons a l ih =>
    rw [flatMap_cons, flatMap_cons, length_append, length_append] at hlen
    have hhead := hle a mem_cons_self
    have htail : (l.flatMap f).length ≤ (l.flatMap g).length := by
      rw [length_flatMap, length_flatMap]
      exact sum_le_sum fun b hb => hle b (mem_cons_of_mem _ hb)
    intro b hb
    rcases mem_cons.mp hb with rfl | hb
    · omega
    · exact ih (fun b hb => hle b (mem_cons_of_mem _ hb)) (by omega) b hb

theorem expectedRows_of_sized {burst : List Mbuf} (h : ∀ m ∈ burst, m.pktLen = sizeofCounting) :
    expectedRows burst = burst.flatMap (itemRows ·.byte) := by
  unfold expectedRows
  rw [filter_eq_self.mpr (by simpa using h)]

theorem length_logRows (burst : List Mbuf) :
    (burst.flatMap (logRows ·.byte)).length =
      (burst.flatMap (itemRows ·.byte)).length + (burst.flatMap (strayRows ·.byte)).length := by
  induction burst with
  | nil => rfl
  | cons m burst ih =>
    rw [flatMap_cons, flatMap_cons, flatMap_cons, length_append, ih,
      logRows_eq, length_append, length_append, length_append]
    omega

theorem done_of_loggable (h : c.burst = [] ∨ Loggable c.burst) :
    c.done.sent.flatten = expectedRows c.burst ∧ (∀ rows ∈ c.done.sent, rows ≠ []) ∧
      c.done.freed = c.burst.map (·.id) := by
  rcases h with hnil | hlog
  · unfold Cycle.done virtualCycle
    rw [hnil]
    exact ⟨rfl, by simp, rfl⟩
  · have hne : c.burst ≠ [] := by
      intro hnil
      exact hlog.some_row (by simp [hnil])
    obtain ⟨hsent, hfreed⟩ := done_of_sized hne hlog.sized
    have hrows : c.burst.flatMap (logRows ·.byte) = c.burst.flatMap (itemRows ·.byte) := by
      refine flatMap_congr fun m hm => ?_
      rw [logRows_eq, hlog.stray m hm, append_nil]
    rw [hsent, hrows, expectedRows_of_sized hlog.sized]
    refine ⟨by simp, ?_, hfreed⟩
    intro rows hmem
    rw [mem_singleton.mp hmem]
    exact hlog.some_row

/-- **Over any sequence of cycles, whatever the database answers, the log loses nothing if and only
if every burst is empty or loggable.** -/
theorem usage_log_loses_nothing_iff (cycles : List Cycle) :
    LosesNothing cycles ↔ ∀ c ∈ cycles, c.burst = [] ∨ Loggable c.burst := by
  constructor
  · intro hlose c hc
    rw [or_iff_not_imp_left]
    intro hne
    -- a buffer that is not freed in its own cycle is never freed
    have hfreed := lengths_eq_of_perm hlose.freed fun c _ => by
      simpa using done_freed_length_le c
    have hsized : ∀ c ∈ cycles, ∀ m ∈ c.burst, m.pktLen = sizeofCounting := by
      intro c hc
      by_contra hnot
      have := hfreed c hc
      rw [length_map] at this
      exact absurd this (Nat.ne_of_lt (done_of_not_sized hnot).2)
    -- so all rows are sent, and the stray ones are too many
    have hflat : ∀ c ∈ cycles, c.done.sent.flatten = c.burst.flatMap (logRows ·.byte) := by
      intro c hc
      by_cases hnil : c.burst = []
      · unfold Cycle.done virtualCycle
        simp [hnil]
      · rw [(done_of_sized hnil (hsized c hc)).1]
        simp
    have hrows := lengths_eq_of_perm hlose.rows.symm fun c hc => by
      rw [hflat c hc, expectedRows_of_sized (hsized c hc), length_logRows]
      exact Nat.le_add_right _ _
    have hstray : c.burst.flatMap (strayRows ·.byte) = [] := by
      have := hrows c hc
      rw [hflat c hc, expectedRows_of_sized (hsized c hc), length_logRows] at this
      exact eq_nil_of_length_eq_zero (by omega)
    have hstray' : ∀ m ∈ c.burst, strayRows m.byte = [] := flatMap_eq_nil_iff.mp hstray
    refine ⟨hsized c hc, hstray', ?_⟩
    have hsent := (done_of_sized hne (hsized c hc)).1
    have hsome := hlose.statements c hc _ (by rw [hsent]; exact mem_singleton_self _)
    intro hnone
    refine hsome (eq_nil_of_length_eq_zero ?_)
    rw [length_logRows, hnone, hstray]
    rfl
  · intro hall
    refine ⟨?_, ?_, ?_⟩
    · refine List.Perm.of_eq (flatMap_congr fun c hc => ?_)
      exact (done_of_loggable (hall c hc)).1
    · exact fun c hc => (done_of_loggable (hall c hc)).2.1
    · refine List.Perm.of_eq (flatMap_congr fun c hc => ?_)
      exact (done_of_loggable (hall c hc)).2.2

def egressPacket (id pktLen : Nat) (used : UInt8) : Mbuf where
  id := id
  buf := fun i =>
    [0xff, 0x00, 0x04, 0x0c, 1, 0, 0, 0, 0, 0, 0, 0, 7, 0, 0, 0, used, 0, 0, 0].getD i 0
  dataOff := 0
  pktLen := pktLen
  udata := .zero

/-- **A buffer of another size** loses the rows of two packets and two buffers, and **a packet
without usage** makes a statement without rows. -/
theorem usage_log_loses :
    virtualCycle (fun _ => true)
      [egressPacket 1 1036 100, egressPacket 2 60 0, egressPacket 3 1036 50] = ⟨-1, [], [1]⟩ ∧
    ¬LosesNothing [⟨fun _ => true,
      [egressPacket 1 1036 100, egressPacket 2 60 0, egressPacket 3 1036 50]⟩] ∧
    virtualCycle (fun _ => true) [egressPacket 4 1036 0] = ⟨0, [[]], [4]⟩ ∧
    ¬LosesNothing [⟨fun _ => true, [egressPacket 4 1036 0]⟩] := by
  refine ⟨by decide +kernel, ?_, by decide +kernel, ?_⟩
  · intro h
    exact absurd h.freed.length_eq (by decide +kernel)
  · intro h
    exact h.statements _ (mem_singleton_self _) [] (by decide +kernel) rfl

end MixiPgw.Data.UsageLog
