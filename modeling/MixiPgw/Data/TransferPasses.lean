/-
# Buffers and maps of a pass

`ForwardTransfer` takes the next buffer from the pool as soon as one is full. At the end it sends
the buffer at hand if `counter` is not 0 and frees it if `dcounter` is 0. Behind a full buffer
`counter` is 0 and `dcounter` is not, so that it is neither sent nor freed
(`forwardTransfer_balanced_iff`). The start moves by at most what has been entered, so that sixteen
passes enter every map (`forwardTransfer_fair`).
-/
import MixiPgw.Data.Counter

namespace MixiPgw.Data

open Lib List Option Counter
open scoped List

/-! ## 1. The end of a pass -/

/-- `cur_` at the end of a pass, in words. -/
def advanceCur (cur mapTail : UInt32) : UInt32 :=
  if mapTail = 16 then 0
  else if 16 ≤ cur + mapTail then (cur + mapTail) % 16
  else cur + mapTail

/-- The last two branches: the buffer at hand is sent, or freed, or neither. -/
def Pass.finish (s : Pass) : PassLog :=
  let log := if 0 < s.counter then s.log.sendOrBuffer else s.log
  if s.dcounter = 0 then log.free else log

/-- `ForwardTransfer` with the record of the pass, and the word it leaves in `cur_`. -/
def Counter.loggedTransfer (type : UInt8) (tr : TransferCall) (c : Counter) :
    Option (Counter × PassLog × UInt32) :=
  (c.pass type tr).map fun r =>
    (c.afterPass r.1 r.2, r.2.finish, advanceCur (UInt32.ofNat c.cur.val) r.2.mapTail)

theorem Counter.loggedTransfer_fst {type : UInt8} {tr : TransferCall} (c : Counter) :
    (c.loggedTransfer type tr).map Prod.fst = c.forwardTransfer type tr :=
  Option.map_map ..

/-! ## 2. How many entries a pass takes -/

def dueCount (curtm : Int) (entries : List CountEntry) : Nat :=
  entries.countP fun e => e.due curtm

/-- The entries of all maps that are due. -/
def Counter.dueEntries (c : Counter) (curtm : Int) : Nat := dueCount curtm c.remaining

theorem dueCount_cons (curtm : Int) (e : CountEntry) (rest : List CountEntry) :
    dueCount curtm (e :: rest) = dueCount curtm rest + if e.due curtm then 1 else 0 :=
  countP_cons

section

variable {type : UInt8} {tr : TransferCall} {s s' : Pass}

theorem takeEntry_counts {e : CountEntry} (h : takeEntry type tr s e = some s') :
    s'.dcounter = s.dcounter + 1 ∧ s'.mapTail = s.mapTail := by
  unfold takeEntry sendFull at h
  split at h
  · dsimp only at h
    split at h
    · cases h
      exact ⟨rfl, rfl⟩
    · obtain ⟨junk, -, rfl⟩ := map_eq_some_iff.mp h
      exact ⟨rfl, rfl⟩
  · cases h
    exact ⟨rfl, rfl⟩

/-- A pass stops at the limit only, and takes every due entry before it. -/
structure Takes (k : Nat) (s s' : Pass) : Prop where
  dcounter_eq : s'.dcounter = min dcounterLimit (s.dcounter + k)
  skipped : s'.skipNext = true → s'.dcounter = dcounterLimit

end

theorem sortFrom_perm (cur : Fin 16) : sortFrom cur ~ finRange 16 :=
  perm_append_comm.trans (.of_eq (take_append_drop _ _))

theorem Counter.sum_due (c : Counter) (curtm : Int) :
    ((sortFrom c.cur).map fun i => dueCount curtm (c.maps i)).sum = c.dueEntries curtm := by
  rw [((sortFrom_perm c.cur).map _).sum_eq]
  exact (countP_flatMap ..).symm

/-! ## 3. The buffers of a pass -/

/-- Below 1024 the buffers are numbered as they are filled: the one at hand is the last, and all
before it have been passed on. -/
structure Pass.Recorded (s : Pass) : Prop where
  pring_eq : s.log.pring = s.ringid
  allocated_eq : s.log.allocated = range (s.ringid + 1)
  passed_eq : s.log.passed = range s.ringid
  freed_eq : s.log.freed = []

section

variable {type : UInt8} {tr : TransferCall} {s s' : Pass}

theorem takeEntry_log {e : CountEntry} (h : takeEntry type tr s e = some s') :
    (s.Recorded → s'.ringFull = false → s'.Recorded) ∧ s'.log.entered = s.log.entered := by
  unfold takeEntry sendFull at h
  split at h
  · dsimp only at h
    split at h
    · obtain rfl := some.inj h
      exact ⟨fun _ (hf : true = false) => absurd hf (by decide), rfl⟩
    · obtain ⟨junk, -, rfl⟩ := map_eq_some_iff.mp h
      refine ⟨fun hrec _ => ⟨?_, ?_, ?_, hrec.freed_eq⟩, rfl⟩
      · show s.log.allocated.length = s.ringid + 1
        rw [hrec.allocated_eq, length_range]
      · show s.log.allocated ++ [s.log.allocated.length] = range (s.ringid + 1 + 1)
        rw [hrec.allocated_eq, length_range, ← range_succ]
      · show s.log.passed ++ [s.log.pring] = range (s.ringid + 1)
        rw [hrec.passed_eq, hrec.pring_eq, ← range_succ]
  · obtain rfl := some.inj h
    exact ⟨fun hrec _ => ⟨hrec.1, hrec.2, hrec.3, hrec.4⟩, rfl⟩

/-- `map_tail` is between 1 and `n` as soon as an entry was taken. -/
def Pass.Reached (n : Nat) (s : Pass) : Prop :=
  0 < s.dcounter → 1 ≤ s.mapTail.toNat ∧ s.mapTail.toNat ≤ n

variable {n : Nat}

theorem Pass.reached_set (hn : n < 16) (s : Pass) :
    Pass.Reached (n + 1) { s with mapTail := UInt32.ofNat (n + 1) } := by
  intro _
  have hnat : (UInt32.ofNat (n + 1)).toNat = n + 1 := Nat.mod_eq_of_lt (by omega)
  rw [hnat]
  exact ⟨Nat.succ_pos n, Nat.le_refl _⟩

/-- One map. The limit is met behind an entry that has set `map_tail`. -/
theorem forwardEntries_log {l entries left : List CountEntry} (hn : n < 16) (hok : s.Ok type l)
    (hopen : s.dcounter < dcounterLimit) (hskip : s.skipNext = false) (hrec : s.Recorded)
    (hreach : s.Reached (n + 1)) (h : forwardEntries type tr n entries s = some (left, s')) :
    Takes (dueCount tr.curtm entries) s s' ∧ s'.Recorded ∧ s'.log.entered = s.log.entered ∧
      s'.Reached (n + 1) := by
  induction entries generalizing s l left with
  | nil =>
    cases h
    refine ⟨⟨?_, fun hs => absurd hs (by rw [hskip]; decide)⟩, hrec, rfl, hreach⟩
    exact (Nat.min_eq_right (Nat.le_of_lt hopen)).symm
  | cons e rest ih =>
    unfold forwardEntries at h
    split at h
    · rename_i hdue
      rw [dueCount_cons, if_pos hdue]
      cases htake : takeEntry type tr s e with
      | none =>
        rw [htake] at h
        exact absurd h (by simp)
      | some s₁ =>
        rw [htake] at h
        obtain ⟨l₁, hok₁, hskip₁, -⟩ := takeEntry_spec hok hopen htake
        obtain ⟨hcount, htail⟩ := takeEntry_counts htake
        obtain ⟨hrec₁, hentered⟩ := takeEntry_log htake
        have hrec₁ := hrec₁ hrec hok₁.notFull
        dsimp only at h
        rw [hskip₁, hskip, if_neg (by decide)] at h
        split at h
        · rename_i hlimit
          cases h
          have hfull : s₁.dcounter = dcounterLimit := Nat.le_antisymm hok₁.limit hlimit
          have hlimit' : 10000 ≤ s₁.dcounter := hlimit
          refine ⟨⟨?_, fun _ => hfull⟩, ⟨hrec₁.1, hrec₁.2, hrec₁.3, hrec₁.4⟩, hentered, fun _ => ?_⟩
          · rw [Nat.min_eq_left (by omega)]
            exact hfull
          · rw [htail]
            exact hreach (by omega)
        · rename_i hlimit
          obtain ⟨⟨heq, hstop⟩, hrec', hentered', hreach'⟩ := ih
            (s := { s₁ with skipNext := false, mapTail := UInt32.ofNat (n + 1) })
            (hok₁.withFlags false (UInt32.ofNat (n + 1)) s₁.log) (Nat.lt_of_not_le hlimit) rfl
            ⟨hrec₁.1, hrec₁.2, hrec₁.3, hrec₁.4⟩
            (Pass.reached_set hn { s₁ with skipNext := false }) h
          refine ⟨⟨heq.trans ?_, hstop⟩, hrec', hentered'.trans hentered, hreach'⟩
          rw [hcount, Nat.add_assoc, Nat.add_comm 1]
    · rename_i hdue
      rw [dueCount_cons, if_neg hdue]
      obtain ⟨⟨left', s₁⟩, hrest, hr⟩ := map_eq_some_iff.mp h
      cases hr
      obtain ⟨htakes, hlog⟩ := ih (s := { s with mapTail := UInt32.ofNat (n + 1) })
        (hok.withFlags s.skipNext (UInt32.ofNat (n + 1)) s.log) hopen hskip
        ⟨hrec.1, hrec.2, hrec.3, hrec.4⟩ (Pass.reached_set hn s) hrest
      exact ⟨⟨htakes.1, htakes.2⟩, hlog⟩

/-- All maps, in the order of the pass, up to the one where it stops. -/
theorem forwardMaps_log {order : List (Fin 16)} {l : List CountEntry}
    {maps maps' : Fin 16 → List CountEntry} (hn : n + order.length ≤ 16) (hnodup : order.Nodup)
    (hok : s.Ok type l) (hopen : s.skipNext = false → s.dcounter < dcounterLimit)
    (hskip : s.skipNext = true → s.dcounter = dcounterLimit) (hrec : s.Recorded)
    (hreach : s.Reached n) (h : forwardMaps type tr n order maps s = some (maps', s')) :
    Takes (order.map fun i => dueCount tr.curtm (maps i)).sum s s' ∧ s'.Recorded ∧
      ∃ k ≤ order.length, s'.log.entered = s.log.entered ++ order.take k ∧
      s'.Reached (n + k) ∧ (s'.skipNext = false → k = order.length) := by
  induction order generalizing n maps s l with
  | nil =>
    cases h
    exact ⟨⟨(Nat.min_eq_right hok.limit).symm, hskip⟩, hrec, 0, Nat.le_refl 0, by simp, hreach,
      fun _ => rfl⟩
  | cons i order ih =>
    unfold forwardMaps at h
    split at h
    · rename_i hs
      cases h
      refine ⟨⟨?_, hskip⟩, hrec, 0, Nat.zero_le _, by simp, hreach,
        fun hf => absurd (hs.symm.trans hf) (by decide)⟩
      rw [hskip hs, Nat.min_eq_left (Nat.le_add_right _ _)]
    · rename_i hs
      cases hone : forwardEntries type tr n (maps i) { s with log := s.log.enter i } with
      | none =>
        rw [hone] at h
        exact absurd h (by simp)
      | some r =>
        obtain ⟨left, s₁⟩ := r
        rw [hone] at h
        have hs' : s.skipNext = false := Bool.eq_false_iff.mpr hs
        rw [length_cons] at hn
        have hok₀ := hok.withFlags s.skipNext s.mapTail (s.log.enter i)
        obtain ⟨l₁, hok₁, hopen₁, -, -⟩ := forwardEntries_spec hok₀ (hopen hs') hs' hone
        obtain ⟨⟨heq₁, hskip₁⟩, hrec₁, hentered₁, hreach₁⟩ :=
          forwardEntries_log (by omega) hok₀ (hopen hs') hs'
          ⟨hrec.1, hrec.2, hrec.3, hrec.4⟩
          (fun hd => ⟨(hreach hd).1, Nat.le_succ_of_le (hreach hd).2⟩) hone
        obtain ⟨hnotin, hrest⟩ := nodup_cons.mp hnodup
        obtain ⟨⟨heq, hstop⟩, hrec', k, hk, hentered', hreach', hall⟩ :=
          ih (by omega) hrest hok₁ hopen₁ hskip₁ hrec₁ hreach₁ h
        -- the maps still to come are as they were
        have hlater : (order.map fun j => dueCount tr.curtm (Function.update maps i left j)) =
            order.map fun j => dueCount tr.curtm (maps j) :=
          map_congr_left fun j hj => by
            rw [Function.update_of_ne (ne_of_mem_of_not_mem hj hnotin)]
        rw [hlater] at heq
        refine ⟨⟨?_, hstop⟩, hrec', k + 1, Nat.succ_le_succ hk, ?_, ?_,
          fun hf => congrArg (· + 1) (hall hf)⟩
        · dsimp only at heq₁
          rw [map_cons, sum_cons]
          omega
        · rw [hentered', hentered₁, take_succ_cons]
          exact append_assoc s.log.entered [i] _
        · rw [← Nat.add_assoc, Nat.add_right_comm]
          exact hreach'

end

/-- Where a pass ends: its counts, its record and its `map_tail`. -/
structure PassEnd (c : Counter) (curtm : Int) (c' : Counter) (log : PassLog) (s : Pass)
    (k : Nat) : Prop where
  total : transferRingBurst * s.ringid + s.counter = s.dcounter
  room : s.counter < transferRingBurst
  dcounter_eq : s.dcounter = min dcounterLimit (c.dueEntries curtm)
  recorded : s.Recorded
  log_eq : log = s.finish
  entered_eq : s.log.entered = (sortFrom c.cur).take k
  reached : s.Reached k
  all_or_limit : k = 16 ∨ s.dcounter = dcounterLimit
  cur_eq : c'.cur = nextCur c.cur s.mapTail

variable {type : UInt8} {tr : TransferCall} {log : PassLog} {next : UInt32}

theorem Counter.loggedTransfer_end {c c' : Counter}
    (h : c.loggedTransfer type tr = some (c', log, next)) :
    ∃ s k, PassEnd c tr.curtm c' log s k ∧ next = advanceCur (UInt32.ofNat c.cur.val) s.mapTail := by
  obtain ⟨⟨maps, s⟩, hpass, hr⟩ := map_eq_some_iff.mp h
  cases hr
  obtain ⟨junk, -, hmaps⟩ := bind_eq_some_iff.mp hpass
  have hstart := Pass.ok_start type junk tr.tail
  have hlength : (sortFrom c.cur).length = 16 :=
    (sortFrom_perm c.cur).length_eq.trans length_finRange
  have hopen : (0 : Nat) < dcounterLimit := by decide
  obtain ⟨l, hok, -, -⟩ := forwardMaps_spec hstart (fun _ => hopen) hmaps
  obtain ⟨⟨heq, hstop⟩, hrec, k, hk, hentered, hreach, hall⟩ := forwardMaps_log
    (by rw [hlength]) ((sortFrom_perm c.cur).nodup_iff.mpr (nodup_finRange 16)) hstart
    (fun _ => hopen) (fun hf : false = true => absurd hf (by decide)) ⟨rfl, rfl, rfl, rfl⟩
    (fun hf => absurd hf (Nat.lt_irrefl 0)) hmaps
  rw [c.sum_due] at heq
  refine ⟨s, k, ⟨hok.total, hok.room, heq.trans (by rw [Pass.start, Nat.zero_add]), hrec, rfl,
    hentered.trans (nil_append _), by rwa [Nat.zero_add] at hreach, ?_, rfl⟩, rfl⟩
  cases hskip : s.skipNext with
  | false => exact .inl ((hall hskip).trans hlength)
  | true => exact .inr (hstop hskip)

/-- Every buffer taken is passed on once or freed once. -/
def PassLog.Balanced (g : PassLog) : Prop := ∀ k ∈ g.allocated, (g.passed ++ g.freed).count k = 1

instance (g : PassLog) : Decidable g.Balanced := inferInstanceAs (Decidable (∀ _ ∈ _, _))

variable {s : Pass}

theorem Pass.Recorded.finish (h : s.Recorded) :
    s.finish.allocated = range (s.ringid + 1) ∧
      s.finish.passed ++ s.finish.freed = range s.ringid ++
        ((if 0 < s.counter then [s.ringid] else []) ++ if s.dcounter = 0 then [s.ringid] else []) := by
  unfold Pass.finish
  dsimp only
  by_cases hc : 0 < s.counter <;> by_cases hd : s.dcounter = 0 <;>
    simp [hc, hd, PassLog.free, PassLog.sendOrBuffer, h.allocated_eq, h.passed_eq, h.freed_eq,
      h.pring_eq]

theorem Pass.Recorded.balanced_finish (h : s.Recorded) :
    s.finish.Balanced ↔
      (if 0 < s.counter then 1 else 0) + (if s.dcounter = 0 then 1 else 0) = 1 := by
  obtain ⟨hallocated, hgone⟩ := h.finish
  have hcount (k : Nat) : (s.finish.passed ++ s.finish.freed).count k =
      (range s.ringid).count k + if k = s.ringid then
        (if 0 < s.counter then 1 else 0) + (if s.dcounter = 0 then 1 else 0) else 0 := by
    rw [hgone, count_append, count_append]
    by_cases hk : k = s.ringid
    · subst hk
      split <;> split <;> simp
    · have hk' : s.ringid ≠ k := fun heq => hk heq.symm
      split <;> split <;> simp [hk']
  have hlast : (range s.ringid).count s.ringid = 0 :=
    count_eq_zero.mpr fun hmem => Nat.lt_irrefl _ (mem_range.mp hmem)
  constructor
  · intro hall
    have hthis := hall s.ringid (by rw [hallocated]; exact mem_range.mpr (Nat.lt_succ_self _))
    rwa [hcount, hlast, if_pos rfl, Nat.zero_add] at hthis
  · intro hone k hk
    rw [hallocated, range_succ, mem_append, mem_singleton] at hk
    rw [hcount]
    rcases hk with hk | rfl
    · rw [if_neg (Nat.ne_of_lt (mem_range.mp hk)), count_eq_one_of_mem nodup_range hk]
    · rw [if_pos rfl, hlast, Nat.zero_add]
      exact hone

/-- **Buffers.** A pass has passed on or freed every buffer it has taken, once, exactly when the
entries it hands over are none, or so many that it stops at 10000, or no multiple of 64. -/
theorem forwardTransfer_balanced_iff (type : UInt8) (tr : TransferCall) (c c' : Counter)
    (log : PassLog) (next : UInt32) (h : c.loggedTransfer type tr = some (c', log, next)) :
    log.Balanced ↔
      c.dueEntries tr.curtm = 0 ∨ 10000 ≤ c.dueEntries tr.curtm ∨ ¬ 64 ∣ c.dueEntries tr.curtm := by
  obtain ⟨s, k, hend, -⟩ := loggedTransfer_end h
  have htotal : 64 * s.ringid + s.counter = s.dcounter := hend.total
  have hroom : s.counter < 64 := hend.room
  have hd : s.dcounter = min 10000 (c.dueEntries tr.curtm) := hend.dcounter_eq
  rw [hend.log_eq, hend.recorded.balanced_finish]
  by_cases hc : 0 < s.counter
  · rw [if_pos hc, if_neg (by omega)]
    refine iff_of_true rfl ?_
    omega
  · rw [if_neg hc]
    by_cases hz : s.dcounter = 0
    · rw [if_pos hz]
      exact iff_of_true rfl (.inl (by omega))
    · rw [if_neg hz]
      refine iff_of_false (by decide) ?_
      omega

def countedKeys (n : Nat) : Option Counter :=
  Counter.new.run 0xff ((range n).map fun k =>
    .counting ⟨UInt32.ofNat k, 100, 0, 0, ⟨id, fun l => .refl l⟩⟩)

/-- Sixty-four keys: a pass takes two buffers and passes on one. -/
theorem forwardTransfer_loses_buffer :
    ((countedKeys 64).bind fun c =>
      (c.loggedTransfer 0xff ⟨120, fun _ => some 0, 0⟩).map fun r =>
        (r.2.1.allocated, r.2.1.passed, r.2.1.freed, decide r.2.1.Balanced)) =
      some ([0, 1], [0], [], false) := by
  decide +kernel

theorem forwardTransfer_balanced_sixtyFive :
    ∃ c c' log next, countedKeys 65 = some c ∧
      c.loggedTransfer 0xff ⟨120, fun _ => some 0, 0⟩ = some (c', log, next) ∧ log.Balanced := by
  have hc : (countedKeys 65).isSome = true := by decide +kernel
  obtain ⟨c, hc⟩ := isSome_iff_exists.mp hc
  have hdue : (countedKeys 65).map (fun c => c.dueEntries 120) = some 65 := by decide +kernel
  rw [hc, map_some, some.injEq] at hdue
  have hsome : (c.loggedTransfer 0xff ⟨120, fun _ => some 0, 0⟩).isSome = true :=
    isSome_map.trans (pass_isSome (fun _ => rfl) c)
  obtain ⟨⟨c', log, next⟩, hr⟩ := isSome_iff_exists.mp hsome
  refine ⟨c, c', log, next, hc, hr, ?_⟩
  rw [forwardTransfer_balanced_iff 0xff _ c c' log next hr]
  exact .inr (.inr (by rw [hdue]; decide))

/-! ## 4. Sixteen passes enter every map -/

/-- How many maps a pass enters before map `i`. -/
def ahead (cur i : Fin 16) : Nat := (i - cur).val

theorem getElem?_sortFrom (cur i : Fin 16) : (sortFrom cur)[ahead cur i]? = some i := by
  revert cur i
  decide +kernel

theorem mem_take_sortFrom {cur i : Fin 16} {k : Nat} (h : ahead cur i < k) :
    i ∈ (sortFrom cur).take k := by
  refine mem_iff_getElem?.mpr ⟨ahead cur i, ?_⟩
  rw [getElem?_take_of_lt h]
  exact getElem?_sortFrom cur i

/-- The next pass begins nearer to map `i` by what this one went on. -/
theorem ahead_nextCur {cur i : Fin 16} {mapTail : UInt32} (hle : mapTail.toNat ≤ ahead cur i) :
    ahead (nextCur cur mapTail) i + mapTail.toNat = ahead cur i := by
  have hlt : ahead cur i < 16 := (i - cur).isLt
  have hne : mapTail ≠ 16 := by
    rintro rfl
    exact absurd (Nat.lt_of_le_of_lt hle hlt) (by decide)
  have hsum : (UInt32.ofNat cur.val + mapTail).toNat = cur.val + mapTail.toNat := by
    rw [UInt32.toNat_add, UInt32.toNat_ofNat']
    omega
  have hnext : (nextCur cur mapTail).val = (cur.val + mapTail.toNat) % 16 := by
    unfold nextCur
    rw [if_neg hne, hsum]
    rfl
  unfold ahead at hle ⊢
  rw [Fin.sub_def] at hle ⊢
  rw [Fin.sub_def]
  dsimp only at hle ⊢
  rw [hnext]
  omega

theorem Counter.loggedTransfer_entered {c c' : Counter}
    (h : c.loggedTransfer type tr = some (c', log, next))
    (i : Fin 16) : i ∈ log.entered ∨ ahead c'.cur i < ahead c.cur i := by
  obtain ⟨s, k, hend, -⟩ := loggedTransfer_end h
  have hentered : log.entered = (sortFrom c.cur).take k := by
    rw [hend.log_eq, ← hend.entered_eq]
    unfold Pass.finish
    dsimp only
    split <;> split <;> rfl
  rw [hentered, hend.cur_eq]
  by_cases hk : ahead c.cur i < k
  · exact .inl (mem_take_sortFrom hk)
  · -- fewer than sixteen maps: the pass was stopped by the limit
    right
    have hlimit : s.dcounter = dcounterLimit := hend.all_or_limit.resolve_left fun h16 =>
      hk (h16 ▸ (i - c.cur).isLt)
    obtain ⟨hone, htail⟩ := hend.reached (by rw [hlimit]; decide)
    have hcloser := ahead_nextCur (htail.trans (Nat.le_of_not_lt hk))
    omega

def transfers (es : List CounterEvent) : Nat :=
  es.countP fun | .transfer _ => true | .counting _ => false

/-- A pass of the history, with the states around it. -/
structure PassAt (type : UInt8) (c : Counter) (es before : List CounterEvent) (tr : TransferCall)
    (c₁ c₂ : Counter) (log : PassLog) (next : UInt32) : Prop where
  begins : before ++ [.transfer tr] <+: es
  run_eq : c.run type before = some c₁
  logged : c₁.loggedTransfer type tr = some (c₂, log, next)

theorem Counter.count_cur (c : Counter) (call : CountCall) : (c.count call).cur = c.cur := by
  unfold count
  split <;> rfl

/-- **Every map gets its turn**: each pass brings it nearer. -/
theorem Counter.run_enters {es : List CounterEvent} {c s : Counter} {i : Fin 16}
    (hrun : c.run type es = some s) (h : ahead c.cur i < transfers es) :
    ∃ before tr c₁ c₂ log next, PassAt type c es before tr c₁ c₂ log next ∧ i ∈ log.entered := by
  induction es generalizing c with
  | nil => exact absurd h (Nat.not_lt_zero _)
  | cons e es ih =>
    obtain ⟨c₀, hstep, hrest⟩ := bind_eq_some_iff.mp hrun
    -- a pass of the rest is one of the whole history
    have hlater (hnear : ahead c₀.cur i < transfers es) : ∃ before tr c₁ c₂ log next,
        PassAt type c (e :: es) before tr c₁ c₂ log next ∧ i ∈ log.entered := by
      obtain ⟨before, tr, c₁, c₂, log, next, ⟨hbegins, hbefore, hlogged⟩, hmem⟩ := ih hrest hnear
      refine ⟨e :: before, tr, c₁, c₂, log, next, ⟨?_, ?_, hlogged⟩, hmem⟩
      · exact (prefix_cons_inj e).mpr hbegins
      · exact bind_eq_some_iff.mpr ⟨c₀, hstep, hbefore⟩
    cases e with
    | counting call =>
      cases hstep
      refine hlater ?_
      rw [c.count_cur]
      exact h
    | transfer tr =>
      have hlogged : (c.loggedTransfer type tr).map Prod.fst = some c₀ :=
        c.loggedTransfer_fst.trans hstep
      obtain ⟨⟨c₂, log, next⟩, hr, rfl⟩ := map_eq_some_iff.mp hlogged
      rcases loggedTransfer_entered hr i with hmem | hcloser
      · exact ⟨[], tr, c, c₂, log, next, ⟨⟨es, rfl⟩, rfl, hr⟩, hmem⟩
      · have hcount : transfers (.transfer tr :: es) = transfers es + 1 :=
          countP_cons_of_pos rfl
        have hnear : ahead c₂.cur i < transfers es := by omega
        exact hlater hnear

theorem advanceCur_lt (cur mapTail : UInt32) : advanceCur cur mapTail < 16 := by
  unfold advanceCur
  split
  · decide
  · split
    · exact UInt32.mod_lt _ (by decide)
    · rename_i hlt
      exact UInt32.not_le.mp hlt

theorem toNat_advanceCur (cur : Fin 16) (mapTail : UInt32) :
    (advanceCur (UInt32.ofNat cur.val) mapTail).toNat = (nextCur cur mapTail).val := by
  unfold advanceCur nextCur
  split
  · rfl
  · split
    · exact UInt32.toNat_mod _ _
    · rename_i hlt
      exact (Nat.mod_eq_of_lt (UInt32.not_le.mp hlt)).symm

/-- **Fairness.** With sixteen passes, each of the maps is entered, at its beginning, by one of
them; and the start position that a pass leaves to the run behind it is between 0 and 15. -/
theorem forwardTransfer_fair (type : UInt8) (c s : Counter) (es : List CounterEvent)
    (hrun : c.run type es = some s) :
    (16 ≤ transfers es → ∀ i, ∃ before tr c₁ c₂ log next,
      PassAt type c es before tr c₁ c₂ log next ∧ i ∈ log.entered) ∧
      ∀ before tr c₁ c₂ log next, PassAt type c es before tr c₁ c₂ log next →
        c.run type (before ++ [.transfer tr]) = some c₂ ∧ next < 16 ∧ c₂.cur.val = next.toNat := by
  refine ⟨fun h16 i => ?_, fun before tr c₁ c₂ log next hat => ?_⟩
  · exact run_enters hrun (Nat.lt_of_lt_of_le (i - c.cur).isLt h16)
  · obtain ⟨s₁, k, hend, rfl⟩ := loggedTransfer_end hat.logged
    refine ⟨?_, advanceCur_lt _ _, ?_⟩
    · have hstep : c₁.forwardTransfer type tr = some c₂ := by
        rw [← c₁.loggedTransfer_fst, hat.logged, map_some]
      unfold run
      rw [foldlM_append]
      exact bind_eq_some_iff.mpr ⟨c₁, hat.run_eq, bind_eq_some_iff.mpr ⟨c₂, hstep, rfl⟩⟩
    · rw [toNat_advanceCur, hend.cur_eq]

/-- Sixteen rounds: a packet of key `k`, and a pass that finds it due. -/
def sixteenRounds : List CounterEvent :=
  (range 16).flatMap fun k =>
    [.counting ⟨UInt32.ofNat k, 100, 0, 0, ⟨id, fun l => .refl l⟩⟩,
      .transfer ⟨100, fun _ => some 0, 0⟩]

theorem forwardTransfer_fair_sixteen :
    ∃ s, Counter.new.run 0xff sixteenRounds = some s ∧ s.handed.length = 16 ∧
      ∀ i : Fin 16, ∃ before tr c₁ c₂ log next,
        PassAt 0xff Counter.new sixteenRounds before tr c₁ c₂ log next ∧ i ∈ log.entered := by
  have hhanded : (Counter.new.run 0xff sixteenRounds).map (fun s => s.handed.length) = some 16 := by
    decide +kernel
  obtain ⟨s, hs, hlen⟩ := map_eq_some_iff.mp hhanded
  exact ⟨s, hs, hlen, (forwardTransfer_fair 0xff _ s _ hs).1 (by decide)⟩

end MixiPgw.Data
