/-
# The counter core hands over what it has counted

`ForwardTransfer` goes through the maps, from where it stopped the last time, puts the entries that
are large or old into packets of up to 64 and takes them out of their map while it iterates. It
stops early after 10000 entries; a second reason to stop, 1024 packets, would leave an entry in its
map although it has been sent. `counter_conserves` is for every history of calls.
-/
import MixiPgw.Data.Counting

namespace MixiPgw.Data

open Lib List Option Function CountingPacket CountEntry
open scoped List

/-! ## 1. `ForwardTransfer` -/

def transferRingBurst : Nat := 64
def transferRingSz : Nat := 1024
def thresholdTransfer : UInt32 := 1024 * 1024
def dcounterLimit : Nat := 10000

/-- What a pass meets: the time, what each `rte_pktmbuf_alloc` finds where the count will be (`none`
ends the process), and what lies at `map_tail`. -/
structure TransferCall where
  curtm : Int
  alloc : Nat → Option UInt32
  tail : UInt32

def CountEntry.due (e : CountEntry) (curtm : Int) : Bool :=
  thresholdTransfer < e.item.used || (e.item.key.toNat : Int) < curtm - 60

/-- What a pass has done with its buffers, by the number of their allocation, and the maps it has
begun. No branch looks at it. -/
structure PassLog where
  pring : Nat
  allocated : List Nat
  passed : List Nat
  freed : List Nat
  entered : List (Fin 16)

def PassLog.alloc (g : PassLog) : PassLog :=
  { g with pring := g.allocated.length, allocated := g.allocated ++ [g.allocated.length] }

def PassLog.sendOrBuffer (g : PassLog) : PassLog := { g with passed := g.passed ++ [g.pring] }

def PassLog.free (g : PassLog) : PassLog := { g with freed := g.freed ++ [g.pring] }

def PassLog.enter (g : PassLog) (i : Fin 16) : PassLog := { g with entered := g.entered ++ [i] }

/-- The variables of a pass; `sent` are its calls of `SendOrBuffer`. -/
structure Pass where
  pring : CountingPacket
  counter : Nat
  dcounter : Nat
  ringid : Nat
  skipNext : Bool
  mapTail : UInt32
  sent : List CountingPacket
  ringFull : Bool
  log : PassLog

def CountingPacket.put (p : CountingPacket) (counter : Nat) (e : CountEntry) : CountingPacket :=
  { p with slot := update p.slot counter (some e), count := UInt32.ofNat (counter + 1) }

def CountingPacket.fresh (type : UInt8) (junk : UInt32) : CountingPacket :=
  ⟨type, junk, fun _ => none⟩

def Pass.start (type : UInt8) (junk tail : UInt32) : Pass :=
  ⟨.fresh type junk, 0, 0, 0, false, tail, [], false, ⟨0, [0], [], [], []⟩⟩

section

variable (type : UInt8) (tr : TransferCall)

/-- `if (counter >= TRANSFER_RING_BURST) …`. -/
def sendFull (s : Pass) : Option Pass :=
  if transferRingBurst ≤ s.counter then
    let s := { s with
      sent := s.sent ++ [s.pring], counter := 0, ringid := s.ringid + 1, log := s.log.sendOrBuffer }
    if transferRingSz ≤ s.ringid then some { s with skipNext := true, ringFull := true }
    else (tr.alloc s.ringid).map fun junk => { s with pring := .fresh type junk, log := s.log.alloc }
  else some s

def takeEntry (s : Pass) (e : CountEntry) : Option Pass :=
  sendFull type tr
    { s with
      pring := s.pring.put s.counter e
      counter := s.counter + 1
      dcounter := s.dcounter + 1 }

def forwardEntries (n : Nat) : List CountEntry → Pass → Option (List CountEntry × Pass)
  | [], s => some ([], s)
  | e :: rest, s =>
    if e.due tr.curtm then
      match takeEntry type tr s e with
      | none => none
      | some s =>
        -- this `break` comes before the `erase`
        if s.skipNext then some (e :: rest, s)
        else if dcounterLimit ≤ s.dcounter then some (rest, { s with skipNext := true })
        else forwardEntries n rest { s with mapTail := UInt32.ofNat (n + 1) }
    else
      (forwardEntries n rest { s with mapTail := UInt32.ofNat (n + 1) }).map fun r =>
        (e :: r.1, r.2)

/-- The loop over `sort[n]`, `sort[n + 1]`, …. -/
def forwardMaps : Nat → List (Fin 16) → (Fin 16 → List CountEntry) → Pass →
    Option ((Fin 16 → List CountEntry) × Pass)
  | _, [], maps, s => some (maps, s)
  | n, i :: rest, maps, s =>
    if s.skipNext then some (maps, s)
    else
      match forwardEntries type tr n (maps i) { s with log := s.log.enter i } with
      | none => none
      | some (left, s) => forwardMaps (n + 1) rest (update maps i left) s

def sortFrom (cur : Fin 16) : List (Fin 16) :=
  (finRange 16).drop cur.val ++ (finRange 16).take cur.val

/-- `cur_` for the next pass, in 32 bits, so that even a `map_tail` that was never set leads to a
map. -/
def nextCur (cur : Fin 16) (mapTail : UInt32) : Fin 16 :=
  if mapTail = 16 then 0 else Fin.ofNat 16 (UInt32.ofNat cur.val + mapTail).toNat

/-- The loops of `ForwardTransfer`, from the first buffer on. -/
def Counter.pass (c : Counter) : Option ((Fin 16 → List CountEntry) × Pass) :=
  (tr.alloc 0).bind fun junk =>
    forwardMaps type tr 0 (sortFrom c.cur) c.maps (.start type junk tr.tail)

/-- Behind the loops: the packet at hand goes out if there is anything in it. -/
def Counter.afterPass (c : Counter) (maps : Fin 16 → List CountEntry) (s : Pass) : Counter :=
  { c with
    maps := maps
    cur := nextCur c.cur s.mapTail
    handed := c.handed ++ s.sent ++ if 0 < s.counter then [s.pring] else []
    ringFull := c.ringFull || s.ringFull }

def Counter.forwardTransfer (c : Counter) : Option Counter :=
  (c.pass type tr).map fun r => c.afterPass r.1 r.2

end

/-! ## 2. Entries only move -/

/-- **A packet as it is handed over**: 1 to 64 items, and the count says how many. -/
structure Filled (type : UInt8) (p : CountingPacket) : Prop where
  type_eq : p.type = type
  one_le : 1 ≤ p.count.toNat
  le_burst : p.count.toNat ≤ transferRingBurst
  filled : ∀ i, (p.slot i).isSome = true ↔ i < p.count.toNat

def Holds (p : CountingPacket) (l : List CountEntry) : Prop := ∀ i, p.slot i = l[i]?

variable {l : List CountEntry}

theorem Holds.put {p : CountingPacket} (h : Holds p l) (e : CountEntry) :
    Holds (p.put l.length e) (l ++ [e]) := by
  intro i
  unfold CountingPacket.put
  dsimp only
  rcases Nat.lt_trichotomy i l.length with hi | rfl | hi
  · rw [update_of_ne (Nat.ne_of_lt hi), h i, getElem?_append_left hi]
  · simp
  · rw [update_of_ne (Nat.ne_of_gt hi), h i, getElem?_eq_none (Nat.le_of_lt hi),
      getElem?_eq_none (by rw [length_append, length_singleton]; exact hi)]

theorem filterMap_range_getElem? (l : List CountEntry) :
    (range l.length).filterMap (fun i => l[i]?) = l := by
  induction l using reverseRecOn with
  | nil => rfl
  | append_singleton l e ih =>
    rw [length_append, length_singleton, range_succ, filterMap_append]
    have hinit : (range l.length).filterMap (fun i => (l ++ [e])[i]?) =
        (range l.length).filterMap fun i => l[i]? :=
      filterMap_congr fun i hi => getElem?_append_left (mem_range.mp hi)
    rw [hinit, ih]
    simp

theorem Holds.filled {type : UInt8} {p : CountingPacket} (h : Holds p l)
    (htype : p.type = type) (hcount : p.count = UInt32.ofNat l.length) (hpos : 0 < l.length)
    (hle : l.length ≤ transferRingBurst) : Filled type p ∧ p.items = l := by
  have hlt : l.length < 4294967296 := Nat.lt_of_le_of_lt hle (by decide)
  have hnat : p.count.toNat = l.length := by
    rw [hcount]
    exact Nat.mod_eq_of_lt hlt
  refine ⟨⟨htype, by omega, by omega, fun i => ?_⟩, ?_⟩
  · rw [h i, hnat]
    simp
  · unfold items
    rw [hnat, funext h, filterMap_range_getElem?]

/-- A pass whose packet at hand holds `l`. With at most 10000 entries there are at most 156 full
packets. -/
structure Pass.Ok (type : UInt8) (s : Pass) (l : List CountEntry) : Prop where
  holds : Holds s.pring l
  type_eq : s.pring.type = type
  length_eq : l.length = s.counter
  count_eq : 0 < s.counter → s.pring.count = UInt32.ofNat s.counter
  room : s.counter < transferRingBurst
  total : transferRingBurst * s.ringid + s.counter = s.dcounter
  limit : s.dcounter ≤ dcounterLimit
  sent : ∀ p ∈ s.sent, Filled type p
  notFull : s.ringFull = false

def Pass.taken (s : Pass) (l : List CountEntry) : List CountEntry :=
  s.sent.flatMap items ++ l

section

variable {type : UInt8} {tr : TransferCall} {s s' : Pass} {l : List CountEntry}

theorem takeEntry_spec (hok : s.Ok type l) (hopen : s.dcounter < dcounterLimit) {e : CountEntry}
    (h : takeEntry type tr s e = some s') :
    ∃ l', s'.Ok type l' ∧ s'.skipNext = s.skipNext ∧ s'.taken l' = s.taken l ++ [e] := by
  have hholds : Holds (s.pring.put s.counter e) (l ++ [e]) := hok.length_eq ▸ hok.holds.put e
  have hlen : (l ++ [e]).length = s.counter + 1 := by
    rw [length_append, length_singleton, hok.length_eq]
  have hroom := hok.room
  have htotal := hok.total
  unfold takeEntry sendFull at h
  split at h
  · rename_i hfull
    have hfull' : transferRingBurst ≤ s.counter + 1 := hfull
    obtain ⟨hfilled, hitems⟩ := hholds.filled hok.type_eq
      (by rw [hlen]; rfl) (by omega) (by omega)
    dsimp only at h
    split at h
    · rename_i hring
      -- 1024 packets of 64 entries would be more than the limit
      have hring' : 1024 ≤ s.ringid + 1 := hring
      have hfew : s.dcounter < 10000 := hopen
      have htotal' : 64 * s.ringid + s.counter = s.dcounter := htotal
      omega
    · obtain ⟨junk, -, rfl⟩ := map_eq_some_iff.mp h
      refine ⟨[], ⟨fun _ => rfl, rfl, rfl, fun h0 => absurd h0 (Nat.lt_irrefl 0),
        show 0 < transferRingBurst by decide, ?_, hopen, ?_, hok.notFull⟩, rfl, ?_⟩
      · show transferRingBurst * (s.ringid + 1) + 0 = s.dcounter + 1
        rw [Nat.mul_succ]
        omega
      · intro p hp
        rcases mem_append.mp hp with hp | hp
        · exact hok.sent p hp
        · rw [mem_singleton.mp hp]
          exact hfilled
      · simp [Pass.taken, hitems]
  · rename_i hfull
    cases h
    refine ⟨l ++ [e], ⟨hholds, hok.type_eq, hlen, fun _ => rfl, Nat.lt_of_not_le hfull, ?_, hopen,
      hok.sent, hok.notFull⟩, rfl, ?_⟩
    · show transferRingBurst * s.ringid + (s.counter + 1) = s.dcounter + 1
      omega
    · simp [Pass.taken]

theorem Pass.Ok.withFlags (hok : s.Ok type l) (skipNext : Bool) (mapTail : UInt32) (log : PassLog) :
    Pass.Ok type { s with skipNext := skipNext, mapTail := mapTail, log := log } l :=
  ⟨hok.holds, hok.type_eq, hok.length_eq, hok.count_eq, hok.room, hok.total, hok.limit, hok.sent,
    hok.notFull⟩

theorem forwardEntries_spec {n : Nat} {entries left : List CountEntry} (hok : s.Ok type l)
    (hopen : s.dcounter < dcounterLimit) (hskip : s.skipNext = false)
    (h : forwardEntries type tr n entries s = some (left, s')) :
    ∃ l', s'.Ok type l' ∧ (s'.skipNext = false → s'.dcounter < dcounterLimit) ∧
      left.Sublist entries ∧ (s'.taken l' ++ left).Perm (s.taken l ++ entries) := by
  induction entries generalizing s l left with
  | nil =>
    cases h
    exact ⟨l, hok, fun _ => hopen, .slnil, .refl _⟩
  | cons e rest ih =>
    unfold forwardEntries at h
    split at h
    · cases htake : takeEntry type tr s e with
      | none =>
        rw [htake] at h
        cases h
      | some s₁ =>
        rw [htake] at h
        obtain ⟨l₁, hok₁, hskip₁, htaken₁⟩ := takeEntry_spec hok hopen htake
        have hmoved : (s₁.taken l₁ ++ rest).Perm (s.taken l ++ e :: rest) := by
          rw [htaken₁, append_assoc, singleton_append]
        dsimp only at h
        rw [hskip₁, hskip, if_neg (by decide)] at h
        split at h
        · cases h
          exact ⟨l₁, hok₁.withFlags true s₁.mapTail s₁.log,
            fun hf : true = false => absurd hf (by decide), sublist_cons_self e _, hmoved⟩
        · rename_i hlimit
          obtain ⟨l', hok', hopen', hsub, hperm⟩ := ih
            (hok₁.withFlags false (UInt32.ofNat (n + 1)) s₁.log) (Nat.lt_of_not_le hlimit) rfl h
          exact ⟨l', hok', hopen', hsub.trans (sublist_cons_self e rest), hperm.trans hmoved⟩
    · obtain ⟨⟨left', s₁⟩, hrest, hr⟩ := map_eq_some_iff.mp h
      cases hr
      obtain ⟨l', hok', hopen', hsub, hperm⟩ := ih
        (hok.withFlags s.skipNext (UInt32.ofNat (n + 1)) s.log) hopen hskip hrest
      refine ⟨l', hok', hopen', hsub.cons_cons e, ?_⟩
      exact perm_middle.trans ((hperm.cons e).trans perm_middle.symm)

theorem forwardMaps_spec {order : List (Fin 16)} {n : Nat} {maps maps' : Fin 16 → List CountEntry}
    (hok : s.Ok type l) (hopen : s.skipNext = false → s.dcounter < dcounterLimit)
    (h : forwardMaps type tr n order maps s = some (maps', s')) :
    ∃ l', s'.Ok type l' ∧ (∀ i, (maps' i).Sublist (maps i)) ∧
      (s'.taken l' ++ (finRange 16).flatMap maps').Perm
        (s.taken l ++ (finRange 16).flatMap maps) := by
  induction order generalizing n maps s l with
  | nil =>
    cases h
    exact ⟨l, hok, fun _ => .refl _, .refl _⟩
  | cons i order ih =>
    unfold forwardMaps at h
    split at h
    · cases h
      exact ⟨l, hok, fun _ => .refl _, .refl _⟩
    · rename_i hskip
      cases hone : forwardEntries type tr n (maps i) { s with log := s.log.enter i } with
      | none =>
        rw [hone] at h
        cases h
      | some r =>
        obtain ⟨left, s₁⟩ := r
        rw [hone] at h
        have hskip' : s.skipNext = false := Bool.eq_false_iff.mpr hskip
        obtain ⟨l₁, hok₁, hopen₁, hsub₁, hperm₁⟩ :=
          forwardEntries_spec (hok.withFlags _ _ (s.log.enter i)) (hopen hskip') hskip' hone
        obtain ⟨l', hok', hsub', hperm'⟩ := ih hok₁ hopen₁ h
        obtain ⟨others, hbefore, hafter⟩ :=
          exists_rest_flatMap (nodup_finRange 16) (mem_finRange i) maps
        refine ⟨l', hok', fun j => (hsub' j).trans ?_, hperm'.trans ?_⟩
        · by_cases hj : j = i
          · rw [hj, update_self]
            exact hsub₁
          · rw [update_of_ne hj]
        · calc s₁.taken l₁ ++ (finRange 16).flatMap (update maps i left)
            _ ~ s₁.taken l₁ ++ (left ++ others) := (hafter left).append_left _
            _ = (s₁.taken l₁ ++ left) ++ others := (append_assoc ..).symm
            _ ~ (s.taken l ++ maps i) ++ others := hperm₁.append_right _
            _ = s.taken l ++ (maps i ++ others) := append_assoc ..
            _ ~ s.taken l ++ (finRange 16).flatMap maps := hbefore.symm.append_left _

end

theorem Pass.ok_start (type : UInt8) (junk tail : UInt32) : (Pass.start type junk tail).Ok type [] :=
  ⟨fun _ => rfl, rfl, rfl, fun h0 => absurd h0 (Nat.lt_irrefl 0),
    show 0 < transferRingBurst by decide, rfl, Nat.zero_le _,
    fun p hp => absurd hp not_mem_nil, rfl⟩

theorem Counter.forwardTransfer_spec {type : UInt8} {tr : TransferCall} {c c' : Counter}
    (h : c.forwardTransfer type tr = some c') :
    ∃ sent, c'.handed = c.handed ++ sent ∧ (∀ p ∈ sent, Filled type p) ∧
      sent.flatMap items ++ c'.remaining ~ c.remaining ∧
      (∀ i, (c'.maps i).Sublist (c.maps i)) ∧ c'.made = c.made ∧ c'.ringFull = c.ringFull := by
  obtain ⟨⟨maps, s⟩, hpass, rfl⟩ := map_eq_some_iff.mp h
  obtain ⟨junk, -, hmaps⟩ := bind_eq_some_iff.mp hpass
  obtain ⟨l, hok, hsub, hperm⟩ := forwardMaps_spec (Pass.ok_start type junk tr.tail)
    (fun _ => show 0 < dcounterLimit by decide) hmaps
  -- the packet at hand is sent if there is anything in it
  obtain ⟨hlast, hitems⟩ : (∀ p ∈ (if 0 < s.counter then [s.pring] else []), Filled type p) ∧
      (if 0 < s.counter then [s.pring] else []).flatMap items = l := by
    by_cases hpos : 0 < s.counter
    · obtain ⟨hfilled, hitems⟩ := hok.holds.filled hok.type_eq
        (by rw [hok.length_eq, hok.count_eq hpos]) (by rw [hok.length_eq]; exact hpos)
        (by rw [hok.length_eq]; exact Nat.le_of_lt hok.room)
      rw [if_pos hpos]
      exact ⟨fun p hp => mem_singleton.mp hp ▸ hfilled, by simpa using hitems⟩
    · have hnil : l = [] := length_eq_zero_iff.mp (hok.length_eq.trans (by omega))
      rw [if_neg hpos, hnil]
      exact ⟨fun p hp => absurd hp not_mem_nil, rfl⟩
  refine ⟨s.sent ++ if 0 < s.counter then [s.pring] else [], append_assoc .., ?_, ?_, hsub,
    rfl, by simp [Counter.afterPass, hok.notFull]⟩
  · intro p hp
    exact (mem_append.mp hp).elim (hok.sent p) (hlast p)
  · rw [flatMap_append, hitems]
    simpa [Pass.taken, Pass.start, Counter.remaining, Counter.afterPass] using hperm

/-! ## 3. Histories -/

inductive CounterEvent
  | counting (c : CountCall)
  | transfer (tr : TransferCall)

def CounterEvent.step (type : UInt8) (s : Counter) : CounterEvent → Option Counter
  | .counting c => some (s.count c)
  | .transfer tr => s.forwardTransfer type tr

def CounterEvent.share (key : UInt32) (col : CountColumn) : CounterEvent → UInt32
  | .counting c => c.share key col
  | .transfer _ => 0

/-- The bytes counted for a key in a column, modulo 2^32. -/
def historyBytes (key : UInt32) (col : CountColumn) (es : List CounterEvent) : UInt32 :=
  (es.map (CounterEvent.share key col)).sum

def Counter.run (type : UInt8) (s : Counter) (es : List CounterEvent) : Option Counter :=
  es.foldlM (CounterEvent.step type) s

/-- **The bytes counted are handed over or in the maps, every entry is in one place.** -/
structure Counter.Conserved (type : UInt8) (total : UInt32 → CountColumn → UInt32) (s : Counter) :
    Prop where
  amount_eq : ∀ key col, amount key col s.handedItems + amount key col s.remaining = total key col
  linear : s.ledger.Linear
  filled : ∀ p ∈ s.handed, Filled type p
  notFull : s.ringFull = false

section

variable {type : UInt8} {s s' : Counter} {total : UInt32 → CountColumn → UInt32}

theorem Counter.Conserved.count (h : s.Conserved type total) (c : CountCall) :
    (s.count c).Conserved type fun key col => total key col + c.share key col := by
  have hhanded : (s.count c).handed = s.handed ∧ (s.count c).ringFull = s.ringFull := by
    unfold Counter.count
    split <;> exact ⟨rfl, rfl⟩
  obtain ⟨ks, hfiled, hks⟩ := s.filed_count c
  refine ⟨fun key col => ?_, (hfiled.linear_iff h.linear.numbered).mpr ⟨h.linear, hks⟩, ?_, ?_⟩
  · unfold Counter.handedItems
    rw [hhanded.1, s.amount_count, ← add_assoc]
    exact congrArg (· + c.share key col) (h.amount_eq key col)
  · rw [hhanded.1]
    exact h.filled
  · rw [hhanded.2]
    exact h.notFull

theorem Counter.Conserved.transfer (h : s.Conserved type total) {tr : TransferCall}
    (hstep : s.forwardTransfer type tr = some s') : s'.Conserved type total := by
  obtain ⟨sent, hhanded, hfilled, hperm, -, hmade, hring⟩ := Counter.forwardTransfer_spec hstep
  have hmoved : s'.handedItems ++ s'.remaining ~ s.handedItems ++ s.remaining := by
    unfold Counter.handedItems
    rw [hhanded, flatMap_append, append_assoc]
    exact hperm.append_left _
  refine ⟨fun key col => ?_, ?_, fun p hp => ?_, hring.trans h.notFull⟩
  · rw [← amount_append, amount_perm hmoved, amount_append]
    exact h.amount_eq key col
  · have hfiled : Ledger.Filed [] s.ledger s'.ledger :=
      .moved hmade (hmoved.map serial)
    exact (hfiled.linear_iff h.linear.numbered).mpr
      ⟨h.linear, fun k hk => absurd hk not_mem_nil⟩
  · rw [hhanded] at hp
    exact (mem_append.mp hp).elim (h.filled p) (hfilled p)

theorem Counter.Conserved.step (h : s.Conserved type total) {e : CounterEvent}
    (hstep : e.step type s = some s') :
    s'.Conserved type fun key col => total key col + e.share key col := by
  cases e with
  | counting c =>
    cases hstep
    exact h.count c
  | transfer tr =>
    have hkeep := h.transfer hstep
    exact ⟨fun key col => by simpa [CounterEvent.share] using hkeep.amount_eq key col, hkeep.linear,
      hkeep.filled, hkeep.notFull⟩

theorem Counter.Conserved.run {es : List CounterEvent} (h : s.Conserved type total)
    (hrun : s.run type es = some s') :
    s'.Conserved type fun key col => total key col + historyBytes key col es := by
  induction es generalizing s total with
  | nil =>
    obtain rfl := some.inj hrun
    exact ⟨fun key col => by simpa [historyBytes] using h.amount_eq key col, h.linear, h.filled,
      h.notFull⟩
  | cons e es ih =>
    obtain ⟨s₁, hs₁, hrest⟩ := bind_eq_some_iff.mp hrun
    have hlast := ih (h.step hs₁) hrest
    refine ⟨fun key col => ?_, hlast.linear, hlast.filled, hlast.notFull⟩
    have hcons : historyBytes key col (e :: es) = e.share key col + historyBytes key col es :=
      sum_cons
    rw [hlast.amount_eq key col, hcons, add_assoc]

theorem Counter.conserved_new : Counter.new.Conserved type fun _ _ => 0 where
  amount_eq := fun _ _ => rfl
  linear := .refl []
  filled := fun _ hp => absurd hp not_mem_nil
  notFull := rfl

end

/-! A pass ends as long as the pool has buffers. -/

section

variable {t : UInt8} {tr : TransferCall} (halloc : ∀ n, (tr.alloc n).isSome = true)
include halloc

theorem takeEntry_isSome (s : Pass) (e : CountEntry) : (takeEntry t tr s e).isSome = true := by
  unfold takeEntry sendFull
  split
  · dsimp only
    split
    · rfl
    · rw [isSome_map]
      exact halloc _
  · rfl

theorem forwardEntries_isSome (n : Nat) (entries : List CountEntry) (s : Pass) :
    (forwardEntries t tr n entries s).isSome = true := by
  induction entries generalizing s with
  | nil => rfl
  | cons e rest ih =>
    obtain ⟨s₁, hs₁⟩ := isSome_iff_exists.mp (takeEntry_isSome (t := t) halloc s e)
    unfold forwardEntries
    rw [hs₁]
    dsimp only
    split
    · split
      · rfl
      · split
        · rfl
        · exact ih _
    · rw [isSome_map]
      exact ih _

theorem forwardMaps_isSome (n : Nat) (order : List (Fin 16)) (maps : Fin 16 → List CountEntry)
    (s : Pass) : (forwardMaps t tr n order maps s).isSome = true := by
  induction order generalizing n maps s with
  | nil => rfl
  | cons i order ih =>
    obtain ⟨⟨left, s₁⟩, hs₁⟩ :=
      isSome_iff_exists.mp (forwardEntries_isSome (t := t) halloc n (maps i)
        { s with log := s.log.enter i })
    unfold forwardMaps
    rw [hs₁]
    split
    · rfl
    · exact ih _ _ _

theorem Counter.pass_isSome (c : Counter) : (c.pass t tr).isSome = true := by
  obtain ⟨junk, hjunk⟩ := isSome_iff_exists.mp (halloc 0)
  unfold Counter.pass
  rw [hjunk]
  exact forwardMaps_isSome halloc ..

end

/-- **Conservation.** After every history, for every key and column, the bytes counted are the
bytes handed over plus the bytes in the maps, modulo 2^32. Every entry is in exactly one place;
the packets have 1 to 64 items and say so; and the pass never stops for 1024 packets. -/
theorem counter_conserves (type : UInt8) (es : List CounterEvent) (s : Counter)
    (hrun : Counter.new.run type es = some s) :
    (∀ key col, historyBytes key col es =
      amount key col s.handedItems + amount key col s.remaining) ∧
      ((s.handedItems ++ s.remaining).map serial) ~ range s.made ∧
      (∀ p ∈ s.handed, 1 ≤ p.count.toNat ∧ p.count.toNat ≤ transferRingBurst ∧
        ∀ i, (p.slot i).isSome = true ↔ i < p.count.toNat) ∧
      s.ringFull = false := by
  have h := Counter.conserved_new.run hrun
  refine ⟨fun key col => ?_, h.linear, fun p hp => ?_, h.notFull⟩
  · rw [h.amount_eq key col, zero_add]
  · exact ⟨(h.filled p hp).one_le, (h.filled p hp).le_burst, (h.filled p hp).filled⟩

def drainedCounter : Option Counter :=
  let call key used mode now : CounterEvent :=
    .counting ⟨key, used, mode, now, ⟨id, fun l => .refl l⟩⟩
  Counter.new.run 0xff
    [call 7 100 0 0, call 7 50 2 30, call 8 9 1 99, .transfer ⟨100, fun _ => some 0, 0⟩]

theorem drainedCounter_conserves :
    ∃ s, drainedCounter = some s ∧ s.handedItems.map key = [7] ∧
      s.remaining.map key = [8] ∧
      amount 7 .used s.handedItems + amount 7 .used s.remaining = 100 ∧
      amount 7 .usedLow s.handedItems + amount 7 .usedLow s.remaining = 50 := by
  have hsome : drainedCounter.isSome = true := by decide +kernel
  obtain ⟨s, hs⟩ := isSome_iff_exists.mp hsome
  have hkeys : drainedCounter.map (fun s => (s.handedItems.map key,
      s.remaining.map key)) = some ([7], [8]) := by decide +kernel
  rw [hs, map_some, some.injEq, Prod.mk.injEq] at hkeys
  have h := (counter_conserves 0xff _ s hs).1
  exact ⟨s, hs, hkeys.1, hkeys.2, (h 7 .used).symm, (h 7 .usedLow).symm⟩

end MixiPgw.Data
