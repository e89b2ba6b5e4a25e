/-
# One writer and one reader

The double-buffered tables have no lock. The writer asks for `nochk_counter`, that is, it changes
the table only if the reader has called `Clock` since the writer's last change; the reader calls
`Clock` when it holds no record. Here both threads take one word-sized step at a time, in any
order. What the reader returns was put there by one `Add` (`reads_whole`), unless a `Clock` falls
between the writer's look at the clock and its swap (`torn_read`).
-/
import MixiPgw.Table.DoubleBuffered
import MixiPgw.Lib.Run
import Mathlib.Algebra.GroupWithZero.Nat
import Mathlib.Data.Fintype.Pi

namespace MixiPgw.Table

open Lib Lib.Bitmap Function List Lookup DualBuffered

/-! ## 1. Words -/

/-- A record type in memory: its words, and the one of them that holds `stat.valid`. -/
structure Layout (W : Type) where
  size : Nat
  stat : Fin size
  isOn : W → Bool
  setOn : W → W
  setOff : W → W
  cleared : Fin size → W
  isOn_setOn : ∀ w, isOn (setOn w) = true
  isOn_setOff : ∀ w, isOn (setOff w) = false
  isOn_cleared : isOn (cleared stat) = false

abbrev Layout.Record {W : Type} (L : Layout W) : Type := Fin L.size → W

def Layout.stamp {W : Type} (L : Layout W) (itm : L.Record) : L.Record :=
  update itm L.stat (L.setOn (itm L.stat))

section

variable {R : Type}

def Sides.buffer (t : Sides R) (side : Bool) (gcnt : Nat) : R :=
  if side then t.dataSideA gcnt else t.dataSideB gcnt

def Sides.setBuffer (t : Sides R) (side : Bool) (gcnt : Nat) (r : R) : Sides R :=
  if side then { t with dataSideA := update t.dataSideA gcnt r }
  else { t with dataSideB := update t.dataSideB gcnt r }

theorem Sides.buffer_setBuffer (t : Sides R) (side : Bool) (gcnt : Nat) (r : R) :
    (t.setBuffer side gcnt r).buffer side gcnt = r := by
  cases side <;> simp [buffer, setBuffer]

theorem Sides.buffer_setBuffer_other (t : Sides R) {side side' : Bool} {gcnt k : Nat} (r : R)
    (h : ¬ (k = gcnt ∧ side' = side)) :
    (t.setBuffer side gcnt r).buffer side' k = t.buffer side' k := by
  cases side <;> cases side' <;> simp_all [buffer, setBuffer]

end

/-! ## 2. The threads -/

namespace Interleaving

/-- A table class with its record type; `notifies` is the bitmap of changes the tools keep, and
`gcnt` the number of a key. -/
structure TableClass (W : Type) where
  layout : Layout W
  S : Nat
  notifies : Bool
  Key : Type
  gcnt : Key → Nat

abbrev lookupClass {W : Type} (L : Layout W) (S : Nat) : TableClass W := ⟨L, S, false, Nat, id⟩

abbrev dualBufferedClass {W : Type} (L : Layout W) : TableClass W :=
  ⟨L, maxStragePerGroup, true, UInt32, gcnt⟩

/-- A call of the writer, always with `nochk_counter`. -/
inductive Call (K R : Type)
  | add (key : K) (itm : R)
  | del (key : K)

def Call.key {K R : Type} : Call K R → K
  | .add key _ => key
  | .del key => key

/-- The call with the number of its key. -/
def Call.numbered {K R : Type} (gcnt : K → Nat) : Call K R → Call Nat R
  | .add key itm => .add (gcnt key) itm
  | .del key => .del (gcnt key)

/-- Where the writer stands; each constructor is the memory access it makes next. -/
inductive Writer {W : Type} (L : Layout W)
  | idle
  /-- read `virtual_clock_counter_` for the comparison -/
  | clock (c : Call Nat L.Record)
  /-- read `virtual_clock_counter_prv_` and compare -/
  | compare (c : Call Nat L.Record) (clk : UInt64)
  /-- read `virtual_clock_counter_` for the assignment -/
  | mark (c : Call Nat L.Record)
  /-- write `virtual_clock_counter_prv_` -/
  | marked (c : Call Nat L.Record) (clk : UInt64)
  /-- `Find(gcnt, 1)`: read the word of the bitmap -/
  | side (c : Call Nat L.Record)
  /-- `memcpy`: write one of the words left -/
  | copy (gcnt : Nat) (itm : L.Record) (back : Bool) (left : List (Fin L.size))
  /-- `stat.valid = OFF`: read the word the bit lies in -/
  | stat (gcnt : Nat) (back : Bool)
  /-- `stat.valid = OFF`: write it -/
  | off (gcnt : Nat) (back : Bool) (word : W)
  /-- `SwapSide`: read the word of the bitmap -/
  | bitmap (gcnt : Nat)
  /-- `SwapSide`: write it -/
  | swap (gcnt : Nat) (word : UInt64)
  /-- `NotifyChange`: read -/
  | notice (gcnt : Nat)
  /-- `NotifyChange`: write -/
  | notify (gcnt : Nat) (word : UInt64)

/-- Where the reader stands. -/
inductive Reader {W : Type} (L : Layout W)
  | idle
  /-- `Find(gcnt, 0)`: read the word of the bitmap -/
  | side (gcnt : Nat)
  /-- `Find(gcnt, 0)`: read `stat.valid` -/
  | stat (gcnt : Nat) (side : Bool)
  /-- read the record found, word by word in any order -/
  | words (gcnt : Nat) (side : Bool) (got : Fin L.size → Option W)
  /-- `Clock`: read the counter -/
  | clock
  /-- `Clock`: write it -/
  | tick (clk : UInt64)

/-- Both threads and their memory. `adds` are the records of all `Add` calls that got past the
comparison, `reads` the records the reader has read to the end. -/
structure Shared {W : Type} (L : Layout W) where
  mem : DualBuffered L.Record
  writer : Writer L
  reader : Reader L
  adds : List (Nat × L.Record)
  reads : List (Nat × L.Record)

/-- An event picks a thread: a call it begins, or its next step. A step of a copy or of a read
also picks the word. -/
inductive Event {W : Type} (K : Type) (L : Layout W)
  | call (c : Call K L.Record)
  | write (i : Fin L.size)
  | find (key : K)
  | clock
  | read (i : Fin L.size)

def Shared.clear {W : Type} (L : Layout W) : Shared L where
  mem :=
    { dataSideA := fun _ => L.cleared
      dataSideB := fun _ => L.cleared
      dataSideBmp := fun _ => 0
      virtualClockCounter := 0
      virtualClockCounterPrv := 0
      dataNoticeBmp := fun _ => 0 }
  writer := .idle
  reader := .idle
  adds := []
  reads := []

section

variable {W : Type} (T : TableClass W)

def front (m : DualBuffered T.layout.Record) (gcnt : Nat) : Bool :=
  has (Lookup.word T.S m.toSides (gcnt >>> 6)) (bits gcnt)

def poke {L : Layout W} (m : DualBuffered L.Record) (side : Bool) (gcnt : Nat) (i : Fin L.size)
    (word : W) : DualBuffered L.Record :=
  { m with toSides := m.setBuffer side gcnt (update (m.buffer side gcnt) i word) }

def setBitmap (m : DualBuffered T.layout.Record) (gcnt : Nat) (word : UInt64) :
    DualBuffered T.layout.Record :=
  { m with toSides := setWord T.S m.toSides (gcnt >>> 6) word }

def writerStep (s : Shared T.layout) (i : Fin T.layout.size) : Option (Shared T.layout) :=
  match s.writer with
  | .idle => none
  | .clock c => some { s with writer := .compare c s.mem.virtualClockCounter }
  | .compare c clk =>
    if clk ≤ s.mem.virtualClockCounterPrv then some { s with writer := .idle }
    else some { s with writer := .mark c }
  | .mark c => some { s with writer := .marked c s.mem.virtualClockCounter }
  | .marked c clk =>
    some { s with
      mem := { s.mem with virtualClockCounterPrv := clk }
      writer := .side c }
  | .side (.add gcnt itm) =>
    some { s with
      writer := .copy gcnt (T.layout.stamp itm) (!front T s.mem gcnt) (finRange T.layout.size)
      adds := (gcnt, T.layout.stamp itm) :: s.adds }
  | .side (.del gcnt) => some { s with writer := .stat gcnt (!front T s.mem gcnt) }
  | .copy gcnt itm back left =>
    if i ∈ left then
      some { s with
        mem := poke s.mem back gcnt i (itm i)
        writer := if left.erase i = [] then .bitmap gcnt else .copy gcnt itm back (left.erase i) }
    else none
  | .stat gcnt back =>
    some { s with
      writer := .off gcnt back (T.layout.setOff (s.mem.buffer back gcnt T.layout.stat)) }
  | .off gcnt back word =>
    some { s with
      mem := poke s.mem back gcnt T.layout.stat word
      writer := .bitmap gcnt }
  | .bitmap gcnt =>
    some { s with
      writer := .swap gcnt (Lookup.word T.S s.mem.toSides (gcnt >>> 6) ^^^ bits gcnt) }
  | .swap gcnt word =>
    some { s with
      mem := setBitmap T s.mem gcnt word
      writer := if T.notifies then .notice gcnt else .idle }
  | .notice gcnt =>
    some { s with writer := .notify gcnt (s.mem.dataNoticeBmp (gcnt >>> 6) ^^^ bits gcnt) }
  | .notify gcnt word =>
    some { s with
      mem := { s.mem with
        dataNoticeBmp := update s.mem.dataNoticeBmp (gcnt >>> 6) word }
      writer := .idle }

/-- A step of `Find(gcnt, 0)`, of the read behind it or of `Clock`. -/
def readerStep (s : Shared T.layout) (i : Fin T.layout.size) : Option (Shared T.layout) :=
  match s.reader with
  | .idle => none
  | .side gcnt => some { s with reader := .stat gcnt (front T s.mem gcnt) }
  | .stat gcnt side =>
    if T.layout.isOn (s.mem.buffer side gcnt T.layout.stat) then
      some { s with reader := .words gcnt side fun _ => none }
    else some { s with reader := .idle }
  | .words gcnt side got =>
    let got := update got i (some (s.mem.buffer side gcnt i))
    if h : ∀ j, (got j).isSome then
      some { s with
        reader := .idle
        reads := (gcnt, fun j => (got j).get (h j)) :: s.reads }
    else some { s with reader := .words gcnt side got }
  | .clock => some { s with reader := .tick s.mem.virtualClockCounter }
  | .tick clk =>
    some { s with
      mem := { s.mem with virtualClockCounter := clk + 1 }
      reader := .idle }

/-- One step of the system. A thread begins a call only when it is in none; `Add` and `Del` throw
on a number the table does not have, and the reader gets `End()` for one. -/
def step (s : Shared T.layout) : Event T.Key T.layout → Option (Shared T.layout)
  | .call c =>
    match s.writer with
    | .idle =>
      if T.gcnt c.key < T.S then some { s with writer := .clock (c.numbered T.gcnt) } else none
    | _ => none
  | .write i => writerStep T s i
  | .find key =>
    match s.reader with
    | .idle => if T.gcnt key < T.S then some { s with reader := .side (T.gcnt key) } else some s
    | _ => none
  | .clock =>
    match s.reader with
    | .idle => some { s with reader := .clock }
    | _ => none
  | .read i => readerStep T s i

end

/-! ## 3. Whole buffers, and buffers out of reach -/

section

variable {W : Type} (T : TableClass W)

/-- The buffer is not in use, or holds the record of one `Add`. -/
def Whole (s : Shared T.layout) (gcnt : Nat) (side : Bool) : Prop :=
  T.layout.isOn (s.mem.buffer side gcnt T.layout.stat) = false ∨
    (gcnt, s.mem.buffer side gcnt) ∈ s.adds

/-- The writer is in the middle of a copy into the buffer. -/
def Copying {L : Layout W} (gcnt : Nat) (side : Bool) : Writer L → Prop
  | .copy k _ back _ => k = gcnt ∧ back = side
  | _ => False

/-- The number has a bit of its own in the bitmap. -/
def InBitmap (gcnt : Nat) : Prop := gcnt >>> 6 < T.S >>> 6

/-- What the writer knows. From the assignment of the clock to the swap the clock has not moved. -/
def WriterOk (s : Shared T.layout) : Writer T.layout → Prop
  | .idle | .notice _ | .notify _ _ => True
  | .clock c | .compare c _ | .mark c => InBitmap T c.key
  | .marked c clk => InBitmap T c.key ∧ s.mem.virtualClockCounter = clk
  | .side c =>
    InBitmap T c.key ∧ s.mem.virtualClockCounter = s.mem.virtualClockCounterPrv
  | .copy gcnt itm back left =>
    InBitmap T gcnt ∧ s.mem.virtualClockCounter = s.mem.virtualClockCounterPrv ∧
      back = !front T s.mem gcnt ∧ (gcnt, itm) ∈ s.adds ∧
      ∀ i, i ∉ left → s.mem.buffer back gcnt i = itm i
  | .stat gcnt back =>
    InBitmap T gcnt ∧ s.mem.virtualClockCounter = s.mem.virtualClockCounterPrv ∧
      back = !front T s.mem gcnt
  | .off gcnt back word =>
    InBitmap T gcnt ∧ s.mem.virtualClockCounter = s.mem.virtualClockCounterPrv ∧
      back = !front T s.mem gcnt ∧ T.layout.isOn word = false
  | .bitmap gcnt =>
    InBitmap T gcnt ∧ s.mem.virtualClockCounter = s.mem.virtualClockCounterPrv
  | .swap gcnt word =>
    InBitmap T gcnt ∧ s.mem.virtualClockCounter = s.mem.virtualClockCounterPrv ∧
      word = Lookup.word T.S s.mem.toSides (gcnt >>> 6) ^^^ bits gcnt

/-- The writer has changed the table since the last `Clock` and is not yet in another change. -/
def Fenced {L : Layout W} (m : DualBuffered L.Record) : Writer L → Prop
  | .idle | .clock _ | .notice _ | .notify _ _ => m.virtualClockCounter = m.virtualClockCounterPrv
  | .compare _ clk =>
    m.virtualClockCounter = m.virtualClockCounterPrv ∧ clk = m.virtualClockCounter
  | _ => False

/-- The writer cannot get at the buffer: it is in front, or the writer is fenced off. -/
def OutOfReach (s : Shared T.layout) (gcnt : Nat) (side : Bool) : Prop :=
  side = front T s.mem gcnt ∨ Fenced s.mem s.writer

def ReaderOk (s : Shared T.layout) : Reader T.layout → Prop
  | .idle | .side _ | .clock | .tick _ => True
  | .stat gcnt side => OutOfReach T s gcnt side
  | .words gcnt side got =>
    OutOfReach T s gcnt side ∧ (gcnt, s.mem.buffer side gcnt) ∈ s.adds ∧
      ∀ i w, got i = some w → s.mem.buffer side gcnt i = w

/-- Every record read is the record of one `Add` of that number. -/
def ReadsWhole {L : Layout W} (s : Shared L) : Prop := ∀ r ∈ s.reads, r ∈ s.adds

instance [DecidableEq W] {L : Layout W} (s : Shared L) : Decidable (ReadsWhole s) :=
  inferInstanceAs (Decidable (∀ r ∈ s.reads, r ∈ s.adds))

structure Inv (s : Shared T.layout) : Prop where
  whole : ∀ gcnt side, ¬ Copying gcnt side s.writer → Whole T s gcnt side
  writerOk : WriterOk T s s.writer
  readerOk : ReaderOk T s s.reader
  readsWhole : ReadsWhole s

variable {T}

theorem inv_clear : Inv T (Shared.clear T.layout) where
  whole gcnt side _ := by
    left
    cases side <;> exact T.layout.isOn_cleared
  writerOk := trivial
  readerOk := trivial
  readsWhole r hr := absurd hr not_mem_nil

variable (m : DualBuffered T.layout.Record) (side : Bool)

@[simp] theorem front_poke (gcnt k : Nat)
    (i : Fin T.layout.size) (word : W) : front T (poke m side gcnt i word) k = front T m k := by
  cases side <;> rfl

variable (gcnt : Nat) (i : Fin T.layout.size)

@[simp] theorem clock_poke (word : W) :
    (poke m side gcnt i word).virtualClockCounter = m.virtualClockCounter := by
  cases side <;> rfl

@[simp] theorem clockPrv_poke (word : W) :
    (poke m side gcnt i word).virtualClockCounterPrv = m.virtualClockCounterPrv := by
  cases side <;> rfl

theorem buffer_poke (word : W) :
    (poke m side gcnt i word).buffer side gcnt = update (m.buffer side gcnt) i word :=
  Sides.buffer_setBuffer ..

theorem buffer_poke_other {side side' : Bool} {gcnt k : Nat}
    (i : Fin T.layout.size) (word : W) (h : ¬ (k = gcnt ∧ side' = side)) :
    (poke m side gcnt i word).buffer side' k = m.buffer side' k :=
  Sides.buffer_setBuffer_other _ _ h

theorem buffer_setBitmap (gcnt k : Nat) (word : UInt64)
    (side : Bool) : (setBitmap T m gcnt word).buffer side k = m.buffer side k := by
  obtain ⟨ha, hb⟩ := Lookup.setWord_sides (S := T.S) m.toSides (gcnt >>> 6) word
  cases side
  · exact congrFun hb k
  · exact congrFun ha k

variable {gcnt : Nat}

theorem clock_setBitmap (h : InBitmap T gcnt)
    (word : UInt64) : (setBitmap T m gcnt word).virtualClockCounter = m.virtualClockCounter := by
  unfold InBitmap at h
  simp only [setBitmap, setWord, if_pos h]

theorem clockPrv_setBitmap (word : UInt64) :
    (setBitmap T m gcnt word).virtualClockCounterPrv = m.virtualClockCounterPrv := by
  unfold setBitmap setWord
  split <;> rfl

/-- A swap turns one number round; a number whose bit lies behind the bitmap is another one. -/
theorem front_swap (h : InBitmap T gcnt) (k : Nat) :
    front T (setBitmap T m gcnt (Lookup.word T.S m.toSides (gcnt >>> 6) ^^^ bits gcnt)) k =
      (front T m k ^^ decide (k = gcnt)) := by
  unfold InBitmap at h
  unfold front setBitmap setWord Lookup.word
  rw [if_pos h, if_pos h]
  by_cases hk : k >>> 6 < T.S >>> 6
  · rw [if_pos hk, if_pos hk]
    exact has_swapped m.dataSideBmp gcnt k
  · have hne : k ≠ gcnt := fun he => hk (he ▸ h)
    rw [if_neg hk, if_neg hk, decide_eq_false hne, Bool.xor_false]

end

/-! ## 4. The writer's steps -/

section

variable {W : Type} {T : TableClass W} {s : Shared T.layout}

variable {s' : Shared T.layout}

theorem ReaderOk.mono {r : Reader T.layout} (h : ReaderOk T s r) (hadds : s.adds ⊆ s'.adds)
    (hreach : ∀ gcnt side, OutOfReach T s gcnt side → OutOfReach T s' gcnt side ∧
      s'.mem.buffer side gcnt = s.mem.buffer side gcnt) : ReaderOk T s' r := by
  cases r with
  | idle | side _ | clock | tick _ => trivial
  | stat gcnt side => exact (hreach gcnt side h).1
  | words gcnt side got =>
    obtain ⟨hout, hmem, hgot⟩ := h
    obtain ⟨hout', hbuf⟩ := hreach gcnt side hout
    refine ⟨hout', ?_, ?_⟩
    · rw [hbuf]
      exact hadds hmem
    · rw [hbuf]
      exact hgot

variable {w : Writer T.layout}

theorem Inv.move {adds : List (Nat × T.layout.Record)} (hi : Inv T s) (hadds : s.adds ⊆ adds)
    (hcopy : ∀ gcnt side, Copying gcnt side s.writer → Copying gcnt side w)
    (hfence : Fenced s.mem s.writer → Fenced s.mem w)
    (hok : WriterOk T { s with writer := w, adds := adds } w) :
    Inv T { s with writer := w, adds := adds } where
  whole gcnt side hc :=
    (hi.whole gcnt side fun h => hc (hcopy gcnt side h)).imp_right fun h => hadds h
  writerOk := hok
  readerOk := hi.readerOk.mono hadds fun _ _ hout => ⟨hout.imp_right hfence, rfl⟩
  readsWhole r hr := hadds (hi.readsWhole r hr)

variable {gcnt : Nat} {back : Bool} {i : Fin T.layout.size}

theorem Inv.poke {word : W}
    (hi : Inv T s) (hback : back = !front T s.mem gcnt) (hfence : ¬ Fenced s.mem s.writer)
    (hcopy : ∀ k side, Copying k side s.writer → k = gcnt ∧ side = back)
    (hwhole : ¬ Copying gcnt back w →
      Whole T { s with mem := poke s.mem back gcnt i word, writer := w } gcnt back)
    (hok : WriterOk T { s with mem := Interleaving.poke s.mem back gcnt i word, writer := w } w) :
    Inv T { s with mem := Interleaving.poke s.mem back gcnt i word, writer := w } where
  whole k side hc := by
    by_cases hk : k = gcnt ∧ side = back
    · obtain ⟨rfl, rfl⟩ := hk
      exact hwhole hc
    · have hold := hi.whole k side fun h => hk (hcopy k side h)
      unfold Whole at hold ⊢
      rw [buffer_poke_other s.mem i word hk]
      exact hold
  writerOk := hok
  readerOk := by
    refine hi.readerOk.mono (List.Subset.refl _) fun k side hout => ?_
    have hfront : side = front T s.mem k := hout.resolve_right hfence
    refine ⟨Or.inl (hfront.trans (front_poke ..).symm), buffer_poke_other s.mem i word ?_⟩
    rintro ⟨rfl, rfl⟩
    rw [hfront] at hback
    exact absurd hback (by simp)
  readsWhole := hi.readsWhole

theorem Inv.copy {itm : T.layout.Record} {left : List (Fin T.layout.size)} (hi : Inv T s)
    (hw : s.writer = .copy gcnt itm back left) (i : Fin T.layout.size) :
    Inv T { s with
      mem := Interleaving.poke s.mem back gcnt i (itm i)
      writer := if left.erase i = [] then .bitmap gcnt
        else .copy gcnt itm back (left.erase i) } := by
  have hok := hi.writerOk
  rw [hw] at hok
  obtain ⟨hin, hclock, hback, hmem, hcopied⟩ := hok
  have hcopied' : ∀ j, j ∉ left.erase i →
      (Interleaving.poke s.mem back gcnt i (itm i)).buffer back gcnt j = itm j := by
    intro j hj
    rw [buffer_poke]
    by_cases hji : j = i
    · rw [hji, update_self]
    · rw [update_of_ne hji]
      exact hcopied j fun hl => hj ((mem_erase_of_ne hji).mpr hl)
  refine hi.poke hback (by rw [hw]; exact id) ?_ ?_ ?_
  · intro k side hc
    rw [hw] at hc
    exact ⟨hc.1.symm, hc.2.symm⟩
  · intro hc
    right
    by_cases hleft : left.erase i = []
    · have hall : (Interleaving.poke s.mem back gcnt i (itm i)).buffer back gcnt = itm :=
        funext fun j => hcopied' j (by rw [hleft]; exact not_mem_nil)
      dsimp only
      rw [hall]
      exact hmem
    · rw [if_neg hleft] at hc
      exact absurd ⟨rfl, rfl⟩ hc
  · by_cases hleft : left.erase i = []
    · rw [if_pos hleft]
      exact ⟨hin, by simpa using hclock⟩
    · rw [if_neg hleft]
      exact ⟨hin, by simpa using hclock, by simpa using hback, hmem, hcopied'⟩

/-- The swap: the buffer that was in front goes to the back, and the writer is fenced off it. -/
theorem Inv.swap {word : UInt64} (hi : Inv T s) (hw : s.writer = .swap gcnt word) :
    Inv T { s with
      mem := setBitmap T s.mem gcnt word
      writer := if T.notifies then .notice gcnt else .idle } := by
  have hok := hi.writerOk
  rw [hw] at hok
  obtain ⟨hin, hclock, rfl⟩ := hok
  refine ⟨fun k side _ => ?_, ?_, ?_, hi.readsWhole⟩
  · have hold := hi.whole k side (by rw [hw]; exact id)
    unfold Whole at hold ⊢
    rw [buffer_setBitmap]
    exact hold
  · cases T.notifies <;> trivial
  · refine hi.readerOk.mono (List.Subset.refl _) fun k side hout => ⟨?_, buffer_setBitmap ..⟩
    have hfront : side = front T s.mem k := hout.resolve_right (by rw [hw]; exact id)
    by_cases hk : k = gcnt
    · right
      cases T.notifies <;>
        exact ((clock_setBitmap s.mem hin _).trans hclock).trans (clockPrv_setBitmap ..).symm
    · left
      dsimp only
      rw [front_swap s.mem hin k, decide_eq_false hk, Bool.xor_false]
      exact hfront

theorem Inv.writerStep (hi : Inv T s) (h : writerStep T s i = some s') : Inv T s' := by
  have hok := hi.writerOk
  obtain ⟨mem, writer, reader, adds, reads⟩ := s
  cases writer with
  | idle => cases h
  | clock c =>
    cases h
    exact hi.move (List.Subset.refl _) (fun _ _ hc => hc.elim) (fun hf => ⟨hf, rfl⟩) hok
  | compare c clk =>
    simp only [Interleaving.writerStep] at h
    split at h
    · cases h
      exact hi.move (List.Subset.refl _) (fun _ _ hc => hc.elim) (fun hf => hf.1) trivial
    · rename_i hlt
      cases h
      -- a fenced writer does not get here
      refine hi.move (List.Subset.refl _) (fun _ _ hc => hc.elim) (fun hf => hlt ?_) hok
      rw [hf.2, hf.1]
      exact UInt64.le_refl _
  | mark c =>
    cases h
    exact hi.move (List.Subset.refl _) (fun _ _ hc => hc.elim) id ⟨hok, rfl⟩
  | marked c clk =>
    cases h
    exact ⟨hi.whole, hok, hi.readerOk.mono (List.Subset.refl _)
      fun _ _ hout => ⟨Or.inl (hout.resolve_right id), rfl⟩, hi.readsWhole⟩
  | side c =>
    cases c with
    | add gcnt itm =>
      cases h
      refine hi.move (subset_cons_self _ _) (fun _ _ hc => hc.elim) id
        ⟨hok.1, hok.2, rfl, mem_cons_self, fun j hj => absurd (mem_finRange j) hj⟩
    | del gcnt =>
      cases h
      exact hi.move (List.Subset.refl _) (fun _ _ hc => hc.elim) id ⟨hok.1, hok.2, rfl⟩
  | copy gcnt itm back left =>
    simp only [Interleaving.writerStep] at h
    split at h
    · cases h
      exact hi.copy rfl i
    · cases h
  | stat gcnt back =>
    cases h
    exact hi.move (List.Subset.refl _) (fun _ _ hc => hc.elim) id
      ⟨hok.1, hok.2.1, hok.2.2, T.layout.isOn_setOff _⟩
  | off gcnt back word =>
    cases h
    obtain ⟨hin, hclock, hback, hoff⟩ := hok
    refine hi.poke hback id (fun _ _ hc => hc.elim) (fun _ => ?_) ⟨hin, by simpa using hclock⟩
    left
    dsimp only
    rw [buffer_poke, update_self]
    exact hoff
  | bitmap gcnt =>
    cases h
    exact hi.move (List.Subset.refl _) (fun _ _ hc => hc.elim) id ⟨hok.1, hok.2, rfl⟩
  | swap gcnt word =>
    cases h
    exact hi.swap rfl
  | notice gcnt =>
    cases h
    exact hi.move (List.Subset.refl _) (fun _ _ hc => hc.elim) id trivial
  | notify gcnt word =>
    cases h
    exact ⟨hi.whole, trivial, hi.readerOk.mono (List.Subset.refl _)
      fun _ _ hout => ⟨hout.imp_right id, rfl⟩, hi.readsWhole⟩

end

/-! ## 5. The reader's steps -/

section

variable {W : Type} {T : TableClass W} {s : Shared T.layout}

/-- The writer has looked at the clock for the assignment and has not swapped yet. -/
def Writer.inChange {L : Layout W} : Writer L → Bool
  | .marked _ _ | .side _ | .copy _ _ _ _ | .stat _ _ | .off _ _ _ | .bitmap _ | .swap _ _ => true
  | .idle | .clock _ | .compare _ _ | .mark _ | .notice _ | .notify _ _ => false

/-- The reader's next step is the write of `Clock`. -/
def Reader.ticks {L : Layout W} : Reader L → Bool
  | .tick _ => true
  | _ => false

/-- The event is not the write of `Clock` in the middle of a change. -/
def ClockApart {K : Type} {L : Layout W} (s : Shared L) : Event K L → Prop
  | .read _ => s.reader.ticks = true → s.writer.inChange = false
  | .call _ | .write _ | .find _ | .clock => True

instance {K : Type} {L : Layout W} (s : Shared L) : ∀ e : Event K L, Decidable (ClockApart s e)
  | .read _ => inferInstanceAs (Decidable (_ → _))
  | .call _ | .write _ | .find _ | .clock => instDecidableTrue

theorem Inv.turn {r : Reader T.layout} {reads : List (Nat × T.layout.Record)} (hi : Inv T s)
    (hok : ReaderOk T s r) (hreads : ∀ x ∈ reads, x ∈ s.adds) :
    Inv T { s with reader := r, reads := reads } :=
  ⟨hi.whole, hi.writerOk, hok, hreads⟩

theorem Inv.mem_adds {gcnt : Nat} {side : Bool} (hi : Inv T s) (hout : OutOfReach T s gcnt side)
    (hon : T.layout.isOn (s.mem.buffer side gcnt T.layout.stat) = true) :
    (gcnt, s.mem.buffer side gcnt) ∈ s.adds := by
  refine (hi.whole gcnt side ?_).resolve_left (by rw [hon]; exact Bool.noConfusion)
  intro hc
  have hok := hi.writerOk
  obtain ⟨mem, writer, reader, adds, reads⟩ := s
  cases writer with
  | copy k itm back left =>
    obtain ⟨rfl, rfl⟩ := hc
    -- the copy goes to the back
    have hside : back = front T mem k := hout.resolve_right id
    exact absurd (hside.symm.trans hok.2.2.1) (by simp)
  | _ => exact hc

theorem Inv.readerStep {s' : Shared T.layout} {i : Fin T.layout.size} (hi : Inv T s)
    (hapart : ClockApart s (.read i : Event T.Key T.layout)) (h : readerStep T s i = some s') :
    Inv T s' := by
  have hok := hi.readerOk
  obtain ⟨mem, writer, reader, adds, reads⟩ := s
  cases reader with
  | idle => cases h
  | side gcnt =>
    cases h
    exact hi.turn (Or.inl rfl) hi.readsWhole
  | stat gcnt side =>
    simp only [Interleaving.readerStep] at h
    split at h
    · rename_i hon
      cases h
      exact hi.turn ⟨hok, hi.mem_adds hok hon, fun _ _ hnone => nomatch hnone⟩ hi.readsWhole
    · cases h
      exact hi.turn trivial hi.readsWhole
  | words gcnt side got =>
    obtain ⟨hout, hmem, hgot⟩ := hok
    have hgot' : ∀ j w, update got i (some (mem.buffer side gcnt i)) j = some w →
        mem.buffer side gcnt j = w := by
      intro j w hj
      by_cases hji : j = i
      · subst hji
        rw [update_self] at hj
        exact Option.some.inj hj
      · rw [update_of_ne hji] at hj
        exact hgot j w hj
    simp only [Interleaving.readerStep] at h
    split at h
    · rename_i hall
      cases h
      refine hi.turn trivial fun x hx => ?_
      rcases mem_cons.mp hx with rfl | hx
      · have hrecord : (fun j => (update got i (some (mem.buffer side gcnt i)) j).get
            (hall j)) = mem.buffer side gcnt :=
          funext fun j => (hgot' j _ (Option.some_get (hall j)).symm).symm
        rw [hrecord]
        exact hmem
      · exact hi.readsWhole x hx
    · cases h
      exact hi.turn ⟨hout, hmem, hgot'⟩ hi.readsWhole
  | clock =>
    cases h
    exact hi.turn trivial hi.readsWhole
  | tick clk =>
    cases h
    have hw := hi.writerOk
    refine ⟨hi.whole, ?_, trivial, hi.readsWhole⟩
    cases writer with
    | idle | notice _ | notify _ _ => trivial
    | clock c | compare c _ | mark c => exact hw
    | _ => exact Bool.noConfusion (hapart rfl)

end

/-! ## 6. Runs -/

section

variable {W : Type} {T : TableClass W}

/-- The number of a call has a bit of its own. -/
def CallInBitmap (T : TableClass W) : Event T.Key T.layout → Prop
  | .call c => InBitmap T (T.gcnt c.key)
  | _ => True

theorem Inv.step {s s' : Shared T.layout} {e : Event T.Key T.layout} (hi : Inv T s)
    (hin : CallInBitmap T e) (hapart : ClockApart s e) (h : step T s e = some s') : Inv T s' := by
  cases e with
  | write i => exact hi.writerStep h
  | read i => exact hi.readerStep hapart h
  | call c =>
    obtain ⟨mem, writer, reader, adds, reads⟩ := s
    cases writer with
    | idle =>
      simp only [Interleaving.step] at h
      split at h
      · cases h
        exact hi.move (List.Subset.refl _) (fun _ _ hc => hc.elim) id (by cases c <;> exact hin)
      · cases h
    | _ => cases h
  | find key =>
    obtain ⟨mem, writer, reader, adds, reads⟩ := s
    cases reader with
    | idle =>
      simp only [Interleaving.step] at h
      split at h
      · cases h
        exact hi.turn trivial hi.readsWhole
      · cases h
        exact hi
    | _ => cases h
  | clock =>
    obtain ⟨mem, writer, reader, adds, reads⟩ := s
    cases reader with
    | idle =>
      cases h
      exact hi.turn trivial hi.readsWhole
    | _ => cases h

theorem throughout_readsWhole {es : List (Event T.Key T.layout)}
    (h : EachStep (step T) (fun s e => CallInBitmap T e ∧ ClockApart s e) (.clear T.layout) es) :
    Throughout (step T) ReadsWhole (.clear T.layout) es :=
  (throughout_of_eachStep (fun _ _ _ hi hc hstep => hi.step hc.1 hc.2 hstep) inv_clear h).mono
    fun _ hi => hi.readsWhole

theorem inBitmap_dualBuffered {L : Layout W} {gcnt : Nat}
    (h : gcnt < maxStragePerGroup) : InBitmap (dualBufferedClass L) gcnt := by
  unfold InBitmap dualBufferedClass maxStragePerGroup
  unfold maxStragePerGroup at h
  simp only [Nat.shiftRight_eq_div_pow]
  omega

end

section

/-- A record of two words; the first has `stat.valid` in it. -/
def pairLayout : Layout (Bool × Nat) where
  size := 2
  stat := 0
  isOn := Prod.fst
  setOn w := (true, w.2)
  setOff w := (false, w.2)
  cleared := fun _ => (false, 0)
  isOn_setOn _ := rfl
  isOn_setOff _ := rfl
  isOn_cleared := rfl

instance : NeZero pairLayout.size := ⟨by decide⟩

def pairOf (n : Nat) : pairLayout.Record := fun _ => (false, n)

section

variable {K : Type}

def clockEvents : List (Event K pairLayout) := [.clock, .read 0, .read 0]

/-- The first half of an `Add`, up to the assignment of the clock. -/
def markEvents (key : K) (n : Nat) : List (Event K pairLayout) :=
  [.call (.add key (pairOf n)), .write 0, .write 0, .write 0, .write 0]

/-- `Find`, the copy of both words and the read of the bitmap. -/
def copyEvents : List (Event K pairLayout) := [.write 0, .write 0, .write 1, .write 0]

def findEvents (key : K) : List (Event K pairLayout) := [.find key, .read 0, .read 0, .read 0]

/-- An `Add`, and a read behind it. -/
def addThenRead (key : K) : List (Event K pairLayout) :=
  clockEvents ++ markEvents key 1 ++ copyEvents ++ [.write 0] ++ findEvents key ++ [.read 1]

/-- The second `Add` looks at the clock, the reader calls `Clock` and finds the record of the
first; the second `Add` swaps, and the third writes what the reader reads. -/
def tornEvents (key : K) (swap : List (Event K pairLayout)) : List (Event K pairLayout) :=
  clockEvents ++ markEvents key 1 ++ copyEvents ++ swap ++ clockEvents ++
    markEvents key 2 ++ clockEvents ++ findEvents key ++ copyEvents ++ swap ++
    markEvents key 3 ++ copyEvents ++ [.read 1]

end

end

end Interleaving

end MixiPgw.Table
