/-
# The double-buffered tables

`Lookup<T,S,K>` of the dataplane and `DualBufferedLookupTable<T>` of the tools: one record in each
of two buffers for every index, and a bitmap that says which of the two is in front. Records have a
`stat.valid` bit, and the two classes disagree on which value of it means in use. A table is a
family of slots (`Lib.Slot`), of which an update puts one, and both tables are finite maps
(`find_lastValue`).
-/
import MixiPgw.Lib.Bitmap
import MixiPgw.Lib.DoubleBuffer
import Mathlib.Data.List.Induction

namespace MixiPgw.Table

open Lib Lib.Bitmap List

/-! ## 1. Records -/

/-- A record type with a one-bit field `stat.valid`. `zero` is the record after `memset`. -/
class Stat (T : Type) where
  valid : T → Bool
  setValid : T → Bool → T
  zero : T
  valid_setValid : ∀ t v, valid (setValid t v) = v
  valid_zero : valid zero = false

export Stat (valid setValid)

attribute [simp] Stat.valid_setValid Stat.valid_zero

/-- `policer_t`, one of the record types of the tools. -/
structure Policer where
  valid : Bool
  epochW : UInt32
  commitRate : UInt32
  commitBurstSize : UInt32
  commitInformationRate : UInt32
  excessRate : UInt32
  excessBurstSize : UInt32
  excessInformationRate : UInt32
deriving DecidableEq, Repr

instance : Stat Policer where
  valid := Policer.valid
  setValid p v := { p with valid := v }
  zero := ⟨false, 0, 0, 0, 0, 0, 0, 0⟩
  valid_setValid _ _ := rfl
  valid_zero := rfl

/-! ## 2. What the classes share -/

structure Sides (T : Type) where
  dataSideA : Nat → T
  dataSideB : Nat → T
  dataSideBmp : Nat → UInt64
  virtualClockCounter : UInt64
  virtualClockCounterPrv : UInt64

/-- An iterator is a pointer to a record of one side, or to `end_`. -/
inductive Iterator
  | sideA (gcnt : Nat)
  | sideB (gcnt : Nat)
  | fin
deriving DecidableEq, Repr

section

variable {T : Type}

def Sides.get (t : Sides T) : Iterator → Option T
  | .sideA gcnt => some (t.dataSideA gcnt)
  | .sideB gcnt => some (t.dataSideB gcnt)
  | .fin => none

def Sides.store (t : Sides T) (v : T) : Iterator → Sides T
  | .sideA gcnt => { t with dataSideA := Function.update t.dataSideA gcnt v }
  | .sideB gcnt => { t with dataSideB := Function.update t.dataSideB gcnt v }
  | .fin => t

/-- The body of `Find` behind the range check; `word` is the word of the bitmap and `on` the value
of `stat.valid` that means in use. -/
def Sides.findSide [Stat T] (t : Sides T) (on : Bool) (word : UInt64) (gcnt : Nat) (flag : Bool) :
    Iterator :=
  if flag then
    -- the back, in use or not
    if has word (bits gcnt) then .sideB gcnt else .sideA gcnt
  else if has word (bits gcnt) then
    if valid (t.dataSideA gcnt) = on then .sideA gcnt else .fin
  else
    if valid (t.dataSideB gcnt) = on then .sideB gcnt else .fin

/-- The read phase of `Add` and `Del`; `none` when the reader's clock has not moved on. -/
def Sides.readPhase (t : Sides T) (nochkCounter : Bool) : Option (Sides T) :=
  if nochkCounter then
    if t.virtualClockCounter ≤ t.virtualClockCounterPrv then none
    else some { t with virtualClockCounterPrv := t.virtualClockCounter }
  else some t

def Sides.clock (t : Sides T) : Sides T :=
  { t with virtualClockCounter := t.virtualClockCounter + 1 }

end

/-! ## 3. `Lookup<T,S,K>` -/

namespace Lookup

def statOn : Bool := false

def statOff : Bool := true

section

variable {T : Type} (S : Nat)

/-- `data_side_bmp_[i]`. The array has `S>>6` words and the clock lies behind it, which is what an
`S` that is no multiple of 64 gets for its last numbers. -/
def word (t : Sides T) (i : Nat) : UInt64 :=
  if i < S >>> 6 then t.dataSideBmp i else t.virtualClockCounter

def setWord (t : Sides T) (i : Nat) (w : UInt64) : Sides T :=
  if i < S >>> 6 then { t with dataSideBmp := Function.update t.dataSideBmp i w }
  else { t with virtualClockCounter := w }

def clear [Stat T] : Sides T where
  dataSideA := fun _ => setValid Stat.zero statOff
  dataSideB := fun _ => setValid Stat.zero statOff
  dataSideBmp := fun _ => 0
  virtualClockCounter := 0
  virtualClockCounterPrv := 0

def find [Stat T] (t : Sides T) (gcnt : Nat) (flag : Bool) : Iterator :=
  if gcnt > S - 1 then .fin else t.findSide statOn (word S t (gcnt >>> 6)) gcnt flag

def swapSide (t : Sides T) (gcnt : Nat) : Sides T :=
  setWord S t (gcnt >>> 6) (word S t (gcnt >>> 6) ^^^ bits gcnt)

/-- The end of `Add` and `Del`: write the back side and swap; `none` is the exception. -/
def write [Stat T] (t : Sides T) (gcnt : Nat) (f : T → T) : Option (Sides T) :=
  match t.get (find S t gcnt true) with
  | none => none
  | some v => some (swapSide S (t.store (f v) (find S t gcnt true)) gcnt)

def add [Stat T] (t : Sides T) (gcnt : Nat) (itm : T) (nochkCounter : Bool) :
    Option (Sides T × Int) :=
  match t.readPhase nochkCounter with
  | none => some (t, -1)
  | some t => (write S t gcnt fun _ => setValid itm statOn).map (·, 0)

def del [Stat T] (t : Sides T) (gcnt : Nat) (nochkCounter : Bool) : Option (Sides T × Int) :=
  match t.readPhase nochkCounter with
  | none => some (t, -1)
  | some t => (write S t gcnt fun v => setValid v statOff).map (·, 0)

end

end Lookup

/-! ## 4. `DualBufferedLookupTable<T>` -/

/-- The members; the tools also keep a bitmap of changes. -/
structure DualBuffered (T : Type) extends Sides T where
  dataNoticeBmp : Nat → UInt64

namespace DualBuffered

def maxStragePerGroup : Nat := 65536

def linkmapstatOn : Bool := true

def linkmapstatOff : Bool := false

/-- `pgw_teid.gcnt` of a key: its lower 16 bits. -/
def gcnt (key : UInt32) : Nat := key.toNat % 65536

section

variable {T : Type}

/-- `Clear`; a record of zeros is not in use. -/
def clear [Stat T] : DualBuffered T where
  dataSideA := fun _ => Stat.zero
  dataSideB := fun _ => Stat.zero
  dataSideBmp := fun _ => 0
  virtualClockCounter := 0
  virtualClockCounterPrv := 0
  dataNoticeBmp := fun _ => 0

def find [Stat T] (t : DualBuffered T) (key : UInt32) (flag : Bool) : Iterator :=
  if gcnt key > maxStragePerGroup then .fin
  else t.findSide linkmapstatOn (t.dataSideBmp (gcnt key >>> 6)) (gcnt key) flag

def swapSide (t : DualBuffered T) (key : UInt32) : DualBuffered T :=
  { t with
    dataSideBmp := Function.update t.dataSideBmp (gcnt key >>> 6)
      (t.dataSideBmp (gcnt key >>> 6) ^^^ bits (gcnt key)) }

def notifyChange (t : DualBuffered T) (key : UInt32) : DualBuffered T :=
  { t with
    dataNoticeBmp := Function.update t.dataNoticeBmp (gcnt key >>> 6)
      (t.dataNoticeBmp (gcnt key >>> 6) ^^^ bits (gcnt key)) }

def write [Stat T] (t : DualBuffered T) (key : UInt32) (f : T → T) : Option (DualBuffered T) :=
  match t.get (find t key true) with
  | none => none
  | some v =>
    some (notifyChange (swapSide { t with toSides := t.store (f v) (find t key true) } key) key)

def add [Stat T] (t : DualBuffered T) (key : UInt32) (itm : T) (nochkCounter : Bool) :
    Option (DualBuffered T × Int) :=
  match t.readPhase nochkCounter with
  | none => some (t, -1)
  | some s => (write { t with toSides := s } key fun _ => setValid itm linkmapstatOn).map (·, 0)

def del [Stat T] (t : DualBuffered T) (key : UInt32) (nochkCounter : Bool) :
    Option (DualBuffered T × Int) :=
  match t.readPhase nochkCounter with
  | none => some (t, -1)
  | some s => (write { t with toSides := s } key fun v => setValid v linkmapstatOff).map (·, 0)

end

end DualBuffered

/-! ## 5. Slots -/

section

variable {T : Type} [Stat T]

def Sides.slot (t : Sides T) (word : UInt64) (gcnt : Nat) : Slot T :=
  ⟨t.dataSideA gcnt, t.dataSideB gcnt, has word (bits gcnt)⟩

omit [Stat T] in
theorem Sides.slot_congr {t t' : Sides T} {word word' : UInt64} {gcnt : Nat}
    (ha : t'.dataSideA gcnt = t.dataSideA gcnt) (hb : t'.dataSideB gcnt = t.dataSideB gcnt)
    (hside : has word' (bits gcnt) = has word (bits gcnt)) :
    t'.slot word' gcnt = t.slot word gcnt := by
  unfold slot
  rw [ha, hb, hside]

variable (t : Sides T) (on : Bool)

theorem Sides.get_findSide_back (word : UInt64) (gcnt : Nat) :
    t.get (t.findSide on word gcnt true) = some (t.slot word gcnt).back := by
  unfold findSide slot Slot.back
  cases has word (bits gcnt) <;> rfl

/-- A record that is in use, as `Find(k, 0)` hands it out. -/
def shown (on : Bool) (v : T) : Option T := if valid v = on then some v else none

theorem shown_setValid (v : T) : shown on (setValid v on) = some (setValid v on) :=
  if_pos (Stat.valid_setValid v on)

theorem Sides.get_findSide_front (word : UInt64) (gcnt : Nat) :
    t.get (t.findSide on word gcnt false) = shown on (t.slot word gcnt).front := by
  unfold findSide slot Slot.front shown
  cases has word (bits gcnt) with
  | false => by_cases h : valid (t.dataSideB gcnt) = on <;> simp [h, get]
  | true => by_cases h : valid (t.dataSideA gcnt) = on <;> simp [h, get]

theorem Sides.slot_store_back {word word' : UInt64} {gcnt : Nat} (v : T)
    (hside : has word' (bits gcnt) = !has word (bits gcnt)) :
    (t.store v (t.findSide on word gcnt true)).slot word' gcnt = (t.slot word gcnt).put v := by
  unfold findSide slot Slot.put
  rw [hside]
  cases has word (bits gcnt) <;> simp [store]

theorem Sides.slot_store_back_only (word : UInt64) (gcnt : Nat) (v : T) :
    (t.store v (t.findSide on word gcnt true)).slot word gcnt = (t.slot word gcnt).setBack v := by
  unfold findSide slot Slot.setBack
  cases has word (bits gcnt) <;> simp [store]

theorem Sides.slot_store_front {on : Bool} {word : UInt64} {gcnt : Nat} (v : T)
    (h : valid (t.slot word gcnt).front = on) :
    (t.store v (t.findSide on word gcnt false)).slot word gcnt = (t.slot word gcnt).setFront v := by
  unfold slot Slot.front at h
  unfold findSide slot Slot.setFront
  cases hside : has word (bits gcnt) <;> rw [hside] at h <;> simp_all [store]

omit [Stat T] in
theorem Sides.store_bmp (v : T) (it : Iterator) : (t.store v it).dataSideBmp = t.dataSideBmp := by
  cases it <;> rfl

theorem Sides.store_back_other (word : UInt64) {gcnt k : Nat} (v : T) (h : k ≠ gcnt) :
    (t.store v (t.findSide on word gcnt true)).dataSideA k = t.dataSideA k ∧
      (t.store v (t.findSide on word gcnt true)).dataSideB k = t.dataSideB k := by
  unfold findSide
  cases has word (bits gcnt) <;> simp [store, h]

theorem Sides.store_front_other (word : UInt64) {gcnt k : Nat} (v : T) (h : k ≠ gcnt) :
    (t.store v (t.findSide on word gcnt false)).dataSideA k = t.dataSideA k ∧
      (t.store v (t.findSide on word gcnt false)).dataSideB k = t.dataSideB k := by
  unfold findSide
  cases has word (bits gcnt) with
  | false => by_cases hv : valid (t.dataSideB gcnt) = on <;> simp [hv, store, h]
  | true => by_cases hv : valid (t.dataSideA gcnt) = on <;> simp [hv, store, h]

theorem has_swapped (words : Nat → UInt64) (gcnt k : Nat) :
    has (Function.update words (gcnt >>> 6) (words (gcnt >>> 6) ^^^ bits gcnt) (k >>> 6))
      (bits k) = (has (words (k >>> 6)) (bits k) ^^ decide (k = gcnt)) := by
  by_cases hword : k >>> 6 = gcnt >>> 6
  · rw [hword, Function.update_self, has_xor]
    congr 1
    refine decide_eq_decide.mpr ⟨fun h => eq_of_word_of_bit hword h.symm, fun h => by rw [h]⟩
  · rw [Function.update_of_ne hword, decide_eq_false fun h => hword (by rw [h]), Bool.xor_false]

/-- A write through `Find(k, 1)` and a swap put one slot. `words` and `words'` are the words of
the bitmap before and behind the swap. -/
theorem Sides.slot_write {t t' s : Sides T} (on : Bool) (words : Nat → UInt64)
    {words' : Nat → UInt64} {gcnt k : Nat} (f : T → T)
    (hs : s = t.store (f (t.slot (words (gcnt >>> 6)) gcnt).back)
      (t.findSide on (words (gcnt >>> 6)) gcnt true))
    (ha : t'.dataSideA = s.dataSideA) (hb : t'.dataSideB = s.dataSideB)
    (hword : words' (k >>> 6) =
      Function.update words (gcnt >>> 6) (words (gcnt >>> 6) ^^^ bits gcnt) (k >>> 6)) :
    t'.slot (words' (k >>> 6)) k = putAt (fun k => t.slot (words (k >>> 6)) k) gcnt f k := by
  subst hs
  have hside := has_swapped words gcnt k
  rw [← hword] at hside
  unfold putAt
  by_cases hk : k = gcnt
  · subst hk
    rw [Function.update_self, ← Sides.slot_store_back t on _ (by simpa using hside)]
    exact Sides.slot_congr (congrFun ha k) (congrFun hb k) rfl
  · rw [Function.update_of_ne hk]
    obtain ⟨ha', hb'⟩ := t.store_back_other on (words (gcnt >>> 6))
      (f (t.slot (words (gcnt >>> 6)) gcnt).back) hk
    exact Sides.slot_congr ((congrFun ha k).trans ha') ((congrFun hb k).trans hb')
      (by simpa [hk] using hside)

namespace Lookup

variable {S : Nat}

def view (S : Nat) (t : Sides T) (k : Nat) : Slot T := t.slot (word S t (k >>> 6)) k

omit [Stat T] in
theorem word_store (t : Sides T) (v : T) (it : Iterator) (i : Nat) :
    word S (t.store v it) i = word S t i := by
  cases it <;> rfl

omit [Stat T] in
theorem shift_le {k : Nat} (h : k < S) : k >>> 6 ≤ S >>> 6 := by
  simp only [Nat.shiftRight_eq_div_pow]
  exact Nat.div_le_div_right (Nat.le_of_lt h)

omit [Stat T] in
theorem word_setWord (t : Sides T) {i j : Nat} (w : UInt64) (hi : i ≤ S >>> 6) (hj : j ≤ S >>> 6) :
    word S (setWord S t i w) j = Function.update (word S t) i w j := by
  unfold setWord word
  by_cases hij : j = i
  · subst hij
    by_cases hlt : j < S >>> 6 <;> simp [hlt]
  · rw [Function.update_of_ne hij]
    rcases Nat.lt_or_eq_of_le hi with hlt | rfl
    · by_cases hjlt : j < S >>> 6 <;> simp [hlt, hjlt, hij]
    · have hjlt : j < S >>> 6 := Nat.lt_of_le_of_ne hj hij
      simp [hjlt]

omit [Stat T] in
theorem setWord_sides (t : Sides T) (i : Nat) (w : UInt64) :
    (setWord S t i w).dataSideA = t.dataSideA ∧ (setWord S t i w).dataSideB = t.dataSideB := by
  unfold setWord
  split <;> exact ⟨rfl, rfl⟩

theorem get_find_front {S k : Nat} (hk : k < S) (t : Sides T) :
    t.get (find S t k false) = shown statOn (view S t k).front := by
  rw [find, if_neg (by omega)]
  exact t.get_findSide_front statOn _ k

theorem view_write (t : Sides T) {gcnt : Nat} (h : gcnt < S) (f : T → T) :
    ∃ t', write S t gcnt f = some t' ∧
      ∀ k < S, view S t' k = putAt (view S t) gcnt f k := by
  have hfind : find S t gcnt true = t.findSide statOn (word S t (gcnt >>> 6)) gcnt true :=
    if_neg (by omega)
  refine ⟨_, by rw [write, hfind, Sides.get_findSide_back], fun k hk => ?_⟩
  obtain ⟨ha, hb⟩ := setWord_sides (S := S) (t.store (f (t.slot (word S t (gcnt >>> 6)) gcnt).back)
    (t.findSide statOn (word S t (gcnt >>> 6)) gcnt true)) (gcnt >>> 6)
    (word S (t.store (f (t.slot (word S t (gcnt >>> 6)) gcnt).back)
      (t.findSide statOn (word S t (gcnt >>> 6)) gcnt true)) (gcnt >>> 6) ^^^ bits gcnt)
  refine Sides.slot_write statOn (word S t) f rfl ha hb ?_
  rw [swapSide, word_setWord _ _ (shift_le h) (shift_le hk)]
  simp only [Function.update, word_store]

end Lookup

namespace DualBuffered

/-- The slot of an index of the tools' table. -/
def view (t : DualBuffered T) (k : Nat) : Slot T := t.slot (t.dataSideBmp (k >>> 6)) k

theorem gcnt_lt (key : UInt32) : gcnt key < maxStragePerGroup := Nat.mod_lt _ (by decide)

variable (t : DualBuffered T)

theorem find_eq (key : UInt32) (flag : Bool) :
    find t key flag =
      t.findSide linkmapstatOn (t.dataSideBmp (gcnt key >>> 6)) (gcnt key) flag :=
  if_neg (Nat.not_lt.mpr (Nat.le_of_lt (gcnt_lt key)))

theorem get_find_front (key : UInt32) :
    t.get (find t key false) = shown linkmapstatOn (view t (gcnt key)).front := by
  rw [find_eq]
  exact t.get_findSide_front linkmapstatOn _ (gcnt key)

omit [Stat T] in
theorem view_swapSide (key : UInt32) :
    view (swapSide t key) =
      Function.update (view t) (gcnt key) (view t (gcnt key)).turn := by
  funext k
  have hside := has_swapped t.dataSideBmp (gcnt key) k
  by_cases hk : k = gcnt key
  · subst hk
    rw [Function.update_self]
    rw [decide_eq_true rfl, Bool.xor_true] at hside
    unfold view swapSide Sides.slot Slot.turn
    exact congrArg (Slot.mk _ _) hside
  · rw [Function.update_of_ne hk]
    rw [decide_eq_false hk, Bool.xor_false] at hside
    exact Sides.slot_congr rfl rfl hside

theorem view_write (key : UInt32) (f : T → T) :
    ∃ t', write t key f = some t' ∧ view t' = putAt (view t) (gcnt key) f := by
  refine ⟨_, by rw [write, find_eq, Sides.get_findSide_back], funext fun k => ?_⟩
  refine Sides.slot_write linkmapstatOn t.dataSideBmp f rfl rfl rfl ?_
  simp only [notifyChange, swapSide, Sides.store_bmp]

end DualBuffered

end

/-! ## 6. Finite maps -/

inductive Op (K T : Type)
  | add (key : K) (itm : T)
  | del (key : K)
deriving Repr

namespace Op

variable {K K' T : Type}

def key : Op K T → K
  | .add k _ => k
  | .del k => k

/-- What a call writes into the back: the item with `valid` set, or the old record without. -/
def record [Stat T] (on : Bool) : Op K T → T → T
  | .add _ itm, _ => setValid itm on
  | .del _, v => setValid v !on

end Op

section

variable {K T : Type} [DecidableEq K] [Stat T]

/-- **The map a history stands for**: the item of the last call for `k` if that was an `Add`. -/
def lastValue (on : Bool) (ops : List (Op K T)) (k : K) : Option T :=
  match ops.reverse.find? (·.key = k) with
  | some (.add _ itm) => some (setValid itm on)
  | some (.del _) => none
  | none => none

theorem lastValue_snoc (on : Bool) (ops : List (Op K T)) (op : Op K T) (k : K) :
    lastValue on (ops ++ [op]) k =
      if op.key = k then lastValue on [op] k else lastValue on ops k := by
  unfold lastValue
  by_cases h : op.key = k <;> simp [h]

theorem shown_record (on : Bool) (op : Op K T) (v : T) :
    shown on (op.record on v) = lastValue on [op] op.key := by
  cases op with
  | add k itm => simp [shown, lastValue, Op.record, Op.key]
  | del k => simp [shown, lastValue, Op.record, Op.key]

omit [DecidableEq K] in
theorem shown_of_unused {on : Bool} {v : T} (h : valid v = !on) : shown on v = none :=
  if_neg (by simp [h])

end

section

variable {σ K T : Type} [DecidableEq K] [Stat T] {on : Bool} (apply : σ → Op K T → Option σ)
  (index : K → Nat) (InRange : K → Prop) {start : σ} {view : σ → Nat → Slot T}

/-- A class that puts the record of each call into the slot of its key is the map of its history,
as long as the keys have slots of their own. -/
theorem run_shown (hinj : ∀ k k', InRange k → InRange k' → index k = index k' → k = k')
    (hstart : ∀ k, InRange k → shown on (view start (index k)).front = none)
    (hput : ∀ t op, InRange op.key → ∃ t', apply t op = some t' ∧ ∀ k, InRange k →
      view t' (index k) = putAt (view t) (index op.key) (op.record on) (index k))
    (ops : List (Op K T)) (hops : ∀ op ∈ ops, InRange op.key) :
    ∃ t, ops.foldlM apply start = some t ∧
      ∀ k, InRange k → shown on (view t (index k)).front = lastValue on ops k := by
  induction ops using reverseRecOn with
  | nil => exact ⟨start, rfl, hstart⟩
  | append_singleton ops op ih =>
    obtain ⟨t, hrun, hshown⟩ := ih fun o ho => hops o (mem_append_left _ ho)
    have hop : InRange op.key := hops op (by simp)
    obtain ⟨t', happly, hview⟩ := hput t op hop
    refine ⟨t', ?_, fun k hk => ?_⟩
    · rw [foldlM_append, hrun]
      simp [happly]
    · rw [hview k hk, lastValue_snoc, putAt_front]
      by_cases hkey : op.key = k
      · subst hkey
        rw [if_pos rfl, if_pos rfl]
        exact shown_record on op _
      · have hne : index k ≠ index op.key := fun h => hkey (hinj k op.key hk hop h).symm
        rw [if_neg hne, if_neg hkey]
        exact hshown k hk

end

theorem map_code {α : Type} (o : Option α) : (o.map (·, (0 : Int))).map Prod.fst = o := by
  cases o <;> rfl

namespace Lookup

variable {T : Type} [Stat T]

def apply (S : Nat) (t : Sides T) : Op Nat T → Option (Sides T)
  | .add k itm => (add S t k itm false).map Prod.fst
  | .del k => (del S t k false).map Prod.fst

theorem apply_eq_write (S : Nat) (t : Sides T) (op : Op Nat T) :
    apply S t op = write S t op.key (op.record statOn) := by
  cases op with
  | add k itm => exact map_code (write S t k _)
  | del k => exact map_code (write S t k _)

theorem clear_shown (S k : Nat) : shown statOn (view S (clear : Sides T) k).front = none := by
  refine shown_of_unused ?_
  unfold Slot.front
  split <;> exact Stat.valid_setValid _ _

end Lookup

namespace DualBuffered

variable {T : Type} [Stat T]

def apply (t : DualBuffered T) : Op UInt32 T → Option (DualBuffered T)
  | .add key itm => (add t key itm false).map Prod.fst
  | .del key => (del t key false).map Prod.fst

theorem apply_eq_write (t : DualBuffered T) (op : Op UInt32 T) :
    apply t op = write t op.key (op.record linkmapstatOn) := by
  cases op with
  | add key itm => exact map_code (write t key _)
  | del key => exact map_code (write t key _)

/-- The upper half of a key, which the table drops. -/
def upperHalf (key : UInt32) : Nat := key.toNat / maxStragePerGroup

theorem gcnt_inj {key key' : UInt32} (h : upperHalf key = upperHalf key')
    (hgcnt : gcnt key = gcnt key') : key = key' := by
  unfold upperHalf maxStragePerGroup at h
  unfold gcnt at hgcnt
  exact UInt32.toNat_inj.mp (by omega)

theorem clear_shown (k : Nat) : shown linkmapstatOn (view (clear : DualBuffered T) k).front = none := by
  refine shown_of_unused ?_
  unfold Slot.front
  split <;> exact Stat.valid_zero

end DualBuffered

/-- **Both tables are finite maps.** `Find(k, 0)` hands out the item of the last `Add` of `k`,
with `valid` set, unless a `Del` of `k` came after it. The keys of the tools' table are told apart
by their lower halves, so they must agree in the upper ones. -/
theorem find_lastValue {T : Type} [Stat T] :
    (∀ (S : Nat) (ops : List (Op Nat T)) (k : Nat), (∀ op ∈ ops, op.key < S) → k < S →
      ∃ t, ops.foldlM (Lookup.apply S) Lookup.clear = some t ∧
        t.get (Lookup.find S t k false) = lastValue Lookup.statOn ops k) ∧
    (∀ (ops : List (Op UInt32 T)) (key : UInt32),
      (∀ op ∈ ops, DualBuffered.upperHalf op.key = DualBuffered.upperHalf key) →
      ∃ t, ops.foldlM DualBuffered.apply DualBuffered.clear = some t ∧
        t.get (DualBuffered.find t key false) = lastValue DualBuffered.linkmapstatOn ops key) := by
  constructor
  · intro S ops k hops hk
    obtain ⟨t, hrun, hshown⟩ := run_shown (Lookup.apply S) id (· < S) (fun _ _ _ _ h => h)
      (fun k _ => Lookup.clear_shown S k)
      (fun t op hop => by
        rw [Lookup.apply_eq_write]
        exact Lookup.view_write t hop _) ops hops
    exact ⟨t, hrun, (Lookup.get_find_front hk t).trans (hshown k hk)⟩
  · intro ops key hops
    obtain ⟨t, hrun, hshown⟩ := run_shown DualBuffered.apply DualBuffered.gcnt
      (fun k => DualBuffered.upperHalf k = DualBuffered.upperHalf key)
      (fun _ _ hk hk' => DualBuffered.gcnt_inj (hk.trans hk'.symm))
      (fun k _ => DualBuffered.clear_shown (DualBuffered.gcnt k))
      (fun t op _ => by
        obtain ⟨t', hwrite, hview⟩ := DualBuffered.view_write t op.key (op.record _)
        exact ⟨t', (DualBuffered.apply_eq_write t op).trans hwrite, fun k _ => congrFun hview _⟩)
      ops hops
    exact ⟨t, hrun, (DualBuffered.get_find_front t key).trans (hshown key rfl)⟩

def fullPolicer (commitBurstSize : UInt32) : Policer :=
  { (Stat.zero : Policer) with
    commitRate := commitBurstSize
    commitBurstSize := commitBurstSize }

/-- Two numbers of one word, the first of them deleted again, in both tables; the keys of the tools'
table have the upper half 1. -/
theorem find_after_del :
    (∃ t, [Op.add 3 (fullPolicer 7), .add 5 (fullPolicer 9), .del 3].foldlM
        (Lookup.apply 65536) Lookup.clear = some t ∧
      t.get (Lookup.find 65536 t 3 false) = none) ∧
    (∃ t, [Op.add 0x10003 (fullPolicer 7), .add 0x10005 (fullPolicer 9), .del 0x10003].foldlM
        DualBuffered.apply DualBuffered.clear = some t ∧
      t.get (DualBuffered.find t 0x10005 false) = some { fullPolicer 9 with valid := true }) :=
  ⟨find_lastValue.1 65536 [.add 3 (fullPolicer 7), .add 5 (fullPolicer 9), .del 3] 3
      (by simp [Op.key]) (by decide),
    find_lastValue.2 [.add 0x10003 (fullPolicer 7), .add 0x10005 (fullPolicer 9), .del 0x10003]
      0x10005 (by simp [Op.key, DualBuffered.upperHalf, DualBuffered.maxStragePerGroup])⟩

end MixiPgw.Table
