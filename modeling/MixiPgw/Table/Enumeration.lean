/-
# Enumerating a table for an update

`EnumerateForUpdate` of both tables (dataplane/inc/lookup_tpl.hh,
tools/src/lib_lookup/dual_buffered_lookup_table.hh): from index 1 on every front is copied to the
back, handed to a function and marked as in use; then whole words of the bitmap are turned round.
`enumerateForUpdate_map_iff`: EXACTLY for which tables and functions this is a map over the table.
-/
import MixiPgw.Table.DoubleBuffered

namespace MixiPgw.Table

open Lib Lib.Bitmap List DualBuffered

/-! ## 1. The loops -/

structure Enumeration (T : Type) where
  sides : Sides T
  calls : Nat → List T

section

variable {T : Type} [Stat T] (on : Bool) (f : T → T)

/-- The body of the first loop; `word` is the word of the bitmap. -/
def Enumeration.next (word : UInt64) (e : Enumeration T) (gcnt : Nat) : Enumeration T :=
  let a := e.sides.dataSideA gcnt
  let b := e.sides.dataSideB gcnt
  if has word (bits gcnt) then
    { sides :=
        { e.sides with
          dataSideB := Function.update e.sides.dataSideB gcnt (setValid (f a) on) }
      calls := Function.update e.calls gcnt (e.calls gcnt ++ [a]) }
  else
    { sides :=
        { e.sides with
          dataSideA := Function.update e.sides.dataSideA gcnt (setValid (f b) on) }
      calls := Function.update e.calls gcnt (e.calls gcnt ++ [b]) }

/-- The first loop, which does not write the bitmap it reads. -/
def Enumeration.loop (words : Nat → UInt64) (e : Enumeration T) (gcnts : List Nat) :
    Enumeration T :=
  gcnts.foldl (fun e gcnt => e.next on f (words (gcnt >>> 6)) gcnt) e

omit [Stat T] in
/-- The second loop turns the first `n` words of the bitmap round. -/
def Sides.turnWords (t : Sides T) (n : Nat) : Sides T :=
  { t with dataSideBmp := fun i => if i < n then t.dataSideBmp i ^^^ (-1) else t.dataSideBmp i }

def Sides.enumerate (t : Sides T) (words : Nat → UInt64) (S : Nat) : Enumeration T :=
  let e := Enumeration.loop on f words ⟨t, fun _ => []⟩ (range' 1 (S - 1))
  { e with sides := e.sides.turnWords (S >>> 6) }

end

def Lookup.enumerateForUpdate {T : Type} [Stat T] (S : Nat) (t : Sides T) (f : T → T) :
    Enumeration T :=
  t.enumerate statOn f (word S t) S

def DualBuffered.enumerateForUpdate {T : Type} [Stat T] (t : DualBuffered T) (f : T → T) :
    DualBuffered T × (Nat → List T) :=
  let e := t.enumerate linkmapstatOn f t.dataSideBmp maxStragePerGroup
  ({ t with toSides := e.sides }, e.calls)

/-! ## 2. One slot -/

section

variable {T : Type} [Stat T] (on : Bool) (f : T → T)

/-- What the loops make of a slot; `visited` and `turned` say which of them reach it. -/
def enumerated (visited turned : Bool) (s : Slot T) : Slot T :=
  let s := if visited then s.setBack (setValid (f s.front) on) else s
  if turned then s.turn else s

variable (words : Nat → UInt64)

theorem Enumeration.next_spec (e : Enumeration T) (gcnt k : Nat) :
    (e.next on f (words (gcnt >>> 6)) gcnt).sides.dataSideBmp = e.sides.dataSideBmp ∧
    (e.next on f (words (gcnt >>> 6)) gcnt).sides.virtualClockCounter =
      e.sides.virtualClockCounter ∧
    (e.next on f (words (gcnt >>> 6)) gcnt).sides.slot (words (k >>> 6)) k =
      enumerated on f (k = gcnt) false (e.sides.slot (words (k >>> 6)) k) ∧
    (e.next on f (words (gcnt >>> 6)) gcnt).calls k =
      e.calls k ++ if k = gcnt then [(e.sides.slot (words (k >>> 6)) k).front] else [] := by
  unfold next enumerated Sides.slot Slot.setBack Slot.front
  by_cases hk : k = gcnt
  · subst hk
    cases has (words (k >>> 6)) (bits k) <;> simp
  · cases has (words (gcnt >>> 6)) (bits gcnt) <;> simp [hk]

theorem Enumeration.loop_spec {gcnts : List Nat} (hnodup : gcnts.Nodup) (e : Enumeration T) :
    (e.loop on f words gcnts).sides.dataSideBmp = e.sides.dataSideBmp ∧
    (e.loop on f words gcnts).sides.virtualClockCounter = e.sides.virtualClockCounter ∧
    ∀ k, (e.loop on f words gcnts).sides.slot (words (k >>> 6)) k =
        enumerated on f (k ∈ gcnts) false (e.sides.slot (words (k >>> 6)) k) ∧
      (e.loop on f words gcnts).calls k =
        e.calls k ++ if k ∈ gcnts then [(e.sides.slot (words (k >>> 6)) k).front] else [] := by
  induction gcnts generalizing e with
  | nil => simp [loop, enumerated]
  | cons gcnt gcnts ih =>
    obtain ⟨hnot, hrest⟩ := nodup_cons.mp hnodup
    obtain ⟨hbmp, hclock, hloop⟩ := ih hrest (e.next on f (words (gcnt >>> 6)) gcnt)
    refine ⟨hbmp.trans (e.next_spec on f words gcnt 0).1,
      hclock.trans (e.next_spec on f words gcnt 0).2.1, fun k => ?_⟩
    obtain ⟨hslot, hcalls⟩ := hloop k
    obtain ⟨-, -, hslot', hcalls'⟩ := e.next_spec on f words gcnt k
    change (loop on f words (e.next on f (words (gcnt >>> 6)) gcnt) gcnts).sides.slot _ k = _ ∧ _
    change _ ∧ (loop on f words (e.next on f (words (gcnt >>> 6)) gcnt) gcnts).calls k = _
    rw [hslot, hcalls, hslot', hcalls']
    by_cases hk : k = gcnt
    · subst hk
      simp [hnot, enumerated]
    · simp [hk, enumerated]

omit [Stat T] in
theorem slot_turned (t : Sides T) (w : UInt64) (k : Nat) :
    t.slot (w ^^^ (-1)) k = (t.slot w k).turn := by
  have hlt := Nat.mod_lt k (show 0 < 64 by decide)
  have hside : has (w ^^^ (-1)) (bits k) = !has w (bits k) := by
    rw [has_bits, has_bits, UInt64.toBitVec_xor, BitVec.getLsbD_xor,
      show (-1 : UInt64).toBitVec = BitVec.allOnes 64 by decide, BitVec.getLsbD_allOnes]
    simp [hlt]
  unfold Sides.slot Slot.turn
  rw [hside]

/-- Both loops on a slot, which reads the word `w` behind them. -/
theorem Sides.enumerate_spec (t : Sides T) (words : Nat → UInt64) (S k : Nat) {w : UInt64}
    (hw : w = if k >>> 6 < S >>> 6 then words (k >>> 6) ^^^ (-1) else words (k >>> 6)) :
    (t.enumerate on f words S).sides.slot w k =
        enumerated on f (0 < k ∧ k < S) (k >>> 6 < S >>> 6) (t.slot (words (k >>> 6)) k) ∧
      (t.enumerate on f words S).calls k =
        if 0 < k ∧ k < S then [(t.slot (words (k >>> 6)) k).front] else [] := by
  obtain ⟨-, -, hloop⟩ := Enumeration.loop_spec on f words
    (nodup_range' (s := 1) (n := S - 1)) ⟨t, fun _ => []⟩
  obtain ⟨hslot, hcalls⟩ := hloop k
  have hmem : (k ∈ range' 1 (S - 1)) = (0 < k ∧ k < S) := by
    rw [mem_range'_1, eq_iff_iff]
    omega
  simp only [hmem] at hslot hcalls
  refine ⟨?_, hcalls⟩
  by_cases hturned : k >>> 6 < S >>> 6
  · rw [hw, if_pos hturned, slot_turned, decide_eq_true hturned]
    exact congrArg Slot.turn hslot
  · rw [hw, if_neg hturned, decide_eq_false hturned]
    exact hslot

theorem Sides.enumerate_bmp (t : Sides T) (words : Nat → UInt64) (S i : Nat) :
    (t.enumerate on f words S).sides.dataSideBmp i =
        (if i < S >>> 6 then t.dataSideBmp i ^^^ (-1) else t.dataSideBmp i) ∧
      (t.enumerate on f words S).sides.virtualClockCounter = t.virtualClockCounter := by
  obtain ⟨hbmp, hclock, -⟩ := Enumeration.loop_spec on f words
    (nodup_range' (s := 1) (n := S - 1)) ⟨t, fun _ => []⟩
  exact ⟨by simp [enumerate, turnWords, hbmp], hclock⟩

theorem Lookup.view_enumerate (S : Nat) (t : Sides T) (k : Nat) :
    view S (enumerateForUpdate S t f).sides k =
        enumerated statOn f (0 < k ∧ k < S) (k >>> 6 < S >>> 6) (view S t k) ∧
      (enumerateForUpdate S t f).calls k = if 0 < k ∧ k < S then [(view S t k).front] else [] := by
  obtain ⟨hbmp, hclock⟩ := t.enumerate_bmp statOn f (word S t) S (k >>> 6)
  refine t.enumerate_spec statOn f (word S t) S k ?_
  by_cases hk : k >>> 6 < S >>> 6 <;> simp [enumerateForUpdate, word, hk, hbmp, hclock]

theorem DualBuffered.view_enumerate (t : DualBuffered T) (key : UInt32) :
    view (enumerateForUpdate t f).1 (gcnt key) =
        enumerated linkmapstatOn f (0 < gcnt key) true (view t (gcnt key)) ∧
      (enumerateForUpdate t f).2 (gcnt key) =
        if 0 < gcnt key then [(view t (gcnt key)).front] else [] := by
  have hk := gcnt_lt key
  have hword : gcnt key >>> 6 < maxStragePerGroup >>> 6 := by
    simp only [maxStragePerGroup] at hk ⊢
    omega
  have hspec := t.enumerate_spec linkmapstatOn f t.dataSideBmp maxStragePerGroup (gcnt key)
    (t.enumerate_bmp linkmapstatOn f t.dataSideBmp maxStragePerGroup (gcnt key >>> 6)).1
  simpa only [hk, hword, and_true, decide_true, view, enumerateForUpdate] using hspec

/-! ## 3. The map over the table -/

/-- The function is called once on a record that is found, and its result is found behind the
enumeration; what is not found stays so. -/
def Mapped (found found' : Option T) (calls : List T) : Prop :=
  found' = found.map f ∧ ∀ r, found = some r → calls = [r]

/-- When that is so: an index that is not visited must not be in use on any side that shows, and one
that is visited is in use behind the turn, whatever it was. -/
def Mappable (visited turned : Bool) (s : Slot T) : Prop :=
  match visited, turned with
  | false, false => shown on s.front = none
  | false, true => shown on s.front = none ∧ shown on s.back = none
  | true, false => ∀ r, shown on s.front = some r → f r = r
  | true, true => ∃ r, shown on s.front = some r ∧ setValid (f r) on = f r

theorem mapped_iff_mappable (visited turned : Bool) (s : Slot T) :
    Mapped f (shown on s.front) (shown on (enumerated on f visited turned s).front)
      (if visited then [s.front] else []) ↔ Mappable on f visited turned s := by
  unfold Mapped Mappable enumerated
  cases visited with
  | false =>
    -- a record that is found here is handed to nobody
    cases h : shown on s.front <;> cases turned <;> simp [h]
  | true =>
    cases h : shown on s.front with
    | none => cases turned <;> simp [h, shown_setValid]
    | some r =>
      have hfront : s.front = r := Option.some.inj (Option.ite_none_right_eq_some.mp h).2
      rw [hfront] at h ⊢
      cases turned <;> simp [h, hfront, shown_setValid, eq_comm]

end

/-- **When `EnumerateForUpdate` is a map over the table**, over every number of the dataplane's
table and over every key of the tools'. -/
theorem enumerateForUpdate_map_iff {T : Type} [Stat T] (f : T → T) :
    (∀ (S : Nat) (t : Sides T),
      (∀ k < S, Mapped f (t.get (Lookup.find S t k false))
        ((Lookup.enumerateForUpdate S t f).sides.get
          (Lookup.find S (Lookup.enumerateForUpdate S t f).sides k false))
        ((Lookup.enumerateForUpdate S t f).calls k)) ↔
      ∀ k < S, Mappable Lookup.statOn f (0 < k) (k >>> 6 < S >>> 6) (Lookup.view S t k)) ∧
    (∀ t : DualBuffered T,
      (∀ key, Mapped f (t.get (DualBuffered.find t key false))
        ((enumerateForUpdate t f).1.get
          (DualBuffered.find (enumerateForUpdate t f).1 key false))
        ((enumerateForUpdate t f).2 (gcnt key))) ↔
      ∀ key, Mappable linkmapstatOn f (0 < gcnt key) true
        (view t (gcnt key))) := by
  constructor
  · intro S t
    refine forall₂_congr fun k hk => ?_
    obtain ⟨hview, hcalls⟩ := Lookup.view_enumerate f S t k
    rw [Lookup.get_find_front hk, Lookup.get_find_front hk, hview, hcalls]
    simpa [hk] using mapped_iff_mappable Lookup.statOn f (0 < k) (k >>> 6 < S >>> 6)
      (Lookup.view S t k)
  · intro t
    refine forall_congr' fun key => ?_
    obtain ⟨hview, hcalls⟩ := view_enumerate f t key
    rw [get_find_front, get_find_front, hview, hcalls]
    simpa using mapped_iff_mappable linkmapstatOn f (0 < gcnt key) true
      (view t (gcnt key))

def noPolicers : Sides Policer := Lookup.clear

def noPolicersOfTools : DualBuffered Policer := DualBuffered.clear

/-- In a fresh table key 1, which was not found, is found behind the enumeration. -/
theorem enumerateForUpdate_fills :
    (noPolicers.get (Lookup.find 65536 noPolicers 1 false) = none ∧
      (Lookup.enumerateForUpdate 65536 noPolicers id).sides.get
        (Lookup.find 65536 (Lookup.enumerateForUpdate 65536 noPolicers id).sides 1 false) =
          some (setValid Stat.zero Lookup.statOn)) ∧
    noPolicersOfTools.get (DualBuffered.find noPolicersOfTools 1 false) = none ∧
      (enumerateForUpdate noPolicersOfTools id).1.get
        (DualBuffered.find (enumerateForUpdate noPolicersOfTools id).1 1 false) =
          some (setValid Stat.zero linkmapstatOn) := by
  refine ⟨⟨by decide, ?_⟩, by decide, ?_⟩
  · rw [Lookup.get_find_front (by decide), (Lookup.view_enumerate id 65536 _ 1).1]
    rfl
  · rw [get_find_front, (view_enumerate id _ 1).1]
    rfl

end MixiPgw.Table
