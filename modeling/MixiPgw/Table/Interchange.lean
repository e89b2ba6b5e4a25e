/-
# Two templates of one table

The tools have a copy of the dataplane's `Lookup<T,S,K>`, the template `LookupTable<T,S,K>`.
`Lookup::Clear` fills the records with zeros and then sets `stat.valid` to `STAT_OFF`;
`LookupTable::Clear` only fills them with zeros, and zero IS `STAT_ON`. So every key of a table of
the tools is in use from the beginning. The answers of the two agree EXACTLY on the histories that
look up a key only after an `Add` or a `Del` of it since the last `Clear` (`answers_eq_iff`).
-/
import MixiPgw.Table.DoubleBuffered

namespace MixiPgw.Table

open Lib Lib.Bitmap List Lookup Stat

/-! ## 1. `LookupTable<T,S,K>` -/

namespace LookupTable

section

variable {T : Type} (S : Nat)

/-! `data_side_bmp_` and `data_notice_bmp_` have `S>>6` words each and lie one behind the other, with
the clock behind both. An `S` that is no multiple of 64 has its last numbers in the next member. -/

def noticeWord (t : DualBuffered T) (i : Nat) : UInt64 :=
  if i < S >>> 6 then t.dataNoticeBmp i else t.virtualClockCounter

def setNoticeWord (t : DualBuffered T) (i : Nat) (w : UInt64) : DualBuffered T :=
  if i < S >>> 6 then { t with dataNoticeBmp := Function.update t.dataNoticeBmp i w }
  else { t with virtualClockCounter := w }

def sideWord (t : DualBuffered T) (i : Nat) : UInt64 :=
  if i < S >>> 6 then t.dataSideBmp i else noticeWord S t (i - S >>> 6)

def setSideWord (t : DualBuffered T) (i : Nat) (w : UInt64) : DualBuffered T :=
  if i < S >>> 6 then { t with dataSideBmp := Function.update t.dataSideBmp i w }
  else setNoticeWord S t (i - S >>> 6) w

/-- `Clear`: zeros and nothing else. -/
def clear [Stat T] : DualBuffered T := DualBuffered.clear

def find [Stat T] (t : DualBuffered T) (gcnt : Nat) (flag : Bool) : Iterator :=
  if gcnt > S - 1 then .fin
  else t.findSide Lookup.statOn (sideWord S t (gcnt >>> 6)) gcnt flag

def swapSide (t : DualBuffered T) (gcnt : Nat) : DualBuffered T :=
  setSideWord S t (gcnt >>> 6) (sideWord S t (gcnt >>> 6) ^^^ bits gcnt)

def notifyChange (t : DualBuffered T) (gcnt : Nat) : DualBuffered T :=
  setNoticeWord S t (gcnt >>> 6) (noticeWord S t (gcnt >>> 6) ^^^ bits gcnt)

def write [Stat T] (t : DualBuffered T) (gcnt : Nat) (f : T → T) : Option (DualBuffered T) :=
  match t.get (find S t gcnt true) with
  | none => none
  | some v =>
    some (notifyChange S
      (swapSide S { t with toSides := t.store (f v) (find S t gcnt true) } gcnt) gcnt)

def add [Stat T] (t : DualBuffered T) (gcnt : Nat) (itm : T) (nochkCounter : Bool) :
    Option (DualBuffered T × Int) :=
  match t.readPhase nochkCounter with
  | none => some (t, -1)
  | some s =>
    (write S { t with toSides := s } gcnt fun _ => setValid itm Lookup.statOn).map (·, 0)

def del [Stat T] (t : DualBuffered T) (gcnt : Nat) (nochkCounter : Bool) :
    Option (DualBuffered T × Int) :=
  match t.readPhase nochkCounter with
  | none => some (t, -1)
  | some s =>
    (write S { t with toSides := s } gcnt fun v => setValid v Lookup.statOff).map (·, 0)

def apply [Stat T] (t : DualBuffered T) : Op Nat T → Option (DualBuffered T)
  | .add k itm => (add S t k itm false).map Prod.fst
  | .del k => (del S t k false).map Prod.fst

end

/-! ## 2. Slots -/

section

variable {T : Type} [Stat T] {S : Nat}

theorem apply_eq_write (t : DualBuffered T) (op : Op Nat T) :
    apply S t op = write S t op.key (op.record Lookup.statOn) := by
  cases op with
  | add k itm => exact map_code (write S t k _)
  | del k => exact map_code (write S t k _)

variable {k : Nat}

theorem shift_lt (hS : 64 ∣ S) (h : k < S) : k >>> 6 < S >>> 6 := by
  obtain ⟨n, rfl⟩ := hS
  omega

theorem find_eq (hS : 64 ∣ S) (h : k < S) (t : DualBuffered T) (flag : Bool) :
    find S t k flag = t.findSide Lookup.statOn (t.dataSideBmp (k >>> 6)) k flag := by
  unfold find sideWord
  rw [if_neg (by omega), if_pos (shift_lt hS h)]

theorem view_write {gcnt : Nat} (hS : 64 ∣ S) (h : gcnt < S) (t : DualBuffered T) (f : T → T) :
    ∃ t', write S t gcnt f = some t' ∧ t'.view = putAt t.view gcnt f := by
  refine ⟨_, by rw [write, find_eq hS h, Sides.get_findSide_back], funext fun k => ?_⟩
  simp only [notifyChange, setNoticeWord, swapSide, setSideWord, sideWord, shift_lt hS h, if_true,
    Sides.store_bmp]
  exact Sides.slot_write Lookup.statOn t.dataSideBmp f rfl rfl rfl rfl

theorem get_find (hS : 64 ∣ S) (h : k < S) (t : DualBuffered T) :
    t.get (find S t k false) = shown Lookup.statOn (t.view k).front := by
  rw [find_eq hS h, Sides.get_findSide_front]
  rfl

end

end LookupTable

/-! ## 3. Histories -/

inductive Call (T : Type)
  | clear
  | update (op : Op Nat T)
  | find (k : Nat)
deriving Repr

section

variable {T : Type}

def Call.InRange (S : Nat) : Call T → Prop
  | .clear => True
  | .update op => op.key < S
  | .find k => k < S

/-- A call on the dataplane's table, with what a `Find(k, 0)` answers. -/
def Lookup.call [Stat T] (S : Nat) (t : Sides T) : Call T → Option (Sides T × List (Option T))
  | .clear => some (Lookup.clear, [])
  | .update op => (Lookup.apply S t op).map (·, [])
  | .find k => some (t, [t.get (Lookup.find S t k false)])

def LookupTable.call [Stat T] (S : Nat) (t : DualBuffered T) :
    Call T → Option (DualBuffered T × List (Option T))
  | .clear => some (LookupTable.clear, [])
  | .update op => (LookupTable.apply S t op).map (·, [])
  | .find k => some (t, [t.get (LookupTable.find S t k false)])

/-- The answers of a history, in order; `none` if a call throws. -/
def answers {σ : Type} (call : σ → Call T → Option (σ × List (Option T))) :
    σ → List (Call T) → Option (List (Option T))
  | _, [] => some []
  | s, c :: cs =>
    match call s c with
    | none => none
    | some (s', found) => (answers call s' cs).map (found ++ ·)

/-- Whether a call leaves `k` added or deleted since the last `Clear`. -/
def Call.touch (touched : List Nat) : Call T → List Nat
  | .clear => []
  | .update op => op.key :: touched
  | .find _ => touched

/-- **Every key that is looked up has been added or deleted since the last `Clear`.** -/
def FindsTouched : List Nat → List (Call T) → Prop
  | _, [] => True
  | touched, c :: cs => (∀ k, c = .find k → k ∈ touched) ∧ FindsTouched (c.touch touched) cs

end

/-! ## 4. Agreement -/

section

variable {T : Type} [Stat T] {S : Nat}

/-- **The coupling of the two tables.** They show the same for a key that has been touched; for any
other one the dataplane shows nothing and the tools a record of zeros. -/
def Coupled (S : Nat) (touched : List Nat) (t : DualBuffered T) (l : Sides T) : Prop :=
  ∀ k < S,
    (k ∈ touched → shown Lookup.statOn (t.view k).front =
      shown Lookup.statOn (view S l k).front) ∧
    (k ∉ touched → (t.view k).front = Stat.zero ∧
      shown Lookup.statOn (view S l k).front = none)

theorem shown_zero : shown Lookup.statOn (Stat.zero : T) = some Stat.zero :=
  if_pos valid_zero

theorem coupled_clear : Coupled (T := T) S [] LookupTable.clear Lookup.clear := by
  intro k _
  refine ⟨fun h => absurd h (by simp), fun _ => ⟨?_, shown_of_unused ?_⟩⟩
  · unfold Slot.front
    split <;> rfl
  · unfold Slot.front
    split <;> exact valid_setValid _ _

variable {touched : List Nat}

theorem Coupled.update {t t' : DualBuffered T} {l l' : Sides T} (h : Coupled S touched t l)
    (op : Op Nat T) (ht : t'.view = putAt t.view op.key (op.record Lookup.statOn))
    (hl : ∀ k < S, view S l' k = putAt (view S l) op.key (op.record Lookup.statOn) k) :
    Coupled S (op.key :: touched) t' l' := by
  intro k hk
  rw [ht, hl k hk, putAt_front, putAt_front]
  by_cases hkey : k = op.key
  · subst hkey
    rw [if_pos rfl, if_pos rfl, shown_record, shown_record]
    exact ⟨fun _ => rfl, fun hnot => absurd (mem_cons_self) hnot⟩
  · rw [if_neg hkey, if_neg hkey]
    obtain ⟨hmem, hnot⟩ := h k hk
    constructor
    · intro hk'
      exact hmem ((mem_cons.mp hk').resolve_left hkey)
    · intro hk'
      exact hnot fun hin => hk' (mem_cons_of_mem _ hin)

variable {t : DualBuffered T} {l : Sides T}

theorem Coupled.find (h : Coupled S touched t l) (hS : 64 ∣ S) {k : Nat} (hk : k < S) :
    t.get (LookupTable.find S t k false) = l.get (Lookup.find S l k false) ↔ k ∈ touched := by
  rw [LookupTable.get_find hS hk, Lookup.get_find_front hk]
  obtain ⟨hmem, hnot⟩ := h k hk
  by_cases hin : k ∈ touched
  · exact iff_of_true (hmem hin) hin
  · obtain ⟨hzero, hnone⟩ := hnot hin
    refine iff_of_false ?_ hin
    rw [hzero, hnone, shown_zero]
    exact Option.some_ne_none _

theorem Coupled.call (h : Coupled S touched t l) (hS : 64 ∣ S) (c : Call T) (hc : c.InRange S) :
    ∃ t' found l' found', LookupTable.call S t c = some (t', found) ∧
      Lookup.call S l c = some (l', found') ∧ Coupled S (c.touch touched) t' l' ∧
      found.length = found'.length ∧ (found = found' ↔ ∀ k, c = .find k → k ∈ touched) := by
  cases c with
  | clear =>
    refine ⟨_, [], _, [], rfl, rfl, coupled_clear, rfl, iff_of_true rfl ?_⟩
    intro k hk
    cases hk
  | update op =>
    obtain ⟨t', hwrite, ht⟩ := LookupTable.view_write hS hc t (op.record Lookup.statOn)
    obtain ⟨l', hwrite', hl⟩ := Lookup.view_write l hc (op.record Lookup.statOn)
    refine ⟨t', [], l', [], ?_, ?_, h.update op ht hl, rfl, iff_of_true rfl ?_⟩
    · rw [LookupTable.call, LookupTable.apply_eq_write, hwrite]
      rfl
    · rw [Lookup.call, Lookup.apply_eq_write, hwrite']
      rfl
    · intro k hk
      cases hk
  | find k =>
    refine ⟨t, _, l, _, rfl, rfl, h, rfl, ?_⟩
    rw [cons_eq_cons, and_iff_left rfl, h.find hS hc]
    constructor
    · rintro hk k' hk'
      cases hk'
      exact hk
    · exact fun hall => hall k rfl

theorem Coupled.answers {cs : List (Call T)} : ∀ {touched : List Nat} {t : DualBuffered T}
    {l : Sides T}, Coupled S touched t l → 64 ∣ S → (∀ c ∈ cs, c.InRange S) →
    ∃ found found', Table.answers (LookupTable.call S) t cs = some found ∧
      Table.answers (Lookup.call S) l cs = some found' ∧
      (found = found' ↔ FindsTouched touched cs) := by
  induction cs with
  | nil => exact fun _ _ _ => ⟨[], [], rfl, rfl, iff_of_true rfl trivial⟩
  | cons c cs ih =>
    intro touched t l h hS hcs
    obtain ⟨t', f, l', f', ht, hl, hnext, hlen, hagree⟩ := h.call hS c (hcs c (mem_cons_self))
    obtain ⟨found, found', hfound, hfound', hrest⟩ :=
      ih hnext hS fun c' hc' => hcs c' (mem_cons_of_mem _ hc')
    refine ⟨f ++ found, f' ++ found', ?_, ?_, ?_⟩
    · simp [Table.answers, ht, hfound]
    · simp [Table.answers, hl, hfound']
    · rw [append_eq_append_iff_of_size_eq_left hlen, hagree, hrest]
      rfl

/-- **The two templates answer alike exactly if every lookup comes after an `Add` or a `Del` of
its key.** -/
theorem answers_eq_iff (hS : 64 ∣ S) (cs : List (Call T)) (hcs : ∀ c ∈ cs, c.InRange S) :
    ∃ found found', answers (LookupTable.call S) LookupTable.clear cs = some found ∧
      answers (Lookup.call S) Lookup.clear cs = some found' ∧
      (found = found' ↔ FindsTouched [] cs) :=
  coupled_clear.answers hS hcs

/-- A table of the size the tools have, with an entry added, looked up, deleted and looked up. -/
theorem answers_add_del :
    ∃ found found',
      answers (LookupTable.call 1048576) LookupTable.clear
        [.update (.add 5 (⟨false, 0, 7, 7, 0, 0, 0, 0⟩ : Policer)), .find 5, .update (.del 5),
          .find 5] = some found ∧
      answers (Lookup.call 1048576) Lookup.clear
        [.update (.add 5 (⟨false, 0, 7, 7, 0, 0, 0, 0⟩ : Policer)), .find 5, .update (.del 5),
          .find 5] = some found' ∧ found = found' := by
  obtain ⟨found, found', hfound, hfound', hagree⟩ := answers_eq_iff (S := 1048576) (by decide)
    [.update (.add 5 (⟨false, 0, 7, 7, 0, 0, 0, 0⟩ : Policer)), .find 5, .update (.del 5), .find 5]
    (by simp [Call.InRange, Op.key])
  exact ⟨found, found', hfound, hfound', hagree.mpr (by simp [FindsTouched, Call.touch, Op.key])⟩

/-- **A key that was never added is found in the tools' table**, and again after a `Clear`. -/
theorem find_never_added :
    answers (LookupTable.call 1048576) LookupTable.clear
      [.find 5, .update (.del 5), .find 5, .clear, .find 5] =
        some [some (Stat.zero : Policer), none, some Stat.zero] ∧
    answers (Lookup.call 1048576) Lookup.clear
      [.find 5, .update (.del 5), .find 5, .clear, .find 5] =
        some [(none : Option Policer), none, none] := by
  decide +kernel

end

end MixiPgw.Table
