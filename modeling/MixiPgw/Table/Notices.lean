/-
# Change notices

`DualBufferedLookupTable` keeps a second bitmap, `data_notice_bmp_`, from which another thread is to
learn what has changed. `NotifyChange` does not SET the bit of the key, it flips it, so two changes
between two clears leave no notice. And the bit is that of the key's lower 16 bits, so a change of
one key is a notice for all keys that share them. The notices of a key are exact throughout a run
if and ONLY if every change of its bit is a change of the key itself, and the first one since the
last clear (`notices_exact_iff`).
-/
import MixiPgw.Lib.Run
import MixiPgw.Table.DoubleBuffered

namespace MixiPgw.Table.DualBuffered

open Lib Lib.Bitmap Option List

/-! ## 1. The calls -/

section

variable {T : Type}

def clearNoticeBmp64 (t : DualBuffered T) (gcnt : UInt16) : DualBuffered T :=
  if gcnt.toNat ≤ maxStragePerGroup then
    { t with dataNoticeBmp := Function.update t.dataNoticeBmp (gcnt.toNat >>> 6) 0 }
  else t

def findNoticeBmp64 (t : DualBuffered T) (gcnt : UInt16) : UInt64 :=
  if gcnt.toNat > maxStragePerGroup then 0 else t.dataNoticeBmp (gcnt.toNat >>> 6)

end

/-- A call that has to do with notices. `nochk` is `nochk_counter`, with which an `Add` or a `Del`
fails unless the clock has moved on. -/
inductive NoticeCall (T : Type)
  | add (key : UInt32) (itm : T) (nochk : Bool)
  | del (key : UInt32) (nochk : Bool)
  | notifyChange (key : UInt32)
  | clearNoticeBmp64 (gcnt : UInt16)
  | clock
deriving Repr

/-! ## 2. One bit -/

section

variable {T : Type}

def noticed (t : DualBuffered T) (k : Nat) : Bool := has (t.dataNoticeBmp (k >>> 6)) (bits k)

variable (t : DualBuffered T) (key : UInt32)

theorem noticed_notifyChange (k : Nat) :
    noticed (notifyChange t key) k = (noticed t k ^^ decide (k = gcnt key)) :=
  has_swapped t.dataNoticeBmp (gcnt key) k

theorem toNat_toUInt16 : key.toUInt16.toNat = gcnt key := rfl

theorem noticed_clearNoticeBmp64 (gcnt : UInt16) (k : Nat) :
    noticed (clearNoticeBmp64 t gcnt) k =
      if k >>> 6 = gcnt.toNat >>> 6 then false else noticed t k := by
  have hle : gcnt.toNat ≤ maxStragePerGroup := by
    have := gcnt.toNat_lt
    simp only [maxStragePerGroup]
    omega
  unfold clearNoticeBmp64 noticed
  rw [if_pos hle]
  by_cases hk : k >>> 6 = gcnt.toNat >>> 6
  · simp [hk, has]
  · simp [hk]

theorem getLsbD_findNoticeBmp64 :
    (findNoticeBmp64 t key.toUInt16).toBitVec.getLsbD (key.toNat % 64) = noticed t (gcnt key) := by
  have hle : ¬gcnt key > maxStragePerGroup := Nat.not_lt.mpr (Nat.le_of_lt (gcnt_lt key))
  have hbit : key.toNat % 64 = gcnt key % 64 := by
    unfold gcnt
    omega
  unfold findNoticeBmp64
  rw [toNat_toUInt16, if_neg hle, hbit, ← has_bits]
  rfl

theorem noticed_write [Stat T] {t t' : DualBuffered T} {key : UInt32} {f : T → T}
    (h : write t key f = some t') (k : Nat) :
    noticed t' k = (noticed t k ^^ decide (k = gcnt key)) := by
  rw [write, find_eq, Sides.get_findSide_back] at h
  obtain rfl := some.inj h
  exact noticed_notifyChange _ key k

end

/-! ## 3. Runs -/

structure Noted (T : Type) where
  table : DualBuffered T
  touched : List UInt32

section

variable {T : Type} [Stat T]

namespace NoticeCall

/-- The key a call changes or notifies; a call that fails in its read phase changes none. -/
def touches (t : DualBuffered T) : NoticeCall T → Option UInt32
  | .add key _ nochk => if (t.readPhase nochk).isSome then some key else none
  | .del key nochk => if (t.readPhase nochk).isSome then some key else none
  | .notifyChange key => some key
  | .clearNoticeBmp64 _ => none
  | .clock => none

/-- The table behind a call; `none` is an exception. -/
def table (t : DualBuffered T) : NoticeCall T → Option (DualBuffered T)
  | .add key itm nochk => (DualBuffered.add t key itm nochk).map Prod.fst
  | .del key nochk => (DualBuffered.del t key nochk).map Prod.fst
  | .notifyChange key => some (DualBuffered.notifyChange t key)
  | .clearNoticeBmp64 gcnt => some (DualBuffered.clearNoticeBmp64 t gcnt)
  | .clock => some { t with toSides := t.clock }

/-- The keys that stay changed: a clear takes out those of its word. -/
def kept (touched : List UInt32) : NoticeCall T → List UInt32
  | .clearNoticeBmp64 g => touched.filter fun key => gcnt key >>> 6 ≠ g.toNat >>> 6
  | _ => touched

end NoticeCall

def Noted.step (s : Noted T) (call : NoticeCall T) : Option (Noted T) :=
  (call.table s.table).map fun t => ⟨t, (call.touches s.table).toList ++ call.kept s.touched⟩

/-- **The notice of a key is exact**: its bit is set if and only if the key has been added, deleted
or notified since the last clear of its word. -/
def Noted.Exact (key : UInt32) (s : Noted T) : Prop :=
  (findNoticeBmp64 s.table key.toUInt16).toBitVec.getLsbD (key.toNat % 64) = true ↔
    key ∈ s.touched

instance (key : UInt32) (s : Noted T) : Decidable (s.Exact key) :=
  inferInstanceAs (Decidable (_ ↔ _))

/-- A call that reaches the bit of a key does so for the key itself, for the first time since the
last clear. -/
def FirstTouch (key : UInt32) (s : Noted T) (call : NoticeCall T) : Prop :=
  ∀ key', call.touches s.table = some key' → gcnt key' = gcnt key → key' = key ∧ key ∉ s.touched

/-! ## 4. Exactness -/

variable {t t' : DualBuffered T}

theorem noticed_updated {key : UInt32} {nochk : Bool} {f : T → T}
    (h : (match t.readPhase nochk with
      | none => some (t, (-1 : Int))
      | some s => (write { t with toSides := s } key f).map (·, 0)).map Prod.fst = some t')
    (k : Nat) :
    noticed t' k = (noticed t k ^^
      ((if (t.readPhase nochk).isSome then some key else none).any fun key' => k = gcnt key')) := by
  cases hread : t.readPhase nochk with
  | none =>
    rw [hread] at h
    obtain rfl := some.inj h
    simp
  | some s =>
    rw [hread] at h
    have hwrite : write { t with toSides := s } key f = some t' := by
      rw [← h]
      exact (map_code _).symm
    have hbit : noticed t' k = (noticed t k ^^ decide (k = gcnt key)) := noticed_write hwrite k
    simpa using hbit

variable {call : NoticeCall T}

/-- What a call does to a bit: it flips it if it touches a key of the bit, and a clear of the
word clears it. -/
theorem noticed_table (h : call.table t = some t') (k : Nat) :
    noticed t' k = match call with
      | .clearNoticeBmp64 g => if k >>> 6 = g.toNat >>> 6 then false else noticed t k
      | call => noticed t k ^^ (call.touches t).any fun key => k = gcnt key := by
  cases call with
  | add key itm nochk => exact noticed_updated h k
  | del key nochk => exact noticed_updated h k
  | notifyChange key =>
    obtain rfl := some.inj h
    simpa [NoticeCall.touches] using noticed_notifyChange t key k
  | clearNoticeBmp64 g =>
    obtain rfl := some.inj h
    exact noticed_clearNoticeBmp64 t g k
  | clock =>
    obtain rfl := some.inj h
    simp [NoticeCall.touches, noticed]

omit [Stat T] in
theorem exact_iff_noticed (key : UInt32) (s : Noted T) :
    s.Exact key ↔ (noticed s.table (gcnt key) = true ↔ key ∈ s.touched) := by
  rw [Noted.Exact, getLsbD_findNoticeBmp64]

theorem exact_step {key : UInt32} {s s' : Noted T} (hexact : s.Exact key)
    (h : s.step call = some s') : s'.Exact key ↔ FirstTouch key s call := by
  obtain ⟨t', htable, rfl⟩ := map_eq_some_iff.mp h
  have hbit := noticed_table htable (gcnt key)
  rw [exact_iff_noticed] at hexact ⊢
  by_cases hclear : ∃ g, call = .clearNoticeBmp64 g
  · obtain ⟨g, rfl⟩ := hclear
    have hfirst : FirstTouch key s (.clearNoticeBmp64 g) := fun _ hnone => nomatch hnone
    rw [hbit]
    simp only [NoticeCall.touches, NoticeCall.kept, toList_none, nil_append,
      mem_filter, decide_eq_true_eq, hfirst, iff_true]
    by_cases hword : gcnt key >>> 6 = g.toNat >>> 6
    · simp [hword]
    · simp [hword, hexact]
  · have hkept : call.kept s.touched = s.touched := by
      cases call with
      | clearNoticeBmp64 g => exact absurd ⟨g, rfl⟩ hclear
      | _ => rfl
    have hflip : noticed t' (gcnt key) = (noticed s.table (gcnt key) ^^
        (call.touches s.table).any fun key' => gcnt key = gcnt key') := by
      cases call with
      | clearNoticeBmp64 g => exact absurd ⟨g, rfl⟩ hclear
      | _ => exact hbit
    rw [hkept, hflip]
    unfold FirstTouch
    cases htouch : call.touches s.table with
    | none => simpa using hexact
    | some key' =>
      by_cases hslot : gcnt key' = gcnt key
      · -- the bit turns, the ghost gets `key'`
        have hturn : ((noticed s.table (gcnt key) ^^
            (some key').any fun key'' => gcnt key = gcnt key'') = true) ↔ key ∉ s.touched := by
          rw [← hexact]
          simp [hslot]
        rw [hturn]
        constructor
        · intro hnew key'' hkey'' _
          obtain rfl := some.inj hkey''
          by_cases hold : key ∈ s.touched
          · exact absurd hold (hnew.mpr (mem_append_right _ hold))
          · refine ⟨?_, hold⟩
            have hmem := hnew.mp hold
            simp only [toList_some, singleton_append, mem_cons] at hmem
            exact (hmem.resolve_right hold).symm
        · intro hfirst
          obtain ⟨rfl, hold⟩ := hfirst key' rfl hslot
          exact iff_of_true hold (by simp)
      · have hne : key ≠ key' := fun heq => hslot (by rw [heq])
        have hne' : ¬gcnt key = gcnt key' := fun heq => hslot heq.symm
        simpa [hslot, hne, hne'] using hexact

/-- **The notices of a key are exact throughout a run if and only if every change of its bit is the
first change of the key since the last clear.** -/
theorem notices_exact_iff (key : UInt32) (calls : List (NoticeCall T)) :
    Throughout Noted.step (Noted.Exact key) ⟨clear, []⟩ calls ↔
      EachStep Noted.step (FirstTouch key) ⟨clear, []⟩ calls := by
  have hstart : Noted.Exact key (⟨clear, []⟩ : Noted T) := by
    rw [exact_iff_noticed]
    exact iff_of_false (by simp [noticed, clear, has]) (by simp)
  exact throughout_iff_eachStep
    (fun _ _ _ hexact _ hstep => exact_step hexact hstep) hstart eachStep_true

/-- **Two `Add`s of a key leave no notice of it**, and a `Del` of a key is a notice for another key
of the same 16 bits. -/
theorem notices_lost_and_false :
    ¬Throughout Noted.step (Noted.Exact 5) ⟨clear, []⟩
      [.add 5 (Stat.zero : Policer) false, .add 5 Stat.zero false] ∧
    ([.add 5 (Stat.zero : Policer) false, .add 5 Stat.zero false].foldlM Noted.step
      ⟨clear, []⟩).map (fun s => (findNoticeBmp64 s.table 5, s.touched)) = some (0, [5, 5]) ∧
    ([(.del 0x10005 false : NoticeCall Policer)].foldlM Noted.step
      ⟨clear, []⟩).map (fun s => (findNoticeBmp64 s.table 5, s.touched)) = some (32, [0x10005]) := by
  decide +kernel

end

end MixiPgw.Table.DualBuffered
