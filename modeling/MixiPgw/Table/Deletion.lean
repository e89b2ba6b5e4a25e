/-
# Deleted records

Runs of `Add`, `Del` and `operator[]` on both tables (dataplane/inc/lookup_tpl.hh,
tools/src/lib_lookup/dual_buffered_lookup_table.hh). `Del` leaves the deleted record at the back,
where `operator[]` finds it and brings it to the front. `records_stay_deleted_iff`: EXACTLY which
runs show no record that has been deleted.
-/
import MixiPgw.Lib.Run
import MixiPgw.Table.DoubleBuffered

namespace MixiPgw.Table

open Lib Option List Sides Slot

/-- `stat.valid` is a field like any other: a write of the value it has changes nothing. -/
class LawfulStat (T : Type) [Stat T] : Prop where
  setValid_valid : ∀ t : T, setValid t (valid t) = t

instance : LawfulStat Policer := ⟨fun _ => rfl⟩

/-! ## 1. The calls -/

inductive KeyCall (K T : Type)
  | add (key : K) (itm : T) (nochkCounter : Bool)
  | del (key : K) (nochkCounter : Bool)
  | index (key : K)

/-- What it hands back: the code of `Add` and `Del`, or the record `operator[]` refers to. -/
inductive Reply (T : Type)
  | code (rc : Int)
  | record (v : T)

def KeyCall.key {K T : Type} : KeyCall K T → K
  | .add k _ _ => k
  | .del k _ => k
  | .index k => k

section

variable {T : Type} [Stat T]

def Lookup.index (S : Nat) (t : Sides T) (gcnt : Nat) : Option (Sides T × T) :=
  if gcnt > S - 1 then none
  else
    match t.get (find S t gcnt false) with
    | some v => some (t.store (setValid v statOn) (find S t gcnt false), setValid v statOn)
    | none =>
      match t.get (find S t gcnt true) with
      | none => none
      | some v =>
        some (swapSide S (t.store (setValid v statOn) (find S t gcnt true)) gcnt, setValid v statOn)

/-- `operator[]` of the tools, which notifies nobody. -/
def DualBuffered.index (t : DualBuffered T) (key : UInt32) : Option (DualBuffered T × T) :=
  if gcnt key > maxStragePerGroup then none
  else
    match t.get (find t key false) with
    | some v =>
      some ({ t with toSides := t.store (setValid v linkmapstatOn) (find t key false) },
        setValid v linkmapstatOn)
    | none =>
      match t.get (find t key true) with
      | none => none
      | some v =>
        some (swapSide
          { t with toSides := t.store (setValid v linkmapstatOn) (find t key true) } key,
          setValid v linkmapstatOn)

def Lookup.keyCall (S : Nat) (t : Sides T) : KeyCall Nat T → Option (Sides T × Reply T)
  | .add k itm nochk => (add S t k itm nochk).map fun r => (r.1, .code r.2)
  | .del k nochk => (del S t k nochk).map fun r => (r.1, .code r.2)
  | .index k => (index S t k).map fun r => (r.1, .record r.2)

def DualBuffered.keyCall (t : DualBuffered T) : KeyCall UInt32 T → Option (DualBuffered T × Reply T)
  | .add k itm nochk => (add t k itm nochk).map fun r => (r.1, .code r.2)
  | .del k nochk => (del t k nochk).map fun r => (r.1, .code r.2)
  | .index k => (index t k).map fun r => (r.1, .record r.2)

end

/-! ## 2. Slots -/

section

variable {K T : Type} [Stat T] (on : Bool)

def KeyCall.act (s : Slot T) : KeyCall K T → Slot T × Reply T
  | .add _ itm _ => (s.put (setValid itm on), .code 0)
  | .del _ _ => (s.put (setValid s.back !on), .code 0)
  | .index _ =>
    match shown on s.front with
    | some v => (s.setFront (setValid v on), .record (setValid v on))
    | none => (s.put (setValid s.back on), .record (setValid s.back on))

theorem KeyCall.act_found {s : Slot T} {u : T} (h : shown on s.front = some u) (k : K) :
    (KeyCall.index k).act on s = (s.setFront (setValid u on), .record (setValid u on)) := by
  simp only [act, h]

theorem KeyCall.act_missing {s : Slot T} (h : shown on s.front = none) (k : K) :
    (KeyCall.index k).act on s = (s.put (setValid s.back on), .record (setValid s.back on)) := by
  simp only [act, h]

/-- A call takes the slots `v` to `v'`; the reader's clock may refuse `Add` and `Del`. -/
inductive Acts (size : Nat) (slot : K → Nat) (v v' : Nat → Slot T) : KeyCall K T → Reply T → Prop
  | addRefused (k : K) (itm : T) (nochk : Bool) (same : ∀ j < size, v' j = v j) :
      Acts size slot v v' (.add k itm nochk) (.code (-1))
  | delRefused (k : K) (nochk : Bool) (same : ∀ j < size, v' j = v j) :
      Acts size slot v v' (.del k nochk) (.code (-1))
  | done (c : KeyCall K T) (s : Slot T) (r : Reply T) (range : slot c.key < size)
      (act : c.act on (v (slot c.key)) = (s, r))
      (update : ∀ j < size, v' j = Function.update v (slot c.key) s j) : Acts size slot v v' c r

/-- **A double-buffered table**: a class whose calls act on slots. -/
structure CallTable (τ K T : Type) [Stat T] where
  on : Bool
  size : Nat
  slot : K → Nat
  start : τ
  find : τ → K → Option T
  call : τ → KeyCall K T → Option (τ × Reply T)
  view : τ → Nat → Slot T
  find_eq : ∀ t k, slot k < size → find t k = shown on (view t (slot k)).front
  call_acts : ∀ t c t' r, call t c = some (t', r) → Acts on size slot (view t) (view t') c r
  start_unused : ∀ j, shown on (view start j).front = none

end

section

variable {T : Type} [Stat T]

theorem Sides.slot_store_found {t : Sides T} {on : Bool} {words : Nat → UInt64} {k : Nat} {u : T}
    (h : shown on (t.slot (words (k >>> 6)) k).front = some u) (v : T) (j : Nat) :
    (t.store v (t.findSide on (words (k >>> 6)) k false)).slot (words (j >>> 6)) j =
      Function.update (fun j => t.slot (words (j >>> 6)) j) k
        ((t.slot (words (k >>> 6)) k).setFront v) j := by
  by_cases hj : j = k
  · subst hj
    rw [Function.update_self]
    exact t.slot_store_front v (ite_none_right_eq_some.mp h).1
  · rw [Function.update_of_ne hj]
    obtain ⟨ha, hb⟩ := t.store_front_other on (words (k >>> 6)) v hj
    exact slot_congr ha hb rfl

omit [Stat T] in
theorem Sides.readPhase_spec {t t' : Sides T} {nochk : Bool} (h : t.readPhase nochk = some t') :
    t' = { t with virtualClockCounterPrv := t'.virtualClockCounterPrv } := by
  unfold readPhase at h
  split at h
  · split at h
    · exact nomatch h
    · exact some.inj h ▸ rfl
  · exact some.inj h ▸ rfl

namespace Lookup

variable {S : Nat}

theorem update_slots {t : Sides T} {nochk : Bool} {k : Nat} {f : T → T} {r : Sides T × Int}
    (hS : 0 < S)
    (h : (match t.readPhase nochk with
      | none => some (t, (-1 : Int))
      | some t => (write S t k f).map (·, 0)) = some r) :
    r = (t, -1) ∨ r.2 = 0 ∧ k < S ∧ ∀ j < S, view S r.1 j = putAt (view S t) k f j := by
  split at h
  · exact .inl (some.inj h).symm
  · next t₁ hread =>
    obtain ⟨t₂, hwrite, rfl⟩ := map_eq_some_iff.mp h
    have hview₁ : view S t₁ = view S t := by rw [readPhase_spec hread]; rfl
    by_cases hk : k < S
    · obtain ⟨t₃, hwrite', hview⟩ := view_write t₁ hk f
      obtain rfl := some.inj (hwrite'.symm.trans hwrite)
      exact .inr ⟨rfl, hk, hview₁ ▸ hview⟩
    · rw [write, find, if_pos (by omega)] at hwrite
      cases hwrite

theorem index_slots {t : Sides T} {k : Nat} {r : Sides T × T} (hS : 0 < S)
    (h : index S t k = some r) :
    Acts statOn S id (view S t) (view S r.1) (.index k) (.record r.2) := by
  unfold index at h
  split at h
  · exact nomatch h
  · next hle =>
    have hk : k < S := by omega
    have hfind : ∀ flag, find S t k flag = t.findSide statOn (word S t (k >>> 6)) k flag :=
      fun _ => if_neg hle
    rw [get_find_front hk] at h
    cases hfound : shown statOn (view S t k).front with
    | some u =>
      rw [hfound] at h
      cases h
      refine .done (.index k) _ _ hk (KeyCall.act_found statOn hfound k) fun j _ => ?_
      change slot _ (word S (t.store _ _) (j >>> 6)) j = _
      rw [word_store, hfind]
      exact slot_store_found hfound _ j
    | none =>
      rw [hfound, hfind true] at h
      simp only [get_findSide_back] at h
      cases h
      obtain ⟨t₁, hwrite, hview⟩ := view_write t hk (setValid · statOn)
      rw [write, hfind, get_findSide_back] at hwrite
      cases hwrite
      exact .done (.index k) _ _ hk (KeyCall.act_missing statOn hfound k) hview

theorem call_slots (hS : 0 < S) (t : Sides T) (c : KeyCall Nat T) (t' : Sides T) (r : Reply T)
    (h : keyCall S t c = some (t', r)) : Acts statOn S id (view S t) (view S t') c r := by
  cases c with
  | add k itm nochk =>
    obtain ⟨r₁, hadd, hr⟩ := map_eq_some_iff.mp h
    cases hr
    rcases update_slots hS hadd with rfl | ⟨hrc, hk, hview⟩
    · exact .addRefused k itm nochk fun _ _ => rfl
    · exact .done (.add k itm nochk) _ _ hk (hrc ▸ rfl) hview
  | del k nochk =>
    obtain ⟨r₁, hdel, hr⟩ := map_eq_some_iff.mp h
    cases hr
    rcases update_slots hS hdel with rfl | ⟨hrc, hk, hview⟩
    · exact .delRefused k nochk fun _ _ => rfl
    · exact .done (.del k nochk) _ _ hk (hrc ▸ rfl) hview
  | index k =>
    obtain ⟨r₁, hindex, hr⟩ := map_eq_some_iff.mp h
    cases hr
    exact index_slots hS hindex

end Lookup

namespace DualBuffered

theorem update_slots {t : DualBuffered T} {nochk : Bool} {key : UInt32} {f : T → T}
    {r : DualBuffered T × Int}
    (h : (match t.readPhase nochk with
      | none => some (t, (-1 : Int))
      | some s => (write { t with toSides := s } key f).map (·, 0)) = some r) :
    r = (t, -1) ∨ r.2 = 0 ∧ view r.1 = putAt (view t) (gcnt key) f := by
  split at h
  · exact .inl (some.inj h).symm
  · next s hread =>
    obtain ⟨t₁, hwrite, rfl⟩ := map_eq_some_iff.mp h
    obtain ⟨t₂, hwrite', hview⟩ := view_write { t with toSides := s } key f
    obtain rfl := some.inj (hwrite'.symm.trans hwrite)
    rw [readPhase_spec hread] at hview
    exact .inr ⟨rfl, hview⟩

theorem index_slots {t : DualBuffered T} {key : UInt32} {r : DualBuffered T × T}
    (h : index t key = some r) :
    Acts linkmapstatOn maxStragePerGroup gcnt (view t) (view r.1) (.index key) (.record r.2) := by
  unfold index at h
  split at h
  · exact nomatch h
  · rw [get_find_front] at h
    cases hfound : shown linkmapstatOn (view t (gcnt key)).front with
    | some u =>
      rw [hfound] at h
      cases h
      refine .done (.index key) _ _ (gcnt_lt key) (KeyCall.act_found linkmapstatOn hfound key)
        fun j _ => ?_
      change slot _ ((t.store _ _).dataSideBmp (j >>> 6)) j = _
      rw [store_bmp, find_eq]
      exact slot_store_found hfound _ j
    | none =>
      rw [hfound, find_eq t key true] at h
      simp only [get_findSide_back] at h
      cases h
      obtain ⟨t₁, hwrite, hview⟩ := view_write t key (setValid · linkmapstatOn)
      rw [write, find_eq, get_findSide_back] at hwrite
      cases hwrite
      exact .done (.index key) _ _ (gcnt_lt key) (KeyCall.act_missing linkmapstatOn hfound key)
        fun j _ => congrFun hview j

theorem call_slots (t : DualBuffered T) (c : KeyCall UInt32 T) (t' : DualBuffered T) (r : Reply T)
    (h : keyCall t c = some (t', r)) :
    Acts linkmapstatOn maxStragePerGroup gcnt (view t) (view t') c r := by
  cases c with
  | add k itm nochk =>
    obtain ⟨r₁, hadd, hr⟩ := map_eq_some_iff.mp h
    cases hr
    rcases update_slots hadd with rfl | ⟨hrc, hview⟩
    · exact .addRefused k itm nochk fun _ _ => rfl
    · exact .done (.add k itm nochk) _ _ (gcnt_lt k) (hrc ▸ rfl) fun j _ => congrFun hview j
  | del k nochk =>
    obtain ⟨r₁, hdel, hr⟩ := map_eq_some_iff.mp h
    cases hr
    rcases update_slots hdel with rfl | ⟨hrc, hview⟩
    · exact .delRefused k nochk fun _ _ => rfl
    · exact .done (.del k nochk) _ _ (gcnt_lt k) (hrc ▸ rfl) fun j _ => congrFun hview j
  | index k =>
    obtain ⟨r₁, hindex, hr⟩ := map_eq_some_iff.mp h
    cases hr
    exact index_slots hindex

end DualBuffered

def Lookup.table {S : Nat} (hS : 0 < S) : CallTable (Sides T) Nat T where
  on := statOn
  size := S
  slot := id
  start := clear
  find t k := t.get (find S t k false)
  call := keyCall S
  view := view S
  find_eq t _ hk := get_find_front hk t
  call_acts := call_slots hS
  start_unused _ := shown_of_unused (by unfold front; split <;> exact Stat.valid_setValid _ _)

/-- The table of the tools, in which the keys with one lower half share a slot. -/
def DualBuffered.table : CallTable (DualBuffered T) UInt32 T where
  on := linkmapstatOn
  size := maxStragePerGroup
  slot := gcnt
  start := clear
  find t key := t.get (find t key false)
  call := keyCall
  view := view
  find_eq t key _ := get_find_front t key
  call_acts := call_slots
  start_unused _ := shown_of_unused (by unfold front; split <;> exact Stat.valid_zero)

end

/-! ## 3. Histories -/

/-- A table, the items that have been added to each slot and not been removed again, and what the
last call has obtained from `operator[]`. -/
structure History (τ K T : Type) where
  table : τ
  live : Nat → List T
  got : Option (K × T)

namespace CallTable

variable {τ K T : Type} [Stat T] (tbl : CallTable τ K T)

def liveAfter (live : Nat → List T) : KeyCall K T → Reply T → Nat → List T
  | .add k itm _, .code 0 => Function.update live (tbl.slot k) (itm :: live (tbl.slot k))
  | .del k _, .code 0 => Function.update live (tbl.slot k) []
  | _, _ => live

def step (h : History τ K T) (c : KeyCall K T) : Option (History τ K T) :=
  (tbl.call h.table c).map fun (t, r) =>
    { table := t
      live := tbl.liveAfter h.live c r
      got := match r with
        | .record v => some (c.key, v)
        | .code _ => none }

def begin : History τ K T := ⟨tbl.start, fun _ => [], none⟩

/-- The record of zeros or one that has been added, but for `stat.valid`. -/
def Stored (live : List T) (v : T) : Prop :=
  v = setValid Stat.zero tbl.on ∨ ∃ itm ∈ live, v = setValid itm tbl.on

/-- What can be read or has just been obtained has been stored and not been removed. -/
def Sound (h : History τ K T) : Prop :=
  (∀ k v, tbl.slot k < tbl.size → tbl.find h.table k = some v →
    tbl.Stored (h.live (tbl.slot k)) v) ∧
  ∀ k v, h.got = some (k, v) → tbl.Stored (h.live (tbl.slot k)) v

/-- A key that `operator[]` does not find has a record of zeros at the back. -/
def FindsZero (h : History τ K T) : KeyCall K T → Prop
  | .index k => tbl.find h.table k = none →
      setValid (tbl.view h.table (tbl.slot k)).back tbl.on = setValid Stat.zero tbl.on
  | _ => True

/-! ## 4. One call -/

/-- A key that is not found has nothing live. -/
def Settled (h : History τ K T) : Prop :=
  ∀ j < tbl.size, shown tbl.on (tbl.view h.table j).front = none → h.live j = []

variable {tbl} {h h' : History τ K T} {c : KeyCall K T}

theorem sound_of_same (hview : ∀ j < tbl.size, tbl.view h'.table j = tbl.view h.table j)
    (hlive : h'.live = h.live) (hgot : h'.got = none) (hs : tbl.Sound h) : tbl.Sound h' := by
  refine ⟨fun k v hk hfind => ?_, fun k v hk => by rw [hgot] at hk; exact nomatch hk⟩
  rw [tbl.find_eq _ _ hk, hview _ hk, ← tbl.find_eq _ _ hk] at hfind
  exact hlive ▸ hs.1 k v hk hfind

theorem sound_of_slot {s : Slot T} {live : List T} (hs : tbl.Sound h)
    (hview : ∀ j < tbl.size, tbl.view h'.table j =
      Function.update (tbl.view h.table) (tbl.slot c.key) s j)
    (hlive : h'.live = Function.update h.live (tbl.slot c.key) live)
    (hslot : ∀ v, shown tbl.on s.front = some v → tbl.Stored live v)
    (hgot : ∀ k v, h'.got = some (k, v) → k = c.key ∧ shown tbl.on s.front = some v) :
    tbl.Sound h' := by
  constructor
  · intro k v hk hfind
    rw [tbl.find_eq _ _ hk, hview _ hk] at hfind
    rw [hlive]
    by_cases hsame : tbl.slot k = tbl.slot c.key
    · rw [hsame, Function.update_self] at hfind ⊢
      exact hslot v hfind
    · rw [Function.update_of_ne hsame] at hfind ⊢
      exact hs.1 k v hk ((tbl.find_eq _ _ hk).trans hfind)
  · intro k v hk
    obtain ⟨rfl, hv⟩ := hgot k v hk
    rw [hlive, Function.update_self]
    exact hslot v hv

theorem shown_cleared (on : Bool) (v : T) : shown on (setValid v !on) = none :=
  shown_of_unused (Stat.valid_setValid v _)

/-- A call shows a deleted record exactly if it is an `operator[]` that finds one at the back. -/
theorem sound_step_iff [LawfulStat T] (hs : tbl.Sound h) (ha : tbl.Settled h)
    (hstep : tbl.step h c = some h') : tbl.Sound h' ↔ tbl.FindsZero h c := by
  obtain ⟨⟨t, r⟩, hcall, rfl⟩ := map_eq_some_iff.mp hstep
  cases tbl.call_acts _ _ _ _ hcall with
  | addRefused k itm nochk hsame => exact iff_of_true (sound_of_same hsame rfl rfl hs) trivial
  | delRefused k nochk hsame => exact iff_of_true (sound_of_same hsame rfl rfl hs) trivial
  | done _ s _ hrange hact hview =>
    cases c with
    | add k itm nochk =>
      cases hact
      refine iff_of_true (sound_of_slot hs hview rfl (fun v hv => ?_) fun _ _ h => nomatch h) trivial
      rw [front_put, shown_setValid] at hv
      exact .inr ⟨itm, mem_cons_self, (some.inj hv).symm⟩
    | del k nochk =>
      cases hact
      refine iff_of_true (sound_of_slot hs hview rfl (fun v hv => ?_) fun _ _ h => nomatch h) trivial
      rw [front_put, shown_cleared] at hv
      exact nomatch hv
    | index k =>
      have hfind := tbl.find_eq h.table k hrange
      cases hfound : shown tbl.on (tbl.view h.table (tbl.slot k)).front with
      | some u =>
        cases (KeyCall.act_found tbl.on hfound k).symm.trans hact
        -- the record is in use already, so that marking it changes nothing
        obtain ⟨hvalid, hu⟩ := ite_none_right_eq_some.mp hfound
        have hmark := hvalid ▸ LawfulStat.setValid_valid (tbl.view h.table (tbl.slot k)).front
        rw [some.inj hu] at hmark
        refine iff_of_true (sound_of_slot hs hview (Function.update_eq_self _ _).symm
          (fun v hv => ?_) fun k' v hk => ?_) fun hnone => ?_
        · rw [front_setFront, shown_setValid, hmark] at hv
          exact hs.1 k v hrange (hfind.trans (hfound.trans hv))
        · cases hk
          exact ⟨rfl, by rw [front_setFront, shown_setValid]⟩
        · exact nomatch hnone.symm.trans (hfind.trans hfound)
      | none =>
        cases (KeyCall.act_missing tbl.on hfound k).symm.trans hact
        have hlive : h.live (tbl.slot k) = [] := ha _ hrange hfound
        constructor
        · intro hs' _
          rcases hs'.2 k _ rfl with hzero | ⟨itm, hmem, -⟩
          · exact hzero
          · exact absurd (hlive ▸ hmem) not_mem_nil
        · intro hzero
          refine sound_of_slot hs hview (Function.update_eq_self _ _).symm (fun v hv => ?_)
            fun k' v hk => ?_
          · rw [front_put, shown_setValid] at hv
            exact .inl ((some.inj hv).symm.trans (hzero (hfind.trans hfound)))
          · cases hk
            exact ⟨rfl, by rw [front_put, shown_setValid]⟩

theorem liveAfter_of_ne {live : Nat → List T} {r : Reply T} {j : Nat} (hj : j ≠ tbl.slot c.key) :
    tbl.liveAfter live c r j = live j := by
  unfold liveAfter
  split
  · exact Function.update_of_ne hj _ _
  · exact Function.update_of_ne hj _ _
  · rfl

theorem settled_step (ha : tbl.Settled h) (hstep : tbl.step h c = some h') : tbl.Settled h' := by
  obtain ⟨⟨t, r⟩, hcall, rfl⟩ := map_eq_some_iff.mp hstep
  intro j hj hnone
  cases tbl.call_acts _ _ _ _ hcall with
  | addRefused k itm nochk hsame => exact ha j hj (hsame j hj ▸ hnone)
  | delRefused k nochk hsame => exact ha j hj (hsame j hj ▸ hnone)
  | done _ s _ hrange hact hview =>
    rw [hview j hj] at hnone
    by_cases hsame : j = tbl.slot c.key
    · subst hsame
      rw [Function.update_self] at hnone
      cases c with
      | add k itm nochk =>
        cases hact
        rw [front_put, shown_setValid] at hnone
        exact nomatch hnone
      | del k nochk =>
        cases hact
        exact Function.update_self _ _ _
      | index k =>
        -- what `operator[]` refers to is in use
        cases hfound : shown tbl.on (tbl.view h.table (tbl.slot k)).front with
        | some u =>
          cases (KeyCall.act_found tbl.on hfound k).symm.trans hact
          rw [front_setFront, shown_setValid] at hnone
          exact nomatch hnone
        | none => exact ha _ hj hfound
    · rw [Function.update_of_ne hsame] at hnone
      exact (liveAfter_of_ne hsame).trans (ha j hj hnone)

theorem throughout_iff [LawfulStat T] (tbl : CallTable τ K T) {calls : List (KeyCall K T)} :
    Throughout tbl.step tbl.Sound tbl.begin calls ↔
      EachStep tbl.step tbl.FindsZero tbl.begin calls := by
  have hstart : tbl.Sound tbl.begin := by
    refine ⟨fun k v hk hfind => ?_, fun _ _ h => nomatch h⟩
    rw [tbl.find_eq _ _ hk, begin, tbl.start_unused] at hfind
    exact nomatch hfind
  have hsettled : Throughout tbl.step tbl.Settled tbl.begin calls :=
    throughout_of_eachStep (fun _ _ _ ha _ hstep => settled_step ha hstep) (fun _ _ _ => rfl)
      eachStep_true
  exact throughout_iff_eachStep (fun _ _ _ hs ha hstep => sound_step_iff hs ha hstep) hstart
    hsettled.eachStep

end CallTable

/-- **Which runs show no record that has been deleted**: those in which `operator[]` is never called
for a key that is not found and has anything but zeros at the back. -/
theorem records_stay_deleted_iff {T : Type} [Stat T] [LawfulStat T] :
    (∀ (S : Nat) (hS : 0 < S) (calls : List (KeyCall Nat T)),
      Throughout (Lookup.table hS).step (Lookup.table hS).Sound (Lookup.table hS).begin calls ↔
        EachStep (Lookup.table hS).step (Lookup.table hS).FindsZero (Lookup.table hS).begin calls) ∧
    (∀ calls : List (KeyCall UInt32 T),
      Throughout DualBuffered.table.step DualBuffered.table.Sound DualBuffered.table.begin calls ↔
        EachStep DualBuffered.table.step DualBuffered.table.FindsZero DualBuffered.table.begin calls) :=
  ⟨fun _ hS _ => (Lookup.table hS).throughout_iff, fun _ => DualBuffered.table.throughout_iff⟩

/-- `operator[]` on a fresh key, and another key that is added and deleted. -/
theorem record_stays_deleted :
    Throughout (Lookup.table (T := Policer) (show 0 < 65536 by decide)).step
      (Lookup.table (show 0 < 65536 by decide)).Sound
      (Lookup.table (show 0 < 65536 by decide)).begin
      [.index 5, .add 3 (fullPolicer 7) false, .del 3 false] :=
  (records_stay_deleted_iff.1 65536 (by decide) _).mpr fun _ _ =>
    ⟨fun _ => rfl, fun _ _ => ⟨trivial, fun _ _ => ⟨trivial, trivial⟩⟩⟩

/-- A policer is added and deleted, and `operator[]` of its key hands it out again. -/
def revival {K : Type} (key : K) : List (KeyCall K Policer) :=
  [.add key (fullPolicer 7) false, .del key false, .index key]

theorem deleted_record_revives :
    ¬ Throughout (Lookup.table (T := Policer) (show 0 < 65536 by decide)).step
      (Lookup.table (show 0 < 65536 by decide)).Sound
      (Lookup.table (show 0 < 65536 by decide)).begin (revival 3) ∧
    ¬ Throughout (DualBuffered.table (T := Policer)).step DualBuffered.table.Sound
      DualBuffered.table.begin (revival 3) := by
  constructor
  · intro h
    rcases (h.last rfl).2 3 _ rfl with hzero | ⟨itm, hmem, -⟩
    · cases hzero
    · exact absurd hmem not_mem_nil
  · intro h
    rcases (h.last rfl).2 3 _ rfl with hzero | ⟨itm, hmem, -⟩
    · cases hzero
    · exact absurd hmem not_mem_nil

end MixiPgw.Table
