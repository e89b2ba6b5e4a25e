/-
# Bearer contexts: children in, children out

`gtpc_bearer_ctx_set`, `gtpc_bearer_ctx_add_child` and `gtpc_iterate_bearer_ctx_item` on the struct
itself. The writer keeps an offset and the length field side by side (`Holds`); the reader has only
the length field and takes the size of each child from the child (`iterateLoop_holds`).
`bearer_ctx_round_trip` is the round trip.
-/
import MixiPgw.Ctrl.NodeQueue

namespace MixiPgw.Ctrl

open Bytes List

/-! ## 1. The struct and its functions -/

/-- `gtpc_bearer_ctx_t`; the length is that of `head`, in host order. -/
structure BearerCtx where
  type : UInt8
  length : UInt16
  child : List UInt8
  offset : UInt16
deriving DecidableEq

/-- `gtpc_bearer_ctx_set`; it always returns `OK`. -/
def gtpcBearerCtxSet : BearerCtx := ⟨gtpcTypeBearerCtx, 0, replicate 256 0, 0⟩

def BearerCtx.addChild (item : BearerCtx) (child : Source) (len : UInt16) : BearerCtx × RetCd :=
  if item.offset.toNat + len.toNat ≥ 256 then (item, .err)
  else
    ({ item with
        length := item.length + len
        child := splice item.child item.offset.toNat (child.block 0 len.toNat)
        offset := item.offset + len }, .ok)

/-- A callback: the type, bytes and length of a child, and state of its own. -/
abbrev IterateFunc (σ : Type) := UInt8 → List UInt8 → UInt16 → σ → σ × RetCd

section

variable {σ : Type} (callback : IterateFunc σ)

/-- The loop of `gtpc_iterate_bearer_ctx_item` from `child` on; first, what is left of the item
count. -/
def iterateLoop (data : Nat → UInt8) (len : UInt16) : Nat → UInt16 → σ → σ × RetCd
  | 0, _, s => (s, .err)
  | n + 1, cur, s =>
    if cur < len then
      let pitm := fun i => data (cur.toNat + i)
      let hlen := UInt16.ofNat (be16 (pitm 1) (pitm 2) + 4)
      match callback (pitm 0) ((range hlen.toNat).map pitm) hlen s with
      | (s', .err) => (s', .err)
      | (s', .ok) =>
        let cur' := cur + hlen
        if cur' > len then (s', .err)
        else if cur' = len then (s', .ok)
        else iterateLoop data len n cur' s'
    else (s, .err)

/-- `gtpc_iterate_bearer_ctx_item`; `past` is the memory behind the array. -/
def gtpcIterateBearerCtx (item : BearerCtx) (past : Nat → UInt8) (s : σ) : σ × RetCd :=
  iterateLoop callback (fun i => item.child.getD i (past i)) item.length gtpcCapabilityItemCount 0 s

end

def childBytes (child : Source × UInt16) : List UInt8 := child.1.block 0 child.2.toNat

def BearerCtx.addChildren : BearerCtx → List (Source × UInt16) → Option BearerCtx
  | item, [] => some item
  | item, child :: rest =>
    match item.addChild child.1 child.2 with
    | (_, .err) => none
    | (item', .ok) => addChildren item' rest

/-! ## 2. The writer -/

/-- **What a context holds**: bytes at the front of the array, and both counters at their end. -/
structure BearerCtx.Holds (item : BearerCtx) (bytes : List UInt8) : Prop where
  small : bytes.length < 256
  size : item.child.length = 256
  offset_eq : item.offset.toNat = bytes.length
  length_eq : item.length.toNat = bytes.length
  front : item.child.take bytes.length = bytes

theorem gtpcBearerCtxSet_holds : gtpcBearerCtxSet.Holds [] where
  small := Nat.zero_lt_succ _
  size := length_replicate
  offset_eq := rfl
  length_eq := rfl
  front := rfl

variable {item : BearerCtx} {bytes : List UInt8}

/-- One call returns `OK` exactly if there is room, and then adds the child. -/
theorem BearerCtx.Holds.addChild (h : item.Holds bytes) (child : Source × UInt16) :
    match item.addChild child.1 child.2 with
    | (item', .ok) => item'.Holds (bytes ++ childBytes child)
    | (item', .err) => item' = item ∧ 256 ≤ bytes.length + (childBytes child).length := by
  have hlen : (childBytes child).length = child.2.toNat := Source.length_block _ _ _
  have hoffset := h.offset_eq
  unfold BearerCtx.addChild
  by_cases hfit : item.offset.toNat + child.2.toNat ≥ 256
  · rw [if_pos hfit]
    exact ⟨rfl, by omega⟩
  · rw [if_neg hfit]
    have hcounter : ∀ x : UInt16, x.toNat = bytes.length →
        (x + child.2).toNat = (bytes ++ childBytes child).length := by
      intro x hx
      rw [UInt16.toNat_add, length_append, hx, hlen, Nat.mod_eq_of_lt (by omega)]
    refine ⟨?_, ?_, hcounter _ hoffset, hcounter _ h.length_eq, ?_⟩
    · rw [length_append]
      omega
    · rw [length_splice, h.size]
      rw [h.size, Source.length_block]
      omega
    · have happ : bytes ++ (childBytes child ++ item.child.drop (bytes.length +
          (childBytes child).length)) = splice item.child item.offset.toNat (childBytes child) := by
        rw [splice, hoffset, h.front, append_assoc]
      change (splice item.child item.offset.toNat (childBytes child)).take _ = _
      rw [← happ, ← append_assoc, take_left]

theorem BearerCtx.Holds.addChildren {children : List (Source × UInt16)} :
    ∀ {item item' : BearerCtx} {bytes : List UInt8}, item.Holds bytes →
      item.addChildren children = some item' →
      item'.Holds (bytes ++ (children.map childBytes).flatten) := by
  induction children with
  | nil =>
    intro item item' bytes h hadd
    cases hadd
    simpa using h
  | cons child rest ih =>
    intro item item' bytes h hadd
    have hone := h.addChild child
    rw [BearerCtx.addChildren] at hadd
    split at hadd
    · cases hadd
    · rename_i item₁ heq
      rw [heq] at hone
      have hrest := ih hone hadd
      rwa [append_assoc, ← flatten_cons, ← map_cons] at hrest

theorem BearerCtx.Holds.gtpcBearerCtxAddChild_eq (h : item.Holds bytes) (child : Source × UInt16) :
    gtpcBearerCtxAddChild bytes (childBytes child) =
      match item.addChild child.1 child.2 with
      | (_, .ok) => some (bytes ++ childBytes child)
      | (_, .err) => none := by
  have hone := h.addChild child
  unfold gtpcBearerCtxAddChild
  split at hone
  · have hsmall := hone.small
    rw [length_append] at hsmall
    rw [if_neg (by omega)]
  · rw [if_pos hone.2]

theorem BearerCtx.addChild_err {child : Source} {len : UInt16}
    (h : (item.addChild child len).2 = .err) : (item.addChild child len).1 = item := by
  unfold BearerCtx.addChild at h ⊢
  split
  · rfl
  · rename_i hfit
    rw [if_neg hfit] at h
    cases h

/-! ## 3. The reader -/

/-- A header, and as many bytes behind it as the header says. -/
def WellFormedItem (child : List UInt8) : Prop :=
  4 ≤ child.length ∧ be16 (child.getD 1 0) (child.getD 2 0) + 4 = child.length

instance (child : List UInt8) : Decidable (WellFormedItem child) :=
  inferInstanceAs (Decidable (_ ∧ _))

section

variable {σ : Type} {callback : IterateFunc σ}

def called (callback : IterateFunc σ) (s : σ) (children : List (List UInt8)) : σ :=
  children.foldl
    (fun s child => (callback (child.getD 0 0) child (UInt16.ofNat child.length) s).1) s

variable {data : Nat → UInt8}

theorem iterateLoop_child (hok : ∀ type bytes len s, (callback type bytes len s).2 = .ok)
    {len cur : UInt16} {child : List UInt8} (hwf : WellFormedItem child)
    (hat : ∀ i < child.length, data (cur.toNat + i) = child.getD i 0)
    (hfit : cur.toNat + child.length ≤ len.toNat) (n : Nat) (s : σ) :
    iterateLoop callback data len (n + 1) cur s =
      if cur + UInt16.ofNat child.length = len then (called callback s [child], .ok)
      else iterateLoop callback data len n (cur + UInt16.ofNat child.length)
        (called callback s [child]) := by
  obtain ⟨h4, hself⟩ := hwf
  have hlen16 := len.toNat_lt
  have hblock : (range child.length).map (fun i => data (cur.toNat + i)) = child := by
    refine ext_getD (by simp) fun i hi => ?_
    simp only [length_map, length_range] at hi
    simpa [getD_eq_getElem?_getD, hi] using hat i hi
  have hhlen : (UInt16.ofNat child.length).toNat = child.length := by
    rw [UInt16.toNat_ofNat', Nat.mod_eq_of_lt (by omega)]
  have hlt : cur < len := by
    rw [UInt16.lt_iff_toNat_lt]
    omega
  have hfits : ¬ cur + UInt16.ofNat child.length > len := by
    rw [gt_iff_lt, UInt16.lt_iff_toNat_lt, UInt16.toNat_add]
    omega
  have hcall : callback (child.getD 0 0) child (UInt16.ofNat child.length) s =
      (called callback s [child], .ok) := Prod.ext rfl (hok _ _ _ _)
  rw [iterateLoop, if_pos hlt]
  simp only [hat 0 (by omega), hat 1 (by omega), hat 2 (by omega), hself, hhlen, hblock]
  rw [hcall]
  dsimp only
  rw [if_neg hfits]

/-- The walk over well-formed children. Induction on those left; `done` is behind the
cursor. -/
theorem iterateLoop_holds (hok : ∀ type bytes len s, (callback type bytes len s).2 = .ok)
    {len : UInt16} {children : List (List UInt8)} :
    ∀ {done : List UInt8} {cur : UInt16} {n : Nat} {s : σ}, children ≠ [] → children.length ≤ n →
      (∀ child ∈ children, WellFormedItem child) → cur.toNat = done.length →
      len.toNat = (done ++ children.flatten).length →
      (∀ i < (done ++ children.flatten).length, data i = (done ++ children.flatten).getD i 0) →
      iterateLoop callback data len n cur s = (called callback s children, .ok) := by
  induction children with
  | nil => exact fun hne => absurd rfl hne
  | cons child rest ih =>
    intro done cur n s _ hn hwf hcur hlen hdata
    obtain ⟨n, rfl⟩ : ∃ m, n = m + 1 := ⟨n - 1, by simp at hn; omega⟩
    have hlen16 := len.toNat_lt
    have happ : done ++ (child :: rest).flatten = (done ++ child) ++ rest.flatten := by simp
    have htotal : (done ++ (child :: rest).flatten).length =
        done.length + child.length + rest.flatten.length := by
      rw [happ, length_append, length_append]
    have hat : ∀ i < child.length, data (cur.toNat + i) = child.getD i 0 := by
      intro i hi
      rw [hcur, hdata _ (by omega), getD_append_right _ _ _ _ (by omega),
        Nat.add_sub_cancel_left, flatten_cons, getD_append _ _ _ _ hi]
    have hcur' : (cur + UInt16.ofNat child.length).toNat = (done ++ child).length := by
      rw [UInt16.toNat_add, UInt16.toNat_ofNat', Nat.mod_eq_of_lt (by omega : child.length < _),
        hcur, length_append, Nat.mod_eq_of_lt (by omega)]
    rw [iterateLoop_child hok (hwf child mem_cons_self) hat (by omega)]
    cases rest with
    | nil =>
      have hend : cur + UInt16.ofNat child.length = len := by
        apply UInt16.toNat_inj.mp
        rw [hcur', hlen]
        simp
      rw [if_pos hend]
    | cons next rest =>
      obtain ⟨hnext, -⟩ := hwf next (mem_cons_of_mem _ mem_cons_self)
      have hmore : cur + UInt16.ofNat child.length ≠ len := by
        intro heq
        rw [heq, hlen, htotal, length_append, flatten_cons, length_append] at hcur'
        omega
      rw [if_neg hmore]
      rw [happ] at hlen hdata
      exact ih (by simp) (by simp at hn ⊢; omega) (fun c hc => hwf c (mem_cons_of_mem _ hc))
        hcur' hlen hdata

end

/-- The callback of the parser, `on_gtpc_parse_bearer_context`, which never fails. -/
def parseCallback : IterateFunc GtpcParseState := fun type bytes len cs =>
  (onGtpcParseBearerContext type (fun i => bytes.getD i 0) len.toNat cs, .ok)

theorem store_range (cs : GtpcParseState) (s : Slot) (data : Nat → UInt8) (n : Nat) :
    cs.store s (fun i => ((range n).map data).getD i 0) n = cs.store s data n := by
  have hmap : (range n).map (fun i => ((range n).map data).getD i 0) =
      (range n).map data := by
    apply map_congr_left
    intro i hi
    simp [mem_range.mp hi]
  simp only [GtpcParseState.store, overwrite, hmap]

theorem parseCallback_range (type : UInt8) (data : Nat → UInt8) (len : UInt16)
    (cs : GtpcParseState) :
    parseCallback type ((range len.toNat).map data) len cs =
      (onGtpcParseBearerContext type data len.toNat cs, .ok) := by
  simp only [parseCallback, onGtpcParseBearerContext]
  cases bearerSlot type with
  | none => rfl
  | some s => simp only [store_range]

/-- The walk of the parser is this walk. -/
theorem bearerCtxLoop_eq (data : Nat → UInt8) (len : UInt16) : ∀ (n : Nat) (cur : UInt16)
    (cs : GtpcParseState),
    iterateLoop parseCallback (fun i => data (4 + i)) len n cur cs =
      ((bearerCtxLoop data len.toNat n cur.toNat cs).1,
        if (bearerCtxLoop data len.toNat n cur.toNat cs).2 then .ok else .err)
  | 0, _, _ => rfl
  | n + 1, cur, cs => by
    have hadd : ∀ i, 4 + (cur.toNat + i) = 4 + cur.toNat + i := fun i => by omega
    simp only [iterateLoop, bearerCtxLoop, hadd, parseCallback_range]
    simp only [UInt16.lt_iff_toNat_lt, gt_iff_lt, UInt16.toNat_add, UInt16.toNat_ofNat',
      ← UInt16.toNat_inj, Nat.reducePow]
    split
    · split
      · rfl
      · split
        · rfl
        · rw [bearerCtxLoop_eq data len n]
          simp only [UInt16.toNat_add, UInt16.toNat_ofNat', Nat.reducePow]
    · rfl

/-! ## 4. The round trip -/

/-- **The bearer-context round trip.** If setting up and adding well-formed children all return
`OK`, a walk calls its callback once for each child, in order, whatever lies behind the array;
and a call that returns `ERR` leaves the context as it was. -/
theorem bearer_ctx_round_trip {σ : Type} (callback : IterateFunc σ) (s : σ) (past : Nat → UInt8)
    (children : List (Source × UInt16)) (item : BearerCtx)
    (hok : ∀ type bytes len s, (callback type bytes len s).2 = .ok) (hne : children ≠ [])
    (hcount : children.length ≤ 255) (hwf : ∀ child ∈ children, WellFormedItem (childBytes child))
    (hadd : gtpcBearerCtxSet.addChildren children = some item) :
    gtpcIterateBearerCtx callback item past s =
        (called callback s (children.map childBytes), .ok) ∧
      ∀ (ctx : BearerCtx) (child : Source) (len : UInt16),
        (ctx.addChild child len).2 = .err → (ctx.addChild child len).1 = ctx := by
  refine ⟨?_, fun ctx child len => BearerCtx.addChild_err⟩
  have hholds := gtpcBearerCtxSet_holds.addChildren hadd
  refine iterateLoop_holds hok ?_ ?_ ?_ (Eq.refl ([] : List UInt8).length) hholds.length_eq ?_
  · rwa [ne_eq, map_eq_nil_iff]
  · rwa [length_map]
  · intro bytes hbytes
    obtain ⟨child, hchild, rfl⟩ := mem_map.mp hbytes
    exact hwf child hchild
  · intro i hi
    have hget := congrArg (fun bytes => bytes.getD i 0) hholds.front
    have hchild : i < item.child.length := by
      rw [hholds.size]
      exact Nat.lt_trans hi hholds.small
    simp only [getD_eq_getElem?_getD, getElem?_take_of_lt hi,
      getElem?_eq_getElem hchild, Option.getD_some] at hget ⊢
    exact hget

def recordCall : IterateFunc (List (UInt8 × List UInt8 × UInt16)) := fun type bytes len calls =>
  (calls ++ [(type, bytes, len)], .ok)

/-- An EBI and a cause, and what the walk over them calls. -/
theorem bearer_ctx_round_trip_ebi_cause :
    let ebi : Source × UInt16 := (⟨gtpcEbiSet 0 5, fun _ => 0⟩, 5)
    let cause : Source × UInt16 := (⟨gtpcCauseSet 16, fun _ => 0⟩, 6)
    ∃ item, gtpcBearerCtxSet.addChildren [ebi, cause] = some item ∧
      gtpcIterateBearerCtx recordCall item (fun _ => 0) [] =
        ([(73, gtpcEbiSet 0 5, 5), (2, gtpcCauseSet 16, 6)], .ok) := by
  refine ⟨_, rfl, ?_⟩
  refine (bearer_ctx_round_trip recordCall [] (fun _ => 0)
    [(⟨gtpcEbiSet 0 5, fun _ => 0⟩, 5), (⟨gtpcCauseSet 16, fun _ => 0⟩, 6)] _
    (fun _ _ _ _ => rfl) (by simp) (by simp) (by decide) rfl).1.trans ?_
  decide

end MixiPgw.Ctrl
