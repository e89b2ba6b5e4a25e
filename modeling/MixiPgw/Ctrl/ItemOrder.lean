/-
# Parsing does not depend on the order of the items

`gtpc_iterate_item` hands the root items of a packet to `on_gtpc_parse_root` one by one. Each type
writes cells of the parse state that no other type writes or reads, as long as the two inner walks
stay inside their item. So two packets with the same items in any order leave the same state
(`iterateItem_perm`). With 256 children in a context the walk fails, and what stands behind it is
lost (`crowded_order_matters`).
-/
import Mathlib.Data.Set.Insert
import MixiPgw.Ctrl.Builder
import MixiPgw.Ctrl.Items
import MixiPgw.Lib.Footprint

namespace MixiPgw.Ctrl

open Bytes Lib List Confined

/-! ## 1. Cells and their owners -/

/-- A part of the parse state; `rest` is what no item writes. -/
inductive Cell
  | flag (h : Have) | flagV1 (h : Have) | item (s : Slot) | rest

def Cell.Val : Cell → Type
  | .flag _ => Bool
  | .flagV1 _ => Bool
  | .item _ => List UInt8
  | .rest => UInt32 × UInt32 × List UInt8 × UInt8 × DbFields

def Cell.get : (c : Cell) → GtpcParseState → c.Val
  | .flag h, cs => cs.flag h
  | .flagV1 h, cs => cs.flagV1 h
  | .item s, cs => cs.item s
  | .rest, cs => (cs.gtphSeqno, cs.gtphTeid, cs.qos, cs.nsapi, cs.db)

/-- The cells are all there is to a state. -/
theorem Cell.ext_state (z z' : GtpcParseState)
    (h : ∀ c, Cell.get c z = Cell.get c z') : z = z' := by
  have hflag : z.flag = z'.flag := funext fun a => h (.flag a)
  have hflagV1 : z.flagV1 = z'.flagV1 := funext fun a => h (.flagV1 a)
  have hitem : z.item = z'.item := funext fun s => h (.item s)
  have hrest := h .rest
  obtain ⟨h1, hrest⟩ := Prod.mk.inj hrest
  obtain ⟨h2, hrest⟩ := Prod.mk.inj hrest
  obtain ⟨h3, hrest⟩ := Prod.mk.inj hrest
  obtain ⟨h4, h5⟩ := Prod.mk.inj hrest
  cases z
  cases z'
  simp only at hflag hflagV1 hitem h1 h2 h3 h4 h5
  simp only [hflag, hflagV1, hitem, h1, h2, h3, h4, h5]

/-- The one item type that writes the field. -/
def Slot.owner : Slot → UInt8
  | .msisdn => gtpcTypeMsisdn | .imsi => gtpcTypeImsi | .recovery => gtpcTypeRecovery
  | .cause => gtpcTypeCause | .mei => gtpcTypeMei | .cTeid => gtpcTypeFTeid
  | .ambrR => gtpcTypeAmbr | .charg => gtpcTypeChargingId | .ebiR => gtpcTypeEbi
  | .rat => gtpcTypeRatType | .pco => gtpcTypePco | .paa => gtpcTypePaa
  | .apnR => gtpcTypeApnRestriction | .bqosR => gtpcTypeBearerQos | .pdn => gtpcTypePdnType
  | .uTeid | .bqos | .ebiB | .ambr => gtpcTypeBearerCtx

def Have.owner : Have → Option UInt8
  | .msisdn => some gtpcTypeMsisdn | .imsi => some gtpcTypeImsi
  | .recovery => some gtpcTypeRecovery | .cause => some gtpcTypeCause | .mei => some gtpcTypeMei
  | .fteidC => some gtpcTypeFTeid | .ambrR => some gtpcTypeAmbr
  | .chrgid => some gtpcTypeChargingId | .ebi => some gtpcTypeEbi | .rat => some gtpcTypeRatType
  | .paa => some gtpcTypePaa | .apnR => some gtpcTypeApnRestriction
  | .bqosR => some gtpcTypeBearerQos | .pdn => some gtpcTypePdnType
  | .fteidU | .bqos | .ebiB | .ambr | .bctx => some gtpcTypeBearerCtx
  | .pco | .ipcpPDns | .ipcpSDns | .ipv4LinkMtu | .nonipLinkMtu | .dnsIpv4 | .dnsIpv6 =>
    some gtpcTypePco
  | _ => none

def Cell.owner : Cell → Option UInt8
  | .flag h => h.owner
  | .flagV1 .ipcpPDns | .flagV1 .ipcpSDns => some gtpcTypePco
  | .flagV1 _ => none
  | .item s => some s.owner
  | .rest => none

def cellsOf (type : UInt8) : Set Cell := { c | c.owner = some type }

/-- What items read beside their own cells. -/
def sharedCells : Set Cell := { .flag .resOrder }

theorem disjoint_cellsOf (type type' : UInt8) (h : type ≠ type') :
    Disjoint (cellsOf type) (cellsOf type') := by
  refine Set.disjoint_left.mpr fun c hc hc' => h ?_
  exact Option.some.inj (Eq.trans (Eq.symm hc) hc')

/-- No type writes what the others read. -/
theorem disjoint_sharedCells (type : UInt8) : Disjoint (cellsOf type) sharedCells := by
  refine Set.disjoint_left.mpr fun c hc hc' => ?_
  obtain rfl : c = .flag .resOrder := hc'
  have hnone : (none : Option UInt8) = some type := hc
  exact absurd hnone (by simp)

theorem Slot.have_owner (s : Slot) : s.have.owner = some s.owner := by
  cases s <;> rfl

theorem owner_of_branch {type t : UInt8} {s s' : Slot} {other : Option Slot}
    (h : (if type = t then some s' else other) = some s) (hs' : s'.owner = t) :
    s.owner = type ∨ other = some s := by
  split at h
  · rename_i htype
    rw [← Option.some.inj h, hs', htype]
    exact Or.inl rfl
  · exact Or.inr h

variable {type : UInt8} {s : Slot}

theorem rootSlot_owner (h : rootSlot type = some s) : s.owner = type := by
  unfold rootSlot at h
  iterate 15
    rcases owner_of_branch h rfl with hs | h
    · exact hs
  exact absurd h (by simp)

theorem bearerSlot_owner (h : bearerSlot type = some s) : s.owner = gtpcTypeBearerCtx := by
  unfold bearerSlot at h
  split_ifs at h
  all_goals
    cases h
    rfl

/-! ## 2. What each branch is confined to -/

section

variable {W : Set Cell}

variable {h : Have}

theorem setFlag_confined (hW : Cell.flag h ∈ W) :
    Confined Cell.get W sharedCells
      (fun cs : GtpcParseState => { cs with flag := setFlag cs.flag h }) := by
  refine of_cell hW (fun cs c hc => ?_) (fun cs cs' _ => ?_)
  · cases c with
    | flag g =>
      have hne : g ≠ h := fun he => hc (he ▸ rfl)
      change (decide (g = h) || cs.flag g) = cs.flag g
      simp [hne]
    | _ => rfl
  · change (decide (h = h) || cs.flag h) = (decide (h = h) || cs'.flag h)
    simp

theorem setFlagV1_confined (hW : Cell.flagV1 h ∈ W) :
    Confined Cell.get W sharedCells
      (fun cs : GtpcParseState => { cs with flagV1 := setFlag cs.flagV1 h }) := by
  refine of_cell hW (fun cs c hc => ?_) (fun cs cs' _ => ?_)
  · cases c with
    | flagV1 g =>
      have hne : g ≠ h := fun he => hc (he ▸ rfl)
      change (decide (g = h) || cs.flagV1 g) = cs.flagV1 g
      simp [hne]
    | _ => rfl
  · change (decide (h = h) || cs.flagV1 h) = (decide (h = h) || cs'.flagV1 h)
    simp

theorem overwrite_confined {s : Slot} (hW : Cell.item s ∈ W) (data : Nat → UInt8) (datalen : Nat) :
    Confined Cell.get W sharedCells (fun cs : GtpcParseState =>
      { cs with
        item := fun t => if t = s then overwrite (cs.item s) data datalen else cs.item t }) := by
  refine of_cell hW (fun cs c hc => ?_) (fun cs cs' hsame => ?_)
  · cases c with
    | item t => exact if_neg fun he : t = s => hc (he ▸ rfl)
    | _ => rfl
  · change (if s = s then overwrite (cs.item s) data datalen else cs.item s) =
      if s = s then overwrite (cs'.item s) data datalen else cs'.item s
    have hitem : cs.item s = cs'.item s := hsame
    rw [hitem]

end

theorem store_confined (s : Slot) (data : Nat → UInt8) (datalen : Nat) :
    Confined Cell.get (cellsOf s.owner) sharedCells (fun cs => cs.store s data datalen) := by
  unfold GtpcParseState.store
  split
  · have hitem : Cell.item s ∈ cellsOf s.owner := rfl
    have hflag : Cell.flag s.have ∈ cellsOf s.owner := s.have_owner
    exact (overwrite_confined hitem data datalen).comp (setFlag_confined hflag)
  · exact Confined.id

variable (type : UInt8)

theorem onGtpcParseBearerContext_confined (data : Nat → UInt8) (datalen : Nat) :
    Confined Cell.get (cellsOf gtpcTypeBearerCtx) sharedCells
      (onGtpcParseBearerContext type data datalen) := by
  unfold onGtpcParseBearerContext
  cases hs : bearerSlot type with
  | none => exact Confined.id
  | some s =>
    rw [← bearerSlot_owner hs]
    exact store_confined s data datalen

theorem bearerCtxLoop_confined (data : Nat → UInt8) (len n cur : Nat) :
    Confined Cell.get (cellsOf gtpcTypeBearerCtx) sharedCells
      (fun cs => (bearerCtxLoop data len n cur cs).1) := by
  induction n generalizing cur with
  | zero => exact Confined.id
  | succ n ih =>
    have hchild := onGtpcParseBearerContext_confined (data (4 + cur + 0))
      (fun i => data (4 + cur + i)) ((be16 (data (4 + cur + 1)) (data (4 + cur + 2)) + 4) % 65536)
    unfold bearerCtxLoop
    dsimp only
    split
    · split
      · exact hchild
      · split
        · exact hchild
        · exact (ih _).comp hchild
    · exact Confined.id

/-- What the walk over a PCO may raise. -/
def requestCells : Set Cell :=
  { .flag .dnsIpv4, .flag .dnsIpv6, .flag .ipv4LinkMtu, .flag .nonipLinkMtu, .flag .ipcpPDns,
    .flag .ipcpSDns, .flagV1 .ipcpPDns, .flagV1 .ipcpSDns }

theorem requestCells_subset : requestCells ⊆ cellsOf gtpcTypePco := by
  rintro c (rfl | rfl | rfl | rfl | rfl | rfl | rfl | rfl) <;> rfl

theorem ipcpOption_confined : Confined Cell.get requestCells sharedCells (ipcpOption type) := by
  unfold ipcpOption
  split
  · exact (setFlagV1_confined (h := .ipcpPDns) (by simp [requestCells])).comp
      (setFlag_confined (h := .ipcpPDns) (by simp [requestCells]))
  · split
    · exact (setFlagV1_confined (h := .ipcpSDns) (by simp [requestCells])).comp
        (setFlag_confined (h := .ipcpSDns) (by simp [requestCells]))
    · exact Confined.id

theorem requestV2_confined (type pilen : Nat) :
    Confined Cell.get requestCells sharedCells (requestV2 type pilen) := by
  have hcells : ∀ h ∈ containerRequests, Cell.flag h ∈ requestCells := by
    simp [containerRequests, requestCells]
  refine ite (fun z z' hag => ?_) ?_ Confined.id
  · have hres : z.flag .resOrder = z'.flag .resOrder := hag (.flag .resOrder) (Or.inr rfl)
    rw [hres]
  · cases hc : pcoContainer type with
    | none => exact Confined.id
    | some h => exact setFlag_confined (hcells h (mem_containerRequests hc))

variable (pco : Nat → UInt8) (len n offset : Nat)

theorem pcoLoop_confined :
    Confined Cell.get requestCells sharedCells (fun cs => pcoLoop pco len n offset cs) := by
  induction n generalizing offset with
  | zero => exact Confined.id
  | succ n ih =>
    have hrequest := requestV2_confined (be16 (pco offset) (pco (offset + 1)))
      (pco (offset + 2)).toNat
    have hnext := ih (offset + 3 + (pco (offset + 2)).toNat)
    unfold pcoLoop gtpcIteratePcoIpcpItem
    dsimp only
    split
    · split
      · -- an IPCP block of another size ends the loop behind the container's own flag
        split
        · exact hrequest
        · exact hnext.comp ((ipcpOption_confined _).comp ((ipcpOption_confined _).comp hrequest))
      · exact hnext.comp hrequest
    · exact Confined.id

variable {c : Cell} (stack : Nat → UInt8) (cs : GtpcParseState)

/-- The walk over a PCO writes its requests only. -/
theorem onPco_keeps (hc : c ∉ requestCells) : Cell.get c (onPco stack cs) = Cell.get c cs :=
  (pcoLoop_confined _ _ 255 0).keeps cs c hc

theorem pcoLoop_item (cs : GtpcParseState) (s : Slot) :
    (pcoLoop pco len n offset cs).item s = cs.item s :=
  (pcoLoop_confined pco len n offset).keeps cs (.item s) (by simp [requestCells])

theorem pcoLoop_flag_pco (cs : GtpcParseState) :
    (pcoLoop pco len n offset cs).flag .pco = cs.flag .pco :=
  (pcoLoop_confined pco len n offset).keeps cs (.flag .pco) (by simp [requestCells])

theorem onPco_eq_pcoLoop : ∃ pco len n, onPco stack cs = pcoLoop pco len n 0 cs :=
  ⟨_, _, 255, rfl⟩

theorem onPco_item (s : Slot) : (onPco stack cs).item s = cs.item s := by
  obtain ⟨pco, len, n, h⟩ := onPco_eq_pcoLoop stack cs
  rw [h, pcoLoop_item]

theorem onPco_flag_pco : (onPco stack cs).flag .pco = cs.flag .pco := by
  obtain ⟨pco, len, n, h⟩ := onPco_eq_pcoLoop stack cs
  rw [h, pcoLoop_flag_pco]

/-! ## 3. Walks that stay inside their item -/

def childSize (data : Nat → UInt8) (cur : Nat) : Nat :=
  be16 (data (4 + cur + 1)) (data (4 + cur + 2)) + 4

/-- From `cur` on, `n` children fill the context up to `len` exactly. -/
inductive ChildrenTile (data : Nat → UInt8) (len : Nat) : Nat → Nat → Prop
  | done : ChildrenTile data len 0 len
  | child {n cur : Nat} (rest : ChildrenTile data len n (cur + childSize data cur)) :
      ChildrenTile data len (n + 1) cur

instance ChildrenTile.decidable (data : Nat → UInt8) (len : Nat) :
    ∀ n cur, Decidable (ChildrenTile data len n cur)
  | 0, cur => decidable_of_iff (cur = len)
      ⟨fun h => h ▸ ChildrenTile.done, fun h => by cases h; rfl⟩
  | n + 1, cur =>
    @decidable_of_iff _ (ChildrenTile data len n (cur + childSize data cur))
      ⟨ChildrenTile.child, fun h => by cases h; assumption⟩
      (ChildrenTile.decidable data len n (cur + childSize data cur))

/-- From `offset` on, containers fill a PCO up to `len` exactly, and every IPCP container has room
for its block. -/
inductive ContainersTile (room : Nat → Prop) (pco : Nat → UInt8) (len : Nat) : Nat → Prop
  | done : ContainersTile room pco len len
  | container {offset : Nat}
      (ipcp : be16 (pco offset) (pco (offset + 1)) = 0x8021 → room offset)
      (rest : ContainersTile room pco len (offset + 3 + (pco (offset + 2)).toNat)) :
      ContainersTile room pco len offset

/-- A root item whose inner walk stays inside: children, no more than the walk takes, tile a bearer
context; containers tile a PCO, and if it is short enough to be parsed, the 14 bytes read from an
IPCP container on are in the field. -/
structure TidyItem (it : UInt8 × List UInt8) : Prop where
  bctx : it.1 = gtpcTypeBearerCtx → be16 (it.2.getD 1 0) (it.2.getD 2 0) + 4 = it.2.length ∧
    ∃ n, 1 ≤ n ∧ n ≤ gtpcCapabilityItemCount ∧
      ChildrenTile (fun i => it.2.getD i 0) (it.2.length - 4) n 0
  pco : it.1 = gtpcTypePco → be16 (it.2.getD 1 0) (it.2.getD 2 0) + 4 = it.2.length ∧
    5 < it.2.length ∧
      ContainersTile (fun offset => it.2.length < 258 → offset + 14 ≤ 253)
        (fun i => it.2.getD (5 + i) 0) (it.2.length - 5) 0

variable {data : Nat → UInt8} {len n cur : Nat}

theorem ChildrenTile.le (h : ChildrenTile data len n cur) : cur ≤ len := by
  induction h with
  | done => exact Nat.le_refl len
  | child _ ih => exact Nat.le_trans (Nat.le_add_right _ _) ih

theorem ChildrenTile.lt (h : ChildrenTile data len n cur) (hn : 1 ≤ n) : cur < len := by
  cases h with
  | done => exact absurd hn (by decide)
  | child rest => exact Nat.lt_of_lt_of_le (by simp [childSize]) rest.le

variable {data' : Nat → UInt8}

theorem ChildrenTile.congr
    (hag : ∀ i < 4 + len, data i = data' i) (h : ChildrenTile data len n cur) :
    ChildrenTile data' len n cur := by
  induction h with
  | done => exact .done
  | @child n cur rest ih =>
    have hle := rest.le
    have hsize : childSize data cur = childSize data' cur := by
      have : 4 ≤ childSize data cur := Nat.le_add_left 4 _
      unfold childSize
      rw [hag (4 + cur + 1) (by omega), hag (4 + cur + 2) (by omega)]
    exact .child (hsize ▸ ih)

theorem ContainersTile.le {room : Nat → Prop} {pco : Nat → UInt8} {len offset : Nat}
    (h : ContainersTile room pco len offset) : offset ≤ len := by
  induction h with
  | done => exact Nat.le_refl len
  | container _ _ ih => exact Nat.le_trans (by omega) ih

variable {datalen : Nat}

theorem store_congr (h : ∀ i < datalen, data i = data' i) (cs : GtpcParseState) :
    cs.store s data datalen = cs.store s data' datalen := by
  have hmap : (range datalen).map data = (range datalen).map data' :=
    map_congr_left fun i hi => h i (mem_range.mp hi)
  simp only [GtpcParseState.store, overwrite, hmap]

theorem onGtpcParseBearerContext_congr (h : ∀ i < datalen, data i = data' i) (cs : GtpcParseState) :
    onGtpcParseBearerContext type data datalen cs =
      onGtpcParseBearerContext type data' datalen cs := by
  unfold onGtpcParseBearerContext
  split
  · exact store_congr h cs
  · rfl

/-- The walk over a tiled bearer context reads the context alone and succeeds. -/
theorem bearerCtxLoop_tiled {len k cur : Nat} (hlen : len < 65536)
    (hag : ∀ i < 4 + len, data i = data' i) (h : ChildrenTile data' len k cur) (hk : 1 ≤ k) :
    ∀ n, k ≤ n → ∀ cs,
      bearerCtxLoop data len n cur cs = ((bearerCtxLoop data' len n cur cs).1, true) := by
  induction h with
  | done => exact absurd hk (by decide)
  | @child k cur rest ih =>
    intro n hkn cs
    obtain ⟨m, rfl⟩ : ∃ m, n = m + 1 := ⟨n - 1, by omega⟩
    have hle := rest.le
    have hsize : 4 ≤ childSize data' cur := Nat.le_add_left 4 _
    have hat : ∀ i < childSize data' cur, data (4 + cur + i) = data' (4 + cur + i) :=
      fun i hi => hag _ (by omega)
    have hlt : childSize data' cur < 65536 := by omega
    have hhlen : (be16 (data' (4 + cur + 1)) (data' (4 + cur + 2)) + 4) % 65536 =
        childSize data' cur := Nat.mod_eq_of_lt hlt
    have hcur : (cur + childSize data' cur) % 65536 = cur + childSize data' cur :=
      Nat.mod_eq_of_lt (by omega)
    have hstep := onGtpcParseBearerContext_congr (data' (4 + cur + 0)) hat cs
    simp only [bearerCtxLoop, hat 0 (by omega), hat 1 (by omega), hat 2 (by omega), hhlen, hcur,
      hstep]
    rw [if_pos (by omega), if_neg (by omega)]
    by_cases hend : cur + childSize data' cur = len
    · rw [if_pos hend, if_pos (by omega), if_neg (by omega), if_pos hend]
    · rw [if_neg hend, if_pos (by omega), if_neg (by omega), if_neg hend]
      refine ih ?_ m (by omega) _
      cases rest with
      | done => exact absurd rfl hend
      | child _ => omega

/-- With more children than turns the walk gives up. -/
theorem bearerCtxLoop_crowded {len k cur : Nat} (hlen : len < 65536)
    (h : ChildrenTile data len k cur) :
    ∀ n < k, ∀ cs, (bearerCtxLoop data len n cur cs).2 = false := by
  induction h with
  | done => exact fun n hn => absurd hn (Nat.not_lt_zero n)
  | @child k cur rest ih =>
    intro n hn cs
    cases n with
    | zero => rfl
    | succ n =>
      have hmore := rest.lt (by omega)
      have hhlen : (be16 (data (4 + cur + 1)) (data (4 + cur + 2)) + 4) % 65536 =
          childSize data cur :=
        Nat.mod_eq_of_lt (Nat.lt_of_le_of_lt (Nat.le_trans (Nat.le_add_left _ cur) rest.le) hlen)
      have hcur : (cur + childSize data cur) % 65536 = cur + childSize data cur :=
        Nat.mod_eq_of_lt (by omega)
      simp only [bearerCtxLoop, hhlen, hcur]
      rw [if_pos (by omega), if_neg (by omega), if_neg (by omega)]
      exact ih n (by omega) _

variable {pco pco' : Nat → UInt8}

theorem pcoLoop_congr {len end' offset : Nat} (hag : ∀ i < 253, pco i = pco' i) (hend : end' ≤ 253)
    (hlen : len ≤ end') (h : ContainersTile (fun o => o + 14 ≤ 253) pco end' offset) :
    ∀ n cs, pcoLoop pco len n offset cs = pcoLoop pco' len n offset cs := by
  induction h with
  | done =>
    intro n cs
    cases n with
    | zero => rfl
    | succ n => simp only [pcoLoop, if_neg (Nat.not_lt.mpr hlen)]
  | @container offset ipcp rest ih =>
    intro n cs
    cases n with
    | zero => rfl
    | succ n =>
      have hle := rest.le
      rw [hag offset (by omega), hag (offset + 1) (by omega)] at ipcp
      rw [hag (offset + 2) (by omega)] at ih
      simp only [pcoLoop, hag offset (by omega), hag (offset + 1) (by omega),
        hag (offset + 2) (by omega), ih]
      by_cases htype : be16 (pco' offset) (pco' (offset + 1)) = 0x8021
      · have hroom := ipcp htype
        simp only [gtpcIteratePcoIpcpItem, hag (offset + 3 + 2) (by omega),
          hag (offset + 3 + 3) (by omega), hag (offset + 3 + 4) (by omega),
          hag (offset + 3 + 10) (by omega)]
      · simp only [htype, if_false]

theorem ContainersTile.congr {room room' : Nat → Prop} {len offset : Nat}
    (hag : ∀ i < len, pco i = pco' i) (hroom : ∀ o, room o → room' o)
    (h : ContainersTile room pco len offset) : ContainersTile room' pco' len offset := by
  induction h with
  | done => exact .done
  | @container offset ipcp rest ih =>
    have hle := rest.le
    rw [hag (offset + 2) (by omega)] at ih
    refine .container (fun htype => hroom _ (ipcp ?_)) ih
    rwa [hag offset (by omega), hag (offset + 1) (by omega)]

theorem getD_overwrite (image : List UInt8) (data : Nat → UInt8) {datalen i : Nat}
    (h : i < datalen) : (overwrite image data datalen).getD i 0 = data i := by
  simp only [overwrite, splice, take_zero, nil_append, getD_eq_getElem?_getD]
  rw [getElem?_append_left (by simpa using h)]
  simp [h]

theorem store_item (hfits : s.fits datalen = true) (cs : GtpcParseState) (data : Nat → UInt8) :
    (cs.store s data datalen).item s = overwrite (cs.item s) data datalen := by
  simp [GtpcParseState.store, hfits]

/-- The walk over the PCO of this state stays in the field. -/
def PcoInside (cs : GtpcParseState) : Prop :=
  ∃ len, 0 < len ∧ len ≤ 253 ∧ be16 ((cs.item .pco).getD 1 0) ((cs.item .pco).getD 2 0) = len + 1 ∧
    ContainersTile (fun o => o + 14 ≤ 253) (fun i => (cs.item .pco).getD (5 + i) 0) len 0

variable {it : UInt8 × List UInt8}

theorem TidyItem.pcoInside (h : TidyItem it) (htype : it.1 = gtpcTypePco)
    (hfits : Slot.pco.fits it.2.length = true) (cs : GtpcParseState) :
    PcoInside (cs.store .pco (fun i => it.2.getD i 0) it.2.length) := by
  obtain ⟨hlen, hpos, htile⟩ := h.pco htype
  have hlt : it.2.length < 258 := of_decide_eq_true hfits
  have hbyte : ∀ i < it.2.length,
      ((cs.store .pco (fun i => it.2.getD i 0) it.2.length).item .pco).getD i 0 = it.2.getD i 0 := by
    intro i hi
    rw [store_item hfits, getD_overwrite _ _ hi]
  refine ⟨it.2.length - 5, by omega, by omega, ?_, ?_⟩
  · rw [hbyte 1 (by omega), hbyte 2 (by omega)]
    omega
  · exact htile.congr (fun i hi => (hbyte (5 + i) (by omega)).symm) fun o ho => ho hlt

/-- A walk that stays in the field depends on the field alone. -/
theorem onPco_congr {cs cs' : GtpcParseState} (hinside : PcoInside cs)
    (hitem : cs.item .pco = cs'.item .pco) (stack stack' : Nat → UInt8) :
    onPco stack cs = pcoLoop (pcoByte stack' cs')
      ((be16 ((cs'.item .pco).getD 1 0) ((cs'.item .pco).getD 2 0) + 2 ^ 64 - 2) % 2 ^ 64) 255 0 cs := by
  obtain ⟨len, hpos, hlen, hfield, htile⟩ := hinside
  have hin : ∀ i < 253, (cs.item .pco).getD (5 + i) 0 = pcoByte stack cs i :=
    fun i hi => (if_pos hi).symm
  have hag : ∀ i < 253, pcoByte stack cs i = pcoByte stack' cs' i := by
    intro i hi
    simp only [pcoByte, if_pos hi, hitem]
  have hend : (be16 ((cs.item .pco).getD 1 0) ((cs.item .pco).getD 2 0) + 2 ^ 64 - 2) % 2 ^ 64 ≤
      len := by omega
  rw [← hitem]
  exact pcoLoop_congr hag hlen hend
    (htile.congr (fun i hi => hin i (by omega)) fun _ ho => ho) 255 cs

/-! ## 4. One item, and all of them -/

/-- What a tidy item does, whatever lies around it. -/
def rootStep (cs : GtpcParseState) (it : UInt8 × List UInt8) : GtpcParseState :=
  (onGtpcParseRoot (fun _ => 0) it.1 (fun i => it.2.getD i 0) it.2.length cs).1

theorem gtpcIterateBearerCtxItem_tidy (htidy : TidyItem it) (htype : it.1 = gtpcTypeBearerCtx)
    (hdata : ∀ i < it.2.length, data i = it.2.getD i 0) (cs : GtpcParseState) :
    gtpcIterateBearerCtxItem data cs =
      ((gtpcIterateBearerCtxItem (fun i => it.2.getD i 0) cs).1, true) := by
  obtain ⟨hlen, n, hpos, hn, htile⟩ := htidy.bctx htype
  have hlt := be16_lt (it.2.getD 1 0) (it.2.getD 2 0)
  have hfield : be16 (it.2.getD 1 0) (it.2.getD 2 0) = it.2.length - 4 := by omega
  unfold gtpcIterateBearerCtxItem
  rw [hdata 1 (by omega), hdata 2 (by omega)]
  simp only [hfield]
  exact bearerCtxLoop_tiled (by omega) (fun i hi => hdata i (by omega)) htile hpos _ hn cs

theorem onGtpcParseRoot_tidy (htidy : TidyItem it)
    (hdata : ∀ i < it.2.length, data i = it.2.getD i 0) (stack : Nat → UInt8)
    (cs : GtpcParseState) :
    onGtpcParseRoot stack it.1 data it.2.length cs = (rootStep cs it, true) := by
  unfold rootStep onGtpcParseRoot
  cases hs : rootSlot it.1 with
  | none =>
    by_cases htype : it.1 = gtpcTypeBearerCtx
    · simp only [if_pos htype, gtpcIterateBearerCtxItem_tidy htidy htype hdata]
    · simp only [if_neg htype]
  | some s =>
    by_cases hpco : s = .pco
    · subst hpco
      have htype : it.1 = gtpcTypePco := (rootSlot_owner hs).symm
      by_cases hfits : Slot.pco.fits it.2.length = true
      · simp only [hfits, if_true, store_congr hdata]
        rw [onPco_congr (htidy.pcoInside htype hfits cs) rfl stack (fun _ => 0)]
        rfl
      · simp only [hfits, Bool.false_eq_true, if_false]
    · cases s with
      | pco => exact absurd rfl hpco
      | _ => simp only [store_congr hdata]

theorem onPco_confined (htidy : TidyItem it)
    (htype : it.1 = gtpcTypePco) (hfits : Slot.pco.fits it.2.length = true) (stack : Nat → UInt8) :
    Confined Cell.get (cellsOf gtpcTypePco) sharedCells
      (fun cs => onPco stack (cs.store .pco (fun i => it.2.getD i 0) it.2.length)) where
  keeps cs c hc :=
    (onPco_keeps stack _ fun hc' => hc (requestCells_subset hc')).trans
      ((store_confined .pco _ _).keeps cs c hc)
  reads cs cs' hag := by
    have hag' := (store_confined .pco (fun i => it.2.getD i 0) it.2.length).agreeOn hag hag
    have hitem : (cs.store .pco (fun i => it.2.getD i 0) it.2.length).item .pco =
        (cs'.store .pco (fun i => it.2.getD i 0) it.2.length).item .pco :=
      hag' (.item .pco) (Or.inl rfl)
    -- both walks read the same bytes, so they are one walk from two states
    rw [onPco_congr (htidy.pcoInside htype hfits cs) hitem stack stack]
    exact ((pcoLoop_confined _ _ 255 0).mono requestCells_subset subset_rfl).reads _ _ hag'

/-- **A tidy item writes the cells of its type** and reads only them and the shared one. -/
theorem rootStep_confined (htidy : TidyItem it) :
    Confined Cell.get (cellsOf it.1) sharedCells (fun cs => rootStep cs it) := by
  unfold rootStep onGtpcParseRoot
  cases hs : rootSlot it.1 with
  | none =>
    by_cases htype : it.1 = gtpcTypeBearerCtx
    · simp only [if_pos htype]
      rw [htype]
      exact (bearerCtxLoop_confined _ _ _ _).comp (setFlag_confined rfl)
    · simp only [if_neg htype]
      exact Confined.id
  | some s =>
    have hstore := store_confined s (fun i => it.2.getD i 0) it.2.length
    rw [rootSlot_owner hs] at hstore
    by_cases hpco : s = .pco
    · subst hpco
      have htype : it.1 = gtpcTypePco := (rootSlot_owner hs).symm
      by_cases hfits : Slot.pco.fits it.2.length = true
      · simp only [hfits, if_true]
        rw [htype]
        exact onPco_confined htidy htype hfits _
      · simp only [hfits, Bool.false_eq_true, if_false]
        exact Confined.id
    · cases s with
      | pco => exact absurd rfl hpco
      | _ => exact hstore

/-- `gtpc_iterate_item` with its return code. -/
def iterateItemsCode (mem : ItemMemory) (packet : List UInt8) :
    List GtpItem → GtpcParseState → GtpcParseState × Bool
  | [], cs => (cs, true)
  | it :: rest, cs =>
    let data := fun i => packet.getD (it.offset + i) (mem.heap (it.offset + i))
    match onGtpcParseRoot mem.stack it.type data it.length cs with
    | (cs', true) => iterateItemsCode mem packet rest cs'
    | (cs', false) => (cs', false)

theorem iterateItemsCode_fst (mem : ItemMemory) (packet : List UInt8) (items : List GtpItem)
    (cs : GtpcParseState) :
    (iterateItemsCode mem packet items cs).1 = iterateItems mem packet items cs := by
  induction items generalizing cs with
  | nil => rfl
  | cons it rest ih =>
    simp only [iterateItemsCode, iterateItems]
    generalize onGtpcParseRoot mem.stack it.type _ it.length cs = result
    obtain ⟨cs', ok⟩ := result
    cases ok with
    | false => rfl
    | true => exact ih cs'

variable {pkt : GtpPacket} {it : GtpItem}

theorem GtpPacket.Wf.item_data (hwf : pkt.Wf) (hit : it ∈ pkt.items) (mem : ItemMemory) :
    it.length = (pkt.itemBytes it).length ∧ ∀ i < (pkt.itemBytes it).length,
      pkt.packet.getD (it.offset + i) (mem.heap (it.offset + i)) = (pkt.itemBytes it).getD i 0 := by
  have hin : it.offset + it.length ≤ pkt.packet.length := by
    have := (hwf.items_in it hit).2
    have := hwf.offset_lt
    have := hwf.packet_length
    omega
  have hlen : (pkt.itemBytes it).length = it.length := by
    simp only [GtpPacket.itemBytes, slice, length_take, length_drop]
    omega
  refine ⟨hlen.symm, fun i hi => ?_⟩
  rw [hlen] at hi
  rw [GtpPacket.itemBytes, getD_slice hi, getD_eq_getElem _ _ (by omega),
    getD_eq_getElem _ _ (by omega)]

theorem iterateItemsCode_tidy (hwf : pkt.Wf) (mem : ItemMemory)
    {items : List GtpItem} (hitems : ∀ it ∈ items, it ∈ pkt.items)
    (htidy : ∀ it ∈ items, TidyItem (it.type, pkt.itemBytes it)) (cs : GtpcParseState) :
    iterateItemsCode mem pkt.packet items cs =
      ((items.map fun it => (it.type, pkt.itemBytes it)).foldl rootStep cs, true) := by
  induction items generalizing cs with
  | nil => rfl
  | cons it rest ih =>
    obtain ⟨hlen, hdata⟩ := hwf.item_data (hitems it mem_cons_self) mem
    have hstep := onGtpcParseRoot_tidy (htidy it mem_cons_self) hdata mem.stack cs
    rw [← hlen] at hstep
    simp only [iterateItemsCode, hstep, map_cons, foldl_cons]
    exact ih (fun i hi => hitems i (mem_cons_of_mem _ hi))
      (fun i hi => htidy i (mem_cons_of_mem _ hi)) _

theorem GtpPacket.Wf.iterate (hwf : pkt.Wf)
    (htidy : ∀ it ∈ pkt.contents, TidyItem it) (mem : ItemMemory) (cs : GtpcParseState) :
    iterateItemsCode mem pkt.packet pkt.items cs = (pkt.contents.foldl rootStep cs, true) :=
  iterateItemsCode_tidy hwf mem (fun _ hit => hit)
    (fun _ hit => htidy _ (mem_map_of_mem hit)) cs

/-- **The order does not matter** for packets with the same tidy items, each type once, wherever
they lie in memory. -/
theorem iterateItem_perm (pkt pkt' : GtpPacket) (hwf : pkt.Wf) (hwf' : pkt'.Wf)
    (hperm : pkt.contents.Perm pkt'.contents) (hdistinct : (pkt.contents.map Prod.fst).Nodup)
    (htidy : ∀ it ∈ pkt.contents, TidyItem it) (mem mem' : ItemMemory) (cs : GtpcParseState) :
    iterateItemsCode mem pkt.packet pkt.items cs =
        iterateItemsCode mem' pkt'.packet pkt'.items cs ∧
      (iterateItemsCode mem pkt.packet pkt.items cs).2 = true ∧
      gtpcIterateItem mem pkt cs = gtpcIterateItem mem' pkt' cs := by
  have hcode := hwf.iterate htidy mem cs
  have hcode' := hwf'.iterate (fun it hit => htidy it (hperm.mem_iff.mpr hit)) mem' cs
  have hfold : pkt.contents.foldl rootStep cs = pkt'.contents.foldl rootStep cs :=
    foldl_perm Cell.ext_state hperm hdistinct (fun it hit => rootStep_confined (htidy it hit))
      disjoint_cellsOf disjoint_sharedCells cs
  have heq : iterateItemsCode mem pkt.packet pkt.items cs =
      iterateItemsCode mem' pkt'.packet pkt'.items cs := by rw [hcode, hcode', hfold]
  refine ⟨heq, by rw [hcode], ?_⟩
  unfold gtpcIterateItem
  rw [← iterateItemsCode_fst, ← iterateItemsCode_fst, heq]

def packetOf (items : List (UInt8 × List UInt8)) : GtpPacket :=
  (gtpcAppendItems (gtpcAllocPacket gtpcCreateSessionReq) items).getD
    (gtpcAllocPacket gtpcCreateSessionReq)

theorem packetOf_wf (items : List (UInt8 × List UInt8)) : (packetOf items).Wf := by
  unfold packetOf
  cases happ : gtpcAppendItems (gtpcAllocPacket gtpcCreateSessionReq) items with
  | none => exact gtpcAllocPacket_wf _
  | some pkt => exact (gtpcAppendItems_keeps (gtpcAllocPacket_wf _) happ).1

def imsiItem : UInt8 × List UInt8 := (gtpcTypeImsi, gtpcCommHeader gtpcTypeImsi 1 0 ++ [0x21])

def bearerItem : UInt8 × List UInt8 := (gtpcTypeBearerCtx, gtpcBearerCtxBytes (gtpcEbiSet 0 5))

def pcoItem : UInt8 × List UInt8 := (gtpcTypePco, gtpcCommHeader gtpcTypePco 4 0 ++ [0x80, 0, 0x0d, 0])

theorem imsiItem_tidy : TidyItem imsiItem :=
  ⟨fun h => absurd h (by decide), fun h => absurd h (by decide)⟩

theorem bearerItem_tidy : TidyItem bearerItem :=
  ⟨fun _ => ⟨by decide, 1, by decide⟩, fun h => absurd h (by decide)⟩

theorem pcoItem_tidy : TidyItem pcoItem :=
  ⟨fun h => absurd h (by decide), fun _ => ⟨by decide, by decide,
    .container (fun h => absurd h (by decide)) .done⟩⟩

theorem three_items_any_order :
    gtpcIterateItem ⟨fun _ => 0, fun _ => 0⟩ (packetOf [imsiItem, bearerItem, pcoItem])
        GtpcParseState.zero =
      gtpcIterateItem ⟨fun _ => 0, fun _ => 0⟩ (packetOf [pcoItem, bearerItem, imsiItem])
        GtpcParseState.zero := by
  have hcontents : (packetOf [imsiItem, bearerItem, pcoItem]).contents =
      [imsiItem, bearerItem, pcoItem] := by decide +kernel
  have hcontents' : (packetOf [pcoItem, bearerItem, imsiItem]).contents =
      [pcoItem, bearerItem, imsiItem] := by decide +kernel
  refine (iterateItem_perm _ _ (packetOf_wf _) (packetOf_wf _) ?_ ?_ ?_ _ _ _).2.2
  · rw [hcontents, hcontents']
    exact (reverse_perm _).symm
  · rw [hcontents]
    decide
  · rw [hcontents]
    simp only [forall_mem_cons, not_mem_nil, false_imp_iff, implies_true, and_true]
    exact ⟨imsiItem_tidy, bearerItem_tidy, pcoItem_tidy⟩

/-- A bearer context tiled by more children than the walk takes. -/
def Crowded (it : UInt8 × List UInt8) : Prop :=
  it.1 = gtpcTypeBearerCtx ∧ be16 (it.2.getD 1 0) (it.2.getD 2 0) + 4 = it.2.length ∧
    ∃ k, gtpcCapabilityItemCount < k ∧
      ChildrenTile (fun i => it.2.getD i 0) (it.2.length - 4) k 0

variable {rest : List GtpItem}

/-- Behind a crowded context nothing is parsed. -/
theorem iterateItems_crowded (hwf : pkt.Wf)
    (hit : it ∈ pkt.items) (hcrowded : Crowded (it.type, pkt.itemBytes it)) (mem : ItemMemory)
    (cs : GtpcParseState) (hc : c ∉ cellsOf gtpcTypeBearerCtx) :
    Cell.get c (iterateItems mem pkt.packet (it :: rest) cs) = Cell.get c cs := by
  obtain ⟨htype, hfield, k, hk, htile⟩ := hcrowded
  dsimp only at htype hfield htile
  obtain ⟨hlen, hdata⟩ := hwf.item_data hit mem
  have hlt := be16_lt ((pkt.itemBytes it).getD 1 0) ((pkt.itemBytes it).getD 2 0)
  have htile' := htile.congr (fun i hi => (hdata i (by omega)).symm)
  have hwalk := bearerCtxLoop_confined
    (fun i => pkt.packet.getD (it.offset + i) (mem.heap (it.offset + i)))
    ((pkt.itemBytes it).length - 4) gtpcCapabilityItemCount 0
  have hfails := bearerCtxLoop_crowded (by omega) htile' gtpcCapabilityItemCount hk
    { cs with flag := setFlag cs.flag .bctx }
  have hnone : rootSlot gtpcTypeBearerCtx = none := by decide
  have hroot : onGtpcParseRoot mem.stack it.type
      (fun i => pkt.packet.getD (it.offset + i) (mem.heap (it.offset + i))) it.length cs =
      bearerCtxLoop (fun i => pkt.packet.getD (it.offset + i) (mem.heap (it.offset + i)))
        ((pkt.itemBytes it).length - 4) gtpcCapabilityItemCount 0
        { cs with flag := setFlag cs.flag .bctx } := by
    simp only [onGtpcParseRoot, htype, hnone, if_true, gtpcIterateBearerCtxItem]
    rw [hdata 1 (by omega), hdata 2 (by omega), ← hfield, Nat.add_sub_cancel]
  simp only [iterateItems, hroot]
  split
  · rename_i hok
    rw [hok] at hfails
    exact absurd hfails (by simp)
  · rename_i hok
    have hkeeps := (hwalk.comp (setFlag_confined (h := .bctx) rfl)).keeps cs c hc
    rwa [hok] at hkeeps

theorem imsi_not_bearer : Cell.flag .imsi ∉ cellsOf gtpcTypeBearerCtx := by
  intro h
  have howner : some gtpcTypeImsi = some gtpcTypeBearerCtx := h
  exact absurd howner (by decide)

theorem imsi_behind_crowded (hwf : pkt.Wf) (hitems : pkt.items = it :: rest)
    (hcrowded : Crowded (it.type, pkt.itemBytes it)) (mem : ItemMemory) (cs : GtpcParseState) :
    (gtpcIterateItem mem pkt cs).flag .imsi = cs.flag .imsi := by
  unfold gtpcIterateItem
  rw [hitems]
  exact iterateItems_crowded hwf (by simp [hitems]) hcrowded mem cs imsi_not_bearer

theorem imsi_before_crowded (hwf : pkt.Wf) {length offset : Nat}
    (hitems : pkt.items = [⟨gtpcTypeImsi, length, offset⟩, it])
    (hfits : Slot.imsi.fits length = true)
    (hcrowded : Crowded (it.type, pkt.itemBytes it)) (mem : ItemMemory) (cs : GtpcParseState) :
    (gtpcIterateItem mem pkt cs).flag .imsi = true := by
  have hslot : rootSlot gtpcTypeImsi = some .imsi := by decide
  unfold gtpcIterateItem
  rw [hitems, iterateItems]
  simp only [onGtpcParseRoot, hslot]
  refine (iterateItems_crowded hwf (by simp [hitems]) hcrowded mem _ imsi_not_bearer).trans ?_
  change (cs.store .imsi _ length).flag .imsi = true
  simp [GtpcParseState.store, hfits, setFlag, Slot.have]

def emptyChildren (n : Nat) : UInt8 × List UInt8 :=
  (gtpcTypeBearerCtx, gtpcBearerCtxBytes (replicate (4 * n) 0))

theorem emptyChildren_tiled (n : Nat) :
    ChildrenTile (fun i => (emptyChildren n).2.getD i 0) (4 * n) n 0 := by
  have hzero : ∀ i, 4 ≤ i → (emptyChildren n).2.getD i 0 = 0 := by
    intro i hi
    simp only [emptyChildren, gtpcBearerCtxBytes]
    rw [getD_append_right _ _ _ _ (by simpa using hi), getD_eq_getElem?_getD, getElem?_replicate]
    split <;> rfl
  suffices hall : ∀ m cur, cur + 4 * m = 4 * n →
      ChildrenTile (fun i => (emptyChildren n).2.getD i 0) (4 * n) m cur from hall n 0 (by omega)
  intro m
  induction m with
  | zero =>
    intro cur hcur
    obtain rfl : cur = 4 * n := hcur
    exact .done
  | succ m ih =>
    intro cur hcur
    have hsize : childSize (fun i => (emptyChildren n).2.getD i 0) cur = 4 := by
      simp only [childSize, hzero (4 + cur + 1) (by omega), hzero (4 + cur + 2) (by omega)]
      rfl
    refine .child ?_
    rw [hsize]
    exact ih (cur + 4) (by omega)

theorem emptyChildren_crowded : Crowded (emptyChildren 256) := by
  have hlen : (emptyChildren 256).2.length = 4 * 256 + 4 := by decide +kernel
  refine ⟨rfl, by decide +kernel, 256, by decide, ?_⟩
  rw [hlen, Nat.add_sub_cancel]
  exact emptyChildren_tiled 256

/-- With 256 children, an IMSI in front of the context is parsed and one behind it is not. -/
theorem crowded_order_matters :
    (packetOf [imsiItem, emptyChildren 256]).Wf ∧ (packetOf [emptyChildren 256, imsiItem]).Wf ∧
      (packetOf [imsiItem, emptyChildren 256]).contents = [imsiItem, emptyChildren 256] ∧
      (packetOf [emptyChildren 256, imsiItem]).contents = [emptyChildren 256, imsiItem] ∧
      ChildrenTile (fun i => (emptyChildren 256).2.getD i 0) (4 * 256) 256 0 ∧
      (gtpcIterateItem ⟨fun _ => 0, fun _ => 0⟩ (packetOf [imsiItem, emptyChildren 256])
        GtpcParseState.zero).flag .imsi = true ∧
      (gtpcIterateItem ⟨fun _ => 0, fun _ => 0⟩ (packetOf [emptyChildren 256, imsiItem])
        GtpcParseState.zero).flag .imsi = false := by
  have hbytes : (packetOf [imsiItem, emptyChildren 256]).itemBytes ⟨93, 1028, 17⟩ =
      (emptyChildren 256).2 := by decide +kernel
  have hbytes' : (packetOf [emptyChildren 256, imsiItem]).itemBytes ⟨93, 1028, 12⟩ =
      (emptyChildren 256).2 := by decide +kernel
  have hcrowded : Crowded (93, (packetOf [imsiItem, emptyChildren 256]).itemBytes ⟨93, 1028, 17⟩) := by
    rw [hbytes]
    exact emptyChildren_crowded
  have hcrowded' : Crowded (93, (packetOf [emptyChildren 256, imsiItem]).itemBytes ⟨93, 1028, 12⟩) := by
    rw [hbytes']
    exact emptyChildren_crowded
  have hitems : (packetOf [imsiItem, emptyChildren 256]).items =
      [⟨gtpcTypeImsi, 5, 12⟩, ⟨93, 1028, 17⟩] := by decide +kernel
  have hitems' : (packetOf [emptyChildren 256, imsiItem]).items =
      [⟨93, 1028, 12⟩, ⟨gtpcTypeImsi, 5, 1040⟩] := by decide +kernel
  refine ⟨packetOf_wf _, packetOf_wf _, by decide +kernel, by decide +kernel,
    emptyChildren_tiled 256, ?_, ?_⟩
  · exact imsi_before_crowded (packetOf_wf _) hitems (by decide) hcrowded _ _
  · exact imsi_behind_crowded (packetOf_wf _) hitems' hcrowded' _ _

end MixiPgw.Ctrl
