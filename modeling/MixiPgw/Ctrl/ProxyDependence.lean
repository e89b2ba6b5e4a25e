/-
# What the proxy's routing depends on

`OnRecieveExt` hands `_ParseImsi` a parse state that nobody has cleared. The parser only RAISES
flags in it and copies items over the FRONT of their images, so that what a message does not say is
answered by what the stack held before.

A message says IMSI digits and TEIDs, and a listener who starts from an arbitrary `View` hears them
in order; `routed_alike_iff` is when it does not matter where the listener started. The walks of
both versions are such listeners (`iterateItems_view`, `run_view`). So two calls route alike,
whatever was on the stack, exactly when the message says enough (`Supplied`), if the walk stays
inside of it (`SelfContained`).
-/
import MixiPgw.Ctrl.Digits
import MixiPgw.Ctrl.GsnAddresses

namespace MixiPgw.Ctrl

open Bytes CString Lib List Traced Source

/-! ## 1. What a message says -/

/-- New digits over the first of the old ones, as `memcpy` leaves them. -/
def lay (p ds : List UInt8) : List UInt8 := p ++ ds.drop p.length

/-- What `_ParseImsi` takes from a parse state. -/
structure View where
  imsi : Bool
  digits : List UInt8
  fteid : Bool
  teid : UInt32

/-- What a message can say about its routing. -/
inductive Said
  | imsi (p : { p : List UInt8 // p.length ≤ 8 })
  | teid (t : UInt32)
deriving DecidableEq

def Said.onDigits (known : List UInt8) : Said → List UInt8
  | .imsi p => lay p.1 known
  | .teid _ => known

def Said.onTeid (known : Option UInt32) : Said → Option UInt32
  | .imsi _ => known
  | .teid t => some t

namespace View

/-- A message says one more thing. -/
def hear (v : View) : Said → View
  | .imsi p => { v with imsi := true, digits := lay p.1 v.digits }
  | .teid t => { v with fteid := true, teid := t }

def after (v : View) (said : List Said) : View := said.foldl hear v

theorem after_append (v : View) (said said' : List Said) :
    v.after (said ++ said') = (v.after said).after said' := foldl_append

/-- What the message is routed by; version 2 asks for a TEID. -/
def routed (asksTeid errnoRange : Bool) (v : View) : Option (Nat × UInt32) :=
  if v.imsi ∧ (asksTeid → v.fteid) then some (gtpcDigitsGet errnoRange v.digits, v.teid) else none

end View

/-- The digits that do not depend on what was there before. -/
def knownDigits (said : List Said) : List UInt8 := said.foldl Said.onDigits []

def lastTeid (said : List Said) : Option UInt32 := said.foldl Said.onTeid none

def digitsValue (ds : List UInt8) : Nat := ofDecimal (ds.flatMap digitText)

/-- **A message that says enough**: an IMSI, a TEID, and all eight bytes of digits, or a number that
is out of range in any case. -/
structure Supplies (errnoRange : Bool) (said : List Said) : Prop where
  imsi : ∃ p, .imsi p ∈ said
  teid : ∃ t, .teid t ∈ said
  digits : errnoRange = true ∨ 8 ≤ (knownDigits said).length ∨
    2 ^ 64 - 1 ≤ digitsValue (knownDigits said)

theorem length_lay (p ds : List UInt8) : (lay p ds).length = max p.length ds.length := by
  rw [lay, length_append, length_drop]
  omega

theorem lay_lay (p q ds : List UInt8) : lay p (lay q ds) = lay (lay p q) ds := by
  have hdrop : q.length + (p.length - q.length) = max p.length q.length := by omega
  rw [lay, lay, lay, length_lay, drop_append, drop_drop, hdrop, lay, append_assoc]

theorem lay_of_length {p ds : List UInt8} (h : ds.length ≤ p.length) : lay p ds = p := by
  rw [lay, drop_eq_nil_of_le h, append_nil]

namespace View

theorem after_flag {α : Type} {flag : View → Bool} {word : α → Said}
    (hhear : ∀ v s, flag (v.hear s) = true ↔ flag v = true ∨ ∃ a, word a = s)
    (said : List Said) (v : View) :
    flag (v.after said) = true ↔ flag v = true ∨ ∃ a, word a ∈ said := by
  induction said generalizing v with
  | nil => simp [after]
  | cons s said ih =>
    have hcons : v.after (s :: said) = (v.hear s).after said := rfl
    rw [hcons, ih, hhear, or_assoc, ← exists_or]
    simp only [mem_cons]

variable (said : List Said) (v : View)

theorem after_imsi : (v.after said).imsi = true ↔ v.imsi = true ∨ ∃ p, .imsi p ∈ said := by
  refine after_flag (fun v s => ?_) said v
  cases s with
  | imsi p => simp [hear]
  | teid t => simp [hear]

theorem after_fteid : (v.after said).fteid = true ↔ v.fteid = true ∨ ∃ t, .teid t ∈ said := by
  refine after_flag (fun v s => ?_) said v
  cases s with
  | imsi p => simp [hear]
  | teid t => simp [hear]

theorem after_digits : (v.after said).digits = lay (knownDigits said) v.digits := by
  refine foldl_rel (r := fun (w : View) known => w.digits = lay known v.digits) rfl ?_
  intro s _ w known h
  cases s with
  | imsi p =>
    change lay p.1 w.digits = lay (lay p.1 known) v.digits
    rw [h, lay_lay]
  | teid t => exact h

theorem after_teid : (v.after said).teid = (lastTeid said).getD v.teid := by
  refine foldl_rel (r := fun (w : View) (last : Option UInt32) => w.teid = last.getD v.teid) rfl ?_
  intro s _ w last h
  cases s with
  | imsi p => exact h
  | teid t => rfl

end View

theorem foldl_onTeid_eq_none (said : List Said) : ∀ last : Option UInt32,
    said.foldl Said.onTeid last = none ↔ last = none ∧ ∀ t, .teid t ∉ said := by
  induction said with
  | nil => simp
  | cons s said ih =>
    intro last
    rw [foldl_cons, ih]
    cases s with
    | imsi p => simp [Said.onTeid]
    | teid t =>
      exact ⟨fun h => absurd h.1 (Option.some_ne_none t), fun h => absurd mem_cons_self (h.2 t)⟩

theorem lastTeid_eq_none {said : List Said} : lastTeid said = none ↔ ¬ ∃ t, .teid t ∈ said := by
  rw [lastTeid, foldl_onTeid_eq_none, not_exists]
  exact and_iff_right rfl

/-! The digits behind the known ones. -/

theorem le_foldl_decimal (ds : List Nat) : ∀ acc : Nat,
    acc ≤ ds.foldl (fun acc d => acc * 10 + d) acc := by
  induction ds with
  | nil => exact Nat.le_refl
  | cons d ds ih =>
    intro acc
    exact le_trans (by omega) (ih (acc * 10 + d))

theorem digitsValue_le_append (p q : List UInt8) : digitsValue p ≤ digitsValue (p ++ q) := by
  rw [digitsValue, digitsValue, flatMap_append, ofDecimal, ofDecimal, foldl_append]
  exact le_foldl_decimal _ _

theorem gtpcDigitsGet_value (errnoRange : Bool) (ds : List UInt8) :
    gtpcDigitsGet errnoRange ds =
      if errnoRange ∨ digitsValue ds ≥ 2 ^ 64 then 2 ^ 64 - 1 else digitsValue ds :=
  gtpcDigitsGet_eq errnoRange ds

theorem gtpcDigitsGet_of_le {errnoRange : Bool} {ds : List UInt8}
    (h : errnoRange = true ∨ 2 ^ 64 - 1 ≤ digitsValue ds) :
    gtpcDigitsGet errnoRange ds = 2 ^ 64 - 1 := by
  rw [gtpcDigitsGet_value]
  split
  · rfl
  · rename_i hno
    obtain ⟨herrno, hlt⟩ := not_or.mp hno
    have hle := h.resolve_left herrno
    omega

/-- Digits that say nothing, and digits that say 1 at position `n`. -/
def silent : List UInt8 := replicate 8 0xff

def oneAt (n : Nat) : List UInt8 :=
  replicate n 0xff ++ 0xf1 :: replicate (7 - n) 0xff

theorem length_oneAt {n : Nat} (h : n < 8) : (oneAt n).length = 8 := by
  rw [oneAt, length_append, length_cons, length_replicate, length_replicate]
  omega

theorem flatMap_silent (n : Nat) : (replicate n (0xff : UInt8)).flatMap digitText = [] := by
  refine flatMap_eq_nil_iff.mpr fun d hd => ?_
  rw [eq_of_mem_replicate hd]
  decide

theorem digitsValue_silent (p : List UInt8) : digitsValue (lay p silent) = digitsValue p := by
  rw [digitsValue, lay, silent, drop_replicate, flatMap_append, flatMap_silent,
    append_nil, digitsValue]

theorem digitsValue_oneAt (p : List UInt8) :
    digitsValue (lay p (oneAt p.length)) = digitsValue p * 10 + 1 := by
  have hdrop : (oneAt p.length).drop p.length = 0xf1 :: replicate (7 - p.length) 0xff :=
    drop_left' length_replicate
  have hone : digitText 0xf1 = [1] := by decide
  rw [digitsValue, lay, hdrop, flatMap_append, flatMap_cons, flatMap_silent, hone,
    ofDecimal, foldl_append]
  rfl

/-- The digits at the start do not matter exactly if all are known or the number is out of
range. -/
theorem digits_alike_iff (errnoRange : Bool) (known : List UInt8) :
    (∀ ds ds' : List UInt8, ds.length = 8 → ds'.length = 8 →
      gtpcDigitsGet errnoRange (lay known ds) = gtpcDigitsGet errnoRange (lay known ds')) ↔
    errnoRange = true ∨ 8 ≤ known.length ∨ 2 ^ 64 - 1 ≤ digitsValue known := by
  constructor
  · intro halike
    by_contra hno
    obtain ⟨herrno, hno⟩ := not_or.mp hno
    obtain ⟨hlong, hbig⟩ := not_or.mp hno
    have hsame := halike silent (oneAt known.length) length_replicate
      (length_oneAt (Nat.not_le.mp hlong))
    have hsmall : ¬ (errnoRange = true ∨ digitsValue known ≥ 2 ^ 64) :=
      fun h => h.elim herrno (by omega)
    rw [gtpcDigitsGet_value, gtpcDigitsGet_value, digitsValue_silent, digitsValue_oneAt,
      if_neg hsmall] at hsame
    split at hsame <;> omega
  · rintro h ds ds' hds hds'
    by_cases hlong : 8 ≤ known.length
    · rw [lay_of_length (by omega), lay_of_length (by omega)]
    · have hbig : errnoRange = true ∨ 2 ^ 64 - 1 ≤ digitsValue known := by tauto
      have hall (ds : List UInt8) : gtpcDigitsGet errnoRange (lay known ds) = 2 ^ 64 - 1 :=
        gtpcDigitsGet_of_le (hbig.imp_right fun hb => le_trans hb (digitsValue_le_append known _))
      rw [hall, hall]

/-- The routing is the same from every start exactly if the message says enough. -/
theorem routed_alike_iff (asksTeid errnoRange : Bool) (said : List Said) :
    (∀ v v' : View, v.digits.length = 8 → v'.digits.length = 8 →
      (v.after said).routed asksTeid errnoRange = (v'.after said).routed asksTeid errnoRange) ↔
    Supplies errnoRange said := by
  -- a listener who has heard an IMSI and a TEID before
  have hfull (ds : List UInt8) (t : UInt32) :
      ((View.mk true ds true t).after said).routed asksTeid errnoRange =
        some (gtpcDigitsGet errnoRange (lay (knownDigits said) ds), (lastTeid said).getD t) := by
    have himsi := (View.after_imsi said (View.mk true ds true t)).mpr (Or.inl rfl)
    have hfteid := (View.after_fteid said (View.mk true ds true t)).mpr (Or.inl rfl)
    rw [View.routed, if_pos ⟨himsi, fun _ => hfteid⟩, View.after_digits, View.after_teid]
  constructor
  · intro halike
    refine ⟨?_, ?_, (digits_alike_iff errnoRange _).mp fun ds ds' hds hds' => ?_⟩
    · by_contra hno
      have hsame := halike ⟨false, silent, true, 0⟩ ⟨true, silent, true, 0⟩ length_replicate
        length_replicate
      have hdeaf : ¬ ((View.mk false silent true 0).after said).imsi = true := by
        rw [View.after_imsi]
        simpa using hno
      rw [hfull, View.routed, if_neg fun h => hdeaf h.1] at hsame
      exact absurd hsame (by simp)
    · by_contra hno
      have hsame := halike ⟨true, silent, true, 0⟩ ⟨true, silent, true, 1⟩ length_replicate
        length_replicate
      rw [hfull, hfull, lastTeid_eq_none.mpr hno] at hsame
      have hteids : (0 : UInt32) = 1 := congrArg Prod.snd (Option.some.inj hsame)
      exact absurd hteids (by decide)
    · have hsame := halike ⟨true, ds, true, 0⟩ ⟨true, ds', true, 0⟩ hds hds'
      rw [hfull, hfull] at hsame
      exact congrArg Prod.fst (Option.some.inj hsame)
  · rintro ⟨himsi, hteid, hdigits⟩ v v' hv hv'
    obtain ⟨t, ht⟩ := Option.ne_none_iff_exists'.mp fun h => lastTeid_eq_none.mp h hteid
    have hrouted (w : View) : (w.after said).routed asksTeid errnoRange =
        some (gtpcDigitsGet errnoRange (lay (knownDigits said) w.digits), t) := by
      have h1 := (View.after_imsi said w).mpr (Or.inr himsi)
      have h2 := (View.after_fteid said w).mpr (Or.inr hteid)
      rw [View.routed, if_pos ⟨h1, fun _ => h2⟩, View.after_digits, View.after_teid, ht]
      rfl
    rw [hrouted, hrouted, (digits_alike_iff errnoRange _).mpr hdigits v.digits v'.digits hv hv']

/-! ## 2. Version 2 -/

structure RoutingSized (cs : GtpcParseState) : Prop where
  imsi : (cs.item .imsi).length = 12
  cTeid : (cs.item .cTeid).length = 25

/-- What version 2 looks at. -/
def viewV2 (cs : GtpcParseState) : View where
  imsi := cs.flag .imsi
  digits := digitsOf (cs.item .imsi) 8
  fteid := cs.flag .fteidC
  teid := teidGrekey (cs.item .cTeid)

def viewCells : List Cell := [.flag .imsi, .item .imsi, .flag .fteidC, .item .cTeid]

theorem length_itemDigits (data : Nat → UInt8) {datalen : Nat} (h : datalen ≤ 12) :
    (((range datalen).map data).drop 4).length ≤ 8 := by
  rw [length_drop, length_map, length_range]
  omega

/-- An IMSI of at most twelve bytes says its digits, an F-TEID with an IPv4 address its TEID. -/
def saidItem (type : UInt8) (data : Nat → UInt8) (datalen : Nat) : List Said :=
  if type = gtpcTypeImsi then
    if h : datalen ≤ 12 then
      [.imsi ⟨((range datalen).map data).drop 4, length_itemDigits data h⟩]
    else []
  else if type = gtpcTypeFTeid then
    if datalen = 25 ∨ datalen = 13 then [.teid (le32 (data 5) (data 6) (data 7) (data 8))] else []
  else []

/-- The return code of an item; only a bearer context can fail. -/
def rootCode (type : UInt8) (data : Nat → UInt8) : Bool :=
  if type = gtpcTypeBearerCtx then (gtpcIterateBearerCtxItem data GtpcParseState.zero).2 else true

/-- What the items say up to the first that fails. -/
def saidItems (heap : Nat → UInt8) (packet : List UInt8) : List GtpItem → List Said
  | [] => []
  | it :: rest =>
    let data := fun i => packet.getD (it.offset + i) (heap (it.offset + i))
    saidItem it.type data it.length ++
      if rootCode it.type data then saidItems heap packet rest else []

section

variable (stack : Nat → UInt8) (type : UInt8) (data : Nat → UInt8) (datalen : Nat)
  (cs : GtpcParseState)

theorem onGtpcParseRoot_keeps {c : Cell} (hc : c ∉ cellsOf type) :
    Cell.get c (onGtpcParseRoot stack type data datalen cs).1 = Cell.get c cs := by
  unfold onGtpcParseRoot
  cases hslot : rootSlot type with
  | none =>
    dsimp only
    split
    · rename_i htype
      have hflag : Cell.flag .bctx ∈ cellsOf gtpcTypeBearerCtx := rfl
      have hwalk := (bearerCtxLoop_confined data (be16 (data 1) (data 2)) gtpcCapabilityItemCount
        0).comp (setFlag_confined hflag)
      exact hwalk.keeps cs c (htype ▸ hc)
    · rfl
  | some s =>
    have howner := rootSlot_owner hslot
    have hstore : Cell.get c (cs.store s data datalen) = Cell.get c cs :=
      (store_confined s data datalen).keeps cs c (howner.symm ▸ hc)
    by_cases hpco : s = .pco
    · subst hpco
      have hrequest : c ∉ requestCells := fun h => hc (howner ▸ requestCells_subset h)
      have hwalk := onPco_keeps stack (cs.store .pco data datalen) hrequest
      by_cases hfits : Slot.pco.fits datalen = true
      · simp only [hfits, if_true]
        exact hwalk.trans hstore
      · simp only [hfits, Bool.false_eq_true, if_false]
    · cases s <;> first | exact absurd rfl hpco | exact hstore

theorem bearerCtxLoop_code (len : Nat) : ∀ (n cur : Nat) (cs cs' : GtpcParseState),
    (bearerCtxLoop data len n cur cs).2 = (bearerCtxLoop data len n cur cs').2
  | 0, _, _, _ => rfl
  | n + 1, cur, cs, cs' => by
    unfold bearerCtxLoop
    dsimp only
    split
    · split
      · rfl
      · split
        · rfl
        · exact bearerCtxLoop_code len n _ _ _
    · rfl

theorem onGtpcParseRoot_code :
    (onGtpcParseRoot stack type data datalen cs).2 = rootCode type data := by
  unfold onGtpcParseRoot
  cases hslot : rootSlot type with
  | none =>
    dsimp only
    rw [rootCode]
    split
    · exact bearerCtxLoop_code data _ _ _ _ _
    · rfl
  | some s =>
    have hbearer : rootSlot gtpcTypeBearerCtx = none := by decide
    have hne : type ≠ gtpcTypeBearerCtx := by
      rintro rfl
      exact absurd (hbearer.symm.trans hslot) (by simp)
    have hcode : rootCode type data = true := if_neg hne
    rw [hcode]
    by_cases hpco : s = .pco
    · subst hpco
      dsimp only
      split <;> rfl
    · cases s <;> first | exact absurd rfl hpco | rfl

theorem digitsOf_splice {image d : List UInt8} (himage : image.length = 12) (hd : d.length ≤ 12) :
    digitsOf (splice image 0 d) 8 = lay (d.drop 4) (digitsOf image 8) := by
  have hrest : d.length + (4 - d.length) = 4 + (d.length - 4) := by omega
  have hfull (l : List UInt8) (hl : l.length = 12) : digitsOf l 8 = l.drop 4 := by
    rw [digitsOf, slice, take_of_length_le]
    rw [length_drop]
    omega
  have hsplice : splice image 0 d = d ++ image.drop d.length := by
    rw [splice, take_zero, nil_append, Nat.zero_add]
  rw [hfull _ himage, hfull _ (by rw [length_splice (by omega), himage]), hsplice, lay,
    drop_append, drop_drop, drop_drop, length_drop, hrest]

theorem viewV2_congr {cs cs' : GtpcParseState}
    (h : ∀ c ∈ viewCells, Cell.get c cs' = Cell.get c cs) (hsized : RoutingSized cs) :
    viewV2 cs' = viewV2 cs ∧ RoutingSized cs' := by
  have h1 : cs'.flag .imsi = cs.flag .imsi := h (.flag .imsi) (by simp [viewCells])
  have h2 : cs'.item .imsi = cs.item .imsi := h (.item .imsi) (by simp [viewCells])
  have h3 : cs'.flag .fteidC = cs.flag .fteidC := h (.flag .fteidC) (by simp [viewCells])
  have h4 : cs'.item .cTeid = cs.item .cTeid := h (.item .cTeid) (by simp [viewCells])
  refine ⟨?_, h2 ▸ hsized.imsi, h4 ▸ hsized.cTeid⟩
  rw [viewV2, h1, h2, h3, h4, viewV2]

variable {s : Slot}

theorem store_of_fits (hfits : s.fits datalen = true) :
    cs.store s data datalen =
      { cs with
        flag := setFlag cs.flag s.have
        item := fun t => if t = s then overwrite (cs.item s) data datalen else cs.item t } :=
  if_pos hfits

theorem store_of_not_fits (hfits : ¬ s.fits datalen = true) :
    cs.store s data datalen = cs := if_neg hfits

theorem length_overwrite {image : List UInt8} (h : datalen ≤ image.length) :
    (overwrite image data datalen).length = image.length := by
  refine length_splice ?_
  rwa [Nat.zero_add, length_map, length_range]

theorem store_imsi_view (hsized : RoutingSized cs) :
    viewV2 (cs.store .imsi data datalen) =
        (viewV2 cs).after (saidItem gtpcTypeImsi data datalen) ∧
      RoutingSized (cs.store .imsi data datalen) := by
  have hslot : Slot.imsi.fits datalen = true ↔ datalen ≤ 12 := decide_eq_true_iff
  rw [saidItem, if_pos rfl]
  by_cases hfits : datalen ≤ 12
  · have hcopy : ((range datalen).map data).length ≤ 12 := by
      rwa [length_map, length_range]
    have hdigits := digitsOf_splice hsized.imsi hcopy
    rw [dif_pos hfits, store_of_fits data datalen cs (hslot.mpr hfits)]
    refine ⟨?_, ?_, hsized.cTeid⟩
    · exact congrArg (View.mk true · (cs.flag .fteidC) (teidGrekey (cs.item .cTeid))) hdigits
    · exact (length_overwrite data datalen (hsized.imsi.symm ▸ hfits)).trans hsized.imsi
  · rw [dif_neg hfits, store_of_not_fits data datalen cs fun h => hfits (hslot.mp h)]
    exact ⟨rfl, hsized⟩

theorem store_cTeid_view (hsized : RoutingSized cs) :
    viewV2 (cs.store .cTeid data datalen) =
        (viewV2 cs).after (saidItem gtpcTypeFTeid data datalen) ∧
      RoutingSized (cs.store .cTeid data datalen) := by
  have hslot : Slot.cTeid.fits datalen = true ↔ datalen = 25 ∨ datalen = 13 :=
    (Bool.or_eq_true _ _).to_iff.trans (or_congr decide_eq_true_iff decide_eq_true_iff)
  rw [saidItem, if_neg (by decide), if_pos rfl]
  by_cases hfits : datalen = 25 ∨ datalen = 13
  · have hteid : teidGrekey (overwrite (cs.item .cTeid) data datalen) =
        le32 (data 5) (data 6) (data 7) (data 8) := by
      rw [teidGrekey, load32, getD_overwrite _ _ (by omega), getD_overwrite _ _ (by omega),
        getD_overwrite _ _ (by omega), getD_overwrite _ _ (by omega)]
    rw [if_pos hfits, store_of_fits data datalen cs (hslot.mpr hfits)]
    refine ⟨?_, hsized.imsi, ?_⟩
    · exact congrArg (View.mk (cs.flag .imsi) (digitsOf (cs.item .imsi) 8) true) hteid
    · refine (length_overwrite data datalen ?_).trans hsized.cTeid
      rw [hsized.cTeid]
      omega
  · rw [if_neg hfits, store_of_not_fits data datalen cs fun h => hfits (hslot.mp h)]
    exact ⟨rfl, hsized⟩

theorem onGtpcParseRoot_view (hsized : RoutingSized cs) :
    viewV2 (onGtpcParseRoot stack type data datalen cs).1 =
        (viewV2 cs).after (saidItem type data datalen) ∧
      RoutingSized (onGtpcParseRoot stack type data datalen cs).1 := by
  by_cases himsi : type = gtpcTypeImsi
  · subst himsi
    exact store_imsi_view data datalen cs hsized
  · by_cases hfteid : type = gtpcTypeFTeid
    · subst hfteid
      exact store_cTeid_view data datalen cs hsized
    · have hkeep : ∀ c ∈ viewCells,
          Cell.get c (onGtpcParseRoot stack type data datalen cs).1 = Cell.get c cs := by
        intro c hc
        refine onGtpcParseRoot_keeps stack type data datalen cs fun hown => ?_
        have howner : c.owner = some gtpcTypeImsi ∨ c.owner = some gtpcTypeFTeid := by
          simp only [viewCells, mem_cons, not_mem_nil, or_false] at hc
          rcases hc with rfl | rfl | rfl | rfl
          · exact Or.inl rfl
          · exact Or.inl rfl
          · exact Or.inr rfl
          · exact Or.inr rfl
        rcases howner with h | h
        · exact himsi (Option.some.inj (Eq.trans (Eq.symm hown) h))
        · exact hfteid (Option.some.inj (Eq.trans (Eq.symm hown) h))
      rw [saidItem, if_neg himsi, if_neg hfteid]
      exact viewV2_congr hkeep hsized

end

/-- Behind the walk of version 2 the view has heard what the items say. -/
theorem iterateItems_view (mem : ItemMemory) (packet : List UInt8) :
    ∀ (items : List GtpItem) {cs : GtpcParseState}, RoutingSized cs →
      viewV2 (iterateItems mem packet items cs) =
        (viewV2 cs).after (saidItems mem.heap packet items)
  | [], _, _ => rfl
  | it :: rest, cs, hsized => by
    unfold iterateItems saidItems
    dsimp only
    generalize (fun i => packet.getD (it.offset + i) (mem.heap (it.offset + i))) = data
    obtain ⟨hview, hsized'⟩ := onGtpcParseRoot_view mem.stack it.type data it.length cs hsized
    have hcode := onGtpcParseRoot_code mem.stack it.type data it.length cs
    generalize onGtpcParseRoot mem.stack it.type data it.length cs = result at hview hsized' hcode
    obtain ⟨cs', ok⟩ := result
    dsimp only at hview hsized' hcode
    rw [← hcode]
    cases ok with
    | true =>
      rw [if_pos rfl, View.after_append, ← hview]
      exact iterateItems_view mem packet rest hsized'
    | false =>
      rw [if_neg (by decide), append_nil]
      exact hview

/-! ## 3. Version 1 -/

def viewV1 (cs : GtpcParseState) : View where
  imsi := cs.flagV1 .v1Imsi
  digits := digitsOf (cs.item .imsi) 8
  fteid := cs.flagV1 .v1TeidCtrl
  teid := teidGrekey (cs.item .cTeid)

def saidElement (type : UInt8) (data : Nat → UInt8) : List Said :=
  if type = gtpcV1IeImsi then [.imsi ⟨ieBytes data 1 8, (length_ieBytes data 1 8).le⟩]
  else if type = gtpcV1IeTeidCtrlPlane then [.teid (le32 (data 1) (data 2) (data 3) (data 4))]
  else []

def saidAt (payload : Source) (datalen offset : Nat) : List Said :=
  if offset < datalen then
    saidElement (payload.byte offset) fun i => payload.byte (offset + i)
  else []

/-- One turn of the element loop, as far as the message decides it; `false` is `ERR`. -/
def offsetStep (payload : Source) (datalen offset : Nat) : Bool ⊕ Nat :=
  if offset < datalen then
    match elementExtlen payload offset with
    | none => .inl false
    | some extlen => .inr ((offset + extlen) % 65536)
  else .inl true

theorem teidGrekey_splice {image : List UInt8} (himage : image.length = 25) (data : Nat → UInt8) :
    teidGrekey (splice image 5 (ieBytes data 1 4)) =
      le32 (data 1) (data 2) (data 3) (data 4) := by
  have hroom : 5 + (ieBytes data 1 4).length ≤ image.length := by
    rw [length_ieBytes, himage]
    decide
  have hbyte (j : Nat) (hj : j < 4) :
      (splice image 5 (ieBytes data 1 4)).getD (5 + j) 0 = data (1 + j) := by
    rw [getD_splice_mid hroom (by rwa [length_ieBytes]), getD_ieBytes data hj]
  have h0 := hbyte 0 (by decide)
  rw [teidGrekey, load32, h0, hbyte 1 (by decide), hbyte 2 (by decide), hbyte 3 (by decide)]

variable {image d : List UInt8}

theorem teidGrekey_address (himage : image.length = 25)
    (hd : d.length = 4) : teidGrekey (splice image 9 d) = teidGrekey image := by
  have hroom : 9 + d.length ≤ image.length := by omega
  rw [teidGrekey, load32, getD_splice_of_lt hroom (by decide), getD_splice_of_lt hroom (by decide),
    getD_splice_of_lt hroom (by decide), getD_splice_of_lt hroom (by decide)]
  rfl

theorem digitsOf_splice_all (himage : image.length = 12)
    (hd : d.length = 8) : digitsOf (splice image 4 d) 8 = lay d (digitsOf image 8) := by
  have hslice := @slice_splice image d 4 (by omega)
  rw [hd] at hslice
  rw [digitsOf, hslice, lay_of_length]
  rw [digitsOf, length_slice (by omega), hd]

section

variable {payload : Source} {datalen offset : Nat}

variable {type : UInt8}

theorem saidElement_other {data : Nat → UInt8} (himsi : type ≠ gtpcV1IeImsi)
    (hteid : type ≠ gtpcV1IeTeidCtrlPlane) : saidElement type data = [] := by
  rw [saidElement, if_neg himsi, if_neg hteid]

variable {rule : CopyRule}

theorem RoutingSized.copied {cs cs₀ : GtpcParseState}
    (h : RoutingSized cs) (hrule : copyRule cs₀ type = some rule) (data : Nat → UInt8) :
    RoutingSized (((cs.haveV1 .v1).haveV1 rule.flag).patch rule.slot rule.target
      (ieBytes data rule.source rule.count)) := by
  have hin (t : Slot) (hlen : (cs.item t).length = t.size) (hslot : t = rule.slot) :
      rule.target + (ieBytes data rule.source rule.count).length ≤ (cs.item t).length := by
    rw [length_ieBytes, hlen, hslot]
    exact copyRule_inside hrule
  exact ⟨(length_patch _ (hin .imsi h.imsi)).trans h.imsi,
    (length_patch _ (hin .cTeid h.cTeid)).trans h.cTeid⟩

variable {cs : GtpcParseState}

/-- What a copy says. Of the three rules that write into the two images one, the control-plane
address, writes behind the TEID. -/
theorem copied_view (hsized : RoutingSized cs)
    (hrule : copyRule cs type = some rule) (data : Nat → UInt8) :
    viewV1 (((cs.haveV1 .v1).haveV1 rule.flag).patch rule.slot rule.target
        (ieBytes data rule.source rule.count)) =
      (viewV1 cs).after (saidElement type data) := by
  unfold copyRule at hrule
  split_ifs at hrule with hctrl hdata hi hmsisdn hgsn hseen
  · obtain rfl := Option.some.inj hrule
    have hsaid : saidElement type data =
        [.teid (le32 (data 1) (data 2) (data 3) (data 4))] := by
      rw [hctrl]
      rfl
    rw [hsaid]
    exact congrArg (View.mk (cs.flagV1 .v1Imsi) (digitsOf (cs.item .imsi) 8) true)
      (teidGrekey_splice hsized.cTeid data)
  · obtain rfl := Option.some.inj hrule
    rw [saidElement_other (by rw [hdata]; decide) hctrl]
    rfl
  · obtain rfl := Option.some.inj hrule
    have hsaid : saidElement type data =
        [.imsi ⟨ieBytes data 1 8, (length_ieBytes data 1 8).le⟩] := by
      rw [saidElement, if_pos hi]
    rw [hsaid]
    exact congrArg (View.mk true · (cs.flagV1 .v1TeidCtrl) (teidGrekey (cs.item .cTeid)))
      (digitsOf_splice_all hsized.imsi (length_ieBytes data 1 8))
  · obtain rfl := Option.some.inj hrule
    rw [saidElement_other hi hctrl]
    rfl
  · obtain rfl := Option.some.inj hrule
    rw [saidElement_other hi hctrl]
    rfl
  · obtain rfl := Option.some.inj hrule
    rw [saidElement_other hi hctrl]
    exact congrArg
      (View.mk (cs.flagV1 .v1Imsi) (digitsOf (cs.item .imsi) 8) (cs.flagV1 .v1TeidCtrl))
      (teidGrekey_address hsized.cTeid (length_ieBytes data 3 4))

theorem onGtpcv1ParseRoot_view (stack : Nat → UInt8) (type : UInt8) (data : Nat → UInt8)
    {ielen : Nat} (hsized : RoutingSized cs) (hlen : ielen ≠ 0)
    (himsi : type = gtpcV1IeImsi → ielen = 8) (hteid : type = gtpcV1IeTeidCtrlPlane → ielen = 4) :
    viewV1 (onGtpcv1ParseRoot stack type data ielen cs).1 =
        (viewV1 cs).after (saidElement type data) ∧
      RoutingSized (onGtpcv1ParseRoot stack type data ielen cs).1 := by
  rcases onGtpcv1ParseRoot_copies stack type data cs hlen with
    ⟨rule, hrule, -, hroot⟩ | ⟨hnone, hsame⟩
  · rw [hroot]
    exact ⟨copied_view hsized hrule data, hsized.copied hrule data⟩
  · have hi : type ≠ gtpcV1IeImsi := by
      rintro rfl
      exact hnone _ rfl (himsi rfl)
    have ht : type ≠ gtpcV1IeTeidCtrlPlane := by
      rintro rfl
      exact hnone _ rfl (hteid rfl)
    have h1 := hsame.flag .v1Imsi (by decide)
    have h2 := hsame.item .imsi (by decide)
    have h3 := hsame.flag .v1TeidCtrl (by decide)
    have h4 := hsame.item .cTeid (by decide)
    rw [saidElement_other hi ht]
    refine ⟨?_, h2 ▸ hsized.imsi, h4 ▸ hsized.cTeid⟩
    rw [viewV1, h1, h2, h3, h4]
    rfl

variable {stack : Nat → UInt8}

theorem elementNext_view {cs cs' : GtpcParseState} {next : Nat} (hlt : offset < datalen)
    (hsized : RoutingSized cs) (h : elementNext stack payload offset cs = some (next, cs')) :
    viewV1 cs' = (viewV1 cs).after (saidAt payload datalen offset) ∧ RoutingSized cs' := by
  rw [saidAt, if_pos hlt]
  unfold elementNext at h
  dsimp only at h
  cases hlen : msgsGtpcV1Len (payload.byte offset) with
  | none =>
    rw [hlen] at h
    exact absurd h (by simp)
  | some len =>
    rw [hlen] at h
    dsimp only at h
    have hfixed (t : UInt8) (n : Nat) (ht : msgsGtpcV1Len t = some (n + 1))
        (htype : payload.byte offset = t) :
        (if len = 0 then elementLength payload offset else len - 1) = n := by
      obtain rfl := Option.some.inj (hlen.symm.trans (htype.symm ▸ ht))
      rw [if_neg (Nat.succ_ne_zero n), Nat.add_sub_cancel]
    by_cases hparser : msgsGtpcV1Parser (payload.byte offset) = true
    · rw [if_pos hparser] at h
      have hok := onGtpcv1ParseRoot_ok stack (fun i => payload.byte (offset + i))
        (if len = 0 then elementLength payload offset else len - 1) cs hparser
      have hview (hne : (if len = 0 then elementLength payload offset else len - 1) ≠ 0) :=
        onGtpcv1ParseRoot_view stack (payload.byte offset) (fun i => payload.byte (offset + i))
          hsized hne (hfixed gtpcV1IeImsi 8 (by decide))
          (hfixed gtpcV1IeTeidCtrlPlane 4 (by decide))
      generalize onGtpcv1ParseRoot stack (payload.byte offset) _ _ cs = result at h hok hview
      obtain ⟨cs1, ok⟩ := result
      dsimp only at hok hview
      cases ok with
      | false => exact absurd h (by simp)
      | true =>
        obtain rfl : cs1 = cs' := (Prod.mk.inj (Option.some.inj h)).2
        exact hview (of_decide_eq_true hok.symm)
    · rw [if_neg hparser] at h
      obtain rfl : cs = cs' := (Prod.mk.inj (Option.some.inj h)).2
      have himsi : payload.byte offset ≠ gtpcV1IeImsi := fun htype => hparser (htype ▸ rfl)
      have hteid : payload.byte offset ≠ gtpcV1IeTeidCtrlPlane := fun htype =>
        hparser (htype ▸ rfl)
      rw [saidElement_other himsi hteid]
      exact ⟨rfl, hsized⟩

theorem ieStep_offsetStep (stack : Nat → UInt8) (cs : GtpcParseState) :
    (ieStep stack payload datalen (offset, cs) = .inl none ∧
      offsetStep payload datalen offset = .inl false) ∨
    (ieStep stack payload datalen (offset, cs) = .inl (some cs) ∧
      offsetStep payload datalen offset = .inl true ∧ saidAt payload datalen offset = []) ∨
    ∃ next cs', ieStep stack payload datalen (offset, cs) = .inr (next, cs') ∧
      offsetStep payload datalen offset = .inr next ∧
      (RoutingSized cs →
        viewV1 cs' = (viewV1 cs).after (saidAt payload datalen offset) ∧ RoutingSized cs') := by
  by_cases hlt : offset < datalen
  · have hmap := elementNext_offset stack payload offset cs
    cases hextlen : elementExtlen payload offset with
    | none =>
      rw [hextlen, Option.map_none] at hmap
      refine Or.inl ⟨?_, ?_⟩
      · rw [ieStep, if_pos hlt, Option.map_eq_none_iff.mp hmap]
      · rw [offsetStep, if_pos hlt, hextlen]
    | some extlen =>
      obtain ⟨cs', hnext⟩ := elementNext_of_extlen stack cs hextlen
      refine Or.inr (Or.inr ⟨_, cs', ieStep_eq_inr.mpr ⟨hlt, hnext⟩, ?_, fun hsized => ?_⟩)
      · rw [offsetStep, if_pos hlt, hextlen]
      · exact elementNext_view hlt hsized hnext
  · refine Or.inr (Or.inl ⟨?_, ?_, ?_⟩)
    · rw [ieStep, if_neg hlt]
    · rw [offsetStep, if_neg hlt]
    · rw [saidAt, if_neg hlt]

/-- The same for the elements of version 1, turn by turn. -/
theorem run_view (stack : Nat → UInt8) {offsets : List Nat} {ok : Bool}
    (h : Loop.Run (offsetStep payload datalen) offset offsets ok) :
    ∀ {cs : GtpcParseState}, RoutingSized cs → ∃ states result,
      Loop.Run (ieStep stack payload datalen) (offset, cs) states result ∧ result.isSome = ok ∧
      ∀ cs', result = some cs' →
        viewV1 cs' = (viewV1 cs).after ((offset :: offsets).flatMap (saidAt payload datalen)) := by
  induction h with
  | @exit offset ok hexit =>
    intro cs hsized
    rcases ieStep_offsetStep stack cs with
      ⟨hie, hoff⟩ | ⟨hie, hoff, hsaid⟩ | ⟨_, _, _, hoff, _⟩
    · obtain rfl := Sum.inl.inj (hexit.symm.trans hoff)
      exact ⟨[], none, .exit hie, rfl, fun _ h => absurd h (by simp)⟩
    · obtain rfl := Sum.inl.inj (hexit.symm.trans hoff)
      refine ⟨[], some cs, .exit hie, rfl, fun cs' h => ?_⟩
      obtain rfl := Option.some.inj h
      rw [flatMap_singleton, hsaid]
      rfl
    · exact absurd (hexit.symm.trans hoff) (by simp)
  | @next offset next offsets ok hnext _ ih =>
    intro cs hsized
    rcases ieStep_offsetStep stack cs with
      ⟨_, hoff⟩ | ⟨_, hoff, _⟩ | ⟨next', cs1, hie, hoff, hview⟩
    · exact absurd (hnext.symm.trans hoff) (by simp)
    · exact absurd (hnext.symm.trans hoff) (by simp)
    · obtain rfl := Sum.inr.inj (hnext.symm.trans hoff)
      obtain ⟨hheard, hsized1⟩ := hview hsized
      obtain ⟨states, result, hrun, hok, hfinal⟩ := ih hsized1
      refine ⟨_, result, .next hie hrun, hok, fun cs' h => ?_⟩
      rw [flatMap_cons, View.after_append, ← hheard]
      exact hfinal cs' h

theorem offsets_of_run {s : Nat × GtpcParseState} {states : List (Nat × GtpcParseState)}
    {result : Option GtpcParseState} (h : Loop.Run (ieStep stack payload datalen) s states result) :
    Loop.Run (offsetStep payload datalen) s.1 (states.map Prod.fst) result.isSome := by
  induction h with
  | @exit s result hexit =>
    rcases ieStep_offsetStep stack s.2 with
      ⟨hie, hoff⟩ | ⟨hie, hoff, _⟩ | ⟨_, _, hie, _, _⟩
    · obtain rfl := Sum.inl.inj (hexit.symm.trans hie)
      exact .exit hoff
    · obtain rfl := Sum.inl.inj (hexit.symm.trans hie)
      exact .exit hoff
    · exact absurd (hexit.symm.trans hie) (by simp)
  | @next s s' states result hnext _ ih =>
    rcases ieStep_offsetStep stack s.2 with
      ⟨hie, _⟩ | ⟨hie, _, _⟩ | ⟨next, cs1, hie, hoff, _⟩
    · exact absurd (hnext.symm.trans hie) (by simp)
    · exact absurd (hnext.symm.trans hie) (by simp)
    · obtain rfl := Sum.inr.inj (hnext.symm.trans hie)
      exact .next hoff ih

end

/-! ## 4. Two calls -/

abbrev Contents := { cs : GtpcParseState // ∀ s, (cs.item s).length = s.size }

theorem Contents.sized (cs : Contents) : RoutingSized cs.1 := ⟨cs.2 .imsi, cs.2 .cTeid⟩

/-- **`_ParseImsi` returns**: `none` is `ERR`; with `OK` an IMSI and the TEID of the SGW. -/
def Returns (mem : ItemMemory) (errnoRange : Bool) (rbuf : Source) (rlen : Nat)
    (cs : GtpcParseState) (r : Option (Nat × UInt32)) : Prop :=
  ∃ fuel result, parseImsi fuel mem errnoRange rbuf rlen cs = some result ∧
    r = result.map fun p => (p.1, teidGrekey (p.2.item .cTeid))

/-- Two calls return the same whatever the stack held, in the parse state and behind it. -/
def RoutedAlike (heap : Nat → UInt8) (errnoRange : Bool) (rlen : Nat) (rbuf rbuf' : Source) :
    Prop :=
  ∀ (stack stack' : Nat → UInt8) (cs cs' : Contents) (r : Option (Nat × UInt32)),
    Returns ⟨heap, stack⟩ errnoRange rbuf rlen cs.1 r ↔
      Returns ⟨heap, stack'⟩ errnoRange rbuf' rlen cs'.1 r

/-- **The message says enough**, of either version, as far as the walk gets. -/
def Supplied (heap : Nat → UInt8) (errnoRange : Bool) (rlen : Nat) (rbuf : Source) : Prop :=
  if flagsVersion (rbuf.byte 0) = 2 then
    ∀ pkt, (gtpcAllocPacketFromPayload rbuf rlen).val = some pkt →
      Supplies errnoRange (saidItems heap pkt.packet pkt.items)
  else
    ∀ start offsets, ExtensionsEnd rbuf rlen start →
      Loop.Run (offsetStep rbuf rlen) start offsets true →
      Supplies errnoRange ((start :: offsets).flatMap (saidAt rbuf rlen))

theorem length_digits (cs : Contents) : (digitsOf (cs.1.item .imsi) 8).length = 8 :=
  length_slice (cs.sized.imsi.symm ▸ by decide)

def stateOf (v : View) : GtpcParseState :=
  { GtpcParseState.zero with
    flag := fun h => if h = .imsi then v.imsi else v.fteid
    flagV1 := fun h => if h = .v1Imsi then v.imsi else v.fteid
    item := fun s =>
      if s = .imsi then replicate 4 0 ++ v.digits
      else if s = .cTeid then replicate 5 0 ++ (bytesOf v.teid ++ replicate 16 0)
      else replicate s.size 0 }

theorem length_stateOf {v : View} (h : v.digits.length = 8) (s : Slot) :
    ((stateOf v).item s).length = s.size := by
  by_cases himsi : s = .imsi
  · subst himsi
    change (replicate 4 0 ++ v.digits).length = 12
    rw [length_append, length_replicate, h]
  · by_cases hteid : s = .cTeid
    · subst hteid
      rfl
    · have hitem : (stateOf v).item s = replicate s.size 0 := by
        change (if s = .imsi then _ else if s = .cTeid then _ else replicate s.size 0) = _
        rw [if_neg himsi, if_neg hteid]
      rw [hitem, length_replicate]

/-- Every view is one of a parse state that has its sizes. -/
theorem exists_contents (v : View) (h : v.digits.length = 8) :
    ∃ cs : Contents, viewV2 cs.1 = v ∧ viewV1 cs.1 = v := by
  have hdigits : digitsOf ((stateOf v).item .imsi) 8 = v.digits := by
    change slice (replicate 4 0 ++ v.digits) 4 8 = v.digits
    rw [slice, drop_left' length_replicate, take_of_length_le h.le]
  have hteid : teidGrekey ((stateOf v).item .cTeid) = v.teid := le32_byteOf v.teid
  refine ⟨⟨stateOf v, length_stateOf h⟩, ?_, ?_⟩
  · change View.mk v.imsi (digitsOf ((stateOf v).item .imsi) 8) v.fteid
      (teidGrekey ((stateOf v).item .cTeid)) = v
    rw [hdigits, hteid]
  · change View.mk v.imsi (digitsOf ((stateOf v).item .imsi) 8) v.fteid
      (teidGrekey ((stateOf v).item .cTeid)) = v
    rw [hdigits, hteid]

section

variable {heap stack : Nat → UInt8} {errnoRange : Bool} {rlen : Nat} {rbuf : Source}

variable {cs : GtpcParseState}

theorem returns_v2_iff (hversion : flagsVersion (rbuf.byte 0) = 2)
    (hsized : RoutingSized cs) {r : Option (Nat × UInt32)} :
    Returns ⟨heap, stack⟩ errnoRange rbuf rlen cs r ↔
      r = (gtpcAllocPacketFromPayload rbuf rlen).val.bind fun pkt =>
        ((viewV2 cs).after (saidItems heap pkt.packet pkt.items)).routed true errnoRange := by
  unfold Returns parseImsi
  simp only [if_pos hversion]
  cases (gtpcAllocPacketFromPayload rbuf rlen).val with
  | none => simp
  | some pkt =>
    have hview := iterateItems_view ⟨heap, stack⟩ pkt.packet pkt.items hsized
    change viewV2 (gtpcIterateItem ⟨heap, stack⟩ pkt cs) = _ at hview
    dsimp only [Option.bind_some]
    rw [← hview]
    generalize gtpcIterateItem ⟨heap, stack⟩ pkt cs = cs'
    by_cases himsi : cs'.flag .imsi = true
    · by_cases hfteid : cs'.flag .fteidC = true <;> simp [View.routed, viewV2, himsi, hfteid]
    · simp [View.routed, viewV2, himsi]

/-- The end of `_ParseImsi` of version 1, behind a walk without error. -/
def finishV1 (errnoRange : Bool) (cs : GtpcParseState) : Option (Nat × GtpcParseState) :=
  if ¬ cs.flagV1 .v1Imsi then none
  else some (gtpcDigitsGet errnoRange (digitsOf (cs.item .imsi) 8), cs)

theorem parseImsi_v1 (hversion : flagsVersion (rbuf.byte 0) ≠ 2) (fuel : Nat)
    (cs : GtpcParseState) :
    parseImsi fuel ⟨heap, stack⟩ errnoRange rbuf rlen cs =
      (loopsV1 fuel stack rbuf rlen cs).map fun result => result.bind (finishV1 errnoRange) := by
  unfold parseImsi
  simp only [if_neg hversion]
  generalize loopsV1 fuel stack rbuf rlen cs = walked
  rcases walked with _ | _ | cs'
  · rfl
  · rfl
  · dsimp only [Option.map_some, Option.bind_some]
    unfold finishV1
    split <;> rfl

theorem finishV1_routed (cs : GtpcParseState) :
    (finishV1 errnoRange cs).map (fun p => (p.1, teidGrekey (p.2.item .cTeid))) =
      (viewV1 cs).routed false errnoRange := by
  by_cases himsi : cs.flagV1 .v1Imsi = true <;> simp [finishV1, View.routed, viewV1, himsi]

theorem returns_of_run (hversion : flagsVersion (rbuf.byte 0) ≠ 2) (r : Option (Nat × UInt32)) :
    Returns ⟨heap, stack⟩ errnoRange rbuf rlen cs r ↔
      ∃ start states result, ExtensionsEnd rbuf rlen start ∧
        Loop.Run (ieStep stack rbuf rlen) (start, cs) states result ∧
        r = result.bind fun cs' => (viewV1 cs').routed false errnoRange := by
  have hrouted (result : Option GtpcParseState) :
      (result.bind (finishV1 errnoRange)).map (fun p => (p.1, teidGrekey (p.2.item .cTeid))) =
        result.bind fun cs' => (viewV1 cs').routed false errnoRange := by
    cases result with
    | none => rfl
    | some cs' => exact finishV1_routed cs'
  unfold Returns
  simp only [parseImsi_v1 hversion]
  constructor
  · rintro ⟨fuel, result, hparse, hr⟩
    obtain ⟨walked, hwalked, rfl⟩ := Option.map_eq_some_iff.mp hparse
    obtain ⟨start, states, hext, hrun⟩ := run_of_loopsV1 hwalked
    exact ⟨start, states, walked, hext, hrun, hr.trans (hrouted walked)⟩
  · rintro ⟨start, states, walked, hext, hrun, hr⟩
    obtain ⟨fuel, hfuel⟩ := loopsV1_of_run hext hrun
    exact ⟨fuel, _, by rw [hfuel]; rfl, hr.trans (hrouted walked).symm⟩

theorem returns_v1_iff (hversion : flagsVersion (rbuf.byte 0) ≠ 2)
    (hsized : RoutingSized cs) (r : Option (Nat × UInt32)) :
    Returns ⟨heap, stack⟩ errnoRange rbuf rlen cs r ↔
      ∃ start offsets ok, ExtensionsEnd rbuf rlen start ∧
        Loop.Run (offsetStep rbuf rlen) start offsets ok ∧
        r = if ok then ((viewV1 cs).after
          ((start :: offsets).flatMap (saidAt rbuf rlen))).routed false errnoRange else none := by
  have hsame {start : Nat} {offsets : List Nat} {result : Option GtpcParseState}
      (hview : ∀ cs', result = some cs' → viewV1 cs' = (viewV1 cs).after
        ((start :: offsets).flatMap (saidAt rbuf rlen))) :
      (result.bind fun cs' => (viewV1 cs').routed false errnoRange) =
        if result.isSome then ((viewV1 cs).after
          ((start :: offsets).flatMap (saidAt rbuf rlen))).routed false errnoRange else none := by
    cases result with
    | none => rfl
    | some cs' => exact congrArg (View.routed false errnoRange) (hview cs' rfl)
  rw [returns_of_run hversion]
  constructor
  · rintro ⟨start, states, result, hext, hrun, hr⟩
    have hoffsets := offsets_of_run hrun
    obtain ⟨states', result', hrun', hok, hview⟩ := run_view stack hoffsets hsized
    obtain ⟨-, rfl⟩ := hrun.unique hrun'
    exact ⟨start, _, _, hext, hoffsets, hr.trans (hsame hview)⟩
  · rintro ⟨start, offsets, ok, hext, hoffsets, hr⟩
    obtain ⟨states, result, hrun, rfl, hview⟩ := run_view stack hoffsets hsized
    exact ⟨start, states, result, hext, hrun, hr.trans (hsame hview).symm⟩

theorem routedAlike_v2_iff (hversion : flagsVersion (rbuf.byte 0) = 2) :
    RoutedAlike heap errnoRange rlen rbuf rbuf ↔
      ∀ pkt, (gtpcAllocPacketFromPayload rbuf rlen).val = some pkt →
        Supplies errnoRange (saidItems heap pkt.packet pkt.items) := by
  constructor
  · intro halike pkt hpkt
    refine (routed_alike_iff true errnoRange _).mp fun v v' hv hv' => ?_
    obtain ⟨cs, hcs, -⟩ := exists_contents v hv
    obtain ⟨cs', hcs', -⟩ := exists_contents v' hv'
    have hsame := halike (fun _ => 0) (fun _ => 0) cs cs'
    simp only [returns_v2_iff hversion cs.sized, returns_v2_iff hversion cs'.sized, hpkt,
      Option.bind_some, hcs, hcs'] at hsame
    exact (hsame _).mp rfl
  · intro hsupplies stack stack' cs cs' r
    rw [returns_v2_iff hversion cs.sized, returns_v2_iff hversion cs'.sized]
    cases hpkt : (gtpcAllocPacketFromPayload rbuf rlen).val with
    | none => rfl
    | some pkt =>
      have hrouted := (routed_alike_iff true errnoRange _).mpr (hsupplies pkt hpkt) (viewV2 cs.1)
        (viewV2 cs'.1) (length_digits cs) (length_digits cs')
      rw [Option.bind_some, Option.bind_some, hrouted]

theorem routedAlike_v1_iff (hversion : flagsVersion (rbuf.byte 0) ≠ 2) :
    RoutedAlike heap errnoRange rlen rbuf rbuf ↔
      ∀ start offsets, ExtensionsEnd rbuf rlen start →
        Loop.Run (offsetStep rbuf rlen) start offsets true →
        Supplies errnoRange ((start :: offsets).flatMap (saidAt rbuf rlen)) := by
  constructor
  · intro halike start offsets hext hrun
    refine (routed_alike_iff false errnoRange _).mp fun v v' hv hv' => ?_
    obtain ⟨cs, -, rfl⟩ := exists_contents v hv
    obtain ⟨cs', -, rfl⟩ := exists_contents v' hv'
    have hreturns : Returns ⟨heap, fun _ => 0⟩ errnoRange rbuf rlen cs.1 _ :=
      (returns_v1_iff hversion cs.sized _).mpr ⟨start, offsets, true, hext, hrun, rfl⟩
    obtain ⟨start', offsets', ok', hext', hrun', hr⟩ := (returns_v1_iff hversion cs'.sized _).mp
      ((halike (fun _ => 0) (fun _ => 0) cs cs' _).mp hreturns)
    obtain rfl := hext.unique hext'
    obtain ⟨rfl, rfl⟩ := hrun.unique hrun'
    exact hr
  · intro hsupplies
    have hone (stack stack' : Nat → UInt8) (cs cs' : Contents) (r : Option (Nat × UInt32))
        (h : Returns ⟨heap, stack⟩ errnoRange rbuf rlen cs.1 r) :
        Returns ⟨heap, stack'⟩ errnoRange rbuf rlen cs'.1 r := by
      obtain ⟨start, offsets, ok, hext, hrun, hr⟩ := (returns_v1_iff hversion cs.sized _).mp h
      refine (returns_v1_iff hversion cs'.sized _).mpr ⟨start, offsets, ok, hext, hrun, ?_⟩
      cases ok with
      | false => exact hr
      | true =>
        have hrouted := (routed_alike_iff false errnoRange _).mpr
          (hsupplies start offsets hext hrun) (viewV1 cs.1) (viewV1 cs'.1) (length_digits cs)
          (length_digits cs')
        exact hr.trans hrouted
    intro stack stack' cs cs' r
    exact ⟨hone stack stack' cs cs' r, hone stack' stack cs' cs r⟩

end

/-! ## 5. Behind the message

`rbuf` is on the stack too. -/

def SameMessage (rlen : Nat) (rbuf rbuf' : Source) : Prop := ∀ i < rlen, rbuf'.byte i = rbuf.byte i

/-- How much of an element the routing reads. -/
def elementReads (type : UInt8) : Nat :=
  if type = gtpcV1IeImsi then 9
  else if type = gtpcV1IeTeidCtrlPlane then 5
  else if msgsGtpcV1Len type = some 0 then 3
  else 1

/-- **The walk stays inside the message**: in version 1 no extension header ends behind it and no
element is cut where the routing reads it. -/
structure SelfContained (rlen : Nat) (rbuf : Source) : Prop where
  header : 0 < rlen
  items : flagsVersion (rbuf.byte 0) = 2 → (gtpcAllocPacketFromPayload rbuf rlen).Within rlen
  extensions : flagsVersion (rbuf.byte 0) ≠ 2 → hasExtension rbuf = true →
    ∀ o, Loop.Reach (extensionStep rbuf rlen) (firstOffset rbuf) o → o < rlen →
      0 < extensionNext rbuf o ∧ extensionNext rbuf o ≤ rlen
  elements : flagsVersion (rbuf.byte 0) ≠ 2 → ∀ start, ExtensionsEnd rbuf rlen start →
    ∀ o, Loop.Reach (offsetStep rbuf rlen) start o → o < rlen →
      o + elementReads (rbuf.byte o) ≤ rlen

section

variable {rlen : Nat} {rbuf rbuf' : Source} (hsame : SameMessage rlen rbuf rbuf')
include hsame

theorem block_same {offset n : Nat} (h : offset + n ≤ rlen) :
    rbuf'.block offset n = rbuf.block offset n := by
  refine ext_getD (by rw [length_block, length_block]) fun j hj => ?_
  rw [length_block] at hj
  rw [getD_block _ hj, getD_block _ hj, hsame _ (by omega)]

theorem validateHeader_same (h4 : 4 ≤ rlen) :
    (gtpcValidateHeader rbuf').val = (gtpcValidateHeader rbuf).val := by
  simp only [gtpcValidateHeader, val_bind, val_ite, val_pure,
    hsame 0 (by omega), hsame 1 (by omega), hsame 2 (by omega), hsame 3 (by omega)]

theorem parseItems_same : ∀ (n offset : Nat) (pkt : GtpPacket),
    (parseItems rbuf rlen n offset pkt).Within rlen →
      (parseItems rbuf' rlen n offset pkt).val = (parseItems rbuf rlen n offset pkt).val
  | 0, _, _, _ => rfl
  | n + 1, offset, pkt, hwithin => by
    by_cases hlt : offset < rlen
    · unfold parseItems at hwithin
      rw [if_pos hlt] at hwithin
      simp only [within_bind, within_read] at hwithin
      obtain ⟨h1, h2, h0, hrest⟩ := hwithin
      rw [parseItems_val hlt rfl, parseItems_val hlt rfl, hsame _ h1, hsame _ h2, hsame _ h0]
      generalize (be16 (rbuf.byte (offset + 1)) (rbuf.byte (offset + 2)) + 4) % 65536 = hlen
        at hrest ⊢
      cases happ : gtpcAppendItem pkt (rbuf.byte offset) (rbuf.block offset hlen) with
      | none =>
        -- only the size is checked, and both blocks have it
        have happ' : gtpcAppendItem pkt (rbuf.byte offset) (rbuf'.block offset hlen) = none := by
          rw [gtpcAppendItem_eq_none, length_block] at happ ⊢
          exact happ
        rw [happ']
      | some pkt' =>
        rw [happ] at hrest
        simp only [within_bind, within_readBlock] at hrest
        obtain ⟨hblock, hnext⟩ := hrest
        have hpos := (gtpcAppendItem_eq_some.mp happ).1
        rw [length_block] at hpos
        rw [block_same hsame (hblock.resolve_left (Nat.ne_of_gt hpos)), happ]
        dsimp only
        split
        · rfl
        · rename_i hle
          rw [if_neg hle] at hnext
          split
          · rfl
          · rename_i hne
            rw [if_neg hne] at hnext
            exact parseItems_same n _ pkt' hnext
    · unfold parseItems
      rw [if_neg hlt, if_neg hlt]

theorem allocPacket_same (h0 : 0 < rlen)
    (hwithin : (gtpcAllocPacketFromPayload rbuf rlen).Within rlen) :
    (gtpcAllocPacketFromPayload rbuf' rlen).val = (gtpcAllocPacketFromPayload rbuf rlen).val := by
  have h4 : 4 ≤ rlen := by
    by_contra hshort
    exact not_within_of_short rbuf (by omega) (by omega) hwithin
  have hok : HeaderOk rbuf' rlen ↔ HeaderOk rbuf rlen := by
    unfold HeaderOk
    rw [validateHeader_same hsame h4, hsame 1 (by omega), hsame 2 (by omega), hsame 3 (by omega)]
  by_cases hheader : HeaderOk rbuf rlen
  · obtain ⟨hinside, hval⟩ := parse_of_headerOk hheader
    rw [hval, (parse_of_headerOk (hok.mpr hheader)).2, hsame 1 (by omega)]
    by_cases hend : gtpcTypeHeaderlen (rbuf.byte 1) = rlen
    · rw [if_pos hend, if_pos hend]
    · rw [if_neg hend, if_neg hend]
      exact parseItems_same hsame _ _ _ ((hinside.mp hwithin).resolve_left hend)
  · rw [(parse_of_not_headerOk h4 hheader).2,
      (parse_of_not_headerOk h4 fun h => hheader (hok.mp h)).2]

variable {o : Nat}

theorem extensionStep_same
    (hin : o < rlen → 0 < extensionNext rbuf o ∧ extensionNext rbuf o ≤ rlen) :
    extensionStep rbuf' rlen o = extensionStep rbuf rlen o := by
  unfold extensionStep
  split
  · rename_i hlt
    obtain ⟨hpos, hle⟩ := hin hlt
    have hnext : extensionNext rbuf' o = extensionNext rbuf o := by
      rw [extensionNext, extensionNext, hsame o hlt]
    have hbound : extensionNext rbuf o < 65536 := Nat.mod_lt _ (by decide)
    rw [hnext, byteBefore_eq hpos hbound, byteBefore_eq hpos hbound, hsame _ (by omega)]
  · rfl

theorem elementExtlen_same (hlt : o < rlen)
    (hin : msgsGtpcV1Len (rbuf.byte o) = some 0 → o + 3 ≤ rlen) :
    elementExtlen rbuf' o = elementExtlen rbuf o := by
  unfold elementExtlen
  rw [hsame o hlt]
  cases hlen : msgsGtpcV1Len (rbuf.byte o) with
  | none => rfl
  | some len =>
    by_cases hzero : len = 0
    · have hfield := hin (hzero ▸ hlen)
      have hlength : elementLength rbuf' o = elementLength rbuf o := by
        rw [elementLength, elementLength, hsame _ (by omega), hsame _ (by omega)]
      rw [hlength]
    · simp only [if_neg hzero]

theorem saidAt_same (hlt : o < rlen) (himsi : rbuf.byte o = gtpcV1IeImsi → o + 9 ≤ rlen)
    (hteid : rbuf.byte o = gtpcV1IeTeidCtrlPlane → o + 5 ≤ rlen) :
    saidAt rbuf' rlen o = saidAt rbuf rlen o := by
  rw [saidAt, saidAt, if_pos hlt, if_pos hlt, hsame o hlt]
  unfold saidElement
  split
  · rename_i htype
    have hin := himsi htype
    have hdigits : ieBytes (fun i => rbuf'.byte (o + i)) 1 8 =
        ieBytes (fun i => rbuf.byte (o + i)) 1 8 := by
      refine map_congr_left fun k hk => hsame _ ?_
      have := mem_range.mp hk
      omega
    simp only [hdigits]
  · split
    · rename_i htype
      have hin := hteid htype
      simp only [hsame _ (show o + 1 < rlen by omega), hsame _ (show o + 2 < rlen by omega),
        hsame _ (show o + 3 < rlen by omega), hsame _ (show o + 4 < rlen by omega)]
    · rfl

theorem offsetStep_same (hin : o < rlen → o + elementReads (rbuf.byte o) ≤ rlen) :
    offsetStep rbuf' rlen o = offsetStep rbuf rlen o ∧
      saidAt rbuf' rlen o = saidAt rbuf rlen o := by
  by_cases hlt : o < rlen
  · have hreads := hin hlt
    unfold elementReads at hreads
    have hlen : msgsGtpcV1Len (rbuf.byte o) = some 0 → o + 3 ≤ rlen := by
      intro hvariable
      split_ifs at hreads <;> omega
    have himsi : rbuf.byte o = gtpcV1IeImsi → o + 9 ≤ rlen := by
      intro htype
      rwa [if_pos htype] at hreads
    have hteid : rbuf.byte o = gtpcV1IeTeidCtrlPlane → o + 5 ≤ rlen := by
      intro htype
      rwa [htype] at hreads
    refine ⟨?_, saidAt_same hsame hlt himsi hteid⟩
    rw [offsetStep, offsetStep, if_pos hlt, if_pos hlt, elementExtlen_same hsame hlt hlen]
  · rw [offsetStep, offsetStep, saidAt, saidAt, if_neg hlt, if_neg hlt, if_neg hlt, if_neg hlt]
    exact ⟨rfl, rfl⟩

theorem hasExtension_same (h0 : 0 < rlen) : hasExtension rbuf' = hasExtension rbuf := by
  rw [hasExtension, hasExtension, hsame 0 h0]

theorem firstOffset_same (h0 : 0 < rlen) : firstOffset rbuf' = firstOffset rbuf := by
  rw [firstOffset, firstOffset, hsame 0 h0]

variable (hself : SelfContained rlen rbuf) (hversion : flagsVersion (rbuf.byte 0) ≠ 2)
include hself hversion

variable {start : Nat}

theorem extensionsEnd_same : ExtensionsEnd rbuf' rlen start ↔ ExtensionsEnd rbuf rlen start := by
  unfold ExtensionsEnd
  rw [hasExtension_same hsame hself.header, firstOffset_same hsame hself.header]
  by_cases hflag : hasExtension rbuf = true
  · have hsteps : ∀ o, Loop.Reach (extensionStep rbuf rlen) (firstOffset rbuf) o →
        extensionStep rbuf' rlen o = extensionStep rbuf rlen o :=
      fun o ho => extensionStep_same hsame (hself.extensions hversion hflag o ho)
    rw [if_pos hflag, if_pos hflag]
    constructor
    · rintro ⟨offsets, hrun⟩
      exact ⟨offsets, hrun.congr fun o ho => (hsteps o (ho.of_congr hsteps)).symm⟩
    · rintro ⟨offsets, hrun⟩
      exact ⟨offsets, hrun.congr hsteps⟩
  · rw [if_neg hflag, if_neg hflag]

/-- The element loop takes the same turns over both buffers. -/
theorem run_same (hext : ExtensionsEnd rbuf rlen start) (offsets : List Nat) (ok : Bool) :
    (Loop.Run (offsetStep rbuf' rlen) start offsets ok ↔
      Loop.Run (offsetStep rbuf rlen) start offsets ok) ∧
    (Loop.Run (offsetStep rbuf rlen) start offsets ok →
      (start :: offsets).flatMap (saidAt rbuf' rlen) =
        (start :: offsets).flatMap (saidAt rbuf rlen)) := by
  have hsteps : ∀ o, Loop.Reach (offsetStep rbuf rlen) start o →
      offsetStep rbuf' rlen o = offsetStep rbuf rlen o ∧
        saidAt rbuf' rlen o = saidAt rbuf rlen o :=
    fun o ho => offsetStep_same hsame (hself.elements hversion start hext o ho)
  refine ⟨⟨fun hrun => ?_, fun hrun => hrun.congr fun o ho => (hsteps o ho).1⟩, fun hrun => ?_⟩
  · refine hrun.congr fun o ho => (hsteps o ?_).1.symm
    exact ho.of_congr fun x hx => (hsteps x hx).1
  · exact flatMap_congr fun o ho => (hsteps o (hrun.mem_reach ho)).2

end

section

variable {heap : Nat → UInt8} {errnoRange : Bool} {rlen : Nat} {rbuf rbuf' : Source}

/-- The bytes behind a self-contained message do not matter. -/
theorem returns_same (hsame : SameMessage rlen rbuf rbuf') (hself : SelfContained rlen rbuf)
    (stack stack' : Nat → UInt8) (cs : Contents) (r : Option (Nat × UInt32)) :
    Returns ⟨heap, stack⟩ errnoRange rbuf rlen cs.1 r ↔
      Returns ⟨heap, stack'⟩ errnoRange rbuf' rlen cs.1 r := by
  have hflags : rbuf'.byte 0 = rbuf.byte 0 := hsame 0 hself.header
  by_cases hversion : flagsVersion (rbuf.byte 0) = 2
  · rw [returns_v2_iff hversion cs.sized, returns_v2_iff (hflags.symm ▸ hversion) cs.sized,
      allocPacket_same hsame hself.header (hself.items hversion)]
  · rw [returns_v1_iff hversion cs.sized, returns_v1_iff (hflags.symm ▸ hversion) cs.sized]
    constructor
    · rintro ⟨start, offsets, ok, hext, hrun, hr⟩
      obtain ⟨hiff, hsaid⟩ := run_same hsame hself hversion hext offsets ok
      refine ⟨start, offsets, ok, (extensionsEnd_same hsame hself hversion).mpr hext,
        hiff.mpr hrun, ?_⟩
      rw [hsaid hrun]
      exact hr
    · rintro ⟨start, offsets, ok, hext', hrun', hr⟩
      have hext := (extensionsEnd_same hsame hself hversion).mp hext'
      obtain ⟨hiff, hsaid⟩ := run_same hsame hself hversion hext offsets ok
      have hrun := hiff.mp hrun'
      rw [hsaid hrun] at hr
      exact ⟨start, offsets, ok, hext, hrun, hr⟩

theorem routedAlike_iff :
    RoutedAlike heap errnoRange rlen rbuf rbuf ↔ Supplied heap errnoRange rlen rbuf := by
  unfold Supplied
  by_cases hversion : flagsVersion (rbuf.byte 0) = 2
  · rw [if_pos hversion]
    exact routedAlike_v2_iff hversion
  · rw [if_neg hversion]
    exact routedAlike_v1_iff hversion

end

/-- **What the routing depends on.** Two calls on one buffer return the same, whatever the parse
state and the stack held, exactly when the message says enough. On a message whose walk stays
inside of it that is also when the rest of the buffer does not matter. -/
theorem routing_alike_iff (heap : Nat → UInt8) (errnoRange : Bool) (rlen : Nat) (rbuf : Source) :
    (RoutedAlike heap errnoRange rlen rbuf rbuf ↔ Supplied heap errnoRange rlen rbuf) ∧
    (SelfContained rlen rbuf →
      ((∀ rbuf', SameMessage rlen rbuf rbuf' → RoutedAlike heap errnoRange rlen rbuf rbuf') ↔
        Supplied heap errnoRange rlen rbuf)) := by
  refine ⟨routedAlike_iff, fun hself => ⟨fun h => ?_, fun h rbuf' hsame => ?_⟩⟩
  · exact routedAlike_iff.mp (h rbuf fun _ _ => rfl)
  · intro stack stack' cs cs' r
    have hone := routedAlike_iff.mpr h stack stack cs cs' r
    exact hone.trans (returns_same hsame hself stack stack' cs' r)

def namedRequest : Source :=
  ⟨[0x48, 32, 0, 33, 0, 0, 0, 0, 0, 0, 1, 0, 1, 0, 8, 0, 0x44, 0x10, 0x10, 0x32, 0x54, 0x76, 0x98,
    0xf0, 87, 0, 9, 0, 0x8a, 0, 0, 0, 5, 10, 1, 2, 3], fun _ => 0⟩

def namedPacket : GtpPacket :=
  (gtpcAllocPacketFromPayload namedRequest 37).val.getD (gtpcAllocPacket gtpcCreateSessionReq)

theorem named_request_routed :
    SelfContained 37 namedRequest ∧
      ∀ rbuf', SameMessage 37 namedRequest rbuf' →
        RoutedAlike (fun _ => 0) false 37 namedRequest rbuf' := by
  have hversion : flagsVersion (namedRequest.byte 0) = 2 := by decide
  have hpkt : (gtpcAllocPacketFromPayload namedRequest 37).val = some namedPacket := by
    decide +kernel
  have hwithin : (gtpcAllocPacketFromPayload namedRequest 37).Within 37 := by
    unfold Traced.Within
    decide +kernel
  have hself : SelfContained 37 namedRequest :=
    ⟨by decide, fun _ => hwithin, fun h => absurd hversion h, fun h => absurd hversion h⟩
  refine ⟨hself, ((routing_alike_iff (fun _ => 0) false 37 namedRequest).2 hself).mpr ?_⟩
  rw [Supplied, if_pos hversion]
  intro pkt h
  obtain rfl := Option.some.inj (hpkt.symm.trans h)
  refine ⟨⟨⟨[0x44, 0x10, 0x10, 0x32, 0x54, 0x76, 0x98, 0xf0], by decide⟩, ?_⟩,
    ⟨0x05000000, ?_⟩, Or.inr (Or.inl ?_)⟩
  · decide +kernel
  · decide +kernel
  · decide +kernel

/-- A Create Session Request without an IMSI, as for an emergency call. -/
def anonymousRequest : Source :=
  ⟨[0x48, 32, 0, 21, 0, 0, 0, 0, 0, 0, 1, 0, 87, 0, 9, 0, 0x8a, 0, 0, 0, 5, 10, 1, 2, 3],
    fun _ => 0⟩

def staleState : GtpcParseState :=
  stateOf ⟨true, [0x44, 0x10, 0x10, 0x32, 0x54, 0x76, 0x98, 0xf0], true, 7⟩

/-- Refused on a clean parse state, routed by the IMSI of another on a stale one. -/
theorem anonymous_request_routed :
    Returns ⟨fun _ => 0, fun _ => 0⟩ false anonymousRequest 25 GtpcParseState.zero none ∧
      Returns ⟨fun _ => 0, fun _ => 0⟩ false anonymousRequest 25 staleState
        (some (440101234567890, 0x05000000)) ∧
      ¬ RoutedAlike (fun _ => 0) false 25 anonymousRequest anonymousRequest := by
  have hversion : flagsVersion (anonymousRequest.byte 0) = 2 := by decide
  have hzero : ∀ s, (GtpcParseState.zero.item s).length = s.size := fun _ => length_replicate
  have hstale : ∀ s, (staleState.item s).length = s.size := length_stateOf rfl
  have hrefused : Returns ⟨fun _ => 0, fun _ => 0⟩ false anonymousRequest 25 GtpcParseState.zero
      none :=
    (returns_v2_iff hversion ⟨hzero .imsi, hzero .cTeid⟩).mpr (by decide +kernel)
  have hrouted : Returns ⟨fun _ => 0, fun _ => 0⟩ false anonymousRequest 25 staleState
      (some (440101234567890, 0x05000000)) :=
    (returns_v2_iff hversion ⟨hstale .imsi, hstale .cTeid⟩).mpr (by decide +kernel)
  refine ⟨hrefused, hrouted, fun halike => ?_⟩
  have hboth := (halike (fun _ => 0) (fun _ => 0) ⟨GtpcParseState.zero, hzero⟩
    ⟨staleState, hstale⟩ none).mp hrefused
  have hnone := (returns_v2_iff hversion ⟨hstale .imsi, hstale .cTeid⟩).mp hboth
  have hsome := (returns_v2_iff hversion ⟨hstale .imsi, hstale .cTeid⟩).mp hrouted
  exact absurd (hnone.trans hsome.symm) (by simp)

end MixiPgw.Ctrl
