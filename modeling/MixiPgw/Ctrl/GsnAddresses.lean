/-
# The addresses of a version-1 request

`on_gtpcv1_parse_root` tells the GSN addresses of a PDP context apart by their order: the first of
four bytes belongs to the control plane, and `HAVE_V1_IPADR_CTRL` tells a later one that it is not
the first. The user-plane address is that of the LAST element, not of the second (`GsnState`), so
an alternative address takes its place (`gsn_addresses_iff`).
-/
import MixiPgw.Ctrl.PcoRequests

namespace MixiPgw.Ctrl

open Bytes Lib List Option

/-! ## 1. What an element writes -/

def copySlots : List Slot := [.cTeid, .uTeid, .imsi, .msisdn]

def copyFlags : List Have :=
  [.v1TeidCtrl, .v1TeidData, .v1Imsi, .v1Msisdn, .v1IpadrData, .v1IpadrCtrl]

structure SameCopies (cs cs' : GtpcParseState) : Prop where
  item : ∀ s ∈ copySlots, cs'.item s = cs.item s
  flag : ∀ h ∈ copyFlags, cs'.flagV1 h = cs.flagV1 h

theorem SameCopies.refl (cs : GtpcParseState) : SameCopies cs cs :=
  ⟨fun _ _ => rfl, fun _ _ => rfl⟩

theorem SameCopies.trans {a b c : GtpcParseState} (h : SameCopies a b) (h' : SameCopies b c) :
    SameCopies a c :=
  ⟨fun s hs => (h'.item s hs).trans (h.item s hs), fun f hf => (h'.flag f hf).trans (h.flag f hf)⟩

theorem setFlag_of_ne {flag : Have → Bool} {h g : Have} (hne : g ≠ h) :
    setFlag flag h g = flag g := by
  simp [setFlag, hne]

theorem setFlag_self (flag : Have → Bool) (h : Have) : setFlag flag h h = true := by
  simp [setFlag]

variable {h : Have}

theorem haveV1_sameCopies (cs : GtpcParseState) (hh : h ∉ copyFlags) :
    SameCopies cs (cs.haveV1 h) :=
  ⟨fun _ _ => rfl, fun _ hg => setFlag_of_ne fun he => hh (he ▸ hg)⟩

theorem ipcpOption_sameCopies (type : UInt8) (cs : GtpcParseState) :
    SameCopies cs (ipcpOption type cs) := by
  unfold ipcpOption
  split
  · exact ⟨fun _ _ => rfl, (haveV1_sameCopies cs (h := .ipcpPDns) (by decide)).flag⟩
  · split
    · exact ⟨fun _ _ => rfl, (haveV1_sameCopies cs (h := .ipcpSDns) (by decide)).flag⟩
    · exact SameCopies.refl cs

theorem requestV1_sameCopies (type pilen : Nat) (cs : GtpcParseState) :
    SameCopies cs (requestV1 type pilen cs) := by
  have hother : ∀ h ∈ containerRequests, h ∉ copyFlags := by decide
  unfold requestV1
  split
  · next h hc => exact haveV1_sameCopies cs (hother h (mem_containerRequests hc))
  · exact SameCopies.refl cs

theorem onPcoV1_sameCopies (stack data : Nat → UInt8) (datalen : Nat) (cs : GtpcParseState) :
    SameCopies cs (onPcoV1 stack data datalen cs) := by
  obtain ⟨cs1, hloop, -, -, hothers, hflag⟩ := onPcoV1_start stack data datalen cs
  rw [hloop]
  refine SameCopies.trans ⟨fun s hs => ?_, fun h _ => congrFun hflag h⟩
    ((pcoLoopV1_isLoop _ _).keeps (fun _ _ _ h => h.trans (requestV1_sameCopies ..))
      (fun _ _ h => h.trans (ipcpOption_sameCopies ..)) 255 (SameCopies.refl cs1))
  -- the copy runs over the PCO and its neighbour, neither of which is one of the four images
  have hpco : s ≠ .pco := by rintro rfl; exact absurd hs (by decide)
  have hpaa : s ≠ .paa := by rintro rfl; exact absurd hs (by decide)
  exact hothers s hpco hpaa

theorem onOtherElement_sameCopies (stack : Nat → UInt8) (type : UInt8) (data : Nat → UInt8)
    (datalen : Nat) (cs : GtpcParseState) :
    SameCopies cs (onOtherElement stack type data datalen cs).1 := by
  have hcause := haveV1_sameCopies cs (h := .v1Cause) (by decide)
  have hqos := haveV1_sameCopies cs (h := .v1Qos) (by decide)
  have hnsapi := haveV1_sameCopies cs (h := .v1Nsapi) (by decide)
  have hpco := (haveV1_sameCopies cs (h := .v1Pco) (by decide)).trans
    (onPcoV1_sameCopies stack data datalen _)
  unfold onOtherElement
  repeat' split
  all_goals first
    | exact SameCopies.refl cs
    | exact hcause
    | exact ⟨hqos.item, hqos.flag⟩
    | exact ⟨hnsapi.item, hnsapi.flag⟩
    | exact hpco

theorem copyRule_congr {cs cs' : GtpcParseState}
    (h : cs'.flagV1 .v1IpadrCtrl = cs.flagV1 .v1IpadrCtrl) (type : UInt8) :
    copyRule cs' type = copyRule cs type := by
  unfold copyRule
  rw [h]

/-- What one element writes: the bytes and the flag of its rule if it has the size that this
asks for. -/
theorem onGtpcv1ParseRoot_copies (stack : Nat → UInt8) (type : UInt8) (data : Nat → UInt8)
    {datalen : Nat} (cs : GtpcParseState) (hlen : datalen ≠ 0) :
    (∃ rule, copyRule cs type = some rule ∧ datalen = rule.size ∧
      (onGtpcv1ParseRoot stack type data datalen cs).1 =
        ((cs.haveV1 .v1).haveV1 rule.flag).patch rule.slot rule.target
          (ieBytes data rule.source rule.count)) ∨
    ((∀ rule, copyRule cs type = some rule → datalen ≠ rule.size) ∧
      SameCopies cs (onGtpcv1ParseRoot stack type data datalen cs).1) := by
  have hv1 := haveV1_sameCopies cs (h := .v1) (by decide)
  have hrule : copyRule (cs.haveV1 .v1) type = copyRule cs type :=
    copyRule_congr (hv1.flag _ (by decide)) type
  unfold onGtpcv1ParseRoot
  rw [if_neg hlen]
  dsimp only
  rw [hrule]
  cases copyRule cs type with
  | none =>
    refine Or.inr ⟨fun rule h => absurd h (by simp), ?_⟩
    exact hv1.trans (onOtherElement_sameCopies stack type data datalen _)
  | some rule =>
    by_cases hsize : datalen = rule.size
    · refine Or.inl ⟨rule, rfl, hsize, ?_⟩
      dsimp only
      rw [if_neg (not_not.mpr hsize)]
    · refine Or.inr ⟨fun r hr => some.inj hr ▸ hsize, ?_⟩
      dsimp only
      rw [if_pos hsize]
      exact hv1

/-! ## 2. Messages as lists of elements -/

/-- An information element; a type of fixed length has contents of that length. -/
structure V1Element where
  type : UInt8
  contents : List UInt8
  sized : ∀ n, msgsGtpcV1Len type = some (n + 1) → contents.length = n

namespace V1Element

/-- A type of fixed length has no length field. -/
def bytes (e : V1Element) : List UInt8 :=
  match msgsGtpcV1Len e.type with
  | some (_ + 1) => e.type :: e.contents
  | _ => e.type :: (be16Bytes e.contents.length ++ e.contents)

/-- The walk gives up at a type that is not in the table, and at an empty element that has a
parser. -/
def Refused (e : V1Element) : Prop :=
  msgsGtpcV1Len e.type = none ∨ msgsGtpcV1Parser e.type = true ∧ e.contents = []

instance (e : V1Element) : Decidable e.Refused := inferInstanceAs (Decidable (_ ∨ _))

def gsnAddress (e : V1Element) : List (List UInt8) :=
  if e.type = gtpcV1IeGsnAddress ∧ e.contents.length = 4 then [e.contents] else []

end V1Element

def elementBytes (els : List V1Element) : List UInt8 := els.flatMap V1Element.bytes

def gsnAddresses (els : List V1Element) : List (List UInt8) := els.flatMap V1Element.gsnAddress

theorem V1Element.bytes_pos (e : V1Element) : 0 < e.bytes.length := by
  unfold bytes
  split <;> simp

section

variable {payload : Source} {offset : Nat} {e : V1Element} {rest : List UInt8}

theorem element_read (hat : payload.bytes.drop offset = e.bytes ++ rest)
    (hsize : e.bytes.length < 65536) {len : Nat} (hlen : msgsGtpcV1Len e.type = some len) :
    payload.byte offset = e.type ∧
      (if len = 0 then elementLength payload offset else len - 1) = e.contents.length ∧
      (if len = 0 then (elementLength payload offset + 3) % 65536 else len) = e.bytes.length := by
  have hbyte (j : Nat) (hj : j < e.bytes.length) : payload.byte (offset + j) = e.bytes.getD j 0 :=
    Source.byte_of_drop hat hj
  have hfirst := hbyte 0 e.bytes_pos
  cases len with
  | zero =>
    have hbytes : e.bytes = e.type :: (be16Bytes e.contents.length ++ e.contents) := by
      rw [V1Element.bytes, hlen]
    have hlength : e.bytes.length = e.contents.length + 3 := by
      rw [hbytes, length_cons, length_append, be16Bytes_length]
      omega
    have hbe : elementLength payload offset = e.contents.length := by
      rw [elementLength, hbyte 1 (by omega), hbyte 2 (by omega), hbytes]
      exact be16_ofNat _ (by omega)
    rw [hbytes] at hfirst
    refine ⟨hfirst, ?_, ?_⟩
    · rw [if_pos rfl, hbe]
    · rw [if_pos rfl, hbe, hlength, Nat.mod_eq_of_lt (by omega)]
  | succ n =>
    have hbytes : e.bytes = e.type :: e.contents := by rw [V1Element.bytes, hlen]
    have hcontents := e.sized n hlen
    rw [hbytes] at hfirst
    refine ⟨hfirst, ?_, ?_⟩
    · rw [if_neg (Nat.succ_ne_zero n), hcontents, Nat.add_sub_cancel]
    · rw [if_neg (Nat.succ_ne_zero n), hbytes, length_cons, hcontents]

theorem elementNext_refused (hat : payload.bytes.drop offset = e.bytes ++ rest)
    (hsize : e.bytes.length < 65536) (stack : Nat → UInt8) (cs : GtpcParseState)
    (h : e.Refused) : elementNext stack payload offset cs = none := by
  have hextlen : elementExtlen payload offset = none := by
    unfold elementExtlen
    cases hlen : msgsGtpcV1Len e.type with
    | none =>
      have hfirst : payload.byte (offset + 0) = e.bytes.getD 0 0 :=
        Source.byte_of_drop hat e.bytes_pos
      have htype : e.bytes.getD 0 0 = e.type := by
        rw [V1Element.bytes, hlen]
        rfl
      rw [show payload.byte offset = e.type from hfirst.trans htype, hlen]
    | some len =>
      obtain ⟨htype, hielen, -⟩ := element_read hat hsize hlen
      rcases h with hnone | ⟨hparser, hempty⟩
      · exact absurd (hlen.symm.trans hnone) (by simp)
      · rw [htype, hlen]
        dsimp only
        rw [hielen, hempty, if_pos ⟨hparser, rfl⟩]
  have hmap := elementNext_offset stack payload offset cs
  rw [hextlen] at hmap
  exact map_eq_none_iff.mp hmap

theorem elementNext_accepted (hat : payload.bytes.drop offset = e.bytes ++ rest)
    (hsize : e.bytes.length < 65536) (stack : Nat → UInt8) (cs : GtpcParseState) (h : ¬ e.Refused) :
    elementNext stack payload offset cs = some ((offset + e.bytes.length) % 65536,
      if msgsGtpcV1Parser e.type then
        (onGtpcv1ParseRoot stack e.type (fun i => payload.byte (offset + i)) e.contents.length cs).1
      else cs) := by
  obtain ⟨hknown, hfilled⟩ := not_or.mp h
  obtain ⟨len, hlen⟩ := ne_none_iff_exists'.mp hknown
  obtain ⟨htype, hielen, hextlen⟩ := element_read hat hsize hlen
  unfold elementNext
  dsimp only
  rw [htype, hlen]
  dsimp only
  rw [hielen, hextlen]
  by_cases hparser : msgsGtpcV1Parser e.type = true
  · have hne : e.contents.length ≠ 0 := fun h0 => hfilled ⟨hparser, length_eq_zero_iff.mp h0⟩
    have hok := onGtpcv1ParseRoot_ok stack (fun i => payload.byte (offset + i)) e.contents.length
      cs hparser
    rw [decide_eq_true hne] at hok
    rw [if_pos hparser, if_pos hparser]
    generalize onGtpcv1ParseRoot stack e.type _ e.contents.length cs = result at hok ⊢
    obtain ⟨cs', ok⟩ := result
    subst hok
    rfl
  · rw [if_neg hparser, if_neg hparser]

end

/-! ## 3. The addresses -/

/-- The first four bytes of `f_teid.blk`. -/
def addressBytes (fteid : List UInt8) : List UInt8 := slice fteid 9 4

/-- **The addresses held** after the well-sized GSN addresses `addrs`: the first, and the last of
the others. -/
structure GsnState (addrs : List (List UInt8)) (cs : GtpcParseState) : Prop where
  ctrlSize : (cs.item .cTeid).length = 25
  dataSize : (cs.item .uTeid).length = 25
  seen : cs.flagV1 .v1IpadrCtrl = true ↔ addrs ≠ []
  ctrl : ∀ a, addrs.head? = some a → addressBytes (cs.item .cTeid) = a
  data : ∀ b, addrs.tail.getLast? = some b → addressBytes (cs.item .uTeid) = b

theorem gsnState_start (payload : Source) : GsnState [] (startV1 payload) where
  ctrlSize := rfl
  dataSize := rfl
  seen := ⟨fun h => absurd h Bool.false_ne_true, fun h => absurd rfl h⟩
  ctrl _ h := absurd h (by simp)
  data _ h := absurd h (by simp)

/-- The four bytes and the size are all that counts of an image. -/
def SameAddress (image image' : List UInt8) : Prop :=
  image'.length = image.length ∧ addressBytes image' = addressBytes image

variable {addrs : List (List UInt8)}

theorem GsnState.congr {cs cs' : GtpcParseState}
    (h : GsnState addrs cs) (hseen : cs'.flagV1 .v1IpadrCtrl = cs.flagV1 .v1IpadrCtrl)
    (hctrl : SameAddress (cs.item .cTeid) (cs'.item .cTeid))
    (hdata : SameAddress (cs.item .uTeid) (cs'.item .uTeid)) : GsnState addrs cs' where
  ctrlSize := hctrl.1.trans h.ctrlSize
  dataSize := hdata.1.trans h.dataSize
  seen := hseen ▸ h.seen
  ctrl a ha := hctrl.2.trans (h.ctrl a ha)
  data b hb := hdata.2.trans (h.data b hb)

theorem length_ieBytes (data : Nat → UInt8) (i n : Nat) : (ieBytes data i n).length = n := by
  rw [ieBytes, length_map, length_range]

theorem getD_ieBytes (data : Nat → UInt8) {i n j : Nat} (hj : j < n) :
    (ieBytes data i n).getD j 0 = data (i + j) := by
  rw [ieBytes, getD_eq_getElem _ _ (by simpa using hj), getElem_map, getElem_range]

variable (cs : GtpcParseState)

theorem patch_self (s : Slot) (i : Nat) (d : List UInt8) :
    (cs.patch s i d).item s = splice (cs.item s) i d := if_pos rfl

theorem patch_of_ne {s t : Slot} (i : Nat) (d : List UInt8) (h : t ≠ s) :
    (cs.patch s i d).item t = cs.item t := if_neg h

theorem length_patch {s t : Slot} {i : Nat} {d : List UInt8}
    (h : t = s → i + d.length ≤ (cs.item t).length) :
    ((cs.patch s i d).item t).length = (cs.item t).length := by
  by_cases hts : t = s
  · subst hts
    rw [patch_self]
    exact length_splice (h rfl)
  · rw [patch_of_ne cs i d hts]

variable {cs : GtpcParseState}

/-- Every rule copies inside its image. -/
theorem copyRule_inside {type : UInt8} {rule : CopyRule}
    (h : copyRule cs type = some rule) : rule.target + rule.count ≤ rule.slot.size := by
  unfold copyRule at h
  split_ifs at h
  all_goals
    cases h
    decide

variable {image d : List UInt8}

theorem sameAddress_teid (himage : image.length = 25) (hd : d.length = 4) :
    SameAddress image (splice image 5 d) :=
  ⟨length_splice (by omega), slice_splice_of_disjoint (by omega) (by omega) (Or.inr (by omega))⟩

theorem addressBytes_splice (himage : image.length = 25)
    (hd : d.length = 4) : addressBytes (splice image 9 d) = d := by
  have h := @slice_splice image d 9 (by omega)
  rwa [hd] at h

section

variable {addrs : List (List UInt8)} {cs : GtpcParseState}

variable {d : List UInt8}

theorem GsnState.first (h : GsnState [] cs) (hd : d.length = 4) :
    GsnState [d] (((cs.haveV1 .v1).haveV1 .v1IpadrCtrl).patch .cTeid 9 d) where
  ctrlSize := by
    refine (length_patch _ fun _ => ?_).trans h.ctrlSize
    rw [hd]
    exact h.ctrlSize.symm ▸ by decide
  dataSize := h.dataSize
  seen := ⟨fun _ => cons_ne_nil d [], fun _ => setFlag_self (cs.haveV1 .v1).flagV1 .v1IpadrCtrl⟩
  ctrl a ha := by
    cases ha
    exact addressBytes_splice h.ctrlSize hd
  data b hb := absurd hb (by simp)

theorem GsnState.later (h : GsnState addrs cs) (hne : addrs ≠ []) (hd : d.length = 4) :
    GsnState (addrs ++ [d]) (((cs.haveV1 .v1).haveV1 .v1IpadrData).patch .uTeid 9 d) where
  ctrlSize := h.ctrlSize
  dataSize := by
    refine (length_patch _ fun _ => ?_).trans h.dataSize
    rw [hd]
    exact h.dataSize.symm ▸ by decide
  seen := ⟨fun _ => by simp, fun _ => h.seen.mpr hne⟩
  ctrl a ha := by
    rw [head?_append_of_ne_nil _ hne] at ha
    exact h.ctrl a ha
  data b hb := by
    rw [tail_append_of_ne_nil hne, getLast?_concat] at hb
    obtain rfl := some.inj hb
    rw [patch_self]
    exact addressBytes_splice h.dataSize hd

theorem GsnState.root (h : GsnState addrs cs) (stack : Nat → UInt8) (type : UInt8)
    (data : Nat → UInt8) {datalen : Nat} (hlen : datalen ≠ 0) :
    GsnState
      (addrs ++ if type = gtpcV1IeGsnAddress ∧ datalen = 4 then [ieBytes data 3 4] else [])
      (onGtpcv1ParseRoot stack type data datalen cs).1 := by
  have hgsn : copyRule cs gtpcV1IeGsnAddress =
      if cs.flagV1 .v1IpadrCtrl then some ⟨4, .v1IpadrData, .uTeid, 9, 3, 4⟩
      else some ⟨4, .v1IpadrCtrl, .cTeid, 9, 3, 4⟩ := rfl
  have hother (hno : ¬ (type = gtpcV1IeGsnAddress ∧ datalen = 4))
      (hkeep : GsnState addrs (onGtpcv1ParseRoot stack type data datalen cs).1) :
      GsnState (addrs ++ if type = gtpcV1IeGsnAddress ∧ datalen = 4 then [ieBytes data 3 4] else [])
        (onGtpcv1ParseRoot stack type data datalen cs).1 := by
    rwa [if_neg hno, append_nil]
  rcases onGtpcv1ParseRoot_copies stack type data cs hlen with
    ⟨rule, hrule, hsize, hroot⟩ | ⟨hnone, hsame⟩
  · by_cases htype : type = gtpcV1IeGsnAddress
    · subst htype
      rw [hgsn] at hrule
      rw [hroot]
      cases hseen : cs.flagV1 .v1IpadrCtrl with
      | false =>
        rw [hseen, if_neg (by decide)] at hrule
        obtain rfl := some.inj hrule
        rw [if_pos ⟨rfl, hsize⟩]
        obtain rfl : addrs = [] := by
          by_contra hne
          exact absurd (h.seen.mpr hne) (by simp [hseen])
        exact h.first (length_ieBytes data 3 4)
      | true =>
        rw [hseen, if_pos rfl] at hrule
        obtain rfl := some.inj hrule
        rw [if_pos ⟨rfl, hsize⟩]
        exact h.later (h.seen.mp hseen) (length_ieBytes data 3 4)
    · refine hother (fun hg => htype hg.1) ?_
      have h5 := length_ieBytes data 1 4
      rw [hroot]
      unfold copyRule at hrule
      split_ifs at hrule
      · obtain rfl := some.inj hrule
        exact h.congr rfl (patch_self _ _ _ _ ▸ sameAddress_teid h.ctrlSize h5) ⟨rfl, rfl⟩
      · obtain rfl := some.inj hrule
        exact h.congr rfl ⟨rfl, rfl⟩ (patch_self _ _ _ _ ▸ sameAddress_teid h.dataSize h5)
      · obtain rfl := some.inj hrule
        exact h.congr rfl ⟨rfl, rfl⟩ ⟨rfl, rfl⟩
      · obtain rfl := some.inj hrule
        exact h.congr rfl ⟨rfl, rfl⟩ ⟨rfl, rfl⟩
  · refine hother ?_ (h.congr (hsame.flag _ (by decide)) ?_ ?_)
    · rintro ⟨rfl, rfl⟩
      cases hseen : cs.flagV1 .v1IpadrCtrl with
      | false => exact hnone _ (by rw [hgsn, hseen]; rfl) rfl
      | true => exact hnone _ (by rw [hgsn, hseen]; rfl) rfl
    · rw [hsame.item .cTeid (by decide)]
      exact ⟨rfl, rfl⟩
    · rw [hsame.item .uTeid (by decide)]
      exact ⟨rfl, rfl⟩

end

variable {payload : Source} {offset : Nat} {e : V1Element} {rest : List UInt8}

theorem gsnAddress_read (hat : payload.bytes.drop offset = e.bytes ++ rest) :
    e.gsnAddress = if e.type = gtpcV1IeGsnAddress ∧ e.contents.length = 4 then
      [ieBytes (fun i => payload.byte (offset + i)) 3 4] else [] := by
  unfold V1Element.gsnAddress
  by_cases hg : e.type = gtpcV1IeGsnAddress ∧ e.contents.length = 4
  · rw [if_pos hg, if_pos hg]
    have hbytes : e.bytes = e.type :: (be16Bytes e.contents.length ++ e.contents) := by
      rw [V1Element.bytes, hg.1]
      rfl
    refine congrArg (· :: []) (ext_getD (hg.2.trans (length_ieBytes _ 3 4).symm) fun j hj => ?_)
    have hin : 3 + j < e.bytes.length := by
      rw [hbytes, length_cons, length_append, be16Bytes_length]
      omega
    rw [getD_ieBytes _ (hg.2 ▸ hj), Source.byte_of_drop hat hin, hbytes, Nat.add_comm]
    rfl
  · rw [if_neg hg, if_neg hg]

theorem GsnState.turn (h : GsnState addrs cs) (hat : payload.bytes.drop offset = e.bytes ++ rest)
    (hsize : e.bytes.length < 65536) (haccepted : ¬ e.Refused) (stack : Nat → UInt8) :
    ∃ cs', elementNext stack payload offset cs = some ((offset + e.bytes.length) % 65536, cs') ∧
      GsnState (addrs ++ e.gsnAddress) cs' := by
  refine ⟨_, elementNext_accepted hat hsize stack cs haccepted, ?_⟩
  by_cases hparser : msgsGtpcV1Parser e.type = true
  · rw [if_pos hparser]
    have hne : e.contents.length ≠ 0 := fun h0 =>
      haccepted (Or.inr ⟨hparser, length_eq_zero_iff.mp h0⟩)
    have hroot := h.root stack e.type (fun i => payload.byte (offset + i)) hne
    rwa [gsnAddress_read hat]
  · rw [if_neg hparser]
    have hgsn : e.gsnAddress = [] := by
      refine if_neg fun hg => hparser ?_
      rw [hg.1]
      rfl
    rwa [hgsn, append_nil]

theorem run_elements (stack : Nat → UInt8) (hsize : payload.bytes.length < 65536) :
    ∀ (els : List V1Element) {offset : Nat} {addrs : List (List UInt8)} {cs : GtpcParseState},
      payload.bytes.drop offset = elementBytes els → GsnState addrs cs →
      ∃ states result,
        Loop.Run (ieStep stack payload payload.bytes.length) (offset, cs) states result ∧
        (result.isSome = true ↔ ∀ e ∈ els, ¬ e.Refused) ∧
        ∀ cs', result = some cs' → GsnState (addrs ++ gsnAddresses els) cs'
  | [], offset, addrs, cs, hat, h => by
    have hend : ¬ offset < payload.bytes.length := by
      rw [Nat.not_lt]
      exact drop_eq_nil_iff.mp hat
    refine ⟨[], some cs, .exit ?_, by simp, fun cs' hcs => ?_⟩
    · rw [ieStep, if_neg hend]
    · obtain rfl := some.inj hcs
      simpa [gsnAddresses] using h
  | e :: els, offset, addrs, cs, hat, h => by
    have hat' : payload.bytes.drop offset = e.bytes ++ elementBytes els := hat
    have hlength := congrArg length hat'
    rw [length_drop, length_append] at hlength
    have hpos := e.bytes_pos
    have hlt : offset < payload.bytes.length := by omega
    by_cases hrefused : e.Refused
    · refine ⟨[], none, .exit ?_, ?_, fun cs' hcs => absurd hcs (by simp)⟩
      · rw [ieStep, if_pos hlt, elementNext_refused hat' (by omega) stack cs hrefused]
      · simp [hrefused]
    · obtain ⟨cs1, hnext, hstate⟩ := h.turn hat' (by omega) hrefused stack
      rw [Nat.mod_eq_of_lt (by omega)] at hnext
      have hrest : payload.bytes.drop (offset + e.bytes.length) = elementBytes els := by
        rw [← drop_drop, hat', drop_left]
      obtain ⟨states, result, hrun, hall, hfinal⟩ := run_elements stack hsize els hrest hstate
      refine ⟨_, result, .next (ieStep_eq_inr.mpr ⟨hlt, hnext⟩) hrun, ?_, fun cs' hcs => ?_⟩
      · rw [hall]
        simp [hrefused]
      · rw [gsnAddresses, flatMap_cons, ← append_assoc]
        exact hfinal cs' hcs

/-- **The addresses of a request with two or more well-sized GSN addresses.** The control-plane
address is that of the first and the user-plane address that of the second exactly when the LAST
one repeats the second. -/
theorem gsn_addresses_iff (stack : Nat → UInt8) (rx : RxPacket) {start : Nat} {els : List V1Element}
    {a b : List UInt8} {more : List (List UInt8)} (hdatagram : rx.datalen = rx.data.bytes.length)
    (hsize : rx.datalen < 65536) (hstart : ExtensionsEnd rx.data rx.datalen start)
    (hels : rx.data.bytes.drop start = elementBytes els)
    (hgsn : gsnAddresses els = a :: b :: more) :
    ∃ fuel result, walkV1 fuel stack rx = some result ∧
      (result.isSome = true ↔ ∀ e ∈ els, ¬ e.Refused) ∧
      ∀ cs, result = some cs →
        ((addressBytes (cs.item .cTeid) = a ∧ addressBytes (cs.item .uTeid) = b) ↔
          (b :: more).getLast? = some b) := by
  rw [hdatagram] at hsize hstart
  obtain ⟨states, result, hrun, hall, hfinal⟩ :=
    run_elements stack hsize els hels (gsnState_start rx.data)
  obtain ⟨fuel, hfuel⟩ := loopsV1_of_run hstart hrun
  refine ⟨fuel, result.map fun cs => { cs with gtphTeid := teidOf rx.data }, ?_, ?_, ?_⟩
  · rw [walkV1_eq_loopsV1, hdatagram, hfuel]
    rfl
  · rw [isSome_map, hall]
  · intro cs hcs
    obtain ⟨cs1, hcs1, rfl⟩ := map_eq_some_iff.mp hcs
    have hstate := hfinal cs1 hcs1
    rw [nil_append, hgsn] at hstate
    have hfirst : addressBytes (cs1.item .cTeid) = a := hstate.ctrl a rfl
    obtain ⟨last, hlast⟩ : ∃ last, (b :: more).getLast? = some last :=
      ⟨_, getLast?_eq_some_getLast (cons_ne_nil b more)⟩
    have hdata : addressBytes (cs1.item .uTeid) = last := hstate.data last hlast
    rw [hlast]
    constructor
    · rintro ⟨-, hb⟩
      rw [← hdata, hb]
    · intro hb
      exact ⟨hfirst, hdata.trans (some.inj hb)⟩

def fixedElement (type : UInt8) (contents : List UInt8)
    (h : msgsGtpcV1Len type = some (contents.length + 1)) : V1Element :=
  ⟨type, contents, fun _ hn => Nat.succ.inj (some.inj (h.symm.trans hn))⟩

def gsnElement (contents : List UInt8) : V1Element :=
  ⟨gtpcV1IeGsnAddress, contents, fun _ h => absurd (some.inj h) (by simp)⟩

/-- Two TEIDs, the NSAPI and GSN addresses. -/
def pdpElements (addresses : List (List UInt8)) : List V1Element :=
  [fixedElement 16 [0, 0, 0, 7] rfl, fixedElement 17 [0, 0, 0, 9] rfl, fixedElement 20 [5] rfl] ++
    addresses.map gsnElement

def createPdpWith (addresses : List (List UInt8)) : RxPacket where
  data := ⟨[0x32, 16] ++ be16Bytes (4 + (elementBytes (pdpElements addresses)).length) ++
    [0, 0, 0, 0, 0, 1, 0, 0] ++ elementBytes (pdpElements addresses), fun _ => 0⟩
  datalen := 12 + (elementBytes (pdpElements addresses)).length
  saddr := SockAddr.zero
  caddr := SockAddr.zero

theorem two_addresses_found :
    ∃ fuel cs, walkV1 fuel (fun _ => 0) (createPdpWith [[10, 0, 0, 1], [10, 0, 0, 2]]) =
        some (some cs) ∧
      addressBytes (cs.item .cTeid) = [10, 0, 0, 1] ∧
      addressBytes (cs.item .uTeid) = [10, 0, 0, 2] := by
  obtain ⟨fuel, result, hwalk, hall, haddr⟩ :=
    gsn_addresses_iff (fun _ => 0) (createPdpWith [[10, 0, 0, 1], [10, 0, 0, 2]]) (by decide)
      (by decide) (extensionsEnd_of_none (by decide) _)
      (show _ = elementBytes (pdpElements [[10, 0, 0, 1], [10, 0, 0, 2]]) by decide)
      (show _ = [[10, 0, 0, 1], [10, 0, 0, 2]] by decide)
  have hsome : result.isSome = true := hall.mpr (by decide)
  obtain ⟨cs, rfl⟩ := isSome_iff_exists.mp hsome
  exact ⟨fuel, cs, hwalk, (haddr cs rfl).mpr rfl⟩

theorem third_address_wins :
    gsnAddresses (pdpElements [[10, 0, 0, 1], [10, 0, 0, 2], [10, 0, 0, 3]]) =
        [[10, 0, 0, 1], [10, 0, 0, 2], [10, 0, 0, 3]] ∧
      ((walkV1 7 (fun _ => 0) (createPdpWith [[10, 0, 0, 1], [10, 0, 0, 2], [10, 0, 0, 3]])).map
        (Option.map fun cs => (addressBytes (cs.item .cTeid), addressBytes (cs.item .uTeid)))) =
        some (some ([10, 0, 0, 1], [10, 0, 0, 3])) := by
  decide

end MixiPgw.Ctrl
