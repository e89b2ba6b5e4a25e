/-
# Protocol configuration options: what is asked for and what is answered

`gtpc_item_func.c` and `gtpc_item_func_v1.c` walk a list of containers, an identifier of two bytes,
a length of one and contents, each with a loop of its own. Both loops are compared with one
function on lists of `Container`s, what they ask for (`asked`).

* `pco_read_alike_iff`: a container with contents asks for something in version 1 only; and of an
  item without containers version 2 subtracts 2 from the length field 1, and walks on behind the
  parse state.
* `pco_answered_iff`: version 1 always answers, version 2 unless the IPCP options are ALL that was
  asked for, as the mask in front of `setup_pco` does not have them.
-/
import MixiPgw.Ctrl.ItemOrder
import MixiPgw.Ctrl.ResponsesV1

namespace MixiPgw.Ctrl

open Bytes List Option GtpcParseState

/-! ## 1. Containers as bytes -/

structure Container where
  id : UInt16
  contents : List UInt8
deriving DecidableEq, Repr

namespace Container

def octets (c : Container) : List UInt8 :=
  be16Bytes c.id.toNat ++ UInt8.ofNat c.contents.length :: c.contents

theorem length_octets (c : Container) : c.octets.length = 3 + c.contents.length := by
  simp [octets]
  omega

end Container

def containerOctets (containers : List Container) : List UInt8 :=
  containers.flatMap Container.octets

@[simp] theorem containerOctets_nil : containerOctets [] = [] := rfl

@[simp] theorem containerOctets_cons (c : Container) (rest : List Container) :
    containerOctets (c :: rest) = c.octets ++ containerOctets rest := rfl

/-- A PCO item of version 2; `pcoHead` is the option header. -/
def pcoItemOf (inst pcoHead : UInt8) (containers : List Container) : List UInt8 :=
  gtpcCommHeader gtpcTypePco ((containerOctets containers).length + 1) inst ++
    pcoHead :: containerOctets containers

def pcoElementOf (pcoHead : UInt8) (containers : List Container) : List UInt8 :=
  [gtpcV1IePco] ++ be16Bytes ((containerOctets containers).length + 1) ++
    pcoHead :: containerOctets containers

def FitsBoth (containers : List Container) : Prop :=
  (containerOctets containers).length + 5 < 258 ∧ (containerOctets containers).length + 1 < 258

instance (containers : List Container) : Decidable (FitsBoth containers) :=
  inferInstanceAs (Decidable (_ ∧ _))

def readV2 (stack : Nat → UInt8) (inst pcoHead : UInt8) (containers : List Container)
    (cs : GtpcParseState) : GtpcParseState :=
  let item := pcoItemOf inst pcoHead containers
  (onGtpcParseRoot stack gtpcTypePco (fun i => item.getD i 0) item.length cs).1

/-- `on_gtpcv1_parse_root` on the element; it is handed the length field. -/
def readV1 (stack : Nat → UInt8) (pcoHead : UInt8) (containers : List Container)
    (cs : GtpcParseState) : GtpcParseState :=
  let element := pcoElementOf pcoHead containers
  (onGtpcv1ParseRoot stack gtpcV1IePco (fun i => element.getD i 0)
    ((containerOctets containers).length + 1) cs).1

/-! ## 2. What containers ask for -/

/-- Byte `i` behind the header of a container: the contents, the containers that follow, then
zeros. -/
def blockByte (c : Container) (rest : List Container) (i : Nat) : UInt8 :=
  (c.contents ++ containerOctets rest).getD i 0

def ipcpHave (type : UInt8) : List Have :=
  if type = 0x81 then [.ipcpPDns] else if type = 0x83 then [.ipcpSDns] else []

/-- What a container asks for by its identifier; `filled` says whether one with contents counts. -/
def ownRequest (filled : Bool) (c : Container) : List Have :=
  if filled ∨ c.contents = [] then (pcoContainer c.id.toNat).toList else []

def asked (filled : Bool) : List Container → List Have
  | [] => []
  | c :: rest =>
    if c.id.toNat = 0x8021 then
      -- the IPCP block has its own length field, and one of another size ends the walk
      if be16 (blockByte c rest 2) (blockByte c rest 3) ≠ 16 then []
      else ipcpHave (blockByte c rest 4) ++ ipcpHave (blockByte c rest 10) ++ asked filled rest
    else ownRequest filled c ++ asked filled rest

def reached : List Container → List Container
  | [] => []
  | c :: rest =>
    if c.id.toNat = 0x8021 ∧ be16 (blockByte c rest 2) (blockByte c rest 3) ≠ 16 then []
    else c :: reached rest

/-- What is asked for with contents is asked for without contents, too. -/
def AskedEmpty (containers : List Container) : Prop :=
  ∀ c ∈ reached containers, ∀ h ∈ pcoContainer c.id.toNat,
    ∃ c' ∈ reached containers, c'.contents = [] ∧ pcoContainer c'.id.toNat = some h

variable {filled : Bool} {c : Container} {h : Have}

theorem mem_ownRequest :
    h ∈ ownRequest filled c ↔
      (filled = true ∨ c.contents = []) ∧ pcoContainer c.id.toNat = some h := by
  unfold ownRequest
  split
  · rename_i hf
    simp [hf]
  · rename_i hf
    simp only [not_mem_nil, false_iff]
    rintro ⟨hf', -⟩
    exact hf hf'

variable {type : Nat}

theorem pcoContainer_not_ipcp (hc : pcoContainer type = some h) (t : UInt8) : h ∉ ipcpHave t := by
  have hother : ∀ h ∈ containerRequests, h ∉ [Have.ipcpPDns] ∧ h ∉ [Have.ipcpSDns] := by decide
  obtain ⟨hp, hs⟩ := hother h (mem_containerRequests hc)
  unfold ipcpHave
  repeat' split
  · exact hp
  · exact hs
  · exact not_mem_nil

theorem mem_asked_iff {f : Bool} (hh : pcoContainer type = some h) :
    ∀ containers : List Container, h ∈ asked f containers ↔
      ∃ c ∈ reached containers, (f = true ∨ c.contents = []) ∧ pcoContainer c.id.toNat = some h
  | [] => by simp [asked, reached]
  | c :: rest => by
    have ih := mem_asked_iff (f := f) hh rest
    by_cases hid : c.id.toNat = 0x8021
    · by_cases hsize : be16 (blockByte c rest 2) (blockByte c rest 3) ≠ 16
      · simp [asked, reached, hid, hsize]
      · have hnone : pcoContainer c.id.toNat ≠ some h := by
          rw [hid]
          exact fun hc => absurd hc (by simp [pcoContainer])
        have hipcp (t : UInt8) := pcoContainer_not_ipcp hh t
        have hreach : reached (c :: rest) = c :: reached rest := if_neg fun hbad => hsize hbad.2
        have hask : asked f (c :: rest) = ipcpHave (blockByte c rest 4) ++
            ipcpHave (blockByte c rest 10) ++ asked f rest := by
          rw [asked, if_pos hid, if_neg hsize]
        rw [hask, hreach, mem_append, mem_append]
        simp only [hipcp, false_or, mem_cons, exists_eq_or_imp, hnone, and_false, ih]
    · have hreach : reached (c :: rest) = c :: reached rest := if_neg fun hbad => hid hbad.1
      rw [asked, if_neg hid, hreach, mem_append, mem_ownRequest]
      simp only [mem_cons, exists_eq_or_imp, ih]

theorem mem_asked_ipcp (hh : ∀ type, pcoContainer type ≠ some h) :
    ∀ containers : List Container, h ∈ asked true containers ↔ h ∈ asked false containers
  | [] => Iff.rfl
  | c :: rest => by
    have ih := mem_asked_ipcp hh rest
    have hown (filled : Bool) : h ∉ ownRequest filled c := fun hm =>
      hh _ (mem_ownRequest.mp hm).2
    simp only [asked]
    split
    · split
      · exact Iff.rfl
      · simp only [mem_append, ih]
    · simp only [mem_append, hown, false_or, ih]

/-- The two versions ask for the same exactly when every request with contents is repeated
without. -/
theorem asked_alike_iff (containers : List Container) :
    (∀ h, h ∈ asked true containers ↔ h ∈ asked false containers) ↔ AskedEmpty containers := by
  constructor
  · intro hsame c hc h hh
    have hmem : h ∈ asked true containers := (mem_asked_iff hh containers).mpr ⟨c, hc, .inl rfl, hh⟩
    obtain ⟨c', hc', hempty, hh'⟩ := (mem_asked_iff hh containers).mp ((hsame h).mp hmem)
    exact ⟨c', hc', hempty.resolve_left Bool.false_ne_true, hh'⟩
  · intro hempty h
    by_cases hkind : ∃ type, pcoContainer type = some h
    · obtain ⟨type, htype⟩ := hkind
      rw [mem_asked_iff htype, mem_asked_iff htype]
      constructor
      · rintro ⟨c, hc, -, hh⟩
        obtain ⟨c', hc', hno, hh'⟩ := hempty c hc h hh
        exact ⟨c', hc', .inr hno, hh'⟩
      · rintro ⟨c, hc, -, hh⟩
        exact ⟨c, hc, .inl rfl, hh⟩
    · exact mem_asked_ipcp (not_exists.mp hkind) containers

/-! ## 3. The two loops -/

/-- From `offset` on, a PCO field holds the containers and then zeros, up to the end of the images
behind it. -/
def ReadsAs (pco : Nat → UInt8) (offset : Nat) (containers : List Container) : Prop :=
  ∀ i, offset + i < 337 → pco (offset + i) = (containerOctets containers).getD i 0

variable {pco : Nat → UInt8} {offset : Nat} {rest : List Container}

theorem ReadsAs.head (h : ReadsAs pco offset (c :: rest))
    (hend : offset + (containerOctets (c :: rest)).length ≤ 252) :
    be16 (pco offset) (pco (offset + 1)) = c.id.toNat ∧
      (pco (offset + 2)).toNat = c.contents.length ∧
      (∀ i < 20, pco (offset + 3 + i) = blockByte c rest i) ∧
      ReadsAs pco (offset + 3 + c.contents.length) rest := by
  have hlen := c.length_octets
  simp only [containerOctets_cons, length_append] at hend
  have hbyte (i : Nat) (hi : offset + i < 337) :
      pco (offset + i) =
        (be16Bytes c.id.toNat ++ UInt8.ofNat c.contents.length ::
          (c.contents ++ containerOctets rest)).getD i 0 := by
    rw [h i hi, containerOctets_cons, Container.octets, append_assoc, cons_append]
  have hbehind (i : Nat) (hi : offset + 3 + i < 337) :
      pco (offset + 3 + i) = (c.contents ++ containerOctets rest).getD i 0 := by
    rw [Nat.add_assoc, hbyte _ (by omega), Nat.add_comm 3 i]
    rfl
  refine ⟨?_, ?_, fun i hi => hbehind i (by omega), fun i hi => ?_⟩
  · rw [show pco offset = _ from hbyte 0 (by omega), hbyte 1 (by omega)]
    exact be16_ofNat _ c.id.toNat_lt
  · rw [hbyte 2 (by omega)]
    exact UInt8.toNat_ofNat_of_lt' (by simp only [UInt8.size]; omega)
  · rw [Nat.add_assoc (offset + 3), hbehind _ (by omega)]
    rw [getD_append_right _ _ _ _ (by omega), Nat.add_sub_cancel_left]

theorem flag_ipcpOption (type : UInt8) (cs : GtpcParseState) (h : Have) :
    (ipcpOption type cs).flag h = (decide (h ∈ ipcpHave type) || cs.flag h) ∧
      (ipcpOption type cs).flagV1 h = (decide (h ∈ ipcpHave type) || cs.flagV1 h) := by
  unfold ipcpOption ipcpHave
  split
  · simp [setFlag]
  · split
    · simp [setFlag]
    · simp

theorem raised_append (h : Have) (xs ys : List Have) (b : Bool) :
    (decide (h ∈ ys) || (decide (h ∈ xs) || b)) = (decide (h ∈ xs ++ ys) || b) := by
  simp only [mem_append, Bool.decide_or]
  cases decide (h ∈ ys) <;> simp

theorem resOrder_not_asked (filled : Bool) (c : Container) (t : UInt8) :
    .resOrder ∉ ownRequest filled c ∧ .resOrder ∉ ipcpHave t := by
  constructor
  · intro hm
    exact absurd (mem_containerRequests (mem_ownRequest.mp hm).2) (by decide)
  · unfold ipcpHave
    repeat' split
    all_goals simp

/-- A loop that raises the flags of the containers' identifiers raises those of all they ask for.
Its bound may be one short of the containers' end, which no container of three bytes notices. -/
theorem PcoLoop.raises {request : Nat → Nat → GtpcParseState → GtpcParseState} {len : Nat}
    {loop : Nat → Nat → GtpcParseState → GtpcParseState} {get : GtpcParseState → Have → Bool}
    (hloop : PcoLoop request pco len loop)
    (hrequest : ∀ (c : Container) cs, filled = true ∨ get cs .resOrder = false → ∀ h,
      get (request c.id.toNat c.contents.length cs) h =
        (decide (h ∈ ownRequest filled c) || get cs h))
    (hipcp : ∀ type cs h, get (ipcpOption type cs) h = (decide (h ∈ ipcpHave type) || get cs h)) :
    ∀ (containers : List Container) {n offset : Nat} {cs : GtpcParseState},
    ReadsAs pco offset containers → offset + (containerOctets containers).length ≤ 252 →
    len ≤ offset + (containerOctets containers).length →
    offset + (containerOctets containers).length ≤ len + 1 → containers.length ≤ n →
    filled = true ∨ get cs .resOrder = false → ∀ h,
      get (loop n offset cs) h = (decide (h ∈ asked filled containers) || get cs h)
  | [], n, offset, cs, _, _, hle, _, _, _, h => by
    have hstop : loop n offset cs = cs := by
      cases n with
      | zero => exact hloop.zero offset cs
      | succ n =>
        rw [hloop.succ]
        exact if_neg (Nat.not_lt.mpr hle)
    simp [hstop, asked]
  | c :: rest, 0, _, _, _, _, _, _, hn, _, _ => absurd hn (by simp)
  | c :: rest, n + 1, offset, cs, hreads, hend, hle, hlen, hn, hres, h => by
    obtain ⟨htype, hpilen, hblock, hrest⟩ := hreads.head hend
    have hoct := c.length_octets
    simp only [containerOctets_cons, length_append, length_cons] at hend hle hlen hn
    have hlt : offset < len := by omega
    have hown := hrequest c cs hres
    rw [hloop.succ, pcoTurn, if_pos hlt, htype, hpilen]
    dsimp only
    generalize request c.id.toNat c.contents.length cs = cs1 at hown ⊢
    have hres1 : filled = true ∨ get cs1 .resOrder = false := hres.imp_right fun hres => by
      rw [hown, hres]
      simp [(resOrder_not_asked filled c 0).1]
    by_cases hid : c.id.toNat = 0x8021
    · have hnone : ownRequest filled c = [] := by
        unfold ownRequest
        rw [hid]
        split <;> rfl
      rw [if_pos hid, asked, if_pos hid, gtpcIteratePcoIpcpItem, hblock 2 (by decide),
        hblock 3 (by decide), hblock 4 (by decide), hblock 10 (by decide)]
      by_cases hsize : be16 (blockByte c rest 2) (blockByte c rest 3) ≠ 16
      · rw [if_pos hsize, if_pos hsize, hown, hnone]
      · rw [if_neg hsize, if_neg hsize]
        have hres2 := hres1.imp_right fun hres1 => show
            get (ipcpOption (blockByte c rest 10) (ipcpOption (blockByte c rest 4) cs1)) .resOrder =
              false by
          rw [hipcp, hipcp, hres1]
          simp [(resOrder_not_asked filled c _).2]
        dsimp only
        rw [PcoLoop.raises hloop hrequest hipcp rest hrest (by omega) (by omega) (by omega) (by omega)
          hres2, hipcp, hipcp, hown, hnone, raised_append, raised_append, raised_append, nil_append,
          append_assoc]
    · rw [if_neg hid, asked, if_neg hid]
      rw [PcoLoop.raises hloop hrequest hipcp rest hrest (by omega) (by omega) (by omega) (by omega)
        hres1, hown, raised_append]

/-- Version 2 raises the flags of the containers without contents. -/
theorem flag_requestV2 (c : Container) (cs : GtpcParseState)
    (hres : false = true ∨ cs.flag .resOrder = false) (h : Have) :
    (requestV2 c.id.toNat c.contents.length cs).flag h =
      (decide (h ∈ ownRequest false c) || cs.flag h) := by
  have hres := hres.resolve_left Bool.false_ne_true
  unfold requestV2
  by_cases hempty : c.contents = []
  · cases hc : pcoContainer c.id.toNat with
    | none => simp [ownRequest, hempty, hc]
    | some g => simp [ownRequest, hempty, hc, setFlag]
  · rw [if_neg (by simp [hempty, hres])]
    simp [ownRequest, hempty]

theorem flagV1_requestV1 (c : Container) (cs : GtpcParseState)
    (_ : true = true ∨ cs.flagV1 .resOrder = false) (h : Have) :
    (requestV1 c.id.toNat c.contents.length cs).flagV1 h =
      (decide (h ∈ ownRequest true c) || cs.flagV1 h) := by
  unfold requestV1
  cases hc : pcoContainer c.id.toNat with
  | none => simp [ownRequest, hc]
  | some g => simp [ownRequest, hc, GtpcParseState.haveV1, setFlag]

/-! ## 4. The two callbacks -/

def pcoRequests : List Have :=
  [.dnsIpv4, .dnsIpv6, .ipv4LinkMtu, .nonipLinkMtu, .ipcpPDns, .ipcpSDns]

/-- A parse state without a PCO or an item behind it. -/
structure Fresh (cs : GtpcParseState) : Prop where
  flags : ∀ h ∈ pcoRequests, cs.flag h = false ∧ cs.flagV1 h = false
  request : cs.flag .resOrder = false
  images : ∀ s ∈ Slot.pco :: slotsBehindPco, cs.item s = replicate s.size 0

theorem fresh_zero : Fresh GtpcParseState.zero where
  flags := fun _ _ => ⟨rfl, rfl⟩
  request := rfl
  images := fun _ _ => rfl

def RequestsAlike (v2 v1 : GtpcParseState) : Prop := ∀ h ∈ pcoRequests, v2.flag h = v1.flagV1 h

theorem asked_pcoRequests :
    ∀ {containers : List Container}, h ∈ asked filled containers → h ∈ pcoRequests
  | [], hm => absurd hm (by simp [asked])
  | c :: rest, hm => by
    have hipcp {t : UInt8} (ht : h ∈ ipcpHave t) : h ∈ pcoRequests := by
      unfold ipcpHave at ht
      repeat' split at ht
      all_goals simp_all [pcoRequests]
    have hown (ho : h ∈ ownRequest filled c) : h ∈ pcoRequests := by
      have hmem := mem_containerRequests (mem_ownRequest.mp ho).2
      simp only [containerRequests, pcoRequests, mem_cons] at hmem ⊢
      tauto
    simp only [asked] at hm
    split at hm
    · split at hm
      · exact absurd hm (by simp)
      · rcases mem_append.mp hm with hm | hm
        · rcases mem_append.mp hm with hm | hm
          · exact hipcp hm
          · exact hipcp hm
        · exact asked_pcoRequests hm
    · rcases mem_append.mp hm with hm | hm
      · exact hown hm
      · exact asked_pcoRequests hm

theorem length_le_octets : ∀ containers : List Container,
    containers.length ≤ (containerOctets containers).length
  | [] => Nat.le_refl 0
  | c :: rest => by
    have ih := length_le_octets rest
    have hoct := c.length_octets
    simp only [containerOctets_cons, length_append, length_cons]
    omega

variable {cs : GtpcParseState}

theorem slotsBehind_zeros (hbehind : ∀ s ∈ slotsBehindPco, cs.item s = replicate s.size 0) :
    slotsBehindPco.flatMap cs.item = replicate 84 0 := by
  simp only [slotsBehindPco, mem_cons, not_mem_nil, or_false, forall_eq_or_imp,
    forall_eq] at hbehind
  obtain ⟨h1, h2, h3, h4, h5, h6, h7⟩ := hbehind
  simp only [slotsBehindPco, flatMap_cons, flatMap_nil, h1, h2, h3, h4, h5, h6, h7, Slot.size]
  rfl

variable {containers : List Container}

theorem readsAs_pcoByte (stack : Nat → UInt8) (hfits : FitsBoth containers)
    (hpco : ∀ i < 253, (cs.item .pco).getD (5 + i) 0 = (containerOctets containers).getD i 0)
    (hbehind : ∀ s ∈ slotsBehindPco, cs.item s = replicate s.size 0) :
    ReadsAs (pcoByte stack cs) 0 containers := by
  intro i hi
  obtain ⟨hfits, -⟩ := hfits
  rw [Nat.zero_add] at hi ⊢
  by_cases h253 : i < 253
  · rw [pcoByte, if_pos h253, hpco i h253]
  · have hpast : (containerOctets containers).getD i 0 = 0 :=
      getD_eq_default _ _ (by omega)
    rw [pcoByte, if_neg h253, slotsBehind_zeros hbehind, hpast,
      getD_eq_getElem _ _ (by rw [length_replicate]; omega), getElem_replicate]

theorem getD_zeros (n i : Nat) : (replicate n (0 : UInt8)).getD i 0 = 0 := by
  rw [getD_eq_getElem?_getD, getElem?_replicate]
  split <;> rfl

theorem length_pcoItemOf (inst pcoHead : UInt8) (containers : List Container) :
    (pcoItemOf inst pcoHead containers).length = (containerOctets containers).length + 5 := by
  simp [pcoItemOf]
  omega

theorem getD_pcoItemOf (inst pcoHead : UInt8) (containers : List Container) (i : Nat) :
    (pcoItemOf inst pcoHead containers).getD (5 + i) 0 = (containerOctets containers).getD i 0 := by
  rw [Nat.add_comm]
  rfl

theorem getD_pcoElementOf (pcoHead : UInt8) (containers : List Container) (i : Nat) :
    (pcoElementOf pcoHead containers).getD (4 + i) 0 = (containerOctets containers).getD i 0 := by
  rw [Nat.add_comm]
  rfl

theorem haveV1_item (cs : GtpcParseState) (h : Have) : (cs.haveV1 h).item = cs.item := rfl

section

variable {containers : List Container} {cs : GtpcParseState} (stack : Nat → UInt8)
  (inst pcoHead : UInt8)

theorem getD_stored (hfits : FitsBoth containers) (hfresh : Fresh cs) (i : Nat) :
    (overwrite (cs.item .pco) (fun i => (pcoItemOf inst pcoHead containers).getD i 0)
      (pcoItemOf inst pcoHead containers).length).getD i 0 =
      (pcoItemOf inst pcoHead containers).getD i 0 := by
  by_cases hi : i < (pcoItemOf inst pcoHead containers).length
  · exact getD_overwrite _ _ hi
  · have hroom : 0 + (pcoItemOf inst pcoHead containers).length ≤ (cs.item .pco).length := by
      rw [hfresh.images .pco (by simp), length_pcoItemOf, length_replicate]
      have := hfits.1
      simp only [Slot.size]
      omega
    rw [overwrite, getD_splice (by simpa using hroom), if_neg (by simpa using hi),
      hfresh.images .pco (by simp), getD_zeros, getD_eq_default _ _ (Nat.le_of_not_lt hi)]

theorem readV2_eq (hfits : FitsBoth containers) :
    readV2 stack inst pcoHead containers cs =
      onPco stack (cs.store .pco (fun i => (pcoItemOf inst pcoHead containers).getD i 0)
        (pcoItemOf inst pcoHead containers).length) := by
  have hslot : rootSlot gtpcTypePco = some .pco := by decide
  have hok : Slot.pco.fits (pcoItemOf inst pcoHead containers).length = true := by
    exact decide_eq_true hfits.1
  simp only [readV2, onGtpcParseRoot, hslot, if_pos hok]

/-- Where the version-2 loop starts: the item in its image, no flag but `HAVE_PCO`, and unknown
memory from byte 337 on. -/
theorem readV2_start (hfits : FitsBoth containers) (hfresh : Fresh cs) :
    ∃ cs1, readV2 stack inst pcoHead containers cs = pcoLoop (pcoByte stack cs1)
        (((containerOctets containers).length + 1 + 2 ^ 64 - 2) % 2 ^ 64) 255 0 cs1 ∧
      ReadsAs (pcoByte stack cs1) 0 containers ∧
      (∀ i ≥ 337, pcoByte stack cs1 i = stack i) ∧ ∀ g, g ≠ .pco → cs1.flag g = cs.flag g := by
  have hok : Slot.pco.fits (pcoItemOf inst pcoHead containers).length = true := by
    rw [length_pcoItemOf]
    exact decide_eq_true hfits.1
  have himage := fun i => getD_stored inst pcoHead hfits hfresh i
  rw [← store_item hok] at himage
  have hbehind (s : Slot) (hs : s ∈ slotsBehindPco) :
      (cs.store .pco (fun i => (pcoItemOf inst pcoHead containers).getD i 0)
        (pcoItemOf inst pcoHead containers).length).item s = replicate s.size 0 := by
    have hne : s ≠ .pco := by rintro rfl; exact absurd hs (by decide)
    simp only [GtpcParseState.store, hok, if_true, if_neg hne]
    exact hfresh.images s (mem_cons_of_mem _ hs)
  refine ⟨cs.store .pco (fun i => (pcoItemOf inst pcoHead containers).getD i 0)
    (pcoItemOf inst pcoHead containers).length, ?_, ?_, fun i hi => ?_, fun g hg => ?_⟩
  · have hlength : be16 ((pcoItemOf inst pcoHead containers).getD 1 0)
        ((pcoItemOf inst pcoHead containers).getD 2 0) = (containerOctets containers).length + 1 :=
      be16_ofNat _ (by have := hfits.1; omega)
    rw [readV2_eq stack inst pcoHead hfits, onPco, himage, himage, hlength]
  · exact readsAs_pcoByte stack hfits
      (fun i _ => (himage (5 + i)).trans (getD_pcoItemOf inst pcoHead containers i)) hbehind
  · rw [pcoByte, if_neg (by omega), slotsBehind_zeros hbehind,
      getD_eq_default _ _ (by rw [length_replicate]; omega)]
  · simp [GtpcParseState.store, hok, setFlag, Slot.have, hg]

variable {h : Have}

theorem readV2_flag (hfits : FitsBoth containers) (hne : containers ≠ []) (hfresh : Fresh cs)
    (hh : h ∈ pcoRequests) :
    (readV2 stack inst pcoHead containers cs).flag h = decide (h ∈ asked false containers) := by
  have hlong := length_le_octets containers
  have hpos := length_pos_iff.mpr hne
  obtain ⟨cs1, hloop, hreads, -, hkeep⟩ := readV2_start stack inst pcoHead hfits hfresh
  have hres : cs1.flag .resOrder = false := by rw [hkeep _ (by decide), hfresh.request]
  have hstart : cs1.flag h = false := by
    rw [hkeep h (by rintro rfl; exact absurd hh (by decide)), (hfresh.flags h hh).1]
  obtain ⟨hfits2, -⟩ := hfits
  rw [hloop, (pcoLoop_isLoop _ _).raises flag_requestV2 (fun t cs h => (flag_ipcpOption t cs h).1)
    containers hreads (by omega) (by omega) (by omega) (by omega) (.inr hres) h, hstart, Bool.or_false]

theorem onPcoV1_start (data : Nat → UInt8) (datalen : Nat) (cs : GtpcParseState) :
    ∃ cs1, onPcoV1 stack data datalen cs = pcoLoopV1 (pcoByte stack cs1) (datalen - 1) 255 0 cs1 ∧
      cs1.item .pco = (splice (cs.item .pco ++ cs.item .paa) 4 (ieBytes data 3 datalen)).take 258 ∧
      cs1.item .paa = (splice (cs.item .pco ++ cs.item .paa) 4 (ieBytes data 3 datalen)).drop 258 ∧
      (∀ s, s ≠ .pco → s ≠ .paa → cs1.item s = cs.item s) ∧ cs1.flagV1 = cs.flagV1 := by
  refine ⟨_, rfl, rfl, rfl, fun s h1 h2 => ?_, rfl⟩
  simp only [if_neg h1, if_neg h2]

/-- The PCO image and its neighbour after the copy of a version-1 element. -/
def copiedV1 (pcoHead : UInt8) (containers : List Container) (cs : GtpcParseState) : List UInt8 :=
  splice (cs.item .pco ++ cs.item .paa) 4
    (ieBytes (fun i => (pcoElementOf pcoHead containers).getD i 0) 3
      ((containerOctets containers).length + 1))

theorem copiedV1_spec (hfits : FitsBoth containers) (hfresh : Fresh cs) :
    (copiedV1 pcoHead containers cs).length = 284 ∧
      ∀ j, (copiedV1 pcoHead containers cs).getD (5 + j) 0 =
        (containerOctets containers).getD j 0 := by
  obtain ⟨hfits2, -⟩ := hfits
  have himages : cs.item .pco ++ cs.item .paa = replicate 284 0 := by
    rw [hfresh.images .pco (by simp), hfresh.images .paa (by decide), ← replicate_add]
    rfl
  have hroom : 4 + (ieBytes (fun i => (pcoElementOf pcoHead containers).getD i 0) 3
      ((containerOctets containers).length + 1)).length ≤
      (cs.item .pco ++ cs.item .paa).length := by
    rw [himages, length_replicate, ieBytes, length_map, length_range]
    omega
  constructor
  · rw [copiedV1, length_splice hroom, himages, length_replicate]
  · intro j
    rw [copiedV1, getD_splice hroom]
    split
    · rename_i hin
      simp only [ieBytes, length_map, length_range] at hin
      rw [ieBytes, getD_eq_getElem _ _ (by simp; omega), getElem_map,
        getElem_range, show 3 + (5 + j - 4) = 4 + j by omega]
      exact getD_pcoElementOf pcoHead containers j
    · rename_i hout
      simp only [ieBytes, length_map, length_range] at hout
      rw [himages, getD_zeros, getD_eq_default _ _ (by omega)]

theorem readV1_eq (hfits : FitsBoth containers) :
    readV1 stack pcoHead containers cs =
      onPcoV1 stack (fun i => (pcoElementOf pcoHead containers).getD i 0)
        ((containerOctets containers).length + 1) ((cs.haveV1 .v1).haveV1 .v1Pco) := by
  have hsmall : ¬ (containerOctets containers).length + 1 ≥ 258 := Nat.not_le.mpr hfits.2
  simp only [readV1, onGtpcv1ParseRoot, onOtherElement, copyRule, if_neg hsmall]
  rfl

theorem readV1_flagV1 (hfits : FitsBoth containers) (hfresh : Fresh cs) (hh : h ∈ pcoRequests) :
    (readV1 stack pcoHead containers cs).flagV1 h = decide (h ∈ asked true containers) := by
  have hlong := length_le_octets containers
  obtain ⟨hlen, hcopied⟩ := copiedV1_spec pcoHead hfits hfresh
  obtain ⟨cs1, hloop, hpco, hpaa, hothers, hflag⟩ := onPcoV1_start stack
    (fun i => (pcoElementOf pcoHead containers).getD i 0) ((containerOctets containers).length + 1)
    ((cs.haveV1 .v1).haveV1 .v1Pco)
  simp only [haveV1_item] at hpco hpaa hothers
  rw [← copiedV1] at hpco hpaa
  have hreads : ReadsAs (pcoByte stack cs1) 0 containers := by
    refine readsAs_pcoByte stack hfits (fun i hi => ?_) fun s hs => ?_
    · rw [hpco, getD_eq_getElem?_getD, getElem?_take_of_lt (by omega),
        ← getD_eq_getElem?_getD, hcopied]
    · by_cases hs' : s = .paa
      · rw [hs', hpaa]
        refine ext_getD (by rw [length_drop, hlen, length_replicate]; rfl) fun j _ => ?_
        rw [getD_eq_getElem?_getD, getElem?_drop, ← getD_eq_getElem?_getD,
          show 258 + j = 5 + (253 + j) by omega, hcopied, getD_zeros,
          getD_eq_default _ _ (by have := hfits.1; omega)]
      · have hne : s ≠ .pco := by rintro rfl; exact absurd hs (by decide)
        rw [hothers s hne hs', hfresh.images s (mem_cons_of_mem _ hs)]
  have hstart : cs1.flagV1 h = false := by
    have hv1 : h ≠ .v1 := by rintro rfl; exact absurd hh (by decide)
    have hv1Pco : h ≠ .v1Pco := by rintro rfl; exact absurd hh (by decide)
    simp [hflag, haveV1, setFlag, hv1, hv1Pco, (hfresh.flags h hh).2]
  obtain ⟨hfits2, -⟩ := hfits
  rw [readV1_eq stack pcoHead ⟨hfits2, by omega⟩, hloop,
    (pcoLoopV1_isLoop _ _).raises flagV1_requestV1 (fun t cs h => (flag_ipcpOption t cs h).2)
      containers hreads (by omega) (by omega) (by omega) (by omega) (.inl rfl) h, hstart, Bool.or_false]

/-- Without containers the length of version 2 runs below zero: the walk goes through the zeros of
the field, three bytes a turn, and on behind the parse state. -/
theorem pcoLoop_zeros {pco : Nat → UInt8} {len n : Nat} {cs : GtpcParseState} :
    ∀ (k : Nat) {offset : Nat}, (∀ i < 3 * k, pco (offset + i) = 0) → offset + 3 * k ≤ len →
      pcoLoop pco len (k + n) offset cs = pcoLoop pco len n (offset + 3 * k) cs
  | 0, _, _, _ => by rw [Nat.zero_add, Nat.mul_zero, Nat.add_zero]
  | k + 1, offset, hzero, hlen => by
    have h0 : pco offset = 0 := hzero 0 (by omega)
    have htail (i : Nat) (hi : i < 3 * k) : pco (offset + 3 + i) = 0 := by
      rw [Nat.add_assoc]
      exact hzero (3 + i) (by omega)
    have hend : offset + 3 + 3 * k ≤ len := by omega
    have hrest : pcoLoop pco len (k + n) (offset + 3) cs =
        pcoLoop pco len n (offset + 3 + 3 * k) cs := pcoLoop_zeros k htail hend
    have hlt : offset < len := by omega
    rw [show k + 1 + n = k + n + 1 by omega, pcoLoop, if_pos hlt, h0,
      hzero 1 (by omega), hzero 2 (by omega)]
    have hgo : pcoContainer (be16 0 0) = none := by decide
    simp only [hgo, ite_self, if_neg (show ¬ be16 0 0 = 0x8021 by decide)]
    rw [show (0 : UInt8).toNat = 0 from rfl, Nat.add_zero, hrest,
      show offset + 3 * (k + 1) = offset + 3 + 3 * k by omega]

theorem readV2_none (hfresh : Fresh cs) :
    (readV2 (fun i => if i = 763 then 0x0d else 0) inst pcoHead [] cs).flag .dnsIpv4 = true := by
  obtain ⟨cs1, hloop, hreads, hpast, -⟩ :=
    readV2_start (fun i => if i = 763 then 0x0d else 0) inst pcoHead
      (show FitsBoth [] by decide) hfresh
  have hbyte (i : Nat) (hi : i ≠ 763) :
      pcoByte (fun i => if i = 763 then 0x0d else 0) cs1 i = 0 := by
    by_cases h337 : i < 337
    · have h := hreads i (by omega)
      rw [Nat.zero_add] at h
      exact h
    · rw [hpast i (by omega), if_neg hi]
  -- 254 turns over zeros; the last one finds a DNS container
  have hturns : pcoLoop (pcoByte (fun i => if i = 763 then 0x0d else 0) cs1)
      ((0 + 1 + 2 ^ 64 - 2) % 2 ^ 64) (254 + 1) 0 cs1 =
      pcoLoop (pcoByte (fun i => if i = 763 then 0x0d else 0) cs1)
        ((0 + 1 + 2 ^ 64 - 2) % 2 ^ 64) 1 762 cs1 :=
    pcoLoop_zeros 254 (fun i hi => hbyte (0 + i) (by omega)) (by decide)
  rw [hloop]
  refine (congrArg (fun cs => cs.flag Have.dnsIpv4) hturns).trans ?_
  rw [pcoLoop, if_pos (by decide), hbyte 762 (by decide),
    hpast 763 (by decide), hbyte 764 (by decide)]
  simp only [if_true]
  rfl

end

/-- **When the two versions read a PCO alike**, whatever lies behind the two parse states: the item
has containers, and none of the requests stands only in containers with contents. -/
theorem pco_read_alike_iff (inst pcoHead : UInt8) (containers : List Container)
    (hfits : FitsBoth containers) :
    (∀ stack stack' cs cs', Fresh cs → Fresh cs' →
      RequestsAlike (readV2 stack inst pcoHead containers cs)
        (readV1 stack' pcoHead containers cs')) ↔
      containers ≠ [] ∧ AskedEmpty containers := by
  constructor
  · intro halike
    have hne : containers ≠ [] := by
      rintro rfl
      have hdns := halike (fun i => if i = 763 then 0x0d else 0) (fun _ => 0) _ _ fresh_zero
        fresh_zero .dnsIpv4 (by decide)
      rw [readV2_none inst pcoHead fresh_zero,
        readV1_flagV1 _ pcoHead hfits fresh_zero (by decide)] at hdns
      exact absurd hdns (by decide)
    refine ⟨hne, (asked_alike_iff containers).mp fun h => ?_⟩
    by_cases hh : h ∈ pcoRequests
    · have hflag := halike (fun _ => 0) (fun _ => 0) _ _ fresh_zero fresh_zero h hh
      rw [readV2_flag _ inst pcoHead hfits hne fresh_zero hh,
        readV1_flagV1 _ pcoHead hfits fresh_zero hh] at hflag
      exact (decide_eq_decide.mp hflag).symm
    · exact ⟨fun hm => absurd (asked_pcoRequests hm) hh, fun hm => absurd (asked_pcoRequests hm) hh⟩
  · rintro ⟨hne, hempty⟩ stack stack' cs cs' hcs hcs' h hh
    rw [readV2_flag stack inst pcoHead hfits hne hcs hh, readV1_flagV1 stack' pcoHead hfits hcs' hh]
    exact decide_eq_decide.mpr ((asked_alike_iff containers).mpr hempty h).symm

/-- DNS servers of both families as handsets ask for them, with empty containers; one request stands
in a container with contents, too. -/
def dnsContainers : List Container := [⟨0x000d, [8, 8, 8, 8]⟩, ⟨0x000d, []⟩, ⟨0x0003, []⟩]

theorem pco_read_alike_dns :
    FitsBoth dnsContainers ∧ ∀ stack stack' cs cs', Fresh cs → Fresh cs' →
      RequestsAlike (readV2 stack 0 0x80 dnsContainers cs)
        (readV1 stack' 0x80 dnsContainers cs') := by
  refine ⟨by decide, (pco_read_alike_iff 0 0x80 _ (by decide)).mpr ⟨by decide, ?_⟩⟩
  unfold AskedEmpty
  decide

/-- With an address in it: version 1 takes it for a request, version 2 does not. -/
theorem pco_filled_container_differs :
    FitsBoth [⟨0x000d, [8, 8, 8, 8]⟩] ∧
      (readV2 (fun _ => 0) 0 0x80 [⟨0x000d, [8, 8, 8, 8]⟩] GtpcParseState.zero).flag .dnsIpv4 =
        false ∧
      (readV1 (fun _ => 0) 0x80 [⟨0x000d, [8, 8, 8, 8]⟩] GtpcParseState.zero).flagV1 .dnsIpv4 =
        true := by
  decide +kernel

/-! ## 5. The answer -/

inductive PcoKind
  | dnsIpv4
  | dnsIpv6
  | linkMtu
  | ipcpDns
deriving DecidableEq, Repr

/-- A request for the kind; the IPCP options count when both are there. -/
def PcoKind.requested (flag : Have → Bool) : PcoKind → Prop
  | .dnsIpv4 => flag .dnsIpv4 = true
  | .dnsIpv6 => flag .dnsIpv6 = true
  | .linkMtu => flag .ipv4LinkMtu = true ∨ flag .nonipLinkMtu = true
  | .ipcpDns => flag .ipcpPDns = true ∧ flag .ipcpSDns = true

inductive Family
  | ipv4
  | ipv6
deriving DecidableEq, Repr

/-- Create Session grants IPv6 where the PDN type asks for it. -/
def grantedFamily (cs : GtpcParseState) : Family :=
  if cs.flag .pdn ∧ pdnType (cs.item .pdn) = 2 then .ipv6 else .ipv4

/-- The container has the identifier and the size of the answer. A request for DNS servers of both
families gets those of the granted one. -/
def PcoKind.AnsweredBy (granted : Family) (flag : Have → Bool) (c : Container) : PcoKind → Prop
  | .dnsIpv4 =>
    (c.id = 0x000d ∧ c.contents.length = 4) ∨
      (flag .dnsIpv6 = true ∧ granted = .ipv6 ∧ c.id = 0x0003 ∧ c.contents.length = 16)
  | .dnsIpv6 =>
    (c.id = 0x0003 ∧ c.contents.length = 16) ∨
      (flag .dnsIpv4 = true ∧ granted = .ipv4 ∧ c.id = 0x000d ∧ c.contents.length = 4)
  | .linkMtu =>
    ((flag .ipv4LinkMtu = true ∧ c.id = 0x0010) ∨ (flag .nonipLinkMtu = true ∧ c.id = 0x0015)) ∧
      c.contents.length = 2
  | .ipcpDns => c.id = 0x8021 ∧ c.contents.length = 16

/-- The containers fit into a response, and one of them answers each request. -/
structure Answers (granted : Family) (flag : Have → Bool) (containers : List Container) : Prop where
  fits : (containerOctets containers).length ≤ 253
  each : ∀ k : PcoKind, k.requested flag → ∃ c ∈ containers, k.AnsweredBy granted flag c

/-- `setup_pco` gives an item made of containers. -/
def AnsweredV2 (cs : GtpcParseState) : Prop :=
  ∃ pcoHead containers, setupPco cs = some (pcoItemOf 0 pcoHead containers) ∧
    Answers (grantedFamily cs) cs.flag containers

/-- `setup_pco_v1` gives an answer; version 1 grants IPv4. -/
def AnsweredV1 (cs : GtpcParseState) : Prop :=
  ∃ pcoHead containers, setupPcoV1 cs = some (pcoElementOf pcoHead containers) ∧
    Answers .ipv4 cs.flagV1 containers

def dnsIpv4Primary : Container := ⟨0x000d, [8, 8, 8, 8]⟩

def dnsIpv4Answer : List Container := [dnsIpv4Primary, ⟨0x000d, [8, 8, 4, 4]⟩]

def dnsIpv6Primary : Container :=
  ⟨0x0003, [0x20, 0x01, 0x48, 0x60, 0x48, 0x60, 0, 0, 0, 0, 0, 0, 0, 0, 0x88, 0x88]⟩

def dnsIpv6Answer : List Container :=
  [dnsIpv6Primary,
    ⟨0x0003, [0x20, 0x01, 0x48, 0x60, 0x48, 0x60, 0, 0, 0, 0, 0, 0, 0, 0, 0x88, 0x44]⟩]

def mtuAnswer (id : UInt16) : Container := ⟨id, [0x05, 0xb8]⟩

def ipcpAnswer : Container :=
  ⟨0x8021, [0x03, 0, 0, 0x10, 0x81, 0x06, 8, 8, 8, 8, 0x83, 0x06, 8, 8, 4, 4]⟩

/-- The containers of an answer; `both` goes to a request for DNS servers of both families. -/
def answerOf (both : List Container) (flag : Have → Bool) : List Container :=
  (if hasAll flag [.dnsIpv4, .dnsIpv6] then both
    else if flag .dnsIpv6 then dnsIpv6Answer
    else if flag .dnsIpv4 then dnsIpv4Answer else []) ++
  (if flag .nonipLinkMtu then [mtuAnswer 0x0015]
    else if flag .ipv4LinkMtu then [mtuAnswer 0x0010] else []) ++
  if hasAll flag [.ipcpSDns, .ipcpPDns] then [ipcpAnswer] else []

/-- What version 2 gives to a request for both families. -/
def bothV2 (cs : GtpcParseState) : List Container :=
  if cs.flag .pdn ∧ pdnType (cs.item .pdn) = 3 then dnsIpv4Answer else dnsIpv6Answer ++ dnsIpv4Answer

theorem containerOctets_append (a b : List Container) :
    containerOctets (a ++ b) = containerOctets a ++ containerOctets b :=
  flatMap_append

theorem containerOctets_ite {p : Prop} [Decidable p] (a b : List Container) :
    containerOctets (if p then a else b) = if p then containerOctets a else containerOctets b := by
  split <;> rfl

theorem octets_answerV2 (cs : GtpcParseState) :
    pcoDnsPart cs ++ pcoMtuPart cs ++ pcoIpcpPart cs =
      containerOctets (answerOf (bothV2 cs) cs.flag) := by
  simp only [answerOf, bothV2, containerOctets_append, containerOctets_ite]
  rfl

theorem octets_answerV1 (cs : GtpcParseState) :
    pcoDnsPartV1 cs ++ pcoMtuPartV1 cs ++ pcoIpcpPartV1 cs =
      containerOctets (answerOf dnsIpv4Answer cs.flagV1) := by
  simp only [answerOf, containerOctets_append, containerOctets_ite]
  rfl

variable {granted : Family}

theorem answerOf_each (flag : Have → Bool) {both : List Container}
    (hv4 : dnsIpv4Primary ∈ both) (hv6 : granted = .ipv6 → dnsIpv6Primary ∈ both) (k : PcoKind)
    (hk : k.requested flag) : ∃ c ∈ answerOf both flag, k.AnsweredBy granted flag c := by
  cases k with
  | dnsIpv4 =>
    have h4 : flag .dnsIpv4 = true := hk
    refine ⟨dnsIpv4Primary, ?_, .inl ⟨rfl, rfl⟩⟩
    refine mem_append_left _ (mem_append_left _ ?_)
    by_cases h6 : flag .dnsIpv6
    · simpa [hasAll, h4, h6] using hv4
    · simp [hasAll, h4, h6, dnsIpv4Answer]
  | dnsIpv6 =>
    have h6 : flag .dnsIpv6 = true := hk
    by_cases h4 : flag .dnsIpv4
    · cases granted with
      | ipv4 =>
        refine ⟨dnsIpv4Primary, ?_, .inr ⟨h4, rfl, rfl, rfl⟩⟩
        refine mem_append_left _ (mem_append_left _ ?_)
        simpa [hasAll, h4, h6] using hv4
      | ipv6 =>
        refine ⟨dnsIpv6Primary, ?_, .inl ⟨rfl, rfl⟩⟩
        refine mem_append_left _ (mem_append_left _ ?_)
        simpa [hasAll, h4, h6] using hv6 rfl
    · refine ⟨dnsIpv6Primary, ?_, .inl ⟨rfl, rfl⟩⟩
      refine mem_append_left _ (mem_append_left _ ?_)
      simp [hasAll, h4, h6, dnsIpv6Answer]
  | linkMtu =>
    by_cases hnonip : flag .nonipLinkMtu
    · refine ⟨mtuAnswer 0x0015, ?_, .inr ⟨hnonip, rfl⟩, rfl⟩
      refine mem_append_left _ (mem_append_right _ ?_)
      simp [hnonip]
    · have hv4mtu : flag .ipv4LinkMtu = true := hk.resolve_right hnonip
      refine ⟨mtuAnswer 0x0010, ?_, .inl ⟨hv4mtu, rfl⟩, rfl⟩
      refine mem_append_left _ (mem_append_right _ ?_)
      simp [hnonip, hv4mtu]
  | ipcpDns =>
    obtain ⟨hp, hs⟩ := hk
    refine ⟨ipcpAnswer, mem_append_right _ ?_, rfl, rfl⟩
    simp [hasAll, hp, hs]

variable {flag : Have → Bool}

theorem length_answer
    (heach : ∀ k : PcoKind, k.requested flag → ∃ c ∈ containers, k.AnsweredBy granted flag c)
    (hk : ∃ k : PcoKind, k.requested flag) : 1 < (containerOctets containers).length := by
  obtain ⟨k, hk⟩ := hk
  obtain ⟨c, hc, -⟩ := heach k hk
  have hoct := c.length_octets
  obtain ⟨front, back, rfl⟩ := append_of_mem hc
  simp only [containerOctets_append, containerOctets_cons, length_append]
  omega

theorem bothV2_primary (cs : GtpcParseState) :
    dnsIpv4Primary ∈ bothV2 cs ∧ (grantedFamily cs = .ipv6 → dnsIpv6Primary ∈ bothV2 cs) := by
  unfold bothV2
  split
  · rename_i h3
    refine ⟨by simp [dnsIpv4Answer], fun hgranted => ?_⟩
    simp [grantedFamily, h3] at hgranted
  · simp [dnsIpv4Answer, dnsIpv6Answer]

theorem requested_mask {k : PcoKind} (hk : k.requested flag)
    (hne : k ≠ .ipcpDns) : hasAny flag pcoAll = true := by
  cases k with
  | dnsIpv4 => simp [hasAny, pcoAll, show flag .dnsIpv4 = true from hk]
  | dnsIpv6 => simp [hasAny, pcoAll, show flag .dnsIpv6 = true from hk]
  | linkMtu =>
    rcases hk with hmtu | hmtu
    · simp [hasAny, pcoAll, hmtu]
    · simp [hasAny, pcoAll, hmtu]
  | ipcpDns => exact absurd rfl hne

theorem length_answerOf (both : List Container) (hboth : (containerOctets both).length ≤ 52)
    (flag : Have → Bool) : (containerOctets (answerOf both flag)).length ≤ 76 := by
  have hdns : (containerOctets (if hasAll flag [.dnsIpv4, .dnsIpv6] then both
      else if flag .dnsIpv6 then dnsIpv6Answer
      else if flag .dnsIpv4 then dnsIpv4Answer else [])).length ≤ 52 := by
    split
    · exact hboth
    · repeat' split
      all_goals decide
  have hmtu : (containerOctets (if flag .nonipLinkMtu then [mtuAnswer 0x0015]
      else if flag .ipv4LinkMtu then [mtuAnswer 0x0010] else [])).length ≤ 5 := by
    repeat' split
    all_goals decide
  have hipcp : (containerOctets (if hasAll flag [.ipcpSDns, .ipcpPDns] then [ipcpAnswer]
      else [])).length ≤ 19 := by
    split <;> decide
  simp only [answerOf, containerOctets_append, length_append]
  omega

/-- `setup_pco` answers if something besides the IPCP options is asked for. -/
theorem answeredV2 (hk : ∃ k : PcoKind, k.requested cs.flag ∧ k ≠ .ipcpDns) : AnsweredV2 cs := by
  have hmask : hasAny cs.flag pcoAll = true := by
    obtain ⟨k, hk, hne⟩ := hk
    exact requested_mask hk hne
  obtain ⟨hv4, hv6⟩ := bothV2_primary cs
  have heach := answerOf_each cs.flag hv4 hv6
  have hlong := length_answer heach (hk.imp fun _ => And.left)
  have hsize := length_answerOf (bothV2 cs) (by unfold bothV2; split <;> decide) cs.flag
  refine ⟨if pcoMtuPart cs ++ pcoIpcpPart cs = [] then 0 else 0x80, answerOf (bothV2 cs) cs.flag, ?_,
    by omega, heach⟩
  rw [setupPco, if_pos hmask, octets_answerV2]
  dsimp only
  rw [if_pos hlong, Nat.mod_eq_of_lt (by omega), gtpcPcoSet, if_neg (by omega),
    Nat.add_sub_cancel, take_left]
  simp [pcoItemOf]

/-- `setup_pco_v1` always answers: its mask has the IPCP options. -/
theorem answeredV1 (hk : ∃ k : PcoKind, k.requested cs.flagV1) : AnsweredV1 cs := by
  have hmask : hasAny cs.flagV1 (pcoAll ++ [.ipcpPDns, .ipcpSDns]) = true := by
    obtain ⟨k, hk⟩ := hk
    by_cases hipcp : k = .ipcpDns
    · subst hipcp
      simp [hasAny, hk.1]
    · have hany := requested_mask hk hipcp
      rw [hasAny] at hany ⊢
      rw [any_append, hany, Bool.true_or]
  have hv4 : dnsIpv4Primary ∈ dnsIpv4Answer := mem_cons_self
  have hv6 (h : Family.ipv4 = .ipv6) : dnsIpv6Primary ∈ dnsIpv4Answer := absurd h (by decide)
  have heach := answerOf_each cs.flagV1 hv4 hv6
  have hlong := length_answer heach hk
  have hsize := length_answerOf dnsIpv4Answer (by decide) cs.flagV1
  refine ⟨if pcoMtuPartV1 cs ++ pcoIpcpPartV1 cs = [] then 0 else 0x80,
    answerOf dnsIpv4Answer cs.flagV1, ?_, by omega, heach⟩
  rw [setupPcoV1, if_pos hmask, octets_answerV1]
  dsimp only
  rw [if_pos hlong, if_neg (by omega)]
  simp [pcoElementOf]

/-- **When every request is answered**: in version 1 always, in version 2 exactly when something
besides the two IPCP options is asked for. -/
theorem pco_answered_iff (cs : GtpcParseState) :
    ((∃ k : PcoKind, k.requested cs.flag) →
      (AnsweredV2 cs ↔ ∃ k : PcoKind, k.requested cs.flag ∧ k ≠ .ipcpDns)) ∧
    ((∃ k : PcoKind, k.requested cs.flagV1) → AnsweredV1 cs) := by
  refine ⟨fun _ => ⟨?_, answeredV2⟩, answeredV1⟩
  rintro ⟨pcoHead, containers, hsome, -⟩
  by_contra hnone
  have hno (k : PcoKind) (hne : k ≠ .ipcpDns) : ¬ k.requested cs.flag := fun hk =>
    hnone ⟨k, hk, hne⟩
  have h4 := hno .dnsIpv4 (by decide)
  have h6 := hno .dnsIpv6 (by decide)
  have hmtu := hno .linkMtu (by decide)
  simp only [PcoKind.requested, not_or] at h4 h6 hmtu
  simp [setupPco, hasAny, pcoAll, h4, h6, hmtu] at hsome

/-- A request for IPv4 DNS servers and a link MTU, read by both versions. -/
theorem pco_answered_dns_mtu :
    AnsweredV2 (readV2 (fun _ => 0) 0 0x80 [⟨0x000d, []⟩, ⟨0x0010, []⟩] GtpcParseState.zero) ∧
      AnsweredV1 (readV1 (fun _ => 0) 0x80 [⟨0x000d, []⟩, ⟨0x0010, []⟩] GtpcParseState.zero) := by
  have hv2 : PcoKind.dnsIpv4.requested
      (readV2 (fun _ => 0) 0 0x80 [⟨0x000d, []⟩, ⟨0x0010, []⟩] GtpcParseState.zero).flag :=
    show _ = true by decide +kernel
  have hv1 : PcoKind.dnsIpv4.requested
      (readV1 (fun _ => 0) 0x80 [⟨0x000d, []⟩, ⟨0x0010, []⟩] GtpcParseState.zero).flagV1 :=
    show _ = true by decide +kernel
  exact ⟨((pco_answered_iff _).1 ⟨_, hv2⟩).mpr ⟨_, hv2, by decide⟩, (pco_answered_iff _).2 ⟨_, hv1⟩⟩

/-- The two IPCP options and nothing else: version 1 answers, version 2 says `ERR`. -/
theorem pco_ipcp_alone_unanswered :
    (PcoKind.ipcpDns.requested (readV2 (fun _ => 0) 0 0x80
        [⟨0x8021, [1, 0, 0, 16, 0x81, 6, 0, 0, 0, 0, 0x83, 6, 0, 0, 0, 0]⟩]
        GtpcParseState.zero).flag ∧
      setupPco (readV2 (fun _ => 0) 0 0x80
        [⟨0x8021, [1, 0, 0, 16, 0x81, 6, 0, 0, 0, 0, 0x83, 6, 0, 0, 0, 0]⟩]
        GtpcParseState.zero) = none) ∧
      setupPcoV1 (readV1 (fun _ => 0) 0x80
        [⟨0x8021, [1, 0, 0, 16, 0x81, 6, 0, 0, 0, 0, 0x83, 6, 0, 0, 0, 0]⟩]
        GtpcParseState.zero) = some (pcoElementOf 0x80 [ipcpAnswer]) := by
  refine ⟨⟨?_, ?_⟩, ?_⟩
  · simp only [PcoKind.requested]
    decide +kernel
  · decide +kernel
  · decide +kernel

end MixiPgw.Ctrl
