/-
# Access point names

The item class `Apn`: `set` writes a dotted name as labels with their lengths in front, `name` reads
it back, `attach` takes an item from the wire. A name whose labels fit comes back as it was.

`attach` does not look at the labels, and the cursor of `name` has EIGHT BITS: a length byte of 255
leaves it where it is. `attach_finishes_iff` is the exact condition: the cursor gets out of the
field within 32 turns, or never.
-/
import MixiPgw.Data.AddressText
import MixiPgw.Lib.Loop
import MixiPgw.Tools.GtpcCodec

namespace MixiPgw.Tools

open Bytes CString Lib Loop Data List Gtpc

/-- `apn_`: `ntohs(head.length)`, and `apn` with the memory behind it. -/
structure Apn where
  length : Nat
  apn : Nat → UInt8

namespace Apn

/-! ## 1. The class -/

def setLabels (a : Apn) (ttl : Nat) : List Text → Apn
  | [] => { a with length := ttl }
  | label :: rest =>
    let len := UInt8.ofNat label.length
    if 32 ≤ ttl + len.toNat then { a with length := 0 }
    else
      setLabels { a with apn := writeAt a.apn ttl (len :: label.take len.toNat) }
        ((ttl + (len.toNat + 1)) % 256) rest

/-- `set(const char*)`; `GtpcPkt::StrSplit` has the body of `str_split`. -/
def set (a : Apn) (name : Text) : Apn :=
  match strSplit name 46 with
  | some splitted => setLabels { a with length := 0 } 0 splitted
  | none => { a with length := 0 }

def inField (a : Apn) (n : UInt8) : Prop := n.toNat < min 32 a.length

instance (a : Apn) (n : UInt8) : Decidable (a.inField n) := inferInstanceAs (Decidable (_ < _))

/-- `n += (len+1)`, in eight bits. -/
def next (a : Apn) (n : UInt8) : UInt8 := n + (a.apn n.toNat + 1)

def piece (a : Apn) (n : UInt8) : Text :=
  (if n ≠ 0 then [46] else []) ++
    (range (a.apn n.toNat).toNat).map fun i => a.apn (n.toNat + 1 + i)

/-- A turn of `name`: the cursor and `ret`. -/
def nameStep (a : Apn) (st : UInt8 × Text) : Text ⊕ (UInt8 × Text) :=
  if a.inField st.1 then .inr (a.next st.1, st.2 ++ a.piece st.1) else .inl st.2

def Names (a : Apn) (text : Text) : Prop := ∃ sts, Run a.nameStep (0, []) sts text

/-- `attach(src, len)`; `none` is `RETERR`. -/
def attach (a : Apn) (src : Nat → UInt8) (len : Nat) : Option Apn :=
  let length := headLength src
  if 4 < len ∧ src 0 = gtpcTypeApn ∧ 0 < length ∧ length ≤ 32 then
    some ⟨length, fun i => if i < length then src (4 + i) else a.apn i⟩
  else none

/-! ## 2. Writing -/

def encode (labels : List Text) : List UInt8 :=
  labels.flatMap fun label => UInt8.ofNat label.length :: label

theorem encode_cons (label : Text) (rest : List Text) :
    encode (label :: rest) = (UInt8.ofNat label.length :: label) ++ encode rest := rfl

theorem writeAt_append (data : Nat → UInt8) (dst : Nat) (xs ys : List UInt8) :
    writeAt (writeAt data dst xs) (dst + xs.length) ys = writeAt data dst (xs ++ ys) := by
  funext i
  simp only [writeAt, length_append]
  by_cases hys : dst + xs.length ≤ i ∧ i < dst + xs.length + ys.length
  · rw [if_pos hys, if_pos (by omega), getD_append_right _ _ _ _ (by omega)]
    congr 1
    omega
  · rw [if_neg hys]
    by_cases hxs : dst ≤ i ∧ i < dst + xs.length
    · rw [if_pos hxs, if_pos (by omega), getD_append _ _ _ _ (by omega)]
    · rw [if_neg hxs, if_neg (by omega)]

theorem toNat_ofNat_le {k : Nat} (h : k ≤ 32) : (UInt8.ofNat k).toNat = k :=
  UInt8.toNat_ofNat_of_lt' (Nat.lt_of_le_of_lt h (by decide : 32 < 256))

theorem setLabels_eq : ∀ (labels : List Text) (a : Apn) (ttl : Nat),
    ttl + (encode labels).length ≤ 32 →
      setLabels a ttl labels = ⟨ttl + (encode labels).length, writeAt a.apn ttl (encode labels)⟩
  | [], a, ttl, _ => by
    have hsame : writeAt a.apn ttl [] = a.apn :=
      funext fun i => writeAt_outside (by simp; omega)
    simp [setLabels, encode, hsame]
  | label :: rest, a, ttl, hfits => by
    rw [encode_cons, length_append, length_cons] at hfits ⊢
    have hlen := toNat_ofNat_le (by omega : label.length ≤ 32)
    have hroom : ¬ 32 ≤ ttl + label.length := by omega
    have hcursor : (ttl + (label.length + 1)) % 256 = ttl + (label.length + 1) :=
      Nat.mod_eq_of_lt (by omega)
    simp only [setLabels, hlen, if_neg hroom, hcursor, take_length]
    rw [setLabels_eq rest _ _ (by omega), ← length_cons, writeAt_append, ← Nat.add_assoc]

/-! ## 3. Reading -/

/-- The field from `p` on is the encoding of the labels and ends with it. -/
structure Lays (a : Apn) (p : Nat) (labels : List Text) : Prop where
  length : a.length = p + (encode labels).length
  fits : a.length ≤ 32
  bytes : ∀ i < (encode labels).length, a.apn (p + i) = (encode labels).getD i 0

section

variable {a : Apn} {p : Nat} {label : Text} {rest : List Text}

theorem Lays.tail (h : a.Lays p (label :: rest)) : a.Lays (p + (label.length + 1)) rest := by
  have hlength := h.length
  rw [encode_cons, length_append, length_cons] at hlength
  refine ⟨by omega, h.fits, fun i hi => ?_⟩
  have hbyte := h.bytes (label.length + 1 + i) (by
    rw [encode_cons, length_append, length_cons]
    omega)
  rw [Nat.add_assoc, hbyte, encode_cons, getD_append_right _ _ _ _ (by simp)]
  congr 1
  simp

theorem Lays.nameStep_eq (h : a.Lays p (label :: rest)) (ret : Text) :
    a.nameStep (UInt8.ofNat p, ret) = .inr (UInt8.ofNat (p + (label.length + 1)),
      ret ++ ((if p = 0 then [] else [46]) ++ label)) := by
  have hlength := h.length
  have hfits := h.fits
  rw [encode_cons, length_append, length_cons] at hlength
  have hp := toNat_ofNat_le (by omega : p ≤ 32)
  have hlen := toNat_ofNat_le (by omega : label.length ≤ 32)
  have hbyte : a.apn p = UInt8.ofNat label.length := h.bytes 0 (by simp [encode_cons])
  have hin : a.inField (UInt8.ofNat p) := by
    rw [inField]
    omega
  have hnext : a.next (UInt8.ofNat p) = UInt8.ofNat (p + (label.length + 1)) := by
    rw [next, hp, hbyte, UInt8.ofNat_add, UInt8.ofNat_add]
    rfl
  have hdot : UInt8.ofNat p = 0 ↔ p = 0 := by
    rw [← UInt8.toNat_inj, hp]
    rfl
  have hlabel : ((range label.length).map fun i => a.apn (p + 1 + i)) = label := by
    refine ext_getElem (by simp) fun i hi hi' => ?_
    have hat := h.bytes (i + 1) (by simp [encode_cons]; omega)
    rw [encode_cons, getD_append _ _ _ _ (by simpa using hi'), getD_cons_succ,
      getD_eq_getElem _ _ hi'] at hat
    rw [getElem_map, getElem_range, ← hat]
    congr 1
    omega
  rw [nameStep, if_pos hin, hnext, piece, hp, hbyte, hlen, hlabel]
  by_cases hzero : p = 0
  · rw [if_pos hzero, if_neg (fun hne => hne (hdot.mpr hzero))]
  · rw [if_neg hzero, if_pos fun hp0 => hzero (hdot.mp hp0)]

end

theorem Lays.run {a : Apn} : ∀ {labels : List Text} {p : Nat}, a.Lays p labels → p ≠ 0 →
    ∀ ret : Text, ∃ sts, Run a.nameStep (UInt8.ofNat p, ret) sts (ret ++ labels.flatMap (46 :: ·))
  | [], p, h, hp, ret => by
    have hlength := h.length
    have hfits := h.fits
    have hout : ¬ a.inField (UInt8.ofNat p) := by
      rw [inField, toNat_ofNat_le (by omega : p ≤ 32), hlength]
      exact Nat.not_lt.mpr (Nat.min_le_right _ _)
    exact ⟨[], .exit (by simp [nameStep, hout])⟩
  | label :: rest, p, h, hp, ret => by
    obtain ⟨sts, hrun⟩ := h.tail.run (by omega) (ret ++ ((if p = 0 then [] else [46]) ++ label))
    refine ⟨_ :: sts, .next (h.nameStep_eq ret) ?_⟩
    simpa [hp] using hrun

theorem set_names (a : Apn) {labels : List Text}
    (hlabels : ∀ l ∈ labels, l ≠ [] ∧ 46 ∉ l ∧ 0 ∉ l) (hfits : (encode labels).length ≤ 32) :
    (a.set ([46].intercalate labels)).Names ([46].intercalate labels) := by
  cases labels with
  | nil => exact ⟨[], .exit rfl⟩
  | cons label rest =>
    have hname := intercalate_cons label rest
    have hne : [46].intercalate (label :: rest) ≠ [] := by
      rw [hname]
      simp [(hlabels label mem_cons_self).1]
    have hlength : ([46].intercalate (label :: rest)).length ≤ 1001 := by
      have hsame : (rest.flatMap (46 :: ·)).length = (encode rest).length := by
        simp [encode, length_flatMap]
      rw [encode_cons, length_append, length_cons] at hfits
      rw [hname, length_append, hsame]
      omega
    have hset : a.set ([46].intercalate (label :: rest)) =
        ⟨(encode (label :: rest)).length, writeAt a.apn 0 (encode (label :: rest))⟩ := by
      have hcstr := cstr_intercalate fun l hl => (hlabels l hl).2.2
      rw [set, strSplit_eq (by rwa [hcstr]) (by rwa [hcstr]), hcstr,
        dottedParts_intercalate fun l hl => ⟨(hlabels l hl).1, (hlabels l hl).2.1⟩]
      exact (setLabels_eq _ _ 0 (by omega)).trans (by rw [Nat.zero_add])
    have hlays : (a.set ([46].intercalate (label :: rest))).Lays 0 (label :: rest) := by
      rw [hset]
      refine ⟨(Nat.zero_add _).symm, hfits, fun i hi => ?_⟩
      rw [Nat.zero_add]
      exact writeAt_inside (Nat.zero_le i) (by omega)
    obtain ⟨sts, hrun⟩ := hlays.tail.run (by omega) label
    rw [← hname] at hrun
    exact ⟨_ :: sts, .next (hlays.nameStep_eq []) hrun⟩

/-! ## 4. Termination -/

section

variable {a : Apn} {f : UInt8 → UInt8}

theorem run_exists_iff (hf : ∀ n, a.inField n → a.next n = f n) {n : UInt8} {ret : Text} :
    (∃ sts text, Run a.nameStep (n, ret) sts text) ↔ ∃ k, ¬ a.inField (f^[k] n) := by
  constructor
  · rintro ⟨sts, text, hrun⟩
    generalize hst : (n, ret) = st at hrun
    induction hrun generalizing n ret with
    | exit hexit =>
      subst hst
      refine ⟨0, fun (hin : a.inField n) => ?_⟩
      rw [nameStep, if_pos hin] at hexit
      exact absurd hexit (by simp)
    | next hnext _ ih =>
      subst hst
      by_cases hin : a.inField n
      · rw [nameStep, if_pos hin, hf n hin] at hnext
        obtain ⟨k, hk⟩ := ih (Sum.inr.inj hnext)
        exact ⟨k + 1, hk⟩
      · exact ⟨0, hin⟩
  · rintro ⟨k, hk⟩
    induction k generalizing n ret with
    | zero => exact ⟨[], ret, .exit (if_neg hk)⟩
    | succ k ih =>
      by_cases hin : a.inField n
      · obtain ⟨sts, text, hrun⟩ :
            ∃ sts text, Run a.nameStep (f n, ret ++ a.piece n) sts text := ih hk
        exact ⟨_, text, .next ((if_pos hin).trans (by rw [hf n hin])) hrun⟩
      · exact ⟨[], ret, .exit (if_neg hin)⟩

theorem names_exists_iff (hf : ∀ n, a.inField n → a.next n = f n) :
    (∃ text, a.Names text) ↔ ∃ k ≤ 32, ¬ a.inField (f^[k] 0) := by
  constructor
  · rintro ⟨text, sts, hrun⟩
    refine exists_iterate_le (P := fun n => ¬ a.inField n) (m := UInt8.toNat)
      (fun _ _ => UInt8.toNat_inj.mp) (fun n hin => ?_)
      ((run_exists_iff hf).mp ⟨sts, text, hrun⟩)
    exact Nat.lt_of_lt_of_le (not_not.mp hin) (Nat.min_le_left _ _)
  · rintro ⟨k, -, hk⟩
    obtain ⟨sts, text, hrun⟩ : ∃ sts text, Run a.nameStep (0, []) sts text :=
      (run_exists_iff hf).mpr ⟨k, hk⟩
    exact ⟨text, sts, hrun⟩

end

def wireNext (src : Nat → UInt8) (n : UInt8) : UInt8 := n + (src (4 + n.toNat) + 1)

theorem attach_eq (a : Apn) {src : Nat → UInt8} {len : Nat}
    (h : 4 < len ∧ src 0 = gtpcTypeApn ∧ 0 < headLength src ∧
      headLength src ≤ 32) :
    a.attach src len = some ⟨headLength src,
      fun i => if i < headLength src then src (4 + i) else a.apn i⟩ := by
  exact if_pos h

theorem attach_finishes_iff {a item : Apn} {src : Nat → UInt8} {len : Nat}
    (h : a.attach src len = some item) :
    (∃ text, item.Names text) ↔ ∃ k ≤ 32, headLength src ≤ ((wireNext src)^[k] 0).toNat := by
  simp only [attach] at h
  split at h
  · next haccepted =>
    obtain rfl := Option.some.inj h
    have hfield : min 32 (headLength src) = headLength src := Nat.min_eq_right haccepted.2.2.2
    rw [names_exists_iff (f := wireNext src)]
    · simp only [inField, hfield, Nat.not_lt]
    · intro n hin
      rw [inField, hfield] at hin
      simp only [next, wireNext, if_pos hin]
  · exact absurd h (by simp)

/-- A name whose labels fit is read back as it was set; a label of a C string has no zero byte. An
item that was attached is read to an end EXACTLY if its cursor gets past the name within 32
turns. -/
theorem apn_codec_iff (a : Apn) (labels : List Text)
    (hlabels : ∀ l ∈ labels, l ≠ [] ∧ 46 ∉ l ∧ 0 ∉ l) (hfits : (encode labels).length ≤ 32)
    (src : Nat → UInt8) (len : Nat) (item : Apn)
    (hitem : a.attach src len = some item) :
    (a.set ([46].intercalate labels)).Names ([46].intercalate labels) ∧
      ((∃ text, item.Names text) ↔
        ∃ k ≤ 32, headLength src ≤ ((wireNext src)^[k] 0).toNat) :=
  ⟨a.set_names hlabels hfits, attach_finishes_iff hitem⟩

/-- `abc.de`, as an item. -/
def abcItem (i : Nat) : UInt8 := [71, 0, 7, 0, 3, 97, 98, 99, 2, 100, 101].getD i 0

theorem apn_codec_abc :
    (Apn.set ⟨0, fun _ => 0⟩ [97, 98, 99, 46, 100, 101]).Names [97, 98, 99, 46, 100, 101] ∧
      ∃ item, Apn.attach ⟨0, fun _ => 0⟩ abcItem 11 = some item ∧ ∃ text, item.Names text := by
  obtain ⟨hset, hattached⟩ := apn_codec_iff ⟨0, fun _ => 0⟩ [[97, 98, 99], [100, 101]] (by decide)
    (by decide) abcItem 11 _ (attach_eq _ (by decide))
  exact ⟨hset, _, attach_eq _ (by decide), hattached.mpr ⟨2, by decide, by decide⟩⟩

/-- An item with one byte, a length of 255: the cursor stays at 0. -/
def longLabel (i : Nat) : UInt8 := [71, 0, 1, 0, 255].getD i 0

theorem name_never_ends :
    ∃ item, Apn.attach ⟨0, fun _ => 0⟩ longLabel 5 = some item ∧ ¬ ∃ text, item.Names text := by
  have hattach := @attach_eq ⟨0, fun _ => 0⟩ longLabel 5 (by decide)
  refine ⟨_, hattach, fun hends => ?_⟩
  obtain ⟨k, -, hk⟩ := (attach_finishes_iff hattach).mp hends
  rw [Function.iterate_fixed (by decide)] at hk
  exact absurd hk (by decide)

end Apn

end MixiPgw.Tools
