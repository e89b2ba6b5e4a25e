/-
# What the RADIUS parser makes of an attribute

`ParsePacketToVector` (tools/src/mod/mod_radius/func/mixipgw_radius_server_on_recv.cc) on packets
whose attributes tile the body. It takes two bytes too many for a Calling-Station-Id, and for a
Framed-IPv6-Prefix it compares a position in the body with the length of the attribute.
`radius_attributes_exact_iff`: EXACTLY which packets are mapped to the values of their attributes.
-/
import Mathlib.Data.List.Nodup
import MixiPgw.Tools.RadiusParse

namespace MixiPgw.Radius

open Bytes CString Lib List

/-! ## 1. Prefixes -/

/-- Groups of four hex digits with colons between them. -/
def groupsText (word : Nat → Nat) (count : Nat) : Text :=
  ((range count).map fun k => (if k = 0 then [] else [58]) ++ hex04 (word k)).flatten

/-- The hex digits of the bytes behind the first two; a last byte without a partner has two. -/
def prefixFront (value : List UInt8) : Text :=
  let own := value.drop 2
  let word k := ofBe ((own.drop (2 * k)).take 2)
  groupsText word (own.length / 2) ++ if own.length % 2 = 0 then [] else
    (if own.length = 1 then [] else [58]) ++ (hex04 (word (own.length / 2))).drop 2

/-- **The text of a Framed-IPv6-Prefix**: the digits, and the first two bytes as a number. -/
def prefixOf (value : List UInt8) : Text :=
  prefixFront value ++ 47 :: intText (ofBe (value.take 2))

theorem length_groupsText (word : Nat → Nat) (count : Nat) :
    (groupsText word count).length = 5 * count - 1 := by
  induction count with
  | zero => rfl
  | succ count ih =>
    rw [groupsText, range_succ, map_append, flatten_append, length_append, ← groupsText, ih]
    cases count <;> simp [hex04]
    omega

theorem hexDigit_ne_slash (d : Nat) : hexDigit (d % 16) ≠ 47 := by
  have hd := Nat.mod_lt d (show 0 < 16 by decide)
  generalize d % 16 = e at hd
  revert e
  decide

theorem slash_not_mem_groupsText (word : Nat → Nat) (count : Nat) : 47 ∉ groupsText word count := by
  intro h
  obtain ⟨l, hl, hmem⟩ := mem_flatten.mp h
  obtain ⟨k, -, rfl⟩ := mem_map.mp hl
  rcases mem_append.mp hmem with hcolon | hdigits
  · split at hcolon <;> simp at hcolon
  · simp [hex04, (hexDigit_ne_slash _).symm] at hdigits

theorem take_slash_eq_iff {m : Nat} {front front' back : Text} (h : 47 ∉ front) (h' : 47 ∉ front')
    (hback : 47 ∉ back) :
    (front ++ 47 :: back).take m = front' ++ 47 :: back ↔
      front = front' ∧ (front' ++ 47 :: back).length ≤ m := by
  constructor
  · intro heq
    rcases Nat.lt_or_ge front.length m with hlt | hle
    · obtain ⟨k, rfl⟩ := Nat.exists_eq_add_of_lt hlt
      rw [take_append, take_of_length_le (by omega),
        show front.length + k + 1 - front.length = k + 1 by omega, take_succ_cons] at heq
      obtain ⟨rfl, -, hcut⟩ := (append_cons_inj_of_notMem h' hback).mp heq.symm
      have hlen := congrArg length hcut
      rw [length_take] at hlen
      refine ⟨rfl, ?_⟩
      rw [length_append, length_cons]
      omega
    · rw [take_append_of_le_length hle] at heq
      have hmem : 47 ∈ front.take m := heq ▸ by simp
      exact absurd (mem_of_mem_take hmem) h
  · rintro ⟨rfl, hle⟩
    exact take_of_length_le hle

theorem intText_inj {a b : Nat} (h : intText a = intText b) : a = b := by
  have hread := fun n => readDigits_map_digitChar
    (fun _ hd => lt_ten_of_mem_decimalDigits (n := n) hd) 0
  have hab := (hread a).symm.trans ((congrArg (readDigits 10 0) h).trans (hread b))
  exact (ofDecimal_decimalDigits a).symm.trans
    ((congrArg Prod.fst hab).trans (ofDecimal_decimalDigits b))

theorem slash_not_mem_intText (n : Nat) : 47 ∉ intText n := by
  intro h
  obtain ⟨d, hd, heq⟩ := mem_map.mp h
  have hdigit := toNat_digitChar (lt_ten_of_mem_decimalDigits hd)
  rw [heq] at hdigit
  exact absurd hdigit (by simp; omega)

theorem length_intText_le {n : Nat} (h : n < 65536) : (intText n).length ≤ 5 := by
  rw [intText, decimalDigits, length_map, length_map,
    Nat.length_toDigits_le_iff (by decide) (by decide)]
  omega

theorem lays_part {s : Source} {p i : Nat} {xs : List UInt8} (h : s.Lays p xs) (hi : i ≤ xs.length)
    (k : Nat) : s.Lays (p + i) ((xs.drop i).take k) := by
  rw [← take_append_drop i xs] at h
  have hright := h.right
  rw [length_take, Nat.min_eq_left hi, ← take_append_drop k (xs.drop i)] at hright
  exact hright.left

/-- What the text of a prefix needs: no groups, or the front of the body and an even length; no
foreign byte that changes the number; and no more than 126 characters. -/
def PrefixRead (s : Source) (n : Nat) (value : List UInt8) : Prop :=
  (value.length ≤ 2 ∨ n = 0 ∧ value.length % 2 = 0) ∧
    ofBe (s.block (20 + n + 2) 2) = ofBe (value.take 2) ∧ (prefixOf value).length ≤ 126

theorem slash_not_mem_prefixFront (value : List UInt8) : 47 ∉ prefixFront value := by
  unfold prefixFront
  simp only [mem_append, slash_not_mem_groupsText]
  split
  · simp
  · split <;> simp [hex04, (hexDigit_ne_slash _).symm]

theorem prefixText_eq_iff {s : Source} {n : Nat} {value : List UInt8} (hn : n ≠ 1)
    (hlen : attrLen s (20 + n) = value.length + 2) (hlays : s.Lays (20 + n + 2) value) :
    prefixText s n = prefixOf value ↔ PrefixRead s n value := by
  have hcode : prefixText s n = (groupsText (fun k => ofBe (s.block (20 + n + 4 + 2 * k) 2))
      ((value.length + 2 - (n + 4) + 1) / 2) ++
        47 :: intText (ofBe (s.block (20 + n + 2) 2))).take 126 := by
    rw [prefixText, hlen, append_assoc]
    rfl
  rw [PrefixRead, hcode, prefixOf]
  have hownLen : (value.drop 2).length = value.length - 2 := length_drop
  by_cases hshort : value.length < 2
  · -- no own byte but perhaps one: no digits, and a number of two bytes of which one is foreign
    have hcount : (value.length + 2 - (n + 4) + 1) / 2 = 0 := by omega
    have hfront : prefixFront value = [] := by
      rw [prefixFront, hownLen, show value.length - 2 = 0 by omega]
      rfl
    have hcode' := ofBe_lt (s.block (20 + n + 2) 2)
    have hspec := ofBe_lt (value.take 2)
    have hpow : (256 : Nat) ^ (value.take 2).length ≤ 256 ^ 2 :=
      Nat.pow_le_pow_right (by decide) (by rw [length_take]; omega)
    rw [Source.length_block] at hcode'
    have hfits := length_intText_le hcode'
    have hfits' := length_intText_le (Nat.lt_of_lt_of_le hspec hpow)
    rw [hcount, hfront]
    simp only [groupsText, range_zero, map_nil, flatten_nil, nil_append]
    rw [take_of_length_le (by rw [length_cons]; omega), cons.injEq, length_cons]
    constructor
    · exact fun h => ⟨.inl (by omega), intText_inj h.2, by omega⟩
    · exact fun h => ⟨rfl, by rw [h.2.1]⟩
  · have hnum : ofBe (s.block (20 + n + 2) 2) = ofBe (value.take 2) :=
      (lays_part hlays (Nat.zero_le _) 2).ofBe (by rw [length_take]; simp; omega)
    rw [hnum, take_slash_eq_iff (slash_not_mem_groupsText _ _) (slash_not_mem_prefixFront _)
      (slash_not_mem_intText _)]
    simp only [true_and]
    refine and_congr_left fun _ => ?_
    constructor
    · intro heq
      have hlens := congrArg length heq
      rw [length_groupsText, prefixFront, length_append, length_groupsText, hownLen] at hlens
      by_cases heven : (value.length - 2) % 2 = 0
      · omega
      · rw [if_neg heven] at hlens
        split at hlens <;> simp [hex04] at hlens <;> omega
    · intro hplace
      have heven : (value.length - 2) % 2 = 0 := by omega
      have hcount : (value.length + 2 - (n + 4) + 1) / 2 = (value.length - 2) / 2 := by omega
      rw [prefixFront, hownLen, if_pos heven, append_nil, hcount]
      unfold groupsText
      congr 1
      refine map_congr_left fun k hk => ?_
      rw [mem_range] at hk
      have hword := (lays_part hlays (show 2 + 2 * k ≤ value.length by omega) 2).ofBe (k := 2)
        (by simp; omega)
      rw [show 20 + n + 2 + (2 + 2 * k) = 20 + n + 4 + 2 * k by omega] at hword
      simp only [drop_drop, hword]

/-! ## 2. Packets -/

structure Attr where
  type : UInt8
  value : List UInt8
  short : value.length ≤ 253

def Attr.bytes (a : Attr) : List UInt8 := a.type :: UInt8.ofNat (a.value.length + 2) :: a.value

def attrBytes (attrs : List Attr) : List UInt8 := attrs.flatMap Attr.bytes

theorem attrBytes_cons (a : Attr) (attrs : List Attr) :
    attrBytes (a :: attrs) = a.bytes ++ attrBytes attrs := flatMap_cons

/-- **A packet whose attributes tile its body**, those that the parser looks for in any order and
each at most once. -/
structure Packet where
  head : List UInt8
  attrs : List Attr
  head_length : head.length = 20
  small : 20 + (attrBytes attrs).length < 65536
  len_eq : (head.drop 2).take 2 = beBytes 2 (20 + (attrBytes attrs).length)
  distinct : ((attrs.map Attr.type).filter (· ∈ [31, 4, 8, 40, 97])).Nodup

def Packet.source (p : Packet) (past : Nat → UInt8) : Source := ⟨p.head ++ attrBytes p.attrs, past⟩

def parseAttrs (s : Source) : Nat → List Attr → Parsed → Parsed
  | _, [], st => st
  | n, a :: attrs, st => parseAttrs s (n + a.bytes.length) attrs (parseAttr s n st)

section

variable {s : Source} {n : Nat} {a : Attr} {attrs : List Attr} {rest : List UInt8}

theorem attr_read (h : s.Lays (20 + n) (a.bytes ++ rest)) :
    s.byte (20 + n) = a.type ∧ attrLen s (20 + n) = a.value.length + 2 ∧
      s.Lays (20 + n + 2) a.value := by
  have hshort := a.short
  have hbyte := fun j (hj : j < a.bytes.length) => h.left.byte hj
  refine ⟨hbyte 0 (by simp [Attr.bytes]), ?_, ?_⟩
  · rw [attrLen, hbyte 1 (by simp [Attr.bytes])]
    simp [Attr.bytes]
    omega
  · have hbytes : s.Lays (20 + n) ([a.type, UInt8.ofNat (a.value.length + 2)] ++ a.value) := h.left
    exact hbytes.right

theorem parse_visits : ∀ {attrs : List Attr} {n : Nat}, s.Lays (20 + n) (attrBytes attrs) →
    n + (attrBytes attrs).length = (parseWalk s).bound →
    ∃ ns, (parseWalk s).Visits n ns true ∧
      ∀ st, (parseWalk s).effects st ns = parseAttrs s n attrs st := by
  intro attrs
  induction attrs with
  | nil => exact fun _ hend => ⟨[], .bound (Nat.le_of_eq hend.symm), fun _ => rfl⟩
  | cons a attrs ih =>
    intro n hlays hend
    rw [attrBytes_cons] at hlays hend
    rw [length_append] at hend
    obtain ⟨-, hlen, -⟩ := attr_read hlays
    have hsize : a.bytes.length = a.value.length + 2 := rfl
    have hnext := hlays.right
    rw [Nat.add_assoc] at hnext
    obtain ⟨ns, hvisits, heffects⟩ := ih hnext (by omega)
    refine ⟨n :: ns, .next (by omega) ?_ ?_, fun st => heffects (parseAttr s n st)⟩
    · simp only [parseWalk, hlen, decide_eq_false_iff_not]
      omega
    · simp only [parseWalk, hlen]
      rwa [hsize] at hvisits

theorem parseAttrs_append {pre post : List Attr} {st : Parsed} :
    parseAttrs s n (pre ++ post) st =
      parseAttrs s (n + (attrBytes pre).length) post (parseAttrs s n pre st) := by
  induction pre generalizing n st with
  | nil => rfl
  | cons a pre ih =>
    rw [cons_append, parseAttrs, ih, parseAttrs, attrBytes_cons, length_append, Nat.add_assoc]

theorem parseAttr_other {t : UInt8} {st : Parsed} (h : s.byte (20 + n) ≠ t) :
    (parseAttr s n st).mpkt t.toNat = st.mpkt t.toNat := by
  have hne : t.toNat ≠ (s.byte (20 + n)).toNat := fun heq => h (UInt8.toNat_inj.mp heq).symm
  have hvendor : t.toNat ≠ vendorPdpType := by
    have := t.toNat_lt
    unfold vendorPdpType
    omega
  unfold parseAttr
  dsimp only
  split_ifs <;> simp [Parsed.set, hne, hvendor]

theorem parseAttrs_other {t : UInt8} : ∀ {attrs : List Attr} {n : Nat} {st : Parsed},
    s.Lays (20 + n) (attrBytes attrs) → (∀ a ∈ attrs, a.type ≠ t) →
    (parseAttrs s n attrs st).mpkt t.toNat = st.mpkt t.toNat := by
  intro attrs
  induction attrs with
  | nil => exact fun _ _ => rfl
  | cons a attrs ih =>
    intro n st hlays hne
    rw [attrBytes_cons] at hlays
    have hnext := hlays.right
    rw [Nat.add_assoc] at hnext
    rw [parseAttrs, ih hnext fun x hx => hne x (mem_cons_of_mem _ hx)]
    refine parseAttr_other ?_
    rw [(attr_read hlays).1]
    exact hne a mem_cons_self

end

/-! ## 3. Exactness -/

/-- Four bytes as the decimal text of the word that the host loads. -/
def wordOf (value : List UInt8) : Text :=
  intText (le32 (value.getD 0 0) (value.getD 1 0) (value.getD 2 0) (value.getD 3 0)).toNat

structure Exact (ie : IE) (a : Attr) : Prop where
  station : a.type = 31 → ie a.type.toNat = some a.value
  number : a.type = 4 ∨ a.type = 8 ∨ a.type = 40 → a.value.length = 4 →
    ie a.type.toNat = some (wordOf a.value)
  framed : a.type = 97 → ie a.type.toNat = some (prefixOf a.value)

/-- What an attribute at the cursor `n` needs: it is no Calling-Station-Id, and if it is a prefix,
one that is read. -/
def Readable (s : Source) (n : Nat) (a : Attr) : Prop :=
  a.type ≠ 31 ∧ (a.type = 97 → PrefixRead s n a.value)

theorem exact_iff_readable {s : Source} {n : Nat} {a : Attr} {rest : List UInt8} {st : Parsed}
    {ie : IE} (hn : n ≠ 1) (hlays : s.Lays (20 + n) (a.bytes ++ rest))
    (hnone : st.mpkt a.type.toNat = none)
    (hie : ie a.type.toNat = (parseAttr s n st).mpkt a.type.toNat) :
    Exact ie a ↔ Readable s n a := by
  obtain ⟨htype, hlen, hvalue⟩ := attr_read hlays
  have hstation : a.type = 31 → ie a.type.toNat ≠ some a.value := by
    intro h31 heq
    rw [hie] at heq
    unfold parseAttr at heq
    rw [h31] at hnone
    by_cases hlong : 3 < a.value.length + 2
    · -- the length of the attribute is taken for that of the value
      simp [htype, h31, hlen, hlong, Parsed.set] at heq
      simpa using congrArg length heq
    · simp [htype, h31, hlen, hlong] at heq
      exact nomatch hnone.symm.trans heq
  have hnumber : a.type = 4 ∨ a.type = 8 ∨ a.type = 40 → a.value.length = 4 →
      ie a.type.toNat = some (wordOf a.value) := by
    intro hkind hfour
    have hword : wordText s (20 + n + 2) = wordOf a.value := by
      have hfirst : s.byte (20 + n + 2) = _ := hvalue.byte (j := 0) (by omega)
      rw [wordText, wordOf, hfirst, hvalue.byte (by omega), hvalue.byte (by omega),
        hvalue.byte (by omega)]
    rw [hie]
    unfold parseAttr
    rcases hkind with h | h | h <;> simp [htype, h, hlen, hfour, Parsed.set, hword]
  have hframed : a.type = 97 → ie a.type.toNat = some (prefixText s n) := by
    intro h97
    rw [hie]
    unfold parseAttr
    simp [htype, h97, Parsed.set]
  constructor
  · intro h
    refine ⟨fun h31 => hstation h31 (h.station h31), fun h97 => ?_⟩
    exact (prefixText_eq_iff hn hlen hvalue).mp (Option.some.inj ((hframed h97).symm.trans
      (h.framed h97)))
  · rintro ⟨h31, h97⟩
    refine ⟨fun h => absurd h h31, hnumber, fun h => ?_⟩
    rw [hframed h, (prefixText_eq_iff hn hlen hvalue).mpr (h97 h)]

namespace Packet

variable (p : Packet) (past : Nat → UInt8)

theorem lays_attrs : (p.source past).Lays 20 (attrBytes p.attrs) := by
  refine ⟨[], ?_⟩
  rw [source, append_nil, ← p.head_length, drop_left]

theorem packetLen_eq : packetLen (p.source past) = 20 + (attrBytes p.attrs).length := by
  have hlays : (p.source past).Lays 2 (beBytes 2 (20 + (attrBytes p.attrs).length)) := by
    refine ⟨(p.head.drop 2).drop 2 ++ attrBytes p.attrs, ?_⟩
    rw [source, drop_append_of_le_length (by rw [p.head_length]; omega), ← p.len_eq,
      ← append_assoc, take_append_drop]
  rw [packetLen, hlays.ofBe (length_beBytes _ _), ofBe_beBytes_of_lt p.small]

def parsed : Parsed := parseAttrs (p.source past) 0 p.attrs ⟨fun _ => none, false⟩

theorem parse_eq :
    parsePacketToVector (p.source past) = some ((p.parsed past).ok, (p.parsed past).mpkt) := by
  have hsmall := p.small
  have hbound : (parseWalk (p.source past)).bound = (attrBytes p.attrs).length := by
    simp only [parseWalk, p.packetLen_eq]
    omega
  obtain ⟨ns, hvisits, heffects⟩ := parse_visits (n := 0) (p.lays_attrs past)
    ((Nat.zero_add _).trans hbound.symm)
  rw [parsePacketToVector, Walk.exec_eq_some_iff.mpr ⟨ns, hvisits, (heffects _).symm⟩]
  rfl

variable {p} {past}

theorem parsed_at {pre post : List Attr} {a : Attr} (hattrs : p.attrs = pre ++ a :: post)
    (hkind : a.type ∈ [31, 4, 8, 40, 97]) :
    (p.source past).Lays (20 + (attrBytes pre).length) (a.bytes ++ attrBytes post) ∧
    ∃ st : Parsed, st.mpkt a.type.toNat = none ∧ (p.parsed past).mpkt a.type.toNat =
      (parseAttr (p.source past) (attrBytes pre).length st).mpkt a.type.toNat := by
  have hall := p.lays_attrs past
  rw [hattrs, attrBytes, flatMap_append, ← attrBytes] at hall
  have hlays := hall.right
  rw [← attrBytes, attrBytes_cons] at hlays
  have hrest := hlays.right
  rw [Nat.add_assoc] at hrest
  -- no other attribute has the type
  have hdistinct := p.distinct
  rw [hattrs, map_append, map_cons, filter_append,
    filter_cons_of_pos (by simpa using hkind), nodup_middle, nodup_cons] at hdistinct
  have hother : ∀ x ∈ pre ++ post, x.type ≠ a.type := by
    intro x hx heq
    refine hdistinct.1 ?_
    rw [← filter_append, ← map_append, mem_filter]
    exact ⟨heq ▸ mem_map_of_mem hx, by simpa using hkind⟩
  refine ⟨hlays, parseAttrs (p.source past) 0 pre ⟨fun _ => none, false⟩, ?_, ?_⟩
  · exact parseAttrs_other hall.left fun x hx => hother x (mem_append_left _ hx)
  · rw [parsed, hattrs, parseAttrs_append, Nat.zero_add, parseAttrs,
      parseAttrs_other hrest fun x hx => hother x (mem_append_right _ hx)]

end Packet

/-- **Which packets are mapped to the values of their own attributes**: those without a
Calling-Station-Id and with no prefix but one that is read. -/
theorem radius_attributes_exact_iff (p : Packet) (past : Nat → UInt8) :
    (∃ ok ie, parsePacketToVector (p.source past) = some (ok, ie) ∧ ∀ a ∈ p.attrs, Exact ie a) ↔
      ∀ pre a post, p.attrs = pre ++ a :: post →
        Readable (p.source past) (attrBytes pre).length a := by
  have hattr : ∀ pre a post, p.attrs = pre ++ a :: post →
      (Exact (p.parsed past).mpkt a ↔ Readable (p.source past) (attrBytes pre).length a) := by
    intro pre a post hattrs
    by_cases hkind : a.type ∈ [31, 4, 8, 40, 97]
    · obtain ⟨hlays, st, hnone, hentry⟩ := Packet.parsed_at hattrs hkind
      refine exact_iff_readable ?_ hlays hnone hentry
      cases pre with
      | nil => decide
      | cons b pre => simp [attrBytes_cons, Attr.bytes]
    · simp only [mem_cons, not_mem_nil, or_false, not_or] at hkind
      refine iff_of_true ⟨fun h => absurd h hkind.1, fun h => ?_, fun h => absurd h hkind.2.2.2.2⟩
        ⟨hkind.1, fun h => absurd h hkind.2.2.2.2⟩
      rcases h with h | h | h <;> simp [h] at hkind
  rw [p.parse_eq]
  constructor
  · rintro ⟨ok, ie, hparse, hexact⟩ pre a post hattrs
    cases hparse
    exact (hattr pre a post hattrs).mp (hexact a (hattrs ▸ by simp))
  · intro h
    refine ⟨_, _, rfl, fun a ha => ?_⟩
    obtain ⟨pre, post, hattrs⟩ := append_of_mem ha
    exact (hattr pre a post hattrs).mpr (h pre a post hattrs)

/-- An access request with a Calling-Station-Id of eight digits and a NAS-IP-Address behind it. -/
def accessRequest : Packet where
  head := [1, 7, 0, 36] ++ replicate 16 0
  attrs := [⟨31, [56, 49, 57, 48, 49, 50, 51, 52], by decide⟩, ⟨4, [10, 0, 0, 1], by decide⟩]
  head_length := rfl
  small := by decide
  len_eq := by decide
  distinct := by decide

/-- The type and the length of the next attribute come with the Calling-Station-Id. -/
theorem callingStation_overread :
    (∃ ok ie, parsePacketToVector (accessRequest.source fun _ => 0) = some (ok, ie) ∧
      ie 31 = some [56, 49, 57, 48, 49, 50, 51, 52, 4, 6]) ∧
    ¬ ∃ ok ie, parsePacketToVector (accessRequest.source fun _ => 0) = some (ok, ie) ∧
      ∀ a ∈ accessRequest.attrs, Exact ie a := by
  have hentry : (accessRequest.parsed fun _ => 0).mpkt 31 =
      some [56, 49, 57, 48, 49, 50, 51, 52, 4, 6] := by decide
  refine ⟨⟨_, _, rfl, hentry⟩, ?_⟩
  rintro ⟨ok, ie, hparse, hexact⟩
  cases hparse
  have hstation := (hexact _ mem_cons_self).station rfl
  exact absurd (hentry.symm.trans hstation) (by decide)

end MixiPgw.Radius
