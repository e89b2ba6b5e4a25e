/-
# Addresses as text

What `get_ipv4` takes for an IPv4 address. `str_split` skips empty segments and `strtoul` is not
checked, so it succeeds on every text with four segments that are not empty: `1..2.3.4`,
`256.0.0.1` and `a.b.c.d` are addresses to it. On dotted quads it is right.
-/
import MixiPgw.Data.RowImages

namespace MixiPgw.Data

open Bytes CString List

/-- A decimal number from 0 to 255; leading zeros do not matter. -/
def ByteNumber (t : Text) (b : UInt8) : Prop :=
  ∃ digits : List Nat, digits ≠ [] ∧ (∀ d ∈ digits, d < 10) ∧ t = digits.map digitChar ∧
    ofDecimal digits = b.toNat

/-- Four such numbers with single dots between them. -/
def DottedQuad (t : Text) (a b c d : UInt8) : Prop :=
  ∃ parts, List.Forall₂ ByteNumber parts [a, b, c, d] ∧ t = [46].intercalate parts

/-- `get_ipv4` succeeds on the dotted quads alone, with their four bytes in order. -/
def ReadsQuads (t : List UInt8) : Prop :=
  ∀ v, getIpv4 t = some v ↔ ∃ a b c d, DottedQuad (cstr t) a b c d ∧ v = le32 a b c d

theorem dottedParts_intercalate {parts : List Text} (hparts : ∀ p ∈ parts, p ≠ [] ∧ 46 ∉ p) :
    dottedParts ([46].intercalate parts) = parts := by
  cases parts with
  | nil => rfl
  | cons p ps =>
    rw [dottedParts, splitOn_intercalate 46 (fun l hl => (hparts l hl).2) (cons_ne_nil p ps)]
    exact filter_eq_self.mpr fun l hl => by simpa using (hparts l hl).1

theorem intercalate_cons (label : Text) (rest : List Text) :
    [46].intercalate (label :: rest) = label ++ rest.flatMap (46 :: ·) := by
  induction rest generalizing label with
  | nil => simp
  | cons next rest ih =>
    rw [intercalate_cons_cons, ih]
    simp

/-- Parts without a zero byte are not cut. -/
theorem cstr_intercalate {parts : List Text} (hparts : ∀ p ∈ parts, 0 ∉ p) :
    cstr ([46].intercalate parts) = [46].intercalate parts := by
  refine cstr_of_not_mem ?_
  cases parts with
  | nil => exact not_mem_nil
  | cons p ps =>
    rw [intercalate_cons, mem_append, mem_flatMap]
    rintro (hp | ⟨q, hq, hmem⟩)
    · exact hparts p mem_cons_self hp
    · rcases mem_cons.mp hmem with hdot | hmem
      · exact absurd hdot (by decide)
      · exact hparts q (mem_cons_of_mem p hq) hmem

theorem ByteNumber.not_mem {t : Text} {b c : UInt8} (h : ByteNumber t b) (hc : c.toNat < 48) :
    c ∉ t := by
  obtain ⟨digits, -, hlt, rfl, -⟩ := h
  intro hmem
  obtain ⟨d, hd, rfl⟩ := mem_map.mp hmem
  have hval := toNat_digitChar (hlt d hd)
  omega

theorem ByteNumber.part {t : Text} {b : UInt8} (h : ByteNumber t b) : t ≠ [] ∧ 46 ∉ t := by
  refine ⟨?_, h.not_mem (by decide)⟩
  obtain ⟨digits, hne, -, rfl, -⟩ := h
  simpa using hne

theorem ByteNumber.strtoulDec_eq {t : Text} {b : UInt8} (h : ByteNumber t b) :
    strtoulDec t = b.toNat := by
  obtain ⟨digits, -, hlt, rfl, hval⟩ := h
  rw [(strtoulDec_map_digitChar hlt).1, hval]
  have := b.toNat_lt
  omega

theorem byteNumber_byteText (b : UInt8) : ByteNumber (byteText b) b :=
  ⟨decimalDigits b.toNat, by simp [decimalDigits],
    fun _ hd => lt_ten_of_mem_decimalDigits hd, rfl, ofDecimal_decimalDigits b.toNat⟩

section

variable {t : Text} {a b c d : UInt8}

theorem DottedQuad.parts (h : DottedQuad t a b c d) :
    List.Forall₂ ByteNumber (dottedParts t) [a, b, c, d] := by
  obtain ⟨parts, hparts, rfl⟩ := h
  rwa [dottedParts_intercalate]
  obtain _ | ⟨ha, _ | ⟨hb, _ | ⟨hc, _ | ⟨hd, _ | _⟩⟩⟩⟩ := hparts
  simp only [forall_mem_cons]
  exact ⟨ha.part, hb.part, hc.part, hd.part, by simp⟩

theorem DottedQuad.addressOf_eq (h : DottedQuad t a b c d) : addressOf t = some (le32 a b c d) := by
  have hparts := h.parts
  unfold addressOf
  generalize dottedParts t = parts at hparts ⊢
  obtain _ | ⟨ha, _ | ⟨hb, _ | ⟨hc, _ | ⟨hd, _ | _⟩⟩⟩⟩ := hparts
  simp only [ha.strtoulDec_eq, hb.strtoulDec_eq, hc.strtoulDec_eq, hd.strtoulDec_eq,
    UInt8.ofNat_toNat]

theorem addressOf_isSome (h : (dottedParts t).length = 4) : ∃ v, addressOf t = some v := by
  unfold addressOf
  obtain ⟨a, b, c, d, hparts⟩ := length_eq_four.mp h
  exact ⟨_, by rw [hparts]⟩

theorem length_of_addressOf {v : UInt32} (h : addressOf t = some v) :
    (dottedParts t).length = 4 := by
  unfold addressOf at h
  split at h
  · next hparts => rw [hparts]; rfl
  · exact absurd h (by simp)

end

theorem DottedQuad.cstr_eq {t : Text} {a b c d : UInt8} (h : DottedQuad t a b c d) :
    cstr t = t := by
  obtain ⟨parts, hparts, rfl⟩ := h
  refine cstr_intercalate ?_
  obtain _ | ⟨ha, _ | ⟨hb, _ | ⟨hc, _ | ⟨hd, _ | _⟩⟩⟩⟩ := hparts
  have hzero : (0 : UInt8).toNat < 48 := by decide
  simp only [forall_mem_cons]
  exact ⟨ha.not_mem hzero, hb.not_mem hzero, hc.not_mem hzero, hd.not_mem hzero, by simp⟩

theorem dottedQuad_inetNtoa (addr : UInt32) :
    DottedQuad (inetNtoa addr) (byteOf addr 0) (byteOf addr 1) (byteOf addr 2) (byteOf addr 3) :=
  ⟨[0, 1, 2, 3].map fun i => byteText (byteOf addr i), by simp [byteNumber_byteText],
    by simp [inetNtoa]⟩

theorem length_byteText_le (b : UInt8) : (byteText b).length ≤ 3 := by
  rw [byteText, decimalDigits, length_map, length_map,
    Nat.length_toDigits_le_iff (by decide) (by decide)]
  have := b.toNat_lt
  omega

theorem getIpv4_inetNtoa (addr : UInt32) : getIpv4 (inetNtoa addr) = some addr := by
  have hlength : (inetNtoa addr).length ≤ 1001 := by
    have h0 := length_byteText_le (byteOf addr 0)
    have h1 := length_byteText_le (byteOf addr 1)
    have h2 := length_byteText_le (byteOf addr 2)
    have h3 := length_byteText_le (byteOf addr 3)
    simp only [inetNtoa, length_append, length_singleton]
    omega
  have hquad := dottedQuad_inetNtoa addr
  have hcstr := hquad.cstr_eq
  rw [getIpv4_of_length (by rwa [hcstr]), hcstr, hquad.addressOf_eq, le32_byteOf]

/-- On a text of at most 1000 characters the reading is right exactly if four non-empty segments
make a dotted quad of it. On the dotted form of an address it always is. -/
theorem getIpv4_reads_quads_iff (t : List UInt8) (h : (cstr t).length ≤ 1000) :
    (ReadsQuads t ↔
        ((dottedParts (cstr t)).length = 4 → ∃ a b c d, DottedQuad (cstr t) a b c d)) ∧
      ∀ addr, getIpv4 (inetNtoa addr) = some addr := by
  have hread := getIpv4_of_length (Nat.le_succ_of_le h)
  refine ⟨⟨fun hreads hfour => ?_, fun hquad v => ⟨fun hv => ?_, ?_⟩⟩, getIpv4_inetNtoa⟩
  · obtain ⟨v, hv⟩ := addressOf_isSome hfour
    obtain ⟨a, b, c, d, hq, -⟩ := (hreads v).mp (hread.trans hv)
    exact ⟨a, b, c, d, hq⟩
  · rw [hread] at hv
    obtain ⟨a, b, c, d, hq⟩ := hquad (length_of_addressOf hv)
    exact ⟨a, b, c, d, hq, Option.some.inj (hv.symm.trans hq.addressOf_eq)⟩
  · rintro ⟨a, b, c, d, hq, rfl⟩
    exact hread.trans hq.addressOf_eq

theorem getIpv4_reads_documentation_address : ReadsQuads (inetNtoa (le32 192 0 2 1)) := by
  have hquad := dottedQuad_inetNtoa (le32 192 0 2 1)
  exact (getIpv4_reads_quads_iff _ (by decide)).1.mpr fun _ =>
    ⟨_, _, _, _, hquad.cstr_eq.symm ▸ hquad⟩

/-- `256.0.0.1` is read as `0.0.0.1`. -/
theorem getIpv4_takes_256 :
    getIpv4 [50, 53, 54, 46, 48, 46, 48, 46, 49] = some (le32 0 0 0 1) ∧
      ¬ ReadsQuads [50, 53, 54, 46, 48, 46, 48, 46, 49] := by
  have htaken : getIpv4 [50, 53, 54, 46, 48, 46, 48, 46, 49] = some (le32 0 0 0 1) := by decide
  refine ⟨htaken, fun hreads => ?_⟩
  obtain ⟨a, b, c, d, hquad, -⟩ := (hreads _).mp htaken
  have hparts := hquad.parts
  rw [show dottedParts (cstr [50, 53, 54, 46, 48, 46, 48, 46, 49]) = [[50, 53, 54], [48], [48], [49]] by
    decide] at hparts
  cases hparts with
  | cons hfirst _ =>
    have hval := hfirst.strtoulDec_eq
    rw [show strtoulDec [50, 53, 54] = 256 by decide] at hval
    have := a.toNat_lt
    omega

end MixiPgw.Data
