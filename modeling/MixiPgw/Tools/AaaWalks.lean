/-
# The four loops of the AAA servers

`ValidateDiameter`, `ValidateRadius` and the two `ParsePacketToVector` walk a message by lengths
they read from it. The validators stay where they are on an element of length ZERO. The parsers
leave on it, but their bound is an unsigned difference, and for a message shorter than its own
header it is close to `2 ^ 64`. **`aaa_loops_end_iff`** is all four, exactly.
-/
import MixiPgw.Tools.DiameterParse
import MixiPgw.Tools.RadiusParse

namespace MixiPgw.Aaa

open Bytes Lib List

/-! ## 1. Two kinds of loops -/

/-- A loop behind a check ends, if it is got to: its cursor moves at every turn and stays in the
range of an `int`. -/
def Ends {σ : Type} (check : Bool) (w : Walk σ) : Prop := check = true → w.EndsWithin (2 ^ 31)

/-- The loop is got to and comes to an element of length zero. -/
def MeetsEmpty {σ : Type} (check : Bool) (w : Walk σ) (len : Nat → Nat) : Prop :=
  check = true ∧ ∃ m, w.Comes 0 m ∧ m < w.bound ∧ len m = 0

section

variable {σ : Type} {w : Walk σ} {len : Nat → Nat}

/-- A stride goes over an element of the given length, and is not much longer. -/
structure Measured (w : Walk σ) (len : Nat → Nat) : Prop where
  pos : ∀ n, 0 < w.stride n ↔ 0 < len n
  short : ∀ n, w.stride n < 2 ^ 25

theorem Measured.fits (h : Measured w len) (hbound : w.bound < 2 ^ 25) :
    ∀ n < w.bound, w.leaves n = false → n + w.stride n < 2 ^ 31 := by
  intro n hn _
  have := h.short n
  omega

theorem Measured.validator_iff (h : Measured w len) (hbound : w.bound < 2 ^ 25)
    (hleaves : ∀ n, w.leaves n = decide (w.bound < len n + n)) (check : Bool) :
    Ends check w ↔ ¬ MeetsEmpty check w len := by
  rw [Ends, Walk.endsWithin_iff (h.fits hbound)]
  constructor
  · rintro hmoves ⟨hcheck, m, hm, hlt, hzero⟩
    have hstay : w.leaves m = false := by
      rw [hleaves]
      exact decide_eq_false (by omega)
    have := (h.pos m).mp (hmoves hcheck m hm hlt hstay)
    omega
  · intro hno hcheck m hm hlt _
    refine (h.pos m).mpr (Nat.pos_of_ne_zero fun hzero => ?_)
    exact hno ⟨hcheck, m, hm, hlt, hzero⟩

theorem Measured.parser_ends (h : Measured w len) (hbound : w.bound < 2 ^ 25)
    (hleaves : ∀ n, w.leaves n = decide (len n = 0)) : w.EndsWithin (2 ^ 31) := by
  refine (Walk.endsWithin_iff (h.fits hbound)).mpr fun m _ _ hstay => ?_
  rw [hleaves, decide_eq_false_iff_not] at hstay
  exact (h.pos m).mpr (Nat.pos_of_ne_zero hstay)

end

section

variable {σ : Type} {walk : (Nat → UInt8) → Walk σ} {len : (Nat → UInt8) → Nat → Nat} {size : Nat}

/-- The loop of a parser ends, whatever lies behind the message, exactly if that has a whole header.
If not, it runs on through memory without a zero. -/
theorem parser_iff (hmeasured : ∀ past, Measured (walk past) (len past))
    (hbound : ∀ past, (walk past).bound = (size + (2 ^ 64 - 20)) % 2 ^ 64) (hsize : size < 2 ^ 24)
    (hleaves : ∀ past n, (walk past).leaves n = decide (len past n = 0))
    (hbehind : size < 20 → ∀ n, len (fun _ => 0xff) n ≠ 0) :
    (∀ past, (walk past).EndsWithin (2 ^ 31)) ↔ 20 ≤ size := by
  constructor
  · intro hends
    by_contra hshort
    refine Walk.not_endsWithin (fun n => ?_) (by decide) ?_ (hends fun _ => 0xff)
    · rw [hleaves]
      exact decide_eq_false (hbehind (by omega) n)
    · rw [hbound]
      omega
  · intro hlong past
    refine (hmeasured past).parser_ends ?_ (hleaves past)
    rw [hbound]
    omega

end

theorem ofBe_block_eq {buf : List UInt8} (past : Nat → UInt8) {p k : Nat}
    (h : p + k ≤ buf.length) : ofBe ((⟨buf, past⟩ : Source).block p k) = ofBe (slice buf p k) := by
  have hlays : (⟨buf, past⟩ : Source).Lays p (slice buf p k) :=
    ⟨(buf.drop p).drop k, (take_append_drop k (buf.drop p)).symm⟩
  refine hlays.ofBe ?_
  rw [slice, length_take, length_drop]
  omega

theorem byte_behind {buf : List UInt8} (b : UInt8) {p : Nat} (h : buf.length ≤ p) :
    (⟨buf, fun _ => b⟩ : Source).byte p = b := getD_eq_default _ _ h

/-! ## 2. Diameter -/

namespace Diameter

open MixiPgw.Diameter

def DeclaresSize (buf : List UInt8) : Prop := 4 ≤ buf.length ∧ ofBe (slice buf 1 3) = buf.length

instance DeclaresSize.decidable (buf : List UInt8) : Decidable (DeclaresSize buf) :=
  inferInstanceAs (Decidable (_ ∧ _))

theorem messageLen_eq {buf : List UInt8} (h : DeclaresSize buf) (past : Nat → UInt8) :
    messageLen ⟨buf, past⟩ = buf.length := by
  rw [messageLen, ofBe_block_eq past h.1, h.2]

variable (s : Source)

theorem messageLen_lt : messageLen s < 2 ^ 24 := by
  have h := ofBe_lt (s.block 1 3)
  rwa [Source.length_block] at h

theorem measured {σ : Type} {w : Walk σ} {s : Source}
    (h : ∀ n, w.stride n = padd4 (avpLen s (20 + n))) : Measured w fun n => avpLen s (20 + n) := by
  refine ⟨fun n => ?_, fun n => ?_⟩
  · rw [h]
    exact padd4_pos
  · have hlt : avpLen s (20 + n) < 256 ^ 3 := by
      have := ofBe_lt (s.block (20 + n + 5) 3)
      rwa [Source.length_block] at this
    have hpad := padd4_spec (avpLen s (20 + n))
    rw [h]
    omega

theorem validateWalk_bound_lt : (validateWalk s).bound < 2 ^ 25 := by
  have hlen := messageLen_lt s
  simp only [validateWalk]
  omega

def ValidateEnds (s : Source) (rlen : Nat) : Prop := Ends (validHeader s rlen) (validateWalk s)

def EmptyAvp (s : Source) (rlen : Nat) : Prop :=
  MeetsEmpty (validHeader s rlen) (validateWalk s) fun n => avpLen s (20 + n)

theorem validateEnds_iff (rlen : Nat) : ValidateEnds s rlen ↔ ¬ EmptyAvp s rlen :=
  (measured fun _ => rfl).validator_iff (validateWalk_bound_lt s) (fun _ => rfl) _

theorem parse_ends_iff {buf : List UInt8} (h : DeclaresSize buf) :
    (∀ past, (parseWalk ⟨buf, past⟩).EndsWithin (2 ^ 31)) ↔ 20 ≤ buf.length := by
  refine parser_iff (fun past => measured fun _ => rfl) (fun past => ?_) ?_ (fun _ _ => rfl) ?_
  · simp only [parseWalk, messageLen_eq h past]
  · exact messageLen_eq h (fun _ => 0) ▸ messageLen_lt _
  · intro hshort n
    have hblock : (⟨buf, fun _ => 0xff⟩ : Source).block (20 + n + 5) 3 =
        (range 3).map fun _ => 0xff :=
      map_congr_left fun k _ => byte_behind 0xff (by omega)
    rw [avpLen, hblock]
    decide

end Diameter

/-! ## 3. RADIUS -/

namespace Radius

open MixiPgw.Radius

def DeclaresSize (buf : List UInt8) : Prop := 4 ≤ buf.length ∧ ofBe (slice buf 2 2) = buf.length

instance DeclaresSize.decidable (buf : List UInt8) : Decidable (DeclaresSize buf) :=
  inferInstanceAs (Decidable (_ ∧ _))

theorem packetLen_eq {buf : List UInt8} (h : DeclaresSize buf) (past : Nat → UInt8) :
    packetLen ⟨buf, past⟩ = buf.length := by
  rw [packetLen, ofBe_block_eq past h.1, h.2]

theorem measured {σ : Type} {w : Walk σ} {s : Source}
    (h : ∀ n, w.stride n = attrLen s (20 + n)) : Measured w fun n => attrLen s (20 + n) := by
  refine ⟨fun n => ?_, fun n => ?_⟩
  · rw [h]
  · have hlt : attrLen s (20 + n) < 256 := (s.byte (20 + n + 1)).toNat_lt
    rw [h]
    omega

theorem validateWalk_bound_lt (s : Source) : (validateWalk s).bound < 2 ^ 25 := by
  have hlen := packetLen_lt s
  simp only [validateWalk]
  omega

variable (s : Source) (rlen : Nat)

/-- `ValidateRadius` gets behind its loop. -/
def ValidateEnds : Prop := Ends (validHeader s rlen) (validateWalk s)

def EmptyAttr : Prop :=
  MeetsEmpty (validHeader s rlen) (validateWalk s) fun n => attrLen s (20 + n)

theorem validateEnds_iff : ValidateEnds s rlen ↔ ¬ EmptyAttr s rlen :=
  (measured fun _ => rfl).validator_iff (validateWalk_bound_lt s) (fun _ => rfl) _

theorem parse_ends_iff {buf : List UInt8} (h : DeclaresSize buf) :
    (∀ past, (parseWalk ⟨buf, past⟩).EndsWithin (2 ^ 31)) ↔ 20 ≤ buf.length := by
  refine parser_iff (fun past => measured fun _ => rfl) (fun past => ?_) ?_ (fun _ _ => rfl) ?_
  · simp only [parseWalk, packetLen_eq h past]
  · have hlt : buf.length < 65536 := packetLen_eq h (fun _ => 0) ▸ packetLen_lt _
    omega
  · intro hshort n
    rw [attrLen, byte_behind 0xff (by omega)]
    decide

end Radius

/-! ## 4. All four -/

/-- **The loops over a buffer that declares its own size end exactly if** the validator comes to
no element of length zero, and the parser has a whole header in front of it. -/
theorem aaa_loops_end_iff (buf : List UInt8) : (Diameter.DeclaresSize buf →
      (∀ past, Diameter.ValidateEnds ⟨buf, past⟩ buf.length ↔
        ¬ Diameter.EmptyAvp ⟨buf, past⟩ buf.length) ∧
      ((∀ past, (MixiPgw.Diameter.parseWalk ⟨buf, past⟩).EndsWithin (2 ^ 31)) ↔
        20 ≤ buf.length)) ∧
    (Radius.DeclaresSize buf →
      (∀ past, Radius.ValidateEnds ⟨buf, past⟩ buf.length ↔
        ¬ Radius.EmptyAttr ⟨buf, past⟩ buf.length) ∧
      ((∀ past, (MixiPgw.Radius.parseWalk ⟨buf, past⟩).EndsWithin (2 ^ 31)) ↔
        20 ≤ buf.length)) := by
  constructor
  · intro h
    exact ⟨fun past => Diameter.validateEnds_iff _ _, Diameter.parse_ends_iff h⟩
  · intro h
    exact ⟨fun past => Radius.validateEnds_iff _ _, Radius.parse_ends_iff h⟩

def emptyAvpRequest : List UInt8 := [1, 0, 0, 28, 0x80, 0, 1, 0x18] ++ replicate 20 0

def emptyAttrRequest : List UInt8 := [1, 1, 0, 22] ++ replicate 16 0 ++ [1, 0]

/-- The validators never return from these, and a parser does not end on a header of four bytes. -/
theorem empty_elements_and_short_messages : (Diameter.DeclaresSize emptyAvpRequest ∧
        MixiPgw.Diameter.validateDiameter ⟨emptyAvpRequest, fun _ => 0⟩ 28 = none) ∧
      (Radius.DeclaresSize emptyAttrRequest ∧
        MixiPgw.Radius.validLayout ⟨emptyAttrRequest, fun _ => 0⟩ 22 = none) ∧
      Diameter.DeclaresSize [1, 0, 0, 4] ∧
        ¬ ∀ past, (MixiPgw.Diameter.parseWalk ⟨[1, 0, 0, 4], past⟩).EndsWithin (2 ^ 31) := by
  have hfour : Diameter.DeclaresSize [1, 0, 0, 4] := by decide
  refine ⟨⟨by decide, by decide +kernel⟩, ⟨by decide, by decide +kernel⟩, hfour, ?_⟩
  rw [Diameter.parse_ends_iff hfour]
  decide

end MixiPgw.Aaa
