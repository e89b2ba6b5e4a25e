/-
# Reading RADIUS packets

The layout check of `ValidateRadius` and `ParsePacketToVector` of `mod_radius`. The parser copies a
Calling-Station-Id with the length of the ATTRIBUTE, so the type and the length of the next one come
with it, and it leaves numbers in the order of the wire.
-/
import MixiPgw.Lib.CString
import MixiPgw.Lib.Walk
import MixiPgw.Lib.Wire

namespace MixiPgw.Radius

open Bytes CString Lib

/-! ## 1. The layout check -/

def packetLen (s : Source) : Nat := ofBe (s.block 2 2)

def attrLen (s : Source) (p : Nat) : Nat := (s.byte (p + 1)).toNat

/-- The checks of `ValidateRadius` in front of its loop: an access or an accounting request of
the announced length. -/
def validHeader (s : Source) (rlen : Nat) : Bool :=
  (s.byte 0 = 1 || s.byte 0 = 4) && (20 ≤ packetLen s && packetLen s ≤ 4096) && rlen = packetLen s

def validateWalk (s : Source) : Walk Unit where
  bound := packetLen s - 20
  leaves n := packetLen s - 20 < attrLen s (20 + n) + n
  effect _ st := st
  stride n := attrLen s (20 + n)

/-- `ValidateRadius` up to the end of its loop; `none` if it never gets there. -/
def validLayout (s : Source) (rlen : Nat) : Option Bool :=
  if validHeader s rlen then ((validateWalk s).exec ()).map Prod.fst else some false

/-! ## 2. The parser -/

/-- The map of the parser: a string for each type. -/
abbrev IE := Nat → Option Text

structure Parsed where
  mpkt : IE
  ok : Bool

def Parsed.set (st : Parsed) (type : Nat) (text : Text) : Parsed :=
  { st with mpkt := fun t => if t = type then some text else st.mpkt t }

def hexDigit (d : Nat) : UInt8 := if d < 10 then digitChar d else UInt8.ofNat (87 + d)

def hex04 (n : Nat) : Text :=
  [hexDigit (n / 4096 % 16), hexDigit (n / 256 % 16), hexDigit (n / 16 % 16), hexDigit (n % 16)]

/-- `%u` of four bytes that stay in the order of the wire. -/
def wordText (s : Source) (p : Nat) : Text :=
  intText (le32 (s.byte p) (s.byte (p + 1)) (s.byte (p + 2)) (s.byte (p + 3))).toNat

/-- The text of a Framed-IPv6-Prefix. The loop counts from the front of the body and stops at the
length of the attribute. -/
def prefixText (s : Source) (n : Nat) : Text :=
  let pieces := (List.range ((attrLen s (20 + n) - (n + 4) + 1) / 2)).map fun k =>
    (if k = 0 then [] else [58]) ++ hex04 (ofBe (s.block (20 + n + 4 + 2 * k) 2))
  snprintf 127 (pieces.flatten ++ [47] ++ intText (ofBe (s.block (20 + n + 2) 2)))

/-- `RADIUS_MAKE_VENDOR_CODE(RADIUS_CONTENT_TYPE_VENDOR_3GPP_PDP_TYPE)`. -/
def vendorPdpType : Nat := 26 * 65536 + 3

/-- Where the vendor's own attribute starts: behind a vendor id of four bytes, or of two. -/
def vendorOffset (s : Source) (p : Nat) : Nat :=
  if s.byte (p + 2) = 0 ∧ s.byte (p + 3) = 0 then 6 else 4

def parseAttr (s : Source) (n : Nat) (st : Parsed) : Parsed :=
  let p := 20 + n
  let type := (s.byte p).toNat
  let len := attrLen s p
  if type = 31 ∧ 3 < len then { st.set type (s.block (p + 2) len) with ok := true }
  else if type = 4 ∧ len = 6 ∨ type = 8 ∧ len = 6 then
    { st.set type (wordText s (p + 2)) with ok := true }
  else if type = 40 ∧ len = 6 then { st.set type (wordText s (p + 2)) with ok := true }
  else if type = 97 then st.set type (prefixText s n)
  else if type = 26 then
    let offset := vendorOffset s p
    if s.byte (p + offset) = 3 ∧ s.byte (p + offset + 1) = 6 then
      st.set vendorPdpType (wordText s (p + offset + 2))
    else st
  else st

/-- The loop of `ParsePacketToVector`. The bound is an unsigned difference; an attribute of length
zero ends the loop. -/
def parseWalk (s : Source) : Walk Parsed where
  bound := (packetLen s + (2 ^ 64 - 20)) % 2 ^ 64
  leaves n := attrLen s (20 + n) = 0
  effect n st := parseAttr s n st
  stride n := attrLen s (20 + n)

/-- `ParsePacketToVector`; `none` if it never returns. -/
def parsePacketToVector (s : Source) : Option (Bool × IE) :=
  ((parseWalk s).exec ⟨fun _ => none, false⟩).map fun r => (r.2.ok, r.2.mpkt)

/-! ## 3. What passed the check is parsed -/

theorem packetLen_lt (s : Source) : packetLen s < 65536 := by
  have h := ofBe_lt (s.block 2 2)
  rwa [Source.length_block] at h

variable {s : Source} {rlen : Nat}

theorem header_of_validLayout (h : validLayout s rlen = some true) :
    validHeader s rlen = true ∧ ∃ ns, (validateWalk s).Visits 0 ns true := by
  unfold validLayout at h
  split at h
  · rename_i hheader
    obtain ⟨r, hexec, htrue⟩ := Option.map_eq_some_iff.mp h
    obtain ⟨b, st⟩ := r
    obtain rfl : b = true := htrue
    obtain ⟨ns, hvisits, -⟩ := Walk.exec_eq_some_iff.mp hexec
    exact ⟨hheader, ns, hvisits⟩
  · cases h

theorem code_of_validLayout (h : validLayout s rlen = some true) : s.byte 0 = 1 ∨ s.byte 0 = 4 := by
  have hheader := (header_of_validLayout h).1
  simp only [validHeader, Bool.and_eq_true, Bool.or_eq_true, decide_eq_true_eq] at hheader
  exact hheader.1.1

theorem visits_parseWalk (hlen : 20 ≤ packetLen s) {n : Nat} {ns : List Nat}
    (h : (validateWalk s).Visits n ns true) : (parseWalk s).Visits n ns true := by
  have hlt := packetLen_lt s
  have hbound : (parseWalk s).bound = (validateWalk s).bound := by
    simp only [parseWalk, validateWalk]
    omega
  generalize hb : true = b at h
  induction h with
  | bound hle => exact .bound (Nat.le_trans (Nat.le_of_eq hbound) hle)
  | leave _ _ => cases hb
  | next hn hl tail ih =>
    have hpos := (Walk.Visits.next hn hl tail).stride_pos hn hl
    have hstay : (parseWalk s).leaves _ = false := decide_eq_false (Nat.ne_of_gt hpos)
    exact .next (Nat.lt_of_lt_of_eq hn hbound.symm) hstay (ih hb)

theorem parse_of_validLayout (h : validLayout s rlen = some true) :
    ∃ ok ie, parsePacketToVector s = some (ok, ie) := by
  obtain ⟨hheader, ns, hvisits⟩ := header_of_validLayout h
  simp only [validHeader, Bool.and_eq_true, decide_eq_true_eq] at hheader
  have hexec : (parseWalk s).exec ⟨fun _ => none, false⟩ = some (true, _) :=
    Walk.exec_eq_some_iff.mpr ⟨ns, visits_parseWalk hheader.1.2.1 hvisits, rfl⟩
  exact ⟨_, _, by rw [parsePacketToVector, hexec, Option.map_some]⟩

end MixiPgw.Radius
