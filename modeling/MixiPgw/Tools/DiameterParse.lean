/-
# Reading Diameter messages

`ValidateDiameter` and `ParsePacketToVector` of `mod_diameter`: a check of the header and of the
top-level lengths, and a copy of the AVPs the server knows into a map. Both walks stop at every AVP
and nowhere else (`validate_visits`, `parse_visits`). The parser cuts a text value out with the
length of the AVP LESS FOUR, where the header alone has eight bytes, so every text is followed in
the map by what follows it in memory. **`avp_round_trip_iff`** is the round trip, exactly.
-/
import MixiPgw.Lib.Walk
import MixiPgw.Tools.Avp

namespace MixiPgw.Diameter

open Bytes CString Lib List Option Avp Source

/-! ## 1. The two walks -/

def messageLen (s : Source) : Nat := ofBe (s.block 1 3)

def messageCode (s : Source) : Nat := ofBe (s.block 5 3)

def messageAppid (s : Source) : Nat := ofBe (s.block 8 4)

/-- `f.flag.r` and `f.flag.p` of the header. -/
def flagR (flags : UInt8) : Bool := flags.toNat / 128 % 2 = 1
def flagP (flags : UInt8) : Bool := flags.toNat / 64 % 2 = 1

/-- The applications: credit control on Gy and on Gx, watchdog and capabilities exchange. -/
def knownMessage (code appid : Nat) (p : Bool) : Bool :=
  if code = 272 then appid = 4 && p || appid = 16777238
  else if code = 280 then appid = 0
  else if code = 257 then appid = 0
  else false

/-- The checks of `ValidateDiameter` in front of its loop. -/
def validHeader (s : Source) (rlen : Nat) : Bool :=
  flagR (s.byte 4) && s.byte 0 = 1 &&
    knownMessage (messageCode s) (messageAppid s) (flagP (s.byte 4)) &&
    (20 ≤ messageLen s && messageLen s ≤ 4096) && rlen = messageLen s

/-- The loop of `ValidateDiameter`. The state is the raw `cc_type`, `none` as long as nothing was
copied into it. -/
def validateWalk (s : Source) : Walk (Option (List UInt8)) where
  bound := messageLen s - 20
  leaves n := messageLen s - 20 < avpLen s (20 + n) + n
  effect n ccType :=
    if avpCode s (20 + n) = 416 then some (s.block (avpPayload s (20 + n)) 4) else ccType
  stride n := padd4 (avpLen s (20 + n))

/-- `ValidateDiameter`; `none` if it never returns. -/
def validateDiameter (s : Source) (rlen : Nat) : Option (Bool × Option (List UInt8)) :=
  if validHeader s rlen then (validateWalk s).exec none else some (false, none)

abbrev IE := Nat → Option Text

structure Parsed where
  mpkt : IE
  ok : UInt32

namespace Parsed

/-- `SET_DIAMETER_MAP_TXT` and `SET_DIAMETER_MAP_TXTB`: a text and its `HAS_…` bit. -/
def set (st : Parsed) (has : UInt32) (code : Nat) (text : Text) : Parsed :=
  ⟨fun c => if c = code then some text else st.mpkt c, st.ok ||| has⟩

theorem mpkt_set (st : Parsed) (has : UInt32) (code c : Nat) (text : Text) :
    (st.set has code text).mpkt c = if c = code then some text else st.mpkt c := rfl

end Parsed

/-- The bit `1 << n` of a `HAS_…` macro. -/
def hasBit (n : Nat) : UInt32 := UInt32.ofNat (2 ^ n)

/-- The codes whose value is a text, with their bits: Session-Id, Origin-Host, Origin-Realm,
Destination-Realm, Service-Context-Id and Product-Name, the last one without a bit. -/
def textCode (code : Nat) : Option UInt32 :=
  if code = 263 then some (hasBit 31)
  else if code = 264 then some (hasBit 30)
  else if code = 296 then some (hasBit 29)
  else if code = 283 then some (hasBit 28)
  else if code = 461 then some (hasBit 26)
  else if code = 269 then some 0
  else none

/-- The codes whose value is a number: Auth-Application-Id, Vendor-Id, CC-Request-Type and
CC-Request-Number. -/
def numberCode (code : Nat) : Option UInt32 :=
  if code = 258 then some (hasBit 27)
  else if code = 266 then some 0
  else if code = 416 then some (hasBit 25)
  else if code = 415 then some (hasBit 24)
  else none

/-- The loop over the two AVPs of a Subscription-Id. The identifier is taken only behind a type
that says E.164; the type itself goes under the code of the group. -/
def subscriptionLoop (s : Source) (payload : Nat) : Nat → Nat → Bool → Parsed → Parsed
  | 0, _, _, st => st
  | l + 1, m, isE164, st =>
    let avplent := avpLen s (payload + m)
    let text := s.block (avpPayload s (payload + m)) avplent
    if avpCode s (payload + m) = 444 ∧ isE164 then
      subscriptionLoop s payload l (m + padd4 avplent) isE164 (st.set (hasBit 21) 444 text)
    else if avpCode s (payload + m) = 450 ∧ ofBe (s.block (avpPayload s (payload + m)) 4) = 0 then
      subscriptionLoop s payload l (m + padd4 avplent) true (st.set (hasBit 22) 443 text)
    else subscriptionLoop s payload l (m + padd4 avplent) isE164 st

/-- The loop over the AVPs of a Used-Service-Unit. -/
def octetsLoop (s : Source) (payload : Nat) : Nat → Nat → Parsed → Parsed
  | 0, _, st => st
  | p + 1, o, st =>
    let number := intText (ofBe (s.block (avpPayload s (payload + o)) 8))
    let o' := o + padd4 (avpLen s (payload + o))
    if avpCode s (payload + o) = 412 then octetsLoop s payload p o' (st.set (hasBit 20) 412 number)
    else if avpCode s (payload + o) = 414 then
      octetsLoop s payload p o' (st.set (hasBit 19) 414 number)
    else octetsLoop s payload p o' st

/-- The loop that looks for a Used-Service-Unit inside a group. -/
def usedUnitLoop (s : Source) (payload : Nat) : Nat → Nat → Parsed → Parsed
  | 0, _, st => st
  | l + 1, m, st =>
    usedUnitLoop s payload l (m + padd4 (avpLen s (payload + m)))
      (if avpCode s (payload + m) = 446 then
        octetsLoop s (avpPayload s (payload + m)) 3 0 st
      else st)

/-- The body of the parser's loop at the AVP at `p`. `avplenv` is `avplen` less four: the
subtraction of `sizeof(header) + v ? 4 : 0` groups as `(sizeof(header) + v) ? 4 : 0`. -/
def parseAvp (s : Source) (p : Nat) (st : Parsed) : Parsed :=
  let code := avpCode s p
  let avplenv := (avpLen s p + (2 ^ 32 - 4)) % 2 ^ 32
  match textCode code with
  | some has => st.set has code (s.block (avpPayload s p) avplenv)
  | none =>
    match numberCode code with
    | some has => st.set has code (intText (ofBe (s.block (avpPayload s p) 4)))
    | none =>
      if code = 443 then
        let st' := subscriptionLoop s (avpPayload s p) 2 0 false st
        { st' with ok := st'.ok ||| hasBit 23 }
      else if code = 456 then usedUnitLoop s (avpPayload s p) 2 0 st
      else if code = 1067 then usedUnitLoop s (avpPayload s p) 3 0 st
      else st

/-- The loop of `ParsePacketToVector`. The bound is an unsigned difference; an AVP of length zero
ends the loop. -/
def parseWalk (s : Source) : Walk Parsed where
  bound := (messageLen s + (2 ^ 64 - 20)) % 2 ^ 64
  leaves n := avpLen s (20 + n) = 0
  effect n st := parseAvp s (20 + n) st
  stride n := padd4 (avpLen s (20 + n))

def requiredBits (code : Nat) : UInt32 := if code = 272 then 0xfbe00000 else 0x60000000

/-- `ParsePacketToVector`; `none` if it never returns. -/
def parsePacketToVector (s : Source) : Option (Bool × IE) :=
  ((parseWalk s).exec ⟨fun _ => none, 0⟩).map fun r =>
    (r.2.ok &&& requiredBits (messageCode s) = requiredBits (messageCode s), r.2.mpkt)

/-! ## 2. A row of AVPs behind a header -/

def wireBytes : List WireAvp → List UInt8
  | [] => []
  | w :: ws => w.bytes ++ wireBytes ws

theorem bytesAll_eq_wireBytes (avps : List Avp) : bytesAll avps = wireBytes (avps.map wire) := by
  induction avps with
  | nil => exact bytesAll_nil
  | cons avp rest ih => rw [bytesAll_cons, ih, map_cons, wireBytes]

def offsets : Nat → List WireAvp → List Nat
  | _, [] => []
  | n, w :: ws => n :: offsets (n + w.bytes.length) ws

/-- A message: a header whose length field counts the whole, and a row of AVPs. -/
structure Message where
  head : List UInt8
  avps : List WireAvp
  head_length : head.length = 20
  small : 20 + (wireBytes avps).length < 2 ^ 24
  len_eq : (head.drop 1).take 3 = beBytes 3 (20 + (wireBytes avps).length)

namespace Message

def source (m : Message) (past : Nat → UInt8) : Source := ⟨m.head ++ wireBytes m.avps, past⟩

variable (m : Message) (past : Nat → UInt8)

theorem lays_avps : (m.source past).Lays 20 (wireBytes m.avps) := by
  refine ⟨[], ?_⟩
  rw [source, append_nil, ← m.head_length, drop_left]

theorem messageLen_eq : messageLen (m.source past) = 20 + (wireBytes m.avps).length := by
  have hlays : (m.source past).Lays 1 (beBytes 3 (20 + (wireBytes m.avps).length)) := by
    refine ⟨(m.head.drop 1).drop 3 ++ wireBytes m.avps, ?_⟩
    rw [source, drop_append_of_le_length (by rw [m.head_length]; omega), ← m.len_eq,
      ← append_assoc, take_append_drop]
  rw [messageLen, hlays.ofBe (length_beBytes _ _), ofBe_beBytes_of_lt m.small]

end Message

section

variable {σ : Type} {s : Source} {walk : Walk σ}

/-- A walk that steps over AVPs visits a row exactly at its AVPs. -/
theorem visits_row
    (hstep : ∀ {n : Nat} {w : WireAvp} {rest : List UInt8}, s.Lays (20 + n) (w.bytes ++ rest) →
      n + w.bytes.length ≤ walk.bound → w.size < 2 ^ 24 →
      walk.leaves n = false ∧ walk.stride n = w.bytes.length)
    (hsmall : walk.bound < 2 ^ 24) {ws : List WireAvp} :
    ∀ {n : Nat}, s.Lays (20 + n) (wireBytes ws) → n + (wireBytes ws).length = walk.bound →
      walk.Visits n (offsets n ws) true ∧ walk.Comes n walk.bound := by
  induction ws with
  | nil =>
    intro n _ hend
    obtain rfl : n = walk.bound := hend
    exact ⟨.bound (Nat.le_refl _), .refl⟩
  | cons w ws ih =>
    intro n hlays hend
    rw [wireBytes] at hlays hend
    rw [length_append] at hend
    have hbytes := w.length_bytes
    have hpad := padd4_spec w.size
    have hpos : 8 ≤ w.size := by
      unfold WireAvp.size
      omega
    obtain ⟨hleaves, hstride⟩ := hstep hlays (by omega) (by omega)
    have hlt : n < walk.bound := by omega
    have hnext := hlays.right
    rw [Nat.add_assoc] at hnext
    obtain ⟨hvisits, hcomes⟩ := ih hnext (by omega)
    rw [← hstride] at hvisits hcomes
    rw [offsets, ← hstride]
    exact ⟨.next hlt hleaves hvisits, .head ⟨hlt, hleaves, rfl⟩ hcomes⟩

end

theorem validate_visits (m : Message) (past : Nat → UInt8) :
    (validateWalk (m.source past)).Visits 0 (offsets 0 m.avps) true ∧
      (validateWalk (m.source past)).Comes 0 (wireBytes m.avps).length := by
  have hlen := m.messageLen_eq past
  have hsmall := m.small
  have hbound : (validateWalk (m.source past)).bound = (wireBytes m.avps).length := by
    simp only [validateWalk, hlen]
    omega
  rw [← hbound]
  refine visits_row ?_ (by omega) (m.lays_avps past) (by omega)
  intro n w rest hlays hfit hsize
  have havp := avpLen_eq hlays hsize
  have hpad := padd4_spec w.size
  have hbytes := w.length_bytes
  constructor
  · simp only [validateWalk, decide_eq_false_iff_not, havp, hlen]
    omega
  · simp only [validateWalk, havp, hbytes]

theorem parse_visits (m : Message) (past : Nat → UInt8) :
    (parseWalk (m.source past)).Visits 0 (offsets 0 m.avps) true := by
  have hlen := m.messageLen_eq past
  have hsmall := m.small
  have hbound : (parseWalk (m.source past)).bound = (wireBytes m.avps).length := by
    simp only [parseWalk, hlen]
    omega
  refine (visits_row ?_ (by omega) (m.lays_avps past) (by omega)).1
  intro n w rest hlays hfit hsize
  have havp := avpLen_eq hlays hsize
  have hbytes := w.length_bytes
  constructor
  · simp only [parseWalk, decide_eq_false_iff_not, havp]
    unfold WireAvp.size
    omega
  · simp only [parseWalk, havp, hbytes]

/-! ## 3. What the parser leaves in the map -/

/-- The keys that an AVP of this code can write. -/
def keysOf (code : Nat) : List Nat :=
  if (textCode code).isSome ∨ (numberCode code).isSome then [code]
  else if code = 443 then [443, 444]
  else if code = 456 ∨ code = 1067 then [412, 414]
  else []

theorem keysOf_of_text {code : Nat} (h : (textCode code).isSome) : keysOf code = [code] :=
  if_pos (.inl h)

theorem keysOf_of_number {code : Nat} (h : (numberCode code).isSome) : keysOf code = [code] :=
  if_pos (.inr h)

theorem textCode_of_number {code : Nat} (h : (numberCode code).isSome) : textCode code = none := by
  have hcode : code = 258 ∨ code = 266 ∨ code = 416 ∨ code = 415 := by
    by_contra hno
    obtain ⟨h1, h2, h3, h4⟩ := not_or.mp hno |>.imp_right fun hno =>
      not_or.mp hno |>.imp_right not_or.mp
    rw [numberCode, if_neg h1, if_neg h2, if_neg h3, if_neg h4] at h
    cases h
  rcases hcode with rfl | rfl | rfl | rfl <;> rfl

theorem eq_of_mem_keysOf {c code : Nat} (hc : (textCode c).isSome ∨ (numberCode c).isSome)
    (h : c ∈ keysOf code) : code = c := by
  have hother : ∀ k ∈ [443, 444, 412, 414], c ≠ k := by
    intro k hk hck
    subst hck
    simp only [mem_cons, not_mem_nil, or_false] at hk
    rcases hk with rfl | rfl | rfl | rfl <;> simp [textCode, numberCode] at hc
  unfold keysOf at h
  split at h
  · exact (mem_singleton.mp h).symm
  · split at h
    · simp only [mem_cons, not_mem_nil, or_false] at h
      rcases h with h | h
      · exact absurd h (hother 443 (by simp))
      · exact absurd h (hother 444 (by simp))
    · split at h
      · simp only [mem_cons, not_mem_nil, or_false] at h
        rcases h with h | h
        · exact absurd h (hother 412 (by simp))
        · exact absurd h (hother 414 (by simp))
      · exact absurd h not_mem_nil

theorem eq_of_mem_keysOf_444 {code : Nat} (h : 444 ∈ keysOf code) : code = 443 := by
  unfold keysOf at h
  split at h
  · rename_i hcode
    obtain rfl := mem_singleton.mp h
    simp [textCode, numberCode] at hcode
  · split at h
    · assumption
    · split at h <;> simp at h

section

variable {s : Source} {st : Parsed} {c : Nat}

theorem subscriptionLoop_mpkt {payload l m : Nat} {isE164 : Bool} (h3 : c ≠ 443) (h4 : c ≠ 444) :
    (subscriptionLoop s payload l m isE164 st).mpkt c = st.mpkt c := by
  induction l generalizing m isE164 st with
  | zero => rfl
  | succ l ih =>
    simp only [subscriptionLoop]
    split
    · rw [ih, Parsed.mpkt_set, if_neg h4]
    · split
      · rw [ih, Parsed.mpkt_set, if_neg h3]
      · exact ih

theorem octetsLoop_mpkt {payload p o : Nat} (h2 : c ≠ 412) (h4 : c ≠ 414) :
    (octetsLoop s payload p o st).mpkt c = st.mpkt c := by
  induction p generalizing o st with
  | zero => rfl
  | succ p ih =>
    simp only [octetsLoop]
    split
    · rw [ih, Parsed.mpkt_set, if_neg h2]
    · split
      · rw [ih, Parsed.mpkt_set, if_neg h4]
      · exact ih

theorem usedUnitLoop_mpkt {payload l m : Nat} (h2 : c ≠ 412) (h4 : c ≠ 414) :
    (usedUnitLoop s payload l m st).mpkt c = st.mpkt c := by
  induction l generalizing m st with
  | zero => rfl
  | succ l ih =>
    rw [usedUnitLoop, ih]
    split
    · exact octetsLoop_mpkt h2 h4
    · rfl

theorem parseAvp_mpkt_of_not_mem {p : Nat} (h : c ∉ keysOf (avpCode s p)) :
    (parseAvp s p st).mpkt c = st.mpkt c := by
  unfold parseAvp
  dsimp only
  cases htext : textCode (avpCode s p) with
  | some has =>
    rw [keysOf_of_text (by rw [htext]; rfl), mem_singleton] at h
    exact if_neg h
  | none =>
    cases hnum : numberCode (avpCode s p) with
    | some has =>
      rw [keysOf_of_number (by rw [hnum]; rfl), mem_singleton] at h
      exact if_neg h
    | none =>
      have hkeys : keysOf (avpCode s p) = if avpCode s p = 443 then [443, 444]
          else if avpCode s p = 456 ∨ avpCode s p = 1067 then [412, 414] else [] := by
        rw [keysOf, if_neg (by simp [htext, hnum])]
      rw [hkeys] at h
      dsimp only
      by_cases h443 : avpCode s p = 443
      · rw [if_pos h443] at h ⊢
        simp only [mem_cons, not_mem_nil, or_false, not_or] at h
        exact subscriptionLoop_mpkt h.1 h.2
      · rw [if_neg h443] at h ⊢
        by_cases h456 : avpCode s p = 456
        · rw [if_pos (.inl h456)] at h
          simp only [mem_cons, not_mem_nil, or_false, not_or] at h
          rw [if_pos h456]
          exact usedUnitLoop_mpkt h.1 h.2
        · rw [if_neg h456]
          by_cases h1067 : avpCode s p = 1067
          · rw [if_pos (.inr h1067)] at h
            simp only [mem_cons, not_mem_nil, or_false, not_or] at h
            rw [if_pos h1067]
            exact usedUnitLoop_mpkt h.1 h.2
          · rw [if_neg h1067]

variable {p : Nat} {w : WireAvp} {rest : List UInt8}

/-- A text goes into the map with what follows it: four bytes, and four more for a vendor
id. -/
theorem parseAvp_text (hlays : s.Lays p (w.bytes ++ rest)) (hsize : w.size < 2 ^ 24)
    (h : (textCode w.code.toNat).isSome) :
    (parseAvp s p st).mpkt w.code.toNat =
      some (w.value ++ s.block (avpPayload s p + w.value.length) (4 + w.vendor.length)) := by
  obtain ⟨has, htext⟩ := isSome_iff_exists.mp h
  have hlenv : (w.size + (2 ^ 32 - 4)) % 2 ^ 32 = w.value.length + (4 + w.vendor.length) := by
    unfold WireAvp.size at hsize ⊢
    omega
  have hvalue := (lays_value hlays).left.block
  unfold parseAvp
  dsimp only
  rw [avpCode_eq hlays, htext]
  dsimp only
  rw [Parsed.mpkt_set, if_pos rfl, avpLen_eq hlays hsize, hlenv, block_add, hvalue]

theorem parseAvp_number {n : Nat} (hlays : s.Lays p (w.bytes ++ rest))
    (hvalue : w.value = beBytes 4 n) (hn : n < 2 ^ 32) (h : (numberCode w.code.toNat).isSome) :
    (parseAvp s p st).mpkt w.code.toNat = some (intText n) := by
  obtain ⟨has, hnum⟩ := isSome_iff_exists.mp h
  have htext := textCode_of_number h
  have hbytes := (lays_value hlays).left
  rw [hvalue] at hbytes
  have hread : ofBe (s.block (avpPayload s p) 4) = n := by
    rw [hbytes.ofBe (length_beBytes _ _), ofBe_beBytes_of_lt hn]
  unfold parseAvp
  dsimp only
  rw [avpCode_eq hlays, htext, hnum]
  dsimp only
  rw [Parsed.mpkt_set, if_pos rfl, hread]

end

variable (pre post : List WireAvp)

theorem offsets_append (n : Nat) :
    offsets n (pre ++ post) = offsets n pre ++ offsets (n + (wireBytes pre).length) post := by
  induction pre generalizing n with
  | nil => rfl
  | cons w pre ih =>
    rw [cons_append, offsets, ih, offsets, wireBytes, length_append, cons_append, Nat.add_assoc]

theorem wireBytes_append : wireBytes (pre ++ post) = wireBytes pre ++ wireBytes post := by
  induction pre with
  | nil => rfl
  | cons w pre ih => rw [cons_append, wireBytes, ih, wireBytes, append_assoc]

variable {s : Source}

theorem effects_mpkt {c : Nat} {ws : List WireAvp} :
    ∀ {n : Nat} {st : Parsed}, s.Lays (20 + n) (wireBytes ws) →
      (∀ w ∈ ws, c ∉ keysOf w.code.toNat) →
      ((parseWalk s).effects st (offsets n ws)).mpkt c = st.mpkt c := by
  induction ws with
  | nil => exact fun _ _ => rfl
  | cons w ws ih =>
    intro n st hlays hkeys
    rw [wireBytes] at hlays
    have hnext := hlays.right
    rw [Nat.add_assoc] at hnext
    have hone : (parseAvp s (20 + n) st).mpkt c = st.mpkt c := by
      refine parseAvp_mpkt_of_not_mem ?_
      rw [avpCode_eq hlays]
      exact hkeys w mem_cons_self
    exact (ih hnext fun x hx => hkeys x (mem_cons_of_mem _ hx)).trans hone

def Message.parsed (m : Message) (past : Nat → UInt8) : Parsed :=
  (parseWalk (m.source past)).effects ⟨fun _ => none, 0⟩ (offsets 0 m.avps)

theorem parsePacketToVector_eq (m : Message) (past : Nat → UInt8) :
    ∃ ok, parsePacketToVector (m.source past) = some (ok, (m.parsed past).mpkt) := by
  have hexec : (parseWalk (m.source past)).exec ⟨fun _ => none, 0⟩ = some (true, m.parsed past) :=
    Walk.exec_eq_some_iff.mpr ⟨_, parse_visits m past, rfl⟩
  exact ⟨_, by rw [parsePacketToVector, hexec, map_some]⟩

theorem Message.parsed_at {m : Message} {past : Nat → UInt8} {pre post : List WireAvp} {w : WireAvp}
    {c : Nat} (hm : m.avps = pre ++ w :: post) (hpost : ∀ x ∈ post, c ∉ keysOf x.code.toNat) :
    (m.source past).Lays (20 + (wireBytes pre).length) (w.bytes ++ wireBytes post) ∧
      w.size < 2 ^ 24 ∧
      ∃ st, (m.parsed past).mpkt c =
        (parseAvp (m.source past) (20 + (wireBytes pre).length) st).mpkt c := by
  have hall := m.lays_avps past
  have hsmall := m.small
  have hbytes := w.length_bytes
  have hpad := padd4_spec w.size
  rw [hm, wireBytes_append, wireBytes] at hall hsmall
  rw [length_append, length_append] at hsmall
  have hw := hall.right
  have hrest := hw.right
  rw [Nat.add_assoc] at hrest
  refine ⟨hw, by omega, (parseWalk (m.source past)).effects ⟨fun _ => none, 0⟩ (offsets 0 pre), ?_⟩
  rw [parsed, hm, offsets_append, Nat.zero_add, offsets, Walk.effects, foldl_append, foldl_cons]
  exact effects_mpkt hrest hpost

/-! ## 4. The round trip -/

def subscriptionId (data : Text) : Avp := .group 443 [.uint32 450 0, .string 444 data]

theorem subscriptionLoop_members {st : Parsed} {q : Nat} {data : Text} (hlays : s.Lays q
      ((uint32 450 0).wire.bytes ++ ((Avp.string 444 data).wire.bytes ++ [])))
    (hsmall : (Avp.string 444 data).wire.size < 2 ^ 24) :
    subscriptionLoop s q 2 0 false st =
      (st.set (hasBit 22) 443 (s.block (avpPayload s (q + 0)) 12)).set (hasBit 21) 444
        (s.block (avpPayload s (q + 12)) ((cstr data).length + 8)) := by
  -- the type
  have htype : avpCode s (q + 0) = 450 := avpCode_eq hlays
  have hnum : ofBe (s.block (avpPayload s (q + 0)) 4) = 0 := by
    have hzero : s.Lays (avpPayload s (q + 0)) (beBytes 4 0) := (lays_value hlays).left
    rw [hzero.ofBe (length_beBytes _ _), ofBe_beBytes_of_lt (by decide)]
  have hlen : avpLen s (q + 0) = 12 := avpLen_eq hlays (by decide)
  -- the identifier behind it
  have hnext : s.Lays (q + 12) ((Avp.string 444 data).wire.bytes ++ []) := hlays.right
  have hdata : avpCode s (q + 12) = 444 := avpCode_eq hnext
  have hdsize : (Avp.string 444 data).wire.size = (cstr data).length + 8 := by
    simp only [WireAvp.size, wire, frame, value, vendor, vendorBytes, length_nil]
    omega
  have hdlen : avpLen s (q + 12) = (cstr data).length + 8 := (avpLen_eq hnext hsmall).trans hdsize
  have hpadd : 0 + padd4 12 = 12 := rfl
  rw [subscriptionLoop, if_neg (by simp), if_pos ⟨htype, hnum⟩, hlen, hpadd, subscriptionLoop,
    if_pos ⟨hdata, rfl⟩, hdlen, subscriptionLoop]

/-- The identifier goes into the map with eight bytes behind it. -/
theorem parseAvp_subscription {st : Parsed} {p : Nat} {data : Text}
    {rest : List UInt8} (hlays : s.Lays p ((subscriptionId data).wire.bytes ++ rest))
    (hsize : (subscriptionId data).wire.size < 2 ^ 24) :
    ∃ behind : List UInt8, behind.length = 8 ∧
      (parseAvp s p st).mpkt 444 = some (cstr data ++ behind) := by
  have hcode : avpCode s p = 443 := avpCode_eq hlays
  have hvalue := (lays_value hlays).left
  have hmembers : (subscriptionId data).wire.value =
      (uint32 450 0).wire.bytes ++ ((Avp.string 444 data).wire.bytes ++ []) := by
    simp only [subscriptionId, wire, frame, value, bytesAll]
  rw [hmembers] at hvalue
  generalize hq : avpPayload s p = q at hvalue
  have hsmall : (Avp.string 444 data).wire.size < 2 ^ 24 := by
    have hlen := congrArg length hmembers
    have hbytes := (Avp.string 444 data).wire.length_bytes
    have hpad := padd4_spec (Avp.string 444 data).wire.size
    simp only [length_append, length_nil] at hlen
    unfold WireAvp.size at hsize
    omega
  have hnext : s.Lays (q + 12) ((Avp.string 444 data).wire.bytes ++ []) := hvalue.right
  have htext : s.block (avpPayload s (q + 12)) (cstr data).length = cstr data := by
    have := (lays_value hnext).left.block
    simpa only [wire, frame, value] using this
  refine ⟨s.block (avpPayload s (q + 12) + (cstr data).length) 8, length_block _ _ _, ?_⟩
  unfold parseAvp
  dsimp only
  rw [hcode, hq, subscriptionLoop_members hvalue hsmall, block_add, htext]
  rfl

/-- The AVPs of the round trip, each a call of its encoder. -/
inductive Written
  | string (code : UInt32) (str : Text)
  | stringv (code vendor : UInt32) (str : Text)
  | uint32 (code num : UInt32)
  | subscriptionId (data : Text)

namespace Written

def avp : Written → Avp
  | string code str => .string code str
  | stringv code vendor str => .stringv code vendor str
  | uint32 code num => .uint32 code num
  | subscriptionId data => Diameter.subscriptionId data

def code (w : Written) : UInt32 := w.avp.code

/-- What the map should hold of an AVP: a known text as it was written, a known number as its
decimal text. -/
def Reads (ie : IE) : Written → Prop
  | string code str | stringv code _ str =>
    (textCode code.toNat).isSome → ie code.toNat = some (cstr str)
  | uint32 code num => (numberCode code.toNat).isSome → ie code.toNat = some (intText num.toNat)
  | subscriptionId data => ie 444 = some (cstr data)

/-- An AVP whose value the parser takes for a text. -/
def IsText : Written → Prop
  | string code _ | stringv code _ _ => (textCode code.toNat).isSome
  | uint32 _ _ => False
  | subscriptionId _ => True

end Written

variable {head : List UInt8}

theorem length_splice_head (hhead : head.length = 20) (n : Nat) :
    (splice head 1 (beBytes 3 n)).length = 20 := by
  rw [length_splice (by rw [length_beBytes]; omega), hhead]

theorem take_splice_head (hhead : head.length = 20) (n : Nat) :
    ((splice head 1 (beBytes 3 n)).drop 1).take 3 = beBytes 3 n := by
  have hone : (head.take 1).length = 1 := by
    rw [length_take]
    omega
  rw [splice, append_assoc, drop_left' hone, take_left' (length_beBytes _ _)]

def Message.ofAvps (head : List UInt8) (avps : List Avp) (hhead : head.length = 20)
    (hsmall : 20 + (wireBytes (avps.map wire)).length < 2 ^ 24) : Message where
  head := splice head 1 (beBytes 3 (20 + (wireBytes (avps.map wire)).length))
  avps := avps.map wire
  head_length := length_splice_head hhead _
  small := hsmall
  len_eq := take_splice_head hhead _

theorem source_ofAvps {size : Nat} {avps : List Avp} (hhead : head.length = 20)
    (hsmall : 20 + (wireBytes (avps.map wire)).length < 2 ^ 24)
    (hfit : 20 + (wireBytes (avps.map wire)).length ≤ size) (past : Nat → UInt8) :
    (Message.ofAvps head avps hhead hsmall).source past = ⟨encodeMessage size head avps, past⟩ := by
  rw [← bytesAll_eq_wireBytes] at hfit
  rw [encodeMessage_eq hhead hfit, bytesAll_eq_wireBytes]
  rfl

section

variable {m : Message} (past : Nat → UInt8) {ws : List Written} (hm : m.avps = ws.map (·.avp.wire))
  (hcodes : (ws.map Written.code).Nodup)
include hm hcodes

theorem written_at {w : Written} (hw : w ∈ ws) {c : Nat}
    (hc : ∀ code, c ∈ keysOf code → code = w.code.toNat) :
    ∃ p rest st, (m.source past).Lays p (w.avp.wire.bytes ++ rest) ∧ w.avp.wire.size < 2 ^ 24 ∧
      (m.parsed past).mpkt c = (parseAvp (m.source past) p st).mpkt c := by
  obtain ⟨pre, post, rfl⟩ := append_of_mem hw
  have hpost : ∀ x ∈ post.map (·.avp.wire), c ∉ keysOf x.code.toNat := by
    intro x hx hmem
    obtain ⟨y, hy, rfl⟩ := mem_map.mp hx
    have heq : y.code = w.code := UInt32.toNat_inj.mp (hc _ hmem)
    rw [map_append, map_cons] at hcodes
    have hnot := (nodup_cons.mp (nodup_append.mp hcodes).2.1).1
    exact hnot (heq ▸ mem_map_of_mem hy)
  rw [map_append, map_cons] at hm
  obtain ⟨hlays, hsize, st, heq⟩ := @Message.parsed_at m past _ _ _ _ hm hpost
  exact ⟨_, _, st, hlays, hsize, heq⟩

theorem reads_uint32 {code num : UInt32} (hw : .uint32 code num ∈ ws) :
    (Written.uint32 code num).Reads (m.parsed past).mpkt := by
  intro hnum
  obtain ⟨p, rest, st, hlays, -, heq⟩ := written_at past hm hcodes hw (c := code.toNat)
    fun c hc => eq_of_mem_keysOf (.inr hnum) hc
  rw [heq]
  exact parseAvp_number hlays rfl num.toNat_lt hnum

theorem not_reads_text {w : Written} (hw : w ∈ ws) (htext : w.IsText) :
    ¬ w.Reads (m.parsed past).mpkt := by
  intro hreads
  -- a text that is longer than what was written
  have hlonger : ∀ {c : Nat} {value behind : List UInt8}, 0 < behind.length →
      (m.parsed past).mpkt c = some (value ++ behind) → (m.parsed past).mpkt c ≠ some value := by
    intro c value behind hpos heq hne
    have hlen := congrArg length (some.inj (heq.symm.trans hne))
    rw [length_append] at hlen
    omega
  cases w with
  | string code str =>
    obtain ⟨p, rest, st, hlays, hsize, heq⟩ := written_at past hm hcodes hw (c := code.toNat)
      fun c hc => eq_of_mem_keysOf (.inl htext) hc
    exact hlonger (by rw [length_block]; omega)
      (heq.trans (parseAvp_text hlays hsize htext)) (hreads htext)
  | stringv code vendor str =>
    obtain ⟨p, rest, st, hlays, hsize, heq⟩ := written_at past hm hcodes hw (c := code.toNat)
      fun c hc => eq_of_mem_keysOf (.inl htext) hc
    exact hlonger (by rw [length_block]; omega)
      (heq.trans (parseAvp_text hlays hsize htext)) (hreads htext)
  | uint32 code num => exact htext
  | subscriptionId data =>
    obtain ⟨p, rest, st, hlays, hsize, heq⟩ := written_at past hm hcodes hw (c := 444)
      fun c hc => eq_of_mem_keysOf_444 hc
    obtain ⟨behind, hlen, hmap⟩ := @parseAvp_subscription _ st _ _ _ hlays hsize
    exact hlonger (by omega) (heq.trans hmap) hreads

end

/-- **The AVP round trip, exactly.** The numbers come back as they were written and the texts do
not: there must be neither an AVP of a text code nor a Subscription-Id in the row. -/
theorem avp_round_trip_iff (size : Nat) (head : List UInt8) (ws : List Written) (past : Nat → UInt8)
    (hhead : head.length = 20) (hsmall : 20 + (bytesAll (ws.map Written.avp)).length < 2 ^ 24)
    (hfit : 20 + (bytesAll (ws.map Written.avp)).length ≤ size)
    (hcodes : (ws.map Written.code).Nodup) :
    (∃ ok ie, parsePacketToVector ⟨encodeMessage size head (ws.map Written.avp), past⟩ =
        some (ok, ie) ∧ ∀ w ∈ ws, w.Reads ie) ↔
      ∀ w ∈ ws, ¬ w.IsText := by
  rw [bytesAll_eq_wireBytes] at hsmall hfit
  have hsource := source_ofAvps hhead hsmall hfit past
  generalize hmsg : Message.ofAvps head (ws.map Written.avp) hhead hsmall = m at hsource
  have hm : m.avps = ws.map (·.avp.wire) := by
    rw [← hmsg]
    exact map_map
  rw [← hsource]
  obtain ⟨ok, hparse⟩ := parsePacketToVector_eq m past
  constructor
  · rintro ⟨ok', ie, hparse', hreads⟩ w hw htext
    obtain ⟨-, rfl⟩ := Prod.mk.inj (some.inj (hparse.symm.trans hparse'))
    exact not_reads_text past hm hcodes hw htext (hreads w hw)
  · intro hno
    refine ⟨ok, _, hparse, fun w hw => ?_⟩
    cases w with
    | string code str => exact fun htext => absurd htext (hno _ hw)
    | stringv code vendor str => exact fun htext => absurd htext (hno _ hw)
    | uint32 code num => exact reads_uint32 past hm hcodes hw
    | subscriptionId data => exact absurd trivial (hno _ hw)

theorem two_numbers_round_trip :
    let ws : List Written := [.uint32 258 4, .uint32 416 1]
    ∃ ok ie, parsePacketToVector ⟨encodeMessage 64 (replicate 20 0) (ws.map Written.avp),
      fun _ => 0⟩ = some (ok, ie) ∧ ∀ w ∈ ws, w.Reads ie :=
  (avp_round_trip_iff 64 (replicate 20 0) [.uint32 258 4, .uint32 416 1] (fun _ => 0) rfl
    (by decide) (by decide) (by decide)).mpr (by simp [Written.IsText])

/-- The Session-Id `abcd` comes back with the code of the next AVP behind it. -/
theorem session_id_with_the_next_code : (parsePacketToVector ⟨encodeMessage 64 (replicate 20 0)
        [.string 263 [97, 98, 99, 100], .uint32 258 4], fun _ => 0⟩).map (fun r => r.2 263) =
      some (some [97, 98, 99, 100, 0, 0, 1, 2]) := by
  decide +kernel

end MixiPgw.Diameter
