/-
# ICMP replies of the tools

`Icmp::OnFilter` (tools/src/lib/filter/icmp.cc) answers echo requests of both IP versions and
neighbour solicitations in the buffer they came in. The checksum is taken to the end of the frame
and not of the packet in it, `Misc::Checksum` reads a whole word for a last odd byte, and a
solicitation gets its option behind its checksum. `icmp_replies_iff`: EXACTLY which requests get a
reply that verifies, at every depth of tags; behind two of them `CHK_ETHERTYPE` looks at the
second tag, so that most requests never get to the filter.
-/
import MixiPgw.Data.Checksum
import MixiPgw.Lib.Wire
import MixiPgw.Tools.CounterFilters

namespace MixiPgw.Tools.Icmp

open Bytes Data Lib.OnesComplement List CounterFilter

/-! ## 1. The filter -/

def span (data : Nat → UInt8) (i n : Nat) : List UInt8 := (List.range n).map fun k => data (i + k)

/-- `CHK_ETHERTYPE`. Behind two tags it looks at the second tag and not at the type behind it. -/
def chkEthertype (pkt : PktHeader) (type : Nat) : Bool :=
  let at_ := if pkt.lenVlan = 0 then 12 else if pkt.lenVlan = 4 then 16 else 18
  be16 (pkt.data at_) (pkt.data (at_ + 1)) = type

/-- `Wrapsum(Checksum(…))` of `n` bytes, stored. -/
def sumBytes (data : Nat → UInt8) (n : Nat) : List UInt8 :=
  be16Bytes (Misc.wrapsum (Misc.checksum data n 0)).toNat

/-- Set the checksum of the ICMP message at `icmp`, which has been cleared; `covered` is what it is
taken over. -/
def signed (cleared covered : Nat → UInt8) (icmp n : Nat) : Nat → UInt8 :=
  writeAt cleared (icmp + 2) (sumBytes covered n)

def reply4 (pkt : PktHeader) : PktHeader :=
  let dst := writeAt pkt.data (pkt.ip + 16) (span pkt.data (pkt.ip + 12) 4)
  let src := writeAt dst (pkt.ip + 12) (span pkt.data (pkt.ip + 16) 4)
  let typed := writeAt (resum src pkt.ip) pkt.icmp [0]
  let cleared := writeAt typed (pkt.icmp + 2) [0, 0]
  ⟨swapMac (signed cleared (fun i => cleared (pkt.icmp + i)) pkt.icmp (pkt.len.toNat - pkt.icmp)),
    pkt.len⟩

def exchange6 (pkt : PktHeader) : Nat → UInt8 :=
  writeAt (writeAt pkt.data (pkt.ip + 24) (span pkt.data (pkt.ip + 8) 16)) (pkt.ip + 8)
    (span pkt.data (pkt.ip + 24) 16)

/-- `icmpv6bf`: the pseudo header, the message, and what has been on the stack. -/
def icmpv6bf (stack data : Nat → UInt8) (pkt : PktHeader) (i : Nat) : UInt8 :=
  let pseudo := span data (pkt.ip + 8) 32 ++ [data (pkt.ip + 4), data (pkt.ip + 5), 0, 0] ++
    [0, 0, 0, data (pkt.ip + 6)]
  if i < 40 then pseudo.getD i 0
  else if i < 40 + (pkt.len.toNat - pkt.icmp) then data (pkt.icmp + (i - 40))
  else stack i

inductive Outcome
  /-- the frame is not handed to the filter -/
  | elsewhere
  | reterr
  /-- the message does not fit `icmpv6bf` -/
  | overrun
  | sent (pkt : PktHeader)

def reply6 (stack mac : Nat → UInt8) (pkt : PktHeader) : Outcome :=
  let n := pkt.len.toNat - pkt.icmp
  let data := exchange6 pkt
  if data pkt.icmp = 128 then
    if n + 40 ≤ 1518 then
      let cleared := writeAt (writeAt data pkt.icmp [129]) (pkt.icmp + 2) [0, 0]
      .sent ⟨swapMac (signed cleared (icmpv6bf stack cleared pkt) pkt.icmp (n + 40)), pkt.len⟩
    else .overrun
  else if data pkt.icmp = 135 then
    if mac 0 = 0 then .reterr
    else if n + 40 ≤ 1518 then
      let flags := writeAt data (pkt.icmp + 4) [0x60, 0, 0, 0]
      let cleared := writeAt flags pkt.icmp [136, 0, 0, 0]
      let sum := signed cleared (icmpv6bf stack cleared pkt) pkt.icmp (n + 40)
      -- the option is written behind the checksum
      .sent ⟨swapMac (writeAt sum (pkt.icmp + 24) ([2, 1] ++ span mac 0 6)), pkt.len⟩
    else .overrun
  else .sent ⟨swapMac data, pkt.len⟩

def onFilter (stack mac : Nat → UInt8) (pkt : PktHeader) : Outcome :=
  if chkEthertype pkt 0x0800 then .sent (reply4 pkt) else reply6 stack mac pkt

/-- The part of `ArchIf::GetPacketType` that hands a frame to the filter. -/
def isIcmp (pkt : PktHeader) : Bool :=
  34 + pkt.lenVlan ≤ pkt.len.toNat &&
    if chkEthertype pkt 0x0800 && pkt.data pkt.ip >>> 4 = 4 then
      pkt.data (pkt.ip + 9) = 1 && pkt.data (pkt.ip + 8) ≠ 0 && pkt.data pkt.icmp = 8 &&
        span pkt.data (pkt.ip + 12) 4 ≠ [0xde, 0xad, 0xbe, 0xaf]
    else chkEthertype pkt 0x86dd && pkt.data (pkt.ip + 6) = 58 && pkt.data (pkt.ip + 7) ≠ 0

def answer (stack mac : Nat → UInt8) (pkt : PktHeader) : Outcome :=
  if isIcmp pkt then onFilter stack mac pkt else .elsewhere

/-! ## 2. Replies -/

/-- The EtherType behind all tags. -/
def etherType (pkt : PktHeader) : Nat :=
  be16 (pkt.data (12 + pkt.lenVlan)) (pkt.data (13 + pkt.lenVlan))

/-! The lengths of the message, which the IP headers give. A frame may be longer. -/

def icmpLen4 (pkt : PktHeader) : Nat :=
  be16 (pkt.data (pkt.ip + 2)) (pkt.data (pkt.ip + 3)) - pkt.lenIp

def icmpLen6 (pkt : PktHeader) : Nat := be16 (pkt.data (pkt.ip + 4)) (pkt.data (pkt.ip + 5))

/-- The MAC addresses are swapped, and so are the `n` bytes of the IP addresses. -/
def Swapped (rx tx : Nat → UInt8) (src dst n : Nat) : Prop :=
  (∀ j < 6, tx j = rx (6 + j) ∧ tx (6 + j) = rx j) ∧
  ∀ j < n, tx (src + j) = rx (dst + j) ∧ tx (dst + j) = rx (src + j)

/-- A reply to a request over IPv4, if there is one. -/
def Answers4 (pkt : PktHeader) : Outcome → Prop
  | .sent out => Swapped pkt.data out.data (pkt.ip + 12) (pkt.ip + 16) 4 ∧
      Verifies (span out.data pkt.icmp (icmpLen4 pkt))
  | .elsewhere | .reterr => True
  | .overrun => False

/-- A reply to a request over IPv6; the receiver adds the pseudo header of the message. -/
def Answers6 (pkt : PktHeader) : Outcome → Prop
  | .sent out => Swapped pkt.data out.data (pkt.ip + 8) (pkt.ip + 24) 16 ∧
      Verifies (span out.data (pkt.ip + 8) 32 ++ beBytes 4 (icmpLen6 pkt) ++ [0, 0, 0, 58] ++
        span out.data pkt.icmp (icmpLen6 pkt))
  | .elsewhere | .reterr => True
  | .overrun => False

/-- An ICMPv4 echo request in one piece, with any tags, options, payload and trailer. The fields are
checked by evaluation where `pkt` is given. -/
structure Echo4 where
  pkt : PktHeader
  isIp : etherType pkt = 0x0800 := by decide +kernel
  version : pkt.data pkt.ip >>> 4 = 4 := by decide +kernel
  header : 20 ≤ pkt.lenIp := by decide +kernel
  protocol : pkt.data (pkt.ip + 9) = 1 := by decide +kernel
  -- no more fragments, and the offset is zero
  whole : pkt.data (pkt.ip + 6) &&& 0x3f = 0 ∧ pkt.data (pkt.ip + 7) = 0 := by decide +kernel
  type : pkt.data pkt.icmp = 8 := by decide +kernel
  long : 8 ≤ icmpLen4 pkt := by decide +kernel
  frame : pkt.icmp + icmpLen4 pkt ≤ pkt.len.toNat := by decide +kernel
  slot : pkt.len.toNat ≤ 2048 := by decide +kernel

/-- An ICMPv6 message of that kind. -/
structure Request6 where
  pkt : PktHeader
  isIpv6 : etherType pkt = 0x86dd := by decide +kernel
  version : pkt.data pkt.ip >>> 4 = 6 := by decide +kernel
  next : pkt.data (pkt.ip + 6) = 58 := by decide +kernel
  long : 8 ≤ icmpLen6 pkt := by decide +kernel
  frame : pkt.icmp + icmpLen6 pkt ≤ pkt.len.toNat := by decide +kernel
  slot : pkt.len.toNat ≤ 2048 := by decide +kernel

structure Echo6 extends Request6 where
  type : pkt.data pkt.icmp = 128 := by decide +kernel

/-- A neighbour solicitation with the one option that the filter expects. -/
structure Solicitation extends Request6 where
  type : pkt.data pkt.icmp = 135 := by decide +kernel
  payload : icmpLen6 pkt = 32 := by decide +kernel
  layout : pkt.len.toNat = pkt.icmp + 32 := by decide +kernel

/-- The words that a sum over `covered` of the `bytes` has behind a message of `n`: the second half
of its own last word, a trailer, and a byte behind an odd end. -/
def trailing (bytes : Nat → UInt8) (n covered : Nat) : Nat :=
  beSum (replicate (n % 2) 0 ++ span bytes n (2 * ((covered + 1) / 2) - n))

def Echo4.trailing (r : Echo4) : Nat :=
  Icmp.trailing (fun j => r.pkt.data (r.pkt.icmp + j)) (icmpLen4 r.pkt)
    (r.pkt.len.toNat - r.pkt.icmp)

/-- Behind the end of the frame there is what has been on the stack. -/
def Request6.trailing (stack : Nat → UInt8) (r : Request6) : Nat :=
  Icmp.trailing
    (fun j => if j < r.pkt.len.toNat - r.pkt.icmp then r.pkt.data (r.pkt.icmp + j)
      else stack (40 + j))
    (icmpLen6 r.pkt) (r.pkt.len.toNat - r.pkt.icmp)

/-- The sum behind the message is zero, also in the ones' complement unless all of the reply is. -/
def Echo4.Unspoilt (r : Echo4) : Prop :=
  r.trailing = 0 ∨ r.trailing % 65535 = 0 ∧
    ∃ k < icmpLen4 r.pkt, k ≠ 0 ∧ k ≠ 2 ∧ k ≠ 3 ∧ r.pkt.data (r.pkt.icmp + k) ≠ 0

def Echo6.Unspoilt (stack : Nat → UInt8) (r : Echo6) : Prop :=
  r.pkt.len.toNat - r.pkt.icmp + 40 ≤ 1518 ∧ r.trailing stack % 65535 = 0

/-- The option of the advertisement adds up to the same as that of the solicitation. -/
def Solicitation.Unspoilt (mac : Nat → UInt8) (r : Solicitation) : Prop :=
  mac 0 = 0 ∨ beSum (span r.pkt.data (r.pkt.icmp + 24) 8) % 65535 =
    beSum ([2, 1] ++ span mac 0 6) % 65535

/-! ## 3. Checksums -/

section

variable {data data' : Nat → UInt8} {i n : Nat}

@[simp] theorem length_span : (span data i n).length = n := by simp [span]

theorem span_add (data : Nat → UInt8) (i m n : Nat) :
    span data i (m + n) = span data i m ++ span data (i + m) n := by
  simp only [span, range_add, map_append, map_map, Function.comp_def, Nat.add_assoc]

theorem span_congr (h : ∀ k < n, data (i + k) = data' (i + k)) : span data i n = span data' i n :=
  map_congr_left fun k hk => h k (mem_range.mp hk)

theorem getD_span {k : Nat} (h : k < n) : (span data i n).getD k 0 = data (i + k) := by
  simp [span, h]

/-- An odd front leaves the second half of its last word to what comes behind it. -/
theorem beSum_append_pad (l t : List UInt8) :
    beSum (l ++ t) = beSum l + beSum (replicate (l.length % 2) 0 ++ t) := by
  induction l using beSum.induct with
  | case1 => exact (Nat.zero_add _).symm
  | case2 a =>
    cases t with
    | nil => simp [beSum, be16]
    | cons b t => simp [beSum, be16, Nat.add_assoc]
  | case3 a b rest ih =>
    have hlen : (a :: b :: rest).length % 2 = rest.length % 2 := by
      simp only [length_cons]
      omega
    rw [cons_append, cons_append, beSum, beSum, ih, hlen, Nat.add_assoc]

theorem beSum_eq_zero_iff {l : List UInt8} : beSum l = 0 ↔ ∀ b ∈ l, b = 0 := by
  have hbyte (b : UInt8) : b.toNat = 0 ↔ b = 0 := by rw [← UInt8.toNat_inj]; rfl
  induction l using beSum.induct with
  | case1 => simp [beSum]
  | case2 a => simp [beSum, be16, hbyte]
  | case3 a b rest ih =>
    rw [beSum, forall_mem_cons, forall_mem_cons, ih.symm, ← hbyte, ← hbyte, be16]
    omega

/-- The words behind a message are what the sum over all `covered` bytes has more than its own. -/
theorem beSum_trailing (data : Nat → UInt8) {m covered : Nat} (h : m ≤ covered) :
    beSum (span data 0 (2 * ((covered + 1) / 2))) =
      beSum (span data 0 m) + trailing data m covered := by
  obtain ⟨k, hk⟩ : ∃ k, 2 * ((covered + 1) / 2) = m + k := ⟨2 * ((covered + 1) / 2) - m, by omega⟩
  rw [trailing, hk, span_add, beSum_append_pad, length_span, Nat.zero_add, Nat.add_sub_cancel_left]

theorem trailing_congr {m covered : Nat} (h : ∀ k, m ≤ k → data k = data' k) :
    trailing data m covered = trailing data' m covered := by
  unfold trailing
  rw [span_congr fun k _ => h (m + k) (Nat.le_add_right m k)]

/-- What a checksum is taken over: the bytes of the message and one more if they are odd. -/
theorem sumBytes_eq (data : Nat → UInt8) {n : Nat} (h : n < 65536) :
    ∃ f, sumBytes data n = be16Bytes (65535 - f) ∧ f < 65536 ∧
      f % 65535 = beSum (span data 0 (2 * ((n + 1) / 2))) % 65535 ∧
      (f = 0 ↔ beSum (span data 0 (2 * ((n + 1) / 2))) = 0) := by
  have hwords : sumWords data ((n + 1) / 2) 0 0 = beSum (span data 0 (2 * ((n + 1) / 2))) := by
    have hbound := beSum_le (span data 0 (2 * ((n + 1) / 2)))
    rw [length_span] at hbound
    have hsame : sumWords data ((n + 1) / 2) 0 0 =
        sumWords (fun k => (span data 0 (2 * ((n + 1) / 2))).getD k 0) ((n + 1) / 2) 0 0 :=
      sumWords_congr _ 0 0 fun k hk => by rw [getD_span (by omega), Nat.zero_add]
    rw [hsame, sumWords_eq _ _ 0 0 (by rw [length_span]; omega) (by decide), drop_zero,
      Nat.zero_add]
    exact Nat.mod_eq_of_lt (by omega)
  obtain ⟨hlt, hmod, hzero⟩ := foldCarry_spec (beSum (span data 0 (2 * ((n + 1) / 2))))
  refine ⟨_, ?_, hlt, hmod, hzero⟩
  rw [sumBytes, Misc.wrapsum, Misc.checksum, checksum, hwords, UInt16.toNat_ofNat']
  congr 1
  omega

theorem beSum_field {cleared : Nat → UInt8} {c p : Nat} (hp : p % 2 = 0) (hn : p + 2 ≤ n)
    (hc : c < 65536) (hzero : cleared (i + p) = 0 ∧ cleared (i + p + 1) = 0) :
    beSum (span (writeAt cleared (i + p) (be16Bytes c)) i n) = beSum (span cleared i n) + c := by
  have hfield : span (writeAt cleared (i + p) (be16Bytes c)) (i + p) 2 = be16Bytes c := by
    simp [span, writeAt, range_succ, be16Bytes]
  have hnone : span cleared (i + p) 2 = [0, 0] := by
    simp [span, range_succ, hzero.1, hzero.2]
  have hout : ∀ j m, j + m ≤ i + p ∨ i + p + 2 ≤ j →
      span (writeAt cleared (i + p) (be16Bytes c)) j m = span cleared j m := by
    intro j m hj
    refine span_congr fun k hk => writeAt_outside ?_
    rw [be16Bytes_length]
    omega
  obtain ⟨m, rfl⟩ : ∃ m, n = p + (2 + m) := ⟨n - p - 2, by omega⟩
  rw [span_add, span_add, span_add, span_add, hfield, hnone, hout _ _ (.inl (by omega)),
    hout _ _ (.inr (by omega)), beSum_append (by simpa using hp), beSum_append (by simp),
    beSum_append (by simpa using hp), beSum_append (by simp), beSum_be16Bytes hc]
  have hzeroes : beSum [0, 0] = 0 := rfl
  omega

end

/-! ## 4. The branches -/

variable {stack mac : Nat → UInt8}

theorem swapMac_swaps {rx tx : Nat → UInt8} {src dst n : Nat} (h12 : 12 ≤ src) (h12' : 12 ≤ dst)
    (hmac : ∀ j < 12, tx j = rx j)
    (haddr : ∀ j < n, tx (src + j) = rx (dst + j) ∧ tx (dst + j) = rx (src + j)) :
    Swapped rx (swapMac tx) src dst n := by
  refine ⟨fun j hj => ?_, fun j hj => ?_⟩
  · unfold swapMac
    rw [if_pos hj, if_neg (by omega), if_pos (by omega), hmac _ (by omega), hmac _ (by omega),
      Nat.add_comm j 6, Nat.add_sub_cancel_left]
    exact ⟨rfl, rfl⟩
  · rw [swapMac_behind _ (by omega), swapMac_behind _ (by omega)]
    exact haddr j hj

theorem span_swapMac (data : Nat → UInt8) {i n : Nat} (h : 12 ≤ i) :
    span (swapMac data) i n = span data i n :=
  span_congr fun _ _ => swapMac_behind _ (by omega)

theorem resum_outside {data : Nat → UInt8} {ip j : Nat} (h : j < ip + 10 ∨ ip + 12 ≤ j) :
    resum data ip j = data j := by
  unfold resum
  rw [writeAt_outside (by simpa using h), writeAt_outside (by simpa using h)]

/-- The receiver's test of a message with a checksum, `covered` being what the checksum has been
taken over, `front` what the receiver adds to the message and `rest` what it does not see. -/
theorem verifies_signed_iff {cleared covered : Nat → UInt8} {i n m rest : Nat} (front : List UInt8)
    (hn : 4 ≤ n) (hm : m < 65536) (hfront : front.length % 2 = 0)
    (hzero : cleared (i + 2) = 0 ∧ cleared (i + 3) = 0)
    (hcovered : beSum (span covered 0 (2 * ((m + 1) / 2))) =
      beSum front + beSum (span cleared i n) + rest) :
    Verifies (front ++ span (signed cleared covered i m) i n) ↔
      rest = 0 ∨ rest % 65535 = 0 ∧ beSum front + beSum (span cleared i n) ≠ 0 := by
  obtain ⟨f, hsum, hlt, hmod, hf⟩ := sumBytes_eq covered hm
  rw [verifies_iff, signed, hsum, beSum_append hfront, beSum_field rfl hn (by omega) hzero]
  omega

theorem answers_iff {A : Outcome → Prop} {pkt : PktHeader} (h : A .elsewhere) :
    A (answer stack mac pkt) ↔ (isIcmp pkt → A (onFilter stack mac pkt)) := by
  unfold answer
  split
  · next hicmp => exact (imp_iff_right hicmp).symm
  · next hicmp => exact iff_of_true h fun h => absurd h hicmp

namespace Echo4

variable (r : Echo4)

/-- A whole packet does not pass for ICMPv6 behind a tag that looks like its EtherType. -/
theorem onFilter_eq (h : isIcmp r.pkt = true) : onFilter stack mac r.pkt = .sent (reply4 r.pkt) := by
  unfold isIcmp at h
  refine if_pos ?_
  by_contra hother
  rw [if_neg (by simp [hother])] at h
  simp only [Bool.and_eq_true, decide_eq_true_eq] at h
  have hwhole := r.whole.1
  rw [h.2.1.2] at hwhole
  exact absurd hwhole (by decide)

/-- An echo reply over IPv4 verifies if nothing lies behind the message that the sum would see. -/
theorem answers_iff : Answers4 r.pkt (answer stack mac r.pkt) ↔ (isIcmp r.pkt → r.Unspoilt) := by
  refine (Icmp.answers_iff (A := Answers4 r.pkt) trivial).trans (imp_congr_right fun hgiven => ?_)
  have hlong := r.long
  have hframe := r.frame
  have hslot := r.slot
  have hicmp : r.pkt.ip + 20 ≤ r.pkt.icmp := Nat.add_le_add_left r.header _
  have hip : 14 ≤ r.pkt.ip := Nat.le_add_right 14 _
  rw [r.onFilter_eq hgiven]
  unfold Answers4 reply4
  dsimp only
  generalize hdst : writeAt r.pkt.data (r.pkt.ip + 16) (span r.pkt.data (r.pkt.ip + 12) 4) = dst
  generalize hsrc : writeAt dst (r.pkt.ip + 12) (span r.pkt.data (r.pkt.ip + 16) 4) = src
  generalize hcleared : writeAt (writeAt (resum src r.pkt.ip) r.pkt.icmp [0])
    (r.pkt.icmp + 2) [0, 0] = cleared
  -- in front of the message only the addresses and the header checksum are written
  have hfront : ∀ covered n j, j < r.pkt.icmp → (j < r.pkt.ip + 10 ∨ r.pkt.ip + 12 ≤ j) →
      signed cleared covered r.pkt.icmp n j = src j := by
    intro covered n j hj hsum
    rw [signed, writeAt_outside (.inl (by omega)), ← hcleared, writeAt_outside (.inl (by omega)),
      writeAt_outside (.inl hj), resum_outside hsum]
  have hbytes : ∀ k, cleared (r.pkt.icmp + k) =
      if k = 0 ∨ k = 2 ∨ k = 3 then 0 else r.pkt.data (r.pkt.icmp + k) := by
    intro k
    split
    · next hk => rcases hk with rfl | rfl | rfl <;> simp [← hcleared, writeAt]
    · rw [← hcleared, writeAt_outside (by simp; omega), writeAt_outside (by simp; omega),
        resum_outside (.inr (by omega)), ← hsrc, writeAt_outside (.inr (by simp; omega)), ← hdst,
        writeAt_outside (.inr (by simp; omega))]
  have hswapped : Swapped r.pkt.data (swapMac (signed cleared (fun i => cleared (r.pkt.icmp + i))
      r.pkt.icmp (r.pkt.len.toNat - r.pkt.icmp))) (r.pkt.ip + 12) (r.pkt.ip + 16) 4 := by
    refine swapMac_swaps (by omega) (by omega) (fun j hj => ?_) fun j hj => ?_
    · rw [hfront _ _ j (by omega) (.inl (by omega)), ← hsrc, writeAt_outside (.inl (by omega)),
        ← hdst, writeAt_outside (.inl (by omega))]
    · rw [hfront _ _ _ (by omega) (.inr (by omega)), hfront _ _ _ (by omega) (.inr (by omega)),
        ← hsrc, writeAt_inside (by omega) (by rw [length_span]; omega),
        writeAt_outside (.inr (by rw [length_span]; omega)), ← hdst,
        writeAt_inside (by omega) (by rw [length_span]; omega), Nat.add_sub_cancel_left,
        Nat.add_sub_cancel_left, getD_span hj, getD_span hj]
      exact ⟨rfl, rfl⟩
  have hmessage : span (fun i => cleared (r.pkt.icmp + i)) 0 (icmpLen4 r.pkt) =
      span cleared r.pkt.icmp (icmpLen4 r.pkt) := by
    simp only [span, Nat.zero_add]
  have hroom : icmpLen4 r.pkt ≤ r.pkt.len.toNat - r.pkt.icmp := by omega
  have hcovered := beSum_trailing (fun i => cleared (r.pkt.icmp + i)) hroom
  rw [hmessage, trailing_congr fun k hk => (hbytes k).trans (if_neg (by omega)),
    ← Nat.zero_add (beSum (span cleared _ _))] at hcovered
  have hverifies := verifies_signed_iff [] (by omega) (by omega) rfl
    ⟨(hbytes 2).trans rfl, (hbytes 3).trans rfl⟩ hcovered
  have hseen : beSum [] + beSum (span cleared r.pkt.icmp (icmpLen4 r.pkt)) ≠ 0 ↔
      ∃ k < icmpLen4 r.pkt, k ≠ 0 ∧ k ≠ 2 ∧ k ≠ 3 ∧ r.pkt.data (r.pkt.icmp + k) ≠ 0 := by
    rw [beSum, Nat.zero_add, ne_eq, beSum_eq_zero_iff]
    simp only [span, forall_mem_map, mem_range, not_forall, exists_prop, hbytes]
    refine exists_congr fun k => and_congr_right fun _ => ?_
    split
    · next hk => exact iff_of_false (fun h => h rfl) fun h => by omega
    · next hk =>
      have hk' := not_or.mp hk
      exact ⟨fun h => ⟨hk'.1, (not_or.mp hk'.2).1, (not_or.mp hk'.2).2, h⟩, fun h => h.2.2.2⟩
  rw [span_swapMac _ (by omega), and_iff_right hswapped]
  rw [hseen] at hverifies
  exact hverifies

end Echo4

namespace Request6

variable (r : Request6)

theorem icmp_eq : r.pkt.icmp = r.pkt.ip + 40 := by
  have hlen : r.pkt.lenIp = 40 := if_neg (by rw [r.version]; decide)
  rw [PktHeader.icmp, PktHeader.udp, hlen]

/-- Nor does one of version 6 pass for ICMPv4. -/
theorem onFilter_eq (h : isIcmp r.pkt = true) : onFilter stack mac r.pkt = reply6 stack mac r.pkt := by
  unfold isIcmp at h
  rw [if_neg (by simp [r.version])] at h
  simp only [chkEthertype, Bool.and_eq_true, decide_eq_true_eq] at h
  refine if_neg ?_
  simp only [chkEthertype, decide_eq_true_eq]
  rw [h.2.1.1]
  decide

theorem exchange6_eq : (∀ j, j < r.pkt.ip + 8 ∨ r.pkt.ip + 40 ≤ j →
      exchange6 r.pkt j = r.pkt.data j) ∧
    ∀ j < 16, exchange6 r.pkt (r.pkt.ip + 8 + j) = r.pkt.data (r.pkt.ip + 24 + j) ∧
      exchange6 r.pkt (r.pkt.ip + 24 + j) = r.pkt.data (r.pkt.ip + 8 + j) := by
  unfold exchange6
  refine ⟨fun j hj => ?_, fun j hj => ⟨?_, ?_⟩⟩
  · rw [writeAt_outside (by rw [length_span]; omega), writeAt_outside (by rw [length_span]; omega)]
  · rw [writeAt_inside (by omega) (by rw [length_span]; omega), Nat.add_sub_cancel_left, getD_span hj]
  · rw [writeAt_outside (by rw [length_span]; omega), writeAt_inside (by omega)
      (by rw [length_span]; omega), Nat.add_sub_cancel_left, getD_span hj]

theorem swapped {tx : Nat → UInt8} (h : ∀ j < r.pkt.icmp, tx j = exchange6 r.pkt j) :
    Swapped r.pkt.data (swapMac tx) (r.pkt.ip + 8) (r.pkt.ip + 24) 16 := by
  obtain ⟨hsame, haddr⟩ := r.exchange6_eq
  have hip : 14 ≤ r.pkt.ip := Nat.le_add_right 14 _
  have hicmp := r.icmp_eq
  refine swapMac_swaps (by omega) (by omega) (fun j hj => ?_) fun j hj => ?_
  · rw [h j (by omega), hsame j (.inl (by omega))]
  · rw [h _ (by omega), h _ (by omega)]
    exact haddr j hj

/-- What the receiver adds to the message of the frame. -/
def front (tx : Nat → UInt8) : List UInt8 :=
  span tx (r.pkt.ip + 8) 32 ++ beBytes 4 (icmpLen6 r.pkt) ++ [0, 0, 0, 58]

theorem beSum_front (tx : Nat → UInt8) :
    beSum (r.front tx) = beSum (span tx (r.pkt.ip + 8) 32) + icmpLen6 r.pkt + 58 := by
  have hframe := r.frame
  have hslot := r.slot
  have hlen : beSum (beBytes 4 (icmpLen6 r.pkt)) = icmpLen6 r.pkt := by
    simp only [beBytes, beSum, be16, UInt8.toNat_ofNat']
    omega
  rw [front, beSum_append (by simp), beSum_append (by simp), hlen]
  rfl

theorem front_congr {tx tx' : Nat → UInt8} (h : ∀ j < r.pkt.icmp, tx j = tx' j) :
    r.front tx = r.front tx' := by
  have hicmp := r.icmp_eq
  rw [front, span_congr fun k hk => h _ (by omega)]
  rfl

theorem beSum_icmpv6bf {cleared : Nat → UInt8}
    (h : ∀ j, j < r.pkt.icmp ∨ r.pkt.icmp + 8 ≤ j → cleared j = exchange6 r.pkt j) :
    beSum (span (icmpv6bf stack cleared r.pkt) 0
        (2 * ((r.pkt.len.toNat - r.pkt.icmp + 40 + 1) / 2))) =
      beSum (r.front cleared) + beSum (span cleared r.pkt.icmp (icmpLen6 r.pkt)) +
        r.trailing stack := by
  have hsame := r.exchange6_eq.1
  have hicmp := r.icmp_eq
  have hlong := r.long
  have hframe := r.frame
  have hpseudo : span (icmpv6bf stack cleared r.pkt) 0 40 = span cleared (r.pkt.ip + 8) 32 ++
      [cleared (r.pkt.ip + 4), cleared (r.pkt.ip + 5), 0, 0] ++ [0, 0, 0, cleared (r.pkt.ip + 6)] := by
    refine ext_getD (by simp) fun j hj => ?_
    rw [length_span] at hj
    rw [getD_span hj, Nat.zero_add, icmpv6bf, if_pos hj]
  have hfront : beSum (span (icmpv6bf stack cleared r.pkt) 0 40) = beSum (r.front cleared) := by
    rw [hpseudo, beSum_append (by simp), beSum_append (by simp), r.beSum_front,
      h _ (.inl (by omega)), h _ (.inl (by omega)), h _ (.inl (by omega)),
      hsame _ (.inl (by omega)), hsame _ (.inl (by omega)), hsame _ (.inl (by omega)), r.next]
    simp [beSum, be16, icmpLen6]
  have hbytes (j : Nat) : icmpv6bf stack cleared r.pkt (40 + j) =
      if j < r.pkt.len.toNat - r.pkt.icmp then cleared (r.pkt.icmp + j) else stack (40 + j) := by
    unfold icmpv6bf
    rw [if_neg (by omega), Nat.add_sub_cancel_left]
    exact if_congr (by omega) rfl rfl
  have hmessage : span (fun j => icmpv6bf stack cleared r.pkt (40 + j)) 0 (icmpLen6 r.pkt) =
      span cleared r.pkt.icmp (icmpLen6 r.pkt) := by
    refine map_congr_left fun k hk => ?_
    rw [mem_range] at hk
    rw [Nat.zero_add]
    exact (hbytes k).trans (if_pos (by omega))
  have hroom : icmpLen6 r.pkt ≤ r.pkt.len.toNat - r.pkt.icmp := by omega
  have hbehind := beSum_trailing (fun j => icmpv6bf stack cleared r.pkt (40 + j)) hroom
  have htrailing : Icmp.trailing (fun j => icmpv6bf stack cleared r.pkt (40 + j)) (icmpLen6 r.pkt)
      (r.pkt.len.toNat - r.pkt.icmp) = r.trailing stack :=
    trailing_congr fun k hk => (hbytes k).trans <| by
      rw [h _ (.inr (by omega)), hsame _ (.inr (by omega))]
  rw [hmessage, htrailing] at hbehind
  have hshift (n : Nat) : span (icmpv6bf stack cleared r.pkt) (0 + 40) n =
      span (fun j => icmpv6bf stack cleared r.pkt (40 + j)) 0 n := by
    simp only [span, Nat.zero_add]
  rw [show 2 * ((r.pkt.len.toNat - r.pkt.icmp + 40 + 1) / 2) =
    40 + 2 * ((r.pkt.len.toNat - r.pkt.icmp + 1) / 2) by omega, span_add, beSum_append (by simp),
    hfront, hshift, hbehind, Nat.add_assoc]

theorem answers6_iff {tx : Nat → UInt8} (h : ∀ j < r.pkt.icmp, tx j = exchange6 r.pkt j) :
    Answers6 r.pkt (.sent ⟨swapMac tx, r.pkt.len⟩) ↔
      Verifies (r.front tx ++ span tx r.pkt.icmp (icmpLen6 r.pkt)) := by
  have hip : 14 ≤ r.pkt.ip := Nat.le_add_right 14 _
  have hicmp := r.icmp_eq
  rw [Answers6, and_iff_right (r.swapped h), span_swapMac _ (by omega), span_swapMac _ (by omega)]
  rfl

end Request6

/-- An echo reply over IPv6 verifies if it fits the buffer on the stack, and what lies behind the
message adds up to nothing. -/
theorem Echo6.answers_iff (r : Echo6) :
    Answers6 r.pkt (answer stack mac r.pkt) ↔ (isIcmp r.pkt → r.Unspoilt stack) := by
  refine (Icmp.answers_iff (A := Answers6 r.pkt) trivial).trans (imp_congr_right fun hgiven => ?_)
  have hlong := r.long
  have hicmp := r.icmp_eq
  have htype : exchange6 r.pkt r.pkt.icmp = 128 :=
    (r.exchange6_eq.1 _ (.inr (by omega))).trans r.type
  rw [r.onFilter_eq hgiven, reply6, if_pos htype]
  unfold Unspoilt
  split
  · next hfits =>
    generalize hcleared : writeAt (writeAt (exchange6 r.pkt) r.pkt.icmp [129]) (r.pkt.icmp + 2)
      [0, 0] = cleared
    have hkept : ∀ j, j < r.pkt.icmp ∨ r.pkt.icmp + 8 ≤ j → cleared j = exchange6 r.pkt j := by
      intro j hj
      rw [← hcleared, writeAt_outside (by simp; omega), writeAt_outside (by simp; omega)]
    have hzero : cleared (r.pkt.icmp + 2) = 0 ∧ cleared (r.pkt.icmp + 3) = 0 := by
      simp [← hcleared, writeAt]
    have hsigned : ∀ j < r.pkt.icmp, signed cleared (icmpv6bf stack cleared r.pkt) r.pkt.icmp
        (r.pkt.len.toNat - r.pkt.icmp + 40) j = cleared j :=
      fun j hj => writeAt_outside (.inl (by omega))
    have hpos := r.beSum_front cleared
    rw [r.answers6_iff fun j hj => (hsigned j hj).trans (hkept j (.inl hj)), r.front_congr hsigned,
      and_iff_right hfits, verifies_signed_iff _ (by omega) (by omega) (by simp [Request6.front])
        hzero (r.beSum_icmpv6bf hkept)]
    omega
  · next hover => exact iff_of_false id fun h => hover h.1

/-- A neighbour advertisement verifies if its option adds up to the same as the option of the
solicitation. -/
theorem Solicitation.answers_iff (r : Solicitation) :
    Answers6 r.pkt (answer stack mac r.pkt) ↔ (isIcmp r.pkt → r.Unspoilt mac) := by
  refine (Icmp.answers_iff (A := Answers6 r.pkt) trivial).trans (imp_congr_right fun hgiven => ?_)
  have hlayout := r.layout
  have hlen := r.payload
  have hicmp := r.icmp_eq
  have htype : exchange6 r.pkt r.pkt.icmp = 135 :=
    (r.exchange6_eq.1 _ (.inr (by omega))).trans r.type
  rw [r.onFilter_eq hgiven, reply6, if_neg (by rw [htype]; decide), if_pos htype]
  unfold Unspoilt
  split
  · next hmac => exact iff_of_true trivial (.inl hmac)
  · next hmac =>
    rw [if_pos (by omega), or_iff_right hmac]
    dsimp only
    generalize hcleared : writeAt (writeAt (exchange6 r.pkt) (r.pkt.icmp + 4) [0x60, 0, 0, 0])
      r.pkt.icmp [136, 0, 0, 0] = cleared
    have hkept : ∀ j, j < r.pkt.icmp ∨ r.pkt.icmp + 8 ≤ j → cleared j = exchange6 r.pkt j := by
      intro j hj
      rw [← hcleared, writeAt_outside (by simp; omega), writeAt_outside (by simp; omega)]
    have hzero : cleared (r.pkt.icmp + 2) = 0 ∧ cleared (r.pkt.icmp + 3) = 0 := by
      simp [← hcleared, writeAt]
    have hold : span cleared (r.pkt.icmp + 24) 8 = span r.pkt.data (r.pkt.icmp + 24) 8 :=
      span_congr fun k _ => (hkept _ (.inr (by omega))).trans (r.exchange6_eq.1 _ (.inr (by omega)))
    have hn : r.pkt.len.toNat - r.pkt.icmp = 32 := by omega
    have hnone : r.trailing stack = 0 := by
      unfold Request6.trailing
      rw [hn, hlen]
      rfl
    have hcovered : beSum (span (icmpv6bf stack cleared r.pkt) 0 _) = _ := r.beSum_icmpv6bf hkept
    rw [hn, hlen, hnone] at hcovered
    rw [hn]
    obtain ⟨f, hsum, hlt, hmod, hf⟩ := sumBytes_eq (icmpv6bf stack cleared r.pkt)
      (show 32 + 40 < 65536 by decide)
    generalize hopt : [2, 1] ++ span mac 0 6 = opt
    have hoptLen : opt.length = 8 := by rw [← hopt]; simp
    generalize htx : writeAt (signed cleared (icmpv6bf stack cleared r.pkt) r.pkt.icmp (32 + 40))
      (r.pkt.icmp + 24) opt = tx
    have htxFront : ∀ j < r.pkt.icmp, tx j = cleared j := by
      intro j hj
      rw [← htx, writeAt_outside (.inl (by omega)), signed, writeAt_outside (.inl (by omega))]
    -- the message up to the option has the checksum, and the option is the new one
    have htop : span tx r.pkt.icmp 24 =
        span (writeAt cleared (r.pkt.icmp + 2) (be16Bytes (65535 - f))) r.pkt.icmp 24 := by
      refine span_congr fun k hk => ?_
      rw [← htx, writeAt_outside (.inl (by omega)), signed, hsum]
    have hnew : span tx (r.pkt.icmp + 24) 8 = opt := by
      refine ext_getD (by rw [length_span, hoptLen]) fun j hj => ?_
      rw [length_span] at hj
      rw [getD_span hj, ← htx, writeAt_inside (by omega) (by omega), Nat.add_sub_cancel_left]
    have hpos := r.beSum_front cleared
    rw [r.answers6_iff fun j hj => (htxFront j hj).trans (hkept j (.inl hj)), hlen,
      r.front_congr htxFront, verifies_iff, beSum_append (by simp [Request6.front]),
      span_add tx _ 24 8, beSum_append (by simp), htop, hnew,
      beSum_field rfl (by decide) (by omega) hzero]
    rw [hcovered, span_add cleared _ 24 8, beSum_append (by simp), hold] at hmod hf
    omega

/-- **Which requests get a reply that verifies**, if they are handed to the filter at all. -/
theorem icmp_replies_iff (stack mac : Nat → UInt8) :
    (∀ r : Echo4, Answers4 r.pkt (answer stack mac r.pkt) ↔ (isIcmp r.pkt → r.Unspoilt)) ∧
    (∀ r : Echo6, Answers6 r.pkt (answer stack mac r.pkt) ↔ (isIcmp r.pkt → r.Unspoilt stack)) ∧
    (∀ r : Solicitation, Answers6 r.pkt (answer stack mac r.pkt) ↔
      (isIcmp r.pkt → r.Unspoilt mac)) :=
  ⟨Echo4.answers_iff, Echo6.answers_iff, Solicitation.answers_iff⟩

def frameOf (bytes : List UInt8) : PktHeader :=
  ⟨fun i => bytes.getD i 0, UInt32.ofNat bytes.length⟩

def macs : List UInt8 := [2, 1, 1, 1, 1, 1, 2, 1, 1, 1, 1, 2]

/-- An echo request of 12 bytes in a frame of 60, with something in the padding. -/
def paddedEcho (tags : List UInt8) : PktHeader :=
  frameOf (macs ++ tags ++ [8, 0, 0x45, 0, 0, 32, 0, 1, 0, 0, 64, 1, 0, 0, 10, 0, 0, 1, 10, 0, 0, 2,
    8, 0, 0, 0, 0, 1, 0, 1, 97, 98, 99, 100] ++ replicate 13 0 ++ [7])

def padded : Echo4 where pkt := paddedEcho []

/-- Behind two tags, the second of which is 0x0800. -/
def twiceTagged : Echo4 where pkt := paddedEcho [0x81, 0, 0, 5, 0x81, 0, 8, 0]

def ipv6Frame (message : List UInt8) : PktHeader :=
  frameOf (macs ++ [0x86, 0xdd, 0x60, 0, 0, 0, 0, UInt8.ofNat message.length, 58, 255] ++
    replicate 15 0 ++ [1] ++ replicate 15 0 ++ [2] ++ message)

def oddEcho : Echo6 where pkt := ipv6Frame [128, 0, 0, 0, 0, 1, 0, 1, 97]

def solicitation : Solicitation where
  pkt := ipv6Frame ([135, 0, 0, 0, 0, 0, 0, 0] ++ replicate 15 0 ++ [2] ++ [1, 1] ++ macs.drop 6)

/-- Something in the padding of a request, without tags and behind two; something on the stack
behind an odd one; and the advertisement of another address. -/
theorem advertisement_unverified :
    ¬Answers4 padded.pkt (answer (fun _ => 0) (fun _ => 0) padded.pkt) ∧
    ¬Answers4 twiceTagged.pkt (answer (fun _ => 0) (fun _ => 0) twiceTagged.pkt) ∧
    ¬Answers6 oddEcho.pkt (answer (fun _ => 1) (fun _ => 0) oddEcho.pkt) ∧
    ¬Answers6 solicitation.pkt (answer (fun _ => 0)
      (fun i => ([2, 0x11, 0x22, 0x33, 0x44, 0x55] : List UInt8).getD i 0) solicitation.pkt) := by
  rw [Echo4.answers_iff, Echo4.answers_iff, Echo6.answers_iff, Solicitation.answers_iff]
  refine ⟨fun h => ?_, fun h => ?_, fun h => ?_, fun h => ?_⟩
  · exact absurd (h (by decide +kernel)) (by unfold Echo4.Unspoilt; decide +kernel)
  · exact absurd (h (by decide +kernel)) (by unfold Echo4.Unspoilt; decide +kernel)
  · exact absurd (h (by decide +kernel)) (by unfold Echo6.Unspoilt; decide +kernel)
  · exact absurd (h (by decide +kernel)) (by unfold Solicitation.Unspoilt; decide +kernel)

end MixiPgw.Tools.Icmp
