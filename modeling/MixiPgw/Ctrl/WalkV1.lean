/-
# The walk over a version-1 message

`event_gtpc_v1_any_req` and `_ParseImsi` of the proxy walk a message in two loops, over the
extension headers and over the information elements. Both keep the offset in 16 bits and add to it
what the message says (`elementNext_offset`), so neither loop has to come to an end. They do, each
turn moving the offset forward, exactly on the `Steady` messages (`walksForward_iff`); an extension
header of length 0 keeps both programs busy for ever.
-/
import MixiPgw.Lib.Loop
import MixiPgw.Ctrl.PdpContext

namespace MixiPgw.Ctrl

open Bytes Lib Option List

/-! ## 1. The two loops, turn by turn -/

def extensionNext (payload : Source) (offset : Nat) : Nat :=
  (offset + (payload.byte offset).toNat * 4) % 65536

/-- By this byte the loop tells whether another header follows. -/
def byteBefore (payload : Source) (offset : Nat) : UInt8 :=
  payload.byte ((offset + 2 ^ 64 - 1) % 2 ^ 64)

def extensionStep (payload : Source) (datalen : Nat) (offset : Nat) : Nat ⊕ Nat :=
  if offset < datalen then
    if byteBefore payload (extensionNext payload offset) = 0 then
      .inl (extensionNext payload offset)
    else .inr (extensionNext payload offset)
  else .inl offset

def elementLength (payload : Source) (offset : Nat) : Nat :=
  be16 (payload.byte (offset + 1)) (payload.byte (offset + 2))

/-- `extlen` of the element at `offset`; `none` is `ERR`, for a type that is not in the table or
contents of length 0 given to a parser. -/
def elementExtlen (payload : Source) (offset : Nat) : Option Nat :=
  match msgsGtpcV1Len (payload.byte offset) with
  | none => none
  | some len =>
    let ielen := if len = 0 then elementLength payload offset else len - 1
    if msgsGtpcV1Parser (payload.byte offset) ∧ ielen = 0 then none
    else some (if len = 0 then (elementLength payload offset + 3) % 65536 else len)

/-- The body of the element loop; `none` where it returns `ERR`. -/
def elementNext (stack : Nat → UInt8) (payload : Source) (offset : Nat) (cs : GtpcParseState) :
    Option (Nat × GtpcParseState) :=
  let type := payload.byte offset
  match msgsGtpcV1Len type with
  | none => none
  | some len =>
    let ielen := if len = 0 then elementLength payload offset else len - 1
    let extlen := if len = 0 then (elementLength payload offset + 3) % 65536 else len
    if msgsGtpcV1Parser type then
      match onGtpcv1ParseRoot stack type (fun i => payload.byte (offset + i)) ielen cs with
      | (_, false) => none
      | (cs', true) => some ((offset + extlen) % 65536, cs')
    else some ((offset + extlen) % 65536, cs)

def ieStep (stack : Nat → UInt8) (payload : Source) (datalen : Nat) (s : Nat × GtpcParseState) :
    Option GtpcParseState ⊕ (Nat × GtpcParseState) :=
  if s.1 < datalen then
    match elementNext stack payload s.1 s.2 with
    | none => .inl none
    | some s' => .inr s'
  else .inl (some s.2)

theorem extensionLoop_eq_iterate (payload : Source) (datalen n offset : Nat) :
    extensionLoop payload datalen n offset =
      Loop.iterate (extensionStep payload datalen) n offset := by
  induction n generalizing offset with
  | zero => rfl
  | succ n ih =>
    simp only [extensionLoop, Loop.iterate, extensionStep]
    split
    · by_cases hlast : byteBefore payload (extensionNext payload offset) = 0
      · rw [if_pos hlast]
        exact if_pos hlast
      · rw [if_neg hlast]
        exact (if_neg hlast).trans (ih _)
    · rfl

variable (stack : Nat → UInt8)

theorem ieLoop_eq_iterate (payload : Source) (datalen n offset : Nat) (cs : GtpcParseState) :
    ieLoop stack payload datalen n offset cs =
      Loop.iterate (ieStep stack payload datalen) n (offset, cs) := by
  induction n generalizing offset cs with
  | zero => rfl
  | succ n ih =>
    simp only [ieLoop, Loop.iterate, ieStep, elementNext, elementLength]
    split
    · cases msgsGtpcV1Len (payload.byte offset) with
      | none => rfl
      | some len =>
        dsimp only
        split
        · generalize onGtpcv1ParseRoot stack (payload.byte offset) _ _ cs = result
          obtain ⟨cs', ok⟩ := result
          cases ok with
          | false => rfl
          | true => exact ih _ cs'
        · exact ih _ _
    · rfl

variable {type : UInt8}

theorem copyRule_eq_none (cs : GtpcParseState) (h : copyRule cs type = none)
    (htype : msgsGtpcV1Parser type = true) :
    type = gtpcV1IeCause ∨ type = gtpcV1IeQos ∨ type = gtpcV1IeNsapi ∨ type = gtpcV1IePco := by
  simp only [msgsGtpcV1Parser, decide_eq_true_eq, mem_cons, not_mem_nil, or_false]
    at htype
  unfold copyRule at h
  repeat' split at h
  all_goals grind

theorem onOtherElement_ok (data : Nat → UInt8) (datalen : Nat)
    (cs : GtpcParseState)
    (htype : type = gtpcV1IeCause ∨ type = gtpcV1IeQos ∨ type = gtpcV1IeNsapi ∨
      type = gtpcV1IePco) :
    (onOtherElement stack type data datalen cs).2 = true := by
  unfold onOtherElement
  repeat' split
  all_goals grind

theorem onGtpcv1ParseRoot_ok (data : Nat → UInt8)
    (datalen : Nat) (cs : GtpcParseState) (htype : msgsGtpcV1Parser type = true) :
    (onGtpcv1ParseRoot stack type data datalen cs).2 = decide (datalen ≠ 0) := by
  unfold onGtpcv1ParseRoot
  split
  · simp [*]
  · rename_i hlen
    rw [decide_eq_true hlen]
    dsimp only
    cases hrule : copyRule (cs.haveV1 .v1) type with
    | none => exact onOtherElement_ok stack data datalen _ (copyRule_eq_none _ hrule htype)
    | some rule =>
      dsimp only
      split <;> rfl

/-- What a turn adds to the offset is in the message. -/
theorem elementNext_offset (payload : Source) (offset : Nat) (cs : GtpcParseState) :
    (elementNext stack payload offset cs).map Prod.fst =
      (elementExtlen payload offset).map fun extlen => (offset + extlen) % 65536 := by
  unfold elementNext elementExtlen
  dsimp only
  cases msgsGtpcV1Len (payload.byte offset) with
  | none => rfl
  | some len =>
    dsimp only
    by_cases hparser : msgsGtpcV1Parser (payload.byte offset) = true
    · have hok := onGtpcv1ParseRoot_ok stack (fun i => payload.byte (offset + i))
        (if len = 0 then elementLength payload offset else len - 1) cs hparser
      rw [if_pos hparser]
      generalize hres : onGtpcv1ParseRoot stack (payload.byte offset)
        (fun i => payload.byte (offset + i))
        (if len = 0 then elementLength payload offset else len - 1) cs = res at hok
      obtain ⟨cs', ok⟩ := res
      dsimp only at hok
      subst hok
      by_cases hempty : (if len = 0 then elementLength payload offset else len - 1) = 0
      · simp [hempty, hparser]
      · simp [hempty]
    · simp [hparser]

/-! ## 2. Both programs -/

def hasExtension (payload : Source) : Bool := payload.byte 0 &&& 0x04 ≠ 0

/-- Any of the three flags of the header adds four bytes. -/
def firstOffset (payload : Source) : Nat := if payload.byte 0 &&& 0x07 ≠ 0 then 12 else 8

def loopsV1 (fuel : Nat) (stack : Nat → UInt8) (payload : Source) (datalen : Nat)
    (cs : GtpcParseState) : Option (Option GtpcParseState) :=
  match if hasExtension payload then extensionLoop payload datalen fuel (firstOffset payload)
      else some (firstOffset payload) with
  | none => none
  | some offset => ieLoop stack payload datalen fuel offset cs

def startV1 (payload : Source) : GtpcParseState :=
  { GtpcParseState.zero with
    gtphSeqno := UInt32.ofNat
      (if payload.byte 0 &&& 0x02 ≠ 0 then be16 (payload.byte 8) (payload.byte 9) else 0) }

/-- `_ParseImsi`: the IMSI and the parse state; `none` while a loop goes on, `some none` for
`ERR`. -/
def parseImsi (fuel : Nat) (mem : ItemMemory) (errnoRange : Bool) (rbuf : Source) (rlen : Nat)
    (cs : GtpcParseState) : Option (Option (Nat × GtpcParseState)) :=
  let digits (cs : GtpcParseState) := gtpcDigitsGet errnoRange (digitsOf (cs.item .imsi) 8)
  if flagsVersion (rbuf.byte 0) = 2 then
    match (gtpcAllocPacketFromPayload rbuf rlen).val with
    | none => some none
    | some pkt =>
      let cs' := gtpcIterateItem mem pkt cs
      if ¬ cs'.flag .imsi then some none
      else if ¬ cs'.flag .fteidC then some none
      else some (some (digits cs', cs'))
  else
    match loopsV1 fuel mem.stack rbuf rlen cs with
    | none => none
    | some none => some none
    | some (some cs') => if ¬ cs'.flagV1 .v1Imsi then some none else some (some (digits cs', cs'))

theorem walkV1_eq_loopsV1 (fuel : Nat) (stack : Nat → UInt8) (rx : RxPacket) :
    walkV1 fuel stack rx = (loopsV1 fuel stack rx.data rx.datalen (startV1 rx.data)).map
      (Option.map fun cs => { cs with gtphTeid := teidOf rx.data }) := by
  simp only [walkV1, loopsV1, hasExtension, firstOffset, startV1, decide_eq_true_eq]
  generalize (if rx.data.byte 0 &&& 4 ≠ 0 then
    extensionLoop rx.data rx.datalen fuel (if rx.data.byte 0 &&& 7 ≠ 0 then 12 else 8)
    else some (if rx.data.byte 0 &&& 7 ≠ 0 then 12 else 8)) = start
  cases start with
  | none => rfl
  | some offset =>
    dsimp only
    generalize ieLoop stack rx.data rx.datalen fuel offset _ = result
    rcases result with _ | _ | cs <;> rfl

/-- Where the element loop starts, when every turn before has moved the offset forward. -/
def ExtensionsAdvance (payload : Source) (datalen : Nat) (start : Nat) : Prop :=
  if hasExtension payload then
    ∃ offsets, Loop.Run (extensionStep payload datalen) (firstOffset payload) offsets start ∧
      ∀ o ∈ firstOffset payload :: offsets, o < datalen → o < extensionNext payload o
  else start = firstOffset payload

/-- **Both loops come to an end, and every turn moves the offset forward.** -/
def Advances (stack : Nat → UInt8) (payload : Source) (datalen : Nat) (cs : GtpcParseState) : Prop :=
  ∃ start, ExtensionsAdvance payload datalen start ∧
    ∃ states result, Loop.Run (ieStep stack payload datalen) (start, cs) states result ∧
      ∀ s ∈ (start, cs) :: states, s.1 < datalen →
        ∀ s', elementNext stack payload s.1 s.2 = some s' → s.1 < s'.1

def ExtensionsEnd (payload : Source) (datalen : Nat) (start : Nat) : Prop :=
  if hasExtension payload then
    ∃ offsets, Loop.Run (extensionStep payload datalen) (firstOffset payload) offsets start
  else start = firstOffset payload

variable {payload : Source} {datalen start : Nat}

theorem ExtensionsAdvance.ends
    (h : ExtensionsAdvance payload datalen start) : ExtensionsEnd payload datalen start := by
  unfold ExtensionsAdvance at h
  unfold ExtensionsEnd
  by_cases hflag : hasExtension payload = true
  · rw [if_pos hflag] at h ⊢
    obtain ⟨offsets, hrun, -⟩ := h
    exact ⟨offsets, hrun⟩
  · rw [if_neg hflag] at h ⊢
    exact h

theorem ExtensionsEnd.unique {datalen start start' : Nat}
    (h : ExtensionsEnd payload datalen start) (h' : ExtensionsEnd payload datalen start') :
    start = start' := by
  unfold ExtensionsEnd at h h'
  by_cases hflag : hasExtension payload = true
  · rw [if_pos hflag] at h h'
    obtain ⟨offsets, hrun⟩ := h
    obtain ⟨offsets', hrun'⟩ := h'
    exact (hrun.unique hrun').2
  · rw [if_neg hflag] at h h'
    exact h.trans h'.symm

theorem extensionsEnd_of_none (h : hasExtension payload = false)
    (datalen : Nat) : ExtensionsEnd payload datalen (firstOffset payload) := by
  rw [ExtensionsEnd, if_neg (by simp [h])]

variable {stack : Nat → UInt8} {cs : GtpcParseState} {result : Option GtpcParseState}

theorem loopsV1_of_run {states : List (Nat × GtpcParseState)}
    (hext : ExtensionsEnd payload datalen start)
    (hrun : Loop.Run (ieStep stack payload datalen) (start, cs) states result) :
    ∃ fuel, loopsV1 fuel stack payload datalen cs = some result := by
  unfold ExtensionsEnd at hext
  unfold Ctrl.loopsV1
  split at hext
  · rename_i hflag
    obtain ⟨offsets, hrun'⟩ := hext
    refine ⟨offsets.length + states.length + 1, ?_⟩
    rw [if_pos hflag, extensionLoop_eq_iterate, hrun'.iterate _ (by omega)]
    exact (ieLoop_eq_iterate _ _ _ _ _ _).trans (hrun.iterate _ (by omega))
  · rename_i hflag
    subst hext
    refine ⟨states.length + 1, ?_⟩
    rw [if_neg hflag]
    exact (ieLoop_eq_iterate _ _ _ _ _ _).trans (hrun.iterate _ (Nat.lt_succ_self _))

variable {datalen : Nat}

theorem run_of_loopsV1 {fuel : Nat} (h : loopsV1 fuel stack payload datalen cs = some result) :
    ∃ start states, ExtensionsEnd payload datalen start ∧
      Loop.Run (ieStep stack payload datalen) (start, cs) states result := by
  unfold loopsV1 at h
  split at h
  · exact absurd h (by simp)
  · rename_i start hstart
    rw [ieLoop_eq_iterate] at h
    obtain ⟨states, hrun⟩ := Loop.exists_run_of_iterate h
    refine ⟨start, states, ?_, hrun⟩
    unfold ExtensionsEnd
    by_cases hflag : hasExtension payload = true
    · rw [if_pos hflag, extensionLoop_eq_iterate] at hstart
      rw [if_pos hflag]
      exact Loop.exists_run_of_iterate hstart
    · rw [if_neg hflag] at hstart
      rw [if_neg hflag]
      exact (some.inj hstart).symm

theorem Advances.loopsV1 (h : Advances stack payload datalen cs) :
    ∃ fuel result, loopsV1 fuel stack payload datalen cs = some result := by
  obtain ⟨start, hext, states, result, hrun, -⟩ := h
  obtain ⟨fuel, hfuel⟩ := loopsV1_of_run hext.ends hrun
  exact ⟨fuel, result, hfuel⟩

/-! ## 3. Where headers and elements stand -/

def extensionEnd (payload : Source) (offset : Nat) : Nat := offset + (payload.byte offset).toNat * 4

/-- The extension headers: the first at 12, each further one behind a header whose last byte is not
0. -/
inductive ExtensionAt (payload : Source) (datalen : Nat) : Nat → Prop
  | first (hflag : hasExtension payload = true) (hlt : 12 < datalen) : ExtensionAt payload datalen 12
  | next {offset : Nat} (h : ExtensionAt payload datalen offset)
      (hmore : payload.byte (extensionEnd payload offset - 1) ≠ 0)
      (hlt : extensionEnd payload offset < datalen) :
      ExtensionAt payload datalen (extensionEnd payload offset)

/-- The elements: the first behind the headers, each further one behind an element that is not
refused. -/
inductive ElementAt (payload : Source) (datalen : Nat) : Nat → Prop
  | first (hflag : hasExtension payload = false) (hlt : firstOffset payload < datalen) :
      ElementAt payload datalen (firstOffset payload)
  | behind {offset : Nat} (h : ExtensionAt payload datalen offset)
      (hlast : payload.byte (extensionEnd payload offset - 1) = 0)
      (hlt : extensionEnd payload offset < datalen) :
      ElementAt payload datalen (extensionEnd payload offset)
  | next {offset extlen : Nat} (h : ElementAt payload datalen offset)
      (hext : elementExtlen payload offset = some extlen) (hlt : offset + extlen < datalen) :
      ElementAt payload datalen (offset + extlen)

/-- **A message whose walk moves on**: no extension header has length 0, no element a length field
that makes its 16-bit step 0 (0xfffd), and none ends beyond 65535. -/
structure Steady (payload : Source) (datalen : Nat) : Prop where
  extension : ∀ offset, ExtensionAt payload datalen offset →
    payload.byte offset ≠ 0 ∧ extensionEnd payload offset < 65536
  element : ∀ offset, ElementAt payload datalen offset →
    ∀ extlen, elementExtlen payload offset = some extlen → 0 < extlen ∧ offset + extlen < 65536

section

variable {payload : Source} {datalen : Nat}

variable {offset : Nat}

theorem ExtensionAt.bounds (h : ExtensionAt payload datalen offset) :
    12 ≤ offset ∧ offset < datalen := by
  induction h with
  | first _ hlt => exact ⟨Nat.le_refl _, hlt⟩
  | next _ _ hlt ih => exact ⟨le_trans ih.1 (Nat.le_add_right _ _), hlt⟩

theorem ExtensionAt.flag (h : ExtensionAt payload datalen offset) :
    hasExtension payload = true := by
  induction h with
  | first hflag _ => exact hflag
  | next _ _ _ ih => exact ih

theorem ElementAt.lt (h : ElementAt payload datalen offset) : offset < datalen := by
  cases h with
  | first _ hlt => exact hlt
  | behind _ _ hlt => exact hlt
  | next _ _ hlt => exact hlt

theorem firstOffset_of_extension (h : hasExtension payload = true) : firstOffset payload = 12 := by
  refine if_pos fun hnone => of_decide_eq_true h ?_
  calc payload.byte 0 &&& 0x04 = payload.byte 0 &&& 0x07 &&& 0x04 := by
        rw [UInt8.and_assoc]
        rfl
    _ = 0 := by rw [hnone, UInt8.zero_and]

theorem lt_wrapped_iff {offset step : Nat} (hstep : step < 65536) :
    offset < (offset + step) % 65536 ↔ 0 < step ∧ offset + step < 65536 := by
  omega

theorem lt_extensionNext_iff :
    offset < extensionNext payload offset ↔
      payload.byte offset ≠ 0 ∧ extensionEnd payload offset < 65536 := by
  have hlt := (payload.byte offset).toNat_lt
  have hzero : payload.byte offset ≠ 0 ↔ 0 < (payload.byte offset).toNat * 4 := by
    rw [ne_eq, ← UInt8.toNat_inj, UInt8.toNat_zero]
    omega
  rw [hzero]
  exact lt_wrapped_iff (by omega)

theorem extensionNext_of_lt (h : extensionEnd payload offset < 65536) :
    extensionNext payload offset = extensionEnd payload offset := Nat.mod_eq_of_lt h

theorem byteBefore_eq (h0 : 0 < offset) (h : offset < 65536) :
    byteBefore payload offset = payload.byte (offset - 1) := by
  have hmod : (offset + 2 ^ 64 - 1) % 2 ^ 64 = offset - 1 := by omega
  rw [byteBefore, hmod]

theorem extensionStep_eq (hlt : offset < datalen) (h0 : 0 < offset)
    (h : extensionEnd payload offset < 65536) :
    extensionStep payload datalen offset =
      if payload.byte (extensionEnd payload offset - 1) = 0 then .inl (extensionEnd payload offset)
      else .inr (extensionEnd payload offset) := by
  have hpos : 0 < extensionEnd payload offset := Nat.lt_of_lt_of_le h0 (Nat.le_add_right _ _)
  rw [extensionStep, if_pos hlt, extensionNext_of_lt h, byteBefore_eq hpos h]

theorem ExtensionAt.reach
    (hforward : ∀ o, Loop.Reach (extensionStep payload datalen) 12 o → o < datalen →
      o < extensionNext payload o) (h : ExtensionAt payload datalen offset) :
    Loop.Reach (extensionStep payload datalen) 12 offset := by
  induction h with
  | first => exact .refl
  | next hprev hmore _ ih =>
    obtain ⟨h12, hlt⟩ := hprev.bounds
    have hend := (lt_extensionNext_iff.mp (hforward _ ih hlt)).2
    refine .tail ih ?_
    rw [extensionStep_eq hlt (by omega) hend, if_neg hmore]

theorem extensionAt_of_reach (hflag : hasExtension payload = true)
    (hsteady : ∀ o, ExtensionAt payload datalen o →
      payload.byte o ≠ 0 ∧ extensionEnd payload o < 65536)
    (h : Loop.Reach (extensionStep payload datalen) 12 offset) (hlt : offset < datalen) :
    ExtensionAt payload datalen offset := by
  induction h with
  | refl => exact .first hflag hlt
  | @tail o o' _ hstep ih =>
    have ho : o < datalen := by
      by_contra hge
      rw [extensionStep, if_neg hge] at hstep
      exact absurd hstep (by simp)
    have hat := ih ho
    have hend := (hsteady o hat).2
    rw [extensionStep_eq ho (by have := hat.bounds; omega) hend] at hstep
    split at hstep
    · exact absurd hstep (by simp)
    · rename_i hmore
      obtain rfl := Sum.inr.inj hstep
      exact .next hat hmore hlt

theorem extensionStep_down {o o' : Nat} (hforward : o < datalen → o < extensionNext payload o)
    (hstep : extensionStep payload datalen o = .inr o') : 65536 - o' < 65536 - o := by
  unfold extensionStep at hstep
  split at hstep
  · rename_i hlt
    have hbound : extensionNext payload o < 65536 := Nat.mod_lt _ (by decide)
    split at hstep
    · exact absurd hstep (by simp)
    · obtain rfl := Sum.inr.inj hstep
      omega
  · exact absurd hstep (by simp)

/-- The extension-header loop ends and moves forward when no header stands still or wraps. -/
theorem extensionsAdvance_iff (hflag : hasExtension payload = true) :
    (∃ start, ExtensionsAdvance payload datalen start) ↔
      ∀ o, ExtensionAt payload datalen o → payload.byte o ≠ 0 ∧ extensionEnd payload o < 65536 := by
  have hloop := Loop.run_forall_iff (s := 12) (fun o => 65536 - o)
    fun o o' => @extensionStep_down payload datalen o o'
  simp only [ExtensionsAdvance, hflag, if_true, firstOffset_of_extension hflag]
  rw [exists_comm, hloop]
  constructor
  · intro hforward o ho
    exact lt_extensionNext_iff.mp (hforward o (ho.reach hforward) ho.bounds.2)
  · intro hsteady o ho hlt
    exact lt_extensionNext_iff.mpr (hsteady o (extensionAt_of_reach hflag hsteady ho hlt))

variable {start : Nat}

theorem ExtensionsAdvance.elementAt (h : ExtensionsAdvance payload datalen start)
    (hsteady : ∀ o, ExtensionAt payload datalen o →
      payload.byte o ≠ 0 ∧ extensionEnd payload o < 65536) (hlt : start < datalen) :
    ElementAt payload datalen start := by
  unfold ExtensionsAdvance at h
  split at h
  · rename_i hflag
    obtain ⟨offsets, hrun, -⟩ := h
    rw [firstOffset_of_extension hflag] at hrun
    obtain ⟨o, hreach, hexit⟩ := hrun.exists_exit
    by_cases ho : o < datalen
    · have hat := extensionAt_of_reach hflag hsteady hreach ho
      rw [extensionStep_eq ho (by have := hat.bounds; omega) (hsteady o hat).2] at hexit
      split at hexit
      · rename_i hlast
        obtain rfl := Sum.inl.inj hexit
        exact .behind hat hlast hlt
      · exact absurd hexit (by simp)
    · rw [extensionStep, if_neg ho] at hexit
      obtain rfl := Sum.inl.inj hexit
      exact absurd hlt ho
  · rename_i hflag
    subst h
    exact .first (by simpa using hflag) hlt

theorem ExtensionsAdvance.eq_extensionEnd
    (h : ExtensionsAdvance payload datalen start) {o : Nat} (ho : ExtensionAt payload datalen o)
    (hlast : payload.byte (extensionEnd payload o - 1) = 0) : start = extensionEnd payload o := by
  have hflag := ho.flag
  simp only [ExtensionsAdvance, hflag, if_true, firstOffset_of_extension hflag] at h
  obtain ⟨offsets, hrun, hforward⟩ := h
  have hreach := ho.reach fun x hx => hforward x (hrun.reach_mem hx)
  obtain ⟨h12, hlt⟩ := ho.bounds
  have hend := (lt_extensionNext_iff.mp (hforward o (hrun.reach_mem hreach) hlt)).2
  refine hrun.result_eq hreach ?_
  rw [extensionStep_eq hlt (by omega) hend, if_pos hlast]

theorem msgsGtpcV1Len_lt {type : UInt8} {len : Nat} (h : msgsGtpcV1Len type = some len) :
    len < 65536 := by
  have htable : ∀ entry ∈ fixedLengths, entry.2 < 65536 := by decide
  unfold msgsGtpcV1Len at h
  split at h
  · rename_i hlookup
    obtain ⟨before, after, hfixed, -⟩ := lookup_eq_some_iff.mp hlookup
    obtain rfl := some.inj h
    exact htable (type, _) (by simp [hfixed])
  · split at h
    · obtain rfl := some.inj h
      decide
    · exact absurd h (by simp)

variable {offset extlen : Nat}

theorem elementExtlen_lt (h : elementExtlen payload offset = some extlen) : extlen < 65536 := by
  unfold elementExtlen at h
  split at h
  · exact absurd h (by simp)
  · rename_i len hlen
    dsimp only at h
    by_cases hrefused : msgsGtpcV1Parser (payload.byte offset) ∧
        (if len = 0 then elementLength payload offset else len - 1) = 0
    · rw [if_pos hrefused] at h
      exact absurd h (by simp)
    · rw [if_neg hrefused] at h
      obtain rfl := some.inj h
      split
      · exact Nat.mod_lt _ (by decide)
      · exact msgsGtpcV1Len_lt hlen

variable {stack : Nat → UInt8} {cs : GtpcParseState} {s : Nat × GtpcParseState}

theorem elementNext_eq_some (h : elementNext stack payload offset cs = some s) :
    ∃ extlen, elementExtlen payload offset = some extlen ∧ s.1 = (offset + extlen) % 65536 := by
  have hmap := elementNext_offset stack payload offset cs
  rw [h, map_some] at hmap
  obtain ⟨extlen, hext, hs⟩ := map_eq_some_iff.mp hmap.symm
  exact ⟨extlen, hext, hs.symm⟩

theorem elementNext_of_extlen (stack : Nat → UInt8) (cs : GtpcParseState)
    (h : elementExtlen payload offset = some extlen) :
    ∃ cs', elementNext stack payload offset cs = some ((offset + extlen) % 65536, cs') := by
  have hmap := elementNext_offset stack payload offset cs
  rw [h, map_some] at hmap
  obtain ⟨⟨o, cs'⟩, hnext, ho⟩ := map_eq_some_iff.mp hmap
  exact ⟨cs', ho ▸ hnext⟩

theorem elementNext_forward_iff :
    (∀ s, elementNext stack payload offset cs = some s → offset < s.1) ↔
      ∀ extlen, elementExtlen payload offset = some extlen →
        0 < extlen ∧ offset + extlen < 65536 := by
  constructor
  · intro h extlen hext
    obtain ⟨cs', hnext⟩ := elementNext_of_extlen stack cs hext
    exact (lt_wrapped_iff (elementExtlen_lt hext)).mp (h _ hnext)
  · intro h s hs
    obtain ⟨extlen, hext, hoff⟩ := elementNext_eq_some hs
    rw [hoff]
    exact (lt_wrapped_iff (elementExtlen_lt hext)).mpr (h extlen hext)

variable {s s' : Nat × GtpcParseState}

theorem ieStep_eq_inr :
    ieStep stack payload datalen s = .inr s' ↔
      s.1 < datalen ∧ elementNext stack payload s.1 s.2 = some s' := by
  unfold ieStep
  split
  · split <;> simp [*]
  · simp [*]

theorem elementAt_of_reach
    (hsteady : Steady payload datalen) (hext : ExtensionsAdvance payload datalen start)
    (h : Loop.Reach (ieStep stack payload datalen) (start, cs) s)
    (hlt : s.1 < datalen) : ElementAt payload datalen s.1 := by
  induction h with
  | refl => exact hext.elementAt hsteady.extension hlt
  | tail _ hstep ih =>
    obtain ⟨ho, hnext⟩ := ieStep_eq_inr.mp hstep
    obtain ⟨extlen, hlen, hoff⟩ := elementNext_eq_some hnext
    have hsum : _ = _ := hoff.trans (Nat.mod_eq_of_lt (hsteady.element _ (ih ho) extlen hlen).2)
    rw [hsum] at hlt ⊢
    exact .next (ih ho) hlen hlt

theorem ElementAt.reach (hext : ExtensionsAdvance payload datalen start)
    (hforward : ∀ s, Loop.Reach (ieStep stack payload datalen) (start, cs) s → s.1 < datalen →
      ∀ s', elementNext stack payload s.1 s.2 = some s' → s.1 < s'.1)
    (h : ElementAt payload datalen offset) :
    ∃ cs', Loop.Reach (ieStep stack payload datalen) (start, cs) (offset, cs') := by
  induction h with
  | first hflag _ =>
    simp only [ExtensionsAdvance, hflag, Bool.false_eq_true, if_false] at hext
    exact ⟨cs, hext ▸ .refl⟩
  | behind ho hlast _ => exact ⟨cs, hext.eq_extensionEnd ho hlast ▸ .refl⟩
  | next hprev hlen _ ih =>
    obtain ⟨cs', hreach⟩ := ih
    obtain ⟨cs'', hnext⟩ := elementNext_of_extlen stack cs' hlen
    have hsum := (elementNext_forward_iff.mp (hforward _ hreach hprev.lt) _ hlen).2
    rw [Nat.mod_eq_of_lt hsum] at hnext
    exact ⟨cs'', .tail hreach (ieStep_eq_inr.mpr ⟨hprev.lt, hnext⟩)⟩

theorem ieStep_down
    (hforward : s.1 < datalen → ∀ s', elementNext stack payload s.1 s.2 = some s' → s.1 < s'.1)
    (hstep : ieStep stack payload datalen s = .inr s') : 65536 - s'.1 < 65536 - s.1 := by
  obtain ⟨hlt, hnext⟩ := ieStep_eq_inr.mp hstep
  obtain ⟨extlen, -, hoff⟩ := elementNext_eq_some hnext
  have hup := hforward hlt s' hnext
  omega

end

/-! ## 4. When the walk ends -/

theorem advances_iff_steady (stack : Nat → UInt8) (payload : Source) (datalen : Nat)
    (cs : GtpcParseState) : Advances stack payload datalen cs ↔ Steady payload datalen := by
  have hloop (start : Nat) := Loop.run_forall_iff (s := (start, cs)) (fun s => 65536 - s.1)
    fun s s' => @ieStep_down payload datalen stack s s'
  have hstart : (∃ start, ExtensionsAdvance payload datalen start) ↔
      ∀ o, ExtensionAt payload datalen o →
        payload.byte o ≠ 0 ∧ extensionEnd payload o < 65536 := by
    cases hflag : hasExtension payload with
    | true => exact extensionsAdvance_iff hflag
    | false =>
      refine ⟨fun _ o ho => absurd ho.flag (by simp [hflag]), fun _ => ⟨firstOffset payload, ?_⟩⟩
      simp [ExtensionsAdvance, hflag]
  unfold Advances
  simp only [hloop]
  constructor
  · rintro ⟨start, hext, hforward⟩
    refine ⟨hstart.mp ⟨start, hext⟩, fun o ho => ?_⟩
    obtain ⟨cs', hreach⟩ := ho.reach hext hforward
    exact elementNext_forward_iff.mp (hforward _ hreach ho.lt)
  · intro hsteady
    obtain ⟨start, hext⟩ := hstart.mpr hsteady.extension
    refine ⟨start, hext, fun s hs hlt => elementNext_forward_iff.mpr ?_⟩
    exact hsteady.element _ (elementAt_of_reach hsteady hext hs hlt)

/-- **Both programs get through a message, every turn moving the offset forward**: the handler and,
for version 1, the proxy. -/
structure WalksForward (mem : ItemMemory) (errnoRange : Bool) (rx : RxPacket)
    (cs : GtpcParseState) : Prop where
  event : ∃ fuel result, walkV1 fuel mem.stack rx = some result
  eventForward : Advances mem.stack rx.data rx.datalen (startV1 rx.data)
  proxy : ∃ fuel result, parseImsi fuel mem errnoRange rx.data rx.datalen cs = some result
  proxyForward : flagsVersion (rx.data.byte 0) ≠ 2 → Advances mem.stack rx.data rx.datalen cs

/-- **The version-1 walk ends exactly on the steady messages**, for every buffer, every length and
whatever the parse state held. -/
theorem walksForward_iff (mem : ItemMemory) (errnoRange : Bool) (rx : RxPacket)
    (cs : GtpcParseState) :
    WalksForward mem errnoRange rx cs ↔ Steady rx.data rx.datalen := by
  constructor
  · intro h
    exact (advances_iff_steady _ _ _ _).mp h.eventForward
  · intro h
    have hevent := (advances_iff_steady mem.stack rx.data rx.datalen (startV1 rx.data)).mpr h
    have hproxy := (advances_iff_steady mem.stack rx.data rx.datalen cs).mpr h
    refine ⟨?_, hevent, ?_, fun _ => hproxy⟩
    · obtain ⟨fuel, result, hloops⟩ := hevent.loopsV1
      exact ⟨fuel, _, by rw [walkV1_eq_loopsV1, hloops, map_some]⟩
    · obtain ⟨fuel, result, hloops⟩ := hproxy.loopsV1
      refine ⟨fuel, ?_⟩
      unfold parseImsi
      dsimp only
      split
      · repeat' split
        all_goals exact ⟨_, rfl⟩
      · rw [hloops]
        cases result with
        | none => exact ⟨_, rfl⟩
        | some cs' =>
          dsimp only
          split <;> exact ⟨_, rfl⟩

/-- A Delete PDP Context Request with NSAPI and Recovery. -/
def nsapiRequest : RxPacket where
  data := ⟨[0x32, 20, 0, 8, 0, 0, 0, 5, 0, 1, 0, 0, 20, 5, 14, 7], fun _ => 0⟩
  datalen := 16
  saddr := SockAddr.zero
  caddr := SockAddr.zero

theorem nsapiRequest_steady : Steady nsapiRequest.data nsapiRequest.datalen := by
  have hflag : hasExtension nsapiRequest.data = false := by decide
  have honly : ∀ o, ElementAt nsapiRequest.data nsapiRequest.datalen o → o = 12 ∨ o = 14 := by
    intro o ho
    induction ho with
    | first => decide
    | behind h => exact absurd h.flag (by simp [hflag])
    | next _ hlen hlt ih =>
      rcases ih with rfl | rfl
      · obtain rfl : 2 = _ := some.inj ((by decide : some 2 = _).trans hlen)
        exact .inr rfl
      · obtain rfl : 2 = _ := some.inj ((by decide : some 2 = _).trans hlen)
        exact absurd hlt (by decide)
  refine ⟨fun o ho => absurd ho.flag (by simp [hflag]), fun o ho extlen hlen => ?_⟩
  rcases honly o ho with rfl | rfl
  all_goals
    obtain rfl : 2 = extlen := some.inj ((by decide : some 2 = _).trans hlen)
    decide

theorem nsapiRequest_walksForward :
    WalksForward ⟨fun _ => 0, fun _ => 0⟩ false nsapiRequest GtpcParseState.zero :=
  (walksForward_iff _ _ _ _).mpr nsapiRequest_steady

/-- An extension header of length 0, and another one said to follow. -/
def zeroExtension : RxPacket where
  data := ⟨[0x34, 16, 0, 8, 0, 0, 0, 0, 0, 0, 0, 0xc0, 0, 0, 0, 0], fun _ => 0⟩
  datalen := 16
  saddr := SockAddr.zero
  caddr := SockAddr.zero

/-- The offset stays at 12, in both programs. -/
theorem zeroExtension_stands_still :
    (∀ fuel, walkV1 fuel (fun _ => 0) zeroExtension = none) ∧
      (∀ fuel, parseImsi fuel ⟨fun _ => 0, fun _ => 0⟩ false zeroExtension.data
        zeroExtension.datalen GtpcParseState.zero = none) ∧
      ¬ WalksForward ⟨fun _ => 0, fun _ => 0⟩ false zeroExtension GtpcParseState.zero := by
  have hfixed : extensionStep zeroExtension.data zeroExtension.datalen 12 = .inr 12 := by decide
  have hloops : ∀ fuel stack cs,
      loopsV1 fuel stack zeroExtension.data zeroExtension.datalen cs = none := by
    intro fuel stack cs
    have hflag : hasExtension zeroExtension.data = true := by decide
    rw [loopsV1, if_pos hflag, firstOffset_of_extension hflag, extensionLoop_eq_iterate,
      Loop.iterate_of_fixed hfixed]
  have hevent : ∀ fuel, walkV1 fuel (fun _ => 0) zeroExtension = none := by
    intro fuel
    rw [walkV1_eq_loopsV1, hloops, map_none]
  refine ⟨hevent, fun fuel => ?_, fun h => ?_⟩
  · have hversion : flagsVersion (zeroExtension.data.byte 0) ≠ 2 := by decide
    unfold parseImsi
    dsimp only
    rw [if_neg hversion, hloops]
  · obtain ⟨fuel, result, hresult⟩ := h.event
    exact absurd ((hevent fuel).symm.trans hresult) (by simp)

end MixiPgw.Ctrl
