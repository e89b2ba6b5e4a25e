/-
# From the socket to the queues

`Diameter::OnRecv` is called when the socket of a client is readable. It reads a header, then as
many bytes as the header says are left, validates the message and puts it on a queue. It reads ONCE
for each of the two and never goes on with a message that came in part. From an uninitialised stack
it takes the bytes of `rbuf` that no read filled, and `cc_type` if no AVP set it.
**`diameter_framing_iff`** is a stream of messages, exactly.
-/
import MixiPgw.Lib.Stream
import MixiPgw.Tools.DiameterParse

namespace MixiPgw.Diameter

open Bytes Lib Stream List Option Source

/-! ## 1. `OnRecv` -/

structure Stack where
  rbuf : Nat → UInt8
  ccType : UInt32

structure Queued where
  queue : Nat
  bytes : List UInt8

/-- `DIAMETER_QUEUE_FOR_DB`, the queue behind the eight of `DIAMETER_QUEUE_ROUNDROBIN`. -/
def queueForDb : Nat := 8

/-- `dh->code` and `dh->appid` as the host reads them. -/
def rawCode (s : Source) : UInt32 := le32 (s.byte 5) (s.byte 6) (s.byte 7) 0
def rawAppid (s : Source) : UInt32 := le32 (s.byte 8) (s.byte 9) (s.byte 10) (s.byte 11)

/-- The value of `cc_type` behind the validation; `none` if the message is refused, or if the
validation never returns. Four copied bytes are not put into host order. -/
def ccTypeOf (stack : Stack) (s : Source) (len : Nat) : Option UInt32 :=
  if s.byte 0 = 0xfe ∨ s.byte 0 = 0xff then some 5
  else
    match validateDiameter s len with
    | some (true, some bytes) =>
      some (le32 (bytes.getD 0 0) (bytes.getD 1 0) (bytes.getD 2 0) (bytes.getD 3 0))
    | some (true, none) => some stack.ccType
    | _ => none

/-- The queue of a message, and the client's counter behind it. -/
def queueOf (s : Source) (ccType : UInt32) (counter : UInt64) : Nat × UInt64 :=
  if rawCode s = 272 ∧ rawAppid s = 4 ∧ ccType = 2 then (queueForDb, counter)
  else if ccType = 5 then (queueForDb, counter)
  else (counter.toNat % 8, counter + 1)

/-- `Diameter::OnRecv`: the entry, the counter and what is left in the socket; `none` if the
client is dropped, or if the call never returns. -/
def onRecv (stack : Stack) (counter : UInt64) (segments : List (List UInt8)) :
    Option (Queued × UInt64 × List (List UInt8)) :=
  let header := recv 20 segments
  let len := messageLen ⟨header.1, stack.rbuf⟩
  if header.1.length ≠ 20 ∨ len = 0 ∨ 4096 < (len + (2 ^ 64 - 20)) % 2 ^ 64 then none
  else
    let payload := recv (len - 20) header.2
    if payload.1 = [] then none
    else
      let s : Source := ⟨header.1 ++ payload.1, stack.rbuf⟩
      (ccTypeOf stack s len).map fun ccType =>
        let target := queueOf s ccType counter
        (⟨target.1, s.block 0 len⟩, target.2, payload.2)

/-- The event loop: `OnRecv` while there is something to read, for a number of calls. -/
def onRecvs : Nat → (Nat → Stack) → UInt64 → List (List UInt8) → List Queued
  | 0, _, _, _ => []
  | _ + 1, _, _, [] => []
  | calls + 1, memory, counter, segments@(_ :: _) =>
    match onRecv (memory 0) counter segments with
    | none => []
    | some (entry, counter', segments') =>
      entry :: onRecvs calls (fun k => memory (k + 1)) counter' segments'

/-- What a connection puts on the queues. Every call takes a byte at least. -/
def queuedBy (memory : Nat → Stack) (counter : UInt64) (segments : List (List UInt8)) :
    List Queued :=
  onRecvs segments.flatten.length memory counter segments

/-! ## 2. One message -/

/-- A complete message that `ValidateDiameter` accepts, whatever lies behind it. -/
def Valid (m : List UInt8) : Prop :=
  ∀ past, ∃ ccType, validateDiameter ⟨m, past⟩ m.length = some (true, ccType)

def GyUpdate (m : List UInt8) : Prop :=
  ∀ past, messageCode ⟨m, past⟩ = 272 ∧ messageAppid ⟨m, past⟩ = 4 ∧
    validateDiameter ⟨m, past⟩ m.length = some (true, some [0, 0, 0, 2])

def amounts (messages : List (List UInt8)) : List Nat :=
  messages.flatMap fun m => [20, m.length - 20]

namespace Valid

variable {m : List UInt8}

theorem header (h : Valid m) (past : Nat → UInt8) : validHeader ⟨m, past⟩ m.length = true := by
  obtain ⟨ccType, hvalid⟩ := h past
  by_contra hno
  rw [validateDiameter, if_neg hno] at hvalid
  cases hvalid

theorem version (h : Valid m) (past : Nat → UInt8) : (⟨m, past⟩ : Source).byte 0 = 1 := by
  have := h.header past
  simp only [validHeader, Bool.and_eq_true, decide_eq_true_eq] at this
  exact this.1.1.1.2

theorem length (h : Valid m) (past : Nat → UInt8) :
    messageLen ⟨m, past⟩ = m.length ∧ 20 ≤ m.length ∧ m.length ≤ 4096 := by
  have := h.header past
  simp only [validHeader, Bool.and_eq_true, decide_eq_true_eq] at this
  omega

theorem messageLen_take (h : Valid m) (past : Nat → UInt8) :
    messageLen ⟨m.take 20, past⟩ = m.length := by
  rw [← (h.length past).1]
  have hblock : (⟨m.take 20, past⟩ : Source).block 1 3 = (⟨m, past⟩ : Source).block 1 3 := by
    refine map_congr_left fun k hk => ?_
    have hk3 := mem_range.mp hk
    simp only [byte, getD_eq_getElem?_getD]
    rw [getElem?_take_of_lt (by omega)]
  rw [messageLen, messageLen, hblock]

end Valid

section

variable {m rest : List UInt8} {segments : List (List UInt8)} (stack : Stack) (counter : UInt64)

/-- The two reads return the header and the payload, and there is a payload. -/
def Whole (m : List UInt8) (segments : List (List UInt8)) : Prop :=
  (recv 20 segments).1.length = 20 ∧ 20 < m.length ∧
    (recv (m.length - 20) (recv 20 segments).2).1.length = m.length - 20

theorem header_eq (h : Valid m) (hstream : segments.flatten = m ++ rest)
    (hfull : (recv 20 segments).1.length = 20) :
    (recv 20 segments).1 = m.take 20 ∧ (recv 20 segments).2.flatten = m.drop 20 ++ rest := by
  have h20 := (h.length fun _ => 0).2.1
  obtain ⟨htake, hdrop⟩ := recv_eq_take hfull
  rw [htake, hdrop, hstream]
  exact ⟨take_append_of_le_length h20, drop_append_of_le_length h20⟩

def behind (m : List UInt8) (segments : List (List UInt8)) : List (List UInt8) :=
  (recv (m.length - 20) (recv 20 segments).2).2

theorem ends_subset_amounts_cons (h : Valid m) (hne : ∀ c ∈ segments, c ≠ [])
    (hstream : segments.flatten = m ++ rest) {messages : List (List UInt8)} :
    ends segments ⊆ splits (amounts (m :: messages)) ∧ 20 < m.length ↔
      Whole m segments ∧ ends (behind m segments) ⊆ splits (amounts messages) := by
  have h20 := (h.length fun _ => 0).2.1
  have htotal : 20 ≤ segments.flatten.length := by
    rw [hstream, length_append]
    omega
  have hamounts : amounts (m :: messages) = 20 :: (m.length - 20) :: amounts messages := rfl
  -- The second read is about what is left behind a whole header.
  have hpayload : (recv 20 segments).1.length = 20 →
      m.length - 20 ≤ (recv 20 segments).2.flatten.length := by
    intro hfull
    rw [(header_eq h hstream hfull).2, length_append, length_drop]
    omega
  rw [hamounts, ends_subset_splits_cons hne htotal]
  constructor
  · rintro ⟨⟨hfull, hsub⟩, hlong⟩
    rw [ends_subset_splits_cons (recv_nonempty hne) (hpayload hfull)] at hsub
    exact ⟨⟨hfull, hlong, hsub.1⟩, hsub.2⟩
  · rintro ⟨⟨hfull, hlong, hread⟩, hsub⟩
    rw [ends_subset_splits_cons (recv_nonempty hne) (hpayload hfull)]
    exact ⟨⟨hfull, hread, hsub⟩, hlong⟩

theorem onRecv_of_header (h : Valid m) (hstream : segments.flatten = m ++ rest)
    (hfull : (recv 20 segments).1.length = 20) :
    onRecv stack counter segments =
      let payload := recv (m.length - 20) (recv 20 segments).2
      if payload.1 = [] then none
      else
        let s : Source := ⟨m.take 20 ++ payload.1, stack.rbuf⟩
        (ccTypeOf stack s m.length).map fun ccType =>
          (⟨(queueOf s ccType counter).1, s.block 0 m.length⟩, (queueOf s ccType counter).2,
            payload.2) := by
  obtain ⟨-, h20, h4096⟩ := h.length fun _ => 0
  have hlen := h.messageLen_take stack.rbuf
  rw [onRecv, (header_eq h hstream hfull).1]
  rw [hlen, if_neg]
  rw [length_take]
  omega

theorem onRecv_of_whole (h : Valid m) (hne : ∀ c ∈ segments, c ≠ [])
    (hstream : segments.flatten = m ++ rest) (hwhole : Whole m segments) :
    ∃ queue counter',
      onRecv stack counter segments = some (⟨queue, m⟩, counter', behind m segments) ∧
      (behind m segments).flatten = rest ∧ (∀ c ∈ behind m segments, c ≠ []) ∧
      (GyUpdate m → queue ≠ queueForDb) := by
  obtain ⟨hfull, hlong, hpayload⟩ := hwhole
  obtain ⟨htake, hdrop⟩ := recv_eq_take hpayload
  rw [(header_eq h hstream hfull).2] at htake hdrop
  have hlen : (m.drop 20).length = m.length - 20 := length_drop
  rw [take_left' hlen] at htake
  rw [drop_left' hlen] at hdrop
  obtain ⟨bytes, hvalid⟩ := h stack.rbuf
  obtain ⟨ccType, hccType, hupdate⟩ : ∃ ccType, ccTypeOf stack ⟨m, stack.rbuf⟩ m.length =
      some ccType ∧ (GyUpdate m → ccType ≠ 2 ∧ ccType ≠ 5) := by
    rw [ccTypeOf, h.version, hvalid]
    cases bytes with
    | none =>
      refine ⟨_, rfl, fun hgy => ?_⟩
      rw [(hgy stack.rbuf).2.2] at hvalid
      cases hvalid
    | some bytes =>
      refine ⟨_, rfl, fun hgy => ?_⟩
      rw [(hgy stack.rbuf).2.2] at hvalid
      cases hvalid
      decide
  have hblock : (⟨m, stack.rbuf⟩ : Source).block 0 m.length = m :=
    Source.Lays.block ⟨[], (append_nil m).symm⟩
  refine ⟨(queueOf ⟨m, stack.rbuf⟩ ccType counter).1, (queueOf ⟨m, stack.rbuf⟩ ccType counter).2,
    ?_, hdrop, recv_nonempty (recv_nonempty hne), fun hgy => ?_⟩
  · rw [onRecv_of_header stack counter h hstream hfull]
    dsimp only
    rw [htake, if_neg, take_append_drop, hccType, map_some, hblock, behind]
    intro hnil
    rw [hnil] at hlen
    rw [length_nil] at hlen
    omega
  · obtain ⟨h2, h5⟩ := hupdate hgy
    rw [queueOf, if_neg (fun hc => h2 hc.2.2), if_neg h5]
    have := Nat.mod_lt counter.toNat (by decide : 8 > 0)
    exact Nat.ne_of_lt this

theorem onRecv_of_not_whole (h : Valid m) (hstream : segments.flatten = m ++ rest)
    (hpart : ¬ Whole m segments) :
    ∃ stack, ∀ counter entry counter' segments',
      onRecv stack counter segments = some (entry, counter', segments') → entry.bytes ≠ m := by
  refine ⟨⟨fun i => m.getD i 0 + 1, 0⟩, fun counter entry counter' segments' hrecv => ?_⟩
  by_cases hfull : (recv 20 segments).1.length = 20
  · rw [onRecv_of_header _ counter h hstream hfull] at hrecv
    dsimp only at hrecv
    split at hrecv
    · cases hrecv
    · rename_i hsome
      obtain ⟨ccType, -, heq⟩ := map_eq_some_iff.mp hrecv
      obtain ⟨rfl, -, -⟩ : _ ∧ _ ∧ _ := by simpa only [Prod.mk.injEq] using heq
      have hpos := length_pos_iff.mpr hsome
      have hle := recv_length_le (m.length - 20) (recv 20 segments).2
      have hshort : (recv (m.length - 20) (recv 20 segments).2).1.length ≠ m.length - 20 :=
        fun hp => hpart ⟨hfull, by omega, hp⟩
      generalize (recv (m.length - 20) (recv 20 segments).2).1 = payload at *
      -- The first byte that was not read.
      intro hsame
      have hbyte := congrArg (fun l => l.getD (20 + payload.length) 0) hsame
      rw [getD_block _ (by omega), Nat.zero_add, byte,
        getD_eq_default _ _ (by rw [length_append, length_take]; omega)] at hbyte
      exact absurd hbyte (by simp)
  · rw [onRecv] at hrecv
    rw [if_pos (.inl hfull)] at hrecv
    cases hrecv

end

/-! ## 3. A stream of messages -/

variable {entry : Queued}

theorem onRecv_shorter {stack : Stack} {counter counter' : UInt64}
    {segments segments' : List (List UInt8)}
    (h : onRecv stack counter segments = some (entry, counter', segments')) :
    segments'.flatten.length < segments.flatten.length := by
  unfold onRecv at h
  dsimp only at h
  split at h
  · cases h
  · rename_i hheader
    split at h
    · cases h
    · obtain ⟨ccType, -, heq⟩ := map_eq_some_iff.mp h
      obtain ⟨-, -, rfl⟩ : _ ∧ _ ∧ _ := by simpa only [Prod.mk.injEq] using heq
      have h₁ := congrArg length (recv_append 20 segments)
      have h₂ := congrArg length (recv_append
        (messageLen ⟨(recv 20 segments).1, stack.rbuf⟩ - 20) (recv 20 segments).2)
      rw [length_append] at h₁ h₂
      omega

section

variable {memory : Nat → Stack} {counter : UInt64} {segments : List (List UInt8)}
  {calls : Nat}

theorem onRecvs_of_none (h : onRecv (memory 0) counter segments = none) :
    onRecvs calls memory counter segments = [] := by
  cases calls with
  | zero => rfl
  | succ calls =>
    cases segments with
    | nil => rfl
    | cons c cs => rw [onRecvs, h]

variable {entry : Queued} {counter' : UInt64} {segments' : List (List UInt8)}

theorem onRecvs_of_some
    (h : onRecv (memory 0) counter segments = some (entry, counter', segments')) :
    onRecvs (calls + 1) memory counter segments =
      entry :: onRecvs calls (fun k => memory (k + 1)) counter' segments' := by
  cases segments with
  | nil => exact absurd (onRecv_shorter h) (Nat.not_lt_zero _)
  | cons c cs => rw [onRecvs, h]

theorem onRecvs_congr : ∀ {calls calls' : Nat} {memory : Nat → Stack} {counter : UInt64}
    {segments : List (List UInt8)},
    segments.flatten.length ≤ calls → segments.flatten.length ≤ calls' →
    onRecvs calls memory counter segments = onRecvs calls' memory counter segments := by
  intro calls
  induction calls with
  | zero =>
    intro calls' memory counter segments hle hle'
    cases hrecv : onRecv (memory 0) counter segments with
    | none => rw [onRecvs_of_none hrecv, onRecvs_of_none hrecv]
    | some r => exact absurd (Nat.lt_of_lt_of_le (onRecv_shorter hrecv) hle) (Nat.not_lt_zero _)
  | succ calls ih =>
    intro calls' memory counter segments hle hle'
    cases hrecv : onRecv (memory 0) counter segments with
    | none => rw [onRecvs_of_none hrecv, onRecvs_of_none hrecv]
    | some r =>
      have hlt := onRecv_shorter hrecv
      obtain ⟨calls', rfl⟩ := Nat.exists_eq_succ_of_ne_zero (show calls' ≠ 0 by omega)
      rw [onRecvs_of_some hrecv, onRecvs_of_some hrecv]
      exact congrArg (_ :: ·) (ih (by omega) (by omega))

theorem queuedBy_of_some (memory : Nat → Stack)
    (h : onRecv (memory 0) counter segments = some (entry, counter', segments')) :
    queuedBy memory counter segments =
      entry :: queuedBy (fun k => memory (k + 1)) counter' segments' := by
  have hlt := onRecv_shorter h
  rw [queuedBy, onRecvs_congr (Nat.le_refl _) (Nat.le_succ _), onRecvs_of_some h, queuedBy,
    onRecvs_congr (Nat.le_of_lt hlt) (Nat.le_refl _)]

def first (stack : Stack) (memory : Nat → Stack) : Nat → Stack
  | 0 => stack
  | k + 1 => memory k

end

/-- The messages are queued, as they were sent, and the Gy Updates for the database. -/
def Framed (messages : List (List UInt8)) (entries : List Queued) : Prop :=
  entries.map Queued.bytes = messages ∧
    ∀ entry ∈ entries, GyUpdate entry.bytes → entry.queue = queueForDb

theorem framed_cons {m : List UInt8} {messages : List (List UInt8)} {entries : List Queued} :
    Framed (m :: messages) (entry :: entries) ↔
      entry.bytes = m ∧ (GyUpdate entry.bytes → entry.queue = queueForDb) ∧
        Framed messages entries := by
  simp only [Framed, map_cons, cons.injEq, forall_mem_cons]
  tauto

theorem exists_not_framed {m rest : List UInt8} {segments : List (List UInt8)} (counter : UInt64)
    (h : Valid m) (hstream : segments.flatten = m ++ rest) (hpart : ¬ Whole m segments) :
    ∃ memory, ∀ messages, ¬ Framed (m :: messages) (queuedBy memory counter segments) := by
  obtain ⟨stack, hbad⟩ := onRecv_of_not_whole h hstream hpart
  refine ⟨fun _ => stack, fun messages hframed => ?_⟩
  cases hrecv : onRecv stack counter segments with
  | none =>
    rw [queuedBy, @onRecvs_of_none (fun _ => stack) _ _ _ hrecv] at hframed
    cases hframed.1
  | some r =>
    obtain ⟨entry, counter', segments'⟩ := r
    rw [queuedBy_of_some (fun _ => stack) hrecv, framed_cons] at hframed
    exact hbad counter entry counter' segments' hrecv hframed.1

/-- **The queues get what was sent, whatever is on the stack, exactly if** every segment ends
behind a header or a message, every message is more than a header, and none is a Gy Update. -/
theorem diameter_framing_iff (messages segments : List (List UInt8)) (counter : UInt64)
    (hvalid : ∀ m ∈ messages, Valid m) (hne : ∀ c ∈ segments, c ≠ [])
    (hstream : segments.flatten = messages.flatten) :
    (∀ memory, Framed messages (queuedBy memory counter segments)) ↔
      ends segments ⊆ splits (amounts messages) ∧
        ∀ m ∈ messages, 20 < m.length ∧ ¬ GyUpdate m := by
  induction messages generalizing segments counter with
  | nil =>
    have hnil : segments = [] := by
      cases segments with
      | nil => rfl
      | cons c cs =>
        simp_all
    subst hnil
    simp [Framed, queuedBy, onRecvs, ends]
  | cons m messages ih =>
    rw [flatten_cons] at hstream
    have hm := hvalid m mem_cons_self
    have hvalid' : ∀ m' ∈ messages, Valid m' := fun m' h => hvalid m' (mem_cons_of_mem _ h)
    have hwhole_iff := @ends_subset_amounts_cons _ _ _ hm hne hstream messages
    rw [forall_mem_cons]
    by_cases hwhole : Whole m segments
    · constructor
      · intro hframed
        obtain ⟨queue, counter', hrecv, hflat, hne', hqueue⟩ :=
          onRecv_of_whole ⟨fun _ => 0, 0⟩ counter hm hne hstream hwhole
        have hstep : ∀ memory, (GyUpdate m → queue = queueForDb) ∧
            Framed messages (queuedBy memory counter' (behind m segments)) := by
          intro memory
          have hcons := hframed (first ⟨fun _ => 0, 0⟩ memory)
          rw [queuedBy_of_some (first _ memory) hrecv, framed_cons] at hcons
          exact hcons.2
        obtain ⟨hends, hall⟩ := (ih _ counter' hvalid' hne' hflat).mp fun memory => (hstep memory).2
        obtain ⟨hsub, hlong⟩ := hwhole_iff.mpr ⟨hwhole, hends⟩
        have hno : ¬ GyUpdate m :=
          fun hgy => hqueue hgy ((hstep fun _ => ⟨fun _ => 0, 0⟩).1 hgy)
        exact ⟨hsub, ⟨hlong, hno⟩, hall⟩
      · rintro ⟨hsub, ⟨hlong, hno⟩, hall⟩ memory
        obtain ⟨queue, counter', hrecv, hflat, hne', -⟩ :=
          onRecv_of_whole (memory 0) counter hm hne hstream hwhole
        obtain ⟨-, hends⟩ := hwhole_iff.mp ⟨hsub, hlong⟩
        rw [queuedBy_of_some memory hrecv, framed_cons]
        exact ⟨rfl, fun hgy => absurd hgy hno,
          (ih _ counter' hvalid' hne' hflat).mpr ⟨hends, hall⟩ _⟩
    · constructor
      · intro hframed
        obtain ⟨memory, hbad⟩ := exists_not_framed counter hm hstream hwhole
        exact absurd (hframed memory) (hbad messages)
      · rintro ⟨hsub, ⟨hlong, -⟩, -⟩
        exact absurd (hwhole_iff.mp ⟨hsub, hlong⟩).1 hwhole

def watchdogRequest : List UInt8 :=
  [1, 0, 0, 32, 0x80, 0, 1, 0x18, 0, 0, 0, 0, 0, 0, 0, 0, 0, 0, 0, 0] ++
    [0, 0, 1, 8, 0, 0, 0, 9, 104, 0, 0, 0]

def gyUpdateRequest : List UInt8 :=
  [1, 0, 0, 32, 0xc0, 0, 1, 0x10, 0, 0, 0, 4, 0, 0, 0, 0, 0, 0, 0, 0] ++
    [0, 0, 1, 0xa0, 0, 0, 0, 12, 0, 0, 0, 2]

theorem watchdogRequest_valid : Valid watchdogRequest := by
  intro past
  refine ⟨none, ?_⟩
  simp [validateDiameter, validHeader, messageLen, messageCode, messageAppid, block,
    byte, range_succ, watchdogRequest, ofBe, knownMessage, flagR, Walk.exec,
    validateWalk, Loop.iterate, Walk.step, avpLen, avpCode, padd4]

theorem gyUpdateRequest_update : GyUpdate gyUpdateRequest := by
  intro past
  simp [validateDiameter, validHeader, messageLen, messageCode, messageAppid, block,
    byte, range_succ, gyUpdateRequest, ofBe, knownMessage, flagR, flagP, Walk.exec,
    validateWalk, Loop.iterate, Walk.step, avpLen, avpCode, avpPayload, flagV, padd4]

theorem watchdogRequest_not_update : ¬ GyUpdate watchdogRequest := fun h =>
  absurd (h fun _ => 0).1 (by decide +kernel)

/-- Two watchdogs, the first in one segment and the second in two. -/
theorem diameter_framing_watchdogs :
    [watchdogRequest, watchdogRequest].length = 2 ∧
      ∀ memory, Framed [watchdogRequest, watchdogRequest] (queuedBy memory 0
        [watchdogRequest, watchdogRequest.take 20, watchdogRequest.drop 20]) :=
  ⟨rfl, (diameter_framing_iff [watchdogRequest, watchdogRequest]
    [watchdogRequest, watchdogRequest.take 20, watchdogRequest.drop 20] 0
    (by simp [watchdogRequest_valid]) (by decide) (by decide)).mpr
      ⟨by decide +kernel, by
        simp only [forall_mem_cons, watchdogRequest_not_update, not_false_eq_true, and_true,
          not_mem_nil, false_imp_iff, implies_true]
        decide⟩⟩

/-- A segment that ends inside the payload: the queue gets zeros of the stack. And a Gy Update that
came whole is on the first queue of the round. -/
theorem segment_in_payload_and_update_queue :
    Valid watchdogRequest ∧
      (queuedBy (fun _ => ⟨fun _ => 0, 0⟩) 0
        [watchdogRequest.take 28, watchdogRequest.drop 28]).map Queued.bytes =
          [watchdogRequest.take 28 ++ [0, 0, 0, 0]] ∧
      GyUpdate gyUpdateRequest ∧
      (queuedBy (fun _ => ⟨fun _ => 0, 0⟩) 0 [gyUpdateRequest]).map Queued.queue = [0] :=
  ⟨watchdogRequest_valid, by decide +kernel, gyUpdateRequest_update, by decide +kernel⟩

end MixiPgw.Diameter
