/-
# The life of a Gx session

`session_` maps a Session-Id to the subscriber: `ReqGxInitial` adds an entry and `ReqGxTerminate`
erases one. The key of both is the text that the parser cut out of the request, and that is the
Session-Id with the four bytes that follow it (`SessionRequest.key_eq`): padding, the code of the
next AVP, or the memory behind the message. **`gx_session_closes_iff`** is the life of a session,
exactly; other sessions have no part in it (`gx_sessions_independent`).
-/
import MixiPgw.Tools.GxAnswers

namespace MixiPgw.Diameter

open Bytes CString Lib Option List

/-! ## 1. From the queue to the handlers -/

/-- The header of `DiameterClient::Response`: the E flag says whether it is an error. -/
def responseHead (h : Source) (retcd : UInt32) : List UInt8 :=
  [1] ++ h.block 1 3 ++ [(h.byte 4 &&& 0x5f) + if retcd = 2001 then 0 else 0x20] ++ h.block 5 15

/-- `DiameterClient::Response`, in its buffer of 1024 bytes. -/
def response (d : Server) (h : Source) (sessid : Text) (retcd : UInt32) : List UInt8 :=
  encodeMessage 1024 (responseHead h retcd)
    [.string 263 sessid, .string 264 d.originHost, .string 296 d.originRealm, .uint32 268 retcd]

/-- The handler of a CC-Request-Type; `none` is `RETERR`. Event requests are not implemented. -/
def gxHandler (ccType : UInt32) (d : Server) (h : Source) (ie : IE) : Option Reply :=
  if ccType = 1 then reqGxInitial d h ie
  else if ccType = 2 then reqGxUpdate d h ie
  else if ccType = 3 then reqGxTerminate d h ie
  else if ccType = 4 then some ⟨d, none, response d h (ie.get 263) 3001⟩
  else none

def reqGx (d : Server) (h : Source) (ie : IE) : Reply :=
  (gxHandler (atoi (cstr (ie.get 416))) d h ie).getD ⟨d, none, response d h (ie.get 263) 5001⟩

/-- `QueueLoop` on one message, as far as the server is concerned: counter messages and messages
that are not credit control on Gx do not touch it. -/
def Server.onQueue (d : Server) (h : Source) : Server :=
  if h.byte 0 = 0xfe ∨ h.byte 0 = 0xff then d
  else
    match parsePacketToVector h with
    | some (true, ie) =>
      if messageCode h = 272 ∧ messageAppid h = 16777238 then (reqGx d h ie).server else d
    | _ => d

/-! ## 2. Requests and their keys -/

/-- A request that carries a Session-Id: one AVP of that code, without a vendor id, among any
others. -/
structure SessionRequest (sessid : Text) where
  message : Message
  past : Nat → UInt8
  pre : List WireAvp
  avp : WireAvp
  post : List WireAvp
  avps_eq : message.avps = pre ++ avp :: post
  code_eq : avp.code = 263
  no_vendor : avp.vendor = []
  value_eq : avp.value = sessid
  only : ∀ x ∈ pre ++ post, x.code ≠ 263

namespace SessionRequest

variable {sessid : Text}

def source (r : SessionRequest sessid) : Source := r.message.source r.past

def tail (r : SessionRequest sessid) : List UInt8 :=
  r.source.block (avpPayload r.source (20 + (wireBytes r.pre).length) + sessid.length) 4

variable (r : SessionRequest sessid)

theorem length_tail : r.tail.length = 4 := Source.length_block _ _ _

def ie (r : SessionRequest sessid) : IE := (r.message.parsed r.past).mpkt

theorem key_eq : r.ie.get 263 = sessid ++ r.tail := by
  have hpost : ∀ x ∈ r.post, 263 ∉ keysOf x.code.toNat := by
    intro x hx hmem
    have heq := eq_of_mem_keysOf (.inl rfl) hmem
    exact r.only x (mem_append_right _ hx) (UInt32.toNat_inj.mp heq)
  obtain ⟨hlays, hsize, st, hparsed⟩ := @Message.parsed_at _ r.past _ _ _ _ r.avps_eq hpost
  have hcode : r.avp.code.toNat = 263 := by
    rw [r.code_eq]
    rfl
  have htext := @parseAvp_text _ st _ _ _ hlays hsize (by rw [hcode]; rfl)
  rw [hcode, r.value_eq, r.no_vendor] at htext
  rw [IE.get, ie, hparsed, htext]
  rfl

/-- The request is parsed, complete, and a credit control on Gx of the given type. -/
structure IsGx (r : SessionRequest sessid) (ccType : UInt32) : Prop where
  version : r.source.byte 0 = 1
  complete : parsePacketToVector r.source = some (true, r.ie)
  code : messageCode r.source = 272
  appid : messageAppid r.source = 16777238
  type : atoi (cstr (r.ie.get 416)) = ccType

theorem IsGx.onQueue {r : SessionRequest sessid} {ccType : UInt32} (h : r.IsGx ccType)
    (d : Server) :
    d.onQueue r.source =
      ((gxHandler ccType d r.source r.ie).getD
        ⟨d, none, response d r.source (r.ie.get 263) 5001⟩).server := by
  unfold Server.onQueue
  rw [h.version, if_neg (by decide), h.complete]
  dsimp only
  rw [if_pos ⟨h.code, h.appid⟩, reqGx, h.type]

/-- An Initial request that is accepted: the subscriber is found. -/
structure Accepted (r : SessionRequest sessid) (d : Server) : Prop where
  isGx : r.IsGx 1
  found : (d.findTable r.ie).isSome

end SessionRequest

/-! ## 3. What requests do to the map -/

/-- A key of a session: its Session-Id and four more bytes. -/
def EntryOf (sessid key : Text) : Prop :=
  ∃ tail : List UInt8, tail.length = 4 ∧ key = sessid ++ tail

section

variable {sessid : Text} {d : Server} {r : SessionRequest sessid}

theorem SessionRequest.entryOf (r : SessionRequest sessid) : EntryOf sessid (r.ie.get 263) :=
  ⟨r.tail, r.length_tail, r.key_eq⟩

theorem SessionRequest.Accepted.session (h : r.Accepted d) (key : Text) :
    (d.onQueue r.source).session key =
      if key = sessid ++ r.tail then some (r.ie.get 444) else d.session key := by
  obtain ⟨lnk, hfind⟩ := isSome_iff_exists.mp h.found
  have hhandler : gxHandler 1 d r.source r.ie = some ⟨d.addSession (r.ie.get 263) (r.ie.get 444),
      none, gxAnswer r.source (gxInitialAvps d lnk r.ie)⟩ := by
    rw [gxHandler, if_pos rfl, reqGxInitial, hfind]
  rw [h.isGx.onQueue, hhandler, getD_some, Server.addSession, r.key_eq]

theorem SessionRequest.IsGx.session_terminate (h : r.IsGx 3) (key : Text) :
    (d.onQueue r.source).session key =
      if key = sessid ++ r.tail then none else d.session key := by
  have hhandler : gxHandler 3 d r.source r.ie =
      some ⟨d.eraseSession (r.ie.get 263), none, gxAnswer r.source (gxCommonAvps d r.ie)⟩ := by
    rw [gxHandler, if_neg (by decide), if_neg (by decide), if_pos rfl, reqGxTerminate]
  rw [h.onQueue, hhandler, getD_some, Server.eraseSession, r.key_eq]

theorem gxHandler_session {ccType : UInt32} {h : Source} {ie : IE} {reply : Reply} {key : Text}
    (hreply : gxHandler ccType d h ie = some reply) (hkey : key ≠ ie.get 263) :
    reply.server.session key = d.session key := by
  unfold gxHandler at hreply
  split at hreply
  · unfold reqGxInitial at hreply
    split at hreply
    · cases hreply
    · obtain rfl := some.inj hreply
      exact if_neg hkey
  · split at hreply
    · unfold reqGxUpdate at hreply
      split at hreply
      · cases hreply
      · obtain rfl := some.inj hreply
        rfl
    · split at hreply
      · obtain rfl := some.inj hreply
        exact if_neg hkey
      · split at hreply
        · obtain rfl := some.inj hreply
          rfl
        · cases hreply

/-- A request leaves the entries of other sessions alone, whatever it is. -/
theorem SessionRequest.session_of_not_entryOf (r : SessionRequest sessid) {key : Text}
    (hkey : ¬ EntryOf sessid key) : (d.onQueue r.source).session key = d.session key := by
  have hne : key ≠ r.ie.get 263 := fun heq => hkey (heq ▸ r.entryOf)
  obtain ⟨ok, hparse⟩ := parsePacketToVector_eq r.message r.past
  unfold Server.onQueue
  split
  · rfl
  · rw [source, hparse]
    cases ok with
    | false => rfl
    | true =>
      dsimp only
      split
      · unfold reqGx
        cases hreply : gxHandler (atoi (cstr (IE.get (r.message.parsed r.past).mpkt 416))) d
          (r.message.source r.past) (r.message.parsed r.past).mpkt with
        | none => rfl
        | some reply => exact gxHandler_session hreply hne
      · rfl

end

/-- A message that does not touch the entries of a session, whatever they are. -/
def Spares (sessid : Text) (m : Source) : Prop :=
  ∀ (d : Server) key, EntryOf sessid key → (d.onQueue m).session key = d.session key

theorem SessionRequest.IsGx.spares_update {sessid : Text} {r : SessionRequest sessid}
    (h : r.IsGx 2) : Spares sessid r.source := by
  intro d key _
  rw [h.onQueue, gxHandler, if_neg (by decide), if_pos rfl, reqGxUpdate]
  split <;> rfl

/-! ## 4. The life of a session -/

def Server.onQueueAll (d : Server) (ms : List Source) : Server := ms.foldl Server.onQueue d

theorem onQueueAll_session {sessid key : Text} (hkey : EntryOf sessid key) {ms : List Source} :
    ∀ {d : Server}, (∀ m ∈ ms, Spares sessid m) →
      (d.onQueueAll ms).session key = d.session key := by
  induction ms with
  | nil => exact fun _ => rfl
  | cons m ms ih =>
    intro d hspares
    have hone := hspares m mem_cons_self d key hkey
    exact (ih fun m' hm' => hspares m' (mem_cons_of_mem _ hm')).trans hone

theorem EntryOf.unique {s s' key : Text} (h : EntryOf s key) (h' : EntryOf s' key) : s = s' := by
  obtain ⟨t, ht, rfl⟩ := h
  obtain ⟨t', ht', heq⟩ := h'
  exact (append_inj' heq (ht.trans ht'.symm)).1

/-- **Sessions do not touch each other.** Any number of requests with other Session-Ids, whatever
they are and whatever follows these, leave all entries of a session as they are. -/
theorem gx_sessions_independent (d : Server) (sessid : Text)
    (requests : List ((s : Text) × SessionRequest s)) (hother : ∀ r ∈ requests, r.1 ≠ sessid)
    (key : Text) (hkey : EntryOf sessid key) :
    (d.onQueueAll (requests.map fun r => r.2.source)).session key = d.session key := by
  refine onQueueAll_session hkey fun m hm => ?_
  obtain ⟨r, hr, rfl⟩ := mem_map.mp hm
  intro d key hkey
  exact r.2.session_of_not_entryOf fun hentry => hother r hr (hentry.unique hkey)

/-- The session has no entries but the one with the given bytes behind the Session-Id. -/
def OnlyEntry (sessid : Text) (tail : List UInt8) (d : Server) : Prop :=
  ∀ key, EntryOf sessid key → key ≠ sessid ++ tail → d.session key = none

/-- What is asked of an Initial request, any messages, and a Terminate request: no entry of the
session is left, and the two requests leave all other entries alone. -/
def Closes (d : Server) {sessid : Text} (first : SessionRequest sessid) (between : List Source)
    (last : SessionRequest sessid) : Prop :=
  let d₁ := d.onQueue first.source
  let d₂ := d₁.onQueueAll between
  let d₃ := d₂.onQueue last.source
  (∀ key, EntryOf sessid key → d₃.session key = none) ∧
    ∀ key, ¬ EntryOf sessid key →
      d₁.session key = d.session key ∧ d₃.session key = d₂.session key

section

variable {d : Server} {sessid : Text} {first last : SessionRequest sessid} {between : List Source}

theorem closes_iff_onlyEntry (hlast : last.IsGx 3) :
    Closes d first between last ↔
      OnlyEntry sessid last.tail ((d.onQueue first.source).onQueueAll between) := by
  constructor
  · rintro ⟨hnone, -⟩ key hkey hne
    have hleft := hnone key hkey
    rwa [hlast.session_terminate, if_neg hne] at hleft
  · intro honly
    refine ⟨fun key hkey => ?_, fun key hkey =>
      ⟨first.session_of_not_entryOf hkey, last.session_of_not_entryOf hkey⟩⟩
    rw [hlast.session_terminate]
    split
    · rfl
    · rename_i hne
      exact honly key hkey hne

theorem onlyEntry_iff_of_spares {tail : List UInt8} (hfirst : first.Accepted d)
    (hspares : ∀ m ∈ between, Spares sessid m) :
    OnlyEntry sessid tail ((d.onQueue first.source).onQueueAll between) ↔
      first.tail = tail ∧ OnlyEntry sessid first.tail d := by
  have hd₂ : ∀ key, EntryOf sessid key →
      ((d.onQueue first.source).onQueueAll between).session key =
        if key = sessid ++ first.tail then some (first.ie.get 444) else d.session key :=
    fun key hkey => (onQueueAll_session hkey hspares).trans (hfirst.session key)
  have hentry : EntryOf sessid (sessid ++ first.tail) := ⟨_, first.length_tail, rfl⟩
  constructor
  · intro honly
    have htail : first.tail = tail := by
      by_contra hne
      have hleft := honly _ hentry fun heq => hne (append_cancel_left heq)
      rw [hd₂ _ hentry, if_pos rfl] at hleft
      cases hleft
    refine ⟨htail, fun key hkey hne => ?_⟩
    have hleft := honly key hkey (htail ▸ hne)
    rwa [hd₂ key hkey, if_neg hne] at hleft
  · rintro ⟨rfl, honly⟩ key hkey hne
    rw [hd₂ key hkey, if_neg hne]
    exact honly key hkey hne

end

/-- **The life of a session, exactly.** It is closed if and only if all that is left of it is
the entry with the four bytes that follow the Session-Id in the Terminate request. If nothing in
between touches it: if and only if the same four bytes follow in both requests, and no other
entry of it was there before. -/
theorem gx_session_closes_iff (d : Server) (sessid : Text) (first last : SessionRequest sessid)
    (between : List Source) (hfirst : first.Accepted d) (hlast : last.IsGx 3) :
    (Closes d first between last ↔
        OnlyEntry sessid last.tail ((d.onQueue first.source).onQueueAll between)) ∧
      ((∀ m ∈ between, Spares sessid m) →
        (Closes d first between last ↔
          first.tail = last.tail ∧ OnlyEntry sessid first.tail d)) := by
  refine ⟨closes_iff_onlyEntry hlast, fun hspares => ?_⟩
  rw [closes_iff_onlyEntry hlast, onlyEntry_iff_of_spares hfirst hspares]

def gxHead : List UInt8 :=
  [1, 0, 0, 0, 0xc0, 0, 1, 0x10, 1, 0, 0, 0x16, 0, 0, 0, 0, 0, 0, 0, 0]

/-- What a request needs beside its Session-Id, the Auth-Application-Id first. -/
def gxRequired (ccType : UInt32) : List Avp :=
  [.uint32 258 16777238, .string 264 [104], .string 296 [114], .string 283 [100],
    .uint32 416 ccType, .uint32 415 0, subscriptionId [49]]

def gxRequiredHostFirst (ccType : UInt32) : List Avp :=
  [.string 264 [104], .uint32 258 16777238, .string 296 [114], .string 283 [100],
    .uint32 416 ccType, .uint32 415 0, subscriptionId [49]]

/-- A message of the Session-Id `abcd` and these AVPs fits its length field, and only the first of
its AVPs is a Session-Id. -/
def FollowAbcd (others : List Avp) : Prop :=
  20 + (wireBytes ((.string 263 [97, 98, 99, 100] :: others).map Avp.wire)).length < 2 ^ 24 ∧
    ∀ x ∈ others.map Avp.wire, x.code ≠ 263

instance FollowAbcd.decidable (others : List Avp) : Decidable (FollowAbcd others) :=
  inferInstanceAs (Decidable (_ ∧ _))

def abcdRequest (others : List Avp) (h : FollowAbcd others) : SessionRequest [97, 98, 99, 100] where
  message := .ofAvps gxHead (.string 263 [97, 98, 99, 100] :: others) rfl h.1
  past := fun _ => 0
  pre := []
  avp := (Avp.string 263 [97, 98, 99, 100]).wire
  post := others.map Avp.wire
  avps_eq := rfl
  code_eq := rfl
  no_vendor := rfl
  value_eq := rfl
  only := h.2

theorem followAbcd_initial : FollowAbcd (gxRequired 1) := by decide +kernel
theorem followAbcd_update : FollowAbcd (gxRequired 2) := by decide +kernel
theorem followAbcd_terminate : FollowAbcd (gxRequired 3) := by decide +kernel
theorem followAbcd_hostFirst : FollowAbcd (gxRequiredHostFirst 3) := by decide +kernel

def abcdInitial : SessionRequest [97, 98, 99, 100] := abcdRequest _ followAbcd_initial
def abcdUpdate : SessionRequest [97, 98, 99, 100] := abcdRequest _ followAbcd_update
def abcdTerminate : SessionRequest [97, 98, 99, 100] := abcdRequest _ followAbcd_terminate
def abcdTerminateHostFirst : SessionRequest [97, 98, 99, 100] := abcdRequest _ followAbcd_hostFirst

/-- The server with an entry of the session `abc`, whose key begins like those of `abcd`. -/
def abcServer : Server :=
  { sampleServer with
    session := Function.update sampleServer.session [97, 98, 99, 100, 0, 0, 1] (some [49]) }

theorem abc_untouched :
    EntryOf [97, 98, 99] [97, 98, 99, 100, 0, 0, 1] ∧
      (abcServer.onQueueAll [abcdInitial.source, abcdTerminate.source]).session
        [97, 98, 99, 100, 0, 0, 1] = some [49] := by
  have hkey : EntryOf [97, 98, 99] [97, 98, 99, 100, 0, 0, 1] := ⟨[100, 0, 0, 1], rfl, rfl⟩
  have hsame := gx_sessions_independent abcServer [97, 98, 99]
    [⟨_, abcdInitial⟩, ⟨_, abcdTerminate⟩] (by simp) _ hkey
  simp only [map_cons, map_nil] at hsame
  exact ⟨hkey, hsame.trans (by simp [abcServer])⟩

theorem SessionRequest.isGx_of_parse {sessid : Text} {r : SessionRequest sessid} {ccType : UInt32}
    (hparse : (parsePacketToVector r.source).map (fun p => (p.1, atoi (cstr (p.2.get 416)))) =
      some (true, ccType))
    (hhead : r.source.byte 0 = 1 ∧ messageCode r.source = 272 ∧
      messageAppid r.source = 16777238) : r.IsGx ccType := by
  obtain ⟨ok, heq⟩ := parsePacketToVector_eq r.message r.past
  have hcomplete : parsePacketToVector r.source = some (ok, r.ie) := heq
  rw [hcomplete, map_some] at hparse
  obtain ⟨rfl, htype⟩ := Prod.mk.inj (some.inj hparse)
  exact ⟨hhead.1, hcomplete, hhead.2.1, hhead.2.2, htype⟩

theorem abcdInitial_accepted : abcdInitial.Accepted sampleServer where
  isGx := SessionRequest.isGx_of_parse (by decide +kernel) (by decide +kernel)
  found := rfl

theorem abcdUpdate_isGx : abcdUpdate.IsGx 2 :=
  SessionRequest.isGx_of_parse (by decide +kernel) (by decide +kernel)

theorem abcdTerminate_isGx : abcdTerminate.IsGx 3 :=
  SessionRequest.isGx_of_parse (by decide +kernel) (by decide +kernel)

theorem gx_session_closes_same_order :
    Closes sampleServer abcdInitial [abcdUpdate.source] abcdTerminate := by
  refine ((gx_session_closes_iff sampleServer _ abcdInitial abcdTerminate [abcdUpdate.source]
    abcdInitial_accepted abcdTerminate_isGx).2 ?_).mpr ⟨by decide +kernel, fun _ _ _ => rfl⟩
  intro m hm
  obtain rfl := mem_singleton.mp hm
  exact abcdUpdate_isGx.spares_update

/-- With another AVP behind the Session-Id the entry stays. -/
theorem terminate_leaves_the_session :
    abcdInitial.Accepted sampleServer ∧ abcdTerminateHostFirst.IsGx 3 ∧
      ((sampleServer.onQueue abcdInitial.source).onQueue abcdTerminateHostFirst.source).session
        [97, 98, 99, 100, 0, 0, 1, 2] ≠ none :=
  ⟨abcdInitial_accepted, SessionRequest.isGx_of_parse (by decide +kernel) (by decide +kernel),
    by decide +kernel⟩

end MixiPgw.Diameter
