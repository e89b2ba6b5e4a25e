/-
# The Gx answers

`ReqGxInitial`, `ReqGxUpdate` and `ReqGxTerminate` of `mod_diameter`: each answers with the header
of the request and a row of AVPs of its own, some of them grouped two levels deep. An answer is
well formed, whatever the strings in it, as long as it fits the buffer
(**`gx_answer_well_formed`**).
-/
import MixiPgw.Tools.DiameterParse

namespace MixiPgw.Diameter

open Bytes CString Lib Option Avp

/-! ## 1. The server -/

/-- `diameter_link_t`, as far as the handlers read it; the policy is the string in its array. -/
structure DiameterLink where
  mkey : UInt64
  policy : Text
  ingress : UInt32
  egress : UInt32

def DiameterLink.zero : DiameterLink := ⟨0, [], 0, 0⟩

/-- The `Diameter` object: the table of subscribers by key and NAS, and `session_`. -/
structure Server where
  originHost : Text
  originRealm : Text
  diameterLink : Nat → Nat → Option DiameterLink
  session : Text → Option Text

def IE.get (ie : IE) (code : Nat) : Text := (ie code).getD []

/-- `FindTable` for the subscriber of a request: the key is the number in the Subscription-Id, the
NAS stays zero. -/
def Server.findTable (d : Server) (ie : IE) : Option DiameterLink :=
  d.diameterLink (strtoulDec (cstr (ie.get 444))) 0

def Server.addSession (d : Server) (sessid imsi : Text) : Server :=
  { d with session := fun k => if k = sessid then some imsi else d.session k }

def Server.eraseSession (d : Server) (sessid : Text) : Server :=
  { d with session := fun k => if k = sessid then none else d.session k }

/-! ## 2. The handlers -/

def vendor3gpp : UInt32 := 10415

def grantedServiceUnitSize : UInt64 := 1048576

/-- `HIGH-QOS` or `LOW-QOS`, by the first letter of the policy. -/
def ruleBaseName (policy : Text) : Text :=
  if policy.getD 0 0 = 72 then [72, 73, 71, 72, 45, 81, 79, 83] else [76, 79, 87, 45, 81, 79, 83]

def gxCommonAvps (d : Server) (ie : IE) : List Avp :=
  [.string 263 (ie.get 263), .uint32 268 2001, .string 264 d.originHost, .string 296 d.originRealm,
    .uint32 258 (atoi (cstr (ie.get 258))), .uint32 416 (atoi (cstr (ie.get 416))),
    .uint32 415 (atoi (cstr (ie.get 415)))]

/-- The event triggers: resource allocation, the two usage reports, reallocation and end of
credit. -/
def eventTriggers : List Avp :=
  [.uint32v 1006 vendor3gpp 22 true, .uint32v 1006 vendor3gpp 26 true,
    .uint32v 1006 vendor3gpp 33 true, .uint32v 1006 vendor3gpp 16 true,
    .uint32v 1006 vendor3gpp 15 true]

def usageMonitoring (key : UInt32) : Avp :=
  .groupv 1067 vendor3gpp true
    [.uint32v 1066 vendor3gpp key true, .uint32v 1068 vendor3gpp 1 true,
      .group 431 [.uint64 412 grantedServiceUnitSize, .uint64 414 grantedServiceUnitSize,
        .uint64 421 (grantedServiceUnitSize <<< 1)]]

def qosInformation (lnk : DiameterLink) : Avp :=
  .groupv 1016 vendor3gpp true
    [.uint32v 1040 vendor3gpp lnk.ingress true, .uint32v 1041 vendor3gpp lnk.egress true]

def chargingRuleInstall (lnk : DiameterLink) : Avp :=
  .groupv 1001 vendor3gpp true
    [.stringv 1004 vendor3gpp (ruleBaseName lnk.policy), .stringv 1005 vendor3gpp lnk.policy,
      .uint32v 1063 vendor3gpp 0 true]

def gxInitialAvps (d : Server) (lnk : DiameterLink) (ie : IE) : List Avp :=
  gxCommonAvps d ie ++
    [.uint32 418 1, .uint32v 1009 vendor3gpp 0 true, .uint32v 1008 vendor3gpp 0 true] ++
    eventTriggers ++
    [.uint32v 1023 vendor3gpp 2 true, .uint32v 1042 vendor3gpp 0 true,
      .groupv 628 vendor3gpp true
        [.uint32 266 vendor3gpp, .uint32v 629 vendor3gpp 1 false, .uint32v 630 vendor3gpp 11 false],
      usageMonitoring 1, qosInformation lnk,
      .groupv 1049 vendor3gpp false
        [.uint32v 1028 vendor3gpp 9 true,
          .groupv 1034 vendor3gpp true
            [.uint32v 1046 vendor3gpp 1 true, .uint32v 1047 vendor3gpp 0 false,
              .uint32v 1048 vendor3gpp 0 false]],
      chargingRuleInstall lnk]

/-- The answer of `ReqGxUpdate`: the rules only if the request reports octets. -/
def gxUpdateAvps (d : Server) (lnk : DiameterLink) (ie : IE) : List Avp :=
  gxCommonAvps d ie ++
    if ie.get 412 = [] then []
    else eventTriggers ++ [usageMonitoring lnk.mkey.toUInt32, qosInformation lnk,
      chargingRuleInstall lnk]

/-- The header of an answer: version 1, the R and E flags cleared and the P flag set, the rest as
in the request. -/
def answerHead (h : Source) : List UInt8 :=
  [1] ++ h.block 1 3 ++ [(h.byte 4 &&& 0x1f) + 0x40] ++ h.block 5 15

def gxAnswer (h : Source) (avps : List Avp) : List UInt8 := encodeMessage 4096 (answerHead h) avps

/-- A row of `log_diameter_gy`. -/
structure GyRow where
  imsi : Text
  usedS5 : Text
  usedSgi : Text
  reporter : Text

/-- What a handler did: the server behind it, the row it asked the database to insert, and the
message it sent. -/
structure Reply where
  server : Server
  query : Option GyRow
  sent : List UInt8

/-- `ReqGxInitial`; `none` is `RETERR`. -/
def reqGxInitial (d : Server) (h : Source) (ie : IE) : Option Reply :=
  match d.findTable ie with
  | none => none
  | some lnk =>
    some ⟨d.addSession (ie.get 263) (ie.get 444), none, gxAnswer h (gxInitialAvps d lnk ie)⟩

/-- `ReqGxUpdate`. Whether the insert succeeds makes no difference. -/
def reqGxUpdate (d : Server) (h : Source) (ie : IE) : Option Reply :=
  match d.findTable ie with
  | none => none
  | some lnk =>
    some ⟨d, some ⟨cstr (ie.get 444), cstr (ie.get 412), cstr (ie.get 414), lnk.policy⟩,
      gxAnswer h (gxUpdateAvps d lnk ie)⟩

def reqGxTerminate (d : Server) (h : Source) (ie : IE) : Option Reply :=
  some ⟨d.eraseSession (ie.get 263), none, gxAnswer h (gxCommonAvps d ie)⟩

inductive GxRequest
  | initial
  | update
  | terminate
deriving DecidableEq

namespace GxRequest

def handle : GxRequest → Server → Source → IE → Option Reply
  | initial => reqGxInitial
  | update => reqGxUpdate
  | terminate => reqGxTerminate

def avps (r : GxRequest) (d : Server) (ie : IE) : List Avp :=
  let lnk := (d.findTable ie).getD DiameterLink.zero
  match r with
  | initial => gxInitialAvps d lnk ie
  | update => gxUpdateAvps d lnk ie
  | terminate => gxCommonAvps d ie

theorem sent_eq {r : GxRequest} {d : Server} {h : Source} {ie : IE} {reply : Reply}
    (hreply : r.handle d h ie = some reply) : reply.sent = gxAnswer h (r.avps d ie) := by
  cases r with
  | initial =>
    simp only [handle, reqGxInitial] at hreply
    split at hreply
    · cases hreply
    · rename_i lnk hfind
      obtain rfl := some.inj hreply
      simp only [avps, hfind, getD_some]
  | update =>
    simp only [handle, reqGxUpdate] at hreply
    split at hreply
    · cases hreply
    · rename_i lnk hfind
      obtain rfl := some.inj hreply
      simp only [avps, hfind, getD_some]
  | terminate =>
    obtain rfl := some.inj hreply
    rfl

end GxRequest

/-! ## 3. Answers are well formed -/

/-- **A well-formed message.** The AVPs tile the body, each padded to four bytes; the length
field of each, at any depth, counts its own header, vendor id and value; and the loop of
`ValidateDiameter` comes to the end. -/
structure WellFormed (sent : List UInt8) (avps : List Avp) : Prop where
  length_field : ∀ past, messageLen ⟨sent, past⟩ = sent.length
  aligned : sent.length % 4 = 0
  row : sent.drop 20 = bytesAll avps
  exact : ∀ avp : Avp, avp.Part avps → avp.wire.bytes <:+: sent.drop 20 ∧
    avp.wire.bytes.length % 4 = 0 ∧
    ∀ past, avpLen ⟨avp.wire.bytes, past⟩ 0 =
      8 + (vendorBytes avp.vendor).length + avp.value.length
  walk : ∀ past, (validateWalk ⟨sent, past⟩).Visits 0 (offsets 0 (avps.map wire)) true ∧
    (validateWalk ⟨sent, past⟩).Comes 0 (sent.length - 20)

theorem length_answerHead (h : Source) : (answerHead h).length = 20 := by
  simp [answerHead]

theorem encodeMessage_wellFormed {head : List UInt8} {avps : List Avp} (hhead : head.length = 20)
    (hfit : 20 + (bytesAll avps).length ≤ 4096) :
    WellFormed (encodeMessage 4096 head avps) avps := by
  have hbytes := bytesAll_eq_wireBytes avps
  have hroom : 20 + (wireBytes (avps.map wire)).length ≤ 4096 := hbytes ▸ hfit
  have hsmall : 20 + (wireBytes (avps.map wire)).length < 2 ^ 24 :=
    Nat.lt_of_le_of_lt hroom (by decide)
  have hsource := source_ofAvps hhead hsmall hroom
  have hsent := encodeMessage_eq hhead hfit
  have hlen : (encodeMessage 4096 head avps).length = 20 + (bytesAll avps).length := by
    rw [hsent, List.length_append, length_splice_head hhead]
  have hdrop : (encodeMessage 4096 head avps).drop 20 = bytesAll avps := by
    rw [hsent]
    exact List.drop_left' (length_splice_head hhead _)
  refine ⟨fun past => ?_, ?_, hdrop, fun avp hpart => ?_, fun past => ?_⟩
  · rw [← hsource past, Message.messageLen_eq, hlen, hbytes]
    rfl
  · have := length_bytesAll_mod avps
    omega
  · have hpad := padd4_spec avp.wire.size
    have hsmall' : (bytesAll avps).length < 2 ^ 24 := by
      omega
    refine ⟨hdrop ▸ hpart.isInfix, ?_, hpart.avpLen_eq hsmall'⟩
    rw [WireAvp.length_bytes]
    exact hpad.2.2
  · have hvisits := validate_visits (Message.ofAvps head avps hhead hsmall) past
    rw [hsource past] at hvisits
    rw [hlen, Nat.add_sub_cancel_left, hbytes]
    exact hvisits

/-- **Gx answers are well formed**, for every request and whatever the Session-Id, the origin host
and realm and the policy, as long as the answer fits the buffer. -/
theorem gx_answer_well_formed (r : GxRequest) (d : Server) (h : Source) (ie : IE) (reply : Reply)
    (hreply : r.handle d h ie = some reply) (hfit : 20 + (bytesAll (r.avps d ie)).length ≤ 4096) :
    WellFormed reply.sent (r.avps d ie) := by
  rw [GxRequest.sent_eq hreply]
  exact encodeMessage_wellFormed (length_answerHead h) hfit

def sampleServer : Server :=
  ⟨[104, 111, 115, 116], [114], fun _ _ => some ⟨1, [72, 49], 1000, 2000⟩, fun _ => none⟩
def sampleIe : IE := fun code => if code = 263 then some [115, 59, 49] else none

theorem gx_initial_well_formed :
    ∃ reply, GxRequest.initial.handle sampleServer ⟨[], fun _ => 0⟩ sampleIe = some reply ∧
      WellFormed reply.sent (GxRequest.initial.avps sampleServer sampleIe) :=
  ⟨_, rfl, gx_answer_well_formed .initial sampleServer ⟨[], fun _ => 0⟩ sampleIe _ rfl
    (by decide +kernel)⟩

end MixiPgw.Diameter
