/-
# Diameter AVPs and the encoders of the answers

`mod_diameter` writes an answer into a zeroed buffer of 4096 bytes with two counters that run side
by side, the write pointer `payload` and the length `len`, and fills the length field of a grouped
AVP in when its members are written. Whatever the calls, the buffer holds the bytes of the tree of
AVPs (`Avp.copy_holds`), a message is a header and a row of them (`encodeMessage_eq`), and every
length field is exact (`Avp.Part.avpLen_eq`).
-/
import MixiPgw.Lib.CString
import MixiPgw.Lib.Wire

namespace MixiPgw.Diameter

open Bytes CString List

/-! ## 1. AVPs on the wire -/

def flagV (flags : UInt8) : Bool := 0x80 ≤ flags

/-- **An AVP as it stands on the wire**: a vendor id exactly with the V flag, and padding up to the
next multiple of four. -/
structure WireAvp where
  code : UInt32
  flags : UInt8
  vendor : List UInt8
  value : List UInt8
  pad : List UInt8
  vendor_length : vendor.length = if flagV flags then 4 else 0
  pad_length : padd4 (8 + vendor.length + value.length) =
    8 + vendor.length + value.length + pad.length

namespace WireAvp

variable (w : WireAvp)

/-- What the length field counts: everything but the padding. -/
def size : Nat := 8 + w.vendor.length + w.value.length

def header : List UInt8 :=
  beBytes 4 w.code.toNat ++ ([w.flags] ++ beBytes 3 w.size)

def bytes : List UInt8 := w.header ++ (w.vendor ++ (w.value ++ w.pad))

@[simp] theorem length_header : w.header.length = 8 := by simp [header]

theorem length_bytes : w.bytes.length = padd4 w.size := by
  have hpad := w.pad_length
  simp only [bytes, length_append, length_header, size] at hpad ⊢
  omega

end WireAvp

/-! The header fields, as a parser reads them at position `p`. -/

def avpCode (s : Source) (p : Nat) : Nat := ofBe (s.block p 4)

def avpLen (s : Source) (p : Nat) : Nat := ofBe (s.block (p + 5) 3)

/-- `avppayload`: behind the header, and behind the vendor id if the V flag is set. -/
def avpPayload (s : Source) (p : Nat) : Nat := p + 8 + if flagV (s.byte (p + 4)) then 4 else 0

section

variable {s : Source} {p : Nat} {w : WireAvp} {rest : List UInt8}

theorem Lays.header (h : s.Lays p (w.bytes ++ rest)) : s.Lays p w.header := h.left.left

theorem avpCode_eq (h : s.Lays p (w.bytes ++ rest)) : avpCode s p = w.code.toNat := by
  rw [avpCode, (Lays.header h).left.ofBe (length_beBytes _ _), ofBe_beBytes_of_lt w.code.toNat_lt]

theorem avpFlags_eq (h : s.Lays p (w.bytes ++ rest)) : s.byte (p + 4) = w.flags := by
  have hflags : s.Lays (p + 4) [w.flags] := (Lays.header h).right.left
  exact hflags.byte (by simp : 0 < [w.flags].length)

theorem avpLen_eq (h : s.Lays p (w.bytes ++ rest)) (hsize : w.size < 2 ^ 24) :
    avpLen s p = w.size := by
  have hlen : s.Lays (p + 5) (beBytes 3 w.size) := (Lays.header h).right.right
  rw [avpLen, hlen.ofBe (length_beBytes _ _), ofBe_beBytes_of_lt hsize]

theorem avpPayload_eq (h : s.Lays p (w.bytes ++ rest)) :
    avpPayload s p = p + 8 + w.vendor.length := by
  rw [avpPayload, avpFlags_eq h, w.vendor_length]

theorem lays_value (h : s.Lays p (w.bytes ++ rest)) :
    s.Lays (avpPayload s p) (w.value ++ (w.pad ++ rest)) := by
  have hassoc : w.bytes ++ rest = (w.header ++ w.vendor) ++ (w.value ++ (w.pad ++ rest)) := by
    simp only [WireAvp.bytes, append_assoc]
  rw [avpPayload_eq h]
  rw [hassoc] at h
  have := h.right
  rwa [length_append, WireAvp.length_header, ← Nat.add_assoc] at this

end

/-! ## 2. Trees of AVPs -/

/-- The AVPs that the encoders can write; a call of an encoder and its arguments. -/
inductive Avp
  | string (code : UInt32) (str : Text)
  | stringv (code vendor : UInt32) (str : Text)
  | uint32 (code num : UInt32)
  | uint32v (code vendor num : UInt32) (m : Bool)
  | uint64 (code : UInt32) (num : UInt64)
  | uint64v (code vendor : UInt32) (num : UInt64)
  | group (code : UInt32) (members : List Avp)
  | groupv (code vendor : UInt32) (m : Bool) (members : List Avp)

/-- The flags an encoder leaves in zeroed memory. -/
def avpFlags (v m : Bool) : UInt8 := (if v then 0x80 else 0) + if m then 0x40 else 0

theorem flagV_avpFlags (v m : Bool) : flagV (avpFlags v m) = v := by
  cases v <;> cases m <;> rfl

def vendorBytes : Option UInt32 → List UInt8
  | none => []
  | some vendor => beBytes 4 vendor.toNat

theorem length_vendorBytes (vendor : Option UInt32) (m : Bool) :
    (vendorBytes vendor).length = if flagV (avpFlags vendor.isSome m) then 4 else 0 := by
  rw [flagV_avpFlags]
  cases vendor <;> simp [vendorBytes]

theorem padd4_eq_add_pad (n : Nat) :
    padd4 n = n + (replicate (padd4 n - n) (0 : UInt8)).length := by
  have := padd4_spec n
  rw [length_replicate]
  omega

def frame (code : UInt32) (vendor : Option UInt32) (m : Bool) (value : List UInt8) : WireAvp where
  code := code
  flags := avpFlags vendor.isSome m
  vendor := vendorBytes vendor
  value := value
  pad := replicate (padd4 (8 + (vendorBytes vendor).length + value.length) -
    (8 + (vendorBytes vendor).length + value.length)) 0
  vendor_length := length_vendorBytes vendor m
  pad_length := padd4_eq_add_pad _

namespace Avp

def code : Avp → UInt32
  | string code _ | stringv code _ _ | uint32 code _ | uint32v code _ _ _ | uint64 code _
  | uint64v code _ _ | group code _ | groupv code _ _ _ => code

def vendor : Avp → Option UInt32
  | string _ _ | uint32 _ _ | uint64 _ _ | group _ _ => none
  | stringv _ vendor _ | uint32v _ vendor _ _ | uint64v _ vendor _ | groupv _ vendor _ _ =>
    some vendor

def mandatory : Avp → Bool
  | uint32v _ _ _ m | groupv _ _ m _ => m
  | _ => true

mutual

/-- The value of an AVP: a string up to its NUL, a number in network order, or the members. -/
def value : Avp → List UInt8
  | string _ str | stringv _ _ str => cstr str
  | uint32 _ num | uint32v _ _ num _ => beBytes 4 num.toNat
  | uint64 _ num | uint64v _ _ num => beBytes 8 num.toNat
  | group _ members | groupv _ _ _ members => bytesAll members

def bytesAll : List Avp → List UInt8
  | [] => []
  | avp :: rest => (frame avp.code avp.vendor avp.mandatory avp.value).bytes ++ bytesAll rest

end

def wire (avp : Avp) : WireAvp := frame avp.code avp.vendor avp.mandatory avp.value

theorem bytesAll_cons (avp : Avp) (rest : List Avp) :
    bytesAll (avp :: rest) = avp.wire.bytes ++ bytesAll rest := by
  rw [bytesAll, wire]

theorem bytesAll_nil : bytesAll [] = [] := by rw [bytesAll]

end Avp

/-! ## 3. The encoders -/

/-- The answer under construction: `rbf`, and `payload` and `len` as they run. -/
structure Writer where
  rbf : List UInt8
  payload : Nat
  len : Nat

namespace Writer

variable (w : Writer)

/-- `avph->code` and the three flag bits; the other five bits stay as they are in memory. -/
def setHeader (code : UInt32) (v m : Bool) : Writer :=
  let rbf := splice w.rbf w.payload (beBytes 4 code.toNat)
  { w with
    rbf := splice rbf (w.payload + 4) [(rbf.getD (w.payload + 4) 0 &&& 0x1f) + avpFlags v m] }

/-- `avph->len = BE24R(n)` in the header at `avph`. -/
def setLen (avph n : Nat) : Writer :=
  { w with rbf := splice w.rbf (avph + 5) (beBytes 3 n) }

/-- `(*payload) += k; (*len) += k`. -/
def skip (k : Nat) : Writer :=
  { w with payload := w.payload + k, len := w.len + k }

/-- `memcpy((*payload), bytes, n)`, and both counters behind it. -/
def put (bytes : List UInt8) : Writer :=
  { w with rbf := splice w.rbf w.payload bytes }.skip bytes.length

/-- The common body of the encoders of a single value: the header, a vendor id, the value and the
padding. -/
def copyAvp (code : UInt32) (vendor : Option UInt32) (m : Bool) (value : List UInt8) : Writer :=
  let tmplen := value.length + 8 + (vendorBytes vendor).length
  let w' := ((w.setHeader code vendor.isSome m).setLen w.payload tmplen).skip 8
  ((w'.put (vendorBytes vendor)).put value).skip (padd4 tmplen - tmplen)

def copyAvpString (code : UInt32) (str : Text) : Writer :=
  w.copyAvp code none true (cstr str)

def copyAvpStringv (code vendor : UInt32) (str : Text) : Writer :=
  w.copyAvp code (some vendor) true (cstr str)

def copyAvpUint32 (code num : UInt32) : Writer :=
  w.copyAvp code none true (beBytes 4 num.toNat)

def copyAvpUint32v (code vendor num : UInt32) (m : Bool) : Writer :=
  w.copyAvp code (some vendor) m (beBytes 4 num.toNat)

def copyAvpUint64 (code : UInt32) (num : UInt64) : Writer :=
  w.copyAvp code none true (beBytes 8 num.toNat)

def copyAvpUint64v (code vendor : UInt32) (num : UInt64) : Writer :=
  w.copyAvp code (some vendor) true (beBytes 8 num.toNat)

/-- `COPY_AVP_GROUP`: the header without its length; the second value is where it stands. -/
def copyAvpGroup (code : UInt32) : Writer × Nat :=
  ((w.setHeader code false true).skip 8, w.payload)

def copyAvpGroupv (code vendor : UInt32) (m : Bool) : Writer × Nat :=
  (((w.setHeader code true m).skip 8).put (beBytes 4 vendor.toNat), w.payload)

end Writer

mutual

/-- The calls that write one AVP. The length field of a group is how far `len` has come. -/
def Avp.copy : Avp → Writer → Writer
  | .string code str, w => w.copyAvpString code str
  | .stringv code vendor str, w => w.copyAvpStringv code vendor str
  | .uint32 code num, w => w.copyAvpUint32 code num
  | .uint32v code vendor num m, w => w.copyAvpUint32v code vendor num m
  | .uint64 code num, w => w.copyAvpUint64 code num
  | .uint64v code vendor num, w => w.copyAvpUint64v code vendor num
  | .group code members, w =>
    let lenb := w.len
    let (w, avph) := w.copyAvpGroup code
    let w := copyAll members w
    w.setLen avph (w.len - lenb)
  | .groupv code vendor m members, w =>
    let lenb := w.len
    let (w, avph) := w.copyAvpGroupv code vendor m
    let w := copyAll members w
    w.setLen avph (w.len - lenb)

def copyAll : List Avp → Writer → Writer
  | [], w => w
  | avp :: rest, w => copyAll rest (avp.copy w)

end

/-! ## 4. The buffer holds the tree -/

/-- **A zeroed buffer filled from the front**, with both counters at the end of what it holds. -/
structure Writer.Holds (size : Nat) (w : Writer) (done : List UInt8) : Prop where
  room : done.length ≤ size
  rbf_eq : w.rbf = done ++ replicate (size - done.length) 0
  payload_eq : w.payload = done.length
  len_eq : w.len = done.length

section

variable {size : Nat} {w : Writer} {done : List UInt8}

theorem Writer.Holds.rbf_split (h : w.Holds size done) {k : Nat} (hk : done.length + k ≤ size) :
    w.rbf = done ++ (replicate k 0 ++ replicate (size - (done.length + k)) 0) := by
  rw [h.rbf_eq, replicate_append_replicate]
  congr 2
  omega

theorem Writer.Holds.put (h : w.Holds size done) {bytes : List UInt8}
    (hk : done.length + bytes.length ≤ size) : (w.put bytes).Holds size (done ++ bytes) where
  room := by rwa [length_append]
  rbf_eq := by
    have hsplice := @splice_append done (replicate bytes.length 0)
      (replicate (size - (done.length + bytes.length)) 0) bytes _ rfl (by simp)
    rw [length_append, append_assoc, ← hsplice, ← h.rbf_split hk, ← h.payload_eq]
    rfl
  payload_eq := by rw [length_append, ← h.payload_eq]; rfl
  len_eq := by rw [length_append, ← h.len_eq]; rfl

theorem Writer.Holds.skip (h : w.Holds size done) {k : Nat} (hk : done.length + k ≤ size) :
    (w.skip k).Holds size (done ++ replicate k 0) where
  room := by rwa [length_append, length_replicate]
  rbf_eq := by
    rw [length_append, length_replicate, append_assoc]
    exact h.rbf_split hk
  payload_eq := by rw [length_append, length_replicate, ← h.payload_eq]; rfl
  len_eq := by rw [length_append, length_replicate, ← h.len_eq]; rfl

theorem Writer.Holds.setLen {a b c : List UInt8} (h : w.Holds size (a ++ (b ++ c))) {avph n : Nat}
    (ha : a.length = avph + 5) (hb : b.length = 3) :
    (w.setLen avph n).Holds size (a ++ (beBytes 3 n ++ c)) := by
  have hlen : (a ++ (beBytes 3 n ++ c)).length = (a ++ (b ++ c)).length := by
    simp only [length_append, length_beBytes, hb]
  refine ⟨hlen ▸ h.room, ?_, hlen ▸ h.payload_eq, hlen ▸ h.len_eq⟩
  rw [hlen, append_assoc, append_assoc, ← splice_append ha (hb.trans (length_beBytes 3 n).symm),
    ← append_assoc, ← append_assoc, append_assoc a, ← h.rbf_eq]
  rfl

def openHeader (code : UInt32) (v m : Bool) : List UInt8 :=
  beBytes 4 code.toNat ++ ([avpFlags v m] ++ [0, 0, 0])

@[simp] theorem length_openHeader (code : UInt32) (v m : Bool) :
    (openHeader code v m).length = 8 := by
  simp [openHeader]

theorem Writer.Holds.setHeader (h : w.Holds size done) (hk : done.length + 8 ≤ size) (code : UInt32)
    (v m : Bool) :
    ((w.setHeader code v m).skip 8).Holds size (done ++ openHeader code v m) := by
  have hlen : (done ++ openHeader code v m).length = done.length + 8 := by simp
  refine ⟨hlen ▸ hk, ?_, ?_, ?_⟩
  · have hsplit := h.rbf_split hk
    rw [hlen]
    generalize replicate (size - (done.length + 8)) (0 : UInt8) = zeros at hsplit ⊢
    have hcode : splice w.rbf w.payload (beBytes 4 code.toNat) =
        (done ++ beBytes 4 code.toNat) ++ ([0] ++ ([0, 0, 0] ++ zeros)) := by
      rw [hsplit, h.payload_eq, append_assoc]
      exact @splice_append done [0, 0, 0, 0] ([0, 0, 0, 0] ++ zeros) (beBytes 4 code.toNat) _ rfl
        (length_beBytes 4 _).symm
    have hat : (done ++ beBytes 4 code.toNat).length = w.payload + 4 := by
      rw [length_append, length_beBytes, h.payload_eq]
    -- the flags byte is still zero
    have hzero : ((done ++ beBytes 4 code.toNat) ++ ([0] ++ ([0, 0, 0] ++ zeros))).getD
        (w.payload + 4) 0 = 0 := by
      rw [← hat, getD_append_right _ _ _ _ (Nat.le_refl _), Nat.sub_self]
      rfl
    have hflags : ((0 : UInt8) &&& 0x1f) + avpFlags v m = avpFlags v m := by
      cases v <;> cases m <;> rfl
    simp only [Writer.skip, Writer.setHeader, hcode, hzero, hflags]
    rw [@splice_append _ [0] _ [avpFlags v m] _ hat rfl]
    simp only [openHeader, append_assoc]
  · rw [hlen, ← h.payload_eq]
    rfl
  · rw [hlen, ← h.len_eq]
    rfl

theorem Writer.Holds.close {code : UInt32} {v m : Bool} {c : List UInt8}
    (h : w.Holds size (done ++ (openHeader code v m ++ c))) (n : Nat) :
    (w.setLen done.length n).Holds size
      (done ++ ((beBytes 4 code.toNat ++ ([avpFlags v m] ++ beBytes 3 n)) ++ c)) := by
  have hopen : done ++ (openHeader code v m ++ c) =
      (done ++ (beBytes 4 code.toNat ++ [avpFlags v m])) ++ ([0, 0, 0] ++ c) := by
    simp only [openHeader, append_assoc]
  have hclosed : done ++ ((beBytes 4 code.toNat ++ ([avpFlags v m] ++ beBytes 3 n)) ++ c) =
      (done ++ (beBytes 4 code.toNat ++ [avpFlags v m])) ++ (beBytes 3 n ++ c) := by
    simp only [append_assoc]
  rw [hclosed]
  rw [hopen] at h
  exact h.setLen (by simp) rfl

theorem length_frame (code : UInt32) (vendor : Option UInt32) (m : Bool) (value : List UInt8) :
    (frame code vendor m value).bytes.length =
      padd4 (8 + (vendorBytes vendor).length + value.length) :=
  WireAvp.length_bytes _

theorem Writer.setLen_skip (w : Writer) (avph n k : Nat) :
    (w.setLen avph n).skip k = (w.skip k).setLen avph n := rfl

theorem Writer.Holds.copyAvp (h : w.Holds size done) {code : UInt32} {vendor : Option UInt32}
    {m : Bool} {value : List UInt8}
    (hfit : (done ++ (frame code vendor m value).bytes).length ≤ size) :
    (w.copyAvp code vendor m value).Holds size
      (done ++ (frame code vendor m value).bytes) := by
  rw [length_append, length_frame] at hfit
  have hcomm : value.length + 8 + (vendorBytes vendor).length =
      8 + (vendorBytes vendor).length + value.length := by omega
  simp only [Writer.copyAvp, Writer.setLen_skip]
  rw [hcomm]
  generalize hn : 8 + (vendorBytes vendor).length + value.length = n at hfit ⊢
  have hpad := padd4_spec n
  have hopen : ((w.setHeader code vendor.isSome m).skip 8).Holds size
      (done ++ (openHeader code vendor.isSome m ++ [])) := by
    rw [append_nil]
    exact h.setHeader (by omega) code _ m
  have hhead := hopen.close n
  rw [← h.payload_eq] at hhead
  have hvendor := @Writer.Holds.put _ _ _ hhead (vendorBytes vendor) (by simp; omega)
  have hvalue := @Writer.Holds.put _ _ _ hvendor value (by simp; omega)
  have hdone := hvalue.skip (k := padd4 n - n) (by simp; omega)
  have hbytes : (frame code vendor m value).bytes =
      (beBytes 4 code.toNat ++ ([avpFlags vendor.isSome m] ++ beBytes 3 n)) ++
        (vendorBytes vendor ++ (value ++ replicate (padd4 n - n) 0)) := by
    simp only [WireAvp.bytes, WireAvp.header, WireAvp.size, frame, hn]
  rw [hbytes]
  simpa only [append_assoc, append_nil] using hdone

/-- A group, once its members are written: the length field is how far `len` has come. -/
theorem Writer.Holds.closeGroup (h : w.Holds size done) {code : UInt32} {vendor : Option UInt32}
    {m : Bool} {members : List UInt8} {w' : Writer} (h4 : members.length % 4 = 0)
    (hmembers : w'.Holds size
      (done ++ (openHeader code vendor.isSome m ++ (vendorBytes vendor ++ members)))) :
    (w'.setLen w.payload (w'.len - w.len)).Holds size
      (done ++ (frame code vendor m members).bytes) := by
  have hsize : w'.len - w.len = 8 + (vendorBytes vendor).length + members.length := by
    rw [hmembers.len_eq, h.len_eq]
    simp
    omega
  have hvendor : (vendorBytes vendor).length % 4 = 0 := by
    cases vendor <;> simp [vendorBytes]
  have hpad : padd4 (8 + (vendorBytes vendor).length + members.length) =
      8 + (vendorBytes vendor).length + members.length :=
    padd4_eq (Nat.le_refl _) (by omega) (by omega)
  have hclosed := hmembers.close (w'.len - w.len)
  have hbytes : (frame code vendor m members).bytes =
      (beBytes 4 code.toNat ++ ([avpFlags vendor.isSome m] ++ beBytes 3 (w'.len - w.len))) ++
        (vendorBytes vendor ++ members) := by
    simp only [WireAvp.bytes, WireAvp.header, WireAvp.size, frame, hpad, hsize, Nat.sub_self,
      replicate_zero, append_nil]
  rw [h.payload_eq, hbytes]
  exact hclosed

end

theorem length_bytesAll_mod : ∀ avps : List Avp, (Avp.bytesAll avps).length % 4 = 0
  | [] => by rw [Avp.bytesAll_nil]; rfl
  | avp :: rest => by
    have hrest := length_bytesAll_mod rest
    have hpad := padd4_spec avp.wire.size
    rw [Avp.bytesAll_cons, length_append, WireAvp.length_bytes]
    omega

section

variable {size : Nat}

mutual

theorem Avp.copy_holds : ∀ (avp : Avp) {w : Writer} {done : List UInt8}, w.Holds size done →
    (done ++ avp.wire.bytes).length ≤ size → (avp.copy w).Holds size (done ++ avp.wire.bytes)
  | .string _ _, _, _, h, hfit | .stringv _ _ _, _, _, h, hfit | .uint32 _ _, _, _, h, hfit
  | .uint32v _ _ _ _, _, _, h, hfit | .uint64 _ _, _, _, h, hfit
  | .uint64v _ _ _, _, _, h, hfit => by
    simp only [Avp.wire, Avp.code, Avp.vendor, Avp.mandatory, Avp.value] at hfit ⊢
    simp only [Avp.copy, Writer.copyAvpString, Writer.copyAvpStringv, Writer.copyAvpUint32,
      Writer.copyAvpUint32v, Writer.copyAvpUint64, Writer.copyAvpUint64v]
    exact h.copyAvp hfit
  | .group code members, w, done, h, hfit => by
    simp only [Avp.wire, Avp.code, Avp.vendor, Avp.mandatory, Avp.value] at hfit ⊢
    have hroom := hfit
    rw [length_append, length_frame] at hroom
    have hpad := padd4_spec (8 + (vendorBytes none).length + (Avp.bytesAll members).length)
    have hopen := h.setHeader (by omega) code false true
    have hmembers := copyAll_holds members hopen (by simp; omega)
    rw [append_assoc] at hmembers
    have hclosed := @Writer.Holds.closeGroup _ _ _ h code none true _ _
      (length_bytesAll_mod members) hmembers
    simpa only [Avp.copy, Writer.copyAvpGroup] using hclosed
  | .groupv code vendor m members, w, done, h, hfit => by
    simp only [Avp.wire, Avp.code, Avp.vendor, Avp.mandatory, Avp.value] at hfit ⊢
    have hroom := hfit
    rw [length_append, length_frame] at hroom
    have hpad := padd4_spec (8 + (vendorBytes (some vendor)).length + (Avp.bytesAll members).length)
    have hopen := h.setHeader (by omega) code true m
    have hid := @Writer.Holds.put _ _ _ hopen (vendorBytes (some vendor)) (by simp; omega)
    have hmembers := copyAll_holds members hid (by simp; omega)
    rw [append_assoc, append_assoc] at hmembers
    have hclosed := @Writer.Holds.closeGroup _ _ _ h code (some vendor) m _ _
      (length_bytesAll_mod members) hmembers
    simpa only [Avp.copy, Writer.copyAvpGroupv, vendorBytes] using hclosed

theorem copyAll_holds : ∀ (avps : List Avp) {w : Writer} {done : List UInt8}, w.Holds size done →
    (done ++ Avp.bytesAll avps).length ≤ size →
    (copyAll avps w).Holds size (done ++ Avp.bytesAll avps)
  | [], w, done, h, _ => by
    rw [Avp.bytesAll_nil, append_nil, copyAll]
    exact h
  | avp :: rest, w, done, h, hfit => by
    rw [Avp.bytesAll_cons, ← append_assoc] at hfit ⊢
    have hone := avp.copy_holds h (by simp at hfit ⊢; omega)
    rw [copyAll]
    exact copyAll_holds rest hone hfit

end

end

/-- A message: the AVPs are written behind the header, the length field of the header is filled in
and the bytes up to `len` are the message. -/
def encodeMessage (size : Nat) (head : List UInt8) (avps : List Avp) : List UInt8 :=
  let w := copyAll avps ⟨head ++ replicate (size - 20) 0, 20, 20⟩
  (splice w.rbf 1 (beBytes 3 w.len)).take w.len

variable {avps : List Avp}

/-- The message that is sent: the header with the length of the whole, and the row of AVPs. -/
theorem encodeMessage_eq {size : Nat} {head : List UInt8}
    (hhead : head.length = 20) (hfit : 20 + (Avp.bytesAll avps).length ≤ size) :
    encodeMessage size head avps =
      splice head 1 (beBytes 3 (20 + (Avp.bytesAll avps).length)) ++ Avp.bytesAll avps := by
  have hinit : Writer.Holds size ⟨head ++ replicate (size - 20) 0, 20, 20⟩ head :=
    ⟨by omega, by rw [hhead], hhead.symm, hhead.symm⟩
  have hlen : (head ++ Avp.bytesAll avps).length = 20 + (Avp.bytesAll avps).length := by
    rw [length_append, hhead]
  have hdone := copyAll_holds avps hinit (hlen.trans_le hfit)
  have hsplice : ∀ zeros, splice (head ++ Avp.bytesAll avps ++ zeros) 1
      (beBytes 3 (20 + (Avp.bytesAll avps).length)) =
      splice head 1 (beBytes 3 (20 + (Avp.bytesAll avps).length)) ++ Avp.bytesAll avps ++
        zeros := by
    intro zeros
    rw [append_assoc, splice, splice, length_beBytes,
      take_append_of_le_length (by omega), drop_append_of_le_length (by omega)]
    simp only [append_assoc]
  simp only [encodeMessage]
  rw [hdone.len_eq, hdone.rbf_eq, hlen, hsplice]
  refine take_left' ?_
  rw [length_append, length_splice (by rw [length_beBytes]; omega), hhead]

/-! ## 5. Well-formedness -/

inductive Avp.Part : Avp → List Avp → Prop
  | here {avp : Avp} {avps : List Avp} (h : avp ∈ avps) : Part avp avps
  | inGroup {avp : Avp} {avps members : List Avp} {code : UInt32}
      (h : .group code members ∈ avps) (inside : Part avp members) : Part avp avps
  | inGroupv {avp : Avp} {avps members : List Avp} {code vendor : UInt32} {m : Bool}
      (h : .groupv code vendor m members ∈ avps) (inside : Part avp members) : Part avp avps

variable {avp : Avp}

theorem isInfix_bytesAll : ∀ {avps : List Avp}, avp ∈ avps →
    avp.wire.bytes <:+: Avp.bytesAll avps
  | first :: rest, h => by
    rw [Avp.bytesAll_cons]
    rcases mem_cons.mp h with rfl | h
    · exact (prefix_append _ _).isInfix
    · exact (isInfix_bytesAll h).trans (suffix_append _ _).isInfix

theorem isInfix_value (w : WireAvp) : w.value <:+: w.bytes :=
  ⟨w.header ++ w.vendor, w.pad, by simp only [WireAvp.bytes, append_assoc]⟩

/-- The bytes of an AVP stand in the row, however deep it is. -/
theorem Avp.Part.isInfix (h : avp.Part avps) : avp.wire.bytes <:+: Avp.bytesAll avps := by
  induction h with
  | here h => exact isInfix_bytesAll h
  | @inGroup avps members code h _ ih =>
    have hvalue := isInfix_value (Avp.wire (.group code members))
    simp only [Avp.wire, frame, Avp.value] at hvalue
    exact ih.trans (hvalue.trans (isInfix_bytesAll h))
  | @inGroupv avps members code vendor m h _ ih =>
    have hvalue := isInfix_value (Avp.wire (.groupv code vendor m members))
    simp only [Avp.wire, frame, Avp.value] at hvalue
    exact ih.trans (hvalue.trans (isInfix_bytesAll h))

theorem Avp.Part.avpLen_eq (h : avp.Part avps)
    (hsmall : (Avp.bytesAll avps).length < 2 ^ 24) (past : Nat → UInt8) :
    avpLen ⟨avp.wire.bytes, past⟩ 0 = 8 + (vendorBytes avp.vendor).length + avp.value.length := by
  have hlays : (⟨avp.wire.bytes, past⟩ : Source).Lays 0 (avp.wire.bytes ++ []) := ⟨[], by simp⟩
  have hle := h.isInfix.length_le
  have hpad := padd4_spec avp.wire.size
  rw [WireAvp.length_bytes] at hle
  exact Diameter.avpLen_eq hlays (by omega)

end MixiPgw.Diameter
