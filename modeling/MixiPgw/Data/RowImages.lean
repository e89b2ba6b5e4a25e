/-
# Row images

`ParseEvent::Parse` walks the images of a rows event with a pointer that it moves by hand, and calls
`OnNotify` for the columns it understands; the table may be any of BIGINT, TIMESTAMP and VARCHAR
columns, and an image may leave columns out. The calls are those of the images of the FIRST row
(`parse_eq`). The members of the record are narrower than the columns, and a text that is no
address leaves that of the before image in place: `rows_decoded_iff`.
-/
import Mathlib.Data.List.TakeWhile
import MixiPgw.Data.Binlog

namespace MixiPgw.Data

open Bytes CString List Option

/-! ## 1. Events -/

/-- A text without NUL behind a length byte. -/
abbrev FieldText := { t : Text // t.length < 256 ∧ (0 : UInt8) ∉ t }

theorem cstr_of_not_mem {t : Text} (h : 0 ∉ t) : cstr t = t :=
  takeWhile_eq_self_iff.mpr fun c hc => by
    have hne : c ≠ 0 := fun h0 => h (h0 ▸ hc)
    simpa using hne

inductive FieldValue
  | num (v : UInt64)
  | text (t : FieldText)
  | time (v : UInt32)

namespace FieldValue

/-- The value belongs into a column of the type. -/
def Fits : FieldValue → Column → Prop
  | num _, c => c.type = .longlong
  | text t, c =>
    (c.type = .varchar ∨ c.type = .varString) ∧ c.metadata < 256 ∧ t.1.length ≤ c.metadata
  | time _, c => (c.type = .timestamp ∨ c.type = .timestamp2) ∧ c.metadata = 0

def encode : FieldValue → List UInt8
  | num v => bytesOf v.toUInt32 ++ bytesOf (v >>> 32).toUInt32
  | text t => UInt8.ofNat t.1.length :: t.1
  | time v => bytesOf v

def notified : FieldValue → Option Notified
  | num v => some (.numeric v)
  | text t => some (.text t.1)
  | time _ => none

end FieldValue

def encodeValues (vs : List (Option FieldValue)) : List UInt8 :=
  vs.flatMap fun v => v.elim [] FieldValue.encode

def callsFrom : Nat → List (Option FieldValue) → List (Nat × Notified)
  | _, [] => []
  | i, v :: vs => (v.bind FieldValue.notified).toList.map (i, ·) ++ callsFrom (i + 1) vs

/-- The null bitmap, with a bit for each column that is there, and the values. -/
structure RowImage (td : List Column) where
  nulls : List UInt8
  values : List (Option FieldValue)
  nulls_length : nulls.length = nullBytes (values.map isSome)
  fits : List.Forall₂ (fun v c => ∀ x, v = some x → x.Fits c) values td

namespace RowImage

variable {td : List Column}

variable (img : RowImage td)

def present : List Bool := img.values.map isSome

def bytes : List UInt8 := img.nulls ++ encodeValues img.values

def calls : List (Nat × Notified) := callsFrom 0 img.values

def valueAt (i : Nat) : Option FieldValue := img.values.getD i none

end RowImage

inductive RowData (td : List Column) : RowsType → Type
  | write (new : RowImage td) : RowData td .write
  | update (old new : RowImage td) : RowData td .update
  | delete (old : RowImage td) : RowData td .delete

namespace RowData

variable {td : List Column} {type : RowsType}

def images : RowData td type → List (RowImage td)
  | write new => [new]
  | update old new => [old, new]
  | delete old => [old]

def after : RowData td type → Option (RowImage td)
  | write new => some new
  | update _ new => some new
  | delete _ => none

def Announced (cols colsAi : List Bool) : RowData td type → Prop
  | write new => new.present = cols
  | update old new => old.present = cols ∧ new.present = colsAi
  | delete old => old.present = cols

def bytes (row : RowData td type) : List UInt8 := row.images.flatMap RowImage.bytes

def calls (row : RowData td type) : List (Nat × Notified) := row.images.flatMap RowImage.calls

end RowData

/-- The contents of a rows event, at least one row. -/
structure DescribedRows (td : List Column) where
  type : RowsType
  cols : List Bool
  colsAi : List Bool
  first : RowData td type
  rest : List (RowData td type)
  announced : ∀ row ∈ first :: rest, row.Announced cols colsAi

namespace DescribedRows

variable {td : List Column}

variable (d : DescribedRows td)

def rows : List (RowData td d.type) := d.first :: d.rest

def last : RowData td d.type := d.rest.getLastD d.first

def event (past : Nat → UInt8) : RowsEvent where
  type := d.type
  cols := d.cols
  colsAi := d.colsAi
  buf := ⟨d.rows.flatMap RowData.bytes, past⟩

end DescribedRows

/-! ## 2. The calls -/

def notifyAll {ρ : Type} (f : Nat → Notified → ρ → ρ) (calls : List (Nat × Notified)) (data : ρ) :
    ρ :=
  calls.foldl (fun data call => f call.1 call.2 data) data

section

variable {ρ : Type} (f : Nat → Notified → ρ → ρ) {buf : Source} {td : List Column}

theorem notifyAll_append (calls calls' : List (Nat × Notified)) (data : ρ) :
    notifyAll f (calls ++ calls') data = notifyAll f calls' (notifyAll f calls data) :=
  foldl_append

variable {cols : List Bool} {rest : List UInt8}

theorem parseImage_some {c : Column} {x : FieldValue} {i p : Nat} {data : ρ}
    (hcol : cols.getD i false = true) (hfits : x.Fits c)
    (hbuf : buf.bytes.drop p = x.encode ++ rest) :
    parseImage f buf cols (c :: td) i p data =
      parseImage f buf cols td (i + 1) (p + x.encode.length)
        (notifyAll f (x.notified.toList.map (i, ·)) data) := by
  rw [parseImage, if_pos hcol]
  cases x with
  | num v =>
    have htype : c.type = .longlong := hfits
    have hlo : rowsWord buf p = v.toUInt32 := rowsWord_of_drop (hbuf.trans (append_assoc _ _ _))
    have hhi : rowsWord buf (p + 4) = (v >>> 32).toUInt32 :=
      rowsWord_of_drop (drop_behind (bytesOf v.toUInt32) (hbuf.trans (append_assoc _ _ _)))
    rw [htype]
    rw [hlo, hhi, le64_words]
    rfl
  | text t =>
    obtain ⟨htype, hmeta, -⟩ := hfits
    obtain ⟨hlength, hnul⟩ := t.2
    have hlen : (buf.byte p).toNat = t.1.length := by
      have hfirst : buf.byte (p + 0) = UInt8.ofNat t.1.length :=
        Source.byte_of_drop hbuf (by simp [FieldValue.encode])
      rw [Nat.add_zero] at hfirst
      rw [hfirst, UInt8.toNat_ofNat', Nat.mod_eq_of_lt hlength]
    have htext : buf.block (p + 1) t.1.length = t.1 :=
      Source.block_of_drop (drop_behind [UInt8.ofNat t.1.length] hbuf)
    have hcstr : cstr t.1 = t.1 := cstr_of_not_mem hnul
    have hmin : min 255 (buf.byte p).toNat = t.1.length := by omega
    rcases htype with htype | htype
    all_goals
      rw [htype]
      dsimp only
      rw [if_neg (Nat.not_le.mpr hmeta), hmin, htext, hcstr, hlen]
      rfl
  | time v =>
    rcases hfits.1 with htype | htype
    all_goals
      rw [htype]
      rfl

theorem parseImage_values {vs : List (Option FieldValue)}
    (hfits : List.Forall₂ (fun v c => ∀ x, v = some x → x.Fits c) vs td) :
    ∀ {i p : Nat} (data : ρ), cols.drop i = vs.map isSome →
      buf.bytes.drop p = encodeValues vs ++ rest →
      parseImage f buf cols td i p data =
        some (p + (encodeValues vs).length, notifyAll f (callsFrom i vs) data) := by
  induction hfits with
  | nil =>
    intro i p data _ _
    rfl
  | @cons v c vs td hv _ ih =>
    intro i p data hcols hbuf
    have hcol : cols.getD i false = v.isSome := by
      have hget : (cols.drop i)[0]? = some v.isSome := by rw [hcols]; rfl
      rw [getElem?_drop, Nat.add_zero] at hget
      rw [getD_eq_getElem?_getD, hget]
      rfl
    have hcols' : cols.drop (i + 1) = vs.map isSome := by
      rw [← drop_drop, hcols]
      rfl
    cases v with
    | none =>
      rw [parseImage, hcol]
      exact ih data hcols' hbuf
    | some x =>
      have hsplit : encodeValues (some x :: vs) = x.encode ++ encodeValues vs := rfl
      rw [hsplit, append_assoc] at hbuf
      rw [parseImage_some f hcol (hv x rfl) hbuf, ih _ hcols' (drop_behind _ hbuf), hsplit,
        length_append, Nat.add_assoc, ← notifyAll_append]
      rfl

theorem parseImage_image (img : RowImage td) (hcols : img.present = cols)
    {p : Nat} (data : ρ) (hbuf : buf.bytes.drop p = img.bytes ++ rest) :
    parseImage f buf cols td 0 (p + nullBytes cols) data =
      some (p + img.bytes.length, notifyAll f img.calls data) := by
  subst hcols
  have hnulls : nullBytes img.present = img.nulls.length := img.nulls_length.symm
  have hvalues := drop_behind img.nulls (hbuf.trans (append_assoc _ _ _))
  rw [hnulls, parseImage_values f img.fits data rfl hvalues, RowImage.bytes, length_append,
    Nat.add_assoc]
  rfl

theorem parse_single (ev : RowsEvent) (htype : ev.type ≠ .update) (img : RowImage td)
    (hcols : img.present = ev.cols) (rest : List UInt8) (hbuf : ev.buf.bytes = img.bytes ++ rest)
    (data : ρ) : parse f td ev data = some (notifyAll f img.calls data) := by
  have himage := parseImage_image f img hcols data (p := 0) hbuf
  rw [Nat.zero_add] at himage
  rw [parse, himage]
  exact if_neg htype

theorem parse_update (ev : RowsEvent) (htype : ev.type = .update) (old new : RowImage td)
    (hcols : old.present = ev.cols) (hcolsAi : new.present = ev.colsAi) (rest : List UInt8)
    (hbuf : ev.buf.bytes = old.bytes ++ (new.bytes ++ rest)) (data : ρ) :
    parse f td ev data = some (notifyAll f new.calls (notifyAll f old.calls data)) := by
  have hbuf0 : ev.buf.bytes.drop 0 = old.bytes ++ (new.bytes ++ rest) := hbuf
  have hold := parseImage_image f old hcols data hbuf0
  have hnew := parseImage_image f new hcolsAi (notifyAll f old.calls data)
    (drop_behind old.bytes hbuf0)
  rw [Nat.zero_add] at hold
  rw [parse, hold]
  dsimp only
  rw [if_pos htype, hnew, map_some]

/-- `Parse` makes the calls of the first row, and of no other. -/
theorem parse_eq (d : DescribedRows td) (past : Nat → UInt8) (data : ρ) :
    parse f td (d.event past) data = some (notifyAll f d.first.calls data) := by
  obtain ⟨type, cols, colsAi, first, rest, announced⟩ := d
  have hfirst := announced first mem_cons_self
  cases first with
  | write new =>
    rw [RowData.calls, RowData.images, flatMap_singleton]
    refine parse_single f (DescribedRows.event ⟨_, cols, colsAi, .write new, rest, announced⟩ past)
      (fun h => nomatch h) new hfirst (rest.flatMap RowData.bytes) ?_ data
    simp only [DescribedRows.event, DescribedRows.rows, flatMap_cons, RowData.bytes,
      RowData.images, flatMap_nil, append_nil]
  | update old new =>
    rw [RowData.calls, RowData.images, flatMap_cons, flatMap_singleton, notifyAll_append]
    refine parse_update f
      (DescribedRows.event ⟨_, cols, colsAi, .update old new, rest, announced⟩ past)
      rfl old new hfirst.1 hfirst.2 (rest.flatMap RowData.bytes) ?_ data
    simp only [DescribedRows.event, DescribedRows.rows, flatMap_cons, RowData.bytes,
      RowData.images, flatMap_nil, append_nil, append_assoc]
  | delete old =>
    rw [RowData.calls, RowData.images, flatMap_singleton]
    refine parse_single f (DescribedRows.event ⟨_, cols, colsAi, .delete old, rest, announced⟩ past)
      (fun h => nomatch h) old hfirst (rest.flatMap RowData.bytes) ?_ data
    simp only [DescribedRows.event, DescribedRows.rows, flatMap_cons, RowData.bytes,
      RowData.images, flatMap_nil, append_nil]

end

/-! ## 3. The record -/

def dottedParts (t : Text) : List Text := (t.splitOn 46).filter (· ≠ [])

/-- Four parts between dots, each taken modulo 256. -/
def addressOf (t : Text) : Option UInt32 :=
  match dottedParts t with
  | [a, b, c, d] =>
    some (le32 (UInt8.ofNat (strtoulDec a)) (UInt8.ofNat (strtoulDec b))
      (UInt8.ofNat (strtoulDec c)) (UInt8.ofNat (strtoulDec d)))
  | _ => none

theorem dottedParts_dot {part rest : Text} (hpart : ∀ c ∈ part, (c == 46) = false) :
    dottedParts (part ++ 46 :: rest) =
      (if part = [] then [] else [part]) ++ dottedParts rest := by
  rw [dottedParts, splitOn, splitOnP_append_cons_of_forall_mem hpart 46 rfl, filter_cons]
  by_cases hempty : part = [] <;> simp [hempty, dottedParts, splitOn]

theorem strSplitLoop_eq : ∀ (n : Nat) (splitted : List Text) (current : Text), current ≠ [] →
    current.length ≤ n → strSplitLoop 46 n splitted current = some (splitted ++ dottedParts current)
  | 0, _, current, hne, hn => absurd (length_eq_zero_iff.mp (Nat.le_zero.mp hn)) hne
  | n + 1, splitted, current, hne, hn => by
    have hsplit := takeWhile_append_dropWhile (p := (· ≠ (46 : UInt8))) (l := current)
    have hpart : ∀ c ∈ current.takeWhile (· ≠ (46 : UInt8)), (c == 46) = false := fun c hc => by
      simpa using mem_takeWhile_imp hc
    unfold strSplitLoop
    cases hdrop : current.dropWhile (· ≠ (46 : UInt8)) with
    | nil =>
      rw [hdrop, append_nil] at hsplit
      rw [hsplit] at hpart
      have honly : dottedParts current = [current] := by
        rw [dottedParts, splitOn, splitOnP_eq_singleton hpart]
        simp [hne]
      rw [honly]
    | cons c rest =>
      obtain rfl : c = 46 := by
        have hhead := head?_dropWhile_not (· ≠ (46 : UInt8)) current
        rw [hdrop] at hhead
        simpa using hhead
      rw [hdrop] at hsplit
      dsimp only
      generalize current.takeWhile (· ≠ (46 : UInt8)) = part at hsplit hpart
      subst hsplit
      rw [dottedParts_dot hpart]
      by_cases hempty : part = []
      · subst hempty
        rw [if_pos rfl, if_pos rfl, nil_append]
        by_cases hrest : rest = []
        · subst hrest
          rw [if_pos rfl]
          exact congrArg some (append_nil splitted).symm
        · rw [if_neg hrest]
          exact strSplitLoop_eq n splitted rest hrest (Nat.le_of_succ_le_succ hn)
      · rw [if_neg hempty, if_neg hempty]
        have hlen : (46 :: rest).length ≤ n := by
          have hpos := length_pos_iff.mpr hempty
          rw [length_append] at hn
          omega
        have hdot : dottedParts (46 :: rest) = dottedParts rest :=
          (@dottedParts_dot [] rest (by simp)).trans (by simp)
        rw [strSplitLoop_eq n _ _ (cons_ne_nil 46 rest) hlen, hdot, append_assoc]

theorem strSplit_eq {t : Text} (hempty : cstr t ≠ []) (hlength : (cstr t).length ≤ 1001) :
    strSplit t 46 = some (dottedParts (cstr t)) := by
  rw [strSplit, if_neg hempty, strSplitLoop_eq 1001 [] _ hempty hlength, nil_append]

theorem getIpv4_of_length {t : Text} (hlength : (cstr t).length ≤ 1001) :
    getIpv4 t = addressOf (cstr t) := by
  unfold getIpv4 addressOf
  by_cases hempty : cstr t = []
  · rw [strSplit, if_pos hempty, hempty]
    rfl
  · rw [strSplit_eq hempty hlength]
    rcases dottedParts (cstr t) with _ | ⟨a, _ | ⟨b, _ | ⟨c, _ | ⟨d, _ | ⟨e, more⟩⟩⟩⟩⟩ <;> rfl

theorem getIpv4_eq (t : FieldText) : getIpv4 t.1 = addressOf t.1 := by
  have hcstr : cstr t.1 = t.1 := cstr_of_not_mem t.2.2
  rw [getIpv4_of_length (by rw [hcstr]; omega), hcstr]

section

inductive NumColumn
  | pgwTeid
  | sgwGtpuTeid
  | active
  | qos
deriving DecidableEq, Repr

inductive AddrColumn
  | sgwGtpuIpv
  | ueipv4
  | pgwGtpuIpv
deriving DecidableEq, Repr

/-- `T_PGW_TEID`, `T_SGW_GTPU_TEID`, `T_ACTIVE` and `T_QOS`. -/
def NumColumn.clmnid : NumColumn → Nat
  | pgwTeid => 4 | sgwGtpuTeid => 11 | active => 14 | qos => 18

def NumColumn.room : NumColumn → Nat
  | pgwTeid => 2 ^ 32 | sgwGtpuTeid => 2 ^ 32 | active => 2 | qos => 4

def Mode.bits : Mode → Nat
  | .lte => 0 | .m3g => 1 | .low => 2 | .reserved => 3

def NumColumn.get (c : NumColumn) (r : Record) : Nat :=
  match c with
  | pgwTeid => r.lnk.ueTeid.toNat
  | sgwGtpuTeid => r.lnk.sgwGtpuTeid.toNat
  | active => if r.lnk.active then 1 else 0
  | qos => r.lnk.mode.bits

/-- `T_SGW_GTPU_IPV`, `T_UEIPV4` and `T_PGW_GTPU_IPV`. -/
def AddrColumn.clmnid : AddrColumn → Nat
  | sgwGtpuIpv => 12 | ueipv4 => 3 | pgwGtpuIpv => 6

def AddrColumn.get (c : AddrColumn) (r : Record) : UInt32 :=
  match c with
  | sgwGtpuIpv => r.lnk.sgwGtpuIpv4
  | ueipv4 => r.lnk.ueIpv4
  | pgwGtpuIpv => r.lnk.pgwGtpuIpv4

/-- What a call does to a tracked number of its column. -/
def NumColumn.told (c : NumColumn) : Notified → Nat → Nat
  | .numeric v, _ => v.toNat % c.room
  | .text _, old => old

/-- What a call does to a tracked address of its column. -/
def AddrColumn.told : Notified → UInt32 → UInt32
  | .numeric _, old => old
  | .text t, old => storeAddr old t

theorem Mode.bits_ofBits (v : UInt64) : (Mode.ofBits v).bits = v.toNat % 4 := by
  have hcases : v.toNat % 4 = 0 ∨ v.toNat % 4 = 1 ∨ v.toNat % 4 = 2 ∨ v.toNat % 4 = 3 := by omega
  unfold Mode.ofBits
  rcases hcases with h | h | h | h
  all_goals
    rw [h]
    rfl

theorem NumColumn.get_onNotify (c : NumColumn) (i : Nat) (v : Notified) (r : Record) :
    c.get (onNotify i v r) = if i = c.clmnid then c.told v (c.get r) else c.get r := by
  cases v with
  | numeric x =>
    by_cases hi : i = c.clmnid
    · subst hi
      rw [if_pos rfl]
      cases c with
      | pgwTeid => exact UInt64.toNat_toUInt32 x
      | sgwGtpuTeid => exact UInt64.toNat_toUInt32 x
      | active =>
        change (if (x.toNat % 2 == 1) = true then 1 else 0) = x.toNat % 2
        rcases Nat.mod_two_eq_zero_or_one x.toNat with h | h
        all_goals
          rw [h]
          rfl
      | qos => exact Mode.bits_ofBits x
    · rw [if_neg hi]
      unfold onNotify
      dsimp only
      split <;> cases c <;> first | rfl | exact absurd rfl hi
  | text t =>
    have hkeep : c.get (onNotify i (.text t) r) = c.get r := by
      unfold onNotify
      dsimp only
      split <;> cases c <;> rfl
    rw [hkeep]
    exact (ite_self _).symm

theorem AddrColumn.get_onNotify (c : AddrColumn) (i : Nat) (v : Notified) (r : Record) :
    c.get (onNotify i v r) = if i = c.clmnid then AddrColumn.told v (c.get r) else c.get r := by
  cases v with
  | numeric x =>
    have hkeep : c.get (onNotify i (.numeric x) r) = c.get r := by
      unfold onNotify
      dsimp only
      split <;> cases c <;> rfl
    rw [hkeep]
    exact (ite_self _).symm
  | text t =>
    by_cases hi : i = c.clmnid
    · subst hi
      rw [if_pos rfl]
      cases c <;> rfl
    · rw [if_neg hi]
      unfold onNotify
      dsimp only
      split <;> cases c <;> first | rfl | exact absurd rfl hi

end

section

variable {ρ β : Type} {f : Nat → Notified → ρ → ρ} {g : ρ → β} {k : Nat} {told : Notified → β → β}

theorem notifyAll_callsFrom
    (hstep : ∀ i v data, g (f i v data) = if i = k then told v (g data) else g data) :
    ∀ (vs : List (Option FieldValue)) (i : Nat) (data : ρ),
      g (notifyAll f (callsFrom i vs) data) =
        if i ≤ k then ((vs.getD (k - i) none).bind FieldValue.notified).elim (g data)
          fun v => told v (g data)
        else g data
  | [], i, data => by simp [callsFrom, notifyAll]
  | v :: vs, i, data => by
    have hhead : g (notifyAll f ((v.bind FieldValue.notified).toList.map (i, ·)) data) =
        if i = k then (v.bind FieldValue.notified).elim (g data) fun v => told v (g data)
        else g data := by
      cases v.bind FieldValue.notified with
      | none => exact (ite_self _).symm
      | some n => exact hstep i n data
    rw [callsFrom, notifyAll_append, notifyAll_callsFrom hstep vs (i + 1), hhead]
    rcases Nat.lt_trichotomy i k with hlt | rfl | hgt
    · -- the column is still to come
      have hsucc : k - i = k - (i + 1) + 1 := by omega
      rw [if_pos (Nat.succ_le_of_lt hlt), if_neg (Nat.ne_of_lt hlt), if_pos (Nat.le_of_lt hlt),
        hsucc, getD_cons_succ]
    · rw [if_neg (Nat.not_succ_le_self i), if_pos rfl, if_pos (Nat.le_refl i), Nat.sub_self,
        getD_cons_zero]
    · rw [if_neg (by omega), if_neg (by omega), if_neg (by omega)]

end

variable {td : List Column}

theorem NumColumn.get_calls (c : NumColumn) (img : RowImage td) (r : Record) :
    c.get (notifyAll onNotify img.calls r) =
      ((img.valueAt c.clmnid).bind FieldValue.notified).elim (c.get r)
        fun v => c.told v (c.get r) := by
  have h := notifyAll_callsFrom c.get_onNotify img.values 0 r
  rwa [if_pos (Nat.zero_le _), Nat.sub_zero] at h

theorem AddrColumn.get_calls (c : AddrColumn) (img : RowImage td) (r : Record) :
    c.get (notifyAll onNotify img.calls r) =
      ((img.valueAt c.clmnid).bind FieldValue.notified).elim (c.get r)
        fun v => AddrColumn.told v (c.get r) := by
  have h := notifyAll_callsFrom c.get_onNotify img.values 0 r
  rwa [if_pos (Nat.zero_le _), Nat.sub_zero] at h

/-- **The record holds the image**: every tracked number and address, which is 0 where the text
stands for none. -/
structure HoldsImage (img : RowImage td) (r : Record) : Prop where
  num : ∀ (c : NumColumn) x, img.valueAt c.clmnid = some (.num x) → c.get r = x.toNat
  addr : ∀ (c : AddrColumn) (t : FieldText), img.valueAt c.clmnid = some (.text t) →
    c.get r = (addressOf t.1).getD 0

/-- The address in the before image of an update, 0 if there is none. -/
def RowData.oldAddress {type : RowsType} (c : AddrColumn) : RowData td type → UInt32
  | update old _ =>
    match old.valueAt c.clmnid with
    | some (.text t) => (addressOf t.1).getD 0
    | _ => 0
  | _ => 0

/-- **What a record has room for**: every tracked number of the after image fits its member, and
every tracked text is an address, unless the before image has none either. -/
structure FitsRecord {type : RowsType} (row : RowData td type) : Prop where
  num : ∀ img, row.after = some img → ∀ (c : NumColumn) x,
    img.valueAt c.clmnid = some (.num x) → x.toNat < c.room
  addr : ∀ img, row.after = some img → ∀ (c : AddrColumn) (t : FieldText),
    img.valueAt c.clmnid = some (.text t) → (addressOf t.1).isSome = true ∨ row.oldAddress c = 0

def emptyRecord : Record := ⟨0, zeroLookup⟩

theorem AddrColumn.get_empty (c : AddrColumn) : c.get emptyRecord = 0 := by
  cases c <;> rfl

theorem NumColumn.room_pos (c : NumColumn) : 0 < c.room := by
  cases c <;> decide

variable (img : RowImage td) (r : Record)

theorem num_held_iff (c : NumColumn) (x : UInt64) (hx : img.valueAt c.clmnid = some (.num x)) :
    c.get (notifyAll onNotify img.calls r) = x.toNat ↔ x.toNat < c.room := by
  rw [c.get_calls img r, hx]
  exact ⟨fun h => h ▸ Nat.mod_lt _ c.room_pos, Nat.mod_eq_of_lt⟩

theorem addr_held_iff (c : AddrColumn) (t : FieldText)
    (ht : img.valueAt c.clmnid = some (.text t)) :
    c.get (notifyAll onNotify img.calls r) = (addressOf t.1).getD 0 ↔
      (addressOf t.1).isSome = true ∨ c.get r = 0 := by
  rw [c.get_calls img r, ht]
  change storeAddr (c.get r) t.1 = _ ↔ _
  rw [storeAddr, getIpv4_eq]
  cases addressOf t.1 with
  | none => simp
  | some a => simp

theorem oldAddress_update (old new : RowImage td) (c : AddrColumn) :
    c.get (notifyAll onNotify old.calls emptyRecord) = (RowData.update old new).oldAddress c := by
  rw [c.get_calls old, c.get_empty, RowData.oldAddress]
  cases old.valueAt c.clmnid with
  | none => rfl
  | some v =>
    cases v with
    | num x => rfl
    | text t =>
      change storeAddr 0 t.1 = _
      rw [storeAddr, getIpv4_eq]
    | time x => rfl

theorem holdsImage_iff :
    HoldsImage img (notifyAll onNotify img.calls r) ↔
      (∀ (c : NumColumn) x, img.valueAt c.clmnid = some (.num x) → x.toNat < c.room) ∧
      ∀ (c : AddrColumn) (t : FieldText), img.valueAt c.clmnid = some (.text t) →
        (addressOf t.1).isSome = true ∨ c.get r = 0 := by
  constructor
  · intro h
    exact ⟨fun c x hx => (num_held_iff img r c x hx).mp (h.num c x hx),
      fun c t ht => (addr_held_iff img r c t ht).mp (h.addr c t ht)⟩
  · rintro ⟨hnum, haddr⟩
    exact ⟨fun c x hx => (num_held_iff img r c x hx).mpr (hnum c x hx),
      fun c t ht => (addr_held_iff img r c t ht).mpr (haddr c t ht)⟩

variable {type : RowsType}

theorem holds_after_iff (row : RowData td type) :
    (∀ img, row.after = some img → HoldsImage img (notifyAll onNotify row.calls emptyRecord)) ↔
      FitsRecord row := by
  cases row with
  | write new =>
    have hcalls : (RowData.write new).calls = new.calls := flatMap_singleton _ _
    have himage := holdsImage_iff new emptyRecord
    rw [hcalls]
    constructor
    · intro h
      obtain ⟨hnum, -⟩ := himage.mp (h new rfl)
      exact ⟨fun _ himg => some.inj himg ▸ hnum, fun _ _ _ _ _ => Or.inr rfl⟩
    · rintro h img himg
      obtain rfl := some.inj himg
      exact himage.mpr ⟨h.num _ rfl, fun c _ _ => Or.inr c.get_empty⟩
  | update old new =>
    have hcalls : (RowData.update old new).calls = old.calls ++ new.calls := by
      simp [RowData.calls, RowData.images]
    have himage := holdsImage_iff new (notifyAll onNotify old.calls emptyRecord)
    simp only [oldAddress_update old new] at himage
    rw [hcalls, notifyAll_append]
    constructor
    · intro h
      obtain ⟨hnum, haddr⟩ := himage.mp (h new rfl)
      exact ⟨fun _ himg => some.inj himg ▸ hnum, fun _ himg => some.inj himg ▸ haddr⟩
    · rintro h img himg
      obtain rfl := some.inj himg
      exact himage.mpr ⟨h.num _ rfl, h.addr _ rfl⟩
  | delete old =>
    have hnone (img : RowImage td) : (RowData.delete old).after ≠ some img := fun h => nomatch h
    exact ⟨fun _ => ⟨fun img himg => absurd himg (hnone img),
        fun img himg => absurd himg (hnone img)⟩,
      fun _ img himg => absurd himg (hnone img)⟩

/-! ## 4. Whole events -/

def logCall (clmnid : Nat) (value : Notified) (log : List (Nat × Notified)) :
    List (Nat × Notified) :=
  log ++ [(clmnid, value)]

theorem notifyAll_logCall (calls log : List (Nat × Notified)) :
    notifyAll logCall calls log = log ++ calls := by
  induction calls generalizing log with
  | nil => exact (append_nil log).symm
  | cons call calls ih =>
    change notifyAll logCall calls (log ++ [call]) = _
    rw [ih, append_assoc]
    rfl

/-- **The event is decoded**: the calls are those of all images, row by row, before image first,
and the record ends with the after image of the last row. -/
structure Decoded (d : DescribedRows td) (past : Nat → UInt8) : Prop where
  calls : parse logCall td (d.event past) [] = some (d.rows.flatMap RowData.calls)
  record : ∃ r, parse onNotify td (d.event past) emptyRecord = some r ∧
    ∀ img, d.last.after = some img → HoldsImage img r

def OnlyTimes {type : RowsType} (row : RowData td type) : Prop :=
  ∀ img ∈ row.images, ∀ x, some x ∈ img.values → ∃ t, x = .time t

theorem callsFrom_eq_nil : ∀ {i : Nat} {vs : List (Option FieldValue)},
    callsFrom i vs = [] ↔ ∀ x, some x ∈ vs → ∃ t, x = .time t
  | _, [] => by simp [callsFrom]
  | i, v :: vs => by
    have ih := @callsFrom_eq_nil (i + 1) vs
    have hhead : (v.bind FieldValue.notified).toList.map (i, ·) = [] ↔
        ∀ x, v = some x → ∃ t, x = .time t := by
      rcases v with _ | ⟨_ | _ | _⟩ <;> simp [FieldValue.notified]
    rw [callsFrom, append_eq_nil_iff, hhead, ih]
    constructor
    · rintro ⟨hv, hvs⟩ x hx
      rcases mem_cons.mp hx with hx | hx
      · exact hv x hx.symm
      · exact hvs x hx
    · intro h
      exact ⟨fun x hx => h x (hx ▸ mem_cons_self), fun x hx => h x (mem_cons_of_mem v hx)⟩

theorem calls_eq_nil (row : RowData td type) : row.calls = [] ↔ OnlyTimes row := by
  rw [RowData.calls, flatMap_eq_nil_iff]
  exact forall₂_congr fun _ _ => callsFrom_eq_nil

variable {row : RowData td type} {img : RowImage td}

theorem OnlyTimes.valueAt (h : OnlyTimes row) (himg : row.after = some img) {i : Nat}
    {x : FieldValue} (hx : img.valueAt i = some x) : ∃ t, x = .time t := by
  have hafter : img ∈ row.images := by
    cases row with
    | write new => exact some.inj himg ▸ mem_singleton_self _
    | update old new => exact some.inj himg ▸ mem_cons_of_mem _ mem_cons_self
    | delete old => exact nomatch himg
  refine h img hafter x ?_
  rw [RowImage.valueAt, getD_eq_getElem?_getD] at hx
  cases hget : img.values[i]? with
  | none => exact absurd (hget ▸ hx) (by simp)
  | some v =>
    obtain rfl : v = some x := by simpa [hget] using hx
    exact mem_of_getElem? hget

theorem OnlyTimes.fitsRecord (h : OnlyTimes row) : FitsRecord row := by
  refine ⟨fun img himg c x hx => ?_, fun img himg c t ht => ?_⟩
  · obtain ⟨_, htime⟩ := h.valueAt himg hx
    exact nomatch htime
  · obtain ⟨_, htime⟩ := h.valueAt himg ht
    exact nomatch htime

theorem OnlyTimes.holdsImage (h : OnlyTimes row)
    (himg : row.after = some img) (r : Record) : HoldsImage img r := by
  refine ⟨fun c x hx => ?_, fun c t ht => ?_⟩
  · obtain ⟨_, htime⟩ := h.valueAt himg hx
    exact nomatch htime
  · obtain ⟨_, htime⟩ := h.valueAt himg ht
    exact nomatch htime

/-- **When an event is decoded**, for every table of these types: the rows behind the first have
nothing to tell, and the record has room for the last row. -/
theorem rows_decoded_iff (d : DescribedRows td) (past : Nat → UInt8) :
    Decoded d past ↔ (∀ row ∈ d.rest, OnlyTimes row) ∧ FitsRecord d.last := by
  have hlog : parse logCall td (d.event past) [] = some d.first.calls := by
    rw [parse_eq, notifyAll_logCall, nil_append]
  have hcalls : parse logCall td (d.event past) [] = some (d.rows.flatMap RowData.calls) ↔
      ∀ row ∈ d.rest, OnlyTimes row := by
    rw [hlog, DescribedRows.rows, flatMap_cons, some_inj, self_eq_append_right, flatMap_eq_nil_iff]
    exact forall₂_congr fun row _ => calls_eq_nil row
  have hrecord (h : ∀ row ∈ d.rest, OnlyTimes row) :
      (∃ r, parse onNotify td (d.event past) emptyRecord = some r ∧
        ∀ img, d.last.after = some img → HoldsImage img r) ↔ FitsRecord d.last := by
    have hparse := parse_eq onNotify d past emptyRecord
    cases hrest : d.rest with
    | nil =>
      have hlast : d.last = d.first := by rw [DescribedRows.last, hrest]; rfl
      rw [hlast, ← holds_after_iff d.first]
      constructor
      · rintro ⟨r, hr, himg⟩
        obtain rfl := some.inj (hparse.symm.trans hr)
        exact himg
      · intro himg
        exact ⟨_, hparse, himg⟩
    | cons row rows =>
      have hlast : d.last ∈ d.rest := by
        rw [DescribedRows.last, hrest, getLastD_cons]
        exact getLastD_mem_cons
      exact ⟨fun _ => (h _ hlast).fitsRecord,
        fun _ => ⟨_, hparse, fun _ himg => (h _ hlast).holdsImage himg _⟩⟩
  constructor
  · rintro ⟨h, hr⟩
    exact ⟨hcalls.mp h, (hrecord (hcalls.mp h)).mp hr⟩
  · rintro ⟨h, hr⟩
    exact ⟨hcalls.mpr h, (hrecord h).mpr hr⟩

def teidImage (teid : UInt64) : RowImage tunnelColumns where
  nulls := [0xfe]
  values := replicate 4 none ++ some (.num teid) :: replicate 17 none
  nulls_length := by simp [replicate, nullBytes]
  fits := by simp [tunnelColumns, replicate, FieldValue.Fits]

def ueipv4Image (t : FieldText) (h : t.1.length ≤ 64) : RowImage tunnelColumns where
  nulls := [0xfe]
  values := replicate 3 none ++ some (.text t) :: replicate 18 none
  nulls_length := by simp [replicate, nullBytes]
  fits := by simp [tunnelColumns, replicate, FieldValue.Fits, h]

def twoRows : DescribedRows tunnelColumns where
  type := .write
  cols := (teidImage 1).present
  colsAi := (teidImage 1).present
  first := .write (teidImage 1)
  rest := [.write (teidImage 2)]
  announced := by simp [RowData.Announced, teidImage, RowImage.present]

def oldText : FieldText := ⟨[49, 48, 46, 48, 46, 48, 46, 49], by decide⟩

def noText : FieldText := ⟨[], by decide⟩

def clearedAddress : DescribedRows tunnelColumns where
  type := .update
  cols := (ueipv4Image oldText (by decide)).present
  colsAi := (ueipv4Image noText (by decide)).present
  first := .update (ueipv4Image oldText (by decide)) (ueipv4Image noText (by decide))
  rest := []
  announced := by simp [RowData.Announced]

/-- The second row is not read, and the record keeps an old address. -/
theorem row_images_missed :
    (parse logCall tunnelColumns (twoRows.event fun _ => 0) [] = some [(4, .numeric 1)] ∧
      ¬ Decoded twoRows fun _ => 0) ∧
    (parse onNotify tunnelColumns (clearedAddress.event fun _ => 0) emptyRecord).map
        (fun r => r.lnk.ueIpv4) = some (le32 10 0 0 1) ∧
      ¬ Decoded clearedAddress fun _ => 0 := by
  have hlog : parse logCall tunnelColumns (twoRows.event fun _ => 0) [] =
      some [(4, .numeric 1)] := by
    rw [parse_eq]
    rfl
  have haddr : (parse onNotify tunnelColumns (clearedAddress.event fun _ => 0) emptyRecord).map
      (fun r => r.lnk.ueIpv4) = some (le32 10 0 0 1) := by
    rw [parse_eq]
    decide
  refine ⟨⟨hlog, fun h => ?_⟩, haddr, fun h => ?_⟩
  · have hcalls := congrArg length (some.inj (hlog.symm.trans h.calls))
    exact absurd hcalls (by decide)
  · obtain ⟨r, hr, himg⟩ := h.record
    have hheld := (himg _ rfl).addr .ueipv4 noText rfl
    rw [hr] at haddr
    exact absurd ((some.inj haddr).symm.trans hheld) (by decide)

end MixiPgw.Data
