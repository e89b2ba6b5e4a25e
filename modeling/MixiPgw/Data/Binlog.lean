/-
# The table worker and the binlog

A second thread of a tunnel worker, `CorePgwBaseWorker::VirtualCycle`, reads the replication stream
of the database and is meant to keep the worker's table a copy of the active rows of `tunnel`
(`Mirrors`). But `OnNotify` leaves the event number of a record at 0, and `VirtualCycle` acts on
30, 31 and 32 only, so that no event ever reaches the table: `mirrors_after_iff` is the exact set of
histories that keep it a copy.
-/
import MixiPgw.Data.Cycle
import MixiPgw.Lib.CString

namespace MixiPgw.Data

open Bytes CString Option List Function

/-! ## 1. Addresses in text columns -/

/-- The loop of `str_split` for one character; first, what the turn counter has left. A separator
at the front is skipped. -/
def strSplitLoop (sep : UInt8) : Nat → List Text → Text → Option (List Text)
  | 0, _, _ => none
  | n + 1, splitted, current =>
    match current.dropWhile (· ≠ sep) with
    | [] => some (splitted ++ [current])
    | c :: rest =>
      let tmpstr := current.takeWhile (· ≠ sep)
      if tmpstr = [] then
        if rest = [] then some splitted else strSplitLoop sep n splitted rest
      else strSplitLoop sep n (splitted ++ [tmpstr]) (c :: rest)

def strSplit (src : List UInt8) (sep : UInt8) : Option (List Text) :=
  if cstr src = [] then none else strSplitLoop sep 1001 [] (cstr src)

/-- `get_ipv4`; `none` is its error, which leaves the target alone. -/
def getIpv4 (src : List UInt8) : Option UInt32 :=
  match strSplit src 46 with
  | some [a, b, c, d] =>
    some (le32 (UInt8.ofNat (strtoulDec a)) (UInt8.ofNat (strtoulDec b))
      (UInt8.ofNat (strtoulDec c)) (UInt8.ofNat (strtoulDec d)))
  | _ => none

/-! ## 2. The event reader -/

inductive ColumnType
  | longlong
  | timestamp
  | timestamp2
  | varchar
  | varString
  | other
deriving DecidableEq, Repr

/-- A column of a `table_def`: its type and `field_metadata`. -/
structure Column where
  type : ColumnType
  metadata : Nat
deriving DecidableEq, Repr

inductive RowsType
  | write
  | update
  | delete
deriving DecidableEq, Repr

/-- A rows event. `cols` and `colsAi` are `m_cols` and `m_cols_ai`, `buf` is `m_rows_buf` with what
lies behind it. -/
structure RowsEvent where
  type : RowsType
  cols : List Bool
  colsAi : List Bool
  buf : Source

/-- An event of the stream; the table's name matters to the console only. -/
inductive BinlogEvent
  | rotate
  | formatDescription
  | transactionPayload
  | tableMap (table : Text) (columns : List Column)
  | rows (ev : RowsEvent)
  | other

inductive Notified
  | numeric (value : UInt64)
  | text (value : Text)

def rowsWord (buf : Source) (value : Nat) : UInt32 :=
  le32 (buf.byte value) (buf.byte (value + 1)) (buf.byte (value + 2)) (buf.byte (value + 3))

section

variable {ρ : Type} (onNotify : Nat → Notified → ρ → ρ) (buf : Source)

/-- The column loop of `Parse` over a row image: `i` is the column, `value` the place in the rows.
`none` is a `std::runtime_error`. -/
def parseImage (cols : List Bool) : List Column → Nat → Nat → ρ → Option (Nat × ρ)
  | [], _, value, data => some (value, data)
  | c :: td, i, value, data =>
    if cols.getD i false then
      match c.type with
      | .longlong =>
        parseImage cols td (i + 1) (value + 8)
          (onNotify i (.numeric (le64 (rowsWord buf value) (rowsWord buf (value + 4)))) data)
      | .timestamp | .timestamp2 => parseImage cols td (i + 1) (value + 4) data
      | .varchar | .varString =>
        if c.metadata ≥ 256 then none
        else
          let length := (buf.byte value).toNat
          parseImage cols td (i + 1) (value + (length + 1))
            (onNotify i (.text (cstr (buf.block (value + 1) (min 255 length)))) data)
      | .other => none
    else parseImage cols td (i + 1) value data

/-- The null bitmap in front of a row image. -/
def nullBytes (cols : List Bool) : Nat := (cols.count true + 7) / 8

/-- `ParseEvent::Parse`: the first row, and of an update the image behind it. -/
def parse (td : List Column) (ev : RowsEvent) (data : ρ) : Option ρ :=
  match parseImage onNotify ev.buf ev.cols td 0 (nullBytes ev.cols) data with
  | none => none
  | some (value, data) =>
    if ev.type = .update then
      (parseImage onNotify ev.buf ev.colsAi td 0 (value + nullBytes ev.colsAi) data).map Prod.snd
    else some data

end

/-- Whether there is a format description, and the last table map. -/
structure Reader where
  desEv : Bool
  tblEv : Option (List Column)

/-- `EventImpl::Read` of an event that was fetched. -/
def Reader.read {ρ : Type} (onNotify : Nat → Notified → ρ → ρ) (rd : Reader) (data : ρ) :
    BinlogEvent → Option (Reader × ρ)
  | .rotate | .transactionPayload | .other => some (rd, data)
  | .formatDescription => some ({ rd with desEv := true }, data)
  | .tableMap _ columns => some (if rd.desEv then { rd with tblEv := some columns } else rd, data)
  | .rows ev =>
    match rd.tblEv with
    | some td => (parse onNotify td ev data).map fun data => (rd, data)
    | none => some (rd, data)

/-! ## 3. The replication thread -/

structure Record where
  evt : Nat
  lnk : Lookup
deriving DecidableEq

def Mode.ofBits (v : UInt64) : Mode :=
  match v.toNat % 4 with
  | 0 => .lte
  | 1 => .m3g
  | 2 => .low
  | _ => .reserved

/-- Replaces an address if the text is one. -/
def storeAddr (old : UInt32) (value : Text) : UInt32 := (getIpv4 value).getD old

/-- `NotifyImpl::OnNotify`: `T_PGW_TEID`, `T_SGW_GTPU_TEID`, `T_ACTIVE` and `T_QOS`, and
`T_SGW_GTPU_IPV`, `T_UEIPV4` and `T_PGW_GTPU_IPV`. -/
def onNotify (clmnid : Nat) (value : Notified) (record : Record) : Record :=
  let lnk := record.lnk
  match value with
  | .numeric v =>
    match clmnid with
    | 4 => { record with lnk := { lnk with ueTeid := v.toUInt32 } }
    | 11 => { record with lnk := { lnk with sgwGtpuTeid := v.toUInt32 } }
    | 14 => { record with lnk := { lnk with active := v.toNat % 2 == 1 } }
    | 18 => { record with lnk := { lnk with mode := Mode.ofBits v } }
    | _ => record
  | .text t =>
    match clmnid with
    | 12 => { record with lnk := { lnk with sgwGtpuIpv4 := storeAddr lnk.sgwGtpuIpv4 t } }
    | 3 => { record with lnk := { lnk with ueIpv4 := storeAddr lnk.ueIpv4 t } }
    | 6 => { record with lnk := { lnk with pgwGtpuIpv4 := storeAddr lnk.pgwGtpuIpv4 t } }
    | _ => record

structure Policer where
  cir : UInt32
  cbs : UInt32
  eir : UInt32
  ebs : UInt32

/-- The rates that `VirtualCycle` gives to every record. -/
def Policer.rate (pol : Policer) (lnk : Lookup) : Lookup :=
  { lnk with
    commitInformationRate := pol.cir
    commitBurstSize := pol.cbs
    excessInformationRate := pol.eir
    excessBurstSize := pol.ebs }

def applyRecord (conf : Conf) (map : LookupMap) (record : Record) : LookupMap :=
  let key := bswap32 (nkey conf record.lnk)
  if record.evt = 30 then update map key (some record.lnk)
  else if record.evt = 31 then
    if record.lnk.active then update map key (some record.lnk)
    else update map key none
  else if record.evt = 32 then update map key none
  else map

/-- `CorePgwBaseWorker::VirtualCycle`; `none` is an exception of the reader, which nothing
catches. -/
def virtualCycle (conf : Conf) (pol : Policer) (s : Reader × LookupMap) (ev : BinlogEvent) :
    Option (Reader × LookupMap) :=
  match s.1.read onNotify ⟨0, zeroLookup⟩ ev with
  | none => none
  | some (rd, record) =>
    let record := { record with lnk := pol.rate record.lnk }
    if warmupValid record.lnk then some (rd, applyRecord conf s.2 record) else some (rd, s.2)

def follow (conf : Conf) (pol : Policer) (s : Reader × LookupMap) (evs : List BinlogEvent) :
    Option (Reader × LookupMap) :=
  evs.foldlM (virtualCycle conf pol) s

/-! ## 4. The sender -/

abbrev Varchar64 := { t : Text // t.length ≤ 64 }

structure TunnelRow where
  id : UInt64
  imsi : UInt64
  msisdn : UInt64
  ueipv4 : Varchar64
  pgwTeid : UInt64
  pgwGtpcIpv : Varchar64
  pgwGtpuIpv : Varchar64
  dns : Varchar64
  ebi : UInt64
  sgwGtpcTeid : UInt64
  sgwGtpcIpv : Varchar64
  sgwGtpuTeid : UInt64
  sgwGtpuIpv : Varchar64
  policy : Varchar64
  active : UInt64
  bitrateS5 : UInt64
  bitrateSgi : UInt64
  qci : UInt64
  qos : UInt64
  teidMask : UInt64
  priority : UInt64
  updatedAt : UInt32

inductive Value
  | num (v : UInt64)
  | text (t : Varchar64)
  | time (v : UInt32)

def TunnelRow.values (r : TunnelRow) : List Value :=
  [.num r.id, .num r.imsi, .num r.msisdn, .text r.ueipv4, .num r.pgwTeid, .text r.pgwGtpcIpv,
    .text r.pgwGtpuIpv, .text r.dns, .num r.ebi, .num r.sgwGtpcTeid, .text r.sgwGtpcIpv,
    .num r.sgwGtpuTeid, .text r.sgwGtpuIpv, .text r.policy, .num r.active, .num r.bitrateS5,
    .num r.bitrateSgi, .num r.qci, .num r.qos, .num r.teidMask, .num r.priority, .time r.updatedAt]

def Value.column : Value → Column
  | .num _ => ⟨.longlong, 0⟩
  | .text _ => ⟨.varchar, 64⟩
  | .time _ => ⟨.timestamp2, 0⟩

def Value.encode : Value → List UInt8
  | .num v => bytesOf v.toUInt32 ++ bytesOf (v >>> 32).toUInt32
  | .text t => UInt8.ofNat t.1.length :: t.1
  | .time v => bytesOf v

def tunnelColumns : List Column :=
  let bigint : Column := ⟨.longlong, 0⟩
  let varchar : Column := ⟨.varchar, 64⟩
  [bigint, bigint, bigint, varchar, bigint, varchar, varchar, varchar, bigint, bigint, varchar,
    bigint, varchar, varchar, bigint, bigint, bigint, bigint, bigint, bigint, bigint,
    ⟨.timestamp2, 0⟩]

/-- A full row image: the null bitmap, with the two spare bits set, and the values. -/
def TunnelRow.image (r : TunnelRow) : List UInt8 := [0, 0, 0xc0] ++ r.values.flatMap Value.encode

/-- A change of the database; an update has the old and the new image of each row, a `foreign` one
is of another table. -/
inductive Change
  | insert (rows : List TunnelRow)
  | update (rows : List (TunnelRow × TunnelRow))
  | delete (rows : List TunnelRow)
  | foreign (table : Text) (columns : List Column) (ev : RowsEvent)

def tunnelRows (type : RowsType) (rows : List TunnelRow) : RowsEvent where
  type := type
  cols := replicate 22 true
  colsAi := replicate 22 true
  buf := ⟨rows.flatMap TunnelRow.image, fun _ => 0⟩

def tunnelName : Text := [116, 117, 110, 110, 101, 108]

def Change.table : Change → Text
  | .foreign table _ _ => table
  | _ => tunnelName

def Change.columns : Change → List Column
  | .foreign _ columns _ => columns
  | _ => tunnelColumns

def Change.rowsEvent : Change → RowsEvent
  | .insert rows => tunnelRows .write rows
  | .update rows => tunnelRows .update (rows.flatMap fun (old, new) => [old, new])
  | .delete rows => tunnelRows .delete rows
  | .foreign _ _ ev => ev

/-- A change on the wire: the table map and the rows. -/
def Change.events (c : Change) : List BinlogEvent :=
  [.tableMap c.table c.columns, .rows c.rowsEvent]

def Change.apply (rows : List TunnelRow) : Change → List TunnelRow
  | .insert new => rows ++ new
  | .update changed =>
    changed.foldl (fun rows (old, new) => rows.map fun r => if r.id = old.id then new else r) rows
  | .delete old => rows.filter fun r => old.all fun o => r.id ≠ o.id
  | .foreign _ _ _ => rows

def tableAfter (rows : List TunnelRow) (history : List Change) : List TunnelRow :=
  history.foldl Change.apply rows

def stream (history : List Change) : List BinlogEvent :=
  .formatDescription :: history.flatMap Change.events

/-- The address in a text column, 0 if there is none. -/
def addrOf (t : Varchar64) : UInt32 := storeAddr 0 (cstr t.1)

def TunnelRow.entry (r : TunnelRow) : Entry where
  active := r.active.toNat % 2 == 1
  mode := Mode.ofBits r.qos
  ueIpv4 := addrOf r.ueipv4
  ueTeid := r.pgwTeid.toUInt32
  sgwGtpuTeid := r.sgwGtpuTeid.toUInt32
  sgwGtpuIpv4 := addrOf r.sgwGtpuIpv
  pgwGtpuIpv4 := addrOf r.pgwGtpuIpv

section

variable {ρ : Type} (f : Nat → Notified → ρ → ρ) {buf : Source}

theorem rowsWord_of_drop {p : Nat} {v : UInt32} {ys : List UInt8}
    (h : buf.bytes.drop p = bytesOf v ++ ys) : rowsWord buf p = v := by
  have hbyte (j : Nat) (hj : j < 4) : buf.byte (p + j) = (bytesOf v).getD j 0 :=
    Source.byte_of_drop h hj
  unfold rowsWord
  rw [hbyte 1 (by decide), hbyte 2 (by decide), hbyte 3 (by decide)]
  exact (congrArg (le32 · _ _ _) (hbyte 0 (by decide))).trans (le32_byteOf v)

theorem drop_behind {p : Nat} (xs : List UInt8) {ys : List UInt8}
    (h : buf.bytes.drop p = xs ++ ys) :
    buf.bytes.drop (p + xs.length) = ys := by
  rw [← drop_drop, h, drop_left]

end

/-! ## 5. The copy -/

def TunnelRow.Qualifies (r : TunnelRow) : Prop :=
  r.active = 1 ∧ r.entry.ueIpv4 ≠ 0 ∧ r.entry.ueTeid ≠ 0 ∧ r.entry.sgwGtpuIpv4 ≠ 0 ∧
    r.entry.sgwGtpuTeid ≠ 0 ∧ r.entry.pgwGtpuIpv4 ≠ 0

instance (r : TunnelRow) : Decidable r.Qualifies := by
  unfold TunnelRow.Qualifies
  infer_instance

def live (rows : List TunnelRow) : List Entry :=
  (rows.filter fun r => decide r.Qualifies).map TunnelRow.entry

def Mirrors (conf : Conf) (map : LookupMap) (rows : List TunnelRow) : Prop :=
  ∀ k e, (map k).map Lookup.toEntry = some e ↔ e ∈ live rows ∧ k = e.key conf

theorem Mirrors.congr_iff {conf : Conf} {map : LookupMap} {rows rows' : List TunnelRow}
    (h : Mirrors conf map rows) :
    Mirrors conf map rows' ↔ ∀ e, e ∈ live rows' ↔ e ∈ live rows := by
  constructor
  · intro h' e
    have hkey := (h' (e.key conf) e).symm.trans (h (e.key conf) e)
    simpa using hkey
  · intro hlive k e
    rw [h k e, hlive e]

def Column.supported (c : Column) : Bool :=
  match c.type with
  | .longlong | .timestamp | .timestamp2 => true
  | .varchar | .varString => c.metadata < 256
  | .other => false

def imageSupported (cols : List Bool) : List Column → Nat → Bool
  | [], _ => true
  | c :: td, i => (!cols.getD i false || c.supported) && imageSupported cols td (i + 1)

def Change.readable (c : Change) : Bool :=
  imageSupported c.rowsEvent.cols c.columns 0 &&
    (c.rowsEvent.type ≠ .update || imageSupported c.rowsEvent.colsAi c.columns 0)

section

variable {ρ : Type} {f : Nat → Notified → ρ → ρ}

theorem parseImage_isSome (buf : Source) (cols : List Bool) : ∀ (td : List Column) (i p : Nat)
    (data : ρ),
    (parseImage f buf cols td i p data).isSome = imageSupported cols td i
  | [], _, _, _ => rfl
  | c :: td, i, p, data => by
    have ih := parseImage_isSome buf cols td (i + 1)
    unfold parseImage imageSupported Column.supported
    cases cols.getD i false with
    | false => simpa using ih p data
    | true =>
      cases c.type with
      | longlong | timestamp | timestamp2 => simpa using ih _ _
      | varchar | varString =>
        by_cases hmeta : c.metadata < 256
        · simpa [hmeta, Nat.not_le.mpr hmeta] using ih _ _
        · simp [hmeta, Nat.not_lt.mp hmeta]
      | other => rfl

theorem parse_isSome (td : List Column) (ev : RowsEvent) (data : ρ) :
    (parse f td ev data).isSome = (imageSupported ev.cols td 0 &&
      (ev.type ≠ .update || imageSupported ev.colsAi td 0)) := by
  have himage := parseImage_isSome (f := f) ev.buf ev.cols td 0 (nullBytes ev.cols) data
  unfold parse
  split
  · rename_i hnone
    rw [hnone] at himage
    rw [← himage]
    rfl
  · rename_i p data' hsome
    rw [hsome] at himage
    rw [← himage]
    by_cases hupd : ev.type = .update
    · rw [if_pos hupd, isSome_map, parseImage_isSome]
      simp [hupd]
    · simp [hupd]

variable {P : ρ → Prop}

theorem parseImage_keeps (hf : ∀ i v d, P d → P (f i v d)) {buf : Source}
    (cols : List Bool) : ∀ {td : List Column} {i p : Nat} {data : ρ} {r : Nat × ρ}, P data →
      parseImage f buf cols td i p data = some r → P r.2
  | [], _, _, _, _, hP, h => by
    obtain rfl := some.inj h
    exact hP
  | c :: td, i, p, data, r, hP, h => by
    unfold parseImage at h
    split at h
    · split at h
      · exact parseImage_keeps hf cols (hf _ _ _ hP) h
      · exact parseImage_keeps hf cols hP h
      · exact parseImage_keeps hf cols hP h
      · split at h
        · exact absurd h (by simp)
        · exact parseImage_keeps hf cols (hf _ _ _ hP) h
      · split at h
        · exact absurd h (by simp)
        · exact parseImage_keeps hf cols (hf _ _ _ hP) h
      · exact absurd h (by simp)
    · exact parseImage_keeps hf cols hP h

theorem parse_keeps (hf : ∀ i v d, P d → P (f i v d)) {td : List Column}
    {ev : RowsEvent} {data data' : ρ} (hP : P data) (h : parse f td ev data = some data') :
    P data' := by
  unfold parse at h
  split at h
  · cases h
  · rename_i p d hd
    have hd' := parseImage_keeps hf ev.cols hP hd
    split at h
    · obtain ⟨r, hr, rfl⟩ := map_eq_some_iff.mp h
      exact parseImage_keeps hf ev.colsAi hd' hr
    · cases h
      exact hd'

theorem Reader.read_keeps (hf : ∀ i v d, P d → P (f i v d)) {rd rd' : Reader}
    {ev : BinlogEvent} {data data' : ρ} (hP : P data) (h : rd.read f data ev = some (rd', data')) :
    P data' := by
  unfold Reader.read at h
  split at h
  case h_6 =>
    split at h
    · obtain ⟨d, hd, heq⟩ := map_eq_some_iff.mp h
      obtain rfl := (Prod.mk.inj heq).2
      exact parse_keeps hf hP hd
    · obtain rfl := (Prod.mk.inj (some.inj h)).2
      exact hP
  all_goals
    obtain rfl := (Prod.mk.inj (some.inj h)).2
    exact hP

end

theorem onNotify_evt (clmnid : Nat) (value : Notified) (record : Record) :
    (onNotify clmnid value record).evt = record.evt := by
  unfold onNotify
  repeat' split
  all_goals rfl

section

variable {conf : Conf} {pol : Policer} (s : Reader × LookupMap)

/-- No event reaches the table: the record has the event number that `bzero` gave it. -/
theorem virtualCycle_eq (ev : BinlogEvent) :
    virtualCycle conf pol s ev =
      (s.1.read onNotify ⟨0, zeroLookup⟩ ev).map fun r => (r.1, s.2) := by
  unfold virtualCycle
  split
  · rename_i hread
    rw [hread]
    rfl
  · rename_i rd record hread
    have hevt : record.evt = 0 :=
      Reader.read_keeps (P := fun r => r.evt = 0)
        (fun i v d hd => (onNotify_evt i v d).trans hd) rfl hread
    have happly : applyRecord conf s.2 { record with lnk := pol.rate record.lnk } = s.2 := by
      simp [applyRecord, hevt]
    rw [hread]
    dsimp only
    rw [happly, ite_self]
    rfl

theorem follow_change {rd : Reader} (hdes : rd.desEv = true) (map : LookupMap) (c : Change) :
    follow conf pol (rd, map) c.events =
      if c.readable then some ({ rd with tblEv := some c.columns }, map) else none := by
  have hparse : (parse onNotify c.columns c.rowsEvent ⟨0, zeroLookup⟩).isSome = c.readable :=
    parse_isSome c.columns c.rowsEvent _
  simp only [follow, Change.events, foldlM_cons, foldlM_nil, virtualCycle_eq,
    Reader.read, hdes, if_true, map_some, bind_eq_bind, bind_some]
  cases hp : parse onNotify c.columns c.rowsEvent ⟨0, zeroLookup⟩ with
  | none =>
    rw [← hparse, hp]
    rfl
  | some record =>
    rw [← hparse, hp]
    rfl

theorem follow_append (evs evs' : List BinlogEvent) :
    follow conf pol s (evs ++ evs') =
      (follow conf pol s evs).bind fun s' => follow conf pol s' evs' := by
  unfold follow
  rw [foldlM_append]
  rfl

/-- A history leaves the table as it was, if the reader gets through it. -/
theorem follow_history (history : List Change) (rd : Reader) (hdes : rd.desEv = true)
    (map : LookupMap) :
    (follow conf pol (rd, map) (history.flatMap Change.events)).map Prod.snd =
      if ∀ c ∈ history, c.readable then some map else none := by
  induction history generalizing rd with
  | nil => simp [follow]
  | cons c history ih =>
    rw [flatMap_cons, follow_append, follow_change hdes]
    by_cases hc : c.readable
    · have hrest := ih { rd with tblEv := some c.columns } hdes
      rw [if_pos hc, bind_some, hrest]
      simp [hc]
    · rw [if_neg hc, if_neg (by simp [hc])]
      rfl

variable (conf pol) in
theorem follow_stream (rd : Reader) (map : LookupMap) (history : List Change) :
    (follow conf pol (rd, map) (stream history)).map Prod.snd =
      if ∀ c ∈ history, c.readable then some map else none := by
  exact follow_history history _ rfl map

/-- **Which histories keep the table a copy of the active rows**: those without a column the
reader has no code for, whose outcome has the sessions that were there before. -/
theorem mirrors_after_iff (rd : Reader) {map : LookupMap} {rows : List TunnelRow}
    (hmap : Mirrors conf map rows) (history : List Change) :
    (∃ s, follow conf pol (rd, map) (stream history) = some s ∧
      Mirrors conf s.2 (tableAfter rows history)) ↔
    (∀ c ∈ history, c.readable) ∧
      ∀ e, e ∈ live (tableAfter rows history) ↔ e ∈ live rows := by
  have hfollow := follow_stream conf pol rd map history
  by_cases hread : ∀ c ∈ history, c.readable
  · rw [if_pos hread] at hfollow
    obtain ⟨s, hs, hmap'⟩ := map_eq_some_iff.mp hfollow
    rw [hs, ← hmap.congr_iff]
    constructor
    · rintro ⟨s', hs', hm⟩
      cases hs'
      exact ⟨hread, hmap' ▸ hm⟩
    · rintro ⟨-, hm⟩
      exact ⟨s, rfl, hmap'.symm ▸ hm⟩
  · rw [if_neg hread, map_eq_none_iff] at hfollow
    rw [hfollow]
    constructor
    · rintro ⟨_, hs, -⟩
      cases hs
    · rintro ⟨h, -⟩
      exact absurd h hread

end

def sampleRow (active : UInt64) : TunnelRow where
  id := 1
  imsi := 440100000000001
  msisdn := 819012345678
  ueipv4 := ⟨[48, 46, 48, 46, 48, 46, 55], by decide⟩
  pgwTeid := 0x50000005
  pgwGtpcIpv := ⟨[], by decide⟩
  pgwGtpuIpv := ⟨[49, 48, 46, 57, 46, 57, 46, 57], by decide⟩
  dns := ⟨[], by decide⟩
  ebi := 5
  sgwGtpcTeid := 6
  sgwGtpcIpv := ⟨[], by decide⟩
  sgwGtpuTeid := 8
  sgwGtpuIpv := ⟨[49, 48, 46, 48, 46, 48, 46, 50], by decide⟩
  policy := ⟨[], by decide⟩
  active := active
  bitrateS5 := 0
  bitrateSgi := 0
  qci := 0
  qos := 0
  teidMask := 0
  priority := 0
  updatedAt := 0

def newReader : Reader := ⟨false, none⟩

def noEntries : LookupMap := fun _ => none

def foreignInsert : Change :=
  .foreign [108, 111, 103] [⟨.longlong, 0⟩, ⟨.varchar, 32⟩]
    ⟨.write, [true, true], [], ⟨[0xfc, 1, 0, 0, 0, 0, 0, 0, 0, 1, 65], fun _ => 0⟩⟩

/-- Another subscriber, with a session. -/
def activeRow : TunnelRow :=
  { sampleRow 1 with
    id := 2
    imsi := 440100000000002
    ueipv4 := ⟨[48, 46, 48, 46, 48, 46, 56], by decide⟩
    pgwTeid := 0x50000006 }

/-- The table with the session of one row. -/
def entryOf (conf : Conf) (r : TunnelRow) : LookupMap :=
  update noEntries (r.entry.key conf) (some { zeroLookup with toEntry := r.entry })

theorem mirrors_singleton (conf : Conf) {r : TunnelRow} (hr : r.Qualifies) :
    Mirrors conf (entryOf conf r) [r] := by
  intro k e
  have hlive : live [r] = [r.entry] := by simp [live, hr]
  rw [hlive, mem_singleton]
  by_cases hk : k = r.entry.key conf
  · subst hk
    simp only [entryOf, update_self, map_some, some.injEq]
    exact ⟨fun h => ⟨h.symm, h ▸ rfl⟩, fun h => h.1.symm⟩
  · rw [entryOf, update_of_ne hk]
    exact ⟨fun h => absurd h (by simp [noEntries]), fun h => absurd (h.1 ▸ h.2) hk⟩

/-- A row comes, changes and goes, and is active at no time. -/
def inactiveHistory : List Change :=
  [.insert [sampleRow 0], foreignInsert, .update [(sampleRow 0, sampleRow 2)],
    .delete [sampleRow 2]]

theorem inactive_row_mirrored :
    activeRow.Qualifies ∧
    ∃ s, follow (plainConf .egressTunnel) ⟨0, 0, 0, 0⟩
        (newReader, entryOf (plainConf .egressTunnel) activeRow) (stream inactiveHistory) = some s ∧
      Mirrors (plainConf .egressTunnel) s.2 (tableAfter [activeRow] inactiveHistory) := by
  have hactive : activeRow.Qualifies := by decide +kernel
  have hsame : live (tableAfter [activeRow] inactiveHistory) = live [activeRow] := by
    decide +kernel
  exact ⟨hactive, (mirrors_after_iff newReader (mirrors_singleton _ hactive) _).mpr
    ⟨by decide, fun e => by rw [hsame]⟩⟩

/-- One insert of an active row breaks the copy. -/
theorem active_row_not_mirrored :
    (sampleRow 1).Qualifies ∧
    ¬ ∃ s, follow (plainConf .egressTunnel) ⟨0, 0, 0, 0⟩ (newReader, noEntries)
        (stream [.insert [sampleRow 1]]) = some s ∧
      Mirrors (plainConf .egressTunnel) s.2 (tableAfter [] [.insert [sampleRow 1]]) := by
  refine ⟨by decide +kernel, ?_⟩
  rintro ⟨s, hs, hm⟩
  have hmap := follow_stream (plainConf .egressTunnel) ⟨0, 0, 0, 0⟩ newReader noEntries
    [.insert [sampleRow 1]]
  rw [hs] at hmap
  have hlive : (sampleRow 1).entry ∈ live (tableAfter [] [.insert [sampleRow 1]]) := by
    decide +kernel
  have hfound := (hm _ _).mpr ⟨hlive, rfl⟩
  rw [some.inj hmap] at hfound
  exact absurd hfound (by simp [noEntries])

end MixiPgw.Data
