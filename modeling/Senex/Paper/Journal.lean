import Senex.Foundation.HashChain
import Senex.Paper.Fills

/-! # The journal

Records, their lines on disk and `_read_journal`.  `readJournal_journalBytes`
says that reading the lines of a list of records succeeds exactly when the
records are a hash chain from genesis, and then returns them.
-/

namespace Senex.Paper

open Text

inductive EventType where
  | orderRegistered
  | fillApplied
  | orderCancelled
  | orderExpired
  | snapshotReconciled
  | divergenceResolved
  deriving DecidableEq, Repr

def EventType.text : EventType → Text
  | .orderRegistered => txt "ORDER_REGISTERED"
  | .fillApplied => txt "FILL_APPLIED"
  | .orderCancelled => txt "ORDER_CANCELLED"
  | .orderExpired => txt "ORDER_EXPIRED"
  | .snapshotReconciled => txt "SNAPSHOT_RECONCILED"
  | .divergenceResolved => txt "DIVERGENCE_RESOLVED"

/-- `_SUPPORTED_EVENTS` -/
def supportedEvents : List EventType :=
  [.orderRegistered, .fillApplied, .orderCancelled, .orderExpired, .snapshotReconciled,
   .divergenceResolved]

def EventType.parse (t : Text) : Option EventType := supportedEvents.find? (·.text == t)

@[simp] theorem EventType.parse_text (e : EventType) : EventType.parse e.text = some e := by
  cases e <;> decide

/-- `GENESIS_HASH` -/
def genesisHash : Text := List.replicate 64 48

/-- A journal record; its payload is a document that `json.dumps` can write. -/
@[ext] structure Record where
  journalSeq : Nat
  eventId : Text
  eventType : EventType
  timestamp : Text
  payload : Json.Document
  prevSha256 : Text
  eventSha256 : Text
  deriving DecidableEq

def baseMembers (journalSeq : Nat) (eventId : Text) (eventType : EventType) (timestamp : Text)
    (payload : Json) (prevSha256 : Text) : List (Text × Json) :=
  [(txt "journal_seq", .ofNat journalSeq), (txt "event_id", .str eventId),
   (txt "event_type", .str eventType.text), (txt "timestamp", .str timestamp),
   (txt "payload", payload), (txt "prev_sha256", .str prevSha256)]

/-- The record without its own hash. -/
def Record.base (r : Record) : Json :=
  .ofMembers (baseMembers r.journalSeq r.eventId r.eventType r.timestamp r.payload.1 r.prevSha256)

def Record.toJson (r : Record) : Json :=
  .ofMembers (baseMembers r.journalSeq r.eventId r.eventType r.timestamp r.payload.1 r.prevSha256 ++
    [(txt "event_sha256", .str r.eventSha256)])

/-- The bytes that `_append_record` writes. -/
def Record.data (r : Record) : Py Bytes := encodeUtf8 (canonicalJson r.toJson ++ [10])

def recordKeys : List Text :=
  [txt "event_id", txt "event_sha256", txt "event_type", txt "journal_seq", txt "payload",
   txt "prev_sha256", txt "timestamp"]

abbrev JournalAnchor := Anchor Text Text

def genesisAnchor : JournalAnchor := ⟨0, genesisHash, []⟩

/-- Records as links of a hash chain. -/
def journalFormat : ChainFormat Record Text Text where
  seq := Record.journalSeq
  prev := Record.prevSha256
  hash := Record.eventSha256
  key := Record.eventId
  Sealed r := strip r.eventId ≠ [] ∧ normalizeTimestamp (.str r.timestamp) = .ok r.timestamp ∧
    digest r.base = .ok r.eventSha256

/-! ## Reading -/

/-- The checks of `_read_journal` on one decoded line. -/
def readRecord (anchor : JournalAnchor) (value : Json.Document) : Py Record := do
  guardNot (!value.1.isObject || value.1.keys != recordKeys) .contractError
    (txt "journal record fields do not match schema")
  guardNot (field value.1 (txt "journal_seq") != .ofNat (anchor.seq + 1)) .contractError
    (txt "journal sequence gap or reorder")
  let _ ← nonempty (jsonArg (field value.1 (txt "event_id"))) (txt "event_id")
  let eventId := (jsonArg (field value.1 (txt "event_id"))).text
  guardNot (anchor.used.contains eventId) .contractError (txt "journal contains duplicate event_id")
  let eventType ← orRaise (EventType.parse (jsonArg (field value.1 (txt "event_type"))).text)
    .contractError (txt "journal contains unknown event type")
  let normalized ← rewrap PyError.isValueError .contractError
    (fun t => txt "invalid journal timestamp: " ++ t)
    (normalizeTimestamp (jsonArg (field value.1 (txt "timestamp"))))
  guardNot (field value.1 (txt "timestamp") != .str normalized) .contractError
    (txt "journal timestamp is not canonically normalized")
  guardNot (field value.1 (txt "prev_sha256") != .str anchor.head) .contractError
    (txt "journal hash chain predecessor mismatch")
  let actual ← digest (value.1.without [txt "event_sha256"])
  guardNot (field value.1 (txt "event_sha256") != .str actual) .contractError
    (txt "journal event hash mismatch")
  return ⟨anchor.seq + 1, eventId, eventType, normalized,
    ⟨field value.1 (txt "payload"), Json.wellFormed_get? value.2 _⟩, anchor.head, actual⟩

/-- The loop of `_read_journal`. -/
def readRecords (anchor : JournalAnchor) : List Json.Document → Py (List Record)
  | [] => .ok []
  | value :: values => do
      let record ← readRecord anchor value
      return record :: (← readRecords (journalFormat.advance anchor record) values)

/-- `json.loads(line.decode("utf-8"))` -/
def parseLine (line : Bytes) : Py Json.Document :=
  orRaise ((Utf8.decode line).bind (Json.parseDocument true)) .contractError
    (txt "journal contains invalid JSON/UTF-8")

/-- `_read_journal` on the bytes of the file. -/
def readJournal (data : Bytes) : Py (List Record) := do
  guardNot (data != [] && !Bytes.endsWithNewline data) .contractError
    (txt "journal has an incomplete/truncated trailing record; recovery fails closed")
  let values ← (Bytes.splitlines data).mapM parseLine
  readRecords genesisAnchor values

/-! ## Records as they are written -/

theorem wellFormed_baseMembers (r : Record) :
    ∀ m ∈ baseMembers r.journalSeq r.eventId r.eventType r.timestamp r.payload.1 r.prevSha256,
      m.2.WellFormed := by
  simp [baseMembers, r.payload.2]

theorem Record.wellFormed_toJson (r : Record) : r.toJson.WellFormed :=
  Json.wellFormed_ofMembers fun m hm => by
    rcases List.mem_append.mp hm with hm | hm
    · exact wellFormed_baseMembers r m hm
    · simp only [List.mem_singleton] at hm
      subst hm
      trivial

/-- A record as the document on its line. -/
def Record.document (r : Record) : Json.Document := ⟨r.toJson, r.wellFormed_toJson⟩

section
variable (r : Record)

@[simp] theorem Record.isObject_toJson : r.toJson.isObject = true := rfl

@[simp] theorem Record.keys_toJson : r.toJson.keys = recordKeys := by
  simp only [Record.toJson, Json.keys_ofMembers, baseMembers, List.cons_append, List.nil_append,
    List.map_cons, List.map_nil]
  decide

private theorem field_toJson (key : Text) : field r.toJson key =
    (Json.lookup key (baseMembers r.journalSeq r.eventId r.eventType r.timestamp r.payload.1 r.prevSha256 ++
      [(txt "event_sha256", Json.str r.eventSha256)]).reverse).getD .null :=
  field_ofMembers _ _

@[simp] theorem Record.field_journalSeq : field r.toJson (txt "journal_seq") = .ofNat r.journalSeq := by
  simp [field_toJson, baseMembers, Json.lookup]

@[simp] theorem Record.field_eventId : field r.toJson (txt "event_id") = .str r.eventId := by
  simp [field_toJson, baseMembers, Json.lookup]

@[simp] theorem Record.field_eventType : field r.toJson (txt "event_type") = .str r.eventType.text := by
  simp [field_toJson, baseMembers, Json.lookup]

@[simp] theorem Record.field_timestamp : field r.toJson (txt "timestamp") = .str r.timestamp := by
  simp [field_toJson, baseMembers, Json.lookup]

@[simp] theorem Record.field_payload : field r.toJson (txt "payload") = r.payload.1 := by
  simp [field_toJson, baseMembers, Json.lookup]

@[simp] theorem Record.field_prev : field r.toJson (txt "prev_sha256") = .str r.prevSha256 := by
  simp [field_toJson, baseMembers, Json.lookup]

@[simp] theorem Record.field_sha : field r.toJson (txt "event_sha256") = .str r.eventSha256 := by
  simp [field_toJson, baseMembers, Json.lookup]

theorem Record.without_sha : r.toJson.without [txt "event_sha256"] = r.base := by
  simp [Record.toJson, Record.base, Json.without_ofMembers, baseMembers]

end

private theorem ofNat_inj {m n : Nat} : Json.ofNat m = Json.ofNat n ↔ m = n := by
  simp only [Json.ofNat, Json.num.injEq]
  exact ⟨fun same => Text.ofNat_injective same, fun same => by rw [same]⟩

/-- A written record is read back exactly when it extends the chain. -/
theorem readRecord_document {anchor : JournalAnchor} {r s : Record} :
    readRecord anchor r.document = .ok s ↔ s = r ∧ journalFormat.Extends anchor r := by
  have shape : readRecord anchor r.document = .ok s ↔
      r.journalSeq = anchor.seq + 1 ∧ strip r.eventId ≠ [] ∧ r.eventId ∉ anchor.used ∧
        normalizeTimestamp (.str r.timestamp) = .ok r.timestamp ∧ r.prevSha256 = anchor.head ∧
        digest r.base = .ok r.eventSha256 ∧ s = r := by
    simp only [readRecord, Record.document, Record.isObject_toJson, Record.keys_toJson, Bool.not_true,
      bne_self_eq_false, Bool.or_self, guardNot_false, Py.ok_bind, Record.field_journalSeq,
      Record.field_eventId, Record.field_eventType, Record.field_timestamp, Record.field_payload,
      Record.field_prev, Record.field_sha, Record.without_sha, Py.bind_eq_ok, guardNot_eq_ok,
      bne_eq_false_iff_eq, ofNat_inj, rewrap_eq_ok, nonempty_str, orRaise_eq_ok, jsonArg, PyArg.text,
      EventType.parse_text, Json.str.injEq, Py.pure_eq_ok, Except.ok.injEq, Option.some.injEq]
    constructor
    · rintro ⟨-, seq, -, ⟨filled, -⟩, -, fresh, type, rfl, t, normalized, -, rfl, -, prev, sha, digested,
        -, rfl, rfl⟩
      exact ⟨seq, filled, by simpa using fresh, normalized, prev, digested, by ext <;> simp [seq, prev]⟩
    · rintro ⟨seq, filled, fresh, normalized, prev, digested, rfl⟩
      refine ⟨(), seq, strip s.eventId, ⟨filled, rfl⟩, (), by simpa using fresh, _, rfl, _,
        normalized, (), rfl, (), prev, _, digested, (), rfl, ?_⟩
      ext <;> simp [seq, prev]
  rw [shape]
  constructor
  · rintro ⟨seq, filled, fresh, normalized, prev, digested, rfl⟩
    exact ⟨rfl, seq, prev, fresh, filled, normalized, digested⟩
  · rintro ⟨rfl, seq, prev, fresh, filled, normalized, digested⟩
    exact ⟨seq, filled, fresh, normalized, prev, digested, rfl⟩

theorem readRecords_documents {anchor : JournalAnchor} {rs : List Record} {read : List Record} :
    readRecords anchor (rs.map Record.document) = .ok read ↔
      read = rs ∧ journalFormat.Chain anchor rs := by
  induction rs generalizing anchor read with
  | nil => simp [readRecords, ChainFormat.Chain, eq_comm]
  | cons r rs ih =>
      simp only [List.map_cons, readRecords, Py.bind_eq_ok, readRecord_document, ih, Py.pure_eq_ok,
        Except.ok.injEq, ChainFormat.Chain]
      constructor
      · rintro ⟨s, ⟨rfl, extends_⟩, read', ⟨rfl, chain⟩, rfl⟩
        exact ⟨rfl, extends_, chain⟩
      · rintro ⟨rfl, extends_, chain⟩
        exact ⟨r, ⟨rfl, extends_⟩, rs, ⟨rfl, chain⟩, rfl⟩

/-! ## The file -/

/-- The bytes of a journal with these records. -/
def journalBytes : List Record → Py Bytes
  | [] => .ok []
  | r :: rs => do return (← r.data) ++ (← journalBytes rs)

theorem Record.data_eq_ok {r : Record} {data : Bytes} :
    r.data = .ok data ↔
      ∃ line, Utf8.encode (canonicalJson r.toJson) = some line ∧ data = line ++ [10] := by
  have newline : Utf8.encode [10] = some [10] := rfl
  simp only [Record.data, encodeUtf8, Utf8.encode_append, newline, Option.map_some]
  cases Utf8.encode (canonicalJson r.toJson) with
  | none => simp
  | some line => simp [eq_comm]

theorem journalBytes_append {xs ys : List Record} {disk : Bytes} :
    journalBytes (xs ++ ys) = .ok disk ↔
      ∃ front back, journalBytes xs = .ok front ∧ journalBytes ys = .ok back ∧ disk = front ++ back := by
  induction xs generalizing disk with
  | nil => simp [journalBytes]
  | cons x xs ih =>
      simp only [List.cons_append, journalBytes, Py.bind_eq_ok, Py.pure_eq_ok, Except.ok.injEq, ih]
      constructor
      · rintro ⟨data, hdata, -, ⟨front, back, hfront, hback, rfl⟩, rfl⟩
        exact ⟨data ++ front, back, ⟨data, hdata, front, hfront, rfl⟩, hback, by simp⟩
      · rintro ⟨-, back, ⟨data, hdata, front, hfront, rfl⟩, hback, rfl⟩
        exact ⟨data, hdata, front ++ back, ⟨front, back, hfront, hback, rfl⟩, by simp⟩

/-- Appending a record appends its bytes. -/
theorem journalBytes_concat {rs : List Record} {r : Record} {disk data : Bytes}
    (written : journalBytes rs = .ok disk) (coded : r.data = .ok data) :
    journalBytes (rs ++ [r]) = .ok (disk ++ data) :=
  journalBytes_append.mpr ⟨disk, data, written, by simp [journalBytes, coded], rfl⟩

theorem Record.length_data {r : Record} {data : Bytes} (coded : r.data = .ok data) :
    0 < data.length := by
  obtain ⟨line, -, rfl⟩ := Record.data_eq_ok.mp coded
  simp

theorem journalBytes_eq_nil {rs : List Record} {disk : Bytes} (written : journalBytes rs = .ok disk) :
    disk = [] ↔ rs = [] := by
  cases rs with
  | nil => cases written; simp
  | cons r rs =>
      simp only [journalBytes, Py.bind_eq_ok, Py.pure_eq_ok, Except.ok.injEq] at written
      obtain ⟨data, coded, rest, -, rfl⟩ := written
      have := Record.length_data coded
      simp only [reduceCtorEq, iff_false]
      intro empty
      have := congrArg List.length empty
      simp only [List.length_append, List.length_nil] at this
      omega

/-- The encoded text of a record holds no line break. -/
theorem Record.line_plain {r : Record} {line : Bytes}
    (coded : Utf8.encode (canonicalJson r.toJson) = some line) : ∀ b ∈ line, b ≠ 10 ∧ b ≠ 13 := by
  intro b hb
  have solid := Json.solid_render Json.solid_pyQuote r.toJson r.wellFormed_toJson
  constructor <;> rintro rfl
  · exact absurd (solid _ (Utf8.mem_of_mem_encode coded hb (by decide))) (by decide)
  · exact absurd (solid _ (Utf8.mem_of_mem_encode coded hb (by decide))) (by decide)

theorem parseLine_line {r : Record} {line : Bytes}
    (coded : Utf8.encode (canonicalJson r.toJson) = some line) : parseLine line = .ok r.document := by
  have whole := @Json.parse_render _ _ Json.reads_pyQuote _ r.wellFormed_toJson [] rfl
  rw [List.append_nil] at whole
  simp only [parseLine, Utf8.decode_encode coded, Option.bind_some, orRaise_eq_ok]
  exact Json.parseDocument_eq_some.mpr whole

/-- The lines of a journal, and what `json.loads` makes of them. -/
private theorem journalBytes_lines {rs : List Record} {disk : Bytes}
    (written : journalBytes rs = .ok disk) :
    ∃ lines : List Bytes, disk = lines.flatMap (· ++ [10]) ∧
      (∀ line ∈ lines, ∀ b ∈ line, b ≠ 10 ∧ b ≠ 13) ∧
      lines.mapM parseLine = .ok (rs.map Record.document) := by
  induction rs generalizing disk with
  | nil =>
      cases written
      exact ⟨[], rfl, by simp, rfl⟩
  | cons r rs ih =>
      simp only [journalBytes, Py.bind_eq_ok, Py.pure_eq_ok, Except.ok.injEq] at written
      obtain ⟨data, coded, rest, hrest, rfl⟩ := written
      obtain ⟨lines, rfl, plain, parsed⟩ := ih hrest
      obtain ⟨line, hline, rfl⟩ := Record.data_eq_ok.mp coded
      refine ⟨line :: lines, by simp, ?_, ?_⟩
      · intro l hl
        rcases List.mem_cons.mp hl with rfl | hl
        · exact Record.line_plain hline
        · exact plain l hl
      · rw [List.mapM_cons, parseLine_line hline, Py.ok_bind, parsed]
        rfl

/-- A journal consists of whole lines. -/
theorem journalBytes_whole {rs : List Record} {disk : Bytes} (written : journalBytes rs = .ok disk) :
    Bytes.wholeLines disk = disk := by
  obtain ⟨lines, rfl, -, -⟩ := journalBytes_lines written
  rcases List.eq_nil_or_concat lines with rfl | ⟨front, last, rfl⟩
  · rfl
  · rw [List.concat_eq_append, List.flatMap_append, List.flatMap_singleton, ← List.append_assoc]
    exact Bytes.wholeLines_newline _

/-- A file without a final newline is refused. -/
theorem readJournal_torn {data : Bytes} (some_data : data ≠ [])
    (torn : Bytes.endsWithNewline data = false) (rs : List Record) : readJournal data ≠ .ok rs := by
  have refused : (data != [] && !Bytes.endsWithNewline data) = true := by simp [some_data, torn]
  simp [readJournal, refused]

/-- Reading a written journal succeeds exactly for a hash chain from genesis. -/
theorem readJournal_journalBytes {rs read : List Record} {disk : Bytes}
    (written : journalBytes rs = .ok disk) :
    readJournal disk = .ok read ↔ read = rs ∧ journalFormat.Chain genesisAnchor rs := by
  obtain ⟨lines, rfl, plain, parsed⟩ := journalBytes_lines written
  have whole : ((lines.flatMap (· ++ [10]) != []) &&
      !Bytes.endsWithNewline (lines.flatMap (· ++ [10]))) = false := by
    rcases List.eq_nil_or_concat lines with rfl | ⟨front, last, rfl⟩
    · rfl
    · simp [Bytes.endsWithNewline, List.flatMap_append]
  simp only [readJournal, whole, guardNot_false, Py.ok_bind, Bytes.splitlines_lines lines plain, parsed,
    readRecords_documents]

end Senex.Paper
