import Senex.Foundation.Base64
import Senex.Foundation.Digits
import Senex.T0Audit.Transport

/-! # Cursor tokens

A reader asks `read_after` for the packets behind a token and goes on with the token of the last packet that
it got.  It gets every packet once and in order, whatever is sealed between its reads and wherever a
seal crashes.
-/

namespace Senex.T0Audit

open Text

/-! ## Tokens -/

/-- `_CURSOR_PREFIX` -/
def cursorPrefix : Text := txt "gptrader.v1:"

/-- `PacketCursor(packet_seq).token`; nothing is the `ValueError` of an `int` with more than 4300 digits. -/
def cursorToken (packetSeq : Nat) : Option Text :=
  if (ofNat packetSeq).length ≤ 4300 then
    some (Base64.stripPads (Base64.encode (cursorPrefix ++ ofNat packetSeq)))
  else none

/-- What a token decodes to; nothing is an exception of the codecs. -/
def decodeToken (token : Text) : Option Text := do
  if token.any (0x80 ≤ ·) then none
  else
    let bytes ← Base64.decode (Base64.repad token)
    if bytes.any (0x80 ≤ ·) then none else return bytes

/-- `PacketCursor.from_token`; the error is the text of a `CursorError`. -/
def fromToken (token : Option Text) : Except Text Nat :=
  if (token.getD []).isEmpty then .ok 0
  else
    match decodeToken (token.getD []) with
    | none => .error (txt "invalid cursor token")
    | some decoded =>
        if !cursorPrefix.isPrefixOf decoded then .error (txt "cursor version mismatch")
        else if !isdigit (decoded.drop cursorPrefix.length) then .error (txt "cursor sequence is invalid")
        else
          match intDigits (decoded.drop cursorPrefix.length) with
          | none => .error (txt "invalid cursor token")
          | some packetSeq => .ok packetSeq.toNat

/-- What a read raises: a `CursorError`, or an error of the sealer. -/
inductive ReadError where
  | cursorError (message : Text)
  | sealer (raised : Raised)
  deriving DecidableEq

/-- `read_after` with a token. -/
def readPage (token : Option Text) (limit : Nat) (disk : AuditDisk) : Except ReadError (List Json) :=
  if limit < 1 ∨ 16 < limit then .error (.sealer ⟨.valueError, txt "limit must be between 1 and 16"⟩)
  else
    match fromToken token with
    | .error message => .error (.cursorError message)
    | .ok cursor => (readAfter cursor limit disk).2.mapError .sealer

theorem ascii_cursorText (packetSeq : Nat) : ∀ c ∈ cursorPrefix ++ ofNat packetSeq, c < 0x80 := by
  have front : ∀ c ∈ cursorPrefix, c < 0x80 := by decide
  intro c inside
  rcases List.mem_append.mp inside with first | digits
  · exact front c first
  · have digit := isDigit_of_mem_ofNat digits
    simp only [isDigit, Bool.and_eq_true, decide_eq_true_eq] at digit
    omega

/-- What a token spells is decoded. -/
theorem decodeToken_spelled (packetSeq : Nat) :
    decodeToken (Base64.stripPads (Base64.encode (cursorPrefix ++ ofNat packetSeq))) =
      some (cursorPrefix ++ ofNat packetSeq) := by
  have ascii := ascii_cursorText packetSeq
  have bytes : ∀ b ∈ cursorPrefix ++ ofNat packetSeq, b < 256 := fun b inside => by
    have := ascii b inside
    omega
  have plain : (Base64.stripPads (Base64.encode (cursorPrefix ++ ofNat packetSeq))).any (0x80 ≤ ·) = false := by
    simp only [List.any_eq_false, decide_eq_true_eq, not_le]
    intro c inside
    exact Base64.ascii_encode _ c ((List.rdropWhile_prefix _ _).subset inside)
  have plain' : (cursorPrefix ++ ofNat packetSeq).any (0x80 ≤ ·) = false := by
    simp only [List.any_eq_false, decide_eq_true_eq, not_le]
    exact ascii
  rw [decodeToken, plain, if_neg Bool.false_ne_true, Base64.repad_stripPads_encode, Base64.decode_encode bytes,
    Option.bind_eq_bind, Option.bind_some, plain', if_neg Bool.false_ne_true]
  rfl

/-- A token that was given out is read back. -/
theorem fromToken_cursorToken {packetSeq : Nat} {token : Text} (given : cursorToken packetSeq = some token) :
    fromToken (some token) = .ok packetSeq := by
  have decoded := decodeToken_spelled packetSeq
  unfold cursorToken at given
  split at given
  · next short =>
      rw [← Option.some.inj given]
      have filled : (Base64.stripPads (Base64.encode (cursorPrefix ++ ofNat packetSeq))).isEmpty = false := by
        by_contra empty
        have nothing : Base64.stripPads (Base64.encode (cursorPrefix ++ ofNat packetSeq)) = [] := by simpa using empty
        rw [nothing] at decoded
        exact absurd decoded (by simp [decodeToken, Base64.repad, Base64.decode, Base64.decodeFrom, cursorPrefix, txt])
      have begins : cursorPrefix.isPrefixOf (cursorPrefix ++ ofNat packetSeq) = true :=
        List.isPrefixOf_iff_prefix.mpr (List.prefix_append _ _)
      rw [fromToken, Option.getD_some, filled, if_neg Bool.false_ne_true, decoded]
      dsimp only
      rw [begins, Bool.not_true, if_neg Bool.false_ne_true, List.drop_left, isdigit_ofNat, Bool.not_true,
        if_neg Bool.false_ne_true, intDigits_ofNat short]
      rfl
  · cases given

/-! ## Reads -/

/-- The sealer's files, and what a reader of them has: its token and the packets that it got. -/
structure Reading where
  disk : AuditDisk
  token : Option Text
  received : List Json

inductive ReadStep where
  /-- A prediction is sealed; the sealer may crash in it. -/
  | sealSource (source : Json.Document) (crash : Option (Nat × Nat))
  | read (limit : Nat)

/-- A reader keeps a page if it can go on from its last packet. -/
def takePage (r : Reading) (page : List Json) : Reading :=
  match (page.getLast?.map packetSeqOf).bind fun packetSeq => cursorToken packetSeq.toNat with
  | some token => { r with token := some token, received := r.received ++ page }
  | none => r

def readStep (r : Reading) : ReadStep → Reading
  | .sealSource source crash => { r with disk := step r.disk ⟨.sealSource source, crash⟩ }
  | .read limit =>
      match readPage r.token limit r.disk with
      | .ok page => takePage r page
      | .error _ => r

/-- A seal keeps the identity of its source, and its crash does not leave a log that cannot be read on. -/
def SparesReading (r : Reading) : ReadStep → Prop
  | .sealSource source crash => Spares r.disk ⟨.sealSource source, crash⟩
  | .read _ => True

/-- The reader has the first packets and its token says how many. -/
structure ReadUpTo (r : Reading) (packets : List Packet) (count : Nat) : Prop where
  produced : Produced r.disk packets
  inside : count ≤ packets.length
  received : r.received = (packets.take count).map Packet.json
  token : fromToken r.token = .ok count

theorem readPage_of_readUpTo {r : Reading} {packets : List Packet} {count limit : Nat} (upTo : ReadUpTo r packets count)
    (fits : 1 ≤ limit ∧ limit ≤ 16) :
    readPage r.token limit r.disk = .ok (((packets.drop count).take limit).map Packet.json) := by
  rw [readPage, if_neg (by omega), upTo.token]
  dsimp only
  rw [readAfter_of_intact upTo.produced.1 count fits]
  rfl

/-- What a nonempty page ends with. -/
theorem getLast?_page {packets : List Packet} (chained : Chained packets) {count limit : Nat}
    (more : count < packets.length) (some_ : 1 ≤ limit) :
    (((packets.drop count).take limit).map Packet.json).getLast?.map packetSeqOf =
      some ((count + min limit (packets.length - count) : Nat) : Int) := by
  have length : ((packets.drop count).take limit).length = min limit (packets.length - count) := by
    rw [List.length_take, List.length_drop]
  have last : count + (min limit (packets.length - count) - 1) < packets.length := by omega
  have here : ((packets.drop count).take limit).getLast? = some packets[count + (min limit (packets.length - count) - 1)] := by
    rw [List.getLast?_eq_getElem?, length, List.getElem?_take_of_lt (by omega), List.getElem?_drop,
      List.getElem?_eq_getElem last]
  have numbered := chained.seq_getElem last
  rw [List.getLast?_map, here, Option.map_some, Option.map_some, packetSeqOf_json]
  congr 1
  omega

theorem takePage_nil (r : Reading) : takePage r [] = r := rfl

section
variable {r : Reading} {packets : List Packet} {count : Nat}

theorem ReadUpTo.chained (upTo : ReadUpTo r packets count) : Chained packets := by
  obtain ⟨file, checkpoint, reads, -⟩ := upTo.produced.1
  exact reads.holds.chained

/-- The next page takes the reader on, where it can spell its place. -/
theorem ReadUpTo.read (upTo : ReadUpTo r packets count) {limit : Nat} (fits : 1 ≤ limit ∧ limit ≤ 16)
    (spelled : (cursorToken (count + min limit (packets.length - count))).isSome) :
    ReadUpTo (readStep r (.read limit)) packets (count + min limit (packets.length - count)) := by
  have inside := upTo.inside
  rw [readStep, readPage_of_readUpTo upTo fits]
  dsimp only
  by_cases more : count < packets.length
  · obtain ⟨token, given⟩ := Option.isSome_iff_exists.mp spelled
    have taken : takePage r (((packets.drop count).take limit).map Packet.json) =
        { r with token := some token, received := r.received ++ ((packets.drop count).take limit).map Packet.json } := by
      rw [takePage, getLast?_page upTo.chained more fits.1, Option.bind_some, Int.toNat_natCast, given]
    rw [taken]
    refine ⟨upTo.produced, by omega, ?_, fromToken_cursorToken given⟩
    have split : packets.take (count + min limit (packets.length - count)) =
        packets.take count ++ (packets.drop count).take limit := by
      rw [List.take_add, ← List.length_drop, ← List.take_eq_take_min]
    dsimp only
    rw [upTo.received, split, List.map_append]
  · have all : count = packets.length := by omega
    have none_ : packets.drop count = [] := List.drop_eq_nil_of_le (by omega)
    have stays : count + min limit (packets.length - count) = count := by omega
    rw [none_, List.take_nil, List.map_nil, takePage_nil, stays]
    exact upTo

/-- A step of the sealer or of the reader: nothing that was got is taken back. -/
theorem ReadUpTo.step (upTo : ReadUpTo r packets count) {a : ReadStep} (spares : SparesReading r a) :
    ∃ sealed count', count ≤ count' ∧ ReadUpTo (readStep r a) (packets ++ sealed) count' := by
  cases a with
  | sealSource source crash =>
      obtain ⟨sealed, produced⟩ := upTo.produced.of_step spares
      have inside := upTo.inside
      refine ⟨sealed, count, Nat.le_refl _, produced, ?_, ?_, upTo.token⟩
      · rw [List.length_append]
        omega
      · show r.received = _
        rw [upTo.received, List.take_append_of_le_length inside]
  | read limit =>
      have unchanged : ReadUpTo r (packets ++ []) count := by rwa [List.append_nil]
      by_cases fits : 1 ≤ limit ∧ limit ≤ 16
      · cases spelled : (cursorToken (count + min limit (packets.length - count))).isSome with
        | true =>
            refine ⟨[], count + min limit (packets.length - count), Nat.le_add_right _ _, ?_⟩
            rw [List.append_nil]
            exact upTo.read fits spelled
        | false =>
            -- the number has too many digits: the reader keeps its token and reads the page again
            refine ⟨[], count, Nat.le_refl _, ?_⟩
            have same : readStep r (.read limit) = r := by
              rw [readStep, readPage_of_readUpTo upTo fits]
              dsimp only
              by_cases more : count < packets.length
              · rw [takePage, getLast?_page upTo.chained more fits.1, Option.bind_some, Int.toNat_natCast]
                rw [Option.isSome_eq_false_iff, Option.isNone_iff_eq_none] at spelled
                rw [spelled]
              · rw [List.drop_eq_nil_of_le (not_lt.mp more), List.take_nil, List.map_nil, takePage_nil]
            rw [same]
            exact unchanged
      · refine ⟨[], count, Nat.le_refl _, ?_⟩
        have same : readStep r (.read limit) = r := by
          rw [readStep, readPage, if_pos (by omega)]
        rw [same]
        exact unchanged

theorem ReadUpTo.of_run (upTo : ReadUpTo r packets count) {steps : List ReadStep}
    (allowed : Allowed readStep SparesReading r steps) :
    ∃ sealed count', count ≤ count' ∧ ReadUpTo (run readStep r steps) (packets ++ sealed) count' := by
  induction steps generalizing r packets count with
  | nil => exact ⟨[], count, Nat.le_refl _, by rwa [List.append_nil]⟩
  | cons a steps ih =>
      obtain ⟨sealed, middle, grown, between⟩ := upTo.step allowed.1
      obtain ⟨sealed', count', grown', last⟩ := ih between allowed.2
      refine ⟨sealed ++ sealed', count', by omega, ?_⟩
      rw [← List.append_assoc]
      exact last

/-- Enough reads bring the reader to the end. -/
theorem ReadUpTo.catchUp (upTo : ReadUpTo r packets count) (spelled : packets.length < 10 ^ 4300) {limits : List Nat}
    (fits : ∀ limit ∈ limits, 1 ≤ limit ∧ limit ≤ 16) (enough : packets.length ≤ count + limits.sum) :
    ReadUpTo (run readStep r (limits.map .read)) packets packets.length := by
  induction limits generalizing r count with
  | nil =>
      have all : count = packets.length := by
        have inside := upTo.inside
        rw [List.sum_nil] at enough
        omega
      exact all ▸ upTo
  | cons limit limits ih =>
      have inside := upTo.inside
      have few : count + min limit (packets.length - count) < 10 ^ 4300 := by
        refine lt_of_le_of_lt ?_ spelled
        omega
      have short := @length_ofNat_le _ 4300 (by decide) few
      have next := upTo.read (fits limit (.head _)) (by rw [cursorToken, if_pos short]; rfl)
      rw [List.map_cons, run_cons]
      apply ih next fun l member => fits l (.tail _ member)
      rw [List.sum_cons] at enough
      omega

end

/-- Nothing was sealed or read. -/
def freshReading : Reading := ⟨emptyDisk, none, []⟩

theorem readUpTo_fresh : ReadUpTo freshReading [] 0 :=
  ⟨⟨intact_empty, by simp⟩, Nat.le_refl 0, rfl, rfl⟩

/-- What a reader has is a beginning of the log, it never loses any of it, and enough reads with any limits
    bring it to all of the log. -/
structure Enumerates (steps : List ReadStep) : Prop where
  received : ∃ packets, (readPackets (run readStep freshReading steps).disk).2 = .ok packets ∧
    (run readStep freshReading steps).received <+: packets
  grows : ∀ first rest, steps = first ++ rest →
    (run readStep freshReading first).received <+: (run readStep freshReading steps).received
  catchesUp : ∀ packets, (readPackets (run readStep freshReading steps).disk).2 = .ok packets →
    packets.length < 10 ^ 4300 → ∀ limits : List Nat, (∀ limit ∈ limits, 1 ≤ limit ∧ limit ≤ 16) →
      packets.length ≤ (run readStep freshReading steps).received.length + limits.sum →
        (run readStep (run readStep freshReading steps) (limits.map .read)).received = packets

theorem enumerates_of_spares {steps : List ReadStep} (allowed : Allowed readStep SparesReading freshReading steps) :
    Enumerates steps := by
  obtain ⟨packets, count, -, upTo⟩ := readUpTo_fresh.of_run allowed
  rw [List.nil_append] at upTo
  have listed := congrArg Prod.snd upTo.produced.1.readPackets_eq
  constructor
  · refine ⟨_, listed, ?_⟩
    rw [upTo.received]
    exact (List.take_prefix _ _).map _
  · rintro first rest rfl
    rw [allowed_append] at allowed
    obtain ⟨packets₀, count₀, -, before⟩ := readUpTo_fresh.of_run allowed.1
    rw [List.nil_append] at before
    obtain ⟨sealed, count', grown, after⟩ := before.of_run allowed.2
    have same : (packets₀ ++ sealed).take count₀ = packets₀.take count₀ := List.take_append_of_le_length before.inside
    rw [run_append, before.received, after.received, ← same]
    exact (List.take_prefix_take_left grown).map _
  · intro all read spelled limits fits enough
    rw [listed] at read
    cases read
    rw [List.length_map] at spelled enough
    rw [upTo.received, List.length_map, List.length_take, min_eq_left upTo.inside] at enough
    have whole := (upTo.catchUp spelled fits enough).received
    rw [whole, List.take_length]

/-- Two packets, the second of which is sealed behind a first read, and a read with a limit that is refused. -/
theorem enumerates_two : Enumerates
    [.sealSource (smallSource 1) none, .read 1, .sealSource (smallSource 2) none, .read 17, .read 16] := by
  have sealing (disk : AuditDisk) (n : Nat) : Spares disk ⟨.sealSource (smallSource n), none⟩ := by
    refine ⟨?_, ?_, ?_⟩
    · intro source same
      cases same
      exact keepsIdentity_small disk n
    · intro packet same
      cases same
    · intro k n' crash
      cases crash
  exact enumerates_of_spares ⟨sealing _ 1, trivial, sealing _ 2, trivial, trivial, trivial⟩

end Senex.T0Audit
