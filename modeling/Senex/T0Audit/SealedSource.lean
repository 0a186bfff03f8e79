import Senex.Foundation.Raises
import Senex.T0Audit.DecisionTime
import Senex.T0Audit.Replication

/-! # What sealing makes of a source

A source with a meaningful future value is refused and no other; every other one is sealed on its
decision-time part, which its packet's hash binds.  The future fields of a source leave no trace in
the log.
-/

namespace Senex.T0Audit

open Text

/-! ## Fields that the compaction keeps -/

theorem get?_put_of_ne {key k : Text} (other : k ≠ key) (value j : Json) : (put key value j).get? k = j.get? k := by
  cases j with
  | obj members => exact Json.lookup_insert_of_ne value other members
  | _ => rfl

theorem get?_put_self {j : Json} (object : j.isObject = true) (key : Text) (value : Json) :
    (put key value j).get? key = some value := by
  cases j with
  | obj members => exact Json.lookup_insert_self key value members
  | _ => cases object

theorem isObject_put (key : Text) (value j : Json) : (put key value j).isObject = j.isObject := by
  cases j <;> rfl

theorem isObject_without (dropped : List Text) (j : Json) : (j.without dropped).isObject = j.isObject := by
  cases j <;> rfl

def withProvenance (audit : Json) : Option Json → Json
  | some provenance => put (txt "provenance_v1") provenance audit
  | none => audit

/-- The audit of a payload that is compacted, with its whole pipeline. -/
def strippedAudit (provenance : Option Json) (audit : Json) : Json :=
  (withProvenance audit provenance).without [txt "decision_replay_v1", txt "external_markets_v1"]

/-- The audit that a compacted payload gets. -/
def compactedAudit (provenance : Option Json) (audit : Json) : Json :=
  let stripped := strippedAudit provenance audit
  if (stripped.get (txt "pipeline")).isObject then compactPipeline (stripped.get (txt "pipeline")) stripped
  else stripped

theorem compactPayload_cases {payload compact : Json} (made : compactPayload payload = .ok compact) :
    compact = payload ∨ ∃ audit provenance, payload.get? (txt "_audit") = some audit ∧ audit.isObject = true ∧
      compact = put (txt "_audit") (compactedAudit provenance audit) payload := by
  unfold compactPayload at made
  dsimp only at made
  split at made
  · cases made
    exact Or.inl rfl
  · rename_i usable
    obtain ⟨provenance, -, made⟩ := Py.bind_eq_ok.mp made
    cases made
    cases found : payload.get? (txt "_audit") with
    | none => simp [Json.get, found, Json.isObject] at usable
    | some audit =>
        have here : payload.get (txt "_audit") = audit := by rw [Json.get, found, Option.getD_some]
        rw [here] at usable ⊢
        refine Or.inr ⟨audit, provenance, rfl, ?_, rfl⟩
        cases object : audit.isObject with
        | true => rfl
        | false => simp [object] at usable

/-- The keys of an audit that the compaction does not touch. -/
def keptAuditKeys : List Text :=
  [txt "origin_price_v1", txt "confidence_semantics_v1", txt "execution_state", txt "canonical_ev_contract_v1"]

theorem get?_strippedAudit {key : Text} (kept : key ∈ txt "pipeline" :: keptAuditKeys) (provenance : Option Json)
    (audit : Json) : (strippedAudit provenance audit).get? key = audit.get? key := by
  have apart : ∀ k ∈ txt "pipeline" :: keptAuditKeys, k ≠ txt "provenance_v1" ∧
      [txt "decision_replay_v1", txt "external_markets_v1"].contains k = false := by decide
  obtain ⟨named, dropped⟩ := apart key kept
  rw [strippedAudit, Json.get?_without, dropped, if_neg Bool.false_ne_true]
  cases provenance with
  | none => rfl
  | some provenance => exact get?_put_of_ne named provenance audit

theorem get?_compactPipeline_of_ne {key : Text} (other : key ≠ txt "pipeline") (pipeline audit : Json) :
    (compactPipeline pipeline audit).get? key = audit.get? key := by
  unfold compactPipeline
  split
  · exact get?_put_of_ne other _ audit
  · rw [Json.get?_without, List.contains_cons, beq_eq_false_iff_ne.mpr other]
    rfl

theorem get?_compactedAudit {key : Text} (kept : key ∈ keptAuditKeys) (provenance : Option Json) (audit : Json) :
    (compactedAudit provenance audit).get? key = audit.get? key := by
  have apart : ∀ k ∈ keptAuditKeys, k ≠ txt "pipeline" := by decide
  unfold compactedAudit
  dsimp only
  split
  · rw [get?_compactPipeline_of_ne (apart key kept), get?_strippedAudit (.tail _ kept)]
  · exact get?_strippedAudit (.tail _ kept) provenance audit

/-- The place of the probability in an audit. -/
def upProbPath : List Text := [txt "pipeline", txt "step2_features", txt "up_prob"]

theorem field?_ofMembers_single (key : Text) (value : Json) (path : List Text) :
    (Json.ofMembers [(key, value)]).field? (key :: path) = value.field? path := by
  rw [Json.field?_cons, Json.get?_ofMembers]
  simp [Json.lookup]

/-- A pipeline keeps its probability and nothing else. -/
theorem field?_compactPipeline {pipeline audit : Json} (object : audit.isObject = true) :
    (compactPipeline pipeline audit).field? upProbPath =
      pipeline.field? [txt "step2_features", txt "up_prob"] := by
  have inner : (objectOrEmpty (pipeline.get (txt "step2_features"))).get? (txt "up_prob") =
      pipeline.field? [txt "step2_features", txt "up_prob"] := by
    rw [get?_objectOrEmpty, get?_get]
  unfold compactPipeline upProbPath
  cases found : (objectOrEmpty (pipeline.get (txt "step2_features"))).get? (txt "up_prob") with
  | none =>
      rw [← inner, found]
      dsimp only
      rw [Json.field?_cons, Json.get?_without]
      simp
  | some upProb =>
      rw [← inner, found]
      dsimp only
      rw [Json.field?_cons, get?_put_self object, Option.bind_some, field?_ofMembers_single,
        field?_ofMembers_single, Json.field?_nil]

theorem field?_compactedAudit {audit : Json} (object : audit.isObject = true) (provenance : Option Json) :
    (compactedAudit provenance audit).field? upProbPath = audit.field? upProbPath := by
  have stripped : (strippedAudit provenance audit).isObject = true := by
    rw [strippedAudit, isObject_without]
    cases provenance with
    | none => exact object
    | some provenance => exact (isObject_put _ _ _).trans object
  have same : (strippedAudit provenance audit).get? (txt "pipeline") = audit.get? (txt "pipeline") :=
    get?_strippedAudit (.head _) provenance audit
  unfold compactedAudit
  dsimp only
  split
  · have whole : audit.field? upProbPath =
        (audit.get? (txt "pipeline")).bind (Json.field? [txt "step2_features", txt "up_prob"]) := rfl
    rw [field?_compactPipeline stripped, whole, ← same, Json.get]
    cases found : (strippedAudit provenance audit).get? (txt "pipeline") <;> rfl
  · exact Json.field?_congr same _

/-- The fields that every packet of a source has as the source has them. -/
def boundPaths : List (List Text) :=
  topLevelAllowlist.map (fun key => [key]) ++ [txt "candle_ts"] :: (keptAuditKeys.map fun key => [txt "_audit", key]) ++
    [txt "_audit" :: upProbPath]

/-- The compaction keeps the bound fields. -/
theorem field?_compactPayload {payload compact : Json} (object : payload.isObject = true)
    (made : compactPayload payload = .ok compact) {path : List Text} (bound : path ∈ boundPaths) :
    compact.field? path = payload.field? path := by
  have outside {key : Text} (other : key ≠ txt "_audit") (audit : Json) :
      (put (txt "_audit") audit payload).field? [key] = payload.field? [key] :=
    Json.field?_congr (get?_put_of_ne other audit payload) []
  rcases compactPayload_cases made with rfl | ⟨audit, provenance, found, isObject, rfl⟩
  · rfl
  · simp only [boundPaths, List.mem_append, List.mem_map, List.mem_cons, List.not_mem_nil, or_false] at bound
    rcases bound with (⟨key, top, rfl⟩ | rfl | ⟨key, kept, rfl⟩) | rfl
    · have apart : ∀ k ∈ topLevelAllowlist, k ≠ txt "_audit" := by decide
      exact outside (apart key top) _
    · exact outside (by decide) _
    · rw [Json.field?_cons, get?_put_self object, Json.field?_cons, found]
      exact Json.field?_congr (get?_compactedAudit kept provenance audit) []
    · rw [Json.field?_cons, get?_put_self object, Json.field?_cons, found]
      exact field?_compactedAudit isObject provenance

/-! ## Refusal -/

/-- A packet of the decision-time part of the source exceeds the allowed bytes, compacted where it has to be. -/
def Oversized (source : Json) (packetSeq : Nat) : Prop :=
  ∃ payload packet size, sealedPayload (decisionTime source) packetSeq = .ok payload ∧
    packetFromPayload payload packetSeq = .ok packet ∧ packetSize packet = .ok size ∧ packetHardMaxBytes < size

/-- The exceptions of sealing a source that is not contaminated. -/
def SizeOrUnicode (source : Json) (packetSeq : Nat) (raised : Raised) : Prop :=
  raised.error = .unicodeEncodeError ∨ raised.error = .packetSizeError ∧ Oversized source packetSeq

section
variable {source : Json} {packetSeq : Nat}

theorem raisesOnly_canonicalBytes (value : Json) :
    Py.RaisesOnly (SizeOrUnicode source packetSeq) (canonicalBytes value) :=
  Py.raisesOnly_orRaise fun _ => Or.inl rfl

theorem raisesOnly_packetFromPayload (payload : Json) :
    Py.RaisesOnly (SizeOrUnicode source packetSeq) (packetFromPayload payload packetSeq) :=
  ((raisesOnly_canonicalBytes _).map _).bind fun _ _ => Py.raisesOnly_ok _

theorem raisesOnly_packetSize (packet : Json) :
    Py.RaisesOnly (SizeOrUnicode source packetSeq) (packetSize packet) :=
  (raisesOnly_canonicalBytes packet).map _

theorem raisesOnly_compactManifest (owner : Json) :
    Py.RaisesOnly (SizeOrUnicode source packetSeq) (compactManifest owner) := by
  unfold compactManifest
  split
  · exact (raisesOnly_canonicalBytes _).bind fun _ _ => Py.raisesOnly_ok _
  · exact Py.raisesOnly_ok owner

theorem raisesOnly_compactRuntimeProvenance (value : Json) :
    Py.RaisesOnly (SizeOrUnicode source packetSeq) (compactRuntimeProvenance value) := by
  apply (raisesOnly_compactManifest value).bind
  intro compact _
  dsimp only
  split
  · exact (raisesOnly_compactManifest _).bind fun _ _ => Py.raisesOnly_ok _
  · exact Py.raisesOnly_ok compact

theorem raisesOnly_extractProvenance (audit : Json) :
    Py.RaisesOnly (SizeOrUnicode source packetSeq) (extractProvenance audit) := by
  unfold extractProvenance
  dsimp only
  split
  · exact Py.raisesOnly_ok none
  · split
    · exact ((raisesOnly_compactRuntimeProvenance _).map _).bind fun _ _ => Py.raisesOnly_ok _
    · exact Py.raisesOnly_ok _

theorem raisesOnly_compactPayload (payload : Json) :
    Py.RaisesOnly (SizeOrUnicode source packetSeq) (compactPayload payload) := by
  unfold compactPayload
  dsimp only
  split
  · exact Py.raisesOnly_ok payload
  · exact (raisesOnly_extractProvenance _).bind fun _ _ => Py.raisesOnly_ok _

end

/-- Sealing the decision-time part of a source. -/
def sealDecision (payload : Json) (packetSeq : Nat) : Py Json := do
  guardNot (packetSeq == 0) .valueError (txt "packet_seq must be a positive integer")
  let packet ← packetFromPayload payload packetSeq
  let packet ← if packetTargetBytes < (← packetSize packet) then
      compactPayload payload >>= fun compact => packetFromPayload compact packetSeq
    else pure packet
  let size ← packetSize packet
  guardNot (decide (packetHardMaxBytes < size)) .packetSizeError
    (txt "sealed packet exceeds hard limit: " ++ ofNat size ++ txt ">8192")
  return packet

theorem buildSealedPacket_of_clean {source : Json} (object : source.isObject = true) (clean : ¬Contaminated source)
    (packetSeq : Nat) : buildSealedPacket source packetSeq = sealDecision (decisionTime source) packetSeq := by
  unfold buildSealedPacket sealDecision
  rw [projectDecisionTime_eq object clean]
  rfl

/-- The packet of a payload, in at most the allowed bytes. -/
def sealChosen (chosen : Json) (packetSeq : Nat) : Py Json := do
  let packet ← packetFromPayload chosen packetSeq
  let size ← packetSize packet
  guardNot (decide (packetHardMaxBytes < size)) .packetSizeError
    (txt "sealed packet exceeds hard limit: " ++ ofNat size ++ txt ">8192")
  return packet

/-- A payload that is not compacted is built and measured once more, with the same packet. -/
theorem sealDecision_eq (payload : Json) {packetSeq : Nat} (positive : 0 < packetSeq) :
    sealDecision payload packetSeq = sealedPayload payload packetSeq >>= fun chosen => sealChosen chosen packetSeq := by
  have numbered : (packetSeq == 0) = false := beq_eq_false_iff_ne.mpr (by omega)
  unfold sealDecision sealedPayload exceedsTarget
  rw [numbered, guardNot_false, Py.ok_bind]
  cases built : packetFromPayload payload packetSeq with
  | error raised => rfl
  | ok packet =>
      cases measured : packetSize packet with
      | error raised => simp only [Py.ok_bind, measured, Py.error_bind]
      | ok size =>
          by_cases large : packetTargetBytes < size
          · simp only [Py.ok_bind, measured, Py.pure_eq_ok, decide_true, if_true, bind_assoc, sealChosen, large]
          · simp only [Py.ok_bind, measured, Py.pure_eq_ok, if_neg large, decide_eq_false large, Bool.false_eq_true,
              if_false, sealChosen, built]

theorem raisesOnly_sealDecision {source : Json} {packetSeq : Nat} (positive : 0 < packetSeq) :
    Py.RaisesOnly (SizeOrUnicode source packetSeq) (sealDecision (decisionTime source) packetSeq) := by
  have chosen : Py.RaisesOnly (SizeOrUnicode source packetSeq) (sealedPayload (decisionTime source) packetSeq) := by
    have exceeds : Py.RaisesOnly (SizeOrUnicode source packetSeq) (exceedsTarget (decisionTime source) packetSeq) :=
      (raisesOnly_packetFromPayload _).bind fun packet _ => (raisesOnly_packetSize packet).bind fun _ _ =>
        Py.raisesOnly_ok _
    refine exceeds.bind fun large _ => ?_
    cases large with
    | true => exact raisesOnly_compactPayload _
    | false => exact Py.raisesOnly_ok _
  rw [sealDecision_eq _ positive]
  refine chosen.bind fun payload sealed => (raisesOnly_packetFromPayload payload).bind fun packet built =>
    (raisesOnly_packetSize packet).bind fun size measured => ?_
  refine (Py.raisesOnly_guardNot fun large => Or.inr ⟨rfl, ?_⟩).bind fun _ _ => Py.raisesOnly_ok packet
  exact ⟨payload, packet, size, sealed, built, measured, of_decide_eq_true large⟩

theorem sealDecision_of_oversized {source : Json} {packetSeq : Nat} (positive : 0 < packetSeq)
    (oversized : Oversized source packetSeq) :
    ∃ message, sealDecision (decisionTime source) packetSeq = raise .packetSizeError message := by
  obtain ⟨payload, packet, size, sealed, built, measured, large⟩ := oversized
  refine ⟨txt "sealed packet exceeds hard limit: " ++ ofNat size ++ txt ">8192", ?_⟩
  simp only [sealDecision_eq _ positive, sealed, Py.ok_bind, sealChosen, built, measured, decide_eq_true large,
    guardNot_true, Py.raise_bind]

theorem buildSealedPacket_of_contaminated {source : Json} (object : source.isObject = true) {packetSeq : Nat}
    (positive : 0 < packetSeq) (contaminated : Contaminated source) :
    ∃ message, buildSealedPacket source packetSeq = raise .outcomeContaminationError message := by
  have numbered : (packetSeq == 0) = false := beq_eq_false_iff_ne.mpr (by omega)
  have notObject : (!source.isObject) = false := by rw [object]; rfl
  obtain ⟨message, refused⟩ := refuseContamination_of_contaminated contaminated
  refine ⟨message, ?_⟩
  simp only [buildSealedPacket, numbered, guardNot_false, Py.ok_bind, projectDecisionTime, notObject, refused,
    Py.raise_bind]

/-- A source that sealing does not refuse for what it holds. -/
def isClean (source : Json.Document) : Bool := source.1.isObject && (findContamination [] source.1).isNone

/-- The decision-time parts of the sources that are not refused, in their order. -/
def decisions (sources : List Json.Document) : List Json :=
  (sources.filter isClean).map fun source => decisionTime source.1

theorem isClean_iff {source : Json.Document} :
    isClean source = true ↔ source.1.isObject = true ∧ ¬Contaminated source.1 := by
  rw [isClean, Bool.and_eq_true, Option.isNone_iff_eq_none, findContamination_eq_none_iff]

/-- `seal` with the packets that its source gets at each place. -/
def sealWith (build : Nat → Py Json) : SealerCall Json := do
  let candidate ← DiskCall.lift (build 1)
  let packetId := (candidate.get (txt "packet_id")).asText?.getD []
  let (scan, _) ← openLog
  match Json.lookup packetId scan.state.byId with
  | some existing => return existing
  | none => do
      appendTornTailMarker scan.ending
      let nextSeq := scan.state.maxSeq + 1
      let packet ← DiskCall.lift (build nextSeq)
      appendPacket packet nextSeq
      return packet

theorem sealSource_eq (source : Json) : sealSource source = sealWith (buildSealedPacket source) := rfl

/-- Sealing a decision-time part. -/
def sealDecisionStep (disk : AuditDisk) (payload : Json) : AuditDisk := (sealWith (sealDecision payload)).after disk

theorem sealStep_of_clean {source : Json.Document} (clean : isClean source = true) (disk : AuditDisk) :
    sealStep disk source = sealDecisionStep disk (decisionTime source.1) := by
  obtain ⟨object, plain⟩ := isClean_iff.mp clean
  rw [sealStep, sealSource_eq, funext (buildSealedPacket_of_clean object plain), sealDecisionStep]

theorem sealStep_of_refused {source : Json.Document} (refused : isClean source ≠ true) (disk : AuditDisk) :
    sealStep disk source = disk := by
  have unbuilt : ∃ raised, buildSealedPacket source.1 1 = .error raised := by
    cases object : source.1.isObject with
    | false =>
        refine ⟨⟨.typeError, txt "prediction source must be a dict"⟩, ?_⟩
        simp only [buildSealedPacket, projectDecisionTime, object]
        rfl
    | true =>
        have contaminated : Contaminated source.1 := by
          by_contra plain
          exact refused (isClean_iff.mpr ⟨object, plain⟩)
        obtain ⟨message, made⟩ := buildSealedPacket_of_contaminated object Nat.one_pos contaminated
        exact ⟨_, made⟩
  obtain ⟨raised, made⟩ := unbuilt
  rw [sealStep, DiskCall.after, sealSource, made, DiskCall.lift_raised_bind]
  rfl

theorem decisions_cons (source : Json.Document) (sources : List Json.Document) : decisions (source :: sources) =
    if isClean source then decisionTime source.1 :: decisions sources else decisions sources := by
  unfold decisions
  rw [List.filter_cons]
  split <;> rfl

theorem sealRun_eq (disk : AuditDisk) (sources : List Json.Document) :
    run sealStep disk sources = run sealDecisionStep disk (decisions sources) := by
  induction sources generalizing disk with
  | nil => rfl
  | cons source sources ih =>
      by_cases clean : isClean source = true
      · rw [run_cons, ih, decisions_cons, if_pos clean, run_cons, sealStep_of_clean clean]
      · rw [run_cons, ih, decisions_cons, if_neg clean, sealStep_of_refused clean]

/-- What the log holds after any calls depends on the decision-time parts of the sources that are not
    contaminated, and on nothing else of any source. -/
theorem log_depends_on_decisions {first second : List Json.Document} (same : decisions first = decisions second)
    (disk : AuditDisk) : run sealStep disk first = run sealStep disk second := by
  rw [sealRun_eq, sealRun_eq, same]

/-- A small source with members that are not the packet's: an empty outcome, and a note. -/
def annotatedSource (n : Nat) : Json.Document :=
  ⟨.ofMembers [(txt "ev", .ofNat n), (txt "outcome", .null), (txt "note", .str (txt "later"))],
    Json.wellFormed_ofMembers (by simp; trivial)⟩

/-- A source that tells its outcome. -/
def tellingSource : Json.Document :=
  ⟨.ofMembers [(txt "outcome", .str (txt "WIN"))], Json.wellFormed_ofMembers (by simp)⟩

theorem log_depends_on_decisions_annotated :
    run sealStep emptyDisk [annotatedSource 1, tellingSource, smallSource 2] =
      run sealStep emptyDisk [smallSource 1, annotatedSource 2] :=
  log_depends_on_decisions (by decide) emptyDisk

/-! ## What a hash binds -/

/-- No two messages that hash alike stand in these places. -/
def NoCollision (a b : Py Bytes) : Prop :=
  ∀ x y, a = .ok x → b = .ok y → Sha256.hexdigest x = Sha256.hexdigest y → x = y

/-- The fields that every packet has as its source has them agree. -/
structure BoundAgree (a b : Json) : Prop where
  fields : ∀ path ∈ boundPaths, path ≠ [txt "candle_ts"] →
    (scrubFutureFields a).field? path = (scrubFutureFields b).field? path
  candleTs : candleTsOf (scrubFutureFields a) = candleTsOf (scrubFutureFields b)

theorem canonicalBytes_injective {a b : Json} (ha : a.WellFormed) (hb : b.WellFormed) {x : Bytes}
    (first : canonicalBytes a = .ok x) (second : canonicalBytes b = .ok x) : a = b := by
  have here := Json.parseLine_bytes (d := ⟨a, ha⟩) (orRaise_eq_ok.mp first)
  rw [Json.parseLine_bytes (d := ⟨b, hb⟩) (orRaise_eq_ok.mp second)] at here
  exact (congrArg Subtype.val (Option.some.inj here)).symm

theorem wellFormed_identityEnvelope {payload : Json} (wellFormed : payload.WellFormed) :
    (identityEnvelope payload).WellFormed := by
  apply Json.wellFormed_ofMembers
  intro m inside
  simp only [List.mem_cons, List.not_mem_nil, or_false] at inside
  rcases inside with rfl | rfl
  · exact Json.wellFormed_str _
  · exact wellFormed

theorem identityEnvelope_injective {a b : Json} (same : identityEnvelope a = identityEnvelope b) : a = b := by
  have payload (j : Json) : (identityEnvelope j).get? (txt "payload") = some j := by
    rw [identityEnvelope, Json.get?_ofMembers]
    simp [Json.lookup]
  have here := payload a
  rw [same, payload b] at here
  exact (Option.some.inj here).symm

/-- One hash has one payload. -/
theorem payload_of_digest {p q : Payload} {digest : Text} (first : payloadDigest p.json = .ok digest)
    (second : payloadDigest q.json = .ok digest)
    (secure : NoCollision (canonicalBytes (identityEnvelope p.json)) (canonicalBytes (identityEnvelope q.json))) :
    p.json = q.json := by
  obtain ⟨x, coded, hashed⟩ := Py.map_eq_ok.mp first
  obtain ⟨y, coded', hashed'⟩ := Py.map_eq_ok.mp second
  obtain rfl := secure x y coded coded' (hashed.trans hashed'.symm)
  exact identityEnvelope_injective (canonicalBytes_injective (wellFormed_identityEnvelope p.wellFormed)
    (wellFormed_identityEnvelope q.wellFormed) coded coded')

theorem sealedPayload_cases {payload chosen : Json} {packetSeq : Nat}
    (made : sealedPayload payload packetSeq = .ok chosen) :
    (exceedsTarget payload packetSeq = .ok false ∧ chosen = payload) ∨
      (exceedsTarget payload packetSeq = .ok true ∧ compactPayload payload = .ok chosen) := by
  obtain ⟨exceeds, measured, made⟩ := Py.bind_eq_ok.mp made
  cases exceeds with
  | true => exact Or.inr ⟨measured, made⟩
  | false => exact Or.inl ⟨measured, (Except.ok.inj made).symm⟩

theorem Built.projected_eq {source : Json} {packetSeq : Nat} {packet : Json} (built : Built source packetSeq packet) :
    built.projected.json = decisionTime source := by
  have projection := built.projection
  obtain ⟨u, object, rest⟩ := Py.bind_eq_ok.mp projection
  obtain ⟨v, clean, -⟩ := Py.bind_eq_ok.mp rest
  have isObject : source.isObject = true := by simpa using guardNot_eq_ok.mp object
  have plain : ¬Contaminated source := by
    intro contaminated
    obtain ⟨message, refused⟩ := refuseContamination_of_contaminated contaminated
    rw [refused] at clean
    cases clean
  rw [projectDecisionTime_eq isObject plain] at projection
  exact (Except.ok.inj projection).symm

/-- The sealed payload has the bound fields of the decision-time part. -/
theorem Built.field?_payload {source : Json} {packetSeq : Nat} {packet : Json}
    (built : Built source packetSeq packet) {path : List Text} (bound : path ∈ boundPaths) :
    built.payload.json.field? path = (decisionTime source).field? path := by
  have chosen := built.chosen
  rw [built.projected_eq] at chosen
  rcases sealedPayload_cases chosen with ⟨-, same⟩ | ⟨-, compacted⟩
  · rw [same]
  · exact field?_compactPayload rfl compacted bound

theorem field?_decisionTime (source : Json) {path : List Text} (bound : path ∈ boundPaths)
    (other : path ≠ [txt "candle_ts"]) :
    (decisionTime source).field? path = (scrubFutureFields source).field? path := by
  simp only [boundPaths, List.mem_append, List.mem_map, List.mem_cons, List.not_mem_nil, or_false] at bound
  rw [decisionTime]
  rcases bound with (⟨key, top, rfl⟩ | rfl | ⟨key, kept, rfl⟩) | rfl
  · exact Json.field?_congr (get?_projected_top top) []
  · exact absurd rfl other
  · have allowed : ∀ k ∈ keptAuditKeys, k ∈ auditAllowlist := by decide
    exact field?_projected_of_audit (allowed key kept)
  · exact field?_projected_of_pipeline (by decide) _

end Senex.T0Audit
