import Senex.T0Audit.Packet

/-! # Payloads

What the projection on the decision time and the compaction leave of any source: a well-formed
object under the allowed keys, without a future field at any depth.  `Payload` carries this, and
`built_of_buildSealedPacket` says that every sealed packet is one with its identity.
-/

namespace Senex.T0Audit

open Text

/-! ## Documents without future fields -/

mutual
/-- No future key at any depth. -/
def NoFuture : Json → Prop
  | .obj members => NoFutureMembers members
  | .arr items => NoFutureItems items
  | _ => True

def NoFutureMembers : List (Text × Json) → Prop
  | [] => True
  | (key, child) :: members => isFutureKey key = false ∧ NoFuture child ∧ NoFutureMembers members

def NoFutureItems : List Json → Prop
  | [] => True
  | child :: items => NoFuture child ∧ NoFutureItems items
end

theorem noFutureMembers_iff (members : List (Text × Json)) :
    NoFutureMembers members ↔ ∀ m ∈ members, isFutureKey m.1 = false ∧ NoFuture m.2 := by
  induction members with
  | nil => simp [NoFutureMembers]
  | cons m members ih => simp [NoFutureMembers, ih, and_assoc]

mutual
theorem findContamination_eq_none (path : List Text) {j : Json} (clean : NoFuture j) :
    findContamination path j = none := by
  cases j with
  | obj members => exact findInMembers_eq_none path clean
  | arr items => exact findInItems_eq_none path 0 clean
  | _ => rfl

private theorem findInMembers_eq_none (path : List Text) {members : List (Text × Json)}
    (clean : NoFutureMembers members) : findInMembers path members = none := by
  cases members with
  | nil => rfl
  | cons m members =>
      obtain ⟨key, child⟩ := m
      obtain ⟨here, below, rest⟩ := clean
      simp only [findInMembers, here, Bool.false_and, Bool.false_eq_true, if_false,
        findContamination_eq_none _ below, findInMembers_eq_none path rest, Option.or_self]

private theorem findInItems_eq_none (path : List Text) (idx : Nat) {items : List Json}
    (clean : NoFutureItems items) : findInItems path idx items = none := by
  cases items with
  | nil => rfl
  | cons child items =>
      obtain ⟨below, rest⟩ := clean
      simp only [findInItems, findContamination_eq_none _ below, findInItems_eq_none path (idx + 1) rest,
        Option.or_self]
end

mutual
theorem noFuture_scrub (j : Json) : NoFuture (scrubFutureFields j) := by
  cases j with
  | obj members => exact noFuture_scrubMembers members
  | arr items => exact noFuture_scrubItems items
  | _ => trivial

private theorem noFuture_scrubMembers (members : List (Text × Json)) :
    NoFutureMembers (scrubMembers members) := by
  cases members with
  | nil => trivial
  | cons m members =>
      obtain ⟨key, child⟩ := m
      simp only [scrubMembers]
      split
      · exact noFuture_scrubMembers members
      · rename_i other
        exact ⟨by simpa using other, noFuture_scrub child, noFuture_scrubMembers members⟩

private theorem noFuture_scrubItems (items : List Json) : NoFutureItems (scrubItems items) := by
  cases items with
  | nil => trivial
  | cons child items => exact ⟨noFuture_scrub child, noFuture_scrubItems items⟩
end

/-! ## What scrubbing keeps -/

theorem keys_scrubMembers (members : List (Text × Json)) :
    (scrubMembers members).map Prod.fst = (members.map Prod.fst).filter fun key => !isFutureKey key := by
  induction members with
  | nil => rfl
  | cons m members ih =>
      obtain ⟨key, child⟩ := m
      by_cases future : isFutureKey key <;> simp [scrubMembers, future, ih]

mutual
theorem wellFormed_scrub {j : Json} (wellFormed : j.WellFormed) : (scrubFutureFields j).WellFormed := by
  cases j with
  | obj members =>
      obtain ⟨sorted, below⟩ := wellFormed
      refine ⟨?_, wellFormed_scrubMembers below⟩
      have keys := (List.pairwise_map.mpr sorted).filter fun key => !isFutureKey key
      rw [← keys_scrubMembers] at keys
      exact List.pairwise_map.mp keys
  | arr items => exact wellFormed_scrubItems wellFormed
  | _ => exact wellFormed

private theorem wellFormed_scrubMembers {members : List (Text × Json)}
    (wellFormed : Json.WellFormedMembers members) : Json.WellFormedMembers (scrubMembers members) := by
  cases members with
  | nil => trivial
  | cons m members =>
      obtain ⟨key, child⟩ := m
      obtain ⟨below, rest⟩ := wellFormed
      simp only [scrubMembers]
      split
      · exact wellFormed_scrubMembers rest
      · exact ⟨wellFormed_scrub below, wellFormed_scrubMembers rest⟩

private theorem wellFormed_scrubItems {items : List Json} (wellFormed : Json.WellFormedItems items) :
    Json.WellFormedItems (scrubItems items) := by
  cases items with
  | nil => trivial
  | cons child items => exact ⟨wellFormed_scrub wellFormed.1, wellFormed_scrubItems wellFormed.2⟩
end

/-! ## Hereditary properties -/

/-- A property of documents that every step of the compaction keeps. -/
structure Hereditary (P : Json → Prop) : Prop where
  str : ∀ s, P (.str s)
  ofNat : ∀ n, P (.ofNat n)
  get : ∀ {j} key, P j → P (j.get key)
  ofMembers : ∀ {members}, (∀ m ∈ members, isFutureKey m.1 = false ∧ P m.2) → P (.ofMembers members)
  put : ∀ {j} {key} {value}, isFutureKey key = false → P value → P j → P (put key value j)
  without : ∀ {j} dropped, P j → P (j.without dropped)

theorem hereditary_noFuture : Hereditary NoFuture where
  str _ := trivial
  ofNat _ := trivial
  get := by
    intro j key clean
    cases found : j.get? key with
    | none =>
        rw [Json.get, found]
        trivial
    | some value =>
        rw [Json.get, found, Option.getD_some]
        cases j with
        | obj members =>
            have sound := (noFutureMembers_iff members).mp clean
            induction members with
            | nil => cases found
            | cons m members ih =>
                rw [Json.get?, Json.lookup] at found
                split at found
                · cases found
                  exact (sound m (by simp)).2
                · exact ih clean.2.2 found fun n hn => sound n (List.mem_cons_of_mem _ hn)
        | _ => cases found
  ofMembers := by
    intro members clean
    have build (members front : List (Text × Json))
        (built : ∀ m ∈ front, isFutureKey m.1 = false ∧ NoFuture m.2)
        (todo : ∀ m ∈ members, isFutureKey m.1 = false ∧ NoFuture m.2) :
        NoFutureMembers (members.foldl (fun acc m => Json.insert m.1 m.2 acc) front) := by
      induction members generalizing front with
      | nil => exact (noFutureMembers_iff front).mpr built
      | cons m members ih =>
          apply ih
          · intro x hx
            rcases Json.mem_insert hx with rfl | hx
            · exact todo m (by simp)
            · exact built x hx
          · exact fun x hx => todo x (List.mem_cons_of_mem _ hx)
    exact build members [] (by simp) clean
  put := by
    intro j key value other clean whole
    cases j with
    | obj members =>
        apply (noFutureMembers_iff _).mpr
        intro m hm
        rcases Json.mem_insert hm with rfl | hm
        · exact ⟨other, clean⟩
        · exact (noFutureMembers_iff _).mp whole m hm
    | _ => exact whole
  without := by
    intro j dropped clean
    cases j with
    | obj members =>
        exact (noFutureMembers_iff _).mpr fun m hm =>
          (noFutureMembers_iff _).mp clean m (List.mem_filter.mp hm).1
    | _ => exact clean

theorem hereditary_wellFormed : Hereditary Json.WellFormed where
  str := Json.wellFormed_str
  ofNat := Json.wellFormed_ofNat
  get key wellFormed := Json.wellFormed_get? wellFormed key
  ofMembers wellFormed := Json.wellFormed_ofMembers fun m hm => (wellFormed m hm).2
  put := by
    intro j key value _ wellFormed whole
    cases j with
    | obj members =>
        refine ⟨Json.sorted_insert _ _ whole.1, (Json.wellFormedMembers_iff _).mpr ?_⟩
        intro m hm
        rcases Json.mem_insert hm with rfl | hm
        · exact wellFormed
        · exact (Json.wellFormedMembers_iff _).mp whole.2 m hm
    | _ => exact whole
  without dropped wellFormed := Json.wellFormed_without dropped wellFormed

namespace Hereditary

variable {P : Json → Prop} (hereditary : Hereditary P)
include hereditary

theorem empty : P (.obj []) := @hereditary.ofMembers [] (by simp)

theorem objectOrEmpty {j : Json} (holds : P j) : P (objectOrEmpty j) := by
  unfold T0Audit.objectOrEmpty
  split
  · exact holds
  · exact hereditary.empty

theorem pick {allowed : List Text} (plain : ∀ key ∈ allowed, isFutureKey key = false) {j : Json}
    (holds : P j) : ∀ m ∈ pick allowed j, isFutureKey m.1 = false ∧ P m.2 := by
  intro m hm
  obtain ⟨key, allowed, found⟩ := List.mem_filterMap.mp hm
  obtain ⟨value, same, rfl⟩ := Option.map_eq_some_iff.mp found
  have member := hereditary.get key holds
  rw [Json.get, same, Option.getD_some] at member
  exact ⟨plain key allowed, member⟩

theorem compactManifest {owner compact : Json} (holds : P owner)
    (made : compactManifest owner = .ok compact) : P compact := by
  unfold T0Audit.compactManifest at made
  split at made
  · obtain ⟨coded, -, made⟩ := Py.bind_eq_ok.mp made
    cases made
    apply hereditary.without
    apply hereditary.put (by decide) _ holds
    apply hereditary.ofMembers
    intro m hm
    simp only [List.mem_cons, List.not_mem_nil, or_false] at hm
    rcases hm with rfl | rfl
    · exact ⟨show isFutureKey (txt "count") = false by decide, hereditary.ofNat _⟩
    · exact ⟨show isFutureKey (txt "sha256") = false by decide, hereditary.str _⟩
  · cases made
    exact holds

theorem compactRuntimeProvenance {value compact : Json} (holds : P value)
    (made : compactRuntimeProvenance value = .ok compact) : P compact := by
  obtain ⟨outer, first, made⟩ := Py.bind_eq_ok.mp made
  have outer_ := hereditary.compactManifest holds first
  dsimp only at made
  split at made
  · obtain ⟨identity, second, made⟩ := Py.bind_eq_ok.mp made
    cases made
    exact hereditary.put (by decide)
      (hereditary.compactManifest (hereditary.get _ outer_) second) outer_
  · cases made
    exact outer_

theorem extractProvenance {audit provenance : Json} (holds : P audit)
    (made : extractProvenance audit = .ok (some provenance)) : P provenance := by
  unfold T0Audit.extractProvenance at made
  have plain : ∀ key ∈ provenanceKeys, isFutureKey key = false := by decide
  have out := hereditary.ofMembers (hereditary.pick plain (hereditary.get (txt "decision_replay_v1") holds))
  dsimp only at made
  split at made
  · cases made
  · split at made
    · obtain ⟨out', second, made⟩ := Py.bind_eq_ok.mp made
      obtain ⟨compact, third, rfl⟩ := Py.map_eq_ok.mp second
      split at made
      · cases made
      · cases made
        exact hereditary.put (by decide)
          (hereditary.compactRuntimeProvenance (hereditary.get _ out) third) out
    · rw [pure_bind] at made
      split at made
      · cases made
      · cases made
        exact out

theorem compactPipeline {pipeline audit : Json} (holds : P pipeline) (whole : P audit) :
    P (compactPipeline pipeline audit) := by
  unfold T0Audit.compactPipeline
  split
  · rename_i upProb found
    have member := hereditary.get (txt "up_prob") 
      (hereditary.objectOrEmpty (hereditary.get (txt "step2_features") holds))
    rw [Json.get, found, Option.getD_some] at member
    apply hereditary.put (by decide) _ whole
    apply hereditary.ofMembers
    intro m hm
    rw [List.mem_singleton.mp hm]
    refine ⟨show isFutureKey (txt "step2_features") = false by decide, hereditary.ofMembers ?_⟩
    intro n hn
    rw [List.mem_singleton.mp hn]
    exact ⟨show isFutureKey (txt "up_prob") = false by decide, member⟩
  · exact hereditary.without _ whole

theorem compactPayload {payload compact : Json} (holds : P payload)
    (made : compactPayload payload = .ok compact) :
    compact = payload ∨ ∃ audit, P audit ∧ compact = T0Audit.put (txt "_audit") audit payload := by
  unfold T0Audit.compactPayload at made
  have audit := hereditary.get (txt "_audit") holds
  dsimp only at made
  split at made
  · cases made
    exact Or.inl rfl
  · obtain ⟨provenance, extracted, made⟩ := Py.bind_eq_ok.mp made
    cases made
    refine Or.inr ⟨_, ?_, rfl⟩
    have compacted {audit : Json} (holds : P audit) :
        P (if (audit.get (txt "pipeline")).isObject then
          T0Audit.compactPipeline (audit.get (txt "pipeline")) audit else audit) := by
      split
      · exact hereditary.compactPipeline (hereditary.get _ holds) holds
      · exact holds
    apply compacted
    apply hereditary.without
    cases provenance with
    | none => exact audit
    | some provenance =>
        exact hereditary.put (by decide) (hereditary.extractProvenance audit extracted) audit

end Hereditary

/-! ## Payloads -/

/-- The keys that a payload may have. -/
def payloadKeys : List Text := topLevelAllowlist ++ [txt "candle_ts", txt "_audit"]

structure Payload where
  json : Json
  object : json.isObject = true
  wellFormed : json.WellFormed
  clean : NoFuture json
  keys : ∀ key ∈ json.keys, key ∈ payloadKeys

theorem mem_keys_ofMembers {members : List (Text × Json)} {key : Text}
    (member : key ∈ (Json.ofMembers members).keys) : key ∈ members.map Prod.fst := by
  have build (members front : List (Text × Json)) {m : Text × Json}
      (hm : m ∈ members.foldl (fun acc m => Json.insert m.1 m.2 acc) front) : m ∈ front ∨ m ∈ members := by
    induction members generalizing front with
    | nil => exact Or.inl hm
    | cons n members ih =>
        rcases ih _ hm with h | h
        · rcases Json.mem_insert h with rfl | h
          · exact Or.inr (by simp)
          · exact Or.inl h
        · exact Or.inr (List.mem_cons_of_mem _ h)
  obtain ⟨m, hm, rfl⟩ := List.mem_map.mp member
  rcases build members [] hm with h | h
  · cases h
  · exact List.mem_map_of_mem h

theorem keys_pick {allowed : List Text} {source : Json} {key : Text}
    (member : key ∈ (pick allowed source).map Prod.fst) : key ∈ allowed := by
  obtain ⟨m, hm, rfl⟩ := List.mem_map.mp member
  obtain ⟨key, allowed, found⟩ := List.mem_filterMap.mp hm
  obtain ⟨value, -, rfl⟩ := Option.map_eq_some_iff.mp found
  exact allowed

private theorem eq_of_mem_unless {α : Type} {c : Prop} [Decidable c] {a b : α}
    (member : a ∈ if c then [] else [b]) : a = b := by
  split at member
  · cases member
  · exact List.mem_singleton.mp member

theorem wellFormed_projected {source : Json} (wellFormed : source.WellFormed) :
    ∀ m ∈ projectedMembers source, m.2.WellFormed := by
  have picked {allowed : List Text} {j : Json} (sound : j.WellFormed) : ∀ m ∈ pick allowed j, m.2.WellFormed := by
    intro m hm
    obtain ⟨key, -, found⟩ := List.mem_filterMap.mp hm
    obtain ⟨value, same, rfl⟩ := Option.map_eq_some_iff.mp found
    have member := Json.wellFormed_get? sound key
    rw [same] at member
    exact member
  have auditSource := hereditary_wellFormed.objectOrEmpty
    (hereditary_wellFormed.get (txt "_audit") wellFormed)
  have pipelineSource := hereditary_wellFormed.objectOrEmpty
    (hereditary_wellFormed.get (txt "pipeline") auditSource)
  intro m hm
  rcases List.mem_append.mp hm with hm | hm
  · rcases List.mem_append.mp hm with hm | hm
    · exact picked wellFormed m hm
    · rw [eq_of_mem_unless hm]
      dsimp only
      split
      · exact hereditary_wellFormed.get _ auditSource
      · exact hereditary_wellFormed.get _ wellFormed
  · rw [eq_of_mem_unless hm]
    apply Json.wellFormed_ofMembers
    intro n hn
    rcases List.mem_append.mp hn with hn | hn
    · exact picked auditSource n hn
    · rw [eq_of_mem_unless hn]
      exact Json.wellFormed_ofMembers (picked pipelineSource)

theorem exists_payload_of_project {source payload : Json} (wellFormed : source.WellFormed)
    (projected : projectDecisionTime source = .ok payload) : ∃ p : Payload, p.json = payload := by
  obtain ⟨-, -, projected⟩ := Py.bind_eq_ok.mp projected
  obtain ⟨-, -, projected⟩ := Py.bind_eq_ok.mp projected
  cases projected
  refine ⟨⟨_, rfl, wellFormed_scrub (Json.wellFormed_ofMembers (wellFormed_projected wellFormed)),
    noFuture_scrub _, ?_⟩, rfl⟩
  intro key member
  have kept : key ∈ (Json.ofMembers (projectedMembers source)).keys := by
    have scrubbed := keys_scrubMembers
      ((projectedMembers source).foldl (fun acc m => Json.insert m.1 m.2 acc) [])
    have here : key ∈ (scrubMembers
      ((projectedMembers source).foldl (fun acc m => Json.insert m.1 m.2 acc) [])).map Prod.fst := member
    rw [scrubbed] at here
    exact (List.mem_filter.mp here).1
  have given := mem_keys_ofMembers kept
  obtain ⟨m, hm, rfl⟩ := List.mem_map.mp given
  rcases List.mem_append.mp hm with hm | hm
  · rcases List.mem_append.mp hm with hm | hm
    · exact List.mem_append_left _ (keys_pick (List.mem_map_of_mem hm))
    · rw [eq_of_mem_unless hm]
      exact List.mem_append_right _ (by simp)
  · rw [eq_of_mem_unless hm]
    exact List.mem_append_right _ (by simp)

theorem exists_payload_of_compact {p : Payload} {compact : Json}
    (made : compactPayload p.json = .ok compact) : ∃ q : Payload, q.json = compact := by
  rcases hereditary_wellFormed.compactPayload p.wellFormed made with rfl | ⟨audit, wellFormed, rfl⟩
  · exact ⟨p, rfl⟩
  · rcases hereditary_noFuture.compactPayload p.clean made with same | ⟨audit', clean, same⟩
    · exact ⟨p, same.symm⟩
    · have object := p.object
      cases whole : p.json with
      | obj members =>
          have known : ∀ key ∈ (put (txt "_audit") audit' p.json).keys, key ∈ payloadKeys := by
            rw [whole]
            intro key member
            obtain ⟨m, hm, rfl⟩ := List.mem_map.mp member
            rcases Json.mem_insert hm with rfl | hm
            · exact List.mem_append_right _ (by simp)
            · apply p.keys
              rw [whole]
              exact List.mem_map_of_mem hm
          rw [whole] at same known
          refine ⟨⟨put (txt "_audit") audit' (.obj members), rfl, ?_, ?_, known⟩, same.symm⟩
          · rw [← same, ← whole]
            exact hereditary_wellFormed.put (by decide) wellFormed p.wellFormed
          · rw [← whole]
            exact hereditary_noFuture.put (by decide) clean p.clean
      | _ => simp [whole, Json.isObject] at object

/-! ## Packets -/

namespace Payload

variable (p : Payload) (digest : Text) (packetSeq : Nat)

/-- The metadata in front of a payload. -/
def metadata : List (Text × Json) :=
  [(txt "schema_version", .str schemaVersion), (txt "packet_seq", .ofNat packetSeq),
    (txt "packet_id", .str (packetIdOf digest)), (txt "packet_hash", .str digest)]

theorem packetWith_eq : packetWith digest p.json packetSeq =
    .ofMembers (metadata digest packetSeq ++ membersOf p.json) := rfl

theorem membersOf_keys (j : Json) : (membersOf j).map Prod.fst = j.keys := by
  cases j <;> rfl

theorem key_of_mem {m : Text × Json} (member : m ∈ membersOf p.json) : m.1 ∈ payloadKeys := by
  apply p.keys
  rw [← membersOf_keys]
  exact List.mem_map_of_mem member

theorem sorted_members : Json.Sorted (membersOf p.json) := by
  have wellFormed := p.wellFormed
  cases whole : p.json with
  | obj members =>
      rw [whole] at wellFormed
      exact wellFormed.1
  | _ => exact List.Pairwise.nil

theorem ofMembers_membersOf : Json.ofMembers (membersOf p.json) = p.json := by
  have sorted := p.sorted_members
  have object := p.object
  cases whole : p.json with
  | obj members =>
      rw [whole] at sorted
      exact congrArg Json.obj (Json.foldl_insert_sorted [] members sorted)
  | _ => simp [whole, Json.isObject] at object

/-- A packet without its metadata is its payload. -/
theorem without_metadata : (packetWith digest p.json packetSeq).without metadataKeys = p.json := by
  have front : (metadata digest packetSeq).filter (fun m => !metadataKeys.contains m.1) = [] := by
    apply List.filter_eq_nil_iff.mpr
    intro m hm
    simp only [metadata, List.mem_cons, List.not_mem_nil, or_false] at hm
    rcases hm with rfl | rfl | rfl | rfl <;> simp [metadataKeys]
  have back : (membersOf p.json).filter (fun m => !metadataKeys.contains m.1) = membersOf p.json := by
    apply List.filter_eq_self.mpr
    intro m hm
    have apart : ∀ key ∈ payloadKeys, (!metadataKeys.contains key) = true := by decide
    exact apart _ (p.key_of_mem hm)
  rw [packetWith_eq, Json.without_ofMembers, List.filter_append, front, back, List.nil_append,
    ofMembers_membersOf]

private theorem lookup_append {α : Type} {key : Text} {front back : List (Text × α)}
    (absent : ∀ m ∈ front, m.1 ≠ key) : Json.lookup key (front ++ back) = Json.lookup key back := by
  induction front with
  | nil => rfl
  | cons m front ih =>
      obtain ⟨k, v⟩ := m
      have other : key ≠ k := (absent (k, v) (by simp)).symm
      rw [List.cons_append, Json.lookup, if_neg other, ih fun n hn => absent n (List.mem_cons_of_mem _ hn)]

theorem get_metadata {key : Text} (known : key ∈ metadataKeys) :
    (packetWith digest p.json packetSeq).get key =
      (Json.lookup key (metadata digest packetSeq).reverse).getD .null := by
  rw [packetWith_eq, Json.get, Json.get?_ofMembers, List.reverse_append, lookup_append]
  intro m hm same
  have apart : ∀ key ∈ payloadKeys, key ∉ metadataKeys := by decide
  apply apart m.1 (p.key_of_mem (List.mem_reverse.mp hm))
  rw [same]
  exact known

@[simp] theorem get_schema : (packetWith digest p.json packetSeq).get (txt "schema_version") =
    .str schemaVersion := by
  rw [get_metadata _ _ _ (by simp [metadataKeys])]
  simp [metadata, Json.lookup]

@[simp] theorem get_seq : (packetWith digest p.json packetSeq).get (txt "packet_seq") =
    .ofNat packetSeq := by
  rw [get_metadata _ _ _ (by simp [metadataKeys])]
  simp [metadata, Json.lookup]

@[simp] theorem get_id : (packetWith digest p.json packetSeq).get (txt "packet_id") =
    .str (packetIdOf digest) := by
  rw [get_metadata _ _ _ (by simp [metadataKeys])]
  simp [metadata, Json.lookup]

@[simp] theorem get_hash : (packetWith digest p.json packetSeq).get (txt "packet_hash") =
    .str digest := by
  rw [get_metadata _ _ _ (by simp [metadataKeys])]
  simp [metadata, Json.lookup]

theorem packet_keys {key : Text} (member : key ∈ (packetWith digest p.json packetSeq).keys) :
    key ∈ metadataKeys ++ payloadKeys := by
  have given := mem_keys_ofMembers member
  rw [List.map_append, List.mem_append] at given
  rcases given with h | h
  · exact List.mem_append_left payloadKeys (by simpa [metadataKeys] using h)
  · obtain ⟨m, hm, rfl⟩ := List.mem_map.mp h
    exact List.mem_append_right _ (p.key_of_mem hm)

theorem packet_no_marker : (packetWith digest p.json packetSeq).keys.contains recoveryMarkerKey = false := by
  have apart : recoveryMarkerKey ∉ metadataKeys ++ payloadKeys := by decide
  cases found : (packetWith digest p.json packetSeq).keys.contains recoveryMarkerKey with
  | false => rfl
  | true => exact absurd (p.packet_keys _ _ (List.contains_iff_mem.mp found)) apart

private theorem packet_members {P : Json → Prop} (hereditary : Hereditary P)
    (members : ∀ m ∈ membersOf p.json, isFutureKey m.1 = false ∧ P m.2) :
    P (packetWith digest p.json packetSeq) := by
  apply hereditary.ofMembers
  intro m hm
  rcases List.mem_append.mp hm with hm | hm
  · simp only [List.mem_cons, List.not_mem_nil, or_false] at hm
    rcases hm with rfl | rfl | rfl | rfl
    · exact ⟨show isFutureKey (txt "schema_version") = false by decide, hereditary.str _⟩
    · exact ⟨show isFutureKey (txt "packet_seq") = false by decide, hereditary.ofNat _⟩
    · exact ⟨show isFutureKey (txt "packet_id") = false by decide, hereditary.str _⟩
    · exact ⟨show isFutureKey (txt "packet_hash") = false by decide, hereditary.str _⟩
  · exact members m hm

theorem packet_noFuture : NoFuture (packetWith digest p.json packetSeq) := by
  apply p.packet_members digest packetSeq hereditary_noFuture
  have clean := p.clean
  cases whole : p.json with
  | obj members =>
      rw [whole] at clean
      exact (noFutureMembers_iff members).mp clean
  | _ => simp [membersOf]

theorem packet_wellFormed : (packetWith digest p.json packetSeq).WellFormed := by
  apply p.packet_members digest packetSeq hereditary_wellFormed
  intro m hm
  have plain : ∀ key ∈ payloadKeys, isFutureKey key = false := by decide
  refine ⟨plain _ (p.key_of_mem hm), ?_⟩
  have wellFormed := p.wellFormed
  cases whole : p.json with
  | obj members =>
      rw [whole] at wellFormed hm
      exact (Json.wellFormedMembers_iff members).mp wellFormed.2 m hm
  | _ =>
      rw [whole] at hm
      cases hm

end Payload

/-! ## Building -/

/-- Whether a packet is beyond the size at which its payload is compacted. -/
def exceedsTarget (payload : Json) (packetSeq : Nat) : Py Bool := do
  let packet ← packetFromPayload payload packetSeq
  return decide (packetTargetBytes < (← packetSize packet))

/-- The payload that the packet with this number gets. -/
def sealedPayload (payload : Json) (packetSeq : Nat) : Py Json := do
  if ← exceedsTarget payload packetSeq then compactPayload payload else return payload

/-- A packet is the sealed payload of its source, with its identity, in at most the allowed bytes. -/
structure Built (source : Json) (packetSeq : Nat) (packet : Json) where
  made : buildSealedPacket source packetSeq = .ok packet
  projected : Payload
  payload : Payload
  digest : Text
  size : Nat
  projection : projectDecisionTime source = .ok projected.json
  chosen : sealedPayload projected.json packetSeq = .ok payload.json
  hash : payloadDigest payload.json = .ok digest
  packet_eq : packet = packetWith digest payload.json packetSeq
  measured : packetSize packet = .ok size
  fits : size ≤ packetHardMaxBytes
  positive : 0 < packetSeq

theorem built_of_buildSealedPacket {source : Json.Document} {packetSeq : Nat} {packet : Json}
    (made : buildSealedPacket source.1 packetSeq = .ok packet) : Nonempty (Built source.1 packetSeq packet) := by
  have whole := made
  obtain ⟨u, nonzero, made⟩ := Py.bind_eq_ok.mp made
  obtain ⟨payload, projected, made⟩ := Py.bind_eq_ok.mp made
  obtain ⟨first, built, made⟩ := Py.bind_eq_ok.mp made
  obtain ⟨size, measured, made⟩ := Py.bind_eq_ok.mp made
  obtain ⟨p, rfl⟩ := exists_payload_of_project source.2 projected
  have positive : 0 < packetSeq := by
    have nonzero := guardNot_eq_ok.mp nonzero
    simp only [beq_eq_false_iff_ne, ne_eq] at nonzero
    omega
  have exceeds : exceedsTarget p.json packetSeq = .ok (decide (packetTargetBytes < size)) := by
    simp only [exceedsTarget, built, Py.ok_bind, measured, Py.pure_eq_ok]
  -- the packet that is measured in the end is the one of the sealed payload
  have finish {chosen : Json} (sealed : sealedPayload p.json packetSeq = .ok chosen)
      (is_payload : ∃ q : Payload, q.json = chosen)
      (rest : (packetFromPayload chosen packetSeq >>= fun packet => packetSize packet >>= fun size =>
        guardNot (decide (packetHardMaxBytes < size)) .packetSizeError
          (txt "sealed packet exceeds hard limit: " ++ ofNat size ++ txt ">8192") >>= fun _ =>
            pure packet) = .ok packet) : Nonempty (Built source.1 packetSeq packet) := by
    obtain ⟨q, rfl⟩ := is_payload
    obtain ⟨whole, made, rest⟩ := Py.bind_eq_ok.mp rest
    obtain ⟨bytes, measured, rest⟩ := Py.bind_eq_ok.mp rest
    obtain ⟨u, fits, rest⟩ := Py.bind_eq_ok.mp rest
    cases rest
    obtain ⟨digest, hash, made⟩ := Py.bind_eq_ok.mp made
    cases made
    have fits := guardNot_eq_ok.mp fits
    exact ⟨whole, p, q, digest, bytes, projected, sealed, hash, rfl, measured, by simpa using fits, positive⟩
  by_cases large : packetTargetBytes < size
  · rw [if_pos large] at made
    rw [bind_assoc] at made
    obtain ⟨compact, compacted, made⟩ := Py.bind_eq_ok.mp made
    apply finish _ (exists_payload_of_compact compacted) made
    simp only [sealedPayload, exceeds, Py.ok_bind, large, decide_true, if_true, compacted]
  · rw [if_neg large] at made
    apply finish _ ⟨p, rfl⟩ _
    · simp only [sealedPayload, exceeds, Py.ok_bind, large, decide_false, Bool.false_eq_true, if_false,
        Py.pure_eq_ok]
    · rw [built, Py.ok_bind]
      exact made

theorem buildSealedPacket_of_small {source payload packet : Json} {packetSeq size : Nat}
    (positive : packetSeq ≠ 0) (projected : projectDecisionTime source = .ok payload)
    (built : packetFromPayload payload packetSeq = .ok packet) (measured : packetSize packet = .ok size)
    (small : size ≤ packetTargetBytes) : buildSealedPacket source packetSeq = .ok packet := by
  have numbered : (packetSeq == 0) = false := by simpa using positive
  have fits : ¬packetHardMaxBytes < size := by
    simp only [packetTargetBytes, packetHardMaxBytes] at small ⊢
    omega
  simp only [buildSealedPacket, numbered, guardNot_false, Py.ok_bind, projected, built, measured,
    if_neg (not_lt.mpr small), decide_eq_false fits, Py.pure_eq_ok]

theorem buildSealedPacket_of_large {source payload compact whole packet : Json} {packetSeq size size' : Nat}
    (positive : packetSeq ≠ 0) (projected : projectDecisionTime source = .ok payload)
    (built : packetFromPayload payload packetSeq = .ok whole) (measured : packetSize whole = .ok size)
    (large : packetTargetBytes < size) (compacted : compactPayload payload = .ok compact)
    (again : packetFromPayload compact packetSeq = .ok packet) (measured' : packetSize packet = .ok size')
    (fits : size' ≤ packetHardMaxBytes) : buildSealedPacket source packetSeq = .ok packet := by
  have numbered : (packetSeq == 0) = false := by simpa using positive
  simp only [buildSealedPacket, numbered, guardNot_false, Py.ok_bind, projected, built, measured,
    if_pos large, compacted, again, measured', decide_eq_false (not_lt.mpr fits), Py.pure_eq_ok]

/-- The source keeps its payload at this number: the size of the number does not decide whether it
    is compacted, or the compaction changes nothing. -/
def Stable (source : Json) (packetSeq : Nat) : Prop :=
  ∀ payload, projectDecisionTime source = .ok payload →
    exceedsTarget payload packetSeq = exceedsTarget payload 1 ∨ compactPayload payload = .ok payload

theorem sealedPayload_eq_self {payload chosen : Json} (same : compactPayload payload = .ok payload)
    {packetSeq : Nat} (made : sealedPayload payload packetSeq = .ok chosen) : chosen = payload := by
  obtain ⟨exceeds, -, made⟩ := Py.bind_eq_ok.mp made
  cases exceeds with
  | true =>
      rw [if_pos rfl, same] at made
      exact (Except.ok.inj made).symm
  | false => exact (Except.ok.inj made).symm

/-- The identity of a stable source does not depend on the number. -/
theorem Built.digest_eq {source : Json} {packetSeq : Nat} {packet candidate : Json}
    (built : Built source packetSeq packet) (first : Built source 1 candidate)
    (stable : Stable source packetSeq) : built.digest = first.digest := by
  have same : built.projected.json = first.projected.json :=
    Except.ok.inj (built.projection.symm.trans first.projection)
  have payload : built.payload.json = first.payload.json := by
    have here := built.chosen
    have there := first.chosen
    rw [← same] at there
    rcases stable _ built.projection with equal | unchanged
    · rw [sealedPayload, equal] at here
      exact Except.ok.inj (here.symm.trans there)
    · exact (sealedPayload_eq_self unchanged here).trans (sealedPayload_eq_self unchanged there).symm
  have hash := built.hash
  rw [payload] at hash
  exact Except.ok.inj (hash.symm.trans first.hash)

end Senex.T0Audit
