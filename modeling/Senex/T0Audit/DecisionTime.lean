import Senex.T0Audit.Contamination

/-! # The decision time

What the projection takes of a source: the allow-listed fields, without the future keys inside them,
and nothing else.  Two sources that agree on these have one projection, and the projection gives them
back.
-/

namespace Senex.T0Audit

open Text

/-! ## Allow-listed fields -/

/-- The allow-listed fields but for `candle_ts`, which a source may have in two places. -/
def decisionTimePaths : List (List Text) :=
  topLevelAllowlist.map (fun key => [key]) ++ auditAllowlist.map (fun key => [txt "_audit", key]) ++
    pipelineAllowlist.map fun key => [txt "_audit", txt "pipeline", key]

/-- The `candle_ts` of a source, or else of its audit. -/
def candleTsOf (source : Json) : Json :=
  if source.get (txt "candle_ts") = .null then (objectOrEmpty (source.get (txt "_audit"))).get (txt "candle_ts")
  else source.get (txt "candle_ts")

/-- The two sources have the same allow-listed fields once the future keys are removed. -/
structure Agree (a b : Json) : Prop where
  fields : ∀ path ∈ decisionTimePaths, (scrubFutureFields a).field? path = (scrubFutureFields b).field? path
  candleTs : candleTsOf (scrubFutureFields a) = candleTsOf (scrubFutureFields b)

theorem get?_objectOrEmpty (j : Json) (key : Text) : (objectOrEmpty j).get? key = j.get? key := by
  cases j <;> rfl

theorem get?_get (j : Json) (outer key : Text) : (j.get outer).get? key = j.field? [outer, key] := by
  rw [Json.field?_cons, Json.get]
  cases j.get? outer with
  | none => rfl
  | some child => exact (Option.bind_fun_some (child.get? key)).symm

theorem get?_audit (source : Json) (key : Text) :
    (objectOrEmpty (source.get (txt "_audit"))).get? key = source.field? [txt "_audit", key] := by
  rw [get?_objectOrEmpty, get?_get]

theorem get?_pipeline (source : Json) (key : Text) :
    (objectOrEmpty ((objectOrEmpty (source.get (txt "_audit"))).get (txt "pipeline"))).get? key =
      source.field? [txt "_audit", txt "pipeline", key] := by
  rw [get?_objectOrEmpty, get?_get, Json.field?_cons, get?_audit, Json.field?_cons, Json.field?_cons]
  cases source.get? (txt "_audit") with
  | none => rfl
  | some audit => exact congrArg (·.bind (Json.field? [key])) (Option.bind_fun_some (audit.get? (txt "pipeline")))

/-! ## The members of the projection -/

def pipelineMembers (source : Json) : List (Text × Json) :=
  pick pipelineAllowlist (objectOrEmpty ((objectOrEmpty (source.get (txt "_audit"))).get (txt "pipeline")))

/-- A member that stands only where its object has members. -/
def unlessEmpty (key : Text) (members : List (Text × Json)) : List (Text × Json) :=
  if members.isEmpty then [] else [(key, .ofMembers members)]

def auditMembers (source : Json) : List (Text × Json) :=
  pick auditAllowlist (objectOrEmpty (source.get (txt "_audit"))) ++
    unlessEmpty (txt "pipeline") (pipelineMembers source)

def candleMember (candleTs : Json) : List (Text × Json) :=
  if candleTs = .null then [] else [(txt "candle_ts", candleTs)]

theorem projectedMembers_eq (source : Json) : projectedMembers source =
    pick topLevelAllowlist source ++ candleMember (candleTsOf source) ++
      unlessEmpty (txt "_audit") (auditMembers source) := rfl

theorem pick_congr {allowed : List Text} {a b : Json} (same : ∀ key ∈ allowed, a.get? key = b.get? key) :
    pick allowed a = pick allowed b := by
  apply List.filterMap_congr
  intro key inside
  rw [same key inside]

/-- The projection depends on the allow-listed fields only. -/
theorem projectedMembers_congr {a b : Json} (fields : ∀ path ∈ decisionTimePaths, a.field? path = b.field? path)
    (candleTs : candleTsOf a = candleTsOf b) : projectedMembers a = projectedMembers b := by
  have top : pick topLevelAllowlist a = pick topLevelAllowlist b := by
    apply pick_congr
    intro key inside
    have same := fields [key] (List.mem_append_left _ (List.mem_append_left _ (List.mem_map_of_mem inside)))
    rwa [Json.field?_cons, Json.field?_cons, funext Json.field?_nil, Option.bind_fun_some, Option.bind_fun_some] at same
  have audit : pick auditAllowlist (objectOrEmpty (a.get (txt "_audit"))) =
      pick auditAllowlist (objectOrEmpty (b.get (txt "_audit"))) := by
    apply pick_congr
    intro key inside
    rw [get?_audit, get?_audit]
    exact fields _ (List.mem_append_left _ (List.mem_append_right _ (List.mem_map_of_mem inside)))
  have pipeline : pipelineMembers a = pipelineMembers b := by
    apply pick_congr
    intro key inside
    rw [get?_pipeline, get?_pipeline]
    exact fields _ (List.mem_append_right _ (List.mem_map_of_mem inside))
  rw [projectedMembers_eq, projectedMembers_eq, top, candleTs, auditMembers, audit, pipeline, ← auditMembers]

/-! ## Scrubbing before the projection -/

theorem scrubMembers_append (front back : List (Text × Json)) :
    scrubMembers (front ++ back) = scrubMembers front ++ scrubMembers back := by
  simp only [scrubMembers_eq, List.filter_append, List.map_append]

theorem get_scrub {key : Text} (plain : isFutureKey key = false) (j : Json) :
    (scrubFutureFields j).get key = scrubFutureFields (j.get key) := by
  rw [Json.get, get?_scrub plain, Json.get]
  cases j.get? key <;> rfl

theorem scrubMembers_pick {allowed : List Text} (plain : ∀ key ∈ allowed, isFutureKey key = false) (j : Json) :
    scrubMembers (pick allowed j) = pick allowed (scrubFutureFields j) := by
  induction allowed with
  | nil => rfl
  | cons key allowed ih =>
      have later := ih fun k inside => plain k (.tail _ inside)
      have here := plain key (.head _)
      rw [pick] at later ⊢
      rw [pick] at later ⊢
      rw [List.filterMap_cons, List.filterMap_cons, get?_scrub here]
      cases j.get? key with
      | none => exact later
      | some value => simpa [scrubMembers, here] using later

theorem scrubMembers_unlessEmpty {key : Text} (plain : isFutureKey key = false) {members : List (Text × Json)}
    (others : ∀ m ∈ members, isFutureKey m.1 = false) :
    scrubMembers (unlessEmpty key members) = unlessEmpty key (scrubMembers members) := by
  cases members with
  | nil => rfl
  | cons m members =>
      obtain ⟨k, child⟩ := m
      have here : isFutureKey k = false := others (k, child) (.head _)
      have built := scrub_ofMembers ((k, child) :: members)
      simp only [scrubMembers, here, Bool.false_eq_true, if_false] at built
      simp only [unlessEmpty, List.isEmpty_cons, Bool.false_eq_true, if_false, scrubMembers, plain, here, built]

theorem plain_allowlists : (∀ key ∈ topLevelAllowlist ++ auditAllowlist ++ pipelineAllowlist,
    isFutureKey key = false) ∧ (∀ key ∈ [txt "_audit", txt "pipeline", txt "candle_ts", txt "step2_features",
      txt "up_prob", txt "decision_replay_v1"], isFutureKey key = false) := by
  decide

theorem plain_pick {allowed : List Text} (plain : ∀ key ∈ allowed, isFutureKey key = false) {j : Json} :
    ∀ m ∈ pick allowed j, isFutureKey m.1 = false :=
  fun _ inside => plain _ (keys_pick (List.mem_map_of_mem inside))

theorem plain_auditMembers (source : Json) : ∀ m ∈ auditMembers source, isFutureKey m.1 = false := by
  intro m inside
  rcases List.mem_append.mp inside with picked | rest
  · exact plain_pick (fun key allowed => plain_allowlists.1 key
      (List.mem_append_left _ (List.mem_append_right _ allowed))) m picked
  · unfold unlessEmpty at rest
    split at rest
    · cases rest
    · rw [List.mem_singleton.mp rest]
      exact plain_allowlists.2 _ (by simp)

theorem scrub_candleTsOf (source : Json) : scrubFutureFields (candleTsOf source) = candleTsOf (scrubFutureFields source) := by
  have candle : isFutureKey (txt "candle_ts") = false := plain_allowlists.2 _ (by simp)
  have audit : isFutureKey (txt "_audit") = false := plain_allowlists.2 _ (by simp)
  rw [candleTsOf, candleTsOf, get_scrub candle, get_scrub audit, ← objectOrEmpty_scrub, get_scrub candle]
  by_cases absent : source.get (txt "candle_ts") = .null
  · rw [if_pos absent, if_pos (scrub_eq_null.mpr absent)]
  · rw [if_neg absent, if_neg fun null => absent (scrub_eq_null.mp null)]

/-- Scrubbing the projection is projecting the scrubbed source. -/
theorem scrubMembers_projected (source : Json) :
    scrubMembers (projectedMembers source) = projectedMembers (scrubFutureFields source) := by
  have audit : isFutureKey (txt "_audit") = false := plain_allowlists.2 _ (by simp)
  have pipeline : isFutureKey (txt "pipeline") = false := plain_allowlists.2 _ (by simp)
  have candle : isFutureKey (txt "candle_ts") = false := plain_allowlists.2 _ (by simp)
  have top : ∀ key ∈ topLevelAllowlist, isFutureKey key = false := fun key inside =>
    plain_allowlists.1 key (List.mem_append_left _ (List.mem_append_left _ inside))
  have inner : ∀ key ∈ auditAllowlist, isFutureKey key = false := fun key inside =>
    plain_allowlists.1 key (List.mem_append_left _ (List.mem_append_right _ inside))
  have innermost : ∀ key ∈ pipelineAllowlist, isFutureKey key = false := fun key inside =>
    plain_allowlists.1 key (List.mem_append_right _ inside)
  have plainPipeline : ∀ m ∈ pipelineMembers source, isFutureKey m.1 = false := plain_pick innermost
  have pipelined : scrubMembers (pipelineMembers source) = pipelineMembers (scrubFutureFields source) := by
    rw [pipelineMembers, scrubMembers_pick innermost, objectOrEmpty_scrub, ← get_scrub pipeline, objectOrEmpty_scrub,
      ← get_scrub audit, pipelineMembers]
  have audited : scrubMembers (auditMembers source) = auditMembers (scrubFutureFields source) := by
    rw [auditMembers, scrubMembers_append, scrubMembers_pick inner, objectOrEmpty_scrub, ← get_scrub audit,
      scrubMembers_unlessEmpty pipeline plainPipeline, pipelined, auditMembers]
  have candled : scrubMembers (candleMember (candleTsOf source)) =
      candleMember (candleTsOf (scrubFutureFields source)) := by
    rw [← scrub_candleTsOf]
    unfold candleMember
    by_cases absent : candleTsOf source = .null
    · rw [if_pos absent, if_pos (scrub_eq_null.mpr absent)]
      rfl
    · rw [if_neg absent, if_neg fun null => absent (scrub_eq_null.mp null)]
      simp [scrubMembers, candle]
  rw [projectedMembers_eq, projectedMembers_eq, scrubMembers_append, scrubMembers_append, scrubMembers_pick top,
    candled, scrubMembers_unlessEmpty audit (plain_auditMembers source), audited]

/-- The decision-time part of a source, without the future keys. -/
def decisionTime (source : Json) : Json := .ofMembers (projectedMembers (scrubFutureFields source))

/-- A source that is not contaminated is projected on its decision-time part. -/
theorem projectDecisionTime_eq {source : Json} (object : source.isObject = true) (clean : ¬Contaminated source) :
    projectDecisionTime source = .ok (decisionTime source) := by
  have notObject : (!source.isObject) = false := by rw [object]; rfl
  simp only [projectDecisionTime, notObject, guardNot_false, Py.ok_bind, refuseContamination_of_clean clean,
    Py.pure_eq_ok, scrub_ofMembers, scrubMembers_projected, decisionTime]

theorem Agree.decisionTime_eq {a b : Json} (agree : Agree a b) : decisionTime a = decisionTime b := by
  rw [decisionTime, decisionTime, projectedMembers_congr agree.fields agree.candleTs]

/-! ## The fields of the projection -/

theorem lookup_append (key : Text) (front back : List (Text × Json)) :
    Json.lookup key (front ++ back) = (Json.lookup key front).or (Json.lookup key back) := by
  induction front with
  | nil => rfl
  | cons m front ih =>
      obtain ⟨k, value⟩ := m
      by_cases same : key = k
      · simp [Json.lookup, same]
      · rw [List.cons_append, Json.lookup, if_neg same, ih, Json.lookup, if_neg same]

theorem lookup_pick (allowed : List Text) (j : Json) (key : Text) :
    Json.lookup key (pick allowed j) = if key ∈ allowed then j.get? key else none := by
  induction allowed with
  | nil => rfl
  | cons k allowed ih =>
      rw [pick] at ih ⊢
      rw [List.filterMap_cons]
      by_cases same : key = k
      · subst same
        cases found : j.get? key with
        | none =>
            simp only [Option.map_none, ih, found, ite_self]
        | some value => simp [Json.lookup]
      · cases j.get? k with
        | none => simpa [same] using ih
        | some value => simpa [Json.lookup, same] using ih

theorem lookup_unlessEmpty (key k : Text) (members : List (Text × Json)) :
    Json.lookup k (unlessEmpty key members) =
      if k = key ∧ members ≠ [] then some (.ofMembers members) else none := by
  cases members with
  | nil => simp [unlessEmpty, Json.lookup]
  | cons m members => simp [unlessEmpty, Json.lookup]

theorem lookup_candleMember (key : Text) (candleTs : Json) :
    Json.lookup key (candleMember candleTs) =
      if key = txt "candle_ts" ∧ candleTs ≠ .null then some candleTs else none := by
  unfold candleMember
  by_cases absent : candleTs = .null <;> simp [absent, Json.lookup]

/-- A member that stands only where its object has members has the fields of these members. -/
theorem field?_unlessEmpty {key : Text} {members : List (Text × Json)} (distinct : (members.map Prod.fst).Nodup)
    (k : Text) (path : List Text) :
    (Json.lookup key (unlessEmpty key members)).bind (Json.field? (k :: path)) =
      (Json.lookup k members).bind (Json.field? path) := by
  rw [lookup_unlessEmpty]
  cases members with
  | nil => simp [Json.lookup]
  | cons m members =>
      rw [if_pos ⟨rfl, List.cons_ne_nil _ _⟩, Option.bind_some, Json.field?_cons,
        Json.get?_ofMembers_of_distinct distinct]

theorem keys_pick_sublist (allowed : List Text) (j : Json) : ((pick allowed j).map Prod.fst).Sublist allowed := by
  induction allowed with
  | nil => exact .slnil
  | cons k allowed ih =>
      rw [pick] at ih ⊢
      rw [List.filterMap_cons]
      cases j.get? k with
      | none => exact ih.cons k
      | some value => exact ih.cons_cons k

theorem keys_unlessEmpty_sublist (key : Text) (members : List (Text × Json)) :
    ((unlessEmpty key members).map Prod.fst).Sublist [key] := by
  cases members with
  | nil => exact List.nil_sublist _
  | cons m members => exact List.Sublist.refl _

theorem distinct_pick {allowed : List Text} (distinct : allowed.Nodup) (j : Json) :
    ((pick allowed j).map Prod.fst).Nodup :=
  distinct.sublist (keys_pick_sublist allowed j)

theorem distinct_auditMembers (source : Json) : ((auditMembers source).map Prod.fst).Nodup := by
  have apart : (auditAllowlist ++ [txt "pipeline"]).Nodup := by decide
  rw [auditMembers, List.map_append]
  exact apart.sublist ((keys_pick_sublist _ _).append (keys_unlessEmpty_sublist _ _))

theorem distinct_projectedMembers (source : Json) : ((projectedMembers source).map Prod.fst).Nodup := by
  have apart : (topLevelAllowlist ++ [txt "candle_ts"] ++ [txt "_audit"]).Nodup := by decide
  have candle : ((candleMember (candleTsOf source)).map Prod.fst).Sublist [txt "candle_ts"] := by
    unfold candleMember
    split
    · exact List.nil_sublist _
    · exact List.Sublist.refl _
  rw [projectedMembers_eq, List.map_append, List.map_append]
  exact apart.sublist (((keys_pick_sublist _ _).append candle).append (keys_unlessEmpty_sublist _ _))

theorem get?_projected (source : Json) (key : Text) :
    (Json.ofMembers (projectedMembers source)).get? key =
      ((if key ∈ topLevelAllowlist then source.get? key else none).or
        (if key = txt "candle_ts" ∧ candleTsOf source ≠ .null then some (candleTsOf source) else none)).or
        (Json.lookup key (unlessEmpty (txt "_audit") (auditMembers source))) := by
  rw [Json.get?_ofMembers_of_distinct (distinct_projectedMembers source), projectedMembers_eq, lookup_append,
    lookup_append, lookup_pick, lookup_candleMember]

theorem get?_projected_top {source : Json} {key : Text} (top : key ∈ topLevelAllowlist) :
    (Json.ofMembers (projectedMembers source)).get? key = source.get? key := by
  have apart : ∀ k ∈ topLevelAllowlist, k ≠ txt "candle_ts" ∧ k ≠ txt "_audit" := by decide
  rw [get?_projected, if_pos top, if_neg fun h => (apart key top).1 h.1, lookup_unlessEmpty,
    if_neg fun h => (apart key top).2 h.1, Option.or_none, Option.or_none]

theorem get_projected_candleTs (source : Json) :
    (Json.ofMembers (projectedMembers source)).get (txt "candle_ts") = candleTsOf source := by
  have top : txt "candle_ts" ∉ topLevelAllowlist := by decide
  have other : txt "candle_ts" ≠ txt "_audit" := by decide
  have last : Json.lookup (txt "candle_ts") (unlessEmpty (txt "_audit") (auditMembers source)) = none := by
    rw [lookup_unlessEmpty, if_neg fun h => other h.1]
  rw [Json.get, get?_projected, if_neg top, last, Option.none_or, Option.or_none]
  by_cases absent : candleTsOf source = .null <;> simp [absent]

theorem field?_projected_audit (source : Json) (key : Text) (path : List Text) :
    (Json.ofMembers (projectedMembers source)).field? (txt "_audit" :: key :: path) =
      (Json.lookup key (auditMembers source)).bind (Json.field? path) := by
  have top : txt "_audit" ∉ topLevelAllowlist := by decide
  have other : txt "_audit" ≠ txt "candle_ts" := by decide
  rw [Json.field?_cons, get?_projected, if_neg top, if_neg fun h => other h.1, Option.none_or, Option.none_or]
  exact field?_unlessEmpty (distinct_auditMembers source) key path

theorem field?_projected_of_audit {source : Json} {key : Text} (allowed : key ∈ auditAllowlist) :
    (Json.ofMembers (projectedMembers source)).field? [txt "_audit", key] = source.field? [txt "_audit", key] := by
  have apart : ∀ k ∈ auditAllowlist, k ≠ txt "pipeline" := by decide
  rw [field?_projected_audit, auditMembers, lookup_append, lookup_pick, if_pos allowed, lookup_unlessEmpty,
    if_neg fun h => apart key allowed h.1, Option.or_none, get?_audit, funext Json.field?_nil, Option.bind_fun_some]

theorem field?_projected_of_pipeline {source : Json} {key : Text} (allowed : key ∈ pipelineAllowlist)
    (path : List Text) :
    (Json.ofMembers (projectedMembers source)).field? (txt "_audit" :: txt "pipeline" :: key :: path) =
      source.field? (txt "_audit" :: txt "pipeline" :: key :: path) := by
  have plain : txt "pipeline" ∉ auditAllowlist := by decide
  have distinct : ((pipelineMembers source).map Prod.fst).Nodup := distinct_pick (by decide) _
  rw [field?_projected_audit, auditMembers, lookup_append, lookup_pick, if_neg plain, Option.none_or,
    field?_unlessEmpty distinct, pipelineMembers, lookup_pick, if_pos allowed, get?_pipeline]
  simp only [Json.field?_cons, Option.bind_assoc, Json.field?_nil, Option.bind_some]
  rfl

/-- Two sources have one projection just where they agree. -/
theorem agree_iff {a b : Json} : Agree a b ↔ decisionTime a = decisionTime b := by
  constructor
  · exact Agree.decisionTime_eq
  · intro same
    rw [decisionTime, decisionTime] at same
    constructor
    · intro path inside
      rcases List.mem_append.mp inside with shallow | inside
      · rcases List.mem_append.mp shallow with inside | inside
        · obtain ⟨key, top, rfl⟩ := List.mem_map.mp inside
          apply Json.field?_congr
          rw [← get?_projected_top top, same, get?_projected_top top]
        · obtain ⟨key, allowed, rfl⟩ := List.mem_map.mp inside
          rw [← field?_projected_of_audit allowed, same, field?_projected_of_audit allowed]
      · obtain ⟨key, allowed, rfl⟩ := List.mem_map.mp inside
        rw [← field?_projected_of_pipeline allowed, same, field?_projected_of_pipeline allowed]
    · rw [← get_projected_candleTs, same, get_projected_candleTs]

end Senex.T0Audit
