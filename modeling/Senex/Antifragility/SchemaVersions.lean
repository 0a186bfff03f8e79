import Mathlib.Order.Bounds.Basic
import Senex.Foundation.Dict
import Senex.Foundation.Json
import Senex.Foundation.Loop
import Senex.Foundation.Routes
import Senex.Foundation.Text

/-! # Schema versions and their migrators

`SchemaVersioner` of the lineage.  The search for a path of migrators takes the highest version
it can at each step and never goes back, so it misses paths and can go round for ever
(`migrates_iff`).
-/

namespace Senex.Antifragility

open Text

structure SchemaVersion where
  kind : Text
  version : Int
  schema : Json
  introducedAt : Text
  deprecated : Bool
  migrateFrom : Option Int

/-- A migrator makes a new payload of a payload or raises. -/
abbrev Migrator (P : Type) := P → Option P

structure SchemaVersioner (P : Type) where
  registry : Dict Text (Dict Int SchemaVersion)
  migrators : Dict (Text × Int × Int) (Migrator P)

namespace SchemaVersioner

variable {P : Type}

def empty : SchemaVersioner P := ⟨Dict.empty, Dict.empty⟩

def register (sv : SchemaVersioner P) (ver : SchemaVersion) (migrator : Option (Migrator P)) : SchemaVersioner P where
  registry := sv.registry.set ver.kind (((sv.registry.get? ver.kind).getD Dict.empty).set ver.version ver)
  migrators :=
    match migrator, ver.migrateFrom with
    | some migrator, some source => sv.migrators.set (ver.kind, source, ver.version) migrator
    | _, _ => sv.migrators

/-- The higher of the best version so far and another. -/
def higher : Option Int → Int → Int
  | none, t => t
  | some v, t => if v < t then t else v

/-- The loop over the migrators for the highest version up to `toV`. -/
def nextV (keys : List (Text × Int × Int)) (kind : Text) (cur toV : Int) : Option Int :=
  keys.foldl (fun best key =>
    if key.1 = kind ∧ key.2.1 = cur ∧ key.2.2 ≤ toV then some (higher best key.2.2) else best) none

/-- The body of the search: the path so far and its last version. -/
def extendPath (sv : SchemaVersioner P) (kind : Text) (toV : Int) :
    List Int × Int → (List Int × Int) ⊕ Option (List Int)
  | (path, cur) =>
      if cur < toV then
        match nextV sv.migrators.keys kind cur toV with
        | none => .inr none
        | some v => .inl (path ++ [v], v)
      else .inr (some path)

/-- What `migration_path` returns with that much fuel, if it returns. -/
def migrationPath (sv : SchemaVersioner P) (kind : Text) (fromV toV : Int) (fuel : Nat) : Option (Option (List Int)) :=
  if fromV = toV then some (some [fromV]) else Loop.iterate (sv.extendPath kind toV) fuel ([fromV], fromV)

/-- The loop of `migrate` over the rest of the path. -/
def migrateAlong (sv : SchemaVersioner P) (kind : Text) (payload : P) : Int → List Int → P → P × Bool
  | _, [], curPayload => (curPayload, true)
  | curV, nxtV :: rest, curPayload =>
      match sv.migrators.get? (kind, curV, nxtV) with
      | none => (payload, false)
      | some migrator =>
          match migrator curPayload with
          | none => (payload, false)
          | some migrated => migrateAlong sv kind payload nxtV rest migrated

def migrate (sv : SchemaVersioner P) (kind : Text) (fromV toV : Int) (payload : P) (fuel : Nat) : Option (P × Bool) :=
  (sv.migrationPath kind fromV toV fuel).map fun path =>
    match path with
    | none => (payload, false)
    | some path => sv.migrateAlong kind payload fromV path.tail payload

/-! ## The migrators as a graph -/

variable {sv : SchemaVersioner P} {kind : Text}

/-- There is a migrator from one version to the other. -/
def Edge (sv : SchemaVersioner P) (kind : Text) (source target : Int) : Prop :=
  (kind, source, target) ∈ sv.migrators.keys

/-- A chain of registered migrators from one version to another. -/
abbrev IsChain (sv : SchemaVersioner P) (kind : Text) (fromV toV : Int) (path : List Int) : Prop :=
  Route (sv.Edge kind) fromV toV path

/-- The migrators along a path, one after the other. -/
def composition (sv : SchemaVersioner P) (kind : Text) : List Int → P → Option P
  | source :: target :: rest, payload => do
      let migrator ← sv.migrators.get? (kind, source, target)
      let migrated ← migrator payload
      composition sv kind (target :: rest) migrated
  | _, payload => some payload

/-- The highest version up to `toV` that a migrator leads to, from a version below `toV`. -/
structure Highest (sv : SchemaVersioner P) (kind : Text) (toV source target : Int) : Prop where
  below : source < toV
  greatest : IsGreatest {t | sv.Edge kind source t ∧ t ≤ toV} target

/-- A version below `toV` from which no migrator leads to a version up to it. -/
structure DeadEnd (sv : SchemaVersioner P) (kind : Text) (toV v : Int) : Prop where
  below : v < toV
  stuck : ∀ t, sv.Edge kind v t → toV < t

/-! ## The highest step -/

/-- The targets up to `toV` of the migrators from a version. -/
def targets (keys : List (Text × Int × Int)) (kind : Text) (cur toV : Int) : Set Int :=
  {t | (kind, cur, t) ∈ keys ∧ t ≤ toV}

/-- The highest of some versions, if there are any. -/
def IsBest (versions : Set Int) : Option Int → Prop
  | none => versions = ∅
  | some v => IsGreatest versions v

theorem IsBest.insert {versions : Set Int} {best : Option Int} (found : IsBest versions best) (t : Int) :
    IsBest (insert t versions) (some (higher best t)) := by
  cases best with
  | none =>
      obtain rfl : versions = ∅ := found
      simp [IsBest, higher]
  | some v =>
      have greatest : IsGreatest (Insert.insert t versions) (max t v) := IsGreatest.insert t found
      rcases lt_or_ge v t with less | le
      · simpa [IsBest, higher, less, less.le] using greatest
      · simpa [IsBest, higher, le, not_lt.mpr le] using greatest

/-- The loop over the keys finds the highest target up to `toV`. -/
theorem isBest_nextV (keys : List (Text × Int × Int)) (kind : Text) (cur toV : Int) :
    IsBest (targets keys kind cur toV) (nextV keys kind cur toV) := by
  induction keys using List.reverseRecOn with
  | nil => simp [nextV, targets, IsBest]
  | append_singleton keys key ih =>
      rw [nextV, List.foldl_concat, ← nextV]
      split
      · rename_i fits
        have more : targets (keys ++ [key]) kind cur toV = insert key.2.2 (targets keys kind cur toV) := by
          ext t
          simp only [targets, List.mem_append, List.mem_singleton, Set.mem_ofPred_eq, Set.mem_insert_iff]
          grind
        rw [more]
        exact ih.insert key.2.2
      · have same : targets (keys ++ [key]) kind cur toV = targets keys kind cur toV := by
          ext t
          simp only [targets, List.mem_append, List.mem_singleton, Set.mem_ofPred_eq]
          grind
        rw [same]
        exact ih

/-! ## The search -/

section Search

variable {toV cur : Int} {path : List Int}

theorem extendPath_arrived (arrived : toV ≤ cur) : sv.extendPath kind toV (path, cur) = .inr (some path) := by
  simp [extendPath, not_lt.mpr arrived]

theorem extendPath_stuck (dead : sv.DeadEnd kind toV cur) : sv.extendPath kind toV (path, cur) = .inr none := by
  have best := isBest_nextV sv.migrators.keys kind cur toV
  cases found : nextV sv.migrators.keys kind cur toV with
  | none => simp [extendPath, dead.below, found]
  | some v =>
      rw [found] at best
      obtain ⟨edge, le⟩ := best.1
      exact absurd le (not_le.mpr (dead.stuck v edge))

theorem extendPath_highest {v : Int} (step : sv.Highest kind toV cur v) :
    sv.extendPath kind toV (path, cur) = .inl (path ++ [v], v) := by
  have best := isBest_nextV sv.migrators.keys kind cur toV
  cases found : nextV sv.migrators.keys kind cur toV with
  | none =>
      rw [found] at best
      have empty : targets sv.migrators.keys kind cur toV = ∅ := best
      have member : v ∈ targets sv.migrators.keys kind cur toV := step.greatest.1
      simp [empty] at member
  | some w =>
      rw [found] at best
      obtain rfl : w = v := best.unique step.greatest
      simp [extendPath, step.below, found]

/-- The search has arrived, is stuck, or takes the highest step. -/
theorem extendPath_cases (sv : SchemaVersioner P) (kind : Text) (toV cur : Int) :
    toV ≤ cur ∨ sv.DeadEnd kind toV cur ∨ ∃ v, sv.Highest kind toV cur v := by
  rcases le_or_gt toV cur with arrived | below
  · exact .inl arrived
  have best := isBest_nextV sv.migrators.keys kind cur toV
  cases found : nextV sv.migrators.keys kind cur toV with
  | none =>
      rw [found] at best
      refine .inr (.inl ⟨below, fun t edge => not_le.mp fun le => ?_⟩)
      have empty : targets sv.migrators.keys kind cur toV = ∅ := best
      have member : t ∈ targets sv.migrators.keys kind cur toV := ⟨edge, le⟩
      simp [empty] at member
  | some v =>
      rw [found] at best
      exact .inr (.inr ⟨v, below, best⟩)

theorem extendPath_eq_inl {next : List Int × Int} (onward : sv.extendPath kind toV (path, cur) = .inl next) :
    sv.Highest kind toV cur next.2 ∧ next.1 = path ++ [next.2] := by
  rcases extendPath_cases sv kind toV cur with arrived | dead | ⟨v, step⟩
  · rw [extendPath_arrived arrived] at onward
    cases onward
  · rw [extendPath_stuck dead] at onward
    cases onward
  · rw [extendPath_highest step] at onward
    cases onward
    exact ⟨step, rfl⟩

/-- The search goes wherever the highest steps lead. -/
theorem turns_of_highest (path : List Int) {v : Int} (steps : Relation.ReflTransGen (sv.Highest kind toV) cur v) :
    ∃ longer, Relation.ReflTransGen (Loop.Turn (sv.extendPath kind toV)) (path, cur) (longer, v) := by
  induction steps with
  | refl => exact ⟨path, .refl⟩
  | tail _ step ih =>
      obtain ⟨longer, turns⟩ := ih
      exact ⟨_, turns.tail (extendPath_highest step)⟩

/-- What holds of the path and its last version in every turn of the search. -/
structure Walked (sv : SchemaVersioner P) (kind : Text) (fromV toV : Int) (s : List Int × Int) : Prop where
  chain : sv.IsChain kind fromV s.2 s.1
  bounded : s.2 ≤ toV
  steps : Relation.ReflTransGen (sv.Highest kind toV) fromV s.2

theorem walked_of_turns {fromV : Int} (below : fromV ≤ toV) {s : List Int × Int}
    (turns : Relation.ReflTransGen (Loop.Turn (sv.extendPath kind toV)) ([fromV], fromV) s) :
    sv.Walked kind fromV toV s := by
  refine Loop.keeps ?_ turns ⟨route_self _ fromV, below, .refl⟩
  intro s next walked onward
  obtain ⟨step, longer⟩ := extendPath_eq_inl onward
  rw [← Prod.mk.eta (p := next), longer]
  exact ⟨walked.chain.concat step.greatest.1.1, step.greatest.1.2, walked.steps.tail step⟩

/-- What the search below `toV` returns: the path of the highest steps, or nothing at a dead end. -/
theorem returns_iff {fromV : Int} (below : fromV < toV) {r : Option (List Int)} :
    (∃ fuel, sv.migrationPath kind fromV toV fuel = some r) ↔
      (∃ path, r = some path ∧ sv.Walked kind fromV toV (path, toV) ∧
        Relation.ReflTransGen (Loop.Turn (sv.extendPath kind toV)) ([fromV], fromV) (path, toV)) ∨
      ∃ v, r = none ∧ Relation.ReflTransGen (sv.Highest kind toV) fromV v ∧ sv.DeadEnd kind toV v := by
  have search (fuel : Nat) : sv.migrationPath kind fromV toV fuel =
      Loop.iterate (sv.extendPath kind toV) fuel ([fromV], fromV) := by
    rw [migrationPath, if_neg below.ne]
  simp only [search]
  constructor
  · intro returned
    obtain ⟨⟨path, v⟩, turns, done⟩ := Loop.returns_iff.mp returned
    have walked : sv.Walked kind fromV toV (path, v) := walked_of_turns below.le turns
    rcases extendPath_cases sv kind toV v with arrived | dead | ⟨w, step⟩
    · obtain rfl : v = toV := le_antisymm walked.bounded arrived
      rw [extendPath_arrived arrived] at done
      exact .inl ⟨path, (Sum.inr.inj done).symm, walked, turns⟩
    · rw [extendPath_stuck dead] at done
      exact .inr ⟨v, (Sum.inr.inj done).symm, walked.steps, dead⟩
    · rw [extendPath_highest step] at done
      cases done
  · intro cases
    apply Loop.returns_iff.mpr
    rcases cases with ⟨path, rfl, -, turns⟩ | ⟨v, rfl, steps, dead⟩
    · exact ⟨(path, toV), turns, extendPath_arrived le_rfl⟩
    · obtain ⟨path, turns⟩ := turns_of_highest [fromV] steps
      exact ⟨(path, v), turns, extendPath_stuck dead⟩

end Search

/-! ## Right searches and migrations -/

/-- The search ends, with a chain where there is one and with nothing where there is none. -/
def FindsPath (sv : SchemaVersioner P) (kind : Text) (fromV toV : Int) : Prop :=
  ∃ fuel r, sv.migrationPath kind fromV toV fuel = some r ∧
    ((∃ path, sv.IsChain kind fromV toV path) → ∃ path, r = some path ∧ sv.IsChain kind fromV toV path) ∧
    ((¬∃ path, sv.IsChain kind fromV toV path) → r = none)

/-- The migration ends, with the composition along a chain or with the payload as it was. -/
def MigratesAlong (sv : SchemaVersioner P) (kind : Text) (fromV toV : Int) (payload : P) : Prop :=
  ∃ fuel out, sv.migrate kind fromV toV payload fuel = some out ∧
    (out.2 = true → ∃ path, sv.IsChain kind fromV toV path ∧ sv.composition kind path payload = some out.1) ∧
    (out.2 = false → out.1 = payload)

/-- What the search and the migration from one version to another should do. -/
structure Migrates (sv : SchemaVersioner P) (kind : Text) (fromV toV : Int) : Prop where
  path : sv.FindsPath kind fromV toV
  payloads : ∀ payload, sv.MigratesAlong kind fromV toV payload

/-- The highest steps lead to `toV` where any chain does, and to a dead end where none does. -/
structure HighestSuffice (sv : SchemaVersioner P) (kind : Text) (fromV toV : Int) : Prop where
  below : fromV < toV
  arrive : Relation.ReflTransGen (sv.Edge kind) fromV toV → Relation.ReflTransGen (sv.Highest kind toV) fromV toV
  stop : ¬Relation.ReflTransGen (sv.Edge kind) fromV toV →
    ∃ v, Relation.ReflTransGen (sv.Highest kind toV) fromV v ∧ sv.DeadEnd kind toV v

section Right

variable {fromV toV : Int}

theorem Highest.edge {source target : Int} (step : sv.Highest kind toV source target) :
    sv.Edge kind source target := step.greatest.1.1

theorem highestSuffice_of_findsPath (finds : sv.FindsPath kind fromV toV) :
    fromV = toV ∨ sv.HighestSuffice kind fromV toV := by
  obtain ⟨fuel, r, returned, found, missed⟩ := finds
  rcases lt_trichotomy fromV toV with below | same | above
  · refine .inr ⟨below, fun reached => ?_, fun unreached => ?_⟩
    · obtain ⟨path, rfl, -⟩ := found (exists_route_iff.mpr reached)
      rcases (returns_iff below).mp ⟨fuel, returned⟩ with ⟨_, -, walked, -⟩ | ⟨_, none, -⟩
      · exact walked.steps
      · cases none
    · obtain rfl := missed (exists_route_iff.not.mpr unreached)
      rcases (returns_iff below).mp ⟨fuel, returned⟩ with ⟨_, none, -⟩ | ⟨v, -, steps, dead⟩
      · cases none
      · exact ⟨v, steps, dead⟩
  · exact .inl same
  · -- the path of the starting version alone is returned, which does not end at a lower version
    have alone : Loop.Returns (sv.extendPath kind toV) ([fromV], fromV) r := by
      refine ⟨fuel, ?_⟩
      rwa [migrationPath, if_neg above.ne'] at returned
    obtain rfl := alone.unique (Loop.returns_of_inr (extendPath_arrived above.le))
    exfalso
    by_cases chained : ∃ path, sv.IsChain kind fromV toV path
    · obtain ⟨path, same, chain⟩ := found chained
      cases same
      have ends : fromV = toV := by simpa using chain.ends
      omega
    · cases missed chained

theorem findsPath_of_highestSuffice (suffice : sv.HighestSuffice kind fromV toV) :
    sv.FindsPath kind fromV toV := by
  by_cases reached : Relation.ReflTransGen (sv.Edge kind) fromV toV
  · obtain ⟨path, turns⟩ := turns_of_highest [fromV] (suffice.arrive reached)
    have walked := walked_of_turns suffice.below.le turns
    obtain ⟨fuel, returned⟩ := (returns_iff suffice.below).mpr (.inl ⟨path, rfl, walked, turns⟩)
    exact ⟨fuel, _, returned, fun _ => ⟨path, rfl, walked.chain⟩,
      fun none => absurd (exists_route_iff.mpr reached) none⟩
  · obtain ⟨v, steps, dead⟩ := suffice.stop reached
    obtain ⟨fuel, returned⟩ := (returns_iff suffice.below).mpr (.inr ⟨v, rfl, steps, dead⟩)
    exact ⟨fuel, none, returned, fun chained => absurd (exists_route_iff.mp chained) reached, fun _ => rfl⟩

theorem findsPath_self (sv : SchemaVersioner P) (kind : Text) (v : Int) : sv.FindsPath kind v v := by
  have chain : sv.IsChain kind v v [v] := route_self _ v
  refine ⟨0, some [v], by simp [migrationPath], fun _ => ⟨[v], rfl, chain⟩, fun none => ?_⟩
  exact absurd ⟨[v], chain⟩ none

/-- The loop over a path composes the migrators, or gives the payload back. -/
theorem migrateAlong_spec (sv : SchemaVersioner P) (kind : Text) (payload : P) (cur : Int) (rest : List Int) (curPayload : P) :
    ((sv.migrateAlong kind payload cur rest curPayload).2 = true →
      sv.composition kind (cur :: rest) curPayload = some (sv.migrateAlong kind payload cur rest curPayload).1) ∧
    ((sv.migrateAlong kind payload cur rest curPayload).2 = false →
      (sv.migrateAlong kind payload cur rest curPayload).1 = payload) := by
  induction rest generalizing cur curPayload with
  | nil => simp [migrateAlong, composition]
  | cons next rest ih =>
      rw [migrateAlong, composition]
      cases registered : sv.migrators.get? (kind, cur, next) with
      | none => simp
      | some migrator =>
          cases migrated : migrator curPayload with
          | none => simp [migrated]
          | some payload => simpa [migrated] using ih next payload

theorem migratesAlong_of_findsPath (finds : sv.FindsPath kind fromV toV) (payload : P) :
    sv.MigratesAlong kind fromV toV payload := by
  obtain ⟨fuel, r, returned, found, missed⟩ := finds
  by_cases chained : ∃ path, sv.IsChain kind fromV toV path
  · obtain ⟨path, rfl, chain⟩ := found chained
    obtain ⟨right, wrong⟩ := migrateAlong_spec sv kind payload fromV path.tail payload
    rw [← chain.eq_cons] at right
    exact ⟨fuel, _, by rw [migrate, returned]; rfl, fun ok => ⟨path, chain, right ok⟩, wrong⟩
  · obtain rfl := missed chained
    exact ⟨fuel, (payload, false), by rw [migrate, returned]; rfl, nofun, fun _ => rfl⟩

/-- The search and the migration are right exactly where nothing is to be done or the highest steps suffice. -/
theorem migrates_iff (sv : SchemaVersioner P) (kind : Text) (fromV toV : Int) :
    sv.Migrates kind fromV toV ↔ fromV = toV ∨ sv.HighestSuffice kind fromV toV := by
  constructor
  · intro migrates
    exact highestSuffice_of_findsPath migrates.path
  · intro ready
    have finds : sv.FindsPath kind fromV toV := by
      rcases ready with rfl | suffice
      · exact findsPath_self sv kind fromV
      · exact findsPath_of_highestSuffice suffice
    exact ⟨finds, migratesAlong_of_findsPath finds⟩

/-- To a lower version nothing is migrated, and the migration is reported as done. -/
theorem migrate_downgrade (above : toV < fromV) (payload : P) (fuel : Nat) :
    sv.migrate kind fromV toV payload (fuel + 1) = some (payload, true) := by
  have alone : sv.migrationPath kind fromV toV (fuel + 1) = some (some [fromV]) := by
    simp [migrationPath, above.ne', Loop.iterate, extendPath_arrived above.le]
  rw [migrate, alone]
  rfl

end Right

/-! Four versions: the highest step from the first one leads to the third, from which none goes on. -/

/-- A version of the predictions' schema, with the version its migrator starts from. -/
def predictionVersion (version : Int) (migrateFrom : Option Int) : SchemaVersion :=
  ⟨txt "prediction", version, .obj [], txt "2026-01-01T00:00:00Z", false, migrateFrom⟩

def forkedVersions : SchemaVersioner Nat :=
  (((empty.register (predictionVersion 1 none) none).register (predictionVersion 2 (some 1)) (some fun n => some (n + 1)))
    |>.register (predictionVersion 3 (some 1)) (some fun n => some (n + 1)))
    |>.register (predictionVersion 4 (some 2)) (some fun n => some (n + 1))

theorem not_migrates_forked : ¬forkedVersions.Migrates (txt "prediction") 1 4 := by
  intro migrates
  obtain ⟨fuel, r, returned, found, -⟩ := migrates.path
  have chain : forkedVersions.IsChain (txt "prediction") 1 4 [1, 2, 4] := by
    refine ⟨rfl, ?_, rfl⟩
    simp only [List.isChain_cons_cons, List.isChain_singleton, and_true, Edge]
    decide
  obtain ⟨path, rfl, -⟩ := found ⟨_, chain⟩
  have stuck : Loop.Returns (forkedVersions.extendPath (txt "prediction") 4) ([1], 1) none := ⟨2, by decide⟩
  cases Loop.Returns.unique ⟨fuel, returned⟩ stuck

end SchemaVersioner

end Senex.Antifragility
