import Senex.Foundation.JsonFields
import Senex.T0Audit.Payload

/-! # Contamination

The scan for future fields finds one exactly when some future key carries a meaningful value at any
depth, and what scrubbing leaves is the document without the members under such keys.
-/

namespace Senex.T0Audit

open Text

/-- Some future key carries a meaningful value, at any depth. -/
def Contaminated (source : Json) : Prop :=
  ∃ key value, source.Carries key value ∧ isFutureKey key = true ∧ hasMeaningfulValue value = true

theorem contaminated_obj {members : List (Text × Json)} :
    Contaminated (.obj members) ↔ ∃ m ∈ members,
      (isFutureKey m.1 && hasMeaningfulValue m.2) = true ∨ Contaminated m.2 := by
  constructor
  · rintro ⟨key, value, carries, future, meaningful⟩
    obtain ⟨m, inside, rfl | below⟩ := Json.carries_obj.mp carries
    · exact ⟨_, inside, Or.inl (by simp [future, meaningful])⟩
    · exact ⟨m, inside, Or.inr ⟨key, value, below, future, meaningful⟩⟩
  · rintro ⟨m, inside, here | ⟨key, value, below, future, meaningful⟩⟩
    · obtain ⟨future, meaningful⟩ := (Bool.and_eq_true _ _).mp here
      exact ⟨m.1, m.2, .here inside, future, meaningful⟩
    · exact ⟨key, value, .member inside below, future, meaningful⟩

theorem contaminated_arr {items : List Json} :
    Contaminated (.arr items) ↔ ∃ child ∈ items, Contaminated child := by
  constructor
  · rintro ⟨key, value, carries, future⟩
    obtain ⟨child, inside, below⟩ := Json.carries_arr.mp carries
    exact ⟨child, inside, key, value, below, future⟩
  · rintro ⟨child, inside, key, value, below, future⟩
    exact ⟨key, value, .item inside below, future⟩

/-! ## The scan -/

mutual
/-- The scan finds nothing just in a document that is not contaminated. -/
theorem findContamination_eq_none_iff (path : List Text) (j : Json) :
    findContamination path j = none ↔ ¬Contaminated j := by
  cases j with
  | obj members =>
      rw [findContamination, findInMembers_eq_none_iff, contaminated_obj]
      simp only [not_exists, not_and]
  | arr items =>
      rw [findContamination, findInItems_eq_none_iff, contaminated_arr]
      simp only [not_exists, not_and]
  | _ => exact ⟨fun _ ⟨_, _, carries, _⟩ => (nomatch carries), fun _ => rfl⟩

private theorem findInMembers_eq_none_iff (path : List Text) (members : List (Text × Json)) :
    findInMembers path members = none ↔
      ∀ m ∈ members, ¬((isFutureKey m.1 && hasMeaningfulValue m.2) = true ∨ Contaminated m.2) := by
  cases members with
  | nil => simp [findInMembers]
  | cons m members =>
      obtain ⟨key, child⟩ := m
      cases here : isFutureKey key && hasMeaningfulValue child with
      | true =>
          refine ⟨fun none_ => ?_, fun plain => absurd (Or.inl here) (plain (key, child) (.head _))⟩
          rw [findInMembers, if_pos here] at none_
          cases none_
      | false =>
          simp only [findInMembers, here, Bool.false_eq_true, if_false, Option.or_eq_none_iff,
            findContamination_eq_none_iff _ child, findInMembers_eq_none_iff path members, List.forall_mem_cons,
            false_or]

private theorem findInItems_eq_none_iff (path : List Text) (idx : Nat) (items : List Json) :
    findInItems path idx items = none ↔ ∀ child ∈ items, ¬Contaminated child := by
  cases items with
  | nil => simp [findInItems]
  | cons child items =>
      simp only [findInItems, Option.or_eq_none_iff, findContamination_eq_none_iff _ child,
        findInItems_eq_none_iff path (idx + 1) items, List.forall_mem_cons]
end

theorem refuseContamination_of_clean {source : Json} (clean : ¬Contaminated source) :
    refuseContamination source = .ok () := by
  rw [refuseContamination, (findContamination_eq_none_iff [] source).mpr clean]

theorem refuseContamination_of_contaminated {source : Json} (contaminated : Contaminated source) :
    ∃ message, refuseContamination source = raise .outcomeContaminationError message := by
  cases found : findContamination [] source with
  | none => exact absurd contaminated ((findContamination_eq_none_iff [] source).mp found)
  | some path =>
      rw [refuseContamination, found]
      exact ⟨_, rfl⟩

mutual
/-- No member of the document has a future key. -/
theorem noFuture_iff (j : Json) :
    NoFuture j ↔ ∀ key value, j.Carries key value → isFutureKey key = false := by
  cases j with
  | obj members =>
      rw [NoFuture, noFutureMembers_iff_carries]
      constructor
      · intro plain key value carries
        obtain ⟨m, inside, rfl | below⟩ := Json.carries_obj.mp carries
        · exact (plain _ inside).1
        · exact (plain m inside).2 key value below
      · rintro plain ⟨k, child⟩ inside
        exact ⟨plain k child (.here inside), fun key value below => plain key value (.member inside below)⟩
  | arr items =>
      rw [NoFuture, noFutureItems_iff_carries]
      constructor
      · intro plain key value carries
        obtain ⟨child, inside, below⟩ := Json.carries_arr.mp carries
        exact plain child inside key value below
      · exact fun plain child inside key value below => plain key value (.item inside below)
  | _ => exact ⟨fun _ _ _ carries => (nomatch carries), fun _ => trivial⟩

private theorem noFutureMembers_iff_carries (members : List (Text × Json)) :
    NoFutureMembers members ↔ ∀ m ∈ members, isFutureKey m.1 = false ∧
      ∀ key value, m.2.Carries key value → isFutureKey key = false := by
  cases members with
  | nil => simp [NoFutureMembers]
  | cons m members =>
      obtain ⟨key, child⟩ := m
      rw [NoFutureMembers, noFuture_iff child, noFutureMembers_iff_carries members, List.forall_mem_cons,
        and_assoc]

private theorem noFutureItems_iff_carries (items : List Json) :
    NoFutureItems items ↔ ∀ child ∈ items, ∀ key value, child.Carries key value → isFutureKey key = false := by
  cases items with
  | nil => simp [NoFutureItems]
  | cons child items =>
      rw [NoFutureItems, noFuture_iff child, noFutureItems_iff_carries items, List.forall_mem_cons]
end

/-! ## Scrubbing and fields -/

theorem get?_scrub {key : Text} (plain : isFutureKey key = false) (j : Json) :
    (scrubFutureFields j).get? key = (j.get? key).map scrubFutureFields := by
  cases j with
  | obj members =>
      simp only [scrubFutureFields, Json.get?]
      induction members with
      | nil => rfl
      | cons m members ih =>
          obtain ⟨k, child⟩ := m
          by_cases same : key = k
          · subst same
            simp [scrubMembers, plain, Json.lookup]
          · rw [scrubMembers, Json.lookup, if_neg same, ← ih]
            split
            · rfl
            · rw [Json.lookup, if_neg same]
  | _ => rfl

theorem isObject_scrub (j : Json) : (scrubFutureFields j).isObject = j.isObject := by
  cases j <;> rfl

theorem scrub_eq_null {j : Json} : scrubFutureFields j = .null ↔ j = .null := by
  cases j <;> simp [scrubFutureFields]

theorem objectOrEmpty_scrub (j : Json) : scrubFutureFields (objectOrEmpty j) = objectOrEmpty (scrubFutureFields j) := by
  rw [objectOrEmpty, objectOrEmpty, isObject_scrub]
  cases j.isObject <;> rfl

theorem scrubMembers_eq (members : List (Text × Json)) :
    scrubMembers members =
      (members.filter fun m => !isFutureKey m.1).map fun m => (m.1, scrubFutureFields m.2) := by
  induction members with
  | nil => rfl
  | cons m members ih =>
      obtain ⟨key, child⟩ := m
      cases future : isFutureKey key <;> simp [scrubMembers, future, ih]

/-- The members are scrubbed before or after they are put in order. -/
theorem scrub_ofMembers (members : List (Text × Json)) :
    scrubFutureFields (.ofMembers members) = .ofMembers (scrubMembers members) := by
  have mapped (key : Text) (value : Json) (acc : List (Text × Json)) :
      (Json.insert key value acc).map (fun m => (m.1, scrubFutureFields m.2)) =
        Json.insert key (scrubFutureFields value) (acc.map fun m => (m.1, scrubFutureFields m.2)) := by
    induction acc with
    | nil => rfl
    | cons m acc ih =>
        simp only [Json.insert, List.map_cons]
        split
        · rfl
        · split
          · rfl
          · rw [List.map_cons, ih]
  have fold (members acc : List (Text × Json)) (sorted : Json.Sorted acc) :
      scrubMembers (members.foldl (fun acc m => Json.insert m.1 m.2 acc) acc) =
        (scrubMembers members).foldl (fun acc m => Json.insert m.1 m.2 acc) (scrubMembers acc) := by
    induction members generalizing acc with
    | nil => rfl
    | cons m members ih =>
        obtain ⟨key, child⟩ := m
        rw [List.foldl_cons, ih _ (Json.sorted_insert _ _ sorted), scrubMembers_eq (Json.insert key child acc),
          Json.filter_insert (fun key => !isFutureKey key) _ _ sorted]
        cases future : isFutureKey key with
        | true => simp [scrubMembers, future, scrubMembers_eq acc]
        | false => simp [scrubMembers, future, mapped, scrubMembers_eq acc]
  exact congrArg Json.obj (fold members [] List.Pairwise.nil)

end Senex.T0Audit
