import Mathlib.Data.List.Induction
import Senex.Foundation.Dict
import Senex.Foundation.Sorting

/-! # The earliest item of each key

A loop that keeps an item of each key, and replaces it by an earlier one only.  What it keeps is the
first of the earliest items (`mem_kept`).  A selection of what is kept, sorted by a key, is a function
of the items, not of their order, exactly if no tie decides it (`select_perm_iff`).
-/

namespace Senex.Earliest

variable {α κ τ σ : Type} [LinearOrder τ]

section

variable (key : α → κ) (time : α → τ)

/-- One item of the loop. -/
def step [DecidableEq κ] (kept : Dict κ α) (item : α) : Dict κ α :=
  match kept.get? (key item) with
  | none => kept.set (key item) item
  | some existing => if time item < time existing then kept.set (key item) item else kept

/-- What the loop keeps. -/
def kept [DecidableEq κ] (items : List α) : Dict κ α := items.foldl (step key time) Dict.empty

/-- The item is the first of the earliest ones of its key. -/
def First (items : List α) (o : α) : Prop :=
  ∃ front back, items = front ++ o :: back ∧ (∀ x ∈ front, key x = key o → time o < time x) ∧
    ∀ x ∈ back, key x = key o → time o ≤ time x

/-- The item is one of the earliest ones of its key. -/
def IsEarliest (items : List α) (o : α) : Prop := ∀ x ∈ items, key x = key o → time o ≤ time x

/-- The kept items in the order of a key, those of a band. -/
def select [DecidableEq κ] [LinearOrder σ] (sortKey : α → σ) (band : α → Bool) (items : List α) : List α :=
  (sortedBy sortKey (kept key time items).values).filter band

end

variable {key : α → κ} {time : α → τ}

theorem First.mem {items : List α} {o : α} (first : First key time items o) : o ∈ items := by
  obtain ⟨front, back, rfl, -, -⟩ := first
  simp

theorem First.isEarliest {items : List α} {o : α} (first : First key time items o) :
    IsEarliest key time items o := by
  obtain ⟨front, back, rfl, before, behind⟩ := first
  intro x member same
  rcases List.mem_append.mp member with inside | inside
  · exact (before x inside same).le
  · rcases List.mem_cons.mp inside with rfl | inside
    · exact le_rfl
    · exact behind x inside same

theorem first_append_singleton {items : List α} {x o : α} :
    First key time (items ++ [x]) o ↔
      (First key time items o ∧ (key x = key o → time o ≤ time x)) ∨
        (o = x ∧ ∀ y ∈ items, key y = key x → time x < time y) := by
  constructor
  · rintro ⟨front, back, split, before, behind⟩
    rcases List.eq_nil_or_concat back with rfl | ⟨rest, last, rfl⟩
    · obtain ⟨rfl, same⟩ := List.append_inj' split rfl
      obtain rfl := List.cons.inj same |>.1
      exact .inr ⟨rfl, before⟩
    · rw [List.concat_eq_append, ← List.cons_append, ← List.append_assoc] at split
      obtain ⟨rfl, same⟩ := List.append_inj' split rfl
      obtain rfl := List.cons.inj same |>.1
      exact .inl ⟨⟨front, rest, rfl, before, fun y inside => behind y (by simp [inside])⟩, behind x (by simp)⟩
  · rintro (⟨⟨front, back, rfl, before, behind⟩, later⟩ | ⟨rfl, all⟩)
    · refine ⟨front, back ++ [x], by simp, before, fun y member => ?_⟩
      rcases List.mem_append.mp member with inside | new
      · exact behind y inside
      · exact List.mem_singleton.mp new ▸ later
    · exact ⟨items, [], rfl, all, by simp⟩

/-- Of one key one item is the first. -/
theorem First.unique {items : List α} {o o' : α} (first : First key time items o) (first' : First key time items o')
    (same : key o = key o') : o = o' := by
  induction items using List.reverseRecOn with
  | nil => cases first.mem
  | append_singleton items x ih =>
      rcases first_append_singleton.mp first with ⟨old, later⟩ | ⟨rfl, all⟩
      · rcases first_append_singleton.mp first' with ⟨old', -⟩ | ⟨rfl, all'⟩
        · exact ih old old'
        · exact absurd (all' o old.mem same) (not_lt.mpr (later same.symm))
      · rcases first_append_singleton.mp first' with ⟨old', later'⟩ | ⟨rfl, -⟩
        · exact absurd (all o' old'.mem same.symm) (not_lt.mpr (later' same))
        · rfl

theorem exists_first {items : List α} {x : α} (member : x ∈ items) : ∃ o, First key time items o ∧ key o = key x := by
  induction items using List.reverseRecOn generalizing x with
  | nil => cases member
  | append_singleton items y ih =>
      have newest : ∃ o, First key time (items ++ [y]) o ∧ key o = key y := by
        by_cases known : ∃ z ∈ items, key z = key y
        · obtain ⟨z, inside, same⟩ := known
          obtain ⟨o, first, same'⟩ := ih inside
          rw [same] at same'
          rcases lt_or_ge (time y) (time o) with earlier | later
          · refine ⟨y, first_append_singleton.mpr (.inr ⟨rfl, fun w held sameKey => ?_⟩), rfl⟩
            exact earlier.trans_le (first.isEarliest w held (sameKey.trans same'.symm))
          · exact ⟨o, first_append_singleton.mpr (.inl ⟨first, fun _ => later⟩), same'⟩
        · exact ⟨y, first_append_singleton.mpr (.inr ⟨rfl, fun w held same => absurd ⟨w, held, same⟩ known⟩), rfl⟩
      rcases List.mem_append.mp member with inside | new
      · obtain ⟨o, first, same⟩ := ih inside
        by_cases other : key y = key o
        · rw [← same, ← other]
          exact newest
        · exact ⟨o, first_append_singleton.mpr (.inl ⟨first, fun equal => absurd equal other⟩), same⟩
      · obtain rfl := List.mem_singleton.mp new
        exact newest

/-- No tie decides a selection: an earliest item of the band has no other one beside it, and no
    two items of the selection share the key of the sort. -/
def TieFree (key : α → κ) (time : α → τ) (sortKey : α → σ) (band : α → Bool) (items : List α) : Prop :=
  ∀ a ∈ items, ∀ b ∈ items, IsEarliest key time items a → IsEarliest key time items b → band a = true →
    (key a = key b → a = b) ∧ (sortKey a = sortKey b → band b = true → a = b)

variable {sortKey : α → σ} {band : α → Bool}

/-- Without ties the first of the earliest items is the only one. -/
theorem TieFree.first_iff {items : List α} (free : TieFree key time sortKey band items) {o : α}
    (inside : band o = true) : First key time items o ↔ o ∈ items ∧ IsEarliest key time items o := by
  constructor
  · exact fun first => ⟨first.mem, first.isEarliest⟩
  · rintro ⟨member, earliest⟩
    obtain ⟨first, found, same⟩ : ∃ a, First key time items a ∧ key a = key o := exists_first member
    obtain rfl := (free o member first found.mem earliest found.isEarliest inside).1 same.symm
    exact found

theorem isEarliest_perm {items items' : List α} (perm : items.Perm items') {o : α} :
    IsEarliest key time items o ↔ IsEarliest key time items' o := by
  simp only [IsEarliest, perm.mem_iff]

theorem TieFree.perm {items items' : List α} (free : TieFree key time sortKey band items)
    (perm : items.Perm items') : TieFree key time sortKey band items' := by
  intro a member b member' first second
  exact free a (perm.mem_iff.mpr member) b (perm.mem_iff.mpr member') ((isEarliest_perm perm).mpr first)
    ((isEarliest_perm perm).mpr second)

/-- The items with one of them moved to the front. -/
theorem exists_front {items : List α} {a : α} (member : a ∈ items) (earliest : IsEarliest key time items a) :
    ∃ rest, items.Perm (a :: rest) ∧ IsEarliest key time rest a ∧ First key time (a :: rest) a := by
  obtain ⟨front, back, rfl⟩ := List.append_of_mem member
  have later : IsEarliest key time (front ++ back) a := fun x inside => earliest x (by
    rcases List.mem_append.mp inside with first | last
    · exact List.mem_append_left _ first
    · exact List.mem_append_right _ (.tail _ last))
  exact ⟨front ++ back, List.perm_middle, later, [], front ++ back, rfl, by simp, later⟩

/-- Items that come later than an earlier one of their key change no selection, wherever they
    are put: `true` marks the items that were there before. -/
theorem first_filter_iff {marked : List (Bool × α)} {o : α}
    (later : ∀ x ∈ marked, x.1 = false → key x.2 = key o →
      ∃ a, (true, a) ∈ marked ∧ key a = key o ∧ time a < time x.2) :
    First key time (marked.map Prod.snd) o ↔ First key time ((marked.filter Prod.fst).map Prod.snd) o := by
  constructor
  · rintro ⟨front, back, split, before, behind⟩
    obtain ⟨frontMarked, rest, rfl, rfl, shape⟩ := List.map_eq_append_iff.mp split
    obtain ⟨⟨mark, item⟩, backMarked, rfl, rfl, rfl⟩ := List.map_eq_cons_iff.mp shape
    cases mark with
    | true =>
        refine ⟨(frontMarked.filter Prod.fst).map Prod.snd, (backMarked.filter Prod.fst).map Prod.snd, by simp,
          fun x member => ?_, fun x member => ?_⟩
        · exact before x ((List.filter_sublist.map Prod.snd).subset member)
        · exact behind x ((List.filter_sublist.map Prod.snd).subset member)
    | false =>
        obtain ⟨a, held, sameKey, earlier⟩ := later (false, item) (by simp) rfl rfl
        have first : First key time ((frontMarked ++ (false, item) :: backMarked).map Prod.snd) item :=
          ⟨frontMarked.map Prod.snd, backMarked.map Prod.snd, by simp, before, behind⟩
        exact absurd (first.isEarliest a (List.mem_map_of_mem (f := Prod.snd) held) sameKey) (not_le.mpr earlier)
  · rintro ⟨front, back, split, before, behind⟩
    obtain ⟨frontKept, rest, shape, rfl, shape'⟩ := List.map_eq_append_iff.mp split
    obtain ⟨⟨mark, item⟩, backKept, rfl, rfl, rfl⟩ := List.map_eq_cons_iff.mp shape'
    have first : First key time ((marked.filter Prod.fst).map Prod.snd) item := ⟨_, _, split, before, behind⟩
    have added : ∀ x ∈ marked, x.1 = false → key x.2 = key item → time item < time x.2 := by
      intro x member new same
      obtain ⟨a, held, sameKey, earlier⟩ := later x member new same
      have old : a ∈ (marked.filter Prod.fst).map Prod.snd :=
        List.mem_map.mpr ⟨(true, a), List.mem_filter.mpr ⟨held, rfl⟩, rfl⟩
      exact (first.isEarliest a old sameKey).trans_lt earlier
    obtain ⟨frontMarked, restMarked, rfl, rfl, shape''⟩ := List.filter_eq_append_iff.mp shape
    obtain ⟨passed, backMarked, rfl, rejected, marked, rfl⟩ := List.filter_eq_cons_iff.mp shape''
    refine ⟨(frontMarked ++ passed).map Prod.snd, backMarked.map Prod.snd, by simp, ?_, ?_⟩
    · intro x member same
      obtain ⟨⟨mark', y⟩, inside, rfl⟩ := List.mem_map.mp member
      cases mark' with
      | false => exact added (false, y) (by grind) rfl same
      | true =>
          have kept : (true, y) ∈ frontMarked := (List.mem_append.mp inside).resolve_right fun there =>
            rejected _ there rfl
          exact before y (List.mem_map.mpr ⟨(true, y), List.mem_filter.mpr ⟨kept, rfl⟩, rfl⟩) same
    · intro x member same
      obtain ⟨⟨mark', y⟩, inside, rfl⟩ := List.mem_map.mp member
      cases mark' with
      | false => exact (added (false, y) (by grind) rfl same).le
      | true => exact behind y (List.mem_map.mpr ⟨(true, y), List.mem_filter.mpr ⟨inside, rfl⟩, rfl⟩) same

section

variable [DecidableEq κ] [LinearOrder σ]

theorem kept_append_singleton (items : List α) (x : α) :
    kept key time (items ++ [x]) = step key time (kept key time items) x := by
  rw [kept, List.foldl_append]
  rfl

theorem get?_step_of_ne {d : Dict κ α} {x : α} {k : κ} (other : k ≠ key x) :
    (step key time d x).get? k = d.get? k := by
  rw [step]
  split
  · exact Dict.get?_set_of_ne other
  · split
    · exact Dict.get?_set_of_ne other
    · rfl

/-- The loop keeps the first of the earliest items of a key. -/
theorem get?_kept {items : List α} {k : κ} {o : α} :
    (kept key time items).get? k = some o ↔ First key time items o ∧ key o = k := by
  induction items using List.reverseRecOn generalizing o with
  | nil =>
      constructor
      · intro found
        cases found
      · rintro ⟨first, -⟩
        cases first.mem
  | append_singleton items x ih =>
      rw [kept_append_singleton, first_append_singleton]
      by_cases same : k = key x
      · subst same
        cases present : (kept key time items).get? (key x) with
        | none =>
            rw [step, present, Dict.get?_set_self, Option.some.injEq]
            have fresh : ∀ y ∈ items, key y ≠ key x := by
              intro y member equal
              obtain ⟨first, found, equal'⟩ : ∃ o, First key time items o ∧ key o = key y := exists_first member
              rw [ih.mpr ⟨found, equal'.trans equal⟩] at present
              cases present
            constructor
            · rintro rfl
              exact ⟨.inr ⟨rfl, fun y member equal => absurd equal (fresh y member)⟩, rfl⟩
            · rintro ⟨⟨first, -⟩ | ⟨rfl, -⟩, equal⟩
              · exact absurd equal (fresh o first.mem)
              · rfl
        | some existing =>
            obtain ⟨first, equal⟩ := ih.mp present
            rw [step, present]
            simp only
            split
            · rename_i earlier
              rw [Dict.get?_set_self, Option.some.injEq]
              constructor
              · rintro rfl
                refine ⟨.inr ⟨rfl, fun y member same => ?_⟩, rfl⟩
                exact earlier.trans_le (first.isEarliest y member (same.trans equal.symm))
              · rintro ⟨⟨first', later⟩ | ⟨rfl, -⟩, same⟩
                · obtain rfl := first.unique first' (equal.trans same.symm)
                  exact absurd (later same.symm) (not_le.mpr earlier)
                · rfl
            · rename_i notEarlier
              rw [present, Option.some.injEq]
              constructor
              · rintro rfl
                exact ⟨.inl ⟨first, fun _ => not_lt.mp notEarlier⟩, equal⟩
              · rintro ⟨⟨first', -⟩ | ⟨rfl, all⟩, same⟩
                · exact first.unique first' (equal.trans same.symm)
                · exact absurd (all existing first.mem equal) notEarlier
      · rw [get?_step_of_ne same, ih]
        grind

/-! ## The kept items -/

theorem mem_kept {items : List α} {o : α} : o ∈ (kept key time items).values ↔ First key time items o := by
  constructor
  · intro member
    obtain ⟨⟨k, v⟩, inside, rfl⟩ := List.mem_map.mp member
    exact (get?_kept.mp (Dict.get?_of_mem inside)).1
  · intro first
    exact Dict.mem_values_of_get? (get?_kept.mpr ⟨first, rfl⟩)

theorem pairwise_kept (items : List α) : (kept key time items).values.Pairwise fun a b => key a ≠ key b := by
  have keys := List.pairwise_map.mp (kept key time items).nodup
  refine List.pairwise_map.mpr (keys.imp_of_mem fun {a b} member member' different => ?_)
  rw [(get?_kept.mp (Dict.get?_of_mem member)).2, (get?_kept.mp (Dict.get?_of_mem member')).2]
  exact different

/-- An earliest item that comes first stays first. -/
theorem head_kept {o : α} {rest : List α} (earliest : IsEarliest key time rest o) :
    ∃ others, (kept key time (o :: rest)).values = o :: others := by
  have keeps (d : Dict κ α) (shape : ∃ others, d.items = (key o, o) :: others) :
      ∃ others, (rest.foldl (step key time) d).items = (key o, o) :: others := by
    induction rest generalizing d with
    | nil => exact shape
    | cons x rest ih =>
        refine ih (fun y member => earliest y (.tail _ member)) _ ?_
        obtain ⟨others, shape⟩ := shape
        have head : d.get? (key o) = some o := Dict.get?_of_mem (by simp [shape])
        rw [step]
        by_cases same : key x = key o
        · rw [same, head]
          have later : ¬time x < time o := not_lt.mpr (earliest x (.head _) same)
          simp [later, shape]
        · have moved : ∃ others, (d.set (key x) x).items = (key o, o) :: others :=
            ⟨Dict.assign (key x) x others, by simp [Dict.set, Dict.assign, shape, Ne.symm same]⟩
          split
          · exact moved
          · split
            · exact moved
            · exact ⟨others, shape⟩
  obtain ⟨others, shape⟩ := keeps (step key time Dict.empty o) ⟨[], rfl⟩
  exact ⟨others.map Prod.snd, by rw [Dict.values, kept, List.foldl_cons, shape, List.map_cons]⟩

/-! ## The selection -/

theorem mem_select {items : List α} {o : α} :
    o ∈ select key time sortKey band items ↔ First key time items o ∧ band o = true := by
  rw [select, List.mem_filter, mem_sortedBy, mem_kept]

theorem pairwise_select (items : List α) :
    (select key time sortKey band items).Pairwise fun a b => key a ≠ key b := by
  refine List.Pairwise.filter _ ?_
  exact ((sortedBy_perm sortKey _).pairwise_iff fun different => different.symm).mpr (pairwise_kept items)

theorem nodup_select (items : List α) : (select key time sortKey band items).Nodup :=
  (pairwise_select items).imp fun different same => different (congrArg key same)

/-- Without ties the order of the items does not matter. -/
theorem TieFree.select_eq {items items' : List α} (free : TieFree key time sortKey band items)
    (perm : items.Perm items') : select key time sortKey band items' = select key time sortKey band items := by
  have same : (select key time sortKey band items').Perm (select key time sortKey band items) := by
    refine (List.perm_ext_iff_of_nodup (nodup_select items') (nodup_select items)).mpr fun o => ?_
    rw [mem_select, mem_select]
    refine and_congr_left fun inside => ?_
    rw [free.first_iff inside, (free.perm perm).first_iff inside, perm.mem_iff, isEarliest_perm perm]
  have sorted (l : List α) : (select key time sortKey band l).Pairwise fun a b => sortKey a ≤ sortKey b :=
    (sorted_sortedBy _).filter _
  refine List.Perm.eq_of_pairwise (fun a b member member' le ge => ?_) (sorted items') (sorted items) same
  obtain ⟨first, inside⟩ := mem_select.mp (same.mem_iff.mp member)
  obtain ⟨first', inside'⟩ := mem_select.mp member'
  exact (free a first.mem b first'.mem first.isEarliest first'.isEarliest inside).2 (le_antisymm le ge) inside'

/-- In the selection nothing stands before the item at the front at its key of the sort. -/
theorem front_select {a : α} {rest : List α} (earliest : IsEarliest key time rest a) :
    (select key time sortKey band (a :: rest)).Pairwise (Precedes sortKey fun _ y => y ≠ a) := by
  obtain ⟨others, shape⟩ := head_kept earliest
  have unique : (kept key time (a :: rest)).values.Pairwise fun a b => key a ≠ key b := pairwise_kept (a :: rest)
  rw [shape, List.pairwise_cons] at unique
  have absent : ∀ y ∈ others, y ≠ a := fun y member same => unique.1 y member (same ▸ rfl)
  have input : (a :: others).Pairwise fun _ y => y ≠ a :=
    List.pairwise_cons.mpr ⟨absent, List.pairwise_iff_forall_sublist.mpr fun {x y} pair =>
      absent y (pair.subset (by simp))⟩
  rw [select, shape]
  exact (pairwise_sortedBy input).filter _

/-- The selection does not depend on the order exactly if no tie decides it. -/
theorem select_perm_iff {items : List α} :
    (∀ items', items.Perm items' → select key time sortKey band items' = select key time sortKey band items) ↔
      TieFree key time sortKey band items := by
  refine ⟨fun same => ?_, fun free items' perm => free.select_eq perm⟩
  intro a member b member' earliest earliest' inside
  obtain ⟨rest, perm, later, first⟩ := exists_front member earliest
  obtain ⟨rest', perm', later', first'⟩ := exists_front member' earliest'
  have selected : a ∈ select key time sortKey band items := by
    rw [← same _ perm]
    exact mem_select.mpr ⟨first, inside⟩
  have one (sameKey : key a = key b) : a = b := by
    rw [← same _ perm'] at selected
    exact (mem_select.mp selected).1.unique first' sameKey
  refine ⟨one, fun sameSort inside' => ?_⟩
  by_contra different
  have selected' : b ∈ select key time sortKey band items := by
    rw [← same _ perm']
    exact mem_select.mpr ⟨first', inside'⟩
  have order : (select key time sortKey band (a :: rest)).Pairwise _ := front_select later
  have order' : (select key time sortKey band (b :: rest')).Pairwise _ := front_select later'
  rw [same _ perm] at order
  rw [same _ perm'] at order'
  obtain ⟨front, back, shape⟩ := List.append_of_mem selected
  rw [shape] at order order' selected'
  rcases List.mem_append.mp selected' with before | behind
  · have precedes := (List.pairwise_append.mp order).2.2 b before a (.head _)
    rcases precedes with less | ⟨-, other⟩
    · exact absurd sameSort less.ne'
    · exact other rfl
  · rcases List.mem_cons.mp behind with rfl | behind
    · exact different rfl
    · have precedes := (List.pairwise_cons.mp (List.pairwise_append.mp order').2.1).1 b behind
      rcases precedes with less | ⟨-, other⟩
      · exact absurd sameSort less.ne
      · exact other rfl

end

end Senex.Earliest
