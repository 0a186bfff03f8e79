import Senex.Foundation.JsonAscii
import Senex.Foundation.PyJson

/-! # ASCII JSON documents

What `json.loads` reads where `json.dumps` wrote with its escapes: a text of Unicode characters, and lists and
dictionaries of what is read back (`loads_readsAs`).
-/

namespace Senex.PyJson

open Text Json

/-- Where the text of the document stands, the value is read. -/
structure ReadsAs (j : Json) (v : PyValue) : Prop where
  read : ∀ fuel rest, (render asciiQuote j).length ≤ fuel → readValue fuel (render asciiQuote j ++ rest) = some (v, rest)
  head : ∃ c rest, render asciiQuote j = c :: rest ∧ isJsonSpace c = false ∧ c ≠ 93

theorem readsAs_str {s : Text} (unicode : IsUnicode s) : ReadsAs (.str s) (.str s) where
  read := by
    intro fuel rest enough
    simp only [render, List.cons_append, List.length_cons] at enough
    obtain ⟨fuel, rfl⟩ : ∃ n, fuel = n + 1 := ⟨fuel - 1, by omega⟩
    have body := scanString_asciiQuote unicode rest
    rw [readValue]
    simp only [render, List.cons_append, List.append_assoc, List.nil_append]
    rw [skipSpace_cons _ (by decide)]
    simp only [if_true, body, Option.map_some]
  head := ⟨34, _, rfl, by decide⟩

private theorem readItems_readsAs {items : List Json} {values : List PyValue} (filled : items ≠ [])
    (each : List.Forall₂ ReadsAs items values) {fuel : Nat} (enough : (renderItems asciiQuote items).length + 1 ≤ fuel)
    (rest : Text) : readItems fuel (renderItems asciiQuote items ++ 93 :: rest) = some (values, rest) := by
  induction each generalizing fuel with
  | nil => exact absurd rfl filled
  | @cons item value items values first each ih =>
      obtain ⟨fuel, rfl⟩ : ∃ n, fuel = n + 1 := ⟨fuel - 1, by omega⟩
      cases each with
      | nil =>
          rw [renderItems] at enough ⊢
          rw [readItems, first.read fuel _ (by omega)]
          simp [skipSpace_cons rest (show isJsonSpace 93 = false by decide)]
      | @cons next nextValue items values second each =>
          simp only [renderItems, List.length_append, List.length_cons] at enough
          have later := ih (List.cons_ne_nil _ _) (show _ ≤ fuel by omega)
          rw [renderItems, List.append_assoc, List.cons_append, readItems, first.read fuel _ (by omega)]
          simp [skipSpace_cons _ (show isJsonSpace 44 = false by decide), later]

theorem readsAs_arr {items : List Json} {values : List PyValue} (each : List.Forall₂ ReadsAs items values) :
    ReadsAs (.arr items) (.list values) where
  read := by
    intro fuel rest enough
    simp only [render, List.cons_append, List.length_append, List.length_cons, List.length_nil] at enough
    obtain ⟨fuel, rfl⟩ : ∃ n, fuel = n + 1 := ⟨fuel - 1, by omega⟩
    rw [readValue]
    simp only [render, List.cons_append, List.append_assoc, List.nil_append]
    rw [skipSpace_cons _ (by decide)]
    simp only [show (91 : Nat) ≠ 34 from by decide, show (91 : Nat) ≠ 123 from by decide, if_false, if_true]
    cases each with
    | nil => rw [renderItems, List.nil_append, expect_cons _ (by decide)]
    | @cons item value items values first each =>
        have read := readItems_readsAs (List.cons_ne_nil _ _) (.cons first each) (show _ ≤ fuel by omega) rest
        obtain ⟨c, tail, shape, solid, other⟩ := first.head
        have opened : expect 93 (renderItems asciiQuote (item :: items) ++ 93 :: rest) = none := by
          cases items <;> simp only [renderItems, shape, List.cons_append] <;> exact expect_ne _ solid other
        rw [opened]
        simp only [read, Option.map_some]
  head := ⟨91, _, rfl, by decide⟩

/-- A member whose key and value are read. -/
def MemberReadsAs (m : Text × Json) (n : Text × PyValue) : Prop := m.1 = n.1 ∧ IsUnicode m.1 ∧ ReadsAs m.2 n.2

private theorem readMembers_readsAs {members : List (Text × Json)} {values : List (Text × PyValue)} (filled : members ≠ [])
    (each : List.Forall₂ MemberReadsAs members values) {fuel : Nat}
    (enough : (renderMembers asciiQuote members).length + 1 ≤ fuel) (rest : Text) (acc : List (Text × PyValue)) :
    readMembers fuel (renderMembers asciiQuote members ++ 125 :: rest) acc =
      some (values.foldl (fun acc m => insert m.1 m.2 acc) acc, rest) := by
  induction each generalizing fuel acc with
  | nil => exact absurd rfl filled
  | @cons member entry members values first each ih =>
      obtain ⟨fuel, rfl⟩ : ∃ n, fuel = n + 1 := ⟨fuel - 1, by omega⟩
      obtain ⟨key, value⟩ := member
      obtain ⟨own, result⟩ := entry
      obtain ⟨rfl, unicode, here⟩ := first
      have read (more : Text) (left : (render asciiQuote value).length ≤ fuel) :
          readValue fuel (render asciiQuote value ++ more) = some (result, more) := here.read fuel more left
      have opening (more : Text) : (expect 34 (34 :: (asciiQuote key ++ 34 :: 58 :: more))).bind
          (scanString true) = some (key, 58 :: more) := by
        rw [expect_cons _ (by decide), Option.bind_some, scanString_asciiQuote unicode]
      cases each with
      | nil =>
          simp only [renderMembers, List.cons_append, List.append_assoc, List.length_append, List.length_cons] at enough ⊢
          rw [readMembers, opening]
          simp [expect_cons _ (show isJsonSpace 58 = false by decide), read (125 :: rest) (by omega),
            skipSpace_cons rest (show isJsonSpace 125 = false by decide)]
      | @cons next nextEntry members values second each =>
          simp only [renderMembers, List.cons_append, List.append_assoc, List.length_append, List.length_cons] at enough
          have later := ih (List.cons_ne_nil _ _) (show _ ≤ fuel by omega) (insert key result acc)
          simp only [renderMembers, List.cons_append, List.append_assoc]
          rw [readMembers, opening]
          simp [expect_cons _ (show isJsonSpace 58 = false by decide), read _ (by omega),
            skipSpace_cons _ (show isJsonSpace 44 = false by decide), later]

theorem readsAs_obj {members : List (Text × Json)} {values : List (Text × PyValue)}
    (each : List.Forall₂ MemberReadsAs members values) (sorted : Sorted values) :
    ReadsAs (.obj members) (.dict values) where
  read := by
    intro fuel rest enough
    simp only [render, List.cons_append, List.length_append, List.length_cons, List.length_nil] at enough
    obtain ⟨fuel, rfl⟩ : ∃ n, fuel = n + 1 := ⟨fuel - 1, by omega⟩
    rw [readValue]
    simp only [render, List.cons_append, List.append_assoc, List.nil_append]
    rw [skipSpace_cons _ (by decide)]
    simp only [show (123 : Nat) ≠ 34 from by decide, if_false, if_true]
    cases each with
    | nil => rw [renderMembers, List.nil_append, expect_cons _ (by decide)]
    | @cons member entry members values first each =>
        have read := readMembers_readsAs (List.cons_ne_nil _ _) (.cons first each) (show _ ≤ fuel by omega) rest []
        have opened : expect 125 (renderMembers asciiQuote (member :: members) ++ 125 :: rest) = none := by
          obtain ⟨key, value⟩ := member
          cases members <;> simp only [renderMembers, List.cons_append] <;>
            exact expect_ne _ (by decide) (by decide)
        have whole := foldl_insert_sorted [] (entry :: values) sorted
        rw [opened]
        simp only [read, Option.map_some, whole, List.nil_append]
  head := ⟨123, _, rfl, by decide⟩

/-- A whole text, white space behind it. -/
theorem loads_readsAs {j : Json} {v : PyValue} (reads : ReadsAs j v) {trail : Text} (blank : skipSpace trail = []) :
    loads (render asciiQuote j ++ trail) = some v := by
  have whole := reads.read ((render asciiQuote j ++ trail).length + 1) trail (by simp; omega)
  simp only [loads, whole, blank, if_true]

end Senex.PyJson
