import Senex.Foundation.JsonText
import Senex.Foundation.LineLog

/-! # JSON documents as lines

`torn_line` is why a cut line is known from a whole one: no proper beginning of the text of an
object is JSON.
-/

namespace Senex

open Text

namespace Json

/-! ## Reading with more text behind -/

private theorem scanUnits_extend {t rest : Text} {units : List (Nat × Bool)}
    (scanned : scanUnits t = some (units, rest)) (more : Text) :
    scanUnits (t ++ more) = some (units, rest ++ more) := by
  -- a character or an escape that is scanned off `t` is scanned off `t ++ more` alike
  have tail {unit : Nat × Bool} {t : Text} {units : List (Nat × Bool)}
      (ih : ∀ {units : List (Nat × Bool)}, scanUnits t = some (units, rest) →
        scanUnits (t ++ more) = some (units, rest ++ more))
      (scanned : ((scanUnits t).map fun p => (unit :: p.1, p.2)) = some (units, rest)) :
      ((scanUnits (t ++ more)).map fun p => (unit :: p.1, p.2)) = some (units, rest ++ more) := by
    obtain ⟨⟨us, r⟩, here, same⟩ := Option.map_eq_some_iff.mp scanned
    simp only [Prod.mk.injEq] at same
    obtain ⟨rfl, rfl⟩ := same
    rw [ih here, Option.map_some]
  induction t using scanUnits.induct generalizing units with
  | case1 => cases scanned
  | case2 back =>
      rw [scanUnits_quote] at scanned
      cases scanned
      exact scanUnits_quote _
  | case3 => cases scanned
  | case4 a b c d back bad =>
      rw [scanUnits.eq_def] at scanned
      simp [bad] at scanned
  | case5 a b c d back unit escape _ ih =>
      rw [scanUnits_hex escape] at scanned
      simp only [List.cons_append]
      rw [scanUnits_hex escape]
      exact tail ih scanned
  | case6 back short =>
      rw [scanUnits.eq_def] at scanned
      simp only [show (92 : Nat) ≠ 34 by decide, if_false, if_true] at scanned
      cases scanned
  | case7 e back notHex bad =>
      rw [scanUnits.eq_def] at scanned
      simp [notHex, bad] at scanned
  | case8 e back notHex unit escape _ ih =>
      rw [scanUnits_simple notHex escape] at scanned
      simp only [List.cons_append]
      rw [scanUnits_simple notHex escape]
      exact tail ih scanned
  | case9 c back notQuote notEscape control =>
      rw [scanUnits.eq_def] at scanned
      simp [notQuote, notEscape, control] at scanned
  | case10 c back notQuote notEscape notControl ih =>
      rw [scanUnits_plain notQuote notEscape notControl] at scanned
      rw [List.cons_append, scanUnits_plain notQuote notEscape notControl]
      exact tail ih scanned

private theorem scanString_extend {join : Bool} {t s rest : Text}
    (scanned : scanString join t = some (s, rest)) (more : Text) :
    scanString join (t ++ more) = some (s, rest ++ more) := by
  obtain ⟨⟨units, r⟩, here, same⟩ := Option.map_eq_some_iff.mp scanned
  simp only [Prod.mk.injEq] at same
  obtain ⟨rfl, rfl⟩ := same
  simp only [scanString, scanUnits_extend here, Option.map_some]

private theorem skipSpace_extend {t rest : Text} {c : Nat} (skipped : skipSpace t = c :: rest)
    (more : Text) : skipSpace (t ++ more) = c :: (rest ++ more) := by
  induction t with
  | nil => cases skipped
  | cons d t ih =>
      simp only [skipSpace, List.cons_append, List.dropWhile_cons] at skipped ih ⊢
      split at skipped
      · rename_i space
        rw [if_pos space]
        exact ih skipped
      · rename_i solid
        cases skipped
        rw [if_neg solid]

private theorem expect_eq_some {c : Nat} {t rest : Text} :
    expect c t = some rest ↔ skipSpace t = c :: rest := by
  unfold expect
  cases skipSpace t with
  | nil => simp
  | cons d r =>
      by_cases same : d = c <;> simp [same]

private theorem expect_extend {c : Nat} {t rest : Text} (expected : expect c t = some rest) (more : Text) :
    expect c (t ++ more) = some (rest ++ more) :=
  expect_eq_some.mpr (skipSpace_extend (expect_eq_some.mp expected) more)

/-- Another character than the expected one stands there. -/
private theorem expect_extend_none {c d : Nat} {t rest : Text} (skipped : skipSpace t = d :: rest)
    (unexpected : expect c t = none) (more : Text) : expect c (t ++ more) = none := by
  have other : d ≠ c := by
    rintro rfl
    rw [expect_eq_some.mpr skipped] at unexpected
    cases unexpected
  simp only [expect, skipSpace_extend skipped more, if_neg other]

/-- White space or the character behind it ends a number. -/
private theorem delimited_of_skipSpace {c : Nat} {t rest : Text} (skipped : skipSpace t = c :: rest)
    (delimiter : c = 93 ∨ c = 44 ∨ c = 125) : t ≠ [] ∧ Delimited t := by
  cases t with
  | nil => cases skipped
  | cons d t =>
      refine ⟨List.cons_ne_nil _ _, delimited_cons ?_⟩
      simp only [skipSpace, List.dropWhile_cons] at skipped
      split at skipped
      · rename_i space
        simp only [isJsonSpace, Bool.or_eq_true, beq_iff_eq] at space
        simp only [isDigit, Bool.and_eq_false_iff, decide_eq_false_iff_not]
        omega
      · cases skipped
        simp only [isDigit, Bool.and_eq_false_iff, decide_eq_false_iff_not]
        omega

private theorem delimited_append {rest : Text} (nonempty : rest ≠ []) (stop : Delimited rest) (more : Text) :
    Delimited (rest ++ more) := by
  cases rest with
  | nil => exact absurd rfl nonempty
  | cons c rest => exact stop

private theorem dropLiteral_extend {literal t rest : Text} (dropped : dropLiteral literal t = some rest)
    (more : Text) : dropLiteral literal (t ++ more) = some (rest ++ more) := by
  simp only [dropLiteral] at dropped ⊢
  split at dropped
  · rename_i front
    obtain ⟨back, rfl⟩ := List.isPrefixOf_iff_prefix.mp front
    cases dropped
    have front' : literal.isPrefixOf (literal ++ back ++ more) = true :=
      List.isPrefixOf_iff_prefix.mpr ⟨back ++ more, by rw [List.append_assoc]⟩
    rw [if_pos front', List.append_assoc, List.drop_left, List.drop_left]
  · cases dropped

private theorem dropLiteral_head {c d : Nat} (literal rest : Text) (other : c ≠ d) :
    dropLiteral (d :: literal) (c :: rest) = none := by
  simp [dropLiteral, List.isPrefixOf, Ne.symm other]

private theorem head_of_dropLiteral {d : Nat} {literal t rest : Text}
    (dropped : dropLiteral (d :: literal) t = some rest) : ∃ u, t = d :: u := by
  simp only [dropLiteral] at dropped
  split at dropped
  · rename_i front
    obtain ⟨u, same⟩ := List.isPrefixOf_iff_prefix.mp front
    exact ⟨_, same.symm⟩
  · cases dropped

private theorem head_number {raw : Text} (number : IsNumber raw) :
    ∃ c t, raw = c :: t ∧ (c = 45 ∨ isDigit c = true) := by
  obtain ⟨sign, i, f, x, rfl, hsign, int, -⟩ := number
  rcases hsign with rfl | rfl
  · rcases int with rfl | ⟨c, ds, rfl, digit, -⟩
    · exact ⟨48, f ++ x, rfl, Or.inr rfl⟩
    · exact ⟨c, ds ++ f ++ x, by simp, Or.inr digit⟩
  · exact ⟨45, i ++ f ++ x, by simp, Or.inl rfl⟩

private theorem parseScalar_extend {t rest : Text} {v : Json} (read : parseScalar t = some (v, rest))
    (nonempty : rest ≠ []) (stop : Delimited rest) (more : Text) :
    parseScalar (t ++ more) = some (v, rest ++ more) := by
  unfold parseScalar at read
  split at read
  · rename_i back hit
    cases read
    simp only [parseScalar, dropLiteral_extend hit more]
  · rename_i back miss hit
    cases read
    have front := dropLiteral_extend hit more
    obtain ⟨u, whole⟩ := head_of_dropLiteral hit
    have other : dropLiteral (txt "true") (t ++ more) = none := by
      rw [whole]
      exact dropLiteral_head _ _ (by decide)
    simp only [parseScalar, front, other]
  · rename_i back miss₁ miss₂ hit
    cases read
    have front := dropLiteral_extend hit more
    obtain ⟨u, whole⟩ := head_of_dropLiteral hit
    have other₁ : dropLiteral (txt "true") (t ++ more) = none := by
      rw [whole]
      exact dropLiteral_head _ _ (by decide)
    have other₂ : dropLiteral (txt "false") (t ++ more) = none := by
      rw [whole]
      exact dropLiteral_head _ _ (by decide)
    simp only [parseScalar, front, other₁, other₂]
  · obtain ⟨⟨raw, r⟩, scanned, same⟩ := Option.map_eq_some_iff.mp read
    simp only [Prod.mk.injEq] at same
    obtain ⟨rfl, rfl⟩ := same
    obtain ⟨number, rfl⟩ := isNumber_scanNumber scanned
    obtain ⟨c, u, whole, head⟩ := head_number number
    have notLetter : c ≠ 116 ∧ c ≠ 102 ∧ c ≠ 110 := by
      simp only [isDigit, Bool.and_eq_true, decide_eq_true_eq] at head
      omega
    have literal (d : Nat) (back : Text) (other : c ≠ d) :
        dropLiteral (d :: back) (raw ++ (r ++ more)) = none := by
      rw [whole]
      exact dropLiteral_head _ _ other
    have t : dropLiteral (txt "true") (raw ++ (r ++ more)) = none := literal _ _ notLetter.1
    have f : dropLiteral (txt "false") (raw ++ (r ++ more)) = none := literal _ _ notLetter.2.1
    have n : dropLiteral (txt "null") (raw ++ (r ++ more)) = none := literal _ _ notLetter.2.2
    have scan := scanNumber_append number (delimited_append nonempty stop more)
    rw [List.append_assoc]
    simp only [parseScalar, t, f, n, scan, Option.map_some]

/-- What stops the reader behind a value: a string or a container by its own last character, any
    other value by what follows. -/
private def Stopped (v : Json) (rest : Text) : Prop :=
  (rest ≠ [] ∧ Delimited rest) ∨ v.isObject = true

private def ValueExtends (join : Bool) (fuel : Nat) : Prop :=
  ∀ t v rest more fuel', parseValue join fuel t = some (v, rest) → Stopped v rest → fuel ≤ fuel' →
    parseValue join fuel' (t ++ more) = some (v, rest ++ more)

private def ItemsExtend (join : Bool) (fuel : Nat) : Prop :=
  ∀ t items rest more fuel', parseItems join fuel t = some (items, rest) → fuel ≤ fuel' →
    parseItems join fuel' (t ++ more) = some (items, rest ++ more)

private def MembersExtend (join : Bool) (fuel : Nat) : Prop :=
  ∀ t acc members rest more fuel', parseMembers join fuel t acc = some (members, rest) →
    fuel ≤ fuel' → parseMembers join fuel' (t ++ more) acc = some (members, rest ++ more)

private theorem map_extend {α β : Type} {f : α → β} {first second : Option (α × Text)} {b : β}
    {rest more : Text} (extend_ : ∀ a r, first = some (a, r) → second = some (a, r ++ more))
    (read : (first.map fun p => (f p.1, p.2)) = some (b, rest)) :
    (second.map fun p => (f p.1, p.2)) = some (b, rest ++ more) := by
  obtain ⟨⟨a, r⟩, here, same⟩ := Option.map_eq_some_iff.mp read
  simp only [Prod.mk.injEq] at same
  obtain ⟨rfl, rfl⟩ := same
  rw [extend_ a r here, Option.map_some]

private theorem itemsExtend_succ {join : Bool} {fuel : Nat} (value : ValueExtends join fuel)
    (items : ItemsExtend join fuel) : ItemsExtend join (fuel + 1) := by
  intro t is rest more fuel' read enough
  obtain ⟨fuel', rfl⟩ : ∃ k, fuel' = k + 1 := ⟨fuel' - 1, by omega⟩
  unfold parseItems at read ⊢
  split at read
  · cases read
  rename_i item back first
  split at read
  · cases read
  rename_i c after skipped
  have delimiter : c = 93 ∨ c = 44 ∨ c = 125 := by
    by_contra none_
    simp only [not_or] at none_
    simp [none_.1, none_.2.1] at read
  have here := value t item back more fuel' first (Or.inl (delimited_of_skipSpace skipped delimiter))
    (by omega)
  simp only [here, skipSpace_extend skipped more]
  split at read
  · rename_i close
    cases read
    rw [if_pos close]
  · rename_i open_
    split at read
    · rename_i comma
      rw [if_neg open_, if_pos comma]
      exact map_extend (fun a r h => items _ a r more fuel' h (by omega)) read
    · cases read

private theorem membersExtend_succ {join : Bool} {fuel : Nat} (value : ValueExtends join fuel)
    (members : MembersExtend join fuel) : MembersExtend join (fuel + 1) := by
  intro t acc ms rest more fuel' read enough
  obtain ⟨fuel', rfl⟩ : ∃ k, fuel' = k + 1 := ⟨fuel' - 1, by omega⟩
  unfold parseMembers at read ⊢
  split at read
  · cases read
  rename_i key back named
  split at read
  · cases read
  rename_i v after valued
  split at read
  · cases read
  rename_i c last skipped
  have delimiter : c = 93 ∨ c = 44 ∨ c = 125 := by
    by_contra none_
    simp only [not_or] at none_
    simp [none_.2.1, none_.2.2] at read
  have name : (expect 34 (t ++ more)).bind (scanString join) = some (key, back ++ more) := by
    obtain ⟨front, quoted, scanned⟩ := Option.bind_eq_some_iff.mp named
    rw [expect_extend quoted more, Option.bind_some, scanString_extend scanned more]
  have member : (expect 58 (back ++ more)).bind (parseValue join fuel') = some (v, after ++ more) := by
    obtain ⟨front, colon, parsed⟩ := Option.bind_eq_some_iff.mp valued
    rw [expect_extend colon more, Option.bind_some]
    exact value _ v after more fuel' parsed (Or.inl (delimited_of_skipSpace skipped delimiter)) (by omega)
  simp only [name, member, skipSpace_extend skipped more]
  split at read
  · rename_i close
    cases read
    rw [if_pos close]
  · rename_i open_
    split at read
    · rename_i comma
      rw [if_neg open_, if_pos comma]
      exact members _ _ ms rest more fuel' read (by omega)
    · cases read

private theorem skipSpace_of_parseValue {join : Bool} {fuel : Nat} {t rest : Text} {v : Json}
    (read : parseValue join fuel t = some (v, rest)) : ∃ c back, skipSpace t = c :: back := by
  cases fuel with
  | zero => cases read
  | succ fuel =>
      unfold parseValue at read
      split at read
      · cases read
      · rename_i c back skipped
        exact ⟨c, back, skipped⟩

private theorem skipSpace_of_parseItems {join : Bool} {fuel : Nat} {t rest : Text} {items : List Json}
    (read : parseItems join fuel t = some (items, rest)) : ∃ c back, skipSpace t = c :: back := by
  cases fuel with
  | zero => cases read
  | succ fuel =>
      unfold parseItems at read
      split at read
      · cases read
      · rename_i item back first
        exact skipSpace_of_parseValue first

private theorem skipSpace_of_parseMembers {join : Bool} {fuel : Nat} {t rest : Text}
    {acc members : List (Text × Json)} (read : parseMembers join fuel t acc = some (members, rest)) :
    ∃ c back, skipSpace t = c :: back := by
  cases fuel with
  | zero => cases read
  | succ fuel =>
      unfold parseMembers at read
      split at read
      · cases read
      · rename_i key back named
        obtain ⟨front, quoted, -⟩ := Option.bind_eq_some_iff.mp named
        exact ⟨34, front, expect_eq_some.mp quoted⟩

private theorem valueExtends_succ {join : Bool} {fuel : Nat} (items : ItemsExtend join fuel)
    (members : MembersExtend join fuel) : ValueExtends join (fuel + 1) := by
  intro t v rest more fuel' read stopped enough
  obtain ⟨fuel', rfl⟩ : ∃ k, fuel' = k + 1 := ⟨fuel' - 1, by omega⟩
  unfold parseValue at read ⊢
  split at read
  · cases read
  rename_i c back skipped
  simp only [skipSpace_extend skipped more]
  split at read
  · rename_i quote
    rw [if_pos quote]
    exact map_extend (fun a r h => scanString_extend h more) read
  rename_i notQuote
  rw [if_neg notQuote]
  split at read
  · rename_i brace
    rw [if_pos brace]
    split at read
    · rename_i after closed
      cases read
      simp only [expect_extend closed more]
    · rename_i unclosed
      obtain ⟨⟨ms, r⟩, parsed, -⟩ := Option.map_eq_some_iff.mp read
      obtain ⟨d, b, next⟩ := skipSpace_of_parseMembers parsed
      simp only [expect_extend_none next unclosed more]
      exact map_extend (fun a r h => members _ _ a r more fuel' h (by omega)) read
  rename_i notBrace
  rw [if_neg notBrace]
  split at read
  · rename_i bracket
    rw [if_pos bracket]
    split at read
    · rename_i after closed
      cases read
      simp only [expect_extend closed more]
    · rename_i unclosed
      obtain ⟨⟨is, r⟩, parsed, -⟩ := Option.map_eq_some_iff.mp read
      obtain ⟨d, b, next⟩ := skipSpace_of_parseItems parsed
      simp only [expect_extend_none next unclosed more]
      exact map_extend (fun a r h => items _ a r more fuel' h (by omega)) read
  · rename_i notBracket
    rw [if_neg notBracket]
    rcases stopped with ⟨nonempty, stop⟩ | object
    · exact parseScalar_extend read nonempty stop more
    · exfalso
      unfold parseScalar at read
      split at read
      · cases read; cases object
      · cases read; cases object
      · cases read; cases object
      · obtain ⟨p, -, same⟩ := Option.map_eq_some_iff.mp read
        cases same
        cases object

private theorem extend_step (join : Bool) (fuel : Nat) :
    ValueExtends join fuel ∧ ItemsExtend join fuel ∧ MembersExtend join fuel := by
  induction fuel with
  | zero =>
      refine ⟨?_, ?_, ?_⟩
      · intro t v rest more fuel' read
        cases read
      · intro t items rest more fuel' read
        cases read
      · intro t acc members rest more fuel' read
        cases read
  | succ fuel ih =>
      obtain ⟨value, items, members⟩ := ih
      exact ⟨valueExtends_succ items members, itemsExtend_succ value items,
        membersExtend_succ value members⟩

/-- No proper beginning of the text of an object is JSON. -/
theorem parse_cut {quote : Text → Text} {join : Bool} (reads : Reads join quote) {j : Json}
    (wellFormed : WellFormed j) (object : j.isObject = true) {front : Text}
    (cut : front <+: render quote j) (proper : front ≠ render quote j) : parse join front = none := by
  by_contra parsed
  obtain ⟨k, hk⟩ := Option.ne_none_iff_exists'.mp parsed
  unfold parse at hk
  split at hk
  · rename_i v rest read
    split at hk
    · cases hk
      obtain ⟨back, whole⟩ := cut
      have opened : ∃ tail, front = 123 :: tail := by
        cases front with
        | nil => cases read
        | cons c tail =>
            cases j with
            | obj members =>
                simp only [render, List.cons_append, List.cons.injEq] at whole
                exact ⟨tail, by rw [whole.1]⟩
            | _ => cases object
      have isObject : k.isObject = true := by
        obtain ⟨tail, rfl⟩ := opened
        have solid : isJsonSpace 123 = false := by decide
        simp only [List.length_cons, parseValue, skipSpace_cons tail solid] at read
        rw [if_neg (by decide), if_pos trivial] at read
        split at read
        · cases read
          rfl
        · obtain ⟨p, -, same⟩ := Option.map_eq_some_iff.mp read
          cases same
          rfl
      have long := (extend_step join _).1 front k rest back (front.length + back.length + 1) read
        (Or.inr isObject) (by omega)
      have short := parseValue_render reads j wellFormed (front.length + back.length + 1) []
        (by rw [← whole, List.length_append]; omega) delimited_nil
      rw [List.append_nil, ← whole, long] at short
      simp only [Option.some.injEq, Prod.mk.injEq, List.append_eq_nil_iff] at short
      apply proper
      rw [← whole, short.2.2, List.append_nil]
    · cases hk
  · cases hk

end Json

namespace Utf8

private theorem decode_cut_unit {c : Nat} {bytes front : Bytes} (coded : encodeUnit c = some bytes)
    (cut : front <+: bytes) (nonempty : front ≠ []) (proper : front ≠ bytes) : decode front = none := by
  obtain ⟨back, rfl⟩ := cut
  have tail : back ≠ [] := by
    rintro rfl
    exact proper (by simp)
  obtain ⟨b, back, rfl⟩ := List.exists_cons_of_ne_nil tail
  unfold encodeUnit at coded
  split at coded
  · obtain ⟨a, front, rfl⟩ := List.exists_cons_of_ne_nil nonempty
    simp at coded
  split at coded
  · rcases front with _ | ⟨a, _ | ⟨d, front⟩⟩
    · exact absurd rfl nonempty
    · simp only [List.cons_append, List.nil_append, Option.some.injEq, List.cons.injEq] at coded
      rw [decode.eq_def]
      simp only
      split_ifs <;> first | rfl | omega
    · simp at coded
  split at coded
  · cases coded
  split at coded
  · rcases front with _ | ⟨a, _ | ⟨d, _ | ⟨e, front⟩⟩⟩
    · exact absurd rfl nonempty
    · simp only [List.cons_append, List.nil_append, Option.some.injEq, List.cons.injEq] at coded
      rw [decode.eq_def]
      simp only
      split_ifs <;> first | rfl | omega
    · simp only [List.cons_append, List.nil_append, Option.some.injEq, List.cons.injEq] at coded
      rw [decode.eq_def]
      simp only
      split_ifs <;> first | rfl | omega
    · simp at coded
  split at coded
  · rcases front with _ | ⟨a, _ | ⟨d, _ | ⟨e, _ | ⟨f, front⟩⟩⟩⟩
    · exact absurd rfl nonempty
    · simp only [List.cons_append, List.nil_append, Option.some.injEq, List.cons.injEq] at coded
      rw [decode.eq_def]
      simp only
      split_ifs <;> first | rfl | omega
    · simp only [List.cons_append, List.nil_append, Option.some.injEq, List.cons.injEq] at coded
      rw [decode.eq_def]
      simp only
      split_ifs <;> first | rfl | omega
    · simp only [List.cons_append, List.nil_append, Option.some.injEq, List.cons.injEq] at coded
      rw [decode.eq_def]
      simp only
      split_ifs <;> first | rfl | omega
    · simp at coded
  · cases coded

/-- What is decoded of cut bytes is a beginning of the text. -/
theorem decode_cut {t t' : Text} {bytes front : Bytes} (coded : encode t = some bytes)
    (cut : front <+: bytes) (read : decode front = some t') : t' <+: t ∧ (t' = t → front = bytes) := by
  induction t generalizing bytes front t' with
  | nil =>
      cases coded
      rw [List.prefix_nil.mp cut] at read ⊢
      cases read
      exact ⟨List.prefix_rfl, fun _ => rfl⟩
  | cons c t ih =>
      simp only [encode, Option.bind_eq_bind, Option.bind_eq_some_iff, Option.pure_def,
        Option.some.injEq] at coded
      obtain ⟨head, hhead, tail, htail, rfl⟩ := coded
      rcases List.prefix_or_prefix_of_prefix cut (List.prefix_append head tail) with short | long
      · rcases eq_or_ne front head with rfl | proper
        · have here := decode_encodeUnit hhead []
          rw [List.append_nil, read] at here
          cases here
          refine ⟨⟨t, rfl⟩, ?_⟩
          intro same
          cases t with
          | nil => cases htail; simp
          | cons d t => simp at same
        · rcases eq_or_ne front [] with rfl | nonempty
          · cases read
            exact ⟨List.nil_prefix, fun same => by cases same⟩
          · rw [decode_cut_unit hhead short nonempty proper] at read
            cases read
      · obtain ⟨front, rfl⟩ := long
        rw [decode_encodeUnit hhead] at read
        obtain ⟨t', inner, rfl⟩ := Option.map_eq_some_iff.mp read
        obtain ⟨begins, same⟩ := ih htail ((List.prefix_append_right_inj head).mp cut) inner
        refine ⟨List.cons_prefix_cons.mpr ⟨rfl, begins⟩, ?_⟩
        intro whole
        rw [same (List.cons.inj whole).2]

theorem encode_ascii {t : Text} (ascii : ∀ c ∈ t, c < 0x80) : encode t = some t := by
  induction t with
  | nil => rfl
  | cons c t ih =>
      have unit : encodeUnit c = some [c] := by simp [encodeUnit, ascii c (by simp)]
      simp [encode, unit, ih fun d hd => ascii d (List.mem_cons_of_mem _ hd)]

end Utf8

/-! ## The lines of a file of documents -/

namespace Json

/-- `json.dumps(value, sort_keys=True, separators=(",", ":"), ensure_ascii=False).encode("utf-8")` -/
def bytes (value : Json) : Option Bytes := Utf8.encode (render pyQuote value)

def parseLine (line : Bytes) : Option Document := (Utf8.decode line).bind (parseDocument true)

theorem parseLine_bytes {d : Document} {line : Bytes} (coded : bytes d.1 = some line) :
    parseLine line = some d := by
  have whole := @parse_render _ _ reads_pyQuote _ d.2 [] rfl
  rw [List.append_nil] at whole
  rw [parseLine, Utf8.decode_encode coded, Option.bind_some]
  exact parseDocument_eq_some.mpr whole

/-- The text of a document is one line. -/
theorem solid_bytes {d : Document} {line : Bytes} (coded : bytes d.1 = some line) : Bytes.Solid line := by
  intro b hb
  have solid := solid_render solid_pyQuote d.1 d.2
  constructor
  · rintro rfl
    exact absurd (solid _ (Utf8.mem_of_mem_encode coded hb (by decide))) (by decide)
  · rintro rfl
    exact absurd (solid _ (Utf8.mem_of_mem_encode coded hb (by decide))) (by decide)

theorem head_bytes {j : Json} (object : j.isObject = true) {line : Bytes}
    (coded : bytes j = some line) : ∃ tail, line = 123 :: tail := by
  cases j with
  | obj members =>
      simp only [bytes, render, List.cons_append, Utf8.encode, Option.bind_eq_bind,
        Option.bind_eq_some_iff] at coded
      obtain ⟨unit, hunit, tail, -, same⟩ := coded
      cases hunit
      cases same
      exact ⟨tail, rfl⟩
  | _ => cases object

/-- No proper beginning of an object's line reads as anything. -/
theorem torn_line {d : Document} (object : d.1.isObject = true) {line front : Bytes}
    (coded : bytes d.1 = some line) (cut : front <+: line) (nonempty : front ≠ [])
    (proper : front ≠ line) : Bytes.blank front = false ∧ parseLine front = none := by
  constructor
  · obtain ⟨tail, rfl⟩ := head_bytes object coded
    cases front with
    | nil => exact absurd rfl nonempty
    | cons b front =>
        rw [(List.cons_prefix_cons.mp cut).1]
        rfl
  · cases read : Utf8.decode front with
    | none => simp [parseLine, read]
    | some t =>
        obtain ⟨begins, same⟩ := Utf8.decode_cut coded cut read
        have unread := parse_cut reads_pyQuote d.2 object begins fun whole => proper (same whole)
        rw [parseLine, read, Option.bind_some, Option.eq_none_iff_forall_ne_some]
        intro k hk
        rw [parseDocument_eq_some, unread] at hk
        cases hk

end Json

end Senex
