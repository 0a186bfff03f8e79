import Senex.Antifragility.EventStore
import Mathlib

/-! # What an alteration of the stored events shows

One event of a stored stream is edited, dropped or swapped with another; hashes
are not computed anew.  A drop in front of the last event and a swap break a
link.  An edit breaks one only through the payload, or through a negative
sequence number, which the reader skips.
-/

namespace Senex.Antifragility

/-- An alteration of a list of events, by position. -/
inductive Alteration where
  | edit (i : Nat) (ev : Event)
  | drop (i : Nat)
  | swap (i j : Nat)

namespace Alteration

def apply (events : List Event) : Alteration → List Event
  | edit i ev => events.set i ev
  | drop i => events.eraseIdx i
  | swap i j =>
      match events[i]?, events[j]? with
      | some a, some b => (events.set i b).set j a
      | _, _ => events

/-- An edit changes a field other than the hash; a dropped event is not the last one. -/
def Proper (events : List Event) : Alteration → Prop
  | edit i ev => ∃ old, events[i]? = some old ∧ ev ≠ old ∧ ev.hash = old.hash
  | drop i => i + 1 < events.length
  | swap i j => i < j ∧ j < events.length

/-- The alteration touches what the hashes bind: an edit gives the event another canonical payload, or
    hides an event that has a successor. -/
def Bound (events : List Event) : Alteration → Prop
  | edit i ev =>
      (0 ≤ ev.seq → ∃ old, events[i]? = some old ∧ canonicalJson ev.payload ≠ canonicalJson old.payload) ∧
        (ev.seq < 0 → i + 1 < events.length)
  | drop _ | swap _ _ => True

end Alteration

/-! ## Messages -/

/-- The messages that a check of the events hashes. -/
def messages (prev : Text) : List Event → List Text
  | [] => []
  | ev :: events => (prev ++ canonicalJson ev.payload) :: messages ev.hash events

/-- SHA-256 is injective on these messages, and none of them has the genesis hash. -/
structure Collisionless (texts : List Text) : Prop where
  injective : ∀ a ∈ texts, ∀ b ∈ texts, Sha256.hexdigest a = Sha256.hexdigest b → a = b
  genesis : ∀ a ∈ texts, Sha256.hexdigest a ≠ genesisHash

theorem Collisionless.mono {texts more : List Text} (secure : Collisionless more) (inside : texts ⊆ more) :
    Collisionless texts :=
  ⟨fun a ha b hb => secure.injective a (inside ha) b (inside hb), fun a ha => secure.genesis a (inside ha)⟩

theorem messages_append (prev : Text) (first second : List Event) :
    messages prev (first ++ second) = messages prev first ++ messages (headHash prev first) second := by
  induction first generalizing prev with
  | nil => rfl
  | cons ev first ih => simp [messages, ih, headHash]

/-- Texts behind two hashes are one text only if the hashes are one hash. -/
theorem eq_of_message {prev other : Text} {payload payload' : Json} (length : prev.length = other.length)
    (same : prev ++ canonicalJson payload = other ++ canonicalJson payload') :
    prev = other ∧ canonicalJson payload = canonicalJson payload' :=
  List.append_inj same length

/-! ## The heads of a chain -/

/-- Every event's hash has the length of a digest. -/
def Sized (events : List Event) : Prop := ∀ ev ∈ events, ev.hash.length = 64

theorem length_headHash {events : List Event} (sized : Sized events) :
    (headHash genesisHash events).length = 64 := by
  rcases List.mem_cons.mp (headHash_mem genesisHash events) with genesis | inside
  · rw [genesis]
    rfl
  · obtain ⟨ev, member, same⟩ := List.mem_map.mp inside
    rw [← same]
    exact sized ev member

/-- No hash of a chain comes twice, and none is the genesis hash. -/
theorem nodup_hashes {events : List Event} (sized : Sized events) (linked : Linked genesisHash events)
    (secure : Collisionless (messages genesisHash events)) :
    (genesisHash :: events.map Event.hash).Nodup := by
  induction events using List.reverseRecOn with
  | nil => simp
  | append_singleton events ev ih =>
      have sized' : Sized events := fun e member => sized e (List.mem_append_left _ member)
      obtain ⟨front, here, -⟩ := (linked_append genesisHash events [ev]).mp linked
      rw [messages_append] at secure
      have distinct := ih sized' front (secure.mono (List.subset_append_left _ _))
      have last : headHash genesisHash events ++ canonicalJson ev.payload ∈
          messages genesisHash events ++ messages (headHash genesisHash events) [ev] := by simp [messages]
      rw [List.map_append, ← List.cons_append, List.nodup_append]
      refine ⟨distinct, List.nodup_singleton _, ?_⟩
      rintro hash member _ new rfl
      simp only [List.map_cons, List.map_nil, List.mem_singleton] at new
      subst new
      rcases List.mem_cons.mp member with genesis | inside
      · exact secure.genesis _ last (here.symm.trans genesis)
      · obtain ⟨old, place, same⟩ := List.mem_map.mp inside
        obtain ⟨before, behind, rfl⟩ := List.append_of_mem place
        -- both hashes come from the head before them, and the heads differ
        obtain ⟨-, there, -⟩ := (linked_append genesisHash before (old :: behind)).mp front
        have early : headHash genesisHash before ++ canonicalJson old.payload ∈
            messages genesisHash (before ++ old :: behind) ++
              messages (headHash genesisHash (before ++ old :: behind)) [ev] := by
          simp [messages_append, messages]
        have message := secure.injective _ early _ last (there.symm.trans (same.trans here))
        have sizedFront : Sized before := fun e member => sized' e (List.mem_append_left _ member)
        have heads := (eq_of_message ((length_headHash sizedFront).trans
          (length_headHash sized').symm) message).1
        rw [List.map_append, ← List.cons_append, List.nodup_append] at distinct
        refine distinct.2.2 _ (headHash_mem genesisHash before) _ ?_ heads
        rw [headHash_append]
        exact headHash_mem old.hash behind

/-- A later part of a chain follows no earlier head. -/
theorem not_linked_earlier {before between behind : List Event} {ev : Event}
    (sized : Sized (before ++ between ++ ev :: behind))
    (linked : Linked genesisHash (before ++ between ++ ev :: behind)) {more : List Text}
    (secure : Collisionless (messages genesisHash (before ++ between ++ ev :: behind) ++ more))
    (apart : between ≠ []) (checked : headHash genesisHash before ++ canonicalJson ev.payload ∈ more) :
    ev.hash ≠ hashPayload (headHash genesisHash before) ev.payload := by
  intro follows
  obtain ⟨-, here, -⟩ := (linked_append genesisHash (before ++ between) (ev :: behind)).mp linked
  have sizedFront : Sized (before ++ between) := fun e member => sized e (List.mem_append_left _ member)
  have sizedBefore : Sized before := fun e member => sizedFront e (List.mem_append_left _ member)
  have message := secure.injective (headHash genesisHash (before ++ between) ++ canonicalJson ev.payload)
    (List.mem_append_left _ (by simp [messages_append, messages])) _ (List.mem_append_right _ checked)
    (here.symm.trans follows)
  have heads := (eq_of_message ((length_headHash sizedFront).trans (length_headHash sizedBefore).symm) message).1
  have distinct := nodup_hashes sized linked (secure.mono (List.subset_append_left _ _))
  rw [List.map_append, List.map_append, List.append_assoc, ← List.cons_append, List.nodup_append] at distinct
  obtain ⟨old, between, rfl⟩ := List.exists_cons_of_ne_nil apart
  refine distinct.2.2 _ (headHash_mem genesisHash before) _ (List.mem_append_left _ ?_) heads.symm
  rw [headHash_append]
  exact headHash_mem old.hash between

/-! ## Alterations of a stream -/

/-- The check of a stored stream behind an alteration fails. -/
def Detected (events : List Event) (a : Alteration) : Prop := (verifyChain (a.apply events)).1 = false

/-- The messages of the stream and of the check behind the alteration have distinct hashes. -/
def Secure (events : List Event) (a : Alteration) : Prop :=
  Collisionless (messages genesisHash events ++ messages genesisHash (replay 0 none (a.apply events)))

/-- A part of a stream that a store appended from its start. -/
structure Stored (events : List Event) : Prop where
  sized : Sized events
  linked : Linked genesisHash events
  numbered : ∀ ev ∈ events, 0 ≤ ev.seq

theorem stored_stream (calls : List Call) : Stored (EventStore.start.stream calls) where
  sized := EventStore.start.length_hash_stream calls
  linked := EventStore.start.linked_stream calls
  numbered ev member := by
    have later := EventStore.start.seq_stream calls ev member
    simp only [EventStore.start] at later
    omega

theorem detected_iff (events : List Event) (a : Alteration) :
    Detected events a ↔ ¬ Linked genesisHash (replay 0 none (a.apply events)) := by
  rw [Detected, ← verifyChain_iff, Bool.not_eq_true]

section
variable {front back : List Event} {old : Event}

theorem replay_split (stored : Stored (front ++ old :: back)) (ev : Event) :
    replay 0 none (front ++ ev :: back) = front ++ (if 0 ≤ ev.seq then [ev] else []) ++ back := by
  have all (part : List Event) (inside : part ⊆ front ++ old :: back) :
      part.filter (fun ev => decide (0 ≤ ev.seq)) = part := by
    rw [List.filter_eq_self]
    intro e member
    simpa using stored.numbered e (inside member)
  rw [replay_eq_filter, List.filter_append, List.filter_cons, all front (by simp), all back (by simp)]
  split <;> split <;> simp_all

/-- A hidden event leaves its successor without its head. -/
theorem not_linked_hidden (stored : Stored (front ++ old :: back))
    (secure : Collisionless (messages genesisHash (front ++ old :: back) ++ messages genesisHash (front ++ back))) :
    Linked genesisHash (front ++ back) ↔ back = [] := by
  cases back with
  | nil =>
      simp only [List.append_nil, iff_true]
      exact ((linked_append genesisHash front [old]).mp stored.linked).1
  | cons next back =>
      simp only [reduceCtorEq, iff_false]
      intro linked
      have split : front ++ old :: next :: back = front ++ [old] ++ next :: back := by simp
      have sized := stored.sized
      have whole := stored.linked
      rw [split] at secure sized whole
      refine not_linked_earlier sized whole secure (by simp) ?_
        ((linked_append genesisHash front (next :: back)).mp linked).2.1
      simp [messages_append, messages]

/-- An edited event in its place. -/
theorem linked_edit_iff (stored : Stored (front ++ old :: back)) {ev : Event} (hash : ev.hash = old.hash)
    (secure : Collisionless (messages genesisHash (front ++ old :: back) ++
      messages genesisHash (front ++ ev :: back))) :
    Linked genesisHash (front ++ ev :: back) ↔ canonicalJson ev.payload = canonicalJson old.payload := by
  obtain ⟨before, here, behind⟩ := (linked_append genesisHash front (old :: back)).mp stored.linked
  constructor
  · intro linked
    obtain ⟨-, follows, -⟩ := (linked_append genesisHash front (ev :: back)).mp linked
    have message := secure.injective (headHash genesisHash front ++ canonicalJson ev.payload)
      (List.mem_append_right _ (by simp [messages_append, messages]))
      (headHash genesisHash front ++ canonicalJson old.payload)
      (List.mem_append_left _ (by simp [messages_append, messages]))
      (follows.symm.trans (hash.trans here))
    exact (eq_of_message rfl message).2
  · intro same
    refine (linked_append genesisHash front (ev :: back)).mpr ⟨before, ?_, ?_⟩
    · rw [hash, here, hashPayload, hashPayload, same]
    · rw [hash]
      exact behind

end

/-- Two events of a chain in each other's place. -/
theorem not_linked_swapped {front between back : List Event} {a b : Event}
    (stored : Stored (front ++ a :: between ++ b :: back))
    (secure : Collisionless (messages genesisHash (front ++ a :: between ++ b :: back) ++
      messages genesisHash (front ++ b :: between ++ a :: back))) :
    ¬ Linked genesisHash (front ++ b :: between ++ a :: back) := by
  intro linked
  rw [List.append_assoc] at linked
  refine not_linked_earlier stored.sized stored.linked secure (by simp) ?_
    ((linked_append genesisHash front _).mp linked).2.1
  simp [messages_append, messages]

/-- Two places of a list, the first before the second. -/
theorem exists_split {events : List Event} {i j : Nat} (order : i < j) (inside : j < events.length) :
    ∃ front a between b back, events = front ++ a :: between ++ b :: back ∧ front.length = i ∧
      (front ++ a :: between).length = j := by
  refine ⟨events.take i, events[i], (events.take j).drop (i + 1), events[j], events.drop (j + 1), ?_, ?_, ?_⟩
  · have first : events.take i ++ events[i] :: (events.take j).drop (i + 1) = events.take j := by
      have whole := List.take_append_drop i (events.take j)
      rw [List.take_take, min_eq_left (by omega), List.drop_eq_getElem_cons (by simp; omega),
        List.getElem_take] at whole
      exact whole
    rw [first, List.getElem_cons_drop, List.take_append_drop]
  · simp
    omega
  · simp
    omega

/-- The alterations of a stored stream that the check reports are those that touch what the hashes bind. -/
theorem detected_iff_bound (calls : List Call) {a : Alteration} (proper : a.Proper (EventStore.start.stream calls))
    (secure : Secure (EventStore.start.stream calls) a) :
    Detected (EventStore.start.stream calls) a ↔ a.Bound (EventStore.start.stream calls) := by
  have stored := stored_stream calls
  rw [detected_iff]
  rw [Secure] at secure
  generalize EventStore.start.stream calls = events at stored proper secure ⊢
  cases a with
  | edit i ev =>
      obtain ⟨old, found, -, hash⟩ := proper
      obtain ⟨inside, rfl⟩ := List.getElem?_eq_some_iff.mp found
      obtain ⟨front, back, split, length⟩ : ∃ front back, events = front ++ events[i] :: back ∧ front.length = i :=
        ⟨events.take i, events.drop (i + 1), by simp, by simp; omega⟩
      generalize events[i] = old at hash found split
      subst split length
      have edited : (Alteration.edit front.length ev).apply (front ++ old :: back) = front ++ ev :: back := by
        simp [Alteration.apply]
      rw [edited, replay_split stored] at secure ⊢
      simp only [Alteration.Bound, found, Option.some.injEq, exists_eq_left', List.length_append,
        List.length_cons]
      by_cases shown : 0 ≤ ev.seq
      · simp only [shown, if_true, List.append_assoc, List.singleton_append, true_imp_iff] at secure ⊢
        rw [linked_edit_iff stored hash secure]
        have seen : ¬ ev.seq < 0 := by omega
        simp [seen]
      · simp only [shown, if_false, List.append_nil, false_imp_iff, true_and] at secure ⊢
        rw [not_linked_hidden stored secure]
        have hidden : ev.seq < 0 := by omega
        cases back <;> simp [hidden]
  | drop i =>
      have inside : i < events.length := by
        simp only [Alteration.Proper] at proper
        omega
      obtain ⟨front, back, split, length⟩ : ∃ front back, events = front ++ events[i] :: back ∧ front.length = i :=
        ⟨events.take i, events.drop (i + 1), by simp, by simp; omega⟩
      generalize events[i] = old at split
      subst split length
      have dropped : (Alteration.drop front.length).apply (front ++ old :: back) = front ++ back := by
        simp [Alteration.apply, List.eraseIdx_append_of_length_le]
      have all : replay 0 none (front ++ back) = front ++ back := by
        rw [replay_eq_filter, List.filter_eq_self]
        intro e member
        have inside := stored.numbered e (by simp at member ⊢; grind)
        simpa using inside
      rw [dropped, all] at secure ⊢
      rw [not_linked_hidden stored secure]
      simp only [Alteration.Proper, List.length_append, List.length_cons] at proper
      cases back with
      | nil => simp at proper
      | cons next back => simp [Alteration.Bound]
  | swap i j =>
      obtain ⟨order, inside⟩ := proper
      obtain ⟨front, a, between, b, back, rfl, rfl, rfl⟩ := exists_split order inside
      have swapped : (Alteration.swap front.length (front ++ a :: between).length).apply
          (front ++ a :: between ++ b :: back) = front ++ b :: between ++ a :: back := by
        simp [Alteration.apply]
      have all : replay 0 none (front ++ b :: between ++ a :: back) = front ++ b :: between ++ a :: back := by
        rw [replay_eq_filter, List.filter_eq_self]
        intro e member
        have inside := stored.numbered e (by simp at member ⊢; grind)
        simpa using inside
      rw [swapped, all] at secure ⊢
      simp only [Alteration.Bound, iff_true]
      exact not_linked_swapped stored secure

/-! ## An undetected edit -/

/-- The claimed evidence: whatever alteration of the stream is proper, the check reports it. -/
def TamperEvident (calls : List Call) (a : Alteration) : Prop :=
  a.Proper (EventStore.start.stream calls) → Secure (EventStore.start.stream calls) a →
    Detected (EventStore.start.stream calls) a

/-- One call, which stores a closed position. -/
def closedCall : Call :=
  ⟨txt "CLOSED", .obj [(txt "pnl", .num (txt "-5"))], none, txt "e1", txt "2026-01-01T00:00:00.000000Z"⟩

/-- The stored event under another type. -/
def retyped : Alteration := .edit 0 { closedCall.event .start with type := txt "VERIFIED" }

/-- The stored event with another payload. -/
def repaid : Alteration := .edit 0 { closedCall.event .start with payload := .obj [(txt "pnl", .num (txt "5"))] }

theorem detected_iff_bound_repaid :
    Detected (EventStore.start.stream [closedCall]) repaid ↔ repaid.Bound (EventStore.start.stream [closedCall]) := by
  apply detected_iff_bound
  · exact ⟨_, rfl, by decide, rfl⟩
  · exact ⟨by decide +kernel, by decide +kernel⟩

theorem not_tamperEvident_retyped : ¬ ∀ calls a, TamperEvident calls a := by
  intro evident
  have proper : retyped.Proper (EventStore.start.stream [closedCall]) := ⟨_, rfl, by decide, rfl⟩
  have secure : Secure (EventStore.start.stream [closedCall]) retyped :=
    ⟨by decide +kernel, by decide +kernel⟩
  have reported := evident [closedCall] retyped proper secure
  revert reported
  rw [Detected]
  decide +kernel

end Senex.Antifragility
