import Senex.Foundation.Transition
import Senex.Polymarket.Levels

/-! # Depth marked current

The venue changes its book and tells the adapter of each change in a full book, in a delta or only by
its best prices.  A usable delta marks the depth current again even where an earlier change is missing
from the cached levels.
-/

namespace Senex.Polymarket

open Text

/-! ## The venue -/

/-- The venue's book for one token. -/
abbrev Venue := Side → Sizes

structure Change where
  side : Side
  price : ℚ
  size : ℚ
  nonneg : 0 ≤ size

namespace Venue

def apply (venue : Venue) (c : Change) : Venue :=
  Function.update venue c.side (Function.update (venue c.side) c.price c.size)

def after (venue : Venue) (changes : List Change) : Venue := changes.foldl apply venue

end Venue

/-! ## Delivery -/

def concerns (token : Text) (msg : PyValue) : Bool :=
  msg.isDict && decide ((msg.get (txt "asset_id")).textOrEmpty = some token)

/-- The entries of a message about a token. -/
def entriesOf (token : Text) (msg : PyValue) : List PyValue := (entries msg).filter (concerns token)

def isFull (token : Text) (msg : PyValue) : Bool := decide (eventType msg = some (txt "book")) && concerns token msg

def isQuote (token : Text) (msg : PyValue) : Bool :=
  decide (eventType msg = some (txt "best_bid_ask")) && concerns token msg

def isDeltas (msg : PyValue) : Bool := decide (eventType msg = some (txt "price_change"))

def usable (entry : PyValue) : Bool :=
  match readChange entry with
  | .ok (some _) => true
  | _ => false

/-- The arrays of a book list the venue's levels. -/
def ListsBook (book : PyValue) (venue : Venue) : Prop :=
  ∀ side, ∃ cached, levels (book.get side.key) side = .ok cached ∧ Lists cached (venue side)

structure Delta.Tells (delta : Delta) (c : Change) : Prop where
  side : delta.side = c.side
  finitePrice : delta.price.isFinite = true
  price : delta.price.value = c.price
  finiteSize : delta.size.isFinite = true
  size : delta.size.value = c.size

/-- An entry that is usable as a delta tells its change. -/
def Carries (entry : PyValue) (c : Change) : Prop :=
  ∀ delta, readChange entry = .ok (some delta) → delta.Tells c

/-- What a message delivers of the changes to a token's book. -/
inductive Delivers (token : Text) (venue : Venue) : List Change → PyValue → Prop where
  | full {changes : List Change} {msg : PyValue} (kind : isFull token msg = true)
      (lists : ListsBook msg (venue.after changes)) : Delivers token venue changes msg
  | deltas {changes : List Change} {msg : PyValue} (kind : isDeltas msg = true)
      (carries : List.Forall₂ Carries (entriesOf token msg) changes) : Delivers token venue changes msg
  | quote {changes : List Change} {msg : PyValue} (kind : isQuote token msg = true) :
      Delivers token venue changes msg
  | other {msg : PyValue} (not_full : isFull token msg = false) (not_quote : isQuote token msg = false)
      (not_deltas : isDeltas msg = false) : Delivers token venue [] msg

structure Delivery where
  changes : List Change
  message : PyValue
  clock : Clock

/-- A message that does not bring the cached levels to the venue's. -/
def lost (token : Text) (msg : PyValue) : Bool :=
  isQuote token msg || isDeltas msg && (entriesOf token msg).any fun entry => !usable entry

structure World where
  venue : Venue
  /-- A message has been lost since the last full book. -/
  stale : Bool
  books : Books

def World.step (tokens : Tokens) (token : Text) (w : World) (d : Delivery) : World where
  venue := w.venue.after d.changes
  stale := !isFull token d.message && (w.stale || lost token d.message)
  books := handleWsMessage tokens d.clock w.books d.message

/-- What the depth of a book promises where it is reported as current. -/
def Exact (venue : Venue) (stale : Bool) (book : PyValue) : Prop :=
  ∀ metrics, bookMetrics book = .ok metrics → metrics.depthCurrent = true → stale = false ∧
    ∃ bids asks, levels (book.get (txt "bids")) .bids = .ok bids ∧ Lists bids (venue .bids) ∧
      levels (book.get (txt "asks")) .asks = .ok asks ∧ Lists asks (venue .asks) ∧
      metrics.bestBid.map Double.value = best .bids bids ∧ metrics.bestAsk.map Double.value = best .asks asks ∧
      (∀ x ∈ metrics.bestBid, x.isFinite = true) ∧ (∀ x ∈ metrics.bestAsk, x.isFinite = true) ∧
      ∀ spread ∈ metrics.spread, Double.le (.round 0) spread = true

/-! ## When the depth is exact -/

def marked (book : PyValue) : Bool := (book.get (txt "depth_current")).truthy

/-- A quote that can be read is the venue's best price. -/
def RightQuote (side : Side) (venue : Venue) (value : PyValue) : Prop :=
  ∀ x, float value = .ok (some x) → x.isFinite = true ∧ IsBest side (venue side) x.value

/-- The newest quote after some entries. -/
def newest (side : Side) (cached : PyValue) (entries : List PyValue) : PyValue :=
  entries.foldl (fun quote entry => if (entry.get side.quote).isNone then quote else entry.get side.quote) cached

/-- No price or size is an integer beyond the floats. -/
structure InRange (tokens : Tokens) (msg : PyValue) : Prop where
  book : eventType msg = some (txt "book") → (labelOf tokens msg).isSome → ∀ side, ∃ cached,
    levels (msg.get side.key) side = .ok cached
  deltas : isDeltas msg = true → ∀ entry ∈ entries msg, entry.isDict = true → (labelOf tokens entry).isSome →
    ∃ delta, readChange entry = .ok delta

/-- A message ends with a usable delta only where nothing is missing from the cached levels, and it leaves the
    newest quotes right. -/
structure Settles (token : Text) (label : Label) (w : World) (d : Delivery) : Prop where
  deltas : isDeltas d.message = true → ∀ last ∈ (entriesOf token d.message).getLast?, usable last = true →
    marked (w.books label) = true ∧ (∀ entry ∈ entriesOf token d.message, usable entry = true) ∧
      ∀ side, RightQuote side (w.venue.after d.changes)
        (newest side ((w.books label).get side.quote) (entriesOf token d.message))
  full : isFull token d.message = true → ∀ side,
    RightQuote side (w.venue.after d.changes) (d.message.get side.quote)

/-! ## What a handled message leaves -/

theorem isDict_of_get {book : PyValue} {key : Text} {flag : Bool} (found : book.get key = .bool flag) :
    book.isDict = true := by
  cases book <;> first | rfl | simp [PyValue.get] at found

section Stamp

variable (book : PyValue) (source : Text) (current : Bool) (timestamp : PyValue) (monotonic : Double)

theorem stamp_get {key : Text} (other : key ∉ [txt "_metric_update_monotonic", txt "_metric_source",
    txt "depth_current", txt "metric_timestamp"]) :
    (stampMetricUpdate book source current timestamp monotonic).get key = book.get key := by
  simp only [List.mem_cons, not_or] at other
  obtain ⟨one, two, three, four, -⟩ := other
  unfold stampMetricUpdate
  split <;> simp [one, two, three, four]

theorem stamp_depth (dict : book.isDict = true) :
    (stampMetricUpdate book source current timestamp monotonic).get (txt "depth_current") = .bool current := by
  have written : (((book.set (txt "_metric_update_monotonic") (.float monotonic)).set (txt "_metric_source")
      (.str source)).set (txt "depth_current") (.bool current)).get (txt "depth_current") = .bool current :=
    PyValue.get_set_self (by simpa using dict) _ _
  unfold stampMetricUpdate
  split
  · exact written
  · rw [PyValue.get_set_of_ne _ (by simp)]
    exact written

end Stamp

/-- A stored book: stamped, and with arrays that can be read. -/
structure Stored (book : PyValue) : Prop where
  stamped : ∃ flag, book.get (txt "depth_current") = .bool flag
  readable : ∀ side : Side, ∃ cached, levels (book.get side.key) side = .ok cached

theorem Stored.isDict {book : PyValue} (stored : Stored book) : book.isDict = true := by
  obtain ⟨flag, found⟩ := stored.stamped
  exact isDict_of_get found

theorem Side.key_fresh (side : Side) : side.key ∉ [txt "_metric_update_monotonic", txt "_metric_source",
    txt "depth_current", txt "metric_timestamp"] := by
  cases side <;> simp [Side.key]

theorem Side.quote_fresh (side : Side) : side.quote ∉ [txt "_metric_update_monotonic", txt "_metric_source",
    txt "depth_current", txt "metric_timestamp"] := by
  cases side <;> simp [Side.quote]

theorem Side.key_ne_quote (side other : Side) : side.key ≠ other.quote := by
  cases side <;> cases other <;> simp [Side.key, Side.quote]

/-- What the reads of a stored book depend on. -/
structure Reads (book : PyValue) (current : Bool) (arrays quotes : Side → PyValue) : Prop where
  depth : book.get (txt "depth_current") = .bool current
  array : ∀ side : Side, book.get side.key = arrays side
  quote : ∀ side : Side, book.get side.quote = quotes side

theorem stamp_reads {book : PyValue} (dict : book.isDict = true) (source : Text) (current : Bool)
    (timestamp : PyValue) (monotonic : Double) :
    Reads (stampMetricUpdate book source current timestamp monotonic) current (fun side => book.get side.key)
      fun side => book.get side.quote where
  depth := stamp_depth book source current timestamp monotonic dict
  array side := stamp_get book source current timestamp monotonic side.key_fresh
  quote side := stamp_get book source current timestamp monotonic side.quote_fresh

/-! ### One entry -/

theorem quoted_key (book change : PyValue) (at_side side : Side) :
    (quoted book change at_side).get side.key = book.get side.key := by
  unfold quoted
  split
  · rfl
  · exact PyValue.get_set_of_ne _ (Side.key_ne_quote side at_side) _

theorem quoted_isDict (book change : PyValue) (side : Side) : (quoted book change side).isDict = book.isDict := by
  unfold quoted
  split <;> simp

theorem quoted_quote {book : PyValue} (dict : book.isDict = true) (change : PyValue) (side : Side) :
    (quoted (quoted book change .bids) change .asks).get side.quote =
      if (change.get side.quote).isNone then book.get side.quote else change.get side.quote := by
  have bids_asks : Side.quote .bids ≠ Side.quote .asks := by simp [Side.quote]
  have self (b : PyValue) (s : Side) (isDict : b.isDict = true) : (quoted b change s).get s.quote =
      if (change.get s.quote).isNone then b.get s.quote else change.get s.quote := by
    unfold quoted
    split
    · rfl
    · exact PyValue.get_set_self isDict _ _
  have other (b : PyValue) {s t : Side} (differ : s.quote ≠ t.quote) : (quoted b change t).get s.quote =
      b.get s.quote := by
    unfold quoted
    split
    · rfl
    · exact PyValue.get_set_of_ne _ differ _
  cases side
  · rw [other _ bids_asks, self book .bids dict]
  · rw [self _ .asks ((quoted_isDict book change .bids).trans dict), other _ bids_asks.symm]

theorem Lists.apply {cached : List Level} {delta : Delta} {c : Change} {venue : Venue}
    (lists : Lists cached (venue delta.side)) (told : delta.Tells c) :
    Lists (delta.merge cached) (venue.apply c delta.side) := by
  have merged := lists.merge told.finitePrice told.finiteSize (by rw [told.size]; exact c.nonneg)
  rw [told.price, told.size] at merged
  rw [Venue.apply, ← told.side, Function.update_self]
  exact merged

/-- What `_apply_price_change` does to a stored book. -/
theorem applyPriceChange_spec {book change : PyValue} (stored : Stored book)
    (readable : ∃ delta, readChange change = .ok delta) : ∃ merged : PyValue,
    applyPriceChange book change = .ok (merged, usable change) ∧ merged.isDict = true ∧
      (∀ side : Side, ∃ cached, levels (merged.get side.key) side = .ok cached) ∧
      (∀ side : Side, merged.get side.quote = book.get side.quote) ∧
      ∀ venue c, usable change = true → Carries change c → ListsBook book venue → ListsBook merged (venue.apply c) := by
  obtain ⟨read, reading⟩ := readable
  cases read with
  | none =>
      refine ⟨book, by simp [applyPriceChange, reading, usable], stored.isDict, stored.readable, fun _ => rfl, ?_⟩
      intro venue c is_usable
      simp [usable, reading] at is_usable
  | some delta =>
      obtain ⟨cached, cached_eq⟩ := stored.readable delta.side
      have written := levels_written (delta.merge cached) delta.side
      refine ⟨book.set delta.side.key (.list ((delta.merge cached).map Level.toValue)), ?_, ?_, ?_, ?_, ?_⟩
      · simp [applyPriceChange, reading, usable, cached_eq]
      · simpa using stored.isDict
      · intro side
        by_cases same : side = delta.side
        · subst same
          exact ⟨_, by rw [PyValue.get_set_self stored.isDict]; exact written⟩
        · have differ : side.key ≠ delta.side.key := by
            cases h : delta.side <;> cases side <;> simp_all [Side.key]
          rw [PyValue.get_set_of_ne _ differ]
          exact stored.readable side
      · intro side
        exact PyValue.get_set_of_ne _ (Side.key_ne_quote delta.side side).symm _
      · intro venue c is_usable carries lists side
        have told := carries delta reading
        by_cases same : side = delta.side
        · subst same
          obtain ⟨listed, listed_eq, lists_side⟩ := lists delta.side
          rw [cached_eq, Except.ok.injEq] at listed_eq
          rw [PyValue.get_set_self stored.isDict]
          subst listed_eq
          exact ⟨_, written, (lists_side.apply told).sort _⟩
        · have differ : side.key ≠ delta.side.key := by
            cases h : delta.side <;> cases side <;> simp_all [Side.key]
          rw [PyValue.get_set_of_ne _ differ, Venue.apply, Function.update_of_ne (by rw [← told.side]; exact same)]
          exact lists side

/-! ### The entries of a message -/

theorem Tokens.label_inj {tokens : Tokens} {a b : Text} {label : Label} (first : tokens.label a = some label)
    (second : tokens.label b = some label) : a = b := by
  unfold Tokens.label at first second
  grind

theorem labelOf_of_concerns {tokens : Tokens} {token : Text} {msg : PyValue} (about : concerns token msg = true) :
    labelOf tokens msg = tokens.label token := by
  simp only [concerns, Bool.and_eq_true, decide_eq_true_eq] at about
  simp [labelOf, about.2]

section Handling

variable {tokens : Tokens} {token : Text} {label : Label} (known : tokens.label token = some label)
include known

/-- A message about something else is filed under another label. -/
theorem label_ne_of_not_concerns {msg : PyValue} (dict : msg.isDict = true) (about : concerns token msg = false)
    {other : Label} (filed : labelOf tokens msg = some other) : other ≠ label := by
  rintro rfl
  obtain ⟨asset, asset_eq, asset_label⟩ := Option.bind_eq_some_iff.mp filed
  simp [concerns, dict, asset_eq, Tokens.label_inj asset_label known] at about

/-- What one entry leaves of the books. -/
theorem priceChange_spec {books : Books} (stored : ∀ l, Stored (books l)) {entry : PyValue} (clock : Clock)
    (eventTs : PyValue)
    (readable : entry.isDict = true → (labelOf tokens entry).isSome → ∃ delta, readChange entry = .ok delta) :
    ∃ after : Books, priceChange tokens clock eventTs books entry = .ok after ∧ (∀ l, Stored (after l)) ∧
      (concerns token entry = false → after label = books label) ∧
      (concerns token entry = true → marked (after label) = usable entry ∧
        (∀ side : Side, (after label).get side.quote = if (entry.get side.quote).isNone
          then (books label).get side.quote else entry.get side.quote) ∧
        ∀ venue c, usable entry = true → Carries entry c → ListsBook (books label) venue →
          ListsBook (after label) (venue.apply c)) := by
  cases dict : entry.isDict with
  | false =>
      refine ⟨books, by simp [priceChange, dict], stored, fun _ => rfl, fun about => ?_⟩
      simp [concerns, dict] at about
  | true =>
      cases filed : labelOf tokens entry with
      | none =>
          refine ⟨books, by simp [priceChange, dict, filed], stored, fun _ => rfl, fun about => ?_⟩
          rw [labelOf_of_concerns about, known] at filed
          cases filed
      | some at_label =>
          obtain ⟨merged, applied, merged_dict, merged_readable, merged_quote, merged_lists⟩ :=
            applyPriceChange_spec (stored at_label) (readable dict (by simp [filed]))
          have dict_both : (quoted (quoted merged entry .bids) entry .asks).isDict = true := by
            rw [quoted_isDict, quoted_isDict, merged_dict]
          have reads := stamp_reads dict_both (txt "ws_price_change") (usable entry)
            (orElse (entry.get (txt "timestamp")) eventTs) clock.monotonic
          have array (side : Side) := (reads.array side).trans
            ((quoted_key _ entry .asks side).trans (quoted_key merged entry .bids side))
          have quote (side : Side) := (reads.quote side).trans (quoted_quote merged_dict entry side)
          refine ⟨_, by simp [priceChange, dict, filed, applied]; rfl, ?_, ?_, ?_⟩
          · intro l
            by_cases same : l = at_label
            · subst same
              rw [Function.update_self]
              exact ⟨⟨_, reads.depth⟩, fun side => by rw [array]; exact merged_readable side⟩
            · rw [Function.update_of_ne same]
              exact stored l
          · intro about
            exact Function.update_of_ne (label_ne_of_not_concerns known dict about filed).symm _ _
          · intro about
            have same : at_label = label := by
              rw [labelOf_of_concerns about, known] at filed
              exact (Option.some.inj filed).symm
            subst same
            rw [Function.update_self]
            refine ⟨by rw [marked, reads.depth]; rfl, fun side => by rw [quote, merged_quote], ?_⟩
            intro venue c is_usable carries lists side
            rw [array]
            exact merged_lists venue c is_usable carries lists side

/-- The mark that some entries leave. -/
def markAfter (entries : List PyValue) (before : Bool) : Bool :=
  match entries.getLast? with
  | some last => usable last
  | none => before

omit known in
theorem markAfter_cons (entry : PyValue) (rest : List PyValue) (before : Bool) :
    markAfter (entry :: rest) before = markAfter rest (usable entry) := by
  cases rest with
  | nil => rfl
  | cons next rest => simp [markAfter, List.getLast?_cons]

/-- What the entries of a message leave of the books. -/
theorem priceChanges_spec (clock : Clock) (eventTs : PyValue) {changed : List PyValue} {books : Books}
    (stored : ∀ l, Stored (books l))
    (readable : ∀ entry ∈ changed, entry.isDict = true → (labelOf tokens entry).isSome →
      ∃ delta, readChange entry = .ok delta) :
    (∀ l, Stored (priceChanges tokens clock eventTs books changed l)) ∧
      marked (priceChanges tokens clock eventTs books changed label) =
        markAfter (changed.filter (concerns token)) (marked (books label)) ∧
      (∀ side : Side, (priceChanges tokens clock eventTs books changed label).get side.quote =
        newest side ((books label).get side.quote) (changed.filter (concerns token))) ∧
      ∀ venue changes, (∀ entry ∈ changed.filter (concerns token), usable entry = true) →
        List.Forall₂ Carries (changed.filter (concerns token)) changes → ListsBook (books label) venue →
        ListsBook (priceChanges tokens clock eventTs books changed label) (venue.after changes) := by
  induction changed generalizing books with
  | nil =>
      refine ⟨stored, rfl, fun _ => rfl, ?_⟩
      intro venue changes _ carries lists
      cases carries
      exact lists
  | cons entry rest ih =>
      obtain ⟨after, applied, after_stored, elsewhere, here⟩ :=
        priceChange_spec known stored clock eventTs (readable entry List.mem_cons_self)
      obtain ⟨end_stored, end_mark, end_quote, end_lists⟩ :=
        ih after_stored fun e member => readable e (List.mem_cons_of_mem _ member)
      simp only [priceChanges, applied]
      cases about : concerns token entry with
      | false =>
          rw [elsewhere about] at end_mark end_quote end_lists
          rw [List.filter_cons_of_neg (by simp [about])]
          exact ⟨end_stored, end_mark, end_quote, end_lists⟩
      | true =>
          obtain ⟨mark, quote, lists_entry⟩ := here about
          rw [List.filter_cons_of_pos about]
          refine ⟨end_stored, ?_, ?_, ?_⟩
          · rw [end_mark, mark, markAfter_cons]
          · intro side
            rw [end_quote, quote]
            rfl
          · intro venue changes all_usable carries lists
            cases carries with
            | @cons _ c _ others_said first others =>
                refine end_lists (venue.apply c) others_said (fun e member => all_usable e (List.mem_cons_of_mem _ member)) others ?_
                exact lists_entry venue _ (all_usable entry List.mem_cons_self) first lists

end Handling

/-! ## Runs -/

/-- What every allowed message keeps. -/
structure Held (token : Text) (label : Label) (w : World) : Prop where
  stored : ∀ l, Stored (w.books l)
  exact : marked (w.books label) = true → w.stale = false ∧ ListsBook (w.books label) w.venue ∧
    ∀ side, RightQuote side w.venue ((w.books label).get side.quote)

/-- What the environment delivers and the condition under which the depth is exact. -/
structure Allows (tokens : Tokens) (token : Text) (label : Label) (w : World) (d : Delivery) : Prop where
  delivers : Delivers token w.venue d.changes d.message
  inRange : InRange tokens d.message
  settles : Settles token label w d

theorem isDict_of_eventType {msg : PyValue} {kind : Text} (typed : eventType msg = some kind)
    (known : kind ≠ txt "unknown") : msg.isDict = true := by
  cases msg with
  | dict members => rfl
  | _ => exact absurd (Option.some.inj typed).symm known

section Step

variable {tokens : Tokens} {token : Text} {label : Label}

section Inversion

variable {venue : Venue} {changes : List Change} {msg : PyValue} (delivers : Delivers token venue changes msg)
include delivers

theorem Delivers.lists (full : isFull token msg = true) (not_quote : isQuote token msg = false)
    (not_deltas : isDeltas msg = false) : ListsBook msg (venue.after changes) := by
  cases delivers with
  | full _ lists => exact lists
  | deltas kind => simp [not_deltas] at kind
  | quote kind => simp [not_quote] at kind
  | other not_full => simp [full] at not_full

theorem Delivers.carries (deltas : isDeltas msg = true) (not_full : isFull token msg = false)
    (not_quote : isQuote token msg = false) : List.Forall₂ Carries (entriesOf token msg) changes := by
  cases delivers with
  | full kind => simp [not_full] at kind
  | deltas _ carries => exact carries
  | quote kind => simp [not_quote] at kind
  | other _ _ not_deltas => simp [deltas] at not_deltas

theorem Delivers.nothing (not_full : isFull token msg = false) (not_quote : isQuote token msg = false)
    (not_deltas : isDeltas msg = false) : changes = [] := by
  cases delivers with
  | full kind => simp [not_full] at kind
  | deltas kind => simp [not_deltas] at kind
  | quote kind => simp [not_quote] at kind
  | other => rfl

end Inversion

/-- A message that tells the token nothing. -/
theorem untouched {w : World} {d : Delivery} (delivers : Delivers token w.venue d.changes d.message)
    (not_full : isFull token d.message = false) (not_quote : isQuote token d.message = false)
    (not_deltas : isDeltas d.message = false) :
    (w.step tokens token d).venue = w.venue ∧ (w.step tokens token d).stale = w.stale := by
  constructor
  · simp [World.step, delivers.nothing not_full not_quote not_deltas, Venue.after]
  · simp [World.step, not_full, lost, not_quote, not_deltas]

/-- The label's book is read as before. -/
theorem Held.of_reads {w after : World} (held : Held token label w) (stored : ∀ l, Stored (after.books l))
    (venue : after.venue = w.venue) (stale : after.stale = w.stale)
    (depth : (after.books label).get (txt "depth_current") = (w.books label).get (txt "depth_current"))
    (array : ∀ side : Side, (after.books label).get side.key = (w.books label).get side.key)
    (quote : ∀ side : Side, (after.books label).get side.quote = (w.books label).get side.quote) :
    Held token label after where
  stored := stored
  exact mark := by
    rw [marked, depth] at mark
    obtain ⟨fresh, lists, right⟩ := held.exact mark
    rw [stale, venue]
    refine ⟨fresh, ?_, ?_⟩
    · intro side
      rw [array]
      exact lists side
    · intro side
      rw [quote]
      exact right side

theorem stored_update {books : Books} (stored : ∀ l, Stored (books l)) {at_label : Label} {book : PyValue}
    (new : Stored book) (l : Label) : Stored (Function.update books at_label book l) := by
  by_cases same : l = at_label
  · subst same
    rw [Function.update_self]
    exact new
  · rw [Function.update_of_ne same]
    exact stored l

variable (known : tokens.label token = some label)
include known

/-- Which message a label files is known from its asset. -/
theorem concerns_iff {msg : PyValue} (dict : msg.isDict = true) :
    concerns token msg = true ↔ labelOf tokens msg = some label := by
  constructor
  · intro about
    rw [labelOf_of_concerns about, known]
  · intro filed
    by_contra about
    exact label_ne_of_not_concerns known dict (by simpa using about) filed rfl

theorem Held.full {w : World} (held : Held token label w) {d : Delivery} (allows : Allows tokens token label w d)
    (kind : eventType d.message = some (txt "book")) : Held token label (w.step tokens token d) := by
  have dict := isDict_of_eventType kind (by simp)
  have reads := stamp_reads dict (txt "ws_book") true
    (orElse (d.message.get (txt "timestamp")) (.str d.clock.isoNow)) d.clock.monotonic
  have not_deltas : isDeltas d.message = false := by simp [isDeltas, kind]
  have not_quote : isQuote token d.message = false := by simp [isQuote, kind]
  have full_iff : isFull token d.message = concerns token d.message := by simp [isFull, kind]
  cases filed : labelOf tokens d.message with
  | none =>
      have not_full : isFull token d.message = false := by
        rw [full_iff, Bool.eq_false_iff, ne_eq, concerns_iff known dict, filed]
        simp
      obtain ⟨venue, stale⟩ := @untouched tokens _ _ _ allows.delivers not_full not_quote not_deltas
      have same : (w.step tokens token d).books = w.books := by simp [World.step, handleWsMessage, kind, filed]
      exact held.of_reads (by rw [same]; exact held.stored) venue stale (by rw [same]) (fun _ => by rw [same])
        fun _ => by rw [same]
  | some at_label =>
      have books : (w.step tokens token d).books = Function.update w.books at_label (stampMetricUpdate d.message
          (txt "ws_book") true (orElse (d.message.get (txt "timestamp")) (.str d.clock.isoNow))
          d.clock.monotonic) := by
        simp [World.step, handleWsMessage, kind, filed]
      have stored : ∀ l, Stored ((w.step tokens token d).books l) := by
        rw [books]
        exact stored_update held.stored ⟨⟨_, reads.depth⟩, fun side => by
          rw [reads.array]
          exact allows.inRange.book kind (by simp [filed]) side⟩
      by_cases same : at_label = label
      · subst same
        have full : isFull token d.message = true := by rw [full_iff, concerns_iff known dict, filed]
        refine ⟨stored, fun _ => ?_⟩
        have lists := allows.delivers.lists full not_quote not_deltas
        rw [books, Function.update_self]
        refine ⟨by simp [World.step, full], fun side => ?_, fun side => ?_⟩
        · rw [reads.array]
          exact lists side
        · rw [reads.quote]
          exact allows.settles.full full side
      · have not_full : isFull token d.message = false := by
          rw [full_iff, Bool.eq_false_iff, ne_eq, concerns_iff known dict, filed]
          simpa using same
        obtain ⟨venue, stale⟩ := @untouched tokens _ _ _ allows.delivers not_full not_quote not_deltas
        have elsewhere : (w.step tokens token d).books label = w.books label := by
          rw [books]
          exact Function.update_of_ne (Ne.symm same) _ _
        exact held.of_reads stored venue stale (by rw [elsewhere]) (fun _ => by rw [elsewhere])
          fun _ => by rw [elsewhere]

theorem Held.quote {w : World} (held : Held token label w) {d : Delivery} (allows : Allows tokens token label w d)
    (kind : eventType d.message = some (txt "best_bid_ask")) : Held token label (w.step tokens token d) := by
  have dict := isDict_of_eventType kind (by simp)
  have not_deltas : isDeltas d.message = false := by simp [isDeltas, kind]
  have not_full : isFull token d.message = false := by simp [isFull, kind]
  have quote_iff : isQuote token d.message = concerns token d.message := by simp [isQuote, kind]
  cases filed : labelOf tokens d.message with
  | none =>
      have not_quote : isQuote token d.message = false := by
        rw [quote_iff, Bool.eq_false_iff, ne_eq, concerns_iff known dict, filed]
        simp
      obtain ⟨venue, stale⟩ := @untouched tokens _ _ _ allows.delivers not_full not_quote not_deltas
      have same : (w.step tokens token d).books = w.books := by simp [World.step, handleWsMessage, kind, filed]
      exact held.of_reads (by rw [same]; exact held.stored) venue stale (by rw [same]) (fun _ => by rw [same])
        fun _ => by rw [same]
  | some at_label =>
      have reads := @stamp_reads (((w.books at_label).set (txt "best_bid")
        (d.message.get (txt "best_bid"))).set (txt "best_ask") (d.message.get (txt "best_ask")))
        (by simpa using (held.stored at_label).isDict) (txt "ws_best_bid_ask") false
        (orElse (d.message.get (txt "timestamp")) (.str d.clock.isoNow)) d.clock.monotonic
      have books : (w.step tokens token d).books = Function.update w.books at_label (stampMetricUpdate
          (((w.books at_label).set (txt "best_bid") (d.message.get (txt "best_bid"))).set (txt "best_ask")
            (d.message.get (txt "best_ask"))) (txt "ws_best_bid_ask") false
          (orElse (d.message.get (txt "timestamp")) (.str d.clock.isoNow)) d.clock.monotonic) := by
        simp [World.step, handleWsMessage, kind, filed]
      have stored : ∀ l, Stored ((w.step tokens token d).books l) := by
        rw [books]
        refine stored_update held.stored ⟨⟨_, reads.depth⟩, fun side => ?_⟩
        have ask : side.key ≠ txt "best_ask" := Side.key_ne_quote side .asks
        have bid : side.key ≠ txt "best_bid" := Side.key_ne_quote side .bids
        rw [reads.array, PyValue.get_set_of_ne _ ask, PyValue.get_set_of_ne _ bid]
        exact (held.stored at_label).readable side
      by_cases same : at_label = label
      · subst same
        refine ⟨stored, fun mark => ?_⟩
        rw [books, Function.update_self, marked, reads.depth] at mark
        cases mark
      · have not_quote : isQuote token d.message = false := by
          rw [quote_iff, Bool.eq_false_iff, ne_eq, concerns_iff known dict, filed]
          simpa using same
        obtain ⟨venue, stale⟩ := @untouched tokens _ _ _ allows.delivers not_full not_quote not_deltas
        have elsewhere : (w.step tokens token d).books label = w.books label := by
          rw [books]
          exact Function.update_of_ne (Ne.symm same) _ _
        exact held.of_reads stored venue stale (by rw [elsewhere]) (fun _ => by rw [elsewhere])
          fun _ => by rw [elsewhere]

theorem Held.deltas {w : World} (held : Held token label w) {d : Delivery} (allows : Allows tokens token label w d)
    (kind : eventType d.message = some (txt "price_change")) : Held token label (w.step tokens token d) := by
  have is_deltas : isDeltas d.message = true := by simp [isDeltas, kind]
  have not_full : isFull token d.message = false := by simp [isFull, kind]
  have not_quote : isQuote token d.message = false := by simp [isQuote, kind]
  have carries := allows.delivers.carries is_deltas not_full not_quote
  obtain ⟨stored, mark_eq, quote, lists⟩ := priceChanges_spec known d.clock
    (orElse (d.message.get (txt "timestamp")) (.str d.clock.isoNow)) held.stored (allows.inRange.deltas is_deltas)
  have books : (w.step tokens token d).books = priceChanges tokens d.clock
      (orElse (d.message.get (txt "timestamp")) (.str d.clock.isoNow)) w.books (entries d.message) := by
    simp [World.step, handleWsMessage, kind]
  rw [← books] at stored mark_eq quote lists
  refine ⟨stored, fun mark => ?_⟩
  rw [mark_eq] at mark
  change markAfter (entriesOf token d.message) _ = true at mark
  have before : marked (w.books label) = true ∧ (∀ entry ∈ entriesOf token d.message, usable entry = true) ∧
      ∀ side, RightQuote side (w.venue.after d.changes)
        (newest side ((w.books label).get side.quote) (entriesOf token d.message)) := by
    cases last : (entriesOf token d.message).getLast? with
    | none =>
        have empty := List.getLast?_eq_none_iff.mp last
        simp only [markAfter, last] at mark
        rw [empty, List.forall₂_nil_left_iff] at carries
        rw [empty, carries]
        exact ⟨mark, by simp, fun side => (held.exact mark).2.2 side⟩
    | some entry =>
        simp only [markAfter, last] at mark
        exact allows.settles.deltas is_deltas entry last mark
  obtain ⟨marked_before, all_usable, right⟩ := before
  obtain ⟨fresh, listed, -⟩ := held.exact marked_before
  refine ⟨?_, lists w.venue d.changes all_usable carries listed, fun side => ?_⟩
  · have none_lost : (entriesOf token d.message).any (fun entry => !usable entry) = false := by
      simpa using all_usable
    simp [World.step, fresh, lost, not_quote, none_lost]
  · rw [quote]
    exact right side

omit known in
theorem Held.trade {w : World} (held : Held token label w) {d : Delivery} (allows : Allows tokens token label w d)
    (kind : eventType d.message = some (txt "last_trade_price")) : Held token label (w.step tokens token d) := by
  obtain ⟨venue, stale⟩ := @untouched tokens _ _ _ allows.delivers (by simp [isFull, kind])
    (by simp [isQuote, kind]) (by simp [isDeltas, kind])
  have same (l : Label) {key : Text} (other : key ≠ txt "last_trade_price") :
      ((w.step tokens token d).books l).get key = (w.books l).get key := by
    simp only [World.step, handleWsMessage, kind]
    cases filed : labelOf tokens d.message with
    | none => simp
    | some at_label =>
        by_cases here : l = at_label
        · subst here
          simp [other]
        · simp [Function.update_of_ne here]
  have key (side : Side) : side.key ≠ txt "last_trade_price" := by cases side <;> simp [Side.key]
  have quote (side : Side) : side.quote ≠ txt "last_trade_price" := by cases side <;> simp [Side.quote]
  have stored (l : Label) : Stored ((w.step tokens token d).books l) := by
    refine ⟨?_, fun side => ?_⟩
    · rw [same l (by simp)]
      exact (held.stored l).stamped
    · rw [same l (key side)]
      exact (held.stored l).readable side
  exact held.of_reads stored venue stale (same label (by simp)) (fun side => same label (key side))
    fun side => same label (quote side)

theorem Held.step {w : World} (held : Held token label w) {d : Delivery} (allows : Allows tokens token label w d) :
    Held token label (w.step tokens token d) := by
  by_cases book : eventType d.message = some (txt "book")
  · exact held.full known allows book
  by_cases quote : eventType d.message = some (txt "best_bid_ask")
  · exact held.quote known allows quote
  by_cases deltas : eventType d.message = some (txt "price_change")
  · exact held.deltas known allows deltas
  by_cases trade : eventType d.message = some (txt "last_trade_price")
  · exact held.trade allows trade
  obtain ⟨venue, stale⟩ := @untouched tokens _ _ _ allows.delivers (by simp [isFull, book])
    (by simp [isQuote, quote]) (by simp [isDeltas, deltas])
  have same : (w.step tokens token d).books = w.books := by
    simp [World.step, handleWsMessage, book, quote, deltas, trade]
  exact held.of_reads (by rw [same]; exact held.stored) venue stale (by rw [same]) (fun _ => by rw [same])
    fun _ => by rw [same]

end Step

/-! ## What is reported -/

theorem levels_sorted {raw : PyValue} {side : Side} {cached : List Level} (read : levels raw side = .ok cached) :
    cached.Pairwise (side.le · ·) := by
  cases raw with
  | list items =>
      obtain ⟨out, -, sorted⟩ := Py.bind_eq_ok.mp read
      obtain rfl := Except.ok.inj sorted
      exact side.pairwise_sort _
  | _ =>
      cases read
      exact .nil

/-- The reported best price is the best cached level. -/
theorem best_reported {side : Side} {raw quote : PyValue} {cached : List Level} {venue : Venue}
    {scalar : Option Double} (read : levels raw side = .ok cached) (lists : Lists cached (venue side))
    (right : RightQuote side venue quote) (read_quote : float quote = .ok scalar) :
    (bestOf scalar cached).map Double.value = best side cached ∧ ∀ x ∈ bestOf scalar cached, x.isFinite = true := by
  cases scalar with
  | some x =>
      obtain ⟨finite, is_best⟩ := right x read_quote
      refine ⟨(lists.best_eq_some_iff.mpr is_best).symm, ?_⟩
      rintro y ⟨⟩
      exact finite
  | none =>
      refine ⟨?_, ?_⟩
      · rw [lists.best_eq_head (levels_sorted read)]
        cases cached <;> rfl
      · intro x first
        obtain ⟨level, head, rfl⟩ := Option.map_eq_some_iff.mp (show cached.head?.map (·.price) = some x from first)
        exact (lists.proper level (List.mem_of_mem_head? head)).finitePrice

theorem spread_nonneg (x : Double) : Double.le (.round 0) (PyFloat.maximum (.round 0) x) = true := by
  have zero : Double.le (.round 0) (.round 0) = true := (Double.le_iff rfl rfl).mpr (le_refl _)
  unfold PyFloat.maximum
  split
  · rename_i above
    change Double.lt (.round 0) x = true at above
    simp only [Double.lt, Double.le, Bool.and_eq_true, decide_eq_true_eq] at above ⊢
    exact ⟨above.1, above.2.le⟩
  · exact zero

theorem depthCurrent_eq {book : PyValue} (stored : Stored book) (bids asks : List Level) :
    depthCurrent book bids asks = marked book := by
  obtain ⟨flag, found⟩ := stored.stamped
  cases book with
  | dict members =>
      cases flagged : Json.lookup (txt "depth_current") members with
      | none => simp [PyValue.get, flagged] at found
      | some value => simp [depthCurrent, marked, PyValue.get, flagged]
  | _ => simp [PyValue.get] at found

theorem Held.reported {token : Text} {label : Label} {w : World} (held : Held token label w) :
    Exact w.venue w.stale (w.books label) := by
  intro metrics reported current
  obtain ⟨bids, read_bids, reported⟩ := Py.bind_eq_ok.mp reported
  obtain ⟨asks, read_asks, reported⟩ := Py.bind_eq_ok.mp reported
  obtain ⟨bid, read_bid, reported⟩ := Py.bind_eq_ok.mp reported
  obtain ⟨ask, read_ask, reported⟩ := Py.bind_eq_ok.mp reported
  obtain ⟨trade, -, reported⟩ := Py.bind_eq_ok.mp reported
  cases reported
  rw [depthCurrent_eq (held.stored label)] at current
  obtain ⟨fresh, lists, right⟩ := held.exact current
  obtain ⟨listed_bids, listed_bids_eq, lists_bids⟩ := lists .bids
  obtain ⟨listed_asks, listed_asks_eq, lists_asks⟩ := lists .asks
  cases read_bids.symm.trans listed_bids_eq
  cases read_asks.symm.trans listed_asks_eq
  obtain ⟨best_bid, finite_bid⟩ := best_reported read_bids lists_bids (right .bids) read_bid
  obtain ⟨best_ask, finite_ask⟩ := best_reported read_asks lists_asks (right .asks) read_ask
  refine ⟨fresh, bids, asks, read_bids, lists_bids, read_asks, lists_asks, best_bid, best_ask, finite_bid,
    finite_ask, ?_⟩
  intro spread computed
  obtain ⟨x, -, computed⟩ := Option.bind_eq_some_iff.mp computed
  obtain ⟨y, -, rfl⟩ := Option.map_eq_some_iff.mp computed
  exact spread_nonneg _

/-! ## From the start -/

/-- The answers the adapter starts with: arrays that can be read, and for the token either nothing or the venue's
    book. -/
structure Answers (label : Label) (venue : Venue) (answers : Label → PyValue) : Prop where
  readable : ∀ l (side : Side), ∃ cached, levels ((answers l).get side.key) side = .ok cached
  own : answers label = .dict [] ∨
    ListsBook (answers label) venue ∧ ∀ side : Side, RightQuote side venue ((answers label).get side.quote)

def World.start (venue : Venue) (monotonic : Double) (answers : Label → PyValue) : World where
  venue
  stale := false
  books := bootstrap monotonic answers

theorem held_start {token : Text} {label : Label} {venue : Venue} {answers : Label → PyValue}
    (answered : Answers label venue answers) (monotonic : Double) :
    Held token label (World.start venue monotonic answers) := by
  have reads (l : Label) : Reads (bootstrap monotonic answers l)
      (orElse ((answers l).get (txt "bids")) ((answers l).get (txt "asks"))).truthy
      (fun side => (answers l).get side.key) fun side => (answers l).get side.quote := by
    have read (book : PyValue) (dict : book.isDict = true) := stamp_reads dict (txt "rest_book")
      (orElse (book.get (txt "bids")) (book.get (txt "asks"))).truthy (book.get (txt "timestamp")) monotonic
    cases dict : (answers l).isDict with
    | true => simpa [bootstrap, dict] using read _ dict
    | false =>
        have absent (key : Text) : (answers l).get key = (PyValue.dict []).get key := by
          cases given : answers l <;> first | rfl | simp [given, PyValue.isDict] at dict
        simp only [absent, bootstrap, dict]
        exact read (.dict []) rfl
  refine ⟨fun l => ⟨⟨_, (reads l).depth⟩, fun side => ?_⟩, fun mark => ?_⟩
  · simp only [World.start, (reads l).array]
    exact answered.readable l side
  · simp only [World.start, marked, (reads label).depth] at mark
    rcases answered.own with empty | ⟨lists, right⟩
    · rw [empty] at mark
      cases mark
    · refine ⟨rfl, fun side => ?_, fun side => ?_⟩
      · simp only [World.start, (reads label).array]
        exact lists side
      · simp only [World.start, (reads label).quote]
        exact right side

/-- Depth is exact wherever it is reported as current. -/
theorem depth_exact {tokens : Tokens} {token : Text} {label : Label} (known : tokens.label token = some label)
    {venue : Venue} {answers : Label → PyValue} (answered : Answers label venue answers) (monotonic : Double)
    {deliveries : List Delivery} (allowed : Allowed (World.step tokens token) (Allows tokens token label)
      (World.start venue monotonic answers) deliveries) {first : List Delivery} (reached : first <+: deliveries) :
    let w := run (World.step tokens token) (World.start venue monotonic answers) first
    Exact w.venue w.stale (w.books label) := by
  obtain ⟨rest, rfl⟩ := reached
  have start : Held token label (World.start venue monotonic answers) := held_start answered monotonic
  have kept (w : World) (d : Delivery) (held : Held token label w) (allows : Allows tokens token label w d) :=
    held.step known allows
  have held := @run_invariant _ _ _ _ (Held token label) kept _ start _ ((allowed_append _ first rest).mp allowed).1
  exact held.reported

/-! ### Two short runs -/

private def half : Double := .round (1 / 2)

private def quarter : Double := .round (1 / 4)

private def ten : Double := .round 10

private def fresh : Clock := ⟨txt "2026-01-01T00:00:00+00:00", .round 1⟩

private def changeOf (price size : Double) (nonneg : 0 ≤ size.value) : Change := ⟨.bids, price.value, size.value, nonneg⟩

private theorem ten_nonneg : 0 ≤ ten.value := by decide +kernel

/-- A book of one bid. -/
private def oneBid : Delivery where
  changes := [changeOf half ten ten_nonneg]
  message := PyValue.ofMembers [(txt "event_type", .str (txt "book")), (txt "asset_id", .str (txt "u")),
    (txt "bids", .list ([⟨half, ten⟩].map Level.toValue)), (txt "asks", .list [])]
  clock := fresh

/-- A bid of a quarter, told only by the best prices. -/
private def onlyQuoted : Delivery where
  changes := [changeOf quarter ten ten_nonneg]
  message := PyValue.ofMembers [(txt "event_type", .str (txt "best_bid_ask")), (txt "asset_id", .str (txt "u")),
    (txt "best_bid", .float half)]
  clock := fresh

private def removal : PyValue := PyValue.ofMembers [(txt "asset_id", .str (txt "u")),
  (txt "side", .str (txt "BUY")), (txt "price", .float half), (txt "size", .float (.round 0))]

private theorem zero_nonneg : 0 ≤ (Double.round 0).value := Double.value_round_zero.ge

/-- The removal of the bid of a half. -/
private def removed : Delivery where
  changes := [changeOf half (.round 0) zero_nonneg]
  message := PyValue.ofMembers
    [(txt "event_type", .str (txt "price_change")), (txt "price_changes", .list [removal])]
  clock := fresh

private theorem delivers_oneBid : Delivers (txt "u") 0 oneBid.changes oneBid.message := by
  refine .full (by decide) ?_
  intro side
  cases side with
  | bids =>
      refine ⟨_, levels_written [⟨half, ten⟩] .bids, Lists.sort ?_ _⟩
      exact Lists.nil.assign (by decide +kernel) (by decide +kernel) (by decide +kernel)
  | asks => exact ⟨_, levels_written [] .asks, Lists.nil.sort _⟩

private theorem read_removal : readChange removal = .ok (some ⟨.bids, half, .round 0⟩) := by rfl

private theorem delivers_removed (venue : Venue) : Delivers (txt "u") venue removed.changes removed.message := by
  refine .deltas (by decide) (List.Forall₂.cons ?_ .nil)
  intro delta read
  obtain rfl := Option.some.inj (Except.ok.inj (read_removal.symm.trans read))
  exact ⟨rfl, by decide +kernel, rfl, by decide +kernel, rfl⟩

private theorem ok_of_toOption {α : Type} {call : Py α} {a : α} (given : call.toOption = some a) : call = .ok a := by
  cases call with
  | ok b => exact congrArg Except.ok (Option.some.inj given)
  | error e => cases given

private def watched : Tokens := ⟨txt "u", txt "d"⟩

private def quiet : World := World.start 0 (.round 0) fun _ => .dict []

private theorem answers_quiet : Answers .up 0 fun _ => .dict [] where
  readable _ side := ⟨[], by cases side <;> rfl⟩
  own := .inl rfl

private theorem allowed_bidRemoved : Allowed (World.step watched (txt "u")) (Allows watched (txt "u") .up) quiet
    [oneBid, removed] := by
  refine ⟨⟨delivers_oneBid, ⟨fun _ _ side => ?_, ?_⟩, ⟨?_, fun _ side x read => ?_⟩⟩,
    ⟨delivers_removed _, ⟨?_, fun _ entry member _ _ => ?_⟩, ⟨fun _ last only _ => ?_, ?_⟩⟩, trivial⟩
  · cases side with
    | bids => exact ⟨_, levels_written [⟨half, ten⟩] .bids⟩
    | asks => exact ⟨_, levels_written [] .asks⟩
  · intro deltas
    exact absurd deltas (by decide)
  · intro deltas
    exact absurd deltas (by decide)
  · cases side <;> cases read
  · intro kind
    exact absurd kind (by decide)
  · obtain rfl := List.mem_singleton.mp member
    exact ⟨_, read_removal⟩
  · refine ⟨by decide, fun entry member => ?_, fun side x read => ?_⟩
    · obtain rfl := List.mem_singleton.mp member
      rfl
    · cases side <;> cases read
  · intro full
    exact absurd full (by decide)

theorem depth_exact_bidRemoved :
    let w := run (World.step watched (txt "u")) quiet [oneBid, removed]
    Exact w.venue w.stale (w.books .up) :=
  depth_exact (by decide +kernel) answers_quiet (.round 0) allowed_bidRemoved List.prefix_rfl

/-- Depth is reported as current although a bid of the venue is missing from it. -/
theorem not_exact_deltaAfterQuote :
    Allowed (World.step watched (txt "u")) (fun w d => Delivers (txt "u") w.venue d.changes d.message) quiet
      [oneBid, onlyQuoted, removed] ∧
    ¬ (let w := run (World.step watched (txt "u")) quiet [oneBid, onlyQuoted, removed]
       Exact w.venue w.stale (w.books .up)) := by
  refine ⟨⟨delivers_oneBid, .quote (by decide +kernel), delivers_removed _, trivial⟩, ?_⟩
  intro exact
  have current : (bookMetrics ((run (World.step watched (txt "u")) quiet [oneBid, onlyQuoted, removed]).books
      .up)).toOption.map (·.depthCurrent) = some true := by decide +kernel
  have empty : (levels (((run (World.step watched (txt "u")) quiet [oneBid, onlyQuoted, removed]).books .up).get
      (txt "bids")) .bids).toOption = some [] := by decide +kernel
  have missing : 0 < (run (World.step watched (txt "u")) quiet [oneBid, onlyQuoted, removed]).venue .bids
      quarter.value := by decide +kernel
  obtain ⟨metrics, reported, marked⟩ := Option.map_eq_some_iff.mp current
  obtain ⟨-, bids, -, read, lists, -⟩ := exact metrics (ok_of_toOption reported) marked
  obtain rfl := Except.ok.inj ((ok_of_toOption empty).symm.trans read)
  exact List.not_mem_nil (lists.mem_iff.mpr missing)

end Senex.Polymarket
