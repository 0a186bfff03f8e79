import Senex.Research.Conservation

/-! # A replay does not look ahead

What a replay records carries the timestamp of the candle it was recorded at, and
the records only grow.  A run over more candles therefore has, up to the last
candle of a shorter one, just the records of the shorter one.
-/

namespace Senex.Research

open Text Paper

variable {M D : Type} [Decimal D]

/-! ## Records -/

/-- What a run records with a timestamp. -/
structure Records (D : Type) where
  fills : List (Fill D)
  rejections : List (Rejection D)
  expiredOrders : List ExpiredOrder
  cancelledOrders : List CancelledOrder
  equityCurve : List (EquityPoint D)

def Books.records (b : Books M D) : Records D :=
  ⟨b.fills, b.rejections, b.expiredOrders, b.cancelledOrders, b.equityCurve⟩

def RunReport.records (r : RunReport D) : Records D :=
  ⟨r.fills, r.rejections, r.expiredOrders, r.cancelledOrders, r.equityCurve⟩

/-- The records that are not later than a timestamp. -/
def Records.upTo (r : Records D) (timestamp : Text) : Records D where
  fills := r.fills.filter fun x => !decide (timestamp < x.timestamp)
  rejections := r.rejections.filter fun x => !decide (timestamp < x.timestamp)
  expiredOrders := r.expiredOrders.filter fun x => !decide (timestamp < x.timestamp)
  cancelledOrders := r.cancelledOrders.filter fun x => !decide (timestamp < x.timestamp)
  equityCurve := r.equityCurve.filter fun x => !decide (timestamp < x.timestamp)

/-! ## Growth -/

/-- A list with elements appended to it, each at an admitted time. -/
def Appends {α : Type} (time : α → Text) (admitted : Text → Prop) (before after : List α) : Prop :=
  ∃ new, after = before ++ new ∧ ∀ x ∈ new, admitted (time x)

namespace Appends

variable {α : Type} {time : α → Text} {admitted wider : Text → Prop} {before middle after : List α}

theorem refl (before : List α) : Appends time admitted before before :=
  ⟨[], (List.append_nil _).symm, by simp⟩

theorem one {x : α} (allowed : admitted (time x)) : Appends time admitted before (before ++ [x]) :=
  ⟨[x], rfl, by simpa using allowed⟩

theorem trans (first : Appends time admitted before middle) (second : Appends time admitted middle after) :
    Appends time admitted before after := by
  obtain ⟨new, rfl, early⟩ := first
  obtain ⟨newer, rfl, late⟩ := second
  refine ⟨new ++ newer, List.append_assoc _ _ _, fun x member => ?_⟩
  rcases List.mem_append.mp member with here | here
  · exact early x here
  · exact late x here

theorem widen (appends : Appends time admitted before after) (wide : ∀ t, admitted t → wider t) :
    Appends time wider before after := by
  obtain ⟨new, same, each⟩ := appends
  exact ⟨new, same, fun x member => wide _ (each x member)⟩

/-- The elements up to a time are those that were there by then. -/
theorem filter_eq {timestamp : Text} (early : ∀ x ∈ before, ¬timestamp < time x)
    (appends : Appends time (timestamp < ·) before after) :
    after.filter (fun x => !decide (timestamp < time x)) = before := by
  obtain ⟨new, rfl, late⟩ := appends
  rw [List.filter_append, List.filter_eq_self.mpr (by simpa using early),
    List.filter_eq_nil_iff.mpr (by simpa using late), List.append_nil]

end Appends

/-- Records that have grown at admitted times only. -/
structure Grows (admitted : Text → Prop) (before after : Records D) : Prop where
  fills : Appends Fill.timestamp admitted before.fills after.fills
  rejections : Appends Rejection.timestamp admitted before.rejections after.rejections
  expiredOrders : Appends ExpiredOrder.timestamp admitted before.expiredOrders after.expiredOrders
  cancelledOrders : Appends CancelledOrder.timestamp admitted before.cancelledOrders after.cancelledOrders
  equityCurve : Appends EquityPoint.timestamp admitted before.equityCurve after.equityCurve

namespace Grows

variable {admitted wider : Text → Prop} {before middle after : Records D}

omit [Decimal D] in
theorem refl (before : Records D) : Grows admitted before before :=
  ⟨.refl _, .refl _, .refl _, .refl _, .refl _⟩

omit [Decimal D] in
theorem trans (first : Grows admitted before middle) (second : Grows admitted middle after) :
    Grows admitted before after :=
  ⟨first.fills.trans second.fills, first.rejections.trans second.rejections,
    first.expiredOrders.trans second.expiredOrders,
    first.cancelledOrders.trans second.cancelledOrders, first.equityCurve.trans second.equityCurve⟩

omit [Decimal D] in
theorem widen (grows : Grows admitted before after) (wide : ∀ t, admitted t → wider t) :
    Grows wider before after :=
  ⟨grows.fills.widen wide, grows.rejections.widen wide, grows.expiredOrders.widen wide,
    grows.cancelledOrders.widen wide, grows.equityCurve.widen wide⟩

omit [Decimal D] in
/-- Records that began empty and then grew behind a time are, up to it, what they were by then. -/
theorem upTo_eq {timestamp : Text} (early : Grows (¬timestamp < ·) ⟨[], [], [], [], []⟩ before)
    (late : Grows (timestamp < ·) before after) : after.upTo timestamp = before := by
  have by_then {α : Type} {time : α → Text} {there : List α}
      (appends : Appends time (¬timestamp < ·) [] there) : ∀ x ∈ there, ¬timestamp < time x := by
    obtain ⟨new, rfl, each⟩ := appends
    simpa using each
  obtain ⟨fills, rejections, expired, cancelled, curve⟩ := early
  simp only [Records.upTo, late.fills.filter_eq (by_then fills),
    late.rejections.filter_eq (by_then rejections), late.expiredOrders.filter_eq (by_then expired),
    late.cancelledOrders.filter_eq (by_then cancelled), late.equityCurve.filter_eq (by_then curve)]

end Grows

/-! ## One candle -/

section
variable {b after : Books M D} {costs : CostProfile D} {index : Nat} {candle : Candle D}

theorem settle_grows {order : PendingOrder D} {settled : Settled D}
    (done : settle costs index candle b.ledger order = .ok settled) :
    Grows (· = candle.timestamp) b.records (b.book settled).records := by
  unfold settle at done
  split at done
  · obtain rfl := Except.ok.inj done
    exact .refl _
  · split at done
    · split at done
      · rename_i ledger fill filled
        obtain rfl := Except.ok.inj done
        have time : fill.timestamp = candle.timestamp := by
          unfold executeFill at filled
          obtain ⟨_, _, rest⟩ := Py.bind_eq_ok.mp filled
          obtain ⟨_, _, rest⟩ := Py.bind_eq_ok.mp rest
          obtain ⟨_, _, rest⟩ := Py.bind_eq_ok.mp rest
          obtain ⟨_, _, rest⟩ := Py.bind_eq_ok.mp rest
          obtain ⟨_, _, rest⟩ := Py.bind_eq_ok.mp rest
          obtain ⟨_, _, same⟩ := Py.bind_eq_ok.mp rest
          rw [← (Prod.mk.inj (Except.ok.inj same)).2]
        exact ⟨.one time, .refl _, .refl _, .refl _, .refl _⟩
      · split at done
        · obtain rfl := Except.ok.inj done
          exact ⟨.refl _, .one rfl, .refl _, .refl _, .refl _⟩
        · cases done
    · dsimp only at done
      split at done
      · obtain rfl := Except.ok.inj done
        exact ⟨.refl _, .refl _, .one rfl, .refl _, .refl _⟩
      · obtain rfl := Except.ok.inj done
        exact .refl _

theorem foldlM_settle_grows {orders : List (PendingOrder D)}
    (done : orders.foldlM (fun b order => return b.book (← settle costs index candle b.ledger order)) b =
      .ok after) : Grows (· = candle.timestamp) b.records after.records := by
  induction orders generalizing b with
  | nil =>
      obtain rfl := Except.ok.inj done
      exact .refl _
  | cons order orders ih =>
      rw [List.foldlM_cons] at done
      obtain ⟨next, one, rest⟩ := Py.bind_eq_ok.mp done
      obtain ⟨settled, settling, same⟩ := Py.bind_eq_ok.mp one
      obtain rfl := Except.ok.inj same
      exact (settle_grows settling).trans (ih rest)

theorem mark_grows {snapshot : PortfolioSnapshot D} (done : b.mark candle snapshot = .ok after) :
    Grows (· = candle.timestamp) b.records after.records := by
  unfold Books.mark at done
  obtain ⟨drawdown, _, same⟩ := Py.bind_eq_ok.mp done
  obtain rfl := Except.ok.inj same
  exact ⟨.refl _, .refl _, .refl _, .refl _, .one rfl⟩

theorem take_grows {strategyId : Text} {defaultOrderTtl : Option Nat} {intent : Intent D}
    (done : b.take strategyId defaultOrderTtl index candle intent = .ok after) :
    Grows (· = candle.timestamp) b.records after.records := by
  cases intent with
  | other => simp [Books.take] at done
  | order intent =>
      obtain rfl := Except.ok.inj done
      exact .refl _
  | cancel intent =>
      obtain rfl := Except.ok.inj done
      unfold Books.cancel
      split
      · exact ⟨.refl _, .one rfl, .refl _, .refl _, .refl _⟩
      · exact ⟨.refl _, .refl _, .refl _, .one rfl, .refl _⟩

theorem foldlM_take_grows {strategyId : Text} {defaultOrderTtl : Option Nat} {intents : List (Intent D)}
    (done : intents.foldlM (Books.take strategyId defaultOrderTtl index candle) b = .ok after) :
    Grows (· = candle.timestamp) b.records after.records := by
  induction intents generalizing b with
  | nil =>
      obtain rfl := Except.ok.inj done
      exact .refl _
  | cons intent intents ih =>
      rw [List.foldlM_cons] at done
      obtain ⟨next, one, rest⟩ := Py.bind_eq_ok.mp done
      exact (take_grows one).trans (ih rest)

/-- A candle records at its own timestamp. -/
theorem step_grows {strategy : Strategy M D} {config : ReplayConfig D}
    (done : b.step strategy config index candle = .ok after) :
    Grows (· = candle.timestamp) b.records after.records := by
  unfold Books.step at done
  obtain ⟨settled, settling, done⟩ := Py.bind_eq_ok.mp done
  obtain ⟨snapshot, _, done⟩ := Py.bind_eq_ok.mp done
  obtain ⟨marked, marking, done⟩ := Py.bind_eq_ok.mp done
  obtain ⟨⟨memory, answer⟩, _, done⟩ := Py.bind_eq_ok.mp done
  obtain ⟨intents, _, done⟩ := Py.bind_eq_ok.mp done
  have first : Grows (· = candle.timestamp) b.records settled.records :=
    @foldlM_settle_grows _ _ _ { b with pending := [] } _ _ _ _ _ settling
  exact (first.trans (mark_grows marking)).trans
    (@foldlM_take_grows _ _ _ { marked with memory } _ _ _ _ _ _ done)

end

/-! ## Whole runs -/

section
variable {strategy : Strategy M D} {config : ReplayConfig D} {b after : Books M D}

theorem loop_append {index : Nat} {front back : List (Candle D)} :
    b.loop strategy config index (front ++ back) = .ok after ↔
      ∃ middle, b.loop strategy config index front = .ok middle ∧
        middle.loop strategy config (index + front.length) back = .ok after := by
  induction front generalizing b index with
  | nil => simp [Books.loop]
  | cons candle front ih =>
      simp only [List.cons_append, Books.loop, Py.bind_eq_ok, ih, List.length_cons]
      constructor
      · rintro ⟨next, one, middle, early, late⟩
        refine ⟨middle, ⟨next, one, early⟩, ?_⟩
        rw [show index + (front.length + 1) = index + 1 + front.length by omega]
        exact late
      · rintro ⟨middle, ⟨next, one, early⟩, late⟩
        refine ⟨next, one, middle, early, ?_⟩
        rw [show index + (front.length + 1) = index + 1 + front.length by omega] at late
        exact late

theorem loop_grows {index : Nat} {bars : List (Candle D)}
    (done : b.loop strategy config index bars = .ok after) :
    Grows (fun t => ∃ candle ∈ bars, t = candle.timestamp) b.records after.records := by
  induction bars generalizing b index with
  | nil =>
      obtain rfl := Except.ok.inj done
      exact .refl _
  | cons candle bars ih =>
      obtain ⟨next, one, rest⟩ := Py.bind_eq_ok.mp done
      refine ((step_grows one).widen fun t same => ?_).trans ((ih rest).widen fun t later => ?_)
      · exact ⟨candle, List.mem_cons_self, same⟩
      · obtain ⟨other, member, same⟩ := later
        exact ⟨other, List.mem_cons_of_mem _ member, same⟩

/-- The timestamps of a validated list increase from every candle to every later one. -/
theorem pairwise_of_validated {bars : List (Candle D)} (valid : validateInputs bars = .ok ()) :
    bars.Pairwise fun a b => a.timestamp < b.timestamp := by
  cases bars with
  | nil => exact List.Pairwise.nil
  | cons candle bars =>
      simp only [validateInputs, guardNot_eq_ok, Bool.not_eq_false', decide_eq_true_eq] at valid
      have : IsTrans (Candle D) fun a b => a.timestamp < b.timestamp := ⟨fun _ _ _ => lt_trans⟩
      exact valid.pairwise

theorem records_report {b : Books M D} {source : Text} {bars : List (Candle D)} {first last : Candle D}
    {report : RunReport D} (reported : b.report strategy config source bars first last = .ok report) :
    report.records = b.records := by
  unfold Books.report at reported
  obtain ⟨_, _, rest⟩ := Py.bind_eq_ok.mp reported
  obtain ⟨_, _, same⟩ := Py.bind_eq_ok.mp rest
  rw [← Except.ok.inj same]
  rfl

/-- A report is that of the books behind the last candle of a validated list. -/
theorem run_eq_ok {bars : List (Candle D)} {memory : M} {source : Option Text} {report : RunReport D}
    (done : Replay.run bars strategy memory config source = .ok report) :
    validateInputs bars = .ok () ∧
      ∃ books, replayed bars strategy memory config = .ok books ∧ report.records = books.records := by
  unfold Replay.run at done
  obtain ⟨_, valid, rest⟩ := Py.bind_eq_ok.mp done
  obtain ⟨_, _, rest⟩ := Py.bind_eq_ok.mp rest
  obtain ⟨books, looped, rest⟩ := Py.bind_eq_ok.mp rest
  refine ⟨valid, books, looped, ?_⟩
  split at rest
  · exact records_report rest
  · cases rest

end

/-- Up to the last candle of a beginning of its list, a run has recorded what the run over that
beginning records, which goes through all of its candles. -/
theorem run_noLookahead {front back : List (Candle D)} {last : Candle D} {strategy : Strategy M D}
    {memory : M} {config : ReplayConfig D} {source : Option Text} {whole : RunReport D}
    (ends : front.getLast? = some last)
    (done : Replay.run (front ++ back) strategy memory config source = .ok whole) :
    (∃ books, replayed front strategy memory config = .ok books ∧
      books.records = whole.records.upTo last.timestamp) ∧
    ∀ source part, Replay.run front strategy memory config source = .ok part →
      part.records = whole.records.upTo last.timestamp := by
  obtain ⟨valid, books, looped, records⟩ := run_eq_ok done
  have ordered := List.pairwise_append.mp (pairwise_of_validated valid)
  obtain ⟨ledger, opened, looped⟩ := Py.bind_eq_ok.mp looped
  obtain ⟨middle, early, late⟩ := loop_append.mp looped
  obtain ⟨start, front_eq⟩ := List.getLast?_eq_some_iff.mp ends
  have within : Grows (¬last.timestamp < ·) ⟨[], [], [], [], []⟩ middle.records := by
    refine (loop_grows early).widen ?_
    rintro t ⟨candle, member, rfl⟩
    have increasing := ordered.1
    rw [front_eq] at member increasing
    rcases List.mem_append.mp member with before | same
    · exact lt_asymm ((List.pairwise_append.mp increasing).2.2 candle before last (by simp))
    · rw [List.mem_singleton.mp same]
      exact lt_irrefl _
  have behind : Grows (last.timestamp < ·) middle.records books.records := by
    refine (loop_grows late).widen ?_
    rintro t ⟨candle, member, rfl⟩
    exact ordered.2.2 last (by rw [front_eq]; simp) candle member
  have same : middle.records = whole.records.upTo last.timestamp := by
    rw [records]
    exact (within.upTo_eq behind).symm
  have short : replayed front strategy memory config = .ok middle :=
    Py.bind_eq_ok.mpr ⟨ledger, opened, early⟩
  refine ⟨⟨middle, short, same⟩, fun source part partly => ?_⟩
  obtain ⟨_, books', looped', records'⟩ := run_eq_ok partly
  rw [short] at looped'
  rw [records', ← Except.ok.inj looped', same]

theorem run_noLookahead_sample : ∃ whole,
    Replay.run sampleBars sampleStrategy false sampleConfig (some (List.replicate 64 48)) = .ok whole ∧
    (∃ books, replayed (sampleBars.take 2) sampleStrategy false sampleConfig = .ok books ∧
      books.records = whole.records.upTo (txt "2026-01-01T01:00:00.000000Z")) ∧
    ∀ source part, Replay.run (sampleBars.take 2) sampleStrategy false sampleConfig source = .ok part →
      part.records = whole.records.upTo (txt "2026-01-01T01:00:00.000000Z") := by
  have reports : (Replay.run sampleBars sampleStrategy false sampleConfig
      (some (List.replicate 64 48))).isOk = true := by decide +kernel
  cases done : Replay.run sampleBars sampleStrategy false sampleConfig
      (some (List.replicate 64 48)) with
  | error e =>
      rw [done] at reports
      cases reports
  | ok whole =>
      refine ⟨whole, rfl, ?_⟩
      exact @run_noLookahead Bool ℚ _ (sampleBars.take 2) (sampleBars.drop 2) sampleBars[1] sampleStrategy
        false sampleConfig _ whole rfl done

end Senex.Research
