import Senex.Portfolio.ClosedJournal
import Mathlib.Algebra.Order.Field.Basic
import Mathlib.Tactic.Positivity

/-! # A rebuilt risk state beside a lived one

The kernel that has recorded every row of a journal at its time, against the
state that is rebuilt from the rows.  Day P&L, peak and drawdown agree.  The
lived kernel forgets a loss streak when a day rollover clears its switch, and it
keeps a switch that a later row would no longer trip; the rebuilt state does
neither.
-/

namespace Senex.Portfolio

open Text PyFloat

section
variable {F : Type} [PyFloat F]

namespace KernelState

/-- Whether a record trips the switch, in the state behind its rollover. -/
def trips (cfg : RiskConfig F) (rolled : KernelState F) (pnlUsd equity : F) : Bool :=
  (lt pnlUsd (lit 0) && decide (cfg.consecutiveLossThreshold ≤ rolled.consecutiveLosses + 1) &&
      decide (cfg.consecutiveLossThreshold * 2 ≤ rolled.consecutiveLosses + 1)) ||
    (rolled.bookPnl cfg pnlUsd equity).dailyLossHit cfg ||
    (rolled.bookPnl cfg pnlUsd equity).drawdownHit cfg

/-- What a record that does not raise makes of the state behind its rollover. -/
structure Recorded (cfg : RiskConfig F) (rolled after : KernelState F) (pnlUsd equity : F) :
    Prop where
  figures : after.currentDay = rolled.currentDay ∧
    after.dailyPnlUsd = (rolled.bookPnl cfg pnlUsd equity).dailyPnlUsd ∧
    after.currentEquity = equity ∧
    after.peakEquity = (rolled.bookPnl cfg pnlUsd equity).peakEquity ∧
    after.drawdownPct = (rolled.bookPnl cfg pnlUsd equity).drawdownPct
  losses : after.consecutiveLosses =
    if lt pnlUsd (lit 0) then rolled.consecutiveLosses + 1
    else if lt (lit 0) pnlUsd then 0
    else rolled.consecutiveLosses
  active : after.killSwitchActive = (rolled.killSwitchActive || rolled.trips cfg pnlUsd equity)
  reason : rolled.trips cfg pnlUsd equity = false → after.killSwitchReason = rolled.killSwitchReason

/-- The loss streak's part of a record. -/
structure Streaked (cfg : RiskConfig F) (booked after : KernelState F) (pnlUsd : F) (trip : Bool) :
    Prop where
  figures : after.currentDay = booked.currentDay ∧ after.dailyPnlUsd = booked.dailyPnlUsd ∧
    after.dailyPnlPct = booked.dailyPnlPct ∧ after.currentEquity = booked.currentEquity ∧
    after.peakEquity = booked.peakEquity ∧ after.drawdownPct = booked.drawdownPct
  losses : after.consecutiveLosses =
    if lt pnlUsd (lit 0) then booked.consecutiveLosses + 1
    else if lt (lit 0) pnlUsd then 0
    else booked.consecutiveLosses
  active : after.killSwitchActive = (booked.killSwitchActive || trip)
  reason : trip = false → after.killSwitchReason = booked.killSwitchReason

theorem streaked {cfg : RiskConfig F} {booked after : KernelState F} {now : Civil} {pnlUsd : F}
    (done : booked.bookStreak cfg now pnlUsd = (after, .ok ())) :
    Streaked cfg booked after pnlUsd
      (lt pnlUsd (lit 0) && decide (cfg.consecutiveLossThreshold ≤ booked.consecutiveLosses + 1) &&
        decide (cfg.consecutiveLossThreshold * 2 ≤ booked.consecutiveLosses + 1)) := by
  unfold bookStreak at done
  by_cases loss : lt pnlUsd (lit 0) = true
  · rw [if_pos loss] at done
    unfold extendStreak at done
    dsimp only at done
    by_cases cool : cfg.consecutiveLossThreshold ≤ booked.consecutiveLosses + 1
    · rw [if_pos cool] at done
      cases until_ : afterMinutes now cfg.cooldownMinutes with
      | none => simp [until_, raise] at done
      | some cooldownUntil =>
          simp only [until_] at done
          by_cases long : cfg.consecutiveLossThreshold * 2 ≤ booked.consecutiveLosses + 1
          · rw [if_pos long] at done
            obtain ⟨rfl, -⟩ := Prod.mk.inj done
            exact ⟨⟨rfl, rfl, rfl, rfl, rfl, rfl⟩, by simp [loss, tripKillSwitch],
              by simp [loss, cool, long, tripKillSwitch], by simp [loss, cool, long]⟩
          · rw [if_neg long] at done
            obtain ⟨rfl, -⟩ := Prod.mk.inj done
            exact ⟨⟨rfl, rfl, rfl, rfl, rfl, rfl⟩, by simp [loss], by simp [long], by simp⟩
    · rw [if_neg cool] at done
      obtain ⟨rfl, -⟩ := Prod.mk.inj done
      exact ⟨⟨rfl, rfl, rfl, rfl, rfl, rfl⟩, by simp [loss], by simp [cool], by simp⟩
  · rw [if_neg loss] at done
    split at done
    · rename_i win
      obtain ⟨rfl, -⟩ := Prod.mk.inj done
      exact ⟨⟨rfl, rfl, rfl, rfl, rfl, rfl⟩, by simp [loss, win], by simp [loss], by simp⟩
    · rename_i even
      obtain ⟨rfl, -⟩ := Prod.mk.inj done
      exact ⟨⟨rfl, rfl, rfl, rfl, rfl, rfl⟩, by simp [loss, even], by simp [loss], by simp⟩

theorem recorded {cfg : RiskConfig F} {s after : KernelState F} {now : Civil} {pnlUsd equity : F}
    (done : s.recordPnl cfg now pnlUsd equity = (after, .ok ())) :
    Recorded cfg (s.maybeRolloverDay now) after pnlUsd equity := by
  unfold recordPnl at done
  split at done
  · cases (Prod.mk.inj done).2
  · rename_i middle _ booking
    obtain ⟨same, -⟩ := Prod.mk.inj done
    have streak := streaked booking
    obtain ⟨day, daily, pct, equity', peak, drawdown⟩ := streak.figures
    have lossHit : middle.dailyLossHit cfg =
        ((s.maybeRolloverDay now).bookPnl cfg pnlUsd equity).dailyLossHit cfg := by
      simp only [dailyLossHit, pct]
    have drawdownHit' : (middle.tripDailyLoss cfg now).drawdownHit cfg =
        ((s.maybeRolloverDay now).bookPnl cfg pnlUsd equity).drawdownHit cfg := by
      unfold tripDailyLoss
      split <;> simp only [drawdownHit, tripKillSwitch, drawdown]
    rw [← same]
    unfold tripDrawdown
    rw [drawdownHit']
    unfold tripDailyLoss
    rw [lossHit]
    refine ⟨?_, ?_, ?_, ?_⟩
    · split <;> split <;> exact ⟨day, daily, equity', peak, drawdown⟩
    · split <;> split <;> exact streak.losses
    · unfold trips
      split
      · rename_i hit
        simp [tripKillSwitch, hit]
      · rename_i shallow
        split
        · rename_i hit
          simp [tripKillSwitch, hit]
        · rename_i small
          rw [Bool.not_eq_true] at shallow small
          rw [streak.active, shallow, small, Bool.or_false, Bool.or_false]
          rfl
    · intro quiet
      unfold trips at quiet
      simp only [Bool.or_eq_false_iff] at quiet
      rw [if_neg (by simp [quiet.2]), if_neg (by simp [quiet.1.2])]
      exact streak.reason quiet.1.1

end KernelState

/-! ## Living through the rows -/

/-- A kernel that has lived through rows of a journal. -/
structure Lived (F : Type) where
  state : KernelState F
  /-- The losses since the last gain that day rollovers have taken out of the streak. -/
  forgotten : Int := 0
  /-- The day and the reason of the last trip of the switch. -/
  lastTrip : Option (Text × Text) := none

namespace Lived

/-- The losses that the rollover to the day takes out of the streak. -/
def dropped (l : Lived F) (now : Civil) : Int :=
  l.state.consecutiveLosses - (l.state.maybeRolloverDay now).consecutiveLosses

/-- `record_pnl` of a row at the time of its exit, with the equity that the rows come to. -/
def step (cfg : RiskConfig F) (l : Lived F) (r : ClosedRow) : Py (Lived F) := do
  let now ← orRaise r.exitDt .paperControlStateError (txt "PAPER_CONTROL_JOURNAL_SCHEMA:TIMESTAMPS")
  let pnl : F := ofDouble (r.number "realized_pnl_usd")
  let equity := l.state.currentEquity + pnl
  match l.state.recordPnl cfg now pnl equity with
  | (_, .error e) => .error e
  | (after, .ok _) => return {
      state := after
      forgotten := if lt pnl (lit 0) then l.forgotten + l.dropped now
        else if lt (lit 0) pnl then 0
        else l.forgotten + l.dropped now
      lastTrip :=
        if (l.state.maybeRolloverDay now).trips cfg pnl equity then
          some (after.currentDay, after.killSwitchReason)
        else l.lastTrip }

/-- The rollover to the present day. -/
def rolledTo (l : Lived F) (now : Civil) : Lived F :=
  { l with state := l.state.maybeRolloverDay now, forgotten := l.forgotten + l.dropped now }

end Lived

/-- The kernel that has lived through the rows up to the present. -/
def lived (cfg : RiskConfig F) (began : Civil) (rows : List ClosedRow) (now : Civil) : Py (Lived F) := do
  let l ← rows.foldlM (Lived.step cfg) { state := KernelState.fresh began cfg.startingEquityUsd }
  return l.rolledTo now

/-- The last trip of the switch, unless it was one of the daily loss and its day is over. -/
def Lived.standing (l : Lived F) : Option Text :=
  match l.lastTrip with
  | none => none
  | some (day, reason) =>
      if occursIn (txt "daily_loss") reason && decide (day ≠ l.state.currentDay) then none
      else some reason

/-! ## What the lived kernel and the rows have in common -/

/-- The kernel that has lived through `seen`, beside the tally of `seen`. -/
structure Tracks (cfg : RiskConfig F) (seen : List ClosedRow) (l : Lived F) : Prop where
  cash (today : Text) : (tally cfg.startingEquityUsd today seen).cash = l.state.currentEquity
  peak (today : Text) : (tally cfg.startingEquityUsd today seen).peak = l.state.peakEquity
  daily : (tally cfg.startingEquityUsd l.state.currentDay seen).dailyPnl = l.state.dailyPnlUsd
  streak (today : Text) : (tally cfg.startingEquityUsd today seen).streak =
    l.state.consecutiveLosses + l.forgotten
  tripDay : ∀ trip, l.lastTrip = some trip → ∃ r ∈ seen, r.exitDt.map todayUtc = some trip.1
  active : l.state.killSwitchActive = l.standing.isSome
  reason : ∀ reason, l.standing = some reason → l.state.killSwitchReason = reason

theorem tally_concat (startingCash : F) (today : Text) (rows : List ClosedRow) (r : ClosedRow) :
    tally startingCash today (rows ++ [r]) = (tally startingCash today rows).add today r := by
  simp [tally]

theorem dailyPnl_of_absent {startingCash : F} {today : Text} {rows : List ClosedRow}
    (absent : ∀ r ∈ rows, r.exitDt.map todayUtc ≠ some today) :
    (tally startingCash today rows).dailyPnl = lit 0 := by
  induction rows using List.reverseRecOn with
  | nil => rfl
  | append_singleton rows r ih =>
      have other : r.exitDt.map todayUtc ≠ some today := absent r (by simp)
      rw [tally_concat]
      simp only [Tally.add, if_neg other]
      exact ih fun q member => absent q (by simp [member])

/-- What a rollover keeps and clears. -/
theorem rollover_spec (s : KernelState F) (now : Civil) :
    (s.maybeRolloverDay now).currentDay = todayUtc now ∧
    (s.maybeRolloverDay now).currentEquity = s.currentEquity ∧
    (s.maybeRolloverDay now).peakEquity = s.peakEquity ∧
    (s.maybeRolloverDay now).drawdownPct = s.drawdownPct ∧
    (todayUtc now = s.currentDay → s.maybeRolloverDay now = s) ∧
    (todayUtc now ≠ s.currentDay → (s.maybeRolloverDay now).dailyPnlUsd = lit 0 ∧
      (s.maybeRolloverDay now).killSwitchActive =
        (s.killSwitchActive && !occursIn (txt "daily_loss") s.killSwitchReason) ∧
      ((s.maybeRolloverDay now).killSwitchActive = true →
        (s.maybeRolloverDay now).killSwitchReason = s.killSwitchReason)) := by
  unfold KernelState.maybeRolloverDay
  by_cases same : todayUtc now = s.currentDay
  · simp [same]
  · rw [if_neg same]
    dsimp only
    split
    · rename_i clears
      simp_all [KernelState.resetKillSwitch]
    · rename_i stays
      rw [Bool.and_eq_true, not_and, Bool.not_eq_true] at stays
      refine ⟨rfl, rfl, rfl, rfl, fun same' => absurd same' same, fun _ => ⟨rfl, ?_, fun _ => rfl⟩⟩
      cases active : s.killSwitchActive with
      | false => rfl
      | true => rw [stays active]
                rfl

/-- A rollover into a day of which no row has been seen. -/
theorem Tracks.rolledTo {cfg : RiskConfig F} {seen : List ClosedRow} {l : Lived F}
    (tracks : Tracks cfg seen l) {now : Civil}
    (new : todayUtc now ≠ l.state.currentDay →
      ∀ r ∈ seen, r.exitDt.map todayUtc ≠ some (todayUtc now)) :
    Tracks cfg seen (l.rolledTo now) := by
  obtain ⟨day, equity, peak, -, same, differs⟩ := rollover_spec l.state now
  by_cases today : todayUtc now = l.state.currentDay
  · have unchanged : l.rolledTo now = l := by
      simp [Lived.rolledTo, Lived.dropped, same today]
    rw [unchanged]
    exact tracks
  · obtain ⟨daily, active, reason⟩ := differs today
    have standing : (l.rolledTo now).standing =
        l.standing.filter fun reason => !occursIn (txt "daily_loss") reason := by
      unfold Lived.standing
      cases trip : l.lastTrip with
      | none => simp [Lived.rolledTo, trip]
      | some trip' =>
          obtain ⟨tripDay, tripReason⟩ := trip'
          obtain ⟨r, member, tripDay'⟩ := tracks.tripDay _ trip
          have past : tripDay ≠ todayUtc now := fun equal => new today r member (by rw [tripDay', equal])
          simp only [Lived.rolledTo, trip, day, past, ne_eq, not_false_eq_true, decide_true,
            Bool.and_true]
          cases mentions : occursIn (txt "daily_loss") tripReason with
          | false => simp [Option.filter, mentions]
          | true =>
              cases later : decide (tripDay ≠ l.state.currentDay) <;> simp [Option.filter, mentions]
    refine ⟨fun t => ?_, fun t => ?_, ?_, fun t => ?_, tracks.tripDay, ?_, ?_⟩
    · exact (tracks.cash t).trans equity.symm
    · exact (tracks.peak t).trans peak.symm
    · have absent : (tally cfg.startingEquityUsd (todayUtc now) seen).dailyPnl = lit 0 :=
        dailyPnl_of_absent (new today)
      simp only [Lived.rolledTo, day, daily, absent]
    · rw [tracks.streak t]
      simp only [Lived.rolledTo, Lived.dropped]
      omega
    · rw [standing]
      simp only [Lived.rolledTo, active, tracks.active]
      cases stands : l.standing with
      | none => rfl
      | some reason =>
          rw [tracks.reason reason stands]
          simp [Option.filter]
          cases occursIn (txt "daily_loss") reason <;> rfl
    · intro reason' stands
      rw [standing] at stands
      obtain ⟨before, quiet⟩ := Option.filter_eq_some_iff.mp stands
      have still : (l.state.maybeRolloverDay now).killSwitchActive = true := by
        rw [active, tracks.active, before, tracks.reason _ before]
        simpa using quiet
      exact (reason still).trans (tracks.reason _ before)

/-- What a step that does not raise makes of the kernel behind its rollover. -/
theorem step_spec {cfg : RiskConfig F} {l next : Lived F} {r : ClosedRow}
    (done : l.step cfg r = .ok next) :
    ∃ now, r.exitDt = some now ∧
      let pnl : F := ofDouble (r.number "realized_pnl_usd")
      let m := l.rolledTo now
      KernelState.Recorded cfg m.state next.state pnl (m.state.currentEquity + pnl) ∧
      next.forgotten = (if lt pnl (lit 0) then m.forgotten else if lt (lit 0) pnl then 0 else m.forgotten) ∧
      next.lastTrip = if m.state.trips cfg pnl (m.state.currentEquity + pnl) then
        some (next.state.currentDay, next.state.killSwitchReason) else m.lastTrip := by
  obtain ⟨now, exit, rest⟩ := Py.bind_eq_ok.mp done
  refine ⟨now, orRaise_eq_ok.mp exit, ?_⟩
  have equity : (l.rolledTo now).state.currentEquity = l.state.currentEquity :=
    (rollover_spec l.state now).2.1
  dsimp only at rest ⊢
  split at rest
  · cases rest
  · rename_i after _ booking
    obtain rfl := Except.ok.inj rest
    rw [equity]
    exact ⟨KernelState.recorded booking, rfl, rfl⟩

theorem Tracks.step {cfg : RiskConfig F} {seen : List ClosedRow} {l next : Lived F} {r : ClosedRow}
    (tracks : Tracks cfg seen l) (done : l.step cfg r = .ok next)
    (new : ∀ now, r.exitDt = some now → todayUtc now ≠ l.state.currentDay →
      ∀ q ∈ seen, q.exitDt.map todayUtc ≠ some (todayUtc now)) :
    Tracks cfg (seen ++ [r]) next ∧ r.exitDt.map todayUtc = some next.state.currentDay := by
  obtain ⟨now, exit, recorded, forgotten, lastTrip⟩ := step_spec done
  have before := tracks.rolledTo (new now exit)
  have today : (l.rolledTo now).state.currentDay = todayUtc now := (rollover_spec l.state now).1
  generalize l.rolledTo now = m at recorded forgotten lastTrip before today
  generalize pnlEq : (ofDouble (r.number "realized_pnl_usd") : F) = pnl at recorded forgotten lastTrip
  obtain ⟨day, daily, equity, peak, -⟩ := recorded.figures
  have rowDay : r.exitDt.map todayUtc = some next.state.currentDay := by
    rw [exit, day, today]
    rfl
  refine ⟨⟨fun t => ?_, fun t => ?_, ?_, fun t => ?_, ?_, ?_, ?_⟩, rowDay⟩
  · rw [tally_concat, equity]
    simp only [Tally.add, before.cash, pnlEq]
  · rw [tally_concat, peak]
    simp only [Tally.add, before.cash, before.peak, pnlEq, maximum, KernelState.bookPnl]
  · rw [tally_concat, daily]
    simp only [Tally.add, rowDay, if_true, pnlEq, KernelState.bookPnl]
    rw [day, before.daily]
  · rw [tally_concat, forgotten, recorded.losses]
    simp only [Tally.add, before.streak, pnlEq]
    split
    · omega
    · split <;> omega
  · intro trip tripped
    rw [lastTrip] at tripped
    split at tripped
    · obtain rfl := Option.some.inj tripped
      exact ⟨r, by simp, rowDay⟩
    · obtain ⟨q, member, same⟩ := before.tripDay trip tripped
      exact ⟨q, by simp [member], same⟩
  · rw [recorded.active, before.active]
    unfold Lived.standing
    rw [lastTrip]
    cases trips : m.state.trips cfg pnl (m.state.currentEquity + pnl) with
    | true => simp
    | false => simp only [Bool.or_false, Bool.false_eq_true, if_false, day]
  · intro reason stands
    unfold Lived.standing at stands
    rw [lastTrip] at stands
    cases trips : m.state.trips cfg pnl (m.state.currentEquity + pnl) with
    | true => simpa [trips] using stands
    | false =>
        rw [recorded.reason trips]
        apply before.reason
        simpa [trips, Lived.standing, day] using stands

/-- Rows in the order of their exits. -/
def InTimeOrder (rows : List ClosedRow) : Prop :=
  rows.Pairwise fun a b => ∀ x y, a.exitDt = some x → b.exitDt = some y →
    Datetime.orderKey x ≤ Datetime.orderKey y

/-- All rows are closed by then. -/
def ClosedBy (rows : List ClosedRow) (now : Civil) : Prop :=
  ∀ r ∈ rows, ∀ x, r.exitDt = some x → Datetime.orderKey x ≤ Datetime.orderKey now

instance (rows : List ClosedRow) : Decidable (InTimeOrder rows) :=
  decidable_of_iff (rows.Pairwise fun a b => (a.exitDt.all fun x => b.exitDt.all fun y =>
    decide (Datetime.orderKey x ≤ Datetime.orderKey y)) = true) (by
      simp only [InTimeOrder, Option.all_eq_true, decide_eq_true_eq]
      refine ⟨fun h => h.imp fun all x y ex ey => all x ex y ey,
        fun h => h.imp fun all x ex y ey => all x y ex ey⟩)

instance (rows : List ClosedRow) (now : Civil) : Decidable (ClosedBy rows now) :=
  decidable_of_iff (∀ r ∈ rows, (r.exitDt.all fun x =>
    decide (Datetime.orderKey x ≤ Datetime.orderKey now)) = true) (by
      simp only [ClosedBy, Option.all_eq_true, decide_eq_true_eq])

/-- A day that is not that of the last row is one of no row. -/
theorem new_day {rows : List ClosedRow} {day : Text} {now : Civil} (ordered : InTimeOrder rows)
    (closed : ClosedBy rows now) (last : ∀ r, rows.getLast? = some r → r.exitDt.map todayUtc = some day)
    (differs : todayUtc now ≠ day) : ∀ r ∈ rows, r.exitDt.map todayUtc ≠ some (todayUtc now) := by
  intro r member same
  obtain ⟨x, exitX, dayX⟩ := Option.map_eq_some_iff.mp same
  rcases List.eq_nil_or_concat rows with rfl | ⟨front, final, rfl⟩
  · cases member
  · obtain ⟨y, exitY, dayY⟩ := Option.map_eq_some_iff.mp (last final (by simp))
    have upper := closed final (by simp) y exitY
    have lower : Datetime.orderKey x ≤ Datetime.orderKey y := by
      rw [List.concat_eq_append] at member ordered
      rcases List.mem_append.mp member with before | now
      · exact (List.pairwise_append.mp ordered).2.2 r before final (by simp) x y exitX exitY
      · obtain rfl := List.mem_singleton.mp now
        rw [exitX] at exitY
        rw [Option.some.inj exitY]
    have low := Datetime.dayKey_le lower
    have high := Datetime.dayKey_le upper
    have equal : Datetime.dayKey x = Datetime.dayKey now := Datetime.isoDate_eq_iff.mp dayX
    have dayYnow : todayUtc y = todayUtc now := Datetime.isoDate_eq_iff.mpr (by omega)
    exact differs (by rw [← dayYnow, dayY])

theorem Tracks.fresh (cfg : RiskConfig F) (began : Civil) :
    Tracks cfg [] { state := KernelState.fresh began cfg.startingEquityUsd } where
  cash _ := rfl
  peak _ := rfl
  daily := rfl
  streak _ := rfl
  tripDay := by simp
  active := rfl
  reason := by simp [Lived.standing]

/-- The kernel that has lived through rows in time order keeps beside their tally. -/
theorem tracks_foldlM {cfg : RiskConfig F} {began : Civil} {rows : List ClosedRow} {l : Lived F}
    (ordered : InTimeOrder rows)
    (done : rows.foldlM (Lived.step cfg) { state := KernelState.fresh began cfg.startingEquityUsd } =
      .ok l) :
    Tracks cfg rows l ∧
      ∀ r, rows.getLast? = some r → r.exitDt.map todayUtc = some l.state.currentDay := by
  induction rows using List.reverseRecOn generalizing l with
  | nil =>
      obtain rfl := Except.ok.inj done
      exact ⟨Tracks.fresh cfg began, by simp⟩
  | append_singleton rows r ih =>
      rw [List.foldlM_append] at done
      obtain ⟨middle, before, one⟩ := Py.bind_eq_ok.mp done
      simp only [List.foldlM_cons, List.foldlM_nil, bind_pure] at one
      obtain ⟨earlier, -, closed⟩ := List.pairwise_append.mp ordered
      obtain ⟨tracks, last⟩ := ih earlier before
      obtain ⟨tracks', day⟩ := tracks.step one fun now exit differs =>
        new_day earlier (fun q member x exitX => closed q member r (by simp) x now exitX exit) last differs
      refine ⟨tracks', fun q final => ?_⟩
      rw [List.getLast?_append, List.getLast?_singleton, Option.some_or] at final
      obtain rfl := Option.some.inj final
      exact day

theorem tracks_lived {cfg : RiskConfig F} {began now : Civil} {rows : List ClosedRow} {l : Lived F}
    (ordered : InTimeOrder rows) (closed : ClosedBy rows now)
    (done : lived cfg began rows now = .ok l) :
    Tracks cfg rows l ∧ l.state.currentDay = todayUtc now := by
  obtain ⟨before, folded, rest⟩ := Py.bind_eq_ok.mp done
  obtain rfl := Except.ok.inj rest
  obtain ⟨tracks, last⟩ := tracks_foldlM ordered folded
  exact ⟨tracks.rolledTo fun differs => new_day ordered closed last differs,
    (rollover_spec before.state now).1⟩

end

/-! ## Drawdown, before the roundings -/

/-- The drawdown below the peak. -/
def drawdownBelow (peak equity : ℚ) : ℚ := if 0 < peak then (peak - equity) / peak * 100 else 0

/-- The drawdown of a lived state is the one below its peak. -/
structure Below (s : KernelState ℚ) : Prop where
  peak : s.currentEquity ≤ s.peakEquity
  drawdown : s.drawdownPct = drawdownBelow s.peakEquity s.currentEquity

theorem Below.rollover {s : KernelState ℚ} (below : Below s) (now : Civil) :
    Below (s.maybeRolloverDay now) := by
  obtain ⟨-, equity, peak, drawdown, -⟩ := rollover_spec s now
  refine ⟨?_, ?_⟩
  · rw [equity, peak]
    exact below.peak
  · rw [equity, peak, drawdown]
    exact below.drawdown

theorem Below.recorded {cfg : RiskConfig ℚ} {s after : KernelState ℚ} {pnlUsd equity : ℚ}
    (below : Below s) (recorded : KernelState.Recorded cfg s after pnlUsd equity) : Below after := by
  obtain ⟨-, -, sameEquity, samePeak, sameDrawdown⟩ := recorded.figures
  have peak : after.peakEquity = max s.peakEquity equity := by
    rw [samePeak]
    simp only [KernelState.bookPnl, lt, decide_eq_true_eq]
    split
    · rename_i higher
      exact (max_eq_right higher.le).symm
    · rename_i lower
      exact (max_eq_left (not_lt.mp lower)).symm
  refine ⟨?_, ?_⟩
  · rw [peak, sameEquity]
    exact le_max_right _ _
  · rw [sameDrawdown, sameEquity]
    have booked : (s.bookPnl cfg pnlUsd equity).drawdownPct =
        if 0 < after.peakEquity then
          maximum 0 ((after.peakEquity - equity) / after.peakEquity * 100)
        else s.drawdownPct := by
      rw [samePeak]
      simp only [KernelState.bookPnl, lt, lit, decide_eq_true_eq]
    rw [booked, drawdownBelow]
    split
    · rename_i positive
      have deep : 0 ≤ (after.peakEquity - equity) / after.peakEquity * 100 := by
        have above : equity ≤ after.peakEquity := by
          rw [peak]
          exact le_max_right _ _
        have gap : 0 ≤ after.peakEquity - equity := sub_nonneg.mpr above
        positivity
      simp only [maximum, lt, decide_eq_true_eq]
      split
      · rfl
      · rename_i flat
        exact le_antisymm deep (not_lt.mp flat)
    · rename_i nonpositive
      have before : ¬ 0 < s.peakEquity := fun positive =>
        nonpositive (positive.trans_le (by rw [peak]; exact le_max_left _ _))
      rw [below.drawdown, drawdownBelow, if_neg before]

theorem below_foldlM {cfg : RiskConfig ℚ} {rows : List ClosedRow} {start l : Lived ℚ}
    (below : Below start.state) (done : rows.foldlM (Lived.step cfg) start = .ok l) :
    Below l.state := by
  induction rows generalizing start with
  | nil =>
      obtain rfl := Except.ok.inj done
      exact below
  | cons r rows ih =>
      rw [List.foldlM_cons] at done
      obtain ⟨next, one, rest⟩ := Py.bind_eq_ok.mp done
      obtain ⟨now, -, recorded, -⟩ := step_spec one
      exact ih ((below.rollover now).recorded recorded) rest

theorem below_lived {cfg : RiskConfig ℚ} {began now : Civil} {rows : List ClosedRow} {l : Lived ℚ}
    (done : lived cfg began rows now = .ok l) : Below l.state := by
  obtain ⟨before, folded, rest⟩ := Py.bind_eq_ok.mp done
  obtain rfl := Except.ok.inj rest
  have start : Below (KernelState.fresh began cfg.startingEquityUsd) := by
    refine ⟨le_refl _, ?_⟩
    simp [KernelState.fresh, drawdownBelow, lit]
  exact (@below_foldlM _ _ { state := KernelState.fresh began cfg.startingEquityUsd } _ start
    folded).rollover now

/-! ## The two states -/

/-- The rebuilt state is no more permissive than the lived one and has its figures. -/
structure Agrees (rebuilt lived : KernelState ℚ) : Prop where
  kill : lived.killSwitchActive = true → rebuilt.killSwitchActive = true
  daily : rebuilt.dailyPnlUsd = lived.dailyPnlUsd
  losses : rebuilt.consecutiveLosses = lived.consecutiveLosses
  peak : rebuilt.peakEquity = lived.peakEquity
  drawdown : rebuilt.drawdownPct = lived.drawdownPct

/-- The states that the two ways build from the rows agree. -/
def NeverMorePermissive (cfg : RiskConfig ℚ) (began now : Civil) (rows : List ClosedRow) : Prop :=
  ∀ l b, lived cfg began rows now = .ok l →
    bootstrapFromClosedJournal cfg cfg.startingEquityUsd now rows = .ok b → Agrees b.riskState l.state

/-- No rollover has taken losses out of a streak that no gain has ended since, and if a trip of the
switch still stands, then the figures behind the last row still exceed a limit. -/
def Unmasked (cfg : RiskConfig ℚ) (began now : Civil) (rows : List ClosedRow) : Prop :=
  ∀ l b, lived cfg began rows now = .ok l →
    bootstrapFromClosedJournal cfg cfg.startingEquityUsd now rows = .ok b →
      l.forgotten = 0 ∧ (l.standing ≠ none →
        (tally cfg.startingEquityUsd (todayUtc now) rows).kill cfg cfg.startingEquityUsd = true)

theorem riskState_bootstrap {cfg : RiskConfig ℚ} {startingCash : ℚ} {now : Civil}
    {rows : List ClosedRow} {b : Bootstrap ℚ}
    (done : bootstrapFromClosedJournal cfg startingCash now rows = .ok b) :
    let t := tally startingCash (todayUtc now) rows
    b.riskState.killSwitchActive = t.kill cfg startingCash ∧ b.riskState.dailyPnlUsd = t.dailyPnl ∧
      b.riskState.consecutiveLosses = t.streak ∧ b.riskState.peakEquity = t.peak ∧
      b.riskState.drawdownPct = t.drawdownPct := by
  unfold bootstrapFromClosedJournal at done
  split at done
  · cases done
  · obtain ⟨cooldownUntil, -, rest⟩ := Py.bind_eq_ok.mp done
    obtain rfl := Except.ok.inj rest
    exact ⟨rfl, rfl, rfl, rfl, rfl⟩

/-- A closed trade of one unit. -/
def sampleRow (tradeId exitTs : String) (pnl : Int) : PyValue := PyValue.ofMembers
  [(txt "trade_id", .str (txt tradeId)), (txt "symbol", .str (txt "BTC/USDT")),
    (txt "direction", .str (txt "LONG")), (txt "entry_ts", .str (txt "2026-06-01T00:00:00+00:00")),
    (txt "exit_ts", .str (txt exitTs)), (txt "exit_reason", .str (txt "MANUAL")), (txt "qty", .int 1),
    (txt "entry_price", .int 1000), (txt "exit_price", .int (1000 + pnl)),
    (txt "realized_pnl_usd", .int pnl), (txt "risk_usd", .int 0), (txt "entry_fee_usd", .int 0),
    (txt "exit_fee_usd", .int 0), (txt "total_fees_usd", .int 0)]

def noon : Civil := ⟨2026, 6, 1, 12, 0, 0, 0, by decide⟩

def gainOnly : List ClosedRow := [⟨sampleRow "pos-1" "2026-06-01T10:00:00+00:00" 400, by decide +kernel⟩]

/-- The loss of the day reaches its limit, and a gain takes it back. -/
def lossThenGain : List ClosedRow :=
  [⟨sampleRow "pos-1" "2026-06-01T10:00:00+00:00" (-400), by decide +kernel⟩,
    ⟨sampleRow "pos-2" "2026-06-01T11:00:00+00:00" 400, by decide +kernel⟩]

end Senex.Portfolio
