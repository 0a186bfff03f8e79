import Senex.Simulator.Accounts

/-! # Overlapping executions

Several executions may be suspended at their latency while others, and the
monitoring of exits, go on.  Each checked that its symbol was free before it was
suspended and enters its position after; an entry under a symbol that has been
taken in the meantime drops the position that was there.
-/

namespace Senex.Simulator

open ExecutionSimulator Text

structure Interleaving where
  sim : ExecutionSimulator
  /-- The executions at their latency. -/
  suspended : List Pending := []

inductive Event where
  /-- A call of `execute` runs to its latency, or to its end before it. -/
  | call (signal : Signal) (tick : Option MarketTick) (book : Option Orderbook) (latency : Int)
      (orderId : Text)
  /-- A suspended execution runs to its end. -/
  | resume (index : Nat) (random : ℚ) (now orderId : Text)
  | monitorExits (tick : MarketTick) (random : ℚ) (orderId : Text)
  | riskState (lastPrices : Dict Text ℚ)

namespace Interleaving

def step (s : Interleaving) : Event → Interleaving
  | .call signal tick book latency orderId =>
      match s.sim.executeChecks signal tick book latency orderId with
      | .answered _ => s
      | .suspended p => { s with suspended := s.suspended ++ [p] }
  | .resume index random now orderId =>
      match s.suspended[index]? with
      | none => s
      | some p => ⟨s.sim.afterFill p random now orderId, s.suspended.eraseIdx index⟩
  | .monitorExits tick random orderId => { s with sim := (s.sim.monitorExits tick random orderId).2 }
  | .riskState lastPrices => { s with sim := (s.sim.riskState lastPrices).2 }

/-- The suspended execution that the event resumes and that enters its position. -/
def filling (s : Interleaving) : Event → Option (Pending × ℚ × Text)
  | .resume index random now _ =>
      match s.suspended[index]? with
      | none => none
      | some p => if s.sim.fills p random then some (p, random, now) else none
  | _ => none

/-- The position that the event opens. -/
def opened (s : Interleaving) (e : Event) : List Position :=
  match s.filling e with
  | some (p, random, now) => [s.sim.entry p random now]
  | none => []

end Interleaving

/-- The position as its entry made it. -/
def asEntered (parameters : Parameters) (p : Position) : Position :=
  { p with
    status := .opened
    exitPrice := 0
    exitTs := []
    exitReason := none
    realizedPnl := 0
    feesPaid := entryFee parameters p }

/-- What an entry takes from the cash. -/
def debit (p : Position) : ℚ := p.entryNotional + p.feesPaid

/-- What an exit gives back to it. -/
def release (parameters : Parameters) (p : Position) : ℚ :=
  p.exitPrice * p.qty - exitFee parameters p

/-- Every position opened so far is open or closed, was debited once and released at most once. -/
structure Accounted (openings : List Position) (sim : ExecutionSimulator) : Prop where
  positions : openings.Perm
    (sim.positions.values ++ sim.closed.map (asEntered sim.toParameters))
  cash : sim.cash = sim.startingCash - total debit openings +
    total (release sim.toParameters) sim.closed

/-- No position is lost on the run: in every state all are accounted for, no entry is made for a
symbol with an open position, and no entry leaves negative cash. -/
structure NothingLost (start : Interleaving) (events : List Event) : Prop where
  accounted : ∀ first rest, events = first ++ rest →
    Accounted (emitted Interleaving.step Interleaving.opened start first)
      (run Interleaving.step start first).sim
  single : ∀ first e rest, events = first ++ e :: rest →
    ∀ p ∈ (run Interleaving.step start first).opened e,
      (run Interleaving.step start first).sim.isOpen p.symbol = false
  covered : ∀ first e rest, events = first ++ e :: rest →
    (run Interleaving.step start first).opened e ≠ [] →
      0 ≤ (run Interleaving.step start (first ++ [e])).sim.cash

/-- The suspended execution that has the depth and the cash to enter its position still finds its
symbol free. -/
def StillFree (s : Interleaving) (e : Event) : Prop :=
  ∀ p random now, s.filling e = some (p, random, now) → s.sim.isOpen p.signal.symbol = false

namespace Interleaving

/-- What an event does: it leaves the simulator, or its positions and cash, as they are, enters a
position or closes one. -/
theorem step_cases (s : Interleaving) (e : Event) :
    (s.filling e = none ∧
      ((s.step e).sim = s.sim ∨ (∃ peak, (s.step e).sim = { s.sim with peakEquity := some peak }) ∨
        ∃ sym p exitPrice ts reason, s.sim.positions.get? sym = some p ∧
          (s.step e).sim = s.sim.exit sym p exitPrice ts reason)) ∨
    (∃ p random now, s.filling e = some (p, random, now) ∧ s.sim.fills p random = true ∧
      (s.step e).sim = s.sim.enter p random now) := by
  cases e with
  | call signal tick book latency orderId =>
      refine .inl ⟨rfl, .inl ?_⟩
      simp only [step]
      split <;> rfl
  | resume index random now orderId =>
      cases found : s.suspended[index]? with
      | none => exact .inl ⟨by simp [filling, found], .inl (by simp [step, found])⟩
      | some p =>
          have after : (s.step (.resume index random now orderId)).sim =
              if s.sim.fills p random then s.sim.enter p random now else s.sim := by
            simp only [step, found, afterFill_eq]
          by_cases fills : s.sim.fills p random = true
          · refine .inr ⟨p, random, now, ?_, fills, ?_⟩
            · simp [filling, found, fills]
            · rw [after, if_pos fills]
          · refine .inl ⟨by simp [filling, found, fills], .inl ?_⟩
            rw [after, if_neg fills]
  | monitorExits tick random orderId =>
      refine .inl ⟨rfl, ?_⟩
      cases found : s.sim.exiting tick with
      | none => exact .inl (by simp [step, monitorExits, found])
      | some exiting =>
          refine .inr (.inr ⟨tick.symbol, exiting.1,
            s.sim.exitPrice exiting.1.side (tick.price.getD 0) random, tick.ts, exiting.2,
            exiting_spec found, ?_⟩)
          simp [step, monitorExits, found]
  | riskState lastPrices => exact .inl ⟨rfl, .inr (.inl ⟨_, rfl⟩)⟩

theorem mem_opened {s : Interleaving} {e : Event} {p : Position} (member : p ∈ s.opened e) :
    ∃ q random now, s.filling e = some (q, random, now) ∧ p = s.sim.entry q random now := by
  unfold opened at member
  split at member
  · rename_i q random now filling
    exact ⟨q, random, now, filling, List.mem_singleton.mp member⟩
  · cases member

theorem cash_filling {s : Interleaving} {e : Event} {p : Pending} {random : ℚ} {now : Text}
    (filling : s.filling e = some (p, random, now)) : 0 ≤ (s.step e).sim.cash := by
  rcases s.step_cases e with ⟨none, -⟩ | ⟨q, random, now, -, fills, same⟩
  · rw [filling] at none
    cases none
  · rw [same]
    exact cash_enter_nonneg fills

end Interleaving

/-! ## One event -/

section
variable {sim : ExecutionSimulator} {openings : List Position}

theorem asEntered_entry {p : Pending} {random : ℚ} {now : Text} (fills : sim.fills p random = true) :
    asEntered sim.toParameters (sim.entry p random now) = sim.entry p random now := by
  have paid := @feesPaid_entry sim p random now fills
  unfold asEntered
  rw [← paid]
  rfl

theorem Accounted.cash_enter (accounted : Accounted openings sim) {p : Pending} {random : ℚ}
    {now : Text} (fills : sim.fills p random = true) :
    (sim.enter p random now).cash = sim.startingCash -
      total debit (openings ++ [sim.entry p random now]) +
        total (release sim.toParameters) sim.closed := by
  have notional := @entryNotional_entry sim p random now fills
  have fee : (sim.entry p random now).feesPaid = sim.feeUsd (sim.fillNotional p) := rfl
  have cash := accounted.cash
  simp only [total_append, total_cons, total_nil, debit, notional, fee, enter]
  linarith

theorem Accounted.enter (accounted : Accounted openings sim) {p : Pending} {random : ℚ} {now : Text}
    (fills : sim.fills p random = true) (absent : sim.positions.get? p.signal.symbol = none) :
    Accounted (openings ++ [sim.entry p random now]) (sim.enter p random now) := by
  refine ⟨?_, accounted.cash_enter fills⟩
  have values : (sim.enter p random now).positions.values =
      sim.positions.values ++ [sim.entry p random now] := Dict.values_set_absent absent
  rw [values]
  refine (accounted.positions.append_right _).trans ?_
  simp only [List.append_assoc]
  exact List.perm_append_comm.append_left _

/-- An entry over an open position leaves one position unaccounted for. -/
theorem Accounted.not_enter (accounted : Accounted openings sim) {p : Pending} {random : ℚ}
    {now : Text} {old : Position} (present : sim.positions.get? p.signal.symbol = some old) :
    ¬ Accounted (openings ++ [sim.entry p random now]) (sim.enter p random now) := by
  intro after
  have before := accounted.positions.length_eq
  have length := after.positions.length_eq
  have replaced := (@Dict.values_set_present _ _ _ _ _ (sim.entry p random now) _ present).length_eq
  have removed := (Dict.values_perm_erase present).length_eq
  simp only [List.length_append, List.length_map, List.length_cons, List.length_nil,
    ExecutionSimulator.enter] at before length replaced removed
  omega

theorem Accounted.exit (accounted : Accounted openings sim) {sym : Text} {p : Position}
    {exitPrice : ℚ} {ts : Text} {reason : ExitReason} (held : sim.positions.get? sym = some p)
    (fresh : asEntered sim.toParameters p = p) :
    Accounted openings (sim.exit sym p exitPrice ts reason) := by
  have perm := Dict.values_perm_erase held
  have restored : asEntered sim.toParameters (sim.closing p exitPrice ts reason) = p := by
    rw [← fresh]
    rfl
  constructor
  · refine accounted.positions.trans ((perm.append_right _).trans ?_)
    simp only [ExecutionSimulator.exit, List.map_append, List.map_cons, List.map_nil, restored,
      List.cons_append, ← List.append_assoc]
    exact List.perm_append_singleton _ _ |>.symm
  · have cash := accounted.cash
    have released : release sim.toParameters (sim.closing p exitPrice ts reason) =
        exitPrice * p.qty - sim.feeUsd (exitPrice * p.qty) := rfl
    simp only [ExecutionSimulator.exit, total_append, total_cons, total_nil, released]
    linarith

end

/-! ## Whole runs -/

/-- The entries of the dictionary are as they were entered. -/
structure Entered (sim : ExecutionSimulator) : Prop extends Kept sim where
  fresh : sim.positions.Every fun _ p => asEntered sim.toParameters p = p

theorem Entered.construct (parameters : Parameters) (cash : ℚ) :
    Entered (ExecutionSimulator.construct parameters cash) := by
  refine ⟨Kept.construct parameters cash, ?_⟩
  unfold ExecutionSimulator.construct postInit
  split <;> exact Dict.every_empty _

theorem Entered.step {s : Interleaving} (entered : Entered s.sim) (e : Event) :
    Entered (s.step e).sim := by
  rcases s.step_cases e with ⟨-, same | ⟨peak, same⟩ | ⟨sym, p, exitPrice, ts, reason, held, same⟩⟩ |
    ⟨p, random, now, -, fills, same⟩
  all_goals rw [same]
  · exact entered
  · exact ⟨⟨entered.held, entered.closed⟩, entered.fresh⟩
  · exact ⟨entered.toKept.exit sym p exitPrice ts reason, entered.fresh.erase⟩
  · exact ⟨entered.toKept.enter fills, entered.fresh.set (asEntered_entry fills)⟩

theorem Accounted.construct (parameters : Parameters) (cash : ℚ) :
    Accounted [] (ExecutionSimulator.construct parameters cash) := by
  unfold ExecutionSimulator.construct postInit
  split <;> exact ⟨by simp, by simp⟩

/-- An event keeps every position accounted for just when the execution it resumes, if one, does
not enter over an open position. -/
theorem accounted_step {s : Interleaving} (entered : Entered s.sim) {openings : List Position}
    (accounted : Accounted openings s.sim) (e : Event) :
    Accounted (openings ++ s.opened e) (s.step e).sim ↔ StillFree s e := by
  rcases s.step_cases e with ⟨none, does⟩ | ⟨p, random, now, filling, fills, same⟩
  · have free : StillFree s e := by simp [StillFree, none]
    have nothing : s.opened e = [] := by simp [Interleaving.opened, none]
    refine iff_of_true ?_ free
    rw [nothing, List.append_nil]
    rcases does with same | ⟨peak, same⟩ | ⟨sym, p, exitPrice, ts, reason, held, same⟩
    · rw [same]
      exact accounted
    · rw [same]
      exact ⟨accounted.positions, accounted.cash⟩
    · rw [same]
      exact accounted.exit held (entered.fresh.get? held)
  · have one : s.opened e = [s.sim.entry p random now] := by simp [Interleaving.opened, filling]
    have free : StillFree s e ↔ s.sim.positions.get? p.signal.symbol = none := by
      simp [StillFree, filling, entered.toKept.isOpen_eq]
    rw [one, same, free]
    cases present : s.sim.positions.get? p.signal.symbol with
    | none => simp [accounted.enter fills present]
    | some old => simp [accounted.not_enter present]

/-- No position is lost on a run of overlapping executions and exits just when every suspended
execution that enters its position still finds its symbol free. -/
theorem nothingLost_iff_stillFree (parameters : Parameters) (cash : ℚ) (events : List Event) :
    NothingLost ⟨construct parameters cash, []⟩ events ↔
      Allowed Interleaving.step StillFree ⟨construct parameters cash, []⟩ events := by
  have entered (first : List Event) :
      Entered (run Interleaving.step ⟨construct parameters cash, []⟩ first).sim :=
    @run_invariant_of_step _ _ _ (fun s : Interleaving => Entered s.sim) (fun _ e entered => entered.step e)
      ⟨construct parameters cash, []⟩ (Entered.construct parameters cash) first
  constructor
  · intro kept
    rw [allowed_iff_split]
    rintro first e rest rfl
    have before := kept.accounted first (e :: rest) rfl
    have after := kept.accounted (first ++ [e]) rest (by simp)
    rw [emitted_concat, run_concat] at after
    exact (accounted_step (entered first) before e).mp after
  · intro free
    have accounted (first : List Event)
        (allowed : Allowed Interleaving.step StillFree ⟨construct parameters cash, []⟩ first) :
        Accounted (emitted Interleaving.step Interleaving.opened ⟨construct parameters cash, []⟩ first)
          (run Interleaving.step ⟨construct parameters cash, []⟩ first).sim := by
      induction first using List.reverseRecOn with
      | nil => exact Accounted.construct parameters cash
      | append_singleton first e ih =>
          obtain ⟨before, last, -⟩ := (allowed_append _ first [e]).mp allowed
          rw [emitted_concat, run_concat]
          exact (accounted_step (entered first) (ih before) e).mpr last
    refine ⟨?_, ?_, ?_⟩
    · rintro first rest rfl
      exact accounted first ((allowed_append _ first rest).mp free).1
    · rintro first e rest rfl p opens
      have last := ((allowed_append _ first (e :: rest)).mp free).2.1
      obtain ⟨q, random, now, filling, rfl⟩ := Interleaving.mem_opened opens
      exact last q random now filling
    · rintro first e rest rfl opens
      obtain ⟨p, member⟩ := List.exists_mem_of_ne_nil _ opens
      obtain ⟨q, random, now, filling, -⟩ := Interleaving.mem_opened member
      rw [run_concat]
      exact Interleaving.cash_filling filling

/-- Two executions for one symbol, both suspended before either enters its position. -/
def bothSuspended : List Event :=
  let signal : Signal := ⟨txt "BTCUSDT", txt "evt_1", none, some (txt "LONG"), some 1000⟩
  let tick : MarketTick := ⟨txt "BTCUSDT", [], some 100⟩
  [.call signal (some tick) none 50 (txt "ord_1"), .call signal (some tick) none 300 (txt "ord_2"),
    .resume 0 0 [] (txt "ord_1"), .resume 0 0 [] (txt "ord_2")]

theorem not_nothingLost_bothSuspended :
    ¬ NothingLost ⟨construct {} 10000, []⟩ bothSuspended := by
  intro kept
  have lengths := (kept.accounted bothSuspended [] (List.append_nil _).symm).positions.length_eq
  revert lengths
  decide +kernel

end Senex.Simulator
