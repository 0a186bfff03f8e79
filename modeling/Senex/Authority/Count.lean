import Senex.Authority.Cursor
import Senex.Foundation.Keyset
import Senex.Foundation.Transition

/-! # The exact prediction count

`count_predictions_exact` beside D1 and the durable count.  A call is a coroutine: it
runs up to its next request, D1 answers, and it goes on later with the answer.  Any
number of calls may be under way in one process.
-/

namespace Senex.Authority

open Text

/-! ## Configuration -/

/-- `AUTHORITY_DELTA_PAGE_SIZE_MAX` and `AUTHORITY_DELTA_MAX_PAGES` within their bounds. -/
structure DeltaLimits where
  pageSize : Nat
  maxPages : Nat
  pageSize_bounds : 1 ≤ pageSize ∧ pageSize ≤ 100
  maxPages_bounds : 1 ≤ maxPages ∧ maxPages ≤ 4

/-- The limits that apply when the environment sets none. -/
def DeltaLimits.default : DeltaLimits := ⟨50, 2, by decide, by decide⟩

/-- `AUTHORITY_HISTORY_PAGE_SIZE_MAX` -/
def historyPageSizeMax : Nat := 500

/-- `AUTHORITY_HISTORY_MAX_PAGES` -/
def historyMaxPages : Nat := 10000

/-! ## State -/

/-- The recorded count with the cursor that it goes up to. -/
structure Recorded where
  count : Nat
  cursor : Option Cursor

/-- The id of a cursor, as `_global_id_delta` starts from it. -/
def floorId : Option Cursor → Nat
  | none => 0
  | some c => c.id

/-- A call of `count_predictions_exact`, by what it waits for. -/
inductive Refresh where
  /-- The tail in front of the bootstrap. -/
  | bootTail
  | bootPage (tailBefore : Option Cursor) (total : Nat) (cursor : Option Cursor) (currentId pages : Nat)
  /-- The tail behind the bootstrap. -/
  | bootTailAgain (tailBefore : Option Cursor) (total : Nat) (cursor : Option Cursor)
  /-- The bootstrap has been answered. -/
  | bootDone (total : Nat) (cursor : Option Cursor)
  | deltaPage (start : Option Cursor) (currentId : Nat) (collected : List Cursor) (pages : Nat)
  /-- The delta has been answered. -/
  | deltaDone (start : Option Cursor) (collected : List Cursor)
  /-- The call has returned the count, recorded with this cursor. -/
  | returned (count : Nat) (cursor : Option Cursor)
  | failed (message : Text)

structure Counter where
  limits : DeltaLimits
  /-- The rows of D1, in the order of their ids. -/
  rows : List Cursor
  writesAllowed : Bool
  /-- `_exact_count_state`, once it is bootstrapped. -/
  memory : Option Recorded
  durable : Option Recorded
  refreshes : List Refresh

def Counter.start (limits : DeltaLimits) (writesAllowed : Bool) : Counter :=
  ⟨limits, [], writesAllowed, none, none, []⟩

/-! ## Queries -/

/-- `id > current ORDER BY id ASC LIMIT limit` -/
def Counter.idPage (w : Counter) (currentId limit : Nat) : List Cursor :=
  Keyset.page Cursor.id currentId limit w.rows

/-- `id > 0 ORDER BY id DESC LIMIT 1` -/
def Counter.tail (w : Counter) : Option Cursor := (Keyset.after Cursor.id 0 w.rows).getLast?

/-- The rows of a response one by one: each needs a cursor, and an id above the one before. -/
def readIds (nonMonotonic : Text) (currentId : Nat) : List Cursor → Except Text Nat
  | [] => .ok currentId
  | row :: rest =>
      match rowCursor row with
      | .error message => .error message
      | .ok key => if key.id ≤ currentId then .error nonMonotonic else readIds nonMonotonic key.id rest

/-! ## The turns of a call -/

/-- A turn of the loop of `_global_id_delta`. -/
def deltaTurn (limits : DeltaLimits) (start : Option Cursor) (currentId : Nat)
    (collected : List Cursor) (pages : Nat) (data : List Cursor) : Refresh :=
  match readIds (txt "EXACT_COUNT_DELTA_NON_MONOTONIC_ID") currentId data with
  | .error message => .failed message
  | .ok currentId =>
      if data.length < limits.pageSize then .deltaDone start (collected ++ data)
      else if data = [] then .failed (txt "EXACT_COUNT_DELTA_CURSOR_STALLED")
      else if pages ≤ 1 then
        .failed (txt "EXACT_COUNT_DELTA_PAGE_CAP_HIT:" ++ ofNat limits.maxPages)
      else .deltaPage start currentId (collected ++ data) (pages - 1)

/-- A turn of the loop of `_bootstrap_exact_count_from_ids`. -/
def bootTurn (tailBefore : Option Cursor) (total : Nat) (cursor : Option Cursor)
    (currentId pages : Nat) (data : List Cursor) : Refresh :=
  match readIds (txt "EXACT_COUNT_BOOTSTRAP_NON_MONOTONIC_ID") currentId data with
  | .error message => .failed message
  | .ok currentId =>
      let total := total + data.length
      let cursor := data.getLast?.or cursor
      if data.length < historyPageSizeMax then .bootTailAgain tailBefore total cursor
      else if pages ≤ 1 then
        .failed (txt "EXACT_COUNT_BOOTSTRAP_PAGE_CAP_HIT:" ++ ofNat historyMaxPages)
      else .bootPage tailBefore total cursor currentId (pages - 1)

/-- The checks of `_bootstrap_exact_count_from_ids` on the tail behind it. -/
def bootEnd (tailBefore : Option Cursor) (total : Nat) (cursor tailAfter : Option Cursor) : Refresh :=
  if tailBefore ≠ tailAfter then .failed (txt "EXACT_COUNT_BOOTSTRAP_RACE")
  else if total = 0 then
    if tailAfter ≠ none then .failed (txt "EXACT_COUNT_BOOTSTRAP_EMPTY_TAIL_MISMATCH")
    else .bootDone 0 none
  else if cursor ≠ tailAfter then .failed (txt "EXACT_COUNT_BOOTSTRAP_CURSOR_MISMATCH")
  else .bootDone total cursor

/-- The beginning of `_global_id_delta`. -/
def deltaStart (limits : DeltaLimits) (cursor : Option Cursor) : Refresh :=
  .deltaPage cursor (floorId cursor) [] limits.maxPages

/-- `_exact_count_state` behind a delta. -/
def Recorded.add (p : Recorded) (delta : List Cursor) : Recorded :=
  match delta.getLast? with
  | none => p
  | some last => ⟨p.count + delta.length, some last⟩

/-! ## Steps -/

inductive Counter.Label where
  /-- D1 takes a row, with an id above all others. -/
  | insert (ts : Text) (skipped : Nat)
  | restart (writesAllowed : Bool)
  /-- A call begins.  The durable count may refuse to load, and the bootstrap guard to let it pass. -/
  | call (unreadable guarded : Option Text)
  /-- D1 answers the request of a call, or the request fails. -/
  | answer (i : Nat) (failure : Option Text)
  /-- A call goes on behind its last request.  Its save may fail. -/
  | resume (i : Nat) (unsaved : Option Text)

def Counter.lastId (w : Counter) : Nat := floorId w.rows.getLast?

/-- The synchronous beginning of a call. -/
def Counter.call (w : Counter) (unreadable guarded : Option Text) : Counter :=
  match w.memory with
  | some p => { w with refreshes := w.refreshes ++ [deltaStart w.limits p.cursor] }
  | none =>
      match unreadable with
      | some message => { w with refreshes := w.refreshes ++ [.failed message] }
      | none =>
          match w.durable with
          | some p =>
              { w with memory := some p, refreshes := w.refreshes ++ [deltaStart w.limits p.cursor] }
          | none =>
              if w.writesAllowed then
                match guarded with
                | some message => { w with refreshes := w.refreshes ++ [.failed message] }
                | none => { w with refreshes := w.refreshes ++ [.bootTail] }
              else { w with refreshes := w.refreshes ++
                [.failed (txt "AUTHORITY_DURABLE_COUNT_MISSING_READ_ONLY")] }

/-- What an answer makes of a call that waits for it. -/
def Counter.answered (w : Counter) : Refresh → Refresh
  | .bootTail => .bootPage w.tail 0 none 0 historyMaxPages
  | .bootPage tailBefore total cursor currentId pages =>
      bootTurn tailBefore total cursor currentId pages (w.idPage currentId historyPageSizeMax)
  | .bootTailAgain tailBefore total cursor => bootEnd tailBefore total cursor w.tail
  | .deltaPage start currentId collected pages =>
      deltaTurn w.limits start currentId collected pages (w.idPage currentId w.limits.pageSize)
  | other => other

/-- Whether a call waits for D1. -/
def Refresh.waits : Refresh → Bool
  | .bootTail | .bootPage .. | .bootTailAgain .. | .deltaPage .. => true
  | _ => false

def Counter.answer (w : Counter) (i : Nat) (failure : Option Text) : Counter :=
  match w.refreshes[i]? with
  | none => w
  | some refresh =>
      if refresh.waits then
        match failure with
        | some message => { w with refreshes := w.refreshes.set i (.failed message) }
        | none => { w with refreshes := w.refreshes.set i (w.answered refresh) }
      else w

/-- The synchronous rest of a call behind its bootstrap, or behind its delta. -/
def Counter.resume (w : Counter) (i : Nat) (unsaved : Option Text) : Counter :=
  match w.refreshes[i]? with
  | some (.bootDone total cursor) =>
      match unsaved with
      | some message => { w with refreshes := w.refreshes.set i (.failed message) }
      | none => { w with
          memory := some ⟨total, cursor⟩
          durable := some ⟨total, cursor⟩
          refreshes := w.refreshes.set i (deltaStart w.limits cursor) }
  | some (.deltaDone _ collected) =>
      match w.memory with
      | none => { w with refreshes := w.refreshes.set i (.failed (txt "TypeError")) }
      | some p =>
          let p := p.add collected
          if w.writesAllowed then
            match unsaved with
            | some message =>
                { w with memory := some p, refreshes := w.refreshes.set i (.failed message) }
            | none => { w with
                memory := some p
                durable := some p
                refreshes := w.refreshes.set i (.returned p.count p.cursor) }
          else { w with
            memory := some p
            refreshes := w.refreshes.set i (.returned p.count p.cursor) }
  | _ => w

def Counter.step (w : Counter) : Counter.Label → Counter
  | .insert ts skipped => { w with rows := w.rows ++ [⟨ts, w.lastId + 1 + skipped⟩] }
  | .restart writesAllowed => { w with writesAllowed, memory := none, refreshes := [] }
  | .call unreadable guarded => w.call unreadable guarded
  | .answer i failure => w.answer i failure
  | .resume i unsaved => w.resume i unsaved

/-! ## What is promised -/

/-- The count is the number of rows up to the cursor. -/
def Recorded.Exact (rows : List Cursor) (p : Recorded) : Prop :=
  p.count = (Keyset.upTo Cursor.id (floorId p.cursor) rows).length

/-- What is recorded is exact, in memory and durably, and so is every count that was returned. -/
structure Counter.Counted (w : Counter) : Prop where
  memory : ∀ p ∈ w.memory, p.Exact w.rows
  durable : ∀ p ∈ w.durable, p.Exact w.rows
  returned : ∀ count cursor, .returned count cursor ∈ w.refreshes → Recorded.Exact w.rows ⟨count, cursor⟩

/-- The step does not add the delta of a call to a count that another call has moved on. -/
def Counter.Current (w : Counter) : Counter.Label → Prop
  | .resume i _ => ∀ start collected, w.refreshes[i]? = some (.deltaDone start collected) →
      collected ≠ [] → ∀ p ∈ w.memory, p.cursor = start
  | _ => True

end Senex.Authority
