/-
`services/run_kit.py` and `tail_cursor_stream` of `api/routes/_sse.py`: the events of a
durable run, and the tasks that send them to a reader.

`append_event` numbers a run's events on end, so that the rows behind a cursor are
the events from there on (`getRunEvents_numbered`). A tail reads the rows and then, in a
later statement, whether the run is terminal, while events may be appended or the run
deleted in between; its connection may break at any time, and the next one begins
behind the last row that arrived. `received_in_order` says that the reader gets each
event once and in order over all its connections. How the rows are written and read as
text is left out.
-/
import Mathlib.Data.List.Infix
import Mathlib.Data.List.Sort
import Nexus.Lib.Run
import Nexus.Primitives

namespace Nexus.Streams
open Transition

variable {V : Type}

/-! ## A run's events -/

/-- An event as it is stored. -/
structure Event (V : Type) where
  eventType : Text
  payload : V
  deriving DecidableEq

/-- A row of `chat_run_events`, `oracle_reading_events` or `artifact_build_events`. -/
structure EventRow (V : Type) where
  seq : Nat
  event : Event V
  deriving DecidableEq

/-- What `get_run_events` reads of one run. An event row has a run row. -/
structure RunLog (V : Type) where
  present : Bool
  terminal : Bool
  rows : List (EventRow V)

def nextSeq (rows : List (EventRow V)) : Nat := (rows.map EventRow.seq).foldl max 0 + 1

def RunLog.appendEvent (log : RunLog V) (e : Event V) : RunLog V :=
  { log with rows := log.rows ++ [⟨nextSeq log.rows, e⟩] }

/-- `mark_terminal`, and the terminal child and event that the Dossier engine writes. -/
def RunLog.markTerminal (log : RunLog V) (done : Event V) : RunLog V :=
  if log.terminal then log else { log.appendEvent done with terminal := true }

/-- The deletion of a run and its events. -/
def RunLog.purge (log : RunLog V) : RunLog V := { log with present := false, rows := [] }

/-- `get_run_events`, its first statement. -/
def RunLog.getRunEvents (log : RunLog V) (after : Nat) : List (EventRow V) :=
  (log.rows.filter fun row => after < row.seq).insertionSort fun row row' => row.seq ≤ row'.seq

/-- `is_run_terminal`: a missing row counts as terminal. -/
def RunLog.isRunTerminal (log : RunLog V) : Bool := !log.present || log.terminal

/-- Events numbered from `n`. -/
def numberedFrom (n : Nat) : List (Event V) → List (EventRow V)
  | [] => []
  | e :: events => ⟨n, e⟩ :: numberedFrom (n + 1) events

section Numbered

variable {events : List (Event V)} {n : Nat}

theorem numberedFrom_append (events events' : List (Event V)) :
    numberedFrom n (events ++ events') = numberedFrom n events ++ numberedFrom (n + events.length) events' := by
  induction events generalizing n with
  | nil => rfl
  | cons e events ih => simp [numberedFrom, ih, Nat.add_assoc, Nat.add_comm 1]

theorem drop_numberedFrom (k : Nat) : (numberedFrom n events).drop k = numberedFrom (n + k) (events.drop k) := by
  induction events generalizing n k with
  | nil => simp [numberedFrom]
  | cons e events ih =>
    cases k with
    | zero => rfl
    | succ k => simp [numberedFrom, ih, Nat.add_assoc, Nat.add_comm 1]

theorem le_seq_of_mem_numberedFrom {row : EventRow V} (h : row ∈ numberedFrom n events) : n ≤ row.seq := by
  induction events generalizing n with
  | nil => cases h
  | cons e events ih =>
    rcases List.mem_cons.1 h with rfl | h
    · exact Nat.le_refl n
    · exact Nat.le_of_succ_le (ih h)

theorem nextSeq_numberedFrom : nextSeq (numberedFrom 1 events) = events.length + 1 := by
  have hfold (n m : Nat) (hm : m < n) : ((numberedFrom n events).map EventRow.seq).foldl max m =
      if events = [] then m else n + events.length - 1 := by
    induction events generalizing n m with
    | nil => rfl
    | cons e events ih =>
      rw [numberedFrom, List.map_cons, List.foldl_cons, Nat.max_eq_right (Nat.le_of_lt hm), ih (n + 1) n (by omega)]
      cases events with
      | nil => simp
      | cons e' events => simp; omega
  rw [nextSeq, hfold 1 0 (by omega)]
  cases events with
  | nil => rfl
  | cons e events => simp

theorem sorted_numberedFrom : (numberedFrom n events).Pairwise fun row row' => row.seq ≤ row'.seq := by
  induction events generalizing n with
  | nil => exact .nil
  | cons e events ih =>
    refine .cons (fun row hrow => ?_) ih
    have hle := le_seq_of_mem_numberedFrom hrow
    exact Nat.le_of_succ_le hle

theorem filter_numberedFrom (after : Nat) :
    (numberedFrom n events).filter (fun row => after < row.seq) = (numberedFrom n events).drop (after + 1 - n) := by
  induction events generalizing n with
  | nil => simp [numberedFrom]
  | cons e events ih =>
    by_cases h : after < n
    · have hzero : after + 1 - n = 0 := by omega
      rw [hzero, List.drop_zero]
      refine List.filter_eq_self.2 fun row hrow => decide_eq_true ?_
      have := le_seq_of_mem_numberedFrom hrow
      omega
    · obtain ⟨k, hk⟩ : ∃ k, after + 1 - n = k + 1 := ⟨after - n, by omega⟩
      have hk' : after + 1 - (n + 1) = k := by omega
      rw [hk, numberedFrom, List.filter_cons_of_neg (by simpa using h), ih, hk', List.drop_succ_cons]

end Numbered

/-- The rows of a run's events behind a cursor. -/
def rowsFrom (history : List (Event V)) (after : Nat) : List (EventRow V) := (numberedFrom 1 history).drop after

/-- **The rows behind a cursor are the events from there on.** -/
theorem getRunEvents_numbered {log : RunLog V} {history : List (Event V)} (h : log.rows = numberedFrom 1 history) (after : Nat) :
    log.getRunEvents after = rowsFrom history after := by
  rw [RunLog.getRunEvents, h, filter_numberedFrom, Nat.add_sub_cancel]
  exact (sorted_numberedFrom.sublist (List.drop_sublist _ _)).insertionSort_eq

section Rows

variable {history : List (Event V)} {row : EventRow V} {rows rest : List (EventRow V)} {k : Nat}

theorem rowsFrom_add (history : List (Event V)) (k n : Nat) : rowsFrom history (k + n) = (rowsFrom history k).drop n := by
  rw [rowsFrom, rowsFrom, List.drop_drop]

theorem rowsFrom_append (history history' : List (Event V)) (k : Nat) : rowsFrom history k <+: rowsFrom (history ++ history') k := by
  unfold rowsFrom
  rw [numberedFrom_append]
  exact (List.prefix_append _ _).drop k

theorem seq_of_rowsFrom_cons (h : rowsFrom history k = row :: rest) : row.seq = k + 1 := by
  rw [rowsFrom, drop_numberedFrom] at h
  cases hd : history.drop k with
  | nil => rw [hd] at h; cases h
  | cons e events =>
    rw [hd] at h
    obtain ⟨rfl, -⟩ := List.cons.inj h
    exact Nat.add_comm 1 k

/-- The row behind some rows. -/
theorem seq_of_concat (h : rows ++ [row] <+: rowsFrom history k) : row.seq = k + (rows ++ [row]).length := by
  have hdrop := h.drop rows.length
  rw [List.drop_left, ← rowsFrom_add] at hdrop
  obtain ⟨rest, hrest⟩ := hdrop
  rw [seq_of_rowsFrom_cons hrest.symm, List.length_append, Nat.add_assoc]
  rfl

/-- Rows that follow those that came are rows behind the number of the last. -/
theorem prefix_append_rows (h : rows <+: rowsFrom history k) (hrest : rest <+: rowsFrom history (k + rows.length)) :
    rows ++ rest <+: rowsFrom history k := by
  obtain ⟨behind, hbehind⟩ := h
  rw [rowsFrom_add, ← hbehind, List.drop_left] at hrest
  rw [← hbehind]
  exact (List.prefix_append_right_inj _).2 hrest

theorem rest_of_append (h : rows ++ rest <+: rowsFrom history k) : rest <+: rowsFrom history (k + rows.length) := by
  rw [rowsFrom_add]
  have hdrop := h.drop rows.length
  rwa [List.drop_left] at hdrop

end Rows

/-! ## The tail of one connection -/

/-- Where `tail_cursor_stream` stands. -/
inductive TailPhase (V : Type)
  /-- before the next notification -/
  | waiting
  /-- the rows are read, and whether the run is terminal is not -/
  | reading (events : List (EventRow V))
  /-- both are read -/
  | read (events : List (EventRow V)) (terminal : Bool)
  /-- the advisory is sent; these rows are not -/
  | yielding (events : List (EventRow V)) (terminal : Bool)
  | closed

structure Tail (V : Type) where
  cursor : Nat
  lastAdvisory : Option (Event V)
  phase : TailPhase V

/-- The local variables of `tail_cursor_stream` at its start. -/
def Tail.begin (after : Nat) : Tail V := ⟨after, .none, .waiting⟩

/-- What a tail yields; an advisory has no number. -/
inductive Frame (V : Type)
  | event (row : EventRow V)
  | advisory (e : Event V)
  | keepalive

def doneType : Text := ['d', 'o', 'n', 'e']

/-- What the task does between two awaits. -/
inductive TailStep (V : Type)
  | readEvents
  | readTerminal
  | readAdvisory (advisory : Option (Event V))
  | yieldNext
  | endOfEvents (keepaliveDue : Bool)
  /-- the client is gone, the run is gone for it, or an error -/
  | close

/-- One step, and what it yields. -/
def Tail.step [DecidableEq V] (log : RunLog V) (tail : Tail V) : TailStep V → Option (Tail V × List (Frame V))
  | .readEvents => match tail.phase with
    | .waiting => .some ({ tail with phase := .reading (log.getRunEvents tail.cursor) }, [])
    | _ => .none
  | .readTerminal => match tail.phase with
    | .reading events => .some ({ tail with phase := .read events log.isRunTerminal }, [])
    | _ => .none
  | .readAdvisory advisory => match tail.phase with
    | .read events terminal =>
      match if terminal then .none else advisory with
      | .some e =>
        if tail.lastAdvisory = .some e then .some ({ tail with phase := .yielding events terminal }, [])
        else .some ({ tail with lastAdvisory := .some e, phase := .yielding events terminal }, [.advisory e])
      | .none => .some ({ tail with phase := .yielding events terminal }, [])
    | _ => .none
  | .yieldNext => match tail.phase with
    | .yielding (row :: events) terminal =>
      .some ({ tail with
        cursor := row.seq
        phase := if row.event.eventType = doneType then .closed else .yielding events terminal }, [.event row])
    | _ => .none
  | .endOfEvents keepaliveDue => match tail.phase with
    | .yielding [] terminal =>
      if terminal then .some ({ tail with phase := .closed }, [])
      else .some ({ tail with phase := .waiting }, if keepaliveDue then [.keepalive] else [])
    | _ => .none
  | .close => .some ({ tail with phase := .closed }, [])

/-- The rows read and not sent. -/
def TailPhase.pending : TailPhase V → List (EventRow V)
  | .reading events | .read events _ | .yielding events _ => events
  | .waiting | .closed => []

def rowsOf (frames : List (Frame V)) : List (EventRow V) :=
  frames.filterMap fun
    | .event row => .some row
    | _ => .none

/-! ## A reader and its connections -/

structure Watch (V : Type) where
  log : RunLog V
  /-- every event there has been, also of a run that is deleted -/
  history : List (Event V)
  /-- the number the reader asks for first -/
  start : Nat
  received : List (EventRow V)
  tail : Tail V
  /-- sent on this connection and on its way -/
  wire : List (Frame V)

/-- The `Last-Event-ID` of the next request. -/
def Watch.lastEventId (w : Watch V) : Nat := (w.received.getLast?.map EventRow.seq).getD w.start

inductive Happening (V : Type)
  | append (e : Event V)
  | markTerminal (done : Event V)
  | purge
  | tail (step : TailStep V)
  | arrives
  /-- the connection is lost with what is on its way, and there is a new one -/
  | reconnected

def Watch.next [DecidableEq V] (w : Watch V) : Happening V → Option (Watch V)
  | .append e => if w.log.present then .some { w with log := w.log.appendEvent e, history := w.history ++ [e] } else .none
  | .markTerminal done =>
    if w.log.present then
      .some { w with log := w.log.markTerminal done, history := if w.log.terminal then w.history else w.history ++ [done] }
    else .none
  | .purge => .some { w with log := w.log.purge }
  | .tail step => (w.tail.step w.log step).map fun (tail, frames) => { w with tail := tail, wire := w.wire ++ frames }
  | .arrives => match w.wire with
    | [] => .none
    | frame :: wire => .some { w with received := w.received ++ rowsOf [frame], wire := wire }
  | .reconnected => .some { w with tail := .begin w.lastEventId, wire := [] }

/-- A run with some events, and a reader that asks for those behind a number. -/
def Watch.Begins (w : Watch V) : Prop :=
  w.log.rows = numberedFrom 1 w.history ∧ w.received = [] ∧ w.tail = .begin w.start ∧ w.wire = []

def watching [DecidableEq V] : System (Watch V) (Happening V) := .ofFun Watch.Begins Watch.next

/-! ## What holds -/

/-- What was received and what is on its way are the first rows; the tail's cursor is
behind them, and what it holds goes on from there. -/
structure Watch.InOrder (w : Watch V) : Prop where
  log : w.log.rows = numberedFrom 1 w.history ∨ w.log.rows = [] ∧ w.log.present = false
  rows : w.received ++ rowsOf w.wire <+: rowsFrom w.history w.start
  cursor : w.tail.cursor = w.start + (w.received ++ rowsOf w.wire).length
  pending : w.tail.phase.pending <+: rowsFrom w.history w.tail.cursor

section InOrder

variable {w w' : Watch V} {tail : Tail V} {frames : List (Frame V)}

theorem rowsOf_append (frames frames' : List (Frame V)) : rowsOf (frames ++ frames') = rowsOf frames ++ rowsOf frames' :=
  List.filterMap_append

theorem rows_appendEvent {log : RunLog V} {history : List (Event V)} (h : log.rows = numberedFrom 1 history) (e : Event V) :
    (log.appendEvent e).rows = numberedFrom 1 (history ++ [e]) := by
  show log.rows ++ [⟨nextSeq log.rows, e⟩] = _
  rw [h, nextSeq_numberedFrom, numberedFrom_append, Nat.add_comm 1]
  rfl

/-- The log and its history go on. -/
theorem Watch.InOrder.more (h : w.InOrder) {log : RunLog V} (history : List (Event V))
    (hlog : log.rows = numberedFrom 1 (w.history ++ history) ∨ log.rows = [] ∧ log.present = false) :
    Watch.InOrder { w with log := log, history := w.history ++ history } :=
  ⟨hlog, h.rows.trans (rowsFrom_append w.history history _), h.cursor, h.pending.trans (rowsFrom_append w.history history _)⟩

/-- A step of the tail that sends no row. -/
theorem Watch.InOrder.quiet (h : w.InOrder) (hframes : rowsOf frames = []) (hcursor : tail.cursor = w.tail.cursor)
    (hpending : tail.phase.pending <+: rowsFrom w.history w.tail.cursor) :
    Watch.InOrder { w with tail := tail, wire := w.wire ++ frames } := by
  have hrows : rowsOf (w.wire ++ frames) = rowsOf w.wire := by rw [rowsOf_append, hframes, List.append_nil]
  refine ⟨h.log, ?_, ?_, ?_⟩
  · rw [hrows]
    exact h.rows
  · rw [hrows, hcursor]
    exact h.cursor
  · rw [hcursor]
    exact hpending

theorem Watch.InOrder.of_phase (h : w.InOrder) {phase : TailPhase V} (hphase : w.tail.phase = phase) :
    phase.pending <+: rowsFrom w.history w.tail.cursor := hphase ▸ h.pending

/-- The step that sends a row. -/
theorem Watch.InOrder.yield (h : w.InOrder) {row : EventRow V} {rest : List (EventRow V)} {terminal : Bool} {phase : TailPhase V}
    (hphase : w.tail.phase = .yielding (row :: rest) terminal) (hpending : phase.pending <+: rest) :
    Watch.InOrder { w with tail := ⟨row.seq, w.tail.lastAdvisory, phase⟩, wire := w.wire ++ [.event row] } := by
  have hbehind : row :: rest <+: rowsFrom w.history w.tail.cursor := h.of_phase hphase
  have hrows : w.received ++ rowsOf (w.wire ++ [.event row]) = w.received ++ rowsOf w.wire ++ [row] := by
    rw [rowsOf_append, ← List.append_assoc]
    rfl
  have hall : (w.received ++ rowsOf w.wire ++ [row]) ++ rest <+: rowsFrom w.history w.start := by
    rw [List.append_assoc, List.singleton_append]
    exact prefix_append_rows h.rows (h.cursor ▸ hbehind)
  have hone := (List.prefix_append _ rest).trans hall
  refine ⟨h.log, ?_, ?_, ?_⟩
  · rw [hrows]
    exact hone
  · rw [hrows]
    exact seq_of_concat hone
  · show phase.pending <+: rowsFrom w.history row.seq
    rw [seq_of_concat hone]
    exact hpending.trans (rest_of_append hall)

/-- **A step of the tail keeps the rows in order.** -/
theorem Watch.InOrder.tailed [DecidableEq V] (h : w.InOrder) {step : TailStep V}
    (hstep : w.tail.step w.log step = .some (tail, frames)) : Watch.InOrder { w with tail := tail, wire := w.wire ++ frames } := by
  cases step with
  | readEvents =>
    simp only [Tail.step] at hstep
    split at hstep
    next =>
      cases hstep
      refine h.quiet rfl rfl ?_
      rcases h.log with hlog | ⟨hlog, -⟩
      · rw [TailPhase.pending, getRunEvents_numbered hlog]
      · simp [TailPhase.pending, RunLog.getRunEvents, hlog]
    next => cases hstep
  | readTerminal =>
    simp only [Tail.step] at hstep
    split at hstep
    next hphase =>
      have hpending := h.of_phase hphase
      cases hstep
      exact h.quiet rfl rfl hpending
    next => cases hstep
  | readAdvisory advisory =>
    simp only [Tail.step] at hstep
    split at hstep
    next hphase =>
      have hpending := h.of_phase hphase
      split at hstep
      next =>
        split at hstep
        next =>
          cases hstep
          exact h.quiet rfl rfl hpending
        next =>
          cases hstep
          exact h.quiet rfl rfl hpending
      next =>
        cases hstep
        exact h.quiet rfl rfl hpending
    next => cases hstep
  | yieldNext =>
    simp only [Tail.step] at hstep
    split at hstep
    next hphase =>
      cases hstep
      refine h.yield hphase ?_
      split
      · exact List.nil_prefix
      · exact List.prefix_refl _
    next => cases hstep
  | endOfEvents keepaliveDue =>
    simp only [Tail.step] at hstep
    split at hstep
    next =>
      split at hstep
      next =>
        cases hstep
        exact h.quiet rfl rfl List.nil_prefix
      next =>
        cases hstep
        refine h.quiet ?_ rfl List.nil_prefix
        cases keepaliveDue <;> rfl
    next => cases hstep
  | close =>
    cases hstep
    exact h.quiet rfl rfl List.nil_prefix

/-- The number the next connection begins behind is that of the last row received. -/
theorem Watch.InOrder.lastEventId (h : w.InOrder) : w.lastEventId = w.start + w.received.length := by
  have hreceived := (List.prefix_append w.received (rowsOf w.wire)).trans h.rows
  unfold Watch.lastEventId
  rcases List.eq_nil_or_concat w.received with hnil | ⟨rows, row, hrows⟩
  · rw [hnil]
    rfl
  · rw [hrows, List.concat_eq_append] at hreceived ⊢
    rw [List.getLast?_concat, Option.map_some, Option.getD_some]
    exact seq_of_concat hreceived

theorem Watch.InOrder.step [DecidableEq V] (h : w.InOrder) {happening : Happening V} (hnext : w.next happening = .some w') :
    w'.InOrder := by
  cases happening with
  | append e =>
    simp only [Watch.next] at hnext
    split at hnext
    next hpresent =>
      cases hnext
      rcases h.log with hrows | ⟨-, habsent⟩
      · exact h.more [e] (.inl (rows_appendEvent hrows e))
      · exact absurd (habsent.symm.trans hpresent) (by decide)
    next => cases hnext
  | markTerminal done =>
    simp only [Watch.next] at hnext
    split at hnext
    next hpresent =>
      cases hnext
      rcases h.log with hrows | ⟨-, habsent⟩
      · cases hterminal : w.log.terminal with
        | true =>
          have hlog : Watch.InOrder { w with history := w.history ++ [] } := h.more [] (.inl (by rw [List.append_nil]; exact hrows))
          simpa [RunLog.markTerminal, hterminal] using hlog
        | false =>
          have hlog : Watch.InOrder { w with
              log := { w.log.appendEvent done with terminal := true }
              history := w.history ++ [done] } := h.more [done] (.inl (rows_appendEvent hrows done))
          simpa only [RunLog.markTerminal, hterminal, if_false, Bool.false_eq_true] using hlog
      · exact absurd (habsent.symm.trans hpresent) (by decide)
    next => cases hnext
  | purge =>
    cases hnext
    have hlog : Watch.InOrder { w with log := w.log.purge, history := w.history ++ [] } := h.more [] (.inr ⟨rfl, rfl⟩)
    rwa [List.append_nil] at hlog
  | tail step =>
    simp only [Watch.next, Option.map_eq_some_iff] at hnext
    obtain ⟨⟨tail, frames⟩, hstep, rfl⟩ := hnext
    exact h.tailed hstep
  | arrives =>
    simp only [Watch.next] at hnext
    split at hnext
    next => cases hnext
    next frame wire hwire =>
      cases hnext
      have hsame : w.received ++ rowsOf [frame] ++ rowsOf wire = w.received ++ rowsOf w.wire := by
        rw [hwire, List.append_assoc, ← rowsOf_append]
        rfl
      refine ⟨h.log, ?_, ?_, h.pending⟩
      · rw [hsame]
        exact h.rows
      · rw [hsame]
        exact h.cursor
  | reconnected =>
    cases hnext
    refine ⟨h.log, ?_, ?_, List.nil_prefix⟩
    · rw [rowsOf, List.filterMap_nil, List.append_nil]
      exact (List.prefix_append _ _).trans h.rows
    · rw [rowsOf, List.filterMap_nil, List.append_nil]
      exact h.lastEventId

end InOrder

/-- **Over all its connections a reader gets the events behind the number it asked for
first in order, each once.** -/
theorem received_in_order [DecidableEq V] {w : Watch V} (h : (watching (V := V)).Reachable w) :
    w.received <+: rowsFrom w.history w.start := by
  have hw : w.InOrder := h.invariant (I := Watch.InOrder) (fun w₀ hinit => ?_) fun _ _ _ hstep hw => hw.step hstep
  · exact (List.prefix_append _ _).trans hw.rows
  obtain ⟨hrows, hreceived, htail, hwire⟩ := hinit
  refine ⟨.inl hrows, ?_, ?_, ?_⟩
  · rw [hreceived, hwire]
    exact List.nil_prefix
  · rw [hreceived, htail, hwire]
    rfl
  · rw [htail]
    exact List.nil_prefix

/-! A run of two events: the first connection is lost with the second event on its way. -/

def twoEvents : Watch Unit :=
  let history : List (Event Unit) := [⟨['d', 'e', 'l', 't', 'a'], ()⟩, ⟨doneType, ()⟩]
  ⟨⟨true, true, numberedFrom 1 history⟩, history, 0, [], .begin 0, []⟩

def brokenOnce : List (Happening Unit) :=
  let rows := [.tail .readEvents, .tail .readTerminal, .tail (.readAdvisory .none), .tail .yieldNext]
  rows ++ [.tail .yieldNext, .arrives, .reconnected] ++ rows ++ [.arrives]

def resumed : Watch Unit := last twoEvents (replay Watch.next twoEvents brokenOnce)

theorem received_in_order_resumed : resumed.received.map EventRow.seq = [1, 2] ∧
    resumed.received <+: rowsFrom resumed.history resumed.start :=
  ⟨by decide +kernel, received_in_order (System.reachable_replay brokenOnce ⟨rfl, rfl, rfl, rfl⟩)⟩

end Nexus.Streams
