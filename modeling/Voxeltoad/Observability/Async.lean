import Mathlib.Data.List.Perm.Basic
import Voxeltoad.Lib.Chan
import Voxeltoad.Lib.Run

/-!
# Asynchronous recorders

The usage ledger, the request log and the trace payloads are written off the request path: `Record`
puts a record on a bounded channel and never waits, and a worker carries what is queued to the sink.
`AsyncRecorder`, `AsyncRequestLogRecorder` and `AsyncTracePayloadRecorder` are one algorithm over
three types of record, and so is the desktop's `DispatchStepSink`; here the type of a record is `α`.

The parties are any number of goroutines in `Record`, any number in `Close`, and the worker.  They
share the channel and the counter and no lock, so the machine below takes one step of one party at
a time:

* `record r` is the `select` of one `Record` call.  A call that took the `default` branch has yet to
  count its record, which is the step `countDropped`.
* `close` closes the channel, once over all calls, and the call then waits on `done` until
  `closeReturns`.
* `run` is the worker's next step: receive a record, have the sink write it, count a failed write.
  What the sink answers is part of the step, so that a run is one over every sink.

The records themselves are values: `Record` copies the one field that is a pointer before it queues
the record.  What the recorders log and meter is left out.

**What is kept** is `NothingLost`: a record is handed to the sink once and in order, or is counted;
a `Close` that returned left nothing behind; and no send met a closed channel.  The recorders keep
it exactly as long as no `Record` comes after a `Close`.  `Close` says that it *stops accepting new
records*, but nothing in `Record` looks for that: its `default` branch saves it from a full channel,
not from a closed one, where a send panics.
-/

set_option autoImplicit false

namespace Voxeltoad
namespace Observability

variable {α : Type*}

/-- Where the worker is. -/
inductive Worker (α : Type*)
  | notStarted
  /-- In the `range` over the channel, about to receive. -/
  | idle
  /-- The sink is writing this record. -/
  | handling (r : α)
  /-- The sink failed on this record, which is still to be counted. -/
  | failing (r : α)
  /-- Out of the loop, with `done` closed. -/
  | exited

/-- An asynchronous recorder and the calls that are inside it. -/
structure Async (α : Type*) where
  buf : Chan α
  dropped : Int64
  worker : Worker α
  /-- The records whose `Record` call took the `default` branch and is about to count them. -/
  dropping : List α
  /-- How many `Close` calls wait on `done`, and how many have returned. -/
  closing : Nat
  returned : Nat
  /-- What `Record` was called with, and what the channel took of it. -/
  recorded : List α
  enqueued : List α
  /-- What the sink was handed. -/
  handed : List α
  /-- What was counted in `dropped`, by a `Record` call and by the worker. -/
  lost : List α
  failed : List α
  /-- The records whose send met the closed channel. -/
  panicked : List α

/-- `NewAsyncRecorder`, and its siblings. -/
def newAsync (bufferSize : Int) : Async α :=
  let bufferSize := if bufferSize < 1 then 1 else bufferSize
  { buf := Chan.make bufferSize.toNat
    dropped := 0
    worker := .notStarted
    dropping := []
    closing := 0
    returned := 0
    recorded := []
    enqueued := []
    handed := []
    lost := []
    failed := []
    panicked := [] }

namespace Async

/-- `Start`, under its `sync.Once`. -/
def start (a : Async α) : Async α :=
  match a.worker with
  | .notStarted => { a with worker := .idle }
  | _ => a

/-- The `select` of `Record`. -/
def record (a : Async α) (r : α) : Async α :=
  let a := { a with recorded := a.recorded ++ [r] }
  match a.buf.trySend r with
  | .sent buf => { a with buf, enqueued := a.enqueued ++ [r] }
  | .full => { a with dropping := a.dropping ++ [r] }
  | .panics => { a with panicked := a.panicked ++ [r] }

/-- The `dropped.Add(1)` of the `i`-th of the `Record` calls that have one to do. -/
def countDropped (a : Async α) (i : Nat) : Async α :=
  match a.dropping[i]? with
  | some r =>
    { a with
      dropped := a.dropped + 1
      dropping := a.dropping.eraseIdx i
      lost := a.lost ++ [r] }
  | none => a

/-- `Close`, up to its wait on `done`.  The `sync.Once` around `close(a.buf)` makes a second one do
nothing. -/
def close (a : Async α) : Async α :=
  { a with buf := a.buf.close, closing := a.closing + 1 }

/-- A `Close` call gets past `<-a.done` and returns. -/
def closeReturns (a : Async α) : Async α :=
  match a.worker, a.closing with
  | .exited, n + 1 => { a with closing := n, returned := a.returned + 1 }
  | _, _ => a

/-- One step of the worker's `run`.  `sinkFails` is whether the sink's `Record` returns an error,
where it is called. -/
def run (a : Async α) (sinkFails : Bool) : Async α :=
  match a.worker with
  | .notStarted => a
  | .idle =>
    match a.buf.recv with
    | .received r buf => { a with buf, worker := .handling r }
    | .drained => { a with worker := .exited }
    | .blocks => a
  | .handling r =>
    { a with handed := a.handed ++ [r], worker := if sinkFails then .failing r else .idle }
  | .failing r => { a with dropped := a.dropped + 1, failed := a.failed ++ [r], worker := .idle }
  | .exited => a

end Async

/-- A step of one of the parties. -/
inductive Op (α : Type*)
  | start
  | record (r : α)
  | countDropped (i : Nat)
  | close
  | closeReturns
  | run (sinkFails : Bool)

/-- One step. -/
def step (a : Async α) : Op α → Async α
  | .start => a.start
  | .record r => a.record r
  | .countDropped i => a.countDropped i
  | .close => a.close
  | .closeReturns => a.closeReturns
  | .run sinkFails => a.run sinkFails

/-- A `Record` call's send. -/
def Op.IsRecord : Op α → Prop
  | .record _ => True
  | _ => False

/-- A `Close` call's close. -/
def Op.IsClose : Op α → Prop
  | .close => True
  | _ => False

/-- A step of the worker. -/
def Op.isRun : Op α → Bool
  | .run _ => true
  | _ => false

/-! ## What is kept -/

/-- What the worker has received and not handed over yet. -/
def Worker.inHand : Worker α → List α
  | .handling r => [r]
  | _ => []

/-- What the worker has handed over in vain and not counted yet. -/
def Worker.uncounted : Worker α → List α
  | .failing r => [r]
  | _ => []

@[simp] theorem Worker.inHand_idle : (Worker.idle : Worker α).inHand = [] := rfl

@[simp] theorem Worker.inHand_handling (r : α) : (Worker.handling r).inHand = [r] := rfl

@[simp] theorem Worker.uncounted_handling (r : α) : (Worker.handling r).uncounted = [] := rfl

/-- **Nothing is lost silently.** -/
structure NothingLost (a : Async α) : Prop where
  /-- What the channel took is handed over once and in that order: it is what was handed over so
  far, then what the worker holds, then what is queued. -/
  order : a.enqueued = a.handed ++ a.worker.inHand ++ a.buf.items
  /-- A record that `Record` was called with was enqueued, was counted, or is about to be counted by
  its own call. -/
  fate : a.recorded.Perm (a.enqueued ++ a.lost ++ a.dropping)
  /-- `Dropped` counts what was turned away and what the sink failed on. -/
  counted : a.dropped = Int64.ofNat (a.lost.length + a.failed.length)
  /-- What is counted as failed was handed over, once. -/
  failed : (a.failed ++ a.worker.uncounted).Sublist a.handed
  /-- Whatever else the parties do, what is enqueued now is handed over once the worker has taken
  three steps for each record that is waiting. -/
  delivered : a.worker ≠ .notStarted → ∀ rest : List (Op α),
    3 * (a.worker.inHand ++ a.buf.items).length ≤ rest.countP Op.isRun →
    a.enqueued <+: (Run.run step a rest).handed
  /-- When a `Close` has returned, everything enqueued was handed over. -/
  closed : 0 < a.returned → a.handed = a.enqueued
  /-- No send met the closed channel. -/
  noPanic : a.panicked = []

/-! ## What a step can do -/

/-- The `select` of `Record` queues the record, or finds the channel full, or finds it closed. -/
theorem record_cases (a : Async α) (r : α) :
    (∃ buf, a.buf.closed = false ∧ buf.items = a.buf.items ++ [r] ∧ buf.closed = false ∧
      a.record r = { a with
        recorded := a.recorded ++ [r]
        buf
        enqueued := a.enqueued ++ [r] }) ∨
    (a.buf.closed = false ∧
      a.record r = { a with
        recorded := a.recorded ++ [r]
        dropping := a.dropping ++ [r] }) ∨
    (a.buf.closed = true ∧
      a.record r = { a with
        recorded := a.recorded ++ [r]
        panicked := a.panicked ++ [r] }) := by
  rcases a.buf.trySend_cases r with ⟨buf, hsend, hopen, hitems, hopen'⟩ | ⟨hsend, hopen⟩
    | ⟨hsend, hclosed⟩
  · exact .inl ⟨buf, hopen, hitems, hopen', by simp only [Async.record, hsend]⟩
  · exact .inr (.inl ⟨hopen, by simp only [Async.record, hsend]⟩)
  · exact .inr (.inr ⟨hclosed, by simp only [Async.record, hsend]⟩)

/-- The worker receives a record, hands one over, counts one that failed, leaves the loop, or has
nothing to do. -/
theorem run_cases (a : Async α) (sinkFails : Bool) :
    (∃ r buf, a.worker = .idle ∧ a.buf.items = r :: buf.items ∧ buf.closed = a.buf.closed ∧
      a.run sinkFails = { a with buf, worker := .handling r }) ∨
    (∃ r, a.worker = .handling r ∧
      a.run sinkFails = { a with
        handed := a.handed ++ [r]
        worker := if sinkFails then .failing r else .idle }) ∨
    (∃ r, a.worker = .failing r ∧
      a.run sinkFails = { a with
        dropped := a.dropped + 1
        failed := a.failed ++ [r]
        worker := .idle }) ∨
    (a.worker = .idle ∧ a.buf.items = [] ∧ a.buf.closed = true ∧
      a.run sinkFails = { a with worker := .exited }) ∨
    ((a.worker = .notStarted ∨ a.worker = .idle ∧ a.buf.items = [] ∨ a.worker = .exited) ∧
      a.run sinkFails = a) := by
  cases hw : a.worker with
  | notStarted => exact .inr (.inr (.inr (.inr ⟨.inl rfl, by simp only [Async.run, hw]⟩)))
  | idle =>
    rcases a.buf.recv_cases with ⟨r, buf, hrecv, hitems, hclosed⟩ | ⟨hrecv, hitems, hclosed⟩
      | ⟨hrecv, hitems, -⟩
    · exact .inl ⟨r, buf, rfl, hitems, hclosed, by simp only [Async.run, hw, hrecv]⟩
    · exact .inr (.inr (.inr (.inl ⟨rfl, hitems, hclosed, by simp only [Async.run, hw, hrecv]⟩)))
    · refine .inr (.inr (.inr (.inr ⟨.inr (.inl ⟨rfl, hitems⟩), ?_⟩)))
      simp only [Async.run, hw, hrecv]
  | handling r => exact .inr (.inl ⟨r, rfl, by simp only [Async.run, hw]⟩)
  | failing r => exact .inr (.inr (.inl ⟨r, rfl, by simp only [Async.run, hw]⟩))
  | exited => exact .inr (.inr (.inr (.inr ⟨.inr (.inr rfl), by simp only [Async.run, hw]⟩)))

/-! ## What holds in any case

Late records apart, a recorder keeps everything: `Inv` is `NothingLost` with the records that
panicked as one more fate, and holds after any steps at all. -/

/-- The invariant of the machine. -/
structure Inv (a : Async α) : Prop where
  order : a.enqueued = a.handed ++ a.worker.inHand ++ a.buf.items
  fate : a.recorded.Perm (a.enqueued ++ a.lost ++ a.dropping ++ a.panicked)
  counted : a.dropped = Int64.ofNat (a.lost.length + a.failed.length)
  failed : (a.failed ++ a.worker.uncounted).Sublist a.handed
  /-- The worker leaves a channel that is closed and empty, and so it stays. -/
  exited : a.worker = .exited → a.buf.closed = true ∧ a.buf.items = []
  returned : 0 < a.returned → a.worker = .exited

theorem inv_newAsync (bufferSize : Int) : Inv (newAsync bufferSize : Async α) where
  order := rfl
  fate := List.Perm.refl _
  counted := rfl
  failed := List.Sublist.refl _
  exited h := by cases h
  returned h := absurd h (Nat.lt_irrefl _)

theorem Inv.start {a : Async α} (h : Inv a) : Inv a.start := by
  unfold Async.start
  split
  · rename_i hw
    exact {
      order := by have := h.order; rw [hw] at this; exact this
      fate := h.fate
      counted := h.counted
      failed := by have := h.failed; rw [hw] at this; exact this
      exited := fun hx ↦ by cases hx
      returned := fun hr ↦ by cases hw.symm.trans (h.returned hr) }
  · exact h

/-- A record more on both sides. -/
theorem perm_concat {l x y : List α} (h : l.Perm (x ++ y)) (r : α) :
    (l ++ [r]).Perm (x ++ [r] ++ y) := by
  rw [List.append_assoc]
  calc (l ++ [r]).Perm (r :: l) := List.perm_append_singleton r l
    _ |>.Perm (r :: (x ++ y)) := h.cons r
    _ |>.Perm (x ++ r :: y) := List.perm_middle.symm

theorem Inv.record {a : Async α} (h : Inv a) (r : α) : Inv (a.record r) := by
  rcases record_cases a r with ⟨buf, hopen, hitems, -, heq⟩ | ⟨-, heq⟩ | ⟨-, heq⟩
  · have hfate : a.recorded.Perm (a.enqueued ++ (a.lost ++ a.dropping ++ a.panicked)) := by
      simpa only [List.append_assoc] using h.fate
    rw [heq]
    exact {
      order := by
        show a.enqueued ++ [r] = a.handed ++ a.worker.inHand ++ buf.items
        rw [h.order, hitems, List.append_assoc _ a.buf.items]
      fate := by simpa only [List.append_assoc] using perm_concat hfate r
      counted := h.counted
      failed := h.failed
      -- the channel is open, so the worker has not left yet
      exited := fun hx ↦ absurd (h.exited hx).1 (by rw [hopen]; exact Bool.false_ne_true)
      returned := h.returned }
  · rw [heq]
    exact { h with fate := by simpa only [List.append_assoc] using perm_concat h.fate r }
  · rw [heq]
    exact { h with fate := by simpa only [List.append_assoc] using h.fate.append_right [r] }

/-- One `dropped.Add(1)`. -/
theorem counted_succ {d : Int64} {n : Nat} (h : d = Int64.ofNat n) :
    d + 1 = Int64.ofNat (n + 1) := by
  rw [h, Int64.ofNat_add]
  rfl

theorem Inv.countDropped {a : Async α} (h : Inv a) (i : Nat) : Inv (a.countDropped i) := by
  unfold Async.countDropped
  split
  · rename_i r hr
    obtain ⟨hi, rfl⟩ := List.getElem?_eq_some_iff.mp hr
    have hdropping : a.dropping.Perm ([a.dropping[i]] ++ a.dropping.eraseIdx i) :=
      (List.getElem_cons_eraseIdx_perm hi).symm
    exact { h with
      fate := by
        refine h.fate.trans ?_
        rw [← List.append_assoc a.enqueued, List.append_assoc _ [a.dropping[i]]]
        exact (hdropping.append_left _).append_right _
      counted := by
        rw [List.length_append, List.length_singleton, Nat.add_right_comm]
        exact counted_succ h.counted }
  · exact h

theorem Inv.close {a : Async α} (h : Inv a) : Inv a.close :=
  { h with exited := fun hx ↦ ⟨rfl, (h.exited hx).2⟩ }

theorem Inv.closeReturns {a : Async α} (h : Inv a) : Inv a.closeReturns := by
  unfold Async.closeReturns
  split
  · rename_i hw _
    exact { h with returned := fun _ ↦ hw }
  · exact h

theorem Inv.run {a : Async α} (h : Inv a) (sinkFails : Bool) : Inv (a.run sinkFails) := by
  have horder := h.order
  have hfailed := h.failed
  have hreturned := h.returned
  rcases run_cases a sinkFails with ⟨r, buf, hw, hitems, -, heq⟩ | ⟨r, hw, heq⟩ | ⟨r, hw, heq⟩ |
    ⟨hw, hitems, hclosed, heq⟩ | ⟨-, heq⟩
  · rw [hw] at horder hfailed hreturned
    rw [heq]
    exact { h with
      order := by
        show a.enqueued = a.handed ++ [r] ++ buf.items
        rw [horder, hitems, Worker.inHand_idle, List.append_nil, List.append_cons]
      failed := hfailed
      exited := fun hx ↦ by cases hx
      returned := fun hr ↦ by cases hreturned hr }
  · rw [hw] at horder hfailed hreturned
    rw [Worker.inHand_handling] at horder
    rw [Worker.uncounted_handling, List.append_nil] at hfailed
    rw [heq]
    -- whether the sink fails or not, `r` is handed over and the worker's hand is empty
    have hhand : (if sinkFails then .failing r else .idle : Worker α).inHand = [] := by
      cases sinkFails <;> rfl
    exact { h with
      order := by
        show a.enqueued = a.handed ++ [r] ++ Worker.inHand _ ++ a.buf.items
        rw [hhand, List.append_nil, horder]
      failed := by
        cases sinkFails with
        | true => exact hfailed.append (List.Sublist.refl [r])
        | false =>
          show (a.failed ++ []).Sublist (a.handed ++ [r])
          rw [List.append_nil]
          exact hfailed.trans (List.sublist_append_left _ _)
      exited := fun hx ↦ by cases sinkFails <;> cases hx
      returned := fun hr ↦ by cases hreturned hr }
  · rw [hw] at horder hfailed hreturned
    rw [heq]
    exact { h with
      order := horder
      failed := by
        show (a.failed ++ [r] ++ []).Sublist a.handed
        rw [List.append_nil]
        exact hfailed
      counted := by
        rw [List.length_append, List.length_singleton, ← Nat.add_assoc]
        exact counted_succ h.counted
      exited := fun hx ↦ by cases hx
      returned := fun hr ↦ by cases hreturned hr }
  · rw [hw] at horder hfailed
    rw [heq]
    exact { h with
      order := horder
      failed := hfailed
      exited := fun _ ↦ ⟨hclosed, hitems⟩
      returned := fun _ ↦ rfl }
  · rw [heq]
    exact h

/-- Every step keeps the invariant. -/
theorem Inv.step {a : Async α} (h : Inv a) (o : Op α) : Inv (step a o) := by
  cases o with
  | start => exact h.start
  | record r => exact h.record r
  | countDropped i => exact h.countDropped i
  | close => exact h.close
  | closeReturns => exact h.closeReturns
  | run sinkFails => exact h.run sinkFails

/-! ## The worker gets there

`owed N` is how many steps the worker may still need until it has handed over `N` records.  The
steps of the others do not touch it, and every step of the worker brings it down while there is
something among the first `N` to hand over. -/

/-- What the worker's place in the loop adds to the three steps that a record takes. -/
def Worker.pace : Worker α → Nat
  | .handling _ => 0
  | .failing _ => 2
  | _ => 1

theorem Worker.pace_le (w : Worker α) : w.pace ≤ 2 := by
  cases w with
  | handling r => exact Nat.zero_le 2
  | failing r => exact Nat.le_refl 2
  | _ => exact Nat.le_succ 1

/-- How far the worker is from having handed over `N` records. -/
def owed (N : Nat) (a : Async α) : Nat := 3 * (N - a.handed.length) + a.worker.pace

/-- The parties other than the worker leave the worker and what it handed over alone. -/
theorem step_worker {a : Async α} (hw : a.worker ≠ .notStarted) {o : Op α} (ho : o.isRun = false) :
    (step a o).worker = a.worker ∧ (step a o).handed = a.handed := by
  cases o with
  | start =>
    show a.start.worker = _ ∧ a.start.handed = _
    unfold Async.start
    split
    · exact absurd ‹_› hw
    · exact ⟨rfl, rfl⟩
  | record r =>
    show (a.record r).worker = _ ∧ (a.record r).handed = _
    simp only [Async.record]
    split <;> exact ⟨rfl, rfl⟩
  | countDropped i =>
    show (a.countDropped i).worker = _ ∧ (a.countDropped i).handed = _
    unfold Async.countDropped
    split <;> exact ⟨rfl, rfl⟩
  | close => exact ⟨rfl, rfl⟩
  | closeReturns =>
    show a.closeReturns.worker = _ ∧ a.closeReturns.handed = _
    unfold Async.closeReturns
    split <;> exact ⟨rfl, rfl⟩
  | run sinkFails => exact absurd ho Bool.noConfusion

/-- With nothing in hand and nothing queued, everything enqueued was handed over. -/
theorem Inv.handed_eq {a : Async α} (h : Inv a) (hhand : a.worker.inHand = [])
    (hitems : a.buf.items = []) : a.handed = a.enqueued := by
  rw [h.order, hhand, hitems, List.append_nil, List.append_nil]

/-- **A step of the worker.**  It stays started, what it handed over grows, and it comes closer to
`N` records as long as they are not all handed over. -/
theorem run_owed {a : Async α} (h : Inv a) (hw : a.worker ≠ .notStarted) (sinkFails : Bool) :
    (a.run sinkFails).worker ≠ .notStarted ∧ a.handed <+: (a.run sinkFails).handed ∧
      ∀ N ≤ a.enqueued.length, a.handed.length < N → owed N (a.run sinkFails) < owed N a := by
  -- a worker that finds nothing has nothing left to come closer to
  have hnone : a.worker.inHand = [] → a.buf.items = [] → ∀ N ≤ a.enqueued.length,
      ¬ a.handed.length < N := by
    intro hhand hitems N hN
    rw [h.handed_eq hhand hitems]
    exact Nat.not_lt.mpr hN
  rcases run_cases a sinkFails with ⟨r, buf, hidle, -, -, heq⟩ | ⟨r, hhandling, heq⟩ |
    ⟨r, hfailing, heq⟩ | ⟨hidle, hitems, -, heq⟩ | ⟨hstuck, heq⟩
  · rw [heq]
    refine ⟨nofun, List.prefix_rfl, fun N _ _ ↦ ?_⟩
    simp only [owed, hidle, Worker.pace]
    omega
  · rw [heq]
    refine ⟨by cases sinkFails <;> exact nofun, List.prefix_append _ _, fun N _ hlt ↦ ?_⟩
    have hpace := Worker.pace_le (if sinkFails then .failing r else .idle : Worker α)
    have hnow : a.worker.pace = 0 := by rw [hhandling, Worker.pace]
    simp only [owed, hnow, List.length_append, List.length_singleton]
    omega
  · rw [heq]
    refine ⟨nofun, List.prefix_rfl, fun N _ _ ↦ ?_⟩
    simp only [owed, hfailing, Worker.pace]
    omega
  · rw [heq]
    refine ⟨nofun, List.prefix_rfl, fun N hN hlt ↦ ?_⟩
    exact absurd hlt (hnone (by rw [hidle, Worker.inHand_idle]) hitems N hN)
  · rw [heq]
    refine ⟨hw, List.prefix_rfl, fun N hN hlt ↦ ?_⟩
    rcases hstuck with hnot | ⟨hidle, hitems⟩ | hexited
    · exact absurd hnot hw
    · exact absurd hlt (hnone (by rw [hidle, Worker.inHand_idle]) hitems N hN)
    · exact absurd hlt (hnone (by rw [hexited]; rfl) (h.exited hexited).2 N hN)

/-- A send leaves the channel open or closed as it was.  It panics on a closed one, and only
there. -/
theorem record_frame (a : Async α) (r : α) :
    a.enqueued <+: (a.record r).enqueued ∧ (a.record r).buf.closed = a.buf.closed ∧
      (a.record r).panicked = if a.buf.closed then a.panicked ++ [r] else a.panicked := by
  rcases record_cases a r with ⟨buf, hopen, -, hopen', heq⟩ | ⟨hopen, heq⟩ | ⟨hclosed, heq⟩
  · rw [heq]
    exact ⟨List.prefix_append _ _, hopen'.trans hopen.symm, by rw [hopen]; rfl⟩
  · rw [heq]
    exact ⟨List.prefix_rfl, rfl, by rw [hopen]; rfl⟩
  · rw [heq]
    exact ⟨List.prefix_rfl, rfl, by rw [hclosed]; rfl⟩

/-- No step but a `Record`'s sends, and none but a `Close`'s closes. -/
theorem step_frame (a : Async α) {o : Op α} (ho : ¬ o.IsRecord) :
    (step a o).enqueued = a.enqueued ∧ (step a o).panicked = a.panicked ∧
      ((step a o).buf.closed = true ↔ a.buf.closed = true ∨ o.IsClose) := by
  cases o with
  | start =>
    simp only [step, Async.start, Op.IsClose, or_false]
    split <;> exact ⟨rfl, rfl, Iff.rfl⟩
  | record r => exact absurd trivial ho
  | countDropped i =>
    simp only [step, Async.countDropped, Op.IsClose, or_false]
    split <;> exact ⟨rfl, rfl, Iff.rfl⟩
  | close => exact ⟨rfl, rfl, iff_of_true rfl (.inr trivial)⟩
  | closeReturns =>
    simp only [step, Async.closeReturns, Op.IsClose, or_false]
    split <;> exact ⟨rfl, rfl, Iff.rfl⟩
  | run sinkFails =>
    simp only [step, Op.IsClose, or_false]
    rcases run_cases a sinkFails with ⟨r, buf, -, -, hclosed, heq⟩ | ⟨r, -, heq⟩ | ⟨r, -, heq⟩ |
      ⟨-, -, -, heq⟩ | ⟨-, heq⟩
    · rw [heq]
      exact ⟨rfl, rfl, by rw [hclosed]⟩
    all_goals
      rw [heq]
      exact ⟨rfl, rfl, Iff.rfl⟩

/-- What the channel took stays in the record of it. -/
theorem step_enqueued (a : Async α) (o : Op α) : a.enqueued <+: (step a o).enqueued := by
  by_cases ho : o.IsRecord
  · cases o with
    | record r => exact (record_frame a r).1
    | _ => exact ho.elim
  · exact (step_frame a ho).1 ▸ List.prefix_rfl

/-- **A step of any party** brings the worker no further from `N` records, and one of its own brings
it closer. -/
theorem step_owed {a : Async α} (h : Inv a) (hw : a.worker ≠ .notStarted) (o : Op α) :
    (step a o).worker ≠ .notStarted ∧ a.handed <+: (step a o).handed ∧
      ∀ N ≤ a.enqueued.length, a.handed.length < N →
        owed N (step a o) + (if o.isRun then 1 else 0) ≤ owed N a := by
  cases ho : o.isRun with
  | false =>
    obtain ⟨hworker, hhanded⟩ := step_worker hw ho
    refine ⟨hworker ▸ hw, hhanded ▸ List.prefix_rfl, fun N _ _ ↦ ?_⟩
    rw [owed, hworker, hhanded]
    exact Nat.le_refl _
  | true =>
    cases o with
    | run sinkFails => exact run_owed h hw sinkFails
    | _ => exact absurd ho Bool.false_ne_true

/-- **A run of all the parties**, seen by the worker: it hands over the first `N` records, or each
of its steps brought it closer. -/
theorem run_delivers {a : Async α} (h : Inv a) (hw : a.worker ≠ .notStarted) {N : Nat}
    (hN : N ≤ a.enqueued.length) (rest : List (Op α)) :
    a.handed <+: (Run.run step a rest).handed ∧
      (N ≤ (Run.run step a rest).handed.length ∨
        owed N (Run.run step a rest) + rest.countP Op.isRun ≤ owed N a) := by
  induction rest generalizing a with
  | nil => exact ⟨List.prefix_rfl, .inr (Nat.le_refl _)⟩
  | cons o rest ih =>
    obtain ⟨hw', hgrows, hcloser⟩ := step_owed h hw o
    obtain ⟨hhanded, hrest⟩ := ih (h.step o) hw' (Nat.le_trans hN (step_enqueued a o).length_le)
    refine ⟨hgrows.trans hhanded, ?_⟩
    rw [Run.run_cons, List.countP_cons]
    by_cases hdone : N ≤ a.handed.length
    · exact .inl (Nat.le_trans hdone (hgrows.trans hhanded).length_le)
    · refine hrest.imp_right fun hrest ↦ ?_
      have := hcloser N hN (Nat.lt_of_not_le hdone)
      omega

theorem enqueued_delivered {a : Async α} (h : Inv a) (hw : a.worker ≠ .notStarted)
    (rest : List (Op α))
    (hrest : 3 * (a.worker.inHand ++ a.buf.items).length ≤ rest.countP Op.isRun) :
    a.enqueued <+: (Run.run step a rest).handed := by
  have hend : Inv (Run.run step a rest) := Run.invariant (fun _ o h ↦ h.step o) rest h
  have hwaiting :
      a.enqueued.length = a.handed.length + (a.worker.inHand ++ a.buf.items).length := by
    rw [h.order, List.append_assoc, List.length_append]
  have hpace := a.worker.pace_le
  have hhanded : a.enqueued.length ≤ (Run.run step a rest).handed.length := by
    rcases (run_delivers h hw (Nat.le_refl _) rest).2 with hdone | hcloser
    · exact hdone
    · simp only [owed] at hcloser
      omega
  have henqueued : a.enqueued <+: (Run.run step a rest).enqueued :=
    Run.invariant (I := fun s ↦ a.enqueued <+: s.enqueued)
      (fun s o hs ↦ hs.trans (step_enqueued s o)) rest List.prefix_rfl
  refine List.prefix_of_prefix_length_le henqueued ?_ hhanded
  rw [hend.order, List.append_assoc]
  exact List.prefix_append _ _

/-! ## Records after a close -/

/-- **The one way to lose a record.** -/
theorem nothingLost_iff {a : Async α} (h : Inv a) : NothingLost a ↔ a.panicked = [] := by
  refine ⟨fun hlost ↦ hlost.noPanic, fun hpanic ↦ ?_⟩
  exact {
    order := h.order
    fate := by
      have := h.fate
      rwa [hpanic, List.append_nil] at this
    counted := h.counted
    failed := h.failed
    delivered := enqueued_delivered h
    closed := fun hr ↦ by
      have hexited := h.returned hr
      exact h.handed_eq (by rw [hexited]; rfl) (h.exited hexited).2
    noPanic := hpanic }

/-- A step reaches a send on the closed channel exactly if it is a `Record` and the channel is
closed. -/
theorem step_panicked {a : Async α} (hpanic : a.panicked = []) (o : Op α) :
    (step a o).panicked = [] ↔ (a.buf.closed = true → ¬ o.IsRecord) := by
  by_cases ho : o.IsRecord
  · cases o with
    | record r =>
      rw [step, (record_frame a r).2.2, hpanic]
      cases a.buf.closed with
      | true => exact ⟨nofun, fun h ↦ absurd trivial (h rfl)⟩
      | false => exact ⟨nofun, fun _ ↦ rfl⟩
    | _ => exact ho.elim
  · rw [(step_frame a ho).2.1, hpanic]
    exact ⟨fun _ _ ↦ ho, fun _ ↦ rfl⟩

theorem step_closed (a : Async α) (o : Op α) :
    (step a o).buf.closed = true ↔ a.buf.closed = true ∨ o.IsClose := by
  by_cases ho : o.IsRecord
  · cases o with
    | record r =>
      rw [step, (record_frame a r).2.1]
      exact ⟨.inl, fun h ↦ h.resolve_right id⟩
    | _ => exact ho.elim
  · exact (step_frame a ho).2.2

/-- No `Record` comes after a `Close`. -/
def RecordsFirst (ops : List (Op α)) : Prop :=
  ops.Pairwise fun o o' ↦ o.IsClose → ¬ o'.IsRecord

theorem recordsFirst_cons {o : Op α} {ops : List (Op α)} :
    RecordsFirst (o :: ops) ↔ (∀ o' ∈ ops, o.IsClose → ¬ o'.IsRecord) ∧ RecordsFirst ops :=
  List.pairwise_cons

/-- No step of a run meets the closed channel exactly if no `Record` comes after a `Close`, nor at
all where the channel is closed to begin with. -/
theorem along_recordsFirst {a : Async α} {ops : List (Op α)} :
    Run.Along step (fun a o ↦ a.buf.closed = true → ¬ o.IsRecord) a ops ↔
      RecordsFirst ops ∧ (a.buf.closed = true → ∀ o ∈ ops, ¬ o.IsRecord) := by
  induction ops generalizing a with
  | nil => exact ⟨fun _ ↦ ⟨.nil, fun _ _ ho ↦ absurd ho List.not_mem_nil⟩, fun _ ↦ trivial⟩
  | cons o ops ih =>
    rw [Run.Along, ih, step_closed, recordsFirst_cons, List.forall_mem_cons]
    constructor
    · rintro ⟨ho, hfirst, hrest⟩
      exact ⟨⟨fun o' ho' hclose ↦ hrest (.inr hclose) o' ho', hfirst⟩,
        fun hclosed ↦ ⟨ho hclosed, hrest (.inl hclosed)⟩⟩
    · rintro ⟨⟨hafter, hfirst⟩, hclosed⟩
      refine ⟨fun h ↦ (hclosed h).1, hfirst, ?_⟩
      rintro (h | hclose)
      · exact (hclosed h).2
      · exact fun o' ho' ↦ hafter o' ho' hclose

/-- **Nothing is lost silently, in any interleaving, exactly if no `Record` comes after a `Close`.**
The recorder may be of any capacity, `Start` may come at any time or never, and the sink may fail
at any record. -/
theorem async_nothing_lost_iff (bufferSize : Int) (ops : List (Op α)) :
    (∀ a ∈ Run.visited step (newAsync bufferSize) ops, NothingLost a) ↔ RecordsFirst ops := by
  have hinv : ∀ a ∈ Run.visited step (newAsync bufferSize : Async α) ops, Inv a :=
    Run.invariant_visited (fun _ o _ h ↦ h.step o) (Run.along_true _ _) (inv_newAsync bufferSize)
  have hpanic : (∀ a ∈ Run.visited step (newAsync bufferSize : Async α) ops, a.panicked = []) ↔
      Run.Along step (fun a o ↦ a.buf.closed = true → ¬ o.IsRecord) (newAsync bufferSize) ops :=
    Run.visited_iff_along (J := fun _ ↦ True) (fun _ _ h ↦ h)
      (fun a o _ hpanic ↦ step_panicked hpanic o) trivial rfl
  calc (∀ a ∈ Run.visited step (newAsync bufferSize) ops, NothingLost a)
    _ ↔ ∀ a ∈ Run.visited step (newAsync bufferSize : Async α) ops, a.panicked = [] :=
        forall₂_congr fun a ha ↦ nothingLost_iff (hinv a ha)
    _ ↔ _ := hpanic.trans along_recordsFirst
    _ ↔ RecordsFirst ops := and_iff_left fun hclosed ↦ absurd hclosed Bool.false_ne_true

/-- A gateway that shuts down while a request is still in flight: the recorder is closed, and the
request then records its usage.  That record is neither handed over nor counted: its send panics. -/
theorem record_after_close :
    ∃ a ∈ Run.visited step (newAsync 16) [.start, .record "first", .close, .run false, .run false,
        .run false, .closeReturns, .record "late"],
      a.recorded = ["first", "late"] ∧ a.handed = ["first"] ∧ a.buf.items = [] ∧ a.dropped = 0 ∧
        a.dropping = [] ∧ a.panicked = ["late"] ∧ ¬ NothingLost a := by
  refine ⟨_, Run.run_mem_visited _ _, rfl, rfl, rfl, rfl, rfl, rfl, fun h ↦ ?_⟩
  exact List.cons_ne_nil _ _ h.noPanic

end Observability
end Voxeltoad
