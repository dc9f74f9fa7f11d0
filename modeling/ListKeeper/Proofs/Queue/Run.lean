import ListKeeper.Queue.Basic

/-!
This module contains the runs of a queue: the steps of callers, drivers and operations in any order,
with a trace of what has happened. A signal reaches the drivers some time after the step that sent
it, and the attempts of different operations may overlap.
-/

namespace ListKeeper

inductive Happening (ω α : Type) where
  | enqueued (op : Operation ω)
  | started (op : Operation ω)
  | invoked (op : Operation ω)
  | attempted (op : Operation ω) (attempt : Attempt α)
  | ended (r : Running ω) (ending : Ending α)
  | cancelled (op : Operation ω)
  | pruned

/--
What has happened in a queue, seen operation by operation. The entries of each list are in the order
in which they came about.
-/
structure Books (ω α : Type) where
  enqueued : List (Operation ω)
  started : List (Operation ω)
  invoked : List (Operation ω)
  attempted : List (Operation ω × Attempt α)
  ended : List (Running ω × Ending α)
  cancelled : List (Operation ω)

namespace Books

def empty : Books ω α := ⟨[], [], [], [], [], []⟩

def note (b : Books ω α) : Happening ω α → Books ω α
  | .enqueued op => { b with enqueued := b.enqueued ++ [op] }
  | .started op => { b with started := b.started ++ [op] }
  | .invoked op => { b with invoked := b.invoked ++ [op] }
  | .attempted op attempt => { b with attempted := b.attempted ++ [(op, attempt)] }
  | .ended r ending => { b with ended := b.ended ++ [(r, ending)] }
  | .cancelled op => { b with cancelled := b.cancelled ++ [op] }
  | .pruned => b

def terminal (b : Books ω α) : List (Operation ω) :=
  b.ended.map (·.1.operation) ++ b.cancelled

def resolutions (b : Books ω α) : List (Nat × Except Error α) :=
  b.ended.map (fun (r, ending) => (r.ticket, ending.result)) ++
    b.cancelled.map fun op => (op.ticket, .error op.cancellation)

theorem foldl_note_cancelled (b : Books ω α) (ops : List (Operation ω)) :
    (ops.map .cancelled).foldl note b = { b with cancelled := b.cancelled ++ ops } := by
  induction ops generalizing b with
  | nil => simp
  | cons op rest ih =>
    rw [List.map_cons, List.foldl_cons, ih]
    simp [note]

end Books

/--
A queue in use, with the tickets of the operations whose work is being done, the signals that have
not reached the drivers, and what has happened so far.
-/
structure Course (ω α : Type) where
  queue : Queue ω α
  working : List Nat
  signals : List Signal
  trace : List (Happening ω α)

namespace Course

variable (c : Course ω α)

def initial (config : QueueConfig) : Course ω α :=
  ⟨.create config, [], [], []⟩

def books : Books ω α :=
  c.trace.foldl Books.note .empty

theorem books_append {c c' : Course ω α} (news : List (Happening ω α))
    (h : c'.trace = c.trace ++ news) : c'.books = news.foldl Books.note c.books := by
  unfold books
  rw [h, List.foldl_append]

section Steps

def submit (s : Submission ω) (mark : String) (now : Timestamp) : Course ω α :=
  let op := c.queue.admitted s mark now
  { c with
    queue := (c.queue.accept op).2
    signals := c.signals ++ [(c.queue.accept op).1]
    trace := c.trace ++ [.enqueued op] }

def hear (signal : Signal) (others : List Signal) : Course ω α :=
  { c with queue := c.queue.receive signal, signals := others }

def drive (now : Timestamp) : Course ω α :=
  { c with
    queue := c.queue.drive now
    trace := c.trace ++ match c.queue.move with
      | .start op _ => [.started op]
      | _ => [] }

def invoke (r : Running ω) : Course ω α :=
  { c with
    queue := c.queue.beginAttempt r.ticket
    working := r.ticket :: c.working
    trace := c.trace ++ [.invoked r.operation] }

def finish (r : Running ω) (attempt : Attempt α) (now : Timestamp) : Course ω α :=
  match r.verdict attempt with
  | .again _ =>
    { c with
      working := c.working.erase r.ticket
      trace := c.trace ++ [.attempted r.operation attempt] }
  | .over _ ending =>
    { c with
      queue := c.queue.conclude r ending now
      working := c.working.erase r.ticket
      signals := c.signals ++ [.wake]
      trace := c.trace ++ [.attempted r.operation attempt, .ended r ending] }

def cancelAll (now : Timestamp) : Course ω α :=
  { c with
    queue := c.queue.drain now
    signals := c.signals ++ (if c.queue.pending.isEmpty then [] else [.wake])
    trace := c.trace ++ c.queue.pending.map .cancelled }

def prune : Course ω α :=
  { c with queue := c.queue.prune.2, trace := c.trace ++ [.pruned] }

end Steps

section Books

variable (s : Submission ω) (mark : String) (now : Timestamp) (r : Running ω)

theorem books_submit :
    (c.submit s mark now).books = c.books.note (.enqueued (c.queue.admitted s mark now)) :=
  books_append [.enqueued (c.queue.admitted s mark now)] rfl

theorem books_drive :
    (c.drive now).books = match c.queue.move with
      | .start op _ => c.books.note (.started op)
      | _ => c.books := by
  have htrace : (c.drive now).trace = c.trace ++ match c.queue.move with
      | .start op _ => [.started op]
      | _ => [] := rfl
  rw [books_append _ htrace]
  cases c.queue.move with
  | start op rest => rfl
  | wait => rfl
  | leave => rfl

theorem books_invoke : (c.invoke r).books = c.books.note (.invoked r.operation) :=
  books_append [.invoked r.operation] rfl

theorem books_finish (attempt : Attempt α) :
    (c.finish r attempt now).books = match r.verdict attempt with
    | .again _ => c.books.note (.attempted r.operation attempt)
    | .over _ ending => (c.books.note (.attempted r.operation attempt)).note (.ended r ending) := by
  unfold finish
  rcases r.verdict attempt with failure | ⟨notices, ending⟩
  · exact books_append [.attempted r.operation attempt] rfl
  · exact books_append [.attempted r.operation attempt, .ended r ending] rfl

theorem books_cancelAll :
    (c.cancelAll now).books =
      { c.books with cancelled := c.books.cancelled ++ c.queue.pending } := by
  rw [books_append (c.queue.pending.map .cancelled) rfl, Books.foldl_note_cancelled]

theorem books_prune : c.prune.books = c.books :=
  books_append [.pruned] rfl

end Books

/--
One step, which may be anybody's. A driver only looks when there is one that does not wait, and the
work of an operation is not called while it is being done.
-/
inductive Step : Course ω α → Course ω α → Prop
  | submit (c : Course ω α) (s : Submission ω) (mark : String) (now : Timestamp) :
    Step c (c.submit s mark now)
  | hear (c : Course ω α) (signal : Signal) (others : List Signal)
    (h : c.signals.Perm (signal :: others)) : Step c (c.hear signal others)
  | drive (c : Course ω α) (now : Timestamp) (h : 0 < c.queue.drivers.runnable) :
    Step c (c.drive now)
  | invoke (c : Course ω α) (r : Running ω) (hr : r ∈ c.queue.running)
    (h : r.ticket ∉ c.working) : Step c (c.invoke r)
  | finish (c : Course ω α) (r : Running ω) (attempt : Attempt α) (now : Timestamp)
    (hr : r ∈ c.queue.running) (h : r.ticket ∈ c.working) : Step c (c.finish r attempt now)
  | cancelAll (c : Course ω α) (now : Timestamp) : Step c (c.cancelAll now)
  | prune (c : Course ω α) : Step c c.prune

inductive Reachable (config : QueueConfig) : Course ω α → Prop
  | initial : Reachable config (initial config)
  | step {c c' : Course ω α} (h : Reachable config c) (hstep : Step c c') : Reachable config c'

theorem Reachable.hearLast {config : QueueConfig} {c : Course ω α} {signals : List Signal}
    {signal : Signal} (h : c.Reachable config) (hsignals : c.signals = signals ++ [signal]) :
    (c.hear signal signals).Reachable config := by
  apply h.step
  apply Step.hear
  rw [hsignals]
  exact List.perm_append_singleton signal signals

section Calls

variable {config : QueueConfig} {c} (h : c.Reachable config) (now : Timestamp)
include h

/-!
The calls of users are made of steps.
-/

theorem Reachable.enqueue (s : Submission ω) (mark : String) :
    ∃ c' : Course ω α, c'.Reachable config ∧ c'.queue = (c.queue.enqueue s mark now).2.2 :=
  ⟨_, (h.step (.submit c s mark now)).hearLast rfl, rfl⟩

theorem Reachable.cancelAll :
    ∃ c' : Course ω α, c'.Reachable config ∧ c'.queue = (c.queue.cancelAll now).2.2 := by
  by_cases hpending : 0 < c.queue.pending.length
  · have hsome : c.queue.pending.isEmpty = false := by
      simpa using List.ne_nil_of_length_pos hpending
    have hsent : (c.cancelAll now).signals = c.signals ++ [.wake] := by
      simp only [Course.cancelAll, hsome, Bool.false_eq_true, if_false]
    refine ⟨_, (h.step (.cancelAll c now)).hearLast hsent, ?_⟩
    simp only [Queue.cancelAll, hpending, if_true]
    rfl
  · refine ⟨c, h, ?_⟩
    simp only [Queue.cancelAll, hpending, if_false]

theorem Reachable.cleanup (cancelPending : Bool) :
    ∃ c' : Course ω α, c'.Reachable config ∧
      c'.queue = (c.queue.cleanup cancelPending now).2.2 := by
  cases cancelPending with
  | false => exact ⟨_, h.step (.prune c), rfl⟩
  | true =>
    obtain ⟨c', h', hqueue⟩ := h.cancelAll now
    refine ⟨_, h'.step (.prune c'), ?_⟩
    show c'.queue.prune.2 = (c.queue.cancelAll now).2.2.prune.2
    rw [hqueue]

end Calls

end Course
end ListKeeper
