import ListKeeper.Proofs.Queue.Slots

/-!
This module contains queues in use together with their logs and with all records that were ever
made, and what these tell about one operation. The history is what is left of the records.
-/

namespace ListKeeper

def Verdict.notices : Verdict α → List Notice
  | .again failure => [.retrying failure]
  | .over notices _ => notices

def Running.recorded (r : Running ω) (attempt : Attempt α) (now : Timestamp) : List Record :=
  match r.verdict attempt with
  | .again _ => []
  | .over _ ending => [r.record ending now]

/--
A queue in use, with all that was written to the log and recorded.
-/
structure Chronicle (ω α : Type) where
  course : Course ω α
  log : List (Option Nat × Notice)
  records : List (Nat × Record)
  forgotten : Nat

namespace Chronicle

variable (x : Chronicle ω α)

def initial (config : QueueConfig) : Chronicle ω α :=
  ⟨.initial config, [], [], 0⟩

def queue : Queue ω α := x.course.queue

def books : Books ω α := x.course.books

section Steps

variable (now : Timestamp)

def submit (s : Submission ω) (mark : String) : Chronicle ω α :=
  { x with
    course := x.course.submit s mark now
    log := x.log ++ (x.queue.enqueue s mark now).2.1.map (none, ·) }

def finish (r : Running ω) (attempt : Attempt α) : Chronicle ω α :=
  { x with
    course := x.course.finish r attempt now
    log := x.log ++ (r.verdict attempt).notices.map (some r.ticket, ·)
    records := x.records ++ (r.recorded attempt now).map (r.ticket, ·) }

def cancelAll : Chronicle ω α :=
  { x with
    course := x.course.cancelAll now
    log := x.log ++ (x.queue.cancelAll now).2.1.map (none, ·)
    records := x.records ++ x.queue.pending.map fun op => (op.ticket, op.cancelledRecord now) }

def prune : Chronicle ω α :=
  { x with course := x.course.prune, forgotten := x.records.length }

def silently (c : Course ω α) : Chronicle ω α :=
  { x with course := c }

end Steps

inductive Step : Chronicle ω α → Chronicle ω α → Prop
  | submit (x : Chronicle ω α) (s : Submission ω) (mark : String) (now : Timestamp) :
    Step x (x.submit now s mark)
  | hear (x : Chronicle ω α) (signal : Signal) (others : List Signal)
    (h : x.course.signals.Perm (signal :: others)) :
    Step x (x.silently (x.course.hear signal others))
  | drive (x : Chronicle ω α) (now : Timestamp) (h : 0 < x.queue.drivers.runnable) :
    Step x (x.silently (x.course.drive now))
  | invoke (x : Chronicle ω α) (r : Running ω) (hr : r ∈ x.queue.running)
    (h : r.ticket ∉ x.course.working) : Step x (x.silently (x.course.invoke r))
  | finish (x : Chronicle ω α) (r : Running ω) (attempt : Attempt α) (now : Timestamp)
    (hr : r ∈ x.queue.running) (h : r.ticket ∈ x.course.working) :
    Step x (x.finish now r attempt)
  | cancelAll (x : Chronicle ω α) (now : Timestamp) : Step x (x.cancelAll now)
  | prune (x : Chronicle ω α) : Step x x.prune

inductive Reachable (config : QueueConfig) : Chronicle ω α → Prop
  | initial : Reachable config (initial config)
  | step {x x' : Chronicle ω α} (h : Reachable config x) (hstep : Step x x') : Reachable config x'

theorem Step.course {x x' : Chronicle ω α} (h : x.Step x') : x.course.Step x'.course := by
  cases h with
  | submit s mark now => exact .submit _ s mark now
  | hear signal others h => exact .hear _ signal others h
  | drive now h => exact .drive _ now h
  | invoke r hr h => exact .invoke _ r hr h
  | finish r attempt now hr h => exact .finish _ r attempt now hr h
  | cancelAll now => exact .cancelAll _ now
  | prune => exact .prune _

theorem Reachable.course {config : QueueConfig} {x : Chronicle ω α} (h : x.Reachable config) :
    x.course.Reachable config := by
  induction h with
  | initial => exact .initial
  | step _ hstep ih => exact ih.step hstep.course

end Chronicle

structure Dossier (α : Type) where
  working : Bool
  invocations : Nat
  outcomes : List (Attempt α)
  told : List Notice
  records : List Record

namespace Dossier

variable (d : Dossier α)

def empty : Dossier α := ⟨false, 0, [], [], []⟩

def invoke : Dossier α :=
  { d with working := true, invocations := d.invocations + 1 }

def finish (now : Timestamp) (r : Running ω) (attempt : Attempt α) : Dossier α :=
  { d with
    working := false
    outcomes := d.outcomes ++ [attempt]
    told := d.told ++ (r.verdict attempt).notices
    records := d.records ++ r.recorded attempt now }

def Follows (plan : Nat → Attempt α) : Prop :=
  d.outcomes = (List.range' 1 d.outcomes.length).map plan

def entries (level : Level) : Nat :=
  d.told.countP (·.entry.level = level)

end Dossier

namespace Chronicle

variable (x : Chronicle ω α) (ticket : Nat)

def dossier : Dossier α where
  working := ticket ∈ x.course.working
  invocations := x.books.invoked.countP (·.ticket == ticket)
  outcomes := (x.books.attempted.filter (·.1.ticket == ticket)).map (·.2)
  told := (x.log.filter (·.1 == some ticket)).map (·.2)
  records := (x.records.filter (·.1 == ticket)).map (·.2)

section Dossiers

/-!
Each step concerns the dossier of one operation at most.
-/

theorem filter_map_none (notices : List Notice) :
    (notices.map ((none : Option Nat), ·)).filter (·.1 == some ticket) = [] := by
  rw [List.filter_eq_nil_iff]
  intro entry hentry
  obtain ⟨notice, _, rfl⟩ := List.mem_map.1 hentry
  simp

theorem filter_map_tagged [BEq κ] (tag tag' : κ) (as : List β) :
    ((as.map (tag, ·)).filter (·.1 == tag')).map (·.2) = if tag == tag' then as else [] := by
  rw [List.filter_map, List.map_map]
  cases h : tag == tag' with
  | true => simp [h, Function.comp_def]
  | false => simp [h, Function.comp_def]

theorem dossier_submit (now : Timestamp) (s : Submission ω) (mark : String) :
    (x.submit now s mark).dossier ticket = x.dossier ticket := by
  have hbooks : (x.submit now s mark).books = _ := x.course.books_submit s mark now
  unfold dossier
  rw [hbooks]
  simp only [submit, List.filter_append, filter_map_none, List.append_nil]
  rfl

theorem dossier_drive (now : Timestamp) :
    (x.silently (x.course.drive now)).dossier ticket = x.dossier ticket := by
  have hbooks : (x.silently (x.course.drive now)).books = _ := x.course.books_drive now
  unfold dossier
  rw [hbooks]
  cases x.course.queue.move with
  | start op rest => rfl
  | wait => rfl
  | leave => rfl

theorem dossier_invoke (r : Running ω) :
    (x.silently (x.course.invoke r)).dossier ticket =
      if r.ticket = ticket then (x.dossier ticket).invoke else x.dossier ticket := by
  have hbooks : (x.silently (x.course.invoke r)).books = _ := x.course.books_invoke r
  unfold dossier
  rw [hbooks]
  have hworking : (x.silently (x.course.invoke r)).course.working = r.ticket :: x.course.working :=
    rfl
  rw [hworking]
  split
  · next h =>
    have hticket : r.operation.ticket = ticket := h
    simp [Books.note, Dossier.invoke, silently, books, h, hticket]
  · next h =>
    have hticket : ¬ r.operation.ticket = ticket := h
    simp [Books.note, silently, books, Ne.symm h, hticket]

theorem finish_parts (now : Timestamp) (r : Running ω) (attempt : Attempt α) :
    (x.finish now r attempt).course.working = x.course.working.erase r.ticket ∧
      (x.finish now r attempt).books.invoked = x.books.invoked ∧
      (x.finish now r attempt).books.attempted =
        x.books.attempted ++ [(r.operation, attempt)] := by
  have hbooks : (x.finish now r attempt).books = _ := x.course.books_finish now r attempt
  have hcourse : (x.finish now r attempt).course = x.course.finish r attempt now := rfl
  rw [hbooks, hcourse]
  unfold Course.finish
  cases r.verdict attempt
  · exact ⟨rfl, rfl, rfl⟩
  · exact ⟨rfl, rfl, rfl⟩

theorem dossier_finish (hworking : x.course.working.Nodup) (now : Timestamp) (r : Running ω)
    (attempt : Attempt α) :
    (x.finish now r attempt).dossier ticket =
      if r.ticket = ticket then (x.dossier ticket).finish now r attempt
      else x.dossier ticket := by
  obtain ⟨herased, hinvoked, hattempted⟩ := x.finish_parts now r attempt
  unfold dossier
  rw [herased, hinvoked, hattempted]
  simp only [finish, List.filter_append, List.map_append, filter_map_tagged]
  by_cases h : r.ticket = ticket
  · have hticket : r.operation.ticket = ticket := h
    have hgone : decide (ticket ∈ x.course.working.erase r.ticket) = false :=
      decide_eq_false (h ▸ hworking.not_mem_erase)
    rw [hgone]
    simp [Dossier.finish, h, hticket]
  · have hticket : ¬ r.operation.ticket = ticket := h
    simp [h, hticket, List.mem_erase_of_ne (Ne.symm h)]

theorem dossier_cancelAll (now : Timestamp)
    (hticket : ticket ∉ x.queue.pending.map (·.ticket)) :
    (x.cancelAll now).dossier ticket = x.dossier ticket := by
  have hbooks : (x.cancelAll now).books = _ := x.course.books_cancelAll now
  have hnone : (x.queue.pending.map fun op => (op.ticket, op.cancelledRecord now)).filter
      (·.1 == ticket) = [] := by
    rw [List.filter_eq_nil_iff]
    intro record hrecord
    obtain ⟨op, hop, rfl⟩ := List.mem_map.1 hrecord
    simp only [beq_iff_eq]
    rintro rfl
    exact hticket (List.mem_map_of_mem hop)
  unfold dossier
  rw [hbooks]
  simp only [cancelAll, List.filter_append, filter_map_none, hnone, List.append_nil]
  rfl

theorem dossier_prune : x.prune.dossier ticket = x.dossier ticket := by
  have hbooks : x.prune.books = _ := x.course.books_prune
  unfold dossier
  rw [hbooks]
  rfl

end Dossiers

theorem history_step {x x' : Chronicle ω α} (hstep : x.Step x')
    (hforgotten : x.forgotten ≤ x.records.length)
    (h : x.queue.history = Queue.keepLast x.queue.config.maxHistory.toNat
      ((x.records.drop x.forgotten).map (·.2))) :
    x'.forgotten ≤ x'.records.length ∧
      x'.queue.history = Queue.keepLast x'.queue.config.maxHistory.toNat
        ((x'.records.drop x'.forgotten).map (·.2)) := by
  have hconfig : x'.queue.config = x.queue.config := Course.config_step hstep.course
  rw [hconfig]
  have hnew (news : List (Nat × Record)) : ((x.records ++ news).drop x.forgotten).map (·.2) =
      (x.records.drop x.forgotten).map (·.2) ++ news.map (·.2) := by
    rw [List.drop_append_of_le_length hforgotten, List.map_append]
  cases hstep with
  | submit s mark now => exact ⟨hforgotten, h⟩
  | hear signal others _ => exact ⟨hforgotten, h⟩
  | drive now _ =>
    refine ⟨hforgotten, ?_⟩
    show (x.queue.drive now).history = _
    rcases x.queue.drive_cases now with ⟨_, _, _, _, hdrive⟩ | ⟨_, hdrive⟩ | ⟨_, _, _, hdrive⟩
    · rw [hdrive]
      exact h
    · rw [hdrive]
      exact h
    · rw [hdrive]
      exact h
  | invoke r _ _ => exact ⟨hforgotten, h⟩
  | finish r attempt now _ _ =>
    refine ⟨Nat.le_trans hforgotten (by simp [Chronicle.finish]), ?_⟩
    show (x.course.finish r attempt now).queue.history = _
    simp only [Chronicle.finish]
    rw [hnew]
    unfold Course.finish Running.recorded
    rcases r.verdict attempt with failure | ⟨notices, ending⟩
    · simp only [List.map_nil, List.append_nil]
      exact h
    · rw [← Queue.keepLast_append, ← h]
      rfl
  | cancelAll now =>
    refine ⟨Nat.le_trans hforgotten (by simp [Chronicle.cancelAll]), ?_⟩
    show (x.queue.drain now).history = _
    simp only [Chronicle.cancelAll]
    rw [hnew, x.queue.history_drain now h, List.map_map]
    rfl
  | prune =>
    refine ⟨Nat.le_refl _, ?_⟩
    show [] = _
    simp [Chronicle.prune, Queue.keepLast]

theorem Reachable.history {config : QueueConfig} {x : Chronicle ω α} (h : x.Reachable config) :
    x.forgotten ≤ x.records.length ∧
      x.queue.history = Queue.keepLast x.queue.config.maxHistory.toNat
        ((x.records.drop x.forgotten).map (·.2)) := by
  induction h with
  | initial => exact ⟨Nat.le_refl 0, List.drop_nil.symm⟩
  | step _ hstep ih => exact history_step hstep ih.1 ih.2

end Chronicle
end ListKeeper
