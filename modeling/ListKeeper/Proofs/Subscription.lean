import ListKeeper.Board
import Mathlib.Logic.Relation

/-!
This module contains what the observers of a board get to see while it is published, reset and
closed, and while others observe it. To wait for a change takes two steps, the notice that there is
one and the reading of the snapshot, and anything may happen between them.
-/

namespace ListKeeper

inductive Reading where
  | started (version : Nat)
  | latest (snapshot : Snapshot)
  | awaited (answer : Awaited)
deriving DecidableEq, Repr

namespace Reading

def version? : Reading → Option Nat
  | .started version => some version
  | .latest snapshot => some snapshot.version
  | .awaited (.changed snapshot) => some snapshot.version
  | .awaited .pending => none
  | .awaited .closed => none

def Before (r r' : Reading) : Prop :=
  ∀ v ∈ r.version?, ∀ v' ∈ r'.version?,
    v ≤ v' ∧ ((∃ snapshot, r' = .awaited (.changed snapshot)) → v < v')

end Reading

structure Observer where
  subscription : Subscription
  fetching : Bool
  log : List Reading
deriving DecidableEq, Repr

namespace Observer

def start (b : Board) : Observer :=
  ⟨.start b, false, [.started b.snapshot.version]⟩

variable (o : Observer) (b : Board)

def versions : List Nat :=
  o.log.filterMap Reading.version?

def hear (reading : Reading) (s : Subscription) : Observer :=
  ⟨s, false, o.log ++ [reading]⟩

def latest : Observer :=
  let (snapshot, s) := o.subscription.latest b
  o.hear (.latest snapshot) s

def await : Observer :=
  match o.subscription.poll b with
  | (.changed _, s) => { o with subscription := s, fetching := true }
  | (answer, s) => o.hear (.awaited answer) s

def fetch : Observer :=
  let (snapshot, s) := o.subscription.latest b
  o.hear (.awaited (.changed snapshot)) s

def changed : Observer :=
  if (o.await b).fetching then (o.await b).fetch b else o.await b

inductive Act : Observer → Prop
  | latest (h : o.fetching = false) : Act (o.latest b)
  | await (h : o.fetching = false) : Act (o.await b)
  | fetch (h : o.fetching = true) : Act (o.fetch b)

end Observer

structure Audience where
  board : Board
  observers : List Observer
deriving DecidableEq, Repr

namespace Audience

def initial (now : Timestamp) : Audience :=
  ⟨.initial now, []⟩

variable (x : Audience)

def publish (now : Timestamp) (edit : Draft → Draft) : Audience :=
  { x with board := { x.board with now }.publish edit }

def reset (now : Timestamp) : Audience :=
  { x with board := { x.board with now }.reset }

def close : Audience :=
  { x with board := x.board.close }

def join (o : Observer) : Audience :=
  { x with observers := x.observers ++ [o] }

def set (i : Nat) (o : Observer) : Audience :=
  { x with observers := x.observers.set i o }

inductive Step : Audience → Audience → Prop
  | publish (x : Audience) (now : Timestamp) (edit : Draft → Draft) (h : x.board.closed = false) :
    Step x (x.publish now edit)
  | reset (x : Audience) (now : Timestamp) (h : x.board.closed = false) : Step x (x.reset now)
  | subscribe (x : Audience) (h : x.board.closed = false) : Step x (x.join (.start x.board))
  | clone (x : Audience) (o : Observer) (ho : o ∈ x.observers) (h : o.fetching = false) :
    Step x (x.join o)
  | act (x : Audience) (i : Nat) (o o' : Observer) (ho : x.observers[i]? = some o)
    (h : o.Act x.board o') : Step x (x.set i o')
  | close (x : Audience) : Step x x.close

abbrev Run : Audience → Audience → Prop :=
  Relation.ReflTransGen Step

def Reachable (now : Timestamp) (x : Audience) : Prop :=
  Run (initial now) x

end Audience

namespace Subscription

variable (s : Subscription) (b : Board)

theorem poll_eq_changed_iff {snapshot : Snapshot} :
    (s.poll b).1 = .changed snapshot ↔ snapshot = b.snapshot ∧ b.snapshot.version ≠ s.seen := by
  unfold poll
  by_cases hseen : b.snapshot.version = s.seen
  · cases b.closed <;> simp [hseen]
  · simp [hseen, eq_comm]

theorem poll_eq_pending_iff :
    (s.poll b).1 = .pending ↔ b.snapshot.version = s.seen ∧ b.closed = false := by
  unfold poll
  by_cases hseen : b.snapshot.version = s.seen
  · cases b.closed <;> simp [hseen]
  · simp [hseen]

theorem poll_eq_closed_iff :
    (s.poll b).1 = .closed ↔ b.snapshot.version = s.seen ∧ b.closed = true := by
  unfold poll
  by_cases hseen : b.snapshot.version = s.seen
  · cases b.closed <;> simp [hseen]
  · simp [hseen]

end Subscription

namespace Observer

variable {o o' : Observer} {b b' : Board}

theorem versions_hear (reading : Reading) (s : Subscription) :
    (o.hear reading s).versions = o.versions ++ reading.version?.toList := by
  unfold versions hear
  rw [List.filterMap_append]
  cases h : reading.version? <;> simp [h]

theorem await_cases :
    (b.snapshot.version ≠ o.subscription.seen ∧
      o.await b = { o with subscription := ⟨b.snapshot.version⟩, fetching := true }) ∨
    (b.snapshot.version = o.subscription.seen ∧
      o.await b = o.hear (.awaited (if b.closed then .closed else .pending)) o.subscription) := by
  unfold await Subscription.poll
  by_cases hseen : b.snapshot.version = o.subscription.seen
  · right
    cases b.closed <;> simp [hseen]
  · left
    simp [hseen]

theorem log_changed :
    (o.changed b).log = o.log ++ [.awaited (o.subscription.poll b).1] := by
  unfold changed await Subscription.poll
  by_cases hseen : b.snapshot.version = o.subscription.seen
  · cases b.closed <;> simp [hseen, hear]
  · simp [hseen, fetch, hear, Subscription.latest]

/--
What an observer got to know is in order, and its subscription marks the newest of it, or the change
it was told of but has not read yet.
-/
structure Informed (b : Board) (o : Observer) : Prop where
  ordered : o.log.Pairwise Reading.Before
  le_seen : ∀ v ∈ o.versions, v ≤ o.subscription.seen
  seen : o.fetching = false → o.subscription.seen ∈ o.versions
  unseen : o.fetching = true → o.subscription.seen ∉ o.versions
  seen_le : o.subscription.seen ≤ b.snapshot.version

theorem informed_start (b : Board) : (start b).Informed b where
  ordered := List.pairwise_singleton _ _
  le_seen := by simp [start, versions, Reading.version?, Subscription.start]
  seen := by simp [start, versions, Reading.version?, Subscription.start]
  unseen := nofun
  seen_le := Nat.le_refl _

theorem Informed.mono (h : o.Informed b) (hle : b.snapshot.version ≤ b'.snapshot.version) :
    o.Informed b' :=
  { h with seen_le := Nat.le_trans h.seen_le hle }

theorem Informed.version_mem_iff (h : o.Informed b) (hidle : o.fetching = false) :
    b.snapshot.version ∈ o.versions ↔ b.snapshot.version = o.subscription.seen := by
  constructor
  · intro hmem
    exact Nat.le_antisymm (h.le_seen _ hmem) h.seen_le
  · intro heq
    rw [heq]
    exact h.seen hidle

theorem Informed.lt_of_fetching (h : o.Informed b) (hfetching : o.fetching = true) {v : Nat}
    (hv : v ∈ o.versions) : v < b.snapshot.version := by
  have hle := h.le_seen v hv
  have hseen := h.seen_le
  have hne : v ≠ o.subscription.seen := by
    rintro rfl
    exact h.unseen hfetching hv
  omega

theorem Informed.hear (h : o.Informed b) (reading : Reading)
    (hversion : reading.version? = some b.snapshot.version)
    (hnew : (∃ snapshot, reading = .awaited (.changed snapshot)) →
      ∀ v ∈ o.versions, v < b.snapshot.version) :
    (o.hear reading ⟨b.snapshot.version⟩).Informed b := by
  have hle : ∀ v ∈ o.versions, v ≤ b.snapshot.version := fun v hv =>
    Nat.le_trans (h.le_seen v hv) h.seen_le
  have hversions : (o.hear reading ⟨b.snapshot.version⟩).versions =
      o.versions ++ [b.snapshot.version] := by
    rw [versions_hear, hversion]
    rfl
  refine ⟨?_, ?_, ?_, nofun, Nat.le_refl _⟩
  · show (o.log ++ [reading]).Pairwise Reading.Before
    rw [List.pairwise_append]
    refine ⟨h.ordered, List.pairwise_singleton _ _, ?_⟩
    intro r hr r' hr' v hv v' hv'
    obtain rfl := List.mem_singleton.1 hr'
    have hmem : v ∈ o.versions := List.mem_filterMap.2 ⟨r, hr, hv⟩
    rw [hversion] at hv'
    cases hv'
    exact ⟨hle v hmem, fun hawaited => hnew hawaited v hmem⟩
  · rw [hversions]
    intro v hv
    rcases List.mem_append.1 hv with hold | hlast
    · exact hle v hold
    · exact Nat.le_of_eq (List.mem_singleton.1 hlast)
  · intro _
    rw [hversions]
    exact List.mem_append_right _ List.mem_cons_self

theorem Informed.await (h : o.Informed b) (hidle : o.fetching = false) :
    (o.await b).Informed b := by
  rcases await_cases (o := o) (b := b) with ⟨hne, hawait⟩ | ⟨heq, hawait⟩
  · rw [hawait]
    refine ⟨h.ordered, ?_, nofun, ?_, Nat.le_refl _⟩
    · exact fun v hv => Nat.le_trans (h.le_seen v hv) h.seen_le
    · intro _ hmem
      exact hne ((h.version_mem_iff hidle).1 hmem)
  · rw [hawait]
    -- There is nothing new, so the versions stay as they are.
    have hnone : (Reading.awaited (if b.closed then .closed else .pending)).version? = none := by
      cases b.closed <;> rfl
    have hversions := versions_hear (o := o)
      (.awaited (if b.closed then .closed else .pending)) o.subscription
    rw [hnone, Option.toList_none, List.append_nil] at hversions
    refine ⟨?_, ?_, ?_, nofun, h.seen_le⟩
    · show (o.log ++ [_]).Pairwise Reading.Before
      rw [List.pairwise_append]
      refine ⟨h.ordered, List.pairwise_singleton _ _, ?_⟩
      intro r _ r' hr' v _ v' hv'
      obtain rfl := List.mem_singleton.1 hr'
      rw [hnone] at hv'
      contradiction
    · rw [hversions]
      exact h.le_seen
    · rw [hversions]
      exact fun _ => h.seen hidle

theorem Informed.act (h : o.Informed b) (hact : o.Act b o') : o'.Informed b := by
  cases hact with
  | latest hidle =>
    apply h.hear (.latest b.snapshot) rfl
    rintro ⟨snapshot, hawaited⟩
    contradiction
  | await hidle => exact h.await hidle
  | fetch hfetching =>
    apply h.hear (.awaited (.changed b.snapshot)) rfl
    exact fun _ v hv => h.lt_of_fetching hfetching hv

section Delivery

def DeliversOnce (snapshot : Snapshot) : List Reading → Prop
  | [] => True
  | first :: rest =>
    (first = .latest snapshot ∨ first = .awaited (.changed snapshot)) ∧
      ∀ r ∈ rest, r = .latest snapshot ∨ r = .awaited .pending ∨ r = .awaited .closed

variable {news : List Reading}

theorem deliversOnce_singleton {snapshot : Snapshot} {first : Reading}
    (h : first = .latest snapshot ∨ first = .awaited (.changed snapshot)) :
    DeliversOnce snapshot [first] :=
  ⟨h, List.forall_mem_nil _⟩

theorem deliversOnce_append {snapshot : Snapshot} {first r : Reading} {rest : List Reading}
    (h : DeliversOnce snapshot (first :: rest))
    (hr : r = .latest snapshot ∨ r = .awaited .pending ∨ r = .awaited .closed) :
    DeliversOnce snapshot (first :: rest ++ [r]) := by
  refine ⟨h.1, ?_⟩
  intro r' hr'
  rcases List.mem_append.1 hr' with hold | hlast
  · exact h.2 r' hold
  · rw [List.mem_singleton.1 hlast]
    exact hr

theorem version_mem_of_deliversOnce {first : Reading} {rest : List Reading}
    (hlog : o'.log = o.log ++ first :: rest) (h : DeliversOnce b.snapshot (first :: rest)) :
    b.snapshot.version ∈ o'.versions := by
  have hfirst : first ∈ o'.log := by
    rw [hlog]
    exact List.mem_append_right _ List.mem_cons_self
  apply List.mem_filterMap.2
  rcases h.1 with rfl | rfl
  · exact ⟨_, hfirst, rfl⟩
  · exact ⟨_, hfirst, rfl⟩

theorem Informed.deliversOnce {o₀ : Observer} (h : o.Informed b) (hact : o.Act b o')
    (hlog : o.log = o₀.log ++ news) (hunseen : b.snapshot.version ∉ o₀.versions)
    (hnews : DeliversOnce b.snapshot news) :
    ∃ news', o'.log = o₀.log ++ news' ∧ DeliversOnce b.snapshot news' := by
  have hear (r : Reading) (s : Subscription) : (o.hear r s).log = o₀.log ++ (news ++ [r]) := by
    rw [← List.append_assoc, ← hlog]
    rfl
  cases news with
  | nil =>
    rw [List.append_nil] at hlog
    have hunseen' : b.snapshot.version ∉ o.versions := by
      unfold versions
      rw [hlog]
      exact hunseen
    cases hact with
    | latest hidle => exact ⟨_, hear _ _, deliversOnce_singleton (.inl rfl)⟩
    | await hidle =>
      rcases await_cases (o := o) (b := b) with ⟨_, hawait⟩ | ⟨heq, _⟩
      · refine ⟨[], ?_, trivial⟩
        rw [hawait, List.append_nil]
        exact hlog
      · exact absurd ((h.version_mem_iff hidle).2 heq) hunseen'
    | fetch hfetching => exact ⟨_, hear _ _, deliversOnce_singleton (.inr rfl)⟩
  | cons first rest =>
    have hseen := version_mem_of_deliversOnce hlog hnews
    cases hact with
    | latest hidle => exact ⟨_, hear _ _, deliversOnce_append hnews (.inl rfl)⟩
    | await hidle =>
      rcases await_cases (o := o) (b := b) with ⟨hne, _⟩ | ⟨_, hawait⟩
      · exact absurd ((h.version_mem_iff hidle).1 hseen) hne
      · rw [hawait]
        refine ⟨_, hear _ _, deliversOnce_append hnews (.inr ?_)⟩
        cases b.closed with
        | false => exact .inl rfl
        | true => exact .inr rfl
    | fetch hfetching => exact absurd (h.lt_of_fetching hfetching hseen) (Nat.lt_irrefl _)

end Delivery

end Observer

namespace Audience

variable {x x' : Audience}

theorem Step.snapshot (hstep : x.Step x') :
    x'.board.snapshot = x.board.snapshot ∨
      x.board.closed = false ∧ x'.board.snapshot.version = x.board.snapshot.version + 1 := by
  cases hstep with
  | publish now edit hopen => exact .inr ⟨hopen, rfl⟩
  | reset now hopen => exact .inr ⟨hopen, rfl⟩
  | subscribe hopen => exact .inl rfl
  | clone o ho hidle => exact .inl rfl
  | act i o o' ho hact => exact .inl rfl
  | close => exact .inl rfl

theorem Step.version_le (hstep : x.Step x') :
    x.board.snapshot.version ≤ x'.board.snapshot.version := by
  rcases hstep.snapshot with hsame | ⟨_, hnext⟩
  · exact Nat.le_of_eq (congrArg _ hsame.symm)
  · omega

theorem Step.closed (hstep : x.Step x') (hclosed : x.board.closed = true) :
    x'.board.closed = true := by
  cases hstep with
  | close => rfl
  | _ => exact hclosed

theorem Step.observer (hstep : x.Step x') {i : Nat} {o : Observer}
    (ho : x.observers[i]? = some o) :
    ∃ o', x'.observers[i]? = some o' ∧ (o' = o ∨ o.Act x.board o' ∧ x'.board = x.board) := by
  have hlt : i < x.observers.length := (List.getElem?_eq_some_iff.1 ho).1
  have hjoin (other : Observer) : (x.join other).observers[i]? = some o := by
    show (x.observers ++ [other])[i]? = some o
    rw [List.getElem?_append_left hlt, ho]
  cases hstep with
  | publish now edit _ => exact ⟨o, ho, .inl rfl⟩
  | reset now _ => exact ⟨o, ho, .inl rfl⟩
  | subscribe _ => exact ⟨o, hjoin _, .inl rfl⟩
  | clone other _ _ => exact ⟨o, hjoin _, .inl rfl⟩
  | act j other other' hother hact =>
    show ∃ o', (x.observers.set j other')[i]? = some o' ∧ _
    by_cases hij : j = i
    · subst hij
      rw [ho] at hother
      cases hother
      exact ⟨other', List.getElem?_set_self hlt, .inr ⟨hact, rfl⟩⟩
    · rw [List.getElem?_set_ne hij]
      exact ⟨o, ho, .inl rfl⟩
  | close => exact ⟨o, ho, .inl rfl⟩

theorem informed_step (h : ∀ o ∈ x.observers, o.Informed x.board) (hstep : x.Step x') :
    ∀ o ∈ x'.observers, o.Informed x'.board := by
  have hle := hstep.version_le
  cases hstep with
  | publish now edit _ => exact fun o ho => (h o ho).mono hle
  | reset now _ => exact fun o ho => (h o ho).mono hle
  | subscribe _ =>
    intro o ho
    rcases List.mem_append.1 ho with hold | hnew
    · exact h o hold
    · rw [List.mem_singleton.1 hnew]
      exact Observer.informed_start x.board
  | clone other hother _ =>
    intro o ho
    rcases List.mem_append.1 ho with hold | hnew
    · exact h o hold
    · rw [List.mem_singleton.1 hnew]
      exact h other hother
  | act j other other' hother hact =>
    intro o ho
    rcases List.mem_or_eq_of_mem_set ho with hold | rfl
    · exact h o hold
    · exact (h other (List.mem_of_getElem? hother)).act hact
  | close => exact fun o ho => (h o ho).mono hle

theorem Reachable.informed {now : Timestamp} (h : x.Reachable now) :
    ∀ o ∈ x.observers, o.Informed x.board := by
  induction h with
  | refl => exact nofun
  | tail _ hstep ih => exact informed_step ih hstep

theorem version_le_of_run (hrun : Run x x') :
    x.board.snapshot.version ≤ x'.board.snapshot.version := by
  induction hrun with
  | refl => exact Nat.le_refl _
  | tail _ hstep ih => exact Nat.le_trans ih hstep.version_le

theorem snapshot_eq_of_run {y : Audience} (hrun : Run x y) (hstep : y.Step x')
    (hsame : x'.board.snapshot = x.board.snapshot) : y.board.snapshot = x.board.snapshot := by
  rcases hstep.snapshot with hkept | ⟨_, hnext⟩
  · rw [← hkept, hsame]
  · have hle := version_le_of_run hrun
    rw [hsame] at hnext
    omega

theorem final_of_closed (hclosed : x.board.closed = true) (hrun : Run x x') :
    x'.board.snapshot = x.board.snapshot ∧ x'.board.closed = true := by
  induction hrun with
  | refl => exact ⟨rfl, hclosed⟩
  | tail _ hstep ih =>
    refine ⟨?_, hstep.closed ih.2⟩
    rcases hstep.snapshot with hkept | ⟨hopen, _⟩
    · exact hkept.trans ih.1
    · exact absurd ih.2 (by simp [hopen])

theorem Reachable.deliversOnce {now : Timestamp} (h : x.Reachable now) {i : Nat} {o : Observer}
    (ho : x.observers[i]? = some o) (hunseen : x.board.snapshot.version ∉ o.versions)
    (hrun : Run x x') (hsame : x'.board.snapshot = x.board.snapshot) :
    ∃ o' news, x'.observers[i]? = some o' ∧ o'.log = o.log ++ news ∧
      Observer.DeliversOnce x.board.snapshot news := by
  induction hrun with
  | refl => exact ⟨o, [], ho, (List.append_nil _).symm, trivial⟩
  | @tail y x' hrun hstep ih =>
    have hkept := snapshot_eq_of_run hrun hstep hsame
    obtain ⟨o₁, news, ho₁, hlog, hnews⟩ := ih hkept
    obtain ⟨o', ho', rfl | ⟨hact, _⟩⟩ := hstep.observer ho₁
    · exact ⟨o', news, ho', hlog, hnews⟩
    · have hinformed : o₁.Informed y.board :=
        Reachable.informed (h.trans hrun) o₁ (List.mem_of_getElem? ho₁)
      rw [← hkept] at hunseen hnews ⊢
      obtain ⟨news', hlog', hnews'⟩ := hinformed.deliversOnce hact hlog hunseen hnews
      exact ⟨o', news', ho', hlog', hnews'⟩

structure KeepsUp (x : Audience) (i : Nat) (o : Observer) : Prop where
  ordered : o.log.Pairwise Reading.Before
  changed : o.fetching = false → ∀ snapshot,
    ((o.subscription.poll x.board).1 = .changed snapshot ↔
      snapshot = x.board.snapshot ∧ x.board.snapshot.version ∉ o.versions)
  pending : o.fetching = false → ((o.subscription.poll x.board).1 = .pending ↔
    x.board.snapshot.version ∈ o.versions ∧ x.board.closed = false)
  closed : o.fetching = false → ((o.subscription.poll x.board).1 = .closed ↔
    x.board.snapshot.version ∈ o.versions ∧ x.board.closed = true)
  polled : (o.changed x.board).log = o.log ++ [.awaited (o.subscription.poll x.board).1]
  fetched : o.fetching = true → x.board.snapshot.version ∉ o.versions ∧
    (o.fetch x.board).log = o.log ++ [.awaited (.changed x.board.snapshot)]
  delivered : x.board.snapshot.version ∉ o.versions → ∀ x', Run x x' →
    x'.board.snapshot = x.board.snapshot → ∃ o' news, x'.observers[i]? = some o' ∧
      o'.log = o.log ++ news ∧ Observer.DeliversOnce x.board.snapshot news
  final : x.board.closed = true → ∀ x', Run x x' → x'.board.snapshot = x.board.snapshot

end Audience

/--
In every state that a board and its observers can get into, by steps in any order, an observer has
seen versions in their order, and waiting tells it of the newest snapshot if and only if it has not
seen that one. The last snapshot therefore gets to every observer once, even when the board is
closed.
-/
theorem subscriptions_keepUp {now : Timestamp} {x : Audience} (h : x.Reachable now) {i : Nat}
    {o : Observer} (ho : x.observers[i]? = some o) : x.KeepsUp i o := by
  have hinformed := h.informed o (List.mem_of_getElem? ho)
  refine ⟨hinformed.ordered, ?_, ?_, ?_, Observer.log_changed, ?_, ?_, ?_⟩
  · intro hidle snapshot
    rw [Subscription.poll_eq_changed_iff, hinformed.version_mem_iff hidle]
  · intro hidle
    rw [Subscription.poll_eq_pending_iff, hinformed.version_mem_iff hidle]
  · intro hidle
    rw [Subscription.poll_eq_closed_iff, hinformed.version_mem_iff hidle]
  · intro hfetching
    refine ⟨?_, rfl⟩
    intro hmem
    exact Nat.lt_irrefl _ (hinformed.lt_of_fetching hfetching hmem)
  · intro hunseen x' hrun hsame
    exact h.deliversOnce ho hunseen hrun hsame
  · intro hclosed x' hrun
    exact (Audience.final_of_closed hclosed hrun).1

/--
An observer is told of the first publish when the second one has come, and so reads the second. Its
clone has therefore not seen the third one only, which comes just before the end.
-/
theorem subscriptions_keepUp_clone :
    let edit (d : Draft) : Draft := { d with loading := true }
    let told (x : Audience) (i : Nat) (f : Observer → Board → Observer) : Audience :=
      x.set i (f (x.observers[i]?.getD (.start x.board)) x.board)
    let first := ((Audience.initial .epoch).join (.start (.initial .epoch))).publish .epoch edit
    let noticed := told first 0 .await
    let fetched := told (noticed.publish .epoch edit) 0 .fetch
    let source : Observer := fetched.observers[0]?.getD (.start fetched.board)
    let x := ((fetched.join source).publish .epoch edit).close
    let heard := told (told x 1 .await) 1 .fetch
    x.Reachable .epoch ∧ source.versions = [0, 2] ∧ x.observers[1]? = some source ∧
      x.KeepsUp 1 source ∧ Audience.Run x heard ∧
      heard.observers[1]?.map (·.versions) = some [0, 2, 3] ∧
      (heard.observers[1]?.map fun o => (o.subscription.poll heard.board).1) = some .closed := by
  intro edit told first noticed fetched source x heard
  have act {y : Audience} {i : Nat} {o o' : Observer} (ho : y.observers[i]? = some o)
      (hact : o.Act y.board o') : Audience.Run y (y.set i o') :=
    .single (.act y i o o' ho hact)
  have hfetched : fetched.Reachable .epoch := by
    apply Relation.ReflTransGen.trans _ (act rfl (.fetch rfl))
    apply Relation.ReflTransGen.tail _ (.publish _ _ _ rfl)
    apply Relation.ReflTransGen.trans _ (act rfl (.await rfl))
    exact .tail (.single (.subscribe _ rfl)) (.publish _ _ _ rfl)
  have hx : x.Reachable .epoch :=
    ((hfetched.tail (.clone _ source (by decide +kernel) rfl)).tail (.publish _ _ _ rfl)).tail
      (.close _)
  have hsource : x.observers[1]? = some source := rfl
  have hheard : Audience.Run x heard :=
    (act hsource (.await rfl)).trans (act rfl (.fetch rfl))
  exact ⟨hx, by decide +kernel, hsource, subscriptions_keepUp hx hsource, hheard,
    by decide +kernel, by decide +kernel⟩

end ListKeeper
