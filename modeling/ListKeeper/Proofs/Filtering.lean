import ListKeeper.Proofs.View

/-!
This module contains that filters do not change the order of what they leave: the view is the
accepted part of the view without filters. So the lists that two views share are in the same order
in both, and a view of a view is the view itself.
-/

namespace ListKeeper.Criteria

variable (c : Criteria) (now : Timestamp)

def unfiltered : Criteria :=
  { initial with order := c.order }

@[simp]
theorem accepts_unfiltered (list : Checklist) : c.unfiltered.accepts now list = true := rfl

@[simp]
theorem accepts?_unfiltered (list : Checklist) : c.unfiltered.accepts? now list = some true := rfl

theorem accepts?_eq_none_iff (list : Checklist) :
    c.accepts? now list = none ↔
      (c.period = some .thisWeek ∧ now.date.weekStart < Timestamp.firstDay) ∧
        { c with period := none }.accepts now list = true := by
  unfold accepts?
  split
  · next h =>
    cases c.period with
    | none => simp
    | some period => simp [Period.covers?, h]
  · next h => simp [h]

section Order

variable (lists : List Checklist)

theorem view_unfiltered : c.unfiltered.view now lists = lists.mergeSort c.order.le := by
  unfold view
  rw [List.filter_eq_self.2 fun list _ => c.accepts_unfiltered now list]
  rfl

theorem view_eq_filter :
    c.view now lists = (c.unfiltered.view now lists).filter (c.accepts now) := by
  rw [view_unfiltered, ← mergeSort_filter c.order.le_trans c.order.le_total]
  rfl

theorem accepts_of_mem_view {list : Checklist} (h : list ∈ c.view now lists) :
    c.accepts now list = true := by
  rw [view_eq_filter] at h
  exact (List.mem_filter.1 h).2

theorem view_view : c.view now (c.view now lists) = c.view now lists := by
  have hordered := (c.isView_view now lists).ordered
  rw [view, List.filter_eq_self.2 fun _ => c.accepts_of_mem_view now lists]
  exact List.mergeSort_of_pairwise hordered

/--
What other criteria with the same order show, and the given ones accept, is what the given ones show
and the others accept.
-/
theorem filter_view (d : Criteria) :
    ({ d with order := c.order }.view now lists).filter (c.accepts now) =
      (c.view now lists).filter (d.accepts now) := by
  rw [view_eq_filter, c.view_eq_filter, List.filter_comm]
  rfl

end Order

section Answers

variable {lists : List Checklist}

theorem accepted?_eq_none_iff :
    c.accepted? now lists = none ↔ ∃ list ∈ lists, c.accepts? now list = none := by
  simp [accepted?]

theorem view?_eq_none_iff :
    c.view? now lists = none ↔ ∃ list ∈ lists, c.accepts? now list = none := by
  rw [view?, Option.map_eq_none_iff, accepted?_eq_none_iff]

theorem accepted?_of_forall (h : ∀ list ∈ lists, c.accepts? now list ≠ none) :
    c.accepted? now lists = some (lists.filter (c.accepts now)) := by
  have hall : (lists.all fun list => (c.accepts? now list).isSome) = true := by
    simpa [Option.isSome_iff_ne_none] using h
  rw [accepted?, if_pos hall]

theorem view?_of_forall (h : ∀ list ∈ lists, c.accepts? now list ≠ none) :
    c.view? now lists = some (c.view now lists) := by
  rw [view?, accepted?_of_forall c now h]
  rfl

theorem view?_unfiltered : c.unfiltered.view? now lists = some (c.unfiltered.view now lists) :=
  c.unfiltered.view?_of_forall now (by simp)

theorem mem_view_unfiltered {list : Checklist} :
    list ∈ c.unfiltered.view now lists ↔ list ∈ lists := by
  rw [view_unfiltered, List.mem_mergeSort]

theorem view?_eq_bind_accepted? :
    c.view? now lists = (c.unfiltered.view? now lists).bind (c.accepted? now) := by
  rw [view?_unfiltered, Option.bind_some]
  by_cases h : ∃ list ∈ lists, c.accepts? now list = none
  · obtain ⟨list, hlist, hnone⟩ := h
    rw [(c.view?_eq_none_iff now).2 ⟨list, hlist, hnone⟩,
      (c.accepted?_eq_none_iff now).2 ⟨list, (c.mem_view_unfiltered now).2 hlist, hnone⟩]
  · push Not at h
    rw [c.view?_of_forall now h, view_eq_filter,
      c.accepted?_of_forall now fun list hlist => h list ((c.mem_view_unfiltered now).1 hlist)]

theorem view?_bind_view? : (c.view? now lists).bind (c.view? now) = c.view? now lists := by
  by_cases h : ∃ list ∈ lists, c.accepts? now list = none
  · rw [(c.view?_eq_none_iff now).2 h]
    rfl
  · push Not at h
    have hview : ∀ list ∈ c.view now lists, c.accepts? now list ≠ none := by
      intro list hlist
      rw [view_eq_filter, List.mem_filter, mem_view_unfiltered] at hlist
      exact h list hlist.1
    rw [c.view?_of_forall now h, Option.bind_some, c.view?_of_forall now hview, view_view]

end Answers

/--
The view is the accepted part of the view without filters, a view of the view is the view itself,
and the lists that the views for two criteria with the same order share are in the same order in
both. The first two hold as well as far as the view can be told. It cannot be told exactly if the
period is a week without a start and decides on one of the lists.
-/
theorem filtering_keepsOrder (lists : List Checklist) :
    c.view now lists = (c.unfiltered.view now lists).filter (c.accepts now) ∧
    c.view now (c.view now lists) = c.view now lists ∧
    (∀ d : Criteria, ({ d with order := c.order }.view now lists).filter (c.accepts now) =
      (c.view now lists).filter (d.accepts now)) ∧
    c.view? now lists = (c.unfiltered.view? now lists).bind (c.accepted? now) ∧
    (c.view? now lists).bind (c.view? now) = c.view? now lists ∧
    (c.view? now lists = none ↔
      (c.period = some .thisWeek ∧ now.date.weekStart < Timestamp.firstDay) ∧
        ∃ list ∈ lists, { c with period := none }.accepts now list = true) := by
  refine ⟨c.view_eq_filter now lists, c.view_view now lists, c.filter_view now lists,
    c.view?_eq_bind_accepted? now, c.view?_bind_view? now, ?_⟩
  simp only [view?_eq_none_iff, accepts?_eq_none_iff]
  grind

end ListKeeper.Criteria
