import ListKeeper.Board
import ListKeeper.Proofs.Sort
import Mathlib.Data.List.TakeWhile

/-!
This module contains what the view of a collection of lists is, apart from how it is computed: the
lists that the criteria admit, in the order that is wanted, and otherwise in that of the collection.
There is one such view of every collection, and snapshots show it.
-/

namespace ListKeeper

theorem Text.occursIn_iff_infix (needle cs : List Char) :
    occursIn needle cs = true ↔ needle <:+: cs := by
  induction cs with
  | nil => simp [occursIn]
  | cons c rest ih =>
    rw [occursIn, Bool.or_eq_true, List.isPrefixOf_iff_prefix, ih, List.infix_cons_iff]

theorem Text.trim_of_isBlankText {s : String} (h : isBlankText s = true) : trim s.toList = [] := by
  have hstart : trimStart s.toList = [] := by
    rw [trimStart, List.dropWhile_eq_nil_iff]
    exact List.all_eq_true.1 h
  rw [trim, hstart]
  rfl

namespace Checklist

theorem completedCount_eq_length_iff (list : Checklist) :
    list.completedCount = list.items.length ↔ ∀ item ∈ list.items, item.completed = true := by
  unfold completedCount
  exact List.length_filter_eq_length_iff

theorem isCompleted_iff (list : Checklist) :
    list.isCompleted = true ↔ list.items ≠ [] ∧ ∀ item ∈ list.items, item.completed = true := by
  unfold isCompleted
  rw [Bool.and_eq_true, beq_iff_eq, completedCount_eq_length_iff]
  simp

theorem isInProgress_iff (list : Checklist) :
    list.isInProgress = true ↔
      (∃ item ∈ list.items, item.completed = true) ∧ ∃ item ∈ list.items, item.completed = false := by
  have hle : list.completedCount ≤ list.items.length := List.length_filter_le _ _
  have hall := list.completedCount_eq_length_iff
  have hsome : 0 < list.completedCount ↔ ∃ item ∈ list.items, item.completed = true := by
    simp [completedCount, List.length_pos_iff_exists_mem]
  have hopen : list.completedCount < list.items.length ↔
      ∃ item ∈ list.items, item.completed = false := by
    rw [Nat.lt_iff_le_and_ne, and_iff_right hle, Ne, hall]
    simp
  unfold isInProgress
  rw [Bool.and_eq_true, decide_eq_true_iff, decide_eq_true_iff, hsome, hopen]

end Checklist

namespace Order

variable (order : Order)

def tied (a b : Checklist) : Bool :=
  order.le a b && order.le b a

theorem le_trans (a b c : Checklist) (hab : order.le a b = true) (hbc : order.le b c = true) :
    order.le a c = true := by
  cases order with
  | nameAsc =>
    simp only [le, decide_eq_true_eq] at *
    exact String.le_trans hab hbc
  | nameDesc =>
    simp only [le, decide_eq_true_eq] at *
    exact String.le_trans hbc hab
  | _ =>
    simp only [le, decide_eq_true_eq, Timestamp.le_def] at *
    omega

theorem le_total (a b : Checklist) : (order.le a b || order.le b a) = true := by
  cases order with
  | nameAsc =>
    simp only [le, Bool.or_eq_true, decide_eq_true_eq]
    exact String.le_total _ _
  | nameDesc =>
    simp only [le, Bool.or_eq_true, decide_eq_true_eq]
    exact String.le_total _ _
  | _ =>
    simp only [le, Bool.or_eq_true, decide_eq_true_eq, Timestamp.le_def]
    omega

end Order

namespace Criteria

variable (c : Criteria) (now : Timestamp)

def Mentioned (query : String) (list : Checklist) : Prop :=
  let needle := Text.lower (Text.trim query.toList)
  needle <:+: Text.lower list.name.toList ∨
    ∃ description, list.description = some description ∧
      needle <:+: Text.lower description.toList

/--
The criteria admit a list: the query occurs in it, it has the topic, it is not of a kind that is
hidden, and it was created in the period. What is not asked for does not count.
-/
structure Admits (list : Checklist) : Prop where
  query : ∀ query, c.query = some query → Mentioned query list
  topic : ∀ topic, c.topic = some topic → list.topic = topic
  completed : c.showCompleted = false →
    ¬ (list.items ≠ [] ∧ ∀ item ∈ list.items, item.completed = true)
  inProgress : c.showInProgress = false →
    ¬ ((∃ item ∈ list.items, item.completed = true) ∧ ∃ item ∈ list.items, item.completed = false)
  period : ∀ period, c.period = some period → period.covers list.createdAt now = true

theorem mentions_iff (query : String) (list : Checklist) :
    mentions query list = true ↔ Mentioned query list := by
  unfold mentions Mentioned
  simp only [Bool.or_eq_true, Text.occursIn_iff_infix, Option.any_eq_true_iff_get]
  cases list.description with
  | none => simp
  | some description => simp

theorem accepts_iff (list : Checklist) : c.accepts now list = true ↔ c.Admits now list := by
  have hall {α : Type} (o : Option α) (p : α → Bool) :
      o.all p = true ↔ ∀ a, o = some a → p a = true := by
    cases o <;> simp
  have hhidden (shown kind : Bool) (P : Prop) (hkind : kind = true ↔ P) :
      (shown || !kind) = true ↔ (shown = false → ¬ P) := by
    rw [← hkind]
    cases shown <;> cases kind <;> simp
  unfold accepts
  simp only [Bool.and_eq_true, hall, mentions_iff, hhidden _ _ _ list.isCompleted_iff,
    hhidden _ _ _ list.isInProgress_iff, beq_iff_eq]
  constructor
  · rintro ⟨⟨⟨⟨hquery, htopic⟩, hcompleted⟩, hprogress⟩, hperiod⟩
    exact ⟨hquery, fun topic h => (htopic topic h).symm, hcompleted, hprogress, hperiod⟩
  · intro h
    exact ⟨⟨⟨⟨h.query, fun topic ht => (h.topic topic ht).symm⟩, h.completed⟩, h.inProgress⟩,
      h.period⟩

instance (list : Checklist) : Decidable (c.Admits now list) :=
  decidable_of_iff _ (c.accepts_iff now list)

def admitted (lists : List Checklist) : List Checklist :=
  lists.filter (c.Admits now ·)

theorem filter_accepts (lists : List Checklist) :
    lists.filter (c.accepts now) = c.admitted now lists := by
  apply List.filter_congr
  intro list _
  rw [Bool.eq_iff_iff, accepts_iff, decide_eq_true_iff]

/--
A view of a collection has the lists that the criteria admit, sorted by the wanted order. Lists that
the order does not tell apart are in the order of the collection.
-/
structure IsView (lists view : List Checklist) : Prop where
  admitted : view.Perm (c.admitted now lists)
  ordered : view.Pairwise (c.order.le · ·)
  stable : ∀ a, view.filter (c.order.tied a) = (c.admitted now lists).filter (c.order.tied a)

theorem isView_view (lists : List Checklist) : c.IsView now lists (c.view now lists) := by
  unfold view
  rw [filter_accepts]
  refine ⟨List.mergeSort_perm _ _, List.pairwise_mergeSort c.order.le_trans c.order.le_total _, ?_⟩
  intro a
  apply filter_mergeSort c.order.le_trans c.order.le_total
  intro x y hx hy
  rw [Order.tied, Bool.and_eq_true] at hx hy
  exact c.order.le_trans x a y hx.2 hy.1

theorem isView_iff (lists view : List Checklist) :
    c.IsView now lists view ↔ view = c.view now lists := by
  constructor
  · intro h
    have hview := c.isView_view now lists
    apply eq_of_classes c.order.le_total _ h.ordered hview.ordered
    intro a
    exact (h.stable a).trans (hview.stable a).symm
  · rintro rfl
    exact c.isView_view now lists

theorem admits_of_not_filtering (h : c.isFiltering = false) (list : Checklist) :
    c.Admits now list := by
  unfold isFiltering at h
  simp only [Bool.or_eq_false_iff, Bool.not_eq_false', Option.isSome_eq_false_iff,
    Option.isNone_iff_eq_none] at h
  obtain ⟨⟨⟨⟨hquery, htopic⟩, hcompleted⟩, hprogress⟩, hperiod⟩ := h
  refine ⟨?_, ?_, ?_, ?_, ?_⟩
  · intro query hq
    rw [hq] at hquery
    have hblank : Text.isBlankText query = true := by simpa using hquery
    unfold Mentioned
    rw [Text.trim_of_isBlankText hblank]
    exact .inl (List.nil_infix)
  · intro topic ht
    rw [htopic] at ht
    contradiction
  · intro hhidden
    rw [hcompleted] at hhidden
    contradiction
  · intro hhidden
    rw [hprogress] at hhidden
    contradiction
  · intro period hp
    rw [hperiod] at hp
    contradiction

theorem view_perm_of_not_filtering (h : c.isFiltering = false) (lists : List Checklist) :
    (c.view now lists).Perm lists := by
  have hall : c.admitted now lists = lists := by
    apply List.filter_eq_self.2
    intro list _
    exact decide_eq_true (c.admits_of_not_filtering now h list)
  have hperm := (c.isView_view now lists).admitted
  rwa [hall] at hperm

end Criteria

/--
A snapshot shows the view of its lists that its criteria ask for at the time `now`, and there is no
other. Without filters it shows all lists.
-/
structure Snapshot.ShowsView (now : Timestamp) (s : Snapshot) : Prop where
  only : ∀ view, s.criteria.IsView now s.lists view ↔ view = s.view
  all : s.criteria.isFiltering = false → s.view.Perm s.lists

theorem Snapshot.showsView_of_eq {now : Timestamp} {s : Snapshot}
    (h : s.view = s.criteria.view now s.lists) : s.ShowsView now := by
  constructor
  · intro view
    rw [h]
    exact s.criteria.isView_iff now s.lists view
  · intro hfiltering
    rw [h]
    exact s.criteria.view_perm_of_not_filtering now hfiltering s.lists

end ListKeeper
