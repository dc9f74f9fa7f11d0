import ListKeeper.Index

/-!
This module contains what the operations on maps do to the entries that are found by id. A map is
determined by what is found in it.
-/

namespace ListKeeper

variable {entries : List (String × α)}

theorem lookup_insertEntry (id k : String) (a : α) :
    (insertEntry id a entries).lookup k = if k = id then some a else entries.lookup k := by
  induction entries with
  | nil =>
    by_cases h : k = id
    · simp [insertEntry, h]
    · simp [insertEntry, List.lookup_cons, beq_eq_false_iff_ne.2 h, h]
  | cons entry rest ih =>
    obtain ⟨k', b⟩ := entry
    simp only [insertEntry]
    split
    · by_cases h : k = id
      · simp [h]
      · simp [List.lookup_cons, beq_eq_false_iff_ne.2 h, h]
    · split
      · next heq =>
        subst heq
        by_cases h : k = id
        · simp [h]
        · simp [List.lookup_cons, beq_eq_false_iff_ne.2 h, h]
      · next hne =>
        by_cases h : k = k'
        · subst h
          simp [Ne.symm hne]
        · simp [List.lookup_cons, beq_eq_false_iff_ne.2 h, ih]

theorem mem_iff_lookup [BEq κ] [LawfulBEq κ] {entries : List (κ × α)}
    (h : (entries.map (·.1)).Nodup) (k : κ) (a : α) :
    (k, a) ∈ entries ↔ entries.lookup k = some a := by
  induction entries with
  | nil => simp
  | cons entry rest ih =>
    obtain ⟨k', b⟩ := entry
    rw [List.map_cons, List.nodup_cons] at h
    rw [List.mem_cons]
    by_cases hk : k = k'
    · subst hk
      have hrest : (k, a) ∉ rest := fun hmem => h.1 (List.mem_map.2 ⟨_, hmem, rfl⟩)
      simp only [Prod.mk.injEq, true_and, hrest, or_false, List.lookup_cons_self, Option.some.injEq]
      exact eq_comm
    · simp [List.lookup_cons, beq_eq_false_iff_ne.2 hk, hk, ih h.2]

theorem Ascending.nodup_ids (h : Ascending entries) : (entries.map (·.1)).Nodup := by
  apply List.pairwise_map.2
  apply List.Pairwise.imp _ h
  intro e e' hlt heq
  rw [heq] at hlt
  exact String.lt_irrefl _ hlt

theorem Ascending.nodup (h : Ascending entries) : entries.Nodup := by
  apply List.Pairwise.imp _ (List.pairwise_map.1 h.nodup_ids)
  intro e e' hne heq
  exact hne (congrArg Prod.fst heq)

theorem Ascending.eq_of_lookup {entries' : List (String × α)} (h : Ascending entries)
    (h' : Ascending entries') (hlookup : ∀ k, entries.lookup k = entries'.lookup k) :
    entries = entries' := by
  apply List.Perm.eq_of_pairwise _ h h'
  · rw [List.perm_ext_iff_of_nodup h.nodup h'.nodup]
    rintro ⟨k, a⟩
    rw [mem_iff_lookup h.nodup_ids, mem_iff_lookup h'.nodup_ids, hlookup]
  · intro e e' _ _ hlt hgt
    exact absurd hgt (String.lt_asymm hlt)

namespace Index

variable (index : Index α)

theorem ext_get? {index index' : Index α} (h : ∀ k, index.get? k = index'.get? k) :
    index = index' := by
  obtain ⟨entries, hentries⟩ := index
  obtain ⟨entries', hentries'⟩ := index'
  have heq : entries = entries' := hentries.eq_of_lookup hentries' h
  subst heq
  rfl

theorem mem_entries (k : String) (a : α) : (k, a) ∈ index.entries ↔ index.get? k = some a :=
  mem_iff_lookup index.ascending.nodup_ids k a

theorem mem_values (a : α) : a ∈ index.values ↔ ∃ k, index.get? k = some a := by
  unfold values
  rw [List.mem_map]
  constructor
  · rintro ⟨⟨k, b⟩, hmem, rfl⟩
    exact ⟨k, (index.mem_entries k b).1 hmem⟩
  · rintro ⟨k, h⟩
    exact ⟨(k, a), (index.mem_entries k a).2 h, rfl⟩

theorem nodup_values {idOf : α → String} (h : ∀ k a, index.get? k = some a → idOf a = k) :
    (index.values.map idOf).Nodup := by
  have hids : index.values.map idOf = index.entries.map (·.1) := by
    unfold values
    rw [List.map_map]
    apply List.map_congr_left
    rintro ⟨k, a⟩ hmem
    exact h k a ((index.mem_entries k a).1 hmem)
  rw [hids]
  exact index.ascending.nodup_ids

@[simp, grind =]
theorem get?_empty (k : String) : (empty : Index α).get? k = none := rfl

@[grind =]
theorem get?_insert (id k : String) (a : α) :
    (index.insert id a).get? k = if k = id then some a else index.get? k :=
  lookup_insertEntry id k a

@[grind =]
theorem get?_filter (p : String → α → Bool) (k : String) :
    (index.filter p).get? k = (index.get? k).filter (p k) := by
  apply Option.ext
  intro a
  rw [← mem_entries, Option.filter_eq_some_iff, ← mem_entries]
  exact List.mem_filter

@[grind =]
theorem get?_erase (id k : String) :
    (index.erase id).get? k = if k = id then none else index.get? k := by
  unfold erase
  rw [get?_filter]
  split
  · next h => cases index.get? k <;> simp [h]
  · next h => cases index.get? k <;> simp [h]

end Index
end ListKeeper
