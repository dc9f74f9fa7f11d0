/-!
This module contains maps from ids to entries, kept in the order of their ids. As the entries of a
map are strictly sorted, two maps with the same entry for every id are equal.
-/

namespace ListKeeper

def Ascending (entries : List (String × α)) : Prop :=
  entries.Pairwise fun a b => a.1 < b.1

def insertEntry (id : String) (a : α) : List (String × α) → List (String × α)
  | [] => [(id, a)]
  | (k, b) :: rest =>
    if id < k then (id, a) :: (k, b) :: rest
    else if id = k then (id, a) :: rest
    else (k, b) :: insertEntry id a rest

theorem mem_insertEntry {id : String} {a : α} {e : String × α} {entries : List (String × α)}
    (h : e ∈ insertEntry id a entries) : e = (id, a) ∨ e ∈ entries := by
  induction entries with
  | nil => simpa [insertEntry] using h
  | cons entry rest ih =>
    obtain ⟨k, b⟩ := entry
    simp only [insertEntry] at h
    split at h
    · simpa using h
    · split at h
      · simp only [List.mem_cons] at h ⊢
        exact h.imp_right Or.inr
      · simp only [List.mem_cons] at h ⊢
        rcases h with h | h
        · exact .inr (.inl h)
        · exact (ih h).imp_right Or.inr

theorem Ascending.insertEntry {entries : List (String × α)} (h : Ascending entries)
    (id : String) (a : α) : Ascending (insertEntry id a entries) := by
  induction entries with
  | nil => simp [ListKeeper.insertEntry, Ascending]
  | cons entry rest ih =>
    obtain ⟨k, b⟩ := entry
    simp only [Ascending, List.pairwise_cons] at h
    simp only [ListKeeper.insertEntry]
    split
    · next hlt =>
      simp only [Ascending, List.pairwise_cons, List.mem_cons]
      refine ⟨?_, h⟩
      rintro e (rfl | he)
      · exact hlt
      · exact String.lt_trans hlt (h.1 e he)
    · split
      · next heq =>
        subst heq
        simp only [Ascending, List.pairwise_cons]
        exact h
      · next hlt hne =>
        simp only [Ascending, List.pairwise_cons]
        refine ⟨?_, ih h.2⟩
        intro e he
        rcases mem_insertEntry he with rfl | he
        · exact Decidable.byContradiction fun hge =>
            hne (String.le_antisymm (String.not_lt.1 hge) (String.not_lt.1 hlt))
        · exact h.1 e he

structure Index (α : Type) where
  entries : List (String × α)
  ascending : Ascending entries
deriving DecidableEq, Repr

namespace Index

def empty : Index α :=
  ⟨[], List.Pairwise.nil⟩

def get? (index : Index α) (id : String) : Option α :=
  index.entries.lookup id

def contains (index : Index α) (id : String) : Bool :=
  (index.get? id).isSome

def insert (index : Index α) (id : String) (a : α) : Index α :=
  ⟨insertEntry id a index.entries, index.ascending.insertEntry id a⟩

def filter (index : Index α) (p : String → α → Bool) : Index α :=
  ⟨index.entries.filter fun (id, a) => p id a, index.ascending.filter _⟩

def erase (index : Index α) (id : String) : Index α :=
  index.filter fun k _ => k != id

def values (index : Index α) : List α :=
  index.entries.map (·.2)

def size (index : Index α) : Nat :=
  index.entries.length

def ofList (entries : List (String × α)) : Index α :=
  entries.foldl (fun index (id, a) => index.insert id a) empty

end Index
end ListKeeper
