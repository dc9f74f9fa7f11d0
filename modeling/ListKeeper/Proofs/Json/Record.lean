import ListKeeper.Json.Record
import ListKeeper.Proofs.Json.RoundTrip
import Mathlib.Data.List.Nodup

/-!
This module contains how the parts of a record are read back from the documents they are written to.
-/

namespace ListKeeper.Json

theorem nullable?_opt {read : Json → Option α} {write : α → Json} {o : Option α}
    (hnull : ∀ a, write a ≠ .null) (h : ∀ a ∈ o, read (write a) = some a) :
    (opt write o).nullable? read = some o := by
  cases o with
  | none => rfl
  | some a =>
    have hread := h a rfl
    have hne := hnull a
    unfold opt nullable?
    split
    · next heq => exact absurd heq hne
    · rw [hread]
      rfl

theorem sound_opt {write : α → Json} {o : Option α} (h : ∀ a ∈ o, Sound (write a)) :
    Sound (opt write o) := by
  cases o with
  | none => exact .null
  | some a => exact h a rfl

@[simp]
theorem str?_str (s : String) : (Json.str s).str? = some s := rfl

@[simp]
theorem bool?_bool (b : Bool) : (Json.bool b).bool? = some b := rfl

@[simp]
theorem nullable?_opt_str (o : Option String) : (opt .str o).nullable? str? = some o :=
  nullable?_opt (by simp) (by simp)

theorem sound_nat (n : Nat) : (nat n).Sound :=
  .num (Numeral.wellFormed_ofNat n)

theorem natBelow?_nat {n bound : Nat} (h : n < bound) (hbound : bound ≤ UInt64.size) :
    (nat n).natBelow? bound = some n := by
  simp [natBelow?, nat, int?, Numeral.toInt?_ofNat (Nat.lt_of_lt_of_le h hbound), h]

@[simp]
theorem word64?_nat (x : UInt64) : (nat x.toNat).word64? = some x := by
  rw [word64?, natBelow?_nat x.toNat_lt_size (Nat.le_refl _), Option.map_some, UInt64.ofNat_toNat]

@[simp]
theorem word32?_nat (x : UInt32) : (nat x.toNat).word32? = some x := by
  rw [word32?, natBelow?_nat x.toNat_lt_size (by decide), Option.map_some, UInt32.ofNat_toNat]

theorem keysOnce_of_nodup {fields : List (String × Json)} (names : List String)
    (h : (fields.map (·.1)).Nodup) : keysOnce names fields = true := by
  unfold keysOnce
  rw [List.all_eq_true]
  intro name _
  rw [decide_eq_true_eq]
  have hcount := List.nodup_iff_count_le_one.1 h name
  rw [List.count_eq_countP, List.countP_map, List.countP_eq_length_filter] at hcount
  exact hcount

def slotOf (fields : List (String × Json)) : Fields := fun name =>
  match fields.lookup name with
  | some v => .given v
  | none => .omitted

theorem slotOf_self (name : String) (v : Json) (fields : List (String × Json)) :
    slotOf ((name, v) :: fields) name = .given v := by
  unfold slotOf
  rw [List.lookup_cons_self]

theorem slotOf_of_ne {name other : String} (h : name ≠ other) (v : Json)
    (fields : List (String × Json)) :
    slotOf ((other, v) :: fields) name = slotOf fields name := by
  unfold slotOf
  rw [List.lookup_cons, beq_eq_false_iff_ne.2 h]

theorem record?_obj {fields : List (String × Json)} (names : List String)
    (h : (fields.map (·.1)).Nodup) : record? names (.obj fields) = some (slotOf fields) := by
  simp only [record?, keysOnce_of_nodup names h, if_true]
  rfl

end ListKeeper.Json
