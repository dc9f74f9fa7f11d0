import ListKeeper.Json.Parser
import ListKeeper.Json.Printer
import ListKeeper.Proofs.Json.Numeral

/-!
This module contains that documents are read back from both of their written forms. It says nothing
about `broken` documents, which nobody writes, and about numbers that the grammar does not have.
-/

namespace ListKeeper.Json

open Text

section Blanks

theorem skip_cons {c : Char} (h : isSpace c = false) (cs : List Char) :
    skip (c :: cs) = c :: cs := by
  unfold skip
  rw [List.dropWhile_cons_of_neg (by simp [h])]

def Gap (cs : List Char) : Prop :=
  ∀ c ∈ cs, isSpace c = true

theorem gap_nil : Gap [] := by
  simp [Gap]

theorem gap_newline (level : Nat) : Gap (newline level) := by
  intro c hc
  rcases List.mem_cons.1 hc with rfl | hblank
  · rfl
  · rw [List.eq_of_mem_replicate hblank]
    rfl

theorem gap_blank : Gap [' '] := by
  simp [Gap, isSpace]

theorem skip_append {gap : List Char} (h : Gap gap) (cs : List Char) :
    skip (gap ++ cs) = skip cs := by
  unfold skip
  rw [List.dropWhile_append_of_pos h]

end Blanks

section Strings

def markOf (c : Char) : Mark :=
  if c = '\x08' ∨ c = '\x0c' ∨ c = '\n' ∨ c = '\r' ∨ c = '\t' then .char c
  else if c.toNat < 0x20 then .unit c.toNat
  else .char c

theorem unit?_hexChars {n : Nat} (h : n < 0x20) :
    unit? '0' '0' (hexChar (n / 16)) (hexChar (n % 16)) = some n := by
  have hall : ∀ n, n < 0x20 → unit? '0' '0' (hexChar (n / 16)) (hexChar (n % 16)) = some n := by
    decide
  exact hall n h

theorem readMarks_writeChar (c : Char) (cs : List Char) :
    readMarks (writeChar c ++ cs) =
      (readMarks cs).map fun (marks, rest) => (markOf c :: marks, rest) := by
  unfold writeChar
  split
  · next h => subst h; rfl
  split
  · next h => subst h; rfl
  split
  · next h => subst h; rfl
  split
  · next h => subst h; rfl
  split
  · next h => subst h; rfl
  split
  · next h => subst h; rfl
  split
  · next h => subst h; rfl
  split
  · next h8 hc hn hr ht hlow =>
    have hunit := unit?_hexChars hlow
    simp only [List.cons_append, List.nil_append, readMarks, hunit]
    simp [markOf, h8, hc, hn, hr, ht, hlow]
  · next hquote hback h8 hc hn hr ht hlow =>
    simp only [List.cons_append, List.nil_append]
    rw [readMarks.eq_def]
    split
    · contradiction
    · next heq => cases heq; exact absurd rfl hquote
    · next heq => cases heq; exact absurd rfl hback
    · next heq => cases heq; exact absurd rfl hback
    · next heq =>
      cases heq
      simp [markOf, h8, hc, hn, hr, ht, hlow]

theorem join_unit {n : Nat} (h : n < 0x20) (marks : List Mark) :
    join (.unit n :: marks) = (join marks).map (Char.ofNat n :: ·) := by
  have hlead : isLead n = false := by
    unfold isLead
    simp
    omega
  have htrail : isTrail n = false := by
    unfold isTrail
    simp
    omega
  cases marks with
  | nil => simp [join, hlead, htrail]
  | cons mark marks =>
    cases mark with
    | char c => simp [join, hlead, htrail]
    | unit m => simp [join, hlead, htrail]

theorem join_markOf (c : Char) (marks : List Mark) :
    join (markOf c :: marks) = (join marks).map (c :: ·) := by
  unfold markOf
  split
  · simp [join]
  · split
    · next hlow => rw [join_unit hlow, Char.ofNat_toNat]
    · simp [join]

theorem join_map_markOf (cs : List Char) : join (cs.map markOf) = some cs := by
  induction cs with
  | nil => rfl
  | cons c cs ih => rw [List.map_cons, join_markOf, ih, Option.map_some]

theorem readText_flatMap (cs rest : List Char) :
    readText (cs.flatMap writeChar ++ '"' :: rest) = some (some cs, rest) := by
  have hmarks : readMarks (cs.flatMap writeChar ++ '"' :: rest) = some (cs.map markOf, rest) := by
    induction cs with
    | nil => rfl
    | cons c cs ih =>
      rw [List.flatMap_cons, List.append_assoc, readMarks_writeChar, ih]
      rfl
  unfold readText
  rw [hmarks, Option.map_some]
  simp only [join_map_markOf]

end Strings

section Numbers

def IsNumeric (c : Char) : Prop :=
  c = '-' ∨ c = '.' ∨ c = 'e' ∨ c = '+' ∨ c.isDigit = true

theorem IsNumeric.ne {c d : Char} (hc : IsNumeric c)
    (hd : d ≠ '-' ∧ d ≠ '.' ∧ d ≠ 'e' ∧ d ≠ '+' ∧ d.isDigit = false) : c ≠ d := by
  rintro rfl
  obtain ⟨h₁, h₂, h₃, h₄, h₅⟩ := hd
  rcases hc with hc | hc | hc | hc | hc
  · exact h₁ hc
  · exact h₂ hc
  · exact h₃ hc
  · exact h₄ hc
  · rw [hc] at h₅
    contradiction

theorem IsNumeric.isSpace_eq {c : Char} (h : IsNumeric c) : isSpace c = false := by
  have hblank := h.ne (d := ' ') (by decide)
  have hline := h.ne (d := '\n') (by decide)
  have htab := h.ne (d := '\t') (by decide)
  have hreturn := h.ne (d := '\r') (by decide)
  simp [isSpace, hblank, hline, htab, hreturn]

theorem isNumeric_of_mem_write {n : Numeral} (h : n.Digital) {c : Char} (hc : c ∈ n.write) :
    IsNumeric c := by
  rw [Numeral.write_eq, List.mem_append, List.mem_append, List.mem_append] at hc
  rcases hc with ((hsign | hwhole) | hfraction) | hexponent
  · split at hsign
    · exact .inl (List.mem_singleton.1 hsign)
    · contradiction
  · exact .inr (.inr (.inr (.inr (h.whole c hwhole))))
  · unfold Numeral.writeFraction at hfraction
    split at hfraction
    · contradiction
    · rcases List.mem_cons.1 hfraction with hpoint | hdigit
      · exact .inr (.inl hpoint)
      · exact .inr (.inr (.inr (.inr (h.fraction c hdigit))))
  · unfold Numeral.writeExponent at hexponent
    split at hexponent
    · contradiction
    · rcases List.mem_cons.1 hexponent with hpower | hrest
      · exact .inr (.inr (.inl hpower))
      · rcases List.mem_cons.1 hrest with hsign | hdigit
        · split at hsign
          · exact .inl hsign
          · exact .inr (.inr (.inr (.inl hsign)))
        · exact .inr (.inr (.inr (.inr (isDigit_of_mem_digits hdigit))))

theorem readValue_numeral {cs : List Char} (h : ∀ c ∈ cs.head?, IsNumeric c) (fuel : Nat) :
    readValue (fuel + 1) cs = (Numeral.read cs).map fun (n, rest) => (.num n, rest) := by
  have hskip : skip cs = cs := by
    cases cs with
    | nil => rfl
    | cons c cs => exact skip_cons (h c rfl).isSpace_eq cs
  simp only [readValue, hskip]
  split
  · exact absurd rfl ((h 'n' rfl).ne (by decide))
  · exact absurd rfl ((h 't' rfl).ne (by decide))
  · exact absurd rfl ((h 'f' rfl).ne (by decide))
  · exact absurd rfl ((h '"' rfl).ne (by decide))
  · exact absurd rfl ((h '[' rfl).ne (by decide))
  · exact absurd rfl ((h '\x7b' rfl).ne (by decide))
  · rfl

theorem exists_write_eq_cons {n : Numeral} (h : n.WellFormed) :
    ∃ c cs, n.write = c :: cs ∧ IsNumeric c := by
  have hne := h.whole_ne_nil
  cases hwrite : n.write with
  | nil =>
    rw [Numeral.write_eq] at hwrite
    simp_all
  | cons c cs => exact ⟨c, cs, rfl, isNumeric_of_mem_write h.toDigital (by simp [hwrite])⟩

end Numbers

inductive Sound : Json → Prop
  | null : Sound .null
  | bool (b : Bool) : Sound (.bool b)
  | num {n : Numeral} (h : n.WellFormed) : Sound (.num n)
  | str (s : String) : Sound (.str s)
  | arr {items : List Json} (h : ∀ v ∈ items, Sound v) : Sound (.arr items)
  | obj {fields : List (String × Json)} (h : ∀ field ∈ fields, Sound field.2) : Sound (.obj fields)

section Layout

theorem readValue_congr {cs cs' : List Char} (h : skip cs = skip cs') (fuel : Nat) :
    readValue fuel cs = readValue fuel cs' := by
  cases fuel with
  | zero => rfl
  | succ fuel => simp only [readValue, h]

theorem readField_congr {cs cs' : List Char} (h : skip cs = skip cs') (fuel : Nat) :
    readField fuel cs = readField fuel cs' := by
  cases fuel with
  | zero => rfl
  | succ fuel => simp only [readField, h]

theorem stops_cons {c : Char} (rest : List Char)
    (hc : c.isDigit = false ∧ c ≠ '.' ∧ c ≠ 'e' ∧ c ≠ 'E' ∧ c ≠ '-') :
    Numeral.Stops (c :: rest) := by
  obtain ⟨hdigit, hpoint, hpower, hpower', hsign⟩ := hc
  refine ⟨?_, ?_, ⟨?_, ?_⟩, ?_⟩
  · rintro _ ⟨⟩
    exact hdigit
  · simpa using hpoint
  · simpa using hpower
  · simpa using hpower'
  · simpa using hsign

theorem stops_gap_append {gap : List Char} (h : Gap gap) {c : Char} (rest : List Char)
    (hc : c.isDigit = false ∧ c ≠ '.' ∧ c ≠ 'e' ∧ c ≠ 'E' ∧ c ≠ '-') :
    Numeral.Stops (gap ++ c :: rest) := by
  cases gap with
  | nil => exact stops_cons rest hc
  | cons b gap =>
    have hb := h b List.mem_cons_self
    simp only [isSpace, Bool.or_eq_true, beq_iff_eq] at hb
    rcases hb with ((rfl | rfl) | rfl) | rfl
    all_goals exact stops_cons _ (by decide)

/--
A document is read from a text in front of anything that does not go on with a number. Two steps for
each character are enough. The text can stand behind the bracket that opens an array.
-/
structure ReadsAs (j : Json) (cs : List Char) : Prop where
  head : ∃ c rest, cs = c :: rest ∧ isSpace c = false ∧ c ≠ ']'
  read : ∀ fuel rest, Numeral.Stops rest → 2 * cs.length ≤ fuel →
    readValue fuel (cs ++ rest) = some (j, rest)

structure ItemsReadAs (vs : List Json) (cs : List Char) : Prop where
  stops : ∀ rest, Numeral.Stops (cs ++ rest)
  read : ∀ fuel rest, 2 * cs.length ≤ fuel → readItems fuel (cs ++ rest) = some (vs, rest)

structure FieldsReadAs (fields : List (String × Json)) (cs : List Char) : Prop where
  stops : ∀ rest, Numeral.Stops (cs ++ rest)
  read : ∀ fuel rest, 2 * cs.length ≤ fuel →
    readFields fuel (cs ++ rest) = some (some fields, rest)

variable {gap gap' cs ds : List Char} {v : Json} {vs : List Json} {fields : List (String × Json)}

theorem ReadsAs.read_gap (h : ReadsAs v cs) (hgap : Gap gap) {fuel : Nat} {rest : List Char}
    (hrest : Numeral.Stops rest) (hfuel : 2 * cs.length ≤ fuel) :
    readValue fuel (gap ++ (cs ++ rest)) = some (v, rest) := by
  rw [readValue_congr (skip_append hgap _), h.read fuel rest hrest hfuel]

theorem itemsReadAs_nil (hgap : Gap gap) : ItemsReadAs [] (gap ++ [']']) where
  stops rest := by
    rw [List.append_assoc]
    exact stops_gap_append hgap rest (by decide)
  read fuel rest hfuel := by
    obtain ⟨fuel, rfl⟩ : ∃ k, fuel = k + 1 := ⟨fuel - 1, by simp at hfuel; omega⟩
    rw [List.append_assoc, readItems, skip_append hgap]
    rfl

theorem itemsReadAs_cons (hgap : Gap gap) (hv : ReadsAs v cs) (hvs : ItemsReadAs vs ds) :
    ItemsReadAs (v :: vs) (',' :: gap ++ cs ++ ds) where
  stops rest := stops_cons _ (by decide)
  read fuel rest hfuel := by
    simp only [List.length_append, List.length_cons] at hfuel
    obtain ⟨fuel, rfl⟩ : ∃ k, fuel = k + 1 := ⟨fuel - 1, by omega⟩
    have hread := hv.read_gap hgap (hvs.stops rest) (show 2 * cs.length ≤ fuel by omega)
    simp only [List.cons_append, List.append_assoc, readItems, skip_cons (c := ',') rfl, hread,
      hvs.read fuel rest (by omega), Option.map_some]

theorem readField_gap (hgap : Gap gap) (hv : ReadsAs v cs) (k : String) {fuel : Nat}
    {rest : List Char} (hrest : Numeral.Stops rest) (hfuel : 2 * cs.length < fuel) :
    readField fuel (writeText k ++ ':' :: (gap ++ (cs ++ rest))) = some (some (k, v), rest) := by
  obtain ⟨fuel, rfl⟩ : ∃ k, fuel = k + 1 := ⟨fuel - 1, by omega⟩
  have hread := hv.read_gap hgap hrest (show 2 * cs.length ≤ fuel by omega)
  simp only [writeText, List.cons_append, List.append_assoc, readField, skip_cons (c := '"') rfl,
    List.nil_append, readText_flatMap, skip_cons (c := ':') rfl, hread, Option.map_some]
  simp

theorem fieldsReadAs_nil (hgap : Gap gap) : FieldsReadAs [] (gap ++ ['\x7d']) where
  stops rest := by
    rw [List.append_assoc]
    exact stops_gap_append hgap rest (by decide)
  read fuel rest hfuel := by
    obtain ⟨fuel, rfl⟩ : ∃ k, fuel = k + 1 := ⟨fuel - 1, by simp at hfuel; omega⟩
    rw [List.append_assoc, readFields, skip_append hgap]
    rfl

theorem fieldsReadAs_cons (hgap : Gap gap) (k : String) (hgap' : Gap gap') (hv : ReadsAs v cs)
    (hfields : FieldsReadAs fields ds) :
    FieldsReadAs ((k, v) :: fields) (',' :: gap ++ writeText k ++ ':' :: (gap' ++ cs) ++ ds) where
  stops rest := stops_cons _ (by decide)
  read fuel rest hfuel := by
    simp only [List.length_append, List.length_cons] at hfuel
    obtain ⟨fuel, rfl⟩ : ∃ k, fuel = k + 1 := ⟨fuel - 1, by omega⟩
    have hfield := readField_gap hgap' hv k (hfields.stops rest)
      (show 2 * cs.length < fuel by omega)
    simp only [List.cons_append, List.append_assoc, readFields, skip_cons (c := ',') rfl,
      readField_congr (skip_append hgap _), hfield, hfields.read fuel rest (by omega),
      Option.map_some]

theorem readsAs_arr (hgap : Gap gap) (hv : ReadsAs v cs) (hvs : ItemsReadAs vs ds) :
    ReadsAs (.arr (v :: vs)) ('[' :: gap ++ cs ++ ds) where
  head := ⟨_, _, rfl, rfl, by decide⟩
  read fuel rest _ hfuel := by
    simp only [List.length_append, List.length_cons] at hfuel
    obtain ⟨fuel, rfl⟩ : ∃ k, fuel = k + 1 := ⟨fuel - 1, by omega⟩
    have hread := hv.read fuel (ds ++ rest) (hvs.stops rest) (by omega)
    have hreads := hvs.read fuel rest (by omega)
    -- The first item does not start with a bracket that would close the array.
    obtain ⟨c, cs', rfl, hspace, hbracket⟩ := hv.head
    simp only [List.cons_append, List.append_assoc, readValue, skip_cons (c := '[') rfl,
      skip_append hgap, skip_cons hspace] at hread ⊢
    split
    · next heq => exact absurd (List.cons.inj heq).1 hbracket
    · simp only [hread, hreads, Option.map_some]

theorem readsAs_obj (hgap : Gap gap) (k : String) (hgap' : Gap gap') (hv : ReadsAs v cs)
    (hfields : FieldsReadAs fields ds) :
    ReadsAs (.obj ((k, v) :: fields))
      ('\x7b' :: gap ++ writeText k ++ ':' :: (gap' ++ cs) ++ ds) where
  head := ⟨_, _, rfl, rfl, by decide⟩
  read fuel rest _ hfuel := by
    simp only [List.length_append, List.length_cons] at hfuel
    obtain ⟨fuel, rfl⟩ : ∃ k, fuel = k + 1 := ⟨fuel - 1, by omega⟩
    have hfield := readField_gap hgap' hv k (hfields.stops rest)
      (show 2 * cs.length < fuel by omega)
    have hreads := hfields.read fuel rest (by omega)
    have hquote : writeText k = '"' :: (k.toList.flatMap writeChar ++ ['"']) := rfl
    rw [hquote] at hfield ⊢
    simp only [List.cons_append, List.append_assoc, readValue, skip_cons (c := '\x7b') rfl,
      skip_append hgap, skip_cons (c := '"') rfl] at hfield ⊢
    split
    · next heq => exact absurd (List.cons.inj heq).1 (by decide)
    · simp only [hfield, hreads, Option.map_some]

end Layout

section Forms

theorem readsAs_null : ReadsAs .null ['n', 'u', 'l', 'l'] where
  head := ⟨_, _, rfl, rfl, by decide⟩
  read fuel rest _ hfuel := by
    obtain ⟨fuel, rfl⟩ : ∃ k, fuel = k + 1 := ⟨fuel - 1, by simp at hfuel; omega⟩
    rfl

theorem readsAs_bool (b : Bool) : ReadsAs (.bool b) (write (.bool b)) where
  head := by
    cases b with
    | true => exact ⟨_, _, rfl, rfl, by decide⟩
    | false => exact ⟨_, _, rfl, rfl, by decide⟩
  read fuel rest _ hfuel := by
    obtain ⟨fuel, rfl⟩ : ∃ k, fuel = k + 1 :=
      ⟨fuel - 1, by cases b <;> simp [write] at hfuel <;> omega⟩
    cases b with
    | true => rfl
    | false => rfl

theorem readsAs_num {n : Numeral} (h : n.WellFormed) : ReadsAs (.num n) n.write where
  head := by
    obtain ⟨c, cs, hwrite, hc⟩ := exists_write_eq_cons h
    exact ⟨c, cs, hwrite, hc.isSpace_eq, hc.ne (by decide)⟩
  read fuel rest hrest hfuel := by
    obtain ⟨c, cs, hwrite, hc⟩ := exists_write_eq_cons h
    obtain ⟨fuel, rfl⟩ : ∃ k, fuel = k + 1 := ⟨fuel - 1, by simp [hwrite] at hfuel; omega⟩
    have hhead : ∀ d ∈ (n.write ++ rest).head?, IsNumeric d := by
      rw [hwrite]
      rintro d ⟨⟩
      exact hc
    rw [readValue_numeral hhead, Numeral.read_write h hrest, Option.map_some]

theorem readsAs_str (s : String) : ReadsAs (.str s) (writeText s) where
  head := ⟨_, _, rfl, rfl, by decide⟩
  read fuel rest _ hfuel := by
    obtain ⟨fuel, rfl⟩ : ∃ k, fuel = k + 1 := ⟨fuel - 1, by simp [writeText] at hfuel; omega⟩
    simp only [writeText, List.cons_append, List.append_assoc, List.nil_append, readValue,
      skip_cons (c := '"') rfl, readText_flatMap, String.ofList_toList]

theorem readsAs_arr_nil : ReadsAs (.arr []) ['[', ']'] where
  head := ⟨_, _, rfl, rfl, by decide⟩
  read fuel rest _ hfuel := by
    obtain ⟨fuel, rfl⟩ : ∃ k, fuel = k + 1 := ⟨fuel - 1, by simp at hfuel; omega⟩
    rfl

theorem readsAs_obj_nil : ReadsAs (.obj []) ['\x7b', '\x7d'] where
  head := ⟨_, _, rfl, rfl, by decide⟩
  read fuel rest _ hfuel := by
    obtain ⟨fuel, rfl⟩ : ∃ k, fuel = k + 1 := ⟨fuel - 1, by simp at hfuel; omega⟩
    rfl

theorem itemsReadAs_pretty {vs : List Json} (h : ∀ v ∈ vs, ∀ level, ReadsAs v (pretty level v))
    (level : Nat) : ItemsReadAs vs (prettyItems level vs) := by
  induction vs with
  | nil => exact itemsReadAs_nil (gap_newline level)
  | cons v vs ih =>
    exact itemsReadAs_cons (gap_newline _) (h v List.mem_cons_self (level + 1))
      (ih fun v' hv' => h v' (List.mem_cons_of_mem _ hv'))

theorem fieldsReadAs_pretty {fields : List (String × Json)}
    (h : ∀ field ∈ fields, ∀ level, ReadsAs field.2 (pretty level field.2)) (level : Nat) :
    FieldsReadAs fields (prettyFields level fields) := by
  induction fields with
  | nil => exact fieldsReadAs_nil (gap_newline level)
  | cons field fields ih =>
    obtain ⟨k, v⟩ := field
    exact fieldsReadAs_cons (gap_newline _) k gap_blank (h (k, v) List.mem_cons_self (level + 1))
      (ih fun field' hfield' => h field' (List.mem_cons_of_mem _ hfield'))

theorem Sound.readsAs_pretty {j : Json} (h : Sound j) (level : Nat) :
    ReadsAs j (pretty level j) := by
  induction h generalizing level with
  | null => exact readsAs_null
  | bool b =>
    cases b with
    | true => exact readsAs_bool true
    | false => exact readsAs_bool false
  | num hn => exact readsAs_num hn
  | str s => exact readsAs_str s
  | @arr items _ ih =>
    cases items with
    | nil => exact readsAs_arr_nil
    | cons v vs =>
      exact readsAs_arr (gap_newline _) (ih v List.mem_cons_self (level + 1))
        (itemsReadAs_pretty (fun v' hv' => ih v' (List.mem_cons_of_mem _ hv')) level)
  | @obj fields _ ih =>
    cases fields with
    | nil => exact readsAs_obj_nil
    | cons field fields =>
      obtain ⟨k, v⟩ := field
      exact readsAs_obj (gap_newline _) k gap_blank (ih (k, v) List.mem_cons_self (level + 1))
        (fieldsReadAs_pretty
          (fun field' hfield' => ih field' (List.mem_cons_of_mem _ hfield')) level)

theorem itemsReadAs_write {vs : List Json} (h : ∀ v ∈ vs, ReadsAs v (write v)) :
    ItemsReadAs vs (writeItems vs) := by
  induction vs with
  | nil => exact itemsReadAs_nil gap_nil
  | cons v vs ih =>
    exact itemsReadAs_cons gap_nil (h v List.mem_cons_self)
      (ih fun v' hv' => h v' (List.mem_cons_of_mem _ hv'))

theorem fieldsReadAs_write {fields : List (String × Json)}
    (h : ∀ field ∈ fields, ReadsAs field.2 (write field.2)) :
    FieldsReadAs fields (writeFields fields) := by
  induction fields with
  | nil => exact fieldsReadAs_nil gap_nil
  | cons field fields ih =>
    obtain ⟨k, v⟩ := field
    exact fieldsReadAs_cons gap_nil k gap_nil (h (k, v) List.mem_cons_self)
      (ih fun field' hfield' => h field' (List.mem_cons_of_mem _ hfield'))

theorem Sound.readsAs_write {j : Json} (h : Sound j) : ReadsAs j (write j) := by
  induction h with
  | null => exact readsAs_null
  | bool b => exact readsAs_bool b
  | num hn => exact readsAs_num hn
  | str s => exact readsAs_str s
  | @arr items _ ih =>
    cases items with
    | nil => exact readsAs_arr_nil
    | cons v vs =>
      exact readsAs_arr gap_nil (ih v List.mem_cons_self)
        (itemsReadAs_write fun v' hv' => ih v' (List.mem_cons_of_mem _ hv'))
  | @obj fields _ ih =>
    cases fields with
    | nil => exact readsAs_obj_nil
    | cons field fields =>
      obtain ⟨k, v⟩ := field
      exact readsAs_obj gap_nil k gap_nil (ih (k, v) List.mem_cons_self)
        (fieldsReadAs_write fun field' hfield' => ih field' (List.mem_cons_of_mem _ hfield'))

theorem ReadsAs.ofText? {j : Json} {cs : List Char} (h : ReadsAs j cs) :
    ofText? (String.ofList cs) = some j := by
  have hread := h.read (2 * cs.length + 2) [] Numeral.stops_nil (by omega)
  rw [List.append_nil] at hread
  unfold Json.ofText? Json.read
  rw [String.toList_ofList, hread]
  rfl

theorem ofText?_toPrettyText {j : Json} (h : Sound j) : ofText? j.toPrettyText = some j :=
  (h.readsAs_pretty 0).ofText?

theorem ofText?_toText {j : Json} (h : Sound j) : ofText? j.toText = some j :=
  h.readsAs_write.ofText?

end Forms

end ListKeeper.Json
