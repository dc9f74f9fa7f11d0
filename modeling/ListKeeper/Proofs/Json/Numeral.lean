import ListKeeper.Number.Shortest

/-!
This module contains that a well-formed number is read back from its characters, in front of
anything that does not go on with a number.
-/

namespace ListKeeper

namespace Text

theorem isDigit_digitChar {d : Nat} (h : d < 10) : (digitChar d).isDigit = true := by
  have hall : ∀ d, d < 10 → (digitChar d).isDigit = true := by decide
  exact hall d h

theorem digitValue_digitChar {d : Nat} (h : d < 10) : digitValue (digitChar d) = d := by
  have hall : ∀ d, d < 10 → digitValue (digitChar d) = d := by decide
  exact hall d h

theorem isDigit_of_mem_digits {n : Nat} {c : Char} (h : c ∈ digits n) : c.isDigit = true := by
  induction n using digits.induct with
  | case1 n hn =>
    rw [digits, if_pos hn, List.mem_singleton] at h
    rw [h]
    exact isDigit_digitChar hn
  | case2 n hn ih =>
    rw [digits, if_neg hn, List.mem_append, List.mem_singleton] at h
    rcases h with h | h
    · exact ih h
    · rw [h]
      exact isDigit_digitChar (by omega)

theorem digits_ne_nil (n : Nat) : digits n ≠ [] := by
  rw [digits]
  split
  · simp
  · simp

theorem digitsValue_digits (n : Nat) : digitsValue (digits n) = n := by
  induction n using digits.induct with
  | case1 n hn =>
    rw [digits, if_pos hn]
    simp [digitsValue, digitValue_digitChar hn]
  | case2 n hn ih =>
    rw [digits, if_neg hn]
    unfold digitsValue at ih ⊢
    rw [List.foldl_append, ih, List.foldl_cons, List.foldl_nil, digitValue_digitChar (by omega)]
    omega

theorem eq_nil_of_digits {n : Nat} {rest : List Char} (h : digits n = '0' :: rest) : rest = [] := by
  induction n using digits.induct generalizing rest with
  | case1 n hn =>
    rw [digits, if_pos hn] at h
    exact (List.cons.inj h).2.symm
  | case2 n hn ih =>
    rw [digits, if_neg hn] at h
    cases hhigh : digits (n / 10) with
    | nil => exact absurd hhigh (digits_ne_nil _)
    | cons c ds =>
      rw [hhigh, List.cons_append] at h
      obtain ⟨rfl, _⟩ := List.cons.inj h
      -- The digits but the last are those of a number that is not zero.
      have hzero := digitsValue_digits (n / 10)
      rw [hhigh, ih hhigh] at hzero
      have : digitsValue ['0'] = 0 := rfl
      omega

def NoDigit (cs : List Char) : Prop :=
  ∀ c ∈ cs.head?, c.isDigit = false

theorem takeDigits_append {ds rest : List Char} (hds : ∀ c ∈ ds, c.isDigit = true)
    (hrest : NoDigit rest) : takeDigits (ds ++ rest).length (ds ++ rest) = (ds, rest) := by
  have hnone : rest.takeWhile Char.isDigit = [] := by
    cases rest with
    | nil => rfl
    | cons c rest => rw [List.takeWhile_cons_of_neg (by simp [hrest c rfl])]
  unfold takeDigits
  rw [List.take_length, List.takeWhile_append_of_pos hds, hnone, List.append_nil]
  exact congrArg (Prod.mk ds) List.drop_left

end Text

namespace Numeral

open Text

structure Digital (n : Numeral) : Prop where
  whole : ∀ c ∈ n.whole, c.isDigit = true
  fraction : ∀ c ∈ n.fraction, c.isDigit = true

structure WellFormed (n : Numeral) : Prop extends Digital n where
  whole_ne_nil : n.whole ≠ []
  leading : ∀ rest, n.whole = '0' :: rest → rest = []

structure Stops (rest : List Char) : Prop where
  digit : NoDigit rest
  point : rest.head? ≠ some '.'
  power : rest.head? ≠ some 'e' ∧ rest.head? ≠ some 'E'
  sign : rest.head? ≠ some '-'

theorem stops_nil : Stops [] := by
  refine ⟨?_, ?_, ⟨?_, ?_⟩, ?_⟩
  · rintro c ⟨⟩
  · simp
  · simp
  · simp
  · simp

def writeFraction (n : Numeral) : List Char :=
  if n.fraction.isEmpty then [] else '.' :: n.fraction

def writeExponent (n : Numeral) : List Char :=
  match n.exponent with
  | none => []
  | some e => 'e' :: (if e < 0 then '-' else '+') :: digits e.natAbs

theorem write_eq (n : Numeral) :
    n.write = (if n.negative then ['-'] else []) ++ n.whole ++ n.writeFraction ++
      n.writeExponent := rfl

theorem noDigit_writeExponent (n : Numeral) {rest : List Char} (hrest : Stops rest) :
    NoDigit (n.writeExponent ++ rest) := by
  unfold writeExponent
  split
  · exact hrest.digit
  · rintro c ⟨⟩
    rfl

theorem noDigit_writeFraction (n : Numeral) {rest : List Char} (hrest : Stops rest) :
    NoDigit (n.writeFraction ++ (n.writeExponent ++ rest)) := by
  unfold writeFraction
  split
  · exact n.noDigit_writeExponent hrest
  · rintro c ⟨⟩
    rfl

theorem readWhole_write {n : Numeral} (h : n.WellFormed) {rest : List Char}
    (hrest : NoDigit rest) : readWhole (n.whole ++ rest) = some (n.whole, rest) := by
  have htake := takeDigits_append h.whole hrest
  have hne := h.whole_ne_nil
  have hleading := h.leading
  cases hwhole : n.whole with
  | nil => exact absurd hwhole hne
  | cons c cs =>
    rw [hwhole] at htake
    unfold readWhole
    split
    · next heq =>
      cases heq
      rw [hleading cs hwhole]
      rfl
    · rw [htake]

theorem readFraction_none {cs : List Char} (h : cs.head? ≠ some '.') :
    readFraction cs = some ([], cs) := by
  unfold readFraction
  split
  · exact absurd rfl h
  · rfl

theorem readExponent_none {cs : List Char} (h : cs.head? ≠ some 'e') (h' : cs.head? ≠ some 'E') :
    readExponent cs = some (none, cs) := by
  unfold readExponent
  split
  · exact absurd rfl h
  · exact absurd rfl h'
  · rfl

theorem readFraction_write {n : Numeral} (h : n.Digital) {rest : List Char} (hrest : NoDigit rest)
    (hpoint : rest.head? ≠ some '.') :
    readFraction (n.writeFraction ++ rest) = some (n.fraction, rest) := by
  have htake := takeDigits_append h.fraction hrest
  unfold writeFraction
  cases hfraction : n.fraction with
  | nil =>
    simp only [List.isEmpty_nil, if_true, List.nil_append]
    exact readFraction_none hpoint
  | cons c cs =>
    rw [hfraction] at htake
    simp only [List.isEmpty_cons, Bool.false_eq_true, if_false, List.cons_append, readFraction]
    simp only [List.cons_append] at htake
    rw [htake]

theorem readPower_digits (negative : Bool) (k : Nat) {rest : List Char} (hrest : NoDigit rest) :
    readPower negative (digits k ++ rest) = some (some (if negative then -(k : Int) else k), rest) := by
  unfold readPower
  rw [takeDigits_append (fun _ => isDigit_of_mem_digits) hrest]
  split
  · next heq => exact absurd (congrArg Prod.fst heq) (digits_ne_nil k)
  · next heq =>
    cases heq
    rw [digitsValue_digits]

theorem readExponent_write (n : Numeral) {rest : List Char} (hrest : Stops rest) :
    readExponent (n.writeExponent ++ rest) = some (n.exponent, rest) := by
  unfold writeExponent
  cases hexponent : n.exponent with
  | none => exact readExponent_none hrest.power.1 hrest.power.2
  | some e =>
    simp only [List.cons_append]
    by_cases he : e < 0
    · simp only [he, if_true, readExponent]
      rw [readPower_digits true _ hrest.digit]
      simp only [if_true, Option.some.injEq, Prod.mk.injEq, and_true]
      omega
    · simp only [he, if_false, readExponent]
      rw [readPower_digits false _ hrest.digit]
      simp only [Bool.false_eq_true, if_false, Option.some.injEq, Prod.mk.injEq, and_true]
      omega

theorem head?_writeExponent_ne {n : Numeral} {rest : List Char} (hrest : Stops rest) :
    (n.writeExponent ++ rest).head? ≠ some '.' := by
  unfold writeExponent
  split
  · exact hrest.point
  · simp

def readMagnitude (negative : Bool) (cs : List Char) : Option (Numeral × List Char) := do
  let (whole, cs) ← readWhole cs
  let (fraction, cs) ← readFraction cs
  let (exponent, cs) ← readExponent cs
  return (⟨negative, whole, fraction, exponent⟩, cs)

theorem read_sign (negative : Bool) {cs : List Char} (h : cs.head? ≠ some '-') :
    read ((if negative then ['-'] else []) ++ cs) = readMagnitude negative cs := by
  cases negative with
  | true => rfl
  | false =>
    simp only [Bool.false_eq_true, if_false, List.nil_append, read]
    split
    · exact absurd rfl h
    · rfl

theorem write_append (n : Numeral) (rest : List Char) :
    n.write ++ rest = (if n.negative then ['-'] else []) ++
      (n.whole ++ (n.writeFraction ++ (n.writeExponent ++ rest))) := by
  rw [write_eq]
  simp only [List.append_assoc]

theorem read_write_eq {n : Numeral} (h : n.Digital) {rest : List Char} (hrest : Stops rest) :
    read (n.write ++ rest) = readMagnitude n.negative
      (n.whole ++ (n.writeFraction ++ (n.writeExponent ++ rest))) := by
  rw [write_append]
  apply read_sign
  have hdigits := h.whole
  cases hwhole : n.whole with
  | nil =>
    unfold writeFraction writeExponent
    cases n.fraction with
    | nil =>
      cases n.exponent with
      | none => exact hrest.sign
      | some e => simp
    | cons c cs => simp
  | cons c cs =>
    rw [hwhole] at hdigits
    rintro ⟨⟩
    exact absurd (hdigits '-' List.mem_cons_self) (by decide)

theorem read_write {n : Numeral} (h : n.WellFormed) {rest : List Char} (hrest : Stops rest) :
    read (n.write ++ rest) = some (n, rest) := by
  rw [read_write_eq h.toDigital hrest]
  unfold readMagnitude
  rw [readWhole_write h (n.noDigit_writeFraction hrest)]
  simp only [Option.bind_eq_bind, Option.bind_some]
  rw [readFraction_write h.toDigital (n.noDigit_writeExponent hrest) (head?_writeExponent_ne hrest)]
  simp only [Option.bind_some]
  rw [readExponent_write n hrest]
  rfl

theorem readWhole_of_noDigit {cs : List Char} (h : NoDigit cs) : readWhole cs = none := by
  unfold readWhole
  split
  · exact absurd (h '0' rfl) (by decide)
  · have htake := takeDigits_append (show ∀ c ∈ ([] : List Char), c.isDigit = true by simp) h
    rw [List.nil_append] at htake
    rw [htake]

theorem wellFormed_of_read {n m : Numeral} (h : n.Digital) {rest : List Char}
    (hread : read n.write = some (m, rest)) (hrest : NoDigit rest) : n.WellFormed := by
  have heq := read_write_eq h stops_nil
  rw [List.append_nil, hread] at heq
  unfold readMagnitude at heq
  have hnoDigit := n.noDigit_writeFraction stops_nil
  refine ⟨h, ?_, ?_⟩
  · intro hwhole
    rw [hwhole, List.nil_append, readWhole_of_noDigit hnoDigit] at heq
    contradiction
  · intro ds hwhole
    cases ds with
    | nil => rfl
    | cons d ds =>
      -- The digits behind a leading zero are left over.
      exfalso
      have hdigit : d.isDigit = true := h.whole d (by simp [hwhole])
      have hhead {c : Char} (hc : c.isDigit = false) :
          (d :: (ds ++ (n.writeFraction ++ (n.writeExponent ++ [])))).head? ≠ some c := by
        rintro ⟨⟩
        rw [hc] at hdigit
        contradiction
      rw [hwhole] at heq
      simp only [List.cons_append, readWhole, Option.bind_eq_bind, Option.bind_some] at heq
      rw [readFraction_none (hhead rfl)] at heq
      simp only [Option.bind_some] at heq
      rw [readExponent_none (hhead rfl) (hhead rfl)] at heq
      cases heq
      rw [hrest d rfl] at hdigit
      contradiction

theorem wellFormed_ofNat (n : Nat) : (ofNat n).WellFormed where
  whole _ := isDigit_of_mem_digits
  fraction _ hc := absurd hc List.not_mem_nil
  whole_ne_nil := digits_ne_nil n
  leading _ := eq_nil_of_digits

theorem toInt?_ofNat {n : Nat} (h : n < UInt64.size) : (ofNat n).toInt? = some (n : Int) := by
  simp [toInt?, ofNat, digitsValue_digits, h]

end Numeral

namespace Double

open Text

theorem isDigit_of_mem_shortestDigits {magnitude : Nat} {c : Char}
    (h : c ∈ (shortestDigits magnitude).1) : c.isDigit = true := by
  unfold shortestDigits at h
  have hmem := (List.dropWhile_sublist _).subset (List.mem_reverse.1 h)
  exact isDigit_of_mem_digits (List.mem_reverse.1 hmem)

theorem Layout.digital_place (l : Layout) (negative : Bool) {ds : List Char} (power : Int)
    (h : ∀ c ∈ ds, c.isDigit = true) : (l.place negative ds power).Digital := by
  have hzeros (k : Nat) : ∀ c ∈ List.replicate k '0', c.isDigit = true := by
    intro c hc
    rw [List.eq_of_mem_replicate hc]
    rfl
  have htake (k : Nat) : ∀ c ∈ ds.take k, c.isDigit = true := fun c hc => h c (List.mem_of_mem_take hc)
  have hdrop (k : Nat) : ∀ c ∈ ds.drop k, c.isDigit = true := fun c hc => h c (List.mem_of_mem_drop hc)
  unfold Layout.place
  split
  · split
    · constructor
      · exact hzeros 1
      · intro c hc
        rcases List.mem_append.1 hc with hc | hc
        · exact hzeros _ c hc
        · exact h c hc
    · constructor
      · intro c hc
        rcases List.mem_append.1 hc with hc | hc
        · exact htake _ c hc
        · exact hzeros _ c hc
      · intro c hc
        dsimp only at hc
        split at hc
        · exact hzeros 1 c hc
        · exact hdrop _ c hc
  · exact ⟨htake 1, hdrop 1⟩

theorem digital_toNumeral (x : Double) : x.toNumeral.Digital := by
  unfold toNumeral
  split
  · constructor
    · simp
    · simp
  · exact Layout.digital_place _ _ _ fun _ => isDigit_of_mem_shortestDigits

end Double
end ListKeeper
