import ListKeeper.Proofs.Filtering

/-!
This module contains when searching finds what is literally there. Query and text are lower-cased
apart from each other, so what stands around a capital sigma in the text may give it another form
than it has in the query. Searching finds all literal matches of exactly those queries in which this
cannot happen.
-/

namespace ListKeeper

namespace Text

section Between

def imageAmid (before after : List Char) (c : Char) : List Char :=
  if c == 'Σ' then
    if endsWord before after then ['ς'] else ['σ']
  else
    lowerChar c

def lowerAmid (before after : List Char) : List Char → List Char
  | [] => []
  | c :: rest => imageAmid before (rest ++ after) c ++ lowerAmid (c :: before) after rest

theorem lowerAfter_append (before cs after : List Char) :
    lowerAfter before (cs ++ after) =
      lowerAmid before after cs ++ lowerAfter (cs.reverse ++ before) after := by
  induction cs generalizing before with
  | nil => rfl
  | cons c rest ih => simp [lowerAfter, lowerAmid, imageAmid, ih]

theorem lower_append_append (before cs after : List Char) :
    lower (before ++ cs ++ after) =
      lowerAmid [] (cs ++ after) before ++ lowerAmid before.reverse after cs ++
        lowerAfter (cs.reverse ++ before.reverse) after := by
  unfold lower
  rw [List.append_assoc, lowerAfter_append, List.append_nil, lowerAfter_append, List.append_assoc]

theorem lower_eq_lowerAmid (cs : List Char) : lower cs = lowerAmid [] [] cs := by
  have happend := lowerAfter_append [] cs []
  rwa [List.append_nil, lowerAfter, List.append_nil] at happend

theorem lowerAmid_append (before after us vs : List Char) :
    lowerAmid before after (us ++ vs) =
      lowerAmid before (vs ++ after) us ++ lowerAmid (us.reverse ++ before) after vs := by
  induction us generalizing before with
  | nil => rfl
  | cons u us ih => simp [lowerAmid, ih]

theorem length_lowerAmid (before after before' after' cs : List Char) :
    (lowerAmid before after cs).length = (lowerAmid before' after' cs).length := by
  induction cs generalizing before before' with
  | nil => rfl
  | cons c rest ih =>
    have himage : (imageAmid before (rest ++ after) c).length =
        (imageAmid before' (rest ++ after') c).length := by
      unfold imageAmid
      grind
    rw [lowerAmid, lowerAmid, List.length_append, List.length_append, himage, ih]

end Between

section Sigma

theorem meetsCased_append (us vs : List Char) :
    meetsCased (us ++ vs) =
      if us.all isCaseIgnorable then meetsCased vs else meetsCased us := by
  induction us with
  | nil => rfl
  | cons u us ih =>
    unfold meetsCased at ih ⊢
    cases hu : isCaseIgnorable u with
    | true => simpa [List.dropWhile_cons, hu] using ih
    | false => simp [hu]

theorem meetsCased_of_all (us : List Char) (h : us.all isCaseIgnorable = true) :
    meetsCased us = false := by
  have happend := meetsCased_append us []
  rw [if_pos h, List.append_nil] at happend
  exact happend

def Exposed (us vs : List Char) : Prop :=
  us.all isCaseIgnorable = true ∧ meetsCased vs = false ∨
    meetsCased us.reverse = true ∧ vs.all isCaseIgnorable = true

def HasExposedSigma (cs : List Char) : Prop :=
  ∃ us vs, cs = us ++ 'Σ' :: vs ∧ Exposed us vs

theorem endsWord_of_not_exposed {us vs : List Char} (h : ¬ Exposed us vs)
    (before after : List Char) :
    endsWord (us.reverse ++ before) (vs ++ after) = endsWord us.reverse vs := by
  unfold Exposed at h
  unfold endsWord
  rw [meetsCased_append, meetsCased_append, List.all_reverse]
  have hus := meetsCased_of_all us.reverse
  have hvs := meetsCased_of_all vs
  rw [List.all_reverse] at hus
  grind

theorem lowerAmid_of_not_exposed (us : List Char) {vs : List Char}
    (h : ¬ HasExposedSigma (us ++ vs)) (before after : List Char) :
    lowerAmid (us.reverse ++ before) after vs = lowerAmid us.reverse [] vs := by
  induction vs generalizing us with
  | nil => rfl
  | cons v vs ih =>
    have himage : imageAmid (us.reverse ++ before) (vs ++ after) v =
        imageAmid us.reverse (vs ++ []) v := by
      unfold imageAmid
      split
      · next hv =>
        rw [beq_iff_eq] at hv
        subst hv
        rw [List.append_nil, endsWord_of_not_exposed fun hex => h ⟨us, vs, rfl, hex⟩]
      · rfl
    have hrest := ih (us ++ [v]) (by simpa using h)
    rw [List.reverse_append] at hrest
    rw [lowerAmid, lowerAmid, himage]
    exact congrArg _ hrest

theorem lower_infix_lower {cs text : List Char} (h : ¬ HasExposedSigma cs) (hpart : cs <:+: text) :
    lower cs <:+: lower text := by
  obtain ⟨before, after, rfl⟩ := hpart
  have hamid : lowerAmid before.reverse after cs = lower cs :=
    (lowerAmid_of_not_exposed [] h before.reverse after).trans (lower_eq_lowerAmid cs).symm
  rw [lower_append_append, hamid]
  exact List.infix_append _ _ _

/--
A letter that is its own image, and that ends the search for the neighbours of a sigma.
-/
structure Letter (c : Char) : Prop where
  image : ∀ before after, imageAmid before after c = [c]
  meets : ∀ rest, meetsCased (c :: rest) = true

theorem letter_of_cased {c : Char} (himage : ∀ before after, imageAmid before after c = [c])
    (hcased : isCased c = true) (hignorable : isCaseIgnorable c = false) : Letter c where
  image := himage
  meets rest := by simp [meetsCased, hcased, hignorable]

theorem letter_a : Letter 'a' :=
  letter_of_cased (fun _ _ => rfl) (by decide +kernel) (by decide +kernel)

theorem letter_b : Letter 'b' :=
  letter_of_cased (fun _ _ => rfl) (by decide +kernel) (by decide +kernel)

theorem Letter.lower_cons {c : Char} (h : Letter c) (cs : List Char) :
    lower (c :: cs) = c :: lowerAmid [c] [] cs := by
  have happend := lower_append_append [c] cs []
  simpa [lowerAmid, lowerAfter, h.image] using happend

theorem Letter.lower_concat {c : Char} (h : Letter c) (cs : List Char) :
    lower (cs ++ [c]) = lowerAmid [] [c] cs ++ [c] := by
  have happend := lower_append_append [] cs [c]
  have hlast : lowerAfter cs.reverse [c] = [c] := (List.append_nil _).trans (h.image _ _)
  simpa [lowerAmid, hlast] using happend

theorem exists_letter (o : Option Char) : ∃ c, Letter c ∧ o ≠ some c := by
  by_cases ha : o = some 'a'
  · exact ⟨'b', letter_b, by simp [ha]⟩
  · exact ⟨'a', letter_a, ha⟩

theorem lowerAmid_ne_lower {us vs before after : List Char}
    (h : endsWord (us.reverse ++ before) (vs ++ after) ≠ endsWord us.reverse vs) :
    lowerAmid before after (us ++ 'Σ' :: vs) ≠ lower (us ++ 'Σ' :: vs) := by
  intro heq
  rw [lower_eq_lowerAmid, lowerAmid_append, lowerAmid_append] at heq
  -- What stands before the sigma has images of one length, so the two forms of it meet.
  have hsigma := List.append_inj_right heq (length_lowerAmid ..)
  simp only [lowerAmid, imageAmid, List.append_nil] at hsigma
  cases hleft : endsWord (us.reverse ++ before) (vs ++ after) with
  | false =>
    have hright : endsWord us.reverse vs = true := by grind
    simp [hleft, hright] at hsigma
  | true =>
    have hright : endsWord us.reverse vs = false := by grind
    simp [hleft, hright] at hsigma

theorem eq_of_infix_cons {as bs : List Char} {c : Char} (hlength : as.length = bs.length)
    (hhead : as.head? ≠ some c) (h : as <:+: c :: bs) : as = bs := by
  rcases List.infix_cons_iff.1 h with hfront | hpart
  · cases as with
    | nil => exact (List.length_eq_zero_iff.1 hlength.symm).symm
    | cons a as => exact absurd (congrArg some (List.cons_prefix_cons.1 hfront).1) hhead
  · exact hpart.eq_of_length hlength

theorem eq_of_infix_concat {as bs : List Char} {c : Char} (hlength : as.length = bs.length)
    (hlast : as.getLast? ≠ some c) (h : as <:+: bs ++ [c]) : as = bs := by
  rw [← List.reverse_infix, List.reverse_append] at h
  have hreverse := eq_of_infix_cons (by simpa using hlength) (by simpa using hlast) h
  exact List.reverse_injective hreverse

theorem exists_not_infix {cs : List Char} (h : HasExposedSigma cs) :
    ∃ text, cs <:+: text ∧ ¬ lower cs <:+: lower text := by
  obtain ⟨us, vs, rfl, ⟨hus, hvs⟩ | ⟨hus, hvs⟩⟩ := h
  · obtain ⟨c, hletter, hhead⟩ := exists_letter (lower (us ++ 'Σ' :: vs)).head?
    have hends : endsWord (us.reverse ++ [c]) (vs ++ []) ≠ endsWord us.reverse vs := by
      simp [endsWord, meetsCased_append, List.all_reverse, hus, hvs, hletter.meets,
        meetsCased_of_all us.reverse]
    refine ⟨c :: (us ++ 'Σ' :: vs), List.infix_cons List.infix_rfl, ?_⟩
    rw [hletter.lower_cons]
    intro hpart
    have hlength := length_lowerAmid [] [] [c] [] (us ++ 'Σ' :: vs)
    rw [← lower_eq_lowerAmid] at hlength
    exact lowerAmid_ne_lower hends (eq_of_infix_cons hlength hhead hpart).symm
  · obtain ⟨c, hletter, hlast⟩ := exists_letter (lower (us ++ 'Σ' :: vs)).getLast?
    have hends : endsWord (us.reverse ++ []) (vs ++ [c]) ≠ endsWord us.reverse vs := by
      simp [endsWord, meetsCased_append, hus, hvs, hletter.meets, meetsCased_of_all vs]
    refine ⟨us ++ 'Σ' :: vs ++ [c], (List.prefix_append _ _).isInfix, ?_⟩
    rw [hletter.lower_concat]
    intro hpart
    have hlength := length_lowerAmid [] [] [] [c] (us ++ 'Σ' :: vs)
    rw [← lower_eq_lowerAmid] at hlength
    exact lowerAmid_ne_lower hends (eq_of_infix_concat hlength hlast hpart).symm

end Sigma

end Text

namespace Criteria

def Quoted (query : String) (list : Checklist) : Prop :=
  Text.trim query.toList <:+: list.name.toList ∨
    ∃ description, list.description = some description ∧
      Text.trim query.toList <:+: description.toList

def searching (query : String) (order : Order) : Criteria :=
  { initial with query := some query, order := order }

theorem accepts_searching (query : String) (order : Order) (now : Timestamp) (list : Checklist) :
    (searching query order).accepts now list = true ↔ Mentioned query list := by
  rw [← mentions_iff]
  simp [accepts, searching, initial]

theorem mem_view_iff (c : Criteria) (now : Timestamp) {lists : List Checklist} {list : Checklist} :
    list ∈ c.view now lists ↔ list ∈ lists ∧ c.accepts now list = true := by
  rw [view_eq_filter, List.mem_filter, mem_view_unfiltered]

theorem view?_searching (query : String) (order : Order) (now : Timestamp)
    (lists : List Checklist) :
    (searching query order).view? now lists = some ((searching query order).view now lists) := by
  apply view?_of_forall
  intro list _
  rw [Ne, accepts?_eq_none_iff]
  rintro ⟨⟨⟨⟩, _⟩, _⟩

/--
Searching for a query shows all lists in which it is quoted, whatever the order, the time and the
other lists, if and only if it has no capital sigma that could take another form in a longer text.
-/
theorem search_findsQuoted_iff (query : String) :
    (∀ list, Quoted query list → ∀ order now lists, list ∈ lists →
      ∃ view, (searching query order).view? now lists = some view ∧ list ∈ view) ↔
    ¬ Text.HasExposedSigma (Text.trim query.toList) := by
  constructor
  · intro h hexposed
    obtain ⟨text, hpart, hnot⟩ := Text.exists_not_infix hexposed
    let list := Checklist.create "" (String.ofList text) .epoch
    have hname : list.name.toList = text := String.toList_ofList
    have hquoted : Quoted query list := .inl (hname ▸ hpart)
    obtain ⟨view, hview, hlist⟩ := h list hquoted .createdNewest .epoch [list] (by simp)
    rw [view?_searching, Option.some.injEq] at hview
    rw [← hview, mem_view_iff, accepts_searching] at hlist
    rcases hlist.2 with hmentioned | ⟨_, ⟨⟩, _⟩
    exact hnot (hname ▸ hmentioned)
  · intro h list hquoted order now lists hlist
    refine ⟨_, view?_searching query order now lists, ?_⟩
    rw [mem_view_iff, accepts_searching]
    refine ⟨hlist, ?_⟩
    rcases hquoted with hname | ⟨description, hdescription, hpart⟩
    · exact .inl (Text.lower_infix_lower h hname)
    · exact .inr ⟨description, hdescription, Text.lower_infix_lower h hpart⟩

/--
The sigma that ends the query as a word stands inside a word of the name.
-/
theorem search_hides_quoted :
    let list := Checklist.create "L1" "ΜΟΥΣΕΙΑ" .epoch
    Quoted "ΜΟΥΣ" list ∧ (searching "ΜΟΥΣ" .createdNewest).view? .epoch [list] = some [] := by
  constructor
  · exact .inl (by decide +kernel)
  · decide +kernel

end Criteria
end ListKeeper
