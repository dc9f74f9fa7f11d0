import ListKeeper.Storage.Disk

/-!
This module contains where written paths lead, by their names alone, and that the file in which a
new text is prepared stands at another place than the file it is for.
-/

namespace ListKeeper

namespace Path

theorem split_cons_slash (cs : List Char) : split ('/' :: cs) = [] :: split cs := rfl

theorem split_cons {c : Char} (h : c ≠ '/') {cs part : List Char} {parts : List (List Char)}
    (hcs : split cs = part :: parts) : split (c :: cs) = (c :: part) :: parts := by
  unfold split at hcs ⊢
  rw [List.foldr_cons, hcs]
  split
  · exact absurd rfl h
  · next heq =>
    cases heq
    rfl
  · contradiction

theorem exists_split_eq (cs : List Char) : ∃ part parts, split cs = part :: parts := by
  induction cs with
  | nil => exact ⟨[], [], rfl⟩
  | cons c cs ih =>
    obtain ⟨part, parts, hcs⟩ := ih
    by_cases h : c = '/'
    · rw [h, split_cons_slash]
      exact ⟨_, _, rfl⟩
    · exact ⟨_, _, split_cons h hcs⟩

theorem split_append_slash (cs ds : List Char) : split (cs ++ '/' :: ds) = split cs ++ split ds := by
  induction cs with
  | nil => rfl
  | cons c cs ih =>
    by_cases h : c = '/'
    · rw [h, List.cons_append, split_cons_slash, split_cons_slash, ih, List.cons_append]
    · obtain ⟨part, parts, hcs⟩ := exists_split_eq cs
      rw [hcs, List.cons_append] at ih
      rw [List.cons_append, split_cons h ih, split_cons h hcs, List.cons_append]

theorem split_of_notMem {cs : List Char} (h : '/' ∉ cs) : split cs = [cs] := by
  induction cs with
  | nil => rfl
  | cons c cs ih =>
    rw [List.mem_cons, not_or] at h
    exact split_cons (Ne.symm h.1) (ih h.2)

theorem slash_notMem_of_mem_split {cs part : List Char} (h : part ∈ split cs) : '/' ∉ part := by
  induction cs generalizing part with
  | nil =>
    rw [List.mem_singleton.1 h]
    exact List.not_mem_nil
  | cons c cs ih =>
    by_cases hc : c = '/'
    · rw [hc, split_cons_slash] at h
      rcases List.mem_cons.1 h with rfl | h
      · exact List.not_mem_nil
      · exact ih h
    · obtain ⟨first, parts, hcs⟩ := exists_split_eq cs
      rw [split_cons hc hcs] at h
      rw [hcs] at ih
      rcases List.mem_cons.1 h with rfl | h
      · rw [List.mem_cons, not_or]
        exact ⟨Ne.symm hc, ih List.mem_cons_self⟩
      · exact ih (List.mem_cons_of_mem _ h)

def namesOf (parts : List (List Char)) : List String :=
  (parts.filter (!·.isEmpty)).map String.ofList

theorem names_eq (path : String) : names path = namesOf (split path.toList) := rfl

theorem namesOf_append (parts parts' : List (List Char)) :
    namesOf (parts ++ parts') = namesOf parts ++ namesOf parts' := by
  unfold namesOf
  rw [List.filter_append, List.map_append]

theorem namesOf_singleton {part : List Char} (h : part ≠ []) :
    namesOf [part] = [String.ofList part] := by
  unfold namesOf
  rw [List.filter_cons_of_pos (by simpa using h)]
  rfl

theorem names_join {dir name : String} (hname : name.toList ≠ []) (hslash : '/' ∉ name.toList) :
    names (join dir name) = names dir ++ [name] := by
  have hlast : namesOf (split name.toList) = [name] := by
    rw [split_of_notMem hslash, namesOf_singleton hname, String.ofList_toList]
  rw [names_eq, names_eq]
  unfold join
  split
  · next h =>
    rw [String.toList_append]
    rcases Bool.or_eq_true_iff.1 h with hempty | hclosed
    · have hnil : dir.toList = [] := by simpa using hempty
      rw [hnil, List.nil_append, hlast]
      rfl
    · obtain ⟨cs, hcs⟩ : ∃ cs, dir.toList = cs ++ ['/'] := by
        rw [beq_iff_eq, List.getLast?_eq_some_iff] at hclosed
        exact hclosed
      have hdir : namesOf (split (cs ++ ['/'])) = namesOf (split cs) := by
        rw [split_append_slash, namesOf_append]
        exact List.append_nil _
      rw [hcs, hdir, List.append_assoc, List.singleton_append, split_append_slash, namesOf_append,
        hlast]
  · have htext : (dir ++ "/" ++ name).toList = dir.toList ++ '/' :: name.toList := by
      rw [String.toList_append, String.toList_append, List.append_assoc]
      rfl
    rw [htext, split_append_slash, namesOf_append, hlast]

theorem dropSilent_eq {parts rest : List (List Char)} {part : List Char}
    (h : dropSilent parts = part :: rest) :
    ∃ silent, parts = silent ++ part :: rest ∧ ∀ s ∈ silent, isSilent s = true := by
  induction parts using dropSilent.induct with
  | case1 => contradiction
  | case2 first => exact ⟨[], h, by simp⟩
  | case3 first rest' hne hsilent ih =>
    rw [dropSilent, if_pos hsilent] at h
    · obtain ⟨silent, hparts, hall⟩ := ih h
      refine ⟨first :: silent, by rw [hparts]; rfl, ?_⟩
      intro s hs
      rcases List.mem_cons.1 hs with rfl | hs
      · exact hsilent
      · exact hall s hs
    · exact hne
  | case4 first rest' hne hsilent =>
    rw [dropSilent, if_neg hsilent] at h
    · exact ⟨[], h, by simp⟩
    · exact hne

theorem eq_dot_of_mem_namesOf {silent : List (List Char)}
    (h : ∀ s ∈ silent, isSilent s = true) {name : String} (hname : name ∈ namesOf silent) :
    name = "." := by
  obtain ⟨part, hpart, rfl⟩ := List.mem_map.1 hname
  rw [List.mem_filter] at hpart
  have hsilent := h part hpart.1
  unfold isSilent at hsilent
  rcases Bool.or_eq_true_iff.1 hsilent with hempty | hdot
  · rw [hempty] at hpart
    exact absurd hpart.2 (by simp)
  · rw [beq_iff_eq.1 hdot]

theorem names_of_fileName? {path file : String} (h : fileName? path = some file) :
    ∃ before dots, names path = before ++ file :: dots ∧ (∀ dot ∈ dots, dot = ".") ∧
      file ≠ "." ∧ file ≠ ".." ∧ '/' ∉ file.toList := by
  unfold fileName? at h
  split at h
  · contradiction
  · next part rest hparts =>
    split at h
    · contradiction
    · next hname =>
      cases h
      rw [Bool.or_eq_true, not_or] at hname
      obtain ⟨silent, hsplit, hsilent⟩ := dropSilent_eq hparts
      rw [List.reverse_eq_iff, List.reverse_append, List.reverse_cons] at hsplit
      have hne : part ≠ [] := by
        rintro rfl
        exact hname.1 rfl
      refine ⟨namesOf rest.reverse, namesOf silent.reverse, ?_, ?_, ?_, ?_, ?_⟩
      · rw [names_eq, hsplit, namesOf_append, namesOf_append, namesOf_singleton hne]
        simp
      · intro dot hdot
        exact eq_dot_of_mem_namesOf (by simpa using hsilent) hdot
      · intro hdot
        have hpart : part = ['.'] := by
          rw [← String.toList_ofList (l := part), hdot]
          rfl
        rw [hpart] at hname
        exact hname.1 rfl
      · intro hdots
        have hpart : part = ['.', '.'] := by
          rw [← String.toList_ofList (l := part), hdots]
          rfl
        rw [hpart] at hname
        exact hname.2 rfl
      · rw [String.toList_ofList]
        have hmem : part ∈ split path.toList := by
          rw [hsplit]
          simp
        exact slash_notMem_of_mem_split hmem

theorem exists_parent? {path file : String} (h : fileName? path = some file) :
    ∃ dir, parent? path = some dir := by
  unfold fileName? at h
  unfold parent?
  split at h
  · contradiction
  · next part rest hparts =>
    rw [hparts]
    split
    · contradiction
    · next heq =>
      cases heq
      simp [isSilent] at h
    · exact ⟨_, rfl⟩
    · exact ⟨_, rfl⟩

end Path

namespace Disk

def walk (place : Place) : List String → Place
  | [] => place
  | name :: rest =>
    if name == "." then walk place rest
    else if name == ".." then walk (upward place) rest
    else walk (place ++ [name]) rest

def target (path : String) : Place :=
  walk (origin path) (Path.names path)

theorem upward_prefix_self (place : Place) : upward place <+: place := by
  unfold upward
  split
  · exact List.prefix_rfl
  · exact List.dropLast_prefix place

theorem walk_append (place : Place) (names names' : List String) :
    walk place (names ++ names') = walk (walk place names) names' := by
  induction names generalizing place with
  | nil => rfl
  | cons name names ih =>
    simp only [List.cons_append, walk]
    split
    · exact ih _
    · split
      · exact ih _
      · exact ih _

theorem walk_dots (place : Place) {dots : List String} (h : ∀ dot ∈ dots, dot = ".") :
    walk place dots = place := by
  induction dots with
  | nil => rfl
  | cons dot dots ih =>
    rw [h dot List.mem_cons_self]
    exact ih fun dot' hdot => h dot' (List.mem_cons_of_mem _ hdot)

theorem walk_name (place : Place) {name : String} (hdot : name ≠ ".") (hdots : name ≠ "..") :
    walk place [name] = place ++ [name] := by
  simp [walk, hdot, hdots]

def enter (place : Place) (name : String) : Except Refusal Place :=
  if name == "." then .ok place
  else if name == ".." then .ok (upward place)
  else if name.utf8ByteSize ≤ nameLimit then .ok (place ++ [name])
  else .error .tooLong

theorem enter_eq_ok {place next : Place} {name : String} (h : enter place name = .ok next) :
    next = walk place [name] ∧ (next <+: place ∨ next = place ++ [name]) := by
  unfold enter at h
  simp only [walk]
  split at h
  · next hdot =>
    cases h
    rw [if_pos hdot]
    exact ⟨rfl, .inl List.prefix_rfl⟩
  · next hdot =>
    rw [if_neg hdot]
    split at h
    · next hdots =>
      cases h
      rw [if_pos hdots]
      exact ⟨rfl, .inl (upward_prefix_self place)⟩
    · next hdots =>
      rw [if_neg hdots]
      split at h
      · cases h
        exact ⟨rfl, .inr rfl⟩
      · contradiction

theorem follow_cons (d : Disk) (place : Place) (name : String) (rest : List String) :
    d.follow place (name :: rest) =
      match d.node? place with
      | none => .error .missing
      | some (.file _) => .error .notADirectory
      | some .directory => (enter place name).bind fun next => d.follow next rest := by
  simp only [follow]
  cases d.node? place with
  | none => rfl
  | some node =>
    cases node with
    | file text => rfl
    | directory =>
      unfold enter
      simp only
      split
      · rfl
      · split
        · rfl
        · split
          · rfl
          · rfl

theorem follow_eq_ok {d : Disk} {place goal : Place} {names : List String}
    (h : d.follow place names = .ok goal) : goal = walk place names := by
  induction names generalizing place with
  | nil =>
    cases h
    rfl
  | cons name names ih =>
    rw [follow_cons] at h
    split at h
    · contradiction
    · contradiction
    · cases henter : enter place name with
      | error r =>
        rw [henter] at h
        contradiction
      | ok next =>
        rw [henter] at h
        rw [← List.singleton_append, walk_append, ← (enter_eq_ok henter).1]
        exact ih h

def route (path : String) : List String :=
  Path.names path ++ if path.toList.getLast? == some '/' then ["."] else []

theorem locate_eq (d : Disk) (path : String) :
    d.locate path = (vet path).bind fun _ => d.follow (origin path) (route path) := rfl

theorem walk_route (place : Place) (path : String) :
    walk place (route path) = walk place (Path.names path) := by
  unfold route
  rw [walk_append]
  apply walk_dots
  intro dot hdot
  split at hdot
  · exact List.mem_singleton.1 hdot
  · contradiction

theorem locate_eq_ok {d : Disk} {path : String} {goal : Place} (h : d.locate path = .ok goal) :
    goal = target path := by
  rw [locate_eq] at h
  cases hvet : vet path with
  | error r =>
    rw [hvet] at h
    contradiction
  | ok _ =>
    rw [hvet] at h
    rw [follow_eq_ok h, walk_route]
    rfl

theorem origin_join {dir name : String} (hslash : '/' ∉ name.toList) :
    origin (Path.join dir name) = origin dir := by
  have hhead : (Path.join dir name).toList.head? = some '/' ↔ dir.toList.head? = some '/' := by
    cases hdir : dir.toList with
    | nil =>
      have hempty : dir = "" := String.toList_inj.1 hdir
      have hjoin : (Path.join dir name).toList = name.toList := by
        simp [Path.join, hempty]
      rw [hjoin]
      constructor
      · intro h
        exact absurd (List.mem_of_mem_head? h) hslash
      · simp
    | cons c cs =>
      unfold Path.join
      split
      · simp [hdir]
      · simp [hdir]
  unfold origin
  simp only [beq_iff_eq, hhead]

theorem target_join {dir name : String} (hname : name.toList ≠ []) (hslash : '/' ∉ name.toList)
    (hdot : name ≠ ".") (hdots : name ≠ "..") :
    target (Path.join dir name) = target dir ++ [name] := by
  unfold target
  rw [origin_join hslash, Path.names_join hname hslash, walk_append, walk_name _ hdot hdots]

theorem target_of_fileName? {path file : String} (h : Path.fileName? path = some file) :
    ∃ dir, target path = dir ++ [file] := by
  obtain ⟨before, dots, hnames, hall, hdot, hdots, _⟩ := Path.names_of_fileName? h
  refine ⟨walk (origin path) before, ?_⟩
  unfold target
  rw [hnames, walk_append, ← List.singleton_append, walk_append, walk_dots _ hall,
    walk_name _ hdot hdots]

theorem target_staging_ne (path : String) : target (staging path) ≠ target path := by
  have hlength (s : String) : 4 ≤ (s ++ ".tmp").toList.length := by simp
  have hne (s t : String) (ht : t.toList.length < 4) : s ++ ".tmp" ≠ t := by
    intro heq
    have hle := hlength s
    rw [heq] at hle
    omega
  have hnil (s : String) : (s ++ ".tmp").toList ≠ [] := by simp
  unfold staging Path.sibling
  cases hfile : Path.fileName? path with
  | none =>
    simp only [Option.getD_none]
    rw [target_join (hnil "") (by decide) (hne _ _ (by decide)) (hne _ _ (by decide))]
    simp
  | some file =>
    obtain ⟨dir, hdir⟩ := Path.exists_parent? hfile
    obtain ⟨_, _, _, _, _, _, hslash⟩ := Path.names_of_fileName? hfile
    obtain ⟨place, hplace⟩ := target_of_fileName? hfile
    have hslash' : '/' ∉ (file ++ ".tmp").toList := by
      rw [String.toList_append, List.mem_append, not_or]
      exact ⟨hslash, by decide⟩
    simp only [hdir, Option.getD_some]
    rw [target_join (hnil file) hslash' (hne _ _ (by decide)) (hne _ _ (by decide)), hplace]
    -- The last names have different lengths, whatever the places before them are.
    intro heq
    have hlast := (List.append_inj' heq rfl).2
    have htext : (file ++ ".tmp").toList.length = file.toList.length := by
      rw [(List.cons.inj hlast).1]
    simp at htext

end Disk
end ListKeeper
