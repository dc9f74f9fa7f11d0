import ListKeeper.Proofs.Storage.Path

/-!
This module contains what replacing the text of a file does to a disk, whatever goes wrong: the
file holds what was stored of the new text when all steps were taken, and the old text when a step
failed.
-/

namespace ListKeeper.Disk

section Nodes

theorem lookup_filter_key [BEq κ] [LawfulBEq κ] (entries : List (κ × β)) (p : κ → Bool) (k : κ) :
    (entries.filter fun entry => p entry.1).lookup k = if p k then entries.lookup k else none := by
  induction entries with
  | nil => simp
  | cons entry entries ih =>
    obtain ⟨k', b⟩ := entry
    by_cases hk : k = k'
    · subst hk
      cases hp : p k with
      | true => simp [hp]
      | false => simpa [hp] using ih
    · have hne : (k == k') = false := beq_eq_false_iff_ne.2 hk
      cases hp : p k' with
      | true => simpa [hp, List.lookup_cons, hne] using ih
      | false => simpa [hp, List.lookup_cons, hne] using ih

variable (d : Disk)

theorem node?_nil : d.node? [] = some .directory := rfl

theorem node?_of_ne_nil {place : Place} (h : place ≠ []) : d.node? place = d.nodes.lookup place := by
  unfold node?
  rw [if_neg (by simpa using h)]

theorem node?_put {place : Place} (h : place ≠ []) (node : Node) (other : Place) :
    (d.put place node).node? other = if other = place then some node else d.node? other := by
  by_cases hother : other = []
  · subst hother
    rw [if_neg (Ne.symm h)]
    rfl
  · rw [node?_of_ne_nil _ hother, node?_of_ne_nil _ hother]
    unfold put
    rw [List.lookup_cons, lookup_filter_key d.nodes (· != place)]
    by_cases hplace : other = place
    · simp [hplace]
    · have hbeq : (other == place) = false := beq_eq_false_iff_ne.2 hplace
      simp [hplace, hbeq]

theorem node?_erase (place other : Place) :
    (d.erase place).node? other =
      if other ≠ [] ∧ place <+: other then none else d.node? other := by
  by_cases hother : other = []
  · subst hother
    rfl
  · rw [node?_of_ne_nil _ hother, node?_of_ne_nil _ hother]
    unfold erase
    rw [lookup_filter_key d.nodes (!place.isPrefixOf ·)]
    by_cases hbelow : place <+: other
    · have hprefix : place.isPrefixOf other = true := List.isPrefixOf_iff_prefix.2 hbelow
      simp [hother, hbelow, hprefix]
    · have hprefix : place.isPrefixOf other = false := by
        rw [Bool.eq_false_iff]
        exact fun h => hbelow (List.isPrefixOf_iff_prefix.1 h)
      simp [hbelow, hprefix]

end Nodes

/--
Nothing is lost between two disks: files and directories are where they were, and the file at one
place, if there is one, has the same text.
-/
structure Keeps (goal : Place) (d d' : Disk) : Prop where
  directory : ∀ place, d.node? place = some .directory → d'.node? place = some .directory
  file : ∀ place text, d.node? place = some (.file text) → ∃ text', d'.node? place = some (.file text')
  text : ∀ text, d'.node? goal = some (.file text) ↔ d.node? goal = some (.file text)

namespace Keeps

variable {goal : Place} {d d' d'' : Disk}

theorem refl (goal : Place) (d : Disk) : Keeps goal d d :=
  ⟨fun _ h => h, fun _ text h => ⟨text, h⟩, fun _ => Iff.rfl⟩

theorem trans (h : Keeps goal d d') (h' : Keeps goal d' d'') : Keeps goal d d'' where
  directory place hplace := h'.directory place (h.directory place hplace)
  file place text hplace := by
    obtain ⟨text', hplace'⟩ := h.file place text hplace
    exact h'.file place text' hplace'
  text text := (h'.text text).trans (h.text text)

theorem follow (h : Keeps goal d d') {place : Place} {names : List String}
    (hfollow : d.follow place names ≠ .error .missing) :
    d'.follow place names = d.follow place names := by
  induction names generalizing place with
  | nil => rfl
  | cons name names ih =>
    rw [follow_cons] at hfollow
    rw [follow_cons, follow_cons]
    cases hnode : d.node? place with
    | none =>
      rw [hnode] at hfollow
      exact absurd rfl hfollow
    | some node =>
      cases node with
      | file text =>
        obtain ⟨text', hnode'⟩ := h.file place text hnode
        rw [hnode']
      | directory =>
        rw [h.directory place hnode]
        simp only [hnode] at hfollow
        cases henter : enter place name with
        | error r => rfl
        | ok next =>
          rw [henter] at hfollow
          exact ih hfollow

theorem locate (h : Keeps goal d d') {path : String} (hlocate : d.locate path ≠ .error .missing) :
    d'.locate path = d.locate path := by
  rw [locate_eq] at hlocate
  rw [locate_eq, locate_eq]
  cases hvet : vet path with
  | error r => rfl
  | ok _ =>
    rw [hvet] at hlocate
    exact h.follow hlocate

end Keeps

theorem read_cases (d : Disk) (path : String) :
    (∃ r, d.locate path = .error r ∧ d.read path = .error r) ∨
    (d.locate path = .ok (target path) ∧
      d.read path = match d.node? (target path) with
        | some (.file text) => .ok text
        | some .directory => .error .isADirectory
        | none => .error .missing) := by
  unfold read
  cases hlocate : d.locate path with
  | error r => exact .inl ⟨r, rfl, rfl⟩
  | ok goal =>
    rw [locate_eq_ok hlocate]
    exact .inr ⟨rfl, rfl⟩

theorem node?_of_read {d : Disk} {path text : String} (h : d.read path = .ok text) :
    d.node? (target path) = some (.file text) := by
  rcases d.read_cases path with ⟨r, _, hread⟩ | ⟨_, hread⟩
  · rw [hread] at h
    contradiction
  · rw [hread] at h
    split at h
    · next hnode =>
      cases h
      exact hnode
    · contradiction
    · contradiction

theorem Keeps.read {d d' : Disk} {path : String} (h : Keeps (target path) d d')
    (hread : d.read path ≠ .error .missing) : d'.read path = d.read path := by
  rcases d.read_cases path with ⟨r, hlocate, heq⟩ | ⟨hlocate, heq⟩
  · have hne : d.locate path ≠ .error .missing := by
      rw [hlocate]
      rintro ⟨⟩
      exact hread heq
    have hlocate' := h.locate hne
    rcases d'.read_cases path with ⟨r', hl, heq'⟩ | ⟨hl, _⟩
    · rw [hlocate', hlocate] at hl
      cases hl
      rw [heq', heq]
    · rw [hlocate', hlocate] at hl
      contradiction
  · have hne : d.locate path ≠ .error .missing := by
      rw [hlocate]
      exact fun h => nomatch h
    have hlocate' := h.locate hne
    rcases d'.read_cases path with ⟨r', hl, _⟩ | ⟨_, heq'⟩
    · rw [hlocate', hlocate] at hl
      contradiction
    · rw [heq', heq]
      rw [heq] at hread
      cases hnode : d.node? (target path) with
      | none =>
        rw [hnode] at hread
        exact absurd rfl hread
      | some node =>
        cases node with
        | file text => rw [(h.text text).2 hnode]
        | directory => rw [h.directory _ hnode]

theorem bind_eq_ok {x : Except ε α} {f : α → Except ε β} {b : β} (h : (x >>= f) = .ok b) :
    ∃ a, x = .ok a ∧ f a = .ok b := by
  cases x with
  | error e => contradiction
  | ok a => exact ⟨a, rfl, h⟩

section Keeping

variable {d d' : Disk} {goal : Place}

theorem keeps_put_directory {place : Place} (h : d.node? place = none) (goal : Place) :
    Keeps goal d (d.put place .directory) := by
  have hne : place ≠ [] := by
    rintro rfl
    contradiction
  have hother {other : Place} {node : Node} (hnode : d.node? other = some node) :
      (d.put place .directory).node? other = some node := by
    rw [node?_put d hne, if_neg]
    · exact hnode
    · rintro rfl
      rw [h] at hnode
      contradiction
  refine ⟨fun _ => hother, fun _ text hnode => ⟨text, hother hnode⟩, fun text => ⟨?_, hother⟩⟩
  rw [node?_put d hne]
  split
  · exact fun hfile => nomatch hfile
  · exact id

theorem keeps_put_file {place : Place} (hgoal : place ≠ goal)
    (h : d.node? place ≠ some .directory) (text : String) :
    Keeps goal d (d.put place (.file text)) := by
  have hne : place ≠ [] := by
    rintro rfl
    exact h rfl
  refine ⟨?_, ?_, ?_⟩
  · intro other hother
    rw [node?_put d hne, if_neg]
    · exact hother
    · rintro rfl
      exact h hother
  · intro other text' hother
    rw [node?_put d hne]
    split
    · exact ⟨text, rfl⟩
    · exact ⟨text', hother⟩
  · intro text'
    rw [node?_put d hne, if_neg (Ne.symm hgoal)]

theorem makeDirectory_eq_ok {path : String} (h : d.makeDirectory path = .ok d') :
    ∃ place, d.node? place = none ∧ d' = d.put place .directory := by
  unfold makeDirectory at h
  obtain ⟨_, _, h⟩ := bind_eq_ok h
  split at h
  · contradiction
  · obtain ⟨dir, _, h⟩ := bind_eq_ok h
    obtain ⟨place, _, h⟩ := bind_eq_ok h
    split at h
    · contradiction
    · next hnode =>
      cases h
      exact ⟨place, hnode, rfl⟩

theorem keeps_ensureDirectory (d : Disk) (path : String) (goal : Place) :
    Keeps goal d (d.ensureDirectory path).2 := by
  unfold ensureDirectory
  cases hmake : d.makeDirectory path with
  | error r => exact .refl goal d
  | ok d' =>
    obtain ⟨place, hnode, rfl⟩ := makeDirectory_eq_ok hmake
    exact keeps_put_directory hnode goal

theorem keeps_makeAlong (d : Disk) (paths : List String) (goal : Place) :
    Keeps goal d (d.makeAlong paths).2 := by
  induction paths with
  | nil => exact .refl goal d
  | cons path rest ih =>
    have hensure := keeps_ensureDirectory d path goal
    unfold makeAlong
    -- When the directories above had to be created first, the attempt is made twice.
    split
    · split
      · next d' hrest =>
        rw [hrest] at ih
        exact ih.trans (keeps_ensureDirectory d' path goal)
      · exact ih
    · exact hensure

theorem keeps_makeDirectories (d : Disk) (path : String) (goal : Place) :
    Keeps goal d (d.makeDirectories path).2 := by
  unfold makeDirectories
  split
  · exact .refl goal d
  · exact keeps_makeAlong d _ goal

theorem write_eq_ok {path text : String} (h : d.write path text = .ok d') :
    d.locate path = .ok (target path) ∧ d.node? (target path) ≠ some .directory ∧
      d' = d.put (target path) (.file text) := by
  unfold write at h
  obtain ⟨place, hlocate, h⟩ := bind_eq_ok h
  rw [← locate_eq_ok hlocate]
  split at h
  · contradiction
  · next hnode =>
    cases h
    exact ⟨hlocate, hnode, rfl⟩

theorem keeps_write {path text : String} (h : d.write path text = .ok d')
    (hgoal : target path ≠ goal) : Keeps goal d d' := by
  obtain ⟨_, hnode, rfl⟩ := write_eq_ok h
  exact keeps_put_file hgoal hnode text

end Keeping

section Moving

variable {d d' : Disk}

theorem follow_of_directories (way : Place → Prop)
    (hnode : ∀ place, way place → d.node? place = some .directory →
      d'.node? place = some .directory)
    (hway : ∀ place name next, way place → d.node? place = some .directory →
      enter place name = .ok next → way next)
    {place goal : Place} {names : List String} (hplace : way place)
    (h : d.follow place names = .ok goal) : d'.follow place names = .ok goal := by
  -- What `way` says of a place has to hold for all that names can lead to from there.
  induction names generalizing place with
  | nil => exact h
  | cons name names ih =>
    rw [follow_cons] at h ⊢
    cases hdir : d.node? place with
    | none => simp [hdir] at h
    | some node =>
      cases node with
      | file text => simp [hdir] at h
      | directory =>
        rw [hnode place hplace hdir]
        simp only [hdir] at h
        cases henter : enter place name with
        | error r =>
          rw [henter] at h
          contradiction
        | ok next =>
          rw [henter] at h
          exact ih (hway place name next hplace hdir henter) h

theorem follow_put {place goal other : Place} {names : List String} (node : Node)
    (hother : d.node? other ≠ some .directory) (h : d.follow place names = .ok goal) :
    (d.put other node).follow place names = .ok goal := by
  have hne : other ≠ [] := by
    rintro rfl
    exact hother rfl
  apply follow_of_directories (fun _ => True) _ (fun _ _ _ _ _ _ => trivial) trivial h
  intro place _ hdir
  rw [node?_put d hne, if_neg]
  · exact hdir
  · rintro rfl
    exact hother hdir

theorem follow_erase {place goal gone : Place} {names : List String} {text : String}
    (hgone : d.node? gone = some (.file text)) (hplace : gone <+: place → place = gone)
    (h : d.follow place names = .ok goal) :
    (d.erase gone).follow place names = .ok goal := by
  -- A directory on the way is not the file that is gone, so it is not below that file either.
  have hbeside {place : Place} (hway : gone <+: place → place = gone)
      (hdir : d.node? place = some .directory) : ¬ gone <+: place := by
    intro hbelow
    rw [hway hbelow, hgone] at hdir
    exact nomatch hdir
  apply follow_of_directories (fun place => gone <+: place → place = gone) _ _ hplace h
  · intro place hway hdir
    rw [node?_erase, if_neg fun hbelow => hbeside hway hdir hbelow.2]
    exact hdir
  · intro place name next hway hdir henter hbelow
    rcases (enter_eq_ok henter).2 with hup | rfl
    · exact absurd (hbelow.trans hup) (hbeside hway hdir)
    · rcases List.prefix_concat_iff.1 hbelow with heq | hbelow
      · exact heq.symm
      · exact absurd hbelow (hbeside hway hdir)

theorem read_of_node? {path text : String} (hlocate : d.locate path = .ok (target path))
    (hnode : d.node? (target path) = some (.file text)) : d.read path = .ok text := by
  rcases d.read_cases path with ⟨r, hl, _⟩ | ⟨_, hread⟩
  · rw [hlocate] at hl
    contradiction
  · rw [hread, hnode]

theorem locate_of_follow {path : String} {goal : Place} (h : d.locate path = .ok goal)
    (hfollow : d.follow (origin path) (route path) = .ok goal →
      d'.follow (origin path) (route path) = .ok goal) : d'.locate path = .ok goal := by
  rw [locate_eq] at h ⊢
  cases hvet : vet path with
  | error r =>
    rw [hvet] at h
    contradiction
  | ok _ =>
    rw [hvet] at h
    exact hfollow h

theorem read_put {path text : String} (hlocate : d.locate path = .ok (target path))
    (hnode : d.node? (target path) ≠ some .directory) :
    (d.put (target path) (.file text)).read path = .ok text := by
  have hne : target path ≠ [] := by
    intro hnil
    rw [hnil] at hnode
    exact hnode rfl
  apply read_of_node?
  · exact locate_of_follow hlocate (follow_put _ hnode)
  · rw [node?_put d hne, if_pos rfl]

theorem read_write {path text : String} (h : d.write path text = .ok d') :
    d'.read path = .ok text := by
  obtain ⟨hlocate, hnode, rfl⟩ := write_eq_ok h
  exact read_put hlocate hnode

theorem origin_eq_of_below {place : Place} {path : String} (hne : place ≠ [])
    (h : place <+: origin path) : origin path = place := by
  unfold origin at h ⊢
  split at h
  · next hroot =>
    rw [if_pos hroot]
    rcases List.prefix_cons_iff.1 h with hnil | ⟨rest, hrest, hprefix⟩
    · exact absurd hnil hne
    · rw [hrest, List.prefix_nil.1 hprefix]
  · exact absurd (List.prefix_nil.1 h) hne

theorem read_rename {source path text : String} (h : d.rename source path = .ok d')
    (hread : d.read source = .ok text) : d'.read path = .ok text := by
  unfold rename at h
  obtain ⟨text', hread', h⟩ := bind_eq_ok h
  obtain ⟨place, hplace, h⟩ := bind_eq_ok h
  obtain ⟨goal, hgoal, h⟩ := bind_eq_ok h
  rw [hread] at hread'
  cases hread'
  rw [locate_eq_ok hplace, locate_eq_ok hgoal] at h
  rw [locate_eq_ok hgoal] at hgoal
  have hfile := node?_of_read hread
  -- What is moved is a file, so no path starts from below it.
  have hne : target source ≠ [] := by
    intro hnil
    rw [hnil, node?_nil] at hfile
    exact nomatch hfile
  split at h
  · contradiction
  · next hnode =>
    cases h
    apply read_put
    · exact locate_of_follow hgoal (follow_erase hfile (origin_eq_of_below hne))
    · rw [node?_erase]
      split
      · exact fun h => nomatch h
      · exact hnode

end Moving

end ListKeeper.Disk

namespace ListKeeper.Stage

open Disk

variable {path text : String} {outage : Option Outage} {d d' : Disk}

theorem act_writeStaging_cases (path text : String) (d : Disk) :
    (∃ d', d.write (staging path) text = .ok d' ∧ act path text .writeStaging d = (.ok (), d')) ∨
    (∃ r, act path text .writeStaging d = (.error r, d)) := by
  unfold act
  cases d.write (staging path) text with
  | error r => exact .inr ⟨r, rfl⟩
  | ok d' => exact .inl ⟨d', rfl, rfl⟩

theorem act_rename_cases (path text : String) (d : Disk) :
    (∃ d', d.rename (staging path) path = .ok d' ∧ act path text .rename d = (.ok (), d')) ∨
    (∃ r, act path text .rename d = (.error r, d)) := by
  unfold act
  cases d.rename (staging path) path with
  | error r => exact .inr ⟨r, rfl⟩
  | ok d' => exact .inl ⟨d', rfl, rfl⟩

theorem keeps_writeStaging (path text : String) (d : Disk) :
    Keeps (target path) d (act path text .writeStaging d).2 := by
  rcases act_writeStaging_cases path text d with ⟨d', hwrite, hact⟩ | ⟨r, hact⟩
  · rw [hact]
    exact keeps_write hwrite (target_staging_ne path)
  · rw [hact]
    exact .refl _ d

theorem keeps_act {stage : Stage} (hstage : stage ≠ .rename) :
    Keeps (target path) d (stage.act path text d).2 := by
  cases stage with
  | makeDirectory => exact keeps_makeDirectories d (directory path) (target path)
  | createStaging => exact keeps_writeStaging path "" d
  | writeStaging => exact keeps_writeStaging path text d
  | syncStaging => exact .refl _ d
  | rename => exact absurd rfl hstage

theorem keeps_interrupted (written : Nat) (stage : Stage) :
    Keeps (target path) d (stage.interrupted path text written d) := by
  unfold interrupted
  split
  · cases hwrite : d.write (staging path) (cut text written) with
    | error r => exact .refl _ d
    | ok d' => exact keeps_write hwrite (target_staging_ne path)
  · exact .refl _ d

/--
A step is taken with what is stored of the new text, or fails and loses nothing.
-/
theorem run_cases (outage : Option Outage) (path text : String) (stage : Stage) (d : Disk) :
    stage.run outage path text d = stage.act path (stored outage text) d ∨
    ((stage.run outage path text d).1 = .error .outage ∧
      Keeps (target path) d (stage.run outage path text d).2) := by
  unfold run
  split
  · next failing written =>
    split
    · exact .inr ⟨rfl, keeps_interrupted written stage⟩
    · exact .inl rfl
  · exact .inl rfl

theorem run_eq_ok {stage : Stage} (h : stage.run outage path text d = (.ok (), d')) :
    stage.act path (stored outage text) d = (.ok (), d') := by
  rcases run_cases outage path text stage d with heq | ⟨hfail, _⟩
  · rw [← heq, h]
  · rw [h] at hfail
    contradiction

theorem keeps_run {stage : Stage} (hstage : stage ≠ .rename) :
    Keeps (target path) d (stage.run outage path text d).2 := by
  rcases run_cases outage path text stage d with heq | ⟨_, hkeeps⟩
  · rw [heq]
    exact keeps_act hstage
  · exact hkeeps

theorem keeps_failed_rename {r : Refusal} (h : (run outage path text .rename d).1 = .error r) :
    Keeps (target path) d (run outage path text .rename d).2 := by
  rcases run_cases outage path text .rename d with heq | ⟨_, hkeeps⟩
  · rw [heq] at h ⊢
    rcases act_rename_cases path (stored outage text) d with ⟨d', _, hact⟩ | ⟨r, hact⟩
    · rw [hact] at h
      contradiction
    · rw [hact]
      exact .refl _ d
  · exact hkeeps

theorem keeps_runAll {stages : List Stage} (hstages : .rename ∉ stages) {e : Stage × Refusal}
    (h : (runAll outage path text (stages ++ [.rename]) d).1 = .error e) :
    Keeps (target path) d (runAll outage path text (stages ++ [.rename]) d).2 := by
  induction stages generalizing d with
  | nil =>
    simp only [List.nil_append, runAll] at h ⊢
    cases hrun : run outage path text .rename d with
    | mk result d' =>
      cases result with
      | ok _ =>
        rw [hrun] at h
        contradiction
      | error r =>
        have hkeeps := keeps_failed_rename (congrArg Prod.fst hrun)
        rw [hrun] at hkeeps
        exact hkeeps
  | cons stage stages ih =>
    rw [List.mem_cons, not_or] at hstages
    have hkeeps : Keeps (target path) d (stage.run outage path text d).2 :=
      keeps_run (Ne.symm hstages.1)
    simp only [List.cons_append, runAll] at h ⊢
    cases hrun : stage.run outage path text d with
    | mk result d' =>
      rw [hrun] at hkeeps
      simp only [hrun] at h
      cases result with
      | ok _ => exact hkeeps.trans (ih hstages.2 h)
      | error r => exact hkeeps

theorem runAll_cons_eq_ok {stage : Stage} {rest : List Stage}
    (h : runAll outage path text (stage :: rest) d = (.ok (), d')) :
    ∃ d₁, stage.act path (stored outage text) d = (.ok (), d₁) ∧
      runAll outage path text rest d₁ = (.ok (), d') := by
  simp only [runAll] at h
  split at h
  · next d₁ hrun => exact ⟨d₁, run_eq_ok hrun, h⟩
  · cases h

theorem read_runAll (h : runAll outage path text all d = (.ok (), d')) :
    d'.read path = .ok (stored outage text) := by
  obtain ⟨d₁, _, h⟩ := runAll_cons_eq_ok h
  obtain ⟨d₂, _, h⟩ := runAll_cons_eq_ok h
  obtain ⟨d₃, hwritten, h⟩ := runAll_cons_eq_ok h
  obtain ⟨d₄, hsynced, h⟩ := runAll_cons_eq_ok h
  obtain ⟨d₅, hmoved, h⟩ := runAll_cons_eq_ok h
  cases h
  cases hsynced
  generalize stored outage text = text at hwritten hmoved
  have hread : d₃.read (staging path) = .ok text := by
    rcases act_writeStaging_cases path text d₂ with ⟨d', hwrite, hact⟩ | ⟨r, hact⟩
    · rw [hact] at hwritten
      cases hwritten
      exact read_write hwrite
    · rw [hact] at hwritten
      cases hwritten
  rcases act_rename_cases path text d₃ with ⟨d', hrename, hact⟩ | ⟨r, hact⟩
  · rw [hact] at hmoved
    cases hmoved
    exact read_rename hrename hread
  · rw [hact] at hmoved
    cases hmoved

end ListKeeper.Stage

namespace ListKeeper.Disk

variable {path text : String} {d : Disk}

theorem keeps_skipOutage (goal : Place) (d : Disk) : Keeps goal d d.skipOutage :=
  ⟨fun _ h => h, fun _ text h => ⟨text, h⟩, fun _ => Iff.rfl⟩

theorem keeps_failed_replace {e : Stage × Refusal} (h : (d.replace path text).1 = .error e) :
    Keeps (target path) d (d.replace path text).2 :=
  (keeps_skipOutage (target path) d).trans
    (Stage.keeps_runAll (show .rename ∉ Stage.all.dropLast by decide) h)

theorem read_replace (h : (d.replace path text).1 = .ok ()) :
    (d.replace path text).2.read path = .ok (d.stored text) :=
  Stage.read_runAll (Prod.ext h rfl)

end ListKeeper.Disk
