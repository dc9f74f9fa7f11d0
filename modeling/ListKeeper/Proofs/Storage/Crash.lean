import ListKeeper.Proofs.Storage.Durability
import Mathlib.Data.List.Infix
import Mathlib.Logic.Relation

/-!
This module contains what is found at a path when the replacing of its file stops at any point, and
what a call makes of it. The file has the old text until the new one is moved into its place, and
then it has what was stored of the new one. That is all of it, unless writing it failed unseen.
-/

namespace ListKeeper

namespace Disk

variable {d d' : Disk} {path : String}

def fileAt? (d : Disk) (path : String) : Option String :=
  match d.node? (target path) with
  | some (.file text) => some text
  | _ => none

theorem fileAt?_eq_some_iff {text : String} :
    d.fileAt? path = some text ↔ d.node? (target path) = some (.file text) := by
  unfold fileAt?
  split
  · next hnode => simp [hnode]
  · next hnode =>
    constructor
    · exact nofun
    · exact fun h => absurd h (hnode text)

structure SameFile (path : String) (d d' : Disk) : Prop where
  file : d'.fileAt? path = d.fileAt? path
  reading : ¬ d.Hides path → (d'.read path).toOption = (d.read path).toOption

theorem Keeps.sameFile (h : Keeps (target path) d d') : SameFile path d d' where
  file := by
    apply Option.ext
    intro text
    rw [fileAt?_eq_some_iff, fileAt?_eq_some_iff]
    exact h.text text
  reading := by
    intro hvisible
    by_cases hmissing : d.read path = .error .missing
    · rw [hmissing]
      cases hread : d'.read path with
      | error r => rfl
      | ok text => exact absurd ⟨hmissing, text, (h.text text).1 (node?_of_read hread)⟩ hvisible
    · rw [h.read hmissing]

structure Replaced (path text : String) (d : Disk) : Prop where
  file : d.fileAt? path = some text
  read : d.read path = .ok text
  staging : d.node? (target (staging path)) = none

theorem node?_of_rename {source : String} (hne : target path ≠ target source)
    (h : d.rename source path = .ok d') : d'.node? (target source) = none := by
  unfold rename at h
  obtain ⟨text, hread, h⟩ := bind_eq_ok h
  obtain ⟨place, hplace, h⟩ := bind_eq_ok h
  obtain ⟨goal, hgoal, h⟩ := bind_eq_ok h
  rw [locate_eq_ok hplace, locate_eq_ok hgoal] at h
  have hfile := node?_of_read hread
  have hsource : target source ≠ [] := by
    intro hnil
    rw [hnil, node?_nil] at hfile
    exact nomatch hfile
  split at h
  · cases h
  · next hnode =>
    cases h
    have hgoal : target path ≠ [] := by
      intro hnil
      rw [hnil] at hnode
      exact hnode rfl
    rw [node?_put _ hgoal, if_neg (Ne.symm hne), node?_erase,
      if_pos ⟨hsource, List.prefix_refl _⟩]

def Makes (paths : List String) (d d' : Disk) : Prop :=
  ∃ path ∈ paths, d.makeDirectory path = .ok d'

theorem makes_ensureDirectory (d : Disk) {paths : List String} (hpath : path ∈ paths) :
    Relation.ReflTransGen (Makes paths) d (d.ensureDirectory path).2 := by
  unfold ensureDirectory
  cases hmake : d.makeDirectory path with
  | error r => exact .refl
  | ok d' => exact .single ⟨path, hpath, hmake⟩

theorem makes_makeAlong (d : Disk) (paths : List String) :
    Relation.ReflTransGen (Makes paths) d (d.makeAlong paths).2 := by
  induction paths with
  | nil => exact .refl
  | cons path rest ih =>
    have hmore : Makes rest ≤ Makes (path :: rest) := by
      rintro _ _ ⟨other, hother, hmake⟩
      exact ⟨other, List.mem_cons_of_mem _ hother, hmake⟩
    have hrest : Relation.ReflTransGen (Makes (path :: rest)) d (d.makeAlong rest).2 :=
      Relation.ReflTransGen.mono hmore _ _ ih
    have hensure := makes_ensureDirectory d (List.mem_cons_self (a := path) (l := rest))
    unfold makeAlong
    split
    · split
      · next d' hmade =>
        rw [hmade] at hrest
        exact hrest.trans (makes_ensureDirectory d' List.mem_cons_self)
      · exact hrest
    · exact hensure

theorem keeps_makes {paths : List String} (h : Relation.ReflTransGen (Makes paths) d d')
    (goal : Place) : Keeps goal d d' := by
  induction h with
  | refl => exact .refl goal d
  | tail _ hstep ih =>
    obtain ⟨path, _, hmake⟩ := hstep
    obtain ⟨place, hnode, rfl⟩ := makeDirectory_eq_ok hmake
    exact ih.trans (keeps_put_directory hnode goal)

end Disk

namespace Stage

open Disk

def directories (path : String) : List String :=
  directory path :: Path.above (directory path)

/--
What a step may leave behind that was begun but not completed: some of the directories, or any text
in the new file. Moving the new file into place is not divided.
-/
inductive Begun (path : String) : Stage → Disk → Disk → Prop
  | untouched (stage : Stage) (d : Disk) : Begun path stage d d
  | directories {d d' : Disk} (h : Relation.ReflTransGen (Makes (directories path)) d d') :
    Begun path .makeDirectory d d'
  | text {stage : Stage} {d d' : Disk} (hstage : stage ≠ .rename) (text : String)
    (h : d.write (staging path) text = .ok d') : Begun path stage d d'

/--
What some steps may leave behind when they stop or fail anywhere, after the taken ones.
-/
inductive CutOff (path text : String) : List Stage → List Stage → Disk → Disk → Prop
  | before (stages : List Stage) (d : Disk) : CutOff path text stages [] d d
  | within {stage : Stage} {d d' : Disk} (rest : List Stage) (h : stage.Begun path d d') :
    CutOff path text (stage :: rest) [] d d'
  | after {stage : Stage} {rest taken : List Stage} {d d₁ d' : Disk}
    (h : stage.act path text d = (.ok (), d₁)) (hrest : CutOff path text rest taken d₁ d') :
    CutOff path text (stage :: rest) (stage :: taken) d d'

variable {path text : String} {stages taken : List Stage} {d d' : Disk}

theorem keeps_begun {stage : Stage} (h : stage.Begun path d d') : Keeps (target path) d d' := by
  cases h with
  | untouched => exact .refl _ d
  | directories h => exact keeps_makes h _
  | text _ text h => exact keeps_write h (target_staging_ne path)

theorem keeps_cutOff (h : CutOff path text stages taken d d') (hrename : .rename ∉ taken) :
    Keeps (target path) d d' := by
  induction h with
  | before stages d => exact .refl _ d
  | within rest h => exact keeps_begun h
  | @after stage _ _ d _ _ h _ ih =>
    rw [List.mem_cons, not_or] at hrename
    have hkeeps : Keeps (target path) d (stage.act path text d).2 :=
      keeps_act (Ne.symm hrename.1)
    rw [h] at hkeeps
    exact hkeeps.trans (ih hrename.2)

theorem prefix_of_cutOff (h : CutOff path text stages taken d d') : taken <+: stages := by
  induction h with
  | before stages d => exact List.nil_prefix
  | within rest h => exact List.nil_prefix
  | after h _ ih => exact (List.prefix_cons_inj _).2 ih

theorem run_eq_act {outage : Option Outage} {stage : Stage}
    (hunseen : ∀ failing written, outage ≠ some (.seen failing written)) :
    stage.run outage path text d = stage.act path (stored outage text) d := by
  unfold run
  split
  · exact absurd rfl (hunseen _ _)
  · rfl

theorem runAll_of_cutOff {outage : Option Outage}
    (hunseen : ∀ failing written, outage ≠ some (.seen failing written))
    (h : CutOff path (stored outage text) stages taken d d') (hall : taken = stages) :
    runAll outage path text stages d = (.ok (), d') := by
  generalize hstored : stored outage text = left at h
  induction h with
  | before stages d =>
    subst hall
    rfl
  | within rest h => contradiction
  | @after stage _ _ d _ _ h _ ih =>
    have hrun : stage.run outage path text d = _ := run_eq_act hunseen
    rw [hstored, h] at hrun
    simp only [runAll, hrun]
    exact ih (List.cons.inj hall).2

theorem rename_mem_iff (h : taken <+: all) : .rename ∈ taken ↔ taken = all := by
  have hcases : ∀ taken ∈ all.inits, (.rename ∈ taken ↔ taken = all) := by decide
  exact hcases taken ((List.mem_inits _ _).2 h)

theorem replaced_of_runAll {outage : Option Outage}
    (h : runAll outage path text all d = (.ok (), d')) :
    Replaced path (stored outage text) d' := by
  have hread := read_runAll h
  refine ⟨fileAt?_eq_some_iff.2 (node?_of_read hread), hread, ?_⟩
  obtain ⟨d₁, _, h⟩ := runAll_cons_eq_ok h
  obtain ⟨d₂, _, h⟩ := runAll_cons_eq_ok h
  obtain ⟨d₃, _, h⟩ := runAll_cons_eq_ok h
  obtain ⟨d₄, _, h⟩ := runAll_cons_eq_ok h
  obtain ⟨d₅, hmoved, h⟩ := runAll_cons_eq_ok h
  cases h
  rcases act_rename_cases path (stored outage text) d₄ with ⟨d', hrename, hact⟩ | ⟨r, hact⟩
  · rw [hact] at hmoved
    cases hmoved
    exact node?_of_rename (Ne.symm (target_staging_ne path)) hrename
  · rw [hact] at hmoved
    cases hmoved

theorem replaced_of_cutOff (h : CutOff path text all taken d d') (hrename : .rename ∈ taken) :
    Replaced path text d' := by
  have hunseen : ∀ failing written, none ≠ some (Outage.seen failing written) := nofun
  have hall := (rename_mem_iff (prefix_of_cutOff h)).1 hrename
  exact replaced_of_runAll (runAll_of_cutOff hunseen h hall)

section Runs

/-!
What the program does is one of these runs.
-/

theorem begun_act {stage : Stage} {r : Refusal} (h : stage.act path text d = (.error r, d')) :
    stage.Begun path d d' := by
  cases stage with
  | makeDirectory =>
    have hmade : (d.makeDirectories (directory path)).2 = d' := congrArg Prod.snd h
    rw [← hmade]
    unfold makeDirectories
    split
    · exact .untouched _ d
    · exact .directories (makes_makeAlong d _)
  | createStaging =>
    rcases act_writeStaging_cases path "" d with ⟨d', _, hact⟩ | ⟨r, hact⟩
    · cases hact.symm.trans h
    · cases hact.symm.trans h
      exact .untouched _ d
  | writeStaging =>
    rcases act_writeStaging_cases path text d with ⟨d', _, hact⟩ | ⟨r, hact⟩
    · cases hact.symm.trans h
    · cases hact.symm.trans h
      exact .untouched _ d
  | syncStaging => cases h
  | rename =>
    rcases act_rename_cases path text d with ⟨d', _, hact⟩ | ⟨r, hact⟩
    · cases hact.symm.trans h
    · cases hact.symm.trans h
      exact .untouched _ d

theorem begun_interrupted (path text : String) (written : Nat) (stage : Stage) (d : Disk) :
    stage.Begun path d (stage.interrupted path text written d) := by
  unfold interrupted
  split
  · cases hwrite : d.write (staging path) (cut text written) with
    | error r => exact .untouched _ d
    | ok d' => exact .text nofun _ hwrite
  · exact .untouched _ d

theorem begun_run {outage : Option Outage} {stage : Stage} {r : Refusal}
    (h : stage.run outage path text d = (.error r, d')) : stage.Begun path d d' := by
  unfold run at h
  split at h
  · next failing written =>
    split at h
    · cases h
      exact begun_interrupted path text written stage d
    · exact begun_act h
  · exact begun_act h

theorem cutOff_runAll (outage : Option Outage) (path text : String) (stages : List Stage)
    (d : Disk) : ∃ taken,
      CutOff path (stored outage text) stages taken d (runAll outage path text stages d).2 ∧
      (taken = stages ↔ (runAll outage path text stages d).1 = .ok ()) := by
  induction stages generalizing d with
  | nil => exact ⟨[], .before [] d, by simp [runAll]⟩
  | cons stage rest ih =>
    simp only [runAll]
    rcases hrun : stage.run outage path text d with ⟨_ | _, d₁⟩
    · exact ⟨[], .within rest (begun_run hrun), by simp⟩
    · obtain ⟨taken, hcut, hall⟩ := ih d₁
      exact ⟨stage :: taken, .after (run_eq_ok hrun) hcut, by simpa using hall⟩

end Runs

end Stage
namespace DataFile

open Disk

variable (file : DataFile) (disk : Disk) (request : Request α)

/--
A call that changes the content leaves the file with the old text or with the new one, wherever it
is cut off, and what is kept in memory agrees with the answer and with the file.
-/
structure Atomic : Prop where
  cutOff (taken : List Stage) (disk' : Disk)
    (h : Stage.CutOff file.path (disk.stored (file.textAfter request)) Stage.all taken
      disk.skipOutage disk') :
    (.rename ∉ taken → SameFile file.path disk disk') ∧
      (.rename ∈ taken → Replaced file.path (file.textAfter request) disk')
  refused (failure : Stage × Refusal) :
    ∃ details, file.conclude request (.error failure) =
      (.error (.persistence request.method details), file)
  performed : ∃ taken,
    Stage.CutOff file.path (disk.stored (file.textAfter request)) Stage.all taken
      disk.skipOutage (file.serve disk request).2.2 ∧
    (.rename ∈ taken ↔ ∃ answer, (file.serve disk request).1 = .ok answer)
  failed (e : Error) (h : (file.serve disk request).1 = .error e) :
    (∃ details, e = .persistence request.method details) ∧
      (file.serve disk request).2.1 = file ∧
      SameFile file.path disk (file.serve disk request).2.2
  succeeded (answer : α) (h : (file.serve disk request).1 = .ok answer) :
    answer = (file.image.serve request).1 ∧
      (file.serve disk request).2.1 = ⟨file.path, (file.image.serve request).2⟩ ∧
      Replaced file.path (encode (file.image.serve request).2) (file.serve disk request).2.2

theorem conclude_error (failure : Stage × Refusal) :
    ∃ details, file.conclude request (.error failure) =
      (.error (.persistence request.method details), file) :=
  ⟨_, rfl⟩

variable {file disk} {request : Request α} {taken : List Stage} {disk' : Disk}

variable (file disk) in
theorem serve_cutOff (hwrite : request.isWrite = true) :
    ∃ taken disk', Stage.CutOff file.path (disk.stored (file.textAfter request)) Stage.all taken
        disk.skipOutage disk' ∧
      ((.rename ∉ taken ∧ ∃ details, file.serve disk request =
          (.error (.persistence request.method details), file, disk')) ∨
        (.rename ∈ taken ∧ file.serve disk request = (.ok (file.image.serve request).1,
          ⟨file.path, (file.image.serve request).2⟩, disk'))) := by
  obtain ⟨taken, hcut, hall⟩ := Stage.cutOff_runAll disk.nextOutage file.path
    (file.textAfter request) Stage.all disk.skipOutage
  rw [← Stage.rename_mem_iff (Stage.prefix_of_cutOff hcut)] at hall
  refine ⟨taken, _, hcut, ?_⟩
  unfold serve replace
  rw [if_pos hwrite]
  rcases hrun : Stage.runAll disk.nextOutage file.path (file.textAfter request) Stage.all
    disk.skipOutage with ⟨failure | _, disk'⟩
  · rw [hrun] at hall
    obtain ⟨details, hconclude⟩ := file.conclude_error request failure
    refine .inl ⟨?_, details, ?_⟩
    · intro hrename
      exact nomatch hall.1 hrename
    · simp only [hconclude]
  · rw [hrun] at hall
    exact .inr ⟨hall.2 rfl, rfl⟩

theorem sameFile_of_cutOff
    (hcut : Stage.CutOff file.path (disk.stored (file.textAfter request)) Stage.all taken
      disk.skipOutage disk') (hrename : .rename ∉ taken) : SameFile file.path disk disk' :=
  ((keeps_skipOutage _ disk).trans (Stage.keeps_cutOff hcut hrename)).sameFile

theorem stored_eq_of_cutOff (hwrite : request.isWrite = true) {e : Error}
    (hfails : (file.serve disk request).1 = .error e)
    (hcut : Stage.CutOff file.path (disk.stored (file.textAfter request)) Stage.all taken
      disk.skipOutage disk') (hrename : .rename ∈ taken) :
    disk.stored (file.textAfter request) = file.textAfter request := by
  by_contra hpart
  have hunseen (failing : Stage) (written : Nat) :
      disk.nextOutage ≠ some (.seen failing written) := by
    intro hseen
    apply hpart
    unfold Disk.stored
    rw [hseen]
    rfl
  have hall := (Stage.rename_mem_iff (Stage.prefix_of_cutOff hcut)).1 hrename
  have hrun := Stage.runAll_of_cutOff hunseen hcut hall
  unfold serve replace at hfails
  rw [if_pos hwrite, hrun] at hfails
  cases hfails

theorem replaced_of_cutOff (hwrite : request.isWrite = true)
    (hwhole : disk.stored (file.textAfter request) = file.textAfter request ∨
      ∃ e, (file.serve disk request).1 = .error e)
    (hcut : Stage.CutOff file.path (disk.stored (file.textAfter request)) Stage.all taken
      disk.skipOutage disk') (hrename : .rename ∈ taken) :
    Replaced file.path (file.textAfter request) disk' := by
  have hstored : disk.stored (file.textAfter request) = file.textAfter request := by
    rcases hwhole with hstored | ⟨e, hfails⟩
    · exact hstored
    · exact stored_eq_of_cutOff hwrite hfails hcut hrename
  have hreplaced := Stage.replaced_of_cutOff hcut hrename
  rw [hstored] at hreplaced
  exact hreplaced

end DataFile

/--
A call that changes the content of a data file is atomic, whatever is on the disk and whatever else
goes wrong, unless it goes on with a file of which a part was lost unseen.
-/
theorem dataFile_atomic_iff (file : DataFile) (disk : Disk) {request : Request α}
    (hwrite : request.isWrite = true) :
    file.Atomic disk request ↔
      disk.stored (file.textAfter request) = file.textAfter request ∨
        ∃ e, (file.serve disk request).1 = .error e := by
  obtain ⟨taken, disk', hcut, hserve⟩ := DataFile.serve_cutOff file disk hwrite
  constructor
  · intro hatomic
    rcases hserve with ⟨_, details, hserve⟩ | ⟨hrename, hserve⟩
    · exact .inr ⟨_, congrArg Prod.fst hserve⟩
    · obtain ⟨_, _, hreplaced⟩ := hatomic.succeeded _ (congrArg Prod.fst hserve)
      rw [hserve] at hreplaced
      have hstored := (Stage.replaced_of_cutOff hcut hrename).read
      exact .inl (Except.ok.inj (hstored.symm.trans hreplaced.read))
  · intro hwhole
    refine ⟨fun taken disk' hcut =>
        ⟨DataFile.sameFile_of_cutOff hcut, DataFile.replaced_of_cutOff hwrite hwhole hcut⟩,
      file.conclude_error request, ⟨taken, ?_⟩, ?_, ?_⟩
    · rcases hserve with ⟨hrename, details, hserve⟩ | ⟨hrename, hserve⟩
      · rw [hserve]
        exact ⟨hcut, fun hmem => absurd hmem hrename, nofun⟩
      · rw [hserve]
        exact ⟨hcut, fun _ => ⟨_, rfl⟩, fun _ => hrename⟩
    · intro e h
      rcases hserve with ⟨hrename, details, hserve⟩ | ⟨_, hserve⟩
      · rw [hserve] at h ⊢
        cases h
        exact ⟨⟨details, rfl⟩, rfl, DataFile.sameFile_of_cutOff hcut hrename⟩
      · rw [hserve] at h
        cases h
    · intro answer h
      rcases hserve with ⟨_, details, hserve⟩ | ⟨hrename, hserve⟩
      · rw [hserve] at h
        cases h
      · rw [hserve] at h ⊢
        cases h
        exact ⟨rfl, rfl, DataFile.replaced_of_cutOff hwrite hwhole hcut hrename⟩

/--
The first of two changes fails when three characters of the new file have been written. The second
one replaces the old text, and the new file is gone.
-/
theorem dataFile_atomic_iff_halfWritten :
    let file : DataFile := ⟨"s/a.json", Image.empty.putList (.create "1" "Trip" .epoch)⟩
    let request := Request.clear
    let disk : Disk := ⟨[(["s"], .directory), (["s", "a.json"], .file "old")],
      [some (.seen .writeStaging 3), none]⟩
    let failed := file.serve disk request
    let done := failed.2.1.serve failed.2.2 request
    request.isWrite = true ∧ file.Atomic disk request ∧
      (failed.1.toOption = none ∧ failed.2.1 = file ∧ failed.2.2.fileAt? file.path = some "old" ∧
        failed.2.2.node? ["s", "a.json.tmp"] = some (.file "\x7b\n ")) ∧
      failed.2.1.Atomic failed.2.2 request ∧
      (done.1.toOption = some () ∧ done.2.1.image = .empty ∧
        done.2.2.fileAt? file.path = some (DataFile.encode .empty) ∧
        done.2.2.node? ["s", "a.json.tmp"] = none) := by
  intro file request disk failed done
  have hatomic : file.Atomic disk request := (dataFile_atomic_iff file disk rfl).2 (.inl rfl)
  have hatomic' : failed.2.1.Atomic failed.2.2 request :=
    (dataFile_atomic_iff _ _ rfl).2 (.inl (by decide +kernel))
  exact ⟨rfl, hatomic, by decide +kernel, hatomic', by decide +kernel⟩

/--
The part of a new file that is written last is lost unseen, so a call that is answered leaves a file
that cannot be opened. A path that passes through a missing directory leads to the old text only
after a call that failed.
-/
theorem dataFile_atomic_cutUnseen :
    let file : DataFile := ⟨"a.json", Image.empty.putList (.create "1" "Trip" .epoch)⟩
    let disk : Disk := ⟨[(["a.json"], .file "old")], [some (.unseen 3)]⟩
    let done := file.serve disk Request.clear
    let hidden : DataFile := ⟨"s/../a.json", .empty⟩
    let disk' : Disk := ⟨[(["a.json"], .file "old"), (["a.json.tmp"], .directory)], []⟩
    let failed := hidden.serve disk' Request.clear
    ¬ file.Atomic disk Request.clear ∧
      (done.1.toOption = some () ∧ done.2.2.read file.path = .ok "\x7b\n " ∧
        (DataFile.open done.2.2 file.path).toOption = none) ∧
      (failed.1.toOption = none ∧ disk'.read hidden.path = .error .missing ∧
        failed.2.2.read hidden.path = .ok "old") := by
  intro file disk done hidden disk' failed
  have hanswered : (file.serve disk Request.clear).1 = .ok () := by decide +kernel
  have hread : (file.serve disk Request.clear).2.2.read file.path ≠
      .ok (DataFile.encode (file.image.serve Request.clear).2) := by decide +kernel
  refine ⟨fun hatomic => hread ?_, by decide +kernel, by decide +kernel⟩
  exact (hatomic.succeeded () hanswered).2.2.read

end ListKeeper
