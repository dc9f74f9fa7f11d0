import ListKeeper.Proofs.Storage.Document
import ListKeeper.Proofs.Storage.Replace
import ListKeeper.Storage.DataFile

/-!
This module contains that storage in a file answers as storage in memory does, whatever goes wrong
with the file, and that the file can be opened again without a difference as long as what was written
last is not cut short unseen.
-/

namespace ListKeeper

namespace DataFile

variable {d : Disk} {path : String}

theorem open_of_missing (hread : d.read path = .error .missing) :
    DataFile.open d path = .ok ⟨path, .empty⟩ := by
  unfold DataFile.open
  rw [hread]

theorem open_of_decode? {text : String} {image : Image} (hread : d.read path = .ok text)
    (hdecode : decode? text = some image) : DataFile.open d path = .ok ⟨path, image⟩ := by
  unfold DataFile.open
  rw [hread]
  simp only [hdecode]

end DataFile

namespace Disk

/--
A file stands where a path leads to, but reading finds none. That is so when the path passes through
a directory that is missing, and leaves it again by two dots.
-/
def Hides (d : Disk) (path : String) : Prop :=
  d.read path = .error .missing ∧ ∃ text, d.node? (target path) = some (.file text)

structure Spares (path : String) (d d' : Disk) : Prop where
  text : ∀ text, d'.node? (target path) = some (.file text) ↔ d.node? (target path) = some (.file text)
  hides : d'.Hides path → d.Hides path

theorem Spares.refl (path : String) (d : Disk) : Spares path d d :=
  ⟨fun _ => Iff.rfl, id⟩

theorem Spares.trans {path : String} {d d' d'' : Disk} (h : Spares path d d')
    (h' : Spares path d' d'') : Spares path d d'' :=
  ⟨fun text => (h'.text text).trans (h.text text), fun hides => h.hides (h'.hides hides)⟩

theorem Keeps.spares {path : String} {d d' : Disk} (h : Keeps (target path) d d') :
    Spares path d d' where
  text := h.text
  hides := by
    rintro ⟨hread', text, hnode⟩
    refine ⟨?_, text, (h.text text).1 hnode⟩
    by_contra hread
    exact hread ((h.read hread).symm.trans hread')

structure Holds (d : Disk) (path text : String) : Prop where
  visible : ¬ d.Hides path
  node : d.node? (target path) = some (.file text)

/--
The file at a path is the written form of some content. No file is there as long as there is no
content either.
-/
structure Stores (d : Disk) (path : String) (image : Image) : Prop where
  visible : ¬ d.Hides path
  written : ∀ text, d.node? (target path) = some (.file text) → text = DataFile.encode image
  unwritten : (∀ text, d.node? (target path) ≠ some (.file text)) → image = .empty

theorem holds_of_read {d : Disk} {path text : String} (hread : d.read path = .ok text) :
    Holds d path text := by
  refine ⟨?_, node?_of_read hread⟩
  rintro ⟨hmissing, _⟩
  rw [hread] at hmissing
  contradiction

namespace Holds

variable {d d' : Disk} {path text : String}

theorem spares (h : Holds d path text) (hspares : Spares path d d') : Holds d' path text where
  visible := fun hides => h.visible (hspares.hides hides)
  node := (hspares.text text).2 h.node

theorem read_ne_missing (h : Holds d path text) : d.read path ≠ .error .missing :=
  fun hread => h.visible ⟨hread, text, h.node⟩

theorem stores {image : Image} (h : Holds d path (DataFile.encode image)) :
    Stores d path image where
  visible := h.visible
  written := by
    intro text hnode
    cases hnode.symm.trans h.node
    rfl
  unwritten := fun hnone => absurd h.node (hnone _)

end Holds

namespace Stores

variable {d d' : Disk} {path : String} {image : Image}

theorem spares (h : Stores d path image) (hspares : Spares path d d') : Stores d' path image where
  visible := fun hides => h.visible (hspares.hides hides)
  written := fun text hnode => h.written text ((hspares.text text).1 hnode)
  unwritten := fun hnone => h.unwritten fun text hnode => hnone text ((hspares.text text).2 hnode)

theorem of_missing (hread : d.read path = .error .missing) (hvisible : ¬ d.Hides path) :
    Stores d path .empty where
  visible := hvisible
  written := fun text hnode => absurd ⟨hread, text, hnode⟩ hvisible
  unwritten := fun _ => rfl

theorem decode? (h : Stores d path image) (hlegible : image.Legible) {text : String}
    (hread : d.read path = .ok text) : DataFile.decode? text = some image := by
  rw [h.written text (node?_of_read hread)]
  exact DataFile.decode?_encode hlegible

end Stores

end Disk

namespace DataFile

theorem serve_cases (file : DataFile) (disk : Disk) (request : Request α) :
    (request.isWrite = false ∧
      file.serve disk request = (.ok (file.image.serve request).1, file, disk)) ∨
    (request.isWrite = true ∧ ∃ disk',
      disk'.read file.path = .ok (disk.stored (file.textAfter request)) ∧
      file.serve disk request =
        (.ok (file.image.serve request).1, ⟨file.path, (file.image.serve request).2⟩, disk')) ∨
    (request.isWrite = true ∧ ∃ e disk', disk.Spares file.path disk' ∧
      file.serve disk request = (.error e, file, disk')) := by
  unfold serve
  cases hwrite : request.isWrite with
  | false => exact .inl ⟨rfl, rfl⟩
  | true =>
    right
    cases hreplace : disk.replace file.path (file.textAfter request) with
    | mk replaced disk' =>
      cases replaced with
      | ok _ =>
        have hread := Disk.read_replace (congrArg Prod.fst hreplace)
        rw [hreplace] at hread
        exact .inl ⟨rfl, disk', hread, rfl⟩
      | error failure =>
        have hkeeps := Disk.keeps_failed_replace (congrArg Prod.fst hreplace)
        rw [hreplace] at hkeeps
        exact .inr ⟨rfl, _, disk', hkeeps.spares, rfl⟩

end DataFile

structure Mirrored where
  file : DataFile
  disk : Disk
  twin : Image
  written : Bool
  intact : Bool

namespace Mirrored

def call (s : Mirrored) (request : Request α) : Mirrored :=
  let (answer, file, disk) := s.file.serve s.disk request
  let accepted := request.isWrite && answer.toOption.isSome
  { file := file
    disk := disk
    twin := if accepted then (s.twin.serve request).2 else s.twin
    written := s.written || accepted
    intact :=
      if accepted then s.disk.stored (s.file.textAfter request) == s.file.textAfter request
      else s.intact }

/--
What can happen: a call, or a change that others make to the disk. They leave the file
and the way to it as they are; what will go wrong next may be up to them.
-/
inductive Step : Mirrored → Mirrored → Prop
  | call (s : Mirrored) (request : Request α) : Step s (s.call request)
  | others (s : Mirrored) (disk : Disk) (h : s.disk.Spares s.file.path disk) :
    Step s { s with disk := disk }

inductive Reachable (d : Disk) (path : String) : Mirrored → Prop
  | start {file : DataFile} (h : DataFile.open d path = .ok file) :
    Reachable d path ⟨file, d, .empty, false, true⟩
  | step {s s' : Mirrored} (h : Reachable d path s) (hstep : Step s s') : Reachable d path s'

variable {d : Disk} {path : String} {s s' : Mirrored}

theorem call_cases (s : Mirrored) (request : Request α) :
    s.call request = s ∨
    (∃ disk, disk.read s.file.path = .ok (s.disk.stored (s.file.textAfter request)) ∧
      s.call request =
        ⟨⟨s.file.path, (s.file.image.serve request).2⟩, disk, (s.twin.serve request).2, true,
          s.disk.stored (s.file.textAfter request) == s.file.textAfter request⟩) ∨
    (∃ disk, s.disk.Spares s.file.path disk ∧ s.call request = { s with disk := disk }) := by
  unfold call
  rcases s.file.serve_cases s.disk request with
    ⟨hquestion, hserve⟩ | ⟨hwrite, disk, hread, hserve⟩ | ⟨_, e, disk, hspares, hserve⟩
  · exact .inl (by simp [hserve, hquestion])
  · exact .inr (.inl ⟨disk, hread, by simp [hserve, hwrite, Except.toOption]⟩)
  · exact .inr (.inr ⟨disk, hspares, by simp [hserve, Except.toOption]⟩)

/--
The content is that of the twin. The file is as it was when it was opened, until the first change
that is not refused; from then on, it holds what was stored of the last one.
-/
structure Faithful (d : Disk) (path : String) (s : Mirrored) : Prop where
  file : s.file.path = path
  image : s.file.image = s.twin
  untouched : s.written = false → s.twin = .empty ∧ d.Spares path s.disk
  written : s.written = true →
    ∃ text, s.disk.Holds path text ∧ (s.intact = true → text = DataFile.encode s.twin)

namespace Faithful

theorem others {disk : Disk} (h : s.Faithful d path) (hspares : s.disk.Spares s.file.path disk) :
    Faithful d path { s with disk := disk } := by
  rw [h.file] at hspares
  refine ⟨h.file, h.image, ?_, ?_⟩
  · intro hunwritten
    obtain ⟨htwin, hsame⟩ := h.untouched hunwritten
    exact ⟨htwin, hsame.trans hspares⟩
  · intro hwritten
    obtain ⟨text, hholds, hintact⟩ := h.written hwritten
    exact ⟨text, hholds.spares hspares, hintact⟩

theorem call (h : s.Faithful d path) (request : Request α) : (s.call request).Faithful d path := by
  rcases s.call_cases request with hcall | ⟨disk, hread, hcall⟩ | ⟨disk, hspares, hcall⟩
  · rw [hcall]
    exact h
  · rw [hcall]
    rw [h.file] at hread
    refine ⟨h.file, by rw [h.image], fun hunwritten => (nomatch hunwritten), fun _ => ?_⟩
    refine ⟨_, Disk.holds_of_read hread, fun hintact => ?_⟩
    rw [eq_of_beq hintact, DataFile.textAfter, h.image]
  · rw [hcall]
    exact h.others hspares

theorem step (h : s.Faithful d path) (hstep : Step s s') : s'.Faithful d path := by
  cases hstep with
  | call _ request => exact h.call request
  | others _ disk hspares => exact h.others hspares

theorem stores (h : s.Faithful d path) (hmissing : d.read path = .error .missing)
    (hopen : ¬ d.Hides path ∨ s.written = true) (hintact : s.intact = true) :
    s.disk.Stores path s.twin := by
  cases hwritten : s.written with
  | true =>
    obtain ⟨text, hholds, htext⟩ := h.written hwritten
    rw [htext hintact] at hholds
    exact hholds.stores
  | false =>
    obtain ⟨htwin, hspares⟩ := h.untouched hwritten
    have hvisible : ¬ d.Hides path := hopen.resolve_right (by simp [hwritten])
    rw [htwin]
    exact (Disk.Stores.of_missing hmissing hvisible).spares hspares

theorem eq_empty_of_missing (h : s.Faithful d path) (hread : s.disk.read path = .error .missing) :
    s.twin = .empty := by
  cases hwritten : s.written with
  | true =>
    obtain ⟨text, hholds, _⟩ := h.written hwritten
    exact absurd hread hholds.read_ne_missing
  | false => exact (h.untouched hwritten).1

theorem file_eq (h : s.Faithful d path) : s.file = ⟨path, s.twin⟩ := by
  rw [← h.file, ← h.image]

end Faithful

theorem Reachable.faithful (hmissing : d.read path = .error .missing) (h : s.Reachable d path) :
    s.Faithful d path := by
  induction h with
  | start hopen =>
    rw [DataFile.open_of_missing hmissing] at hopen
    cases hopen
    exact ⟨rfl, rfl, fun _ => ⟨rfl, .refl path d⟩, fun hwritten => nomatch hwritten⟩
  | step _ hstep ih => exact ih.step hstep

end Mirrored

/--
Storage in a file that was missing when it was opened answers as storage in memory does that has got
the changes that were not refused. The file holds the content if the last of these is whole, so
opening it again makes no difference. Only a file that the path was opened beside without finding it
can come to light until the first change.
-/
theorem dataFile_durable {d : Disk} {path : String} (hmissing : d.read path = .error .missing)
    {s : Mirrored} (h : s.Reachable d path) :
    (∀ {α : Type} (request : Request α), request.isWrite = false →
      ((Store.file s.file).serve s.disk request).1 =
        ((Store.memory s.twin).serve s.disk request).1) ∧
    (s.disk.read path = .error .missing → DataFile.open s.disk path = .ok s.file) ∧
    (s.twin.Legible → ¬ d.Hides path ∨ s.written = true → s.intact = true →
      ∀ text, s.disk.read path = .ok text →
        DataFile.decode? text = some s.file.image ∧ DataFile.open s.disk path = .ok s.file) := by
  have hfaithful := h.faithful hmissing
  refine ⟨?_, ?_, ?_⟩
  · intro α request hquestion
    rcases s.file.serve_cases s.disk request with ⟨_, hserve⟩ | ⟨hwrite, _⟩ | ⟨hwrite, _⟩
    · simp only [Store.serve, hserve, hfaithful.image]
    · rw [hquestion] at hwrite
      contradiction
    · rw [hquestion] at hwrite
      contradiction
  · intro hread
    rw [hfaithful.file_eq, hfaithful.eq_empty_of_missing hread]
    exact DataFile.open_of_missing hread
  · intro hlegible hopen hintact text hread
    have hdecode := (hfaithful.stores hmissing hopen hintact).decode? hlegible hread
    rw [hfaithful.file_eq]
    exact ⟨hdecode, DataFile.open_of_decode? hread hdecode⟩

theorem Disk.exists_read {d : Disk} {path : String}
    (h : (d.read path).toOption.isSome = true) : ∃ text, d.read path = .ok text := by
  cases hread : d.read path with
  | ok text => exact ⟨text, rfl⟩
  | error r =>
    rw [hread] at h
    contradiction

theorem legible_putList_create (id name : String) {now : Timestamp} (h : now.Legible) :
    (Image.empty.putList (.create id name now)).Legible :=
  Image.legible_empty.putList ⟨h, h, fun _ hitem => (nomatch hitem)⟩

/--
The first of three changes is refused, because the new file cannot be moved into place, and the
second one is cut short unseen. The third one is found when the file is opened again.
-/
theorem dataFile_durable_outage :
    let d : Disk := ⟨[], [some (.seen .rename 0), some (.unseen 3), none]⟩
    let path := "a.json"
    let list := Checklist.create "1" "Trip" .epoch
    let cut := ((Mirrored.mk ⟨path, .empty⟩ d .empty false true).call
      (.saveList (.create "0" "Books" .epoch))).call .clear
    let s := cut.call (.saveList list)
    d.read path = .error .missing ∧ s.Reachable d path ∧
      (cut.written = true ∧ cut.intact = false) ∧ s.twin = Image.empty.putList list ∧
      ((Store.file s.file).serve s.disk (.findList "1")).1 = .ok (some list) ∧
      DataFile.open s.disk path = .ok s.file := by
  intro d path list cut s
  have hmissing : d.read path = .error .missing := by decide +kernel
  have hreachable : s.Reachable d path :=
    (((Mirrored.Reachable.start (by decide +kernel)).step (.call _ _)).step (.call _ _)).step
      (.call _ _)
  have hcut : cut.written = true ∧ cut.intact = false := by decide +kernel
  have htwin : s.twin = Image.empty.putList list := by decide +kernel
  have hwritten : s.written = true := by decide +kernel
  have hintact : s.intact = true := by decide +kernel
  have hread : ∃ text, s.disk.read path = .ok text := Disk.exists_read (by decide +kernel)
  -- All that has to be computed is known now.
  clear_value s
  obtain ⟨hanswers, _, hdurable⟩ := dataFile_durable hmissing hreachable
  refine ⟨hmissing, hreachable, hcut, htwin, ?_, ?_⟩
  · rw [hanswers (.findList "1") rfl, htwin]
    rfl
  · obtain ⟨text, hread⟩ := hread
    refine (hdurable ?_ (.inr hwritten) hintact text hread).2
    rw [htwin]
    exact legible_putList_create "1" "Trip" (by decide +kernel)

/--
A path that passes through a missing directory is opened beside the file it leads to. The first
change is refused, but the directory has been made then, and the file comes to light.
-/
theorem dataFile_opens_hidden :
    let path := "s/../a.json"
    let stored := Image.empty.putList (.create "1" "Trip" .epoch)
    let text := DataFile.encode stored
    let d : Disk := ⟨[(["a.json"], .file text), (["a.json.tmp"], .directory)], []⟩
    d.read path = .error .missing ∧
      ¬ ∀ s : Mirrored, s.Reachable d path → s.twin.Legible →
        (∃ text, s.disk.read path = .ok text) ∨ s.disk.read path = .error .missing →
        DataFile.open s.disk path = .ok s.file := by
  intro path stored text d
  have hmissing : d.read path = .error .missing := by decide +kernel
  refine ⟨hmissing, fun hdurable => ?_⟩
  let s := (Mirrored.mk ⟨path, .empty⟩ d .empty false true).call
    (.saveList (.create "2" "Books" .epoch))
  have hreachable : s.Reachable d path :=
    (Mirrored.Reachable.start (by decide +kernel)).step (.call _ _)
  have hunwritten : s.written = false := by decide +kernel
  have hread : ∃ text', s.disk.read path = .ok text' := Disk.exists_read (by decide +kernel)
  have hnode : d.node? (Disk.target path) = some (.file text) := by
    have htarget : Disk.target path = ["a.json"] := by decide +kernel
    rw [htarget]
    rfl
  have hstored : stored ≠ .empty := by decide +kernel
  have hdecode : DataFile.decode? text = some stored :=
    DataFile.decode?_encode (legible_putList_create "1" "Trip" (by decide +kernel))
  clear_value s d text stored
  have hfaithful := hreachable.faithful hmissing
  obtain ⟨htwin, hspares⟩ := hfaithful.untouched hunwritten
  obtain ⟨text', hread⟩ := hread
  have htext : text' = text := by
    have hnode' := (hspares.text text).2 hnode
    rw [Disk.node?_of_read hread] at hnode'
    cases hnode'
    rfl
  have hlegible : s.twin.Legible := by
    rw [htwin]
    exact Image.legible_empty
  have hopen := hdurable s hreachable hlegible (.inl ⟨text', hread⟩)
  rw [htext] at hread
  rw [DataFile.open_of_decode? hread hdecode] at hopen
  have himage : stored = s.file.image := congrArg DataFile.image (Except.ok.inj hopen)
  rw [hfaithful.image, htwin] at himage
  exact hstored himage

end ListKeeper
