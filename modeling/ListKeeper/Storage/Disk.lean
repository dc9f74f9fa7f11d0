import ListKeeper.Storage.Path

/-!
This module contains a file system: files and directories by their places, and the operations on
them that a data file needs. Operations are refused as those of a real file system are.
-/

namespace ListKeeper

/--
The names on the way to a file, starting in the working directory. A path from the root starts with
the name `/`.
-/
abbrev Place := List String

inductive Node where
  | file (text : String)
  | directory
deriving DecidableEq, Repr

inductive Refusal where
  | missing
  | notADirectory
  | isADirectory
  | alreadyThere
  | isBusy
  | badName
  | tooLong
  | outage
deriving DecidableEq, Repr

def Refusal.message : Refusal → String
  | .missing => "No such file or directory"
  | .notADirectory => "Not a directory"
  | .isADirectory => "Is a directory"
  | .alreadyThere => "File exists"
  | .isBusy => "Directory is in use"
  | .badName => "Invalid file name"
  | .tooLong => "File name too long"
  | .outage => "Input/output error"

inductive Stage where
  | makeDirectory
  | createStaging
  | writeStaging
  | syncStaging
  | rename
deriving DecidableEq, Repr

/--
What goes wrong for a reason outside the program. Only so many characters of the new file are written
when writing it fails, and that failure may not be seen: the last part of a text is written while
the program goes on, and nobody asks what has become of it.
-/
inductive Outage where
  | seen (stage : Stage) (written : Nat)
  | unseen (written : Nat)
deriving DecidableEq, Repr

/--
A file system without links, and what will go wrong when files are replaced the next times.
-/
structure Disk where
  nodes : List (Place × Node)
  outages : List (Option Outage)
deriving DecidableEq, Repr

namespace Disk

def ofDirectories (places : List Place) : Disk :=
  ⟨places.map fun place => (place, .directory), []⟩

def node? (d : Disk) (place : Place) : Option Node :=
  if place.isEmpty then some .directory else d.nodes.lookup place

def put (d : Disk) (place : Place) (node : Node) : Disk :=
  { d with nodes := (place, node) :: d.nodes.filter fun entry => entry.1 != place }

def erase (d : Disk) (place : Place) : Disk :=
  { d with nodes := d.nodes.filter fun entry => !place.isPrefixOf entry.1 }

def clear (d : Disk) (place : Place) : Disk :=
  { d with nodes := d.nodes.filter fun entry => !place.isPrefixOf entry.1 || entry.1 == place }

def nameLimit : Nat := 255

def pathLimit : Nat := 4095

def vet (path : String) : Except Refusal Unit :=
  if path.toList.contains '\x00' then .error .badName
  else if pathLimit < path.utf8ByteSize then .error .tooLong
  else if path.isEmpty then .error .missing
  else .ok ()

def origin (path : String) : Place :=
  if path.toList.head? == some '/' then ["/"] else []

def upward (place : Place) : Place :=
  if place == ["/"] then place else place.dropLast

def follow (d : Disk) (place : Place) : List String → Except Refusal Place
  | [] => .ok place
  | name :: rest =>
    match d.node? place with
    | none => .error .missing
    | some (.file _) => .error .notADirectory
    | some .directory =>
      if name == "." then follow d place rest
      else if name == ".." then follow d (upward place) rest
      else if name.utf8ByteSize ≤ nameLimit then follow d (place ++ [name]) rest
      else .error .tooLong

def locate (d : Disk) (path : String) : Except Refusal Place := do
  vet path
  let closing := if path.toList.getLast? == some '/' then ["."] else []
  d.follow (origin path) (Path.names path ++ closing)

def isDirectory (d : Disk) (path : String) : Bool :=
  match d.locate path with
  | .ok place => d.node? place == some .directory
  | .error _ => false

def read (d : Disk) (path : String) : Except Refusal String := do
  match d.node? (← d.locate path) with
  | some (.file text) => .ok text
  | some .directory => .error .isADirectory
  | none => .error .missing

def write (d : Disk) (path text : String) : Except Refusal Disk := do
  let place ← d.locate path
  match d.node? place with
  | some .directory => .error .isADirectory
  | _ => .ok (d.put place (.file text))

def makeDirectory (d : Disk) (path : String) : Except Refusal Disk := do
  vet path
  match (Path.names path).reverse with
  | [] => .error .alreadyThere
  | name :: rest =>
    let dir ← d.follow (origin path) (rest.reverse ++ ["."])
    let place ← d.follow dir [name]
    match d.node? place with
    | some _ => .error .alreadyThere
    | none => .ok (d.put place .directory)

def ensureDirectory (d : Disk) (path : String) : Except Refusal Unit × Disk :=
  match d.makeDirectory path with
  | .ok d => (.ok (), d)
  | .error r => (if d.isDirectory path then .ok () else .error r, d)

/--
Create the first of some directories, each of which is in the next one. The others are created only
if it cannot be created without them.
-/
def makeAlong (d : Disk) : List String → Except Refusal Unit × Disk
  | [] => (.ok (), d)
  | path :: rest =>
    match d.ensureDirectory path with
    | (.error .missing, _) =>
      match makeAlong d rest with
      | (.ok (), d) => d.ensureDirectory path
      | refused => refused
    | done => done

def makeDirectories (d : Disk) (path : String) : Except Refusal Unit × Disk :=
  match Path.parent? path with
  | none => (.ok (), d)
  | some _ => d.makeAlong (path :: Path.above path)

def rename (d : Disk) (source target : String) : Except Refusal Disk := do
  let text ← d.read source
  let place ← d.locate source
  let goal ← d.locate target
  match d.node? goal with
  | some .directory => .error .isADirectory
  | _ => .ok ((d.erase place).put goal (.file text))

/--
Remove a file, or a directory with all below it. A directory that is called by a single dot is
emptied, but cannot be removed. One that is called by two dots is only emptied, because the path
that leads there is gone then.
-/
def remove (d : Disk) (path : String) : Except Refusal Unit × Disk :=
  match d.locate path with
  | .error r => (.error r, d)
  | .ok place =>
    match d.node? place, (Path.names path).getLast? with
    | none, _ => (.error .missing, d)
    | some (.file _), _ => (.ok (), d.erase place)
    | some .directory, some "." => (.error .isBusy, d.clear place)
    | some .directory, some ".." => (.ok (), d.clear place)
    | some .directory, some _ => (.ok (), d.erase place)
    | some .directory, none => (.error .isBusy, d)

def names (d : Disk) (path : String) : List String :=
  match d.locate path with
  | .error _ => []
  | .ok place =>
    let inside := d.nodes.filterMap fun (other, _) =>
      if other.dropLast == place then other.getLast? else none
    inside.mergeSort fun a b => a ≤ b

def staging (path : String) : String :=
  Path.sibling path ((Path.fileName? path).getD "" ++ ".tmp")

def directory (path : String) : String :=
  (Path.parent? path).getD ""

end Disk

namespace Stage

def all : List Stage :=
  [.makeDirectory, .createStaging, .writeStaging, .syncStaging, .rename]

def act (path text : String) (stage : Stage) (d : Disk) : Except Refusal Unit × Disk :=
  let changed (result : Except Refusal Disk) : Except Refusal Unit × Disk :=
    match result with
    | .ok d => (.ok (), d)
    | .error r => (.error r, d)
  match stage with
  | .makeDirectory => d.makeDirectories (Disk.directory path)
  | .createStaging => changed (d.write (Disk.staging path) "")
  | .writeStaging => changed (d.write (Disk.staging path) text)
  | .syncStaging => (.ok (), d)
  | .rename => changed (d.rename (Disk.staging path) path)

def cut (text : String) (written : Nat) : String :=
  String.ofList (text.toList.take written)

def stored (outage : Option Outage) (text : String) : String :=
  match outage with
  | some (.unseen written) => cut text written
  | _ => text

def interrupted (path text : String) (written : Nat) (stage : Stage) (d : Disk) : Disk :=
  match stage with
  | .writeStaging => ((d.write (Disk.staging path) (cut text written)).toOption).getD d
  | _ => d

def run (outage : Option Outage) (path text : String) (stage : Stage) (d : Disk) :
    Except Refusal Unit × Disk :=
  match outage with
  | some (.seen failing written) =>
    if failing = stage then (.error .outage, stage.interrupted path text written d)
    else stage.act path text d
  | _ => stage.act path (stored outage text) d

def complaint (path : String) (stage : Stage) : String :=
  let dir := Disk.directory path
  let staging := Disk.staging path
  match stage with
  | .makeDirectory => s!"cannot create '{dir}'"
  | .createStaging => s!"cannot create '{staging}'"
  | .writeStaging => s!"cannot write '{staging}'"
  | .syncStaging => s!"cannot sync '{staging}'"
  | .rename => s!"cannot move '{staging}' into place"

def runAll (outage : Option Outage) (path text : String) :
    List Stage → Disk → Except (Stage × Refusal) Unit × Disk
  | [], d => (.ok (), d)
  | stage :: rest, d =>
    match stage.run outage path text d with
    | (.ok (), d) => runAll outage path text rest d
    | (.error r, d) => (.error (stage, r), d)

end Stage

namespace Disk

def nextOutage (d : Disk) : Option Outage :=
  d.outages.head?.getD none

/--
What is left of a text when a file is replaced next.
-/
def stored (d : Disk) (text : String) : String :=
  Stage.stored d.nextOutage text

def skipOutage (d : Disk) : Disk :=
  { d with outages := d.outages.tail }

/--
Replace the text of a file: the new text is prepared in another file, which then takes the place of
the old one.
-/
def replace (d : Disk) (path text : String) : Except (Stage × Refusal) Unit × Disk :=
  Stage.runAll d.nextOutage path text Stage.all d.skipOutage

end Disk

end ListKeeper
