import ListKeeper.Simulation.Lock
import ListKeeper.Simulation.Rule
import ListKeeper.Storage.DataFile

/-!
This module contains storage under test. Transfers to and from the disk take their time, during
which a file is locked. Calls wait for the lock, and let others run after too many that did not.
-/

namespace ListKeeper

structure Shelf where
  store : Store
  lock : Lock
deriving DecidableEq, Repr

structure Transfer where
  ticket : Nat
  strand : Option Strand
deriving DecidableEq, Repr

/--
Storage under test: the disk, all storage that was ever opened, the number of the storage that
follows the rules, and the rules. The keeper may also have storage of its own, to which no rule
applies. Claims to locks and transfers are numbered; the transfers are those under way. The roster
tells who waits.
-/
structure Bench where
  disk : Disk
  shelves : List Shelf
  current : Nat
  own : Option Nat
  rules : List Rule
  tickets : Nat
  transfers : List Transfer
  roster : Roster

namespace Bench

def create (disk : Disk) (store : Store) (own : Option Store) : Bench where
  disk := disk
  shelves := ⟨store, .free⟩ :: (own.map fun own => ⟨own, .free⟩).toList
  current := 0
  own := own.map fun _ => 1
  rules := []
  tickets := 0
  transfers := []
  roster := .start

def modifyRoster (f : Roster → Roster) (bench : Bench) : Bench :=
  { bench with roster := f bench.roster }

def shelf (bench : Bench) (i : Nat) : Shelf :=
  bench.shelves[i]?.getD ⟨.memory .empty, .free⟩

def store (bench : Bench) : Store :=
  (bench.shelf bench.current).store

def modifyShelf (bench : Bench) (i : Nat) (f : Shelf → Shelf) : Bench :=
  { bench with shelves := bench.shelves.modify i f }

def modifyLock (bench : Bench) (i : Nat) (f : Lock → Lock) : Bench :=
  bench.modifyShelf i fun shelf => { shelf with lock := f shelf.lock }

def exchange (bench : Bench) (store : Store) : Bench :=
  { bench with
    shelves := bench.shelves ++ [⟨store, .free⟩]
    current := bench.shelves.length }

def takeTicket : Act Bench Nat :=
  .atomic fun bench => (.ok bench.tickets, { bench with tickets := bench.tickets + 1 })

def release (i ticket : Nat) (bench : Bench) : Bench :=
  let before := (bench.shelf i).lock
  let after := before.release ticket
  (bench.modifyLock i fun _ => after).modifyRoster (·.rouseAll (before.granted after))

def yieldFor (giveUp : Bench → Bench) : (fuel : Nat) → Act Bench Unit
  | 0 => pure ()
  | fuel + 1 => do
    if (← Act.get).roster.isSpent then
      Act.modify (modifyRoster Roster.postpone)
      Act.await (fun _ => true) giveUp
      yieldFor giveUp fuel

def yieldIfSpent (giveUp : Bench → Bench) : Act Bench Unit :=
  yieldFor giveUp Roster.turnLimit

def proceed (giveUp : Bench → Bench) : Act Bench Unit := do
  yieldIfSpent giveUp
  Act.modify (modifyRoster Roster.spend)

def acquire (i : Nat) (exclusive : Bool) : Act Bench Nat := do
  yieldIfSpent id
  let ticket ← takeTicket
  Act.modify fun bench =>
    bench.modifyLock i (·.request ⟨ticket, exclusive, bench.roster.running⟩)
  let isHeld := fun (bench : Bench) => (bench.shelf i).lock.isHeldBy ticket
  if !isHeld (← Act.get) then
    Act.await isHeld (release i ticket)
  proceed (release i ticket)
  return ticket

def desert (ticket : Nat) (bench : Bench) : Bench :=
  { bench with
    transfers := bench.transfers.map fun transfer =>
      if transfer.ticket = ticket then { transfer with strand := none } else transfer }

def transfer (giveUp : Bench → Bench) : Act Bench Unit := do
  let ticket ← takeTicket
  Act.modify fun bench =>
    { bench with transfers := bench.transfers ++ [⟨ticket, some bench.roster.running⟩] }
  Act.await (fun bench => bench.transfers.all (·.ticket != ticket)) fun bench =>
    giveUp (bench.desert ticket)
  proceed giveUp

def work (bench : Bench) : Option Bench :=
  match bench.transfers with
  | [] => none
  | transfer :: rest =>
    some ({ bench with transfers := rest }.modifyRoster (·.rouseAll transfer.strand.toList))

def replace (giveUp : Bench → Bench) (outage : Option Outage) (path text : String) :
    List Stage → Act Bench (Except (Stage × Refusal) Unit)
  | [] => return .ok ()
  | stage :: rest => do
    let result ← Act.atomic fun bench =>
      let (result, disk) := stage.run outage path text bench.disk
      (.ok result, { bench with disk := disk })
    transfer giveUp
    match result with
    | .ok () => replace giveUp outage path text rest
    | .error r => return .error (stage, r)

def writeFile (i : Nat) (file : DataFile) (request : Request α) : Act Bench α := do
  let ticket ← acquire i true
  let bench ← Act.get
  let file := match (bench.shelf i).store with
    | .file file => file
    | .memory _ => file
  Act.modify fun bench => { bench with disk := bench.disk.skipOutage }
  let replaced ← replace (release i ticket) bench.disk.nextOutage file.path
    (file.textAfter request) Stage.all
  let (answer, file) := file.conclude request replaced
  Act.modify fun bench =>
    release i ticket (bench.modifyShelf i fun shelf => { shelf with store := .file file })
  Act.ofExcept answer

def serve (i : Nat) (request : Request α) : Act Bench α :=
  .atomic fun bench =>
    let (answer, store, disk) := (bench.shelf i).store.serve bench.disk request
    (answer, { bench.modifyShelf i fun shelf => { shelf with store := store } with disk := disk })

def readFile (i : Nat) (request : Request α) : Act Bench α := do
  let ticket ← acquire i false
  let answer ← (serve i request).outcome
  Act.modify (release i ticket)
  Act.ofExcept answer

def ask (i : Nat) (request : Request α) : Act Bench α := do
  match ((← Act.get).shelf i).store with
  | .memory _ =>
    proceed id
    serve i request
  | .file file => if request.isWrite then writeFile i file request else readFile i request

def askCurrent (request : Request α) : Act Bench α := do
  ask (← Act.get).current request

def openFile (path : String) : Act Bench String := do
  let opened := DataFile.open (← Act.get).disk path
  transfer id
  let file ← Act.ofExcept opened
  Act.modify (·.exchange (.file file))
  return file.path

end Bench
end ListKeeper
