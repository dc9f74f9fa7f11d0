import ListKeeper.Config.Basic
import ListKeeper.Notice
import ListKeeper.Storage.DataFile

/-!
This module contains the registry, which knows how to make the storage that the settings name, and
how an application is put together from its settings and its storage.
-/

namespace ListKeeper

structure Registry (β : Type) where
  makers : Index (Config → Except Error β)

namespace Registry

def empty : Registry β := ⟨.empty⟩

def register (r : Registry β) (name : String) (make : Config → Except Error β) : Registry β :=
  ⟨r.makers.insert name make⟩

def contains (r : Registry β) (name : String) : Bool :=
  r.makers.contains name

def names (r : Registry β) : List String :=
  r.makers.entries.map (·.1)

def unknownBackend (r : Registry β) (name : String) : Error :=
  let known := ", ".intercalate r.names
  .invalidConfig s!"unknown backend '{name}' (registered: {known})"

def build (r : Registry β) (config : Config) : Except Error β :=
  match r.makers.get? config.backend with
  | some make => make config
  | none => .error (r.unknownBackend config.backend)

def openFile (disk : Disk) (config : Config) : Except Error Store :=
  match config.dataPath with
  | some path => (DataFile.open disk path).map .file
  | none => .error (.invalidConfig "the file backend requires data_path")

def standard (disk : Disk) : Registry Store :=
  empty
    |>.register "memory" (fun _ => .ok (.memory .empty))
    |>.register "file" (openFile disk)

def map (f : β → γ) (r : Registry β) : Registry γ :=
  ⟨.ofList (r.makers.entries.map fun (name, make) => (name, fun config => (make config).map f))⟩

end Registry

structure Blueprint (β : Type) where
  config : Config
  registry : Registry β
  storage : Option β

structure App (β : Type) where
  config : Config
  storage : β

namespace Blueprint

def chooseStorage (b : Blueprint β) : Except Error β :=
  match b.storage with
  | some storage => .ok storage
  | none => b.registry.build b.config

def build (b : Blueprint β) : Except Error (App β) := do
  b.config.validate
  let storage ← b.chooseStorage
  b.config.queue.validate
  return ⟨b.config, storage⟩

end Blueprint

namespace App

def readiness (app : App β) : Notice :=
  .ready app.config.backend app.config.queue.maxConcurrent

end App
end ListKeeper
