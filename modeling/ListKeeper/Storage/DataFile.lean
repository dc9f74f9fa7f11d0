import ListKeeper.Json.Parser
import ListKeeper.Json.Printer
import ListKeeper.Storage.Disk
import ListKeeper.Storage.Image

/-!
This module contains storage in a file. The content is kept in memory as well; a change counts only
when the file has been replaced. It also contains the kinds of storage that come with the program.
-/

namespace ListKeeper

namespace Request

def isWrite : Request α → Bool
  | .saveList _ | .deleteList _ | .saveItem _ | .deleteItem _ | .clear => true
  | _ => false

end Request

structure DataFile where
  path : String
  image : Image
deriving DecidableEq, Repr

namespace DataFile

def encode (image : Image) : String :=
  image.toJson.toPrettyText

def decode? (text : String) : Option Image :=
  (Json.ofText? text).bind Image.ofJson?

def «open» (disk : Disk) (path : String) : Except Error DataFile :=
  match disk.read path with
  | .ok text =>
    match decode? text with
    | some image => .ok ⟨path, image⟩
    | none =>
      .error (.persistence "open" s!"Failed to parse data file '{path}': not a data file")
  | .error .missing => .ok ⟨path, .empty⟩
  | .error r =>
    let reason := r.message
    .error (.persistence "open" s!"Failed to read data file '{path}': {reason}")

def textAfter (file : DataFile) (request : Request α) : String :=
  encode (file.image.serve request).2

def conclude (file : DataFile) (request : Request α) (replaced : Except (Stage × Refusal) Unit) :
    Except Error α × DataFile :=
  match replaced with
  | .ok () =>
    let (answer, image) := file.image.serve request
    (.ok answer, { file with image := image })
  | .error (stage, r) =>
    let complaint := stage.complaint file.path
    let reason := r.message
    (.error (.persistence request.method s!"{complaint}: {reason}"), file)

/--
Answer a call. A call that changes the content replaces the file first, and changes nothing when
that fails.
-/
def serve (file : DataFile) (disk : Disk) (request : Request α) :
    Except Error α × DataFile × Disk :=
  if request.isWrite then
    let (replaced, disk) := disk.replace file.path (file.textAfter request)
    let (answer, file) := file.conclude request replaced
    (answer, file, disk)
  else
    (.ok (file.image.serve request).1, file, disk)

def gateway : Gateway (DataFile × Disk) :=
  .ofFunction fun request (file, disk) => serve file disk request

end DataFile

inductive Store where
  | memory (image : Image)
  | file (file : DataFile)
deriving DecidableEq, Repr

namespace Store

def image : Store → Image
  | .memory content => content
  | .file f => f.image

def serve (store : Store) (disk : Disk) (request : Request α) : Except Error α × Store × Disk :=
  match store with
  | .memory content =>
    let (answer, content) := content.serve request
    (.ok answer, .memory content, disk)
  | .file f =>
    let (answer, f, disk) := f.serve disk request
    (answer, .file f, disk)

end Store
end ListKeeper
