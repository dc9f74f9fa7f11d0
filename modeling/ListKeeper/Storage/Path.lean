/-!
This module contains paths as they are written: names with slashes between them. Repeated slashes,
a slash at the end, and single dots behind the first name do not count as names of their own.
-/

namespace ListKeeper

namespace Path

def split (cs : List Char) : List (List Char) :=
  cs.foldr (fun c parts =>
    match c, parts with
    | '/', parts => [] :: parts
    | c, part :: parts => (c :: part) :: parts
    | c, [] => [[c]]) [[]]

def names (path : String) : List String :=
  ((split path.toList).filter (!·.isEmpty)).map String.ofList

def isSilent (part : List Char) : Bool :=
  part.isEmpty || part == ['.']

/--
Drop the silent parts in front of the first name. The very last part stays: it tells where a path
starts. Paths are taken apart from their end, so the parts come in reverse order.
-/
def dropSilent : List (List Char) → List (List Char)
  | [] => []
  | [first] => [first]
  | part :: rest => if isSilent part then dropSilent rest else part :: rest

def reversedParts (path : String) : List (List Char) :=
  dropSilent (split path.toList).reverse

def write (parts : List (List Char)) : String :=
  match parts with
  | [[]] => "/"
  | parts => "/".intercalate (parts.reverse.map String.ofList)

def aboveParts : List (List Char) → List String
  | [] => []
  | part :: rest =>
    if isSilent part then
      aboveParts rest
    else
      match dropSilent rest with
      | [] | [[]] => []
      | parts => write parts :: aboveParts rest

def above (path : String) : List String :=
  aboveParts (reversedParts path)

def parent? (path : String) : Option String :=
  match reversedParts path with
  | [] | [[]] => none
  | [_] => some ""
  | _ :: rest => some (write (dropSilent rest))

def fileName? (path : String) : Option String :=
  match reversedParts path with
  | [] => none
  | part :: _ =>
    if isSilent part || part == ['.', '.'] then none else some (String.ofList part)

def join (dir name : String) : String :=
  if dir.isEmpty || dir.toList.getLast? == some '/' then dir ++ name else dir ++ "/" ++ name

/--
The path of another file in the same directory. A path without a name is taken as the directory.
-/
def sibling (path name : String) : String :=
  match fileName? path, parent? path with
  | some _, some dir => join dir name
  | _, _ => join path name

end Path
end ListKeeper
