import ListKeeper.Json.Basic

/-!
This module contains the reader of JSON documents. It takes the strict grammar: no comments, no
commas at the end, no control characters in strings.
-/

namespace ListKeeper.Json

open Text

def isSpace (c : Char) : Bool :=
  c == ' ' || c == '\n' || c == '\t' || c == '\r'

def skip (cs : List Char) : List Char :=
  cs.dropWhile isSpace

def unit? (a b c d : Char) : Option Nat := do
  let a ← hexValue? a
  let b ← hexValue? b
  let c ← hexValue? c
  let d ← hexValue? d
  return ((a * 16 + b) * 16 + c) * 16 + d

def isLead (n : Nat) : Bool := 0xD800 ≤ n && n < 0xDC00

def isTrail (n : Nat) : Bool := 0xDC00 ≤ n && n < 0xE000

def pairChar (lead trail : Nat) : Char :=
  Char.ofNat (0x10000 + (lead - 0xD800) * 0x400 + (trail - 0xDC00))

def escaped? : Char → Option Char
  | '"' => some '"'
  | '\\' => some '\\'
  | '/' => some '/'
  | 'b' => some '\x08'
  | 'f' => some '\x0c'
  | 'n' => some '\n'
  | 'r' => some '\r'
  | 't' => some '\t'
  | _ => none

inductive Mark where
  | char (c : Char)
  | unit (n : Nat)

def readMarks : List Char → Option (List Mark × List Char)
  | [] => none
  | '"' :: rest => some ([], rest)
  | '\\' :: 'u' :: a :: b :: c :: d :: rest =>
    match unit? a b c d with
    | some n => (readMarks rest).map fun (marks, rest) => (.unit n :: marks, rest)
    | none => none
  | '\\' :: e :: rest =>
    match escaped? e with
    | some c => (readMarks rest).map fun (marks, rest) => (.char c :: marks, rest)
    | none => none
  | c :: rest =>
    if c.toNat < 0x20 then none
    else (readMarks rest).map fun (marks, rest) => (.char c :: marks, rest)

def join : List Mark → Option (List Char)
  | [] => some []
  | .char c :: marks => (join marks).map (c :: ·)
  | .unit n :: .unit m :: marks =>
    if isLead n then
      if isTrail m then (join marks).map (pairChar n m :: ·) else none
    else if isTrail n then
      none
    else
      (join (.unit m :: marks)).map (Char.ofNat n :: ·)
  | .unit n :: marks =>
    if isLead n || isTrail n then none else (join marks).map (Char.ofNat n :: ·)

def readText (cs : List Char) : Option (Option (List Char) × List Char) :=
  (readMarks cs).map fun (marks, rest) => (join marks, rest)

mutual

/--
Read a document at the start of a text and give what follows it. The first argument bounds the
number of steps.
-/
def readValue : Nat → List Char → Option (Json × List Char)
  | 0, _ => none
  | fuel + 1, cs =>
    match skip cs with
    | 'n' :: 'u' :: 'l' :: 'l' :: rest => some (.null, rest)
    | 't' :: 'r' :: 'u' :: 'e' :: rest => some (.bool true, rest)
    | 'f' :: 'a' :: 'l' :: 's' :: 'e' :: rest => some (.bool false, rest)
    | '"' :: rest =>
      match readText rest with
      | none => none
      | some (none, rest) => some (.broken, rest)
      | some (some s, rest) => some (.str (String.ofList s), rest)
    | '[' :: rest =>
      match skip rest with
      | ']' :: rest => some (.arr [], rest)
      | rest =>
        match readValue fuel rest with
        | none => none
        | some (v, rest) =>
          (readItems fuel rest).map fun (vs, rest) => (.arr (v :: vs), rest)
    | '\x7b' :: rest =>
      match skip rest with
      | '\x7d' :: rest => some (.obj [], rest)
      | rest =>
        match readField fuel rest with
        | none => none
        | some (field, rest) =>
          (readFields fuel rest).map fun (fields, rest) =>
            match field, fields with
            | some field, some fields => (.obj (field :: fields), rest)
            | _, _ => (.broken, rest)
    | rest => (Numeral.read rest).map fun (n, rest) => (.num n, rest)

def readItems : Nat → List Char → Option (List Json × List Char)
  | 0, _ => none
  | fuel + 1, cs =>
    match skip cs with
    | ']' :: rest => some ([], rest)
    | ',' :: rest =>
      match readValue fuel rest with
      | none => none
      | some (v, rest) => (readItems fuel rest).map fun (vs, rest) => (v :: vs, rest)
    | _ => none

def readField : Nat → List Char → Option (Option (String × Json) × List Char)
  | 0, _ => none
  | fuel + 1, cs =>
    match skip cs with
    | '"' :: rest =>
      match readText rest with
      | none => none
      | some (key, rest) =>
        match skip rest with
        | ':' :: rest =>
          (readValue fuel rest).map fun (v, rest) => (key.map fun k => (String.ofList k, v), rest)
        | _ => none
    | _ => none

def readFields : Nat → List Char → Option (Option (List (String × Json)) × List Char)
  | 0, _ => none
  | fuel + 1, cs =>
    match skip cs with
    | '\x7d' :: rest => some (some [], rest)
    | ',' :: rest =>
      match readField fuel rest with
      | none => none
      | some (field, rest) =>
        (readFields fuel rest).map fun (fields, rest) =>
          match field, fields with
          | some field, some fields => (some (field :: fields), rest)
          | _, _ => (none, rest)
    | _ => none

end

def read (cs : List Char) : Option Json :=
  match readValue (2 * cs.length + 2) cs with
  | some (v, rest) => if (skip rest).isEmpty then some v else none
  | none => none

def ofText? (s : String) : Option Json :=
  read s.toList

end ListKeeper.Json
