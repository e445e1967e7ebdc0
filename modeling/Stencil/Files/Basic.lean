import Stencil.Encoding.Basic

/-!
# Paths and trees of files

A path is written as names with slashes between them. Empty names and single points in it mean nothing
and are dropped; two points stand for the folder above. A tree of files holds files and folders at
places and has a folder in which relative paths start. Files are read and written through paths; writing
changes the file at one place and nothing else (`Files.bytes?_set_of_ne`).
-/

namespace Stencil

/-! ## Paths -/

/-- A path: its slashes in front, of which there are none in a relative path, and its names. -/
structure Path where
  root : String
  names : List String
  deriving Repr, DecidableEq

namespace Path

/-- The texts between the slashes of a text. -/
def splitSlashes : Text → List Text
  | [] => [[]]
  | c :: r =>
    if c = '/' then [] :: splitSlashes r
    else match splitSlashes r with
      | [] => [[c]]
      | first :: rest => (c :: first) :: rest

/-- The slashes in front: two of them are kept, more count as one. -/
def rootOf (t : Text) : String :=
  match (t.takeWhile (· = '/')).length with
  | 0 => ""
  | 2 => "//"
  | _ => "/"

/-- Whether a name means something in a path. -/
def isName (t : Text) : Bool :=
  t ≠ [] && t ≠ ['.']

/-- Reads a path. -/
def ofString (s : String) : Path :=
  ⟨rootOf s.toList, ((splitSlashes s.toList).filter isName).map String.ofList⟩

/-- A path as it is shown; the path without any names is a point. -/
def shown (p : Path) : String :=
  if p.root = "" && p.names.isEmpty then "." else p.root ++ String.intercalate "/" p.names

/-- The last name of a path. -/
def name (p : Path) : String :=
  p.names.getLast?.getD ""

/-- The end of the last name from its last point on, unless the point is at an end of the name. -/
def suffix (p : Path) : String :=
  let tail := (p.name.toList.reverse.takeWhile (· ≠ '.')).reverse
  if tail.isEmpty || p.name.length ≤ tail.length + 1 then ""
  else String.ofList ('.' :: tail)

end Path

/-! ## Trees of files -/

/-- A place in a tree of files: the names on the way from the root. -/
abbrev Place := List String

/-- What may be at a place. -/
inductive Entry where
  | file (bytes : Bytes)
  | folder
  deriving Repr, DecidableEq

/-- A tree of files, with the folder in which relative paths start. A folder is also wherever something
lies below. -/
structure Files where
  entries : List (Place × Entry)
  here : Place
  deriving Repr, DecidableEq

/-- Why there is no file to read or to write at a path. -/
inductive FileFault where
  | notFound
  | notDirectory
  | isDirectory
  | nameTooLong
  | nullByte
  deriving Repr, DecidableEq

namespace FileFault

/-- The words for a fault. -/
def text : FileFault → String
  | notFound => "No such file or directory"
  | notDirectory => "Not a directory"
  | isDirectory => "Is a directory"
  | nameTooLong => "File name too long"
  | nullByte => "embedded null byte"

/-- The number of a fault. A null byte is refused before any file is looked for and has none. -/
def number? : FileFault → Option Nat
  | notFound => some 2
  | notDirectory => some 20
  | isDirectory => some 21
  | nameTooLong => some 36
  | nullByte => none

end FileFault

namespace Files

/-- What is at a place. -/
def at? (fs : Files) (p : Place) : Option Entry :=
  match fs.entries.find? fun e => e.1 = p with
  | some e => some e.2
  | none =>
    if p.isPrefixOf fs.here || fs.entries.any fun e => p.isPrefixOf e.1 then some .folder else none

/-- The most bytes that a name may have. -/
def nameLimit : Nat := 255

/-- The number of bytes from which on a path is too long. -/
def pathLimit : Nat := 4096

/-- Goes from a place along names. Each of them is looked for in a folder. -/
def walk (fs : Files) : Place → List String → Except FileFault Place
  | p, [] => .ok p
  | p, n :: rest =>
    match fs.at? p with
    | none => .error .notFound
    | some (.file _) => .error .notDirectory
    | some .folder =>
      if nameLimit < n.utf8ByteSize then .error .nameTooLong
      else walk fs (if n = ".." then p.dropLast else p ++ [n]) rest

/-- The place that a path leads to. -/
def place (fs : Files) (path : Path) : Except FileFault Place :=
  if path.names.any fun n => n.toList.contains (Char.ofNat 0) then .error .nullByte
  else if pathLimit ≤ path.shown.utf8ByteSize then .error .nameTooLong
  else fs.walk (if path.root = "" then fs.here else []) path.names

/-- Reads the file at a path. -/
def read (fs : Files) (path : Path) : Except FileFault Bytes := do
  match fs.at? (← fs.place path) with
  | some (.file bytes) => return bytes
  | some .folder => throw .isDirectory
  | none => throw .notFound

/-- Whether a path leads to a file. A name that is too long is a fault also here. -/
def isFile (fs : Files) (path : Path) : Except FileFault Bool :=
  match fs.read path with
  | .ok _ => .ok true
  | .error .nameTooLong => .error .nameTooLong
  | .error _ => .ok false

/-- The tree with an entry at a place. -/
def set (fs : Files) (p : Place) (e : Entry) : Files :=
  { fs with entries := (p, e) :: fs.entries.filter fun old => old.1 ≠ p }

/-- The place of a file that may be written at a path. -/
def writable (fs : Files) (path : Path) : Except FileFault Place := do
  let p ← fs.place path
  match fs.at? p with
  | some .folder => throw .isDirectory
  | some (.file _) => return p
  | none =>
    match fs.at? p.dropLast with
    | some .folder => return p
    | some (.file _) => throw .notDirectory
    | none => throw .notFound

/-- The bytes of the file at a place. -/
def bytes? (fs : Files) (p : Place) : Option Bytes :=
  match fs.entries.find? fun e => e.1 = p with
  | some (_, .file bytes) => some bytes
  | _ => none

/-- Setting an entry leaves the entries at other places as they are. -/
theorem find?_set_of_ne (fs : Files) {p q : Place} (e : Entry) (h : q ≠ p) :
    (fs.set p e).entries.find? (fun x => x.1 = q) = fs.entries.find? (fun x => x.1 = q) := by
  simp only [set, List.find?_cons]
  rw [decide_eq_false fun hp : p = q => h hp.symm]
  simp only [List.find?_filter]
  congr 1
  funext x
  by_cases hx : x.1 = q
  · subst hx; simp [h]
  · simp [hx]

/-- Setting an entry leaves the files at other places as they are. -/
theorem bytes?_set_of_ne (fs : Files) {p q : Place} (e : Entry) (h : q ≠ p) :
    (fs.set p e).bytes? q = fs.bytes? q := by
  simp only [bytes?, find?_set_of_ne fs e h]

end Files

end Stencil
