import ReviewMentor.Path

/-!
# File trees

Files, directories and symbolic links as a value: a map from places to what stands there. A place is
the list of names that lead to it from the root. Following a path goes step by step, so that two
dots and links lead where they would lead in a file system.
-/

namespace ReviewMentor

/-- Where something stands: the names from the root downwards. -/
abbrev Place := List String

/-- What stands at a place. -/
inductive Entry where
  | directory
  | file (content : ByteArray) (mode : Nat)
  | link (target : String)

/-- A map from places to what stands there; the root is always a directory. -/
structure FileTree where
  entries : List (Place × Entry)

/-- Why an operation on a file tree fails. -/
inductive FileError where
  | notFound
  | notPermitted
  | occupied
  | notDirectory
  | isDirectory
  | tooManyLinks
  | nameTooLong
  | notEmpty
  | busy
  | badFormat
  | badName
  | badCommand
deriving DecidableEq, Repr

/-- Why an operation fails, in words. -/
def FileError.reason : FileError → String
  | notFound => "No such file or directory"
  | notPermitted => "Permission denied"
  | occupied => "File exists"
  | notDirectory => "Not a directory"
  | isDirectory => "Is a directory"
  | tooManyLinks => "Too many levels of symbolic links"
  | nameTooLong => "File name too long"
  | notEmpty => "Directory not empty"
  | busy => "Device or resource busy"
  | badFormat => "Exec format error"
  | badName => "file name contained an unexpected NUL byte"
  | badCommand => "nul byte found in provided data"

/-- The number under which a system knows a failure. -/
def FileError.number? : FileError → Option Nat
  | notFound => some 2
  | notPermitted => some 13
  | occupied => some 17
  | notDirectory => some 20
  | isDirectory => some 21
  | tooManyLinks => some 40
  | nameTooLong => some 36
  | notEmpty => some 39
  | busy => some 16
  | badFormat => some 8
  | badName | badCommand => none

/-- What is said about a failed operation. -/
def FileError.message (e : FileError) : String :=
  match e.number? with
  | some n => e.reason ++ " (os error " ++ toString n ++ ")"
  | none => e.reason

/-- Where a path leads: to something that stands there, or to a free name in a directory. -/
inductive Spot where
  | taken (place : Place)
  | free (directory : Place) (name : String)
deriving DecidableEq, Repr

namespace FileTree

/-- A tree with nothing but the root. -/
def empty : FileTree := ⟨[]⟩

/-- What stands at a place. -/
def lookup? (t : FileTree) (place : Place) : Option Entry :=
  if place = [] then some .directory else t.entries.lookup place

/-- Puts something at a place, instead of what stood there. -/
def set (t : FileTree) (place : Place) (e : Entry) : FileTree :=
  if t.entries.any (·.1 = place) then
    ⟨t.entries.map fun x => if x.1 = place then (place, e) else x⟩
  else ⟨t.entries ++ [(place, e)]⟩

/-- Takes a place and everything below it away. -/
def drop (t : FileTree) (place : Place) : FileTree :=
  ⟨t.entries.filter fun x => !place.isPrefixOf x.1⟩

/-- Whether a directory stands at a place. -/
def hasDirectory (t : FileTree) (place : Place) : Bool :=
  match t.lookup? place with
  | some .directory => true
  | _ => false

/-- The longest name that a directory holds, in bytes. -/
def longestName : Nat := 255

/-- The length from which on a path is refused, in bytes. -/
def pathLimit : Nat := 4096

/-- How many links are followed on one path. -/
def linkLimit : Nat := 40

/-- What a path says: where it starts and which steps it takes, and whether it can only lead to a
directory. -/
structure Route where
  start : Place
  steps : List String
  toDirectory : Bool

/-- The route of a path that is followed from a place. -/
def routeFrom (start : Place) (p : Path) : Route :=
  ⟨if p.isAbsolute then [] else start, p.parts, p.endsWithSlash⟩

/-- Follows steps up to the next link that has to be followed. `jump` goes on from there. -/
def follow (t : FileTree) (lastToo toDirectory : Bool)
    (jump : Place → String → List String → Except FileError Spot) :
    Place → List String → Except FileError Spot
  | place, [] => .ok (.taken place)
  | place, "." :: rest => follow t lastToo toDirectory jump place rest
  | place, ".." :: rest => follow t lastToo toDirectory jump place.dropLast rest
  | place, step :: rest =>
    if longestName < step.utf8ByteSize then .error .nameTooLong
    else
      let next := place ++ [step]
      match t.lookup? next with
      | none => if rest.isEmpty then .ok (.free place step) else .error .notFound
      | some .directory => follow t lastToo toDirectory jump next rest
      | some (.file _ _) =>
        if rest.isEmpty && !toDirectory then .ok (.taken next) else .error .notDirectory
      | some (.link target) =>
        if rest.isEmpty && !lastToo && !toDirectory then .ok (.taken next)
        else jump place target rest

/-- Follows a route; every link on it takes one from the budget. -/
def followLinks (t : FileTree) (lastToo : Bool) :
    Nat → Bool → Place → List String → Except FileError Spot
  | 0, toDirectory => t.follow lastToo toDirectory fun _ _ _ => .error .tooManyLinks
  | budget + 1, toDirectory =>
    t.follow lastToo toDirectory fun place target rest =>
      if target = "" then .error .notFound
      else
        let route := routeFrom place ⟨target⟩
        followLinks t lastToo budget (toDirectory || (rest.isEmpty && route.toDirectory))
          route.start (route.steps ++ rest)

/-- Where a path leads that is followed from a place. `lastToo` says whether a link at the end is
followed. -/
def locate (t : FileTree) (start : Place) (lastToo : Bool) (p : Path) : Except FileError Spot :=
  if p.text.toList.any (· = Char.ofNat 0) then .error .badName
  else if p.text = "" then .error .notFound
  else if pathLimit ≤ p.text.utf8ByteSize then .error .nameTooLong
  else
    let route := routeFrom start p
    followLinks t lastToo linkLimit route.toDirectory route.start route.steps

/-- The place that a path leads to. -/
def find (t : FileTree) (start : Place) (lastToo : Bool) (p : Path) : Except FileError Place :=
  match t.locate start lastToo p with
  | .ok (.taken place) => .ok place
  | .ok (.free _ _) => .error .notFound
  | .error e => .error e

/-- What a path leads to, links followed. -/
def entry? (t : FileTree) (start : Place) (p : Path) : Option Entry :=
  match t.find start true p with
  | .ok place => t.lookup? place
  | .error _ => none

/-- Whether a path leads to a directory. -/
def isDirectory (t : FileTree) (start : Place) (p : Path) : Bool :=
  match t.entry? start p with
  | some .directory => true
  | _ => false

/-- Whether a path leads to a file. -/
def isFile (t : FileTree) (start : Place) (p : Path) : Bool :=
  match t.entry? start p with
  | some (.file _ _) => true
  | _ => false

/-- Whether a path leads anywhere. -/
def holds (t : FileTree) (start : Place) (p : Path) : Bool :=
  (t.entry? start p).isSome

/-- The bytes of the file that a path leads to. -/
def readBytes (t : FileTree) (start : Place) (p : Path) : Except FileError ByteArray := do
  match t.lookup? (← t.find start true p) with
  | some (.file content _) => .ok content
  | some .directory => .error .isDirectory
  | _ => .error .notFound

/-- The mode of a file that a program creates. -/
def defaultMode : Nat := 0o644

/-- Makes the file that a path leads to hold the given bytes. -/
def writeBytes (t : FileTree) (start : Place) (p : Path) (content : ByteArray) :
    Except FileError FileTree := do
  match ← t.locate start true p with
  | .taken place =>
    match t.lookup? place with
    | some (.file _ mode) => .ok (t.set place (.file content mode))
    | some .directory => .error .isDirectory
    | _ => .error .notFound
  | .free directory name =>
    if p.endsWithSlash then .error .isDirectory
    else .ok (t.set (directory ++ [name]) (.file content defaultMode))

/-- Makes a directory at a free name. -/
def makeDirectory (t : FileTree) (start : Place) (p : Path) : Except FileError FileTree := do
  match ← t.locate start false p with
  | .taken _ => .error .occupied
  | .free directory name => .ok (t.set (directory ++ [name]) .directory)

/-- Makes a directory and all directories that lead to it, with the tree that is left when that
fails. The number bounds how many directories are missing. -/
def makeDirectoriesUpTo : Nat → FileTree → Place → Path → FileTree × Except FileError Unit
  | 0, t, _, _ => (t, .error .notFound)
  | depth + 1, t, start, p =>
    if p.text = "" then (t, .ok ())
    else match t.makeDirectory start p with
      | .ok t => (t, .ok ())
      | .error .notFound =>
        match p.parent? with
        | none => (t, .error .notFound)
        | some parent =>
          match makeDirectoriesUpTo depth t start parent with
          | (t, .error e) => (t, .error e)
          | (t, .ok ()) =>
            match t.makeDirectory start p with
            | .ok t => (t, .ok ())
            | .error e => if t.isDirectory start p then (t, .ok ()) else (t, .error e)
      | .error e => if t.isDirectory start p then (t, .ok ()) else (t, .error e)

/-- Makes a directory and all directories that lead to it. -/
def makeDirectories (t : FileTree) (start : Place) (p : Path) : FileTree × Except FileError Unit :=
  makeDirectoriesUpTo (p.components.length + 1) t start p

/-- Moves what stands at one place to another one, over a file that stands there. -/
def rename (t : FileTree) (start : Place) (source target : Path) : Except FileError FileTree := do
  let old ← t.find start false source
  let some entry := t.lookup? old | .error .notFound
  let new ← match ← t.locate start false target with
    | .taken place => pure place
    | .free directory name => pure (directory ++ [name])
  match entry, t.lookup? new with
  | .directory, _ => .error .notDirectory
  | _, some .directory => .error .isDirectory
  | entry, _ => .ok (if old = new then t else (t.drop old).set new entry)

/-- Removes a directory with everything in it, or a link. -/
def removeDirectory (t : FileTree) (start : Place) (p : Path) : Except FileError FileTree := do
  let place ← t.find start false p
  match t.lookup? place with
  | some (.file _ _) => .error .notDirectory
  | some _ => if place = [] then .error .busy else .ok (t.drop place)
  | none => .error .notFound

/-- The absolute path without links that a path leads to. -/
def canonical (t : FileTree) (start : Place) (p : Path) : Except FileError Path :=
  (t.find start true p).map Path.ofNames

/-- The names in a directory, sorted. -/
def names (t : FileTree) (place : Place) : List String :=
  (t.entries.filterMap fun x =>
    if x.1.length = place.length + 1 ∧ place.isPrefixOf x.1 then x.1.getLast? else none).mergeSort
    (fun a b => a ≤ b)

/-- The files below a place, each with its names from there. Links are not followed. -/
def filesBelow (t : FileTree) (place : Place) : List (Place × ByteArray) :=
  t.entries.filterMap fun x =>
    match x.2 with
    | .file content _ =>
      if place.isPrefixOf x.1 && place != x.1 then some (x.1.drop place.length, content) else none
    | _ => none

end FileTree

end ReviewMentor
