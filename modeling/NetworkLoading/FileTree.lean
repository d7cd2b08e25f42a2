/-!
# File trees

Directories and files, and how a path leads to one of them. A path is followed name by name; where
it goes on, there must be a directory.
-/

namespace NetworkLoading

/-! ## Faults -/

/-- Why a file or directory could not be used. -/
inductive FileFault where
  | notFound
  /-- The path goes on behind a file. -/
  | notDirectory
  | isDirectory
  | noSpace
  | nameTooLong
  /-- The path contains a character which no name can contain. -/
  | nulCharacter
deriving DecidableEq

def FileFault.message : FileFault → String
  | .notFound => "No such file or directory (os error 2)"
  | .notDirectory => "Not a directory (os error 20)"
  | .isDirectory => "Is a directory (os error 21)"
  | .noSpace => "No space left on device (os error 28)"
  | .nameTooLong => "File name too long (os error 36)"
  | .nulCharacter => "file name contained an unexpected NUL byte"

/-! ## Paths -/

/-- The names on the way from the root to a place. -/
abbrev Place := List String

/-- One name further: a single dot stays, and two dots lead back. -/
def Place.move (p : Place) (name : String) : Place :=
  if name = "." then p else if name = ".." then p.dropLast else p ++ [name]

/-- The greatest number of bytes of a name. -/
def nameLimit : Nat := 255

/-- A path has fewer bytes than this. -/
def pathLimit : Nat := 4096

/-- The names in a path. -/
def pathNames (path : String) : List String :=
  ((path.toList.splitOn '/').map String.ofList).filter (· ≠ "")

/-- The path of a file in a directory. -/
def inDirectory (directory name : String) : String :=
  if directory = "" || directory.endsWith '/' then directory ++ name else s!"{directory}/{name}"

/-- What is wrong with a path wherever it leads. -/
def checkPath (path : String) : Except FileFault Unit :=
  if path.toList.contains '\x00' then .error .nulCharacter
  else if pathLimit ≤ path.utf8ByteSize then .error .nameTooLong
  else if path = "" then .error .notFound
  else .ok ()

/-! ## Trees -/

structure FileTree where
  /-- Where paths begin that do not begin at the root. -/
  here : Place
  directories : List Place
  /-- The files, with their texts. -/
  files : List (Place × String)
  /-- The files into which nothing can be written. -/
  full : List Place := []

namespace FileTree

variable (t : FileTree)

def isDirectory (p : Place) : Bool :=
  t.directories.contains p

def file? (p : Place) : Option String :=
  (t.files.find? (·.1 = p)).map (·.2)

def start (path : String) : Place :=
  if path.startsWith "/" then [] else t.here

/-- Goes on from a place by a name. There may be nothing where it leads, but the place must be a
directory. -/
def step (p : Place) (name : String) : Except FileFault Place :=
  if !t.isDirectory p then .error (if (t.file? p).isSome then .notDirectory else .notFound)
  else if nameLimit < name.utf8ByteSize then .error .nameTooLong
  -- Whether there is something at this place is for the next step to find out.
  else .ok (p.move name)

/-- Where names lead, which are those of a path or the first of them. -/
def find (path : String) (names : List String) : Except FileFault Place :=
  (checkPath path).bind fun _ => names.foldlM t.step (t.start path)

/-- The text of the file at a path. -/
def read (path : String) : Except FileFault String :=
  (t.find path (pathNames path)).bind fun p =>
    if t.isDirectory p then .error .isDirectory
    else
      match t.file? p with
      | none => .error .notFound
      -- A file is not found through a path which asks for a directory.
      | some text => if path.endsWith '/' then .error .notDirectory else .ok text

/-- The place of a file which is to be written at a path. What ends with a slash can only be a
directory, whatever its last name is. -/
def target (path : String) : Except FileFault Place :=
  let names := pathNames path
  (t.find path names.dropLast).bind fun p =>
    if t.isDirectory p && path.endsWith '/' then .error .isDirectory
    -- Without names the path leads to where it begins, which is refused as a directory later.
    else names.getLast?.elim (.ok p) (t.step p)

/-- The tree with a file at a place, whatever was in it before. -/
def put (p : Place) (text : String) : FileTree :=
  { t with files := (p, text) :: t.files.filter (·.1 ≠ p) }

/-- Writes a file at a path, which is created if need be. -/
def write (path text : String) : Except FileFault FileTree :=
  (t.target path).bind fun p =>
    if t.isDirectory p then .error .isDirectory
    else if t.full.contains p then .error .noSpace
    else .ok (t.put p text)

/-- Follows names from a directory, creating the directories which are missing. A missing directory
is not created if nothing but single dots comes after it. -/
def grow (t : FileTree) (p : Place) : List String → Option FileTree
  | [] => some t
  | name :: rest =>
    let next := p.move name
    if nameLimit < name.utf8ByteSize || (t.file? next).isSome then none
    else if t.isDirectory next then grow t next rest
    -- Single dots need the directory they stay in, which is not there yet.
    else if !rest.isEmpty && rest.all (· = ".") then none
    else grow { t with directories := next :: t.directories } next rest

/-- Creates the directory at a path, with all directories on the way, unless it is there. -/
def makeDirectory (path : String) : Option FileTree :=
  if path = "" then some t
  else (checkPath path).toOption.bind fun _ => t.grow (t.start path) (pathNames path)

end FileTree

end NetworkLoading
