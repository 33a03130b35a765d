import ColumnCalc.Text.Utf8

/-!
# Folders, files and links

A directory is what a run finds on the disk. A name leads to a file part by part from the folder of
the run, or from the root: `.` stays, `..` goes up, a link is followed, and only folders are passed
through. So one file has many names, and it is its number that tells it from other files: two names
stand for one file if they lead to one number, however they are spelled and whether they pass links.
A file can lie at two paths, which are then hard links.

The system can refuse to open a file for reasons that are not told here, such as rights or the
length of a name; `Directory.refusals` lists what it refuses. What is open can be read and written.
Devices and pipes are not files in this sense, and nothing but the run changes the disk.
-/

namespace ColumnCalc

/-- Why a file cannot be opened or read. -/
inductive FileError where
  | notFound
  /-- The name goes on behind a file. -/
  | notFolder
  | isFolder
  | tooManyLinks
  /-- The system's own reason. -/
  | refused (reason : String)
  /-- The file's bytes are no text in UTF-8. -/
  | notText
  deriving DecidableEq, Repr

def FileError.message : FileError → String
  | notFound => "No such file or directory (os error 2)"
  | notFolder => "Not a directory (os error 20)"
  | isFolder => "Is a directory (os error 21)"
  | tooManyLinks => "Too many levels of symbolic links (os error 40)"
  | refused reason => reason
  | notText => "stream did not contain valid UTF-8"

/-- The folders that something lies in, from the root, and behind them what it is called there. -/
abbrev Path := List String

inductive Entry where
  | folder
  | file (number : Nat)
  /-- Another name stands for what this one leads to, from the folder that the link lies in. -/
  | link (target : String)
  deriving DecidableEq, Repr

/-- The number of a file; other entries count as 0. -/
def Entry.number : Entry → Nat
  | file number => number
  | _ => 0

inductive Access where
  | read
  /-- A file that is not there is made. -/
  | write
  deriving DecidableEq, Repr

/-- A file or a folder that is open. -/
inductive Handle where
  | folder
  | file (number : Nat)
  deriving DecidableEq, Repr

/-- What a name leads to. -/
inductive Spot where
  | found (handle : Handle)
  /-- The folder is there, and in it nothing of that name. -/
  | vacant (path : Path)
  deriving DecidableEq, Repr

structure Directory where
  /-- What lies at which path; the root is a folder and not listed. -/
  entries : List (Path × Entry)
  /-- The folder of the run. -/
  start : Path
  /-- The bytes of each file, by its number. -/
  contents : List (Nat × Bytes)
  /-- The names that cannot be opened, though they could be found, with the system's reason. -/
  refusals : List ((String × Access) × String)
  deriving DecidableEq, Repr

namespace Directory

/-! ## Names -/

/-- The parts of a name. A slash at its end leaves an empty part behind it. -/
def parts (name : String) : List String :=
  let pieces := (name.toList.splitOn '/').map .ofList
  pieces.dropLast.filter (· ≠ "") ++ pieces.getLast?.toList

/-- Where a name starts. -/
def base (here : Path) (name : String) : Path :=
  if name.toList.head? = some '/' then [] else here

/-- The parts that stand for no entry of the folder that they are looked up in. -/
def isMove (part : String) : Bool :=
  part = "" || part = "." || part = ".."

/-- The path one part on. -/
def behind (here : Path) (part : String) : Path :=
  if part = ".." then here.dropLast else if isMove part then here else here ++ [part]

/--
Where parts lead from a folder. A link is left to `follow`, with the parts behind it. A name with a
slash at its end is the name of a folder to whoever wants to write.
-/
def walk (entries : List (Path × Entry)) (access : Access)
    (follow : Path → List String → Except FileError Spot) (here : Path) :
    List String → Except FileError Spot
  | [] => .ok (.found .folder)
  | part :: others =>
    if isMove part then walk entries access follow (behind here part) others
    else if access = .write ∧ others = [""] then .error .isFolder
    else
      match entries.lookup (behind here part) with
      | none => if others = [] then .ok (.vacant (behind here part)) else .error .notFound
      | some .folder => walk entries access follow (behind here part) others
      | some (.file number) =>
        if others = [] then .ok (.found (.file number)) else .error .notFolder
      | some (.link target) => follow (base here target) (parts target ++ others)

/-- Where parts lead if at most `links` links may be followed. -/
def walkLinks (entries : List (Path × Entry)) (access : Access) :
    Nat → Path → List String → Except FileError Spot
  | 0 => walk entries access fun _ _ => .error .tooManyLinks
  | links + 1 => walk entries access (walkLinks entries access links)

/-- How many links a name may pass. -/
def maxLinks : Nat :=
  40

def locate (d : Directory) (access : Access) (name : String) : Except FileError Spot :=
  if name = "" then .error .notFound
  else walkLinks d.entries access maxLinks (base d.start name) (parts name)

/-- The file or folder that a name leads to. -/
def find? (d : Directory) (name : String) : Option Handle :=
  match d.locate .read name with
  | .ok (.found handle) => some handle
  | _ => none

/-! ## Contents -/

def bytes (d : Directory) (number : Nat) : Bytes :=
  (d.contents.lookup number).getD []

/-- The bytes of the file that a name leads to. -/
def get? (d : Directory) (name : String) : Option Bytes :=
  match d.find? name with
  | some (.file number) => some (d.bytes number)
  | _ => none

/-- The directory with other bytes in a file. -/
def put (d : Directory) (number : Nat) (bytes : Bytes) : Directory :=
  { d with contents := (number, bytes) :: d.contents.filter fun file => file.1 ≠ number }

/-- A number that no file has. -/
def fresh (d : Directory) : Nat :=
  (d.entries.map (·.2.number)).foldr max 0 + 1

/-- The directory with one more file. -/
def add (d : Directory) (path : Path) (bytes : Bytes) : Directory :=
  { d with entries := (path, .file d.fresh) :: d.entries }.put d.fresh bytes

/-- The directory with the folders that a path passes. -/
def addAbove (d : Directory) (path : Path) : Directory :=
  { d with entries := d.entries ++ (List.range path.length).map fun i => (path.take i, .folder) }

/-- A folder of the run that holds the named files, and nothing else around it. -/
def ofFiles (files : List (String × Bytes)) : Directory :=
  files.foldl addNamed ⟨[(["run"], .folder)], ["run"], [], []⟩
where
  addNamed (d : Directory) (file : String × Bytes) : Directory :=
    let path := (parts file.1).foldl behind (base d.start file.1)
    (d.addAbove path).add path file.2

/-! ## Opening -/

def refusal? (d : Directory) (access : Access) (name : String) : Option FileError :=
  (d.refusals.lookup (name, access)).map .refused

/-- Opens what a name leads to for reading. A folder can be opened, but not read. -/
def openRead (d : Directory) (name : String) : Except FileError Handle :=
  match d.refusal? .read name, d.locate .read name with
  | some error, _ => .error error
  | none, .error error => .error error
  | none, .ok (.vacant _) => .error .notFound
  | none, .ok (.found handle) => .ok handle

def read (d : Directory) : Handle → Except FileError Bytes
  | .folder => .error .isFolder
  | .file number => .ok (d.bytes number)

/-- Opens a file for writing: one that is there is emptied, one that is not there is made. -/
def create (d : Directory) (name : String) : Except FileError (Directory × Nat) :=
  match d.refusal? .write name, d.locate .write name with
  | some error, _ => .error error
  | none, .error error => .error error
  | none, .ok (.found .folder) => .error .isFolder
  | none, .ok (.found (.file number)) => .ok (d.put number [], number)
  | none, .ok (.vacant path) => .ok (d.add path [], d.fresh)

end Directory

end ColumnCalc
