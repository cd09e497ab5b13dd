import WebBundle.Path

/-!
# File trees

A file tree gives every list of names a directory, a file with its content, or
nothing.  An absolute path denotes a list of names; to read or write there, the
directories on the way have to exist.  A relative path leads nowhere.  Reading and
writing may fail in the ways of an operating system.
-/

namespace WebBundle

/-- What stands at a path. -/
inductive FileEntry where
  | directory
  | file (content : ByteArray)
  deriving Inhabited

namespace FileEntry

/-- Whether an entry is a file. -/
def isFile : FileEntry → Bool
  | file _ => true
  | directory => false

end FileEntry

/-- Reasons why a file operation fails. -/
inductive FileFault where
  | missing
  | existing
  | notDirectory
  | isDirectory
  | longName
  | nulName
  | notText
  deriving DecidableEq, Repr

namespace FileFault

/-- The message of a fault. -/
def message : FileFault → String
  | missing => "No such file or directory (os error 2)"
  | existing => "File exists (os error 17)"
  | notDirectory => "Not a directory (os error 20)"
  | isDirectory => "Is a directory (os error 21)"
  | longName => "File name too long (os error 36)"
  | nulName => "file name contained an unexpected NUL byte"
  | notText => "stream did not contain valid UTF-8"

end FileFault

/-- The entries below the root, by the names that lead to them. -/
structure FileTree where
  entries : List (List String × FileEntry) := []
  deriving Inhabited

namespace FileTree

/-- The entry behind a list of names; the root is a directory. -/
def at? (tree : FileTree) (names : List String) : Option FileEntry :=
  if names.isEmpty then some .directory
  else (tree.entries.find? fun entry => entry.1 = names).map Prod.snd

/-- Puts an entry behind a list of names. -/
def put (tree : FileTree) (names : List String) (entry : FileEntry) : FileTree :=
  { entries := (names, entry) :: tree.entries.filter fun other => other.1 ≠ names }

/-- The entry at a path. -/
def find? (tree : FileTree) (path : String) : Option FileEntry :=
  if Path.isAbsolute path then tree.at? (Path.names path) else none

/-- Whether a path leads to a file. -/
def isFile (tree : FileTree) (path : String) : Bool :=
  match tree.find? path with
  | some entry => entry.isFile
  | none => false

/-- Whether a path leads to a directory. -/
def isDirectory (tree : FileTree) (path : String) : Bool :=
  match tree.find? path with
  | some entry => !entry.isFile
  | none => false

/-- The bytes that a name may have. -/
def nameLimit : Nat := 255

/-- Whether a component of a path is too long for a name. -/
def isLong : Path.Component → Bool
  | .normal name => name.utf8ByteSize > nameLimit
  | _ => false

/-- The names that components lead to, if what they start from and pass through are
directories. -/
def descend (tree : FileTree) : (names : List String) → List Path.Component →
    Except FileFault (List String)
  | names, [] => .ok names
  | names, component :: rest =>
    match tree.at? names with
    | none => .error .missing
    | some (.file _) => .error .notDirectory
    | some .directory =>
      if isLong component then .error .longName
      else descend tree (Path.step names component) rest

/-- The components of an absolute path that a system takes. -/
def takenComponents (path : String) : Except FileFault (List Path.Component) :=
  if '\x00' ∈ path.toList then .error .nulName
  else if Path.isAbsolute path then .ok (Path.components path)
  else .error .missing

/-- The names that a path leads to. -/
def locate (tree : FileTree) (path : String) : Except FileFault (List String) :=
  match takenComponents path with
  | .ok components => tree.descend [] components
  | .error fault => .error fault

/-- Whether a path ends with a slash, as only the path of a directory may. -/
def endsWithSlash (path : String) : Bool := path.toList.getLast? = some '/'

/-- Whether the end of a path stands for the directory before it. -/
def endsWithDot (path : String) : Bool :=
  (Path.segments path.toList).getLast? = some ['.']

/-- The content of the file at a path. -/
def read (tree : FileTree) (path : String) : Except FileFault ByteArray :=
  match tree.locate path with
  | .error fault => .error fault
  | .ok names =>
    match tree.at? names with
    | some (.file content) =>
      if endsWithSlash path || endsWithDot path then .error .notDirectory else .ok content
    | some .directory => .error .isDirectory
    | none => .error .missing

/-- The text of the file at a path. -/
def readText (tree : FileTree) (path : String) : Except FileFault String :=
  match tree.read path with
  | .error fault => .error fault
  | .ok content =>
    match String.fromUTF8? content with
    | some text => .ok text
    | none => .error .notText

/-- Creates the directories along the components of a path. -/
def createAlong (tree : FileTree) (names : List String) :
    List Path.Component → Except FileFault FileTree
  | [] => .ok tree
  | component :: rest =>
    let next := Path.step names component
    if isLong component then .error .longName
    else
      match tree.at? next with
      | some .directory => createAlong tree next rest
      | some (.file _) => .error (if rest.isEmpty then .existing else .notDirectory)
      | none => createAlong (tree.put next .directory) next rest

/-- Creates a directory and those above it. -/
def createDirectories (tree : FileTree) (path : String) : Except FileFault FileTree :=
  match takenComponents path with
  | .ok components => tree.createAlong [] components
  | .error fault => .error fault

/-- Writes a file into a directory that exists. -/
def write (tree : FileTree) (path : String) (content : ByteArray) : Except FileFault FileTree :=
  match tree.locate path with
  | .error fault => .error fault
  | .ok names =>
    let stands := tree.at? names
    if endsWithSlash path || stands.any (!·.isFile) then .error .isDirectory
    else if endsWithDot path then .error (if stands.isSome then .notDirectory else .missing)
    else .ok (tree.put names (.file content))

/-- Removes a file, if there is one. -/
def remove? (tree : FileTree) (path : String) : Option FileTree :=
  if tree.isFile path then
    some { entries := tree.entries.filter fun entry => entry.1 ≠ Path.names path }
  else none

/-- The files below a directory, with the names that lead there from it. -/
def filesBelow (tree : FileTree) (names : List String) : List (List String × ByteArray) :=
  tree.entries.filterMap fun (path, entry) =>
    match entry with
    | .file content =>
      if names.isPrefixOf path then some (path.drop names.length, content) else none
    | .directory => none

end FileTree

end WebBundle
