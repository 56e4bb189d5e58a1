import CatalogAssembly.FilePath

/-!
# Files and the machine around a program

`FileTree` is a tree of directories with files of bytes. Paths are resolved from
the working directory part by part: a part that names nothing is a missing file,
and whatever is followed by another part, or by a slash, has to be a directory.
A `Host` is all that a program can ask: variables, files and its input.
-/
namespace CatalogAssembly

inductive FileFault where
  | missing
  | notADirectory
  | isADirectory
  | nameTooLong
  | zeroInName
  | notText
  /-- Any other fault, in the words of the system. -/
  | other (text : String)
  deriving DecidableEq, Repr

def FileFault.message : FileFault → String
  | .missing => "No such file or directory (os error 2)"
  | .notADirectory => "Not a directory (os error 20)"
  | .isADirectory => "Is a directory (os error 21)"
  | .nameTooLong => "File name too long (os error 36)"
  | .zeroInName => "file name contained an unexpected NUL byte"
  | .notText => "stream did not contain valid UTF-8"
  | .other text => text

/-- The bytes that one part of a path may have. -/
def partLimit : Nat := 255

/-- The bytes that a whole path may have. -/
def pathLimit : Nat := 4095

/-- Why a path leads nowhere, whatever files there are. -/
def pathFault? (path : String) : Option FileFault :=
  if path.contains '\x00' then some .zeroInName
  else if pathLimit < path.utf8ByteSize then some .nameTooLong
  else if path = "" then some .missing
  else none

theorem pathFault?_eq_none {path : String} (hzero : '\x00' ∉ path.toList) (hfilled : path ≠ "")
    (hsize : path.utf8ByteSize ≤ pathLimit) : pathFault? path = none := by
  simp [pathFault?, String.contains_char_eq, hzero, hfilled, Nat.not_lt.mpr hsize]

/-- What a path may lead to. -/
inductive FileEntry where
  | file (content : ByteArray)
  | directory
  /-- Something that is there and cannot be read. -/
  | unreadable (fault : FileFault)

def textOf (bytes : ByteArray) : Except FileFault String :=
  match String.fromUTF8? bytes with
  | some s => .ok s
  | none => .error .notText

@[simp] theorem textOf_toUTF8 (text : String) : textOf text.toUTF8 = .ok text := by
  have htext : String.fromUTF8? text.toUTF8 = some text := FilePath.text?_ofText text
  rw [textOf, htext]

/-- The text of what was found at a path. -/
def FileEntry.text (found : Except FileFault FileEntry) : Except FileFault String :=
  match found with
  | .ok (.file content) => textOf content
  | .ok .directory => .error .isADirectory
  | .ok (.unreadable fault) => .error fault
  | .error fault => .error fault

inductive FileTree where
  | file (content : ByteArray)
  | directory (entries : List (String × FileTree))
  deriving Inhabited

namespace FileTree

def empty : FileTree := .directory []

def entry : FileTree → FileEntry
  | .file content => .file content
  | .directory _ => .directory

/-- What has this name in a directory. -/
def child? (t : FileTree) (name : String) : Option FileTree :=
  match t with
  | .file _ => none
  | .directory entries => entries.lookup name

/-- What the names lead to from the root, one directory after the other. -/
def at? : List String → FileTree → Option FileTree
  | [], t => some t
  | name :: rest, t => (t.child? name).bind (at? rest)

/-- Puts a file or directory at a place, making the directories on the way. -/
def insert (what : FileTree) : List String → FileTree → FileTree
  | [], _ => what
  | name :: rest, t =>
    match t with
    | .file content => .file content
    | .directory entries =>
      let inner := insert what rest ((entries.lookup name).getD empty)
      .directory ((name, inner) :: entries.filter (·.1 != name))

/-- The names that the parts of a path come to, from the place `here` on. -/
def walk (root : FileTree) (here : List String) : List String → Except FileFault (List String)
  | [] => .ok here
  | part :: parts =>
    match root.at? here with
    | some (.directory entries) =>
      if part = "" || part = "." then walk root here parts
      else if part = ".." then walk root here.dropLast parts
      else if partLimit < part.utf8ByteSize then .error .nameTooLong
      else if (entries.lookup part).isSome then walk root (here ++ [part]) parts
      else .error .missing
    | _ => .error .notADirectory

end FileTree

/-- A tree together with the working directory that relative paths start from. -/
structure FileSystem where
  root : FileTree
  workingDirectory : List String

def isAbsolutePath (path : String) : Bool := path.startsWith "/"

namespace FileSystem

/-- The parts of a path from the root on. -/
def parts (fs : FileSystem) (path : String) : List String :=
  let pieces := (path.toList.splitOn '/').map String.ofList
  if isAbsolutePath path then pieces else fs.workingDirectory ++ pieces

def find (fs : FileSystem) (path : String) : Except FileFault FileEntry :=
  match pathFault? path with
  | some fault => .error fault
  | none =>
    match fs.root.walk [] (fs.parts path) with
    | .error fault => .error fault
    | .ok place =>
      match fs.root.at? place with
      | some t => .ok t.entry
      | none => .error .missing

/-- The names in a tree are texts, so that nothing has a name that is none. -/
def findPath (fs : FileSystem) (path : FilePath) : Except FileFault FileEntry :=
  match path.text? with
  | some path => fs.find path
  | none => .error .missing

@[simp] theorem findPath_ofText (fs : FileSystem) (path : String) :
    fs.findPath (.ofText path) = fs.find path := by
  simp only [findPath, FilePath.text?_ofText]

/-- Where a file would be opened to be written to. The directory that holds it has
to be there; a path that ends in a slash or a dot part names a directory and can
never be opened as a file. -/
def writable (fs : FileSystem) (path : String) : Except FileFault (List String) :=
  match pathFault? path with
  | some fault => .error fault
  | none =>
    let parts := fs.parts path
    let names := (parts.reverse.dropWhile (· = "")).reverse
    match fs.root.walk [] names.dropLast with
    | .error fault => .error fault
    | .ok place =>
      match fs.root.at? place with
      | some (.directory entries) =>
        match names.getLast? with
        | none => .error .isADirectory
        | some name =>
          if names.length < parts.length || name = "." || name = ".." then .error .isADirectory
          else if partLimit < name.utf8ByteSize then .error .nameTooLong
          else
            match entries.lookup name with
            | some (.directory _) => .error .isADirectory
            | _ => .ok (place ++ [name])
      | _ => .error .notADirectory

/-- Appends to a file, which is made if it is not there. -/
def append (fs : FileSystem) (path : String) (bytes : ByteArray) : FileSystem :=
  match fs.writable path with
  | .error _ => fs
  | .ok place =>
    let before := match fs.root.at? place with
      | some (.file content) => content
      | _ => .empty
    { fs with root := FileTree.insert (.file (before ++ bytes)) place fs.root }

end FileSystem

/-- The value of a variable. An environment is a list of texts, each a name with an
equals sign and a value, and the first text that begins with the name asked for and
an equals sign counts. A name that holds an equals sign itself can so be found in
the value of a shorter one. -/
def environmentValue? (env : List (String × String)) (name : String) : Option String :=
  let start := (name ++ "=").toList
  env.findSome? fun entry =>
    let text := (entry.1 ++ "=" ++ entry.2).toList
    if start.isPrefixOf text then some (String.ofList (text.drop start.length)) else none

/-- What a program sees of the machine it runs on. -/
structure Host where
  /-- Variables of the environment, which need not be texts. -/
  environment : String → Option ByteArray
  /-- The home directory of the account, if the environment gives none. -/
  accountHome : Option FilePath
  find : FilePath → Except FileFault FileEntry
  /-- What is at a path once bytes were appended to a file. -/
  findAfter : (file : String) → ByteArray → FilePath → Except FileFault FileEntry
  /-- Why a file cannot be opened to be appended to. -/
  appendFault? : String → Option FileFault
  input : ByteArray

namespace Host

/-- A variable that is set to a text; bytes that are no text count as no value. -/
def environmentText? (h : Host) (name : String) : Option String :=
  (h.environment name).bind String.fromUTF8?

def pathExists (h : Host) (path : FilePath) : Bool :=
  match h.find path with
  | .ok _ => true
  | .error _ => false

/-- The host with more at the end of a file. -/
def appended (h : Host) (file : String) (bytes : ByteArray) : Host :=
  { h with find := h.findAfter file bytes }

def readText (h : Host) (path : FilePath) : Except FileFault String := FileEntry.text (h.find path)

/-- The directory of the user's settings. -/
def configDirectory? (h : Host) : Option FilePath :=
  match ((h.environment "XDG_CONFIG_HOME").map FilePath.mk).filter FilePath.isAbsolute with
  | some directory => some directory
  | none =>
    match ((h.environment "HOME").filter (¬ ·.isEmpty)).map FilePath.mk with
    | some home => some (home.join ".config")
    | none => h.accountHome.map (·.join ".config")

def ofFileSystem (fs : FileSystem) (env : List (String × String))
    (accountHome : Option String) (input : ByteArray) : Host where
  environment name := (environmentValue? env name).map String.toUTF8
  accountHome := accountHome.map FilePath.ofText
  find := fs.findPath
  findAfter file bytes := (fs.append file bytes).findPath
  appendFault? path :=
    match fs.writable path with
    | .ok _ => none
    | .error fault => some fault
  input := input

end Host

end CatalogAssembly
