namespace LetFn

/-- Why a text cannot be read. -/
inductive ReadFailure where
  | missing
  | isFolder
  | notFolder
  | nameTooLong
  | notUtf8
  | other (cause : String)
deriving DecidableEq, Inhabited

/-- The cause, as the system words it. -/
def ReadFailure.text : ReadFailure → String
  | missing => "No such file or directory (os error 2)"
  | isFolder => "Is a directory (os error 21)"
  | notFolder => "Not a directory (os error 20)"
  | nameTooLong => "File name too long (os error 36)"
  | notUtf8 => "stream did not contain valid UTF-8"
  | other cause => cause

/-- The text that is written in UTF-8 as `bytes`. -/
def decodeUtf8 (bytes : List UInt8) : Except ReadFailure String :=
  match String.fromUTF8? bytes.toByteArray with
  | some text => .ok text
  | none => .error .notUtf8

/-- A place in a tree of files: the names that lead there from the root. -/
abbrev Place := List String

/-- The files and folders that a run can see, and the folder that it starts from. The root and that folder
need not be among `folders`. -/
structure FileTree where
  files : List (Place × List UInt8)
  folders : List Place
  here : Place
deriving Inhabited

namespace FileTree

/-- The bytes that a name may have. -/
def longestName : Nat := 255

/-- The bytes that a path may have. -/
def longestPath : Nat := 4095

/-- The names that a path is made of, with an empty one wherever two slashes meet. -/
def names (path : String) : List String :=
  path.splitOn "/"

/-- The folder from which the names of a path are followed. -/
def base (tree : FileTree) (path : String) : Place :=
  if path.toList.head? = some '/' then [] else tree.here

/-- What a name stands for in a folder. -/
inductive Entry where
  | folder (place : Place)
  | file (bytes : List UInt8)
  | nothing
  | refused

/-- What `name` stands for in the folder at `place`. The folder above the root is the root. -/
def entry (tree : FileTree) (place : Place) (name : String) : Entry :=
  if name = "" ∨ name = "." then .folder place
  else if name = ".." then .folder place.dropLast
  else if longestName < name.utf8ByteSize then .refused
  else
    match tree.files.lookup (place ++ [name]) with
    | some bytes => .file bytes
    | none =>
      if (place ++ [name]).isPrefixOf tree.here || tree.folders.contains (place ++ [name]) then
        .folder (place ++ [name])
      else .nothing

/-- Follows the names of a path from the folder at `place`. Nothing may come after the name of a file, not
even an empty name. -/
def follow (tree : FileTree) (place : Place) : List String → Except ReadFailure (List UInt8)
  | [] => .error .isFolder
  | name :: rest =>
    match tree.entry place name with
    | .folder inner => tree.follow inner rest
    | .file bytes => if rest = [] then .ok bytes else .error .notFolder
    | .nothing => .error .missing
    | .refused => .error .nameTooLong

/-- The bytes of the file at `path`. -/
def read (tree : FileTree) (path : String) : Except ReadFailure (List UInt8) :=
  if longestPath < path.utf8ByteSize then .error .nameTooLong
  else tree.follow (tree.base path) (names path)

/-- The tree with a file at `place`, in the stead of the one that was there. -/
def put (tree : FileTree) (place : Place) (bytes : List UInt8) : FileTree :=
  { tree with files := (place, bytes) :: tree.files }

/-- The tree with a file where the names lead from the folder at `place`. Folders on the way are made if they
are not there, also those that a later name leaves again. Names that cannot be followed change no file. -/
def write (tree : FileTree) (place : Place) (bytes : List UInt8) : List String → FileTree
  | [] => tree
  | name :: rest =>
    match tree.entry place name with
    | .folder inner => tree.write inner bytes rest
    | .file _ => if rest = [] then tree.put (place ++ [name]) bytes else tree
    | .nothing =>
      if rest = [] then tree.put (place ++ [name]) bytes
      else { tree with folders := (place ++ [name]) :: tree.folders }.write (place ++ [name]) bytes rest
    | .refused => tree

/-- The folders that every system has at its root. -/
def systemFolders : List String :=
  ["bin", "boot", "dev", "etc", "home", "lib", "media", "mnt", "opt", "proc", "root", "run", "sbin", "srv", "sys",
    "tmp", "usr", "var"]

/-- An empty folder to start from, in a system that holds little else. -/
def empty : FileTree where
  files := [(["dev", "null"], [])]
  folders := systemFolders.map ([·])
  here := ["tmp", "letfn"]

/-- A folder with the given files, written one after the other. -/
def ofFiles (files : List (String × List UInt8)) : FileTree :=
  files.foldl (fun tree (path, bytes) => tree.write (tree.base path) bytes (names path)) empty

/-- The tree in which the input can be read as a file, too. -/
def withInput (tree : FileTree) (input : List UInt8) : FileTree :=
  tree.put ["dev", "stdin"] input

end FileTree

end LetFn
