/-!
# File trees

A `FileTree` is what there is to read: directories and files, each at a place, which is the list
of the names on the way to it from the root.  `FileTree.find` follows a path, the names between
slashes, from the root or from the directory where one is, and `FileTree.read` gives the text of
the file that is found.
-/

namespace LinkedQuery

/-- Why a file cannot be read. -/
inductive FileFault where
  | missing
  | forbidden
  | notDirectory
  | directory
  | nameTooLong
  | notText
  | other (code : Nat) (reason : String)
deriving DecidableEq, Repr

/-- The text of a fault. -/
def FileFault.message : FileFault → String
  | .missing => "No such file or directory (os error 2)"
  | .forbidden => "Permission denied (os error 13)"
  | .notDirectory => "Not a directory (os error 20)"
  | .directory => "Is a directory (os error 21)"
  | .nameTooLong => "File name too long (os error 36)"
  | .notText => "stream did not contain valid UTF-8"
  | .other code reason => reason ++ " (os error " ++ code.repr ++ ")"

/-- Directories and files with the places where they stand. -/
structure FileTree where
  directories : List (List String)
  files : List (List String × String)

namespace FileTree

/-- The names in a path. -/
def names (path : String) : List String :=
  (path.toList.splitOn '/').map String.ofList

/-- A name that leaves one where one is. -/
def staysPut (name : String) : Bool :=
  name.isEmpty || name = "."

/-- The tree with a file more, which a path names from a directory. -/
def addFile (tree : FileTree) (here : List String) (path text : String) : FileTree :=
  { tree with files := (here ++ (names path).filter (! staysPut ·), text) :: tree.files }

/-- Whether a directory stands at a place.  The root is one, and so is what stands above anything
else. -/
def hasDirectory (tree : FileTree) (place : List String) : Bool :=
  place.isEmpty || tree.directories.any place.isPrefixOf
    || tree.files.any fun file => place.isPrefixOf file.1 && place.length < file.1.length

/-- Whether anything stands at a place. -/
def occupies (tree : FileTree) (place : List String) : Bool :=
  tree.hasDirectory place || (tree.files.lookup place).isSome

/-- The place that a name leads to. -/
def step (tree : FileTree) (place : List String) (name : String) :
    Except FileFault (List String) :=
  if !tree.hasDirectory place then .error .notDirectory
  else if staysPut name then .ok place
  else if name = ".." then .ok place.dropLast
  else if 255 < name.utf8ByteSize then .error .nameTooLong
  else if tree.occupies (place ++ [name]) then .ok (place ++ [name])
  else .error .missing

/-- The place that a path leads to; it must have fewer than 4096 bytes. -/
def find (tree : FileTree) (here : List String) (path : String) :
    Except FileFault (List String) :=
  if path.isEmpty then .error .missing
  else if 4096 ≤ path.utf8ByteSize then .error .nameTooLong
  else (names path).foldlM tree.step (if path.toList.head? = some '/' then [] else here)

/-- The text of the file that a path leads to. -/
def read (tree : FileTree) (here : List String) (path : String) : Except FileFault String := do
  let place ← tree.find here path
  match tree.files.lookup place with
  | some text => .ok text
  | none => .error .directory

/-- What any system has beside a directory: usual directories, and as files the device that holds no
text and the standard input. -/
def around (here : List String) (standardInput : String) : FileTree where
  directories := here :: ["etc", "home", "root", "tmp", "usr", "var"].map ([·])
  files := [(["dev", "null"], ""), (["dev", "stdin"], standardInput)]

end FileTree

end LinkedQuery
