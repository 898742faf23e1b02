import LineAsm.Text.Parts
/-!
# A directory of files

The directory that the command runs in holds files and no further directories. A path leads to
a file or to a directory, or nowhere; parts of a path that are empty or a single dot stay where
they are, and two dots lead to the directory above. Of a directory outside nothing is known but
the files that the command creates there, which are named by the way to them. A path that ends
in a slash never leads to a file: where one would be created, a directory is meant.
-/

namespace LineAsm

/-- Files under their names. A file outside has slashes in its name, a file inside has none. -/
structure Directory where
  /-- The files in order of creation, each name once. -/
  files : List (String × List UInt8) := []
deriving DecidableEq, Repr

/-- Why a path cannot be opened. -/
inductive PathError where
  /-- A part of the path names nothing. -/
  | notFound
  /-- The path goes on after a file. -/
  | notDirectory
  /-- The path leads to a directory and a file is needed. -/
  | isDirectory
deriving DecidableEq, Repr

/-- The words of the system for a path that cannot be opened. -/
def PathError.message : PathError → String
  | .notFound => "No such file or directory (os error 2)"
  | .notDirectory => "Not a directory (os error 20)"
  | .isDirectory => "Is a directory (os error 21)"

/-- Where a path leads. -/
inductive Place where
  /-- To the file of a name. -/
  | file (name : String)
  /-- To a directory. -/
  | directory
deriving DecidableEq, Repr

namespace Directory

/-- The contents of a file. -/
def get? (directory : Directory) (name : String) : Option (List UInt8) :=
  directory.files.lookup name

/-- Whether there is a file of a name. -/
def has (directory : Directory) (name : String) : Bool := (directory.get? name).isSome

/-- Give a file new contents, and create it if there is none of its name. -/
def put (directory : Directory) (name : String) (contents : List UInt8) : Directory :=
  if directory.has name then
    ⟨directory.files.map fun file => if file.1 == name then (name, contents) else file⟩
  else ⟨directory.files ++ [(name, contents)]⟩

/-- A part of a path that stays where it is. -/
def stays (part : String) : Bool := part.isEmpty || part == "."

/-- The way to the root of the system. -/
def root : String := "/"

/-- The way to the directory above the one that a way leads to. The root is above itself. -/
def above (way : String) : String := if way == root then root else "../" ++ way

/-- The parts of a path between slashes. -/
def partsOf (path : String) : List String := (Text.parts '/' path.toList).map String.ofList

/-- Where a path leads, by its parts, from the directory at the end of a way. A file is named
by the way and the last part; the flag says whether it may be created. -/
def walk (directory : Directory) (create : Bool) (way : String) :
    List String → Except PathError Place
  | [] => .ok .directory
  | part :: rest =>
    if stays part then directory.walk create way rest
    else if part == ".." then directory.walk create (above way) rest
    else
      let name := way ++ part
      if rest.isEmpty then
        if create || directory.has name then .ok (.file name) else .error .notFound
      else if create && rest.all String.isEmpty then .error .isDirectory
      else if directory.has name then .error .notDirectory
      else .error .notFound

/-- Where a path leads from the directory, or from the root if it begins with a slash. -/
def resolve (directory : Directory) (create : Bool) (path : String) : Except PathError Place :=
  if path.isEmpty then .error .notFound
  else
    let way := if path.toList.head? == some '/' then root else ""
    directory.walk create way (partsOf path)

/-- The files inside the directory. -/
def inside (directory : Directory) : List (String × List UInt8) :=
  directory.files.filter fun file => !file.1.toList.contains '/'

end Directory

end LineAsm
