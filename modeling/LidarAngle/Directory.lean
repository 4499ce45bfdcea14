import LidarAngle.Fault

/-!
# Directories

The files that a run can read and create, as a value: a single directory that holds files and no
further directories. A path is a list of steps with slashes between them. An empty step and a
single dot stay in place, two dots leave the directory, and outside there are only directories
that cannot be entered. Names and paths have a greatest size.

## Main definitions

* `Directory` - the names of the files with their content
* `Directory.read` - the content of the file at a path
* `Directory.create` - the name of the file that can be created at a path
* `Directory.store` - the directory with new content for a file
-/

namespace LidarAngle

/-- The names of the files with their content. -/
abbrev Directory := List (List Char × ByteArray)

namespace Directory

/-- Where a path leads. -/
inductive Place where
  | inside
  | outside
  | file (name : List Char) (content : ByteArray)
  -- A name that no file has.
  | absent (name : List Char)

def nameLimit : Nat := 255

def pathLimit : Nat := 4095

/-- One step of a path. -/
def follow (directory : Directory) (place : Place) (step : List Char) : Except FileFault Place :=
  match place with
  | .inside =>
    if step = [] ∨ step = ['.'] then .ok .inside
    else if step = ['.', '.'] then .ok .outside
    else if nameLimit < (String.ofList step).utf8ByteSize then .error .nameTooLong
    else
      match directory.lookup step with
      | some content => .ok (.file step content)
      | none => .ok (.absent step)
  | .outside =>
    if step = [] ∨ step = ['.'] ∨ step = ['.', '.'] then .ok .outside
    else if nameLimit < (String.ofList step).utf8ByteSize then .error .nameTooLong
    else .error .missing
  | .file _ _ => .error .notDirectory
  | .absent _ => .error .missing

def locate (directory : Directory) (steps : List (List Char)) : Except FileFault Place :=
  steps.foldlM directory.follow .inside

/-- The steps of a path; one that begins with a slash starts outside. -/
def steps (path : String) : Except FileFault (List (List Char)) :=
  if path.isEmpty then .error .missing
  else if pathLimit < path.utf8ByteSize then .error .nameTooLong
  else
    match path.toList with
    | '/' :: rest => .ok (['.', '.'] :: rest.splitOn '/')
    | cs => .ok (cs.splitOn '/')

/-- The steps before the last one that is not empty. -/
def approach (steps : List (List Char)) : List (List Char) :=
  ((steps.reverse.dropWhile fun step => step = []).drop 1).reverse

def read (directory : Directory) (path : String) : Except FileFault ByteArray := do
  match ← directory.locate (← steps path) with
  | .file _ content => .ok content
  | .absent _ => .error .missing
  | .inside => .error .isDirectory
  | .outside => .error .isDirectory

/-- The name of the file that can be created at a path, in place of one that is there already. A
path that ends in slashes can only name a directory, so its last name is not looked for, but the
approach has to lead to a directory. -/
def create (directory : Directory) (path : String) : Except FileFault (List Char) := do
  let walk ← steps path
  if walk.getLast? = some [] then
    let _ ← directory.locate (approach walk ++ [[]])
    .error .isDirectory
  else
    match ← directory.locate walk with
    | .file name _ => .ok name
    | .absent name => .ok name
    | .inside => .error .isDirectory
    | .outside => .error .isDirectory

/-- The directory with new content for a file. -/
def store (directory : Directory) (name : List Char) (content : ByteArray) : Directory :=
  (name, content) :: directory.filter fun file => file.1 ≠ name

/-- What was stored last is what the file holds. -/
@[simp] theorem lookup_store (directory : Directory) (name : List Char) (content : ByteArray) :
    (directory.store name content).lookup name = some content := by
  simp [store]

end Directory

end LidarAngle
