import ObjcSwift.Text.Path

/-!
# Directories

A directory as a value: the files below it, each with the parts of its path, and the directories
that were made below it. The other directories are those that lead to its files. Reading fails for
what is no file, and writing fails where a directory would have to be a file or a file a directory.

A path is **walked** part by part, so `a/../b` needs a directory `a` (`Walk.step?`). Writing makes
the directories that are missing on the way, and they stay: after a walk along `a/..` there is a
directory `a`, and no file can be written in its place.

What lies outside is not part of the value. Nothing can be written under a path from the root, and
only the empty file `/dev/null` can be read there; what is written above the directory is not seen.
-/

namespace ObjcSwift

/-- The files below a directory. -/
structure Directory where
  /-- The paths of the files, by their parts, with their texts. -/
  files : List (List String × String) := []
  /-- The paths of directories that were made, by their parts. -/
  made : List (List String) := []

/-- How far a path was walked. -/
structure Walk where
  /-- The directory, with what was made in it on the way. -/
  directory : Directory
  /-- The parts that lead to where the walk has come, unless that is above the directory. -/
  here : Option (List String) := some []

namespace Directory

/-- The parts of a path with every `..` and the part before it dropped. -/
def resolve (path : String) : List String :=
  (Path.parts path).foldl
    (fun parts part => if part = ".." then parts.dropLast else parts ++ [part]) []

/-- Whether a path can only lead to a directory, by its form. -/
def leadsToDirectory (path : String) : Bool :=
  (Path.fileName? path).isNone ||
    match (Path.splitAtChar '/' path.toList).getLast? with
    | some last => last.isEmpty || last == ['.']
    | none => true

/-- Whether a name can be the name of a file: it has at most 255 bytes, none of them zero. -/
def isName (name : String) : Bool :=
  name.utf8ByteSize ≤ 255 && !name.toList.contains '\x00'

/-- Whether there is a directory at the parts of a path. -/
def isDirectory (d : Directory) (parts : List String) : Bool :=
  parts.isEmpty || d.made.contains parts ||
    d.files.any fun (file, _) => parts.isPrefixOf file && file != parts

/-- Whether there is a file at the parts of a path. -/
def isFile (d : Directory) (parts : List String) : Bool :=
  (d.files.lookup parts).isSome

end Directory

namespace Walk

/-- Goes up. What is above the directory stays above it. -/
def up (w : Walk) : Walk :=
  { w with here := w.here.bind fun here => if here.isEmpty then none else some here.dropLast }

/-- Goes into a directory, which is made if it is missing and `make` says so. -/
def enter? (make : Bool) (name : String) (w : Walk) : Option Walk :=
  match w.here with
  | none => some w
  | some here =>
    let next := here ++ [name]
    if w.directory.isDirectory next then some { w with here := some next }
    else if make && Directory.isName name && !w.directory.isFile next then
      some ⟨{ w.directory with made := w.directory.made ++ [next] }, some next⟩
    else none

/-- Walks along one part of a path. -/
def step? (make : Bool) (w : Walk) (part : String) : Option Walk :=
  if part = ".." then some w.up else w.enter? make part

end Walk

namespace Directory

/-- The walk to the directory that the file of a path is in. -/
def walk? (d : Directory) (make : Bool) (path : String) : Option Walk :=
  (Path.parts path).dropLast.foldlM (Walk.step? make) ⟨d, some []⟩

/-- The text of the file at a path. -/
def read? (d : Directory) (path : String) : Option String := do
  let name ← Path.fileName? path
  if leadsToDirectory path then none
  else if Path.isAbsolute path then
    if Path.parts path = ["dev", "null"] then some "" else none
  else
    let walk ← d.walk? false path
    d.files.lookup ((← walk.here) ++ [name])

/-- Puts a text in the place of a file, or at the end. -/
def put (parts : List String) (text : String) :
    List (List String × String) → List (List String × String)
  | [] => [(parts, text)]
  | (file, old) :: rest =>
    if file = parts then (file, text) :: rest else (file, old) :: put parts text rest

/-- The directory after a file was written, together with the directories that lead to it. -/
def write? (d : Directory) (path text : String) : Option Directory := do
  let name ← Path.fileName? path
  if leadsToDirectory path || Path.isAbsolute path || !isName name then none
  else
    let ⟨d, here⟩ ← d.walk? true path
    match here with
    | none => some d
    | some here =>
      if d.isDirectory (here ++ [name]) then none
      else some { d with files := put (here ++ [name]) text d.files }

/-- A directory with the given files, by their paths. -/
def ofFiles (files : List (String × String)) : Directory :=
  { files := files.map fun (path, text) => (resolve path, text) }

/-- The files that are not in an earlier state of the directory, or not with the same text. -/
def changes (before after : Directory) : List (String × String) :=
  (after.files.filter fun (file, text) => before.files.lookup file != some text).map
    fun (file, text) => (String.intercalate "/" file, text)

end Directory

end ObjcSwift
