/-!
# Paths

A path is a text whose parts stand between slashes. Empty parts and the part `.` mean nothing, and
the part `..` names no file.

* `Path.fileStem?` is the name of the file that a path leads to, without its extension. The dot at
  the start of a name does not begin an extension.
* `Path.join` puts a path under a directory; a path that starts with a slash stays as it is.
-/

namespace ObjcSwift.Path

/-- The parts of a text between the occurrences of a character. -/
def splitAtChar (c : Char) : List Char → List (List Char)
  | [] => [[]]
  | d :: cs =>
    if d = c then [] :: splitAtChar c cs
    else
      match splitAtChar c cs with
      | [] => [[d]]
      | part :: parts => (d :: part) :: parts

/-- The parts of a path that mean something. -/
def parts (path : String) : List String :=
  ((splitAtChar '/' path.toList).map String.ofList).filter fun part => part != "" && part != "."

/-- Whether a path starts at the root. -/
def isAbsolute (path : String) : Bool :=
  path.toList.head? == some '/'

/-- The name of the file that a path leads to. -/
def fileName? (path : String) : Option String :=
  (parts path).getLast?.filter (· != "..")

/-- A name without its extension, which starts at the last dot unless that is its first
character. -/
def stem (name : String) : String :=
  match (name.toList.reverse.dropWhile (· != '.')).tail with
  | [] => name
  | reversed => String.ofList reversed.reverse

/-- The name of the file that a path leads to, without its extension. -/
def fileStem? (path : String) : Option String :=
  (fileName? path).map stem

/-- A text without an ending, if it has it. -/
def stripSuffix? (text ending : String) : Option String :=
  if ending.toList.isSuffixOf text.toList then
    some (String.ofList (text.toList.take (text.length - ending.length)))
  else none

/-- The path of something in a directory. -/
def join (directory path : String) : String :=
  if isAbsolute path || directory == "" then path
  else if directory.toList.getLast? == some '/' then directory ++ path
  else directory ++ "/" ++ path

/-- The Objective-C file that a source describes: a tree may be stored beside its file, under the
file's name and `.json`. -/
def ofSource (sourceName : String) : String :=
  (stripSuffix? sourceName ".json").getD sourceName

/-- The Swift file for an Objective-C file: `Feed.h` and `Feed.m` both give `Feed.swift`. -/
def target (sourcePath : String) : String :=
  (fileStem? sourcePath).getD sourcePath ++ ".swift"

end ObjcSwift.Path
