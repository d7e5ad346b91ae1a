import ObjcSwift.Run.Program

/-!
# Running the program

The program on a real file system.
-/

namespace ObjcSwift

/-- The path of the directory that a path leads through, if it has more than one part. -/
def directoryOf? (path : String) : Option String :=
  match (path.toList.reverse.dropWhile (· != '/')).tail with
  | [] => none
  | reversed => some (String.ofList reversed.reverse)

/-- Files of the file system. -/
def FileAccess.ofSystem : FileAccess IO where
  read path := do
    try return some (← IO.FS.readFile path)
    catch _ => return none
  write path text := do
    try
      if let some directory := directoryOf? path then IO.FS.createDirAll directory
      IO.FS.writeFile path text
      return true
    catch _ => return false

end ObjcSwift

/-- Runs the program. -/
def main (arguments : List String) : IO UInt32 := do
  let outcome ← ObjcSwift.Program.run .ofSystem arguments
  for line in outcome.messages do IO.eprintln line
  for line in outcome.output do IO.println line
  return outcome.status
