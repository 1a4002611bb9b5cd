import StagedLowering.Command.Program

/-!
The executable: it reads the files a request names, prints what the program answers and exits with
its code.
-/
namespace StagedLowering.Command

/-- The files among these that can be read, with their contents. -/
def readAll (names : List String) : IO (List (String × String)) :=
  names.filterMapM fun (name : String) => do
    try
      let text ← IO.FS.readFile name
      pure (some (name, text))
    catch _ => pure none

end StagedLowering.Command

open StagedLowering.Command

def main (args : List String) : IO UInt32 := do
  let invocation := parse args
  let names :=
    match invocation with
    | .run request => request.files
    | _ => []
  let contents ← readAll names
  let response := invocation.respond (contents.lookup ·)
  IO.print response.stdout
  match response.message with
  | some message => IO.eprintln ("Error: " ++ message)
  | none => if response.code = 2 then IO.eprint usage
  pure response.code.toUInt32
