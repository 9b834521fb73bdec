import ByteMachine.Program
import ByteMachine.Trace.Page
import ByteMachine.Yaml.Document

/-!
The command line program.  It chooses the tools, looks up the files that the options and the
configuration name, lets the program run on what it has found, and then writes what the run has
left.
-/

namespace ByteMachine

def tools : Program.Tools := ⟨Yaml.reader, Trace.page⟩

def pathTo? (place : Place) : Option String :=
  String.fromUTF8? ⟨(place.flatMap fun name => Path.slash :: name).toArray⟩

def entryAt (place : Place) : IO (Option (Place × Entry)) := do
  let some name := pathTo? place | return none
  let path := (← IO.currentDir) / name
  if ← path.isDir then return some (place, .directory)
  else if ← path.pathExists then
    return some (place, .file (← IO.FS.readBinFile path).toList)
  else return none

def explore (tree : FileTree) (path : String) : IO FileTree := do
  let path := Path.ofBytes (Text.bytes path)
  let mut place := if path.absolute then [] else tree.here
  let mut entries := tree.entries
  for name in path.parents ++ path.name.toList do
    if name = Path.up then place := place.dropLast
    else if name ≠ Path.here then
      place := place ++ [name]
      match ← entryAt place with
      | some entry => entries := entries ++ [entry]
      | none => pure ()
  return { tree with entries }

def reachable (options : Options) : IO FileTree := do
  let here := Path.ofBytes (← IO.currentDir).toString.toUTF8.toList
  let mut tree : FileTree := { here := here.parents ++ here.name.toList }
  match options.config.value? with
  | some path => tree ← explore tree path
  | none => pure ()
  match Program.configure tools.reader tree options with
  | .ok (config, _) =>
    for value in [config.load, config.save] do
      match value with
      | .text path => tree ← explore tree path
      | _ => pure ()
  | .error _ => pure ()
  return tree

def runOptions (options : Options) : IO UInt32 := do
  let tree ← reachable options
  let input ← (← IO.getStdin).readBinToEnd
  let outcome := Program.run tools options tree { unread := input.toList } Program.patience
  for (place, content) in outcome.files.files.drop tree.files.length do
    match pathTo? place with
    | some path => IO.FS.writeBinFile path ⟨content.toArray⟩
    | none => pure ()
  (← IO.getStdout).write ⟨outcome.output.toArray⟩
  IO.eprint (Text.written outcome.report)
  match outcome.ending with
  | .exit status => return UInt32.ofNat status.code
  | .escaped failure =>
    IO.eprintln (Text.written failure.message)
    return 1
  | .unfinished => return 1

def usageLine : String :=
  "usage: retro-evm [-h] [-l IMAGE] [-s IMAGE] [-d] [--no-pause] [-c YAML] " ++
    "[--log-level LEVEL] [image]"

end ByteMachine

open ByteMachine in
def main (arguments : List String) : IO UInt32 := do
  match Options.ofArguments .late (arguments.map Text.ofString) with
  | .ok options => runOptions options
  | .error .help =>
    IO.println usageLine
    return 0
  | .error (.usage e) =>
    IO.eprintln usageLine
    IO.eprintln (Text.written s!"retro-evm: error: {e.message}")
    return 2
