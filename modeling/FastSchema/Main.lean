import FastSchema.CommandLine.Program

/-!
# The command line tool

Runs the program on the disk of the machine.
-/

namespace FastSchema

open Disk (Failure)

def Disk.Failure.ofError : IO.Error → Failure
  | .noFileOrDirectory .. => .notFound
  | .alreadyExists .. => .alreadyExists
  | .inappropriateType _ 21 _ => .isDirectory
  | .inappropriateType .. => .notDirectory
  | e@(.invalidArgument _ code _) =>
    if code = 36 || code = -36 then .nameTooLong else .other (toString e)
  | e => .other (toString e)

def Disk.attempt {α : Type} (p : Disk.Path) (action : IO α) : IO (Except Failure α) := do
  if p.text.toList.contains '\x00' then return .error .nulInPath
  match ← action.toBaseIO with
  | .ok a => return .ok a
  | .error e => return .error (.ofError e)

/-- Creates a directory on the disk of the machine. Those it lies in are created only where the
first attempt finds that one of them is missing. -/
def Disk.createTree (p : Disk.Path) : IO (Except Failure Unit) := do
  if p.text = "" then return .ok ()
  match ← Disk.attempt p (IO.FS.createDir p.text) with
  | .error .notFound | .error .alreadyExists => Disk.attempt p (IO.FS.createDirAll p.text)
  | answer => return answer

def Disk.machine : Disk IO where
  read p := Disk.attempt p do return (← IO.FS.readBinFile p.text).toList
  createDirs := Disk.createTree
  write p content := Disk.attempt p (IO.FS.writeBinFile p.text ⟨content.toArray⟩)

end FastSchema

def main (args : List String) : IO UInt32 := do
  let outcome ← FastSchema.CommandLine.run FastSchema.Disk.machine args
  IO.print outcome.stdout
  IO.eprint outcome.stderr
  return outcome.exitCode.toUInt32
