import FastSchema.CommandLine.Manifest
import FastSchema.CommandLine.Options
import FastSchema.Compiler

/-!
# The program

Compiles documents in order and writes what each is compiled into before the next one is read. The
first failure ends the run; what was written before it stays. With `--check` nothing is written and
the files have to be there with the very content that would be written.
-/

namespace FastSchema.CommandLine

/-- Why a run fails. -/
inductive Failure where
  | usage (error : UsageError)
  | noInputs
  | manifestUnreadable (path : Disk.Path) (cause : Disk.Failure)
  | manifestMalformed (path : Disk.Path)
  | manifestVersion (found : String)
  | compile (path : Disk.Path) (fault : Fault)
  | outputUnreadable (path : Disk.Path) (cause : Disk.Failure)
  | outputDiffers (path : Disk.Path)
  | directoryNotCreated (path : Disk.Path) (cause : Disk.Failure)
  | outputNotWritten (path : Disk.Path) (cause : Disk.Failure)
deriving DecidableEq, Repr, Inhabited

namespace Failure

def message : Failure → String
  | .usage error => error.message
  | .noInputs => "no schema documents given (pass files or --manifest)"
  | .manifestUnreadable path cause => "read manifest: " ++ path.text ++ ": " ++ cause.message
  | .manifestMalformed path => "parse manifest JSON: " ++ path.text ++ ": not a manifest"
  | .manifestVersion found =>
    "manifest schema_version mismatch: expected " ++ Manifest.schemaVersion ++ " got " ++
      Text.quote found
  | .compile path fault => "compile " ++ path.text ++ ": " ++ fault.message
  | .outputUnreadable path cause =>
    "read existing output: " ++ path.text ++ ": " ++ cause.message
  | .outputDiffers path => "generated output differs: " ++ path.text
  | .directoryNotCreated path cause =>
    "create output dir: " ++ path.text ++ ": " ++ cause.message
  | .outputNotWritten path cause => "write output: " ++ path.text ++ ": " ++ cause.message

def label : Failure → String
  | .compile _ fault => "error[" ++ fault.code.label ++ "]"
  | _ => "error"

def exitCode : Failure → Nat
  | .compile _ fault => fault.exitCode
  | .usage .help => 0
  | _ => 2

end Failure

/-- What a run leaves besides files. -/
structure Outcome where
  exitCode : Nat
  stdout : String
  stderr : String
deriving DecidableEq, Repr, Inhabited

namespace Outcome

def success (stdout : String) : Outcome := ⟨0, stdout, ""⟩

def ofFailure : Failure → Outcome
  | .usage .help => success usage
  | failure => ⟨failure.exitCode, "", failure.label ++ ": " ++ failure.message ++ "\n"⟩

end Outcome

/-- The files that a unit is written to, with their texts, in the order they are written. -/
def outputs (outDir : Disk.Path) (metadata : Bool) (unit : CompiledUnit) :
    List (Disk.Path × String) :=
  let path (extension : String) : Disk.Path := outDir.join ⟨unit.unit ++ extension⟩
  [(path ".inl", unit.accessors), (path ".cpp", unit.tables)] ++
    if metadata then [(path ".metadata.json", unit.metadata.text)] else []

variable {m : Type → Type} [Monad m]

abbrev Run (m : Type → Type) := ExceptT Failure m

def Run.require {α : Type} (failure : Disk.Failure → Failure)
    (step : m (Except Disk.Failure α)) : Run m α :=
  ExceptT.adapt failure (ExceptT.mk step)

/-- The file is there and holds the text. -/
def checkOutput (disk : Disk m) (path : Disk.Path) (text : String) : Run m Unit := do
  let bytes ← Run.require (.outputUnreadable path) (disk.read path)
  match Text.ofUtf8? bytes with
  | none => throw (.outputUnreadable path .notText)
  | some found => if found ≠ text then throw (.outputDiffers path)

/-- Writes the text to the file, whose directory need not exist. -/
def writeOutput (disk : Disk m) (path : Disk.Path) (text : String) : Run m Unit := do
  match path.parent? with
  | some parent => Run.require (.directoryNotCreated parent) (disk.createDirs parent)
  | none => pure ()
  Run.require (.outputNotWritten path) (disk.write path (Text.utf8 text))

/-- Writes or checks files, in order. -/
def settle (disk : Disk m) (check : Bool) : List (Disk.Path × String) → Run m Unit
  | [] => pure ()
  | (path, text) :: rest => do
    if check then checkOutput disk path text else writeOutput disk path text
    settle disk check rest

/-- Compiles the documents and writes or checks the files of each. -/
def compileAll (disk : Disk m) (options : Options) (outDir : Disk.Path) :
    Registry → List Disk.Path → Run m Unit
  | _, [] => pure ()
  | registry, path :: paths => do
    let content ← disk.read path
    match (Compile.file path content).outcome registry with
    | (.error fault, _) => throw (.compile path fault)
    | (.ok unit, registry) =>
      settle disk options.check (outputs outDir options.metadata unit)
      compileAll disk options outDir registry paths

def readManifest (disk : Disk m) (path : Disk.Path) : Run m Manifest := do
  let bytes ← Run.require (.manifestUnreadable path) (disk.read path)
  match Manifest.parse bytes with
  | none => throw (.manifestMalformed path)
  | some manifest =>
    if !manifest.isSupported then throw (.manifestVersion manifest.version)
    return manifest.locate path

/-- A run with the given options. The documents of the manifest come first; the output directory
of the options goes before that of the manifest. -/
def compileWith (disk : Disk m) (options : Options) : Run m Unit := do
  let manifest ← match options.manifest with
    | some path => some <$> readManifest disk ⟨path⟩
    | none => pure none
  let inputs := (manifest.map Manifest.inputs).getD [] ++ options.inputs
  if inputs.isEmpty then throw .noInputs
  let outDir := (options.outDir.or (manifest.bind Manifest.outDir)).getD "."
  compileAll disk options ⟨outDir⟩ .empty (inputs.map Disk.Path.mk)

/-- Runs the program with the given arguments. -/
def run (disk : Disk m) (args : List String) : m Outcome := do
  match Options.start.parse args with
  | .error error => return .ofFailure (.usage error)
  | .ok options =>
    if options.catalogue then return .success Code.catalogue
    match ← (compileWith disk options).run with
    | .ok () => return .success ""
    | .error failure => return .ofFailure failure

end FastSchema.CommandLine
