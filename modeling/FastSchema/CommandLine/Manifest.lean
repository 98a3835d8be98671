import FastSchema.Disk.Path
import FastSchema.Json.Reader
import FastSchema.Literal.Basic

/-!
# Manifests

A manifest lists the documents of a run and may say where the output goes. It is a JSON object with
the members `schema_version`, `out_dir` and `inputs`, of which the second may be missing or null and
others are ignored, or an array of these three in this order.
-/

namespace FastSchema

structure Manifest where
  version : String
  outDir : Option String
  inputs : List String
deriving DecidableEq, Repr, Inhabited

namespace Manifest

open Json Json.Reader

def schemaVersion : String := "fastgen.manifest@0.1.0"

/-- What the members read so far say. -/
structure Members where
  version : Option String
  outDir : Option (Option String)
  inputs : Option (List String)
deriving DecidableEq, Repr, Inhabited

/-- Reads a member. No member that counts may occur twice. -/
def readMember (found : Members) (key : String) : Reader Members := fun s =>
  if key = "schema_version" then
    if found.version.isSome then none
    else (string s).map fun r => ({ found with version := some r.1 }, r.2)
  else if key = "out_dir" then
    if found.outDir.isSome then none
    else (nullable string s).map fun r => ({ found with outDir := some r.1 }, r.2)
  else if key = "inputs" then
    if found.inputs.isSome then none
    else (Reader.array string s).map fun r => ({ found with inputs := some r.1 }, r.2)
  else (skipValue s).map fun r => (found, r.2)

def readKey : Reader String := fun s => do
  let (bytes, rest) ← stringBytes (s.length + 1) [] s
  return (← Text.ofUtf8? bytes, rest)

/-- A manifest in the form of an object, after its opening bracket. -/
def readObject : Reader Manifest := fun s => do
  let (found, s) ←
    bracketed '\x7d' (fun found => member readKey (readMember found)) ⟨none, none, none⟩ s
  return (⟨← found.version, found.outDir.getD none, ← found.inputs⟩, s)

def punctuation (c : Char) : Reader Unit := fun s =>
  match skipSpace s with
  | b :: s => if b = ascii c then some ((), s) else none
  | [] => none

def readArray : Reader Manifest := fun s => do
  let (version, s) ← string s
  let ((), s) ← punctuation ',' s
  let (outDir, s) ← nullable string s
  let ((), s) ← punctuation ',' s
  let (inputs, s) ← Reader.array string s
  let ((), s) ← punctuation ']' s
  return (⟨version, outDir, inputs⟩, s)

/-- The manifest that a file holds. -/
def parse (bytes : List UInt8) : Option Manifest := do
  let (manifest, rest) ←
    match skipSpace bytes with
    | b :: s =>
      if b = ascii '\x7b' then readObject s else if b = ascii '[' then readArray s else none
    | [] => none
  if (skipSpace rest).isEmpty then some manifest else none

def isSupported (m : Manifest) : Bool :=
  Text.trim m.version.toList = schemaVersion.toList

/-- The manifest with its paths relative to the directory it lies in. -/
def locate (m : Manifest) (path : Disk.Path) : Manifest :=
  let base := path.parent?.getD ⟨"."⟩
  let place (p : String) : String := (base.join ⟨p⟩).text
  { m with outDir := m.outDir.map place, inputs := m.inputs.map place }

end Manifest

end FastSchema
