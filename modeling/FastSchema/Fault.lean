import FastSchema.Disk.Basic
import FastSchema.Fault.Code
import FastSchema.Schema.IntType
import FastSchema.Text.Bytes
import FastSchema.Xml.Malformed

/-!
# Faults

Why a document cannot be compiled: one constructor per cause, with what the message tells about it.
-/

namespace FastSchema

/-- Why a document cannot be loaded. From a path without a last component no unit can be named. -/
inductive LoadFailure where
  | malformed (cause : Xml.Malformed)
  | unnamed (path : String)
  | unreadable (path : String) (cause : Disk.Failure)
  | within (path : String) (cause : LoadFailure)
deriving DecidableEq, Repr, Inhabited

def LoadFailure.message : LoadFailure → String
  | .malformed cause => cause.message
  | .unnamed path => path ++ ": cannot derive a unit name"
  | .unreadable path cause => path ++ ": " ++ cause.message
  | .within path cause => path ++ ": " ++ cause.message

/-- A broken assumption of the compiler itself. Compiling a document never meets one; most of them
arise when the steps of a compilation are taken out of order. With `stopped` a recorder is told to
fail at an event. -/
inductive Misuse where
  | scopeMismatch (expected top : String)
  | emptyScope (expected : String)
  | emptyPath
  | noOpenFrame (symbol : String)
  | noFrameToClose
  | bodyCount (collected fields : Nat)
  | templateCount (template : String) (collected fields : Nat)
  | openScope (depth : Nat) (unit : String)
  | openFrames (unit : String) (depth : Nat)
  | undecoded (literal : String) (failure : Text.HexFailure)
  | stopped (event : Nat)
deriving DecidableEq, Repr, Inhabited

def Misuse.message : Misuse → String
  | .scopeMismatch expected top =>
    "scope pop mismatch: expected " ++ Text.quote expected ++ ", top is " ++ Text.quote top
  | .emptyScope expected => "scope pop of " ++ Text.quote expected ++ " on an empty stack"
  | .emptyPath => "symbol path pop on an empty path"
  | .noOpenFrame symbol => "no open subinstruction frame for " ++ symbol
  | .noFrameToClose => "close of a subinstruction frame that was never opened"
  | .bodyCount collected fields =>
    toString collected ++ " subinstructions collected for " ++ toString fields ++ " fields"
  | .templateCount template collected fields =>
    "template " ++ template ++ ": " ++ toString collected ++ " subinstructions collected for " ++
      toString fields ++ " fields"
  | .openScope depth unit =>
    "accessor scope still " ++ toString depth ++ " deep at end of unit " ++ unit
  | .openFrames unit depth =>
    "unbalanced emission state at end of unit " ++ unit ++ ": " ++ toString depth ++
      " open frames"
  | .undecoded literal failure =>
    "hex decode of " ++ Text.quote literal ++ ": " ++ failure.message
  | .stopped event => "stopped at event " ++ toString event

inductive Fault where
  | load (failure : LoadFailure)
  | badRoot (found : String)
  | invalidDecimal (literal : String)
  | invalidByteVectorChar (literal : String) (char : Char)
  | oddByteVector (literal : String)
  | invalidInteger (field : String) (type : IntType) (literal : String)
  | invalidId (field literal : String)
  | unresolvedReference (name ns : String)
  | internal (misuse : Misuse)
deriving DecidableEq, Repr, Inhabited

namespace Fault

def code : Fault → Code
  | .load _ => .loadFailed
  | .badRoot _ => .badRoot
  | .invalidDecimal _ => .invalidDecimal
  | .invalidByteVectorChar _ _ => .invalidByteVector
  | .oddByteVector _ => .invalidByteVector
  | .invalidInteger _ _ _ => .invalidInteger
  | .invalidId _ _ => .invalidId
  | .unresolvedReference _ _ => .unresolvedReference
  | .internal _ => .internalBug

/-- The document could not be loaded at all. -/
def isLoadFault (f : Fault) : Bool := f.code.phase = .load

def exitCode (f : Fault) : Nat := if f.isLoadFault then 3 else 2

def message : Fault → String
  | .load failure => "schema load failed: " ++ failure.message
  | .badRoot found =>
    "schema root must be <templates> or <template>, found <" ++ found ++ ">"
  | .invalidDecimal literal => literal ++ " is not a valid decimal number"
  | .invalidByteVectorChar literal char =>
    "\"" ++ literal ++ "\" is not a valid byte vector, invalid character " ++ Text.quoteChar char
  | .oddByteVector literal =>
    "\"" ++ literal ++ "\" is not a valid byte vector, it must have even digits"
  | .invalidInteger field type literal =>
    literal ++ " is not a valid " ++ type.name ++ " value for field " ++ Text.quote field
  | .invalidId field literal => literal ++ " is not a valid id for " ++ Text.quote field
  | .unresolvedReference name ns =>
    "cannot find the definition for static templateRef name=" ++ Text.quote name ++ ", ns=" ++
      Text.quote ns
  | .internal misuse => "internal error: " ++ misuse.message

end Fault

end FastSchema
