/-!
# Options of the command line

Options may stand before, between and after the documents. A value follows its option as the next
argument or after an equals sign; after `--` everything is a document.
-/

namespace FastSchema.CommandLine

structure Options where
  inputs : List String
  manifest : Option String
  outDir : Option String
  check : Bool
  metadata : Bool
  catalogue : Bool
deriving DecidableEq, Repr, Inhabited

/-- Why arguments are not understood. -/
inductive UsageError where
  | help
  | unknown (argument : String)
  | missingValue (option : String)
  | emptyValue
  | unexpectedValue (option : String)
  | repeated (option : String)
deriving DecidableEq, Repr, Inhabited

def usage : String := "Usage: fast_type_gen [OPTIONS] [INPUTS]...\n"

def UsageError.message : UsageError → String
  | .help => usage
  | .unknown argument => "unexpected argument '" ++ argument ++ "' found"
  | .missingValue option => "a value is required for '" ++ option ++ "' but none was supplied"
  | .emptyValue => "a value is required but an empty one was supplied"
  | .unexpectedValue option => "unexpected value for '" ++ option ++ "' found"
  | .repeated option => "the argument '" ++ option ++ "' cannot be used multiple times"

namespace Options

def start : Options := ⟨[], none, none, false, false, false⟩

def addInput (o : Options) (path : String) : Except UsageError Options :=
  if path = "" then .error .emptyValue else .ok { o with inputs := o.inputs ++ [path] }

def takesValue (option : String) : Bool := option = "--manifest" || option = "--out-dir"

def setValue (o : Options) (option value : String) : Except UsageError Options :=
  if value = "" then .error .emptyValue
  else if option = "--manifest" then
    if o.manifest.isSome then .error (.repeated option)
    else .ok { o with manifest := some value }
  else
    if o.outDir.isSome then .error (.repeated option) else .ok { o with outDir := some value }

def setFlag (o : Options) (option : String) : Except UsageError Options :=
  if option = "--check" then
    if o.check then .error (.repeated option) else .ok { o with check := true }
  else if option = "--metadata-json" then
    if o.metadata then .error (.repeated option) else .ok { o with metadata := true }
  else if option = "--diagnostics-md" then
    if o.catalogue then .error (.repeated option) else .ok { o with catalogue := true }
  else if option = "--verbose" then .ok o
  else if option = "--help" then .error .help
  else .error (.unknown option)

/-- The short options in one argument, without its hyphen. -/
def setShort (o : Options) : List Char → Except UsageError Options
  | [] => .ok o
  | 'v' :: cs => setShort o cs
  | 'h' :: _ => .error .help
  | c :: _ => .error (.unknown ("-" ++ String.singleton c))

/-- What stands before and after the first equals sign. -/
def splitValue (argument : List Char) : String × Option String :=
  let value :=
    match argument.dropWhile (· ≠ '=') with
    | _ :: value => some (String.ofList value)
    | [] => none
  (String.ofList (argument.takeWhile (· ≠ '=')), value)

/-- The argument begins like an option. -/
def isOption (argument : String) : Bool :=
  match argument.toList with
  | '-' :: _ :: _ => true
  | _ => false

def addInputs (o : Options) (paths : List String) : Except UsageError Options :=
  paths.foldlM addInput o

def parse (o : Options) : List String → Except UsageError Options
  | [] => .ok o
  | argument :: rest =>
    if argument = "--" then o.addInputs rest
    else
      match argument.toList with
      | '-' :: '-' :: _ =>
        match splitValue argument.toList with
        | (option, some value) =>
          if takesValue option then do (← o.setValue option value).parse rest
          else if (start.setFlag option).isOk then .error (.unexpectedValue option)
          else .error (.unknown option)
        | (option, none) =>
          if takesValue option then
            match rest with
            | value :: rest =>
              if isOption value then .error (.missingValue option)
              else do (← o.setValue option value).parse rest
            | [] => .error (.missingValue option)
          else do (← o.setFlag option).parse rest
      | '-' :: c :: cs => do (← o.setShort (c :: cs)).parse rest
      | _ => do (← o.addInput argument).parse rest

end Options

end FastSchema.CommandLine
