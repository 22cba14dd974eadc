/-!
# Arguments of the command line

`ogn check` takes paths and flags in any order, `ogn types` takes one flag, and `ogn help` takes
the name of a command. `-v` may stand anywhere and any number of times; it only makes the
program talk more. Other flags may be given once. After `--` everything is a path. Arguments
that do not fit are a usage error, which is the absence of a command here.
-/

set_option autoImplicit false

namespace NodeDescriptor

/-- What is to be checked, and how. -/
structure CheckRequest where
  paths : List String
  strict : Bool
  /-- The file with the options. -/
  config : Option String
  json : Bool
  sequential : Bool
  deriving DecidableEq

/-- A command of the program. -/
inductive Command where
  | check (request : CheckRequest)
  | types (unions : Bool)
  | version
  | help
  deriving DecidableEq

namespace Arguments

/-! ## Single arguments -/

/-- Whether an argument is written like a flag. -/
def isFlag (argument : String) : Bool :=
  match argument.toList with
  | '-' :: _ :: _ => true
  | _ => false

/-- Whether an argument can be the value of the flag before it. -/
def isValue (argument : String) : Bool := argument != "" && !isFlag argument

/-- The value in `--flag=value`. -/
def inlineValue? (flag argument : String) : Option String :=
  let front := (flag ++ "=").toList
  if argument.toList.take front.length = front then
    some (String.ofList (argument.toList.drop front.length))
  else none

/-- What an argument of flags means that are allowed everywhere: nothing, or a request for
help; absent when there is another flag in it. -/
def commonFlag? (argument : String) : Option (Option Command) :=
  if argument = "--verbose" then some none
  else if argument = "--help" then some (some .help)
  else
    match argument.toList with
    | '-' :: letters =>
        match letters.dropWhile (· == 'v') with
        | [] => if letters.isEmpty then none else some none
        | 'h' :: _ => some (some .help)
        | _ => none
    | _ => none

/-- Whether an argument asks for the version. -/
def asksVersion (argument : String) : Bool :=
  argument == "--version" ||
    match argument.toList with
    | '-' :: letters => (letters.dropWhile (· == 'v')).head? == some 'V'
    | _ => false

/-! ## Commands -/

/-- Finish a request once all arguments are read. -/
def finish (request : CheckRequest) (paths : List String) : Option Command :=
  let request := { request with paths := request.paths ++ paths }
  if request.paths.isEmpty || request.paths.any (· == "") then none else some (.check request)

/-- Take the options from a file, unless a file is named already. -/
def withConfig? (request : CheckRequest) (value : String) : Option CheckRequest :=
  if request.config.isSome || value == "" then none
  else some { request with config := some value }

/-- Read a flag of `check` that has no value, or one that has it behind an equals sign. -/
def checkFlag? (request : CheckRequest) (argument : String) : Option CheckRequest :=
  if argument = "--strict" then
    if request.strict then none else some { request with strict := true }
  else if argument = "--json" then
    if request.json then none else some { request with json := true }
  else if argument = "--sequential" then
    if request.sequential then none else some { request with sequential := true }
  else (inlineValue? "--config" argument).bind (withConfig? request)

/-- Read the arguments of `check`. -/
def check? (request : CheckRequest) : List String → Option Command
  | [] => finish request []
  | "--" :: paths => finish request paths
  | "--config" :: value :: rest =>
      if isValue value then
        match withConfig? request value with
        | some request => check? request rest
        | none => none
      else none
  | argument :: rest =>
      if isFlag argument then
        match commonFlag? argument with
        | some (some command) => some command
        | some none => check? request rest
        | none =>
            match checkFlag? request argument with
            | some request => check? request rest
            | none => none
      else if argument = "" then none
      else check? { request with paths := request.paths ++ [argument] } rest

/-- Read the arguments of `types`. -/
def types? (unions : Bool) : List String → Option Command
  | [] | ["--"] => some (.types unions)
  | argument :: rest =>
      match commonFlag? argument with
      | some (some command) => some command
      | some none => types? unions rest
      | none => if argument = "--unions" && !unions then types? true rest else none

/-- Read the arguments of `help`: at most one, which names a command. -/
def help? : List String → Option Command
  | [] | ["check"] | ["types"] | ["help"] => some .help
  | _ => none

def read? : List String → Option Command
  | [] => none
  | argument :: rest =>
      if argument = "check" then check? ⟨[], false, none, false, false⟩ rest
      else if argument = "types" then types? false rest
      else if argument = "help" then help? rest
      else if asksVersion argument then some .version
      else
        match commonFlag? argument with
        | some (some command) => some command
        | some none => read? rest
        | none => none

end Arguments

end NodeDescriptor
