import Shaderlift.Config.Reading
import Shaderlift.Json.Writer
import Shaderlift.Text.Part
import Shaderlift.Transpiled

/-!
The command line: transpile one shader type of a file and print the output, its bindings and its layout, or
all of it encoded. Files are read through a function, so that a run is a value.
-/

namespace Shaderlift

namespace Command

def usage : String :=
  Lines.text
    ["kiln_dump: transpile one shader type and print the generated HLSL",
     "",
     "USAGE:",
     "    cargo run -p kiln-hlsl --bin kiln_dump -- <source.cs> --type NAME " ++
       "[--config cfg.json] [--bindings] [--layout] [--json]",
     "",
     "FLAGS:",
     "    --type NAME       Shader type to transpile",
     "    --config PATH     JSON shader configuration (default: empty configuration)",
     "    --bindings        Print the binding table after the HLSL",
     "    --layout          Print the constant buffer layout after the HLSL",
     "    --json            Print the whole transpiled shader as JSON instead of HLSL",
     "",
     "Set RUST_LOG=kiln_hlsl=debug to trace the pipeline stages."]

/-- What the arguments ask for so far. -/
structure Settings where
  path : Option String
  typeName : Option String
  config : Option String
  bindings : Bool
  layout : Bool
  json : Bool
  deriving DecidableEq, Repr

def Settings.none : Settings := ⟨.none, .none, .none, false, false, false⟩

/-- Why arguments cannot be used. -/
inductive UsageError where
  | missingValue (option : String)
  | unknownOption (arg : String)
  | secondPath (arg : String)
  | missingPath
  | missingType
  deriving DecidableEq, Repr

/-- Word why arguments cannot be used. -/
def UsageError.message : UsageError → String
  | .missingValue option => option ++ " requires a value"
  | .unknownOption arg => "unknown option " ++ Text.quoted arg ++ "\n\n" ++ usage
  | .secondPath arg => "unexpected positional argument " ++ Text.quoted arg ++ "\n\n" ++ usage
  | .missingPath => "missing shader source path\n\n" ++ usage
  | .missingType => "missing --type\n\n" ++ usage

/-- What arguments ask for: help, or a run. -/
inductive Choice where
  | help
  | run (settings : Settings)
  deriving DecidableEq, Repr

def single (settings : Settings) (arg : String) : Except UsageError Settings :=
  match Text.stripStart "--type=".toList arg.toList with
  | some name => .ok { settings with typeName := some (String.ofList name) }
  | none =>
    if Text.startsWith "-" arg then .error (.unknownOption arg)
    else if settings.path.isSome then .error (.secondPath arg)
    else .ok { settings with path := some arg }

/-- Read arguments in order; help ends the reading. -/
def choose (settings : Settings) : List String → Except UsageError Choice
  | [] => .ok (.run settings)
  | "-h" :: _ => .ok .help
  | "--help" :: _ => .ok .help
  | ["--type"] => .error (.missingValue "--type")
  | "--type" :: name :: rest => choose { settings with typeName := some name } rest
  | ["--config"] => .error (.missingValue "--config")
  | "--config" :: path :: rest => choose { settings with config := some path } rest
  | "--bindings" :: rest => choose { settings with bindings := true } rest
  | "--layout" :: rest => choose { settings with layout := true } rest
  | "--json" :: rest => choose { settings with json := true } rest
  | arg :: rest =>
    match single settings arg with
    | .ok settings => choose settings rest
    | .error error => .error error

/-- What a run leaves behind. -/
structure Outcome where
  code : UInt32
  output : String
  errors : String
  deriving DecidableEq, Repr

def failed (before message : String) : Outcome := ⟨1, "", before ++ "error: " ++ message ++ "\n"⟩

def padLeft (width : Nat) (text : String) : String :=
  String.ofList (List.replicate (width - text.length) ' ') ++ text

def padRight (width : Nat) (text : String) : String :=
  text ++ String.ofList (List.replicate (width - text.length) ' ')

def bindingLine (binding : Binding) : String :=
  "  slot " ++ padLeft 2 (toString binding.slot) ++ "  " ++ padRight 5 binding.register.render ++ " " ++
    padRight 17 binding.kind.name ++ " " ++ binding.field.getD "<output>" ++ "\n"

def bindingTable (bindings : List Binding) : String :=
  "\nbindings (" ++ toString bindings.length ++ "):\n" ++ String.join (bindings.map bindingLine)

def layoutLine (field : FieldLayout) : String :=
  "  " ++ padLeft 5 (toString field.offset) ++ "  " ++ padRight 8 field.packOffset ++ " " ++
    padLeft 4 (toString field.size) ++ " bytes  " ++ field.type.spelling ++ " " ++ field.name ++ "\n"

def layoutTable (model : ShaderModel) : String :=
  "\nconstant buffer: " ++ toString model.layout.size ++ " bytes (" ++ toString model.layout.registerSize ++
    " padded), limit " ++ toString model.dataLimit ++ "\n" ++ String.join (model.layout.fields.map layoutLine)

def output (settings : Settings) (shader : Transpiled) : String :=
  if settings.json then shader.toJson.indented ++ "\n"
  else
    shader.hlsl ++ (if settings.bindings then bindingTable shader.bindings else "") ++
      (if settings.layout then layoutTable shader.model else "")

/-- End a run that has no output. A syntax error is told with its cause. -/
def rejected (path typeName : String) (error : TranspileError) : Outcome :=
  match error with
  | .rejected report =>
    failed report.render (typeName ++ ": " ++ toString report.errors.length ++ " error(s) in " ++ path)
  | .unreadable cause => failed "" ("transpile " ++ typeName ++ ": " ++ error.message ++ ": " ++ cause.render)
  | .typeNotFound _ => failed "" ("transpile " ++ typeName ++ ": " ++ error.message)

def finish (settings : Settings) (path typeName source : String) (config : Config) : Outcome :=
  match transpile source typeName config with
  | .ok shader =>
    ⟨0, output settings shader,
     String.join (shader.report.warnings.map fun warning => warning.render ++ "\n")⟩
  | .error error => rejected path typeName error

section Running

variable {m : Type → Type} [Monad m]

/-- Read a file; a failure tells why. -/
abbrev Reader (m : Type → Type) := String → m (Except String String)

/-- End a run on a file that cannot be read. -/
def unread (path reason : String) : Outcome := failed "" ("read " ++ path ++ ": " ++ reason)

def readConfig (read : Reader m) : Option String → m (Except Outcome Config)
  | none => pure (.ok .unspecified)
  | some path => do
    match ← read path with
    | .error reason => pure (.error (unread path reason))
    | .ok text =>
      match Config.read text with
      | some config => pure (.ok config)
      | none => pure (.error (failed "" ("parse " ++ path ++ ": invalid shader configuration")))

def execute (read : Reader m) (settings : Settings) : m Outcome :=
  match settings.path, settings.typeName with
  | none, _ => pure (failed "" UsageError.missingPath.message)
  | some _, none => pure (failed "" UsageError.missingType.message)
  | some path, some typeName => do
    match ← read path with
    | .error reason => pure (unread path reason)
    | .ok source =>
      match ← readConfig read settings.config with
      | .error outcome => pure outcome
      | .ok config => pure (finish settings path typeName source config)

def run (read : Reader m) (args : List String) : m Outcome :=
  match choose .none args with
  | .error error => pure (failed "" error.message)
  | .ok .help => pure ⟨0, usage, ""⟩
  | .ok (.run settings) => execute read settings

end Running

end Command

end Shaderlift
