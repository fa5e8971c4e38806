import RpcGateway.Config.Environment
import RpcGateway.Config.FileFormat
import RpcGateway.Config.Reading

/-!
# Loading the configuration

The configuration of a gateway comes from a file, if one is named, with the settings of the
environment on top of it.  What neither sets is as in the standard configuration, and the result is
validated.

**Finding the file.**  The file that is named counts.  If there is none, it is tried again with an
extension of its format behind the name.
-/

namespace RpcGateway

/-- Why a configuration cannot be loaded. -/
inductive ConfigFault
  /-- The file is missing or malformed. -/
  | unreadable (reason : String)
  /-- No format of configuration files has this extension. -/
  | unsupportedFormat (what : String)
  | mismatch (reason : String)
  /-- The configuration is not valid. -/
  | invalid (fault : SetupFault)
  deriving DecidableEq, Repr

def ConfigFault.message : ConfigFault → String
  | .unreadable reason => "Config parsing error: " ++ reason
  | .unsupportedFormat what => "Unsupported format: " ++ what
  | .mismatch reason => "Serialization error: " ++ reason
  | .invalid fault => "Invalid configuration: " ++ fault.message

/-- The format of the file at a path, as its extension tells. -/
def FileFormat.ofPath (path : String) : Except ConfigFault FileFormat :=
  match FilePath.extension? path with
  | none => .error (.unsupportedFormat "No file extension found")
  | some extension =>
      match ofExtension? extension with
      | none => .error (.unsupportedFormat extension)
      | some format => .ok format

/-- The paths at which a file is looked for, in order. -/
def FileFormat.candidates (format : FileFormat) (path : String) : List String :=
  let base := FilePath.normal path
  (if FilePath.canBeFile path then [base] else []) ++
    format.extensions.map fun extension => base ++ "." ++ extension

/-- The paths at which the configuration file may be, if one is named. -/
def FileFormat.candidatesOf (path : Option String) : List String :=
  match path.map fun p => (FileFormat.ofPath p).map fun format => format.candidates p with
  | some (.ok paths) => paths
  | _ => []

abbrev Files := List (String × List UInt8)

structure ConfigSources where
  /-- The path of the file, if one is named. -/
  path : Option String := none
  files : Files := []
  environment : List (String × String) := []

namespace ConfigSources

/-- The first file at one of some paths. -/
def find? (files : Files) (candidates : List String) : Option (String × List UInt8) :=
  candidates.findSome? fun path => files.find? fun file => FilePath.normal file.1 == path

def fileSettings (files : Files) (path : String) : Except ConfigFault Setting.Entries :=
  match FileFormat.ofPath path with
  | .error fault => .error fault
  | .ok format =>
      match find? files (format.candidates path) with
      | none => .error (.unreadable ("configuration file \"" ++ path ++ "\" not found"))
      | some (name, bytes) => (format.read (FilePath.normal name) bytes).mapError .unreadable

def settings (s : ConfigSources) : Except ConfigFault Setting.Entries :=
  let file : Except ConfigFault Setting.Entries :=
    match s.path with
    | none => .ok []
    | some path => fileSettings s.files path
  file.map fun es =>
    Setting.layered (Setting.layered [] es) (Environment.settings s.environment)

end ConfigSources

namespace GatewayConfig

def validated (c : GatewayConfig) : Except ConfigFault GatewayConfig :=
  match c.validate with
  | .ok _ => .ok c
  | .error fault => .error (.invalid fault)

def load (sources : ConfigSources) : Except ConfigFault GatewayConfig := do
  let es ← sources.settings
  let c ← (ofSettings es).mapError .mismatch
  c.validated

end GatewayConfig
end RpcGateway
