import RpcGateway.Config.FilePath
import RpcGateway.Config.Toml.Document
import RpcGateway.Config.Yaml.Document
import RpcGateway.Json.Parser
import RpcGateway.Text.Utf8

/-!
# Formats of configuration files

A configuration file is written in TOML, YAML or JSON; its extension tells which.

**Text.**  A file is UTF-8.  A file that is not is refused.

**Root.**  A file is a table.  A file that is something else is refused.
-/

namespace RpcGateway

inductive FileFormat
  | toml
  | yaml
  | json
  deriving DecidableEq, Repr

namespace FileFormat

def all : List FileFormat :=
  [.toml, .yaml, .json]

def extensions : FileFormat → List String
  | .toml => ["toml"]
  | .yaml => ["yaml", "yml"]
  | .json => ["json"]

/-- The format of files with an extension, in any letter case. -/
def ofExtension? (extension : String) : Option FileFormat :=
  all.find? fun f => f.extensions.contains (Ascii.lower extension)

/-- The tree of settings that a text is; a text that is none is refused with a reason. -/
def parse (format : FileFormat) (text : List Char) : Except String Setting :=
  match format with
  | .toml =>
      match Toml.settings? text with
      | some es => .ok (.table none es)
      | none => .error "TOML parse error"
  | .yaml =>
      match Yaml.document? text with
      | some s => .ok s
      | none => .error "YAML parse error"
  | .json =>
      match Json.parse (Utf8.encode text) with
      | .ok v => .ok (Setting.ofJson v)
      | .error f => .error f.message

/-- The settings of a tree from a file, which has to be a table. -/
def rootEntries (file : String) : Setting → Except String Setting.Entries
  | .table _ es => .ok (Setting.entriesComingFrom file es)
  | s => .error s!"invalid type: {s.found}, expected a map in {file}"

def read (format : FileFormat) (file : String) (bytes : List UInt8) :
    Except String Setting.Entries :=
  match Utf8.text? bytes with
  | none => .error s!"invalid UTF-8 in {file}"
  | some text =>
      match (format.parse text.toList).bind (rootEntries file) with
      | .ok es => .ok es
      | .error reason => .error s!"{reason} in {file}"

end FileFormat
end RpcGateway
