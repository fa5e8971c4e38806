import RpcGateway.Config.Toml.Node
import RpcGateway.Config.Toml.Scalar

/-!
# TOML documents

A TOML document is a sequence of lines: settings, headers of tables, comments.

**Values.**  Besides scalars there are lists, which may run over several lines, and inline tables,
which may not.  Both nest to a limited depth.
-/

namespace RpcGateway
namespace Toml

/-- The rest behind the comment at the front of a text, if there is one. -/
def skipComment : List Char → List Char
  | '#' :: rest => rest.dropWhile isPlain
  | cs => cs

/-- A text without blanks, line ends and comments at its front. -/
def skipFill : Nat → List Char → List Char
  | 0, cs => cs
  | fuel + 1, cs =>
      let cs := skipComment (skipSpaces cs)
      match newline? cs with
      | some rest => skipFill fuel rest
      | none => cs

/-- A text without blanks, line ends and comments at its front. -/
def skipAll (cs : List Char) : List Char :=
  skipFill cs.length cs

/-- The greatest depth of lists and inline tables. -/
def maxDepth : Nat := 79

/-- Adds a setting at a key to the entries of a table. -/
def enter (es : Node.Entries) (path : List String) (v : Setting) : Option Node.Entries :=
  match path.getLast? with
  | none => none
  | some key =>
      Node.along true path.dropLast (Node.addValue path.dropLast key v) es

mutual

/-- Reads a value; the depth bounds how far lists and tables nest. -/
def value : Nat → Nat → Reader Setting
  | 0, _, _ => none
  | fuel + 1, depth, cs =>
      match cs with
      | '[' :: rest =>
          if depth = 0 then none
          else (arrayItems fuel (depth - 1) (skipAll rest)).map fun r => (.array none r.1, r.2)
      | '\x7b' :: rest =>
          if depth = 0 then none
          else
            match skipSpaces rest with
            | '\x7d' :: rest => some (Setting.emptyTable, rest)
            | rest =>
                (inlineEntries fuel (depth - 1) [] rest).map fun r =>
                  (.table none (Node.settings r.1), r.2)
      | '"' :: _ => (string cs).map fun r => (Setting.ofScalar (.text (String.ofList r.1)), r.2)
      | '\'' :: _ => (string cs).map fun r => (Setting.ofScalar (.text (String.ofList r.1)), r.2)
      | _ => (bareScalar cs).map fun r => (Setting.ofScalar r.1, r.2)

/-- Reads the items of a list and its closing bracket. -/
def arrayItems : Nat → Nat → Reader (List Setting)
  | 0, _, _ => none
  | _ + 1, _, ']' :: rest => some ([], rest)
  | fuel + 1, depth, cs =>
      match value fuel depth cs with
      | none => none
      | some (v, rest) =>
          match skipAll rest with
          | ']' :: rest => some ([v], rest)
          | ',' :: rest =>
              (arrayItems fuel depth (skipAll rest)).map fun r => (v :: r.1, r.2)
          | _ => none

/-- Reads the settings of an inline table and its closing brace. -/
def inlineEntries : Nat → Nat → Node.Entries → Reader Node.Entries
  | 0, _, _, _ => none
  | fuel + 1, depth, es, cs =>
      match key cs with
      | some (path, '=' :: rest) =>
          match value fuel depth (skipSpaces rest) with
          | none => none
          | some (v, rest) =>
              match enter es path v, skipSpaces rest with
              | some es, '\x7d' :: rest => some (es, rest)
              | some es, ',' :: rest => inlineEntries fuel depth es rest
              | _, _ => none
      | _ => none

end

structure Draft where
  root : Node.Entries := []
  /-- The path of the header that is in force. -/
  header : List String := []

/-- Adds a setting below the header that is in force. -/
def Draft.set (d : Draft) (path : List String) (v : Setting) : Option Draft :=
  (Node.along false d.header (fun _ es => enter es path v) d.root).map fun root =>
    { d with root := root }

/-- Puts a header in force. -/
def Draft.head (d : Draft) (path : List String) (edit : String → Node.Edit) : Option Draft :=
  match path.getLast? with
  | none => none
  | some key =>
      (Node.along false path.dropLast (edit key) d.root).map fun root => ⟨root, path⟩

/-- Reads a line up to its comment. -/
def line (d : Draft) : List Char → Option (Draft × List Char)
  | '[' :: '[' :: rest =>
      match key rest with
      | some (path, ']' :: ']' :: rest) => (d.head path Node.addToTables).map fun d => (d, rest)
      | _ => none
  | '[' :: rest =>
      match key rest with
      | some (path, ']' :: rest) => (d.head path Node.addTable).map fun d => (d, rest)
      | _ => none
  | cs =>
      match key cs with
      | some (path, '=' :: rest) =>
          match value (rest.length + 1) maxDepth (skipSpaces rest) with
          | some (v, rest) => (d.set path v).map fun d => (d, rest)
          | none => none
      | _ => none

/-- Reads lines up to the end of the text. -/
def lines : Nat → Draft → List Char → Option Draft
  | 0, _, _ => none
  | fuel + 1, d, cs =>
      match skipAll cs with
      | [] => some d
      | cs =>
          match line d cs with
          | none => none
          | some (d, rest) =>
              match skipComment (skipSpaces rest) with
              | [] => some d
              | rest =>
                  match newline? rest with
                  | some rest => lines fuel d rest
                  | none => none

/-- A text behind the byte order mark at its front, if there is one. -/
def withoutMark : List Char → List Char
  | '\ufeff' :: cs => cs
  | cs => cs

/-- The settings of a document, if the text is one. -/
def settings? (cs : List Char) : Option Setting.Entries :=
  (lines (cs.length + 1) {} (withoutMark cs)).map fun d => Node.settings d.root

end Toml
end RpcGateway
