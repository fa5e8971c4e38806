import RpcGateway.Fault
import RpcGateway.Http.Verb

/-!
# Route templates

A template says which paths a route serves and which parts of a path are parameters.

**Grammar.**  A template is `/`, or `/` followed by segments that are separated by `/`.  A segment
is a literal, a capture `{name}` (also written `{name=*}`), or, in the last place only, a capture
`{name=**}` of everything that is left.  Behind the last segment there may be a colon and a custom
verb.

**Faults.**  `compile` reports the first of its checks that fails: the verb, the leading slash, the
custom verb, then the segments from left to right.
-/

namespace RpcGateway

inductive Segment
  | literal (text : String)
  | capture (name : String)
  /-- Binds all segments that are left. -/
  | captureRest (name : String)
  deriving DecidableEq, Repr

namespace Segment

/-- The name of the parameter that a segment binds. -/
def name? : Segment → Option String
  | literal _ => none
  | capture name => some name
  | captureRest name => some name

def text : Segment → String
  | literal s => s
  | capture name => "\x7b" ++ name ++ "\x7d"
  | captureRest name => "\x7b" ++ name ++ "=**\x7d"

end Segment

structure RouteTemplate where
  verb : Verb
  /-- Its segments; none for the root. -/
  segments : List Segment
  /-- The custom verb behind the last segment. -/
  customVerb : Option String
  source : String
  deriving DecidableEq, Repr

namespace RouteTemplate

/-- The canonical text of segments and a custom verb. -/
def render (segments : List Segment) (customVerb : Option String) : String :=
  let path := if segments.isEmpty then "/" else String.join (segments.map fun s => "/" ++ s.text)
  match customVerb with
  | none => path
  | some v => path ++ ":" ++ v

def canonical (t : RouteTemplate) : String :=
  render t.segments t.customVerb

def display (t : RouteTemplate) : String :=
  t.verb.text ++ " " ++ t.canonical

/-- The names of the parameters, in order. -/
def paramNames (t : RouteTemplate) : List String :=
  t.segments.filterMap Segment.name?

/-!
## Compiling
-/

def isCustomVerbChar (c : Char) : Bool :=
  c.isAlphanum || c == '_' || c == '-' || c == '.'

/-- What stands before and behind the last colon outside braces, if there is one; `depth` counts the
braces that are open. -/
def splitColon (depth : Nat) : List Char → Option (List Char × List Char)
  | [] => none
  | c :: cs =>
      let next := if c = '\x7b' then depth + 1 else if c = '\x7d' then depth - 1 else depth
      match splitColon next cs with
      | some (before, behind) => some (c :: before, behind)
      | none => if c = ':' ∧ depth = 0 then some ([], cs) else none

/-- Splits the custom verb off the last segment. -/
def splitCustomVerb (segments : List (List Char)) :
    Except String (List (List Char) × Option String) :=
  match segments.getLast? with
  | none => .ok (segments, none)
  | some last =>
      match splitColon 0 last with
      | none => .ok (segments, none)
      | some (before, verb) =>
          if verb.isEmpty then .error "custom verb cannot be empty"
          else if verb.all isCustomVerbChar then
            .ok (segments.dropLast ++ [before], some (String.ofList verb))
          else .error s!"invalid custom verb '{String.ofList verb}'"

/-- Whether a text is an identifier. -/
def isIdentifier : List Char → Bool
  | [] => false
  | c :: cs => (c.isAlpha || c == '_') && cs.all fun c => c.isAlphanum || c == '_'

/-- Whether a text is a dotted list of identifiers. -/
def isParamName (name : List Char) : Bool :=
  (name.splitOn '.').all isIdentifier

/-- Whether a character is a brace. -/
def isBrace (c : Char) : Bool :=
  c == '\x7b' || c == '\x7d'

/-- The capture that stands between braces. -/
def compileCapture (inner : List Char) (isLast : Bool) : Except String Segment :=
  let name := inner.takeWhile (· != '=')
  let text := String.ofList name
  if !isParamName name then .error s!"invalid parameter name '{text}'"
  else match inner.dropWhile (· != '=') with
    | [] => .ok (.capture text)
    | _ :: pattern =>
        if pattern = ['*'] then .ok (.capture text)
        else if pattern = ['*', '*'] then
          if isLast then .ok (.captureRest text)
          else .error s!"'{text}=**' is only allowed in the last segment"
        else .error s!"unsupported capture pattern '{String.ofList pattern}'"

def compileSegment (segment : List Char) (isLast : Bool) : Except String Segment :=
  match segment with
  | [] => .error "empty path segment"
  | c :: cs =>
      if c = '\x7b' then
        match cs.getLast? with
        | some '\x7d' =>
            if cs.dropLast.any isBrace then .error "unbalanced braces"
            else compileCapture cs.dropLast isLast
        | _ => .error "unbalanced '\x7b'"
      else if (c :: cs).any isBrace then .error "unbalanced braces"
      else if c :: cs = ['*'] ∨ c :: cs = ['*', '*'] then
        .error "anonymous wildcards are not supported, name the capture"
      else .ok (.literal (String.ofList (c :: cs)))

/-- The segments of a template; `seen` holds the names that are taken. -/
def compileSegments (seen : List String) : List (List Char) → Except String (List Segment)
  | [] => .ok []
  | raw :: rest =>
      match compileSegment raw rest.isEmpty with
      | .error reason => .error reason
      | .ok segment =>
          match segment.name? with
          | some name =>
              if seen.contains name then .error s!"duplicate parameter '{name}'"
              else (compileSegments (name :: seen) rest).map (segment :: ·)
          | none => (compileSegments seen rest).map (segment :: ·)

/-- The segments and the custom verb of what follows the leading slash. -/
def compileBody (body : List Char) : Except String (List Segment × Option String) :=
  match splitCustomVerb (body.splitOn '/') with
  | .error reason => .error reason
  | .ok (raw, customVerb) =>
      if raw = [[]] then
        if customVerb.isSome then .error "custom verb requires a preceding path segment"
        else .ok ([], none)
      else (compileSegments [] raw).map fun segments => (segments, customVerb)

/-- Compiles a template for a verb, or says why it is malformed. -/
def compileParts (template verb : String) : Except String RouteTemplate :=
  match Verb.ofText? verb with
  | none => .error s!"unsupported verb '{verb}'"
  | some v =>
      match template.toList with
      | '/' :: body =>
          (compileBody body).map fun r => ⟨v, r.1, r.2, template⟩
      | _ => .error "template must start with '/'"

def compile (template verb : String) : Except SetupFault RouteTemplate :=
  match compileParts template verb with
  | .ok t => .ok t
  | .error reason => .error (.invalidTemplate template reason)

end RouteTemplate
end RpcGateway
