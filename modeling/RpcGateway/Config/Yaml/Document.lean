import RpcGateway.Config.Yaml.Node
import RpcGateway.Config.Yaml.Token

/-!
# YAML documents

The tokens of a text are read as the one document that the text may hold.

**Nodes.**  A name and a tag may stand in front of a node.  A node of which only they are written is
an empty plain scalar; where they are missing too, the place decides whether nothing is a value.

**Names.**  A name stands for the latest node that it was given to, as far as that node has been
read to its end.

**Tags.**  Of the directives in front of a document only the last one counts.
-/

namespace RpcGateway
namespace Yaml

/-- What remains to be read, and what has been named. -/
structure Reader where
  tokens : List Token
  /-- The handle that has a prefix of its own, and the prefix. -/
  start : Option (List Char × List Char) := none
  /-- The names that were given, the latest first, each with the number of its node. -/
  names : List (String × Nat) := []
  /-- The nodes that were read to their end, by their numbers. -/
  nodes : List (Nat × Node) := []

/-- The name and the tag in front of a node. -/
structure Properties where
  /-- The number of the node, if it has a name. -/
  number : Option Nat := none
  /-- The tag, with its prefix in the place of its handle. -/
  tag : Option Tag := none

/-- The prefix of the types of the language. -/
def languageStart : List Char :=
  "tag:yaml.org,2002:".toList

/-- What a scalar without quotes or with them means. -/
def Properties.scalar (p : Properties) (plain : Bool) (cs : List Char) : Node :=
  if !plain then .text cs
  else
    match p.tag with
    | none => .ofPlain cs
    | some tag => if tag.handle = languageStart then .ofTyped tag.suffix cs else .text cs

/-- Whether a node is written even where no content follows. -/
def Properties.isPresent (p : Properties) : Bool :=
  p.number.isSome || p.tag.isSome

namespace Reader

def goTo (r : Reader) (tokens : List Token) : Reader :=
  { r with tokens := tokens }

/-- Whether a token of a class follows. -/
def sees (r : Reader) (p : Token → Bool) : Bool :=
  r.tokens.head?.any p

/-- Puts the prefix of its handle into a tag. -/
def resolve? (r : Reader) (t : Tag) : Option Tag :=
  match r.start.filter fun s => s.1 == t.handle with
  | some (_, start) => some { t with handle := start }
  | none =>
      if t.handle = ['!', '!'] then some { t with handle := languageStart }
      else if isClosedHandle t.handle then none
      else some t

/-- Gives a name to the node that begins here. -/
def name (r : Reader) (name : String) : Nat × Reader :=
  (r.names.length, { r with names := (name, r.names.length) :: r.names })

/-- Reads what stands in front of a node, in either order. -/
def properties? (r : Reader) : Option (Properties × Reader) :=
  match r.tokens with
  | .anchor name :: .tag t :: rest =>
      (r.resolve? t).map fun t =>
        let (number, r) := (r.goTo rest).name name
        (⟨some number, some t⟩, r)
  | .tag t :: .anchor name :: rest =>
      (r.resolve? t).map fun t =>
        let (number, r) := (r.goTo rest).name name
        (⟨some number, some t⟩, r)
  | .anchor name :: rest =>
      let (number, r) := (r.goTo rest).name name
      some (⟨some number, none⟩, r)
  | .tag t :: rest => (r.resolve? t).map fun t => (⟨none, some t⟩, r.goTo rest)
  | _ => some ({}, r)

/-- Keeps a node that was read to its end under its number. -/
def keep (r : Reader) (p : Properties) (v : Node) : Reader :=
  match p.number with
  | some n => { r with nodes := (n, v) :: r.nodes }
  | none => r

def named? (r : Reader) (name : String) : Option Node :=
  (r.names.lookup name).map fun n => (r.nodes.lookup n).getD .unfit

/-- The node of which only a name or a tag is written. -/
def missing? (r : Reader) (p : Properties) : Option (Node × Reader) :=
  if p.isPresent then some (p.scalar true [], r) else none

end Reader

/-- Where nodes and lists are written. -/
inductive Place
  /-- Behind a dash, or at the root: lists and tables may be written line by line. -/
  | item
  /-- In a table that is written line by line: a list may have its dashes right below its key. -/
  | entry
  /-- Within brackets or braces. -/
  | flow
  deriving DecidableEq, Repr

/-- The tokens in front of which an item of a list line by line is nothing. -/
def endsItem : Token → Bool
  | .dash => true
  | .blockEnd => true
  | _ => false

/-- The tokens in front of which a key or a value in a table line by line is nothing. -/
def endsEntry : Token → Bool
  | .key => true
  | .value => true
  | .blockEnd => true
  | _ => false

/-- The tokens in front of which an item of a list right below its key is nothing. -/
def endsLooseItem (t : Token) : Bool :=
  endsItem t || endsEntry t

/-- The tokens in front of which a value within brackets or braces is nothing. -/
def endsFlowValue (close : Token) (t : Token) : Bool :=
  t == .comma || t == close

/-- The tokens in front of which a key within brackets or braces is nothing. -/
def endsFlowKey (close : Token) (t : Token) : Bool :=
  t == .value || endsFlowValue close t

/-- Whether a token begins an entry of a table. -/
def beginsEntry : Token → Bool
  | .key => true
  | .value => true
  | _ => false

def listOf? (items? : Option (List Node × Reader)) : Option (Node × Reader) :=
  items?.map fun (vs, r) => (.list vs, r)

/-- The table of keys and values that were read. -/
def tableOf? (nodes? : Option (List Node × Reader)) : Option (Node × Reader) :=
  match nodes? with
  | none => none
  | some (vs, r) => (Node.table? vs).map fun v => (v, r)

mutual

def node? (place : Place) : Nat → Reader → Option (Node × Reader)
  | 0, _ => none
  | fuel + 1, r =>
      match r.tokens with
      | .alias name :: rest => (r.named? name).map fun v => (v, r.goTo rest)
      | _ =>
          match r.properties? with
          | none => none
          | some (p, r) => (content? place fuel p r).map fun (v, r) => (v, r.keep p v)

/-- Reads a node behind its name and its tag. -/
def content? (place : Place) : Nat → Properties → Reader → Option (Node × Reader)
  | 0, _, _ => none
  | fuel + 1, p, r =>
      match r.tokens with
      | .scalar plain cs :: rest => some (p.scalar plain cs, r.goTo rest)
      | .flowListStart :: rest => listOf? (flowItems? fuel (r.goTo rest))
      | .flowTableStart :: rest => tableOf? (flowEntries? fuel (r.goTo rest))
      | .listStart :: rest =>
          if place = .flow then r.missing? p else listOf? (items? fuel (r.goTo rest))
      | .tableStart :: rest =>
          if place = .flow then r.missing? p else tableOf? (entries? fuel (r.goTo rest))
      | .dash :: _ => if place = .entry then listOf? (looseItems? fuel r) else r.missing? p
      | _ => r.missing? p

/-- Reads a node; in front of some tokens it is nothing. -/
def nodeOrNothing? (place : Place) (ends : Token → Bool) : Nat → Reader → Option (Node × Reader)
  | 0, _ => none
  | fuel + 1, r => if r.sees ends then some (.nothing, r) else node? place fuel r

/-- Reads a node behind a mark; without the mark it is nothing. -/
def marked? (mark : Token) (place : Place) (ends : Token → Bool) :
    Nat → Reader → Option (Node × Reader)
  | 0, _ => none
  | fuel + 1, r =>
      if r.sees (· == mark) then nodeOrNothing? place ends fuel (r.goTo r.tokens.tail)
      else some (.nothing, r)

/-- Reads the items of a list line by line, and its end. -/
def items? : Nat → Reader → Option (List Node × Reader)
  | 0, _ => none
  | fuel + 1, r =>
      match r.tokens with
      | .blockEnd :: rest => some ([], r.goTo rest)
      | .dash :: rest =>
          match nodeOrNothing? .item endsItem fuel (r.goTo rest) with
          | none => none
          | some (v, r) => (items? fuel r).map fun (vs, r) => (v :: vs, r)
      | _ => none

/-- Reads the items of a list right below its key. -/
def looseItems? : Nat → Reader → Option (List Node × Reader)
  | 0, _ => none
  | fuel + 1, r =>
      match r.tokens with
      | .dash :: rest =>
          match nodeOrNothing? .item endsLooseItem fuel (r.goTo rest) with
          | none => none
          | some (v, r) => (looseItems? fuel r).map fun (vs, r) => (v :: vs, r)
      | _ => some ([], r)

/-- Reads a key and its value, one of which may be missing. -/
def entry? (place : Place) (keyEnds valueEnds : Token → Bool) :
    Nat → Reader → Option (Node × Node × Reader)
  | 0, _ => none
  | fuel + 1, r =>
      match marked? .key place keyEnds fuel r with
      | none => none
      | some (k, r) =>
          (marked? .value place valueEnds fuel r).map fun (v, r) => (k, v, r)

/-- Reads the keys and values of a table line by line, and its end. -/
def entries? : Nat → Reader → Option (List Node × Reader)
  | 0, _ => none
  | fuel + 1, r =>
      if r.sees (· == .blockEnd) then some ([], r.goTo r.tokens.tail)
      else if !r.sees beginsEntry then none
      else
        match entry? .entry endsEntry endsEntry fuel r with
        | none => none
        | some (k, v, r) => (entries? fuel r).map fun (vs, r) => (k :: v :: vs, r)

/-- Reads the table of one key and its value between brackets, behind a question mark; a question
mark without a key takes the place of the token behind it. -/
def pair? : Nat → Reader → Option (Node × Reader)
  | 0, _ => none
  | fuel + 1, r =>
      let k? :=
        if r.sees (endsFlowKey .flowListEnd) then some (.nothing, r.goTo r.tokens.tail)
        else node? .flow fuel r
      match k? with
      | none => none
      | some (k, r) =>
          tableOf? ((marked? .value .flow (endsFlowValue .flowListEnd) fuel r).map
            fun (v, r) => ([k, v], r))

/-- Reads an item of a list between brackets. -/
def flowItem? : Nat → Reader → Option (Node × Reader)
  | 0, _ => none
  | fuel + 1, r =>
      match r.tokens with
      | .key :: rest => pair? fuel (r.goTo rest)
      | _ => node? .flow fuel r

/-- Reads the items of a list between brackets, and its end. -/
def flowItems? : Nat → Reader → Option (List Node × Reader)
  | 0, _ => none
  | fuel + 1, r =>
      if r.sees (· == .flowListEnd) then some ([], r.goTo r.tokens.tail)
      else
        match flowItem? fuel r with
        | none => none
        | some (v, r) =>
            match r.tokens with
            | .flowListEnd :: rest => some ([v], r.goTo rest)
            | .comma :: rest => (flowItems? fuel (r.goTo rest)).map fun (vs, r) => (v :: vs, r)
            | _ => none

/-- Reads a key and its value between braces; a node alone is a key. -/
def flowEntry? : Nat → Reader → Option (Node × Node × Reader)
  | 0, _ => none
  | fuel + 1, r =>
      if r.sees beginsEntry then
        entry? .flow (endsFlowKey .flowTableEnd) (endsFlowValue .flowTableEnd) fuel r
      else (node? .flow fuel r).map fun (k, r) => (k, .nothing, r)

/-- Reads the keys and values of a table between braces, and its end. -/
def flowEntries? : Nat → Reader → Option (List Node × Reader)
  | 0, _ => none
  | fuel + 1, r =>
      if r.sees (· == .flowTableEnd) then some ([], r.goTo r.tokens.tail)
      else
        match flowEntry? fuel r with
        | none => none
        | some (k, v, r) =>
            match r.tokens with
            | .flowTableEnd :: rest => some ([k, v], r.goTo rest)
            | .comma :: rest =>
                (flowEntries? fuel (r.goTo rest)).map fun (vs, r) => (k :: v :: vs, r)
            | _ => none

end

/-- The tokens in front of which a document is nothing. -/
def endsDocument : Token → Bool
  | .directive _ => true
  | .documentStart => true
  | .documentEnd => true
  | _ => false

/-- Reads the directives in front of a document; the version is stated once at most. -/
def directives? : Bool → Reader → List Token → Option Reader
  | versioned, r, .directive .version :: rest =>
      if versioned then none else directives? true { r with start := none } rest
  | versioned, r, .directive (.tag handle start) :: rest =>
      directives? versioned { r with start := some (handle, start) } rest
  | _, r, rest => some (r.goTo rest)

def root? (r : Reader) : Option (Node × Reader) :=
  node? .item (8 * r.tokens.length + 8) r

/-- Reads a document behind its marker, where it may be nothing. -/
def markedRoot? (r : Reader) : Option (Node × Reader) :=
  if r.tokens.isEmpty || r.sees endsDocument then some (.nothing, r) else root? r

def onlyRoot? (tokens : List Token) : Option (Node × Reader) :=
  match directives? false ⟨tokens, none, [], []⟩ tokens with
  | none => none
  | some r =>
      match r.tokens with
      | .documentStart :: rest => markedRoot? (r.goTo rest)
      | rest => if rest.length = tokens.length then root? r else none

def isDocumentEnd (t : Token) : Bool :=
  t == .documentEnd

/-- The settings of the only document of a text; a text without one has no settings. -/
def document? (cs : List Char) : Option Setting :=
  match Token.ofText? cs with
  | none => none
  | some tokens =>
      match tokens.dropWhile isDocumentEnd with
      | [] => some Setting.emptyTable
      | tokens =>
          match onlyRoot? tokens with
          | none => none
          | some (v, r) => if r.tokens.all isDocumentEnd then v.setting? else none

end Yaml
end RpcGateway
