import RpcGateway.Codec.Basic

/-!
# Binding path parameters

A path parameter is written into the value tree of a request as a string, at the place that its
name says: the parts of a dotted name lead through nested objects, and each part is the
lowerCamelCase form of a field name.

**Order.**  Parameters are bound in the order of their names, so the result does not hang on the
order in which they come.  A parameter that leads through something that is no object is refused.
-/

namespace RpcGateway

abbrev PathParams := List (String × String)

namespace PathBinding

/-- The lowerCamelCase form of a name; `raised` says whether a capital is due and `begun` whether
anything was written. -/
def camelFrom (begun raised : Bool) : List Char → List Char
  | [] => []
  | c :: cs =>
      if c = '_' then camelFrom begun begun cs
      else if raised then c.toUpper :: camelFrom true false cs
      else c :: camelFrom true false cs

/-- The lowerCamelCase form of a field name. -/
def lowerCamel (name : List Char) : String :=
  String.ofList (camelFrom false false name)

/-- The keys that lead to the place of a parameter. -/
def keys (name : String) : List String :=
  (name.toList.splitOn '.').map lowerCamel

def members? : Json.Value → Option Json.Members
  | .object ms => some ms
  | _ => none

/-- Writes a string at the end of a path of keys, if the path leads through objects. -/
def bindAt (value : String) : List String → Json.Value → Option Json.Value
  | [], _ => some (.string value)
  | key :: rest, v =>
      match members? v with
      | none => none
      | some ms =>
          if rest.isEmpty then some (.object (ms.put key (.string value)))
          else
            match bindAt value rest ((ms.get? key).getD (.object [])) with
            | none => none
            | some inner => some (.object (ms.put key inner))

def bind (v : Json.Value) (param : String × String) : Except CodecFault Json.Value :=
  match bindAt param.2 (keys param.1) v with
  | some w => .ok w
  | none => .error (.shape s!"cannot bind path parameter '{param.1}' into a non-object")

/-- Parameters in the order of their names. -/
def sorted (params : PathParams) : PathParams :=
  params.mergeSort fun p q => decide (p.1 ≤ q.1)

def bindAll (v : Json.Value) (params : PathParams) : Except CodecFault Json.Value :=
  (sorted params).foldlM bind v

end PathBinding
end RpcGateway
