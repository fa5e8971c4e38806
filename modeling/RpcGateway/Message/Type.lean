import RpcGateway.Schema.Basic

/-!
# Message types

The messages that pass through the gateway, with the tag, the name and the kind of every field.

**Services.**  The audit service has `TimeRange`, `Event` and the requests and responses of its two
methods; the assets service has one request and one response, both without fields.

**Exercise types.**  `Item`, `Filter`, `Word` and `Picky` belong to no service.  They exercise what
the services do not need: nesting without end, lists of scalars, fields that must be present, and a
message that refuses to be written.
-/

namespace RpcGateway

inductive MessageType
  | timeRange
  | event
  | getEventsRequest
  | getEventsResponse
  | getEventRequest
  | getEventResponse
  | fetchRequest
  | fetchResponse
  | item
  | filter
  | word
  | picky
  deriving DecidableEq, Repr

structure MessageField where
  /-- The number that stands for it in the binary form. -/
  tag : Nat
  /-- Its name, as binary faults and listings show it. -/
  name : String
  key : String
  kind : Schema.Kind MessageType
  /-- How many values it holds. -/
  arity : Schema.Arity := .single

namespace MessageType

open Schema

def all : List MessageType :=
  [timeRange, event, getEventsRequest, getEventsResponse, getEventRequest, getEventResponse,
    fetchRequest, fetchResponse, item, filter, word, picky]

def title : MessageType → String
  | timeRange => "TimeRange"
  | event => "Event"
  | getEventsRequest => "GetEventsRequest"
  | getEventsResponse => "GetEventsResponse"
  | getEventRequest => "GetEventRequest"
  | getEventResponse => "GetEventResponse"
  | fetchRequest => "FetchRequest"
  | fetchResponse => "FetchResponse"
  | item => "Item"
  | filter => "Filter"
  | word => "Word"
  | picky => "Picky"

def ofTitle? (s : String) : Option MessageType :=
  all.find? (·.title == s)

def home : MessageType → String
  | fetchRequest | fetchResponse => "tether_gateway::services::assets"
  | item | filter | word | picky => "oracle_driver::types"
  | _ => "tether_gateway::services::audit"

def fullName (t : MessageType) : String :=
  t.home ++ "::" ++ t.title

/-- The fields of a message type, in the order of their tags. -/
def fields : MessageType → List MessageField
  | timeRange =>
      [⟨1, "start_time", "startTime", .int64, .single⟩,
        ⟨2, "end_time", "endTime", .int64, .single⟩]
  | event =>
      [⟨1, "id", "id", .int64, .single⟩,
        ⟨2, "occurred_at", "occurredAt", .text, .single⟩,
        ⟨3, "username", "username", .text, .single⟩,
        ⟨4, "service_name", "serviceName", .text, .single⟩,
        ⟨5, "method_name", "methodName", .text, .single⟩,
        ⟨6, "status_code", "statusCode", int32, .single⟩]
  | getEventsRequest =>
      [⟨1, "range", "range", .record timeRange, .optional⟩,
        ⟨2, "since_seconds", "sinceSeconds", .int64, .single⟩,
        ⟨3, "page_token", "pageToken", .text, .single⟩,
        ⟨4, "limit", "limit", .int64, .single⟩]
  | getEventsResponse =>
      [⟨1, "events", "events", .record event, .list⟩,
        ⟨2, "next_page_token", "nextPageToken", .text, .single⟩]
  | getEventRequest => [⟨1, "event_id", "eventId", .int64, .single⟩]
  | getEventResponse => [⟨1, "event", "event", .record event, .optional⟩]
  | fetchRequest => []
  | fetchResponse => []
  | item =>
      [⟨1, "item_id", "itemId", .text, .single⟩,
        ⟨2, "limit", "limit", uint32, .single⟩,
        ⟨3, "filter", "filter", .record filter, .optional⟩,
        ⟨4, "tags", "tags", .text, .list⟩,
        ⟨5, "active", "active", .flag, .single⟩,
        ⟨6, "total", "total", .int64, .single⟩,
        ⟨7, "scores", "scores", uint32, .list⟩]
  | filter =>
      [⟨1, "user_name", "userName", .text, .single⟩,
        ⟨2, "nested", "nested", .record filter, .optional⟩]
  | word =>
      [⟨1, "text", "text", .text, .single⟩,
        ⟨2, "count", "count", int32, .single⟩]
  | picky => [⟨1, "text", "text", .text, .single⟩]

/-- Whether a field may be missing in JSON. -/
def mayOmit : MessageType → Bool
  | word => false
  | _ => true

/-- What a field holds when nothing was said about it. -/
def zeroDatum : Arity → Kind MessageType → Datum
  | .optional, _ => .absent
  | .list, _ => .list []
  | .single, .text => .text ""
  | .single, .flag => .flag false
  | .single, .any => .json .null
  | .single, .record _ => .absent
  | .single, _ => .whole 0

def schema : Schema MessageType where
  title := title
  members t := t.fields.map fun f =>
    ⟨f.key, f.kind, f.arity, if t.mayOmit then some (zeroDatum f.arity f.kind) else none⟩

/-- The field of a tag, with its position. -/
def field? (t : MessageType) (tag : Nat) : Option (Nat × MessageField) :=
  (t.fields.zipIdx.find? fun p => p.1.tag == tag).map fun p => (p.2, p.1)

/-- No two fields of a message share a tag. -/
theorem tags_nodup (t : MessageType) : (t.fields.map (·.tag)).Nodup := by
  cases t <;> decide

/-- No two fields of a message share a key. -/
theorem keys_nodup (t : MessageType) : (t.fields.map (·.key)).Nodup := by
  cases t <;> decide

end MessageType
end RpcGateway
