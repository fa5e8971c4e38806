import RpcGateway.Proofs.Dispatch.Implementation
import RpcGateway.Service.Client

/-!
# The payload of a remote call

A message of a service type crosses a channel as it is, in either direction.

**Receivers.**  What stands at the other end of a channel reads the payload as a message of the type
that it expects, and then does whatever it does.  It is compared with one that is handed the message
itself: no call can tell the two apart.

**Values.**  `Message.IsValue` asks for less than `2 ^ 64` bytes, since lengths are written, and
memory is addressed, in 64 bits.

**What is not written.**  Zero values leave no bytes, so what comes back has to have them again; a
message that is present or in a list leaves its key and its length, even if nothing is in it.
-/

namespace RpcGateway

variable {ω : Type}

/-- What answers a call, given the message that was read of its payload. -/
abbrev Receiver (ω : Type) := RemoteCall → Except Wire.Fault Message → Activity ω RemoteOutcome

namespace Receiver

/-- The channel to a receiver that expects messages of a type. -/
def reading (receive : Receiver ω) (t : MessageType) : Channel ω := fun call =>
  receive call (Message.ofWire t call.payload)

/-- The channel to a receiver that is handed a message, whatever the payload. -/
def handed (receive : Receiver ω) (m : Message) : Channel ω := fun call =>
  receive call (.ok m)

end Receiver

/-- A message is the same at both ends of a channel. -/
structure Message.Crosses (t : MessageType) (m : Message) : Prop where
  read : ofWire t m.toWire = .ok m
  /-- No other value of the type has the same bytes. -/
  unique : ∀ other : Message, other.IsValue t → other.toWire = m.toWire → other = m
  /-- An invoker that sends it reaches a receiver that is handed it. -/
  invoked : ∀ {ω : Type} (receive : Receiver ω) (response : MessageType) (c : Context),
    (Invoker.remote (receive.reading t) response).invoke c m =
      (Invoker.remote (receive.handed m) response).invoke c m
  /-- So does a client. -/
  called : ∀ {ω : Type} (receive : Receiver ω) (method : ServiceMethod) (options : CallOptions),
    method.call (receive.reading t) m options = method.call (receive.handed m) m options
  /-- An invoker reads it of the response that it was sent as. -/
  returned : Invoker.readResponse t (.ok m.toWire) = .ok m
  /-- So does a client. -/
  replied : ∀ {ω : Type} (method : ServiceMethod) (request : Message) (options : CallOptions)
    (metadata : CallMetadata), method.response = t →
      method.call (fun _ => (.done ⟨.ok m.toWire, metadata⟩ : Activity ω RemoteOutcome))
        request options = .done (.ok ⟨m, metadata⟩)

/-- Every value of every message type of a service crosses a channel as it is. -/
theorem Message.IsValue.crosses
    {t : MessageType} {m : Message}
    (h : m.IsValue t) (hservice : t.isService = true) :
    m.Crosses t := by
  have hread := h.ofWire_toWire hservice
  have hresponse : Invoker.readResponse t (.ok m.toWire) = .ok m := by
    simp only [Invoker.readResponse, hread]
  refine ⟨hread, ?_, ?_, ?_, hresponse, ?_⟩
  · intro other hother hbytes
    have hsame := hother.ofWire_toWire hservice
    rw [hbytes, hread] at hsame
    exact (Except.ok.inj hsame).symm
  · intro ω receive response c
    simp only [Invoker.remote, Receiver.reading, Receiver.handed, hread]
  · intro ω receive method options
    simp only [ServiceMethod.call, Receiver.reading, Receiver.handed, hread]
  · rintro ω method request options metadata rfl
    simp only [ServiceMethod.call, Activity.bind, hresponse]

/-- A request with a range of which nothing was said, and a time before now. -/
def bareRange : Message :=
  ⟨.getEventsRequest, [.record [.whole 0, .whole 0], .whole (-1), .text "", .whole 0]⟩

/-- A response with an event of which nothing was said, and one with negative numbers only. -/
def bareEvents : Message :=
  ⟨.getEventsResponse,
    [.list [.record [.whole 0, .text "", .text "", .text "", .text "", .whole 0],
      .record [.whole Decimal.minInt64, .text "", .text "", .text "", .text "", .whole (-1)]],
    .text ""]⟩

theorem bareRange_isValue :
    bareRange.IsValue .getEventsRequest := by
  have hrange : MessageType.Fits 1 .timeRange [.whole 0, .whole 0] :=
    .cons (.single (.int64 (by decide) (by decide))) <|
      .cons (.single (.int64 (by decide) (by decide))) .nil
  refine ⟨rfl, ⟨2, ?_⟩, by decide⟩
  exact .cons (.present (.record hrange)) <|
    .cons (.single (.int64 (by decide) (by decide))) <| .cons (.single (.text _)) <|
    .cons (.single (.int64 (by decide) (by decide))) .nil

theorem bareEvents_isValue :
    bareEvents.IsValue .getEventsResponse := by
  have hevent : ∀ id code : Int, Decimal.minInt64 ≤ id → id ≤ 0 → -1 ≤ code → code ≤ 0 →
      MessageType.Fits 1 .event
        [.whole id, .text "", .text "", .text "", .text "", .whole code] := by
    intro id code hid hid' hcode hcode'
    have hgreatest : (0 : Int) ≤ Decimal.maxInt64 := by decide
    exact .cons (.single (.int64 hid (Int.le_trans hid' hgreatest))) <| .cons (.single (.text _)) <|
      .cons (.single (.text _)) <| .cons (.single (.text _)) <| .cons (.single (.text _)) <|
      .cons (.single (.integer (by omega) (by omega))) .nil
  refine ⟨rfl, ⟨2, .cons (.list ?_) (.cons (.single (.text _)) .nil)⟩, by decide⟩
  simp only [List.forall_mem_cons]
  refine ⟨.record (hevent 0 0 ?_ ?_ ?_ ?_), .record (hevent _ _ (Int.le_refl _) ?_ ?_ ?_), by simp⟩ <;>
    decide

/-- The range and the events are there at the other end, though they leave no bytes of their own. -/
theorem Message.IsValue.crosses_bare :
    bareRange.toWire = [10, 0, 16, 255, 255, 255, 255, 255, 255, 255, 255, 255, 1] ∧
      bareRange.Crosses .getEventsRequest ∧ bareEvents.Crosses .getEventsResponse :=
  ⟨rfl, bareRange_isValue.crosses rfl, bareEvents_isValue.crosses rfl⟩

end RpcGateway
