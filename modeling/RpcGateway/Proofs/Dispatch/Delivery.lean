import RpcGateway.Proofs.Call.Sink
import RpcGateway.Proofs.Transport.Arrival

/-!
# What becomes of recorded metadata

While a call is dispatched, interceptors, handlers and channels record metadata.  All of it is
delivered once, in the shape of the mode in which the method is reached, whatever the reply is.

**In process.**  The header has the recorded header values of every key and behind them the recorded
trailer values.  There is no trailer.

**Remote.**  Header and trailer are delivered as they were recorded.  What a channel brought back is
recorded before its result is looked at, so an error and a response that cannot be read lose
nothing.
-/

namespace RpcGateway

/-- The values of a key, in any spelling, among pairs. -/
def Metadata.valuesAmong (key : String) (ps : List (String × String)) : List String :=
  Keyed.valuesIn (Ascii.lower key) (ps.map folded)

theorem Metadata.getAll_ofList
    (ps : List (String × String)) (key : String) :
    (ofList ps).getAll key = valuesAmong key ps := by
  rw [ofList, getAll_appendAll, getAll_empty, List.nil_append, valuesAmong]

open CallMetadata Metadata in
/-- What a mode delivers of recorded metadata. -/
inductive Delivered (recorded : List CallMetadata) : InvocationMode → CallMetadata → Prop
  | inProcess {header : Metadata}
      (hheader : ∀ key, header.getAll key =
        valuesAmong key (headerPairs recorded) ++ valuesAmong key (trailerPairs recorded)) :
      Delivered recorded .inProcess ⟨header, .empty⟩
  | remote :
      Delivered recorded .remote
        ⟨.ofList (headerPairs recorded), .ofList (trailerPairs recorded)⟩

namespace InvocationMode

/-- A mode gives the join of recorded metadata the shape in which it is delivered. -/
theorem delivered_shape
    (mode : InvocationMode) (recorded : List CallMetadata) :
    Delivered recorded mode (mode.shape (.joined recorded)) := by
  rw [CallMetadata.joined_eq_ofList]
  cases mode with
  | inProcess =>
      refine .inProcess fun key => ?_
      rw [Metadata.extend_ofList, Metadata.getAll_appendAll, Metadata.getAll_ofList]
      rfl
  | remote => exact .remote

/-- Metadata that has its shape keeps it. -/
theorem shape_shape
    (mode : InvocationMode) (m : CallMetadata) :
    mode.shape (mode.shape m) = mode.shape m := by
  cases mode <;> rfl

end InvocationMode

/-- A remote call records the metadata of its outcome behind what its channel does. -/
theorem Invoker.changes_remote
    {ω : Type} {channel : Channel ω} {response : MessageType} {c : Context} {request : Message}
    {bounds : Bounds} {r s : Run ω} {outcome : RemoteOutcome}
    (h : (channel ⟨c.method.fullMethod, request.toWire, c.incoming, c.remaining r.now⟩).run
      bounds r = (.finished outcome, s)) :
    ((Invoker.remote channel response).invoke c request).changes bounds r =
      (channel ⟨c.method.fullMethod, request.toWire, c.incoming, c.remaining r.now⟩).changes
        bounds r ++ [some outcome.metadata] :=
  Activity.changes_bind_of_finished h fun outcome =>
    .record outcome.metadata (.done (readResponse response outcome.result))

namespace Dispatcher

variable {ω : Type} {d : Dispatcher ω} {c : Context} {entry : MethodEntry ω} {bounds : Bounds}
  {request : Message} {r : Run ω}

/-- What the interceptors and the invoker of a method make of a request. -/
def passage (d : Dispatcher ω) (c : Context) (entry : MethodEntry ω) (request : Message) :
    Activity ω Reply :=
  Interceptor.chain c (fun m => .note (.invoked c.method.fullMethod) (entry.invoker.invoke c m))
    d.interceptors request

theorem shape_of_found
    (hfound : d.registry.find? c.method.fullMethod = some entry) (m : CallMetadata) :
    d.shape c.method.fullMethod m = entry.invoker.mode.shape m := by
  rw [shape, hfound]

theorem dispatch_of_found
    (hfound : d.registry.find? c.method.fullMethod = some entry) :
    d.dispatch c request =
      (d.passage c entry request).bind fun reply =>
        (d.outgoing c).bind fun m => .done ⟨reply, m⟩ := by
  rw [dispatch, hfound]
  rfl

/-- A dispatched call delivers what was recorded and not taken, in the shape of its mode, with
whatever reply it comes to; a call that was cut short leaves the same to be handed over.  Nothing
stays behind. -/
theorem recorded_delivered
    {earlier : List CallMetadata}
    (hfound : d.registry.find? c.method.fullMethod = some entry)
    (hsink : r.outgoing = .joined earlier) (request : Message) (bounds : Bounds) :
    (∃ metadata,
      Delivered (CallMetadata.pending earlier ((d.passage c entry request).changes bounds r))
        entry.invoker.mode metadata ∧
      (∀ reply s, (d.passage c entry request).run bounds r = (.finished reply, s) →
        (d.dispatch c request).run bounds r =
          (.finished ⟨reply, metadata⟩, { s with outgoing := .empty })) ∧
      (((d.passage c entry request).run bounds r).1.value? = none →
        ((d.dispatch c request).run bounds r).1.value? = none) ∧
      (d.outgoing c).run bounds ((d.passage c entry request).run bounds r).2 =
        (.finished metadata,
          { ((d.passage c entry request).run bounds r).2 with outgoing := .empty })) ∧
    (∀ channel response, entry.invoker = .remote channel response → ∀ m s outcome t,
      (channel ⟨c.method.fullMethod, m.toWire, c.incoming, c.remaining s.now⟩).run bounds s =
          (.finished outcome, t) →
        (entry.invoker.invoke c m).changes bounds s =
          (channel ⟨c.method.fullMethod, m.toWire, c.incoming, c.remaining s.now⟩).changes
            bounds s ++ [some outcome.metadata] ∧
        ((entry.invoker.invoke c m).run bounds s).1 =
          .finished (Invoker.readResponse response outcome.result)) ∧
    ∀ m, InvocationMode.inProcess.shape (InvocationMode.inProcess.shape m) =
      InvocationMode.inProcess.shape m := by
  have hleft : ((d.passage c entry request).run bounds r).2.outgoing =
      .joined (CallMetadata.pending earlier ((d.passage c entry request).changes bounds r)) :=
    Activity.outgoing_run hsink bounds (d.passage c entry request)
  refine ⟨⟨_, InvocationMode.delivered_shape entry.invoker.mode _, ?_, ?_, ?_⟩, ?_, ?_⟩
  · intro reply s hrun
    rw [hrun] at hleft
    rw [dispatch_of_found hfound, Activity.run_bind_of_finished hrun, outgoing_bind_run,
      shape_of_found hfound, hleft]
  · intro hcut
    rw [dispatch_of_found hfound]
    exact Activity.value?_bind_of_cut hcut _
  · rw [← hleft, ← shape_of_found hfound]
    rfl
  · rintro channel response hremote m s outcome t hchannel
    rw [hremote]
    exact ⟨Invoker.changes_remote hchannel, congrArg Prod.fst (Invoker.remote_run hchannel)⟩
  · exact InvocationMode.shape_shape .inProcess

/-- An interceptor that adds to the header, around a channel that brings back metadata with what is
not a message. -/
def garbled : Dispatcher Unit where
  registry := ⟨[⟨⟨"/a.B/C", "POST /"⟩, .remote (fun _ => .done
    ⟨.ok [255], ⟨.ofList [("X-A", "2")], .ofList [("x-b", "3")]⟩⟩) .item⟩]⟩
  interceptors := [⟨"tag", fun _ m => .record (CallMetadata.empty.withHeader "x-a" "1")
    (.done (.proceed m .done))⟩]

theorem recorded_delivered_garbled :
    ∃ reply s,
      (garbled.dispatch ⟨"req", ⟨"/a.B/C", "POST /"⟩, .empty, [], none⟩ (.zero .item)).run {}
          (Run.start 0 ()) =
        (.finished ⟨reply, ⟨⟨[("x-a", ["1", "2"])]⟩, ⟨[("x-b", ["3"])]⟩⟩⟩, s) ∧
      reply.isOk = false ∧
      s.outgoing = .empty := by
  obtain ⟨⟨metadata, hdelivered, hfinished, -⟩, -⟩ :=
    recorded_delivered (d := garbled) (c := ⟨"req", ⟨"/a.B/C", "POST /"⟩, .empty, [], none⟩) rfl
      (show (Run.start 0 ()).outgoing = .joined [] from rfl) (.zero .item) {}
  have hmetadata : metadata = ⟨⟨[("x-a", ["1", "2"])]⟩, ⟨[("x-b", ["3"])]⟩⟩ := by
    cases hdelivered
    rfl
  rw [← hmetadata]
  exact ⟨_, _, hfinished _ _ rfl, rfl, rfl⟩

end Dispatcher
end RpcGateway
