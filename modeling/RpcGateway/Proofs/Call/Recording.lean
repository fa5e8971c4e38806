import RpcGateway.Proofs.Call.Sequence

/-!
# Recorded runs

Events can be recorded beside the world of a call without any part of the call noticing: what is
beside the world cannot be read or changed by an activity that was made for the world alone.

**Beside.**  `Activity.beside` is an activity in a world with something beside it, and `Run.beside`
the run that it is carried out on.  `run_beside` says that they come to the same.

**Records.**  `Records` compares what is done on a run with and without a record beside it: the
same, and some events are left behind those that were there.  Activities in sequence leave the
events of both.
-/

namespace RpcGateway

variable {ω α β σ ε : Type}

/-- A change of a world with something beside it. -/
def besideChange (σ : Type) (change : ω → ω) : ω × σ → ω × σ :=
  fun w => (change w.1, w.2)

theorem foldl_besideChange
    (watchers : List (ω → ω)) (world : ω) (x : σ) :
    (watchers.map (besideChange σ)).foldl (fun w f => f w) (world, x) =
      (watchers.foldl (fun w f => f w) world, x) := by
  induction watchers generalizing world with
  | nil => rfl
  | cons change rest ih => exact ih (change world)

namespace Run

/-- A run in a world with something beside it. -/
def beside (r : Run ω) (x : σ) : Run (ω × σ) :=
  ⟨r.now, r.outgoing, r.journal, r.cancelled, r.watchers.map (besideChange σ), (r.world, x)⟩

@[simp] theorem beside_now (r : Run ω) (x : σ) : (r.beside x).now = r.now := rfl

@[simp] theorem beside_cancelled (r : Run ω) (x : σ) : (r.beside x).cancelled = r.cancelled := rfl

theorem cancel_beside (r : Run ω) (x : σ) :
    (r.beside x).cancel = r.cancel.beside x := by
  simp [cancel, beside, foldl_besideChange]

theorem tell_beside (r : Run ω) (time : Nat) (x : σ) :
    (r.beside x).tell time = (r.tell time).beside x := by
  by_cases h : (r.cancelled || decide (r.now < time)) = true
  · have hbeside : ((r.beside x).cancelled || decide ((r.beside x).now < time)) = true := h
    simp only [tell, if_pos h, if_pos hbeside]
    rfl
  · have hbeside : ¬ ((r.beside x).cancelled || decide ((r.beside x).now < time)) = true := h
    simp only [tell, if_neg h, if_neg hbeside]
    exact cancel_beside { r with now := time, cancelled := true } x

end Run

namespace Activity

/-- An activity in a world with something beside it. -/
def beside (σ : Type) : Activity ω α → Activity (ω × σ) α
  | done value => done value
  | wait span heeds next => wait span heeds fun cancelled => (next cancelled).beside σ
  | clock next => clock fun now => (next now).beside σ
  | record added next => record added (next.beside σ)
  | take next => take fun metadata => (next metadata).beside σ
  | act change next => act (besideChange σ change) fun world => (next world.1).beside σ
  | watch change next => watch (besideChange σ change) (next.beside σ)
  | note mark next => note mark (next.beside σ)

/-- An activity does not notice what is beside its world. -/
theorem run_beside
    (bounds : Bounds) (a : Activity ω α) (r : Run ω) (x : σ) :
    (a.beside σ).run bounds (r.beside x) =
      ((a.run bounds r).1, (a.run bounds r).2.beside x) := by
  induction a generalizing r with
  | done value => rfl
  | wait span heeds next ih =>
      simp only [beside, run, Run.beside_now]
      cases Wake.next? bounds r.now span heeds with
      | none => rfl
      | some due =>
          obtain ⟨t, wake⟩ := due
          cases wake with
          | cancelled =>
              simp only [Run.tell_beside]
              exact ih true _
          | lapsed => exact ih false { r with now := t }
          | departed => rfl
          | expired => rfl
  | clock next ih => exact ih _ r
  | record added next ih => exact ih { r with outgoing := r.outgoing.merge added }
  | take next ih => exact ih _ { r with outgoing := .empty }
  | act change next ih => exact ih _ { r with world := change r.world }
  | watch change next ih =>
      have hwatchers :
          { r.beside x with watchers := (r.beside x).watchers ++ [besideChange σ change] } =
            Run.beside { r with watchers := r.watchers ++ [change] } x := by
        simp [Run.beside]
      simp only [beside, run, hwatchers]
      exact ih { r with watchers := r.watchers ++ [change] }
  | note mark next ih => exact ih (r.mark mark)

/-- Records an event and goes on. -/
def recording (event : ε) (a : Activity (ω × List ε) α) : Activity (ω × List ε) α :=
  act (fun w => (w.1, w.2 ++ [event])) fun _ => a

end Activity

/-- What is done on a run beside which events are recorded is what is done on the run alone, and it
leaves events behind those that were there. -/
def Records (f : Run (ω × List ε) → α × Run (ω × List ε)) (g : Run ω → α × Run ω) (r : Run ω)
    (events : List ε) : Prop :=
  ∀ before, f (r.beside before) = ((g r).1, (g r).2.beside (before ++ events))

namespace Activity

variable {bounds : Bounds} {a : Activity (ω × List ε) α} {b : Activity ω α} {r s : Run ω}
  {events : List ε}

theorem records_beside
    (bounds : Bounds) (b : Activity ω α) (r : Run ω) :
    Records ((b.beside (List ε)).run bounds) (b.run bounds) r [] := by
  intro before
  rw [run_beside, List.append_nil]

theorem records_recording
    (h : Records (a.run bounds) (b.run bounds) r events) (event : ε) :
    Records ((recording event a).run bounds) (b.run bounds) r (event :: events) := by
  intro before
  rw [List.append_cons]
  exact h (before ++ [event])

theorem records_note
    {mark : Mark}
    (h : Records (a.run bounds) (b.run bounds) (r.mark mark) events) :
    Records ((note mark a).run bounds) ((note mark b).run bounds) r events :=
  h

/-- A first activity that finishes and a second one record the events of both. -/
theorem records_bind_of_finished
    {f : α → Activity (ω × List ε) β} {g : α → Activity ω β} {value : α} {later : List ε}
    (h : Records (a.run bounds) (b.run bounds) r events)
    (hb : b.run bounds r = (.finished value, s))
    (hf : Records ((f value).run bounds) ((g value).run bounds) s later) :
    Records ((a.bind f).run bounds) ((b.bind g).run bounds) r (events ++ later) := by
  intro before
  have ha := h before
  rw [hb] at ha
  rw [run_bind_of_finished ha, run_bind_of_finished hb, hf, List.append_assoc]

/-- A first activity that is cut short leaves its own events only. -/
theorem records_bind_of_cut
    (h : Records (a.run bounds) (b.run bounds) r events)
    (hb : (b.run bounds r).1.value? = none)
    (f : α → Activity (ω × List ε) β) (g : α → Activity ω β) :
    Records ((a.bind f).run bounds) ((b.bind g).run bounds) r events := by
  intro before
  rw [run_bind, run_bind, h]
  generalize b.run bounds r = done at hb
  obtain ⟨ending, s⟩ := done
  cases ending with
  | finished value => cases hb
  | departed => rfl
  | expired => rfl
  | stalled => rfl

/-- What follows an activity that records nothing leaves all the events. -/
theorem records_beside_bind
    {f : α → Activity (ω × List ε) β} {g : α → Activity ω β} {value : α}
    (hb : b.run bounds r = (.finished value, s))
    (hf : Records ((f value).run bounds) ((g value).run bounds) s events) :
    Records (((b.beside (List ε)).bind f).run bounds) ((b.bind g).run bounds) r events :=
  records_bind_of_finished (records_beside bounds b r) hb hf

/-- What follows an activity and records nothing leaves the events of the activity. -/
theorem records_bind_beside
    (h : Records (a.run bounds) (b.run bounds) r events) (g : α → Activity ω β) :
    Records ((a.bind fun value => (g value).beside (List ε)).run bounds) ((b.bind g).run bounds) r
      events := by
  rcases finished_or_cut bounds b r with ⟨value, s, hb⟩ | hcut
  · have hboth := records_bind_of_finished (f := fun value => (g value).beside (List ε)) h hb
      (records_beside bounds (g value) s)
    rw [List.append_nil] at hboth
    exact hboth
  · exact records_bind_of_cut h hcut _ _

end Activity
end RpcGateway
