import EdgeSentinel.Daemon.Samples

/-! What the answer to a reset is worth. Between the two events of a reset that is reported
as done only samples and requests to shut down get into the queue, so a machine whose fault
was latched comes out of it healthy, or shut down. -/
namespace EdgeSentinel

open Ipc (literal)

/- What others may publish while the command server is in the middle of a reset. -/
def Event.Meantime (event : Event) : Prop :=
  event.kind = .sensorSample ∨ event = .shutdownRequested

theorem Event.Meantime.ne_reset {event : Event} (h : event.Meantime) :
    event ≠ .resetRequested := by
  rintro rfl
  rcases h with kind | same <;> contradiction

theorem MotorStateMachine.final_meantime {m : MotorStateMachine} (testing : m.state = .selfTest)
    {events : List Event} (meantime : ∀ event ∈ events, event.Meantime) :
    (Mealy.final handle m events).state =
      if .shutdownRequested ∈ events then .safeShutdown else .selfTest := by
  induction events generalizing m with
  | nil => exact testing
  | cons event rest ih =>
    have moved := handle_state (idle_of_state testing (by decide)) event
    rw [testing] at moved
    have later : ∀ event ∈ rest, event.Meantime := fun other member =>
      meantime other (List.mem_cons_of_mem _ member)
    rcases meantime event List.mem_cons_self with kind | rfl
    · have other : .shutdownRequested ≠ event := by
        rintro rfl
        contradiction
      rw [kind] at moved
      rw [Mealy.final_cons, ih moved later]
      simp [other]
    · rw [Mealy.final_cons, final_down moved, if_pos List.mem_cons_self]
      exact moved

/-- A reset and a self test with nothing else in between take a latched fault away. -/
theorem MotorStateMachine.final_reset {m : MotorStateMachine} (latched : m.state = .faultLatched)
    {events : List Event} (meantime : ∀ event ∈ events, event.Meantime) :
    (Mealy.final handle m (.resetRequested :: (events ++ [.selfTestPassed]))).state =
      if .shutdownRequested ∈ events then .safeShutdown else .healthy := by
  have testing : (m.handle .resetRequested).1.state = .selfTest := by
    rw [handle_state (idle_of_state latched (by decide)), latched]
    rfl
  have between := final_meantime testing meantime
  rw [Mealy.final_cons, Mealy.final_concat]
  split at between
  · rename_i shut
    rw [if_pos shut]
    have down := final_down between [.selfTestPassed]
    rw [Mealy.final_cons, Mealy.final_nil] at down
    rw [down, between]
  · rename_i running
    rw [if_neg running, handle_state (idle_of_state between (by decide)), between]
    rfl

/- The reset is in the queue's history, and behind it only what others may publish. -/
def Requested (reset : Nat) (pushed : List (Nat × Event)) : Prop :=
  ∃ before between, pushed = before ++ (reset, .resetRequested) :: between ∧
    ∀ entry ∈ between, entry.2.Meantime

/- The self test has followed. -/
def Passed (reset test : Nat) (pushed : List (Nat × Event)) : Prop :=
  ∃ before between later,
    pushed = before ++ (reset, .resetRequested) :: (between ++ (test, .selfTestPassed) :: later) ∧
      ∀ entry ∈ between, entry.2.Meantime

section Pushes

variable {reset test index : Nat} {event : Event} {pushed : List (Nat × Event)}

theorem requested_now : Requested reset (pushed ++ [(reset, .resetRequested)]) :=
  ⟨pushed, [], rfl, by simp⟩

theorem Requested.meantime (h : Requested reset pushed) (other : event.Meantime) :
    Requested reset (pushed ++ [(index, event)]) := by
  obtain ⟨before, between, rfl, meantime⟩ := h
  refine ⟨before, between ++ [(index, event)], by simp, ?_⟩
  intro entry member
  rcases List.mem_append.mp member with old | new
  · exact meantime entry old
  · rw [List.mem_singleton.mp new]
    exact other

theorem Requested.passes (h : Requested reset pushed) :
    Passed reset test (pushed ++ [(test, .selfTestPassed)]) := by
  obtain ⟨before, between, rfl, meantime⟩ := h
  exact ⟨before, between, [], by simp, meantime⟩

theorem Passed.later (h : Passed reset test pushed) (more : List (Nat × Event)) :
    Passed reset test (pushed ++ more) := by
  obtain ⟨before, between, later, rfl, meantime⟩ := h
  exact ⟨before, between, later ++ more, by simp, meantime⟩

end Pushes

namespace Daemon

/- Where a reset stands, by the place of the server's thread. -/
def Recovers (pushed : List (Nat × Event)) (published : List Event) : ServerStep → Prop
  | .awaitingReset reset => published[reset]? = some .resetRequested ∧
    (reset ∈ pushed.map Prod.fst → Requested reset pushed)
  | .awaitingSelfTest reset test =>
    published[reset]? = some .resetRequested ∧ published[test]? = some .selfTestPassed ∧
      (reset ∈ pushed.map Prod.fst →
        (test ∉ pushed.map Prod.fst ∧ Requested reset pushed) ∨ Passed reset test pushed)
  | .responding [reset, test] response =>
    response = literal "ok=reset_requested" → Passed reset test pushed
  | _ => True

section Recovers

variable {pushed : List (Nat × Event)} {published : List Event} {server : ServerStep}

theorem Recovers.grow (h : Recovers pushed published server) (more : List Event) :
    Recovers pushed (published ++ more) server := by
  have kept : ∀ {i : Nat} {event : Event}, published[i]? = some event →
      (published ++ more)[i]? = some event := by
    intro i event here
    exact (List.getElem?_append_left (List.getElem?_eq_some_iff.mp here).1).trans here
  match server, h with
  | .awaitingReset _, ⟨carried, requested⟩ => exact ⟨kept carried, requested⟩
  | .awaitingSelfTest _ _, ⟨carried, tested, passed⟩ => exact ⟨kept carried, kept tested, passed⟩
  | .responding [_, _] _, confirmed => exact confirmed
  | .responding [] _, _ | .responding [_] _, _ | .responding (_ :: _ :: _ :: _) _, _
  | .absent, _ | .checking, _ | .accepting, _ | .building _, _ | .awaitingShutdown _, _
  | .exited, _ => trivial

/-- An event gets into the queue: the one that the server waits for, or one of the others. -/
theorem Recovers.push (h : Recovers pushed published server) {index : Nat} {event : Event}
    (carried : published[index]? = some event)
    (author : event.Meantime ∨ server.awaited = some index) :
    Recovers (pushed ++ [(index, event)]) published server := by
  have old : ∀ {i : Nat}, i ≠ index → i ∈ (pushed ++ [(index, event)]).map Prod.fst →
      i ∈ pushed.map Prod.fst := by
    intro i other member
    simpa [other] using member
  match server, h with
  | .awaitingReset reset, ⟨request, requested⟩ =>
    refine ⟨request, ?_⟩
    by_cases own : reset = index
    · subst own
      cases request.symm.trans carried
      exact fun _ => requested_now
    · rcases author with meantime | awaited
      · exact fun member => (requested (old own member)).meantime meantime
      · exact absurd (Option.some.inj awaited) own
  | .awaitingSelfTest reset test, ⟨request, tested, passed⟩ =>
    refine ⟨request, tested, ?_⟩
    intro member
    by_cases own : test = index
    · subst own
      cases tested.symm.trans carried
      have other : reset ≠ test := by
        rintro rfl
        cases request.symm.trans tested
      rcases passed (old other member) with ⟨-, requested⟩ | done
      · exact .inr requested.passes
      · exact .inr (done.later _)
    · rcases author with meantime | awaited
      · have other : reset ≠ index := by
          rintro rfl
          cases request.symm.trans carried
          exact meantime.ne_reset rfl
        rcases passed (old other member) with ⟨absent, requested⟩ | done
        · exact .inl ⟨fun there => absent (old own there), requested.meantime meantime⟩
        · exact .inr (done.later _)
      · exact absurd (Option.some.inj awaited) own
  | .responding [_, _] _, confirmed => exact fun ok => (confirmed ok).later _
  | .responding [] _, _ | .responding [_] _, _ | .responding (_ :: _ :: _ :: _) _, _
  | .absent, _ | .checking, _ | .accepting, _ | .building _, _ | .awaitingShutdown _, _
  | .exited, _ => trivial

end Recovers

/-- Where the reset in hand stands. Once the runtime has been started, the main thread
publishes nothing but requests to shut down. -/
structure Recovering (notes : List Note) (d : Daemon) : Prop where
  main : d.main ≠ .starting → ∀ i, d.awaits .main = some i →
    d.published[i]? = some .shutdownRequested
  server : Recovers (pushedCalls notes) d.published d.server

section Step

variable {layout : Layout} {fromChars : List UInt8 → Ipc.FromChars} {format : Double → List UInt8}
  {d d' : Daemon} {note : Note} {notes : List Note} {label : DaemonLabel}

theorem recovering_initial : Recovering [] initial := ⟨fun running => absurd rfl running, trivial⟩

/- What the main thread waits for is what it did, or a request to shut down. -/
theorem leads_main (ordered : Ordered d) (moved : Leads d d') (running : d'.main ≠ .starting)
    {i : Nat} (awaited : d'.awaits .main = some i) :
    (d.main ≠ .starting ∧ d.awaits .main = some i) ∨
      (i = d.runtime.calls.length ∧ d'.published = d.published ++ [.shutdownRequested]) := by
  cases moved with
  | starts stage under taken => exact absurd stage running
  | watches stage => exact .inl ⟨running, awaited⟩
  | requests stage signalled =>
    cases awaited
    exact .inr ⟨rfl, List.map_append⟩
  | joinsServer stage gone =>
    have unstopped := ordered.unstopped (by rw [stage]; rfl)
    simp [awaits, unstopped] at awaited
  | @stops r stage under taken =>
    have after : ({ d with runtime := r } : Daemon).awaits .main =
        r.stop.bind StopCall.awaited := awaits_stopping stage
    cases EdgeRuntime.stopStep_cases taken with
    | unstarted absent => exact .inl ⟨running, awaited⟩
    | requests started unstopped =>
      rw [after] at awaited
      cases awaited
      exact .inr ⟨rfl, List.map_append⟩
    | stops current halts =>
      cases halts with
      | again early => exact .inl ⟨running, awaited⟩
      | _ early =>
        rw [after] at awaited
        contradiction
  | _ => contradiction

theorem step_main (ordered : Ordered d)
    (moved : d.step layout fromChars format label = some (d', note)) (running : d'.main ≠ .starting)
    {i : Nat} (awaited : d'.awaits .main = some i) :
    (d.main ≠ .starting ∧ d.awaits .main = some i) ∨
      (i = d.runtime.calls.length ∧ d'.published = d.published ++ [.shutdownRequested]) := by
  cases step_steps moved with
  | leads taken => exact leads_main ordered taken running awaited
  | serverFails stage =>
    have unstopped := ordered.unstopped (by rw [stage]; rfl)
    simp [awaits, unstopped] at awaited
  | builds stage built => cases built <;> exact .inl ⟨running, awaited⟩
  | @senses r taken =>
    have same : ({ d with sensor := d.reading.1, runtime := r } : Daemon).awaits .main =
        d.awaits .main := by simp only [awaits, taken.start, taken.calls.2]
    exact .inl ⟨running, same ▸ awaited⟩
  | monitors taken => cases taken <;> exact .inl ⟨running, awaited⟩
  | _ => exact .inl ⟨running, awaited⟩

/-- Whoever gets an event into the queue while the command server is there. -/
theorem Recovering.author (h : Recovering notes d) (regular : Regular layout notes d)
    (running : d.main ≠ .starting) {index : Nat} {call : PublishCall}
    (here : d.runtime.calls[index]? = some call) (moving : call.step.isReturned = false) :
    call.event.Meantime ∨ d.server.awaited = some index := by
  obtain ⟨caller, awaited⟩ := regular.waits.heard index call here moving
  cases caller with
  | main =>
    have request := h.main running index awaited
    rw [published_here here] at request
    exact .inl (.inr (Option.some.inj request))
  | sensor =>
    obtain ⟨call', there, kind⟩ := regular.waits.known .sensor index awaited
    cases here.symm.trans there
    exact .inl (.inl (kind.mpr rfl))
  | server => exact .inr awaited

theorem Recovering.main_step (h : Recovering notes d) (ordered : Ordered d)
    (moved : d.step layout fromChars format label = some (d', note)) :
    d'.main ≠ .starting → ∀ i, d'.awaits .main = some i →
      d'.published[i]? = some .shutdownRequested := by
  intro running i awaited
  rcases step_main ordered moved running awaited with ⟨before, waiting⟩ | ⟨rfl, events⟩
  · obtain ⟨more, events, -⟩ := (step_turns ordered moved).published
    have here := h.main before i waiting
    rw [events, List.getElem?_append_left (List.getElem?_eq_some_iff.mp here).1]
    exact here
  · rw [events, ← published_length, List.getElem?_concat_length]

/- A step that gets no event into the queue and does not move the server's thread. -/
theorem Recovering.stays (h : Recovering notes d) (quiet : note.pushedCall = none)
    {more : List Event} (events : d'.published = d.published ++ more)
    (server : d'.server = d.server) :
    Recovers (pushedCalls (notes ++ [note])) d'.published d'.server := by
  rw [pushedCalls_concat, quiet, Option.toList_none, List.append_nil, events, server]
  exact h.server.grow more

/- A call that is only now made has pushed nothing. -/
theorem Regular.unpushed (regular : Regular layout notes d) :
    d.runtime.calls.length ∉ (pushedCalls notes).map Prod.fst := by
  intro member
  obtain ⟨entry, there, same⟩ := List.mem_map.mp member
  have inside := regular.pushed_lt there
  omega

theorem published_publish {event : Event} :
    (d.publish event).published = d.published ++ [event] := List.map_append

theorem getElem?_published {event : Event} :
    (d.published ++ [event])[d.runtime.calls.length]? = some event := by
  rw [← published_length, List.getElem?_concat_length]

theorem Recovering.builds (regular : Regular layout notes d) {parsed : Ipc.ParseResult}
    (built : Builds parsed d d') : Recovers (pushedCalls notes) d'.published d'.server := by
  cases built with
  | resets reset =>
    refine ⟨?_, fun member => absurd member regular.unpushed⟩
    change (d.publish .resetRequested).published[d.runtime.calls.length]? = _
    rw [published_publish, getElem?_published]
  | _ => trivial

/-- The reset has its answer, and the self test is published. -/
theorem Recovering.proceeds (h : Recovering notes d) (regular : Regular layout notes d)
    {reset : Nat} (stage : d.server = .awaitingReset reset) :
    Recovers (pushedCalls notes) (d.publish .selfTestPassed).published
      (.awaitingSelfTest reset d.runtime.calls.length) := by
  have server := h.server
  rw [stage] at server
  obtain ⟨request, requested⟩ := server
  rw [published_publish]
  refine ⟨?_, getElem?_published, ?_⟩
  · rw [List.getElem?_append_left (List.getElem?_eq_some_iff.mp request).1]
    exact request
  · intro member
    exact .inl ⟨regular.unpushed, requested member⟩

/-- `publish` has said `published`, so the event is in the queue's history. -/
theorem Regular.result_pushed (regular : Regular layout notes d) {index : Nat}
    (returned : d.runtime.result index = some .published) :
    index ∈ (pushedCalls notes).map Prod.fst := by
  obtain ⟨event, here⟩ := Pipeline.result_eq.mp returned
  have known := (regular.sound.recorded.known index event).mpr ⟨_, here, rfl, rfl⟩
  exact List.mem_map.mpr ⟨_, known, rfl⟩

theorem Recovering.reports (h : Recovering notes d) (regular : Regular layout notes d)
    {reset test : Nat} {first second : PublishResult}
    (stage : d.server = .awaitingSelfTest reset test)
    (earlier : d.runtime.result reset = some first)
    (returned : d.runtime.result test = some second) :
    Recovers (pushedCalls notes) d.published
      (.responding [reset, test] (delivery "ok=reset_requested" [first, second])) := by
  intro ok
  have both : first = .published ∧ second = .published := by
    unfold delivery at ok
    split at ok
    · rename_i all
      simpa using all
    · exact absurd ok (by decide)
  rw [both.1] at earlier
  rw [both.2] at returned
  have server := h.server
  rw [stage] at server
  rcases server.2.2 (regular.result_pushed earlier) with ⟨absent, -⟩ | passed
  · exact absurd (regular.result_pushed returned) absent
  · exact passed

theorem Recovering.advances (h : Recovering notes d) (regular : Regular layout notes d)
    {index : Nat} {call : PublishCall} {step : PublishStep}
    (here : d.runtime.calls[index]? = some call) (moving : call.step.isReturned = false)
    (calls : d'.runtime.calls = d.runtime.calls.set index { call with step })
    (push : ∀ i event, note.pushedCall = some (i, event) →
      i = index ∧ event = call.event ∧ call.step.landed = false)
    (server : d'.server = d.server) :
    Recovers (pushedCalls (notes ++ [note])) d'.published d'.server := by
  have events : d'.published = d.published := published_set here calls
  cases pushing : note.pushedCall with
  | none => exact h.stays pushing (events.trans (List.append_nil _).symm) server
  | some entry =>
    obtain ⟨rfl, event, -⟩ := push entry.1 entry.2 pushing
    have carried : d.published[entry.1]? = some entry.2 := by
      rw [published_here here, event]
    rw [pushedCalls_concat, pushing, events, server]
    by_cases running : d.main = .starting
    · -- Nobody serves commands yet.
      have absent := regular.ordered.early (by rw [running]; rfl)
      rw [absent]
      trivial
    · apply h.server.push carried
      rw [event]
      exact h.author regular running here moving

theorem Recovering.step (h : Recovering notes d) (regular : Regular layout notes d)
    (moved : d.step layout fromChars format label = some (d', note)) :
    Recovering (notes ++ [note]) d' := by
  refine ⟨h.main_step regular.ordered moved, ?_⟩
  have silent : pushedCalls (notes ++ [.silent]) = pushedCalls notes := by simp [Note.pushedCall]
  have turned := step_turns regular.ordered moved
  obtain ⟨more, events, -⟩ := turned.published
  cases step_steps moved with
  | leads taken =>
    by_cases spawns : d'.server = d.server
    · exact h.stays rfl events spawns
    · cases taken <;> first | exact absurd rfl spawns | trivial
  | builds stage built =>
    rw [silent]
    exact Recovering.builds regular built
  | proceeds stage returned =>
    rw [silent]
    exact h.proceeds regular stage
  | reports stage earlier returned =>
    rw [silent]
    exact h.reports regular stage earlier returned
  | polls stage =>
    dsimp only
    split <;> trivial
  | accepts stage entered =>
    rcases entered with rfl | ⟨response, rfl⟩ | ⟨command, rfl⟩ <;> trivial
  | idles stage | closes stage returned | responds stage => trivial
  | controls taken =>
    refine h.stays ?_ events rfl
    cases Pipeline.controlLoop_cases taken <;> rfl
  | advances here taken =>
    cases turned with
    | rests calls quiet waits => exact h.stays quiet events rfl
    | advances there moving calls push waits => exact h.advances regular there moving calls push rfl
    | makes caller event thread calls kind now others => exact h.stays rfl events rfl
  | _ => exact h.stays rfl events rfl

theorem run_recovering {labels : List DaemonLabel}
    (history : Exec.run (Daemon.step layout fromChars format) initial labels = some (d, notes)) :
    Recovering notes d := by
  refine Exec.past_induction (P := fun _ notes d => Recovering notes d) recovering_initial ?_
    history
  intro labels notes t label u note past recovering moved
  exact recovering.step (run_regular past) moved

end Step

/- The client of `latching` resets the machine, which plugs the sensor in again. -/
def recovering : List DaemonLabel :=
  latching ++ .accept [.received (literal "reset\n")] :: resetting 5 4 4 ++ controls 2

end Daemon

end EdgeSentinel
