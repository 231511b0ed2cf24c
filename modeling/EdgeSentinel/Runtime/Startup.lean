import EdgeSentinel.Fsm.Latch
import EdgeSentinel.Runtime.Conservation
import EdgeSentinel.Runtime.Shutdown

/-! The order of the start-up. Until `start` has made its two calls of `publish` nobody
else makes one, so both find a slot and room in the queue, and the control loop meets
their events before any sample. -/
namespace EdgeSentinel

/- What `start` publishes. -/
def script : List Event := [.startup, .selfTestPassed]

def answered (event : Event) : PublishCall := ⟨event, .returned .published⟩

namespace StartStep

/- The call of `publish` that `start` waits for. -/
def awaited : StartStep → Option (Nat × Event)
  | .awaitingStartup call => some (call, .startup)
  | .awaitingSelfTest call => some (call, .selfTestPassed)
  | _ => none

/- Before the first call of `publish`. -/
def isEarly : StartStep → Bool
  | .opening | .raising | .spawningControl | .callingStartup => true
  | _ => false

/- Behind the second call of `publish`. -/
def isLate : StartStep → Bool
  | .spawningSensor | .spawningMonitor | .returned => true
  | _ => false

end StartStep

namespace PublishStep

/- How many steps a call has left that meets no failure. -/
def remaining : PublishStep → Nat
  | .checking => 4
  | .allocating => 3
  | .pushing _ => 2
  | .recording => 1
  | _ => 0

theorem remaining_le (s : PublishStep) : s.remaining ≤ 4 := by
  cases s <;> simp [remaining]

/- A call on track has only one end. -/
theorem published_of_onTrack {s : PublishStep} (tracked : s.onTrack = true)
    (finished : s.isReturned = true ∨ s.remaining = 0) : s = .returned .published := by
  cases s with
  | returned result => cases result <;> first | rfl | contradiction
  | _ => simp [onTrack, isReturned, remaining] at tracked finished

end PublishStep

namespace Pipeline

theorem advance_enabled (layout : Layout) (p : Pipeline) (index now : Nat) {call : PublishCall}
    (moving : call.step.isReturned = false) :
    ∃ q note, p.advance layout index now call = some (q, note) := by
  unfold advance
  cases stage : call.step with
  | returned result =>
    rw [stage] at moving
    contradiction
  | allocating =>
    dsimp only
    split
    exact ⟨_, _, rfl⟩
  | pushing handle =>
    dsimp only
    split <;> exact ⟨_, _, rfl⟩
  | _ => exact ⟨_, _, rfl⟩

theorem remaining_leadsTo {before after : PublishStep} (leads : leadsTo before after = true)
    (tracked : before.onTrack = true) (kept : after.onTrack = true) :
    before.remaining = after.remaining + 1 := by
  cases before with
  | checking =>
    cases after with
    | allocating => rfl
    | returned result => cases result <;> contradiction
    | _ => contradiction
  | allocating => cases after <;> first | rfl | contradiction
  | pushing handle => cases after <;> first | rfl | contradiction
  | recording => cases after <;> first | rfl | contradiction
  | returned result => cases after <;> contradiction
  | _ => contradiction

/-- A call shows the event that it pushes, in the step in which it lands. -/
theorem Advances.landing {layout : Layout} {p q : Pipeline} {index : Nat} {call : PublishCall}
    {note : Note} (moved : Advances layout p index call q note)
    (honest : call.step.honest = true) :
    ∃ step, q.calls = p.calls.set index { call with step } ∧
      (if step.landed then [call.event] else []) =
        (if call.step.landed then [call.event] else []) ++ note.pushedEvent.toList := by
  cases moved with
  | @dropped result stage =>
    rw [stage] at honest ⊢
    refine ⟨_, rfl, ?_⟩
    cases result with
    | published => contradiction
    | _ => rfl
  | _ stage =>
    rw [stage]
    exact ⟨_, rfl, rfl⟩

theorem Controls.pushes {layout : Layout} {p q : Pipeline} {note : Note}
    (moved : Controls layout p q note) : note.pushedEvent = none := by
  cases moved <;> rfl

end Pipeline

namespace EdgeRuntime

/-- No thread outside calls `publish` before `start` has returned. -/
def Patient (r : EdgeRuntime) : Label → Prop
  | .publish _ => r.start = some .returned
  | _ => True

instance (r : EdgeRuntime) : ∀ label, Decidable (r.Patient label)
  | .publish _ => inferInstanceAs (Decidable (r.start = some .returned))
  | .start | .stop | .advance _ _ | .control _ | .sensor _ | .monitor => .isTrue trivial

/-- What one step does to `start` and to the calls of `publish`. -/
inductive Affects (layout : Layout) (r r' : EdgeRuntime) : Note → Prop where
  | starts (moved : Starts r r') : Affects layout r r' .silent
  | calls {event : Event} (free : r.start = some .returned ∨ r.sensor ≠ .absent)
      (start : r'.start = r.start) (made : r'.calls = r.calls ++ [{ event := event }]) :
      Affects layout r r' .silent
  | advances {index : Nat} {call : PublishCall} {note : Note}
      (here : r.calls[index]? = some call)
      (moved : Pipeline.Advances layout r.toPipeline index call r'.toPipeline note)
      (start : r'.start = r.start) (sensor : r'.sensor = r.sensor) : Affects layout r r' note
  | aside {note : Note} (start : r'.start = r.start)
      (sensor : r.sensor = .absent → r'.sensor = .absent) (calls : r'.calls = r.calls)
      (pushed : note.pushedEvent = none) : Affects layout r r' note

section Steps

variable {layout : Layout} {protection : ProtectionConfig} {notes : List Note}
  {r r' : EdgeRuntime} {note : Note} {event : Event}

theorem Stops.affects {c : StopCall} (moved : Stops r c r') : Affects layout r r' .silent := by
  cases moved with
  | _ => exact .aside rfl id rfl rfl

theorem Senses.affects {sample : SensorSample} (moved : Senses r sample r') :
    Affects layout r r' .silent := by
  have present : r.sensor ≠ .absent := by
    intro absent
    cases moved with
    | exits stage stopped => simp [absent] at stage
    | _ stage =>
      rw [absent] at stage
      contradiction
  cases moved with
  | publishes stage present' running => exact .calls (.inr present) rfl rfl
  | _ => exact .aside rfl (fun absent => absurd absent present) rfl rfl

theorem step_affects {label : Label} (patient : r.Patient label)
    (moved : step layout r label = some (r', note)) : Affects layout r r' note := by
  cases step_cases moved with
  | starts taken => exact .starts taken
  | unstarted stage => exact .aside rfl id rfl rfl
  | requests started unstopped => exact .calls (.inl started) rfl rfl
  | stops current taken => exact taken.affects
  | publishes event => exact .calls (.inl patient) rfl rfl
  | advances here taken => exact .advances here (Pipeline.advance_cases taken) rfl rfl
  | controls taken =>
    have controls := Pipeline.controlLoop_cases taken
    exact .aside rfl id controls.frame.1 controls.pushes
  | senses taken => exact taken.affects
  | monitors taken =>
    cases taken with
    | _ => exact .aside rfl id rfl rfl

/-- The call that `start` waits for, behind the events of its earlier calls. -/
inductive Awaits : StartStep → List Event → Event → Prop where
  | startup : Awaits (.awaitingStartup 0) [] .startup
  | selfTest : Awaits (.awaitingSelfTest 1) [.startup] .selfTestPassed

/-- How far the start-up has come. As long as `start` makes its calls there are no others. -/
inductive Opening (notes : List Note) (r : EdgeRuntime) : Prop where
  | quiet (early : ∀ stage, r.start = some stage → stage.isEarly = true)
      (sensor : r.sensor = .absent) (calls : r.calls = []) (pushed : pushedEvents notes = [])
  | calling {stage : StartStep} {done : List Event} {event : Event} {s : PublishStep}
      (start : r.start = some stage) (awaits : Awaits stage done event)
      (sensor : r.sensor = .absent) (calls : r.calls = done.map answered ++ [⟨event, s⟩])
      (onTrack : s.onTrack = true)
      (pushed : pushedEvents notes = done ++ if s.landed then [event] else [])
  | opened {stage : StartStep} (start : r.start = some stage) (late : stage.isLate = true)
      (calls : script.map answered <+: r.calls) (pushed : script <+: pushedEvents notes)

theorem opening_initial {hasSensor : Bool} : Opening [] (initial protection hasSensor) :=
  .quiet nofun rfl rfl rfl

theorem Opening.starts (h : Opening notes r) (moved : Starts r r') :
    Opening (notes ++ [.silent]) r' := by
  have same : pushedEvents (notes ++ [.silent]) = pushedEvents notes := by
    simp [Note.pushedEvent]
  cases h with
  | quiet early sensor calls pushed =>
    rw [← same] at pushed
    cases moved with
    | callsStartup stage =>
      have awaits : Awaits (.awaitingStartup r.calls.length) [] .startup := by
        rw [calls]
        exact .startup
      have calls' : (r.publish .startup).calls = [].map answered ++ [⟨.startup, .checking⟩] := by
        rw [publish, Pipeline.call, calls]
        rfl
      exact .calling rfl awaits sensor calls' rfl pushed
    | again stage => exact .quiet early sensor calls pushed
    | enters stage => exact .quiet (by rintro _ ⟨⟩; rfl) sensor calls pushed
    | opens stage => exact .quiet (by rintro _ ⟨⟩; rfl) sensor calls pushed
    | raises stage => exact .quiet (by rintro _ ⟨⟩; rfl) sensor calls pushed
    | spawnsControl stage => exact .quiet (by rintro _ ⟨⟩; rfl) sensor calls pushed
    | _ stage =>
      have := early _ stage
      contradiction
  | @calling stage done event s start awaits sensor calls onTrack pushed =>
    rw [← same] at pushed
    have finished : r.hasReturned done.length = true → s = .returned .published := by
      intro returned
      have here : r.calls[done.length]? = some ⟨event, s⟩ := by simp [calls]
      exact s.published_of_onTrack onTrack (.inl (isReturned_of_hasReturned returned here))
    cases moved with
    | callsSelfTest stage returned =>
      cases start.symm.trans stage
      cases awaits
      cases finished returned
      have awaits : Awaits (.awaitingSelfTest r.calls.length) [.startup] .selfTestPassed := by
        rw [calls]
        exact .selfTest
      have calls' : (r.publish .selfTestPassed).calls =
          [Event.startup].map answered ++ [⟨.selfTestPassed, .checking⟩] := by
        rw [publish, Pipeline.call, calls]
        rfl
      exact .calling rfl awaits sensor calls' rfl pushed
    | tested stage returned =>
      cases start.symm.trans stage
      cases awaits
      cases finished returned
      refine .opened rfl rfl ?_ ?_
      · exact calls ▸ List.prefix_rfl
      · exact pushed ▸ List.prefix_rfl
    | _ stage => cases awaits <;> cases start.symm.trans stage
  | opened start late calls pushed =>
    rw [← same] at pushed
    cases moved with
    | spawnsSensor stage => exact .opened rfl rfl calls pushed
    | spawnsMonitor stage => exact .opened rfl rfl calls pushed
    | again stage => exact .opened start late calls pushed
    | enters stage =>
      rw [start] at stage
      contradiction
    | _ stage =>
      cases start.symm.trans stage
      contradiction

/- Two calls and two events leave room everywhere. -/
theorem Sound.unobstructed (h : Sound layout protection notes r) {stage : StartStep}
    (start : r.start = some stage) (under : stage.isEarly = false ∧ stage.isLate = false)
    {index : Nat} {call : PublishCall} (here : r.calls[index]? = some call)
    (calls : r.calls.length ≤ 2) (pushed : (pushedEvents notes).length ≤ 2) :
    r.fails call.step = false := by
  have unstopped : r.stop = none := by
    apply h.staged.unstopped
    intro returned
    cases start.symm.trans returned
    exact absurd under.2 (by decide)
  have accepting : r.acceptingEvents = true := by
    apply h.staged.gate stage start
    · cases stage <;> first | rfl | exact absurd under.1 (by decide)
    · intro c current
      rw [unstopped] at current
      contradiction
  rw [fails_eq_blocks accepting (h.staged.open_queue unstopped)]
  cases step : call.step with
  | allocating =>
    have calm : r.inFlight ≤ 127 := by
      have few : r.inFlight ≤ r.calls.length := List.countP_le_length
      omega
    exact decide_eq_false (h.free_slot here step calm)
  | pushing handle =>
    obtain ⟨backlog, inHand, carries⟩ := h.carries
    have order := congrArg List.length carries.order
    simp only [List.length_append, List.length_map] at order
    have size := carries.size
    have room : r.queue.size ≠ kEventQueueCapacity := by
      simp only [kEventQueueCapacity]
      omega
    exact decide_eq_false room
  | _ => rfl

/-- A call of `start` stays on track. -/
theorem Opening.advances (h : Opening notes r) (sound : Sound layout protection notes r)
    {index : Nat} {call : PublishCall} (here : r.calls[index]? = some call)
    (moved : Pipeline.Advances layout r.toPipeline index call r'.toPipeline note)
    (start' : r'.start = r.start) (sensor' : r'.sensor = r.sensor) :
    Opening (notes ++ [note]) r' := by
  have moving := moved.calls.1
  obtain ⟨step, calls', landing⟩ :=
    moved.landing (sound.recorded.honest call (List.mem_of_getElem? here))
  cases h with
  | quiet early sensor calls pushed =>
    rw [calls] at here
    contradiction
  | @calling stage done event s start awaits sensor calls onTrack pushed =>
    have own : index = done.length ∧ call = ⟨event, s⟩ := by
      rw [calls] at here
      rcases Nat.lt_trichotomy index done.length with before | rfl | behind
      · rw [List.getElem?_append_left (by simpa using before), List.getElem?_map,
          List.getElem?_eq_getElem before] at here
        cases here
        contradiction
      · have same : PublishCall.mk event s = call := by simpa using here
        exact ⟨rfl, same.symm⟩
      · have beyond : (done.map answered ++ [PublishCall.mk event s]).length ≤ index := by
          rw [List.length_append, List.length_map]
          exact behind
        rw [List.getElem?_eq_none beyond] at here
        contradiction
    obtain ⟨rfl, rfl⟩ := own
    have clear : r.fails s = false := by
      refine sound.unobstructed start ?_ here ?_ ?_
      · cases awaits <;> decide
      · rw [calls]
        cases awaits <;> simp
      · rw [pushed]
        cases awaits <;> split <;> simp
    obtain ⟨next, there, kept⟩ := sound.advance_onTrack here moved
    have same : next = step := by
      rw [calls', Recorded.getElem?_move here, if_pos rfl] at there
      cases there
      rfl
    subst same
    refine .calling (start'.trans start) awaits (sensor'.trans sensor) ?_
      (kept.mpr ⟨onTrack, clear⟩) ?_
    · rw [calls', calls]
      simp
    · rw [Pipeline.pushedEvents_concat, pushed, List.append_assoc, ← landing]
  | opened start late calls pushed =>
    refine .opened (start'.trans start) late ?_ ?_
    · rw [calls', List.prefix_iff_getElem?]
      intro i bound
      have old := List.prefix_iff_getElem?.mp calls i bound
      rw [Recorded.getElem?_move here, if_neg, old]
      -- The calls of `start` have returned, so this is another one.
      rintro rfl
      cases here.symm.trans old
      rw [List.getElem_map] at moving
      contradiction
    · rw [Pipeline.pushedEvents_concat]
      exact pushed.trans (List.prefix_append _ _)

theorem Opening.step (h : Opening notes r) (sound : Sound layout protection notes r)
    {label : Label} (patient : r.Patient label)
    (moved : EdgeRuntime.step layout r label = some (r', note)) : Opening (notes ++ [note]) r' := by
  cases step_affects patient moved with
  | starts started => exact h.starts started
  | advances here advanced start sensor => exact h.advances sound here advanced start sensor
  | calls free start' made =>
    cases h with
    | quiet early sensor calls pushed =>
      rcases free with returned | present
      · have := early _ returned
        contradiction
      · exact absurd sensor present
    | calling start awaits sensor calls onTrack pushed =>
      rcases free with returned | present
      · cases awaits <;> cases start.symm.trans returned
      · exact absurd sensor present
    | opened start late calls pushed =>
      refine .opened (start'.trans start) late ?_ ?_
      · rw [made]
        exact calls.trans (List.prefix_append _ _)
      · simpa [Note.pushedEvent] using pushed
  | aside start' sensor' calls' silent =>
    have same : pushedEvents (notes ++ [note]) = pushedEvents notes := by simp [silent]
    cases h with
    | quiet early sensor calls pushed =>
      refine .quiet ?_ (sensor' sensor) (calls'.trans calls) (same.trans pushed)
      rw [start']
      exact early
    | calling start awaits sensor calls onTrack pushed =>
      exact .calling (start'.trans start) awaits (sensor' sensor) (calls'.trans calls) onTrack
        (same.trans pushed)
    | opened start late calls pushed =>
      refine .opened (start'.trans start) late ?_ ?_
      · rwa [calls']
      · rwa [same]

theorem run_opening {hasSensor : Bool} {labels : List Label}
    (history : Exec.run (EdgeRuntime.step layout) (initial protection hasSensor) labels =
      some (r, notes))
    (patient : Exec.Always (EdgeRuntime.step layout) Patient (initial protection hasSensor)
      labels) : Opening notes r := by
  refine Exec.past_induction
    (P := fun labels notes r => Exec.Always (EdgeRuntime.step layout) Patient
      (initial protection hasSensor) labels → Opening notes r)
    (fun _ => opening_initial) ?_ history patient
  intro labels notes t label u note past before moved patient
  obtain ⟨earlier, now⟩ := (Exec.always_concat past).mp patient
  exact (before earlier).step (run_sound past) now moved

/-- The calls of `start` are on track, whoever else has called `publish`. -/
theorem Opening.call (h : Opening notes r) {i : Nat} {event : Event} {call : PublishCall}
    (named : script[i]? = some event) (here : r.calls[i]? = some call) :
    call.event = event ∧ call.step.onTrack = true := by
  cases h with
  | quiet early sensor calls pushed =>
    rw [calls] at here
    contradiction
  | calling start awaits sensor calls onTrack pushed =>
    rw [calls] at here
    cases awaits with
    | startup =>
      rcases i with _ | i
      · cases named
        cases here
        exact ⟨rfl, onTrack⟩
      · contradiction
    | selfTest =>
      rcases i with _ | _ | i
      · cases named
        cases here
        exact ⟨rfl, rfl⟩
      · cases named
        cases here
        exact ⟨rfl, onTrack⟩
      · contradiction
  | opened start late calls pushed =>
    obtain ⟨bound, rfl⟩ := List.getElem?_eq_some_iff.mp named
    have old := List.prefix_iff_getElem?.mp calls i (by simpa using bound)
    cases here.symm.trans old
    rw [List.getElem_map]
    exact ⟨rfl, rfl⟩

theorem Opening.awaited (h : Opening notes r) {stage : StartStep} {index : Nat} {event : Event}
    (start : r.start = some stage) (awaited : stage.awaited = some (index, event)) :
    ∃ call, script[index]? = some event ∧ r.calls[index]? = some call := by
  cases h with
  | quiet early sensor calls pushed =>
    have unfinished := early stage start
    cases stage <;> contradiction
  | calling start' awaits sensor calls onTrack pushed =>
    rw [calls]
    cases awaits <;> cases start.symm.trans start' <;> cases awaited <;> exact ⟨_, rfl, rfl⟩
  | opened start' late calls pushed =>
    cases start.symm.trans start'
    cases stage <;> contradiction

theorem Opening.pushed_order (h : Opening notes r) : (pushedEvents notes).take 2 <+: script := by
  cases h with
  | quiet early sensor calls pushed =>
    rw [pushed]
    exact List.nil_prefix
  | calling start awaits sensor calls onTrack pushed =>
    rw [pushed]
    cases awaits <;> split <;> decide
  | opened start late calls pushed =>
    rw [List.prefix_iff_eq_take.mp pushed]
    exact List.prefix_rfl

/-- On its own a call of `start` gets to its end. -/
theorem Opening.completes (h : Opening notes r) (sound : Sound layout protection notes r)
    {i : Nat} {event : Event} {call : PublishCall} (named : script[i]? = some event)
    (here : r.calls[i]? = some call) (now : Nat) :
    ∃ r' later, Exec.run (EdgeRuntime.step layout) r
        (List.replicate call.step.remaining (.advance i now)) = some (r', later) ∧
      r'.calls[i]? = some (answered event) := by
  induction left : call.step.remaining generalizing r notes call with
  | zero =>
    obtain ⟨rfl, onTrack⟩ := h.call named here
    have done := call.step.published_of_onTrack onTrack (.inr left)
    refine ⟨r, [], rfl, ?_⟩
    rw [here, answered, ← done]
  | succ count ih =>
    have moving : call.step.isReturned = false := by
      cases stage : call.step with
      | returned result =>
        rw [stage] at left
        contradiction
      | _ => rfl
    obtain ⟨q, note, advanced⟩ := Pipeline.advance_enabled layout r.toPipeline i now moving
    have moved : EdgeRuntime.step layout r (.advance i now) =
        some ({ r with toPipeline := q }, note) := by
      simp [EdgeRuntime.step, here, advanced]
    have patient : r.Patient (.advance i now) := trivial
    have next := h.step sound patient moved
    obtain ⟨step, calls, leads⟩ := Pipeline.advance_leadsTo advanced
    have there : q.calls[i]? = some { call with step } := by
      rw [calls, Recorded.getElem?_move here, if_pos rfl]
    have fewer : step.remaining = count := by
      have less := Pipeline.remaining_leadsTo leads (h.call named here).2 (next.call named there).2
      omega
    obtain ⟨r', later, rest, arrived⟩ := ih next (sound.step moved) there fewer
    exact ⟨r', note :: later, Exec.run_cons.mpr ⟨_, _, _, moved, rest, rfl⟩, arrived⟩

/-- The first events that the control loop handles are those of `start`. -/
theorem Opening.handled_order (h : Opening notes r) (sound : Sound layout protection notes r) :
    (handledEvents notes).take 2 <+: script := by
  obtain ⟨later, split⟩ := sound.handled.1
  have order := h.pushed_order
  rw [← split, List.take_append] at order
  exact (List.prefix_append _ _).trans order

/-- A sample comes to the machine behind the whole start-up. -/
theorem Opening.sample (h : Opening (notes ++ [.handled event]) r')
    (sound : Sound layout protection (notes ++ [.handled event]) r')
    (sampled : event.kind = .sensorSample) :
    2 ≤ (handledEvents notes).length ∧ (handledEvents notes).take 2 = script := by
  have order := h.handled_order sound
  rw [Pipeline.handledEvents_concat] at order
  change (handledEvents notes ++ [event]).take 2 <+: script at order
  have long : 2 ≤ (handledEvents notes).length := by
    by_contra short
    rw [List.take_of_length_le (by simp; omega)] at order
    have member : event ∈ script := order.subset (by simp)
    have known : event = .startup ∨ event = .selfTestPassed := by simpa [script] using member
    rcases known with rfl | rfl <;> contradiction
  rw [List.take_append_of_le_length long] at order
  refine ⟨long, order.eq_of_length ?_⟩
  rw [List.length_take, Nat.min_eq_left long]
  rfl

end Steps

/-- The start-up comes first, whatever the schedule: if nobody else calls `publish` before
`start` has returned, both calls that `start` makes succeed, the machine handles their events
before all others, and so no sample meets it in `booting`, and in `selfTest` only behind the
reset of a latched fault. -/
theorem startup_precedes_samples (layout : Layout) (protection : ProtectionConfig)
    (hasSensor : Bool) (labels : List Label) (r : EdgeRuntime) (notes : List Note)
    (history : Exec.run (EdgeRuntime.step layout) (initial protection hasSensor) labels =
      some (r, notes))
    (patient : Exec.Always (EdgeRuntime.step layout) Patient (initial protection hasSensor)
      labels) :
    (∀ stage index event, r.start = some stage → stage.awaited = some (index, event) →
      ∃ call, r.calls[index]? = some call ∧ call.event = event ∧
        (∀ result, call.step = .returned result → result = .published) ∧
        ∃ count ≤ 4, ∀ now, ∃ r' later,
          Exec.run (EdgeRuntime.step layout) r (List.replicate count (.advance index now)) =
              some (r', later) ∧
            r'.calls[index]? = some (answered event)) ∧
    (∀ stage, r.start = some stage → stage.isLate = true →
      r.calls.take 2 = [answered .startup, answered .selfTestPassed]) ∧
    (handledEvents notes).take 2 <+: [.startup, .selfTestPassed] ∧
    (∀ label r' event, EdgeRuntime.step layout r label = some (r', .handled event) →
      event.kind = .sensorSample →
      r.machine.state ≠ .booting ∧
        (r.machine.state = .selfTest →
          ∃ k, MotorStateMachine.Testing protection (handledEvents notes) 2 k
            (handledEvents notes).length)) := by
  have sound := run_sound history
  have opening := run_opening history patient
  refine ⟨?_, ?_, opening.handled_order sound, ?_⟩
  · intro stage index event start awaited
    obtain ⟨call, named, here⟩ := opening.awaited start awaited
    obtain ⟨same, onTrack⟩ := opening.call named here
    refine ⟨call, here, same, ?_, _, call.step.remaining_le, ?_⟩
    · intro result returned
      have published := call.step.published_of_onTrack onTrack (.inl (by rw [returned]; rfl))
      rw [returned] at published
      exact PublishStep.returned.inj published
    · exact opening.completes sound named here
  · intro stage start late
    cases opening with
    | quiet early sensor calls pushed =>
      have unfinished := early stage start
      cases stage <;> contradiction
    | calling start' awaits sensor calls onTrack pushed =>
      cases awaits <;> cases start.symm.trans start' <;> contradiction
    | opened start late calls pushed => exact (List.prefix_iff_eq_take.mp calls).symm
  · intro label r' event moved sampled
    have controls : r.Patient label := by
      cases label with
      | publish other => cases moved
      | _ => trivial
    obtain ⟨long, first⟩ := (opening.step sound controls moved).sample (sound.step moved) sampled
    have run := @MotorStateMachine.started_run protection _ first
      ((handledEvents notes).length - 2)
    rw [Nat.add_sub_cancel' long] at run
    have machine : r.machine =
        MotorStateMachine.after protection (handledEvents notes) (handledEvents notes).length := by
      rw [MotorStateMachine.after, List.take_length]
      exact sound.handled.2
    rwa [machine]

/- The start-up, one sample published, both events of `start` handled, the sample popped. -/
def sampling : List Label :=
  starting ++ [.sensor {}] ++ List.replicate 4 (.advance 2 0) ++ List.replicate 11 (.control 0)

theorem startup_precedes_samples_sampling :
    ∃ r notes r', Exec.run (EdgeRuntime.step unitLayout) (initial {} true) sampling =
        some (r, notes) ∧
      Exec.Always (EdgeRuntime.step unitLayout) Patient (initial {} true) sampling ∧
      EdgeRuntime.step unitLayout r (.control 0) = some (r', .handled (.sensorSample {})) ∧
      r.calls.take 2 = [answered .startup, answered .selfTestPassed] ∧
      r.machine.state ≠ .booting := by
  have outcome : (Exec.run (EdgeRuntime.step unitLayout) (initial {} true) sampling).any
      (fun arrived => arrived.1.start = some .returned ∧
        (EdgeRuntime.step unitLayout arrived.1 (.control 0)).any
          (fun next => next.2 = .handled (.sensorSample {}))) = true := by
    decide +kernel
  have patient : Exec.Always (EdgeRuntime.step unitLayout) Patient (initial {} true) sampling := by
    decide +kernel
  obtain ⟨⟨r, notes⟩, history, facts⟩ := (Option.any_eq_true _ _).mp outcome
  obtain ⟨start, handles⟩ := of_decide_eq_true facts
  obtain ⟨⟨r', note⟩, moved, same⟩ := (Option.any_eq_true _ _).mp handles
  cases of_decide_eq_true same
  obtain ⟨-, finished, -, samples⟩ :=
    startup_precedes_samples unitLayout {} true sampling r notes history patient
  exact ⟨r, notes, r', history, patient, moved, finished _ start rfl,
    (samples _ _ _ moved rfl).1⟩

end EdgeRuntime

end EdgeSentinel
