import EdgeSentinel.Daemon.Model
import EdgeSentinel.Runtime.Shutdown

/-! The runtime inside the daemon. Every step of the daemon is a step of the runtime or
leaves it alone, so what holds of the runtime in all its runs holds here too. -/
namespace EdgeSentinel

/- Before the server's thread is there. -/
def MainStep.early : MainStep → Bool
  | .starting | .startingServer => true
  | _ => false

/- Inside `build_response`. -/
def ServerStep.inResponse : ServerStep → Bool
  | .building _ | .awaitingReset _ | .awaitingSelfTest _ _ | .awaitingShutdown _ => true
  | _ => false

/- A line that `build_response` takes for a reset. -/
def Ipc.ParseResult.resets (parsed : Ipc.ParseResult) : Bool :=
  parsed.ok && parsed.command.kind = .reset

namespace Daemon

variable {layout : Layout} {fromChars : List UInt8 → Ipc.FromChars} {format : Double → List UInt8}
  {d d' : Daemon} {note : Note} {notes : List Note} {label : DaemonLabel}

/-- What a step is for the runtime. Only `advance` moves a call of `publish`. -/
inductive Projects (layout : Layout) (r r' : EdgeRuntime) (note : Note) (label : DaemonLabel) :
    Prop where
  | rests (same : r' = r) (silent : note = .silent)
  | moves (inner : Label) (moved : r.step layout inner = some (r', note))
      (faithful : ∀ index now, inner = .advance index now → label = .advance index now)

/-- What `build_response` does before it waits for `publish`. -/
inductive Builds (parsed : Ipc.ParseResult) (d : Daemon) : Daemon → Prop where
  | answers {response : List UInt8} (other : parsed.resets = false) :
      Builds parsed d (d.respond [] response)
  | overrides {sensor : SimulatedSensor} {response : List UInt8} (other : parsed.resets = false)
      (success : ¬ Ipc.literal "error=" <+: response) :
      Builds parsed d ({ d with sensor }.respond [] response)
  | resets (reset : parsed.resets = true) :
      Builds parsed d
        { d.publish .resetRequested with
          sensor := d.sensor.clearOverride
          server := .awaitingReset d.runtime.calls.length }
  | shutsDown (other : parsed.resets = false) :
      Builds parsed d
        { d.publish .shutdownRequested with server := .awaitingShutdown d.runtime.calls.length }

theorem buildResponse_cases (input : List UInt8) :
    Builds (Ipc.parseCommand fromChars input) d (d.buildResponse fromChars format input) := by
  unfold buildResponse
  generalize Ipc.parseCommand fromChars input = parsed
  cases ok : parsed.ok with
  | false =>
    have other : parsed.resets = false := by simp [Ipc.ParseResult.resets, ok]
    simp only [ok, Bool.not_false, if_true]
    exact .answers other
  | true =>
    simp only [ok, Bool.not_true, Bool.false_eq_true, if_false]
    by_cases reset : parsed.command.kind = .reset
    · simp only [reset]
      exact .resets (by simp [Ipc.ParseResult.resets, ok, reset])
    · have other : parsed.resets = false := by simp [Ipc.ParseResult.resets, reset]
      split
      · exact .answers other
      · exact .answers other
      · split
        · exact .overrides other (by decide)
        · exact .answers other
      · exact .overrides other (by decide)
      · contradiction
      · exact .shutsDown other
      · exact .answers other

/-- What one step of the server's thread can be, by where it stands. -/
inductive Serves (fromChars : List UInt8 → Ipc.FromChars) (d : Daemon) :
    ServerStep → Daemon → Prop where
  | turns {stage next : ServerStep} (present : stage ≠ .absent)
      (outside : stage.inResponse = false) : Serves fromChars d stage { d with server := next }
  | builds {input : List UInt8} {d' : Daemon}
      (built : Builds (Ipc.parseCommand fromChars input) d d') :
      Serves fromChars d (.building input) d'
  | proceeds {index : Nat} {first : PublishResult}
      (returned : d.runtime.result index = some first) :
      Serves fromChars d (.awaitingReset index)
        { d.publish .selfTestPassed with
          server := .awaitingSelfTest index d.runtime.calls.length }
  | reports {reset index : Nat} {first second : PublishResult}
      (earlier : d.runtime.result reset = some first)
      (returned : d.runtime.result index = some second) :
      Serves fromChars d (.awaitingSelfTest reset index)
        (d.respond [reset, index] (delivery "ok=reset_requested" [first, second]))
  | closes {index : Nat} {result : PublishResult}
      (returned : d.runtime.result index = some result) :
      Serves fromChars d (.awaitingShutdown index)
        (d.respond [index] (delivery "ok=shutdown_requested" [result]))

theorem serverStep_cases (moved : d.serverStep fromChars format = some d') :
    Serves fromChars d d.server d' := by
  unfold serverStep at moved
  cases stage : d.server with
  | absent =>
    rw [stage] at moved
    contradiction
  | checking =>
    rw [stage] at moved
    cases moved
    exact .turns (by decide) rfl
  | accepting =>
    rw [stage] at moved
    cases moved
    exact .turns (by decide) rfl
  | building input =>
    rw [stage] at moved
    cases moved
    exact .builds (buildResponse_cases input)
  | awaitingReset index =>
    simp only [stage, Option.map_eq_some_iff] at moved
    obtain ⟨first, returned, rfl⟩ := moved
    exact .proceeds returned
  | awaitingSelfTest reset index =>
    simp only [stage, Option.bind_eq_some_iff, Option.map_eq_some_iff] at moved
    obtain ⟨first, earlier, second, returned, rfl⟩ := moved
    exact .reports earlier returned
  | awaitingShutdown index =>
    simp only [stage, Option.map_eq_some_iff] at moved
    obtain ⟨result, returned, rfl⟩ := moved
    exact .closes returned
  | responding calls response =>
    rw [stage] at moved
    cases moved
    exact .turns nofun rfl
  | exited =>
    rw [stage] at moved
    contradiction

theorem Serves.projects {stage : ServerStep} (moved : Serves fromChars d stage d') :
    Projects layout d.runtime d'.runtime .silent .serve := by
  cases moved with
  | builds built =>
    cases built with
    | answers other => exact .rests rfl rfl
    | overrides other success => exact .rests rfl rfl
    | resets reset => exact .moves (.publish .resetRequested) rfl nofun
    | shutsDown other => exact .moves (.publish .shutdownRequested) rfl nofun
  | proceeds returned => exact .moves (.publish .selfTestPassed) rfl nofun
  | _ => exact .rests rfl rfl

theorem Serves.main {stage : ServerStep} (moved : Serves fromChars d stage d') :
    d'.main = d.main := by
  cases moved with
  | builds built =>
    cases built with
    | _ => rfl
  | _ => rfl

/-- What a step, of whichever thread, is for the server's. -/
inductive Meets (fromChars : List UInt8 → Ipc.FromChars) (d d' : Daemon) : DaemonLabel → Prop where
  | serves (moved : Serves fromChars d d.server d') : Meets fromChars d d' .serve
  | accepts {turns : List Ipc.Turn} (stage : d.server = .accepting) (main : d'.main = d.main) :
      Meets fromChars d d' (.accept turns)
  | spawns (stage : d.main = .startingServer) (main : d'.main = .watching) :
      Meets fromChars d d' .main
  | leaves {label : DaemonLabel} (server : d'.server = d.server)
      (override : d'.sensor.override = d.sensor.override)
      (main : d'.main.early = true → d.main.early = true) : Meets fromChars d d' label

theorem mainStep_cases (moved : d.mainStep = some d') :
    Projects layout d.runtime d'.runtime .silent .main ∧ Meets fromChars d d' .main := by
  unfold mainStep at moved
  cases stage : d.main with
  | starting =>
    simp only [stage] at moved
    split at moved
    · cases moved
      exact ⟨.rests rfl rfl, .leaves rfl rfl fun _ => by rw [stage]; rfl⟩
    · obtain ⟨r, started, rfl⟩ := Option.map_eq_some_iff.mp moved
      refine ⟨.moves .start ?_ nofun, .leaves rfl rfl fun _ => by rw [stage]; rfl⟩
      exact Option.map_eq_some_iff.mpr ⟨r, started, rfl⟩
  | startingServer =>
    rw [stage] at moved
    cases moved
    exact ⟨.rests rfl rfl, .spawns stage rfl⟩
  | watching =>
    simp only [stage] at moved
    split at moved
    · cases moved
      exact ⟨.rests rfl rfl, .leaves rfl rfl nofun⟩
    · cases moved
      exact ⟨.rests rfl rfl, .leaves rfl rfl id⟩
  | leaving =>
    simp only [stage] at moved
    split at moved
    · cases moved
      exact ⟨.moves (.publish .shutdownRequested) rfl nofun, .leaves rfl rfl nofun⟩
    · cases moved
      exact ⟨.rests rfl rfl, .leaves rfl rfl nofun⟩
  | awaiting index =>
    simp only [stage, Option.ite_none_right_eq_some] at moved
    obtain ⟨returned, same⟩ := moved
    cases same
    exact ⟨.rests rfl rfl, .leaves rfl rfl nofun⟩
  | stoppingServer =>
    rw [stage] at moved
    cases moved
    exact ⟨.rests rfl rfl, .leaves rfl rfl nofun⟩
  | joiningServer =>
    simp only [stage, Option.ite_none_right_eq_some] at moved
    obtain ⟨gone, same⟩ := moved
    cases same
    exact ⟨.rests rfl rfl, .leaves rfl rfl nofun⟩
  | stopping =>
    simp only [stage] at moved
    split at moved
    · cases moved
      exact ⟨.rests rfl rfl, .leaves rfl rfl nofun⟩
    · obtain ⟨r, stopped, rfl⟩ := Option.map_eq_some_iff.mp moved
      refine ⟨.moves .stop ?_ nofun, .leaves rfl rfl nofun⟩
      exact Option.map_eq_some_iff.mpr ⟨r, stopped, rfl⟩
  | exited =>
    rw [stage] at moved
    contradiction

theorem runtimeStep_cases {inner : Label} (moved : d.runtimeStep layout inner = some (d', note)) :
    ∃ r, d.runtime.step layout inner = some (r, note) ∧ d' = { d with runtime := r } := by
  obtain ⟨⟨r, _⟩, moved, same⟩ := Option.map_eq_some_iff.mp moved
  cases same
  exact ⟨r, moved, rfl⟩

theorem reading_override (d : Daemon) : d.reading.1.override = d.sensor.override := by
  unfold reading
  split <;> rfl

/-- Both sides of a step: the runtime's and the server's. -/
theorem step_cases (moved : d.step layout fromChars format label = some (d', note)) :
    Projects layout d.runtime d'.runtime note label ∧ Meets fromChars d d' label := by
  cases label with
  | main =>
    obtain ⟨_, led, same⟩ := Option.map_eq_some_iff.mp moved
    cases same
    exact mainStep_cases led
  | serverFails =>
    obtain ⟨stage, same⟩ := Option.ite_none_right_eq_some.mp moved
    cases same
    exact ⟨.rests rfl rfl, .leaves rfl rfl nofun⟩
  | signal =>
    cases moved
    exact ⟨.rests rfl rfl, .leaves rfl rfl id⟩
  | serve =>
    obtain ⟨_, served, same⟩ := Option.map_eq_some_iff.mp moved
    cases same
    have served := serverStep_cases served
    exact ⟨served.projects, .serves served⟩
  | accept turns =>
    obtain ⟨_, taken, same⟩ := Option.map_eq_some_iff.mp moved
    cases same
    obtain ⟨stage, taken⟩ := Option.ite_none_right_eq_some.mp taken
    split at taken
    all_goals
      cases taken
      exact ⟨.rests rfl rfl, .accepts stage rfl⟩
  | sensor =>
    obtain ⟨_, sensed, same⟩ := Option.map_eq_some_iff.mp moved
    cases same
    obtain ⟨r, looped, rfl⟩ := Option.map_eq_some_iff.mp sensed
    refine ⟨.moves (.sensor d.reading.2) ?_ nofun, .leaves rfl d.reading_override id⟩
    exact Option.map_eq_some_iff.mpr ⟨r, looped, rfl⟩
  | monitor =>
    obtain ⟨r, inner, rfl⟩ := runtimeStep_cases moved
    exact ⟨.moves .monitor inner nofun, .leaves rfl rfl id⟩
  | control now =>
    obtain ⟨r, inner, rfl⟩ := runtimeStep_cases moved
    exact ⟨.moves (.control now) inner nofun, .leaves rfl rfl id⟩
  | advance index now =>
    obtain ⟨r, inner, rfl⟩ := runtimeStep_cases moved
    refine ⟨.moves (.advance index now) inner ?_, .leaves rfl rfl id⟩
    intro index' now' same
    cases same
    rfl

/-- The runtime is sound, and there is no server before its thread is started. -/
structure Reached (layout : Layout) (notes : List Note) (d : Daemon) : Prop where
  sound : EdgeRuntime.Sound layout {} notes d.runtime
  early : d.main.early = true → d.server = .absent

theorem reached_initial : Reached layout [] initial := ⟨EdgeRuntime.sound_initial, fun _ => rfl⟩

theorem Projects.sound {r r' : EdgeRuntime} (moved : Projects layout r r' note label)
    (h : r.Sound layout {} notes) : r'.Sound layout {} (notes ++ [note]) := by
  cases moved with
  | rests same silent =>
    subst same silent
    obtain ⟨backlog, inHand, carries⟩ := h.carries
    exact ⟨⟨backlog, inHand, carries.silent⟩, h.recorded.silent, h.staged⟩
  | moves inner moved faithful => exact h.step moved

theorem Meets.early (moved : Meets fromChars d d' label)
    (h : d.main.early = true → d.server = .absent) (early : d'.main.early = true) :
    d'.server = .absent := by
  cases moved with
  | serves moved =>
    rw [moved.main] at early
    rw [h early] at moved
    cases moved with
    | turns present outside => contradiction
  | accepts stage main =>
    rw [main] at early
    cases (h early).symm.trans stage
  | spawns stage main =>
    rw [main] at early
    contradiction
  | leaves server override main => rw [server, h (main early)]

theorem Reached.step (h : Reached layout notes d)
    (moved : d.step layout fromChars format label = some (d', note)) :
    Reached layout (notes ++ [note]) d' := by
  obtain ⟨projects, meets⟩ := step_cases moved
  exact ⟨projects.sound h.sound, meets.early h.early⟩

theorem Reached.run (h : Reached layout notes d) {labels : List DaemonLabel} {later : List Note}
    (history : Exec.run (Daemon.step layout fromChars format) d labels = some (d', later)) :
    Reached layout (notes ++ later) d' := by
  refine Exec.run_induction (P := fun _ later d' => Reached layout (notes ++ later) d')
    (by simpa using h) ?_ history
  intro _ later t label u note reached moved
  simpa using reached.step moved

/-- A call of `publish` rests or takes a step, which fails exactly if it was about to. -/
inductive Follows (r r' : EdgeRuntime) (index : Nat) (call : PublishCall) (label : DaemonLabel) :
    Prop where
  | rests (idle : ∀ now, label ≠ .advance index now) (there : r'.calls[index]? = some call)
  | steps {now : Nat} {step : PublishStep} (turn : label = .advance index now)
      (there : r'.calls[index]? = some { call with step })
      (progress : call.step.isReturned = false)
      (onTrack : step.onTrack = true ↔ call.step.onTrack = true ∧ r.fails call.step = false)

/- The calls after a step: one of them has moved, or there may be new ones. -/
theorem Projects.calls {r r' : EdgeRuntime} (moved : Projects layout r r' note label) :
    r.calls <+: r'.calls ∨ ∃ index now call step, label = .advance index now ∧
      r.calls[index]? = some call ∧ r'.calls = r.calls.set index { call with step } := by
  cases moved with
  | rests same silent => exact .inl (same ▸ List.prefix_rfl)
  | moves inner moved faithful =>
    cases EdgeRuntime.step_treats moved with
    | leaves clear calls stop => exact .inl calls
    | makes clear unstopped stop calls => exact .inl (calls ▸ List.prefix_append _ _)
    | @moves index now call here advances stop =>
      obtain ⟨-, step, calls⟩ := advances.calls
      exact .inr ⟨index, now, call, step, faithful index now rfl, here, calls⟩

theorem Projects.length_le {r r' : EdgeRuntime} (moved : Projects layout r r' note label) :
    r.calls.length ≤ r'.calls.length := by
  obtain calls | ⟨index, now, call, step, -, -, calls⟩ := moved.calls
  · exact calls.length_le
  · simp [calls]

theorem Projects.others {r r' : EdgeRuntime} (moved : Projects layout r r' note label)
    {index : Nat} {call : PublishCall} (here : r.calls[index]? = some call)
    (idle : ∀ now, label ≠ .advance index now) : r'.calls[index]? = some call := by
  obtain calls | ⟨moving, now, call', step, turn, there, calls⟩ := moved.calls
  · obtain ⟨inside, value⟩ := List.getElem?_eq_some_iff.mp here
    exact value ▸ List.prefix_iff_getElem?.mp calls index inside
  · have other : moving ≠ index := by
      rintro rfl
      exact idle now turn
    rw [calls, Recorded.getElem?_move there, if_neg other]
    exact here

theorem Reached.follows (h : Reached layout notes d)
    (moved : d.step layout fromChars format label = some (d', note)) {index : Nat}
    {call : PublishCall} (here : d.runtime.calls[index]? = some call) :
    Follows d.runtime d'.runtime index call label := by
  by_cases turn : ∃ now, label = .advance index now
  · obtain ⟨now, rfl⟩ := turn
    obtain ⟨r, inner, rfl⟩ := runtimeStep_cases moved
    obtain ⟨⟨q, _⟩, advanced, same⟩ := Option.map_eq_some_iff.mp inner
    obtain ⟨call', there, advanced⟩ := Option.bind_eq_some_iff.mp advanced
    cases same
    cases here.symm.trans there
    have advances := Pipeline.advance_cases advanced
    obtain ⟨step, next, onTrack⟩ := h.sound.advance_onTrack here advances
    exact .steps rfl next advances.calls.1 onTrack
  · have idle : ∀ now, label ≠ .advance index now := fun now same => turn ⟨now, same⟩
    exact .rests idle ((step_cases moved).1.others here idle)

end Daemon

end EdgeSentinel
