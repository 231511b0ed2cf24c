import EdgeSentinel.Daemon.Projection

/-! Commands that report an error. `reset` clears the override and publishes two events
before it looks at any answer, so its error may come after some of its effects; every
other command looks first. -/
namespace EdgeSentinel

theorem Pipeline.result_eq {p : Pipeline} {index : Nat} {result : PublishResult} :
    p.result index = some result ↔
      ∃ event, p.calls[index]? = some { event, step := .returned result } := by
  unfold Pipeline.result
  split
  · rename_i event result' here
    simp [here]
  · rename_i other
    constructor
    · intro absurd
      contradiction
    · rintro ⟨event, here⟩
      exact absurd here (other event result)

theorem Pipeline.result_append {p q : Pipeline} {more : List PublishCall} {index : Nat}
    {result : PublishResult} (calls : q.calls = p.calls ++ more)
    (returned : p.result index = some result) : q.result index = some result := by
  obtain ⟨event, here⟩ := Pipeline.result_eq.mp returned
  refine Pipeline.result_eq.mpr ⟨event, ?_⟩
  rw [calls, List.getElem?_append_left (List.getElem?_eq_some_iff.mp here).1, here]

theorem mem_pushedCalls {notes : List Note} {index : Nat} {event : Event} :
    (index, event) ∈ pushedCalls notes ↔ .pushed index event ∈ notes := by
  rw [pushedCalls, List.mem_filterMap]
  constructor
  · rintro ⟨note, member, same⟩
    cases note with
    | pushed call event =>
      cases same
      exact member
    | _ => contradiction
  · intro member
    exact ⟨_, member, rfl⟩

namespace Daemon

/- In this step the call of `publish` finds the gate closed, the pool exhausted, or the
queue full or closed. -/
def loses (d : Daemon) (index : Nat) : DaemonLabel → Bool
  | .advance call _ =>
    call == index && d.runtime.calls[index]?.any fun call => d.runtime.fails call.step
  | _ => false

/- The first event of a reset is about to be lost. -/
def losesReset (d : Daemon) (label : DaemonLabel) : Bool :=
  match d.server with
  | .awaitingReset index => d.loses index label
  | _ => false

/- The second one is. -/
def losesSelfTest (d : Daemon) (label : DaemonLabel) : Bool :=
  match d.server with
  | .awaitingSelfTest _ index => d.loses index label
  | _ => false

/-- The calls of `publish` have pushed nothing, and the override is what it was. -/
def NoEffect (calls : List Nat) (notes : List Note) (d d' : Daemon) : Prop :=
  (∀ index ∈ calls, ∀ event, .pushed index event ∉ notes) ∧
    d'.sensor.override = d.sensor.override

section Deliveries

variable (layout : Layout) (fromChars : List UInt8 → Ipc.FromChars) (format : Double → List UInt8)

def KeepsReset (start : Daemon) (labels : List DaemonLabel) : Prop :=
  Exec.Always (Daemon.step layout fromChars format) (fun d label => d.losesReset label = false)
    start labels

def KeepsSelfTest (start : Daemon) (labels : List DaemonLabel) : Prop :=
  Exec.Always (Daemon.step layout fromChars format) (fun d label => d.losesSelfTest label = false)
    start labels

/-- The two events of a reset share their fate, and if both are lost then there was no
override to be cleared. -/
def KeepsTogether (start : Daemon) (labels : List DaemonLabel) : Prop :=
  KeepsReset layout fromChars format start labels ∧
      KeepsSelfTest layout fromChars format start labels ∨
    ¬ KeepsReset layout fromChars format start labels ∧
      ¬ KeepsSelfTest layout fromChars format start labels ∧ start.sensor.override = none

/- The labels are those of one call of `build_response`. -/
def WithinResponse (start : Daemon) (labels : List DaemonLabel) : Prop :=
  Exec.Always (Daemon.step layout fromChars format) (fun d _ => d.server.inResponse = true)
    start labels

end Deliveries

section Calls

variable {layout : Layout} {fromChars : List UInt8 → Ipc.FromChars} {format : Double → List UInt8}
  {d d' : Daemon} {note : Note} {notes : List Note} {label : DaemonLabel} {index : Nat}
  {result : PublishResult} {clear : Prop}

/-- The call is on track exactly if the run has been `clear` for it. -/
def Tracks (d : Daemon) (index : Nat) (clear : Prop) : Prop :=
  ∃ call, d.runtime.calls[index]? = some call ∧ (call.step.onTrack = true ↔ clear)

theorem Reached.tracks (h : Reached layout notes d)
    (moved : d.step layout fromChars format label = some (d', note))
    (tracks : d.Tracks index clear) : d'.Tracks index (clear ∧ d.loses index label = false) := by
  obtain ⟨call, here, onTrack⟩ := tracks
  cases h.follows moved here with
  | rests idle there =>
    have spared : d.loses index label = false := by
      cases label with
      | advance other now =>
        have ne : other ≠ index := by
          rintro rfl
          exact idle now rfl
        simp [loses, ne]
      | _ => rfl
    exact ⟨call, there, by simp [onTrack, spared]⟩
  | @steps now step turn there progress kept =>
    subst turn
    exact ⟨_, there, by simp [kept, onTrack, loses, here]⟩

theorem Tracks.delivered (tracks : d.Tracks index clear)
    (returned : d.runtime.result index = some result) : result = .published ↔ clear := by
  obtain ⟨call, here, onTrack⟩ := tracks
  obtain ⟨event, there⟩ := Pipeline.result_eq.mp returned
  cases here.symm.trans there
  rw [← onTrack]
  cases result <;> simp [PublishStep.onTrack]

theorem Reached.handOver (h : Reached layout notes d) (free : d.server = .accepting)
    (input : List UInt8) : Reached layout notes (d.handOver input) := by
  refine ⟨h.sound, fun early => ?_⟩
  cases free.symm.trans (h.early early)

/- A call that has returned stays as it is. -/
theorem Reached.keeps (h : Reached layout notes d)
    (moved : d.step layout fromChars format label = some (d', note))
    (returned : d.runtime.result index = some result) : d'.runtime.result index = some result := by
  obtain ⟨event, here⟩ := Pipeline.result_eq.mp returned
  cases h.follows moved here with
  | rests idle there => exact Pipeline.result_eq.mpr ⟨event, there⟩
  | steps turn there progress kept => contradiction

/-- A call made during a run has pushed its event in this run exactly if it says so. -/
theorem Reached.pushed_iff {past : List Note} (h : Reached layout past d)
    (h' : Reached layout (past ++ notes) d') (later : d.runtime.calls.length ≤ index)
    (returned : d'.runtime.result index = some result) :
    (∃ event, .pushed index event ∈ notes) ↔ result = .published := by
  obtain ⟨event, here⟩ := Pipeline.result_eq.mp returned
  have fresh : ∀ event, (index, event) ∉ pushedCalls past := by
    intro event member
    obtain ⟨call, there, -⟩ := (h.sound.recorded.known index event).mp member
    exact absurd (List.getElem?_eq_some_iff.mp there).1 (Nat.not_lt.mpr later)
  have known : ∀ event, .pushed index event ∈ notes ↔
      (index, event) ∈ pushedCalls (past ++ notes) := by
    intro event
    rw [← mem_pushedCalls, pushedCalls, pushedCalls, List.filterMap_append, List.mem_append]
    exact ⟨.inr, fun member => member.resolve_left (fresh event)⟩
  simp only [known, h'.sound.recorded.known, here]
  cases result <;> simp [PublishStep.landed]

end Calls

section Commands

variable {layout : Layout} {fromChars : List UInt8 → Ipc.FromChars} {format : Double → List UInt8}
  {start d d' : Daemon} {input : List UInt8} {reset selfTest : Prop} {note : Note}
  {notes : List Note} {label : DaemonLabel}

/-- How far `build_response` has come since the state `start`, and what it has changed.
The run has been `reset` and `selfTest` if it lost neither of those events. -/
inductive Progress (fromChars : List UInt8 → Ipc.FromChars) (start : Daemon) (input : List UInt8)
    (reset selfTest : Prop) (d : Daemon) : Prop where
  | building (stage : d.server = .building input)
      (same : d.sensor.override = start.sensor.override)
      (later : start.runtime.calls.length ≤ d.runtime.calls.length) (clear : reset ∧ selfTest)
  | awaitingReset {index : Nat} (stage : d.server = .awaitingReset index)
      (resets : (Ipc.parseCommand fromChars input).resets = true) (gone : d.sensor.override = none)
      (later : start.runtime.calls.length ≤ index) (tracks : d.Tracks index reset)
      (clear : selfTest)
  | awaitingSelfTest {earlier index : Nat} {first : PublishResult}
      (stage : d.server = .awaitingSelfTest earlier index)
      (resets : (Ipc.parseCommand fromChars input).resets = true) (gone : d.sensor.override = none)
      (later : start.runtime.calls.length ≤ earlier ∧ start.runtime.calls.length ≤ index)
      (returned : d.runtime.result earlier = some first) (delivered : first = .published ↔ reset)
      (tracks : d.Tracks index selfTest)
  | awaitingShutdown {index : Nat} (stage : d.server = .awaitingShutdown index)
      (other : (Ipc.parseCommand fromChars input).resets = false)
      (same : d.sensor.override = start.sensor.override)
      (later : start.runtime.calls.length ≤ index)
  | answered {response : List UInt8} (stage : d.server = .responding [] response)
      (other : (Ipc.parseCommand fromChars input).resets = false)
      (harmless : Ipc.literal "error=" <+: response → d.sensor.override = start.sensor.override)
  | reset {earlier index : Nat} {first second : PublishResult}
      (stage : d.server = .responding [earlier, index]
        (delivery "ok=reset_requested" [first, second]))
      (resets : (Ipc.parseCommand fromChars input).resets = true) (gone : d.sensor.override = none)
      (later : start.runtime.calls.length ≤ earlier ∧ start.runtime.calls.length ≤ index)
      (returned : d.runtime.result earlier = some first ∧ d.runtime.result index = some second)
      (delivered : (first = .published ↔ reset) ∧ (second = .published ↔ selfTest))
  | shutdown {index : Nat} {result : PublishResult}
      (stage : d.server = .responding [index] (delivery "ok=shutdown_requested" [result]))
      (other : (Ipc.parseCommand fromChars input).resets = false)
      (same : d.sensor.override = start.sensor.override)
      (later : start.runtime.calls.length ≤ index)
      (returned : d.runtime.result index = some result)

/- A new call of `publish` is on track. -/
theorem tracks_publish (d : Daemon) (event : Event) (server : ServerStep)
    (sensor : SimulatedSensor) {clear : Prop} (holds : clear) :
    ({ d.publish event with server, sensor } : Daemon).Tracks d.runtime.calls.length clear := by
  refine ⟨{ event }, List.getElem?_concat_length, ?_⟩
  exact ⟨fun _ => holds, fun _ => rfl⟩

theorem Progress.serve (h : Progress fromChars start input reset selfTest d)
    (busy : d.server.inResponse = true) (moved : Serves fromChars d d.server d') :
    Progress fromChars start input reset selfTest d' := by
  cases h with
  | building stage same later clear =>
    rw [stage] at moved
    cases moved with
    | turns present outside => contradiction
    | builds built =>
      cases built with
      | answers other => exact .answered rfl other fun _ => same
      | overrides other success => exact .answered rfl other fun error => absurd error success
      | resets resets =>
        exact .awaitingReset rfl resets rfl later (tracks_publish d _ _ _ clear.1) clear.2
      | shutsDown other => exact .awaitingShutdown rfl other same later
  | @awaitingReset index stage resets gone later tracks clear =>
    rw [stage] at moved
    cases moved with
    | turns present outside => contradiction
    | proceeds returned =>
      have ⟨call, here, _⟩ := tracks
      have inside : index < d.runtime.calls.length := (List.getElem?_eq_some_iff.mp here).1
      exact .awaitingSelfTest rfl resets gone ⟨later, (later.trans_lt inside).le⟩
        (Pipeline.result_append rfl returned) (tracks.delivered returned)
        (tracks_publish d _ _ _ clear)
  | awaitingSelfTest stage resets gone later returned delivered tracks =>
    rw [stage] at moved
    cases moved with
    | turns present outside => contradiction
    | reports earlier second =>
      cases returned.symm.trans earlier
      exact .reset rfl resets gone later ⟨returned, second⟩ ⟨delivered, tracks.delivered second⟩
  | awaitingShutdown stage other same later =>
    rw [stage] at moved
    cases moved with
    | turns present outside => contradiction
    | closes returned => exact .shutdown rfl other same later returned
  | answered stage => simp [stage, ServerStep.inResponse] at busy
  | reset stage => simp [stage, ServerStep.inResponse] at busy
  | shutdown stage => simp [stage, ServerStep.inResponse] at busy

/-- One step of the daemon while `build_response` runs. -/
theorem Progress.step (h : Progress fromChars start input reset selfTest d)
    (reached : Reached layout notes d) (busy : d.server.inResponse = true)
    (moved : d.step layout fromChars format label = some (d', note)) :
    Progress fromChars start input (reset ∧ d.losesReset label = false)
      (selfTest ∧ d.losesSelfTest label = false) d' := by
  obtain ⟨projects, meets⟩ := step_cases moved
  cases meets with
  | serves served =>
    have spared : d.losesReset .serve = false ∧ d.losesSelfTest .serve = false := by
      unfold losesReset losesSelfTest
      constructor <;> split <;> rfl
    simpa only [spared, and_true] using h.serve busy served
  | accepts stage main => simp [stage, ServerStep.inResponse] at busy
  | spawns stage main =>
    have absent := reached.early (by rw [stage]; rfl)
    simp [absent, ServerStep.inResponse] at busy
  | leaves server override main =>
    cases h with
    | building stage same later clear =>
      refine .building (server.trans stage) (override.trans same)
        (later.trans projects.length_le) ?_
      simpa [losesReset, losesSelfTest, stage] using clear
    | awaitingReset stage resets gone later tracks clear =>
      have tracks := reached.tracks moved tracks
      refine .awaitingReset (server.trans stage) resets (override.trans gone) later ?_ ?_
      · simpa [losesReset, stage] using tracks
      · simpa [losesSelfTest, stage] using clear
    | awaitingSelfTest stage resets gone later returned delivered tracks =>
      have tracks := reached.tracks moved tracks
      refine .awaitingSelfTest (server.trans stage) resets (override.trans gone) later
        (reached.keeps moved returned) ?_ ?_
      · simpa [losesReset, stage] using delivered
      · simpa [losesSelfTest, stage] using tracks
    | awaitingShutdown stage other same later =>
      exact .awaitingShutdown (server.trans stage) other (override.trans same) later
    | answered stage => simp [stage, ServerStep.inResponse] at busy
    | reset stage => simp [stage, ServerStep.inResponse] at busy
    | shutdown stage => simp [stage, ServerStep.inResponse] at busy

theorem run_progress {past : List Note} (reached : Reached layout past start)
    (ready : start.server = .building input) {labels : List DaemonLabel}
    (history : Exec.run (Daemon.step layout fromChars format) start labels = some (d, notes))
    (within : WithinResponse layout fromChars format start labels) :
    Progress fromChars start input (KeepsReset layout fromChars format start labels)
      (KeepsSelfTest layout fromChars format start labels) d := by
  have first : Progress fromChars start input True True start :=
    .building ready rfl le_rfl ⟨trivial, trivial⟩
  refine Exec.past_induction
    (P := fun labels _ d => WithinResponse layout fromChars format start labels →
      Progress fromChars start input (KeepsReset layout fromChars format start labels)
        (KeepsSelfTest layout fromChars format start labels) d)
    (fun _ => first) ?_ history within
  intro labels notes t label u note past progress moved within
  obtain ⟨before, busy⟩ := (Exec.always_concat past).mp within
  rw [KeepsReset, KeepsSelfTest, Exec.always_concat past, Exec.always_concat past]
  exact (progress before).step (reached.run past) busy moved

theorem delivery_error {success : String} (other : ¬ Ipc.literal "error=" <+: Ipc.literal success)
    (results : List PublishResult) :
    Ipc.literal "error=" <+: delivery success results ↔
      ∃ result ∈ results, result ≠ .published := by
  unfold delivery
  split
  · rename_i all
    refine ⟨fun error => absurd error other, ?_⟩
    rintro ⟨result, member, failed⟩
    exact absurd (of_decide_eq_true (List.all_eq_true.mp all result member)) failed
  · rename_i failed
    exact ⟨fun _ => by simpa using failed, fun _ => by decide⟩

/-- What a reset leaves behind its answer, by the two answers it got. -/
theorem reset_effect {past : List Note} (reached : Reached layout past start)
    (finish : Reached layout (past ++ notes) d) {earlier index : Nat}
    {first second : PublishResult}
    (later : start.runtime.calls.length ≤ earlier ∧ start.runtime.calls.length ≤ index)
    (returned : d.runtime.result earlier = some first ∧ d.runtime.result index = some second)
    (gone : d.sensor.override = none) :
    (Ipc.literal "error=" <+: delivery "ok=reset_requested" [first, second] →
      NoEffect [earlier, index] notes start d) ↔
    first = .published ∧ second = .published ∨
      first ≠ .published ∧ second ≠ .published ∧ start.sensor.override = none := by
  have failed : Ipc.literal "error=" <+: delivery "ok=reset_requested" [first, second] ↔
      ¬ (first = .published ∧ second = .published) := by
    rw [delivery_error (by decide)]
    simp [imp_iff_not_or]
  have quiet : (∀ i ∈ [earlier, index], ∀ event, .pushed i event ∉ notes) ↔
      first ≠ .published ∧ second ≠ .published := by
    rw [ne_eq, ne_eq, ← reached.pushed_iff finish later.1 returned.1,
      ← reached.pushed_iff finish later.2 returned.2]
    simp
  rw [failed, NoEffect, quiet, gone]
  constructor
  · intro effect
    by_cases both : first = .published ∧ second = .published
    · exact .inl both
    · obtain ⟨⟨noReset, noSelfTest⟩, same⟩ := effect both
      exact .inr ⟨noReset, noSelfTest, same.symm⟩
  · rintro (both | ⟨noReset, noSelfTest, empty⟩) lost
    · exact absurd both lost
    · exact ⟨⟨noReset, noSelfTest⟩, empty.symm⟩

end Commands

/-- Errors without effect, call by call: a response `error=` means that the call of
`build_response` pushed nothing and left the override alone, for every command but
`reset`. A reset keeps this exactly if it loses neither of its two events, or both of
them when there was no override to clear. -/
theorem error_without_effect_iff (layout : Layout) (fromChars : List UInt8 → Ipc.FromChars)
    (format : Double → List UInt8) (before labels : List DaemonLabel) (d d' : Daemon)
    (past notes : List Note)
    (reached : Exec.run (Daemon.step layout fromChars format) initial before = some (d, past))
    (free : d.server = .accepting) (input : List UInt8)
    (history : Exec.run (Daemon.step layout fromChars format) (d.handOver input) labels =
      some (d', notes))
    (within : WithinResponse layout fromChars format (d.handOver input) labels)
    (calls : List Nat) (response : List UInt8)
    (answered : d'.server = .responding calls response) :
    (Ipc.literal "error=" <+: response → NoEffect calls notes d d') ↔
      ((Ipc.parseCommand fromChars input).resets = true →
        KeepsTogether layout fromChars format (d.handOver input) labels) := by
  have start : Reached layout past (d.handOver input) :=
    (reached_initial.run reached).handOver free input
  have finish := start.run history
  cases run_progress start rfl history within with
  | building stage => cases stage.symm.trans answered
  | awaitingReset stage => cases stage.symm.trans answered
  | awaitingSelfTest stage => cases stage.symm.trans answered
  | awaitingShutdown stage => cases stage.symm.trans answered
  | answered stage other harmless =>
    cases stage.symm.trans answered
    rw [other]
    exact ⟨fun _ => nofun, fun _ error => ⟨nofun, harmless error⟩⟩
  | @shutdown index result stage other same later returned =>
    cases stage.symm.trans answered
    rw [other]
    refine ⟨fun _ => nofun, fun _ error => ⟨?_, same⟩⟩
    obtain ⟨_, member, failed⟩ := (delivery_error (by decide) _).mp error
    cases List.mem_singleton.mp member
    intro index member event pushed
    cases List.mem_singleton.mp member
    exact failed ((start.pushed_iff finish later returned).mp ⟨event, pushed⟩)
  | @reset earlier index first second stage resets gone later returned delivered =>
    cases stage.symm.trans answered
    have effect := reset_effect start finish later returned gone
    rw [ne_eq, ne_eq, delivered.1, delivered.2] at effect
    exact effect.trans ⟨fun kept _ => kept, fun kept => kept resets⟩

/- The daemon from its start to the first client. -/
def opening : List DaemonLabel :=
  List.replicate 5 .main ++ List.replicate 4 (.advance 0 0) ++ [.main] ++
    List.replicate 4 (.advance 1 0) ++ List.replicate 5 .main ++ [.serve]

/- A reset whose calls of `publish` take so many steps. -/
def resetting (first steps more : Nat) : List DaemonLabel :=
  .serve :: List.replicate steps (.advance first 0) ++
    (.serve :: List.replicate more (.advance (first + 1) 0) ++ [.serve])

/- No number is read or written below. -/
def noNumber : List UInt8 → Ipc.FromChars := fun _ => ⟨false, 0, .nan⟩

def noText : Double → List UInt8 := fun _ => []

theorem error_without_effect_iff_delivered :
    ∃ d past d' notes,
      Exec.run (Daemon.step EdgeRuntime.unitLayout noNumber noText) initial opening =
        some (d, past) ∧
      d.server = .accepting ∧
      Exec.run (Daemon.step EdgeRuntime.unitLayout noNumber noText)
        (d.handOver (Ipc.literal "reset\n")) (resetting 2 4 4) = some (d', notes) ∧
      d'.server = .responding [2, 3] (Ipc.literal "ok=reset_requested") ∧
      KeepsTogether EdgeRuntime.unitLayout noNumber noText
        (d.handOver (Ipc.literal "reset\n")) (resetting 2 4 4) := by
  have outcome : (Exec.run (Daemon.step EdgeRuntime.unitLayout noNumber noText) initial
      opening).any (fun (d, _) => d.server = .accepting ∧
        Exec.Always (Daemon.step EdgeRuntime.unitLayout noNumber noText)
          (fun t _ => t.server.inResponse = true) (d.handOver (Ipc.literal "reset\n"))
          (resetting 2 4 4) ∧
        (Exec.run (Daemon.step EdgeRuntime.unitLayout noNumber noText)
          (d.handOver (Ipc.literal "reset\n")) (resetting 2 4 4)).any (fun (d', _) =>
            d'.server = .responding [2, 3] (Ipc.literal "ok=reset_requested")) = true) = true := by
    decide +kernel
  obtain ⟨⟨d, past⟩, reached, facts⟩ := (Option.any_eq_true _ _).mp outcome
  obtain ⟨free, within, ends⟩ := of_decide_eq_true facts
  obtain ⟨⟨d', notes⟩, history, answered⟩ := (Option.any_eq_true _ _).mp ends
  have answered := of_decide_eq_true answered
  have together := error_without_effect_iff EdgeRuntime.unitLayout noNumber noText opening
    (resetting 2 4 4) d d' past notes reached free (Ipc.literal "reset\n") history within [2, 3]
    (Ipc.literal "ok=reset_requested") answered
  exact ⟨d, past, d', notes, reached, free, history, answered,
    together.mp (fun error => absurd error (by decide)) (by decide)⟩

end Daemon

end EdgeSentinel
