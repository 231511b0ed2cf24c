import EdgeSentinel.Daemon.Response
import EdgeSentinel.Daemon.Steps
import EdgeSentinel.Runtime.Startup
import EdgeSentinel.Runtime.Threads

/-! Who calls `publish` in the daemon. Its three threads wait for every call they make, so
at most three calls are in flight, the runtime is open while any but the sensor's is, and
the only way for an event to get lost is a queue that stays full. -/
namespace EdgeSentinel

inductive Caller where
  | main
  | sensor
  | server
  deriving DecidableEq, Repr

def StopCall.awaited (c : StopCall) : Option Nat :=
  if c.step = .publishing then some c.call else none

def SensorStep.awaited : SensorStep → Option Nat
  | .awaiting call => some call
  | _ => none

def ServerStep.awaited : ServerStep → Option Nat
  | .awaitingReset call | .awaitingSelfTest _ call | .awaitingShutdown call => some call
  | _ => none

/-- Every call in flight has a thread that waits for it, and only the sensor's thread
publishes samples. -/
structure Attended (awaits : Caller → Option Nat) (calls : List PublishCall) : Prop where
  heard : ∀ (i : Nat) call, calls[i]? = some call → call.step.isReturned = false →
    ∃ caller, awaits caller = some i
  known : ∀ caller i, awaits caller = some i →
    ∃ call, calls[i]? = some call ∧ (call.event.kind = .sensorSample ↔ caller = .sensor)

namespace Attended

variable {awaits awaits' : Caller → Option Nat} {calls : List PublishCall} {caller : Caller}

/-- A thread has its answer and waits no more. -/
theorem free (h : Attended awaits calls) (caller : Caller)
    (others : ∀ other, other ≠ caller → awaits' other = awaits other)
    (idle : awaits' caller = none)
    (done : ∀ i, awaits caller = some i →
      ∀ call, calls[i]? = some call → call.step.isReturned = true) :
    Attended awaits' calls := by
  constructor
  · intro i call here moving
    obtain ⟨waiting, awaited⟩ := h.heard i call here moving
    refine ⟨waiting, ?_⟩
    rw [others waiting ?_, awaited]
    rintro rfl
    rw [done i awaited call here] at moving
    contradiction
  · intro waiting i awaited
    have other : waiting ≠ caller := by
      rintro rfl
      rw [idle] at awaited
      contradiction
    rw [others waiting other] at awaited
    exact h.known waiting i awaited

/-- A thread that waits for nothing makes a call. -/
theorem make (h : Attended awaits calls) (caller : Caller) (event : Event)
    (kind : event.kind = .sensorSample ↔ caller = .sensor)
    (others : ∀ other, other ≠ caller → awaits' other = awaits other)
    (now : awaits' caller = some calls.length)
    (done : ∀ i, awaits caller = some i →
      ∀ call, calls[i]? = some call → call.step.isReturned = true) :
    Attended awaits' (calls ++ [{ event := event }]) := by
  constructor
  · intro i call here moving
    rcases Nat.lt_or_ge i calls.length with old | new
    · rw [List.getElem?_append_left old] at here
      obtain ⟨waiting, awaited⟩ := h.heard i call here moving
      refine ⟨waiting, ?_⟩
      rw [others waiting ?_, awaited]
      rintro rfl
      rw [done i awaited call here] at moving
      contradiction
    · have last : i = calls.length := by
        have inside := (List.getElem?_eq_some_iff.mp here).1
        rw [List.length_append, List.length_singleton] at inside
        omega
      exact ⟨caller, last ▸ now⟩
  · intro waiting i awaited
    by_cases other : waiting = caller
    · subst other
      cases now.symm.trans awaited
      exact ⟨_, List.getElem?_concat_length, kind⟩
    · rw [others waiting other] at awaited
      obtain ⟨call, here, kinds⟩ := h.known waiting i awaited
      have inside := (List.getElem?_eq_some_iff.mp here).1
      exact ⟨call, (List.getElem?_append_left inside).trans here, kinds⟩

theorem move (h : Attended awaits calls) {index : Nat} {call : PublishCall}
    (here : calls[index]? = some call) (moving : call.step.isReturned = false)
    (step : PublishStep) : Attended awaits (calls.set index { call with step }) := by
  constructor
  · intro i call' there moving'
    rw [Recorded.getElem?_move here] at there
    split at there
    · rename_i same
      exact same ▸ h.heard index call here moving
    · exact h.heard i call' there moving'
  · intro waiting i awaited
    obtain ⟨call', there, kinds⟩ := h.known waiting i awaited
    rw [Recorded.getElem?_move here]
    split
    · rename_i same
      subst same
      cases here.symm.trans there
      exact ⟨_, rfl, kinds⟩
    · exact ⟨call', there, kinds⟩

/-- Three threads, three calls. -/
theorem inFlight_le (h : Attended awaits calls) :
    calls.countP (fun call => !call.step.isReturned) ≤ 3 := by
  have found : ∀ (i : Nat) call, calls[i]? = some call → (!call.step.isReturned) = true →
      i ∈ [Caller.main, .sensor, .server].filterMap awaits := by
    intro i call here moving
    obtain ⟨caller, awaited⟩ := h.heard i call here (by simpa using moving)
    exact List.mem_filterMap.mpr ⟨caller, by cases caller <;> simp, awaited⟩
  exact (List.countP_le_of_positions found).trans (List.length_filterMap_le _ _)

end Attended

/- Behind the end of the server's thread. -/
def MainStep.isLast : MainStep → Bool
  | .stopping | .exited => true
  | _ => false

namespace Daemon

/- The call of `publish` that a thread waits for. -/
def awaits (d : Daemon) : Caller → Option Nat
  | .main =>
    match d.main with
    | .starting => d.runtime.start.bind fun s => s.awaited.map Prod.fst
    | .awaiting call => some call
    | .stopping => d.runtime.stop.bind StopCall.awaited
    | _ => none
  | .sensor => d.runtime.sensor.awaited
  | .server => d.server.awaited

/-- The order of the daemon's life: the runtime is started before the server and
stopped behind it. -/
structure Ordered (d : Daemon) : Prop where
  begun : d.main ≠ .starting → d.runtime.start = some .returned
  unstopped : d.main.isLast = false → d.runtime.stop = none
  ended : d.main = .exited → ∃ c, d.runtime.stop = some c ∧ c.step = .returned
  early : d.main.early = true → d.server = .absent
  present : d.main.early = false → d.main.isLast = false → d.server ≠ .absent
  told : d.main = .joiningServer → d.serverStop = true
  gone : d.main.isLast = true → d.server = .absent ∨ d.server = .exited

theorem ordered_initial : Ordered initial where
  begun running := absurd rfl running
  unstopped _ := rfl
  ended := nofun
  early _ := rfl
  present := nofun
  told := nofun
  gone := nofun

section Order

variable {layout : Layout} {fromChars : List UInt8 → Ipc.FromChars} {format : Double → List UInt8}
  {d d' : Daemon} {note : Note} {notes : List Note} {label : DaemonLabel}

/- The main thread rests, and the server's neither appears nor comes back. -/
theorem Ordered.frame (h : Ordered d) (main : d'.main = d.main)
    (start : d'.runtime.start = d.runtime.start) (stop : d'.runtime.stop = d.runtime.stop)
    (told : d'.serverStop = d.serverStop) (absent : d'.server = .absent ↔ d.server = .absent)
    (exited : d.server = .exited → d'.server = .exited) : Ordered d' := by
  refine ⟨?_, ?_, ?_, ?_, ?_, ?_, ?_⟩
  · rw [main, start]
    exact h.begun
  · rw [main, stop]
    exact h.unstopped
  · rw [main, stop]
    exact h.ended
  · rw [main, absent]
    exact h.early
  · rw [main, Ne, absent]
    exact h.present
  · rw [main, told]
    exact h.told
  · rw [main]
    intro last
    exact (h.gone last).imp absent.mpr exited

/- A step of the server's thread, which is there and has not left. -/
theorem Ordered.serves (h : Ordered d) (main : d'.main = d.main)
    (start : d'.runtime.start = d.runtime.start) (stop : d'.runtime.stop = d.runtime.stop)
    (told : d'.serverStop = d.serverStop) (before : d.server ≠ .absent ∧ d.server ≠ .exited)
    (after : d'.server ≠ .absent) : Ordered d' :=
  h.frame main start stop told ⟨fun absent => absurd absent after, fun absent =>
    absurd absent before.1⟩ fun exited => absurd exited before.2

theorem Ordered.leads (h : Ordered d) (moved : Leads d d') : Ordered d' := by
  cases moved with
  | starts stage under taken =>
    have unstopped := h.unstopped (by rw [stage]; rfl)
    have early := h.early (by rw [stage]; rfl)
    exact ⟨fun running => absurd stage running, fun _ => taken.calls.2.trans unstopped,
      by simp [stage], fun _ => early, by simp [stage, MainStep.early], by simp [stage],
      by simp [stage, MainStep.isLast]⟩
  | started stage done =>
    exact ⟨fun _ => done, fun _ => h.unstopped (by rw [stage]; rfl), nofun,
      fun _ => h.early (by rw [stage]; rfl), nofun, nofun, nofun⟩
  | spawns stage =>
    exact ⟨fun _ => h.begun (by simp [stage]), fun _ => h.unstopped (by rw [stage]; rfl), nofun,
      nofun, fun _ _ => nofun, nofun, nofun⟩
  | watches stage => exact h
  | tellsServer stage =>
    exact ⟨fun _ => h.begun (by simp [stage]), fun _ => h.unstopped (by rw [stage]; rfl), nofun,
      nofun, fun _ _ => h.present (by rw [stage]; rfl) (by rw [stage]; rfl), fun _ => rfl, nofun⟩
  | joinsServer stage gone =>
    exact ⟨fun _ => h.begun (by simp [stage]), nofun, nofun, nofun, nofun, nofun,
      fun _ => .inr gone⟩
  | @stops r stage under taken =>
    have started : r.start = some .returned := by
      have before := h.begun (by simp [stage])
      cases EdgeRuntime.stopStep_cases taken with
      | unstarted absent => exact before
      | requests started unstopped => exact started
      | stops current moved => exact moved.start.trans before
    exact ⟨fun _ => started, by simp [stage, MainStep.isLast], by simp [stage],
      by simp [stage, MainStep.early], by simp [stage, MainStep.isLast], by simp [stage],
      fun _ => h.gone (by rw [stage]; rfl)⟩
  | exits stage current done =>
    exact ⟨fun _ => h.begun (by simp [stage]), nofun, fun _ => ⟨_, current, done⟩, nofun, nofun,
      nofun, fun _ => h.gone (by rw [stage]; rfl)⟩
  | _ stage =>
    exact ⟨fun _ => h.begun (by simp [stage]), fun _ => h.unstopped (by rw [stage]; rfl), nofun,
      nofun, fun _ _ => h.present (by rw [stage]; rfl) (by rw [stage]; rfl), nofun, nofun⟩

theorem Builds.frame {parsed : Ipc.ParseResult} (built : Builds parsed d d') :
    d'.main = d.main ∧ d'.runtime.start = d.runtime.start ∧ d'.runtime.stop = d.runtime.stop ∧
      d'.serverStop = d.serverStop ∧ d'.server ≠ .absent := by
  cases built <;> exact ⟨rfl, rfl, rfl, rfl, nofun⟩

theorem Ordered.step (h : Ordered d)
    (moved : d.step layout fromChars format label = some (d', note)) : Ordered d' := by
  cases step_steps moved with
  | leads taken => exact h.leads taken
  | serverFails stage =>
    exact ⟨fun _ => h.begun (by simp [stage]), nofun, nofun, nofun, nofun, nofun,
      fun _ => .inl (h.early (by rw [stage]; rfl))⟩
  | builds stage built =>
    obtain ⟨main, start, stop, told, after⟩ := built.frame
    exact h.serves main start stop told (by simp [stage]) after
  | polls stage =>
    refine h.serves rfl rfl rfl rfl (by simp [stage]) ?_
    dsimp only
    split <;> exact nofun
  | accepts stage entered =>
    refine h.serves rfl rfl rfl rfl (by simp [stage]) ?_
    rcases entered with rfl | ⟨response, rfl⟩ | ⟨command, rfl⟩ <;> exact nofun
  | idles stage => exact h.serves rfl rfl rfl rfl (by simp [stage]) nofun
  | proceeds stage returned => exact h.serves rfl rfl rfl rfl (by simp [stage]) nofun
  | reports stage earlier returned => exact h.serves rfl rfl rfl rfl (by simp [stage]) nofun
  | closes stage returned => exact h.serves rfl rfl rfl rfl (by simp [stage]) nofun
  | responds stage => exact h.serves rfl rfl rfl rfl (by simp [stage]) nofun
  | senses taken =>
    exact h.frame rfl taken.start taken.calls.2 rfl Iff.rfl id
  | monitors taken => exact h.frame rfl taken.start taken.calls.2 rfl Iff.rfl id
  | _ => exact h.frame rfl rfl rfl rfl Iff.rfl id

end Order

section Calls

variable {layout : Layout} {fromChars : List UInt8 → Ipc.FromChars} {format : Double → List UInt8}
  {d d' : Daemon} {note : Note} {notes : List Note} {label : DaemonLabel}

/- Every call in flight is awaited by one of the three threads. -/
def Waits (d : Daemon) : Prop := Attended d.awaits d.runtime.calls

theorem waits_initial : Waits initial := by
  constructor
  · intro i call absent
    contradiction
  · intro caller i awaited
    cases caller <;> contradiction

/- The thread has the answer that it waits for, if it waits at all. -/
def Served (d : Daemon) (caller : Caller) : Prop :=
  ∀ i, d.awaits caller = some i →
    ∀ call, d.runtime.calls[i]? = some call → call.step.isReturned = true

theorem served_idle {caller : Caller} (idle : d.awaits caller = none) : d.Served caller := by
  intro i awaited
  rw [idle] at awaited
  contradiction

theorem served_returned {caller : Caller} {index : Nat} (awaited : d.awaits caller = some index)
    (returned : d.runtime.hasReturned index = true) : d.Served caller := by
  intro i awaited' call here
  cases awaited.symm.trans awaited'
  exact EdgeRuntime.isReturned_of_hasReturned returned here

/-- A step of one thread that makes no call. -/
theorem Waits.free (h : Waits d) (caller : Caller) (calls : d'.runtime.calls = d.runtime.calls)
    (served : d.Served caller) (idle : d'.awaits caller = none)
    (others : ∀ other, other ≠ caller → d'.awaits other = d.awaits other) : Waits d' := by
  rw [Waits, calls]
  exact Attended.free h caller others idle served

/-- A step of one thread that makes a call. -/
theorem Waits.make (h : Waits d) (caller : Caller) (event : Event)
    (calls : d'.runtime.calls = d.runtime.calls ++ [{ event := event }])
    (kind : event.kind = .sensorSample ↔ caller = .sensor) (served : d.Served caller)
    (now : d'.awaits caller = some d.runtime.calls.length)
    (others : ∀ other, other ≠ caller → d'.awaits other = d.awaits other) : Waits d' := by
  rw [Waits, calls]
  exact Attended.make h caller event kind others now served

/- A step of one thread does not change what the others wait for. -/
theorem others_main (sensor : d'.runtime.sensor.awaited = d.runtime.sensor.awaited)
    (server : d'.server.awaited = d.server.awaited) (other : Caller) (ne : other ≠ .main) :
    d'.awaits other = d.awaits other := by
  cases other with
  | main => contradiction
  | sensor => exact sensor
  | server => exact server

theorem others_sensor (main : d'.main = d.main) (start : d'.runtime.start = d.runtime.start)
    (stop : d'.runtime.stop = d.runtime.stop) (server : d'.server = d.server) (other : Caller)
    (ne : other ≠ .sensor) : d'.awaits other = d.awaits other := by
  cases other with
  | main => simp only [awaits, main, start, stop]
  | sensor => contradiction
  | server => simp only [awaits, server]

theorem others_server (main : d'.main = d.main) (start : d'.runtime.start = d.runtime.start)
    (stop : d'.runtime.stop = d.runtime.stop) (sensor : d'.runtime.sensor = d.runtime.sensor)
    (other : Caller) (ne : other ≠ .server) : d'.awaits other = d.awaits other := by
  cases other with
  | main => simp only [awaits, main, start, stop]
  | sensor => simp only [awaits, sensor]
  | server => contradiction

theorem awaits_starting (stage : d.main = .starting) :
    d.awaits .main = d.runtime.start.bind fun s => s.awaited.map Prod.fst := by
  simp only [awaits, stage]

theorem awaits_stopping (stage : d.main = .stopping) :
    d.awaits .main = d.runtime.stop.bind StopCall.awaited := by
  simp only [awaits, stage]

theorem Waits.starts (h : Waits d) (threads : d.runtime.Threads) (stage : d.main = .starting)
    {r : EdgeRuntime} (under : d.runtime.start ≠ some .returned)
    (moved : EdgeRuntime.Starts d.runtime r) : Waits { d with runtime := r } := by
  have before := awaits_starting stage
  have after : ({ d with runtime := r } : Daemon).awaits .main =
      r.start.bind fun s => s.awaited.map Prod.fst := awaits_starting stage
  cases moved with
  | callsStartup early =>
    rw [early] at before
    exact h.make .main .startup rfl (by decide) (served_idle before) after (others_main rfl rfl)
  | callsSelfTest early returned =>
    rw [early] at before
    exact h.make .main .selfTestPassed rfl (by decide)
      (served_returned before returned) after (others_main rfl rfl)
  | tested early returned =>
    rw [early] at before
    exact h.free .main rfl (served_returned before returned) after (others_main rfl rfl)
  | spawnsSensor early =>
    rw [early] at before
    have absent : d.runtime.sensor = .absent := by
      apply threads.unspawned
      intro s started
      cases early.symm.trans started
      rfl
    exact h.free .main rfl (served_idle before) after (others_main (by rw [absent]; rfl) rfl)
  | again early => exact absurd early under
  | _ early =>
    rw [early] at before
    exact h.free .main rfl (served_idle before) after (others_main rfl rfl)

theorem Waits.leads (h : Waits d) (ordered : Ordered d) (threads : d.runtime.Threads)
    (moved : Leads d d') : Waits d' := by
  cases moved with
  | starts stage under taken => exact h.starts threads stage under taken
  | started stage done =>
    have before := awaits_starting stage
    rw [done] at before
    exact h.free .main rfl (served_idle before) rfl (others_main rfl rfl)
  | spawns stage =>
    have absent := ordered.early (by rw [stage]; rfl)
    have idle : d.awaits .main = none := by simp [awaits, stage]
    exact h.free .main rfl (served_idle idle) rfl (others_main rfl (by rw [absent]; rfl))
  | watches stage => exact h
  | requests stage signalled =>
    have idle : d.awaits .main = none := by simp [awaits, stage]
    exact h.make .main .shutdownRequested rfl (by decide) (served_idle idle) rfl
      (others_main rfl rfl)
  | @requested index stage returned =>
    have awaited : d.awaits .main = some index := by simp only [awaits, stage]
    exact h.free .main rfl (served_returned awaited returned) rfl (others_main rfl rfl)
  | joinsServer stage gone =>
    have idle : d.awaits .main = none := by simp [awaits, stage]
    have unstopped := ordered.unstopped (by rw [stage]; rfl)
    have after : ({ d with main := .stopping } : Daemon).awaits .main = none := by
      simp [awaits, unstopped]
    exact h.free .main rfl (served_idle idle) after (others_main rfl rfl)
  | @stops r stage under taken =>
    have before := awaits_stopping stage
    have after : ({ d with runtime := r } : Daemon).awaits .main =
        r.stop.bind StopCall.awaited := awaits_stopping stage
    cases EdgeRuntime.stopStep_cases taken with
    | unstarted absent => exact h
    | requests started unstopped =>
      rw [unstopped] at before
      exact h.make .main .shutdownRequested rfl (by decide) (served_idle before) after
        (others_main rfl rfl)
    | @stops c r current halts =>
      rw [current] at before
      cases halts with
      | published early returned =>
        have awaited : d.awaits .main = some c.call := by
          rw [before, Option.bind_some, StopCall.awaited, if_pos early]
        exact h.free .main rfl (served_returned awaited returned) after (others_main rfl rfl)
      | again early => exact h
      | _ early =>
        have idle : d.awaits .main = none := by
          rw [before, Option.bind_some, StopCall.awaited, if_neg (by simp [early])]
        exact h.free .main rfl (served_idle idle) after (others_main rfl rfl)
  | exits stage current done =>
    have before := awaits_stopping stage
    rw [current, Option.bind_some, StopCall.awaited, if_neg (by simp [done])] at before
    exact h.free .main rfl (served_idle before) rfl (others_main rfl rfl)
  | _ stage =>
    have idle : d.awaits .main = none := by simp [awaits, stage]
    exact h.free .main rfl (served_idle idle) rfl (others_main rfl rfl)

/- What `build_response` does before it waits. -/
theorem Waits.builds (h : Waits d) {input : List UInt8} (stage : d.server = .building input)
    {parsed : Ipc.ParseResult} (built : Builds parsed d d') : Waits d' := by
  have idle : d.awaits .server = none := by simp [awaits, stage, ServerStep.awaited]
  cases built with
  | resets reset =>
    exact h.make .server .resetRequested rfl (by decide) (served_idle idle) rfl
      (others_server rfl rfl rfl rfl)
  | shutsDown other =>
    exact h.make .server .shutdownRequested rfl (by decide) (served_idle idle) rfl
      (others_server rfl rfl rfl rfl)
  | _ => exact h.free .server rfl (served_idle idle) rfl (others_server rfl rfl rfl rfl)

theorem Waits.senses (h : Waits d) {r : EdgeRuntime} {sensor : SimulatedSensor}
    {sample : SensorSample} (moved : EdgeRuntime.Senses d.runtime sample r) :
    Waits { d with sensor, runtime := r } := by
  cases moved with
  | exits stage stopped =>
    have idle : d.awaits .sensor = none := by
      rcases stage with stage | stage <;> simp [awaits, stage, SensorStep.awaited]
    exact h.free .sensor rfl (served_idle idle) rfl (others_sensor rfl rfl rfl rfl)
  | publishes stage present running =>
    have idle : d.awaits .sensor = none := by simp [awaits, stage, SensorStep.awaited]
    exact h.make .sensor (.sensorSample sample) rfl (by simp [Event.sensorSample])
      (served_idle idle) rfl (others_sensor rfl rfl rfl rfl)
  | @published index stage returned =>
    have awaited : d.awaits .sensor = some index := by
      simp only [awaits, stage, SensorStep.awaited]
    exact h.free .sensor rfl (served_returned awaited returned) rfl (others_sensor rfl rfl rfl rfl)
  | _ stage =>
    have idle : d.awaits .sensor = none := by simp [awaits, stage, SensorStep.awaited]
    exact h.free .sensor rfl (served_idle idle) rfl (others_sensor rfl rfl rfl rfl)

/- The server's thread turns, with the answer it has waited for. -/
theorem Waits.turn (h : Waits d) {next : ServerStep} (idle : next.awaited = none)
    (served : d.Served .server) : Waits { d with server := next } :=
  h.free .server rfl served idle (others_server rfl rfl rfl rfl)

theorem served_result {caller : Caller} {index : Nat} {result : PublishResult}
    (awaited : d.awaits caller = some index) (returned : d.runtime.result index = some result) :
    d.Served caller := by
  intro i awaited' call here
  cases awaited.symm.trans awaited'
  obtain ⟨event, there⟩ := Pipeline.result_eq.mp returned
  cases here.symm.trans there
  rfl

theorem Waits.step (h : Waits d) (ordered : Ordered d) (threads : d.runtime.Threads)
    (moved : d.step layout fromChars format label = some (d', note)) : Waits d' := by
  cases step_steps moved with
  | leads taken => exact h.leads ordered threads taken
  | serverFails stage =>
    have idle : d.awaits .main = none := by simp [awaits, stage]
    have unstopped := ordered.unstopped (by rw [stage]; rfl)
    have after : ({ d with main := .stopping } : Daemon).awaits .main = none := by
      simp [awaits, unstopped]
    exact h.free .main rfl (served_idle idle) after (others_main rfl rfl)
  | signals => exact h
  | polls stage =>
    refine h.turn ?_ (served_idle (by simp [awaits, stage, ServerStep.awaited]))
    split <;> rfl
  | idles stage => exact h.turn rfl (served_idle (by simp [awaits, stage, ServerStep.awaited]))
  | accepts stage entered =>
    refine h.turn ?_ (served_idle (by simp [awaits, stage, ServerStep.awaited]))
    rcases entered with rfl | ⟨response, rfl⟩ | ⟨command, rfl⟩ <;> rfl
  | builds stage built => exact h.builds stage built
  | @proceeds index first stage returned =>
    have awaited : d.awaits .server = some index := by simp [awaits, stage, ServerStep.awaited]
    exact h.make .server .selfTestPassed rfl (by decide) (served_result awaited returned) rfl
      (others_server rfl rfl rfl rfl)
  | @reports reset index first second stage earlier returned =>
    have awaited : d.awaits .server = some index := by simp [awaits, stage, ServerStep.awaited]
    exact h.turn rfl (served_result awaited returned)
  | @closes index result stage returned =>
    have awaited : d.awaits .server = some index := by simp [awaits, stage, ServerStep.awaited]
    exact h.turn rfl (served_result awaited returned)
  | responds stage => exact h.turn rfl (served_idle (by simp [awaits, stage, ServerStep.awaited]))
  | senses taken => exact h.senses taken
  | monitors taken =>
    cases taken with
    | _ => exact h
  | controls taken =>
    have calls := (Pipeline.controlLoop_cases taken).frame.1
    rw [Waits]
    change Attended d.awaits _
    rw [calls]
    exact h
  | advances here taken =>
    obtain ⟨moving, step, calls⟩ := (Pipeline.advance_cases taken).calls
    rw [Waits]
    change Attended d.awaits _
    rw [calls]
    exact Attended.move h here moving step

end Calls

end Daemon

end EdgeSentinel
