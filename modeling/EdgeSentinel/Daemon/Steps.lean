import EdgeSentinel.Daemon.Projection

/-! What one step of the daemon can be, thread by thread. The projection to the runtime
keeps only what the runtime sees; here the main thread and the server's thread keep
their place too. -/
namespace EdgeSentinel.Daemon

open Ipc (literal)

/-- What one step of the main thread can be. -/
inductive Leads (d : Daemon) : Daemon → Prop where
  | starts {r : EdgeRuntime} (stage : d.main = .starting)
      (under : d.runtime.start ≠ some .returned) (moved : EdgeRuntime.Starts d.runtime r) :
      Leads d { d with runtime := r }
  | started (stage : d.main = .starting) (done : d.runtime.start = some .returned) :
      Leads d { d with main := .startingServer }
  | spawns (stage : d.main = .startingServer) :
      Leads d { d with server := .checking, main := .watching }
  | watches (stage : d.main = .watching) : Leads d d
  | leaves (stage : d.main = .watching)
      (reason : d.stopRequested = true ∨ d.runtime.machine.state = .safeShutdown) :
      Leads d { d with main := .leaving }
  | requests (stage : d.main = .leaving) (signalled : d.stopRequested = true) :
      Leads d { d.publish .shutdownRequested with main := .awaiting d.runtime.calls.length }
  | skips (stage : d.main = .leaving) (unsignalled : d.stopRequested = false) :
      Leads d { d with main := .stoppingServer }
  | requested {index : Nat} (stage : d.main = .awaiting index)
      (returned : d.runtime.hasReturned index = true) : Leads d { d with main := .stoppingServer }
  | tellsServer (stage : d.main = .stoppingServer) :
      Leads d { d with serverStop := true, main := .joiningServer }
  | joinsServer (stage : d.main = .joiningServer) (gone : d.server = .exited) :
      Leads d { d with main := .stopping }
  | stops {r : EdgeRuntime} (stage : d.main = .stopping)
      (under : ∀ c, d.runtime.stop = some c → c.step ≠ .returned)
      (moved : d.runtime.stopStep = some r) : Leads d { d with runtime := r }
  | exits {c : StopCall} (stage : d.main = .stopping) (current : d.runtime.stop = some c)
      (done : c.step = .returned) : Leads d { d with main := .exited }

theorem mainStep_leads {d d' : Daemon} (moved : d.mainStep = some d') : Leads d d' := by
  unfold mainStep at moved
  split at moved
  case h_1 stage =>
    split at moved
    · cases moved
      exact .started stage ‹_›
    · obtain ⟨r, started, rfl⟩ := Option.map_eq_some_iff.mp moved
      exact .starts stage ‹_› (EdgeRuntime.startStep_cases started)
  case h_2 stage =>
    cases moved
    exact .spawns stage
  case h_3 stage =>
    split at moved
    · cases moved
      exact .leaves stage ‹_›
    · cases moved
      exact .watches stage
  case h_4 stage =>
    split at moved
    · cases moved
      exact .requests stage ‹_›
    · rename_i unsignalled
      cases moved
      exact .skips stage (Bool.eq_false_iff.mpr unsignalled)
  case h_5 index stage =>
    obtain ⟨returned, same⟩ := Option.ite_none_right_eq_some.mp moved
    cases same
    exact .requested stage returned
  case h_6 stage =>
    cases moved
    exact .tellsServer stage
  case h_7 stage =>
    obtain ⟨gone, same⟩ := Option.ite_none_right_eq_some.mp moved
    cases same
    exact .joinsServer stage gone
  case h_8 stage =>
    split at moved
    · rename_i done
      cases moved
      obtain ⟨c, current, done⟩ := (Option.any_eq_true _ _).mp done
      exact .exits stage current (of_decide_eq_true done)
    · rename_i under
      obtain ⟨r, stopped, rfl⟩ := Option.map_eq_some_iff.mp moved
      refine .stops stage ?_ stopped
      intro c current done
      exact under ((Option.any_eq_true _ _).mpr ⟨c, current, decide_eq_true done⟩)
  case h_9 stage => contradiction

/-- What one step of the daemon can be. -/
inductive Steps (layout : Layout) (fromChars : List UInt8 → Ipc.FromChars) (d : Daemon) :
    DaemonLabel → Daemon → Note → Prop where
  | leads {d' : Daemon} (moved : Leads d d') : Steps layout fromChars d .main d' .silent
  | serverFails (stage : d.main = .startingServer) :
      Steps layout fromChars d .serverFails { d with main := .stopping } .silent
  | signals : Steps layout fromChars d .signal { d with stopRequested := true } .silent
  | polls (stage : d.server = .checking) :
      Steps layout fromChars d .serve
        { d with server := if d.serverStop then .exited else .accepting } .silent
  | idles (stage : d.server = .accepting) :
      Steps layout fromChars d .serve { d with server := .checking } .silent
  | accepts {turns : List Ipc.Turn} {next : ServerStep} (stage : d.server = .accepting)
      (entered : next = .checking ∨ (∃ response, next = .responding [] response) ∨
        ∃ command, next = .building command) :
      Steps layout fromChars d (.accept turns) { d with server := next } .silent
  | builds {input : List UInt8} {d' : Daemon} (stage : d.server = .building input)
      (built : Builds (Ipc.parseCommand fromChars input) d d') :
      Steps layout fromChars d .serve d' .silent
  | proceeds {index : Nat} {first : PublishResult} (stage : d.server = .awaitingReset index)
      (returned : d.runtime.result index = some first) :
      Steps layout fromChars d .serve
        { d.publish .selfTestPassed with
          server := .awaitingSelfTest index d.runtime.calls.length } .silent
  | reports {reset index : Nat} {first second : PublishResult}
      (stage : d.server = .awaitingSelfTest reset index)
      (earlier : d.runtime.result reset = some first)
      (returned : d.runtime.result index = some second) :
      Steps layout fromChars d .serve
        (d.respond [reset, index] (delivery "ok=reset_requested" [first, second])) .silent
  | closes {index : Nat} {result : PublishResult} (stage : d.server = .awaitingShutdown index)
      (returned : d.runtime.result index = some result) :
      Steps layout fromChars d .serve
        (d.respond [index] (delivery "ok=shutdown_requested" [result])) .silent
  | responds {calls : List Nat} {response : List UInt8}
      (stage : d.server = .responding calls response) :
      Steps layout fromChars d .serve { d with server := .checking } .silent
  | senses {r : EdgeRuntime} (moved : EdgeRuntime.Senses d.runtime d.reading.2 r) :
      Steps layout fromChars d .sensor { d with sensor := d.reading.1, runtime := r } .silent
  | monitors {r : EdgeRuntime} (moved : EdgeRuntime.Monitors d.runtime r) :
      Steps layout fromChars d .monitor { d with runtime := r } .silent
  | controls {now : Nat} {q : Pipeline} {note : Note}
      (moved : d.runtime.controlLoop layout now = some (q, note)) :
      Steps layout fromChars d (.control now)
        { d with runtime := { d.runtime with toPipeline := q } } note
  | advances {index now : Nat} {call : PublishCall} {q : Pipeline} {note : Note}
      (here : d.runtime.calls[index]? = some call)
      (moved : d.runtime.advance layout index now call = some (q, note)) :
      Steps layout fromChars d (.advance index now)
        { d with runtime := { d.runtime with toPipeline := q } } note

section Inversion

variable {layout : Layout} {fromChars : List UInt8 → Ipc.FromChars} {format : Double → List UInt8}
  {d d' : Daemon} {note : Note} {label : DaemonLabel}

theorem serverStep_steps (moved : d.serverStep fromChars format = some d') :
    Steps layout fromChars d .serve d' .silent := by
  unfold serverStep at moved
  cases stage : d.server with
  | absent =>
    rw [stage] at moved
    contradiction
  | checking =>
    rw [stage] at moved
    cases moved
    exact .polls stage
  | accepting =>
    rw [stage] at moved
    cases moved
    exact .idles stage
  | building input =>
    rw [stage] at moved
    cases moved
    exact .builds stage (buildResponse_cases input)
  | awaitingReset index =>
    simp only [stage, Option.map_eq_some_iff] at moved
    obtain ⟨first, returned, rfl⟩ := moved
    exact .proceeds stage returned
  | awaitingSelfTest reset index =>
    simp only [stage, Option.bind_eq_some_iff, Option.map_eq_some_iff] at moved
    obtain ⟨first, earlier, second, returned, rfl⟩ := moved
    exact .reports stage earlier returned
  | awaitingShutdown index =>
    simp only [stage, Option.map_eq_some_iff] at moved
    obtain ⟨result, returned, rfl⟩ := moved
    exact .closes stage returned
  | responding calls response =>
    rw [stage] at moved
    cases moved
    exact .responds stage
  | exited =>
    rw [stage] at moved
    contradiction

theorem step_steps (moved : d.step layout fromChars format label = some (d', note)) :
    Steps layout fromChars d label d' note := by
  cases label with
  | main =>
    obtain ⟨_, led, same⟩ := Option.map_eq_some_iff.mp moved
    cases same
    exact .leads (mainStep_leads led)
  | serverFails =>
    obtain ⟨stage, same⟩ := Option.ite_none_right_eq_some.mp moved
    cases same
    exact .serverFails stage
  | signal =>
    cases moved
    exact .signals
  | serve =>
    obtain ⟨_, served, same⟩ := Option.map_eq_some_iff.mp moved
    cases same
    exact serverStep_steps served
  | accept turns =>
    obtain ⟨_, taken, same⟩ := Option.map_eq_some_iff.mp moved
    cases same
    obtain ⟨stage, taken⟩ := Option.ite_none_right_eq_some.mp taken
    split at taken
    · cases taken
      exact .accepts stage (.inl rfl)
    · cases taken
      exact .accepts stage (.inr (.inl ⟨_, rfl⟩))
    · cases taken
      exact .accepts stage (.inr (.inr ⟨_, rfl⟩))
  | sensor =>
    obtain ⟨_, sensed, same⟩ := Option.map_eq_some_iff.mp moved
    cases same
    obtain ⟨r, looped, rfl⟩ := Option.map_eq_some_iff.mp sensed
    exact .senses (EdgeRuntime.sensorLoop_cases looped)
  | monitor =>
    obtain ⟨r, inner, rfl⟩ := runtimeStep_cases moved
    cases EdgeRuntime.step_cases inner with
    | monitors taken => exact .monitors taken
  | control now =>
    obtain ⟨r, inner, rfl⟩ := runtimeStep_cases moved
    cases EdgeRuntime.step_cases inner with
    | controls taken => exact .controls taken
  | advance index now =>
    obtain ⟨r, inner, rfl⟩ := runtimeStep_cases moved
    cases EdgeRuntime.step_cases inner with
    | advances here taken => exact .advances here taken

end Inversion

end EdgeSentinel.Daemon
