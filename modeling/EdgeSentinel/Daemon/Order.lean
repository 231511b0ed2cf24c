import EdgeSentinel.Daemon.Delivery
import EdgeSentinel.Daemon.Stranded

/-! The order in which the daemon's threads are heard. A thread has its answer before it
makes another call of `publish`, so its events enter the queue in the order of its calls
and reach the machine in that order, whatever the others put in between. -/
namespace EdgeSentinel

/- The thread that a label moves, of those that publish. -/
def DaemonLabel.thread : DaemonLabel → Option Caller
  | .main => some .main
  | .sensor => some .sensor
  | .serve => some .server
  | _ => none

namespace Daemon

/- The thread that makes a call of `publish` in a step. -/
def author : Daemon × DaemonLabel × Daemon → Option Caller
  | (t, label, u) => if t.runtime.calls.length < u.runtime.calls.length then label.thread else none

/- The thread behind every call of `publish`, in the order of the calls. -/
def authors (moves : List (Daemon × DaemonLabel × Daemon)) : List Caller := moves.filterMap author

/-- What a step means for the calls of `publish` and for those who wait for them. -/
inductive Turns (d d' : Daemon) : DaemonLabel → Note → Prop where
  | rests {label : DaemonLabel} {note : Note} (calls : d'.runtime.calls = d.runtime.calls)
      (quiet : note.pushedCall = none)
      (waits : ∀ caller i, d'.awaits caller = some i → d.awaits caller = some i) :
      Turns d d' label note
  | makes {label : DaemonLabel} (caller : Caller) (event : Event)
      (thread : label.thread = some caller)
      (calls : d'.runtime.calls = d.runtime.calls ++ [{ event := event }])
      (kind : event.kind = .sensorSample ↔ caller = .sensor)
      (now : d'.awaits caller = some d.runtime.calls.length)
      (others : ∀ other, other ≠ caller → d'.awaits other = d.awaits other) :
      Turns d d' label .silent
  | advances {index now : Nat} {call : PublishCall} {step : PublishStep} {note : Note}
      (here : d.runtime.calls[index]? = some call) (moving : call.step.isReturned = false)
      (calls : d'.runtime.calls = d.runtime.calls.set index { call with step })
      (push : ∀ i event, note.pushedCall = some (i, event) →
        i = index ∧ event = call.event ∧ call.step.landed = false)
      (waits : d'.awaits = d.awaits) : Turns d d' (.advance index now) note

section Turns

variable {layout : Layout} {fromChars : List UInt8 → Ipc.FromChars} {format : Double → List UInt8}
  {d d' : Daemon} {note : Note} {label : DaemonLabel}

/- One thread waits for nothing behind the step, and the others for what they did. -/
theorem turns_idle (caller : Caller) (calls : d'.runtime.calls = d.runtime.calls)
    (idle : d'.awaits caller = none)
    (others : ∀ other, other ≠ caller → d'.awaits other = d.awaits other) :
    Turns d d' label .silent := by
  refine .rests calls rfl ?_
  intro waiting i awaited
  by_cases same : waiting = caller
  · subst same
    rw [idle] at awaited
    contradiction
  · rwa [others waiting same] at awaited

theorem turns_server {next : ServerStep} (idle : next.awaited = none) :
    Turns d { d with server := next } label .silent :=
  turns_idle .server rfl idle (others_server rfl rfl rfl rfl)

theorem turns_starts (stage : d.main = .starting) {r : EdgeRuntime}
    (under : d.runtime.start ≠ some .returned) (moved : EdgeRuntime.Starts d.runtime r) :
    Turns d { d with runtime := r } .main .silent := by
  have after : ({ d with runtime := r } : Daemon).awaits .main =
      r.start.bind fun s => s.awaited.map Prod.fst := awaits_starting stage
  cases moved with
  | callsStartup early =>
    exact .makes .main .startup rfl rfl (by decide) after (others_main rfl rfl)
  | callsSelfTest early returned =>
    exact .makes .main .selfTestPassed rfl rfl (by decide) after (others_main rfl rfl)
  | spawnsSensor early =>
    refine .rests rfl rfl ?_
    intro caller i awaited
    cases caller with
    | main =>
      rw [after] at awaited
      contradiction
    | sensor => contradiction
    | server => exact awaited
  | again early => exact absurd early under
  | _ early => exact turns_idle .main rfl after (others_main rfl rfl)

theorem turns_stops (stage : d.main = .stopping) {r : EdgeRuntime}
    (moved : EdgeRuntime.Halts d.runtime r) : Turns d { d with runtime := r } .main .silent := by
  have after : ({ d with runtime := r } : Daemon).awaits .main =
      r.stop.bind StopCall.awaited := awaits_stopping stage
  cases moved with
  | unstarted absent => exact .rests rfl rfl fun _ _ awaited => awaited
  | requests started unstopped =>
    exact .makes .main .shutdownRequested rfl rfl (by decide) after (others_main rfl rfl)
  | stops current halts =>
    cases halts with
    | again early => exact .rests rfl rfl fun _ _ awaited => awaited
    | _ early => exact turns_idle .main rfl after (others_main rfl rfl)

theorem turns_leads (ordered : Ordered d) (moved : Leads d d') : Turns d d' .main .silent := by
  cases moved with
  | starts stage under taken => exact turns_starts stage under taken
  | spawns stage =>
    refine .rests rfl rfl ?_
    intro caller i awaited
    cases caller with
    | main | server => contradiction
    | sensor => exact awaited
  | watches stage => exact .rests rfl rfl fun _ _ awaited => awaited
  | requests stage signalled =>
    exact .makes .main .shutdownRequested rfl rfl (by decide) rfl (others_main rfl rfl)
  | joinsServer stage gone =>
    have unstopped := ordered.unstopped (by rw [stage]; rfl)
    have after : ({ d with main := .stopping } : Daemon).awaits .main = none := by
      simp [awaits, unstopped]
    exact turns_idle .main rfl after (others_main rfl rfl)
  | stops stage under taken => exact turns_stops stage (EdgeRuntime.stopStep_cases taken)
  | _ stage => exact turns_idle .main rfl rfl (others_main rfl rfl)

theorem turns_builds {parsed : Ipc.ParseResult} (built : Builds parsed d d') :
    Turns d d' .serve .silent := by
  cases built with
  | resets reset =>
    exact .makes .server .resetRequested rfl rfl (by decide) rfl (others_server rfl rfl rfl rfl)
  | shutsDown other =>
    exact .makes .server .shutdownRequested rfl rfl (by decide) rfl (others_server rfl rfl rfl rfl)
  | _ => exact turns_idle .server rfl rfl (others_server rfl rfl rfl rfl)

theorem turns_senses {r : EdgeRuntime} {sensor : SimulatedSensor} {sample : SensorSample}
    (moved : EdgeRuntime.Senses d.runtime sample r) :
    Turns d { d with sensor, runtime := r } .sensor .silent := by
  cases moved with
  | publishes stage present running =>
    exact .makes .sensor (.sensorSample sample) rfl rfl (by simp [Event.sensorSample]) rfl
      (others_sensor rfl rfl rfl rfl)
  | _ => exact turns_idle .sensor rfl rfl (others_sensor rfl rfl rfl rfl)

theorem turns_advances {q : Pipeline} {index now : Nat} {call : PublishCall}
    (here : d.runtime.calls[index]? = some call)
    (moved : d.runtime.advance layout index now call = some (q, note)) :
    Turns d { d with runtime := { d.runtime with toPipeline := q } } (.advance index now) note := by
  have advances := Pipeline.advance_cases moved
  obtain ⟨moving, step, calls⟩ := advances.calls
  refine .advances here moving calls ?_ rfl
  intro i event pushed
  cases advances with
  | pushed stage landed =>
    cases pushed
    exact ⟨rfl, rfl, by rw [stage]; rfl⟩
  | _ => contradiction

theorem step_turns (ordered : Ordered d)
    (moved : d.step layout fromChars format label = some (d', note)) : Turns d d' label note := by
  cases step_steps moved with
  | leads taken => exact turns_leads ordered taken
  | serverFails stage =>
    have unstopped := ordered.unstopped (by rw [stage]; rfl)
    have after : ({ d with main := .stopping } : Daemon).awaits .main = none := by
      simp [awaits, unstopped]
    exact turns_idle .main rfl after (others_main rfl rfl)
  | signals => exact .rests rfl rfl fun _ _ awaited => awaited
  | polls stage =>
    apply turns_server
    split <;> rfl
  | accepts stage entered =>
    apply turns_server
    rcases entered with rfl | ⟨response, rfl⟩ | ⟨command, rfl⟩ <;> rfl
  | builds stage built => exact turns_builds built
  | proceeds stage returned =>
    exact .makes .server .selfTestPassed rfl rfl (by decide) rfl (others_server rfl rfl rfl rfl)
  | senses taken => exact turns_senses taken
  | monitors taken => cases taken <;> exact .rests rfl rfl fun _ _ awaited => awaited
  | controls taken =>
    have controls := Pipeline.controlLoop_cases taken
    refine .rests controls.frame.1 ?_ fun _ _ awaited => awaited
    cases controls <;> rfl
  | advances here taken => exact turns_advances here taken
  | _ stage => exact turns_server rfl

end Turns

/-- The calls of `publish` with the threads behind them. A thread waits for the last call
that it has made, and what a thread has pushed is in the order of its calls. -/
structure Authored (threads : List Caller) (notes : List Note) (d : Daemon) : Prop where
  length : threads.length = d.runtime.calls.length
  latest : ∀ caller i, d.awaits caller = some i →
    threads[i]? = some caller ∧ ∀ j : Nat, threads[j]? = some caller → j ≤ i
  kinds : ∀ (i : Nat) caller call, threads[i]? = some caller → d.runtime.calls[i]? = some call →
    (call.event.kind = .sensorSample ↔ caller = .sensor)
  order : (pushedCalls notes).Pairwise fun a b => threads[a.1]? = threads[b.1]? → a.1 < b.1

section Authored

variable {layout : Layout} {fromChars : List UInt8 → Ipc.FromChars} {format : Double → List UInt8}
  {d d' : Daemon} {note : Note} {notes : List Note} {label : DaemonLabel} {threads : List Caller}

theorem authored_initial : Authored [] [] initial := by
  refine ⟨rfl, ?_, ?_, List.Pairwise.nil⟩
  · intro caller i awaited
    cases caller <;> contradiction
  · intro i caller call absent
    contradiction

/- A call that has pushed its event is one of the calls. -/
theorem Regular.pushed_call (regular : Regular layout notes d) {pushed : Nat × Event}
    (member : pushed ∈ pushedCalls notes) :
    ∃ call, d.runtime.calls[pushed.1]? = some call ∧ call.event = pushed.2 ∧
      call.step.landed = true :=
  (regular.sound.recorded.known pushed.1 pushed.2).mp member

theorem Regular.pushed_lt (regular : Regular layout notes d) {pushed : Nat × Event}
    (member : pushed ∈ pushedCalls notes) : pushed.1 < d.runtime.calls.length := by
  obtain ⟨call, here, -⟩ := regular.pushed_call member
  exact (List.getElem?_eq_some_iff.mp here).1

theorem Authored.rests (h : Authored threads notes d) (quiet : note.pushedCall = none)
    (calls : d'.runtime.calls = d.runtime.calls)
    (waits : ∀ caller i, d'.awaits caller = some i → d.awaits caller = some i) :
    Authored threads (notes ++ [note]) d' := by
  refine ⟨h.length.trans (by rw [calls]), ?_, ?_, ?_⟩
  · intro caller i awaited
    exact h.latest caller i (waits caller i awaited)
  · rw [calls]
    exact h.kinds
  · rw [pushedCalls_concat, quiet, Option.toList_none, List.append_nil]
    exact h.order

/-- The new call is behind all others. -/
theorem Authored.makes (h : Authored threads notes d) (regular : Regular layout notes d)
    (caller : Caller) (event : Event)
    (calls : d'.runtime.calls = d.runtime.calls ++ [{ event := event }])
    (kind : event.kind = .sensorSample ↔ caller = .sensor)
    (now : d'.awaits caller = some d.runtime.calls.length)
    (others : ∀ other, other ≠ caller → d'.awaits other = d.awaits other) :
    Authored (threads ++ [caller]) (notes ++ [.silent]) d' := by
  have last : (threads ++ [caller])[d.runtime.calls.length]? = some caller := by
    rw [← h.length, List.getElem?_concat_length]
  have bound : ∀ (j : Nat) other, (threads ++ [caller])[j]? = some other →
      j ≤ d.runtime.calls.length := by
    intro j other here
    have inside := (List.getElem?_eq_some_iff.mp here).1
    rw [List.length_append, List.length_singleton, h.length] at inside
    omega
  have old : ∀ j : Nat, j < d.runtime.calls.length →
      (threads ++ [caller])[j]? = threads[j]? := by
    intro j inside
    exact List.getElem?_append_left (by rw [h.length]; exact inside)
  refine ⟨by rw [calls, List.length_append, List.length_append, h.length]; rfl, ?_, ?_, ?_⟩
  · intro waiting i awaited
    by_cases same : waiting = caller
    · subst same
      cases now.symm.trans awaited
      exact ⟨last, fun j here => bound j _ here⟩
    · rw [others waiting same] at awaited
      obtain ⟨mine, latest⟩ := h.latest waiting i awaited
      have inside := (List.getElem?_eq_some_iff.mp mine).1
      rw [h.length] at inside
      refine ⟨(old i inside).trans mine, ?_⟩
      intro j here
      rcases Nat.lt_or_ge j d.runtime.calls.length with before | behind
      · exact latest j ((old j before).symm.trans here)
      · have new : j = d.runtime.calls.length := Nat.le_antisymm (bound j _ here) behind
        rw [new, last] at here
        exact absurd (Option.some.inj here).symm same
  · intro i waiting call here there
    rw [calls] at there
    rcases Nat.lt_or_ge i d.runtime.calls.length with before | behind
    · rw [old i before] at here
      rw [List.getElem?_append_left before] at there
      exact h.kinds i waiting call here there
    · have new : i = d.runtime.calls.length := Nat.le_antisymm (bound i _ here) behind
      rw [new, last] at here
      rw [new, List.getElem?_concat_length] at there
      cases here
      cases there
      exact kind
  · have quiet : pushedCalls (notes ++ [.silent]) = pushedCalls notes := by simp [Note.pushedCall]
    rw [quiet]
    apply h.order.imp_of_mem
    intro a b first second before same
    rw [old _ (regular.pushed_lt first), old _ (regular.pushed_lt second)] at same
    exact before same

/-- Whoever pushes has made no later call, and has not pushed this one before. -/
theorem Authored.advances (h : Authored threads notes d) (regular : Regular layout notes d)
    {index : Nat} {call : PublishCall} {step : PublishStep}
    (here : d.runtime.calls[index]? = some call) (moving : call.step.isReturned = false)
    (calls : d'.runtime.calls = d.runtime.calls.set index { call with step })
    (push : ∀ i event, note.pushedCall = some (i, event) →
      i = index ∧ event = call.event ∧ call.step.landed = false)
    (waits : d'.awaits = d.awaits) : Authored threads (notes ++ [note]) d' := by
  refine ⟨h.length.trans (by rw [calls, List.length_set]), ?_, ?_, ?_⟩
  · rw [waits]
    exact h.latest
  · intro i caller call' mine there
    rw [calls, Recorded.getElem?_move here] at there
    split at there
    · rename_i same
      subst same
      cases there
      exact h.kinds index caller call mine here
    · exact h.kinds i caller call' mine there
  · rw [pushedCalls_concat, List.pairwise_append]
    refine ⟨h.order, by cases note.pushedCall <;> simp, ?_⟩
    intro a earlier b new same
    obtain ⟨rfl, -, unlanded⟩ := push b.1 b.2 (Option.mem_toList.mp new)
    obtain ⟨caller, awaited⟩ := regular.waits.heard b.1 call here moving
    obtain ⟨mine, latest⟩ := h.latest caller b.1 awaited
    have before := latest a.1 (same.trans mine)
    have other : a.1 ≠ b.1 := by
      intro equal
      obtain ⟨call', there, -, landed⟩ := regular.pushed_call earlier
      rw [equal, here] at there
      cases there
      rw [unlanded] at landed
      contradiction
    omega

theorem Authored.step (h : Authored threads notes d) (regular : Regular layout notes d)
    (moved : d.step layout fromChars format label = some (d', note)) :
    Authored (threads ++ (author (d, label, d')).toList) (notes ++ [note]) d' := by
  cases step_turns regular.ordered moved with
  | rests calls quiet waits =>
    rw [author, if_neg (by rw [calls]; exact Nat.lt_irrefl _), Option.toList_none, List.append_nil]
    exact h.rests quiet calls waits
  | makes caller event thread calls kind now others =>
    rw [author, if_pos (by rw [calls, List.length_append]; exact Nat.lt_succ_self _), thread]
    exact h.makes regular caller event calls kind now others
  | advances here moving calls push waits =>
    rw [author, if_neg (by rw [calls, List.length_set]; exact Nat.lt_irrefl _),
      Option.toList_none, List.append_nil]
    exact h.advances regular here moving calls push waits

theorem run_authored {labels : List DaemonLabel}
    (history : Exec.run (Daemon.step layout fromChars format) initial labels = some (d, notes)) :
    Authored (authors (Exec.moves (Daemon.step layout fromChars format) initial labels)) notes
      d := by
  refine Exec.past_induction
    (P := fun labels notes d => Authored
      (authors (Exec.moves (Daemon.step layout fromChars format) initial labels)) notes d)
    authored_initial ?_ history
  intro labels notes t label u note past authored moved
  have more : authors (Exec.moves (Daemon.step layout fromChars format) initial
        (labels ++ [label])) =
      authors (Exec.moves (Daemon.step layout fromChars format) initial labels) ++
        (author (t, label, u)).toList := by
    rw [Exec.moves_concat past moved, authors, authors, List.filterMap_append]
    cases made : author (t, label, u) <;> simp [made]
  rw [more]
  exact authored.step (run_regular past) moved

end Authored

/-- The events that the machine has handled are the first that the calls of `publish` have got
into the queue. They come from different calls, and those that one thread has published are
handled in the order in which it called. -/
theorem publishers_in_order (layout : Layout) (fromChars : List UInt8 → Ipc.FromChars)
    (format : Double → List UInt8) (labels : List DaemonLabel) (d : Daemon) (notes : List Note)
    (history : Exec.run (Daemon.step layout fromChars format) initial labels = some (d, notes)) :
    (authors (Exec.moves (Daemon.step layout fromChars format) initial labels)).length =
        d.runtime.calls.length ∧
      ∃ handled : List (Nat × Event),
        handled <+: pushedCalls notes ∧ handled.map Prod.snd = handledEvents notes ∧
        (∀ entry ∈ handled, (d.runtime.calls[entry.1]?.map PublishCall.event) = some entry.2) ∧
        (handled.map Prod.fst).Nodup ∧
        handled.Pairwise fun a b =>
          (authors (Exec.moves (Daemon.step layout fromChars format) initial labels))[a.1]? =
            (authors (Exec.moves (Daemon.step layout fromChars format) initial labels))[b.1]? →
          a.1 < b.1 := by
  have regular := run_regular history
  have authored := run_authored history
  obtain ⟨queued, order⟩ := regular.sound.handled.1
  have taken := List.take_prefix (handledEvents notes).length (pushedCalls notes)
  refine ⟨authored.length, (pushedCalls notes).take (handledEvents notes).length, taken, ?_, ?_,
    ?_, ?_⟩
  · rw [List.map_take, pushedCalls_events, ← order, List.take_left]
  · intro entry member
    obtain ⟨call, here, same, -⟩ := regular.pushed_call (taken.subset member)
    rw [here, Option.map_some, same]
  · exact regular.sound.recorded.once.sublist (taken.sublist.map Prod.fst)
  · exact authored.order.sublist taken.sublist

/- The control loop through so many events. -/
def controls (count : Nat) : List DaemonLabel := List.replicate (5 * count) (.control 0)

theorem publishers_in_order_sampling :
    ∃ d notes, Exec.run (Daemon.step EdgeRuntime.unitLayout noNumber noText) initial
        (opening ++ sampling 2 ++ sampling 3 ++ controls 4) = some (d, notes) ∧
      d.runtime.calls.length = 4 ∧
      ∃ handled : List (Nat × Event), handled.map Prod.snd = handledEvents notes ∧
        handled.length = 4 ∧ (handled.map Prod.fst).Nodup := by
  have outcome : (Exec.run (Daemon.step EdgeRuntime.unitLayout noNumber noText) initial
      (opening ++ sampling 2 ++ sampling 3 ++ controls 4)).any (fun (d, notes) =>
        d.runtime.calls.length = 4 ∧ (handledEvents notes).length = 4) = true := by
    decide +kernel
  obtain ⟨⟨d, notes⟩, history, counts⟩ := (Option.any_eq_true _ _).mp outcome
  obtain ⟨calls, events⟩ := of_decide_eq_true counts
  obtain ⟨-, handled, -, same, -, once, -⟩ := publishers_in_order EdgeRuntime.unitLayout noNumber
    noText (opening ++ sampling 2 ++ sampling 3 ++ controls 4) d notes history
  refine ⟨d, notes, history, calls, handled, same, ?_, once⟩
  rw [← events, ← same, List.length_map]

end Daemon

end EdgeSentinel
