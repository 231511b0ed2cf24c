import EdgeSentinel.Daemon.Order

/-! The samples in front of the machine. The simulated sensor numbers its readings, and
commands change what it reads but not the number, so the machine sees readings in the
order in which they were taken and no reading twice. -/
namespace EdgeSentinel

/- The number that the sensor gave to the sample of an event. -/
def Event.number (event : Event) : Option Nat :=
  if event.kind = .sensorSample then some event.sample.sequence.toNat else none

theorem Event.number_other {event : Event} (other : event.kind ≠ .sensorSample) :
    event.number = none := if_neg other

theorem Event.kind_of_number {event : Event} {n : Nat} (numbered : event.number = some n) :
    event.kind = .sensorSample := (Option.ite_none_right_eq_some.mp numbered).1

namespace Daemon

/- The event of every call of `publish`, whatever has become of it. -/
def published (d : Daemon) : List Event := d.runtime.calls.map PublishCall.event

section Step

variable {layout : Layout} {fromChars : List UInt8 → Ipc.FromChars} {format : Double → List UInt8}
  {d d' : Daemon} {note : Note} {notes : List Note} {label : DaemonLabel}

theorem buildResponse_sequence (input : List UInt8) :
    (d.buildResponse fromChars format input).sensor.sequence = d.sensor.sequence := by
  unfold buildResponse
  dsimp only
  split
  · rfl
  · split
    case h_3 => split <;> rfl
    all_goals rfl

/-- Only the sensor's thread draws a number. -/
theorem step_sequence (other : label ≠ .sensor)
    (moved : d.step layout fromChars format label = some (d', note)) :
    d'.sensor.sequence = d.sensor.sequence := by
  cases label with
  | sensor => contradiction
  | serve =>
    obtain ⟨_, served, same⟩ := Option.map_eq_some_iff.mp moved
    cases same
    by_cases building : ∃ input, d.server = .building input
    · obtain ⟨input, stage⟩ := building
      simp only [serverStep, stage, Option.some.injEq] at served
      rw [← served, buildResponse_sequence]
    · have steps : Steps layout fromChars d .serve d' .silent := serverStep_steps served
      cases steps with
      | builds stage built => exact absurd ⟨_, stage⟩ building
      | _ => rfl
  | main =>
    cases step_steps moved with
    | leads taken => cases taken <;> rfl
  | _ =>
    cases step_steps moved
    rfl

theorem published_length : d.published.length = d.runtime.calls.length := List.length_map _

theorem published_here {index : Nat} {call : PublishCall}
    (here : d.runtime.calls[index]? = some call) : d.published[index]? = some call.event := by
  rw [published, List.getElem?_map, here]
  rfl

theorem published_set {index : Nat} {call : PublishCall} {step : PublishStep}
    (here : d.runtime.calls[index]? = some call)
    (calls : d'.runtime.calls = d.runtime.calls.set index { call with step }) :
    d'.published = d.published := by
  obtain ⟨bound, same⟩ := List.getElem?_eq_some_iff.mp here
  have inside : index < d.published.length := by simpa [published] using bound
  have value : d.published[index] = call.event := by simp [published, same]
  rw [published, calls, List.map_set]
  change d.published.set index call.event = d.published
  rw [← value, List.set_getElem_self]

/-- What has been published stays, and what comes is of the thread that moves. -/
theorem Turns.published (turned : Turns d d' label note) :
    ∃ more, d'.published = d.published ++ more ∧ ∀ event ∈ more,
      ∃ caller, label.thread = some caller ∧ (event.kind = .sensorSample ↔ caller = .sensor) := by
  cases turned with
  | rests calls quiet waits =>
    exact ⟨[], by rw [Daemon.published, calls, List.append_nil, Daemon.published], by simp⟩
  | makes caller event thread calls kind now others =>
    refine ⟨[event], by rw [Daemon.published, calls, List.map_append, Daemon.published]; rfl, ?_⟩
    intro other member
    rw [List.mem_singleton.mp member]
    exact ⟨caller, thread, kind⟩
  | advances here moving calls push waits =>
    exact ⟨[], by rw [published_set here calls, List.append_nil], by simp⟩

/-- A step reads the sensor and publishes what it has read, or it leaves the number alone
and publishes no sample. -/
theorem step_draws (ordered : Ordered d)
    (moved : d.step layout fromChars format label = some (d', note)) :
    (d'.sensor.sequence = d.sensor.sequence ∧ ∃ more, d'.published = d.published ++ more ∧
      ∀ event ∈ more, event.kind ≠ .sensorSample) ∨
    (label = .sensor ∧ d.sensor.read.1 = d'.sensor ∧
      d'.published = d.published ++ [.sensorSample d.sensor.read.2]) := by
  by_cases drawing : label = .sensor
  · subst drawing
    cases step_steps moved with
    | senses taken =>
      cases taken with
      | publishes stage present running =>
        have read : d.reading = d.sensor.read := by simp [reading, stage, present, running]
        rw [read]
        exact .inr ⟨rfl, rfl, List.map_append⟩
      | exits stage stopped =>
        have still : d.reading = (d.sensor, {}) := by simp [reading, stopped]
        rw [still]
        exact .inl ⟨rfl, [], (List.append_nil _).symm, by simp⟩
      | skips stage missing running =>
        have still : d.reading = (d.sensor, {}) := by simp [reading, missing]
        rw [still]
        exact .inl ⟨rfl, [], (List.append_nil _).symm, by simp⟩
      | _ stage =>
        have still : d.reading = (d.sensor, {}) := by simp [reading, stage]
        rw [still]
        exact .inl ⟨rfl, [], (List.append_nil _).symm, by simp⟩
  · have sequence := step_sequence drawing moved
    obtain ⟨more, events, authors⟩ := (step_turns ordered moved).published
    refine .inl ⟨sequence, more, events, ?_⟩
    intro event member sample
    obtain ⟨caller, thread, kind⟩ := authors event member
    cases kind.mp sample
    cases label <;> contradiction

end Step

/-- The samples published so far: numbered in the order of the calls, none beyond the
sensor's own number, and each of them read in a step of the sensor's thread. -/
structure Numbered (moves : List (Daemon × DaemonLabel × Daemon)) (d : Daemon) : Prop where
  increasing : (d.published.filterMap Event.number).Pairwise (· < ·)
  below : ∀ n ∈ d.published.filterMap Event.number, n ≤ d.sensor.sequence.toNat
  counted : d.sensor.sequence.toNat ≤ moves.length
  source : ∀ event ∈ d.published, event.kind = .sensorSample →
    ∃ t u, (t, .sensor, u) ∈ moves ∧ t.sensor.read = (u.sensor, event.sample)

section Numbered

variable {layout : Layout} {fromChars : List UInt8 → Ipc.FromChars} {format : Double → List UInt8}
  {d d' : Daemon} {note : Note} {notes : List Note} {label : DaemonLabel}
  {moves : List (Daemon × DaemonLabel × Daemon)}

theorem numbered_initial : Numbered [] initial := by
  refine ⟨List.Pairwise.nil, ?_, Nat.le_refl 0, ?_⟩
  · intro n absent
    contradiction
  · intro event absent
    contradiction

theorem Numbered.keeps (h : Numbered moves d) (move : Daemon × DaemonLabel × Daemon)
    (sequence : d'.sensor.sequence = d.sensor.sequence) {more : List Event}
    (events : d'.published = d.published ++ more)
    (others : ∀ event ∈ more, event.kind ≠ .sensorSample) : Numbered (moves ++ [move]) d' := by
  have none : more.filterMap Event.number = [] := by
    rw [List.filterMap_eq_nil_iff]
    intro event member
    exact Event.number_other (others event member)
  have numbers : d'.published.filterMap Event.number = d.published.filterMap Event.number := by
    rw [events, List.filterMap_append, none, List.append_nil]
  refine ⟨numbers ▸ h.increasing, ?_, ?_, ?_⟩
  · rw [numbers, sequence]
    exact h.below
  · rw [sequence, List.length_append]
    exact h.counted.trans (Nat.le_add_right _ _)
  · intro event member sample
    rw [events, List.mem_append] at member
    rcases member with old | new
    · obtain ⟨t, u, read, same⟩ := h.source event old sample
      exact ⟨t, u, List.mem_append_left _ read, same⟩
    · exact absurd sample (others event new)

theorem Numbered.draws (h : Numbered moves d) (short : moves.length + 1 < 2 ^ 64)
    (read : d.sensor.read.1 = d'.sensor)
    (events : d'.published = d.published ++ [.sensorSample d.sensor.read.2]) :
    Numbered (moves ++ [(d, .sensor, d')]) d' := by
  have counted := h.counted
  have next : d'.sensor.sequence.toNat = d.sensor.sequence.toNat + 1 := by
    rw [← read]
    change (d.sensor.sequence + 1).toNat = _
    rw [UInt64.toNat_add]
    exact Nat.mod_eq_of_lt (by simp; omega)
  have drawn : d.sensor.read.2.sequence.toNat = d.sensor.sequence.toNat + 1 := by
    rw [← next, ← read]
    rfl
  have numbers : d'.published.filterMap Event.number =
      d.published.filterMap Event.number ++ [d.sensor.sequence.toNat + 1] := by
    rw [events, List.filterMap_append, ← drawn]
    rfl
  refine ⟨?_, ?_, ?_, ?_⟩
  · rw [numbers, List.pairwise_append]
    refine ⟨h.increasing, List.pairwise_singleton _ _, ?_⟩
    intro n old m new
    have bound := h.below n old
    rw [List.mem_singleton.mp new]
    omega
  · rw [numbers, next]
    intro n member
    rcases List.mem_append.mp member with old | new
    · exact (h.below n old).trans (Nat.le_succ _)
    · exact (List.mem_singleton.mp new).le
  · rw [next, List.length_append]
    exact Nat.succ_le_succ counted
  · intro event member sample
    rw [events, List.mem_append] at member
    rcases member with old | new
    · obtain ⟨t, u, taken, same⟩ := h.source event old sample
      exact ⟨t, u, List.mem_append_left _ taken, same⟩
    · cases List.mem_singleton.mp new
      exact ⟨d, d', List.mem_append_right _ (List.mem_singleton.mpr rfl), by rw [← read]; rfl⟩

theorem Numbered.step (h : Numbered moves d) (ordered : Ordered d)
    (short : moves.length + 1 < 2 ^ 64)
    (moved : d.step layout fromChars format label = some (d', note)) :
    Numbered (moves ++ [(d, label, d')]) d' := by
  rcases step_draws ordered moved with ⟨sequence, more, events, others⟩ | ⟨rfl, read, events⟩
  · exact h.keeps _ sequence events others
  · exact h.draws short read events

theorem run_numbered {labels : List DaemonLabel} (short : labels.length < 2 ^ 64)
    (history : Exec.run (Daemon.step layout fromChars format) initial labels = some (d, notes)) :
    Numbered (Exec.moves (Daemon.step layout fromChars format) initial labels) d := by
  refine Exec.past_induction
    (P := fun labels _ (d : Daemon) => labels.length < 2 ^ 64 → Numbered
      (Exec.moves (Daemon.step layout fromChars format) initial labels) d)
    (fun _ => numbered_initial) ?_ history short
  intro labels notes t label u note past numbered moved short
  rw [List.length_append, List.length_singleton] at short
  have few : (Exec.moves (Daemon.step layout fromChars format) initial labels).length ≤
      labels.length := Exec.moves_length_le initial labels
  rw [Exec.moves_concat past moved]
  exact (numbered (by omega)).step (run_regular past).ordered (by omega) moved

/-- Of two samples that have been pushed, the one pushed first was numbered first. -/
theorem pushed_numbers {threads : List Caller} (numbered : Numbered moves d)
    (authored : Authored threads notes d) (regular : Regular layout notes d) :
    (pushedCalls notes).Pairwise fun a b => ∀ n m, a.2.number = some n → b.2.number = some m →
      n < m := by
  have increasing := List.pairwise_iff_getElem.mp (List.pairwise_filterMap.mp numbered.increasing)
  have taken : ∀ pushed ∈ pushedCalls notes, ∀ n, pushed.2.number = some n →
      threads[pushed.1]? = some .sensor ∧ d.published[pushed.1]? = some pushed.2 := by
    intro pushed member n number
    obtain ⟨call, here, event, -⟩ := regular.pushed_call member
    have inside : pushed.1 < threads.length := by
      rw [authored.length]
      exact regular.pushed_lt member
    have mine := List.getElem?_eq_getElem inside
    have sensor := (authored.kinds _ _ call mine here).mp
      (by rw [event]; exact Event.kind_of_number number)
    exact ⟨by rw [mine, sensor], by rw [published_here here, event]⟩
  apply authored.order.imp_of_mem
  intro a b first second before n m numberA numberB
  obtain ⟨mineA, hereA⟩ := taken a first n numberA
  obtain ⟨mineB, hereB⟩ := taken b second m numberB
  obtain ⟨insideA, valueA⟩ := List.getElem?_eq_some_iff.mp hereA
  obtain ⟨insideB, valueB⟩ := List.getElem?_eq_some_iff.mp hereB
  have less := increasing a.1 b.1 insideA insideB (before (mineA.trans mineB.symm))
  rw [valueA, valueB] at less
  exact less n numberA m numberB

end Numbered

/-- The samples that the machine has handled are readings of the sensor in the order in
which they were taken: their numbers increase, and each was read in a step of the run. -/
theorem samples_in_order (layout : Layout) (fromChars : List UInt8 → Ipc.FromChars)
    (format : Double → List UInt8) (labels : List DaemonLabel) (d : Daemon) (notes : List Note)
    (history : Exec.run (Daemon.step layout fromChars format) initial labels = some (d, notes))
    (short : labels.length < 2 ^ 64) :
    ((handledEvents notes).filterMap Event.number).Pairwise (· < ·) ∧
      ∀ event ∈ handledEvents notes, event.kind = .sensorSample →
        ∃ t u, (t, .sensor, u) ∈ Exec.moves (Daemon.step layout fromChars format) initial labels ∧
          t.sensor.read = (u.sensor, event.sample) := by
  have regular := run_regular history
  have numbered := run_numbered short history
  have handled := regular.sound.handled.1
  constructor
  · apply List.pairwise_filterMap.mpr
    apply List.Pairwise.sublist handled.sublist
    rw [← pushedCalls_events, List.pairwise_map]
    apply (pushed_numbers numbered (run_authored history) regular).imp
    intro a b less n numberA m numberB
    exact less n m numberA numberB
  · intro event member sample
    have pushed := handled.subset member
    rw [← pushedCalls_events] at pushed
    obtain ⟨entry, there, rfl⟩ := List.mem_map.mp pushed
    obtain ⟨call, here, same, -⟩ := regular.pushed_call there
    exact numbered.source _ (same ▸ List.mem_map_of_mem (List.mem_of_getElem? here)) sample

theorem samples_in_order_sampling :
    ∃ d notes, Exec.run (Daemon.step EdgeRuntime.unitLayout noNumber noText) initial
        (opening ++ sampling 2 ++ sampling 3 ++ controls 4) = some (d, notes) ∧
      (handledEvents notes).filterMap Event.number = [1, 2] ∧
      ((handledEvents notes).filterMap Event.number).Pairwise (· < ·) := by
  have outcome : (Exec.run (Daemon.step EdgeRuntime.unitLayout noNumber noText) initial
      (opening ++ sampling 2 ++ sampling 3 ++ controls 4)).any
        (fun (_, notes) => (handledEvents notes).filterMap Event.number = [1, 2]) = true := by
    decide +kernel
  obtain ⟨⟨d, notes⟩, history, numbers⟩ := (Option.any_eq_true _ _).mp outcome
  obtain ⟨order, -⟩ := samples_in_order EdgeRuntime.unitLayout noNumber noText
    (opening ++ sampling 2 ++ sampling 3 ++ controls 4) d notes history (by decide)
  exact ⟨d, notes, history, of_decide_eq_true numbers, order⟩

end Daemon

end EdgeSentinel
