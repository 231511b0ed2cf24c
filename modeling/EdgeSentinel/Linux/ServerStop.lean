import EdgeSentinel.Linux.ServerLife

/-! The return of `UnixCommandServer::stop`. Once the thread has been told to stop it goes
once more around its loop at most, and nothing but the client that it serves can keep it
there. -/
namespace EdgeSentinel

/- How many steps a call of `stop` has before it, and how many its thread. -/
def ServerCall.ahead : ServerCall → Nat
  | .shuttingDown => 4
  | .joining => 3
  | .resetting => 2
  | .unlinking => 1
  | _ => 0

def AcceptStep.ahead : AcceptStep → Nat
  | .polling => 4
  | .accepting => 3
  | .serving _ => 2
  | .checking | .deciding => 1
  | .absent | .exited => 0

/- The steps of the server itself, other than on a connection. -/
def ServerLabel.isOwn : ServerLabel → Bool
  | .caller _ | .thread _ | .served => true
  | _ => false

namespace UnixCommandServer

variable {socketPath : List UInt8} {euid : Nat} {s s' : UnixCommandServer} {answer : Answer}
  {label : ServerLabel}

def ahead (s : UnixCommandServer) : Nat := s.call.ahead + s.thread.ahead

/-- A call of `stop` behind its request, or behind its end. -/
structure Closing (s : UnixCommandServer) : Prop where
  tidy : Tidy s
  still : s.running = false
  late : s.call = .shuttingDown ∨ s.call = .joining ∨ s.call = .resetting ∨
    s.call = .unlinking ∨ s.call = .idle

section Steps

theorem Closing.told (closing : Closing s) (present : s.thread ≠ .absent) :
    s.stopRequested = true := by
  apply closing.tidy.told
  have threaded := mt closing.tidy.thread.mpr present
  rw [closing.still] at threaded
  rcases closing.late with stage | stage | stage | stage | stage
  · exact .inl stage
  · exact .inr stage
  all_goals
    rw [stage] at threaded
    exact absurd rfl threaded

theorem Closing.calls (closing : Closing s) (moved : Calls euid s s' answer) :
    Closing s' ∧ s'.ahead < s.ahead := by
  have tidy := closing.tidy.calls moved
  have late := closing.late
  cases moved with
  | shutsDown stage =>
    refine ⟨⟨tidy, closing.still, .inr (.inl rfl)⟩, ?_⟩
    simp [ahead, stage, ServerCall.ahead]
  | joins stage ended =>
    refine ⟨⟨tidy, closing.still, .inr (.inr (.inl rfl))⟩, ?_⟩
    simp only [ahead, stage, ServerCall.ahead, AcceptStep.ahead]
    omega
  | resets stage =>
    have owns : s.ownsSocketPath = true := by
      rw [closing.tidy.owns, stage]
      exact Bool.or_true _
    rw [if_pos owns] at tidy ⊢
    refine ⟨⟨tidy, closing.still, .inr (.inr (.inr (.inl rfl)))⟩, ?_⟩
    simp [ahead, stage, ServerCall.ahead]
  | unlinks m stage unlinked =>
    obtain ⟨path, removed, rfl⟩ := unlinked.frame
    refine ⟨⟨tidy, closing.still, .inr (.inr (.inr (.inr rfl)))⟩, ?_⟩
    simp [ahead, stage, ServerCall.ahead]
  | refuses error stage other =>
    rcases stage with stage | stage | stage <;> simp [stage] at late
  | abandons f errno stage => rcases stage with stage | stage <;> simp [stage] at late
  | _ => simp_all

theorem Closing.accepts (closing : Closing s) (moved : Accepts s s') :
    Closing s' ∧ s'.ahead < s.ahead := by
  have tidy := closing.tidy.accepts moved
  have still := closing.still
  have late := closing.late
  cases moved with
  | leaves stage _ | breaks stage _ =>
    refine ⟨⟨tidy, still, late⟩, ?_⟩
    simp [ahead, stage, AcceptStep.ahead]
  | accepts f kernel stage valid granted =>
    refine ⟨⟨tidy, still, late⟩, ?_⟩
    simp [ahead, stage, AcceptStep.ahead]
  | polls next stage next_cases | fails next stage next_cases =>
    refine ⟨⟨tidy, still, late⟩, ?_⟩
    rcases next_cases with rfl | rfl <;> simp [ahead, stage, AcceptStep.ahead]
  | checks stage untold =>
    -- the request came before
    rw [closing.told (by simp [stage])] at untold
    contradiction
  | continues stage runs =>
    rw [still] at runs
    contradiction

theorem Closing.step (closing : Closing s) (other : label ≠ .start ∧ label ≠ .stop)
    (moved : s.step socketPath euid label = some (s', answer)) :
    Closing s' ∧ s'.ahead + 1 ≤ s.ahead + 1 * (!label.isOwn).toNat := by
  have tidy := closing.tidy
  cases label with
  | start => exact absurd rfl other.1
  | stop => exact absurd rfl other.2
  | caller given =>
    exact closing.calls (callerStep_calls tidy.candidate_opened tidy.listener_opened moved)
  | thread given =>
    obtain ⟨next, turned, same⟩ := Option.map_eq_some_iff.mp moved
    cases same
    refine closing.accepts (acceptLoop_accepts ?_ turned)
    intro present _
    exact tidy.listener_opened (tidy.present present).2
  | exchange =>
    simp only [UnixCommandServer.step] at moved
    split at moved
    · rename_i f stage
      cases moved
      rw [use_opened (tidy.client_opened stage)]
      exact ⟨closing, Nat.le_refl _⟩
    · cases moved
  | served =>
    have kept := tidy.step moved
    simp only [UnixCommandServer.step] at moved
    split at moved
    · rename_i f stage
      cases moved
      refine ⟨⟨kept, closing.still, closing.late⟩, ?_⟩
      simp [ahead, stage, AcceptStep.ahead, ServerLabel.isOwn]
    · cases moved
  | outside path =>
    have kept := tidy.step moved
    cases moved
    exact ⟨⟨kept, closing.still, closing.late⟩, Nat.le_refl _⟩

/-- A thread that has not left can move, on a failure of its next system call if need be. -/
theorem accept_enabled (present : s.thread ≠ .absent) (inside : s.thread ≠ .exited) :
    ∃ label, label.isOwn = true ∧ (s.step socketPath euid label).isSome = true := by
  cases stage : s.thread with
  | absent => contradiction
  | exited => contradiction
  | checking | polling | deciding =>
    exact ⟨.thread {}, rfl, by simp [UnixCommandServer.step, acceptLoop, stage]⟩
  | accepting =>
    exact ⟨.thread { result := -1 }, rfl, by
      simp [UnixCommandServer.step, acceptLoop, stage, Descriptors.grant]⟩
  | serving f => exact ⟨.served, rfl, by simp [UnixCommandServer.step, stage]⟩

theorem Closing.enabled (closing : Closing s) (busy : s.call ≠ .idle) :
    ∃ label, label.isOwn = true ∧ (s.step socketPath euid label).isSome = true := by
  rcases closing.late with stage | stage | stage | stage | stage
  · exact ⟨.caller {}, rfl, by simp [UnixCommandServer.step, callerStep, stage]⟩
  · by_cases ended : s.thread = .exited ∨ s.thread = .absent
    · exact ⟨.caller {}, rfl, by simp [UnixCommandServer.step, callerStep, stage, ended]⟩
    · obtain ⟨inside, present⟩ := not_or.mp ended
      exact accept_enabled present inside
  · exact ⟨.caller {}, rfl, by simp [UnixCommandServer.step, callerStep, stage]⟩
  · exact ⟨.caller { result := -1 }, rfl, by
      simp [UnixCommandServer.step, callerStep, stage, unlink]⟩
  · contradiction

end Steps

/-- Once `stop` has told its thread, it returns within eight steps of the two threads, in
whatever order they move and whatever the system calls return, apart from the system calls
on the connection that is being served; until then one of the two can move. -/
theorem server_stop_returns (socketPath : List UInt8) (euid : Nat) (path : Option PathEntry)
    (labels more : List ServerLabel) (s s' : UnixCommandServer) (answers later : List Answer)
    (history : Exec.run (step socketPath euid) { path } labels = some (s, answers))
    (told : s.call = .shuttingDown)
    (future : Exec.run (step socketPath euid) s more = some (s', later))
    (during : Exec.Always (step socketPath euid) (fun _ label => label ≠ .start ∧ label ≠ .stop)
      s more) :
    more.countP ServerLabel.isOwn ≤ 8 ∧
      (s'.call ≠ .idle →
        ∃ label, label.isOwn = true ∧ (s'.step socketPath euid label).isSome = true) := by
  have tidy := (run_tidy history).1
  have closing : Closing s := ⟨tidy, tidy.busy (by simp [told]), .inl told⟩
  have closer : ∀ (_ : List Answer) t label u answer, Closing t → (label ≠ .start ∧ label ≠ .stop) →
      t.step socketPath euid label = some (u, answer) →
      Closing u ∧ u.ahead + 1 ≤ t.ahead + 1 * (!label.isOwn).toNat :=
    fun _ _ _ _ _ here other moved => here.step other moved
  obtain ⟨last, bound⟩ := Exec.run_length (P := fun _ t => Closing t) ahead (!·.isOwn) 1 closer
    [] closing during future
  refine ⟨?_, last.enabled⟩
  have start : s.ahead ≤ 8 := by
    rw [ahead, told]
    cases s.thread <;> simp [ServerCall.ahead, AcceptStep.ahead]
  have all : more.length = more.countP ServerLabel.isOwn + more.countP (!·.isOwn) := by
    simpa using List.length_eq_countP_add_countP ServerLabel.isOwn (l := more)
  omega

/- `stop` comes while a client is served, which takes its time. -/
def leaving : List ServerLabel :=
  [.exchange, .caller {}, .exchange, .served, .thread {}, .caller {}, .caller {}, .caller {}]

theorem server_stop_returns_serving :
    ∃ s answers s' later,
      Exec.run (step (Ipc.literal "/tmp/edge.sock") 1000) { path := some ⟨true, 1000⟩ }
        (serving ++ [.stop, .caller {}]) = some (s, answers) ∧
      Exec.run (step (Ipc.literal "/tmp/edge.sock") 1000) s leaving = some (s', later) ∧
      s'.call = .idle ∧ leaving.countP ServerLabel.isOwn ≤ 8 := by
  have outcome : (Exec.run (step (Ipc.literal "/tmp/edge.sock") 1000)
      { path := some ⟨true, 1000⟩ } (serving ++ [.stop, .caller {}])).any (fun reached =>
        reached.1.call = .shuttingDown ∧
        (Exec.run (step (Ipc.literal "/tmp/edge.sock") 1000) reached.1 leaving).any
          (·.1.call = .idle) = true ∧
        Exec.Always (step (Ipc.literal "/tmp/edge.sock") 1000)
          (fun _ label => label ≠ .start ∧ label ≠ .stop) reached.1 leaving) = true := by
    decide
  obtain ⟨⟨s, answers⟩, history, facts⟩ := (Option.any_eq_true _ _).mp outcome
  obtain ⟨told, ends, during⟩ := of_decide_eq_true facts
  obtain ⟨⟨s', later⟩, future, idle⟩ := (Option.any_eq_true _ _).mp ends
  exact ⟨s, answers, s', later, history, future, of_decide_eq_true idle,
    (server_stop_returns _ _ _ _ _ _ _ _ _ history told future during).1⟩

end UnixCommandServer

end EdgeSentinel
