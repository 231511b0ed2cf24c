import EdgeSentinel.Linux.CommandServer

/-! The descriptors of the command server. Whatever the system calls return, none is used
after it was closed, a server that runs has its listener and the client it serves, and one
that does not run has nothing. -/
namespace EdgeSentinel

namespace ServerCall

/- A call of `start`. -/
def starting : ServerCall → Bool
  | .inspecting | .removing | .creating => true
  | call => call.candidate.isSome

/- A call of `stop` that has not joined the thread. -/
def threaded : ServerCall → Bool
  | .requestingStop | .shuttingDown | .joining => true
  | _ => false

def listens : ServerCall → Bool
  | .resetting => true
  | call => call.threaded

def owns : ServerCall → Bool
  | .restricting _ | .listening _ | .abandoning _ _ | .unlinking => true
  | call => call.listens

end ServerCall

def AcceptStep.client : AcceptStep → Option UniqueFd
  | .serving f => some f
  | _ => none

namespace UnixCommandServer

/- The descriptors in the hands of the two threads. -/
def holding (s : UnixCommandServer) : List Int :=
  s.listener.held.toList ++
    ((s.call.candidate.bind UniqueFd.held).toList ++ (s.thread.client.bind UniqueFd.held).toList)

/-- What is set, open and owned, by how far `start` or `stop` has come. -/
structure Tidy (s : UnixCommandServer) : Prop where
  balanced : FdClient.Balanced s.kernel s.holding
  proper : s.misused = 0
  listener : s.listener.valid = (s.running || s.call.listens)
  owns : s.ownsSocketPath = (s.running || s.call.owns)
  thread : s.thread = .absent ↔ (s.running || s.call.threaded) = false
  candidate : ∀ f, s.call.candidate = some f → f.valid = true
  client : ∀ f, s.thread.client = some f → f.valid = true
  busy : s.call ≠ .idle → s.running = false
  alive : s.running = true → s.stopRequested = false ∧ s.thread ≠ .exited
  told : s.call = .shuttingDown ∨ s.call = .joining → s.stopRequested = true

variable {socketPath : List UInt8} {euid : Nat} {s s' m : UnixCommandServer} {given : Returned}
  {answer : Answer} {label : ServerLabel} {f : UniqueFd}

section Tidiness

theorem Tidy.candidate_opened (tidy : Tidy s) (f : UniqueFd)
    (candidate : s.call.candidate = some f) : f.descriptor ∈ s.kernel.opened := by
  apply tidy.balanced.holds.mem_iff.mp
  have held := UniqueFd.held_valid (tidy.candidate f candidate)
  simp [holding, candidate, held]

theorem Tidy.listener_opened (tidy : Tidy s) (valid : s.listener.valid = true) :
    s.listener.descriptor ∈ s.kernel.opened := by
  apply tidy.balanced.holds.mem_iff.mp
  simp [holding, UniqueFd.held_valid valid]

theorem Tidy.client_opened (tidy : Tidy s) (serving : s.thread = .serving f) :
    f.descriptor ∈ s.kernel.opened := by
  apply tidy.balanced.holds.mem_iff.mp
  have client : s.thread.client = some f := by rw [serving]; rfl
  have held := UniqueFd.held_valid (tidy.client f client)
  simp [holding, client, held]

theorem ServerCall.starting_cases {c : ServerCall} (starting : c.starting = true) :
    c ≠ .idle ∧ c.listens = false ∧ c.threaded = false := by
  cases c <;> simp_all [ServerCall.starting, ServerCall.candidate, ServerCall.listens,
    ServerCall.threaded]

/-- In `start` there is no thread and no listener. -/
theorem Tidy.starting (tidy : Tidy s) (stage : s.call.starting = true) :
    s.running = false ∧ s.thread = .absent ∧ s.listener.valid = false ∧
      s.holding = (s.call.candidate.bind UniqueFd.held).toList := by
  obtain ⟨busy, listens, threaded⟩ := ServerCall.starting_cases stage
  have still := tidy.busy busy
  have absent := tidy.thread.mpr (by rw [still, threaded]; rfl)
  have invalid := tidy.listener
  rw [still, listens] at invalid
  refine ⟨still, absent, invalid, ?_⟩
  simp [holding, UniqueFd.held_invalid invalid, absent, AcceptStep.client]

/-- `start` goes on or gives up. -/
theorem Tidy.opens (tidy : Tidy s) (stage : s.call.starting = true) {c : ServerCall}
    (next : c = .idle ∨ c.starting = true) {kernel : Descriptors} {owns : Bool}
    {path : Option PathEntry} {removed : List PathEntry}
    (balanced : FdClient.Balanced kernel (c.candidate.bind UniqueFd.held).toList)
    (owned : owns = c.owns) (candidate : ∀ f, c.candidate = some f → f.valid = true) :
    Tidy { s with kernel, path, removed, ownsSocketPath := owns, call := c } := by
  obtain ⟨still, absent, invalid, -⟩ := tidy.starting stage
  have quiet : c.listens = false ∧ c.threaded = false ∧ ¬ (c = .shuttingDown ∨ c = .joining) := by
    rcases next with rfl | starting
    · simp [ServerCall.listens, ServerCall.threaded]
    · obtain ⟨-, listens, threaded⟩ := ServerCall.starting_cases starting
      refine ⟨listens, threaded, ?_⟩
      rintro (rfl | rfl) <;> contradiction
  obtain ⟨listens, threaded, early⟩ := quiet
  refine ⟨?_, tidy.proper, ?_, ?_, ?_, candidate, ?_, ?_, ?_, ?_⟩
  · simpa [holding, UniqueFd.held_invalid invalid, absent, AcceptStep.client] using balanced
  · simp [invalid, still, listens]
  · simp [still, owned]
  · simp [still, absent, threaded]
  · simp [absent, AcceptStep.client]
  · exact fun _ => still
  · simp [still]
  · exact fun late => absurd late early

theorem Unlinks.frame (unlinked : Unlinks s m) :
    ∃ path removed, m = { s with path, removed } := by
  cases unlinked with
  | fails => exact ⟨s.path, s.removed, rfl⟩
  | removes entry here => exact ⟨none, s.removed ++ [entry], rfl⟩

/-- As `opens`, with the same candidate. -/
theorem Tidy.proceeds (tidy : Tidy s) (stage : s.call.starting = true) {c : ServerCall}
    (next : c = .idle ∨ c.starting = true) (candidate : c.candidate = s.call.candidate)
    (owns : c.owns = s.call.owns) {path : Option PathEntry} {removed : List PathEntry} :
    Tidy { s with path, removed, call := c } := by
  obtain ⟨still, -, -, holding⟩ := tidy.starting stage
  have balanced := tidy.balanced
  rw [holding, ← candidate] at balanced
  apply tidy.opens stage next balanced
  · rw [tidy.owns, still, owns]
    rfl
  · rw [candidate]
    exact tidy.candidate

theorem ServerCall.starting_candidate {c : ServerCall} (candidate : c.candidate = some f) :
    c.starting = true := by
  cases c <;> simp_all [ServerCall.starting, ServerCall.candidate]

theorem Tidy.candidate_balanced (tidy : Tidy s) (candidate : s.call.candidate = some f) :
    FdClient.Balanced s.kernel f.held.toList := by
  obtain ⟨-, -, -, holding⟩ := tidy.starting (ServerCall.starting_candidate candidate)
  have balanced := tidy.balanced
  rw [holding, candidate] at balanced
  exact balanced

/-- `start` fails with a candidate, which is closed. -/
theorem Tidy.drops (tidy : Tidy s) (candidate : s.call.candidate = some f)
    {path : Option PathEntry} {removed : List PathEntry} {owns : Bool} (unowned : owns = false) :
    Tidy { s with
      kernel := f.destroy s.kernel, path, removed, ownsSocketPath := owns, call := .idle } := by
  apply tidy.opens (ServerCall.starting_candidate candidate) (.inl rfl) _ unowned nofun
  apply FdClient.Balanced.reset
  simpa [ServerCall.candidate] using tidy.candidate_balanced candidate

theorem Tidy.commits (tidy : Tidy s) (candidate : s.call.candidate = some f)
    (owned : s.ownsSocketPath = true) : Tidy (s.commit f).1 := by
  obtain ⟨-, -, invalid, -⟩ := tidy.starting (ServerCall.starting_candidate candidate)
  have kept : s.listener.reset s.kernel f.descriptor = (s.kernel, f) := by
    rw [UniqueFd.reset, if_neg (of_decide_eq_false invalid)]
  rw [commit, kept]
  refine ⟨?_, tidy.proper, tidy.candidate f candidate, owned, ?_, ?_, ?_, ?_, ?_, ?_⟩
  · simpa [holding, ServerCall.candidate, AcceptStep.client] using
      tidy.candidate_balanced candidate
  · simp
  · simp [ServerCall.candidate]
  · simp [AcceptStep.client]
  · exact fun busy => absurd rfl busy
  · simp
  · simp

theorem ServerCall.threaded_cases {c : ServerCall} (threaded : c.threaded = true) :
    c ≠ .idle ∧ c.candidate = none ∧ c.listens = true ∧ c.owns = true := by
  cases c <;> simp_all [ServerCall.threaded, ServerCall.candidate, ServerCall.listens,
    ServerCall.owns]

/-- `stop` goes on, up to the join. -/
theorem Tidy.closes (tidy : Tidy s) (stage : s.call.threaded = true) {c : ServerCall}
    (next : c.threaded = true) {stopRequested : Bool}
    (told : c = .shuttingDown ∨ c = .joining → stopRequested = true) :
    Tidy { s with stopRequested, call := c } := by
  obtain ⟨busy, empty, listens, owns⟩ := ServerCall.threaded_cases stage
  obtain ⟨-, empty', listens', owns'⟩ := ServerCall.threaded_cases next
  have still := tidy.busy busy
  have listener := tidy.listener
  have owned := tidy.owns
  have thread := tidy.thread
  rw [still, listens] at listener
  rw [still, owns] at owned
  rw [still, stage] at thread
  refine ⟨?_, tidy.proper, ?_, ?_, ?_, ?_, tidy.client, fun _ => still, ?_, told⟩
  · simpa [holding, empty, empty'] using tidy.balanced
  · simpa [still, listens'] using listener
  · simpa [still, owns'] using owned
  · simpa [still, next] using thread
  · simp [empty']
  · simp [still]

theorem Tidy.joins (tidy : Tidy s) (stage : s.call = .joining)
    (ended : s.thread = .exited ∨ s.thread = .absent) :
    Tidy { s with thread := .absent, call := .resetting } := by
  have still := tidy.busy (by simp [stage])
  have listener := tidy.listener
  have owns := tidy.owns
  have gone : s.thread.client = none := by
    rcases ended with ended | ended <;> rw [ended] <;> rfl
  have balanced := tidy.balanced
  rw [holding, stage, gone] at balanced
  rw [still, stage] at listener owns
  refine ⟨balanced, tidy.proper, ?_, ?_, ?_, nofun, nofun, fun _ => still, ?_, ?_⟩
  · simpa [still, ServerCall.listens, ServerCall.threaded] using listener
  · simpa [still, ServerCall.owns, ServerCall.listens, ServerCall.threaded] using owns
  · simp [still, ServerCall.threaded]
  · simp [still]
  · simp

theorem Tidy.resets (tidy : Tidy s) (stage : s.call = .resetting) :
    Tidy { s with
      listener := {}
      kernel := s.listener.destroy s.kernel
      call := if s.ownsSocketPath then .unlinking else .idle } := by
  have still := tidy.busy (by simp [stage])
  have owns : s.ownsSocketPath = true := by rw [tidy.owns, stage]; exact Bool.or_true _
  have absent := tidy.thread.mpr (by rw [still, stage]; rfl)
  have balanced := tidy.balanced
  rw [holding, stage, absent] at balanced
  rw [if_pos owns]
  refine ⟨?_, tidy.proper, ?_, ?_, ?_, nofun, ?_, fun _ => still, ?_, ?_⟩
  · have closed : FdClient.Balanced (s.listener.destroy s.kernel) [] := balanced.reset (-1)
    simpa [holding, absent, ServerCall.candidate, AcceptStep.client, UniqueFd.held] using closed
  · simp [still, UniqueFd.valid, ServerCall.listens, ServerCall.threaded]
  · simpa [still, ServerCall.owns] using owns
  · simp [still, absent, ServerCall.threaded]
  · simp [absent, AcceptStep.client]
  · simp [still]
  · simp

theorem Tidy.unlinks (tidy : Tidy s) (stage : s.call = .unlinking) {path : Option PathEntry}
    {removed : List PathEntry} :
    Tidy { s with path, removed, ownsSocketPath := false, call := .idle } := by
  have still := tidy.busy (by simp [stage])
  have absent := tidy.thread.mpr (by rw [still, stage]; rfl)
  have listener := tidy.listener
  rw [still, stage] at listener
  refine ⟨?_, tidy.proper, ?_, ?_, ?_, nofun, ?_, fun _ => still, ?_, ?_⟩
  · simpa [holding, stage, ServerCall.candidate] using tidy.balanced
  · simpa [still, ServerCall.listens, ServerCall.threaded] using listener
  · simp [still, ServerCall.owns, ServerCall.listens, ServerCall.threaded]
  · simp [still, absent, ServerCall.threaded]
  · simp [absent, AcceptStep.client]
  · simp [still]
  · simp

theorem Tidy.calls (tidy : Tidy s) (moved : Calls euid s s' answer) : Tidy s' := by
  cases moved with
  | refuses error stage other =>
    rcases stage with stage | stage | stage <;>
      exact tidy.proceeds (by rw [stage]; rfl) (.inl rfl) (by rw [stage]; rfl) (by rw [stage]; rfl)
  | recognises stage here | findsNothing stage | removes entry stage here =>
    exact tidy.proceeds (by rw [stage]; rfl) (.inr rfl) (by rw [stage]; rfl) (by rw [stage]; rfl)
  | restricts f stage =>
    exact tidy.proceeds (by rw [stage]; rfl) (.inr rfl) (by rw [stage]; rfl) (by rw [stage]; rfl)
  | abandons f errno stage =>
    rcases stage with stage | stage <;>
      exact tidy.proceeds (by rw [stage]; rfl) (.inr rfl) (by rw [stage]; rfl) (by rw [stage]; rfl)
  | creates f kernel stage valid granted =>
    have starting : s.call.starting = true := by rw [stage]; rfl
    obtain ⟨still, -, -, holding⟩ := tidy.starting starting
    have balanced := tidy.balanced.grant granted
    rw [holding, stage] at balanced
    apply tidy.opens starting (.inr rfl)
    · simpa [ServerCall.candidate] using balanced
    · rw [tidy.owns, still, stage]
      rfl
    · rintro _ ⟨⟩
      exact valid
  | failsToBind f errno stage =>
    have candidate : s.call.candidate = some f := by rw [stage]; rfl
    obtain ⟨still, -⟩ := tidy.starting (ServerCall.starting_candidate candidate)
    apply tidy.drops candidate
    rw [tidy.owns, still, stage]
    rfl
  | binds f stage =>
    have candidate : s.call.candidate = some f := by rw [stage]; rfl
    refine tidy.opens (ServerCall.starting_candidate candidate) (.inr rfl)
      (tidy.candidate_balanced candidate) rfl ?_
    rintro _ ⟨⟩
    exact tidy.candidate f candidate
  | givesUp f errno m stage unlinked =>
    obtain ⟨path, removed, rfl⟩ := unlinked.frame
    exact tidy.drops (by rw [stage]; rfl) rfl
  | commits f stage =>
    have owned : s.ownsSocketPath = true := by rw [tidy.owns, stage]; exact Bool.or_true _
    exact tidy.commits (by rw [stage]; rfl) owned
  | requests stage => exact tidy.closes (by rw [stage]; rfl) rfl (fun _ => rfl)
  | shutsDown stage =>
    exact tidy.closes (by rw [stage]; rfl) rfl (fun _ => tidy.told (.inl stage))
  | joins stage ended => exact tidy.joins stage ended
  | resets stage => exact tidy.resets stage
  | unlinks m stage unlinked =>
    obtain ⟨path, removed, rfl⟩ := unlinked.frame
    exact tidy.unlinks stage

/-- While there is a thread, there is no call of `start`. -/
theorem Tidy.present (tidy : Tidy s) (present : s.thread ≠ .absent) :
    s.call.candidate = none ∧ s.listener.valid = true := by
  have threaded : (s.running || s.call.threaded) = true := by
    by_contra off
    exact present (tidy.thread.mpr (Bool.not_eq_true _ ▸ off))
  rcases Bool.or_eq_true_iff.mp threaded with runs | threaded
  · have idle : s.call = .idle := by
      by_contra busy
      rw [tidy.busy busy] at runs
      contradiction
    refine ⟨by rw [idle]; rfl, ?_⟩
    rw [tidy.listener, runs]
    rfl
  · obtain ⟨-, empty, listens, -⟩ := ServerCall.threaded_cases threaded
    refine ⟨empty, ?_⟩
    rw [tidy.listener, listens]
    exact Bool.or_true _

/-- The accepting thread goes on. -/
theorem Tidy.turns (tidy : Tidy s) (present : s.thread ≠ .absent) (next : AcceptStep)
    (remains : next ≠ .absent) {kernel : Descriptors}
    (balanced : FdClient.Balanced kernel
      ((next.client.bind UniqueFd.held).toList ++ s.listener.held.toList))
    (client : ∀ f, next.client = some f → f.valid = true)
    (leaves : next = .exited → s.running = false) : Tidy { s with kernel, thread := next } := by
  obtain ⟨empty, -⟩ := tidy.present present
  refine ⟨?_, tidy.proper, tidy.listener, tidy.owns, ?_, tidy.candidate, client, tidy.busy, ?_,
    tidy.told⟩
  · rw [holding, empty]
    exact balanced.perm List.perm_append_comm
  · have running := mt tidy.thread.mpr present
    exact ⟨fun absent => absurd absent remains, fun off => absurd off running⟩
  · intro runs
    refine ⟨(tidy.alive runs).1, ?_⟩
    intro exited
    rw [leaves exited] at runs
    contradiction

theorem Tidy.thread_balanced (tidy : Tidy s) (present : s.thread ≠ .absent) :
    FdClient.Balanced s.kernel
      ((s.thread.client.bind UniqueFd.held).toList ++ s.listener.held.toList) := by
  have balanced := tidy.balanced
  rw [holding, (tidy.present present).1] at balanced
  exact balanced.perm List.perm_append_comm

theorem Tidy.accepts (tidy : Tidy s) (moved : Accepts s s') : Tidy s' := by
  -- all but `accepts` leave the descriptors as they are
  have stays {next : AcceptStep} (present : s.thread ≠ .absent) (alone : s.thread.client = none)
      (next_alone : next.client = none) (remains : next ≠ .absent)
      (leaves : next = .exited → s.running = false) : Tidy { s with thread := next } := by
    have balanced := tidy.thread_balanced present
    rw [alone, ← next_alone] at balanced
    apply tidy.turns present next remains balanced _ leaves
    simp [next_alone]
  cases moved with
  | leaves stage told =>
    refine stays (by simp [stage]) (by rw [stage]; rfl) rfl nofun ?_
    intro _
    by_contra runs
    rw [(tidy.alive (Bool.not_eq_false _ ▸ runs)).1] at told
    contradiction
  | checks stage untold => exact stays (by simp [stage]) (by rw [stage]; rfl) rfl nofun nofun
  | polls next stage next_cases =>
    rcases next_cases with rfl | rfl <;>
      exact stays (by simp [stage]) (by rw [stage]; rfl) rfl nofun nofun
  | fails next stage next_cases =>
    rcases next_cases with rfl | rfl <;>
      exact stays (by simp [stage]) (by rw [stage]; rfl) rfl nofun nofun
  | accepts f kernel stage valid granted =>
    have present : s.thread ≠ .absent := by simp [stage]
    have balanced := tidy.thread_balanced present
    rw [stage] at balanced
    apply tidy.turns present (.serving f) nofun (balanced.grant granted) _ nofun
    rintro _ ⟨⟩
    exact valid
  | breaks stage stopped =>
    exact stays (by simp [stage]) (by rw [stage]; rfl) rfl nofun (fun _ => stopped)
  | continues stage runs => exact stays (by simp [stage]) (by rw [stage]; rfl) rfl nofun nofun

theorem Tidy.served (tidy : Tidy s) (stage : s.thread = .serving f) :
    Tidy { s with kernel := f.destroy s.kernel, thread := .checking } := by
  have present : s.thread ≠ .absent := by simp [stage]
  have balanced := tidy.thread_balanced present
  rw [stage] at balanced
  exact tidy.turns present .checking nofun (balanced.reset (-1)) nofun nofun

theorem refuse_idle (idle : s.call = .idle) (error : StartError) : (s.refuse {} error).1 = s := by
  rw [refuse, UniqueFd.destroy_invalid rfl, ← idle]

theorem Tidy.start (tidy : Tidy s) (idle : s.call = .idle) : Tidy (s.start socketPath).1 := by
  unfold UnixCommandServer.start
  split
  · rw [refuse_idle idle]
    exact tidy
  · rename_i off
    have still : s.running = false := Bool.not_eq_true _ ▸ off
    split
    · rw [refuse_idle idle]
      exact tidy
    · obtain ⟨balanced, proper, listener, owns, thread, -, client, -, -, -⟩ := tidy
      rw [still, idle] at listener owns thread
      rw [holding, idle] at balanced
      refine ⟨balanced, proper, ?_, ?_, ?_, nofun, client, fun _ => still, ?_, nofun⟩
      · exact still ▸ listener
      · exact still ▸ owns
      · exact still ▸ thread
      · simp [still]

theorem Tidy.stop (tidy : Tidy s) (idle : s.call = .idle) : Tidy s.stop := by
  unfold UnixCommandServer.stop
  split
  · rename_i runs
    obtain ⟨balanced, proper, listener, owns, thread, -, client, -, -, -⟩ := tidy
    rw [runs, idle] at listener owns thread
    rw [holding, idle] at balanced
    exact ⟨balanced, proper, listener, owns, thread, nofun, client, fun _ => rfl, nofun, nofun⟩
  · exact tidy

theorem Tidy.step (tidy : Tidy s) (moved : s.step socketPath euid label = some (s', answer)) :
    Tidy s' := by
  cases label with
  | start =>
    obtain ⟨idle, same⟩ := Option.ite_none_right_eq_some.mp moved
    have started : Tidy (s.start socketPath).1 := tidy.start idle
    rw [Option.some.inj same] at started
    exact started
  | stop =>
    obtain ⟨idle, same⟩ := Option.ite_none_right_eq_some.mp moved
    cases same
    exact tidy.stop idle
  | caller given =>
    exact tidy.calls (callerStep_calls tidy.candidate_opened tidy.listener_opened moved)
  | thread given =>
    obtain ⟨next, turned, same⟩ := Option.map_eq_some_iff.mp moved
    cases same
    refine tidy.accepts (acceptLoop_accepts ?_ turned)
    intro present _
    exact tidy.listener_opened (tidy.present present).2
  | exchange =>
    simp only [UnixCommandServer.step] at moved
    split at moved
    · rename_i f stage
      cases moved
      rw [use_opened (tidy.client_opened stage)]
      exact tidy
    · cases moved
  | served =>
    simp only [UnixCommandServer.step] at moved
    split at moved
    · rename_i f stage
      cases moved
      exact tidy.served stage
    · cases moved
  | outside path =>
    cases moved
    exact ⟨tidy.balanced, tidy.proper, tidy.listener, tidy.owns, tidy.thread, tidy.candidate,
      tidy.client, tidy.busy, tidy.alive, tidy.told⟩

/- What an answer of `start` says about the server. -/
def Answer.Holds : Answer → UnixCommandServer → Prop
  | .none, _ => True
  | .refused error, s => s.call = .idle ∧ (s.running = true ↔ error = .serverAlreadyRunning)
  | .started, s => s.call = .idle ∧ s.running = true

theorem Tidy.calls_holds (tidy : Tidy s) (moved : Calls euid s s' answer) : answer.Holds s' := by
  have still : s.call ≠ .idle → s.running = false := tidy.busy
  cases moved with
  | refuses error stage other =>
    refine ⟨rfl, ?_⟩
    have off := still (by rcases stage with stage | stage | stage <;> simp [stage])
    simp [off, other]
  | failsToBind f errno stage => exact ⟨rfl, by simp [still (by simp [stage])]⟩
  | givesUp f errno m stage unlinked =>
    obtain ⟨path, removed, rfl⟩ := unlinked.frame
    exact ⟨rfl, by simp [still (by simp [stage])]⟩
  | commits f stage => exact ⟨rfl, rfl⟩
  | _ => trivial

theorem start_holds : (s.start socketPath).2.Holds (s.start socketPath).1 := by
  unfold UnixCommandServer.start
  split
  · rename_i runs
    exact ⟨rfl, by simp [refuse, runs]⟩
  · rename_i off
    split
    · exact ⟨rfl, by simp [refuse, off]⟩
    · trivial

theorem Tidy.step_holds (tidy : Tidy s)
    (moved : s.step socketPath euid label = some (s', answer)) : answer.Holds s' := by
  cases label with
  | start =>
    obtain ⟨-, same⟩ := Option.ite_none_right_eq_some.mp moved
    have holds : (s.start socketPath).2.Holds (s.start socketPath).1 := start_holds
    rw [Option.some.inj same] at holds
    exact holds
  | caller given =>
    exact tidy.calls_holds (callerStep_calls tidy.candidate_opened tidy.listener_opened moved)
  | stop =>
    obtain ⟨-, same⟩ := Option.ite_none_right_eq_some.mp moved
    cases same
    trivial
  | thread given =>
    obtain ⟨_, -, same⟩ := Option.map_eq_some_iff.mp moved
    cases same
    trivial
  | exchange | served =>
    simp only [UnixCommandServer.step] at moved
    split at moved <;> cases moved
    trivial
  | outside path =>
    cases moved
    trivial

theorem run_tidy {path : Option PathEntry} {labels : List ServerLabel} {answers : List Answer}
    (history : Exec.run (step socketPath euid) { path } labels = some (s, answers)) :
    Tidy s ∧ ∀ answer, answers.getLast? = some answer → answer.Holds s := by
  refine Exec.run_induction (P := fun _ answers s => Tidy s ∧ ∀ answer,
    answers.getLast? = some answer → answer.Holds s) ?_ ?_ history
  · refine ⟨⟨⟨.nil, .nil, rfl⟩, rfl, rfl, rfl, ?_, nofun, nofun, ?_, nofun, ?_⟩, nofun⟩
    · exact ⟨fun _ => rfl, fun _ => rfl⟩
    · exact fun _ => rfl
    · simp
  · rintro labels answers s label s' answer ⟨tidy, -⟩ moved
    refine ⟨tidy.step moved, ?_⟩
    intro last same
    rw [List.getLast?_concat] at same
    cases same
    exact tidy.step_holds moved

end Tidiness

/-- Over any calls of `start` and `stop`, whatever the system calls return and whatever
becomes of the path: no descriptor is used or closed that is not open; a server that runs
has a thread, which has not left its loop, and the listener and the client being served
are all that is open; between calls a server that does not run has no descriptor, no thread
and no path; and `start` says truly whether the server runs. -/
theorem server_descriptors (socketPath : List UInt8) (euid : Nat) (path : Option PathEntry)
    (labels : List ServerLabel) (s : UnixCommandServer) (answers : List Answer)
    (history : Exec.run (step socketPath euid) { path } labels = some (s, answers)) :
    s.misused = 0 ∧ s.kernel.misclosed = 0 ∧
      (s.running = true →
        s.thread ≠ .absent ∧ s.thread ≠ .exited ∧ s.ownsSocketPath = true ∧
        s.kernel.opened.Perm
          (s.listener.descriptor :: (s.thread.client.map UniqueFd.descriptor).toList)) ∧
      (s.running = false → s.call = .idle →
        s.kernel.opened = [] ∧ s.thread = .absent ∧ s.ownsSocketPath = false) ∧
      ∀ answer, answers.getLast? = some answer → answer.Holds s := by
  obtain ⟨tidy, holds⟩ := run_tidy history
  refine ⟨tidy.proper, tidy.balanced.closed, ?_, ?_, holds⟩
  · intro runs
    have present : s.thread ≠ .absent := by
      intro absent
      have off := tidy.thread.mp absent
      rw [runs] at off
      contradiction
    refine ⟨present, (tidy.alive runs).2, by rw [tidy.owns, runs]; rfl, ?_⟩
    have listening := UniqueFd.held_valid (tidy.present present).2
    have serving : s.thread.client.bind UniqueFd.held =
        s.thread.client.map UniqueFd.descriptor := by
      cases client : s.thread.client with
      | none => rfl
      | some f => exact UniqueFd.held_valid (tidy.client f client)
    have holding := (tidy.thread_balanced present).holds
    rw [listening, serving] at holding
    exact holding.symm.trans List.perm_append_comm
  · intro still idle
    have absent := tidy.thread.mpr (by rw [still, idle]; rfl)
    have invalid : s.listener.valid = false := by rw [tidy.listener, still, idle]; rfl
    have holding := tidy.balanced.holds
    rw [UnixCommandServer.holding, UniqueFd.held_invalid invalid, idle, absent] at holding
    exact ⟨holding.symm.eq_nil, absent, by rw [tidy.owns, still, idle]; rfl⟩

/- Started over a stale socket; a client is being served. -/
def serving : List ServerLabel :=
  [.start, .caller {}, .caller {}, .caller { result := 3 }, .caller {}, .caller {}, .caller {},
    .thread {}, .thread { result := 1 }, .thread { result := 4 }, .exchange]

theorem server_descriptors_serving :
    ∃ s answers, Exec.run (step (Ipc.literal "/tmp/edge.sock") 1000)
        { path := some ⟨true, 1000⟩ } serving = some (s, answers) ∧
      s.running = true ∧ s.kernel.opened.Perm [3, 4] := by
  obtain ⟨⟨s, answers⟩, history, shows⟩ := (Option.any_eq_true _ _).mp
    (show (Exec.run (step (Ipc.literal "/tmp/edge.sock") 1000) { path := some ⟨true, 1000⟩ }
      serving).any (fun reached => reached.1.running && reached.1.listener.descriptor = 3 &&
        reached.1.thread = .serving { descriptor := 4 }) = true by decide)
  obtain ⟨⟨runs, listener⟩, client⟩ : (s.running = true ∧ s.listener.descriptor = 3) ∧
      s.thread = .serving { descriptor := 4 } := by simpa using shows
  have opened := ((server_descriptors _ _ _ _ _ _ history).2.2.1 runs).2.2.2
  rw [listener, client] at opened
  exact ⟨s, answers, history, runs, opened⟩

end UnixCommandServer

end EdgeSentinel
