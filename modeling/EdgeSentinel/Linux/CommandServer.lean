import EdgeSentinel.Ipc.Client
import EdgeSentinel.Linux.Descriptor
import EdgeSentinel.Linux.UartSource

/-! The command server from `start` to `stop`: the thread that calls them, the thread that
accepts, and whoever else may change what lies at the socket's path. A label carries what
a system call gives back. What happens on one connection is the subject of `Ipc.Server`. -/
namespace EdgeSentinel

def ENOENT : Nat := 2

/- What `lstat` says of a path. -/
structure PathEntry where
  isSocket : Bool
  uid : Nat
  deriving DecidableEq, Repr

/- Why `start` has failed; each constructor stands for one text of `error_message`, `system`
for that of `strerror`. -/
inductive StartError where
  | serverAlreadyRunning
  | invalidSocketPath
  | refusingToRemoveUnownedPath
  | system (errno : Nat)
  deriving DecidableEq, Repr

/- Where the calling thread stands, by the system call that comes next. -/
inductive ServerCall where
  | idle
  | inspecting
  | removing
  | creating
  | binding (candidate : UniqueFd)
  | restricting (candidate : UniqueFd)
  | listening (candidate : UniqueFd)
  | abandoning (candidate : UniqueFd) (errno : Nat)
  | requestingStop
  | shuttingDown
  | joining
  | resetting
  | unlinking
  deriving DecidableEq, Repr

/- The descriptor that `start` has not committed to yet. -/
def ServerCall.candidate : ServerCall → Option UniqueFd
  | .binding f | .restricting f | .listening f | .abandoning f _ => some f
  | _ => none

/- Where `accept_loop` stands; `absent` also after it has been joined. -/
inductive AcceptStep where
  | absent
  | checking
  | polling
  | accepting
  | deciding
  | serving (client : UniqueFd)
  | exited
  deriving DecidableEq, Repr

/- `stopRequested` is the stop token of the thread. The last four are not the server's: the
descriptors, what lies at the path, what the server has removed from there, and how many
system calls it has made on descriptors that were not open. -/
structure UnixCommandServer where
  listener : UniqueFd := {}
  running : Bool := false
  ownsSocketPath : Bool := false
  stopRequested : Bool := false
  thread : AcceptStep := .absent
  call : ServerCall := .idle
  kernel : Descriptors := {}
  path : Option PathEntry := none
  removed : List PathEntry := []
  misused : Nat := 0
  deriving DecidableEq, Repr

/- `exchange` is a system call of `serve_client`, `served` its return, `outside` a change of
the path by someone else. -/
inductive ServerLabel where
  | start
  | stop
  | caller (given : Returned)
  | thread (given : Returned)
  | exchange
  | served
  | outside (path : Option PathEntry)
  deriving DecidableEq, Repr

namespace UnixCommandServer

/- `refused` and `started` are what `start` returns. -/
inductive Answer where
  | none
  | refused (error : StartError)
  | started
  deriving DecidableEq, Repr

def use (s : UnixCommandServer) (f : UniqueFd) : UnixCommandServer :=
  if f.descriptor ∈ s.kernel.opened then s else { s with misused := s.misused + 1 }

/- There is nothing to remove from a path that is empty. -/
def unlink (s : UnixCommandServer) (given : Returned) : Option UnixCommandServer :=
  if given.result = 0 then
    s.path.map fun entry => { s with path := none, removed := s.removed ++ [entry] }
  else some s

/- `return false`, at which the candidate goes out of scope. -/
def refuse (s : UnixCommandServer) (candidate : UniqueFd) (error : StartError) :
    UnixCommandServer × Answer :=
  ({ s with kernel := candidate.destroy s.kernel, call := .idle }, .refused error)

section Threads

variable (socketPath : List UInt8) (euid : Nat)

/- What `bind` creates at the path. -/
def socketEntry : PathEntry := ⟨true, euid⟩

def start (s : UnixCommandServer) : UnixCommandServer × Answer :=
  if s.running then s.refuse {} .serverAlreadyRunning
  else if socketPath.isEmpty ∨ socketPath.length ≥ Ipc.sunPathSize then
    s.refuse {} .invalidSocketPath
  else ({ s with call := .inspecting }, .none)

def stop (s : UnixCommandServer) : UnixCommandServer :=
  if s.running then { s with running := false, call := .requestingStop } else s

/- The end of a `start` that succeeds; nobody else looks at what it sets. -/
def commit (s : UnixCommandServer) (candidate : UniqueFd) : UnixCommandServer × Answer :=
  ({ s with
      listener := (s.listener.reset s.kernel candidate.descriptor).2
      kernel := (s.listener.reset s.kernel candidate.descriptor).1
      running := true
      stopRequested := false
      thread := .checking
      call := .idle }, .started)

/-- What is left of `start` or `stop`, up to the next system call. -/
def callerStep (s : UnixCommandServer) (given : Returned) : Option (UnixCommandServer × Answer) :=
  match s.call with
  | .idle => none
  | .inspecting =>
    if given.result = 0 then
      s.path.map fun existing =>
        if !existing.isSocket ∨ existing.uid ≠ euid then
          s.refuse {} .refusingToRemoveUnownedPath
        else ({ s with call := .removing }, .none)
    else if given.errno ≠ ENOENT then some (s.refuse {} (.system given.errno))
    else some ({ s with call := .creating }, .none)
  | .removing =>
    (s.unlink given).map fun s =>
      if given.result ≠ 0 then s.refuse {} (.system given.errno)
      else ({ s with call := .creating }, .none)
  | .creating =>
    (s.kernel.grant given.result).map fun kernel =>
      let candidate : UniqueFd := { descriptor := given.result }
      if !candidate.valid then { s with kernel }.refuse candidate (.system given.errno)
      else ({ s with kernel, call := .binding candidate }, .none)
  | .binding candidate =>
    let s := s.use candidate
    if given.result ≠ 0 then some (s.refuse candidate (.system given.errno))
    else if s.path = none then
      some ({ s with
        path := some (socketEntry euid)
        ownsSocketPath := true
        call := .restricting candidate }, .none)
    else none
  | .restricting candidate =>
    some ({ s with
      call := if given.result ≠ 0 then .abandoning candidate given.errno
        else .listening candidate }, .none)
  | .listening candidate =>
    let s := s.use candidate
    if given.result ≠ 0 then some ({ s with call := .abandoning candidate given.errno }, .none)
    else some (s.commit candidate)
  | .abandoning candidate errno =>
    (s.unlink given).map fun s =>
      { s with ownsSocketPath := false }.refuse candidate (.system errno)
  | .requestingStop => some ({ s with stopRequested := true, call := .shuttingDown }, .none)
  | .shuttingDown =>
    let s := if s.listener.valid then s.use s.listener else s
    some ({ s with call := .joining }, .none)
  | .joining =>
    if s.thread = .exited ∨ s.thread = .absent then
      some ({ s with thread := .absent, call := .resetting }, .none)
    else none
  | .resetting =>
    some ({ s with
      listener := (s.listener.reset s.kernel (-1)).2
      kernel := (s.listener.reset s.kernel (-1)).1
      call := if s.ownsSocketPath then .unlinking else .idle }, .none)
  | .unlinking =>
    (s.unlink given).map fun s => ({ s with ownsSocketPath := false, call := .idle }, .none)

/-- `accept_loop`, up to the next system call or access to what the threads share. -/
def acceptLoop (s : UnixCommandServer) (given : Returned) : Option UnixCommandServer :=
  match s.thread with
  | .checking => some { s with thread := if s.stopRequested then .exited else .polling }
  | .polling =>
    some { s.use s.listener with
      thread := if given.result ≤ 0 ∨ !given.readable then .checking else .accepting }
  | .accepting =>
    let s := s.use s.listener
    (s.kernel.grant given.result).map fun kernel =>
      let client : UniqueFd := { descriptor := given.result }
      if !client.valid then
        { s with
          kernel := client.destroy kernel
          thread := if given.errno = EINTR then .checking else .deciding }
      else { s with kernel, thread := .serving client }
  | .deciding => some { s with thread := if !s.running then .exited else .checking }
  | _ => none

def step (s : UnixCommandServer) : ServerLabel → Option (UnixCommandServer × Answer)
  | .start => if s.call = .idle then some (s.start socketPath) else none
  | .stop => if s.call = .idle then some (s.stop, .none) else none
  | .caller given => s.callerStep euid given
  | .thread given => (s.acceptLoop given).map (·, .none)
  | .exchange =>
    match s.thread with
    | .serving client => some (s.use client, .none)
    | _ => none
  | .served =>
    match s.thread with
    | .serving client =>
      some ({ s with kernel := client.destroy s.kernel, thread := .checking }, .none)
    | _ => none
  | .outside path => some ({ s with path }, .none)

end Threads

section Steps

variable {euid : Nat} {s s' m : UnixCommandServer} {given : Returned} {answer : Answer}
  {f : UniqueFd}

/- A removal that may fail. -/
inductive Unlinks (s : UnixCommandServer) : UnixCommandServer → Prop where
  | fails : Unlinks s s
  | removes (entry : PathEntry) (here : s.path = some entry) :
      Unlinks s { s with path := none, removed := s.removed ++ [entry] }

/-- The steps of the calling thread, by what they change. -/
inductive Calls (euid : Nat) (s : UnixCommandServer) : UnixCommandServer → Answer → Prop where
  | refuses (error : StartError)
      (stage : s.call = .inspecting ∨ s.call = .removing ∨ s.call = .creating)
      (other : error ≠ .serverAlreadyRunning) :
      Calls euid s { s with call := .idle } (.refused error)
  | recognises (stage : s.call = .inspecting) (here : s.path = some (socketEntry euid)) :
      Calls euid s { s with call := .removing } .none
  | findsNothing (stage : s.call = .inspecting) : Calls euid s { s with call := .creating } .none
  | removes (entry : PathEntry) (stage : s.call = .removing) (here : s.path = some entry) :
      Calls euid s
        { s with path := none, removed := s.removed ++ [entry], call := .creating } .none
  | creates (candidate : UniqueFd) (kernel : Descriptors) (stage : s.call = .creating)
      (valid : candidate.valid = true)
      (granted : s.kernel.grant candidate.descriptor = some kernel) :
      Calls euid s { s with kernel, call := .binding candidate } .none
  | failsToBind (candidate : UniqueFd) (errno : Nat) (stage : s.call = .binding candidate) :
      Calls euid s { s with kernel := candidate.destroy s.kernel, call := .idle }
        (.refused (.system errno))
  | binds (candidate : UniqueFd) (stage : s.call = .binding candidate) :
      Calls euid s
        { s with
          path := some (socketEntry euid)
          ownsSocketPath := true
          call := .restricting candidate } .none
  | restricts (candidate : UniqueFd) (stage : s.call = .restricting candidate) :
      Calls euid s { s with call := .listening candidate } .none
  | abandons (candidate : UniqueFd) (errno : Nat)
      (stage : s.call = .restricting candidate ∨ s.call = .listening candidate) :
      Calls euid s { s with call := .abandoning candidate errno } .none
  | commits (candidate : UniqueFd) (stage : s.call = .listening candidate) :
      Calls euid s (s.commit candidate).1 .started
  | givesUp (candidate : UniqueFd) (errno : Nat) (m : UnixCommandServer)
      (stage : s.call = .abandoning candidate errno) (unlinked : Unlinks s m) :
      Calls euid s
        { m with
          ownsSocketPath := false
          kernel := candidate.destroy m.kernel
          call := .idle } (.refused (.system errno))
  | requests (stage : s.call = .requestingStop) :
      Calls euid s { s with stopRequested := true, call := .shuttingDown } .none
  | shutsDown (stage : s.call = .shuttingDown) : Calls euid s { s with call := .joining } .none
  | joins (stage : s.call = .joining) (ended : s.thread = .exited ∨ s.thread = .absent) :
      Calls euid s { s with thread := .absent, call := .resetting } .none
  | resets (stage : s.call = .resetting) :
      Calls euid s
        { s with
          listener := {}
          kernel := s.listener.destroy s.kernel
          call := if s.ownsSocketPath then .unlinking else .idle } .none
  | unlinks (m : UnixCommandServer) (stage : s.call = .unlinking) (unlinked : Unlinks s m) :
      Calls euid s { m with ownsSocketPath := false, call := .idle } .none

/-- The steps of the accepting thread. -/
inductive Accepts (s : UnixCommandServer) : UnixCommandServer → Prop where
  | leaves (stage : s.thread = .checking) (told : s.stopRequested = true) :
      Accepts s { s with thread := .exited }
  | checks (stage : s.thread = .checking) (untold : s.stopRequested = false) :
      Accepts s { s with thread := .polling }
  | polls (next : AcceptStep) (stage : s.thread = .polling)
      (next_cases : next = .checking ∨ next = .accepting) : Accepts s { s with thread := next }
  | fails (next : AcceptStep) (stage : s.thread = .accepting)
      (next_cases : next = .checking ∨ next = .deciding) : Accepts s { s with thread := next }
  | accepts (client : UniqueFd) (kernel : Descriptors) (stage : s.thread = .accepting)
      (valid : client.valid = true)
      (granted : s.kernel.grant client.descriptor = some kernel) :
      Accepts s { s with kernel, thread := .serving client }
  | breaks (stage : s.thread = .deciding) (stopped : s.running = false) :
      Accepts s { s with thread := .exited }
  | continues (stage : s.thread = .deciding) (runs : s.running = true) :
      Accepts s { s with thread := .checking }

theorem use_opened (opened : f.descriptor ∈ s.kernel.opened) : s.use f = s := if_pos opened

theorem unlink_unlinks (unlinked : s.unlink given = some m) : Unlinks s m := by
  unfold unlink at unlinked
  split at unlinked
  · obtain ⟨entry, here, same⟩ := Option.map_eq_some_iff.mp unlinked
    cases same
    exact .removes entry here
  · cases unlinked
    exact .fails

/-- Provided that what it uses is open. -/
theorem callerStep_calls
    (candidate : ∀ f, s.call.candidate = some f → f.descriptor ∈ s.kernel.opened)
    (listener : s.listener.valid = true → s.listener.descriptor ∈ s.kernel.opened)
    (moved : s.callerStep euid given = some (s', answer)) : Calls euid s s' answer := by
  unfold callerStep at moved
  cases stage : s.call with
  | idle =>
    rw [stage] at moved
    cases moved
  | inspecting =>
    simp only [stage] at moved
    split at moved
    · obtain ⟨entry, here, same⟩ := Option.map_eq_some_iff.mp moved
      split at same
      · cases same
        exact .refuses .refusingToRemoveUnownedPath (.inl stage) nofun
      · rename_i own
        cases same
        refine .recognises stage ?_
        obtain ⟨isSocket, uid⟩ := entry
        simp only [Bool.not_eq_true', ne_eq, not_or, Bool.not_eq_false, not_not] at own
        rw [here, socketEntry, ← own.1, ← own.2]
    · split at moved
      · cases moved
        exact .refuses _ (.inl stage) nofun
      · cases moved
        exact .findsNothing stage
  | removing =>
    simp only [stage] at moved
    obtain ⟨m, unlinked, same⟩ := Option.map_eq_some_iff.mp moved
    unfold unlink at unlinked
    split at unlinked
    · rename_i done
      obtain ⟨entry, here, taken⟩ := Option.map_eq_some_iff.mp unlinked
      rw [if_neg (not_not.mpr done)] at same
      cases taken
      cases same
      exact .removes entry stage here
    · rename_i failed
      cases unlinked
      rw [if_pos failed] at same
      cases same
      exact .refuses _ (.inr (.inl stage)) nofun
  | creating =>
    simp only [stage] at moved
    obtain ⟨kernel, granted, same⟩ := Option.map_eq_some_iff.mp moved
    cases valid : ({ descriptor := given.result } : UniqueFd).valid with
    | true =>
      simp only [valid] at same
      cases same
      exact .creates { descriptor := given.result } kernel stage valid granted
    | false =>
      simp only [valid] at same
      cases same
      have unchanged := UniqueFd.grant_invalid valid granted
      simp only [UniqueFd.destroy_invalid valid, unchanged]
      exact .refuses _ (.inr (.inr stage)) nofun
  | binding f =>
    have opened := candidate f (by rw [stage]; rfl)
    simp only [stage, use_opened opened] at moved
    split at moved
    · cases moved
      exact .failsToBind f _ stage
    · split at moved
      · cases moved
        exact .binds f stage
      · cases moved
  | restricting f =>
    simp only [stage] at moved
    cases moved
    split
    · exact .abandons f _ (.inl stage)
    · exact .restricts f stage
  | listening f =>
    have opened := candidate f (by rw [stage]; rfl)
    simp only [stage, use_opened opened] at moved
    split at moved
    · cases moved
      exact .abandons f _ (.inr stage)
    · cases moved
      exact .commits f stage
  | abandoning f errno =>
    simp only [stage] at moved
    obtain ⟨m, unlinked, same⟩ := Option.map_eq_some_iff.mp moved
    cases same
    exact .givesUp f errno m stage (unlink_unlinks unlinked)
  | requestingStop =>
    simp only [stage] at moved
    cases moved
    exact .requests stage
  | shuttingDown =>
    simp only [stage] at moved
    cases valid : s.listener.valid with
    | true =>
      simp only [valid, use_opened (listener valid)] at moved
      cases moved
      exact .shutsDown stage
    | false =>
      simp only [valid] at moved
      cases moved
      exact .shutsDown stage
  | joining =>
    simp only [stage] at moved
    obtain ⟨ended, same⟩ := Option.ite_none_right_eq_some.mp moved
    cases same
    exact .joins stage ended
  | resetting =>
    simp only [stage] at moved
    cases moved
    exact .resets stage
  | unlinking =>
    simp only [stage] at moved
    obtain ⟨m, unlinked, same⟩ := Option.map_eq_some_iff.mp moved
    cases same
    exact .unlinks m stage (unlink_unlinks unlinked)

theorem acceptLoop_accepts
    (listener : s.thread ≠ .absent → s.thread ≠ .exited →
      s.listener.descriptor ∈ s.kernel.opened)
    (moved : s.acceptLoop given = some s') : Accepts s s' := by
  unfold acceptLoop at moved
  cases stage : s.thread with
  | absent | exited | serving f =>
    simp only [stage] at moved
    cases moved
  | checking =>
    simp only [stage] at moved
    cases moved
    split
    · rename_i told
      exact .leaves stage told
    · rename_i untold
      exact .checks stage (Bool.not_eq_true _ ▸ untold)
  | polling =>
    have opened := listener (by simp [stage]) (by simp [stage])
    simp only [stage, use_opened opened] at moved
    cases moved
    split
    · exact .polls _ stage (.inl rfl)
    · exact .polls _ stage (.inr rfl)
  | accepting =>
    have opened := listener (by simp [stage]) (by simp [stage])
    simp only [stage, use_opened opened] at moved
    obtain ⟨kernel, granted, same⟩ := Option.map_eq_some_iff.mp moved
    cases valid : ({ descriptor := given.result } : UniqueFd).valid with
    | true =>
      simp only [valid] at same
      cases same
      exact .accepts { descriptor := given.result } kernel stage valid granted
    | false =>
      simp only [valid, UniqueFd.destroy_invalid valid,
        UniqueFd.grant_invalid valid granted] at same
      cases same
      apply Accepts.fails _ stage
      split
      · exact .inl rfl
      · exact .inr rfl
  | deciding =>
    simp only [stage] at moved
    cases moved
    split
    · rename_i stopped
      exact .breaks stage (Bool.not_eq_true' _ ▸ stopped)
    · rename_i runs
      exact .continues stage (by simpa using runs)

end Steps

end UnixCommandServer

end EdgeSentinel
