import EdgeSentinel.Ipc.Client
import EdgeSentinel.Library.Exec

/-! One connection with both of its ends: `edgectl` after `connect`, and `serve_client`.
Bytes in flight are a queue in either direction; every system call takes or gives as many
of them as it likes, and may fail. -/
namespace EdgeSentinel.Ipc

inductive ClientOutcome where
  | printed (bytes : List UInt8)
  | sendError (errno : Nat)
  | receiveError (errno : Nat)
  deriving DecidableEq, Repr

inductive ClientStep where
  | sending
  | shuttingDown
  | receiving
  | exited (outcome : ClientOutcome)
  deriving DecidableEq, Repr

inductive ServingStep where
  | receiving
  | calling (command : List UInt8)
  | sending (rest : List UInt8)
  | closed
  deriving DecidableEq, Repr

/- `unsent` is the rest of the client's `command`, `buffer` the used part of the server's;
`handled` is what the handler has been called with. -/
structure Exchange where
  client : ClientStep := .sending
  unsent : List UInt8
  upstream : List UInt8 := []
  upstreamEnded : Bool := false
  server : ServingStep := .receiving
  buffer : List UInt8 := []
  downstream : List UInt8 := []
  downstreamEnded : Bool := false
  handled : List (List UInt8) := []
  deriving DecidableEq, Repr

/- The system calls of the two ends, with what they return; `turn` is a round of the
server's receiving loop, `call` its call of the handler, `reply` a round of its sending
loop. -/
inductive ExchangeLabel where
  | send (count : Int) (errno : Nat)
  | shutdown (done : Bool)
  | recv (received : Int) (errno : Nat)
  | turn (turn : Turn)
  | call
  | reply (count : Int)
  deriving DecidableEq, Repr

def responseSize : Nat := 2048

/- The newline that `serve_client` adds. -/
def framed (response : List UInt8) : List UInt8 :=
  if response.getLast? = some newline then response else response ++ [newline]

namespace Exchange

def exit (x : Exchange) (outcome : ClientOutcome) : Exchange :=
  { x with client := .exited outcome, upstreamEnded := true }

def clientSend (x : Exchange) (count : Int) (errno : Nat) : Option Exchange :=
  if x.client = .sending then
    if count ≤ 0 then some (x.exit (.sendError errno))
    else if count.toNat ≤ x.unsent.length then
      some { x with
        upstream := x.upstream ++ x.unsent.take count.toNat
        unsent := x.unsent.drop count.toNat
        client := if x.unsent.drop count.toNat = [] then .shuttingDown else .sending }
    else none
  else none

/- Its result is ignored. -/
def clientShutdown (x : Exchange) (done : Bool) : Option Exchange :=
  if x.client = .shuttingDown then
    some { x with client := .receiving, upstreamEnded := done || x.upstreamEnded }
  else none

/- The one call of `recv`, which waits for the first bytes or the end of the stream. -/
def clientRecv (x : Exchange) (received : Int) (errno : Nat) : Option Exchange :=
  if x.client = .receiving then
    if received < 0 ∨ (received = 0 ∧ x.downstream = [] ∧ x.downstreamEnded) then
      some (x.exit (.receiveError errno))
    else if 0 < received ∧ received.toNat ≤ x.downstream.length ∧
        received.toNat ≤ responseSize then
      some { x.exit (.printed (x.downstream.take received.toNat)) with
        downstream := x.downstream.drop received.toNat }
    else none
  else none

def close (x : Exchange) : Exchange := { x with server := .closed, downstreamEnded := true }

/- Behind the receiving loop. -/
def judged (x : Exchange) : Exchange :=
  match judge x.buffer with
  | .noReply => x.close
  | .tooLong => { x with server := .sending (literal "error=too_long\n") }
  | .handler command => { x with server := .calling command }

def take (x : Exchange) (chunk : List UInt8) : Exchange :=
  { x with buffer := x.buffer ++ chunk, upstream := x.upstream.drop chunk.length }

/- As much as there is of what has arrived, or less; nothing only at its end. -/
def serverTurn (x : Exchange) (turn : Turn) : Option Exchange :=
  if x.server = .receiving then
    match turn with
    | .pollInterrupted | .recvInterrupted => some x
    | .pollEnded => some x.close
    | .recvFailed => some x.judged
    | .received chunk =>
      if chunk = [] then
        if x.upstream = [] ∧ x.upstreamEnded then some x.judged else none
      else if chunk <+: x.upstream ∧ x.buffer.length + chunk.length ≤ bufferSize then
        some (if newline ∈ (x.take chunk).buffer ∨ ¬ (x.take chunk).buffer.length < bufferSize then
            (x.take chunk).judged
          else x.take chunk)
      else none
  else none

def serverReply (x : Exchange) (count : Int) : Option Exchange :=
  match x.server with
  | .sending rest =>
    if count ≤ 0 then some x.close
    else if count.toNat ≤ rest.length then
      let x := { x with
        downstream := x.downstream ++ rest.take count.toNat
        server := .sending (rest.drop count.toNat) }
      some (if rest.drop count.toNat = [] then x.close else x)
    else none
  | _ => none

section Ends

variable (handler : List UInt8 → List UInt8)

def serverCall (x : Exchange) : Option Exchange :=
  match x.server with
  | .calling command =>
    some { x with
      server := .sending (framed (handler command))
      handled := x.handled ++ [command] }
  | _ => none

def step (x : Exchange) : ExchangeLabel → Option (Exchange × Unit)
  | .send count errno => (x.clientSend count errno).map (·, ())
  | .shutdown done => (x.clientShutdown done).map (·, ())
  | .recv received errno => (x.clientRecv received errno).map (·, ())
  | .turn turn => (x.serverTurn turn).map (·, ())
  | .call => (x.serverCall handler).map (·, ())
  | .reply count => (x.serverReply count).map (·, ())

end Ends

end Exchange

/- The rounds of the server's receiving loop. -/
def ExchangeLabel.turn? : ExchangeLabel → Option Turn
  | .turn round => some round
  | _ => none

namespace Exchange

variable {handler : List UInt8 → List UInt8} {request : List UInt8} {x x' : Exchange}
  {turns : List Turn} {label : ExchangeLabel}

def printed (x : Exchange) : List UInt8 :=
  match x.client with
  | .exited (.printed bytes) => bytes
  | _ => []

/- What has left the server. -/
def delivered (x : Exchange) : List UInt8 := x.printed ++ x.downstream

/- The client has given up with some of its request unsent. -/
def Broken (x : Exchange) : Prop := ∃ errno, x.client = .exited (.sendError errno)

/-- The client's side: what is in the buffer, in flight and unsent make up the request. -/
structure Streams (request : List UInt8) (x : Exchange) : Prop where
  whole : x.buffer ++ x.upstream ++ x.unsent = request
  unfinished : x.client = .sending → x.unsent ≠ []
  finished : x.client ≠ .sending → ¬ x.Broken → x.unsent = []
  ended : x.upstreamEnded = true → x.client ≠ .sending
  heard : ∀ bytes, x.client = .exited (.printed bytes) → bytes ≠ [] ∧ bytes.length ≤ responseSize

/- The buffer will not be added to, and why. -/
def Complete (turns : List Turn) (x : Exchange) : Prop :=
  .recvFailed ∈ turns ∨ newline ∈ x.buffer ∨ bufferSize ≤ x.buffer.length ∨
    (x.upstream = [] ∧ (x.unsent = [] ∨ x.Broken))

/- The calls of the handler that follow from the buffer. -/
def calls (buffer : List UInt8) : List (List UInt8) :=
  match judge buffer with
  | .handler command => [command]
  | _ => []

/-- The server's side: it does what `serveClient` says of the rounds so far. -/
inductive Serves (handler : List UInt8 → List UInt8) (turns : List Turn) (x : Exchange) : Prop where
  | receiving (phase : x.server = .receiving)
      (soFar : ∀ rest, receive [] (turns ++ rest) = receive x.buffer rest)
      (unread : newline ∉ x.buffer) (room : x.buffer.length < bufferSize) (idle : x.handled = [])
      (silent : x.delivered = [])
  | calling (phase : x.server = .calling x.buffer) (collected : receive [] turns = some x.buffer)
      (passes : judge x.buffer = .handler x.buffer) (complete : Complete turns x)
      (idle : x.handled = []) (silent : x.delivered = [])
  | sending (rest reply : List UInt8) (phase : x.server = .sending rest)
      (collected : receive [] turns = some x.buffer) (complete : Complete turns x)
      (served : serveClient handler turns = some reply) (sent : x.delivered ++ rest = reply)
      (handled : x.handled = calls x.buffer)
  | refused (phase : x.server = .closed) (idle : x.handled = []) (silent : x.delivered = [])
  | replied (reply : List UInt8) (phase : x.server = .closed)
      (collected : receive [] turns = some x.buffer) (complete : Complete turns x)
      (served : serveClient handler turns = some reply) (sent : x.delivered <+: reply)
      (handled : x.handled = calls x.buffer)

section Steps

theorem Serves.frame (serves : Serves handler turns x) (server : x'.server = x.server)
    (buffer : x'.buffer = x.buffer) (handled : x'.handled = x.handled)
    (delivered : x'.delivered = x.delivered) (complete : Complete turns x → Complete turns x') :
    Serves handler turns x' := by
  cases serves with
  | receiving phase soFar unread room idle silent =>
    rw [← buffer] at soFar unread room
    exact .receiving (server.trans phase) soFar unread room (handled.trans idle)
      (delivered.trans silent)
  | calling phase collected passes all idle silent =>
    rw [← buffer] at phase collected passes
    exact .calling (server.trans phase) collected passes (complete all) (handled.trans idle)
      (delivered.trans silent)
  | sending rest reply phase collected all served sent calls =>
    rw [← buffer] at collected calls
    rw [← delivered] at sent
    exact .sending rest reply (server.trans phase) collected (complete all) served sent
      (handled.trans calls)
  | refused phase idle silent =>
    exact .refused (server.trans phase) (handled.trans idle) (delivered.trans silent)
  | replied reply phase collected all served sent calls =>
    rw [← buffer] at collected calls
    rw [← delivered] at sent
    exact .replied reply (server.trans phase) collected (complete all) served sent
      (handled.trans calls)

/-- A client that has sent everything, or given up, cannot complete the buffer otherwise. -/
theorem Complete.frame (complete : Complete turns x) (buffer : x'.buffer = x.buffer)
    (stays : x.upstream = [] ∧ (x.unsent = [] ∨ x.Broken) →
      x'.upstream = [] ∧ (x'.unsent = [] ∨ x'.Broken)) : Complete turns x' := by
  rcases complete with failed | found | full | dry
  · exact .inl failed
  · exact .inr (.inl (buffer ▸ found))
  · exact .inr (.inr (.inl (buffer ▸ full)))
  · exact .inr (.inr (.inr (stays dry)))

/-- Both sides together. -/
structure Flows (handler : List UInt8 → List UInt8) (request : List UInt8) (turns : List Turn)
    (x : Exchange) : Prop where
  streams : Streams request x
  serves : Serves handler turns x

theorem Flows.clientSend (flows : Flows handler request turns x) {count : Int} {errno : Nat}
    (moved : x.clientSend count errno = some x') : Flows handler request turns x' := by
  obtain ⟨⟨whole, unfinished, finished, ended, heard⟩, serves⟩ := flows
  obtain ⟨sending, moved⟩ := Option.ite_none_right_eq_some.mp moved
  have some := unfinished sending
  have sound : ¬ x.Broken := by
    rintro ⟨errno, broken⟩
    rw [sending] at broken
    contradiction
  split at moved
  · cases moved
    refine ⟨⟨whole, nofun, ?_, nofun, nofun⟩, ?_⟩
    · exact fun _ sound => absurd ⟨errno, rfl⟩ sound
    · refine serves.frame rfl rfl rfl ?_ fun complete => complete.frame rfl ?_
      · simp [delivered, printed, exit, sending]
      · exact fun dry => ⟨dry.1, .inr ⟨errno, rfl⟩⟩
  · obtain ⟨fits, same⟩ := Option.ite_none_right_eq_some.mp moved
    cases same
    have kept : x.buffer ++ (x.upstream ++ x.unsent.take count.toNat) ++
        x.unsent.drop count.toNat = request := by
      rw [← whole, List.append_assoc, List.append_assoc, List.append_assoc,
        List.take_append_drop]
    have open' : x.upstreamEnded ≠ true := fun stopped => absurd sending (ended stopped)
    have moves : x.upstream = [] ∧ (x.unsent = [] ∨ x.Broken) → False := by
      rintro ⟨-, dry | broken⟩
      · exact absurd dry some
      · exact absurd broken sound
    by_cases rest : x.unsent.drop count.toNat = []
    · simp only [if_pos rest]
      refine ⟨⟨kept, nofun, fun _ _ => rest, fun stopped => absurd stopped open', nofun⟩, ?_⟩
      refine serves.frame rfl rfl rfl ?_ fun complete => complete.frame rfl (absurd · moves)
      simp [delivered, printed, sending]
    · simp only [if_neg rest]
      refine ⟨⟨kept, fun _ => rest, fun idle => absurd rfl idle,
        fun stopped => absurd stopped open', nofun⟩, ?_⟩
      refine serves.frame rfl rfl rfl ?_ fun complete => complete.frame rfl (absurd · moves)
      simp [delivered, printed, sending]

theorem Flows.clientShutdown (flows : Flows handler request turns x) {done : Bool}
    (moved : x.clientShutdown done = some x') : Flows handler request turns x' := by
  obtain ⟨⟨whole, unfinished, finished, ended, heard⟩, serves⟩ := flows
  obtain ⟨stage, same⟩ := Option.ite_none_right_eq_some.mp moved
  cases same
  have sound : ¬ x.Broken := by
    rintro ⟨errno, broken⟩
    rw [stage] at broken
    contradiction
  have empty := finished (by simp [stage]) sound
  refine ⟨⟨whole, nofun, fun _ _ => empty, nofun, nofun⟩, ?_⟩
  refine serves.frame rfl rfl rfl ?_ fun complete => complete.frame rfl ?_
  · simp [delivered, printed, stage]
  · exact fun dry => ⟨dry.1, .inl empty⟩

theorem Flows.clientRecv (flows : Flows handler request turns x) {received : Int} {errno : Nat}
    (moved : x.clientRecv received errno = some x') : Flows handler request turns x' := by
  obtain ⟨⟨whole, unfinished, finished, ended, heard⟩, serves⟩ := flows
  obtain ⟨stage, moved⟩ := Option.ite_none_right_eq_some.mp moved
  have sound : ¬ x.Broken := by
    rintro ⟨errno, broken⟩
    rw [stage] at broken
    contradiction
  have empty := finished (by simp [stage]) sound
  split at moved
  · cases moved
    refine ⟨⟨whole, nofun, fun _ _ => empty, nofun, nofun⟩, ?_⟩
    refine serves.frame rfl rfl rfl ?_ fun complete => complete.frame rfl ?_
    · simp [delivered, printed, exit, stage]
    · exact fun dry => ⟨dry.1, .inl empty⟩
  · obtain ⟨⟨positive, there, fits⟩, same⟩ := Option.ite_none_right_eq_some.mp moved
    cases same
    refine ⟨⟨whole, nofun, fun _ _ => empty, nofun, ?_⟩, ?_⟩
    · rintro bytes ⟨⟩
      have length : (x.downstream.take received.toNat).length = received.toNat :=
        List.length_take_of_le there
      exact ⟨List.ne_nil_of_length_pos (by omega), by omega⟩
    refine serves.frame rfl rfl rfl ?_ fun complete => complete.frame rfl ?_
    · simp [delivered, printed, exit, stage]
    · exact fun dry => ⟨dry.1, .inl empty⟩

/-- Behind the loop, whatever ended it. -/
theorem judged_serves (collected : receive [] turns = some x.buffer)
    (complete : Complete turns x) (idle : x.handled = []) (silent : x.delivered = []) :
    Serves handler turns x.judged := by
  have decided : decision turns = judge x.buffer := by
    rw [decision, collected, Option.map_some, Option.getD_some]
  unfold judged
  cases verdict : judge x.buffer with
  | noReply => exact .refused rfl idle silent
  | tooLong =>
    refine .sending _ (literal "error=too_long\n") rfl collected complete ?_ ?_ ?_
    · rw [serveClient, decided, verdict]
    · exact congrArg (· ++ literal "error=too_long\n") silent
    · simpa [calls, verdict] using idle
  | handler command =>
    have same := judge_handler verdict
    subst same
    exact .calling rfl collected verdict complete idle silent

theorem judged_streams (streams : Streams request x) : Streams request x.judged := by
  obtain ⟨whole, unfinished, finished, ended, heard⟩ := streams
  unfold judged
  split <;> exact ⟨whole, unfinished, finished, ended, heard⟩

theorem take_streams (streams : Streams request x) {chunk : List UInt8}
    (arrived : chunk <+: x.upstream) : Streams request (x.take chunk) := by
  obtain ⟨whole, unfinished, finished, ended, heard⟩ := streams
  obtain ⟨rest, same⟩ := arrived
  refine ⟨?_, unfinished, finished, ended, heard⟩
  rw [take, ← same, List.drop_left, ← whole, ← same]
  simp only [List.append_assoc]

theorem Flows.serverTurn (flows : Flows handler request turns x) {turn : Turn}
    (moved : x.serverTurn turn = some x') : Flows handler request (turns ++ [turn]) x' := by
  obtain ⟨streams, serves⟩ := flows
  obtain ⟨stage, turned⟩ := Option.ite_none_right_eq_some.mp moved
  cases serves with
  | receiving phase soFar unread room idle silent =>
    -- one more round of the loop
    have next (rest : List Turn) : receive [] (turns ++ [turn] ++ rest) =
        receive x.buffer (turn :: rest) := by
      rw [List.append_assoc, List.singleton_append]
      exact soFar (turn :: rest)
    have last : receive [] (turns ++ [turn]) = receive x.buffer [turn] := soFar [turn]
    cases turn with
    | pollInterrupted | recvInterrupted =>
      cases turned
      refine ⟨streams, .receiving phase ?_ unread room idle silent⟩
      intro rest
      rw [next, receive, if_pos room]
    | pollEnded =>
      cases turned
      obtain ⟨whole, unfinished, finished, ended, heard⟩ := streams
      exact ⟨⟨whole, unfinished, finished, ended, heard⟩, .refused rfl idle silent⟩
    | recvFailed =>
      cases turned
      refine ⟨judged_streams streams, judged_serves ?_ ?_ idle silent⟩
      · rw [last, receive, if_pos room]
      · exact .inl (by simp)
    | received chunk =>
      dsimp only at turned
      split at turned
      · rename_i nothing
        subst nothing
        obtain ⟨⟨dry, stopped⟩, same⟩ := Option.ite_none_right_eq_some.mp turned
        cases same
        refine ⟨judged_streams streams, judged_serves ?_ ?_ idle silent⟩
        · rw [last, receive, if_pos room]
        · refine .inr (.inr (.inr ⟨dry, ?_⟩))
          by_cases broken : x.Broken
          · exact .inr broken
          · exact .inl (streams.finished (streams.ended stopped) broken)
      · rename_i some
        obtain ⟨⟨arrived, fits⟩, same⟩ := Option.ite_none_right_eq_some.mp turned
        cases same
        have streams := take_streams streams arrived
        have silent : (x.take chunk).delivered = [] := silent
        by_cases stops : newline ∈ (x.take chunk).buffer ∨
            ¬ (x.take chunk).buffer.length < bufferSize
        · rw [if_pos stops]
          refine ⟨judged_streams streams, judged_serves ?_ ?_ idle silent⟩
          · rw [last, receive_received room some]
            split <;> rfl
          · rcases stops with found | full
            · exact .inr (.inl found)
            · exact .inr (.inr (.inl (Nat.not_lt.mp full)))
        · rw [if_neg stops]
          obtain ⟨unread, room'⟩ := not_or.mp stops
          refine ⟨streams, .receiving phase ?_ unread (not_not.mp room') idle silent⟩
          intro rest
          rw [next, receive_received room some]
          exact if_neg unread
  | calling phase | sending _ _ phase | refused phase | replied _ phase =>
    rw [stage] at phase
    contradiction

theorem Flows.serverCall (flows : Flows handler request turns x)
    (moved : x.serverCall handler = some x') : Flows handler request turns x' := by
  obtain ⟨streams, serves⟩ := flows
  unfold Exchange.serverCall at moved
  split at moved
  · rename_i command stage
    cases moved
    refine ⟨⟨streams.whole, streams.unfinished, streams.finished, streams.ended,
      streams.heard⟩, ?_⟩
    cases serves with
    | calling phase collected passes complete idle silent =>
      have same : command = x.buffer := ServingStep.calling.inj (stage.symm.trans phase)
      subst same
      have decided : decision turns = .handler x.buffer := by
        rw [decision, collected, Option.map_some, Option.getD_some, passes]
      refine .sending _ (framed (handler x.buffer)) rfl collected complete ?_ ?_ ?_
      · rw [serveClient, decided]
        rfl
      · exact congrArg (· ++ framed (handler x.buffer)) silent
      · simp [calls, passes, idle]
    | receiving phase | sending _ _ phase | refused phase | replied _ phase =>
      rw [stage] at phase
      contradiction
  · cases moved

theorem Flows.serverReply (flows : Flows handler request turns x) {count : Int}
    (moved : x.serverReply count = some x') : Flows handler request turns x' := by
  obtain ⟨streams, serves⟩ := flows
  have kept (server : ServingStep) (downstream : List UInt8) (stopped : Bool) : Streams request
      { x with server, downstream, downstreamEnded := stopped } :=
    ⟨streams.whole, streams.unfinished, streams.finished, streams.ended, streams.heard⟩
  unfold Exchange.serverReply at moved
  split at moved
  · rename_i rest stage
    cases serves with
    | sending rest' reply phase collected complete served sent handled =>
      have same : rest = rest' := ServingStep.sending.inj (stage.symm.trans phase)
      subst same
      split at moved
      · cases moved
        refine ⟨kept _ _ _, .replied reply rfl collected complete served ?_ handled⟩
        exact ⟨rest, sent⟩
      · obtain ⟨fits, same⟩ := Option.ite_none_right_eq_some.mp moved
        cases same
        have more : x.delivered ++ rest.take count.toNat ++ rest.drop count.toNat = reply := by
          rw [List.append_assoc, List.take_append_drop, sent]
        rw [delivered, List.append_assoc x.printed] at more
        split
        · refine ⟨kept _ _ _, .replied reply rfl collected complete served ?_ handled⟩
          exact ⟨_, more⟩
        · exact ⟨kept _ _ _, .sending _ reply rfl collected complete served more handled⟩
    | receiving phase | calling phase | refused phase | replied _ phase =>
      rw [stage] at phase
      contradiction
  · cases moved

theorem Flows.step (flows : Flows handler request turns x)
    (moved : x.step handler label = some (x', ())) :
    Flows handler request (turns ++ label.turn?.toList) x' := by
  have same {next : Option Exchange} (moved : next.map (·, ()) = some (x', ())) :
      next = some x' := by
    obtain ⟨reached, there, same⟩ := Option.map_eq_some_iff.mp moved
    cases same
    exact there
  cases label with
  | turn turn => exact flows.serverTurn (same moved)
  | send count errno => exact (List.append_nil turns).symm ▸ flows.clientSend (same moved)
  | shutdown done => exact (List.append_nil turns).symm ▸ flows.clientShutdown (same moved)
  | recv received errno => exact (List.append_nil turns).symm ▸ flows.clientRecv (same moved)
  | call => exact (List.append_nil turns).symm ▸ flows.serverCall (same moved)
  | reply count => exact (List.append_nil turns).symm ▸ flows.serverReply (same moved)

/- The rounds of a run. -/
def rounds (labels : List ExchangeLabel) : List Turn := labels.filterMap ExchangeLabel.turn?

theorem run_flows (some : request ≠ []) {labels : List ExchangeLabel} {answers : List Unit}
    (history : Exec.run (Exchange.step handler) { unsent := request } labels =
      .some (x, answers)) : Flows handler request (rounds labels) x := by
  refine Exec.run_induction (P := fun labels _ x => Flows handler request (rounds labels) x)
    ?_ ?_ history
  · refine ⟨⟨rfl, fun _ => some, fun idle => absurd rfl idle, nofun, nofun⟩, ?_⟩
    exact .receiving rfl (fun _ => rfl) List.not_mem_nil (show 0 < bufferSize by decide) rfl rfl
  · intro labels answers t label u answer flows moved
    have next := flows.step moved
    rwa [rounds, List.filterMap_append] at *

/-- A line is in the buffer as a whole, or the client has given up on it. -/
theorem Flows.buffer_whole {command : List UInt8}
    (flows : Flows handler (command ++ [newline]) turns x) (complete : Complete turns x)
    (plain : newline ∉ command) (short : command.length ≤ kMaximumCommandLength)
    (sound : .recvFailed ∉ turns) : x.buffer = command ++ [newline] ∨ x.Broken := by
  have whole := flows.streams.whole
  rw [List.append_assoc] at whole
  rcases complete with failed | found | full | ⟨dry, empty | broken⟩
  · exact absurd failed sound
  · rcases List.prefix_concat_iff.mp ⟨_, whole⟩ with same | early
    · exact .inl same
    · exact absurd (early.subset found) plain
  · have lengths := congrArg List.length whole
    have size : bufferSize = kMaximumCommandLength + 2 := rfl
    simp only [List.length_append, List.length_singleton] at lengths
    omega
  · left
    rw [← whole, dry, empty]
    simp
  · exact .inr broken

/-- The handler has been called with the buffer, once, or not at all. -/
theorem Flows.handled_cases (flows : Flows handler request turns x) :
    x.handled = [] ∨ (x.handled = calls x.buffer ∧ Complete turns x) := by
  cases flows.serves with
  | receiving _ _ _ _ idle | calling _ _ _ _ idle | refused _ idle => exact .inl idle
  | sending _ _ _ _ complete _ _ handled | replied _ _ _ complete _ _ handled =>
    exact .inr ⟨handled, complete⟩

theorem calls_cases (buffer : List UInt8) : calls buffer = [] ∨ calls buffer = [buffer] := by
  unfold calls
  split
  · rename_i command verdict
    exact .inr (by rw [judge_handler verdict])
  · exact .inl rfl

/- What the server replies is a matter of the decision. -/
theorem serveClient_decision {first second : List Turn} (same : decision first = decision second) :
    serveClient handler first = serveClient handler second := by
  rw [serveClient, serveClient, same]

/-- What the client prints, the server has answered. -/
theorem Flows.printed_cases (flows : Flows handler request turns x) {bytes : List UInt8}
    (printed : x.client = .exited (.printed bytes)) :
    ∃ reply, serveClient handler turns = some reply ∧ bytes <+: reply ∧
      x.handled = calls x.buffer ∧ decision turns = judge x.buffer ∧ Complete turns x := by
  have nonempty := (flows.streams.heard bytes printed).1
  have sent : x.delivered = bytes ++ x.downstream := by rw [delivered, Exchange.printed, printed]
  have spoken : x.delivered ≠ [] := by
    rw [sent]
    exact fun nothing => nonempty (List.append_eq_nil_iff.mp nothing).1
  have decided (collected : receive [] turns = some x.buffer) :
      decision turns = judge x.buffer := by
    rw [decision, collected, Option.map_some, Option.getD_some]
  cases flows.serves with
  | receiving _ _ _ _ _ silent => exact absurd silent spoken
  | calling _ _ _ _ _ silent => exact absurd silent spoken
  | refused _ _ silent => exact absurd silent spoken
  | sending rest reply _ collected complete served all handled =>
    refine ⟨reply, served, ?_, handled, decided collected, complete⟩
    rw [sent, List.append_assoc] at all
    exact ⟨_, all⟩
  | replied reply _ collected complete served part handled =>
    refine ⟨reply, served, ?_, handled, decided collected, complete⟩
    rw [sent] at part
    exact (List.prefix_append bytes x.downstream).trans part

end Steps

/-- However the two ends take turns and however the kernel cuts the streams, as long as no
`recv` of the server fails: a line makes the handler run at most once; it is given the
whole line, unless the client has failed to send it all; and what the client prints is the
beginning of the reply to the whole line. -/
theorem exchange_safety (handler : List UInt8 → List UInt8) (command : List UInt8)
    (plain : newline ∉ command) (short : command.length ≤ kMaximumCommandLength)
    (labels : List ExchangeLabel) (x : Exchange) (answers : List Unit)
    (history : Exec.run (step handler) { unsent := command ++ [newline] } labels =
      some (x, answers))
    (sound : .turn .recvFailed ∉ labels) :
    x.handled.length ≤ 1 ∧
      (∀ passed ∈ x.handled, passed <+: command ++ [newline] ∧
        (passed = command ++ [newline] ∨ x.Broken)) ∧
      ∀ bytes, x.client = .exited (.printed bytes) →
        bytes ≠ [] ∧ bytes.length ≤ responseSize ∧ x.handled = calls (command ++ [newline]) ∧
        ∃ reply, serveClient handler [.received (command ++ [newline])] = some reply ∧
          bytes <+: reply := by
  have flows := run_flows (by simp) history
  have steady : .recvFailed ∉ rounds labels := by
    intro failed
    obtain ⟨label, member, same⟩ := List.mem_filterMap.mp failed
    cases label with
    | turn turn =>
      cases same
      exact sound member
    | _ => cases same
  refine ⟨?_, ?_, ?_⟩
  · rcases flows.handled_cases with idle | ⟨handled, -⟩
    · simp [idle]
    · rcases calls_cases x.buffer with none | one
      · simp [handled, none]
      · simp [handled, one]
  · intro passed member
    rcases flows.handled_cases with idle | ⟨handled, complete⟩
    · rw [idle] at member
      contradiction
    · have same : passed = x.buffer := by
        rcases calls_cases x.buffer with none | one
        · rw [handled, none] at member
          contradiction
        · rw [handled, one] at member
          exact List.mem_singleton.mp member
      have whole := flows.streams.whole
      rw [List.append_assoc] at whole
      rw [same]
      exact ⟨⟨_, whole⟩, flows.buffer_whole complete plain short steady⟩
  · intro bytes printed
    obtain ⟨reply, served, begins, handled, decided, complete⟩ := flows.printed_cases printed
    have sound : ¬ x.Broken := by
      rintro ⟨errno, broken⟩
      rw [printed] at broken
      cases broken
    have buffer := (flows.buffer_whole complete plain short steady).resolve_right sound
    rw [buffer] at handled decided
    refine ⟨(flows.streams.heard bytes printed).1, (flows.streams.heard bytes printed).2,
      handled, reply, ?_, begins⟩
    rw [← served]
    apply serveClient_decision
    rw [decision_first (List.mem_concat_self), decided]

/- In two pieces each way; the reply is cut where the client reads. -/
def pieces : List ExchangeLabel :=
  [.send 3 0, .turn (.received (literal "st")), .turn .pollInterrupted, .send 4 0, .shutdown true,
    .turn (.received (literal "atus\n")), .call, .reply 2, .recv 2 0, .reply 1]

theorem exchange_safety_pieces :
    ∃ x answers, Exec.run (step (fun _ => literal "ok")) { unsent := literal "status\n" } pieces =
        some (x, answers) ∧
      x.handled = [literal "status\n"] ∧ x.printed <+: literal "ok\n" := by
  obtain ⟨⟨x, answers⟩, history, shows⟩ := (Option.any_eq_true _ _).mp
    (show (Exec.run (step (fun _ => literal "ok")) { unsent := literal "status\n" } pieces).any
      (fun reached => reached.1.client = .exited (.printed (literal "ok"))) = true by decide)
  have client : x.client = .exited (.printed (literal "ok")) := of_decide_eq_true shows
  obtain ⟨-, -, prints⟩ := exchange_safety (fun _ => literal "ok") (literal "status") (by decide)
    (by decide) pieces x answers history (by decide)
  obtain ⟨-, -, handled, reply, served, begins⟩ := prints _ client
  have replies : literal "ok\n" = reply := Option.some.inj served
  refine ⟨x, answers, history, handled, ?_⟩
  rw [printed, client, replies]
  exact begins

/-- The exception for a client that fails is real: wherever it fails within its line, there
is a run in which the handler is called with what was sent until then. -/
theorem truncated_command_handled (handler : List UInt8 → List UInt8) (passed rest : List UInt8)
    (some : passed ≠ []) (more : rest ≠ []) (plain : newline ∉ passed)
    (short : passed.length ≤ kMaximumCommandLength) :
    ∃ labels x answers,
      Exec.run (step handler) { unsent := passed ++ rest } labels = .some (x, answers) ∧
      .turn .recvFailed ∉ labels ∧ x.Broken ∧ x.handled = [passed] := by
  have length := List.length_pos_iff.mpr some
  have sends : step handler { unsent := passed ++ rest } (.send passed.length 0) =
      .some ({ unsent := rest, upstream := passed }, ()) := by
    simp [step, clientSend, some, more]
  have fails : step handler { unsent := rest, upstream := passed } (.send 0 0) =
      .some ({ client := .exited (.sendError 0), unsent := rest, upstream := passed,
               upstreamEnded := true }, ()) := rfl
  have receives : step handler
      { client := .exited (.sendError 0), unsent := rest, upstream := passed,
        upstreamEnded := true } (.turn (.received passed)) =
      .some ({ client := .exited (.sendError 0), unsent := rest, upstreamEnded := true,
               buffer := passed }, ()) := by
    have size : bufferSize = kMaximumCommandLength + 2 := rfl
    have room : passed.length < bufferSize := by omega
    simp [step, serverTurn, take, some, plain, room, Nat.le_of_lt room]
  have ends : step handler
      { client := .exited (.sendError 0), unsent := rest, upstreamEnded := true,
        buffer := passed } (.turn (.received [])) =
      .some ({ client := .exited (.sendError 0), unsent := rest, upstreamEnded := true,
               buffer := passed, server := .calling passed }, ()) := by
    simp [step, serverTurn, judged, judge_short length short]
  have calls : step handler
      { client := .exited (.sendError 0), unsent := rest, upstreamEnded := true,
        buffer := passed, server := .calling passed } .call =
      .some ({ client := .exited (.sendError 0), unsent := rest, upstreamEnded := true,
               buffer := passed, server := .sending (framed (handler passed)),
               handled := [passed] }, ()) := rfl
  refine ⟨[.send passed.length 0, .send 0 0, .turn (.received passed), .turn (.received []), .call],
    { client := .exited (.sendError 0), unsent := rest, upstreamEnded := true,
      buffer := passed, server := .sending (framed (handler passed)), handled := [passed] },
    [(), (), (), (), ()], ?_, by simp, ⟨0, rfl⟩, rfl⟩
  simp only [Exec.run, sends, fails, receives, ends, calls, Option.bind_some, Option.map_some]

/- The last digit of an injected temperature is lost with the client. -/
theorem truncated_command_handled_injection :
    ∃ labels x answers,
      Exec.run (step (fun _ => [])) { unsent := literal "inject temperature 105\n" } labels =
        some (x, answers) ∧
      x.Broken ∧ x.handled = [literal "inject temperature 10"] := by
  obtain ⟨labels, x, answers, history, -, failed, handled⟩ := truncated_command_handled
    (fun _ => []) (literal "inject temperature 10") (literal "5\n") (by decide) (by decide)
    (by decide) (by decide)
  exact ⟨labels, x, answers, history, failed, handled⟩

end Exchange

end EdgeSentinel.Ipc
