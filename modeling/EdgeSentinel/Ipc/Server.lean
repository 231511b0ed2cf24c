import EdgeSentinel.Ipc.Command

/-! One connection of the command server. What `poll` and `recv` report is a list of
turns, after which the peer has closed its end; the result is decided by the bytes that
the loop has collected when it stops. -/
namespace EdgeSentinel.Ipc

def newline : UInt8 := 10

/- One round of the receiving loop as the kernel decides it. -/
inductive Turn where
  | pollInterrupted
  | pollEnded
  | recvInterrupted
  | recvFailed
  | received (chunk : List UInt8)
  deriving DecidableEq, Repr

def bufferSize : Nat := kMaximumCommandLength + 2

/-- The receiving loop of `serve_client`, with `buffer` for the first `used` bytes of the
array. It is `none` if the function returns out of the loop; a chunk of no bytes is the
end of the stream, as is the end of the list. -/
def receive : List UInt8 → List Turn → Option (List UInt8)
  | buffer, [] => some buffer
  | buffer, turn :: turns =>
    if buffer.length < bufferSize then
      match turn with
      | .pollInterrupted => receive buffer turns
      | .pollEnded => none
      | .recvInterrupted => receive buffer turns
      | .recvFailed => some buffer
      | .received [] => some buffer
      | .received (first :: rest) =>
        let buffer := buffer ++ first :: rest
        if newline ∈ buffer then some buffer else receive buffer turns
    else some buffer

inductive Decision where
  | noReply
  | tooLong
  | handler (command : List UInt8)
  deriving DecidableEq, Repr

/- What the collected bytes are taken for. -/
def judge (buffer : List UInt8) : Decision :=
  if buffer.length = 0 then .noReply
  else if buffer.length > kMaximumCommandLength then .tooLong
  else .handler buffer

def decision (turns : List Turn) : Decision := ((receive [] turns).map judge).getD .noReply

/- The response that goes out, if any. -/
def serveClient (handler : List UInt8 → List UInt8) (turns : List Turn) : Option (List UInt8) :=
  match decision turns with
  | .noReply => none
  | .tooLong => some (literal "error=too_long\n")
  | .handler command =>
    let response := handler command
    some (if response.getLast? = some newline then response else response ++ [newline])

/-- The turns hand over the stream and then its end, without a timeout or an error, and
no chunk is larger than the space behind the `used` bytes. -/
inductive Delivers : Nat → List UInt8 → List Turn → Prop where
  | ended {used : Nat} : Delivers used [] []
  | pollInterrupted {used : Nat} {stream : List UInt8} {turns : List Turn}
      (later : Delivers used stream turns) : Delivers used stream (.pollInterrupted :: turns)
  | recvInterrupted {used : Nat} {stream : List UInt8} {turns : List Turn}
      (later : Delivers used stream turns) : Delivers used stream (.recvInterrupted :: turns)
  | received {used : Nat} {stream chunk : List UInt8} {turns : List Turn} (some : chunk ≠ [])
      (fits : used < bufferSize → used + chunk.length ≤ bufferSize)
      (later : Delivers (used + chunk.length) stream turns) :
      Delivers used (chunk ++ stream) (.received chunk :: turns)

section Receiving

variable {stream buffer : List UInt8} {turns : List Turn} {used : Nat}

theorem receive_received (room : buffer.length < bufferSize) {chunk : List UInt8}
    (some : chunk ≠ []) :
    receive buffer (.received chunk :: turns) =
      if newline ∈ buffer ++ chunk then .some (buffer ++ chunk)
      else receive (buffer ++ chunk) turns := by
  cases chunk with
  | nil => contradiction
  | cons first rest => exact if_pos room

/-- The loop ends with the buffer and the beginning of the stream behind it. Without a
newline in that, the stream has ended or the array is full. -/
def Collects (buffer stream : List UInt8) (turns : List Turn) : Prop :=
  ∃ taken, taken <+: stream ∧ receive buffer turns = some (buffer ++ taken) ∧
    buffer.length + taken.length ≤ bufferSize ∧
    (newline ∈ taken ∨ taken = stream.take (bufferSize - buffer.length))

theorem collects_full (full : buffer.length = bufferSize) : Collects buffer stream turns := by
  refine ⟨[], List.nil_prefix, ?_, by simp [full], .inr (by simp [full])⟩
  cases turns with
  | nil => simp [receive]
  | cons turn turns => simp [receive, full]

theorem delivers_collects (delivery : Delivers used stream turns) (length : buffer.length = used)
    (room : used < bufferSize) (unread : newline ∉ buffer) : Collects buffer stream turns := by
  induction delivery generalizing buffer with
  | ended =>
    exact ⟨[], List.nil_prefix, by simp [receive], by simp; omega, .inr (by simp)⟩
  | pollInterrupted later ih | recvInterrupted later ih =>
    obtain ⟨taken, inside, collected, rest⟩ := ih length room unread
    refine ⟨taken, inside, ?_, rest⟩
    rw [receive, if_pos (by omega)]
    exact collected
  | @received used stream chunk turns some fits later ih =>
    have fits := fits room
    subst length
    have length : (buffer ++ chunk).length = buffer.length + chunk.length := List.length_append
    by_cases ends : newline ∈ buffer ++ chunk
    · refine ⟨chunk, List.prefix_append chunk stream, ?_, fits, .inl ?_⟩
      · rw [receive_received room some, if_pos ends]
      · exact (List.mem_append.mp ends).resolve_left unread
    · have goesOn : Collects (buffer ++ chunk) stream turns := by
        by_cases full : buffer.length + chunk.length = bufferSize
        · exact collects_full (length.trans full)
        · exact ih length (by omega) ends
      obtain ⟨taken, inside, collected, bound, stops⟩ := goesOn
      refine ⟨chunk ++ taken, (List.prefix_append_right_inj chunk).mpr inside, ?_, ?_, ?_⟩
      · rw [receive_received room some, if_neg ends, collected, List.append_assoc]
      · rw [List.length_append]
        omega
      · rcases stops with found | all
        · exact .inl (List.mem_append_right chunk found)
        · right
          have behind : bufferSize - buffer.length =
              chunk.length + (bufferSize - (buffer ++ chunk).length) := by omega
          rw [behind, List.take_length_add_append, ← all]

/-- Byte by byte is one way to deliver. -/
theorem delivers_bytes (used : Nat) (stream : List UInt8) :
    Delivers used stream (stream.map fun byte => .received [byte]) := by
  induction stream generalizing used with
  | nil => exact .ended
  | cons byte stream ih =>
    have first : Delivers used ([byte] ++ stream) _ :=
      .received (List.cons_ne_nil byte []) (fun room => room) (ih (used + 1))
    exact first

theorem decision_collects (delivery : Delivers 0 stream turns) :
    ∃ taken, taken <+: stream ∧ decision turns = judge taken ∧ taken.length ≤ bufferSize ∧
      (newline ∈ taken ∨ taken = stream.take bufferSize) := by
  have collects : Collects [] stream turns :=
    delivers_collects delivery rfl (by decide) List.not_mem_nil
  obtain ⟨taken, inside, collected, bound, stops⟩ := collects
  rw [List.nil_append] at collected
  refine ⟨taken, inside, ?_, by simpa using bound, stops⟩
  rw [decision, collected, Option.map_some, Option.getD_some]

theorem judge_long (long : kMaximumCommandLength < buffer.length) : judge buffer = .tooLong := by
  rw [judge, if_neg (by omega), if_pos long]

theorem judge_short (some : 0 < buffer.length) (short : buffer.length ≤ kMaximumCommandLength) :
    judge buffer = .handler buffer := by
  rw [judge, if_neg (by omega), if_neg (by omega)]

theorem judge_handler {command : List UInt8} (passed : judge buffer = .handler command) :
    buffer = command := by
  unfold judge at passed
  split_ifs at passed
  cases passed
  rfl

/-- A stream with at most one line that fits, and nothing behind that line. -/
def Undivided (stream : List UInt8) : Prop :=
  newline ∈ stream.take kMaximumCommandLength → newline ∉ stream.dropLast

/-- Such a stream is judged by its beginning alone. -/
theorem Undivided.decision_eq (whole : Undivided stream) (delivery : Delivers 0 stream turns) :
    decision turns = judge (stream.take bufferSize) := by
  obtain ⟨taken, inside, decided, bound, found | all⟩ := decision_collects delivery
  · rw [decided]
    by_cases fits : newline ∈ stream.take kMaximumCommandLength
    · have all : taken = stream := by
        obtain ⟨rest, rfl⟩ := inside
        cases rest with
        | nil => rw [List.append_nil]
        | cons next rest =>
          apply absurd _ (whole fits)
          rw [List.dropLast_append_of_ne_nil (List.cons_ne_nil next rest)]
          exact List.mem_append_left _ found
      rw [all, List.take_of_length_le (all ▸ bound)]
    · have long : kMaximumCommandLength < taken.length := by
        by_contra short
        have early : taken <+: stream.take kMaximumCommandLength :=
          List.prefix_take_iff.mpr ⟨inside, not_lt.mp short⟩
        exact fits (early.subset found)
      have longer : taken.length ≤ (stream.take bufferSize).length := by
        have := inside.length_le
        rw [List.length_take]
        omega
      rw [judge_long long, judge_long (by omega)]
  · rw [decided, all]

/-- Receiving `front` in one piece and then the rest. -/
theorem delivers_front (front rest : List UInt8) (some : front ≠ [])
    (fits : front.length ≤ bufferSize) :
    Delivers 0 (front ++ rest) (.received front :: rest.map fun byte => .received [byte]) :=
  .received some (fun _ => by omega) (delivers_bytes _ rest)

theorem decision_first {chunk : List UInt8} (found : newline ∈ chunk) :
    decision (.received chunk :: turns) = judge chunk := by
  rw [decision, receive_received (by decide) (List.ne_nil_of_mem found), List.nil_append,
    if_pos found]
  rfl

end Receiving

/-- The server takes one decision for all ways to cut a stream exactly if nothing
follows a line that fits. -/
theorem decision_fragmentation (stream : List UInt8) :
    (∀ first second, Delivers 0 stream first → Delivers 0 stream second →
      decision first = decision second) ↔ Undivided stream := by
  constructor
  · intro same early late
    obtain ⟨line, rest, rfl, unread⟩ := List.eq_append_cons_of_mem (List.mem_of_mem_take early)
    have short : line.length < kMaximumCommandLength := by
      by_contra long
      rw [List.take_append_of_le_length (not_lt.mp long)] at early
      exact unread (List.mem_of_mem_take early)
    cases rest with
    | nil =>
      rw [List.dropLast_concat] at late
      exact unread late
    | cons next rest =>
      -- cut right behind the newline, and one byte later
      have size : bufferSize = kMaximumCommandLength + 2 := rfl
      have one := delivers_front (line ++ [newline]) (next :: rest) (by simp) (by simp; omega)
      have two := delivers_front (line ++ [newline, next]) rest (by simp) (by simp; omega)
      rw [List.append_assoc] at one two
      have equal := same _ _ one two
      rw [decision_first (by simp), decision_first (by simp),
        judge_short (by simp) (by simp; omega)] at equal
      have lengths := congrArg List.length (judge_handler equal.symm)
      simp at lengths
  · intro whole first second one two
    rw [whole.decision_eq one, whole.decision_eq two]

/- A client that sends a second line in one packet, or in two. -/
theorem status_extra_fragmented :
    let stream := literal "status\nextra"
    (∃ turns, Delivers 0 stream turns ∧ decision turns = .handler (literal "status\n")) ∧
    (∃ turns, Delivers 0 stream turns ∧ decision turns = .handler stream) := by
  intro stream
  constructor
  · exact ⟨_, delivers_front (literal "status\n") (literal "extra") (by decide) (by decide),
      by decide⟩
  · exact ⟨_, delivers_front stream [] (by decide) (by decide), by decide⟩

end EdgeSentinel.Ipc
