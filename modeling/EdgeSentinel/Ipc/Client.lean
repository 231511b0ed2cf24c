import EdgeSentinel.Ipc.Server

/-! The command line client up to the bytes it sends, and what becomes of them in the
server and in the parser. -/
namespace EdgeSentinel.Ipc

structure ClientArguments where
  socketPath : List UInt8
  command : List UInt8 := []
  deriving DecidableEq, Repr

/- `command += argument`, with a blank in between. -/
def ClientArguments.append (arguments : ClientArguments) (argument : List UInt8) :
    ClientArguments :=
  { arguments with
    command :=
      if arguments.command.isEmpty then argument else arguments.command ++ 32 :: argument }

/- The loop over `argv`; `--socket` at the very end is a word of the command. -/
def assemble : ClientArguments → List (List UInt8) → ClientArguments
  | arguments, [] => arguments
  | arguments, [argument] => arguments.append argument
  | arguments, argument :: next :: rest =>
    if argument = literal "--socket" then assemble { arguments with socketPath := next } rest
    else assemble (arguments.append argument) (next :: rest)

/- `sizeof(sockaddr_un::sun_path)`. -/
def sunPathSize : Nat := 108

inductive ClientAction where
  | usage
  | invalidSocketPath
  | sends (socketPath request : List UInt8)
  deriving DecidableEq, Repr

def edgectl (defaultSocketPath : List UInt8) (argv : List (List UInt8)) : ClientAction :=
  let arguments := assemble { socketPath := defaultSocketPath } argv.tail
  if arguments.command.isEmpty ∨ arguments.command.length > kMaximumCommandLength then .usage
  else if arguments.socketPath.isEmpty ∨ arguments.socketPath.length ≥ sunPathSize then
    .invalidSocketPath
  else .sends arguments.socketPath (arguments.command ++ [newline])

section Agreement

variable {defaultSocketPath socketPath command : List UInt8} {argv : List (List UInt8)}

theorem edgectl_length
    (accepted : edgectl defaultSocketPath argv = .sends socketPath (command ++ [newline])) :
    command ≠ [] ∧ command.length ≤ kMaximumCommandLength := by
  unfold edgectl at accepted
  dsimp only at accepted
  split_ifs at accepted with refused invalid
  obtain ⟨-, same⟩ := ClientAction.sends.inj accepted
  rw [List.append_cancel_right_eq] at same
  rw [← same]
  simpa using refused

theorem trim_newline (line : List UInt8) : trim (line ++ [newline]) = trim line := by
  unfold trim
  rw [List.dropWhile_append]
  split
  · rename_i blank
    rw [List.isEmpty_iff.mp blank]
    rfl
  · exact List.rdropWhile_concat_pos _ _ _ rfl

/-- The parser does not see the newline as long as the length allows it. -/
theorem parseCommand_newline (fromChars : List UInt8 → FromChars) {line : List UInt8}
    (short : line.length < kMaximumCommandLength) :
    parseCommand fromChars (line ++ [newline]) = parseCommand fromChars line := by
  have fits : ¬ (line ++ [newline]).length > kMaximumCommandLength := by simp; omega
  have fits' : ¬ line.length > kMaximumCommandLength := by omega
  simp only [parseCommand, fits, fits', if_false, trim_newline]

theorem undivided_line {line : List UInt8} (plain : newline ∉ line) :
    Undivided (line ++ [newline]) := by
  intro _
  rwa [List.dropLast_concat]

/-- Every delivery of one line is judged alike. -/
theorem decision_line {line : List UInt8} {turns : List Turn} (plain : newline ∉ line)
    (short : line.length ≤ kMaximumCommandLength)
    (delivery : Delivers 0 (line ++ [newline]) turns) :
    decision turns = judge (line ++ [newline]) := by
  have size : bufferSize = kMaximumCommandLength + 2 := rfl
  rw [(undivided_line plain).decision_eq delivery, List.take_of_length_le (by simp; omega)]

/-- What the client sends reaches the parser unchanged, up to the newline, exactly if it
is shorter than the limit that the client allows. -/
theorem request_agreement (fromChars : List UInt8 → FromChars)
    (accepted : edgectl defaultSocketPath argv = .sends socketPath (command ++ [newline]))
    (plain : newline ∉ command) :
    (∀ turns, Delivers 0 (command ++ [newline]) turns →
      ∃ passed, decision turns = .handler passed ∧
        parseCommand fromChars passed = parseCommand fromChars command) ↔
    command.length < kMaximumCommandLength := by
  obtain ⟨some, short⟩ := edgectl_length accepted
  constructor
  · intro served
    have size : bufferSize = kMaximumCommandLength + 2 := rfl
    have packet := delivers_front (command ++ [newline]) [] (by simp) (by simp; omega)
    rw [List.append_nil] at packet
    obtain ⟨passed, handled, -⟩ := served _ packet
    rw [decision_line plain short packet] at handled
    by_contra atLimit
    rw [judge_long (by simp; omega)] at handled
    contradiction
  · intro below turns delivery
    refine ⟨command ++ [newline], ?_, parseCommand_newline fromChars below⟩
    rw [decision_line plain short delivery]
    exact judge_short (by simp) (by simp; omega)

theorem status_request_agreement :
    edgectl (literal "/tmp/edge.sock") [literal "edgectl", literal "status"] =
        .sends (literal "/tmp/edge.sock") (literal "status" ++ [newline]) ∧
      ∀ (fromChars : List UInt8 → FromChars) (turns : List Turn),
        Delivers 0 (literal "status" ++ [newline]) turns →
        ∃ passed, decision turns = .handler passed ∧
          parseCommand fromChars passed = parseCommand fromChars (literal "status") := by
  have accepted : edgectl (literal "/tmp/edge.sock") [literal "edgectl", literal "status"] =
      .sends (literal "/tmp/edge.sock") (literal "status" ++ [newline]) := by decide
  exact ⟨accepted, fun fromChars =>
    (request_agreement fromChars accepted (by decide)).mpr (by decide)⟩

/- 256 bytes, as the client and the parser allow, are 257 with the newline. -/
theorem longest_request_refused :
    let command := literal "status" ++ List.replicate 250 32
    edgectl (literal "/tmp/edge.sock") [literal "edgectl", command] =
        .sends (literal "/tmp/edge.sock") (command ++ [newline]) ∧
      (∀ fromChars, parseCommand fromChars command = { command := { kind := .status } }) ∧
      ∃ turns, Delivers 0 (command ++ [newline]) turns ∧ decision turns = .tooLong := by
  intro command
  refine ⟨by decide +kernel, ?_, ?_⟩
  · intro fromChars
    have fits : ¬ command.length > kMaximumCommandLength := by decide +kernel
    have trimmed : trim command = literal "status" := by decide +kernel
    rw [parseCommand, if_neg fits, trimmed]
    rfl
  · have packet := delivers_front (command ++ [newline]) [] (by decide +kernel) (by decide +kernel)
    rw [List.append_nil] at packet
    exact ⟨_, packet, by decide +kernel⟩

end Agreement

end EdgeSentinel.Ipc
