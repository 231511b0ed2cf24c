import EdgeSentinel.Fsm.Outage
import EdgeSentinel.Linux.UartSource

/-! A stream of frames read in pieces. Every twelfth byte completes a frame, so whether a
call reports the sensor online is a matter of the lengths received so far; three calls in
a row that complete no frame trip the protection. -/
namespace EdgeSentinel.UartSensorSource

open UartFrameDecoder (feed)

variable {d : UartFrameDecoder} {frames : List UartFrame}

/- One answer per byte of a stream of frames. -/
def completions (frames : List UartFrame) : List (Option UartFrame) :=
  frames.flatMap fun frame => List.replicate 11 none ++ [some frame]

theorem outputs_stream (start : d.position = 0) (frames : List UartFrame) :
    Mealy.outputs feed d (frames.flatMap encodeUartFrame) = completions frames := by
  have clean : ∀ segment ∈ frames.map fun frame => (([] : List UInt8), frame),
      UartFrameDecoder.Clean segment.1 := by
    intro segment member
    obtain ⟨frame, -, rfl⟩ := List.mem_map.mp member
    simp [UartFrameDecoder.Clean]
  have trip := (UartFrameDecoder.run_wire d start _ clean).1
  simpa [UartFrameDecoder.wire, UartFrameDecoder.received, List.flatMap_map, completions] using trip

theorem completions_count (frames : List UartFrame) {count : Nat}
    (inside : count ≤ 12 * frames.length) :
    ((completions frames).take count).countP Option.isSome = count / 12 := by
  induction frames generalizing count with
  | nil =>
    have zero : count = 0 := by simpa using inside
    simp [zero]
  | cons frame frames ih =>
    have all : completions (frame :: frames) =
        (List.replicate 11 none ++ [some frame]) ++ completions frames := rfl
    rw [List.length_cons] at inside
    rw [all, List.take_append, List.countP_append]
    by_cases whole : 12 ≤ count
    · have rest := ih (by omega : count - 12 ≤ 12 * frames.length)
      rw [List.take_of_length_le (by simpa using whole)]
      simp [rest]
      omega
    · have early : (List.replicate 11 none ++ [some frame]).length = 12 := rfl
      have block : count - 12 = 0 := by omega
      have zero : count / 12 = 0 := by omega
      rw [List.take_append_of_le_length (by rw [List.length_replicate]; omega),
        List.take_replicate, List.countP_replicate, early, block, List.take_zero, zero]
      rfl

/-- How many frames a beginning of the stream completes. -/
theorem past_count (start : d.position = 0) {past rest : List UInt8}
    (stream : past ++ rest = frames.flatMap encodeUartFrame) :
    (Mealy.outputs feed d past).countP Option.isSome = past.length / 12 := by
  have all := outputs_stream start frames
  rw [← stream, Mealy.outputs_append] at all
  have first : Mealy.outputs feed d past = (completions frames).take past.length := by
    rw [← all, List.take_append_of_le_length (by simp), List.take_of_length_le (by simp)]
  rw [first, completions_count]
  have lengths := congrArg List.length stream
  simp at lengths
  omega

/-- A piece of the stream completes a frame if a multiple of twelve lies in it. -/
theorem chunk_completes (start : d.position = 0) {past chunk rest : List UInt8}
    (stream : past ++ (chunk ++ rest) = frames.flatMap encodeUartFrame) :
    (Mealy.outputs feed (Mealy.final feed d past) chunk).any Option.isSome =
      decide (past.length / 12 < (past ++ chunk).length / 12) := by
  have before := past_count start stream
  rw [← List.append_assoc] at stream
  have after := past_count start stream
  rw [Mealy.outputs_append, List.countP_append, before] at after
  rw [Bool.eq_iff_iff, List.any_eq_true, ← List.countP_pos_iff, decide_eq_true_iff]
  omega

theorem chunk_measured (start : d.position = 0) (plain : ∀ frame ∈ frames, frame.kind ≠ .online)
    {past chunk rest : List UInt8}
    (stream : past ++ (chunk ++ rest) = frames.flatMap encodeUartFrame) :
    Measured (Mealy.outputs feed (Mealy.final feed d past) chunk) := by
  intro frame member
  have all := outputs_stream start frames
  rw [← stream, Mealy.outputs_append, Mealy.outputs_append] at all
  have told : some frame ∈ completions frames := by
    rw [← all]
    exact List.mem_append_right _ (List.mem_append_left _ member)
  obtain ⟨sent, inside, found⟩ := List.mem_flatMap.mp told
  rcases List.mem_append.mp found with blank | last
  · exact absurd (List.eq_of_mem_replicate blank) (by simp)
  · cases List.mem_singleton.mp last
    exact plain frame inside

/- The online flags of a run of calls that receive the pieces, after `used` bytes. -/
def completed : Nat → List (List UInt8) → List Bool
  | _, [] => []
  | used, chunk :: chunks =>
    decide (used / 12 < (used + chunk.length) / 12) :: completed (used + chunk.length) chunks

section Reads

variable (thousandth : Int32 → Double) {source : UartSensorSource}

theorem reads_online (start : d.position = 0) (plain : ∀ frame ∈ frames, frame.kind ≠ .online)
    {past : List UInt8} {chunks : List (List UInt8)}
    (stream : past ++ chunks.flatten = frames.flatMap encodeUartFrame)
    (valid : source.descriptor = true) (decoder : source.decoder = Mealy.final feed d past) :
    (Mealy.outputs (read thousandth) source (chunks.map .received)).map SensorSample.online =
      completed past.length chunks := by
  induction chunks generalizing source past with
  | nil => rfl
  | cons chunk chunks ih =>
    rw [List.flatten_cons] at stream
    obtain ⟨next, still, online⟩ := read_received thousandth valid chunk
    rw [decoder, ← Mealy.final_append] at next
    have flag := online (by rw [answers, decoder]; exact chunk_measured start plain stream)
    rw [answers, decoder, chunk_completes start stream, List.length_append] at flag
    rw [← List.append_assoc] at stream
    have later := ih stream still next
    rw [List.length_append] at later
    simp only [List.map_cons, Mealy.outputs_cons, completed, flag, later]

end Reads

/- The bytes received in the first `n` calls. -/
def arrived (chunks : List (List UInt8)) (n : Nat) : Nat := (chunks.take n).flatten.length

theorem completed_drop (used : Nat) (chunks : List (List UInt8)) (n : Nat) :
    (completed used chunks).drop n = completed (used + arrived chunks n) (chunks.drop n) := by
  induction n generalizing used chunks with
  | zero => rfl
  | succ n ih =>
    cases chunks with
    | nil => rfl
    | cons chunk chunks =>
      rw [completed, List.drop_succ_cons, List.drop_succ_cons, ih, Nat.add_assoc]
      simp [arrived]

theorem completed_outage (used : Nat) (chunks : List (List UInt8)) :
    List.replicate 3 false <+: completed used chunks ↔
      3 ≤ chunks.length ∧ used / 12 = (used + arrived chunks 3) / 12 := by
  match chunks with
  | [] | [_] | [_, _] => simp [completed, List.replicate_succ]
  | a :: b :: c :: rest =>
    simp [completed, List.replicate_succ, arrived]
    omega

theorem arrived_add (chunks : List (List UInt8)) (n more : Nat) :
    arrived chunks (n + more) = arrived chunks n + arrived (chunks.drop n) more := by
  rw [arrived, List.take_add, List.flatten_append, List.length_append]
  rfl

/-- The machine sees an offline sensor exactly if it is still protecting when three
calls begin that complete no frame, however the stream is cut. -/
theorem fragmentation_trips (thousandth : Int32 → Double) {source : UartSensorSource}
    (valid : source.descriptor = true) (fresh : source.decoder.position = 0)
    {m : MotorStateMachine} (config : m.config = {}) (zero : m.offlineCount = 0)
    {frames : List UartFrame} (plain : ∀ frame ∈ frames, frame.kind ≠ .online)
    {chunks : List (List UInt8)}
    (stream : chunks.flatten = frames.flatMap encodeUartFrame) :
    let samples := Mealy.outputs (read thousandth) source (chunks.map .received)
    .sensorOffline ∉ m.reasons samples ↔
      ∀ n, n + 3 ≤ chunks.length → (m.afterSamples (samples.take n)).Protecting →
        arrived chunks n / 12 < arrived chunks (n + 3) / 12 := by
  intro samples
  have flags : samples.map SensorSample.online = completed ([] : List UInt8).length chunks :=
    reads_online thousandth fresh plain stream valid rfl
  have limit : m.config.offlineSamples.toNat = 3 := by rw [config]; rfl
  have outage : ∀ n, MotorStateMachine.Outage 3 (samples.drop n) ↔
      n + 3 ≤ chunks.length ∧ arrived chunks n / 12 = arrived chunks (n + 3) / 12 := by
    intro n
    rw [MotorStateMachine.Outage, List.map_drop, flags, completed_drop, completed_outage,
      List.length_drop, arrived_add, List.length_nil, Nat.zero_add]
    omega
  rw [MotorStateMachine.offline_reported_fresh limit (by decide) zero]
  constructor
  · intro none n inside active
    have grows : arrived chunks n ≤ arrived chunks (n + 3) := by
      rw [arrived_add]
      omega
    have differ : arrived chunks n / 12 ≠ arrived chunks (n + 3) / 12 :=
      fun same => none ⟨n, active, (outage n).mpr ⟨inside, same⟩⟩
    omega
  · rintro all ⟨n, active, lost⟩
    obtain ⟨inside, same⟩ := (outage n).mp lost
    have := all n inside active
    omega

/- A frame that arrives in three pieces. -/
theorem fragmentation_trips_thirds :
    let bytes := encodeUartFrame { milliValue := 25000 }
    let samples := Mealy.outputs (read exactThousandth) (create 115200 none)
      ([bytes.take 4, (bytes.drop 4).take 4, bytes.drop 8].map .received)
    .sensorOffline ∉ MotorStateMachine.reasons { state := .healthy } samples := by
  intro bytes samples
  have plain : ∀ frame ∈ [({ milliValue := 25000 } : UartFrame)], frame.kind ≠ .online := by decide
  refine (fragmentation_trips exactThousandth rfl rfl rfl rfl plain ?_).mpr ?_
  · rfl
  · intro n inside active
    obtain rfl : n = 0 := by simpa using inside
    decide

/- One frame, byte by byte: the third call that completes nothing latches the fault. -/
theorem fragmentation_fakes_loss :
    let chunks := (encodeUartFrame { milliValue := 25000 }).map fun byte => [byte]
    let samples := Mealy.outputs (read exactThousandth) (create 115200 none) (chunks.map .received)
    .sensorOffline ∈ MotorStateMachine.reasons { state := .healthy } samples := by
  decide +kernel

end EdgeSentinel.UartSensorSource
