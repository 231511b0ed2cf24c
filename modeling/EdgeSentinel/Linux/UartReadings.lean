import EdgeSentinel.Linux.UartSource

/-! The readings of the UART adapter against the stream of bytes. The online logic of a call
writes the same sample but none of its readings, so where the calls cut the stream does not
show in them. -/
namespace EdgeSentinel.UartSensorSource

open UartFrameDecoder (feed)

/- The frames that a fresh decoder accepts in a stream. -/
def accepted (stream : List UInt8) : List UartFrame :=
  (Mealy.outputs feed {} stream).filterMap id

section Latest

variable (thousandth : Int32 → Double)

/- The value of the last frame of a kind, zero if there is none. -/
def latest (kind : MeasurementKind) (frames : List UartFrame) : Double :=
  ((frames.filter fun frame => frame.kind = kind).getLast?.map fun frame =>
    thousandth frame.milliValue).getD (.finite 0)

def latestReadings (frames : List UartFrame) : Double × Double × Double :=
  (latest thousandth .temperature frames, latest thousandth .vibration frames,
    latest thousandth .current frames)

theorem latest_concat (kind : MeasurementKind) (frames : List UartFrame) (frame : UartFrame) :
    latest thousandth kind (frames ++ [frame]) =
      if frame.kind = kind then thousandth frame.milliValue else latest thousandth kind frames := by
  unfold latest
  rw [List.filter_append]
  split
  · rename_i same
    simp [same]
  · rename_i other
    simp [other]

/-- A frame changes the reading of its own kind and no other. -/
theorem takeFrame_readings {sample : SensorSample} {frames : List UartFrame}
    (same : sample.readings = latestReadings thousandth frames) (frame : UartFrame) :
    (takeFrame thousandth sample frame).readings =
      latestReadings thousandth (frames ++ [frame]) := by
  simp only [SensorSample.readings, latestReadings, Prod.mk.injEq] at same
  obtain ⟨temperature, vibration, current⟩ := same
  simp only [latestReadings, latest_concat]
  cases kind : frame.kind <;>
    simp [takeFrame, decodeUartMeasurement, applyMeasurement, SensorSample.readings, kind,
      temperature, vibration, current]

end Latest

/-- The adapter after some calls that together received the stream. -/
structure Follows (thousandth : Int32 → Double) (stream : List UInt8) (calls : Nat)
    (source : UartSensorSource) : Prop where
  valid : source.descriptor = true
  decoder : source.decoder = Mealy.final feed {} stream
  readings : source.sample.readings = latestReadings thousandth (accepted stream)
  sequence : source.sequence = UInt64.ofNat calls

section Calls

variable {thousandth : Int32 → Double} {stream : List UInt8} {calls : Nat}
  {source : UartSensorSource}

theorem accepted_concat (stream : List UInt8) (byte : UInt8) :
    accepted (stream ++ [byte]) =
      accepted stream ++ (feed (Mealy.final feed {} stream) byte).2.toList := by
  rw [accepted, Mealy.outputs_append, List.filterMap_append, Mealy.outputs_cons, Mealy.outputs_nil]
  cases (feed (Mealy.final feed {} stream) byte).2 <;> rfl

theorem Follows.takeByte {state : UartSensorSource × Bool}
    (h : Follows thousandth stream calls state.1) (byte : UInt8) :
    Follows thousandth (stream ++ [byte]) calls
      (UartSensorSource.takeByte thousandth state byte).1 := by
  have more := accepted_concat stream byte
  rw [← h.decoder] at more
  cases answer : (feed state.1.decoder byte).2 with
  | none =>
    rw [answer, Option.toList_none, List.append_nil] at more
    simp only [UartSensorSource.takeByte, answer]
    refine ⟨h.valid, ?_, ?_, h.sequence⟩
    · rw [Mealy.final_concat, ← h.decoder]
    · rw [more]
      exact h.readings
  | some frame =>
    rw [answer, Option.toList_some] at more
    simp only [UartSensorSource.takeByte, answer]
    refine ⟨h.valid, ?_, ?_, h.sequence⟩
    · rw [Mealy.final_concat, ← h.decoder]
    · rw [more]
      exact takeFrame_readings thousandth h.readings frame

theorem Follows.loop {state : UartSensorSource × Bool}
    (h : Follows thousandth stream calls state.1) (bytes : List UInt8) :
    Follows thousandth (stream ++ bytes) calls
      (bytes.foldl (UartSensorSource.takeByte thousandth) state).1 := by
  induction bytes generalizing stream state with
  | nil =>
    rw [List.append_nil]
    exact h
  | cons byte bytes ih =>
    have next := ih (h.takeByte byte)
    rw [List.append_assoc] at next
    exact next

theorem Follows.read (h : Follows thousandth stream calls source) (chunk : List UInt8) :
    Follows thousandth (stream ++ chunk) (calls + 1)
      (source.read thousandth (.received chunk)).1 := by
  have started : Follows thousandth stream (calls + 1)
      { source with sequence := source.sequence + 1 } :=
    ⟨h.valid, h.decoder, h.readings, by rw [UInt64.ofNat_add, ← h.sequence]; rfl⟩
  have looped : Follows thousandth (stream ++ chunk) (calls + 1)
      (chunk.foldl (UartSensorSource.takeByte thousandth)
        ({ source with sequence := source.sequence + 1 }, false)).1 := started.loop chunk
  have called : source.read thousandth (.received chunk) = report _ :=
    congrArg report (if_pos h.valid)
  rw [called]
  exact ⟨looped.valid, looped.decoder, looped.readings, looped.sequence⟩

/-- A call returns the sample that it stores, numbered by the call. -/
theorem read_returns (thousandth : Int32 → Double) (source : UartSensorSource) (input : UartInput) :
    (source.read thousandth input).2 = (source.read thousandth input).1.sample ∧
      (source.read thousandth input).1.sample.sequence =
        (source.read thousandth input).1.sequence := ⟨rfl, rfl⟩

theorem run_follows (h : Follows thousandth [] 0 source) (chunks : List (List UInt8)) :
    Follows thousandth chunks.flatten chunks.length
      (Mealy.final (UartSensorSource.read thousandth) source (chunks.map .received)) := by
  induction chunks using List.reverseRecOn with
  | nil => exact h
  | append_singleton chunks chunk ih =>
    rw [List.map_append, List.map_singleton, Mealy.final_concat, List.flatten_append,
      List.flatten_singleton, List.length_append, List.length_singleton]
    exact ih.read chunk

end Calls

theorem create_follows {baudRate : Int} (known : baudKnown baudRate = true)
    (thousandth : Int32 → Double) : Follows thousandth [] 0 (create baudRate none) := by
  unfold create
  simp only [known, Bool.not_true, Bool.false_eq_true, if_false]
  exact ⟨rfl, rfl, rfl, rfl⟩

/-- What the last of the calls returns, whatever the cuts. -/
theorem last_sample {baudRate : Int} (known : baudKnown baudRate = true)
    {thousandth : Int32 → Double} {chunks : List (List UInt8)} {last : SensorSample}
    (returned : last ∈ (Mealy.outputs (read thousandth) (create baudRate none)
      (chunks.map .received)).getLast?) :
    last.readings = latestReadings thousandth (accepted chunks.flatten) ∧
      last.sequence = UInt64.ofNat chunks.length := by
  obtain rfl | ⟨before, chunk, rfl⟩ := chunks.eq_nil_or_concat
  · contradiction
  · have after := run_follows (create_follows known thousandth) (before ++ [chunk])
    rw [List.concat_eq_append] at *
    rw [List.map_append, List.map_singleton, Mealy.outputs_append, Mealy.outputs_cons,
      Mealy.outputs_nil, List.getLast?_concat, Option.mem_some_iff] at returned
    rw [List.map_append, List.map_singleton, Mealy.final_concat] at after
    obtain ⟨same, numbered⟩ := read_returns thousandth
      (Mealy.final (read thousandth) (create baudRate none) (before.map .received))
      (.received chunk)
    rw [← returned, same, numbered]
    exact ⟨after.readings, after.sequence⟩

/-- For every stream and every way to cut it into the chunks of successive calls on a freshly
opened source: the readings are those of the last accepted frames of each kind, the sequence
is the number of calls, and another way to cut the stream gives the same readings. -/
theorem readings_independent_of_cuts (baudRate : Int) (known : baudKnown baudRate = true)
    (chunks : List (List UInt8)) :
    let samples := fun chunks : List (List UInt8) =>
      Mealy.outputs (read exactThousandth) (create baudRate none) (chunks.map .received)
    (∀ last ∈ (samples chunks).getLast?,
      last.readings = latestReadings exactThousandth (accepted chunks.flatten) ∧
      last.sequence = UInt64.ofNat chunks.length) ∧
    ∀ others : List (List UInt8), others.flatten = chunks.flatten →
      ∀ last ∈ (samples chunks).getLast?, ∀ other ∈ (samples others).getLast?,
        other.readings = last.readings := by
  intro samples
  refine ⟨fun last returned => last_sample known returned, ?_⟩
  intro others same last returned other returned'
  rw [(last_sample known returned).1, (last_sample known returned').1, same]

/- A frame in three pieces, and the same frame at once. -/
theorem readings_independent_of_cuts_once :
    let bytes := encodeUartFrame { milliValue := 25000 }
    ∀ last ∈ (Mealy.outputs (read exactThousandth) (create 115200 none)
      ([bytes.take 5, (bytes.drop 5).take 2, bytes.drop 7].map .received)).getLast?,
      ∀ other ∈ (Mealy.outputs (read exactThousandth) (create 115200 none)
        ([bytes].map .received)).getLast?, other.readings = last.readings := by
  intro bytes
  exact (readings_independent_of_cuts 115200 (by decide)
    [bytes.take 5, (bytes.drop 5).take 2, bytes.drop 7]).2 [bytes] rfl

end EdgeSentinel.UartSensorSource
