import EdgeSentinel.Protocols.UartDecoder

/-! Whole byte streams through the decoder. Three stretches make up every run:
hunting for the header, filling the window, and the byte that completes it. -/
namespace EdgeSentinel.UartFrameDecoder

/-- The rest of the input from its first adjacent magic pair on. -/
def findMagic : List UInt8 → Option (List UInt8)
  | a :: b :: rest =>
    if a = kUartMagicFirst ∧ b = kUartMagicSecond then some (a :: b :: rest)
    else findMagic (b :: rest)
  | _ => none

theorem findMagic_header (rest : List UInt8) :
    findMagic (kUartMagicFirst :: kUartMagicSecond :: rest) =
      some (kUartMagicFirst :: kUartMagicSecond :: rest) := by
  simp [findMagic]

theorem findMagic_suffix {bytes tail : List UInt8} (found : findMagic bytes = some tail) :
    tail <:+ bytes := by
  fun_induction findMagic bytes with
  | case1 a b rest header =>
    cases found
    exact List.suffix_refl _
  | case2 a b rest other ih => exact (ih found).trans (List.suffix_cons _ _)
  | case3 bytes short => contradiction

theorem findMagic_skip {a : UInt8} (other : a ≠ kUartMagicFirst) (rest : List UInt8) :
    findMagic (a :: rest) = findMagic rest := by
  cases rest with
  | nil => rfl
  | cons b rest => simp [findMagic, other]

theorem findMagic_again {b : UInt8} (other : b ≠ kUartMagicSecond) (rest : List UInt8) :
    findMagic (kUartMagicFirst :: b :: rest) = findMagic (b :: rest) := by
  simp [findMagic, other]

theorem hunt_header {pending : List UInt8} {byte : UInt8}
    (found : hunt pending byte = [kUartMagicFirst, kUartMagicSecond]) :
    pending ++ [byte] = [kUartMagicFirst, kUartMagicSecond] := by
  unfold hunt at found
  split at found
  · rename_i both
    rw [both.1, both.2]
    rfl
  · split at found <;> simp at found

theorem hunt_length {pending : List UInt8} {byte : UInt8}
    (missed : hunt pending byte ≠ [kUartMagicFirst, kUartMagicSecond]) :
    (hunt pending byte).length ≤ 1 := by
  unfold hunt at missed ⊢
  split
  · rename_i both
    rw [if_pos both] at missed
    contradiction
  · split <;> simp

/-- Hunting looks no further back than the byte it keeps. -/
theorem findMagic_hunt {d : UartFrameDecoder} (h : Sane d) (hunting : d.position ≤ 1)
    (byte : UInt8) (rest : List UInt8)
    (still : hunt d.pending byte ≠ [kUartMagicFirst, kUartMagicSecond]) :
    findMagic (d.pending ++ byte :: rest) = findMagic (hunt d.pending byte ++ rest) := by
  obtain ⟨-, bytes⟩ | ⟨-, bytes⟩ := h.hunting_cases hunting
  · rw [bytes] at still ⊢
    by_cases first : byte = kUartMagicFirst
    · simp [hunt, first]
    · simp [hunt, first, findMagic_skip first]
  · rw [bytes] at still ⊢
    by_cases second : byte = kUartMagicSecond
    · simp [hunt, second] at still
    · rw [List.cons_append, List.nil_append, findMagic_again second]
      by_cases first : byte = kUartMagicFirst
      · simp [hunt, first, kUartMagicFirst, kUartMagicSecond]
      · simp [hunt, first, second, findMagic_skip first]

/-- A stretch of input that returns nothing and raises no error. -/
structure Silent (d : UartFrameDecoder) (bytes : List UInt8) : Prop where
  outputs : Mealy.outputs feed d bytes = List.replicate bytes.length none
  errors : (Mealy.final feed d bytes).errors = d.errors
  sane : Sane (Mealy.final feed d bytes)

section Stretches

variable {d : UartFrameDecoder}

theorem silent_nil (h : Sane d) : Silent d [] := ⟨rfl, rfl, h⟩

theorem Silent.cons {byte : UInt8} {bytes : List UInt8} (quiet : (feed d byte).2 = none)
    (same : (feed d byte).1.errors = d.errors) (rest : Silent (feed d byte).1 bytes) :
    Silent d (byte :: bytes) := by
  refine ⟨?_, ?_, rest.sane⟩
  · rw [Mealy.outputs_cons, quiet, rest.outputs]
    rfl
  · rw [Mealy.final_cons, rest.errors, same]

theorem fill (h : Sane d) (low : 2 ≤ d.position) (bytes : List UInt8)
    (room : d.position + bytes.length < 12) :
    Silent d bytes ∧ (Mealy.final feed d bytes).pending = d.pending ++ bytes := by
  induction bytes generalizing d with
  | nil => exact ⟨silent_nil h, (List.append_nil _).symm⟩
  | cons byte rest ih =>
    rw [List.length_cons] at room
    obtain ⟨quiet, same, sane, next⟩ := h.feed_filling low (by omega) byte
    have position : (feed d byte).1.position = d.position + 1 := by
      have length := congrArg List.length next
      rw [pending_length (by have := sane.inside; omega), List.length_append,
        pending_length (by have := h.inside; omega)] at length
      exact length
    obtain ⟨silent, collected⟩ := ih sane (by omega) (by omega)
    refine ⟨silent.cons quiet same, ?_⟩
    rw [Mealy.final_cons, collected, next, List.append_assoc]
    rfl

theorem position_of_pending (h : Sane d) {bytes : List UInt8} (same : d.pending = bytes) :
    d.position = bytes.length := by
  rw [← same, pending_length (by have := h.inside; omega)]

/-- Hunting through input in which a window may start but none is completed. -/
theorem hunt_through (h : Sane d) (hunting : d.position ≤ 1) (bytes : List UInt8) :
    (findMagic (d.pending ++ bytes) = none →
      Silent d bytes ∧ (Mealy.final feed d bytes).position ≤ 1) ∧
    (∀ tail, findMagic (d.pending ++ bytes) = some tail → tail.length < 12 →
      Silent d bytes ∧ (Mealy.final feed d bytes).pending = tail) := by
  induction bytes generalizing d with
  | nil =>
    have none : findMagic (d.pending ++ []) = none := by
      obtain ⟨-, bytes⟩ | ⟨-, bytes⟩ := h.hunting_cases hunting <;> rw [bytes] <;> rfl
    exact ⟨fun _ => ⟨silent_nil h, hunting⟩, fun tail found => by rw [none] at found; contradiction⟩
  | cons byte rest ih =>
    obtain ⟨quiet, same, sane, next⟩ := h.feed_hunting hunting byte
    by_cases header : hunt d.pending byte = [kUartMagicFirst, kUartMagicSecond]
    · -- The header is complete: the rest of the input only fills the window.
      have start : d.pending ++ byte :: rest = kUartMagicFirst :: kUartMagicSecond :: rest := by
        rw [List.append_cons, hunt_header header]
        rfl
      rw [header] at next
      have position := position_of_pending sane next
      refine ⟨fun none => ?_, fun tail found short => ?_⟩
      · rw [start, findMagic_header] at none
        contradiction
      · rw [start, findMagic_header] at found
        cases found
        obtain ⟨silent, collected⟩ := fill sane (by rw [position]; decide) rest
          (by rw [position, Nat.add_comm]; exact short)
        refine ⟨silent.cons quiet same, ?_⟩
        rw [Mealy.final_cons, collected, next]
        rfl
    · have low : (feed d byte).1.position ≤ 1 := by
        rw [position_of_pending sane next]
        exact hunt_length header
      obtain ⟨none, some⟩ := ih sane low
      rw [next, ← findMagic_hunt h hunting byte rest header] at none some
      refine ⟨fun missing => ?_, fun tail found short => ?_⟩
      · obtain ⟨silent, last⟩ := none missing
        exact ⟨silent.cons quiet same, last⟩
      · obtain ⟨silent, last⟩ := some tail found short
        exact ⟨silent.cons quiet same, last⟩

/-- The stretch that completes a window: one verdict, on its last byte. -/
theorem finish (h : Sane d) (low : 2 ≤ d.position) (bytes : List UInt8)
    (full : d.position + bytes.length = 12) :
    Mealy.outputs feed d bytes =
      List.replicate (bytes.length - 1) none ++ [(judge (d.pending ++ bytes)).toOption] ∧
    (Mealy.final feed d bytes).errors = tally (judge (d.pending ++ bytes)) d.errors ∧
    (Mealy.final feed d bytes).position = 0 := by
  obtain rfl | ⟨start, byte, rfl⟩ := bytes.eq_nil_or_concat
  · have := h.inside
    simp at full
    omega
  · rw [List.concat_eq_append] at *
    rw [List.length_append, List.length_singleton] at full
    obtain ⟨silent, collected⟩ := fill h low start (by omega)
    have position := position_of_pending silent.sane collected
    rw [List.length_append, pending_length (by omega)] at position
    obtain ⟨answer, counted, empty⟩ := silent.sane.feed_complete (by omega) byte
    rw [collected, List.append_assoc] at answer counted
    refine ⟨?_, ?_, ?_⟩
    · rw [Mealy.outputs_append, silent.outputs, Mealy.outputs_cons, answer]
      simp
    · rw [Mealy.final_concat, counted, silent.errors]
    · rw [Mealy.final_concat, empty]

/-- A whole window from a decoder that is hunting. -/
theorem feed_window (h : Sane d) (hunting : d.position ≤ 1) {window body : List UInt8}
    (split : window = [kUartMagicFirst, kUartMagicSecond] ++ body) (length : body.length = 10) :
    Mealy.outputs feed d window = List.replicate 11 none ++ [(judge window).toOption] ∧
    (Mealy.final feed d window).errors = tally (judge window) d.errors ∧
    (Mealy.final feed d window).position = 0 := by
  have header : findMagic (d.pending ++ [kUartMagicFirst, kUartMagicSecond]) =
      some [kUartMagicFirst, kUartMagicSecond] := by
    obtain ⟨-, bytes⟩ | ⟨-, bytes⟩ := h.hunting_cases hunting <;> rw [bytes] <;> rfl
  obtain ⟨silent, collected⟩ := (hunt_through h hunting _).2 _ header (by decide)
  have position := position_of_pending silent.sane collected
  obtain ⟨answers, counted, empty⟩ := finish silent.sane (by rw [position]; decide) body
    (by rw [position, length]; rfl)
  rw [collected, ← split] at answers counted
  rw [split, Mealy.outputs_append, Mealy.final_append, silent.outputs, answers, counted,
    silent.errors, length, ← split]
  exact ⟨rfl, rfl, empty⟩

/-- A whole frame from a decoder that is hunting. -/
theorem feed_frame (h : Sane d) (hunting : d.position ≤ 1) (frame : UartFrame) :
    Mealy.outputs feed d (encodeUartFrame frame) = List.replicate 11 none ++ [some frame] ∧
    (Mealy.final feed d (encodeUartFrame frame)).errors = d.errors ∧
    (Mealy.final feed d (encodeUartFrame frame)).position = 0 := by
  have split : encodeUartFrame frame =
      [kUartMagicFirst, kUartMagicSecond] ++ (encodeUartFrame frame).drop 2 := rfl
  have whole := feed_window h hunting split rfl
  rw [judge_encode] at whole
  exact whole

/-- Frames one behind the other, with nothing lost and nothing added. -/
theorem outputs_frames (start : d.position = 0) (frames : List UartFrame) :
    (Mealy.outputs feed d (frames.flatMap encodeUartFrame)).filterMap id = frames := by
  induction frames generalizing d with
  | nil => rfl
  | cons frame rest ih =>
    obtain ⟨answers, -, empty⟩ := feed_frame (sane_start start) (by omega) frame
    rw [List.flatMap_cons, Mealy.outputs_append, answers, List.filterMap_append, ih empty]
    rfl

end Stretches

/-- Noise that never shows the two magic bytes next to each other. -/
def Clean (noise : List UInt8) : Prop := ¬ [kUartMagicFirst, kUartMagicSecond] <:+: noise

theorem findMagic_clean {noise : List UInt8} (clean : Clean noise) : findMagic noise = none := by
  induction noise with
  | nil => rfl
  | cons a rest ih =>
    have inner := ih (fun inside => clean (List.infix_cons inside))
    match rest with
    | [] => rfl
    | b :: rest =>
      have other : ¬ (a = kUartMagicFirst ∧ b = kUartMagicSecond) := by
        rintro ⟨rfl, rfl⟩
        exact clean ⟨[], rest, rfl⟩
      rw [findMagic, if_neg other]
      exact inner

/- What a sender puts on the line: before every frame some noise. -/
def wire (segments : List (List UInt8 × UartFrame)) : List UInt8 :=
  segments.flatMap fun (noise, frame) => noise ++ encodeUartFrame frame

/- One answer per byte of the wire: the frame on its last byte, nothing before. -/
def received (segments : List (List UInt8 × UartFrame)) : List (Option UartFrame) :=
  segments.flatMap fun (noise, frame) => List.replicate (noise.length + 11) none ++ [some frame]

/-- The decoder through a whole wire: the answers, and everything else as before. -/
theorem run_wire (d : UartFrameDecoder) (start : d.position = 0)
    (segments : List (List UInt8 × UartFrame)) (clean : ∀ segment ∈ segments, Clean segment.1) :
    Mealy.outputs feed d (wire segments) = received segments ∧
    (Mealy.final feed d (wire segments)).errors = d.errors ∧
    (Mealy.final feed d (wire segments)).position = 0 := by
  induction segments generalizing d with
  | nil => exact ⟨rfl, rfl, start⟩
  | cons segment rest ih =>
    obtain ⟨noise, frame⟩ := segment
    have quiet : findMagic (d.pending ++ noise) = none := by
      rw [pending_start start]
      exact findMagic_clean (clean _ List.mem_cons_self)
    obtain ⟨silent, hunting⟩ := (hunt_through (sane_start start) (by omega) noise).1 quiet
    obtain ⟨answers, counted, empty⟩ := feed_frame silent.sane hunting frame
    rw [silent.errors] at counted
    obtain ⟨outputs, errors, last⟩ := ih _ empty
      (fun segment later => clean segment (List.mem_cons_of_mem _ later))
    have sent : wire ((noise, frame) :: rest) =
        noise ++ encodeUartFrame frame ++ wire rest := by
      simp [wire]
    have got : received ((noise, frame) :: rest) =
        List.replicate noise.length none ++ (List.replicate 11 none ++ [some frame]) ++
          received rest := by
      simp [received, List.replicate_add]
    simp only [sent, got, Mealy.outputs_append, Mealy.final_append, silent.outputs, answers,
      outputs]
    exact ⟨trivial, errors.trans counted, last⟩

/-- Frames with clean noise in front of each come back in order, every one on
the last byte of its encoding, and nothing else does. -/
theorem stream_round_trip (d : UartFrameDecoder) (start : d.position = 0)
    (segments : List (List UInt8 × UartFrame)) (clean : ∀ segment ∈ segments, Clean segment.1) :
    Mealy.outputs feed d (wire segments) = received segments ∧
    (Mealy.final feed d (wire segments)).crcErrors = d.crcErrors ∧
    (Mealy.final feed d (wire segments)).formatErrors = d.formatErrors ∧
    (Mealy.final feed d (wire segments)).position = 0 := by
  obtain ⟨outputs, counted, last⟩ := run_wire d start segments clean
  exact ⟨outputs, congrArg Prod.fst counted, congrArg Prod.snd counted, last⟩

/-- Noise that ends in a first magic byte, right before the header. -/
theorem stream_round_trip_noisy :
    Mealy.outputs feed {} (wire [([0x55, 0xAA], { sequence := 7, milliValue := -1 })]) =
      received [([0x55, 0xAA], { sequence := 7, milliValue := -1 })] :=
  (stream_round_trip {} rfl [([0x55, 0xAA], { sequence := 7, milliValue := -1 })]
    (by unfold Clean; decide)).1

section Sound

theorem hunt_suffix {pending : List UInt8} {byte : UInt8} :
    hunt pending byte <:+ pending ++ [byte] := by
  unfold hunt
  split
  · rename_i both
    rw [both.1, both.2]
    exact List.suffix_refl _
  · split
    · rename_i first
      rw [first]
      exact List.suffix_append _ _
    · exact List.nil_suffix

/-- What one byte can do to a sane decoder. -/
theorem Sane.feed_step {d : UartFrameDecoder} (h : Sane d) (byte : UInt8) :
    Sane (feed d byte).1 ∧ (feed d byte).1.pending <:+ d.pending ++ [byte] ∧
    ∀ frame, (feed d byte).2 = some frame →
      d.pending ++ [byte] = encodeUartFrame frame ∧ (feed d byte).1.position = 0 := by
  have inside := h.inside
  by_cases hunting : d.position ≤ 1
  · obtain ⟨quiet, -, sane, next⟩ := h.feed_hunting hunting byte
    refine ⟨sane, ?_, ?_⟩
    · rw [next]
      exact hunt_suffix
    · intro frame returned
      rw [quiet] at returned
      contradiction
  · by_cases room : d.position < 11
    · obtain ⟨quiet, -, sane, next⟩ := h.feed_filling (by omega) room byte
      refine ⟨sane, ?_, ?_⟩
      · exact next ▸ List.suffix_refl _
      · intro frame returned
        rw [quiet] at returned
        contradiction
    · obtain ⟨answer, -, empty⟩ := h.feed_complete (by omega) byte
      refine ⟨sane_start empty, ?_, ?_⟩
      · rw [pending_start empty]
        exact List.nil_suffix
      · intro frame returned
        have length := pending_length (d := d) (by omega)
        have header : (d.pending ++ [byte]).take 2 = [kUartMagicFirst, kUartMagicSecond] := by
          rw [List.take_append_of_le_length (by omega)]
          exact h.header.eq_of_length (by simp; omega)
        have accepted : judge (d.pending ++ [byte]) = .ok frame := by
          rw [answer] at returned
          cases verdict : judge (d.pending ++ [byte]) with
          | ok other => rw [verdict] at returned; exact congrArg _ (Option.some.inj returned)
          | error error => rw [verdict] at returned; contradiction
        refine ⟨(encode_judge ?_ header accepted).symm, empty⟩
        rw [List.length_append, List.length_singleton]
        omega

/-- The pending bytes are always the last ones fed. -/
theorem run_pending {d : UartFrameDecoder} (start : d.position = 0) (bytes : List UInt8) :
    Sane (Mealy.final feed d bytes) ∧ (Mealy.final feed d bytes).pending <:+ bytes := by
  apply Mealy.history_induction feed (P := fun bytes d => Sane d ∧ d.pending <:+ bytes)
  · rw [pending_start start]
    exact ⟨sane_start start, List.suffix_refl _⟩
  · intro fed d byte known _
    obtain ⟨sane, last⟩ := known
    obtain ⟨next, collected, -⟩ := sane.feed_step byte
    exact ⟨next, collected.trans (List.suffix_append_self_iff.mpr last)⟩

/-- A frame is returned on the last byte of its own encoding, and the decoder starts over. -/
theorem returned_window {d : UartFrameDecoder} (start : d.position = 0) {bytes : List UInt8}
    {i : Nat} {frame : UartFrame}
    (returned : (Mealy.outputs feed d bytes)[i]? = some (some frame)) :
    encodeUartFrame frame <:+ bytes.take (i + 1) ∧
      (Mealy.final feed d (bytes.take (i + 1))).position = 0 := by
  rw [Mealy.outputs_getElem?, Option.map_eq_some_iff] at returned
  obtain ⟨byte, found, answered⟩ := returned
  obtain ⟨sane, last⟩ := run_pending start (bytes.take i)
  obtain ⟨-, -, window⟩ := sane.feed_step byte
  obtain ⟨encoded, empty⟩ := window frame answered
  rw [List.take_add_one, found, Option.toList_some, Mealy.final_concat, ← encoded]
  exact ⟨List.suffix_append_self_iff.mpr last, empty⟩

end Sound

theorem decoder_sound (bytes : List UInt8) :
    (Mealy.final feed {} bytes).position < 12 ∧
    (∀ i frame, (Mealy.outputs feed {} bytes)[i]? = some (some frame) →
      encodeUartFrame frame <:+ bytes.take (i + 1)) ∧
    (∀ i j frame next, (Mealy.outputs feed {} bytes)[i]? = some (some frame) →
      (Mealy.outputs feed {} bytes)[j]? = some (some next) → i < j → i + 12 ≤ j) := by
  refine ⟨(run_pending rfl bytes).1.inside, ?_, ?_⟩
  · intro i frame returned
    exact (returned_window rfl returned).1
  · intro i j frame next first second later
    -- The decoder starts over behind the first frame; the second one lies in the rest.
    obtain ⟨-, empty⟩ := returned_window rfl first
    have rest : (Mealy.outputs feed (Mealy.final feed {} (bytes.take (i + 1)))
        (bytes.drop (i + 1)))[j - (i + 1)]? = some (some next) := by
      rw [Mealy.outputs_drop, List.getElem?_drop, Nat.add_sub_cancel' later]
      exact second
    have window := (returned_window empty rest).1.length_le
    rw [encodeUartFrame_length, List.length_take] at window
    omega

end EdgeSentinel.UartFrameDecoder
