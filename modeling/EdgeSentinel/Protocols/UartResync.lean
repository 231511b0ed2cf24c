import EdgeSentinel.Protocols.UartStream

/-! Back-to-back frames met in the middle of a window. A rejected window is
discarded whole, so a magic pair inside a payload can start the next window in
every frame of the stream, and the decoder stays out of phase. -/
namespace EdgeSentinel.UartFrameDecoder

/- The pending window ends inside the next frame. It is rejected, and what is
left of that frame starts another window, up to the last frame of the list. -/
def staysLocked (pending : List UInt8) : List UartFrame → Bool
  | [] => true
  | frame :: rest =>
    let missing := kUartFrameSize - pending.length
    let window := pending ++ (encodeUartFrame frame).take missing
    let left := (encodeUartFrame frame).drop missing
    decide (2 ≤ pending.length) && (judge window).toOption.isNone &&
      staysLocked ((findMagic left).getD []) rest

theorem staysLocked_hunting {pending : List UInt8} (hunting : pending.length ≤ 1)
    (frames : List UartFrame) : staysLocked pending frames = frames.isEmpty := by
  cases frames with
  | nil => rfl
  | cons frame rest =>
    have short : ¬ 2 ≤ pending.length := by omega
    simp [staysLocked, short]

section Resync

variable {d : UartFrameDecoder}

/- Some byte of the input completes a frame. -/
def Returns (d : UartFrameDecoder) (bytes : List UInt8) : Prop :=
  ∃ frame, some frame ∈ Mealy.outputs feed d bytes

theorem returns_append (first second : List UInt8) :
    Returns d (first ++ second) ↔ Returns d first ∨ Returns (Mealy.final feed d first) second := by
  simp only [Returns, Mealy.outputs_append, List.mem_append, exists_or]

theorem Silent.returns_nothing {bytes : List UInt8} (silent : Silent d bytes) :
    ¬ Returns d bytes := by
  rintro ⟨frame, returned⟩
  rw [silent.outputs] at returned
  have nothing := List.eq_of_mem_replicate returned
  contradiction

theorem returns_window (h : Sane d) (low : 2 ≤ d.position) {bytes : List UInt8}
    (full : d.position + bytes.length = 12) :
    Returns d bytes ↔ (judge (d.pending ++ bytes)).toOption.isSome := by
  obtain ⟨answers, -, -⟩ := finish h low bytes full
  rw [Returns, answers, Option.isSome_iff_exists]
  constructor
  · rintro ⟨frame, returned⟩
    obtain inside | last := List.mem_append.mp returned
    · have nothing := List.eq_of_mem_replicate inside
      contradiction
    · exact ⟨frame, (List.mem_singleton.mp last).symm⟩
  · rintro ⟨frame, accepted⟩
    exact ⟨frame, by simp [accepted]⟩

/-- What a decoder at the start of a window makes of the rest of a frame. -/
theorem leftover (start : d.position = 0) {left : List UInt8} (short : left.length < 12)
    (frames : List UartFrame) :
    Silent d left ∧ staysLocked (Mealy.final feed d left).pending frames =
      staysLocked ((findMagic left).getD []) frames := by
  have sane := sane_start start
  have hunts := hunt_through sane (by omega) left
  rw [pending_start start, List.nil_append] at hunts
  obtain ⟨missed, found⟩ := hunts
  cases header : findMagic left with
  | none =>
    obtain ⟨silent, hunting⟩ := missed header
    have few : (Mealy.final feed d left).pending.length ≤ 1 := by
      rw [pending_length (by omega)]
      exact hunting
    refine ⟨silent, ?_⟩
    rw [staysLocked_hunting few, Option.getD_none, staysLocked_hunting (by simp)]
  | some tail =>
    obtain ⟨silent, collected⟩ :=
      found tail header (lt_of_le_of_lt (findMagic_suffix header).length_le short)
    refine ⟨silent, ?_⟩
    rw [collected, Option.getD_some]

/-- A stream of whole frames brings nothing back exactly while the decoder stays locked. -/
theorem returns_frames (h : Sane d) (frames : List UartFrame) :
    Returns d (frames.flatMap encodeUartFrame) ↔ staysLocked d.pending frames = false := by
  induction frames generalizing d with
  | nil => simp [Returns, staysLocked]
  | cons frame rest ih =>
    have inside := h.inside
    have length := pending_length (d := d) (by omega)
    rw [List.flatMap_cons, returns_append]
    by_cases hunting : d.position ≤ 1
    · obtain ⟨answers, -, -⟩ := feed_frame h hunting frame
      rw [staysLocked_hunting (by omega)]
      exact ⟨fun _ => rfl, fun _ => .inl ⟨frame, by simp [answers]⟩⟩
    · -- Cut the frame where the window ends.
      generalize cut : kUartFrameSize - d.pending.length = missing at *
      have bound : missing = 12 - d.position := by rw [← cut, length]; rfl
      have parts := List.take_append_drop missing (encodeUartFrame frame)
      have full : d.position + ((encodeUartFrame frame).take missing).length = 12 := by
        rw [List.length_take, encodeUartFrame_length]
        omega
      have short : ((encodeUartFrame frame).drop missing).length < 12 := by
        rw [List.length_drop, encodeUartFrame_length]
        omega
      obtain ⟨-, -, empty⟩ := finish h (by omega) _ full
      obtain ⟨silent, locked⟩ := leftover empty short rest
      have verdict := returns_window h (by omega) full
      calc Returns d (encodeUartFrame frame) ∨
            Returns (Mealy.final feed d (encodeUartFrame frame)) (rest.flatMap encodeUartFrame)
          ↔ (judge (d.pending ++ (encodeUartFrame frame).take missing)).toOption.isSome ∨
              staysLocked ((findMagic ((encodeUartFrame frame).drop missing)).getD []) rest =
                false := by
            rw [← locked, ← ih silent.sane, ← verdict, ← Mealy.final_append, parts]
            nth_rewrite 1 [← parts]
            rw [returns_append, or_iff_left silent.returns_nothing]
        _ ↔ staysLocked d.pending (frame :: rest) = false := by
            have low : 2 ≤ d.pending.length := by omega
            simp only [staysLocked, cut, low, decide_true, Bool.true_and]
            cases (judge (d.pending ++ (encodeUartFrame frame).take missing)).toOption <;> simp

/-- Only a magic pair behind the header of a frame keeps the decoder locked past it. -/
theorem staysLocked_pair {pending : List UInt8} (short : pending.length < 12)
    {frames : List UartFrame} (locked : staysLocked pending frames = true) :
    ∀ frame ∈ frames.dropLast, ¬ Clean (encodeUartFrame frame).tail := by
  induction frames generalizing pending with
  | nil => exact fun _ absent => absurd absent List.not_mem_nil
  | cons first rest ih =>
    match rest with
    | [] => exact fun _ absent => absurd absent List.not_mem_nil
    | second :: rest =>
      rw [staysLocked] at locked
      generalize cut : kUartFrameSize - pending.length = missing at locked
      have positive : 1 ≤ missing := by rw [← cut, kUartFrameSize]; omega
      obtain ⟨-, next⟩ := Bool.and_eq_true_iff.mp locked
      have inner : ((encodeUartFrame first).drop missing) <:+ (encodeUartFrame first).tail := by
        rw [← List.drop_one]
        exact List.drop_suffix_drop_left _ positive
      have left : ((encodeUartFrame first).drop missing).length < 12 := by
        rw [List.length_drop, encodeUartFrame_length]
        omega
      intro frame early
      rw [List.dropLast_cons_cons, List.mem_cons] at early
      obtain rfl | later := early
      · intro clean
        have none := findMagic_clean (fun pair => clean (pair.trans inner.isInfix))
        rw [none, Option.getD_none, staysLocked_hunting (by simp)] at next
        contradiction
      · refine ih ?_ next frame later
        cases found : findMagic ((encodeUartFrame first).drop missing) with
        | none => simp
        | some tail => exact lt_of_le_of_lt (findMagic_suffix found).length_le left

end Resync

/- A frame whose payload carries the magic pair: the second half of its encoding
starts a window that the first half of the next one completes. -/
def lockingFrame : UartFrame := { milliValue := (0xAA550000 : UInt32).toInt32 }

theorem lockingFrame_locked (count : Nat) :
    staysLocked ((encodeUartFrame lockingFrame).drop 6) (List.replicate count lockingFrame) =
      true := by
  induction count with
  | zero => rfl
  | succ count ih =>
    have again : findMagic ((encodeUartFrame lockingFrame).drop 6) =
        some ((encodeUartFrame lockingFrame).drop 6) := by decide +kernel
    have rejected : (judge ((encodeUartFrame lockingFrame).drop 6 ++
        (encodeUartFrame lockingFrame).take 6)).toOption.isNone = true := by decide +kernel
    rw [List.replicate_succ, staysLocked]
    simp only [List.length_drop, encodeUartFrame_length, kUartFrameSize, rejected, again]
    exact ih

/-- The decoder finds its phase on a stream of frames exactly when it does not
stay locked, and at the latest behind a frame with no magic pair after its header. -/
theorem resynchronises_iff (history : List UInt8) (frames : List UartFrame) :
    (Returns (Mealy.final feed {} history) (frames.flatMap encodeUartFrame) ↔
      staysLocked (Mealy.final feed {} history).pending frames = false) ∧
    ((∃ frame ∈ frames.dropLast, Clean (encodeUartFrame frame).tail) →
      Returns (Mealy.final feed {} history) (frames.flatMap encodeUartFrame)) := by
  have sane := (run_pending (d := {}) rfl history).1
  have inside := sane.inside
  refine ⟨returns_frames sane frames, ?_⟩
  rintro ⟨frame, early, clean⟩
  rw [returns_frames sane, Bool.eq_false_iff]
  intro locked
  exact staysLocked_pair (by rw [pending_length (by omega)]; exact inside) locked frame early clean

/-- No number of frames is enough. -/
theorem resynchronisation_unbounded :
    ¬ ∃ bound : Nat, ∀ (history : List UInt8) (frames : List UartFrame), frames.length = bound →
      Returns (Mealy.final feed {} history) (frames.flatMap encodeUartFrame) := by
  rintro ⟨bound, promise⟩
  have returned := promise ((encodeUartFrame lockingFrame).drop 6)
    (List.replicate bound lockingFrame) (List.length_replicate)
  have sane := (run_pending (d := {}) rfl ((encodeUartFrame lockingFrame).drop 6)).1
  have pending : (Mealy.final feed {} ((encodeUartFrame lockingFrame).drop 6)).pending =
      (encodeUartFrame lockingFrame).drop 6 := by decide +kernel
  rw [returns_frames sane, pending, lockingFrame_locked] at returned
  contradiction

end EdgeSentinel.UartFrameDecoder
