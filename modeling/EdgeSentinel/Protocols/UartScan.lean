import EdgeSentinel.Protocols.UartStream

/-! What the decoder is for: a scan over the whole input. It cuts the input into windows of
twelve bytes, each at the first magic pair behind the one before, and classifies them one by
one by the numbers in their bytes. The decoder does the same a byte at a time. -/
namespace EdgeSentinel.UartFrameDecoder

/-- The windows of an input, without regard to any state of the decoder. -/
def windows (input : List UInt8) : List (List UInt8) :=
  match found : findMagic input with
  | none => []
  | some tail =>
    if tail.length < kUartFrameSize then []
    else
      have _shorter := (findMagic_suffix found).length_le
      tail.take kUartFrameSize :: windows (tail.drop kUartFrameSize)
termination_by input.length
decreasing_by
  rw [kUartFrameSize] at *
  rw [List.length_drop]
  omega

theorem windows_none {input : List UInt8} (missing : findMagic input = none) :
    windows input = [] := by
  rw [windows]
  split
  · rfl
  · rename_i tail found
    rw [missing] at found
    contradiction

theorem windows_short {input tail : List UInt8} (found : findMagic input = some tail)
    (short : tail.length < 12) : windows input = [] := by
  rw [windows]
  split
  · rfl
  · rename_i other same
    rw [found] at same
    cases same
    exact if_pos short

theorem windows_cons {input tail : List UInt8} (found : findMagic input = some tail)
    (long : 12 ≤ tail.length) : windows input = tail.take 12 :: windows (tail.drop 12) := by
  rw [windows]
  split
  · rename_i missing
    rw [found] at missing
    contradiction
  · rename_i other same
    rw [found] at same
    cases same
    exact if_neg (Nat.not_lt.mpr long)

/-- The reference: the verdicts on the windows, sorted into frames and errors. -/
structure Scan where
  frames : List UartFrame
  crcErrors : Nat
  formatErrors : Nat
  deriving DecidableEq, Repr

def isError (error : DecodeError) : Except DecodeError UartFrame → Bool
  | .error other => other = error
  | .ok _ => false

/- The verdict on a window, read off its bytes: first the CRC of the ten bytes in front of it,
then version 1 and a kind from 1 to 4, then the numbers of the frame. -/
def classify : List UInt8 → Except DecodeError UartFrame
  | [first, second, version, kind, s₁, s₀, v₃, v₂, v₁, v₀, c₁, c₀] =>
    let crc := crc16Ccitt [first, second, version, kind, s₁, s₀, v₃, v₂, v₁, v₀]
    let value := ((v₃.toNat * 256 + v₂.toNat) * 256 + v₁.toNat) * 256 + v₀.toNat
    if c₁.toNat * 256 + c₀.toNat ≠ crc.toNat then .error .crc
    else if version.toNat ≠ 1 ∨ kind.toNat < 1 ∨ 4 < kind.toNat then .error .format
    else
      .ok {
        kind :=
          if kind.toNat = 1 then .temperature
          else if kind.toNat = 2 then .vibration
          else if kind.toNat = 3 then .current
          else .online
        sequence := .ofNat (s₁.toNat * 256 + s₀.toNat)
        milliValue := .ofInt (if value < 2 ^ 31 then value else value - 2 ^ 32) }
  | _ => .error .format

def scan (input : List UInt8) : Scan :=
  let verdicts := (windows input).map classify
  { frames := verdicts.filterMap Except.toOption
    crcErrors := verdicts.countP (isError .crc)
    formatErrors := verdicts.countP (isError .format) }

theorem ofCode_toNat (code : UInt8) :
    MeasurementKind.ofCode code =
      if code.toNat < 1 ∨ 4 < code.toNat then none
      else some (
        if code.toNat = 1 then .temperature
        else if code.toNat = 2 then .vibration
        else if code.toNat = 3 then .current
        else .online) := by
  simp only [MeasurementKind.ofCode, ← UInt8.toNat_inj]
  split_ifs <;> simp_all
  omega

/-- The decoder's own checks come to the same verdict. -/
theorem judge_eq_classify {window : List UInt8} (length : window.length = 12) :
    judge window = classify window := by
  match window, length with
  | [first, second, version, kind, s₁, s₀, v₃, v₂, v₁, v₀, c₁, c₀], _ =>
    have crc : ∀ word : UInt16, BigEndian.word16 c₁ c₀ = word ↔
        c₁.toNat * 256 + c₀.toNat = word.toNat := by
      intro word
      rw [← UInt16.toNat_inj, BigEndian.word16_toNat]
    have sequence : BigEndian.word16 s₁ s₀ = .ofNat (s₁.toNat * 256 + s₀.toNat) := by
      rw [← BigEndian.word16_toNat, UInt16.ofNat_toNat]
    have value := congrArg Int32.ofInt (BigEndian.word32_toInt v₃ v₂ v₁ v₀)
    rw [Int32.ofInt_toInt] at value
    have supported : version = kUartProtocolVersion ↔ version.toNat = 1 := UInt8.toNat_inj.symm
    simp only [judge, classify, List.getD_cons_zero, List.getD_cons_succ, List.take_succ_cons,
      List.take_zero, ne_eq, crc, sequence, supported, value, ofCode_toNat]
    by_cases range : kind.toNat < 1 ∨ 4 < kind.toNat
    · simp only [range, or_true, if_true, ite_self]
    · simp only [range, or_false, if_false]

theorem windows_length {input window : List UInt8} (cut : window ∈ windows input) :
    window.length = 12 := by
  fun_induction windows input with
  | case1 => contradiction
  | case2 => contradiction
  | case3 input tail found long _ ih =>
    rcases List.mem_cons.mp cut with rfl | later
    · rw [List.length_take, kUartFrameSize] at *
      omega
    · exact ih later

theorem windows_verdicts (input : List UInt8) :
    (windows input).map judge = (windows input).map classify :=
  List.map_congr_left fun _ cut => judge_eq_classify (windows_length cut)

/-- The first magic pair is found as soon as it is there. -/
theorem findMagic_split {input tail : List UInt8} (found : findMagic input = some tail) :
    ∃ skipped rest, input = skipped ++ rest ∧
      tail = kUartMagicFirst :: kUartMagicSecond :: rest ∧
      findMagic skipped = some [kUartMagicFirst, kUartMagicSecond] := by
  fun_induction findMagic input with
  | case1 a b rest header =>
    obtain ⟨rfl, rfl⟩ := header
    cases found
    exact ⟨[kUartMagicFirst, kUartMagicSecond], rest, rfl, rfl, rfl⟩
  | case2 a b rest other ih =>
    obtain ⟨skipped, left, split, header, early⟩ := ih found
    cases skipped with
    | nil => contradiction
    | cons c skipped =>
      cases split
      refine ⟨a :: b :: skipped, left, rfl, header, ?_⟩
      rw [findMagic, if_neg other]
      exact early
  | case3 bytes short => contradiction

section Equal

variable {d : UartFrameDecoder}

/- What the verdicts on some windows make of the error counters. -/
def tallyAll (verdicts : List (Except DecodeError UartFrame)) (errors : Nat × Nat) : Nat × Nat :=
  verdicts.foldl (fun errors verdict => tally verdict errors) errors

/-- The decoder answers with the frames of the scan and counts its errors. -/
structure Scans (d : UartFrameDecoder) (bytes : List UInt8) : Prop where
  frames : (Mealy.outputs feed d bytes).filterMap id =
    ((windows (d.pending ++ bytes)).map judge).filterMap Except.toOption
  errors : (Mealy.final feed d bytes).errors =
    tallyAll ((windows (d.pending ++ bytes)).map judge) d.errors

theorem Silent.frames {bytes : List UInt8} (silent : Silent d bytes) :
    (Mealy.outputs feed d bytes).filterMap id = [] := by
  rw [silent.outputs]
  simp

theorem Silent.scans {bytes : List UInt8} (silent : Silent d bytes)
    (none : windows (d.pending ++ bytes) = []) : Scans d bytes := by
  refine ⟨?_, ?_⟩
  · rw [none, silent.frames]
    rfl
  · rw [none, silent.errors]
    rfl

/-- The bytes up to the first header, the rest of its window, and what follows them. -/
theorem Scans.window {front body rest : List UInt8} (silent : Silent d front)
    (header : (Mealy.final feed d front).pending = [kUartMagicFirst, kUartMagicSecond])
    (full : body.length = 10)
    (later : Scans (Mealy.final feed (Mealy.final feed d front) body) rest)
    (cut : windows (d.pending ++ (front ++ (body ++ rest))) =
      (kUartMagicFirst :: kUartMagicSecond :: body) :: windows rest) :
    Scans d (front ++ (body ++ rest)) := by
  have position := position_of_pending silent.sane header
  obtain ⟨answers, counted, empty⟩ := finish silent.sane (by rw [position]; decide) body
    (by rw [position, full]; rfl)
  rw [header, silent.errors] at counted
  rw [header] at answers
  have frames := later.frames
  have errors := later.errors
  rw [pending_start empty] at frames errors
  refine ⟨?_, ?_⟩
  · have answered : (Mealy.outputs feed (Mealy.final feed d front) body).filterMap id =
        (judge (kUartMagicFirst :: kUartMagicSecond :: body)).toOption.toList := by
      rw [answers]
      change _ = (judge ([kUartMagicFirst, kUartMagicSecond] ++ body)).toOption.toList
      cases (judge ([kUartMagicFirst, kUartMagicSecond] ++ body)).toOption <;> simp
    rw [cut, Mealy.outputs_append, Mealy.outputs_append, List.filterMap_append,
      List.filterMap_append, silent.frames, answered, frames, List.map_cons, List.filterMap_cons]
    cases (judge (kUartMagicFirst :: kUartMagicSecond :: body)).toOption <;> rfl
  · rw [cut, Mealy.final_append, Mealy.final_append, errors, counted]
    rfl

/-- A decoder that hunts, on any input. The induction takes one window at a time. -/
theorem scans (h : Sane d) (hunting : d.position ≤ 1) (bytes : List UInt8) : Scans d bytes := by
  induction size : bytes.length using Nat.strong_induction_on generalizing d bytes with
  | _ size ih =>
  obtain ⟨missed, met⟩ := hunt_through h hunting bytes
  cases found : findMagic (d.pending ++ bytes) with
  | none => exact (missed found).1.scans (windows_none found)
  | some tail =>
    by_cases short : tail.length < 12
    · exact (met tail found short).1.scans (windows_short found short)
    · obtain ⟨skipped, rest, split, header, early⟩ := findMagic_split found
      have few : d.pending.length ≤ 1 := by rwa [pending_length (by omega)]
      have some := (findMagic_suffix early).length_le
      obtain ⟨front, rfl, rfl⟩ | ⟨more, inside, -⟩ := List.append_eq_append_iff.mp split
      · obtain ⟨silent, collected⟩ := (hunt_through h hunting front).2 _ early (by decide)
        subst header
        simp only [List.length_cons] at short
        have position := position_of_pending silent.sane collected
        have full : (rest.take 10).length = 10 := by
          rw [List.length_take]
          omega
        obtain ⟨-, -, empty⟩ := finish silent.sane (by rw [position]; decide) (rest.take 10)
          (by rw [position, full]; rfl)
        have later := ih (rest.drop 10).length (by simp at size ⊢; omega) (sane_start empty)
          (by omega) (rest.drop 10) rfl
        have parts := List.take_append_drop 10 rest
        rw [← parts]
        refine Scans.window silent collected full later ?_
        rw [parts, windows_cons found (by simp only [List.length_cons]; omega)]
        rfl
      · rw [inside, List.length_append] at few
        simp only [List.length_cons, List.length_nil] at some
        omega

/-- The counters after some verdicts, modulo the width of a counter. -/
theorem tallyAll_counts (verdicts : List (Except DecodeError UartFrame)) (crc format : Nat) :
    tallyAll verdicts (crc % 2 ^ 64, format % 2 ^ 64) =
      ((crc + verdicts.countP (isError .crc)) % 2 ^ 64,
        (format + verdicts.countP (isError .format)) % 2 ^ 64) := by
  induction verdicts generalizing crc format with
  | nil => rfl
  | cons verdict rest ih =>
    have next : ∀ n, SizeT.increment (n % 2 ^ 64) = (n + 1) % 2 ^ 64 :=
      fun n => Nat.mod_add_mod n _ 1
    have step : ∀ errors, tallyAll (verdict :: rest) errors =
        tallyAll rest (tally verdict errors) := fun _ => rfl
    rw [step]
    cases verdict with
    | ok frame => exact ih crc format
    | error error =>
      cases error with
      | crc =>
        rw [tally, next, ih]
        simp [isError, Nat.add_assoc, Nat.add_comm 1]
      | format =>
        rw [tally, next, ih]
        simp [isError, Nat.add_assoc, Nat.add_comm 1]

/-- Every verdict is a frame, a CRC error or a format error. -/
theorem verdicts_sorted (verdicts : List (Except DecodeError UartFrame)) :
    (verdicts.filterMap Except.toOption).length + verdicts.countP (isError .crc) +
      verdicts.countP (isError .format) = verdicts.length := by
  induction verdicts with
  | nil => rfl
  | cons verdict rest ih =>
    rw [List.countP_cons, List.countP_cons, List.length_cons]
    cases verdict with
    | ok frame =>
      have head : (.ok frame :: rest).filterMap Except.toOption =
          frame :: rest.filterMap Except.toOption := rfl
      rw [head, List.length_cons]
      simp only [isError, Bool.false_eq_true, if_false]
      omega
    | error error =>
      rw [List.filterMap_cons_none rfl]
      cases error <;> simp [isError] <;> omega

end Equal

/-- For every input, the decoder fed byte by byte returns the frames of the scan and ends with
its error counts; and the byte that completes a window, the last twelve bytes fed, does what
the window's class says: it returns the frame or raises one of the two counters. -/
theorem decoder_equals_scan (bytes : List UInt8) :
    (Mealy.outputs feed {} bytes).filterMap id = (scan bytes).frames ∧
    (Mealy.final feed {} bytes).crcErrors = (scan bytes).crcErrors % 2 ^ 64 ∧
    (Mealy.final feed {} bytes).formatErrors = (scan bytes).formatErrors % 2 ^ 64 ∧
    (scan bytes).frames.length + (scan bytes).crcErrors + (scan bytes).formatErrors =
      (windows bytes).length ∧
    ∀ d byte, Mealy.final feed {} bytes = d → d.position = 11 →
      ∃ window, window <:+ bytes ++ [byte] ∧ window.length = 12 ∧
        ((∃ frame, classify window = .ok frame ∧ (feed d byte).2 = some frame ∧
            (feed d byte).1.errors = (d.crcErrors, d.formatErrors)) ∨
          (classify window = .error .crc ∧ (feed d byte).2 = none ∧
            (feed d byte).1.errors = ((d.crcErrors + 1) % 2 ^ 64, d.formatErrors)) ∨
          (classify window = .error .format ∧ (feed d byte).2 = none ∧
            (feed d byte).1.errors = (d.crcErrors, (d.formatErrors + 1) % 2 ^ 64))) := by
  have start : ({} : UartFrameDecoder).position = 0 := rfl
  have all : Scans {} bytes := scans (sane_start start) (by omega) bytes
  have frames := all.frames
  have counts := all.errors.trans (tallyAll_counts _ 0 0)
  rw [Nat.zero_add, Nat.zero_add, windows_verdicts] at counts
  rw [windows_verdicts] at frames
  refine ⟨frames, congrArg Prod.fst counts, congrArg Prod.snd counts, ?_, ?_⟩
  · rw [scan, verdicts_sorted, List.length_map]
  · intro d byte reached last
    obtain ⟨sane, fed⟩ := run_pending start bytes
    rw [reached] at sane fed
    have twelve : (d.pending ++ [byte]).length = 12 := by
      rw [List.length_append, pending_length (by omega), last]
      rfl
    obtain ⟨answer, counted, -⟩ := sane.feed_complete last byte
    rw [judge_eq_classify twelve] at answer counted
    refine ⟨d.pending ++ [byte], List.suffix_append_self_iff.mpr fed, twelve, ?_⟩
    cases verdict : classify (d.pending ++ [byte]) with
    | ok frame =>
      rw [verdict] at answer counted
      exact .inl ⟨frame, rfl, answer, counted⟩
    | error error =>
      rw [verdict] at answer counted
      cases error with
      | crc => exact .inr (.inl ⟨rfl, answer, counted⟩)
      | format => exact .inr (.inr ⟨rfl, answer, counted⟩)

end EdgeSentinel.UartFrameDecoder
