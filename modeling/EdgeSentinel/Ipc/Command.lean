import Mathlib.Data.List.GetD
import EdgeSentinel.Domain
import EdgeSentinel.Library.Words

/-! The command parser of the daemon. A `string_view` is the list of bytes it
shows, and `std::from_chars` stays a parameter: nothing below looks into how a
number is read, only at what the call reports. -/
namespace EdgeSentinel.Ipc

def kMaximumCommandLength : Nat := 256

inductive CommandKind where
  | invalid
  | status
  | metrics
  | inject
  | clear
  | reset
  | shutdown
  deriving DecidableEq, Repr

inductive InjectionTarget where
  | none
  | temperature
  | vibration
  | current
  | offline
  deriving DecidableEq, Repr

inductive ParseError where
  | none
  | empty
  | tooLong
  | unknownCommand
  | wrongArgumentCount
  | unknownTarget
  | invalidNumber
  | outOfRange
  deriving DecidableEq, Repr

structure Command where
  kind : CommandKind := .invalid
  target : InjectionTarget := .none
  value : Double := .finite 0
  deriving DecidableEq, Repr

structure ParseResult where
  command : Command := {}
  error : ParseError := .none
  deriving DecidableEq, Repr

def ParseResult.ok (result : ParseResult) : Bool := result.error = .none

/- The bytes of a string literal. -/
def literal (text : String) : List UInt8 := text.toUTF8.data.toList

def isSpace (value : UInt8) : Bool := value = 32 || value = 9 || value = 13 || value = 10

def trim (input : List UInt8) : List UInt8 := (input.dropWhile isSpace).rdropWhile isSpace

structure Tokens where
  values : Vector (List UInt8) 4 := Vector.replicate 4 []
  count : Nat := 0
  overflow : Bool := false
  deriving DecidableEq, Repr

/- The outer loop of `tokenize`. Every round removes at least one byte, so as
many rounds as there are bytes are enough. -/
def tokenizeLoop : Nat → Tokens → List UInt8 → Tokens
  | 0, tokens, _ => tokens
  | rounds + 1, tokens, input =>
    let input := input.dropWhile isSpace
    if input.isEmpty then tokens
    else if tokens.count = 4 then { tokens with overflow := true }
    else
      let word := input.takeWhile fun value => !isSpace value
      tokenizeLoop rounds
        { tokens with
          values := tokens.values.setIfInBounds tokens.count word
          count := tokens.count + 1 }
        (input.drop word.length)

def tokenize (input : List UInt8) : Tokens := tokenizeLoop input.length {} input

/- What one call of `std::from_chars` reports: whether `ec` is empty, how far
`ptr` got, and the number it stored. -/
structure FromChars where
  success : Bool
  consumed : Nat
  output : Double
  deriving DecidableEq, Repr

section Parser

variable (fromChars : List UInt8 → FromChars)

def parseNumber (input : List UInt8) : Option Double :=
  let result := fromChars input
  if result.success ∧ result.consumed = input.length ∧ result.output.isFinite then
    some result.output
  else none

def inRange : InjectionTarget → Double → Bool
  | .temperature, value => .finite (-50) ≤ value ∧ value ≤ .finite 200
  | .vibration, value => .finite 0 ≤ value ∧ value ≤ .finite 100
  | .current, value => .finite 0 ≤ value ∧ value ≤ .finite 200
  | .offline, _ => true
  | .none, _ => true

/- The chain of comparisons with the second token. -/
def injectionTarget (word : List UInt8) : Option InjectionTarget :=
  if word = literal "temperature" then some .temperature
  else if word = literal "vibration" then some .vibration
  else if word = literal "current" then some .current
  else if word = literal "offline" then some .offline
  else none

/- The chain of comparisons with the first token, apart from `inject`. -/
def simpleVerb (word : List UInt8) : Option CommandKind :=
  if word = literal "status" then some .status
  else if word = literal "metrics" then some .metrics
  else if word = literal "clear" then some .clear
  else if word = literal "reset" then some .reset
  else if word = literal "shutdown" then some .shutdown
  else none

/- The arguments of `inject`. -/
def parseInjection (tokens : Tokens) : ParseResult :=
  if tokens.count < 2 then { error := .wrongArgumentCount }
  else
    match injectionTarget tokens.values[1] with
    | none => { error := .unknownTarget }
    | some .offline =>
      if tokens.count ≠ 2 then { error := .wrongArgumentCount }
      else { command := { kind := .inject, target := .offline, value := .finite 0 } }
    | some target =>
      if tokens.count ≠ 3 then { error := .wrongArgumentCount }
      else
        match parseNumber fromChars tokens.values[2] with
        | none => { error := .invalidNumber }
        | some value =>
          if !inRange target value then { error := .outOfRange }
          else { command := { kind := .inject, target, value } }

theorem parseInjection_measured {tokens : Tokens} {target : InjectionTarget}
    (enough : 2 ≤ tokens.count) (name : injectionTarget tokens.values[1] = some target)
    (measured : target ≠ .offline) :
    parseInjection fromChars tokens =
      if tokens.count ≠ 3 then { error := .wrongArgumentCount }
      else
        match parseNumber fromChars tokens.values[2] with
        | none => { error := .invalidNumber }
        | some value =>
          if !inRange target value then { error := .outOfRange }
          else { command := { kind := .inject, target, value } } := by
  rw [parseInjection, if_neg (by omega), name]
  cases target with
  | offline => contradiction
  | _ => rfl

def parseTokens (tokens : Tokens) : ParseResult :=
  if tokens.overflow then { error := .wrongArgumentCount }
  else
    match simpleVerb tokens.values[0] with
    | some kind =>
      if tokens.count ≠ 1 then { error := .wrongArgumentCount } else { command := { kind } }
    | none =>
      if tokens.values[0] ≠ literal "inject" then { error := .unknownCommand }
      else parseInjection fromChars tokens

def parseCommand (input : List UInt8) : ParseResult :=
  if input.length > kMaximumCommandLength then { error := .tooLong }
  else
    let input := trim input
    if input.isEmpty then { error := .empty } else parseTokens fromChars (tokenize input)

end Parser

/- The scanner's state after the given words. -/
def Tokens.ofWords (words : List (List UInt8)) : Tokens where
  values := Vector.ofFn fun i => words.getD i []
  count := min words.length 4
  overflow := 4 < words.length

section Scan

@[simp] theorem Tokens.ofWords_value (words : List (List UInt8)) {i : Nat} (inside : i < 4) :
    (Tokens.ofWords words).values[i] = words.getD i [] := by
  simp [Tokens.ofWords]

theorem Tokens.ofWords_count {words : List (List UInt8)} (fits : words.length ≤ 4) :
    (Tokens.ofWords words).count = words.length := min_eq_left fits

@[simp] theorem Tokens.ofWords_overflow (words : List (List UInt8)) :
    (Tokens.ofWords words).overflow = decide (4 < words.length) := rfl

theorem Tokens.ofWords_full {done : List (List UInt8)} (full : done.length = 4)
    (word : List UInt8) (more : List (List UInt8)) :
    { Tokens.ofWords done with overflow := true } = Tokens.ofWords (done ++ word :: more) := by
  simp only [Tokens.ofWords, Tokens.mk.injEq]
  refine ⟨?_, ?_, ?_⟩
  · ext1 i inside
    rw [Vector.getElem_ofFn, Vector.getElem_ofFn, List.getD_append _ _ _ _ (by omega)]
  · simp [full]
  · simp [full]

theorem Tokens.ofWords_push {done : List (List UInt8)} (room : done.length < 4)
    (word : List UInt8) :
    { Tokens.ofWords done with
      values := (Tokens.ofWords done).values.setIfInBounds (Tokens.ofWords done).count word
      count := (Tokens.ofWords done).count + 1 } = Tokens.ofWords (done ++ [word]) := by
  rw [Tokens.ofWords_count room.le]
  simp only [Tokens.ofWords, Tokens.mk.injEq]
  refine ⟨?_, ?_, ?_⟩
  · ext1 i inside
    rw [Vector.getElem_setIfInBounds inside, Vector.getElem_ofFn, Vector.getElem_ofFn]
    split
    · rename_i last
      subst last
      simp
    · rename_i other
      obtain before | after := Nat.lt_or_gt_of_ne other
      · rw [List.getD_eq_default _ _ before.le, List.getD_eq_default _ _ (by simp; omega)]
      · rw [List.getD_append _ _ _ _ after]
  · simp; omega
  · simp; omega

/-- The scanner has found `done` so far; the rest of the input holds the other words. -/
theorem tokenizeLoop_words {rounds : Nat} (done : List (List UInt8)) {input : List UInt8}
    (short : done.length ≤ 4) (enough : input.length ≤ rounds) :
    tokenizeLoop rounds (.ofWords done) input = .ofWords (done ++ input.words isSpace) := by
  induction rounds generalizing done input with
  | zero =>
    have empty := List.length_eq_zero_iff.mp (Nat.le_zero.mp enough)
    simp [tokenizeLoop, empty]
  | succ rounds ih =>
    have shrinks := (List.dropWhile_suffix (l := input) isSpace).length_le
    rw [tokenizeLoop, ← List.words_dropWhile]
    cases text : input.dropWhile isSpace with
    | nil => simp
    | cons first rest =>
      have letter : isSpace first = false := by
        have stopped := List.head?_dropWhile_not isSpace input
        simpa [text] using stopped
      rw [List.words_word isSpace letter]
      by_cases room : done.length < 4
      · have counted : (Tokens.ofWords done).count ≠ 4 := by simp [Tokens.ofWords]; omega
        have shorter : ((first :: rest).dropWhile fun value => !isSpace value).length ≤ rounds := by
          rw [text, List.length_cons] at shrinks
          rw [List.dropWhile_cons_of_pos (by simp [letter])]
          have := (List.dropWhile_suffix (l := rest) fun value => !isSpace value).length_le
          omega
        simp only [List.isEmpty_cons, Bool.false_eq_true, if_false, counted,
          List.drop_takeWhile_length,
          Tokens.ofWords_push room]
        rw [ih _ (by simp; omega) shorter, List.append_assoc]
        rfl
      · have counted : (Tokens.ofWords done).count = 4 := by simp [Tokens.ofWords]; omega
        simp only [List.isEmpty_cons, Bool.false_eq_true, if_false]
        rw [if_pos counted]
        have full : done.length = 4 := by omega
        exact Tokens.ofWords_full full _ _

theorem tokenize_words (input : List UInt8) : tokenize input = .ofWords (input.words isSpace) :=
  tokenizeLoop_words [] (Nat.zero_le 4) (Nat.le_refl _)

theorem trim_words (input : List UInt8) : (trim input).words isSpace = input.words isSpace := by
  rw [trim, List.words_rdropWhile, List.words_dropWhile]

theorem trim_empty {input : List UInt8} : trim input = [] ↔ input.words isSpace = [] := by
  constructor
  · intro empty
    rw [← trim_words, empty, List.words_nil]
  · intro blank
    have spaces := (List.words_eq_nil isSpace).mp blank
    rw [trim, List.dropWhile_eq_nil_iff.mpr spaces, List.rdropWhile_nil]

end Scan

end EdgeSentinel.Ipc
