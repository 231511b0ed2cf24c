import EdgeSentinel.Ipc.Command

/-! The command language as a grammar over words, with a priority order on what
can be wrong with a line. The parser accepts the sentences of the grammar and
names the first complaint about everything else. -/
namespace EdgeSentinel.Ipc

/- The number that `from_chars` reads when it consumes the whole token. -/
def num (fromChars : List UInt8 → FromChars) (token : List UInt8) : Option Double :=
  if (fromChars token).success ∧ (fromChars token).consumed = token.length then
    some (fromChars token).output
  else none

/- Blank, tab, carriage return and line feed. -/
def separators : List UInt8 := [0x20, 0x09, 0x0D, 0x0A]

/- The words of a line: what lies between the separators. -/
def wordsOf (line : List UInt8) : List (List UInt8) := line.words fun value => value ∈ separators

def simpleVerbs : List (List UInt8 × CommandKind) :=
  [(literal "status", .status), (literal "metrics", .metrics), (literal "clear", .clear),
    (literal "reset", .reset), (literal "shutdown", .shutdown)]

/- The measured targets with the values each of them accepts. -/
def ranges : List (List UInt8 × InjectionTarget × ℚ × ℚ) :=
  [(literal "temperature", .temperature, -50, 200), (literal "vibration", .vibration, 0, 100),
    (literal "current", .current, 0, 200)]

/-- The documented commands. -/
inductive Sentence (num : List UInt8 → Option Double) : List (List UInt8) → Command → Prop where
  | simple {verb : List UInt8} {kind : CommandKind} (known : (verb, kind) ∈ simpleVerbs) :
      Sentence num [verb] { kind }
  | offline : Sentence num [literal "inject", literal "offline"]
      { kind := .inject, target := .offline }
  | measured {name number : List UInt8} {target : InjectionTarget} {low high value : ℚ}
      (known : (name, target, low, high) ∈ ranges) (reads : num number = some (.finite value))
      (above : low ≤ value) (below : value ≤ high) :
      Sentence num [literal "inject", name, number]
        { kind := .inject, target, value := .finite value }

/- The value a measured target gets, when it is a finite number. -/
def finiteNumber (num : List UInt8 → Option Double) (token : List UInt8) : Option ℚ :=
  match num token with
  | some (.finite value) => some value
  | _ => none

/-- Everything that can be wrong with a line, the most urgent complaint first. -/
def complaints (num : List UInt8 → Option Double) (line : List UInt8) : List (Bool × ParseError) :=
  let words := wordsOf line
  let verb := words.getD 0 []
  let target := words.getD 1 []
  let simple := verb ∈ simpleVerbs.map Prod.fst
  let inject := verb = literal "inject"
  let offline := target = literal "offline"
  let range := ranges.lookup target
  let number := finiteNumber num (words.getD 2 [])
  [ (decide (256 < line.length), .tooLong),
    (decide (words = []), .empty),
    (decide (4 < words.length ∨ simple ∧ 1 < words.length), .wrongArgumentCount),
    (decide (¬ simple ∧ ¬ inject), .unknownCommand),
    (decide (inject ∧ words.length = 1), .wrongArgumentCount),
    (decide (inject ∧ ¬ offline ∧ range = none), .unknownTarget),
    (decide (inject ∧ (offline ∧ words.length ≠ 2 ∨ range ≠ none ∧ words.length ≠ 3)),
      .wrongArgumentCount),
    (decide (inject ∧ range ≠ none ∧ number = none), .invalidNumber),
    (decide (inject ∧ ∃ row ∈ range, ∃ value ∈ number, ¬ (row.2.1 ≤ value ∧ value ≤ row.2.2)),
      .outOfRange)]

def firstComplaint (num : List UInt8 → Option Double) (line : List UInt8) : Option ParseError :=
  ((complaints num line).find? Prod.fst).map Prod.snd

section Vocabulary

variable {fromChars : List UInt8 → FromChars}

theorem words_isSpace (line : List UInt8) : line.words isSpace = wordsOf line := by
  have same : isSpace = fun value => decide (value ∈ separators) := by
    funext value
    simp [isSpace, separators, Bool.or_assoc]
  rw [same, wordsOf]

theorem finiteNumber_some {num : List UInt8 → Option Double} {token : List UInt8} {value : ℚ}
    (reads : finiteNumber num token = some value) : num token = some (.finite value) := by
  unfold finiteNumber at reads
  split at reads
  · cases reads
    assumption
  · contradiction

theorem parseNumber_finite (token : List UInt8) :
    parseNumber fromChars token = (finiteNumber (num fromChars) token).map .finite := by
  unfold parseNumber finiteNumber num
  by_cases whole : (fromChars token).success = true ∧ (fromChars token).consumed = token.length
  · cases output : (fromChars token).output <;> simp [whole, output, Double.isFinite]
  · rw [if_neg (fun all => whole ⟨all.1, all.2.1⟩), if_neg whole]
    rfl

/-- A first word is one of the simple verbs or none of them. -/
theorem verb_cases (word : List UInt8) :
    (∃ kind, (word, kind) ∈ simpleVerbs ∧ simpleVerb word = some kind) ∨
    (word ∉ simpleVerbs.map Prod.fst ∧ simpleVerb word = none) := by
  have table : ∀ row ∈ simpleVerbs, simpleVerb row.1 = some row.2 := by decide
  by_cases known : word ∈ simpleVerbs.map Prod.fst
  · obtain ⟨⟨verb, kind⟩, listed, rfl⟩ := List.mem_map.mp known
    exact .inl ⟨kind, listed, table _ listed⟩
  · refine .inr ⟨known, ?_⟩
    simp only [simpleVerbs, List.map_cons, List.map_nil, List.mem_cons, not_or] at known
    simp [simpleVerb, known]

/-- The second word after `inject`: measured, offline or neither. -/
theorem target_cases (word : List UInt8) :
    (∃ row, (word, row) ∈ ranges ∧ ranges.lookup word = some row ∧ word ≠ literal "offline" ∧
      injectionTarget word = some row.1 ∧ row.1 ≠ .offline ∧
      ∀ value, inRange row.1 (.finite value) = decide (row.2.1 ≤ value ∧ value ≤ row.2.2)) ∨
    (word = literal "offline" ∧ ranges.lookup word = none ∧ injectionTarget word = some .offline) ∨
    (word ≠ literal "offline" ∧ ranges.lookup word = none ∧ injectionTarget word = none) := by
  have table : ∀ row ∈ ranges, ranges.lookup row.1 = some row.2 ∧ row.1 ≠ literal "offline" ∧
      injectionTarget row.1 = some row.2.1 ∧ row.2.1 ≠ .offline := by decide
  have bounds : ∀ row ∈ ranges, ∀ value, inRange row.2.1 (.finite value) =
      decide (row.2.2.1 ≤ value ∧ value ≤ row.2.2.2) := by
    simp [ranges, inRange]
  by_cases known : word ∈ ranges.map Prod.fst
  · obtain ⟨⟨name, row⟩, listed, rfl⟩ := List.mem_map.mp known
    obtain ⟨found, other, target, measured⟩ := table _ listed
    exact .inl ⟨row, listed, found, other, target, measured, bounds _ listed⟩
  · right
    by_cases offline : word = literal "offline"
    · subst offline
      exact .inl ⟨rfl, by decide, by decide⟩
    · refine .inr ⟨offline, ?_, ?_⟩
      · rw [List.lookup_eq_none_iff]
        intro row listed
        rw [bne_iff_ne]
        rintro rfl
        exact known (List.mem_map_of_mem listed)
      · simp only [ranges, List.map_cons, List.map_nil, List.mem_cons, not_or] at known
        simp [injectionTarget, known, offline]

end Vocabulary

section Verdicts

variable {fromChars : List UInt8 → FromChars} {line : List UInt8}

theorem parseCommand_words (short : line.length ≤ 256)
    (nonempty : wordsOf line ≠ []) :
    parseCommand fromChars line = parseTokens fromChars (.ofWords (wordsOf line)) := by
  have text : trim line ≠ [] := by
    rwa [Ne, trim_empty, words_isSpace]
  have fits : ¬ line.length > kMaximumCommandLength := not_lt.mpr short
  rw [parseCommand, if_neg fits]
  simp only [List.isEmpty_iff, text, if_false, tokenize_words, trim_words]
  rw [words_isSpace]

/- The two ways a line can be settled. -/
def Accepted (num : List UInt8 → Option Double) (line : List UInt8) (result : ParseResult) : Prop :=
  line.length ≤ 256 ∧
    ∃ command, Sentence num (wordsOf line) command ∧ result = { command }

def Rejected (num : List UInt8 → Option Double) (line : List UInt8) (result : ParseResult) : Prop :=
  ∃ error, error ≠ .none ∧ firstComplaint num line = some error ∧ result = { error }

theorem parse_simple (short : line.length ≤ 256) {verb : List UInt8}
    {args : List (List UInt8)} (words : wordsOf line = verb :: args)
    (fits : (verb :: args).length ≤ 4) {kind : CommandKind} (known : (verb, kind) ∈ simpleVerbs)
    (found : simpleVerb verb = some kind) :
    Accepted (num fromChars) line (parseCommand fromChars line) ∨
      Rejected (num fromChars) line (parseCommand fromChars line) := by
  have few : ¬ 4 < (verb :: args).length := by omega
  rw [parseCommand_words short (by simp [words]), words]
  cases args with
  | nil =>
    refine .inl ⟨short, { kind }, ?_, ?_⟩
    · rw [words]
      exact .simple known
    · simp [parseTokens, Tokens.ofWords_count fits, found]
  | cons next rest =>
    have verbs : verb ∈ simpleVerbs.map Prod.fst := List.mem_map_of_mem known
    refine .inr ⟨.wrongArgumentCount, by decide, ?_, ?_⟩
    · simp [firstComplaint, complaints, words, not_lt.mpr short, List.mem_map.mp verbs]
    · simp only [parseTokens, Tokens.ofWords_overflow, few]
      simp [Tokens.ofWords_count fits, found]

theorem parse_unknown (short : line.length ≤ 256) {verb : List UInt8}
    {args : List (List UInt8)} (words : wordsOf line = verb :: args)
    (fits : (verb :: args).length ≤ 4) (unknown : verb ∉ simpleVerbs.map Prod.fst)
    (missed : simpleVerb verb = none) (other : verb ≠ literal "inject") :
    Rejected (num fromChars) line (parseCommand fromChars line) := by
  have few : ¬ 4 < (verb :: args).length := by omega
  rw [parseCommand_words short (by simp [words]), words]
  refine ⟨.unknownCommand, by decide, ?_, ?_⟩
  · simp only [firstComplaint, complaints, words, not_lt.mpr short, few, List.getD_cons_zero,
      unknown, other]
    rfl
  · simp only [parseTokens, Tokens.ofWords_overflow, few]
    simp [missed, other]

end Verdicts

section Injection

variable {fromChars : List UInt8 → FromChars} {line : List UInt8} {args : List (List UInt8)}

theorem inject_answer (short : line.length ≤ 256)
    (words : wordsOf line = literal "inject" :: args)
    (fits : (literal "inject" :: args).length ≤ 4) :
    parseCommand fromChars line =
      parseInjection fromChars (.ofWords (literal "inject" :: args)) := by
  have few : ¬ 4 < (literal "inject" :: args).length := by omega
  have missed : simpleVerb (literal "inject") = none := by decide
  rw [parseCommand_words short (by simp [words]), words]
  simp only [parseTokens, Tokens.ofWords_overflow, few]
  simp [missed]

/-- Behind `inject` the first four complaints do not apply. -/
theorem inject_complaint (num : List UInt8 → Option Double)
    (short : line.length ≤ 256)
    (words : wordsOf line = literal "inject" :: args)
    (fits : (literal "inject" :: args).length ≤ 4) :
    firstComplaint num line =
      (((complaints num line).drop 4).find? Prod.fst).map Prod.snd := by
  have few : ¬ 4 < (literal "inject" :: args).length := by omega
  have known : literal "inject" ∉ simpleVerbs.map Prod.fst := by decide
  simp only [firstComplaint, complaints, words, not_lt.mpr short, few, List.getD_cons_zero, known]
  rfl

theorem parse_measured (short : line.length ≤ 256) {name : List UInt8}
    (words : wordsOf line = literal "inject" :: name :: args)
    (fits : (literal "inject" :: name :: args).length ≤ 4)
    {target : InjectionTarget} {low high : ℚ} (listed : (name, target, low, high) ∈ ranges)
    (range : ranges.lookup name = some (target, low, high)) (other : name ≠ literal "offline")
    (found : injectionTarget name = some target) (measured : target ≠ .offline)
    (bounds : ∀ value, inRange target (.finite value) = decide (low ≤ value ∧ value ≤ high)) :
    Accepted (num fromChars) line (parseCommand fromChars line) ∨
      Rejected (num fromChars) line (parseCommand fromChars line) := by
  have enough : 2 ≤ (Tokens.ofWords (literal "inject" :: name :: args)).count := by
    rw [Tokens.ofWords_count fits]
    simp
  have second : injectionTarget (Tokens.ofWords (literal "inject" :: name :: args)).values[1] =
      some target := by
    simpa using found
  rw [inject_answer short words fits, parseInjection_measured _ enough second measured,
    Tokens.ofWords_count fits, Rejected, inject_complaint _ short words fits]
  simp only [complaints, words, List.drop_succ_cons, List.drop_zero, List.getD_cons_zero,
    List.getD_cons_succ, Tokens.ofWords_value]
  obtain _ | ⟨number, _ | ⟨extra, more⟩⟩ := args
  · refine .inr ⟨.wrongArgumentCount, by decide, ?_, ?_⟩
    · simp [other, range]
    · simp
  · rw [if_neg (by simp), parseNumber_finite]
    cases reads : finiteNumber (num fromChars) number with
    | none =>
      refine .inr ⟨.invalidNumber, by decide, ?_, ?_⟩
      · simp [other, range, reads]
      · simp [reads]
    | some value =>
      by_cases inside : low ≤ value ∧ value ≤ high
      · refine .inl ⟨short, { kind := .inject, target, value := .finite value }, ?_, ?_⟩
        · rw [words]
          exact .measured listed (finiteNumber_some reads) inside.1 inside.2
        · simp [reads, bounds, inside]
      · have outside : low ≤ value → high < value := by
          intro above
          exact not_le.mp fun below => inside ⟨above, below⟩
        refine .inr ⟨.outOfRange, by decide, ?_, ?_⟩
        · simpa [other, range, reads] using outside
        · simp [reads, bounds, inside]
  · refine .inr ⟨.wrongArgumentCount, by decide, ?_, ?_⟩
    · simp [other, range]
    · simp

theorem parse_inject (short : line.length ≤ 256)
    (words : wordsOf line = literal "inject" :: args)
    (fits : (literal "inject" :: args).length ≤ 4) :
    Accepted (num fromChars) line (parseCommand fromChars line) ∨
      Rejected (num fromChars) line (parseCommand fromChars line) := by
  cases args with
  | nil =>
    right
    rw [inject_answer short words fits, Rejected, inject_complaint _ short words fits]
    simp only [complaints, words]
    exact ⟨.wrongArgumentCount, by decide, rfl, rfl⟩
  | cons name rest =>
    obtain ⟨⟨target, low, high⟩, listed, range, other, found, measured, bounds⟩ |
        ⟨rfl, range, found⟩ | ⟨other, range, found⟩ := target_cases name
    · exact parse_measured short words fits listed range other found measured bounds
    · rw [inject_answer short words fits, parseInjection, Tokens.ofWords_count fits, Rejected,
        inject_complaint _ short words fits]
      cases rest with
      | nil =>
        refine .inl ⟨short, { kind := .inject, target := .offline }, ?_, ?_⟩
        · rw [words]
          exact .offline
        · simp [found]
      | cons extra more =>
        refine .inr ⟨.wrongArgumentCount, by decide, ?_, ?_⟩
        · simp [complaints, words, range]
        · simp [found]
    · right
      rw [inject_answer short words fits, parseInjection, Tokens.ofWords_count fits, Rejected,
        inject_complaint _ short words fits]
      refine ⟨.unknownTarget, by decide, ?_, ?_⟩
      · simp [complaints, words, other, range]
      · simp [found]

/-- Every line is either a sentence that the parser reads or has a first
complaint that the parser reports. -/
theorem parse_settles (fromChars : List UInt8 → FromChars) (line : List UInt8) :
    Accepted (num fromChars) line (parseCommand fromChars line) ∨
      Rejected (num fromChars) line (parseCommand fromChars line) := by
  by_cases long : 256 < line.length
  · refine .inr ⟨.tooLong, by decide, ?_, ?_⟩
    · simp [firstComplaint, complaints, long]
    · exact if_pos long
  have short := not_lt.mp long
  cases words : wordsOf line with
  | nil =>
    refine .inr ⟨.empty, by decide, ?_, ?_⟩
    · simp [firstComplaint, complaints, long, words]
    · have blank : trim line = [] := by rw [trim_empty, words_isSpace, words]
      simp [parseCommand, kMaximumCommandLength, long, blank]
  | cons verb args =>
    by_cases many : 4 < (verb :: args).length
    · refine .inr ⟨.wrongArgumentCount, by decide, ?_, ?_⟩
      · simp only [firstComplaint, complaints, long, words, many]
        rfl
      · rw [parseCommand_words short (by simp [words]), words, parseTokens,
          Tokens.ofWords_overflow, decide_eq_true many]
        rfl
    · have fits := not_lt.mp many
      obtain ⟨kind, known, found⟩ | ⟨unknown, missed⟩ := verb_cases verb
      · exact parse_simple short words fits known found
      · by_cases inject : verb = literal "inject"
        · subst inject
          exact parse_inject short words fits
        · exact .inr (parse_unknown short words fits unknown missed inject)

end Injection

section Sentences

variable {num : List UInt8 → Option Double}

theorem simpleVerbs_found : ∀ row ∈ simpleVerbs,
    simpleVerbs.lookup row.1 = some row.2 ∧ row.1 ≠ literal "inject" := by decide

theorem ranges_found : ∀ row ∈ ranges,
    ranges.lookup row.1 = some row.2 ∧ row.1 ≠ literal "offline" := by decide

theorem Sentence.unique {words : List (List UInt8)} {first second : Command}
    (one : Sentence num words first) (two : Sentence num words second) : first = second := by
  cases one with
  | simple known =>
    cases two with
    | simple again =>
      have same := (simpleVerbs_found _ known).1.symm.trans (simpleVerbs_found _ again).1
      cases same
      rfl
  | offline =>
    cases two with
    | offline => rfl
  | measured known reads =>
    cases two with
    | measured again number =>
      have same := (ranges_found _ known).1.symm.trans (ranges_found _ again).1
      cases same
      cases reads.symm.trans number
      rfl

theorem Sentence.no_complaint {line : List UInt8} {command : Command}
    (short : line.length ≤ 256)
    (sentence : Sentence num (wordsOf line) command) : firstComplaint num line = none := by
  generalize words : wordsOf line = text at sentence
  cases sentence with
  | simple known =>
    have verbs := List.mem_map_of_mem (f := Prod.fst) known
    have other := (simpleVerbs_found _ known).2
    simp [firstComplaint, complaints, words, not_lt.mpr short, other, List.mem_map.mp verbs]
  | offline =>
    have range : ranges.lookup (literal "offline") = none := by decide
    rw [inject_complaint num short words (by simp)]
    simp [complaints, words, range]
  | measured known reads above below =>
    obtain ⟨range, other⟩ := ranges_found _ known
    rw [inject_complaint num short words (by simp)]
    simp [complaints, words, range, other, finiteNumber, reads, above, below]

end Sentences

theorem parse_command_grammar (fromChars : List UInt8 → FromChars) (line : List UInt8) :
    ((parseCommand fromChars line).ok = true ↔ line.length ≤ 256 ∧
      ∃ command, Sentence (num fromChars) (wordsOf line) command) ∧
    (∀ command, line.length ≤ 256 →
      Sentence (num fromChars) (wordsOf line) command →
        (parseCommand fromChars line).command = command) ∧
    ((parseCommand fromChars line).ok = false →
      (parseCommand fromChars line).command = {} ∧
      firstComplaint (num fromChars) line = some (parseCommand fromChars line).error) := by
  obtain ⟨short, command, sentence, answer⟩ | ⟨error, real, first, answer⟩ :=
    parse_settles fromChars line
  · rw [answer]
    refine ⟨⟨fun _ => ⟨short, command, sentence⟩, fun _ => rfl⟩, ?_, nofun⟩
    intro other _ again
    exact sentence.unique again
  · have refused : (ParseResult.mk {} error).ok = false := decide_eq_false real
    have none : line.length ≤ 256 → ∀ command,
        ¬ Sentence (num fromChars) (wordsOf line) command := by
      intro short command sentence
      rw [sentence.no_complaint short] at first
      contradiction
    rw [answer, refused]
    refine ⟨⟨nofun, ?_⟩, ?_, fun _ => ⟨rfl, first⟩⟩
    · rintro ⟨short, command, sentence⟩
      exact absurd sentence (none short command)
    · intro command short sentence
      exact absurd sentence (none short command)

end EdgeSentinel.Ipc
