import EdgeSentinel.Pool.Statistics

/-! Pointers that outlive their object. `destroy` looks at the slot, not at the allocation
that a pointer came from, so a second release is told apart from a first one only while no
later allocation has been given the same slot. -/
namespace EdgeSentinel.FixedObjectPool

variable {α ε : Type} {capacity : Nat}

/- The call gave out the pointer. -/
def handsOut (object : Nat) : Call ε α × Answer ε → Bool
  | (_, .created (.ok handle)) => handle.pool && handle.object = object
  | _ => false

/- The call ended the lifetime of the object that the pointer named. -/
def takesBack (object : Nat) : Call ε α × Answer ε → Bool
  | (.destroy target, .destroyed .released) => target = object
  | _ => false

/- The calls so far, each with its answer. -/
def history (layout : Layout) (capacity : Nat) (calls : List (Call ε α)) :
    List (Call ε α × Answer ε) :=
  Mealy.trace (perform layout) (empty capacity : FixedObjectPool α capacity) calls

/-- The allocation made at position `a`, whose object has not been destroyed since. -/
structure Outstanding (past : List (Call ε α × Answer ε)) (object a : Nat) : Prop where
  made : past[a]?.any (handsOut object) = true
  kept : ∀ b, a < b → past[b]?.any (takesBack object) = false

section Histories

variable {past : List (Call ε α × Answer ε)} {entry : Call ε α × Answer ε} {object a : Nat}

theorem outstanding_concat :
    Outstanding (past ++ [entry]) object a ↔
      (a = past.length ∧ handsOut object entry = true) ∨
        (Outstanding past object a ∧ takesBack object entry = false) := by
  constructor
  · rintro ⟨made, kept⟩
    rcases Nat.lt_trichotomy a past.length with earlier | here | beyond
    · rw [List.getElem?_append_left earlier] at made
      refine .inr ⟨⟨made, fun b after => ?_⟩, ?_⟩
      · by_cases inside : b < past.length
        · have still := kept b after
          rwa [List.getElem?_append_left inside] at still
        · rw [List.getElem?_eq_none (by omega)]
          rfl
      · simpa using kept past.length earlier
    · subst here
      exact .inl ⟨rfl, by simpa using made⟩
    · rw [List.getElem?_eq_none (by simp; omega)] at made
      contradiction
  · rintro (⟨rfl, made⟩ | ⟨⟨made, kept⟩, still⟩)
    · refine ⟨by simpa using made, fun b after => ?_⟩
      rw [List.getElem?_eq_none (by simp; omega)]
      rfl
    · have earlier : a < past.length := by
        by_contra beyond
        rw [List.getElem?_eq_none (by omega)] at made
        contradiction
      refine ⟨by rwa [List.getElem?_append_left earlier], fun b after => ?_⟩
      rcases Nat.lt_trichotomy b past.length with inside | here | beyond
      · rw [List.getElem?_append_left inside]
        exact kept b after
      · subst here
        simpa using still
      · rw [List.getElem?_eq_none (by simp; omega)]
        rfl

/-- A call that neither gives out a pointer nor takes it back. -/
theorem outstanding_frame (quiet : handsOut object entry = false)
    (still : takesBack object entry = false) :
    (∃ a, Outstanding (past ++ [entry]) object a) ↔ ∃ a, Outstanding past object a := by
  simp only [outstanding_concat, quiet, still, Bool.false_eq_true, and_false, false_or, and_true]

theorem outstanding_made (made : handsOut object entry = true) :
    ∃ a, Outstanding (past ++ [entry]) object a :=
  ⟨past.length, outstanding_concat.mpr (.inl ⟨rfl, made⟩)⟩

theorem outstanding_ended (quiet : handsOut object entry = false)
    (ended : takesBack object entry = true) :
    ¬ ∃ a, Outstanding (past ++ [entry]) object a := by
  simp only [outstanding_concat, quiet, ended, Bool.false_eq_true, Bool.true_eq_false, and_false,
    or_self, exists_false, not_false_eq_true]

end Histories

/-- A slot is occupied exactly while an allocation that got its address is outstanding. -/
def Tracked (layout : Layout) (p : FixedObjectPool α capacity)
    (past : List (Call ε α × Answer ε)) : Prop :=
  ∀ i < capacity, (p.slot i).occupied = true ↔ ∃ a, Outstanding past (layout.address i) a

theorem Tracked.did {layout : Layout} {p q : FixedObjectPool α capacity}
    {past : List (Call ε α × Answer ε)} {call : Call ε α} {answer : Answer ε}
    (h : Tracked layout p past) (did : Did layout p q call answer) :
    Tracked layout q (past ++ [(call, answer)]) := by
  intro i inside
  have before := h i inside
  cases did with
  | exhausted same | thrown same =>
    subst same
    rw [outstanding_frame rfl rfl]
    exact before
  | @refused object result other same =>
    subst same
    rw [outstanding_frame rfl]
    · exact before
    · cases result with
      | released => contradiction
      | foreignPointer | doubleRelease => rfl
  | @created object index bound free slots stats =>
    rw [slots i]
    by_cases here : index = i
    · rw [if_pos here]
      exact iff_of_true rfl (outstanding_made (by simp [handsOut, here]))
    · have other : layout.address index ≠ layout.address i :=
        fun same => here (address_injective layout same)
      rw [if_neg here, outstanding_frame (by simp [handsOut, other]) rfl]
      exact before
  | @released index bound busy slots stats =>
    rw [slots i]
    by_cases here : index = i
    · rw [if_pos here]
      exact iff_of_false Bool.false_ne_true
        (outstanding_ended rfl (by simp [takesBack, here]))
    · have other : layout.address index ≠ layout.address i :=
        fun same => here (address_injective layout same)
      rw [if_neg here, outstanding_frame rfl (by simp [takesBack, other])]
      exact before

theorem run_tracked (layout : Layout) (calls : List (Call ε α)) :
    Tracked layout
      (Mealy.final (perform layout) (empty capacity : FixedObjectPool α capacity) calls)
      (history layout capacity calls) := by
  refine Mealy.history_induction (perform layout) (P := fun calls p =>
    Tracked layout p (history layout capacity calls)) ?_ ?_ calls
  · intro i inside
    rw [slot_empty i inside]
    refine iff_of_false Bool.false_ne_true ?_
    rintro ⟨a, made, -⟩
    contradiction
  · rintro calls p call tracked here
    have did := (here ▸ run_wellLinked layout calls : p.WellLinked).perform_did layout call
    rw [history, Mealy.trace_concat, here]
    exact tracked.did did

/-- A pointer that was given out is the address of a slot. -/
theorem handsOut_address {layout : Layout} {p q : FixedObjectPool α capacity} {call : Call ε α}
    {answer : Answer ε} (did : Did layout p q call answer) {object : Nat}
    (made : handsOut object (call, answer) = true) :
    ∃ i < capacity, object = layout.address i := by
  cases did with
  | exhausted same | thrown same | refused other same | released bound busy slots stats =>
    contradiction
  | created bound free slots stats =>
    simp only [handsOut, Bool.true_and, decide_eq_true_eq] at made
    exact ⟨_, bound, made.symm⟩

theorem history_address (layout : Layout) (calls : List (Call ε α)) {object : Nat}
    {entry : Call ε α × Answer ε} (member : entry ∈ history layout capacity calls)
    (made : handsOut object entry = true) : ∃ i < capacity, object = layout.address i := by
  induction calls using List.reverseRecOn with
  | nil => contradiction
  | append_singleton calls call ih =>
    have linked : (Mealy.final (perform layout) (empty capacity : FixedObjectPool α capacity)
        calls).WellLinked := run_wellLinked layout calls
    have did := linked.perform_did layout call
    rw [history, Mealy.trace_concat] at member
    rcases List.mem_append.mp member with earlier | last
    · exact ih earlier
    · rw [List.mem_singleton.mp last] at made
      exact handsOut_address did made

theorem takesBack_no_allocation {object : Nat} {entry : Call ε α × Answer ε}
    (ended : takesBack object entry = true) : handsOut object entry = false := by
  obtain ⟨call, answer⟩ := entry
  cases answer with
  | created result => cases call <;> contradiction
  | destroyed result => rfl

/-- An allocation that is outstanding was made after every release of its pointer. -/
theorem Outstanding.after {past : List (Call ε α × Answer ε)} {object b c : Nat}
    (h : Outstanding past object c) (ended : past[b]?.any (takesBack object) = true) : b < c := by
  rcases Nat.lt_trichotomy b c with before | here | beyond
  · exact before
  · subst here
    obtain ⟨entry, found, taken⟩ := (Option.any_eq_true _ _).mp ended
    have made := h.made
    rw [found, Option.any_some, takesBack_no_allocation taken] at made
    contradiction
  · have kept := h.kept b beyond
    rw [ended] at kept
    contradiction

/-- Once an allocation has been destroyed, another release of its pointer is refused and ends
no object's lifetime exactly if no later allocation that got the same pointer is outstanding. -/
theorem double_release_diagnosed_iff (capacity : Nat) (layout : Layout) (calls : List (Call ε α))
    (object a b : Nat) (made : (history layout capacity calls)[a]?.any (handsOut object) = true)
    (ended : (history layout capacity calls)[b]?.any (takesBack object) = true) (later : a < b) :
    let p : FixedObjectPool α capacity := Mealy.final (perform layout) (empty capacity) calls
    ((p.destroy layout object).2 ≠ .released ∧
        ∀ i, ((p.destroy layout object).1.slot i).storage = (p.slot i).storage) ↔
      ¬ ∃ c, a < c ∧ Outstanding (history layout capacity calls) object c := by
  intro p
  obtain ⟨entry, found, allocated⟩ := (Option.any_eq_true _ _).mp made
  obtain ⟨i, bound, rfl⟩ := history_address layout calls (List.mem_of_getElem? found) allocated
  have tracked : (p.slot i).occupied = true ↔
      ∃ c, Outstanding (history layout capacity calls) (layout.address i) c :=
    run_tracked layout calls i bound
  have reused : (∃ c, a < c ∧ Outstanding (history layout capacity calls) (layout.address i) c) ↔
      (p.slot i).occupied = true := by
    rw [tracked]
    exact exists_congr fun c => and_iff_right_of_imp fun held => later.trans (held.after ended)
  rw [reused]
  cases busy : (p.slot i).occupied with
  | true =>
    obtain ⟨q, released, -⟩ := destroy_occupied layout bound busy
    simp [released]
  | false => simp [destroy_free layout bound busy, slot]

/- Nothing is allocated between the two releases. -/
theorem double_release_diagnosed_iff_alone :
    let layout : Layout := ⟨64, 64, by decide, by decide⟩
    let calls : List (Call Empty Nat) := [.tryCreate (.ok 7), .destroy 64]
    let p : FixedObjectPool Nat 1 := Mealy.final (perform layout) (empty 1) calls
    (p.destroy layout 64).2 ≠ .released := by
  intro layout calls p
  refine ((double_release_diagnosed_iff 1 layout calls 64 0 1 (by decide) (by decide)
    (by decide)).mpr ?_).1
  rintro ⟨c, -, held⟩
  have after := held.after (b := 1) (by decide)
  have made := held.made
  rw [List.getElem?_eq_none (Nat.succ_le_of_lt after)] at made
  contradiction

/- The slot is given to a second object in between, and the stale pointer ends its life. -/
theorem stale_release_accepted :
    let layout : Layout := ⟨64, 64, by decide, by decide⟩
    let calls : List (Call Empty Nat) := [.tryCreate (.ok 7), .destroy 64, .tryCreate (.ok 9)]
    let p : FixedObjectPool Nat 1 := Mealy.final (perform layout) (empty 1) calls
    (history layout 1 calls)[0]?.any (handsOut 64) = true ∧
      (history layout 1 calls)[1]?.any (takesBack 64) = true ∧
      (p.slot 0).storage = some 9 ∧ (p.destroy layout 64).2 = .released ∧
      ((p.destroy layout 64).1.slot 0).storage = none := by
  decide

end EdgeSentinel.FixedObjectPool
