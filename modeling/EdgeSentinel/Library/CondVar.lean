import Mathlib.Data.Nat.Notation

/-! The account of one condition variable: how many waiters could go on, how many
are asleep, awake but without the mutex, about to be notified one by one, and how
many threads are about to notify all after a change of mind for good (`closed`). -/
namespace Wakeups

structure Covered (available asleep awake pending closing : ℕ) (closed : Bool) : Prop where
  live : closed = false → 0 < asleep → available ≤ awake + pending
  shut : closed = true → 0 < asleep → 0 < closing

namespace Covered

variable {available available' asleep asleep' awake awake' pending pending' closing k : ℕ}
  {closed : Bool}

theorem vacant : Covered available 0 awake pending closing closed :=
  ⟨fun _ none => absurd none (Nat.lt_irrefl 0), fun _ none => absurd none (Nat.lt_irrefl 0)⟩

theorem toClose (due : 0 < closing) : Covered available asleep awake pending closing true :=
  ⟨nofun, fun _ _ => due⟩

theorem toSleep (none : available = 0) : Covered available asleep awake pending closing false :=
  ⟨fun _ _ => by omega, nofun⟩

/-- One more waiter could go on, and a notification is due for it. -/
theorem grant (h : Covered available asleep awake pending closing closed)
    (more : available' ≤ available + 1) :
    Covered available' asleep awake (pending + 1) closing closed := by
  constructor
  · intro live sleepers
    have covered := h.live live sleepers
    omega
  · exact h.shut

/-- Waiters that are awake go on or give up, with what they were woken for if
there is any. -/
theorem leave (h : Covered available asleep awake pending closing closed)
    (left : awake' + k = awake)
    (share : closed = false → available' + k ≤ available ∨ available' = 0) :
    Covered available' asleep awake' pending closing closed := by
  constructor
  · intro live sleepers
    have covered := h.live live sleepers
    have taken := share live
    omega
  · exact h.shut

theorem wake (h : Covered available asleep awake pending closing closed)
    (fewer : asleep' + 1 = asleep) (more : awake' = awake + 1) :
    Covered available asleep' awake' pending closing closed := by
  constructor
  · intro live sleepers
    have covered := h.live live (by omega)
    omega
  · intro shut sleepers
    exact h.shut shut (by omega)

theorem notify (h : Covered available asleep awake pending closing closed)
    (fewer : asleep' + 1 = asleep) (more : awake' = awake + 1) (done : pending' + 1 = pending) :
    Covered available asleep' awake' pending' closing closed := by
  constructor
  · intro live sleepers
    have covered := h.live live (by omega)
    omega
  · intro shut sleepers
    exact h.shut shut (by omega)

/-- Whoever sleeps although it could go on is not forgotten. -/
theorem remembered (h : Covered available asleep awake pending closing closed)
    (sleepers : 0 < asleep) (ready : closed = true ∨ 0 < available) :
    0 < awake ∨ 0 < pending ∨ 0 < closing := by
  cases shut : closed with
  | true => exact .inr (.inr (h.shut shut sleepers))
  | false =>
    have covered := h.live shut sleepers
    rw [shut] at ready
    have some := ready.resolve_left nofun
    omega

end Covered

end Wakeups
