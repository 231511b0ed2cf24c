import EdgeSentinel.Library.Counting
import EdgeSentinel.Library.Exec

/-! `UniqueFd`, the owner of a descriptor. The constructor and `reset` believe any integer. In
a program that passes each descriptor in once, after the system call that opened it, every
open descriptor that was passed in has one owner and is closed once. -/
namespace EdgeSentinel

/- The result of a system call, `POLLIN` in `revents` and `errno`. -/
structure Returned where
  result : Int := 0
  readable : Bool := true
  errno : Nat := 0
  deriving DecidableEq, Repr

/- The descriptors that are open; `misclosed` counts the calls of `close` on any other. -/
structure Descriptors where
  opened : List Int := []
  misclosed : Nat := 0
  deriving DecidableEq, Repr

namespace Descriptors

def close (k : Descriptors) (descriptor : Int) : Descriptors :=
  if descriptor ∈ k.opened then { k with opened := k.opened.erase descriptor }
  else { k with misclosed := k.misclosed + 1 }

/- A system call returns a descriptor: a negative one if it failed, and never one that is
open already. -/
def grant (k : Descriptors) (descriptor : Int) : Option Descriptors :=
  if descriptor < 0 then some k
  else if descriptor ∈ k.opened then none
  else some { k with opened := descriptor :: k.opened }

end Descriptors

structure UniqueFd where
  descriptor : Int := -1
  deriving DecidableEq, Repr

namespace UniqueFd

/- `operator bool`. -/
def valid (f : UniqueFd) : Bool := 0 ≤ f.descriptor

def reset (f : UniqueFd) (k : Descriptors) (descriptor : Int) : Descriptors × UniqueFd :=
  (if 0 ≤ f.descriptor then k.close f.descriptor else k, { descriptor })

/- The destructor. -/
def destroy (f : UniqueFd) (k : Descriptors) : Descriptors := (f.reset k (-1)).1

def held (f : UniqueFd) : Option Int := if 0 ≤ f.descriptor then some f.descriptor else none

section Validity

variable {f : UniqueFd} {k k' : Descriptors}

theorem held_valid (valid : f.valid = true) : f.held = some f.descriptor :=
  if_pos (of_decide_eq_true valid)

theorem held_invalid (invalid : f.valid = false) : f.held = none :=
  if_neg (of_decide_eq_false invalid)

theorem destroy_invalid (invalid : f.valid = false) (k : Descriptors) : f.destroy k = k :=
  if_neg (of_decide_eq_false invalid)

theorem grant_invalid (invalid : f.valid = false)
    (granted : k.grant f.descriptor = some k') : k' = k := by
  rw [Descriptors.grant, if_pos (Int.not_le.mp (of_decide_eq_false invalid))] at granted
  exact (Option.some.inj granted).symm

theorem grant_valid (valid : f.valid = true) (granted : k.grant f.descriptor = some k') :
    f.descriptor ∉ k.opened ∧ k' = { k with opened := f.descriptor :: k.opened } := by
  rw [Descriptors.grant, if_neg (Int.not_lt.mpr (of_decide_eq_true valid))] at granted
  obtain ⟨fresh, same⟩ := Option.ite_none_left_eq_some.mp granted
  exact ⟨fresh, (Option.some.inj same).symm⟩

/-- Closing what was opened last. -/
theorem destroy_opened (valid : f.valid = true) (k : Descriptors) :
    f.destroy { k with opened := f.descriptor :: k.opened } = k := by
  rw [destroy, reset, if_pos (of_decide_eq_true valid), Descriptors.close,
    if_pos List.mem_cons_self, List.erase_cons_head]

end Validity

end UniqueFd

/- A program with such objects, of which some have been destroyed. What `loose` lists has been
opened and not been passed to an object since. -/
structure FdClient where
  kernel : Descriptors := {}
  objects : List (Option UniqueFd) := []
  loose : List Int := []
  deriving DecidableEq, Repr

/- `opens` is a system call that returns a descriptor. -/
inductive FdOp where
  | opens (descriptor : Int)
  | create (descriptor : Int)
  | moveConstruct (source : Nat)
  | moveAssign (target source : Nat)
  | reset (target : Nat) (descriptor : Int)
  | destroy (target : Nat)
  deriving DecidableEq, Repr

namespace FdClient

/- The object at that place, if it is alive. -/
def alive (c : FdClient) (i : Nat) : Option UniqueFd := c.objects[i]?.bind id

/- What stays loose when a descriptor is passed to an object. -/
def passed (c : FdClient) (descriptor : Int) : List Int :=
  if 0 ≤ descriptor then c.loose.erase descriptor else c.loose

def step (c : FdClient) : FdOp → Option (FdClient × Unit)
  | .opens descriptor =>
    (c.kernel.grant descriptor).map fun kernel =>
      ({ c with kernel, loose := { descriptor : UniqueFd }.held.toList ++ c.loose }, ())
  | .create descriptor =>
    some (⟨c.kernel, c.objects ++ [some { descriptor }], c.passed descriptor⟩, ())
  | .moveConstruct source =>
    (c.alive source).map fun other =>
      ({ c with objects := c.objects.set source (some {}) ++ [some other] }, ())
  | .moveAssign target source =>
    (c.alive target).bind fun own => (c.alive source).map fun other =>
      if target = source then (c, ())
      else
        (⟨(own.reset c.kernel other.descriptor).1,
          (c.objects.set source (some {})).set target
            (some (own.reset c.kernel other.descriptor).2), c.loose⟩, ())
  | .reset target descriptor =>
    (c.alive target).map fun own =>
      (⟨(own.reset c.kernel descriptor).1,
        c.objects.set target (some (own.reset c.kernel descriptor).2), c.passed descriptor⟩, ())
  | .destroy target =>
    (c.alive target).map fun own =>
      (⟨own.destroy c.kernel, c.objects.set target none, c.loose⟩, ())

/-- A descriptor that is passed in has been opened for it, or is no descriptor. -/
def PassesOpened (c : FdClient) : FdOp → Prop
  | .create descriptor | .reset _ descriptor => descriptor < 0 ∨ descriptor ∈ c.loose
  | _ => True

instance decidablePassesOpened (c : FdClient) : (op : FdOp) → Decidable (c.PassesOpened op)
  | .create _ | .reset _ _ => inferInstanceAs (Decidable (_ ∨ _))
  | .opens _ | .moveConstruct _ | .moveAssign _ _ | .destroy _ => .isTrue trivial

/- The descriptors that the objects hold. -/
def holding (objects : List (Option UniqueFd)) : List Int :=
  objects.filterMap fun object => object.bind UniqueFd.held

/-- What is open is held, once, and nothing else has been closed. -/
structure Balanced (k : Descriptors) (held : List Int) : Prop where
  holds : held.Perm k.opened
  distinct : k.opened.Nodup
  closed : k.misclosed = 0

section Steps

variable {k k' : Descriptors} {held rest : List Int} {descriptor : Int} {own : UniqueFd}
  {c c' : FdClient} {op : FdOp}

theorem Balanced.perm (h : Balanced k held) (other : rest.Perm held) : Balanced k rest :=
  ⟨other.trans h.holds, h.distinct, h.closed⟩

theorem Balanced.grant (h : Balanced k held) (granted : k.grant descriptor = some k') :
    Balanced k' (({ descriptor : UniqueFd }.held).toList ++ held) := by
  unfold Descriptors.grant at granted
  split at granted
  · rename_i failed
    cases granted
    have none : ({ descriptor : UniqueFd }.held) = none := if_neg (Int.not_le.mpr failed)
    rw [none]
    exact h
  · rename_i given
    obtain ⟨fresh, same⟩ := Option.ite_none_left_eq_some.mp granted
    cases same
    have some : ({ descriptor : UniqueFd }.held) = some descriptor := if_pos (Int.not_lt.mp given)
    rw [some]
    exact ⟨h.holds.cons descriptor, List.nodup_cons.mpr ⟨fresh, h.distinct⟩, h.closed⟩

/-- Closing what an object holds takes it from what is held. -/
theorem Balanced.reset (h : Balanced k (own.held.toList ++ rest)) (descriptor : Int) :
    Balanced (own.reset k descriptor).1 rest := by
  unfold UniqueFd.reset UniqueFd.held at *
  split
  · rename_i valid
    rw [if_pos valid] at h
    have there : own.descriptor ∈ k.opened := h.holds.mem_iff.mp List.mem_cons_self
    rw [Descriptors.close, if_pos there]
    refine ⟨?_, h.distinct.erase _, h.closed⟩
    have apart := List.perm_cons_erase there
    exact (h.holds.trans apart).cons_inv
  · rename_i empty
    rw [if_neg empty] at h
    exact h

theorem alive_some {i : Nat} (there : c.alive i = some own) : c.objects[i]? = some (some own) := by
  obtain ⟨object, here, same⟩ := Option.bind_eq_some_iff.mp there
  exact here.trans (congrArg some same)

theorem holding_concat (objects : List (Option UniqueFd)) (f : UniqueFd) :
    (holding (objects ++ [some f])).Perm (f.held.toList ++ holding objects) := by
  have last : holding [some f] = f.held.toList := by
    simp only [holding, List.filterMap_cons, List.filterMap_nil, Option.bind_some]
    cases f.held <;> rfl
  rw [holding, List.filterMap_append]
  exact (congrArg (holding objects ++ ·) last) ▸ List.perm_append_comm

/- Another object in the place of one. -/
theorem holding_set {objects : List (Option UniqueFd)} {i : Nat}
    (here : objects[i]? = some (some own)) (other : Option UniqueFd) :
    (own.held.toList ++ holding (objects.set i other)).Perm
      ((other.bind UniqueFd.held).toList ++ holding objects) :=
  List.perm_filterMap_set (fun object => object.bind UniqueFd.held) here other

/-- What is passed in goes from the loose descriptors to the held ones. -/
theorem passed_perm (opened : descriptor < 0 ∨ descriptor ∈ c.loose) :
    (c.passed descriptor ++ ({ descriptor : UniqueFd }.held.toList ++ rest)).Perm
      (c.loose ++ rest) := by
  unfold passed UniqueFd.held
  split
  · rename_i valid
    have there : descriptor ∈ c.loose := opened.resolve_left (by omega)
    exact List.perm_middle.trans ((List.perm_cons_erase there).symm.append_right rest)
  · exact .refl _

/- The descriptor of one object in front of all others. -/
theorem own_first {loose held : List Int} (same : (own.held.toList ++ rest).Perm held) :
    (own.held.toList ++ (loose ++ rest)).Perm (loose ++ held) := by
  rw [← List.append_assoc]
  exact (List.perm_append_comm.append_right rest).trans
    ((List.append_assoc loose _ rest).symm ▸ same.append_left loose)

theorem Balanced.step (h : Balanced c.kernel (c.loose ++ holding c.objects))
    (opened : c.PassesOpened op) (moved : c.step op = some (c', ())) :
    Balanced c'.kernel (c'.loose ++ holding c'.objects) := by
  cases op with
  | opens descriptor =>
    obtain ⟨kernel, granted, same⟩ := Option.map_eq_some_iff.mp moved
    cases same
    rw [List.append_assoc]
    exact h.grant granted
  | create descriptor =>
    cases moved
    apply h.perm
    exact ((holding_concat c.objects { descriptor }).append_left _).trans (passed_perm opened)
  | moveConstruct source =>
    obtain ⟨other, there, same⟩ := Option.map_eq_some_iff.mp moved
    cases same
    apply h.perm
    exact ((holding_concat _ other).trans (holding_set (alive_some there) (some {}))).append_left _
  | moveAssign target source =>
    obtain ⟨own, here, moved⟩ := Option.bind_eq_some_iff.mp moved
    obtain ⟨other, there, same⟩ := Option.map_eq_some_iff.mp moved
    split at same
    · cases same
      exact h
    · rename_i apart
      cases same
      have emptied := holding_set (alive_some there) (some {})
      have kept : (c.objects.set source (some {}))[target]? = some (some own) := by
        rw [List.getElem?_set_ne (Ne.symm apart)]
        exact alive_some here
      have filled := holding_set kept (some { descriptor := other.descriptor })
      exact (h.perm (own_first (filled.trans emptied))).reset other.descriptor
  | reset target descriptor =>
    obtain ⟨own, here, same⟩ := Option.map_eq_some_iff.mp moved
    cases same
    have filled := holding_set (alive_some here) (some { descriptor })
    exact ((h.perm (passed_perm opened)).perm (own_first filled)).reset descriptor
  | destroy target =>
    obtain ⟨own, here, same⟩ := Option.map_eq_some_iff.mp moved
    cases same
    exact (h.perm (own_first (holding_set (alive_some here) none))).reset (-1)

theorem alive_holds {i : Nat} : (c.alive i).bind UniqueFd.held = some descriptor ↔
    ∃ object, c.objects[i]? = some object ∧ object.bind UniqueFd.held = some descriptor := by
  rw [alive, Option.bind_assoc, Option.bind_eq_some_iff]
  rfl

theorem run_balanced {ops : List FdOp} {answers : List Unit}
    (history : Exec.run step {} ops = some (c, answers))
    (opened : Exec.Always step PassesOpened {} ops) :
    Balanced c.kernel (c.loose ++ holding c.objects) := by
  revert opened
  refine Exec.past_induction (P := fun ops _ (c : FdClient) =>
    Exec.Always FdClient.step PassesOpened {} ops →
      Balanced c.kernel (c.loose ++ holding c.objects)) ?_ ?_ history
  · intro _
    exact ⟨.nil, .nil, rfl⟩
  · intro ops _ t op u _ past balanced moved opened
    obtain ⟨before, now⟩ := (Exec.always_concat past).mp opened
    exact (balanced before).step now moved

end Steps

/-- In a program that passes to such objects only descriptors it has opened, each once, every
descriptor that was passed in and is open has exactly one owner, no descriptor is closed that
is not open, and when the objects are gone nothing is open but what was not passed in. -/
theorem descriptor_ownership (ops : List FdOp) (c : FdClient) (answers : List Unit)
    (history : Exec.run step {} ops = some (c, answers))
    (opened : Exec.Always step PassesOpened {} ops) :
    c.kernel.misclosed = 0 ∧
      (∀ descriptor, descriptor ∈ c.kernel.opened ∧ descriptor ∉ c.loose ↔
        ∃! i, (c.alive i).bind UniqueFd.held = some descriptor) ∧
      ((∀ i, c.alive i = none) → c.kernel.opened.Perm c.loose) := by
  have balanced := run_balanced history opened
  obtain ⟨-, once, apart⟩ := List.nodup_append.mp
    (balanced.holds.nodup_iff.mpr balanced.distinct)
  refine ⟨balanced.closed, ?_, ?_⟩
  · intro descriptor
    have passed : descriptor ∈ c.kernel.opened ∧ descriptor ∉ c.loose ↔
        descriptor ∈ holding c.objects := by
      rw [← balanced.holds.mem_iff, List.mem_append, and_comm, and_or_left]
      constructor
      · rintro (⟨absent, loose⟩ | ⟨-, held⟩)
        · exact absurd loose absent
        · exact held
      · intro held
        exact .inr ⟨fun loose => apart _ loose _ held rfl, held⟩
    rw [passed, holding, List.mem_filterMap]
    constructor
    · rintro ⟨object, member, holds⟩
      obtain ⟨i, here⟩ := List.mem_iff_getElem?.mp member
      refine ⟨i, alive_holds.mpr ⟨object, here, holds⟩, ?_⟩
      intro j other
      obtain ⟨object', there, holds'⟩ := alive_holds.mp other
      have distinct : ((holding c.objects).map id).Nodup := by
        rw [List.map_id]
        exact once
      exact List.position_unique distinct there here holds' holds rfl
    · rintro ⟨i, owner, -⟩
      obtain ⟨object, here, holds⟩ := alive_holds.mp owner
      exact ⟨object, List.mem_of_getElem? here, holds⟩
  · intro gone
    have empty : holding c.objects = [] := by
      apply List.filterMap_eq_nil_iff.mpr
      intro object member
      obtain ⟨i, here⟩ := List.mem_iff_getElem?.mp member
      have dead := gone i
      rw [alive, here] at dead
      rw [show object = none from dead]
      rfl
    have holds := balanced.holds
    rw [empty, List.append_nil] at holds
    exact holds.symm

/- A socket is moved into a member, which is opened anew before both are gone. -/
def moving : List FdOp :=
  [.create (-1), .opens 3, .create 3, .moveAssign 0 1, .opens 4, .reset 0 4, .destroy 1,
    .moveConstruct 0]

theorem descriptor_ownership_moving :
    Exec.Always step PassesOpened {} moving ∧
    ∃ c answers, Exec.run step {} moving = some (c, answers) ∧ c.kernel.opened = [4] ∧
      c.kernel.misclosed = 0 := by
  have opened : Exec.Always step PassesOpened {} moving := by decide
  obtain ⟨⟨c, answers⟩, history, left⟩ := (Option.any_eq_true _ _).mp
    (show (Exec.run step {} moving).any (fun reached => reached.1.kernel.opened = [4]) = true by
      decide)
  exact ⟨opened, c, answers, history, of_decide_eq_true left,
    (descriptor_ownership moving c answers history opened).1⟩

/- `a.reset(a.get())`: the object is left with a descriptor that is closed, and the destructor
closes it again. -/
example : (Exec.run step {} [.opens 3, .create 3, .reset 0 3, .destroy 0]).map
    (fun reached => reached.1.kernel.misclosed) = some 1 := by
  decide

end FdClient

end EdgeSentinel
