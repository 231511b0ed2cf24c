import EdgeSentinel.Linux.ServerLife

/-! What the command server removes from the file system. `start` looks before it removes
and `stop` removes what `bind` has created, so it is a socket of the server's user, unless
somebody else changes the path in between. -/
namespace EdgeSentinel

def ServerLabel.isOutside : ServerLabel → Bool
  | .outside _ => true
  | _ => false

namespace UnixCommandServer

variable {socketPath : List UInt8} {euid : Nat} {s s' m : UnixCommandServer} {answer : Answer}
  {label : ServerLabel}

/- Nobody changes the path between the look and the removal or while the server owns it. -/
def Undisturbed (s : UnixCommandServer) (label : ServerLabel) : Prop :=
  label.isOutside = true → s.call ≠ .removing ∧ s.ownsSocketPath = false

instance : Decidable (Undisturbed s label) :=
  inferInstanceAs (Decidable (label.isOutside = true → _))

/-- What lies at the path is known when it is going to be removed. -/
structure Guarded (euid : Nat) (s : UnixCommandServer) : Prop where
  recognised : s.call = .removing → s.path = some (socketEntry euid)
  owned : s.ownsSocketPath = true → s.path = some (socketEntry euid)
  removed : ∀ entry ∈ s.removed, entry = socketEntry euid

section Guard

theorem Guarded.keeps (guarded : Guarded euid s) (path : s'.path = s.path)
    (removed : s'.removed = s.removed)
    (owned : s'.ownsSocketPath = true → s.ownsSocketPath = true)
    (recognised : s'.call = .removing → s.path = some (socketEntry euid)) : Guarded euid s' := by
  constructor
  · exact fun removing => path.trans (recognised removing)
  · exact fun owns => path.trans (guarded.owned (owned owns))
  · rw [removed]
    exact guarded.removed

theorem Guarded.append {entry : PathEntry} (guarded : Guarded euid s)
    (own : entry = socketEntry euid) :
    ∀ other ∈ s.removed ++ [entry], other = socketEntry euid := by
  intro other member
  rcases List.mem_append.mp member with member | last
  · exact guarded.removed other member
  · exact (List.mem_singleton.mp last).trans own

/-- A removal at the end of a call, by the owner of the path. -/
theorem Guarded.unlinks (guarded : Guarded euid s) (owns : s.ownsSocketPath = true)
    (unlinked : Unlinks s m) {kernel : Descriptors} :
    Guarded euid { m with kernel, ownsSocketPath := false, call := .idle } := by
  cases unlinked with
  | fails => exact ⟨nofun, nofun, guarded.removed⟩
  | removes entry here =>
    refine ⟨nofun, nofun, guarded.append ?_⟩
    exact Option.some.inj (here.symm.trans (guarded.owned owns))

theorem Guarded.calls (guarded : Guarded euid s) (tidy : Tidy s)
    (moved : Calls euid s s' answer) : Guarded euid s' := by
  cases moved with
  | recognises stage here => exact guarded.keeps rfl rfl id (fun _ => here)
  | removes entry stage here =>
    have still := tidy.busy (by simp [stage])
    have unowned : s.ownsSocketPath = false := by rw [tidy.owns, still, stage]; rfl
    have own := Option.some.inj (here.symm.trans (guarded.recognised stage))
    refine ⟨nofun, ?_, guarded.append own⟩
    intro owns
    rw [unowned] at owns
    contradiction
  | binds f stage => exact ⟨nofun, fun _ => rfl, guarded.removed⟩
  | givesUp f errno m stage unlinked =>
    have owns : s.ownsSocketPath = true := by rw [tidy.owns, stage]; exact Bool.or_true _
    exact guarded.unlinks owns unlinked
  | unlinks m stage unlinked =>
    have owns : s.ownsSocketPath = true := by rw [tidy.owns, stage]; exact Bool.or_true _
    exact guarded.unlinks owns unlinked
  | resets stage =>
    refine guarded.keeps rfl rfl id ?_
    dsimp only
    split <;> nofun
  | _ => exact guarded.keeps rfl rfl id nofun

theorem Guarded.step (guarded : Guarded euid s) (tidy : Tidy s)
    (undisturbed : Undisturbed s label)
    (moved : s.step socketPath euid label = some (s', answer)) : Guarded euid s' := by
  cases label with
  | start =>
    obtain ⟨idle, same⟩ := Option.ite_none_right_eq_some.mp moved
    have started : Guarded euid (s.start socketPath).1 := by
      unfold UnixCommandServer.start
      split
      · rw [refuse_idle idle]
        exact guarded
      · split
        · rw [refuse_idle idle]
          exact guarded
        · exact guarded.keeps rfl rfl id nofun
    rw [Option.some.inj same] at started
    exact started
  | stop =>
    obtain ⟨idle, same⟩ := Option.ite_none_right_eq_some.mp moved
    cases same
    unfold UnixCommandServer.stop
    split
    · exact guarded.keeps rfl rfl id nofun
    · exact guarded
  | caller given =>
    exact guarded.calls tidy
      (callerStep_calls tidy.candidate_opened tidy.listener_opened moved)
  | thread given =>
    obtain ⟨next, turned, same⟩ := Option.map_eq_some_iff.mp moved
    cases same
    have accepts : Accepts s s' := by
      apply acceptLoop_accepts _ turned
      intro present _
      exact tidy.listener_opened (tidy.present present).2
    cases accepts <;> exact guarded.keeps rfl rfl id guarded.recognised
  | exchange =>
    simp only [UnixCommandServer.step] at moved
    split at moved
    · rename_i f stage
      cases moved
      rw [use_opened (tidy.client_opened stage)]
      exact guarded
    · cases moved
  | served =>
    simp only [UnixCommandServer.step] at moved
    split at moved
    · cases moved
      exact guarded.keeps rfl rfl id guarded.recognised
    · cases moved
  | outside path =>
    cases moved
    obtain ⟨elsewhere, unowned⟩ := undisturbed rfl
    refine ⟨fun removing => absurd removing elsewhere, ?_, guarded.removed⟩
    intro owns
    rw [unowned] at owns
    contradiction

theorem run_guarded {path : Option PathEntry} {labels : List ServerLabel} {answers : List Answer}
    (history : Exec.run (UnixCommandServer.step socketPath euid) { path } labels =
      some (s, answers))
    (undisturbed : Exec.Always (UnixCommandServer.step socketPath euid) Undisturbed { path }
      labels) : Guarded euid s := by
  revert undisturbed
  refine Exec.past_induction (P := fun labels _ s =>
    Exec.Always (UnixCommandServer.step socketPath euid) Undisturbed { path } labels →
      Guarded euid s) ?_ ?_ history
  · intro _
    exact ⟨nofun, nofun, nofun⟩
  · intro labels answers s label s' answer past guarded moved undisturbed
    obtain ⟨before, now⟩ := (Exec.always_concat past).mp undisturbed
    exact (guarded before).step (run_tidy past).1 now moved

end Guard

/-- Undisturbed, the server removes nothing but sockets of its own user, and while it runs
its socket is at the path. It takes one change of the path, between the look and the removal,
to make it remove anything else. -/
theorem removal_guard (socketPath : List UInt8) (euid : Nat) :
    (∀ path labels s answers,
      Exec.run (step socketPath euid) { path } labels = some (s, answers) →
      Exec.Always (step socketPath euid) Undisturbed { path } labels →
      (∀ entry ∈ s.removed, entry = socketEntry euid) ∧
        (s.running = true → s.path = some (socketEntry euid))) ∧
    (socketPath ≠ [] → socketPath.length < Ipc.sunPathSize → ∀ entry,
      ∃ labels s answers,
        Exec.run (step socketPath euid) { path := some (socketEntry euid) } labels =
          some (s, answers) ∧
        Exec.Always (step socketPath euid)
          (fun s label => label.isOutside = true → s.call = .removing)
          { path := some (socketEntry euid) } labels ∧
        labels.countP ServerLabel.isOutside = 1 ∧ s.removed = [entry]) := by
  constructor
  · intro path labels s answers history undisturbed
    have guarded := run_guarded history undisturbed
    have tidy := (run_tidy history).1
    refine ⟨guarded.removed, ?_⟩
    intro runs
    apply guarded.owned
    rw [tidy.owns, runs]
    rfl
  · intro some short entry
    have accepted : ¬ (socketPath.isEmpty = true ∨ socketPath.length ≥ Ipc.sunPathSize) := by
      simp [some, short]
    have starts : step socketPath euid { path := .some (socketEntry euid) } .start =
        .some ({ path := .some (socketEntry euid), call := .inspecting }, .none) :=
      congrArg Option.some (if_neg accepted)
    have looks : step socketPath euid { path := .some (socketEntry euid), call := .inspecting }
        (.caller {}) = .some ({ path := .some (socketEntry euid), call := .removing }, .none) := by
      simp [step, callerStep, socketEntry]
    have changes : step socketPath euid { path := .some (socketEntry euid), call := .removing }
        (.outside (.some entry)) =
          .some ({ path := .some entry, call := .removing }, .none) := rfl
    have removes : step socketPath euid { path := .some entry, call := .removing } (.caller {}) =
        .some ({ removed := [entry], call := .creating }, .none) := rfl
    refine ⟨[.start, .caller {}, .outside (.some entry), .caller {}],
      { removed := [entry], call := .creating }, [.none, .none, .none, .none], ?_, ?_, rfl, rfl⟩
    · simp only [Exec.run, starts, looks, changes, removes, Option.bind_some, Option.map_some]
    · refine (Exec.always_cons starts).mpr ⟨(absurd · Bool.false_ne_true), ?_⟩
      refine (Exec.always_cons looks).mpr ⟨(absurd · Bool.false_ne_true), ?_⟩
      refine (Exec.always_cons changes).mpr ⟨fun _ => rfl, ?_⟩
      exact (Exec.always_cons removes).mpr ⟨(absurd · Bool.false_ne_true), trivial⟩

/- A first start fails at `chmod` and cannot remove its socket; the second finds it. -/
def restart : List ServerLabel :=
  [.start, .caller { result := -1, errno := 2 }, .caller { result := 3 }, .caller {},
    .caller { result := -1, errno := 13 }, .caller { result := -1, errno := 13 },
    .start, .caller {}, .caller {}, .caller { result := 3 }, .caller {}, .caller {}, .caller {}]

theorem removal_guard_restart :
    ∃ s answers, Exec.run (step (Ipc.literal "/tmp/edge.sock") 1000) {} restart =
        some (s, answers) ∧
      s.removed = [socketEntry 1000] ∧ s.path = some (socketEntry 1000) := by
  obtain ⟨⟨s, answers⟩, history, shows⟩ := (Option.any_eq_true _ _).mp
    (show (Exec.run (step (Ipc.literal "/tmp/edge.sock") 1000) {} restart).any
      (fun reached => reached.1.running && reached.1.removed.length = 1) = true by decide)
  obtain ⟨runs, one⟩ : s.running = true ∧ s.removed.length = 1 := by simpa using shows
  obtain ⟨removed, there⟩ := (removal_guard (Ipc.literal "/tmp/edge.sock") 1000).1 none restart s
    answers history (by decide)
  obtain ⟨entry, same⟩ := List.length_eq_one_iff.mp one
  refine ⟨s, answers, history, ?_, there runs⟩
  rw [same, removed entry (by rw [same]; exact List.mem_singleton_self entry)]

end UnixCommandServer

end EdgeSentinel
