import EdgeSentinel.Runtime.Refinement

/-! Where the slots of the event pool are. Each occupied slot has one owner among
the queue cells, the calls of `publish` and the control loop, so the statistics of
the pool can be read off the pipeline and bounded by what is in flight. -/
namespace EdgeSentinel

/- Who may own a handle: a cell of the queue's ring, a call of `publish` between
`try_create` and the end of `wait_push`, the control loop during an iteration. -/
inductive Owner where
  | queueSlot (index : Nat)
  | publisher (call : Nat)
  | controlLoop
  deriving DecidableEq, Repr

namespace Pipeline

def handleOf (p : Pipeline) : Owner → Option Handle
  | .queueSlot index => p.queue.cell index
  | .publisher call => p.calls[call]?.bind fun call => call.step.held
  | .controlLoop => p.control.held

def Owns (layout : Layout) (p : Pipeline) (owner : Owner) (index : Nat) : Prop :=
  ∃ handle, p.handleOf owner = some handle ∧ handle.object = layout.address index

/- How many calls of `publish` hold a handle. -/
def holders (calls : List PublishCall) : Nat := calls.countP fun call => call.step.held.isSome

def inHands (control : ControlStep) : Nat := if control.held.isSome then 1 else 0

theorem holders_eq (calls : List PublishCall) :
    holders calls = (calls.filterMap PublishCall.owned).length := by
  rw [List.length_filterMap_eq_countP]
  simp [holders, PublishCall.owned]

section Owners

variable {layout : Layout} {start : MotorStateMachine} {notes : List Note} {p q : Pipeline}
  {backlog : List (Handle × Event)} {inHand : Option (Handle × Event)} {note : Note}

theorem Carries.size (h : Carries layout start notes p backlog inHand) :
    p.queue.size = backlog.length := by
  have stored : p.queue.size = (backlog.map Prod.fst).length := h.queue.size
  simpa using stored

theorem Carries.circulating (h : Carries layout start notes p backlog inHand) :
    (p.calls.filterMap PublishCall.owned ++ (inHand.toList ++ backlog)).length =
      p.queue.size + holders p.calls + inHands p.control := by
  have hand : inHands p.control = inHand.toList.length := by
    rw [inHands, h.control]
    cases inHand <;> rfl
  rw [List.length_append, List.length_append, h.size, holders_eq, hand]
  omega

/- The owner's share of all handles. -/
theorem publisher_owned {i : Nat} {handle : Handle}
    (holds : p.handleOf (.publisher i) = some handle) :
    ∃ call, p.calls[i]? = some call ∧ call.owned = some (handle, call.event) := by
  obtain ⟨call, here, held⟩ := Option.bind_eq_some_iff.mp holds
  exact ⟨call, here, by rw [PublishCall.owned, held]; rfl⟩

theorem Carries.queue_owned (h : Carries layout start notes p backlog inHand) {j : Nat}
    {handle : Handle} (holds : p.handleOf (.queueSlot j) = some handle) :
    ∃ k entry, backlog[k]? = some entry ∧ entry.1 = handle ∧
      (p.queue.head + k) % kEventQueueCapacity = j := by
  have stored : p.queue.cell j = some handle := holds
  have bound : j < kEventQueueCapacity := by
    by_contra outside
    have absent : p.queue.slots[j]? = none := Vector.getElem?_eq_none (by omega)
    rw [BoundedQueue.cell, absent] at stored
    contradiction
  obtain ⟨k, inside, rfl⟩ := (h.queue.window.engaged_iff bound).mp (by rw [stored]; rfl)
  have found := h.queue.window.layout k (Nat.lt_of_lt_of_le inside h.queue.window.fits)
  rw [stored, List.getElem?_map] at found
  obtain ⟨entry, here, same⟩ := Option.map_eq_some_iff.mp found.symm
  exact ⟨k, entry, here, same, rfl⟩

theorem Carries.control_owned (h : Carries layout start notes p backlog inHand) {handle : Handle}
    (holds : p.handleOf .controlLoop = some handle) :
    ∃ entry ∈ inHand.toList, entry.1 = handle := by
  have held : p.control.held = some handle := holds
  rw [h.control] at held
  obtain ⟨entry, same, rfl⟩ := Option.map_eq_some_iff.mp held
  exact ⟨entry, by rw [same]; exact List.mem_singleton.mpr rfl, rfl⟩

def share (p : Pipeline) (backlog : List (Handle × Event)) (inHand : Option (Handle × Event)) :
    Owner → List (Handle × Event)
  | .queueSlot _ => backlog
  | .publisher _ => p.calls.filterMap PublishCall.owned
  | .controlLoop => inHand.toList

theorem Carries.share_mem (h : Carries layout start notes p backlog inHand) {owner : Owner}
    {handle : Handle} (holds : p.handleOf owner = some handle) :
    ∃ entry ∈ p.share backlog inHand owner, entry.1 = handle := by
  cases owner with
  | queueSlot j =>
    obtain ⟨k, entry, here, same, -⟩ := h.queue_owned holds
    exact ⟨entry, List.mem_of_getElem? here, same⟩
  | publisher i =>
    obtain ⟨call, here, owned⟩ := publisher_owned holds
    exact ⟨_, List.mem_filterMap.mpr ⟨call, List.mem_of_getElem? here, owned⟩, rfl⟩
  | controlLoop => exact h.control_owned holds

theorem share_subset {owner : Owner} : p.share backlog inHand owner ⊆
    p.calls.filterMap PublishCall.owned ++ (inHand.toList ++ backlog) := by
  cases owner with
  | queueSlot j => exact List.subset_append_of_subset_right _ (List.subset_append_right _ _)
  | publisher i => exact List.subset_append_left _ _
  | controlLoop => exact List.subset_append_of_subset_right _ (List.subset_append_left _ _)

/-- Every handle in circulation has an owner. -/
theorem Carries.owner_of_mem (h : Carries layout start notes p backlog inHand)
    {entry : Handle × Event}
    (member : entry ∈ p.calls.filterMap PublishCall.owned ++ (inHand.toList ++ backlog)) :
    ∃ owner, p.handleOf owner = some entry.1 := by
  rcases List.mem_append.mp member with calls | member
  · obtain ⟨call, inside, owned⟩ := List.mem_filterMap.mp calls
    obtain ⟨i, here⟩ := List.mem_iff_getElem?.mp inside
    obtain ⟨handle, held, rfl⟩ := Option.map_eq_some_iff.mp owned
    exact ⟨.publisher i, Option.bind_eq_some_iff.mpr ⟨call, here, held⟩⟩
  · rcases List.mem_append.mp member with hand | queued
    · have held := h.control
      rw [Option.mem_toList.mp hand] at held
      exact ⟨.controlLoop, held⟩
    · obtain ⟨k, here⟩ := List.mem_iff_getElem?.mp queued
      have inside : k < (backlog.map Prod.fst).length := by
        simpa using (List.getElem?_eq_some_iff.mp here).1
      have stored := h.queue.window.layout k (Nat.lt_of_lt_of_le inside h.queue.window.fits)
      rw [List.getElem?_map, here] at stored
      exact ⟨.queueSlot _, stored⟩

/-- No two owners hold the same slot. -/
theorem Carries.owner_unique (h : Carries layout start notes p backlog inHand) {a b : Owner}
    {index : Nat} (first : p.Owns layout a index) (second : p.Owns layout b index) : a = b := by
  obtain ⟨handle, holds, address⟩ := first
  obtain ⟨handle', holds', address'⟩ := second
  have same : handle.object = handle'.object := address.trans address'.symm
  obtain ⟨x, mine, rfl⟩ := h.share_mem holds
  obtain ⟨y, yours, rfl⟩ := h.share_mem holds'
  have distinct := h.owners.distinct
  simp only [List.map_append, List.nodup_append] at distinct
  obtain ⟨calls, ⟨-, queued, handQueue⟩, callsRest⟩ := distinct
  have left := List.mem_map_of_mem mine (f := fun entry => entry.1.object)
  have right := List.mem_map_of_mem yours (f := fun entry => entry.1.object)
  cases a with
  | queueSlot j =>
    cases b with
    | queueSlot j' =>
      obtain ⟨k, entry, here, eq, rfl⟩ := h.queue_owned holds
      obtain ⟨k', entry', here', eq', rfl⟩ := h.queue_owned holds'
      rw [← List.filterMap_some (l := backlog)] at queued
      rw [List.position_unique queued here here' rfl rfl (by rw [eq, eq', same])]
    | publisher i => exact absurd same.symm (callsRest _ right _ (List.mem_append_right _ left))
    | controlLoop => exact absurd same.symm (handQueue _ right _ left)
  | publisher i =>
    cases b with
    | queueSlot j => exact absurd same (callsRest _ left _ (List.mem_append_right _ right))
    | publisher i' =>
      obtain ⟨call, here, owned⟩ := publisher_owned holds
      obtain ⟨call', here', owned'⟩ := publisher_owned holds'
      rw [List.position_unique calls here here' owned owned' same]
    | controlLoop => exact absurd same (callsRest _ left _ (List.mem_append_left _ right))
  | controlLoop =>
    cases b with
    | queueSlot j => exact absurd same (handQueue _ left _ right)
    | publisher i => exact absurd same.symm (callsRest _ right _ (List.mem_append_left _ left))
    | controlLoop => rfl

end Owners

section Balance

variable {layout : Layout} {start : MotorStateMachine} {notes : List Note} {p q : Pipeline}
  {backlog : List (Handle × Event)} {inHand : Option (Handle × Event)} {note : Note}
  {index : Nat} {call : PublishCall}

theorem holders_same (here : p.calls[index]? = some call) {step : PublishStep}
    (same : step.held = call.step.held) :
    holders (p.calls.set index { call with step }) = holders p.calls := by
  rw [holders_eq, holders_eq]
  exact (owned_same here same).length_eq

theorem holders_gain (here : p.calls[index]? = some call) (step : PublishStep) {handle : Handle}
    (before : call.step.held = none) (after : step.held = some handle) :
    holders (p.calls.set index { call with step }) = holders p.calls + 1 := by
  rw [holders_eq, holders_eq]
  exact (owned_gain here step before after).length_eq

theorem holders_lose (here : p.calls[index]? = some call) (step : PublishStep) {handle : Handle}
    (before : call.step.held = some handle) (after : step.held = none) :
    holders p.calls = holders (p.calls.set index { call with step }) + 1 := by
  rw [holders_eq, holders_eq]
  exact (owned_lose here step before after).length_eq

/-- The statistics of the pool say what circulates. -/
def Balanced (p : Pipeline) : Prop :=
  p.pool.Metered (p.queue.size + holders p.calls + inHands p.control)

theorem Carries.circulating_le (h : Carries layout start notes p backlog inHand) :
    p.queue.size + holders p.calls + inHands p.control ≤ kEventPoolCapacity := by
  rw [← h.circulating]
  exact h.owners.length_le

theorem Carries.pushed_size (h : Carries layout start notes p backlog inHand) {handle : Handle}
    {queue : BoundedQueue Handle kEventQueueCapacity}
    (landed : p.queue.waitPush handle = (queue, .pushed)) : queue.size = p.queue.size + 1 := by
  have stored : queue.size = (backlog.map Prod.fst ++ [handle]).length :=
    (h.queue.landed landed).2.2.2.size
  simpa [h.size] using stored

theorem Carries.refused_size (h : Carries layout start notes p backlog inHand) {handle : Handle}
    {queue : BoundedQueue Handle kEventQueueCapacity} {answer : QueuePushResult}
    (missed : p.queue.waitPush handle = (queue, answer)) (other : answer ≠ .pushed) :
    queue.size = p.queue.size := by
  have stored : queue.size = (backlog.map Prod.fst).length := (h.queue.missed missed other).2.1.size
  simpa [h.size] using stored

theorem Carries.popped_size (h : Carries layout start notes p backlog inHand) {handle : Handle}
    {queue : BoundedQueue Handle kEventQueueCapacity}
    (popped : p.queue.waitPop = some (queue, some handle)) : p.queue.size = queue.size + 1 := by
  obtain ⟨rest, items, -, stored⟩ := h.queue.popped popped
  have before : p.queue.size = (backlog.map Prod.fst).length := h.queue.size
  have after : queue.size = rest.length := stored.size
  rw [before, after, items, List.length_cons]

theorem Balanced.advance (b : Balanced p) (h : Carries layout start notes p backlog inHand)
    (here : p.calls[index]? = some call) (moved : Advances layout p index call q note) :
    Balanced q := by
  have bound := h.circulating_le
  have small : kEventPoolCapacity + 1 < 2 ^ 64 := by decide
  have same : ∀ step : PublishStep, step.held = call.step.held → ∀ size, size = p.queue.size →
      p.pool.Metered
        (size + holders (p.calls.set index { call with step }) + inHands p.control) := by
    rintro step kept size rfl
    rw [holders_same here kept]
    exact b
  cases moved with
  | @allocated now pool handle stage created some =>
    obtain ⟨-, _, empty, -⟩ | ⟨free, -⟩ := h.owners.tryCreate (ε := Empty) ⟨call.event, now⟩
    · cases created.symm.trans empty
      exact absurd rfl some
    · have metered := FixedObjectPool.Metered.tryCreate (ε := Empty) layout b free (by omega)
        ⟨call.event, now⟩
      rw [created] at metered
      have gained := holders_gain here (.pushing handle) (by rw [stage]; rfl) rfl
      exact metered.count (by
        change _ = p.queue.size + holders (p.calls.set index _) + inHands p.control
        omega)
  | @exhausted now pool handle stage created none =>
    obtain ⟨used, -⟩ | ⟨-, _, _, full, some, -⟩ :=
      h.owners.tryCreate (ε := Empty) ⟨call.event, now⟩
    · rw [FixedObjectPool.tryCreate_exhausted layout used] at created
      cases created
      have kept := same (.dropping .poolExhausted) (by rw [stage]; rfl) _ rfl
      exact ⟨kept.inUse, kept.valid⟩
    · cases created.symm.trans full
      exact absurd none some
  | @pushed handle queue stage landed =>
    have lost := holders_lose here .recording (by rw [stage]; rfl) rfl
    have grown := h.pushed_size landed
    exact b.count (by
      change _ = queue.size + holders (p.calls.set index _) + inHands p.control
      omega)
  | @refused handle queue answer result stage missed other failed =>
    exact same (.releasing handle result) (by rw [stage]; rfl) _ (h.refused_size missed other)
  | @released handle result stage =>
    have lost := holders_lose here (.dropping result) (by rw [stage]; rfl) rfl
    have owners := h.owners.perm
      ((owned_lose here (.dropping result) (by rw [stage]; rfl) rfl).append_right _)
    have before := b.count (show _ = p.queue.size +
      holders (p.calls.set index { call with step := .dropping result }) + inHands p.control + 1 by
        omega)
    exact before.reset owners (by omega)
  | _ stage => exact same _ (by rw [stage]; rfl) _ rfl

theorem Balanced.controls (b : Balanced p) (h : Carries layout start notes p backlog inHand)
    (moved : Controls layout p q note) : Balanced q := by
  have bound := h.circulating_le
  have small : kEventPoolCapacity + 1 < 2 ^ 64 := by decide
  have control := h.control
  unfold Balanced at b
  cases moved with
  | exits stage popped =>
    obtain ⟨rfl, -, -⟩ := h.queue.drained popped
    rw [stage] at b
    exact b
  | @pops queue handle stage popped =>
    rw [stage] at b
    have shrunk := h.popped_size popped
    exact b.count (by
      change p.queue.size + holders p.calls + 0 = queue.size + holders p.calls + 1
      omega)
  | @releases handle stage =>
    rw [stage] at control b
    obtain ⟨⟨handle', event⟩, held, rfl⟩ := Option.map_eq_some_iff.mp control.symm
    subst held
    exact b.reset (h.owners.perm List.perm_middle) (by omega)
  | _ stage =>
    rw [stage] at b
    exact b

theorem Balanced.flow (b : Balanced p) (h : Carries layout start notes p backlog inHand)
    (moved : Flow layout p q note) : Balanced q := by
  cases moved with
  | call event =>
    have same : holders (p.call event).calls = holders p.calls := by
      simp [holders, Pipeline.call, PublishStep.held]
    unfold Balanced
    rw [same]
    exact b
  | spawn absent =>
    unfold Balanced at b
    rw [absent] at b
    exact b
  | advance here moved => exact b.advance h here (advance_cases moved)
  | control moved => exact b.controls h (controlLoop_cases moved)
  | _ => exact b

end Balance

end Pipeline

namespace EdgeRuntime

section Runs

variable {layout : Layout} {protection : ProtectionConfig} {hasSensor : Bool}
  {labels : List Label} {notes : List Note} {r : EdgeRuntime}

theorem run_balanced
    (history : Exec.run (EdgeRuntime.step layout) (initial protection hasSensor) labels =
      some (r, notes)) : r.toPipeline.Balanced := by
  have all := Exec.run_induction
    (P := fun _ notes r => Sound layout protection notes r ∧ r.toPipeline.Balanced)
    ⟨sound_initial, rfl, rfl⟩ ?_ history
  · exact all.2
  · rintro _ notes t label u note ⟨sound, balanced⟩ moved
    obtain ⟨backlog, inHand, carries⟩ := sound.carries
    exact ⟨sound.step moved, balanced.flow carries (sound.flow moved)⟩

end Runs

/-- Slots are conserved: in every reachable state each occupied slot has exactly
one owner, the statistics count the owners, and a stopped runtime owns nothing. -/
theorem pool_slots_conserved (layout : Layout) (protection : ProtectionConfig) (hasSensor : Bool)
    (labels : List Label) (r : EdgeRuntime) (notes : List Note)
    (history : Exec.run (EdgeRuntime.step layout) (initial protection hasSensor) labels =
      some (r, notes)) :
    (∀ index < kEventPoolCapacity, (r.pool.slot index).occupied = true →
      ∃! owner, r.Owns layout owner index) ∧
    (∀ owner handle, r.handleOf owner = some handle → ∃ index < kEventPoolCapacity,
      handle.object = layout.address index ∧ (r.pool.slot index).occupied = true) ∧
    r.pool.stats.inUse =
      r.queue.size + Pipeline.holders r.calls + Pipeline.inHands r.control ∧
    r.pool.stats.invalidReleases = 0 ∧
    (∀ c, r.stop = some c → c.step = .returned →
      (∀ call ∈ r.calls, call.step.isReturned = true) →
      r.pool.stats.inUse = 0 ∧ r.queue.size = 0) := by
  have sound := run_sound history
  have balanced := run_balanced history
  obtain ⟨backlog, inHand, carries⟩ := sound.carries
  refine ⟨?_, ?_, balanced.inUse, balanced.valid, ?_⟩
  · intro index bound busy
    obtain ⟨entry, member, address⟩ := carries.owners.covers index bound busy
    obtain ⟨owner, holds⟩ := carries.owner_of_mem member
    have owns : r.Owns layout owner index := ⟨entry.1, holds, address⟩
    exact ⟨owner, owns, fun other also => carries.owner_unique also owns⟩
  · intro owner handle holds
    obtain ⟨entry, member, rfl⟩ := carries.share_mem holds
    obtain ⟨-, index, bound, address, busy, -⟩ :=
      carries.owners.live entry (Pipeline.share_subset member)
    exact ⟨index, bound, address, busy⟩
  · intro c current returned idle
    have gone := sound.staged.joined c current (by rw [returned]; rfl)
    have empty := (sound.staged.exited gone).2
    have none : Pipeline.holders r.calls = 0 := by
      apply List.countP_eq_zero.mpr
      intro call member
      have done := idle call member
      cases stage : call.step <;> simp_all [PublishStep.isReturned, PublishStep.held]
    refine ⟨?_, empty⟩
    rw [balanced.inUse, empty, none, gone]
    rfl

theorem pool_slots_conserved_orderly :
    ∃ r notes, Exec.run (EdgeRuntime.step unitLayout) (initial {} true) orderly =
        some (r, notes) ∧ r.stop = some ⟨2, .returned⟩ ∧ r.pool.stats.inUse = 0 ∧
      r.pool.stats.invalidReleases = 0 := by
  obtain ⟨r, notes, history, stop, calls, -⟩ := run_orderly
  have idle : ∀ call ∈ r.calls, call.step.isReturned = true := by
    rw [calls]
    decide
  obtain ⟨-, -, -, valid, stopped⟩ :=
    pool_slots_conserved unitLayout {} true orderly r notes history
  exact ⟨r, notes, history, stop, (stopped _ stop rfl idle).1, valid⟩

/- The calls of `publish` that have not returned. -/
def inFlight (r : EdgeRuntime) : Nat := r.calls.countP fun call => !call.step.isReturned

/-- A call about to allocate is in flight and holds nothing yet. -/
theorem holders_lt_inFlight {r : EdgeRuntime} {index : Nat} {call : PublishCall}
    (here : r.calls[index]? = some call) (stage : call.step = .allocating) :
    Pipeline.holders r.calls < r.inFlight := by
  obtain ⟨bound, rfl⟩ := List.getElem?_eq_some_iff.mp here
  have split := List.getElem_cons_eraseIdx_perm bound
  have others : Pipeline.holders (r.calls.eraseIdx index) ≤
      (r.calls.eraseIdx index).countP fun call => !call.step.isReturned := by
    apply List.countP_mono_left
    intro call _ holds
    cases stage : call.step <;> simp_all [PublishStep.isReturned, PublishStep.held]
  rw [inFlight, Pipeline.holders, ← split.countP_eq, ← split.countP_eq, List.countP_cons_of_neg,
    List.countP_cons_of_pos]
  · exact Nat.lt_succ_of_le others
  · simp [stage, PublishStep.isReturned]
  · simp [stage, PublishStep.held]

/- What the call will report, once that is settled. -/
def verdict : PublishStep → Option PublishResult
  | .releasing _ result => some result
  | .dropping result => some result
  | .returned result => some result
  | _ => none

structure Unexhausted (p : Pipeline) : Prop where
  failures : p.pool.stats.allocationFailures = 0
  calls : ∀ call ∈ p.calls, verdict call.step ≠ some .poolExhausted

theorem unexhausted_start {machine : MotorStateMachine} : Unexhausted { machine } :=
  ⟨rfl, fun _ absent => absurd absent List.not_mem_nil⟩

theorem exhausted_leadsTo {before after : PublishStep}
    (leads : Pipeline.leadsTo before after = true) (unaware : verdict before ≠ some .poolExhausted)
    (aware : verdict after = some .poolExhausted) :
    before = .allocating ∧ after = .dropping .poolExhausted := by
  unfold Pipeline.leadsTo at leads
  split at leads <;> simp_all [verdict]

section Calm

variable {layout : Layout} {protection : ProtectionConfig} {notes : List Note}
  {r r' : EdgeRuntime} {note : Note}

/-- With fewer calls in flight than the pool has slots beyond the queue and the
control loop, allocation finds a slot. -/
theorem Sound.free_slot (h : Sound layout protection notes r) {index : Nat} {call : PublishCall}
    (here : r.calls[index]? = some call) (stage : call.step = .allocating)
    (calm : r.inFlight ≤ 127) : r.pool.freeHead ≠ kEventPoolCapacity := by
  intro used
  obtain ⟨backlog, inHand, carries⟩ := h.carries
  have many := carries.owners.exhausted used
  rw [carries.circulating] at many
  have holders := holders_lt_inFlight here stage
  have queued : r.queue.size ≤ kEventQueueCapacity := by
    have fits := carries.queue.window.fits
    rw [List.length_map, ← carries.size] at fits
    exact fits
  have hand : Pipeline.inHands r.control ≤ 1 := by
    unfold Pipeline.inHands
    split <;> omega
  simp only [kEventPoolCapacity, kEventQueueCapacity] at many queued
  omega

theorem advances_allocating {p q : Pipeline} {index : Nat} {call : PublishCall}
    (here : p.calls[index]? = some call) (stage : call.step = .allocating)
    (free : p.pool.freeHead ≠ kEventPoolCapacity)
    (moved : Pipeline.Advances layout p index call q note) :
    ∃ handle, q.calls[index]? = some { call with step := .pushing handle } := by
  cases moved with
  | @allocated now pool handle _ created some =>
    exact ⟨handle, by simp [Pipeline.move, Recorded.getElem?_move here]⟩
  | exhausted _ created none =>
    exact absurd none (FixedObjectPool.tryCreate_handle layout free created)
  | _ other =>
    rw [stage] at other
    contradiction

/-- A step of the pipeline in which every call about to allocate would find a slot. -/
theorem Unexhausted.flow {p q : Pipeline} (u : Unexhausted p)
    (free : ∀ (index : Nat) call, p.calls[index]? = some call → call.step = .allocating →
      p.pool.freeHead ≠ kEventPoolCapacity)
    (moved : Pipeline.Flow layout p q note) : Unexhausted q := by
  cases moved with
  | call event =>
    refine ⟨u.failures, ?_⟩
    intro call member
    rcases List.mem_append.mp member with old | new
    · exact u.calls call old
    · cases List.mem_singleton.mp new
      exact nofun
  | @advance index now call q note here moved =>
    have cases := Pipeline.advance_cases moved
    obtain ⟨step, calls, leads⟩ := Pipeline.advance_leadsTo moved
    have unaware := u.calls call (List.mem_of_getElem? here)
    constructor
    · cases cases with
      | @allocated now pool handle stage created some =>
        have stats := FixedObjectPool.tryCreate_stats (ε := Empty) layout
          (free index call here stage) ⟨call.event, now⟩
        rw [created] at stats
        exact (congrArg PoolStats.allocationFailures stats).trans u.failures
      | exhausted stage created none =>
        exact absurd none
          (FixedObjectPool.tryCreate_handle layout (free index call here stage) created)
      | released stage => exact (FixedObjectPool.reset_allocationFailures layout _).trans u.failures
      | _ => exact u.failures
    · intro other member
      rw [calls] at member
      obtain old | rfl := List.mem_or_eq_of_mem_set member
      · exact u.calls other old
      · intro aware
        obtain ⟨stage, rfl⟩ := exhausted_leadsTo leads unaware aware
        obtain ⟨handle, allocated⟩ :=
          advances_allocating here stage (free index call here stage) cases
        rw [calls, Recorded.getElem?_move here, if_pos rfl] at allocated
        cases allocated
  | control moved =>
    have cases := Pipeline.controlLoop_cases moved
    refine ⟨?_, cases.frame.1 ▸ u.calls⟩
    cases cases with
    | releases stage => exact (FixedObjectPool.reset_allocationFailures layout _).trans u.failures
    | _ => exact u.failures
  | _ => exact ⟨u.failures, u.calls⟩

end Calm

/-- With at most 127 calls in flight before every step, no call of `publish` ever
finds the pool exhausted, whatever the interleaving and whatever the pushes answer. -/
theorem pool_outlasts_queue (layout : Layout) (protection : ProtectionConfig) (hasSensor : Bool)
    (labels : List Label) (r : EdgeRuntime) (notes : List Note)
    (history : Exec.run (EdgeRuntime.step layout) (initial protection hasSensor) labels =
      some (r, notes))
    (calm : Exec.Always (EdgeRuntime.step layout) (fun t _ => t.inFlight ≤ 127)
      (initial protection hasSensor) labels) :
    (∀ call ∈ r.calls, call.step ≠ .returned .poolExhausted) ∧
      r.pool.stats.allocationFailures = 0 := by
  have outlasts := Exec.past_induction
    (P := fun labels _ r =>
      Exec.Always (EdgeRuntime.step layout) (fun t _ => t.inFlight ≤ 127)
        (initial protection hasSensor) labels → Unexhausted r.toPipeline)
    (fun _ => unexhausted_start) ?_ history calm
  · refine ⟨?_, outlasts.failures⟩
    intro call member exhausted
    exact outlasts.calls call member (by rw [exhausted]; rfl)
  · intro labels notes t label u note past before moved calm
    obtain ⟨earlier, now⟩ := (Exec.always_concat past).mp calm
    have sound := run_sound past
    apply (before earlier).flow ?_ (sound.flow moved)
    intro index call here stage
    exact sound.free_slot here stage now

theorem pool_outlasts_queue_orderly :
    ∃ r notes, Exec.run (EdgeRuntime.step unitLayout) (initial {} true) orderly =
        some (r, notes) ∧
      Exec.Always (EdgeRuntime.step unitLayout) (fun t _ => t.inFlight ≤ 127)
        (initial {} true) orderly ∧
      r.pool.stats.allocationFailures = 0 := by
  obtain ⟨r, notes, history, -⟩ := run_orderly
  have calm : Exec.Always (EdgeRuntime.step unitLayout) (fun t _ => t.inFlight ≤ 127)
      (initial {} true) orderly := by
    decide +kernel
  exact ⟨r, notes, history, calm,
    (pool_outlasts_queue unitLayout {} true orderly r notes history calm).2⟩

end EdgeRuntime

end EdgeSentinel
