import EdgeSentinel.Fsm.Outage
import EdgeSentinel.Linux.CanSource
import EdgeSentinel.Linux.Descriptor
import EdgeSentinel.Protocols.I2cSensor

/-! How the three adapters get their descriptors, and the I2C bus behind one of them. A
constructor that fails leaves nothing open and an adapter without a descriptor, whose
samples are offline from then on. -/
namespace EdgeSentinel

/-- `open` or `socket` and the calls that set the descriptor up. The first that fails ends
the constructor, at which the candidate is closed. -/
def acquire (k : Descriptors) (opened : Returned) (setup : List Returned) :
    Option (Descriptors × UniqueFd × Nat) :=
  (k.grant opened.result).map fun k =>
    let candidate : UniqueFd := { descriptor := opened.result }
    if !candidate.valid then (candidate.destroy k, {}, opened.errno)
    else
      match setup.find? (·.result ≠ 0) with
      | some failed => (candidate.destroy k, {}, failed.errno)
      | none => (k, candidate, 0)

def UartSensorSource.construct (k : Descriptors) (baudRate : Int)
    (opened tcgetattr tcsetattr : Returned) :
    Option (Descriptors × UniqueFd × UartSensorSource) :=
  if !baudKnown baudRate then some (k, {}, { errorNumber := EINVAL })
  else
    (acquire k opened [tcgetattr, tcsetattr]).map fun (k, descriptor, errorNumber) =>
      (k, descriptor,
        if descriptor.valid then { descriptor := true, sample := { online := true } }
        else { errorNumber })

def SocketCanSensorSource.construct (k : Descriptors) (interfaceName : String)
    (opened ioctl bind : Returned) : Option (Descriptors × UniqueFd × SocketCanSensorSource) :=
  if interfaceName.isEmpty || interfaceName.utf8ByteSize ≥ IFNAMSIZ then
    some (k, {}, { errorNumber := EINVAL })
  else
    (acquire k opened [ioctl, bind]).map fun (k, descriptor, errorNumber) =>
      (k, descriptor,
        if descriptor.valid then { descriptor := true, sample := { online := true } }
        else { errorNumber })

structure LinuxI2cBus where
  deviceAddress : UInt16
  descriptor : UniqueFd := {}
  errorNumber : Nat := 0
  deriving DecidableEq, Repr

def LinuxI2cBus.construct (k : Descriptors) (deviceAddress : UInt16) (opened : Returned) :
    Option (Descriptors × LinuxI2cBus) :=
  if deviceAddress > 0x7F then some (k, { deviceAddress, errorNumber := EINVAL })
  else
    (k.grant opened.result).map fun k =>
      let (k, descriptor) := ({} : UniqueFd).reset k opened.result
      (k, { deviceAddress, descriptor,
            errorNumber := if !descriptor.valid then opened.errno else 0 })

/- The two messages of a combined transaction: which register, and how many bytes of it. -/
structure I2cRequest where
  address : UInt16
  register : UInt8
  length : Nat
  deriving DecidableEq, Repr

/- A transaction that went out, with what `ioctl` returned. -/
structure I2cTransaction where
  request : I2cRequest
  result : Int
  deriving DecidableEq, Repr

/-- Whatever answers `I2C_RDWR`: it may write to the output and fail all the same. -/
structure I2cDevice (δ : Type) where
  transfer : δ → UInt16 → UInt8 → {n : Nat} → Vector UInt8 n → δ × Returned × Vector UInt8 n

/- The bus with its device, and the transactions that have gone out. -/
structure I2cLine (δ : Type) where
  bus : LinuxI2cBus
  device : δ
  transactions : List I2cTransaction := []

namespace I2cLine

variable {δ : Type}

/-- `LinuxI2cBus::read_register`. -/
def readRegister (device : I2cDevice δ) (line : I2cLine δ) (register : UInt8) {n : Nat}
    (output : Vector UInt8 n) : I2cLine δ × Bool × Vector UInt8 n :=
  if !line.bus.descriptor.valid ∨ n = 0 ∨ n > 65535 then
    ({ line with bus := { line.bus with errorNumber := EINVAL } }, false, output)
  else
    let (next, given, output) := device.transfer line.device line.bus.deviceAddress register output
    let line := { line with
      device := next
      transactions :=
        line.transactions ++ [⟨⟨line.bus.deviceAddress, register, n⟩, given.result⟩] }
    if given.result ≠ 2 then
      ({ line with bus := { line.bus with errorNumber := given.errno } }, false, output)
    else (line, true, output)

/- `LinuxI2cBus` as the bus of the reader; `I2cSensorSource` is the two together. -/
def asBus (device : I2cDevice δ) : I2cBus (I2cLine δ) := ⟨readRegister device⟩

end I2cLine

section Opening

variable {k k' : Descriptors} {f : UniqueFd} {opened : Returned} {setup : List Returned}
  {errorNumber : Nat}

/-- A constructor leaves the descriptors as they were, or with one more that it keeps. -/
inductive Acquired (k : Descriptors) : Descriptors → UniqueFd → Prop where
  | failed (f : UniqueFd) (invalid : f.valid = false) : Acquired k k f
  | kept (f : UniqueFd) (valid : f.valid = true) (fresh : f.descriptor ∉ k.opened) :
      Acquired k { k with opened := f.descriptor :: k.opened } f

/-- The destructor takes it back. -/
theorem Acquired.destroy (acquired : Acquired k k' f) : f.destroy k' = k := by
  cases acquired with
  | failed f invalid => exact UniqueFd.destroy_invalid invalid k
  | kept f valid fresh => exact UniqueFd.destroy_opened valid k

theorem grant_acquired (granted : k.grant f.descriptor = some k') : Acquired k k' f := by
  cases valid : f.valid with
  | false =>
    rw [UniqueFd.grant_invalid valid granted]
    exact .failed f valid
  | true =>
    obtain ⟨fresh, same⟩ := UniqueFd.grant_valid valid granted
    rw [same]
    exact .kept f valid fresh

/- The `errno` of the first call that failed. -/
def failure (opened : Returned) (setup : List Returned) : Option Nat :=
  if opened.result < 0 then some opened.errno
  else (setup.find? (·.result ≠ 0)).map Returned.errno

/-- The descriptor is kept if no call failed, and otherwise the first failure is known. -/
theorem acquire_acquired (done : acquire k opened setup = some (k', f, errorNumber)) :
    Acquired k k' f ∧
      failure opened setup = if f.valid then none else some errorNumber := by
  obtain ⟨kernel, granted, same⟩ := Option.map_eq_some_iff.mp done
  have acquired : Acquired k kernel { descriptor := opened.result } := grant_acquired granted
  cases valid : ({ descriptor := opened.result } : UniqueFd).valid with
  | false =>
    simp only [valid] at same
    cases same
    have negative : opened.result < 0 := Int.not_le.mp (of_decide_eq_false valid)
    refine ⟨?_, if_pos negative⟩
    rw [acquired.destroy]
    exact .failed {} rfl
  | true =>
    have positive : ¬ opened.result < 0 := Int.not_lt.mpr (of_decide_eq_true valid)
    simp only [valid] at same
    rw [failure, if_neg positive]
    cases found : setup.find? (·.result ≠ 0) with
    | none =>
      simp only [found] at same
      cases same
      exact ⟨acquired, by rw [if_pos valid]; rfl⟩
    | some failed =>
      simp only [found] at same
      cases same
      refine ⟨?_, rfl⟩
      rw [acquired.destroy]
      exact .failed {} rfl

theorem UartSensorSource.construct_create {baudRate : Int} {tcgetattr tcsetattr : Returned}
    {source : UartSensorSource}
    (done : construct k baudRate opened tcgetattr tcsetattr = some (k', f, source)) :
    Acquired k k' f ∧ source = create baudRate (failure opened [tcgetattr, tcsetattr]) ∧
      source.descriptor = f.valid := by
  unfold construct at done
  split at done
  · rename_i unknown
    cases done
    refine ⟨.failed {} rfl, ?_, rfl⟩
    unfold create
    rw [if_pos unknown]
  · rename_i known
    obtain ⟨⟨kernel, descriptor, errorNumber⟩, taken, same⟩ := Option.map_eq_some_iff.mp done
    obtain ⟨acquired, first⟩ := acquire_acquired taken
    cases same
    refine ⟨acquired, ?_⟩
    unfold create
    rw [if_neg known, first]
    cases valid : f.valid with
    | false => exact ⟨rfl, rfl⟩
    | true => exact ⟨rfl, rfl⟩

theorem SocketCanSensorSource.construct_create {interfaceName : String} {ioctl bind : Returned}
    {source : SocketCanSensorSource}
    (done : construct k interfaceName opened ioctl bind = some (k', f, source)) :
    Acquired k k' f ∧ source = create interfaceName (failure opened [ioctl, bind]) ∧
      source.descriptor = f.valid := by
  unfold construct at done
  split at done
  · rename_i unusable
    cases done
    refine ⟨.failed {} rfl, ?_, rfl⟩
    unfold create
    rw [if_pos unusable]
  · rename_i usable
    obtain ⟨⟨kernel, descriptor, errorNumber⟩, taken, same⟩ := Option.map_eq_some_iff.mp done
    obtain ⟨acquired, first⟩ := acquire_acquired taken
    cases same
    refine ⟨acquired, ?_⟩
    unfold create
    rw [if_neg usable, first]
    cases valid : f.valid with
    | false => exact ⟨rfl, rfl⟩
    | true => exact ⟨rfl, rfl⟩

theorem LinuxI2cBus.construct_acquired {deviceAddress : UInt16} {bus : LinuxI2cBus}
    (done : construct k deviceAddress opened = some (k', bus)) :
    Acquired k k' bus.descriptor ∧ bus.deviceAddress = deviceAddress ∧
      (bus.descriptor.valid = true → deviceAddress ≤ 0x7F) := by
  unfold construct at done
  split at done
  · cases done
    exact ⟨.failed {} rfl, rfl, nofun⟩
  · rename_i inside
    obtain ⟨kernel, granted, same⟩ := Option.map_eq_some_iff.mp done
    cases same
    exact ⟨grant_acquired granted, rfl, fun _ => UInt16.not_lt.mp inside⟩

end Opening

section Offline

variable {m : MotorStateMachine} {samples : List SensorSample}

/-- A machine that hears of nothing but an offline sensor. -/
theorem offline_trips (some : 0 < m.config.offlineSamples.toNat) (active : m.Protecting)
    (fresh : m.offlineCount = 0) {count : Nat}
    (offline : samples.map SensorSample.online = List.replicate count false) :
    .sensorOffline ∈ m.reasons samples ↔ m.config.offlineSamples.toNat ≤ count := by
  rw [MotorStateMachine.offline_reported_fresh rfl some fresh]
  constructor
  · rintro ⟨n, -, outage⟩
    have length := List.IsPrefix.length_le outage
    rw [List.map_drop, offline, List.length_replicate, List.length_drop,
      List.length_replicate] at length
    omega
  · intro long
    refine ⟨0, active, ?_⟩
    rw [List.drop_zero, MotorStateMachine.Outage, offline]
    obtain ⟨more, same⟩ := Nat.exists_eq_add_of_le long
    rw [same, List.replicate_add]
    exact List.prefix_append _ _

/-- Samples of a source that stays in a state in which it reports offline. -/
theorem outputs_offline {σ ι : Type} {read : σ → ι → σ × SensorSample} {P : σ → Prop}
    (step : ∀ s input, P s → P (read s input).1 ∧ (read s input).2.online = false) {s : σ}
    (start : P s) (inputs : List ι) :
    (Mealy.outputs read s inputs).map SensorSample.online =
      List.replicate inputs.length false := by
  induction inputs generalizing s with
  | nil => rfl
  | cons input inputs ih =>
    obtain ⟨next, offline⟩ := step s input start
    rw [Mealy.outputs_cons, List.map_cons, offline, ih next]
    rfl

theorem UartSensorSource.outputs_unopened {source : UartSensorSource}
    (unopened : source.descriptor = false) (thousandth : Int32 → Double)
    (inputs : List UartInput) :
    (Mealy.outputs (read thousandth) source inputs).map SensorSample.online =
      List.replicate inputs.length false := by
  apply outputs_offline (P := fun source => source.descriptor = false) _ unopened
  intro source input unopened
  simp [read, report, unopened]

theorem SocketCanSensorSource.outputs_unopened {source : SocketCanSensorSource}
    (unopened : source.descriptor = false) (thousandth : Int32 → Double)
    (inputs : List CanInput) :
    (Mealy.outputs (read thousandth) source inputs).map SensorSample.online =
      List.replicate inputs.length false := by
  apply outputs_offline (P := fun source => source.descriptor = false) _ unopened
  intro source input unopened
  simp [read, report, unopened]

end Offline

namespace I2cLine

variable {δ : Type} {line line' line'' : I2cLine δ} {sent more : List I2cTransaction}

section Transactions

variable (device : I2cDevice δ)

theorem readRegister_invalid (invalid : line.bus.descriptor.valid = false) (register : UInt8)
    {n : Nat} (output : Vector UInt8 n) :
    line.readRegister device register output =
      ({ line with bus := { line.bus with errorNumber := EINVAL } }, false, output) := by
  rw [readRegister, if_pos (.inl (by rw [invalid]; rfl))]

/-- A bus that is not open does not come as far as a transaction. -/
theorem fetch_invalid (invalid : line.bus.descriptor.valid = false) :
    I2cSensorReader.fetch (asBus device) line =
      ({ line with bus := { line.bus with errorNumber := EINVAL } }, none) := by
  have first := readRegister_invalid device invalid kTemperatureRegister (.replicate 2 0)
  simp only [I2cSensorReader.fetch, asBus, first]
  rfl

/-- The same adapter, some transactions later. -/
structure Sends (line line' : I2cLine δ) (sent : List I2cTransaction) : Prop where
  descriptor : line'.bus.descriptor = line.bus.descriptor
  address : line'.bus.deviceAddress = line.bus.deviceAddress
  transactions : line'.transactions = line.transactions ++ sent

theorem Sends.trans (first : Sends line line' sent) (second : Sends line' line'' more) :
    Sends line line'' (sent ++ more) where
  descriptor := second.descriptor.trans first.descriptor
  address := second.address.trans first.address
  transactions := by rw [second.transactions, first.transactions, List.append_assoc]

theorem readRegister_sends (valid : line.bus.descriptor.valid = true) (register : UInt8) {n : Nat}
    (some : 0 < n) (short : n ≤ 65535) (output : Vector UInt8 n) :
    ∃ result, Sends line (line.readRegister device register output).1
        [⟨⟨line.bus.deviceAddress, register, n⟩, result⟩] ∧
      ((line.readRegister device register output).2.1 = true ↔ result = 2) := by
  have accepted : ¬ ((!line.bus.descriptor.valid) = true ∨ n = 0 ∨ n > 65535) := by
    rintro (closed | zero | long)
    · rw [valid] at closed
      contradiction
    · omega
    · omega
  rw [readRegister, if_neg accepted]
  dsimp only
  split
  · rename_i failed
    exact ⟨_, ⟨rfl, rfl, rfl⟩, iff_of_false Bool.false_ne_true failed⟩
  · rename_i answered
    exact ⟨_, ⟨rfl, rfl, rfl⟩, iff_of_true rfl (Decidable.not_not.mp answered)⟩

/- The four reads of a call, in order. -/
def plan (address : UInt16) : List I2cRequest :=
  [⟨address, kTemperatureRegister, 2⟩, ⟨address, kVibrationRegister, 2⟩,
    ⟨address, kCurrentRegister, 2⟩, ⟨address, kStatusRegister, 1⟩]

/-- The transactions of one call: some of the four reads, in order and with none left out. All
but the last have succeeded, and the last has failed if it is not the fourth. -/
structure Chain (address : UInt16) (sent : List I2cTransaction) : Prop where
  requests : sent.map I2cTransaction.request <+: plan address
  some : sent ≠ []
  succeeded : ∀ transaction ∈ sent.dropLast, transaction.result = 2
  stopped : sent.length < 4 → ∃ transaction ∈ sent.getLast?, transaction.result ≠ 2

/- The last read of a call, behind some that have succeeded. -/
theorem chain_concat {address : UInt16} {past : List I2cTransaction} {last : I2cTransaction}
    (requests : (past ++ [last]).map I2cTransaction.request <+: plan address)
    (succeeded : ∀ transaction ∈ past, transaction.result = 2)
    (stopped : past.length < 3 → last.result ≠ 2) : Chain address (past ++ [last]) := by
  refine ⟨requests, by simp, ?_, ?_⟩
  · rwa [List.dropLast_concat]
  · intro short
    rw [List.length_append, List.length_singleton] at short
    exact ⟨last, List.getLast?_concat, stopped (by omega)⟩

/-- The reads of a call go out one after the other, up to the first that fails. -/
theorem fetch_sends (valid : line.bus.descriptor.valid = true) :
    ∃ sent, Chain line.bus.deviceAddress sent ∧
      Sends line (I2cSensorReader.fetch (asBus device) line).1 sent ∧
      ((I2cSensorReader.fetch (asBus device) line).2.isSome = true →
        sent.length = 4 ∧ ∀ transaction ∈ sent, transaction.result = 2) := by
  -- the next read, from wherever the reads before have led
  have next {here : I2cLine δ} {past : List I2cTransaction} (reached : Sends line here past)
      (register : UInt8) {n : Nat} (some : 0 < n) (short : n ≤ 65535)
      (output : Vector UInt8 n) :
      ∃ result, Sends line (here.readRegister device register output).1
          (past ++ [⟨⟨line.bus.deviceAddress, register, n⟩, result⟩]) ∧
        ((here.readRegister device register output).2.1 = true ↔ result = 2) := by
    have open' : here.bus.descriptor.valid = true := by rw [reached.descriptor, valid]
    obtain ⟨result, last, verdict⟩ := readRegister_sends device open' register some short output
    rw [reached.address] at last
    exact ⟨result, reached.trans last, verdict⟩
  have start : Sends line line [] := ⟨rfl, rfl, (List.append_nil _).symm⟩
  obtain ⟨r₁, one, verdict₁⟩ :=
    next start kTemperatureRegister (by decide) (by decide) (.replicate 2 0)
  rcases first : line.readRegister device kTemperatureRegister (.replicate 2 0) with
    ⟨line₁, ok, temperature⟩
  rw [first] at one verdict₁
  simp only [I2cSensorReader.fetch, asBus, first]
  cases ok with
  | false =>
    have failed : r₁ ≠ 2 := fun two => Bool.false_ne_true (verdict₁.mpr two)
    exact ⟨_, chain_concat (by simp [plan]) (by simp) (fun _ => failed), one, by simp⟩
  | true =>
    have done₁ := verdict₁.mp rfl
    obtain ⟨r₂, two, verdict₂⟩ :=
      next one kVibrationRegister (by decide) (by decide) (.replicate 2 0)
    rcases second : line₁.readRegister device kVibrationRegister (.replicate 2 0) with
      ⟨line₂, ok, vibration⟩
    rw [second] at two verdict₂
    simp only
    cases ok with
    | false =>
      have failed : r₂ ≠ 2 := fun two => Bool.false_ne_true (verdict₂.mpr two)
      exact ⟨_, chain_concat (by simp [plan]) (by simpa using done₁) (fun _ => failed), two,
        by simp⟩
    | true =>
      have done₂ := verdict₂.mp rfl
      obtain ⟨r₃, three, verdict₃⟩ :=
        next two kCurrentRegister (by decide) (by decide) (.replicate 2 0)
      rcases third : line₂.readRegister device kCurrentRegister (.replicate 2 0) with
        ⟨line₃, ok, current⟩
      rw [third] at three verdict₃
      simp only
      cases ok with
      | false =>
        have failed : r₃ ≠ 2 := fun two => Bool.false_ne_true (verdict₃.mpr two)
        exact ⟨_, chain_concat (by simp [plan]) (by simpa using ⟨done₁, done₂⟩)
          (fun _ => failed), three, by simp⟩
      | true =>
        have done₃ := verdict₃.mp rfl
        obtain ⟨r₄, four, verdict₄⟩ :=
          next three kStatusRegister (by decide) (by decide) (.replicate 1 0)
        rcases last : line₃.readRegister device kStatusRegister (.replicate 1 0) with
          ⟨line₄, ok, status⟩
        rw [last] at four verdict₄
        simp only
        cases ok with
        | false =>
          exact ⟨_, chain_concat (by simp [plan]) (by simpa using ⟨done₁, done₂, done₃⟩) (by simp),
            four, by simp⟩
        | true =>
          exact ⟨_, chain_concat (by simp [plan]) (by simpa using ⟨done₁, done₂, done₃⟩) (by simp),
            four, by simpa using ⟨done₁, done₂, done₃, verdict₄.mp rfl⟩⟩

open I2cSensorReader (busAfter fetched returned)

/-- Calls in a row, each with the transactions it made. -/
theorem busAfter_sends (valid : line.bus.descriptor.valid = true) (k : Nat) :
    ∃ calls : List (List I2cTransaction), calls.length = k ∧
      (∀ sent ∈ calls, Chain line.bus.deviceAddress sent) ∧
      Sends line (busAfter (asBus device) line k) calls.flatten ∧
      ∀ i, i < k → (fetched (asBus device) line i).isSome = true →
        ∃ sent, calls[i]? = some sent ∧ sent.length = 4 ∧
          ∀ transaction ∈ sent, transaction.result = 2 := by
  induction k with
  | zero => exact ⟨[], rfl, nofun, ⟨rfl, rfl, (List.append_nil _).symm⟩, nofun⟩
  | succ k ih =>
    obtain ⟨calls, length, chains, past, complete⟩ := ih
    have open' : (busAfter (asBus device) line k).bus.descriptor.valid = true := by
      rw [past.descriptor, valid]
    obtain ⟨sent, chain, now, all⟩ := fetch_sends device open'
    refine ⟨calls ++ [sent], ?_, ?_, ?_, ?_⟩
    · rw [List.length_append, length, List.length_singleton]
    · intro other member
      rcases List.mem_append.mp member with member | last
      · exact chains other member
      · rw [List.mem_singleton.mp last, ← past.address]
        exact chain
    · rw [List.flatten_append, List.flatten_singleton]
      exact past.trans now
    · intro i bound done
      rcases Nat.lt_succ_iff_lt_or_eq.mp bound with before | here
      · rw [List.getElem?_append_left (by omega)]
        exact complete i before done
      · subst here
        exact ⟨sent, by rw [← length, List.getElem?_concat_length], all done⟩

/-- An adapter that is not open. -/
theorem busAfter_invalid (invalid : line.bus.descriptor.valid = false) (k : Nat) :
    busAfter (asBus device) line (k + 1) =
      { line with bus := { line.bus with errorNumber := EINVAL } } ∧
      fetched (asBus device) line k = none := by
  induction k with
  | zero => exact ⟨congrArg Prod.fst (fetch_invalid device invalid),
      congrArg Prod.snd (fetch_invalid device invalid)⟩
  | succ k ih =>
    have again : I2cSensorReader.fetch (asBus device)
        { line with bus := { line.bus with errorNumber := EINVAL } } = _ :=
      fetch_invalid device invalid
    rw [fetched, busAfter, ih.1, again]
    exact ⟨rfl, rfl⟩

end Transactions

open I2cSensorReader (busAfter fetched returned)

/-- Over any number of calls and for any device: every transaction is for the address that
was configured, every call asks for the four registers in order and goes no further than
the first that fails, and a sample is online only if all four went out and succeeded. A bus
that is not open makes no transaction at all and says `EINVAL`. -/
theorem i2c_transactions (hundredth : Int → Double) (device : I2cDevice δ) (line : I2cLine δ)
    (k : Nat) :
    (line.bus.descriptor.valid = true →
      ∃ calls : List (List I2cTransaction), calls.length = k ∧
        (busAfter (asBus device) line k).transactions = line.transactions ++ calls.flatten ∧
        (∀ sent ∈ calls, Chain line.bus.deviceAddress sent) ∧
        ∀ i, i < k → (returned hundredth (asBus device) line i).online = true →
          ∃ sent, calls[i]? = some sent ∧ sent.length = 4 ∧
            ∀ transaction ∈ sent, transaction.result = 2) ∧
    (line.bus.descriptor.valid = false →
      (busAfter (asBus device) line k).transactions = line.transactions ∧
        (0 < k → (busAfter (asBus device) line k).bus.errorNumber = EINVAL)) := by
  constructor
  · intro valid
    obtain ⟨calls, length, chains, sends, complete⟩ := busAfter_sends device valid k
    refine ⟨calls, length, sends.transactions, chains, ?_⟩
    intro i bound online
    apply complete i bound
    rw [I2cSensorReader.returned_eq, I2cSensorReader.after_reader,
      I2cSensorReader.update_online] at online
    obtain ⟨registers, done, -⟩ := (Option.any_eq_true _ _).mp online
    rw [done]
    rfl
  · intro invalid
    cases k with
    | zero => exact ⟨rfl, fun some => absurd some (Nat.lt_irrefl 0)⟩
    | succ k =>
      rw [(busAfter_invalid device invalid k).1]
      exact ⟨rfl, fun _ => rfl⟩

/- A device whose status register does not answer. -/
def statusless : I2cDevice Unit where
  transfer _ _ register _ output :=
    ((), { result := if register = kStatusRegister then -1 else 2, errno := 121 }, output)

theorem i2c_transactions_statusless :
    ∃ calls : List (List I2cTransaction), calls.length = 2 ∧
      (busAfter (asBus statusless) ⟨⟨0x48, { descriptor := 3 }, 0⟩, (), []⟩ 2).transactions =
        calls.flatten ∧
      ∀ sent ∈ calls, Chain 0x48 sent := by
  obtain ⟨calls, length, transactions, chains, -⟩ :=
    (i2c_transactions I2cSensorReader.exactHundredth statusless
      ⟨⟨0x48, { descriptor := 3 }, 0⟩, (), []⟩ 2).1 rfl
  exact ⟨calls, length, transactions, chains⟩

end I2cLine

/-- A source that could not be opened has left no descriptor behind, and its samples make
the machine report an offline sensor after exactly as many calls as are configured,
whichever of the three adapters it is and whatever is fed to it. -/
theorem unopened_source_trips (m : MotorStateMachine) (active : m.Protecting)
    (fresh : m.offlineCount = 0) (some : 0 < m.config.offlineSamples.toNat) (k : Descriptors) :
    (∀ baudRate opened tcgetattr tcsetattr k' f source,
      UartSensorSource.construct k baudRate opened tcgetattr tcsetattr =
          .some (k', f, source) → f.valid = false →
      k' = k ∧ ∀ thousandth inputs,
        (.sensorOffline ∈ m.reasons
          (Mealy.outputs (UartSensorSource.read thousandth) source inputs) ↔
          m.config.offlineSamples.toNat ≤ inputs.length)) ∧
    (∀ interfaceName opened ioctl bind k' f source,
      SocketCanSensorSource.construct k interfaceName opened ioctl bind =
          .some (k', f, source) → f.valid = false →
      k' = k ∧ ∀ thousandth inputs,
        (.sensorOffline ∈ m.reasons
          (Mealy.outputs (SocketCanSensorSource.read thousandth) source inputs) ↔
          m.config.offlineSamples.toNat ≤ inputs.length)) ∧
    (∀ deviceAddress opened k' bus,
      LinuxI2cBus.construct k deviceAddress opened = .some (k', bus) →
      bus.descriptor.valid = false →
      k' = k ∧ ∀ (δ : Type) (device : I2cDevice δ) (state : δ) hundredth calls,
        (.sensorOffline ∈ m.reasons ((List.range calls).map
          (I2cSensorReader.returned hundredth (I2cLine.asBus device) ⟨bus, state, []⟩)) ↔
          m.config.offlineSamples.toNat ≤ calls)) := by
  have unchanged {k' : Descriptors} {f : UniqueFd} (acquired : Acquired k k' f)
      (invalid : f.valid = false) : k' = k := by
    have closed := acquired.destroy
    rwa [UniqueFd.destroy_invalid invalid] at closed
  refine ⟨?_, ?_, ?_⟩
  · intro baudRate opened tcgetattr tcsetattr k' f source done invalid
    obtain ⟨acquired, -, same⟩ := UartSensorSource.construct_create done
    refine ⟨unchanged acquired invalid, ?_⟩
    intro thousandth inputs
    exact offline_trips some active fresh
      (UartSensorSource.outputs_unopened (same.trans invalid) thousandth inputs)
  · intro interfaceName opened ioctl bind k' f source done invalid
    obtain ⟨acquired, -, same⟩ := SocketCanSensorSource.construct_create done
    refine ⟨unchanged acquired invalid, ?_⟩
    intro thousandth inputs
    exact offline_trips some active fresh
      (SocketCanSensorSource.outputs_unopened (same.trans invalid) thousandth inputs)
  · intro deviceAddress opened k' bus done invalid
    obtain ⟨acquired, -, -⟩ := LinuxI2cBus.construct_acquired done
    refine ⟨unchanged acquired invalid, ?_⟩
    intro δ device state hundredth calls
    apply offline_trips some active fresh
    rw [List.map_map, List.eq_replicate_iff]
    refine ⟨by simp, ?_⟩
    intro online member
    obtain ⟨i, -, rfl⟩ := List.mem_map.mp member
    have none : I2cSensorReader.fetched (I2cLine.asBus device) ⟨bus, state, []⟩ i = .none :=
      (I2cLine.busAfter_invalid device invalid i).2
    rw [Function.comp_apply, I2cSensorReader.returned_eq, I2cSensorReader.after_reader,
      I2cSensorReader.update_online, none]
    rfl

/- A baud rate that the table does not have, and three calls. -/
theorem unopened_source_trips_baud :
    .sensorOffline ∈ MotorStateMachine.reasons { state := .healthy }
      (Mealy.outputs (UartSensorSource.read UartSensorSource.exactThousandth)
        { errorNumber := EINVAL } [.notReady, .notReady, .notReady]) := by
  have active : MotorStateMachine.Protecting { state := .healthy } := by decide
  have unopened := (unopened_source_trips { state := .healthy } active rfl (by decide) {}).1
    300 {} {} {} {} {} { errorNumber := EINVAL } rfl rfl
  exact (unopened.2 UartSensorSource.exactThousandth
    [.notReady, .notReady, .notReady]).mpr (by decide)

end EdgeSentinel
