import SealedBid.Compiled.LedgerView

/-!
# The simulator

`SealedBidSimulator` of `simulator.ts` drives the compiled contract in one process: it keeps the
state of the contract and the private state of the current actor, `actAs` puts another secret key in
the private state, and a circuit runs with both, which a circuit that throws leaves as they were.

A session with the simulator is a run of the source in which every call is made by the last actor
(`calledBy`): the state is that of the ledger after the run, the next call throws or goes on as the
call of the source does, and `getLedger` shows the ledger (`session_refines`).

Scope. The arguments of the constructor are 64-bit integers; what the contract makes of other
integers is in `Client.CompiledContract`. The simulated clock is not modelled: no circuit reads it.
-/

set_option autoImplicit false
set_option relaxedAutoImplicit false

namespace SealedBid.Compiled

open RecordedPrograms FailSafeRun MapEnumeration

/-- The options of the simulator. -/
structure SimulatorOptions where
  reservePrice : Uint64
  bidDeadline : Uint64
  revealDeadline : Uint64
  auctioneerSecretKey : Bytes32
  deriving DecidableEq

/-- The context of the simulator: the state of the contract and the private state. -/
structure Simulator where
  state : StateValue
  privateState : SealedBidPrivateState
  deriving DecidableEq

/-- What a test does with the simulator. -/
inductive SimulatorAction
  | actAs (secretKey : Bytes32)
  | call (circuit : SealedBid.Circuit)
  deriving DecidableEq

variable (vm : LedgerVm) (persistentHash : PersistentHash)

/-- `new SealedBidSimulator(options)`. -/
def newSimulator (options : SimulatorOptions) : Except String Simulator :=
  (initialState0 vm persistentHash options.reservePrice options.bidDeadline options.revealDeadline
      (startContext newArray ⟨options.auctioneerSecretKey⟩)).map
    fun result ↦ ⟨result.2.state, result.2.localState.currentPrivateState⟩

/-- One action: the next simulator, unless the circuit throws. -/
def act (action : SimulatorAction) (simulator : Simulator) : Except String Simulator :=
  match action with
  | .actAs secretKey => .ok { simulator with privateState := { secretKey := secretKey } }
  | .call circuit => do
    let results ← Compiled.call vm persistentHash circuit simulator.state simulator.privateState
    return { state := results.state, privateState := results.privateState }

/-- The secret key of the actor after a session that started with an actor. -/
def lastActor (actor : Bytes32) : List SimulatorAction → Bytes32
  | [] => actor
  | .actAs secretKey :: rest => lastActor secretKey rest
  | .call _ :: rest => lastActor actor rest

/-- The calls of a session that started with an actor, each made by the last actor. -/
def calledBy (actor : Bytes32) : List SimulatorAction → List Call
  | [] => []
  | .actAs secretKey :: rest => calledBy secretKey rest
  | .call circuit :: rest => ⟨actor, circuit⟩ :: calledBy actor rest

/-- The simulator on the state array of a ledger. -/
def simulatorOf (ledger : Ledger) (actor : Bytes32) : Simulator := ⟨encode ledger, ⟨actor⟩⟩

variable {vm persistentHash}

theorem length_calledBy_le (actor : Bytes32) (actions : List SimulatorAction) :
    (calledBy actor actions).length ≤ actions.length := by
  induction actions generalizing actor with
  | nil => exact le_refl 0
  | cons action rest ih =>
    cases action with
    | actAs secretKey => exact (ih secretKey).trans (Nat.le_succ _)
    | call circuit => exact Nat.succ_le_succ (ih actor)

theorem newSimulator_eq (options : SimulatorOptions) :
    newSimulator vm persistentHash options =
      (constructor persistentHash options.auctioneerSecretKey options.reservePrice
        options.bidDeadline options.revealDeadline).map fun ledger ↦
          simulatorOf ledger options.auctioneerSecretKey := by
  have h := @initialState0_newArray vm persistentHash ⟨options.auctioneerSecretKey⟩
    options.reservePrice options.bidDeadline options.revealDeadline
  rw [newSimulator]
  cases hbuilt : initialState0 vm persistentHash options.reservePrice options.bidDeadline
      options.revealDeadline (startContext newArray ⟨options.auctioneerSecretKey⟩) with
  | error message =>
    rw [hbuilt] at h
    cases hcreate : constructor persistentHash options.auctioneerSecretKey options.reservePrice
      options.bidDeadline options.revealDeadline <;> rw [hcreate] at h <;> cases h
    rfl
  | ok result =>
    rw [hbuilt] at h
    cases hcreate : constructor persistentHash options.auctioneerSecretKey options.reservePrice
      options.bidDeadline options.revealDeadline <;> rw [hcreate] at h
    · cases h
    · obtain ⟨hstate, hprivate⟩ := Prod.mk.inj (Except.ok.inj h)
      show Except.ok (Simulator.mk _ _) = _
      rw [hstate, hprivate]
      rfl

/-- A circuit of the simulator does what the call of the actor does. -/
theorem act_call (circuit : SealedBid.Circuit) {ledger : Ledger} (actor : Bytes32)
    (hroom : Room 1 ledger) :
    act vm persistentHash (.call circuit) (simulatorOf ledger actor) =
      (exec persistentHash ⟨actor, circuit⟩ ledger).map (simulatorOf · actor) := by
  show (Compiled.call vm persistentHash circuit (encode ledger) ⟨actor⟩ >>= _) = _
  rw [call_encode ⟨actor, circuit⟩ hroom]
  cases exec persistentHash ⟨actor, circuit⟩ ledger with
  | error message => rfl
  | ok next => rfl

theorem step_act_call (circuit : SealedBid.Circuit) {ledger : Ledger} (actor : Bytes32)
    (hroom : Room 1 ledger) :
    step (act vm persistentHash) (simulatorOf ledger actor) (.call circuit) =
      simulatorOf (step (exec persistentHash) ledger ⟨actor, circuit⟩) actor := by
  unfold step
  rw [act_call circuit actor hroom]
  cases exec persistentHash ⟨actor, circuit⟩ ledger with
  | error message => rfl
  | ok next => rfl

/-- A session is a run of the calls of its actors. Assumes: the counters have room for the
actions. -/
theorem run_act {ledger : Ledger} (actor : Bytes32) {actions : List SimulatorAction}
    (hroom : Room actions.length ledger) :
    run (act vm persistentHash) (simulatorOf ledger actor) actions =
      simulatorOf (run (exec persistentHash) ledger (calledBy actor actions))
        (lastActor actor actions) := by
  induction actions generalizing ledger actor with
  | nil => rfl
  | cons action rest ih =>
    rw [run_cons]
    cases action with
    | actAs secretKey => exact ih secretKey (hroom.mono (Nat.le_succ _))
    | call circuit =>
      rw [step_act_call circuit actor (hroom.mono (Nat.le_add_left 1 rest.length)), calledBy,
        run_cons, lastActor]
      exact ih actor (Room.step rest.length ledger ⟨actor, circuit⟩ hroom)

/-- **A session with the simulator is a run of the source.** A simulator that was built has the
arguments of a constructor call that the source accepts. After any actions its state is that of the
ledger after the calls of the session, each made by the actor that was selected last, whether they
threw or not; `getLedger` shows this ledger; and the next circuit throws what the call of the source
throws, or leads to the state of the ledger that it leads to. Assumes: fewer than `2^64 - 1`
actions. -/
theorem session_refines (vm : LedgerVm) (order : KeyOrder) {options : SimulatorOptions}
    {simulator : Simulator} (hnew : newSimulator vm persistentHash options = .ok simulator)
    (actions : List SimulatorAction) (hlength : actions.length < 18446744073709551615)
    (circuit : SealedBid.Circuit) :
    ∃ initial, constructor persistentHash options.auctioneerSecretKey options.reservePrice
        options.bidDeadline options.revealDeadline = .ok initial ∧
      let actor := lastActor options.auctioneerSecretKey actions
      let ledger :=
        run (exec persistentHash) initial (calledBy options.auctioneerSecretKey actions)
      run (act vm persistentHash) simulator actions = simulatorOf ledger actor ∧
        Shown vm order (encode ledger) ledger ∧
        act vm persistentHash (.call circuit) (simulatorOf ledger actor) =
          (exec persistentHash ⟨actor, circuit⟩ ledger).map (simulatorOf · actor) := by
  rw [newSimulator_eq, map_eq_ok_iff] at hnew
  obtain ⟨initial, hcreate, rfl⟩ := hnew
  have hcalls := length_calledBy_le options.auctioneerSecretKey actions
  have hroom : Room (1 + (calledBy options.auctioneerSecretKey actions).length) initial :=
    room_of_constructor hcreate (by omega)
  refine ⟨initial, hcreate, run_act _ (room_of_constructor hcreate (by omega)), ?_, ?_⟩
  · exact shown_encode order (fits_of_run hcreate _ (by omega))
  · exact act_call circuit _ (run_encode vm hroom).2

/-- The options of the harness auction. -/
def harnessOptions : SimulatorOptions := ⟨100, 1000, 2000, key 0xa0⟩

theorem session_refines_harness :
    ∃ initial, constructor sampleHash (key 0xa0) 100 1000 2000 = .ok initial ∧
      Shown referenceVm sortedKeys (encode (run (exec sampleHash) initial
        [commitCall 0xb0 150, closeCall])) (run (exec sampleHash) initial
          [commitCall 0xb0 150, closeCall]) := by
  have hnew : newSimulator referenceVm sampleHash harnessOptions =
      .ok (simulatorOf harnessLedger (key 0xa0)) :=
    (newSimulator_eq harnessOptions).trans
      (congrArg (Except.map (simulatorOf · (key 0xa0))) harnessLedger_eq)
  obtain ⟨initial, hcreate, -, hshown, -⟩ := session_refines referenceVm sortedKeys hnew
    [.actAs (key 0xb0), .call (commitCall 0xb0 150).circuit, .actAs (key 0xa0),
      .call .closeBidding] (by decide) .cancel
  exact ⟨initial, hcreate, hshown⟩

end SealedBid.Compiled
