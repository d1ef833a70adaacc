import SealedBid.Client.Config
import SealedBid.Client.EnvLoading
import SealedBid.Foundation.FailSafeRun
import SealedBid.Foundation.NumberValues
import SealedBid.Funding.UnshieldedHistory

/-!
# Funding a wallet

`ensureFunded` of `funding.ts`: it reads the wallet, runs the funding flow of the testkit, once more
without the faucet when that throws, and decides what a balance of zero means. The flow registers
the NIGHT of the wallet for dust, which makes the wallet read zero until the registration settles,
so a zero may be waited out (`awaitDustRegistrationSettlement`).

The function waits when the wallet held NIGHT at entry, or when the network has a faucet and the
first attempt did not throw. A wallet whose NIGHT arrived during a flow that threw, or on a network
without a faucet, is not waited for. The wait is cut off by a timer, and the settle timeout comes
from the environment as any number whatever: one that is no delay of a timer makes the wait end
after a millisecond (`timerDelay`). `neverCalledUnfunded_iff` says when a wallet that has NIGHT and
whose registration settles in time is called unfunded.

Scope. `waitForFunds` belongs to the testkit and is arbitrary: the two attempts return any balance
or throw. The states of the wallet after the flow arrive at times counted from the moment the
function starts to wait; times are whole milliseconds, and a state that is there at that moment has
time zero.
-/

set_option autoImplicit false
set_option relaxedAutoImplicit false

namespace SealedBid

open FailSafeRun

/-- What the function reads of the wallet's synced state. -/
structure FacadeState where
  balances : AList fun _ : String ↦ ℤ
  availableDustCoins : ℕ

/-- NIGHT the wallet's synced state currently shows. -/
def walletNightBalance (state : FacadeState) : ℤ := (state.balances.lookup NIGHT_TOKEN_TYPE).getD 0

/-- What happens around one call: the state of the wallet at entry, its states while the funding
flow runs, the outcome of each attempt for its `useFaucet` argument, and the states of the wallet
after the flow, each with its time. -/
structure FundingFlow where
  atEntry : FacadeState
  during : List FacadeState
  firstAttempt : Bool → Except String ℤ
  secondAttempt : Bool → Except String ℤ
  afterwards : List (ℕ × FacadeState)

inductive FundingError
  | unfunded (message : String)
  | flow (detail : String)
  deriving DecidableEq

/-- The NIGHT and spendable dust are both there. -/
def settledState (state : FacadeState) : Bool :=
  0 < walletNightBalance state ∧ 0 < state.availableDustCoins

/-- The settle timeout of the environment, in milliseconds. -/
def dustSettleTimeoutMs (env : ProcessEnv) : Number :=
  match env.lookup "MIDNIGHT_DUST_SETTLE_TIMEOUT_MS" with
  | some raw => .ofString raw
  | none => .ofRat 180000

/-- The milliseconds after which a timer fires: fractions of a delay are cut off, and a delay below
1 or above 2147483647 becomes 1. -/
def timerDelay (delay : Number) : ℕ :=
  match delay with
  | .finite x => if 1 ≤ x.value ∧ x.value ≤ 2147483647 then ⌊x.value⌋.toNat else 1
  | _ => 1

/-- The NIGHT balance of the first settled state that arrives before the timer of the timeout fires,
zero when there is none. -/
def awaitDustRegistrationSettlement (env : ProcessEnv) (states : List (ℕ × FacadeState)) : ℤ :=
  let timeout := dustSettleTimeoutMs env
  match states.find? fun arrival ↦ arrival.1 < timerDelay timeout ∧ settledState arrival.2 with
  | some (_, state) => walletNightBalance state
  | none => 0

def unfundedMessage (name : NetworkName) (faucetPage : String) : String :=
  "Wallet is unfunded on '" ++ name.toString ++ "'. Fund the address with tNIGHT via " ++
    faucetPage ++ " (the public drip API requires a browser-solved captcha), " ++
    "then re-run. The faucet must fill the unshielded address printed by " ++
    "scripts/derive-address.ts."

/-- The balance of the attempt that returns, and whether it is the first. -/
def runFundingFlow (config : NetworkConfig) (flow : FundingFlow) :
    Except FundingError (ℤ × Bool) :=
  let useFaucet := config.name ≠ .local
  match flow.firstAttempt useFaucet with
  | .ok balance => .ok (balance, true)
  | .error _ =>
    match flow.secondAttempt false with
    | .ok balance => .ok (balance, false)
    | .error detail => .error (.flow detail)

/-- The end of `ensureFunded`: a balance of zero is an error on networks with a faucet page. -/
def reportBalance (config : NetworkConfig) (balance : ℤ) : Except FundingError ℤ :=
  match config.faucetPage with
  | some faucetPage =>
    if balance = 0 ∧ faucetPage ≠ "" then
      .error (.unfunded (unfundedMessage config.name faucetPage))
    else .ok balance
  | none => .ok balance

/-- Ensure the wallet holds NIGHT. Returns the NIGHT balance observed after the attempt. -/
def ensureFunded (config : NetworkConfig) (env : ProcessEnv) (flow : FundingFlow) :
    Except FundingError ℤ := do
  let hadNight := 0 < walletNightBalance flow.atEntry
  let faucetAvailable := config.faucetApi ≠ none
  let (observed, fundingFlowSucceeded) ← runFundingFlow config flow
  let balance :=
    if observed = 0 ∧ (hadNight ∨ (faucetAvailable ∧ fundingFlowSucceeded)) then
      awaitDustRegistrationSettlement env flow.afterwards
    else observed
  reportBalance config balance

/-! ### Funded wallets -/

/-- The wallet showed NIGHT at entry, or NIGHT arrived in it during the funding flow. -/
def NightSeen (flow : FundingFlow) : Prop :=
  0 < walletNightBalance flow.atEntry ∨ ∃ state ∈ flow.during, 0 < walletNightBalance state

/-- A time is within a timeout: it is the start, or it comes before the timeout. -/
def withinTimeout (timeout : Number) (time : ℕ) : Bool :=
  match timeout with
  | .finite x => time = 0 ∨ (time : ℚ) < x.value
  | .infinity => true
  | _ => time = 0

/-- After the flow the wallet reaches a state with NIGHT and spendable dust within the timeout. -/
def SettlesInTime (timeout : Number) (flow : FundingFlow) : Prop :=
  ∃ arrival ∈ flow.afterwards, withinTimeout timeout arrival.1 = true ∧
    settledState arrival.2 = true

/-- After the flow the wallet reaches such a state before the timer of the timeout fires. -/
def SettlesBeforeTimer (timeout : Number) (flow : FundingFlow) : Prop :=
  ∃ arrival ∈ flow.afterwards, arrival.1 < timerDelay timeout ∧ settledState arrival.2 = true

/-- A funded wallet whose registration settles in time is called funded: the function does not
return zero and does not throw the error for unfunded wallets. -/
def NeverCalledUnfunded (config : NetworkConfig) (env : ProcessEnv) (flow : FundingFlow) : Prop :=
  NightSeen flow → SettlesInTime (dustSettleTimeoutMs env) flow →
    ensureFunded config env flow ≠ .ok 0 ∧
      ∀ message, ensureFunded config env flow ≠ .error (.unfunded message)

/-- The balance that the attempt that returns gives, when one returns. -/
def observedBalance (config : NetworkConfig) (flow : FundingFlow) : Option ℤ :=
  match flow.firstAttempt (config.name ≠ .local) with
  | .ok balance => some balance
  | .error _ => (flow.secondAttempt false).toOption

/-- A timer takes a whole number of milliseconds from 1 to 2147483647 as it is, so that what settles
within such a timeout settles before its timer fires, and the other way around. -/
theorem settlesInTime_iff {n : ℕ} (hpos : 1 ≤ n) (hle : n ≤ 2147483647) (flow : FundingFlow) :
    SettlesInTime (.ofRat n) flow ↔ SettlesBeforeTimer (.ofRat n) flow := by
  obtain ⟨x, hx, hvalue⟩ := Number.ofRat_natCast (show n ≤ 2 ^ 53 by omega)
  have hdelay : timerDelay (.finite x) = n := by
    rw [timerDelay, hvalue, if_pos ⟨by exact_mod_cast hpos, by exact_mod_cast hle⟩,
      Int.floor_natCast, Int.toNat_natCast]
  have hwithin : ∀ time : ℕ, withinTimeout (.finite x) time = true ↔ time < n := by
    intro time
    rw [withinTimeout, hvalue, decide_eq_true_eq, Nat.cast_lt]
    omega
  simp only [SettlesInTime, SettlesBeforeTimer, hx, hdelay, hwithin]

/-- Waiting ends with NIGHT exactly when the registration settles before the timer fires. -/
theorem awaitDustRegistrationSettlement_ne_zero_iff (env : ProcessEnv) (flow : FundingFlow) :
    awaitDustRegistrationSettlement env flow.afterwards ≠ 0 ↔
      SettlesBeforeTimer (dustSettleTimeoutMs env) flow := by
  unfold awaitDustRegistrationSettlement
  dsimp only
  cases hfound : flow.afterwards.find? fun arrival ↦
      arrival.1 < timerDelay (dustSettleTimeoutMs env) ∧ settledState arrival.2 with
  | none =>
    refine iff_of_false (fun hne ↦ hne rfl) ?_
    rintro ⟨arrival, hmem, htime, hsettled⟩
    have hnone := List.find?_eq_none.mp hfound arrival hmem
    simp [htime, hsettled] at hnone
  | some first =>
    have hfirst := List.find?_some hfound
    rw [decide_eq_true_eq] at hfirst
    have hnight : 0 < walletNightBalance first.2 := by
      have hsettled := hfirst.2
      rw [settledState, decide_eq_true_eq] at hsettled
      exact hsettled.1
    exact iff_of_true hnight.ne' ⟨first, List.mem_of_find?_eq_some hfound, hfirst⟩

/-- A balance is reported as zero or as an error exactly when it is zero. -/
theorem reportBalance_funded_iff (config : NetworkConfig) (balance : ℤ) :
    (reportBalance config balance ≠ .ok 0 ∧
      ∀ message, reportBalance config balance ≠ .error (.unfunded message)) ↔ balance ≠ 0 := by
  unfold reportBalance
  cases config.faucetPage with
  | none => simp
  | some faucetPage =>
    by_cases hzero : balance = 0
    · by_cases hpage : faucetPage = "" <;> simp [hzero, hpage]
    · simp [hzero]

/-- The balance after waiting is not zero exactly when it was not zero before, or the function waits
and the wait ends with NIGHT. -/
theorem balance_ne_zero_iff (awaited observed : ℤ) (waits : Prop) [Decidable waits] :
    (if observed = 0 ∧ waits then awaited else observed) ≠ 0 ↔
      observed ≠ 0 ∨ (waits ∧ awaited ≠ 0) := by
  by_cases hzero : observed = 0
  · by_cases hwaits : waits <;> simp [hzero, hwaits]
  · simp [hzero]

/-- Whether the function waits when the flow ends with a balance of zero. -/
def Waits (config : NetworkConfig) (flow : FundingFlow) (fundingFlowSucceeded : Bool) : Prop :=
  0 < walletNightBalance flow.atEntry ∨ (config.faucetApi ≠ none ∧ fundingFlowSucceeded = true)

/-- A flow that ends with a balance is called funded exactly when that balance is not zero, or the
function waits and the registration settles before the timer fires. -/
theorem funded_of_flow {config : NetworkConfig} {env : ProcessEnv} {flow : FundingFlow}
    {balance : ℤ} {fundingFlowSucceeded : Bool}
    (hflow : runFundingFlow config flow = .ok (balance, fundingFlowSucceeded)) :
    (ensureFunded config env flow ≠ .ok 0 ∧
      ∀ message, ensureFunded config env flow ≠ .error (.unfunded message)) ↔
      balance ≠ 0 ∨ (Waits config flow fundingFlowSucceeded ∧
        SettlesBeforeTimer (dustSettleTimeoutMs env) flow) := by
  simp only [ensureFunded, hflow, ok_bind]
  rw [reportBalance_funded_iff, balance_ne_zero_iff,
    awaitDustRegistrationSettlement_ne_zero_iff]
  rfl

/-- When a funded wallet is called funded. A wallet that has NIGHT, and whose registration settles
in time after the flow, is not called unfunded exactly when no attempt returned a balance of zero,
or the function waits and the registration settles before the timer of the timeout fires. It waits
when the wallet showed NIGHT at entry, or the network has a faucet and the first attempt returned.
For a timeout of a whole number of milliseconds from 1 to 2147483647, to settle in time is to settle
before the timer fires. -/
theorem neverCalledUnfunded_iff (config : NetworkConfig) (env : ProcessEnv) (flow : FundingFlow) :
    (NeverCalledUnfunded config env flow ↔
      (NightSeen flow → SettlesInTime (dustSettleTimeoutMs env) flow →
        observedBalance config flow ≠ some 0 ∨
          ((0 < walletNightBalance flow.atEntry ∨
            (config.faucetApi ≠ none ∧
              ∃ balance, flow.firstAttempt (config.name ≠ .local) = .ok balance)) ∧
            SettlesBeforeTimer (dustSettleTimeoutMs env) flow))) ∧
    (∀ n : ℕ, 1 ≤ n → n ≤ 2147483647 → dustSettleTimeoutMs env = .ofRat n →
      (SettlesInTime (dustSettleTimeoutMs env) flow ↔
        SettlesBeforeTimer (dustSettleTimeoutMs env) flow)) := by
  refine ⟨imp_congr_right fun _ ↦ imp_congr_right fun _ ↦ ?_, fun n hpos hle htimeout ↦ ?_⟩
  · cases hfirst : flow.firstAttempt (config.name ≠ .local) with
    | ok balance =>
      have hflow : runFundingFlow config flow = .ok (balance, true) := by
        simp only [runFundingFlow, hfirst]
      have hobserved : observedBalance config flow = some balance := by
        simp only [observedBalance, hfirst]
      rw [funded_of_flow hflow, hobserved]
      simp [Waits]
    | error reason =>
      cases hsecond : flow.secondAttempt false with
      | ok balance =>
        have hflow : runFundingFlow config flow = .ok (balance, false) := by
          simp only [runFundingFlow, hfirst, hsecond]
        have hobserved : observedBalance config flow = some balance := by
          simp only [observedBalance, hfirst, hsecond, Except.toOption]
        rw [funded_of_flow hflow, hobserved]
        simp [Waits]
      | error detail =>
        -- neither attempt returns, so the function ends with the error of the second one
        have hthrown : ensureFunded config env flow = .error (.flow detail) := by
          simp only [ensureFunded, runFundingFlow, hfirst, hsecond]
          rfl
        have hobserved : observedBalance config flow = none := by
          simp only [observedBalance, hfirst, hsecond, Except.toOption]
        simp [hthrown, hobserved]
  · rw [htimeout]
    exact settlesInTime_iff hpos hle flow

/-- A wallet state with some NIGHT and dust. -/
def walletWith (night : ℤ) (dustCoins : ℕ) : FacadeState :=
  ⟨AList.singleton NIGHT_TOKEN_TYPE night, dustCoins⟩

/-- On Preview, with the default settle timeout, a wallet is empty at entry, a drip lands during the
first attempt, which then throws, the second attempt returns zero, and the registration settles
after 50 milliseconds: the wallet is called unfunded. -/
theorem called_unfunded_after_drip :
    let flow : FundingFlow := ⟨walletWith 0 0, [walletWith 5000000000 0],
      fun _ ↦ .error "dust registration failed", fun _ ↦ .ok 0, [(50, walletWith 5000000000 1)]⟩
    NightSeen flow ∧ SettlesInTime (dustSettleTimeoutMs ∅) flow ∧
      ensureFunded previewConfig ∅ flow = .error (.unfunded
        (unfundedMessage .preview "https://midnight-tmnight-preview.nethermind.dev/")) ∧
      ¬ NeverCalledUnfunded previewConfig ∅ flow := by
  intro flow
  have hseen : NightSeen flow := Or.inr ⟨_, List.mem_cons_self, by decide +kernel⟩
  have hsettles : SettlesInTime (dustSettleTimeoutMs ∅) flow :=
    ⟨_, List.mem_cons_self, by decide +kernel, by decide +kernel⟩
  have hunfunded : ensureFunded previewConfig ∅ flow = .error (.unfunded
      (unfundedMessage .preview "https://midnight-tmnight-preview.nethermind.dev/")) := by
    decide +kernel
  exact ⟨hseen, hsettles, hunfunded, fun hnever ↦ (hnever hseen hsettles).2 _ hunfunded⟩

/-- With a timeout of 3000000000 milliseconds the wait is over after one, before the registration of
a wallet that held NIGHT at entry settles. -/
example :
    let flow : FundingFlow := ⟨walletWith 5000000000 0, [], fun _ ↦ .ok 0, fun _ ↦ .ok 0,
      [(50, walletWith 5000000000 1)]⟩
    let env : ProcessEnv := Finmap.singleton "MIDNIGHT_DUST_SETTLE_TIMEOUT_MS" "3000000000"
    timerDelay (dustSettleTimeoutMs env) = 1 ∧
      ensureFunded previewConfig env flow = .error (.unfunded
        (unfundedMessage .preview "https://midnight-tmnight-preview.nethermind.dev/")) := by
  decide +kernel

end SealedBid
