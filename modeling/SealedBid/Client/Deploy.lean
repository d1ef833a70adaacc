import SealedBid.Auction.Authority
import SealedBid.Client.Commitments
import SealedBid.Contract.Identities

/-!
# Who controls a deployed auction

The deployment workflow of `deploy.ts` down to the ledger of the new auction: `deploySealedBid`
builds the providers of the wallet and hands `deployContract` the options with the initial private
state and the constructor arguments. `deployContract` belongs to the network library and is a
parameter; what is assumed of it is that a deployment that goes through ran the constructor with the
private state it was given (`RunsConstructor`).

The private state that the workflow installs holds 32 zero bytes, whatever the wallet. The
constructor derives the auctioneer identity from them, so the zero key closes and cancels every
deployed auction, and two deployers hold the same authority (`deployerControls_never`).

Scope. The wallet synchronisation, its funding, the confirmation by the indexer and the deployment
record neither read the private state nor change the ledger, and are left out.
-/

set_option autoImplicit false
set_option relaxedAutoImplicit false

namespace SealedBid

open FailSafeRun

/-- The secret of a wallet. -/
inductive WalletSecret
  | seed (value : String)
  | mnemonic (value : String)
  deriving DecidableEq

/-- The auction parameters that the workflow passes to the constructor. -/
structure AuctionParameters where
  reservePrice : ℤ
  bidDeadline : ℤ
  revealDeadline : ℤ
  deriving DecidableEq

/-- The options of `deployContract`. -/
structure DeployOptions where
  privateStateId : String
  initialPrivateState : SealedBidPrivateState
  args : AuctionParameters
  deriving DecidableEq

/-- The options that `deploySealedBid` passes. -/
def deployOptions (params : AuctionParameters) : DeployOptions where
  privateStateId := "SealedBidDeployerPrivateState"
  initialPrivateState := { secretKey := Vector.replicate 32 0 }
  args := params

/-- Deploy an auction with the providers of a wallet. -/
def deploySealedBid {Providers : Type} (buildProviders : WalletSecret → Providers)
    (deployContract : Providers → DeployOptions → Except CompactError Ledger)
    (secret : WalletSecret) (params : AuctionParameters) : Except CompactError Ledger :=
  let providers := buildProviders secret
  deployContract providers (deployOptions params)

/-- What the workflow relies on: a deployment that goes through ran the constructor with the initial
private state and the arguments of its options. -/
def RunsConstructor (persistentHash : PersistentHash) {Providers : Type}
    (deployContract : Providers → DeployOptions → Except CompactError Ledger) : Prop :=
  ∀ providers options ledger, deployContract providers options = .ok ledger →
    ∃ privateState, initialState persistentHash options.initialPrivateState
      options.args.reservePrice options.args.bidDeadline options.args.revealDeadline =
        .ok (privateState, ledger)

section Authority

variable {persistentHash : PersistentHash} {Providers : Type}
  {buildProviders : WalletSecret → Providers}
  {deployContract : Providers → DeployOptions → Except CompactError Ledger}
  {secret : WalletSecret} {params : AuctionParameters} {deployed : Ledger}

/-- A deployed auction is the result of an accepted constructor call with the zero key. -/
theorem constructor_of_deploy (hruns : RunsConstructor persistentHash deployContract)
    (hdeploy : deploySealedBid buildProviders deployContract secret params = .ok deployed) :
    ∃ reserve bidEnd revealEnd,
      constructor persistentHash zeroKey reserve bidEnd revealEnd = .ok deployed := by
  obtain ⟨privateState, hstate⟩ := hruns _ _ _ hdeploy
  obtain ⟨_, reserve, bidEnd, revealEnd, _, _, _, hconstructor⟩ :=
    initialState_eq_ok_iff.mp hstate
  exact ⟨reserve, bidEnd, revealEnd, hconstructor⟩

/-- The zero key closes a deployed auction as long as it is open, whatever was called before. -/
theorem zeroKey_closes (hruns : RunsConstructor persistentHash deployContract)
    (hdeploy : deploySealedBid buildProviders deployContract secret params = .ok deployed)
    {calls : List Call} (hphase : (run (exec persistentHash) deployed calls).phase = .bidding) :
    Succeeds (exec persistentHash) (run (exec persistentHash) deployed calls)
      ⟨zeroKey, .closeBidding⟩ := by
  obtain ⟨reserve, bidEnd, revealEnd, hconstructor⟩ := constructor_of_deploy hruns hdeploy
  exact ⟨_, closeBidding_eq_ok_iff.mpr ⟨auctioneer_of_run hconstructor calls, hphase, rfl⟩⟩

/-- The zero key cancels a deployed auction as long as no bid is placed, whatever was called
before. -/
theorem zeroKey_cancels (hruns : RunsConstructor persistentHash deployContract)
    (hdeploy : deploySealedBid buildProviders deployContract secret params = .ok deployed)
    {calls : List Call} (hphase : (run (exec persistentHash) deployed calls).phase = .bidding)
    (hcount : (run (exec persistentHash) deployed calls).bidCount = 0) :
    Succeeds (exec persistentHash) (run (exec persistentHash) deployed calls)
      ⟨zeroKey, .cancel⟩ := by
  obtain ⟨reserve, bidEnd, revealEnd, hconstructor⟩ := constructor_of_deploy hruns hdeploy
  exact ⟨_, cancel_eq_ok_iff.mpr
    ⟨auctioneer_of_run hconstructor calls, Or.inl hphase, hcount, rfl⟩⟩

/-- The zero key closes and cancels an auction that was just deployed. -/
theorem zeroKey_controls (hruns : RunsConstructor persistentHash deployContract)
    (hdeploy : deploySealedBid buildProviders deployContract secret params = .ok deployed) :
    Succeeds (exec persistentHash) deployed ⟨zeroKey, .closeBidding⟩ ∧
      Succeeds (exec persistentHash) deployed ⟨zeroKey, .cancel⟩ := by
  obtain ⟨reserve, bidEnd, revealEnd, hconstructor⟩ := constructor_of_deploy hruns hdeploy
  have hstart : deployed.phase = .bidding ∧ deployed.bidCount = 0 := by
    obtain ⟨_, _, rfl⟩ := constructor_eq_ok_iff.mp hconstructor
    exact ⟨rfl, rfl⟩
  have hempty : run (exec persistentHash) deployed [] = deployed := run_nil deployed
  rw [← hempty]
  exact ⟨zeroKey_closes hruns hdeploy hstart.1, zeroKey_cancels hruns hdeploy hstart.1 hstart.2⟩

end Authority

/-! ### Deployers and their auctions -/

section Deployers

variable (persistentHash : PersistentHash) {Providers : Type}
  (buildProviders : WalletSecret → Providers)
  (deployContract : Providers → DeployOptions → Except CompactError Ledger)

/-- The authority over the auction of the first wallet gives none over that of the second: a key
that closes and cancels the one is refused by both circuits on every ledger the other reaches. -/
def DeployersSeparated (first second : WalletSecret) (params : AuctionParameters) : Prop :=
  ∀ deployed deployed', deploySealedBid buildProviders deployContract first params = .ok deployed →
    deploySealedBid buildProviders deployContract second params = .ok deployed' →
      ∀ sk, Succeeds (exec persistentHash) deployed ⟨sk, .closeBidding⟩ →
        Succeeds (exec persistentHash) deployed ⟨sk, .cancel⟩ →
          ∀ calls,
            ¬ Succeeds (exec persistentHash) (run (exec persistentHash) deployed' calls)
              ⟨sk, .closeBidding⟩ ∧
            ¬ Succeeds (exec persistentHash) (run (exec persistentHash) deployed' calls)
              ⟨sk, .cancel⟩

/-- One key closes or cancels every auction that anybody deploys. -/
def CommonKey : Prop :=
  ∃ sk, ∀ secret params deployed,
    deploySealedBid buildProviders deployContract secret params = .ok deployed →
      Succeeds (exec persistentHash) deployed ⟨sk, .closeBidding⟩ ∨
        Succeeds (exec persistentHash) deployed ⟨sk, .cancel⟩

variable {persistentHash buildProviders deployContract}

/-- Deployed auctions are never controlled by their own deployer only. Assumes: a `deployContract`
that runs the constructor, and two wallet secrets whose deployments with the same parameters go
through. The zero key has authority over both auctions, and over every other; this holds for every
hash. -/
theorem deployerControls_never (hruns : RunsConstructor persistentHash deployContract)
    {first second : WalletSecret} {params : AuctionParameters} {deployed deployed' : Ledger}
    (hfirst : deploySealedBid buildProviders deployContract first params = .ok deployed)
    (hsecond : deploySealedBid buildProviders deployContract second params = .ok deployed') :
    ¬ DeployersSeparated persistentHash buildProviders deployContract first second params ∧
      CommonKey persistentHash buildProviders deployContract := by
  obtain ⟨hcloses, hcancels⟩ := zeroKey_controls hruns hfirst
  constructor
  · intro hseparated
    exact (hseparated deployed deployed' hfirst hsecond zeroKey hcloses hcancels []).1
      (zeroKey_controls hruns hsecond).1
  · refine ⟨zeroKey, fun secret params deployed hdeploy ↦ Or.inl ?_⟩
    exact (zeroKey_controls hruns hdeploy).1

/-- A network that deploys by running the constructor and keeps nothing of the wallet. -/
def localNetwork (_providers : WalletSecret) (options : DeployOptions) :
    Except CompactError Ledger := do
  let (_, ledger) ← initialState sampleHash options.initialPrivateState
    options.args.reservePrice options.args.bidDeadline options.args.revealDeadline
  return ledger

theorem runsConstructor_localNetwork : RunsConstructor sampleHash localNetwork := by
  intro providers options ledger hdeploy
  obtain ⟨⟨privateState, initial⟩, hstate, hledger⟩ := bind_eq_ok_iff.mp hdeploy
  obtain rfl := Except.ok.inj hledger
  exact ⟨privateState, hstate⟩

/-- The auction that the workflow deploys on the local network. -/
def deployedLedger : Ledger :=
  { harnessLedger with auctioneer := deriveAuctioneerId sampleHash zeroKey }

theorem deploySealedBid_local (secret : WalletSecret) :
    deploySealedBid id localNetwork secret ⟨100, 1000, 2000⟩ = .ok deployedLedger :=
  rfl

/-- Two wallets deploy on the local network, and one key has authority over both auctions. -/
theorem deployerControls_never_local :
    ¬ DeployersSeparated sampleHash id localNetwork (.seed "01") (.seed "02") ⟨100, 1000, 2000⟩ ∧
      CommonKey sampleHash id localNetwork :=
  deployerControls_never runsConstructor_localNetwork (deploySealedBid_local _)
    (deploySealedBid_local _)

/-- The wallets `01` and `02` deploy one auction each, over a hash that separates the identities of
the secrets at hand. The key in the private state of the first deployment closes and cancels the
second. -/
theorem deployers_share_key_local :
    (WalletSecret.seed "01") ≠ .seed "02" ∧
      Set.InjOn sampleHash (identityInputs {sk | sk ∈ harnessKeys}) ∧
      (localSecretKey (deployOptions ⟨100, 1000, 2000⟩).initialPrivateState).2 ∈ harnessKeys ∧
      deploySealedBid id localNetwork (.seed "01") ⟨100, 1000, 2000⟩ = .ok deployedLedger ∧
      deploySealedBid id localNetwork (.seed "02") ⟨100, 1000, 2000⟩ = .ok deployedLedger ∧
      ¬ DeployersSeparated sampleHash id localNetwork (.seed "01") (.seed "02")
        ⟨100, 1000, 2000⟩ := by
  refine ⟨by decide, sampleHash_separates, by decide, rfl, rfl, fun hseparated ↦ ?_⟩
  obtain ⟨hcloses, hcancels⟩ :=
    zeroKey_controls runsConstructor_localNetwork (deploySealedBid_local (.seed "01"))
  exact (hseparated _ _ rfl rfl zeroKey hcloses hcancels []).1 hcloses

end Deployers

end SealedBid
