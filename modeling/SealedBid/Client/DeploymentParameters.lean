import SealedBid.Client.Deploy
import SealedBid.Client.EnvLoading
import SealedBid.Foundation.NumberValues

/-!
# The parameters of a deployment

`resolveAuctionParameters` of `deploy.ts`: the three constructor arguments come from the process
environment, each from its own variable, or have a default. A variable that is set has to be a
non-negative integer (`envBigInt`), and that is all that the front end asks; it has no check of its
own of the ranges and of the order of the deadlines.

The contract checks these. What the front end lets through is accepted by the constructor exactly
when the numbers that are written fit, the reserve price is positive and the deadlines are in order
(`resolveAuctionParameters_accepted_iff`).

Scope. The time is an argument, as in the source; the clock that supplies it when it is left out is
not modelled.
-/

set_option autoImplicit false
set_option relaxedAutoImplicit false

namespace SealedBid

open DecimalNotation FailSafeRun

/-- A bigint of the environment. -/
def envBigInt (env : ProcessEnv) (name : String) (fallback : ℤ) : Except String ℤ :=
  match env.lookup name with
  | none => .ok fallback
  | some raw =>
    if raw = "" then .ok fallback
    else
      let digits := trim raw.toList
      if digits ≠ [] ∧ digits.all Char.isDigit then
        match bigintOfString (String.ofList digits) with
        | some value => .ok value
        | none => .error ("Cannot convert " ++ String.ofList digits ++ " to a BigInt")
      else .error (name ++ " must be a non-negative integer, got '" ++ raw ++ "'.")

def resolveAuctionParameters (env : ProcessEnv) (nowSeconds : ℤ) :
    Except String AuctionParameters := do
  let day := 86400
  let reservePrice ← envBigInt env "MIDNIGHT_RESERVE_PRICE" 1000
  let bidDeadline ← envBigInt env "MIDNIGHT_BID_DEADLINE" (nowSeconds + day)
  let revealDeadline ← envBigInt env "MIDNIGHT_REVEAL_DEADLINE" (nowSeconds + 2 * day)
  return { reservePrice, bidDeadline, revealDeadline }

/-! ### What the front end accepts -/

/-- A variable that is set to the digits of a number, between white space. -/
def Writes (env : ProcessEnv) (name : String) (n : ℕ) : Prop :=
  ∃ raw, env.lookup name = some raw ∧ raw ≠ "" ∧ readDigits (trim raw.toList) = some n

/-- The number of a variable, or the default of one that is not set or empty. -/
def IsParameter (env : ProcessEnv) (name : String) (fallback value : ℤ) : Prop :=
  ((env.lookup name = none ∨ env.lookup name = some "") ∧ value = fallback) ∨
    ∃ n : ℕ, Writes env name n ∧ value = n

/-- What holds of the default holds of the parameter when it holds of the number that is written. -/
theorem IsParameter.holds_iff {env : ProcessEnv} {name : String} {fallback value : ℤ}
    (h : IsParameter env name fallback value) {p : ℤ → Prop} (hfallback : p fallback) :
    p value ↔ ∀ n : ℕ, Writes env name n → p n := by
  rcases h with ⟨hunset, rfl⟩ | ⟨n, ⟨raw, hraw, hne, hread⟩, rfl⟩
  · refine iff_of_true hfallback fun n hwrites ↦ ?_
    obtain ⟨raw, hraw, hne, _⟩ := hwrites
    rcases hunset with hnone | hempty
    · rw [hnone] at hraw
      cases hraw
    · rw [hempty, Option.some.injEq] at hraw
      exact absurd hraw.symm hne
  · constructor
    · rintro hvalue m ⟨other, hother, _, hread'⟩
      rw [hraw, Option.some.injEq] at hother
      rw [← hother, hread, Option.some.injEq] at hread'
      rwa [← hread']
    · exact fun hwritten ↦ hwritten n ⟨raw, hraw, hne, hread⟩

/-- The front end takes a variable that is not set or empty, and the digits of a number. -/
theorem envBigInt_eq_ok_iff {env : ProcessEnv} {name : String} {fallback value : ℤ} :
    envBigInt env name fallback = .ok value ↔ IsParameter env name fallback value := by
  unfold envBigInt IsParameter Writes
  cases hraw : env.lookup name with
  | none => simp [eq_comm]
  | some raw =>
    by_cases hempty : raw = ""
    · simp [hempty, eq_comm]
    · cases hread : readDigits (trim raw.toList) with
      | some n =>
        have hdigits : trim raw.toList ≠ [] ∧ (trim raw.toList).all Char.isDigit :=
          digits_of_readDigits hread
        simp [hempty, hdigits, bigintOfString_of_readDigits hread, hread, eq_comm]
      | none =>
        have hdigits : ¬ (trim raw.toList ≠ [] ∧ (trim raw.toList).all Char.isDigit) :=
          fun hdigits ↦ by simp [readDigits, hdigits] at hread
        simp only [if_neg hempty, if_neg hdigits]
        simp [hempty, hread]

theorem resolveAuctionParameters_eq_ok_iff {env : ProcessEnv} {nowSeconds : ℤ}
    {params : AuctionParameters} :
    resolveAuctionParameters env nowSeconds = .ok params ↔
      IsParameter env "MIDNIGHT_RESERVE_PRICE" 1000 params.reservePrice ∧
        IsParameter env "MIDNIGHT_BID_DEADLINE" (nowSeconds + 86400) params.bidDeadline ∧
        IsParameter env "MIDNIGHT_REVEAL_DEADLINE" (nowSeconds + 172800)
          params.revealDeadline := by
  obtain ⟨reservePrice, bidDeadline, revealDeadline⟩ := params
  simp only [resolveAuctionParameters, bind_eq_ok_iff, envBigInt_eq_ok_iff, pure, Except.pure,
    Except.ok.injEq, AuctionParameters.mk.injEq]
  constructor
  · rintro ⟨_, hreserve, _, hbid, _, hreveal, rfl, rfl, rfl⟩
    exact ⟨hreserve, hbid, hreveal⟩
  · rintro ⟨hreserve, hbid, hreveal⟩
    exact ⟨_, hreserve, _, hbid, _, hreveal, rfl, rfl, rfl⟩

/-! ### What the constructor accepts -/

/-- The three fit in `Uint<64>` and pass the assertions of the constructor. -/
def MeetsConstructor (params : AuctionParameters) : Prop :=
  (0 ≤ params.reservePrice ∧ params.reservePrice < 2 ^ 64) ∧
    (0 ≤ params.bidDeadline ∧ params.bidDeadline < 2 ^ 64) ∧
    (0 ≤ params.revealDeadline ∧ params.revealDeadline < 2 ^ 64) ∧
    params.reservePrice > 0 ∧ params.revealDeadline > params.bidDeadline
  deriving Decidable

theorem initialState_ok_iff (persistentHash : PersistentHash) (privateState : SealedBidPrivateState)
    (params : AuctionParameters) :
    (∃ result, initialState persistentHash privateState params.reservePrice params.bidDeadline
      params.revealDeadline = .ok result) ↔ MeetsConstructor params := by
  simp only [Prod.exists, initialState_eq_ok_iff, constructor_eq_ok_iff]
  constructor
  · rintro ⟨_, _, rfl, reserve, bidEnd, revealEnd, hreserve, hbid, hreveal, hpos, horder, -⟩
    have hpos' : 0 < reserve.val := hpos
    have horder' : bidEnd.val < revealEnd.val := horder
    have hfits : reserve.val < 2 ^ 64 ∧ bidEnd.val < 2 ^ 64 ∧ revealEnd.val < 2 ^ 64 :=
      ⟨reserve.isLt, bidEnd.isLt, revealEnd.isLt⟩
    rw [MeetsConstructor, hreserve, hbid, hreveal]
    omega
  · rintro ⟨hreserve, hbid, hreveal, hpos, horder⟩
    refine ⟨privateState, _, rfl, ⟨params.reservePrice.toNat, by omega⟩,
      ⟨params.bidDeadline.toNat, by omega⟩, ⟨params.revealDeadline.toNat, by omega⟩,
      (Int.toNat_of_nonneg hreserve.1).symm, (Int.toNat_of_nonneg hbid.1).symm,
      (Int.toNat_of_nonneg hreveal.1).symm, ?_, ?_, rfl⟩
    · show 0 < params.reservePrice.toNat
      omega
    · show params.bidDeadline.toNat < params.revealDeadline.toNat
      omega

/-- A deployment that goes through had parameters that the constructor accepts. -/
theorem meetsConstructor_of_deploy {persistentHash : PersistentHash} {Providers : Type}
    {buildProviders : WalletSecret → Providers}
    {deployContract : Providers → DeployOptions → Except CompactError Ledger}
    (hruns : RunsConstructor persistentHash deployContract) {secret : WalletSecret}
    {params : AuctionParameters} {deployed : Ledger}
    (hdeploy : deploySealedBid buildProviders deployContract secret params = .ok deployed) :
    MeetsConstructor params := by
  obtain ⟨privateState, hstate⟩ := hruns _ _ _ hdeploy
  exact (initialState_ok_iff persistentHash _ params).mp ⟨_, hstate⟩

/-- When the constructor accepts what the front end lets through. Assumes: a time at which the
default deadlines fit in `Uint<64>`, and parameters that the front end returns. They are the numbers
that the variables hold, or the defaults; the constructor accepts them exactly when they meet its
checks, and they do so exactly when a reserve price that is written is positive and fits, a reveal
deadline that is written fits, and the bidding deadline is no negative number and is before the
reveal deadline. -/
theorem resolveAuctionParameters_accepted_iff {env : ProcessEnv} {nowSeconds : ℤ}
    {params : AuctionParameters} (hfit : nowSeconds + 172800 < 2 ^ 64)
    (hresolved : resolveAuctionParameters env nowSeconds = .ok params)
    (persistentHash : PersistentHash) (privateState : SealedBidPrivateState) :
    (IsParameter env "MIDNIGHT_RESERVE_PRICE" 1000 params.reservePrice ∧
      IsParameter env "MIDNIGHT_BID_DEADLINE" (nowSeconds + 86400) params.bidDeadline ∧
      IsParameter env "MIDNIGHT_REVEAL_DEADLINE" (nowSeconds + 172800) params.revealDeadline) ∧
    ((∃ result, initialState persistentHash privateState params.reservePrice params.bidDeadline
      params.revealDeadline = .ok result) ↔ MeetsConstructor params) ∧
    (MeetsConstructor params ↔
      (∀ n, Writes env "MIDNIGHT_RESERVE_PRICE" n → 0 < n ∧ n < 2 ^ 64) ∧
        (∀ n, Writes env "MIDNIGHT_REVEAL_DEADLINE" n → n < 2 ^ 64) ∧
        0 ≤ params.bidDeadline ∧ params.bidDeadline < params.revealDeadline) := by
  have hparameters := resolveAuctionParameters_eq_ok_iff.mp hresolved
  have hreserve := hparameters.1
  have hreveal := hparameters.2.2
  refine ⟨hparameters, initialState_ok_iff persistentHash privateState params, ?_⟩
  have hreserveWritten : (0 < params.reservePrice ∧ params.reservePrice < 2 ^ 64) ↔
      ∀ n : ℕ, Writes env "MIDNIGHT_RESERVE_PRICE" n → 0 < n ∧ n < 2 ^ 64 := by
    rw [@IsParameter.holds_iff _ _ _ _ hreserve (fun x ↦ 0 < x ∧ x < 2 ^ 64) (by norm_num)]
    norm_cast
  have hrevealWritten : params.revealDeadline < 2 ^ 64 ↔
      ∀ n : ℕ, Writes env "MIDNIGHT_REVEAL_DEADLINE" n → n < 2 ^ 64 := by
    rw [@IsParameter.holds_iff _ _ _ _ hreveal (fun x ↦ x < 2 ^ 64) hfit]
    norm_cast
  rw [← hreserveWritten, ← hrevealWritten, MeetsConstructor]
  omega

/-- A reserve price that is written between blanks, and the default deadlines. -/
theorem resolveAuctionParameters_accepted_written :
    (∃ result, initialState sampleHash ⟨zeroKey⟩ 250 1700086400 1700172800 = .ok result) ∧
      ∀ n, Writes (Finmap.insert "MIDNIGHT_RESERVE_PRICE" " 250 " ∅) "MIDNIGHT_RESERVE_PRICE" n →
        0 < n ∧ n < 2 ^ 64 := by
  have hresolved : resolveAuctionParameters (Finmap.insert "MIDNIGHT_RESERVE_PRICE" " 250 " ∅)
      1700000000 = .ok ⟨250, 1700086400, 1700172800⟩ := by
    decide +kernel
  have haccepted :=
    resolveAuctionParameters_accepted_iff (by norm_num) hresolved sampleHash ⟨zeroKey⟩
  exact ⟨haccepted.2.1.mpr (by decide), (haccepted.2.2.mp (by decide)).1⟩

/-- A reserve price of zero, a reserve price of 65 bits, and a bidding deadline four days ahead with
the default reveal deadline: the front end returns them, and the constructor accepts none of
them. -/
theorem resolveAuctionParameters_unchecked :
    (resolveAuctionParameters (Finmap.insert "MIDNIGHT_RESERVE_PRICE" "0" ∅) 1700000000 =
        .ok ⟨0, 1700086400, 1700172800⟩ ∧
      ¬ MeetsConstructor ⟨0, 1700086400, 1700172800⟩) ∧
    (resolveAuctionParameters
        (Finmap.insert "MIDNIGHT_RESERVE_PRICE" "18446744073709551616" ∅) 1700000000 =
        .ok ⟨18446744073709551616, 1700086400, 1700172800⟩ ∧
      ¬ MeetsConstructor ⟨18446744073709551616, 1700086400, 1700172800⟩) ∧
    (resolveAuctionParameters (Finmap.insert "MIDNIGHT_BID_DEADLINE" "1700345600" ∅) 1700000000 =
        .ok ⟨1000, 1700345600, 1700172800⟩ ∧
      ¬ MeetsConstructor ⟨1000, 1700345600, 1700172800⟩) := by
  refine ⟨⟨?_, by decide⟩, ⟨?_, by decide⟩, ⟨?_, by decide⟩⟩
  · decide +kernel
  · decide +kernel
  · decide +kernel

end SealedBid
