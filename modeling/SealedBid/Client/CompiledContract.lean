import SealedBid.Contract.Circuits
import SealedBid.Foundation.FailSafeRun

/-!
# The compiled contract as the client calls it

What stands between the client and the circuits: the private state and the witness that reads the
secret key from it (`witnesses.ts`), and the entry points that the Compact compiler generates
(`managed/sealed-bid/contract/index.js`). An entry point takes bigints; it throws a type error
unless every integer argument is in the range of its `Uint<64>` (`checkUint64`), and then runs the
circuit or the constructor.

Scope. Byte arrays have 32 bytes by their type here, so the length checks of the entry points have
no counterpart; nor have their checks of the number of arguments.
-/

set_option autoImplicit false
set_option relaxedAutoImplicit false

namespace SealedBid

open FailSafeRun

/-- The private, prover-local state of a participant. -/
structure SealedBidPrivateState where
  secretKey : Bytes32
  deriving DecidableEq

/-- The witness: the next private state, which is the same one, and the secret key. -/
def localSecretKey (privateState : SealedBidPrivateState) : SealedBidPrivateState × Bytes32 :=
  (privateState, privateState.secretKey)

/-- The errors of the compiled contract: an assertion that failed, with its message, or an argument
outside its type, with the function, the argument, the source location and the type. -/
inductive CompactError
  | failedAssert (message : String)
  | typeError (who what location type : String)
  deriving DecidableEq

/-- The check of an integer argument of type `Uint<64>`. -/
def checkUint64 (who what location : String) (x : ℤ) : Except CompactError Uint64 :=
  if h : 0 ≤ x ∧ x ≤ 18446744073709551615 then .ok ⟨x.toNat, by omega⟩
  else .error (.typeError who what location "Uint<0..18446744073709551616>")

variable (persistentHash : PersistentHash)

/-- `pureCircuits.computeCommitment`. -/
def PureCircuits.computeCommitment (amount : ℤ) (nonce bidderId : Bytes32) :
    Except CompactError Bytes32 := do
  let amount ← checkUint64 "computeCommitment" "argument 1" "sealed-bid.compact line 155 char 1"
    amount
  return SealedBid.computeCommitment persistentHash amount nonce bidderId

/-- `Contract.initialState`: the private state and the ledger after the constructor has run with
the secret key that the witness reads from the initial private state. -/
def initialState (initialPrivateState : SealedBidPrivateState)
    (reservePrice bidDeadline revealDeadline : ℤ) :
    Except CompactError (SealedBidPrivateState × Ledger) := do
  let reservePrice ← checkUint64 "Contract state constructor"
    "argument 1 (argument 2 as invoked from Typescript)" "sealed-bid.compact line 181 char 1"
    reservePrice
  let bidDeadline ← checkUint64 "Contract state constructor"
    "argument 2 (argument 3 as invoked from Typescript)" "sealed-bid.compact line 181 char 1"
    bidDeadline
  let revealDeadline ← checkUint64 "Contract state constructor"
    "argument 3 (argument 4 as invoked from Typescript)" "sealed-bid.compact line 181 char 1"
    revealDeadline
  let (privateState, sk) := localSecretKey initialPrivateState
  let ledger ← (constructor persistentHash sk reservePrice bidDeadline revealDeadline).mapError
    CompactError.failedAssert
  return (privateState, ledger)

/-! ### When an entry point accepts its arguments -/

theorem mapError_eq_ok_iff {ε ε' α : Type} {f : ε → ε'} {first : Except ε α} {result : α} :
    first.mapError f = .ok result ↔ first = .ok result := by
  cases first with
  | error error => simp [Except.mapError]
  | ok value => simp [Except.mapError]

/-- The check accepts exactly the integers of the type. -/
theorem checkUint64_eq_ok_iff {who what location : String} {x : ℤ} {y : Uint64} :
    checkUint64 who what location x = .ok y ↔ x = y.val := by
  unfold checkUint64
  split_ifs with hrange
  · rw [Except.ok.injEq, Fin.ext_iff]
    show x.toNat = y.val ↔ x = y.val
    omega
  · simp only [false_iff]
    intro hx
    have hy := y.isLt
    omega

@[simp] theorem checkUint64_val {who what location : String} (y : Uint64) :
    checkUint64 who what location y.val = .ok y :=
  checkUint64_eq_ok_iff.mpr rfl

variable {persistentHash}

/-- An accepted initial state is the ledger of an accepted constructor call with the secret key of
the private state, and the private state is unchanged. -/
theorem initialState_eq_ok_iff {privateState next : SealedBidPrivateState}
    {reservePrice bidDeadline revealDeadline : ℤ} {ledger : Ledger} :
    initialState persistentHash privateState reservePrice bidDeadline revealDeadline =
        .ok (next, ledger) ↔
      next = privateState ∧ ∃ reserve bidEnd revealEnd : Uint64,
        reservePrice = reserve.val ∧ bidDeadline = bidEnd.val ∧ revealDeadline = revealEnd.val ∧
          constructor persistentHash privateState.secretKey reserve bidEnd revealEnd =
            .ok ledger := by
  simp only [initialState, localSecretKey, bind_eq_ok_iff, checkUint64_eq_ok_iff,
    mapError_eq_ok_iff, pure, Except.pure, Except.ok.injEq, Prod.mk.injEq]
  constructor
  · rintro ⟨reserve, hreserve, bidEnd, hbidEnd, revealEnd, hrevealEnd, _, hok, rfl, rfl⟩
    exact ⟨rfl, reserve, bidEnd, revealEnd, hreserve, hbidEnd, hrevealEnd, hok⟩
  · rintro ⟨rfl, reserve, bidEnd, revealEnd, hreserve, hbidEnd, hrevealEnd, hok⟩
    exact ⟨reserve, hreserve, bidEnd, hbidEnd, revealEnd, hrevealEnd, ledger, hok, rfl, rfl⟩

end SealedBid
