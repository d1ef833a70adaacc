import Mathlib.Data.Set.Function
import SealedBid.Contract.Calls

/-!
# What a separating hash gives

The three derivations hash vectors that start with different domains. Where the hash is injective
on the inputs in play, two secrets have different bidder identities and different auctioneer
identities, no bidder identity is an auctioneer identity, and a commitment determines the amount,
the nonce and the identity it was computed from.

Scope. The inputs in play are a set, `identityInputs` of the secrets of the participants or the
commitment inputs of the openings at hand, because no hash to 32 bytes is injective on all vectors
of byte strings. A hash that is injective everywhere is injective on each of these sets.
-/

set_option autoImplicit false
set_option relaxedAutoImplicit false

namespace SealedBid

/-- The hash inputs from which the identities of a set of secrets are derived. -/
def identityInputs (secrets : Set Bytes32) : Set (List Bytes32) :=
  {input | ∃ sk ∈ secrets,
    input = [pad 32 "sealedbid:bidder:v1", sk] ∨ input = [pad 32 "sealedbid:auctioneer:v1", sk]}

/-- The hash input of a commitment. -/
def commitmentInput (amount : Uint64) (nonce bidderId : Bytes32) : List Bytes32 :=
  [pad 32 "sealedbid:commit:v1", asBytes amount, nonce, bidderId]

theorem bidderDomain_ne_auctioneerDomain :
    pad 32 "sealedbid:bidder:v1" ≠ pad 32 "sealedbid:auctioneer:v1" := by
  decide +kernel

/-- A commitment input determines what was committed: the cast of the amount loses nothing. -/
theorem commitmentInput_inj {amount amount' : Uint64} {nonce nonce' bidderId bidderId' : Bytes32}
    (h : commitmentInput amount nonce bidderId = commitmentInput amount' nonce' bidderId') :
    amount = amount' ∧ nonce = nonce' ∧ bidderId = bidderId' := by
  simp only [commitmentInput, List.cons.injEq, true_and, and_true] at h
  exact ⟨asBytes_injective h.1, h.2.1, h.2.2⟩

variable {persistentHash : PersistentHash} {secrets : Set Bytes32} {sk other : Bytes32}

/-- Two secrets have different bidder identities. -/
theorem deriveBidderId_inj (hseparates : Set.InjOn persistentHash (identityInputs secrets))
    (hsk : sk ∈ secrets) (hother : other ∈ secrets) :
    deriveBidderId persistentHash sk = deriveBidderId persistentHash other ↔ sk = other := by
  refine ⟨fun h ↦ ?_, congrArg _⟩
  have hinput := hseparates ⟨sk, hsk, Or.inl rfl⟩ ⟨other, hother, Or.inl rfl⟩ h
  simpa using hinput

/-- Two secrets have different auctioneer identities. -/
theorem deriveAuctioneerId_inj (hseparates : Set.InjOn persistentHash (identityInputs secrets))
    (hsk : sk ∈ secrets) (hother : other ∈ secrets) :
    deriveAuctioneerId persistentHash sk = deriveAuctioneerId persistentHash other ↔
      sk = other := by
  refine ⟨fun h ↦ ?_, congrArg _⟩
  have hinput := hseparates ⟨sk, hsk, Or.inr rfl⟩ ⟨other, hother, Or.inr rfl⟩ h
  simpa using hinput

/-- No bidder identity is an auctioneer identity, even of the same secret. -/
theorem deriveBidderId_ne_deriveAuctioneerId
    (hseparates : Set.InjOn persistentHash (identityInputs secrets))
    (hsk : sk ∈ secrets) (hother : other ∈ secrets) :
    deriveBidderId persistentHash sk ≠ deriveAuctioneerId persistentHash other := by
  intro h
  have hinput := hseparates ⟨sk, hsk, Or.inl rfl⟩ ⟨other, hother, Or.inr rfl⟩ h
  exact bidderDomain_ne_auctioneerDomain (List.cons.inj hinput).1

/-- A commitment opens in one way only. Assumes: the hash is injective on a set that has both
inputs. -/
theorem computeCommitment_inj {inputs : Set (List Bytes32)}
    (hseparates : Set.InjOn persistentHash inputs) {amount amount' : Uint64}
    {nonce nonce' bidderId bidderId' : Bytes32}
    (hinput : commitmentInput amount nonce bidderId ∈ inputs)
    (hinput' : commitmentInput amount' nonce' bidderId' ∈ inputs)
    (h : computeCommitment persistentHash amount nonce bidderId =
      computeCommitment persistentHash amount' nonce' bidderId') :
    amount = amount' ∧ nonce = nonce' ∧ bidderId = bidderId' :=
  commitmentInput_inj (hseparates hinput hinput' h)

/-! ### The participants of the harness auctions -/

/-- The secrets of the auctioneer, of two bidders and of an outsider, and the zero key. -/
def harnessKeys : List Bytes32 := [key 0xa0, key 1, key 2, key 9, key 0]

/-- The sample hash separates the identities of the harness participants. -/
theorem sampleHash_separates : Set.InjOn sampleHash (identityInputs {sk | sk ∈ harnessKeys}) := by
  have hnodup : ((harnessKeys.flatMap fun sk ↦ [[pad 32 "sealedbid:bidder:v1", sk],
      [pad 32 "sealedbid:auctioneer:v1", sk]]).map sampleHash).Nodup := by
    decide +kernel
  have hlisted : ∀ input ∈ identityInputs {sk | sk ∈ harnessKeys},
      input ∈ harnessKeys.flatMap fun sk ↦ [[pad 32 "sealedbid:bidder:v1", sk],
        [pad 32 "sealedbid:auctioneer:v1", sk]] := by
    rintro input ⟨sk, hsk, hinput⟩
    exact List.mem_flatMap.mpr ⟨sk, hsk, by simpa using hinput⟩
  intro input hinput input' hinput' hsame
  exact List.inj_on_of_nodup_map hnodup (hlisted input hinput) (hlisted input' hinput') hsame

end SealedBid
