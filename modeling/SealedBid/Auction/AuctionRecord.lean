import SealedBid.Contract.Circuits
import SealedBid.Foundation.LeadingEntry

/-!
# The abstract sealed-bid auction

What the contract is for, without its cells. An auction record holds the sealed bids in the order
in which they were registered and the openings in the order in which they were made, over arbitrary
types of identities, commitments and amounts. A record carries its own well-formedness: an identity
registers once, a commitment is registered once, an identity opens at most once and only after it
registered, nothing is opened while bids are collected, and an auction with a sealed bid is never
cancelled. The five operations take the guards as proofs, so no other record can be built.

The outcome is read off the openings. `valid` are the openings that meet the reserve, `leader` is
the first of those with the largest amount, and `award` is the leader once the auction is finalized.
`Step` is the labelled transition of one `Event`, and `Steps` a run of events; the lists of a record
are the events of its run (`Steps.sealedBids_eq`, `Steps.openings_eq`).
-/

set_option autoImplicit false
set_option relaxedAutoImplicit false

namespace SealedBid

/-- A sealed-bid auction: who sealed what and who opened what, in order. -/
structure AuctionRecord (Identity Commitment Amount : Type*) where
  phase : Phase
  reserve : Amount
  sealedBids : List (Identity × Commitment)
  openings : List (Identity × Amount)
  nodup_identities : (sealedBids.map Prod.fst).Nodup
  nodup_commitments : (sealedBids.map Prod.snd).Nodup
  nodup_openings : (openings.map Prod.fst).Nodup
  openings_sealed : ∀ bidder ∈ openings.map Prod.fst, bidder ∈ sealedBids.map Prod.fst
  bidding_unopened : phase = .bidding → openings = []
  cancelled_unsealed : phase = .cancelled → sealedBids = []

namespace AuctionRecord

variable {Identity Commitment Amount : Type*}

/-- The auction before any bid. -/
def start (reserve : Amount) : AuctionRecord Identity Commitment Amount where
  phase := .bidding
  reserve := reserve
  sealedBids := []
  openings := []
  nodup_identities := List.nodup_nil
  nodup_commitments := List.nodup_nil
  nodup_openings := List.nodup_nil
  openings_sealed := by simp
  bidding_unopened := fun _ ↦ rfl
  cancelled_unsealed := fun _ ↦ rfl

/-- A commitment is sealed by one identity. -/
theorem bidder_unique (record : AuctionRecord Identity Commitment Amount)
    {bidder other : Identity} {commitment : Commitment}
    (hbidder : (bidder, commitment) ∈ record.sealedBids)
    (hother : (other, commitment) ∈ record.sealedBids) : other = bidder :=
  congrArg Prod.fst (List.inj_on_of_nodup_map record.nodup_commitments hother hbidder rfl)

/-- An identity seals one commitment. -/
theorem commitment_unique (record : AuctionRecord Identity Commitment Amount)
    {bidder : Identity} {commitment other : Commitment}
    (hcommitment : (bidder, commitment) ∈ record.sealedBids)
    (hother : (bidder, other) ∈ record.sealedBids) : other = commitment :=
  congrArg Prod.snd (List.inj_on_of_nodup_map record.nodup_identities hother hcommitment rfl)

/-! ### Operations -/

/-- Register a sealed bid, of a new identity and with a new commitment, while bids are collected. -/
def placeBid (record : AuctionRecord Identity Commitment Amount) (bidder : Identity)
    (commitment : Commitment) (hphase : record.phase = .bidding)
    (hbidder : bidder ∉ record.sealedBids.map Prod.fst)
    (hcommitment : commitment ∉ record.sealedBids.map Prod.snd) :
    AuctionRecord Identity Commitment Amount where
  phase := record.phase
  reserve := record.reserve
  sealedBids := record.sealedBids ++ [(bidder, commitment)]
  openings := record.openings
  nodup_identities := by
    rw [List.map_append, List.map_singleton, ← List.concat_eq_append]
    exact List.Nodup.concat hbidder record.nodup_identities
  nodup_commitments := by
    rw [List.map_append, List.map_singleton, ← List.concat_eq_append]
    exact List.Nodup.concat hcommitment record.nodup_commitments
  nodup_openings := record.nodup_openings
  openings_sealed := by
    intro other hother
    rw [List.map_append]
    exact List.mem_append_left _ (record.openings_sealed other hother)
  bidding_unopened := record.bidding_unopened
  cancelled_unsealed := by
    intro hcancelled
    rw [hphase] at hcancelled
    cases hcancelled

/-- Stop collecting bids. -/
def closeBidding (record : AuctionRecord Identity Commitment Amount) :
    AuctionRecord Identity Commitment Amount where
  phase := .reveal
  reserve := record.reserve
  sealedBids := record.sealedBids
  openings := record.openings
  nodup_identities := record.nodup_identities
  nodup_commitments := record.nodup_commitments
  nodup_openings := record.nodup_openings
  openings_sealed := record.openings_sealed
  bidding_unopened := by simp
  cancelled_unsealed := by simp

/-- Record the opening of a registered identity that has not opened yet. -/
def revealBid (record : AuctionRecord Identity Commitment Amount) (bidder : Identity)
    (amount : Amount) (hphase : record.phase = .reveal)
    (hsealed : bidder ∈ record.sealedBids.map Prod.fst)
    (hfresh : bidder ∉ record.openings.map Prod.fst) :
    AuctionRecord Identity Commitment Amount where
  phase := record.phase
  reserve := record.reserve
  sealedBids := record.sealedBids
  openings := record.openings ++ [(bidder, amount)]
  nodup_identities := record.nodup_identities
  nodup_commitments := record.nodup_commitments
  nodup_openings := by
    rw [List.map_append, List.map_singleton, ← List.concat_eq_append]
    exact List.Nodup.concat hfresh record.nodup_openings
  openings_sealed := by
    intro other hother
    rw [List.map_append, List.mem_append] at hother
    rcases hother with hother | hother
    · exact record.openings_sealed other hother
    · rw [List.map_singleton, List.mem_singleton] at hother
      rwa [hother]
  bidding_unopened := by
    intro hbidding
    rw [hphase] at hbidding
    cases hbidding
  cancelled_unsealed := record.cancelled_unsealed

/-- Settle the auction. -/
def finalize (record : AuctionRecord Identity Commitment Amount) :
    AuctionRecord Identity Commitment Amount where
  phase := .finalized
  reserve := record.reserve
  sealedBids := record.sealedBids
  openings := record.openings
  nodup_identities := record.nodup_identities
  nodup_commitments := record.nodup_commitments
  nodup_openings := record.nodup_openings
  openings_sealed := record.openings_sealed
  bidding_unopened := by simp
  cancelled_unsealed := by simp

/-- Give up an auction that attracted no sealed bid. -/
def cancel (record : AuctionRecord Identity Commitment Amount) (hempty : record.sealedBids = []) :
    AuctionRecord Identity Commitment Amount where
  phase := .cancelled
  reserve := record.reserve
  sealedBids := record.sealedBids
  openings := record.openings
  nodup_identities := record.nodup_identities
  nodup_commitments := record.nodup_commitments
  nodup_openings := record.nodup_openings
  openings_sealed := record.openings_sealed
  bidding_unopened := by simp
  cancelled_unsealed := fun _ ↦ hempty

/-! ### Events and runs -/

/-- What a successful call does to the auction. -/
inductive Event (Identity Commitment Amount : Type*)
  | placed (bidder : Identity) (commitment : Commitment)
  | closed
  | opened (bidder : Identity) (amount : Amount)
  | settled
  | abandoned

/-- The sealed bid that an event registers. -/
def Event.placement? : Event Identity Commitment Amount → Option (Identity × Commitment)
  | .placed bidder commitment => some (bidder, commitment)
  | _ => none

/-- The opening that an event makes. -/
def Event.opening? : Event Identity Commitment Amount → Option (Identity × Amount)
  | .opened bidder amount => some (bidder, amount)
  | _ => none

/-- One event of the auction. -/
inductive Step : AuctionRecord Identity Commitment Amount → Event Identity Commitment Amount →
    AuctionRecord Identity Commitment Amount → Prop
  | placed {record : AuctionRecord Identity Commitment Amount} {bidder : Identity}
      {commitment : Commitment} (hphase : record.phase = .bidding)
      (hbidder : bidder ∉ record.sealedBids.map Prod.fst)
      (hcommitment : commitment ∉ record.sealedBids.map Prod.snd) :
      Step record (.placed bidder commitment)
        (record.placeBid bidder commitment hphase hbidder hcommitment)
  | closed {record : AuctionRecord Identity Commitment Amount} (hphase : record.phase = .bidding) :
      Step record .closed record.closeBidding
  | opened {record : AuctionRecord Identity Commitment Amount} {bidder : Identity} {amount : Amount}
      (hphase : record.phase = .reveal) (hsealed : bidder ∈ record.sealedBids.map Prod.fst)
      (hfresh : bidder ∉ record.openings.map Prod.fst) :
      Step record (.opened bidder amount) (record.revealBid bidder amount hphase hsealed hfresh)
  | settled {record : AuctionRecord Identity Commitment Amount}
      (hphase : record.phase = .reveal) : Step record .settled record.finalize
  | abandoned {record : AuctionRecord Identity Commitment Amount}
      (hphase : record.phase = .bidding ∨ record.phase = .reveal)
      (hempty : record.sealedBids = []) : Step record .abandoned (record.cancel hempty)

/-- A run of events, oldest first. -/
inductive Steps (first : AuctionRecord Identity Commitment Amount) :
    List (Event Identity Commitment Amount) → AuctionRecord Identity Commitment Amount → Prop
  | refl : Steps first [] first
  | concat {events : List (Event Identity Commitment Amount)}
      {middle last : AuctionRecord Identity Commitment Amount}
      {event : Event Identity Commitment Amount} (hsteps : Steps first events middle)
      (hstep : Step middle event last) : Steps first (events ++ [event]) last

theorem Step.sealedBids_eq {record next : AuctionRecord Identity Commitment Amount}
    {event : Event Identity Commitment Amount} (h : Step record event next) :
    next.sealedBids = record.sealedBids ++ event.placement?.toList := by
  cases h with
  | placed hphase hbidder hcommitment => rfl
  | closed hphase => exact (List.append_nil _).symm
  | opened hphase hsealed hfresh => exact (List.append_nil _).symm
  | settled hphase => exact (List.append_nil _).symm
  | abandoned hphase hempty => exact (List.append_nil _).symm

theorem Step.openings_eq {record next : AuctionRecord Identity Commitment Amount}
    {event : Event Identity Commitment Amount} (h : Step record event next) :
    next.openings = record.openings ++ event.opening?.toList := by
  cases h with
  | placed hphase hbidder hcommitment => exact (List.append_nil _).symm
  | closed hphase => exact (List.append_nil _).symm
  | opened hphase hsealed hfresh => rfl
  | settled hphase => exact (List.append_nil _).symm
  | abandoned hphase hempty => exact (List.append_nil _).symm

theorem Step.reserve_eq {record next : AuctionRecord Identity Commitment Amount}
    {event : Event Identity Commitment Amount} (h : Step record event next) :
    next.reserve = record.reserve := by
  cases h <;> rfl

/-- The sealed bids after a run are those before it and those its events registered. -/
theorem Steps.sealedBids_eq {first last : AuctionRecord Identity Commitment Amount}
    {events : List (Event Identity Commitment Amount)} (h : Steps first events last) :
    last.sealedBids = first.sealedBids ++ events.filterMap Event.placement? := by
  induction h with
  | refl => exact (List.append_nil _).symm
  | concat hsteps hstep ih =>
    rw [hstep.sealedBids_eq, ih, List.filterMap_append, List.append_assoc]
    rfl

/-- The openings after a run are those before it and those its events made. -/
theorem Steps.openings_eq {first last : AuctionRecord Identity Commitment Amount}
    {events : List (Event Identity Commitment Amount)} (h : Steps first events last) :
    last.openings = first.openings ++ events.filterMap Event.opening? := by
  induction h with
  | refl => exact (List.append_nil _).symm
  | concat hsteps hstep ih =>
    rw [hstep.openings_eq, ih, List.filterMap_append, List.append_assoc]
    rfl

theorem Steps.reserve_eq {first last : AuctionRecord Identity Commitment Amount}
    {events : List (Event Identity Commitment Amount)} (h : Steps first events last) :
    last.reserve = first.reserve := by
  induction h with
  | refl => rfl
  | concat hsteps hstep ih => rw [hstep.reserve_eq, ih]

/-! ### The outcome -/

variable [LinearOrder Amount]

/-- The openings that meet the reserve, in order. -/
def valid (record : AuctionRecord Identity Commitment Amount) : List (Identity × Amount) :=
  record.openings.filter fun opening ↦ record.reserve ≤ opening.2

/-- The first opening with the largest amount among those that meet the reserve. -/
def leader (record : AuctionRecord Identity Commitment Amount) : Option (Identity × Amount) :=
  record.valid.argmax Prod.snd

/-- The declared outcome: the leader, once the auction is finalized. -/
def award (record : AuctionRecord Identity Commitment Amount) : Option (Identity × Amount) :=
  if record.phase = .finalized then record.leader else none

theorem reserve_le_of_leader {record : AuctionRecord Identity Commitment Amount}
    {opening : Identity × Amount} (h : record.leader = some opening) :
    record.reserve ≤ opening.2 := by
  have hmem := List.argmax_mem h
  rw [valid, List.mem_filter] at hmem
  simpa using hmem.2

theorem leader_eq_none_iff (record : AuctionRecord Identity Commitment Amount) :
    record.leader = none ↔ record.valid = [] :=
  List.argmax_eq_none

theorem award_of_phase_ne {record : AuctionRecord Identity Commitment Amount}
    (h : record.phase ≠ .finalized) : record.award = none :=
  if_neg h

/-- An opening that meets the reserve joins the valid ones. -/
theorem valid_revealBid (record : AuctionRecord Identity Commitment Amount) (bidder : Identity)
    (amount : Amount) (hphase : record.phase = .reveal)
    (hsealed : bidder ∈ record.sealedBids.map Prod.fst)
    (hfresh : bidder ∉ record.openings.map Prod.fst) :
    (record.revealBid bidder amount hphase hsealed hfresh).valid =
      record.valid ++ if record.reserve ≤ amount then [(bidder, amount)] else [] := by
  show (record.openings ++ [(bidder, amount)]).filter
    (fun opening ↦ decide (record.reserve ≤ opening.2)) = _
  by_cases hreserve : record.reserve ≤ amount
  · simp [valid, List.filter_append, hreserve]
  · simp [valid, List.filter_append, hreserve]

/-- A new opening leads when it meets the reserve and exceeds the leader, if there is one. -/
theorem leader_revealBid (record : AuctionRecord Identity Commitment Amount) (bidder : Identity)
    (amount : Amount) (hphase : record.phase = .reveal)
    (hsealed : bidder ∈ record.sealedBids.map Prod.fst)
    (hfresh : bidder ∉ record.openings.map Prod.fst) :
    (record.revealBid bidder amount hphase hsealed hfresh).leader =
      if record.reserve ≤ amount ∧ ∀ best, record.leader = some best → best.2 < amount then
        some (bidder, amount)
      else record.leader := by
  rw [leader, valid_revealBid]
  by_cases hreserve : record.reserve ≤ amount
  · have hdef : record.valid.argmax Prod.snd = record.leader := rfl
    rw [if_pos hreserve, List.argmax_concat, hdef]
    cases hleader : record.leader with
    | none => simp [hreserve]
    | some best => simp [hreserve]
  · rw [if_neg hreserve, List.append_nil, if_neg fun h ↦ hreserve h.1]
    rfl

end AuctionRecord

end SealedBid
