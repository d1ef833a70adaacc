import SealedBid.Auction.OutcomeOverRuns
import SealedBid.Auction.RevealLaw

/-!
# The order of the bids and of the reveals

An auction is a list of bids, the closing, a list of reveals and the settlement (`auctionCalls`).
Whether all its calls succeed depends on the two lists only as sets: `Fits` says so without their
order, and holds exactly of the auctions in which every call succeeds (`fits_of_runAll`,
`successes_of_fits`). The final ledgers of two orders agree in every cell but the best bidder and
the winner (`order_independence`), because each other cell is a function of the sealed bids and the
openings up to permutation.

Two reveals do not commute: the order decides which amounts become the best bid on the way, and
among equal amounts the first stays. The argument therefore goes through the auction record, where
the outcome is the leading opening of a list and not the end of a fold of updates.
-/

set_option autoImplicit false
set_option relaxedAutoImplicit false

namespace SealedBid

open FailSafeRun AuctionRecord LeadingEntry

/-! ### One auction -/

/-- The calls of one auction, in order. -/
def auctionCalls (bids : List Call) (close : Call) (reveals : List Call) (settle : Call) :
    List Call :=
  bids ++ [close] ++ reveals ++ [settle]

/-- The calls of one auction are of the circuits of their parts. -/
structure AuctionShape (bids : List Call) (close : Call) (reveals : List Call) (settle : Call) :
    Prop where
  bids_place : ∀ call ∈ bids, ∃ sealedBid, call.circuit = .placeBid sealedBid
  closes : close.circuit = .closeBidding
  reveals_open : ∀ call ∈ reveals, ∃ amount nonce, call.circuit = .revealBid amount nonce
  settles : settle.circuit = .finalize

/-- The calls of one auction fit together: the bids are of distinct identities and have distinct
commitments, the closing is by the auctioneer, and the reveals are of distinct identities and open
the commitments that these identities placed. -/
structure Fits (persistentHash : PersistentHash) (auctioneer : Bytes32) (bids : List Call)
    (close : Call) (reveals : List Call) : Prop where
  nodup_identities : ((placements persistentHash bids).map Prod.fst).Nodup
  nodup_commitments : ((placements persistentHash bids).map Prod.snd).Nodup
  authority : auctioneer = deriveAuctioneerId persistentHash close.secretKey
  nodup_reveals : ((openings persistentHash reveals).map Prod.fst).Nodup
  reveals_placed : ∀ call ∈ reveals, ∀ amount nonce, call.circuit = .revealBid amount nonce →
    PlacedBy persistentHash bids (call.bidder persistentHash)
      (computeCommitmentFor persistentHash amount nonce call.secretKey)

section Lists

variable {persistentHash : PersistentHash} {bids bids' reveals reveals' calls : List Call}
  {close settle call : Call} {auctioneer : Bytes32}

/-- The sealed bids of an auction are those of its bids. -/
theorem AuctionShape.placements_eq (hshape : AuctionShape bids close reveals settle) :
    placements persistentHash (auctionCalls bids close reveals settle) =
      placements persistentHash bids := by
  have hclose : placements persistentHash [close] = [] :=
    placements_eq_nil _ (by simp [hshape.closes])
  have hreveals : placements persistentHash reveals = [] := by
    refine placements_eq_nil _ fun call hmem sealedBid hcall ↦ ?_
    obtain ⟨amount, nonce, hreveal⟩ := hshape.reveals_open call hmem
    simp [hreveal] at hcall
  have hsettle : placements persistentHash [settle] = [] :=
    placements_eq_nil _ (by simp [hshape.settles])
  simp only [auctionCalls, placements_append, hclose, hreveals, hsettle, List.append_nil]

/-- Bids and the closing open nothing. -/
theorem AuctionShape.openings_bids_eq (hshape : AuctionShape bids close reveals settle) :
    openings persistentHash (bids ++ [close]) = [] := by
  refine openings_eq_nil _ fun call hmem amount nonce hcall ↦ ?_
  rcases List.mem_append.mp hmem with hmem | hmem
  · obtain ⟨sealedBid, hplace⟩ := hshape.bids_place call hmem
    simp [hplace] at hcall
  · rw [List.mem_singleton.mp hmem, hshape.closes] at hcall
    cases hcall

/-- The openings of an auction are those of its reveals. -/
theorem AuctionShape.openings_eq (hshape : AuctionShape bids close reveals settle) :
    openings persistentHash (auctionCalls bids close reveals settle) =
      openings persistentHash reveals := by
  have hsettle : openings persistentHash [settle] = [] :=
    openings_eq_nil _ (by simp [hshape.settles])
  rw [auctionCalls, openings_append, openings_append, hshape.openings_bids_eq, hsettle,
    List.append_nil, List.nil_append]

theorem AuctionShape.of_perm (hshape : AuctionShape bids close reveals settle)
    (hbids : bids.Perm bids') (hreveals : reveals.Perm reveals') :
    AuctionShape bids' close reveals' settle where
  bids_place := fun call hmem ↦ hshape.bids_place call (hbids.mem_iff.mpr hmem)
  closes := hshape.closes
  reveals_open := fun call hmem ↦ hshape.reveals_open call (hreveals.mem_iff.mpr hmem)
  settles := hshape.settles

/-- The order of the bids and of the reveals does not matter for fitting together. -/
theorem Fits.of_perm (hfits : Fits persistentHash auctioneer bids close reveals)
    (hbids : bids.Perm bids') (hreveals : reveals.Perm reveals') :
    Fits persistentHash auctioneer bids' close reveals' where
  nodup_identities := ((hbids.filterMap _).map _).nodup_iff.mp hfits.nodup_identities
  nodup_commitments := ((hbids.filterMap _).map _).nodup_iff.mp hfits.nodup_commitments
  authority := hfits.authority
  nodup_reveals := ((hreveals.filterMap _).map _).nodup_iff.mp hfits.nodup_reveals
  reveals_placed := by
    intro call hmem amount nonce hcall
    obtain ⟨placed, hplaced, hfound⟩ :=
      hfits.reveals_placed call (hreveals.mem_iff.mpr hmem) amount nonce hcall
    exact ⟨placed, hbids.mem_iff.mp hplaced, hfound⟩

end Lists

/-! ### When all calls of an auction succeed -/

section Success

variable {persistentHash : PersistentHash} {sk : Bytes32} {reserve bidEnd revealEnd : Uint64}
  {initial : Ledger} {bids reveals : List Call} {close settle : Call}

/-- Bids of distinct identities with distinct commitments all succeed. -/
theorem bids_succeed (h : constructor persistentHash sk reserve bidEnd revealEnd = .ok initial)
    (hbids : ∀ call ∈ bids, ∃ sealedBid, call.circuit = .placeBid sealedBid)
    (hidentities : ((placements persistentHash bids).map Prod.fst).Nodup)
    (hcommitments : ((placements persistentHash bids).map Prod.snd).Nodup) :
    successes (exec persistentHash) initial bids = bids ∧
      (run (exec persistentHash) initial bids).phase = .bidding := by
  induction bids using List.reverseRecOn with
  | nil =>
    obtain ⟨_, _, rfl⟩ := constructor_eq_ok_iff.mp h
    exact ⟨rfl, rfl⟩
  | append_singleton bids call ih =>
    obtain ⟨caller, circuit⟩ := call
    obtain ⟨sealedBid, hcall⟩ := hbids _ (List.mem_append_right _ List.mem_cons_self)
    obtain rfl : circuit = .placeBid sealedBid := hcall
    have hplacement : placements persistentHash [⟨caller, .placeBid sealedBid⟩] =
        [(deriveBidderId persistentHash caller, sealedBid)] := rfl
    rw [placements_append, hplacement, List.map_append, List.map_singleton,
      ← List.concat_eq_append, List.nodup_concat] at hidentities hcommitments
    obtain ⟨hall, hphase⟩ := ih (fun other hother ↦ hbids other (List.mem_append_left _ hother))
      hidentities.2 hcommitments.2
    obtain ⟨record, hrecord, _, hsealed, _⟩ := exists_represents_run h bids
    rw [hall] at hsealed
    have hok : exec persistentHash ⟨caller, .placeBid sealedBid⟩
        (run (exec persistentHash) initial bids) = .ok _ :=
      placeBid_eq_ok_iff.mpr ⟨hphase,
        (hrecord.mem_commitments_iff sealedBid).not.mpr (hsealed ▸ hcommitments.1),
        (hrecord.mem_bidderCommitment_iff _).not.mpr (hsealed ▸ hidentities.1), rfl⟩
    refine ⟨successes_concat_eq_self hall ⟨_, hok⟩, ?_⟩
    rw [run_concat, step_of_ok hok]
    exact hphase

/-- After the bids the closing by the auctioneer succeeds. -/
theorem close_succeeds (h : constructor persistentHash sk reserve bidEnd revealEnd = .ok initial)
    (hshape : AuctionShape bids close reveals settle)
    (hfits : Fits persistentHash initial.auctioneer bids close reveals) :
    successes (exec persistentHash) initial (bids ++ [close]) = bids ++ [close] ∧
      (run (exec persistentHash) initial (bids ++ [close])).phase = .reveal := by
  obtain ⟨hall, hphase⟩ :=
    bids_succeed h hshape.bids_place hfits.nodup_identities hfits.nodup_commitments
  have hextends : Extends initial (run (exec persistentHash) initial bids) :=
    run_extends initial bids
  obtain ⟨caller, circuit⟩ := close
  obtain rfl : circuit = .closeBidding := hshape.closes
  have hok : exec persistentHash ⟨caller, .closeBidding⟩ (run (exec persistentHash) initial bids) =
      .ok _ :=
    closeBidding_eq_ok_iff.mpr ⟨hextends.auctioneer_eq.trans hfits.authority, hphase, rfl⟩
  refine ⟨successes_concat_eq_self hall ⟨_, hok⟩, ?_⟩
  rw [run_concat, step_of_ok hok]

/-- After the closing, reveals of distinct identities that open what these identities placed all
succeed. -/
theorem reveals_succeed
    (h : constructor persistentHash sk reserve bidEnd revealEnd = .ok initial)
    (hshape : AuctionShape bids close reveals settle)
    (hfits : Fits persistentHash initial.auctioneer bids close reveals) :
    successes (exec persistentHash) initial (bids ++ [close] ++ reveals) =
        bids ++ [close] ++ reveals ∧
      (run (exec persistentHash) initial (bids ++ [close] ++ reveals)).phase = .reveal := by
  induction reveals using List.reverseRecOn with
  | nil =>
    rw [List.append_nil]
    exact close_succeeds h hshape hfits
  | append_singleton reveals call ih =>
    obtain ⟨caller, circuit⟩ := call
    obtain ⟨amount, nonce, hcall⟩ :=
      hshape.reveals_open _ (List.mem_append_right _ List.mem_cons_self)
    obtain rfl : circuit = .revealBid amount nonce := hcall
    have hnodup := hfits.nodup_reveals
    have hopening : openings persistentHash [⟨caller, .revealBid amount nonce⟩] =
        [(deriveBidderId persistentHash caller, amount)] := rfl
    rw [openings_append, hopening, List.map_append, List.map_singleton, ← List.concat_eq_append,
      List.nodup_concat] at hnodup
    have hopen : ∀ other ∈ reveals, ∃ amount nonce, other.circuit = .revealBid amount nonce :=
      fun other hother ↦ hshape.reveals_open other (List.mem_append_left _ hother)
    obtain ⟨hall, hphase⟩ := ih { hshape with reveals_open := hopen } { hfits with
      nodup_reveals := hnodup.2
      reveals_placed := fun other hother ↦
        hfits.reveals_placed other (List.mem_append_left _ hother) }
    have hopenable : Openable persistentHash caller amount nonce
        (run (exec persistentHash) initial (bids ++ [close] ++ reveals)) := by
      refine (openable_of_run_iff h _).mpr ⟨hphase, ?_, ?_⟩
      · rw [hall]
        obtain ⟨placed, hplaced, hfound⟩ := hfits.reveals_placed _
          (List.mem_append_right _ List.mem_cons_self) amount nonce rfl
        exact ⟨placed, List.mem_append_left _ (List.mem_append_left _ hplaced), hfound⟩
      · rw [hall, revealedBy_iff, openings_append, hshape.openings_bids_eq]
        exact hnodup.1
    have hsucceeds := succeeds_revealBid_iff.mpr hopenable
    rw [← List.append_assoc]
    refine ⟨successes_concat_eq_self hall hsucceeds, ?_⟩
    rw [run_concat]
    obtain ⟨_, _, _, hnext⟩ := revealBid_eq_ok_iff.mp hsucceeds.exec_eq
    rw [hnext, recordReveal_eq]
    exact hphase

/-- An auction that fits together succeeds, and is finalized. -/
theorem runAll_of_fits
    (h : constructor persistentHash sk reserve bidEnd revealEnd = .ok initial)
    (hshape : AuctionShape bids close reveals settle)
    (hfits : Fits persistentHash initial.auctioneer bids close reveals) :
    ∃ final, runAll (exec persistentHash) initial (auctionCalls bids close reveals settle) =
      .ok final ∧ final.phase = .finalized := by
  obtain ⟨hall, hphase⟩ := reveals_succeed h hshape hfits
  obtain ⟨caller, circuit⟩ := settle
  obtain rfl : circuit = .finalize := hshape.settles
  have hok : exec persistentHash ⟨caller, .finalize⟩
      (run (exec persistentHash) initial (bids ++ [close] ++ reveals)) = .ok _ :=
    finalize_eq_ok_iff.mpr ⟨hphase, rfl⟩
  refine ⟨_, runAll_eq_ok_iff.mpr ⟨successes_concat_eq_self hall ⟨_, hok⟩, rfl⟩, ?_⟩
  rw [auctionCalls, run_concat, step_of_ok hok]

/-- An auction in which all calls succeed fits together. -/
theorem fits_of_runAll
    (h : constructor persistentHash sk reserve bidEnd revealEnd = .ok initial)
    (hshape : AuctionShape bids close reveals settle) {final : Ledger}
    (hok : runAll (exec persistentHash) initial (auctionCalls bids close reveals settle) =
      .ok final) :
    Fits persistentHash initial.auctioneer bids close reveals := by
  obtain ⟨hall, _⟩ := runAll_eq_ok_iff.mp hok
  obtain ⟨record, _, _, hsealed, hopenings⟩ :=
    exists_represents_run h (auctionCalls bids close reveals settle)
  rw [hall, hshape.placements_eq] at hsealed
  rw [hall, hshape.openings_eq] at hopenings
  exact {
    nodup_identities := hsealed ▸ record.nodup_identities
    nodup_commitments := hsealed ▸ record.nodup_commitments
    authority := by
      have hmem : close ∈ successes (exec persistentHash) initial
          (auctionCalls bids close reveals settle) := by
        rw [hall]
        simp [auctionCalls]
      obtain ⟨before, _, _, next, hnext⟩ := mem_successes_iff.mp hmem
      have hextends : Extends initial (run (exec persistentHash) initial before) :=
        run_extends initial before
      obtain ⟨caller, circuit⟩ := close
      obtain rfl : circuit = .closeBidding := hshape.closes
      rw [← hextends.auctioneer_eq]
      exact (closeBidding_eq_ok_iff.mp hnext).1
    nodup_reveals := hopenings ▸ record.nodup_openings
    reveals_placed := by
      intro call hmem amount nonce hcall
      have hsuccess : call ∈ successes (exec persistentHash) initial
          (auctionCalls bids close reveals settle) := by
        rw [hall]
        simp [auctionCalls, hmem]
      have hplaced := (placedBy_of_revealed h hsuccess hcall).1
      rw [hall, PlacedBy, ← mem_placements_iff, hshape.placements_eq, mem_placements_iff] at hplaced
      exact hplaced }

end Success

/-! ### Ledgers of reordered records -/

namespace Represents

variable {ledger other : Ledger} {record reordered : AuctionRecord Bytes32 Bytes32 Uint64}

/-- A commitment is revealed when the identity that sealed it has opened. -/
theorem mem_revealedCommitments_iff (h : Represents ledger record) (commitment : Bytes32) :
    commitment ∈ ledger.revealedCommitments ↔
      ∃ bidder, (bidder, commitment) ∈ record.sealedBids ∧
        bidder ∈ record.openings.map Prod.fst := by
  constructor
  · intro hrevealed
    have hregistered := (h.mem_commitments_iff commitment).mp
      (h.revealed_registered commitment hrevealed)
    obtain ⟨⟨bidder, _⟩, hsealed, rfl⟩ := List.mem_map.mp hregistered
    exact ⟨bidder, hsealed, (h.mem_revealed_iff _ _ hsealed).mp hrevealed⟩
  · rintro ⟨bidder, hsealed, hopened⟩
    exact (h.mem_revealed_iff _ _ hsealed).mpr hopened

/-- The openings that meet the reserve are reordered with the openings. -/
theorem valid_perm (hreserve : record.reserve = reordered.reserve)
    (hopenings : record.openings.Perm reordered.openings) : record.valid.Perm reordered.valid := by
  unfold valid
  rw [hreserve]
  exact hopenings.filter _

/-- The cells that count and collect, and the amounts, do not depend on the order. -/
theorem eq_of_perm (h : Represents ledger record) (hother : Represents other reordered)
    (hphase : record.phase = reordered.phase) (hreserve : record.reserve = reordered.reserve)
    (hsealed : record.sealedBids.Perm reordered.sealedBids)
    (hopenings : record.openings.Perm reordered.openings)
    (hauctioneer : other.auctioneer = ledger.auctioneer)
    (hbidDeadline : other.bidDeadline = ledger.bidDeadline)
    (hrevealDeadline : other.revealDeadline = ledger.revealDeadline) :
    other = { ledger with highestBidder := other.highestBidder, winner := other.winner } := by
  have hvalid := valid_perm hreserve hopenings
  have hamount : record.leader.map Prod.snd = reordered.leader.map Prod.snd :=
    argmax_map_value_of_perm hvalid
  have haward : record.award.map Prod.snd = reordered.award.map Prod.snd := by
    unfold award
    rw [hphase]
    split_ifs
    · exact hamount
    · rfl
  refine Ledger.ext ?_ hauctioneer ?_ hbidDeadline hrevealDeadline ?_ ?_ ?_ ?_ rfl rfl ?_ ?_ ?_
  · rw [hother.phase_eq, ← hphase, h.phase_eq]
  · rw [hother.reserve_eq, ← hreserve, h.reserve_eq]
  · exact (h.registered.eq_of_perm hother.registered (hsealed.map _)).symm
  · exact (h.bidders.eq_of_perm hother.bidders hsealed).symm
  · ext commitment
    rw [hother.mem_revealedCommitments_iff, h.mem_revealedCommitments_iff]
    simp only [hsealed.mem_iff, (hopenings.map Prod.fst).mem_iff]
  · rw [hother.highestBid_eq, ← hamount, h.highestBid_eq]
  · rw [hother.winningAmount_eq, ← haward, h.winningAmount_eq]
  · rw [hother.bidCount_eq, ← hsealed.length_eq, h.bidCount_eq]
  · rw [hother.validRevealCount_eq, ← hvalid.length_eq, h.validRevealCount_eq]

/-- The best bidder and the winner do not depend on the order either, when the openings with the
largest amount are of one bidder. -/
theorem bidder_eq_of_perm (h : Represents ledger record) (hother : Represents other reordered)
    (hphase : record.phase = reordered.phase) (hreserve : record.reserve = reordered.reserve)
    (hopenings : record.openings.Perm reordered.openings)
    (hunique : ∀ first ∈ record.valid, ∀ second ∈ record.valid,
      (∀ opening ∈ record.valid, opening.2 ≤ first.2) →
        (∀ opening ∈ record.valid, opening.2 ≤ second.2) → first.1 = second.1) :
    other.highestBidder = ledger.highestBidder ∧ other.winner = ledger.winner := by
  have hbidder : record.leader.map Prod.fst = reordered.leader.map Prod.fst :=
    argmax_map_label_of_perm (valid_perm hreserve hopenings) hunique
  have haward : record.award.map Prod.fst = reordered.award.map Prod.fst := by
    unfold award
    rw [hphase]
    split_ifs
    · exact hbidder
    · rfl
  exact ⟨by rw [hother.highestBidder_eq, ← hbidder, h.highestBidder_eq],
    by rw [hother.winner_eq, ← haward, h.winner_eq]⟩

end Represents

/-! ### The two orders -/

section Orders

variable {persistentHash : PersistentHash} {sk : Bytes32} {reserve bidEnd revealEnd : Uint64}
  {initial final : Ledger} {bids bids' reveals reveals' : List Call} {close settle : Call}

/-- The record of an auction in which all calls succeed. -/
theorem exists_represents_runAll
    (h : constructor persistentHash sk reserve bidEnd revealEnd = .ok initial)
    (hshape : AuctionShape bids close reveals settle)
    (hok : runAll (exec persistentHash) initial (auctionCalls bids close reveals settle) =
      .ok final) :
    ∃ record, Represents final record ∧ record.reserve = reserve ∧
      record.sealedBids = placements persistentHash bids ∧
      record.openings = openings persistentHash reveals ∧ Extends initial final := by
  obtain ⟨hall, rfl⟩ := runAll_eq_ok_iff.mp hok
  obtain ⟨record, hrecord, hreserve, hsealed, hopenings⟩ :=
    exists_represents_run h (auctionCalls bids close reveals settle)
  rw [hall, hshape.placements_eq] at hsealed
  rw [hall, hshape.openings_eq] at hopenings
  exact ⟨record, hrecord, hreserve, hsealed, hopenings, run_extends initial _⟩

/-- The order of the bids and of the reveals. Assumes: an accepted constructor call, an auction in
which all calls succeed, and its bids and its reveals in any other order. All calls succeed in the
other order as well, and the final ledgers agree in every cell but the best bidder and the winner;
they agree in these too when the openings with the largest amount that meets the reserve are of one
bidder; and in the other order the winner is the first of them. -/
theorem order_independence
    (h : constructor persistentHash sk reserve bidEnd revealEnd = .ok initial)
    (hshape : AuctionShape bids close reveals settle)
    (hok : runAll (exec persistentHash) initial (auctionCalls bids close reveals settle) =
      .ok final)
    (hbids : bids.Perm bids') (hreveals : reveals.Perm reveals') :
    let valid := (openings persistentHash reveals).filter fun opening ↦ reserve ≤ opening.2
    let valid' := (openings persistentHash reveals').filter fun opening ↦ reserve ≤ opening.2
    ∃ final', runAll (exec persistentHash) initial (auctionCalls bids' close reveals' settle) =
        .ok final' ∧
      final' = { final with highestBidder := final'.highestBidder, winner := final'.winner } ∧
      ((∀ first ∈ valid, ∀ second ∈ valid, (∀ opening ∈ valid, opening.2 ≤ first.2) →
          (∀ opening ∈ valid, opening.2 ≤ second.2) → first.1 = second.1) →
        final'.highestBidder = final.highestBidder ∧ final'.winner = final.winner) ∧
      (valid' ≠ [] → ∃ before after,
        valid' = before ++ (final'.highestBidder, final'.highestBid) :: after ∧
          (∀ opening ∈ before, opening.2 < final'.highestBid) ∧
          (∀ opening ∈ after, opening.2 ≤ final'.highestBid) ∧
          final'.winner = some final'.highestBidder) := by
  intro valid valid'
  have hshape' := hshape.of_perm hbids hreveals
  have hfits := (fits_of_runAll h hshape hok).of_perm hbids hreveals
  obtain ⟨final', hok', hfinalized'⟩ := runAll_of_fits h hshape' hfits
  obtain ⟨_, hagain, hfinalized⟩ := runAll_of_fits h hshape (fits_of_runAll h hshape hok)
  obtain rfl := Except.ok.inj (hok.symm.trans hagain)
  obtain ⟨record, hrecord, hreserve, hsealed, hopenings, hextends⟩ :=
    exists_represents_runAll h hshape hok
  obtain ⟨record', hrecord', hreserve', hsealed', hopenings', hextends'⟩ :=
    exists_represents_runAll h hshape' hok'
  have hphase : record.phase = record'.phase := by
    rw [← hrecord.phase_eq, ← hrecord'.phase_eq, hfinalized, hfinalized']
  have hsame : record.reserve = record'.reserve := by rw [hreserve, hreserve']
  have hsealedPerm : record.sealedBids.Perm record'.sealedBids := by
    rw [hsealed, hsealed']
    exact hbids.filterMap _
  have hopeningsPerm : record.openings.Perm record'.openings := by
    rw [hopenings, hopenings']
    exact hreveals.filterMap _
  have hvalid : record.valid = valid := by rw [AuctionRecord.valid, hopenings, hreserve]
  have hvalid' : record'.valid = valid' := by rw [AuctionRecord.valid, hopenings', hreserve']
  refine ⟨final', hok', ?_, ?_, ?_⟩
  · exact hrecord.eq_of_perm hrecord' hphase hsame hsealedPerm hopeningsPerm
      (by rw [hextends'.auctioneer_eq, hextends.auctioneer_eq])
      (by rw [hextends'.bidDeadline_eq, hextends.bidDeadline_eq])
      (by rw [hextends'.revealDeadline_eq, hextends.revealDeadline_eq])
  · intro hunique
    rw [← hvalid] at hunique
    exact hrecord.bidder_eq_of_perm hrecord' hphase hsame hopeningsPerm hunique
  · rw [← hvalid']
    intro hsome
    obtain ⟨before, after, hsplit, hbefore, hafter⟩ := hrecord'.valid_split hsome
    exact ⟨before, after, hsplit, hbefore, hafter,
      (hrecord'.outcome_of_finalized hfinalized' hsome).1⟩

/-- Two bids of the harness auction are placed and opened in the other order. -/
theorem order_independence_harness :
    ∃ final', runAll (exec sampleHash) harnessLedger
        (auctionCalls [commitCall 2 250, commitCall 1 150] closeCall
          [revealCall 2 250, revealCall 1 150] (finalizeCall 9)) = .ok final' ∧
      final'.winner = (run (exec sampleHash) harnessLedger
        (auctionCalls [commitCall 1 150, commitCall 2 250] closeCall
          [revealCall 1 150, revealCall 2 250] (finalizeCall 9))).winner := by
  have hshape : AuctionShape [commitCall 1 150, commitCall 2 250] closeCall
      [revealCall 1 150, revealCall 2 250] (finalizeCall 9) := {
    bids_place := by simp [commitCall]
    closes := rfl
    reveals_open := by simp [revealCall]
    settles := rfl }
  obtain ⟨final', hok, _, hsame, _⟩ := order_independence harnessLedger_eq hshape
    (runAll_eq_ok_iff.mpr ⟨by decide +kernel, rfl⟩) (List.Perm.swap _ _ _) (List.Perm.swap _ _ _)
  exact ⟨final', hok, (hsame (by decide +kernel)).2⟩

end Orders

end SealedBid
