import LedgerGovernance.Proofs.Runs
import Mathlib.Data.List.Nodup
import Mathlib.Data.Nat.Find

/-! What ids address. An id is the digest of what a proposal or an operation was made from,
and a lookup returns the first one that has the id. The index is part of what is digested, so
no two are made from the same; but a digest of 31 bits does not tell everything apart, and
nothing else keeps an id from being taken twice. So the ids address what they name exactly
where the digests differ. -/

namespace LedgerGovernance

/-! ## Lookups -/

/-- How things are found by their ids: each id is the digest of its thing, the things are
numbered from zero on, and among those with one id the first is found. -/
structure Addressing {α : Type} (things : List α) (index id : α → Nat)
    (digest : α → Outcome Nat) (find : Nat → Outcome Nat) : Prop where
  numbered : things.map index = List.range things.length
  digest_eq : ∀ thing ∈ things, digest thing = .ok (id thing)
  first : ∀ thing ∈ things, ∃ found ∈ things, find (id thing) = .ok (index found) ∧
    id found = id thing ∧ ∀ other ∈ things, id other = id thing → index found ≤ index other
  nodup_iff_digests : (things.map id).Nodup ↔ (things.map digest).Nodup
  nodup_iff_found : (things.map id).Nodup ↔
    ∀ thing ∈ things, find (id thing) = .ok (index thing)

/-- A search that tries the places in order finds the first place of an id. -/
theorem find?_range_eq_some {ids : List Nat} {text : Nat → Option Text}
    (text_eq : ∀ place, text place = ids[place]?.map Text.decimal) {id place : Nat} :
    ((List.range ids.length).find? fun place => text place == some (Text.decimal id)) =
        some place ↔
      ids[place]? = some id ∧ ∀ earlier < place, ids[earlier]? ≠ some id := by
  have test (place : Nat) : (text place == some (Text.decimal id)) = true ↔
      ids[place]? = some id := by
    rw [beq_iff_eq, text_eq, ← Option.map_some,
      (Option.map_injective Text.decimal_injective).eq_iff]
  rw [List.find?_range_eq_some]
  simp only [Bool.not_eq_true', ← Bool.not_eq_true, test, List.mem_range]
  constructor
  · rintro ⟨here, -, before⟩
    exact ⟨here, before⟩
  · rintro ⟨here, before⟩
    exact ⟨here, (List.getElem?_eq_some_iff.mp here).1, before⟩

section

variable {α : Type} {things : List α} {index id : α → Nat} {digest : α → Outcome Nat}
  {find : Nat → Outcome Nat}

/-- Things that are numbered from zero on stand at their numbers. -/
theorem getElem?_of_numbered (numbered : things.map index = List.range things.length)
    {thing : α} {place : Nat} (found : things[place]? = some thing) : index thing = place := by
  have inside := (List.getElem?_eq_some_iff.mp found).1
  have same : (things.map index)[place]? = (List.range things.length)[place]? := by
    rw [numbered]
  rw [List.getElem?_map, found, List.getElem?_range inside] at same
  exact Option.some.inj same

theorem Addressing.of_find (numbered : things.map index = List.range things.length)
    (digest_eq : ∀ thing ∈ things, digest thing = .ok (id thing))
    (find_eq_ok : ∀ wanted place, find wanted = .ok place ↔
      (things.map id)[place]? = some wanted ∧
        ∀ earlier < place, (things.map id)[earlier]? ≠ some wanted) :
    Addressing things index id digest find := by
  have identified {place : Nat} {thing : α} (found : things[place]? = some thing) :
      (things.map id)[place]? = some (id thing) := by
    rw [List.getElem?_map, found, Option.map_some]
  constructor
  case numbered => exact numbered
  case digest_eq => exact digest_eq
  case first =>
    intro thing member
    rcases List.mem_iff_getElem?.mp member with ⟨place, placed⟩
    have taken : ∃ place, (things.map id)[place]? = some (id thing) :=
      ⟨place, identified placed⟩
    have least := Nat.find_spec taken
    have found := (find_eq_ok _ _).mpr ⟨least, fun earlier before => Nat.find_min taken before⟩
    rw [List.getElem?_map] at least
    rcases Option.map_eq_some_iff.mp least with ⟨first, firstPlaced, same⟩
    refine ⟨first, List.mem_of_getElem? firstPlaced, ?_, same, fun other otherMember equal => ?_⟩
    · rw [found, getElem?_of_numbered numbered firstPlaced]
    · rcases List.mem_iff_getElem?.mp otherMember with ⟨otherPlace, otherPlaced⟩
      rw [getElem?_of_numbered numbered firstPlaced, getElem?_of_numbered numbered otherPlaced]
      exact Nat.find_min' taken (equal ▸ identified otherPlaced)
  case nodup_iff_digests =>
    have digests : things.map digest = (things.map id).map .ok := by
      rw [List.map_map]
      exact List.map_congr_left digest_eq
    rw [digests, List.nodup_map_iff fun _ _ => Except.ok.inj]
  case nodup_iff_found =>
    rw [List.nodup_iff_getElem?_ne_getElem?]
    constructor
    · intro distinct thing member
      rcases List.mem_iff_getElem?.mp member with ⟨place, placed⟩
      rw [getElem?_of_numbered numbered placed, find_eq_ok]
      refine ⟨identified placed, fun earlier before => ?_⟩
      rw [← identified placed]
      exact distinct earlier place before (List.getElem?_eq_some_iff.mp (identified placed)).1
    · intro found earlier later before inside same
      rw [List.length_map] at inside
      have laterPlaced := List.getElem?_eq_getElem inside
      have earlierPlaced := List.getElem?_eq_getElem (Nat.lt_trans before inside)
      have atLater := found _ (List.mem_of_getElem? laterPlaced)
      have atEarlier := found _ (List.mem_of_getElem? earlierPlaced)
      rw [identified earlierPlaced, identified laterPlaced, Option.some.injEq] at same
      rw [getElem?_of_numbered numbered laterPlaced] at atLater
      rw [getElem?_of_numbered numbered earlierPlaced, same, atLater] at atEarlier
      exact absurd (Except.ok.inj atEarlier) (Nat.ne_of_gt before)

/-- Things that are read off the entries of a list, each at its place. -/
theorem Addressing.of_entries {β : Type} {entries : List β} {view : Nat → β → α}
    (entryId : β → Nat) (index_view : ∀ place entry, index (view place entry) = place)
    (id_view : ∀ place entry, id (view place entry) = entryId entry)
    (digest_eq : ∀ place entry, entries[place]? = some entry →
      digest (view place entry) = .ok (entryId entry))
    (find_eq_ok : ∀ wanted place, find wanted = .ok place ↔
      (entries.map entryId)[place]? = some wanted ∧
        ∀ earlier < place, (entries.map entryId)[earlier]? ≠ some wanted) :
    Addressing (entries.mapIdx view) index id digest find := by
  have ids : (entries.mapIdx view).map id = entries.map entryId := by
    apply List.ext_getElem (by simp)
    intro place inside _
    simp [id_view]
  apply Addressing.of_find
  case numbered =>
    apply List.ext_getElem (by simp)
    intro place inside _
    simp [index_view]
  case digest_eq =>
    intro thing member
    rcases List.mem_mapIdx.mp member with ⟨place, inside, rfl⟩
    rw [id_view]
    exact digest_eq place _ (List.getElem?_eq_getElem inside)
  case find_eq_ok =>
    rw [ids]
    exact find_eq_ok

end

/-! ## Digests of what is stored -/

/-- The digest of what a proposal was made from, as it is stored: it was made when its voting
delay began. -/
def Proposal.digest (params : Params) (proposal : Proposal) : Outcome Nat :=
  Digest.proposalId proposal.proposer (proposal.description : Number)
    ((proposal.voteStart - params.votingDelay : Nat) : Number) (proposal.index : Number)

/-- The digest of what an operation was scheduled from, as it is stored: it was scheduled with
the least delay. -/
def Operation.digest (params : Params) (operation : Operation) : Outcome Nat :=
  Digest.operationId (operation.proposalId : Number)
    ((operation.readyAt - params.timelockMinDelay : Nat) : Number) (operation.index : Number)

/-- Every proposal and every operation bears the id that its digest gives it. -/
structure Ledger.Identified (params : Params) (ledger : Ledger) : Prop where
  motions : ∀ (index : Nat) (motion : Motion), ledger.motions[index]? = some motion →
    motion.IdentifiedAt params index
  bookings : ∀ (index : Nat) (booking : Booking), ledger.bookings[index]? = some booking →
    booking.IdentifiedAt params index

section

variable {α : Type} {list : List α} {holds : Nat → α → Prop}

private theorem forall_append (all : ∀ index entry, list[index]? = some entry →
    holds index entry) {last : α} (new : holds list.length last) :
    ∀ index entry, (list ++ [last])[index]? = some entry → holds index entry := by
  intro index entry found
  rw [getElem?_append_singleton] at found
  split at found
  · rename_i here
    cases found
    exact here ▸ new
  · exact all index entry found

private theorem forall_set (all : ∀ index entry, list[index]? = some entry →
    holds index entry) {place : Nat} {old changed : α} (found : list[place]? = some old)
    (kept : holds place old → holds place changed) :
    ∀ index entry, (list.set place changed)[index]? = some entry → holds index entry := by
  intro index entry listed
  rcases getElem?_set_cases listed with same | ⟨rfl, rfl⟩
  · exact all index entry same
  · exact kept (all place old found)

end

theorem Ledger.Step.identified {params : Params} {caller : Account} {now : Number}
    {action : Action} {before after : Ledger} (step : Step params caller now before action after)
    (identified : before.Identified params) : after.Identified params := by
  cases step with
  | registered | snapshotStored | delegated | snapshotTaken | intended =>
      exact ⟨identified.motions, identified.bookings⟩
  | entered _ seated =>
      cases seated.entered with
      | replaced | added => exact ⟨identified.motions, identified.bookings⟩
  | proposed _ _ _ _ new =>
      exact ⟨forall_append identified.motions new, identified.bookings⟩
  | voted _ found | canceled _ found =>
      exact ⟨forall_set identified.motions found id, identified.bookings⟩
  | queued _ found _ _ _ _ _ new =>
      exact ⟨forall_set identified.motions found id, forall_append identified.bookings new⟩
  | executed _ found placed =>
      exact ⟨forall_set identified.motions found id, forall_set identified.bookings placed id⟩

namespace Represents

variable {params : Params} {record : Text} {ledger : Ledger} (holds : Represents record ledger)
  (identified : ledger.Identified params)

include holds identified

theorem proposals_addressed :
    Addressing (Proposals.list record) Proposal.index Proposal.id (Proposal.digest params)
      (Proposals.indexOf record) := by
  rw [holds.proposalList_eq]
  refine Addressing.of_entries Motion.id (fun _ _ => rfl) (fun _ _ => rfl)
    identified.motions fun wanted place => ?_
  have count : Proposals.count record = (ledger.motions.map Motion.id).length := by
    rw [holds.proposalCount_eq, List.length_map]
  have text (place : Nat) : Proposals.field? record place .id =
      (ledger.motions.map Motion.id)[place]?.map Text.decimal := by
    rw [holds.proposalField?_eq, List.getElem?_map, Option.map_map]
    rfl
  rw [← find?_range_eq_some text, ← count, Proposals.indexOf]
  split <;> rename_i result <;> rw [result] <;> simp

theorem operations_addressed (coherent : ledger.Coherent) :
    Addressing (Operations.list record) Operation.index Operation.id (Operation.digest params)
      (Operations.indexOf record) := by
  rw [holds.operationList_eq coherent.bookings_le]
  refine Addressing.of_entries Booking.id (fun _ _ => rfl) (fun _ _ => rfl)
    identified.bookings fun wanted place => ?_
  have count : Operations.count record = (ledger.bookings.map Booking.id).length := by
    rw [holds.operationCount_eq coherent.bookings_le, List.length_map]
  have text (place : Nat) : Operations.field? record place .id =
      (ledger.bookings.map Booking.id)[place]?.map Text.decimal := by
    rw [holds.operationField?_eq, List.getElem?_map, Option.map_map]
    cases ledger.bookings[place]? <;> rfl
  rw [← find?_range_eq_some text, ← count, Operations.indexOf]
  split <;> rename_i result <;> rw [result] <;> simp

end Represents

/-! ## Runs -/

/-- On every run, proposals and operations bear their digests and are found by them: each at
its own index as long as the digests differ, and the first one where they do not. -/
theorem Seeded.ids_address (params : Params) {start : Text} (seeded : Seeded start)
    (moves : List Move) :
    let record := recordAfter params start moves
    Addressing (Proposals.list record) Proposal.index Proposal.id (Proposal.digest params)
        (Proposals.indexOf record) ∧
      Addressing (Operations.list record) Operation.index Operation.id
        (Operation.digest params) (Operations.indexOf record) ∧
      ∀ proposal ∈ Proposals.list record,
        Actions.addressed record (proposal.id : Number) =
          Proposals.indexOf record proposal.id := by
  rcases seeded.represented with ⟨ledger, holds, coherent, unproposed, unbooked⟩
  have initial : ledger.Identified params :=
    ⟨by simp [unproposed], by simp [unbooked]⟩
  rcases holds.run coherent (motive := fun _ ledger => ledger.Identified params) initial
    (fun _ _ _ _ identified _ => identified)
    (fun _ _ _ _ _ _ identified _ _ step => step.identified identified) moves with
    ⟨after, afterHolds, afterCoherent, identified⟩
  refine ⟨afterHolds.proposals_addressed identified,
    afterHolds.operations_addressed identified afterCoherent, fun proposal member => ?_⟩
  rw [afterHolds.proposalList_eq] at member
  rcases List.mem_mapIdx.mp member with ⟨index, inside, rfl⟩
  have word := Number.u32_eq_ok.mpr ⟨rfl, after.motions[index].id_le⟩
  rw [Actions.addressed, Motion.proposal, word]
  rfl

namespace Sample

/-- Alice makes two proposals at second 100. The description of the second one is chosen so
that both get the same id. -/
def collidingProposals : List Move := [
  { caller := alice, now := 100, action := .propose (some 7) },
  { caller := alice, now := 100, action := .propose (some 3068297467) }]

/-- Two proposals with ids of their own succeed. The second one is queued at a time chosen so
that both operations get the same id. -/
def collidingOperations : List Move := [
  { caller := alice, now := 100, action := .propose (some 7) },
  { caller := alice, now := 100, action := .propose (some 8) },
  { caller := alice, now := 105, action := .castVote 1785919953 1 },
  { caller := alice, now := 105, action := .castVote 900003537 1 },
  { caller := bob, now := 116, action := .queue 1785919953 },
  { caller := bob, now := 2757763272, action := .queue 900003537 }]

/-- The digest does not keep ids apart, and nobody looks whether an id is taken. -/
theorem ids_collide :
    let proposed := recordAfter params start collidingProposals
    let booked := recordAfter params start collidingOperations
    Seeded start ∧
      (Proposals.list proposed).map Proposal.index = [0, 1] ∧
      (Proposals.list proposed).map Proposal.id = [1785919953, 1785919953] ∧
      ¬ ((Proposals.list proposed).map Proposal.id).Nodup ∧
      Proposals.indexOf proposed 1785919953 = .ok 0 ∧
      (Operations.list booked).map Operation.index = [0, 1] ∧
      (Operations.list booked).map Operation.id = [2093850543, 2093850543] ∧
      ¬ ((Operations.list booked).map Operation.id).Nodup ∧
      Operations.indexOf booked 2093850543 = .ok 0 := by
  refine ⟨seeded, ?_⟩
  decide +kernel

/-- Where digests differ, each proposal is found by its own id. -/
theorem ids_told_apart :
    let booked := recordAfter params start collidingOperations
    Seeded start ∧
      (Proposals.list booked).map Proposal.id = [1785919953, 900003537] ∧
      (∀ proposal ∈ Proposals.list booked,
        Proposals.indexOf booked proposal.id = .ok proposal.index) ∧
      ¬ ((Operations.list booked).map (Operation.digest params)).Nodup := by
  have ids : (Proposals.list (recordAfter params start collidingOperations)).map Proposal.id =
        [1785919953, 900003537] ∧
      (Operations.list (recordAfter params start collidingOperations)).map Operation.id =
        [2093850543, 2093850543] := by
    decide +kernel
  rcases seeded.ids_address params collidingOperations with ⟨proposals, operations, -⟩
  refine ⟨seeded, ids.1, proposals.nodup_iff_found.mp ?_, fun distinct => ?_⟩
  · rw [ids.1]
    decide
  · have nodup := operations.nodup_iff_digests.mpr distinct
    rw [ids.2] at nodup
    exact absurd nodup (by decide)

end Sample

end LedgerGovernance
