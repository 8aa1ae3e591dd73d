import LedgerGovernance.Ledger.Ballots
import LedgerGovernance.Ledger.Intents
import LedgerGovernance.Proofs.Checked.Proposals

/-! Votes and vote intents with every key and number checked. The votes of a proposal stand
under no more keys than an index of one byte tells apart, and a tally that is written has
been found to fit in 64 bits. -/

namespace LedgerGovernance

theorem Ballots.count_le (record : Text) (index : Nat) : count record index ≤ slots := by
  have shorter := (List.takeWhile_prefix (l := List.range slots)
    fun vote => (written? record index vote).isSome).length_le
  rwa [List.length_range] at shorter

theorem VoteSupport.code_le (support : VoteSupport) : support.code ≤ maxU32 := by
  cases support <;> decide

namespace Checked

variable {index : Nat}

/-! ## Reading -/

def written? (record : Text) (index vote : Nat) : Outcome (Option Text) :=
  read? record (.vote index vote)

theorem written?_eq (fits : index ≤ maxU8) (record : Text) {vote : Nat}
    (inside : vote < Ballots.slots) :
    written? record index vote = .ok (Ballots.written? record index vote) :=
  read?_eq record (.vote index vote) ⟨fits, Nat.le_of_lt_succ inside⟩

def isWritten (record : Text) (index vote : Nat) : Outcome Bool := do
  return (← written? record index vote).isSome

def countVotes (record : Text) (index : Nat) : Outcome Nat := do
  let taken ← takeWhileM (isWritten record index) (List.range Ballots.slots)
  return taken.length

theorem countVotes_eq (fits : index ≤ maxU8) (record : Text) :
    countVotes record index = .ok (Ballots.count record index) := by
  have each : ∀ vote ∈ List.range Ballots.slots,
      isWritten record index vote = .ok (Ballots.written? record index vote).isSome := by
    intro vote inside
    rw [isWritten, written?_eq fits record (List.mem_range.mp inside)]
    rfl
  rw [countVotes, takeWhileM_eq each]
  rfl

def votesOn (record : Text) (index : Nat) : Outcome (List Vote) := do
  let found ← (List.range (← countVotes record index)).mapM (written? record index)
  return found.filterMap fun entry => entry.bind Ballots.parse?

theorem votesOn_eq (fits : index ≤ maxU8) (record : Text) :
    votesOn record index = .ok (Ballots.list record index) := by
  have each : ∀ vote ∈ List.range (Ballots.count record index),
      written? record index vote = .ok (Ballots.written? record index vote) :=
    fun vote inside => written?_eq fits record
      (Nat.lt_of_lt_of_le (List.mem_range.mp inside) (Ballots.count_le record index))
  rw [votesOn, countVotes_eq fits, Outcome.ok_bind, mapM_eq each, Outcome.ok_bind,
    List.filterMap_map]
  rfl

def hasVoted (record : Text) (index : Nat) (voter : Account) : Outcome Bool := do
  return ((← votesOn record index).find? fun vote => vote.voter == voter).isSome

theorem hasVoted_eq (fits : index ≤ maxU8) (record : Text) (voter : Account) :
    hasVoted record index voter = .ok (Ballots.hasVoted record index voter) := by
  rw [hasVoted, votesOn_eq fits]
  rfl

def quorumReached (params : Params) (record : Text) (index : Nat) (total : Int) :
    Outcome Bool := do
  let forVotes ← proposalAmount record index .inFavor
  let _ ← proposalAmount record index .against
  let abstainVotes ← proposalAmount record index .abstain
  return Members.quorum params total ≤ Amount.saturatingAdd forVotes abstainVotes

theorem quorumReached_eq (params : Params) (record : Text) (fits : index ≤ maxU8)
    (total : Int) :
    quorumReached params record index total =
      .ok (Ballots.quorumReached params record index total) := by
  simp only [quorumReached, proposalAmount_eq fits, Outcome.ok_bind]
  rfl

/-! ## Casting -/

/-- The entry of a vote, once its voter, its support and its weight are written. -/
def voteEntry (voter : Account) (support : VoteSupport) (weight : Int) : Outcome Text := do
  let hex ← voter.hex
  let support ← word support.code
  let weight ← amount weight
  return hex ++ ':' :: (support ++ ':' :: weight)

theorem voteEntry_eq {voter : Account} (size : voter.length = Account.size)
    (support : VoteSupport) {weight : Nat} (fits : weight ≤ maxU64) :
    voteEntry voter support weight =
      .ok (Ballots.entryText (Text.hex voter) support weight) := by
  rw [voteEntry, Account.hex_of_size size, word_natCast support.code_le, amount_natCast fits]
  rfl

def cast (params : Params) (record : Text) (index : Nat) (voter : Account)
    (support : VoteSupport) (weight : Int) (now : Number) (total : Int) : Outcome Text := do
  let state ← proposalState params record index now total
  if state ≠ .active then
    Outcome.refuse (.notActive state)
  else if ← hasVoted record index voter then
    let _ ← voter.hex
    Outcome.refuse (.alreadyVoted voter)
  else
    let field := Ballots.tallyField support
    match Ballots.nextTally? (← proposalAmount record index field) weight with
    | none => Outcome.refuse (.tallyOverflow weight support)
    | some next =>
        let vote ← countVotes record index
        if maxU8 < vote then
          Outcome.refuse (.noVoteSlot index)
        else
          match ← (Draft.ofRecord record).replace? (← key (.proposal index field))
              (← amount next) with
          | none => Outcome.refuse (.noProposalAt index)
          | some draft =>
              let draft ← draft.append (← key (.vote index vote))
                (← voteEntry voter support weight)
              draft.encode params.recordCapacity

theorem cast_eq (params : Params) (record : Text) (fits : index ≤ maxU8) {voter : Account}
    (size : voter.length = Account.size) (support : VoteSupport) (weight : Nat)
    (now : Number) (total : Int) :
    cast params record index voter support weight now total =
      Ballots.cast params record index voter support weight now total := by
  have tally (field : ProposalField) : Key.Addressable (.proposal index field) := fits
  simp only [cast, Ballots.cast, proposalState_eq params record fits, hasVoted_eq fits,
    proposalAmount_eq fits, countVotes_eq fits, Account.hex_of_size size, Outcome.ok_bind,
    key_eq _ (tally _)]
  split
  · rfl
  split
  · rfl
  cases tallyEq : Ballots.nextTally?
      (Proposals.amount record index (Ballots.tallyField support)) weight with
  | none => rfl
  | some next =>
      rcases Ballots.nextTally?_eq_some.mp tallyEq with ⟨amount, same, sumFits, rfl⟩
      cases Int.ofNat.inj same
      have weightFits := Nat.le_of_add_left_le sumFits
      dsimp only
      split
      · rfl
      -- Votes are counted up to one more than an index can tell; this branch has room.
      rename_i room
      have slot : Key.Addressable (.vote index (Ballots.count record index)) :=
        ⟨fits, Nat.le_of_not_lt room⟩
      rw [amount_natCast sumFits, key_eq _ slot, voteEntry_eq size support weightFits,
        Amount.u64_natCast weightFits]
      rfl

def submit (params : Params) (record : Text) (proposalId support : Number)
    (voter : Account) : Outcome Text :=
  if !Intents.isWellFormed proposalId support voter then
    Outcome.refuse .malformedIntent
  else do
    let key ← key (.intent (← proposalId.u32) voter)
    if (Record.findValue record key).isSome then
      let _ ← voter.hex
      Outcome.refuse (.intentRecorded voter)
    else
      let draft ← (Draft.ofRecord record).append key (← word support)
      draft.encode params.recordCapacity

theorem submit_eq (params : Params) (record : Text) {id : Nat} (fits : id ≤ maxU32)
    (support : Number) {voter : Account} (size : voter.length = Account.size) :
    submit params record (id : Number) support voter =
      Intents.submit params record (id : Number) support voter := by
  simp only [submit, Intents.submit, Number.u32_natCast fits, Account.hex_of_size size,
    Outcome.ok_bind, key_eq (.intent id voter) ⟨fits, size⟩, word, bind_assoc]
  rfl

end Checked

/-! ## No argument is at fault -/

namespace Ballots

theorem judgeSupport_wellTyped (support : Number) : (judgeSupport support).WellTyped := by
  unfold judgeSupport
  split
  · exact Outcome.wellTyped_ok _
  · exact Outcome.wellTyped_refuse _

theorem entryText_plain (voter : Account) (support : VoteSupport) (weight : Nat) :
    (entryText (Text.hex voter) support weight).all Entry.isPlain = true := by
  have colon : Entry.isPlain ':' = true := by decide
  simp only [entryText, List.all_append, List.all_cons, Text.hex_plain, Text.decimal_plain,
    colon, Bool.and_self]

theorem cast_wellTyped (params : Params) (record : Text) (index : Nat) {voter : Account}
    (size : voter.length = Account.size) (support : VoteSupport) (weight : Nat)
    (now : Number) (total : Int) :
    (cast params record index voter support weight now total).WellTyped := by
  unfold cast
  dsimp only
  split
  · exact Outcome.wellTyped_refuse _
  split
  · exact Outcome.wellTyped_refuse _
  split
  · exact Outcome.wellTyped_refuse _
  rename_i next nextEq
  rcases nextTally?_eq_some.mp nextEq with ⟨amount, same, sumFits, -⟩
  cases Int.ofNat.inj same
  split
  · exact Outcome.wellTyped_refuse _
  apply (Draft.replace?_wellTyped (Key.writable_text _ (Text.decimal_plain next))).bind
  intro replaced
  cases replaced with
  | none => exact Outcome.wellTyped_refuse _
  | some draft =>
      dsimp only
      rw [Account.hex_of_size size, Outcome.ok_bind,
        Amount.u64_natCast (Nat.le_of_add_left_le sumFits), Outcome.ok_bind]
      exact (Draft.append_wellTyped (Key.writable_text (.vote index _)
        (entryText_plain voter support weight))).bind fun draft => draft.encode_wellTyped _

end Ballots

namespace Intents

theorem submit_wellTyped (params : Params) (record : Text) {id : Nat} (fits : id ≤ maxU32)
    (support : Number) {voter : Account} (size : voter.length = Account.size) :
    (submit params record (id : Number) support voter).WellTyped := by
  unfold submit
  split
  · exact Outcome.wellTyped_refuse _
  rename_i wellFormed
  rw [Account.hex_of_size size, Outcome.ok_bind, Number.u32_natCast fits, Outcome.ok_bind]
  dsimp only
  split
  · exact Outcome.wellTyped_refuse _
  cases choiceEq : VoteSupport.ofNumber? support with
  | none => simp [isWellFormed, choiceEq] at wellFormed
  | some choice =>
      rw [VoteSupport.ofNumber?_eq_some choiceEq, Number.u32_natCast choice.code_le,
        Outcome.ok_bind]
      exact (Draft.append_wellTyped (Key.writable_text (.intent id voter)
        (Text.decimal_plain choice.code))).bind fun draft => draft.encode_wellTyped _

end Intents

end LedgerGovernance
