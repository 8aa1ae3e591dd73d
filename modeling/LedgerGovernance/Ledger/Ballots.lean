import LedgerGovernance.Ledger.Proposals

/-! Votes and their tallies. Each proposal has three tallies and one entry for
each voter; the entry is all that keeps an account from voting twice. -/

namespace LedgerGovernance

structure Vote where
  voter : Account
  support : VoteSupport
  weight : Nat
deriving DecidableEq, Repr

structure Tallies where
  forVotes : Nat
  againstVotes : Nat
  abstainVotes : Nat
deriving DecidableEq, Repr

namespace Ballots

/-! ## Entries -/

/-- The value of a vote's entry: voter, support and weight between colons. -/
def entryText (voter : Text) (support : VoteSupport) (weight : Nat) : Text :=
  voter ++ ':' :: (Text.decimal support.code ++ ':' :: Text.decimal weight)

def parse? (entry : Text) : Option Vote :=
  match entry.splitOn ':' with
  | [voter, support, weight] => do
      let voter ← Account.ofHex? voter
      let support ← (Text.readCount? support).bind VoteSupport.ofCode?
      let weight ← Text.readU64? weight
      return { voter, support, weight }
  | _ => none

/-- The field of a proposal that a vote counts towards. -/
def tallyField : VoteSupport → ProposalField
  | .against => .against
  | .inFavor => .inFavor
  | .abstain => .abstain

/-! ## Reading -/

/-- A proposal has at most as many votes as an index of one byte can tell
apart. -/
def slots : Nat := maxU8 + 1

def written? (record : Text) (index vote : Nat) : Option Text :=
  Record.read? record (.vote index vote)

/-- The number of votes that stand next to each other from the first one on. -/
def count (record : Text) (index : Nat) : Nat :=
  ((List.range slots).takeWhile fun vote => (written? record index vote).isSome).length

def list (record : Text) (index : Nat) : List Vote :=
  (List.range (count record index)).filterMap fun vote =>
    (written? record index vote).bind parse?

def find? (record : Text) (index : Nat) (voter : Account) : Option Vote :=
  (list record index).find? fun vote => vote.voter == voter

def hasVoted (record : Text) (index : Nat) (voter : Account) : Bool :=
  (find? record index voter).isSome

def tallies (record : Text) (index : Nat) : Tallies where
  forVotes := Proposals.amount record index .inFavor
  againstVotes := Proposals.amount record index .against
  abstainVotes := Proposals.amount record index .abstain

/-- Whether the votes for and the abstentions reach the quorum. -/
def quorumReached (params : Params) (record : Text) (index : Nat) (total : Int) : Bool :=
  let tallies := tallies record index
  Members.quorum params total ≤ Amount.saturatingAdd tallies.forVotes tallies.abstainVotes

/-- Whether the votes for exceed the votes against; a tie is a defeat. -/
def succeeded (record : Text) (index : Nat) : Bool :=
  let tallies := tallies record index
  tallies.againstVotes < tallies.forVotes

/-! ## Casting -/

def judgeSupport (support : Number) : Outcome VoteSupport :=
  match VoteSupport.ofNumber? support with
  | some support => .ok support
  | none => Outcome.refuse (.unknownSupport support)

/-- The tally after a vote, if it does not exceed 64 bits. -/
def nextTally? (current : Nat) (weight : Int) : Option Nat := do
  let weight ← Amount.u64? weight
  let next ← Amount.checkedAdd current weight
  Amount.u64? next

/-- Counts a vote: its tally is replaced where it stands, and its entry goes to the
end of the record. -/
def cast (params : Params) (record : Text) (index : Nat) (voter : Account)
    (support : VoteSupport) (weight : Int) (now : Number) (total : Int) : Outcome Text :=
  let state := Proposals.state params record index now total
  if state ≠ .active then
    Outcome.refuse (.notActive state)
  else if hasVoted record index voter then
    Outcome.refuse (.alreadyVoted voter)
  else
    let field := tallyField support
    match nextTally? (Proposals.amount record index field) weight with
    | none => Outcome.refuse (.tallyOverflow weight support)
    | some next =>
        let vote := count record index
        if maxU8 < vote then
          Outcome.refuse (.noVoteSlot index)
        else do
          match ← (Draft.ofRecord record).replace? (Key.proposal index field).text
              (Text.decimal next) with
          | none => Outcome.refuse (.noProposalAt index)
          | some draft =>
              let hex ← voter.hex
              let weight ← Amount.u64 weight
              let draft ← draft.append (Key.vote index vote).text
                (entryText hex support weight)
              draft.encode params.recordCapacity

/-- The support is judged before the index of the proposal. -/
def castAt (params : Params) (record : Text) (index : Number) (voter : Account)
    (support : Number) (weight : Int) (now : Number) (total : Int) : Outcome Text := do
  let support ← judgeSupport support
  let index ← index.keyIndex
  cast params record index voter support weight now total

end Ballots

end LedgerGovernance
