import LedgerGovernance.Json.Writer
import LedgerGovernance.Rehearsal
import LedgerGovernance.Settings
import LedgerGovernance.Web.App
import LedgerGovernance.Proofs.Outcome
import LedgerGovernance.Proofs.Digests
import LedgerGovernance.Proofs.Record.Edits
import LedgerGovernance.Proofs.Record.InPlace
import LedgerGovernance.Proofs.Record.Keys
import LedgerGovernance.Proofs.Record.Revisions
import LedgerGovernance.Proofs.Record.Neatness
import LedgerGovernance.Proofs.Record.Writing
import LedgerGovernance.Proofs.Ledger.Effects
import LedgerGovernance.Proofs.Ledger.Writing
import LedgerGovernance.Proofs.Ledger.Contents
import LedgerGovernance.Proofs.Ledger.Reading
import LedgerGovernance.Proofs.Ledger.Changes
import LedgerGovernance.Proofs.Ledger.ActionEffects
import LedgerGovernance.Proofs.Ledger.Neatness
import LedgerGovernance.Proofs.Ledger.Steps
import LedgerGovernance.Proofs.Ledger.Seats
import LedgerGovernance.Proofs.Ledger.Power
import LedgerGovernance.Proofs.Runs
import LedgerGovernance.Proofs.VoteAccounting
import LedgerGovernance.Proofs.ExecutionSafety
import LedgerGovernance.Proofs.PowerCounting
import LedgerGovernance.Proofs.Ledger.Lock
import LedgerGovernance.Proofs.LockRelease
import LedgerGovernance.Proofs.Lifecycle
import LedgerGovernance.Proofs.Nesting.LockSafety
import LedgerGovernance.Proofs.Nesting.SideEffects
import LedgerGovernance.Proofs.Nesting.FailedHooks
import LedgerGovernance.Proofs.Finality
import LedgerGovernance.Proofs.Privileges
import LedgerGovernance.Proofs.Pairing
import LedgerGovernance.Proofs.WellFormedness
import LedgerGovernance.Proofs.Record.Framing
import LedgerGovernance.Proofs.Ledger.Footprints
import LedgerGovernance.Proofs.FrameLaw
import LedgerGovernance.Proofs.History
import LedgerGovernance.Proofs.Identity
import LedgerGovernance.Proofs.Checked.Actions
import LedgerGovernance.Proofs.Checked.Views
import LedgerGovernance.Proofs.Totality
import LedgerGovernance.Proofs.Dispatch.Atomicity
import LedgerGovernance.Proofs.Dispatch.IdleHooks
import LedgerGovernance.Proofs.FailedRequests
import LedgerGovernance.Proofs.Timelock.Predecessors
import LedgerGovernance.Proofs.DelegatedPower
import LedgerGovernance.Proofs.ShownStates
import LedgerGovernance.Proofs.Timelock.Exclusivity
import LedgerGovernance.Proofs.Timelock.Counter
import LedgerGovernance.Proofs.DecisionRule
import LedgerGovernance.Proofs.RoundTrips
import LedgerGovernance.Proofs.MemberMap
import LedgerGovernance.Proofs.Record.Sizes
import LedgerGovernance.Proofs.BallotOrder
import LedgerGovernance.Proofs.BatchedEdits
import LedgerGovernance.Proofs.EntryLaws
import LedgerGovernance.Proofs.Configuration
import LedgerGovernance.Proofs.Lookups
import LedgerGovernance.Proofs.KeySpace
