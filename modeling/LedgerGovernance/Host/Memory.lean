import LedgerGovernance.Host

/-! A host that keeps the record in memory, and one that does so but fails on
schedule. -/

namespace LedgerGovernance

structure MemoryHost where
  record : Text
  caller : Option Account
  now : Number
deriving DecidableEq, Repr

namespace MemoryHost

/-- Reads and writes never fail, and time stands still between calls. -/
def host : Host MemoryHost where
  readRecord := do return some (← get).record
  writeRecord record := do
    modify fun memory => { memory with record }
    return true
  callerIdentity := do return (← get).caller
  currentTime := do return (← get).now

end MemoryHost

/-- Answers that a host is going to give in place of its own, each list used up
from the front. -/
structure Faults where
  callers : List (Option Account) := []
  /-- Whether the record can be read. -/
  reads : List Bool := []
  /-- Whether the record is taken. -/
  writes : List Bool := []
deriving DecidableEq, Repr

structure FaultyHost where
  memory : MemoryHost
  faults : Faults
deriving DecidableEq, Repr

namespace FaultyHost

def inMemory : Host FaultyHost :=
  MemoryHost.host.within (·.memory) fun hosted memory => { hosted with memory }

/-- The next scheduled verdict on a read or a write, and the faults that remain;
without one the call goes well. -/
private def nextVerdict : List Bool → Bool × List Bool
  | [] => (true, [])
  | verdict :: rest => (verdict, rest)

/-- A write that is refused stores nothing. -/
def host : Host FaultyHost where
  readRecord := do
    let (readable, reads) := nextVerdict (← get).faults.reads
    modify fun hosted => { hosted with faults := { hosted.faults with reads } }
    if readable then inMemory.readRecord else return none
  writeRecord record := do
    let (taken, writes) := nextVerdict (← get).faults.writes
    modify fun hosted => { hosted with faults := { hosted.faults with writes } }
    if taken then inMemory.writeRecord record else return false
  callerIdentity := do
    match (← get).faults.callers with
    | [] => inMemory.callerIdentity
    | caller :: callers =>
        modify fun hosted => { hosted with faults := { hosted.faults with callers } }
        return caller
  currentTime := inMemory.currentTime

end FaultyHost

end LedgerGovernance
