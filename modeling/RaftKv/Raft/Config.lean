import RaftKv.Raft.ReadOnly
import RaftKv.Raft.Storage

/-!
# The parameters of a node

`Config` (`raft/config.cpp`) and the source of randomness of election timeouts
(`common/random_device.cpp`).
-/

namespace RaftKv

structure Config where
  id : Nat := 0
  peers : List Nat := []
  learners : List Nat := []
  electionTick : Nat := 0
  heartbeatTick : Nat := 0
  storage : MemoryStorage := {}
  applied : Nat := 0
  maxSizePerMsg : Nat := 0
  maxCommittedSizePerReady : Nat := 0
  maxUncommittedEntriesSize : Nat := 0
  maxInflightMsgs : Nat := 0
  checkQuorum : Bool := false
  preVote : Bool := false
  readOnlyOption : ReadOnlyOption := ReadOnlyOption.readOnlySafe
  disableProposalForwarding : Bool := false
  /-- What the operating system's generator will return. -/
  draws : Nat → Nat := fun _ => 0

/-- Check the parameters, and replace the two that have a default. -/
def Config.validate (c : Config) : Config × Status :=
  if c.id = 0 then (c, Status.invalidArgument "cannot use none as id")
  else if c.heartbeatTick ≤ 0 then
    (c, Status.invalidArgument "heartbeat tick must be greater than 0")
  else if c.electionTick ≤ c.heartbeatTick then
    (c, Status.invalidArgument "election tick must be greater than heartbeat tick")
  else
    let c :=
      if c.maxUncommittedEntriesSize = 0 then { c with maxUncommittedEntriesSize := 2 ^ 64 - 1 }
      else c
    let c :=
      if c.maxCommittedSizePerReady = 0 then { c with maxCommittedSizePerReady := c.maxSizePerMsg }
      else c
    if c.maxInflightMsgs ≤ 0 then
      (c, Status.invalidArgument "max inflight messages must be greater than 0")
    else if c.readOnlyOption = ReadOnlyOption.readOnlyLeaseBased ∧ ¬ c.checkQuorum then
      (c, Status.invalidArgument
        "check_quorum must be enabled when read_only_option is ReadOnlyLeaseBased")
    else (c, Status.ok)

/-- A generator of numbers in `[0, max]`: an arbitrary stream, and how much of it is used up. -/
structure RandomDevice where
  max : Nat
  draws : Nat → Nat
  used : Nat := 0

def RandomDevice.gen (d : RandomDevice) : Nat × RandomDevice :=
  (d.draws d.used % (d.max + 1), { d with used := d.used + 1 })

end RaftKv
