import RaftKv.Raft.Raft

/-!
# A node as its process sees it

`Ready` (`raft/ready.cpp`) and `RawNode` (`raft/node.cpp`): the process takes a `Ready` with
everything that is to be stored, sent and applied, deals with it, and calls `advance`.

Packing a configuration change into bytes is the business of the msgpack library and a parameter
here.
-/

namespace RaftKv

structure Ready where
  softState : Option SoftState := none
  hardState : HardState := {}
  readStates : List ReadState := []
  entries : List Entry := []
  snapshot : Snapshot := {}
  committedEntries : List Entry := []
  messages : List Message := []
  mustSync : Bool := false
  deriving DecidableEq, Repr

structure RawNode where
  raft : Raft
  prevSoftState : SoftState
  prevHardState : HardState

structure PeerContext where
  id : Nat
  context : Bytes := []
  deriving DecidableEq, Repr

inductive SnapshotStatus where
  | snapshotFinish | snapshotFailure
  deriving DecidableEq, Repr

namespace Ready

/-- The constructor.  `must_sync` compares the current hard state with the one it has just put
into the `Ready`. -/
def new (raft : Raft) (preSoftState : SoftState) (preHardState : HardState) : Outcome Ready := do
  let committedEntries ← raft.raftLog.nextEntries
  let st := raft.softState
  let hs := raft.hardState
  let hardState := if hs = preHardState then {} else hs
  return {
    softState := if st = preSoftState then none else some st
    hardState := hardState
    readStates := raft.readStates
    entries := raft.raftLog.unstable.entries
    snapshot := raft.raftLog.unstable.snapshot.getD {}
    committedEntries := committedEntries
    messages := raft.msgs
    mustSync := isMustSync hs hardState raft.raftLog.unstable.entries.length }

def containsUpdates (rd : Ready) : Bool :=
  rd.softState.isSome || !rd.hardState.isEmptyState || !rd.snapshot.isEmpty ||
  !rd.entries.isEmpty || !rd.committedEntries.isEmpty || !rd.messages.isEmpty ||
  rd.readStates.isEmpty

/-- The highest index that is applied once the `Ready` has been dealt with, or 0. -/
def appliedCursor (rd : Ready) : Nat :=
  match rd.committedEntries.getLast? with
  | some e => e.index
  | none => rd.snapshot.metadata.index

end Ready

namespace RawNode

/-- The log a new cluster starts with: one membership entry for each peer. -/
def bootstrapEntries (pack : ConfChange → Bytes) : Nat → List PeerContext → List Entry
  | _, [] => []
  | index, peer :: peers =>
      { type := EntryType.entryConfChange, term := 1, index := index,
        data := pack
          { id := 0, confChangeType := ConfChangeType.addNode, nodeId := peer.id,
            context := peer.context } } ::
        bootstrapEntries pack (index + 1) peers

/-- Append the bootstrap entries, commit them and enter the peers. -/
def bootstrap (pack : ConfChange → Bytes) (r : Raft) (peers : List PeerContext) : Outcome Raft := do
  let r ← r.becomeFollower 1 0
  let entries := bootstrapEntries pack 1 peers
  let (raftLog, _) ← r.raftLog.append entries
  let r := { r with raftLog := { raftLog with committed := entries.length } }
  peers.foldlM (fun r peer => r.addNode peer.id) r

/-- A node whose storage holds no log is given the bootstrap entries. -/
def bootstrapIfNew (pack : ConfChange → Bytes) (conf : Config) (peers : List PeerContext)
    (r : Raft) : Outcome Raft :=
  if conf.storage.lastIndex = 0 then bootstrap pack r peers else pure r

/-- `start_node`. -/
def start (pack : ConfChange → Bytes) (conf : Config) (peers : List PeerContext) :
    Outcome RawNode := do
  let r ← Raft.init conf
  let r ← bootstrapIfNew pack conf peers r
  return {
    raft := r
    prevSoftState := r.softState
    prevHardState := if conf.storage.lastIndex = 0 then {} else r.hardState }

/-- `restart_node`. -/
def restart (conf : Config) : Outcome RawNode := do
  let r ← Raft.init conf
  return {
    raft := r
    prevSoftState := r.softState
    prevHardState := if conf.storage.lastIndex = 0 then {} else r.hardState }

/-- Step the state machine with a message. -/
def stepRaft (n : RawNode) (m : Message) : Outcome (RawNode × Status) := do
  let (r, status) ← n.raft.step m
  return ({ n with raft := r }, status)

def tick (n : RawNode) : Outcome RawNode := do
  let r ← n.raft.tick
  return { n with raft := r }

def campaign (n : RawNode) : Outcome (RawNode × Status) :=
  n.stepRaft { type := MessageType.msgHup }

def propose (n : RawNode) (data : Bytes) : Outcome (RawNode × Status) :=
  n.stepRaft { type := MessageType.msgProp, fromId := n.raft.id, entries := [{ data := data }] }

def proposeConfChange (pack : ConfChange → Bytes) (n : RawNode) (cc : ConfChange) :
    Outcome (RawNode × Status) :=
  n.stepRaft
    { type := MessageType.msgProp
      entries := [{ type := EntryType.entryConfChange, data := pack cc }] }

/-- A message from the network: local ones are refused, and answers of unknown peers. -/
def step (n : RawNode) (m : Message) : Outcome (RawNode × Status) :=
  if m.isLocalMsg then
    pure (n, Status.invalidArgument "raft: cannot step raft local message")
  else if (n.raft.getProgress m.fromId).isSome ∨ ¬ m.isResponseMsg then n.stepRaft m
  else pure (n, Status.invalidArgument "raft: cannot step as peer not found")

/-- Hand out what is pending.  The messages and the size of the committed entries leave the state
machine here; the rest only with `advance`. -/
def ready (n : RawNode) : Outcome (RawNode × Ready) := do
  let rd ← Ready.new n.raft n.prevSoftState n.prevHardState
  let r := { n.raft with msgs := [] }
  return ({ n with raft := r.reduceUncommittedSize rd.committedEntries }, rd)

def hasReady (n : RawNode) : Bool :=
  let r := n.raft
  n.raft.softState != n.prevSoftState ||
  (!r.hardState.isEmptyState && r.hardState != n.prevHardState) ||
  (r.raftLog.unstable.snapshot.any fun s => !s.isEmpty) ||
  !r.msgs.isEmpty || !r.raftLog.unstable.entries.isEmpty || r.raftLog.hasNextEntries ||
  !r.readStates.isEmpty

/-- The log after a `Ready` has been stored and applied. -/
def advanceLog (l : RaftLog) (rd : Ready) : RaftLog :=
  let l := if rd.appliedCursor > 0 then l.appliedTo rd.appliedCursor else l
  let l :=
    match rd.entries.getLast? with
    | some e => l.stableTo e.index e.term
    | none => l
  if rd.snapshot.isEmpty then l else l.stableSnapTo rd.snapshot.metadata.index

def advance (n : RawNode) (rd : Ready) : RawNode :=
  { raft := { n.raft with
      raftLog := advanceLog n.raft.raftLog rd
      readStates := if rd.readStates = [] then n.raft.readStates else [] }
    prevSoftState := rd.softState.getD n.prevSoftState
    prevHardState := if rd.hardState.isEmptyState then n.prevHardState else rd.hardState }

def confState (r : Raft) : ConfState := { nodes := r.nodes, learners := r.learnerNodes }

def changeMembers (r : Raft) (cc : ConfChange) : Outcome Raft :=
  match cc.confChangeType with
  | ConfChangeType.addNode => r.addNodeOrLearner cc.nodeId false
  | ConfChangeType.addLearnerNode => r.addNodeOrLearner cc.nodeId true
  | ConfChangeType.removeNode => r.removeNode cc.nodeId
  | ConfChangeType.updateNode => pure r
  | ConfChangeType.unexpected _ => throw (Crash.fatal "unexpected conf type")

def applyConfChange (n : RawNode) (cc : ConfChange) : Outcome (RawNode × ConfState) :=
  if cc.nodeId = 0 then pure (n, confState n.raft)
  else do
    let r ← changeMembers n.raft cc
    return ({ n with raft := r }, confState r)

def transferLeadership (n : RawNode) (lead transferee : Nat) : Outcome RawNode := do
  let (n, _) ← n.stepRaft
    { type := MessageType.msgTransferLeader, fromId := transferee, toId := lead }
  return n

/-- The entry's type is the message type's number. -/
def readIndex (n : RawNode) (rctx : Bytes) : Outcome (RawNode × Status) :=
  n.stepRaft
    { type := MessageType.msgReadIndex
      entries := [{ type := EntryType.unknown 15, data := rctx }] }

def reportUnreachable (n : RawNode) (id : Nat) : Outcome RawNode := do
  let (n, _) ← n.stepRaft { type := MessageType.msgUnreachable, fromId := id }
  return n

def reportSnapshot (n : RawNode) (id : Nat) (status : SnapshotStatus) : Outcome RawNode := do
  let (n, _) ← n.stepRaft
    { type := MessageType.msgSnapStatus, fromId := id
      reject := decide (status = SnapshotStatus.snapshotFailure) }
  return n

/-- Let the process write to the storage it shares with the node. -/
def setStorage (n : RawNode) (storage : MemoryStorage) : RawNode :=
  { n with raft := { n.raft with raftLog := n.raft.raftLog.setStorage storage } }

end RawNode

end RaftKv
