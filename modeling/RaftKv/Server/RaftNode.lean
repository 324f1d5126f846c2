import RaftKv.Cluster.Cluster
import RaftKv.Server.Snapshotter

/-!
# The process around a node

`RaftNode` (`server/raft_node.cpp`): it takes the `Ready`s of its `RawNode`, writes them to the
write-ahead log and to the storage, sends the messages and publishes what is committed.

* The calls of `redis_server_` and of `transport_` are recorded in the order in which they are made;
  both carry them out on threads of their own.
* `conf_state_` is shared with nobody once it is assigned, and is a value here.
-/

namespace RaftKv

/-- A task that is posted to the loop of the store. -/
inductive StoreTask where
  | readCommit (entry : Entry)
  | recoverFromSnapshot (data : Bytes)
  deriving DecidableEq, Repr

inductive TransportCall where
  | addPeer (id : Nat) (address : Bytes)
  | removePeer (id : Nat)
  | send (messages : List Message)
  deriving DecidableEq, Repr

def defaultSnapCount : Nat := 100000

def snapshotCatchUpEntriesN : Nat := 100000

/-- The difference of two unsigned 64-bit numbers. -/
def uint64Sub (a b : Nat) : Nat := if b ≤ a then a - b else 2 ^ 64 + a - b

/-- The storage is the one the log of `node` holds. -/
structure RaftNode where
  id : Nat
  lastIndex : Nat := 0
  confState : ConfState := {}
  snapshotIndex : Nat := 0
  appliedIndex : Nat := 0
  node : RawNode
  snapCount : Nat := defaultSnapCount
  snapDir : SnapFolder := ∅
  wal : Wal
  storeTasks : List StoreTask := []
  transportCalls : List TransportCall := []

namespace RaftNode

def post (s : RaftNode) (task : StoreTask) : RaftNode :=
  { s with storeTasks := s.storeTasks ++ [task] }

def call (s : RaftNode) (c : TransportCall) : RaftNode :=
  { s with transportCalls := s.transportCalls ++ [c] }

def setAppliedIndex (s : RaftNode) (index : Nat) : RaftNode := { s with appliedIndex := index }

/-- The shared `MemoryStorage`. -/
def storage (s : RaftNode) : MemoryStorage := s.node.raft.raftLog.storage

def setStorage (s : RaftNode) (storage : MemoryStorage) : RaftNode :=
  { s with node := s.node.setStorage storage }

/-! ## Publishing -/

/-- The entries behind `applied_index_`; the difference `applied_index_ - first + 1` is 0 where the
source's unsigned one wraps back to 0. -/
def entriesToApply (s : RaftNode) (entries : List Entry) : Outcome (List Entry) :=
  match entries with
  | [] => pure []
  | e :: _ =>
      if e.index > s.appliedIndex + 1 then
        throw (Crash.fatal s!"first index of committed entry[{e.index
          }] should <= progress.appliedIndex[{s.appliedIndex}]+1")
      else if s.appliedIndex + 1 - e.index < entries.length then
        pure (entries.drop (s.appliedIndex + 1 - e.index))
      else pure []

def publishNormal (s : RaftNode) (e : Entry) : RaftNode :=
  if e.data = [] then s else s.post (StoreTask.readCommit e)

/-- Apply a configuration change.  The result `false` leaves `publish_entries`. -/
def publishConfChange (s : RaftNode) (cc : ConfChange) : Outcome (RaftNode × Bool) := do
  let (node, confState) ← s.node.applyConfChange cc
  let s := { s with node := node, confState := confState }
  match cc.confChangeType with
  | ConfChangeType.addNode =>
      return (if cc.context = [] then s else s.call (TransportCall.addPeer cc.nodeId cc.context), true)
  | ConfChangeType.removeNode =>
      if cc.nodeId = s.id then return (s, false)
      return (s.call (TransportCall.removePeer cc.nodeId), true)
  | _ => return (s, true)

/-- `publish_entries`.  The entry of an unreadable configuration change is skipped together with the
assignment to `applied_index_`. -/
def publishEntries (codec : ConfChangeCodec) (s : RaftNode) :
    List Entry → Outcome (RaftNode × Bool)
  | [] => pure (s, true)
  | e :: es =>
      match e.type with
      | EntryType.entryNormal =>
          publishEntries codec ((s.publishNormal e).setAppliedIndex e.index) es
      | EntryType.entryConfChange =>
          match codec.unpack e.data with
          | none => publishEntries codec s es
          | some cc => do
              let (s, goOn) ← s.publishConfChange cc
              if goOn then publishEntries codec (s.setAppliedIndex e.index) es
              else return (s, false)
      | EntryType.unknown code => throw (Crash.fatal s!"unknown type {code}")

/-- What `pull_ready_events` does with the committed entries of a `Ready`. -/
def publishCommitted (codec : ConfChangeCodec) (s : RaftNode) (committed : List Entry) :
    Outcome RaftNode := do
  if committed = [] then return s
  let ents ← s.entriesToApply committed
  if ents = [] then return s
  let (s, _) ← s.publishEntries codec ents
  return s

/-- Take over an installed snapshot, and have the store load its data. -/
def publishSnapshot (s : RaftNode) (snap : Snapshot) : Outcome RaftNode :=
  if snap.isEmpty then pure s
  else if snap.metadata.index ≤ s.appliedIndex then
    throw (Crash.fatal s!"snapshot index [{snap.metadata.index
      }] should > progress.appliedIndex [{s.appliedIndex}] + 1")
  else
    let s := { s with
      confState := snap.metadata.confState
      snapshotIndex := snap.metadata.index
      appliedIndex := snap.metadata.index }
    pure (s.post (StoreTask.recoverFromSnapshot snap.data))

end RaftNode

end RaftKv
