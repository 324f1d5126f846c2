import RaftKv.Driver.Monotone
import RaftKv.Server.RaftNode

/-!
# The life of a process

`RaftNode` (`server/raft_node.cpp`) from its start on: what it reads from its disk, the loop of
`pull_ready_events`, and the local snapshots.

* `RaftNode.boot` — the constructor with `replay_WAL`, and the part of `schedule` before the loop.
* `RaftNode.handleReady` — one round of `pull_ready_events`, in the order of the source: write-ahead
  log, snapshot, storage, messages, committed entries, local snapshot, `advance`.
* `RaftNode.Action`, `RaftNode.act` — what happens to a process, restarts included.

Calls of the operating system succeed.  The data that the store returns for a snapshot is left open.
-/

namespace RaftKv

/-- What a process takes from elsewhere, and the values of its settings. -/
structure Site where
  id : Nat
  /-- How many nodes the command line lists. -/
  peers : Nat
  wal : WalFormat
  snap : SnapFormat
  confChange : ConfChangeCodec
  snapCount : Nat := defaultSnapCount
  snapshotCatchUpEntriesN : Nat := RaftKv.snapshotCatchUpEntriesN
  /-- What the operating system's generator will return. -/
  draws : Nat → Nat := fun _ => 0

/-- What a process leaves behind: the directory of its snapshots, and the file of its log. -/
structure Disk where
  snapDir : SnapFolder := ∅
  walFile : Option Bytes := none

namespace RaftNode

/-! ## The start -/

/-- The entries that `read_all` returns are used as if none were a null pointer.  (`append` reads the
first one only; a null pointer further on would be met when that entry is used.) -/
def derefEntries (ents : List (Option Entry)) : Outcome (List Entry) :=
  ents.mapM fun entry =>
    match entry with
    | some e => pure e
    | none => throw (Crash.nullDeref "entries[i]->index")

/-- The storage before the entries of the log are put into it. -/
def loadedStorage (loaded : Option Snapshot) : MemoryStorage :=
  match loaded with
  | none => {}
  | some snapshot => (({} : MemoryStorage).applySnapshot snapshot).1

/-- `replay_WAL`: the storage, the log, the directory, and `last_index_`. -/
def replayWal (site : Site) (disk : Disk) (fileSize : Nat) :
    Outcome (MemoryStorage × Wal × SnapFolder × Nat) := do
  let (snapDir, loaded) := disk.snapDir.load site.snap
  let snapshot := loaded.getD {}
  let storage := loadedStorage loaded
  let wal := Wal.openAt (disk.walFile.getD (Wal.create site.wal)) fileSize
    { index := snapshot.metadata.index, term := snapshot.metadata.term }
  let (wal, hs, ents) ← wal.readAll site.wal {} []
  let ents ← derefEntries ents
  let storage ← (storage.setHardState hs).append ents
  return (storage, wal, snapDir, (ents.getLast?.map Entry.index).getD 0)

def config (site : Site) (storage : MemoryStorage) : Config where
  id := site.id
  electionTick := 10
  heartbeatTick := 1
  storage := storage
  applied := 0
  maxSizePerMsg := 1024 * 1024
  maxCommittedSizePerReady := 0
  maxUncommittedEntriesSize := 2 ^ 30
  maxInflightMsgs := 256
  checkQuorum := true
  preVote := true
  readOnlyOption := ReadOnlyOption.readOnlySafe
  disableProposalForwarding := false
  draws := site.draws

def peerContexts (site : Site) : List PeerContext :=
  (List.range site.peers).map fun i => { id := i + 1 }

/-- The constructor.  That the directory of the log exists is asked before its name is set, so the
node is never restarted but always started. -/
def new (site : Site) (disk : Disk) (fileSize : Nat) : Outcome RaftNode := do
  let (storage, wal, snapDir, lastIndex) ← replayWal site disk fileSize
  let (conf, status) := (config site storage).validate
  if status ≠ Status.ok then throw (Crash.fatal "invalid configure")
  let node ← RawNode.start site.confChange.pack conf (peerContexts site)
  return {
    id := site.id
    lastIndex := lastIndex
    node := node
    snapCount := site.snapCount
    snapDir := snapDir
    wal := wal }

/-- What `schedule` does before it enters the loop.  The data of the snapshot is moved out of the
object that the storage holds; it is what the store is created with. -/
def schedule (s : RaftNode) : RaftNode × Bytes :=
  let snap := s.storage.snapshot
  let s := { s with
    confState := snap.metadata.confState
    snapshotIndex := snap.metadata.index
    appliedIndex := snap.metadata.index }
  (s.setStorage { s.storage with snapshot := { snap with data := [] } }, snap.data)

def boot (site : Site) (disk : Disk) (fileSize : Nat) : Outcome RaftNode := do
  let s ← new site disk fileSize
  return s.schedule.1

/-! ## The loop -/

def saveSnap (site : Site) (s : RaftNode) (snap : Snapshot) : RaftNode :=
  { s with
    wal := s.wal.saveSnapshot site.wal
      { index := snap.metadata.index, term := snap.metadata.term }
    snapDir := s.snapDir.saveSnap site.snap snap }

/-- `data` is what the store returns for its content. -/
def maybeTriggerSnapshot (site : Site) (data : Bytes) (s : RaftNode) : Outcome RaftNode := do
  if uint64Sub s.appliedIndex s.snapshotIndex ≤ s.snapCount then return s
  let (storage, snap, status) ← s.storage.createSnapshot s.appliedIndex (some s.confState) data
  if status ≠ Status.ok then throw (Crash.fatal "create snapshot error")
  let s := (s.setStorage storage).saveSnap site snap
  let compactIndex :=
    if s.appliedIndex > site.snapshotCatchUpEntriesN then
      s.appliedIndex - site.snapshotCatchUpEntriesN
    else 1
  let (storage, status) ← s.storage.compact compactIndex
  if status ≠ Status.ok then throw (Crash.fatal "compact error")
  return { s.setStorage storage with snapshotIndex := s.appliedIndex }

/-- The snapshot of a `Ready` is saved, put into the storage, and published. -/
def installSnapshot (site : Site) (s : RaftNode) (snap : Snapshot) : Outcome RaftNode :=
  if snap.isEmpty then pure s
  else
    let s := s.saveSnap site snap
    (s.setStorage (s.storage.applySnapshot snap).1).publishSnapshot snap

def appendEntries (s : RaftNode) (entries : List Entry) : Outcome RaftNode := do
  let storage ← s.storage.append entries
  return s.setStorage storage

def sendMessages (s : RaftNode) (messages : List Message) : RaftNode :=
  if messages = [] then s else s.call (TransportCall.send messages)

/-- A round up to the call of `maybe_trigger_snapshot`. -/
def settle (site : Site) (s : RaftNode) (rd : Ready) : Outcome RaftNode := do
  let s := { s with wal := s.wal.save site.wal rd.hardState rd.entries }
  let s ← s.installSnapshot site rd.snapshot
  let s ← s.appendEntries rd.entries
  (s.sendMessages rd.messages).publishCommitted site.confChange rd.committedEntries

def advance (s : RaftNode) (rd : Ready) : RaftNode := { s with node := s.node.advance rd }

/-- One round of `pull_ready_events`. -/
def handleReady (site : Site) (data : Bytes) (s : RaftNode) : Outcome RaftNode :=
  if ¬ s.node.hasReady then pure s
  else do
    let (node, rd) ← s.node.ready
    let s := { s with node := node }
    if ¬ rd.containsUpdates then return s
    let s ← s.settle site rd
    let s ← s.maybeTriggerSnapshot site data
    return s.advance rd

/-! ## Runs -/

inductive Action where
  /-- The timer, the network or a client calls the node. -/
  | call (c : Call)
  | handleReady (data : Bytes)
  /-- The process ends, and is started again from a disk. -/
  | restart (disk : Disk) (fileSize : Nat)

def act (site : Site) (s : RaftNode) : Action → Outcome RaftNode
  | Action.call c => do
      let d ← Driver.act site.confChange.pack { node := s.node } c
      return { s with node := d.node }
  | Action.handleReady data => s.handleReady site data
  | Action.restart disk fileSize => boot site disk fileSize

/-- Messages are what their senders make of them, and a `Ready` is only taken by the loop. -/
def Proper (_ : RaftNode) : Action → Prop
  | Action.call c => c.Stamped ∧ c.Numbered ∧ c ≠ Call.ready
  | _ => True

instance (s : RaftNode) : (a : Action) → Decidable (s.Proper a)
  | Action.call c => inferInstanceAs (Decidable (c.Stamped ∧ c.Numbered ∧ c ≠ Call.ready))
  | Action.handleReady _ | Action.restart .. => inferInstanceAs (Decidable True)

/-- A run of a process from its first start on. -/
def Reaches (site : Site) (disk : Disk) (fileSize : Nat) (s : RaftNode) : Prop :=
  ∃ s₀, boot site disk fileSize = Except.ok s₀ ∧ RunOf (act site) Proper s₀ s

end RaftNode

end RaftKv
