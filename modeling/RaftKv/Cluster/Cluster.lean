import RaftKv.Core.Run
import RaftKv.Raft.Node

/-!
# A cluster

Nodes that were all started with the same peers, and the messages they have sent.  A message stays
in the network, and any message may be delivered at any time: messages are delayed, reordered,
duplicated and lost.  An action that ends a process has no successor state.

* `ConfChangeCodec` — the packing of configuration changes by the msgpack library.
* `pullReady` — what the process around a node does with a `Ready`, as long as there are no
  snapshots.
* `Action`, `Cluster.act` — what can happen in a cluster.
* `ClusterConf`, `Started`, `Run` — the runs of a cluster.
-/

namespace RaftKv

/-- How a process packs and unpacks configuration changes; `none` is a caught exception. -/
structure ConfChangeCodec where
  pack : ConfChange → Bytes
  unpack : Bytes → Option ConfChange

/-- The configuration change that enters a peer of a new cluster. -/
def PeerContext.confChange (peer : PeerContext) : ConfChange :=
  { confChangeType := ConfChangeType.addNode, nodeId := peer.id, context := peer.context }

/-! ## The process around a node -/

/-- Apply an entry: only configuration changes concern the node. -/
def applyEntry (codec : ConfChangeCodec) (n : RawNode) (e : Entry) : Outcome RawNode :=
  match e.type with
  | EntryType.entryConfChange =>
      match codec.unpack e.data with
      | none => pure n
      | some cc => do
          let (n, _) ← n.applyConfChange cc
          return n
  | _ => pure n

/-- Take a `Ready`, store its entries, apply what is committed, and advance.  The messages of the
`Ready` are returned. -/
def pullReady (codec : ConfChangeCodec) (n : RawNode) : Outcome (RawNode × List Message) := do
  let (n, rd) ← n.ready
  let storage ← n.raft.raftLog.storage.append rd.entries
  let n ← rd.committedEntries.foldlM (applyEntry codec) (n.setStorage storage)
  return (n.advance rd, rd.messages)

/-! ## The cluster -/

structure Cluster where
  nodes : Nat → Option RawNode
  /-- Every message that was ever sent. -/
  net : List Message

inductive Action where
  | tick (i : Nat)
  /-- `MsgHup`. -/
  | campaign (i : Nat)
  | propose (i : Nat) (data : Bytes)
  | readIndex (i : Nat) (rctx : Bytes)
  | transferLeadership (i lead transferee : Nat)
  | reportUnreachable (i id : Nat)
  | reportSnapshot (i id : Nat) (status : SnapshotStatus)
  /-- Deliver the `k`-th message. -/
  | deliver (k : Nat)
  | pullReady (i : Nat)
  deriving DecidableEq, Repr

namespace Cluster

/-- Let node `i` do `f`, and send the messages `f` returns. -/
def onNode (c : Cluster) (i : Nat) (f : RawNode → Outcome (RawNode × List Message)) :
    Outcome Cluster :=
  match c.nodes i with
  | none => pure c
  | some n => do
      let (n, sent) ← f n
      return { nodes := Function.update c.nodes i (some n), net := c.net ++ sent }

/-- A call of the node that queues its messages. -/
def quiet (f : RawNode → Outcome RawNode) (n : RawNode) : Outcome (RawNode × List Message) := do
  let n ← f n
  return (n, [])

/-- A call whose status the process passes on. -/
def dropStatus (f : RawNode → Outcome (RawNode × Status)) (n : RawNode) : Outcome RawNode := do
  let (n, _) ← f n
  return n

def act (codec : ConfChangeCodec) (c : Cluster) : Action → Outcome Cluster
  | Action.tick i => c.onNode i (quiet RawNode.tick)
  | Action.campaign i => c.onNode i (quiet (dropStatus RawNode.campaign))
  | Action.propose i data => c.onNode i (quiet (dropStatus (·.propose data)))
  | Action.readIndex i rctx => c.onNode i (quiet (dropStatus (·.readIndex rctx)))
  | Action.transferLeadership i lead transferee =>
      c.onNode i (quiet (·.transferLeadership lead transferee))
  | Action.reportUnreachable i id => c.onNode i (quiet (·.reportUnreachable id))
  | Action.reportSnapshot i id status => c.onNode i (quiet (·.reportSnapshot id status))
  | Action.deliver k =>
      match c.net[k]? with
      | none => pure c
      | some m => c.onNode m.toId (quiet (dropStatus (·.step m)))
  | Action.pullReady i => c.onNode i (RaftKv.pullReady codec)

end Cluster

/-! ## Runs -/

/-- How the nodes of a cluster are started: with the same peers, from an empty storage. -/
structure ClusterConf where
  codec : ConfChangeCodec
  peers : List PeerContext
  peers_nonempty : peers ≠ []
  /-- The codec reads back what it has packed. -/
  unpack_pack : ∀ peer ∈ peers, codec.unpack (codec.pack peer.confChange) = some peer.confChange
  conf : Nat → Config
  conf_id : ∀ i, (conf i).id = i
  conf_storage : ∀ i, (conf i).storage = {}
  conf_applied : ∀ i, (conf i).applied = 0
  conf_peers : ∀ i, ∀ id ∈ (conf i).peers, id ∈ peers.map PeerContext.id

/-- All nodes have just been started, and none has id 0. -/
def Started (C : ClusterConf) (c : Cluster) : Prop :=
  c.net = [] ∧ ∀ i n, c.nodes i = some n →
    i ≠ 0 ∧ RawNode.start C.codec.pack (C.conf i) C.peers = Except.ok n

/-- A run in which every action meets a condition on the state before it. -/
abbrev RunWhere (C : ClusterConf) (P : Cluster → Action → Prop) : Cluster → Cluster → Prop :=
  RunOf (fun c a => c.act C.codec a) P

/-- Any run. -/
abbrev Run (C : ClusterConf) : Cluster → Cluster → Prop := RunWhere C fun _ _ => True

/-- Act, if the condition is met. -/
abbrev RunWhere.exec (C : ClusterConf) (P : Cluster → Action → Prop)
    [∀ c a, Decidable (P c a)] : Cluster → Action → Outcome Cluster :=
  RunOf.exec (fun c a => c.act C.codec a) P

/-- Node `i` is the leader of term `t`. -/
def Cluster.Leads (c : Cluster) (i t : Nat) : Prop :=
  ∃ n, c.nodes i = some n ∧ n.raft.state = RaftState.leader ∧ n.raft.term = t

instance (c : Cluster) (i t : Nat) : Decidable (c.Leads i t) :=
  match hn : c.nodes i with
  | none => isFalse fun ⟨n, h, _⟩ => by rw [hn] at h; cases h
  | some n => decidable_of_iff (n.raft.state = RaftState.leader ∧ n.raft.term = t)
      ⟨fun h => ⟨n, hn, h⟩, fun ⟨m, hm, h⟩ => by rw [hn] at hm; cases hm; exact h⟩

/-! ## A cluster of three nodes -/

namespace ThreeNodes

/-- The library's packing, for the small numbers of this cluster. -/
def codec : ConfChangeCodec where
  pack cc :=
    [0x94, UInt8.ofNat cc.id, 0x00, UInt8.ofNat cc.nodeId, 0xc4, UInt8.ofNat cc.context.length] ++
      cc.context
  unpack
    | 0x94 :: id :: 0x00 :: nodeId :: 0xc4 :: len :: context =>
        if context.length = len.toNat then
          some { id := id.toNat, nodeId := nodeId.toNat, context := context }
        else none
    | _ => none

/-- The parameters of the server, but for the pre-vote. -/
def config (preVote : Bool) (i : Nat) : Config where
  id := i
  electionTick := 10
  heartbeatTick := 1
  maxSizePerMsg := 1024 * 1024
  maxCommittedSizePerReady := 1024 * 1024
  maxUncommittedEntriesSize := 2 ^ 30
  maxInflightMsgs := 256
  checkQuorum := true
  preVote := preVote

def conf (preVote : Bool) : ClusterConf where
  codec := codec
  peers := [{ id := 1 }, { id := 2 }, { id := 3 }]
  peers_nonempty := by decide
  unpack_pack := by decide
  conf := config preVote
  conf_id _ := rfl
  conf_storage _ := rfl
  conf_applied _ := rfl
  conf_peers _ _ h := by cases h

def start (preVote : Bool) : Cluster where
  nodes i :=
    if i = 1 ∨ i = 2 ∨ i = 3 then
      (RawNode.start codec.pack (config preVote i) (conf preVote).peers).toOption
    else none
  net := []

theorem started (preVote : Bool) : Started (conf preVote) (start preVote) := by
  refine ⟨rfl, fun i n hn => ?_⟩
  simp only [start] at hn
  split at hn
  · rename_i hi
    refine ⟨by omega, ?_⟩
    cases hstart : RawNode.start codec.pack (config preVote i) (conf preVote).peers with
    | error e => simp [hstart, Except.toOption] at hn
    | ok m =>
        simp only [hstart, Except.toOption, Option.some.injEq] at hn
        exact hn ▸ hstart
  · cases hn

end ThreeNodes

end RaftKv
