import RaftKv.Cluster.Safety
import RaftKv.Server.CrashRuns
import RaftKv.Server.Process

/-!
# The service

Replicas that were all started for the same cluster from empty disks, and the messages they have
sent.  A replica is a process with a store: the raft thread (`RaftNode`), the thread of the store
(`RedisStore`) and the handlers that the two post to each other.  No replica is started again: one
that has ended takes no more steps.  (A process that is started again keeps its database and runs the
commands of its log a second time.)

* `Replica` — a process, and the functions that its threads run.
* `Service.Action`, `Service.act` — what can happen in the service.
* `Service.act_cases` — **an action concerns one replica at most**.
* `ServiceConf`, `Service.Started` — how the replicas are started.
* `Service.cluster` — the cluster of the nodes behind the replicas.
* `Service.Steady` — the condition of the results: no candidate is given a granted pre-vote, no
  replica has committed so much that a local snapshot is due, and no store refuses a write.
-/

namespace RaftKv

/-! ## A replica -/

structure Replica where
  proc : RaftNode
  /-- The store, and the handlers that are posted to the two threads. -/
  threads : Process

namespace Replica

def setNode (s : Replica) (node : RawNode) : Replica := { s with proc := { s.proc with node := node } }

/-- The timer has expired. -/
def tick (s : Replica) : Outcome Replica := do
  let node ← s.proc.node.tick
  return s.setNode node

/-- `RaftNode::process`. -/
def step (m : Message) (s : Replica) : Outcome Replica := do
  let (node, _) ← s.proc.node.step m
  return s.setNode node

/-- The raft thread runs the next handler that `RaftNode::propose` has posted to it. -/
def propose (codecs : Process.Codecs) (s : Replica) : Outcome Replica :=
  match s.threads.raftQueue with
  | [] => pure s
  | h :: _ => do
      let (node, status) ← s.proc.node.propose h.proposal.data
      let threads ← s.threads.act codecs (Process.Action.propose status)
      return { s.setNode node with threads := threads }

/-- The request that the data of an entry was proposed for. -/
def origin (p : Process) (e : Entry) : Option Nat :=
  (p.proposed.find? fun h => h.proposal.data = e.data).map Process.Posted.origin

/-- What the raft thread posts to the thread of the store. -/
def publish (codecs : Process.Codecs) (p : Process) : StoreTask → Outcome Process
  | StoreTask.readCommit e => p.act codecs (Process.Action.publishEntry ⟨e, origin p e⟩)
  | StoreTask.recoverFromSnapshot data => p.act codecs (Process.Action.publishSnapshot data)

/-- A round of `pull_ready_events`, with the messages that it sends. -/
def handleReady (codecs : Process.Codecs) (site : Site) (data : Bytes) (s : Replica) :
    Outcome (Replica × List Message) := do
  let proc ← s.proc.handleReady site data
  let threads ←
    (proc.storeTasks.drop s.proc.storeTasks.length).foldlM (publish codecs) s.threads
  return ({ proc := proc, threads := threads },
    proc.sentMessages.drop s.proc.sentMessages.length)

/-- What the thread of the store or a session does. -/
def work (codecs : Process.Codecs) (a : Process.Action) (s : Replica) : Outcome Replica := do
  let threads ← s.threads.act codecs a
  return { s with threads := threads }

end Replica

/-! ## The service -/

/-- How the replicas of a service are started. -/
structure ServiceConf where
  codecs : Process.Codecs
  confChange : ConfChangeCodec
  peers : Nat
  peers_pos : 0 < peers
  site : Nat → Site
  site_id : ∀ i, (site i).id = i
  site_peers : ∀ i, (site i).peers = peers
  site_confChange : ∀ i, (site i).confChange = confChange
  /-- The record that a new log begins with can be read back. -/
  site_wal : ∀ i, (WalItem.snapshot {}).Fits (site i).wal
  unpack_pack : ∀ peer ∈ RaftNode.peerContexts (site 0),
    confChange.unpack (confChange.pack peer.confChange) = some peer.confChange
  /-- What the stores find in their databases. -/
  db : RocksDB := OrderedMap.empty

structure Service where
  replicas : Nat → Option Replica
  /-- Every message that was ever sent. -/
  net : List Message

namespace Service

/-- What the replicas do; none of them is started again. -/
inductive Action where
  | tick (i : Nat)
  /-- Deliver the `k`-th message. -/
  | deliver (k : Nat)
  | propose (i : Nat)
  | handleReady (i : Nat) (data : Bytes)
  /-- A session calls `set`. -/
  | set (i : Nat) (key value : Bytes)
  /-- A session calls `del`. -/
  | del (i : Nat) (keys : List Bytes)
  /-- The thread of the store runs its next handler; these of its writes the database refuses. -/
  | runStore (i : Nat) (refused : List Nat)
  deriving DecidableEq, Repr

/-- Replica `i` has become `s`, and has sent messages. -/
def put (c : Service) (i : Nat) (s : Replica) (sent : List Message) : Service where
  replicas := Function.update c.replicas i (some s)
  net := c.net ++ sent

/-- Let replica `i` do `f`, and send the messages `f` returns. -/
def onReplica (c : Service) (i : Nat) (f : Replica → Outcome (Replica × List Message)) :
    Outcome Service :=
  match c.replicas i with
  | none => pure c
  | some s => do
      let (s, sent) ← f s
      return c.put i s sent

/-- Something that sends nothing. -/
def quiet (f : Replica → Outcome Replica) (s : Replica) : Outcome (Replica × List Message) := do
  let s ← f s
  return (s, [])

def act (S : ServiceConf) (c : Service) : Action → Outcome Service
  | Action.tick i => c.onReplica i (quiet Replica.tick)
  | Action.deliver k =>
      match c.net[k]? with
      | none => pure c
      | some m => c.onReplica m.toId (quiet (Replica.step m))
  | Action.propose i => c.onReplica i (quiet (Replica.propose S.codecs))
  | Action.handleReady i data => c.onReplica i (Replica.handleReady S.codecs (S.site i) data)
  | Action.set i key value =>
      c.onReplica i (quiet (Replica.work S.codecs (Process.Action.set key value)))
  | Action.del i keys => c.onReplica i (quiet (Replica.work S.codecs (Process.Action.del keys)))
  | Action.runStore i refused =>
      c.onReplica i (quiet (Replica.work S.codecs
        (Process.Action.runStore fun j => decide (j ∉ refused))))

/-! ## What an action does -/

/-- What an action does to replica `i`. -/
inductive Does (S : ServiceConf) (c : Service) (i : Nat) (s : Replica) :
    Action → Replica → List Message → Prop
  | tick {s' : Replica} (h : s.tick = Except.ok s') : Does S c i s (Action.tick i) s' []
  | deliver {k : Nat} {m : Message} {s' : Replica} (hm : c.net[k]? = some m) (hto : m.toId = i)
      (h : s.step m = Except.ok s') : Does S c i s (Action.deliver k) s' []
  | propose {s' : Replica} (h : s.propose S.codecs = Except.ok s') :
      Does S c i s (Action.propose i) s' []
  | handleReady {data : Bytes} {s' : Replica} {sent : List Message}
      (h : s.handleReady S.codecs (S.site i) data = Except.ok (s', sent)) :
      Does S c i s (Action.handleReady i data) s' sent
  | set {key value : Bytes} {s' : Replica}
      (h : s.work S.codecs (Process.Action.set key value) = Except.ok s') :
      Does S c i s (Action.set i key value) s' []
  | del {keys : List Bytes} {s' : Replica}
      (h : s.work S.codecs (Process.Action.del keys) = Except.ok s') :
      Does S c i s (Action.del i keys) s' []
  | runStore {refused : List Nat} {s' : Replica}
      (h : s.work S.codecs (Process.Action.runStore fun j => decide (j ∉ refused)) =
        Except.ok s') :
      Does S c i s (Action.runStore i refused) s' []

section Cases

variable {S : ServiceConf} {c c' : Service} {i : Nat}

lemma onReplica_cases {f : Replica → Outcome (Replica × List Message)}
    (h : c.onReplica i f = Except.ok c') : c' = c ∨ ∃ s s' sent, c.replicas i = some s ∧
      f s = Except.ok (s', sent) ∧ c' = c.put i s' sent := by
  rw [onReplica] at h
  split at h
  · exact Or.inl (Outcome.pure_eq_ok.mp h).symm
  · rename_i s hs
    obtain ⟨⟨s', sent⟩, hs', h⟩ := Outcome.bind_eq_ok.mp h
    exact Or.inr ⟨s, s', sent, hs, hs', (Outcome.pure_eq_ok.mp h).symm⟩

lemma quiet_cases {f : Replica → Outcome Replica} (h : c.onReplica i (quiet f) = Except.ok c') :
    c' = c ∨ ∃ s s', c.replicas i = some s ∧ f s = Except.ok s' ∧ c' = c.put i s' [] := by
  rcases onReplica_cases h with rfl | ⟨s, s', sent, hs, hq, rfl⟩
  · exact Or.inl rfl
  · obtain ⟨s₁, hs₁, hq⟩ := Outcome.bind_eq_ok.mp hq
    simp only [Outcome.pure_eq_ok, Prod.mk.injEq] at hq
    obtain ⟨rfl, rfl⟩ := hq
    exact Or.inr ⟨s, s₁, hs, hs₁, rfl⟩

/-- **What an action does**: nothing, or something to one replica. -/
theorem act_cases {a : Action} (h : c.act S a = Except.ok c') :
    c' = c ∨ ∃ i s s' sent, c.replicas i = some s ∧ Does S c i s a s' sent ∧
      c' = c.put i s' sent := by
  have hquiet : ∀ {i : Nat} {f : Replica → Outcome Replica},
      c.onReplica i (quiet f) = Except.ok c' →
      (∀ s s', f s = Except.ok s' → Does S c i s a s' []) →
      c' = c ∨ ∃ i s s' sent, c.replicas i = some s ∧ Does S c i s a s' sent ∧
        c' = c.put i s' sent := by
    intro i f h hdoes
    rcases quiet_cases h with hsame | ⟨s, s', hs, hs', hc'⟩
    · exact Or.inl hsame
    · exact Or.inr ⟨i, s, s', [], hs, hdoes s s' hs', hc'⟩
  cases a with
  | tick i => exact hquiet h fun s s' hs' => Does.tick hs'
  | deliver k =>
      rw [act] at h
      split at h
      · exact Or.inl (Outcome.pure_eq_ok.mp h).symm
      · rename_i m hm
        exact hquiet h fun s s' hs' => Does.deliver hm rfl hs'
  | propose i => exact hquiet h fun s s' hs' => Does.propose hs'
  | handleReady i data =>
      rcases onReplica_cases h with hsame | ⟨s, s', sent, hs, hs', hc'⟩
      · exact Or.inl hsame
      · exact Or.inr ⟨i, s, s', sent, hs, Does.handleReady hs', hc'⟩
  | set i key value => exact hquiet h fun s s' hs' => Does.set hs'
  | del i keys => exact hquiet h fun s s' hs' => Does.del hs'
  | runStore i refused => exact hquiet h fun s s' hs' => Does.runStore hs'

end Cases

/-! ## The start -/

/-- All replicas have just been started from empty disks. -/
def Started (S : ServiceConf) (c : Service) : Prop :=
  c.net = [] ∧ ∀ i s, c.replicas i = some s → s.threads = Process.start i S.db ∧
    ∃ size, RaftNode.boot (S.site i) {} size = Except.ok s.proc

/-! ## The nodes behind the replicas -/

/-- The nodes behind the replicas. -/
def cluster (c : Service) : Cluster where
  nodes i := (c.replicas i).map (·.proc.node)
  net := c.net

end Service

lemma Config.validate_fields (c : Config) :
    c.validate.1.id = c.id ∧ c.validate.1.peers = c.peers := by
  simp only [Config.validate, apply_ite Prod.fst, apply_ite Config.id, apply_ite Config.peers,
    ite_self, and_self]

namespace ServiceConf

/-- The configuration that the node of a replica is started with. -/
def nodeConf (S : ServiceConf) (i : Nat) : Config := (RaftNode.config (S.site i) {}).validate.1

lemma peerContexts_nonempty (S : ServiceConf) : RaftNode.peerContexts (S.site 0) ≠ [] := by
  have hpos := S.peers_pos
  simp only [RaftNode.peerContexts, S.site_peers, ne_eq, List.map_eq_nil_iff, List.range_eq_nil]
  omega

lemma nodeConf_id (S : ServiceConf) (i : Nat) : (S.nodeConf i).id = i :=
  (Config.validate_fields _).1.trans (S.site_id i)

lemma nodeConf_storage (S : ServiceConf) (i : Nat) : (S.nodeConf i).storage = {} :=
  (RaftNode.validate_storage _).1

lemma nodeConf_applied (S : ServiceConf) (i : Nat) : (S.nodeConf i).applied = 0 :=
  (RaftNode.validate_storage _).2

lemma nodeConf_peers (S : ServiceConf) (i : Nat) :
    ∀ id ∈ (S.nodeConf i).peers, id ∈ (RaftNode.peerContexts (S.site 0)).map PeerContext.id := by
  intro id hid
  rw [nodeConf, (Config.validate_fields _).2] at hid
  cases hid

/-- How the nodes behind the replicas are started. -/
def clusterConf (S : ServiceConf) : ClusterConf where
  codec := S.confChange
  peers := RaftNode.peerContexts (S.site 0)
  peers_nonempty := S.peerContexts_nonempty
  unpack_pack := S.unpack_pack
  conf := S.nodeConf
  conf_id := S.nodeConf_id
  conf_storage := S.nodeConf_storage
  conf_applied := S.nodeConf_applied
  conf_peers := S.nodeConf_peers

end ServiceConf

namespace Service

/-- **The condition of the results**: no candidate is given a granted pre-vote, no round begins with so
much committed that a local snapshot can come due, and the database refuses no write. -/
def Steady (c : Service) : Action → Prop
  | Action.deliver k => CleanAction c.cluster (RaftKv.Action.deliver k)
  | Action.handleReady i _ => ∀ s ∈ c.replicas i, s.proc.log.committed ≤ s.proc.snapCount
  | Action.runStore _ refused => refused = []
  | _ => True

instance (c : Service) : (a : Action) → Decidable (c.Steady a)
  | Action.deliver _ => inferInstanceAs (Decidable (CleanAction ..))
  | Action.handleReady .. => inferInstanceAs (Decidable (∀ _ ∈ _, _))
  | Action.runStore .. => inferInstanceAs (Decidable (_ = _))
  | Action.tick _ | Action.propose _ | Action.set .. | Action.del .. =>
      inferInstanceAs (Decidable True)

end Service

/-! ## A service of three replicas -/

namespace ThreeReplicas

def site (i : Nat) : Site where
  id := i
  peers := 3
  wal := WalFormat.msgpack
  snap := SnapFormat.msgpack
  confChange := ThreeNodes.codec

def conf : ServiceConf where
  codecs := Process.msgpack
  confChange := ThreeNodes.codec
  peers := 3
  peers_pos := by decide
  site := site
  site_id _ := rfl
  site_peers _ := rfl
  site_confChange _ := rfl
  site_wal _ := show (WalItem.snapshot {}).Fits WalFormat.msgpack by decide
  unpack_pack := by decide

def start : Service where
  replicas i :=
    if i = 1 ∨ i = 2 ∨ i = 3 then
      (RaftNode.boot (site i) {} 0).toOption.map fun proc =>
        { proc := proc, threads := Process.start i OrderedMap.empty }
    else none
  net := []

theorem started : Service.Started conf start := by
  refine ⟨rfl, fun i s hs => ?_⟩
  simp only [start] at hs
  split at hs
  · obtain ⟨proc, hproc, rfl⟩ := Option.map_eq_some_iff.mp hs
    exact ⟨rfl, 0, Outcome.eq_ok_of_toOption hproc⟩
  · cases hs

/-- Node 1 is elected with the votes of node 2, and commits the first entry of its term. -/
def elect : List Service.Action :=
  [Service.Action.handleReady 1 [], Service.Action.handleReady 2 []] ++
    List.replicate 10 (Service.Action.tick 1) ++
    [Service.Action.handleReady 1 [], Service.Action.deliver 1, Service.Action.handleReady 2 [],
      Service.Action.deliver 2, Service.Action.handleReady 1 [], Service.Action.deliver 4,
      Service.Action.handleReady 2 [], Service.Action.deliver 5, Service.Action.handleReady 1 [],
      Service.Action.deliver 7, Service.Action.handleReady 2 [], Service.Action.deliver 8]

/-- Replica 1 commits and runs a `set`. -/
def write : List Service.Action :=
  [Service.Action.set 1 [107] [118], Service.Action.propose 1, Service.Action.handleReady 1 [],
    Service.Action.deliver 10, Service.Action.handleReady 2 [], Service.Action.deliver 11,
    Service.Action.handleReady 1 [], Service.Action.runStore 1 [], Service.Action.runStore 1 []]

/-- Replica 2 learns that it is committed, and runs it. -/
def follow : List Service.Action :=
  [Service.Action.deliver 12, Service.Action.handleReady 2 [], Service.Action.runStore 2 []]

/-- A session of replica 2 writes to the same key: the proposal is forwarded to replica 1, and
replica 2 runs the command. -/
def overwrite : List Service.Action :=
  [Service.Action.set 2 [107] [119], Service.Action.propose 2, Service.Action.handleReady 2 [],
    Service.Action.deliver 14, Service.Action.handleReady 1 [], Service.Action.deliver 15,
    Service.Action.handleReady 2 [], Service.Action.deliver 16, Service.Action.handleReady 1 [],
    Service.Action.deliver 17, Service.Action.handleReady 2 [], Service.Action.runStore 2 [],
    Service.Action.runStore 2 []]

end ThreeReplicas

end RaftKv
