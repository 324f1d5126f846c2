import RaftKv.Service.Stores

/-!
# The replicas agree

* `Replica.Upheld`, `Service.Upheld` — **the invariant**: the nodes behind the replicas are a cluster
  that follows the abstract replication, what a process has posted to its store are the commands of a
  committed log, and its threads have run with them.
* `Service.Upheld.act` — one action keeps it, and is at most one action of the cluster.
* `Service.refines` — **a run of the service is a run of the cluster of its nodes**.
* `Service.replicas_agree` — **the stores run one sequence of commands**, each as far as it has come.
-/

namespace RaftKv

open Replication RaftLog

/-! ## The node behind a replica -/

section Node

variable {M : Membership} {w : World Nat Entry} {i : Nat} {n n' : RawNode}

/-- A message whose claim is true carries a term where its type asks for one. -/
lemma Claims.stamped {m : Message} (hm : Claims M w i m) (hinv : Inv M.setting w) :
    m.term = 0 → m.type ≠ MessageType.msgApp ∧
      m.type ≠ MessageType.msgHeartbeat ∧ m.type ≠ MessageType.msgSnap := by
  intro hzero
  refine ⟨fun htype => ?_, fun htype => ?_, fun htype => ?_⟩
  · simp only [Claims, htype] at hm
    exact absurd (hm.term_pos hinv) (by omega)
  · simp only [Claims, htype] at hm
    exact absurd (hm.term_pos hinv) (by omega)
  · simp only [Claims, htype] at hm

/-- A message whose claim is true only moves the log on. -/
lemma Claims.moves (hinv : Inv M.setting w) (hnum : ∀ t, Numbered 1 (w.llog t)) {m : Message}
    {status : Status} (hm : Claims M w i m) (h : n.stepRaft m = Except.ok (n', status)) :
    Moves n.raft.raftLog n'.raft.raftLog := by
  obtain ⟨⟨r, s⟩, hr, h⟩ := Outcome.bind_eq_ok.mp h
  cases Outcome.pure_eq_ok.mp h
  refine Raft.Effects.moves (fun htype => ?_) (Raft.Effects.step (hm.stamped hinv) hr)
  simp only [Claims, htype] at hm
  have hdrop := (hnum m.term).drop m.index
  rw [List.prefix_iff_eq_take.mp hm.entries, Nat.add_comm]
  exact hdrop.take _

lemma RaftLog.Moves.applied {l l' : RaftLog} (h : Moves l l') : l'.applied = l.applied := by
  induction h with
  | refl => rfl
  | tail _ hmove ih => exact hmove.applied.trans ih

end Node

/-- A node that is only moved on leaves the apply index where it is. -/
lemma RaftNode.Paced.moves {s : RaftNode} {node : RawNode} (h : s.Paced)
    (hmoves : Moves s.log node.raft.raftLog) : ({ s with node := node } : RaftNode).Paced := by
  refine ⟨h.snapshotIndex, h.applied.trans hmoves.applied.symm, ?_⟩
  show node.raft.raftLog.applied ≤ node.raft.raftLog.committed
  rw [hmoves.applied]
  exact h.applied_le.trans hmoves.committed_le

lemma RaftNode.readCommits_of_storeTasks {s : RaftNode} {es : List Entry}
    (h : s.storeTasks = es.map StoreTask.readCommit) : s.readCommits = es := by
  rw [readCommits, h, List.filterMap_map]
  exact List.filterMap_some

/-! ## The invariant -/

/-- What holds of a replica. -/
structure Replica.Upheld (S : ServiceConf) (w : World Nat Entry) (s : Replica) : Prop where
  paced : s.proc.Paced
  /-- The commands of a committed log are posted to the store. -/
  posted : ∃ t p, w.Committed S.clusterConf.membership.setting t p ∧
    p.length = s.proc.appliedIndex ∧ s.proc.storeTasks = (commands p).map StoreTask.readCommit

/-- The threads of a replica, and the commands that were posted to its store. -/
def Replica.fed (s : Replica) : Process.Fed where
  cmds := s.proc.readCommits
  process := s.threads

/-- What holds of the service. -/
structure Service.Upheld (S : ServiceConf) (c : Service) (w : World Nat Entry) : Prop where
  follows : c.cluster.Follows S.clusterConf w
  replicas : ∀ i s, c.replicas i = some s → s.Upheld S w
  feeds : ∀ i s, c.replicas i = some s →
    Process.Feeds S.codecs ⟨[], Process.start i S.db⟩ s.fed

/-- The commands that the store of a replica has run. -/
def Replica.ran (s : Replica) : List Entry := s.fed.ran

namespace Replica.Upheld

variable {S : ServiceConf} {w w' : World Nat Entry} {s : Replica} {i : Nat}

/-- What is committed stays committed. -/
lemma later (h : s.Upheld S w) (hl : w.Later w') : s.Upheld S w' := by
  obtain ⟨t, p, hcommitted, hrest⟩ := h.posted
  exact ⟨h.paced, ⟨t, p, hl.committed hcommitted, hrest⟩⟩

/-- The node is moved on. -/
lemma moves (h : s.Upheld S w) {node : RawNode} (hmoves : Moves s.proc.log node.raft.raftLog) :
    (s.setNode node).Upheld S w := ⟨h.paced.moves hmoves, h.posted⟩

/-- What was posted to the store are the commands among the entries that the log begins with. -/
lemma storeTasks_eq (h : s.Upheld S w) (hinv : Inv S.clusterConf.membership.setting w)
    (hsim : Sim S.clusterConf.membership w i s.proc.node.raft) :
    s.proc.storeTasks =
      (commands (s.proc.log.logical.take s.proc.appliedIndex)).map StoreTask.readCommit := by
  obtain ⟨t, p, hcommitted, hlen, hposted⟩ := h.posted
  have hroom : s.proc.appliedIndex ≤ s.proc.log.committed := by
    rw [h.paced.applied]
    exact h.paced.applied_le
  have hle : p.length ≤ (s.proc.log.logical.take s.proc.log.committed).length := by
    have hcommit : s.proc.log.committed ≤ s.proc.log.logical.length := hsim.committed_le hinv
    rw [List.length_take]
    omega
  have hpre : p <+: s.proc.log.logical.take s.proc.log.committed :=
    (hinv.committed_comparable hcommitted (hsim.committed hinv)).elim (fun h => h) fun h =>
      (h.eq_of_length_le hle) ▸ List.prefix_refl _
  rw [hposted, List.prefix_iff_eq_take.mp hpre, hlen, List.take_take, min_eq_left hroom]

/-- **A round posts the next commands of the committed log.** -/
theorem handleReady (h : s.Upheld S w) (hinv : Inv S.clusterConf.membership.setting w)
    (hsim : Sim S.clusterConf.membership w i s.proc.node.raft)
    (hsmall : s.proc.log.committed ≤ s.proc.snapCount) {data : Bytes} {s' : Replica}
    {sent : List Message}
    (hok : s.handleReady S.codecs (S.site i) data = Except.ok (s', sent)) :
    s'.Upheld S w ∧ Process.Feeds S.codecs s.fed s'.fed ∧ (s' = s ∧ sent = [] ∨
      pullReady S.confChange s.proc.node = Except.ok (s'.proc.node, sent)) := by
  obtain ⟨proc, hround, hok⟩ := Outcome.bind_eq_ok.mp hok
  obtain ⟨threads, hpublish, hok⟩ := Outcome.bind_eq_ok.mp hok
  simp only [Outcome.pure_eq_ok, Prod.mk.injEq] at hok
  obtain ⟨rfl, rfl⟩ := hok
  rcases RaftNode.handleReady_pullReady (C := S.clusterConf) (S.site_confChange i) hinv hsim h.paced
    hsmall hround with rfl | ⟨sent, es, hpull, hsent, hes, htasks, happlied, hpaced, hcount⟩
  · rw [List.drop_length, List.foldlM_nil] at hpublish
    cases Outcome.pure_eq_ok.mp hpublish
    exact ⟨h, RunOf.refl _, Or.inl ⟨rfl, List.drop_length⟩⟩
  have hsim' := (pullReady_sim hinv hsim hpull).1
  have hlogical : proc.log.logical = s.proc.log.logical := hsim'.log.symm.trans hsim.log
  have hroom : proc.appliedIndex ≤ proc.log.committed := by
    rw [hpaced.applied]
    exact hpaced.applied_le
  have hcommit : proc.log.committed ≤ proc.log.logical.length := hsim'.committed_le hinv
  -- what is published is where the log begins
  have hnext : s.proc.log.logical.take s.proc.appliedIndex ++ es =
      proc.log.logical.take proc.appliedIndex := by
    rw [happlied, List.take_add, hlogical, ← List.prefix_iff_eq_take.mp hes]
  have hposted := h.storeTasks_eq hinv hsim
  have hposted' : proc.storeTasks =
      (commands (proc.log.logical.take proc.appliedIndex)).map StoreTask.readCommit := by
    rw [htasks, hposted, ← hnext, commands_append, List.map_append]
  rw [htasks, List.drop_left] at hpublish
  rw [hsent, List.drop_left]
  have hcommitted := (hsim'.committed hinv).of_isPrefix (List.take_prefix_take_left hroom)
  refine ⟨⟨hpaced, ⟨_, _, hcommitted, ?_, hposted'⟩⟩, ?_, Or.inr hpull⟩
  · exact List.length_take_of_le (hroom.trans hcommit)
  · rw [fed, fed, RaftNode.readCommits_of_storeTasks hposted,
      RaftNode.readCommits_of_storeTasks hposted', ← hnext, commands_append]
    refine Process.Feeds.publishAll (fun e he => ?_) hpublish
    have := List.of_mem_filter he
    simp only [Bool.and_eq_true, bne_iff_ne] at this
    exact this.2

end Replica.Upheld

/-! ## The cluster behind the service -/

namespace Service

variable {S : ServiceConf} {c c' c₀ c₁ c₂ : Service} {w : World Nat Entry} {i : Nat}
  {s s' : Replica} {sent : List Message}

lemma cluster_put : (c.put i s sent).cluster =
    { nodes := Function.update c.cluster.nodes i (some s.proc.node), net := c.net ++ sent } := by
  simp only [cluster, put, Cluster.mk.injEq, and_true]
  funext j
  by_cases hj : j = i
  · subst hj
    simp
  · simp [Function.update_of_ne hj]

/-- A replica is the one that was put, or an old one. -/
lemma replicas_put {j : Nat} {r : Replica} (hr : (c.put i s sent).replicas j = some r) :
    j = i ∧ r = s ∨ j ≠ i ∧ c.replicas j = some r := by
  simp only [put] at hr
  by_cases hj : j = i
  · subst hj
    rw [Function.update_self, Option.some.injEq] at hr
    exact Or.inl ⟨rfl, hr.symm⟩
  · rw [Function.update_of_ne hj] at hr
    exact Or.inr ⟨hj, hr⟩

lemma nodes_cluster (hs : c.replicas i = some s) : c.cluster.nodes i = some s.proc.node := by
  simp [cluster, hs]

/-- The node stays as it is, and sends nothing. -/
lemma cluster_put_still (hs : c.replicas i = some s) (hnode : s'.proc.node = s.proc.node) :
    (c.put i s' []).cluster = c.cluster := by
  rw [cluster_put, hnode, List.append_nil, ← nodes_cluster hs, Function.update_eq_self]
  rfl

/-- The node does what it does in the cluster. -/
lemma onNode_put {f : RawNode → Outcome (RawNode × List Message)} (hs : c.replicas i = some s)
    (hf : f s.proc.node = Except.ok (s'.proc.node, sent)) :
    c.cluster.onNode i f = Except.ok (c.put i s' sent).cluster := by
  rw [Cluster.onNode, nodes_cluster hs]
  refine Outcome.bind_eq_ok.mpr ⟨_, hf, ?_⟩
  rw [cluster_put]
  rfl

/-- What an action does to the cluster: nothing, or what one action of the cluster does. -/
def Mirrors (S : ServiceConf) (c c' : Service) : Prop :=
  c'.cluster = c.cluster ∨ ∃ a, CleanAction c.cluster a ∧
    c.cluster.act S.confChange a = Except.ok c'.cluster

/-- The replicas are still there, and their threads have gone on. -/
def Onward (S : ServiceConf) (c c' : Service) : Prop :=
  ∀ i s, c.replicas i = some s → ∃ s', c'.replicas i = some s' ∧
    Process.Feeds S.codecs s.fed s'.fed

lemma Onward.refl (c : Service) : Onward S c c := fun _ s hs => ⟨s, hs, RunOf.refl _⟩

lemma Onward.trans (h₁ : Onward S c c₁) (h₂ : Onward S c₁ c₂) : Onward S c c₂ := by
  intro i s hs
  obtain ⟨s₁, hs₁, hfeeds₁⟩ := h₁ i s hs
  obtain ⟨s₂, hs₂, hfeeds₂⟩ := h₂ i s₁ hs₁
  exact ⟨s₂, hs₂, hfeeds₁.trans hfeeds₂⟩

lemma Onward.put (hs : c.replicas i = some s) (hfeeds : Process.Feeds S.codecs s.fed s'.fed) :
    Onward S c (c.put i s' sent) := by
  intro j r hr
  by_cases hj : j = i
  · subst hj
    obtain rfl := Option.some.inj (hr.symm.trans hs)
    exact ⟨s', by simp [Service.put], hfeeds⟩
  · exact ⟨r, by simp [Service.put, Function.update_of_ne hj, hr], RunOf.refl _⟩

/-- What one action brings about. -/
structure Advances (S : ServiceConf) (c c' : Service) (w : World Nat Entry) : Prop where
  upheld : ∃ w', w.Later w' ∧ c'.Upheld S w'
  mirrors : Mirrors S c c'
  onward : Onward S c c'

namespace Upheld

lemma advances_self (h : c.Upheld S w) : Advances S c c w :=
  ⟨⟨w, World.Later.refl w, h⟩, Or.inl rfl, Onward.refl c⟩

lemma feeds_put (h : c.Upheld S w) (hs : c.replicas i = some s)
    (hfeeds : Process.Feeds S.codecs s.fed s'.fed) :
    ∀ j r, (c.put i s' sent).replicas j = some r →
      Process.Feeds S.codecs ⟨[], Process.start j S.db⟩ r.fed := by
  intro j r hr
  rcases replicas_put hr with ⟨rfl, rfl⟩ | ⟨-, hr⟩
  · exact (h.feeds j s hs).trans hfeeds
  · exact h.feeds j r hr

/-- A replica has done something that its node takes no part in. -/
lemma still (h : c.Upheld S w) (hs : c.replicas i = some s) (hnode : s'.proc.node = s.proc.node)
    (hs' : s'.Upheld S w) (hfeeds : Process.Feeds S.codecs s.fed s'.fed) :
    Advances S c (c.put i s' []) w := by
  have hcluster := cluster_put_still hs hnode
  refine ⟨⟨w, World.Later.refl w, hcluster ▸ h.follows, fun j r hr => ?_, h.feeds_put hs hfeeds⟩,
    Or.inl hcluster, Onward.put hs hfeeds⟩
  rcases replicas_put hr with ⟨-, rfl⟩ | ⟨-, hr⟩
  · exact hs'
  · exact h.replicas j r hr

/-- A replica has done what an action of the cluster does. -/
lemma acted (h : c.Upheld S w) {a : RaftKv.Action} (ha : CleanAction c.cluster a)
    (hs : c.replicas i = some s)
    (hact : c.cluster.act S.confChange a = Except.ok (c.put i s' sent).cluster)
    (hs' : s'.Upheld S w) (hfeeds : Process.Feeds S.codecs s.fed s'.fed) :
    Advances S c (c.put i s' sent) w := by
  obtain ⟨w', hlater, hfollows⟩ := h.follows.act ha hact
  refine ⟨⟨w', hlater, hfollows, fun j r hr => ?_, h.feeds_put hs hfeeds⟩,
    Or.inr ⟨a, ha, hact⟩, Onward.put hs hfeeds⟩
  rcases replicas_put hr with ⟨-, rfl⟩ | ⟨-, hr⟩
  · exact hs'.later hlater
  · exact (h.replicas j r hr).later hlater

/-- A call of the node that queues its messages is one of the cluster. -/
lemma onNode_quiet {f : RawNode → Outcome RawNode} {node : RawNode} (hs : c.replicas i = some s)
    (hf : f s.proc.node = Except.ok node) (hnode : s'.proc.node = node) :
    c.cluster.onNode i (Cluster.quiet f) = Except.ok (c.put i s' []).cluster := by
  subst hnode
  exact onNode_put hs (Outcome.bind_eq_ok.mpr ⟨_, hf, rfl⟩)

/-- The thread of the store, or a session. -/
lemma work (h : c.Upheld S w) (hs : c.replicas i = some s) {a : Process.Action}
    (ha : s.fed.Steady a) (hnone : Process.published a = [])
    (hok : s.work S.codecs a = Except.ok s') : Advances S c (c.put i s' []) w := by
  obtain ⟨threads, hact, hok⟩ := Outcome.bind_eq_ok.mp hok
  cases Outcome.pure_eq_ok.mp hok
  have hs₀ := h.replicas i s hs
  exact h.still hs rfl ⟨hs₀.paced, hs₀.posted⟩ (Process.Feeds.single ha hnone hact)

/-- **One action keeps the invariant**, and is at most one action of the cluster. -/
theorem act (h : c.Upheld S w) {a : Action} (ha : c.Steady a) (hact : c.act S a = Except.ok c') :
    Advances S c c' w := by
  have hinv := h.follows.inv
  rcases act_cases hact with rfl | ⟨i, s, s', sent, hs, hdoes, rfl⟩
  · exact h.advances_self
  have hs₀ := h.replicas i s hs
  cases hdoes with
  | tick hq =>
      obtain ⟨node, hnode, hq⟩ := Outcome.bind_eq_ok.mp hq
      cases Outcome.pure_eq_ok.mp hq
      refine h.acted (a := RaftKv.Action.tick i) (fun _ _ _ hk => by cases hk) hs
        (onNode_quiet hs hnode rfl) (hs₀.moves ?_) (RunOf.refl _)
      obtain ⟨r, hr, hnode⟩ := Outcome.bind_eq_ok.mp hnode
      cases Outcome.pure_eq_ok.mp hnode
      exact Raft.Effects.moves (m := { type := MessageType.msgHup }) (fun htype => by cases htype)
        (Raft.Effects.tick hr)
  | @deliver k m _ hm hto hq =>
      subst hto
      obtain ⟨⟨node, status⟩, hnode, hq⟩ := Outcome.bind_eq_ok.mp hq
      cases Outcome.pure_eq_ok.mp hq
      refine h.acted (a := RaftKv.Action.deliver k) ha hs ?_ (hs₀.moves ?_) (RunOf.refl _)
      · have hnet : c.cluster.net[k]? = some m := hm
        rw [Cluster.act, hnet]
        exact onNode_quiet hs (Outcome.bind_eq_ok.mpr ⟨_, hnode, rfl⟩) rfl
      · rw [RawNode.step] at hnode
        split at hnode
        · cases hnode
          exact Relation.ReflTransGen.refl
        split at hnode
        · exact (h.follows.net m (List.mem_of_getElem? hm)).moves hinv h.follows.numbered hnode
        · cases hnode
          exact Relation.ReflTransGen.refl
  | propose hq =>
      rw [Replica.propose] at hq
      split at hq
      · cases Outcome.pure_eq_ok.mp hq
        exact h.still hs rfl hs₀ (RunOf.refl _)
      rename_i x queue hqueue
      obtain ⟨⟨node, status⟩, hnode, hq⟩ := Outcome.bind_eq_ok.mp hq
      obtain ⟨threads, hthreads, hq⟩ := Outcome.bind_eq_ok.mp hq
      cases Outcome.pure_eq_ok.mp hq
      have hmoves := Claims.moves (i := i) hinv h.follows.numbered (by simp [Claims]) hnode
      have hs' := hs₀.moves hmoves
      exact h.acted (a := RaftKv.Action.propose i x.proposal.data) (fun _ _ _ hk => by cases hk)
        hs (onNode_quiet hs (Outcome.bind_eq_ok.mpr ⟨_, hnode, rfl⟩) rfl)
        ⟨hs'.paced, hs'.posted⟩
        (Process.Feeds.single (a := Process.Action.propose status) trivial rfl hthreads)
  | handleReady hq =>
      obtain ⟨hs', hfeeds, ⟨rfl, rfl⟩ | hpull⟩ := hs₀.handleReady hinv
        (h.follows.nodes i _ (nodes_cluster hs)) (ha s hs) hq
      · exact h.still hs rfl hs' hfeeds
      · exact h.acted (a := RaftKv.Action.pullReady i) (fun _ _ _ hk => by cases hk) hs
          (onNode_put hs hpull) hs' hfeeds
  | @set key value _ hq => exact h.work (a := Process.Action.set key value) hs trivial rfl hq
  | @del keys _ hq => exact h.work (a := Process.Action.del keys) hs trivial rfl hq
  | @runStore refused _ hq =>
      obtain rfl : refused = [] := ha
      exact h.work (a := Process.Action.runStore fun j => decide (j ∉ [])) hs (fun j => rfl) rfl hq

end Upheld

/-! ## The start -/

/-- What is read from an empty disk: nothing. -/
lemma replayWal_new {site : Site} (hfirst : (WalItem.snapshot {}).Fits site.wal)
    {storage : MemoryStorage} {wal : Wal} {snapDir : SnapFolder} {last size : Nat}
    (h : RaftNode.replayWal site {} size = Except.ok (storage, wal, snapDir, last)) :
    storage = {} := by
  have hnew := RaftNode.recoverable_new hfirst
  obtain ⟨w, hempty⟩ := hnew.backs.readAll size
  simp only [RaftNode.replayWal, (SnapFolder.heads_empty site.snap).load] at h
  obtain ⟨p, hread, h⟩ := Outcome.bind_eq_ok.mp h
  obtain rfl := Except.ok.inj (hempty.symm.trans hread)
  obtain ⟨es, hderef, h⟩ := Outcome.bind_eq_ok.mp h
  obtain rfl : es = [] := Except.ok.inj hderef.symm
  obtain ⟨storage', happend, h⟩ := Outcome.bind_eq_ok.mp h
  cases h
  exact (Except.ok.inj happend).symm

/-- **A process that is started from an empty disk** has just started its node. -/
theorem start_node {proc : RaftNode} {size : Nat}
    (hboot : RaftNode.boot (S.site i) {} size = Except.ok proc) :
    RawNode.start S.confChange.pack (S.clusterConf.conf i) S.clusterConf.peers =
        Except.ok proc.node ∧
      proc.Paced ∧ proc.appliedIndex = 0 ∧ proc.storeTasks = [] ∧ proc.log.storage = {} := by
  have hsound := (RaftNode.boot_tied hboot).1.sound
  obtain ⟨storage, wal, snapDir, last, node, hreplay, hstart, rfl⟩ := RaftNode.boot_eq_ok hboot
  have hstorage := RaftNode.started_storage hreplay hstart
  have hconsistent := RaftNode.replayWal_consistent hreplay
  obtain rfl := replayWal_new (S.site_wal i) hreplay
  have hpeers : RaftNode.peerContexts (S.site i) = S.clusterConf.peers := by
    show _ = RaftNode.peerContexts (S.site 0)
    simp only [RaftNode.peerContexts, S.site_peers]
  have hsame : (node.setStorage { node.raft.raftLog.storage with
      snapshot := { node.raft.raftLog.storage.snapshot with data := [] } }) = node := by
    rw [hstorage]
    show node.setStorage {} = node
    rw [← hstorage]
    rfl
  have happlied : node.raft.raftLog.applied = 0 := by
    obtain ⟨hvalid, hzero⟩ := RaftNode.validate_storage (RaftNode.config (S.site i) {})
    have hinit : ∀ {r : Raft}, Raft.init (RaftNode.config (S.site i) {}).validate.1 = Except.ok r →
        r.raftLog.applied = 0 := by
      intro r hr
      obtain ⟨-, -, -, committed, -, -, -, hlog⟩ := Raft.init_eq_ok hr
      rw [hlog, hvalid, hzero]
      rfl
    obtain ⟨r, hr, hnode | ⟨hlast, peers, hbootstrap⟩⟩ := boots_cases (Or.inr ⟨_, hstart⟩)
    · rw [hnode]
      exact hinit hr
    · rw [(bootstrap_moves (init_sound hconsistent hr).1 hlast hbootstrap).applied]
      exact hinit hr
  have hindex : node.raft.raftLog.storage.snapshot.metadata.index = 0 := by
    rw [hstorage]
  refine ⟨?_, ⟨hindex, ?_, hsound.applied_le⟩, hindex, rfl, ?_⟩
  · rw [S.site_confChange, hpeers] at hstart
    exact hstart.trans (congrArg Except.ok hsame.symm)
  · exact hindex.trans happlied.symm
  · exact (congrArg (fun n => n.raft.raftLog.storage) hsame).trans hstorage

lemma Started.upheld (h : Started S c) :
    c.Upheld S (World.init S.clusterConf.membership.setting) := by
  refine ⟨Cluster.Follows.init ⟨h.1, fun i n hn => ?_⟩, fun i s hs => ?_, fun i s hs => ?_⟩
  · obtain ⟨s, hs, rfl⟩ := Option.map_eq_some_iff.mp hn
    obtain ⟨-, size, hboot⟩ := h.2 i s hs
    exact ⟨S.site_id i ▸ RaftNode.id_of_boot hboot, (start_node hboot).1⟩
  · obtain ⟨-, size, hboot⟩ := h.2 i s hs
    obtain ⟨-, hpaced, happlied, htasks, -⟩ := start_node hboot
    exact ⟨hpaced, ⟨0, [], Or.inl rfl, happlied.symm, htasks⟩⟩
  · obtain ⟨hthreads, size, hboot⟩ := h.2 i s hs
    obtain ⟨-, -, -, htasks, -⟩ := start_node hboot
    have hnone : s.proc.readCommits = [] := RaftNode.readCommits_of_storeTasks htasks
    rw [Replica.fed, hthreads, hnone]
    exact RunOf.refl _

/-! ## Runs -/

/-- A run keeps the invariant, and is a run of the cluster. -/
theorem Upheld.run (h : c₁.Upheld S w) (hrun : RunOf (Service.act S) Steady c₁ c₂) :
    (∃ w', w.Later w' ∧ c₂.Upheld S w') ∧ Onward S c₁ c₂ ∧
      RunWhere S.clusterConf CleanAction c₁.cluster c₂.cluster := by
  induction hrun with
  | refl => exact ⟨⟨w, World.Later.refl w, h⟩, Onward.refl _, RunOf.refl _⟩
  | step a _ ha hact ih =>
      obtain ⟨⟨w₁, hl₁, h₁⟩, honward₁, hcluster⟩ := ih
      obtain ⟨⟨w₂, hl₂, h₂⟩, hmirrors, honward₂⟩ := h₁.act ha hact
      refine ⟨⟨w₂, hl₁.trans hl₂, h₂⟩, honward₁.trans honward₂, ?_⟩
      rcases hmirrors with hsame | ⟨a', ha', hact'⟩
      · rw [hsame]
        exact hcluster
      · exact hcluster.step a' ha' hact'

/-- **A run of the service is a run of the cluster of its nodes**, as long as it is steady and no replica
is started again: the write-ahead logs, the threads and the stores leave the protocol as it is. -/
theorem refines (hstart : Started S c₀) (hrun : RunOf (act S) Steady c₀ c) :
    RaftKv.Started S.clusterConf c₀.cluster ∧
      RunWhere S.clusterConf CleanAction c₀.cluster c.cluster := by
  refine ⟨⟨hstart.1, fun i n hn => ?_⟩, (hstart.upheld.run hrun).2.2⟩
  obtain ⟨s, hs, rfl⟩ := Option.map_eq_some_iff.mp hn
  obtain ⟨-, size, hboot⟩ := hstart.2 i s hs
  exact ⟨S.site_id i ▸ RaftNode.id_of_boot hboot, (start_node hboot).1⟩

/-- Replica 1 is elected, and so is its node in the cluster. -/
theorem refines_three : ∃ c, RunOf (act ThreeReplicas.conf) Steady ThreeReplicas.start c ∧
    c.cluster.Leads 1 2 ∧ RaftKv.Started ThreeReplicas.conf.clusterConf ThreeReplicas.start.cluster ∧
    RunWhere ThreeReplicas.conf.clusterConf CleanAction ThreeReplicas.start.cluster c.cluster := by
  have hreached : ((ThreeReplicas.elect.foldlM (RunOf.exec (act ThreeReplicas.conf) Steady)
      ThreeReplicas.start).toOption.any fun c => (c.replicas 1).any fun s =>
        s.proc.node.raft.state = RaftState.leader ∧ s.proc.node.raft.term = 2) = true := by
    decide +kernel
  obtain ⟨c, hc, hreached⟩ := (Option.any_eq_true ..).mp hreached
  obtain ⟨s, hs, hleads⟩ := (Option.any_eq_true ..).mp hreached
  have hrun : RunOf (act ThreeReplicas.conf) Steady ThreeReplicas.start c :=
    RunOf.of_exec (Outcome.eq_ok_of_toOption hc)
  exact ⟨c, hrun, ⟨_, nodes_cluster hs, of_decide_eq_true hleads⟩,
    refines ThreeReplicas.started hrun⟩

/-! ## Agreement -/

lemma commands_isPrefix {es es' : List Entry} (h : es <+: es') : commands es <+: commands es' :=
  h.filter _

/-- What the store of a replica has run begins what is committed. -/
lemma Upheld.ran (h : c.Upheld S w) (hs : c.replicas i = some s) :
    ∃ t p, w.Committed S.clusterConf.membership.setting t p ∧ s.ran <+: commands p := by
  obtain ⟨t, p, hcommitted, -, hposted⟩ := (h.replicas i s hs).posted
  refine ⟨t, p, hcommitted, ?_⟩
  rw [Replica.ran, Process.Fed.ran, Replica.fed, RaftNode.readCommits_of_storeTasks hposted]
  exact List.take_prefix _ _

/-- The content of a store is what it has run makes of the database it began with. -/
lemma Upheld.content (h : c.Upheld S w) (hs : c.replicas i = some s) :
    s.threads.store.db = contentAfter S.codecs.commit S.db s.ran := (h.feeds i s hs).ran_eq.2

/-- Of what two stores have run, one is the beginning of the other. -/
lemma Upheld.comparable (h₁ : c₁.Upheld S w) {w' : World Nat Entry} (hl : w.Later w')
    (h₂ : c₂.Upheld S w') {j : Nat} {a b : Replica} (ha : c₁.replicas i = some a)
    (hb : c₂.replicas j = some b) : a.ran <+: b.ran ∨ b.ran <+: a.ran := by
  obtain ⟨t, p, hp, hra⟩ := h₁.ran ha
  obtain ⟨t', p', hp', hrb⟩ := h₂.ran hb
  rcases h₂.follows.inv.committed_comparable (hl.committed hp) hp' with hpre | hpre
  · exact List.prefix_or_prefix_of_prefix (hra.trans (commands_isPrefix hpre)) hrb
  · exact List.prefix_or_prefix_of_prefix hra (hrb.trans (commands_isPrefix hpre))

/-- No store goes back. -/
lemma Onward.ran (h : Onward S c₁ c₂) (h₁ : c₁.Upheld S w) {w' : World Nat Entry}
    (h₂ : c₂.Upheld S w') {a b : Replica} (ha : c₁.replicas i = some a)
    (hb : c₂.replicas i = some b) : a.ran.length ≤ b.ran.length := by
  obtain ⟨b', hb', hfeeds⟩ := h i a ha
  obtain rfl : b' = b := Option.some.inj (hb'.symm.trans hb)
  rw [Replica.ran, (h₁.feeds i a ha).ran_eq.1, Replica.ran, (h₂.feeds i b' hb).ran_eq.1]
  exact hfeeds.grows.applied.length_le

lemma Onward.ran_isPrefix (h : Onward S c₁ c₂) (h₁ : c₁.Upheld S w) {w' : World Nat Entry}
    (hl : w.Later w') (h₂ : c₂.Upheld S w') {a b : Replica} (ha : c₁.replicas i = some a)
    (hb : c₂.replicas i = some b) : a.ran <+: b.ran := by
  have hle := h.ran h₁ h₂ ha hb
  rcases h₁.comparable hl h₂ ha hb with hpre | hpre
  · exact hpre
  · rw [hpre.eq_of_length_le hle]

/-- **The replicas agree.**  In every run in which no replica is started again, no candidate is given a
granted pre-vote, no local snapshot comes due and no store refuses a write: of what any two stores
have run, at any two times, one is the beginning of the other; the content of each is what these
commands make of the database it began with; and no store ever goes back. -/
theorem replicas_agree (hstart : Started S c₀) (h₁ : RunOf (act S) Steady c₀ c₁)
    (h₂ : RunOf (act S) Steady c₁ c₂) {j : Nat} {a b : Replica} (ha : c₁.replicas i = some a)
    (hb : c₂.replicas j = some b) :
    (a.ran <+: b.ran ∨ b.ran <+: a.ran) ∧
      a.threads.store.db = contentAfter S.codecs.commit S.db a.ran ∧
      b.threads.store.db = contentAfter S.codecs.commit S.db b.ran ∧
      (i = j → a.ran <+: b.ran) := by
  obtain ⟨⟨w₁, -, hu₁⟩, -⟩ := hstart.upheld.run h₁
  obtain ⟨⟨w₂, hl, hu₂⟩, honward, -⟩ := hu₁.run h₂
  refine ⟨hu₁.comparable hl hu₂ ha hb, hu₁.content ha, hu₂.content hb, fun hij => ?_⟩
  subst hij
  exact honward.ran_isPrefix hu₁ hl hu₂ ha hb

/-- Replica 1 has run a command, and then replica 2 has. -/
theorem replicas_agree_three : ∃ (c₁ c₂ : Service) (a b : Replica),
    RunOf (act ThreeReplicas.conf) Steady ThreeReplicas.start c₁ ∧
    RunOf (act ThreeReplicas.conf) Steady c₁ c₂ ∧
    c₁.replicas 1 = some a ∧ c₂.replicas 2 = some b ∧ a.ran.length = 1 ∧ b.ran.length = 1 ∧
    (a.ran <+: b.ran ∨ b.ran <+: a.ran) ∧
    b.threads.store.db = contentAfter commitCodec OrderedMap.empty b.ran := by
  let exec := RunOf.exec (act ThreeReplicas.conf) Steady
  have hreached : (((ThreeReplicas.elect ++ ThreeReplicas.write).foldlM exec
      ThreeReplicas.start).toOption.any fun c₁ =>
        (ThreeReplicas.follow.foldlM exec c₁).toOption.any fun c₂ =>
          (c₁.replicas 1).any (fun a => a.ran.length = 1) &&
            (c₂.replicas 2).any fun b => b.ran.length = 1) = true := by
    decide +kernel
  obtain ⟨c₁, hc₁, hreached⟩ := (Option.any_eq_true ..).mp hreached
  obtain ⟨c₂, hc₂, hreached⟩ := (Option.any_eq_true ..).mp hreached
  rw [Bool.and_eq_true] at hreached
  obtain ⟨a, ha, hlena⟩ := (Option.any_eq_true ..).mp hreached.1
  obtain ⟨b, hb, hlenb⟩ := (Option.any_eq_true ..).mp hreached.2
  have h₁ : RunOf (act ThreeReplicas.conf) Steady ThreeReplicas.start c₁ :=
    RunOf.of_exec (Outcome.eq_ok_of_toOption hc₁)
  have h₂ : RunOf (act ThreeReplicas.conf) Steady c₁ c₂ :=
    RunOf.of_exec (Outcome.eq_ok_of_toOption hc₂)
  obtain ⟨hcomparable, -, hdb, -⟩ := replicas_agree ThreeReplicas.started h₁ h₂ ha hb
  exact ⟨c₁, c₂, a, b, h₁, h₂, ha, hb, of_decide_eq_true hlena, of_decide_eq_true hlenb,
    hcomparable, hdb⟩

end Service

end RaftKv
