import RaftKv.Raft.SnapshotSends
import RaftKv.Server.Publish
import RaftKv.Server.PullReady

/-!
# One round of the loop

What a round of `pull_ready_events` does to the log, the storage and the indices of the process,
part by part.

* `RaftLog.Commits` — the commit index moves, and nothing else does.
* `RaftNode.Tied` — **the five indices between two rounds**: compaction point, snapshot, apply index of
  the process, commit index, last index.
* `RaftNode.settle_eq_ok` — **the part of a round before the local snapshot**.
* `RaftNode.trigger_returns` — **the local snapshot**: it fails nowhere.
* `RaftNode.advance_tied` — behind `advance` the storage holds the whole log.
-/

namespace RaftKv

open RaftLog

variable {site : Site} {s s' s₁ : RaftNode} {rd : Ready} {l l' : RaftLog}

/-! ## The commit index -/

/-- The commit index moves, and nothing else. -/
abbrev RaftLog.Commits : RaftLog → RaftLog → Prop :=
  Relation.ReflTransGen fun l l' => ∃ i, l.commitTo i = Except.ok l'

lemma RaftLog.Commits.frame (h : Commits l l') :
    l' = { l with committed := l'.committed } ∧ l.committed ≤ l'.committed := by
  induction h with
  | refl => exact ⟨rfl, Nat.le_refl _⟩
  | tail _ hstep ih =>
      obtain ⟨i, hi⟩ := hstep
      obtain ⟨rfl, -⟩ := commitTo_eq_ok hi
      obtain ⟨heq, hle⟩ := ih
      refine ⟨?_, le_max_of_le_left hle⟩
      rw [heq]

lemma RaftLog.Commits.snapshot (h : Commits l l') : l'.snapshot = l.snapshot := by
  rw [h.frame.1]
  rfl

lemma RaftLog.Commits.sound (h : Commits l l') (hsound : l.Sound) : l'.Sound := by
  induction h with
  | refl => exact hsound
  | tail _ hstep ih =>
      obtain ⟨i, hi⟩ := hstep
      exact ih.commitTo hi

/-- **A configuration change moves the commit index at most**. -/
theorem RawNode.changeMembers_commits {r r' : Raft} {cc : ConfChange}
    (h : RawNode.changeMembers r cc = Except.ok r') : Commits r.raftLog r'.raftLog := by
  have hsame : ∀ {r₁ : Raft}, r₁.ledger = r.ledger → Commits r.raftLog r₁.raftLog := by
    intro r₁ hledger
    simp only [Raft.ledger, Prod.mk.injEq] at hledger
    rw [hledger.2.2.2.2.1]
  rw [changeMembers] at h
  split at h
  · exact hsame (Raft.Deeds.addNodeOrLearner h).ledger
  · exact hsame (Raft.Deeds.addNodeOrLearner h).ledger
  · rw [Raft.removeNode] at h
    dsimp only at h
    split at h
    · cases h
      exact hsame (Raft.Regrouped.removed r cc.nodeId).ledger
    · obtain ⟨⟨r₁, committed⟩, hcommit, h⟩ := Outcome.bind_eq_ok.mp h
      obtain ⟨r₂, hafter, h⟩ := Outcome.bind_eq_ok.mp h
      have hlog₁ : Commits r.raftLog r₁.raftLog := by
        rcases Raft.maybeCommit_cases hcommit with rfl | ⟨i, l, hl, rfl⟩
        · exact hsame (Raft.Regrouped.removed r cc.nodeId).ledger
        · exact Relation.ReflTransGen.single ⟨i, hl⟩
      have hlog₂ : r₂.raftLog = r₁.raftLog := by
        have hledger := (Raft.Asides.sendAfterAck (m := {}) hafter).ledger
        simp only [Raft.ledger, Prod.mk.injEq] at hledger
        exact hledger.2.2.2.2.1
      have hlog : r'.raftLog = r₂.raftLog := by
        cases h
        split <;> rfl
      rw [hlog, hlog₂]
      exact hlog₁
  · cases h
    exact hsame rfl
  · cases h

namespace RaftNode

def log (s : RaftNode) : RaftLog := s.node.raft.raftLog

/-- The messages that were handed to `transport_`. -/
def sentMessages (s : RaftNode) : List Message :=
  s.transportCalls.flatMap fun
    | TransportCall.send messages => messages
    | _ => []

/-! ## Publishing -/

/-- What publishing leaves alone: the position of the snapshot, and the log up to its commit
index. -/
structure Publishes (s s' : RaftNode) : Prop where
  snapshotIndex : s'.snapshotIndex = s.snapshotIndex
  snapCount : s'.snapCount = s.snapCount
  snapDir : s'.snapDir = s.snapDir
  wal : s'.wal = s.wal
  sent : s'.sentMessages = s.sentMessages
  log : Commits s.log s'.log
  sends : Raft.SendsSnapshot s.log.snapshot s.node.raft s'.node.raft
  later : Raft.Later s.node.raft s'.node.raft
  prev : s'.node.prevHardState = s.node.prevHardState

/-- Only what does not concern the node has changed. -/
lemma Publishes.of_node (hindex : s'.snapshotIndex = s.snapshotIndex)
    (hcount : s'.snapCount = s.snapCount) (hdir : s'.snapDir = s.snapDir) (hwal : s'.wal = s.wal)
    (hsent : s'.sentMessages = s.sentMessages) (hnode : s'.node = s.node) : Publishes s s' := by
  refine ⟨hindex, hcount, hdir, hwal, hsent, ?_, ?_, ?_, ?_⟩
  · show Commits s.node.raft.raftLog s'.node.raft.raftLog
    rw [hnode]
  · rw [hnode]
    exact Raft.SendsSnapshot.nothing rfl
  · rw [hnode]
    exact Raft.Later.refl _
  · rw [hnode]

lemma Publishes.refl (s : RaftNode) : Publishes s s := Publishes.of_node rfl rfl rfl rfl rfl rfl

lemma Publishes.trans (h : Publishes s s₁) (h' : Publishes s₁ s') : Publishes s s' :=
  ⟨h'.snapshotIndex.trans h.snapshotIndex, h'.snapCount.trans h.snapCount,
    h'.snapDir.trans h.snapDir, h'.wal.trans h.wal, h'.sent.trans h.sent, h.log.trans h'.log,
    h.sends.trans (h.log.snapshot ▸ h'.sends), h.later.trans h'.later, h'.prev.trans h.prev⟩

lemma publishNormal_publishes (s : RaftNode) (e : Entry) (index : Nat) :
    Publishes s ((s.publishNormal e).setAppliedIndex index) := by
  rw [publishNormal]
  split
  · exact Publishes.of_node rfl rfl rfl rfl rfl rfl
  · exact Publishes.of_node rfl rfl rfl rfl rfl rfl

lemma publishConfChange_publishes {cc : ConfChange} {goOn : Bool}
    (h : s.publishConfChange cc = Except.ok (s', goOn)) : Publishes s s' := by
  rw [publishConfChange] at h
  obtain ⟨⟨node, confState⟩, hchange, h⟩ := Outcome.bind_eq_ok.mp h
  have hnode : Commits s.log node.raft.raftLog ∧
      Raft.SendsSnapshot s.log.snapshot s.node.raft node.raft ∧
      Raft.Later s.node.raft node.raft ∧ node.prevHardState = s.node.prevHardState := by
    rw [RawNode.applyConfChange] at hchange
    split at hchange
    · cases hchange
      exact ⟨Relation.ReflTransGen.refl, Raft.SendsSnapshot.nothing rfl, Raft.Later.refl _, rfl⟩
    · obtain ⟨r, hr, hchange⟩ := Outcome.bind_eq_ok.mp hchange
      cases hchange
      obtain ⟨r₁, hgroup, hdeeds⟩ := Raft.Deeds.changeMembers (m := {}) hr
      obtain ⟨hsame, hmsgs⟩ := hgroup.sends
      have hsends := (hdeeds.sends (by decide)).2
      rw [hsame] at hsends
      exact ⟨RawNode.changeMembers_commits hr, (Raft.SendsSnapshot.nothing hmsgs).trans hsends,
        Raft.Effects.later ((Raft.Effects.aside hgroup.ledger).trans hdeeds.effects), rfl⟩
  have hdone : Publishes s { s with node := node, confState := confState } :=
    ⟨rfl, rfl, rfl, rfl, rfl, hnode.1, hnode.2.1, hnode.2.2.1, hnode.2.2.2⟩
  have hcall : ∀ (s : RaftNode) (c : TransportCall), (∀ messages, c ≠ TransportCall.send messages) →
      Publishes s (s.call c) := by
    intro s c hc
    refine Publishes.of_node rfl rfl rfl rfl ?_ rfl
    rw [sentMessages, call, List.flatMap_append]
    cases c with
    | send messages => exact absurd rfl (hc messages)
    | _ => exact List.append_nil _
  dsimp only at h
  split at h
  · cases h
    split
    · exact hdone
    · exact hdone.trans (hcall _ _ fun _ hc => by cases hc)
  · split at h
    · cases h
      exact hdone
    · cases h
      exact hdone.trans (hcall _ _ fun _ hc => by cases hc)
  · cases h
    exact hdone

/-- What the loop of `publish_entries` keeps, and where it leaves the apply index. -/
lemma publishEntries_publishes {codec : ConfChangeCodec} {es : List Entry} {n : Nat} {goOn : Bool}
    (hnum : Numbered n es) (hlt : s.appliedIndex < n)
    (h : s.publishEntries codec es = Except.ok (s', goOn)) :
    Publishes s s' ∧ s.appliedIndex ≤ s'.appliedIndex ∧ s'.appliedIndex < n + es.length := by
  induction es generalizing s n with
  | nil =>
      cases h
      exact ⟨Publishes.refl _, Nat.le_refl _, hlt⟩
  | cons e es ih =>
      have he := hnum.head
      rw [List.length_cons]
      simp only [publishEntries] at h
      split at h
      · have hindex : ((s.publishNormal e).setAppliedIndex e.index).appliedIndex < n + 1 := by
          rw [appliedIndex_setAppliedIndex]
          omega
        obtain ⟨hpub, hge, hle⟩ := ih hnum.tail hindex h
        rw [appliedIndex_setAppliedIndex] at hge
        exact ⟨(publishNormal_publishes _ e e.index).trans hpub, by omega, by omega⟩
      · split at h
        · obtain ⟨hpub, hge, hle⟩ := ih hnum.tail (by omega) h
          exact ⟨hpub, hge, by omega⟩
        · obtain ⟨⟨s₁, goOn₁⟩, hchange, h⟩ := Outcome.bind_eq_ok.mp h
          have hpub₁ := publishConfChange_publishes hchange
          have happlied := (publishConfChange_eq_ok hchange).2.2.1
          dsimp only at h
          split at h
          · have hindex : (s₁.setAppliedIndex e.index).appliedIndex < n + 1 := by
              rw [appliedIndex_setAppliedIndex]
              omega
            obtain ⟨hpub, hge, hle⟩ := ih hnum.tail hindex h
            rw [appliedIndex_setAppliedIndex] at hge
            refine ⟨hpub₁.trans ((Publishes.trans ?_) hpub), by omega, by omega⟩
            exact Publishes.of_node rfl rfl rfl rfl rfl rfl
          · cases h
            exact ⟨hpub₁, by omega, by omega⟩
      · cases h

/-- What publishing the committed entries of a `Ready` keeps, and where it leaves the apply index. -/
lemma publishCommitted_publishes {codec : ConfChangeCodec} {es : List Entry} {n : Nat}
    (hnum : Numbered n es) (h : s.publishCommitted codec es = Except.ok s') :
    Publishes s s' ∧ s.appliedIndex ≤ s'.appliedIndex ∧
      s'.appliedIndex ≤ max s.appliedIndex (n + es.length - 1) := by
  have hsame : Publishes s s ∧ s.appliedIndex ≤ s.appliedIndex ∧
      s.appliedIndex ≤ max s.appliedIndex (n + es.length - 1) :=
    ⟨Publishes.refl s, Nat.le_refl _, Nat.le_max_left ..⟩
  rw [publishCommitted] at h
  split at h
  · cases h
    exact hsame
  obtain ⟨ents, hents, h⟩ := Outcome.bind_eq_ok.mp h
  split at h
  · cases h
    exact hsame
  rename_i hne
  obtain ⟨⟨s₁, goOn⟩, hloop, h⟩ := Outcome.bind_eq_ok.mp h
  cases h
  cases es with
  | nil =>
    cases hents
    exact absurd rfl hne
  | cons e rest =>
    have he := hnum.head
    simp only [entriesToApply] at hents
    split at hents
    · cases hents
    · rename_i hfirst
      split at hents
      · rename_i hlen
        cases hents
        have hdrop := hnum.drop (s.appliedIndex + 1 - e.index)
        obtain ⟨hpub, hge, hlt⟩ := publishEntries_publishes hdrop (by omega) hloop
        rw [List.length_drop] at hlt
        exact ⟨hpub, hge, by omega⟩
      · cases hents
        exact absurd rfl hne

/-! ## The indices -/

/-- **The indices between two rounds.** -/
structure Tied (s : RaftNode) : Prop where
  sound : s.log.Sound
  idle : s.log.Idle
  snapshot_eq : s.storage.snapshot.metadata.index = s.snapshotIndex
  front_le : s.storage.front.index ≤ s.snapshotIndex
  snapshot_le : s.snapshotIndex ≤ s.appliedIndex
  applied_le : s.appliedIndex ≤ s.log.committed

/-- The indices once the `Ready` is stored and published. -/
structure Settled (rd : Ready) (s : RaftNode) : Prop where
  stored : Numbered s.storage.front.index s.storage.entries
  last_eq : s.storage.lastIndex + 1 = s.log.unstable.offset + s.log.unstable.entries.length
  numbered : Numbered s.log.unstable.offset s.log.unstable.entries
  entries : rd.entries = s.log.unstable.entries
  snapshot : s.log.unstable.snapshot = rd.pendingSnapshot
  cursor_le : rd.appliedCursor ≤ s.log.committed
  log_applied_le : s.log.applied ≤ s.log.committed
  committed_le : s.log.committed ≤ s.storage.lastIndex
  snapshot_eq : s.storage.snapshot.metadata.index = s.snapshotIndex
  front_le : s.storage.front.index ≤ s.snapshotIndex
  snapshot_le : s.snapshotIndex ≤ s.appliedIndex
  applied_le : s.appliedIndex ≤ s.log.committed

/-! ## Storing and publishing -/

lemma installSnapshot_eq_ok (h : s.installSnapshot site rd.snapshot = Except.ok s') :
    s'.node = s.node.setStorage (rd.storageBehind s.storage) ∧ s'.snapCount = s.snapCount ∧
      s'.sentMessages = s.sentMessages ∧
      (rd.pendingSnapshot = none → s'.snapshotIndex = s.snapshotIndex ∧
        s'.appliedIndex = s.appliedIndex ∧ s'.wal = s.wal ∧ s'.snapDir = s.snapDir) ∧
      ∀ snap, rd.pendingSnapshot = some snap → s'.snapshotIndex = snap.metadata.index ∧
        s'.appliedIndex = snap.metadata.index ∧
        s'.wal = s.wal.saveSnapshot site.wal
          { index := snap.metadata.index, term := snap.metadata.term } ∧
        s'.snapDir = s.snapDir.saveSnap site.snap snap := by
  rw [installSnapshot] at h
  rw [Ready.storageBehind, Ready.pendingSnapshot]
  by_cases hempty : rd.snapshot.isEmpty = true
  · rw [if_pos hempty] at h
    cases h
    rw [if_pos hempty, if_pos hempty]
    exact ⟨rfl, rfl, rfl, fun _ => ⟨rfl, rfl, rfl, rfl⟩, fun snap hsnap => by cases hsnap⟩
  · rw [if_neg hempty] at h
    rw [if_neg hempty, if_neg hempty]
    dsimp only at h
    rw [publishSnapshot, if_neg hempty] at h
    split at h
    · cases h
    · cases h
      refine ⟨rfl, rfl, rfl, fun hnone => (by cases hnone), fun snap hsnap => ?_⟩
      obtain rfl := Option.some.inj hsnap
      exact ⟨rfl, rfl, rfl, rfl⟩

/-- The storage of a `Ready` that was stored at once ends where the log does. -/
lemma stored_all {storage : MemoryStorage} (hsound : l.Sound)
    (hawaits : rd.Awaits l.unstable.offset l) (hsnapshot : l.unstable.snapshot = rd.pendingSnapshot)
    (hentries : rd.entries = l.unstable.entries) (hstore : rd.store l.storage = Except.ok storage) :
    storage.lastIndex + 1 = l.unstable.offset + l.unstable.entries.length := by
  obtain ⟨hempty, hnonempty⟩ := hawaits.store_lastIndex hsound hstore
  by_cases hnil : rd.entries = []
  · have hlen : l.unstable.entries.length = 0 := by rw [← hentries, hnil]; rfl
    rw [hempty hnil, hlen, Nat.add_zero]
    rcases hawaits.storageBehind_eq with ⟨hnone, heq⟩ | ⟨snap, -, hoffset, hfront, hstored, -⟩
    · rw [heq]
      exact ((hsound.wf.fits (hsnapshot.trans hnone)).2.2 (hentries ▸ hnil)).symm
    · rw [MemoryStorage.lastIndex_eq, hstored, hfront, hoffset]
      rfl
  · rw [hnonempty hnil, hentries]

/-- The storage of a `Ready` that was stored at once holds the whole log. -/
lemma stored_logical {storage : MemoryStorage} (hsound : l.Sound)
    (hawaits : rd.Awaits l.unstable.offset l) (hsnapshot : l.unstable.snapshot = rd.pendingSnapshot)
    (hentries : rd.entries = l.unstable.entries) (hstore : rd.store l.storage = Except.ok storage) :
    storage.stored = l.logical := by
  obtain ⟨hfront, -, -, -, -, hstored⟩ := hawaits.store_eq_ok hsound hstore
  rcases hawaits.storageBehind_eq with ⟨hnone, heq⟩ | ⟨snap, hsome, -, -, hempty, -⟩
  · have hnone' := hsnapshot.trans hnone
    rw [logical_of_snapshot_none hnone', hstored, hfront, heq, hentries]
    split
    · rename_i hnil
      obtain ⟨-, -, hend⟩ := hsound.wf.fits hnone'
      have hlast := l.storage.lastIndex_eq
      have hoffset := hend hnil
      rw [hnil, List.append_nil, List.take_of_length_le]
      · rfl
      · show l.storage.stored.length ≤ _
        omega
    · rfl
  · rw [logical, hsnapshot, hsome, hstored, hempty, hentries, List.take_nil, List.nil_append]
    split
    · rename_i hnil
      exact hnil.symm
    · rfl

@[simp] lemma sentMessages_sendMessages (s : RaftNode) (messages : List Message) :
    (s.sendMessages messages).sentMessages = s.sentMessages ++ messages := by
  rw [sendMessages]
  split
  · rename_i hnil
    rw [hnil, List.append_nil]
  · rw [sentMessages, call, List.flatMap_append, List.flatMap_singleton]
    rfl

/-- Only the calls of the transport change. -/
lemma sendMessages_frame (s : RaftNode) (messages : List Message) :
    ∃ calls, s.sendMessages messages = { s with transportCalls := calls } := by
  rw [sendMessages]
  split
  · exact ⟨_, rfl⟩
  · exact ⟨_, rfl⟩

/-- A round up to the call of `send`. -/
def persist (site : Site) (s : RaftNode) (rd : Ready) : Outcome RaftNode := do
  let s := { s with wal := s.wal.save site.wal rd.hardState rd.entries }
  let s ← s.installSnapshot site rd.snapshot
  s.appendEntries rd.entries

lemma settle_eq (site : Site) (s : RaftNode) (rd : Ready) : s.settle site rd = (do
    let s ← s.persist site rd
    (s.sendMessages rd.messages).publishCommitted site.confChange rd.committedEntries) := by
  simp only [settle, persist, bind_assoc]

/-- What is done before the call of `send`. -/
lemma persist_eq_ok (h : s.persist site rd = Except.ok s₁) :
    ∃ storage : MemoryStorage, rd.store s.storage = Except.ok storage ∧
      s₁.node = s.node.setStorage storage ∧ s₁.snapCount = s.snapCount ∧
      s₁.sentMessages = s.sentMessages ∧
      (rd.pendingSnapshot = none → s₁.snapshotIndex = s.snapshotIndex ∧
        s₁.appliedIndex = s.appliedIndex ∧
        s₁.wal = s.wal.save site.wal rd.hardState rd.entries ∧ s₁.snapDir = s.snapDir) ∧
      ∀ snap, rd.pendingSnapshot = some snap → s₁.snapshotIndex = snap.metadata.index ∧
        s₁.appliedIndex = snap.metadata.index ∧
        s₁.wal = (s.wal.save site.wal rd.hardState rd.entries).saveSnapshot site.wal
          { index := snap.metadata.index, term := snap.metadata.term } ∧
        s₁.snapDir = s.snapDir.saveSnap site.snap snap := by
  obtain ⟨s₂, hinstall, h⟩ := Outcome.bind_eq_ok.mp h
  obtain ⟨storage, happend, h⟩ := Outcome.bind_eq_ok.mp h
  obtain rfl := Outcome.pure_eq_ok.mp h
  obtain ⟨hnode, hcount, hsent, hnone, hsome⟩ := installSnapshot_eq_ok hinstall
  have hstorage : s₂.storage = rd.storageBehind s.storage :=
    congrArg (fun n : RawNode => n.raft.raftLog.storage) hnode
  rw [hstorage] at happend
  refine ⟨storage, happend, ?_, hcount, hsent, hnone, hsome⟩
  show s₂.node.setStorage storage = _
  rw [hnode]
  rfl

/-- The steps of a round up to the publishing of what is committed. -/
lemma settle_steps (h : s.settle site rd = Except.ok s') :
    ∃ (storage : MemoryStorage) (s₁ : RaftNode), rd.store s.storage = Except.ok storage ∧
      s₁.node = s.node.setStorage storage ∧ s₁.snapCount = s.snapCount ∧
      s₁.sentMessages = s.sentMessages ++ rd.messages ∧
      (rd.pendingSnapshot = none →
        s₁.snapshotIndex = s.snapshotIndex ∧ s₁.appliedIndex = s.appliedIndex) ∧
      (∀ snap, rd.pendingSnapshot = some snap →
        s₁.snapshotIndex = snap.metadata.index ∧ s₁.appliedIndex = snap.metadata.index) ∧
      s₁.publishCommitted site.confChange rd.committedEntries = Except.ok s' := by
  rw [settle_eq] at h
  obtain ⟨s₁, hpersist, h⟩ := Outcome.bind_eq_ok.mp h
  obtain ⟨storage, hstore, hnode, hcount, hsent, hnone, hsome⟩ := persist_eq_ok hpersist
  obtain ⟨calls, hcalls⟩ := sendMessages_frame s₁ rd.messages
  have hsent' := sentMessages_sendMessages s₁ rd.messages
  rw [hcalls] at h hsent'
  exact ⟨storage, { s₁ with transportCalls := calls }, hstore, hnode, hcount,
    hsent'.trans (congrArg (· ++ rd.messages) hsent),
    fun hn => ⟨(hnone hn).1, (hnone hn).2.1⟩,
    fun snap hsnap => ⟨(hsome snap hsnap).1, (hsome snap hsnap).2.1⟩, h⟩

/-- What the process has in hands when it has taken a `Ready`. -/
structure Takes (s : RaftNode) (node : RawNode) (rd : Ready) : Prop where
  log : node.raft.raftLog = s.log
  msgs : node.raft.msgs = []
  messages : rd.messages = s.node.raft.msgs
  entries : rd.entries = s.log.unstable.entries
  snapshot : s.log.unstable.snapshot = rd.pendingSnapshot
  committed : s.log.nextEntries = Except.ok rd.committedEntries
  awaits : rd.Awaits s.log.unstable.offset s.log

lemma Tied.takes {node : RawNode} (h : s.Tied) (hready : s.node.ready = Except.ok (node, rd)) :
    s.Takes node rd := by
  obtain ⟨hnext, hentries, hsnapshot, hmessages, hnode⟩ := RawNode.ready_eq_ok hready
  refine ⟨?_, ?_, hmessages, hentries, pendingSnapshot_of_ready h.idle hsnapshot, hnext,
    awaits_of_ready h.sound h.idle hnext hentries hsnapshot⟩
  · rw [hnode]
    rfl
  · rw [hnode]
    rfl

/-- **The part of a round before the local snapshot.** -/
theorem settle_eq_ok {node : RawNode} (h : s.Tied) (hready : s.node.ready = Except.ok (node, rd))
    (hsettle : ({ s with node := node } : RaftNode).settle site rd = Except.ok s') :
    s'.Settled rd ∧ s'.snapCount = s.snapCount ∧ s'.appliedIndex ≤ s.log.committed := by
  obtain ⟨hlog, -, -, hentries, hpending, hnext, hawaits⟩ := h.takes hready
  obtain ⟨storage, s₁, hstore, hnode₁, hcount₁, -, hnone₁, hsome₁, hpublish⟩ := settle_steps hsettle
  have hlog₁ : s₁.log = s.log.setStorage storage := by
    rw [← hlog]
    exact congrArg (fun n : RawNode => n.raft.raftLog) hnode₁
  have hstore : rd.store s.log.storage = Except.ok storage := by
    rw [← hlog]
    exact hstore
  obtain ⟨hfront, hsnap, -⟩ := hawaits.store_eq_ok h.sound hstore
  obtain ⟨hsound₁, hsettles⟩ := hawaits.store h.sound hstore
  have hlast := stored_all h.sound hawaits hpending hentries hstore
  -- the indices behind the snapshot of the `Ready`
  have hindices : storage.snapshot.metadata.index = s₁.snapshotIndex ∧
      storage.front.index ≤ s₁.snapshotIndex ∧ s₁.snapshotIndex ≤ s₁.appliedIndex ∧
      s₁.appliedIndex ≤ s.log.committed := by
    rcases hawaits.storageBehind_eq with ⟨hnone, heq⟩ | ⟨snap, hsome, -, hfront', -, hsnap'⟩
    · obtain ⟨hsi, hai⟩ := hnone₁ hnone
      rw [hfront, hsnap, heq, hsi, hai]
      exact ⟨h.snapshot_eq, h.front_le, h.snapshot_le, h.applied_le⟩
    · obtain ⟨hsi, hai⟩ := hsome₁ snap hsome
      rw [hfront, hsnap, hfront', hsnap', hsi, hai]
      obtain ⟨-, rfl⟩ := Ready.pendingSnapshot_eq_some hsome
      exact ⟨rfl, Nat.le_refl _, Nat.le_refl _, hawaits.snapshot_le⟩
  obtain ⟨hsi, hfi, hai, hci⟩ := hindices
  -- the committed entries
  obtain ⟨es, hes, -, hnum, hlen⟩ := h.sound.nextEntries
  obtain rfl : es = rd.committedEntries := Except.ok.inj (hes.symm.trans hnext)
  have hoffset : s.log.nextOffset ≤ s.log.committed + 1 := by
    have hbase := h.sound.base_le
    have happlied := h.sound.applied_le
    rw [nextOffset, firstIndex_eq]
    omega
  obtain ⟨hpub, hge, hle⟩ := publishCommitted_publishes hnum hpublish
  have hsound' : s'.log.Sound := hpub.log.sound (hlog₁ ▸ hsound₁)
  obtain ⟨hlog', hcommitted⟩ := hpub.log.frame
  rw [hlog₁] at hlog' hcommitted
  have hcommitted : s.log.committed ≤ s'.log.committed := hcommitted
  have hunstable : s'.log.unstable = s.log.unstable := by
    rw [hlog']
    rfl
  have hstorage : s'.storage = storage := by
    show s'.log.storage = storage
    rw [hlog']
    rfl
  refine ⟨?_, hpub.snapCount.trans hcount₁, by omega⟩
  have hlast' : s'.log.lastIndex + 1 = s.log.unstable.offset + s.log.unstable.entries.length := by
    rw [hsound'.wf.lastIndex_succ, hunstable]
  have hend := hsound'.committed_le
  refine ⟨hsound'.wf.stable, ?_, hsound'.wf.unstable, ?_, ?_, ?_, hsound'.applied_le, ?_, ?_, ?_,
    ?_, ?_⟩
  · rw [hstorage, hunstable]
    exact hlast
  · rw [hunstable]
    exact hentries
  · rw [hunstable]
    exact hpending
  · exact hawaits.cursor_le.trans hcommitted
  · rw [hstorage]
    omega
  · rw [hstorage, hpub.snapshotIndex]
    exact hsi
  · rw [hstorage, hpub.snapshotIndex]
    exact hfi
  · rw [hpub.snapshotIndex]
    exact hai.trans hge
  · omega

/-- **What a round sends and queues** before the local snapshot. -/
theorem settle_sends {node : RawNode} (h : s.Tied) (hready : s.node.ready = Except.ok (node, rd))
    (hsettle : ({ s with node := node } : RaftNode).settle site rd = Except.ok s') :
    s'.sentMessages = s.sentMessages ++ s.node.raft.msgs ∧
      s'.storage.snapshot = rd.pendingSnapshot.getD s.storage.snapshot ∧
      ∀ msg ∈ s'.node.raft.msgs, msg.type = MessageType.msgSnap →
        msg.snapshot = s'.storage.snapshot ∧ s'.storage.snapshot.isEmpty = false := by
  obtain ⟨hlog, hmsgs, hmessages, -, hpending, -, hawaits⟩ := h.takes hready
  obtain ⟨storage, s₁, hstore, hnode₁, -, hsent₁, -, -, hpublish⟩ := settle_steps hsettle
  have hstore : rd.store s.log.storage = Except.ok storage := by
    rw [← hlog]
    exact hstore
  have hsnapshot : storage.snapshot = rd.pendingSnapshot.getD s.storage.snapshot := by
    obtain ⟨-, hsnap, -⟩ := hawaits.store_eq_ok h.sound hstore
    rcases hawaits.storageBehind_eq with ⟨hnone, heq⟩ | ⟨snap, hsome, -, -, -, hsnap'⟩
    · rw [hsnap, heq, hnone]
      rfl
    · rw [hsnap, hsnap', hsome]
      rfl
  obtain ⟨es, hes, -, hnum, -⟩ := h.sound.nextEntries
  obtain rfl : es = rd.committedEntries :=
    Except.ok.inj (hes.symm.trans (h.takes hready).committed)
  obtain ⟨hpub, -, -⟩ := publishCommitted_publishes hnum hpublish
  have hlog₁ : s₁.log = s.log.setStorage storage := by
    rw [← hlog]
    exact congrArg (fun n : RawNode => n.raft.raftLog) hnode₁
  have hstorage : s'.storage = storage := by
    show s'.log.storage = storage
    rw [hpub.log.frame.1, hlog₁]
    rfl
  -- what the log would send is what the storage holds by now
  have hsends : s₁.log.snapshot = storage.snapshot := by
    rw [hlog₁, hsnapshot]
    show s.log.unstable.snapshot.getD storage.snapshot = _
    rw [hpending, hsnapshot]
    cases rd.pendingSnapshot <;> rfl
  refine ⟨?_, by rw [hstorage, hsnapshot], fun msg hmsg ht => ?_⟩
  · rw [hpub.sent, hsent₁, hmessages]
    rfl
  · rw [hstorage]
    rcases hpub.sends msg hmsg ht with hold | hnew
    · rw [hnode₁] at hold
      have hold : msg ∈ node.raft.msgs := hold
      rw [hmsgs] at hold
      cases hold
    · rw [hsends] at hnew
      exact hnew

/-! ## The local snapshot -/

@[simp] lemma appliedIndex_setStorage (s : RaftNode) (storage : MemoryStorage) :
    (s.setStorage storage).appliedIndex = s.appliedIndex := rfl

@[simp] lemma appliedIndex_saveSnap (s : RaftNode) (snap : Snapshot) :
    (s.saveSnap site snap).appliedIndex = s.appliedIndex := rfl

@[simp] lemma storage_setStorage (s : RaftNode) (storage : MemoryStorage) :
    (s.setStorage storage).storage = storage := rfl

@[simp] lemma storage_saveSnap (s : RaftNode) (snap : Snapshot) :
    (s.saveSnap site snap).storage = s.storage := rfl

/-- More entries than `snap_count_` are applied since the last snapshot. -/
def SnapshotDue (s : RaftNode) : Prop := s.snapCount < uint64Sub s.appliedIndex s.snapshotIndex

instance (s : RaftNode) : Decidable s.SnapshotDue := inferInstanceAs (Decidable (_ < _))

/-- The log is compacted further than before, at most up to the snapshot, which is the one that the
storage holds. -/
structure Trimmed (s s' : RaftNode) : Prop where
  snapshot_eq : s'.storage.snapshot.metadata.index = s'.snapshotIndex
  front_lt : s.storage.front.index < s'.storage.front.index
  front_le : s'.storage.front.index ≤ s'.snapshotIndex

/-- What `maybe_trigger_snapshot` does with the data of the store. -/
structure Triggers (data : Bytes) (s s' : RaftNode) : Prop where
  snapCount : s'.snapCount = s.snapCount
  msgs : s'.node.raft.msgs = s.node.raft.msgs
  sent : s'.sentMessages = s.sentMessages
  same : ¬ s.SnapshotDue → s' = s
  trimmed : s.SnapshotDue → s.Trimmed s'
  made : s.SnapshotDue → s'.storage.snapshot.metadata.index = s.appliedIndex ∧
    s'.storage.snapshot.data = data

/-- **The local snapshot fails nowhere**, if no more entries are kept than there are between two
snapshots. -/
theorem trigger_returns (hkept : site.snapshotCatchUpEntriesN ≤ s.snapCount) (h : s.Settled rd)
    (data : Bytes) : ∃ s', s.maybeTriggerSnapshot site data = Except.ok s' ∧ s'.Settled rd ∧
      Triggers data s s' := by
  have hfront := h.front_le
  have hsnapshot := h.snapshot_le
  have hlast := h.applied_le.trans h.committed_le
  by_cases hdue : s.SnapshotDue
  · have hfar : s.snapCount < s.appliedIndex - s.snapshotIndex := by
      rw [SnapshotDue, uint64Sub, if_pos hsnapshot] at hdue
      exact hdue
    obtain ⟨snap, hindex, hdata, hcreate⟩ := s.storage.createSnapshot_returns (some s.confState) data
      (i := s.appliedIndex) (by rw [h.snapshot_eq]; omega) (by omega) hlast
    obtain ⟨storage, hcompact, hfront', hlast', hnum', hsnapshot'⟩ := MemoryStorage.compact_returns
      (s := { s.storage with snapshot := snap })
      (i := s.appliedIndex - site.snapshotCatchUpEntriesN) h.stored
      (show s.storage.front.index < _ by omega) (show _ ≤ s.storage.lastIndex by omega)
    let s' : RaftNode :=
      { (((s.setStorage { s.storage with snapshot := snap }).saveSnap site snap).setStorage
          storage) with snapshotIndex := s.appliedIndex }
    have hreturns : s.maybeTriggerSnapshot site data = Except.ok s' := by
      have hpos : site.snapshotCatchUpEntriesN < s.appliedIndex := by omega
      rw [maybeTriggerSnapshot, if_neg (Nat.not_le.mpr hdue), hcreate]
      simp only [Outcome.ok_bind, ne_eq, not_true_eq_false, if_false, appliedIndex_saveSnap,
        appliedIndex_setStorage, storage_saveSnap, storage_setStorage, gt_iff_lt, hpos, if_true]
      rw [hcompact]
      rfl
    have hlast'' : storage.lastIndex = s.storage.lastIndex := hlast'
    have hsi : storage.snapshot.metadata.index = s.appliedIndex := by rw [hsnapshot', hindex]
    refine ⟨s', hreturns, ?_, rfl, rfl, rfl, fun hd => absurd hdue hd, fun _ => ⟨hsi, ?_, ?_⟩,
      fun _ => ⟨hsi, ?_⟩⟩
    · refine ⟨hnum', ?_, h.numbered, h.entries, h.snapshot, h.cursor_le, h.log_applied_le, ?_, hsi,
        ?_, Nat.le_refl _, h.applied_le⟩
      · show storage.lastIndex + 1 = _
        rw [hlast'']
        exact h.last_eq
      · show s.log.committed ≤ storage.lastIndex
        rw [hlast'']
        exact h.committed_le
      · show storage.front.index ≤ s.appliedIndex
        omega
    · show s.storage.front.index < storage.front.index
      omega
    · show storage.front.index ≤ s.appliedIndex
      omega
    · show storage.snapshot.data = data
      rw [hsnapshot', hdata]
  · have hsame : s.maybeTriggerSnapshot site data = Except.ok s := by
      rw [maybeTriggerSnapshot, if_pos (Nat.le_of_not_lt hdue)]
      rfl
    exact ⟨s, hsame, h, rfl, rfl, rfl, fun _ => rfl, fun hd => absurd hd hdue,
      fun hd => absurd hd hdue⟩

/-! ## Advancing -/

/-- `advance` leaves the storage alone. -/
@[simp] lemma advance_storage (s : RaftNode) (rd : Ready) :
    (s.advance rd).storage = s.storage := by
  show (RawNode.advanceLog s.log rd).storage = s.storage
  rw [Ready.advanceLog_eq]
  rfl

/-- Behind `advance` nothing is unstable. -/
lemma Settled.advance_log (h : s.Settled rd) : (s.advance rd).log = { s.log with
    applied := if rd.appliedCursor > 0 then rd.appliedCursor else s.log.applied
    unstable :=
      { snapshot := none, entries := []
        offset := s.log.unstable.offset + s.log.unstable.entries.length } } := by
  show RawNode.advanceLog s.log rd = _
  rw [Ready.advanceLog_eq, Ready.settled_all h.snapshot h.entries h.numbered]

/-- **Behind `advance` the storage holds the whole log**, and the indices fit together again. -/
theorem Settled.advance (h : s.Settled rd) : (s.advance rd).Tied := by
  have hlog := h.advance_log
  have hfront := h.front_le
  have hsnapshot := h.snapshot_le
  have happlied := h.applied_le
  have hcommitted := h.committed_le
  have hlast := storage_lastIndex s.storage
  have hstorage := s.advance_storage rd
  have hsound : (s.advance rd).log.Sound := by
    rw [hlog]
    refine ⟨⟨h.stored, Numbered.nil _, fun _ => ⟨?_, h.last_eq.symm.le, fun _ => h.last_eq.symm⟩,
      fun snap hsnap => (by cases hsnap)⟩, ?_, ?_, ?_, ?_⟩
    · show s.storage.front.index + 1 ≤ s.log.unstable.offset + s.log.unstable.entries.length
      rw [← h.last_eq]
      omega
    · show s.storage.front.index ≤ s.log.committed
      omega
    · exact hcommitted
    · dsimp only
      split
      · exact h.cursor_le
      · exact h.log_applied_le
    · show s.storage.snapshot.metadata.index ≤ s.log.committed
      rw [h.snapshot_eq]
      omega
  refine ⟨hsound, fun snap hsnap => ?_, ?_, ?_, hsnapshot, ?_⟩
  · rw [hlog] at hsnap
    cases hsnap
  · rw [hstorage]
    exact h.snapshot_eq
  · rw [hstorage]
    exact hfront
  · rw [hlog]
    exact happlied

/-! ## A whole round -/

/-- **What a round is made of**: nothing is ready, or the `Ready` has no updates, or it is settled. -/
theorem handleReady_cases {data : Bytes} (h : s.handleReady site data = Except.ok s') :
    (s.node.hasReady = false ∧ s' = s) ∨
    (s.node.hasReady = true ∧ ∃ node rd, s.node.ready = Except.ok (node, rd) ∧
      rd.containsUpdates = false ∧ s' = { s with node := node }) ∨
    (s.node.hasReady = true ∧ ∃ node rd s₁ s₂, s.node.ready = Except.ok (node, rd) ∧
      rd.containsUpdates = true ∧
      ({ s with node := node } : RaftNode).settle site rd = Except.ok s₁ ∧
      s₁.maybeTriggerSnapshot site data = Except.ok s₂ ∧ s' = s₂.advance rd) := by
  rw [handleReady] at h
  split at h
  · rename_i hno
    cases h
    exact Or.inl ⟨by simpa using hno, rfl⟩
  rename_i hhas
  have hhas : s.node.hasReady = true := by simpa using hhas
  obtain ⟨⟨node, rd⟩, hready, h⟩ := Outcome.bind_eq_ok.mp h
  dsimp only at h
  split at h
  · rename_i hno
    cases h
    exact Or.inr (Or.inl ⟨hhas, node, rd, hready, by simpa using hno, rfl⟩)
  · rename_i hupdates
    obtain ⟨s₁, hsettle, h⟩ := Outcome.bind_eq_ok.mp h
    obtain ⟨s₂, htrigger, h⟩ := Outcome.bind_eq_ok.mp h
    cases h
    exact Or.inr (Or.inr
      ⟨hhas, node, rd, s₁, s₂, hready, by simpa using hupdates, hsettle, htrigger, rfl⟩)

end RaftNode

end RaftKv
