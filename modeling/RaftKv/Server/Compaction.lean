import RaftKv.Server.Restart

/-!
# Local snapshots

`maybe_trigger_snapshot` computes where to compact from the index that is applied, and everything
depends on where the log was compacted before: by an earlier local snapshot, by an installed one, or
by the start.

* `RaftNode.Tied.act` — every action keeps the indices tied.
* `Raft.serves_compacted` — a peer whose next entry is compacted is sent the snapshot.
* `RaftNode.local_snapshots` — **local snapshots never fail, compact further each time, and leave no
  peer behind**.
-/

namespace RaftKv

open RaftLog

/-! ## Serving a snapshot -/

namespace Raft

/-- A peer that may be sent something, whose next entry is compacted, is sent a snapshot that covers
this entry. -/
def ServesCompacted (r : Raft) : Prop :=
  ∀ (toId : Nat) (pr : Progress), r.getProgress toId = some pr → pr.isPaused = false →
    pr.recentActive = true → 0 < pr.next → pr.next < r.raftLog.firstIndex →
    ∃ r', r.sendAppend toId = Except.ok r' ∧
      r'.msgs = r.msgs ++ [r.signed
        { type := MessageType.msgSnap, toId := toId, snapshot := r.raftLog.snapshot }] ∧
      pr.next ≤ r.raftLog.snapshot.metadata.index

/-- **A log whose storage is compacted up to its snapshot at most serves every peer.** -/
theorem serves_compacted {r : Raft} (hsound : r.raftLog.Sound)
    (hfront : r.raftLog.storage.front.index ≤ r.raftLog.storage.snapshot.metadata.index) :
    r.ServesCompacted := by
  intro toId pr hpr hopen hactive hpos hnext
  have hbase := firstIndex_eq r.raftLog
  have hlast := hsound.base_le.trans hsound.committed_le
  have hcover : r.raftLog.base ≤ r.raftLog.snapshot.metadata.index := by
    rw [base, RaftLog.snapshot]
    cases r.raftLog.unstable.snapshot with
    | none => exact hfront
    | some s => exact Nat.le_refl _
  have hentries : r.raftLog.entries pr.next r.maxMsgSize = Except.ok (Except.error
      (Status.invalidArgument "requested index is unavailable due to compaction")) := by
    rw [entries, if_neg (by omega), slice, mustCheckOutOfBounds, if_neg (by omega), if_pos hnext]
    rfl
  have hnonempty : r.raftLog.snapshot.isEmpty = false := by
    rw [Snapshot.isEmpty, beq_eq_false_iff_ne]
    omega
  have hsend : r.maybeSendAppend toId true = r.sendSnapshot toId pr := by
    rw [maybeSendAppend, hpr]
    dsimp only
    rw [if_neg (by simp [hopen]), hentries]
    simp only [Outcome.ok_bind, Except.toOption, Option.getD_none, not_true_eq_false, and_false,
      if_false]
    cases r.raftLog.term (pr.next - 1) <;> rfl
  let req : Message :=
    { type := MessageType.msgSnap, toId := toId, snapshot := r.raftLog.snapshot }
  let r₁ := r.modifyProgress toId fun p => p.becomeSnapshot r.raftLog.snapshot.metadata.index
  refine ⟨{ r₁ with msgs := r.msgs ++ [r.signed req] }, ?_, rfl, by omega⟩
  rw [sendAppend, hsend, sendSnapshot, if_neg (by simp [hactive])]
  dsimp only
  rw [if_neg (by simp [hnonempty])]
  rfl

end Raft

namespace RaftNode

variable {site : Site} {disk : Disk} {fileSize : Nat} {s s' : RaftNode} {a : Action}

/-! ## Runs -/

/-- A log that is only moved on, under a node that is otherwise the same. -/
lemma Tied.moves {node : RawNode} (h : s.Tied) (hmoves : Moves s.log node.raft.raftLog) :
    ({ s with node := node } : RaftNode).Tied := by
  obtain ⟨hsound, hidle⟩ := Phase.Fits.moves (p := Phase.idle) h.idle h.sound hmoves
  have hstorage : ({ s with node := node } : RaftNode).storage = s.storage := hmoves.storage
  refine ⟨hsound, hidle, ?_, ?_, h.snapshot_le, h.applied_le.trans hmoves.committed_le⟩
  · rw [hstorage]
    exact h.snapshot_eq
  · rw [hstorage]
    exact h.front_le

/-- A call only moves the log on. -/
lemma call_moves {c : Call} {d : Driver} (hstamped : c.Stamped) (hnum : c.Numbered)
    (hact : Driver.act site.confChange.pack { node := s.node } c = Except.ok d) :
    Moves s.log d.node.raft.raftLog := by
  rcases Driver.act_cases hstamped hact with ⟨heffects, -, -⟩ | ⟨-, n, rd, hready, rfl⟩ |
    ⟨rd, storage, htaken, -, -⟩ | ⟨-, rd, hstored, -⟩
  · exact Raft.Effects.moves hnum.message heffects
  · obtain ⟨-, -, -, -, hn⟩ := RawNode.ready_eq_ok hready
    rw [hn]
    exact Relation.ReflTransGen.refl
  · cases htaken
  · cases hstored

/-- A call leaves everything but the node alone. -/
lemma Tied.call {c : Call} {d : Driver} (h : s.Tied) (hstamped : c.Stamped) (hnum : c.Numbered)
    (hact : Driver.act site.confChange.pack { node := s.node } c = Except.ok d) :
    ({ s with node := d.node } : RaftNode).Tied :=
  h.moves (call_moves hstamped hnum hact)

/-- What every action keeps. -/
theorem Tied.act (hkept : site.snapshotCatchUpEntriesN ≤ site.snapCount)
    (h : s.Tied ∧ s.snapCount = site.snapCount) (ha : s.Proper a)
    (hact : s.act site a = Except.ok s') : s'.Tied ∧ s'.snapCount = site.snapCount := by
  obtain ⟨htied, hcount⟩ := h
  cases a with
  | call c =>
      obtain ⟨d, hd, hact⟩ := Outcome.bind_eq_ok.mp hact
      cases hact
      exact ⟨htied.call ha.1 ha.2.1 hd, hcount⟩
  | handleReady data =>
      rcases handleReady_cases hact with ⟨-, rfl⟩ | ⟨-, node, rd, hready, -, rfl⟩ |
        ⟨-, node, rd, s₁, s₂, hready, -, hsettle, htrigger, rfl⟩
      · exact ⟨htied, hcount⟩
      · refine ⟨htied.moves ?_, hcount⟩
        rw [(htied.takes hready).log]
      · obtain ⟨hsettled, hcount₁, -⟩ := settle_eq_ok htied hready hsettle
        obtain ⟨s₂', htrigger', hsettled', htriggers⟩ := trigger_returns
          (hkept.trans (hcount₁.trans hcount).ge) hsettled data
        obtain rfl : s₂' = s₂ := Except.ok.inj (htrigger'.symm.trans htrigger)
        exact ⟨hsettled'.advance, htriggers.snapCount.trans (hcount₁.trans hcount)⟩
  | restart disk fileSize => exact boot_tied hact

/-- **The indices are tied in every state that a process reaches.** -/
theorem Reaches.tied (hkept : site.snapshotCatchUpEntriesN ≤ site.snapCount)
    (h : Reaches site disk fileSize s) : s.Tied ∧ s.snapCount = site.snapCount := by
  obtain ⟨s₀, hboot, hrun⟩ := h
  refine hrun.invariant (I := fun s => s.Tied ∧ s.snapCount = site.snapCount) ?_ (boot_tied hboot)
  intro s a s' hs ha hact
  exact Tied.act hkept hs ha hact

/-- **Local snapshots never fail.**  Let no more entries be kept than there are between two
snapshots.  In every state that a process reaches, from whatever disk it was started and started
again, `snapshot_index_` is the index of the snapshot that the storage holds, and every peer whose
next entry is compacted is served this snapshot.  Wherever a round of the loop comes to
`maybe_trigger_snapshot`, this returns; and if a snapshot is due, the log is compacted further than
before, up to the new snapshot at most. -/
theorem local_snapshots (hkept : site.snapshotCatchUpEntriesN ≤ site.snapCount)
    (h : Reaches site disk fileSize s) :
    s.storage.snapshot.metadata.index = s.snapshotIndex ∧
    s.storage.front.index ≤ s.snapshotIndex ∧ s.node.raft.ServesCompacted ∧
    ∀ (node : RawNode) (rd : Ready) (s₁ : RaftNode) (data : Bytes),
      s.node.ready = Except.ok (node, rd) →
      ({ s with node := node } : RaftNode).settle site rd = Except.ok s₁ →
      ∃ s₂, s₁.maybeTriggerSnapshot site data = Except.ok s₂ ∧
        (¬ s₁.SnapshotDue → s₂ = s₁) ∧ (s₁.SnapshotDue → s₁.Trimmed s₂) := by
  obtain ⟨htied, hcount⟩ := h.tied hkept
  refine ⟨htied.snapshot_eq, htied.front_le,
    Raft.serves_compacted htied.sound (htied.front_le.trans htied.snapshot_eq.ge), ?_⟩
  intro node rd s₁ data hready hsettle
  obtain ⟨hsettled, hcount₁, -⟩ := settle_eq_ok htied hready hsettle
  obtain ⟨s₂, htrigger, -, htriggers⟩ := trigger_returns
    (hkept.trans (hcount₁.trans hcount).ge) hsettled data
  exact ⟨s₂, htrigger, htriggers.same, htriggers.trimmed⟩

/-- A process that is alone, with a snapshot behind every second entry. -/
def loneSite : Site where
  id := 1
  peers := 1
  wal := WalFormat.msgpack
  snap := SnapFormat.msgpack
  confChange := ThreeNodes.codec
  snapCount := 1
  snapshotCatchUpEntriesN := 1

/-- The process has become leader and applies its second entry: a snapshot is due. -/
theorem local_snapshots_lone : ∃ s s₁ s₂ : RaftNode, Reaches loneSite {} 0 s ∧ s₁.SnapshotDue ∧
    s₁.maybeTriggerSnapshot loneSite [7] = Except.ok s₂ ∧ s₁.Trimmed s₂ := by
  let acts : List RaftNode.Action := [Action.handleReady [], Action.call Call.campaign]
  have hreached : ((boot loneSite {} 0).toOption.any fun s₀ =>
      (acts.foldlM (RunOf.exec (act loneSite) Proper) s₀).toOption.any fun s =>
        s.node.ready.toOption.any fun p =>
          (({ s with node := p.1 } : RaftNode).settle loneSite p.2).toOption.any fun s₁ =>
            decide s₁.SnapshotDue) = true := by
    decide +kernel
  obtain ⟨s₀, hs₀, hreached⟩ := (Option.any_eq_true ..).mp hreached
  obtain ⟨s, hs, hreached⟩ := (Option.any_eq_true ..).mp hreached
  obtain ⟨⟨node, rd⟩, hready, hreached⟩ := (Option.any_eq_true ..).mp hreached
  obtain ⟨s₁, hs₁, hreached⟩ := (Option.any_eq_true ..).mp hreached
  have hdue := of_decide_eq_true hreached
  have hreaches : Reaches loneSite {} 0 s :=
    ⟨s₀, Outcome.eq_ok_of_toOption hs₀, RunOf.of_exec (Outcome.eq_ok_of_toOption hs)⟩
  obtain ⟨-, -, -, hround⟩ := local_snapshots (Nat.le_refl 1) hreaches
  obtain ⟨s₂, htrigger, -, htrimmed⟩ := hround node rd s₁ [7] (Outcome.eq_ok_of_toOption hready)
    (Outcome.eq_ok_of_toOption hs₁)
  exact ⟨s, s₁, s₂, hreaches, hdue, htrigger, htrimmed hdue⟩

end RaftNode

end RaftKv
