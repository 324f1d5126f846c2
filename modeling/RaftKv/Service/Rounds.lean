import RaftKv.Service.Service

/-!
# The rounds of a replica

* `RaftNode.publishEntries_entering` — what the loop of `publish_entries` does if no entry removes a
  node: it applies what `applyEntry` applies, and posts every command.
* `RaftNode.settle_plain` — a round without a snapshot, up to the call of `advance`.
* `RaftNode.handleReady_pullReady` — **a round does to the node what the cluster does with a
  `Ready`**, and posts the commands among the entries behind the apply index.
-/

namespace RaftKv

open Replication RaftLog

/-! ## Publishing -/

/-- If the entry changes the configuration, it enters a node. -/
def Entering (codec : ConfChangeCodec) (e : Entry) : Prop :=
  e.type = EntryType.entryConfChange → ∃ cc, codec.unpack e.data = some cc ∧
    cc.confChangeType = ConfChangeType.addNode

/-- The only configuration changes of a cluster enter its nodes. -/
lemma Membership.Plain.entering {C : ClusterConf} {e : Entry} (h : C.membership.Plain e) :
    Entering C.codec e := by
  intro htype
  obtain ⟨-, peer, hpeer, hdata⟩ := mem_bootstrapEntries _ _ _ e (h htype)
  refine ⟨peer.confChange, ?_, rfl⟩
  rw [hdata]
  exact C.unpack_pack peer hpeer

namespace RaftNode

variable {codec : ConfChangeCodec} {site : Site} {s s' : RaftNode} {es : List Entry} {rd : Ready}
  {goOn : Bool}

lemma publishConfChange_addNode {cc : ConfChange} (htype : cc.confChangeType = ConfChangeType.addNode)
    (h : s.publishConfChange cc = Except.ok (s', goOn)) :
    goOn = true ∧ s'.storeTasks = s.storeTasks ∧ s'.appliedIndex = s.appliedIndex ∧
      ∃ confState, s.node.applyConfChange cc = Except.ok (s'.node, confState) := by
  obtain ⟨⟨node, confState⟩, happly, h⟩ := Outcome.bind_eq_ok.mp h
  simp only [htype] at h
  cases h
  refine ⟨rfl, ?_, ?_, confState, ?_⟩
  · split <;> rfl
  · split <;> rfl
  · rw [happly]
    split <;> rfl

lemma storeTasks_publishNormal (s : RaftNode) {e : Entry} (he : e.type = EntryType.entryNormal) :
    (s.publishNormal e).storeTasks = s.storeTasks ++ (commands [e]).map StoreTask.readCommit := by
  rw [publishNormal]
  split
  · rename_i hdata
    simp [commands, hdata]
  · rename_i hdata
    simp [commands, hdata, he, post]

@[simp] lemma node_publishNormal (s : RaftNode) (e : Entry) : (s.publishNormal e).node = s.node := by
  rw [publishNormal]
  split <;> rfl

@[simp] lemma node_setAppliedIndex (s : RaftNode) (index : Nat) :
    (s.setAppliedIndex index).node = s.node := rfl

/-- **What the loop does if no entry removes a node.** -/
theorem publishEntries_entering (hes : ∀ e ∈ es, Entering codec e)
    (h : s.publishEntries codec es = Except.ok (s', goOn)) :
    es.foldlM (applyEntry codec) s.node = Except.ok s'.node ∧
      s'.storeTasks = s.storeTasks ++ (commands es).map StoreTask.readCommit ∧
      s'.appliedIndex = (es.getLast?.map Entry.index).getD s.appliedIndex := by
  induction es generalizing s with
  | nil =>
      cases h
      simp [commands, pure, Except.pure]
  | cons e es ih =>
      obtain ⟨he, hes⟩ := List.forall_mem_cons.mp hes
      have hlast : ∀ a, ((e :: es).getLast?.map Entry.index).getD a =
          (es.getLast?.map Entry.index).getD e.index := by
        intro a
        rw [List.getLast?_cons]
        cases es.getLast? <;> rfl
      rw [List.foldlM_cons, commands_cons, List.map_append, hlast]
      simp only [publishEntries] at h
      split at h
      · rename_i htype
        obtain ⟨hnode, htasks, happlied⟩ := ih hes h
        have happly : applyEntry codec s.node e = Except.ok s.node := by
          rw [applyEntry, htype]
          rfl
        rw [happly]
        refine ⟨by simpa using hnode, ?_, by simpa using happlied⟩
        rw [htasks, ← List.append_assoc, ← s.storeTasks_publishNormal htype]
        rfl
      · rename_i htype
        obtain ⟨cc, hunpack, hadd⟩ := he htype
        rw [hunpack] at h
        obtain ⟨⟨s₁, goOn₁⟩, hchange, h⟩ := Outcome.bind_eq_ok.mp h
        obtain ⟨rfl, htasks₁, -, confState, happly⟩ := publishConfChange_addNode hadd hchange
        obtain ⟨hnode, htasks, happlied⟩ := ih hes h
        have happly : applyEntry codec s.node e = Except.ok s₁.node := by
          rw [applyEntry, htype]
          dsimp only
          rw [hunpack]
          dsimp only
          rw [happly]
          rfl
        rw [happly]
        refine ⟨hnode, ?_, by simpa using happlied⟩
        rw [htasks]
        show s₁.storeTasks ++ _ = _
        rw [htasks₁]
        simp [commands, htype]
      · cases h

theorem publishCommitted_entering (hnum : Numbered (s.appliedIndex + 1) es)
    (hes : ∀ e ∈ es, Entering codec e) (h : s.publishCommitted codec es = Except.ok s') :
    es.foldlM (applyEntry codec) s.node = Except.ok s'.node ∧
      s'.storeTasks = s.storeTasks ++ (commands es).map StoreTask.readCommit ∧
      s'.appliedIndex = s.appliedIndex + es.length := by
  rw [publishCommitted, entriesToApply_eq_ok hnum] at h
  split at h
  · rename_i hnil
    cases h
    rw [hnil]
    exact ⟨rfl, (List.append_nil _).symm, rfl⟩
  · rename_i hne
    simp only [Outcome.ok_bind, hne, if_false] at h
    obtain ⟨⟨s₁, goOn⟩, hloop, h⟩ := Outcome.bind_eq_ok.mp h
    cases h
    obtain ⟨hnode, htasks, happlied⟩ := publishEntries_entering hes hloop
    refine ⟨hnode, htasks, ?_⟩
    obtain ⟨last, hlast⟩ := Option.ne_none_iff_exists'.mp (mt List.getLast?_eq_none_iff.mp hne)
    have hindex := hnum.getLast hlast
    have hpos := List.length_pos_iff.mpr hne
    rw [happlied, hlast]
    show last.index = _
    omega

/-! ## A round -/

/-- **A round without a snapshot**, up to the call of `advance`. -/
theorem settle_plain (hempty : rd.snapshot.isEmpty = true)
    (hnum : Numbered (s.appliedIndex + 1) rd.committedEntries)
    (hes : ∀ e ∈ rd.committedEntries, Entering site.confChange e)
    (h : s.settle site rd = Except.ok s') :
    ∃ storage, s.storage.append rd.entries = Except.ok storage ∧
      rd.committedEntries.foldlM (applyEntry site.confChange) (s.node.setStorage storage) =
        Except.ok s'.node ∧
      s'.storeTasks = s.storeTasks ++ (commands rd.committedEntries).map StoreTask.readCommit ∧
      s'.appliedIndex = s.appliedIndex + rd.committedEntries.length ∧
      s'.sentMessages = s.sentMessages ++ rd.messages ∧ s'.snapshotIndex = s.snapshotIndex ∧
      s'.snapCount = s.snapCount ∧ Commits (s.log.setStorage storage) s'.log := by
  rw [settle_eq] at h
  obtain ⟨s₁, hpersist, h⟩ := Outcome.bind_eq_ok.mp h
  rw [persist] at hpersist
  obtain ⟨s₂, hinstall, hpersist⟩ := Outcome.bind_eq_ok.mp hpersist
  rw [installSnapshot, if_pos hempty] at hinstall
  cases hinstall
  obtain ⟨storage, happend, hpersist⟩ := Outcome.bind_eq_ok.mp hpersist
  cases hpersist
  generalize hstored : ({ s with
    wal := s.wal.save site.wal rd.hardState rd.entries } : RaftNode).setStorage storage = s₁ at h
  have hindex : s₁.appliedIndex = s.appliedIndex := by rw [← hstored]; rfl
  have hsent := sentMessages_sendMessages s₁ rd.messages
  obtain ⟨calls, hcalls⟩ := sendMessages_frame s₁ rd.messages
  rw [hcalls] at h hsent
  rw [← hindex] at hnum
  obtain ⟨hpublishes, -, -⟩ := publishCommitted_publishes hnum h
  obtain ⟨hnode, htasks, happlied⟩ :=
    publishCommitted_entering (s := { s₁ with transportCalls := calls }) hnum hes h
  subst hstored
  exact ⟨storage, happend, hnode, htasks, happlied, hpublishes.sent.trans hsent,
    hpublishes.snapshotIndex, hpublishes.snapCount, hpublishes.log⟩

/-- A `Ready` without updates leaves the node as it is. -/
lemma ready_of_not_containsUpdates {n n' : RawNode} (h : n.ready = Except.ok (n', rd))
    (hno : rd.containsUpdates = false) : n' = n := by
  obtain ⟨rd', hnew, h⟩ := Outcome.bind_eq_ok.mp h
  simp only [Outcome.pure_eq_ok, Prod.mk.injEq] at h
  obtain ⟨rfl, rfl⟩ := h
  obtain ⟨es, -, hnew⟩ := Outcome.bind_eq_ok.mp hnew
  cases hnew
  simp only [Ready.containsUpdates, Bool.or_eq_false_iff, Bool.not_eq_false',
    List.isEmpty_iff] at hno
  obtain ⟨⟨⟨-, rfl⟩, hmsgs⟩, -⟩ := hno
  simp only [Raft.reduceUncommittedSize]
  cases n with
  | mk raft prevSoftState prevHardState =>
      cases raft
      cases hmsgs
      rfl

/-- The apply index of a process that has never had a snapshot. -/
structure Paced (s : RaftNode) : Prop where
  snapshotIndex : s.snapshotIndex = 0
  applied : s.appliedIndex = s.log.applied
  applied_le : s.log.applied ≤ s.log.committed

/-- What is committed and not applied. -/
lemma nextEntries_prefix {l : RaftLog} (h : Uncompacted l) (hle : l.committed ≤ l.logical.length)
    (happlied : l.applied ≤ l.committed) (hnext : l.nextEntries = Except.ok es) :
    es <+: l.logical.drop l.applied ∧ l.applied + es.length ≤ l.committed ∧
      Numbered (l.applied + 1) es := by
  have hempty : l.storage.snapshot.metadata.index = 0 := by
    have := h.snapshot
    rwa [Snapshot.isEmpty, beq_iff_eq] at this
  have hsound : l.Sound :=
    ⟨h.wf, by rw [h.base]; omega, by rw [h.lastIndex]; exact hle, happlied, by omega⟩
  obtain ⟨es', hes', hpre, hnum, hlen⟩ := hsound.nextEntries
  obtain rfl : es' = es := Except.ok.inj (hes'.symm.trans hnext)
  have hoffset : l.nextOffset = l.applied + 1 := by
    rw [nextOffset, firstIndex_eq, h.base]
    omega
  rw [hoffset] at hpre hnum hlen
  rw [h.base] at hpre
  exact ⟨hpre.trans (List.take_prefix _ _), by omega, hnum⟩

/-- **A round does to the node what the cluster does with a `Ready`**, unless it does nothing. -/
theorem handleReady_pullReady {C : ClusterConf} {w : World Nat Entry} {i : Nat} {data : Bytes}
    (hcodec : site.confChange = C.codec) (hinv : Inv C.membership.setting w)
    (hsim : Sim C.membership w i s.node.raft) (hpaced : s.Paced)
    (hsmall : s.log.committed ≤ s.snapCount) (h : s.handleReady site data = Except.ok s') :
    s' = s ∨ ∃ sent es, pullReady C.codec s.node = Except.ok (s'.node, sent) ∧
      s'.sentMessages = s.sentMessages ++ sent ∧ es <+: s.log.logical.drop s.appliedIndex ∧
      s'.storeTasks = s.storeTasks ++ (commands es).map StoreTask.readCommit ∧
      s'.appliedIndex = s.appliedIndex + es.length ∧ s'.Paced ∧ s'.snapCount = s.snapCount := by
  rcases handleReady_cases h with ⟨-, rfl⟩ | ⟨-, node, rd, hready, hno, rfl⟩ |
    ⟨-, node, rd, s₁, s₂, hready, -, hsettle, htrigger, rfl⟩
  · exact Or.inl rfl
  · rw [ready_of_not_containsUpdates hready hno]
    exact Or.inl rfl
  refine Or.inr ⟨rd.messages, rd.committedEntries, ?_⟩
  obtain ⟨hnext, hentries, hsnapshot, -, hnode⟩ := RawNode.ready_eq_ok hready
  have hlog : node.raft.raftLog = s.log := by rw [hnode]; rfl
  have hle : s.log.committed ≤ s.log.logical.length := hsim.committed_le hinv
  have hempty : rd.snapshot.isEmpty = true := by rw [hsnapshot, hsim.uncompacted.unstable]; rfl
  obtain ⟨hpre, hroom, hnum⟩ := 
    nextEntries_prefix (l := s.log) hsim.uncompacted hle hpaced.applied_le hnext
  rw [← hpaced.applied] at hnum
  have hes : ∀ e ∈ rd.committedEntries, Entering site.confChange e := by
    intro e he
    rw [hcodec]
    exact (hsim.plain_log hinv e (List.mem_of_mem_drop (hpre.subset he))).entering
  obtain ⟨storage, happend, hfold, htasks, happlied, hsent, hindex, hcount, hcommits⟩ :=
    settle_plain (s := { s with node := node }) hempty hnum hes hsettle
  obtain ⟨hframe, -⟩ := hcommits.frame
  -- no local snapshot is due
  have hroom' : s₁.appliedIndex ≤ s₁.snapCount := by
    rw [happlied, hcount]
    show s.appliedIndex + _ ≤ s.snapCount
    rw [hpaced.applied]
    exact hroom.trans hsmall
  have hzero : s₁.snapshotIndex = 0 := hindex.trans hpaced.snapshotIndex
  have hsame : s₂ = s₁ := by
    rw [maybeTriggerSnapshot, if_pos] at htrigger
    · exact (Outcome.pure_eq_ok.mp htrigger).symm
    · rw [hzero, uint64Sub, if_pos (Nat.zero_le _)]
      exact hroom'
  subst hsame
  have hpull : pullReady C.codec s.node = Except.ok ((s₂.advance rd).node, rd.messages) := by
    rw [← hcodec]
    refine Outcome.bind_eq_ok.mpr ⟨(node, rd), hready, ?_⟩
    refine Outcome.bind_eq_ok.mpr ⟨storage, happend, ?_⟩
    exact Outcome.bind_eq_ok.mpr ⟨s₂.node, hfold, rfl⟩
  -- the indices behind `advance`
  have hcommitted : (s₂.advance rd).log.committed = s.log.committed :=
    (pullReady_sim hinv hsim hpull).1.commit.symm.trans hsim.commit
  have happlied' : (s₂.advance rd).log.applied = s.log.applied + rd.committedEntries.length := by
    show (RawNode.advanceLog s₂.log rd).applied = _
    rw [Ready.advanceLog_eq, hframe]
    show (if rd.appliedCursor > 0 then rd.appliedCursor else node.raft.raftLog.applied) = _
    rw [hlog, Ready.appliedCursor]
    rw [hpaced.applied] at hnum
    cases hlast : rd.committedEntries.getLast? with
    | none =>
        rw [Snapshot.isEmpty, beq_iff_eq] at hempty
        rw [List.getLast?_eq_none_iff.mp hlast, hempty]
        rfl
    | some e =>
        have he := hnum.getLast hlast
        have hpos : 0 < rd.committedEntries.length :=
          List.length_pos_iff.mpr fun hnil => by rw [hnil] at hlast; cases hlast
        dsimp only
        rw [if_pos (by omega)]
        omega
  refine ⟨hpull, hsent, hpaced.applied ▸ hpre, htasks, happlied, ⟨hzero, ?_, ?_⟩, hcount⟩
  · rw [happlied', ← hpaced.applied]
    exact happlied
  · rw [happlied', hcommitted]
    exact hroom

end RaftNode

end RaftKv
