import RaftKv.Raft.LogChecks
import RaftKv.Safety.Step

/-!
# A node that follows the abstract replication fails no check

* `Uncompacted.maybeAppend_checks` — the log takes a batch of a matching leader's log.
* `Leading.maybeSendAppend_checks`, `Leading.maybeCommit_checks` — what a leader reads of its log
  and what it commits are in range.
* `Tracks.handleHeartbeat_checks` — **a heartbeat commits only what its receiver holds.**
* `Tracks.stepMessage_checks`, `Tracks.tick_checks` — no message and no tick fails a check.
-/

namespace RaftKv

open Replication

variable {M : RaftKv.Membership} {w w₀ : World Nat Entry} {i : Nat} {r r' : Raft} {m : Message}

/-! ## Logs -/

namespace RaftLog

variable {l : RaftLog}

theorem commitTo_checks {toCommit : Nat} (h : toCommit ≤ l.lastIndex) :
    ChecksHold (l.commitTo toCommit) := by
  rw [commitTo]
  split
  · rw [if_neg (by omega)]
    exact Outcome.Avoids.pure
  · exact Outcome.Avoids.pure

theorem append_checks (h : l.WF) {es : List Entry}
    (hes : ∀ e ∈ es.head?, l.committed < e.index ∧ e.index ≤ l.lastIndex + 1) :
    ChecksHold (l.append es) := by
  cases es with
  | nil => exact Outcome.Avoids.pure
  | cons e es =>
      obtain ⟨hlow, hhigh⟩ := hes e rfl
      have hlast := lastIndex_eq h
      have hoffset := h.offset_eq
      rw [append, if_neg (by omega)]
      refine Outcome.Avoids.bind ?_ fun _ _ => Outcome.Avoids.pure
      simp only [Unstable.truncateAndAppend]
      split
      · exact Outcome.Avoids.pure
      split
      · exact Outcome.Avoids.pure
      · refine Outcome.Avoids.bind ?_ fun _ _ => Outcome.Avoids.pure
        rw [Unstable.slice, if_neg (by omega), if_neg (by omega)]
        exact Outcome.Avoids.pure

/-- Reading the log fails no check, whatever is asked for. -/
theorem slice_checks (h : l.WF) (low high maxSize : Nat) :
    ChecksHold (l.slice low high maxSize) := by
  have hlast := lastIndex_eq h
  by_cases hlow : l.base + 1 ≤ low
  · by_cases hle : low ≤ high
    · by_cases hhigh : high ≤ l.base + l.logical.length + 1
      · exact Outcome.Avoids.of_eq_ok (slice_eq h maxSize hlow hle hhigh)
      · refine Outcome.Avoids.bind ?_ fun status hstatus => ?_
        · rw [mustCheckOutOfBounds, firstIndex_eq, if_neg (by omega), if_neg (by omega),
            if_pos (by omega)]
          exact ChecksHold.fatal (by simp [LogCheck.heads, toString_string])
        · rw [mustCheckOutOfBounds, firstIndex_eq, if_neg (by omega), if_neg (by omega),
            if_pos (by omega)] at hstatus
          cases hstatus
    · refine Outcome.Avoids.bind ?_ fun status hstatus => ?_
      · rw [mustCheckOutOfBounds, if_pos (by omega)]
        exact ChecksHold.assertion _
      · rw [mustCheckOutOfBounds, if_pos (by omega)] at hstatus
        cases hstatus
  · refine Outcome.Avoids.bind ?_ fun status hstatus => ?_
    · rw [mustCheckOutOfBounds, firstIndex_eq]
      split
      · exact ChecksHold.assertion _
      · rw [if_pos (by omega)]
        exact Outcome.Avoids.pure
    · rw [mustCheckOutOfBounds, firstIndex_eq] at hstatus
      split at hstatus
      · cases hstatus
      · rw [if_pos (by omega)] at hstatus
        obtain rfl := Outcome.pure_eq_ok.mp hstatus
        rw [if_pos (by simp)]
        exact Outcome.Avoids.pure

theorem entries_checks (h : l.WF) (index maxSize : Nat) : ChecksHold (l.entries index maxSize) := by
  rw [entries]
  split
  · exact Outcome.Avoids.pure
  · exact slice_checks h _ _ _

theorem nextEntries_checks (h : l.WF) : ChecksHold l.nextEntries := by
  rw [nextEntries]
  split
  · refine Outcome.Avoids.bind (slice_checks h _ _ _) fun res _ => ?_
    split
    · exact Outcome.Avoids.pure
    · exact ChecksHold.fatal (by simp [LogCheck.heads])
  · exact Outcome.Avoids.pure

end RaftLog

namespace Uncompacted

variable {l : RaftLog}

theorem maybeCommit_checks (h : Uncompacted l) {maxIndex t : Nat}
    (hle : maxIndex ≤ l.logical.length) : ChecksHold (l.maybeCommit maxIndex t) := by
  rw [RaftLog.maybeCommit]
  split
  · split
    · exact ChecksHold.uninitialized _
    split
    · refine Outcome.Avoids.bind (RaftLog.commitTo_checks ?_) fun _ _ => Outcome.Avoids.pure
      rw [h.lastIndex]
      exact hle
    · exact Outcome.Avoids.pure
  · exact Outcome.Avoids.pure

/-- **A batch of a matching leader's log fails no check** of a log that has committed nothing behind
the batch's start. -/
theorem maybeAppend_checks (h : Uncompacted l) {L : List Entry} (hmatching : Matching l.logical L)
    (hnum : Numbered 1 L) (hpos : ∀ e ∈ L, 0 < e.term) {index commit : Nat} {es : List Entry}
    (hindex : index ≤ L.length) (hes : es <+: L.drop index) (hcommitted : l.committed ≤ index) :
    ChecksHold (l.maybeAppend index (termAt L index) commit es) := by
  have hesnum := batch_numbered hnum hes
  have hposes : ∀ e ∈ es, 0 < e.index := by
    intro e he
    obtain ⟨k, hk⟩ := List.getElem?_of_mem he
    have := hesnum k e hk
    omega
  rw [RaftLog.maybeAppend]
  split
  · rename_i hmt
    refine Outcome.Avoids.bind ?_ fun l₁ hl₁ => ?_
    · rw [RaftLog.appendNew]
      rcases RaftLog.findConflict_cases (l := l) hposes with
        ⟨hnone, -⟩ | ⟨pre, e, post, rfl, hconflict, hpre, -⟩
      · rw [hnone]
        exact Outcome.Avoids.pure
      · have he : e.index = index + 1 + pre.length := hesnum pre.length e (by simp)
        have hkept := (h.take_of_batch hmatching hnum hpos hindex hes hmt hpre).length_le
        have hlen := hes.length_le
        rw [List.length_take] at hkept
        rw [List.length_drop, List.length_append, List.length_cons] at hlen
        simp only [hconflict]
        rw [if_neg (by omega), if_neg (by omega), if_neg (by simp; omega),
          show e.index - (index + 1) = pre.length by omega, List.drop_left]
        refine Outcome.Avoids.bind (RaftLog.append_checks h.wf ?_) fun _ _ => Outcome.Avoids.pure
        rintro x ⟨rfl⟩
        rw [h.lastIndex]
        omega
    · refine Outcome.Avoids.bind (RaftLog.commitTo_checks ?_) fun _ _ => Outcome.Avoids.pure
      refine (Nat.min_le_right _ _).trans ?_
      rcases RaftLog.appendNew_cases hesnum hl₁ with
        ⟨rfl, hall⟩ | ⟨pre, e, post, last, rfl, hpre, -, -, happend⟩
      · have hkept := (h.take_of_batch hmatching hnum hpos hindex (by rwa [List.append_nil])
          hmt hall).length_le
        have hlen := hes.length_le
        rw [List.length_take] at hkept
        rw [List.length_drop] at hlen
        rw [h.lastIndex]
        omega
      · have he : e.index = index + 1 + pre.length := hesnum pre.length e (by simp)
        have hkept := (h.take_of_batch hmatching hnum hpos hindex hes hmt hpre).length_le
        have hlen := hes.length_le
        rw [List.length_take] at hkept
        rw [List.length_drop, List.length_append, List.length_cons] at hlen
        have hpost : Numbered e.index (e :: post) := by
          have := hesnum.drop pre.length
          rwa [List.drop_left, ← he] at this
        obtain ⟨hu, -, -, -, hlogical, -⟩ := h.append hpost (by omega) happend
        rw [hu.lastIndex, hlogical]
        simp only [List.length_append, List.length_cons, List.length_take]
        omega
  · exact Outcome.Avoids.pure

end Uncompacted

/-! ## Leaders -/

/-- What a progress claims to match, the log holds. -/
theorem Sim.sortedMatches_le (h : Sim M w i r) (hinv : Inv M.setting w)
    (hleader : r.state = RaftState.leader) {mci : Nat} (hmci : mci ∈ r.sortedMatches) :
    mci ≤ r.raftLog.logical.length := by
  rw [Raft.sortedMatches, List.mem_insertionSort] at hmci
  obtain ⟨e, he, rfl⟩ := List.mem_map.mp hmci
  have hlookup : r.prs.lookup e.1 = some e.2 := AList.mem_lookup_iff.mpr he
  have hp : r.getProgress e.1 = some e.2 := by simp only [Raft.getProgress, hlookup]
  exact ((h.leader hleader).progress e.1 e.2 hp).matched.trans (h.ack_le hinv hleader e.1)

namespace Leading

theorem maybeCommit_checks (h : Leading M w₀ i r) : ChecksHold r.maybeCommit := by
  rw [Raft.maybeCommit]
  split
  · exact ChecksHold.outOfRange _
  split
  · exact ChecksHold.outOfRange _
  · rename_i mci hmci
    obtain ⟨w, -, -, hinv, hsim⟩ := h.tracks
    have hle := hsim.sortedMatches_le hinv h.leader (List.mem_of_getElem? hmci)
    exact Outcome.Avoids.bind (hsim.uncompacted.maybeCommit_checks hle) fun _ _ =>
      Outcome.Avoids.pure

theorem maybeSendAppend_checks (h : Leading M w₀ i r) (toId : Nat) (sendIfEmpty : Bool) :
    ChecksHold (r.maybeSendAppend toId sendIfEmpty) := by
  rw [Raft.maybeSendAppend]
  split
  · exact ChecksHold.nullDeref _
  rename_i pr hpr
  split
  · exact Outcome.Avoids.pure
  rename_i hpaused
  refine Outcome.Avoids.bind (RaftLog.entries_checks h.tracks.uncompacted.wf _ _) fun res _ => ?_
  dsimp only
  split
  · exact Outcome.Avoids.pure
  split
  · refine Outcome.Avoids.bind (Progress.afterSending_checks (by simpa using hpaused) _)
      fun _ _ => ?_
    exact Outcome.Avoids.bind (Raft.send_checks _) fun _ _ => Outcome.Avoids.pure
  · rw [Raft.sendSnapshot]
    split
    · exact Outcome.Avoids.pure
    dsimp only
    split
    · exact ChecksHold.fatal (by simp [LogCheck.heads])
    · exact Outcome.Avoids.bind (Raft.send_checks _) fun _ _ => Outcome.Avoids.pure

theorem sendAppend_checks (h : Leading M w₀ i r) (toId : Nat) : ChecksHold (r.sendAppend toId) :=
  Outcome.Avoids.bind (h.maybeSendAppend_checks _ _) fun _ _ => Outcome.Avoids.pure

theorem drainAppends_checks {toId : Nat} (hto : toId ≠ i) :
    ∀ {fuel : Nat} {r : Raft}, Leading M w₀ i r → ChecksHold (Raft.drainAppends toId fuel r)
  | 0, _, _ => ChecksHold.diverges _
  | fuel + 1, r, h => by
      rw [Raft.drainAppends]
      refine Outcome.Avoids.bind (h.maybeSendAppend_checks _ _) fun res hres => ?_
      obtain ⟨r₁, sent⟩ := res
      dsimp only
      split
      · exact drainAppends_checks hto (h.maybeSendAppend hto hres)
      · exact Outcome.Avoids.pure

theorem bcastAppend_checks (h : Leading M w₀ i r) : ChecksHold r.bcastAppend := by
  refine Outcome.Avoids.foldlM (P := Leading M w₀ i) (fun s id _ hs => ?_)
    (fun s s' id _ hs hround => ?_) h
  · split
    · exact Outcome.Avoids.pure
    · exact hs.sendAppend_checks _
  · split at hround
    · exact Outcome.pure_eq_ok.mp hround ▸ hs
    · rename_i hid
      exact hs.sendAppend (by rwa [hs.tracks.id] at hid) hround

/-- A leader's own entries go behind the end of its log. -/
theorem appendEntry_checks (h : Leading M w₀ i r) {es : List Entry}
    (hes : ∀ e ∈ es, e.type ≠ EntryType.entryConfChange) : ChecksHold (r.appendEntry es) := by
  simp only [Raft.appendEntry, Raft.increaseUncommittedSize]
  split
  · exact Outcome.Avoids.pure
  rename_i r₁ hr₁
  split at hr₁
  · cases hr₁
  obtain rfl := Option.some.inj hr₁
  have h₁ : ∀ size, Leading M w₀ i { r with uncommittedSize := size } := fun _ => h.congr rfl
  refine Outcome.Avoids.bind (RaftLog.append_checks h.tracks.uncompacted.wf ?_) fun res hres => ?_
  · intro e he
    have hindex : e.index = r.raftLog.lastIndex + 1 := by
      rw [List.head?_eq_getElem?] at he
      simpa using stampEntries_numbered _ _ _ 0 e he
    obtain ⟨w, -, -, hinv, hsim⟩ := h.tracks
    have hle := hsim.committed_le hinv
    rw [hindex, hsim.uncompacted.lastIndex]
    omega
  · obtain ⟨l, last⟩ := res
    split
    · exact ChecksHold.nullDeref _
    · exact Outcome.Avoids.bind ((h₁ _).appendLog hes hres).maybeCommit_checks fun _ _ =>
        Outcome.Avoids.pure

theorem stepLeaderProp_checks (h : Leading M w₀ i r)
    (hm : ∀ e ∈ m.entries, e.type ≠ EntryType.entryConfChange) : ChecksHold (r.stepLeaderProp m) := by
  rw [Raft.stepLeaderProp]
  split
  · exact Outcome.Avoids.throw (not_logCheck_number _ _)
  split
  · exact Outcome.Avoids.pure
  split
  · exact Outcome.Avoids.pure
  have hkept : ∀ (k pending : Nat), Raft.admitConfChanges r.raftLog.lastIndex r.raftLog.applied k
      pending m.entries = (m.entries, pending) :=
    fun k pending => admitConfChanges_eq _ _ k pending _ hm
  simp only [hkept]
  have h₁ : Leading M w₀ i { r with pendingConfIndex := r.pendingConfIndex } := h.congr rfl
  refine Outcome.Avoids.bind (h₁.appendEntry_checks hm) fun res hres => ?_
  obtain ⟨r₁, ok⟩ := res
  dsimp only
  split
  · exact Outcome.Avoids.pure
  · exact Outcome.Avoids.bind (h₁.appendEntry hm hres).bcastAppend_checks fun _ _ =>
      Outcome.Avoids.pure

theorem stepRejected_checks (h : Leading M w₀ i r) {pr : Progress}
    (hpr : r.getProgress m.fromId = some pr) :
    ChecksHold (r.stepRejected m { pr with recentActive := true }) := by
  simp only [Raft.stepRejected]
  split
  · refine sendAppend_checks (h.set hpr fun w hl hack hsound => ?_) _
    split
    · exact (hsound.active.maybeDecreasesTo _ _ hack).becomeProbe hack
    · exact hsound.active.maybeDecreasesTo _ _ hack
  · exact Outcome.Avoids.pure

theorem sendAfterAck_checks (h : Leading M w₀ i r) (id : Nat) (committed oldPaused : Bool) :
    ChecksHold (r.sendAfterAck id committed oldPaused) := by
  rw [Raft.sendAfterAck]
  split
  · exact h.bcastAppend_checks
  split
  · exact h.sendAppend_checks _
  · exact Outcome.Avoids.pure

theorem stepAcknowledged_checks (h : Leading M w₀ i r) (hfrom : m.fromId ≠ i) {pr : Progress}
    (hpr : r.getProgress m.fromId = some pr) (hindex : m.index ≤ w₀.ack m.fromId r.term) :
    ChecksHold (r.stepAcknowledged m { pr with recentActive := true }) := by
  simp only [Raft.stepAcknowledged]
  split
  · refine Outcome.Avoids.bind (Progress.acknowledged_checks _) fun pr' hpr' => ?_
    have hset := h.set hpr fun w hl hack hsound =>
      (hsound.active.maybeUpdate (hindex.trans (hl.ack _ _)) hack).acknowledged hack hpr'
    refine Outcome.Avoids.bind hset.maybeCommit_checks fun res hcommit => ?_
    obtain ⟨r₁, committed⟩ := res
    have h₁ := hset.maybeCommit hcommit
    refine Outcome.Avoids.bind (h₁.sendAfterAck_checks _ _ _) fun r₂ hsend => ?_
    exact Outcome.Avoids.bind (drainAppends_checks hfrom (h₁.sendAfterAck hfrom hsend)) fun _ _ =>
      Raft.finishTransfer_checks _ _
  · exact Outcome.Avoids.pure

theorem stepHeartbeatResp_checks (h : Leading M w₀ i r) {pr : Progress}
    (hpr : r.getProgress m.fromId = some pr) : ChecksHold (r.stepHeartbeatResp m pr) := by
  refine Outcome.Avoids.bind Progress.heartbeatAnswered_checks fun pr' hpr' => ?_
  have hset := h.set hpr fun w _ _ hsound => hsound.heartbeatAnswered hpr'
  refine Outcome.Avoids.bind ?_ fun _ _ => Raft.releaseReads_checks _
  rw [Raft.sendIfBehind]
  split
  · exact hset.sendAppend_checks _
  · exact Outcome.Avoids.pure

theorem stepTransferLeader_checks (h : Leading M w₀ i r) (pr : Progress) :
    ChecksHold (r.stepTransferLeader m pr) := by
  simp only [Raft.stepTransferLeader]
  split
  · exact Outcome.Avoids.pure
  split
  · exact Outcome.Avoids.pure
  split
  · exact Outcome.Avoids.pure
  split
  · exact Raft.send_checks _
  · have hsend : ∀ r' : Raft, Leading M w₀ i r' → ChecksHold (r'.sendAppend m.fromId) :=
      fun _ h' => h'.sendAppend_checks _
    refine hsend _ ?_
    exact h.congr rfl

/-- The messages that concern a peer's progress. -/
theorem stepLeaderPeer_checks (h : Leading M w₀ i r) {pr : Progress}
    (hpr : r.getProgress m.fromId = some pr) (hm : Claims M w₀ i m)
    (hterm : m.term = 0 ∨ m.term = r.term ∨ m.type = MessageType.msgPreVoteResp) :
    ChecksHold (r.stepLeaderPeer m pr) := by
  rw [Raft.stepLeaderPeer]
  split
  · rename_i ht
    simp only [Claims, ht] at hm
    have hsame : m.term = r.term := (hterm.resolve_left hm.term).resolve_right (by simp [ht])
    rw [Raft.stepAppResp]
    split
    · exact h.stepRejected_checks hpr
    · rename_i hreject
      exact h.stepAcknowledged_checks hm.other hpr (hsame ▸ hm.index (by simpa using hreject))
  · exact h.stepHeartbeatResp_checks hpr
  · exact Outcome.Avoids.pure
  · exact Outcome.Avoids.pure
  · exact h.stepTransferLeader_checks pr
  · exact Outcome.Avoids.pure

theorem stepLeader_checks (h : Leading M w₀ i r) (hm : Claims M w₀ i m)
    (hterm : m.term = 0 ∨ m.term = r.term ∨ m.type = MessageType.msgPreVoteResp) :
    ChecksHold (r.stepLeader m) := by
  rw [Raft.stepLeader]
  split
  · exact Outcome.Avoids.bind (Raft.bcastHeartbeatWithCtx_checks _) fun _ _ => Outcome.Avoids.pure
  · split
    · exact Outcome.Avoids.pure
    · exact Outcome.Avoids.bind (Raft.becomeFollower_checks _ _) fun _ _ => Outcome.Avoids.pure
  · rename_i ht
    simp only [Claims, ht] at hm
    exact h.stepLeaderProp_checks hm
  · exact Outcome.Avoids.bind (Raft.stepLeaderReadIndex_checks _) fun _ _ => Outcome.Avoids.pure
  · split
    · exact Outcome.Avoids.pure
    · rename_i pr hpr
      exact Outcome.Avoids.bind (h.stepLeaderPeer_checks hpr hm hterm) fun _ _ =>
        Outcome.Avoids.pure

end Leading

/-! ## Elections -/

namespace Tracks

theorem requestVotes_checks (h : Tracks M w₀ i r) (voteMsg : MessageType) (term : Nat)
    (context : Bytes) : ChecksHold (r.requestVotes voteMsg term context) := by
  refine Outcome.Avoids.foldlM (P := fun s => s.raftLog = r.raftLog) (fun s id _ hs => ?_)
    (fun s s' id _ hs hround => ?_) rfl
  · split
    · exact Outcome.Avoids.pure
    · refine Outcome.Avoids.bind ?_ fun _ _ => Raft.send_checks _
      rw [hs, RaftLog.lastTerm, h.uncompacted.term]
      exact Outcome.Avoids.pure
  · split at hround
    · exact Outcome.pure_eq_ok.mp hround ▸ hs
    · obtain ⟨logTerm, -, hsend⟩ := Outcome.bind_eq_ok.mp hround
      rw [(Raft.send_eq_ok hsend).1]
      exact hs

theorem becomeLeader_checks (h : Tracks M w₀ i r) (hcandidate : r.state = RaftState.candidate)
    (hquorum : r.quorum = r.grantedVotes) : ChecksHold r.becomeLeader := by
  rw [Raft.becomeLeader]
  split
  · exact ChecksHold.fatal (by simp [LogCheck.heads])
  refine Outcome.Avoids.bind (Raft.reset_checks _) fun r₁ hreset => ?_
  obtain rfl := Raft.reset_eq_ok hreset
  dsimp only
  split
  · exact ChecksHold.assertion _
  rename_i hself
  have hself : r.id ∈ r.prs := by simpa [Raft.resetTo] using hself
  have helected : Leading M w₀ i r.elected :=
    ⟨h.step fun w hinv _ hsim => hsim.win hinv hcandidate hquorum hself, rfl⟩
  refine Outcome.Avoids.bind (helected.appendEntry_checks (by simp)) fun res _ => ?_
  split
  · exact ChecksHold.fatal (by simp [LogCheck.heads])
  · exact Outcome.Avoids.pure

theorem campaignElection_checks (h : Tracks M w₀ i r) (context : Bytes) :
    ChecksHold (r.campaignElection context) := by
  refine Outcome.Avoids.bind Raft.becomeCandidate_checks fun r₁ hcandidate => ?_
  obtain ⟨hpolled, hstate⟩ := h.candidacy hcandidate
  dsimp only
  split
  · rename_i hquorum
    exact hpolled.becomeLeader_checks hstate hquorum
  · exact hpolled.requestVotes_checks _ _ _

theorem campaign_checks (h : Tracks M w₀ i r) (t : CampaignType) : ChecksHold (r.campaign t) := by
  cases t with
  | preElection =>
      refine Outcome.Avoids.bind Raft.becomePreCandidate_checks fun r₁ hcandidate => ?_
      have hpolled := h.preCandidacy hcandidate
      dsimp only
      split
      · exact hpolled.campaignElection_checks _
      · exact hpolled.requestVotes_checks _ _ _
  | election => exact h.campaignElection_checks _
  | transfer => exact h.campaignElection_checks _

theorem stepHup_checks (h : Tracks M w₀ i r) : ChecksHold r.stepHup := by
  rw [Raft.stepHup]
  split
  · exact Outcome.Avoids.pure
  refine Outcome.Avoids.bind (RaftLog.slice_checks h.uncompacted.wf _ _ _) fun res _ => ?_
  split
  · exact ChecksHold.fatal (by simp [LogCheck.heads, toString_string])
  split
  · exact Outcome.Avoids.pure
  · exact h.campaign_checks _

theorem stepVoteResp_checks (h : Tracks M w₀ i r) (hm : Claims M w₀ i m)
    (hinv₀ : Inv M.setting w₀)
    (htype : m.type = MessageType.msgVoteResp ∧ m.term = r.term ∨
      m.type = MessageType.msgPreVoteResp ∧
        (r.state = RaftState.candidate → m.fromId ∉ r.votes → m.reject = true)) :
    ChecksHold (r.stepVoteResp m) := by
  have hpolled := h.pollAnswer hm hinv₀ htype
  simp only [Raft.stepVoteResp]
  split
  · rename_i hquorum
    split
    · exact hpolled.campaign_checks _
    split
    · exact ChecksHold.assertion _
    · rename_i hstate
      have hcandidate : (r.poll m.fromId (!m.reject)).1.state = RaftState.candidate := by
        simpa using hstate
      refine Outcome.Avoids.bind (hpolled.becomeLeader_checks hcandidate hquorum) fun r₁ hleader => ?_
      exact (hpolled.becomeLeader hcandidate hquorum hleader).bcastAppend_checks
  split
  · exact Raft.becomeFollower_checks _ _
  · exact Outcome.Avoids.pure

theorem stepVote_checks (h : Tracks M w₀ i r) : ChecksHold (r.stepVote m) := by
  rw [Raft.stepVote]
  split
  · exact Outcome.Avoids.pure
  refine Outcome.Avoids.bind ?_ fun granted _ => ?_
  · rw [Raft.grantsVote]
    split
    · refine Outcome.Avoids.bind ?_ fun _ _ => Outcome.Avoids.pure
      rw [RaftLog.lastTerm, h.uncompacted.term]
      exact Outcome.Avoids.pure
    · exact Outcome.Avoids.pure
  refine Outcome.Avoids.bind (voteRespMsgType_checks _) fun respType _ => ?_
  split
  · refine Outcome.Avoids.bind (Raft.send_checks _) fun _ _ => ?_
    split
    · exact Outcome.Avoids.pure
    · exact Outcome.Avoids.pure
  · exact Raft.send_checks _

/-! ## Followers -/

/-- **An append request** is a batch of the log of its term's leader. -/
theorem handleAppendEntries_checks (h : Tracks M w₀ i r) (hm : AppClaim M w₀ i m) :
    ChecksHold (r.handleAppendEntries m) := by
  rw [Raft.handleAppendEntries]
  split
  · exact Raft.send_checks _
  rename_i hindex
  obtain ⟨w, -, hl, hinv, hsim⟩ := h
  have hclaim := hm.mono hl
  have hmatching : Matching r.raftLog.logical (w.llog m.term) :=
    matching_of_good (hsim.good hinv) (hinv.llog_good _)
  refine Outcome.Avoids.bind ?_ fun res _ => ?_
  · rw [hclaim.logTerm]
    exact hsim.uncompacted.maybeAppend_checks hmatching (hsim.numbered _)
      (fun e he => term_pos_of_good hinv (hinv.llog_good _) he) hclaim.index hclaim.entries
      (Nat.not_lt.mp hindex)
  · dsimp only
    split
    · exact Raft.send_checks _
    · exact Raft.send_checks _

/-- **A heartbeat commits only what its receiver has acknowledged**, and so still holds. -/
theorem handleHeartbeat_checks (h : Tracks M w₀ i r) (hinv₀ : Inv M.setting w₀)
    (hm : HeartbeatClaim M w₀ i m) (hterm : m.term = r.term) : ChecksHold (r.handleHeartbeat m) := by
  refine Outcome.Avoids.bind ?_ fun _ _ => Raft.send_checks _
  obtain ⟨w, -, hl, hinv, hsim⟩ := h
  have hclaim := hm.mono hinv₀ hl
  refine RaftLog.commitTo_checks ?_
  rw [hsim.uncompacted.lastIndex]
  have hack := hclaim.commit_le
  rw [hterm] at hack
  -- nothing the node has acknowledged in its own term was dropped since
  rcases hinv.held hack with hheld | ⟨s, hlt, hle, -⟩
  · have hlen := hheld.length_le
    have hlog := hack.trans (hinv.ack_le i r.term)
    rw [List.length_take, hsim.log] at hlen
    omega
  · rw [hsim.term] at hle
    omega

theorem stepFollower_checks (h : Tracks M w₀ i r) (hinv₀ : Inv M.setting w₀) (hm : Claims M w₀ i m)
    (hterm : m.term = 0 ∨ m.term = r.term ∨ m.type = MessageType.msgPreVoteResp) :
    ChecksHold (r.stepFollower m) := by
  have heard : Tracks M w₀ i { r with electionElapsed := 0, lead := m.fromId } := h.congr rfl
  rw [Raft.stepFollower]
  split
  · split
    · exact Outcome.Avoids.pure
    split
    · exact Outcome.Avoids.pure
    · exact Raft.forwardToLead_checks _
  · rename_i ht
    simp only [Claims, ht] at hm
    exact Outcome.Avoids.bind (heard.handleAppendEntries_checks hm) fun _ _ => Outcome.Avoids.pure
  · rename_i ht
    simp only [Claims, ht] at hm
    refine Outcome.Avoids.bind (heard.handleHeartbeat_checks hinv₀ hm ?_) fun _ _ =>
      Outcome.Avoids.pure
    exact (hterm.resolve_left (Nat.ne_of_gt (hm.term_pos hinv₀))).resolve_right (by simp [ht])
  · rename_i ht
    simp only [Claims, ht] at hm
  · split
    · exact Outcome.Avoids.pure
    · exact Raft.forwardToLead_checks _
  · split
    · exact Outcome.Avoids.bind (h.campaign_checks _) fun _ _ => Outcome.Avoids.pure
    · exact Outcome.Avoids.pure
  · split
    · exact Outcome.Avoids.pure
    · exact Raft.forwardToLead_checks _
  · split
    · exact Outcome.Avoids.pure
    · exact Outcome.Avoids.pure
  · exact Outcome.Avoids.pure

theorem stepCandidate_checks (h : Tracks M w₀ i r) (hinv₀ : Inv M.setting w₀)
    (hm : Claims M w₀ i m)
    (hterm : m.term = 0 ∨ m.term = r.term ∨
      m.type = MessageType.msgPreVoteResp ∧ r.term < m.term)
    (hclean : CleanFor r m) : ChecksHold (r.stepCandidate m) := by
  rw [Raft.stepCandidate]
  split
  · exact Outcome.Avoids.pure
  · rename_i ht
    simp only [Claims, ht] at hm
    have hsame : m.term = r.term :=
      (hterm.resolve_left (Nat.ne_of_gt (hm.term_pos hinv₀))).resolve_right (by simp [ht])
    refine Outcome.Avoids.bind (Raft.becomeFollower_checks _ _) fun r₁ h₁ => ?_
    obtain ⟨hfollows, -, -⟩ := h.becomeFollower hsame.ge h₁
    exact Outcome.Avoids.bind (hfollows.handleAppendEntries_checks hm) fun _ _ =>
      Outcome.Avoids.pure
  · rename_i ht
    simp only [Claims, ht] at hm
    have hsame : m.term = r.term :=
      (hterm.resolve_left (Nat.ne_of_gt (hm.term_pos hinv₀))).resolve_right (by simp [ht])
    refine Outcome.Avoids.bind (Raft.becomeFollower_checks _ _) fun r₁ h₁ => ?_
    obtain ⟨hfollows, -, hterm₁⟩ := h.becomeFollower hsame.ge h₁
    exact Outcome.Avoids.bind (hfollows.handleHeartbeat_checks hinv₀ hm hterm₁.symm) fun _ _ =>
      Outcome.Avoids.pure
  · rename_i ht
    simp only [Claims, ht] at hm
  · rename_i ht
    refine Outcome.Avoids.bind (h.stepVoteResp_checks hm hinv₀
      (Or.inr ⟨ht, fun hs hnew => hclean hs ht ?_ hnew⟩)) fun _ _ => Outcome.Avoids.pure
    simp only [Claims, ht] at hm
    rcases hterm with h₀ | heq | ⟨-, hlt⟩
    · exact absurd h₀ hm.2
    · exact heq.ge
    · exact hlt.le
  · rename_i ht
    refine Outcome.Avoids.bind (h.stepVoteResp_checks hm hinv₀ (Or.inl ⟨ht, ?_⟩)) fun _ _ =>
      Outcome.Avoids.pure
    simp only [Claims, ht] at hm
    exact (hterm.resolve_left hm.term).resolve_right (by simp [ht])
  · exact Outcome.Avoids.pure

theorem stepRole_checks (h : Tracks M w₀ i r) (hinv₀ : Inv M.setting w₀) (hm : Claims M w₀ i m)
    (hterm : m.term = 0 ∨ m.term = r.term ∨
      m.type = MessageType.msgPreVoteResp ∧ r.term < m.term)
    (hclean : CleanFor r m) : ChecksHold (r.stepRole m) := by
  have hterm' := hterm.imp_right (Or.imp_right And.left)
  rw [Raft.stepRole]
  split
  · exact h.stepFollower_checks hinv₀ hm hterm'
  · exact h.stepCandidate_checks hinv₀ hm hterm hclean
  · exact h.stepCandidate_checks hinv₀ hm hterm hclean
  · rename_i hs
    exact Leading.stepLeader_checks ⟨h, hs⟩ hm hterm'

/-! ## Messages and ticks -/

/-- **No message that tells the truth fails a check**, unless it is a granted pre-vote for a
candidate. -/
theorem stepMessage_checks (h : Tracks M w₀ i r) (hinv₀ : Inv M.setting w₀)
    (hm : Claims M w₀ i m) (hclean : CleanFor r m) : ChecksHold (r.step m) := by
  refine Outcome.Avoids.bind (Raft.checkTerm_checks _) fun res hcheck => ?_
  obtain ⟨r₁, continues⟩ := res
  obtain ⟨h₁, hcont⟩ := h.checkTerm hm hclean hcheck
  cases continues with
  | false => exact Outcome.Avoids.pure
  | true =>
      obtain ⟨hclean₁, hterm⟩ := hcont rfl
      simp only [not_true_eq_false, if_false]
      split
      · exact Outcome.Avoids.bind h₁.stepHup_checks fun _ _ => Outcome.Avoids.pure
      · exact Outcome.Avoids.bind h₁.stepVote_checks fun _ _ => Outcome.Avoids.pure
      · exact Outcome.Avoids.bind h₁.stepVote_checks fun _ _ => Outcome.Avoids.pure
      · rename_i hhup hvote hpre
        refine h₁.stepRole_checks hinv₀ hm (hterm.imp_right (Or.imp_right fun ⟨htype, hlt⟩ => ?_))
          hclean₁
        exact ⟨htype.resolve_left hpre, hlt⟩

/-- A message of the node to itself. -/
theorem stepLocal_checks (h : Tracks M w₀ i r) (hinv₀ : Inv M.setting w₀)
    (hm : ∀ w, Claims M w i m) (htype : m.type ≠ MessageType.msgPreVoteResp) :
    ChecksHold (r.step m) :=
  h.stepMessage_checks hinv₀ (hm w₀) fun _ ht => absurd ht htype

theorem checkQuorumTick_checks (h : Tracks M w₀ i r) (hinv₀ : Inv M.setting w₀) :
    ChecksHold r.checkQuorumTick := by
  rw [Raft.checkQuorumTick]
  split
  · exact Outcome.Avoids.bind (h.stepLocal_checks hinv₀ (fun w => by simp only [Claims]) (by simp))
      fun _ _ => Outcome.Avoids.pure
  · exact Outcome.Avoids.pure

theorem heartbeatTick_checks (h : Tracks M w₀ i r) (hinv₀ : Inv M.setting w₀) :
    ChecksHold r.heartbeatTick := by
  rw [Raft.heartbeatTick]
  split
  · exact Outcome.Avoids.pure
  split
  · have h₁ : Tracks M w₀ i { r with heartbeatElapsed := 0 } := h.congr rfl
    exact Outcome.Avoids.bind (h₁.stepLocal_checks hinv₀ (fun w => by simp only [Claims]) (by simp))
      fun _ _ => Outcome.Avoids.pure
  · exact Outcome.Avoids.pure

/-- **No tick fails a check.** -/
theorem tick_checks (h : Tracks M w₀ i r) (hinv₀ : Inv M.setting w₀) : ChecksHold r.tick := by
  rw [Raft.tick]
  split
  · simp only [Raft.tickHeartbeat]
    split
    · have h₁ : Tracks M w₀ i { r with
          heartbeatElapsed := r.heartbeatElapsed + 1, electionElapsed := 0 } := h.congr rfl
      refine Outcome.Avoids.bind ?_ fun r₁ hpassed => ?_
      · exact Outcome.Avoids.bind (h₁.checkQuorumTick_checks hinv₀) fun _ _ => Outcome.Avoids.pure
      · obtain ⟨r₂, hcheck, hr₁⟩ := Outcome.bind_eq_ok.mp hpassed
        obtain rfl := Outcome.pure_eq_ok.mp hr₁
        have h₂ := h₁.checkQuorumTick hinv₀ hcheck
        have h₃ : Tracks M w₀ i
            (if r₂.state = RaftState.leader ∧ r₂.leadTransferee ≠ 0 then r₂.abortLeaderTransfer
              else r₂) := by
          split
          · exact h₂.congr rfl
          · exact h₂
        exact h₃.heartbeatTick_checks hinv₀
    · have h₁ : Tracks M w₀ i { r with
          heartbeatElapsed := r.heartbeatElapsed + 1, electionElapsed := r.electionElapsed + 1 } :=
        h.congr rfl
      exact h₁.heartbeatTick_checks hinv₀
  · simp only [Raft.tickElection]
    split
    · have h₁ : Tracks M w₀ i { r with electionElapsed := 0 } := h.congr rfl
      exact Outcome.Avoids.bind (h₁.stepLocal_checks hinv₀ (fun w => by simp only [Claims])
        (by simp)) fun _ _ => Outcome.Avoids.pure
    · exact Outcome.Avoids.pure

end Tracks

end RaftKv
