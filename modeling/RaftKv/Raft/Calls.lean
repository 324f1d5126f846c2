import RaftKv.Raft.Deeds

/-!
# A call is a chain of deeds

The functions of the protocol one after the other, up to the three ways of calling a node.

* `Deeds.step` — **a step is a chain of deeds**, and so are `Deeds.tick` and `Deeds.changeMembers`.
* `Deeds.of_local` — what a node does with a message of its own, it may do with any other.
-/

namespace RaftKv

namespace Raft

namespace Deeds

variable {r r' r₁ r₂ : Raft} {m m' : Message} {id toId : Nat}

/-! ## The log of a leader -/

theorem maybeCommit {changed : Bool} (h : r.maybeCommit = Except.ok (r', changed)) :
    Deeds m r r' := by
  rcases maybeCommit_cases h with rfl | ⟨i, l, hcommit, rfl⟩
  · exact Relation.ReflTransGen.refl
  · exact Relation.ReflTransGen.single (Deed.commit r hcommit)

/-- What `append_entry` does with the entries of an admitted proposal. -/
theorem appendEntry {es : List Entry} {taken : Bool} (hlead : r.state = RaftState.leader)
    (hes : es = [{}] ∨ m.type = MessageType.msgProp ∧ es = m.entries)
    (h : { r with pendingConfIndex := (r.admitted es).2 }.appendEntry (r.admitted es).1 =
      Except.ok (r', taken)) : Deeds m r r' := by
  rw [Raft.appendEntry] at h
  dsimp only at h
  split at h
  · cases h
    exact Relation.ReflTransGen.single (Deed.refuse r hlead es)
  rename_i r₁ hsize
  obtain ⟨⟨l, last⟩, hlog, h⟩ := Outcome.bind_eq_ok.mp h
  dsimp only at h
  split at h
  · cases h
  obtain ⟨⟨r₂, changed⟩, hcommit, h⟩ := Outcome.bind_eq_ok.mp h
  cases h
  have hr₁ : r₁.raftLog = r.raftLog ∧ r₁.state = r.state := by
    rw [increaseUncommittedSize] at hsize
    split at hsize
    · cases hsize
    · cases hsize
      exact ⟨rfl, rfl⟩
  rw [hr₁.1] at hlog
  obtain rfl := append_last hlog
  exact Relation.ReflTransGen.head (Deed.propose r hlead hes hsize hlog)
    (Relation.ReflTransGen.head (Deed.own { r₁ with raftLog := l } (hr₁.2.trans hlead))
      (maybeCommit hcommit))

/-! ## Roles -/

theorem becomeFollower {term lead : Nat} (hterm : r.term ≤ term)
    (h : r.becomeFollower term lead = Except.ok r') : Deeds m r r' := by
  rw [becomeFollower_eq_ok h]
  exact Relation.ReflTransGen.single (Deed.follow r hterm lead)

theorem becomeLeader (hs : r.state = RaftState.candidate) (hwon : r.quorum = r.grantedVotes)
    (h : r.becomeLeader = Except.ok r') : Deeds m r r' := by
  obtain ⟨-, r₁, happend, rfl⟩ := becomeLeader_eq_ok h
  have hreduced : (r₁.reduceUncommittedSize [{}]).dossier = r₁.dossier := rfl
  exact Relation.ReflTransGen.head (Deed.lead r hs hwon)
    ((appendEntry rfl (Or.inl rfl) happend).trans (quiet hreduced))

/-- Requests are queued by a candidate for its term, or by a pre-candidate for the next one. -/
theorem requestVotes {voteMsg : MessageType} {term : Nat} {context : Bytes}
    (hvote : voteMsg = MessageType.msgVote ∧ r.state = RaftState.candidate ∧ term = r.term ∨
      voteMsg = MessageType.msgPreVote ∧ r.state = RaftState.preCandidate ∧ term = r.term + 1)
    (h : r.requestVotes voteMsg term context = Except.ok r') : Deeds m r r' := by
  have hloop : r'.prs = r.prs ∧ r'.state = r.state ∧ r'.term = r.term ∧ Deeds m r r' := by
    refine Outcome.foldlM_induct (P := fun s => s.prs = r.prs ∧ s.state = r.state ∧
      s.term = r.term ∧ Deeds m r s) (fun s s' toId hto hs hround => ?_)
      ⟨rfl, rfl, rfl, Relation.ReflTransGen.refl⟩ h
    obtain ⟨hprs, hstate, hterm, hdeeds⟩ := hs
    split at hround
    · cases hround
      exact ⟨hprs, hstate, hterm, hdeeds⟩
    obtain ⟨logTerm, hlog, hsend⟩ := Outcome.bind_eq_ok.mp hround
    have hmem : toId ∈ s.prs := by
      rw [hprs]
      exact AList.mem_keys.mpr hto
    have hposted : Posted m s
        (voteRequest voteMsg term s.raftLog.lastIndex logTerm context toId) := by
      rcases hvote with ⟨rfl, hs, rfl⟩ | ⟨rfl, hs, rfl⟩
      · rw [← hterm]
        exact Posted.voteRequest (hstate.trans hs) hmem hlog context
      · rw [← hterm]
        exact Posted.preVoteRequest (hstate.trans hs) hmem hlog context
    have hsent := hdeeds.trans (post hposted hsend)
    rw [(send_eq_ok hsend).1] at hsent ⊢
    exact ⟨hprs, hstate, hterm, hsent⟩
  exact hloop.2.2.2

theorem campaignElection {context : Bytes}
    (hwhy : r.preVote = false ∨ m.type = MessageType.msgTimeoutNow ∨
      r.state = RaftState.preCandidate ∧ r.quorum = r.grantedVotes)
    (h : r.campaignElection context = Except.ok r') : Deeds m r r' := by
  obtain ⟨r₁, hstand, h⟩ := Outcome.bind_eq_ok.mp h
  rw [Raft.becomeCandidate] at hstand
  split at hstand
  · cases hstand
  rename_i hs
  obtain ⟨r₂, hreset, hstand⟩ := Outcome.bind_eq_ok.mp hstand
  obtain rfl := reset_eq_ok hreset
  cases hstand
  refine Relation.ReflTransGen.head (Deed.stand r hs hwhy)
    (Relation.ReflTransGen.head (Deed.support _ (Or.inl rfl)) ?_)
  dsimp only at h
  split at h
  · rename_i hwon
    exact becomeLeader rfl hwon h
  · exact requestVotes (Or.inl ⟨rfl, rfl, rfl⟩) h

theorem campaignPreElection (h : r.campaignPreElection = Except.ok r') : Deeds m r r' := by
  obtain ⟨r₁, hprepare, h⟩ := Outcome.bind_eq_ok.mp h
  rw [Raft.becomePreCandidate] at hprepare
  split at hprepare
  · cases hprepare
  rename_i hs
  cases hprepare
  refine Relation.ReflTransGen.head (Deed.prepare r hs)
    (Relation.ReflTransGen.head (Deed.support _ (Or.inr rfl)) ?_)
  dsimp only at h
  split at h
  · rename_i hwon
    exact campaignElection (Or.inr (Or.inr ⟨rfl, hwon⟩)) h
  · exact requestVotes (Or.inr ⟨rfl, rfl, rfl⟩) h

/-! ## Followers -/

theorem handleAppendEntries (hm : m.type = MessageType.msgApp) (hs : r.state = RaftState.follower)
    (hterm : m.term = r.term) (h : r.handleAppendEntries m = Except.ok r') : Deeds m r r' := by
  rw [Raft.handleAppendEntries] at h
  split at h
  · rename_i hbehind
    exact post (Posted.behind hm hterm hbehind) h
  rename_i hindex
  obtain ⟨⟨l, res⟩, hlog, h⟩ := Outcome.bind_eq_ok.mp h
  have happend := Deed.append r hm hs hterm (Nat.not_lt.mp hindex) hlog
  cases res with
  | none => exact Relation.ReflTransGen.head happend (post (Posted.refused hm) h)
  | some lastIndex =>
      obtain rfl := maybeAppend_last hlog
      exact Relation.ReflTransGen.head happend (post (Posted.accepted hm hterm) h)

theorem handleHeartbeat (hm : m.type = MessageType.msgHeartbeat)
    (h : r.handleHeartbeat m = Except.ok r') : Deeds m r r' := by
  obtain ⟨l, hcommit, h⟩ := Outcome.bind_eq_ok.mp h
  exact Relation.ReflTransGen.head (Deed.commit r hcommit) (post (Posted.heartbeatResp hm) h)

theorem handleSnapshot (hm : m.type = MessageType.msgSnap) (hs : r.state = RaftState.follower)
    (h : r.handleSnapshot m = Except.ok r') : Deeds m r r' := by
  obtain ⟨⟨r₁, restored⟩, hrestore, h⟩ := Outcome.bind_eq_ok.mp h
  refine Relation.ReflTransGen.trans ?_ (post (Posted.blank (Or.inl hm)) h)
  rcases restore_cases hrestore with
    ⟨-, rfl, -⟩ | ⟨-, hlt, -, hlast, rfl⟩ | ⟨-, hlt, hmatch, -, hr₁⟩
  · exact Relation.ReflTransGen.refl
  · have hcommit : r.raftLog.commitTo m.snapshot.metadata.index =
        Except.ok { r.raftLog with committed := m.snapshot.metadata.index } := by
      rw [RaftLog.commitTo, if_pos hlt, if_neg (Nat.not_lt.mpr hlast)]
      rfl
    exact Relation.ReflTransGen.single (Deed.commit r hcommit)
  · exact Relation.ReflTransGen.single (Deed.restore hm hs hlt hmatch hr₁)

/-- A follower hears of a leader. -/
theorem heard (r : Raft) (lead : Nat) : Deeds m r { r with electionElapsed := 0, lead := lead } :=
  quiet rfl

theorem forwardToLead {status : Status}
    (ht : m.type = MessageType.msgProp ∨ m.type = MessageType.msgTransferLeader ∨
      m.type = MessageType.msgReadIndex)
    (h : r.forwardToLead m = Except.ok (r', status)) : Deeds m r r' := by
  obtain ⟨r₁, hsend, h⟩ := Outcome.bind_eq_ok.mp h
  cases h
  exact post (Posted.forward ht) hsend

theorem stepFollower {status : Status} (hs : r.state = RaftState.follower)
    (happ : m.type = MessageType.msgApp → m.term = r.term)
    (h : r.stepFollower m = Except.ok (r', status)) : Deeds m r r' := by
  rw [Raft.stepFollower] at h
  split at h
  · rename_i hm
    split at h
    · cases h
      exact Relation.ReflTransGen.refl
    split at h
    · cases h
      exact Relation.ReflTransGen.refl
    · exact forwardToLead (Or.inl hm) h
  · rename_i hm
    obtain ⟨r₁, h₁, h⟩ := Outcome.bind_eq_ok.mp h
    cases h
    exact (heard r m.fromId).trans (handleAppendEntries hm hs (happ hm) h₁)
  · rename_i hm
    obtain ⟨r₁, h₁, h⟩ := Outcome.bind_eq_ok.mp h
    cases h
    exact (heard r m.fromId).trans (handleHeartbeat hm h₁)
  · rename_i hm
    obtain ⟨r₁, h₁, h⟩ := Outcome.bind_eq_ok.mp h
    cases h
    exact (heard r m.fromId).trans (handleSnapshot hm hs h₁)
  · rename_i hm
    split at h
    · cases h
      exact Relation.ReflTransGen.refl
    · exact forwardToLead (Or.inr (Or.inl hm)) h
  · rename_i hm
    split at h
    · obtain ⟨r₁, h₁, h⟩ := Outcome.bind_eq_ok.mp h
      cases h
      exact campaignElection (Or.inr (Or.inl hm)) h₁
    · cases h
      exact Relation.ReflTransGen.refl
  · rename_i hm
    split at h
    · cases h
      exact Relation.ReflTransGen.refl
    · exact forwardToLead (Or.inr (Or.inr hm)) h
  · split at h
    · cases h
      exact quiet rfl
    · cases h
      exact Relation.ReflTransGen.refl
  · cases h
    exact Relation.ReflTransGen.refl

/-! ## Candidates -/

theorem stepVoteResp (hs : r.state = RaftState.candidate ∨ r.state = RaftState.preCandidate)
    (htimely : r.Timely m) (hm : m.type = MessageType.msgVoteResp ∨ m.type = MessageType.msgPreVoteResp)
    (h : r.stepVoteResp m = Except.ok r') : Deeds m r r' := by
  rw [Raft.stepVoteResp] at h
  refine Relation.ReflTransGen.head (Deed.count r hs htimely hm) ?_
  dsimp only at h
  split at h
  · rename_i hwon
    split at h
    · rename_i hpre
      exact campaignElection (Or.inr (Or.inr ⟨hpre, hwon⟩)) h
    split at h
    · cases h
    rename_i hcand
    obtain ⟨r₁, hlead, h⟩ := Outcome.bind_eq_ok.mp h
    exact (becomeLeader (Decidable.not_not.mp hcand) hwon hlead).trans (Asides.bcastAppend h).deeds
  split at h
  · exact becomeFollower (Nat.le_refl _) h
  · cases h
    exact Relation.ReflTransGen.refl

theorem stepCandidate {status : Status}
    (hs : r.state = RaftState.candidate ∨ r.state = RaftState.preCandidate) (htimely : r.Timely m)
    (hterm : m.type = MessageType.msgApp ∨ m.type = MessageType.msgHeartbeat ∨
      m.type = MessageType.msgSnap → m.term = r.term)
    (h : r.stepCandidate m = Except.ok (r', status)) : Deeds m r r' := by
  rw [Raft.stepCandidate] at h
  split at h
  · cases h
    exact Relation.ReflTransGen.refl
  · rename_i hm
    obtain ⟨r₁, hfollow, h⟩ := Outcome.bind_eq_ok.mp h
    obtain ⟨r₂, h₂, h⟩ := Outcome.bind_eq_ok.mp h
    cases h
    refine (becomeFollower (hterm (Or.inl hm)).ge hfollow).trans (handleAppendEntries hm ?_ ?_ h₂)
    · rw [becomeFollower_eq_ok hfollow]
    · rw [becomeFollower_eq_ok hfollow]
      rfl
  · rename_i hm
    obtain ⟨r₁, hfollow, h⟩ := Outcome.bind_eq_ok.mp h
    obtain ⟨r₂, h₂, h⟩ := Outcome.bind_eq_ok.mp h
    cases h
    exact (becomeFollower (hterm (Or.inr (Or.inl hm))).ge hfollow).trans (handleHeartbeat hm h₂)
  · rename_i hm
    obtain ⟨r₁, hfollow, h⟩ := Outcome.bind_eq_ok.mp h
    obtain ⟨r₂, h₂, h⟩ := Outcome.bind_eq_ok.mp h
    cases h
    refine (becomeFollower (hterm (Or.inr (Or.inr hm))).ge hfollow).trans (handleSnapshot hm ?_ h₂)
    rw [becomeFollower_eq_ok hfollow]
  · rename_i hm
    obtain ⟨r₁, h₁, h⟩ := Outcome.bind_eq_ok.mp h
    cases h
    exact stepVoteResp hs htimely (Or.inr hm) h₁
  · rename_i hm
    obtain ⟨r₁, h₁, h⟩ := Outcome.bind_eq_ok.mp h
    cases h
    exact stepVoteResp hs htimely (Or.inl hm) h₁
  · cases h
    exact Relation.ReflTransGen.refl

/-! ## Leaders -/

theorem stepLeaderProp {status : Status} (hm : m.type = MessageType.msgProp)
    (hs : r.state = RaftState.leader) (h : r.stepLeaderProp m = Except.ok (r', status)) :
    Deeds m r r' := by
  rw [Raft.stepLeaderProp] at h
  split at h
  · cases h
  split at h
  · cases h
    exact Relation.ReflTransGen.refl
  split at h
  · cases h
    exact Relation.ReflTransGen.refl
  obtain ⟨⟨r₁, ok⟩, happend, h⟩ := Outcome.bind_eq_ok.mp h
  have happended : Deeds m r r₁ := appendEntry hs (Or.inr ⟨hm, rfl⟩) happend
  dsimp only at h
  split at h
  · cases h
    exact happended
  · obtain ⟨r₂, hbcast, h⟩ := Outcome.bind_eq_ok.mp h
    cases h
    exact happended.trans (Asides.bcastAppend hbcast).deeds

theorem stepLeaderReadIndex (h : r.stepLeaderReadIndex m' = Except.ok r') : Deeds m r r' := by
  rw [Raft.stepLeaderReadIndex] at h
  split at h
  · split at h
    · cases h
      exact Relation.ReflTransGen.refl
    split at h
    · obtain ⟨readOnly, -, h⟩ := Outcome.bind_eq_ok.mp h
      obtain ⟨ctx, -, h⟩ := Outcome.bind_eq_ok.mp h
      exact after (Asides.bcastHeartbeatWithCtx h).deeds rfl
    · exact (Asides.respondRead h).deeds
  · obtain ⟨ctx, -, h⟩ := Outcome.bind_eq_ok.mp h
    cases h
    exact quiet rfl

section Answers

variable {pr pr' : Progress}

theorem answered (hs : r.state = RaftState.leader) (htimely : r.Timely m)
    (hpr : r.getProgress m.fromId = some pr)
    (h : pr.Answered m pr') : Deeds m r (r.modifyProgress m.fromId fun _ => pr') :=
  Relation.ReflTransGen.single (Deed.answered r hs htimely hpr h)

theorem stepRejected (hs : r.state = RaftState.leader) (htimely : r.Timely m)
    (hpr : r.getProgress m.fromId = some pr)
    (ht : m.type = MessageType.msgAppResp) (hr : m.reject = true)
    (h : r.stepRejected m { pr with recentActive := true } = Except.ok r') : Deeds m r r' := by
  rw [Raft.stepRejected] at h
  dsimp only at h
  split at h
  · refine Relation.ReflTransGen.trans (answered hs htimely hpr ?_) (Asides.sendAppend h).deeds
    split
    · rename_i hstate
      refine Progress.Answered.fellBack ht hr ?_
      rw [Progress.maybeDecreasesTo] at hstate
      split at hstate
      · assumption
      · split at hstate <;> exact hstate
    · exact Progress.Answered.rejected ht hr
  · cases h
    exact answered hs htimely hpr (Progress.Answered.rejected ht hr)

theorem stepAcknowledged (hs : r.state = RaftState.leader) (htimely : r.Timely m)
    (hpr : r.getProgress m.fromId = some pr) (ht : m.type = MessageType.msgAppResp)
    (hr : m.reject = false)
    (h : r.stepAcknowledged m { pr with recentActive := true } = Except.ok r') : Deeds m r r' := by
  rw [Raft.stepAcknowledged] at h
  dsimp only at h
  split at h
  · rename_i hnews
    obtain ⟨pr', hpr', h⟩ := Outcome.bind_eq_ok.mp h
    obtain ⟨⟨r₁, committed⟩, hcommit, h⟩ := Outcome.bind_eq_ok.mp h
    obtain ⟨r₂, hafter, h⟩ := Outcome.bind_eq_ok.mp h
    obtain ⟨r₃, hdrain, h⟩ := Outcome.bind_eq_ok.mp h
    exact (answered hs htimely hpr (Progress.Answered.acknowledged ht hr hnews hpr')).trans <|
      (maybeCommit hcommit).trans <| (Asides.sendAfterAck hafter).deeds.trans <|
      (Asides.drainAppends hdrain).deeds.trans (Asides.finishTransfer ht h).deeds
  · cases h
    exact answered hs htimely hpr (Progress.Answered.known ht hr)

theorem releaseReads (h : r.releaseReads m' = Except.ok r') : Deeds m r r' := by
  rw [Raft.releaseReads] at h
  split at h
  · cases h
    exact Relation.ReflTransGen.refl
  dsimp only at h
  split at h
  · cases h
    exact quiet rfl
  · obtain ⟨⟨readOnly, rss⟩, -, h⟩ := Outcome.bind_eq_ok.mp h
    exact after (Asides.foldlM Asides.respondRead h).deeds rfl

theorem stepTransferLeader (ht : m.type = MessageType.msgTransferLeader)
    (h : r.stepTransferLeader m pr = Except.ok r') : Deeds m r r' := by
  unfold Raft.stepTransferLeader at h
  dsimp only at h
  split at h
  · cases h
    exact Relation.ReflTransGen.refl
  split at h
  · cases h
    exact Relation.ReflTransGen.refl
  refine Relation.ReflTransGen.head (Deed.abort r) ?_
  split at h
  · cases h
    exact Relation.ReflTransGen.refl
  refine Relation.ReflTransGen.head (Deed.transfer _ ht) ?_
  split at h
  · exact after (post (Posted.timeoutNow (Or.inl ht) rfl) h) rfl
  · exact after (Asides.sendAppend h).deeds rfl

theorem stepLeaderPeer (hs : r.state = RaftState.leader) (htimely : r.Timely m)
    (hpr : r.getProgress m.fromId = some pr)
    (h : r.stepLeaderPeer m pr = Except.ok r') : Deeds m r r' := by
  rw [Raft.stepLeaderPeer] at h
  split at h
  · rename_i ht
    rw [Raft.stepAppResp] at h
    split at h
    · rename_i hr
      exact stepRejected hs htimely hpr ht hr h
    · rename_i hr
      exact stepAcknowledged hs htimely hpr ht (by simpa using hr) h
  · rename_i ht
    obtain ⟨pr', hpr', h⟩ := Outcome.bind_eq_ok.mp h
    obtain ⟨r₁, hbehind, h⟩ := Outcome.bind_eq_ok.mp h
    exact (answered hs htimely hpr (Progress.Answered.alive ht hpr')).trans
      ((Asides.sendIfBehind hbehind).deeds.trans (releaseReads h))
  · rename_i ht
    cases h
    unfold stepSnapStatus
    split
    · exact Relation.ReflTransGen.refl
    · rename_i hstate
      have hsnapshot := Decidable.not_not.mp hstate
      dsimp only
      split
      · exact answered hs htimely hpr (Progress.Answered.snapshotLost ht hsnapshot)
      · exact answered hs htimely hpr (Progress.Answered.snapshotSent ht hsnapshot)
  · rename_i ht
    cases h
    unfold stepUnreachable
    split
    · rename_i hstate
      exact answered hs htimely hpr (Progress.Answered.unreachable ht hstate)
    · exact Relation.ReflTransGen.refl
  · rename_i ht
    exact stepTransferLeader ht h
  · cases h
    exact Relation.ReflTransGen.refl

end Answers

theorem stepLeader {status : Status} (hs : r.state = RaftState.leader) (htimely : r.Timely m)
    (h : r.stepLeader m = Except.ok (r', status)) : Deeds m r r' := by
  rw [Raft.stepLeader] at h
  split at h
  · obtain ⟨r₁, h₁, h⟩ := Outcome.bind_eq_ok.mp h
    cases h
    exact (Asides.bcastHeartbeatWithCtx h₁).deeds
  · split at h
    · cases h
      exact Relation.ReflTransGen.refl
    · obtain ⟨r₁, h₁, h⟩ := Outcome.bind_eq_ok.mp h
      cases h
      exact becomeFollower (Nat.le_refl _) h₁
  · rename_i hm
    exact stepLeaderProp hm hs h
  · obtain ⟨r₁, h₁, h⟩ := Outcome.bind_eq_ok.mp h
    cases h
    exact stepLeaderReadIndex h₁
  · split at h
    · cases h
      exact Relation.ReflTransGen.refl
    · rename_i hpr
      obtain ⟨r₁, h₁, h⟩ := Outcome.bind_eq_ok.mp h
      cases h
      exact stepLeaderPeer hs htimely hpr h₁

/-! ## Every message -/

theorem stepRole {status : Status} (htimely : r.Timely m)
    (hterm : m.type = MessageType.msgApp ∨ m.type = MessageType.msgHeartbeat ∨
      m.type = MessageType.msgSnap → m.term = r.term)
    (h : r.stepRole m = Except.ok (r', status)) : Deeds m r r' := by
  rw [Raft.stepRole] at h
  split at h
  · exact stepFollower ‹_› (fun hm => hterm (Or.inl hm)) h
  · exact stepCandidate (Or.inl ‹_›) htimely hterm h
  · exact stepCandidate (Or.inr ‹_›) htimely hterm h
  · exact stepLeader ‹_› htimely h

/-- Only a timely message is handled further. -/
theorem checkTerm {continues : Bool} (h : r.checkTerm m = Except.ok (r', continues)) :
    Deeds m r r' ∧ (continues = true → r'.Timely m) := by
  rw [Raft.checkTerm] at h
  split at h
  · rename_i h₀
    cases h
    exact ⟨Relation.ReflTransGen.refl, fun _ => ⟨Or.inl h₀, Or.inr (Or.inr (Or.inl h₀))⟩⟩
  split at h
  · rename_i hlt
    split at h
    · cases h
      exact ⟨Relation.ReflTransGen.refl, by simp⟩
    obtain ⟨r₁, h₁, h⟩ := Outcome.bind_eq_ok.mp h
    cases h
    have hfollow : ∀ {lead}, r.becomeFollower m.term lead = Except.ok r' →
        Deeds m r r' ∧ (true = true → r'.Timely m) := by
      intro lead hr₁
      refine ⟨becomeFollower (Nat.le_of_lt hlt) hr₁, fun _ => ?_⟩
      rw [becomeFollower_eq_ok hr₁]
      exact ⟨Or.inr (Nat.le_refl _), Or.inr (Or.inr (Or.inr rfl))⟩
    rw [stepHigherTerm] at h₁
    split at h₁
    · rename_i ht
      cases h₁
      exact ⟨Relation.ReflTransGen.refl, fun _ => ⟨Or.inr hlt.le, Or.inl ht⟩⟩
    · rename_i ht
      split at h₁
      · exact hfollow h₁
      · cases h₁
        exact ⟨Relation.ReflTransGen.refl, fun _ => ⟨Or.inr hlt.le, Or.inr (Or.inl ht)⟩⟩
    all_goals exact hfollow h₁
  rename_i hge
  split at h
  · obtain ⟨r₁, h₁, h⟩ := Outcome.bind_eq_ok.mp h
    cases h
    refine ⟨?_, by simp⟩
    rw [stepLowerTerm] at h₁
    split at h₁
    · rename_i ht
      exact post (Posted.blank (Or.inr ht.2)) h₁
    split at h₁
    · rename_i ht
      exact post (Posted.preDenied ht) h₁
    · cases h₁
      exact Relation.ReflTransGen.refl
  · rename_i hle
    cases h
    have hterm : m.term = r.term := by omega
    exact ⟨Relation.ReflTransGen.refl, fun _ => ⟨Or.inr hterm.ge, Or.inr (Or.inr (Or.inr hterm))⟩⟩

theorem stepHup (h : r.stepHup = Except.ok r') : Deeds m r r' := by
  rw [Raft.stepHup] at h
  split at h
  · cases h
    exact Relation.ReflTransGen.refl
  obtain ⟨res, -, h⟩ := Outcome.bind_eq_ok.mp h
  split at h
  · cases h
  split at h
  · cases h
    exact Relation.ReflTransGen.refl
  by_cases hpre : r.preVote = true
  · rw [if_pos hpre] at h
    exact campaignPreElection h
  · rw [if_neg hpre] at h
    exact campaignElection (Or.inl (by simpa using hpre)) h

/-- A vote is cast only by a node that has not voted otherwise. -/
theorem stepVote (hm : m.type = MessageType.msgVote ∨ m.type = MessageType.msgPreVote)
    (h : r.stepVote m = Except.ok r') : Deeds m r r' := by
  rw [Raft.stepVote] at h
  split at h
  · cases h
    exact Relation.ReflTransGen.refl
  rename_i hlearner
  obtain ⟨granted, hgrants, h⟩ := Outcome.bind_eq_ok.mp h
  obtain ⟨respType, hresp, h⟩ := Outcome.bind_eq_ok.mp h
  have hvoter : r.isLearner = false := by simpa using hlearner
  rcases hm with ht | ht <;> rw [ht] at hresp <;> cases hresp <;> split at h
  · rename_i hgranted
    rw [hgranted] at hgrants
    obtain ⟨r₁, hsend, h⟩ := Outcome.bind_eq_ok.mp h
    cases h
    have hfree : r.vote = m.fromId ∨ r.vote = 0 := by
      have hcan : r.canVote m = true := by
        rw [grantsVote] at hgrants
        by_contra hno
        rw [if_neg hno] at hgrants
        cases hgrants
      rw [canVote, ht] at hcan
      have hpre : (MessageType.msgVote == MessageType.msgPreVote) = false := rfl
      rw [hpre] at hcan
      simp only [Bool.false_and, Bool.or_false, Bool.or_eq_true, Bool.and_eq_true,
        beq_iff_eq] at hcan
      exact hcan.imp_right And.left
    refine (post (Posted.granted ht hvoter hgrants) hsend).tail (Deed.vote r₁ ?_)
    rw [(send_eq_ok hsend).1]
    exact hfree
  · exact post (Posted.denied ht) h
  · rename_i hgranted
    rw [hgranted] at hgrants
    obtain ⟨r₁, hsend, h⟩ := Outcome.bind_eq_ok.mp h
    rw [if_neg (by simp [ht])] at h
    cases h
    exact post (Posted.preGranted ht hvoter hgrants) hsend
  · exact post (Posted.preDenied ht) h

/-- **A step is a chain of deeds**, if the message carries a term where its type asks for one. -/
theorem step {status : Status} (hstamped : m.term = 0 → m.type ≠ MessageType.msgApp ∧
      m.type ≠ MessageType.msgHeartbeat ∧ m.type ≠ MessageType.msgSnap)
    (h : r.step m = Except.ok (r', status)) : Deeds m r r' := by
  obtain ⟨⟨r₁, continues⟩, hcheck, h⟩ := Outcome.bind_eq_ok.mp h
  obtain ⟨hdeeds, htimely⟩ := checkTerm hcheck
  refine hdeeds.trans ?_
  dsimp only at h
  split at h
  · cases h
    exact Relation.ReflTransGen.refl
  rename_i hcontinues
  have htimely := htimely (by simpa using hcontinues)
  split at h
  · obtain ⟨r₂, h₂, h⟩ := Outcome.bind_eq_ok.mp h
    cases h
    exact stepHup h₂
  · rename_i hm
    obtain ⟨r₂, h₂, h⟩ := Outcome.bind_eq_ok.mp h
    cases h
    exact stepVote (Or.inl hm) h₂
  · rename_i hm
    obtain ⟨r₂, h₂, h⟩ := Outcome.bind_eq_ok.mp h
    cases h
    exact stepVote (Or.inr hm) h₂
  · refine stepRole htimely (fun ht => ?_) h
    have hne : m.term ≠ 0 := by
      intro h₀
      obtain ⟨h₁, h₂, h₃⟩ := hstamped h₀
      rcases ht with ht | ht | ht
      exacts [h₁ ht, h₂ ht, h₃ ht]
    rcases htimely.2 with hpre | hpre | hzero | heq
    · rw [hpre] at ht
      simp at ht
    · rw [hpre] at ht
      simp at ht
    · exact absurd hzero hne
    · exact heq

/-! ## The clock -/

/-- The deeds of a message that the node sends itself are those of any other. -/
theorem of_local {t : MessageType} (ht : t = MessageType.msgHup ∨ t = MessageType.msgBeat ∨
    t = MessageType.msgCheckQuorum) (hm : m.type = t) (h : Deeds m r r') : Deeds m' r r' := by
  have hposted : ∀ {s msg}, Posted m s msg → Posted m' s msg := by
    intro s msg hposted
    cases hposted with
    | heartbeat hpr ctx => exact Posted.heartbeat hpr ctx
    | voteRequest hs hto hlog context => exact Posted.voteRequest hs hto hlog context
    | preVoteRequest hs hto hlog context => exact Posted.preVoteRequest hs hto hlog context
    | readIndexResp req index => exact Posted.readIndexResp req index
    | heartbeatResp hm' | behind hm' | accepted hm' | refused hm' | blank hm' | forward hm'
    | timeoutNow hm' | granted hm' | preGranted hm' | denied hm' | preDenied hm' =>
        exfalso
        subst hm
        rcases ht with ht | ht | ht <;> simp [ht] at hm'
  refine Relation.ReflTransGen.mono (fun s s' hs => ?_) _ _ h
  cases hs with
  | quiet h => exact Deed.quiet h
  | post h => exact Deed.post s (hposted h)
  | sendEntries hpr hopen hterm hes hsent => exact Deed.sendEntries s hpr hopen hterm hes hsent
  | sendSnapshot hpr hopen hsnap => exact Deed.sendSnapshot s hpr hopen hsnap
  | own hs => exact Deed.own s hs
  | support hs => exact Deed.support s hs
  | abort => exact Deed.abort s
  | follow h lead => exact Deed.follow s h lead
  | prepare h => exact Deed.prepare s h
  | lead h hwon => exact Deed.lead s h hwon
  | vote h => exact Deed.vote s h
  | refuse h es => exact Deed.refuse s h es
  | commit h => exact Deed.commit s h
  | stand h hwhy =>
      refine Deed.stand s h (hwhy.imp_right fun hwhy => Or.inr (hwhy.resolve_left fun hm' => ?_))
      subst hm
      rcases ht with ht | ht | ht <;> simp [ht] at hm'
  | propose h hes hsize hlog =>
      refine Deed.propose s h (Or.inl (hes.resolve_right fun hprop => ?_)) hsize hlog
      subst hm
      rcases ht with ht | ht | ht <;> simp [ht] at hprop
  | answered hs htimely hpr h =>
      exfalso
      subst hm
      cases h <;> rcases ht with ht | ht | ht <;> simp_all
  | count hs _ hm' | transfer hm' | append hm' | restore hm' =>
      exfalso
      subst hm
      rcases ht with ht | ht | ht <;> simp [ht] at hm'

/-- A step with a message of the node itself. -/
theorem stepLocal {t : MessageType} {fromId : Nat} {status : Status}
    (ht : t = MessageType.msgHup ∨ t = MessageType.msgBeat ∨ t = MessageType.msgCheckQuorum)
    (h : r.step { type := t, fromId := fromId } = Except.ok (r', status)) : Deeds m r r' := by
  refine of_local ht rfl (step (fun _ => ?_) h)
  rcases ht with rfl | rfl | rfl <;> simp

theorem tickElection (h : r.tickElection = Except.ok r') : Deeds m r r' := by
  rw [Raft.tickElection] at h
  dsimp only at h
  split at h
  · obtain ⟨⟨r₁, status⟩, h₁, h⟩ := Outcome.bind_eq_ok.mp h
    cases h
    exact after (stepLocal (Or.inl rfl) h₁) rfl
  · cases h
    exact quiet rfl

theorem heartbeatTick (h : r.heartbeatTick = Except.ok r') : Deeds m r r' := by
  rw [Raft.heartbeatTick] at h
  split at h
  · cases h
    exact Relation.ReflTransGen.refl
  split at h
  · obtain ⟨⟨r₁, status⟩, h₁, h⟩ := Outcome.bind_eq_ok.mp h
    cases h
    exact after (stepLocal (Or.inr (Or.inl rfl)) h₁) rfl
  · cases h
    exact Relation.ReflTransGen.refl

theorem electionTimeoutPassed (h : r.electionTimeoutPassed = Except.ok r') : Deeds m r r' := by
  obtain ⟨r₁, h₁, h⟩ := Outcome.bind_eq_ok.mp h
  have hchecked : Deeds m r r₁ := by
    rw [checkQuorumTick] at h₁
    split at h₁
    · obtain ⟨⟨r₂, status⟩, h₂, h₁⟩ := Outcome.bind_eq_ok.mp h₁
      cases h₁
      exact stepLocal (Or.inr (Or.inr rfl)) h₂
    · cases h₁
      exact Relation.ReflTransGen.refl
  refine hchecked.trans ?_
  cases h
  split
  · exact Relation.ReflTransGen.single (Deed.abort r₁)
  · exact Relation.ReflTransGen.refl

theorem tick (h : r.tick = Except.ok r') : Deeds m r r' := by
  rw [Raft.tick] at h
  split at h
  · rw [tickHeartbeat] at h
    dsimp only at h
    split at h
    · obtain ⟨r₁, h₁, h⟩ := Outcome.bind_eq_ok.mp h
      exact after ((electionTimeoutPassed h₁).trans (heartbeatTick h)) rfl
    · exact after (heartbeatTick h) rfl
  · exact tickElection h

/-! ## Configuration changes -/

theorem addNodeOrLearner {isLearner : Bool}
    (h : r.addNodeOrLearner id isLearner = Except.ok r') : Regrouped r r' := by
  have hadded : ∀ {s : Raft}, addNodeOrLearner.added id isLearner s = Except.ok r' →
      r' = s.activated id isLearner := by
    intro s hs
    rw [addNodeOrLearner.added] at hs
    split at hs
    · cases hs
    · cases hs
      rfl
  rw [Raft.addNodeOrLearner] at h
  split at h
  · rename_i hnew
    obtain ⟨r₁, hset, h⟩ := Outcome.bind_eq_ok.mp h
    rw [hadded h]
    exact Regrouped.entered hnew hset
  · rename_i pr hpr
    split at h
    · cases h
      exact Regrouped.same r
    rename_i hvoter
    split at h
    · cases h
      exact Regrouped.same r
    · rename_i hchange
      have hflags : isLearner = false ∧ pr.isLearner = true := by
        cases isLearner <;> cases hl : pr.isLearner <;> simp_all
      rw [hadded h, hflags.1]
      exact Regrouped.promoted r hpr hflags.2

theorem removeNode (h : r.removeNode id = Except.ok r') : Deeds m (r.delProgress id) r' := by
  rw [Raft.removeNode] at h
  dsimp only at h
  split at h
  · cases h
    exact Relation.ReflTransGen.refl
  obtain ⟨⟨r₁, committed⟩, hcommit, h⟩ := Outcome.bind_eq_ok.mp h
  obtain ⟨r₂, hafter, h⟩ := Outcome.bind_eq_ok.mp h
  refine (maybeCommit hcommit).trans ((Asides.sendAfterAck hafter).deeds.trans ?_)
  cases h
  split
  · exact Relation.ReflTransGen.single (Deed.abort r₂)
  · exact Relation.ReflTransGen.refl

/-- **A configuration change regroups the members**, and what follows is a chain of deeds. -/
theorem changeMembers {cc : ConfChange} (h : RawNode.changeMembers r cc = Except.ok r') :
    ∃ r₁, Regrouped r r₁ ∧ Deeds m r₁ r' := by
  rw [RawNode.changeMembers] at h
  split at h
  · exact ⟨r', addNodeOrLearner h, Relation.ReflTransGen.refl⟩
  · exact ⟨r', addNodeOrLearner h, Relation.ReflTransGen.refl⟩
  · exact ⟨_, Regrouped.removed r cc.nodeId, removeNode h⟩
  · cases h
    exact ⟨r, Regrouped.same r, Relation.ReflTransGen.refl⟩
  · cases h

end Deeds

end Raft

end RaftKv
