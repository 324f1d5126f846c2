import RaftKv.Leader.Work

/-!
# A leader's term of office

What one message, or one tick, does to a leader that stays in its term.

* `KeepsTerm` — the messages that do not depose a leader because of their term.
* `step_samePeers` — **a voter becomes active only by an answer it gives**.
* `step_sameReads` — reads are touched by read requests and by heartbeat answers only.
* `step_checkQuorum`, `tick_leader` — a quorum check leaves the leader in office exactly when enough
  voters are active; a tick without one only sends.
-/

namespace RaftKv

namespace Raft

/-! ## What may happen to a leader -/

inductive LeaderAction where
  | step (m : Message)
  | tick
  | addNode (id : Nat)
  | addLearner (id : Nat)
  | removeNode (id : Nat)

def LeaderAction.act (r : Raft) : LeaderAction → Outcome Raft
  | LeaderAction.step m => do
      let (r, _) ← r.step m
      return r
  | LeaderAction.tick => r.tick
  | LeaderAction.addNode id => r.addNode id
  | LeaderAction.addLearner id => r.addNodeOrLearner id true
  | LeaderAction.removeNode id => r.removeNode id

variable {r r' : Raft} {m : Message} {status : Status}

/-- The message is of the node's own term, or of none. -/
def ownTerm (r : Raft) (m : Message) : Bool := m.term == 0 || m.term == r.term

/-- The message does not end the node's term: it is not of a higher one, or it is one of those that
a node takes no term from. -/
def KeepsTerm (r : Raft) (m : Message) : Prop :=
  m.term ≤ r.term ∨ r.inLease m = true ∨ m.type = MessageType.msgPreVote ∨
    (m.type = MessageType.msgPreVoteResp ∧ m.reject = false)

instance (r : Raft) (m : Message) : Decidable (r.KeepsTerm m) :=
  inferInstanceAs (Decidable (_ ∨ _))

/-- Messages that are handled the same in every role. -/
def roleless : MessageType → Bool
  | MessageType.msgHup | MessageType.msgVote | MessageType.msgPreVote => true
  | _ => false

/-- The answers that make their sender active. -/
def isAnswer : MessageType → Bool
  | MessageType.msgAppResp | MessageType.msgHeartbeatResp => true
  | _ => false

/-- The peer that a leader hears of by the message. -/
def heardFrom (r : Raft) (m : Message) : Option Nat :=
  if r.ownTerm m && isAnswer m.type then some m.fromId else none

/-- The message makes a leader check its quorum. -/
def checksQuorum (r : Raft) (m : Message) : Bool :=
  r.ownTerm m && m.type == MessageType.msgCheckQuorum

/-- The message is one that may touch the reads of a leader. -/
def concernsReads (r : Raft) (m : Message) : Bool :=
  r.ownTerm m && (m.type == MessageType.msgReadIndex || m.type == MessageType.msgHeartbeatResp)

/-! ## One message -/

theorem stepVote_sent (h : r.stepVote m = Except.ok r') : Sent r r' := by
  rw [stepVote] at h
  split at h
  · exact Outcome.pure_eq_ok.mp h ▸ Sent.refl r
  obtain ⟨granted, -, h⟩ := Outcome.bind_eq_ok.mp h
  obtain ⟨respType, hresp, h⟩ := Outcome.bind_eq_ok.mp h
  have hne : respType ≠ MessageType.msgReadIndexResp := by
    unfold voteRespMsgType at hresp
    split at hresp
    · exact Outcome.pure_eq_ok.mp hresp ▸ (by simp)
    · exact Outcome.pure_eq_ok.mp hresp ▸ (by simp)
    · cases hresp
  split at h
  · obtain ⟨r₁, hsend, h⟩ := Outcome.bind_eq_ok.mp h
    have hsent := Sent.send hsend hne
    split at h
    · rw [← Outcome.pure_eq_ok.mp h]
      exact hsent.trans (Sent.same rfl rfl)
    · exact Outcome.pure_eq_ok.mp h ▸ hsent
  · exact Sent.send h hne

theorem stepLowerTerm_sent (h : r.stepLowerTerm m = Except.ok r') : Sent r r' := by
  rw [stepLowerTerm] at h
  split at h
  · exact Sent.send h (by simp)
  split at h
  · exact Sent.send h (by simp)
  · exact Outcome.pure_eq_ok.mp h ▸ Sent.refl r

/-- A message that keeps the term is dropped or passed on to an unchanged node. -/
theorem checkTerm_keeps (hk : r.KeepsTerm m) {continues : Bool}
    (h : r.checkTerm m = Except.ok (r', continues)) :
    (continues = false ∧ r.ownTerm m = false ∧ Sent r r') ∨
    (continues = true ∧ r' = r ∧ (r.ownTerm m = true ∨ m.type = MessageType.msgPreVote ∨
      m.type = MessageType.msgPreVoteResp)) := by
  rw [checkTerm] at h
  split at h
  · rename_i hterm
    simp only [Outcome.pure_eq_ok, Prod.mk.injEq] at h
    exact Or.inr ⟨h.2.symm, h.1.symm, Or.inl (by simp [ownTerm, hterm])⟩
  rename_i hzero
  split at h
  · rename_i hgt
    have hown : r.ownTerm m = false := by simp [ownTerm, hzero]; omega
    split at h
    · simp only [Outcome.pure_eq_ok, Prod.mk.injEq] at h
      exact Or.inl ⟨h.2.symm, hown, h.1 ▸ Sent.refl r⟩
    · rename_i hlease
      obtain ⟨r₁, hhigher, h⟩ := Outcome.bind_eq_ok.mp h
      simp only [Outcome.pure_eq_ok, Prod.mk.injEq] at h
      refine Or.inr ⟨h.2.symm, ?_⟩
      rcases hk with hle | hin | hpre | ⟨hresp, hreject⟩
      · omega
      · exact absurd hin hlease
      · rw [stepHigherTerm, hpre] at hhigher
        exact ⟨h.1 ▸ (Outcome.pure_eq_ok.mp hhigher).symm, Or.inr (Or.inl hpre)⟩
      · rw [stepHigherTerm, hresp] at hhigher
        simp only [hreject, Bool.false_eq_true, if_false] at hhigher
        exact ⟨h.1 ▸ (Outcome.pure_eq_ok.mp hhigher).symm, Or.inr (Or.inr hresp)⟩
  rename_i hle
  split at h
  · rename_i hlt
    obtain ⟨r₁, hlower, h⟩ := Outcome.bind_eq_ok.mp h
    simp only [Outcome.pure_eq_ok, Prod.mk.injEq] at h
    exact Or.inl ⟨h.2.symm, by simp [ownTerm, hzero]; omega, h.1 ▸ stepLowerTerm_sent hlower⟩
  · simp only [Outcome.pure_eq_ok, Prod.mk.injEq] at h
    exact Or.inr ⟨h.2.symm, h.1.symm, Or.inl (by simp [ownTerm]; omega)⟩

/-- A leader passes a message of its term to its handler; anything else only makes it send. -/
theorem step_leader (hl : r.state = RaftState.leader) (hk : r.KeepsTerm m)
    (h : r.step m = Except.ok (r', status)) :
    (roleless m.type = false ∧ r.stepLeader m = Except.ok (r', status) ∧
      (r.ownTerm m = true ∨ m.type = MessageType.msgPreVoteResp)) ∨
    (Sent r r' ∧ (r.ownTerm m = false ∨ roleless m.type = true)) := by
  obtain ⟨⟨r₁, continues⟩, hcheck, hrest⟩ := Outcome.bind_eq_ok.mp h
  rcases checkTerm_keeps hk hcheck with ⟨rfl, hown, hsent⟩ | ⟨rfl, rfl, hreach⟩
  · simp only [Bool.false_eq_true, not_false_eq_true, if_true, Outcome.pure_eq_ok,
      Prod.mk.injEq] at hrest
    exact Or.inr ⟨hrest.1 ▸ hsent, Or.inl hown⟩
  · simp only [not_true_eq_false, if_false] at hrest
    split at hrest
    · rename_i htype
      obtain ⟨r₂, hhup, hrest⟩ := Outcome.bind_eq_ok.mp hrest
      simp only [Outcome.pure_eq_ok, Prod.mk.injEq] at hrest
      rw [stepHup, if_pos hl] at hhup
      exact Or.inr ⟨hrest.1 ▸ Outcome.pure_eq_ok.mp hhup ▸ Sent.refl _, Or.inr (by rw [htype]; rfl)⟩
    · rename_i htype
      obtain ⟨r₂, hvote, hrest⟩ := Outcome.bind_eq_ok.mp hrest
      simp only [Outcome.pure_eq_ok, Prod.mk.injEq] at hrest
      exact Or.inr ⟨hrest.1 ▸ stepVote_sent hvote, Or.inr (by rw [htype]; rfl)⟩
    · rename_i htype
      obtain ⟨r₂, hvote, hrest⟩ := Outcome.bind_eq_ok.mp hrest
      simp only [Outcome.pure_eq_ok, Prod.mk.injEq] at hrest
      exact Or.inr ⟨hrest.1 ▸ stepVote_sent hvote, Or.inr (by rw [htype]; rfl)⟩
    · rename_i hhup hvote hpre
      rw [stepRole, hl] at hrest
      refine Or.inl ⟨?_, hrest, ?_⟩
      · unfold roleless
        split <;> simp_all
      · rcases hreach with hown | hp | hresp
        · exact Or.inl hown
        · exact absurd hp hpre
        · exact Or.inr hresp

theorem stepLeaderReadIndex_samePeers (h : r.stepLeaderReadIndex m = Except.ok r') :
    SamePeers none r r' := by
  rw [stepLeaderReadIndex] at h
  split at h
  · split at h
    · exact Outcome.pure_eq_ok.mp h ▸ SamePeers.same rfl
    split at h
    · obtain ⟨readOnly, -, h⟩ := Outcome.bind_eq_ok.mp h
      obtain ⟨ctx, -, h⟩ := Outcome.bind_eq_ok.mp h
      exact (Sent.bcastHeartbeatWithCtx h).toSamePeers.after rfl
    · exact (respondRead_samePeers h).1
  · obtain ⟨ctx, -, h⟩ := Outcome.bind_eq_ok.mp h
    exact Outcome.pure_eq_ok.mp h ▸ SamePeers.same rfl

/-- The messages that concern a peer's progress: two of them are answers. -/
theorem stepLeaderPeer_samePeers {pr : Progress} (hpr : r.getProgress m.fromId = some pr)
    (h : r.stepLeaderPeer m pr = Except.ok r') :
    SamePeers (if isAnswer m.type then some m.fromId else none) r r' := by
  rw [stepLeaderPeer] at h
  split at h
  · rename_i htype
    rw [htype]
    exact (stepAppResp_heard hpr h).1
  · rename_i htype
    rw [htype]
    obtain ⟨r₁, hheard, -, hrelease⟩ := stepHeartbeatResp_split hpr h
    exact hheard.trans (releaseReads_samePeers hrelease)
  · rename_i htype
    rw [htype]
    exact Outcome.pure_eq_ok.mp h ▸ (stepSnapStatus_sent hpr).toSamePeers
  · rename_i htype
    rw [htype]
    exact Outcome.pure_eq_ok.mp h ▸ (stepUnreachable_sent hpr).toSamePeers
  · rename_i htype
    rw [htype]
    exact (stepTransferLeader_sent h).toSamePeers
  · rename_i happ hbeat _ _ _
    have : isAnswer m.type = false := by
      unfold isAnswer
      split <;> simp_all
    rw [this]
    exact Outcome.pure_eq_ok.mp h ▸ SamePeers.same rfl

/-- A leader's handler marks the sender of an answer, and no other peer. -/
theorem stepLeader_samePeers (hm : m.type ≠ MessageType.msgCheckQuorum)
    (h : r.stepLeader m = Except.ok (r', status)) :
    SamePeers (if isAnswer m.type then some m.fromId else none) r r' := by
  rw [stepLeader] at h
  split at h
  · rename_i htype
    obtain ⟨r₁, hbeat, h⟩ := Outcome.bind_eq_ok.mp h
    simp only [Outcome.pure_eq_ok, Prod.mk.injEq] at h
    rw [htype]
    exact h.1 ▸ (Sent.bcastHeartbeatWithCtx hbeat).toSamePeers
  · rename_i htype
    exact absurd htype hm
  · rename_i htype
    rw [htype]
    exact (stepLeaderProp_sent h).toSamePeers
  · rename_i htype
    obtain ⟨r₁, hread, h⟩ := Outcome.bind_eq_ok.mp h
    simp only [Outcome.pure_eq_ok, Prod.mk.injEq] at h
    rw [htype]
    exact h.1 ▸ stepLeaderReadIndex_samePeers hread
  · split at h
    · rename_i hnone
      simp only [Outcome.pure_eq_ok, Prod.mk.injEq] at h
      rw [← h.1]
      split
      · exact SamePeers.stranger (getProgress_eq_none.mp hnone).1
      · exact SamePeers.same rfl
    · rename_i pr hpr
      obtain ⟨r₁, hpeer, h⟩ := Outcome.bind_eq_ok.mp h
      simp only [Outcome.pure_eq_ok, Prod.mk.injEq] at h
      exact h.1 ▸ stepLeaderPeer_samePeers hpr hpeer

/-- Only read requests, heartbeat answers and a quorum check do more to the reads than nothing. -/
theorem stepLeader_sameReads (hcheck : m.type ≠ MessageType.msgCheckQuorum)
    (hread : m.type ≠ MessageType.msgReadIndex) (hanswer : m.type ≠ MessageType.msgHeartbeatResp)
    (h : r.stepLeader m = Except.ok (r', status)) : SameReads r r' := by
  rw [stepLeader] at h
  split at h
  · obtain ⟨r₁, hbeat, h⟩ := Outcome.bind_eq_ok.mp h
    simp only [Outcome.pure_eq_ok, Prod.mk.injEq] at h
    exact h.1 ▸ (Sent.bcastHeartbeatWithCtx hbeat).toSameReads
  · rename_i htype
    exact absurd htype hcheck
  · exact (stepLeaderProp_sent h).toSameReads
  · rename_i htype
    exact absurd htype hread
  · split at h
    · simp only [Outcome.pure_eq_ok, Prod.mk.injEq] at h
      exact h.1 ▸ SameReads.same rfl
    rename_i pr hpr
    obtain ⟨r₁, hpeer, h⟩ := Outcome.bind_eq_ok.mp h
    simp only [Outcome.pure_eq_ok, Prod.mk.injEq] at h
    rw [← h.1]
    rw [stepLeaderPeer] at hpeer
    split at hpeer
    · exact (stepAppResp_heard hpr hpeer).2
    · rename_i htype
      exact absurd htype hanswer
    · exact Outcome.pure_eq_ok.mp hpeer ▸ (stepSnapStatus_sent hpr).toSameReads
    · exact Outcome.pure_eq_ok.mp hpeer ▸ (stepUnreachable_sent hpr).toSameReads
    · exact (stepTransferLeader_sent hpeer).toSameReads
    · exact Outcome.pure_eq_ok.mp hpeer ▸ SameReads.same rfl

/-- **A voter becomes active only by an answer of its own**, unless the quorum is checked. -/
theorem step_samePeers (hl : r.state = RaftState.leader) (hk : r.KeepsTerm m)
    (hcheck : r.checksQuorum m = false) (h : r.step m = Except.ok (r', status)) :
    SamePeers (r.heardFrom m) r r' := by
  rcases step_leader hl hk h with ⟨-, hrole, hown⟩ | ⟨hsent, hdrop⟩
  · have htype : m.type ≠ MessageType.msgCheckQuorum := by
      rintro htype
      rcases hown with hown | hresp
      · simp [checksQuorum, hown, htype] at hcheck
      · rw [hresp] at htype
        cases htype
    have hpeers := stepLeader_samePeers htype hrole
    rcases hown with hown | hresp
    · simpa [heardFrom, hown] using hpeers
    · simpa [heardFrom, hresp, isAnswer] using hpeers
  · have hnone : r.heardFrom m = none := by
      rcases hdrop with hown | hroleless
      · simp [heardFrom, hown]
      · have : isAnswer m.type = false := by
          unfold roleless at hroleless
          split at hroleless <;> simp_all [isAnswer]
        simp [heardFrom, this]
    rw [hnone]
    exact hsent.toSamePeers

theorem step_sameReads (hl : r.state = RaftState.leader) (hk : r.KeepsTerm m)
    (hcheck : r.checksQuorum m = false) (hreads : r.concernsReads m = false)
    (h : r.step m = Except.ok (r', status)) : SameReads r r' := by
  rcases step_leader hl hk h with ⟨-, hrole, hown⟩ | ⟨hsent, -⟩
  · rcases hown with hown | hresp
    · simp only [checksQuorum, hown, Bool.true_and, beq_eq_false_iff_ne, ne_eq] at hcheck
      simp only [concernsReads, hown, Bool.true_and, Bool.or_eq_false_iff, beq_eq_false_iff_ne,
        ne_eq] at hreads
      exact stepLeader_sameReads hcheck hreads.1 hreads.2 hrole
    · exact stepLeader_sameReads (by simp [hresp]) (by simp [hresp]) (by simp [hresp]) hrole
  · exact hsent.toSameReads

/-- A leader that gives up its office answers no reads. -/
theorem becomeFollower_sameAnswers {term lead : Nat} (h : r.becomeFollower term lead = Except.ok r') :
    SameAnswers r r' := by
  rw [becomeFollower_eq_ok h]
  exact ⟨rfl, rfl⟩

/-- **A quorum check leaves a leader with an active quorum unchanged, and deposes any other.** -/
theorem step_checkQuorum (hl : r.state = RaftState.leader) (hcheck : r.checksQuorum m = true)
    (h : r.step m = Except.ok (r', status)) :
    (r.checkQuorumActive = true ∧ r' = r) ∨
    (r.checkQuorumActive = false ∧ r'.state = RaftState.follower ∧ SameAnswers r r') := by
  simp only [checksQuorum, Bool.and_eq_true, beq_iff_eq] at hcheck
  obtain ⟨hown, htype⟩ := hcheck
  have hle : m.term ≤ r.term := by
    simp only [ownTerm, Bool.or_eq_true, beq_iff_eq] at hown
    omega
  rcases step_leader hl (Or.inl hle) h with ⟨-, hrole, -⟩ | ⟨-, hdrop⟩
  · rw [stepLeader, htype] at hrole
    dsimp only at hrole
    split at hrole
    · rename_i hactive
      simp only [Outcome.pure_eq_ok, Prod.mk.injEq] at hrole
      exact Or.inl ⟨hactive, hrole.1.symm⟩
    · rename_i hactive
      obtain ⟨r₁, hfollow, hrole⟩ := Outcome.bind_eq_ok.mp hrole
      simp only [Outcome.pure_eq_ok, Prod.mk.injEq] at hrole
      refine Or.inr ⟨by simpa using hactive, ?_, hrole.1 ▸ becomeFollower_sameAnswers hfollow⟩
      rw [← hrole.1, becomeFollower_eq_ok hfollow]
  · rw [hown, htype] at hdrop
    rcases hdrop with hdrop | hdrop <;> cases hdrop

/-! ## One tick -/

/-- The tick makes a leader check its quorum. -/
def tickChecksQuorum (r : Raft) : Bool :=
  r.checkQuorum && decide (r.electionElapsed + 1 ≥ r.electionTimeout)

theorem heartbeatTick_sent (h : r.heartbeatTick = Except.ok r') : Sent r r' := by
  rw [heartbeatTick] at h
  split at h
  · exact Outcome.pure_eq_ok.mp h ▸ Sent.refl r
  rename_i hl
  split at h
  · obtain ⟨⟨r₁, status⟩, hstep, h⟩ := Outcome.bind_eq_ok.mp h
    have hl' : ({ r with heartbeatElapsed := 0 } : Raft).state = RaftState.leader :=
      not_not.mp hl
    have hbeat := step_leader hl' (Or.inl (Nat.zero_le _)) hstep
    rw [← Outcome.pure_eq_ok.mp h]
    rcases hbeat with ⟨-, hrole, -⟩ | ⟨hsent, -⟩
    · obtain ⟨r₂, hbcast, hrole⟩ := Outcome.bind_eq_ok.mp hrole
      simp only [Outcome.pure_eq_ok, Prod.mk.injEq] at hrole
      exact hrole.1 ▸ (Sent.bcastHeartbeatWithCtx hbcast).after rfl rfl
    · exact hsent.after rfl rfl
  · exact Outcome.pure_eq_ok.mp h ▸ Sent.refl r

/-- When the election timeout has passed, a leader checks its quorum and gives up a transfer. -/
theorem electionTimeoutPassed_leader (hl : r.state = RaftState.leader)
    (h : r.electionTimeoutPassed = Except.ok r') :
    ((r.checkQuorum = true → r.checkQuorumActive = true) ∧ Sent r r') ∨
    (r.checkQuorum = true ∧ r.checkQuorumActive = false ∧ r'.state = RaftState.follower ∧
      SameAnswers r r') := by
  obtain ⟨r₁, hcheck, habort⟩ := Outcome.bind_eq_ok.mp h
  have habort : Sent r₁ r' := by
    rw [← Outcome.pure_eq_ok.mp habort]
    split
    · exact Sent.same rfl rfl
    · exact Sent.same rfl rfl
  rw [checkQuorumTick] at hcheck
  split at hcheck
  · rename_i hcq
    obtain ⟨⟨r₂, status⟩, hstep, hcheck⟩ := Outcome.bind_eq_ok.mp hcheck
    obtain rfl := Outcome.pure_eq_ok.mp hcheck
    rcases step_checkQuorum hl rfl hstep with ⟨hactive, rfl⟩ | ⟨hactive, hstate, hsame⟩
    · exact Or.inl ⟨fun _ => hactive, habort⟩
    · exact Or.inr ⟨hcq, hactive, habort.state.trans hstate, hsame.trans habort.toSameAnswers⟩
  · rename_i hcq
    obtain rfl := Outcome.pure_eq_ok.mp hcheck
    exact Or.inl ⟨fun hc => absurd hc hcq, habort⟩

/-- **A tick sends at most, unless it checks the quorum and finds too few active voters.** -/
theorem tick_leader (hl : r.state = RaftState.leader) (h : r.tick = Except.ok r') :
    ((r.tickChecksQuorum = true → r.checkQuorumActive = true) ∧ Sent r r') ∨
    (r.tickChecksQuorum = true ∧ r.checkQuorumActive = false ∧ r'.state = RaftState.follower ∧
      SameAnswers r r') := by
  rw [tick, if_pos hl, tickHeartbeat] at h
  dsimp only at h
  split at h
  · rename_i hpassed
    obtain ⟨r₁, hpass, h⟩ := Outcome.bind_eq_ok.mp h
    have hafter := heartbeatTick_sent h
    rcases electionTimeoutPassed_leader (by exact hl) hpass with
      ⟨hactive, hsent⟩ | ⟨hcq, hactive, hstate, hsame⟩
    · refine Or.inl ⟨fun hc => hactive ?_, (hsent.trans hafter).after rfl rfl⟩
      exact (Bool.and_eq_true_iff.mp hc).1
    · refine Or.inr ⟨?_, hactive, hafter.state.trans hstate,
        hafter.readStates.trans hsame.readStates, hafter.readAnswers.trans hsame.readAnswers⟩
      exact Bool.and_eq_true_iff.mpr ⟨hcq, decide_eq_true hpassed⟩
  · rename_i hpassed
    exact Or.inl ⟨fun hc => absurd (of_decide_eq_true (Bool.and_eq_true_iff.mp hc).2) hpassed,
      (heartbeatTick_sent h).after rfl rfl⟩

/-! ## Configuration changes -/

theorem added_sameRole {id : Nat} {isLearner : Bool}
    (h : addNodeOrLearner.added id isLearner r = Except.ok r') : SameRole r r' ∧ SameReads r r' := by
  unfold addNodeOrLearner.added at h
  dsimp only at h
  split at h
  · cases h
  · rw [← Outcome.pure_eq_ok.mp h]
    exact ⟨⟨rfl, rfl, rfl, rfl⟩, SameReads.same rfl⟩

/-- Entering a node changes neither the role nor the reads. -/
theorem addNodeOrLearner_sameRole {id : Nat} {isLearner : Bool}
    (h : r.addNodeOrLearner id isLearner = Except.ok r') : SameRole r r' ∧ SameReads r r' := by
  rw [addNodeOrLearner] at h
  split at h
  · obtain ⟨r₁, hset, hadded⟩ := Outcome.bind_eq_ok.mp h
    have hframe := setProgress_frame hset
    have hfirst : SameRole r r₁ ∧ SameReads r r₁ := by
      rw [hframe]
      exact ⟨⟨rfl, rfl, rfl, rfl⟩, SameReads.same rfl⟩
    obtain ⟨hrole, hreads⟩ := added_sameRole hadded
    exact ⟨hfirst.1.trans hrole, hfirst.2.trans hreads⟩
  · split at h
    · exact Outcome.pure_eq_ok.mp h ▸ ⟨⟨rfl, rfl, rfl, rfl⟩, SameReads.same rfl⟩
    split at h
    · exact Outcome.pure_eq_ok.mp h ▸ ⟨⟨rfl, rfl, rfl, rfl⟩, SameReads.same rfl⟩
    · obtain ⟨hrole, hreads⟩ := added_sameRole h
      exact ⟨⟨hrole.id, hrole.term, hrole.state, hrole.checkQuorum⟩, hreads.after rfl⟩

/-- Removing a node is dropping its progress, and then sending. -/
theorem removeNode_sent {id : Nat} (h : r.removeNode id = Except.ok r') :
    Sent (r.delProgress id) r' := by
  rw [removeNode] at h
  dsimp only at h
  split at h
  · exact Outcome.pure_eq_ok.mp h ▸ Sent.refl _
  · obtain ⟨⟨r₁, committed⟩, hcommit, h⟩ := Outcome.bind_eq_ok.mp h
    obtain ⟨r₂, hafter, h⟩ := Outcome.bind_eq_ok.mp h
    have hsent := (Sent.maybeCommit hcommit).trans (Sent.sendAfterAck hafter)
    rw [← Outcome.pure_eq_ok.mp h]
    split
    · exact hsent.trans (Sent.same rfl rfl)
    · exact hsent

theorem removeNode_sameRole {id : Nat} (h : r.removeNode id = Except.ok r') :
    SameRole r r' ∧ SameReads r r' :=
  have hsent := removeNode_sent h
  ⟨⟨hsent.id, hsent.term, hsent.state, hsent.checkQuorum⟩, hsent.toSameReads.after rfl⟩

/-! ## In office -/

/-- The action happens to a leader, and its message, if it has one, does not end the term. -/
def InOffice (r : Raft) : LeaderAction → Prop
  | LeaderAction.step m => r.state = RaftState.leader ∧ r.KeepsTerm m
  | _ => r.state = RaftState.leader

instance (r : Raft) : (a : LeaderAction) → Decidable (r.InOffice a)
  | LeaderAction.step _ => inferInstanceAs (Decidable (_ ∧ _))
  | LeaderAction.tick | LeaderAction.addNode _ | LeaderAction.addLearner _
  | LeaderAction.removeNode _ => inferInstanceAs (Decidable (_ = _))

/-- An action in office happens to a leader. -/
theorem InOffice.leader {a : LeaderAction} (h : r.InOffice a) : r.state = RaftState.leader := by
  cases a with
  | step m => exact h.1
  | _ => exact h

/-! ## Three nodes -/

/-- Step the messages one after the other. -/
def deliver (r : Raft) (ms : List Message) : Outcome Raft :=
  ms.foldlM (fun r m => do
    let (r, _) ← r.step m
    return r) r

/-- A node of a new cluster of three voters and some learners. -/
def oneOfThree (id : Nat) (learners : List Nat) : Outcome Raft :=
  init { id := id, peers := [1, 2, 3], learners := learners, electionTick := 10, heartbeatTick := 1,
         maxSizePerMsg := 1000, maxInflightMsgs := 256, checkQuorum := true }

/-- Node 1 campaigns and gets the vote of node 2. -/
def firstElection : List Message :=
  [{ type := MessageType.msgHup, fromId := 1 },
    { type := MessageType.msgVoteResp, fromId := 2, toId := 1, term := 1 }]

/-- Node 2 acknowledges the first entry of node 1. -/
def firstAck : Message :=
  { type := MessageType.msgAppResp, fromId := 2, toId := 1, term := 1, index := 1 }

end Raft

end RaftKv
