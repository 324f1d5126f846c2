import RaftKv.Raft.Lookups

/-!
# Who becomes a candidate or a leader

* `Raft.VoterRises` — a rise is that of a voter; without one, role and term stay or the node falls
  back.
* `Steady`, `SteadyWith` — **a computation after which that holds, and that ends in no crash of a
  kind**, with its rules.
* `Raft.stepHup_steady`, `Raft.stepVoteResp_steady` — the two ways up that do not look at the voters.
* `Raft.step_steady`, `Raft.tick_steady` — every message and the clock.
-/

namespace RaftKv

open Outcome

namespace Raft

/-- Role, term and voters. -/
def rank (r : Raft) : Nat × RaftState × Nat × List Nat := (r.id, r.state, r.term, r.prs.keys)

/-- The node ends as a follower or as a voter, or it was none before and keeps role and term. -/
structure VoterRises (r r' : Raft) : Prop where
  id : r'.id = r.id
  rises : r'.state = RaftState.follower ∨ r'.id ∈ r'.prs ∨
    r.id ∉ r.prs ∧ r'.state = r.state ∧ r'.term = r.term

namespace VoterRises

variable {r r' r'' : Raft}

theorem of_rank (h : r'.rank = r.rank) : VoterRises r r' := by
  simp only [rank, Prod.mk.injEq] at h
  obtain ⟨hid, hstate, hterm, hkeys⟩ := h
  refine ⟨hid, ?_⟩
  by_cases hmem : r.id ∈ r.prs
  · refine Or.inr (Or.inl ?_)
    rwa [hid, AList.mem_keys, hkeys, ← AList.mem_keys]
  · exact Or.inr (Or.inr ⟨hmem, hstate, hterm⟩)

theorem refl (r : Raft) : VoterRises r r := of_rank rfl

theorem follower (hid : r'.id = r.id) (h : r'.state = RaftState.follower) : VoterRises r r' :=
  ⟨hid, Or.inl h⟩

theorem voter (hid : r'.id = r.id) (hkeys : r'.prs.keys = r.prs.keys) (h : r.id ∈ r.prs) :
    VoterRises r r' := by
  refine ⟨hid, Or.inr (Or.inl ?_)⟩
  rwa [hid, AList.mem_keys, hkeys, ← AList.mem_keys]

theorem trans (h₁ : VoterRises r r') (h₂ : VoterRises r' r'') : VoterRises r r'' := by
  refine ⟨h₂.id.trans h₁.id, ?_⟩
  rcases h₂.rises with hfollower | hvoter | ⟨hnone, hstate, hterm⟩
  · exact Or.inl hfollower
  · exact Or.inr (Or.inl hvoter)
  · rcases h₁.rises with hfollower | hvoter | ⟨hnone', hstate', hterm'⟩
    · exact Or.inl (hstate.trans hfollower)
    · exact absurd hvoter hnone
    · exact Or.inr (Or.inr ⟨hnone', hstate.trans hstate', hterm.trans hterm'⟩)

end VoterRises

end Raft

/-- A computation that starts with the node `r` and ends with `out`: a rise on the way is that of a
voter, and the crashes `bad` do not happen. -/
structure SteadyWith (bad : Crash → Prop) {α : Type} (r : Raft) (out : α → Raft) (x : Outcome α) :
    Prop where
  avoids : Avoids bad x
  rises : ∀ a, x = Except.ok a → Raft.VoterRises r (out a)

/-- The same for a computation of nothing but the node. -/
abbrev Steady (bad : Crash → Prop) (r : Raft) (x : Outcome Raft) : Prop :=
  SteadyWith bad r (fun s => s) x

namespace SteadyWith

variable {bad : Crash → Prop} {α β : Type} {r : Raft} {out : α → Raft} {mid : β → Raft}

theorem pure {a : α} (h : Raft.VoterRises r (out a)) : SteadyWith bad r out (pure a) := by
  refine ⟨Avoids.pure, fun b hb => ?_⟩
  obtain rfl := Outcome.pure_eq_ok.mp hb
  exact h

theorem same {a : α} (h : (out a).rank = r.rank) : SteadyWith bad r out (Pure.pure a) :=
  pure (Raft.VoterRises.of_rank h)

theorem throw (hbad : Narrow bad) {c : Crash} (h : ¬ LookupFails c) :
    SteadyWith bad r out (throw c) :=
  ⟨hbad.throw h, fun _ hb => by cases hb⟩

/-- One computation on the node behind another. -/
theorem bind {x : Outcome β} {f : β → Outcome α} (hx : SteadyWith bad r mid x)
    (hf : ∀ b, x = Except.ok b → SteadyWith bad (mid b) out (f b)) : SteadyWith bad r out (x >>= f) := by
  refine ⟨Avoids.bind hx.avoids fun b hb => (hf b hb).avoids, fun a ha => ?_⟩
  obtain ⟨b, hb, ha⟩ := Outcome.bind_eq_ok.mp ha
  exact (hx.rises b hb).trans ((hf b hb).rises a ha)

/-- A computation that uses a value. -/
theorem eval {x : Outcome β} {f : β → Outcome α} (hx : Avoids bad x)
    (hf : ∀ b, x = Except.ok b → SteadyWith bad r out (f b)) : SteadyWith bad r out (x >>= f) := by
  refine ⟨Avoids.bind hx fun b hb => (hf b hb).avoids, fun a ha => ?_⟩
  obtain ⟨b, hb, ha⟩ := Outcome.bind_eq_ok.mp ha
  exact (hf b hb).rises a ha

theorem after {x : Outcome α} (r₁ : Raft) (h : Raft.VoterRises r r₁) (hx : SteadyWith bad r₁ out x) :
    SteadyWith bad r out x :=
  ⟨hx.avoids, fun a ha => h.trans (hx.rises a ha)⟩

theorem behind {x : Outcome α} (r₁ : Raft) (h : r₁.rank = r.rank) (hx : SteadyWith bad r₁ out x) :
    SteadyWith bad r out x :=
  after r₁ (Raft.VoterRises.of_rank h) hx

theorem foldlM {xs : List β} {f : Raft → β → Outcome Raft}
    (hf : ∀ s b, Steady bad s (f s b)) : Steady bad r (xs.foldlM f r) := by
  induction xs generalizing r with
  | nil => exact same rfl
  | cons b xs ih =>
      rw [List.foldlM_cons]
      exact bind (hf r b) fun s _ => ih

/-- The node of a pair. -/
theorem dropping {x : Outcome (Raft × β)} (hx : SteadyWith bad r Prod.fst x) :
    Steady bad r (do let (r, _) ← x; return r) :=
  bind hx fun _ _ => same rfl

theorem withResult {x : Outcome Raft} {b : β} (hx : Steady bad r x) :
    SteadyWith bad r Prod.fst (do let r ← x; return (r, b)) :=
  bind hx fun _ _ => same rfl

end SteadyWith

namespace Raft

@[simp] lemma rank_modifyProgress (r : Raft) (id : Nat) (f : Progress → Progress) :
    (r.modifyProgress id f).rank = r.rank := by
  simp [rank, modifyProgress]

section

variable {bad : Crash → Prop} (hbad : Narrow bad) {r : Raft}

include hbad

/-! ## Sending -/

theorem send_steady (m : Message) : Steady bad r (r.send m) := by
  rw [send]
  dsimp only
  split
  · split
    · exact SteadyWith.throw hbad (by simp [LookupFails])
    · exact SteadyWith.same rfl
  split
  · exact SteadyWith.throw hbad (by simp [LookupFails])
  · exact SteadyWith.same rfl

theorem sendSnapshot_steady (toId : Nat) (pr : Progress) :
    SteadyWith bad r Prod.fst (r.sendSnapshot toId pr) := by
  rw [sendSnapshot]
  split
  · exact SteadyWith.same rfl
  dsimp only
  split
  · exact SteadyWith.throw hbad (by simp [LookupFails])
  · exact SteadyWith.behind _ (rank_modifyProgress ..) (SteadyWith.withResult (send_steady hbad _))

theorem sendEntries_steady (toId : Nat) (pr : Progress) (logTerm : Nat) (es : List Entry) :
    SteadyWith bad r Prod.fst (r.sendEntries toId pr logTerm es) := by
  refine SteadyWith.eval (pr.afterSending_avoids hbad es) fun pr' _ => ?_
  exact SteadyWith.behind _ (rank_modifyProgress ..) (SteadyWith.withResult (send_steady hbad _))

theorem maybeSendAppend_steady (toId : Nat) (sendIfEmpty : Bool) :
    SteadyWith bad r Prod.fst (r.maybeSendAppend toId sendIfEmpty) := by
  rw [maybeSendAppend]
  split
  · exact SteadyWith.throw hbad (by simp [LookupFails])
  split
  · exact SteadyWith.same rfl
  refine SteadyWith.eval (r.raftLog.entries_avoids hbad _ _) fun statusEntries _ => ?_
  dsimp only
  split
  · exact SteadyWith.same rfl
  split
  · exact sendEntries_steady hbad _ _ _ _
  · exact sendSnapshot_steady hbad _ _

theorem sendAppend_steady (toId : Nat) : Steady bad r (r.sendAppend toId) :=
  SteadyWith.dropping (maybeSendAppend_steady hbad _ _)

theorem drainAppends_steady (toId fuel : Nat) : ∀ r : Raft,
    Steady bad r (drainAppends toId fuel r) := by
  induction fuel with
  | zero => exact fun _ => SteadyWith.throw hbad (by simp [LookupFails])
  | succ fuel ih =>
      intro r
      rw [drainAppends]
      refine SteadyWith.bind (maybeSendAppend_steady hbad _ _) fun p _ => ?_
      dsimp only
      split
      · exact ih _
      · exact SteadyWith.same rfl

theorem sendHeartbeat_steady (toId : Nat) (ctx : Bytes) :
    Steady bad r (r.sendHeartbeat toId ctx) := by
  rw [sendHeartbeat]
  split
  · exact SteadyWith.throw hbad (by simp [LookupFails])
  · exact send_steady hbad _

omit hbad in
theorem forEachPeer_steady {f : Raft → Nat → Outcome Raft} (hf : ∀ s i, Steady bad s (f s i)) :
    Steady bad r (r.forEachPeer f) := by
  refine SteadyWith.foldlM fun s i => ?_
  split
  · exact SteadyWith.same rfl
  · exact hf s i

theorem bcastAppend_steady : Steady bad r r.bcastAppend :=
  forEachPeer_steady fun _ _ => sendAppend_steady hbad _

theorem bcastHeartbeatWithCtx_steady (ctx : Bytes) : Steady bad r (r.bcastHeartbeatWithCtx ctx) :=
  forEachPeer_steady fun _ _ => sendHeartbeat_steady hbad _ _

theorem sendAfterAck_steady (toId : Nat) (committed oldPaused : Bool) :
    Steady bad r (r.sendAfterAck toId committed oldPaused) := by
  rw [sendAfterAck]
  split
  · exact bcastAppend_steady hbad
  split
  · exact sendAppend_steady hbad _
  · exact SteadyWith.same rfl

theorem finishTransfer_steady (toId matched : Nat) :
    Steady bad r (r.finishTransfer toId matched) := by
  rw [finishTransfer]
  split
  · exact send_steady hbad _
  · exact SteadyWith.same rfl

theorem sendIfBehind_steady (toId matched : Nat) : Steady bad r (r.sendIfBehind toId matched) := by
  rw [sendIfBehind]
  split
  · exact sendAppend_steady hbad _
  · exact SteadyWith.same rfl

theorem forwardToLead_steady (m : Message) : SteadyWith bad r Prod.fst (r.forwardToLead m) :=
  SteadyWith.withResult (send_steady hbad _)

/-! ## Proposals and commits -/

theorem maybeCommit_steady (hvoters : bad (Crash.outOfRange "match_buf_") → r.prs.keys ≠ []) :
    SteadyWith bad r Prod.fst r.maybeCommit := by
  have hlength : r.sortedMatches.length = r.prs.keys.length := by
    rw [sortedMatches, List.length_insertionSort, List.length_map, AList.keys, List.keys,
      List.length_map]
  have hthrow : r.prs.keys = [] →
      SteadyWith bad r Prod.fst (throw (Crash.outOfRange "match_buf_") : Outcome (Raft × Bool)) :=
    fun hnone => ⟨Avoids.throw fun hb => hvoters hb hnone, fun _ hb => by cases hb⟩
  rw [maybeCommit]
  split
  · rename_i hshort
    refine hthrow (List.eq_nil_of_length_eq_zero ?_)
    rw [hlength, quorum] at hshort
    omega
  split
  · rename_i hnone
    refine hthrow (List.eq_nil_of_length_eq_zero ?_)
    rw [List.getElem?_eq_none_iff, hlength, quorum] at hnone
    omega
  · exact SteadyWith.eval (r.raftLog.maybeCommit_avoids hbad _ _) fun _ _ => SteadyWith.same rfl

variable (hmatch : ¬ bad (Crash.outOfRange "match_buf_"))

include hmatch

theorem appendEntry_steady (es : List Entry) : SteadyWith bad r Prod.fst (r.appendEntry es) := by
  rw [appendEntry]
  dsimp only
  split
  · exact SteadyWith.same rfl
  rename_i r₁ hsize
  have hrank : r₁.rank = r.rank := by
    rw [increaseUncommittedSize] at hsize
    split at hsize
    · cases hsize
    · cases hsize
      rfl
  refine SteadyWith.behind _ hrank ?_
  refine SteadyWith.eval (r₁.raftLog.append_avoids hbad _) fun p _ => ?_
  split
  · exact SteadyWith.throw hbad (by simp [LookupFails])
  · refine SteadyWith.behind _
      (rank_modifyProgress { r₁ with raftLog := p.1 } r₁.id fun q => (q.maybeUpdate p.2).1) ?_
    exact SteadyWith.bind (maybeCommit_steady hbad fun hb => absurd hb hmatch) fun _ _ =>
      SteadyWith.same rfl

/-! ## Roles -/

omit hmatch

theorem reset_avoids (term : Nat) : Avoids bad (r.reset term) := by
  rw [reset]
  split
  · exact hbad.throw (by simp [LookupFails])
  · exact Avoids.pure

theorem becomeFollower_steady (term lead : Nat) : Steady bad r (r.becomeFollower term lead) := by
  refine SteadyWith.eval (reset_avoids hbad _) fun r₁ hreset => ?_
  obtain rfl := reset_eq_ok hreset
  exact SteadyWith.pure (VoterRises.follower rfl rfl)

omit hbad in
@[simp] lemma keys_resetTo (term : Nat) : (r.resetTo term).prs.keys = r.prs.keys := by
  simp [resetTo]

omit hbad in
lemma mem_resetTo (h : r.id ∈ r.prs) (term : Nat) : r.id ∈ (r.resetTo term).prs := by
  rwa [AList.mem_keys, keys_resetTo, ← AList.mem_keys]

theorem becomeCandidate_steady (hself : r.id ∈ r.prs) : Steady bad r r.becomeCandidate := by
  rw [becomeCandidate]
  split
  · exact SteadyWith.throw hbad (by simp [LookupFails])
  refine SteadyWith.eval (reset_avoids hbad _) fun r₁ hreset => ?_
  obtain rfl := reset_eq_ok hreset
  exact SteadyWith.pure (VoterRises.voter rfl (keys_resetTo (r.term + 1)) hself)

theorem becomePreCandidate_steady (hself : r.id ∈ r.prs) : Steady bad r r.becomePreCandidate := by
  rw [becomePreCandidate]
  split
  · exact SteadyWith.throw hbad (by simp [LookupFails])
  · exact SteadyWith.pure (VoterRises.voter rfl rfl hself)

theorem requestVotes_steady (voteMsg : MessageType) (term : Nat) (context : Bytes) :
    Steady bad r (r.requestVotes voteMsg term context) := by
  refine SteadyWith.foldlM fun s toId => ?_
  split
  · exact SteadyWith.same rfl
  · exact SteadyWith.eval (s.raftLog.lastTerm_avoids hbad) fun _ _ => send_steady hbad _

theorem stepVote_steady (m : Message) : Steady bad r (r.stepVote m) := by
  rw [stepVote]
  split
  · exact SteadyWith.same rfl
  refine SteadyWith.eval ?_ fun granted _ => ?_
  · rw [grantsVote]
    split
    · exact r.raftLog.isUpToDate_avoids hbad _ _
    · exact Avoids.pure
  refine SteadyWith.eval (voteRespMsgType_avoids hbad _) fun respType _ => ?_
  split
  · refine SteadyWith.bind (send_steady hbad _) fun r₁ _ => ?_
    split
    · exact SteadyWith.same rfl
    · exact SteadyWith.same rfl
  · exact send_steady hbad _

include hmatch

theorem becomeLeader_steady (hself : r.id ∈ r.prs) : Steady bad r r.becomeLeader := by
  rw [becomeLeader]
  split
  · exact SteadyWith.throw hbad (by simp [LookupFails])
  refine SteadyWith.eval (reset_avoids hbad _) fun r₁ hreset => ?_
  obtain rfl := reset_eq_ok hreset
  dsimp only
  split
  · rename_i hnone
    exact absurd (mem_resetTo hself _) hnone
  refine SteadyWith.after (r.elected) (VoterRises.voter rfl ?_ hself) ?_
  · simp [elected, resetTo]
  refine SteadyWith.bind (appendEntry_steady hbad hmatch _) fun p _ => ?_
  split
  · exact SteadyWith.throw hbad (by simp [LookupFails])
  · exact SteadyWith.same rfl

theorem campaignElection_steady (hself : r.id ∈ r.prs) (context : Bytes) :
    Steady bad r (r.campaignElection context) := by
  refine SteadyWith.bind (becomeCandidate_steady hbad hself) fun r₁ hr₁ => ?_
  have hself₁ : r₁.id ∈ r₁.prs := by
    rw [becomeCandidate] at hr₁
    split at hr₁
    · cases hr₁
    obtain ⟨r₂, hreset, hr₁⟩ := Outcome.bind_eq_ok.mp hr₁
    obtain rfl := reset_eq_ok hreset
    cases hr₁
    exact mem_resetTo hself (r.term + 1)
  dsimp only
  refine SteadyWith.behind ((r₁.poll r₁.id true).1) rfl ?_
  split
  · refine becomeLeader_steady hbad hmatch ?_
    exact hself₁
  · exact requestVotes_steady hbad _ _ _

theorem campaignPreElection_steady (hself : r.id ∈ r.prs) :
    Steady bad r r.campaignPreElection := by
  refine SteadyWith.bind (becomePreCandidate_steady hbad hself) fun r₁ hr₁ => ?_
  have hself₁ : r₁.id ∈ r₁.prs := by
    rw [becomePreCandidate] at hr₁
    split at hr₁
    · cases hr₁
    · cases hr₁
      exact hself
  dsimp only
  refine SteadyWith.behind ((r₁.poll r₁.id true).1) rfl ?_
  split
  · refine campaignElection_steady hbad hmatch ?_ _
    exact hself₁
  · exact requestVotes_steady hbad _ _ _

theorem campaign_steady (hself : r.id ∈ r.prs) (t : CampaignType) : Steady bad r (r.campaign t) := by
  cases t with
  | preElection => exact campaignPreElection_steady hbad hmatch hself
  | election => exact campaignElection_steady hbad hmatch hself _
  | transfer => exact campaignElection_steady hbad hmatch hself _

omit hmatch

/-! ## Followers -/

theorem handleAppendEntries_steady (m : Message) : Steady bad r (r.handleAppendEntries m) := by
  rw [handleAppendEntries]
  split
  · exact send_steady hbad _
  refine SteadyWith.eval (r.raftLog.maybeAppend_avoids hbad _ _ _ _) fun p _ => ?_
  refine SteadyWith.behind ({ r with raftLog := p.1 }) rfl ?_
  dsimp only
  split
  · exact send_steady hbad _
  · exact send_steady hbad _

theorem handleHeartbeat_steady (m : Message) : Steady bad r (r.handleHeartbeat m) := by
  refine SteadyWith.eval (r.raftLog.commitTo_avoids hbad _) fun l _ => ?_
  exact SteadyWith.behind ({ r with raftLog := l }) rfl (send_steady hbad _)

theorem restoreNode_avoids (nodes : List Nat) (isLearner : Bool) :
    Avoids bad (r.restoreNode nodes isLearner) := by
  refine Avoids.foldlM (P := fun _ => True) (fun s node _ _ => ?_) (fun _ _ _ _ _ _ => trivial) trivial
  refine Avoids.bind ?_ fun s₁ _ => ?_
  · rw [setProgress]
    dsimp only
    split
    · exact Avoids.pure
    split
    · exact hbad.throw (by simp [LookupFails])
    · exact Avoids.pure
  · split
    · exact hbad.throw (by simp [LookupFails])
    · exact Avoids.pure

theorem restore_avoids (s : Snapshot) : Avoids bad (r.restore s) := by
  rw [restore]
  split
  · exact Avoids.pure
  split
  · exact Avoids.bind (r.raftLog.commitTo_avoids hbad _) fun _ _ => Avoids.pure
  split
  · exact Avoids.pure
  · refine Avoids.bind (restoreNode_avoids hbad _ _) fun _ _ => ?_
    exact Avoids.bind (restoreNode_avoids hbad _ _) fun _ _ => Avoids.pure

/-- Only a follower is given a snapshot, and it stays one. -/
theorem handleSnapshot_steady (hs : r.state = RaftState.follower) (m : Message) :
    Steady bad r (r.handleSnapshot m) := by
  have hrestore : SteadyWith bad r Prod.fst (r.restore m.snapshot) := by
    refine ⟨restore_avoids hbad _, fun p hp => ?_⟩
    rcases restore_cases hp with ⟨-, hr', -⟩ | ⟨-, -, -, -, hr'⟩ | ⟨-, -, -, -, hr'⟩
    · rw [hr']
      exact VoterRises.refl r
    · rw [hr']
      exact VoterRises.of_rank rfl
    · refine VoterRises.follower ?_ ?_
      · rw [hr']
      · rw [hr']
        exact hs
  exact SteadyWith.bind hrestore fun p _ => send_steady hbad _

/-- A follower campaigns when it is told to, and only as a voter. -/
theorem stepFollower_steady (hmatch : ¬ bad (Crash.outOfRange "match_buf_"))
    (hs : r.state = RaftState.follower) (m : Message) :
    SteadyWith bad r Prod.fst (r.stepFollower m) := by
  have hheard : ∀ lead, ({ r with electionElapsed := 0, lead := lead } : Raft).rank = r.rank :=
    fun _ => rfl
  rw [stepFollower]
  split
  · split
    · exact SteadyWith.same rfl
    split
    · exact SteadyWith.same rfl
    · exact forwardToLead_steady hbad _
  · exact SteadyWith.behind _ (hheard m.fromId)
      (SteadyWith.withResult (handleAppendEntries_steady hbad _))
  · exact SteadyWith.behind _ (hheard m.fromId) (SteadyWith.withResult (handleHeartbeat_steady hbad _))
  · refine SteadyWith.behind _ (hheard m.fromId) (SteadyWith.withResult ?_)
    refine handleSnapshot_steady hbad ?_ _
    exact hs
  · split
    · exact SteadyWith.same rfl
    · exact forwardToLead_steady hbad _
  · split
    · rename_i hpromotable
      exact SteadyWith.withResult
        (campaign_steady hbad hmatch (of_decide_eq_true hpromotable) _)
    · exact SteadyWith.same rfl
  · split
    · exact SteadyWith.same rfl
    · exact forwardToLead_steady hbad _
  · split
    · exact SteadyWith.same rfl
    · exact SteadyWith.same rfl
  · exact SteadyWith.same rfl

/-! ## Candidates -/

/-- The answer completes the votes that a candidate needs, or the pre-votes. -/
structure Decides (r : Raft) (m : Message) : Prop where
  answer : m.type = MessageType.msgVoteResp ∨ m.type = MessageType.msgPreVoteResp
  timely : m.term = 0 ∨ m.term = r.term ∨
    m.type = MessageType.msgPreVoteResp ∧ m.reject = false ∧ r.term < m.term
  role : r.state = RaftState.candidate ∨ r.state = RaftState.preCandidate
  quorum : r.quorum = (r.poll m.fromId (!m.reject)).2

omit hbad in
lemma decides_iff {m : Message} : r.Decides m ↔
    (m.type = MessageType.msgVoteResp ∨ m.type = MessageType.msgPreVoteResp) ∧
    (m.term = 0 ∨ m.term = r.term ∨
      m.type = MessageType.msgPreVoteResp ∧ m.reject = false ∧ r.term < m.term) ∧
    (r.state = RaftState.candidate ∨ r.state = RaftState.preCandidate) ∧
    r.quorum = (r.poll m.fromId (!m.reject)).2 :=
  ⟨fun h => ⟨h.answer, h.timely, h.role, h.quorum⟩, fun h => ⟨h.1, h.2.1, h.2.2.1, h.2.2.2⟩⟩

instance (r : Raft) (m : Message) : Decidable (r.Decides m) := decidable_of_iff _ decides_iff.symm

theorem stepVoteResp_steady (hmatch : ¬ bad (Crash.outOfRange "match_buf_")) (m : Message)
    (h : r.quorum = (r.poll m.fromId (!m.reject)).2 → r.id ∈ r.prs) :
    Steady bad r (r.stepVoteResp m) := by
  rw [stepVoteResp]
  dsimp only
  have hpoll : (r.poll m.fromId (!m.reject)).1.rank = r.rank := rfl
  split
  · rename_i hwon
    have hself : (r.poll m.fromId (!m.reject)).1.id ∈ (r.poll m.fromId (!m.reject)).1.prs := h hwon
    refine SteadyWith.behind _ hpoll ?_
    split
    · exact campaign_steady hbad hmatch hself _
    split
    · exact SteadyWith.throw hbad (by simp [LookupFails])
    · exact SteadyWith.bind (becomeLeader_steady hbad hmatch hself) fun _ _ =>
        bcastAppend_steady hbad
  split
  · exact SteadyWith.behind _ hpoll (becomeFollower_steady hbad _ _)
  · exact SteadyWith.same rfl

theorem stepCandidate_steady (hmatch : ¬ bad (Crash.outOfRange "match_buf_")) (m : Message)
    (h : (m.type = MessageType.msgVoteResp ∨ m.type = MessageType.msgPreVoteResp) →
      r.quorum = (r.poll m.fromId (!m.reject)).2 → r.id ∈ r.prs) :
    SteadyWith bad r Prod.fst (r.stepCandidate m) := by
  rw [stepCandidate]
  split
  · exact SteadyWith.same rfl
  · exact SteadyWith.bind (becomeFollower_steady hbad _ _) fun _ _ =>
      SteadyWith.withResult (handleAppendEntries_steady hbad _)
  · exact SteadyWith.bind (becomeFollower_steady hbad _ _) fun _ _ =>
      SteadyWith.withResult (handleHeartbeat_steady hbad _)
  · refine SteadyWith.bind (becomeFollower_steady hbad _ _) fun r₁ hr₁ => ?_
    have hs : r₁.state = RaftState.follower := by rw [becomeFollower_eq_ok hr₁]
    exact SteadyWith.withResult (handleSnapshot_steady hbad hs _)
  · rename_i htype
    exact SteadyWith.withResult (stepVoteResp_steady hbad hmatch m (h (Or.inr htype)))
  · rename_i htype
    exact SteadyWith.withResult (stepVoteResp_steady hbad hmatch m (h (Or.inl htype)))
  · exact SteadyWith.same rfl

/-! ## Leaders -/

theorem respondRead_steady (req : Message) (index : Nat) :
    Steady bad r (r.respondRead req index) := by
  rw [respondRead]
  split
  · exact SteadyWith.eval (req.readContext_avoids hbad) fun _ _ => SteadyWith.same rfl
  · exact send_steady hbad _

theorem stepLeaderReadIndex_steady (m : Message) : Steady bad r (r.stepLeaderReadIndex m) := by
  rw [stepLeaderReadIndex]
  split
  · split
    · exact SteadyWith.same rfl
    split
    · refine SteadyWith.eval (r.readOnly.addRequest_avoids hbad _ _) fun readOnly _ => ?_
      refine SteadyWith.eval (m.readContext_avoids hbad) fun ctx _ => ?_
      exact SteadyWith.behind ({ r with readOnly := readOnly }) rfl
        (bcastHeartbeatWithCtx_steady hbad _)
    · exact respondRead_steady hbad _ _
  · exact SteadyWith.eval (m.readContext_avoids hbad) fun _ _ => SteadyWith.same rfl

theorem releaseReads_steady (m : Message) : Steady bad r (r.releaseReads m) := by
  rw [releaseReads]
  split
  · exact SteadyWith.same rfl
  dsimp only
  split
  · exact SteadyWith.same rfl
  · refine SteadyWith.eval (ReadOnly.advance_avoids hbad _ _) fun p _ => ?_
    exact SteadyWith.behind ({ r with readOnly := p.1 }) rfl
      (SteadyWith.foldlM fun _ _ => respondRead_steady hbad _ _)

theorem stepRejected_steady (m : Message) (pr : Progress) : Steady bad r (r.stepRejected m pr) := by
  rw [stepRejected]
  dsimp only
  split
  · exact SteadyWith.behind _ (rank_modifyProgress ..) (sendAppend_steady hbad _)
  · exact SteadyWith.same (rank_modifyProgress ..)

theorem stepHeartbeatResp_steady (m : Message) (pr : Progress) :
    Steady bad r (r.stepHeartbeatResp m pr) := by
  refine SteadyWith.eval (pr.heartbeatAnswered_avoids hbad) fun pr' _ => ?_
  refine SteadyWith.behind _ (rank_modifyProgress r m.fromId fun _ => pr') ?_
  exact SteadyWith.bind (sendIfBehind_steady hbad _ _) fun _ _ => releaseReads_steady hbad _

theorem stepTransferLeader_steady (m : Message) (pr : Progress) :
    Steady bad r (r.stepTransferLeader m pr) := by
  rw [stepTransferLeader]
  split
  · exact SteadyWith.same rfl
  split
  · exact SteadyWith.same rfl
  dsimp only
  split
  · exact SteadyWith.same rfl
  · refine SteadyWith.behind ({ r with electionElapsed := 0, leadTransferee := m.fromId }) rfl ?_
    split
    · exact send_steady hbad _
    · exact sendAppend_steady hbad _

theorem stepAcknowledged_steady (hmatch : ¬ bad (Crash.outOfRange "match_buf_")) (m : Message)
    (pr : Progress) : Steady bad r (r.stepAcknowledged m pr) := by
  rw [stepAcknowledged]
  dsimp only
  split
  · refine SteadyWith.eval (Progress.acknowledged_avoids hbad _ _) fun pr' _ => ?_
    refine SteadyWith.behind _ (rank_modifyProgress r m.fromId fun _ => pr') ?_
    refine SteadyWith.bind (maybeCommit_steady hbad fun hb => absurd hb hmatch) fun p _ => ?_
    refine SteadyWith.bind (sendAfterAck_steady hbad _ _ _) fun r₂ _ => ?_
    refine SteadyWith.bind (drainAppends_steady hbad _ _ _) fun r₃ _ => ?_
    exact finishTransfer_steady hbad _ _
  · exact SteadyWith.same (rank_modifyProgress ..)

theorem stepLeaderPeer_steady (hmatch : ¬ bad (Crash.outOfRange "match_buf_")) (m : Message)
    (pr : Progress) : Steady bad r (r.stepLeaderPeer m pr) := by
  rw [stepLeaderPeer]
  split
  · rw [stepAppResp]
    split
    · exact stepRejected_steady hbad _ _
    · exact stepAcknowledged_steady hbad hmatch _ _
  · exact stepHeartbeatResp_steady hbad _ _
  · refine SteadyWith.same ?_
    rw [stepSnapStatus]
    split
    · rfl
    · exact rank_modifyProgress ..
  · refine SteadyWith.same ?_
    rw [stepUnreachable]
    split
    · exact rank_modifyProgress ..
    · rfl
  · exact stepTransferLeader_steady hbad _ _
  · exact SteadyWith.same rfl

theorem stepLeaderProp_steady (hmatch : ¬ bad (Crash.outOfRange "match_buf_")) (m : Message) :
    SteadyWith bad r Prod.fst (r.stepLeaderProp m) := by
  rw [stepLeaderProp]
  split
  · exact SteadyWith.throw hbad (by simp [LookupFails])
  split
  · exact SteadyWith.same rfl
  split
  · exact SteadyWith.same rfl
  generalize admitConfChanges r.raftLog.lastIndex r.raftLog.applied 0 r.pendingConfIndex m.entries =
    admitted
  refine SteadyWith.behind { r with pendingConfIndex := admitted.2 } rfl ?_
  refine SteadyWith.bind (appendEntry_steady hbad hmatch _) fun p _ => ?_
  dsimp only
  split
  · exact SteadyWith.same rfl
  · exact SteadyWith.withResult (bcastAppend_steady hbad)

theorem stepLeader_steady (hmatch : ¬ bad (Crash.outOfRange "match_buf_")) (m : Message) :
    SteadyWith bad r Prod.fst (r.stepLeader m) := by
  rw [stepLeader]
  split
  · exact SteadyWith.withResult (bcastHeartbeatWithCtx_steady hbad _)
  · split
    · exact SteadyWith.same rfl
    · exact SteadyWith.withResult (becomeFollower_steady hbad _ _)
  · exact stepLeaderProp_steady hbad hmatch _
  · exact SteadyWith.withResult (stepLeaderReadIndex_steady hbad _)
  · split
    · exact SteadyWith.same rfl
    · exact SteadyWith.withResult (stepLeaderPeer_steady hbad hmatch _ _)

/-! ## Every message, and the clock -/

theorem checkTerm_steady (m : Message) : SteadyWith bad r Prod.fst (r.checkTerm m) := by
  rw [checkTerm]
  split
  · exact SteadyWith.same rfl
  split
  · split
    · exact SteadyWith.same rfl
    refine SteadyWith.withResult ?_
    rw [stepHigherTerm]
    split
    · exact SteadyWith.same rfl
    · split
      · exact becomeFollower_steady hbad _ _
      · exact SteadyWith.same rfl
    · exact becomeFollower_steady hbad _ _
    · exact becomeFollower_steady hbad _ _
    · exact becomeFollower_steady hbad _ _
    · exact becomeFollower_steady hbad _ _
  split
  · refine SteadyWith.withResult ?_
    rw [stepLowerTerm]
    split
    · exact send_steady hbad _
    split
    · exact send_steady hbad _
    · exact SteadyWith.same rfl
  · exact SteadyWith.same rfl

omit hbad in
/-- An answer that a candidate handles leaves it as it is until then. -/
lemma checkTerm_candidate {r₁ : Raft} {m : Message} (h : r.checkTerm m = Except.ok (r₁, true))
    (hs : r₁.state ≠ RaftState.follower)
    (hm : m.type = MessageType.msgVoteResp ∨ m.type = MessageType.msgPreVoteResp) :
    r₁ = r ∧ (m.term = 0 ∨ m.term = r.term ∨
      m.type = MessageType.msgPreVoteResp ∧ m.reject = false ∧ r.term < m.term) := by
  have hfell : ∀ {term lead}, r.becomeFollower term lead = Except.ok r₁ → False := by
    intro term lead hr₁
    rw [becomeFollower_eq_ok hr₁] at hs
    exact hs rfl
  rw [checkTerm] at h
  split_ifs at h with hzero hhigher hlease hlower
  · cases h
    exact ⟨rfl, Or.inl hzero⟩
  · cases h
  · obtain ⟨r₂, hstep, h⟩ := Outcome.bind_eq_ok.mp h
    cases h
    rw [stepHigherTerm] at hstep
    rcases hm with htype | htype
    · rw [htype] at hstep
      exact absurd hstep hfell
    · rw [htype] at hstep
      dsimp only at hstep
      split at hstep
      · exact absurd hstep hfell
      · rename_i hgranted
        cases hstep
        exact ⟨rfl, Or.inr (Or.inr ⟨htype, by simpa using hgranted, hhigher⟩)⟩
  · obtain ⟨r₂, hstep, h⟩ := Outcome.bind_eq_ok.mp h
    cases h
  · cases h
    exact ⟨rfl, Or.inr (Or.inl (by omega))⟩

/-- The committed entries that are not applied. -/
def unapplied (r : Raft) : List Entry :=
  ((r.raftLog.slice (r.raftLog.applied + 1) (r.raftLog.committed + 1)
    RaftLog.unlimited).toOption.bind Except.toOption).getD []

/-- A committed configuration change that is not applied keeps the node from campaigning. -/
def HeldBack (r : Raft) : Prop :=
  numOfPendingConf r.unapplied > 0 ∧ r.raftLog.committed > r.raftLog.applied

instance (r : Raft) : Decidable r.HeldBack := inferInstanceAs (Decidable (_ ∧ _))

/-- `MsgHup` does not ask whether the node is a voter. -/
theorem stepHup_steady (hmatch : ¬ bad (Crash.outOfRange "match_buf_"))
    (h : r.id ∈ r.prs ∨ r.state = RaftState.leader ∨ r.HeldBack) : Steady bad r r.stepHup := by
  rw [stepHup]
  split
  · exact SteadyWith.same rfl
  rename_i hleader
  refine SteadyWith.eval (r.raftLog.slice_avoids hbad _ _ _) fun status hslice => ?_
  split
  · exact SteadyWith.throw hbad (by simp [LookupFails])
  split
  · exact SteadyWith.same rfl
  rename_i hfree
  refine campaign_steady hbad hmatch ?_ _
  rcases h with hself | hs | ⟨hpending, hcommitted⟩
  · exact hself
  · exact absurd hs hleader
  · rw [unapplied, hslice] at hpending
    exact absurd ⟨hpending, hcommitted⟩ hfree

/-- A message with which a node that is no voter does not rise. -/
structure Harmless (r : Raft) (m : Message) : Prop where
  hup : m.type = MessageType.msgHup → r.id ∈ r.prs ∨ r.state = RaftState.leader ∨ r.HeldBack
  vote : r.Decides m → r.id ∈ r.prs

theorem step_steady (hmatch : ¬ bad (Crash.outOfRange "match_buf_")) {m : Message}
    (hlocal : m.type = MessageType.msgHup → m.term = 0) (h : r.Harmless m) :
    SteadyWith bad r Prod.fst (r.step m) := by
  refine SteadyWith.bind (checkTerm_steady hbad m) fun p hp => ?_
  obtain ⟨r₁, continues⟩ := p
  dsimp only
  split
  · exact SteadyWith.same rfl
  rename_i hcontinues
  split
  · rename_i htype
    rw [checkTerm, if_pos (hlocal htype)] at hp
    cases hp
    exact SteadyWith.withResult (stepHup_steady hbad hmatch (h.hup htype))
  · exact SteadyWith.withResult (stepVote_steady hbad _)
  · exact SteadyWith.withResult (stepVote_steady hbad _)
  · have hcandidate : r₁.state = RaftState.candidate ∨ r₁.state = RaftState.preCandidate →
        SteadyWith bad r₁ Prod.fst (r₁.stepCandidate m) := by
      intro hs
      refine stepCandidate_steady hbad hmatch m fun hanswer hquorum => ?_
      have hs' : r₁.state ≠ RaftState.follower := by
        rcases hs with hs | hs
        · rw [hs]
          decide
        · rw [hs]
          decide
      rw [not_not] at hcontinues
      rw [hcontinues] at hp
      obtain ⟨rfl, htimely⟩ := checkTerm_candidate hp hs' hanswer
      exact h.vote ⟨hanswer, htimely, hs, hquorum⟩
    rw [stepRole]
    split
    · rename_i hs
      exact stepFollower_steady hbad hmatch hs _
    · rename_i hs
      exact hcandidate (Or.inl hs)
    · rename_i hs
      exact hcandidate (Or.inr hs)
    · exact stepLeader_steady hbad hmatch _

/-- The messages that the clock steps the node with. -/
lemma step_local_steady (hmatch : ¬ bad (Crash.outOfRange "match_buf_")) {t : MessageType}
    (ht : t = MessageType.msgCheckQuorum ∨ t = MessageType.msgBeat ∨
      t = MessageType.msgHup ∧ r.id ∈ r.prs) (fromId : Nat) :
    Steady bad r (do let (r, _) ← r.step { type := t, fromId := fromId }; return r) := by
  refine SteadyWith.dropping (step_steady hbad hmatch (fun _ => rfl) ⟨fun htype => ?_, fun h => ?_⟩)
  · rcases ht with rfl | rfl | ⟨rfl, hself⟩
    · cases htype
    · cases htype
    · exact Or.inl hself
  · rcases ht with rfl | rfl | ⟨rfl, hself⟩
    · rcases h.answer with htype | htype <;> cases htype
    · rcases h.answer with htype | htype <;> cases htype
    · exact hself

/-- **The clock lets only voters rise.** -/
theorem tick_steady (hmatch : ¬ bad (Crash.outOfRange "match_buf_")) : Steady bad r r.tick := by
  have hheartbeat : ∀ s : Raft, Steady bad s s.heartbeatTick := by
    intro s
    rw [heartbeatTick]
    split
    · exact SteadyWith.same rfl
    split
    · exact SteadyWith.behind { s with heartbeatElapsed := 0 } rfl
        (step_local_steady hbad hmatch (Or.inr (Or.inl rfl)) _)
    · exact SteadyWith.same rfl
  have hpassed : ∀ s : Raft, Steady bad s s.electionTimeoutPassed := by
    intro s
    have hquorum : Steady bad s s.checkQuorumTick := by
      rw [checkQuorumTick]
      split
      · exact step_local_steady hbad hmatch (Or.inl rfl) _
      · exact SteadyWith.same rfl
    refine SteadyWith.bind hquorum fun s₁ _ => ?_
    split
    · exact SteadyWith.same rfl
    · exact SteadyWith.same rfl
  rw [tick]
  split
  · rw [tickHeartbeat]
    dsimp only
    split
    · refine SteadyWith.behind
        { r with heartbeatElapsed := r.heartbeatElapsed + 1, electionElapsed := 0 } rfl ?_
      exact SteadyWith.bind (hpassed _) fun s _ => hheartbeat s
    · exact SteadyWith.behind { r with
        heartbeatElapsed := r.heartbeatElapsed + 1
        electionElapsed := r.electionElapsed + 1 } rfl (hheartbeat _)
  · rw [tickElection]
    dsimp only
    split
    · rename_i hdue
      refine SteadyWith.behind { r with electionElapsed := 0 } rfl ?_
      refine step_local_steady hbad hmatch (Or.inr (Or.inr ⟨rfl, ?_⟩)) _
      exact of_decide_eq_true hdue.1
    · exact SteadyWith.same rfl

end

end Raft

end RaftKv
