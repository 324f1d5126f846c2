import RaftKv.Driver.Campaigns
import RaftKv.Raft.Candidacies

/-!
# How a candidacy goes on, call by call

* `Driver.Course` — what a call makes of a candidacy.
* `Driver.act_course` — **every call but a leadership transfer takes one of these courses**, on a node
  that uses the pre-vote.
* `Driver.act_outbox` — what a call queues, and that a `Ready` takes the whole queue.
-/

namespace RaftKv

open Raft

/-- The calls that start a campaign. -/
def Call.hups : Call → Bool
  | Call.tick | Call.campaign => true
  | _ => false

/-- The call removes a voter whose vote counts for a pre-candidate. -/
def Call.Disowns (r : Raft) : Call → Prop
  | Call.applyConfChange cc => r.state = RaftState.preCandidate ∧
      cc.confChangeType = ConfChangeType.removeNode ∧ r.votes.lookup cc.nodeId = some true
  | _ => False

instance (r : Raft) : (c : Call) → Decidable (c.Disowns r)
  | Call.applyConfChange _ => inferInstanceAs (Decidable (_ ∧ _))
  | Call.tick | Call.campaign | Call.propose _ | Call.proposeConfChange _ | Call.step _
  | Call.transferLeadership _ _ | Call.readIndex _ | Call.reportUnreachable _
  | Call.reportSnapshot _ _ | Call.ready | Call.store | Call.advance =>
      inferInstanceAs (Decidable False)

namespace Driver

variable {pack : ConfChange → Bytes} {d d' : Driver} {n n' : RawNode} {c : Call} {r r' : Raft}

/-- What a call makes of a candidacy. -/
inductive Course (c : Call) (r r' : Raft) : Prop
  | keeps (h : KeepsRole r r')
      (hquiet : c.hups = true → r'.state = RaftState.preCandidate → r'.msgs = r.msgs)
  | prepared (hc : c.hups = true) (hvoter : r.id ∈ r.prs) (h : Prepared r r')
  /-- The node needs no vote but its own. -/
  | alone (hc : c.hups = true) (hvoter : r.id ∈ r.prs) (hquorum : r.quorum = 1) (h : Stood r r')
  | counted {m : Message} (hc : c = Call.step m) (hknown : r.getProgress m.fromId ≠ none)
      (hcounts : r.Counts m) (h : r' = (r.poll m.fromId (!m.reject)).1)
  | won {m : Message} (hc : c = Call.step m) (hknown : r.getProgress m.fromId ≠ none)
      (hcounts : r.Counts m) (hquorum : r.quorum = (r.poll m.fromId (!m.reject)).2)
      (h : Stood r r')

lemma Course.of_keeps (hc : c.hups = false) (h : KeepsRole r r') : Course c r r' :=
  Course.keeps h fun htrue => by rw [hc] at htrue; cases htrue

/-- A message that neither starts a campaign nor answers a candidate. -/
lemma stepRaft_keepsRole {m : Message} {status : Status} (hhup : m.type ≠ MessageType.msgHup)
    (htimeout : m.type ≠ MessageType.msgTimeoutNow) (hanswer : answersVote m.type = false)
    (h : n.stepRaft m = Except.ok (n', status)) : KeepsRole n.raft n'.raft := by
  obtain ⟨⟨r, s⟩, hstep, h⟩ := Outcome.bind_eq_ok.mp h
  cases h
  exact step_keepsRole hhup htimeout hanswer hstep

/-- A message from the network. -/
lemma step_course {m : Message} {status : Status}
    (htimeout : m.type ≠ MessageType.msgTimeoutNow)
    (h : n.step m = Except.ok (n', status)) : Course (Call.step m) n.raft n'.raft := by
  rw [RawNode.step] at h
  split at h
  · cases h
    exact Course.of_keeps rfl (KeepsRole.refl _)
  rename_i hlocal
  split at h
  · rename_i hknown
    by_cases hanswer : answersVote m.type = true
    · obtain ⟨⟨r, s⟩, hstep, h⟩ := Outcome.bind_eq_ok.mp h
      cases h
      have hpeer : n.raft.getProgress m.fromId ≠ none := by
        refine Option.isSome_iff_ne_none.mp (hknown.resolve_right fun hresponse => hresponse ?_)
        rcases answersVote_iff.mp hanswer with ht | ht <;> rw [Message.isResponseMsg, ht] <;> rfl
      rcases stepAnswer_cases hanswer hstep with hkeeps | ⟨hcounts, hr | ⟨hquorum, hstood⟩⟩
      · exact Course.of_keeps rfl hkeeps
      · exact Course.counted rfl hpeer hcounts hr
      · exact Course.won rfl hpeer hcounts hquorum hstood
    · refine Course.of_keeps rfl (stepRaft_keepsRole (fun ht => hlocal ?_) htimeout ?_ h)
      · rw [Message.isLocalMsg, ht]
        rfl
      · exact Bool.eq_false_iff.mpr hanswer
  · cases h
    exact Course.of_keeps rfl (KeepsRole.refl _)

/-- A campaign of an eligible node. -/
lemma campaign_course {status : Status} (hpre : n.raft.preVote = true)
    (hc : Call.campaign.Eligible n) (h : n.campaign = Except.ok (n', status)) :
    Course Call.campaign n.raft n'.raft := by
  obtain ⟨⟨r, s⟩, hstep, h⟩ := Outcome.bind_eq_ok.mp h
  cases h
  rcases stepHup_cases hpre (step_hup hstep) with rfl | ⟨hleader, hfree, hcampaign⟩
  · exact Course.keeps (KeepsRole.refl _) fun _ _ => rfl
  have hvoter : n.raft.id ∈ n.raft.prs :=
    hc.resolve_right fun hidle => hidle.elim hleader hfree
  rcases hcampaign with hprepared | ⟨hstood, hquorum⟩
  · exact Course.prepared rfl hvoter hprepared
  · exact Course.alone rfl hvoter hquorum hstood

/-- **The course of a candidacy**: the call is no leadership transfer, starts no campaign on a node
that is no voter, and removes no voter whose vote counts. -/
theorem act_course (hpre : d.node.raft.preVote = true)
    (htransfer : ∀ lead transferee, c ≠ Call.transferLeadership lead transferee)
    (htimeout : ∀ m, c = Call.step m → m.type ≠ MessageType.msgTimeoutNow)
    (hcampaign : c = Call.campaign → c.Eligible d.node) (hkept : ¬ c.Disowns d.node.raft)
    (h : d.act pack c = Except.ok d') : Course c d.node.raft d'.node.raft := by
  cases c with
  | tick =>
      obtain ⟨n, hn, rfl⟩ := onNode_eq_ok h
      obtain ⟨r, htick, hn⟩ := Outcome.bind_eq_ok.mp hn
      cases hn
      rcases tick_cases hpre htick with ⟨hkeeps, hquiet⟩ | ⟨hvoter, hprepared | ⟨hstood, hquorum⟩⟩
      · refine Course.keeps hkeeps fun _ hs => hquiet fun hleader => ?_
        rcases hkeeps.role with hfollower | ⟨-, -, hstays⟩
        · rw [hfollower] at hs
          cases hs
        · rw [(hstays hs).1] at hleader
          cases hleader
      · exact Course.prepared rfl (of_decide_eq_true hvoter) hprepared
      · exact Course.alone rfl (of_decide_eq_true hvoter) hquorum hstood
  | campaign =>
      obtain ⟨n, status, hn, rfl⟩ := onNodeWith_eq_ok h
      exact campaign_course hpre (hcampaign rfl) hn
  | propose data =>
      rw [act] at h
      obtain ⟨n, status, hn, rfl⟩ := onNodeWith_eq_ok h
      exact Course.of_keeps rfl (stepRaft_keepsRole (by simp) (by simp) rfl hn)
  | proposeConfChange cc =>
      rw [act] at h
      obtain ⟨n, status, hn, rfl⟩ := onNodeWith_eq_ok h
      exact Course.of_keeps rfl (stepRaft_keepsRole (by simp) (by simp) rfl hn)
  | step m =>
      rw [act] at h
      obtain ⟨n, status, hn, rfl⟩ := onNodeWith_eq_ok h
      exact step_course (htimeout m rfl) hn
  | applyConfChange cc =>
      rw [act] at h
      obtain ⟨n, cs, hn, rfl⟩ := onNodeWith_eq_ok h
      rw [RawNode.applyConfChange] at hn
      split at hn
      · cases hn
        exact Course.of_keeps rfl (KeepsRole.refl _)
      · obtain ⟨r, hchange, hn⟩ := Outcome.bind_eq_ok.mp hn
        cases hn
        exact Course.of_keeps rfl (changeMembers_keepsRole
          (fun hs ht hvote => hkept ⟨hs, ht, hvote⟩) hchange)
  | transferLeadership lead transferee => exact absurd rfl (htransfer lead transferee)
  | readIndex rctx =>
      rw [act] at h
      obtain ⟨n, status, hn, rfl⟩ := onNodeWith_eq_ok h
      exact Course.of_keeps rfl (stepRaft_keepsRole (by simp) (by simp) rfl hn)
  | reportUnreachable id =>
      rw [act] at h
      obtain ⟨n, hn, rfl⟩ := onNode_eq_ok h
      obtain ⟨⟨n₁, status⟩, hstep, hn⟩ := Outcome.bind_eq_ok.mp hn
      cases hn
      exact Course.of_keeps rfl (stepRaft_keepsRole (by simp) (by simp) rfl hstep)
  | reportSnapshot id status =>
      rw [act] at h
      obtain ⟨n, hn, rfl⟩ := onNode_eq_ok h
      obtain ⟨⟨n₁, status'⟩, hstep, hn⟩ := Outcome.bind_eq_ok.mp hn
      cases hn
      exact Course.of_keeps rfl (stepRaft_keepsRole (by simp) (by simp) rfl hstep)
  | ready =>
      rw [act] at h
      split at h
      · obtain ⟨⟨n, rd⟩, hready, h⟩ := Outcome.bind_eq_ok.mp h
        cases h
        refine Course.of_keeps rfl ?_
        rw [(RawNode.ready_eq_ok hready).2.2.2.2]
        exact KeepsRole.same rfl rfl rfl rfl fun _ hid _ => hid
      · cases h
        exact Course.of_keeps rfl (KeepsRole.refl _)
  | store =>
      rw [act] at h
      split at h
      · obtain ⟨storage, -, h⟩ := Outcome.bind_eq_ok.mp h
        cases h
        exact Course.of_keeps rfl (KeepsRole.same rfl rfl rfl rfl fun _ hid _ => hid)
      · cases h
        exact Course.of_keeps rfl (KeepsRole.refl _)
  | advance =>
      rw [act] at h
      split at h
      · cases h
        exact Course.of_keeps rfl (KeepsRole.same rfl rfl rfl rfl fun _ hid _ => hid)
      · cases h
        exact Course.of_keeps rfl (KeepsRole.refl _)

/-! ## What is queued -/

lemma regrouped_frame (h : Regrouped r r') :
    r'.id = r.id ∧ r'.preVote = r.preVote ∧ r'.msgs = r.msgs ∧ r'.term = r.term ∧
      r'.leadTransferee = r.leadTransferee := by
  cases h with
  | entered hnew hset =>
      rw [setProgress_frame hset]
      exact ⟨rfl, rfl, rfl, rfl, rfl⟩
  | _ => exact ⟨rfl, rfl, rfl, rfl, rfl⟩

/-- The `Ready` takes the whole queue. -/
structure Emptied (d d' : Driver) : Prop where
  id : d'.node.raft.id = d.node.raft.id
  preVote : d'.node.raft.preVote = d.node.raft.preVote
  leadTransferee : d'.node.raft.leadTransferee = d.node.raft.leadTransferee
  handed : ∃ rd, d'.handed = d.handed ++ [rd] ∧ rd.messages = d.node.raft.msgs
  msgs : d'.node.raft.msgs = []

/-- **What a call queues**, unless it is the one that takes the queue. -/
theorem act_outbox (h : d.act pack c = Except.ok d') :
    Outbox (c.stepped pack d.node) d.node.raft d'.node.raft ∧ d'.handed = d.handed ∨
      Emptied d d' := by
  by_cases hstep : ∃ m, c = Call.step m
  · obtain ⟨m, rfl⟩ := hstep
    rw [act] at h
    obtain ⟨n, status, hn, rfl⟩ := onNodeWith_eq_ok h
    have hrefl : Outbox m d.node.raft d.node.raft :=
      (Leaves.refl m _).outbox rfl rfl rfl (fun hzero => hzero) (Or.inl rfl)
    refine Or.inl ⟨?_, rfl⟩
    rw [RawNode.step] at hn
    split at hn
    · cases hn
      exact hrefl
    split at hn
    · obtain ⟨⟨r, s⟩, hstep, hn⟩ := Outcome.bind_eq_ok.mp hn
      cases hn
      exact step_outbox hstep
    · cases hn
      exact hrefl
  have hstamped : c.Stamped := by
    cases c with
    | step m => exact absurd ⟨m, rfl⟩ hstep
    | _ => exact trivial
  rcases act_deeds hstamped h with ⟨⟨r, hgroup, hdeeds⟩, -, hhanded⟩ | ⟨-, n, rd, hready, rfl⟩ |
    ⟨rd, storage, -, -, rfl⟩ | ⟨-, rd, -, rfl⟩
  · obtain ⟨hid, hpre, hmsgs, hterm, htransferee⟩ := regrouped_frame hgroup
    exact Or.inl ⟨hdeeds.leaves.outbox hid hpre hmsgs (fun hzero => htransferee.trans hzero)
      (Or.inl hterm), hhanded⟩
  · obtain ⟨-, -, -, hmsgs, hn⟩ := RawNode.ready_eq_ok hready
    exact Or.inr ⟨by rw [hn]; rfl, by rw [hn]; rfl, by rw [hn]; rfl, ⟨rd, rfl, hmsgs⟩,
      by rw [hn]; rfl⟩
  · exact Or.inl ⟨(Leaves.quiet rfl rfl (Nat.le_refl _) rfl Leaves.not_transferee).outbox rfl rfl rfl
      (fun hzero => hzero) (Or.inl rfl), rfl⟩
  · exact Or.inl ⟨(Leaves.quiet rfl rfl (Nat.le_refl _) rfl Leaves.not_transferee).outbox rfl rfl rfl
      (fun hzero => hzero) (Or.inl rfl), rfl⟩

end Driver

end RaftKv
