import RaftKv.Leader.Office
import RaftKv.Raft.Outbox
import RaftKv.Raft.Rising

/-!
# How a candidacy goes on

* `Raft.KeepsRole` — a node that does not end as a follower keeps its term, and a pre-candidate its
  votes.
* `Raft.Prepared`, `Raft.Stood` — a node has asked for pre-votes, and a node has raised its term.
* `Raft.step_outbox` — what a step queues.
* `Raft.step_keepsRole` — **only the start of a campaign and the answers to candidates do more**.
* `Raft.stepHup_cases`, `Raft.stepAnswer_cases` — what these do.
-/

namespace RaftKv

namespace Raft

variable {r r' r'' : Raft} {m : Message} {status : Status}

/-- The node ends as a follower, or it stays in its term and away from a new pre-candidacy; the
votes that count for a pre-candidate stay those of voters. -/
structure KeepsRole (r r' : Raft) : Prop where
  id : r'.id = r.id
  role : r'.state = RaftState.follower ∨ r.state ≠ RaftState.follower ∧ r'.term = r.term ∧
    (r'.state = RaftState.preCandidate → r.state = RaftState.preCandidate ∧ r'.votes = r.votes ∧
      ∀ id ∈ r.prs, r.votes.lookup id = some true → id ∈ r'.prs)

/-- The node has become a pre-candidate and asked for pre-votes. -/
structure Prepared (r r' : Raft) : Prop where
  id : r'.id = r.id
  state : r'.state = RaftState.preCandidate
  term : r'.term = r.term
  prs : r'.prs = r.prs
  votes : ∀ id, r'.votes.lookup id = some true ↔ id = r.id
  asks : r.msgs.length < r'.msgs.length

/-- The node has raised its term to stand for election. -/
structure Stood (r r' : Raft) : Prop where
  id : r'.id = r.id
  state : r'.state = RaftState.candidate ∨ r'.state = RaftState.leader
  term : r'.term = r.term + 1

namespace KeepsRole

lemma follower (hid : r'.id = r.id) (h : r'.state = RaftState.follower) : KeepsRole r r' :=
  ⟨hid, Or.inl h⟩

lemma same (hid : r'.id = r.id) (hstate : r'.state = r.state) (hterm : r'.term = r.term)
    (hvotes : r'.votes = r.votes)
    (hprs : ∀ id ∈ r.prs, r.votes.lookup id = some true → id ∈ r'.prs) : KeepsRole r r' := by
  by_cases hfollower : r.state = RaftState.follower
  · exact follower hid (hstate.trans hfollower)
  · exact ⟨hid, Or.inr ⟨hfollower, hterm, fun hpre => ⟨hstate ▸ hpre, hvotes, hprs⟩⟩⟩

lemma refl (r : Raft) : KeepsRole r r := same rfl rfl rfl rfl fun _ hid _ => hid

lemma trans (h₁ : KeepsRole r r') (h₂ : KeepsRole r' r'') : KeepsRole r r'' := by
  refine ⟨h₂.id.trans h₁.id, ?_⟩
  rcases h₂.role with hfollower | ⟨hstate, hterm, hpre⟩
  · exact Or.inl hfollower
  rcases h₁.role with hfollower | ⟨hstate', hterm', hpre'⟩
  · exact absurd hfollower hstate
  refine Or.inr ⟨hstate', hterm.trans hterm', fun hs => ?_⟩
  obtain ⟨hs', hvotes, hvoters⟩ := hpre hs
  obtain ⟨hs'', hvotes', hvoters'⟩ := hpre' hs'
  refine ⟨hs'', hvotes.trans hvotes', fun id hid hv => hvoters id (hvoters' id hid hv) ?_⟩
  rw [hvotes']
  exact hv

lemma leader (h : SameRole r r') (hl : r.state = RaftState.leader) : KeepsRole r r' := by
  refine ⟨h.id, Or.inr ⟨?_, h.term, fun hpre => ?_⟩⟩
  · rw [hl]
    exact RaftState.noConfusion
  · rw [h.state, hl] at hpre
    cases hpre

lemma send {msg : Message} (h : r.send msg = Except.ok r') : KeepsRole r r' := by
  rw [(send_eq_ok h).1]
  exact KeepsRole.same rfl rfl rfl rfl fun _ hid _ => hid

lemma becomeFollower {term lead : Nat} (h : r.becomeFollower term lead = Except.ok r') :
    KeepsRole r r' := by
  rw [becomeFollower_eq_ok h]
  exact follower rfl rfl

end KeepsRole

/-! ## What does not concern candidacies -/

lemma stepVote_keepsRole (h : r.stepVote m = Except.ok r') : KeepsRole r r' := by
  rw [stepVote] at h
  split at h
  · exact Outcome.pure_eq_ok.mp h ▸ KeepsRole.refl r
  obtain ⟨granted, -, h⟩ := Outcome.bind_eq_ok.mp h
  obtain ⟨respType, -, h⟩ := Outcome.bind_eq_ok.mp h
  split at h
  · obtain ⟨r₁, hsend, h⟩ := Outcome.bind_eq_ok.mp h
    have hkeeps := KeepsRole.send hsend
    split at h
    · obtain rfl := Outcome.pure_eq_ok.mp h
      exact hkeeps.trans (KeepsRole.same rfl rfl rfl rfl fun _ hid _ => hid)
    · exact Outcome.pure_eq_ok.mp h ▸ hkeeps
  · exact KeepsRole.send h

lemma checkTerm_keepsRole {continues : Bool} (h : r.checkTerm m = Except.ok (r', continues)) :
    KeepsRole r r' := by
  rw [checkTerm] at h
  split at h
  · cases h
    exact KeepsRole.refl r
  split at h
  · split at h
    · cases h
      exact KeepsRole.refl r
    · obtain ⟨r₁, hhigher, h⟩ := Outcome.bind_eq_ok.mp h
      cases h
      rw [stepHigherTerm] at hhigher
      split at hhigher
      · exact Outcome.pure_eq_ok.mp hhigher ▸ KeepsRole.refl r
      · split at hhigher
        · exact KeepsRole.becomeFollower hhigher
        · exact Outcome.pure_eq_ok.mp hhigher ▸ KeepsRole.refl r
      · exact KeepsRole.becomeFollower hhigher
      · exact KeepsRole.becomeFollower hhigher
      · exact KeepsRole.becomeFollower hhigher
      · exact KeepsRole.becomeFollower hhigher
  split at h
  · obtain ⟨r₁, hlower, h⟩ := Outcome.bind_eq_ok.mp h
    cases h
    rw [stepLowerTerm] at hlower
    split at hlower
    · exact KeepsRole.send hlower
    split at hlower
    · exact KeepsRole.send hlower
    · exact Outcome.pure_eq_ok.mp hlower ▸ KeepsRole.refl r
  · cases h
    exact KeepsRole.refl r

lemma handleAppendEntries_keepsRole (h : r.handleAppendEntries m = Except.ok r') :
    KeepsRole r r' := by
  rw [handleAppendEntries] at h
  split at h
  · exact KeepsRole.send h
  obtain ⟨⟨l, appended⟩, -, h⟩ := Outcome.bind_eq_ok.mp h
  have hlog : KeepsRole r { r with raftLog := l } := KeepsRole.same rfl rfl rfl rfl fun _ hid _ => hid
  cases appended with
  | none => exact hlog.trans (KeepsRole.send h)
  | some last => exact hlog.trans (KeepsRole.send h)

lemma handleHeartbeat_keepsRole (h : r.handleHeartbeat m = Except.ok r') : KeepsRole r r' := by
  obtain ⟨l, -, h⟩ := Outcome.bind_eq_ok.mp h
  have hlog : KeepsRole r { r with raftLog := l } := KeepsRole.same rfl rfl rfl rfl fun _ hid _ => hid
  exact hlog.trans (KeepsRole.send h)

lemma handleSnapshot_keepsRole (hs : r.state = RaftState.follower)
    (h : r.handleSnapshot m = Except.ok r') : KeepsRole r r' := by
  obtain ⟨⟨r₁, restored⟩, hrestore, h⟩ := Outcome.bind_eq_ok.mp h
  refine KeepsRole.trans ?_ (KeepsRole.send h)
  rcases restore_cases hrestore with ⟨-, rfl, -⟩ | ⟨-, -, -, -, rfl⟩ | ⟨-, -, -, -, hr₁⟩
  · exact KeepsRole.refl r₁
  · exact KeepsRole.same rfl rfl rfl rfl fun _ hid _ => hid
  · rw [hr₁]
    exact KeepsRole.follower rfl hs

lemma heard_keepsRole (r : Raft) (lead : Nat) :
    KeepsRole r { r with electionElapsed := 0, lead := lead } :=
  KeepsRole.same rfl rfl rfl rfl fun _ hid _ => hid

lemma stepFollower_keepsRole (hs : r.state = RaftState.follower)
    (ht : m.type ≠ MessageType.msgTimeoutNow) (h : r.stepFollower m = Except.ok (r', status)) :
    KeepsRole r r' := by
  have hforward : ∀ {r' : Raft} {status : Status}, r.forwardToLead m = Except.ok (r', status) →
      KeepsRole r r' := by
    intro r' status h
    obtain ⟨r₁, hsend, h⟩ := Outcome.bind_eq_ok.mp h
    cases h
    exact KeepsRole.send hsend
  rw [stepFollower] at h
  split at h
  · split at h
    · cases h
      exact KeepsRole.refl r
    split at h
    · cases h
      exact KeepsRole.refl r
    · exact hforward h
  · obtain ⟨r₁, hhandle, h⟩ := Outcome.bind_eq_ok.mp h
    cases h
    exact (heard_keepsRole r m.fromId).trans (handleAppendEntries_keepsRole hhandle)
  · obtain ⟨r₁, hhandle, h⟩ := Outcome.bind_eq_ok.mp h
    cases h
    exact (heard_keepsRole r m.fromId).trans (handleHeartbeat_keepsRole hhandle)
  · obtain ⟨r₁, hhandle, h⟩ := Outcome.bind_eq_ok.mp h
    cases h
    exact (heard_keepsRole r m.fromId).trans (handleSnapshot_keepsRole hs hhandle)
  · split at h
    · cases h
      exact KeepsRole.refl r
    · exact hforward h
  · rename_i htimeout
    exact absurd htimeout ht
  · split at h
    · cases h
      exact KeepsRole.refl r
    · exact hforward h
  · split at h
    · cases h
      exact KeepsRole.same rfl rfl rfl rfl fun _ hid _ => hid
    · cases h
      exact KeepsRole.refl r
  · cases h
    exact KeepsRole.refl r

/-- The answers to a vote or a pre-vote. -/
def answersVote : MessageType → Bool
  | MessageType.msgVoteResp | MessageType.msgPreVoteResp => true
  | _ => false

lemma stepCandidate_keepsRole (ht : answersVote m.type = false)
    (h : r.stepCandidate m = Except.ok (r', status)) : KeepsRole r r' := by
  rw [stepCandidate] at h
  split at h
  · cases h
    exact KeepsRole.refl r
  · obtain ⟨r₁, hfollow, h⟩ := Outcome.bind_eq_ok.mp h
    obtain ⟨r₂, hhandle, h⟩ := Outcome.bind_eq_ok.mp h
    cases h
    exact (KeepsRole.becomeFollower hfollow).trans (handleAppendEntries_keepsRole hhandle)
  · obtain ⟨r₁, hfollow, h⟩ := Outcome.bind_eq_ok.mp h
    obtain ⟨r₂, hhandle, h⟩ := Outcome.bind_eq_ok.mp h
    cases h
    exact (KeepsRole.becomeFollower hfollow).trans (handleHeartbeat_keepsRole hhandle)
  · obtain ⟨r₁, hfollow, h⟩ := Outcome.bind_eq_ok.mp h
    obtain ⟨r₂, hhandle, h⟩ := Outcome.bind_eq_ok.mp h
    cases h
    refine (KeepsRole.becomeFollower hfollow).trans (handleSnapshot_keepsRole ?_ hhandle)
    rw [becomeFollower_eq_ok hfollow]
  · rename_i hm
    rw [hm] at ht
    cases ht
  · rename_i hm
    rw [hm] at ht
    cases ht
  · cases h
    exact KeepsRole.refl r

lemma stepLeader_keepsRole (hl : r.state = RaftState.leader)
    (h : r.stepLeader m = Except.ok (r', status)) : KeepsRole r r' := by
  by_cases hm : m.type = MessageType.msgCheckQuorum
  · rw [stepLeader, hm] at h
    dsimp only at h
    split at h
    · cases h
      exact KeepsRole.refl r
    · obtain ⟨r₁, hfollow, h⟩ := Outcome.bind_eq_ok.mp h
      cases h
      exact KeepsRole.becomeFollower hfollow
  · exact KeepsRole.leader (stepLeader_samePeers hm h).toSameRole hl

/-- **A message that neither starts a campaign nor answers a candidate.** -/
theorem step_keepsRole (hhup : m.type ≠ MessageType.msgHup)
    (htimeout : m.type ≠ MessageType.msgTimeoutNow) (hanswer : answersVote m.type = false)
    (h : r.step m = Except.ok (r', status)) : KeepsRole r r' := by
  obtain ⟨⟨r₁, continues⟩, hcheck, h⟩ := Outcome.bind_eq_ok.mp h
  have hkeeps := checkTerm_keepsRole hcheck
  dsimp only at h
  split at h
  · cases h
    exact hkeeps
  split at h
  · rename_i hm
    exact absurd hm hhup
  · obtain ⟨r₂, hvote, h⟩ := Outcome.bind_eq_ok.mp h
    cases h
    exact hkeeps.trans (stepVote_keepsRole hvote)
  · obtain ⟨r₂, hvote, h⟩ := Outcome.bind_eq_ok.mp h
    cases h
    exact hkeeps.trans (stepVote_keepsRole hvote)
  · rw [stepRole] at h
    split at h
    · rename_i hf
      exact hkeeps.trans (stepFollower_keepsRole hf htimeout h)
    · exact hkeeps.trans (stepCandidate_keepsRole hanswer h)
    · exact hkeeps.trans (stepCandidate_keepsRole hanswer h)
    · rename_i hl
      exact hkeeps.trans (stepLeader_keepsRole hl h)

lemma KeepsRole.stays_follower (h : KeepsRole r r') (hs : r.state = RaftState.follower) :
    r'.state = RaftState.follower :=
  h.role.resolve_right fun hrole => hrole.1 hs

/-- A candidate hears of a leader, perhaps of a lower term. -/
lemma stepCandidate_outbox (ht : fromLeader m.type = true)
    (h : r.stepCandidate m = Except.ok (r', status)) : Outbox m r r' := by
  obtain ⟨r₁, hfollow, hhandle⟩ : ∃ r₁, r.becomeFollower m.term m.fromId = Except.ok r₁ ∧
      (m.type = MessageType.msgApp ∧ r₁.handleAppendEntries m = Except.ok r' ∨
        m.type = MessageType.msgHeartbeat ∧ r₁.handleHeartbeat m = Except.ok r' ∨
        m.type = MessageType.msgSnap ∧ r₁.handleSnapshot m = Except.ok r') := by
    rw [stepCandidate] at h
    rcases fromLeader_iff.mp ht with ht | ht | ht
    all_goals
      rw [ht] at h
      obtain ⟨r₁, hfollow, h⟩ := Outcome.bind_eq_ok.mp h
      obtain ⟨r₂, hhandle, h⟩ := Outcome.bind_eq_ok.mp h
      cases h
    · exact ⟨r₁, hfollow, Or.inl ⟨ht, hhandle⟩⟩
    · exact ⟨r₁, hfollow, Or.inr (Or.inl ⟨ht, hhandle⟩)⟩
    · exact ⟨r₁, hfollow, Or.inr (Or.inr ⟨ht, hhandle⟩)⟩
  have hr₁ := becomeFollower_eq_ok hfollow
  have hs : r₁.state = RaftState.follower := by rw [hr₁]
  have hs' : r'.state = RaftState.follower := by
    rcases hhandle with ⟨-, hhandle⟩ | ⟨-, hhandle⟩ | ⟨-, hhandle⟩
    · exact (handleAppendEntries_keepsRole hhandle).stays_follower hs
    · exact (handleHeartbeat_keepsRole hhandle).stays_follower hs
    · exact (handleSnapshot_keepsRole hs hhandle).stays_follower hs
  have hleaves := handle_leaves hs hhandle
  rw [hr₁] at hleaves
  exact hleaves.outbox rfl rfl rfl (fun _ => rfl) (Or.inr hs')

/-- **What a step queues**, with or without a term in the message. -/
theorem step_outbox (h : r.step m = Except.ok (r', status)) : Outbox m r r' := by
  by_cases hstamped : m.term = 0 → m.type ≠ MessageType.msgApp ∧
      m.type ≠ MessageType.msgHeartbeat ∧ m.type ≠ MessageType.msgSnap
  · exact (Deeds.step hstamped h).leaves.outbox rfl rfl rfl (fun hzero => hzero) (Or.inl rfl)
  obtain ⟨hzero, hleader⟩ := Classical.not_imp.mp hstamped
  have ht : fromLeader m.type = true := by
    rw [fromLeader_iff]
    tauto
  have hrole : r.stepRole m = Except.ok (r', status) := by
    rw [step, checkTerm, if_pos hzero] at h
    rcases fromLeader_iff.mp ht with ht | ht | ht
    all_goals
      rw [ht] at h
      exact h
  rw [stepRole] at hrole
  split at hrole
  · rename_i hs
    exact (stepFollower_leaves hs ht hrole).outbox rfl rfl rfl (fun hzero => hzero) (Or.inl rfl)
  · exact stepCandidate_outbox ht hrole
  · exact stepCandidate_outbox ht hrole
  · -- a leader ignores the messages of another one
    have hsame : r' = r := by
      rw [stepLeader] at hrole
      rcases fromLeader_iff.mp ht with ht | ht | ht
      all_goals
        rw [ht] at hrole
        dsimp only at hrole
        split at hrole
        · cases hrole
          rfl
        · rw [stepLeaderPeer, ht] at hrole
          cases hrole
          rfl
    rw [hsame]
    exact (Leaves.refl m r).outbox rfl rfl rfl (fun hzero => hzero) (Or.inl rfl)

/-! ## Campaigns -/

lemma becomeLeader_term (h : r.becomeLeader = Except.ok r') :
    r'.id = r.id ∧ r'.state = RaftState.leader ∧ r'.term = r.term := by
  obtain ⟨-, r₁, happend, rfl⟩ := becomeLeader_eq_ok h
  have hsent := Sent.appendEntry happend
  exact ⟨hsent.id, hsent.state, hsent.term⟩

/-- Asking for votes sends a request to every other voter. -/
lemma requestVotes_sends {voteMsg : MessageType} {term : Nat} {context : Bytes} {ids : List Nat}
    (h : ids.foldlM (fun r toId =>
      if toId = r.id then pure r
      else do
        let logTerm ← r.raftLog.lastTerm
        r.send (voteRequest voteMsg term r.raftLog.lastIndex logTerm context toId)) r =
      (Except.ok r' : Outcome Raft)) :
    r' = { r with msgs := r'.msgs } ∧ r.msgs.length ≤ r'.msgs.length ∧
      ((∃ id ∈ ids, id ≠ r.id) → r.msgs.length < r'.msgs.length) := by
  induction ids generalizing r with
  | nil =>
      cases h
      refine ⟨rfl, Nat.le_refl _, ?_⟩
      rintro ⟨id, hid, -⟩
      cases hid
  | cons toId ids ih =>
      rw [List.foldlM_cons] at h
      obtain ⟨r₁, hround, h⟩ := Outcome.bind_eq_ok.mp h
      obtain ⟨hframe, hle, hlt⟩ := ih h
      split at hround
      · rename_i hself
        cases hround
        refine ⟨hframe, hle, ?_⟩
        rintro ⟨id, hid, hne⟩
        rcases List.mem_cons.mp hid with rfl | hid
        · exact absurd hself hne
        · exact hlt ⟨id, hid, hne⟩
      · obtain ⟨logTerm, -, hsend⟩ := Outcome.bind_eq_ok.mp hround
        rw [(send_eq_ok hsend).1] at hframe hle
        rw [List.length_append, List.length_singleton] at hle
        exact ⟨hframe, Nat.le_of_succ_le hle, fun _ => hle⟩

lemma campaignElection_stood {context : Bytes} (h : r.campaignElection context = Except.ok r') :
    Stood r r' := by
  obtain ⟨r₁, hcandidate, h⟩ := Outcome.bind_eq_ok.mp h
  rw [becomeCandidate] at hcandidate
  split at hcandidate
  · cases hcandidate
  obtain ⟨r₂, hreset, hcandidate⟩ := Outcome.bind_eq_ok.mp hcandidate
  obtain rfl := reset_eq_ok hreset
  cases hcandidate
  dsimp only at h
  split at h
  · obtain ⟨hid, hstate, hterm⟩ := becomeLeader_term h
    exact ⟨hid, Or.inr hstate, hterm⟩
  · have hframe := (requestVotes_sends h).1
    rw [hframe]
    exact ⟨rfl, Or.inl rfl, rfl⟩

/-- The state in which a node asks for pre-votes. -/
def preparing (r : Raft) : Raft :=
  ({ r with votes := ∅, lead := 0, state := RaftState.preCandidate }.poll r.id true).1

lemma preparing_votes (r : Raft) (id : Nat) :
    r.preparing.votes.lookup id = some true ↔ id = r.id := by
  show ((∅ : IdMap Bool).insert r.id true).lookup id = some true ↔ id = r.id
  by_cases hid : id = r.id
  · rw [hid, AList.lookup_insert]
    simp
  · rw [AList.lookup_insert_ne hid]
    simp [hid]

/-- A node that is the only voter, or knows of none, needs one vote. -/
lemma quorum_of_alone (h : ∀ id ∈ r.prs.keys, id = r.id) : r.quorum = 1 := by
  have hsub : r.prs.keys ⊆ [r.id] := fun id hid => List.mem_singleton.mpr (h id hid)
  have hlength := (List.subperm_of_subset r.prs.keys_nodup hsub).length_le
  rw [List.length_singleton] at hlength
  rw [quorum]
  omega

/-- **A campaign with the pre-vote**: the node asks for pre-votes, or it needs only its own. -/
lemma campaignPreElection_cases (h : r.campaignPreElection = Except.ok r') :
    Prepared r r' ∨ Stood r r' ∧ r.quorum = 1 := by
  obtain ⟨r₁, hprepare, h⟩ := Outcome.bind_eq_ok.mp h
  rw [becomePreCandidate] at hprepare
  split at hprepare
  · cases hprepare
  cases hprepare
  dsimp only at h
  split at h
  · rename_i hquorum
    have hstood := campaignElection_stood h
    exact Or.inr ⟨⟨hstood.id, hstood.state, hstood.term⟩, hquorum⟩
  · rename_i hquorum
    obtain ⟨hframe, -, hlt⟩ := requestVotes_sends h
    refine Or.inl ⟨?_, ?_, ?_, ?_, fun id => ?_, hlt ?_⟩
    · rw [hframe]
      rfl
    · rw [hframe]
      rfl
    · rw [hframe]
      rfl
    · rw [hframe]
      rfl
    · rw [hframe]
      exact r.preparing_votes id
    · by_contra hnone
      have hself : ∀ id ∈ r.prs.keys, id = r.id := fun id hid => by
        by_contra hne
        exact hnone ⟨id, hid, hne⟩
      exact hquorum (quorum_of_alone hself)

/-- **The start of a campaign**, on a node that uses the pre-vote. -/
lemma stepHup_cases (hpre : r.preVote = true) (h : r.stepHup = Except.ok r') :
    r' = r ∨ r.state ≠ RaftState.leader ∧ ¬ r.HeldBack ∧
      (Prepared r r' ∨ Stood r r' ∧ r.quorum = 1) := by
  rw [stepHup] at h
  split at h
  · exact Or.inl (Outcome.pure_eq_ok.mp h).symm
  rename_i hleader
  obtain ⟨entries, hslice, h⟩ := Outcome.bind_eq_ok.mp h
  split at h
  · cases h
  · split at h
    · exact Or.inl (Outcome.pure_eq_ok.mp h).symm
    · rename_i hfree
      refine Or.inr ⟨hleader, fun hheld => hfree ?_, campaignPreElection_cases h⟩
      rw [HeldBack, unapplied, hslice] at hheld
      exact hheld

/-- A message that the node sends itself when a timeout has passed. -/
lemma step_hup {fromId : Nat}
    (h : r.step { type := MessageType.msgHup, fromId := fromId } = Except.ok (r', status)) :
    r.stepHup = Except.ok r' := by
  have hcheck : r.checkTerm { type := MessageType.msgHup, fromId := fromId } =
      Except.ok (r, true) := rfl
  rw [step, hcheck, Outcome.ok_bind] at h
  dsimp only at h
  rw [if_neg (by simp)] at h
  obtain ⟨r₁, hhup, h⟩ := Outcome.bind_eq_ok.mp h
  cases h
  exact hhup

/-- **A tick** on a node that uses the pre-vote. -/
theorem tick_cases (hpre : r.preVote = true) (h : r.tick = Except.ok r') :
    KeepsRole r r' ∧ (r.state ≠ RaftState.leader → r'.msgs = r.msgs) ∨
    r.promotable = true ∧ (Prepared r r' ∨ Stood r r' ∧ r.quorum = 1) := by
  by_cases hl : r.state = RaftState.leader
  · refine Or.inl ⟨?_, fun hn => absurd hl hn⟩
    rcases tick_leader hl h with ⟨-, hsent⟩ | ⟨-, -, hfollower, -⟩
    · exact KeepsRole.leader hsent.toSameRole hl
    · exact KeepsRole.follower (Deeds.tick (m := {}) h).leaves.id hfollower
  rw [tick, if_neg hl, tickElection] at h
  dsimp only at h
  split at h
  · rename_i hpast
    obtain ⟨⟨r₁, status⟩, hstep, h⟩ := Outcome.bind_eq_ok.mp h
    cases h
    rcases stepHup_cases (by exact hpre) (step_hup hstep) with
      rfl | ⟨-, -, hprepared | ⟨hstood, hquorum⟩⟩
    · exact Or.inl ⟨KeepsRole.same rfl rfl rfl rfl fun _ hid _ => hid, fun _ => rfl⟩
    · exact Or.inr ⟨hpast.1, Or.inl ⟨hprepared.id, hprepared.state, hprepared.term, hprepared.prs,
        hprepared.votes, hprepared.asks⟩⟩
    · exact Or.inr ⟨hpast.1, Or.inr ⟨⟨hstood.id, hstood.state, hstood.term⟩, hquorum⟩⟩
  · cases h
    exact Or.inl ⟨KeepsRole.same rfl rfl rfl rfl fun _ hid _ => hid, fun _ => rfl⟩

/-! ## Answers -/

/-- A pre-candidate counts the answer, whatever it answers: it is of the node's term, or it grants a
pre-vote and is ahead. -/
def Counts (r : Raft) (m : Message) : Prop :=
  r.state = RaftState.preCandidate ∧ answersVote m.type = true ∧
    (m.term = 0 ∨ m.term = r.term ∨
      m.type = MessageType.msgPreVoteResp ∧ m.reject = false ∧ r.term < m.term)

instance (r : Raft) (m : Message) : Decidable (r.Counts m) := inferInstanceAs (Decidable (_ ∧ _))

/-- The other candidates and the leaders count too, but do not raise the term. -/
lemma stepVoteResp_cases (hs : r.state = RaftState.candidate ∨ r.state = RaftState.preCandidate)
    (h : r.stepVoteResp m = Except.ok r') :
    KeepsRole r r' ∨ r.state = RaftState.preCandidate ∧ (r' = (r.poll m.fromId (!m.reject)).1 ∨
      r.quorum = (r.poll m.fromId (!m.reject)).2 ∧ Stood r r') := by
  rw [stepVoteResp] at h
  dsimp only at h
  split at h
  · rename_i hquorum
    split at h
    · rename_i hpre
      have hstood := campaignElection_stood h
      exact Or.inr ⟨hpre, Or.inr ⟨hquorum, hstood.id, hstood.state, hstood.term⟩⟩
    split at h
    · cases h
    · rename_i hpre hcandidate
      obtain ⟨r₁, hlead, h⟩ := Outcome.bind_eq_ok.mp h
      obtain ⟨hid, hstate, hterm⟩ := becomeLeader_term hlead
      have hsent := Sent.bcastAppend h
      refine Or.inl ⟨hsent.id.trans hid, Or.inr ⟨?_, hsent.term.trans hterm, fun hpre' => ?_⟩⟩
      · intro hfollower
        rcases hs with hs | hs
        · rw [hfollower] at hs
          cases hs
        · rw [hfollower] at hs
          cases hs
      · rw [hsent.state, hstate] at hpre'
        cases hpre'
  split at h
  · have hfollow := KeepsRole.becomeFollower h
    refine Or.inl (KeepsRole.follower hfollow.id ?_)
    rw [becomeFollower_eq_ok h]
  · cases h
    rcases hs with hs | hs
    · refine Or.inl ⟨rfl, Or.inr ⟨?_, rfl, fun hpre => ?_⟩⟩
      · rw [hs]
        exact RaftState.noConfusion
      · exact absurd (hs.symm.trans hpre) RaftState.noConfusion
    · exact Or.inr ⟨hs, Or.inl rfl⟩

lemma answersVote_iff {t : MessageType} : answersVote t = true ↔
    t = MessageType.msgVoteResp ∨ t = MessageType.msgPreVoteResp := by
  cases t <;> simp [answersVote]

/-- **An answer**: only a pre-candidate that counts it changes its votes or raises its term. -/
theorem stepAnswer_cases (hm : answersVote m.type = true)
    (h : r.step m = Except.ok (r', status)) :
    KeepsRole r r' ∨ r.Counts m ∧ (r' = (r.poll m.fromId (!m.reject)).1 ∨
      r.quorum = (r.poll m.fromId (!m.reject)).2 ∧ Stood r r') := by
  obtain ⟨⟨r₁, continues⟩, hcheck, h⟩ := Outcome.bind_eq_ok.mp h
  have hkeeps := checkTerm_keepsRole hcheck
  dsimp only at h
  split at h
  · cases h
    exact Or.inl hkeeps
  rename_i hcontinues
  rw [not_not.mp hcontinues] at hcheck
  have hrole : r₁.stepRole m = Except.ok (r', status) := by
    rcases answersVote_iff.mp hm with ht | ht <;> rw [ht] at h <;> exact h
  have hcandidate : r₁.state = RaftState.candidate ∨ r₁.state = RaftState.preCandidate →
      r₁.stepCandidate m = Except.ok (r', status) →
      KeepsRole r r' ∨ r.Counts m ∧ (r' = (r.poll m.fromId (!m.reject)).1 ∨
        r.quorum = (r.poll m.fromId (!m.reject)).2 ∧ Stood r r') := by
    intro hs hstep
    have hne : r₁.state ≠ RaftState.follower := by
      rcases hs with hs | hs <;> rw [hs] <;> exact RaftState.noConfusion
    obtain ⟨rfl, hterm⟩ := checkTerm_candidate hcheck hne (answersVote_iff.mp hm)
    have hanswer : ∃ r₂, r₁.stepVoteResp m = Except.ok r₂ ∧ r₂ = r' := by
      rw [stepCandidate] at hstep
      rcases answersVote_iff.mp hm with ht | ht
      all_goals
        rw [ht] at hstep
        obtain ⟨r₂, hanswer, hstep⟩ := Outcome.bind_eq_ok.mp hstep
        cases hstep
        exact ⟨_, hanswer, rfl⟩
    obtain ⟨r₂, hanswer, rfl⟩ := hanswer
    exact (stepVoteResp_cases hs hanswer).imp_right fun hc => ⟨⟨hc.1, hm, hterm⟩, hc.2⟩
  rw [stepRole] at hrole
  split at hrole
  · rename_i hs
    refine Or.inl (hkeeps.trans (stepFollower_keepsRole hs ?_ hrole))
    rintro ht
    rw [ht] at hm
    cases hm
  · rename_i hs
    exact hcandidate (Or.inl hs) hrole
  · rename_i hs
    exact hcandidate (Or.inr hs) hrole
  · rename_i hs
    exact Or.inl (hkeeps.trans (stepLeader_keepsRole hs hrole))

/-! ## Configuration changes -/

lemma maybeSendAppend_votes {toId : Nat} {sendIfEmpty sent : Bool}
    (h : r.maybeSendAppend toId sendIfEmpty = Except.ok (r', sent)) : r'.votes = r.votes := by
  rw [maybeSendAppend] at h
  split at h
  · cases h
  split at h
  · cases h
    rfl
  obtain ⟨res, -, h⟩ := Outcome.bind_eq_ok.mp h
  dsimp only at h
  split at h
  · cases h
    rfl
  split at h
  · obtain ⟨pr', -, h⟩ := Outcome.bind_eq_ok.mp h
    obtain ⟨r₁, hsend, h⟩ := Outcome.bind_eq_ok.mp h
    cases h
    rw [(send_eq_ok hsend).1]
    rfl
  · rw [sendSnapshot] at h
    split at h
    · cases h
      rfl
    dsimp only at h
    split at h
    · cases h
    · obtain ⟨r₁, hsend, h⟩ := Outcome.bind_eq_ok.mp h
      cases h
      rw [(send_eq_ok hsend).1]
      rfl

lemma sendAfterAck_votes {toId : Nat} {committed oldPaused : Bool}
    (h : r.sendAfterAck toId committed oldPaused = Except.ok r') : r'.votes = r.votes := by
  have hsend : ∀ {s s' : Raft} {id : Nat}, s.sendAppend id = Except.ok s' → s'.votes = s.votes := by
    intro s s' id h
    obtain ⟨⟨s₁, sent⟩, hsend, h⟩ := Outcome.bind_eq_ok.mp h
    cases h
    exact maybeSendAppend_votes hsend
  rw [sendAfterAck] at h
  split at h
  · refine Outcome.foldlM_induct (P := fun s : Raft => s.votes = r.votes)
      (fun s s' id _ hs hround => ?_) rfl h
    split at hround
    · cases hround
      exact hs
    · exact (hsend hround).trans hs
  split at h
  · exact hsend h
  · cases h
    rfl

lemma added_voters {id : Nat} {isLearner : Bool}
    (h : addNodeOrLearner.added id isLearner r = Except.ok r') :
    r'.votes = r.votes ∧ ∀ a ∈ r.prs, a ∈ r'.prs := by
  rw [addNodeOrLearner.added] at h
  split at h
  · cases h
  · cases h
    exact ⟨rfl, fun a ha => (IdMap.mem_modify ..).mpr ha⟩

lemma setProgress_voters {id matched next : Nat} {isLearner : Bool}
    (h : r.setProgress id matched next isLearner = Except.ok r') :
    r'.votes = r.votes ∧ ∀ a ∈ r.prs, a ∈ r'.prs := by
  rw [setProgress] at h
  dsimp only at h
  split at h
  · cases h
    exact ⟨rfl, fun a ha => (AList.mem_insert _).mpr (Or.inr ha)⟩
  split at h
  · cases h
  · cases h
    exact ⟨rfl, fun a ha => ha⟩

/-- Entering a node removes no voter. -/
lemma addNodeOrLearner_keepsRole {id : Nat} {isLearner : Bool}
    (h : r.addNodeOrLearner id isLearner = Except.ok r') : KeepsRole r r' := by
  have hrole := (addNodeOrLearner_sameRole h).1
  have hvoters : r'.votes = r.votes ∧ ∀ a ∈ r.prs, a ∈ r'.prs := by
    rw [addNodeOrLearner] at h
    split at h
    · obtain ⟨r₁, hset, h⟩ := Outcome.bind_eq_ok.mp h
      obtain ⟨hvotes, hkept⟩ := setProgress_voters hset
      obtain ⟨hvotes', hkept'⟩ := added_voters h
      exact ⟨hvotes'.trans hvotes, fun a ha => hkept' a (hkept a ha)⟩
    split at h
    · cases h
      exact ⟨rfl, fun a ha => ha⟩
    split at h
    · cases h
      exact ⟨rfl, fun a ha => ha⟩
    · obtain ⟨hvotes, hkept⟩ := added_voters h
      exact ⟨hvotes, fun a ha => hkept a ((AList.mem_insert _).mpr (Or.inr ha))⟩
  exact KeepsRole.same hrole.id hrole.state hrole.term hvoters.1 fun a ha _ => hvoters.2 a ha

lemma removeNode_votes {id : Nat} (h : r.removeNode id = Except.ok r') : r'.votes = r.votes := by
  rw [removeNode] at h
  dsimp only at h
  split at h
  · cases h
    rfl
  obtain ⟨⟨r₁, committed⟩, hcommit, h⟩ := Outcome.bind_eq_ok.mp h
  obtain ⟨r₂, hafter, h⟩ := Outcome.bind_eq_ok.mp h
  have hvotes : r₂.votes = r.votes := by
    rw [sendAfterAck_votes hafter]
    rcases maybeCommit_cases hcommit with rfl | ⟨i, l, -, rfl⟩
    · rfl
    · rfl
  cases h
  split
  · exact hvotes
  · exact hvotes

lemma removeNode_keepsRole {id : Nat}
    (hkept : r.state = RaftState.preCandidate → r.votes.lookup id ≠ some true)
    (h : r.removeNode id = Except.ok r') : KeepsRole r r' := by
  have hrole := (removeNode_sameRole h).1
  by_cases hfollower : r.state = RaftState.follower
  · exact KeepsRole.follower hrole.id (hrole.state.trans hfollower)
  refine ⟨hrole.id, Or.inr ⟨hfollower, hrole.term, fun hpre => ?_⟩⟩
  rw [hrole.state] at hpre
  refine ⟨hpre, removeNode_votes h, fun a ha hvote => ?_⟩
  have hne : a ≠ id := by
    rintro rfl
    exact hkept hpre hvote
  rw [AList.mem_keys, (removeNode_sent h).keys]
  exact AList.mem_keys.mp (AList.mem_erase.mpr ⟨hne, ha⟩)

/-- **A change of the members**, if it does not remove a voter whose vote counts. -/
theorem changeMembers_keepsRole {cc : ConfChange}
    (hkept : r.state = RaftState.preCandidate → cc.confChangeType = ConfChangeType.removeNode →
      r.votes.lookup cc.nodeId ≠ some true)
    (h : RawNode.changeMembers r cc = Except.ok r') : KeepsRole r r' := by
  rw [RawNode.changeMembers] at h
  split at h
  · exact addNodeOrLearner_keepsRole h
  · exact addNodeOrLearner_keepsRole h
  · rename_i htype
    exact removeNode_keepsRole (fun hpre => hkept hpre htype) h
  · cases h
    exact KeepsRole.refl r
  · cases h

end Raft

end RaftKv
