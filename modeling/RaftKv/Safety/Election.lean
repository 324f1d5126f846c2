import RaftKv.Safety.Leader

/-!
# Elections follow the abstract replication

* `Tracks.becomeFollower` — moving to a higher term is the abstract step `adopt`.
* `Tracks.becomeCandidate` — the abstract step `stand`.
* `Tracks.becomeLeader` — **a node that counts a quorum of granted votes really has it**: the
  abstract steps `win` and `extend`.
* `Tracks.stepVote` — a granted vote is the abstract step `vote`.
* `Tracks.stepVoteResp` — an answer is counted for what it claims.
-/

namespace RaftKv

open Replication

variable {M : RaftKv.Membership} {w w₀ : World Nat Entry} {i : Nat} {r r' : Raft} {m : Message}

/-! ## Moving to a term -/

/-- In the roles of a follower and of a pre-candidate nothing is claimed about the term. -/
theorem Sim.passive (h : Sim M w i r)
    (hid : r'.id = r.id) (hterm : r'.term = r.term) (hlog : r'.raftLog = r.raftLog)
    (hvote : r'.vote = r.vote) (hprs : r'.prs.keys = r.prs.keys) (hmsgs : r'.msgs = r.msgs)
    (hpre : r'.preVote = r.preVote) (hcandidate : r'.state ≠ RaftState.candidate)
    (hleader : r'.state ≠ RaftState.leader) : Sim M w i r' where
  nonzero := h.nonzero
  id := hid.trans h.id
  term := h.term.trans hterm.symm
  uncompacted := hlog ▸ h.uncompacted
  log := hlog ▸ h.log
  commit := hlog ▸ h.commit
  voters := by rw [hprs, h.voters]
  voted := by rw [hvote, hterm]; exact h.voted
  unvoted := by rw [hvote, hterm]; exact h.unvoted
  candidate hs := absurd hs hcandidate
  leader hs := absurd hs hleader
  preVote := by rw [hpre]; exact h.preVote
  msgs := by rw [hmsgs]; exact h.msgs
  numbered := h.numbered
  plain := h.plain

/-- Adopting a higher term leaves the vote open. -/
theorem Sim.adopt (h : Sim M w i r) (hinv : Inv M.setting w) {term : Nat} (hlt : r.term < term)
    (hid : r'.id = r.id) (hterm : r'.term = term) (hlog : r'.raftLog = r.raftLog)
    (hvote : r'.vote = 0) (hprs : r'.prs.keys = r.prs.keys) (hmsgs : r'.msgs = r.msgs)
    (hpre : r'.preVote = r.preVote) (hcandidate : r'.state ≠ RaftState.candidate)
    (hleader : r'.state ≠ RaftState.leader)
    (hl : w.Later { w with term := Function.update w.term i term }) :
    Sim M { w with term := Function.update w.term i term } i r' where
  nonzero := h.nonzero
  id := hid.trans h.id
  term := by simp [hterm]
  uncompacted := hlog ▸ h.uncompacted
  log := hlog ▸ h.log
  commit := hlog ▸ h.commit
  voters := by rw [hprs, h.voters]
  voted hv := absurd hvote hv
  unvoted _ := hinv.ballot_none (by rw [h.term, hterm]; exact hlt)
  candidate hs := absurd hs hcandidate
  leader hs := absurd hs hleader
  preVote := by rw [hpre]; exact h.preVote
  msgs := by rw [hmsgs]; exact fun m hm => (h.msgs m hm).mono hinv hl
  numbered := h.numbered
  plain := h.plain

namespace Tracks

/-- **Becoming a follower**, in the own or in a higher term. -/
theorem becomeFollower (h : Tracks M w₀ i r) {term lead : Nat} (hle : r.term ≤ term)
    (hok : r.becomeFollower term lead = Except.ok r') :
    Tracks M w₀ i r' ∧ r'.state = RaftState.follower ∧ r'.term = term := by
  have hr' := Raft.becomeFollower_eq_ok hok
  refine ⟨?_, by rw [hr'], by rw [hr']; rfl⟩
  rcases Nat.eq_or_lt_of_le hle with rfl | hlt
  · refine h.map fun w _ _ hsim => ?_
    rw [hr']
    exact hsim.passive rfl rfl rfl (by simp [Raft.resetTo]) (by simp [Raft.resetTo]) rfl rfl
      (by simp) (by simp)
  · refine h.step fun w hinv _ hsim => ?_
    have hstep := Step.adopt (S := M.setting) (i := i) (w := w) term (by rw [hsim.term]; exact hlt)
    refine ⟨_, Relation.ReflTransGen.single hstep, ?_⟩
    rw [hr']
    exact hsim.adopt hinv hlt rfl rfl rfl (by simp [Raft.resetTo, hlt.ne])
      (by simp [Raft.resetTo]) rfl rfl (by simp) (by simp) (hstep.later hinv)

theorem becomePreCandidate (h : Tracks M w₀ i r) (hok : r.becomePreCandidate = Except.ok r') :
    Tracks M w₀ i r' ∧ r'.state = RaftState.preCandidate := by
  rw [Raft.becomePreCandidate] at hok
  split at hok
  · cases hok
  · obtain rfl := Outcome.pure_eq_ok.mp hok
    exact ⟨h.map fun w _ _ hsim => hsim.passive rfl rfl rfl rfl rfl rfl rfl (by simp) (by simp), rfl⟩

/-- **Standing for election**: the next term, with the own vote. -/
theorem becomeCandidate (h : Tracks M w₀ i r) (hok : r.becomeCandidate = Except.ok r') :
    Tracks M w₀ i r' ∧ r'.state = RaftState.candidate ∧ r'.votes = ∅ ∧ r'.vote = r'.id := by
  rw [Raft.becomeCandidate] at hok
  split at hok
  · cases hok
  obtain ⟨r₁, hreset, hok⟩ := Outcome.bind_eq_ok.mp hok
  obtain rfl := Outcome.pure_eq_ok.mp hok
  obtain rfl := Raft.reset_eq_ok hreset
  refine ⟨h.step fun w hinv _ hsim => ?_, rfl, rfl, rfl⟩
  have hstep := Step.stand (S := M.setting) (i := i) (w := w)
  have hlater := hstep.later hinv
  refine ⟨_, Relation.ReflTransGen.single hstep, ?_⟩
  rw [hsim.term] at hlater ⊢
  have hr : r.id = i := hsim.id
  exact {
    nonzero := hsim.nonzero
    id := hsim.id
    term := by simp [Raft.resetTo]
    uncompacted := hsim.uncompacted
    log := hsim.log
    commit := hsim.commit
    voters := by rw [← hsim.voters]; simp [Raft.resetTo]
    voted := fun _ => ⟨_, setAt_self _ _ _ _, hr.symm⟩
    unvoted := fun hv => absurd (hr.symm.trans hv) hsim.nonzero
    candidate := fun _ => {
      cand := by simp [Raft.resetTo, hr, hsim.log]
      lead := fun hlead => by
        have := (hinv.lead_term hlead).2
        simp only [Raft.resetTo, hr, hsim.term] at this
        omega
      votes := fun id hid => by simp [Raft.resetTo] at hid }
    leader := fun hs => by cases hs
    preVote := hsim.preVote
    msgs := fun m hm => (hsim.msgs m hm).mono hinv hlater
    numbered := hsim.numbered
    plain := hsim.plain }

/-! ## Counting votes -/

/-- Counting an answer; a candidate must know that a granted vote was cast for it.  Only the first
answer of a node counts. -/
theorem poll (h : Tracks M w₀ i r) {id : Nat} {v : Bool}
    (hv : r.state = RaftState.candidate → id ∉ r.votes → v = true → ∀ w, w₀.Later w →
      Sim M w i r → (id = i ∨ id ∈ M.voters) ∧ ∃ b, w.ballot id r.term = some b ∧ b.choice = i) :
    Tracks M w₀ i (r.poll id v).1 := by
  refine h.map fun w _ hl hsim => ?_
  exact { hsim with
    candidate := fun hs => {
      cand := (hsim.candidate hs).cand
      lead := (hsim.candidate hs).lead
      votes := fun a ha => by
        have hold := (hsim.candidate hs).votes a
        simp only [Raft.poll] at ha ⊢
        split at ha
        · exact hold ha
        · rename_i hnew
          by_cases haid : a = id
          · subst haid
            rw [AList.lookup_insert, Option.some.injEq] at ha
            have := hv hs hnew ha w hl hsim
            rwa [← hsim.id] at this
          · rw [AList.lookup_insert_ne haid] at ha
            exact hold ha }
    leader := fun hs =>
      ⟨(hsim.leader hs).lead, (hsim.leader hs).own, fun id p hp =>
        let s := (hsim.leader hs).progress id p hp
        ⟨s.matched, s.next_pos, s.next_le, s.state⟩⟩ }

end Tracks

/-- **A candidate that counts a quorum of granted votes was voted for by a majority.** -/
theorem Sim.majority_granted (h : Sim M w i r) (hcandidate : r.state = RaftState.candidate)
    (hquorum : r.quorum = r.grantedVotes) (hself : r.id ∈ r.prs) :
    M.setting.Quorum {j | ∃ b, w.ballot j r.term = some b ∧ b.choice = i} := by
  have hc := h.candidate hcandidate
  have hvoters : M.voters.card = r.prs.keys.length := by
    rw [← h.voters, List.toFinset_card_of_nodup r.prs.keys_nodup]
  refine ⟨((r.votes.entries.filter fun e => e.2).map Sigma.fst).toFinset, ?_, ?_, ?_⟩
  · intro id hid
    simp only [List.mem_toFinset, List.mem_map, List.mem_filter] at hid
    obtain ⟨⟨a, b⟩, ⟨he, hb⟩, rfl⟩ := hid
    have hlookup : r.votes.lookup a = some true := AList.mem_lookup_iff.mpr (by simpa [← hb] using he)
    rcases (hc.votes a hlookup).1 with rfl | hv
    · rw [← h.voters, List.mem_toFinset]
      exact AList.mem_keys.mp hself
    · exact hv
  · have hnodup : ((r.votes.entries.filter fun e => e.2).map Sigma.fst).Nodup :=
      r.votes.keys_nodup.sublist (List.filter_sublist.map Sigma.fst)
    rw [List.toFinset_card_of_nodup hnodup, List.length_map, ← List.countP_eq_length_filter, hvoters]
    exact hquorum.le
  · intro id hid
    simp only [List.mem_toFinset, List.mem_map, List.mem_filter] at hid
    obtain ⟨⟨a, b⟩, ⟨he, hb⟩, rfl⟩ := hid
    have hlookup : r.votes.lookup a = some true := AList.mem_lookup_iff.mpr (by simpa [← hb] using he)
    obtain ⟨-, ballot, hballot, hchoice⟩ := hc.votes a hlookup
    exact ⟨ballot, hballot, hchoice.trans h.id⟩

/-! ## Becoming the leader -/

namespace Raft

/-- A new leader knows of its own log, and nothing of the others'. -/
theorem getProgress_elected {id : Nat} {p : Progress} (h : r.elected.getProgress id = some p) :
    (p.matched = if id = r.id then r.raftLog.lastIndex else 0) ∧ 1 ≤ p.next ∧
      p.next ≤ r.raftLog.lastIndex + 1 ∧ p.state ≠ ProgressState.snapshot := by
  have hreset : ∀ q, (r.resetProgress id q).matched = (if id = r.id then r.raftLog.lastIndex else 0) ∧
      (r.resetProgress id q).next = r.raftLog.lastIndex + 1 ∧
      (r.resetProgress id q).state = ProgressState.probe := fun q => ⟨rfl, rfl, rfl⟩
  have hsound : ∀ q, p = r.resetProgress id q ∨ p = (r.resetProgress id q).becomeReplicate →
      (p.matched = if id = r.id then r.raftLog.lastIndex else 0) ∧ 1 ≤ p.next ∧
        p.next ≤ r.raftLog.lastIndex + 1 ∧ p.state ≠ ProgressState.snapshot := by
    intro q hq
    obtain ⟨hm, hn, hs⟩ := hreset q
    rcases hq with rfl | rfl
    · exact ⟨hm, by omega, by omega, by rw [hs]; simp⟩
    · simp only [Progress.becomeReplicate, Progress.resetState, hm]
      refine ⟨trivial, by omega, ?_, by simp⟩
      split <;> omega
  unfold getProgress elected at h
  simp only [resetTo, IdMap.modify, IdMap.lookup_mapWithKey] at h
  cases hp : r.prs.lookup id with
  | some q =>
      simp only [hp, Option.map_some, Option.some.injEq] at h
      refine hsound q ?_
      split at h
      · exact Or.inr h.symm
      · exact Or.inl h.symm
  | none =>
      simp only [hp, Option.map_none] at h
      obtain ⟨q, -, rfl⟩ := Option.map_eq_some_iff.mp h
      exact hsound q (Or.inl rfl)

end Raft

/-- **The abstract step `win`**: no other node can have been the leader of this term. -/
theorem Sim.win (h : Sim M w i r) (hinv : Inv M.setting w)
    (hcandidate : r.state = RaftState.candidate) (hquorum : r.quorum = r.grantedVotes)
    (hself : r.id ∈ r.prs) : ∃ w', Steps M.setting i w w' ∧ Sim M w' i r.elected := by
  have hc := h.candidate hcandidate
  have hvotes := h.majority_granted hcandidate hquorum hself
  have hnone : w.lead r.term = none := by
    cases hl : w.lead r.term with
    | none => rfl
    | some c =>
        have := hinv.election hl hvotes
        exact absurd (by rw [hl, ← this, h.id]) hc.lead
  have hcand := hc.cand
  rw [h.id, ← h.log, ← h.term] at hcand
  rw [← h.term] at hvotes hnone
  have hstep := Step.win hcand hnone hvotes
  have hlater := hstep.later hinv
  refine ⟨_, Relation.ReflTransGen.single hstep, ?_⟩
  have hlen := h.uncompacted.lastIndex
  rw [h.term, h.log] at hlater ⊢
  exact {
    nonzero := h.nonzero
    id := h.id
    term := h.term
    uncompacted := h.uncompacted
    log := h.log
    commit := h.commit
    voters := by rw [← h.voters]; simp [Raft.elected, Raft.resetTo]
    voted := by simpa [Raft.elected, Raft.resetTo] using h.voted
    unvoted := by simpa [Raft.elected, Raft.resetTo] using h.unvoted
    candidate := fun hs => by cases hs
    leader := fun _ => {
      lead := by simp [Raft.elected, Raft.resetTo, h.id]
      own := by simp [Raft.elected, Raft.resetTo, h.id]
      progress := fun id p hp => by
        obtain ⟨hmatched, hpos, hle, hstate⟩ := Raft.getProgress_elected hp
        rw [hlen] at hmatched hle
        refine ⟨?_, hpos, hle, hstate⟩
        rw [hmatched, h.id]
        split
        · rename_i hid
          simp [hid, Raft.elected, Raft.resetTo]
        · exact Nat.zero_le _ }
    preVote := h.preVote
    msgs := fun m hm => (h.msgs m hm).mono hinv hlater
    numbered := fun t => forall_update (P := fun _ ℓ => Numbered 1 ℓ) h.uncompacted.numbered
      (fun t _ => h.numbered t) t
    plain := fun t => forall_update (P := fun _ ℓ => ∀ e ∈ ℓ, M.Plain e)
      (h.plain_log hinv) (fun t _ => h.plain t) t }

namespace Tracks

/-- **A node that counts a quorum of granted votes becomes the leader.** -/
theorem becomeLeader (h : Tracks M w₀ i r) (hcandidate : r.state = RaftState.candidate)
    (hquorum : r.quorum = r.grantedVotes) (hok : r.becomeLeader = Except.ok r') :
    Leading M w₀ i r' := by
  obtain ⟨hself, r₁, happend, rfl⟩ := Raft.becomeLeader_eq_ok hok
  have helected : Leading M w₀ i r.elected :=
    ⟨h.step fun w hinv _ hsim => hsim.win hinv hcandidate hquorum hself, rfl⟩
  have hr₁ := helected.appendEntry (by simp) happend
  exact hr₁.congr rfl

/-! ## Campaigning -/

/-- **A candidate's requests show the log it stood with.** -/
theorem requestVotes (h : Tracks M w₀ i r) {context : Bytes}
    (hcandidate : r.state = RaftState.candidate)
    (hok : r.requestVotes MessageType.msgVote r.term context = Except.ok r') :
    Tracks M w₀ i r' := by
  refine (Outcome.foldlM_induct
    (P := fun s => Tracks M w₀ i s ∧ s.state = RaftState.candidate ∧ s.term = r.term)
    (fun s s' toId hmem hs hround => ?_) ⟨h, hcandidate, rfl⟩ hok).1
  obtain ⟨htracks, hstate, hterm⟩ := hs
  split at hround
  · exact Outcome.pure_eq_ok.mp hround ▸ ⟨htracks, hstate, hterm⟩
  obtain ⟨logTerm, hlogTerm, hsend⟩ := Outcome.bind_eq_ok.mp hround
  have hvoter : toId ∈ M.voters := by
    rw [← h.voters]
    exact List.mem_toFinset.mpr hmem
  refine ⟨htracks.send hsend fun w hinv hl hsim => ?_, ?_, ?_⟩
  · have hu := hsim.uncompacted
    refine VoteClaim.mk hvoter ?_ ⟨s.raftLog.logical, ?_, ?_, ?_⟩
    · rw [Raft.signed_fromId, hsim.id]
      exact hsim.nonzero
    · have hcand := (hsim.candidate hstate).cand
      rw [hterm] at hcand
      exact hcand
    · exact hu.lastIndex
    · exact (hu.lastTerm hlogTerm).trans (lastTerm_eq_termAt M _).symm
  · rw [(Raft.send_eq_ok hsend).1]
    exact hstate
  · rw [(Raft.send_eq_ok hsend).1]
    exact hterm

theorem requestPreVotes (h : Tracks M w₀ i r) (hpre : M.preVote) {term : Nat} {context : Bytes}
    (hok : r.requestVotes MessageType.msgPreVote term context = Except.ok r') :
    Tracks M w₀ i r' := by
  refine Outcome.foldlM_induct (P := Tracks M w₀ i) (fun s s' toId _ hs hround => ?_) h hok
  split at hround
  · exact Outcome.pure_eq_ok.mp hround ▸ hs
  · obtain ⟨logTerm, -, hsend⟩ := Outcome.bind_eq_ok.mp hround
    exact hs.send_claimless hsend fun w m' ht => by
      simp only [Claims, ht, Raft.voteRequest]
      exact hpre

/-- A candidate has voted for itself. -/
theorem candidacy (h : Tracks M w₀ i r) (hok : r.becomeCandidate = Except.ok r') :
    Tracks M w₀ i (r'.poll r'.id true).1 ∧ r'.state = RaftState.candidate := by
  obtain ⟨h', hstate, hvotes, hvote⟩ := h.becomeCandidate hok
  refine ⟨h'.poll fun _ _ _ w _ hsim => ⟨Or.inl hsim.id, ?_⟩, hstate⟩
  have hne : r'.vote ≠ 0 := by
    rw [hvote, hsim.id]
    exact hsim.nonzero
  obtain ⟨b, hb, hchoice⟩ := hsim.voted hne
  exact ⟨b, hsim.id ▸ hb, by rw [hchoice, hvote, hsim.id]⟩

theorem campaignElection (h : Tracks M w₀ i r) {context : Bytes}
    (hok : r.campaignElection context = Except.ok r') : Tracks M w₀ i r' := by
  obtain ⟨r₁, hcandidate, hok⟩ := Outcome.bind_eq_ok.mp hok
  obtain ⟨hpolled, hstate⟩ := h.candidacy hcandidate
  dsimp only at hok
  split at hok
  · rename_i hquorum
    exact (hpolled.becomeLeader hstate hquorum hok).tracks
  · exact hpolled.requestVotes hstate hok

theorem preCandidacy (h : Tracks M w₀ i r) (hok : r.becomePreCandidate = Except.ok r') :
    Tracks M w₀ i (r'.poll r'.id true).1 := by
  obtain ⟨h', hstate⟩ := h.becomePreCandidate hok
  exact h'.poll fun hs => by rw [hstate] at hs; cases hs

theorem campaignPreElection (h : Tracks M w₀ i r) (hpre : M.preVote)
    (hok : r.campaignPreElection = Except.ok r') : Tracks M w₀ i r' := by
  obtain ⟨r₁, hcandidate, hok⟩ := Outcome.bind_eq_ok.mp hok
  have hpolled := h.preCandidacy hcandidate
  dsimp only at hok
  split at hok
  · exact hpolled.campaignElection hok
  · exact hpolled.requestPreVotes hpre hok

theorem campaign (h : Tracks M w₀ i r) {t : CampaignType}
    (hpre : t = CampaignType.preElection → M.preVote) (hok : r.campaign t = Except.ok r') :
    Tracks M w₀ i r' := by
  cases t with
  | preElection => exact h.campaignPreElection (hpre rfl) hok
  | election => exact h.campaignElection hok
  | transfer => exact h.campaignElection hok

theorem stepHup (h : Tracks M w₀ i r) (hok : r.stepHup = Except.ok r') : Tracks M w₀ i r' := by
  rw [Raft.stepHup] at hok
  split at hok
  · exact Outcome.pure_eq_ok.mp hok ▸ h
  obtain ⟨res, -, hok⟩ := Outcome.bind_eq_ok.mp hok
  split at hok
  · cases hok
  split at hok
  · exact Outcome.pure_eq_ok.mp hok ▸ h
  · refine h.campaign (fun hpre => ?_) hok
    split at hpre
    · rename_i hr
      obtain ⟨w, -, -, -, hsim⟩ := h
      exact hsim.preVote hr
    · cases hpre

/-! ## Answers -/

/-- Counting an answer to a vote or a pre-vote.  Only a pre-vote that meets a candidate would be
counted for what it is not. -/
theorem pollAnswer (h : Tracks M w₀ i r) (hm : Claims M w₀ i m) (hinv₀ : Inv M.setting w₀)
    (htype : m.type = MessageType.msgVoteResp ∧ m.term = r.term ∨
      m.type = MessageType.msgPreVoteResp ∧
        (r.state = RaftState.candidate → m.fromId ∉ r.votes → m.reject = true)) :
    Tracks M w₀ i (r.poll m.fromId (!m.reject)).1 := by
  refine h.poll fun hcandidate hnew hgranted w hl hsim => ?_
  have hgranted : m.reject = false := by simpa using hgranted
  rcases htype with ⟨ht, hterm⟩ | ⟨ht, hreject⟩
  · have hclaim := hm.mono hinv₀ hl
    simp only [Claims, ht] at hclaim
    obtain ⟨hvoter, hballot⟩ := hclaim.granted hgranted
    exact ⟨Or.inr hvoter, hterm ▸ hballot⟩
  · rw [hreject hcandidate hnew] at hgranted
    cases hgranted

theorem stepVoteResp (h : Tracks M w₀ i r) (hm : Claims M w₀ i m) (hinv₀ : Inv M.setting w₀)
    (htype : m.type = MessageType.msgVoteResp ∧ m.term = r.term ∨
      m.type = MessageType.msgPreVoteResp ∧
        (r.state = RaftState.candidate → m.fromId ∉ r.votes → m.reject = true))
    (hok : r.stepVoteResp m = Except.ok r') : Tracks M w₀ i r' := by
  have hpolled := h.pollAnswer hm hinv₀ htype
  simp only [Raft.stepVoteResp] at hok
  split at hok
  · rename_i hquorum
    split at hok
    · exact hpolled.campaign (fun hpre => by cases hpre) hok
    split at hok
    · cases hok
    · rename_i hstate
      obtain ⟨r₁, hleader, hok⟩ := Outcome.bind_eq_ok.mp hok
      exact ((hpolled.becomeLeader (by simpa using hstate) hquorum hleader).bcastAppend hok).tracks
  split at hok
  · exact (hpolled.becomeFollower le_rfl hok).1
  · exact Outcome.pure_eq_ok.mp hok ▸ hpolled

/-! ## Voting -/

/-- A candidate's log is compared as the abstract rule compares it. -/
theorem upToDate_of_isUpToDate {l : RaftLog} (hu : Uncompacted l) {ℓ : List Entry}
    (h : l.isUpToDate ℓ.length (M.setting.lastTerm ℓ) = Except.ok true) :
    M.setting.UpToDate ℓ l.logical := by
  obtain ⟨t, ht, h⟩ := Outcome.bind_eq_ok.mp h
  have h := Outcome.pure_eq_ok.mp h
  rw [hu.lastTerm ht, hu.lastIndex, ← lastTerm_eq_termAt M] at h
  simp only [Bool.or_eq_true, Bool.and_eq_true, decide_eq_true_eq] at h
  exact h.imp (fun hlt => hlt) fun ⟨heq, hle⟩ => ⟨heq.symm, hle⟩

/-- **The abstract step `vote`**, unless the vote was cast before. -/
theorem castVote (h : Tracks M w₀ i r) {c : Nat} {ℓ : List Entry} (hc : c ≠ 0)
    (hcand : w₀.cand c r.term = some ℓ) (hvote : r.vote = c ∨ r.vote = 0)
    (hup : r.raftLog.isUpToDate ℓ.length (M.setting.lastTerm ℓ) = Except.ok true) :
    Tracks M w₀ i { r with vote := c } := by
  rcases hvote with rfl | hzero
  · exact h
  refine h.step fun w hinv hl hsim => ?_
  have hcand' : w.cand c (w.term i) = some ℓ := by
    rw [hsim.term]
    exact hl.cand hcand
  have hnone : w.ballot i (w.term i) = none := by
    rw [hsim.term]
    exact hsim.unvoted hzero
  have huptodate : M.setting.UpToDate ℓ (w.log i) := by
    rw [hsim.log]
    exact upToDate_of_isUpToDate hsim.uncompacted hup
  have hstep := Step.vote c ℓ hcand' hnone huptodate
  have hlater := hstep.later hinv
  refine ⟨_, Relation.ReflTransGen.single hstep, ?_⟩
  have hterm := hsim.term
  exact { hsim with
    voted := fun _ => ⟨_, by rw [← hterm]; exact setAt_self _ _ _ _, rfl⟩
    unvoted := fun hz => absurd hz hc
    candidate := fun hs => {
      cand := (hsim.candidate hs).cand
      lead := (hsim.candidate hs).lead
      votes := fun id hid => ((hsim.candidate hs).votes id hid).imp_right
        fun ⟨b, hb, hchoice⟩ => ⟨b, hlater.ballot hb, hchoice⟩ }
    leader := fun hs => ⟨(hsim.leader hs).lead, (hsim.leader hs).own, fun id p hp =>
      let s := (hsim.leader hs).progress id p hp
      ⟨s.matched, s.next_pos, s.next_le, s.state⟩⟩
    msgs := fun m hm => (hsim.msgs m hm).mono hinv hlater }

theorem stepPreVote (h : Tracks M w₀ i r) (htype : m.type = MessageType.msgPreVote)
    (hpre : M.preVote) (hok : r.stepVote m = Except.ok r') : Tracks M w₀ i r' := by
  have hsent : ∀ {s : Raft} {x : Message}, x.type = MessageType.msgPreVoteResp →
      r.send x = Except.ok s → Tracks M w₀ i s := by
    intro s x hx hs
    refine h.send hs fun w hinv _ hsim => ?_
    have hterm := (Raft.send_eq_ok hs).2
    simp only [Claims, Raft.signed_type, hx]
    refine ⟨hpre, ?_⟩
    simp only [hx, MessageType.isCampaign, Bool.true_eq_false, iff_false] at hterm
    rwa [Raft.signed_term_of_isCampaign (by rw [hx]; rfl)]
  rw [Raft.stepVote] at hok
  split at hok
  · exact Outcome.pure_eq_ok.mp hok ▸ h
  obtain ⟨granted, -, hok⟩ := Outcome.bind_eq_ok.mp hok
  obtain ⟨respType, hresp, hok⟩ := Outcome.bind_eq_ok.mp hok
  simp only [htype, voteRespMsgType, Outcome.pure_eq_ok] at hresp
  subst hresp
  split at hok
  · obtain ⟨r₁, hs, hok⟩ := Outcome.bind_eq_ok.mp hok
    rw [if_neg (by simp [htype])] at hok
    exact Outcome.pure_eq_ok.mp hok ▸ hsent rfl hs
  · exact hsent rfl hok

/-- **A vote that is granted is cast first.** -/
theorem stepVote (h : Tracks M w₀ i r) (htype : m.type = MessageType.msgVote)
    (hm : VoteClaim M w₀ i m) (hterm : m.term = r.term) (hok : r.stepVote m = Except.ok r') :
    Tracks M w₀ i r' := by
  rw [Raft.stepVote] at hok
  split at hok
  · exact Outcome.pure_eq_ok.mp hok ▸ h
  obtain ⟨granted, hgrants, hok⟩ := Outcome.bind_eq_ok.mp hok
  obtain ⟨respType, hresp, hok⟩ := Outcome.bind_eq_ok.mp hok
  simp only [htype, voteRespMsgType, Outcome.pure_eq_ok] at hresp
  subst hresp
  cases granted with
  | false =>
      rw [if_neg (by simp)] at hok
      refine h.send hok fun w hinv _ hsim => ?_
      have hpos := hsim.term_pos hinv
      refine GrantClaim.mk ?_ fun hr => ?_
      · rw [Raft.signed_term_of_isCampaign rfl]
        exact Nat.ne_of_gt hpos
      · rw [Raft.signed_reject] at hr
        cases hr
  | true =>
      rw [if_pos rfl] at hok
      obtain ⟨r₁, hs, hok⟩ := Outcome.bind_eq_ok.mp hok
      obtain rfl := Outcome.pure_eq_ok.mp hok
      -- the vote is cast, then the answer is sent
      rw [Raft.grantsVote] at hgrants
      split at hgrants
      · rename_i hcan
        obtain ⟨ℓ, hcand, hindex, hlogTerm⟩ := hm.log
        rw [hindex, hlogTerm] at hgrants
        have hvote : r.vote = m.fromId ∨ r.vote = 0 := by
          simp only [Raft.canVote, htype, Bool.or_eq_true, beq_iff_eq, Bool.and_eq_true] at hcan
          rcases hcan with (hcan | hcan) | hcan
          · exact Or.inl hcan
          · exact Or.inr hcan.1
          · exact absurd hcan.1 (by simp)
        have hcast := h.castVote hm.candidate (hterm ▸ hcand) hvote hgrants
        have hanswered := hcast.queue
          { type := MessageType.msgVoteResp, toId := m.fromId, term := m.term }
          fun w hinv _ hsim => by
            refine GrantClaim.mk ?_ fun _ => ⟨?_, ?_⟩
            · have hpos : 1 ≤ r.term := hsim.term_pos hinv
              rw [Raft.signed_term_of_isCampaign rfl]
              dsimp only
              omega
            · rw [Raft.signed_fromId, hsim.id]
              exact hm.voter
            · rw [Raft.signed_fromId, hsim.id]
              obtain ⟨b, hb, hchoice⟩ := hsim.voted hm.candidate
              refine ⟨b, ?_, hchoice⟩
              rw [Raft.signed_term_of_isCampaign rfl]
              exact hterm ▸ hb
        exact hanswered.congr (by rw [(Raft.send_eq_ok hs).1]; rfl)
      · cases hgrants

end Tracks

end RaftKv
