import RaftKv.Safety.Election

/-!
# Every step of a node follows the abstract replication

* `Tracks.handleAppendEntries` — a follower accepts what the leader of its term sends: the abstract
  steps `accept`, `ackCommit` and `commitFollow`.
* `Tracks.handleHeartbeat` — a follower commits what it has acknowledged.
* `CleanFor` — **the one situation that is excluded**: a candidate that is given a granted pre-vote.
* `Tracks.step`, `Tracks.tick` — every message and every tick.
-/

namespace RaftKv

open Replication

variable {M : RaftKv.Membership} {w w₀ : World Nat Entry} {i : Nat} {r r' : Raft} {m : Message}

/-! ## Followers -/

/-- The follower's log after the abstract step `accept`; the commit index has not moved yet. -/
theorem Sim.accepted (h : Sim M w i r) (hinv : Inv M.setting w)
    (hfollower : r.state = RaftState.follower) {l : RaftLog} (hu : Uncompacted l) {n : Nat}
    (hl : w.Later { w with
      log := Function.update w.log i l.logical
      ack := setAt w.ack i (w.term i) (max (w.ack i (w.term i)) n) }) :
    Sim M { w with
        log := Function.update w.log i l.logical
        ack := setAt w.ack i (w.term i) (max (w.ack i (w.term i)) n) } i
      { r with raftLog := { l with committed := r.raftLog.committed } } := by
  have hc := @Uncompacted.congr l { l with committed := r.raftLog.committed } hu rfl rfl
  exact { h with
    uncompacted := hc.1
    log := by simp [hc.2]
    commit := h.commit
    candidate := fun hs => by rw [show r.state = _ from hs] at hfollower; cases hfollower
    leader := fun hs => by rw [show r.state = _ from hs] at hfollower; cases hfollower
    msgs := fun m hm => (h.msgs m hm).mono hinv hl }

/-- **The abstract step `commitFollow`**, if the commit index moves at all. -/
theorem Sim.commitFollow (h : Sim M w i r) (hinv : Inv M.setting w) {l : RaftLog}
    (hu : Uncompacted l) (hlogical : l.logical = r.raftLog.logical) {k : Nat}
    (hk : k ≤ w.ack i r.term)
    (hcomm : w.Committed M.setting r.term ((w.llog r.term).take k))
    (hc : l.committed = max r.raftLog.committed k) :
    ∃ w', Steps M.setting i w w' ∧ w'.ack = w.ack ∧ Sim M w' i { r with raftLog := l } := by
  rcases Nat.lt_or_ge r.raftLog.committed k with hlt | hge
  · rw [Nat.max_eq_right hlt.le] at hc
    subst hc
    rw [← h.term] at hk hcomm
    have hstep := Step.commitFollow l.committed hk hcomm (by rw [h.commit]; exact hlt)
    exact ⟨_, Relation.ReflTransGen.single hstep, rfl, h.commitTo hinv hu hlogical (hstep.later hinv)⟩
  · rw [Nat.max_eq_left hge] at hc
    exact ⟨w, Relation.ReflTransGen.refl, rfl, h.relog hinv hu hlogical hc⟩

/-- An append request that the log takes: the abstract steps `accept` and `commitFollow`. -/
theorem Sim.maybeAppend (h : Sim M w i r) (hinv : Inv M.setting w)
    (hfollower : r.state = RaftState.follower) (hm : AppClaim M w i m) (hterm : m.term = r.term)
    (hindex : r.raftLog.committed ≤ m.index) {l : RaftLog} {res : Option Nat}
    (hok : r.raftLog.maybeAppend m.index m.logTerm m.commit m.entries = Except.ok (l, res)) :
    (res = none ∧ l = r.raftLog) ∨ ∃ n, res = some n ∧ ∃ w', Steps M.setting i w w' ∧
      Sim M w' i { r with raftLog := l } ∧ n ≤ w'.ack i r.term := by
  have hmatching : Matching r.raftLog.logical (w.llog m.term) :=
    matching_of_good (h.good hinv) (hinv.llog_good _)
  rw [hm.logTerm] at hok
  rcases h.uncompacted.maybeAppend hmatching (h.numbered _)
    (fun e he => term_pos_of_good hinv (hinv.llog_good _) he) hm.index hm.entries hok with
    ⟨rfl, rfl⟩ | ⟨rfl, hu, hlen, hc, hlog⟩
  · exact Or.inl ⟨rfl, rfl⟩
  refine Or.inr ⟨_, rfl, ?_⟩
  have hlead := hm.lead
  rw [hterm, ← h.term] at hlead hlen hlog
  have hstep := Step.accept (S := M.setting) m.fromId _ l.logical hlead hm.other hlen
    (by rw [h.commit]; omega) (by rw [h.log]; exact hlog)
  have hlater := hstep.later hinv
  obtain ⟨hinv₁, -⟩ := hinv.steps (Relation.ReflTransGen.single hstep)
  have haccepted := h.accepted hinv hfollower hu hlater
  obtain ⟨w₂, hsteps, hack, hsim₂⟩ := haccepted.commitFollow hinv₁ hu rfl
    (k := min m.commit (m.index + m.entries.length)) (by simp [h.term]) (by
      have hcomm := hlater.committed hm.commit
      rw [hterm] at hcomm
      exact hcomm.of_isPrefix (List.take_prefix_take_left (Nat.min_le_left _ _))) hc
  refine ⟨w₂, Relation.ReflTransGen.head hstep hsteps, hsim₂, ?_⟩
  rw [hack, ← h.term]
  simp

/-- An answer to an append request claims what its node has acknowledged. -/
theorem Sim.ackClaim (h : Sim M w i r) (hpos : 1 ≤ r.term) {toId index hint : Nat} {reject : Bool}
    (hto : toId ≠ i) (hack : reject = false → index ≤ w.ack i r.term) :
    Claims M w toId (r.signed
      { type := MessageType.msgAppResp, toId := toId, index := index, reject := reject,
        rejectHint := hint }) := by
  have hclaim : AckClaim w toId (r.signed
      { type := MessageType.msgAppResp, toId := toId, index := index, reject := reject,
        rejectHint := hint }) := by
    refine ⟨?_, ?_, fun hr => ?_⟩
    · rw [Raft.signed_fromId, h.id]
      exact hto.symm
    · rw [Raft.signed_term rfl rfl]
      exact Nat.ne_of_gt hpos
    · rw [Raft.signed_reject] at hr
      rw [Raft.signed_index, Raft.signed_fromId, Raft.signed_term rfl rfl, h.id]
      exact hack hr
  simpa only [Claims, Raft.signed_type] using hclaim

namespace Tracks

/-- The answer of a follower to an append request. -/
theorem handleAppendEntries (h : Tracks M w₀ i r) (hfollower : r.state = RaftState.follower)
    (hm : AppClaim M w₀ i m) (hterm : m.term = r.term)
    (hok : r.handleAppendEntries m = Except.ok r') : Tracks M w₀ i r' := by
  rw [Raft.handleAppendEntries] at hok
  split at hok
  · -- the request is older than the commit index
    refine h.stepSend hok fun w hinv hl hsim => ?_
    have hlead := (hm.mono hl).lead
    rw [hterm, ← hsim.term] at hlead
    have hstep := Step.ackCommit (S := M.setting) m.fromId hlead
    have hlater := hstep.later hinv
    have hsim' : Sim M { w with
        ack := setAt w.ack i (w.term i) (max (w.ack i (w.term i)) (w.commit i)) } i r :=
      { hsim with
        candidate := fun hs => by rw [hs] at hfollower; cases hfollower
        leader := fun hs => by rw [hs] at hfollower; cases hfollower
        msgs := fun m hm => (hsim.msgs m hm).mono hinv hlater }
    refine ⟨_, Relation.ReflTransGen.single hstep, hsim', ?_⟩
    refine hsim'.ackClaim (hsim.term_pos hinv) hm.other fun _ => ?_
    simp [hsim.term, hsim.commit]
  rename_i hindex
  obtain ⟨⟨l, res⟩, happend, hok⟩ := Outcome.bind_eq_ok.mp hok
  dsimp only at hok
  cases res with
  | some n =>
      refine h.stepSend hok fun w hinv hl hsim => ?_
      rcases hsim.maybeAppend hinv hfollower (hm.mono hl) hterm (Nat.not_lt.mp hindex) happend with
        ⟨hnone, -⟩ | ⟨n', hn, w', hsteps, hsim', hack⟩
      · cases hnone
      obtain rfl := Option.some.inj hn
      exact ⟨w', hsteps, hsim', hsim'.ackClaim (hsim.term_pos hinv) hm.other fun _ => hack⟩
  | none =>
      refine h.stepSend hok fun w hinv hl hsim => ?_
      rcases hsim.maybeAppend hinv hfollower (hm.mono hl) hterm (Nat.not_lt.mp hindex) happend with
        ⟨-, rfl⟩ | ⟨n', hn, -⟩
      · exact ⟨w, Relation.ReflTransGen.refl, hsim,
          hsim.ackClaim (hsim.term_pos hinv) hm.other fun hr => by cases hr⟩
      · cases hn

/-- The answer to a heartbeat. -/
theorem handleHeartbeat (h : Tracks M w₀ i r) (hinv₀ : Inv M.setting w₀)
    (hm : HeartbeatClaim M w₀ i m) (hterm : m.term = r.term)
    (hok : r.handleHeartbeat m = Except.ok r') : Tracks M w₀ i r' := by
  obtain ⟨l, hcommit, hok⟩ := Outcome.bind_eq_ok.mp hok
  refine h.stepSend hok fun w hinv hl hsim => ?_
  have hclaim := hm.mono hinv₀ hl
  obtain ⟨hu, hlogical, hc⟩ := hsim.uncompacted.commitTo hcommit
  obtain ⟨w', hsteps, -, hsim'⟩ := hsim.commitFollow hinv hu hlogical
    (hterm ▸ hclaim.commit_le) (hterm ▸ hclaim.commit) hc
  refine ⟨w', hsteps, hsim', ?_⟩
  have : (Raft.signed { r with raftLog := l }
      { type := MessageType.msgHeartbeatResp, toId := m.fromId }).fromId ≠ m.fromId := by
    rw [Raft.signed_fromId, hsim'.id]
    exact hm.other.symm
  exact this

/-! ## The roles -/

/-- Passing a message on; a proposal stays one without a configuration change. -/
theorem forwardToLead (h : Tracks M w₀ i r) {status : Status}
    (hclaim : ∀ w m', m'.type = m.type → m'.entries = m.entries → Claims M w r.lead m')
    (hok : r.forwardToLead m = Except.ok (r', status)) : Tracks M w₀ i r' := by
  obtain ⟨r₁, hsend, hok⟩ := Outcome.bind_eq_ok.mp hok
  simp only [Outcome.pure_eq_ok, Prod.mk.injEq] at hok
  obtain ⟨rfl, -⟩ := hok
  exact h.send hsend fun w _ _ _ => hclaim w _ (by simp) (by simp)

theorem stepFollower (h : Tracks M w₀ i r) (hinv₀ : Inv M.setting w₀)
    (hfollower : r.state = RaftState.follower) (hm : Claims M w₀ i m)
    (hterm : m.term = 0 ∨ m.term = r.term ∨ m.type = MessageType.msgPreVoteResp) {status : Status}
    (hok : r.stepFollower m = Except.ok (r', status)) : Tracks M w₀ i r' := by
  have heard : Tracks M w₀ i { r with electionElapsed := 0, lead := m.fromId } := h.congr rfl
  rw [Raft.stepFollower] at hok
  split at hok
  · rename_i ht
    simp only [Claims, ht] at hm
    split at hok
    · simp only [Outcome.pure_eq_ok, Prod.mk.injEq] at hok
      exact hok.1 ▸ h
    split at hok
    · simp only [Outcome.pure_eq_ok, Prod.mk.injEq] at hok
      exact hok.1 ▸ h
    · exact h.forwardToLead (fun w m' ht' he => by simpa only [Claims, ht', ht, he] using hm) hok
  · rename_i ht
    simp only [Claims, ht] at hm
    obtain ⟨r₁, h₁, hok⟩ := Outcome.bind_eq_ok.mp hok
    simp only [Outcome.pure_eq_ok, Prod.mk.injEq] at hok
    obtain ⟨rfl, -⟩ := hok
    refine heard.handleAppendEntries hfollower hm ?_ h₁
    exact (hterm.resolve_left (Nat.ne_of_gt (hm.term_pos hinv₀))).resolve_right (by simp [ht])
  · rename_i ht
    simp only [Claims, ht] at hm
    obtain ⟨r₁, h₁, hok⟩ := Outcome.bind_eq_ok.mp hok
    simp only [Outcome.pure_eq_ok, Prod.mk.injEq] at hok
    obtain ⟨rfl, -⟩ := hok
    refine heard.handleHeartbeat hinv₀ hm ?_ h₁
    exact (hterm.resolve_left (Nat.ne_of_gt (hm.term_pos hinv₀))).resolve_right (by simp [ht])
  · rename_i ht
    simp only [Claims, ht] at hm
  · rename_i ht
    split at hok
    · simp only [Outcome.pure_eq_ok, Prod.mk.injEq] at hok
      exact hok.1 ▸ h
    · exact h.forwardToLead (fun w m' ht' _ => by simp only [Claims, ht', ht]) hok
  · split at hok
    · obtain ⟨r₁, h₁, hok⟩ := Outcome.bind_eq_ok.mp hok
      simp only [Outcome.pure_eq_ok, Prod.mk.injEq] at hok
      exact hok.1 ▸ h.campaign (fun hpre => by cases hpre) h₁
    · simp only [Outcome.pure_eq_ok, Prod.mk.injEq] at hok
      exact hok.1 ▸ h
  · rename_i ht
    split at hok
    · simp only [Outcome.pure_eq_ok, Prod.mk.injEq] at hok
      exact hok.1 ▸ h
    · exact h.forwardToLead (fun w m' ht' _ => by simp only [Claims, ht', ht]) hok
  · split at hok
    · simp only [Outcome.pure_eq_ok, Prod.mk.injEq] at hok
      obtain ⟨rfl, -⟩ := hok
      exact h.congr rfl
    · simp only [Outcome.pure_eq_ok, Prod.mk.injEq] at hok
      exact hok.1 ▸ h
  · simp only [Outcome.pure_eq_ok, Prod.mk.injEq] at hok
    exact hok.1 ▸ h

end Tracks

/-- The message `m` does not give a candidate a granted pre-vote of its term or a later one, from a
node that has not answered it yet. -/
def CleanFor (r : Raft) (m : Message) : Prop :=
  r.state = RaftState.candidate → m.type = MessageType.msgPreVoteResp → r.term ≤ m.term →
    m.fromId ∉ r.votes → m.reject = true

namespace Tracks

theorem stepCandidate (h : Tracks M w₀ i r) (hinv₀ : Inv M.setting w₀) (hm : Claims M w₀ i m)
    (hterm : m.term = 0 ∨ m.term = r.term ∨
      m.type = MessageType.msgPreVoteResp ∧ r.term < m.term)
    (hclean : CleanFor r m) {status : Status}
    (hok : r.stepCandidate m = Except.ok (r', status)) : Tracks M w₀ i r' := by
  rw [Raft.stepCandidate] at hok
  split at hok
  · simp only [Outcome.pure_eq_ok, Prod.mk.injEq] at hok
    exact hok.1 ▸ h
  · rename_i ht
    simp only [Claims, ht] at hm
    obtain ⟨r₁, h₁, hok⟩ := Outcome.bind_eq_ok.mp hok
    obtain ⟨r₂, h₂, hok⟩ := Outcome.bind_eq_ok.mp hok
    simp only [Outcome.pure_eq_ok, Prod.mk.injEq] at hok
    obtain ⟨rfl, -⟩ := hok
    have hsame : m.term = r.term :=
      (hterm.resolve_left (Nat.ne_of_gt (hm.term_pos hinv₀))).resolve_right (by simp [ht])
    obtain ⟨hfollows, hfollower, hterm₁⟩ := h.becomeFollower hsame.ge h₁
    exact hfollows.handleAppendEntries hfollower hm hterm₁.symm h₂
  · rename_i ht
    simp only [Claims, ht] at hm
    obtain ⟨r₁, h₁, hok⟩ := Outcome.bind_eq_ok.mp hok
    obtain ⟨r₂, h₂, hok⟩ := Outcome.bind_eq_ok.mp hok
    simp only [Outcome.pure_eq_ok, Prod.mk.injEq] at hok
    obtain ⟨rfl, -⟩ := hok
    have hsame : m.term = r.term :=
      (hterm.resolve_left (Nat.ne_of_gt (hm.term_pos hinv₀))).resolve_right (by simp [ht])
    obtain ⟨hfollows, hfollower, hterm₁⟩ := h.becomeFollower hsame.ge h₁
    exact hfollows.handleHeartbeat hinv₀ hm hterm₁.symm h₂
  · rename_i ht
    simp only [Claims, ht] at hm
  · rename_i ht
    obtain ⟨r₁, h₁, hok⟩ := Outcome.bind_eq_ok.mp hok
    simp only [Outcome.pure_eq_ok, Prod.mk.injEq] at hok
    obtain ⟨rfl, -⟩ := hok
    refine h.stepVoteResp hm hinv₀ (Or.inr ⟨ht, fun hs hnew => hclean hs ht ?_ hnew⟩) h₁
    simp only [Claims, ht] at hm
    rcases hterm with h₀ | heq | ⟨-, hlt⟩
    · exact absurd h₀ hm.2
    · exact heq.ge
    · exact hlt.le
  · rename_i ht
    obtain ⟨r₁, h₁, hok⟩ := Outcome.bind_eq_ok.mp hok
    simp only [Outcome.pure_eq_ok, Prod.mk.injEq] at hok
    obtain ⟨rfl, -⟩ := hok
    refine h.stepVoteResp hm hinv₀ (Or.inl ⟨ht, ?_⟩) h₁
    simp only [Claims, ht] at hm
    exact (hterm.resolve_left hm.term).resolve_right (by simp [ht])
  · simp only [Outcome.pure_eq_ok, Prod.mk.injEq] at hok
    exact hok.1 ▸ h

theorem stepLeader (h : Leading M w₀ i r) (hm : Claims M w₀ i m)
    (hterm : m.term = 0 ∨ m.term = r.term ∨ m.type = MessageType.msgPreVoteResp) {status : Status}
    (hok : r.stepLeader m = Except.ok (r', status)) : Tracks M w₀ i r' := by
  rw [Raft.stepLeader] at hok
  split at hok
  · obtain ⟨r₁, h₁, hok⟩ := Outcome.bind_eq_ok.mp hok
    simp only [Outcome.pure_eq_ok, Prod.mk.injEq] at hok
    exact hok.1 ▸ (h.bcastHeartbeatWithCtx h₁).tracks
  · split at hok
    · simp only [Outcome.pure_eq_ok, Prod.mk.injEq] at hok
      exact hok.1 ▸ h.tracks
    · obtain ⟨r₁, h₁, hok⟩ := Outcome.bind_eq_ok.mp hok
      simp only [Outcome.pure_eq_ok, Prod.mk.injEq] at hok
      exact hok.1 ▸ (h.tracks.becomeFollower le_rfl h₁).1
  · rename_i ht
    simp only [Claims, ht] at hm
    exact (h.stepLeaderProp hm hok).tracks
  · obtain ⟨r₁, h₁, hok⟩ := Outcome.bind_eq_ok.mp hok
    simp only [Outcome.pure_eq_ok, Prod.mk.injEq] at hok
    exact hok.1 ▸ (h.stepLeaderReadIndex h₁).tracks
  · split at hok
    · simp only [Outcome.pure_eq_ok, Prod.mk.injEq] at hok
      exact hok.1 ▸ h.tracks
    · rename_i pr hpr
      obtain ⟨r₁, h₁, hok⟩ := Outcome.bind_eq_ok.mp hok
      simp only [Outcome.pure_eq_ok, Prod.mk.injEq] at hok
      exact hok.1 ▸ (h.stepLeaderPeer hpr hm hterm h₁).tracks

theorem stepRole (h : Tracks M w₀ i r) (hinv₀ : Inv M.setting w₀) (hm : Claims M w₀ i m)
    (hterm : m.term = 0 ∨ m.term = r.term ∨
      m.type = MessageType.msgPreVoteResp ∧ r.term < m.term)
    (hclean : CleanFor r m) {status : Status}
    (hok : r.stepRole m = Except.ok (r', status)) : Tracks M w₀ i r' := by
  have hterm' := hterm.imp_right (Or.imp_right And.left)
  rw [Raft.stepRole] at hok
  split at hok
  · rename_i hs
    exact h.stepFollower hinv₀ hs hm hterm' hok
  · exact h.stepCandidate hinv₀ hm hterm hclean hok
  · exact h.stepCandidate hinv₀ hm hterm hclean hok
  · rename_i hs
    exact stepLeader ⟨h, hs⟩ hm hterm' hok

/-! ## Terms -/

theorem stepHigherTerm (h : Tracks M w₀ i r) (hlt : r.term < m.term)
    (hok : r.stepHigherTerm m = Except.ok r') :
    Tracks M w₀ i r' ∧ (r' = r ∧ (m.type = MessageType.msgPreVote ∨
        m.type = MessageType.msgPreVoteResp ∧ m.reject = false) ∨
      r'.state = RaftState.follower ∧ r'.term = m.term) := by
  have hfollow : ∀ {lead s}, r.becomeFollower m.term lead = Except.ok s →
      Tracks M w₀ i s ∧ (s = r ∧ (m.type = MessageType.msgPreVote ∨
        m.type = MessageType.msgPreVoteResp ∧ m.reject = false) ∨
      s.state = RaftState.follower ∧ s.term = m.term) := by
    intro lead s hs
    obtain ⟨htracks, hrest⟩ := h.becomeFollower hlt.le hs
    exact ⟨htracks, Or.inr hrest⟩
  rw [Raft.stepHigherTerm] at hok
  split at hok
  · rename_i ht
    obtain rfl := Outcome.pure_eq_ok.mp hok
    exact ⟨h, Or.inl ⟨rfl, Or.inl ht⟩⟩
  · rename_i ht
    split at hok
    · exact hfollow hok
    · rename_i hreject
      obtain rfl := Outcome.pure_eq_ok.mp hok
      exact ⟨h, Or.inl ⟨rfl, Or.inr ⟨ht, by simpa using hreject⟩⟩⟩
  · exact hfollow hok
  · exact hfollow hok
  · exact hfollow hok
  · exact hfollow hok

theorem stepLowerTerm (h : Tracks M w₀ i r) (hm : Claims M w₀ i m)
    (hok : r.stepLowerTerm m = Except.ok r') : Tracks M w₀ i r' := by
  rw [Raft.stepLowerTerm] at hok
  split at hok
  · rename_i hlower
    have hother : m.fromId ≠ i := by
      rcases hlower.2 with ht | ht <;> simp only [Claims, ht] at hm <;> exact hm.other
    exact h.send hok fun w hinv _ hsim =>
      hsim.ackClaim (hsim.term_pos hinv) hother fun _ => Nat.zero_le _
  split at hok
  · rename_i ht
    simp only [Claims, ht] at hm
    refine h.send hok fun w hinv _ hsim => ?_
    simp only [Claims, Raft.signed_type]
    refine ⟨hm, ?_⟩
    rw [Raft.signed_term_of_isCampaign rfl]
    exact Nat.ne_of_gt (hsim.term_pos hinv)
  · exact Outcome.pure_eq_ok.mp hok ▸ h

/-- After the comparison of terms the message is of the node's term, or of none, or it belongs to a
pre-vote. -/
theorem checkTerm (h : Tracks M w₀ i r) (hm : Claims M w₀ i m) (hclean : CleanFor r m)
    {continues : Bool} (hok : r.checkTerm m = Except.ok (r', continues)) :
    Tracks M w₀ i r' ∧ (continues = true → CleanFor r' m ∧ (m.term = 0 ∨ m.term = r'.term ∨
      (m.type = MessageType.msgPreVote ∨ m.type = MessageType.msgPreVoteResp) ∧
        r'.term < m.term)) := by
  rw [Raft.checkTerm] at hok
  split at hok
  · rename_i h₀
    simp only [Outcome.pure_eq_ok, Prod.mk.injEq] at hok
    obtain ⟨rfl, -⟩ := hok
    exact ⟨h, fun _ => ⟨hclean, Or.inl h₀⟩⟩
  split at hok
  · rename_i hlt
    split at hok
    · simp only [Outcome.pure_eq_ok, Prod.mk.injEq] at hok
      obtain ⟨rfl, rfl⟩ := hok
      exact ⟨h, fun hc => by cases hc⟩
    · obtain ⟨r₁, h₁, hok⟩ := Outcome.bind_eq_ok.mp hok
      simp only [Outcome.pure_eq_ok, Prod.mk.injEq] at hok
      obtain ⟨rfl, -⟩ := hok
      obtain ⟨htracks, hcases⟩ := h.stepHigherTerm hlt h₁
      refine ⟨htracks, fun _ => ?_⟩
      rcases hcases with ⟨rfl, htype⟩ | ⟨hfollower, hterm⟩
      · exact ⟨hclean, Or.inr (Or.inr ⟨htype.imp_right And.left, hlt⟩)⟩
      · refine ⟨fun hs => ?_, Or.inr (Or.inl hterm.symm)⟩
        rw [hfollower] at hs
        cases hs
  split at hok
  · obtain ⟨r₁, h₁, hok⟩ := Outcome.bind_eq_ok.mp hok
    simp only [Outcome.pure_eq_ok, Prod.mk.injEq] at hok
    obtain ⟨rfl, rfl⟩ := hok
    exact ⟨h.stepLowerTerm hm h₁, fun hc => by cases hc⟩
  · simp only [Outcome.pure_eq_ok, Prod.mk.injEq] at hok
    obtain ⟨rfl, -⟩ := hok
    exact ⟨h, fun _ => ⟨hclean, Or.inr (Or.inl (by omega))⟩⟩

/-! ## Messages and ticks -/

/-- **Every message that tells the truth is followed by abstract steps**, unless it is a granted
pre-vote for a candidate. -/
theorem stepMessage (h : Tracks M w₀ i r) (hinv₀ : Inv M.setting w₀) (hm : Claims M w₀ i m)
    (hclean : CleanFor r m) {status : Status} (hok : r.step m = Except.ok (r', status)) :
    Tracks M w₀ i r' := by
  obtain ⟨⟨r₁, continues⟩, hcheck, hok⟩ := Outcome.bind_eq_ok.mp hok
  obtain ⟨h₁, hcont⟩ := h.checkTerm hm hclean hcheck
  cases continues with
  | false =>
      simp only [Bool.false_eq_true, not_false_eq_true, if_true, Outcome.pure_eq_ok,
        Prod.mk.injEq] at hok
      exact hok.1 ▸ h₁
  | true =>
      simp only [not_true_eq_false, if_false] at hok
      obtain ⟨hclean₁, hterm⟩ := hcont rfl
      split at hok
      · obtain ⟨r₂, h₂, hok⟩ := Outcome.bind_eq_ok.mp hok
        simp only [Outcome.pure_eq_ok, Prod.mk.injEq] at hok
        exact hok.1 ▸ h₁.stepHup h₂
      · rename_i ht
        obtain ⟨r₂, h₂, hok⟩ := Outcome.bind_eq_ok.mp hok
        simp only [Outcome.pure_eq_ok, Prod.mk.injEq] at hok
        simp only [Claims, ht] at hm
        have hpos := hm.term_pos hinv₀
        have hsame : m.term = r₁.term :=
          (hterm.resolve_left (Nat.ne_of_gt hpos)).resolve_right (by simp [ht])
        exact hok.1 ▸ h₁.stepVote ht hm hsame h₂
      · rename_i ht
        obtain ⟨r₂, h₂, hok⟩ := Outcome.bind_eq_ok.mp hok
        simp only [Outcome.pure_eq_ok, Prod.mk.injEq] at hok
        simp only [Claims, ht] at hm
        exact hok.1 ▸ h₁.stepPreVote ht hm h₂
      · rename_i hhup hvote hpre
        refine h₁.stepRole hinv₀ hm (hterm.imp_right (Or.imp_right fun ⟨htype, hlt⟩ => ?_))
          hclean₁ hok
        exact ⟨htype.resolve_left hpre, hlt⟩

/-- A message of the node to itself, which claims nothing. -/
theorem stepLocal (h : Tracks M w₀ i r) (hinv₀ : Inv M.setting w₀)
    (hm : ∀ w, Claims M w i m) (htype : m.type ≠ MessageType.msgPreVoteResp) {status : Status}
    (hok : r.step m = Except.ok (r', status)) : Tracks M w₀ i r' :=
  h.stepMessage hinv₀ (hm w₀) (fun _ ht => absurd ht htype) hok

theorem tickElection (h : Tracks M w₀ i r) (hinv₀ : Inv M.setting w₀)
    (hok : r.tickElection = Except.ok r') : Tracks M w₀ i r' := by
  simp only [Raft.tickElection] at hok
  split at hok
  · obtain ⟨⟨r₁, status⟩, h₁, hok⟩ := Outcome.bind_eq_ok.mp hok
    obtain rfl := Outcome.pure_eq_ok.mp hok
    refine Tracks.stepLocal ?_ hinv₀ (fun w => by simp only [Claims]) (by simp) h₁
    exact h.congr rfl
  · obtain rfl := Outcome.pure_eq_ok.mp hok
    exact h.congr rfl

theorem checkQuorumTick (h : Tracks M w₀ i r) (hinv₀ : Inv M.setting w₀)
    (hok : r.checkQuorumTick = Except.ok r') : Tracks M w₀ i r' := by
  rw [Raft.checkQuorumTick] at hok
  split at hok
  · obtain ⟨⟨r₁, status⟩, h₁, hok⟩ := Outcome.bind_eq_ok.mp hok
    obtain rfl := Outcome.pure_eq_ok.mp hok
    exact h.stepLocal hinv₀ (fun w => by simp only [Claims]) (by simp) h₁
  · exact Outcome.pure_eq_ok.mp hok ▸ h

theorem heartbeatTick (h : Tracks M w₀ i r) (hinv₀ : Inv M.setting w₀)
    (hok : r.heartbeatTick = Except.ok r') : Tracks M w₀ i r' := by
  rw [Raft.heartbeatTick] at hok
  split at hok
  · exact Outcome.pure_eq_ok.mp hok ▸ h
  split at hok
  · obtain ⟨⟨r₁, status⟩, h₁, hok⟩ := Outcome.bind_eq_ok.mp hok
    obtain rfl := Outcome.pure_eq_ok.mp hok
    refine Tracks.stepLocal ?_ hinv₀ (fun w => by simp only [Claims]) (by simp) h₁
    exact h.congr rfl
  · exact Outcome.pure_eq_ok.mp hok ▸ h

theorem tickHeartbeat (h : Tracks M w₀ i r) (hinv₀ : Inv M.setting w₀)
    (hok : r.tickHeartbeat = Except.ok r') : Tracks M w₀ i r' := by
  simp only [Raft.tickHeartbeat] at hok
  split at hok
  · obtain ⟨r₁, h₁, hok⟩ := Outcome.bind_eq_ok.mp hok
    refine Tracks.heartbeatTick ?_ hinv₀ hok
    obtain ⟨r₂, h₂, h₁⟩ := Outcome.bind_eq_ok.mp h₁
    obtain rfl := Outcome.pure_eq_ok.mp h₁
    have hchecked : Tracks M w₀ i r₂ := by
      refine Tracks.checkQuorumTick ?_ hinv₀ h₂
      exact h.congr rfl
    split
    · exact hchecked.congr rfl
    · exact hchecked
  · refine Tracks.heartbeatTick ?_ hinv₀ hok
    exact h.congr rfl

/-- **Every tick is followed by abstract steps.** -/
theorem tick (h : Tracks M w₀ i r) (hinv₀ : Inv M.setting w₀) (hok : r.tick = Except.ok r') :
    Tracks M w₀ i r' := by
  rw [Raft.tick] at hok
  split at hok
  · exact h.tickHeartbeat hinv₀ hok
  · exact h.tickElection hinv₀ hok

end Tracks

end RaftKv
