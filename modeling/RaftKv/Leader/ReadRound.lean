import RaftKv.Leader.Office

/-!
# One read request

A leader with `ReadOnlySafe` answers a read request once a quorum has answered a heartbeat that
carries the request's context.

* `ReadRound` — the leader accepts a request, the voters that are asked step its heartbeats, and
  their answers come back in any order.
* `step_heartbeat_answers` — **an answer to a heartbeat carries no context**, because
  `handle_heartbeat` stores the context in the request instead of the answer.
* `read_never_released` — **so no round releases its request**.
-/

namespace RaftKv

namespace Raft

/-- The messages that were queued between two states. -/
def newMessages (r r' : Raft) : List Message := r'.msgs.drop r.msgs.length

/-! ## The round -/

/-- A leader that takes safe reads: it has a voter besides itself, and has committed an entry of its
term. -/
structure TakesReads (r : Raft) : Prop where
  leader : r.state = RaftState.leader
  voters : 2 ≤ r.prs.keys.length
  safe : r.readOnly.option = ReadOnlyOption.readOnlySafe
  current : (r.raftLog.term r.raftLog.committed).toOption = some r.term

/-- A read request that names itself `ctx`. -/
structure ReadRequest (m : Message) (ctx : Bytes) : Prop where
  type : m.type = MessageType.msgReadIndex
  context : m.readContext = Except.ok ctx
  nonempty : ctx ≠ []

/-- As many other voters as complete a quorum, none of which is ahead of the leader's term. -/
structure Asked (leader : Raft) (voters : List Raft) : Prop where
  enough : voters.length = leader.quorum - 1
  distinct : (voters.map Raft.id).Nodup
  others : ∀ v ∈ voters, v.id ∈ leader.prs ∧ v.id ≠ leader.id ∧ v.term ≤ leader.term

/-- The heartbeats with the context `ctx` that the leader sent to a voter. -/
def beatsTo (beats : List Message) (ctx : Bytes) (v : Raft) : List Message :=
  beats.filter fun b =>
    b.type == MessageType.msgHeartbeat && b.context == ctx && b.toId == v.id

/-- What a voter answers to its heartbeats. -/
def answersOf (beats : List Message) (ctx : Bytes) (v : Raft) : Outcome (List Message) := do
  let v' ← v.deliver (beatsTo beats ctx v)
  return newMessages v v'

/-- The leader accepts `m`, every voter that is asked steps its heartbeat, and all their answers are
delivered to the leader in some order. -/
structure ReadRound (leader : Raft) (m : Message) (ctx : Bytes) (voters : List Raft)
    (leader' : Raft) : Prop where
  exists_steps : ∃ accepted status answers order,
    leader.step m = Except.ok (accepted, status) ∧
    voters.mapM (answersOf (newMessages leader accepted) ctx) = Except.ok answers ∧
    order.Perm answers.flatten ∧ accepted.deliver order = Except.ok leader'

/-- The request is answered with the commit index the leader had when it accepted it: to the node
itself by a `ReadState`, to another node by a `MsgReadIndexResp`. -/
def Released (leader : Raft) (m : Message) (ctx : Bytes) (leader' : Raft) : Prop :=
  if m.fromId = 0 ∨ m.fromId = leader.id then
    { index := leader.raftLog.committed, requestCtx := ctx } ∈
      leader'.readStates.drop leader.readStates.length
  else
    ∃ a ∈ leader'.readAnswers.drop leader.readAnswers.length,
      a.toId = m.fromId ∧ a.index = leader.raftLog.committed ∧ a.readContext = Except.ok ctx

/-! ## Answers to heartbeats -/

variable {r r' r₁ v v' : Raft} {m : Message} {status : Status}

/-- Every message that was queued is one of `P`. -/
def Adds (P : Message → Prop) (r r' : Raft) : Prop :=
  ∃ new, r'.msgs = r.msgs ++ new ∧ ∀ a ∈ new, P a

namespace Adds

variable {P : Message → Prop}

theorem nothing (h : r'.msgs = r.msgs) : Adds P r r' := ⟨[], by simp [h], by simp⟩

theorem trans (h : Adds P r r₁) (h' : Adds P r₁ r') : Adds P r r' := by
  obtain ⟨new, hnew, hP⟩ := h
  obtain ⟨new', hnew', hP'⟩ := h'
  refine ⟨new ++ new', by rw [hnew', hnew, List.append_assoc], fun a ha => ?_⟩
  rcases List.mem_append.mp ha with ha | ha
  · exact hP a ha
  · exact hP' a ha

theorem send (h : r.send m = Except.ok r') (hP : P (r.signed m)) : Adds P r r' := by
  rw [(send_eq_ok h).1]
  exact ⟨[r.signed m], rfl, by simpa using hP⟩

theorem mem_newMessages (h : Adds P r r') : ∀ a ∈ newMessages r r', P a := by
  obtain ⟨new, hnew, hP⟩ := h
  rw [newMessages, hnew, List.drop_left]
  exact hP

end Adds

/-- An answer by which no read can be released. -/
def Mute (a : Message) : Prop :=
  a.type = MessageType.msgAppResp ∨ (a.type = MessageType.msgHeartbeatResp ∧ a.context = [])

theorem handleHeartbeat_mute (h : v.handleHeartbeat m = Except.ok v') : Adds Mute v v' := by
  obtain ⟨raftLog, -, hsend⟩ := Outcome.bind_eq_ok.mp h
  have hnew := Adds.send (P := Mute) hsend (Or.inr ⟨signed_type .., ?_⟩)
  · exact Adds.trans (Adds.nothing rfl) hnew
  · unfold signed
    split <;> rfl

theorem checkTerm_mute (hm : m.type = MessageType.msgHeartbeat) {continues : Bool}
    (h : v.checkTerm m = Except.ok (v', continues)) : Adds Mute v v' := by
  rw [checkTerm] at h
  split at h
  · simp only [Outcome.pure_eq_ok, Prod.mk.injEq] at h
    exact h.1 ▸ Adds.nothing rfl
  split at h
  · split at h
    · simp only [Outcome.pure_eq_ok, Prod.mk.injEq] at h
      exact h.1 ▸ Adds.nothing rfl
    obtain ⟨v₁, hhigher, h⟩ := Outcome.bind_eq_ok.mp h
    simp only [Outcome.pure_eq_ok, Prod.mk.injEq] at h
    rw [stepHigherTerm, hm] at hhigher
    rw [← h.1, becomeFollower_eq_ok hhigher]
    exact Adds.nothing rfl
  split at h
  · obtain ⟨v₁, hlower, h⟩ := Outcome.bind_eq_ok.mp h
    simp only [Outcome.pure_eq_ok, Prod.mk.injEq] at h
    rw [← h.1]
    rw [stepLowerTerm] at hlower
    split at hlower
    · exact Adds.send hlower (Or.inl (signed_type ..))
    split at hlower
    · rename_i hpre
      rw [hm] at hpre
      cases hpre
    · exact Adds.nothing (Outcome.pure_eq_ok.mp hlower ▸ rfl)
  · simp only [Outcome.pure_eq_ok, Prod.mk.injEq] at h
    exact h.1 ▸ Adds.nothing rfl

/-- **Whatever state a node is in, it answers a heartbeat without its context.** -/
theorem step_heartbeat_answers (hm : m.type = MessageType.msgHeartbeat)
    (h : v.step m = Except.ok (v', status)) : Adds Mute v v' := by
  obtain ⟨⟨v₁, continues⟩, hcheck, hrest⟩ := Outcome.bind_eq_ok.mp h
  refine (checkTerm_mute hm hcheck).trans ?_
  cases continues with
  | false =>
      simp only [Bool.false_eq_true, not_false_eq_true, if_true, Outcome.pure_eq_ok,
        Prod.mk.injEq] at hrest
      exact Adds.nothing (hrest.1 ▸ rfl)
  | true =>
      simp only [not_true_eq_false, if_false, hm] at hrest
      rw [stepRole] at hrest
      split at hrest
      · simp only [stepFollower, hm] at hrest
        obtain ⟨v₂, hbeat, hrest⟩ := Outcome.bind_eq_ok.mp hrest
        simp only [Outcome.pure_eq_ok, Prod.mk.injEq] at hrest
        have hanswer := handleHeartbeat_mute hbeat
        exact hrest.1 ▸ Adds.trans (Adds.nothing rfl) hanswer
      · exact stepCandidate_mute hrest
      · exact stepCandidate_mute hrest
      · simp only [stepLeader, hm] at hrest
        split at hrest
        · simp only [Outcome.pure_eq_ok, Prod.mk.injEq] at hrest
          exact Adds.nothing (hrest.1 ▸ rfl)
        · obtain ⟨v₂, hpeer, hrest⟩ := Outcome.bind_eq_ok.mp hrest
          simp only [stepLeaderPeer, hm, Outcome.pure_eq_ok] at hpeer
          simp only [Outcome.pure_eq_ok, Prod.mk.injEq] at hrest
          exact Adds.nothing (hrest.1 ▸ hpeer ▸ rfl)
where
  stepCandidate_mute {v v' : Raft} (hstep : v.stepCandidate m = Except.ok (v', status)) :
      Adds Mute v v' := by
    simp only [stepCandidate, hm] at hstep
    obtain ⟨v₁, hfollow, hstep⟩ := Outcome.bind_eq_ok.mp hstep
    obtain ⟨v₂, hbeat, hstep⟩ := Outcome.bind_eq_ok.mp hstep
    simp only [Outcome.pure_eq_ok, Prod.mk.injEq] at hstep
    have hmsgs : v₁.msgs = v.msgs := by rw [becomeFollower_eq_ok hfollow]; rfl
    exact hstep.1 ▸ (Adds.nothing hmsgs).trans (handleHeartbeat_mute hbeat)

/-! ## Such answers release nothing -/

theorem checkTerm_sameAnswers (hm : Mute m) {continues : Bool}
    (h : r.checkTerm m = Except.ok (r', continues)) : SameAnswers r r' := by
  rw [checkTerm] at h
  split at h
  · simp only [Outcome.pure_eq_ok, Prod.mk.injEq] at h
    exact h.1 ▸ ⟨rfl, rfl⟩
  split at h
  · split at h
    · simp only [Outcome.pure_eq_ok, Prod.mk.injEq] at h
      exact h.1 ▸ ⟨rfl, rfl⟩
    obtain ⟨r₁, hhigher, h⟩ := Outcome.bind_eq_ok.mp h
    simp only [Outcome.pure_eq_ok, Prod.mk.injEq] at h
    rw [← h.1]
    rcases hm with htype | ⟨htype, -⟩
    · rw [stepHigherTerm, htype] at hhigher
      exact becomeFollower_sameAnswers hhigher
    · rw [stepHigherTerm, htype] at hhigher
      exact becomeFollower_sameAnswers hhigher
  split at h
  · obtain ⟨r₁, hlower, h⟩ := Outcome.bind_eq_ok.mp h
    simp only [Outcome.pure_eq_ok, Prod.mk.injEq] at h
    have hsent := stepLowerTerm_sent hlower
    exact h.1 ▸ hsent.toSameAnswers
  · simp only [Outcome.pure_eq_ok, Prod.mk.injEq] at h
    exact h.1 ▸ ⟨rfl, rfl⟩

/-- A leader looks at its reads only when a heartbeat answer has a context. -/
theorem stepLeader_sameAnswers (hm : Mute m) (h : r.stepLeader m = Except.ok (r', status)) :
    SameAnswers r r' := by
  rcases hm with htype | ⟨htype, hcontext⟩
  · exact (stepLeader_sameReads (by simp [htype]) (by simp [htype]) (by simp [htype])
      h).toSameAnswers
  · simp only [stepLeader, htype] at h
    split at h
    · simp only [Outcome.pure_eq_ok, Prod.mk.injEq] at h
      exact h.1 ▸ ⟨rfl, rfl⟩
    · rename_i pr hpr
      obtain ⟨r₁, hpeer, h⟩ := Outcome.bind_eq_ok.mp h
      simp only [Outcome.pure_eq_ok, Prod.mk.injEq] at h
      simp only [stepLeaderPeer, htype] at hpeer
      obtain ⟨r₂, -, hsame, hrelease⟩ := stepHeartbeatResp_split hpr hpeer
      rw [releaseReads, if_pos (Or.inr hcontext)] at hrelease
      exact h.1 ▸ Outcome.pure_eq_ok.mp hrelease ▸ hsame.toSameAnswers

/-- **Whatever state a node is in, an answer without a context releases no read.** -/
theorem step_mute (hm : Mute m) (h : r.step m = Except.ok (r', status)) : SameAnswers r r' := by
  obtain ⟨⟨r₁, continues⟩, hcheck, hrest⟩ := Outcome.bind_eq_ok.mp h
  refine (checkTerm_sameAnswers hm hcheck).trans ?_
  have hrole (hstep : r₁.stepRole m = Except.ok (r', status)) : SameAnswers r₁ r' := by
    rw [stepRole] at hstep
    split at hstep
    · rcases hm with htype | ⟨htype, -⟩ <;>
        simp only [stepFollower, htype, Outcome.pure_eq_ok, Prod.mk.injEq] at hstep
      all_goals exact hstep.1 ▸ ⟨rfl, rfl⟩
    · rcases hm with htype | ⟨htype, -⟩ <;>
        simp only [stepCandidate, htype, Outcome.pure_eq_ok, Prod.mk.injEq] at hstep
      all_goals exact hstep.1 ▸ ⟨rfl, rfl⟩
    · rcases hm with htype | ⟨htype, -⟩ <;>
        simp only [stepCandidate, htype, Outcome.pure_eq_ok, Prod.mk.injEq] at hstep
      all_goals exact hstep.1 ▸ ⟨rfl, rfl⟩
    · exact stepLeader_sameAnswers hm hstep
  cases continues with
  | false =>
      simp only [Bool.false_eq_true, not_false_eq_true, if_true, Outcome.pure_eq_ok,
        Prod.mk.injEq] at hrest
      exact hrest.1 ▸ ⟨rfl, rfl⟩
  | true =>
      refine hrole ?_
      rcases hm with htype | ⟨htype, -⟩
      · simpa [htype] using hrest
      · simpa [htype] using hrest

/-- A delivery of such answers releases nothing either. -/
theorem deliver_mute {ms : List Message} (hms : ∀ m ∈ ms, Mute m)
    (h : r.deliver ms = Except.ok r') : SameAnswers r r' := by
  refine Outcome.foldlM_induct (P := SameAnswers r) (fun s s' m hm hs hround => ?_) ⟨rfl, rfl⟩ h
  obtain ⟨⟨s₁, status⟩, hstep, hround⟩ := Outcome.bind_eq_ok.mp hround
  obtain rfl := Outcome.pure_eq_ok.mp hround
  exact hs.trans (step_mute (hms m hm) hstep)

/-- All that a voter answers to its heartbeats is mute. -/
theorem answersOf_mute {beats answers : List Message} {ctx : Bytes}
    (h : answersOf beats ctx v = Except.ok answers) : ∀ a ∈ answers, Mute a := by
  obtain ⟨v', hdeliver, h⟩ := Outcome.bind_eq_ok.mp h
  rw [← Outcome.pure_eq_ok.mp h]
  refine Adds.mem_newMessages ?_
  refine Outcome.foldlM_induct (P := Adds Mute v) (fun s s' b hb hs hround => ?_)
    (Adds.nothing rfl) hdeliver
  obtain ⟨⟨s₁, status⟩, hstep, hround⟩ := Outcome.bind_eq_ok.mp hround
  obtain rfl := Outcome.pure_eq_ok.mp hround
  have htype : b.type = MessageType.msgHeartbeat := by
    simp only [beatsTo, List.mem_filter, Bool.and_eq_true, beq_iff_eq] at hb
    exact hb.2.1.1
  exact hs.trans (step_heartbeat_answers htype hstep)

/-! ## Accepting releases nothing -/

theorem stepLeaderReadIndex_pending (hr : r.TakesReads)
    (h : r.stepLeaderReadIndex m = Except.ok r') : SameAnswers r r' := by
  have hquorum : r.quorum > 1 := by
    have := hr.voters
    unfold quorum
    omega
  rw [stepLeaderReadIndex, if_pos hquorum] at h
  split at h
  · exact Outcome.pure_eq_ok.mp h ▸ ⟨rfl, rfl⟩
  rw [hr.safe] at h
  obtain ⟨readOnly, -, h⟩ := Outcome.bind_eq_ok.mp h
  obtain ⟨ctx, -, h⟩ := Outcome.bind_eq_ok.mp h
  have hsent := (Sent.bcastHeartbeatWithCtx h).toSameAnswers
  exact ⟨hsent.readStates, hsent.readAnswers⟩

/-- A leader that steps a read request answers none, not even when the request deposes it. -/
theorem step_readIndex (hr : r.TakesReads) (hm : m.type = MessageType.msgReadIndex)
    (h : r.step m = Except.ok (r', status)) : SameAnswers r r' := by
  by_cases hk : r.KeepsTerm m
  · rcases step_leader hr.leader hk h with ⟨-, hrole, -⟩ | ⟨hsent, -⟩
    · simp only [stepLeader, hm] at hrole
      obtain ⟨r₁, hread, hrole⟩ := Outcome.bind_eq_ok.mp hrole
      simp only [Outcome.pure_eq_ok, Prod.mk.injEq] at hrole
      exact hrole.1 ▸ stepLeaderReadIndex_pending hr hread
    · exact hsent.toSameAnswers
  · have hgt : m.term > r.term := by
      by_contra hle
      exact hk (Or.inl (Nat.not_lt.mp hle))
    have hlease : ¬ r.inLease m = true := fun hin => hk (Or.inr (Or.inl hin))
    obtain ⟨⟨r₁, continues⟩, hcheck, hrest⟩ := Outcome.bind_eq_ok.mp h
    rw [checkTerm, if_neg (by omega), if_pos hgt, if_neg hlease] at hcheck
    obtain ⟨r₂, hhigher, hcheck⟩ := Outcome.bind_eq_ok.mp hcheck
    simp only [Outcome.pure_eq_ok, Prod.mk.injEq] at hcheck
    obtain ⟨rfl, rfl⟩ := hcheck
    simp only [stepHigherTerm, hm] at hhigher
    have hfollow := becomeFollower_eq_ok hhigher
    simp only [not_true_eq_false, if_false, hm, stepRole, hfollow, stepFollower, if_true,
      Outcome.pure_eq_ok, Prod.mk.injEq] at hrest
    rw [← hrest.1, ← hfollow]
    exact becomeFollower_sameAnswers hhigher

/-! ## The round -/

theorem mem_of_mapM {α β : Type} {f : α → Outcome β} :
    ∀ {xs : List α} {ys : List β}, xs.mapM f = Except.ok ys →
      ∀ y ∈ ys, ∃ x ∈ xs, f x = Except.ok y
  | [], ys, h, y, hy => by
      obtain rfl : ys = [] := by simpa using h
      cases hy
  | x :: xs, ys, h, y, hy => by
      rw [List.mapM_cons] at h
      obtain ⟨z, hz, h⟩ := Outcome.bind_eq_ok.mp h
      obtain ⟨zs, hzs, h⟩ := Outcome.bind_eq_ok.mp h
      rw [← Outcome.pure_eq_ok.mp h] at hy
      rcases List.mem_cons.mp hy with rfl | hy
      · exact ⟨x, List.mem_cons_self .., hz⟩
      · obtain ⟨x', hx', hfx'⟩ := mem_of_mapM hzs y hy
        exact ⟨x', List.mem_cons_of_mem _ hx', hfx'⟩

/-- In no round does the leader answer a read. -/
theorem readRound_sameAnswers {leader leader' : Raft} {ctx : Bytes} {voters : List Raft}
    (hr : leader.TakesReads) (hm : ReadRequest m ctx)
    (h : ReadRound leader m ctx voters leader') : SameAnswers leader leader' := by
  obtain ⟨accepted, status, answers, order, hstep, hanswers, hperm, hdeliver⟩ := h.exists_steps
  refine (step_readIndex hr hm.type hstep).trans (deliver_mute (fun a ha => ?_) hdeliver)
  obtain ⟨as, has, ha⟩ := List.mem_flatten.mp (hperm.mem_iff.mp ha)
  obtain ⟨v, -, hv⟩ := mem_of_mapM hanswers as has
  exact answersOf_mute hv a ha

/-- Where no answer is new, the request was not released. -/
theorem SameAnswers.not_released {leader leader' : Raft} {ctx : Bytes}
    (h : SameAnswers leader leader') : ¬ Released leader m ctx leader' := by
  intro hreleased
  unfold Released at hreleased
  split at hreleased
  · rw [h.readStates] at hreleased
    simp at hreleased
  · rw [h.readAnswers] at hreleased
    simp at hreleased

/-- **A safe read is never released by the answers to its heartbeats**, whichever voters are asked
and in whichever order they answer. -/
theorem read_never_released {leader : Raft} {ctx : Bytes} {voters : List Raft}
    (hr : leader.TakesReads) (hm : ReadRequest m ctx) :
    ¬ ∃ leader', ReadRound leader m ctx voters leader' ∧ Released leader m ctx leader' := by
  rintro ⟨leader', hround, hreleased⟩
  exact (readRound_sameAnswers hr hm hround).not_released hreleased

/-! ## A round of three nodes -/

/-- Node 1 is elected and commits the first entry of its term. -/
def electedRun : Outcome Raft := do
  let r ← oneOfThree 1 []
  r.deliver (firstElection ++ [firstAck])

def electedLeader : Raft := electedRun.toOption.get (by decide)

/-- Node 2 votes for node 1 and stores its first entry. -/
def secondVoterRun : Outcome Raft := do
  let r ← oneOfThree 2 []
  r.deliver
    [{ type := MessageType.msgVote, fromId := 1, toId := 2, term := 1 },
      { type := MessageType.msgApp, fromId := 1, toId := 2, term := 1,
        entries := [{ term := 1, index := 1 }] }]

def secondVoter : Raft := secondVoterRun.toOption.get (by decide)

theorem electedLeader_takesReads : electedLeader.TakesReads where
  leader := by decide
  voters := by decide
  safe := by decide
  current := by decide

/-- A request of node 1 itself, named by the byte 7. -/
def localRead : Message := { type := MessageType.msgReadIndex, entries := [{ data := [7] }] }

theorem localRead_readRequest : ReadRequest localRead [7] where
  type := rfl
  context := rfl
  nonempty := (by simp)

theorem electedLeader_asked : electedLeader.Asked [secondVoter] where
  enough := by decide
  distinct := by decide
  others := by
    intro v hv
    rw [List.mem_singleton] at hv
    rw [hv]
    decide

theorem read_never_released_elected :
    ¬ ∃ leader', ReadRound electedLeader localRead [7] [secondVoter] leader' ∧
      Released electedLeader localRead [7] leader' :=
  read_never_released electedLeader_takesReads localRead_readRequest

/-- The round in which the answers arrive in the order of the voters. -/
def readRound (leader : Raft) (m : Message) (ctx : Bytes) (voters : List Raft) : Outcome Raft := do
  let (accepted, _) ← leader.step m
  let answers ← voters.mapM (answersOf (newMessages leader accepted) ctx)
  accepted.deliver answers.flatten

theorem readRound_eq_ok {leader leader' : Raft} {ctx : Bytes} {voters : List Raft}
    (h : readRound leader m ctx voters = Except.ok leader') :
    ReadRound leader m ctx voters leader' := by
  obtain ⟨⟨accepted, status⟩, hstep, h⟩ := Outcome.bind_eq_ok.mp h
  obtain ⟨answers, hanswers, hdeliver⟩ := Outcome.bind_eq_ok.mp h
  exact ⟨accepted, status, answers, answers.flatten, hstep, hanswers, List.Perm.refl _, hdeliver⟩

/-- The round of the three nodes runs to its end: both hops succeed. -/
theorem electedLeader_round :
    ∃ leader', ReadRound electedLeader localRead [7] [secondVoter] leader' := by
  have hsome : (readRound electedLeader localRead [7] [secondVoter]).toOption.isSome = true := by
    decide
  cases h : readRound electedLeader localRead [7] [secondVoter] with
  | error crash => simp [h, Except.toOption] at hsome
  | ok leader' => exact ⟨leader', readRound_eq_ok h⟩

theorem read_round_unanswered : ¬ ∀ leader m ctx voters, TakesReads leader → ReadRequest m ctx →
    leader.Asked voters → ∀ leader', ReadRound leader m ctx voters leader' →
    Released leader m ctx leader' := by
  intro hall
  obtain ⟨leader', hround⟩ := electedLeader_round
  have hreleased := hall _ _ _ _ electedLeader_takesReads localRead_readRequest
    electedLeader_asked leader' hround
  exact (readRound_sameAnswers electedLeader_takesReads localRead_readRequest hround).not_released
    hreleased

end Raft

end RaftKv
