import RaftKv.Raft.Node

/-!
# What the small steps of the protocol return

One lemma for each of the functions the rest of the protocol is made of, so that no later proof
unfolds them: when the function returns, it returns this.
-/

namespace RaftKv

namespace Raft

theorem getProgress_eq_none {r : Raft} {id : Nat} :
    r.getProgress id = none ↔ id ∉ r.prs ∧ id ∉ r.learnerPrs := by
  unfold getProgress
  cases h : r.prs.lookup id with
  | none => simp [AList.lookup_eq_none.mp h, AList.lookup_eq_none]
  | some p => simpa using fun hn => absurd (AList.lookup_isSome.mp (by simp [h])) hn

theorem getProgress_modifyProgress_self {r : Raft} {id : Nat} {p : Progress}
    (h : r.getProgress id = some p) (f : Progress → Progress) :
    (r.modifyProgress id f).getProgress id = some (f p) := by
  unfold getProgress at h ⊢
  by_cases hid : id ∈ r.prs
  · obtain ⟨q, hq⟩ := Option.isSome_iff_exists.mp (AList.lookup_isSome.mpr hid)
    simp only [hq, Option.some.injEq] at h
    simp [modifyProgress, hq, h]
  · have hnone := AList.lookup_eq_none.mpr hid
    simp only [hnone] at h
    simp [modifyProgress, hnone, hid, h]

theorem getProgress_modifyProgress_of_ne {r : Raft} {id a : Nat} (h : a ≠ id)
    (f : Progress → Progress) : (r.modifyProgress id f).getProgress a = r.getProgress a := by
  unfold getProgress
  have hl : (r.modifyProgress id f).learnerPrs.lookup a = r.learnerPrs.lookup a := by
    simp only [modifyProgress]
    split
    · rfl
    · exact IdMap.lookup_modify_of_ne h f r.learnerPrs
  rw [hl, modifyProgress, IdMap.lookup_modify_of_ne h]

theorem getProgress_modifyProgress (r : Raft) (id a : Nat) (f : Progress → Progress) :
    (r.modifyProgress id f).getProgress a =
      if a = id then (r.getProgress a).map f else r.getProgress a := by
  split
  · rename_i ha
    subst ha
    cases hp : r.getProgress a with
    | none =>
        rw [getProgress_eq_none] at hp
        have hp' : (r.modifyProgress a f).getProgress a = none := by
          rw [getProgress_eq_none]
          simpa [modifyProgress, hp.1] using hp.2
        rw [hp']
        rfl
    | some p => exact getProgress_modifyProgress_self hp f
  · rename_i ha
    exact getProgress_modifyProgress_of_ne ha f

/-- The message `send` queues for `m`. -/
def signed (r : Raft) (m : Message) : Message :=
  if m.type.isCampaign ∨ m.type.isForwarded then { m with fromId := r.id }
  else { m with fromId := r.id, term := r.term }

@[simp] theorem signed_type (r : Raft) (m : Message) : (r.signed m).type = m.type := by
  unfold signed; split <;> rfl

@[simp] theorem signed_fromId (r : Raft) (m : Message) : (r.signed m).fromId = r.id := by
  unfold signed; split <;> rfl

@[simp] theorem signed_toId (r : Raft) (m : Message) : (r.signed m).toId = m.toId := by
  unfold signed; split <;> rfl

@[simp] theorem signed_index (r : Raft) (m : Message) : (r.signed m).index = m.index := by
  unfold signed; split <;> rfl

@[simp] theorem signed_reject (r : Raft) (m : Message) : (r.signed m).reject = m.reject := by
  unfold signed; split <;> rfl

@[simp] theorem signed_entries (r : Raft) (m : Message) : (r.signed m).entries = m.entries := by
  unfold signed; split <;> rfl

/-- The messages of an election keep the term they came with. -/
theorem signed_term_of_isCampaign {r : Raft} {m : Message} (h : m.type.isCampaign = true) :
    (r.signed m).term = m.term := by
  rw [signed, if_pos (Or.inl h)]

/-- Other messages carry the term of the node, unless they are forwarded. -/
theorem signed_term {r : Raft} {m : Message} (h : m.type.isCampaign = false)
    (h' : m.type.isForwarded = false) : (r.signed m).term = r.term := by
  rw [signed, if_neg (by simp [h, h'])]

/-- A message that is sent is queued as it is signed; it came with a term exactly when it belongs
to an election. -/
theorem send_eq_ok {r r' : Raft} {m : Message} (h : r.send m = Except.ok r') :
    r' = { r with msgs := r.msgs ++ [r.signed m] } ∧
      (m.term = 0 ↔ m.type.isCampaign = false) := by
  simp only [send] at h
  split at h
  · rename_i hc
    split at h
    · cases h
    · rename_i ht
      refine ⟨?_, by simp [hc, ht]⟩
      simp only [Outcome.pure_eq_ok] at h
      simp [← h, signed, hc]
  · rename_i hc
    split at h
    · cases h
    · rename_i ht
      refine ⟨?_, by simp_all⟩
      simp only [Outcome.pure_eq_ok] at h
      rw [← h, signed]
      simp only [hc, false_or, Bool.false_eq_true]

theorem reset_eq_ok {r r' : Raft} {term : Nat} (h : r.reset term = Except.ok r') :
    r' = r.resetTo term := by
  rw [reset] at h
  split at h
  · cases h
  · exact (Outcome.pure_eq_ok.mp h).symm

theorem becomeFollower_eq_ok {r r' : Raft} {term lead : Nat}
    (h : r.becomeFollower term lead = Except.ok r') :
    r' = { r.resetTo term with lead := lead, state := RaftState.follower } := by
  obtain ⟨r₁, h₁, h⟩ := Outcome.bind_eq_ok.mp h
  rw [← reset_eq_ok h₁]
  exact (Outcome.pure_eq_ok.mp h).symm

/-- The state in which a new leader appends its first entry. -/
def elected (r : Raft) : Raft :=
  { r.resetTo r.term with
    lead := r.id
    state := RaftState.leader
    prs := (r.resetTo r.term).prs.modify r.id Progress.becomeReplicate
    pendingConfIndex := r.raftLog.lastIndex }

theorem becomeLeader_eq_ok {r r' : Raft} (h : r.becomeLeader = Except.ok r') :
    r.id ∈ r.prs ∧ ∃ r₁, r.elected.appendEntry [{}] = Except.ok (r₁, true) ∧
      r' = r₁.reduceUncommittedSize [{}] := by
  rw [becomeLeader] at h
  split at h
  · cases h
  obtain ⟨r₁, hreset, h⟩ := Outcome.bind_eq_ok.mp h
  obtain rfl := reset_eq_ok hreset
  dsimp only at h
  split at h
  · cases h
  rename_i hself
  obtain ⟨⟨r₂, ok⟩, happend, h⟩ := Outcome.bind_eq_ok.mp h
  cases ok with
  | false => cases h
  | true =>
      refine ⟨?_, r₂, happend, (Outcome.pure_eq_ok.mp h).symm⟩
      simpa [resetTo] using hself

theorem setProgress_frame {r r' : Raft} {id matched next : Nat} {isLearner : Bool}
    (h : r.setProgress id matched next isLearner = Except.ok r') :
    r' = { r with prs := r'.prs, learnerPrs := r'.learnerPrs } := by
  cases isLearner with
  | false => rw [← Outcome.pure_eq_ok.mp h]
  | true =>
      by_cases hid : id ∈ r.prs
      · rw [setProgress, if_neg (by simp), if_pos hid] at h
        cases h
      · rw [setProgress, if_neg (by simp), if_neg hid] at h
        rw [← Outcome.pure_eq_ok.mp h]

/-- `restore_node` writes the two maps and the learner flag, and nothing else. -/
theorem restoreNode_frame {r r' : Raft} {nodes : List Nat} {isLearner : Bool}
    (h : r.restoreNode nodes isLearner = Except.ok r') :
    r' = { r with prs := r'.prs, learnerPrs := r'.learnerPrs, isLearner := r'.isLearner } := by
  refine Outcome.foldlM_induct
    (P := fun s => s = { r with prs := s.prs, learnerPrs := s.learnerPrs, isLearner := s.isLearner })
    (fun s s' node _ hs hstep => ?_) rfl h
  obtain ⟨s₁, hset, hlog⟩ := Outcome.bind_eq_ok.mp hstep
  have hs₁ : s₁ = s' := by
    split at hlog
    · cases hlog
    · exact Outcome.pure_eq_ok.mp hlog
  have hframe := setProgress_frame hset
  rw [← hs₁, hframe, hs]

/-- `restore` ignores the snapshot, or moves the commit index to it, or replaces the log by it. -/
theorem restore_cases {r r' : Raft} {s : Snapshot} {restored : Bool}
    (h : r.restore s = Except.ok (r', restored)) :
    (restored = false ∧ r' = r ∧ (s.metadata.index ≤ r.raftLog.committed ∨
        r.raftLog.matchTerm s.metadata.index s.metadata.term = false ∧
          r.isLearner = false ∧ r.id ∈ s.metadata.confState.learners)) ∨
    (restored = false ∧ r.raftLog.committed < s.metadata.index ∧
        r.raftLog.matchTerm s.metadata.index s.metadata.term = true ∧
        s.metadata.index ≤ r.raftLog.lastIndex ∧
        r' = { r with raftLog := { r.raftLog with committed := s.metadata.index } }) ∨
    (restored = true ∧ r.raftLog.committed < s.metadata.index ∧
        r.raftLog.matchTerm s.metadata.index s.metadata.term = false ∧
        ¬ (r.isLearner = false ∧ r.id ∈ s.metadata.confState.learners) ∧
        r' = { r with
          raftLog := r.raftLog.restore s, prs := r'.prs, learnerPrs := r'.learnerPrs,
          isLearner := r'.isLearner }) := by
  rw [restore] at h
  split at h
  · rename_i hle
    simp only [Outcome.pure_eq_ok, Prod.mk.injEq] at h
    exact Or.inl ⟨h.2.symm, h.1.symm, Or.inl hle⟩
  rename_i hlt
  split at h
  · rename_i hm
    obtain ⟨l, hl, h⟩ := Outcome.bind_eq_ok.mp h
    simp only [Outcome.pure_eq_ok, Prod.mk.injEq] at h
    rw [RaftLog.commitTo, if_pos (Nat.not_le.mp hlt)] at hl
    split at hl
    · cases hl
    · rename_i hlast
      have hl := Outcome.pure_eq_ok.mp hl
      exact Or.inr (Or.inl ⟨h.2.symm, Nat.not_le.mp hlt, hm, Nat.not_lt.mp hlast,
        by rw [← h.1, ← hl]⟩)
  rename_i hm
  have hm : r.raftLog.matchTerm s.metadata.index s.metadata.term = false := by simpa using hm
  split at h
  · rename_i hl
    simp only [Outcome.pure_eq_ok, Prod.mk.injEq] at h
    exact Or.inl ⟨h.2.symm, h.1.symm, Or.inr ⟨hm, hl.1, hl.2⟩⟩
  · rename_i hl
    obtain ⟨r₁, h₁, h⟩ := Outcome.bind_eq_ok.mp h
    obtain ⟨r₂, h₂, h⟩ := Outcome.bind_eq_ok.mp h
    simp only [Outcome.pure_eq_ok, Prod.mk.injEq] at h
    obtain ⟨rfl, rfl⟩ := h
    refine Or.inr (Or.inr ⟨rfl, Nat.not_le.mp hlt, hm, hl, ?_⟩)
    have f₁ := restoreNode_frame h₁
    have f₂ := restoreNode_frame h₂
    rw [f₁] at f₂
    exact f₂

end Raft

/-- What a `Ready` is made of, and what leaves the state machine with it. -/
theorem RawNode.ready_eq_ok {n n' : RawNode} {rd : Ready} (h : n.ready = Except.ok (n', rd)) :
    n.raft.raftLog.nextEntries = Except.ok rd.committedEntries ∧
      rd.entries = n.raft.raftLog.unstable.entries ∧
      rd.snapshot = n.raft.raftLog.unstable.snapshot.getD {} ∧ rd.messages = n.raft.msgs ∧
      n'.raft = ({ n.raft with msgs := [] }).reduceUncommittedSize rd.committedEntries := by
  obtain ⟨rd', hnew, h⟩ := Outcome.bind_eq_ok.mp h
  simp only [Outcome.pure_eq_ok, Prod.mk.injEq] at h
  obtain ⟨rfl, rfl⟩ := h
  obtain ⟨es, hes, hnew⟩ := Outcome.bind_eq_ok.mp hnew
  obtain rfl := Outcome.pure_eq_ok.mp hnew
  exact ⟨hes, rfl, rfl, rfl, rfl⟩

end RaftKv
