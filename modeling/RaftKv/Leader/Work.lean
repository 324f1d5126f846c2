import RaftKv.Raft.Inversion

/-!
# The work of a leader

What the handlers of a leader leave alone, whatever the leader's state is.

* `SameRole` — the node is in the same role of the same term.
* `SamePeers` — the peers are the same, and the only one that may be newly active is the one that
  was heard.
* `SameReads` — no read request is accepted, acknowledged or answered.
* `Sent` — **sending does neither**; every function that only sends is one of its instances.
-/

namespace RaftKv

/-- What the quorum check reads of a peer: whether it was active, and whether it is a learner. -/
def Progress.standing (p : Progress) : Bool × Bool := (p.recentActive, p.isLearner)

/-! ## Progress -/

namespace Progress

variable {p p' : Progress}

@[simp] theorem standing_becomeReplicate : p.becomeReplicate.standing = p.standing := rfl

@[simp] theorem standing_becomeProbe : p.becomeProbe.standing = p.standing := by
  unfold becomeProbe
  split <;> rfl

@[simp] theorem standing_becomeSnapshot (i : Nat) : (p.becomeSnapshot i).standing = p.standing := rfl

@[simp] theorem standing_setPause : p.setPause.standing = p.standing := rfl

@[simp] theorem standing_snapshotFailure : p.snapshotFailure.standing = p.standing := rfl

@[simp] theorem standing_maybeUpdate (n : Nat) : (p.maybeUpdate n).1.standing = p.standing := by
  by_cases hm : p.matched < n <;> by_cases hx : p.next < n + 1 <;>
    simp [maybeUpdate, hm, hx, standing]

@[simp] theorem standing_maybeDecreasesTo (rejected last : Nat) :
    (p.maybeDecreasesTo rejected last).1.standing = p.standing := by
  unfold maybeDecreasesTo
  repeat' split
  all_goals rfl

theorem standing_afterSending {es : List Entry} (h : p.afterSending es = Except.ok p') :
    p'.standing = p.standing := by
  unfold afterSending at h
  split at h
  · rw [← Outcome.pure_eq_ok.mp h]
  · split at h
    · obtain ⟨inflights, -, h⟩ := Outcome.bind_eq_ok.mp h
      rw [← Outcome.pure_eq_ok.mp h]
      rfl
    · rw [← Outcome.pure_eq_ok.mp h, standing_setPause]
    · cases h

theorem standing_acknowledged {n : Nat} (h : p.acknowledged n = Except.ok p') :
    p'.standing = p.standing := by
  unfold acknowledged at h
  split at h
  · rw [← Outcome.pure_eq_ok.mp h, standing_becomeReplicate]
  · rw [← Outcome.pure_eq_ok.mp h]
    split <;> simp
  · obtain ⟨inflights, -, h⟩ := Outcome.bind_eq_ok.mp h
    rw [← Outcome.pure_eq_ok.mp h]
    rfl

/-- A peer that answers a heartbeat is active. -/
theorem standing_heartbeatAnswered (h : p.heartbeatAnswered = Except.ok p') :
    p'.standing = (true, p.isLearner) := by
  unfold heartbeatAnswered at h
  dsimp only at h
  split at h
  · obtain ⟨inflights, -, h⟩ := Outcome.bind_eq_ok.mp h
    rw [← Outcome.pure_eq_ok.mp h]
    rfl
  · rw [← Outcome.pure_eq_ok.mp h]
    rfl

end Progress

/-! ## The peers of a node -/

namespace IdMap

/-- The peers of a map with their standings. -/
def standings (m : IdMap Progress) : List (Nat × Bool × Bool) :=
  m.entries.map fun e => (e.1, e.2.standing)

/-- The peers of a map, and which of them are marked as learners. -/
def flags (m : IdMap Progress) : List (Nat × Bool) :=
  m.entries.map fun e => (e.1, e.2.isLearner)

/-- A peer that was heard is active. -/
def mark (heard : Option Nat) (s : Nat × Bool × Bool) : Nat × Bool × Bool :=
  (s.1, s.2.1 || decide (heard = some s.1), s.2.2)

theorem map_mark_none (l : List (Nat × Bool × Bool)) : l = l.map (mark none) := by
  have : mark none = id := by
    funext s
    simp [mark]
  rw [this, List.map_id]

theorem keys_eq_standings (m : IdMap Progress) : m.keys = m.standings.map Prod.fst := by
  simp [standings, AList.keys, List.keys, Function.comp_def]

theorem flags_eq_standings (m : IdMap Progress) :
    m.flags = m.standings.map fun s => (s.1, s.2.2) := by
  simp [flags, standings, Progress.standing, Function.comp_def]

/-- Changing one progress marks its peer at most. -/
theorem standings_modify {m : IdMap Progress} {k : Nat} {f : Progress → Progress}
    {heard : Option Nat} (hheard : ∀ a, heard = some a → a = k)
    (hf : ∀ p, m.lookup k = some p →
      (f p).standing = (p.recentActive || decide (heard = some k), p.isLearner)) :
    (m.modify k f).standings = m.standings.map (mark heard) := by
  simp only [standings, modify, mapWithKey, List.map_map]
  refine List.map_congr_left fun e he => ?_
  have hlookup : m.lookup e.1 = some e.2 := AList.mem_lookup_iff.mpr he
  simp only [Function.comp_apply, mark, Progress.standing]
  split
  · rename_i hk
    rw [hk] at hlookup
    have := hf _ hlookup
    simp only [Progress.standing] at this
    rw [this, hk]
  · rename_i hk
    have : heard ≠ some e.1 := fun hh => hk (hheard _ hh)
    simp [this]

theorem flags_modify {m : IdMap Progress} {k : Nat} {f : Progress → Progress}
    (hf : ∀ p, m.lookup k = some p → (f p).isLearner = p.isLearner) :
    (m.modify k f).flags = m.flags := by
  simp only [flags, modify, mapWithKey, List.map_map]
  refine List.map_congr_left fun e he => ?_
  have hlookup : m.lookup e.1 = some e.2 := AList.mem_lookup_iff.mpr he
  simp only [Function.comp_apply]
  split
  · rename_i hk
    rw [hf _ (hk ▸ hlookup)]
  · rfl

end IdMap

namespace Raft

/-- The queued answers to read requests of other nodes. -/
def readAnswers (r : Raft) : List Message :=
  r.msgs.filter fun m => m.type == MessageType.msgReadIndexResp

/-- The same node in the same role of the same term. -/
structure SameRole (r r' : Raft) : Prop where
  id : r'.id = r.id
  term : r'.term = r.term
  state : r'.state = r.state
  checkQuorum : r'.checkQuorum = r.checkQuorum

/-- It also has the same peers, of which only `heard` may have become active. -/
structure SamePeers (heard : Option Nat) (r r' : Raft) : Prop extends SameRole r r' where
  voters : r'.prs.standings = r.prs.standings.map (IdMap.mark heard)
  learners : r'.learnerPrs.flags = r.learnerPrs.flags

/-- No read request is answered. -/
structure SameAnswers (r r' : Raft) : Prop where
  readStates : r'.readStates = r.readStates
  readAnswers : r'.readAnswers = r.readAnswers

/-- No read request is answered, accepted or acknowledged. -/
structure SameReads (r r' : Raft) : Prop extends SameAnswers r r' where
  readOnly : r'.readOnly = r.readOnly

/-- Nothing happens but messages that are sent, and what sending them does to a progress. -/
structure Sent (r r' : Raft) : Prop extends SamePeers none r r', SameReads r r'

/-- The fields that say who the node is, in which role, and with which peers. -/
def office (r : Raft) : Nat × Nat × RaftState × Bool × IdMap Progress × IdMap Progress :=
  (r.id, r.term, r.state, r.checkQuorum, r.prs, r.learnerPrs)

/-- The fields in which read requests are kept and answered. -/
def reads (r : Raft) : List ReadState × List Message × ReadOnly :=
  (r.readStates, r.msgs, r.readOnly)

section Relations

variable {r r' r₁ r₂ : Raft} {m : Message} {id : Nat} {heard : Option Nat}

theorem SameRole.same (h : r'.office = r.office) : SameRole r r' := by
  simp only [office, Prod.mk.injEq] at h
  exact ⟨h.1, h.2.1, h.2.2.1, h.2.2.2.1⟩

theorem SamePeers.same (h : r'.office = r.office) : SamePeers none r r' where
  toSameRole := SameRole.same h
  voters := by
    simp only [office, Prod.mk.injEq] at h
    rw [h.2.2.2.2.1, ← IdMap.map_mark_none]
  learners := by
    simp only [office, Prod.mk.injEq] at h
    rw [h.2.2.2.2.2]

theorem SameReads.same (h : r'.reads = r.reads) : SameReads r r' := by
  simp only [reads, Prod.mk.injEq] at h
  exact ⟨⟨h.1, by rw [readAnswers, h.2.1, readAnswers]⟩, h.2.2⟩

theorem Sent.same (h : r'.office = r.office) (h' : r'.reads = r.reads) : Sent r r' where
  toSamePeers := SamePeers.same h
  toSameAnswers := (SameReads.same h').toSameAnswers
  readOnly := (SameReads.same h').readOnly

theorem SameRole.trans (h : SameRole r r₁) (h' : SameRole r₁ r') : SameRole r r' where
  id := h'.id.trans h.id
  term := h'.term.trans h.term
  state := h'.state.trans h.state
  checkQuorum := h'.checkQuorum.trans h.checkQuorum

theorem SamePeers.trans (h : SamePeers heard r r₁) (h' : SamePeers none r₁ r') :
    SamePeers heard r r' where
  toSameRole := h.toSameRole.trans h'.toSameRole
  voters := by rw [h'.voters, ← IdMap.map_mark_none, h.voters]
  learners := h'.learners.trans h.learners

theorem SamePeers.after (h : SamePeers heard r₁ r') (ho : r₁.office = r.office) :
    SamePeers heard r r' where
  toSameRole := (SameRole.same ho).trans h.toSameRole
  voters := by
    rw [h.voters, (SamePeers.same ho).voters, ← IdMap.map_mark_none]
  learners := h.learners.trans (SamePeers.same ho).learners

/-- The set of voters is the same. -/
theorem SamePeers.keys (h : SamePeers heard r r') : r'.prs.keys = r.prs.keys := by
  rw [IdMap.keys_eq_standings, h.voters, IdMap.keys_eq_standings, List.map_map]
  rfl

theorem SamePeers.quorum (h : SamePeers heard r r') : r'.quorum = r.quorum := by
  rw [Raft.quorum, h.keys, Raft.quorum]

theorem SameAnswers.trans (h : SameAnswers r r₁) (h' : SameAnswers r₁ r') : SameAnswers r r' where
  readStates := h'.readStates.trans h.readStates
  readAnswers := h'.readAnswers.trans h.readAnswers

theorem SameReads.trans (h : SameReads r r₁) (h' : SameReads r₁ r') : SameReads r r' where
  toSameAnswers := h.toSameAnswers.trans h'.toSameAnswers
  readOnly := h'.readOnly.trans h.readOnly

theorem SameReads.after (h : SameReads r₁ r') (hr : r₁.reads = r.reads) : SameReads r r' :=
  (SameReads.same hr).trans h

/-- A change of one peer's progress that concerns its activity only. -/
theorem SamePeers.modify {f : Progress → Progress} (hheard : ∀ a, heard = some a → a = id)
    (hf : ∀ p, r.getProgress id = some p →
      (f p).standing = (p.recentActive || decide (heard = some id), p.isLearner)) :
    SamePeers heard r (r.modifyProgress id f) where
  toSameRole := ⟨rfl, rfl, rfl, rfl⟩
  voters := by
    refine IdMap.standings_modify hheard fun p hp => hf p ?_
    simp only [getProgress, hp]
  learners := by
    simp only [modifyProgress]
    split
    · rfl
    · rename_i hid
      refine IdMap.flags_modify fun p hp => ?_
      have := hf p (by simp only [getProgress, AList.lookup_eq_none.mpr hid, hp])
      simp only [Progress.standing, Prod.mk.injEq] at this
      exact this.2

theorem sameReads_modify (id : Nat) (f : Progress → Progress) :
    SameReads r (r.modifyProgress id f) := SameReads.same rfl

namespace Sent

theorem refl (r : Raft) : Sent r r := Sent.same rfl rfl

theorem trans (h : Sent r r₁) (h' : Sent r₁ r') : Sent r r' where
  toSamePeers := h.toSamePeers.trans h'.toSamePeers
  toSameAnswers := h.toSameAnswers.trans h'.toSameAnswers
  readOnly := h'.readOnly.trans h.readOnly

/-- What is sent after a step that concerns neither the office nor the reads. -/
theorem after (h : Sent r₁ r') (ho : r₁.office = r.office) (hr : r₁.reads = r.reads) : Sent r r' :=
  (Sent.same ho hr).trans h

/-- A change of one peer's progress that leaves its standing alone. -/
theorem modify {f : Progress → Progress}
    (hf : ∀ p, r.getProgress id = some p → (f p).standing = p.standing) :
    Sent r (r.modifyProgress id f) where
  toSamePeers := SamePeers.modify (by simp) fun p hp => by
    rw [hf p hp, Progress.standing]
    simp
  toSameAnswers := ⟨rfl, rfl⟩
  readOnly := rfl

/-- The progress of the peer is replaced by one of the same standing. -/
theorem set {pr pr' : Progress} (hpr : r.getProgress id = some pr)
    (h : pr'.standing = pr.standing) : Sent r (r.modifyProgress id fun _ => pr') :=
  modify fun p hp => by rw [Option.some.inj (hp.symm.trans hpr), h]

theorem send (h : r.send m = Except.ok r') (hm : m.type ≠ MessageType.msgReadIndexResp) :
    Sent r r' := by
  rw [(send_eq_ok h).1]
  refine ⟨SamePeers.same rfl, ⟨rfl, ?_⟩, rfl⟩
  simp [Raft.readAnswers, hm]

end Sent

end Relations

/-! ## Sending -/

namespace Sent

variable {r r' r₁ : Raft} {toId : Nat} {sent : Bool}

theorem sendEntries {pr : Progress} (hpr : r.getProgress toId = some pr) {logTerm : Nat}
    {es : List Entry} (h : r.sendEntries toId pr logTerm es = Except.ok (r', sent)) :
    Sent r r' := by
  obtain ⟨pr', hpr', h⟩ := Outcome.bind_eq_ok.mp h
  obtain ⟨r₁, hsend, h⟩ := Outcome.bind_eq_ok.mp h
  simp only [Outcome.pure_eq_ok, Prod.mk.injEq] at h
  obtain ⟨rfl, -⟩ := h
  exact (set hpr (Progress.standing_afterSending hpr')).trans (send hsend (by simp))

theorem sendSnapshot {pr : Progress} (h : r.sendSnapshot toId pr = Except.ok (r', sent)) :
    Sent r r' := by
  rw [Raft.sendSnapshot] at h
  split at h
  · simp only [Outcome.pure_eq_ok, Prod.mk.injEq] at h
    exact h.1 ▸ refl r
  · dsimp only at h
    split at h
    · cases h
    · obtain ⟨r₁, hsend, h⟩ := Outcome.bind_eq_ok.mp h
      simp only [Outcome.pure_eq_ok, Prod.mk.injEq] at h
      obtain ⟨rfl, -⟩ := h
      exact (modify fun p _ => Progress.standing_becomeSnapshot _).trans (send hsend (by simp))

theorem maybeSendAppend {sendIfEmpty : Bool}
    (h : r.maybeSendAppend toId sendIfEmpty = Except.ok (r', sent)) : Sent r r' := by
  rw [Raft.maybeSendAppend] at h
  split at h
  · cases h
  rename_i pr hpr
  split at h
  · simp only [Outcome.pure_eq_ok, Prod.mk.injEq] at h
    exact h.1 ▸ refl r
  obtain ⟨res, -, h⟩ := Outcome.bind_eq_ok.mp h
  dsimp only at h
  split at h
  · simp only [Outcome.pure_eq_ok, Prod.mk.injEq] at h
    exact h.1 ▸ refl r
  split at h
  · exact sendEntries hpr h
  · exact sendSnapshot h

theorem sendAppend (h : r.sendAppend toId = Except.ok r') : Sent r r' := by
  obtain ⟨⟨r₁, sent⟩, h₁, h⟩ := Outcome.bind_eq_ok.mp h
  obtain rfl := Outcome.pure_eq_ok.mp h
  exact maybeSendAppend h₁

theorem drainAppends {toId : Nat} : ∀ {fuel : Nat} {r : Raft},
    Raft.drainAppends toId fuel r = Except.ok r' → Sent r r'
  | 0, _, h => by cases h
  | fuel + 1, r, h => by
      obtain ⟨⟨r₁, sent⟩, h₁, h⟩ := Outcome.bind_eq_ok.mp h
      dsimp only at h
      split at h
      · exact (maybeSendAppend h₁).trans (drainAppends h)
      · exact Outcome.pure_eq_ok.mp h ▸ maybeSendAppend h₁

theorem sendHeartbeat {ctx : Bytes} (h : r.sendHeartbeat toId ctx = Except.ok r') : Sent r r' := by
  rw [Raft.sendHeartbeat] at h
  split at h
  · cases h
  · exact send h (by simp)

/-- A loop over the peers does what each of its rounds does. -/
theorem forEachPeer {f : Raft → Nat → Outcome Raft}
    (hf : ∀ {r r' toId}, f r toId = Except.ok r' → Sent r r')
    (h : r.forEachPeer f = Except.ok r') : Sent r r' := by
  refine Outcome.foldlM_induct (P := Sent r) (fun s s' id _ hs hround => ?_) (refl r) h
  split at hround
  · exact Outcome.pure_eq_ok.mp hround ▸ hs
  · exact hs.trans (hf hround)

theorem bcastAppend (h : r.bcastAppend = Except.ok r') : Sent r r' := forEachPeer sendAppend h

theorem bcastHeartbeatWithCtx {ctx : Bytes} (h : r.bcastHeartbeatWithCtx ctx = Except.ok r') :
    Sent r r' := forEachPeer sendHeartbeat h

/-! ## The log -/

theorem maybeCommit {changed : Bool} (h : r.maybeCommit = Except.ok (r', changed)) :
    Sent r r' := by
  rw [Raft.maybeCommit] at h
  split at h
  · cases h
  split at h
  · cases h
  obtain ⟨⟨raftLog, changed'⟩, -, h⟩ := Outcome.bind_eq_ok.mp h
  simp only [Outcome.pure_eq_ok, Prod.mk.injEq] at h
  rw [← h.1]
  exact Sent.same rfl rfl

theorem appendEntry {es : List Entry} {ok : Bool} (h : r.appendEntry es = Except.ok (r', ok)) :
    Sent r r' := by
  rw [Raft.appendEntry] at h
  dsimp only at h
  split at h
  · simp only [Outcome.pure_eq_ok, Prod.mk.injEq] at h
    exact h.1 ▸ refl r
  rename_i r₁ hincrease
  have h₁ : Sent r r₁ := by
    unfold Raft.increaseUncommittedSize at hincrease
    dsimp only at hincrease
    split at hincrease
    · cases hincrease
    · rw [← Option.some.inj hincrease]
      exact Sent.same rfl rfl
  obtain ⟨⟨raftLog, li⟩, -, h⟩ := Outcome.bind_eq_ok.mp h
  dsimp only at h
  split at h
  · cases h
  obtain ⟨⟨r₂, committed⟩, hcommit, h⟩ := Outcome.bind_eq_ok.mp h
  simp only [Outcome.pure_eq_ok, Prod.mk.injEq] at h
  obtain ⟨rfl, -⟩ := h
  have happended : Sent { r₁ with raftLog := raftLog } r₂ :=
    (modify fun p _ => Progress.standing_maybeUpdate _).trans (maybeCommit hcommit)
  exact h₁.trans (happended.after rfl rfl)

theorem sendAfterAck {id : Nat} {committed oldPaused : Bool}
    (h : r.sendAfterAck id committed oldPaused = Except.ok r') : Sent r r' := by
  unfold Raft.sendAfterAck at h
  split at h
  · exact bcastAppend h
  split at h
  · exact sendAppend h
  · exact Outcome.pure_eq_ok.mp h ▸ refl r

theorem finishTransfer {id matched : Nat} (h : r.finishTransfer id matched = Except.ok r') :
    Sent r r' := by
  unfold Raft.finishTransfer at h
  split at h
  · exact send h (by simp)
  · exact Outcome.pure_eq_ok.mp h ▸ refl r

theorem sendIfBehind {id matched : Nat} (h : r.sendIfBehind id matched = Except.ok r') :
    Sent r r' := by
  unfold Raft.sendIfBehind at h
  split at h
  · exact sendAppend h
  · exact Outcome.pure_eq_ok.mp h ▸ refl r

end Sent

/-! ## Messages to a leader -/

section Handlers

variable {r r' : Raft} {m : Message} {status : Status} {pr : Progress}

theorem stepLeaderProp_sent (h : r.stepLeaderProp m = Except.ok (r', status)) : Sent r r' := by
  rw [stepLeaderProp] at h
  split at h
  · cases h
  split at h
  · simp only [Outcome.pure_eq_ok, Prod.mk.injEq] at h
    exact h.1 ▸ Sent.refl r
  split at h
  · simp only [Outcome.pure_eq_ok, Prod.mk.injEq] at h
    exact h.1 ▸ Sent.refl r
  dsimp only at h
  obtain ⟨⟨r₁, ok⟩, happend, h⟩ := Outcome.bind_eq_ok.mp h
  have h₁ : Sent r r₁ := (Sent.appendEntry happend).after rfl rfl
  dsimp only at h
  split at h
  · simp only [Outcome.pure_eq_ok, Prod.mk.injEq] at h
    exact h.1 ▸ h₁
  · obtain ⟨r₂, hbcast, h⟩ := Outcome.bind_eq_ok.mp h
    simp only [Outcome.pure_eq_ok, Prod.mk.injEq] at h
    exact h.1 ▸ h₁.trans (Sent.bcastAppend hbcast)

/-- The sender's progress is replaced by one that says it is active. -/
theorem SamePeers.heard {id : Nat} {pr' : Progress} (hpr : r.getProgress id = some pr)
    (h : pr'.standing = (true, pr.isLearner)) :
    SamePeers (some id) r (r.modifyProgress id fun _ => pr') := by
  refine modify (by simp) fun p hp => ?_
  rw [h, Option.some.inj (hp.symm.trans hpr)]
  simp

/-- Hearing of a node that is no voter marks no voter. -/
theorem SamePeers.stranger {id : Nat} (h : id ∉ r.prs) : SamePeers (some id) r r where
  toSameRole := ⟨rfl, rfl, rfl, rfl⟩
  learners := rfl
  voters := by
    refine (List.map_congr_left fun s hs => ?_).symm.trans (List.map_id _) |>.symm
    have : some id ≠ some s.1 := by
      rintro ⟨rfl⟩
      rw [AList.mem_keys, IdMap.keys_eq_standings] at h
      exact h (List.mem_map_of_mem hs)
    simp [IdMap.mark, this]

theorem stepRejected_heard (hpr : r.getProgress m.fromId = some pr)
    (h : r.stepRejected m { pr with recentActive := true } = Except.ok r') :
    SamePeers (some m.fromId) r r' ∧ SameReads r r' := by
  rw [stepRejected] at h
  dsimp only at h
  have hstanding : ({ pr with recentActive := true }.maybeDecreasesTo m.index m.rejectHint).1.standing
      = (true, pr.isLearner) := Progress.standing_maybeDecreasesTo _ _
  split at h
  · have hsent := Sent.sendAppend h
    refine ⟨(SamePeers.heard hpr ?_).trans hsent.toSamePeers,
      (sameReads_modify _ _).trans hsent.toSameReads⟩
    split
    · rw [Progress.standing_becomeProbe, hstanding]
    · exact hstanding
  · rw [← Outcome.pure_eq_ok.mp h]
    exact ⟨SamePeers.heard hpr hstanding, sameReads_modify _ _⟩

theorem stepAcknowledged_heard (hpr : r.getProgress m.fromId = some pr)
    (h : r.stepAcknowledged m { pr with recentActive := true } = Except.ok r') :
    SamePeers (some m.fromId) r r' ∧ SameReads r r' := by
  rw [stepAcknowledged] at h
  dsimp only at h
  have hstanding : ({ pr with recentActive := true }.maybeUpdate m.index).1.standing
      = (true, pr.isLearner) := Progress.standing_maybeUpdate _
  split at h
  · obtain ⟨pr', hpr', h⟩ := Outcome.bind_eq_ok.mp h
    obtain ⟨⟨r₁, committed⟩, hcommit, h⟩ := Outcome.bind_eq_ok.mp h
    obtain ⟨r₂, hafter, h⟩ := Outcome.bind_eq_ok.mp h
    obtain ⟨r₃, hdrain, h⟩ := Outcome.bind_eq_ok.mp h
    have hsent : Sent _ r' := (Sent.maybeCommit hcommit).trans <| (Sent.sendAfterAck hafter).trans <|
      (Sent.drainAppends hdrain).trans (Sent.finishTransfer h)
    have hheard := SamePeers.heard hpr ((Progress.standing_acknowledged hpr').trans hstanding)
    exact ⟨hheard.trans hsent.toSamePeers, (sameReads_modify _ _).trans hsent.toSameReads⟩
  · rw [← Outcome.pure_eq_ok.mp h]
    exact ⟨SamePeers.heard hpr hstanding, sameReads_modify _ _⟩

theorem stepAppResp_heard (hpr : r.getProgress m.fromId = some pr)
    (h : r.stepAppResp m pr = Except.ok r') :
    SamePeers (some m.fromId) r r' ∧ SameReads r r' := by
  rw [stepAppResp] at h
  split at h
  · exact stepRejected_heard hpr h
  · exact stepAcknowledged_heard hpr h

theorem respondRead_samePeers {req : Message} {index : Nat}
    (h : r.respondRead req index = Except.ok r') :
    SamePeers none r r' ∧ r'.readOnly = r.readOnly := by
  rw [respondRead] at h
  split at h
  · obtain ⟨ctx, -, h⟩ := Outcome.bind_eq_ok.mp h
    rw [← Outcome.pure_eq_ok.mp h]
    exact ⟨SamePeers.same rfl, rfl⟩
  · rw [(send_eq_ok h).1]
    exact ⟨SamePeers.same rfl, rfl⟩

/-- Releasing reads concerns no peer. -/
theorem releaseReads_samePeers (h : r.releaseReads m = Except.ok r') : SamePeers none r r' := by
  rw [releaseReads] at h
  split at h
  · exact Outcome.pure_eq_ok.mp h ▸ SamePeers.same rfl
  dsimp only at h
  split at h
  · exact Outcome.pure_eq_ok.mp h ▸ SamePeers.same rfl
  obtain ⟨⟨readOnly, rss⟩, -, h⟩ := Outcome.bind_eq_ok.mp h
  have hreleased : SamePeers none r { r with readOnly := readOnly } := SamePeers.same rfl
  exact Outcome.foldlM_induct (P := SamePeers none r)
    (fun s s' rs _ hs hround => hs.trans (respondRead_samePeers hround).1) hreleased h

/-- A heartbeat answer first marks its sender and brings it up to date, then it may release
reads. -/
theorem stepHeartbeatResp_split (hpr : r.getProgress m.fromId = some pr)
    (h : r.stepHeartbeatResp m pr = Except.ok r') :
    ∃ r₁, SamePeers (some m.fromId) r r₁ ∧ SameReads r r₁ ∧ r₁.releaseReads m = Except.ok r' := by
  obtain ⟨pr', hpr', h⟩ := Outcome.bind_eq_ok.mp h
  obtain ⟨r₁, hbehind, h⟩ := Outcome.bind_eq_ok.mp h
  have hsent := Sent.sendIfBehind hbehind
  exact ⟨r₁, (SamePeers.heard hpr (Progress.standing_heartbeatAnswered hpr')).trans
    hsent.toSamePeers, (sameReads_modify _ _).trans hsent.toSameReads, h⟩

theorem stepSnapStatus_sent (hpr : r.getProgress m.fromId = some pr) :
    Sent r (r.stepSnapStatus m pr) := by
  unfold stepSnapStatus
  split
  · exact Sent.refl r
  · refine Sent.set hpr ?_
    rw [Progress.standing_setPause]
    split <;> simp

theorem stepUnreachable_sent (hpr : r.getProgress m.fromId = some pr) :
    Sent r (r.stepUnreachable m pr) := by
  unfold stepUnreachable
  split
  · exact Sent.set hpr Progress.standing_becomeProbe
  · exact Sent.refl r

theorem stepTransferLeader_sent (h : r.stepTransferLeader m pr = Except.ok r') : Sent r r' := by
  unfold stepTransferLeader at h
  dsimp only at h
  split at h
  · exact Outcome.pure_eq_ok.mp h ▸ Sent.refl r
  split at h
  · exact Outcome.pure_eq_ok.mp h ▸ Sent.refl r
  split at h
  · exact Outcome.pure_eq_ok.mp h ▸ Sent.same rfl rfl
  split at h
  · exact (Sent.send h (by simp)).after rfl rfl
  · exact (Sent.sendAppend h).after rfl rfl

end Handlers

end Raft

end RaftKv
