import RaftKv.Raft.Inversion
import RaftKv.Raft.Restore

/-!
# The answer to a snapshot

A leader that has sent a snapshot stops replicating to that peer until an answer tells it how far
the peer is.  The answer of this code always carries index 0: both branches of `handle_snapshot`
store the index in the request.

* `Raft.step_msgSnap` — what a non-leader does with a `MsgSnap` of its own term.
* `Raft.snapshot_answer_iff` — **the answer is the right one only for a follower that has committed
  nothing and refuses to become a learner**.
-/

namespace RaftKv

namespace Raft

/-- A leader has sent a snapshot to a node of its own term and waits for the answer. -/
structure SnapshotInFlight (leader follower : Raft) (m : Message) : Prop where
  leads : leader.state = RaftState.leader
  follows : follower.state ≠ RaftState.leader
  sameTerm : follower.term = leader.term
  type : m.type = MessageType.msgSnap
  source : m.fromId = leader.id
  term : m.term = leader.term
  nonempty : m.snapshot.isEmpty = false
  pending : ∃ pr, leader.getProgress follower.id = some pr ∧
    pr.state = ProgressState.snapshot ∧ pr.pendingSnapshot = m.snapshot.metadata.index

/-- Whether `restore` replaces the log by the snapshot: it is newer, it does not match the log, and
it does not make a learner of a voter. -/
def Replaces (r : Raft) (s : Snapshot) : Prop :=
  r.raftLog.committed < s.metadata.index ∧
    r.raftLog.matchTerm s.metadata.index s.metadata.term = false ∧
    ¬ (r.isLearner = false ∧ r.id ∈ s.metadata.confState.learners)

/-- The position a follower has after a snapshot: its last index if it was restored, else its
commit index. -/
def TrueIndex (follower after : Raft) (s : Snapshot) (index : Nat) : Prop :=
  (follower.Replaces s ∧ index = after.raftLog.lastIndex) ∨
    (¬ follower.Replaces s ∧ index = after.raftLog.committed)

/-- The handshake works: one answer goes out, it carries the follower's true position, and if that
position covers the snapshot, then the leader that handles the answer resumes replication. -/
def Handshake (leader follower after : Raft) (m : Message) : Prop :=
  ∃ answer, after.msgs = follower.msgs ++ [answer] ∧
    answer.type = MessageType.msgAppResp ∧ answer.toId = leader.id ∧
    TrueIndex follower after m.snapshot answer.index ∧
    (m.snapshot.metadata.index ≤ answer.index → ∀ leader' status,
      leader.step answer = Except.ok (leader', status) →
      ∃ pr, leader'.getProgress follower.id = some pr ∧
        m.snapshot.metadata.index ≤ pr.matched ∧ pr.state ≠ ProgressState.snapshot)

/-! ## What the follower does -/

/-- A message of the node's own term passes the comparison of terms. -/
theorem checkTerm_same {r : Raft} {m : Message} (h : m.term = r.term) :
    r.checkTerm m = Except.ok (r, true) := by
  rw [checkTerm]
  split_ifs with h₀ h₁ h₂
  · rfl
  · omega
  · omega
  · omega
  · rfl

theorem handleSnapshot_eq_ok {r r' : Raft} {m : Message} (h : r.handleSnapshot m = Except.ok r') :
    ∃ r₁ restored, r.restore m.snapshot = Except.ok (r₁, restored) ∧
      r' = { r₁ with
        msgs := r₁.msgs ++ [r₁.signed { type := MessageType.msgAppResp, toId := m.fromId }] } := by
  obtain ⟨⟨r₁, restored⟩, h₁, h₂⟩ := Outcome.bind_eq_ok.mp h
  exact ⟨r₁, restored, h₁, (send_eq_ok h₂).1⟩

/-- A non-leader becomes a follower of the sender of a snapshot of its own term, and handles it. -/
theorem step_msgSnap {r r' : Raft} {m : Message} {status : Status}
    (hterm : m.term = r.term) (htype : m.type = MessageType.msgSnap)
    (hstate : r.state ≠ RaftState.leader) (h : r.step m = Except.ok (r', status)) :
    ∃ r₀ : Raft, r₀.raftLog = r.raftLog ∧ r₀.id = r.id ∧ r₀.isLearner = r.isLearner ∧
      r₀.msgs = r.msgs ∧ r₀.handleSnapshot m = Except.ok r' := by
  have hcandidate (hc : r.stepCandidate m = Except.ok (r', status)) :
      ∃ r₀ : Raft, r₀.raftLog = r.raftLog ∧ r₀.id = r.id ∧ r₀.isLearner = r.isLearner ∧
        r₀.msgs = r.msgs ∧ r₀.handleSnapshot m = Except.ok r' := by
    simp only [stepCandidate, htype, Outcome.bind_eq_ok, Outcome.pure_eq_ok, Prod.mk.injEq] at hc
    obtain ⟨r₀, h₀, r₁, h₁, rfl, -⟩ := hc
    have hr₀ := becomeFollower_eq_ok h₀
    exact ⟨r₀, by rw [hr₀]; rfl, by rw [hr₀]; rfl, by rw [hr₀]; rfl, by rw [hr₀]; rfl, h₁⟩
  rw [step, checkTerm_same hterm] at h
  simp only [Outcome.ok_bind, htype, not_true_eq_false, if_false, stepRole] at h
  cases hs : r.state with
  | leader => exact absurd hs hstate
  | follower =>
      simp only [hs, stepFollower, htype, Outcome.bind_eq_ok, Outcome.pure_eq_ok,
        Prod.mk.injEq] at h
      obtain ⟨r₁, h₁, rfl, -⟩ := h
      exact ⟨{ r with electionElapsed := 0, lead := m.fromId, state := RaftState.follower },
        rfl, rfl, rfl, rfl, h₁⟩
  | candidate => exact hcandidate (by simpa only [hs] using h)
  | preCandidate => exact hcandidate (by simpa only [hs] using h)

/-- **The answer to a snapshot.**  It goes to the sender with index 0.  The log is the snapshot's
if the snapshot replaces it; else the commit index moves to the snapshot if the log matches it. -/
theorem step_msgSnap_answer {r r' : Raft} {m : Message} {status : Status}
    (hterm : m.term = r.term) (htype : m.type = MessageType.msgSnap)
    (hstate : r.state ≠ RaftState.leader) (h : r.step m = Except.ok (r', status)) :
    (∃ answer : Message, r'.msgs = r.msgs ++ [answer] ∧ answer.type = MessageType.msgAppResp ∧
      answer.toId = m.fromId ∧ answer.index = 0) ∧
    (r.Replaces m.snapshot → r'.raftLog.lastIndex = m.snapshot.metadata.index) ∧
    (¬ r.Replaces m.snapshot → r'.raftLog.committed =
      if r.raftLog.matchTerm m.snapshot.metadata.index m.snapshot.metadata.term then
        max r.raftLog.committed m.snapshot.metadata.index
      else r.raftLog.committed) := by
  obtain ⟨r₀, hlog, hid, hlearner, hmsgs, hsnap⟩ := step_msgSnap hterm htype hstate h
  obtain ⟨r₁, restored, hrestore, rfl⟩ := handleSnapshot_eq_ok hsnap
  have hreplaces : r₀.Replaces m.snapshot ↔ r.Replaces m.snapshot := by
    simp [Replaces, hlog, hid, hlearner]
  have hanswer (hr₁ : r₁.msgs = r₀.msgs) : ∃ answer : Message,
      r₁.msgs ++ [r₁.signed { type := MessageType.msgAppResp, toId := m.fromId }] =
        r.msgs ++ [answer] ∧ answer.type = MessageType.msgAppResp ∧
      answer.toId = m.fromId ∧ answer.index = 0 :=
    ⟨_, by rw [hr₁, hmsgs], by simp, by simp, by simp⟩
  rw [← hlog, ← hreplaces]
  rcases restore_cases hrestore with ⟨-, rfl, hignored⟩ | ⟨-, hlt, hm, -, rfl⟩ | ⟨-, hlt, hm, hnew, hr₁⟩
  · refine ⟨hanswer rfl, fun hrep => ?_, fun _ => ?_⟩
    · rcases hignored with hle | ⟨-, hvoter, hlisted⟩
      · exact absurd hrep.1 (by omega)
      · exact absurd ⟨hvoter, hlisted⟩ hrep.2.2
    · rcases hignored with hle | ⟨hm, -, -⟩
      · split <;> simp [hle]
      · simp [hm]
  · refine ⟨hanswer rfl, fun hrep => absurd hrep.2.1 (by simp [hm]), fun _ => ?_⟩
    simp [hm, hlt.le]
  · refine ⟨hanswer (by rw [hr₁]), fun _ => ?_, fun hrep => absurd ⟨hlt, hm, hnew⟩ hrep⟩
    have hlast : r₁.raftLog = r₀.raftLog.restore m.snapshot := by rw [hr₁]
    simp [hlast, RaftLog.restore, RaftLog.lastIndex, Unstable.restore, Unstable.maybeLastIndex]

/-- **An answer with index 0 leaves the leader where it was**: the progress stays in the snapshot
state, and every later append to that peer is held back. -/
theorem zero_answer_keeps_snapshot {leader leader' : Raft} {answer : Message} {status : Status}
    {pr : Progress} (hleads : leader.state = RaftState.leader)
    (htype : answer.type = MessageType.msgAppResp) (hterm : answer.term = leader.term)
    (hindex : answer.index = 0) (hreject : answer.reject = false)
    (hpr : leader.getProgress answer.fromId = some pr) (hsnap : pr.state = ProgressState.snapshot)
    (h : leader.step answer = Except.ok (leader', status)) :
    ∃ pr', leader'.getProgress answer.fromId = some pr' ∧
      pr'.state = ProgressState.snapshot ∧ pr'.matched = pr.matched := by
  rw [step, checkTerm_same hterm] at h
  simp only [Outcome.ok_bind, htype, not_true_eq_false, if_false, stepRole, hleads, stepLeader,
    hpr, stepLeaderPeer, stepAppResp, stepAcknowledged, hreject, Bool.false_eq_true, hindex,
    Progress.maybeUpdate, Nat.not_lt_zero, Outcome.bind_eq_ok, Outcome.pure_eq_ok, Prod.mk.injEq] at h
  obtain ⟨r₁, rfl, rfl, -⟩ := h
  refine ⟨_, getProgress_modifyProgress_self hpr _, ?_, ?_⟩
  · split <;> exact hsnap
  · split <;> rfl

/-! ## The handshake -/

/-- **The handshake works exactly for a voter that has committed nothing and is listed as a learner
by a snapshot its log does not match.**  Its true position is then the 0 that every answer
carries. -/
theorem snapshot_handshake_iff {leader follower after : Raft} {m : Message} {status : Status}
    (hflight : SnapshotInFlight leader follower m)
    (h : follower.step m = Except.ok (after, status)) :
    Handshake leader follower after m ↔
      follower.raftLog.committed = 0 ∧
        follower.raftLog.matchTerm m.snapshot.metadata.index m.snapshot.metadata.term = false ∧
        follower.isLearner = false ∧ follower.id ∈ m.snapshot.metadata.confState.learners := by
  have hpos : 0 < m.snapshot.metadata.index := by
    have hne := hflight.nonempty
    simp only [Snapshot.isEmpty, beq_eq_false_iff_ne] at hne
    omega
  obtain ⟨⟨answer, hmsgs, htype, hto, hindex⟩, hlast, hcommitted⟩ :=
    step_msgSnap_answer (hflight.term.trans hflight.sameTerm.symm) hflight.type hflight.follows h
  constructor
  · rintro ⟨answer', hmsgs', -, -, htrue, -⟩
    obtain rfl : answer' = answer := by simpa using hmsgs'.symm.trans hmsgs
    rcases htrue with ⟨hrep, hi⟩ | ⟨hrep, hi⟩
    · have := hlast hrep
      omega
    · have hc := hcommitted hrep
      by_cases hm : follower.raftLog.matchTerm m.snapshot.metadata.index
          m.snapshot.metadata.term = true
      · rw [if_pos hm] at hc
        omega
      · rw [if_neg hm] at hc
        have hzero : follower.raftLog.committed = 0 := by omega
        have hlearner : follower.isLearner = false ∧
            follower.id ∈ m.snapshot.metadata.confState.learners := by
          by_contra hnew
          exact hrep ⟨by omega, by simpa using hm, hnew⟩
        exact ⟨hzero, by simpa using hm, hlearner⟩
  · rintro ⟨hzero, hm, hvoter, hlisted⟩
    have hrep : ¬ follower.Replaces m.snapshot := fun hrep => hrep.2.2 ⟨hvoter, hlisted⟩
    have hc := hcommitted hrep
    rw [if_neg (by simp [hm])] at hc
    exact ⟨answer, hmsgs, htype, by rw [hto, hflight.source], Or.inr ⟨hrep, by omega⟩,
      fun hle => by omega⟩

/-! ## A leader that is stuck -/

/-- The leader 2 of term 1, whose log is compacted up to index 5 and which has sent the snapshot
of that position to node 1. -/
def stuckLeader : Raft :=
  { freshFollower 2 with
    term := 1
    lead := 2
    state := RaftState.leader
    raftLog := RaftLog.init
      { snapshot := threeMembers, entries := [{ term := 1, index := 5 }] } 0
    prs := (AList.insert 1 { Progress.new 1 with
        next := 1, state := ProgressState.snapshot, pendingSnapshot := 5 }
      (AList.insert 2 { Progress.new 1 with
        next := 6, matched := 5, state := ProgressState.replicate } ∅)) }

/-- Node 1, which has heard of nothing but the term. -/
def lateFollower : Raft := { freshFollower 1 with term := 1 }

def sentSnapshot : Message :=
  { type := MessageType.msgSnap, fromId := 2, toId := 1, term := 1, snapshot := threeMembers }

theorem sentSnapshot_inFlight : SnapshotInFlight stuckLeader lateFollower sentSnapshot where
  leads := rfl
  follows := by decide
  sameTerm := rfl
  type := rfl
  source := rfl
  term := rfl
  nonempty := rfl
  pending := ⟨_, rfl, rfl, rfl⟩

/-- The late follower restores the snapshot without crashing. -/
theorem lateFollower_steps : ∃ after status,
    lateFollower.step sentSnapshot = Except.ok (after, status) :=
  ⟨_, _, rfl⟩

theorem snapshot_handshake_iff_late : ∃ after status,
    lateFollower.step sentSnapshot = Except.ok (after, status) ∧
    (Handshake stuckLeader lateFollower after sentSnapshot ↔
      lateFollower.raftLog.committed = 0 ∧
        lateFollower.raftLog.matchTerm 5 1 = false ∧ lateFollower.isLearner = false ∧
        1 ∈ sentSnapshot.snapshot.metadata.confState.learners) := by
  obtain ⟨after, status, h⟩ := lateFollower_steps
  exact ⟨after, status, h, snapshot_handshake_iff sentSnapshot_inFlight h⟩

/-- The late follower is at index 5 and answers with 0. -/
theorem snapshot_answer_wrong : ¬ ∀ leader follower m after status,
    SnapshotInFlight leader follower m → follower.step m = Except.ok (after, status) →
    Handshake leader follower after m := by
  intro hall
  obtain ⟨after, status, h⟩ := lateFollower_steps
  have hrep : lateFollower.Replaces sentSnapshot.snapshot := ⟨by decide, rfl, by decide⟩
  obtain ⟨answer, hmsgs, -, -, htrue, -⟩ := hall _ _ _ _ _ sentSnapshot_inFlight h
  obtain ⟨⟨answer', hmsgs', -, -, hzero⟩, hlast, -⟩ :=
    step_msgSnap_answer rfl rfl (by decide) h
  obtain rfl : answer = answer' := by simpa using hmsgs.symm.trans hmsgs'
  have hfive : after.raftLog.lastIndex = 5 := hlast hrep
  rcases htrue with ⟨-, hi⟩ | ⟨hn, -⟩
  · omega
  · exact hn hrep

end Raft

end RaftKv
