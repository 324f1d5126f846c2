import RaftKv.Driver.LogMoves

/-!
# Proposals of a leader

* `Raft.step_prop` — a leader handles a proposal, or leaves its log alone.
* `Raft.stepLeaderProp_cases` — a proposal that is not dropped is appended, stamped, and keeps the
  quota.
* `Driver.act_prop` — the calls that step the node with a proposal.
-/

namespace RaftKv

open RaftLog

/-- What is numbered behind the log is put behind the tail, whatever the log is like. -/
lemma RaftLog.append_tail {l l' : RaftLog} {es : List Entry} {last : Nat}
    (hnum : Numbered (l.lastIndex + 1) es) (happend : l.append es = Except.ok (l', last)) :
    l'.unstable.entries = l.unstable.entries ++ es ∧ l.lastIndex ≤ l'.lastIndex := by
  cases es with
  | nil =>
      cases happend
      simp
  | cons e es =>
      have hindex := hnum.head
      obtain ⟨-, hle, hoffset, hentries⟩ := truncateAndAppend_eq_ok (append_unstable happend).1
      have hlast : l'.lastIndex = l'.unstable.offset + l'.unstable.entries.length - 1 := by
        rw [lastIndex, Unstable.maybeLastIndex, if_pos (by simp [hentries])]
        rfl
      by_cases hempty : l.unstable.entries = []
      · rw [hempty, List.length_nil] at hle
        rw [hempty, List.take_nil] at hentries
        refine ⟨by rw [hentries, hempty], ?_⟩
        rw [hlast, hentries, List.nil_append, List.length_cons]
        omega
      · have hold : l.lastIndex = l.unstable.offset + l.unstable.entries.length - 1 := by
          rw [lastIndex, Unstable.maybeLastIndex, if_pos hempty]
          rfl
        have := List.length_pos_iff.mpr hempty
        rw [List.take_of_length_le (by omega)] at hentries
        refine ⟨hentries, ?_⟩
        rw [hlast, hentries, List.length_append]
        omega

namespace Raft

variable {r r' : Raft} {m : Message} {status : Status}

/-- Comparing terms leaves the log alone, and a proposal is handled in the same role or as a
follower. -/
lemma checkTerm_prop {continues : Bool} (hm : m.type = MessageType.msgProp)
    (h : r.checkTerm m = Except.ok (r', continues)) :
    r'.raftLog = r.raftLog ∧ (continues = true → r' = r ∨ r'.state = RaftState.follower) := by
  rw [checkTerm] at h
  split at h
  · cases h
    exact ⟨rfl, fun _ => Or.inl rfl⟩
  split at h
  · split at h
    · cases h
      exact ⟨rfl, fun _ => Or.inl rfl⟩
    obtain ⟨r₁, h₁, h⟩ := Outcome.bind_eq_ok.mp h
    cases h
    simp only [stepHigherTerm, hm] at h₁
    rw [becomeFollower_eq_ok h₁]
    exact ⟨rfl, fun _ => Or.inr rfl⟩
  split at h
  · obtain ⟨r₁, h₁, h⟩ := Outcome.bind_eq_ok.mp h
    cases h
    simp only [stepLowerTerm, hm, reduceCtorEq, or_self, and_false, if_false] at h₁
    cases h₁
    exact ⟨rfl, fun hf => by cases hf⟩
  · cases h
    exact ⟨rfl, fun _ => Or.inl rfl⟩

/-- A leader that is stepped with a proposal handles it, or leaves its log alone. -/
lemma step_prop (hs : r.state = RaftState.leader) (hm : m.type = MessageType.msgProp)
    (hstep : r.step m = Except.ok (r', status)) :
    r'.raftLog = r.raftLog ∨ r.stepLeaderProp m = Except.ok (r', status) := by
  obtain ⟨⟨r₁, continues⟩, hcheck, h⟩ := Outcome.bind_eq_ok.mp hstep
  obtain ⟨hlog, hcontinues⟩ := checkTerm_prop hm hcheck
  dsimp only at h
  split at h
  · cases h
    exact Or.inl hlog
  rename_i htrue
  simp only [hm] at h
  rcases hcontinues (by simpa using htrue) with rfl | hfollower
  · right
    simpa only [stepRole, hs, stepLeader, hm] using h
  · left
    simp only [stepRole, hfollower, stepFollower, hm] at h
    split at h
    · cases h
      exact hlog
    split at h
    · cases h
      exact hlog
    · obtain ⟨r₂, hsend, h⟩ := Outcome.bind_eq_ok.mp h
      cases h
      rw [(send_eq_ok hsend).1]
      exact hlog

lemma increaseUncommittedSize_quota {es : List Entry} (h : r.increaseUncommittedSize es = some r') :
    r.uncommittedSize = 0 ∨ r'.uncommittedSize ≤ r.maxUncommittedSize := by
  rw [increaseUncommittedSize] at h
  split at h
  · cases h
  · rename_i hfits
    cases h
    dsimp only
    omega

/-- What a leader does with a proposal. -/
lemma stepLeaderProp_cases (h : r.stepLeaderProp m = Except.ok (r', status)) :
    r'.raftLog = r.raftLog ∨
      (∃ l last, r.raftLog.append (r.stamped m.entries) = Except.ok (l, last) ∧
        r'.raftLog.logical = l.logical) ∧
      (r.uncommittedSize = 0 ∨ r'.uncommittedSize ≤ r.maxUncommittedSize) := by
  rw [stepLeaderProp] at h
  split at h
  · cases h
  split at h
  · cases h
    exact Or.inl rfl
  split at h
  · cases h
    exact Or.inl rfl
  obtain ⟨⟨r₁, ok⟩, happend, h⟩ := Outcome.bind_eq_ok.mp h
  rw [appendEntry] at happend
  dsimp only at happend h
  split at happend
  · cases happend
    cases h
    exact Or.inl rfl
  rename_i r₂ hsize
  obtain ⟨⟨l, last⟩, hlog, happend⟩ := Outcome.bind_eq_ok.mp happend
  dsimp only at happend
  split at happend
  · cases happend
  obtain ⟨⟨r₃, changed⟩, hcommit, happend⟩ := Outcome.bind_eq_ok.mp happend
  cases happend
  obtain ⟨r₄, hbcast, h⟩ := Outcome.bind_eq_ok.mp h
  cases h
  have hr₂ := increaseUncommittedSize_frame hsize
  have hquota := increaseUncommittedSize_quota hsize
  rw [hr₂] at hlog
  have hsent := (Asides.bcastAppend (m := m) hbcast).ledger
  simp only [ledger, Prod.mk.injEq] at hsent
  rw [hsent.2.2.2.2.1, hsent.2.2.2.2.2.2.1]
  rcases maybeCommit_cases hcommit with rfl | ⟨i, l', hl', rfl⟩
  · exact Or.inr ⟨⟨l, last, hlog, rfl⟩, hquota⟩
  · obtain ⟨rfl, -⟩ := commitTo_eq_ok hl'
    exact Or.inr ⟨⟨l, last, hlog, rfl⟩, hquota⟩

end Raft

namespace Driver

variable {pack : ConfChange → Bytes} {d d' : Driver}

/-- A proposal is stepped, or is not handled at all. -/
lemma act_prop {call : Call} (htype : (call.message pack d.node).type = MessageType.msgProp)
    (hact : d.act pack call = Except.ok d') :
    d'.node = d.node ∨ ∃ status, d.node.raft.step (call.message pack d.node) =
      Except.ok (d'.node.raft, status) := by
  have hstepped : ∀ {n : RawNode} {status : Status} {m : Message},
      d.node.stepRaft m = Except.ok (n, status) → d.node.raft.step m = Except.ok (n.raft, status) := by
    intro n status m h
    obtain ⟨⟨r, s⟩, hstep, h⟩ := Outcome.bind_eq_ok.mp h
    cases h
    exact hstep
  cases call with
  | propose data =>
      rw [act] at hact
      obtain ⟨n, status, hn, rfl⟩ := onNodeWith_eq_ok hact
      exact Or.inr ⟨status, hstepped hn⟩
  | proposeConfChange cc =>
      rw [act] at hact
      obtain ⟨n, status, hn, rfl⟩ := onNodeWith_eq_ok hact
      exact Or.inr ⟨status, hstepped hn⟩
  | step m =>
      rw [act] at hact
      obtain ⟨n, status, hn, rfl⟩ := onNodeWith_eq_ok hact
      rw [RawNode.step] at hn
      split at hn
      · cases hn
        exact Or.inl rfl
      split at hn
      · exact Or.inr ⟨status, hstepped hn⟩
      · cases hn
        exact Or.inl rfl
  | _ => cases htype

end Driver

end RaftKv
