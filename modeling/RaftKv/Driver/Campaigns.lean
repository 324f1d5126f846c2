import RaftKv.Driver.Driver
import RaftKv.Leader.Office
import RaftKv.Raft.Rising

/-!
# Only voters campaign and lead

* `Raft.Rises` — the node becomes a candidate of either kind, or a leader.
* `Call.Eligible` — what may not be called on a node that is no voter: `campaign`, which does not look
  at the voters, and the answer that completes the votes of a candidate that was removed.
* `Driver.act_steady` — what every call keeps.
* `Watched.only_voters_rise` — **in every run of such calls each rise is that of a voter**, and the
  lookup of a new leader finds its progress.
-/

namespace RaftKv

/-- The node has become a candidate of either kind or a leader. -/
def Raft.Rises (r r' : Raft) : Prop :=
  r'.state ≠ RaftState.follower ∧ (r'.state ≠ r.state ∨ r'.term ≠ r.term)

instance (r r' : Raft) : Decidable (r.Rises r') := inferInstanceAs (Decidable (_ ∧ _))

/-- The call lets a node that is no voter stay where it is. -/
def Call.Eligible (n : RawNode) : Call → Prop
  | Call.campaign => n.raft.id ∈ n.raft.prs ∨ n.raft.state = RaftState.leader ∨ n.raft.HeldBack
  | Call.step m => n.raft.getProgress m.fromId ≠ none → n.raft.Decides m → n.raft.id ∈ n.raft.prs
  | _ => True

instance (n : RawNode) : (c : Call) → Decidable (c.Eligible n)
  | Call.campaign => inferInstanceAs (Decidable (_ ∨ _))
  | Call.step m => inferInstanceAs (Decidable
      (n.raft.getProgress m.fromId ≠ none → n.raft.Decides m → n.raft.id ∈ n.raft.prs))
  | Call.tick | Call.propose _ | Call.proposeConfChange _ | Call.applyConfChange _
  | Call.transferLeadership _ _ | Call.readIndex _ | Call.reportUnreachable _
  | Call.reportSnapshot _ _ | Call.ready | Call.store | Call.advance =>
      inferInstanceAs (Decidable True)

/-- A node whose rises are recorded: the role it took, and whether it was a voter. -/
structure Watched where
  driver : Driver
  risen : List (RaftState × Bool) := []

def Watched.act (pack : ConfChange → Bytes) (w : Watched) (c : Call) : Outcome Watched := do
  let d ← w.driver.act pack c
  let r := d.node.raft
  return {
    driver := d
    risen := if w.driver.node.raft.Rises r then w.risen ++ [(r.state, r.promotable)] else w.risen }

section

open Outcome Raft

variable {bad : Crash → Prop} (hbad : Narrow bad) {pack : ConfChange → Bytes} {d d' : Driver}

include hbad

/-! ## Calls -/

theorem MemoryStorage.append_avoids (s : MemoryStorage) (es : List Entry) :
    Avoids bad (s.append es) := by
  unfold MemoryStorage.append
  split
  · exact Avoids.pure
  dsimp only
  split
  · exact Avoids.pure
  split
  · exact hbad.throw (by simp [LookupFails])
  split
  · exact hbad.throw (by simp [LookupFails])
  · exact Avoids.pure

theorem Raft.setProgress_avoids (r : Raft) (id matched next : Nat) (isLearner : Bool) :
    Avoids bad (r.setProgress id matched next isLearner) := by
  rw [setProgress]
  dsimp only
  split
  · exact Avoids.pure
  split
  · exact hbad.throw (by simp [LookupFails])
  · exact Avoids.pure

theorem Raft.addNodeOrLearner_avoids (r : Raft) (id : Nat) (isLearner : Bool) :
    Avoids bad (r.addNodeOrLearner id isLearner) := by
  have hadded : ∀ s, Avoids bad (addNodeOrLearner.added id isLearner s) := by
    intro s
    rw [addNodeOrLearner.added]
    split
    · exact hbad.throw (by simp [LookupFails])
    · exact Avoids.pure
  rw [addNodeOrLearner]
  split
  · exact Avoids.bind (r.setProgress_avoids hbad _ _ _ _) fun s _ => hadded s
  split
  · exact Avoids.pure
  split
  · exact Avoids.pure
  · exact hadded _

variable (hmatch : ¬ bad (Crash.outOfRange "match_buf_"))

include hmatch

theorem RawNode.changeMembers_avoids (r : Raft) (cc : ConfChange) :
    Avoids bad (changeMembers r cc) := by
  rw [changeMembers]
  split
  · exact r.addNodeOrLearner_avoids hbad _ _
  · exact r.addNodeOrLearner_avoids hbad _ _
  · rw [removeNode]
    dsimp only
    split
    · exact Avoids.pure
    refine Avoids.bind (maybeCommit_steady hbad fun hb => absurd hb hmatch).avoids fun p _ => ?_
    exact Avoids.bind (sendAfterAck_steady hbad _ _ _).avoids fun _ _ => Avoids.pure
  · exact Avoids.pure
  · exact hbad.throw (by simp [LookupFails])

theorem RawNode.applyConfChange_avoids (n : RawNode) (cc : ConfChange) :
    Avoids bad (n.applyConfChange cc) := by
  rw [RawNode.applyConfChange]
  split
  · exact Avoids.pure
  · exact Avoids.bind (RawNode.changeMembers_avoids hbad hmatch _ _) fun _ _ => Avoids.pure

omit hbad hmatch in
/-- A configuration change leaves role and term alone. -/
lemma RawNode.changeMembers_role {r r' : Raft} {cc : ConfChange}
    (h : changeMembers r cc = Except.ok r') : r'.state = r.state ∧ r'.term = r.term := by
  rw [changeMembers] at h
  split at h
  · have hrole := (addNodeOrLearner_sameRole h).1
    exact ⟨hrole.state, hrole.term⟩
  · have hrole := (addNodeOrLearner_sameRole h).1
    exact ⟨hrole.state, hrole.term⟩
  · have hrole := (removeNode_sameRole h).1
    exact ⟨hrole.state, hrole.term⟩
  · cases h
    exact ⟨rfl, rfl⟩
  · cases h

theorem RawNode.stepRaft_steady {n : RawNode} {m : Message}
    (hlocal : m.type = MessageType.msgHup → m.term = 0) (h : n.raft.Harmless m) :
    SteadyWith bad n.raft (fun p => p.1.raft) (n.stepRaft m) :=
  SteadyWith.bind (step_steady hbad hmatch hlocal h) fun _ _ => SteadyWith.same rfl

/-- A message that is neither `MsgHup` nor an answer to a vote. -/
lemma RawNode.stepRaft_other {n : RawNode} {m : Message} (hhup : m.type ≠ MessageType.msgHup)
    (hvote : m.type ≠ MessageType.msgVoteResp) (hpre : m.type ≠ MessageType.msgPreVoteResp) :
    SteadyWith bad n.raft (fun p => p.1.raft) (n.stepRaft m) := by
  refine RawNode.stepRaft_steady hbad hmatch (fun h => absurd h hhup) ⟨fun h => absurd h hhup, ?_⟩
  intro h
  rcases h.answer with htype | htype
  · exact absurd htype hvote
  · exact absurd htype hpre

namespace Driver

omit hbad hmatch in
lemma onNode_steady {f : RawNode → Outcome RawNode}
    (h : SteadyWith bad d.node.raft RawNode.raft (f d.node)) :
    SteadyWith bad d.node.raft (fun d => d.node.raft) (d.onNode f) :=
  SteadyWith.bind h fun _ _ => SteadyWith.same rfl

omit hbad hmatch in
lemma onNodeWith_steady {α : Type} {f : RawNode → Outcome (RawNode × α)}
    (h : SteadyWith bad d.node.raft (fun p => p.1.raft) (f d.node)) :
    SteadyWith bad d.node.raft (fun d => d.node.raft) (d.onNodeWith f) :=
  SteadyWith.bind h fun _ _ => SteadyWith.same rfl

/-- Every call but a configuration change. -/
lemma act_steadyWith {c : Call} (hc : c.Eligible d.node) (hcc : ∀ cc, c ≠ Call.applyConfChange cc) :
    SteadyWith bad d.node.raft (fun d => d.node.raft) (d.act pack c) := by
  have hother : ∀ {m : Message}, m.type ≠ MessageType.msgHup → m.type ≠ MessageType.msgVoteResp →
      m.type ≠ MessageType.msgPreVoteResp →
      SteadyWith bad d.node.raft (fun p => p.1.raft) (d.node.stepRaft m) :=
    RawNode.stepRaft_other hbad hmatch
  cases c with
  | tick =>
      rw [act]
      refine onNode_steady ?_
      exact SteadyWith.bind (tick_steady hbad hmatch) fun _ _ => SteadyWith.same rfl
  | campaign =>
      rw [act]
      refine onNodeWith_steady (RawNode.stepRaft_steady hbad hmatch (fun _ => rfl) ⟨fun _ => hc, ?_⟩)
      intro h
      rcases h.answer with htype | htype <;> cases htype
  | propose data =>
      rw [act]
      refine onNodeWith_steady (hother ?_ ?_ ?_) <;> simp
  | proposeConfChange cc =>
      rw [act]
      refine onNodeWith_steady (hother ?_ ?_ ?_) <;> simp
  | step m =>
      rw [act]
      refine onNodeWith_steady ?_
      rw [RawNode.step]
      split
      · exact SteadyWith.same rfl
      rename_i hlocal
      split
      · rename_i hknown
        have hhup : m.type ≠ MessageType.msgHup := fun h => hlocal (by rw [Message.isLocalMsg, h]; rfl)
        refine RawNode.stepRaft_steady hbad hmatch (fun h => absurd h hhup)
          ⟨fun h => absurd h hhup, fun h => hc ?_ h⟩
        rcases hknown with hknown | hresponse
        · exact Option.isSome_iff_ne_none.mp hknown
        · refine absurd ?_ hresponse
          rcases h.answer with htype | htype
          · rw [Message.isResponseMsg, htype]
            rfl
          · rw [Message.isResponseMsg, htype]
            rfl
      · exact SteadyWith.same rfl
  | applyConfChange cc => exact absurd rfl (hcc cc)
  | transferLeadership lead transferee =>
      rw [act]
      refine onNode_steady (SteadyWith.bind (hother ?_ ?_ ?_) fun _ _ => SteadyWith.same rfl) <;> simp
  | readIndex rctx =>
      rw [act]
      refine onNodeWith_steady (hother ?_ ?_ ?_) <;> simp
  | reportUnreachable id =>
      rw [act]
      refine onNode_steady (SteadyWith.bind (hother ?_ ?_ ?_) fun _ _ => SteadyWith.same rfl) <;> simp
  | reportSnapshot id status =>
      rw [act]
      refine onNode_steady (SteadyWith.bind (hother ?_ ?_ ?_) fun _ _ => SteadyWith.same rfl) <;> simp
  | ready =>
      rw [act]
      split
      · have hready : SteadyWith bad d.node.raft (fun p => p.1.raft) d.node.ready := by
          refine SteadyWith.eval ?_ fun rd _ => SteadyWith.same rfl
          exact Avoids.bind (d.node.raft.raftLog.nextEntries_avoids hbad) fun _ _ => Avoids.pure
        exact SteadyWith.bind hready fun _ _ => SteadyWith.same rfl
      · exact SteadyWith.same rfl
  | store =>
      rw [act]
      split
      · refine SteadyWith.eval ?_ fun storage _ => SteadyWith.same rfl
        exact MemoryStorage.append_avoids hbad _ _
      · exact SteadyWith.same rfl
  | advance =>
      rw [act]
      split
      · exact SteadyWith.same rfl
      · exact SteadyWith.same rfl

/-- **What every call keeps**: a rise is that of a voter, and the crashes `bad` do not happen. -/
theorem act_rises {c : Call} (hc : c.Eligible d.node) : Avoids bad (d.act pack c) ∧
    ∀ d', d.act pack c = Except.ok d' → d.node.raft.Rises d'.node.raft →
      d'.node.raft.promotable = true := by
  by_cases hcc : ∃ cc, c = Call.applyConfChange cc
  · obtain ⟨cc, rfl⟩ := hcc
    constructor
    · rw [act]
      exact Avoids.bind (d.node.applyConfChange_avoids hbad hmatch cc) fun _ _ => Avoids.pure
    · intro d' h hrises
      rw [act] at h
      have hsame : d'.node.raft.state = d.node.raft.state ∧ d'.node.raft.term = d.node.raft.term := by
        obtain ⟨n, cs, happly, rfl⟩ := onNodeWith_eq_ok h
        rw [RawNode.applyConfChange] at happly
        split at happly
        · cases happly
          exact ⟨rfl, rfl⟩
        · obtain ⟨r, hchange, happly⟩ := Outcome.bind_eq_ok.mp happly
          cases happly
          exact RawNode.changeMembers_role hchange
      rcases hrises.2 with hstate | hterm
      · exact absurd hsame.1 hstate
      · exact absurd hsame.2 hterm
  · have hsteady : SteadyWith bad d.node.raft (fun d => d.node.raft) (d.act pack c) :=
      act_steadyWith hbad hmatch hc fun cc h => hcc ⟨cc, h⟩
    refine ⟨hsteady.avoids, fun d' h hrises => ?_⟩
    rcases (hsteady.rises d' h).rises with hfollower | hvoter | ⟨-, hstate, hterm⟩
    · exact absurd hfollower hrises.1
    · exact decide_eq_true hvoter
    · rcases hrises.2 with hne | hne
      · exact absurd hstate hne
      · exact absurd hterm hne

end Driver

end

/-! ## Runs -/

/-- The lookup of a new leader does not find its progress. -/
def LeaderMissing (c : Crash) : Prop := c = Crash.assertion "it != prs_.end()"

lemma leaderMissing_narrow : Narrow LeaderMissing := fun _ h => Or.inl h

lemma not_leaderMissing_matchBuf : ¬ LeaderMissing (Crash.outOfRange "match_buf_") := by
  simp [LeaderMissing]

namespace Watched

variable {pack : ConfChange → Bytes} {d : Driver} {w w' : Watched}

/-- The recorded rises are those of voters. -/
lemma act_risen {c : Call} (hw : ∀ x ∈ w.risen, x.2 = true) (hc : c.Eligible w.driver.node)
    (h : w.act pack c = Except.ok w') : ∀ x ∈ w'.risen, x.2 = true := by
  obtain ⟨d', hact, h⟩ := Outcome.bind_eq_ok.mp h
  cases h
  intro x hx
  dsimp only at hx
  split at hx
  · rename_i hrises
    rcases List.mem_append.mp hx with hold | hnew
    · exact hw x hold
    · rw [List.mem_singleton.mp hnew]
      exact (Driver.act_rises leaderMissing_narrow not_leaderMissing_matchBuf hc).2 d' hact hrises
  · exact hw x hx

/-- **Only voters campaign and lead**: in every run in which `campaign` is called on voters only, and
no candidate that is no voter any more is given the answer that completes its votes, the node is a
voter whenever it becomes a candidate or a leader, and the lookup of a new leader never fails. -/
theorem only_voters_rise
    (hrun : RunOf (act pack) (fun w c => c.Eligible w.driver.node) { driver := d } w) :
    (∀ x ∈ w.risen, x.2 = true) ∧
      ∀ c : Call, c.Eligible w.driver.node → Outcome.Avoids LeaderMissing (w.act pack c) := by
  refine ⟨hrun.invariant (fun _ _ _ hw hc h => act_risen hw hc h) (fun x hx => by cases hx), ?_⟩
  intro c hc
  refine Outcome.Avoids.bind ?_ fun _ _ => Outcome.Avoids.pure
  exact (Driver.act_rises leaderMissing_narrow not_leaderMissing_matchBuf hc).1

/-- Voters 1, 2 and 3, and the learner 4. -/
def fourConf (id : Nat) : Config where
  id := id
  peers := [1, 2, 3]
  learners := [4]
  electionTick := 10
  heartbeatTick := 1
  maxInflightMsgs := 1
  preVote := true

def fourNode (id : Nat) : Outcome RawNode := RawNode.restart (fourConf id)

/-- Node 1 campaigns, and is given a pre-vote and a vote. -/
theorem only_voters_rise_elected : ∃ n w,
    fourNode 1 = Except.ok n ∧
    RunOf (act fun _ => []) (fun w c => c.Eligible w.driver.node) { driver := { node := n } } w ∧
    w.risen = [(RaftState.preCandidate, true), (RaftState.candidate, true),
      (RaftState.leader, true)] ∧
    (∀ x ∈ w.risen, x.2 = true) ∧
      ∀ c : Call, c.Eligible w.driver.node →
        Outcome.Avoids LeaderMissing (w.act (fun _ => []) c) := by
  let calls : List Call := [Call.campaign,
    Call.step { type := MessageType.msgPreVoteResp, fromId := 2, toId := 1, term := 1 },
    Call.step { type := MessageType.msgVoteResp, fromId := 2, toId := 1, term := 1 }]
  have hreached : (((fourNode 1).toOption.get (by decide)) |> fun n =>
      (calls.foldlM (RunOf.exec (act fun _ => []) fun w c => c.Eligible w.driver.node)
        { driver := { node := n } }).toOption.any fun w =>
        decide (w.risen = [(RaftState.preCandidate, true), (RaftState.candidate, true),
          (RaftState.leader, true)])) = true := by
    decide
  obtain ⟨w, hw, hreached⟩ := (Option.any_eq_true ..).mp hreached
  have hrun := RunOf.of_exec (Outcome.eq_ok_of_toOption hw)
  exact ⟨_, w, Outcome.eq_ok_get (by decide), hrun, of_decide_eq_true hreached,
    only_voters_rise hrun⟩

/-- The learner campaigns. -/
theorem learner_rises : ∃ n w,
    fourNode 4 = Except.ok n ∧
    RunOf (act fun _ => []) (fun _ c => c = Call.campaign) { driver := { node := n } } w ∧
    w.risen = [(RaftState.preCandidate, false)] := by
  have hreached : (((fourNode 4).toOption.get (by decide)) |> fun n =>
      ([Call.campaign].foldlM (RunOf.exec (act fun _ => []) fun _ c => c = Call.campaign)
        { driver := { node := n } }).toOption.any fun w =>
        decide (w.risen = [(RaftState.preCandidate, false)])) = true := by
    decide
  obtain ⟨w, hw, hreached⟩ := (Option.any_eq_true ..).mp hreached
  have hrun := RunOf.of_exec (Outcome.eq_ok_of_toOption hw)
  exact ⟨_, w, Outcome.eq_ok_get (by decide), hrun, of_decide_eq_true hreached⟩

end Watched

end RaftKv
