import RaftKv.Driver.Campaigns
import RaftKv.Driver.Monotone
import RaftKv.Raft.Membership

/-!
# Configuration changes

`RawNode::apply_conf_change` on a node in any role.

* `RawNode.AppliesSafely` — what applying a change is to do.
* `RawNode.KeepsVoter` — a removal leaves a voter, or nobody at all.
* `RawNode.applyConfChange_safe_iff` — **a change is applied safely exactly when it keeps a voter**:
  without one, `match_buf_` is empty, and is read behind its end.
* `Driver.membership_consistent` — the same in every run, together with the membership itself.
-/

namespace RaftKv

open Outcome

namespace Raft

variable {r r' : Raft}

/-- The key sets of the two maps, each id once. -/
structure Lists (r : Raft) (cs : ConfState) : Prop where
  nodes : ∀ id, id ∈ cs.nodes ↔ id ∈ r.prs
  learners : ∀ id, id ∈ cs.learners ↔ id ∈ r.learnerPrs
  nodesOnce : cs.nodes.Nodup
  learnersOnce : cs.learners.Nodup

lemma confState_lists (r : Raft) : r.Lists (RawNode.confState r) where
  nodes id := by
    rw [RawNode.confState, nodes, AList.mem_keys]
    exact (List.perm_insertionSort _ _).mem_iff
  learners id := by
    rw [RawNode.confState, learnerNodes, AList.mem_keys]
    exact (List.perm_insertionSort _ _).mem_iff
  nodesOnce := (List.perm_insertionSort _ _).nodup_iff.mpr r.prs.keys_nodup
  learnersOnce := (List.perm_insertionSort _ _).nodup_iff.mpr r.learnerPrs.keys_nodup

lemma added_returns {id : Nat} {isLearner : Bool} (h : r.getProgress id ≠ none) :
    ∃ r', addNodeOrLearner.added id isLearner r = Except.ok r' := by
  rw [addNodeOrLearner.added]
  split
  · rename_i hnone
    exact absurd hnone h
  · exact ⟨_, rfl⟩

/-- **Entering a node never fails**, least of all in `set_progress`. -/
theorem addNodeOrLearner_returns (r : Raft) (id : Nat) (isLearner : Bool) :
    ∃ r', r.addNodeOrLearner id isLearner = Except.ok r' := by
  rw [addNodeOrLearner]
  split
  · rename_i hnew
    obtain ⟨hvoter, -⟩ := getProgress_eq_none.mp hnew
    have hset : ∃ r₁, r.setProgress id 0 (r.raftLog.lastIndex + 1) isLearner = Except.ok r₁ ∧
        r₁.getProgress id ≠ none := by
      cases isLearner with
      | false => exact ⟨_, rfl, by simp [getProgress]⟩
      | true =>
          rw [setProgress, if_neg (by simp), if_neg hvoter]
          exact ⟨_, rfl, by simp [getProgress, AList.lookup_eq_none.mpr hvoter]⟩
    obtain ⟨r₁, hset, hentered⟩ := hset
    rw [hset]
    exact added_returns hentered
  split
  · exact ⟨_, rfl⟩
  split
  · exact ⟨_, rfl⟩
  · exact added_returns (by simp [getProgress])

/-- Without a voter but with a learner, `match_buf_` is read outside its bounds. -/
theorem removeNode_outOfRange {id : Nat} (hvoters : ∀ i ∈ r.prs, i = id) {learner : Nat}
    (hlearner : learner ∈ r.learnerPrs) (hne : learner ≠ id) :
    r.removeNode id = Except.error (Crash.outOfRange "match_buf_") := by
  have hprs : (r.delProgress id).prs.entries = [] := by
    refine List.eq_nil_iff_forall_not_mem.mpr fun e he => ?_
    have hmem : e.1 ∈ r.prs.erase id := AList.mem_keys.mpr (List.mem_map_of_mem he)
    obtain ⟨hne', hmem⟩ := AList.mem_erase.mp hmem
    exact hne' (hvoters _ hmem)
  have hlearners : (r.delProgress id).learnerPrs.entries ≠ [] := by
    intro hnil
    have hmem : learner ∈ r.learnerPrs.erase id := AList.mem_erase.mpr ⟨hne, hlearner⟩
    rw [AList.mem_keys, AList.keys, List.keys] at hmem
    change learner ∈ (r.delProgress id).learnerPrs.entries.map Sigma.fst at hmem
    rw [hnil] at hmem
    cases hmem
  have hquorum : (r.delProgress id).sortedMatches.length < (r.delProgress id).quorum := by
    rw [sortedMatches, hprs, quorum]
    exact Nat.succ_pos _
  rw [removeNode]
  dsimp only
  rw [if_neg fun h => hlearners h.2, maybeCommit, if_pos hquorum]
  rfl

/-- With a voter left, the removal reads within `match_buf_`, and so do the messages that tell of a
new commit index. -/
theorem removeNode_inRange {id : Nat} (h : (∃ i ∈ r.prs, i ≠ id) ∨ ∀ i ∈ r.learnerPrs, i = id) :
    r.removeNode id ≠ Except.error (Crash.outOfRange "match_buf_") := by
  have hbad : Narrow fun c => c = Crash.outOfRange "match_buf_" := fun _ hc => Or.inr hc
  have havoids : Avoids (fun c => c = Crash.outOfRange "match_buf_") (r.removeNode id) := by
    rw [removeNode]
    dsimp only
    split
    · exact Avoids.pure
    rename_i hsome
    refine Avoids.bind (maybeCommit_steady hbad fun _ hnone => hsome ?_).avoids fun p _ => ?_
    · have hprs : (r.delProgress id).prs.entries = [] := List.map_eq_nil_iff.mp hnone
      refine ⟨hprs, ?_⟩
      rcases h with ⟨i, hi, hne⟩ | hlearners
      · have hmem : i ∈ r.prs.erase id := AList.mem_erase.mpr ⟨hne, hi⟩
        rw [AList.mem_keys] at hmem
        change i ∈ (r.delProgress id).prs.keys at hmem
        rw [hnone] at hmem
        cases hmem
      · refine List.eq_nil_iff_forall_not_mem.mpr fun e he => ?_
        have hmem : e.1 ∈ r.learnerPrs.erase id := AList.mem_keys.mpr (List.mem_map_of_mem he)
        obtain ⟨hne', hmem⟩ := AList.mem_erase.mp hmem
        exact hne' (hlearners _ hmem)
    · exact Avoids.bind (sendAfterAck_steady hbad _ _ _).avoids fun _ _ => Avoids.pure
  exact fun herror => havoids _ herror rfl

end Raft

namespace RawNode

open Raft

variable {n n' : RawNode} {cc : ConfChange}

/-- What applying a configuration change is to do: members stay apart and rightly marked, the
returned state lists them, entering a node does not fail, and `match_buf_` is read within its size. -/
structure AppliesSafely (n : RawNode) (cc : ConfChange) : Prop where
  inRange : n.applyConfChange cc ≠ Except.error (Crash.outOfRange "match_buf_")
  returns : cc.confChangeType ≠ ConfChangeType.removeNode →
    (∀ code, cc.confChangeType ≠ ConfChangeType.unexpected code) →
    ∃ n' cs, n.applyConfChange cc = Except.ok (n', cs)
  applied : ∀ n' cs, n.applyConfChange cc = Except.ok (n', cs) →
    n'.raft.Membership ∧ n'.raft.Lists cs

/-- A removal leaves a voter, unless it leaves nobody. -/
def KeepsVoter (n : RawNode) (cc : ConfChange) : Prop :=
  cc.confChangeType = ConfChangeType.removeNode → cc.nodeId ≠ 0 →
    (∃ id ∈ n.raft.prs, id ≠ cc.nodeId) ∨ ∀ id ∈ n.raft.learnerPrs, id = cc.nodeId

/-- What `apply_conf_change` returns, unless changing the members ends the process. -/
lemma applyConfChange_cases (n : RawNode) (cc : ConfChange) :
    (cc.nodeId = 0 ∧ n.applyConfChange cc = Except.ok (n, confState n.raft)) ∨
    (cc.nodeId ≠ 0 ∧ ∃ r, changeMembers n.raft cc = Except.ok r ∧
      n.applyConfChange cc = Except.ok ({ n with raft := r }, confState r)) ∨
    (cc.nodeId ≠ 0 ∧ ∃ crash, changeMembers n.raft cc = Except.error crash ∧
      n.applyConfChange cc = Except.error crash) := by
  rw [applyConfChange]
  split
  · rename_i hid
    exact Or.inl ⟨hid, rfl⟩
  · rename_i hid
    rcases hchange : changeMembers n.raft cc with crash | r
    · exact Or.inr (Or.inr ⟨hid, crash, rfl, rfl⟩)
    · exact Or.inr (Or.inl ⟨hid, r, rfl, rfl⟩)

/-- Only a removal, or a change of an unknown kind, ends the process. -/
lemma changeMembers_returns (r : Raft) (hremove : cc.confChangeType ≠ ConfChangeType.removeNode)
    (hcode : ∀ code, cc.confChangeType ≠ ConfChangeType.unexpected code) :
    ∃ r', changeMembers r cc = Except.ok r' := by
  rw [changeMembers]
  split
  · exact addNodeOrLearner_returns r cc.nodeId false
  · exact addNodeOrLearner_returns r cc.nodeId true
  · rename_i htype
    exact absurd htype hremove
  · exact ⟨r, rfl⟩
  · rename_i code htype
    exact absurd htype (hcode code)

/-- **A configuration change is applied safely exactly when it keeps a voter.** -/
theorem applyConfChange_safe_iff (h : n.raft.Membership) :
    AppliesSafely n cc ↔ KeepsVoter n cc := by
  constructor
  · intro hsafe htype hid
    by_contra hnone
    simp only [not_or, not_exists, not_and, not_not, not_forall] at hnone
    obtain ⟨hvoters, learner, hlearner, hne⟩ := hnone
    refine hsafe.inRange ?_
    rw [applyConfChange, if_neg hid, changeMembers, htype]
    dsimp only
    rw [removeNode_outOfRange hvoters hlearner hne]
    rfl
  · intro hkeeps
    rcases applyConfChange_cases n cc with ⟨-, hok⟩ | ⟨-, r, hchange, hok⟩ | ⟨hid, crash, hchange, hok⟩
    · refine ⟨by simp [hok], fun _ _ => ⟨_, _, hok⟩, fun n' cs hok' => ?_⟩
      rw [hok] at hok'
      cases hok'
      exact ⟨h, confState_lists n.raft⟩
    · refine ⟨by simp [hok], fun _ _ => ⟨_, _, hok⟩, fun n' cs hok' => ?_⟩
      rw [hok] at hok'
      cases hok'
      exact ⟨h.changeMembers hchange, confState_lists r⟩
    · refine ⟨fun herror => ?_, fun hremove hcode => ?_, fun n' cs hok' => ?_⟩
      · rw [hok] at herror
        obtain rfl := Except.error.inj herror
        by_cases htype : cc.confChangeType = ConfChangeType.removeNode
        · rw [changeMembers, htype] at hchange
          exact removeNode_inRange (hkeeps htype hid) hchange
        · by_cases hcode : ∃ code, cc.confChangeType = ConfChangeType.unexpected code
          · obtain ⟨code, hcode⟩ := hcode
            rw [changeMembers, hcode] at hchange
            cases hchange
          · obtain ⟨r', hr'⟩ := changeMembers_returns n.raft htype fun code hc => hcode ⟨code, hc⟩
            rw [hchange] at hr'
            cases hr'
      · obtain ⟨r', hr'⟩ := changeMembers_returns n.raft hremove hcode
        rw [hchange] at hr'
        cases hr'
      · rw [hok] at hok'
        cases hok'

end RawNode

namespace Driver

open Raft

variable {pack : ConfChange → Bytes} {d d' : Driver} {n : RawNode}

/-- Only a message from the network is a snapshot. -/
lemma stepped_snap {c : Call} (h : (c.stepped pack n).type = MessageType.msgSnap) :
    ∃ m, c = Call.step m ∧ m.type = MessageType.msgSnap := by
  cases c with
  | step m => exact ⟨m, rfl, h⟩
  | _ => cases h

/-- **One call** keeps the members of a node apart. -/
theorem act_membership {c : Call} (h : d.node.raft.Membership) (hc : c.Stamped)
    (hact : d.act pack c = Except.ok d') : d'.node.raft.Membership := by
  rcases act_deeds hc hact with ⟨⟨r, hgroup, hdeeds⟩, -⟩ | ⟨-, n, rd, hready, rfl⟩ |
    ⟨rd, storage, -, -, rfl⟩ | ⟨-, rd, -, rfl⟩
  · by_cases hsnap : (c.stepped pack d.node).type = MessageType.msgSnap
    · obtain ⟨m, rfl, hm⟩ := stepped_snap hsnap
      rw [act] at hact
      obtain ⟨n, status, hn, rfl⟩ := onNodeWith_eq_ok hact
      rw [RawNode.step] at hn
      split at hn
      · cases hn
        exact h
      split at hn
      · obtain ⟨⟨r', status'⟩, hstep, hn⟩ := Outcome.bind_eq_ok.mp hn
        cases hn
        exact h.stepSnap hm hstep
      · cases hn
        exact h
    · exact (h.regrouped hgroup).congr (hdeeds.roster hsnap)
  · obtain ⟨-, -, -, -, hn⟩ := RawNode.ready_eq_ok hready
    rw [hn]
    exact h.congr (roster_congr rfl rfl)
  · exact h.congr (roster_congr rfl rfl)
  · exact h.congr (roster_congr rfl rfl)

/-- **Every node starts with its members apart.** -/
theorem membership_of_boots {c : Config} (h : Boots pack c n) : n.raft.Membership := by
  obtain ⟨r, hinit, hr | ⟨-, peers, hboot⟩⟩ := boots_cases h
  · exact init_membership (hr ▸ hinit)
  · obtain ⟨r₁, hfollow, hboot⟩ := Outcome.bind_eq_ok.mp hboot
    obtain ⟨⟨l, last⟩, -, hboot⟩ := Outcome.bind_eq_ok.mp hboot
    have h₁ : r₁.Membership := (init_membership hinit).becomeFollower hfollow
    refine Outcome.foldlM_induct (P := Membership) (fun s s' peer _ hs hround => ?_) ?_ hboot
    · exact hs.regrouped (Deeds.addNodeOrLearner hround)
    · exact h₁.congr (roster_congr rfl rfl)

/-- **Configuration changes are applied safely.**  Whatever a node is called with, its voters and
learners are apart and rightly marked; and any change is applied safely, unless it is a removal that
leaves learners without a voter. -/
theorem membership_consistent {c : Config} (hboots : Boots pack c n)
    (hrun : RunOf (Driver.act pack) (fun _ call => call.Stamped) { node := n } d) :
    d.node.raft.Membership ∧ ∀ cc, d.node.AppliesSafely cc ↔ d.node.KeepsVoter cc := by
  have h : d.node.raft.Membership :=
    hrun.invariant (I := fun d => d.node.raft.Membership)
      (fun _ _ _ hd hc hact => act_membership hd hc hact) (membership_of_boots hboots)
  exact ⟨h, fun cc => RawNode.applyConfChange_safe_iff h⟩

/-- Node 1 of voters 1, 2 and 3 and the learner 4 campaigns; then voter 2 goes and the learner becomes
a voter. -/
theorem membership_consistent_changed : ∃ n d,
    Boots (fun _ => []) (Watched.fourConf 1) n ∧
    RunOf (Driver.act fun _ => []) (fun _ call => call.Stamped) { node := n } d ∧
    d.node.raft.nodes = [1, 3, 4] ∧ d.node.raft.learnerNodes = [] ∧
    d.node.raft.Membership ∧ ∀ cc, d.node.AppliesSafely cc ↔ d.node.KeepsVoter cc := by
  let calls : List Call := [Call.campaign,
    Call.applyConfChange { confChangeType := ConfChangeType.removeNode, nodeId := 2 },
    Call.applyConfChange { confChangeType := ConfChangeType.addNode, nodeId := 4 }]
  have hreached : (((Watched.fourNode 1).toOption.get (by decide)) |> fun n =>
      (calls.foldlM (RunOf.exec (Driver.act fun _ => []) fun _ call => call.Stamped)
        { node := n }).toOption.any fun d =>
        decide (d.node.raft.nodes = [1, 3, 4] ∧ d.node.raft.learnerNodes = [])) = true := by
    decide
  obtain ⟨d, hd, hreached⟩ := (Option.any_eq_true ..).mp hreached
  obtain ⟨hnodes, hlearners⟩ := of_decide_eq_true hreached
  have hrun := RunOf.of_exec (Outcome.eq_ok_of_toOption hd)
  have hboots : Boots (fun _ => []) (Watched.fourConf 1)
      ((Watched.fourNode 1).toOption.get (by decide)) := Or.inl (Outcome.eq_ok_get (by decide))
  exact ⟨_, d, hboots, hrun, hnodes, hlearners, membership_consistent hboots hrun⟩

/-- The only voter is 1, and 2 is a learner. -/
def pairConf : Config where
  id := 1
  peers := [1]
  learners := [2]
  electionTick := 10
  heartbeatTick := 1
  maxInflightMsgs := 1

/-- The voter is removed: the first element of the empty `match_buf_` is read. -/
theorem membership_voterless : ∃ n,
    Boots (fun _ => []) pairConf n ∧
    n.applyConfChange { confChangeType := ConfChangeType.removeNode, nodeId := 1 } =
      Except.error (Crash.outOfRange "match_buf_") ∧
    ¬ n.AppliesSafely { confChangeType := ConfChangeType.removeNode, nodeId := 1 } := by
  let n := (RawNode.restart pairConf).toOption.get (by decide)
  have hcrash : n.applyConfChange { confChangeType := ConfChangeType.removeNode, nodeId := 1 } =
      Except.error (Crash.outOfRange "match_buf_") := by
    rfl
  exact ⟨n, Or.inl (Outcome.eq_ok_get (by decide)), hcrash, fun h => h.inRange hcrash⟩

end Driver

end RaftKv
