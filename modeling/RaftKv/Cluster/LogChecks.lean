import RaftKv.Cluster.Safety
import RaftKv.Safety.LogChecks

/-!
# The fatal checks of the log are out of reach

* `pullReady_checks` — dealing with a `Ready` fails no check.
* `logChecks_unreachable` — **without pre-votes no action of any run fails a fatal check of the
  log.**
-/

namespace RaftKv

open Replication

variable {C : ClusterConf} {w w₀ : World Nat Entry} {i : Nat} {n : RawNode}

/-! ## The process around a node -/

theorem MemoryStorage.append_checks (s : MemoryStorage) (es : List Entry) :
    ChecksHold (s.append es) := by
  unfold MemoryStorage.append
  split
  · exact Outcome.Avoids.pure
  dsimp only
  split
  · exact Outcome.Avoids.pure
  split
  · exact ChecksHold.outOfRange _
  split
  · exact ChecksHold.fatal (by simp [LogCheck.heads, toString_string])
  · exact Outcome.Avoids.pure

/-- Entering a voter fails no check. -/
theorem Raft.addNode_checks (r : Raft) (id : Nat) : ChecksHold (r.addNodeOrLearner id false) := by
  have hadded : ∀ s : Raft, ChecksHold (Raft.addNodeOrLearner.added id false s) := by
    intro s
    unfold Raft.addNodeOrLearner.added
    dsimp only
    split
    · exact ChecksHold.nullDeref _
    · exact Outcome.Avoids.pure
  rw [Raft.addNodeOrLearner]
  split
  · exact Outcome.Avoids.bind Outcome.Avoids.pure fun _ _ => hadded _
  · split
    · exact Outcome.Avoids.pure
    split
    · exact Outcome.Avoids.pure
    · exact hadded _

theorem applyEntry_checks (n : RawNode) {e : Entry} (he : C.membership.Plain e) :
    ChecksHold (applyEntry C.codec n e) := by
  rw [applyEntry]
  split
  · rename_i htype
    obtain ⟨-, peer, hpeer, hdata⟩ := mem_bootstrapEntries _ _ _ e (he htype)
    rw [hdata, C.unpack_pack peer hpeer]
    refine Outcome.Avoids.bind ?_ fun _ _ => Outcome.Avoids.pure
    rw [RawNode.applyConfChange]
    split
    · exact Outcome.Avoids.pure
    · exact Outcome.Avoids.bind (Raft.addNode_checks _ _) fun _ _ => Outcome.Avoids.pure
  · exact Outcome.Avoids.pure

/-- **Dealing with a `Ready` fails no check.** -/
theorem pullReady_checks (hinv : Inv C.membership.setting w) (h : Sim C.membership w i n.raft) :
    ChecksHold (pullReady C.codec n) := by
  refine Outcome.Avoids.bind ?_ fun res hready => ?_
  · refine Outcome.Avoids.bind ?_ fun _ _ => Outcome.Avoids.pure
    exact Outcome.Avoids.bind (RaftLog.nextEntries_checks h.uncompacted.wf) fun _ _ =>
      Outcome.Avoids.pure
  obtain ⟨n₁, rd⟩ := res
  have hnext := (RawNode.ready_eq_ok hready).1
  refine Outcome.Avoids.bind (MemoryStorage.append_checks _ _) fun storage _ => ?_
  refine Outcome.Avoids.bind ?_ fun _ _ => Outcome.Avoids.pure
  refine Outcome.Avoids.foldlM (P := fun _ => True) (fun s e he _ => applyEntry_checks s ?_)
    (fun _ _ _ _ _ _ => trivial) trivial
  exact h.plain_log hinv e (h.uncompacted.nextEntries (h.committed_le hinv) hnext e he)

/-! ## Every action -/

namespace Cluster

variable {c : Cluster}

theorem onNode_checks {f : RawNode → Outcome (RawNode × List Message)}
    (hf : ∀ n, c.nodes i = some n → ChecksHold (f n)) : ChecksHold (c.onNode i f) := by
  rw [onNode]
  split
  · exact Outcome.Avoids.pure
  · rename_i n hn
    exact Outcome.Avoids.bind (hf n hn) fun _ _ => Outcome.Avoids.pure

theorem quiet_checks {f : RawNode → Outcome RawNode} (hf : ChecksHold (f n)) :
    ChecksHold (quiet f n) :=
  Outcome.Avoids.bind hf fun _ _ => Outcome.Avoids.pure

theorem dropStatus_checks {f : RawNode → Outcome (RawNode × Status)} (hf : ChecksHold (f n)) :
    ChecksHold (dropStatus f n) :=
  Outcome.Avoids.bind hf fun _ _ => Outcome.Avoids.pure

namespace Follows

/-- A call of one node that steps a message of the process around it. -/
theorem stepRaft_checks (h : c.Follows C w) (hn : c.nodes i = some n) {m : Message}
    (hm : Claims C.membership w i m) (hclean : CleanFor n.raft m) : ChecksHold (n.stepRaft m) :=
  Outcome.Avoids.bind
    ((Tracks.refl h.inv (h.nodes i n hn)).stepMessage_checks h.inv hm hclean) fun _ _ =>
      Outcome.Avoids.pure

theorem stepLocal_checks (h : c.Follows C w) (hn : c.nodes i = some n) {m : Message}
    (hm : Claims C.membership w i m) (htype : m.type ≠ MessageType.msgPreVoteResp) :
    ChecksHold (n.stepRaft m) :=
  h.stepRaft_checks hn hm fun _ ht => absurd ht htype

/-- **No action fails a check**, unless it gives a granted pre-vote to a candidate. -/
theorem act_checks (h : c.Follows C w) {a : Action} (hclean : CleanAction c a) :
    ChecksHold (c.act C.codec a) := by
  cases a with
  | tick i =>
      refine onNode_checks fun n hn => quiet_checks ?_
      exact Outcome.Avoids.bind ((Tracks.refl h.inv (h.nodes i n hn)).tick_checks h.inv) fun _ _ =>
        Outcome.Avoids.pure
  | campaign i =>
      refine onNode_checks fun n hn => quiet_checks (dropStatus_checks ?_)
      exact h.stepLocal_checks hn (by simp only [Claims]) (by simp)
  | propose i data =>
      refine onNode_checks fun n hn => quiet_checks (dropStatus_checks ?_)
      exact h.stepLocal_checks hn (by simp [Claims]) (by simp)
  | readIndex i rctx =>
      refine onNode_checks fun n hn => quiet_checks (dropStatus_checks ?_)
      exact h.stepLocal_checks hn (by simp only [Claims]) (by simp)
  | transferLeadership i lead transferee =>
      refine onNode_checks fun n hn => quiet_checks ?_
      exact Outcome.Avoids.bind (h.stepLocal_checks hn (by simp only [Claims]) (by simp)) fun _ _ =>
        Outcome.Avoids.pure
  | reportUnreachable i id =>
      refine onNode_checks fun n hn => quiet_checks ?_
      exact Outcome.Avoids.bind (h.stepLocal_checks hn (by simp only [Claims]) (by simp)) fun _ _ =>
        Outcome.Avoids.pure
  | reportSnapshot i id status =>
      refine onNode_checks fun n hn => quiet_checks ?_
      exact Outcome.Avoids.bind (h.stepLocal_checks hn (by simp only [Claims]) (by simp)) fun _ _ =>
        Outcome.Avoids.pure
  | deliver k =>
      rw [Cluster.act]
      split
      · exact Outcome.Avoids.pure
      rename_i m hm
      refine onNode_checks fun n hn => quiet_checks (dropStatus_checks ?_)
      rw [RawNode.step]
      split
      · exact Outcome.Avoids.pure
      split
      · exact h.stepRaft_checks hn (h.net m (List.mem_of_getElem? hm)) (hclean k m n rfl hm hn)
      · exact Outcome.Avoids.pure
  | pullReady i => exact onNode_checks fun n hn => pullReady_checks h.inv (h.nodes i n hn)

end Follows

end Cluster

/-- **The fatal checks of the log are unreachable**: without pre-votes, in every run, no action of
any node fails one of them. -/
theorem logChecks_unreachable {c₀ c : Cluster} (hpre : ∀ i, (C.conf i).preVote = false)
    (hstart : Started C c₀) (hrun : Run C c₀ c) (a : Action) : ChecksHold (c.act C.codec a) := by
  obtain ⟨w, -, hf⟩ := (Cluster.Follows.init hstart).runAny hpre hrun
  exact hf.act_checks (hf.clean hpre a)

/-- Node 2 is about to take the first entry of the elected node 1. -/
theorem logChecks_unreachable_threeNodes : ∃ c, Run (ThreeNodes.conf false)
    (ThreeNodes.start false) c ∧ c.Leads 1 2 ∧
      ChecksHold (c.act ThreeNodes.codec (Action.deliver 4)) := by
  let acts : List Action := [Action.pullReady 1, Action.pullReady 2, Action.campaign 1,
    Action.pullReady 1, Action.deliver 1, Action.pullReady 2, Action.deliver 2, Action.pullReady 1]
  have hleads : ((acts.foldlM (RunWhere.exec (ThreeNodes.conf false) fun _ _ => True)
      (ThreeNodes.start false)).toOption.any fun c => decide (c.Leads 1 2)) = true := by
    decide
  obtain ⟨c, hc, hleads⟩ := (Option.any_eq_true ..).mp hleads
  have hrun : Run (ThreeNodes.conf false) (ThreeNodes.start false) c :=
    RunOf.of_exec (Outcome.eq_ok_of_toOption hc)
  exact ⟨c, hrun, of_decide_eq_true hleads,
    logChecks_unreachable (fun _ => rfl) (ThreeNodes.started false) hrun (Action.deliver 4)⟩

end RaftKv
