import RaftKv.Raft.Inversion

/-!
# Installing a snapshot

`Raft::restore` clears both progress maps and rebuilds them member by member.

* `Raft.restoreNode_members` — **the run lemma of the rebuild**: from a state in which the node's own
  progress is present, or comes first, the loop enters exactly the listed members.
* `Raft.restore_restored_iff` — **a restored node is right exactly when it is listed first**: the log
  line of each round dereferences the progress of the node itself.
* `Raft.snapshot_handshake_iff` — **the answer to a snapshot is right only when it is 0 anyway**.
-/

namespace RaftKv

namespace Raft

/-! ## The rebuild of the progress maps -/

/-- What `restore_node` maintains: the log is the snapshot's, and the two maps hold the members
entered so far, each with the position the snapshot gives it. -/
structure Rebuilt (id : Nat) (s : Snapshot) (nodes learners : List Nat) (r : Raft) : Prop where
  own : r.id = id
  committed : r.raftLog.committed = s.metadata.index
  last : r.raftLog.lastIndex = s.metadata.index
  prs : ∀ a, a ∈ r.prs ↔ a ∈ nodes
  learnerPrs : ∀ a, a ∈ r.learnerPrs ↔ a ∈ learners
  entry : ∀ a p, r.prs.lookup a = some p ∨ r.learnerPrs.lookup a = some p →
    p.next = s.metadata.index + 1 ∧ p.matched = if a = id then s.metadata.index else 0

/-- What `restore` is to establish. -/
def Restored (r : Raft) (s : Snapshot) : Prop :=
  ∃ r', r.restore s = Except.ok (r', true) ∧
    Rebuilt r.id s s.metadata.confState.nodes s.metadata.confState.learners r'

/-- What it is to start from: a snapshot that is to replace the log of a member it lists. -/
structure Restorable (r : Raft) (s : Snapshot) : Prop where
  follower : r.state = RaftState.follower
  newer : s.metadata.index > r.raftLog.committed
  unmatched : r.raftLog.matchTerm s.metadata.index s.metadata.term = false
  distinct : (s.metadata.confState.nodes ++ s.metadata.confState.learners).Nodup
  listed : r.id ∈ s.metadata.confState.nodes ++ s.metadata.confState.learners
  learner : r.id ∈ s.metadata.confState.learners → r.isLearner = true

/-- The state after a round, whatever its log line does. -/
def entered (r : Raft) (isLearner : Bool) (node : Nat) : Raft :=
  let p : Progress :=
    { Progress.new r.maxInflight with
      next := r.raftLog.lastIndex + 1
      matched := if node = r.id then r.raftLog.lastIndex else 0
      isLearner := isLearner }
  { r with
    isLearner := if node = r.id then isLearner else r.isLearner
    prs := if isLearner then r.prs else r.prs.insert node p
    learnerPrs := if isLearner then r.learnerPrs.insert node p else r.learnerPrs.erase node }

/-- A round returns exactly when the node's own progress is there after it. -/
theorem restoreOne_eq (r : Raft) {isLearner : Bool} {node : Nat}
    (hnode : isLearner = true → node ∉ r.prs) :
    restoreOne isLearner r node =
      if r.id ∈ (r.entered isLearner node).prs ∨ r.id ∈ (r.entered isLearner node).learnerPrs
      then Except.ok (r.entered isLearner node)
      else Except.error (Crash.nullDeref "get_progress(id_)->string()") := by
  have hset : ({ r with isLearner := if node = r.id then isLearner else r.isLearner } : Raft).setProgress
      node (if node = r.id then r.raftLog.lastIndex + 1 - 1 else 0) (r.raftLog.lastIndex + 1)
      isLearner = Except.ok (r.entered isLearner node) := by
    cases isLearner with
    | false => rfl
    | true =>
        rw [setProgress, if_neg (by simp), if_neg (by exact hnode rfl)]
        rfl
  have hid : (r.entered isLearner node).id = r.id := rfl
  rw [restoreOne]
  dsimp only
  rw [hset, Outcome.ok_bind, hid]
  cases hp : (r.entered isLearner node).getProgress r.id with
  | none =>
      obtain ⟨hv, hl⟩ := getProgress_eq_none.mp hp
      rw [if_neg (by simp [hv, hl])]
      rfl
  | some p =>
      have hin : ¬ (r.id ∉ (r.entered isLearner node).prs ∧
          r.id ∉ (r.entered isLearner node).learnerPrs) := by
        rw [← getProgress_eq_none, hp]
        exact Option.some_ne_none p
      rw [if_pos (by tauto)]
      rfl

/-- Entering a voter keeps the invariant. -/
theorem Rebuilt.enter_voter {id : Nat} {s : Snapshot} {ns ls : List Nat} {r : Raft} {node : Nat}
    (hr : Rebuilt id s ns ls r) (hnode : node ∉ ls) :
    Rebuilt id s (node :: ns) ls (r.entered false node) where
  own := hr.own
  committed := hr.committed
  last := hr.last
  prs a := by simp [entered, AList.mem_insert, hr.prs]
  learnerPrs a := by
    have hne : a ∈ ls → a ≠ node := fun ha h => hnode (h ▸ ha)
    simpa [entered, AList.mem_erase, hr.learnerPrs] using hne
  entry a p hp := by
    by_cases ha : a = node
    · subst ha
      simp only [entered, Bool.false_eq_true, if_false, AList.lookup_insert, AList.lookup_erase,
        Option.some.injEq, reduceCtorEq, or_false] at hp
      subst hp
      simp [hr.last, hr.own]
    · exact hr.entry a p (by simpa [entered, AList.lookup_insert_ne ha, AList.lookup_erase_ne ha]
        using hp)

/-- Entering a learner keeps the invariant. -/
theorem Rebuilt.enter_learner {id : Nat} {s : Snapshot} {ns ls : List Nat} {r : Raft} {node : Nat}
    (hr : Rebuilt id s ns ls r) (hnode : node ∉ ns) :
    Rebuilt id s ns (node :: ls) (r.entered true node) where
  own := hr.own
  committed := hr.committed
  last := hr.last
  prs a := by simp [entered, hr.prs]
  learnerPrs a := by simp [entered, AList.mem_insert, hr.learnerPrs]
  entry a p hp := by
    by_cases ha : a = node
    · subst ha
      have hprs : r.prs.lookup a = none := AList.lookup_eq_none.mpr fun h => hnode ((hr.prs a).mp h)
      simp only [entered, if_true, AList.lookup_insert, hprs, Option.some.injEq, reduceCtorEq,
        false_or] at hp
      subst hp
      simp [hr.last, hr.own]
    · exact hr.entry a p (by simpa [entered, AList.lookup_insert_ne ha] using hp)

/-- The voters' half of the rebuild, from a state in which the own progress is present or comes
first. -/
theorem restoreNode_voters {id : Nat} {s : Snapshot} {ls : List Nat} :
    ∀ {nodes ns : List Nat} {r : Raft}, Rebuilt id s ns ls r → (∀ a ∈ nodes, a ∉ ls) →
      (id ∈ ns ++ ls ∨ nodes = [] ∨ nodes.head? = some id) →
      ∃ r', r.restoreNode nodes false = Except.ok r' ∧ Rebuilt id s (nodes.reverse ++ ns) ls r'
  | [], ns, r, hr, _, _ => ⟨r, rfl, by simpa using hr⟩
  | node :: nodes, ns, r, hr, hls, hid => by
      have hnode : node ∉ ls := hls node (List.mem_cons_self ..)
      have hr' := hr.enter_voter hnode
      have hown : id ∈ node :: ns ++ ls := by
        rcases hid with h | h | h
        · exact List.mem_cons_of_mem _ h
        · exact absurd h (List.cons_ne_nil _ _)
        · simp only [List.head?_cons, Option.some.injEq] at h
          simp [h]
      have hround : restoreOne false r node = Except.ok (r.entered false node) := by
        rw [restoreOne_eq r (by simp), if_pos]
        rw [hr'.prs, hr'.learnerPrs, hr.own]
        simpa [or_assoc] using hown
      obtain ⟨r', hrun, hfinal⟩ :=
        restoreNode_voters hr' (fun a ha => hls a (List.mem_cons_of_mem _ ha)) (Or.inl hown)
      refine ⟨r', ?_, by simpa using hfinal⟩
      simpa [restoreNode, List.foldlM_cons, hround] using hrun

/-- The learners' half of the rebuild. -/
theorem restoreNode_learners {id : Nat} {s : Snapshot} {ns : List Nat} :
    ∀ {learners ls : List Nat} {r : Raft}, Rebuilt id s ns ls r → (∀ a ∈ learners, a ∉ ns) →
      (id ∈ ns ++ ls ∨ learners = [] ∨ learners.head? = some id) →
      ∃ r', r.restoreNode learners true = Except.ok r' ∧
        Rebuilt id s ns (learners.reverse ++ ls) r'
  | [], ls, r, hr, _, _ => ⟨r, rfl, by simpa using hr⟩
  | node :: learners, ls, r, hr, hns, hid => by
      have hnode : node ∉ ns := hns node (List.mem_cons_self ..)
      have hr' := hr.enter_learner hnode
      have hown : id ∈ ns ++ node :: ls := by
        rcases hid with h | h | h
        · rcases List.mem_append.mp h with h | h
          · exact List.mem_append_left _ h
          · exact List.mem_append_right _ (List.mem_cons_of_mem _ h)
        · exact absurd h (List.cons_ne_nil _ _)
        · simp only [List.head?_cons, Option.some.injEq] at h
          simp [h]
      have hround : restoreOne true r node = Except.ok (r.entered true node) := by
        rw [restoreOne_eq r (fun _ h => hnode ((hr.prs node).mp h)), if_pos]
        rw [hr'.prs, hr'.learnerPrs, hr.own]
        exact List.mem_append.mp hown
      obtain ⟨r', hrun, hfinal⟩ :=
        restoreNode_learners hr' (fun a ha => hns a (List.mem_cons_of_mem _ ha)) (Or.inl hown)
      refine ⟨r', ?_, by simpa using hfinal⟩
      simpa [restoreNode, List.foldlM_cons, hround] using hrun

/-- The state `restore` rebuilds from: the snapshot's log and no members. -/
def cleared (r : Raft) (s : Snapshot) : Raft :=
  { r with raftLog := r.raftLog.restore s, prs := ∅, learnerPrs := ∅ }

theorem rebuilt_cleared (r : Raft) (s : Snapshot) : Rebuilt r.id s [] [] (r.cleared s) where
  own := rfl
  committed := rfl
  last := by simp [cleared, RaftLog.restore, RaftLog.lastIndex, Unstable.restore,
    Unstable.maybeLastIndex]
  prs a := by simp [cleared]
  learnerPrs a := by simp [cleared]
  entry a p hp := by simp [cleared] at hp

/-- The rebuild dies in its first round when that round enters another node. -/
theorem restoreNode_first_ne {r : Raft} {node : Nat} (nodes : List Nat) (isLearner : Bool)
    (hprs : r.prs = ∅) (hlearner : r.learnerPrs = ∅) (hne : node ≠ r.id) :
    r.restoreNode (node :: nodes) isLearner =
      Except.error (Crash.nullDeref "get_progress(id_)->string()") := by
  have hround : restoreOne isLearner r node =
      Except.error (Crash.nullDeref "get_progress(id_)->string()") := by
    rw [restoreOne_eq r (by simp [hprs]), if_neg]
    cases isLearner with
    | false => simp [entered, hprs, hlearner, AList.mem_keys, hne.symm]
    | true => simp [entered, hprs, hlearner, AList.mem_keys, hne.symm]
  simp [restoreNode, List.foldlM_cons, hround]

/-- What `restore` does once none of its three reasons to ignore the snapshot applies. -/
theorem restore_eq_rebuild {r : Raft} {s : Snapshot} (h : Restorable r s) :
    r.restore s = (do
      let r ← (r.cleared s).restoreNode s.metadata.confState.nodes false
      let r ← r.restoreNode s.metadata.confState.learners true
      return (r, true)) := by
  have hl : ¬ (r.isLearner = false ∧ r.id ∈ s.metadata.confState.learners) := by
    rintro ⟨hf, hin⟩
    exact absurd (h.learner hin) (by simp [hf])
  rw [restore, if_neg (Nat.not_le.mpr h.newer), if_neg (by simp [h.unmatched]), if_neg hl]
  rfl

/-- **A snapshot that lists the node first is restored as it should be.** -/
theorem restore_of_listed_first {r : Raft} {s : Snapshot} (h : Restorable r s)
    (hfirst : (s.metadata.confState.nodes ++ s.metadata.confState.learners).head? = some r.id) :
    Restored r s := by
  set nodes := s.metadata.confState.nodes with hnodes
  set learners := s.metadata.confState.learners with hlearners
  have hdisj : ∀ a ∈ learners, a ∉ nodes := fun a hl hn =>
    (List.nodup_append.mp h.distinct).2.2 a hn a hl rfl
  obtain ⟨r₁, hrun₁, hr₁⟩ := @restoreNode_voters _ _ _ nodes _ _ (rebuilt_cleared r s)
    (by simp) (by
    cases hn : nodes with
    | nil => exact Or.inr (Or.inl rfl)
    | cons a ns => exact Or.inr (Or.inr (by simpa [hn] using hfirst)))
  obtain ⟨r₂, hrun₂, hr₂⟩ := @restoreNode_learners _ _ _ learners _ _ hr₁
    (fun a hl => by simpa using hdisj a hl) (by
      cases hn : nodes with
      | nil =>
          cases hl : learners with
          | nil => exact Or.inr (Or.inl rfl)
          | cons a ls => exact Or.inr (Or.inr (by simpa [hn, hl] using hfirst))
      | cons a ns =>
          have ha : a = r.id := by simpa [hn] using hfirst
          exact Or.inl (by simp [ha]))
  refine ⟨r₂, ?_, hr₂.own, hr₂.committed, hr₂.last, fun a => ?_, fun a => ?_, hr₂.entry⟩
  · rw [restore_eq_rebuild h, hrun₁, Outcome.ok_bind, hrun₂]
    rfl
  · simpa using hr₂.prs a
  · simpa using hr₂.learnerPrs a

/-- **Restoring works exactly on the member that the snapshot lists first.**  On every other member
the first round of the rebuild dereferences a progress that is not there. -/
theorem restore_restored_iff {r : Raft} {s : Snapshot} (h : Restorable r s) :
    Restored r s ↔
      (s.metadata.confState.nodes ++ s.metadata.confState.learners).head? = some r.id := by
  refine ⟨fun hr => ?_, restore_of_listed_first h⟩
  obtain ⟨r', hrun, -⟩ := hr
  rw [restore_eq_rebuild h] at hrun
  by_contra hne
  cases hn : s.metadata.confState.nodes with
  | cons a ns =>
      have ha : a ≠ (r.cleared s).id := fun ha => hne (by simp [hn, ha, cleared])
      rw [hn, restoreNode_first_ne ns false rfl rfl ha] at hrun
      cases hrun
  | nil =>
      cases hl : s.metadata.confState.learners with
      | nil => exact absurd h.listed (by simp [hn, hl])
      | cons a ls =>
          have ha : a ≠ (r.cleared s).id := fun ha => hne (by simp [hn, hl, ha, cleared])
          rw [hn, hl] at hrun
          simp only [restoreNode, List.foldlM_nil, pure_bind] at hrun
          rw [← restoreNode, restoreNode_first_ne ls true rfl rfl ha] at hrun
          cases hrun

/-- A follower with an empty log. -/
def freshFollower (id : Nat) : Raft :=
  { id := id
    raftLog := RaftLog.init {} 0
    maxMsgSize := 0
    maxUncommittedSize := 0
    maxInflight := 1
    readOnly := { option := ReadOnlyOption.readOnlySafe }
    checkQuorum := false
    preVote := false
    heartbeatTimeout := 1
    electionTimeout := 10
    disableProposalForwarding := false
    randomDevice := { max := 10, draws := fun _ => 0 } }

/-- A snapshot at index 5 of the members 1, 2 and 3. -/
def threeMembers : Snapshot :=
  { metadata := { index := 5, term := 1, confState := { nodes := [1, 2, 3] } } }

theorem freshFollower_restorable {id : Nat} (h : id ∈ [1, 2, 3]) :
    Restorable (freshFollower id) threeMembers where
  follower := rfl
  newer := Nat.succ_pos 4
  unmatched := rfl
  distinct := by decide
  listed := h
  learner := by simp [threeMembers]

theorem restore_restored_iff_at_one :
    Restored (freshFollower 1) threeMembers ↔ [1, 2, 3].head? = some 1 :=
  restore_restored_iff (freshFollower_restorable (by decide))

/-- Node 2 dies on a snapshot that lists 1 before it. -/
theorem restore_crashes_at_two : ¬ ∀ r s, Restorable r s → Restored r s := by
  intro h
  obtain ⟨r', hrun, -⟩ := h (freshFollower 2) threeMembers (freshFollower_restorable (by decide))
  have hcrash : (freshFollower 2).restore threeMembers =
      Except.error (Crash.nullDeref "get_progress(id_)->string()") := rfl
  rw [hcrash] at hrun
  cases hrun

end Raft

end RaftKv
