import RaftKv.Raft.Inversion
import RaftKv.Raft.LogicalLog

/-!
# How a node starts

* `Raft.init_eq_ok` — what the constructor makes of the storage, the hard state and the apply index.
* `bootstrapEntries_numbered` — the log that a new cluster starts with.
-/

namespace RaftKv

/-! ## The constructor -/

namespace Raft

open Outcome

variable {r r' : Raft} {c : Config}

lemma initLearner_frame {learner : Nat} (h : r.initLearner learner = Except.ok r') :
    r' = { r with learnerPrs := r'.learnerPrs, isLearner := r'.isLearner } := by
  rw [initLearner] at h
  split at h
  · cases h
  · cases h
    rfl

/-- The stored hard state is loaded, unless it is empty; its commit index lies within the log. -/
lemma restoreState_eq_ok {state : HardState} (h : r.restoreState state = Except.ok r') :
    r'.maxUncommittedSize = r.maxUncommittedSize ∧
    ∃ committed, r'.raftLog = { r.raftLog with committed := committed } ∧
      r.raftLog.committed ≤ committed ∧ state.commit ≤ committed ∧
      (committed = r.raftLog.committed ∨ committed ≤ r.raftLog.lastIndex) := by
  rw [restoreState] at h
  split at h
  · rename_i hempty
    cases h
    refine ⟨rfl, _, rfl, Nat.le_refl _, ?_, Or.inl rfl⟩
    simp only [HardState.isEmptyState, Bool.and_eq_true, beq_iff_eq] at hempty
    rw [hempty.2]
    exact Nat.zero_le _
  · rw [loadState] at h
    split at h
    · cases h
    · rename_i hrange
      cases h
      exact ⟨rfl, _, rfl, by omega, Nat.le_refl _, by omega⟩

/-- **The constructor**: the log is the storage's, with the stored commit index and the configured
apply index. -/
theorem init_eq_ok (h : init c = Except.ok r) :
    r.state = RaftState.follower ∧ r.maxUncommittedSize = c.maxUncommittedEntriesSize ∧
    r.uncommittedSize = 0 ∧
    ∃ committed, c.storage.front.index ≤ committed ∧ committed ≤ c.storage.lastIndex ∧
      c.storage.hardState.commit ≤ committed ∧
      r.raftLog = { RaftLog.init c.storage c.maxCommittedSizePerReady with
        committed := committed
        applied := if c.applied > 0 then c.applied else c.storage.front.index } := by
  have hlast := RaftLog.storage_lastIndex c.storage
  have hlen := List.length_pos_iff.mpr c.storage.nonempty
  simp only [init] at h
  split at h
  · cases h
  obtain ⟨r₁, hlearners, h⟩ := Outcome.bind_eq_ok.mp h
  obtain ⟨r₂, hstate, h⟩ := Outcome.bind_eq_ok.mp h
  have h₁ : r₁.raftLog = RaftLog.init c.storage c.maxCommittedSizePerReady ∧
      r₁.maxUncommittedSize = c.maxUncommittedEntriesSize := by
    refine Outcome.foldlM_induct (P := fun s =>
        s.raftLog = RaftLog.init c.storage c.maxCommittedSizePerReady ∧
        s.maxUncommittedSize = c.maxUncommittedEntriesSize)
      (fun s s' learner _ hs hround => ?_) ⟨rfl, rfl⟩ hlearners
    rw [initLearner_frame hround]
    exact hs
  obtain ⟨hmax, committed, hlog, hlow, hcommit, hhigh⟩ := restoreState_eq_ok hstate
  have hr := becomeFollower_eq_ok h
  have hfront : (RaftLog.init c.storage c.maxCommittedSizePerReady).committed =
      c.storage.front.index := rfl
  have hend : (RaftLog.init c.storage c.maxCommittedSizePerReady).lastIndex =
      c.storage.lastIndex := rfl
  rw [h₁.1, hfront] at hlow hhigh
  rw [hend] at hhigh
  refine ⟨by rw [hr], ?_, by rw [hr]; rfl, committed, hlow, by omega, hcommit, ?_⟩
  · rw [hr]
    split <;> exact hmax.trans h₁.2
  · rw [hr]
    split
    · rename_i hpos
      show RaftLog.appliedTo r₂.raftLog c.applied = _
      rw [hlog, h₁.1, RaftLog.appliedTo, if_neg (Nat.ne_of_gt hpos)]
    · show r₂.raftLog = _
      rw [hlog, h₁.1]
      rfl

/-- **The constructor**: term and vote are those of the stored hard state, and no message is
queued. -/
theorem init_hardState (h : init c = Except.ok r) :
    r.term = c.storage.hardState.term ∧ r.vote = c.storage.hardState.vote ∧ r.msgs = [] ∧
      r.id = c.id := by
  simp only [init] at h
  split at h
  · cases h
  obtain ⟨r₁, hlearners, h⟩ := Outcome.bind_eq_ok.mp h
  obtain ⟨r₂, hstate, h⟩ := Outcome.bind_eq_ok.mp h
  have h₁ : r₁.term = 0 ∧ r₁.vote = 0 ∧ r₁.msgs = [] ∧ r₁.id = c.id := by
    refine Outcome.foldlM_induct (P := fun s : Raft =>
        s.term = 0 ∧ s.vote = 0 ∧ s.msgs = [] ∧ s.id = c.id)
      (fun s s' learner _ hs hround => ?_) ⟨rfl, rfl, rfl, rfl⟩ hlearners
    rw [initLearner_frame hround]
    exact hs
  have h₂ : r₂.term = c.storage.hardState.term ∧ r₂.vote = c.storage.hardState.vote ∧
      r₂.msgs = [] ∧ r₂.id = c.id := by
    rw [restoreState] at hstate
    split at hstate
    · rename_i hempty
      cases hstate
      simp only [MemoryStorage.initialState, HardState.isEmptyState, Bool.and_eq_true,
        beq_iff_eq] at hempty
      rw [hempty.1.1, hempty.1.2]
      exact h₁
    · rw [loadState] at hstate
      split at hstate
      · cases hstate
      · cases hstate
        exact ⟨rfl, rfl, h₁.2.2⟩
  have hr := becomeFollower_eq_ok h
  rw [hr]
  split
  · refine ⟨h₂.1, ?_, h₂.2.2⟩
    show (if _ then _ else r₂.vote) = _
    rw [if_neg (not_not_intro rfl), h₂.2.1]
  · refine ⟨h₂.1, ?_, h₂.2.2⟩
    show (if _ then _ else r₂.vote) = _
    rw [if_neg (not_not_intro rfl), h₂.2.1]

theorem keys_foldl_insert (p : Progress) : ∀ (ids : List Nat) (m : IdMap Progress) (a : Nat),
    a ∈ (ids.foldl (fun prs peer => prs.insert peer p) m).keys ↔ a ∈ ids ∨ a ∈ m.keys
  | [], m, a => by simp
  | id :: ids, m, a => by
      rw [List.foldl_cons, keys_foldl_insert p ids, ← AList.mem_keys, AList.mem_insert,
        AList.mem_keys, List.mem_cons]
      tauto

/-! ### The constructor returns -/

lemma initLearners_returns {learners : List Nat} (h : ∀ id ∈ learners, id ∉ r.prs) :
    ∃ r', learners.foldlM initLearner r = Except.ok r' ∧
      r' = { r with learnerPrs := r'.learnerPrs, isLearner := r'.isLearner } := by
  induction learners generalizing r with
  | nil => exact ⟨r, rfl, rfl⟩
  | cons id learners ih =>
      obtain ⟨hid, hrest⟩ := List.forall_mem_cons.mp h
      obtain ⟨r₁, hr₁⟩ : ∃ r₁, r.initLearner id = Except.ok r₁ := by
        rw [initLearner, if_neg hid]
        exact ⟨_, rfl⟩
      have hframe := initLearner_frame hr₁
      obtain ⟨r', hfold, hframe'⟩ := @ih r₁ (by rw [hframe]; exact hrest)
      refine ⟨r', ?_, ?_⟩
      · rw [List.foldlM_cons, hr₁]
        exact hfold
      · rw [hframe', hframe]

/-- The random timeout is at most twice the fixed one. -/
lemma becomeFollower_returns (h : r.randomDevice.max ≤ r.electionTimeout) (term lead : Nat) :
    r.becomeFollower term lead =
      Except.ok { r.resetTo term with lead := lead, state := RaftState.follower } := by
  have hdraw : r.randomDevice.gen.1 ≤ r.randomDevice.max :=
    Nat.le_of_lt_succ (Nat.mod_lt _ (Nat.succ_pos _))
  have htimeout : (r.resetTo term).randomizedElectionTimeout ≤ 2 * r.electionTimeout := by
    show r.electionTimeout + r.randomDevice.gen.1 ≤ _
    omega
  rw [becomeFollower, reset, if_neg (not_not_intro htimeout)]
  rfl

/-- What the constructor ends with. -/
lemma restored_returns {learners : List Nat} {hs : HardState} (hapart : ∀ id ∈ learners, id ∉ r.prs)
    (hdevice : r.randomDevice.max ≤ r.electionTimeout)
    (hcommit : hs.isEmptyState = true ∨
      (r.raftLog.committed ≤ hs.commit ∧ hs.commit ≤ r.raftLog.lastIndex)) :
    ∃ r', (do
      let r ← learners.foldlM initLearner r
      let r ← r.restoreState hs
      r.becomeFollower r.term 0) = Except.ok r' ∧ r'.randomDevice.max ≤ r'.electionTimeout := by
  obtain ⟨r₁, hr₁, hframe⟩ := initLearners_returns hapart
  have hlog : r₁.raftLog = r.raftLog := by rw [hframe]
  have hdevice₁ : r₁.randomDevice.max ≤ r₁.electionTimeout := by
    rw [hframe]
    exact hdevice
  have hrestore : ∃ r₂, r₁.restoreState hs = Except.ok r₂ ∧
      r₂.randomDevice.max ≤ r₂.electionTimeout := by
    rw [restoreState]
    split
    · exact ⟨r₁, rfl, hdevice₁⟩
    · rename_i hsome
      obtain ⟨hlow, hhigh⟩ := hcommit.resolve_left hsome
      rw [loadState, hlog, if_neg (by omega)]
      exact ⟨_, rfl, hdevice₁⟩
  obtain ⟨r₂, hr₂, hdevice₂⟩ := hrestore
  exact ⟨_, bind_eq_ok.mpr ⟨r₁, hr₁, bind_eq_ok.mpr ⟨r₂, hr₂, becomeFollower_returns hdevice₂ _ _⟩⟩,
    hdevice₂⟩

/-- A hard state outside the log is fatal. -/
lemma restored_fatal {learners : List Nat} {hs : HardState} (hapart : ∀ id ∈ learners, id ∉ r.prs)
    (hsome : hs.isEmptyState = false)
    (hcommit : hs.commit < r.raftLog.committed ∨ r.raftLog.lastIndex < hs.commit) :
    (do
      let r ← learners.foldlM initLearner r
      let r ← r.restoreState hs
      r.becomeFollower r.term 0) = Except.error (Crash.fatal
        (s!"{r.id} state.commit {hs.commit} is out of range " ++
          s!"[{r.raftLog.committed}, {r.raftLog.lastIndex}]")) := by
  obtain ⟨r₁, hr₁, hframe⟩ := initLearners_returns hapart
  have hlog : r₁.raftLog = r.raftLog := by rw [hframe]
  have hid : r₁.id = r.id := by rw [hframe]
  rw [hr₁]
  show (r₁.restoreState hs >>= fun r => r.becomeFollower r.term 0) = _
  rw [restoreState, hsome, if_neg Bool.false_ne_true, loadState, hlog, if_pos hcommit, hid]
  rfl

/-- Without peers in its configuration, a node is set up from the storage alone. -/
lemma init_eq (hpeers : c.peers = []) (hlearners : c.learners = []) (happlied : c.applied = 0)
    (hapart : ∀ id ∈ c.storage.snapshot.metadata.confState.learners,
      id ∉ c.storage.snapshot.metadata.confState.nodes) :
    ∃ r₀ : Raft, r₀.id = c.id ∧
      r₀.raftLog = RaftLog.init c.storage c.maxCommittedSizePerReady ∧
      r₀.randomDevice.max ≤ r₀.electionTimeout ∧
      (∀ id ∈ c.storage.snapshot.metadata.confState.learners, id ∉ r₀.prs) ∧
      init c = (do
        let r ← c.storage.snapshot.metadata.confState.learners.foldlM initLearner r₀
        let r ← r.restoreState c.storage.hardState
        r.becomeFollower r.term 0) := by
  have hempty : ∀ (p : Prop) [Decidable p] (xs : List Nat), (¬ p → xs = []) →
      (if p then xs else []) = xs := by
    intro p _ xs hxs
    split
    · rfl
    · rename_i hp
      exact (hxs hp).symm
  simp only [init, MemoryStorage.initialState, hpeers, hlearners, happlied, ne_eq,
    not_true_eq_false, or_self, and_false, if_false, lt_irrefl]
  rw [hempty _ _ fun h => not_not.mp fun hne => h (Or.inl hne),
    hempty _ _ fun h => not_not.mp fun hne => h (Or.inr hne)]
  refine ⟨_, ?_, ?_, ?_, ?_, rfl⟩
  · rfl
  · rfl
  · exact le_rfl
  · intro id hid hmem
    have hkeys := (keys_foldl_insert _ _ _ _).mp (AList.mem_keys.mp hmem)
    exact hapart id hid (hkeys.resolve_right List.not_mem_nil)

/-- **The constructor returns** for a storage whose hard state lies within its log, and whose
snapshot keeps voters and learners apart. -/
theorem init_returns (hpeers : c.peers = []) (hlearners : c.learners = []) (happlied : c.applied = 0)
    (hapart : ∀ id ∈ c.storage.snapshot.metadata.confState.learners,
      id ∉ c.storage.snapshot.metadata.confState.nodes)
    (hcommit : c.storage.hardState.isEmptyState = true ∨
      (c.storage.front.index ≤ c.storage.hardState.commit ∧
        c.storage.hardState.commit ≤ c.storage.lastIndex)) :
    ∃ r, init c = Except.ok r ∧ r.randomDevice.max ≤ r.electionTimeout := by
  obtain ⟨r₀, -, hlog, hdevice, hlearners', hinit⟩ := init_eq hpeers hlearners happlied hapart
  rw [hinit]
  refine restored_returns hlearners' hdevice ?_
  rw [hlog]
  exact hcommit

/-- **The constructor ends the process** if the hard state lies outside the log of the storage. -/
theorem init_fatal (hpeers : c.peers = []) (hlearners : c.learners = []) (happlied : c.applied = 0)
    (hapart : ∀ id ∈ c.storage.snapshot.metadata.confState.learners,
      id ∉ c.storage.snapshot.metadata.confState.nodes)
    (hsome : c.storage.hardState.isEmptyState = false)
    (hcommit : c.storage.hardState.commit < c.storage.front.index ∨
      c.storage.lastIndex < c.storage.hardState.commit) :
    init c = Except.error (Crash.fatal
      (s!"{c.id} state.commit {c.storage.hardState.commit} is out of range " ++
        s!"[{c.storage.front.index}, {c.storage.lastIndex}]")) := by
  obtain ⟨r₀, hid, hlog, -, hlearners', hinit⟩ := init_eq hpeers hlearners happlied hapart
  have hlast : r₀.raftLog.lastIndex = c.storage.lastIndex := by
    rw [hlog]
    rfl
  have hfront : r₀.raftLog.committed = c.storage.front.index := by
    rw [hlog]
    rfl
  rw [← hlast, ← hfront] at hcommit
  rw [hinit, restored_fatal hlearners' hsome hcommit, hid, hlast, hfront]

/-- **The constructor**: what is committed is what the stored hard state says. -/
theorem init_committed (h : init c = Except.ok r) (happlied : c.applied = 0) :
    r.raftLog.committed = if c.storage.hardState.isEmptyState then c.storage.front.index
      else c.storage.hardState.commit := by
  simp only [init, happlied, lt_irrefl, if_false] at h
  split at h
  · cases h
  obtain ⟨r₁, hlearners, h⟩ := Outcome.bind_eq_ok.mp h
  obtain ⟨r₂, hstate, h⟩ := Outcome.bind_eq_ok.mp h
  have h₁ : r₁.raftLog = RaftLog.init c.storage c.maxCommittedSizePerReady := by
    refine Outcome.foldlM_induct (P := fun s : Raft =>
        s.raftLog = RaftLog.init c.storage c.maxCommittedSizePerReady)
      (fun s s' learner _ hs hround => ?_) rfl hlearners
    rw [initLearner_frame hround]
    exact hs
  have hlog : r.raftLog = r₂.raftLog := by rw [becomeFollower_eq_ok h]; rfl
  have hfront : (RaftLog.init c.storage c.maxCommittedSizePerReady).committed =
      c.storage.front.index := rfl
  rw [hlog]
  rw [restoreState] at hstate
  split at hstate
  · rename_i hempty
    cases hstate
    rw [h₁, hfront]
    exact (if_pos hempty).symm
  · rename_i hsome
    rw [loadState] at hstate
    split at hstate
    · cases hstate
    · cases hstate
      exact (if_neg hsome).symm

end Raft

/-! ## The bootstrap entries -/

theorem bootstrapEntries_length (pack : ConfChange → Bytes) : ∀ (index : Nat)
    (peers : List PeerContext), (RawNode.bootstrapEntries pack index peers).length = peers.length
  | _, [] => rfl
  | index, _ :: peers => by
      simp [RawNode.bootstrapEntries, bootstrapEntries_length pack (index + 1) peers]

theorem bootstrapEntries_numbered (pack : ConfChange → Bytes) : ∀ (index : Nat)
    (peers : List PeerContext), Numbered index (RawNode.bootstrapEntries pack index peers)
  | index, [] => Numbered.nil index
  | index, _ :: peers => Numbered.cons rfl (bootstrapEntries_numbered pack (index + 1) peers)

theorem bootstrapEntries_term (pack : ConfChange → Bytes) : ∀ (index : Nat)
    (peers : List PeerContext), ∀ e ∈ RawNode.bootstrapEntries pack index peers, e.term = 1
  | _, [], e, he => by cases he
  | index, _ :: peers, e, he => by
      rcases List.mem_cons.mp he with rfl | he
      · rfl
      · exact bootstrapEntries_term pack (index + 1) peers e he

end RaftKv
