import RaftKv.Cluster.Cluster
import RaftKv.Raft.Bootstrap
import RaftKv.Safety.Step

/-!
# The start of a cluster

* `ClusterConf.membership` — what the nodes of a cluster have in common.
* `start_sim` — **a node that has just been started simulates the initial abstract world**.
-/

namespace RaftKv

open Replication

/-! ## The bootstrap entries -/

/-- Every bootstrap entry is of term 1 and adds a peer. -/
theorem mem_bootstrapEntries (pack : ConfChange → Bytes) : ∀ (index : Nat)
    (peers : List PeerContext), ∀ e ∈ RawNode.bootstrapEntries pack index peers,
      e.term = 1 ∧ ∃ peer ∈ peers, e.data = pack peer.confChange
  | _, [], e, he => by simp [RawNode.bootstrapEntries] at he
  | index, peer :: peers, e, he => by
      rw [RawNode.bootstrapEntries, List.mem_cons] at he
      rcases he with rfl | he
      · exact ⟨rfl, peer, List.mem_cons_self .., rfl⟩
      · obtain ⟨ht, p, hp, hdata⟩ := mem_bootstrapEntries pack (index + 1) peers e he
        exact ⟨ht, p, List.mem_cons_of_mem _ hp, hdata⟩

namespace ClusterConf

def voters (C : ClusterConf) : Finset Nat := (C.peers.map PeerContext.id).toFinset

def membership (C : ClusterConf) : Membership where
  voters := C.voters
  nonempty := by
    rw [voters, List.toFinset_nonempty_iff]
    simpa using C.peers_nonempty
  boot := RawNode.bootstrapEntries C.codec.pack 1 C.peers
  boot_term e he := (mem_bootstrapEntries _ _ _ e he).1
  boot_numbered := bootstrapEntries_numbered _ _ _
  preVote := ∃ i, (C.conf i).preVote = true

end ClusterConf

/-! ## Entering nodes -/

namespace Raft

variable {r r' : Raft}

/-- What a node consists of before anything has happened to it. -/
structure Blank (c : Config) (r : Raft) : Prop where
  id : r.id = c.id
  term : r.term = 0
  vote : r.vote = 0
  raftLog : r.raftLog = RaftLog.init c.storage c.maxCommittedSizePerReady
  prs : ∀ a, a ∈ r.prs.keys ↔ a ∈ c.peers
  learners : ∀ a p, r.learnerPrs.lookup a = some p → p.isLearner = true
  msgs : r.msgs = []
  preVote : r.preVote = c.preVote

theorem initLearner_blank {c : Config} {learner : Nat} (h : Blank c r)
    (hok : r.initLearner learner = Except.ok r') : Blank c r' := by
  rw [initLearner] at hok
  split at hok
  · cases hok
  · obtain rfl := Outcome.pure_eq_ok.mp hok
    refine ⟨h.id, h.term, h.vote, h.raftLog, h.prs, fun a p hp => ?_, h.msgs, h.preVote⟩
    by_cases ha : a = learner
    · subst ha
      rw [AList.lookup_insert, Option.some.injEq] at hp
      rw [← hp]
    · rw [AList.lookup_insert_ne ha] at hp
      exact h.learners a p hp

/-- The constructor, for an empty storage. -/
theorem init_blank {c : Config} (hstorage : c.storage = {}) (happlied : c.applied = 0)
    (hok : init c = Except.ok r) :
    Blank c r ∧ r.state = RaftState.follower := by
  simp only [init, hstorage, happlied, MemoryStorage.initialState] at hok
  rw [if_neg (by simp)] at hok
  obtain ⟨r₁, hlearners, hok⟩ := Outcome.bind_eq_ok.mp hok
  obtain ⟨r₂, hstate, hok⟩ := Outcome.bind_eq_ok.mp hok
  have h₁ : Blank c r₁ := by
    refine Outcome.foldlM_induct (P := Blank c)
      (fun s s' learner _ hs hround => initLearner_blank hs hround) ?_ hlearners
    refine ⟨rfl, rfl, rfl, by rw [hstorage], fun a => ?_, fun a p hp => by simp at hp, rfl, rfl⟩
    simp [keys_foldl_insert]
  have h₂ : r₁ = r₂ := by
    rw [restoreState, if_pos (by decide)] at hstate
    exact Outcome.pure_eq_ok.mp hstate
  subst h₂
  rw [if_neg (by simp)] at hok
  have hr := becomeFollower_eq_ok hok
  refine ⟨?_, by rw [hr]⟩
  rw [hr]
  refine ⟨h₁.id, h₁.term, ?_, h₁.raftLog, ?_, fun a p hp => ?_, h₁.msgs, h₁.preVote⟩
  · simp [resetTo, h₁.vote]
  · simpa [resetTo] using h₁.prs
  · simp only [resetTo, IdMap.lookup_mapWithKey] at hp
    obtain ⟨q, hq, rfl⟩ := Option.map_eq_some_iff.mp hp
    exact h₁.learners a q hq

/-- What entering a voter changes. -/
structure Entered (id : Nat) (r r' : Raft) : Prop where
  frame : r' = { r with prs := r'.prs, learnerPrs := r'.learnerPrs, isLearner := r'.isLearner }
  prs : ∀ a, a ∈ r'.prs.keys ↔ a = id ∨ a ∈ r.prs.keys
  learners : ∀ a p, r'.learnerPrs.lookup a = some p → p.isLearner = true

theorem lookup_erase {m : IdMap Progress} {id a : Nat} {p : Progress}
    (h : (m.erase id).lookup a = some p) : m.lookup a = some p := by
  by_cases ha : a = id
  · subst ha
    rw [AList.lookup_erase] at h
    cases h
  · rwa [AList.lookup_erase_ne ha] at h

/-- What both ways of entering a node end with. -/
theorem added_eq_ok {id : Nat} {isLearner : Bool}
    (hok : addNodeOrLearner.added id isLearner r = Except.ok r') :
    ∃ p, r.getProgress id = some p ∧
      r' = ({ r with isLearner := if r.id = id then isLearner else r.isLearner }).modifyProgress id
        fun p => { p with recentActive := true } := by
  simp only [addNodeOrLearner.added] at hok
  split at hok
  · cases hok
  · rename_i p hp
    exact ⟨p, hp, (Outcome.pure_eq_ok.mp hok).symm⟩

theorem added_entered {id : Nat} (hlearners : ∀ a p, r.learnerPrs.lookup a = some p →
      p.isLearner = true) (hid : id ∈ r.prs)
    (hok : addNodeOrLearner.added id false r = Except.ok r') : Entered id r r' := by
  obtain ⟨-, -, rfl⟩ := added_eq_ok hok
  refine ⟨rfl, fun a => ?_, fun a p hp => ?_⟩
  · simp only [modifyProgress, IdMap.keys_modify]
    refine ⟨Or.inr, ?_⟩
    rintro (rfl | ha)
    · exact AList.mem_keys.mp hid
    · exact ha
  · simp only [modifyProgress, hid, if_true] at hp
    exact hlearners a p hp

theorem addNode_entered {id : Nat} (hlearners : ∀ a p, r.learnerPrs.lookup a = some p →
      p.isLearner = true) (hok : r.addNode id = Except.ok r') : Entered id r r' := by
  rw [addNode, addNodeOrLearner] at hok
  have hinserted : ∀ {s : Raft} {p : Progress},
      s = { r with learnerPrs := r.learnerPrs.erase id, prs := r.prs.insert id p } →
      addNodeOrLearner.added id false s = Except.ok r' → Entered id r r' := by
    rintro s p rfl hs
    have h := added_entered (fun a q hq => hlearners a q (lookup_erase hq))
      ((AList.mem_insert r.prs).mpr (Or.inl rfl)) hs
    refine ⟨h.frame, fun a => ?_, h.learners⟩
    rw [h.prs a, ← AList.mem_keys, AList.mem_insert, AList.mem_keys]
    tauto
  split at hok
  · obtain ⟨r₁, hset, hok⟩ := Outcome.bind_eq_ok.mp hok
    exact hinserted (Outcome.pure_eq_ok.mp hset).symm hok
  · rename_i pr hpr
    rw [if_neg (by simp)] at hok
    split at hok
    · rename_i hvoter
      obtain rfl := Outcome.pure_eq_ok.mp hok
      refine ⟨rfl, fun a => ⟨Or.inr, ?_⟩, hlearners⟩
      rintro (rfl | ha)
      · -- the node is known, and not as a learner
        by_contra hnot
        have hnone : r.prs.lookup a = none := AList.lookup_eq_none.mpr hnot
        simp only [getProgress, hnone] at hpr
        have := hlearners a pr hpr
        rw [this] at hvoter
        cases hvoter
      · exact ha
    · exact hinserted rfl hok

/-- Entering a voter again changes nothing that matters. -/
theorem addNodeOrLearner_member {id : Nat} (hid : id ∈ r.prs)
    (hok : r.addNodeOrLearner id false = Except.ok r') :
    r' = { r with prs := r'.prs, learnerPrs := r'.learnerPrs, isLearner := r'.isLearner } ∧
      (∀ a, a ∈ r'.prs.keys ↔ a ∈ r.prs.keys) ∧
      ∀ a p', r'.getProgress a = some p' → ∃ p, r.getProgress a = some p ∧
        p'.matched = p.matched ∧ p'.next = p.next ∧ p'.state = p.state := by
  obtain ⟨q, hq⟩ := Option.isSome_iff_exists.mp (AList.lookup_isSome.mpr hid)
  have hget : r.getProgress id = some q := by simp [getProgress, hq]
  rw [addNodeOrLearner, hget] at hok
  dsimp only at hok
  rw [if_neg (by simp)] at hok
  split at hok
  · obtain rfl := Outcome.pure_eq_ok.mp hok
    exact ⟨rfl, fun a => Iff.rfl, fun a p' hp' => ⟨p', hp', rfl, rfl, rfl⟩⟩
  · obtain ⟨-, -, rfl⟩ := added_eq_ok hok
    refine ⟨rfl, fun a => ?_, fun a p' hp' => ?_⟩
    · simp only [modifyProgress, IdMap.keys_modify]
      rw [← AList.mem_keys, AList.mem_insert, AList.mem_keys]
      refine ⟨?_, Or.inr⟩
      rintro (rfl | ha)
      · exact AList.mem_keys.mp hid
      · exact ha
    · have hinsert : ∀ p, (getProgress { r with
          learnerPrs := r.learnerPrs.erase id
          prs := r.prs.insert id { q with isLearner := false }
          isLearner := if r.id = id then false else r.isLearner } a = some p) →
          ∃ p₀, r.getProgress a = some p₀ ∧ p.matched = p₀.matched ∧ p.next = p₀.next ∧
            p.state = p₀.state := by
        intro p hp
        by_cases ha : a = id
        · subst ha
          simp only [getProgress, AList.lookup_insert, Option.some.injEq] at hp
          exact ⟨q, hget, by rw [← hp], by rw [← hp], by rw [← hp]⟩
        · simp only [getProgress, AList.lookup_insert_ne ha, AList.lookup_erase_ne ha] at hp
          exact ⟨p, hp, rfl, rfl, rfl⟩
      rw [getProgress_modifyProgress] at hp'
      split at hp'
      · obtain ⟨p, hp, rfl⟩ := Option.map_eq_some_iff.mp hp'
        exact hinsert p hp
      · exact hinsert p' hp'

end Raft

/-! ## Starting -/

theorem uncompacted_init (maxNextEntsSize : Nat) :
    Uncompacted (RaftLog.init {} maxNextEntsSize) ∧
      (RaftLog.init {} maxNextEntsSize).logical = [] := by
  refine ⟨⟨⟨?_, ?_, ?_, ?_⟩, rfl, rfl, rfl, rfl⟩, rfl⟩
  · exact Numbered.cons rfl (Numbered.nil _)
  · exact Numbered.nil _
  · exact fun _ => ⟨Nat.le_refl 1, Nat.le_refl 1, fun _ => rfl⟩
  · exact fun s hs => by cases hs

variable {C : ClusterConf} {i : Nat} {n : RawNode}

/-- **A node that has just been started simulates the initial abstract world.** -/
theorem start_sim (hi : i ≠ 0)
    (hok : RawNode.start C.codec.pack (C.conf i) C.peers = Except.ok n) :
    Sim C.membership (World.init C.membership.setting) i n.raft := by
  obtain ⟨r₀, hinit, hok⟩ := Outcome.bind_eq_ok.mp hok
  obtain ⟨r, hboot, hok⟩ := Outcome.bind_eq_ok.mp hok
  obtain rfl := Outcome.pure_eq_ok.mp hok
  dsimp only
  obtain ⟨hblank, -⟩ := Raft.init_blank (C.conf_storage i) (C.conf_applied i) hinit
  rw [RawNode.bootstrapIfNew, C.conf_storage, if_pos (by decide)] at hboot
  obtain ⟨r₁, hfollow, hboot⟩ := Outcome.bind_eq_ok.mp hboot
  obtain ⟨⟨l, last⟩, happend, hboot⟩ := Outcome.bind_eq_ok.mp hboot
  dsimp only at hboot
  have hr₁ := Raft.becomeFollower_eq_ok hfollow
  have hlog₁ : r₁.raftLog = RaftLog.init {} (C.conf i).maxCommittedSizePerReady := by
    rw [hr₁, ← C.conf_storage i]
    exact hblank.raftLog
  rw [hlog₁] at happend
  obtain ⟨hu₀, hnil⟩ := uncompacted_init (C.conf i).maxCommittedSizePerReady
  obtain ⟨hu, -, hlogical, -⟩ :=
    hu₀.append_end (by rw [hnil]; exact bootstrapEntries_numbered _ _ _) happend
  rw [hnil, List.nil_append] at hlogical
  have hcommitted := @Uncompacted.congr l
    { l with committed := (RawNode.bootstrapEntries C.codec.pack 1 C.peers).length } hu rfl rfl
  -- the peers are entered one by one
  set r₂ : Raft := { r₁ with
    raftLog := { l with
      committed := (RawNode.bootstrapEntries C.codec.pack 1 C.peers).length } } with hr₂
  have hentered : ∀ (peers : List PeerContext) (s : Raft),
      (∀ a p, s.learnerPrs.lookup a = some p → p.isLearner = true) →
      peers.foldlM (fun r peer => r.addNode peer.id) s = Except.ok r →
      r = { s with prs := r.prs, learnerPrs := r.learnerPrs, isLearner := r.isLearner } ∧
        ∀ a, a ∈ r.prs.keys ↔ a ∈ peers.map PeerContext.id ∨ a ∈ s.prs.keys := by
    intro peers
    induction peers with
    | nil =>
        intro s _ hs
        obtain rfl := Outcome.pure_eq_ok.mp hs
        exact ⟨rfl, fun a => by simp⟩
    | cons peer peers ih =>
        intro s hlearners hs
        rw [List.foldlM_cons] at hs
        obtain ⟨s₁, hs₁, hs⟩ := Outcome.bind_eq_ok.mp hs
        have hadd := Raft.addNode_entered hlearners hs₁
        obtain ⟨hframe, hkeys⟩ := ih s₁ hadd.learners hs
        refine ⟨?_, fun a => ?_⟩
        · rw [hadd.frame] at hframe
          exact hframe
        · rw [hkeys a, hadd.prs a, List.map_cons, List.mem_cons]
          tauto
  have hlearners : ∀ a p, r₂.learnerPrs.lookup a = some p → p.isLearner = true := by
    intro a p hp
    rw [hr₂, hr₁] at hp
    simp only [Raft.resetTo, IdMap.lookup_mapWithKey] at hp
    obtain ⟨q, hq, rfl⟩ := Option.map_eq_some_iff.mp hp
    exact hblank.learners a q hq
  obtain ⟨hframe, hkeys⟩ := hentered C.peers r₂ hlearners hboot
  have hkeys₂ : ∀ a, a ∈ r₂.prs.keys ↔ a ∈ (C.conf i).peers := by
    intro a
    rw [← hblank.prs a, hr₂, hr₁]
    simp [Raft.resetTo]
  have hid : r.id = i := by
    rw [hframe, hr₂, hr₁]
    exact hblank.id.trans (C.conf_id i)
  have hterm : r.term = 1 := by rw [hframe, hr₂, hr₁]; rfl
  have hvote : r.vote = 0 := by rw [hframe, hr₂, hr₁]; simp [Raft.resetTo, hblank.term]
  have hstate : r.state = RaftState.follower := by rw [hframe, hr₂, hr₁]
  have hmsgs : r.msgs = [] := by rw [hframe, hr₂, hr₁]; exact hblank.msgs
  have hpre : r.preVote = (C.conf i).preVote := by rw [hframe, hr₂, hr₁]; exact hblank.preVote
  have hlog : r.raftLog = r₂.raftLog := by rw [hframe]
  exact {
    nonzero := hi
    id := hid
    term := by rw [hterm]; rfl
    uncompacted := hlog ▸ hcommitted.1
    log := by rw [hlog]; exact (hcommitted.2.trans hlogical).symm
    commit := by rw [hlog]; rfl
    voters := by
      ext a
      rw [List.mem_toFinset, hkeys a, hkeys₂ a]
      simp only [ClusterConf.membership, ClusterConf.voters, List.mem_toFinset]
      exact ⟨fun h => h.elim (fun h => h) (C.conf_peers i a), Or.inl⟩
    voted := fun hv => absurd hvote hv
    unvoted := fun _ => rfl
    candidate := fun hs => by rw [hstate] at hs; cases hs
    leader := fun hs => by rw [hstate] at hs; cases hs
    preVote := fun hp => ⟨i, hpre ▸ hp⟩
    msgs := fun m hm => by rw [hmsgs] at hm; cases hm
    numbered := fun t => by
      simp only [World.init]
      split
      · exact bootstrapEntries_numbered _ _ _
      · exact Numbered.nil _
    plain := fun t e he => by
      simp only [World.init] at he
      split at he
      · exact fun _ => he
      · cases he }

end RaftKv
