import RaftKv.Leader.Work
import RaftKv.Raft.Calls

/-!
# The members of a node

`prs_` holds the voters and `learner_prs_` the learners; each progress is marked as what it is.

* `Raft.Membership` — the two maps share no member, and every mark fits its map.
* `Raft.roster` — what that depends on: only the constructor, a snapshot and a configuration change
  touch it (`Deed.roster`).
* `Raft.init_membership`, `Raft.step_membership`, `Raft.changeMembers_membership` — **who keeps it**.
-/

namespace RaftKv

namespace Raft

/-- Voters and learners are apart, and every progress is marked as what it is. -/
structure Membership (r : Raft) : Prop where
  disjoint : ∀ id ∈ r.prs, id ∉ r.learnerPrs
  voters : ∀ id p, r.prs.lookup id = some p → p.isLearner = false
  learners : ∀ id p, r.learnerPrs.lookup id = some p → p.isLearner = true

/-- What either map says about an id. -/
def roster (r : Raft) (id : Nat) : Option Bool × Option Bool :=
  ((r.prs.lookup id).map Progress.isLearner, (r.learnerPrs.lookup id).map Progress.isLearner)

variable {r r' : Raft} {m : Message}

/-- An id is a voter marked as one, a learner marked as one, or unknown. -/
theorem membership_iff : r.Membership ↔ ∀ id, r.roster id = (none, none) ∨
    r.roster id = (some false, none) ∨ r.roster id = (none, some true) := by
  constructor
  · intro h id
    rcases hv : r.prs.lookup id with _ | p
    · rcases hl : r.learnerPrs.lookup id with _ | q
      · simp [roster, hv, hl]
      · simp [roster, hv, hl, h.learners id q hl]
    · have hnone : r.learnerPrs.lookup id = none := by
        rw [AList.lookup_eq_none]
        exact h.disjoint id (AList.lookup_isSome.mp (by rw [hv]; rfl))
      simp [roster, hv, hnone, h.voters id p hv]
  · intro h
    refine ⟨fun id hv hl => ?_, fun id p hp => ?_, fun id p hp => ?_⟩
    · obtain ⟨p, hp⟩ := Option.isSome_iff_exists.mp (AList.lookup_isSome.mpr hv)
      obtain ⟨q, hq⟩ := Option.isSome_iff_exists.mp (AList.lookup_isSome.mpr hl)
      simpa [roster, hp, hq] using h id
    · have := h id
      simp only [roster, hp, Option.map_some, Prod.mk.injEq, reduceCtorEq, false_and, false_or,
        or_false, Option.some.injEq] at this
      exact this.1
    · have := h id
      simp only [roster, hp, Option.map_some, Prod.mk.injEq, reduceCtorEq, and_false, false_or,
        Option.some.injEq] at this
      exact this.2

theorem Membership.congr (h : r.Membership) (hroster : r'.roster = r.roster) : r'.Membership := by
  rw [membership_iff] at h ⊢
  rw [hroster]
  exact h

/-! ## What leaves the roster alone -/

lemma roster_congr (hprs : r'.prs = r.prs) (hlearners : r'.learnerPrs = r.learnerPrs) :
    r'.roster = r.roster := by
  funext id
  rw [roster, roster, hprs, hlearners]

lemma lookup_modify_map {k : Nat} {f : Progress → Progress} {prs : IdMap Progress}
    (hf : ∀ p, prs.lookup k = some p → (f p).isLearner = p.isLearner) (id : Nat) :
    ((prs.modify k f).lookup id).map Progress.isLearner =
      (prs.lookup id).map Progress.isLearner := by
  by_cases hid : id = k
  · subst hid
    rw [IdMap.lookup_modify_self]
    rcases hp : prs.lookup id with _ | p
    · rfl
    · simp [hf p hp]
  · rw [IdMap.lookup_modify_of_ne hid]

lemma roster_modifyProgress {k : Nat} {f : Progress → Progress}
    (hf : ∀ p, r.getProgress k = some p → (f p).isLearner = p.isLearner) :
    (r.modifyProgress k f).roster = r.roster := by
  have hvoter : ∀ p, r.prs.lookup k = some p → r.getProgress k = some p := by
    intro p hp
    simp only [getProgress, hp]
  funext id
  simp only [roster, modifyProgress, lookup_modify_map fun p hp => hf p (hvoter p hp)]
  split
  · rfl
  · rename_i hnone
    have hlookup : r.prs.lookup k = none := AList.lookup_eq_none.mpr hnone
    rw [lookup_modify_map fun p hp => hf p (by simp only [getProgress, hlookup, hp])]

lemma roster_resetTo (term : Nat) : (r.resetTo term).roster = r.roster := by
  funext id
  have hreset : ∀ o : Option Progress, (o.map (r.resetProgress id)).map Progress.isLearner =
      o.map Progress.isLearner := by
    rintro (_ | p)
    · rfl
    · rfl
  simp only [roster, resetTo, IdMap.lookup_mapWithKey, hreset]

end Raft

namespace Progress

variable {p p' : Progress} {m : Message}

lemma isLearner_of_standing (h : p'.standing = p.standing) : p'.isLearner = p.isLearner :=
  congrArg Prod.snd h

/-- An answer does not make a voter of a learner. -/
lemma Answered.isLearner (h : p.Answered m p') : p'.isLearner = p.isLearner := by
  have hupdated : ({ p with recentActive := true }.maybeUpdate m.index).1.isLearner = p.isLearner :=
    congrArg Prod.snd (standing_maybeUpdate (p := { p with recentActive := true }) m.index)
  have hdecreased : ({ p with recentActive := true }.maybeDecreasesTo m.index m.rejectHint).1.isLearner =
      p.isLearner :=
    congrArg Prod.snd
      (standing_maybeDecreasesTo (p := { p with recentActive := true }) m.index m.rejectHint)
  cases h with
  | acknowledged _ _ _ h =>
      exact (isLearner_of_standing (standing_acknowledged h)).trans hupdated
  | known => exact hupdated
  | rejected => exact hdecreased
  | fellBack => exact (isLearner_of_standing standing_becomeProbe).trans hdecreased
  | alive _ h => exact congrArg Prod.snd (standing_heartbeatAnswered h)
  | snapshotSent => exact isLearner_of_standing (standing_setPause.trans standing_becomeProbe)
  | snapshotLost =>
      refine isLearner_of_standing (standing_setPause.trans ?_)
      exact standing_becomeProbe.trans standing_snapshotFailure
  | unreachable => exact isLearner_of_standing standing_becomeProbe

end Progress

namespace Raft

variable {r r' : Raft} {m : Message}

/-- **No deed but the restoring of a snapshot touches the roster.** -/
theorem Deed.roster (h : Deed m r r') (hm : m.type ≠ MessageType.msgSnap) : r'.roster = r.roster := by
  cases h with
  | quiet h =>
      simp only [dossier, Prod.mk.injEq] at h
      exact roster_congr h.2.1 h.2.2.1
  | sendEntries hpr _ _ _ hsent =>
      refine (roster_congr rfl rfl).trans (roster_modifyProgress fun p hp => ?_)
      rw [hpr] at hp
      obtain rfl := Option.some.inj hp
      exact Progress.isLearner_of_standing (Progress.standing_afterSending hsent)
  | sendSnapshot => exact (roster_congr rfl rfl).trans (roster_modifyProgress fun _ _ => rfl)
  | answered _ _ hpr h =>
      refine roster_modifyProgress fun p hp => ?_
      rw [hpr] at hp
      obtain rfl := Option.some.inj hp
      exact h.isLearner
  | own =>
      exact roster_modifyProgress fun p _ =>
        Progress.isLearner_of_standing (Progress.standing_maybeUpdate _)
  | @follow term => exact (roster_congr rfl rfl).trans (roster_resetTo term)
  | stand => exact (roster_congr rfl rfl).trans (roster_resetTo (r.term + 1))
  | lead =>
      have hmodify : ∀ prs : IdMap Progress, ∀ id,
          ((prs.modify r.id Progress.becomeReplicate).lookup id).map Progress.isLearner =
            (prs.lookup id).map Progress.isLearner := fun _ =>
        lookup_modify_map fun _ _ => rfl
      funext id
      refine Eq.trans ?_ (congrFun (roster_resetTo r.term) id)
      simp only [Raft.roster, elected, hmodify]
  | propose _ _ hsize =>
      rw [increaseUncommittedSize] at hsize
      split at hsize
      · cases hsize
      · cases hsize
        exact roster_congr rfl rfl
  | restore hsnap => exact absurd hsnap hm
  | post | support | count | transfer | abort | prepare | vote | refuse | commit | append =>
      exact roster_congr rfl rfl

theorem Deeds.roster (h : Deeds m r r') (hm : m.type ≠ MessageType.msgSnap) :
    r'.roster = r.roster := by
  induction h with
  | refl => rfl
  | tail _ hdeed ih => exact (hdeed.roster hm).trans ih

/-! ## Entering and leaving -/

/-- A voter is entered, and is no learner any more. -/
lemma Membership.enterVoter (h : r.Membership) {id : Nat} {pr : Progress}
    (hpr : pr.isLearner = false) :
    Membership { r with learnerPrs := r.learnerPrs.erase id, prs := r.prs.insert id pr } := by
  refine ⟨fun i hi hl => ?_, fun i p hp => ?_, fun i p hp => ?_⟩
  · obtain ⟨hne, hl⟩ := AList.mem_erase.mp hl
    rcases (AList.mem_insert _).mp hi with heq | hi
    · exact hne heq
    · exact h.disjoint i hi hl
  · by_cases hne : i = id
    · subst hne
      rw [AList.lookup_insert] at hp
      obtain rfl := Option.some.inj hp
      exact hpr
    · rw [AList.lookup_insert_ne hne] at hp
      exact h.voters i p hp
  · by_cases hne : i = id
    · subst hne
      rw [AList.lookup_erase] at hp
      cases hp
    · rw [AList.lookup_erase_ne hne] at hp
      exact h.learners i p hp

/-- A learner is entered, who is no voter. -/
lemma Membership.enterLearner (h : r.Membership) {id : Nat} {pr : Progress}
    (hpr : pr.isLearner = true) (hid : id ∉ r.prs) :
    Membership { r with learnerPrs := r.learnerPrs.insert id pr } := by
  refine ⟨fun i hi hl => ?_, h.voters, fun i p hp => ?_⟩
  · rcases (AList.mem_insert _).mp hl with heq | hl
    · exact hid (heq ▸ hi)
    · exact h.disjoint i hi hl
  · by_cases hne : i = id
    · subst hne
      rw [AList.lookup_insert] at hp
      obtain rfl := Option.some.inj hp
      exact hpr
    · rw [AList.lookup_insert_ne hne] at hp
      exact h.learners i p hp

/-- `set_progress` moves a learner to the voters, and never back. -/
theorem Membership.setProgress (h : r.Membership) {id matched next : Nat} {isLearner : Bool}
    (hset : r.setProgress id matched next isLearner = Except.ok r') : r'.Membership := by
  cases isLearner with
  | false =>
      rw [← Outcome.pure_eq_ok.mp hset]
      refine h.enterVoter ?_
      rfl
  | true =>
      by_cases hmem : id ∈ r.prs
      · rw [Raft.setProgress, if_neg (by simp), if_pos hmem] at hset
        cases hset
      · rw [Raft.setProgress, if_neg (by simp), if_neg hmem] at hset
        rw [← Outcome.pure_eq_ok.mp hset]
        exact h.enterLearner rfl hmem

theorem Membership.delProgress (h : r.Membership) (id : Nat) : (r.delProgress id).Membership := by
  have hlookup : ∀ (peers : IdMap Progress) i p, (peers.erase id).lookup i = some p →
      peers.lookup i = some p := by
    intro peers i p hp
    by_cases hne : i = id
    · subst hne
      rw [AList.lookup_erase] at hp
      cases hp
    · rwa [AList.lookup_erase_ne hne] at hp
  refine ⟨fun i hi hl => ?_, fun i p hp => ?_, fun i p hp => ?_⟩
  · exact h.disjoint i (AList.mem_erase.mp hi).2 (AList.mem_erase.mp hl).2
  · exact h.voters i p (hlookup _ i p hp)
  · exact h.learners i p (hlookup _ i p hp)

theorem Membership.activated (h : r.Membership) (id : Nat) (isLearner : Bool) :
    (r.activated id isLearner).Membership := by
  refine h.congr ?_
  refine Eq.trans (roster_modifyProgress (f := fun p => { p with recentActive := true }) ?_) ?_
  · exact fun _ _ => rfl
  · exact roster_congr rfl rfl

theorem Membership.regrouped (h : r.Membership) (hgroup : Regrouped r r') : r'.Membership := by
  cases hgroup with
  | same => exact h
  | entered _ hset => exact (h.setProgress hset).activated _ _
  | promoted => exact (h.enterVoter rfl).activated _ _
  | removed id => exact h.delProgress id

/-- A configuration change keeps the members apart. -/
theorem Membership.changeMembers (h : r.Membership) {cc : ConfChange}
    (hchange : RawNode.changeMembers r cc = Except.ok r') : r'.Membership := by
  obtain ⟨r₁, hgroup, hdeeds⟩ := Deeds.changeMembers (m := {}) hchange
  exact (h.regrouped hgroup).congr (hdeeds.roster (by decide))

/-! ## Snapshots -/

theorem Membership.restoreNode (h : r.Membership) {nodes : List Nat} {isLearner : Bool}
    (hok : r.restoreNode nodes isLearner = Except.ok r') : r'.Membership := by
  refine Outcome.foldlM_induct (P := Membership) (fun s s' node _ hs hround => ?_) h hok
  obtain ⟨s₁, hset, hlog⟩ := Outcome.bind_eq_ok.mp hround
  have hs₁ : s₁ = s' := by
    split at hlog
    · cases hlog
    · exact Outcome.pure_eq_ok.mp hlog
  rw [← hs₁]
  refine Membership.setProgress ?_ hset
  exact hs.congr (roster_congr rfl rfl)

theorem Membership.restore (h : r.Membership) {s : Snapshot} {restored : Bool}
    (hok : r.restore s = Except.ok (r', restored)) : r'.Membership := by
  rw [Raft.restore] at hok
  split_ifs at hok
  · cases hok
    exact h
  · obtain ⟨l, -, hok⟩ := Outcome.bind_eq_ok.mp hok
    cases hok
    exact h.congr (roster_congr rfl rfl)
  · cases hok
    exact h
  · obtain ⟨r₁, h₁, hok⟩ := Outcome.bind_eq_ok.mp hok
    obtain ⟨r₂, h₂, hok⟩ := Outcome.bind_eq_ok.mp hok
    cases hok
    have hempty : Membership { r with raftLog := r.raftLog.restore s, prs := ∅, learnerPrs := ∅ } :=
      ⟨fun id hid => absurd hid (AList.notMem_empty id), fun id p hp => by simp at hp,
        fun id p hp => by simp at hp⟩
    exact (hempty.restoreNode h₁).restoreNode h₂

theorem Membership.handleSnapshot (h : r.Membership)
    (hok : r.handleSnapshot m = Except.ok r') : r'.Membership := by
  obtain ⟨⟨r₁, restored⟩, hrestore, hsend⟩ := Outcome.bind_eq_ok.mp hok
  rw [(send_eq_ok hsend).1]
  exact (h.restore hrestore).congr (roster_congr rfl rfl)

theorem Membership.becomeFollower (h : r.Membership) {term lead : Nat}
    (hok : r.becomeFollower term lead = Except.ok r') : r'.Membership := by
  rw [becomeFollower_eq_ok hok]
  exact h.congr ((roster_congr rfl rfl).trans (roster_resetTo term))

/-- A snapshot gives the node new members, or is not looked at. -/
theorem Membership.stepSnap (h : r.Membership) (hm : m.type = MessageType.msgSnap) {status : Status}
    (hok : r.step m = Except.ok (r', status)) : r'.Membership := by
  obtain ⟨⟨r₁, continues⟩, hcheck, hok⟩ := Outcome.bind_eq_ok.mp hok
  have h₁ : r₁.Membership := by
    rw [checkTerm] at hcheck
    split_ifs at hcheck
    · cases hcheck
      exact h
    · cases hcheck
      exact h
    · obtain ⟨r₂, hstep, hcheck⟩ := Outcome.bind_eq_ok.mp hcheck
      cases hcheck
      rw [stepHigherTerm, hm] at hstep
      exact h.becomeFollower hstep
    · obtain ⟨r₂, hstep, hcheck⟩ := Outcome.bind_eq_ok.mp hcheck
      cases hcheck
      simp only [stepLowerTerm, hm, reduceCtorEq, or_self, and_false, if_false] at hstep
      cases hstep
      exact h
    · cases hcheck
      exact h
  dsimp only at hok
  split at hok
  · cases hok
    exact h₁
  have hcandidate : r₁.stepCandidate m = Except.ok (r', status) → r'.Membership := by
    intro hok
    rw [stepCandidate, hm] at hok
    obtain ⟨r₂, hfollow, hok⟩ := Outcome.bind_eq_ok.mp hok
    obtain ⟨r₃, hsnap, hok⟩ := Outcome.bind_eq_ok.mp hok
    cases hok
    exact (h₁.becomeFollower hfollow).handleSnapshot hsnap
  simp only [hm, stepRole] at hok
  split at hok
  · rw [stepFollower, hm] at hok
    obtain ⟨r₂, hsnap, hok⟩ := Outcome.bind_eq_ok.mp hok
    cases hok
    refine Membership.handleSnapshot ?_ hsnap
    exact h₁.congr (roster_congr rfl rfl)
  · exact hcandidate hok
  · exact hcandidate hok
  · simp only [stepLeader, hm] at hok
    split at hok
    · cases hok
      exact h₁
    · obtain ⟨r₂, hpeer, hok⟩ := Outcome.bind_eq_ok.mp hok
      cases hok
      rw [stepLeaderPeer, hm] at hpeer
      cases hpeer
      exact h₁

/-! ## The start -/

/-- Loading the stored state writes no peer. -/
theorem restoreState_peers {state : HardState} (h : r.restoreState state = Except.ok r') :
    r'.id = r.id ∧ r'.prs = r.prs ∧ r'.learnerPrs = r.learnerPrs := by
  unfold restoreState at h
  split at h
  · exact Outcome.pure_eq_ok.mp h ▸ ⟨rfl, rfl, rfl⟩
  · rw [loadState] at h
    split at h
    · cases h
    · exact Outcome.pure_eq_ok.mp h ▸ ⟨rfl, rfl, rfl⟩

lemma isLearner_foldl_insert {p : Progress} (hp : p.isLearner = false) (ids : List Nat) :
    ∀ {peers : IdMap Progress}, (∀ id q, peers.lookup id = some q → q.isLearner = false) →
      ∀ id q, (ids.foldl (fun prs id => prs.insert id p) peers).lookup id = some q →
        q.isLearner = false := by
  induction ids with
  | nil => exact fun h => h
  | cons i ids ih =>
      intro peers h
      refine ih fun id q hq => ?_
      by_cases hid : id = i
      · subst hid
        rw [AList.lookup_insert] at hq
        obtain rfl := Option.some.inj hq
        exact hp
      · rw [AList.lookup_insert_ne hid] at hq
        exact h id q hq

/-- **The constructor keeps voters and learners apart**, or fails. -/
theorem init_membership {c : Config} (h : init c = Except.ok r) : r.Membership := by
  rw [init] at h
  dsimp only at h
  split at h
  · cases h
  obtain ⟨r₁, hlearners, h⟩ := Outcome.bind_eq_ok.mp h
  obtain ⟨r₂, hrestore, hfollow⟩ := Outcome.bind_eq_ok.mp h
  obtain ⟨-, hprs, hlearnerPrs⟩ := restoreState_peers hrestore
  have h₁ : r₁.Membership := by
    refine Outcome.foldlM_induct (P := Membership) (fun s s' learner _ hs hround => ?_) ?_ hlearners
    · rw [initLearner] at hround
      split at hround
      · cases hround
      · rename_i hvoter
        cases hround
        exact (hs.enterLearner rfl hvoter).congr (roster_congr rfl rfl)
    · refine ⟨fun id _ => AList.notMem_empty id, fun id p hp => ?_, fun id p hp => by simp at hp⟩
      exact isLearner_foldl_insert rfl _ (fun _ _ hq => by simp at hq) id p hp
  have h₂ : r₂.Membership := h₁.congr (roster_congr hprs hlearnerPrs)
  refine Membership.becomeFollower ?_ hfollow
  split
  · exact h₂.congr (roster_congr rfl rfl)
  · exact h₂

end Raft

end RaftKv
