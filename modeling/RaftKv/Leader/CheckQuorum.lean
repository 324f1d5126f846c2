import RaftKv.Core.Run
import RaftKv.Leader.Office
import RaftKv.Raft.Membership

/-!
# What a quorum check looks at

`check_quorum_active` counts the voters that were active, but nothing sets `recent_active` back to
false when the check is over: only `reset` does, at the start of a term.

* `QuorumOffice` — a leader, and as ghosts the nodes it has heard of since the last check and since
  it took office.
* `TakesOffice`, `becomeLeader_takesOffice` — a new leader has not heard of anyone.
* `Attended` — **a voter is active exactly when it was heard of since the leader took office**.
* `checkQuorum_kept_iff` — so a check is about the last interval exactly when a quorum that was heard
  of in the term was heard of in the interval as well.
-/

namespace RaftKv

namespace Raft

/-- The peers are marked as their map says, and no learner is the node itself. -/
structure Members (r : Raft) : Prop where
  voters : ∀ e ∈ r.prs.flags, e.2 = false
  learners : ∀ e ∈ r.learnerPrs.flags, e.2 = true
  apart : r.id ∈ r.prs → r.id ∉ r.learnerPrs

/-- A leader that has not heard of anyone yet. -/
structure TakesOffice (r : Raft) : Prop extends Members r where
  leader : r.state = RaftState.leader
  self : r.id ∈ r.prs
  unheard : ∀ e ∈ r.prs.standings, e.2.1 = false

variable {r r' : Raft} {m : Message}

theorem mem_keys_flags (m : IdMap Progress) (id : Nat) : id ∈ m ↔ id ∈ m.flags.map Prod.fst := by
  rw [AList.mem_keys, IdMap.keys_eq_standings, IdMap.flags_eq_standings, List.map_map]
  rfl

/-! ## The members -/

/-- The progress of a new term is inactive, and keeps its mark. -/
theorem flags_mapWithKey_reset (r : Raft) (m : IdMap Progress) :
    (m.mapWithKey r.resetProgress).flags = m.flags := by
  simp [IdMap.flags, IdMap.mapWithKey, resetProgress, Function.comp_def]

theorem standings_mapWithKey_reset (r : Raft) (m : IdMap Progress) :
    ∀ e ∈ (m.mapWithKey r.resetProgress).standings, e.2.1 = false := by
  intro e he
  simp only [IdMap.standings, IdMap.mapWithKey, List.map_map, List.mem_map] at he
  obtain ⟨p, -, rfl⟩ := he
  rfl

theorem members_resetTo (h : r.Members) (term : Nat) : (r.resetTo term).Members where
  voters := by
    simpa only [resetTo, flags_mapWithKey_reset] using h.voters
  learners := by
    simpa only [resetTo, flags_mapWithKey_reset] using h.learners
  apart := by
    simpa only [resetTo, IdMap.mem_mapWithKey] using h.apart

theorem Membership.members (h : r.Membership) : r.Members where
  voters := by
    intro e he
    obtain ⟨⟨id, p⟩, hp, rfl⟩ := List.mem_map.mp he
    exact h.voters id p (AList.mem_lookup_iff.mpr hp)
  learners := by
    intro e he
    obtain ⟨⟨id, p⟩, hp, rfl⟩ := List.mem_map.mp he
    exact h.learners id p (AList.mem_lookup_iff.mpr hp)
  apart := h.disjoint r.id

/-- **The constructor marks its peers**: it enters the voters, and fails when a learner is one. -/
theorem init_members {config : Config} (h : init config = Except.ok r) : r.Members :=
  (init_membership h).members

/-! ## Taking office -/

/-- The same peers are marked the same. -/
theorem Members.peers {heard : Option Nat} (h : r.Members) (hpeers : SamePeers heard r r') :
    r'.Members where
  voters := by
    rw [IdMap.flags_eq_standings, hpeers.voters, List.map_map]
    have hmark : (fun s : Nat × Bool × Bool => (s.1, s.2.2)) ∘ IdMap.mark heard =
        fun s => (s.1, s.2.2) := rfl
    rw [hmark, ← IdMap.flags_eq_standings]
    exact h.voters
  learners := hpeers.learners ▸ h.learners
  apart := by
    rw [mem_keys_flags r'.learnerPrs, hpeers.learners, ← mem_keys_flags, AList.mem_keys,
      hpeers.keys, ← AList.mem_keys, hpeers.id]
    exact h.apart

theorem SamePeers.self {heard : Option Nat} (hpeers : SamePeers heard r r') (h : r.id ∈ r.prs) :
    r'.id ∈ r'.prs := by
  rw [AList.mem_keys, hpeers.keys, ← AList.mem_keys, hpeers.id]
  exact h

/-- Sending keeps a leader as new in office as it is. -/
theorem TakesOffice.sent (h : r.TakesOffice) (hsent : Sent r r') : r'.TakesOffice where
  toMembers := h.toMembers.peers hsent.toSamePeers
  leader := hsent.state.trans h.leader
  self := hsent.toSamePeers.self h.self
  unheard := by
    rw [hsent.voters, ← IdMap.map_mark_none]
    exact h.unheard

/-- **A new leader has not heard of anyone.** -/
theorem becomeLeader_takesOffice (h : r.Members) (hok : r.becomeLeader = Except.ok r') :
    r'.TakesOffice := by
  obtain ⟨hself, r₁, happend, rfl⟩ := becomeLeader_eq_ok hok
  have hmembers := members_resetTo h r.term
  have hvoters : r.elected.prs.standings = (r.resetTo r.term).prs.standings :=
    (IdMap.standings_modify (by simp) fun p _ => by simp [Progress.standing,
      Progress.becomeReplicate, Progress.resetState]).trans (IdMap.map_mark_none _).symm
  have helected : r.elected.TakesOffice := {
    voters := by
      rw [IdMap.flags_eq_standings, hvoters, ← IdMap.flags_eq_standings]
      exact hmembers.voters
    learners := hmembers.learners
    apart := fun _ => hmembers.apart (by simpa [resetTo] using hself)
    leader := rfl
    self := by simpa [elected, resetTo] using hself
    unheard := by
      rw [hvoters]
      exact standings_mapWithKey_reset r r.prs }
  exact (helected.sent (Sent.appendEntry happend)).sent (Sent.same rfl rfl)

/-! ## Hearing of peers -/

/-- A leader, and the nodes it has heard of since its last quorum check and since it took office. -/
structure QuorumOffice where
  raft : Raft
  heard : List Nat
  heardTerm : List Nat

namespace QuorumOffice

def heardBy (r : Raft) : LeaderAction → List Nat
  | LeaderAction.step m => (r.heardFrom m).toList
  | _ => []

/-- The action makes the leader check its quorum. -/
def checks (r : Raft) : LeaderAction → Bool
  | LeaderAction.step m => r.checksQuorum m
  | LeaderAction.tick => r.tickChecksQuorum
  | _ => false

/-- A check starts a new interval. -/
def act (s : QuorumOffice) (a : LeaderAction) : Outcome QuorumOffice := do
  let raft ← a.act s.raft
  return {
    raft := raft
    heard := if checks s.raft a then [] else heardBy s.raft a ++ s.heard
    heardTerm := heardBy s.raft a ++ s.heardTerm }

end QuorumOffice

/-- Enough other voters were heard of to make a quorum with the leader. -/
def EnoughHeard (r : Raft) (heard : List Nat) : Prop :=
  r.quorum - 1 ≤ r.prs.keys.countP fun v => decide (v ≠ r.id ∧ v ∈ heard)

/-- The action happens to a leader in office and does not change the set of voters. -/
def FixedVoters (s : QuorumOffice) (a : LeaderAction) : Prop :=
  s.raft.InOffice a ∧
    match a with
    | LeaderAction.addNode id => id ∈ s.raft.prs
    | LeaderAction.removeNode id => id ∉ s.raft.prs
    | _ => True

/-- What the check reads of a voter is whether it was heard of in this term. -/
structure Attended (s : QuorumOffice) : Prop extends Members s.raft where
  self : s.raft.id ∈ s.raft.prs
  active : ∀ e ∈ s.raft.prs.standings, (e.2.1 = true ↔ e.1 ∈ s.heardTerm)

theorem TakesOffice.attended (h : r.TakesOffice) :
    Attended { raft := r, heard := [], heardTerm := [] } where
  toMembers := h.toMembers
  self := h.self
  active := fun e he => by simp [h.unheard e he]

variable {s s' : QuorumOffice} {heard : Option Nat}

/-- Marking the peer that was heard keeps the voters attended. -/
theorem Attended.mark (h : Attended s) (hpeers : SamePeers heard s.raft r') (since : List Nat) :
    Attended { raft := r', heard := since, heardTerm := heard.toList ++ s.heardTerm } where
  toMembers := h.toMembers.peers hpeers
  self := hpeers.self h.self
  active := by
    intro e he
    rw [hpeers.voters] at he
    obtain ⟨e', he', rfl⟩ := List.mem_map.mp he
    have hold := h.active e' he'
    simp only [IdMap.mark, Bool.or_eq_true, decide_eq_true_eq, List.mem_append,
      Option.mem_toList, hold]
    exact or_comm

/-! ## The check -/

theorem countP_or_self {id : Nat} {Q : Nat → Prop} [DecidablePred Q] :
    ∀ {keys : List Nat}, keys.Nodup → id ∈ keys →
      keys.countP (fun v => decide (v = id ∨ Q v)) =
        keys.countP (fun v => decide (v ≠ id ∧ Q v)) + 1
  | [], _, h => by cases h
  | v :: keys, hnodup, h => by
      obtain ⟨hv, hnodup⟩ := List.nodup_cons.mp hnodup
      rw [List.countP_cons, List.countP_cons]
      by_cases hid : v = id
      · subst hid
        have hrest : keys.countP (fun u => decide (u = v ∨ Q u)) =
            keys.countP (fun u => decide (u ≠ v ∧ Q u)) := by
          refine List.countP_congr fun u hu => ?_
          have : u ≠ v := fun heq => hv (heq ▸ hu)
          simp [this]
        rw [hrest]
        simp
      · have hmem : id ∈ keys := (List.mem_cons.mp h).resolve_left (Ne.symm hid)
        rw [countP_or_self hnodup hmem]
        simp only [hid, false_or, ne_eq, not_false_eq_true, true_and]
        omega

/-- **The check counts the leader and the voters it has heard of since it took office.** -/
theorem Attended.checkQuorumActive (h : Attended s) :
    s.raft.checkQuorumActive = true ↔ EnoughHeard s.raft s.heardTerm := by
  have hlearners : s.raft.learnerPrs.entries.countP (fun e =>
      decide (e.1 = s.raft.id) || (e.2.recentActive && !e.2.isLearner)) = 0 := by
    rw [List.countP_eq_zero]
    intro e he
    have hflag : e.2.isLearner = true := h.learners (e.1, e.2.isLearner) (List.mem_map_of_mem he)
    have hne : e.1 ≠ s.raft.id := by
      intro heq
      exact h.apart h.self (heq ▸ AList.mem_keys.mpr (List.mem_map_of_mem he))
    simp [hflag, hne]
  have hvoters : s.raft.prs.entries.countP (fun e =>
      decide (e.1 = s.raft.id) || (e.2.recentActive && !e.2.isLearner)) =
      s.raft.prs.keys.countP fun v => decide (v = s.raft.id ∨ v ∈ s.heardTerm) := by
    rw [AList.keys, List.keys, List.countP_map]
    refine List.countP_congr fun e he => ?_
    have hflag : e.2.isLearner = false := h.voters (e.1, e.2.isLearner) (List.mem_map_of_mem he)
    have hactive : e.2.recentActive = true ↔ e.1 ∈ s.heardTerm :=
      h.active (e.1, e.2.standing) (List.mem_map_of_mem he)
    simp [hflag, hactive]
  have hcount := countP_or_self (Q := fun v => v ∈ s.heardTerm) s.raft.prs.keys_nodup
    (AList.mem_keys.mp h.self)
  rw [Raft.checkQuorumActive, decide_eq_true_iff, hlearners, hvoters, hcount, EnoughHeard]
  omega

/-! ## One action -/

/-- A learner that enters the configuration is no voter. -/
theorem addLearner_attended (h : Attended s) {id : Nat}
    (hok : s.raft.addNodeOrLearner id true = Except.ok r') :
    Attended { s with raft := r' } := by
  rw [addNodeOrLearner] at hok
  split at hok
  · rename_i hnone
    obtain ⟨hvoter, hlearner⟩ := getProgress_eq_none.mp hnone
    have hne : id ≠ s.raft.id := fun heq => hvoter (heq ▸ h.self)
    obtain ⟨r₁, hset, hadded⟩ := Outcome.bind_eq_ok.mp hok
    rw [setProgress, if_neg (by simp), if_neg hvoter, Outcome.pure_eq_ok] at hset
    subst hset
    unfold addNodeOrLearner.added at hadded
    dsimp only at hadded
    split at hadded
    · cases hadded
    rw [← Outcome.pure_eq_ok.mp hadded]
    have hvoters : (s.raft.prs.modify id fun p => { p with recentActive := true }).standings =
        s.raft.prs.standings := by
      refine (IdMap.standings_modify (by simp) fun p hp => ?_).trans (IdMap.map_mark_none _).symm
      exact absurd (AList.lookup_isSome.mp (by simp [hp])) hvoter
    refine { voters := ?_, learners := ?_, apart := fun _ => ?_, self := ?_, active := ?_ }
    · simp only [modifyProgress, IdMap.flags_eq_standings, hvoters]
      rw [← IdMap.flags_eq_standings]
      exact h.voters
    · simp only [modifyProgress, hvoter, if_false]
      intro e he
      rw [IdMap.flags_modify, IdMap.flags, AList.entries_insert_of_notMem hlearner] at he
      · rcases List.mem_cons.mp he with rfl | he
        · rfl
        · exact h.learners e he
      · exact fun _ _ => rfl
    · simp only [modifyProgress, hvoter, if_false, IdMap.mem_modify, AList.mem_insert, not_or]
      exact ⟨hne.symm, h.apart h.self⟩
    · simpa [modifyProgress] using h.self
    · simp only [modifyProgress, hvoters]
      exact h.active
  · rename_i pr hpr
    split at hok
    · exact Outcome.pure_eq_ok.mp hok ▸ h
    · rename_i hlearner
      rw [if_pos (by simpa using hlearner)] at hok
      exact Outcome.pure_eq_ok.mp hok ▸ h

/-- A voter that enters the configuration again changes nothing. -/
theorem addNode_attended (h : Attended s) {id : Nat} (hid : id ∈ s.raft.prs)
    (hok : s.raft.addNodeOrLearner id false = Except.ok r') :
    Attended { s with raft := r' } := by
  obtain ⟨pr, hpr⟩ := Option.isSome_iff_exists.mp (AList.lookup_isSome.mpr hid)
  have hflag : pr.isLearner = false := by
    have hentry : (⟨id, pr⟩ : Sigma fun _ : Nat => Progress) ∈ s.raft.prs.entries :=
      AList.mem_lookup_iff.mp hpr
    exact h.voters (id, pr.isLearner) (List.mem_map_of_mem hentry)
  have hget : s.raft.getProgress id = some pr := by simp only [getProgress, hpr]
  simp only [addNodeOrLearner, hget, hflag, Bool.false_eq_true, false_and, if_false, if_true,
    Outcome.pure_eq_ok] at hok
  exact hok ▸ h

/-- Removing a learner removes no voter. -/
theorem removeNode_attended (h : Attended s) {id : Nat} (hid : id ∉ s.raft.prs)
    (hok : s.raft.removeNode id = Except.ok r') : Attended { s with raft := r' } := by
  have hprs : s.raft.prs.erase id = s.raft.prs :=
    AList.ext (List.kerase_of_notMem_keys (fun hk => hid (AList.mem_keys.mpr hk)))
  have hdel : Attended { s with raft := s.raft.delProgress id } := {
    voters := by
      simp only [delProgress, hprs]
      exact h.voters
    learners := fun e he => by
      refine h.learners e ?_
      have hsub : (s.raft.learnerPrs.erase id).entries.Sublist s.raft.learnerPrs.entries :=
        List.kerase_sublist id _
      exact (hsub.map _).subset he
    apart := fun _ hl => h.apart h.self (AList.mem_erase.mp hl).2
    self := by
      simp only [delProgress, hprs]
      exact h.self
    active := by
      simp only [delProgress, hprs]
      exact h.active }
  exact hdel.mark (removeNode_sent hok).toSamePeers s.heard

/-- A check is no answer. -/
theorem heardFrom_of_checksQuorum (h : r.checksQuorum m = true) : r.heardFrom m = none := by
  simp only [checksQuorum, Bool.and_eq_true, beq_iff_eq] at h
  simp [heardFrom, h.2, isAnswer]

/-- **One action** keeps a leader attended, and a check keeps it in office exactly when enough of
its voters are active. -/
theorem act_attended {a : LeaderAction} (h : Attended s) (hin : FixedVoters s a)
    (hact : s.act a = Except.ok s') :
    (s'.raft.state = RaftState.leader → Attended s') ∧
    (QuorumOffice.checks s.raft a = true →
      (s'.raft.state = RaftState.leader ↔ s.raft.checkQuorumActive = true)) := by
  obtain ⟨hoffice, hfixed⟩ := hin
  obtain ⟨r', hraft, hs'⟩ := Outcome.bind_eq_ok.mp hact
  rw [← Outcome.pure_eq_ok.mp hs']
  have hl := hoffice.leader
  cases a with
  | step m =>
      obtain ⟨⟨r₁, answer⟩, hstep, hr⟩ := Outcome.bind_eq_ok.mp hraft
      rw [← Outcome.pure_eq_ok.mp hr]
      by_cases hcheck : s.raft.checksQuorum m = true
      · have hnone := heardFrom_of_checksQuorum hcheck
        rcases step_checkQuorum hl hcheck hstep with ⟨hactive, rfl⟩ | ⟨hactive, hstate, -⟩
        · refine ⟨fun _ => h.mark ?_ _, fun _ => iff_of_true hl hactive⟩
          rw [hnone]
          exact SamePeers.same rfl
        · have hdown : r₁.state ≠ RaftState.leader := by simp [hstate]
          exact ⟨fun hl' => absurd hl' hdown, fun _ => iff_of_false hdown (by simp [hactive])⟩
      · have hpeers := step_samePeers hl hoffice.2 (by simpa using hcheck) hstep
        exact ⟨fun _ => h.mark hpeers _, fun hc => absurd hc hcheck⟩
  | tick =>
      rcases tick_leader hl hraft with ⟨hactive, hsent⟩ | ⟨-, hactive, hstate, -⟩
      · exact ⟨fun _ => h.mark hsent.toSamePeers _,
          fun hc => iff_of_true (hsent.state.trans hl) (hactive hc)⟩
      · have hdown : r'.state ≠ RaftState.leader := by simp [hstate]
        exact ⟨fun hl' => absurd hl' hdown, fun _ => iff_of_false hdown (by simp [hactive])⟩
  | addNode id => exact ⟨fun _ => addNode_attended h hfixed hraft, by simp [QuorumOffice.checks]⟩
  | addLearner id => exact ⟨fun _ => addLearner_attended h hraft, by simp [QuorumOffice.checks]⟩
  | removeNode id => exact ⟨fun _ => removeNode_attended h hfixed hraft, by simp [QuorumOffice.checks]⟩

/-! ## Every run -/

/-- A leader is attended throughout its term. -/
theorem attended_run (h : r.TakesOffice)
    (hrun : RunOf QuorumOffice.act FixedVoters { raft := r, heard := [], heardTerm := [] } s)
    (hl : s.raft.state = RaftState.leader) : Attended s :=
  hrun.invariant (I := fun s => s.raft.state = RaftState.leader → Attended s)
    (fun _ _ _ hs hin hact => (act_attended (hs hin.1.leader) hin hact).1)
    (fun _ => h.attended) hl

/-- **In every run of a leader from the moment it takes office, a quorum check keeps it only if a
quorum was heard of since the last check, exactly when a quorum that was heard of in the term was
heard of since the last check as well.** -/
theorem checkQuorum_kept_iff {a : LeaderAction} (h : r.TakesOffice)
    (hrun : RunOf QuorumOffice.act FixedVoters { raft := r, heard := [], heardTerm := [] } s)
    (hin : FixedVoters s a) (hcheck : QuorumOffice.checks s.raft a = true)
    (hact : s.act a = Except.ok s') :
    (s'.raft.state = RaftState.leader → EnoughHeard s.raft s.heard) ↔
      (EnoughHeard s.raft s.heardTerm → EnoughHeard s.raft s.heard) := by
  have hattended := attended_run h hrun hin.1.leader
  have hkept := (act_attended hattended hin hact).2 hcheck
  rw [hkept, hattended.checkQuorumActive]

/-! ## A leader that is left alone -/

/-- Node 1 has just been elected. -/
def newLeaderRun : Outcome Raft := do
  let r ← oneOfThree 1 []
  r.deliver firstElection

def newLeader : Raft := newLeaderRun.toOption.get (by decide)

theorem newLeader_takesOffice : newLeader.TakesOffice where
  voters := by decide
  learners := by decide
  apart := by decide
  leader := by decide
  self := by decide
  unheard := by decide

def quorumCheck : LeaderAction :=
  LeaderAction.step { type := MessageType.msgCheckQuorum, fromId := 1 }

instance (s : QuorumOffice) : (a : LeaderAction) → Decidable (FixedVoters s a)
  | LeaderAction.addNode _ => inferInstanceAs (Decidable (_ ∧ _ ∈ _))
  | LeaderAction.removeNode _ => inferInstanceAs (Decidable (_ ∧ _ ∉ _))
  | LeaderAction.step _ | LeaderAction.tick | LeaderAction.addLearner _ =>
      inferInstanceAs (Decidable (_ ∧ True))

/-- Node 2 answers once, and the quorum is checked. -/
def checkedOnceRun : Outcome QuorumOffice :=
  [LeaderAction.step firstAck, quorumCheck].foldlM (RunOf.exec QuorumOffice.act FixedVoters)
    { raft := newLeader, heard := [], heardTerm := [] }

def checkedOnce : QuorumOffice := checkedOnceRun.toOption.get (by decide)

theorem checkedOnce_run : RunOf QuorumOffice.act FixedVoters
    { raft := newLeader, heard := [], heardTerm := [] } checkedOnce :=
  RunOf.of_exec (Outcome.eq_ok_get (by decide))

def checkedTwice : QuorumOffice :=
  (checkedOnce.act quorumCheck).toOption.get (by decide)

theorem checkQuorum_kept_iff_twice :
    (checkedTwice.raft.state = RaftState.leader → EnoughHeard checkedOnce.raft checkedOnce.heard) ↔
      (EnoughHeard checkedOnce.raft checkedOnce.heardTerm →
        EnoughHeard checkedOnce.raft checkedOnce.heard) :=
  checkQuorum_kept_iff newLeader_takesOffice checkedOnce_run (by decide) (by decide +kernel)
    (Outcome.eq_ok_get (by decide))

/-- Nobody answers between the two checks, and the leader stays in office. -/
theorem quorum_check_blind : ¬ ∀ (r : Raft) (s s' : QuorumOffice) (a : LeaderAction),
    r.checkQuorum = true → r.TakesOffice →
    RunOf QuorumOffice.act FixedVoters { raft := r, heard := [], heardTerm := [] } s →
    FixedVoters s a → QuorumOffice.checks s.raft a = true → s.act a = Except.ok s' →
    s'.raft.state = RaftState.leader → EnoughHeard s.raft s.heard := by
  intro hall
  have henough := hall newLeader checkedOnce checkedTwice quorumCheck (by decide)
    newLeader_takesOffice checkedOnce_run (by decide) (by decide +kernel)
    (Outcome.eq_ok_get (by decide)) (by decide +kernel)
  revert henough
  unfold EnoughHeard
  decide

end Raft

end RaftKv
