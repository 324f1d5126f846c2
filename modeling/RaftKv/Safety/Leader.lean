import RaftKv.Safety.Simulation

/-!
# Leaders follow the abstract replication

* `ProgressSound` is kept by everything a leader does to the progress of a peer.
* `Leading` — the node tracks the abstract world and is a leader.
* `Leading.maybeSendAppend` — append requests are part of the leader's log.
* `Leading.maybeCommit` — **a leader commits what a majority acknowledged**, the abstract step
  `commitLead`.
* `Leading.appendEntry` — a leader extends its own log, the abstract step `extend`.
* `Leading.stepLeader` — every message to a leader.
-/

namespace RaftKv

open Replication

variable {M : RaftKv.Membership} {w w₀ : World Nat Entry} {i : Nat} {r r' : Raft} {m : Message}

/-! ## The progress of a peer -/

namespace ProgressSound

variable {id : Nat} {p p' : Progress}

/-- Whether the peer was heard of lately does not matter. -/
theorem active (h : ProgressSound w r id p) :
    ProgressSound w r id { p with recentActive := true } :=
  ⟨h.matched, h.next_pos, h.next_le, h.state⟩

theorem becomeReplicate (h : ProgressSound w r id p)
    (hack : w.ack id r.term ≤ r.raftLog.logical.length) :
    ProgressSound w r id p.becomeReplicate where
  matched := h.matched
  next_pos := Nat.succ_le_succ (Nat.zero_le _)
  next_le := Nat.succ_le_succ (h.matched.trans hack)
  state := by simp [Progress.becomeReplicate, Progress.resetState]

theorem becomeProbe (h : ProgressSound w r id p)
    (hack : w.ack id r.term ≤ r.raftLog.logical.length) : ProgressSound w r id p.becomeProbe := by
  rw [Progress.becomeProbe, if_neg h.state]
  exact {
    matched := h.matched
    next_pos := Nat.succ_le_succ (Nat.zero_le _)
    next_le := Nat.succ_le_succ (h.matched.trans hack)
    state := by simp [Progress.resetState] }

theorem maybeUpdate (h : ProgressSound w r id p) {n : Nat} (hn : n ≤ w.ack id r.term)
    (hack : w.ack id r.term ≤ r.raftLog.logical.length) :
    ProgressSound w r id (p.maybeUpdate n).1 := by
  have hnext : n + 1 ≤ r.raftLog.logical.length + 1 := Nat.succ_le_succ (hn.trans hack)
  unfold Progress.maybeUpdate
  by_cases hm : p.matched < n <;> by_cases hx : p.next < n + 1 <;> simp only [hm, hx, if_true, if_false]
  · exact ⟨hn, Nat.succ_le_succ (Nat.zero_le _), hnext, h.state⟩
  · exact ⟨hn, h.next_pos, h.next_le, h.state⟩
  · exact ⟨h.matched, Nat.succ_le_succ (Nat.zero_le _), hnext, h.state⟩
  · exact h

theorem maybeDecreasesTo (h : ProgressSound w r id p) (rejected last : Nat)
    (hack : w.ack id r.term ≤ r.raftLog.logical.length) :
    ProgressSound w r id (p.maybeDecreasesTo rejected last).1 := by
  have hpos := h.next_pos
  have hle := h.next_le
  have hmatched := h.matched
  unfold Progress.maybeDecreasesTo
  split
  · split
    · exact h
    · exact ⟨h.matched, Nat.succ_le_succ (Nat.zero_le _),
        Nat.succ_le_succ (h.matched.trans hack), h.state⟩
  · split
    · exact h
    · rename_i hrejected
      exact ⟨h.matched, Nat.le_max_right _ _, by dsimp only; omega, h.state⟩

theorem acknowledged (h : ProgressSound w r id p) {n : Nat}
    (hack : w.ack id r.term ≤ r.raftLog.logical.length)
    (hok : p.acknowledged n = Except.ok p') : ProgressSound w r id p' := by
  unfold Progress.acknowledged at hok
  split at hok
  · obtain rfl := Outcome.pure_eq_ok.mp hok
    exact h.becomeReplicate hack
  · rename_i hs
    exact absurd hs h.state
  · obtain ⟨inflights, -, hok⟩ := Outcome.bind_eq_ok.mp hok
    obtain rfl := Outcome.pure_eq_ok.mp hok
    exact ⟨h.matched, h.next_pos, h.next_le, h.state⟩

theorem heartbeatAnswered (h : ProgressSound w r id p)
    (hok : p.heartbeatAnswered = Except.ok p') : ProgressSound w r id p' := by
  unfold Progress.heartbeatAnswered at hok
  dsimp only at hok
  split at hok
  · obtain ⟨inflights, -, hok⟩ := Outcome.bind_eq_ok.mp hok
    obtain rfl := Outcome.pure_eq_ok.mp hok
    exact ⟨h.matched, h.next_pos, h.next_le, h.state⟩
  · obtain rfl := Outcome.pure_eq_ok.mp hok
    exact ⟨h.matched, h.next_pos, h.next_le, h.state⟩

/-- A batch that was read from the log moves `next` to its end at most. -/
theorem afterSending (h : ProgressSound w r id p) {es : List Entry}
    (hnum : Numbered 1 r.raftLog.logical) (hes : es <+: r.raftLog.logical.drop (p.next - 1))
    (hok : p.afterSending es = Except.ok p') : ProgressSound w r id p' := by
  unfold Progress.afterSending at hok
  split at hok
  · obtain rfl := Outcome.pure_eq_ok.mp hok
    exact h
  · rename_i last hlast
    have hindex : last.index ≤ r.raftLog.logical.length := by
      have hlen := hes.length_le
      rw [List.prefix_iff_eq_take.mp hes] at hlast
      have := ((hnum.drop (p.next - 1)).take es.length).getLast hlast
      simp only [List.length_take, List.length_drop] at this hlen
      have := h.next_pos
      have := h.next_le
      omega
    split at hok
    · obtain ⟨inflights, -, hok⟩ := Outcome.bind_eq_ok.mp hok
      obtain rfl := Outcome.pure_eq_ok.mp hok
      exact ⟨h.matched, Nat.succ_le_succ (Nat.zero_le _), Nat.succ_le_succ hindex, h.state⟩
    · obtain rfl := Outcome.pure_eq_ok.mp hok
      exact ⟨h.matched, h.next_pos, h.next_le, h.state⟩
    · cases hok

end ProgressSound

/-! ## Leading -/

/-- Node `i` leads and tracks the abstract world. -/
structure Leading (M : Membership) (w₀ : World Nat Entry) (i : Nat) (r : Raft) : Prop where
  tracks : Tracks M w₀ i r
  leader : r.state = RaftState.leader

theorem Sim.log_eq_llog (h : Sim M w i r) (hinv : Inv M.setting w)
    (hleader : r.state = RaftState.leader) : r.raftLog.logical = w.llog r.term := by
  have hlead := (h.leader hleader).lead
  rw [h.id, ← h.term] at hlead
  rw [← h.log, ← h.term, hinv.log_lead hlead]

theorem Sim.good (h : Sim M w i r) (hinv : Inv M.setting w) :
    Good M.setting w r.raftLog.logical := by
  have := hinv.log_good i
  rwa [h.log] at this

/-- Every entry of a node's log stems from the log of a leader. -/
theorem Sim.plain_log (h : Sim M w i r) (hinv : Inv M.setting w) :
    ∀ e ∈ r.raftLog.logical, M.Plain e := by
  intro e he
  rw [← h.log] at he
  obtain ⟨k, hk⟩ := List.getElem?_of_mem he
  refine h.plain _ e (((hinv.log_good i).anchored k e hk).1.subset ?_)
  exact List.mem_of_getElem? (i := k) (by rw [List.getElem?_take_of_lt (by omega), hk])

/-- Nobody has acknowledged more than the leader's log. -/
theorem Sim.ack_le (h : Sim M w i r) (hinv : Inv M.setting w)
    (hleader : r.state = RaftState.leader) (id : Nat) :
    w.ack id r.term ≤ r.raftLog.logical.length := by
  rw [h.log_eq_llog hinv hleader]
  exact hinv.ack_le id r.term

/-- What a node has committed is committed in its term. -/
theorem Sim.committed (h : Sim M w i r) (hinv : Inv M.setting w) :
    w.Committed M.setting r.term (r.raftLog.logical.take r.raftLog.committed) := by
  have := hinv.commit_ok i
  rwa [h.term, h.log, h.commit] at this

theorem Sim.committed_le (h : Sim M w i r) (hinv : Inv M.setting w) :
    r.raftLog.committed ≤ r.raftLog.logical.length := by
  have := hinv.commit_le i
  rwa [h.log, h.commit] at this

namespace Leading

theorem congr (h : Leading M w₀ i r) (hcore : r'.core = r.core) : Leading M w₀ i r' := by
  refine ⟨h.tracks.congr hcore, ?_⟩
  have : r'.state = r.state := by
    simp only [Raft.core, Prod.mk.injEq] at hcore
    exact hcore.2.2.2.2.2.2.1
  rw [this, h.leader]

theorem send (h : Leading M w₀ i r) (hsend : r.send m = Except.ok r')
    (hclaim : ∀ w, Inv M.setting w → w₀.Later w → Sim M w i r → Claims M w m.toId (r.signed m)) :
    Leading M w₀ i r' := by
  refine ⟨h.tracks.send hsend hclaim, ?_⟩
  rw [(Raft.send_eq_ok hsend).1]
  exact h.leader

theorem send_claimless (h : Leading M w₀ i r) (hsend : r.send m = Except.ok r')
    (hclaim : ∀ w m', m'.type = m.type → Claims M w m.toId m') : Leading M w₀ i r' :=
  h.send hsend fun w _ _ _ => hclaim w _ (Raft.signed_type r m)

/-- A change of one peer's progress. -/
theorem modify (h : Leading M w₀ i r) {id : Nat} {f : Progress → Progress}
    (hf : ∀ w, Inv M.setting w → w₀.Later w → Sim M w i r → ∀ p, r.getProgress id = some p →
      ProgressSound w r id (f p)) : Leading M w₀ i (r.modifyProgress id f) := by
  refine ⟨h.tracks.map fun w hinv hl hsim => ?_, h.leader⟩
  refine { hsim with voters := ?_, candidate := fun hs => ?_, leader := fun hs => ⟨?_, ?_, ?_⟩ }
  · rw [← hsim.voters]
    exact congrArg List.toFinset (IdMap.keys_modify id f r.prs)
  · have : r.state = RaftState.candidate := hs
    rw [h.leader] at this
    cases this
  · exact (hsim.leader hs).lead
  · exact (hsim.leader hs).own
  · intro a p hp
    rw [Raft.getProgress_modifyProgress] at hp
    split at hp
    · rename_i ha
      subst ha
      obtain ⟨q, hq, rfl⟩ := Option.map_eq_some_iff.mp hp
      exact { hf w hinv hl hsim q hq with }
    · exact { (hsim.leader hs).progress a p hp with }

/-! ## Replication -/

theorem sendEntries (h : Leading M w₀ i r) {toId : Nat} {pr : Progress} (hto : toId ≠ i)
    (hpr : r.getProgress toId = some pr) {es : List Entry}
    (hes : es <+: r.raftLog.logical.drop (pr.next - 1)) {sent : Bool}
    (hok : r.sendEntries toId pr (termAt r.raftLog.logical (pr.next - 1)) es =
      Except.ok (r', sent)) : Leading M w₀ i r' := by
  obtain ⟨pr', hpr', hok⟩ := Outcome.bind_eq_ok.mp hok
  obtain ⟨r₁, hsend, hok⟩ := Outcome.bind_eq_ok.mp hok
  simp only [Outcome.pure_eq_ok, Prod.mk.injEq] at hok
  obtain ⟨rfl, -⟩ := hok
  have hmod : Leading M w₀ i (r.modifyProgress toId fun _ => pr') :=
    h.modify fun w hinv hl hsim p _ =>
      ((hsim.leader h.leader).progress toId pr hpr).afterSending hsim.uncompacted.numbered hes hpr'
  refine hmod.send hsend fun w hinv hl hsim => ?_
  have hleads := hsim.leader h.leader
  have hlog : r.raftLog.logical = w.llog r.term := hsim.log_eq_llog hinv h.leader
  have hcomm : w.Committed M.setting r.term (r.raftLog.logical.take r.raftLog.committed) :=
    hsim.committed hinv
  have hle : r.raftLog.committed ≤ r.raftLog.logical.length := hsim.committed_le hinv
  have hnext := (hleads.progress toId pr' (by
    rw [Raft.getProgress_modifyProgress, if_pos rfl, hpr]; rfl))
  have hindex : pr.next - 1 ≤ r.raftLog.logical.length := by
    obtain ⟨w₁, -, -, -, hsim₁⟩ := h.tracks
    have := ((hsim₁.leader h.leader).progress toId pr hpr).next_le
    omega
  refine AppClaim.mk ?_ ?_ ?_ ?_ ?_ ?_ ?_
  · rw [Raft.signed_fromId, hsim.id]
    exact hto.symm
  · exact hleads.lead
  · exact hlog ▸ hindex
  · exact congrArg (termAt · (pr.next - 1)) hlog
  · exact hlog ▸ hes
  · exact hlog ▸ hle
  · exact hlog ▸ hcomm

theorem maybeSendAppend (h : Leading M w₀ i r) {toId : Nat} (hto : toId ≠ i) {sendIfEmpty sent : Bool}
    (hok : r.maybeSendAppend toId sendIfEmpty = Except.ok (r', sent)) : Leading M w₀ i r' := by
  rw [Raft.maybeSendAppend] at hok
  split at hok
  · cases hok
  rename_i pr hpr
  split at hok
  · simp only [Outcome.pure_eq_ok, Prod.mk.injEq] at hok
    exact hok.1 ▸ h
  obtain ⟨res, hres, hok⟩ := Outcome.bind_eq_ok.mp hok
  have hnext : 1 ≤ pr.next := by
    obtain ⟨w, -, -, -, hsim⟩ := h.tracks
    exact ((hsim.leader h.leader).progress toId pr hpr).next_pos
  obtain ⟨es, rfl, hes⟩ := h.tracks.uncompacted.entries hnext hres
  simp only [h.tracks.uncompacted.term] at hok
  split at hok
  · simp only [Outcome.pure_eq_ok, Prod.mk.injEq] at hok
    exact hok.1 ▸ h
  · exact h.sendEntries hto hpr hes hok

theorem sendAppend (h : Leading M w₀ i r) {toId : Nat} (hto : toId ≠ i)
    (hok : r.sendAppend toId = Except.ok r') : Leading M w₀ i r' := by
  obtain ⟨⟨r₁, sent⟩, h₁, hok⟩ := Outcome.bind_eq_ok.mp hok
  obtain rfl := Outcome.pure_eq_ok.mp hok
  exact h.maybeSendAppend hto h₁

theorem drainAppends {toId : Nat} (hto : toId ≠ i) :
    ∀ {fuel : Nat} {r : Raft}, Leading M w₀ i r →
      Raft.drainAppends toId fuel r = Except.ok r' → Leading M w₀ i r'
  | 0, _, _, hok => by cases hok
  | fuel + 1, r, h, hok => by
      rw [Raft.drainAppends] at hok
      obtain ⟨⟨r₁, sent⟩, h₁, hok⟩ := Outcome.bind_eq_ok.mp hok
      have hr₁ := h.maybeSendAppend hto h₁
      dsimp only at hok
      split at hok
      · exact drainAppends hto hr₁ hok
      · exact Outcome.pure_eq_ok.mp hok ▸ hr₁

theorem sendHeartbeat (h : Leading M w₀ i r) {toId : Nat} (hto : toId ≠ i) {ctx : Bytes}
    (hok : r.sendHeartbeat toId ctx = Except.ok r') : Leading M w₀ i r' := by
  rw [Raft.sendHeartbeat] at hok
  split at hok
  · cases hok
  rename_i pr hpr
  refine h.send hok fun w hinv hl hsim => ?_
  have hleads := hsim.leader h.leader
  have hmatched := (hleads.progress toId pr hpr).matched
  refine HeartbeatClaim.mk ?_ ?_ ?_ ?_
  · rw [Raft.signed_fromId, hsim.id]
    exact hto.symm
  · exact hleads.lead
  · exact (Nat.min_le_left _ _).trans hmatched
  · have hcomm := hsim.committed hinv
    rw [hsim.log_eq_llog hinv h.leader] at hcomm
    exact hcomm.of_isPrefix (List.take_prefix_take_left (Nat.min_le_right _ _))

/-- A loop over the peers keeps what each of its rounds keeps. -/
theorem forEachPeer (h : Leading M w₀ i r) {f : Raft → Nat → Outcome Raft}
    (hf : ∀ {r r' toId}, Leading M w₀ i r → toId ≠ i → f r toId = Except.ok r' →
      Leading M w₀ i r')
    (hok : r.forEachPeer f = Except.ok r') : Leading M w₀ i r' := by
  refine Outcome.foldlM_induct (P := Leading M w₀ i) (fun s s' id _ hs hround => ?_) h hok
  split at hround
  · exact Outcome.pure_eq_ok.mp hround ▸ hs
  · rename_i hid
    exact hf hs (by rwa [hs.tracks.id] at hid) hround

theorem bcastAppend (h : Leading M w₀ i r) (hok : r.bcastAppend = Except.ok r') :
    Leading M w₀ i r' :=
  h.forEachPeer (fun hr hto hs => hr.sendAppend hto hs) hok

theorem bcastHeartbeatWithCtx (h : Leading M w₀ i r) {ctx : Bytes}
    (hok : r.bcastHeartbeatWithCtx ctx = Except.ok r') : Leading M w₀ i r' :=
  h.forEachPeer (fun hr hto hs => hr.sendHeartbeat hto hs) hok

end Leading

/-! ## Committing -/

/-- A commit index that moves without the log changing, in the world and on the node. -/
theorem Sim.commitTo (h : Sim M w i r) (hinv : Inv M.setting w) {l : RaftLog} (hu : Uncompacted l)
    (hlogical : l.logical = r.raftLog.logical)
    (hl : w.Later { w with commit := Function.update w.commit i l.committed }) :
    Sim M { w with commit := Function.update w.commit i l.committed } i
      { r with raftLog := l } :=
  { h with
    uncompacted := hu
    log := by dsimp only; rw [hlogical, h.log]
    commit := by simp
    candidate := fun hs =>
      let c := h.candidate hs
      ⟨by dsimp only; rw [hlogical]; exact c.cand, c.lead, c.votes⟩
    leader := fun hs =>
      ⟨(h.leader hs).lead, by dsimp only; rw [hlogical]; exact (h.leader hs).own, fun id p hp =>
        let s := (h.leader hs).progress id p hp
        ⟨s.matched, s.next_pos, by dsimp only; rw [hlogical]; exact s.next_le, s.state⟩⟩
    msgs := fun m hm => (h.msgs m hm).mono hinv hl }

/-- Another representation of the same log. -/
theorem Sim.relog (h : Sim M w i r) (hinv : Inv M.setting w) {l : RaftLog} (hu : Uncompacted l)
    (hlogical : l.logical = r.raftLog.logical) (hc : l.committed = r.raftLog.committed) :
    Sim M w i { r with raftLog := l } := by
  have hsame : Function.update w.commit i l.committed = w.commit := by
    rw [hc, ← h.commit, Function.update_eq_self]
  have := h.commitTo hinv hu hlogical (by rw [hsame]; exact World.Later.refl w)
  rwa [hsame] at this

/-- The index that `maybe_commit` looks at is acknowledged by a majority. -/
theorem Sim.majority_acked (h : Sim M w i r) (hleader : r.state = RaftState.leader) {mci : Nat}
    (hmci : r.sortedMatches[r.sortedMatches.length - r.quorum]? = some mci)
    (hlen : r.quorum ≤ r.sortedMatches.length) (hpos : 0 < mci) :
    M.setting.Quorum {id | mci ≤ w.ack id r.term} := by
  have hkeys : r.sortedMatches =
      (r.prs.keys.map fun id => ((r.prs.lookup id).map Progress.matched).getD 0).insertionSort
        (· ≤ ·) := by
    rw [Raft.sortedMatches, ← IdMap.map_entries_eq_map_keys]
  have hlength : r.sortedMatches.length = r.prs.keys.length := by simp [hkeys]
  rw [hlength, hkeys, Raft.quorum] at hmci
  rw [hlength, Raft.quorum] at hlen
  have hmajority := majority_of_sorted (AList.keys_nodup r.prs) _ hmci hlen
  rw [h.voters] at hmajority
  refine hmajority.mono fun id hid => ?_
  have hid : mci ≤ ((r.prs.lookup id).map Progress.matched).getD 0 := hid
  cases hp : r.prs.lookup id with
  | none =>
      rw [hp] at hid
      exact absurd hid (Nat.not_le.mpr hpos)
  | some p =>
      have hget : r.getProgress id = some p := by simp [Raft.getProgress, hp]
      rw [hp] at hid
      exact Nat.le_trans hid ((h.leader hleader).progress id p hget).matched

namespace Leading

/-- **A leader commits what a majority has acknowledged**, if it ends in an entry of its term. -/
theorem maybeCommit (h : Leading M w₀ i r) {changed : Bool}
    (hok : r.maybeCommit = Except.ok (r', changed)) : Leading M w₀ i r' := by
  rw [Raft.maybeCommit] at hok
  split at hok
  · cases hok
  rename_i hlen
  split at hok
  · cases hok
  rename_i mci hmci
  obtain ⟨⟨l, c⟩, hcommit, hok⟩ := Outcome.bind_eq_ok.mp hok
  simp only [Outcome.pure_eq_ok, Prod.mk.injEq] at hok
  obtain ⟨rfl, -⟩ := hok
  rcases h.tracks.uncompacted.maybeCommit hcommit with rfl | ⟨hu, hlogical, hlt, hterm, hc⟩
  · exact h
  refine ⟨h.tracks.step fun w hinv hl hsim => ?_, h.leader⟩
  have hlead := (hsim.leader h.leader).lead
  have hlog := hsim.log_eq_llog hinv h.leader
  obtain ⟨k, e, hk, he, heterm⟩ := exists_of_termAt hterm (hsim.term_pos hinv)
  have hcert : w.Certified M.setting r.term mci := by
    refine ⟨by omega, ⟨e, ?_, heterm⟩, ?_⟩
    · rw [← hlog, hk, Nat.add_sub_cancel]
      exact he
    · exact hsim.majority_acked h.leader hmci (Nat.not_lt.mp hlen) (by omega)
  rw [hsim.id, ← hsim.term] at hlead
  rw [← hsim.term] at hcert
  have hstep : Step M.setting i w { w with commit := Function.update w.commit i mci } :=
    Step.commitLead mci hlead hcert (by rw [hsim.commit]; exact hlt)
  refine ⟨_, Relation.ReflTransGen.single hstep, ?_⟩
  rw [← hc] at hstep ⊢
  exact hsim.commitTo hinv hu hlogical (hstep.later hinv)

/-! ## Appending -/

theorem stampEntries_eq_map (t : Nat) : ∀ (index : Nat) (es : List Entry),
    ∀ e ∈ Raft.stampEntries t index es, e.term = t ∧ ∃ e' ∈ es, e.type = e'.type
  | _, [], e, he => by simp [Raft.stampEntries] at he
  | index, x :: es, e, he => by
      rw [Raft.stampEntries, List.mem_cons] at he
      rcases he with rfl | he
      · exact ⟨rfl, x, List.mem_cons_self .., rfl⟩
      · obtain ⟨ht, e', he', htype⟩ := stampEntries_eq_map t (index + 1) es e he
        exact ⟨ht, e', List.mem_cons_of_mem _ he', htype⟩

theorem stampEntries_numbered (t : Nat) : ∀ (index : Nat) (es : List Entry),
    Numbered index (Raft.stampEntries t index es)
  | index, [] => Numbered.nil index
  | index, _ :: es => Numbered.cons rfl (stampEntries_numbered t (index + 1) es)

/-- **A leader extends its own log by entries of its term.** -/
theorem appendLog (h : Leading M w₀ i r) {es : List Entry} {l : RaftLog} {last : Nat}
    (hes : ∀ e ∈ es, e.type ≠ EntryType.entryConfChange)
    (hok : r.raftLog.append (Raft.stampEntries r.term (r.raftLog.lastIndex + 1) es) =
      Except.ok (l, last)) :
    Leading M w₀ i ({ r with raftLog := l }.modifyProgress r.id fun p => (p.maybeUpdate last).1) := by
  have hlast := h.tracks.uncompacted.lastIndex
  rw [hlast] at hok
  set new := Raft.stampEntries r.term (r.raftLog.logical.length + 1) es with hnew
  obtain ⟨hu, hc, hlogical, rfl⟩ :=
    h.tracks.uncompacted.append_end (stampEntries_numbered _ _ _) hok
  have happended : Leading M w₀ i { r with raftLog := l } := by
    refine ⟨h.tracks.step fun w hinv hl hsim => ?_, h.leader⟩
    have hlead := (hsim.leader h.leader).lead
    rw [hsim.id, ← hsim.term] at hlead
    have hstep := Step.extend (S := M.setting) (w := w) new hlead fun e he =>
      (stampEntries_eq_map _ _ _ e he).1.trans hsim.term.symm
    have hlater := hstep.later hinv
    refine ⟨_, Relation.ReflTransGen.single hstep, ?_⟩
    have hlog : w.log i ++ new = l.logical := by rw [hsim.log, hlogical]
    rw [hlog] at hlater ⊢
    exact { hsim with
      uncompacted := hu
      log := by simp
      commit := by dsimp only; rw [hc, hsim.commit]
      candidate := fun hs => by
        have : r.state = RaftState.candidate := hs
        rw [h.leader] at this
        cases this
      leader := fun hs => ⟨(hsim.leader hs).lead, by simp [hsim.id, hsim.term], fun id p hp =>
        let s := (hsim.leader hs).progress id p hp
        ⟨s.matched.trans (hlater.ack id r.term), s.next_pos,
          s.next_le.trans (by dsimp only; rw [hlogical]; simp), s.state⟩⟩
      msgs := fun m hm => (hsim.msgs m hm).mono hinv hlater
      numbered := fun t => forall_update (P := fun _ ℓ => Numbered 1 ℓ) hu.numbered
        (fun t _ => hsim.numbered t) t
      plain := fun t => forall_update (P := fun _ ℓ => ∀ e ∈ ℓ, M.Plain e)
        (fun e he => by
          rw [hlogical, List.mem_append] at he
          rcases he with he | he
          · exact hsim.plain_log hinv e he
          · obtain ⟨-, e', he', htype⟩ := stampEntries_eq_map _ _ _ e he
            exact fun hconf => absurd (htype ▸ hconf) (hes e' he'))
        (fun t _ => hsim.plain t) t }
  refine happended.modify fun w hinv hl hsim p hp => ?_
  have hleads := hsim.leader h.leader
  exact (hleads.progress _ p hp).maybeUpdate hleads.own (hsim.ack_le hinv h.leader _)

/-- `append_entry`; a dropped proposal changes nothing. -/
theorem appendEntry (h : Leading M w₀ i r) {es : List Entry} {ok : Bool}
    (hes : ∀ e ∈ es, e.type ≠ EntryType.entryConfChange)
    (hok : r.appendEntry es = Except.ok (r', ok)) : Leading M w₀ i r' := by
  simp only [Raft.appendEntry, Raft.increaseUncommittedSize] at hok
  split at hok
  · simp only [Outcome.pure_eq_ok, Prod.mk.injEq] at hok
    exact hok.1 ▸ h
  rename_i r₁ hr₁
  split at hr₁
  · cases hr₁
  obtain rfl := Option.some.inj hr₁
  obtain ⟨⟨l, last⟩, happend, hok⟩ := Outcome.bind_eq_ok.mp hok
  dsimp only at hok
  split at hok
  · cases hok
  obtain ⟨⟨r₂, changed⟩, hcommit, hok⟩ := Outcome.bind_eq_ok.mp hok
  simp only [Outcome.pure_eq_ok, Prod.mk.injEq] at hok
  obtain ⟨rfl, -⟩ := hok
  have hcounted : Leading M w₀ i { r with
      uncommittedSize := r.uncommittedSize +
        Raft.payloadSum (Raft.stampEntries r.term (r.raftLog.lastIndex + 1) es) } :=
    h.congr rfl
  exact (hcounted.appendLog hes happend).maybeCommit hcommit

/-! ## The messages to a leader -/

theorem admitConfChanges_eq (lastIndex applied : Nat) : ∀ (k pending : Nat) (es : List Entry),
    (∀ e ∈ es, e.type ≠ EntryType.entryConfChange) →
      Raft.admitConfChanges lastIndex applied k pending es = (es, pending)
  | _, _, [], _ => rfl
  | k, pending, e :: es, h => by
      rw [Raft.admitConfChanges, if_neg (h e (List.mem_cons_self ..))]
      simp only [admitConfChanges_eq lastIndex applied (k + 1) pending es
        fun x hx => h x (List.mem_cons_of_mem _ hx)]

theorem stepLeaderProp (h : Leading M w₀ i r) {status : Status}
    (hm : ∀ e ∈ m.entries, e.type ≠ EntryType.entryConfChange)
    (hok : r.stepLeaderProp m = Except.ok (r', status)) : Leading M w₀ i r' := by
  rw [Raft.stepLeaderProp] at hok
  split at hok
  · cases hok
  split at hok
  · simp only [Outcome.pure_eq_ok, Prod.mk.injEq] at hok
    exact hok.1 ▸ h
  split at hok
  · simp only [Outcome.pure_eq_ok, Prod.mk.injEq] at hok
    exact hok.1 ▸ h
  rw [admitConfChanges_eq _ _ _ _ _ hm] at hok
  obtain ⟨⟨r₁, taken⟩, happend, hok⟩ := Outcome.bind_eq_ok.mp hok
  have hr₁ : Leading M w₀ i r₁ := Leading.appendEntry (h.congr rfl) hm happend
  dsimp only at hok
  split at hok
  · simp only [Outcome.pure_eq_ok, Prod.mk.injEq] at hok
    exact hok.1 ▸ hr₁
  · obtain ⟨r₂, hbcast, hok⟩ := Outcome.bind_eq_ok.mp hok
    simp only [Outcome.pure_eq_ok, Prod.mk.injEq] at hok
    exact hok.1 ▸ hr₁.bcastAppend hbcast

theorem respondRead (h : Leading M w₀ i r) {req : Message} {index : Nat}
    (hok : r.respondRead req index = Except.ok r') : Leading M w₀ i r' := by
  rw [Raft.respondRead] at hok
  split at hok
  · obtain ⟨ctx, -, hok⟩ := Outcome.bind_eq_ok.mp hok
    obtain rfl := Outcome.pure_eq_ok.mp hok
    exact h.congr rfl
  · exact h.send_claimless hok fun w m' ht => by simp only [Claims, ht]

theorem stepLeaderReadIndex (h : Leading M w₀ i r)
    (hok : r.stepLeaderReadIndex m = Except.ok r') : Leading M w₀ i r' := by
  rw [Raft.stepLeaderReadIndex] at hok
  split at hok
  · split at hok
    · exact Outcome.pure_eq_ok.mp hok ▸ h
    split at hok
    · obtain ⟨readOnly, -, hok⟩ := Outcome.bind_eq_ok.mp hok
      obtain ⟨ctx, -, hok⟩ := Outcome.bind_eq_ok.mp hok
      refine Leading.bcastHeartbeatWithCtx ?_ hok
      exact h.congr rfl
    · exact h.respondRead hok
  · obtain ⟨ctx, -, hok⟩ := Outcome.bind_eq_ok.mp hok
    obtain rfl := Outcome.pure_eq_ok.mp hok
    exact h.congr rfl

/-- Replace the progress of a peer by one that was computed from it. -/
theorem set (h : Leading M w₀ i r) {id : Nat} {p p' : Progress} (hp : r.getProgress id = some p)
    (hf : ∀ w, w₀.Later w → w.ack id r.term ≤ r.raftLog.logical.length →
      ProgressSound w r id p → ProgressSound w r id p') :
    Leading M w₀ i (r.modifyProgress id fun _ => p') :=
  h.modify fun w hinv hl hsim _ _ =>
    hf w hl (hsim.ack_le hinv h.leader id) ((hsim.leader h.leader).progress id p hp)

theorem stepRejected (h : Leading M w₀ i r) (hfrom : m.fromId ≠ i) {pr : Progress}
    (hpr : r.getProgress m.fromId = some pr)
    (hok : r.stepRejected m { pr with recentActive := true } = Except.ok r') :
    Leading M w₀ i r' := by
  simp only [Raft.stepRejected] at hok
  have hdecreased : ∀ w, w₀.Later w → w.ack m.fromId r.term ≤ r.raftLog.logical.length →
      ProgressSound w r m.fromId pr → ProgressSound w r m.fromId
        (({ pr with recentActive := true }).maybeDecreasesTo m.index m.rejectHint).1 :=
    fun w _ hack hsound => hsound.active.maybeDecreasesTo _ _ hack
  split at hok
  · refine Leading.sendAppend (h.set hpr fun w hl hack hsound => ?_) hfrom hok
    split
    · exact (hdecreased w hl hack hsound).becomeProbe hack
    · exact hdecreased w hl hack hsound
  · exact Outcome.pure_eq_ok.mp hok ▸ h.set hpr hdecreased

theorem sendAfterAck (h : Leading M w₀ i r) {id : Nat} (hid : id ≠ i) {committed oldPaused : Bool}
    (hok : r.sendAfterAck id committed oldPaused = Except.ok r') : Leading M w₀ i r' := by
  rw [Raft.sendAfterAck] at hok
  split at hok
  · exact h.bcastAppend hok
  split at hok
  · exact h.sendAppend hid hok
  · exact Outcome.pure_eq_ok.mp hok ▸ h

theorem sendTimeoutNow (h : Leading M w₀ i r) {id : Nat}
    (hok : r.sendTimeoutNow id = Except.ok r') : Leading M w₀ i r' :=
  h.send_claimless hok fun w m' ht => by simp only [Claims, ht]

theorem finishTransfer (h : Leading M w₀ i r) {id matched : Nat}
    (hok : r.finishTransfer id matched = Except.ok r') : Leading M w₀ i r' := by
  rw [Raft.finishTransfer] at hok
  split at hok
  · exact h.sendTimeoutNow hok
  · exact Outcome.pure_eq_ok.mp hok ▸ h

/-- **An acknowledgement** is one that the peer has given in this term. -/
theorem stepAcknowledged (h : Leading M w₀ i r) (hfrom : m.fromId ≠ i) {pr : Progress}
    (hpr : r.getProgress m.fromId = some pr) (hindex : m.index ≤ w₀.ack m.fromId r.term)
    (hok : r.stepAcknowledged m { pr with recentActive := true } = Except.ok r') :
    Leading M w₀ i r' := by
  simp only [Raft.stepAcknowledged] at hok
  have hupdated : ∀ w, w₀.Later w → w.ack m.fromId r.term ≤ r.raftLog.logical.length →
      ProgressSound w r m.fromId pr → ProgressSound w r m.fromId
        (({ pr with recentActive := true }).maybeUpdate m.index).1 :=
    fun w hl hack hsound => hsound.active.maybeUpdate (hindex.trans (hl.ack _ _)) hack
  split at hok
  · obtain ⟨pr', hpr', hok⟩ := Outcome.bind_eq_ok.mp hok
    obtain ⟨⟨r₁, committed⟩, hcommit, hok⟩ := Outcome.bind_eq_ok.mp hok
    obtain ⟨r₂, hsend, hok⟩ := Outcome.bind_eq_ok.mp hok
    obtain ⟨r₃, hdrain, hok⟩ := Outcome.bind_eq_ok.mp hok
    have hset := h.set hpr fun w hl hack hsound =>
      (hupdated w hl hack hsound).acknowledged hack hpr'
    exact ((((hset.maybeCommit hcommit).sendAfterAck hfrom hsend).drainAppends hfrom
      hdrain).finishTransfer hok)
  · exact Outcome.pure_eq_ok.mp hok ▸ h.set hpr hupdated

theorem stepAppResp (h : Leading M w₀ i r) {pr : Progress} (hpr : r.getProgress m.fromId = some pr)
    (hm : AckClaim w₀ i m) (hterm : m.term = r.term)
    (hok : r.stepAppResp m pr = Except.ok r') : Leading M w₀ i r' := by
  rw [Raft.stepAppResp] at hok
  split at hok
  · exact h.stepRejected hm.other hpr hok
  · rename_i hreject
    exact h.stepAcknowledged hm.other hpr (hterm ▸ hm.index (by simpa using hreject)) hok

theorem releaseReads (h : Leading M w₀ i r) (hok : r.releaseReads m = Except.ok r') :
    Leading M w₀ i r' := by
  simp only [Raft.releaseReads] at hok
  split at hok
  · exact Outcome.pure_eq_ok.mp hok ▸ h
  split at hok
  · obtain rfl := Outcome.pure_eq_ok.mp hok
    exact h.congr rfl
  · obtain ⟨⟨readOnly, rss⟩, -, hok⟩ := Outcome.bind_eq_ok.mp hok
    refine Outcome.foldlM_induct (P := Leading M w₀ i)
      (fun s s' rs _ hs hround => hs.respondRead hround) ?_ hok
    exact h.congr rfl

theorem stepHeartbeatResp (h : Leading M w₀ i r) (hfrom : m.fromId ≠ i) {pr : Progress}
    (hpr : r.getProgress m.fromId = some pr)
    (hok : r.stepHeartbeatResp m pr = Except.ok r') : Leading M w₀ i r' := by
  obtain ⟨pr', hpr', hok⟩ := Outcome.bind_eq_ok.mp hok
  obtain ⟨r₁, hsend, hok⟩ := Outcome.bind_eq_ok.mp hok
  have hset := h.set hpr fun w _ _ hsound => hsound.heartbeatAnswered hpr'
  refine Leading.releaseReads ?_ hok
  rw [Raft.sendIfBehind] at hsend
  split at hsend
  · exact hset.sendAppend hfrom hsend
  · exact Outcome.pure_eq_ok.mp hsend ▸ hset

theorem stepSnapStatus (h : Leading M w₀ i r) {pr : Progress}
    (hpr : r.getProgress m.fromId = some pr) : Leading M w₀ i (r.stepSnapStatus m pr) := by
  rw [Raft.stepSnapStatus, if_pos]
  · exact h
  · obtain ⟨w, -, -, -, hsim⟩ := h.tracks
    exact ((hsim.leader h.leader).progress _ _ hpr).state

theorem stepUnreachable (h : Leading M w₀ i r) {pr : Progress}
    (hpr : r.getProgress m.fromId = some pr) : Leading M w₀ i (r.stepUnreachable m pr) := by
  rw [Raft.stepUnreachable]
  split
  · exact h.set hpr fun w _ hack hsound => hsound.becomeProbe hack
  · exact h

theorem stepTransferLeader (h : Leading M w₀ i r) {pr : Progress}
    (hok : r.stepTransferLeader m pr = Except.ok r') : Leading M w₀ i r' := by
  simp only [Raft.stepTransferLeader] at hok
  split at hok
  · exact Outcome.pure_eq_ok.mp hok ▸ h
  split at hok
  · exact Outcome.pure_eq_ok.mp hok ▸ h
  split at hok
  · obtain rfl := Outcome.pure_eq_ok.mp hok
    exact h.congr rfl
  rename_i hself
  have hfrom : m.fromId ≠ i := fun heq => hself (heq.trans h.tracks.id.symm)
  split at hok
  · refine Leading.sendTimeoutNow ?_ hok
    exact h.congr rfl
  · refine Leading.sendAppend ?_ hfrom hok
    exact h.congr rfl

/-- The messages that concern a peer's progress. -/
theorem stepLeaderPeer (h : Leading M w₀ i r) {pr : Progress}
    (hpr : r.getProgress m.fromId = some pr) (hm : Claims M w₀ i m)
    (hterm : m.term = 0 ∨ m.term = r.term ∨ m.type = MessageType.msgPreVoteResp)
    (hok : r.stepLeaderPeer m pr = Except.ok r') : Leading M w₀ i r' := by
  rw [Raft.stepLeaderPeer] at hok
  split at hok
  · rename_i ht
    simp only [Claims, ht] at hm
    exact h.stepAppResp hpr hm ((hterm.resolve_left hm.term).resolve_right (by simp [ht])) hok
  · rename_i ht
    simp only [Claims, ht] at hm
    exact h.stepHeartbeatResp hm hpr hok
  · exact Outcome.pure_eq_ok.mp hok ▸ h.stepSnapStatus hpr
  · exact Outcome.pure_eq_ok.mp hok ▸ h.stepUnreachable hpr
  · exact h.stepTransferLeader hok
  · exact Outcome.pure_eq_ok.mp hok ▸ h

end Leading

end RaftKv
