import RaftKv.Cluster.Startup

/-!
# What holds in every run of a cluster

* `pullReady_sim` — dealing with a `Ready` is invisible to the abstract world.
* `Cluster.Follows` — a cluster and the abstract world it simulates.
* `Cluster.Follows.act` — **every action is followed by abstract steps**, unless it gives a granted
  pre-vote to a candidate.
* `electionSafety` — **a term has at most one leader in every run without such an action**.
* `stateMachineSafety` — **without pre-votes two nodes never commit different entries**.
-/

namespace RaftKv

open Replication

variable {C : ClusterConf} {w w' : World Nat Entry} {i : Nat} {n n' : RawNode}

/-! ## The process around a node -/

theorem Sim.readd {M : Membership} {r r' : Raft} (h : Sim M w i r) {id : Nat} (hid : id ∈ r.prs)
    (hok : r.addNodeOrLearner id false = Except.ok r') : Sim M w i r' := by
  obtain ⟨hframe, hkeys, hprogress⟩ := Raft.addNodeOrLearner_member hid hok
  have hvoters : r'.prs.keys.toFinset = M.voters := by
    rw [← h.voters]
    ext a
    simp only [List.mem_toFinset, hkeys a]
  rw [hframe] at hprogress ⊢
  exact { h with
    voters := hvoters
    candidate := fun hs => { h.candidate hs with }
    leader := fun hs => ⟨(h.leader hs).lead, (h.leader hs).own, fun a p' hp' => by
      obtain ⟨p, hp, hmatched, hnext, hstate⟩ := hprogress a p' hp'
      have hsound := (h.leader hs).progress a p hp
      exact ⟨hmatched ▸ hsound.matched, hnext ▸ hsound.next_pos, hnext ▸ hsound.next_le,
        hstate ▸ hsound.state⟩⟩ }

/-- The only configuration changes are those of the initial log, which enter the voters again. -/
theorem applyEntry_sim (h : Sim C.membership w i n.raft) {e : Entry} (he : C.membership.Plain e)
    (hok : applyEntry C.codec n e = Except.ok n') :
    Sim C.membership w i n'.raft ∧ n'.raft.raftLog = n.raft.raftLog := by
  rw [applyEntry] at hok
  split at hok
  · rename_i htype
    obtain ⟨-, peer, hpeer, hdata⟩ := mem_bootstrapEntries _ _ _ e (he htype)
    rw [hdata, C.unpack_pack peer hpeer] at hok
    obtain ⟨⟨n₁, cs⟩, happly, hok⟩ := Outcome.bind_eq_ok.mp hok
    obtain rfl := Outcome.pure_eq_ok.mp hok
    rw [RawNode.applyConfChange] at happly
    split at happly
    · simp only [Outcome.pure_eq_ok, Prod.mk.injEq] at happly
      exact happly.1 ▸ ⟨h, rfl⟩
    · obtain ⟨r, hr, happly⟩ := Outcome.bind_eq_ok.mp happly
      simp only [Outcome.pure_eq_ok, Prod.mk.injEq] at happly
      obtain ⟨rfl, -⟩ := happly
      have hid : peer.id ∈ n.raft.prs := by
        rw [AList.mem_keys, ← List.mem_toFinset, h.voters]
        exact List.mem_toFinset.mpr (List.mem_map_of_mem hpeer)
      exact ⟨h.readd hid hr, by rw [(Raft.addNodeOrLearner_member hid hr).1]⟩
  · obtain rfl := Outcome.pure_eq_ok.mp hok
    exact ⟨h, rfl⟩

/-- What is committed and not applied is part of the log. -/
theorem Uncompacted.nextEntries {l : RaftLog} (h : Uncompacted l)
    (hle : l.committed ≤ l.logical.length) {es : List Entry} (hok : l.nextEntries = Except.ok es) :
    ∀ e ∈ es, e ∈ l.logical := by
  rw [RaftLog.nextEntries] at hok
  split at hok
  · rename_i hlt
    have hlow : l.base + 1 ≤ l.nextOffset := by
      rw [RaftLog.nextOffset, RaftLog.firstIndex_eq]
      exact Nat.le_max_right _ _
    rw [RaftLog.slice_eq h.wf _ hlow (by omega) (by rw [h.base]; omega)] at hok
    obtain rfl := Outcome.pure_eq_ok.mp hok
    exact fun e he => List.mem_of_mem_drop (List.mem_of_mem_take
      ((entryLimitSize_isPrefix _ _).subset he))
  · obtain rfl := Outcome.pure_eq_ok.mp hok
    simp

/-- `advance` for a `Ready` whose entries the storage holds. -/
theorem Uncompacted.advanceLog {l : RaftLog} (h : Uncompacted l) (rd : Ready)
    (hheld : l.storage.entries.tail = l.logical) (hentries : rd.entries = l.unstable.entries)
    (hsnapshot : rd.snapshot.isEmpty = true) :
    Uncompacted (RawNode.advanceLog l rd) ∧ (RawNode.advanceLog l rd).logical = l.logical ∧
      (RawNode.advanceLog l rd).committed = l.committed := by
  have happlied : ∃ k, (if rd.appliedCursor > 0 then l.appliedTo rd.appliedCursor else l) =
      { l with applied := k } := by
    split
    · rw [RaftLog.appliedTo]
      split
      · exact ⟨l.applied, rfl⟩
      · exact ⟨_, rfl⟩
    · exact ⟨l.applied, rfl⟩
  obtain ⟨k, hk⟩ := happlied
  have hu := @Uncompacted.congr l { l with applied := k } h rfl rfl
  simp only [RawNode.advanceLog, hsnapshot, if_true, hk, hentries]
  cases hlast : l.unstable.entries.getLast? with
  | none => exact ⟨hu.1, hu.2, rfl⟩
  | some e =>
      have hstable := hu.1.stableTo (hheld.trans hu.2.symm) hlast
      exact ⟨hstable.1, hstable.2.trans hu.2, rfl⟩

/-- **Dealing with a `Ready` is invisible to the abstract world**, and the messages that are sent
claim the truth. -/
theorem pullReady_sim (hinv : Inv C.membership.setting w) (h : Sim C.membership w i n.raft)
    {sent : List Message} (hok : pullReady C.codec n = Except.ok (n', sent)) :
    Sim C.membership w i n'.raft ∧ ∀ m ∈ sent, Claims C.membership w m.toId m := by
  obtain ⟨⟨n₁, rd⟩, hready, hok⟩ := Outcome.bind_eq_ok.mp hok
  obtain ⟨storage, hstore, hok⟩ := Outcome.bind_eq_ok.mp hok
  obtain ⟨n₂, happly, hok⟩ := Outcome.bind_eq_ok.mp hok
  simp only [Outcome.pure_eq_ok, Prod.mk.injEq] at hok
  obtain ⟨rfl, rfl⟩ := hok
  obtain ⟨hnext, hentries, hsnapshot, hmsgs, hn₁⟩ := RawNode.ready_eq_ok hready
  rw [hmsgs]
  refine ⟨?_, h.msgs⟩
  have h₁ : Sim C.membership w i n₁.raft := by
    rw [hn₁]
    exact { h with
      msgs := fun m hm => by cases hm
      candidate := fun hs => { h.candidate hs with }
      leader := fun hs => { h.leader hs with
        progress := fun id p hp => { (h.leader hs).progress id p hp with } } }
  have hlog₁ : n₁.raft.raftLog = n.raft.raftLog := by rw [hn₁]; rfl
  -- the storage takes over the unstable tail
  rw [hentries, ← hlog₁] at hstore
  obtain ⟨hu, hheld, hlogical⟩ := h₁.uncompacted.store hstore
  have h₂ : Sim C.membership w i (n₁.setStorage storage).raft := h₁.relog hinv hu hlogical rfl
  -- the committed entries are applied
  have h₃ : Sim C.membership w i n₂.raft ∧
      n₂.raft.raftLog = (n₁.setStorage storage).raft.raftLog := by
    refine Outcome.foldlM_induct
      (P := fun s : RawNode => Sim C.membership w i s.raft ∧
        s.raft.raftLog = (n₁.setStorage storage).raft.raftLog)
      (fun s s' e he hs hround => ?_) ⟨h₂, rfl⟩ happly
    have hmem := h.uncompacted.nextEntries (h.committed_le hinv) hnext e he
    obtain ⟨hsim, hlog⟩ := applyEntry_sim hs.1 (h.plain_log hinv e hmem) hround
    exact ⟨hsim, hlog.trans hs.2⟩
  obtain ⟨h₃, hlog₃⟩ := h₃
  have hadvance := h₃.uncompacted.advanceLog rd
    (by rw [hlog₃]; exact hheld.trans hlogical.symm) (by rw [hlog₃, hentries, ← hlog₁]; rfl)
    (by rw [hsnapshot, h.uncompacted.unstable]; rfl)
  exact (h₃.relog hinv hadvance.1 hadvance.2.1 hadvance.2.2).congr rfl

/-! ## Every action -/

/-- The cluster `c` simulates the abstract world `w`. -/
structure Cluster.Follows (C : ClusterConf) (c : Cluster) (w : World Nat Entry) : Prop where
  inv : Inv C.membership.setting w
  nodes : ∀ i n, c.nodes i = some n → Sim C.membership w i n.raft
  net : ∀ m ∈ c.net, Claims C.membership w m.toId m
  numbered : ∀ t, Numbered 1 (w.llog t)
  plain : ∀ t, ∀ e ∈ w.llog t, C.membership.Plain e

/-- The action does not give a granted pre-vote of its term or a later one to a candidate. -/
def CleanAction (c : Cluster) (a : Action) : Prop :=
  ∀ k m n, a = Action.deliver k → c.net[k]? = some m → c.nodes m.toId = some n →
    CleanFor n.raft m

instance (r : Raft) (m : Message) : Decidable (CleanFor r m) :=
  inferInstanceAs (Decidable (_ → _ → _ → _ → _))

instance (c : Cluster) (a : Action) : Decidable (CleanAction c a) :=
  match a with
  | Action.deliver k =>
      match hm : c.net[k]? with
      | none => isTrue fun _ _ _ ha hm' _ => by cases ha; rw [hm] at hm'; cases hm'
      | some m =>
          match hn : c.nodes m.toId with
          | none => isTrue fun _ _ _ ha hm' hn' => by
              cases ha; rw [hm] at hm'; cases hm'; rw [hn] at hn'; cases hn'
          | some n => decidable_of_iff (CleanFor n.raft m)
              ⟨fun h _ _ _ ha hm' hn' => by
                cases ha; rw [hm] at hm'; cases hm'; rw [hn] at hn'; cases hn'; exact h,
              fun h => h k m n rfl hm hn⟩
  | Action.tick _ | Action.campaign _ | Action.propose _ _ | Action.readIndex _ _
  | Action.transferLeadership _ _ _ | Action.reportUnreachable _ _ | Action.reportSnapshot _ _ _
  | Action.pullReady _ => isTrue fun _ _ _ ha => by cases ha

namespace Cluster.Follows

variable {c c' : Cluster}

theorem init (h : Started C c) : c.Follows C (World.init C.membership.setting) where
  inv := Inv.init _
  nodes i n hn := start_sim (h.2 i n hn).1 (h.2 i n hn).2
  net := by simp [h.1]
  numbered t := by
    simp only [World.init]
    split
    · exact bootstrapEntries_numbered _ _ _
    · exact Numbered.nil _
  plain t e he := by
    simp only [World.init] at he
    split at he
    · exact fun _ => he
    · cases he

/-- An action of one node. -/
theorem onNode (h : c.Follows C w) {f : RawNode → Outcome (RawNode × List Message)}
    (hf : ∀ n n' sent, c.nodes i = some n → f n = Except.ok (n', sent) →
      ∃ w', Steps C.membership.setting i w w' ∧ Sim C.membership w' i n'.raft ∧
        ∀ m ∈ sent, Claims C.membership w' m.toId m)
    (hok : c.onNode i f = Except.ok c') :
    ∃ w', w.Later w' ∧ c'.Follows C w' := by
  rw [Cluster.onNode] at hok
  split at hok
  · obtain rfl := Outcome.pure_eq_ok.mp hok
    exact ⟨w, World.Later.refl w, h⟩
  rename_i n hn
  obtain ⟨⟨n', sent⟩, hn', hok⟩ := Outcome.bind_eq_ok.mp hok
  obtain rfl := Outcome.pure_eq_ok.mp hok
  obtain ⟨w', hsteps, hsim, hsent⟩ := hf n n' sent hn hn'
  obtain ⟨hinv, hlater⟩ := h.inv.steps hsteps
  refine ⟨w', hlater, hinv, fun j m hm => ?_, fun m hm => ?_, hsim.numbered, hsim.plain⟩
  · dsimp only at hm
    by_cases hj : j = i
    · subst hj
      rw [Function.update_self, Option.some.injEq] at hm
      exact hm ▸ hsim
    · rw [Function.update_of_ne hj] at hm
      exact (h.nodes j m hm).frame h.inv hj hsteps hlater hsim.numbered hsim.plain
  · rcases List.mem_append.mp hm with hm | hm
    · exact (h.net m hm).mono h.inv hlater
    · exact hsent m hm

/-- A call of one node. -/
theorem quiet (h : c.Follows C w) {f : RawNode → Outcome RawNode}
    (hf : ∀ n n', c.nodes i = some n → f n = Except.ok n' → Tracks C.membership w i n.raft →
      Tracks C.membership w i n'.raft)
    (hok : c.onNode i (Cluster.quiet f) = Except.ok c') : ∃ w', w.Later w' ∧ c'.Follows C w' := by
  refine h.onNode (fun n n' sent hn hq => ?_) hok
  obtain ⟨n₁, hn₁, hq⟩ := Outcome.bind_eq_ok.mp hq
  simp only [Outcome.pure_eq_ok, Prod.mk.injEq] at hq
  obtain ⟨rfl, rfl⟩ := hq
  obtain ⟨w', hsteps, -, -, hsim⟩ := hf n n₁ hn hn₁ (Tracks.refl h.inv (h.nodes i n hn))
  exact ⟨w', hsteps, hsim, fun m hm => by cases hm⟩

/-- A message for a node. -/
theorem stepRaft (h : Tracks C.membership w i n.raft) (hinv : Inv C.membership.setting w)
    {m : Message} {status : Status} (hm : Claims C.membership w i m) (hclean : CleanFor n.raft m)
    (hok : n.stepRaft m = Except.ok (n', status)) : Tracks C.membership w i n'.raft := by
  obtain ⟨⟨r, s⟩, hr, hok⟩ := Outcome.bind_eq_ok.mp hok
  simp only [Outcome.pure_eq_ok, Prod.mk.injEq] at hok
  obtain ⟨rfl, -⟩ := hok
  exact h.stepMessage hinv hm hclean hr

/-- A message of the process around the node. -/
theorem stepLocal (h : Tracks C.membership w i n.raft) (hinv : Inv C.membership.setting w)
    {m : Message} {status : Status} (hm : Claims C.membership w i m)
    (htype : m.type ≠ MessageType.msgPreVoteResp)
    (hok : n.stepRaft m = Except.ok (n', status)) : Tracks C.membership w i n'.raft :=
  stepRaft h hinv hm (fun _ ht => absurd ht htype) hok

theorem dropStatus {f : RawNode → Outcome (RawNode × Status)}
    (hf : ∀ {status}, f n = Except.ok (n', status) → Tracks C.membership w i n'.raft)
    (hok : Cluster.dropStatus f n = Except.ok n') : Tracks C.membership w i n'.raft := by
  obtain ⟨⟨n₁, status⟩, hn₁, hok⟩ := Outcome.bind_eq_ok.mp hok
  obtain rfl := Outcome.pure_eq_ok.mp hok
  exact hf hn₁

/-- **Every action is followed by abstract steps.** -/
theorem act (h : c.Follows C w) {a : Action} (hclean : CleanAction c a)
    (hok : c.act C.codec a = Except.ok c') : ∃ w', w.Later w' ∧ c'.Follows C w' := by
  cases a with
  | tick i =>
      refine h.quiet (fun n n' hn hq ht => ?_) hok
      obtain ⟨r, hr, hq⟩ := Outcome.bind_eq_ok.mp hq
      obtain rfl := Outcome.pure_eq_ok.mp hq
      exact ht.tick h.inv hr
  | campaign i =>
      exact h.quiet (fun n n' hn hq ht => dropStatus
        (fun hs => stepLocal ht h.inv (by simp only [Claims]) (by simp) hs) hq) hok
  | propose i data =>
      refine h.quiet (fun n n' hn hq ht => dropStatus
        (fun hs => stepLocal ht h.inv ?_ (by simp) hs) hq) hok
      simp [Claims]
  | readIndex i rctx =>
      exact h.quiet (fun n n' hn hq ht => dropStatus
        (fun hs => stepLocal ht h.inv (by simp only [Claims]) (by simp) hs) hq) hok
  | transferLeadership i lead transferee =>
      refine h.quiet (fun n n' hn hq ht => ?_) hok
      obtain ⟨⟨n₁, status⟩, hs, hq⟩ := Outcome.bind_eq_ok.mp hq
      obtain rfl := Outcome.pure_eq_ok.mp hq
      exact stepLocal ht h.inv (by simp only [Claims]) (by simp) hs
  | reportUnreachable i id =>
      refine h.quiet (fun n n' hn hq ht => ?_) hok
      obtain ⟨⟨n₁, status⟩, hs, hq⟩ := Outcome.bind_eq_ok.mp hq
      obtain rfl := Outcome.pure_eq_ok.mp hq
      exact stepLocal ht h.inv (by simp only [Claims]) (by simp) hs
  | reportSnapshot i id status =>
      refine h.quiet (fun n n' hn hq ht => ?_) hok
      obtain ⟨⟨n₁, status⟩, hs, hq⟩ := Outcome.bind_eq_ok.mp hq
      obtain rfl := Outcome.pure_eq_ok.mp hq
      exact stepLocal ht h.inv (by simp only [Claims]) (by simp) hs
  | deliver k =>
      simp only [Cluster.act] at hok
      split at hok
      · obtain rfl := Outcome.pure_eq_ok.mp hok
        exact ⟨w, World.Later.refl w, h⟩
      rename_i m hm
      refine h.quiet (fun n n' hn hq ht => dropStatus (fun hs => ?_) hq) hok
      rw [RawNode.step] at hs
      split at hs
      · simp only [Outcome.pure_eq_ok, Prod.mk.injEq] at hs
        exact hs.1 ▸ ht
      split at hs
      · exact stepRaft ht h.inv (h.net m (List.mem_of_getElem? hm)) (hclean k m n rfl hm hn) hs
      · simp only [Outcome.pure_eq_ok, Prod.mk.injEq] at hs
        exact hs.1 ▸ ht
  | pullReady i =>
      refine h.onNode (fun n n' sent hn hp => ?_) hok
      obtain ⟨hsim, hsent⟩ := pullReady_sim h.inv (h.nodes i n hn) hp
      exact ⟨w, Relation.ReflTransGen.refl, hsim, hsent⟩

/-- A run whose actions are clean. -/
theorem run (h : c.Follows C w) (hrun : RunWhere C CleanAction c c') :
    ∃ w', w.Later w' ∧ c'.Follows C w' := by
  induction hrun with
  | refl => exact ⟨w, World.Later.refl w, h⟩
  | step a _ ha hact ih =>
      obtain ⟨w₁, hl₁, h₁⟩ := ih
      obtain ⟨w₂, hl₂, h₂⟩ := h₁.act ha hact
      exact ⟨w₂, hl₁.trans hl₂, h₂⟩

end Cluster.Follows

/-! ## Election safety -/

/-- A leader is on record. -/
theorem Cluster.Follows.lead {c : Cluster} (h : c.Follows C w) {t : Nat} (hl : c.Leads i t) :
    w.lead t = some i := by
  obtain ⟨n, hn, hstate, rfl⟩ := hl
  have hsim := h.nodes i n hn
  have := (hsim.leader hstate).lead
  rwa [hsim.id] at this

/-- **Election safety**, in every run in which no candidate is given a granted pre-vote: two nodes
that are, or were, leaders of the same term are the same node. -/
theorem electionSafety {c₀ c₁ c₂ : Cluster} (hstart : Started C c₀)
    (h₁ : RunWhere C CleanAction c₀ c₁) (h₂ : RunWhere C CleanAction c₁ c₂) {i j t : Nat}
    (hi : c₁.Leads i t) (hj : c₂.Leads j t) : i = j := by
  obtain ⟨w₁, -, hf₁⟩ := (Cluster.Follows.init hstart).run h₁
  obtain ⟨w₂, hl, hf₂⟩ := hf₁.run h₂
  have hlead := hl.lead (hf₁.lead hi)
  rw [hf₂.lead hj] at hlead
  exact (Option.some.inj hlead).symm

/-- Node 1 wins both of its elections with the answers of node 3. -/
theorem electionSafety_threeNodes : ∃ c, RunWhere (ThreeNodes.conf true) CleanAction
    (ThreeNodes.start true) c ∧ c.Leads 1 2 ∧ ∀ j, c.Leads j 2 → 1 = j := by
  let acts : List Action := [Action.pullReady 1, Action.pullReady 3, Action.campaign 1,
    Action.pullReady 1, Action.deliver 0, Action.pullReady 3, Action.deliver 2,
    Action.pullReady 1, Action.deliver 3, Action.pullReady 3, Action.deliver 5]
  have hleads : ((acts.foldlM (RunWhere.exec (ThreeNodes.conf true) CleanAction)
      (ThreeNodes.start true)).toOption.any fun c => decide (c.Leads 1 2)) = true := by
    decide
  cases hrun : acts.foldlM (RunWhere.exec (ThreeNodes.conf true) CleanAction)
      (ThreeNodes.start true) with
  | error e => rw [hrun] at hleads; cases hleads
  | ok c =>
      rw [hrun] at hleads
      have hlead : c.Leads 1 2 := of_decide_eq_true hleads
      exact ⟨c, RunOf.of_exec hrun, hlead, fun j hj =>
        electionSafety (ThreeNodes.started true) (RunOf.of_exec hrun) (RunOf.refl c) hlead hj⟩

/-- **Two leaders of one term**: nodes 1 and 2 hold a pre-vote at the same time, and each is granted
two.  The first grant makes each of them a candidate of term 2; the second one, which carries that
term, is counted as a vote. -/
theorem electionSafety_fails : ¬ ∀ c₀ c₁ c₂, Started (ThreeNodes.conf true) c₀ →
    Run (ThreeNodes.conf true) c₀ c₁ → Run (ThreeNodes.conf true) c₁ c₂ →
      ∀ i j t, c₁.Leads i t → c₂.Leads j t → i = j := by
  intro hsafe
  let acts : List Action := [Action.pullReady 1, Action.pullReady 2, Action.pullReady 3,
    Action.campaign 1, Action.campaign 2, Action.pullReady 1, Action.pullReady 2,
    Action.deliver 0, Action.deliver 1, Action.deliver 2, Action.deliver 3,
    Action.pullReady 1, Action.pullReady 2, Action.pullReady 3,
    Action.deliver 4, Action.deliver 5, Action.deliver 6, Action.deliver 7]
  have hleads : ((acts.foldlM (RunWhere.exec (ThreeNodes.conf true) fun _ _ => True)
      (ThreeNodes.start true)).toOption.any fun c => decide (c.Leads 1 2 ∧ c.Leads 2 2)) = true := by
    decide
  cases hrun : acts.foldlM (RunWhere.exec (ThreeNodes.conf true) fun _ _ => True)
      (ThreeNodes.start true) with
  | error e => rw [hrun] at hleads; cases hleads
  | ok c =>
      rw [hrun] at hleads
      obtain ⟨h₁, h₂⟩ : c.Leads 1 2 ∧ c.Leads 2 2 := of_decide_eq_true hleads
      have := hsafe _ c c (ThreeNodes.started true) (RunOf.of_exec hrun) (RunOf.refl c) 1 2 2
        h₁ h₂
      omega

/-! ## State machine safety -/

/-- Without pre-votes there is no answer to one. -/
theorem Cluster.Follows.clean {c : Cluster} (h : c.Follows C w)
    (hpre : ∀ i, (C.conf i).preVote = false) (a : Action) : CleanAction c a := by
  intro k m n _ hm _ _ ht _ _
  have hclaim := h.net m (List.mem_of_getElem? hm)
  simp only [Claims, ht] at hclaim
  obtain ⟨⟨i, hi⟩, -⟩ := hclaim
  rw [hpre i] at hi
  cases hi

theorem Cluster.Follows.runAny {c c' : Cluster} (h : c.Follows C w)
    (hpre : ∀ i, (C.conf i).preVote = false) (hrun : Run C c c') :
    ∃ w', w.Later w' ∧ c'.Follows C w' := by
  induction hrun with
  | refl => exact ⟨w, World.Later.refl w, h⟩
  | step a _ _ hact ih =>
      obtain ⟨w₁, hl₁, h₁⟩ := ih
      obtain ⟨w₂, hl₂, h₂⟩ := h₁.act (h₁.clean hpre a) hact
      exact ⟨w₂, hl₁.trans hl₂, h₂⟩

/-- The entry that a log holds at an index. -/
def RaftLog.entryAt (l : RaftLog) (index : Nat) : Option Entry :=
  match l.slice index (index + 1) RaftLog.unlimited with
  | Except.ok (Except.ok [e]) => some e
  | _ => none

theorem Uncompacted.entryAt {l : RaftLog} (h : Uncompacted l) {index : Nat} (hpos : 1 ≤ index)
    (hle : index ≤ l.logical.length) : l.entryAt index = l.logical[index - 1]? := by
  have hslice := @RaftLog.slice_eq l h.wf index (index + 1) RaftLog.unlimited
    (by rw [h.base]; omega) (by omega) (by rw [h.base]; omega)
  have hlt : index - 1 < l.logical.length := by omega
  have hone : (l.logical.drop (index - 1)).take 1 = [l.logical[index - 1]] := by
    rw [List.drop_eq_getElem_cons hlt, List.take_succ_cons, List.take_zero]
  rw [h.base, Nat.zero_add, Nat.add_sub_cancel_left, hone] at hslice
  rw [RaftLog.entryAt, hslice, List.getElem?_eq_getElem hlt]
  rfl

/-- **State machine safety**: without pre-votes, in every run, any two nodes hold the same entry at
every index that both have committed. -/
theorem stateMachineSafety {c₀ c : Cluster} (hpre : ∀ i, (C.conf i).preVote = false)
    (hstart : Started C c₀) (hrun : Run C c₀ c) {a b : Nat} {na nb : RawNode}
    (ha : c.nodes a = some na) (hb : c.nodes b = some nb) {index : Nat} (hpos : 1 ≤ index)
    (hindex : index ≤ min na.raft.raftLog.committed nb.raft.raftLog.committed) :
    ∃ e, na.raft.raftLog.entryAt index = some e ∧ nb.raft.raftLog.entryAt index = some e := by
  obtain ⟨w, -, hf⟩ := (Cluster.Follows.init hstart).runAny hpre hrun
  have hsa := hf.nodes a na ha
  have hsb := hf.nodes b nb hb
  have hla := hsa.committed_le hf.inv
  have hlb := hsb.committed_le hf.inv
  rw [hsa.uncompacted.entryAt hpos (by omega), hsb.uncompacted.entryAt hpos (by omega)]
  have hta : (na.raft.raftLog.logical.take na.raft.raftLog.committed)[index - 1]? =
      na.raft.raftLog.logical[index - 1]? := List.getElem?_take_of_lt (by omega)
  have htb : (nb.raft.raftLog.logical.take nb.raft.raftLog.committed)[index - 1]? =
      nb.raft.raftLog.logical[index - 1]? := List.getElem?_take_of_lt (by omega)
  rw [← hta, ← htb]
  rcases hf.inv.committed_comparable (hsa.committed hf.inv) (hsb.committed hf.inv) with hp | hp
  · have hlt : index - 1 <
        (na.raft.raftLog.logical.take na.raft.raftLog.committed).length := by
      rw [List.length_take]
      omega
    have he := List.getElem?_eq_getElem hlt
    exact ⟨_, he, getElem?_of_isPrefix hp he⟩
  · have hlt : index - 1 <
        (nb.raft.raftLog.logical.take nb.raft.raftLog.committed).length := by
      rw [List.length_take]
      omega
    have he := List.getElem?_eq_getElem hlt
    exact ⟨_, getElem?_of_isPrefix hp he, he⟩

/-- Nodes 1 and 2 commit the first entry of term 2. -/
theorem stateMachineSafety_threeNodes : ∃ c na nb, Run (ThreeNodes.conf false)
    (ThreeNodes.start false) c ∧ c.nodes 1 = some na ∧ c.nodes 2 = some nb ∧
      ∃ e, na.raft.raftLog.entryAt 4 = some e ∧ nb.raft.raftLog.entryAt 4 = some e := by
  let acts : List Action := [Action.pullReady 1, Action.pullReady 2, Action.campaign 1,
    Action.pullReady 1, Action.deliver 1, Action.pullReady 2, Action.deliver 2,
    Action.pullReady 1, Action.deliver 4, Action.pullReady 2, Action.deliver 5,
    Action.pullReady 1, Action.deliver 6]
  have hcommitted : ((acts.foldlM (RunWhere.exec (ThreeNodes.conf false) fun _ _ => True)
      (ThreeNodes.start false)).toOption.any fun c =>
        (c.nodes 1).any (fun n => n.raft.raftLog.committed = 4) &&
        (c.nodes 2).any (fun n => n.raft.raftLog.committed = 4)) = true := by
    decide
  cases hrun : acts.foldlM (RunWhere.exec (ThreeNodes.conf false) fun _ _ => True)
      (ThreeNodes.start false) with
  | error e => rw [hrun] at hcommitted; cases hcommitted
  | ok c =>
      rw [hrun] at hcommitted
      simp only [Except.toOption, Option.any_some, Bool.and_eq_true, Option.any_eq_true,
        decide_eq_true_eq] at hcommitted
      obtain ⟨⟨na, ha, hca⟩, nb, hb, hcb⟩ := hcommitted
      exact ⟨c, na, nb, RunOf.of_exec hrun, ha, hb,
        stateMachineSafety (fun _ => rfl) (ThreeNodes.started false) (RunOf.of_exec hrun) ha hb
          (by omega) (by omega)⟩

end RaftKv
