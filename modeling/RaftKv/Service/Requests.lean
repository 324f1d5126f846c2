import RaftKv.Driver.PendingReady
import RaftKv.Raft.Origins
import RaftKv.Server.Incarnations
import RaftKv.Service.Agreement

/-!
# What the stores run was asked for

* `pullReady_stems` — a node that has its `Ready` dealt with is about nothing new, and has no proposal
  left to send.
* `Service.Sourced` — **the invariant**: whatever the logs of the nodes and the messages in flight
  are about was proposed by the raft thread of some replica.
* `Service.ran_requested` — **every command that a store runs is a request that a session has made**
  at one of the replicas.
-/

namespace RaftKv

open Replication RaftLog

/-! ## The node behind a replica -/

section Node

variable {K : Entry → Prop} {codec : ConfChangeCodec} {n n' : RawNode}

lemma Unstable.stableTo_subset (u : Unstable) (index term : Nat) :
    (u.stableTo index term).entries ⊆ u.entries := by
  rw [stableTo]
  split
  · exact List.Subset.refl _
  · split
    · exact List.drop_subset _ _
    · exact List.Subset.refl _

lemma Unstable.stableSnapTo_entries (u : Unstable) (index : Nat) :
    (u.stableSnapTo index).entries = u.entries := by
  rw [stableSnapTo]
  split
  · rfl
  · split
    · rfl
    · rfl

lemma Ready.settled_subset (rd : Ready) (u : Unstable) : (rd.settled u).entries ⊆ u.entries := by
  have hsnap : ∀ v : Unstable, (if rd.snapshot.isEmpty then v else
      v.stableSnapTo rd.snapshot.metadata.index).entries = v.entries := by
    intro v
    split
    · rfl
    · exact v.stableSnapTo_entries _
  simp only [settled, hsnap]
  split
  · exact u.stableTo_subset _ _
  · exact List.Subset.refl _

lemma RaftLog.advanceLog_held (l : RaftLog) (rd : Ready) :
    (RawNode.advanceLog l rd).held ⊆ l.held := by
  rw [Ready.advanceLog_eq]
  refine List.append_subset.mpr ⟨List.subset_append_left _ _, ?_⟩
  exact List.subset_append_of_subset_right _ (rd.settled_subset l.unstable)

lemma RaftLog.unstable_subset (l : RaftLog) : l.unstable.entries ⊆ l.logical := by
  rw [logical]
  split
  · exact List.Subset.refl _
  · exact List.subset_append_right _ _

lemma Raft.Regrouped.stems {r r' : Raft} (h : Regrouped r r') (hr : r.Stems K) : r'.Stems K := by
  have hlog : r'.raftLog = r.raftLog := by
    have := h.ledger
    simp only [Raft.ledger, Prod.mk.injEq] at this
    exact this.2.2.2.2.1
  exact hr.same (by rw [hlog]; exact List.Subset.refl _) h.sends.2

/-- A configuration change that is applied moves the members, and makes no proposal. -/
lemma applyEntry_deeds {e : Entry} (h : applyEntry codec n e = Except.ok n') :
    n' = n ∨ ∃ r, Raft.Regrouped n.raft r ∧
      Raft.Deeds { type := MessageType.msgHup } r n'.raft := by
  rw [applyEntry] at h
  split at h
  · split at h
    · exact Or.inl (Outcome.pure_eq_ok.mp h).symm
    · obtain ⟨⟨n₁, cs⟩, happly, h⟩ := Outcome.bind_eq_ok.mp h
      cases Outcome.pure_eq_ok.mp h
      rw [RawNode.applyConfChange] at happly
      split at happly
      · cases happly
        exact Or.inl rfl
      · obtain ⟨r, hr, happly⟩ := Outcome.bind_eq_ok.mp happly
        cases happly
        exact Or.inr (Raft.Deeds.changeMembers hr)
  · exact Or.inl (Outcome.pure_eq_ok.mp h).symm

lemma applyEntry_stems (hempty : ∀ e : Entry, e.type = EntryType.entryNormal → e.data = [] → K e)
    {e : Entry} (h : applyEntry codec n e = Except.ok n') (hn : n.raft.Stems K) :
    n'.raft.Stems K := by
  rcases applyEntry_deeds h with rfl | ⟨r, hgroup, hdeeds⟩
  · exact hn
  · exact hdeeds.stems_of_ne hempty (by simp) (fun ht => by cases ht) (hgroup.stems hn)

lemma applyEntry_forwards {e : Entry} (h : applyEntry codec n e = Except.ok n') :
    Raft.Forwards { type := MessageType.msgHup } n.raft n'.raft := by
  rcases applyEntry_deeds h with rfl | ⟨r, hgroup, hdeeds⟩
  · exact Raft.Forwards.none rfl
  · exact (Raft.Forwards.none hgroup.sends.2).trans hdeeds.forwards

/-- **A `Ready` that is dealt with** adds nothing to the log, sends what was queued, and leaves no
proposal behind. -/
theorem pullReady_stems
    (hempty : ∀ e : Entry, e.type = EntryType.entryNormal → e.data = [] → K e)
    {sent : List Message} (h : pullReady codec n = Except.ok (n', sent)) (hn : n.raft.Stems K) :
    n'.raft.Stems K ∧ sent = n.raft.msgs ∧
      ∀ msg ∈ n'.raft.msgs, msg.type ≠ MessageType.msgProp := by
  obtain ⟨⟨n₁, rd⟩, hready, h⟩ := Outcome.bind_eq_ok.mp h
  obtain ⟨storage, hstore, h⟩ := Outcome.bind_eq_ok.mp h
  obtain ⟨n₂, happly, h⟩ := Outcome.bind_eq_ok.mp h
  simp only [Outcome.pure_eq_ok, Prod.mk.injEq] at h
  obtain ⟨rfl, rfl⟩ := h
  obtain ⟨-, hentries, -, hmsgs, hn₁⟩ := RawNode.ready_eq_ok hready
  have hlog₁ : n₁.raft.raftLog = n.raft.raftLog := by rw [hn₁]; rfl
  have hmsgs₁ : (n₁.setStorage storage).raft.msgs = [] := by
    show n₁.raft.msgs = []
    rw [hn₁]
    rfl
  have hstored : (n₁.setStorage storage).raft.Stems K := by
    refine ⟨fun e he => ?_, fun m hm => by rw [hmsgs₁] at hm; cases hm⟩
    rcases List.mem_append.mp (setStorage_held hstore he) with he | he
    · rw [hlog₁] at he
      exact hn.log e he
    · rw [hentries] at he
      exact hn.log e (List.subset_append_right _ _ he)
  have happlied : n₂.raft.Stems K ∧
      Raft.Forwards { type := MessageType.msgHup } (n₁.setStorage storage).raft n₂.raft := by
    refine Outcome.foldlM_induct (P := fun s : RawNode => s.raft.Stems K ∧
        Raft.Forwards { type := MessageType.msgHup } (n₁.setStorage storage).raft s.raft)
      (fun s s' e _ hs hround => ?_) ⟨hstored, Raft.Forwards.none rfl⟩ happly
    exact ⟨applyEntry_stems hempty hround hs.1, hs.2.trans (applyEntry_forwards hround)⟩
  refine ⟨happlied.1.same (advanceLog_held _ rd) rfl, hmsgs, fun msg hmsg ht => ?_⟩
  obtain ⟨more, hmore, hnone⟩ := happlied.2
  have hmem : msg ∈ n₂.raft.msgs := hmsg
  rw [hmore, hmsgs₁, List.nil_append] at hmem
  cases (hnone msg hmem ht).1

lemma type_bootstrapEntries (pack : ConfChange → Bytes) (index : Nat) (peers : List PeerContext) :
    ∀ e ∈ RawNode.bootstrapEntries pack index peers, e.type = EntryType.entryConfChange := by
  induction peers generalizing index with
  | nil => exact fun _ he => by cases he
  | cons peer peers ih => exact List.forall_mem_cons.mpr ⟨rfl, ih (index + 1)⟩

end Node

/-! ## The service -/

namespace Service

variable {S : ServiceConf} {c c' c₀ : Service} {w : World Nat Entry} {i : Nat} {s s' : Replica}
  {sent : List Message}

/-- The raft thread of some replica has proposed it. -/
def Proposed (c : Service) (data : Bytes) : Prop :=
  ∃ j r, c.replicas j = some r ∧ ∃ x ∈ r.threads.proposed, x.proposal.data = data

/-- An entry that is not empty and changes no configuration was proposed. -/
def Known (c : Service) (e : Entry) : Prop :=
  e.type = EntryType.entryNormal → e.data = [] ∨ c.Proposed e.data

lemma known_empty (e : Entry) (_ : e.type = EntryType.entryNormal) (h : e.data = []) : c.Known e :=
  fun _ => Or.inl h

/-- What a leader makes of known entries is known. -/
lemma known_stamped {r : Raft} {es : List Entry} (hes : ∀ e ∈ es, c.Known e) :
    ∀ e ∈ r.stamped es, c.Known e := by
  intro e he
  rcases Raft.mem_stamped he with ⟨htype, hdata⟩ | ⟨x, hx, htype, hdata⟩
  · exact known_empty e htype hdata
  · intro ht
    rw [hdata]
    exact hes x hx (htype.symm.trans ht)

/-- What holds of a node. -/
structure SourcedNode (c : Service) (r : Raft) : Prop where
  stems : r.Stems c.Known
  proposals : ∀ m ∈ r.msgs, m.Proposes c.Known

/-- What holds of the logs and of the messages in flight. -/
structure Sourced (c : Service) : Prop where
  nodes : ∀ i s, c.replicas i = some s → c.SourcedNode s.proc.node.raft
  batches : ∀ m ∈ c.net, m.Stems c.Known
  proposals : ∀ m ∈ c.net, m.Proposes c.Known

lemma Onward.known (h : Onward S c c') (e : Entry) (he : c.Known e) : c'.Known e := by
  intro ht
  rcases he ht with hnil | ⟨j, r, hr, x, hx, hdata⟩
  · exact Or.inl hnil
  · obtain ⟨r', hr', hfeeds⟩ := h j r hr
    exact Or.inr ⟨j, r', hr', x, hfeeds.grows.proposed.subset hx, hdata⟩

lemma SourcedNode.onward {r : Raft} (h : c.SourcedNode r) (honward : Onward S c c') :
    c'.SourcedNode r where
  stems := h.stems.mono honward.known
  proposals m hm := (h.proposals m hm).mono honward.known

/-- A replica has done something. -/
lemma Sourced.put (h : c.Sourced) (honward : Onward S c (c.put i s' sent))
    (hnode : (c.put i s' sent).SourcedNode s'.proc.node.raft)
    (hsent : ∀ m ∈ sent, m.Stems (c.put i s' sent).Known ∧ m.Proposes (c.put i s' sent).Known) :
    (c.put i s' sent).Sourced where
  nodes j r hr := by
    rcases replicas_put hr with ⟨-, rfl⟩ | ⟨-, hr⟩
    · exact hnode
    · exact (h.nodes j r hr).onward honward
  batches m hm := by
    rcases List.mem_append.mp hm with hm | hm
    · exact (h.batches m hm).mono honward.known
    · exact (hsent m hm).1
  proposals m hm := by
    rcases List.mem_append.mp hm with hm | hm
    · exact (h.proposals m hm).mono honward.known
    · exact (hsent m hm).2

/-- A call with a message whose entries are known. -/
lemma SourcedNode.deeds {r r' : Raft} {m : Message} (h : c.SourcedNode r) (hbatch : m.Stems c.Known)
    (hprop : m.Proposes c.Known) (hdeeds : Raft.Deeds m r r') : c.SourcedNode r' where
  stems := by
    refine hdeeds.stems (fun s es hes => known_stamped ?_) hbatch h.stems
    rcases hes with rfl | ⟨ht, rfl⟩
    · exact List.forall_mem_singleton.mpr fun _ => Or.inl rfl
    · exact hprop ht
  proposals := hdeeds.forwards.proposes hprop h.proposals

/-- A message that a node is stepped with. -/
lemma SourcedNode.stepRaft {n n' : RawNode} {m : Message} {status : Status}
    (h : c.SourcedNode n.raft) (hbatch : m.Stems c.Known) (hprop : m.Proposes c.Known)
    (hterm : m.term = 0 → m.type ≠ MessageType.msgApp ∧ m.type ≠ MessageType.msgHeartbeat ∧
      m.type ≠ MessageType.msgSnap)
    (hstep : n.stepRaft m = Except.ok (n', status)) : c.SourcedNode n'.raft := by
  obtain ⟨⟨r, s⟩, hr, hstep⟩ := Outcome.bind_eq_ok.mp hstep
  cases Outcome.pure_eq_ok.mp hstep
  exact h.deeds hbatch hprop (Raft.Deeds.step hterm hr)

/-- **One action keeps it.** -/
theorem Sourced.act (h : c.Sourced) (hu : c.Upheld S w) {a : Action} (ha : c.Steady a)
    (hact : c.act S a = Except.ok c') : c'.Sourced := by
  have honward := (hu.act ha hact).onward
  rcases act_cases hact with rfl | ⟨i, s, s', sent, hs, hdoes, rfl⟩
  · exact h
  have hnone : ∀ m ∈ ([] : List Message), m.Stems (c.put i s' []).Known ∧
      m.Proposes (c.put i s' []).Known := fun m hm => by cases hm
  have hs₀ := (h.nodes i s hs).onward honward
  cases hdoes with
  | tick hq =>
      obtain ⟨node, hnode, hq⟩ := Outcome.bind_eq_ok.mp hq
      cases Outcome.pure_eq_ok.mp hq
      obtain ⟨r, hr, hnode⟩ := Outcome.bind_eq_ok.mp hnode
      cases Outcome.pure_eq_ok.mp hnode
      refine h.put honward (hs₀.deeds (m := { type := MessageType.msgHup }) ?_ ?_
        (Raft.Deeds.tick hr)) hnone
      · exact fun ht => by cases ht
      · exact fun ht => by cases ht
  | @deliver k m _ hm hto hq =>
      subst hto
      obtain ⟨⟨node, status⟩, hnode, hq⟩ := Outcome.bind_eq_ok.mp hq
      cases Outcome.pure_eq_ok.mp hq
      refine h.put honward ?_ hnone
      have hmem := List.mem_of_getElem? hm
      rw [RawNode.step] at hnode
      split at hnode
      · cases hnode
        exact hs₀
      split at hnode
      · exact hs₀.stepRaft ((h.batches m hmem).mono honward.known)
          ((h.proposals m hmem).mono honward.known)
          ((hu.follows.net m hmem).stamped hu.follows.inv) hnode
      · cases hnode
        exact hs₀
  | propose hq =>
      rw [Replica.propose] at hq
      split at hq
      · cases Outcome.pure_eq_ok.mp hq
        exact h.put honward hs₀ hnone
      rename_i x queue hqueue
      obtain ⟨⟨node, status⟩, hnode, hq⟩ := Outcome.bind_eq_ok.mp hq
      obtain ⟨threads, hthreads, hq⟩ := Outcome.bind_eq_ok.mp hq
      cases Outcome.pure_eq_ok.mp hq
      refine h.put honward (hs₀.stepRaft (fun ht => by cases ht) (fun _ => ?_) (by simp) hnode) hnone
      -- the proposal is on record
      rw [Process.act, hqueue] at hthreads
      cases Outcome.pure_eq_ok.mp hthreads
      have hx : x ∈ s.threads.proposed ++ [x] := List.mem_append_right _ (List.mem_singleton_self x)
      exact List.forall_mem_singleton.mpr fun _ =>
        Or.inr ⟨i, _, Function.update_self .., x, hx, rfl⟩
  | handleReady hq =>
      obtain ⟨-, -, ⟨rfl, rfl⟩ | hpull⟩ := (hu.replicas i s hs).handleReady hu.follows.inv
        (hu.follows.nodes i _ (nodes_cluster hs)) (ha s hs) hq
      · exact h.put honward hs₀ hnone
      · obtain ⟨hnode, rfl, hleft⟩ := pullReady_stems known_empty hpull hs₀.stems
        refine h.put honward ⟨hnode, fun m hm ht => absurd ht (hleft m hm)⟩ fun m hm => ?_
        exact ⟨hs₀.stems.msgs m hm, hs₀.proposals m hm⟩
  | set hq | del hq | runStore hq =>
      obtain ⟨threads, -, hq⟩ := Outcome.bind_eq_ok.mp hq
      cases Outcome.pure_eq_ok.mp hq
      exact h.put honward hs₀ hnone

/-- Nothing but the entries that enter the peers is there at the start, and nothing is queued. -/
lemma Started.blank (h : Started S c) (hs : c.replicas i = some s) :
    s.proc.node.raft.msgs = [] ∧ ∀ e ∈ s.proc.log.held,
      e.type = EntryType.entryNormal → e.data = [] := by
  have hu := h.upheld
  obtain ⟨-, size, hboot⟩ := h.2 i s hs
  obtain ⟨hstart, -, -, -, hstorage⟩ := start_node hboot
  refine ⟨boots_msgs (Or.inr ⟨_, hstart⟩), fun e he ht => ?_⟩
  have hsim := hu.follows.nodes i _ (nodes_cluster hs)
  have hlogical : s.proc.log.logical = S.clusterConf.membership.boot := hsim.log.symm
  rcases List.mem_append.mp he with he | he
  · rw [show s.proc.log.storage = {} from hstorage] at he
    rw [List.mem_singleton.mp he]
  · have hboots := unstable_subset s.proc.log he
    rw [hlogical] at hboots
    cases (type_bootstrapEntries _ _ _ e hboots).symm.trans ht

lemma Started.sourced (h : Started S c) : c.Sourced := by
  have hnet : ∀ {P : Message → Prop}, ∀ m ∈ c.net, P m := by
    intro P m hm
    rw [h.1] at hm
    cases hm
  refine ⟨fun i s hs => ?_, hnet, hnet⟩
  obtain ⟨hmsgs, hlog⟩ := h.blank hs
  refine ⟨⟨fun e he ht => Or.inl (hlog e he ht), ?_⟩, ?_⟩
  · rw [hmsgs]
    exact fun m hm => by cases hm
  · rw [hmsgs]
    exact fun m hm => by cases hm

lemma Sourced.run (h : c₀.Sourced) (hu : c₀.Upheld S w)
    (hrun : RunOf (Service.act S) Steady c₀ c) :
    c.Sourced := by
  induction hrun with
  | refl => exact h
  | step a hrun ha hact ih =>
      obtain ⟨⟨w₁, -, hu₁⟩, -⟩ := hu.run hrun
      exact ih.act hu₁ ha hact

/-- What a store has run lies in the log, in this order. -/
lemma Upheld.ran_sublist (hu : c.Upheld S w) (hs : c.replicas i = some s) :
    s.ran.Sublist s.proc.log.logical ∧ ∀ e ∈ s.ran, e.type = EntryType.entryNormal ∧ e.data ≠ [] := by
  have hsim := hu.follows.nodes i _ (nodes_cluster hs)
  have hcmds : s.ran.Sublist s.proc.readCommits := List.take_sublist ..
  rw [RaftNode.readCommits_of_storeTasks
    ((hu.replicas i s hs).storeTasks_eq hu.follows.inv hsim)] at hcmds
  refine ⟨hcmds.trans (List.filter_sublist.trans (List.take_sublist ..)), fun e he => ?_⟩
  have hcommand := List.of_mem_filter (hcmds.subset he)
  simpa only [Bool.and_eq_true, beq_iff_eq, bne_iff_ne] using hcommand

/-- What a store runs was proposed. -/
lemma Sourced.ran (h : c.Sourced) (hu : c.Upheld S w) (hs : c.replicas i = some s) {e : Entry}
    (he : e ∈ s.ran) : c.Proposed e.data := by
  obtain ⟨hsublist, hcommands⟩ := hu.ran_sublist hs
  obtain ⟨htype, hdata⟩ := hcommands e he
  have hheld := logical_subset s.proc.log (hsublist.subset he)
  exact ((h.nodes i s hs).stems.log e hheld htype).resolve_left hdata

/-- What was proposed is a packed request of the replica. -/
lemma Upheld.proposed (hu : c.Upheld S w) (hs : c.replicas i = some s) {x : Process.Posted}
    (hx : x ∈ s.threads.proposed) : ∃ data, s.threads.requests[x.origin]? = some data ∧
      x.proposal.data =
        S.codecs.commit.pack ⟨UInt32.ofNat i, UInt32.ofNat x.origin, data⟩ := by
  obtain ⟨hattr, -, hnode⟩ := (hu.feeds i s hs).booked
  obtain ⟨data, hdata, hbytes⟩ := hattr.proposed x hx
  rw [show s.fed.process = s.threads from rfl] at hnode hbytes
  exact ⟨data, hdata, hnode ▸ hbytes⟩

/-- **Every command that a store runs was asked for**, in a steady run without a second start: it is a
request that a session has made at some replica, packed by that replica under its own id and the
number of the request. -/
theorem ran_requested (hstart : Started S c₀) (hrun : RunOf (act S) Steady c₀ c)
    (hs : c.replicas i = some s) {e : Entry} (he : e ∈ s.ran) :
    ∃ j r n data, c.replicas j = some r ∧ r.threads.requests[n]? = some data ∧
      e.data = S.codecs.commit.pack ⟨UInt32.ofNat j, UInt32.ofNat n, data⟩ := by
  obtain ⟨⟨w, -, hu⟩, -⟩ := hstart.upheld.run hrun
  obtain ⟨j, r, hr, x, hx, hdata⟩ := (hstart.sourced.run hstart.upheld hrun).ran hu hs he
  obtain ⟨data, hreq, hbytes⟩ := hu.proposed hr hx
  exact ⟨j, r, x.origin, data, hr, hreq, hdata.symm.trans hbytes⟩

/-- Replica 2 has run what was asked for at replica 1. -/
theorem ran_requested_three : ∃ (c : Service) (s : Replica) (e : Entry),
    RunOf (act ThreeReplicas.conf) Steady ThreeReplicas.start c ∧ c.replicas 2 = some s ∧
    s.threads.requests = [] ∧ e ∈ s.ran ∧ ∃ j r n data, c.replicas j = some r ∧
      r.threads.requests[n]? = some data ∧
      e.data = commitCodec.pack ⟨UInt32.ofNat j, UInt32.ofNat n, data⟩ := by
  have hreached : (((ThreeReplicas.elect ++ ThreeReplicas.write ++ ThreeReplicas.follow).foldlM
      (RunOf.exec (act ThreeReplicas.conf) Steady) ThreeReplicas.start).toOption.any fun c =>
        (c.replicas 2).any fun s => s.threads.requests = [] ∧ s.ran ≠ []) = true := by
    decide +kernel
  obtain ⟨c, hc, hreached⟩ := (Option.any_eq_true ..).mp hreached
  obtain ⟨s, hs, hran⟩ := (Option.any_eq_true ..).mp hreached
  obtain ⟨hnone, hran⟩ := of_decide_eq_true hran
  obtain ⟨e, he⟩ := List.exists_mem_of_ne_nil _ hran
  have hrun : RunOf (act ThreeReplicas.conf) Steady ThreeReplicas.start c :=
    RunOf.of_exec (Outcome.eq_ok_of_toOption hc)
  exact ⟨c, s, e, hrun, hs, hnone, he, ran_requested ThreeReplicas.started hrun hs he⟩

end Service

end RaftKv
