import RaftKv.Driver.Monotone
import RaftKv.Leader.ReadRoutes

/-!
# Read requests in a cluster

Processes that are started, and started again, with any configuration; the members change as they
apply it.  A message stays in the network, and may be delivered at any time.

* `Fleet.act` — what can happen.
* `Fleet.Routed` — no request that was passed on is passed on again, nor answered by the only voter.
* `Fleet.Owes` — read states, pending requests and messages belong to the nodes that asked.
* `Fleet.reads_routed` — **in every run of routed actions a read state is on the node that asked, and a
  request of another node is answered to that node**.
-/

namespace RaftKv

/-- The processes of a cluster, every message they have handed out, and what `read_index` was called
with on which node. -/
structure Fleet where
  nodes : Nat → Option Driver := fun _ => none
  net : List Message := []
  asked : List (Nat × Bytes) := []

/-- The read request that a call makes. -/
def Call.asks (i : Nat) : Call → List (Nat × Bytes)
  | Call.readIndex rctx => [(i, rctx)]
  | _ => []

namespace Fleet

inductive Action where
  /-- Start a process, with the peers of a new cluster or from its storage. -/
  | boot (conf : Config) (peers : Option (List PeerContext))
  | call (i : Nat) (c : Call)
  /-- Deliver the `k`-th message. -/
  | deliver (k : Nat)

def onDriver (pack : ConfChange → Bytes) (f : Fleet) (i : Nat) (c : Call) : Outcome Fleet :=
  match f.nodes i with
  | none => pure f
  | some d => do
      let d' ← d.act pack c
      return {
        nodes := Function.update f.nodes i (some d')
        net := f.net ++ (d'.handed.drop d.handed.length).flatMap Ready.messages
        asked := f.asked ++ c.asks i }

def bootNode (pack : ConfChange → Bytes) (conf : Config) :
    Option (List PeerContext) → Outcome RawNode
  | none => RawNode.restart conf
  | some peers => RawNode.start pack conf peers

/-- A process checks its configuration.  Messages are those of the network only. -/
def act (pack : ConfChange → Bytes) (f : Fleet) : Action → Outcome Fleet
  | Action.boot conf peers => do
      let (conf, status) := conf.validate
      if status ≠ Status.ok then throw (Crash.fatal s!"invalid configure {status.toText}")
      let n ← bootNode pack conf peers
      return { f with nodes := Function.update f.nodes conf.id (some { node := n }) }
  | Action.call _ (Call.step _) => pure f
  | Action.call i c => f.onDriver pack i c
  | Action.deliver k =>
      match f.net[k]? with
      | none => pure f
      | some m => f.onDriver pack m.toId (Call.step m)

/-- A request of another node is delivered neither to a follower that would pass it on, nor to a
leader that is the only voter. -/
def Routed (f : Fleet) : Action → Prop
  | Action.deliver k =>
      ∀ m ∈ f.net[k]?, ∀ d ∈ f.nodes m.toId, d.node.raft.Routes m
  | _ => True

instance (f : Fleet) : (a : Action) → Decidable (f.Routed a)
  | Action.deliver k => inferInstanceAs (Decidable (∀ m ∈ f.net[k]?, ∀ d ∈ f.nodes m.toId, _))
  | Action.boot _ _ | Action.call _ _ => inferInstanceAs (Decidable True)

/-- The node asked for a read with this context. -/
def Asked (f : Fleet) (i : Nat) (ctx : Bytes) : Prop := (i, ctx) ∈ f.asked

/-- What has to do with reads belongs to nodes that asked. -/
structure Owes (f : Fleet) : Prop where
  node : ∀ i d, f.nodes i = some d → d.node.raft.Owes f.Asked i
  handed : ∀ i d, f.nodes i = some d → ∀ rd ∈ d.handed, ∀ rs ∈ rd.readStates, f.Asked i rs.requestCtx
  net : ∀ m ∈ f.net, m.Owed f.Asked

end Fleet

open Outcome

/-! ## More nodes ask -/

section

variable {asked asked' : Nat → Bytes → Prop} {me : Nat} {r : Raft}

theorem Message.Owed.mono {m : Message} (h : m.Owed asked)
    (hmore : ∀ i ctx, asked i ctx → asked' i ctx) : m.Owed asked' :=
  ⟨h.sender, fun ht ctx hctx => hmore _ _ (h.request ht ctx hctx),
    fun ht ctx hctx => hmore _ _ (h.answer ht ctx hctx)⟩

theorem Raft.Owes.mono (h : r.Owes asked me) (hmore : ∀ i ctx, asked i ctx → asked' i ctx) :
    r.Owes asked' me :=
  ⟨h.id, h.nonzero, fun rs hrs => hmore _ _ (h.states rs hrs),
    fun key status hs ctx hctx => hmore _ _ (h.pending key status hs ctx hctx),
    fun m hm => (h.mail m hm).mono hmore⟩

/-! ## One call -/

variable {pack : ConfChange → Bytes} {d d' : Driver} {n n' : RawNode}

lemma RawNode.stepRaft_owes {m : Message} (h : n.raft.Owes asked me) (hm : n.raft.Brings asked m)
    (hroutes : n.raft.Routes m) :
    Ensures (fun p => p.1.raft.Owes asked me) (n.stepRaft m) :=
  Ensures.bind (Raft.step_owes h hm hroutes) fun _ hp => Ensures.pure hp

lemma RawNode.stepRaft_unread {m : Message} (h : n.raft.Owes asked me) (hm : m.Unread) :
    Ensures (fun p => p.1.raft.Owes asked me) (n.stepRaft m) :=
  Ensures.bind (Raft.step_unread h hm) fun _ hp => Ensures.pure hp

namespace Driver

/-- The call is a read request of the node, or its message about reads belongs to a node that
asked. -/
structure Gives (asked : Nat → Bytes → Prop) (me : Nat) (r : Raft) (c : Call) : Prop where
  step : ∀ m, c = Call.step m → r.Brings asked m ∧ r.Routes m
  readIndex : ∀ rctx, c = Call.readIndex rctx → asked me rctx

lemma onNode_owes {f : RawNode → Outcome RawNode}
    (hf : Ensures (fun n => n.raft.Owes asked me) (f d.node)) :
    Ensures (fun d' => d'.node.raft.Owes asked me ∧ d'.handed = d.handed) (d.onNode f) :=
  Ensures.bind hf fun _ hn => Ensures.pure ⟨hn, rfl⟩

lemma onNodeWith_owes {α : Type} {f : RawNode → Outcome (RawNode × α)}
    (hf : Ensures (fun p => p.1.raft.Owes asked me) (f d.node)) :
    Ensures (fun d' => d'.node.raft.Owes asked me ∧ d'.handed = d.handed) (d.onNodeWith f) :=
  Ensures.bind hf fun _ hn => Ensures.pure ⟨hn, rfl⟩

/-- **What a call keeps**, and what it hands out. -/
theorem act_owes {c : Call} (h : d.node.raft.Owes asked me) (hc : Gives asked me d.node.raft c) :
    Ensures (fun d' => d'.node.raft.Owes asked me ∧
      (d'.handed = d.handed ∨ ∃ rd, d'.handed = d.handed ++ [rd] ∧
        (∀ rs ∈ rd.readStates, asked me rs.requestCtx) ∧ ∀ m ∈ rd.messages, m.Owed asked))
      (d.act pack c) := by
  have hquiet : ∀ {x : Outcome Driver},
      Ensures (fun d' => d'.node.raft.Owes asked me ∧ d'.handed = d.handed) x →
      Ensures (fun d' => d'.node.raft.Owes asked me ∧
        (d'.handed = d.handed ∨ ∃ rd, d'.handed = d.handed ++ [rd] ∧
          (∀ rs ∈ rd.readStates, asked me rs.requestCtx) ∧ ∀ m ∈ rd.messages, m.Owed asked)) x :=
    fun hx d' hd' => ⟨(hx d' hd').1, Or.inl (hx d' hd').2⟩
  cases c with
  | tick =>
      rw [act]
      exact hquiet (onNode_owes (Ensures.bind (Raft.tick_owes h) fun _ hr => Ensures.pure hr))
  | campaign =>
      rw [act]
      exact hquiet (onNodeWith_owes (RawNode.stepRaft_unread h ⟨by simp, by simp⟩))
  | propose data =>
      rw [act]
      exact hquiet (onNodeWith_owes (RawNode.stepRaft_unread h ⟨by simp, by simp⟩))
  | proposeConfChange cc =>
      rw [act]
      exact hquiet (onNodeWith_owes (RawNode.stepRaft_unread h ⟨by simp, by simp⟩))
  | step m =>
      rw [act]
      refine hquiet (onNodeWith_owes ?_)
      rw [RawNode.step]
      split
      · exact Ensures.pure h
      split
      · exact RawNode.stepRaft_owes h (hc.step m rfl).1 (hc.step m rfl).2
      · exact Ensures.pure h
  | applyConfChange cc =>
      rw [act]
      refine hquiet (onNodeWith_owes ?_)
      rw [RawNode.applyConfChange]
      split
      · exact Ensures.pure h
      · exact Ensures.bind (Raft.changeMembers_owes h cc) fun _ hr => Ensures.pure hr
  | transferLeadership lead transferee =>
      rw [act]
      exact hquiet (onNode_owes (Ensures.bind (RawNode.stepRaft_unread h ⟨by simp, by simp⟩)
        fun _ hp => Ensures.pure hp))
  | readIndex rctx =>
      rw [act]
      refine hquiet (onNodeWith_owes (RawNode.stepRaft_owes h ⟨fun _ ctx hctx => ?_, ?_⟩ ?_))
      · obtain rfl := Outcome.pure_eq_ok.mp hctx
        rw [Raft.origin_self (Or.inl rfl), h.id]
        exact hc.readIndex rctx rfl
      · exact fun ht => by cases ht
      · exact fun _ hfrom => absurd rfl hfrom
  | reportUnreachable id =>
      rw [act]
      exact hquiet (onNode_owes (Ensures.bind (RawNode.stepRaft_unread h ⟨by simp, by simp⟩)
        fun _ hp => Ensures.pure hp))
  | reportSnapshot id status =>
      rw [act]
      exact hquiet (onNode_owes (Ensures.bind (RawNode.stepRaft_unread h ⟨by simp, by simp⟩)
        fun _ hp => Ensures.pure hp))
  | ready =>
      rw [act]
      split
      · refine Ensures.eval fun p hready => Ensures.pure ?_
        obtain ⟨rd, hnew, hp⟩ := Outcome.bind_eq_ok.mp hready
        cases hp
        obtain ⟨committed, -, hnew⟩ := Outcome.bind_eq_ok.mp hnew
        cases hnew
        refine ⟨⟨h.id, h.nonzero, h.states, h.pending, fun m hm => by cases hm⟩, Or.inr ?_⟩
        refine ⟨_, rfl, ?_, h.mail⟩
        rw [← h.id]
        exact h.states
      · exact Ensures.pure ⟨h, Or.inl rfl⟩
  | store =>
      rw [act]
      split
      · exact Ensures.eval fun storage _ => Ensures.pure ⟨h.congr rfl, Or.inl rfl⟩
      · exact Ensures.pure ⟨h, Or.inl rfl⟩
  | advance =>
      rw [act]
      split
      · refine Ensures.pure ⟨⟨h.id, h.nonzero, fun rs hrs => ?_, h.pending, h.mail⟩, Or.inl rfl⟩
        simp only [RawNode.advance] at hrs
        split at hrs
        · exact h.states rs hrs
        · cases hrs
      · exact Ensures.pure ⟨h, Or.inl rfl⟩

end Driver

/-- The constructor and the bootstrap entries concern no read. -/
lemma Fleet.bootNode_owes {conf : Config} {peers : Option (List PeerContext)} (hid : conf.id ≠ 0) :
    Ensures (fun n => n.raft.Owes asked conf.id) (bootNode pack conf peers) := by
  cases peers with
  | none => exact Ensures.bind (Raft.init_owes hid) fun _ hr => Ensures.pure hr
  | some peers =>
      refine Ensures.bind (Q := Raft.Owes asked conf.id) (Raft.init_owes hid) fun r hr => ?_
      refine Ensures.bind (Q := Raft.Owes asked conf.id) ?_ fun _ hr => Ensures.pure hr
      rw [RawNode.bootstrapIfNew]
      split
      · refine Ensures.bind (Raft.becomeFollower_owes hr _ _) fun r₁ h₁ => ?_
        refine Ensures.eval fun p _ => ?_
        refine Ensures.foldlM (h₁.congr rfl) fun s peer _ hs => ?_
        exact fun s' hs' => hs.regrouped (Raft.Deeds.addNodeOrLearner hs')
      · exact Ensures.pure hr

end

/-! ## Runs -/

namespace Fleet

variable {pack : ConfChange → Bytes} {f f' : Fleet}

/-- One process has changed. -/
lemma nodes_update {nodes : Nat → Option Driver} {i j : Nat} {d e : Driver}
    (h : Function.update nodes i (some d) j = some e) : (j = i ∧ e = d) ∨ nodes j = some e := by
  by_cases hji : j = i
  · rw [hji, Function.update_self] at h
    exact Or.inl ⟨hji, (Option.some.inj h).symm⟩
  · rw [Function.update_of_ne hji] at h
    exact Or.inr h

lemma onDriver_owes {i : Nat} {c : Call} (h : f.Owes)
    (hc : ∀ d, f.nodes i = some d → ∀ m, c = Call.step m →
      d.node.raft.Brings f.Asked m ∧ d.node.raft.Routes m) :
    Ensures Owes (f.onDriver pack i c) := by
  rw [onDriver]
  split
  · exact Ensures.pure h
  rename_i d hd
  let asked' : Nat → Bytes → Prop := fun j ctx => (j, ctx) ∈ f.asked ++ c.asks i
  have hmore : ∀ j ctx, f.Asked j ctx → asked' j ctx := fun j ctx hj =>
    List.mem_append_left _ hj
  have hgives : Driver.Gives asked' i d.node.raft c := by
    refine ⟨fun m hm => ?_, fun rctx hctx => ?_⟩
    · obtain ⟨hbrings, hroutes⟩ := hc d hd m hm
      exact ⟨⟨fun ht ctx hctx => hmore _ _ (hbrings.request ht ctx hctx),
        fun ht ctx hctx => hmore _ _ (hbrings.answer ht ctx hctx)⟩, hroutes⟩
    · subst hctx
      exact List.mem_append_right _ (List.mem_singleton_self _)
  refine Ensures.bind (Driver.act_owes ((h.node i d hd).mono hmore) hgives) fun d' hd' => ?_
  obtain ⟨hnode, hhanded⟩ := hd'
  refine Ensures.pure ⟨fun j e hj => ?_, fun j e hj rd hrd rs hrs => ?_, fun m hm => ?_⟩
  · rcases nodes_update hj with ⟨rfl, rfl⟩ | hj
    · exact hnode
    · exact (h.node j e hj).mono hmore
  · rcases nodes_update hj with ⟨rfl, rfl⟩ | hj
    · rcases hhanded with hsame | ⟨rd', hnew, hstates, -⟩
      · rw [hsame] at hrd
        exact hmore _ _ (h.handed j d hd rd hrd rs hrs)
      · rw [hnew] at hrd
        rcases List.mem_append.mp hrd with hold | hrd
        · exact hmore _ _ (h.handed j d hd rd hold rs hrs)
        · rw [List.mem_singleton.mp hrd] at hrs
          exact hstates rs hrs
    · exact hmore _ _ (h.handed j e hj rd hrd rs hrs)
  · rcases List.mem_append.mp hm with hold | hnew
    · exact (h.net m hold).mono hmore
    · rcases hhanded with hsame | ⟨rd', hnew', -, hmail⟩
      · rw [hsame, List.drop_length] at hnew
        cases hnew
      · rw [hnew', List.drop_left] at hnew
        simp only [List.flatMap_singleton] at hnew
        exact hmail m hnew

lemma validate_id {conf : Config} (h : conf.validate.2 = Status.ok) :
    conf.validate.1.id = conf.id ∧ conf.id ≠ 0 := by
  have hid : conf.id ≠ 0 := by
    intro hzero
    rw [Config.validate, if_pos hzero] at h
    cases h
  refine ⟨?_, hid⟩
  unfold Config.validate
  dsimp only
  split_ifs
  all_goals rfl

/-- What a message of the network says about reads. -/
lemma brings_of_owed {m : Message} {r : Raft} {asked : Nat → Bytes → Prop} (hm : m.Owed asked)
    (hid : r.id = m.toId) : r.Brings asked m := by
  refine ⟨fun ht ctx hctx => ?_, fun ht ctx hctx => ?_⟩
  · rw [Raft.origin, if_neg (hm.sender ht)]
    exact hm.request ht ctx hctx
  · rw [hid]
    exact hm.answer ht ctx hctx

/-- **One action.** -/
theorem act_owes {a : Action} (h : f.Owes) (ha : f.Routed a) : Ensures Owes (f.act pack a) := by
  cases a with
  | boot conf peers =>
      rw [act]
      dsimp only
      split
      · exact Ensures.throw
      rename_i hvalid
      obtain ⟨hid, hne⟩ := validate_id (not_not.mp hvalid)
      have hboot : conf.validate.1.id ≠ 0 := hid.symm ▸ hne
      refine Ensures.bind (Q := fun n => n.raft.Owes f.Asked conf.validate.1.id)
        (bootNode_owes hboot) fun n hn => Ensures.pure ?_
      refine ⟨fun j e hj => ?_, fun j e hj rd hrd rs hrs => ?_, h.net⟩
      · rcases nodes_update hj with ⟨rfl, rfl⟩ | hj
        · exact hn
        · exact h.node j e hj
      · rcases nodes_update hj with ⟨rfl, rfl⟩ | hj
        · cases hrd
        · exact h.handed j e hj rd hrd rs hrs
  | call i c =>
      cases c with
      | step m => exact Ensures.pure h
      | _ => exact onDriver_owes h fun d hd m hm => by cases hm
  | deliver k =>
      rw [act]
      split
      · exact Ensures.pure h
      · rename_i m hm
        refine onDriver_owes h fun d hd m' hm' => ?_
        cases hm'
        have howed := h.net m (List.mem_of_getElem? hm)
        exact ⟨brings_of_owed howed (h.node _ d hd).id, ha m hm d hd⟩

/-- Node `i` leads, and a message makes it serve the request of another node. -/
structure ServesOther (f : Fleet) (i : Nat) (d : Driver) (m req : Message) : Prop where
  node : f.nodes i = some d
  leads : d.node.raft.state = RaftState.leader
  sent : m ∈ f.net ∧ m.toId = i
  term : d.node.raft.ownTerm m = true
  routes : d.node.raft.Routes m
  serves : d.node.raft.Serves m req
  other : req.fromId ≠ 0 ∧ req.fromId ≠ i

/-- A leader has made the request its own, or a node that asked for it. -/
lemma Owes.request {i : Nat} {d : Driver} {m req : Message} (h : f.Owes)
    (hs : f.ServesOther i d m req) (ctx : Bytes) (hctx : req.readContext = Except.ok ctx) :
    f.Asked req.fromId ctx := by
  cases hs.serves with
  | alone ht | lease ht => exact (h.net m hs.sent.1).request ht ctx hctx
  | @released ht hknown hoption hcontext hacks readOnly rss hadvance rs hrs =>
      obtain ⟨key, hkey⟩ := (ReadOnly.advance_pending hadvance).1 rs hrs
      have hasked := ((h.node i d hs.node).recvAck m).pending key rs hkey ctx hctx
      rwa [Raft.origin, if_neg hs.other.1] at hasked

/-- **Read-index answers go to the node that asked.**  In every run in which no request that was
passed on is passed on again, or answered by the only voter: a read state is on a node that asked for
it, and whenever a leader serves a request of another node, that node asked for it and is sent the
answer. -/
theorem reads_routed (hrun : RunOf (act pack) Routed {} f) :
    (∀ i d, f.nodes i = some d →
      (∀ rs ∈ d.node.raft.readStates, f.Asked i rs.requestCtx) ∧
      ∀ rd ∈ d.handed, ∀ rs ∈ rd.readStates, f.Asked i rs.requestCtx) ∧
    ∀ i d m req, f.ServesOther i d m req →
      (∀ ctx, req.readContext = Except.ok ctx → f.Asked req.fromId ctx) ∧
      ∀ d', d.act pack (Call.step m) = Except.ok d' → d'.node.raft.Answers req := by
  have h : f.Owes := hrun.invariant (I := Owes) (fun _ _ _ hf ha hact => act_owes hf ha _ hact)
    ⟨fun _ _ hd => (by cases hd), fun _ _ hd => (by cases hd), fun _ hm => (by cases hm)⟩
  refine ⟨fun i d hd => ⟨?_, h.handed i d hd⟩, fun i d m req hs => ⟨h.request hs, fun d' hact => ?_⟩⟩
  · rw [← (h.node i d hd).id]
    exact (h.node i d hd).states
  · rw [Driver.act] at hact
    obtain ⟨n, status, hstep, rfl⟩ := Driver.onNodeWith_eq_ok hact
    have hknown : m.isLocalMsg = false ∧
        ((d.node.raft.getProgress m.fromId).isSome = true ∨ ¬ m.isResponseMsg = true) := by
      cases hs.serves with
      | alone ht | lease ht => exact ⟨by rw [Message.isLocalMsg, ht]; rfl,
          Or.inr (by rw [Message.isResponseMsg, ht]; simp)⟩
      | released ht hknown => exact ⟨by rw [Message.isLocalMsg, ht]; rfl, Or.inl hknown⟩
    rw [RawNode.step, if_neg (by simp [hknown.1]), if_pos hknown.2] at hstep
    obtain ⟨⟨r', status'⟩, hstep, hn⟩ := Outcome.bind_eq_ok.mp hstep
    cases hn
    refine Raft.step_serves hs.leads hs.term hs.serves hs.routes ⟨hs.other.1, ?_⟩ hstep
    rw [(h.node i d hs.node).id]
    exact hs.other.2

/-! ## Clusters of two nodes -/

/-- The node `i` of these voters and learners, which answers reads within its lease. -/
def leaseConf (peers learners : List Nat) (i : Nat) : Config where
  id := i
  peers := peers
  learners := learners
  electionTick := 10
  heartbeatTick := 1
  maxInflightMsgs := 1
  checkQuorum := true
  readOnlyOption := ReadOnlyOption.readOnlyLeaseBased

/-- A process takes, stores and finishes a `Ready`. -/
def pullReady (i : Nat) : List Action :=
  [Action.call i Call.ready, Action.call i Call.store, Action.call i Call.advance]

/-- Of two voters, the second one asks and is answered. -/
theorem reads_routed_forwarded : ∃ f d,
    RunOf (act fun _ => []) Routed {} f ∧ f.nodes 2 = some d ∧
    d.node.raft.readStates = [{ index := 1, requestCtx := [7] }] ∧ f.asked = [(2, [7])] ∧
    (∀ i d, f.nodes i = some d →
      (∀ rs ∈ d.node.raft.readStates, f.Asked i rs.requestCtx) ∧
      ∀ rd ∈ d.handed, ∀ rs ∈ rd.readStates, f.Asked i rs.requestCtx) ∧
    ∀ i d m req, f.ServesOther i d m req →
      (∀ ctx, req.readContext = Except.ok ctx → f.Asked req.fromId ctx) ∧
      ∀ d', d.act (fun _ => []) (Call.step m) = Except.ok d' → d'.node.raft.Answers req := by
  let actions : List Action := [Action.boot (leaseConf [1, 2] [] 1) none,
    Action.boot (leaseConf [1, 2] [] 2) none, Action.call 1 Call.campaign] ++ pullReady 1 ++
    [Action.deliver 0] ++ pullReady 2 ++ [Action.deliver 1] ++ pullReady 1 ++ [Action.deliver 2] ++
    pullReady 2 ++ [Action.deliver 3, Action.call 2 (Call.readIndex [7])] ++ pullReady 2 ++
    [Action.deliver 4] ++ pullReady 1 ++ [Action.deliver 6]
  have hreached : ((actions.foldlM (RunOf.exec (act fun _ => []) Routed) {}).toOption.any fun f =>
      (f.nodes 2).any fun d => decide
        (d.node.raft.readStates = [{ index := 1, requestCtx := [7] }] ∧ f.asked = [(2, [7])])) =
      true := by
    decide
  obtain ⟨f, hf, hreached⟩ := (Option.any_eq_true ..).mp hreached
  obtain ⟨d, hd, hreached⟩ := (Option.any_eq_true ..).mp hreached
  obtain ⟨hstates, hasked⟩ := of_decide_eq_true hreached
  have hrun := RunOf.of_exec (Outcome.eq_ok_of_toOption hf)
  exact ⟨f, d, hrun, hd, hstates, hasked, reads_routed hrun⟩

/-- A learner asks the only voter, which takes the request for its own. -/
theorem read_misplaced : ∃ f d,
    RunOf (act fun _ => []) (fun _ _ => True) {} f ∧ f.nodes 1 = some d ∧
    { index := 1, requestCtx := [7] } ∈ d.node.raft.readStates ∧ ¬ f.Asked 1 [7] ∧
    ∀ d, f.nodes 2 = some d → d.node.raft.readStates = [] := by
  let actions : List Action := [Action.boot (leaseConf [1] [2] 1) none,
    Action.boot (leaseConf [1] [2] 2) none, Action.call 1 Call.campaign, Action.call 1 Call.tick,
    Action.call 1 Call.ready, Action.deliver 0, Action.call 2 (Call.readIndex [7]),
    Action.call 2 Call.ready, Action.deliver 2]
  have hreached : ((actions.foldlM (RunOf.exec (act fun _ => []) fun _ _ => True) {}).toOption.any
      fun f => (f.nodes 1).any fun d => decide
        ({ index := 1, requestCtx := [7] } ∈ d.node.raft.readStates ∧ (1, [7]) ∉ f.asked ∧
          ∀ d ∈ f.nodes 2, d.node.raft.readStates = [])) = true := by
    decide
  obtain ⟨f, hf, hreached⟩ := (Option.any_eq_true ..).mp hreached
  obtain ⟨d, hd, hreached⟩ := (Option.any_eq_true ..).mp hreached
  obtain ⟨hstates, hasked, hother⟩ := of_decide_eq_true hreached
  exact ⟨f, d, RunOf.of_exec (Outcome.eq_ok_of_toOption hf), hd, hstates, hasked, hother⟩

end Fleet

end RaftKv
