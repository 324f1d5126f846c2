import RaftKv.Server.Incarnations
import RaftKv.Service.Rounds

/-!
# What the stores have run

* `contentAfter` — the content of a store that has run a list of commands.
* `Process.queued` — the commands that wait for the thread of the store.
* `Process.Fed`, `Process.Feeds` — a process together with the commands that its store was given,
  and its runs without a snapshot and without a refused write.
* `Process.Serves` — the store has run what it was given, but for what waits.
* `Process.Feeds.serves` — **this holds in every run**.
* `Process.Grows` — what a process has got, it keeps.
-/

namespace RaftKv

/-! ## Running commands -/

/-- The writes of a command, none of which is refused. -/
def applyCommand (codec : Codec RaftCommit) (db : RocksDB) (e : Entry) : RocksDB :=
  match RedisStore.writesOf codec e with
  | Except.ok ops => RocksDB.write db ops
  | Except.error _ => db

/-- The content of a store that has run these commands. -/
def contentAfter (codec : Codec RaftCommit) (db : RocksDB) (cmds : List Entry) : RocksDB :=
  cmds.foldl (applyCommand codec) db

lemma contentAfter_snoc (codec : Codec RaftCommit) (db : RocksDB) (cmds : List Entry) (e : Entry) :
    contentAfter codec db (cmds ++ [e]) = applyCommand codec (contentAfter codec db cmds) e := by
  simp [contentAfter]

namespace Process

variable {codecs : Codecs} {db : RocksDB} {cmds : List Entry} {p p' : Process}

/-- The command that a handler is about. -/
def Handler.command : Handler → Option Entry
  | Handler.readCommit e => some e.entry
  | _ => none

/-- The commands that wait for the thread of the store. -/
def queued (p : Process) : List Entry := p.storeQueue.filterMap Handler.command

/-- The store was given `cmds`, and has run them but for those that wait. -/
structure Serves (codecs : Codecs) (db : RocksDB) (cmds : List Entry) (p : Process) : Prop where
  onStatus : ∀ h ∈ p.raftQueue, h.onStatus = Handler.setStatus ∨ h.onStatus = Handler.delStatus
  noSnapshot : ∀ snap, Handler.recoverFromSnapshot snap ∉ p.storeQueue
  ran : ∃ done, cmds = done ++ p.queued ∧ done.length = p.applied.length ∧
    p.store.db = contentAfter codecs.commit db done

namespace Serves

lemma start (nodeId : Nat) : Serves codecs db [] (Process.start nodeId db) where
  onStatus _ h := by cases h
  noSnapshot _ h := by cases h
  ran := ⟨[], rfl, rfl, rfl⟩

lemma request (h : Serves codecs db cmds p) {data : RedisCommitData}
    {onStatus : UInt32 → Status → Handler}
    (hon : onStatus = Handler.setStatus ∨ onStatus = Handler.delStatus) :
    Serves codecs db cmds
      (p.request data (p.store.request codecs.commit data p.requests.length) onStatus) where
  onStatus x hx := by
    rcases List.mem_append.mp hx with hx | hx
    · exact h.onStatus x hx
    · rw [List.mem_singleton.mp hx]
      exact hon
  noSnapshot := h.noSnapshot
  ran := h.ran

/-- A session calls `set` or `del`. -/
lemma session (h : Serves codecs db cmds p) {a : Action}
    (ha : (∃ key value, a = Action.set key value) ∨ ∃ keys, a = Action.del keys)
    (hact : p.act codecs a = Except.ok p') : Serves codecs db cmds p' := by
  rcases ha with ⟨key, value, rfl⟩ | ⟨keys, rfl⟩
  · cases Outcome.pure_eq_ok.mp hact
    exact h.request (Or.inl rfl)
  · cases Outcome.pure_eq_ok.mp hact
    exact h.request (Or.inr rfl)

/-- The raft thread runs a handler. -/
lemma propose (h : Serves codecs db cmds p) {status : Status}
    (hact : p.act codecs (Action.propose status) = Except.ok p') : Serves codecs db cmds p' := by
  rw [Process.act] at hact
  split at hact
  · cases Outcome.pure_eq_ok.mp hact
    exact h
  rename_i x queue hqueue
  cases Outcome.pure_eq_ok.mp hact
  have hx := h.onStatus x (hqueue ▸ List.mem_cons_self ..)
  refine ⟨fun y hy => h.onStatus y (hqueue ▸ List.mem_cons_of_mem x hy), ?_, ?_⟩
  · intro snap hmem
    rcases List.mem_append.mp hmem with hmem | hmem
    · exact h.noSnapshot snap hmem
    · have hhandler := List.mem_singleton.mp hmem
      rcases hx with hx | hx
      · rw [hx] at hhandler
        cases hhandler
      · rw [hx] at hhandler
        cases hhandler
  · obtain ⟨done, hcmds, hlen, hdb⟩ := h.ran
    refine ⟨done, ?_, hlen, hdb⟩
    rw [hcmds]
    rcases hx with hx | hx
    · simp [queued, hx, Handler.command]
    · simp [queued, hx, Handler.command]

/-- The raft thread publishes a command. -/
lemma publish (h : Serves codecs db cmds p) {e : Committed}
    (hguard : e.entry.data ≠ [] ∧ ∀ n ∈ e.origin, ∃ x ∈ p.proposed,
      x.origin = n ∧ e.entry.data = x.proposal.data)
    (hact : p.act codecs (Action.publishEntry e) = Except.ok p') :
    Serves codecs db (cmds ++ [e.entry]) p' := by
  rw [Process.act, if_pos hguard] at hact
  cases Outcome.pure_eq_ok.mp hact
  obtain ⟨done, hcmds, hlen, hdb⟩ := h.ran
  refine ⟨h.onStatus, ?_, done, ?_, hlen, hdb⟩
  · intro snap hmem
    rcases List.mem_append.mp hmem with hmem | hmem
    · exact h.noSnapshot snap hmem
    · cases List.mem_singleton.mp hmem
  · rw [hcmds]
    simp [queued, Handler.command]

/-- The thread of the store runs a handler, and the database refuses nothing. -/
lemma runStore (h : Serves codecs db cmds p) {ok : Nat → Bool} (hok : ∀ i, ok i = true)
    (hact : p.act codecs (Action.runStore ok) = Except.ok p') : Serves codecs db cmds p' := by
  rw [Process.act] at hact
  split at hact
  · cases Outcome.pure_eq_ok.mp hact
    exact h
  rename_i x queue hqueue
  obtain ⟨done, hcmds, hlen, hdb⟩ := h.ran
  have hnone : ∀ snap, Handler.recoverFromSnapshot snap ∉ queue := by
    intro snap hmem
    exact h.noSnapshot snap (hqueue ▸ List.mem_cons_of_mem x hmem)
  -- a status handler leaves the database alone
  have hstatus : ∀ {s' : RedisStore Nat} {invoked : List (Nat × Status)}, x.command = none →
      s'.db = p.store.db →
      Serves codecs db cmds { p with storeQueue := queue, store := s', invoked := invoked } := by
    intro s' invoked hx hs'
    refine ⟨h.onStatus, hnone, done, ?_, hlen, hs'.trans hdb⟩
    rw [hcmds, queued, hqueue, List.filterMap_cons, hx]
    rfl
  cases x with
  | setStatus commitId status =>
      cases Outcome.pure_eq_ok.mp hact
      exact hstatus rfl (p.store.setStatus_fst commitId status).1
  | delStatus commitId status =>
      cases Outcome.pure_eq_ok.mp hact
      exact hstatus rfl (p.store.complete_fst commitId status).1
  | readCommit e =>
      obtain ⟨r, hr, hact⟩ := Outcome.bind_eq_ok.mp hact
      obtain ⟨ops, hops, hact⟩ := Outcome.bind_eq_ok.mp hact
      cases Outcome.pure_eq_ok.mp hact
      obtain ⟨ops', hops', hwritten, -⟩ := RedisStore.readCommit_spec hr
      obtain rfl : ops = ops' := Except.ok.inj (hops.symm.trans hops')
      refine ⟨h.onStatus, hnone, done ++ [e.entry], ?_, ?_, ?_⟩
      · rw [hcmds, queued, hqueue, List.filterMap_cons]
        simp [queued, Handler.command]
      · simp [hlen]
      · rw [contentAfter_snoc, applyCommand, hops, ← hdb]
        exact hwritten.trans (RocksDB.writeEach_eq_write _ fun i _ => hok i)
  | recoverFromSnapshot snap =>
      exact absurd (hqueue ▸ List.mem_cons_self ..) (h.noSnapshot snap)

end Serves

/-! ## Runs -/

/-- A process, and the commands that its store was given. -/
structure Fed where
  cmds : List Entry
  process : Process

/-- The commands that the store has run. -/
def Fed.ran (f : Fed) : List Entry := f.cmds.take f.process.applied.length

/-- The command that an action gives to the store. -/
def published : Action → List Entry
  | Action.publishEntry e => [e.entry]
  | _ => []

/-- No snapshot is published, the database refuses no write, and an entry that is published has the
data it was proposed with. -/
def Fed.Steady (f : Fed) : Action → Prop
  | Action.publishEntry e => e.entry.data ≠ [] ∧ ∀ n ∈ e.origin, ∃ x ∈ f.process.proposed,
      x.origin = n ∧ e.entry.data = x.proposal.data
  | Action.publishSnapshot _ => False
  | Action.runStore ok => ∀ i, ok i = true
  | _ => True

def Fed.act (codecs : Codecs) (f : Fed) (a : Action) : Outcome Fed := do
  let p ← f.process.act codecs a
  return { cmds := f.cmds ++ published a, process := p }

/-- The runs of a process whose store is given commands. -/
abbrev Feeds (codecs : Codecs) : Fed → Fed → Prop := RunOf (Fed.act codecs) Fed.Steady

variable {f f' : Fed}

lemma Serves.act (h : Serves codecs db f.cmds f.process) {a : Action} (ha : f.Steady a)
    (hact : f.act codecs a = Except.ok f') : Serves codecs db f'.cmds f'.process := by
  obtain ⟨p, hp, hact⟩ := Outcome.bind_eq_ok.mp hact
  cases Outcome.pure_eq_ok.mp hact
  cases a with
  | set key value =>
      simp only [published, List.append_nil]
      exact h.session (Or.inl ⟨key, value, rfl⟩) hp
  | del keys =>
      simp only [published, List.append_nil]
      exact h.session (Or.inr ⟨keys, rfl⟩) hp
  | propose status =>
      simp only [published, List.append_nil]
      exact h.propose hp
  | publishEntry e => exact h.publish ha hp
  | publishSnapshot snap => exact absurd ha fun h => h
  | runStore ok =>
      simp only [published, List.append_nil]
      exact h.runStore ha hp

namespace Feeds

/-- **The store has run what it was given, but for what waits.** -/
theorem serves {nodeId : Nat} (h : Feeds codecs ⟨[], Process.start nodeId db⟩ f) :
    Serves codecs db f.cmds f.process :=
  h.invariant (I := fun f => Serves codecs db f.cmds f.process)
    (fun _ _ _ hs ha hact => hs.act ha hact) (Serves.start nodeId)

/-- What the store has run is determined by how much it has run. -/
lemma ran_eq {nodeId : Nat} (h : Feeds codecs ⟨[], Process.start nodeId db⟩ f) :
    f.ran.length = f.process.applied.length ∧
      f.process.store.db = contentAfter codecs.commit db f.ran := by
  obtain ⟨done, hcmds, hlen, hdb⟩ := h.serves.ran
  rw [Fed.ran, hcmds, ← hlen, List.take_left]
  exact ⟨rfl, hdb⟩

/-- The numbers of the requests and the data of the proposals, in every run. -/
lemma booked {nodeId : Nat} (h : Feeds codecs ⟨[], Process.start nodeId db⟩ f) :
    Incarnations.Attributed codecs.commit f.process ∧
      RequestIds f.process.store f.process.requests.length f.process.invoked ∧
      f.process.store.nodeId = nodeId := by
  refine h.invariant (I := fun f => Incarnations.Attributed codecs.commit f.process ∧
    RequestIds f.process.store f.process.requests.length f.process.invoked ∧
    f.process.store.nodeId = nodeId) (fun f a f' hf _ hact => ?_)
    ⟨Incarnations.Attributed.start nodeId db, RequestIds.start nodeId db, rfl⟩
  obtain ⟨hattr, hids, hnode⟩ := hf
  obtain ⟨p, hp, hact⟩ := Outcome.bind_eq_ok.mp hact
  cases Outcome.pure_eq_ok.mp hact
  exact ⟨hattr.act hids hp, hids.act hp, (Incarnations.act_extends hp).1.trans hnode⟩

/-- The process does something that gives its store no command. -/
lemma single {a : Action} (ha : f.Steady a) (hnone : published a = []) {p : Process}
    (hact : f.process.act codecs a = Except.ok p) : Feeds codecs f ⟨f.cmds, p⟩ := by
  refine (RunOf.refl f).step a ha (Outcome.bind_eq_ok.mpr ⟨p, hact, ?_⟩)
  rw [hnone, List.append_nil]
  rfl

/-- The raft thread publishes the commands of a batch. -/
lemma publishAll {es cmds : List Entry} {p p' : Process} (hes : ∀ e ∈ es, e.data ≠ [])
    (hact : (es.map StoreTask.readCommit).foldlM (Replica.publish codecs) p = Except.ok p') :
    Feeds codecs ⟨cmds, p⟩ ⟨cmds ++ es, p'⟩ := by
  induction es generalizing p cmds with
  | nil =>
      cases Outcome.pure_eq_ok.mp hact
      rw [List.append_nil]
      exact RunOf.refl _
  | cons e es ih =>
      obtain ⟨he, hes⟩ := List.forall_mem_cons.mp hes
      rw [List.map_cons, List.foldlM_cons] at hact
      obtain ⟨p₁, hpublish, hact⟩ := Outcome.bind_eq_ok.mp hact
      rw [List.append_cons]
      refine RunOf.trans ?_ (ih hes hact)
      refine (RunOf.refl _).step (Action.publishEntry ⟨e, Replica.origin p e⟩) ⟨he, ?_⟩
        (Outcome.bind_eq_ok.mpr ⟨p₁, hpublish, rfl⟩)
      -- the request that the entry is given out for
      intro n hn
      obtain ⟨x, hx, rfl⟩ := Option.map_eq_some_iff.mp hn
      have hfound := List.find?_some hx
      exact ⟨x, List.mem_of_find?_eq_some hx, rfl, (of_decide_eq_true hfound).symm⟩

end Feeds

/-! ## What grows -/

/-- The requests, the proposals and what was applied are kept. -/
structure Grows (p p' : Process) : Prop where
  requests : Incarnations.Extends p p'
  proposed : p.proposed <+: p'.proposed
  applied : p.applied <+: p'.applied

lemma Grows.refl (p : Process) : Grows p p :=
  ⟨⟨rfl, List.prefix_refl _⟩, List.prefix_refl _, List.prefix_refl _⟩

lemma Grows.trans {p'' : Process} (h : Grows p p') (h' : Grows p' p'') : Grows p p'' :=
  ⟨⟨h'.requests.1.trans h.requests.1, h.requests.2.trans h'.requests.2⟩,
    h.proposed.trans h'.proposed, h.applied.trans h'.applied⟩

lemma runHandler_applied {ok : Nat → Bool} {x : Handler}
    (hrun : p.runHandler codecs ok x = Except.ok p') : p.applied <+: p'.applied := by
  cases x with
  | setStatus commitId status =>
      cases Outcome.pure_eq_ok.mp hrun
      exact List.prefix_refl _
  | delStatus commitId status =>
      cases Outcome.pure_eq_ok.mp hrun
      exact List.prefix_refl _
  | readCommit e =>
      obtain ⟨r, -, hrun⟩ := Outcome.bind_eq_ok.mp hrun
      obtain ⟨ops, -, hrun⟩ := Outcome.bind_eq_ok.mp hrun
      cases Outcome.pure_eq_ok.mp hrun
      exact List.prefix_append _ _
  | recoverFromSnapshot snap =>
      obtain ⟨r, -, hrun⟩ := Outcome.bind_eq_ok.mp hrun
      split at hrun
      · cases hrun
      · cases Outcome.pure_eq_ok.mp hrun
        exact List.prefix_append _ _

lemma act_grows {a : Action} (hact : p.act codecs a = Except.ok p') : Grows p p' := by
  suffices hgrows : p.proposed <+: p'.proposed ∧ p.applied <+: p'.applied from
    ⟨Incarnations.act_extends hact, hgrows.1, hgrows.2⟩
  have hsame : p.proposed <+: p.proposed ∧ p.applied <+: p.applied :=
    ⟨List.prefix_refl _, List.prefix_refl _⟩
  cases a with
  | propose status =>
      rw [Process.act] at hact
      split at hact
      · cases Outcome.pure_eq_ok.mp hact
        exact hsame
      · cases Outcome.pure_eq_ok.mp hact
        exact ⟨List.prefix_append _ _, List.prefix_refl _⟩
  | publishEntry e =>
      rw [Process.act] at hact
      split at hact
      · cases Outcome.pure_eq_ok.mp hact
        exact hsame
      · cases Outcome.pure_eq_ok.mp hact
        exact hsame
  | runStore ok =>
      rw [Process.act] at hact
      split at hact
      · cases Outcome.pure_eq_ok.mp hact
        exact hsame
      · rename_i x queue _
        obtain ⟨-, hproposed, -⟩ := Incarnations.runHandler_frame hact
        have happlied := runHandler_applied (p := { p with storeQueue := queue }) hact
        exact ⟨by rw [hproposed], happlied⟩
  | _ =>
      cases Outcome.pure_eq_ok.mp hact
      exact hsame

theorem Feeds.grows (h : Feeds codecs f f') : Grows f.process f'.process := by
  induction h with
  | refl => exact Grows.refl _
  | step a _ _ hact ih =>
      obtain ⟨p, hp, hact⟩ := Outcome.bind_eq_ok.mp hact
      cases Outcome.pure_eq_ok.mp hact
      exact ih.trans (act_grows hp)

end Process

end RaftKv
