import RaftKv.Core.Run
import RaftKv.Server.RedisStore

/-!
# The two threads of a process

The store's thread and the raft thread exchange posted handlers, each thread taking them in the
order they were posted.  What raft makes of a proposal is left open: it may return any status, and
any entry may be committed at any time, never, or twice.  The ghost fields number the requests and
record what has happened; no handler reads them.

* `Process`, `Process.Action`, `Process.act` — the queues and what can happen.
* `Process.CleanAction` — the condition under which a callback's OK is right.
* `Process.acknowledged_applied` — **an acknowledged write is an applied write**, in every run in
  which the status handler of `del` finds no request to acknowledge and `read_commit` acknowledges
  the request that its entry was proposed for, having written all it should.
-/

namespace RaftKv

namespace Process

/-! ## Queues -/

/-- A committed entry, with the number of the request it was proposed for; `none` when another
process, or an earlier one of this node, has proposed it. -/
structure Committed where
  entry : Entry
  origin : Option Nat := none

/-- The handlers posted to the store's thread. -/
inductive Handler where
  | setStatus (commitId : UInt32) (status : Status)
  | delStatus (commitId : UInt32) (status : Status)
  | readCommit (e : Committed)
  | recoverFromSnapshot (snap : Bytes)

/-- The handler that `RaftNode::propose` posts to the raft thread. -/
structure Posted where
  /-- The number of the request. -/
  origin : Nat
  proposal : RedisStore.Proposal
  /-- What the callback given to `propose` posts. -/
  onStatus : UInt32 → Status → Handler

/-- What the store's thread has done to the database. -/
inductive Applied where
  | commit (origin : Option Nat) (ops : List WriteOp) (ok : Nat → Bool)
  | snapshot (keyValues : List (Bytes × Bytes)) (ok : Bool)

/-- The packing used by the store. -/
structure Codecs where
  commit : Codec RaftCommit
  keyValues : Codec (List (Bytes × Bytes))

end Process

structure Process where
  /-- The callback of a request is its number. -/
  store : RedisStore Nat
  raftQueue : List Process.Posted := []
  storeQueue : List Process.Handler := []
  /-- The requests so far. -/
  requests : List RedisCommitData := []
  /-- The proposals that raft has been given. -/
  proposed : List Process.Posted := []
  /-- The callbacks invoked so far. -/
  invoked : List (Nat × Status) := []
  /-- What has been applied to the database so far. -/
  applied : List Process.Applied := []

namespace Process

inductive Action where
  /-- A session calls `set`. -/
  | set (key value : Bytes)
  /-- A session calls `del`. -/
  | del (keys : List Bytes)
  /-- The raft thread runs its next handler; the node's answer is `status`. -/
  | propose (status : Status)
  /-- The raft thread publishes a committed entry. -/
  | publishEntry (e : Committed)
  /-- The raft thread publishes an installed snapshot. -/
  | publishSnapshot (snap : Bytes)
  /-- The store's thread runs its next handler; `ok i` answers its `i`-th write. -/
  | runStore (ok : Nat → Bool)

/-- A process whose store has just been created. -/
def start (nodeId : Nat) (db : RocksDB) : Process where
  store := { nodeId := nodeId, db := db }

/-! ## Steps -/

/-- A request: the store's part, and the handler posted to the raft thread. -/
def request (p : Process) (data : RedisCommitData) (r : RedisStore Nat × RedisStore.Proposal)
    (onStatus : UInt32 → Status → Handler) : Process :=
  { p with
    store := r.1
    raftQueue := p.raftQueue ++ [⟨p.requests.length, r.2, onStatus⟩]
    requests := p.requests ++ [data] }

/-- Run a handler on the store's thread. -/
def runHandler (codecs : Codecs) (ok : Nat → Bool) (p : Process) : Handler → Outcome Process
  | Handler.setStatus commitId status =>
      let r := p.store.setStatus commitId status
      pure { p with store := r.1, invoked := p.invoked ++ r.2 }
  | Handler.delStatus commitId status =>
      let r := p.store.delStatus commitId status
      pure { p with store := r.1, invoked := p.invoked ++ r.2 }
  | Handler.readCommit e => do
      let r ← p.store.readCommit codecs.commit ok e.entry
      let ops ← RedisStore.writesOf codecs.commit e.entry
      pure { p with
        store := r.1
        invoked := p.invoked ++ r.2
        applied := p.applied ++ [Applied.commit e.origin ops ok] }
  | Handler.recoverFromSnapshot snap => do
      let r ← p.store.recoverFromSnapshot codecs.keyValues (ok 0) snap
      match codecs.keyValues.unpack snap with
      | Except.error _ =>
          -- the callback of `publish_snapshot` ends the process on any status but OK
          throw (Crash.fatal s!"recover from snapshot error {r.2.toText}")
      | Except.ok keyValues =>
          pure { p with store := r.1, applied := p.applied ++ [Applied.snapshot keyValues (ok 0)] }

def act (codecs : Codecs) (p : Process) : Action → Outcome Process
  | Action.set key value =>
      pure (p.request ⟨RedisCommitData.kCommitSet, [key, value]⟩
        (p.store.set codecs.commit key value p.requests.length) Handler.setStatus)
  | Action.del keys =>
      pure (p.request ⟨RedisCommitData.kCommitDel, keys⟩
        (p.store.del codecs.commit keys p.requests.length) Handler.delStatus)
  | Action.propose status =>
      match p.raftQueue with
      | [] => pure p
      | h :: queue =>
          pure { p with
            raftQueue := queue
            storeQueue := p.storeQueue ++ [h.onStatus h.proposal.commitId status]
            proposed := p.proposed ++ [h] }
  | Action.publishEntry e =>
      -- an entry has the data it was proposed with; empty entries do not reach the store
      if e.entry.data ≠ [] ∧ ∀ n ∈ e.origin, ∃ h ∈ p.proposed,
          h.origin = n ∧ e.entry.data = h.proposal.data then
        pure { p with storeQueue := p.storeQueue ++ [Handler.readCommit e] }
      else pure p
  | Action.publishSnapshot snap =>
      pure { p with storeQueue := p.storeQueue ++ [Handler.recoverFromSnapshot snap] }
  | Action.runStore ok =>
      match p.storeQueue with
      | [] => pure p
      | h :: queue => runHandler codecs ok { p with storeQueue := queue } h

/-! ## What the ghosts say -/

def Applied.apply (db : RocksDB) : Applied → RocksDB
  | commit _ ops ok => RocksDB.writeEach ok db ops
  | snapshot keyValues ok => if ok then RocksDB.write db (RedisStore.loadBatch db keyValues) else db

/-- It may change the value of a key. -/
def Applied.Touches (k : Bytes) : Applied → Prop
  | commit _ ops _ => ∃ op ∈ ops, op.key = k
  | snapshot _ _ => True

lemma Applied.get_foldl_apply (db : RocksDB) {as : List Applied} {k : Bytes}
    (h : ∀ a ∈ as, ¬ a.Touches k) : (as.foldl Applied.apply db).get k = db.get k := by
  induction as generalizing db with
  | nil => rfl
  | cons a as ih =>
      obtain ⟨ha, has⟩ := List.forall_mem_cons.mp h
      rw [List.foldl_cons, ih _ has]
      cases a with
      | commit origin ops ok =>
          exact RocksDB.get_writeEach_of_not_mem db fun op hop hk => ha ⟨op, hop, hk⟩
      | snapshot keyValues ok => exact absurd trivial ha

variable {codecs : Codecs} {nodeId : Nat} {db₀ : RocksDB} {p p' : Process}

/-- The bytes carry request `n` of this node. -/
def Carries (codec : Codec RaftCommit) (nodeId : Nat) (requests : List RedisCommitData) (n : Nat)
    (bytes : Bytes) : Prop :=
  ∃ data commitId, requests[n]? = some data ∧
    bytes = codec.pack ⟨UInt32.ofNat nodeId, commitId, data⟩

lemma Carries.append {requests : List RedisCommitData} {n : Nat} {bytes : Bytes}
    (h : Carries codecs.commit nodeId requests n bytes) (more : List RedisCommitData) :
    Carries codecs.commit nodeId (requests ++ more) n bytes := by
  obtain ⟨data, commitId, hn, hbytes⟩ := h
  refine ⟨data, commitId, ?_, hbytes⟩
  rw [List.getElem?_append_left (List.getElem?_eq_some_iff.mp hn).1, hn]

/-- What holds in every state of a run. -/
structure Sound (codecs : Codecs) (nodeId : Nat) (db₀ : RocksDB) (p : Process) : Prop where
  store : p.store.nodeId = nodeId
  raftQueue : ∀ h ∈ p.raftQueue,
    Carries codecs.commit nodeId p.requests h.origin h.proposal.data
  proposed : ∀ h ∈ p.proposed,
    Carries codecs.commit nodeId p.requests h.origin h.proposal.data
  storeQueue : ∀ e, Handler.readCommit e ∈ p.storeQueue → ∀ n ∈ e.origin,
    Carries codecs.commit nodeId p.requests n e.entry.data
  onStatus : ∀ h ∈ p.raftQueue, ∀ commitId status e,
    h.onStatus commitId status ≠ Handler.readCommit e
  applied : ∀ n ops ok, Applied.commit (some n) ops ok ∈ p.applied → ∃ entry,
    Carries codecs.commit nodeId p.requests n entry.data ∧
      RedisStore.writesOf codecs.commit entry = Except.ok ops
  db : p.store.db = p.applied.foldl Applied.apply db₀
  /-- A callback that was told OK belongs to a request whose entry has been applied. -/
  invoked : ∀ n, (n, Status.ok) ∈ p.invoked → ∃ ops ok,
    Applied.commit (some n) ops ok ∈ p.applied ∧ ∀ i < ops.length, ok i = true

theorem Sound.start : Sound codecs nodeId db₀ (Process.start nodeId db₀) where
  store := rfl
  raftQueue _ h := by cases h
  proposed _ h := by cases h
  storeQueue _ h := by cases h
  onStatus _ h := by cases h
  applied _ _ _ h := by cases h
  db := rfl
  invoked _ h := by cases h

/-! ## The condition -/

/-- A handler that may acknowledge a request acknowledges one whose entry is applied. -/
def CleanHandler (codecs : Codecs) (s : RedisStore Nat) (ok : Nat → Bool) : Handler → Prop
  | Handler.delStatus commitId status => status = Status.ok → commitId ∉ s.pendingRequests
  | Handler.readCommit e =>
      ∀ n ∈ RedisStore.completes codecs.commit s e.entry, e.origin = some n ∧
        ∀ ops, RedisStore.writesOf codecs.commit e.entry = Except.ok ops →
          ∀ i < ops.length, ok i = true
  | _ => True

def CleanAction (codecs : Codecs) (p : Process) : Action → Prop
  | Action.runStore ok => ∀ h ∈ p.storeQueue.head?, CleanHandler codecs p.store ok h
  | _ => True

/-! ## Each action keeps it -/

theorem Sound.request (h : Sound codecs nodeId db₀ p) {data : RedisCommitData}
    {onStatus : UInt32 → Status → Handler}
    (hon : ∀ commitId status e, onStatus commitId status ≠ Handler.readCommit e) :
    Sound codecs nodeId db₀
      (p.request data (p.store.request codecs.commit data p.requests.length) onStatus) where
  store := h.store
  raftQueue x hx := by
    rcases List.mem_append.mp hx with hx | hx
    · exact (h.raftQueue x hx).append [data]
    · cases List.mem_singleton.mp hx
      refine ⟨data, p.store.nextRequestId, List.getElem?_concat_length, ?_⟩
      show codecs.commit.pack ⟨UInt32.ofNat p.store.nodeId, _, data⟩ = _
      rw [h.store]
  proposed x hx := (h.proposed x hx).append [data]
  storeQueue e he n hn := (h.storeQueue e he n hn).append [data]
  onStatus x hx := by
    rcases List.mem_append.mp hx with hx | hx
    · exact h.onStatus x hx
    · cases List.mem_singleton.mp hx
      exact hon
  applied n ops ok hmem := by
    obtain ⟨entry, hentry, hops⟩ := h.applied n ops ok hmem
    exact ⟨entry, hentry.append [data], hops⟩
  db := h.db
  invoked := h.invoked

theorem Sound.propose (h : Sound codecs nodeId db₀ p) {x : Posted} {queue : List Posted}
    (hqueue : p.raftQueue = x :: queue) (status : Status) :
    Sound codecs nodeId db₀ { p with
      raftQueue := queue
      storeQueue := p.storeQueue ++ [x.onStatus x.proposal.commitId status]
      proposed := p.proposed ++ [x] } where
  store := h.store
  raftQueue y hy := h.raftQueue y (hqueue ▸ List.mem_cons_of_mem x hy)
  proposed y hy := by
    rcases List.mem_append.mp hy with hy | hy
    · exact h.proposed y hy
    · cases List.mem_singleton.mp hy
      exact h.raftQueue x (hqueue ▸ List.mem_cons_self ..)
  storeQueue e he := by
    rcases List.mem_append.mp he with he | he
    · exact h.storeQueue e he
    · exact absurd (List.mem_singleton.mp he).symm
        (h.onStatus x (hqueue ▸ List.mem_cons_self ..) _ _ e)
  onStatus y hy := h.onStatus y (hqueue ▸ List.mem_cons_of_mem x hy)
  applied := h.applied
  db := h.db
  invoked := h.invoked

/-- A handler posted by the raft thread. -/
theorem Sound.post (h : Sound codecs nodeId db₀ p) {x : Handler}
    (hx : ∀ e, x = Handler.readCommit e → ∀ n ∈ e.origin,
      Carries codecs.commit nodeId p.requests n e.entry.data) :
    Sound codecs nodeId db₀ { p with storeQueue := p.storeQueue ++ [x] } where
  store := h.store
  raftQueue := h.raftQueue
  proposed := h.proposed
  storeQueue e he := by
    rcases List.mem_append.mp he with he | he
    · exact h.storeQueue e he
    · exact hx e (List.mem_singleton.mp he).symm
  onStatus := h.onStatus
  applied := h.applied
  db := h.db
  invoked := h.invoked

/-- A handler has been taken from the queue. -/
theorem Sound.pop (h : Sound codecs nodeId db₀ p) {x : Handler} {queue : List Handler}
    (hqueue : p.storeQueue = x :: queue) : Sound codecs nodeId db₀ { p with storeQueue := queue } where
  store := h.store
  raftQueue := h.raftQueue
  proposed := h.proposed
  storeQueue e he := h.storeQueue e (hqueue ▸ List.mem_cons_of_mem x he)
  onStatus := h.onStatus
  applied := h.applied
  db := h.db
  invoked := h.invoked

/-- A status handler invokes callbacks, none of them with OK, and leaves the database alone. -/
theorem Sound.status (h : Sound codecs nodeId db₀ p) {r : RedisStore Nat × List (Nat × Status)}
    (hr : r.1.db = p.store.db ∧ r.1.nodeId = p.store.nodeId)
    (hok : ∀ x ∈ r.2, x.2 ≠ Status.ok) :
    Sound codecs nodeId db₀ { p with store := r.1, invoked := p.invoked ++ r.2 } where
  store := hr.2.trans h.store
  raftQueue := h.raftQueue
  proposed := h.proposed
  storeQueue := h.storeQueue
  onStatus := h.onStatus
  applied := h.applied
  db := hr.1.trans h.db
  invoked n hn := by
    rcases List.mem_append.mp hn with hn | hn
    · exact h.invoked n hn
    · exact absurd rfl (hok _ hn)

theorem Sound.readCommit (h : Sound codecs nodeId db₀ p) {e : Committed} {ok : Nat → Bool}
    {r : RedisStore Nat × List (Nat × Status)} {ops : List WriteOp}
    (hcarries : ∀ n ∈ e.origin, Carries codecs.commit nodeId p.requests n e.entry.data)
    (hclean : CleanHandler codecs p.store ok (Handler.readCommit e))
    (hr : p.store.readCommit codecs.commit ok e.entry = Except.ok r)
    (hops : RedisStore.writesOf codecs.commit e.entry = Except.ok ops) :
    Sound codecs nodeId db₀ { p with
      store := r.1
      invoked := p.invoked ++ r.2
      applied := p.applied ++ [Applied.commit e.origin ops ok] } := by
  obtain ⟨ops', hops', hdb, hnode, hinvoked⟩ := RedisStore.readCommit_spec hr
  obtain rfl : ops = ops' := Except.ok.inj (hops.symm.trans hops')
  refine ⟨hnode.trans h.store, h.raftQueue, h.proposed, h.storeQueue, h.onStatus, ?_, ?_, ?_⟩
  · intro n ops' ok' hmem
    rcases List.mem_append.mp hmem with hmem | hmem
    · exact h.applied n ops' ok' hmem
    · injection List.mem_singleton.mp hmem with horigin hops'' _
      exact ⟨e.entry, hcarries n horigin.symm, hops'' ▸ hops⟩
  · show r.1.db = _
    rw [hdb, h.db, List.foldl_append]
    rfl
  · intro n hn
    rcases List.mem_append.mp hn with hn | hn
    · obtain ⟨ops', ok', hmem, hall⟩ := h.invoked n hn
      exact ⟨ops', ok', List.mem_append_left _ hmem, hall⟩
    · obtain ⟨horigin, hall⟩ := hclean n (hinvoked _ hn).1
      refine ⟨ops, ok, List.mem_append_right _ ?_, hall ops hops⟩
      rw [horigin]
      exact List.mem_singleton_self _

theorem Sound.snapshot (h : Sound codecs nodeId db₀ p) (keyValues : List (Bytes × Bytes))
    (ok : Bool) :
    Sound codecs nodeId db₀ { p with
      store := p.store.loadKvToRocksdb ok keyValues
      applied := p.applied ++ [Applied.snapshot keyValues ok] } where
  store := h.store
  raftQueue := h.raftQueue
  proposed := h.proposed
  storeQueue := h.storeQueue
  onStatus := h.onStatus
  applied n ops ok' hmem := by
    rcases List.mem_append.mp hmem with hmem | hmem
    · exact h.applied n ops ok' hmem
    · cases List.mem_singleton.mp hmem
  db := by
    show (p.store.loadKvToRocksdb ok keyValues).db = _
    rw [List.foldl_append, ← h.db]
    rfl
  invoked n hn := by
    obtain ⟨ops, ok', hmem, hall⟩ := h.invoked n hn
    exact ⟨ops, ok', List.mem_append_left _ hmem, hall⟩

theorem Sound.runHandler (h : Sound codecs nodeId db₀ p) {ok : Nat → Bool} {x : Handler}
    (hcarries : ∀ e, x = Handler.readCommit e → ∀ n ∈ e.origin,
      Carries codecs.commit nodeId p.requests n e.entry.data)
    (hclean : CleanHandler codecs p.store ok x)
    (hrun : p.runHandler codecs ok x = Except.ok p') : Sound codecs nodeId db₀ p' := by
  cases x with
  | setStatus commitId status =>
      cases Outcome.pure_eq_ok.mp hrun
      refine h.status (p.store.setStatus_fst commitId status) fun x hx hok => ?_
      have := RedisStore.mem_setStatus hx
      rw [hok] at this
      cases this
  | delStatus commitId status =>
      cases Outcome.pure_eq_ok.mp hrun
      refine h.status (p.store.complete_fst commitId status) fun x hx hok => ?_
      obtain ⟨hlookup, hstatus⟩ := RedisStore.mem_complete hx
      refine hclean (hstatus.symm.trans hok) (AList.lookup_isSome.mp ?_)
      rw [hlookup]
      rfl
  | readCommit e =>
      obtain ⟨r, hr, hrun⟩ := Outcome.bind_eq_ok.mp hrun
      obtain ⟨ops, hops, hrun⟩ := Outcome.bind_eq_ok.mp hrun
      cases Outcome.pure_eq_ok.mp hrun
      exact h.readCommit (hcarries e rfl) hclean hr hops
  | recoverFromSnapshot snap =>
      obtain ⟨r, hr, hrun⟩ := Outcome.bind_eq_ok.mp hrun
      rw [RedisStore.recoverFromSnapshot] at hr
      cases hunpack : codecs.keyValues.unpack snap with
      | error err =>
          rw [hunpack] at hrun
          cases hrun
      | ok keyValues =>
          rw [hunpack] at hr hrun
          cases Outcome.pure_eq_ok.mp hr
          cases Outcome.pure_eq_ok.mp hrun
          exact h.snapshot keyValues (ok 0)

/-- **Each clean action keeps it.** -/
theorem Sound.act (h : Sound codecs nodeId db₀ p) {a : Action} (ha : CleanAction codecs p a)
    (hact : p.act codecs a = Except.ok p') : Sound codecs nodeId db₀ p' := by
  cases a with
  | set key value =>
      cases Outcome.pure_eq_ok.mp hact
      exact h.request fun _ _ _ => nofun
  | del keys =>
      cases Outcome.pure_eq_ok.mp hact
      exact h.request fun _ _ _ => nofun
  | propose status =>
      rw [Process.act] at hact
      split at hact
      · cases Outcome.pure_eq_ok.mp hact
        exact h
      · rename_i x queue hqueue
        cases Outcome.pure_eq_ok.mp hact
        exact h.propose hqueue status
  | publishEntry e =>
      rw [Process.act] at hact
      split at hact
      · rename_i henabled
        cases Outcome.pure_eq_ok.mp hact
        refine h.post fun e' he' n hn => ?_
        cases he'
        obtain ⟨x, hx, rfl, hdata⟩ := henabled.2 n hn
        exact hdata ▸ h.proposed x hx
      · cases Outcome.pure_eq_ok.mp hact
        exact h
  | publishSnapshot snap =>
      cases Outcome.pure_eq_ok.mp hact
      exact h.post fun _ => nofun
  | runStore ok =>
      rw [Process.act] at hact
      split at hact
      · cases Outcome.pure_eq_ok.mp hact
        exact h
      · rename_i x queue hqueue
        refine (h.pop hqueue).runHandler (fun e he => ?_) (ha x (by rw [hqueue]; rfl)) hact
        exact h.storeQueue e (by rw [hqueue, he]; exact List.mem_cons_self ..)

/-! ## Acknowledged writes -/

/-- **Acknowledged writes are applied writes.**  In a clean run, a request whose callback was told
OK has its entry among the applied ones, with every write of it done; and what it wrote is what
`get` returns, unless something applied later is about the same key. -/
theorem acknowledged_applied
    (hrun : RunOf (Process.act codecs) (CleanAction codecs) (Process.start nodeId db₀) p)
    (hcodec : ∀ data ∈ p.requests, ∀ commitId,
      codecs.commit.RoundTrips ⟨UInt32.ofNat nodeId, commitId, data⟩)
    {n : Nat} (hack : (n, Status.ok) ∈ p.invoked) :
    ∃ data ops ok before after, p.requests[n]? = some data ∧
      RedisStore.commitWrites data = Except.ok ops ∧ (∀ i < ops.length, ok i = true) ∧
      p.applied = before ++ Applied.commit (some n) ops ok :: after ∧
      ∀ op ∈ ops, (∀ a ∈ after, ¬ a.Touches op.key) → p.store.get op.key = op.value := by
  have h : Sound codecs nodeId db₀ p :=
    hrun.invariant (fun _ _ _ hs ha hact => Sound.act hs ha hact) Sound.start
  obtain ⟨ops, ok, hmem, hall⟩ := h.invoked n hack
  obtain ⟨entry, ⟨data, commitId, hn, hbytes⟩, hops⟩ := h.applied n ops ok hmem
  have hwrites : RedisStore.commitWrites data = Except.ok ops := by
    have hunpack : codecs.commit.unpack entry.data =
        Except.ok ⟨UInt32.ofNat nodeId, commitId, data⟩ := by
      rw [hbytes]
      exact hcodec data (List.mem_of_getElem? hn) commitId
    rw [RedisStore.writesOf, hunpack] at hops
    exact hops
  obtain ⟨before, after, hsplit⟩ := List.append_of_mem hmem
  refine ⟨data, ops, ok, before, after, hn, hwrites, hall, hsplit, fun op hop hafter => ?_⟩
  show p.store.db.get op.key = op.value
  rw [h.db, hsplit, List.foldl_append, List.foldl_cons, Applied.get_foldl_apply _ hafter]
  show (RocksDB.writeEach ok _ ops).get op.key = op.value
  rw [RocksDB.writeEach_eq_write _ hall]
  exact RedisStore.get_commitWrites hwrites hop _

/-- The packing of the msgpack library. -/
def msgpack : Codecs := ⟨commitCodec, keyValuesCodec⟩

set_option maxRecDepth 4000 in
/-- A process that has committed and applied a `set`. -/
theorem acknowledged_applied_set :
    ∃ p, RunOf (Process.act msgpack) (CleanAction msgpack) (Process.start 1 OrderedMap.empty) p ∧
      (0, Status.ok) ∈ p.invoked ∧ ∃ data ops ok before after, p.requests[0]? = some data ∧
        RedisStore.commitWrites data = Except.ok ops ∧ (∀ i < ops.length, ok i = true) ∧
        p.applied = before ++ Applied.commit (some 0) ops ok :: after ∧
        ∀ op ∈ ops, (∀ a ∈ after, ¬ a.Touches op.key) → p.store.get op.key = op.value := by
  let data : RedisCommitData := ⟨RedisCommitData.kCommitSet, [[97], [98]]⟩
  let e : Committed := ⟨{ term := 1, index := 1, data := commitCodec.pack ⟨1, 0, data⟩ }, some 0⟩
  have h₀ : RunOf (Process.act msgpack) (CleanAction msgpack) (Process.start 1 OrderedMap.empty) _ :=
    RunOf.refl _
  have h₁ := h₀.step (Action.set [97] [98]) trivial rfl
  have h₂ := h₁.step (Action.propose Status.ok) trivial rfl
  have h₃ := h₂.step (Action.publishEntry e) trivial rfl
  have h₄ := h₃.step (Action.runStore fun _ => true) (by rintro _ ⟨⟩; trivial) rfl
  have h₅ := h₄.step (Action.runStore fun _ => true)
    (by rintro _ ⟨⟩ n hn; cases hn; exact ⟨rfl, fun _ _ _ _ => rfl⟩) rfl
  refine ⟨_, h₅, List.mem_singleton_self _,
    acknowledged_applied h₅ (fun d hd commitId => ?_) (List.mem_singleton_self _)⟩
  cases List.mem_singleton.mp hd
  exact commitCodec_roundTrips _ (show 2 < 16 by decide)
    (show ∀ s ∈ [[97], [98]], List.length s < 32 by decide)

/-- A `del` is acknowledged when its proposal is accepted: nothing has been applied, and the key is
still there. -/
theorem del_acknowledged_early :
    ∃ p, RunOf (Process.act msgpack) (fun _ _ => True)
        (Process.start 1 (OrderedMap.empty.put [97] [98])) p ∧
      (0, Status.ok) ∈ p.invoked ∧ p.applied = [] ∧ p.store.get [97] = some [98] := by
  have h₀ : RunOf (Process.act msgpack) (fun _ _ => True)
    (Process.start 1 (OrderedMap.empty.put [97] [98])) _ := RunOf.refl _
  have h₁ := h₀.step (Action.del [[97]]) trivial rfl
  have h₂ := h₁.step (Action.propose Status.ok) trivial rfl
  have h₃ := h₂.step (Action.runStore fun _ => true) trivial rfl
  exact ⟨_, h₃, List.mem_singleton_self _, rfl, rfl⟩

end Process

end RaftKv
