import RaftKv.Server.Numbering

/-!
# Restarts of a process

A node whose process is restarted any number of times.  A new process starts to count its requests
at 0 again, while entries that an earlier one has proposed may still be committed and published.

* `Incarnations`, `Incarnations.act` — the processes of a node, one after the other, and what
  `read_commit` has completed.
* `Incarnations.completed_own` — **a request is completed by its own entry**, in every run in which
  an entry that completes a request was proposed by the same process and fewer than 2^32 requests
  ago.
-/

namespace RaftKv

/-- `read_commit` has found the callback of a request and invoked it with OK. -/
structure Incarnations.Completion where
  entry : Process.Committed
  request : Nat
  /-- What the request was. -/
  data : Option RedisCommitData

structure Incarnations where
  process : Process
  /-- The requests of earlier processes, and the proposals raft was given for them. -/
  pastRequests : List RedisCommitData := []
  pastProposed : List Process.Posted := []
  completed : List Incarnations.Completion := []

namespace Incarnations

inductive Action where
  | step (a : Process.Action)
  /-- The process ends, and a new one finds `db` on the disk. -/
  | restart (db : RocksDB)

def start (nodeId : Nat) (db : RocksDB) : Incarnations where
  process := Process.start nodeId db

/-- The entry whose commit handler an action runs. -/
def commitOf (p : Process) : Process.Action → Option Process.Committed
  | Process.Action.runStore _ =>
      match p.storeQueue with
      | Process.Handler.readCommit e :: _ => some e
      | _ => none
  | _ => none

/-- What an action completes. -/
def completions (codecs : Process.Codecs) (p : Process) (a : Process.Action) : List Completion :=
  match commitOf p a with
  | none => []
  | some e =>
      match RedisStore.completes codecs.commit p.store e.entry with
      | none => []
      | some n => [⟨e, n, p.requests[n]?⟩]

def act (codecs : Process.Codecs) (nodeId : Nat) (s : Incarnations) : Action → Outcome Incarnations
  | Action.step a => do
      let p ← s.process.act codecs a
      return { s with
        process := p
        completed := s.completed ++ completions codecs s.process a }
  | Action.restart db =>
      pure { s with
        process := Process.start nodeId db
        pastRequests := s.pastRequests ++ s.process.requests
        pastProposed := s.pastProposed ++ s.process.proposed }

/-- An entry that completes a request was proposed by this process, and since its request fewer
than 2^32 others have been made. -/
def CleanAction (codecs : Process.Codecs) (s : Incarnations) : Action → Prop
  | Action.step a => ∀ e ∈ commitOf s.process a,
      RedisStore.completes codecs.commit s.process.store e.entry ≠ none →
        ∃ n ∈ e.origin, s.process.requests.length ≤ n + 2 ^ 32
  | Action.restart _ => True

/-- The entry is the one that was proposed for the request: same operation, key and value. -/
def Completion.Own (codec : Codec RaftCommit) (c : Completion) : Prop :=
  c.entry.origin = some c.request ∧ ∃ commit,
    codec.unpack c.entry.entry.data = Except.ok commit ∧ c.data = some commit.redisData

/-! ## Where the data of an entry comes from -/

variable {codecs : Process.Codecs} {nodeId : Nat} {p p' : Process} {s s' : Incarnations}

/-- The bytes are the packed commit of request `n`. -/
def PackedRequest (codec : Codec RaftCommit) (p : Process) (n : Nat) (bytes : Bytes) : Prop :=
  ∃ data, p.requests[n]? = some data ∧
    bytes = codec.pack ⟨UInt32.ofNat p.store.nodeId, UInt32.ofNat n, data⟩

/-- Proposals and the entries that come from them carry the packed commits of their requests. -/
structure Attributed (codec : Codec RaftCommit) (p : Process) : Prop where
  raftQueue : ∀ h ∈ p.raftQueue, PackedRequest codec p h.origin h.proposal.data
  onStatus : ∀ h ∈ p.raftQueue, ∀ commitId status e,
    h.onStatus commitId status ≠ Process.Handler.readCommit e
  proposed : ∀ h ∈ p.proposed, PackedRequest codec p h.origin h.proposal.data
  storeQueue : ∀ e, Process.Handler.readCommit e ∈ p.storeQueue → ∀ n ∈ e.origin,
    PackedRequest codec p n e.entry.data

theorem Attributed.start (nodeId : Nat) (db : RocksDB) :
    Attributed codecs.commit (Process.start nodeId db) where
  raftQueue _ h := by cases h
  onStatus _ h := by cases h
  proposed _ h := by cases h
  storeQueue _ h := by cases h

/-- The node id and the requests so far stay. -/
def Extends (p p' : Process) : Prop :=
  p'.store.nodeId = p.store.nodeId ∧ p.requests <+: p'.requests

lemma PackedRequest.extends (h : Extends p p') {n : Nat} {bytes : Bytes}
    (hbytes : PackedRequest codecs.commit p n bytes) : PackedRequest codecs.commit p' n bytes := by
  obtain ⟨data, hn, rfl⟩ := hbytes
  refine ⟨data, ?_, by rw [h.1]⟩
  obtain ⟨more, hmore⟩ := h.2
  rw [← hmore, List.getElem?_append_left (List.getElem?_eq_some_iff.mp hn).1, hn]

theorem Attributed.request (h : Attributed codecs.commit p)
    (hids : RequestIds p.store p.requests.length p.invoked) {data : RedisCommitData}
    {onStatus : UInt32 → Status → Process.Handler}
    (hon : ∀ commitId status e, onStatus commitId status ≠ Process.Handler.readCommit e) :
    Attributed codecs.commit
      (p.request data (p.store.request codecs.commit data p.requests.length) onStatus) := by
  have hext : Extends p
      (p.request data (p.store.request codecs.commit data p.requests.length) onStatus) :=
    ⟨rfl, List.prefix_append ..⟩
  refine ⟨fun x hx => ?_, fun x hx => ?_, fun x hx => (h.proposed x hx).extends hext,
    fun e he n hn => (h.storeQueue e he n hn).extends hext⟩
  · rcases List.mem_append.mp hx with hx | hx
    · exact (h.raftQueue x hx).extends hext
    · cases List.mem_singleton.mp hx
      refine ⟨data, List.getElem?_concat_length, ?_⟩
      show codecs.commit.pack ⟨_, p.store.nextRequestId, data⟩ = _
      rw [hids.next]
      rfl
  · rcases List.mem_append.mp hx with hx | hx
    · exact h.onStatus x hx
    · cases List.mem_singleton.mp hx
      exact hon

/-- What a handler leaves alone. -/
lemma runHandler_frame {ok : Nat → Bool} {x : Process.Handler}
    (hrun : p.runHandler codecs ok x = Except.ok p') :
    p'.raftQueue = p.raftQueue ∧ p'.proposed = p.proposed ∧ p'.storeQueue = p.storeQueue ∧
      p'.requests = p.requests ∧ p'.store.nodeId = p.store.nodeId := by
  cases x with
  | setStatus commitId status =>
      cases Outcome.pure_eq_ok.mp hrun
      exact ⟨rfl, rfl, rfl, rfl, (p.store.setStatus_fst commitId status).2⟩
  | delStatus commitId status =>
      cases Outcome.pure_eq_ok.mp hrun
      exact ⟨rfl, rfl, rfl, rfl, (p.store.complete_fst commitId status).2⟩
  | readCommit e =>
      obtain ⟨r, hr, hrun⟩ := Outcome.bind_eq_ok.mp hrun
      obtain ⟨ops, -, hrun⟩ := Outcome.bind_eq_ok.mp hrun
      cases Outcome.pure_eq_ok.mp hrun
      obtain ⟨_, -, -, hnode, -⟩ := RedisStore.readCommit_spec hr
      exact ⟨rfl, rfl, rfl, rfl, hnode⟩
  | recoverFromSnapshot snap =>
      obtain ⟨r, hr, hrun⟩ := Outcome.bind_eq_ok.mp hrun
      rw [RedisStore.recoverFromSnapshot] at hr
      cases hunpack : codecs.keyValues.unpack snap with
      | error err =>
          rw [hunpack] at hrun
          cases hrun
      | ok keyValues =>
          rw [hunpack] at hr hrun
          cases Outcome.pure_eq_ok.mp hr
          cases Outcome.pure_eq_ok.mp hrun
          exact ⟨rfl, rfl, rfl, rfl, rfl⟩

lemma act_extends {a : Process.Action} (hact : p.act codecs a = Except.ok p') : Extends p p' := by
  have hsame : Extends p p := ⟨rfl, List.prefix_refl _⟩
  cases a with
  | set key value =>
      cases Outcome.pure_eq_ok.mp hact
      exact ⟨rfl, List.prefix_append ..⟩
  | del keys =>
      cases Outcome.pure_eq_ok.mp hact
      exact ⟨rfl, List.prefix_append ..⟩
  | propose status =>
      rw [Process.act] at hact
      split at hact <;> cases Outcome.pure_eq_ok.mp hact <;> exact hsame
  | publishEntry e =>
      rw [Process.act] at hact
      split at hact <;> cases Outcome.pure_eq_ok.mp hact <;> exact hsame
  | publishSnapshot snap =>
      cases Outcome.pure_eq_ok.mp hact
      exact hsame
  | runStore ok =>
      rw [Process.act] at hact
      split at hact
      · cases Outcome.pure_eq_ok.mp hact
        exact hsame
      · obtain ⟨-, -, -, hrequests, hnode⟩ := runHandler_frame hact
        exact ⟨hnode, hrequests ▸ List.prefix_refl _⟩

/-- **Every action keeps it.** -/
theorem Attributed.act (h : Attributed codecs.commit p)
    (hids : RequestIds p.store p.requests.length p.invoked) {a : Process.Action}
    (hact : p.act codecs a = Except.ok p') : Attributed codecs.commit p' := by
  have hext := act_extends hact
  cases a with
  | set key value =>
      cases Outcome.pure_eq_ok.mp hact
      exact h.request hids fun _ _ _ => nofun
  | del keys =>
      cases Outcome.pure_eq_ok.mp hact
      exact h.request hids fun _ _ _ => nofun
  | propose status =>
      rw [Process.act] at hact
      split at hact
      · cases Outcome.pure_eq_ok.mp hact
        exact h
      · rename_i x queue hqueue
        cases Outcome.pure_eq_ok.mp hact
        have hx : x ∈ p.raftQueue := hqueue ▸ List.mem_cons_self ..
        have htail : ∀ y ∈ queue, y ∈ p.raftQueue := fun y hy =>
          hqueue ▸ List.mem_cons_of_mem x hy
        refine ⟨fun y hy => h.raftQueue y (htail y hy), fun y hy => h.onStatus y (htail y hy),
          fun y hy => ?_, fun e he => ?_⟩
        · rcases List.mem_append.mp hy with hy | hy
          · exact h.proposed y hy
          · cases List.mem_singleton.mp hy
            exact h.raftQueue x hx
        · rcases List.mem_append.mp he with he | he
          · exact h.storeQueue e he
          · exact absurd (List.mem_singleton.mp he).symm (h.onStatus x hx _ _ e)
  | publishEntry e =>
      rw [Process.act] at hact
      split at hact
      · rename_i henabled
        cases Outcome.pure_eq_ok.mp hact
        refine ⟨h.raftQueue, h.onStatus, h.proposed, fun e' he' n hn => ?_⟩
        rcases List.mem_append.mp he' with he' | he'
        · exact h.storeQueue e' he' n hn
        · cases List.mem_singleton.mp he'
          obtain ⟨x, hx, rfl, hdata⟩ := henabled.2 n hn
          exact hdata ▸ h.proposed x hx
      · cases Outcome.pure_eq_ok.mp hact
        exact h
  | publishSnapshot snap =>
      cases Outcome.pure_eq_ok.mp hact
      refine ⟨h.raftQueue, h.onStatus, h.proposed, fun e he => ?_⟩
      rcases List.mem_append.mp he with he | he
      · exact h.storeQueue e he
      · cases List.mem_singleton.mp he
  | runStore ok =>
      rw [Process.act] at hact
      split at hact
      · cases Outcome.pure_eq_ok.mp hact
        exact h
      · rename_i x queue hqueue
        obtain ⟨hraft, hproposed, hstore, -, -⟩ := runHandler_frame hact
        refine ⟨?_, ?_, ?_, ?_⟩
        · rw [hraft]
          exact fun x hx => (h.raftQueue x hx).extends hext
        · rw [hraft]
          exact h.onStatus
        · rw [hproposed]
          exact fun x hx => (h.proposed x hx).extends hext
        · rw [hstore]
          exact fun e he n hn =>
            (h.storeQueue e (hqueue ▸ List.mem_cons_of_mem x he) n hn).extends hext

/-! ## Completions -/

/-- The entry that a clean action completes a request with is the request's own. -/
lemma own_of_clean (hattr : Attributed codecs.commit p)
    (hids : RequestIds p.store p.requests.length p.invoked)
    (hcodec : ∀ data ∈ p.requests, ∀ commitId,
      codecs.commit.RoundTrips ⟨UInt32.ofNat p.store.nodeId, commitId, data⟩)
    {a : Process.Action} {e : Process.Committed} (he : commitOf p a = some e) {n : Nat}
    (hn : n ∈ e.origin) (hlen : p.requests.length ≤ n + 2 ^ 32) {m : Nat}
    (hm : RedisStore.completes codecs.commit p.store e.entry = some m) :
    (Completion.mk e m p.requests[m]?).Own codecs.commit := by
  have hqueue : Process.Handler.readCommit e ∈ p.storeQueue := by
    cases a with
    | runStore ok =>
        rw [commitOf] at he
        split at he
        · rename_i hq
          cases he
          exact hq ▸ List.mem_cons_self ..
        · cases he
    | _ => cases he
  obtain ⟨data, hdata, hbytes⟩ := hattr.storeQueue e hqueue n hn
  have hunpack : codecs.commit.unpack e.entry.data =
      Except.ok ⟨UInt32.ofNat p.store.nodeId, UInt32.ofNat n, data⟩ := by
    rw [hbytes]
    exact hcodec data (List.mem_of_getElem? hdata) _
  rw [RedisStore.completes, hunpack] at hm
  dsimp only at hm
  split_ifs at hm
  obtain ⟨hid, hlt, hle⟩ := hids.pending _ m hm
  have hnlt : n < p.requests.length := (List.getElem?_eq_some_iff.mp hdata).1
  -- two of the last 2 ^ 32 requests with the same id are the same
  have hnm : n = m := by
    have := ofNat_eq_iff.mp hid
    omega
  subst hnm
  exact ⟨hn, _, hunpack, hdata⟩

/-- **A pending request is completed only by its own entry**, in every run with restarts in which an
entry that completes a request was proposed by the process that runs and fewer than 2^32 requests
ago. -/
theorem completed_own {db : RocksDB}
    (hrun : RunOf (act codecs nodeId) (CleanAction codecs) (start nodeId db) s)
    (hcodec : ∀ data ∈ s.pastRequests ++ s.process.requests, ∀ commitId,
      codecs.commit.RoundTrips ⟨UInt32.ofNat nodeId, commitId, data⟩) :
    ∀ c ∈ s.completed, c.Own codecs.commit := by
  suffices h : (s.process.store.nodeId = nodeId ∧ Attributed codecs.commit s.process ∧
      RequestIds s.process.store s.process.requests.length s.process.invoked) ∧
      ∀ c ∈ s.completed, c.Own codecs.commit from h.2
  induction hrun with
  | refl =>
      exact ⟨⟨rfl, Attributed.start nodeId db, RequestIds.start nodeId db⟩, fun c hc => by cases hc⟩
  | @step s s' a hrun ha hact ih =>
      cases a with
      | restart db' =>
          cases Outcome.pure_eq_ok.mp hact
          have := ih fun data hdata => hcodec data (List.mem_append_left _ hdata)
          exact ⟨⟨rfl, Attributed.start nodeId db', RequestIds.start nodeId db'⟩, this.2⟩
      | step a =>
          obtain ⟨p, hp, hact⟩ := Outcome.bind_eq_ok.mp hact
          cases Outcome.pure_eq_ok.mp hact
          have hmono : s.process.requests ⊆ p.requests := (act_extends hp).2.subset
          obtain ⟨⟨hnode, hattr, hids⟩, hown⟩ := ih fun data hdata => hcodec data (by
            rcases List.mem_append.mp hdata with hdata | hdata
            · exact List.mem_append_left _ hdata
            · exact List.mem_append_right _ (hmono hdata))
          refine ⟨⟨(act_extends hp).1.trans hnode, hattr.act hids hp, hids.act hp⟩, fun c hc => ?_⟩
          rcases List.mem_append.mp hc with hc | hc
          · exact hown c hc
          · rw [completions] at hc
            split at hc
            · cases hc
            · rename_i e he
              split at hc
              · cases hc
              · rename_i m hm
                cases List.mem_singleton.mp hc
                obtain ⟨n, hn, hlen⟩ := ha e he (by rw [hm]; exact Option.some_ne_none m)
                refine own_of_clean hattr hids (fun data hdata commitId => ?_) he hn hlen hm
                rw [hnode]
                exact hcodec data (List.mem_append_right _ (hmono hdata)) commitId

/-- A `set`, accepted and committed in the process that proposed it. -/
def entryOf (key value : Bytes) : Entry where
  term := 1
  index := 1
  data := commitCodec.pack ⟨1, 0, ⟨RedisCommitData.kCommitSet, [key, value]⟩⟩

set_option maxRecDepth 4000 in
theorem completed_own_set :
    ∃ s : Incarnations, s.completed ≠ [] ∧ ∀ c ∈ s.completed, c.Own commitCodec := by
  have h₀ : RunOf (act Process.msgpack 1) (CleanAction Process.msgpack)
    (start 1 OrderedMap.empty) _ := RunOf.refl _
  have h₁ := h₀.step (Action.step (Process.Action.set [97] [98])) (by rintro _ ⟨⟩) rfl
  have h₂ := h₁.step (Action.step (Process.Action.propose Status.ok)) (by rintro _ ⟨⟩) rfl
  have h₃ := h₂.step (Action.step (Process.Action.publishEntry ⟨entryOf [97] [98], some 0⟩))
    (by rintro _ ⟨⟩) rfl
  have h₄ := h₃.step (Action.step (Process.Action.runStore fun _ => true)) (by rintro _ ⟨⟩) rfl
  have h₅ := h₄.step (Action.step (Process.Action.runStore fun _ => true))
    (by rintro _ ⟨⟩ -; exact ⟨0, rfl, by decide⟩) rfl
  refine ⟨_, List.cons_ne_nil _ _, completed_own h₅ fun data hdata commitId => ?_⟩
  cases List.mem_singleton.mp hdata
  exact commitCodec_roundTrips _ (show 2 < 16 by decide)
    (show ∀ s ∈ [[97], [98]], List.length s < 32 by decide)

set_option maxRecDepth 4000 in
/-- An entry of the process before the restart completes the first request of the new process. -/
theorem completed_by_old_entry :
    ∃ s : Incarnations, RunOf (act Process.msgpack 1) (fun _ _ => True)
        (start 1 OrderedMap.empty) s ∧
      ∃ c ∈ s.completed, (∃ h ∈ s.pastProposed, c.entry.entry.data = h.proposal.data) ∧
        s.process.requests[c.request]? = some ⟨RedisCommitData.kCommitSet, [[99], [100]]⟩ ∧
        (c.request, Status.ok) ∈ s.process.invoked ∧ ¬ c.Own commitCodec := by
  have h₀ : RunOf (act Process.msgpack 1) (fun _ _ => True) (start 1 OrderedMap.empty) _ :=
    RunOf.refl _
  have h₁ := h₀.step (Action.step (Process.Action.set [97] [98])) trivial rfl
  have h₂ := h₁.step (Action.step (Process.Action.propose Status.ok)) trivial rfl
  have h₃ := h₂.step (Action.restart OrderedMap.empty) trivial rfl
  have h₄ := h₃.step (Action.step (Process.Action.set [99] [100])) trivial rfl
  have h₅ := h₄.step (Action.step (Process.Action.publishEntry ⟨entryOf [97] [98], none⟩))
    trivial rfl
  have h₆ := h₅.step (Action.step (Process.Action.runStore fun _ => true)) trivial rfl
  refine ⟨_, h₆, _, List.mem_singleton_self _, ⟨_, List.mem_singleton_self _, rfl⟩, rfl,
    List.mem_singleton_self _, ?_⟩
  rintro ⟨horigin, -⟩
  cases horigin

end Incarnations

end RaftKv
