import RaftKv.Server.Commands
import RaftKv.Server.Numbering

/-!
# The order of replies

Sessions on top of the two threads of a process.  A session numbers the commands it receives; the
answers that are at hand go to the send buffer at once, those of `set` and `del` when the store
invokes the callback.

* `Server`, `Server.Action`, `Server.act` — sessions, their send buffers and the process.
* `Server.replies_in_order` — **what order there is**: no command is answered twice, a reply
  behind that of a later command is one of a callback, and a session whose client sends no command
  before the one before it is answered gets its replies in the order of the commands.
-/

namespace RaftKv

/-- A reply that was appended to a send buffer, with the number of the command it answers. -/
structure Reply where
  command : Nat
  /-- A callback of the store has sent it. -/
  byCallback : Bool
  data : Bytes
  deriving DecidableEq, Repr

/-- The sending side of a session. -/
structure Connection where
  /-- How many commands have been received. -/
  received : Nat := 0
  sendBuffer : Bytes := []
  /-- The asynchronous writes under way. -/
  writing : List Bytes := []
  /-- The replies appended to the send buffer so far. -/
  replies : List Reply := []

namespace Connection

def startSend (c : Connection) : Connection :=
  if c.sendBuffer = [] then c else { c with writing := c.writing ++ [c.sendBuffer] }

def sendReply (c : Connection) (reply : Reply) : Connection :=
  let c' := { c with
    sendBuffer := c.sendBuffer ++ reply.data
    replies := c.replies ++ [reply] }
  if c.sendBuffer = [] then c'.startSend else c'

/-- The handler of a completed write. -/
def written (c : Connection) : Connection :=
  match c.writing with
  | [] => c
  | w :: writing =>
      startSend { c with writing := writing, sendBuffer := c.sendBuffer.drop w.length }

@[simp] lemma startSend_received (c : Connection) : c.startSend.received = c.received := by
  rw [startSend]
  split_ifs <;> rfl

@[simp] lemma startSend_replies (c : Connection) : c.startSend.replies = c.replies := by
  rw [startSend]
  split_ifs <;> rfl

@[simp] lemma sendReply_received (c : Connection) (reply : Reply) :
    (c.sendReply reply).received = c.received := by
  rw [sendReply]
  split_ifs <;> simp

@[simp] lemma sendReply_replies (c : Connection) (reply : Reply) :
    (c.sendReply reply).replies = c.replies ++ [reply] := by
  rw [sendReply]
  split_ifs <;> simp

@[simp] lemma written_received (c : Connection) : c.written.received = c.received := by
  rw [written]
  split <;> simp

@[simp] lemma written_replies (c : Connection) : c.written.replies = c.replies := by
  rw [written]
  split <;> simp

end Connection

structure Server where
  process : Process
  connections : Nat → Connection := fun _ => {}
  /-- The session and the command of each request. -/
  owner : List (Nat × Nat) := []

namespace Server

inductive Action where
  /-- `handle_read` passes a reply of the reader to `on_redis_reply`. -/
  | receive (session : Nat) (reply : RedisReply)
  /-- A write of a session has been completed. -/
  | written (session : Nat)
  | propose (status : Status)
  | publishEntry (e : Process.Committed)
  | publishSnapshot (snap : Bytes)
  | runStore (ok : Nat → Bool)

def start (nodeId : Nat) (db : RocksDB) : Server where
  process := Process.start nodeId db

def modify (s : Server) (session : Nat) (f : Connection → Connection) : Server :=
  { s with connections := Function.update s.connections session (f (s.connections session)) }

/-- An invoked callback sends its reply. -/
def answer (s : Server) (x : Nat × Status) : Outcome Server :=
  match s.owner[x.1]? with
  | none => pure s
  | some o => do
      let data ← Commands.statusReply x.2
      return s.modify o.1 fun c => c.sendReply ⟨o.2, true, data⟩

/-- A command that becomes a request. -/
def request (codecs : Process.Codecs) (s : Server) (session : Nat) (a : Process.Action) :
    Outcome Server := do
  let p ← s.process.act codecs a
  let s' := { s with
    process := p
    owner := s.owner ++ [(session, (s.connections session).received)] }
  return s'.modify session fun c => { c with received := c.received + 1 }

/-- An action of the process that invokes no callback. -/
def passOn (codecs : Process.Codecs) (s : Server) (a : Process.Action) : Outcome Server := do
  let p ← s.process.act codecs a
  return { s with process := p }

def act (strdupPrintf : Commands.StrdupPrintf) (codecs : Process.Codecs) (s : Server) :
    Action → Outcome Server
  | Action.receive session reply => do
      match ← Commands.onRedisReply strdupPrintf s.process.store reply with
      | Commands.Reaction.reply data =>
          return s.modify session fun c =>
            Connection.sendReply { c with received := c.received + 1 } ⟨c.received, false, data⟩
      | Commands.Reaction.set key value =>
          s.request codecs session (Process.Action.set key value)
      | Commands.Reaction.del keys => s.request codecs session (Process.Action.del keys)
  | Action.written session => pure (s.modify session Connection.written)
  | Action.propose status => s.passOn codecs (Process.Action.propose status)
  | Action.publishEntry e => s.passOn codecs (Process.Action.publishEntry e)
  | Action.publishSnapshot snap => s.passOn codecs (Process.Action.publishSnapshot snap)
  | Action.runStore ok => do
      let p ← s.process.act codecs (Process.Action.runStore ok)
      (p.invoked.drop s.process.invoked.length).foldlM answer { s with process := p }

/-! ## The invariant -/

/-- The replies of one session, when the callbacks in `done` have sent theirs. -/
structure Connected (owners : List (Nat × Nat)) (done : List (Nat × Status)) (session : Nat)
    (c : Connection) : Prop where
  owner : ∀ command, (session, command) ∈ owners → command < c.received
  received : ∀ r ∈ c.replies, r.command < c.received
  direct : ∀ r ∈ c.replies, r.byCallback = false → (session, r.command) ∉ owners
  callback : ∀ r ∈ c.replies, r.byCallback = true →
    ∃ x ∈ done, owners[x.1]? = some (session, r.command)
  order : c.replies.Pairwise fun a b =>
    a.command ≠ b.command ∧ (a.command < b.command ∨ b.byCallback = true)

/-- What holds in every state, when the callbacks in `done` have sent their replies. -/
structure Ordered (s : Server) (done : List (Nat × Status)) : Prop where
  ids : RequestIds s.process.store s.process.requests.length s.process.invoked
  owners : s.owner.length = s.process.requests.length
  owner_nodup : s.owner.Nodup
  connections : ∀ i, Connected s.owner done i (s.connections i)

/-- The client of a session waits for the answer to a command before it sends the next one. -/
def Waits (session : Nat) (s : Server) : Action → Prop
  | Action.receive i _ =>
      i = session → (s.connections i).replies.length = (s.connections i).received
  | _ => True

/-- The replies of a session answer its first commands, all but the last one at most. -/
def InOrder (session : Nat) (s : Server) : Prop :=
  (s.connections session).replies.map Reply.command =
      List.range (s.connections session).replies.length ∧
    (s.connections session).received ≤ (s.connections session).replies.length + 1

variable {strdupPrintf : Commands.StrdupPrintf} {codecs : Process.Codecs} {s s' : Server}
  {done : List (Nat × Status)} {i : Nat}

theorem Ordered.start (nodeId : Nat) (db : RocksDB) : Ordered (Server.start nodeId db) [] where
  ids := RequestIds.start nodeId db
  owners := rfl
  owner_nodup := List.nodup_nil
  connections _ :=
    { owner := fun _ h => by cases h
      received := fun _ h => by cases h
      direct := fun _ h => by cases h
      callback := fun _ h => by cases h
      order := List.Pairwise.nil }

lemma modify_self (s : Server) (session : Nat) (f : Connection → Connection) :
    (s.modify session f).connections session = f (s.connections session) :=
  Function.update_self ..

lemma modify_of_ne (s : Server) {session j : Nat} (h : j ≠ session) (f : Connection → Connection) :
    (s.modify session f).connections j = s.connections j :=
  Function.update_of_ne h ..

/-- A change of one connection. -/
lemma Ordered.modify (h : Ordered s done) {session : Nat} {f : Connection → Connection}
    (hf : Connected s.owner done session (f (s.connections session))) :
    Ordered (s.modify session f) done := by
  refine ⟨h.ids, h.owners, h.owner_nodup, fun j => ?_⟩
  by_cases hj : j = session
  · rw [hj, modify_self]
    exact hf
  · rw [modify_of_ne s hj]
    exact h.connections j

/-! ## Each action keeps it -/

lemma Connected.append (h : Connected s.owner done i (s.connections i)) (x : Nat × Status) :
    Connected s.owner (done ++ [x]) i (s.connections i) :=
  ⟨h.owner, h.received, h.direct, fun r hr hcallback => by
    obtain ⟨y, hy, howner⟩ := h.callback r hr hcallback
    exact ⟨y, List.mem_append_left _ hy, howner⟩, h.order⟩

/-- A callback that was not invoked before answers a command that was not answered before. -/
theorem Ordered.answer (h : Ordered s done) {x : Nat × Status} (hx : ∀ y ∈ done, y.1 ≠ x.1)
    (hok : s.answer x = Except.ok s') : Ordered s' (done ++ [x]) := by
  have hdone : Ordered s (done ++ [x]) :=
    ⟨h.ids, h.owners, h.owner_nodup, fun j => (h.connections j).append x⟩
  rw [Server.answer] at hok
  split at hok
  · cases Outcome.pure_eq_ok.mp hok
    exact hdone
  · rename_i o howner
    obtain ⟨data, -, hok⟩ := Outcome.bind_eq_ok.mp hok
    cases Outcome.pure_eq_ok.mp hok
    have hmem : (o.1, o.2) ∈ s.owner := List.mem_of_getElem? howner
    have hc := h.connections o.1
    refine hdone.modify ⟨?_, ?_, ?_, ?_, ?_⟩
    · simpa using hc.owner
    · intro r hr
      simp only [Connection.sendReply_replies, List.mem_append, List.mem_singleton] at hr
      rw [Connection.sendReply_received]
      rcases hr with hr | rfl
      · exact hc.received r hr
      · exact hc.owner _ hmem
    · intro r hr hdirect
      simp only [Connection.sendReply_replies, List.mem_append, List.mem_singleton] at hr
      rcases hr with hr | rfl
      · exact hc.direct r hr hdirect
      · cases hdirect
    · intro r hr hcallback
      simp only [Connection.sendReply_replies, List.mem_append, List.mem_singleton] at hr
      rcases hr with hr | rfl
      · exact ((hc.append x).callback r hr hcallback)
      · exact ⟨x, List.mem_append_right _ (List.mem_singleton_self _), howner⟩
    · rw [Connection.sendReply_replies, List.pairwise_append]
      refine ⟨hc.order, List.pairwise_singleton _ _, fun a ha b hb => ?_⟩
      cases List.mem_singleton.mp hb
      refine ⟨fun heq => ?_, Or.inr rfl⟩
      cases hacb : a.byCallback with
      | false => exact hc.direct a ha hacb (heq ▸ hmem)
      | true =>
          -- two requests of one command would be one request
          obtain ⟨y, hy, hyowner⟩ := hc.callback a ha hacb
          refine hx y hy ((List.getElem?_inj (List.getElem?_eq_some_iff.mp hyowner).1
            h.owner_nodup).mp ?_)
          rw [hyowner, howner, heq]

theorem Ordered.request (h : Ordered s done) {session : Nat} {a : Process.Action}
    (ha : (∃ key value, a = Process.Action.set key value) ∨ ∃ keys, a = Process.Action.del keys)
    (hok : s.request codecs session a = Except.ok s') : Ordered s' done := by
  obtain ⟨p, hp, hok⟩ := Outcome.bind_eq_ok.mp hok
  cases Outcome.pure_eq_ok.mp hok
  have hlen : p.requests.length = s.process.requests.length + 1 := by
    rcases ha with ⟨key, value, rfl⟩ | ⟨keys, rfl⟩ <;> cases Outcome.pure_eq_ok.mp hp <;>
      simp [Process.request]
  have hc := h.connections session
  have hnew : (session, (s.connections session).received) ∉ s.owner := fun hmem =>
    (hc.owner _ hmem).false
  have hcallback : ∀ j, ∀ r ∈ (s.connections j).replies, r.byCallback = true → ∃ x ∈ done,
      (s.owner ++ [(session, (s.connections session).received)])[x.1]? = some (j, r.command) := by
    intro j r hr hcb
    obtain ⟨x, hx, howner⟩ := (h.connections j).callback r hr hcb
    exact ⟨x, hx, by
      rw [List.getElem?_append_left (List.getElem?_eq_some_iff.mp howner).1, howner]⟩
  refine ⟨h.ids.act hp, by simp [Server.modify, h.owners, hlen], ?_, fun j => ?_⟩
  · exact List.nodup_append.mpr ⟨h.owner_nodup, List.nodup_singleton _, fun a ha b hb heq =>
      hnew (List.mem_singleton.mp hb ▸ heq ▸ ha)⟩
  · by_cases hj : j = session
    · subst hj
      rw [modify_self]
      refine ⟨fun command hmem => ?_, fun r hr => ?_, fun r hr hdirect hmem => ?_, hcallback j,
        hc.order⟩
      · rcases List.mem_append.mp hmem with hmem | hmem
        · exact (hc.owner command hmem).trans (Nat.lt_succ_self _)
        · cases List.mem_singleton.mp hmem
          exact Nat.lt_succ_self _
      · exact (hc.received r hr).trans (Nat.lt_succ_self _)
      · rcases List.mem_append.mp hmem with hmem | hmem
        · exact hc.direct r hr hdirect hmem
        · have := congrArg Prod.snd (List.mem_singleton.mp hmem)
          exact absurd this (hc.received r hr).ne
    · rw [modify_of_ne _ hj]
      refine ⟨fun command hmem => ?_, (h.connections j).received, fun r hr hdirect hmem => ?_,
        hcallback j, (h.connections j).order⟩
      · rcases List.mem_append.mp hmem with hmem | hmem
        · exact (h.connections j).owner command hmem
        · exact absurd (congrArg Prod.fst (List.mem_singleton.mp hmem)) hj
      · rcases List.mem_append.mp hmem with hmem | hmem
        · exact (h.connections j).direct r hr hdirect hmem
        · exact absurd (congrArg Prod.fst (List.mem_singleton.mp hmem)) hj

theorem Ordered.reply (h : Ordered s done) (session : Nat) (data : Bytes) :
    Ordered (s.modify session fun c =>
      Connection.sendReply { c with received := c.received + 1 } ⟨c.received, false, data⟩) done := by
  have hc := h.connections session
  refine h.modify ⟨fun command hmem => ?_, fun r hr => ?_, fun r hr hdirect hmem => ?_,
    fun r hr hcallback => ?_, ?_⟩
  · rw [Connection.sendReply_received]
    exact (hc.owner command hmem).trans (Nat.lt_succ_self _)
  · simp only [Connection.sendReply_replies, List.mem_append, List.mem_singleton] at hr
    rw [Connection.sendReply_received]
    rcases hr with hr | rfl
    · exact (hc.received r hr).trans (Nat.lt_succ_self _)
    · exact Nat.lt_succ_self _
  · simp only [Connection.sendReply_replies, List.mem_append, List.mem_singleton] at hr
    rcases hr with hr | rfl
    · exact hc.direct r hr hdirect hmem
    · exact (hc.owner _ hmem).false
  · simp only [Connection.sendReply_replies, List.mem_append, List.mem_singleton] at hr
    rcases hr with hr | rfl
    · exact hc.callback r hr hcallback
    · cases hcallback
  · rw [Connection.sendReply_replies, List.pairwise_append]
    refine ⟨hc.order, List.pairwise_singleton _ _, fun a ha b hb => ?_⟩
    cases List.mem_singleton.mp hb
    exact ⟨(hc.received a ha).ne, Or.inl (hc.received a ha)⟩

theorem Ordered.passOn (h : Ordered s done) {a : Process.Action}
    (ha : ∀ p p', Process.act codecs p a = Except.ok p' → p'.requests = p.requests)
    (hok : s.passOn codecs a = Except.ok s') : Ordered s' done := by
  obtain ⟨p, hp, hok⟩ := Outcome.bind_eq_ok.mp hok
  cases Outcome.pure_eq_ok.mp hok
  exact ⟨h.ids.act hp, h.owners.trans (congrArg List.length (ha _ _ hp).symm), h.owner_nodup,
    h.connections⟩

/-- A handler of the store's thread invokes one callback at most. -/
lemma runStore_cases {p p' : Process} {ok : Nat → Bool}
    (h : p.act codecs (Process.Action.runStore ok) = Except.ok p') :
    p'.requests = p.requests ∧
      (p'.invoked = p.invoked ∨ ∃ x, p'.invoked = p.invoked ++ [x]) := by
  rw [Process.act] at h
  split at h
  · cases Outcome.pure_eq_ok.mp h
    exact ⟨rfl, Or.inl rfl⟩
  · obtain ⟨hrequests, r, -, hinvoked, -, ⟨-, hout⟩ | ⟨_, n, status, -, -, hout⟩⟩ :=
      Process.runHandler_answers h
    · exact ⟨hrequests, Or.inl (by rw [hinvoked, hout, List.append_nil])⟩
    · exact ⟨hrequests, Or.inr ⟨(n, status), by rw [hinvoked, hout]⟩⟩

lemma requests_passOn {p p' : Process} {a : Process.Action}
    (ha : (∃ status, a = Process.Action.propose status) ∨
      (∃ e, a = Process.Action.publishEntry e) ∨ ∃ snap, a = Process.Action.publishSnapshot snap)
    (h : p.act codecs a = Except.ok p') : p'.requests = p.requests ∧ p'.invoked = p.invoked := by
  rcases ha with ⟨status, rfl⟩ | ⟨e, rfl⟩ | ⟨snap, rfl⟩
  · rw [Process.act] at h
    split at h <;> cases Outcome.pure_eq_ok.mp h <;> exact ⟨rfl, rfl⟩
  · rw [Process.act] at h
    split at h <;> cases Outcome.pure_eq_ok.mp h <;> exact ⟨rfl, rfl⟩
  · cases Outcome.pure_eq_ok.mp h
    exact ⟨rfl, rfl⟩

lemma request_invoked {session : Nat} {a : Process.Action}
    (ha : (∃ key value, a = Process.Action.set key value) ∨ ∃ keys, a = Process.Action.del keys)
    (hok : s.request codecs session a = Except.ok s') :
    s'.process.invoked = s.process.invoked := by
  obtain ⟨p, hp, hok⟩ := Outcome.bind_eq_ok.mp hok
  cases Outcome.pure_eq_ok.mp hok
  rcases ha with ⟨key, value, rfl⟩ | ⟨keys, rfl⟩ <;> cases Outcome.pure_eq_ok.mp hp <;> rfl

lemma answer_process {x : Nat × Status} (hok : s.answer x = Except.ok s') :
    s'.process = s.process := by
  rw [Server.answer] at hok
  split at hok
  · cases Outcome.pure_eq_ok.mp hok
    rfl
  · obtain ⟨data, -, hok⟩ := Outcome.bind_eq_ok.mp hok
    cases Outcome.pure_eq_ok.mp hok
    rfl

/-- What running the store's thread does: it invokes a callback, which answers, or none. -/
lemma runStore_spec {ok : Nat → Bool} (hok : s.act strdupPrintf codecs (Action.runStore ok) = Except.ok s') :
    ∃ p, s.process.act codecs (Process.Action.runStore ok) = Except.ok p ∧
      p.requests = s.process.requests ∧
      ((p.invoked = s.process.invoked ∧ s' = { s with process := p }) ∨
        ∃ x, p.invoked = s.process.invoked ++ [x] ∧
          Server.answer { s with process := p } x = Except.ok s') := by
  obtain ⟨p, hp, hok⟩ := Outcome.bind_eq_ok.mp hok
  obtain ⟨hrequests, hsame | ⟨x, hx⟩⟩ := runStore_cases hp
  · rw [hsame, List.drop_length] at hok
    exact ⟨p, hp, hrequests, Or.inl ⟨hsame, (Outcome.pure_eq_ok.mp hok).symm⟩⟩
  · rw [hx, List.drop_left] at hok
    obtain ⟨s'', hanswer, hok⟩ := Outcome.bind_eq_ok.mp (by simpa only [List.foldlM] using hok)
    cases Outcome.pure_eq_ok.mp hok
    exact ⟨p, hp, hrequests, Or.inr ⟨x, hx, hanswer⟩⟩

/-- **Each action keeps it**, with the callbacks that the process has invoked. -/
theorem Ordered.act (h : Ordered s s.process.invoked) {a : Action}
    (hok : s.act strdupPrintf codecs a = Except.ok s') : Ordered s' s'.process.invoked := by
  cases a with
  | receive session reply =>
      obtain ⟨reaction, -, hok⟩ := Outcome.bind_eq_ok.mp hok
      cases reaction with
      | reply data =>
          cases Outcome.pure_eq_ok.mp hok
          exact h.reply session data
      | set key value =>
          rw [request_invoked (Or.inl ⟨key, value, rfl⟩) hok]
          exact h.request (Or.inl ⟨key, value, rfl⟩) hok
      | del keys =>
          rw [request_invoked (Or.inr ⟨keys, rfl⟩) hok]
          exact h.request (Or.inr ⟨keys, rfl⟩) hok
  | written session =>
      cases Outcome.pure_eq_ok.mp hok
      have hc := h.connections session
      refine h.modify ⟨?_, ?_, ?_, ?_, ?_⟩ <;>
        simp only [Connection.written_received, Connection.written_replies]
      · exact hc.owner
      · exact hc.received
      · exact hc.direct
      · exact hc.callback
      · exact hc.order
  | propose status =>
      have ha := fun p p' => @requests_passOn codecs p p' _
        (Or.inl ⟨status, rfl⟩)
      have := h.passOn (fun p p' hp => (ha p p' hp).1) hok
      obtain ⟨p, hp, hok⟩ := Outcome.bind_eq_ok.mp hok
      cases Outcome.pure_eq_ok.mp hok
      rwa [(ha _ _ hp).2]
  | publishEntry e =>
      have ha := fun p p' => @requests_passOn codecs p p' _
        (Or.inr (Or.inl ⟨e, rfl⟩))
      have := h.passOn (fun p p' hp => (ha p p' hp).1) hok
      obtain ⟨p, hp, hok⟩ := Outcome.bind_eq_ok.mp hok
      cases Outcome.pure_eq_ok.mp hok
      rwa [(ha _ _ hp).2]
  | publishSnapshot snap =>
      have ha := fun p p' => @requests_passOn codecs p p' _
        (Or.inr (Or.inr ⟨snap, rfl⟩))
      have := h.passOn (fun p p' hp => (ha p p' hp).1) hok
      obtain ⟨p, hp, hok⟩ := Outcome.bind_eq_ok.mp hok
      cases Outcome.pure_eq_ok.mp hok
      rwa [(ha _ _ hp).2]
  | runStore ok =>
      obtain ⟨p, hp, hrequests, hcases⟩ := runStore_spec hok
      have hids := h.ids.act hp
      have hs : Ordered { s with process := p } s.process.invoked :=
        ⟨hids, h.owners.trans (congrArg List.length hrequests.symm), h.owner_nodup,
          h.connections⟩
      rcases hcases with ⟨hsame, rfl⟩ | ⟨x, hx, hanswer⟩
      · show Ordered _ p.invoked
        rwa [hsame]
      · rw [answer_process hanswer, hx]
        refine hs.answer (fun y hy heq => ?_) hanswer
        have honce := hids.once
        rw [hx, List.map_append, List.nodup_append] at honce
        exact honce.2.2 _ (List.mem_map_of_mem hy) x.1 (List.mem_singleton_self _) heq

/-! ## Order -/

lemma InOrder.modify_of_ne (h : InOrder i s) {session : Nat} (hne : session ≠ i)
    (f : Connection → Connection) : InOrder i (s.modify session f) := by
  rw [InOrder, Server.modify_of_ne s (Ne.symm hne)]
  exact h

/-- While the client waits, an answer is the one to the last command. -/
theorem InOrder.answer (h : InOrder i s) (hs : Ordered s done) {x : Nat × Status}
    (hs' : Ordered s' (done ++ [x])) (hok : s.answer x = Except.ok s') : InOrder i s' := by
  rw [Server.answer] at hok
  split at hok
  · cases Outcome.pure_eq_ok.mp hok
    exact h
  · rename_i o howner
    obtain ⟨data, -, hok⟩ := Outcome.bind_eq_ok.mp hok
    cases Outcome.pure_eq_ok.mp hok
    by_cases ho : o.1 = i
    · subst ho
      obtain ⟨hreplies, hreceived⟩ := h
      have horder := (hs'.connections o.1).order
      rw [modify_self, Connection.sendReply_replies, List.pairwise_append] at horder
      have hlt : o.2 < (s.connections o.1).received :=
        (hs.connections o.1).owner o.2 (List.mem_of_getElem? howner)
      have hnew : o.2 ∉ (s.connections o.1).replies.map Reply.command := fun hmem => by
        obtain ⟨a, ha, hao⟩ := List.mem_map.mp hmem
        exact (horder.2.2 a ha _ (List.mem_singleton_self _)).1 hao
      rw [hreplies, List.mem_range] at hnew
      have hlast : o.2 = (s.connections o.1).replies.length := by omega
      rw [InOrder, modify_self, Connection.sendReply_replies, Connection.sendReply_received]
      refine ⟨?_, by simp; omega⟩
      rw [List.map_append, hreplies, List.length_append, List.length_singleton, List.range_succ,
        ← hlast]
      rfl
    · exact h.modify_of_ne ho _

theorem InOrder.act (h : InOrder i s) (hs : Ordered s s.process.invoked) {a : Action}
    (ha : Waits i s a) (hok : s.act strdupPrintf codecs a = Except.ok s') : InOrder i s' := by
  cases a with
  | receive session reply =>
      obtain ⟨reaction, -, hok⟩ := Outcome.bind_eq_ok.mp hok
      have hrequest : ∀ a, s.request codecs session a = Except.ok s' → InOrder i s' := by
        intro a hok
        obtain ⟨p, -, hok⟩ := Outcome.bind_eq_ok.mp hok
        cases Outcome.pure_eq_ok.mp hok
        by_cases hi : session = i
        · subst hi
          rw [InOrder, modify_self]
          exact ⟨h.1, Nat.succ_le_succ (ha rfl).ge⟩
        · rw [InOrder, Server.modify_of_ne _ (Ne.symm hi)]
          exact h
      cases reaction with
      | reply data =>
          cases Outcome.pure_eq_ok.mp hok
          by_cases hi : session = i
          · subst hi
            rw [InOrder, modify_self, Connection.sendReply_replies, Connection.sendReply_received]
            refine ⟨?_, by simp [ha rfl]⟩
            rw [List.map_append, h.1, List.length_append, List.length_singleton, List.range_succ,
              ha rfl]
            rfl
          · exact h.modify_of_ne hi _
      | set key value => exact hrequest _ hok
      | del keys => exact hrequest _ hok
  | written session =>
      cases Outcome.pure_eq_ok.mp hok
      by_cases hi : session = i
      · subst hi
        rw [InOrder, modify_self, Connection.written_replies, Connection.written_received]
        exact h
      · exact h.modify_of_ne hi _
  | propose status =>
      obtain ⟨p, -, hok⟩ := Outcome.bind_eq_ok.mp hok
      cases Outcome.pure_eq_ok.mp hok
      exact h
  | publishEntry e =>
      obtain ⟨p, -, hok⟩ := Outcome.bind_eq_ok.mp hok
      cases Outcome.pure_eq_ok.mp hok
      exact h
  | publishSnapshot snap =>
      obtain ⟨p, -, hok⟩ := Outcome.bind_eq_ok.mp hok
      cases Outcome.pure_eq_ok.mp hok
      exact h
  | runStore ok =>
      have hs' := hs.act hok
      obtain ⟨p, hp, hrequests, ⟨-, rfl⟩ | ⟨x, hx, hanswer⟩⟩ := runStore_spec hok
      · exact h
      · rw [answer_process hanswer, hx] at hs'
        have hpre : Ordered { s with process := p } s.process.invoked :=
          ⟨hs.ids.act hp, hs.owners.trans (congrArg List.length hrequests.symm), hs.owner_nodup,
            hs.connections⟩
        exact InOrder.answer (s := { s with process := p }) h hpre hs' hanswer

/-- **The order of replies.**  In every run, every command of a session is answered once at most,
and a reply that stands behind that of a later command is one that a callback has sent.  When the
client of the session sends no command before the one before it is answered, the replies are those
of the first commands, in their order. -/
theorem replies_in_order {nodeId : Nat} {db : RocksDB}
    (hrun : RunOf (Server.act strdupPrintf codecs) (fun _ _ => True) (Server.start nodeId db) s)
    (i : Nat) :
    ((s.connections i).replies.Pairwise fun a b =>
        a.command ≠ b.command ∧ (a.command < b.command ∨ b.byCallback = true)) ∧
      (∀ r ∈ (s.connections i).replies, r.command < (s.connections i).received) ∧
      (RunOf (Server.act strdupPrintf codecs) (Waits i) (Server.start nodeId db) s →
        (s.connections i).replies.map Reply.command =
          List.range (s.connections i).replies.length) := by
  have hordered : Ordered s s.process.invoked :=
    hrun.invariant (I := fun s => Ordered s s.process.invoked) (fun _ _ _ hs _ hok => hs.act hok)
      (Ordered.start nodeId db)
  refine ⟨(hordered.connections i).order, (hordered.connections i).received, fun hwaits => ?_⟩
  have := hwaits.invariant (I := fun s => Ordered s s.process.invoked ∧ InOrder i s)
    (fun _ _ _ hs ha hok => ⟨hs.1.act hok, hs.2.act hs.1 ha hok⟩)
    ⟨Ordered.start nodeId db, rfl, Nat.zero_le _⟩
  exact this.2.1

/-- A command as an array of strings. -/
def command (strs : List String) : RedisReply where
  type := ReplyType.array
  element := strs.map fun str => { type := ReplyType.string, str := Commands.ascii str }

set_option maxRecDepth 4000 in
/-- A `ping`, a `set` that is committed and answered by its callback, and a `get`, each sent behind the
answer to the one before. -/
theorem replies_in_order_ping_get :
    ∃ s : Server, (s.connections 0).replies.map Reply.command =
      List.range (s.connections 0).replies.length ∧
      (s.connections 0).replies.map Reply.byCallback = [false, true, false] := by
  let data : RedisCommitData := ⟨RedisCommitData.kCommitSet, [[97], [98]]⟩
  let e : Process.Committed :=
    ⟨{ term := 1, index := 1, data := commitCodec.pack ⟨1, 0, data⟩ }, some 0⟩
  have h₀ : RunOf (Server.act Commands.strdupText Process.msgpack) (Waits 0)
    (Server.start 1 OrderedMap.empty) _ := RunOf.refl _
  have h₁ := h₀.step (Action.receive 0 (command ["PING"])) (fun _ => rfl) rfl
  have h₂ := h₁.step (Action.receive 0 (command ["SET", "a", "b"])) (fun _ => rfl) rfl
  have h₃ := h₂.step (Action.propose Status.ok) trivial rfl
  have h₄ := h₃.step (Action.publishEntry e) trivial rfl
  have h₅ := h₄.step (Action.runStore fun _ => true) trivial rfl
  have h₆ := h₅.step (Action.runStore fun _ => true) trivial rfl
  have h₇ := h₆.step (Action.receive 0 (command ["GET", "a"])) (fun _ => rfl) rfl
  exact ⟨_, (replies_in_order (h₇.mono fun _ _ _ => trivial) 0).2.2 h₇, rfl⟩

/-- A `set` and a `ping`, sent together: the `ping` is answered first. -/
theorem ping_overtakes_set :
    ∃ s, RunOf (Server.act Commands.strdupText Process.msgpack) (fun _ _ => True)
        (Server.start 1 OrderedMap.empty) s ∧
      (s.connections 0).received = 2 ∧ (s.connections 0).replies.map Reply.command = [1] := by
  have h₀ : RunOf (Server.act Commands.strdupText Process.msgpack) (fun _ _ => True)
    (Server.start 1 OrderedMap.empty) _ := RunOf.refl _
  have h₁ := h₀.step (Action.receive 0 (command ["SET", "a", "b"])) trivial rfl
  have h₂ := h₁.step (Action.receive 0 (command ["PING"])) trivial rfl
  exact ⟨_, h₂, rfl, rfl⟩

end Server

end RaftKv
