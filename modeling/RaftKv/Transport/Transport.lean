import RaftKv.Core.IdMap
import RaftKv.Core.Run
import RaftKv.Transport.Link

/-!
# The transport of a node

`TransportImpl` (`transport/transport.cpp`) passes the messages of a node on to its peers, each of
which has a link to the node at its address.  Timers, handlers and the network run in any order; a
run ends where the memory of a pending write would be read that was given back.

* `Transport.act` — a step of the node, of a timer, or of a link.
* `Transport.delivers` — **what arrives is what was sent**: nothing twice, nothing that was not sent,
  and within a connection in the order in which it was sent and with nothing missing.
* `Transport.overrun_iff` — a message that is sent while a write is pending and does not fit into the
  room of the buffer leaves the write with memory that was given back.
-/

namespace RaftKv

/-- `sent` is what the node has passed to `send`. -/
structure Transport where
  /-- The counter of the debug messages, which has 32 bits. -/
  tick : Nat := 0
  peers : IdMap Link := ∅
  sent : List Message := []

namespace Transport

/-- What the timer of a peer sends.  No other timer draws from the counter between its two numbers. -/
def sendDebug (t : Transport) (id : Nat) : Outcome Transport :=
  match t.peers.lookup id with
  | none => pure t
  | some l => do
      let l ← l.doSendData transportTypeDebug (debugMessage t.tick (t.tick + 1))
      return { t with tick := t.tick + 2, peers := t.peers.insert id l }

/-- `PeerImpl::start` starts the timer of a new peer, which sends at once. -/
def addPeer (t : Transport) (id : Nat) : Outcome Transport :=
  if (t.peers.lookup id).isSome then pure t
  else ({ t with peers := t.peers.insert id {} } : Transport).sendDebug id

/-- The length is converted to 32 bits. -/
def sendOne (codec : Codec Message) (t : Transport) (m : Message) : Outcome Transport :=
  let t := { t with sent := t.sent ++ [m] }
  if m.toId = 0 then pure t
  else
    match t.peers.lookup m.toId with
    | none => pure t
    | some l => do
        let data := codec.pack m
        let l ← l.doSendData transportTypeStream (data.take (wrap32 data.length))
        return { t with peers := t.peers.insert m.toId l }

def send (codec : Codec Message) (t : Transport) (msgs : List Message) : Outcome Transport :=
  msgs.foldlM (sendOne codec) t

inductive Action where
  | addPeer (id : Nat)
  | timer (id : Nat)
  | send (msgs : List Message)
  | link (id : Nat) (a : LinkAction)

def act (codec : Codec Message) (t : Transport) : Action → Outcome Transport
  | Action.addPeer id => t.addPeer id
  | Action.timer id => t.sendDebug id
  | Action.send msgs => t.send codec msgs
  | Action.link id a =>
      match t.peers.lookup id with
      | none => pure t
      | some l => do
          let l ← l.act codec a
          return { t with peers := t.peers.insert id l }

/-- The message comes back from its packed form, whose length has 32 bits. -/
def Packs (codec : Codec Message) (m : Message) : Prop :=
  codec.RoundTrips m ∧ codec.pack m ≠ [] ∧ (codec.pack m).length < 2 ^ 32

/-- Messages can be packed. -/
def Packed (codec : Codec Message) (_ : Transport) : Action → Prop
  | Action.send msgs => ∀ m ∈ msgs, Packs codec m
  | _ => True

instance (codec : Codec Message) (m : Message) : Decidable (Packs codec m) :=
  inferInstanceAs (Decidable (codec.unpack (codec.pack m) = Except.ok m ∧ _ ∧ _))

instance (codec : Codec Message) (t : Transport) : (a : Action) → Decidable (t.Packed codec a)
  | Action.send msgs => inferInstanceAs (Decidable (∀ m ∈ msgs, Packs codec m))
  | Action.addPeer _ | Action.timer _ | Action.link .. => inferInstanceAs (Decidable True)

variable {codec : Codec Message} {t t' : Transport} {id : Nat} {l l' : Link} {m : Message}

/-- Nothing is cut off. -/
lemma Packs.take (h : Packs codec m) :
    (codec.pack m).take (wrap32 (codec.pack m).length) = codec.pack m := by
  rw [wrap32, Nat.mod_eq_of_lt h.2.2, List.take_length]

lemma Packs.messages (h : Packs codec m) :
    ServerSession.messages codec [(transportTypeStream, codec.pack m)] = [m] := by
  rw [ServerSession.messages, List.filterMap_cons, if_pos rfl, h.1]
  rfl

/-- The messages that the sessions of a link were given. -/
def queuedMessages (codec : Codec Message) (l : Link) : List Message :=
  ServerSession.messages codec (l.connections.flatMap PeerConnection.queued)

/-- What the servers at the other ends have handed to their node, one connection behind the other.  The
bytes of an old connection can arrive behind those of a new one. -/
def receivedMessages (l : Link) : List Message :=
  l.connections.flatMap fun c => c.server.received

/-- **Every link is sound**, and was given the last messages that were sent to its peer. -/
def Sound (codec : Codec Message) (t : Transport) : Prop :=
  ∀ id l, t.peers.lookup id = some l → l.Sound codec ∧
    (id ≠ 0 → queuedMessages codec l <:+ t.sent.filter fun m => m.toId = id)

lemma lookup_insert (id id' : Nat) (l : Link) (peers : IdMap Link) :
    (peers.insert id l).lookup id' = if id' = id then some l else peers.lookup id' := by
  split
  · rename_i heq
    rw [heq, AList.lookup_insert]
  · rename_i hne
    rw [AList.lookup_insert_ne hne]

/-- A link that has changed takes its place. -/
lemma Sound.insert (h : t.Sound codec) (hsound : l.Sound codec)
    (hqueued : id ≠ 0 → queuedMessages codec l <:+ t.sent.filter fun m => m.toId = id)
    (tick : Nat) : Sound codec { t with tick := tick, peers := t.peers.insert id l } := by
  intro id' l' hlookup
  have hlookup : (t.peers.insert id l).lookup id' = some l' := hlookup
  rw [lookup_insert] at hlookup
  split at hlookup
  · rename_i heq
    obtain rfl := Option.some.inj hlookup
    rw [heq]
    exact ⟨hsound, hqueued⟩
  · exact h id' l' hlookup

/-- What a link is given comes last. -/
lemma queuedMessages_send {p : UInt8 × Bytes} (hpast : l'.past = l.past)
    (hqueued : l'.current.queued = l.current.queued ++ [p]) :
    queuedMessages codec l' = queuedMessages codec l ++ ServerSession.messages codec [p] := by
  rw [queuedMessages, queuedMessages, ← ServerSession.messages_append, Link.connections,
    Link.connections, hpast, List.flatMap_append, List.flatMap_append, List.append_assoc]
  congr 2
  simp [hqueued]

/-- **A debug message** is no message. -/
lemma Sound.sendDebug (h : t.Sound codec) (hsend : t.sendDebug id = Except.ok t') :
    t'.Sound codec := by
  rw [Transport.sendDebug] at hsend
  split at hsend
  · cases hsend
    exact h
  rename_i l hl
  obtain ⟨l', hl', hsend⟩ := Outcome.bind_eq_ok.mp hsend
  cases hsend
  obtain ⟨hsound, hqueued⟩ := h id l hl
  have hlen : (debugMessage t.tick (t.tick + 1)).length = 8 := by
    rw [debugMessage, List.length_append, length_littleEndian, length_littleEndian]
  have hsendable : ServerSession.Sendable codec
      (transportTypeDebug, debugMessage t.tick (t.tick + 1)) := by
    refine ⟨?_, ?_, Or.inl ⟨rfl, t.tick, rfl⟩⟩
    · exact List.ne_nil_of_length_pos (by rw [hlen]; decide)
    · show (debugMessage t.tick (t.tick + 1)).length < 2 ^ 32
      rw [hlen]
      decide
  have hsound' := hsound.doSendData hsendable hl'
  obtain ⟨hpast, hqueued'⟩ := Link.doSendData_frame hl'
  refine h.insert hsound' (fun hid => ?_) _
  rw [queuedMessages_send hpast hqueued']
  have hnone : ServerSession.messages codec
      [(transportTypeDebug, debugMessage t.tick (t.tick + 1))] = [] := rfl
  rw [hnone, List.append_nil]
  exact hqueued hid

/-- **A message is passed on to its peer**, if there is one. -/
lemma Sound.sendOne (h : t.Sound codec) (hm : Packs codec m)
    (hsend : t.sendOne codec m = Except.ok t') : t'.Sound codec := by
  have hgrow : ∀ {id : Nat} {l : Link}, m.toId ≠ id →
      queuedMessages codec l <:+ (t.sent.filter fun m => m.toId = id) →
      queuedMessages codec l <:+ (t.sent ++ [m]).filter fun m => m.toId = id := by
    intro id l hother hsuffix
    rw [List.filter_append, List.filter_cons, if_neg (by simpa using hother)]
    simpa using hsuffix
  simp only [Transport.sendOne] at hsend
  split at hsend
  · rename_i hzero
    cases hsend
    intro id l hl
    obtain ⟨hsound, hqueued⟩ := h id l hl
    exact ⟨hsound, fun hid => hgrow (by omega) (hqueued hid)⟩
  rename_i hto
  split at hsend
  · rename_i hunknown
    cases hsend
    intro id l hl
    obtain ⟨hsound, hqueued⟩ := h id l hl
    refine ⟨hsound, fun hid => hgrow (fun heq => ?_) (hqueued hid)⟩
    have hl : t.peers.lookup id = some l := hl
    rw [← heq, hunknown] at hl
    cases hl
  rename_i l hl
  obtain ⟨l', hl', hsend⟩ := Outcome.bind_eq_ok.mp hsend
  cases hsend
  rw [hm.take] at hl'
  obtain ⟨hsound, hqueued⟩ := h m.toId l hl
  have hsendable : ServerSession.Sendable codec (transportTypeStream, codec.pack m) :=
    ⟨hm.2.1, hm.2.2, Or.inr ⟨rfl, m, hm.1⟩⟩
  have hsound' := hsound.doSendData hsendable hl'
  obtain ⟨hpast, hqueued'⟩ := Link.doSendData_frame hl'
  intro id' l₁ hl₁
  have hl₁ : (t.peers.insert m.toId l').lookup id' = some l₁ := hl₁
  rw [lookup_insert] at hl₁
  split at hl₁
  · rename_i heq
    obtain rfl := Option.some.inj hl₁
    refine ⟨hsound', fun hid => ?_⟩
    rw [queuedMessages_send hpast hqueued', hm.messages, heq]
    show _ <:+ (t.sent ++ [m]).filter fun m' => m'.toId = m.toId
    rw [List.filter_append, List.filter_cons, if_pos (by simp), List.filter_nil]
    obtain ⟨front, hfront⟩ := hqueued hto
    exact ⟨front, by rw [← List.append_assoc, hfront]⟩
  · rename_i hother
    obtain ⟨hsound₁, hqueued₁⟩ := h id' l₁ hl₁
    exact ⟨hsound₁, fun hid => hgrow (fun heq => hother heq.symm) (hqueued₁ hid)⟩

/-- **What every step keeps.** -/
theorem Sound.act {a : Action} (h : t.Sound codec) (ha : t.Packed codec a)
    (hact : t.act codec a = Except.ok t') : t'.Sound codec := by
  cases a with
  | addPeer id =>
      rw [Transport.act, Transport.addPeer] at hact
      split at hact
      · cases hact
        exact h
      · exact Sound.sendDebug (h.insert Link.sound_new (fun _ => List.nil_suffix) t.tick) hact
  | timer id => exact h.sendDebug hact
  | send msgs =>
      refine Outcome.foldlM_induct (P := Sound codec) (fun t t' m hm ht hone => ?_) h hact
      exact ht.sendOne (ha m hm) hone
  | link id a =>
      rw [Transport.act] at hact
      split at hact
      · cases hact
        exact h
      rename_i l hl
      obtain ⟨l', hl', hact⟩ := Outcome.bind_eq_ok.mp hact
      cases hact
      obtain ⟨hsound, hqueued⟩ := h id l hl
      obtain ⟨hsound', hqueues⟩ := hsound.act hl'
      refine h.insert hsound' (fun hid => ?_) t.tick
      have hsame : l'.queues.flatten = l.queues.flatten := by
        rcases hqueues with hqueues | hqueues
        · rw [hqueues]
        · rw [hqueues, List.flatten_append, List.flatten_singleton, List.append_nil]
      rw [queuedMessages, List.flatMap_def, show l'.connections.map _ = l'.queues from rfl, hsame]
      exact hqueued hid

/-- The `q`-th message that connection `n` to a peer was given. -/
def Given (codec : Codec Message) (t : Transport) (id n q : Nat) (m : Message) : Prop :=
  ∃ l, t.peers.lookup id = some l ∧ l.Given codec n q m

/-- A message of the link that has changed, or one of the others. -/
lemma Given.of_insert {tick : Nat} {sent : List Message} {id' n q : Nat}
    (h : Given codec { tick := tick, peers := t.peers.insert id l, sent := sent } id' n q m) :
    id' = id ∧ l.Given codec n q m ∨ t.Given codec id' n q m := by
  obtain ⟨l', hl', hgiven⟩ := h
  have hl' : (t.peers.insert id l).lookup id' = some l' := hl'
  rw [lookup_insert] at hl'
  split at hl'
  · rename_i heq
    obtain rfl := Option.some.inj hl'
    exact Or.inl ⟨heq, hgiven⟩
  · exact Or.inr ⟨l', hl', hgiven⟩

lemma sendDebug_given (hsend : t.sendDebug id = Except.ok t') :
    t'.sent = t.sent ∧ ∀ id' n q x, t'.Given codec id' n q x → t.Given codec id' n q x := by
  rw [Transport.sendDebug] at hsend
  split at hsend
  · cases hsend
    exact ⟨rfl, fun _ _ _ _ h => h⟩
  rename_i l hl
  obtain ⟨l', hl', hsend⟩ := Outcome.bind_eq_ok.mp hsend
  cases hsend
  refine ⟨rfl, fun id' n q x h => ?_⟩
  rcases Given.of_insert h with ⟨rfl, hgiven⟩ | hgiven
  · rcases hgiven.of_send hl' with hold | ⟨-, k, -, hnone⟩
    · exact ⟨l, hl, hold⟩
    · cases hnone
  · exact hgiven

/-- **What sends no message** gives none to a connection. -/
theorem act_given {a : Action} (h : t.Sound codec) (ha : ∀ msgs, a ≠ Action.send msgs)
    (hact : t.act codec a = Except.ok t') :
    t'.sent = t.sent ∧ ∀ id n q x, t'.Given codec id n q x → t.Given codec id n q x := by
  cases a with
  | addPeer id =>
      rw [Transport.act, Transport.addPeer] at hact
      split at hact
      · cases hact
        exact ⟨rfl, fun _ _ _ _ h => h⟩
      · obtain ⟨hsent, hgiven⟩ := @sendDebug_given codec _ _ _ hact
        refine ⟨hsent, fun id' n q x hx => ?_⟩
        rcases Given.of_insert (hgiven id' n q x hx) with ⟨-, hnew⟩ | hold
        · exact absurd hnew Link.not_given_new
        · exact hold
  | timer id => exact sendDebug_given hact
  | send msgs => exact absurd rfl (ha msgs)
  | link id a =>
      rw [Transport.act] at hact
      split at hact
      · cases hact
        exact ⟨rfl, fun _ _ _ _ h => h⟩
      rename_i l hl
      obtain ⟨l', hl', hact⟩ := Outcome.bind_eq_ok.mp hact
      cases hact
      refine ⟨rfl, fun id' n q x hx => ?_⟩
      rcases Given.of_insert hx with ⟨rfl, hgiven⟩ | hgiven
      · exact ⟨l, hl, hgiven.of_queues ((h id' l hl).1.act hl').2⟩
      · exact hgiven

/-- **A message that is sent** is given to one connection to its addressee at most. -/
theorem send_given (hm : Packs codec m) (hact : t.act codec (Action.send [m]) = Except.ok t') :
    t'.sent = t.sent ++ [m] ∧ ∃ n q, ∀ id n' q' x, t'.Given codec id n' q' x →
      t.Given codec id n' q' x ∨ x = m ∧ id = m.toId ∧ n' = n ∧ q' = q := by
  obtain ⟨t₁, hone, hact⟩ := Outcome.bind_eq_ok.mp hact
  cases hact
  simp only [Transport.sendOne] at hone
  split at hone
  · cases hone
    exact ⟨rfl, 0, 0, fun _ _ _ _ h => Or.inl h⟩
  split at hone
  · cases hone
    exact ⟨rfl, 0, 0, fun _ _ _ _ h => Or.inl h⟩
  rename_i l hl
  obtain ⟨l', hl', hone⟩ := Outcome.bind_eq_ok.mp hone
  cases hone
  rw [hm.take] at hl'
  refine ⟨rfl, l.past.length, (ServerSession.messages codec l.current.queued).length,
    fun id n' q' x hx => ?_⟩
  rcases Given.of_insert (t := { t with sent := t.sent ++ [m] }) hx with ⟨rfl, hgiven⟩ | hgiven
  · rcases hgiven.of_send hl' with hold | ⟨hn, k, hq, hk⟩
    · exact Or.inl ⟨l, hl, hold⟩
    · rw [hm.messages] at hk
      have hlt := (List.getElem?_eq_some_iff.mp hk).1
      rw [List.length_singleton] at hlt
      obtain rfl : k = 0 := by omega
      exact Or.inr ⟨(Option.some.inj hk).symm, rfl, hn, hq⟩
  · exact Or.inl hgiven

/-- **Every state is sound.** -/
theorem sound_of_run (hrun : RunOf (act codec) (Packed codec) {} t) : t.Sound codec :=
  hrun.invariant (I := Sound codec) (fun _ _ _ hs ha hact => hs.act ha hact)
    fun _ _ hl => (by cases hl)

/-- A part of each is a part of all. -/
lemma sublist_flatMap {α β : Type} {f g : α → List β} {as : List α} (h : ∀ a ∈ as, f a <+: g a) :
    (as.flatMap f).Sublist (as.flatMap g) := by
  induction as with
  | nil => exact List.Sublist.refl _
  | cons a as ih =>
      obtain ⟨ha, has⟩ := List.forall_mem_cons.mp h
      rw [List.flatMap_cons, List.flatMap_cons]
      exact ha.sublist.append (ih has)

lemma queuedMessages_eq (l : Link) : queuedMessages codec l =
    l.connections.flatMap fun c => ServerSession.messages codec c.queued := by
  rw [queuedMessages]
  induction l.connections with
  | nil => rfl
  | cons c cs ih =>
      rw [List.flatMap_cons, List.flatMap_cons, ServerSession.messages_append, ih]

/-- **What arrives is what was sent.**  In every run of a transport whose messages can be packed,
however the bytes are cut and whichever connections break: the sessions to a peer were given all
messages that were sent to it since it was added.  Over each connection the server has received a
first part of the messages of its session, never ends by itself, and fails no assertion on whatever
arrives next.  Connection behind connection, what was received is a part of what was sent: nothing is
received twice.  And where everything was written and has arrived, nothing is missing. -/
theorem delivers (hrun : RunOf (act codec) (Packed codec) {} t) (hid : id ≠ 0)
    (hl : t.peers.lookup id = some l) :
    queuedMessages codec l <:+ (t.sent.filter fun m => m.toId = id) ∧
    (∀ c ∈ l.connections, c.server.received <+: ServerSession.messages codec c.queued ∧
      c.server.ended = false ∧ ∀ k, ∃ c', c.arrive codec k = Except.ok c') ∧
    (receivedMessages l).Sublist (t.sent.filter fun m => m.toId = id) ∧
    ∀ s, l.session = some s → s.buffer.readable = false → l.current.pipe = [] →
      l.current.server.received = ServerSession.messages codec l.current.queued := by
  obtain ⟨hsound, hqueued⟩ := sound_of_run hrun id l hl
  have hqueued := hqueued hid
  have hreceived : ∀ c ∈ l.connections,
      c.server.received <+: ServerSession.messages codec c.queued := by
    intro c hc
    obtain ⟨rest, hcarries⟩ := hsound.connection hc
    exact hcarries.received.1
  refine ⟨hqueued, fun c hc => ?_, ?_, fun s hs hreadable hpipe => ?_⟩
  · obtain ⟨rest, hcarries⟩ := hsound.connection hc
    refine ⟨hreceived c hc, hcarries.received.2.1, fun k => ?_⟩
    obtain ⟨c', harrive, -⟩ := hcarries.arrive_returns k
    exact ⟨c', harrive⟩
  · refine List.Sublist.trans ?_ hqueued.sublist
    rw [queuedMessages_eq]
    exact sublist_flatMap hreceived
  · obtain ⟨queue, sent, hholds, hcarries⟩ := hsound.busy s hs
    have hnil : queue = [] := by
      by_contra hne
      rw [hholds.buffer.readable_eq.mpr hne] at hreadable
      cases hreadable
    refine hcarries.received.2.2 ?_
    rw [hpipe, hnil, List.drop_nil]
    rfl

def messageCodec : Codec Message := Codec.ofFormat messageFormat

/-- A heartbeat to the second node. -/
def heartbeat : Message :=
  { type := MessageType.msgHeartbeat, toId := 2, fromId := 1, term := 1 }

/-- The first node's heartbeat has arrived in two portions. -/
theorem delivers_heartbeat : ∃ (t : Transport) (l : Link), t.peers.lookup 2 = some l ∧
    receivedMessages l = [heartbeat] ∧
    (receivedMessages l).Sublist (t.sent.filter fun m => m.toId = 2) := by
  let acts : List Action :=
    [Action.addPeer 2, Action.link 2 LinkAction.connected, Action.send [heartbeat],
      Action.link 2 (LinkAction.transmit 0 20), Action.link 2 (LinkAction.arrive 7),
      Action.link 2 (LinkAction.written 0), Action.link 2 (LinkAction.transmit 0 200),
      Action.link 2 (LinkAction.arrive 200)]
  have hreached : ((acts.foldlM (RunOf.exec (act messageCodec) (Packed messageCodec)) {}).toOption.any
      fun t => (t.peers.lookup 2).any fun l => decide (receivedMessages l = [heartbeat])) = true := by
    decide +kernel
  obtain ⟨t, ht, hreached⟩ := (Option.any_eq_true ..).mp hreached
  obtain ⟨l, hl, hreceived⟩ := (Option.any_eq_true ..).mp hreached
  obtain ⟨-, -, hsublist, -⟩ := delivers (RunOf.of_exec (Outcome.eq_ok_of_toOption ht)) (by decide) hl
  exact ⟨t, l, hl, of_decide_eq_true hreceived, hsublist⟩

/-- **A buffer that moves under a pending write.**  In every run: while the operating system has not
taken all bytes of a pending write, a message that is sent leaves it as it is exactly if the message
and its header find room behind the queue.  Otherwise the next bytes are taken from memory that the
buffer has given back. -/
theorem overrun_iff (hrun : RunOf (act codec) (Packed codec) {} t) (hid : m.toId ≠ 0)
    (hl : t.peers.lookup m.toId = some l) {s : ClientSession} (hs : l.session = some s) {w : Writing}
    (hw : s.writes[0]? = some w) (hvalid : w.valid = true) (hleft : w.sent < w.size)
    (hm : Packs codec m) (hsend : t.act codec (Action.send [m]) = Except.ok t') {k : Nat}
    (hk : 0 < k) :
    (∃ t'', t'.act codec (Action.link m.toId (LinkAction.transmit 0 k)) = Except.ok t'') ↔
      5 + (codec.pack m).length ≤ s.buffer.left := by
  obtain ⟨hsound, -⟩ := sound_of_run hrun m.toId l hl
  obtain ⟨queue, sent, hholds, -⟩ := hsound.busy s hs
  obtain ⟨t₁, hone, hsend⟩ := Outcome.bind_eq_ok.mp hsend
  cases hsend
  simp only [sendOne, if_neg hid, hl] at hone
  obtain ⟨l', hl', hone⟩ := Outcome.bind_eq_ok.mp hone
  cases hone
  rw [hm.take] at hl'
  obtain ⟨s', hs', hl'⟩ := Outcome.bind_eq_ok.mp hl'
  cases hl'
  rw [hs] at hs'
  obtain ⟨w', hw', hsize, hsent, hiff⟩ := ClientSession.send_valid hholds hs' hw hvalid
  rw [← hiff]
  have hlookup : ∀ l' : Link, (t.peers.insert m.toId l').lookup m.toId = some l' := fun l' =>
    AList.lookup_insert ..
  have hsome : min k (w'.size - w'.sent) ≠ 0 := by omega
  simp only [act, hlookup, Link.act, ClientSession.transmit, hw']
  cases hvalid' : w'.valid with
  | true =>
      refine ⟨fun _ => rfl, fun _ => ?_⟩
      simp [bind, Except.bind, pure, Except.pure]
  | false =>
      refine ⟨fun hex => ?_, fun h => (by cases h)⟩
      obtain ⟨t'', hact⟩ := hex
      rw [if_neg (by simp only [Bool.false_eq_true, false_or]; exact hsome)] at hact
      cases hact

/-- An append request of one kilobyte. -/
def longAppend : Message :=
  { type := MessageType.msgApp, toId := 2, fromId := 1, term := 1
    entries := [{ term := 1, index := 1, data := List.replicate 1000 0 }] }

/-- It is sent for the fourth time while the first debug message is being written. -/
theorem overrun_longAppend : ∃ t t' : Transport,
    RunOf (act messageCodec) (Packed messageCodec) {} t ∧
    t.act messageCodec (Action.send [longAppend]) = Except.ok t' ∧
    ¬ ∃ t'', t'.act messageCodec (Action.link 2 (LinkAction.transmit 0 1)) = Except.ok t'' := by
  let acts : List Action :=
    [Action.addPeer 2, Action.link 2 LinkAction.connected,
      Action.send [longAppend, longAppend, longAppend]]
  have hreached : ((acts.foldlM (RunOf.exec (act messageCodec) (Packed messageCodec)) {}).toOption.any
      fun t => (t.peers.lookup 2).any fun l => l.session.any fun s => s.writes[0]?.any fun w =>
        (t.act messageCodec (Action.send [longAppend])).toOption.any fun t' =>
          decide (w.valid = true ∧ w.sent < w.size ∧ Packs messageCodec longAppend ∧
            ¬ 5 + (messageCodec.pack longAppend).length ≤ s.buffer.left)) = true := by
    decide +kernel
  obtain ⟨t, ht, hreached⟩ := (Option.any_eq_true ..).mp hreached
  obtain ⟨l, hl, hreached⟩ := (Option.any_eq_true ..).mp hreached
  obtain ⟨s, hs, hreached⟩ := (Option.any_eq_true ..).mp hreached
  obtain ⟨w, hw, hreached⟩ := (Option.any_eq_true ..).mp hreached
  obtain ⟨t', ht', hreached⟩ := (Option.any_eq_true ..).mp hreached
  obtain ⟨hvalid, hleft, hm, hlong⟩ := of_decide_eq_true hreached
  have hrun := RunOf.of_exec (Outcome.eq_ok_of_toOption ht)
  have ht' := Outcome.eq_ok_of_toOption ht'
  refine ⟨t, t', hrun, ht', ?_⟩
  rw [show (2 : Nat) = longAppend.toId from rfl,
    overrun_iff hrun (by decide) hl hs hw hvalid hleft hm ht' Nat.one_pos]
  exact hlong

end Transport

end RaftKv
