import RaftKv.Transport.Session

/-!
# The connections to a peer

`PeerImpl` (`transport/peer.cpp`) makes a session when it has something to send, and another one when
that has been closed; each session has a connection of its own, with a server at the other end.

* `Link.doSendData`, `Link.act` — the calls, the handlers, and what the network does.
* `PeerConnection.Carries` — what was sent is what has arrived, what is on the way, and what is still
  to be written.
* `Link.Sound.act` — **every step keeps it so**.
* `PeerConnection.Carries.arrive_returns` — **no assertion fails at the other end**.
-/

namespace RaftKv

/-- A connection: the frames that its session was given, the bytes on the way, and the server. -/
structure PeerConnection where
  queued : List (UInt8 × Bytes) := []
  pipe : Bytes := []
  reading : Reading UInt8 := Reading.header []
  server : ServerSession := {}
  /-- The server's read has failed. -/
  cut : Bool := false

/-- Some bytes arrive. -/
def PeerConnection.arrive (codec : Codec Message) (c : PeerConnection) (k : Nat) : Outcome PeerConnection :=
  if c.cut then pure c
  else do
    let (reading, server) ←
      transportFraming.feed (ServerSession.decodeMessage codec) (c.reading, c.server) (c.pipe.take k)
    return { c with pipe := c.pipe.drop k, reading := reading, server := server }

/-- `PeerImpl`, with the connection of `session_` and those of the sessions before it. -/
structure Link where
  session : Option ClientSession := none
  current : PeerConnection := {}
  past : List PeerConnection := []

inductive LinkAction where
  /-- The handler of `async_connect` is called. -/
  | connected
  /-- A handler is called with an error. -/
  | failed
  /-- The operating system takes up to `k` bytes of the pending write `i`. -/
  | transmit (i k : Nat)
  /-- The handler of the pending write `i` is called. -/
  | written (i : Nat)
  | arrive (k : Nat)
  | arrivePast (j k : Nat)
  | cut
  | cutPast (j : Nat)
  deriving DecidableEq, Repr

namespace Link

def connections (l : Link) : List PeerConnection := l.past ++ [l.current]

/-- What each session was given to send. -/
def queues (l : Link) : List (List (UInt8 × Bytes)) := l.connections.map PeerConnection.queued

/-- Without a session, one is made before and its connection is asked for afterwards. -/
def doSendData (l : Link) (type : UInt8) (data : Bytes) : Outcome Link := do
  let s ← (l.session.getD {}).send type data
  return { l with
    session := some s
    current := { l.current with queued := l.current.queued ++ [(type, data)] } }

def closeSession (l : Link) : Link :=
  { session := none, current := {}, past := l.past ++ [l.current] }

def act (codec : Codec Message) (l : Link) : LinkAction → Outcome Link
  | LinkAction.connected =>
      match l.session with
      | none => pure l
      | some s =>
          if s.connected then pure l
          else do
            let s ← s.onConnect
            return { l with session := some s }
  | LinkAction.failed => pure (if l.session.isSome then l.closeSession else l)
  | LinkAction.transmit i k =>
      match l.session with
      | none => pure l
      | some s => do
          let (s, taken) ← s.transmit i k
          return { l with
            session := some s
            current := { l.current with pipe := l.current.pipe ++ taken } }
  | LinkAction.written i =>
      match l.session with
      | none => pure l
      | some s => do
          let s ← s.written i
          return { l with session := some s }
  | LinkAction.arrive k => do
      let c ← l.current.arrive codec k
      return { l with current := c }
  | LinkAction.arrivePast j k =>
      match l.past[j]? with
      | none => pure l
      | some c => do
          let c ← c.arrive codec k
          return { l with past := l.past.set j c }
  | LinkAction.cut =>
      pure (if l.session.isSome then { l with current := { l.current with cut := true } } else l)
  | LinkAction.cutPast j =>
      match l.past[j]? with
      | none => pure l
      | some c => pure { l with past := l.past.set j { c with cut := true } }

end Link

/-! ## What a connection carries -/

/-- The bytes of what was sent. -/
def frameBytes (ps : List (UInt8 × Bytes)) : Bytes := (ps.map transportFrame).flatMap Frame.bytes

lemma frameBytes_append (ps qs : List (UInt8 × Bytes)) :
    frameBytes (ps ++ qs) = frameBytes ps ++ frameBytes qs := by
  rw [frameBytes, List.map_append, List.flatMap_append]
  rfl

lemma frameBytes_singleton (p : UInt8 × Bytes) : frameBytes [p] = (transportFrame p).bytes := by
  simp [frameBytes]

namespace PeerConnection

variable {codec : Codec Message} {c c' : PeerConnection} {rest : Bytes} {k : Nat}

/-- **What was sent is what the server has read, what is on the way, and the rest**, which the session
has still to write. -/
structure Carries (codec : Codec Message) (c : PeerConnection) (rest : Bytes) : Prop where
  sendable : ∀ p ∈ c.queued, ServerSession.Sendable codec p
  stream : ∃ consumed, frameBytes c.queued = consumed ++ (c.pipe ++ rest) ∧
    transportFraming.feed (ServerSession.decodeMessage codec) (Reading.header [], {}) consumed =
      Except.ok (c.reading, c.server)

lemma carries_new : Carries codec {} [] :=
  ⟨fun _ hp => absurd hp List.not_mem_nil, [], rfl, rfl⟩

/-- What has been received is a part of what was sent, and the server goes on. -/
theorem Carries.received (h : c.Carries codec rest) :
    c.server.received <+: ServerSession.messages codec c.queued ∧ c.server.ended = false ∧
      (c.pipe ++ rest = [] → c.server.received = ServerSession.messages codec c.queued) := by
  obtain ⟨consumed, hstream, hfeed⟩ := h.stream
  obtain ⟨reading, hread⟩ := ServerSession.feed_take h.sendable consumed.length
  have htake : (frameBytes c.queued).take consumed.length = consumed := by
    rw [hstream, List.take_left]
  have hread : transportFraming.feed (ServerSession.decodeMessage codec) (Reading.header [], {})
      ((frameBytes c.queued).take consumed.length) = _ := hread
  rw [htake, hfeed] at hread
  have hserver := congrArg Prod.snd (Except.ok.inj hread)
  dsimp only at hserver
  have hpre : ServerSession.arrived consumed.length c.queued <+: c.queued :=
    RecordReader.whole_isPrefix ..
  rw [hserver]
  refine ⟨ServerSession.messages_prefix hpre, rfl, fun hnil => ?_⟩
  -- everything has been read
  have hall : consumed = frameBytes c.queued := by rw [hstream, hnil, List.append_nil]
  have hwhole : ∀ ps : List (UInt8 × Bytes),
      ServerSession.arrived (frameBytes ps).length ps = ps := by
    intro ps
    induction ps with
    | nil => rfl
    | cons p ps ih =>
        have hlen : (frameBytes (p :: ps)).length =
            (transportFrame p).bytes.length + (frameBytes ps).length := by
          have happend := frameBytes_append [p] ps
          rw [frameBytes_singleton] at happend
          rw [← List.length_append, ← happend]
          rfl
        rw [ServerSession.arrived, hlen, RecordReader.whole_cons_of_le (Nat.le_add_right ..),
          Nat.add_sub_cancel_left]
        exact congrArg (p :: ·) ih
  rw [hall, hwhole]

/-- **No assertion fails at the other end**, whatever part of the bytes arrives. -/
theorem Carries.arrive_returns (h : c.Carries codec rest) (k : Nat) :
    ∃ c', c.arrive codec k = Except.ok c' ∧ c'.Carries codec rest ∧ c'.queued = c.queued := by
  rw [arrive]
  split
  · exact ⟨c, rfl, h, rfl⟩
  obtain ⟨consumed, hstream, hfeed⟩ := h.stream
  obtain ⟨reading, hread⟩ := ServerSession.feed_take h.sendable (consumed ++ c.pipe.take k).length
  have hsplit : frameBytes c.queued = (consumed ++ c.pipe.take k) ++ (c.pipe.drop k ++ rest) := by
    rw [hstream]
    conv_lhs => rw [← List.take_append_drop k c.pipe]
    simp only [List.append_assoc]
  have hread : transportFraming.feed (ServerSession.decodeMessage codec) (Reading.header [], {})
      ((frameBytes c.queued).take (consumed ++ c.pipe.take k).length) = _ := hread
  have htake : (frameBytes c.queued).take (consumed ++ c.pipe.take k).length =
      consumed ++ c.pipe.take k := by
    rw [hsplit, List.take_left]
  rw [htake] at hread
  have hfed := hread
  rw [Framing.feed_append, hfeed] at hfed
  have hfed : transportFraming.feed (ServerSession.decodeMessage codec) (c.reading, c.server)
      (c.pipe.take k) = _ := hfed
  rw [hfed]
  exact ⟨_, rfl, ⟨h.sendable, _, hsplit, hread⟩, rfl⟩

/-- What is put behind the queue is carried last. -/
lemma Carries.send (h : c.Carries codec rest) {p : UInt8 × Bytes}
    (hp : ServerSession.Sendable codec p) :
    ({ c with queued := c.queued ++ [p] } : PeerConnection).Carries codec
      (rest ++ (transportFrame p).bytes) := by
  obtain ⟨consumed, hstream, hfeed⟩ := h.stream
  refine ⟨fun q hq => ?_, consumed, ?_, hfeed⟩
  · rcases List.mem_append.mp hq with hq | hq
    · exact h.sendable q hq
    · exact List.mem_singleton.mp hq ▸ hp
  · show frameBytes (c.queued ++ [p]) = _
    rw [frameBytes_append, frameBytes_singleton, hstream]
    simp only [List.append_assoc]

/-- What is taken is on the way. -/
lemma Carries.transmit (h : c.Carries codec rest) {taken left : Bytes}
    (hrest : rest = taken ++ left) :
    ({ c with pipe := c.pipe ++ taken } : PeerConnection).Carries codec left := by
  obtain ⟨consumed, hstream, hfeed⟩ := h.stream
  refine ⟨h.sendable, consumed, ?_, hfeed⟩
  show frameBytes c.queued = consumed ++ (c.pipe ++ taken ++ left)
  rw [hstream, hrest, List.append_assoc]

lemma Carries.cut (h : c.Carries codec rest) :
    ({ c with cut := true } : PeerConnection).Carries codec rest :=
  ⟨h.sendable, h.stream⟩

end PeerConnection

/-! ## The invariant -/

namespace Link

variable {codec : Codec Message} {l l' : Link} {a : LinkAction}

/-- **What the session has still to write is what the connection is still to carry.** -/
structure Sound (codec : Codec Message) (l : Link) : Prop where
  idle : l.session = none → l.current = {}
  busy : ∀ s, l.session = some s → ∃ queue sent, s.Holds queue sent ∧
    l.current.Carries codec (queue.drop sent)
  past : ∀ c ∈ l.past, ∃ rest, c.Carries codec rest

lemma sound_new : Sound codec {} :=
  ⟨fun _ => rfl, fun _ hs => (by cases hs), fun _ hc => absurd hc List.not_mem_nil⟩

lemma Sound.current (h : l.Sound codec) : ∃ rest, l.current.Carries codec rest := by
  cases hs : l.session with
  | none =>
      rw [h.idle hs]
      exact ⟨[], PeerConnection.carries_new⟩
  | some s =>
      obtain ⟨queue, sent, -, hcarries⟩ := h.busy s hs
      exact ⟨_, hcarries⟩

lemma Sound.connection (h : l.Sound codec) {c : PeerConnection} (hc : c ∈ l.connections) :
    ∃ rest, c.Carries codec rest := by
  rcases List.mem_append.mp hc with hc | hc
  · exact h.past c hc
  · exact List.mem_singleton.mp hc ▸ h.current

lemma doSendData_frame {type : UInt8} {data : Bytes}
    (hsend : l.doSendData type data = Except.ok l') :
    l'.past = l.past ∧ l'.current.queued = l.current.queued ++ [(type, data)] := by
  obtain ⟨s', -, hsend⟩ := Outcome.bind_eq_ok.mp hsend
  cases hsend
  exact ⟨rfl, rfl⟩

/-- **What is sent is put behind what is still to be carried.** -/
theorem Sound.doSendData (h : l.Sound codec) {type : UInt8} {data : Bytes}
    (hp : ServerSession.Sendable codec (type, data))
    (hsend : l.doSendData type data = Except.ok l') : l'.Sound codec := by
  obtain ⟨s', hs', hsend⟩ := Outcome.bind_eq_ok.mp hsend
  cases hsend
  refine ⟨fun hnone => (by cases hnone), fun s hs => ?_, h.past⟩
  obtain rfl := Option.some.inj hs
  have hheld : ∃ queue sent, (l.session.getD {}).Holds queue sent ∧
      l.current.Carries codec (queue.drop sent) := by
    cases hsession : l.session with
    | none =>
        rw [h.idle hsession]
        exact ⟨[], 0, ClientSession.holds_new, PeerConnection.carries_new⟩
    | some s => exact h.busy s hsession
  obtain ⟨queue, sent, hholds, hcarries⟩ := hheld
  refine ⟨_, sent, hholds.send hs', ?_⟩
  rw [List.drop_append_of_le_length hholds.sent_le]
  exact hcarries.send hp

/-- A connection that has changed takes its place. -/
lemma Sound.setPast (h : l.Sound codec) (j : Nat) {c : PeerConnection} {rest : Bytes}
    (hc : c.Carries codec rest) : ({ l with past := l.past.set j c } : Link).Sound codec := by
  refine ⟨h.idle, h.busy, fun c' hc' => ?_⟩
  rcases List.mem_or_eq_of_mem_set hc' with hmem | rfl
  · exact h.past c' hmem
  · exact ⟨rest, hc⟩

lemma queues_set {j : Nat} {c c' : PeerConnection} (hj : l.past[j]? = some c)
    (hqueued : c'.queued = c.queued) :
    ({ l with past := l.past.set j c' } : Link).queues = l.queues := by
  have hmap : (l.past.set j c').map PeerConnection.queued = l.past.map PeerConnection.queued := by
    rw [List.map_set, hqueued]
    refine List.ext_getElem? fun i => ?_
    rw [List.getElem?_set]
    split
    · rename_i heq
      subst heq
      rw [List.getElem?_map, hj]
      simp [(List.getElem?_eq_some_iff.mp hj).1]
    · rfl
  simp only [queues, connections, List.map_append, hmap]

/-- **Every step keeps the link sound**, and gives its sessions nothing; a session that is closed is
followed by one that was given nothing. -/
theorem Sound.act (h : l.Sound codec) (hact : l.act codec a = Except.ok l') :
    l'.Sound codec ∧ (l'.queues = l.queues ∨ l'.queues = l.queues ++ [[]]) := by
  cases a with
  | connected =>
      rw [Link.act] at hact
      cases hs : l.session with
      | none =>
          rw [hs] at hact
          cases hact
          exact ⟨h, Or.inl rfl⟩
      | some s =>
          rw [hs] at hact
          dsimp only at hact
          split at hact
          · cases hact
            exact ⟨h, Or.inl rfl⟩
          rename_i hdown
          obtain ⟨s', hconnect, hact⟩ := Outcome.bind_eq_ok.mp hact
          cases hact
          obtain ⟨queue, sent, hholds, hcarries⟩ := h.busy s hs
          obtain ⟨rfl, hholds'⟩ := hholds.onConnect (by simpa using hdown) hconnect
          refine ⟨⟨fun hnone => (by cases hnone), fun s₁ hs₁ => ?_, h.past⟩, Or.inl rfl⟩
          obtain rfl := Option.some.inj hs₁
          exact ⟨queue, 0, hholds', hcarries⟩
  | failed =>
      cases hact
      split
      · obtain ⟨rest, hcarries⟩ := h.current
        refine ⟨⟨fun _ => rfl, fun _ hs => (by cases hs), fun c hc => ?_⟩, ?_⟩
        · rcases List.mem_append.mp hc with hc | hc
          · exact h.past c hc
          · exact List.mem_singleton.mp hc ▸ ⟨rest, hcarries⟩
        · exact Or.inr (by simp [queues, connections, closeSession])
      · exact ⟨h, Or.inl rfl⟩
  | transmit i k =>
      rw [Link.act] at hact
      cases hs : l.session with
      | none =>
          rw [hs] at hact
          cases hact
          exact ⟨h, Or.inl rfl⟩
      | some s =>
          rw [hs] at hact
          obtain ⟨p, htransmit, hact⟩ := Outcome.bind_eq_ok.mp hact
          cases hact
          obtain ⟨queue, sent, hholds, hcarries⟩ := h.busy s hs
          obtain ⟨hholds', htaken⟩ := hholds.transmit htransmit
          refine ⟨⟨fun hnone => (by cases hnone), fun s₁ hs₁ => ?_, h.past⟩,
            Or.inl (by simp [queues, connections])⟩
          obtain rfl := Option.some.inj hs₁
          refine ⟨queue, _, hholds', hcarries.transmit ?_⟩
          rw [← List.drop_drop]
          conv_rhs => rw [htaken]
          rw [List.length_take]
          have hlen := congrArg List.length htaken
          rw [List.length_take] at hlen
          rw [← hlen, List.take_append_drop]
  | written i =>
      rw [Link.act] at hact
      cases hs : l.session with
      | none =>
          rw [hs] at hact
          cases hact
          exact ⟨h, Or.inl rfl⟩
      | some s =>
          rw [hs] at hact
          obtain ⟨s', hwritten, hact⟩ := Outcome.bind_eq_ok.mp hact
          cases hact
          obtain ⟨queue, sent, hholds, hcarries⟩ := h.busy s hs
          refine ⟨⟨fun hnone => (by cases hnone), fun s₁ hs₁ => ?_, h.past⟩, Or.inl rfl⟩
          obtain rfl := Option.some.inj hs₁
          rcases hholds.written hwritten with hholds' | hholds'
          · exact ⟨queue, sent, hholds', hcarries⟩
          · exact ⟨queue.drop sent, 0, hholds', hcarries⟩
  | arrive k =>
      obtain ⟨c, harrive, hact⟩ := Outcome.bind_eq_ok.mp hact
      cases hact
      have hqueued : c.queued = l.current.queued := by
        obtain ⟨rest, hcarries⟩ := h.current
        obtain ⟨c', harrive', -, hqueued⟩ := hcarries.arrive_returns k
        obtain rfl := Except.ok.inj (harrive'.symm.trans harrive)
        exact hqueued
      refine ⟨⟨fun hnone => ?_, fun s hs => ?_, h.past⟩,
        Or.inl (by simp [queues, connections, hqueued])⟩
      · have hnew := h.idle hnone
        rw [hnew] at harrive
        rw [PeerConnection.arrive, if_neg (by decide), List.take_nil] at harrive
        cases harrive
        show ({ pipe := List.drop k [] } : PeerConnection) = {}
        rw [List.drop_nil]
      · obtain ⟨queue, sent, hholds, hcarries⟩ := h.busy s hs
        obtain ⟨c', harrive', hcarries', -⟩ := hcarries.arrive_returns k
        obtain rfl := Except.ok.inj (harrive'.symm.trans harrive)
        exact ⟨queue, sent, hholds, hcarries'⟩
  | arrivePast j k =>
      rw [Link.act] at hact
      cases hj : l.past[j]? with
      | none =>
          rw [hj] at hact
          cases hact
          exact ⟨h, Or.inl rfl⟩
      | some c =>
          rw [hj] at hact
          obtain ⟨c', harrive, hact⟩ := Outcome.bind_eq_ok.mp hact
          cases hact
          obtain ⟨rest, hcarries⟩ := h.past c (List.mem_of_getElem? hj)
          obtain ⟨c'', harrive', hcarries', hqueued⟩ := hcarries.arrive_returns k
          obtain rfl := Except.ok.inj (harrive'.symm.trans harrive)
          exact ⟨h.setPast j hcarries', Or.inl (queues_set hj hqueued)⟩
  | cut =>
      cases hact
      split
      · refine ⟨⟨fun hnone => ?_, fun s hs => ?_, h.past⟩,
            Or.inl (by simp [queues, connections])⟩
        · rename_i hsome
          rw [show l.session = none from hnone] at hsome
          cases hsome
        · obtain ⟨queue, sent, hholds, hcarries⟩ := h.busy s hs
          exact ⟨queue, sent, hholds, hcarries.cut⟩
      · exact ⟨h, Or.inl rfl⟩
  | cutPast j =>
      rw [Link.act] at hact
      cases hj : l.past[j]? with
      | none =>
          rw [hj] at hact
          cases hact
          exact ⟨h, Or.inl rfl⟩
      | some c =>
          rw [hj] at hact
          cases hact
          obtain ⟨rest, hcarries⟩ := h.past c (List.mem_of_getElem? hj)
          exact ⟨h.setPast j hcarries.cut, Or.inl (queues_set hj rfl)⟩

/-! ## The messages of a connection -/

/-- The `q`-th message that the session of connection `n` was given. -/
def Given (codec : Codec Message) (l : Link) (n q : Nat) (m : Message) : Prop :=
  ∃ ps, l.queues[n]? = some ps ∧ (ServerSession.messages codec ps)[q]? = some m

variable {n q : Nat} {m : Message}

lemma not_given_new : ¬ Given codec {} n q m := by
  rintro ⟨ps, hps, hm⟩
  have hmem : ps ∈ [([] : List (UInt8 × Bytes))] := List.mem_of_getElem? hps
  rw [List.mem_singleton.mp hmem] at hm
  cases hm

/-- A link whose sessions were given the same has no other messages. -/
lemma Given.of_queues (h : l'.Given codec n q m)
    (hqueues : l'.queues = l.queues ∨ l'.queues = l.queues ++ [[]]) : l.Given codec n q m := by
  obtain ⟨ps, hps, hm⟩ := h
  refine ⟨ps, ?_, hm⟩
  rcases hqueues with hsame | hmore
  · rwa [hsame] at hps
  rw [hmore, List.getElem?_append] at hps
  split at hps
  · exact hps
  · rw [List.mem_singleton.mp (List.mem_of_getElem? hps)] at hm
    cases hm

/-- **What is sent becomes the last message of the current connection.** -/
lemma Given.of_send {type : UInt8} {data : Bytes} (h : l'.Given codec n q m)
    (hsend : l.doSendData type data = Except.ok l') :
    l.Given codec n q m ∨ n = l.past.length ∧ ∃ k,
      q = (ServerSession.messages codec l.current.queued).length + k ∧
      (ServerSession.messages codec [(type, data)])[k]? = some m := by
  obtain ⟨hpast, hqueued⟩ := doSendData_frame hsend
  obtain ⟨ps, hps, hm⟩ := h
  rw [queues, connections, hpast, List.map_append, List.map_singleton, hqueued,
    List.getElem?_append, List.length_map] at hps
  split at hps
  · rename_i hlt
    refine Or.inl ⟨ps, ?_, hm⟩
    rw [queues, connections, List.map_append, List.getElem?_append_left (by rwa [List.length_map])]
    exact hps
  rename_i hge
  have hlt := (List.getElem?_eq_some_iff.mp hps).1
  rw [List.length_singleton] at hlt
  obtain rfl : n = l.past.length := by omega
  rw [Nat.sub_self, List.getElem?_cons_zero, Option.some.injEq] at hps
  rw [← hps, ServerSession.messages_append, List.getElem?_append] at hm
  split at hm
  · refine Or.inl ⟨l.current.queued, ?_, hm⟩
    rw [queues, connections, List.map_append, List.getElem?_append_right (by simp)]
    simp
  · rename_i hlong
    exact Or.inr ⟨rfl, _, by omega, hm⟩

/-- What a server has received was given to its session. -/
lemma Sound.given (h : l.Sound codec) {c : PeerConnection} (hc : l.connections[n]? = some c)
    (hm : c.server.received[q]? = some m) : l.Given codec n q m := by
  obtain ⟨rest, hcarries⟩ := h.connection (List.mem_of_getElem? hc)
  obtain ⟨more, hmore⟩ := hcarries.received.1
  refine ⟨c.queued, by rw [queues, List.getElem?_map, hc, Option.map_some], ?_⟩
  rw [← hmore, List.getElem?_append_left (List.getElem?_eq_some_iff.mp hm).1]
  exact hm

end Link

end RaftKv
