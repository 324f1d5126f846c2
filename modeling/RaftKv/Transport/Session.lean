import RaftKv.Core.FramedStream
import RaftKv.Server.ByteBuffer
import RaftKv.Transport.Message

/-!
# The two ends of a connection

`ClientSession` (`transport/peer.cpp`) puts frames into a buffer and writes them to a socket;
`ServerSession` (`transport/raft_server.cpp`) reads them from one.  The operating system takes and
brings bytes in portions of any size.

* `ClientSession.send`, `startWrite`, `written` — the buffer, and the writes that are pending.
* `ServerSession.decodeMessage` — what is done with a frame that has arrived.
* `ServerSession.feed_take` — **whatever part of the frames has arrived, the messages that lie wholly
  in it have been received**.
* `ClientSession.Holds` — the bytes that are not written yet, and the one write that is pending.

A pending write reads the memory that was the buffer's when it was started; the model knows whether
the buffer has moved since.  The functions run one after the other, on the thread of `io_service_`.
-/

namespace RaftKv

def transportTypeStream : UInt8 := 1

def transportTypeDebug : UInt8 := 5

/-- `TransportMeta`: the type, and the length of what follows. -/
def transportMeta (type : UInt8) (len : Nat) : Bytes := type :: bigEndian 4 len

/-- `DebugMessage`. -/
def debugMessage (a b : Nat) : Bytes := littleEndian 4 a ++ littleEndian 4 b

def transportFraming : Framing UInt8 where
  headerLen := 5
  header_pos := by decide
  bodyLen header := ((readBigEndian 4 0 header.tail).map Prod.fst).getD 0

/-- What a call of `send` puts into the buffer. -/
def transportFrame (p : UInt8 × Bytes) : Frame UInt8 :=
  { header := transportMeta p.1 p.2.length, body := p.2 }

lemma length_bigEndian (k n : Nat) : (bigEndian k n).length = k := by
  induction k with
  | zero => rfl
  | succ k ih => rw [bigEndian, List.length_cons, ih]

lemma transportFrame_fits {p : UInt8 × Bytes} (h : p.2.length < 2 ^ 32) :
    transportFraming.Fits (transportFrame p) := by
  refine ⟨?_, ?_⟩
  · show (bigEndian 4 p.2.length).length + 1 = 5
    rw [length_bigEndian]
  · have hread := readBigEndian_bigEndian 4 0 p.2.length []
    rw [List.append_nil] at hread
    show p.2.length = ((readBigEndian 4 0 (bigEndian 4 p.2.length)).map Prod.fst).getD 0
    rw [hread, Option.map_some, Option.getD_some, Nat.zero_mul, Nat.zero_add]
    exact (Nat.mod_eq_of_lt h).symm

lemma length_transportFrame (p : UInt8 × Bytes) :
    (transportFrame p).bytes.length = 5 + p.2.length := by
  show (transportMeta p.1 p.2.length ++ p.2).length = _
  rw [List.length_append, transportMeta, List.length_cons, length_bigEndian]

/-! ## The server -/

structure ServerSession where
  received : List Message := []
  /-- No read is started any more. -/
  ended : Bool := false
  deriving DecidableEq, Repr

namespace ServerSession

variable {codec : Codec Message}

/-- A frame has been read; a read of no bytes ends the session. -/
def decodeMessage (codec : Codec Message) (s : ServerSession) (f : Frame UInt8) :
    Outcome ServerSession :=
  if s.ended then pure s
  else if f.body = [] then pure { s with ended := true }
  else if f.header.head? = some transportTypeDebug then
    if f.body.length ≠ 8 then throw (Crash.assertion "len == sizeof(DebugMessage)")
    else if wrap32 (readLittleEndian (f.body.take 4) + 1) ≠ readLittleEndian (f.body.drop 4) then
      throw (Crash.assertion "dbg->a + 1 == dbg->b")
    else pure s
  else if f.header.head? = some transportTypeStream then
    match codec.unpack f.body with
    | Except.ok m => pure { s with received := s.received ++ [m] }
    | Except.error _ => pure { s with ended := true }
  else pure { s with ended := true }

/-- What a session can be given to send: a pair of ticks, or a message that can be unpacked. -/
def Sendable (codec : Codec Message) (p : UInt8 × Bytes) : Prop :=
  p.2 ≠ [] ∧ p.2.length < 2 ^ 32 ∧
    ((p.1 = transportTypeDebug ∧ ∃ a, p.2 = debugMessage a (a + 1)) ∨
      (p.1 = transportTypeStream ∧ ∃ m, codec.unpack p.2 = Except.ok m))

/-- The messages among what was sent. -/
def messages (codec : Codec Message) (ps : List (UInt8 × Bytes)) : List Message :=
  ps.filterMap fun p =>
    if p.1 = transportTypeStream then (codec.unpack p.2).toOption else none

lemma messages_append (ps qs : List (UInt8 × Bytes)) :
    messages codec (ps ++ qs) = messages codec ps ++ messages codec qs :=
  List.filterMap_append

lemma messages_prefix {ps qs : List (UInt8 × Bytes)} (h : ps <+: qs) :
    messages codec ps <+: messages codec qs := by
  obtain ⟨more, rfl⟩ := h
  rw [messages_append]
  exact List.prefix_append ..

/-- **A frame that was sent is taken**, and is received if it is a message. -/
lemma decodeMessage_sendable {p : UInt8 × Bytes} (hp : Sendable codec p) (s : ServerSession)
    (hs : s.ended = false) : s.decodeMessage codec (transportFrame p) =
      Except.ok { s with received := s.received ++ messages codec [p] } := by
  obtain ⟨hne, -, hcases⟩ := hp
  obtain ⟨type, data⟩ := p
  have hhead : (transportFrame (type, data)).header.head? = some type := rfl
  have hbody : (transportFrame (type, data)).body = data := rfl
  rw [decodeMessage, if_neg (by simp [hs]), hbody, if_neg hne, hhead]
  rcases hcases with ⟨rfl, a, rfl⟩ | ⟨rfl, m, hm⟩
  · have hlen : (debugMessage a (a + 1)).length = 8 := by
      rw [debugMessage, List.length_append, length_littleEndian, length_littleEndian]
    have htake : (debugMessage a (a + 1)).take 4 = littleEndian 4 a := by
      rw [debugMessage, List.take_left' (length_littleEndian 4 a)]
    have hdrop : (debugMessage a (a + 1)).drop 4 = littleEndian 4 (a + 1) := by
      rw [debugMessage, List.drop_left' (length_littleEndian 4 a)]
    have htick : wrap32 (readLittleEndian (littleEndian 4 a) + 1) =
        readLittleEndian (littleEndian 4 (a + 1)) := by
      rw [readLittleEndian_littleEndian, readLittleEndian_littleEndian, wrap32]
      exact Nat.mod_add_mod a (2 ^ 32) 1
    have hnone : messages codec [(transportTypeDebug, debugMessage a (a + 1))] = [] := rfl
    rw [if_pos rfl, if_neg (not_not.mpr hlen), htake, hdrop, if_neg (not_not.mpr htick), hnone,
      List.append_nil]
    rfl
  · have hone : messages codec [(transportTypeStream, data)] = [m] := by
      rw [messages, List.filterMap_cons, if_pos rfl, hm]
      rfl
    rw [if_neg (by decide), if_pos rfl, hm, hone]
    rfl

lemma decodeMessages_sendable {ps : List (UInt8 × Bytes)} (hps : ∀ p ∈ ps, Sendable codec p)
    (s : ServerSession) (hs : s.ended = false) :
    (ps.map transportFrame).foldlM (decodeMessage codec) s =
      Except.ok { s with received := s.received ++ messages codec ps } := by
  induction ps generalizing s with
  | nil => simp [messages, pure, Except.pure]
  | cons p ps ih =>
      obtain ⟨hp, hps⟩ := List.forall_mem_cons.mp hps
      rw [List.map_cons, List.foldlM_cons, decodeMessage_sendable hp s hs, Outcome.ok_bind]
      rw [ih hps { s with received := s.received ++ messages codec [p] } hs]
      have happend : messages codec (p :: ps) = messages codec [p] ++ messages codec ps :=
        messages_append [p] ps
      rw [happend, List.append_assoc]

/-- What was sent and lies wholly in the first `n` bytes. -/
def arrived (n : Nat) (ps : List (UInt8 × Bytes)) : List (UInt8 × Bytes) :=
  RecordReader.whole (fun p => (transportFrame p).bytes) n ps

/-- **Whatever part of the frames has arrived, the messages that lie wholly in it have been
received**, and the session goes on. -/
theorem feed_take {ps : List (UInt8 × Bytes)} (hps : ∀ p ∈ ps, Sendable codec p) (n : Nat) :
    ∃ reading, transportFraming.feed (decodeMessage codec) (Reading.header [], {})
        (((ps.map transportFrame).flatMap Frame.bytes).take n) =
      Except.ok (reading, { received := messages codec (arrived n ps) }) := by
  have hfits : ∀ f ∈ ps.map transportFrame, transportFraming.Fits f := by
    intro f hf
    obtain ⟨p, hp, rfl⟩ := List.mem_map.mp hf
    exact transportFrame_fits (hps p hp).2.1
  refine Framing.feed_take hfits n ?_
  have hpre : arrived n ps <+: ps := RecordReader.whole_isPrefix ..
  rw [RecordReader.whole_map]
  exact decodeMessages_sendable (fun p hp => hps p (hpre.subset hp)) {} rfl

end ServerSession

/-! ## The client -/

namespace ByteBuffer

/-- What lies between the cursors is the queue. -/
structure Holds (b : ByteBuffer) (queue : Bytes) : Prop where
  le : b.reader ≤ b.writer
  within : b.writer ≤ b.buff.length
  lt : b.writer < 2 ^ 32
  unread : (b.buff.drop b.reader).take (b.writer - b.reader) = queue

/-- `readable`. -/
def readable (b : ByteBuffer) : Bool := b.writer > b.reader

variable {b b' : ByteBuffer} {queue data : Bytes}

lemma Holds.length (h : b.Holds queue) : queue.length = b.writer - b.reader := by
  have hwithin := h.within
  rw [← h.unread, List.length_take, List.length_drop]
  omega

lemma Holds.readableBytes (h : b.Holds queue) : b.readableBytes = Except.ok queue.length := by
  rw [ByteBuffer.readableBytes, if_pos h.le, h.length]
  rfl

lemma Holds.readable_eq (h : b.Holds queue) : b.readable = true ↔ queue ≠ [] := by
  have hlen := h.length
  rw [readable, decide_eq_true_iff, ← List.length_pos_iff]
  omega

lemma put_eq_ok (h : b.put data = Except.ok b') :
    b' = { b with
      buff := (b.makeRoom data.length).take b.writer ++
        (data ++ (b.makeRoom data.length).drop (b.writer + data.length))
      writer := wrap32 (b.writer + data.length) } ∧
      b.writer + data.length ≤ (b.makeRoom data.length).length := by
  simp only [put] at h
  split at h
  · rename_i hroom
    cases h
    exact ⟨rfl, hroom⟩
  · cases h

/-- The bytes that are free behind the queue, as `put` computes them. -/
def left (b : ByteBuffer) : Nat := uint32Sub (wrap32 b.buff.length) b.writer

/-- The buffer keeps its place if there is room. -/
lemma put_length (h : b.put data = Except.ok b') :
    b'.buff.length = b.buff.length ↔ data.length ≤ b.left := by
  obtain ⟨rfl, hroom⟩ := put_eq_ok h
  have hlength : ((b.makeRoom data.length).take b.writer ++
      (data ++ (b.makeRoom data.length).drop (b.writer + data.length))).length =
      (b.makeRoom data.length).length := by
    rw [List.length_append, List.length_append, List.length_take, List.length_drop]
    omega
  show (_ ++ _ : Bytes).length = _ ↔ _
  rw [hlength, makeRoom, left]
  split
  · rename_i hfull
    rw [List.length_append, List.length_replicate]
    omega
  · rename_i hfree
    exact ⟨fun _ => Nat.not_lt.mp hfree, fun _ => rfl⟩

/-- **What is put goes to the end of the queue**, unless the cursor wraps around. -/
theorem Holds.put (h : b.Holds queue) (hput : b.put data = Except.ok b')
    (hlt : b.writer + data.length < 2 ^ 32) : b'.Holds (queue ++ data) := by
  obtain ⟨rfl, hroom⟩ := put_eq_ok hput
  have hwrap : wrap32 (b.writer + data.length) = b.writer + data.length := Nat.mod_eq_of_lt hlt
  obtain ⟨more, hmore⟩ := (Queued.room_made b h.within data.length).2
  have hle := h.le
  have hwithin := h.within
  have hlength := h.length
  have hfront : (b.makeRoom data.length).take b.writer = b.buff.take b.writer := by
    rw [← hmore, List.take_append_of_le_length hwithin]
  have hold : (b.buff.take b.writer).drop b.reader = queue := by
    rw [List.drop_take, h.unread]
  have hlen : (b.buff.take b.writer).length = b.writer := by
    rw [List.length_take]
    omega
  refine ⟨?_, ?_, ?_, ?_⟩
  · show b.reader ≤ wrap32 (b.writer + data.length)
    omega
  · show wrap32 (b.writer + data.length) ≤ ((b.makeRoom data.length).take b.writer ++
      (data ++ (b.makeRoom data.length).drop (b.writer + data.length))).length
    rw [hwrap, hfront, List.length_append, List.length_append, hlen]
    omega
  · show wrap32 (b.writer + data.length) < 2 ^ 32
    omega
  · show (((b.makeRoom data.length).take b.writer ++
      (data ++ (b.makeRoom data.length).drop (b.writer + data.length))).drop b.reader).take
      (wrap32 (b.writer + data.length) - b.reader) = queue ++ data
    rw [hwrap, hfront, List.drop_append_of_le_length (by omega), hold, ← List.append_assoc,
      List.take_append_of_le_length (by rw [List.length_append]; omega), List.take_of_length_le]
    rw [List.length_append]
    omega

/-- **What is read leaves the front of the queue.** -/
theorem Holds.readBytes {bytes : Nat} (h : b.Holds queue) (hbytes : bytes ≤ queue.length) :
    ∃ b', b.readBytes bytes = Except.ok b' ∧ b'.Holds (queue.drop bytes) ∧
      (bytes < queue.length → b'.reader = b.reader + bytes) := by
  have hle := h.le
  have hlt := h.lt
  have hlength := h.length
  have hwrap : wrap32 (b.reader + bytes) = b.reader + bytes := Nat.mod_eq_of_lt (by omega)
  refine ⟨({ b with reader := b.reader + bytes } : ByteBuffer).mayShrinkToFit, ?_, ?_, ?_⟩
  · rw [ByteBuffer.readBytes, h.readableBytes, Outcome.ok_bind, if_pos hbytes, hwrap]
    rfl
  · rw [mayShrinkToFit]
    split
    · rename_i hempty
      have hempty : b.reader + bytes = b.writer := hempty
      rw [List.drop_eq_nil_of_le (by omega)]
      exact ⟨Nat.le_refl _, Nat.zero_le _, Nat.two_pow_pos 32, rfl⟩
    · refine ⟨?_, h.within, hlt, ?_⟩
      · show b.reader + bytes ≤ b.writer
        omega
      · show (b.buff.drop (b.reader + bytes)).take (b.writer - (b.reader + bytes)) =
          queue.drop bytes
        rw [← h.unread, List.drop_take, List.drop_drop, Nat.sub_sub]
  · intro hsome
    have hne : ¬ b.reader + bytes = b.writer := by omega
    rw [mayShrinkToFit, if_neg hne]

end ByteBuffer

/-- A call of `async_write` that has not called its handler. -/
structure Writing where
  /-- Where the bytes begin in the memory of the buffer. -/
  offset : Nat
  size : Nat
  /-- The bytes that the operating system has taken. -/
  sent : Nat := 0
  /-- The buffer has not moved since. -/
  valid : Bool := true
  deriving DecidableEq, Repr

structure ClientSession where
  buffer : ByteBuffer := {}
  connected : Bool := false
  writes : List Writing := []

namespace ClientSession

/-- A buffer that grows moves its memory. -/
def put (s : ClientSession) (data : Bytes) : Outcome ClientSession := do
  let buffer ← s.buffer.put data
  return { s with
    buffer := buffer
    writes :=
      if buffer.buff.length = s.buffer.buff.length then s.writes
      else s.writes.map fun w => { w with valid := false } }

def startWrite (s : ClientSession) : Outcome ClientSession :=
  if ¬ s.buffer.readable then pure s
  else do
    let remaining ← s.buffer.readableBytes
    return { s with writes := s.writes ++ [{ offset := s.buffer.reader, size := remaining }] }

def send (s : ClientSession) (type : UInt8) (data : Bytes) : Outcome ClientSession := do
  let remaining ← s.buffer.readableBytes
  let s ← s.put (transportMeta type data.length)
  let s ← s.put data
  let readable ← s.buffer.readableBytes
  if remaining + 5 + data.length ≠ readable then
    throw (Crash.assertion "remaining + sizeof(TransportMeta) + len == buffer_.readable_bytes()")
  else if s.connected ∧ remaining = 0 then s.startWrite
  else return s

/-- The handler of `async_connect`. -/
def onConnect (s : ClientSession) : Outcome ClientSession :=
  let s := { s with connected := true }
  if s.buffer.readable then s.startWrite else pure s

/-- The operating system takes some bytes of a pending write: what it takes, and the session.  The run
ends here if the buffer has given this memory back. -/
def transmit (s : ClientSession) (i k : Nat) : Outcome (ClientSession × Bytes) :=
  match s.writes[i]? with
  | none => pure (s, [])
  | some w =>
      let k := min k (w.size - w.sent)
      if w.valid ∨ k = 0 then
        pure ({ s with writes := s.writes.set i { w with sent := w.sent + k } },
          (s.buffer.buff.drop (w.offset + w.sent)).take k)
      else throw (Crash.outOfRange "boost::asio::buffer(buffer_.reader(), remaining)")

/-- The handler of `async_write`, once all bytes of a write have been taken. -/
def written (s : ClientSession) (i : Nat) : Outcome ClientSession :=
  match s.writes[i]? with
  | none => pure s
  | some w =>
      if w.sent < w.size then pure s
      else do
        let buffer ← s.buffer.readBytes w.size
        ({ s with buffer := buffer, writes := s.writes.eraseIdx i } : ClientSession).startWrite

/-- **What is in the buffer, and how much of it the operating system has taken**: there is a pending
write exactly if the session is connected and has something to write, and never a second one. -/
structure Holds (s : ClientSession) (queue : Bytes) (sent : Nat) : Prop where
  buffer : s.buffer.Holds queue
  writes : (s.writes = [] ∧ sent = 0 ∧ (s.connected = true → queue = [])) ∨
    (s.connected = true ∧ ∃ w, s.writes = [w] ∧ w.offset = s.buffer.reader ∧ 0 < w.size ∧
      w.size ≤ queue.length ∧ w.sent = sent ∧ sent ≤ w.size)

variable {s s' : ClientSession} {queue data taken : Bytes} {sent i k : Nat} {type : UInt8}

lemma holds_new : Holds {} [] 0 :=
  ⟨⟨Nat.le_refl _, Nat.zero_le _, Nat.two_pow_pos 32, rfl⟩, Or.inl ⟨rfl, rfl, fun _ => rfl⟩⟩

lemma Holds.sent_le (h : s.Holds queue sent) : sent ≤ queue.length := by
  rcases h.writes with ⟨-, rfl, -⟩ | ⟨-, w, -, -, -, hle, -, hsent⟩
  · exact Nat.zero_le _
  · exact hsent.trans hle

/-- Without a pending write, one is started if there is something to write. -/
lemma startWrite_holds (hbuffer : s.buffer.Holds queue) (hwrites : s.writes = [])
    (hconnected : s.connected = true) :
    ∃ s', s.startWrite = Except.ok s' ∧ s'.Holds queue 0 := by
  by_cases hnil : queue = []
  · refine ⟨s, ?_, hbuffer, Or.inl ⟨hwrites, rfl, fun _ => hnil⟩⟩
    rw [startWrite, if_pos fun hreadable => hbuffer.readable_eq.mp hreadable hnil]
    rfl
  · have hreadable := hbuffer.readable_eq.mpr hnil
    let w : Writing := { offset := s.buffer.reader, size := queue.length }
    refine ⟨{ s with writes := s.writes ++ [w] }, ?_, hbuffer,
      Or.inr ⟨hconnected, w, ?_, rfl, ?_, Nat.le_refl _, rfl, Nat.zero_le _⟩⟩
    · rw [startWrite, if_neg (not_not.mpr hreadable), hbuffer.readableBytes]
      rfl
    · rw [hwrites]
      rfl
    · exact List.length_pos_iff.mpr hnil

/-- What `put` leaves of a session. -/
lemma put_eq_ok (h : s.put data = Except.ok s') :
    s.buffer.put data = Except.ok s'.buffer ∧ s'.connected = s.connected ∧
      s'.writes = if s'.buffer.buff.length = s.buffer.buff.length then s.writes
        else s.writes.map fun w => { w with valid := false } := by
  obtain ⟨buffer, hput, h⟩ := Outcome.bind_eq_ok.mp h
  cases h
  exact ⟨hput, rfl, rfl⟩

/-- Only the validity of the pending writes changes. -/
lemma put_writes (h : s.put data = Except.ok s') {w : Writing} (hw : s.writes = [w]) :
    ∃ valid, s'.writes = [{ w with valid := valid }] := by
  obtain ⟨-, -, hwrites⟩ := put_eq_ok h
  rw [hwrites, hw]
  split
  · exact ⟨w.valid, rfl⟩
  · exact ⟨false, rfl⟩

lemma put_writes_nil (h : s.put data = Except.ok s') (hw : s.writes = []) : s'.writes = [] := by
  obtain ⟨-, -, hwrites⟩ := put_eq_ok h
  rw [hwrites, hw]
  split
  · rfl
  · rfl

/-- **What `send` does**: both parts are put behind the queue, and a write is started if there was
nothing to write. -/
lemma send_eq_ok (h : s.Holds queue sent) (hsend : s.send type data = Except.ok s') :
    ∃ s₁ s₂, s.put (transportMeta type data.length) = Except.ok s₁ ∧ s₁.put data = Except.ok s₂ ∧
      s₂.buffer.Holds (queue ++ (transportFrame (type, data)).bytes) ∧
      s₂.buffer.reader = s.buffer.reader ∧ s₂.connected = s.connected ∧
      (if s.connected = true ∧ queue = [] then s₂.startWrite else pure s₂) = Except.ok s' := by
  rw [send, h.buffer.readableBytes, Outcome.ok_bind] at hsend
  obtain ⟨s₁, hmeta, hsend⟩ := Outcome.bind_eq_ok.mp hsend
  obtain ⟨s₂, hdata, hsend⟩ := Outcome.bind_eq_ok.mp hsend
  obtain ⟨readable, hreadable, hsend⟩ := Outcome.bind_eq_ok.mp hsend
  obtain ⟨hput₁, hconnected₁, -⟩ := put_eq_ok hmeta
  obtain ⟨hput₂, hconnected₂, -⟩ := put_eq_ok hdata
  have hlen : (transportMeta type data.length).length = 5 := by
    rw [transportMeta, List.length_cons, length_bigEndian]
  have hlength := h.buffer.length
  have hle := h.buffer.le
  have hlt := h.buffer.lt
  have hwriter₁ := congrArg ByteBuffer.writer (ByteBuffer.put_eq_ok hput₁).1
  have hreader₁ := congrArg ByteBuffer.reader (ByteBuffer.put_eq_ok hput₁).1
  have hwriter₂ := congrArg ByteBuffer.writer (ByteBuffer.put_eq_ok hput₂).1
  have hreader₂ := congrArg ByteBuffer.reader (ByteBuffer.put_eq_ok hput₂).1
  dsimp only at hwriter₁ hreader₁ hwriter₂ hreader₂
  rw [hlen] at hwriter₁
  split at hsend
  · cases hsend
  rename_i hcount
  have hcount := not_not.mp hcount
  -- the assertion fails where a cursor has wrapped around
  rw [ByteBuffer.readableBytes] at hreadable
  split at hreadable
  · cases hreadable
    rw [wrap32] at hwriter₁ hwriter₂
    have hholds₁ := h.buffer.put hput₁ (by rw [hlen]; omega)
    have hholds₂ := hholds₁.put hput₂ (by omega)
    rw [List.append_assoc] at hholds₂
    refine ⟨s₁, s₂, hmeta, hdata, hholds₂, hreader₂.trans hreader₁, hconnected₂.trans hconnected₁, ?_⟩
    rw [hconnected₂, hconnected₁] at hsend
    by_cases hnil : queue = []
    · rw [hnil] at hsend ⊢
      simpa using hsend
    · have hzero : queue.length ≠ 0 := fun hzero => hnil (List.eq_nil_of_length_eq_zero hzero)
      rw [if_neg fun hboth => hzero hboth.2] at hsend
      rw [if_neg fun hboth => hnil hboth.2]
      exact hsend
  · cases hreadable

/-- **A pending write keeps its memory** if both parts find room, and loses it otherwise. -/
theorem send_valid (h : s.Holds queue sent) (hsend : s.send type data = Except.ok s') {w : Writing}
    (hw : s.writes[0]? = some w) (hvalid : w.valid = true) :
    ∃ w', s'.writes[0]? = some w' ∧ w'.size = w.size ∧ w'.sent = w.sent ∧
      (w'.valid = true ↔ 5 + data.length ≤ s.buffer.left) := by
  obtain ⟨s₁, s₂, hmeta, hdata, hbuffer, hreader, -, hsend⟩ := send_eq_ok h hsend
  rcases h.writes with ⟨hnone, -, -⟩ | ⟨hup, w₀, hw₀, hoffset, hpos, hsize, -, -⟩
  · rw [hnone] at hw
    cases hw
  rw [hw₀] at hw
  obtain rfl : w₀ = w := Option.some.inj hw
  have hne : queue ≠ [] := by
    rintro rfl
    rw [List.length_nil] at hsize
    omega
  rw [if_neg fun hboth => hne hboth.2] at hsend
  cases hsend
  obtain ⟨hput₁, -, hwrites₁⟩ := put_eq_ok hmeta
  obtain ⟨hput₂, -, hwrites₂⟩ := put_eq_ok hdata
  have hfive : (transportMeta type data.length).length = 5 := by
    rw [transportMeta, List.length_cons, length_bigEndian]
  -- the cursors have not wrapped around
  have hlength := h.buffer.length
  have hlength₂ := hbuffer.length
  rw [List.length_append, length_transportFrame] at hlength₂
  have hle := h.buffer.le
  have hlt₂ := hbuffer.lt
  have hwriter₁ := congrArg ByteBuffer.writer (ByteBuffer.put_eq_ok hput₁).1
  have hwriter₂ := congrArg ByteBuffer.writer (ByteBuffer.put_eq_ok hput₂).1
  dsimp only at hwriter₁ hwriter₂
  rw [hfive] at hwriter₁
  have hgrow₁ := ByteBuffer.put_length hput₁
  have hgrow₂ := ByteBuffer.put_length hput₂
  rw [hfive] at hgrow₁
  by_cases hroom : 5 ≤ s.buffer.left
  · have hsame := hgrow₁.mpr hroom
    have hleft : s₁.buffer.left = s.buffer.left - 5 := by
      rw [ByteBuffer.left, uint32Sub, wrap32, wrap32] at hroom
      rw [wrap32] at hwriter₁ hwriter₂
      rw [ByteBuffer.left, ByteBuffer.left, uint32Sub, uint32Sub, wrap32, wrap32, wrap32, wrap32,
        hsame, hwriter₁]
      omega
    rw [if_pos hsame, hw₀] at hwrites₁
    rw [hwrites₁] at hwrites₂
    rw [hleft] at hgrow₂
    by_cases hfits : data.length ≤ s.buffer.left - 5
    · rw [if_pos (hgrow₂.mpr hfits)] at hwrites₂
      refine ⟨w₀, by rw [hwrites₂]; rfl, rfl, rfl, ?_⟩
      exact ⟨fun _ => by omega, fun _ => hvalid⟩
    · rw [if_neg fun heq => hfits (hgrow₂.mp heq)] at hwrites₂
      refine ⟨{ w₀ with valid := false }, by rw [hwrites₂]; rfl, rfl, rfl, ?_⟩
      exact ⟨fun hv => (by cases hv), fun hle => absurd (by omega) hfits⟩
  · -- the first part has moved the buffer already
    rw [if_neg fun heq => hroom (hgrow₁.mp heq), hw₀] at hwrites₁
    rw [hwrites₁] at hwrites₂
    refine ⟨{ w₀ with valid := false }, ?_, rfl, rfl, ?_⟩
    · rw [hwrites₂]
      split
      · rfl
      · rfl
    · exact ⟨fun hv => (by cases hv), fun hle => absurd (by omega) hroom⟩

/-- **What is sent goes to the end of the queue.** -/
theorem Holds.send (h : s.Holds queue sent) (hsend : s.send type data = Except.ok s') :
    s'.Holds (queue ++ (transportFrame (type, data)).bytes) sent := by
  obtain ⟨s₁, s₂, hmeta, hdata, hbuffer, hreader, hconnected, hsend⟩ := send_eq_ok h hsend
  rcases h.writes with ⟨hnone, rfl, hidle⟩ | ⟨hup, w, hw, hoffset, hpos, hsize, hsent, hle⟩
  · have hnone₂ := put_writes_nil hdata (put_writes_nil hmeta hnone)
    split at hsend
    · rename_i hboth
      obtain ⟨s₃, hstart, hholds⟩ := startWrite_holds hbuffer hnone₂ (hconnected.trans hboth.1)
      obtain rfl := Except.ok.inj (hstart.symm.trans hsend)
      exact hholds
    · rename_i hother
      cases hsend
      refine ⟨hbuffer, Or.inl ⟨hnone₂, rfl, fun hup => ?_⟩⟩
      rw [hconnected] at hup
      exact absurd ⟨hup, hidle hup⟩ hother
  · have hne : queue ≠ [] := by
      rintro rfl
      rw [List.length_nil] at hsize
      omega
    rw [if_neg fun hboth => hne hboth.2] at hsend
    cases hsend
    obtain ⟨valid₁, hw₁⟩ := put_writes hmeta hw
    obtain ⟨valid₂, hw₂⟩ := put_writes hdata hw₁
    refine ⟨hbuffer, Or.inr ⟨hconnected.trans hup, _, hw₂, ?_, hpos, ?_, hsent, hle⟩⟩
    · exact hoffset.trans hreader.symm
    · rw [List.length_append]
      exact hsize.trans (Nat.le_add_right ..)

/-- **A session that has been connected** starts to write. -/
theorem Holds.onConnect (h : s.Holds queue sent) (hdown : s.connected = false)
    (hconnect : s.onConnect = Except.ok s') : sent = 0 ∧ s'.Holds queue 0 := by
  rcases h.writes with ⟨hnone, rfl, -⟩ | ⟨hup, -⟩
  · refine ⟨rfl, ?_⟩
    have hbuffer : ({ s with connected := true } : ClientSession).buffer.Holds queue := h.buffer
    rw [ClientSession.onConnect] at hconnect
    dsimp only at hconnect
    split at hconnect
    · obtain ⟨s₁, hstart, hholds⟩ := startWrite_holds hbuffer hnone rfl
      obtain rfl := Except.ok.inj (hstart.symm.trans hconnect)
      exact hholds
    · rename_i hempty
      cases hconnect
      refine ⟨hbuffer, Or.inl ⟨hnone, rfl, fun _ => ?_⟩⟩
      by_contra hne
      exact hempty (hbuffer.readable_eq.mpr hne)
  · rw [hdown] at hup
    cases hup

/-- **What the operating system takes is next in the queue.** -/
theorem Holds.transmit (h : s.Holds queue sent)
    (htransmit : s.transmit i k = Except.ok (s', taken)) :
    s'.Holds queue (sent + taken.length) ∧ taken = (queue.drop sent).take taken.length := by
  rw [ClientSession.transmit] at htransmit
  split at htransmit
  · cases htransmit
    refine ⟨h, rfl⟩
  rename_i w hi
  dsimp only at htransmit
  split at htransmit
  · cases htransmit
    rcases h.writes with ⟨hnone, -, -⟩ | ⟨hup, w', hw, hoffset, hpos, hsize, hsent, hle⟩
    · rw [hnone] at hi
      cases hi
    · rw [hw] at hi
      obtain ⟨rfl, hwi⟩ : i = 0 ∧ w' = w := by
        cases i with
        | zero => exact ⟨rfl, Option.some.inj hi⟩
        | succ i => cases hi
      subst hwi
      have hlength := h.buffer.length
      have hwithin := h.buffer.within
      have hqueue : queue.drop sent = (s.buffer.buff.drop (s.buffer.reader + sent)).take
          (queue.length - sent) := by
        conv_lhs => rw [← h.buffer.unread]
        rw [List.drop_take, List.drop_drop, hlength]
      have htaken : (s.buffer.buff.drop (w'.offset + w'.sent)).take (min k (w'.size - w'.sent)) =
          (queue.drop sent).take (min k (w'.size - w'.sent)) := by
        rw [hqueue, List.take_take, hoffset, hsent]
        congr 1
        omega
      have hcount : ((s.buffer.buff.drop (w'.offset + w'.sent)).take
          (min k (w'.size - w'.sent))).length = min k (w'.size - w'.sent) := by
        rw [htaken, List.length_take, List.length_drop]
        omega
      rw [hcount]
      refine ⟨⟨h.buffer, Or.inr ⟨hup, { w' with sent := w'.sent + min k (w'.size - w'.sent) }, ?_,
        hoffset, hpos, hsize, ?_, ?_⟩⟩, htaken⟩
      · show s.writes.set 0 _ = _
        rw [hw]
        rfl
      · show w'.sent + min k (w'.size - w'.sent) = sent + min k (w'.size - w'.sent)
        rw [hsent]
      · show sent + min k (w'.size - w'.sent) ≤ w'.size
        omega
  · cases htransmit

/-- **When a write is complete**, its bytes leave the queue, and the next one is started. -/
theorem Holds.written (h : s.Holds queue sent) (hwritten : s.written i = Except.ok s') :
    s'.Holds queue sent ∨ s'.Holds (queue.drop sent) 0 := by
  rw [ClientSession.written] at hwritten
  split at hwritten
  · cases hwritten
    exact Or.inl h
  rename_i w hi
  split at hwritten
  · cases hwritten
    exact Or.inl h
  rename_i hdone
  rcases h.writes with ⟨hnone, -, -⟩ | ⟨hup, w', hw, hoffset, hpos, hsize, hsent, hle⟩
  · rw [hnone] at hi
    cases hi
  · rw [hw] at hi
    obtain ⟨rfl, hwi⟩ : i = 0 ∧ w' = w := by
      cases i with
      | zero => exact ⟨rfl, Option.some.inj hi⟩
      | succ i => cases hi
    subst hwi
    obtain ⟨buffer, hread, hwritten⟩ := Outcome.bind_eq_ok.mp hwritten
    obtain ⟨b', hread', hholds, -⟩ := h.buffer.readBytes hsize
    obtain rfl := Except.ok.inj (hread'.symm.trans hread)
    have hall : w'.size = sent := by omega
    rw [hall] at hholds
    obtain ⟨s₁, hstart, hholds₁⟩ := startWrite_holds
      (s := { s with buffer := b', writes := s.writes.eraseIdx 0 }) hholds (by rw [hw]; rfl) hup
    obtain rfl := Except.ok.inj (hstart.symm.trans hwritten)
    exact Or.inr hholds₁

end ClientSession

end RaftKv
