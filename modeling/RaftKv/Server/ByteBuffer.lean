import Mathlib.Order.Basic
import RaftKv.Core.Run
import RaftKv.Raft.Proto

/-!
# The buffer of a connection

`ByteBuffer` (`common/bytebuffer.cpp`): bytes are written behind the others and read from the front,
and the place of the front only goes back to 0 when everything has been read.

* `ByteBuffer.put`, `readBytes`, `slice` — with 32-bit cursors, and every copy checked.
* `Queued.Kept` — what lies between the cursors is the queue.
* `Queued.buffer_queue` — **the buffer is a queue, as long as the bytes that were written since it was
  empty are fewer than `2 ^ 32`**.

Allocations succeed.
-/

namespace RaftKv

/-- The difference of two 32-bit numbers. -/
def uint32Sub (a b : Nat) : Nat := wrap32 (a + 2 ^ 32 - b)

/-- `MIN_BUFFERING`. -/
def minBuffering : Nat := 4096

structure ByteBuffer where
  reader : Nat := 0
  writer : Nat := 0
  buff : Bytes := List.replicate minBuffering 0

namespace ByteBuffer

/-- The bytes behind which a call of `put` writes, after it has made room. -/
def makeRoom (b : ByteBuffer) (len : Nat) : Bytes :=
  if uint32Sub (wrap32 b.buff.length) b.writer < len then
    b.buff ++ List.replicate (b.buff.length + len) 0
  else b.buff

def put (b : ByteBuffer) (data : Bytes) : Outcome ByteBuffer :=
  let buff := b.makeRoom data.length
  if b.writer + data.length ≤ buff.length then
    pure { b with
      buff := buff.take b.writer ++ (data ++ buff.drop (b.writer + data.length))
      writer := wrap32 (b.writer + data.length) }
  else throw (Crash.outOfRange "memcpy(buff_.data() + writer_, data, len)")

def readableBytes (b : ByteBuffer) : Outcome Nat :=
  if b.writer ≥ b.reader then pure (b.writer - b.reader)
  else throw (Crash.assertion "writer_ >= reader_")

def mayShrinkToFit (b : ByteBuffer) : ByteBuffer :=
  if b.reader = b.writer then { b with reader := 0, writer := 0 } else b

def readBytes (b : ByteBuffer) (bytes : Nat) : Outcome ByteBuffer := do
  let readable ← b.readableBytes
  if readable ≥ bytes then
    return ({ b with reader := wrap32 (b.reader + bytes) } : ByteBuffer).mayShrinkToFit
  else throw (Crash.assertion "readable_bytes() >= bytes")

def slice (b : ByteBuffer) : Outcome Bytes := do
  let readable ← b.readableBytes
  if b.reader + readable ≤ b.buff.length then return (b.buff.drop b.reader).take readable
  else throw (Crash.outOfRange "buff_.data() + reader_")

end ByteBuffer

/-! ## Runs -/

inductive BufferAction where
  | put (data : Bytes)
  | readBytes (bytes : Nat)

/-- A buffer, beside the bytes that it is to hold. -/
structure Queued where
  buffer : ByteBuffer := {}
  queue : Bytes := []

namespace Queued

def act (s : Queued) : BufferAction → Outcome Queued
  | BufferAction.put data => do
      let buffer ← s.buffer.put data
      return { buffer := buffer, queue := s.queue ++ data }
  | BufferAction.readBytes bytes => do
      let buffer ← s.buffer.readBytes bytes
      return { buffer := buffer, queue := s.queue.drop bytes }

/-- Not more than `2 ^ 30` bytes are unread, and no more are read. -/
def Allowed (s : Queued) : BufferAction → Prop
  | BufferAction.put data => s.queue.length + data.length ≤ 2 ^ 30
  | BufferAction.readBytes bytes => bytes ≤ s.queue.length

instance (s : Queued) : (a : BufferAction) → Decidable (s.Allowed a)
  | BufferAction.put data => inferInstanceAs (Decidable (s.queue.length + data.length ≤ 2 ^ 30))
  | BufferAction.readBytes bytes => inferInstanceAs (Decidable (bytes ≤ s.queue.length))

/-- The bytes that were written since the buffer was empty stay fewer than `2 ^ 32`. -/
def Fits (s : Queued) : BufferAction → Prop
  | BufferAction.put data => s.buffer.writer + data.length < 2 ^ 32
  | BufferAction.readBytes _ => True

instance (s : Queued) : (a : BufferAction) → Decidable (s.Fits a)
  | BufferAction.put data => inferInstanceAs (Decidable (s.buffer.writer + data.length < 2 ^ 32))
  | BufferAction.readBytes _ => inferInstanceAs (Decidable True)

/-- The buffer shows the queue, and its assertion holds. -/
structure Shows (s : Queued) : Prop where
  readable : s.buffer.readableBytes = Except.ok s.queue.length
  slice : s.buffer.slice = Except.ok s.queue

/-- What lies between the cursors is the queue. -/
structure Kept (s : Queued) : Prop where
  le : s.buffer.reader ≤ s.buffer.writer
  within : s.buffer.writer ≤ s.buffer.buff.length
  lt : s.buffer.writer < 2 ^ 32
  unread : (s.buffer.buff.drop s.buffer.reader).take (s.buffer.writer - s.buffer.reader) = s.queue
  small : s.queue.length ≤ 2 ^ 30

variable {s : Queued} {a : BufferAction} {data : Bytes}

lemma kept_empty : Kept {} where
  le := Nat.le_refl _
  within := Nat.zero_le _
  lt := Nat.two_pow_pos 32
  unread := rfl
  small := Nat.zero_le _

lemma Kept.length (h : s.Kept) : s.queue.length = s.buffer.writer - s.buffer.reader := by
  have hwithin := h.within
  rw [← h.unread, List.length_take, List.length_drop]
  omega

theorem Kept.shows (h : s.Kept) : s.Shows := by
  have hreadable : s.buffer.readableBytes = Except.ok s.queue.length := by
    rw [ByteBuffer.readableBytes, if_pos h.le, h.length]
    rfl
  refine ⟨hreadable, ?_⟩
  have hle := h.le
  have hwithin := h.within
  have hlength := h.length
  rw [ByteBuffer.slice, hreadable, Outcome.ok_bind, if_pos (by omega), hlength, h.unread]
  rfl

/-- Where the 32-bit difference is large enough, so is the room; where it is not, room is made. -/
lemma room_made (b : ByteBuffer) (hwithin : b.writer ≤ b.buff.length) (len : Nat) :
    b.writer + len ≤ (b.makeRoom len).length ∧ b.buff <+: b.makeRoom len := by
  rw [ByteBuffer.makeRoom]
  split
  · refine ⟨?_, List.prefix_append _ _⟩
    rw [List.length_append, List.length_replicate]
    omega
  · rename_i henough
    refine ⟨?_, List.prefix_refl _⟩
    rw [uint32Sub, wrap32, wrap32] at henough
    omega

/-- What `put` does, whatever the cursors. -/
lemma put_eq (h : s.Kept) (data : Bytes) : s.buffer.put data = Except.ok { s.buffer with
    buff := (s.buffer.makeRoom data.length).take s.buffer.writer ++
      (data ++ (s.buffer.makeRoom data.length).drop (s.buffer.writer + data.length))
    writer := wrap32 (s.buffer.writer + data.length) } := by
  have hroom := (room_made s.buffer h.within data.length).1
  rw [ByteBuffer.put]
  exact if_pos hroom

/-- **What is put goes to the end of the queue.** -/
theorem put_kept (data : Bytes) (h : s.Kept) (hsmall : s.queue.length + data.length ≤ 2 ^ 30)
    (hfits : s.buffer.writer + data.length < 2 ^ 32) :
    ∃ s', s.act (BufferAction.put data) = Except.ok s' ∧ s'.Kept ∧
      s'.queue = s.queue ++ data ∧ s'.buffer.writer = s.buffer.writer + data.length := by
  obtain ⟨hroom, hprefix⟩ := room_made s.buffer h.within data.length
  have hwrap : wrap32 (s.buffer.writer + data.length) = s.buffer.writer + data.length :=
    Nat.mod_eq_of_lt hfits
  have hput := put_eq h data
  rw [hwrap] at hput
  have hle := h.le
  have hwithin := h.within
  let buff := s.buffer.makeRoom data.length
  have hroom : s.buffer.writer + data.length ≤ buff.length := hroom
  have hfront : buff.take s.buffer.writer = s.buffer.buff.take s.buffer.writer := by
    obtain ⟨more, hmore⟩ := hprefix
    show (s.buffer.makeRoom data.length).take s.buffer.writer = _
    rw [← hmore, List.take_append_of_le_length hwithin]
  have hlen : (buff.take s.buffer.writer).length = s.buffer.writer := by
    rw [List.length_take]
    omega
  refine ⟨_, by rw [act, hput]; rfl, ⟨?_, ?_, hfits, ?_, ?_⟩, rfl, rfl⟩
  · show s.buffer.reader ≤ s.buffer.writer + data.length
    omega
  · show s.buffer.writer + data.length ≤ (buff.take s.buffer.writer ++
      (data ++ buff.drop (s.buffer.writer + data.length))).length
    rw [List.length_append, List.length_append, hlen]
    omega
  · show ((buff.take s.buffer.writer ++ (data ++ buff.drop (s.buffer.writer + data.length))).drop
      s.buffer.reader).take (s.buffer.writer + data.length - s.buffer.reader) = s.queue ++ data
    have hold : (buff.take s.buffer.writer).drop s.buffer.reader = s.queue := by
      rw [hfront, List.drop_take, h.unread]
    have hlength := h.length
    rw [List.drop_append_of_le_length (by omega), hold, ← List.append_assoc,
      List.take_append_of_le_length (by rw [List.length_append]; omega), List.take_of_length_le]
    rw [List.length_append]
    omega
  · rw [List.length_append]
    exact hsmall

/-- Where too many bytes have been written, the writing cursor falls behind the reading one. -/
theorem put_out (h : s.Kept) (hsmall : s.queue.length + data.length ≤ 2 ^ 30)
    (hfull : ¬ s.buffer.writer + data.length < 2 ^ 32) :
    ∃ s', s.act (BufferAction.put data) = Except.ok s' ∧
      s'.buffer.readableBytes = Except.error (Crash.assertion "writer_ >= reader_") := by
  have hle := h.le
  have hlt := h.lt
  have hlength := h.length
  refine ⟨_, by rw [act, put_eq h data]; rfl, ?_⟩
  rw [ByteBuffer.readableBytes]
  refine if_neg ?_
  show ¬ wrap32 (s.buffer.writer + data.length) ≥ s.buffer.reader
  rw [wrap32]
  omega

/-- **What is read leaves the front of the queue.** -/
theorem readBytes_kept (bytes : Nat) (h : s.Kept) (hbytes : bytes ≤ s.queue.length) :
    ∃ s', s.act (BufferAction.readBytes bytes) = Except.ok s' ∧ s'.Kept ∧
      s'.queue = s.queue.drop bytes ∧
      (bytes < s.queue.length → s'.buffer.writer = s.buffer.writer) := by
  have hle := h.le
  have hlt := h.lt
  have hlength := h.length
  have hsmall := h.small
  have hwrap : wrap32 (s.buffer.reader + bytes) = s.buffer.reader + bytes :=
    Nat.mod_eq_of_lt (by omega)
  have hread : s.buffer.readBytes bytes = Except.ok
      ({ s.buffer with reader := s.buffer.reader + bytes } : ByteBuffer).mayShrinkToFit := by
    rw [ByteBuffer.readBytes, h.shows.readable, Outcome.ok_bind, if_pos hbytes, hwrap]
    rfl
  refine ⟨_, by rw [act, hread]; rfl, ?_, rfl, ?_⟩
  · rw [ByteBuffer.mayShrinkToFit]
    split
    · rename_i hempty
      have hempty : s.buffer.reader + bytes = s.buffer.writer := hempty
      have hnil : s.queue.drop bytes = [] := List.drop_eq_nil_of_le (by omega)
      refine ⟨Nat.le_refl _, Nat.zero_le _, Nat.two_pow_pos 32, ?_, ?_⟩
      · rw [hnil]
        rfl
      · rw [hnil]
        exact Nat.zero_le _
    · refine ⟨?_, h.within, hlt, ?_, ?_⟩
      · show s.buffer.reader + bytes ≤ s.buffer.writer
        omega
      · show (s.buffer.buff.drop (s.buffer.reader + bytes)).take
          (s.buffer.writer - (s.buffer.reader + bytes)) = s.queue.drop bytes
        rw [← h.unread, List.drop_take, List.drop_drop, Nat.sub_sub]
      · show (s.queue.drop bytes).length ≤ 2 ^ 30
        rw [List.length_drop]
        omega
  · intro hsome
    have hne : ¬ s.buffer.reader + bytes = s.buffer.writer := by omega
    show (({ s.buffer with reader := s.buffer.reader + bytes } : ByteBuffer).mayShrinkToFit).writer = _
    rw [ByteBuffer.mayShrinkToFit, if_neg hne]

/-- **A step that keeps to the queue.** -/
theorem act_kept (h : s.Kept) (ha : s.Allowed a) (hfits : s.Fits a) :
    ∃ s', s.act a = Except.ok s' ∧ s'.Kept := by
  cases a with
  | put data =>
      obtain ⟨s', hact, hkept, -⟩ := put_kept _ h ha hfits
      exact ⟨s', hact, hkept⟩
  | readBytes bytes =>
      obtain ⟨s', hact, hkept, -⟩ := readBytes_kept _ h ha
      exact ⟨s', hact, hkept⟩

/-- **The buffer is a queue.**  In a run in which the bytes written since the buffer was empty stay
fewer than `2 ^ 32`, it shows the queue in every state; and there an action keeps to the queue if and
only if it keeps to that number. -/
theorem buffer_queue (hrun : RunOf act (fun s a => s.Allowed a ∧ s.Fits a) {} s) :
    s.Shows ∧ ∀ a, s.Allowed a → ((∃ s', s.act a = Except.ok s' ∧ s'.Shows) ↔ s.Fits a) := by
  have hkept : s.Kept := by
    refine hrun.invariant (I := Kept) ?_ kept_empty
    intro s a s' h ha hact
    obtain ⟨s₁, hs₁, hkept⟩ := act_kept h ha.1 ha.2
    obtain rfl := Except.ok.inj (hs₁.symm.trans hact)
    exact hkept
  refine ⟨hkept.shows, fun a ha => ⟨?_, fun hfits => ?_⟩⟩
  · rintro ⟨s', hact, hshows⟩
    cases a with
    | put data =>
        by_contra hfull
        obtain ⟨s₁, hs₁, hassert⟩ := put_out hkept ha hfull
        obtain rfl := Except.ok.inj (hs₁.symm.trans hact)
        have hreadable := hshows.readable
        rw [hassert] at hreadable
        cases hreadable
    | readBytes bytes => exact trivial
  · obtain ⟨s', hact, hkept'⟩ := act_kept hkept ha hfits
    exact ⟨s', hact, hkept'.shows⟩

/-- Three bytes are written, of which two have been read. -/
theorem buffer_queue_three : ∃ s : Queued,
    RunOf act (fun s a => s.Allowed a ∧ s.Fits a) {} s ∧ s.queue = [9] ∧ s.Shows := by
  have hsteps : ∃ s : Queued, s.queue = [9] ∧
      RunOf act (fun s a => s.Allowed a ∧ s.Fits a) {} s := by
    obtain ⟨s₁, hput, hkept, hqueue, -⟩ := put_kept [7, 8, 9] kept_empty (by decide)
      (by decide)
    have hbytes : 2 ≤ s₁.queue.length := by
      rw [hqueue]
      decide
    obtain ⟨s₂, hread, -, hqueue₂, -⟩ := readBytes_kept 2 hkept hbytes
    refine ⟨s₂, by rw [hqueue₂, hqueue]; rfl, ?_⟩
    refine ((RunOf.refl _).step (BufferAction.put [7, 8, 9]) ⟨?_, ?_⟩ hput).step
      (BufferAction.readBytes 2) ⟨hbytes, trivial⟩ hread
    · show ([] : Bytes).length + ([7, 8, 9] : Bytes).length ≤ 2 ^ 30
      decide
    · show 0 + ([7, 8, 9] : Bytes).length < 2 ^ 32
      decide
  obtain ⟨s, hqueue, hrun⟩ := hsteps
  exact ⟨s, hrun, hqueue, (buffer_queue hrun).1⟩

/-! ## A connection that is never idle -/

/-- Rounds in which as many bytes are written as are read, behind one that stays unread. -/
lemma busy_rounds {k : Nat} (hk : k ≤ 4) : ∃ s : Queued,
    RunOf act (fun s a => s.Allowed a ∧ s.Fits a) {} s ∧ s.Kept ∧ s.queue.length = 1 ∧
    s.buffer.writer = 1 + k * (2 ^ 30 - 1) := by
  induction k with
  | zero =>
      obtain ⟨s, hput, hkept, hqueue, hwriter⟩ := put_kept [0] kept_empty (by decide)
        (by decide)
      refine ⟨s, (RunOf.refl _).step (BufferAction.put [0]) ⟨?_, ?_⟩ hput, hkept, ?_, hwriter⟩
      · show ([] : Bytes).length + ([0] : Bytes).length ≤ 2 ^ 30
        decide
      · show 0 + ([0] : Bytes).length < 2 ^ 32
        decide
      · rw [hqueue]
        rfl
  | succ k ih =>
      obtain ⟨s, hrun, hkept, hone, hwriter⟩ := ih (by omega)
      have hlength : (List.replicate (2 ^ 30 - 1) 0 : Bytes).length = 2 ^ 30 - 1 :=
        List.length_replicate
      have hsmall : s.queue.length + (List.replicate (2 ^ 30 - 1) 0 : Bytes).length ≤ 2 ^ 30 := by
        rw [hlength, hone]
        decide
      have hfits : s.buffer.writer + (List.replicate (2 ^ 30 - 1) 0 : Bytes).length < 2 ^ 32 := by
        rw [hlength, hwriter]
        omega
      obtain ⟨s₁, hput, hkept₁, hqueue₁, hwriter₁⟩ := put_kept _ hkept hsmall hfits
      have hlong : s₁.queue.length = 2 ^ 30 := by
        rw [hqueue₁, List.length_append, hlength, hone]
        decide
      obtain ⟨s₂, hread, hkept₂, hqueue₂, hwriter₂⟩ :=
        readBytes_kept (2 ^ 30 - 1) hkept₁ (by omega)
      have hrun₁ := hrun.step (BufferAction.put (List.replicate (2 ^ 30 - 1) 0)) ⟨hsmall, hfits⟩ hput
      have hread₂ : s₁.Allowed (BufferAction.readBytes (2 ^ 30 - 1)) := by
        show 2 ^ 30 - 1 ≤ s₁.queue.length
        omega
      refine ⟨s₂, hrun₁.step (BufferAction.readBytes (2 ^ 30 - 1)) ⟨hread₂, trivial⟩ hread, hkept₂,
        ?_, ?_⟩
      · rw [hqueue₂, List.length_drop]
        omega
      · rw [hwriter₂ (by omega), hwriter₁, hwriter, hlength]
        omega

/-- On a connection that is never idle, the assertion fails in the end. -/
theorem buffer_asserts : ∃ s s' : Queued, RunOf act Allowed {} s ∧
    s.Allowed (BufferAction.put [1, 2, 3]) ∧
    s.act (BufferAction.put [1, 2, 3]) = Except.ok s' ∧
    s'.buffer.readableBytes = Except.error (Crash.assertion "writer_ >= reader_") := by
  obtain ⟨s, hrun, hkept, hone, hwriter⟩ := busy_rounds (Nat.le_refl 4)
  have hsmall : s.queue.length + ([1, 2, 3] : Bytes).length ≤ 2 ^ 30 := by
    rw [hone]
    decide
  have hfull : ¬ s.buffer.writer + ([1, 2, 3] : Bytes).length < 2 ^ 32 := by
    rw [hwriter]
    decide
  obtain ⟨s', hact, hassert⟩ := put_out hkept hsmall hfull
  exact ⟨s, s', hrun.mono fun s a ha => ha.1, hsmall, hact, hassert⟩

end Queued

end RaftKv
