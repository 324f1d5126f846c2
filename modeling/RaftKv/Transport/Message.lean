import RaftKv.Server.Snapshotter

/-!
# Packed messages

The packing of `proto::Message`, with the codes of the message types (`raft/proto.h`).

* `messageFormat` — the twelve fields of a message, in the order of the source.
* `messageFormat_fits` — **a message within the widths of its fields is read back**.
-/

namespace RaftKv

/-- The types of the messages, at the places that their codes name. -/
def MessageType.all : List MessageType :=
  [MessageType.msgHup, MessageType.msgBeat, MessageType.msgProp, MessageType.msgApp,
    MessageType.msgAppResp, MessageType.msgVote, MessageType.msgVoteResp, MessageType.msgSnap,
    MessageType.msgHeartbeat, MessageType.msgHeartbeatResp, MessageType.msgUnreachable,
    MessageType.msgSnapStatus, MessageType.msgCheckQuorum, MessageType.msgTransferLeader,
    MessageType.msgTimeoutNow, MessageType.msgReadIndex, MessageType.msgReadIndexResp,
    MessageType.msgPreVote, MessageType.msgPreVoteResp]

def MessageType.code (t : MessageType) : Nat := MessageType.all.idxOf t

lemma MessageType.all_code (t : MessageType) :
    MessageType.all[t.code]? = some t ∧ t.code < MessageType.all.length := by
  cases t <;> decide

/-- A message of a type that does not exist is not read. -/
def messageFormat : Format Message :=
  (Format.record 12 (Format.seq Format.nat (Format.seq Format.nat (Format.seq Format.nat
    (Format.seq Format.nat (Format.seq Format.nat (Format.seq Format.nat
    (Format.seq (Format.list entryFormat) (Format.seq Format.nat (Format.seq snapshotFormat
    (Format.seq Format.bool (Format.seq Format.nat (Format.blob Header.bin))))))))))))).mapSome
    (fun t => MessageType.all[t.1]?.map fun type =>
      { type := type
        toId := t.2.1
        fromId := t.2.2.1
        term := t.2.2.2.1
        logTerm := t.2.2.2.2.1
        index := t.2.2.2.2.2.1
        entries := t.2.2.2.2.2.2.1
        commit := t.2.2.2.2.2.2.2.1
        snapshot := t.2.2.2.2.2.2.2.2.1
        reject := t.2.2.2.2.2.2.2.2.2.1
        rejectHint := t.2.2.2.2.2.2.2.2.2.2.1
        context := t.2.2.2.2.2.2.2.2.2.2.2 })
    (fun m => (m.type.code, m.toId, m.fromId, m.term, m.logTerm, m.index, m.entries, m.commit,
      m.snapshot, m.reject, m.rejectHint, m.context))

/-- The numbers have 64 bits, and the lengths 32. -/
structure Message.Packable (m : Message) : Prop where
  ids : m.toId < 2 ^ 64 ∧ m.fromId < 2 ^ 64
  terms : m.term < 2 ^ 64 ∧ m.logTerm < 2 ^ 64
  indices : m.index < 2 ^ 64 ∧ m.commit < 2 ^ 64 ∧ m.rejectHint < 2 ^ 64
  entries : m.entries.length < 2 ^ 32 ∧ ∀ e ∈ m.entries, entryFormat.Fits e
  snapshot : snapshotFormat.Fits m.snapshot
  context : m.context.length < 2 ^ 32

/-- **A message within the widths of its fields is read back.** -/
theorem messageFormat_fits {m : Message} (h : m.Packable) : messageFormat.Fits m := by
  have hnat : ∀ n < 2 ^ 64, Header.uint.Fits n := fun n hn => Or.inr ⟨(0xcf, 8), by decide, hn⟩
  obtain ⟨hall, hcode⟩ := m.type.all_code
  have htype : m.type.code < 2 ^ 64 := hcode.trans (by decide)
  refine ⟨⟨Or.inl (by decide), hnat _ htype, hnat _ h.ids.1, hnat _ h.ids.2, hnat _ h.terms.1,
    hnat _ h.terms.2, hnat _ h.indices.1, ⟨?_, h.entries.2⟩, hnat _ h.indices.2.1, h.snapshot,
    trivial, hnat _ h.indices.2.2, ?_⟩, ?_⟩
  · exact Or.inr ⟨(0xdd, 4), by decide, h.entries.1⟩
  · exact Or.inr ⟨(0xc6, 4), by decide, h.context⟩
  · show MessageType.all[m.type.code]?.map _ = some m
    rw [hall]
    rfl

end RaftKv
