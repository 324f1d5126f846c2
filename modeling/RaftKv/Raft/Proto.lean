import Mathlib.Algebra.Group.Nat.Defs
import RaftKv.Core.Outcome

/-!
# The protocol's records

The records of `raft/proto.h` with their defaults, the status codes of `common/status.h`, and
the size estimates of `raft/proto.cpp` that decide where a batch of entries is cut.

Indexes, terms and node ids are unsigned 64-bit counters in the source and natural numbers
here: no statement depends on one of them reaching `2 ^ 64`.  The 32-bit sums of payload sizes do
wrap, and are reduced modulo `2 ^ 32` where the source adds them up.
-/

namespace RaftKv

/-- A byte string, whether the source keeps it in a `std::string` or in a vector. -/
abbrev Bytes := List UInt8

/-- The result codes of `kv::Status`, each with its message. -/
inductive Status where
  | ok
  | notFound (msg : String)
  | notSupported (msg : String)
  | invalidArgument (msg : String)
  | ioError (msg : String)
  deriving DecidableEq, Repr

def Status.isOk : Status → Bool
  | Status.ok => true
  | _ => false

/-- The code's name followed by the message; the trailing colon goes when there is no message. -/
def Status.toText : Status → String
  | Status.ok => "ok"
  | Status.notFound m => if m = "" then "not found" else "not found:" ++ m
  | Status.notSupported m => if m = "" then "not supported" else "not supported:" ++ m
  | Status.invalidArgument m => if m = "" then "invalid argument" else "invalid argument:" ++ m
  | Status.ioError m => if m = "" then "io error" else "io error:" ++ m

inductive MessageType where
  | msgHup | msgBeat | msgProp | msgApp | msgAppResp | msgVote | msgVoteResp | msgSnap
  | msgHeartbeat | msgHeartbeatResp | msgUnreachable | msgSnapStatus | msgCheckQuorum
  | msgTransferLeader | msgTimeoutNow | msgReadIndex | msgReadIndexResp | msgPreVote
  | msgPreVoteResp
  deriving DecidableEq, Repr

/-- `EntryType` is a byte in the source; `RawNode::read_index` stores a message type in it, which
is neither of the two declared kinds. -/
inductive EntryType where
  | entryNormal
  | entryConfChange
  | unknown (code : UInt8)
  deriving DecidableEq, Repr

structure Entry where
  type : EntryType := EntryType.entryNormal
  term : Nat := 0
  index : Nat := 0
  data : Bytes := []
  deriving DecidableEq, Repr

instance : Inhabited Entry := ⟨{}⟩

structure ConfState where
  nodes : List Nat := []
  learners : List Nat := []
  deriving DecidableEq, Repr

structure SnapshotMetadata where
  confState : ConfState := {}
  index : Nat := 0
  term : Nat := 0
  deriving DecidableEq, Repr

structure Snapshot where
  data : Bytes := []
  metadata : SnapshotMetadata := {}
  deriving DecidableEq, Repr

/-- A snapshot is empty when it names no index; its data is not looked at. -/
def Snapshot.isEmpty (s : Snapshot) : Bool := s.metadata.index == 0

/-- `from` and `to` are reserved words here, hence `fromId` and `toId`. -/
structure Message where
  type : MessageType := MessageType.msgHup
  toId : Nat := 0
  fromId : Nat := 0
  term : Nat := 0
  logTerm : Nat := 0
  index : Nat := 0
  entries : List Entry := []
  commit : Nat := 0
  snapshot : Snapshot := {}
  reject : Bool := false
  rejectHint : Nat := 0
  context : Bytes := []
  deriving DecidableEq, Repr

/-- Messages a node may only step itself. -/
def Message.isLocalMsg (m : Message) : Bool :=
  m.type == MessageType.msgHup || m.type == MessageType.msgBeat ||
  m.type == MessageType.msgUnreachable || m.type == MessageType.msgSnapStatus ||
  m.type == MessageType.msgCheckQuorum

def Message.isResponseMsg (m : Message) : Bool :=
  m.type == MessageType.msgAppResp || m.type == MessageType.msgVoteResp ||
  m.type == MessageType.msgHeartbeatResp || m.type == MessageType.msgUnreachable ||
  m.type == MessageType.msgPreVoteResp

structure HardState where
  term : Nat := 0
  vote : Nat := 0
  commit : Nat := 0
  deriving DecidableEq, Repr

/-- The messages of an election, which carry the term their sender puts into them. -/
def MessageType.isCampaign : MessageType → Bool
  | msgVote | msgVoteResp | msgPreVote | msgPreVoteResp => true
  | _ => false

/-- The messages that are forwarded to the leader, which carry no term. -/
def MessageType.isForwarded : MessageType → Bool
  | msgProp | msgReadIndex => true
  | _ => false

def HardState.isEmptyState (hs : HardState) : Bool :=
  hs.term == 0 && hs.vote == 0 && hs.commit == 0

inductive ConfChangeType where
  | addNode | removeNode | updateNode | addLearnerNode
  /-- Any other value of the byte; applying it is fatal. -/
  | unexpected (code : UInt8)
  deriving DecidableEq, Repr

structure ConfChange where
  id : Nat := 0
  confChangeType : ConfChangeType := ConfChangeType.addNode
  nodeId : Nat := 0
  context : Bytes := []
  deriving DecidableEq, Repr

/-! ## Sizes

`serialize_size` estimates the packed size of an entry; `entry_limit_size` cuts a batch by it.
-/

/-- Reduction to 32 bits, as the source's `uint32_t` sums wrap. -/
def wrap32 (n : Nat) : Nat := n % 2 ^ 32

def Entry.payloadSize (e : Entry) : Nat := wrap32 e.data.length

def u8SerializeSize (d : Nat) : Nat := if d < 2 ^ 7 then 1 else 2

def u64SerializeSize (d : Nat) : Nat :=
  if d < 2 ^ 8 then
    if d < 2 ^ 7 then 1 else 2
  else if d < 2 ^ 16 then 3
  else if d < 2 ^ 32 then 5
  else 9

def dataSerializeSize (len : Nat) : Nat :=
  if len ≤ 2 ^ 8 - 1 then wrap32 (2 + len)
  else if len ≤ 2 ^ 16 - 1 then wrap32 (3 + len)
  else wrap32 (5 + len)

def EntryType.code : EntryType → Nat
  | EntryType.entryNormal => 0
  | EntryType.entryConfChange => 1
  | EntryType.unknown c => c.toNat

def Entry.serializeSize (e : Entry) : Nat :=
  wrap32 (1 + u8SerializeSize e.type.code + u64SerializeSize e.term + u64SerializeSize e.index +
    dataSerializeSize e.payloadSize)

/-- The loop of `entry_limit_size`: `size` is what the entries kept so far add up to. -/
def limitAfter (maxSize size : Nat) : List Entry → List Entry
  | [] => []
  | e :: es =>
      if size + e.serializeSize > maxSize then []
      else e :: limitAfter maxSize (size + e.serializeSize) es

/-- The longest prefix within `maxSize`, but never an empty one of a non-empty batch. -/
def entryLimitSize (maxSize : Nat) : List Entry → List Entry
  | [] => []
  | e :: es => e :: limitAfter maxSize e.serializeSize es

theorem limitAfter_isPrefix (maxSize : Nat) :
    ∀ (size : Nat) (es : List Entry), limitAfter maxSize size es <+: es
  | _, [] => List.prefix_refl _
  | size, e :: es => by
      rw [limitAfter]
      split
      · exact List.nil_prefix
      · exact (List.prefix_cons_inj e).mpr (limitAfter_isPrefix maxSize _ es)

theorem entryLimitSize_isPrefix (maxSize : Nat) (es : List Entry) :
    entryLimitSize maxSize es <+: es := by
  cases es with
  | nil => exact List.prefix_refl _
  | cons e es => exact (List.prefix_cons_inj e).mpr (limitAfter_isPrefix maxSize _ es)

/-- Cutting a batch never empties it. -/
theorem entryLimitSize_eq_nil {maxSize : Nat} {es : List Entry} :
    entryLimitSize maxSize es = [] ↔ es = [] := by
  cases es <;> simp [entryLimitSize]

/-- `vote_resp_msg_type`: the answer to a vote or pre-vote request. -/
def voteRespMsgType : MessageType → Outcome MessageType
  | MessageType.msgVote => pure MessageType.msgVoteResp
  | MessageType.msgPreVote => pure MessageType.msgPreVoteResp
  | _ => throw (Crash.fatal "not a vote message")

/-- `is_must_sync`: term, vote and entries must be durable before messages go out; a commit index
need not be. -/
def isMustSync (st prevst : HardState) (entsnum : Nat) : Bool :=
  entsnum != 0 || st.vote != prevst.vote || st.term != prevst.term

end RaftKv
