import Mathlib.Data.List.Sort
import RaftKv.Core.IdMap
import RaftKv.Raft.Config
import RaftKv.Raft.Progress
import RaftKv.Raft.RaftLog

/-!
# The protocol of one node

`Raft` (`raft/raft.cpp`): the roles of a node, elections, replication and membership.

* The source keeps the handler of the current role in a function object that is assigned together
  with `state_`; here the role itself selects the handler.
* `match_buf_` is a scratch buffer and is a local value here.
* Log lines are left out, but for the one in `restore_node` that dereferences a pointer.
* `unordered_map`s are visited in the order of their entries.
-/

namespace RaftKv

inductive RaftState where
  | follower | candidate | leader | preCandidate
  deriving DecidableEq, Repr

structure SoftState where
  lead : Nat
  state : RaftState
  deriving DecidableEq, Repr

inductive CampaignType where
  | preElection | election | transfer
  deriving DecidableEq, Repr

/-- The bytes of `"CampaignTransfer"`. -/
def kCampaignTransfer : Bytes :=
  [67, 97, 109, 112, 97, 105, 103, 110, 84, 114, 97, 110, 115, 102, 101, 114]

structure Raft where
  id : Nat
  term : Nat := 0
  vote : Nat := 0
  readStates : List ReadState := []
  raftLog : RaftLog
  maxMsgSize : Nat
  maxUncommittedSize : Nat
  maxInflight : Nat
  prs : IdMap Progress := ∅
  learnerPrs : IdMap Progress := ∅
  state : RaftState := RaftState.follower
  isLearner : Bool := false
  votes : IdMap Bool := ∅
  msgs : List Message := []
  lead : Nat := 0
  leadTransferee : Nat := 0
  pendingConfIndex : Nat := 0
  uncommittedSize : Nat := 0
  readOnly : ReadOnly
  electionElapsed : Nat := 0
  heartbeatElapsed : Nat := 0
  checkQuorum : Bool
  preVote : Bool
  heartbeatTimeout : Nat
  electionTimeout : Nat
  randomizedElectionTimeout : Nat := 0
  disableProposalForwarding : Bool
  randomDevice : RandomDevice

namespace Raft

/-! ## Membership and progress -/

def quorum (r : Raft) : Nat := r.prs.keys.length / 2 + 1

def softState (r : Raft) : SoftState := { lead := r.lead, state := r.state }

def hardState (r : Raft) : HardState :=
  { term := r.term, vote := r.vote, commit := r.raftLog.committed }

/-- Whether the node's own id is in the progress list. -/
def promotable (r : Raft) : Bool := decide (r.id ∈ r.prs)

def getProgress (r : Raft) (id : Nat) : Option Progress :=
  match r.prs.lookup id with
  | some p => some p
  | none => r.learnerPrs.lookup id

/-- Write through the pointer that `get_progress` returns. -/
def modifyProgress (r : Raft) (id : Nat) (f : Progress → Progress) : Raft :=
  { r with
    prs := r.prs.modify id f
    learnerPrs := if id ∈ r.prs then r.learnerPrs else r.learnerPrs.modify id f }

def setProgress (r : Raft) (id matched next : Nat) (isLearner : Bool) : Outcome Raft :=
  let progress := { Progress.new r.maxInflight with next := next, matched := matched }
  if ¬ isLearner then
    pure { r with
      learnerPrs := r.learnerPrs.erase id
      prs := r.prs.insert id progress }
  else if id ∈ r.prs then
    throw (Crash.fatal s!"{r.id} unexpected changing from voter to learner for {id}")
  else
    pure { r with learnerPrs := r.learnerPrs.insert id { progress with isLearner := true } }

def delProgress (r : Raft) (id : Nat) : Raft :=
  { r with prs := r.prs.erase id, learnerPrs := r.learnerPrs.erase id }

def nodes (r : Raft) : List Nat := r.prs.keys.insertionSort (· ≤ ·)

/-- The loop's end test compares with the end of the other map; both are the null iterator. -/
def learnerNodes (r : Raft) : List Nat := r.learnerPrs.keys.insertionSort (· ≤ ·)

/-- The order in which `for_each_progress` visits the peers. -/
def progressIds (r : Raft) : List Nat := r.prs.keys ++ r.learnerPrs.keys

/-! ## Messages -/

/-- Sign a message, stamp it with the term unless its type says otherwise, and queue it. -/
def send (r : Raft) (m : Message) : Outcome Raft :=
  let m := { m with fromId := r.id }
  if m.type.isCampaign then
    if m.term = 0 then throw (Crash.fatal "term should be set when sending")
    else pure { r with msgs := r.msgs ++ [m] }
  else if m.term ≠ 0 then
    throw (Crash.fatal s!"term should not be set when sending (was {m.term})")
  else
    pure { r with msgs := r.msgs ++ [if m.type.isForwarded then m else { m with term := r.term }] }

def sendTimeoutNow (r : Raft) (toId : Nat) : Outcome Raft :=
  r.send { type := MessageType.msgTimeoutNow, toId := toId }

/-- `maybe_send_append` when the peer's next entry is compacted away. -/
def sendSnapshot (r : Raft) (toId : Nat) (pr : Progress) : Outcome (Raft × Bool) :=
  if ¬ pr.recentActive then pure (r, false)
  else
    let snap := r.raftLog.snapshot
    if snap.isEmpty then throw (Crash.fatal "need non-empty snapshot")
    else do
      let r := r.modifyProgress toId fun p => p.becomeSnapshot snap.metadata.index
      let r ← r.send { type := MessageType.msgSnap, toId := toId, snapshot := snap }
      return (r, true)

/-- `maybe_send_append` when term and entries could be read. -/
def sendEntries (r : Raft) (toId : Nat) (pr : Progress) (logTerm : Nat) (entries : List Entry) :
    Outcome (Raft × Bool) := do
  let pr' ← pr.afterSending entries
  let r := r.modifyProgress toId fun _ => pr'
  let r ← r.send
    { type := MessageType.msgApp, toId := toId, index := pr.next - 1, logTerm := logTerm,
      entries := entries, commit := r.raftLog.committed }
  return (r, true)

/-- Send the peer the entries from its `next` on, or a snapshot.  The flag says whether a message
was sent; one without entries is only sent on demand. -/
def maybeSendAppend (r : Raft) (toId : Nat) (sendIfEmpty : Bool) : Outcome (Raft × Bool) :=
  match r.getProgress toId with
  | none => throw (Crash.nullDeref "pr->is_paused()")
  | some pr =>
      if pr.isPaused then pure (r, false)
      else do
        let statusTerm := r.raftLog.term (pr.next - 1)
        let statusEntries ← r.raftLog.entries pr.next r.maxMsgSize
        -- a call that fails leaves the batch empty
        let entries := statusEntries.toOption.getD []
        if entries = [] ∧ ¬ sendIfEmpty then return (r, false)
        match statusTerm, statusEntries with
        | Except.ok logTerm, Except.ok _ => r.sendEntries toId pr logTerm entries
        | _, _ => r.sendSnapshot toId pr

def sendAppend (r : Raft) (toId : Nat) : Outcome Raft := do
  let (r, _) ← r.maybeSendAppend toId true
  return r

/-- The loop `while (maybe_send_append(toId, false))`, cut off after `fuel` rounds. -/
def drainAppends (toId : Nat) : Nat → Raft → Outcome Raft
  | 0, _ => throw (Crash.diverges "while (maybe_send_append(msg->from, false))")
  | fuel + 1, r => do
      let (r, sent) ← r.maybeSendAppend toId false
      if sent then drainAppends toId fuel r else pure r

/-- The commit index of a heartbeat never exceeds what the peer is known to hold. -/
def sendHeartbeat (r : Raft) (toId : Nat) (ctx : Bytes) : Outcome Raft :=
  match r.getProgress toId with
  | none => throw (Crash.nullDeref "get_progress(to)->match")
  | some pr =>
      r.send
        { type := MessageType.msgHeartbeat, toId := toId,
          commit := min pr.matched r.raftLog.committed, context := ctx }

/-- Call `f` for every peer but the node itself. -/
def forEachPeer (r : Raft) (f : Raft → Nat → Outcome Raft) : Outcome Raft :=
  r.progressIds.foldlM (fun r id => if id = r.id then pure r else f r id) r

def bcastAppend (r : Raft) : Outcome Raft := r.forEachPeer sendAppend

def bcastHeartbeatWithCtx (r : Raft) (ctx : Bytes) : Outcome Raft :=
  r.forEachPeer fun r id => r.sendHeartbeat id ctx

def bcastHeartbeat (r : Raft) : Outcome Raft :=
  r.bcastHeartbeatWithCtx r.readOnly.lastPendingRequestCtx

/-! ## The log of a leader -/

/-- `match_buf_` after sorting. -/
def sortedMatches (r : Raft) : List Nat :=
  (r.prs.entries.map fun e => e.2.matched).insertionSort (· ≤ ·)

/-- Advance the commit index to the largest index that a quorum holds, if its entry is of the
current term.  Without any voter the source reads outside `match_buf_`. -/
def maybeCommit (r : Raft) : Outcome (Raft × Bool) :=
  if r.sortedMatches.length < r.quorum then throw (Crash.outOfRange "match_buf_")
  else
    match r.sortedMatches[r.sortedMatches.length - r.quorum]? with
    | none => throw (Crash.outOfRange "match_buf_")
    | some mci => do
        let (raftLog, changed) ← r.raftLog.maybeCommit mci r.term
        return ({ r with raftLog := raftLog }, changed)

/-- The 32-bit sum of the payload sizes. -/
def payloadSum (entries : List Entry) : Nat :=
  entries.foldl (fun s e => wrap32 (s + e.payloadSize)) 0

/-- `none` when the entries would exceed the quota of uncommitted bytes. -/
def increaseUncommittedSize (r : Raft) (entries : List Entry) : Option Raft :=
  let s := payloadSum entries
  if r.uncommittedSize > 0 ∧ r.uncommittedSize + s > r.maxUncommittedSize then none
  else some { r with uncommittedSize := r.uncommittedSize + s }

/-- Truncated subtraction is the source's saturation at 0. -/
def reduceUncommittedSize (r : Raft) (entries : List Entry) : Raft :=
  { r with uncommittedSize := r.uncommittedSize - payloadSum entries }

/-- The entries as they are put into the log: numbered from `index` on and stamped. -/
def stampEntries (term : Nat) : Nat → List Entry → List Entry
  | _, [] => []
  | index, e :: es =>
      { type := e.type, term := term, index := index, data := e.data } ::
        stampEntries term (index + 1) es

/-- The flag says whether the entries were taken. -/
def appendEntry (r : Raft) (entries : List Entry) : Outcome (Raft × Bool) :=
  let ents := stampEntries r.term (r.raftLog.lastIndex + 1) entries
  match r.increaseUncommittedSize ents with
  | none => pure (r, false)
  | some r => do
      let (raftLog, li) ← r.raftLog.append ents
      let r := { r with raftLog := raftLog }
      if r.getProgress r.id = none then throw (Crash.nullDeref "get_progress(id_)->maybe_update")
      let r := r.modifyProgress r.id fun p => (p.maybeUpdate li).1
      let (r, _) ← r.maybeCommit
      return (r, true)

/-! ## Roles -/

/-- The progress a peer starts a term with. -/
def resetProgress (r : Raft) (id : Nat) (p : Progress) : Progress :=
  { Progress.new r.maxInflight with
    next := r.raftLog.lastIndex + 1
    matched := if id = r.id then r.raftLog.lastIndex else 0
    isLearner := p.isLearner }

/-- The state after `reset`. -/
def resetTo (r : Raft) (term : Nat) : Raft :=
  { r with
    term := term
    vote := if r.term ≠ term then 0 else r.vote
    lead := 0
    electionElapsed := 0
    heartbeatElapsed := 0
    randomizedElectionTimeout := r.electionTimeout + r.randomDevice.gen.1
    randomDevice := r.randomDevice.gen.2
    leadTransferee := 0
    votes := ∅
    prs := r.prs.mapWithKey r.resetProgress
    learnerPrs := r.learnerPrs.mapWithKey r.resetProgress
    pendingConfIndex := 0
    uncommittedSize := 0
    readOnly := { r.readOnly with pendingReadIndex := ∅, readIndexQueue := [] } }

/-- Forget everything that belongs to a term; the vote only if the term changes. -/
def reset (r : Raft) (term : Nat) : Outcome Raft :=
  if ¬ (r.resetTo term).randomizedElectionTimeout ≤ 2 * r.electionTimeout then
    throw (Crash.assertion "randomized_election_timeout_ <= 2 * election_timeout_")
  else pure (r.resetTo term)

def abortLeaderTransfer (r : Raft) : Raft := { r with leadTransferee := 0 }

def becomeFollower (r : Raft) (term lead : Nat) : Outcome Raft := do
  let r ← r.reset term
  return { r with lead := lead, state := RaftState.follower }

def becomeCandidate (r : Raft) : Outcome Raft := do
  if r.state = RaftState.leader then
    throw (Crash.fatal "invalid transition [leader -> candidate]")
  let r ← r.reset (r.term + 1)
  return { r with vote := r.id, state := RaftState.candidate }

/-- Changes neither the term nor the vote. -/
def becomePreCandidate (r : Raft) : Outcome Raft :=
  if r.state = RaftState.leader then
    throw (Crash.fatal "invalid transition [leader -> pre-candidate]")
  else pure { r with votes := ∅, lead := 0, state := RaftState.preCandidate }

/-- A new leader appends an empty entry, which does not count towards the quota. -/
def becomeLeader (r : Raft) : Outcome Raft := do
  if r.state = RaftState.follower then
    throw (Crash.fatal "invalid transition [follower -> leader]")
  let r ← r.reset r.term
  let r := { r with lead := r.id, state := RaftState.leader }
  if r.id ∉ r.prs then throw (Crash.assertion "it != prs_.end()")
  let r := { r with
    prs := r.prs.modify r.id Progress.becomeReplicate
    pendingConfIndex := r.raftLog.lastIndex }
  let (r, ok) ← r.appendEntry [{}]
  if ¬ ok then throw (Crash.fatal "empty entry was dropped")
  return r.reduceUncommittedSize [{}]

/-! ## Elections -/

/-- How many votes are granted. -/
def grantedVotes (r : Raft) : Nat := r.votes.entries.countP fun e => e.2

/-- Record the first answer of a peer, and count the granted votes. -/
def poll (r : Raft) (id : Nat) (v : Bool) : Raft × Nat :=
  let r := { r with votes := if id ∈ r.votes then r.votes else r.votes.insert id v }
  (r, r.grantedVotes)

/-- The request that a campaign sends to the voter `toId`. -/
def voteRequest (voteMsg : MessageType) (term index logTerm : Nat) (context : Bytes)
    (toId : Nat) : Message :=
  { type := voteMsg, toId := toId, term := term, index := index, logTerm := logTerm,
    context := context }

/-- Ask every other voter for its vote. -/
def requestVotes (r : Raft) (voteMsg : MessageType) (term : Nat) (context : Bytes) :
    Outcome Raft :=
  r.prs.keys.foldlM (fun r toId =>
    if toId = r.id then pure r
    else do
      let logTerm ← r.raftLog.lastTerm
      r.send (voteRequest voteMsg term r.raftLog.lastIndex logTerm context toId)) r

/-- `campaign` for a real election, whether it is a leadership transfer or not. -/
def campaignElection (r : Raft) (context : Bytes) : Outcome Raft := do
  let r ← r.becomeCandidate
  let (r, granted) := r.poll r.id true
  if r.quorum = granted then r.becomeLeader
  else r.requestVotes MessageType.msgVote r.term context

/-- `campaign` with `kCampaignPreElection`; a node that is its own quorum goes on at once. -/
def campaignPreElection (r : Raft) : Outcome Raft := do
  let r ← r.becomePreCandidate
  let (r, granted) := r.poll r.id true
  if r.quorum = granted then r.campaignElection []
  else r.requestVotes MessageType.msgPreVote (r.term + 1) []

def campaign (r : Raft) : CampaignType → Outcome Raft
  | CampaignType.preElection => r.campaignPreElection
  | CampaignType.election => r.campaignElection []
  | CampaignType.transfer => r.campaignElection kCampaignTransfer

/-! ## Followers -/

/-- The answer to an append request or a snapshot. -/
def sendAppendResp (r : Raft) (toId index : Nat) : Outcome Raft :=
  r.send { type := MessageType.msgAppResp, toId := toId, index := index }

def handleAppendEntries (r : Raft) (m : Message) : Outcome Raft :=
  if m.index < r.raftLog.committed then r.sendAppendResp m.fromId r.raftLog.committed
  else do
    let (raftLog, appended) ← r.raftLog.maybeAppend m.index m.logTerm m.commit m.entries
    let r := { r with raftLog := raftLog }
    match appended with
    | some lastIndex => r.sendAppendResp m.fromId lastIndex
    | none =>
        r.send
          { type := MessageType.msgAppResp, toId := m.fromId, index := m.index, reject := true,
            rejectHint := r.raftLog.lastIndex }

/-- The answer carries no context: the source assigns the request's context to itself. -/
def handleHeartbeat (r : Raft) (m : Message) : Outcome Raft := do
  let raftLog ← r.raftLog.commitTo m.commit
  let r := { r with raftLog := raftLog }
  r.send { type := MessageType.msgHeartbeatResp, toId := m.fromId }

/-- One round of `restore_node`, with its log line: that one dereferences the progress of the node
itself, which need not be there yet. -/
def restoreOne (isLearner : Bool) (r : Raft) (node : Nat) : Outcome Raft := do
  let next := r.raftLog.lastIndex + 1
  let r := { r with isLearner := if node = r.id then isLearner else r.isLearner }
  let r ← r.setProgress node (if node = r.id then next - 1 else 0) next isLearner
  match r.getProgress r.id with
  | none => throw (Crash.nullDeref "get_progress(id_)->string()")
  | some _ => pure r

def restoreNode (r : Raft) (nodes : List Nat) (isLearner : Bool) : Outcome Raft :=
  nodes.foldlM (restoreOne isLearner) r

/-- The flag says whether the snapshot replaced the log. -/
def restore (r : Raft) (s : Snapshot) : Outcome (Raft × Bool) :=
  if s.metadata.index ≤ r.raftLog.committed then pure (r, false)
  else if r.raftLog.matchTerm s.metadata.index s.metadata.term then do
    -- the log already holds the snapshot's entries: only the commit index moves
    let raftLog ← r.raftLog.commitTo s.metadata.index
    return ({ r with raftLog := raftLog }, false)
  else if r.isLearner = false ∧ r.id ∈ s.metadata.confState.learners then
    -- a voter cannot become a learner
    pure (r, false)
  else do
    let r := { r with raftLog := r.raftLog.restore s, prs := ∅, learnerPrs := ∅ }
    let r ← r.restoreNode s.metadata.confState.nodes false
    let r ← r.restoreNode s.metadata.confState.learners true
    return (r, true)

/-- The answer carries index 0, whether the snapshot was restored or ignored: both branches of the
source store the index in the request. -/
def handleSnapshot (r : Raft) (m : Message) : Outcome Raft := do
  let (r, _restored) ← r.restore m.snapshot
  r.send { type := MessageType.msgAppResp, toId := m.fromId }

/-- The status of a proposal that is not taken. -/
def proposalDropped : Status := Status.invalidArgument "raft proposal dropped"

/-- Pass a message on to the leader. -/
def forwardToLead (r : Raft) (m : Message) : Outcome (Raft × Status) := do
  let r ← r.send { m with toId := r.lead }
  return (r, Status.ok)

def stepFollower (r : Raft) (m : Message) : Outcome (Raft × Status) :=
  match m.type with
  | MessageType.msgProp =>
      if r.lead = 0 then pure (r, proposalDropped)
      else if r.disableProposalForwarding then pure (r, proposalDropped)
      else r.forwardToLead m
  | MessageType.msgApp => do
      let r ← { r with electionElapsed := 0, lead := m.fromId }.handleAppendEntries m
      return (r, Status.ok)
  | MessageType.msgHeartbeat => do
      let r ← { r with electionElapsed := 0, lead := m.fromId }.handleHeartbeat m
      return (r, Status.ok)
  | MessageType.msgSnap => do
      let r ← { r with electionElapsed := 0, lead := m.fromId }.handleSnapshot m
      return (r, Status.ok)
  | MessageType.msgTransferLeader =>
      if r.lead = 0 then pure (r, Status.ok) else r.forwardToLead m
  | MessageType.msgTimeoutNow =>
      if r.promotable then do
        -- a transfer never uses the pre-vote
        let r ← r.campaign CampaignType.transfer
        return (r, Status.ok)
      else pure (r, Status.ok)
  | MessageType.msgReadIndex =>
      if r.lead = 0 then pure (r, Status.ok) else r.forwardToLead m
  | MessageType.msgReadIndexResp =>
      match m.entries with
      | [e] =>
          pure ({ r with
            readStates := r.readStates ++ [{ index := m.index, requestCtx := e.data }] },
            Status.ok)
      | _ => pure (r, Status.ok)
  | _ => pure (r, Status.ok)

/-! ## Candidates -/

/-- The answer to a vote or a pre-vote, in either candidate role. -/
def stepVoteResp (r : Raft) (m : Message) : Outcome Raft :=
  let (r, gr) := r.poll m.fromId (!m.reject)
  if r.quorum = gr then
    if r.state = RaftState.preCandidate then r.campaign CampaignType.election
    else if r.state ≠ RaftState.candidate then
      throw (Crash.assertion "state_ == RaftState::Candidate")
    else do
      let r ← r.becomeLeader
      r.bcastAppend
  else if r.quorum = r.votes.keys.length - gr then r.becomeFollower r.term 0
  else pure r

def stepCandidate (r : Raft) (m : Message) : Outcome (Raft × Status) :=
  match m.type with
  | MessageType.msgProp => pure (r, proposalDropped)
  | MessageType.msgApp => do
      let r ← r.becomeFollower m.term m.fromId
      let r ← r.handleAppendEntries m
      return (r, Status.ok)
  | MessageType.msgHeartbeat => do
      let r ← r.becomeFollower m.term m.fromId
      let r ← r.handleHeartbeat m
      return (r, Status.ok)
  | MessageType.msgSnap => do
      let r ← r.becomeFollower m.term m.fromId
      let r ← r.handleSnapshot m
      return (r, Status.ok)
  | MessageType.msgPreVoteResp | MessageType.msgVoteResp => do
      let r ← r.stepVoteResp m
      return (r, Status.ok)
  | _ => pure (r, Status.ok)

/-! ## Leaders -/

/-- Only one configuration change may be unapplied: the others become empty entries.  `i` counts
the entries of the proposal. -/
def admitConfChanges (lastIndex applied : Nat) : Nat → Nat → List Entry → List Entry × Nat
  | _, pendingConfIndex, [] => ([], pendingConfIndex)
  | i, pendingConfIndex, e :: es =>
      let (e, pendingConfIndex) :=
        if e.type = EntryType.entryConfChange then
          if pendingConfIndex > applied then (({} : Entry), pendingConfIndex)
          else (e, lastIndex + i + 1)
        else (e, pendingConfIndex)
      let (es, pendingConfIndex) := admitConfChanges lastIndex applied (i + 1) pendingConfIndex es
      (e :: es, pendingConfIndex)

def stepLeaderProp (r : Raft) (m : Message) : Outcome (Raft × Status) :=
  if m.entries = [] then throw (Crash.fatal s!"{r.id} stepped empty MsgProp")
  else if r.id ∉ r.prs then pure (r, proposalDropped)
  else if r.leadTransferee ≠ 0 then pure (r, proposalDropped)
  else do
    let (entries, pendingConfIndex) :=
      admitConfChanges r.raftLog.lastIndex r.raftLog.applied 0 r.pendingConfIndex m.entries
    let (r, ok) ← { r with pendingConfIndex := pendingConfIndex }.appendEntry entries
    if ¬ ok then return (r, proposalDropped)
    let r ← r.bcastAppend
    return (r, Status.ok)

/-- Answer a read request: locally, or to the node that sent it. -/
def respondRead (r : Raft) (req : Message) (index : Nat) : Outcome Raft :=
  if req.fromId = 0 ∨ req.fromId = r.id then do
    let ctx ← req.readContext
    return { r with readStates := r.readStates ++ [{ index := index, requestCtx := ctx }] }
  else
    r.send
      { type := MessageType.msgReadIndexResp, toId := req.fromId, index := index,
        entries := req.entries }

def stepLeaderReadIndex (r : Raft) (m : Message) : Outcome Raft :=
  if r.quorum > 1 then
    if (r.raftLog.term r.raftLog.committed).toOption.getD 0 ≠ r.term then pure r
    else
      match r.readOnly.option with
      | ReadOnlyOption.readOnlySafe => do
          let readOnly ← r.readOnly.addRequest r.raftLog.committed m
          let ctx ← m.readContext
          { r with readOnly := readOnly }.bcastHeartbeatWithCtx ctx
      | ReadOnlyOption.readOnlyLeaseBased => r.respondRead m r.raftLog.committed
  else do
    let ctx ← m.readContext
    return { r with
      readStates := r.readStates ++ [{ index := r.raftLog.committed, requestCtx := ctx }] }

/-- A rejected append: go back to an earlier index, unless the rejection is a stale one. -/
def stepRejected (r : Raft) (m : Message) (pr : Progress) : Outcome Raft :=
  let (pr, decreased) := pr.maybeDecreasesTo m.index m.rejectHint
  if decreased then
    let pr := if pr.state = ProgressState.replicate then pr.becomeProbe else pr
    (r.modifyProgress m.fromId fun _ => pr).sendAppend m.fromId
  else pure (r.modifyProgress m.fromId fun _ => pr)

/-- Tell everybody about a new commit index, or at least a peer that was paused before. -/
def sendAfterAck (r : Raft) (id : Nat) (committed oldPaused : Bool) : Outcome Raft :=
  if committed then r.bcastAppend else if oldPaused then r.sendAppend id else pure r

/-- Finish a leadership transfer once its target is up to date. -/
def finishTransfer (r : Raft) (id matched : Nat) : Outcome Raft :=
  if id = r.leadTransferee ∧ matched = r.raftLog.lastIndex then r.sendTimeoutNow id else pure r

/-- An acknowledged append. -/
def stepAcknowledged (r : Raft) (m : Message) (pr : Progress) : Outcome Raft :=
  let oldPaused := pr.isPaused
  let (pr, updated) := pr.maybeUpdate m.index
  if updated then do
    let pr ← pr.acknowledged m.index
    let (r, committed) ← (r.modifyProgress m.fromId fun _ => pr).maybeCommit
    let r ← r.sendAfterAck m.fromId committed oldPaused
    -- a round that sends moves `next` forward or pauses, so the bound is never the limit
    let r ← drainAppends m.fromId (r.raftLog.lastIndex + 2) r
    r.finishTransfer m.fromId pr.matched
  else pure (r.modifyProgress m.fromId fun _ => pr)

/-- `MsgAppResp`; `pr` is the progress of the node that answers. -/
def stepAppResp (r : Raft) (m : Message) (pr : Progress) : Outcome Raft :=
  if m.reject then r.stepRejected m { pr with recentActive := true }
  else r.stepAcknowledged m { pr with recentActive := true }

/-- Release the read requests that a quorum has confirmed with this answer. -/
def releaseReads (r : Raft) (m : Message) : Outcome Raft :=
  if r.readOnly.option ≠ ReadOnlyOption.readOnlySafe ∨ m.context = [] then pure r
  else
    let (readOnly, ackCount) := r.readOnly.recvAck m
    if ackCount < r.quorum then pure { r with readOnly := readOnly }
    else do
      let (readOnly, rss) ← readOnly.advance m
      rss.foldlM (fun r rs => r.respondRead rs.req rs.index) { r with readOnly := readOnly }

def sendIfBehind (r : Raft) (id matched : Nat) : Outcome Raft :=
  if matched < r.raftLog.lastIndex then r.sendAppend id else pure r

def stepHeartbeatResp (r : Raft) (m : Message) (pr : Progress) : Outcome Raft := do
  let pr ← pr.heartbeatAnswered
  let r ← (r.modifyProgress m.fromId fun _ => pr).sendIfBehind m.fromId pr.matched
  r.releaseReads m

def stepSnapStatus (r : Raft) (m : Message) (pr : Progress) : Raft :=
  if pr.state ≠ ProgressState.snapshot then r
  else
    let pr := if m.reject then pr.snapshotFailure.becomeProbe else pr.becomeProbe
    -- the next append waits for the peer's answer, or for a heartbeat
    r.modifyProgress m.fromId fun _ => pr.setPause

def stepUnreachable (r : Raft) (m : Message) (pr : Progress) : Raft :=
  if pr.state = ProgressState.replicate then r.modifyProgress m.fromId fun _ => pr.becomeProbe
  else r

def stepTransferLeader (r : Raft) (m : Message) (pr : Progress) : Outcome Raft :=
  if pr.isLearner then pure r
  else if r.leadTransferee ≠ 0 ∧ r.leadTransferee = m.fromId then pure r
  else
    -- a transfer to another node is given up; where there is none, this changes nothing
    let r := r.abortLeaderTransfer
    if m.fromId = r.id then pure r
    else
      let r := { r with electionElapsed := 0, leadTransferee := m.fromId }
      if pr.matched = r.raftLog.lastIndex then r.sendTimeoutNow m.fromId
      else r.sendAppend m.fromId

def checkQuorumActive (r : Raft) : Bool :=
  let active (e : Sigma fun _ : Nat => Progress) : Bool :=
    decide (e.1 = r.id) || (e.2.recentActive && !e.2.isLearner)
  decide (r.prs.entries.countP active + r.learnerPrs.entries.countP active ≥ r.quorum)

/-- The messages that concern the progress of their sender. -/
def stepLeaderPeer (r : Raft) (m : Message) (pr : Progress) : Outcome Raft :=
  match m.type with
  | MessageType.msgAppResp => r.stepAppResp m pr
  | MessageType.msgHeartbeatResp => r.stepHeartbeatResp m pr
  | MessageType.msgSnapStatus => pure (r.stepSnapStatus m pr)
  | MessageType.msgUnreachable => pure (r.stepUnreachable m pr)
  | MessageType.msgTransferLeader => r.stepTransferLeader m pr
  | _ => pure r

def stepLeader (r : Raft) (m : Message) : Outcome (Raft × Status) :=
  match m.type with
  | MessageType.msgBeat => do
      let r ← r.bcastHeartbeat
      return (r, Status.ok)
  | MessageType.msgCheckQuorum =>
      if r.checkQuorumActive then pure (r, Status.ok)
      else do
        let r ← r.becomeFollower r.term 0
        return (r, Status.ok)
  | MessageType.msgProp => r.stepLeaderProp m
  | MessageType.msgReadIndex => do
      let r ← r.stepLeaderReadIndex m
      return (r, Status.ok)
  | _ =>
      match r.getProgress m.fromId with
      | none => pure (r, Status.ok)
      | some pr => do
          let r ← r.stepLeaderPeer m pr
          return (r, Status.ok)

/-! ## Every message -/

def stepRole (r : Raft) (m : Message) : Outcome (Raft × Status) :=
  match r.state with
  | RaftState.follower => r.stepFollower m
  | RaftState.candidate | RaftState.preCandidate => r.stepCandidate m
  | RaftState.leader => r.stepLeader m

/-- Whether a vote request is to be ignored because a leader was heard of lately. -/
def inLease (r : Raft) (m : Message) : Bool :=
  (m.type == MessageType.msgVote || m.type == MessageType.msgPreVote) &&
  m.context != kCampaignTransfer &&
  (r.checkQuorum && r.lead != 0 && decide (r.electionElapsed < r.electionTimeout))

/-- A message of a higher term, outside the lease. -/
def stepHigherTerm (r : Raft) (m : Message) : Outcome Raft :=
  match m.type with
  | MessageType.msgPreVote => pure r
  | MessageType.msgPreVoteResp =>
      -- a granted pre-vote carries the term the node would campaign for
      if m.reject then r.becomeFollower m.term 0 else pure r
  | MessageType.msgApp | MessageType.msgHeartbeat | MessageType.msgSnap =>
      r.becomeFollower m.term m.fromId
  | _ => r.becomeFollower m.term 0

/-- A message of a lower term. -/
def stepLowerTerm (r : Raft) (m : Message) : Outcome Raft :=
  if (r.checkQuorum ∨ r.preVote) ∧
      (m.type = MessageType.msgHeartbeat ∨ m.type = MessageType.msgApp) then
    -- tell the sender that it is out of date
    r.send { type := MessageType.msgAppResp, toId := m.fromId }
  else if m.type = MessageType.msgPreVote then
    r.send
      { type := MessageType.msgPreVoteResp, toId := m.fromId, reject := true, term := r.term }
  else pure r

/-- Compare terms.  The flag says whether the message is to be handled any further. -/
def checkTerm (r : Raft) (m : Message) : Outcome (Raft × Bool) :=
  if m.term = 0 then pure (r, true)
  else if m.term > r.term then
    if r.inLease m then pure (r, false)
    else do
      let r ← r.stepHigherTerm m
      return (r, true)
  else if m.term < r.term then do
    let r ← r.stepLowerTerm m
    return (r, false)
  else pure (r, true)

def numOfPendingConf (entries : List Entry) : Nat :=
  entries.countP fun e => e.type = EntryType.entryConfChange

/-- `MsgHup`: campaign, unless a configuration change is committed but not applied. -/
def stepHup (r : Raft) : Outcome Raft :=
  if r.state = RaftState.leader then pure r
  else do
    match ← r.raftLog.slice (r.raftLog.applied + 1) (r.raftLog.committed + 1) RaftLog.unlimited with
    | Except.error status =>
        throw (Crash.fatal s!"unexpected error getting unapplied entries ({status.toText})")
    | Except.ok entries =>
        if numOfPendingConf entries > 0 ∧ r.raftLog.committed > r.raftLog.applied then pure r
        else r.campaign (if r.preVote then CampaignType.preElection else CampaignType.election)

/-- Whether the node is free to vote as asked. -/
def canVote (r : Raft) (m : Message) : Bool :=
  r.vote == m.fromId || (r.vote == 0 && r.lead == 0) ||
  (m.type == MessageType.msgPreVote && decide (m.term > r.term))

/-- Whether it does, which is the case when the candidate's log is up to date. -/
def grantsVote (r : Raft) (m : Message) : Outcome Bool :=
  if r.canVote m then r.raftLog.isUpToDate m.index m.logTerm else pure false

/-- `MsgVote` and `MsgPreVote`.  A granting answer carries the term of the request, which for a
pre-vote is not the node's own. -/
def stepVote (r : Raft) (m : Message) : Outcome Raft :=
  if r.isLearner then pure r
  else do
    let granted ← r.grantsVote m
    let respType ← voteRespMsgType m.type
    if granted then
      let r ← r.send { type := respType, toId := m.fromId, term := m.term }
      -- only real votes are recorded
      if m.type = MessageType.msgVote then
        return { r with electionElapsed := 0, vote := m.fromId }
      else return r
    else r.send { type := respType, toId := m.fromId, term := r.term, reject := true }

def step (r : Raft) (m : Message) : Outcome (Raft × Status) := do
  let (r, continues) ← r.checkTerm m
  if ¬ continues then return (r, Status.ok)
  match m.type with
  | MessageType.msgHup => do
      let r ← r.stepHup
      return (r, Status.ok)
  | MessageType.msgVote | MessageType.msgPreVote => do
      let r ← r.stepVote m
      return (r, Status.ok)
  | _ => r.stepRole m

/-! ## The clock -/

def pastElectionTimeout (r : Raft) : Bool :=
  decide (r.electionElapsed ≥ r.randomizedElectionTimeout)

def tickElection (r : Raft) : Outcome Raft :=
  let r := { r with electionElapsed := r.electionElapsed + 1 }
  if r.promotable ∧ r.pastElectionTimeout then do
    let (r, _) ← { r with electionElapsed := 0 }.step
      { type := MessageType.msgHup, fromId := r.id }
    return r
  else pure r

def checkQuorumTick (r : Raft) : Outcome Raft :=
  if r.checkQuorum then do
    let (r, _) ← r.step { type := MessageType.msgCheckQuorum, fromId := r.id }
    return r
  else pure r

/-- An election timeout has passed for a leader: check the quorum, and give up a transfer. -/
def electionTimeoutPassed (r : Raft) : Outcome Raft := do
  let r ← r.checkQuorumTick
  return if r.state = RaftState.leader ∧ r.leadTransferee ≠ 0 then r.abortLeaderTransfer else r

def heartbeatTick (r : Raft) : Outcome Raft :=
  if r.state ≠ RaftState.leader then pure r
  else if r.heartbeatElapsed ≥ r.heartbeatTimeout then do
    let (r, _) ← { r with heartbeatElapsed := 0 }.step
      { type := MessageType.msgBeat, fromId := r.id }
    return r
  else pure r

def tickHeartbeat (r : Raft) : Outcome Raft :=
  let r := { r with
    heartbeatElapsed := r.heartbeatElapsed + 1
    electionElapsed := r.electionElapsed + 1 }
  if r.electionElapsed ≥ r.electionTimeout then do
    let r ← { r with electionElapsed := 0 }.electionTimeoutPassed
    r.heartbeatTick
  else r.heartbeatTick

def tick (r : Raft) : Outcome Raft :=
  if r.state = RaftState.leader then r.tickHeartbeat else r.tickElection

/-! ## Start-up and configuration changes -/

def loadState (r : Raft) (state : HardState) : Outcome Raft :=
  if state.commit < r.raftLog.committed ∨ state.commit > r.raftLog.lastIndex then
    throw (Crash.fatal (s!"{r.id} state.commit {state.commit} is out of range " ++
      s!"[{r.raftLog.committed}, {r.raftLog.lastIndex}]"))
  else
    pure { r with
      raftLog := { r.raftLog with committed := state.commit }
      term := state.term
      vote := state.vote }

/-- Load the stored hard state, if there is one. -/
def restoreState (r : Raft) (state : HardState) : Outcome Raft :=
  if state.isEmptyState then pure r else r.loadState state

def initLearner (r : Raft) (learner : Nat) : Outcome Raft :=
  if learner ∈ r.prs then
    throw (Crash.fatal s!"node {learner} is in both learner and peer list")
  else
    let p := { Progress.new r.maxInflight with next := 1, isLearner := true }
    pure { r with
      learnerPrs := r.learnerPrs.insert learner p
      isLearner := r.isLearner || decide (r.id = learner) }

/-- The constructor. -/
def init (c : Config) : Outcome Raft := do
  let (hs, cs) := c.storage.initialState
  let fromSnapshot := cs.nodes ≠ [] ∨ cs.learners ≠ []
  if fromSnapshot ∧ (c.peers ≠ [] ∨ c.learners ≠ []) then
    throw (Crash.fatal
      "cannot specify both newRaft(peers, learners) and ConfState.(Nodes, Learners)")
  let peers := if fromSnapshot then cs.nodes else c.peers
  let learners := if fromSnapshot then cs.learners else c.learners
  let p := { Progress.new c.maxInflightMsgs with next := 1 }
  let r : Raft :=
    { id := c.id
      raftLog := RaftLog.init c.storage c.maxCommittedSizePerReady
      maxMsgSize := c.maxSizePerMsg
      maxUncommittedSize := c.maxUncommittedEntriesSize
      maxInflight := c.maxInflightMsgs
      prs := peers.foldl (fun prs peer => prs.insert peer p) ∅
      readOnly := { option := c.readOnlyOption }
      checkQuorum := c.checkQuorum
      preVote := c.preVote
      heartbeatTimeout := c.heartbeatTick
      electionTimeout := c.electionTick
      disableProposalForwarding := c.disableProposalForwarding
      randomDevice := { max := c.electionTick, draws := c.draws } }
  let r ← learners.foldlM initLearner r
  let r ← r.restoreState hs
  let r := if c.applied > 0 then { r with raftLog := r.raftLog.appliedTo c.applied } else r
  r.becomeFollower r.term 0

def addNodeOrLearner (r : Raft) (id : Nat) (isLearner : Bool) : Outcome Raft := do
  match r.getProgress id with
  | none =>
      let r ← r.setProgress id 0 (r.raftLog.lastIndex + 1) isLearner
      added r
  | some pr =>
      if isLearner ∧ ¬ pr.isLearner then return r
      else if isLearner = pr.isLearner then
        -- the bootstrap entries are applied twice
        return r
      else
        added { r with
          learnerPrs := r.learnerPrs.erase id
          prs := r.prs.insert id { pr with isLearner := false } }
where
  /-- What both ways of entering a node end with. -/
  added (r : Raft) : Outcome Raft :=
    let r := { r with isLearner := if r.id = id then isLearner else r.isLearner }
    match r.getProgress id with
    | none => throw (Crash.nullDeref "get_progress(id)->recent_active")
    | some _ => pure (r.modifyProgress id fun p => { p with recentActive := true })

def addNode (r : Raft) (id : Nat) : Outcome Raft := r.addNodeOrLearner id false

def removeNode (r : Raft) (id : Nat) : Outcome Raft := do
  let r := r.delProgress id
  if r.prs.entries = [] ∧ r.learnerPrs.entries = [] then return r
  let (r, committed) ← r.maybeCommit
  let r ← r.sendAfterAck id committed false
  return if r.state = RaftState.leader ∧ r.leadTransferee = id then r.abortLeaderTransfer else r

end Raft

end RaftKv
