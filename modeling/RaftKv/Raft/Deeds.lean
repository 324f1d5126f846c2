import Mathlib.Logic.Relation
import RaftKv.Raft.Inversion

/-!
# What a node does, deed by deed

Whatever a node is called with, what happens to its messages, its peers, its votes, its role and its
log is a chain of single deeds.

* `Posted` — every message but those that `maybe_send_append` queues.
* `Progress.Answered` — what an answer does to the progress of the node it comes from.
* `Deed` — **every single deed**; all else a call does concerns clocks and reads.
* `Regrouped` — what a configuration change does to the members.
* `Asides` — a chain of deeds that leaves role, term, vote, log and quotas alone, as sending does.
-/

namespace RaftKv

/-- How an answer changes the progress `p` of the node it comes from. -/
inductive Progress.Answered (m : Message) (p : Progress) : Progress → Prop
  | acknowledged (ht : m.type = MessageType.msgAppResp) (hr : m.reject = false) {p' : Progress}
      (hnews : ({ p with recentActive := true }.maybeUpdate m.index).2 = true)
      (h : ({ p with recentActive := true }.maybeUpdate m.index).1.acknowledged m.index =
        Except.ok p') : Answered m p p'
  | known (ht : m.type = MessageType.msgAppResp) (hr : m.reject = false) :
      Answered m p ({ p with recentActive := true }.maybeUpdate m.index).1
  | rejected (ht : m.type = MessageType.msgAppResp) (hr : m.reject = true) :
      Answered m p ({ p with recentActive := true }.maybeDecreasesTo m.index m.rejectHint).1
  /-- A rejection that was not expected while replicating. -/
  | fellBack (ht : m.type = MessageType.msgAppResp) (hr : m.reject = true)
      (hs : p.state = ProgressState.replicate) :
      Answered m p
        ({ p with recentActive := true }.maybeDecreasesTo m.index m.rejectHint).1.becomeProbe
  | alive (ht : m.type = MessageType.msgHeartbeatResp) {p' : Progress}
      (h : p.heartbeatAnswered = Except.ok p') : Answered m p p'
  | snapshotSent (ht : m.type = MessageType.msgSnapStatus) (hs : p.state = ProgressState.snapshot) :
      Answered m p p.becomeProbe.setPause
  | snapshotLost (ht : m.type = MessageType.msgSnapStatus) (hs : p.state = ProgressState.snapshot) :
      Answered m p p.snapshotFailure.becomeProbe.setPause
  | unreachable (ht : m.type = MessageType.msgUnreachable)
      (hs : p.state = ProgressState.replicate) : Answered m p p.becomeProbe

namespace Raft

/-- The fields that no message, peer, clock or read concerns. -/
def ledger (r : Raft) :=
  (r.id, r.term, r.vote, r.state, r.raftLog, r.pendingConfIndex, r.uncommittedSize,
    r.maxUncommittedSize)

/-- The fields that no clock and no read concerns. -/
def dossier (r : Raft) :=
  (r.ledger, r.prs, r.learnerPrs, r.votes, r.msgs, r.leadTransferee, r.maxInflight, r.maxMsgSize,
    r.preVote)

/-- What a leader makes of a proposal, and of the index of the pending configuration change. -/
def admitted (r : Raft) (es : List Entry) : List Entry × Nat :=
  admitConfChanges r.raftLog.lastIndex r.raftLog.applied 0 r.pendingConfIndex es

/-- The entries that a leader appends for a proposal. -/
def stamped (r : Raft) (es : List Entry) : List Entry :=
  stampEntries r.term (r.raftLog.lastIndex + 1) (r.admitted es).1

/-- The message passes the comparison of terms: it is of the node's term, or a pre-vote ahead of
it. -/
def Timely (r : Raft) (m : Message) : Prop :=
  (m.term = 0 ∨ r.term ≤ m.term) ∧
    (m.type = MessageType.msgPreVote ∨ m.type = MessageType.msgPreVoteResp ∨ m.term = 0 ∨
      m.term = r.term)

/-- The request that `maybe_send_append` makes of a batch. -/
def appendRequest (r : Raft) (toId : Nat) (pr : Progress) (logTerm : Nat) (es : List Entry) :
    Message :=
  { type := MessageType.msgApp, toId := toId, index := pr.next - 1, logTerm := logTerm,
    entries := es, commit := r.raftLog.committed }

/-- The messages that a call with the message `m` may queue, before they are signed. -/
inductive Posted (m : Message) (r : Raft) : Message → Prop
  | heartbeat {toId : Nat} {pr : Progress} (hpr : r.getProgress toId = some pr) (ctx : Bytes) :
      Posted m r
        { type := MessageType.msgHeartbeat, toId := toId,
          commit := min pr.matched r.raftLog.committed, context := ctx }
  | heartbeatResp (ht : m.type = MessageType.msgHeartbeat) :
      Posted m r { type := MessageType.msgHeartbeatResp, toId := m.fromId }
  /-- An append request that ends before what is committed here. -/
  | behind (ht : m.type = MessageType.msgApp) (hterm : m.term = r.term)
      (h : m.index < r.raftLog.committed) :
      Posted m r
        { type := MessageType.msgAppResp, toId := m.fromId, index := r.raftLog.committed }
  | accepted (ht : m.type = MessageType.msgApp) (hterm : m.term = r.term) :
      Posted m r
        { type := MessageType.msgAppResp, toId := m.fromId, index := m.index + m.entries.length }
  | refused (ht : m.type = MessageType.msgApp) :
      Posted m r
        { type := MessageType.msgAppResp, toId := m.fromId, index := m.index, reject := true,
          rejectHint := r.raftLog.lastIndex }
  /-- The answer to a snapshot, and to a leader of a lower term. -/
  | blank (ht : m.type = MessageType.msgSnap ∨ m.type = MessageType.msgHeartbeat ∨
        m.type = MessageType.msgApp) :
      Posted m r { type := MessageType.msgAppResp, toId := m.fromId }
  | forward (ht : m.type = MessageType.msgProp ∨ m.type = MessageType.msgTransferLeader ∨
        m.type = MessageType.msgReadIndex) : Posted m r { m with toId := r.lead }
  | timeoutNow (ht : m.type = MessageType.msgTransferLeader ∨ m.type = MessageType.msgAppResp)
      (h : m.fromId = r.leadTransferee) :
      Posted m r { type := MessageType.msgTimeoutNow, toId := m.fromId }
  | voteRequest (hs : r.state = RaftState.candidate) {toId logTerm : Nat} (hto : toId ∈ r.prs)
      (hlog : r.raftLog.lastTerm = Except.ok logTerm) (context : Bytes) :
      Posted m r (voteRequest MessageType.msgVote r.term r.raftLog.lastIndex logTerm context toId)
  | preVoteRequest (hs : r.state = RaftState.preCandidate) {toId logTerm : Nat}
      (hto : toId ∈ r.prs) (hlog : r.raftLog.lastTerm = Except.ok logTerm) (context : Bytes) :
      Posted m r
        (voteRequest MessageType.msgPreVote (r.term + 1) r.raftLog.lastIndex logTerm context toId)
  | granted (ht : m.type = MessageType.msgVote) (hlearner : r.isLearner = false)
      (h : r.grantsVote m = Except.ok true) :
      Posted m r { type := MessageType.msgVoteResp, toId := m.fromId, term := m.term }
  | preGranted (ht : m.type = MessageType.msgPreVote) (hlearner : r.isLearner = false)
      (h : r.grantsVote m = Except.ok true) :
      Posted m r { type := MessageType.msgPreVoteResp, toId := m.fromId, term := m.term }
  | denied (ht : m.type = MessageType.msgVote) :
      Posted m r
        { type := MessageType.msgVoteResp, toId := m.fromId, term := r.term, reject := true }
  | preDenied (ht : m.type = MessageType.msgPreVote) :
      Posted m r
        { type := MessageType.msgPreVoteResp, toId := m.fromId, term := r.term, reject := true }
  | readIndexResp (req : Message) (index : Nat) :
      Posted m r
        { type := MessageType.msgReadIndexResp, toId := req.fromId, index := index,
          entries := req.entries }

/-- One deed of a call with the message `m`. -/
inductive Deed (m : Message) : Raft → Raft → Prop
  /-- Clocks and reads. -/
  | quiet {r r' : Raft} (h : r'.dossier = r.dossier) : Deed m r r'
  | post (r : Raft) {msg : Message} (h : Posted m r msg) :
      Deed m r { r with msgs := r.msgs ++ [r.signed msg] }
  | sendEntries (r : Raft) {toId : Nat} {pr pr' : Progress} {logTerm : Nat} {es : List Entry}
      (hpr : r.getProgress toId = some pr) (hopen : pr.isPaused = false)
      (hterm : r.raftLog.term (pr.next - 1) = Except.ok logTerm)
      (hes : r.raftLog.entries pr.next r.maxMsgSize = Except.ok (Except.ok es))
      (hsent : pr.afterSending es = Except.ok pr') :
      Deed m r { r.modifyProgress toId (fun _ => pr') with
        msgs := r.msgs ++ [r.signed (r.appendRequest toId pr logTerm es)] }
  | sendSnapshot (r : Raft) {toId : Nat} {pr : Progress} (hpr : r.getProgress toId = some pr)
      (hopen : pr.isPaused = false) (hsnap : r.raftLog.snapshot.isEmpty = false) :
      Deed m r { r.modifyProgress toId (fun p =>
          p.becomeSnapshot r.raftLog.snapshot.metadata.index) with
        msgs := r.msgs ++
          [r.signed { type := MessageType.msgSnap, toId := toId, snapshot := r.raftLog.snapshot }] }
  | answered (r : Raft) (hs : r.state = RaftState.leader) (htimely : r.Timely m)
      {pr pr' : Progress} (hpr : r.getProgress m.fromId = some pr) (h : pr.Answered m pr') :
      Deed m r (r.modifyProgress m.fromId fun _ => pr')
  /-- The progress of the leader itself, behind its last entry. -/
  | own (r : Raft) (hs : r.state = RaftState.leader) :
      Deed m r (r.modifyProgress r.id fun p => (p.maybeUpdate r.raftLog.lastIndex).1)
  /-- The own vote. -/
  | support (r : Raft) (hs : r.state = RaftState.candidate ∨ r.state = RaftState.preCandidate) :
      Deed m r (r.poll r.id true).1
  | count (r : Raft) (hs : r.state = RaftState.candidate ∨ r.state = RaftState.preCandidate)
      (htimely : r.Timely m)
      (ht : m.type = MessageType.msgVoteResp ∨ m.type = MessageType.msgPreVoteResp) :
      Deed m r (r.poll m.fromId (!m.reject)).1
  | transfer (r : Raft) (ht : m.type = MessageType.msgTransferLeader) :
      Deed m r { r with leadTransferee := m.fromId }
  | abort (r : Raft) : Deed m r r.abortLeaderTransfer
  | follow (r : Raft) {term : Nat} (h : r.term ≤ term) (lead : Nat) :
      Deed m r { r.resetTo term with lead := lead, state := RaftState.follower }
  | prepare (r : Raft) (h : r.state ≠ RaftState.leader) :
      Deed m r { r with votes := ∅, lead := 0, state := RaftState.preCandidate }
  /-- Without the pre-vote, for a transfer, or with the pre-votes of a quorum. -/
  | stand (r : Raft) (h : r.state ≠ RaftState.leader)
      (hwhy : r.preVote = false ∨ m.type = MessageType.msgTimeoutNow ∨
        r.state = RaftState.preCandidate ∧ r.quorum = r.grantedVotes) :
      Deed m r { r.resetTo (r.term + 1) with vote := r.id, state := RaftState.candidate }
  | lead (r : Raft) (h : r.state = RaftState.candidate) (hwon : r.quorum = r.grantedVotes) :
      Deed m r r.elected
  /-- A vote, which is repeated or the first one of the term. -/
  | vote (r : Raft) {v : Nat} (h : r.vote = v ∨ r.vote = 0) :
      Deed m r { r with electionElapsed := 0, vote := v }
  /-- A proposal that exceeds the quota is dropped. -/
  | refuse (r : Raft) (h : r.state = RaftState.leader) (es : List Entry) :
      Deed m r { r with pendingConfIndex := (r.admitted es).2 }
  | propose (r : Raft) (h : r.state = RaftState.leader) {es : List Entry}
      (hes : es = [{}] ∨ m.type = MessageType.msgProp ∧ es = m.entries) {r₁ : Raft}
      (hsize : { r with pendingConfIndex := (r.admitted es).2 }.increaseUncommittedSize
        (r.stamped es) = some r₁) {l : RaftLog} {last : Nat}
      (hlog : r.raftLog.append (r.stamped es) = Except.ok (l, last)) :
      Deed m r { r₁ with raftLog := l }
  | commit (r : Raft) {i : Nat} {l : RaftLog} (h : r.raftLog.commitTo i = Except.ok l) :
      Deed m r { r with raftLog := l }
  | append (r : Raft) (hm : m.type = MessageType.msgApp) (h : r.state = RaftState.follower)
      (hterm : m.term = r.term) (hindex : r.raftLog.committed ≤ m.index) {l : RaftLog}
      {res : Option Nat}
      (hlog : r.raftLog.maybeAppend m.index m.logTerm m.commit m.entries = Except.ok (l, res)) :
      Deed m r { r with raftLog := l }
  | restore {r r' : Raft} (hm : m.type = MessageType.msgSnap) (h : r.state = RaftState.follower)
      (hindex : r.raftLog.committed < m.snapshot.metadata.index)
      (hmatch : r.raftLog.matchTerm m.snapshot.metadata.index m.snapshot.metadata.term = false)
      (hr' : r' = { r with
        raftLog := r.raftLog.restore m.snapshot, prs := r'.prs, learnerPrs := r'.learnerPrs,
        isLearner := r'.isLearner }) :
      Deed m r r'

/-- A chain of deeds. -/
abbrev Deeds (m : Message) : Raft → Raft → Prop := Relation.ReflTransGen (Deed m)

/-- `maybe_commit` moves the commit index, or does nothing. -/
theorem maybeCommit_cases {r r' : Raft} {changed : Bool}
    (h : r.maybeCommit = Except.ok (r', changed)) :
    r' = r ∨ ∃ i l, r.raftLog.commitTo i = Except.ok l ∧ r' = { r with raftLog := l } := by
  rw [maybeCommit] at h
  split at h
  · cases h
  split at h
  · cases h
  rename_i mci hmci
  obtain ⟨⟨l, changed'⟩, hl, h⟩ := Outcome.bind_eq_ok.mp h
  cases h
  rw [RaftLog.maybeCommit] at hl
  split at hl
  · split at hl
    · cases hl
    split at hl
    · obtain ⟨l', hcommit, hl⟩ := Outcome.bind_eq_ok.mp hl
      cases hl
      exact Or.inr ⟨mci, l, hcommit, rfl⟩
    · cases hl
      exact Or.inl rfl
  · cases hl
    exact Or.inl rfl

/-- `append` returns the last index of the new log. -/
theorem append_last {l l' : RaftLog} {es : List Entry} {last : Nat}
    (h : l.append es = Except.ok (l', last)) : last = l'.lastIndex := by
  cases es with
  | nil =>
      cases h
      rfl
  | cons e es =>
      rw [RaftLog.append] at h
      split at h
      · cases h
      · obtain ⟨u, -, h⟩ := Outcome.bind_eq_ok.mp h
        cases h
        rfl

theorem maybeAppend_last {l l' : RaftLog} {index logTerm committed last : Nat} {es : List Entry}
    (h : l.maybeAppend index logTerm committed es = Except.ok (l', some last)) :
    last = index + es.length := by
  rw [RaftLog.maybeAppend] at h
  split at h
  · obtain ⟨l₁, -, h⟩ := Outcome.bind_eq_ok.mp h
    obtain ⟨l₂, -, h⟩ := Outcome.bind_eq_ok.mp h
    cases h
    rfl
  · cases h

/-- What both ways of entering a node end with. -/
def activated (r : Raft) (id : Nat) (isLearner : Bool) : Raft :=
  { r with isLearner := if r.id = id then isLearner else r.isLearner }.modifyProgress id fun p =>
    { p with recentActive := true }

/-- What a configuration change does to the members. -/
inductive Regrouped : Raft → Raft → Prop
  | same (r : Raft) : Regrouped r r
  | entered {r r₁ : Raft} {id : Nat} {isLearner : Bool} (hnew : r.getProgress id = none)
      (h : r.setProgress id 0 (r.raftLog.lastIndex + 1) isLearner = Except.ok r₁) :
      Regrouped r (r₁.activated id isLearner)
  | promoted (r : Raft) {id : Nat} {pr : Progress} (hpr : r.getProgress id = some pr)
      (hlearner : pr.isLearner = true) :
      Regrouped r ({ r with
        learnerPrs := r.learnerPrs.erase id
        prs := r.prs.insert id { pr with isLearner := false } }.activated id false)
  | removed (r : Raft) (id : Nat) : Regrouped r (r.delProgress id)

theorem Regrouped.ledger {r r' : Raft} (h : Regrouped r r') : r'.ledger = r.ledger := by
  cases h with
  | same => rfl
  | entered hnew h =>
      rw [setProgress_frame h]
      rfl
  | promoted => rfl
  | removed => rfl

/-- Deeds that leave the ledger alone. -/
abbrev Asides (m : Message) : Raft → Raft → Prop :=
  Relation.ReflTransGen fun r r' => Deed m r r' ∧ r'.ledger = r.ledger

namespace Asides

variable {r r' : Raft} {m : Message} {id toId : Nat}

theorem deeds (h : Asides m r r') : Deeds m r r' :=
  Relation.ReflTransGen.mono (fun _ _ hs => hs.1) _ _ h

theorem ledger (h : Asides m r r') : r'.ledger = r.ledger := by
  induction h with
  | refl => rfl
  | tail _ hdeed ih => exact hdeed.2.trans ih

theorem single (h : Deed m r r') (hledger : r'.ledger = r.ledger) : Asides m r r' :=
  Relation.ReflTransGen.single ⟨h, hledger⟩

theorem after {r₁ : Raft} (h : Asides m r₁ r') (hr : r₁.dossier = r.dossier) : Asides m r r' :=
  Relation.ReflTransGen.head ⟨Deed.quiet hr, congrArg Prod.fst hr⟩ h

/-- A loop whose rounds leave the ledger alone does so. -/
theorem foldlM {α : Type} {f : Raft → α → Outcome Raft} {xs : List α}
    (hf : ∀ {s s' x}, f s x = Except.ok s' → Asides m s s')
    (h : xs.foldlM f r = Except.ok r') : Asides m r r' :=
  Outcome.foldlM_induct (P := fun s => Asides m r s)
    (fun _ _ _ _ hs hround => hs.trans (hf hround)) Relation.ReflTransGen.refl h

/-! ## Sending -/

theorem post {msg : Message} (hposted : Posted m r msg) (h : r.send msg = Except.ok r') :
    Asides m r r' := by
  rw [(send_eq_ok h).1]
  exact single (Deed.post r hposted) rfl

theorem sendEntries {pr : Progress} {logTerm : Nat} {es : List Entry} {sent : Bool}
    (hpr : r.getProgress toId = some pr) (hopen : pr.isPaused = false)
    (hterm : r.raftLog.term (pr.next - 1) = Except.ok logTerm)
    (hes : r.raftLog.entries pr.next r.maxMsgSize = Except.ok (Except.ok es))
    (h : r.sendEntries toId pr logTerm es = Except.ok (r', sent)) : Asides m r r' := by
  obtain ⟨pr', hsent, h⟩ := Outcome.bind_eq_ok.mp h
  obtain ⟨r₁, hsend, h⟩ := Outcome.bind_eq_ok.mp h
  cases h
  rw [(send_eq_ok hsend).1]
  exact single (Deed.sendEntries r hpr hopen hterm hes hsent) rfl

theorem sendSnapshot {pr : Progress} {sent : Bool} (hpr : r.getProgress toId = some pr)
    (hopen : pr.isPaused = false) (h : r.sendSnapshot toId pr = Except.ok (r', sent)) :
    Asides m r r' := by
  rw [Raft.sendSnapshot] at h
  split at h
  · cases h
    exact Relation.ReflTransGen.refl
  dsimp only at h
  split at h
  · cases h
  rename_i hsnap
  obtain ⟨r₁, hsend, h⟩ := Outcome.bind_eq_ok.mp h
  cases h
  rw [(send_eq_ok hsend).1]
  exact single (Deed.sendSnapshot r hpr hopen (by simpa using hsnap)) rfl

theorem maybeSendAppend {sendIfEmpty sent : Bool}
    (h : r.maybeSendAppend toId sendIfEmpty = Except.ok (r', sent)) : Asides m r r' := by
  rw [Raft.maybeSendAppend] at h
  split at h
  · cases h
  rename_i pr hpr
  split at h
  · cases h
    exact Relation.ReflTransGen.refl
  rename_i hopen
  obtain ⟨res, hres, h⟩ := Outcome.bind_eq_ok.mp h
  dsimp only at h
  split at h
  · cases h
    exact Relation.ReflTransGen.refl
  rename_i hempty
  split at h
  · rename_i hterm
    exact sendEntries hpr (by simpa using hopen) hterm hres h
  · exact sendSnapshot hpr (by simpa using hopen) h

theorem sendAppend (h : r.sendAppend toId = Except.ok r') : Asides m r r' := by
  obtain ⟨⟨r₁, sent⟩, h₁, h⟩ := Outcome.bind_eq_ok.mp h
  cases h
  exact maybeSendAppend h₁

theorem drainAppends : ∀ {fuel : Nat} {r : Raft},
    Raft.drainAppends toId fuel r = Except.ok r' → Asides m r r'
  | 0, _, h => by cases h
  | fuel + 1, r, h => by
      obtain ⟨⟨r₁, sent⟩, h₁, h⟩ := Outcome.bind_eq_ok.mp h
      cases sent with
      | true => exact (maybeSendAppend h₁).trans (drainAppends h)
      | false =>
          cases h
          exact maybeSendAppend h₁

theorem sendHeartbeat {ctx : Bytes} (h : r.sendHeartbeat toId ctx = Except.ok r') :
    Asides m r r' := by
  rw [Raft.sendHeartbeat] at h
  split at h
  · cases h
  · rename_i hpr
    exact post (Posted.heartbeat hpr ctx) h

theorem forEachPeer {f : Raft → Nat → Outcome Raft}
    (hf : ∀ {s s' id}, f s id = Except.ok s' → Asides m s s')
    (h : r.forEachPeer f = Except.ok r') : Asides m r r' := by
  refine foldlM (fun {s s' id} hround => ?_) h
  split at hround
  · cases hround
    exact Relation.ReflTransGen.refl
  · exact hf hround

theorem bcastAppend (h : r.bcastAppend = Except.ok r') : Asides m r r' :=
  forEachPeer sendAppend h

theorem bcastHeartbeatWithCtx {ctx : Bytes}
    (h : r.bcastHeartbeatWithCtx ctx = Except.ok r') : Asides m r r' :=
  forEachPeer sendHeartbeat h

theorem sendAfterAck {committed oldPaused : Bool}
    (h : r.sendAfterAck id committed oldPaused = Except.ok r') : Asides m r r' := by
  rw [Raft.sendAfterAck] at h
  split at h
  · exact bcastAppend h
  split at h
  · exact sendAppend h
  · cases h
    exact Relation.ReflTransGen.refl

theorem finishTransfer {matched : Nat} (ht : m.type = MessageType.msgAppResp)
    (h : r.finishTransfer m.fromId matched = Except.ok r') : Asides m r r' := by
  rw [Raft.finishTransfer] at h
  split at h
  · rename_i hdone
    exact post (Posted.timeoutNow (Or.inr ht) hdone.1) h
  · cases h
    exact Relation.ReflTransGen.refl

theorem sendIfBehind {matched : Nat} (h : r.sendIfBehind id matched = Except.ok r') :
    Asides m r r' := by
  rw [Raft.sendIfBehind] at h
  split at h
  · exact sendAppend h
  · cases h
    exact Relation.ReflTransGen.refl

theorem respondRead {req : Message} {index : Nat}
    (h : r.respondRead req index = Except.ok r') : Asides m r r' := by
  rw [Raft.respondRead] at h
  split at h
  · obtain ⟨ctx, -, h⟩ := Outcome.bind_eq_ok.mp h
    cases h
    exact single (Deed.quiet rfl) rfl
  · exact post (Posted.readIndexResp req index) h

end Asides

namespace Deeds

variable {r r' r₁ r₂ : Raft} {m m' : Message} {id toId : Nat}

theorem quiet (h : r'.dossier = r.dossier) : Deeds m r r' :=
  Relation.ReflTransGen.single (Deed.quiet h)

/-- The deeds of a node that differs in nothing they concern. -/
theorem after (h : Deeds m r₁ r') (hr : r₁.dossier = r.dossier) : Deeds m r r' :=
  Relation.ReflTransGen.head (Deed.quiet hr) h

theorem post {msg : Message} (hposted : Posted m r msg) (h : r.send msg = Except.ok r') :
    Deeds m r r' := (Asides.post hposted h).deeds

end Deeds

end Raft

end RaftKv
