import RaftKv.Leader.Office
import RaftKv.Leader.PendingReads
import RaftKv.Raft.Bootstrap
import RaftKv.Raft.Calls

/-!
# For whom a read request is answered

A read request names its origin in `from`, where 0 stands for the node itself.  `send` puts the
sender there at every hop, and the answer goes to whoever the request names.

* `Message.Owed`, `Raft.Owes` — every read state, pending request and message about reads belongs to
  a node that asked for it.
* `Raft.step_owes`, `Raft.tick_owes` — **whatever a node is called with keeps that**, unless it
  forwards a request of another node, or answers one as the only voter (`Raft.Routes`).
* `Raft.Serves`, `Raft.step_serves` — the ways in which a leader serves a request, and **the answer it
  sends to another node then**.
-/

namespace RaftKv

open Outcome

/-- A request is its sender's, and an answer is addressed to a node that asked. -/
structure Message.Owed (asked : Nat → Bytes → Prop) (m : Message) : Prop where
  sender : m.type = MessageType.msgReadIndex → m.fromId ≠ 0
  request : m.type = MessageType.msgReadIndex →
    ∀ ctx, m.readContext = Except.ok ctx → asked m.fromId ctx
  answer : m.type = MessageType.msgReadIndexResp →
    ∀ ctx, m.readContext = Except.ok ctx → asked m.toId ctx

/-- A message that has nothing to do with reads. -/
def Message.Unread (m : Message) : Prop :=
  m.type ≠ MessageType.msgReadIndex ∧ m.type ≠ MessageType.msgReadIndexResp

theorem Message.Owed.of_unread {asked : Nat → Bytes → Prop} {m : Message} (h : m.Unread) :
    m.Owed asked :=
  ⟨fun ht => absurd ht h.1, fun ht => absurd ht h.1, fun ht => absurd ht h.2⟩

namespace Raft

/-- The node on which a request was made. -/
def origin (r : Raft) (req : Message) : Nat := if req.fromId = 0 then r.id else req.fromId

/-- What the node `me` has to do with reads belongs to nodes that asked. -/
structure Owes (asked : Nat → Bytes → Prop) (me : Nat) (r : Raft) : Prop where
  id : r.id = me
  nonzero : me ≠ 0
  states : ∀ rs ∈ r.readStates, asked r.id rs.requestCtx
  pending : ∀ key status, r.readOnly.pendingReadIndex.lookup key = some status →
    ∀ ctx, status.req.readContext = Except.ok ctx → asked (r.origin status.req) ctx
  mail : ∀ m ∈ r.msgs, m.Owed asked

/-- Whether a request of the node `m` names is answered or passed on in its name: it is not passed on
by another node, and not answered by the only voter. -/
def Routes (r : Raft) (m : Message) : Prop :=
  m.type = MessageType.msgReadIndex → m.fromId ≠ 0 → m.fromId ≠ r.id →
    (r.state = RaftState.follower → r.lead = 0) ∧ (r.state = RaftState.leader → 1 < r.quorum)

instance (r : Raft) (m : Message) : Decidable (r.Routes m) :=
  inferInstanceAs (Decidable (_ → _ → _ → _))

variable {asked : Nat → Bytes → Prop} {me : Nat} {r r' : Raft} {m : Message}

/-- The fields that have to do with reads. -/
def desk (r : Raft) : Nat × List ReadState × ReadOnly × List Message :=
  (r.id, r.readStates, r.readOnly, r.msgs)

theorem Owes.congr (h : r.Owes asked me) (hdesk : r'.desk = r.desk) : r'.Owes asked me := by
  simp only [desk, Prod.mk.injEq] at hdesk
  obtain ⟨hid, hstates, hreadOnly, hmsgs⟩ := hdesk
  refine ⟨hid.trans h.id, h.nonzero, ?_, ?_, hmsgs ▸ h.mail⟩
  · rw [hid, hstates]
    exact h.states
  · rw [hreadOnly]
    intro key status hstatus ctx hctx
    rw [origin, hid]
    exact h.pending key status hstatus ctx hctx

theorem Owes.modifyProgress (h : r.Owes asked me) (id : Nat) (f : Progress → Progress) :
    (r.modifyProgress id f).Owes asked me := h.congr rfl

/-- A new term drops the pending requests. -/
theorem Owes.resetTo (h : r.Owes asked me) (term : Nat) : (r.resetTo term).Owes asked me where
  id := h.id
  nonzero := h.nonzero
  states := h.states
  pending key status hstatus := by simp [Raft.resetTo] at hstatus
  mail := h.mail

/-! ## Sending -/

theorem send_owes (h : r.Owes asked me) (hm : (r.signed m).Owed asked) :
    Ensures (Owes asked me) (r.send m) := by
  intro r' hsend
  rw [(send_eq_ok hsend).1]
  refine ⟨h.id, h.nonzero, h.states, h.pending, fun msg hmsg => ?_⟩
  rcases List.mem_append.mp hmsg with hold | hnew
  · exact h.mail msg hold
  · rw [List.mem_singleton.mp hnew]
    exact hm

theorem send_unread (h : r.Owes asked me) (hm : m.Unread) : Ensures (Owes asked me) (r.send m) := by
  refine send_owes h (Message.Owed.of_unread ?_)
  rw [Message.Unread, signed_type]
  exact hm

theorem sendSnapshot_owes (h : r.Owes asked me) (toId : Nat) (pr : Progress) :
    Ensures (fun p => p.1.Owes asked me) (r.sendSnapshot toId pr) := by
  rw [sendSnapshot]
  split
  · exact Ensures.pure h
  dsimp only
  split
  · exact Ensures.throw
  · exact Ensures.bind (send_unread (h.modifyProgress _ _) ⟨by simp, by simp⟩) fun _ hs =>
      Ensures.pure hs

theorem sendEntries_owes (h : r.Owes asked me) (toId : Nat) (pr : Progress) (logTerm : Nat)
    (es : List Entry) : Ensures (fun p => p.1.Owes asked me) (r.sendEntries toId pr logTerm es) := by
  refine Ensures.eval fun pr' _ => ?_
  exact Ensures.bind (send_unread (h.modifyProgress _ _) ⟨by simp, by simp⟩) fun _ hs =>
    Ensures.pure hs

theorem maybeSendAppend_owes (h : r.Owes asked me) (toId : Nat) (sendIfEmpty : Bool) :
    Ensures (fun p => p.1.Owes asked me) (r.maybeSendAppend toId sendIfEmpty) := by
  rw [maybeSendAppend]
  split
  · exact Ensures.throw
  split
  · exact Ensures.pure h
  refine Ensures.eval fun statusEntries _ => ?_
  dsimp only
  split
  · exact Ensures.pure h
  split
  · exact sendEntries_owes h _ _ _ _
  · exact sendSnapshot_owes h _ _

theorem sendAppend_owes (h : r.Owes asked me) (toId : Nat) :
    Ensures (Owes asked me) (r.sendAppend toId) :=
  Ensures.bind (maybeSendAppend_owes h _ _) fun _ hs => Ensures.pure hs

theorem drainAppends_owes (toId fuel : Nat) : ∀ {r : Raft}, r.Owes asked me →
    Ensures (Owes asked me) (drainAppends toId fuel r) := by
  induction fuel with
  | zero => exact fun _ => Ensures.throw
  | succ fuel ih =>
      intro r h
      rw [drainAppends]
      refine Ensures.bind (maybeSendAppend_owes h _ _) fun p hp => ?_
      dsimp only
      split
      · exact ih hp
      · exact Ensures.pure hp

theorem forEachPeer_owes (h : r.Owes asked me) {f : Raft → Nat → Outcome Raft}
    (hf : ∀ {s : Raft} (i : Nat), s.Owes asked me → Ensures (Owes asked me) (f s i)) :
    Ensures (Owes asked me) (r.forEachPeer f) := by
  refine Ensures.foldlM h fun s i _ hs => ?_
  split
  · exact Ensures.pure hs
  · exact hf i hs

theorem bcastAppend_owes (h : r.Owes asked me) : Ensures (Owes asked me) r.bcastAppend :=
  forEachPeer_owes h fun i hs => sendAppend_owes hs i

theorem bcastHeartbeatWithCtx_owes (h : r.Owes asked me) (ctx : Bytes) :
    Ensures (Owes asked me) (r.bcastHeartbeatWithCtx ctx) := by
  refine forEachPeer_owes h fun {s} i hs => ?_
  rw [sendHeartbeat]
  split
  · exact Ensures.throw
  · exact send_unread hs ⟨by simp, by simp⟩

theorem sendAfterAck_owes (h : r.Owes asked me) (toId : Nat) (committed oldPaused : Bool) :
    Ensures (Owes asked me) (r.sendAfterAck toId committed oldPaused) := by
  rw [sendAfterAck]
  split
  · exact bcastAppend_owes h
  split
  · exact sendAppend_owes h _
  · exact Ensures.pure h

theorem finishTransfer_owes (h : r.Owes asked me) (toId matched : Nat) :
    Ensures (Owes asked me) (r.finishTransfer toId matched) := by
  rw [finishTransfer]
  split
  · exact send_unread h ⟨by simp, by simp⟩
  · exact Ensures.pure h

theorem sendIfBehind_owes (h : r.Owes asked me) (toId matched : Nat) :
    Ensures (Owes asked me) (r.sendIfBehind toId matched) := by
  rw [sendIfBehind]
  split
  · exact sendAppend_owes h _
  · exact Ensures.pure h

/-! ## The log and the roles -/

theorem maybeCommit_owes (h : r.Owes asked me) :
    Ensures (fun p => p.1.Owes asked me) r.maybeCommit := by
  rw [maybeCommit]
  split
  · exact Ensures.throw
  split
  · exact Ensures.throw
  · exact Ensures.eval fun _ _ => Ensures.pure (h.congr rfl)

theorem appendEntry_owes (h : r.Owes asked me) (es : List Entry) :
    Ensures (fun p => p.1.Owes asked me) (r.appendEntry es) := by
  rw [appendEntry]
  dsimp only
  split
  · exact Ensures.pure h
  rename_i r₁ hsize
  have hdesk : r₁.desk = r.desk := by
    rw [increaseUncommittedSize] at hsize
    split at hsize
    · cases hsize
    · cases hsize
      rfl
  refine Ensures.eval fun p _ => ?_
  split
  · exact Ensures.throw
  · have h₁ : Owes asked me { r₁ with raftLog := p.1 } := (h.congr hdesk).congr rfl
    exact Ensures.bind (maybeCommit_owes (h₁.modifyProgress _ _)) fun _ hs => Ensures.pure hs

theorem becomeFollower_owes (h : r.Owes asked me) (term lead : Nat) :
    Ensures (Owes asked me) (r.becomeFollower term lead) := by
  intro r' hfollow
  rw [becomeFollower_eq_ok hfollow]
  exact (h.resetTo term).congr rfl

theorem becomeLeader_owes (h : r.Owes asked me) : Ensures (Owes asked me) r.becomeLeader := by
  intro r' hlead
  obtain ⟨-, r₁, happend, rfl⟩ := becomeLeader_eq_ok hlead
  have helected : r.elected.Owes asked me := (h.resetTo r.term).congr rfl
  exact (appendEntry_owes helected _ _ happend).congr rfl

theorem requestVotes_owes (h : r.Owes asked me) {voteMsg : MessageType} (term : Nat) (context : Bytes)
    (hvote : voteMsg ≠ MessageType.msgReadIndex ∧ voteMsg ≠ MessageType.msgReadIndexResp) :
    Ensures (Owes asked me) (r.requestVotes voteMsg term context) := by
  refine Ensures.foldlM h fun s toId _ hs => ?_
  split
  · exact Ensures.pure hs
  · exact Ensures.eval fun _ _ => send_unread hs hvote

theorem campaignElection_owes (h : r.Owes asked me) (context : Bytes) :
    Ensures (Owes asked me) (r.campaignElection context) := by
  have hstand : Ensures (Owes asked me) r.becomeCandidate := by
    rw [becomeCandidate]
    split
    · exact Ensures.throw
    refine Ensures.eval fun r₁ hreset => ?_
    rw [reset_eq_ok hreset]
    exact Ensures.pure ((h.resetTo (r.term + 1)).congr rfl)
  refine Ensures.bind hstand fun r₁ h₁ => ?_
  dsimp only
  have hpolled : (r₁.poll r₁.id true).1.Owes asked me := h₁.congr rfl
  split
  · exact becomeLeader_owes hpolled
  · exact requestVotes_owes hpolled _ _ ⟨by simp, by simp⟩

theorem campaign_owes (h : r.Owes asked me) (t : CampaignType) :
    Ensures (Owes asked me) (r.campaign t) := by
  cases t with
  | preElection =>
      have hprepare : Ensures (Owes asked me) r.becomePreCandidate := by
        rw [becomePreCandidate]
        split
        · exact Ensures.throw
        · exact Ensures.pure (h.congr rfl)
      refine Ensures.bind hprepare fun r₁ h₁ => ?_
      dsimp only
      have hpolled : (r₁.poll r₁.id true).1.Owes asked me := h₁.congr rfl
      split
      · exact campaignElection_owes hpolled _
      · exact requestVotes_owes hpolled _ _ ⟨by simp, by simp⟩
  | election => exact campaignElection_owes h _
  | transfer => exact campaignElection_owes h _

/-! ## Followers and candidates -/

theorem handleAppendEntries_owes (h : r.Owes asked me) (m : Message) :
    Ensures (Owes asked me) (r.handleAppendEntries m) := by
  rw [handleAppendEntries]
  split
  · exact send_unread h ⟨by simp, by simp⟩
  refine Ensures.eval fun p _ => ?_
  have h₁ : Owes asked me { r with raftLog := p.1 } := h.congr rfl
  dsimp only
  split
  · exact send_unread h₁ ⟨by simp, by simp⟩
  · exact send_unread h₁ ⟨by simp, by simp⟩

theorem handleHeartbeat_owes (h : r.Owes asked me) (m : Message) :
    Ensures (Owes asked me) (r.handleHeartbeat m) := by
  refine Ensures.eval fun l _ => ?_
  have h₁ : Owes asked me { r with raftLog := l } := h.congr rfl
  exact send_unread h₁ ⟨by simp, by simp⟩

theorem handleSnapshot_owes (h : r.Owes asked me) (m : Message) :
    Ensures (Owes asked me) (r.handleSnapshot m) := by
  refine Ensures.eval fun p hp => ?_
  have h₁ : p.1.Owes asked me := by
    rcases restore_cases hp with ⟨-, hr', -⟩ | ⟨-, -, -, -, hr'⟩ | ⟨-, -, -, -, hr'⟩
    · rw [hr']
      exact h
    · rw [hr']
      exact h.congr rfl
    · rw [hr']
      exact h.congr rfl
  exact send_unread h₁ ⟨by simp, by simp⟩

theorem forwardToLead_owes (h : r.Owes asked me) (hm : (r.signed { m with toId := r.lead }).Owed asked) :
    Ensures (fun p => p.1.Owes asked me) (r.forwardToLead m) :=
  Ensures.bind (send_owes h hm) fun _ hs => Ensures.pure hs

/-- What a message says about reads belongs to a node that asked. -/
structure Brings (asked : Nat → Bytes → Prop) (r : Raft) (m : Message) : Prop where
  request : m.type = MessageType.msgReadIndex →
    ∀ ctx, m.readContext = Except.ok ctx → asked (r.origin m) ctx
  answer : m.type = MessageType.msgReadIndexResp →
    ∀ ctx, m.readContext = Except.ok ctx → asked r.id ctx

lemma origin_self (h : m.fromId = 0 ∨ m.fromId = r.id) : r.origin m = r.id := by
  rcases h with h | h
  · rw [origin, if_pos h]
  · rw [origin, h, ite_self]

theorem stepFollower_owes (h : r.Owes asked me) (hm : r.Brings asked m)
    (hown : m.type = MessageType.msgReadIndex → r.lead ≠ 0 → m.fromId = 0 ∨ m.fromId = r.id) :
    Ensures (fun p => p.1.Owes asked me) (r.stepFollower m) := by
  have hheard : Owes asked me { r with electionElapsed := 0, lead := m.fromId } := h.congr rfl
  have hforward : m.Unread → Ensures (fun p => p.1.Owes asked me) (r.forwardToLead m) := by
    intro hunread
    refine forwardToLead_owes h (Message.Owed.of_unread ?_)
    rw [Message.Unread, signed_type]
    exact hunread
  rw [stepFollower]
  split
  · rename_i ht
    split
    · exact Ensures.pure h
    split
    · exact Ensures.pure h
    · exact hforward ⟨by simp [ht], by simp [ht]⟩
  · exact Ensures.bind (handleAppendEntries_owes hheard m) fun _ hs => Ensures.pure hs
  · exact Ensures.bind (handleHeartbeat_owes hheard m) fun _ hs => Ensures.pure hs
  · exact Ensures.bind (handleSnapshot_owes hheard m) fun _ hs => Ensures.pure hs
  · rename_i ht
    split
    · exact Ensures.pure h
    · exact hforward ⟨by simp [ht], by simp [ht]⟩
  · split
    · exact Ensures.bind (campaign_owes h _) fun _ hs => Ensures.pure hs
    · exact Ensures.pure h
  · rename_i ht
    split
    · exact Ensures.pure h
    · rename_i hlead
      refine forwardToLead_owes h ⟨fun _ => ?_, fun _ ctx hctx => ?_, fun hresp => ?_⟩
      · rw [signed_fromId, h.id]
        exact h.nonzero
      · rw [signed_fromId, ← origin_self (hown ht hlead)]
        refine hm.request ht ctx ?_
        rw [Message.readContext, signed_entries] at hctx
        exact hctx
      · rw [signed_type] at hresp
        exact absurd (hresp.symm.trans ht) (by simp)
  · rename_i ht
    split
    · rename_i e hentries
      refine Ensures.pure ⟨h.id, h.nonzero, fun rs hrs => ?_, h.pending, h.mail⟩
      rcases List.mem_append.mp hrs with hold | hnew
      · exact h.states rs hold
      · rw [List.mem_singleton.mp hnew]
        refine hm.answer ht e.data ?_
        rw [Message.readContext, hentries]
        rfl
    · exact Ensures.pure h
  · exact Ensures.pure h

theorem stepCandidate_owes (h : r.Owes asked me) (m : Message) :
    Ensures (fun p => p.1.Owes asked me) (r.stepCandidate m) := by
  have hvote : Ensures (Owes asked me) (r.stepVoteResp m) := by
    have hpolled : (r.poll m.fromId (!m.reject)).1.Owes asked me := h.congr rfl
    rw [stepVoteResp]
    dsimp only
    split
    · split
      · exact campaign_owes hpolled _
      split
      · exact Ensures.throw
      · exact Ensures.bind (becomeLeader_owes hpolled) fun _ hs => bcastAppend_owes hs
    split
    · exact becomeFollower_owes hpolled _ _
    · exact Ensures.pure hpolled
  rw [stepCandidate]
  split
  · exact Ensures.pure h
  · exact Ensures.bind (becomeFollower_owes h _ _) fun _ h₁ =>
      Ensures.bind (handleAppendEntries_owes h₁ m) fun _ hs => Ensures.pure hs
  · exact Ensures.bind (becomeFollower_owes h _ _) fun _ h₁ =>
      Ensures.bind (handleHeartbeat_owes h₁ m) fun _ hs => Ensures.pure hs
  · exact Ensures.bind (becomeFollower_owes h _ _) fun _ h₁ =>
      Ensures.bind (handleSnapshot_owes h₁ m) fun _ hs => Ensures.pure hs
  · exact Ensures.bind hvote fun _ hs => Ensures.pure hs
  · exact Ensures.bind hvote fun _ hs => Ensures.pure hs
  · exact Ensures.pure h

/-! ## Leaders -/

/-- A request is answered where it was made, or with a message that is addressed to that node. -/
theorem respondRead_owes (h : r.Owes asked me) {req : Message} (index : Nat)
    (hreq : ∀ ctx, req.readContext = Except.ok ctx → asked (r.origin req) ctx) :
    Ensures (Owes asked me) (r.respondRead req index) := by
  rw [respondRead]
  split
  · rename_i hlocal
    refine Ensures.eval fun ctx hctx =>
      Ensures.pure ⟨h.id, h.nonzero, fun rs hrs => ?_, h.pending, h.mail⟩
    rcases List.mem_append.mp hrs with hold | hnew
    · exact h.states rs hold
    · rw [List.mem_singleton.mp hnew, ← origin_self hlocal]
      exact hreq ctx hctx
  · rename_i hremote
    rw [not_or] at hremote
    refine send_owes h ⟨fun ht => ?_, fun ht => ?_, fun _ ctx hctx => ?_⟩
    · rw [signed_type] at ht
      cases ht
    · rw [signed_type] at ht
      cases ht
    · rw [signed_toId]
      rw [Message.readContext, signed_entries] at hctx
      have hasked := hreq ctx hctx
      rwa [origin, if_neg hremote.1] at hasked

theorem stepLeaderReadIndex_owes (h : r.Owes asked me)
    (hm : ∀ ctx, m.readContext = Except.ok ctx → asked (r.origin m) ctx)
    (hown : ¬ 1 < r.quorum → m.fromId = 0 ∨ m.fromId = r.id) :
    Ensures (Owes asked me) (r.stepLeaderReadIndex m) := by
  rw [stepLeaderReadIndex]
  split
  · split
    · exact Ensures.pure h
    split
    · refine Ensures.eval fun readOnly hadd => Ensures.eval fun ctx hctx => ?_
      have h₁ : Owes asked me { r with readOnly := readOnly } := by
        refine ⟨h.id, h.nonzero, h.states, fun key status hstatus => ?_, h.mail⟩
        obtain ⟨key', -, ⟨-, rfl⟩ | ⟨-, rfl⟩⟩ := ReadOnly.addRequest_cases hadd
        · exact h.pending key status hstatus
        · by_cases hk : key = key'
          · subst hk
            rw [AList.lookup_insert] at hstatus
            rw [← Option.some.inj hstatus]
            exact hm
          · rw [AList.lookup_insert_ne hk] at hstatus
            exact h.pending key status hstatus
      exact bcastHeartbeatWithCtx_owes h₁ ctx
    · exact respondRead_owes h _ hm
  · rename_i hquorum
    refine Ensures.eval fun ctx hctx =>
      Ensures.pure ⟨h.id, h.nonzero, fun rs hrs => ?_, h.pending, h.mail⟩
    rcases List.mem_append.mp hrs with hold | hnew
    · exact h.states rs hold
    · rw [List.mem_singleton.mp hnew, ← origin_self (hown hquorum)]
      exact hm ctx hctx

/-- An acknowledgement changes no request. -/
lemma Owes.recvAck (h : r.Owes asked me) (m : Message) :
    Owes asked me { r with readOnly := (r.readOnly.recvAck m).1 } := by
  refine ⟨h.id, h.nonzero, h.states, fun key status hstatus => ?_, h.mail⟩
  obtain ⟨-, hack⟩ | ⟨old, hold, hack⟩ := ReadOnly.recvAck_cases r.readOnly m
  · rw [hack] at hstatus
    exact h.pending key status hstatus
  · rw [hack] at hstatus
    by_cases hk : key = m.context
    · subst hk
      rw [AList.lookup_insert] at hstatus
      rw [← Option.some.inj hstatus]
      exact h.pending m.context old hold
    · rw [AList.lookup_insert_ne hk] at hstatus
      exact h.pending key status hstatus

theorem releaseReads_owes (h : r.Owes asked me) (m : Message) :
    Ensures (Owes asked me) (r.releaseReads m) := by
  rw [releaseReads]
  split
  · exact Ensures.pure h
  have hacked := h.recvAck m
  dsimp only
  split
  · exact Ensures.pure hacked
  refine Ensures.eval fun p hadvance => ?_
  obtain ⟨hreleased, hleft⟩ := ReadOnly.advance_pending hadvance
  have h₁ : Owes asked me { r with readOnly := p.1 } :=
    ⟨h.id, h.nonzero, h.states,
      fun key status hs => hacked.pending key status (hleft key status hs), h.mail⟩
  refine Ensures.foldlM h₁ fun s rs hrs hs => ?_
  obtain ⟨key, hkey⟩ := hreleased rs hrs
  refine respondRead_owes hs rs.index fun ctx hctx => ?_
  rw [origin, hs.id, ← hacked.id]
  exact hacked.pending key rs hkey ctx hctx

theorem stepLeaderPeer_owes (h : r.Owes asked me) (m : Message) (pr : Progress) :
    Ensures (Owes asked me) (r.stepLeaderPeer m pr) := by
  rw [stepLeaderPeer]
  split
  · rw [stepAppResp]
    split
    · rw [stepRejected]
      dsimp only
      split
      · exact sendAppend_owes (h.modifyProgress _ _) _
      · exact Ensures.pure (h.modifyProgress _ _)
    · rw [stepAcknowledged]
      dsimp only
      split
      · refine Ensures.eval fun pr' _ => ?_
        refine Ensures.bind (maybeCommit_owes (h.modifyProgress _ _)) fun p hp => ?_
        refine Ensures.bind (sendAfterAck_owes hp _ _ _) fun r₂ h₂ => ?_
        refine Ensures.bind (drainAppends_owes _ _ h₂) fun r₃ h₃ => ?_
        exact finishTransfer_owes h₃ _ _
      · exact Ensures.pure (h.modifyProgress _ _)
  · refine Ensures.eval fun pr' _ => ?_
    exact Ensures.bind (sendIfBehind_owes (h.modifyProgress _ _) _ _) fun _ hs =>
      releaseReads_owes hs m
  · refine Ensures.pure ?_
    rw [stepSnapStatus]
    split
    · exact h
    · exact h.modifyProgress _ _
  · refine Ensures.pure ?_
    rw [stepUnreachable]
    split
    · exact h.modifyProgress _ _
    · exact h
  · rw [stepTransferLeader]
    split
    · exact Ensures.pure h
    split
    · exact Ensures.pure h
    dsimp only
    split
    · exact Ensures.pure (h.congr rfl)
    have h₁ : Owes asked me
        { r.abortLeaderTransfer with electionElapsed := 0, leadTransferee := m.fromId } :=
      h.congr rfl
    split
    · exact send_unread h₁ ⟨by simp, by simp⟩
    · exact sendAppend_owes h₁ _
  · exact Ensures.pure h

theorem stepLeader_owes (h : r.Owes asked me) (hm : r.Brings asked m)
    (hown : m.type = MessageType.msgReadIndex → ¬ 1 < r.quorum →
      m.fromId = 0 ∨ m.fromId = r.id) :
    Ensures (fun p => p.1.Owes asked me) (r.stepLeader m) := by
  rw [stepLeader]
  split
  · exact Ensures.bind (bcastHeartbeatWithCtx_owes h _) fun _ hs => Ensures.pure hs
  · split
    · exact Ensures.pure h
    · exact Ensures.bind (becomeFollower_owes h _ _) fun _ hs => Ensures.pure hs
  · rw [stepLeaderProp]
    split
    · exact Ensures.throw
    split
    · exact Ensures.pure h
    split
    · exact Ensures.pure h
    generalize admitConfChanges r.raftLog.lastIndex r.raftLog.applied 0 r.pendingConfIndex m.entries =
      admitted
    have h₁ : Owes asked me { r with pendingConfIndex := admitted.2 } := h.congr rfl
    refine Ensures.bind (appendEntry_owes h₁ _) fun p hp => ?_
    dsimp only
    split
    · exact Ensures.pure hp
    · exact Ensures.bind (bcastAppend_owes hp) fun _ hs => Ensures.pure hs
  · rename_i ht
    exact Ensures.bind (stepLeaderReadIndex_owes h (hm.request ht) (hown ht)) fun _ hs =>
      Ensures.pure hs
  · split
    · exact Ensures.pure h
    · exact Ensures.bind (stepLeaderPeer_owes h m _) fun _ hs => Ensures.pure hs

/-! ## Every message, and the clock -/

theorem checkTerm_owes (h : r.Owes asked me) (m : Message) :
    Ensures (fun p => p.1.Owes asked me ∧
      (m.type = MessageType.msgReadIndex → p.2 = true →
        p.1 = r ∨ p.1.state = RaftState.follower ∧ p.1.lead = 0)) (r.checkTerm m) := by
  have hfollow : ∀ {term lead : Nat} {r' : Raft}, r.becomeFollower term lead = Except.ok r' →
      (m.type = MessageType.msgReadIndex → lead = 0) → r'.Owes asked me ∧
      (m.type = MessageType.msgReadIndex → true = true →
        r' = r ∨ r'.state = RaftState.follower ∧ r'.lead = 0) := by
    intro term lead r' hr' hlead
    refine ⟨becomeFollower_owes h term lead r' hr', fun ht _ => Or.inr ?_⟩
    rw [becomeFollower_eq_ok hr']
    exact ⟨rfl, hlead ht⟩
  rw [checkTerm]
  split
  · exact Ensures.pure ⟨h, fun _ _ => Or.inl rfl⟩
  split
  · split
    · exact Ensures.pure ⟨h, fun _ hf => by cases hf⟩
    refine Ensures.eval fun r₁ hstep => Ensures.pure ?_
    rw [stepHigherTerm] at hstep
    split at hstep
    · cases hstep
      exact ⟨h, fun _ _ => Or.inl rfl⟩
    · split at hstep
      · exact hfollow hstep fun _ => rfl
      · cases hstep
        exact ⟨h, fun _ _ => Or.inl rfl⟩
    · rename_i ht
      exact hfollow hstep fun ht' => by rw [ht] at ht'; cases ht'
    · rename_i ht
      exact hfollow hstep fun ht' => by rw [ht] at ht'; cases ht'
    · rename_i ht
      exact hfollow hstep fun ht' => by rw [ht] at ht'; cases ht'
    · exact hfollow hstep fun _ => rfl
  split
  · refine Ensures.eval fun r₁ hstep => Ensures.pure ⟨?_, fun _ hf => by cases hf⟩
    rw [stepLowerTerm] at hstep
    split at hstep
    · exact send_unread h ⟨by simp, by simp⟩ r₁ hstep
    split at hstep
    · exact send_unread h ⟨by simp, by simp⟩ r₁ hstep
    · exact Outcome.pure_eq_ok.mp hstep ▸ h
  · exact Ensures.pure ⟨h, fun _ _ => Or.inl rfl⟩

theorem stepVote_owes (h : r.Owes asked me) (m : Message) :
    Ensures (Owes asked me) (r.stepVote m) := by
  rw [stepVote]
  split
  · exact Ensures.pure h
  refine Ensures.eval fun granted _ => Ensures.eval fun respType hresp => ?_
  have hunread : respType ≠ MessageType.msgReadIndex ∧ respType ≠ MessageType.msgReadIndexResp := by
    unfold voteRespMsgType at hresp
    split at hresp
    · cases hresp
      exact ⟨by simp, by simp⟩
    · cases hresp
      exact ⟨by simp, by simp⟩
    · cases hresp
  split
  · refine Ensures.bind (send_unread h hunread) fun r₁ h₁ => ?_
    split
    · exact Ensures.pure (h₁.congr rfl)
    · exact Ensures.pure h₁
  · exact send_unread h hunread

/-- **A step** keeps the books, if requests of other nodes are neither passed on nor answered by the
only voter. -/
theorem step_owes (h : r.Owes asked me) (hm : r.Brings asked m) (hroutes : r.Routes m) :
    Ensures (fun p => p.1.Owes asked me) (r.step m) := by
  refine Ensures.bind (checkTerm_owes h m) fun p hp => ?_
  obtain ⟨r₁, continues⟩ := p
  obtain ⟨h₁, hsame⟩ := hp
  dsimp only at h₁ hsame ⊢
  have hid : r₁.id = r.id := h₁.id.trans h.id.symm
  split
  · exact Ensures.pure h₁
  rename_i hcontinues
  have hm₁ : r₁.Brings asked m := by
    refine ⟨fun ht ctx hctx => ?_, fun ht ctx hctx => ?_⟩
    · rw [origin, hid]
      exact hm.request ht ctx hctx
    · rw [hid]
      exact hm.answer ht ctx hctx
  have hown : m.type = MessageType.msgReadIndex → (r₁.state = RaftState.follower ∧ r₁.lead ≠ 0 ∨
      r₁.state = RaftState.leader ∧ ¬ 1 < r₁.quorum) → m.fromId = 0 ∨ m.fromId = r₁.id := by
    intro ht hbad
    by_contra hother
    rw [not_or, hid] at hother
    obtain ⟨hfollower, hleader⟩ := hroutes ht hother.1 hother.2
    rcases hsame ht (by simpa using hcontinues) with rfl | ⟨hs, hlead⟩
    · rcases hbad with ⟨hs, hlead⟩ | ⟨hs, hquorum⟩
      · exact hlead (hfollower hs)
      · exact hquorum (hleader hs)
    · rcases hbad with ⟨-, hlead'⟩ | ⟨hs', -⟩
      · exact hlead' hlead
      · rw [hs] at hs'
        cases hs'
  split
  · rw [stepHup]
    refine Ensures.bind (Q := Owes asked me) ?_ fun _ hs => Ensures.pure hs
    split
    · exact Ensures.pure h₁
    refine Ensures.eval fun status _ => ?_
    split
    · exact Ensures.throw
    split
    · exact Ensures.pure h₁
    · exact campaign_owes h₁ _
  · exact Ensures.bind (stepVote_owes h₁ m) fun _ hs => Ensures.pure hs
  · exact Ensures.bind (stepVote_owes h₁ m) fun _ hs => Ensures.pure hs
  · rw [stepRole]
    split
    · rename_i hs
      exact stepFollower_owes h₁ hm₁ fun ht hlead => hown ht (Or.inl ⟨hs, hlead⟩)
    · exact stepCandidate_owes h₁ m
    · exact stepCandidate_owes h₁ m
    · rename_i hs
      exact stepLeader_owes h₁ hm₁ fun ht hquorum => hown ht (Or.inr ⟨hs, hquorum⟩)

/-- A message that has nothing to do with reads. -/
lemma step_unread (h : r.Owes asked me) (hm : m.Unread) :
    Ensures (fun p => p.1.Owes asked me) (r.step m) :=
  step_owes h ⟨fun ht => absurd ht hm.1, fun ht => absurd ht hm.2⟩ fun ht => absurd ht hm.1

theorem tick_owes (h : r.Owes asked me) : Ensures (Owes asked me) r.tick := by
  have hheartbeat : ∀ {s : Raft}, s.Owes asked me → Ensures (Owes asked me) s.heartbeatTick := by
    intro s hs
    rw [heartbeatTick]
    split
    · exact Ensures.pure hs
    split
    · refine Ensures.bind (step_unread ?_ ⟨by simp, by simp⟩) fun _ hp => Ensures.pure hp
      exact hs.congr rfl
    · exact Ensures.pure hs
  have hpassed : ∀ {s : Raft}, s.Owes asked me → Ensures (Owes asked me) s.electionTimeoutPassed := by
    intro s hs
    have hquorum : Ensures (Owes asked me) s.checkQuorumTick := by
      rw [checkQuorumTick]
      split
      · exact Ensures.bind (step_unread hs ⟨by simp, by simp⟩) fun _ hp => Ensures.pure hp
      · exact Ensures.pure hs
    refine Ensures.bind hquorum fun s₁ h₁ => ?_
    split
    · exact Ensures.pure (h₁.congr rfl)
    · exact Ensures.pure h₁
  rw [tick]
  split
  · rw [tickHeartbeat]
    dsimp only
    split
    · exact Ensures.bind (hpassed (h.congr rfl)) fun _ hs => hheartbeat hs
    · exact hheartbeat (h.congr rfl)
  · rw [tickElection]
    dsimp only
    split
    · refine Ensures.bind (step_unread ?_ ⟨by simp, by simp⟩) fun _ hp => Ensures.pure hp
      exact h.congr rfl
    · exact Ensures.pure (h.congr rfl)

/-! ## The start, and configuration changes -/

theorem Owes.regrouped (h : r.Owes asked me) (hgroup : Regrouped r r') : r'.Owes asked me := by
  cases hgroup with
  | same => exact h
  | entered hnew hset =>
      rw [setProgress_frame hset]
      exact h.congr rfl
  | promoted => exact h.congr rfl
  | removed id => exact h.congr rfl

theorem changeMembers_owes (h : r.Owes asked me) (cc : ConfChange) :
    Ensures (Owes asked me) (RawNode.changeMembers r cc) := by
  rw [RawNode.changeMembers]
  split
  · exact fun r' hr' => h.regrouped (Deeds.addNodeOrLearner hr')
  · exact fun r' hr' => h.regrouped (Deeds.addNodeOrLearner hr')
  · have h₁ : (r.delProgress cc.nodeId).Owes asked me := h.congr rfl
    rw [removeNode]
    dsimp only
    split
    · exact Ensures.pure h₁
    refine Ensures.bind (maybeCommit_owes h₁) fun p hp => ?_
    refine Ensures.bind (sendAfterAck_owes hp _ _ _) fun r₂ h₂ => ?_
    split
    · exact Ensures.pure (h₂.congr rfl)
    · exact Ensures.pure h₂
  · exact Ensures.pure h
  · exact Ensures.throw

/-- A node starts without any read. -/
theorem init_owes {c : Config} (hc : c.id ≠ 0) : Ensures (Owes asked c.id) (init c) := by
  rw [init]
  dsimp only
  split
  · exact Ensures.throw
  refine Ensures.bind (Q := Owes asked c.id) ?_ fun r₁ h₁ => ?_
  · refine Ensures.foldlM ⟨rfl, hc, ?_, ?_, ?_⟩ fun s learner _ hs => ?_
    · exact fun rs hrs => by cases hrs
    · exact fun key status hs => by simp at hs
    · exact fun m hm => by cases hm
    · intro s' hs'
      rw [initLearner_frame hs']
      exact hs.congr rfl
  refine Ensures.bind (Q := Owes asked c.id) ?_ fun r₂ h₂ => ?_
  · rw [restoreState]
    split
    · exact Ensures.pure h₁
    · rw [loadState]
      split
      · exact Ensures.throw
      · exact Ensures.pure (h₁.congr rfl)
  · split
    · have h₃ : Owes asked c.id { r₂ with raftLog := r₂.raftLog.appliedTo c.applied } := h₂.congr rfl
      exact becomeFollower_owes h₃ _ _
    · exact becomeFollower_owes h₂ _ _

/-! ## What a leader serves -/

/-- A leader serves a request: at once, as the only voter or within its lease, or when a heartbeat
answer completes the acknowledgements. -/
inductive Serves (r : Raft) (m : Message) : Message → Prop
  | alone (ht : m.type = MessageType.msgReadIndex) (hquorum : ¬ 1 < r.quorum) : Serves r m m
  | lease (ht : m.type = MessageType.msgReadIndex) (hquorum : 1 < r.quorum)
      (hoption : r.readOnly.option = ReadOnlyOption.readOnlyLeaseBased)
      (hcurrent : (r.raftLog.term r.raftLog.committed).toOption = some r.term) : Serves r m m
  | released (ht : m.type = MessageType.msgHeartbeatResp)
      (hknown : (r.getProgress m.fromId).isSome = true)
      (hoption : r.readOnly.option = ReadOnlyOption.readOnlySafe) (hctx : m.context ≠ [])
      (hacks : r.quorum ≤ (r.readOnly.recvAck m).2) {readOnly : ReadOnly}
      {rss : List ReadIndexStatus}
      (hadvance : (r.readOnly.recvAck m).1.advance m = Except.ok (readOnly, rss))
      {rs : ReadIndexStatus} (hrs : rs ∈ rss) : Serves r m rs.req

/-- A queued answer to a request of another node. -/
def Answers (r : Raft) (req : Message) : Prop :=
  ∃ a ∈ r.msgs, a.type = MessageType.msgReadIndexResp ∧ a.toId = req.fromId ∧
    a.entries = req.entries

lemma respondRead_answers {req : Message} {index : Nat} (hremote : req.fromId ≠ 0 ∧ req.fromId ≠ r.id)
    (h : r.respondRead req index = Except.ok r') : r'.Answers req := by
  rw [respondRead, if_neg (not_or.mpr hremote)] at h
  rw [(send_eq_ok h).1]
  exact ⟨_, List.mem_append_right _ (List.mem_singleton_self _), signed_type .., signed_toId ..,
    signed_entries ..⟩

lemma respondRead_keeps {req req' : Message} {index : Nat} (hr : r.Answers req')
    (h : r.respondRead req index = Except.ok r') : r'.Answers req' := by
  obtain ⟨a, ha, hanswer⟩ := hr
  rw [respondRead] at h
  split at h
  · obtain ⟨ctx, -, h⟩ := Outcome.bind_eq_ok.mp h
    rw [← Outcome.pure_eq_ok.mp h]
    exact ⟨a, ha, hanswer⟩
  · rw [(send_eq_ok h).1]
    exact ⟨a, List.mem_append_left _ ha, hanswer⟩

/-- Every request of a list is answered. -/
lemma respondReads_answers {rss : List ReadIndexStatus}
    (h : rss.foldlM (fun r rs => r.respondRead rs.req rs.index) r = Except.ok r') :
    ∀ rs ∈ rss, rs.req.fromId ≠ 0 ∧ rs.req.fromId ≠ r.id → r'.Answers rs.req := by
  induction rss generalizing r with
  | nil => exact fun rs hrs => by cases hrs
  | cons rs rss ih =>
      rw [List.foldlM_cons] at h
      obtain ⟨r₁, hround, hrest⟩ := Outcome.bind_eq_ok.mp h
      have hid : r₁.id = r.id := (respondRead_samePeers hround).1.id
      intro s hs hremote
      rcases List.mem_cons.mp hs with rfl | hs
      · exact Outcome.foldlM_induct (P := fun t => t.Answers s.req)
          (fun _ _ _ _ ht hround => respondRead_keeps ht hround)
          (respondRead_answers hremote hround) hrest
      · exact ih hrest s hs (hid ▸ hremote)

/-- **A leader that serves a request of another node sends that node the answer.** -/
theorem step_serves {req : Message} {status : Status} (hl : r.state = RaftState.leader)
    (hterm : r.ownTerm m = true) (hserves : r.Serves m req) (hroutes : r.Routes m)
    (hremote : req.fromId ≠ 0 ∧ req.fromId ≠ r.id) (h : r.step m = Except.ok (r', status)) :
    r'.Answers req := by
  have hkeeps : r.KeepsTerm m := by
    refine Or.inl ?_
    simp only [ownTerm, Bool.or_eq_true, beq_iff_eq] at hterm
    omega
  have hstep : r.stepLeader m = Except.ok (r', status) := by
    rcases step_leader hl hkeeps h with ⟨-, hstep, -⟩ | ⟨-, hother | hother⟩
    · exact hstep
    · rw [hother] at hterm
      cases hterm
    · cases hserves with
      | alone ht | lease ht | released ht => rw [ht] at hother; cases hother
  cases hserves with
  | alone ht hquorum => exact absurd ((hroutes ht hremote.1 hremote.2).2 hl) hquorum
  | lease ht hquorum hoption hcurrent =>
      simp only [stepLeader, ht] at hstep
      obtain ⟨r₁, hread, hstep⟩ := Outcome.bind_eq_ok.mp hstep
      cases hstep
      rw [stepLeaderReadIndex, if_pos hquorum, hcurrent, if_neg (by simp), hoption] at hread
      exact respondRead_answers hremote hread
  | @released ht hknown hoption hctx hacks readOnly rss hadvance rs hrs =>
      obtain ⟨pr, hpr⟩ := Option.isSome_iff_exists.mp hknown
      simp only [stepLeader, ht, hpr] at hstep
      obtain ⟨r₁, hpeer, hstep⟩ := Outcome.bind_eq_ok.mp hstep
      cases hstep
      rw [stepLeaderPeer, ht] at hpeer
      obtain ⟨r₂, hpeers, hsame, hrelease⟩ := stepHeartbeatResp_split hpr hpeer
      rw [releaseReads, hsame.readOnly, if_neg (by simp [hoption, hctx])] at hrelease
      dsimp only at hrelease
      rw [hpeers.quorum, if_neg (Nat.not_lt.mpr hacks), hadvance] at hrelease
      refine respondReads_answers hrelease rs hrs ⟨hremote.1, ?_⟩
      exact hpeers.id ▸ hremote.2

end Raft

end RaftKv
