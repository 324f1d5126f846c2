import RaftKv.Raft.Inversion
import RaftKv.Replication.Majority
import RaftKv.Replication.Preservation
import RaftKv.Safety.UncompactedLog

/-!
# How a node of a fixed cluster follows the abstract replication

A node that runs the protocol takes steps of `Replication.Step`.  What it knows of the others, it
knows from messages, and a message claims something about the abstract world that stays true.

* `Membership` — the voters and the log they all start with; its `setting` is the abstract one.
* `Claims` — what a message to a node claims.
* `Sim` — **the simulation relation** between the abstract world and one node.
* `Tracks` — the node has got where it is by abstract steps from a world `w₀`.
* `Tracks.send` — sending a message whose claim is true.
-/

namespace RaftKv

open Replication

/-- What the nodes of a cluster have in common. -/
structure Membership where
  voters : Finset Nat
  nonempty : voters.Nonempty
  boot : List Entry
  boot_term : ∀ e ∈ boot, e.term = 1
  boot_numbered : Numbered 1 boot
  /-- Whether some node may hold a pre-vote. -/
  preVote : Prop

namespace Membership

def setting (M : Membership) : Setting Nat Entry where
  termOf := Entry.term
  Quorum := Majority M.voters
  quorum_mono := Majority.mono
  quorum_inter := Majority.inter
  quorum_univ := Majority.univ M.nonempty
  term₀ := 1
  boot := M.boot
  boot_term := M.boot_term

/-- Only the initial log changes the configuration. -/
def Plain (M : Membership) (e : Entry) : Prop :=
  e.type = EntryType.entryConfChange → e ∈ M.boot

end Membership

variable {M : RaftKv.Membership} {w w' w₀ : World Nat Entry} {i j : Nat} {r r' : Raft} {m : Message}

/-! ## Terms of logs -/

theorem lastTerm_eq_termAt (M : Membership) (ℓ : List Entry) :
    M.setting.lastTerm ℓ = termAt ℓ ℓ.length := by
  rcases List.eq_nil_or_concat ℓ with rfl | ⟨p, e, rfl⟩
  · rfl
  · simp [Setting.lastTerm, termAt, Membership.setting]

theorem matching_of_good {ℓ₁ ℓ₂ : List Entry} (h₁ : Good M.setting w ℓ₁)
    (h₂ : Good M.setting w ℓ₂) : Matching ℓ₁ ℓ₂ :=
  fun _ _ _ hk₁ hk₂ hterm => h₁.matching h₂ hk₁ hk₂ hterm

theorem term_pos_of_good (h : Inv M.setting w) {ℓ : List Entry} (hg : Good M.setting w ℓ)
    {e : Entry} (he : e ∈ ℓ) : 0 < e.term := by
  obtain ⟨k, hk⟩ := List.getElem?_of_mem he
  rcases (hg.anchored k e hk).2 with h₀ | hne
  · exact Nat.lt_of_lt_of_eq Nat.one_pos (Eq.symm h₀)
  · obtain ⟨c, hc⟩ := Option.ne_none_iff_exists'.mp hne
    exact Nat.lt_of_le_of_lt (Nat.zero_le _) (h.lead_term hc).1

/-! ## What messages claim -/

/-- An append request is part of the log of its term's leader, which sent it. -/
structure AppClaim (M : Membership) (w : World Nat Entry) (toId : Nat) (m : Message) : Prop where
  other : m.fromId ≠ toId
  lead : w.lead m.term = some m.fromId
  index : m.index ≤ (w.llog m.term).length
  logTerm : m.logTerm = termAt (w.llog m.term) m.index
  entries : m.entries <+: (w.llog m.term).drop m.index
  commit_le : m.commit ≤ (w.llog m.term).length
  commit : w.Committed M.setting m.term ((w.llog m.term).take m.commit)

/-- A heartbeat commits only what its receiver has acknowledged. -/
structure HeartbeatClaim (M : Membership) (w : World Nat Entry) (toId : Nat) (m : Message) :
    Prop where
  other : m.fromId ≠ toId
  lead : w.lead m.term = some m.fromId
  commit_le : m.commit ≤ w.ack toId m.term
  commit : w.Committed M.setting m.term ((w.llog m.term).take m.commit)

/-- An answer to an append request was acknowledged. -/
structure AckClaim (w : World Nat Entry) (toId : Nat) (m : Message) : Prop where
  other : m.fromId ≠ toId
  term : m.term ≠ 0
  index : m.reject = false → m.index ≤ w.ack m.fromId m.term

/-- A vote request shows the log of a candidacy, and goes to a voter. -/
structure VoteClaim (M : Membership) (w : World Nat Entry) (toId : Nat) (m : Message) : Prop where
  voter : toId ∈ M.voters
  candidate : m.fromId ≠ 0
  log : ∃ ℓ, w.cand m.fromId m.term = some ℓ ∧ m.index = ℓ.length ∧
    m.logTerm = M.setting.lastTerm ℓ

/-- A granted vote was cast, by a voter. -/
structure GrantClaim (M : Membership) (w : World Nat Entry) (toId : Nat) (m : Message) :
    Prop where
  term : m.term ≠ 0
  granted : m.reject = false →
    m.fromId ∈ M.voters ∧ ∃ b, w.ballot m.fromId m.term = some b ∧ b.choice = toId

/-- A term with a leader or a candidate is not 0. -/
theorem AppClaim.term_pos {toId : Nat} (h : AppClaim M w toId m) (hinv : Inv M.setting w) :
    0 < m.term :=
  Nat.lt_of_le_of_lt (Nat.zero_le _) (hinv.lead_term h.lead).1

theorem HeartbeatClaim.term_pos {toId : Nat} (h : HeartbeatClaim M w toId m)
    (hinv : Inv M.setting w) : 0 < m.term :=
  Nat.lt_of_le_of_lt (Nat.zero_le _) (hinv.lead_term h.lead).1

theorem VoteClaim.term_pos {toId : Nat} (h : VoteClaim M w toId m) (hinv : Inv M.setting w) :
    0 < m.term := by
  obtain ⟨ℓ, hcand, -⟩ := h.log
  exact Nat.lt_of_le_of_lt (Nat.zero_le _) (hinv.cand_term hcand).1

/-- What the message `m` to the node `toId` claims. -/
def Claims (M : Membership) (w : World Nat Entry) (toId : Nat) (m : Message) : Prop :=
  match m.type with
  | MessageType.msgProp => ∀ e ∈ m.entries, e.type ≠ EntryType.entryConfChange
  | MessageType.msgApp => AppClaim M w toId m
  | MessageType.msgAppResp => AckClaim w toId m
  | MessageType.msgHeartbeat => HeartbeatClaim M w toId m
  | MessageType.msgHeartbeatResp => m.fromId ≠ toId
  | MessageType.msgVote => VoteClaim M w toId m
  | MessageType.msgVoteResp => GrantClaim M w toId m
  | MessageType.msgPreVote => M.preVote
  | MessageType.msgPreVoteResp => M.preVote ∧ m.term ≠ 0
  | MessageType.msgSnap => False
  | _ => True

theorem AppClaim.mono {toId : Nat} (h : AppClaim M w toId m) (hl : w.Later w') :
    AppClaim M w' toId m where
  other := h.other
  lead := hl.lead h.lead
  index := h.index.trans (hl.llog _).length_le
  logTerm := by rw [termAt_of_isPrefix (hl.llog _) h.index, h.logTerm]
  entries := h.entries.trans ((hl.llog _).drop _)
  commit_le := h.commit_le.trans (hl.llog _).length_le
  commit := by rw [hl.take_llog h.commit_le]; exact hl.committed h.commit

theorem HeartbeatClaim.mono {toId : Nat} (h : HeartbeatClaim M w toId m) (hinv : Inv M.setting w)
    (hl : w.Later w') : HeartbeatClaim M w' toId m where
  other := h.other
  lead := hl.lead h.lead
  commit_le := h.commit_le.trans (hl.ack _ _)
  commit := by
    rw [hl.take_llog (h.commit_le.trans (hinv.ack_le _ _))]
    exact hl.committed h.commit

theorem AckClaim.mono {toId : Nat} (h : AckClaim w toId m) (hl : w.Later w') :
    AckClaim w' toId m :=
  { h with index := fun hr => (h.index hr).trans (hl.ack _ _) }

theorem VoteClaim.mono {toId : Nat} (h : VoteClaim M w toId m) (hl : w.Later w') :
    VoteClaim M w' toId m := by
  obtain ⟨ℓ, hcand, hrest⟩ := h.log
  exact ⟨h.voter, h.candidate, ℓ, hl.cand hcand, hrest⟩

theorem GrantClaim.mono {toId : Nat} (h : GrantClaim M w toId m) (hl : w.Later w') :
    GrantClaim M w' toId m := by
  refine ⟨h.term, fun hr => ?_⟩
  obtain ⟨hvoter, b, hb, hchoice⟩ := h.granted hr
  exact ⟨hvoter, b, hl.ballot hb, hchoice⟩

/-- **A true claim stays true.** -/
theorem Claims.mono {toId : Nat} (h : Claims M w toId m) (hinv : Inv M.setting w)
    (hl : w.Later w') : Claims M w' toId m := by
  unfold Claims at h ⊢
  cases ht : m.type <;> simp only [ht] at h ⊢
  case msgProp => exact h
  case msgApp => exact AppClaim.mono h hl
  case msgAppResp => exact AckClaim.mono h hl
  case msgHeartbeat => exact HeartbeatClaim.mono h hinv hl
  case msgHeartbeatResp => exact h
  case msgVote => exact VoteClaim.mono h hl
  case msgVoteResp => exact GrantClaim.mono h hl
  case msgPreVote => exact h
  case msgPreVoteResp => exact h

/-! ## The simulation relation -/

namespace Raft

/-- The part of a node that the simulation is about. -/
def core (r : Raft) :=
  (r.id, r.term, r.vote, r.raftLog, r.prs, r.learnerPrs, r.state, r.votes, r.msgs, r.preVote)

end Raft

/-- What a leader knows about a peer. -/
structure ProgressSound (w : World Nat Entry) (r : Raft) (id : Nat) (p : Progress) : Prop where
  matched : p.matched ≤ w.ack id r.term
  next_pos : 1 ≤ p.next
  next_le : p.next ≤ r.raftLog.logical.length + 1
  state : p.state ≠ ProgressState.snapshot

structure Leadership (w : World Nat Entry) (r : Raft) : Prop where
  lead : w.lead r.term = some r.id
  own : r.raftLog.logical.length ≤ w.ack r.id r.term
  progress : ∀ id p, r.getProgress id = some p → ProgressSound w r id p

structure Candidacy (M : Membership) (w : World Nat Entry) (r : Raft) : Prop where
  cand : w.cand r.id r.term = some r.raftLog.logical
  lead : w.lead r.term ≠ some r.id
  votes : ∀ id, r.votes.lookup id = some true →
    (id = r.id ∨ id ∈ M.voters) ∧ ∃ b, w.ballot id r.term = some b ∧ b.choice = r.id

/-- The abstract world says of node `i` what `r` is. -/
structure Sim (M : Membership) (w : World Nat Entry) (i : Nat) (r : Raft) : Prop where
  nonzero : i ≠ 0
  id : r.id = i
  term : w.term i = r.term
  uncompacted : Uncompacted r.raftLog
  log : w.log i = r.raftLog.logical
  commit : w.commit i = r.raftLog.committed
  voters : r.prs.keys.toFinset = M.voters
  voted : r.vote ≠ 0 → ∃ b, w.ballot i r.term = some b ∧ b.choice = r.vote
  unvoted : r.vote = 0 → w.ballot i r.term = none
  candidate : r.state = RaftState.candidate → Candidacy M w r
  leader : r.state = RaftState.leader → Leadership w r
  preVote : r.preVote = true → M.preVote
  msgs : ∀ m ∈ r.msgs, Claims M w m.toId m
  numbered : ∀ t, Numbered 1 (w.llog t)
  plain : ∀ t, ∀ e ∈ w.llog t, M.Plain e

namespace Sim

/-- Fields outside the core do not matter. -/
theorem congr (h : Sim M w i r) (hcore : r'.core = r.core) : Sim M w i r' := by
  cases r
  cases r'
  simp only [Raft.core, Prod.mk.injEq] at hcore
  obtain ⟨rfl, rfl, rfl, rfl, rfl, rfl, rfl, rfl, rfl, rfl⟩ := hcore
  exact {
    nonzero := h.nonzero, id := h.id, term := h.term, uncompacted := h.uncompacted, log := h.log
    commit := h.commit, voters := h.voters, voted := h.voted, unvoted := h.unvoted
    candidate := fun hs => ⟨(h.candidate hs).cand, (h.candidate hs).lead, (h.candidate hs).votes⟩
    leader := fun hs => ⟨(h.leader hs).lead, (h.leader hs).own, fun id p hp =>
      let s := (h.leader hs).progress id p hp
      ⟨s.matched, s.next_pos, s.next_le, s.state⟩⟩
    preVote := h.preVote, msgs := h.msgs, numbered := h.numbered, plain := h.plain }

theorem term_pos (h : Sim M w i r) (hinv : Inv M.setting w) : 1 ≤ r.term :=
  h.term ▸ hinv.term_ge i

/-- Steps of the other nodes do not matter. -/
theorem frame (h : Sim M w j r) (hinv : Inv M.setting w) (hji : j ≠ i)
    (hs : Steps M.setting i w w') (hl : w.Later w')
    (hnum : ∀ t, Numbered 1 (w'.llog t)) (hplain : ∀ t, ∀ e ∈ w'.llog t, M.Plain e) :
    Sim M w' j r := by
  obtain ⟨hterm, hlog, hcommit, hballot, -, -⟩ := hs.frame hji
  exact {
    nonzero := h.nonzero, id := h.id, uncompacted := h.uncompacted, voters := h.voters
    preVote := h.preVote
    term := by rw [hterm, h.term]
    log := by rw [hlog, h.log]
    commit := by rw [hcommit, h.commit]
    voted := by rw [hballot]; exact h.voted
    unvoted := by rw [hballot]; exact h.unvoted
    candidate := fun hc => {
      cand := hl.cand (h.candidate hc).cand
      lead := fun hlead =>
        (h.candidate hc).lead (hs.lead_frame (by rw [h.id]; exact hji) hlead)
      votes := fun id hid => ((h.candidate hc).votes id hid).imp_right
        fun ⟨b, hb, hchoice⟩ => ⟨b, hl.ballot hb, hchoice⟩ }
    leader := fun hlead => {
      lead := hl.lead (h.leader hlead).lead
      own := (h.leader hlead).own.trans (hl.ack _ _)
      progress := fun id p hp =>
        let s := (h.leader hlead).progress id p hp
        { s with matched := s.matched.trans (hl.ack _ _) } }
    msgs := fun m hm => (h.msgs m hm).mono hinv hl
    numbered := hnum
    plain := hplain }

/-- A queued message must claim the truth. -/
theorem queue (h : Sim M w i r) (hclaim : Claims M w m.toId (r.signed m)) :
    Sim M w i { r with msgs := r.msgs ++ [r.signed m] } := by
  have hmsgs : ∀ x ∈ r.msgs ++ [r.signed m], Claims M w x.toId x := by
    intro x hx
    rcases List.mem_append.mp hx with hx | hx
    · exact h.msgs x hx
    · rw [List.mem_singleton.mp hx, Raft.signed_toId]
      exact hclaim
  exact { h with
    msgs := hmsgs
    candidate := fun hs => { h.candidate hs with }
    leader := fun hs => { h.leader hs with
      progress := fun id p hp => { (h.leader hs).progress id p hp with } } }

end Sim

/-! ## Following the world -/

/-- Node `i`, in state `r`, has got there by abstract steps from `w₀`. -/
def Tracks (M : Membership) (w₀ : World Nat Entry) (i : Nat) (r : Raft) : Prop :=
  ∃ w, Steps M.setting i w₀ w ∧ w₀.Later w ∧ Inv M.setting w ∧ Sim M w i r

namespace Tracks

theorem refl (hinv : Inv M.setting w) (h : Sim M w i r) : Tracks M w i r :=
  ⟨w, Relation.ReflTransGen.refl, World.Later.refl w, hinv, h⟩

/-- A change of the node that abstract steps follow. -/
theorem step (h : Tracks M w₀ i r)
    (f : ∀ w, Inv M.setting w → w₀.Later w → Sim M w i r →
      ∃ w', Steps M.setting i w w' ∧ Sim M w' i r') : Tracks M w₀ i r' := by
  obtain ⟨w, hs, hl, hinv, hsim⟩ := h
  obtain ⟨w', hs', hsim'⟩ := f w hinv hl hsim
  obtain ⟨hinv', hl'⟩ := hinv.steps hs'
  exact ⟨w', hs.trans hs', hl.trans hl', hinv', hsim'⟩

/-- A change of the node that needs no abstract step. -/
theorem map (h : Tracks M w₀ i r)
    (f : ∀ w, Inv M.setting w → w₀.Later w → Sim M w i r → Sim M w i r') : Tracks M w₀ i r' :=
  h.step fun w hinv hl hsim => ⟨w, Relation.ReflTransGen.refl, f w hinv hl hsim⟩

theorem congr (h : Tracks M w₀ i r) (hcore : r'.core = r.core) : Tracks M w₀ i r' :=
  h.map fun _ _ _ hsim => hsim.congr hcore

theorem id (h : Tracks M w₀ i r) : r.id = i := by
  obtain ⟨w, -, -, -, hsim⟩ := h
  exact hsim.id

theorem uncompacted (h : Tracks M w₀ i r) : Uncompacted r.raftLog := by
  obtain ⟨w, -, -, -, hsim⟩ := h
  exact hsim.uncompacted

theorem voters (h : Tracks M w₀ i r) : r.prs.keys.toFinset = M.voters := by
  obtain ⟨w, -, -, -, hsim⟩ := h
  exact hsim.voters

/-- Queueing a message whose claim is true. -/
theorem queue (h : Tracks M w₀ i r) (m : Message)
    (hclaim : ∀ w, Inv M.setting w → w₀.Later w → Sim M w i r → Claims M w m.toId (r.signed m)) :
    Tracks M w₀ i { r with msgs := r.msgs ++ [r.signed m] } :=
  h.map fun w hinv hl hsim => hsim.queue (hclaim w hinv hl hsim)

/-- **Sending a message whose claim is true.** -/
theorem send (h : Tracks M w₀ i r) (hsend : r.send m = Except.ok r')
    (hclaim : ∀ w, Inv M.setting w → w₀.Later w → Sim M w i r → Claims M w m.toId (r.signed m)) :
    Tracks M w₀ i r' := by
  rw [(Raft.send_eq_ok hsend).1]
  exact h.queue m hclaim

/-- Sending a message whose claim abstract steps make true. -/
theorem stepSend {r₁ : Raft} (h : Tracks M w₀ i r) (hsend : r₁.send m = Except.ok r')
    (f : ∀ w, Inv M.setting w → w₀.Later w → Sim M w i r →
      ∃ w', Steps M.setting i w w' ∧ Sim M w' i r₁ ∧ Claims M w' m.toId (r₁.signed m)) :
    Tracks M w₀ i r' := by
  rw [(Raft.send_eq_ok hsend).1]
  refine h.step fun w hinv hl hsim => ?_
  obtain ⟨w', hsteps, hsim', hclaim⟩ := f w hinv hl hsim
  exact ⟨w', hsteps, hsim'.queue hclaim⟩

/-- Sending a message that claims nothing. -/
theorem send_claimless (h : Tracks M w₀ i r) (hsend : r.send m = Except.ok r')
    (hclaim : ∀ w m', m'.type = m.type → Claims M w m.toId m') : Tracks M w₀ i r' :=
  h.send hsend fun w _ _ _ => hclaim w _ (Raft.signed_type r m)

end Tracks

end RaftKv
