import RaftKv.Raft.Calls

/-!
# What a call queues

* `Raft.Leaves` — what a chain of deeds leaves behind: who the node is, a term that is no lower, and
  the messages behind those that were queued before.
* `Raft.Queued` — where the requests and the answers of a pre-vote among them come from, and that
  without a leadership transfer there are none that belong to one.
* `Raft.Outbox` — the same where the term of a new follower is left open.
-/

namespace RaftKv

namespace Raft

variable {r r' r'' : Raft} {m : Message} {status : Status}

/-- The message can lead to a campaign for a leadership transfer. -/
def Transfers (r : Raft) (m : Message) : Prop :=
  m.type = MessageType.msgTransferLeader ∨ r.leadTransferee ≠ 0 ∨
    m.type = MessageType.msgAppResp ∧ m.fromId = 0

/-- What is known of a message that a call with `m` queues. -/
structure Queued (m : Message) (r : Raft) (x : Message) : Prop where
  fromId : x.fromId = r.id
  granted : x.type = MessageType.msgPreVoteResp → x.reject = false →
    m.type = MessageType.msgPreVote ∧ x.toId = m.fromId ∧ x.term = m.term
  timeoutNow : x.type = MessageType.msgTimeoutNow → r.Transfers m
  transfer : x.type = MessageType.msgTransferLeader → m.type = MessageType.msgTransferLeader

/-- What a call with `m` leaves behind. -/
structure Leaves (m : Message) (r r' : Raft) : Prop where
  id : r'.id = r.id
  preVote : r'.preVote = r.preVote
  term : r.term ≤ r'.term
  leadTransferee : ¬ r.Transfers m → r'.leadTransferee = 0
  queued : ∃ sent, r'.msgs = r.msgs ++ sent ∧ ∀ x ∈ sent, Queued m r x ∧
    (x.type = MessageType.msgPreVote → r.term < x.term ∧ x.term ≤ r'.term + 1)

namespace Leaves

/-- Nothing is queued. -/
lemma quiet (hid : r'.id = r.id) (hpre : r'.preVote = r.preVote) (hterm : r.term ≤ r'.term)
    (hmsgs : r'.msgs = r.msgs)
    (htransferee : ¬ r.Transfers m → r'.leadTransferee = 0) : Leaves m r r' := by
  refine ⟨hid, hpre, hterm, htransferee, [], ?_, fun x hx => by cases hx⟩
  rw [hmsgs, List.append_nil]

lemma not_transferee (h : ¬ r.Transfers m) : r.leadTransferee = 0 := by
  by_contra hne
  exact h (Or.inr (Or.inl hne))

lemma refl (m : Message) (r : Raft) : Leaves m r r :=
  quiet rfl rfl (Nat.le_refl _) rfl not_transferee

lemma trans (h₁ : Leaves m r r') (h₂ : Leaves m r' r'') : Leaves m r r'' := by
  have htransfers : r'.Transfers m → r.Transfers m := by
    intro h
    by_contra hn
    rcases h with htype | htransferee | hanswer
    · exact hn (Or.inl htype)
    · exact htransferee (h₁.leadTransferee hn)
    · exact hn (Or.inr (Or.inr hanswer))
  obtain ⟨sent₁, hmsgs₁, hsent₁⟩ := h₁.queued
  obtain ⟨sent₂, hmsgs₂, hsent₂⟩ := h₂.queued
  refine ⟨h₂.id.trans h₁.id, h₂.preVote.trans h₁.preVote, h₁.term.trans h₂.term,
    fun hn => h₂.leadTransferee fun h => hn (htransfers h), sent₁ ++ sent₂, ?_, fun x hx => ?_⟩
  · rw [hmsgs₂, hmsgs₁, List.append_assoc]
  have hterm₁ := h₁.term
  have hterm₂ := h₂.term
  rcases List.mem_append.mp hx with hx | hx
  · obtain ⟨hq, hpre⟩ := hsent₁ x hx
    refine ⟨hq, fun ht => ⟨(hpre ht).1, ?_⟩⟩
    have := (hpre ht).2
    omega
  · obtain ⟨hq, hpre⟩ := hsent₂ x hx
    refine ⟨{ hq with
      fromId := hq.fromId.trans h₁.id
      timeoutNow := fun ht => htransfers (hq.timeoutNow ht) }, fun ht => ⟨?_, (hpre ht).2⟩⟩
    have := (hpre ht).1
    omega

/-- One message is queued. -/
lemma post {msg : Message} (hmsgs : r'.msgs = r.msgs ++ [r.signed msg]) (hid : r'.id = r.id)
    (hpre : r'.preVote = r.preVote) (hterm : r'.term = r.term)
    (htransferee : r'.leadTransferee = r.leadTransferee) (hqueued : Queued m r (r.signed msg))
    (hrequest : msg.type = MessageType.msgPreVote → msg.term = r.term + 1) : Leaves m r r' := by
  refine ⟨hid, hpre, hterm.ge, fun hn => htransferee.trans (not_transferee hn), _, hmsgs, ?_⟩
  intro x hx
  obtain rfl := List.mem_singleton.mp hx
  refine ⟨hqueued, fun ht => ?_⟩
  rw [signed_type] at ht
  rw [signed_term_of_isCampaign (by rw [ht]; rfl), hrequest ht, hterm]
  exact ⟨Nat.lt_succ_self _, Nat.le_refl _⟩

end Leaves

/-- A message that goes along with a proposal, a read or a transfer. -/
lemma not_forwarded {t : MessageType} (ht : m.type = MessageType.msgProp ∨
    m.type = MessageType.msgTransferLeader ∨ m.type = MessageType.msgReadIndex)
    (hprop : t ≠ MessageType.msgProp) (htransfer : t ≠ MessageType.msgTransferLeader)
    (hread : t ≠ MessageType.msgReadIndex) : m.type ≠ t := by
  rintro rfl
  rcases ht with ht | ht | ht
  exacts [hprop ht, htransfer ht, hread ht]

lemma Posted.queued {msg : Message} (h : Posted m r msg) : Queued m r (r.signed msg) := by
  refine ⟨r.signed_fromId msg, fun ht hr => ?_, fun ht => ?_, fun ht => ?_⟩
  all_goals rw [signed_type] at ht
  · rw [signed_reject] at hr
    rw [signed_term_of_isCampaign (by rw [ht]; rfl), signed_toId]
    cases h with
    | preGranted htype => exact ⟨htype, rfl, rfl⟩
    | preDenied => cases hr
    | forward htype => exact absurd ht (not_forwarded htype (by decide) (by decide) (by decide))
    | _ => cases ht
  · cases h with
    | timeoutNow htype htransferee =>
        rcases htype with htype | htype
        · exact Or.inl htype
        · by_cases hzero : r.leadTransferee = 0
          · exact Or.inr (Or.inr ⟨htype, htransferee.trans hzero⟩)
          · exact Or.inr (Or.inl hzero)
    | forward htype => exact absurd ht (not_forwarded htype (by decide) (by decide) (by decide))
    | _ => cases ht
  · cases h with
    | forward => exact ht
    | _ => cases ht

/-- A request for a pre-vote is of the next term. -/
lemma Posted.request {msg : Message} (h : Posted m r msg) (ht : msg.type = MessageType.msgPreVote) :
    msg.term = r.term + 1 := by
  cases h with
  | preVoteRequest => rfl
  | forward htype => exact absurd ht (not_forwarded htype (by decide) (by decide) (by decide))
  | _ => cases ht

lemma Queued.of_other {msg : Message} (ht : msg.type = MessageType.msgApp ∨
    msg.type = MessageType.msgSnap) : Queued m r (r.signed msg) := by
  refine ⟨r.signed_fromId msg, fun ht' _ => ?_, fun ht' => ?_, fun ht' => ?_⟩
  all_goals
    rw [signed_type] at ht'
    rcases ht with ht | ht <;> exact absurd (ht.symm.trans ht') (by decide)

lemma Deed.leaves (h : Deed m r r') : Leaves m r r' := by
  have hsame := @Leaves.not_transferee r m
  cases h with
  | quiet h =>
      simp only [dossier, ledger, Prod.mk.injEq] at h
      obtain ⟨⟨hid, hterm, -⟩, -, -, -, hmsgs, htransferee, -, -, hpre⟩ := h
      exact Leaves.quiet hid hpre hterm.ge hmsgs fun hn => htransferee.trans (hsame hn)
  | post h => exact Leaves.post rfl rfl rfl rfl rfl h.queued h.request
  | sendEntries =>
      exact Leaves.post rfl rfl rfl rfl rfl (Queued.of_other (Or.inl rfl)) fun h => by cases h
  | sendSnapshot =>
      exact Leaves.post rfl rfl rfl rfl rfl (Queued.of_other (Or.inr rfl)) fun h => by cases h
  | transfer ht => exact Leaves.quiet rfl rfl (Nat.le_refl _) rfl fun hn => absurd (Or.inl ht) hn
  | abort | lead => exact Leaves.quiet rfl rfl (Nat.le_refl _) rfl fun _ => rfl
  | follow h => exact Leaves.quiet rfl rfl h rfl fun _ => rfl
  | stand => exact Leaves.quiet rfl rfl (Nat.le_succ _) rfl fun _ => rfl
  | propose h hes hsize hlog =>
      rw [increaseUncommittedSize] at hsize
      dsimp only at hsize
      split at hsize
      · cases hsize
      · cases hsize
        exact Leaves.quiet rfl rfl (Nat.le_refl _) rfl hsame
  | restore hm h hindex hmatch hr' =>
      rw [hr']
      exact Leaves.quiet rfl rfl (Nat.le_refl _) rfl hsame
  | _ => exact Leaves.quiet rfl rfl (Nat.le_refl _) rfl hsame

lemma Deeds.leaves (h : Deeds m r r') : Leaves m r r' := by
  induction h with
  | refl => exact Leaves.refl m _
  | tail _ hdeed ih => exact ih.trans hdeed.leaves

/-! ## Steps -/

/-- What a call with `m` queues, whatever becomes of the term. -/
structure Outbox (m : Message) (r r' : Raft) : Prop where
  id : r'.id = r.id
  preVote : r'.preVote = r.preVote
  leadTransferee : ¬ r.Transfers m → r'.leadTransferee = 0
  queued : ∃ sent, r'.msgs = r.msgs ++ sent ∧ ∀ x ∈ sent, Queued m r x ∧
    (x.type = MessageType.msgPreVote → r'.state ≠ RaftState.follower → r'.term = r.term →
      x.term = r.term + 1)

/-- The call starts with something that concerns neither the messages nor, unless the node becomes a
follower, the term. -/
lemma Leaves.outbox {s : Raft} (h : Leaves m s r') (hid : s.id = r.id) (hpre : s.preVote = r.preVote)
    (hmsgs : s.msgs = r.msgs) (htransferee : r.leadTransferee = 0 → s.leadTransferee = 0)
    (hterm : s.term = r.term ∨ r'.state = RaftState.follower) : Outbox m r r' := by
  have htransfers : s.Transfers m → r.Transfers m := by
    rintro (htype | hne | hanswer)
    · exact Or.inl htype
    · exact Or.inr (Or.inl fun hzero => hne (htransferee hzero))
    · exact Or.inr (Or.inr hanswer)
  obtain ⟨sent, hmsgs', hsent⟩ := h.queued
  refine ⟨h.id.trans hid, h.preVote.trans hpre, fun hn => h.leadTransferee fun ht =>
    hn (htransfers ht), sent, hmsgs ▸ hmsgs', fun x hx => ?_⟩
  obtain ⟨hq, hrequest⟩ := hsent x hx
  refine ⟨{ hq with
    fromId := hq.fromId.trans hid
    timeoutNow := fun ht => htransfers (hq.timeoutNow ht) }, fun ht hne heq => ?_⟩
  have hsame := hterm.resolve_right hne
  have hbounds := hrequest ht
  omega

/-- Only the answer to a pre-vote depends on the term of the message. -/
lemma Leaves.restamp (term : Nat) (hm : m.type ≠ MessageType.msgPreVote)
    (h : Leaves { m with term := term } r r') : Leaves m r r' := by
  obtain ⟨sent, hmsgs, hsent⟩ := h.queued
  refine ⟨h.id, h.preVote, h.term, h.leadTransferee, sent, hmsgs, fun x hx => ?_⟩
  obtain ⟨hq, hrequest⟩ := hsent x hx
  exact ⟨{ hq with granted := fun ht hr => absurd (hq.granted ht hr).1 hm }, hrequest⟩

/-- The messages of a leader to its followers. -/
def fromLeader : MessageType → Bool
  | MessageType.msgApp | MessageType.msgHeartbeat | MessageType.msgSnap => true
  | _ => false

lemma fromLeader_iff {t : MessageType} : fromLeader t = true ↔
    t = MessageType.msgApp ∨ t = MessageType.msgHeartbeat ∨ t = MessageType.msgSnap := by
  cases t <;> simp [fromLeader]

lemma handle_leaves (hs : r.state = RaftState.follower)
    (h : m.type = MessageType.msgApp ∧ r.handleAppendEntries m = Except.ok r' ∨
      m.type = MessageType.msgHeartbeat ∧ r.handleHeartbeat m = Except.ok r' ∨
      m.type = MessageType.msgSnap ∧ r.handleSnapshot m = Except.ok r') : Leaves m r r' := by
  rcases h with ⟨ht, h⟩ | ⟨ht, h⟩ | ⟨ht, h⟩
  · refine Leaves.restamp r.term (by rw [ht]; decide) (Deeds.leaves ?_)
    exact Deeds.handleAppendEntries (m := { m with term := r.term }) ht hs rfl h
  · exact (Deeds.handleHeartbeat ht h).leaves
  · exact (Deeds.handleSnapshot ht hs h).leaves

/-- A follower hears of its leader. -/
lemma stepFollower_leaves (hs : r.state = RaftState.follower) (ht : fromLeader m.type = true)
    (h : r.stepFollower m = Except.ok (r', status)) : Leaves m r r' := by
  have hheard : Leaves m r { r with electionElapsed := 0, lead := m.fromId } :=
    (Deeds.heard r m.fromId).leaves
  refine hheard.trans (handle_leaves hs ?_)
  rw [stepFollower] at h
  rcases fromLeader_iff.mp ht with ht | ht | ht
  all_goals
    rw [ht] at h
    obtain ⟨r₁, hhandle, h⟩ := Outcome.bind_eq_ok.mp h
    cases h
  · exact Or.inl ⟨ht, hhandle⟩
  · exact Or.inr (Or.inl ⟨ht, hhandle⟩)
  · exact Or.inr (Or.inr ⟨ht, hhandle⟩)

end Raft

end RaftKv
