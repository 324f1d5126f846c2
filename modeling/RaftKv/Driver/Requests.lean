import RaftKv.Driver.ConfChanges

/-!
# Requests that a node refuses or passes on

**Proposals.**  A follower and a candidate refuse a proposal before they write anything.  A leader
closes its gate for configuration changes first and looks at the quota afterwards:
`Raft.proposal_dropped_iff` says **when a dropped proposal changes nothing**.

**Transfers.**  The target of a leadership transfer is the sender of the request, and whoever passes
a request on signs it: `RawNode.transferThrough_target` says that **a request that is passed on loses
its target**.
-/

namespace RaftKv

open RaftLog

namespace Raft

/-! ## The gate for configuration changes -/

/-- A gate that is closed to the whole proposal stays where it is. -/
lemma admitConfChanges_kept {last applied p : Nat} {es : List Entry}
    (h : ∀ e ∈ es, e.type = EntryType.entryConfChange → applied < p) :
    ∀ i, (admitConfChanges last applied i p es).2 = p := by
  induction es with
  | nil =>
      intro i
      rfl
  | cons e es ih =>
      intro i
      have hrest := ih (fun x hx => h x (List.mem_cons_of_mem _ hx)) (i + 1)
      simp only [admitConfChanges]
      by_cases htype : e.type = EntryType.entryConfChange
      · have hclosed := h e (List.mem_cons_self ..) htype
        rw [if_pos htype, if_pos hclosed]
        exact hrest
      · rw [if_neg htype]
        exact hrest

/-- A gate that is open to a configuration change moves behind the log. -/
lemma admitConfChanges_moved {last applied : Nat} (happlied : applied ≤ last) {es : List Entry} :
    ∀ {i p : Nat}, p ≤ applied → (∃ e ∈ es, e.type = EntryType.entryConfChange) →
      last < (admitConfChanges last applied i p es).2 := by
  induction es with
  | nil =>
      rintro i p hopen ⟨e, he, -⟩
      cases he
  | cons e es ih =>
      rintro i p hopen ⟨x, hx, hconf⟩
      simp only [admitConfChanges]
      by_cases htype : e.type = EntryType.entryConfChange
      · rw [if_pos htype, if_neg (Nat.not_lt.mpr hopen)]
        dsimp only
        -- the gate has closed, and lets nothing of the rest pass
        rw [admitConfChanges_kept fun _ _ _ => by omega]
        omega
      · rw [if_neg htype]
        refine ih hopen ⟨x, ?_, hconf⟩
        rcases List.mem_cons.mp hx with rfl | hx
        · exact absurd hconf htype
        · exact hx

/-! ## Proposals that are dropped -/

/-- What a proposal may write. -/
def holdings (r : Raft) :=
  (r.raftLog, r.term, r.vote, r.prs, r.learnerPrs, r.msgs, r.uncommittedSize, r.pendingConfIndex)

/-- The proposal is not of a later term, and where a leader gets as far as its gate for configuration
changes, the gate is closed to all that the proposal holds. -/
def KeepsGate (r : Raft) (m : Message) : Prop :=
  m.term ≤ r.term ∧
    (r.state = RaftState.leader → r.id ∈ r.prs → r.leadTransferee = 0 →
      ∀ e ∈ m.entries, e.type = EntryType.entryConfChange →
        r.raftLog.applied < r.pendingConfIndex)

instance (r : Raft) (m : Message) : Decidable (r.KeepsGate m) :=
  inferInstanceAs (Decidable (_ ∧ (_ → _ → _ → ∀ e ∈ m.entries, _ → _)))

variable {r r' : Raft} {m : Message} {s : Status}

/-- A follower that drops a proposal does nothing. -/
lemma stepFollower_dropped (hm : m.type = MessageType.msgProp)
    (h : r.stepFollower m = Except.ok (r', s)) (hs : s ≠ Status.ok) : r' = r := by
  simp only [stepFollower, hm] at h
  split_ifs at h
  · cases h
    rfl
  · cases h
    rfl
  · obtain ⟨r₁, -, h⟩ := Outcome.bind_eq_ok.mp h
    cases h
    exact absurd rfl hs

/-- A leader that drops a proposal has not moved more than its gate. -/
lemma stepLeaderProp_dropped (h : r.stepLeaderProp m = Except.ok (r', s)) (hs : s ≠ Status.ok) :
    (r' = r ∧ (r.id ∉ r.prs ∨ r.leadTransferee ≠ 0)) ∨
      (r' = { r with pendingConfIndex := (r.admitted m.entries).2 } ∧ r.id ∈ r.prs ∧
        r.leadTransferee = 0) := by
  rw [stepLeaderProp] at h
  split at h
  · cases h
  split at h
  · rename_i hout
    cases h
    exact Or.inl ⟨rfl, Or.inl hout⟩
  rename_i hin
  split at h
  · rename_i htransfer
    cases h
    exact Or.inl ⟨rfl, Or.inr htransfer⟩
  rename_i htransfer
  obtain ⟨⟨r₁, ok⟩, happend, h⟩ := Outcome.bind_eq_ok.mp h
  rw [appendEntry] at happend
  dsimp only at happend h
  split at happend
  · cases happend
    cases h
    exact Or.inr ⟨rfl, not_not.mp hin, not_not.mp htransfer⟩
  · -- what is appended is not dropped
    obtain ⟨⟨l, last⟩, -, happend⟩ := Outcome.bind_eq_ok.mp happend
    dsimp only at happend
    split at happend
    · cases happend
    obtain ⟨⟨r₂, changed⟩, -, happend⟩ := Outcome.bind_eq_ok.mp happend
    cases happend
    obtain ⟨r₃, -, h⟩ := Outcome.bind_eq_ok.mp h
    cases h
    exact absurd rfl hs

/-- A role that drops a proposal has not moved more than the gate, and this only as a leader. -/
lemma stepRole_dropped (hm : m.type = MessageType.msgProp) (h : r.stepRole m = Except.ok (r', s))
    (hs : s ≠ Status.ok) :
    (r' = r ∧ ¬ (r.state = RaftState.leader ∧ r.id ∈ r.prs ∧ r.leadTransferee = 0)) ∨
      (r' = { r with pendingConfIndex := (r.admitted m.entries).2 } ∧
        r.state = RaftState.leader ∧ r.id ∈ r.prs ∧ r.leadTransferee = 0) := by
  by_cases hleader : r.state = RaftState.leader
  · simp only [stepRole, hleader, stepLeader, hm] at h
    rcases stepLeaderProp_dropped h hs with ⟨hsame, hout⟩ | ⟨hmoved, hin, htransfer⟩
    · refine Or.inl ⟨hsame, ?_⟩
      rintro ⟨-, hin, htransfer⟩
      rcases hout with hout | hout
      · exact hout hin
      · exact hout htransfer
    · exact Or.inr ⟨hmoved, hleader, hin, htransfer⟩
  · refine Or.inl ⟨?_, fun hall => hleader hall.1⟩
    rw [stepRole] at h
    split at h
    · exact stepFollower_dropped hm h hs
    · simp only [stepCandidate, hm] at h
      cases h
      rfl
    · simp only [stepCandidate, hm] at h
      cases h
      rfl
    · rename_i hstate
      exact absurd hstate hleader

/-- A proposal that is dropped was handled in the role of the node, or has ended its term. -/
lemma step_dropped (hm : m.type = MessageType.msgProp) (h : r.step m = Except.ok (r', s))
    (hs : s ≠ Status.ok) :
    (m.term ≤ r.term ∧ r.stepRole m = Except.ok (r', s)) ∨ (r.term < m.term ∧ r'.term = m.term) := by
  obtain ⟨⟨r₁, continues⟩, hcheck, h⟩ := Outcome.bind_eq_ok.mp h
  dsimp only at h
  split at h
  · cases h
    exact absurd rfl hs
  rename_i htrue
  simp only [hm] at h
  rw [checkTerm] at hcheck
  split_ifs at hcheck with hzero hhigh hlease hlow
  · cases hcheck
    exact Or.inl ⟨by omega, h⟩
  · cases hcheck
    simp at htrue
  · obtain ⟨r₂, hfollow, hcheck⟩ := Outcome.bind_eq_ok.mp hcheck
    cases hcheck
    simp only [stepHigherTerm, hm] at hfollow
    obtain rfl := becomeFollower_eq_ok hfollow
    -- the node knows no leader in the new term
    simp only [stepRole, stepFollower, hm] at h
    cases h
    exact Or.inr ⟨hhigh, rfl⟩
  · obtain ⟨r₂, -, hcheck⟩ := Outcome.bind_eq_ok.mp hcheck
    cases hcheck
    simp at htrue
  · cases hcheck
    exact Or.inl ⟨by omega, h⟩

/-- **When a dropped proposal changes nothing**: exactly when the gate for configuration changes is
closed to it, or is not reached. -/
theorem proposal_dropped_iff (hm : m.type = MessageType.msgProp)
    (h : r.step m = Except.ok (r', s)) (hs : s ≠ Status.ok) :
    (r.KeepsGate m → r'.holdings = r.holdings) ∧
      (r.raftLog.applied ≤ r.raftLog.lastIndex → r'.holdings = r.holdings → r.KeepsGate m) := by
  rcases step_dropped hm h hs with ⟨hterm, hrole⟩ | ⟨hterm, hnew⟩
  · rcases stepRole_dropped hm hrole hs with ⟨rfl, hout⟩ | ⟨rfl, hleader⟩
    · refine ⟨fun _ => rfl, fun _ _ => ⟨hterm, fun hs hin htransfer => ?_⟩⟩
      exact absurd ⟨hs, hin, htransfer⟩ hout
    · obtain ⟨hleader, hin, htransfer⟩ := hleader
      constructor
      · rintro ⟨-, hkeeps⟩
        simp only [holdings, Prod.mk.injEq, true_and]
        exact admitConfChanges_kept (hkeeps hleader hin htransfer) 0
      · intro happlied hsame
        refine ⟨hterm, fun _ _ _ e he hconf => ?_⟩
        by_contra hopen
        have hopen := Nat.not_lt.mp hopen
        have hmoved := admitConfChanges_moved (i := 0) happlied hopen ⟨e, he, hconf⟩
        simp only [holdings, Prod.mk.injEq, true_and] at hsame
        have hgate : (admitConfChanges r.raftLog.lastIndex r.raftLog.applied 0 r.pendingConfIndex
            m.entries).2 = r.pendingConfIndex := hsame
        omega
  · refine ⟨fun hkeeps => ?_, fun _ hsame => ?_⟩
    · exact absurd hkeeps.1 (Nat.not_le.mpr hterm)
    · simp only [holdings, Prod.mk.injEq] at hsame
      omega

end Raft

/-- The only node of its cluster, with a quota of one byte. -/
def tightConf : Config where
  id := 1
  electionTick := 10
  heartbeatTick := 1
  maxInflightMsgs := 1
  maxUncommittedEntriesSize := 1

def tightNode : RawNode :=
  (RawNode.start (fun _ => []) tightConf [{ id := 1 }]).toOption.get (by decide)

/-- A leader that has one uncommitted entry. -/
def tightLeader : Raft :=
  (([Call.ready, Call.store, Call.advance, Call.campaign, Call.ready, Call.store, Call.advance,
      Call.propose [1, 2]].foldlM (RunOf.exec (Driver.act fun _ => []) Orderly)
    { node := tightNode }).toOption.get (by decide)).node.raft

def confChangeProposal : Message where
  type := MessageType.msgProp
  entries := [{ type := EntryType.entryConfChange, data := [3] }]

/-- An entry of the usual type is dropped, and nothing has changed. -/
theorem Raft.proposal_dropped_iff_tight : ∃ r' s,
    tightLeader.step { type := MessageType.msgProp, entries := [{ data := [3] }] } =
      Except.ok (r', s) ∧ s ≠ Status.ok ∧ r'.holdings = tightLeader.holdings := by
  have hreached : (tightLeader.step { type := MessageType.msgProp, entries := [{ data := [3] }] }
      ).toOption.any (fun p => decide (p.2 ≠ Status.ok)) = true := by
    decide
  obtain ⟨⟨r', s⟩, hstep, hreached⟩ := (Option.any_eq_true ..).mp hreached
  have hstep := Outcome.eq_ok_of_toOption hstep
  have hs := of_decide_eq_true hreached
  exact ⟨r', s, hstep, hs, (proposal_dropped_iff rfl hstep hs).1 (by decide)⟩

/-- The configuration change is dropped, and the gate is closed all the same: the index of the
pending change is that of an entry that the log does not hold. -/
theorem Raft.proposal_dropped_gate : ∃ r' s,
    tightLeader.step confChangeProposal = Except.ok (r', s) ∧ s ≠ Status.ok ∧
    tightLeader.pendingConfIndex = 1 ∧ r'.pendingConfIndex = 4 ∧ r'.raftLog.lastIndex = 3 := by
  have hreached : (tightLeader.step confChangeProposal).toOption.any (fun p =>
      decide (p.2 ≠ Status.ok ∧ tightLeader.pendingConfIndex = 1 ∧ p.1.pendingConfIndex = 4 ∧
        p.1.raftLog.lastIndex = 3)) = true := by
    decide
  obtain ⟨⟨r', s⟩, hstep, hreached⟩ := (Option.any_eq_true ..).mp hreached
  exact ⟨r', s, Outcome.eq_ok_of_toOption hstep, of_decide_eq_true hreached⟩

/-! ## Transfers that are passed on -/

namespace Raft

variable {r r' : Raft} {m : Message}

/-- Sending entries or a snapshot to a peer does not concern a transfer. -/
lemma maybeSendAppend_transferee {toId : Nat} {sendIfEmpty sent : Bool}
    (h : r.maybeSendAppend toId sendIfEmpty = Except.ok (r', sent)) :
    r'.leadTransferee = r.leadTransferee := by
  rw [maybeSendAppend] at h
  split at h
  · cases h
  split at h
  · cases h
    rfl
  obtain ⟨res, -, h⟩ := Outcome.bind_eq_ok.mp h
  dsimp only at h
  split at h
  · cases h
    rfl
  split at h
  · obtain ⟨pr', -, h⟩ := Outcome.bind_eq_ok.mp h
    obtain ⟨r₁, hsend, h⟩ := Outcome.bind_eq_ok.mp h
    cases h
    rw [(send_eq_ok hsend).1]
    rfl
  · rw [sendSnapshot] at h
    split at h
    · cases h
      rfl
    dsimp only at h
    split at h
    · cases h
    obtain ⟨r₁, hsend, h⟩ := Outcome.bind_eq_ok.mp h
    cases h
    rw [(send_eq_ok hsend).1]
    rfl

/-- What a leader makes of a request for a transfer to a voter that is not its current target. -/
lemma stepTransferLeader_target {pr : Progress} (h : r.stepTransferLeader m pr = Except.ok r') :
    (r'.leadTransferee = r.leadTransferee ∨ r'.leadTransferee = 0 ∨ r'.leadTransferee = m.fromId) ∧
      (pr.isLearner = false → m.fromId ≠ r.id → r'.leadTransferee = m.fromId) := by
  rw [stepTransferLeader] at h
  split at h
  · rename_i hlearner
    cases h
    exact ⟨Or.inl rfl, fun hvoter => absurd hlearner (by simp [hvoter])⟩
  split at h
  · rename_i hsame
    cases h
    exact ⟨Or.inl rfl, fun _ _ => hsame.2⟩
  dsimp only at h
  split at h
  · rename_i hself
    cases h
    exact ⟨Or.inr (Or.inl rfl), fun _ hne => absurd hself hne⟩
  have htarget : r'.leadTransferee = m.fromId := by
    split at h
    · rw [(send_eq_ok h).1]
    · obtain ⟨⟨r₁, sent⟩, hsend, h⟩ := Outcome.bind_eq_ok.mp h
      cases h
      exact maybeSendAppend_transferee hsend
  exact ⟨Or.inr (Or.inr htarget), fun _ _ => htarget⟩

/-- A request for a transfer never makes anybody but its sender the target. -/
lemma step_transferLeader {s : Status} (hm : m.type = MessageType.msgTransferLeader)
    (hstate : r.state = RaftState.leader) (h : r.step m = Except.ok (r', s)) :
    r'.leadTransferee = r.leadTransferee ∨ r'.leadTransferee = 0 ∨
      r'.leadTransferee = m.fromId := by
  obtain ⟨⟨r₁, continues⟩, hcheck, h⟩ := Outcome.bind_eq_ok.mp h
  dsimp only at h
  have hleader : ∀ {s}, r.stepRole m = Except.ok (r', s) → r'.leadTransferee = r.leadTransferee ∨
      r'.leadTransferee = 0 ∨ r'.leadTransferee = m.fromId := by
    intro s hrole
    simp only [stepRole, hstate, stepLeader, hm] at hrole
    split at hrole
    · cases hrole
      exact Or.inl rfl
    · obtain ⟨r₂, hpeer, hrole⟩ := Outcome.bind_eq_ok.mp hrole
      cases hrole
      simp only [stepLeaderPeer, hm] at hpeer
      exact (stepTransferLeader_target hpeer).1
  simp only [hm] at h
  rw [checkTerm] at hcheck
  split_ifs at hcheck with hzero hhigh hlease hlow
  · cases hcheck
    exact hleader h
  · cases hcheck
    cases h
    exact Or.inl rfl
  · obtain ⟨r₂, hfollow, hcheck⟩ := Outcome.bind_eq_ok.mp hcheck
    cases hcheck
    simp only [stepHigherTerm, hm] at hfollow
    obtain rfl := becomeFollower_eq_ok hfollow
    -- of a later term, the node is a follower that knows no leader
    simp only [stepRole, stepFollower, hm] at h
    cases h
    exact Or.inr (Or.inl rfl)
  · obtain ⟨r₂, hlower, hcheck⟩ := Outcome.bind_eq_ok.mp hcheck
    cases hcheck
    cases h
    simp only [stepLowerTerm, hm, reduceCtorEq, or_self, and_false, if_false] at hlower
    cases hlower
    exact Or.inl rfl
  · cases hcheck
    exact hleader h

end Raft

namespace RawNode

/-- What is delivered to a node, one message after the other. -/
def deliver (n : RawNode) (ms : List Message) : Outcome RawNode :=
  ms.foldlM (fun n m => do let (n, _) ← n.step m; return n) n

/-- The node `f` is called for a transfer from `l` to `target`, and what it queues for `l` is
delivered. -/
def transferThrough (f l : RawNode) (target : Nat) : Outcome RawNode := do
  let f' ← f.transferLeadership l.raft.id target
  l.deliver ((f'.raft.msgs.drop f.raft.msgs.length).filter fun m => m.toId = l.raft.id)

variable {f l l' n : RawNode} {target : Nat}

lemma step_transferLeader {m : Message} {s : Status} (hm : m.type = MessageType.msgTransferLeader)
    (hl : l.raft.state = RaftState.leader) (h : l.step m = Except.ok (l', s)) :
    l'.raft.leadTransferee = l.raft.leadTransferee ∨ l'.raft.leadTransferee = 0 ∨
      l'.raft.leadTransferee = m.fromId := by
  rw [step] at h
  split at h
  · cases h
    exact Or.inl rfl
  split at h
  · obtain ⟨⟨r, s'⟩, hstep, h⟩ := Outcome.bind_eq_ok.mp h
    cases h
    exact Raft.step_transferLeader hm hl hstep
  · cases h
    exact Or.inl rfl

/-- A follower passes the request on, signed by itself, or does nothing. -/
lemma transferLeadership_follower (hf : f.raft.state = RaftState.follower) {lead : Nat}
    (h : f.transferLeadership lead target = Except.ok n) :
    n.raft.msgs = f.raft.msgs ∨ ∃ m, n.raft.msgs = f.raft.msgs ++ [m] ∧
      m.type = MessageType.msgTransferLeader ∧ m.fromId = f.raft.id := by
  obtain ⟨⟨n₁, s⟩, hstep, h⟩ := Outcome.bind_eq_ok.mp h
  cases h
  obtain ⟨⟨r, s'⟩, hstep, h⟩ := Outcome.bind_eq_ok.mp hstep
  cases h
  obtain ⟨⟨r₁, continues⟩, hcheck, hstep⟩ := Outcome.bind_eq_ok.mp hstep
  simp only [Raft.checkTerm, if_true] at hcheck
  cases hcheck
  have hrole : f.raft.stepFollower
      { type := MessageType.msgTransferLeader, fromId := target, toId := lead } =
      Except.ok (r, s) := by
    simpa [Raft.stepRole, hf] using hstep
  simp only [Raft.stepFollower] at hrole
  split at hrole
  · cases hrole
    exact Or.inl rfl
  · obtain ⟨r₂, hsend, hrole⟩ := Outcome.bind_eq_ok.mp hrole
    cases hrole
    rw [(Raft.send_eq_ok hsend).1]
    exact Or.inr ⟨_, rfl, by simp, by simp⟩

/-- **A transfer that goes through a follower never reaches its target**, and one that the leader is
called for does. -/
theorem transferThrough_target (hf : f.raft.state = RaftState.follower)
    (hl : l.raft.state = RaftState.leader) (hnone : target ≠ 0) (hself : target ≠ l.raft.id)
    (hother : target ≠ f.raft.id) (hnew : target ≠ l.raft.leadTransferee) :
    (∀ l', f.transferThrough l target = Except.ok l' → l'.raft.leadTransferee ≠ target) ∧
    ((∃ pr, l.raft.getProgress target = some pr ∧ pr.isLearner = false) →
      ∀ l', l.transferLeadership l.raft.id target = Except.ok l' →
        l'.raft.leadTransferee = target) := by
  constructor
  · intro l' h
    obtain ⟨f', hcall, h⟩ := Outcome.bind_eq_ok.mp h
    rcases transferLeadership_follower hf hcall with hmsgs | ⟨m, hmsgs, hm, hfrom⟩
    · rw [hmsgs, List.drop_length] at h
      cases h
      exact hnew.symm
    · rw [hmsgs, List.drop_left, List.filter_cons, List.filter_nil] at h
      split at h
      · obtain ⟨n, hn, h⟩ := Outcome.bind_eq_ok.mp h
        cases h
        obtain ⟨⟨n₁, s⟩, hstep, hn⟩ := Outcome.bind_eq_ok.mp hn
        cases hn
        have hkept := step_transferLeader hm hl hstep
        omega
      · cases h
        exact hnew.symm
  · rintro ⟨pr, hpr, hvoter⟩ l' h
    obtain ⟨⟨n₁, s⟩, hstep, h⟩ := Outcome.bind_eq_ok.mp h
    cases h
    obtain ⟨⟨r, s'⟩, hstep, h⟩ := Outcome.bind_eq_ok.mp hstep
    cases h
    obtain ⟨⟨r₁, continues⟩, hcheck, hstep⟩ := Outcome.bind_eq_ok.mp hstep
    simp only [Raft.checkTerm, if_true] at hcheck
    cases hcheck
    have hrole : (do
        let r ← l.raft.stepTransferLeader
          { type := MessageType.msgTransferLeader, fromId := target, toId := l.raft.id } pr
        return (r, Status.ok)) = Except.ok (r, s) := by
      simpa [Raft.stepRole, hl, Raft.stepLeader, hpr, Raft.stepLeaderPeer] using hstep
    obtain ⟨r₂, hpeer, hrole⟩ := Outcome.bind_eq_ok.mp hrole
    cases hrole
    exact (Raft.stepTransferLeader_target hpeer).2 hvoter hself

/-- One of three nodes. -/
def threeConf (id : Nat) : Config where
  id := id
  peers := [1, 2, 3]
  electionTick := 10
  heartbeatTick := 1
  maxInflightMsgs := 1

/-- Node 1, elected by node 2. -/
def threeLeader : RawNode :=
  (do
    let n ← RawNode.restart (threeConf 1)
    let (n, _) ← n.campaign
    let (n, _) ← n.step { type := MessageType.msgVoteResp, fromId := 2, toId := 1, term := 1 }
    return n : Outcome RawNode).toOption.get (by decide)

/-- Node 2, which has heard of its leader. -/
def threeFollower : RawNode :=
  (do
    let n ← RawNode.restart (threeConf 2)
    let (n, _) ← n.step { type := MessageType.msgHeartbeat, fromId := 1, toId := 2, term := 1 }
    return n : Outcome RawNode).toOption.get (by decide)

/-- Node 2 asks for a transfer to node 3, and becomes the target itself. -/
theorem transferThrough_three : ∃ l' : RawNode,
    threeFollower.raft.lead = 1 ∧ threeLeader.raft.leadTransferee = 0 ∧
    threeFollower.transferThrough threeLeader 3 = Except.ok l' ∧ l'.raft.leadTransferee = 2 ∧
    l'.raft.leadTransferee ≠ 3 := by
  have hreached : (threeFollower.transferThrough threeLeader 3).toOption.any (fun l' =>
      decide (l'.raft.leadTransferee = 2)) = true := by
    decide
  obtain ⟨l', hcall, hreached⟩ := (Option.any_eq_true ..).mp hreached
  have hcall := Outcome.eq_ok_of_toOption hcall
  exact ⟨l', by decide, by decide, hcall, of_decide_eq_true hreached,
    (transferThrough_target (by decide) (by decide) (by decide) (by decide) (by decide)
      (by decide)).1 l' hcall⟩

/-- The target is lost. -/
theorem transferThrough_lost : ∃ f l l' : RawNode, ∃ pr : Progress,
    f.raft.state = RaftState.follower ∧ f.raft.lead = l.raft.id ∧
    l.raft.state = RaftState.leader ∧ l.raft.leadTransferee = 0 ∧
    l.raft.getProgress 3 = some pr ∧ pr.isLearner = false ∧
    f.transferThrough l 3 = Except.ok l' ∧ l'.raft.leadTransferee = 2 := by
  have hpr : (threeLeader.raft.getProgress 3).any (fun pr => decide (pr.isLearner = false)) = true := by
    decide
  have hreached : (threeFollower.transferThrough threeLeader 3).toOption.any (fun l' =>
      decide (l'.raft.leadTransferee = 2)) = true := by
    decide
  obtain ⟨pr, hpr, hvoter⟩ := (Option.any_eq_true ..).mp hpr
  obtain ⟨l', hcall, hreached⟩ := (Option.any_eq_true ..).mp hreached
  exact ⟨threeFollower, threeLeader, l', pr, by decide, by decide, by decide, by decide, hpr,
    of_decide_eq_true hvoter, Outcome.eq_ok_of_toOption hcall, of_decide_eq_true hreached⟩

end RawNode

end RaftKv
