import RaftKv.Raft.Calls

/-!
# What a call can do to a node

Whatever a node is called with, what happens to its term, its vote, its role, its log and its
quotas is a chain of a few effects.

* `Effect` — **every single one of them**; all else a call does concerns messages, peers, clocks and
  reads.
* `Deed.effects` — a deed has effects, or leaves the ledger alone.
* `Effects.step`, `Effects.tick`, `Effects.changeMembers` — a call is a chain of effects.
-/

namespace RaftKv

namespace Raft

/-- One effect of a call with the message `m`. -/
inductive Effect (m : Message) : Raft → Raft → Prop
  | aside {r r' : Raft} (h : r'.ledger = r.ledger) : Effect m r r'
  | follow (r : Raft) {term : Nat} (h : r.term ≤ term) :
      Effect m r { r.resetTo term with state := RaftState.follower }
  | prepare (r : Raft) (h : r.state ≠ RaftState.leader) :
      Effect m r { r with state := RaftState.preCandidate }
  | stand (r : Raft) (h : r.state ≠ RaftState.leader) :
      Effect m r { r.resetTo (r.term + 1) with vote := r.id, state := RaftState.candidate }
  | lead (r : Raft) (h : r.state = RaftState.candidate) : Effect m r r.elected
  /-- A vote, which is repeated or the first one of the term. -/
  | vote (r : Raft) {v : Nat} (h : r.vote = v ∨ r.vote = 0) : Effect m r { r with vote := v }
  /-- A proposal that exceeds the quota is dropped. -/
  | refuse (r : Raft) (h : r.state = RaftState.leader) (es : List Entry) :
      Effect m r { r with pendingConfIndex := (r.admitted es).2 }
  | propose (r : Raft) (h : r.state = RaftState.leader) {es : List Entry}
      (hes : es = [{}] ∨ m.type = MessageType.msgProp ∧ es = m.entries) {r₁ : Raft}
      (hsize : { r with pendingConfIndex := (r.admitted es).2 }.increaseUncommittedSize
        (r.stamped es) = some r₁) {l : RaftLog} {last : Nat}
      (hlog : r.raftLog.append (r.stamped es) = Except.ok (l, last)) :
      Effect m r { r₁ with raftLog := l }
  | commit (r : Raft) {i : Nat} {l : RaftLog} (h : r.raftLog.commitTo i = Except.ok l) :
      Effect m r { r with raftLog := l }
  | append (r : Raft) (hm : m.type = MessageType.msgApp) (h : r.state = RaftState.follower)
      (hterm : m.term ≤ r.term) (hindex : r.raftLog.committed ≤ m.index) {l : RaftLog}
      {res : Option Nat}
      (hlog : r.raftLog.maybeAppend m.index m.logTerm m.commit m.entries = Except.ok (l, res)) :
      Effect m r { r with raftLog := l }
  | restore (r : Raft) (hm : m.type = MessageType.msgSnap) (h : r.state = RaftState.follower)
      (hindex : r.raftLog.committed < m.snapshot.metadata.index)
      (hmatch : r.raftLog.matchTerm m.snapshot.metadata.index m.snapshot.metadata.term = false) :
      Effect m r { r with raftLog := r.raftLog.restore m.snapshot }

/-- A chain of effects. -/
abbrev Effects (m : Message) : Raft → Raft → Prop := Relation.ReflTransGen (Effect m)

variable {r r' : Raft} {m m' : Message}

theorem Effects.aside (h : r'.ledger = r.ledger) : Effects m r r' :=
  Relation.ReflTransGen.single (Effect.aside h)

/-- **The effects of a deed.** -/
theorem Deed.effects (h : Deed m r r') : Effects m r r' := by
  cases h with
  | quiet h => exact Effects.aside (congrArg Prod.fst h)
  | post | sendEntries | sendSnapshot | answered | own | support | count | transfer | abort =>
      exact Effects.aside rfl
  | follow h lead => exact Relation.ReflTransGen.head (Effect.follow r h) (Effects.aside rfl)
  | prepare h => exact Relation.ReflTransGen.head (Effect.prepare r h) (Effects.aside rfl)
  | stand h => exact Relation.ReflTransGen.single (Effect.stand r h)
  | lead h => exact Relation.ReflTransGen.single (Effect.lead r h)
  | vote h => exact Relation.ReflTransGen.head (Effect.vote r h) (Effects.aside rfl)
  | refuse h es => exact Relation.ReflTransGen.single (Effect.refuse r h es)
  | propose h hes hsize hlog => exact Relation.ReflTransGen.single (Effect.propose r h hes hsize hlog)
  | commit h => exact Relation.ReflTransGen.single (Effect.commit r h)
  | append hm h hterm hindex hlog =>
      exact Relation.ReflTransGen.single (Effect.append r hm h hterm.le hindex hlog)
  | restore hm h hindex hmatch hr' =>
      refine Relation.ReflTransGen.head (Effect.restore r hm h hindex hmatch) (Effects.aside ?_)
      rw [hr']
      rfl

theorem Deeds.effects (h : Deeds m r r') : Effects m r r' := by
  induction h with
  | refl => exact Relation.ReflTransGen.refl
  | tail _ hdeed ih => exact ih.trans hdeed.effects

namespace Effects

/-- The effects of a message that brings neither entries nor a snapshot are those of any other. -/
theorem of_local (happ : m.type ≠ MessageType.msgApp) (hsnap : m.type ≠ MessageType.msgSnap)
    (hprop : m.type ≠ MessageType.msgProp) (h : Effects m r r') : Effects m' r r' := by
  refine Relation.ReflTransGen.mono (fun s s' hs => ?_) _ _ h
  cases hs with
  | aside h => exact Effect.aside h
  | follow h => exact Effect.follow s h
  | prepare h => exact Effect.prepare s h
  | stand h => exact Effect.stand s h
  | lead h => exact Effect.lead s h
  | vote h => exact Effect.vote s h
  | refuse h es => exact Effect.refuse s h es
  | propose h hes hsize hlog =>
      exact Effect.propose s h (hes.imp_right fun hp => absurd hp.1 hprop) hsize hlog
  | commit h => exact Effect.commit s h
  | append hm => exact absurd hm happ
  | restore hm => exact absurd hm hsnap

/-! ## Calls -/

/-- **A step is a chain of effects**, if the message carries a term where its type asks for one. -/
theorem step {status : Status} (hterm : m.term = 0 → m.type ≠ MessageType.msgApp ∧
      m.type ≠ MessageType.msgHeartbeat ∧ m.type ≠ MessageType.msgSnap)
    (h : r.step m = Except.ok (r', status)) : Effects m r r' := (Deeds.step hterm h).effects

theorem tick (h : r.tick = Except.ok r') : Effects m r r' := (Deeds.tick h).effects

theorem changeMembers {cc : ConfChange} (h : RawNode.changeMembers r cc = Except.ok r') :
    Effects m r r' := by
  obtain ⟨r₁, hgroup, hdeeds⟩ := Deeds.changeMembers (m := m) h
  exact (aside hgroup.ledger).trans hdeeds.effects

end Effects

end Raft

end RaftKv
