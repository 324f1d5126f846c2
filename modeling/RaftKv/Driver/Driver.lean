import RaftKv.Core.Run
import RaftKv.Raft.Effects

/-!
# A node and the process that drives it

The public operations of a `RawNode` in any order.  `ready` and `advance` alternate, and what a
`Ready` carries is put into the storage between the two; everything else may be called at any time.

* `Call`, `Driver.act` — the calls, and what each of them does.
* `Call.Stamped` — messages carry a term where their senders put one.
* `Driver.act_deeds` — **a call leads to a chain of deeds of the state machine, or is one of the three
  that deal with a `Ready`**.
* `Driver.act_cases` — the same with the effects of the deeds.
-/

namespace RaftKv

/-- Put what a `Ready` carries into the storage: the snapshot, and then the entries. -/
def Ready.store (rd : Ready) (storage : MemoryStorage) : Outcome MemoryStorage :=
  let storage := if rd.snapshot.isEmpty then storage else (storage.applySnapshot rd.snapshot).1
  storage.append rd.entries

/-- How far the process is with a `Ready`. -/
inductive Phase where
  | idle
  | taken (rd : Ready)
  | stored (rd : Ready)
  deriving DecidableEq, Repr

/-- The `Ready` that `advance` is called with. -/
def Phase.settling : Phase → Option Ready
  | Phase.stored rd => some rd
  | _ => none

structure Driver where
  node : RawNode
  phase : Phase := Phase.idle
  /-- Every `Ready` that was taken, the last one at the end. -/
  handed : List Ready := []

inductive Call where
  | tick
  | campaign
  | propose (data : Bytes)
  | proposeConfChange (cc : ConfChange)
  /-- A message from the network. -/
  | step (m : Message)
  | applyConfChange (cc : ConfChange)
  | transferLeadership (lead transferee : Nat)
  | readIndex (rctx : Bytes)
  | reportUnreachable (id : Nat)
  | reportSnapshot (id : Nat) (status : SnapshotStatus)
  | ready
  | store
  | advance
  deriving DecidableEq, Repr

namespace Driver

/-- A call that only concerns the node. -/
def onNode (d : Driver) (f : RawNode → Outcome RawNode) : Outcome Driver := do
  let n ← f d.node
  return { d with node := n }

/-- A call of which the process gets a result. -/
def onNodeWith {α : Type} (d : Driver) (f : RawNode → Outcome (RawNode × α)) : Outcome Driver := do
  let (n, _) ← f d.node
  return { d with node := n }

/-- A call that does not fit the phase is not made. -/
def act (pack : ConfChange → Bytes) (d : Driver) : Call → Outcome Driver
  | Call.tick => d.onNode RawNode.tick
  | Call.campaign => d.onNodeWith RawNode.campaign
  | Call.propose data => d.onNodeWith (·.propose data)
  | Call.proposeConfChange cc => d.onNodeWith (RawNode.proposeConfChange pack · cc)
  | Call.step m => d.onNodeWith (·.step m)
  | Call.applyConfChange cc => d.onNodeWith (·.applyConfChange cc)
  | Call.transferLeadership lead transferee => d.onNode (·.transferLeadership lead transferee)
  | Call.readIndex rctx => d.onNodeWith (·.readIndex rctx)
  | Call.reportUnreachable id => d.onNode (·.reportUnreachable id)
  | Call.reportSnapshot id status => d.onNode (·.reportSnapshot id status)
  | Call.ready =>
      match d.phase with
      | Phase.idle => do
          let (n, rd) ← d.node.ready
          return { node := n, phase := Phase.taken rd, handed := d.handed ++ [rd] }
      | _ => pure d
  | Call.store =>
      match d.phase with
      | Phase.taken rd => do
          let storage ← rd.store d.node.raft.raftLog.storage
          return { d with node := d.node.setStorage storage, phase := Phase.stored rd }
      | _ => pure d
  | Call.advance =>
      match d.phase with
      | Phase.stored rd => pure { d with node := d.node.advance rd, phase := Phase.idle }
      | _ => pure d

end Driver

/-- A message of the network carries a term, unless it is a proposal or a read request. -/
def Call.Stamped : Call → Prop
  | Call.step m =>
      m.term ≠ 0 ∨ m.type = MessageType.msgProp ∨ m.type = MessageType.msgReadIndex
  | _ => True

instance : (c : Call) → Decidable c.Stamped
  | Call.step m => inferInstanceAs (Decidable (m.term ≠ 0 ∨ _ ∨ _))
  | Call.tick | Call.campaign | Call.propose _ | Call.proposeConfChange _ | Call.applyConfChange _
  | Call.transferLeadership _ _ | Call.readIndex _ | Call.reportUnreachable _
  | Call.reportSnapshot _ _ | Call.ready | Call.store | Call.advance =>
      inferInstanceAs (Decidable True)

/-- The message that a call steps the node with; of the others, only the type matters. -/
def Call.message (pack : ConfChange → Bytes) (n : RawNode) : Call → Message
  | Call.step m => m
  | Call.propose data =>
      { type := MessageType.msgProp, fromId := n.raft.id, entries := [{ data := data }] }
  | Call.proposeConfChange cc =>
      { type := MessageType.msgProp
        entries := [{ type := EntryType.entryConfChange, data := pack cc }] }
  | _ => { type := MessageType.msgHup }

/-- The message that a call steps the node with, if it does so. -/
def Call.stepped (pack : ConfChange → Bytes) (n : RawNode) : Call → Message
  | Call.transferLeadership lead transferee =>
      { type := MessageType.msgTransferLeader, fromId := transferee, toId := lead }
  | Call.readIndex rctx =>
      { type := MessageType.msgReadIndex
        entries := [{ type := EntryType.unknown 15, data := rctx }] }
  | Call.reportUnreachable id => { type := MessageType.msgUnreachable, fromId := id }
  | Call.reportSnapshot id status =>
      { type := MessageType.msgSnapStatus, fromId := id
        reject := decide (status = SnapshotStatus.snapshotFailure) }
  | c => c.message pack n

namespace Driver

open Raft

variable {pack : ConfChange → Bytes} {d d' : Driver} {n n' : RawNode} {m : Message}

lemma stepRaft_deeds {status : Status}
    (hterm : m.term = 0 → m.type ≠ MessageType.msgApp ∧ m.type ≠ MessageType.msgHeartbeat ∧
      m.type ≠ MessageType.msgSnap)
    (h : n.stepRaft m = Except.ok (n', status)) : Deeds m n.raft n'.raft := by
  obtain ⟨⟨r, s⟩, hstep, h⟩ := Outcome.bind_eq_ok.mp h
  cases h
  exact Deeds.step hterm hstep

lemma onNode_eq_ok {f : RawNode → Outcome RawNode} (h : d.onNode f = Except.ok d') :
    ∃ n, f d.node = Except.ok n ∧ d' = { d with node := n } := by
  obtain ⟨n, hn, h⟩ := Outcome.bind_eq_ok.mp h
  exact ⟨n, hn, (Outcome.pure_eq_ok.mp h).symm⟩

lemma onNodeWith_eq_ok {α : Type} {f : RawNode → Outcome (RawNode × α)}
    (h : d.onNodeWith f = Except.ok d') :
    ∃ n a, f d.node = Except.ok (n, a) ∧ d' = { d with node := n } := by
  obtain ⟨⟨n, a⟩, hn, h⟩ := Outcome.bind_eq_ok.mp h
  exact ⟨n, a, hn, (Outcome.pure_eq_ok.mp h).symm⟩

/-- **What a call does**: deeds of the state machine, behind a change of its members, or it takes a
`Ready`, stores it, or advances behind it. -/
theorem act_deeds {c : Call} (hc : c.Stamped) (h : d.act pack c = Except.ok d') :
    ((∃ r, Regrouped d.node.raft r ∧ Deeds (c.stepped pack d.node) r d'.node.raft) ∧
      d'.phase = d.phase ∧ d'.handed = d.handed) ∨
    (d.phase = Phase.idle ∧ ∃ n rd, d.node.ready = Except.ok (n, rd) ∧
      d' = { node := n, phase := Phase.taken rd, handed := d.handed ++ [rd] }) ∨
    (∃ rd storage, d.phase = Phase.taken rd ∧
      rd.store d.node.raft.raftLog.storage = Except.ok storage ∧
      d' = { d with node := d.node.setStorage storage, phase := Phase.stored rd }) ∨
    (c = Call.advance ∧ ∃ rd, d.phase = Phase.stored rd ∧
      d' = { d with node := d.node.advance rd, phase := Phase.idle }) := by
  have hdone : ∀ {n : RawNode}, Deeds (c.stepped pack d.node) d.node.raft n.raft →
      (∃ r, Regrouped d.node.raft r ∧ Deeds (c.stepped pack d.node) r n.raft) ∧
        d.phase = d.phase ∧ d.handed = d.handed :=
    fun hdeeds => ⟨⟨_, Regrouped.same _, hdeeds⟩, rfl, rfl⟩
  cases c with
  | tick =>
      obtain ⟨n, hn, rfl⟩ := onNode_eq_ok h
      obtain ⟨r, htick, hn⟩ := Outcome.bind_eq_ok.mp hn
      cases hn
      exact Or.inl (hdone (Deeds.tick htick))
  | campaign =>
      obtain ⟨n, status, hn, rfl⟩ := onNodeWith_eq_ok h
      exact Or.inl (hdone (stepRaft_deeds (by simp [Call.stepped, Call.message]) hn))
  | propose data =>
      rw [act] at h
      obtain ⟨n, status, hn, rfl⟩ := onNodeWith_eq_ok h
      exact Or.inl (hdone (stepRaft_deeds (by simp [Call.stepped, Call.message]) hn))
  | proposeConfChange cc =>
      rw [act] at h
      obtain ⟨n, status, hn, rfl⟩ := onNodeWith_eq_ok h
      exact Or.inl (hdone (stepRaft_deeds (by simp [Call.stepped, Call.message]) hn))
  | step m =>
      rw [act] at h
      obtain ⟨n, status, hn, rfl⟩ := onNodeWith_eq_ok h
      refine Or.inl (hdone ?_)
      have hterm : m.term = 0 → m.type ≠ MessageType.msgApp ∧
          m.type ≠ MessageType.msgHeartbeat ∧ m.type ≠ MessageType.msgSnap := by
        intro h₀
        rcases hc.resolve_left (not_not_intro h₀) with ht | ht <;> rw [ht] <;> decide
      rw [RawNode.step] at hn
      split at hn
      · cases hn
        exact Relation.ReflTransGen.refl
      split at hn
      · exact stepRaft_deeds hterm hn
      · cases hn
        exact Relation.ReflTransGen.refl
  | applyConfChange cc =>
      rw [act] at h
      obtain ⟨n, cs, hn, rfl⟩ := onNodeWith_eq_ok h
      rw [RawNode.applyConfChange] at hn
      split at hn
      · cases hn
        exact Or.inl (hdone Relation.ReflTransGen.refl)
      · obtain ⟨r, hchange, hn⟩ := Outcome.bind_eq_ok.mp hn
        cases hn
        exact Or.inl ⟨Deeds.changeMembers hchange, rfl, rfl⟩
  | transferLeadership lead transferee =>
      rw [act] at h
      obtain ⟨n, hn, rfl⟩ := onNode_eq_ok h
      obtain ⟨⟨n₁, status⟩, hstep, hn⟩ := Outcome.bind_eq_ok.mp hn
      cases hn
      exact Or.inl (hdone (stepRaft_deeds (by simp [Call.stepped]) hstep))
  | readIndex rctx =>
      rw [act] at h
      obtain ⟨n, status, hn, rfl⟩ := onNodeWith_eq_ok h
      exact Or.inl (hdone (stepRaft_deeds (by simp [Call.stepped]) hn))
  | reportUnreachable id =>
      rw [act] at h
      obtain ⟨n, hn, rfl⟩ := onNode_eq_ok h
      obtain ⟨⟨n₁, status⟩, hstep, hn⟩ := Outcome.bind_eq_ok.mp hn
      cases hn
      exact Or.inl (hdone (stepRaft_deeds (by simp [Call.stepped]) hstep))
  | reportSnapshot id status =>
      rw [act] at h
      obtain ⟨n, hn, rfl⟩ := onNode_eq_ok h
      obtain ⟨⟨n₁, status'⟩, hstep, hn⟩ := Outcome.bind_eq_ok.mp hn
      cases hn
      exact Or.inl (hdone (stepRaft_deeds (by simp [Call.stepped]) hstep))
  | ready =>
      rw [act] at h
      split at h
      · rename_i hidle
        obtain ⟨⟨n, rd⟩, hready, h⟩ := Outcome.bind_eq_ok.mp h
        exact Or.inr (Or.inl ⟨hidle, n, rd, hready, (Outcome.pure_eq_ok.mp h).symm⟩)
      · cases h
        exact Or.inl (hdone Relation.ReflTransGen.refl)
  | store =>
      rw [act] at h
      split at h
      · rename_i rd htaken
        obtain ⟨storage, hstore, h⟩ := Outcome.bind_eq_ok.mp h
        exact Or.inr (Or.inr (Or.inl ⟨rd, storage, htaken, hstore, (Outcome.pure_eq_ok.mp h).symm⟩))
      · cases h
        exact Or.inl (hdone Relation.ReflTransGen.refl)
  | advance =>
      rw [act] at h
      split at h
      · rename_i rd hstored
        exact Or.inr (Or.inr (Or.inr ⟨rfl, rd, hstored, (Outcome.pure_eq_ok.mp h).symm⟩))
      · cases h
        exact Or.inl (hdone Relation.ReflTransGen.refl)

/-- Of a message that brings neither entries nor a snapshot, the effects do not depend on it. -/
lemma effects_message {c : Call} {r r' : Raft} (h : Effects (c.stepped pack n) r r') :
    Effects (c.message pack n) r r' := by
  cases c with
  | transferLeadership | readIndex | reportUnreachable | reportSnapshot =>
      exact Effects.of_local (by simp [Call.stepped]) (by simp [Call.stepped])
        (by simp [Call.stepped]) h
  | _ => exact h

/-- **What a call does**: effects on the state machine, or it takes a `Ready`, stores it, or
advances behind it. -/
theorem act_cases {c : Call} (hc : c.Stamped) (h : d.act pack c = Except.ok d') :
    (Effects (c.message pack d.node) d.node.raft d'.node.raft ∧ d'.phase = d.phase ∧
      d'.handed = d.handed) ∨
    (d.phase = Phase.idle ∧ ∃ n rd, d.node.ready = Except.ok (n, rd) ∧
      d' = { node := n, phase := Phase.taken rd, handed := d.handed ++ [rd] }) ∨
    (∃ rd storage, d.phase = Phase.taken rd ∧
      rd.store d.node.raft.raftLog.storage = Except.ok storage ∧
      d' = { d with node := d.node.setStorage storage, phase := Phase.stored rd }) ∨
    (c = Call.advance ∧ ∃ rd, d.phase = Phase.stored rd ∧
      d' = { d with node := d.node.advance rd, phase := Phase.idle }) := by
  refine (act_deeds hc h).imp_left fun hact => ?_
  obtain ⟨⟨r, hgroup, hdeeds⟩, hphase, hhanded⟩ := hact
  exact ⟨(Effects.aside hgroup.ledger).trans (effects_message hdeeds.effects), hphase, hhanded⟩

end Driver

end RaftKv
