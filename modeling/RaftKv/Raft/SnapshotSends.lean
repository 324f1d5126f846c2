import RaftKv.Raft.LogicalLog
import RaftKv.Raft.SnapshotHandshake
import RaftKv.Raft.Calls

/-!
# The snapshots that are sent

* `Raft.SendsSnapshot` — every new `MsgSnap` carries a given snapshot.
* `Raft.Deed.sends`, `Raft.Deeds.sends` — a call that does not bring a snapshot leaves the log's own
  one alone and sends no other.
* `Raft.step_msgSnap_sends` — **a call that brings a snapshot sends none**.
-/

namespace RaftKv

namespace RaftLog

variable {l l' : RaftLog} {es : List Entry}

/-- Entries that are appended do not concern the snapshot that is being installed. -/
lemma append_pending {last : Nat} (h : l.append es = Except.ok (l', last)) :
    l'.unstable.snapshot = l.unstable.snapshot := by
  cases es with
  | nil =>
      cases h
      rfl
  | cons e es =>
      obtain ⟨hu, -⟩ := append_unstable h
      exact (truncateAndAppend_eq_ok hu).1

/-- Entries that are appended do not concern the snapshot. -/
lemma append_snapshot {last : Nat} (h : l.append es = Except.ok (l', last)) :
    l'.snapshot = l.snapshot := by
  have hpending := append_pending h
  cases es with
  | nil =>
      cases h
      rfl
  | cons e es =>
      rw [(append_unstable h).2]
      show l'.unstable.snapshot.getD l.storage.snapshot = _
      rw [hpending]
      rfl

lemma maybeAppend_snapshot {index logTerm committed : Nat} {res : Option Nat}
    (h : l.maybeAppend index logTerm committed es = Except.ok (l', res)) :
    l'.snapshot = l.snapshot := by
  rw [maybeAppend] at h
  split at h
  · obtain ⟨l₁, hnew, h⟩ := Outcome.bind_eq_ok.mp h
    obtain ⟨l₂, hcommit, h⟩ := Outcome.bind_eq_ok.mp h
    cases h
    obtain ⟨rfl, -⟩ := commitTo_eq_ok hcommit
    show l₁.snapshot = l.snapshot
    simp only [appendNew] at hnew
    split at hnew
    · cases hnew
      rfl
    split at hnew
    · cases hnew
    split at hnew
    · cases hnew
    obtain ⟨⟨l₃, last⟩, happend, hnew⟩ := Outcome.bind_eq_ok.mp hnew
    cases hnew
    exact append_snapshot happend
  · cases h
    rfl

end RaftLog

namespace Raft

open RaftLog

variable {r r' r₁ : Raft} {m : Message} {snap : Snapshot}

/-- Every new `MsgSnap` carries the snapshot `snap`, which is not empty. -/
def SendsSnapshot (snap : Snapshot) (r r' : Raft) : Prop :=
  ∀ msg ∈ r'.msgs, msg.type = MessageType.msgSnap →
    msg ∈ r.msgs ∨ msg.snapshot = snap ∧ snap.isEmpty = false

lemma SendsSnapshot.nothing (h : r'.msgs = r.msgs) : SendsSnapshot snap r r' :=
  fun _ hmsg _ => Or.inl (h ▸ hmsg)

lemma SendsSnapshot.trans (h : SendsSnapshot snap r r₁) (h' : SendsSnapshot snap r₁ r') :
    SendsSnapshot snap r r' := by
  intro msg hmsg ht
  rcases h' msg hmsg ht with hold | hsnap
  · exact h msg hold ht
  · exact Or.inr hsnap

lemma SendsSnapshot.push {msg : Message} (hmsgs : r'.msgs = r.msgs ++ [msg])
    (h : msg.type = MessageType.msgSnap → msg.snapshot = snap ∧ snap.isEmpty = false) :
    SendsSnapshot snap r r' := by
  intro msg' hmsg' ht
  rw [hmsgs, List.mem_append, List.mem_singleton] at hmsg'
  rcases hmsg' with hold | rfl
  · exact Or.inl hold
  · exact Or.inr (h ht)

/-- Apart from `maybe_send_append`, a call that does not bring a snapshot queues none. -/
lemma Posted.type_ne {msg : Message} (h : Posted m r msg) (ht : m.type ≠ MessageType.msgSnap) :
    msg.type ≠ MessageType.msgSnap := by
  cases h with
  | forward => exact ht
  | _ => exact fun hmsg => by cases hmsg

lemma signed_snapshot (r : Raft) (m : Message) : (r.signed m).snapshot = m.snapshot := by
  unfold signed
  split <;> rfl

/-- **The snapshots that a deed sends** are the log's own one, which it leaves alone. -/
theorem Deed.sends (h : Deed m r r') (ht : m.type ≠ MessageType.msgSnap) :
    r'.raftLog.snapshot = r.raftLog.snapshot ∧ SendsSnapshot r.raftLog.snapshot r r' := by
  cases h with
  | quiet h =>
      simp only [dossier, ledger, Prod.mk.injEq] at h
      obtain ⟨⟨-, -, -, -, hlog, -⟩, -, -, -, hmsgs, -⟩ := h
      exact ⟨congrArg RaftLog.snapshot hlog, SendsSnapshot.nothing hmsgs⟩
  | post h =>
      refine ⟨rfl, SendsSnapshot.push rfl fun hmsg => absurd ?_ (h.type_ne ht)⟩
      rwa [signed_type] at hmsg
  | sendEntries =>
      refine ⟨rfl, SendsSnapshot.push rfl fun hmsg => ?_⟩
      rw [signed_type] at hmsg
      cases hmsg
  | sendSnapshot _ _ hsnap =>
      refine ⟨rfl, SendsSnapshot.push rfl fun _ => ⟨?_, hsnap⟩⟩
      rw [signed_snapshot]
  | propose _ _ hsize hlog =>
      rw [increaseUncommittedSize] at hsize
      split at hsize
      · cases hsize
      · cases hsize
        exact ⟨append_snapshot hlog, SendsSnapshot.nothing rfl⟩
  | commit h =>
      obtain ⟨rfl, -⟩ := commitTo_eq_ok h
      exact ⟨rfl, SendsSnapshot.nothing rfl⟩
  | append _ _ _ _ hlog => exact ⟨maybeAppend_snapshot hlog, SendsSnapshot.nothing rfl⟩
  | restore hm => exact absurd hm ht
  | _ => exact ⟨rfl, SendsSnapshot.nothing rfl⟩

theorem Deeds.sends (h : Deeds m r r') (ht : m.type ≠ MessageType.msgSnap) :
    r'.raftLog.snapshot = r.raftLog.snapshot ∧ SendsSnapshot r.raftLog.snapshot r r' := by
  induction h with
  | refl => exact ⟨rfl, SendsSnapshot.nothing rfl⟩
  | tail _ hdeed ih =>
      obtain ⟨hsame, hsends⟩ := hdeed.sends ht
      rw [ih.1] at hsame hsends
      exact ⟨hsame, ih.2.trans hsends⟩

lemma Regrouped.sends (h : Regrouped r r') :
    r'.raftLog.snapshot = r.raftLog.snapshot ∧ r'.msgs = r.msgs := by
  cases h with
  | same => exact ⟨rfl, rfl⟩
  | entered hnew h =>
      rw [setProgress_frame h]
      exact ⟨rfl, rfl⟩
  | promoted => exact ⟨rfl, rfl⟩
  | removed => exact ⟨rfl, rfl⟩

/-! ## A snapshot comes in -/

lemma handleSnapshot_sends (h : r.handleSnapshot m = Except.ok r') : SendsSnapshot snap r r' := by
  obtain ⟨r₁, restored, hrestore, rfl⟩ := handleSnapshot_eq_ok h
  have hmsgs : r₁.msgs = r.msgs := by
    rcases restore_cases hrestore with ⟨-, rfl, -⟩ | ⟨-, -, -, -, rfl⟩ | ⟨-, -, -, -, hr₁⟩
    · rfl
    · rfl
    · rw [hr₁]
  refine SendsSnapshot.push (by rw [hmsgs]) fun hmsg => ?_
  rw [signed_type] at hmsg
  cases hmsg

/-- **A call that brings a snapshot sends none.** -/
theorem step_msgSnap_sends {status : Status} (ht : m.type = MessageType.msgSnap)
    (h : r.step m = Except.ok (r', status)) : SendsSnapshot snap r r' := by
  obtain ⟨⟨r₁, continues⟩, hcheck, h⟩ := Outcome.bind_eq_ok.mp h
  have hmsgs : r₁.msgs = r.msgs := by
    rw [checkTerm] at hcheck
    split at hcheck
    · cases hcheck
      rfl
    split at hcheck
    · split at hcheck
      · cases hcheck
        rfl
      · obtain ⟨r₂, hhigher, hcheck⟩ := Outcome.bind_eq_ok.mp hcheck
        cases hcheck
        simp only [stepHigherTerm, ht] at hhigher
        rw [becomeFollower_eq_ok hhigher]
        rfl
    split at hcheck
    · obtain ⟨r₂, hlower, hcheck⟩ := Outcome.bind_eq_ok.mp hcheck
      cases hcheck
      simp only [stepLowerTerm, ht] at hlower
      split at hlower
      · rename_i hstale
        rcases hstale.2 with hc | hc <;> cases hc
      · split at hlower
        · rename_i hc
          cases hc
        · cases hlower
          rfl
    · cases hcheck
      rfl
  refine (SendsSnapshot.nothing hmsgs).trans ?_
  dsimp only at h
  split at h
  · cases h
    exact SendsSnapshot.nothing rfl
  simp only [ht, stepRole] at h
  have hcandidate : ∀ {r₂ : Raft} {p : Raft × Status}, r₂.stepCandidate m = Except.ok p →
      SendsSnapshot snap r₂ p.1 := by
    intro r₂ p hp
    simp only [stepCandidate, ht] at hp
    obtain ⟨r₃, hfollow, hp⟩ := Outcome.bind_eq_ok.mp hp
    obtain ⟨r₄, hhandle, hp⟩ := Outcome.bind_eq_ok.mp hp
    cases hp
    refine (SendsSnapshot.nothing ?_).trans (handleSnapshot_sends hhandle)
    rw [becomeFollower_eq_ok hfollow]
    rfl
  split at h
  · simp only [stepFollower, ht] at h
    obtain ⟨r₂, hhandle, h⟩ := Outcome.bind_eq_ok.mp h
    cases h
    have hsends : SendsSnapshot snap _ r' := handleSnapshot_sends hhandle
    exact hsends
  · exact hcandidate h
  · exact hcandidate h
  · simp only [stepLeader, ht] at h
    split at h
    · cases h
      exact SendsSnapshot.nothing rfl
    · obtain ⟨r₂, hpeer, h⟩ := Outcome.bind_eq_ok.mp h
      cases h
      simp only [stepLeaderPeer, ht] at hpeer
      cases hpeer
      exact SendsSnapshot.nothing rfl

end Raft

end RaftKv
