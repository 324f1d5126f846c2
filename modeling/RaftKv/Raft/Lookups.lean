import RaftKv.Raft.Inversion

/-!
# Two lookups that nothing checks

A release build reads on where the own progress of a new leader is missing, and where `match_buf_`
has nothing at the quorum.  Everything else a node does ends in neither.

* `LookupFails` — the two crashes.
* `Narrow` — a kind of crash that is one of them, for which the lemmas below are stated.
* What the log, the windows and the read requests cannot end in.
-/

namespace RaftKv

open Outcome

/-- The progress of the new leader, or the matched index at the quorum, is not there. -/
def LookupFails (c : Crash) : Prop :=
  c = Crash.assertion "it != prs_.end()" ∨ c = Crash.outOfRange "match_buf_"

/-- Only a failed lookup is a crash of this kind. -/
def Narrow (bad : Crash → Prop) : Prop := ∀ c, bad c → LookupFails c

theorem Narrow.throw {bad : Crash → Prop} (hbad : Narrow bad) {α : Type} {c : Crash}
    (h : ¬ LookupFails c) : Avoids bad (throw c : Outcome α) :=
  Avoids.throw fun hc => h (hbad c hc)

section

variable {bad : Crash → Prop} (hbad : Narrow bad)

include hbad

/-! ## The log -/

theorem Unstable.slice_avoids (u : Unstable) (low high : Nat) : Avoids bad (u.slice low high) := by
  rw [Unstable.slice]
  split
  · exact hbad.throw (by simp [LookupFails])
  split
  · exact hbad.throw (by simp [LookupFails])
  · exact Avoids.pure

theorem Unstable.truncateAndAppend_avoids (u : Unstable) (es : List Entry) :
    Avoids bad (u.truncateAndAppend es) := by
  unfold Unstable.truncateAndAppend
  split
  · exact Avoids.pure
  dsimp only
  split
  · exact Avoids.pure
  split
  · exact Avoids.pure
  · exact Avoids.bind (u.slice_avoids hbad _ _) fun _ _ => Avoids.pure

theorem MemoryStorage.entriesOf_avoids (s : MemoryStorage) (low high maxSize : Nat) :
    Avoids bad (s.entriesOf low high maxSize) := by
  rw [MemoryStorage.entriesOf]
  split
  · exact hbad.throw (by simp [LookupFails])
  dsimp only
  split
  · exact Avoids.pure
  split
  · exact hbad.throw (by simp [LookupFails])
  split
  · exact Avoids.pure
  · exact Avoids.pure

namespace RaftLog

variable (l : RaftLog)

theorem lastTerm_avoids : Avoids bad l.lastTerm := by
  rw [lastTerm]
  split
  · exact hbad.throw (by simp [LookupFails])
  · exact Avoids.pure

theorem isUpToDate_avoids (index term : Nat) : Avoids bad (l.isUpToDate index term) :=
  Avoids.bind (l.lastTerm_avoids hbad) fun _ _ => Avoids.pure

theorem commitTo_avoids (index : Nat) : Avoids bad (l.commitTo index) := by
  rw [commitTo]
  split
  · split
    · exact hbad.throw (by simp [LookupFails])
    · exact Avoids.pure
  · exact Avoids.pure

theorem append_avoids (es : List Entry) : Avoids bad (l.append es) := by
  unfold append
  split
  · exact Avoids.pure
  split
  · exact hbad.throw (by simp [LookupFails])
  · exact Avoids.bind (l.unstable.truncateAndAppend_avoids hbad _) fun _ _ => Avoids.pure

theorem appendNew_avoids (index : Nat) (es : List Entry) : Avoids bad (l.appendNew index es) := by
  rw [appendNew]
  dsimp only
  split
  · exact Avoids.pure
  split
  · exact hbad.throw (by simp [LookupFails])
  split
  · exact hbad.throw (by simp [LookupFails])
  · exact Avoids.bind (l.append_avoids hbad _) fun _ _ => Avoids.pure

theorem maybeAppend_avoids (index logTerm committed : Nat) (es : List Entry) :
    Avoids bad (l.maybeAppend index logTerm committed es) := by
  rw [maybeAppend]
  split
  · refine Avoids.bind (l.appendNew_avoids hbad _ _) fun l₁ _ => ?_
    exact Avoids.bind (l₁.commitTo_avoids hbad _) fun _ _ => Avoids.pure
  · exact Avoids.pure

theorem maybeCommit_avoids (index term : Nat) : Avoids bad (l.maybeCommit index term) := by
  rw [maybeCommit]
  split
  · split
    · exact hbad.throw (by simp [LookupFails])
    split
    · exact Avoids.bind (l.commitTo_avoids hbad _) fun _ _ => Avoids.pure
    · exact Avoids.pure
  · exact Avoids.pure

theorem slice_avoids (low high maxSize : Nat) : Avoids bad (l.slice low high maxSize) := by
  rw [slice]
  refine Avoids.bind ?_ fun status _ => ?_
  · rw [mustCheckOutOfBounds]
    split
    · exact hbad.throw (by simp [LookupFails])
    split
    · exact Avoids.pure
    split
    · exact hbad.throw (by simp [LookupFails])
    · exact Avoids.pure
  split
  · exact Avoids.pure
  split
  · exact Avoids.pure
  extract_lets behind
  have hbehind : ∀ stable, Avoids bad (behind stable) := by
    intro stable
    dsimp only [behind]
    split
    · exact Avoids.pure
    split
    · exact Avoids.pure
    split
    · exact Avoids.bind (l.unstable.slice_avoids hbad _ _) fun _ _ => Avoids.pure
    · exact Avoids.bind Avoids.pure fun _ _ => Avoids.pure
  split
  · exact Avoids.bind (l.storage.entriesOf_avoids hbad _ _ _) fun stable _ => hbehind stable
  · exact Avoids.bind Avoids.pure fun stable _ => hbehind stable

theorem entries_avoids (index maxSize : Nat) : Avoids bad (l.entries index maxSize) := by
  rw [entries]
  split
  · exact Avoids.pure
  · exact l.slice_avoids hbad _ _ _

theorem nextEntries_avoids : Avoids bad l.nextEntries := by
  rw [nextEntries]
  split
  · refine Avoids.bind (l.slice_avoids hbad _ _ _) fun status _ => ?_
    split
    · exact Avoids.pure
    · exact hbad.throw (by simp [LookupFails])
  · exact Avoids.pure

end RaftLog

/-! ## Windows -/

namespace InFlights

variable (f : InFlights)

theorem add_avoids (inflight : Nat) : Avoids bad (f.add inflight) := by
  rw [add]
  split
  · exact hbad.throw (by simp [LookupFails])
  extract_lets next wrapped buffer
  split
  · exact Avoids.pure
  · exact hbad.throw (by simp [LookupFails])

theorem freeScan_avoids (upTo remaining : Nat) : ∀ idx i : Nat,
    Avoids bad (f.freeScan upTo remaining idx i) := by
  induction remaining with
  | zero => exact fun _ _ => Avoids.pure
  | succ remaining ih =>
      intro idx i
      rw [freeScan]
      split
      · exact hbad.throw (by simp [LookupFails])
      split
      · exact Avoids.pure
      · exact ih _ _

theorem freeTo_avoids (upTo : Nat) : Avoids bad (f.freeTo upTo) := by
  rw [freeTo]
  split
  · exact Avoids.pure
  split
  · exact hbad.throw (by simp [LookupFails])
  split
  · exact Avoids.pure
  · exact Avoids.bind (f.freeScan_avoids hbad _ _ _ _) fun _ _ => Avoids.pure

theorem freeFirstOne_avoids : Avoids bad f.freeFirstOne := by
  rw [freeFirstOne]
  split
  · exact hbad.throw (by simp [LookupFails])
  · exact f.freeTo_avoids hbad _

end InFlights

namespace Progress

variable (p : Progress)

theorem acknowledged_avoids (index : Nat) : Avoids bad (p.acknowledged index) := by
  rw [acknowledged]
  split
  · exact Avoids.pure
  · exact Avoids.pure
  · exact Avoids.bind (InFlights.freeTo_avoids hbad _ _) fun _ _ => Avoids.pure

theorem heartbeatAnswered_avoids : Avoids bad p.heartbeatAnswered := by
  rw [heartbeatAnswered]
  dsimp only
  split
  · exact Avoids.bind (InFlights.freeFirstOne_avoids hbad _) fun _ _ => Avoids.pure
  · exact Avoids.pure

theorem afterSending_avoids (es : List Entry) : Avoids bad (p.afterSending es) := by
  rw [afterSending]
  split
  · exact Avoids.pure
  split
  · exact Avoids.bind (InFlights.add_avoids hbad _ _) fun _ _ => Avoids.pure
  · exact Avoids.pure
  · exact hbad.throw (by simp [LookupFails])

end Progress

/-! ## Read requests and votes -/

theorem Message.readContext_avoids (m : Message) : Avoids bad m.readContext := by
  rw [Message.readContext]
  split
  · exact hbad.throw (by simp [LookupFails])
  · exact Avoids.pure

namespace ReadOnly

variable (ro : ReadOnly)

theorem addRequest_avoids (index : Nat) (m : Message) : Avoids bad (ro.addRequest index m) := by
  refine Avoids.bind (m.readContext_avoids hbad) fun ctx _ => ?_
  split
  · exact Avoids.pure
  · exact Avoids.pure

theorem collect_avoids (ctx : Bytes) (queue : List Bytes) : Avoids bad (ro.collect ctx queue) := by
  induction queue with
  | nil => exact Avoids.pure
  | cons okctx queue ih =>
      rw [collect]
      split
      · exact hbad.throw (by simp [LookupFails])
      split
      · exact Avoids.pure
      · exact Avoids.bind ih fun _ _ => Avoids.pure

theorem advance_avoids (m : Message) : Avoids bad (ro.advance m) := by
  refine Avoids.bind (ro.collect_avoids hbad _ _) fun res _ => ?_
  dsimp only
  split
  · refine Avoids.bind ?_ fun _ _ => Avoids.pure
    refine Avoids.foldlM (P := fun _ => True) (fun pending rs _ _ => ?_)
      (fun _ _ _ _ _ _ => trivial) trivial
    exact Avoids.bind (Message.readContext_avoids hbad _) fun _ _ => Avoids.pure
  · exact Avoids.pure

end ReadOnly

theorem voteRespMsgType_avoids (t : MessageType) : Avoids bad (voteRespMsgType t) := by
  unfold voteRespMsgType
  split
  · exact Avoids.pure
  · exact Avoids.pure
  · exact hbad.throw (by simp [LookupFails])

end

end RaftKv
