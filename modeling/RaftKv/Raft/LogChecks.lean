import RaftKv.Raft.LogicalLog
import RaftKv.Raft.Inversion

/-!
# The fatal checks of the log

Five fatal log lines guard the log of a node and the window of a peer.

* `LogCheck` — the crashes they end in.
* `LogCheck.begins` — how their texts begin, which tells them from every other fatal log line.
* `ChecksHold` — the computation fails none of them, whatever else it may do.
* What holds for a function in any state: sending, reading requests, the window of a peer.
-/

namespace RaftKv

/-- A fatal check of the log or of a window has failed. -/
inductive LogCheck : Crash → Prop
  /-- `RaftLog::commit_to`. -/
  | commitTo (toCommit lastIndex : Nat) : LogCheck (Crash.fatal
      s!"to_commit({toCommit}) is out of range [lastIndex({lastIndex
        })]. Was the raft log corrupted, truncated, or lost?")
  /-- `RaftLog::maybe_append`. -/
  | maybeAppend (conflict committed : Nat) : LogCheck (Crash.fatal
      s!"entry {conflict} conflict with committed entry [committed({committed})]")
  /-- `RaftLog::append`. -/
  | append (after committed : Nat) : LogCheck (Crash.fatal
      s!"after({after}) is out of range [committed({committed})]\", after, committed_")
  /-- `Unstable::slice`. -/
  | unstableSlice (low high offset upper : Nat) : LogCheck (Crash.fatal
      s!"unstable.slice[{low},{high}) out of bound [{offset},{upper}]")
  /-- `InFlights::add`. -/
  | inFlights : LogCheck (Crash.fatal "cannot add into a full inflights")

theorem toString_string (s : String) : toString s = s := rfl

/-- The beginnings of their texts. -/
def LogCheck.heads : List (List Char) :=
  [['t', 'o', '_'], ['e', 'n', 't'], ['a', 'f', 't'], ['u', 'n', 's'],
    ['c', 'a', 'n', 'n', 'o', 't', ' ', 'a']]

theorem LogCheck.begins {text : String} (h : LogCheck (Crash.fatal text)) :
    ∃ p ∈ heads, p <+: text.toList := by
  generalize hc : Crash.fatal text = c at h
  cases h with
  | commitTo toCommit lastIndex =>
      obtain rfl := Crash.fatal.inj hc
      refine ⟨['t', 'o', '_'], by simp [heads], ?_⟩
      simp only [toString_string, String.toList_append, List.append_assoc]
      exact (show ['t', 'o', '_'] <+: "to_commit(".toList by simp).trans (List.prefix_append _ _)
  | maybeAppend conflict committed =>
      obtain rfl := Crash.fatal.inj hc
      refine ⟨['e', 'n', 't'], by simp [heads], ?_⟩
      simp only [toString_string, String.toList_append, List.append_assoc]
      exact (show ['e', 'n', 't'] <+: "entry ".toList by simp).trans (List.prefix_append _ _)
  | append after committed =>
      obtain rfl := Crash.fatal.inj hc
      refine ⟨['a', 'f', 't'], by simp [heads], ?_⟩
      simp only [toString_string, String.toList_append, List.append_assoc]
      exact (show ['a', 'f', 't'] <+: "after(".toList by simp).trans (List.prefix_append _ _)
  | unstableSlice low high offset upper =>
      obtain rfl := Crash.fatal.inj hc
      refine ⟨['u', 'n', 's'], by simp [heads], ?_⟩
      simp only [toString_string, String.toList_append, List.append_assoc]
      exact (show ['u', 'n', 's'] <+: "unstable.slice[".toList by simp).trans
        (List.prefix_append _ _)
  | inFlights =>
      obtain rfl := Crash.fatal.inj hc
      exact ⟨['c', 'a', 'n', 'n', 'o', 't', ' ', 'a'], by simp [heads], by simp⟩

/-- No text that begins otherwise is one of theirs. -/
theorem not_logCheck {text : String} (h : ∀ p ∈ LogCheck.heads, ¬ p <+: text.toList) :
    ¬ LogCheck (Crash.fatal text) := by
  intro hcheck
  obtain ⟨p, hp, hbegins⟩ := hcheck.begins
  exact h p hp hbegins

/-- A text that begins with a number. -/
theorem not_logCheck_number (n : Nat) (text : String) :
    ¬ LogCheck (Crash.fatal (toString n ++ text)) := by
  refine not_logCheck fun p hp hbegins => ?_
  obtain ⟨d, ds, hdigits⟩ := List.exists_cons_of_ne_nil (Nat.toDigits_ne_nil (n := n) (b := 10))
  have hdigit : d.isDigit := Nat.isDigit_of_mem_toDigits (by decide) (by decide)
    (hdigits ▸ List.mem_cons_self ..)
  have hhead : ∀ c cs, p = c :: cs → c = d := by
    rintro c cs rfl
    rw [String.toList_append, Nat.toString_eq_repr, Nat.toList_repr, hdigits, List.cons_append,
      List.cons_prefix_cons] at hbegins
    exact hbegins.1
  simp only [LogCheck.heads, List.mem_cons, List.not_mem_nil, or_false] at hp
  rcases hp with rfl | rfl | rfl | rfl | rfl
  all_goals
    rw [← hhead _ _ rfl] at hdigit
    revert hdigit
    decide

/-- The computation fails none of the checks. -/
abbrev ChecksHold {α : Type} (x : Outcome α) : Prop := Outcome.Avoids LogCheck x

namespace ChecksHold

open Outcome

variable {α : Type}

theorem assertion (condition : String) : ChecksHold (throw (Crash.assertion condition) : Outcome α) :=
  Avoids.throw fun h => by cases h

theorem nullDeref (expression : String) :
    ChecksHold (throw (Crash.nullDeref expression) : Outcome α) :=
  Avoids.throw fun h => by cases h

theorem outOfRange (expression : String) :
    ChecksHold (throw (Crash.outOfRange expression) : Outcome α) :=
  Avoids.throw fun h => by cases h

theorem uninitialized (name : String) : ChecksHold (throw (Crash.uninitialized name) : Outcome α) :=
  Avoids.throw fun h => by cases h

theorem diverges (loop : String) : ChecksHold (throw (Crash.diverges loop) : Outcome α) :=
  Avoids.throw fun h => by cases h

/-- A fatal log line of another text. -/
theorem fatal {text : String} (h : ∀ p ∈ LogCheck.heads, ¬ p <+: text.toList) :
    ChecksHold (throw (Crash.fatal text) : Outcome α) :=
  Avoids.throw (not_logCheck h)

end ChecksHold

/-! ## Windows -/

namespace InFlights

variable {f : InFlights}

/-- A window that is not full has room. -/
theorem add_checks (h : f.isFull = false) (inflight : Nat) : ChecksHold (f.add inflight) := by
  simp only [add, h, Bool.false_eq_true, if_false]
  by_cases hroom : (if f.start + f.count ≥ f.size then f.start + f.count - f.size
      else f.start + f.count) < (if (if f.start + f.count ≥ f.size then f.start + f.count - f.size
      else f.start + f.count) ≥ f.buffer.length then resize f.grownSize f.buffer
      else f.buffer).length
  · rw [if_pos hroom]
    exact Outcome.Avoids.pure
  · rw [if_neg hroom]
    exact ChecksHold.outOfRange _

theorem freeScan_checks (upTo : Nat) : ∀ (remaining idx i : Nat),
    ChecksHold (f.freeScan upTo remaining idx i)
  | 0, _, _ => Outcome.Avoids.pure
  | remaining + 1, idx, i => by
      rw [freeScan]
      split
      · exact ChecksHold.outOfRange _
      · split
        · exact Outcome.Avoids.pure
        · exact freeScan_checks upTo remaining _ _

theorem freeTo_checks (upTo : Nat) : ChecksHold (f.freeTo upTo) := by
  rw [freeTo]
  split
  · exact Outcome.Avoids.pure
  split
  · exact ChecksHold.outOfRange _
  split
  · exact Outcome.Avoids.pure
  · exact Outcome.Avoids.bind (freeScan_checks _ _ _ _) fun _ _ => Outcome.Avoids.pure

theorem freeFirstOne_checks : ChecksHold f.freeFirstOne := by
  rw [freeFirstOne]
  split
  · exact ChecksHold.outOfRange _
  · exact freeTo_checks _

end InFlights

namespace Progress

variable {p : Progress}

theorem acknowledged_checks (index : Nat) : ChecksHold (p.acknowledged index) := by
  rw [acknowledged]
  split
  · exact Outcome.Avoids.pure
  · exact Outcome.Avoids.pure
  · exact Outcome.Avoids.bind (InFlights.freeTo_checks _) fun _ _ => Outcome.Avoids.pure

theorem heartbeatAnswered_checks : ChecksHold p.heartbeatAnswered := by
  rw [heartbeatAnswered]
  dsimp only
  split
  · exact Outcome.Avoids.bind InFlights.freeFirstOne_checks fun _ _ => Outcome.Avoids.pure
  · exact Outcome.Avoids.pure

/-- A peer that is not paused has room in its window. -/
theorem afterSending_checks (h : p.isPaused = false) (es : List Entry) :
    ChecksHold (p.afterSending es) := by
  rw [afterSending]
  split
  · exact Outcome.Avoids.pure
  split
  · rename_i hstate
    rw [isPaused, hstate] at h
    exact Outcome.Avoids.bind (InFlights.add_checks h _) fun _ _ => Outcome.Avoids.pure
  · exact Outcome.Avoids.pure
  · exact ChecksHold.fatal (by simp [LogCheck.heads])

end Progress

/-! ## Read requests -/

theorem Message.readContext_checks (m : Message) : ChecksHold m.readContext := by
  rw [readContext]
  split
  · exact ChecksHold.outOfRange _
  · exact Outcome.Avoids.pure

namespace ReadOnly

variable {ro : ReadOnly}

theorem addRequest_checks (index : Nat) (m : Message) : ChecksHold (ro.addRequest index m) := by
  refine Outcome.Avoids.bind m.readContext_checks fun ctx _ => ?_
  split
  · exact Outcome.Avoids.pure
  · exact Outcome.Avoids.pure

theorem collect_checks (ctx : Bytes) : ∀ (queue : List Bytes), ChecksHold (ro.collect ctx queue)
  | [] => Outcome.Avoids.pure
  | okctx :: queue => by
      rw [collect]
      split
      · exact ChecksHold.fatal (by simp [LogCheck.heads])
      · split
        · exact Outcome.Avoids.pure
        · exact Outcome.Avoids.bind (collect_checks ctx queue) fun _ _ => Outcome.Avoids.pure

theorem advance_checks (m : Message) : ChecksHold (ro.advance m) := by
  refine Outcome.Avoids.bind (collect_checks _ _) fun res _ => ?_
  obtain ⟨rss, found⟩ := res
  dsimp only
  split
  · refine Outcome.Avoids.bind ?_ fun _ _ => Outcome.Avoids.pure
    refine Outcome.Avoids.foldlM (P := fun _ => True) (fun pending rs _ _ => ?_)
      (fun _ _ _ _ _ _ => trivial) trivial
    exact Outcome.Avoids.bind (Message.readContext_checks _) fun _ _ => Outcome.Avoids.pure
  · exact Outcome.Avoids.pure

end ReadOnly

/-! ## Sending and roles -/

theorem voteRespMsgType_checks (t : MessageType) : ChecksHold (voteRespMsgType t) := by
  unfold voteRespMsgType
  split
  · exact Outcome.Avoids.pure
  · exact Outcome.Avoids.pure
  · exact ChecksHold.fatal (by simp [LogCheck.heads])

namespace Raft

variable {r : Raft}

theorem send_checks (m : Message) : ChecksHold (r.send m) := by
  rw [send]
  dsimp only
  split
  · split
    · exact ChecksHold.fatal (by simp [LogCheck.heads])
    · exact Outcome.Avoids.pure
  split
  · exact ChecksHold.fatal (by simp [LogCheck.heads, toString_string])
  · exact Outcome.Avoids.pure

theorem reset_checks (term : Nat) : ChecksHold (r.reset term) := by
  rw [reset]
  split
  · exact ChecksHold.assertion _
  · exact Outcome.Avoids.pure

theorem becomeFollower_checks (term lead : Nat) : ChecksHold (r.becomeFollower term lead) :=
  Outcome.Avoids.bind (reset_checks _) fun _ _ => Outcome.Avoids.pure

theorem becomeCandidate_checks : ChecksHold r.becomeCandidate := by
  rw [becomeCandidate]
  split
  · exact ChecksHold.fatal (by simp [LogCheck.heads])
  · exact Outcome.Avoids.bind (reset_checks _) fun _ _ => Outcome.Avoids.pure

theorem becomePreCandidate_checks : ChecksHold r.becomePreCandidate := by
  rw [becomePreCandidate]
  split
  · exact ChecksHold.fatal (by simp [LogCheck.heads])
  · exact Outcome.Avoids.pure

theorem respondRead_checks (req : Message) (index : Nat) : ChecksHold (r.respondRead req index) := by
  rw [respondRead]
  split
  · exact Outcome.Avoids.bind (Message.readContext_checks _) fun _ _ => Outcome.Avoids.pure
  · exact send_checks _

theorem releaseReads_checks (m : Message) : ChecksHold (r.releaseReads m) := by
  rw [releaseReads]
  split
  · exact Outcome.Avoids.pure
  dsimp only
  split
  · exact Outcome.Avoids.pure
  · refine Outcome.Avoids.bind (ReadOnly.advance_checks _) fun _ _ => ?_
    exact Outcome.Avoids.foldlM (P := fun _ => True) (fun _ _ _ _ => respondRead_checks _ _)
      (fun _ _ _ _ _ _ => trivial) trivial

theorem forwardToLead_checks (m : Message) : ChecksHold (r.forwardToLead m) :=
  Outcome.Avoids.bind (send_checks _) fun _ _ => Outcome.Avoids.pure

theorem sendHeartbeat_checks (toId : Nat) (ctx : Bytes) : ChecksHold (r.sendHeartbeat toId ctx) := by
  rw [sendHeartbeat]
  split
  · exact ChecksHold.nullDeref _
  · exact send_checks _

theorem bcastHeartbeatWithCtx_checks (ctx : Bytes) : ChecksHold (r.bcastHeartbeatWithCtx ctx) := by
  refine Outcome.Avoids.foldlM (P := fun _ => True) (fun s id _ _ => ?_)
    (fun _ _ _ _ _ _ => trivial) trivial
  split
  · exact Outcome.Avoids.pure
  · exact sendHeartbeat_checks _ _

theorem stepLeaderReadIndex_checks (m : Message) : ChecksHold (r.stepLeaderReadIndex m) := by
  rw [stepLeaderReadIndex]
  split
  · split
    · exact Outcome.Avoids.pure
    split
    · refine Outcome.Avoids.bind (ReadOnly.addRequest_checks _ _) fun _ _ => ?_
      exact Outcome.Avoids.bind (Message.readContext_checks _) fun _ _ =>
        bcastHeartbeatWithCtx_checks _
    · exact respondRead_checks _ _
  · exact Outcome.Avoids.bind (Message.readContext_checks _) fun _ _ => Outcome.Avoids.pure

theorem finishTransfer_checks (id matched : Nat) : ChecksHold (r.finishTransfer id matched) := by
  rw [finishTransfer]
  split
  · exact send_checks _
  · exact Outcome.Avoids.pure

theorem stepHigherTerm_checks (m : Message) : ChecksHold (r.stepHigherTerm m) := by
  rw [stepHigherTerm]
  split
  · exact Outcome.Avoids.pure
  · split
    · exact becomeFollower_checks _ _
    · exact Outcome.Avoids.pure
  · exact becomeFollower_checks _ _
  · exact becomeFollower_checks _ _
  · exact becomeFollower_checks _ _
  · exact becomeFollower_checks _ _

theorem stepLowerTerm_checks (m : Message) : ChecksHold (r.stepLowerTerm m) := by
  rw [stepLowerTerm]
  split
  · exact send_checks _
  split
  · exact send_checks _
  · exact Outcome.Avoids.pure

theorem checkTerm_checks (m : Message) : ChecksHold (r.checkTerm m) := by
  rw [checkTerm]
  split
  · exact Outcome.Avoids.pure
  split
  · split
    · exact Outcome.Avoids.pure
    · exact Outcome.Avoids.bind (stepHigherTerm_checks _) fun _ _ => Outcome.Avoids.pure
  split
  · exact Outcome.Avoids.bind (stepLowerTerm_checks _) fun _ _ => Outcome.Avoids.pure
  · exact Outcome.Avoids.pure

end Raft

end RaftKv
