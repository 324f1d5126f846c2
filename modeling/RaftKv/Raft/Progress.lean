import RaftKv.Raft.Proto

/-!
# What a leader knows about a peer

`InFlights` and `Progress` (`raft/progress.cpp`).  The window of unacknowledged messages is a
ring buffer that grows on demand; every access to it is checked here, as the source checks none.
-/

namespace RaftKv

structure InFlights where
  start : Nat := 0
  count : Nat := 0
  size : Nat
  buffer : List Nat := []
  deriving DecidableEq, Repr

namespace InFlights

/-- The constructor narrows the bound to 32 bits. -/
def new (maxInflightMsgs : Nat) : InFlights := { size := wrap32 maxInflightMsgs }

def reset (f : InFlights) : InFlights := { f with start := 0, count := 0 }

def isFull (f : InFlights) : Bool := f.size == f.count

/-- `std::vector::resize`: cut, or fill up with zeros. -/
def resize (n : Nat) (buffer : List Nat) : List Nat :=
  buffer.take n ++ List.replicate (n - buffer.length) 0

/-- The size the buffer grows to when it is too short. -/
def grownSize (f : InFlights) : Nat :=
  let doubled := wrap32 (f.buffer.length * 2)
  if doubled = 0 then 1 else if doubled > f.size then f.size else doubled

def add (f : InFlights) (inflight : Nat) : Outcome InFlights :=
  if f.isFull then throw (Crash.fatal "cannot add into a full inflights")
  else
    let next := f.start + f.count
    let next := if next ≥ f.size then next - f.size else next
    let buffer := if next ≥ f.buffer.length then resize f.grownSize f.buffer else f.buffer
    if next < buffer.length then
      pure { f with buffer := buffer.set next inflight, count := f.count + 1 }
    else throw (Crash.outOfRange "buffer[next]")

/-- The loop of `free_to`: advance `idx` past the inflights that `upTo` covers, counting them. -/
def freeScan (f : InFlights) (upTo : Nat) : Nat → Nat → Nat → Outcome (Nat × Nat)
  | 0, idx, i => pure (idx, i)
  | remaining + 1, idx, i =>
      match f.buffer[idx]? with
      | none => throw (Crash.outOfRange "buffer[idx]")
      | some v =>
          if upTo < v then pure (idx, i)
          else freeScan f upTo remaining (if idx + 1 ≥ f.size then idx + 1 - f.size else idx + 1)
            (i + 1)

/-- Free the inflights up to `upTo`. -/
def freeTo (f : InFlights) (upTo : Nat) : Outcome InFlights :=
  if f.count = 0 then pure f
  else
    match f.buffer[f.start]? with
    | none => throw (Crash.outOfRange "buffer[start]")
    | some v =>
        -- out of the left side of the window
        if upTo < v then pure f
        else do
          let (idx, i) ← f.freeScan upTo f.count f.start 0
          let count := f.count - i
          return { f with count := count, start := if count = 0 then 0 else idx }

def freeFirstOne (f : InFlights) : Outcome InFlights :=
  match f.buffer[f.start]? with
  | none => throw (Crash.outOfRange "buffer[start]")
  | some v => f.freeTo v

end InFlights

inductive ProgressState where
  | probe | replicate | snapshot
  deriving DecidableEq, Repr

/-- `match` is a reserved word here, hence `matched`.  `next` is at least 1 from the moment a
progress is entered into one of the two maps. -/
structure Progress where
  matched : Nat := 0
  next : Nat := 0
  state : ProgressState := ProgressState.probe
  paused : Bool := false
  pendingSnapshot : Nat := 0
  recentActive : Bool := false
  inflights : InFlights
  isLearner : Bool := false
  deriving DecidableEq, Repr

namespace Progress

def new (maxInflight : Nat) : Progress := { inflights := InFlights.new maxInflight }

def resetState (p : Progress) (st : ProgressState) : Progress :=
  { p with paused := false, pendingSnapshot := 0, state := st, inflights := p.inflights.reset }

def becomeReplicate (p : Progress) : Progress :=
  { p.resetState ProgressState.replicate with next := p.matched + 1 }

/-- After a snapshot, probing starts behind it. -/
def becomeProbe (p : Progress) : Progress :=
  if p.state = ProgressState.snapshot then
    { p.resetState ProgressState.probe with
      next := max (p.matched + 1) (p.pendingSnapshot + 1) }
  else { p.resetState ProgressState.probe with next := p.matched + 1 }

def becomeSnapshot (p : Progress) (snapshoti : Nat) : Progress :=
  { p.resetState ProgressState.snapshot with pendingSnapshot := snapshoti }

def isPaused (p : Progress) : Bool :=
  match p.state with
  | ProgressState.probe => p.paused
  | ProgressState.replicate => p.inflights.isFull
  | ProgressState.snapshot => true

def setPause (p : Progress) : Progress := { p with paused := true }

def resume (p : Progress) : Progress := { p with paused := false }

/-- The flag says whether `n` was news. -/
def maybeUpdate (p : Progress) (n : Nat) : Progress × Bool :=
  let (p, updated) :=
    if p.matched < n then ({ p with matched := n, paused := false }, true) else (p, false)
  (if p.next < n + 1 then { p with next := n + 1 } else p, updated)

def optimisticUpdate (p : Progress) (n : Nat) : Progress := { p with next := n + 1 }

/-- The flag says whether the rejection was not a stale one. -/
def maybeDecreasesTo (p : Progress) (rejected last : Nat) : Progress × Bool :=
  if p.state = ProgressState.replicate then
    if rejected ≤ p.matched then (p, false)
    else ({ p with next := p.matched + 1 }, true)
  else if p.next - 1 ≠ rejected then (p, false)
  else ({ p with next := max (min rejected (last + 1)) 1, paused := false }, true)

def needSnapshotAbort (p : Progress) : Bool :=
  decide (p.state = ProgressState.snapshot) && decide (p.matched ≥ p.pendingSnapshot)

def snapshotFailure (p : Progress) : Progress := { p with pendingSnapshot := 0 }

/-- What `step_leader` does to the progress after an acknowledgement of `index` that was news: a
probe found the peer's position, a pending snapshot may have arrived, a window may have room. -/
def acknowledged (p : Progress) (index : Nat) : Outcome Progress :=
  match p.state with
  | ProgressState.probe => pure p.becomeReplicate
  | ProgressState.snapshot => pure (if p.needSnapshotAbort then p.becomeProbe else p)
  | ProgressState.replicate => do
      let inflights ← p.inflights.freeTo index
      return { p with inflights := inflights }

/-- What `step_leader` does to the progress after a heartbeat answer: one slot of a full window is
freed, so that a lost acknowledgement cannot block it for good. -/
def heartbeatAnswered (p : Progress) : Outcome Progress :=
  let p := { p.resume with recentActive := true }
  if p.state = ProgressState.replicate ∧ p.inflights.isFull then do
    let inflights ← p.inflights.freeFirstOne
    return { p with inflights := inflights }
  else pure p

/-- How sending a batch of entries moves the progress: optimistically when replicating, by a pause
when probing.  This is the tail of `Raft::maybe_send_append`. -/
def afterSending (p : Progress) (entries : List Entry) : Outcome Progress :=
  match entries.getLast? with
  | none => pure p
  | some last =>
      match p.state with
      | ProgressState.replicate => do
          let p := p.optimisticUpdate last.index
          let inflights ← p.inflights.add last.index
          return { p with inflights := inflights }
      | ProgressState.probe => pure p.setPause
      | ProgressState.snapshot => throw (Crash.fatal "is sending append in unhandled state")

/-! ## What was acknowledged -/

section Matched

variable {p p' : Progress}

/-- What an acknowledgement does to the indices. -/
lemma maybeUpdate_fst (p : Progress) (n : Nat) : (p.maybeUpdate n).1 = { p with
    matched := max p.matched n
    next := max p.next (n + 1)
    paused := if p.matched < n then false else p.paused } := by
  have hmax : ∀ {a b : Nat}, a < b → max a b = b := fun h => Nat.max_eq_right (Nat.le_of_lt h)
  have hkept : ∀ {a b : Nat}, ¬ a < b → max a b = a := fun h => Nat.max_eq_left (Nat.not_lt.mp h)
  by_cases hm : p.matched < n
  · by_cases hx : p.next < n + 1
    · simp [maybeUpdate, hm, hx, hmax hm, hmax hx]
    · simp [maybeUpdate, hm, hx, hmax hm, hkept hx]
  · by_cases hx : p.next < n + 1
    · simp [maybeUpdate, hm, hx, hkept hm, hmax hx]
    · simp [maybeUpdate, hm, hx, hkept hm, hkept hx]

lemma matched_becomeProbe (p : Progress) : p.becomeProbe.matched = p.matched := by
  rw [becomeProbe]
  split <;> rfl

lemma matched_maybeUpdate (p : Progress) (n : Nat) :
    (p.maybeUpdate n).1.matched = max p.matched n := by
  rw [maybeUpdate_fst]

lemma matched_maybeDecreasesTo (p : Progress) (rejected hint : Nat) :
    (p.maybeDecreasesTo rejected hint).1.matched = p.matched := by
  rw [maybeDecreasesTo]
  split_ifs <;> rfl

lemma matched_acknowledged {n : Nat} (h : p.acknowledged n = Except.ok p') :
    p'.matched = p.matched := by
  rw [acknowledged] at h
  split at h
  · cases h
    rfl
  · cases h
    split
    · exact matched_becomeProbe p
    · rfl
  · obtain ⟨f, -, h⟩ := Outcome.bind_eq_ok.mp h
    cases h
    rfl

lemma matched_afterSending {es : List Entry} (h : p.afterSending es = Except.ok p') :
    p'.matched = p.matched := by
  rw [afterSending] at h
  split at h
  · cases h
    rfl
  split at h
  · obtain ⟨f, -, h⟩ := Outcome.bind_eq_ok.mp h
    cases h
    rfl
  · cases h
    rfl
  · cases h

lemma matched_heartbeatAnswered (h : p.heartbeatAnswered = Except.ok p') :
    p'.matched = p.matched := by
  rw [heartbeatAnswered] at h
  dsimp only at h
  split at h
  · obtain ⟨f, -, h⟩ := Outcome.bind_eq_ok.mp h
    cases h
    rfl
  · cases h
    rfl

end Matched

end Progress

end RaftKv
