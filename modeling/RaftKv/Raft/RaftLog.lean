import RaftKv.Raft.Storage
import RaftKv.Raft.Unstable

/-!
# The log of a node

`RaftLog` (`raft/raft_log.cpp`) presents the stable part in the `MemoryStorage` and the unstable
tail as one log, and keeps the commit and the apply index.

The storage object is shared with the process around the node, which writes to it between two
`Ready`s; here the log owns it and the process updates it through the node.
-/

namespace RaftKv

structure RaftLog where
  storage : MemoryStorage
  unstable : Unstable
  committed : Nat
  applied : Nat
  maxNextEntsSize : Nat
  deriving Repr

namespace RaftLog

/-- `RaftLog::unlimited`. -/
def unlimited : Nat := 2 ^ 64 - 1

/-- The constructor: commit and apply index start at the last compacted position. -/
def init (storage : MemoryStorage) (maxNextEntsSize : Nat) : RaftLog :=
  { storage := storage
    unstable := { offset := storage.lastIndex + 1 }
    committed := storage.firstIndex - 1
    applied := storage.firstIndex - 1
    maxNextEntsSize := maxNextEntsSize }

def firstIndex (l : RaftLog) : Nat := l.unstable.maybeFirstIndex.getD l.storage.firstIndex

def lastIndex (l : RaftLog) : Nat := l.unstable.maybeLastIndex.getD l.storage.lastIndex

/-- Outside `[first_index - 1, last_index]` the term is 0, and the status is still ok. -/
def term (l : RaftLog) (index : Nat) : Except Status Nat :=
  if index < l.firstIndex - 1 ∨ index > l.lastIndex then Except.ok 0
  else
    match l.unstable.maybeTerm index with
    | some t => Except.ok t
    | none => l.storage.term index

def matchTerm (l : RaftLog) (index t : Nat) : Bool :=
  match l.term index with
  | Except.error _ => false
  | Except.ok termOut => t == termOut

def lastTerm (l : RaftLog) : Outcome Nat :=
  match l.term l.lastIndex with
  | Except.error _ => throw (Crash.assertion "status.is_ok()")
  | Except.ok t => pure t

def isUpToDate (l : RaftLog) (lasti term : Nat) : Outcome Bool := do
  let lt ← l.lastTerm
  return decide (term > lt) || (decide (term = lt) && decide (lasti ≥ l.lastIndex))

/-- The index of the first entry the log does not hold, or 0 if it holds them all. -/
def findConflict (l : RaftLog) : List Entry → Nat
  | [] => 0
  | e :: es => if l.matchTerm e.index e.term then findConflict l es else e.index

/-- Never decreases the commit index. -/
def commitTo (l : RaftLog) (toCommit : Nat) : Outcome RaftLog :=
  if l.committed < toCommit then
    if l.lastIndex < toCommit then
      throw (Crash.fatal s!"to_commit({toCommit}) is out of range [lastIndex({l.lastIndex
        })]. Was the raft log corrupted, truncated, or lost?")
    else pure { l with committed := toCommit }
  else pure l

/-- The new log and its last index. -/
def append (l : RaftLog) (entries : List Entry) : Outcome (RaftLog × Nat) :=
  match entries with
  | [] => pure (l, l.lastIndex)
  | e :: _ =>
      -- `entries[0]->index - 1` wraps at 0, and is then not below the commit index
      if e.index ≠ 0 ∧ e.index - 1 < l.committed then
        -- the format string goes on behind its closing quote
        throw (Crash.fatal
          s!"after({e.index - 1}) is out of range [committed({l.committed})]\", after, committed_")
      else do
        let unstable ← l.unstable.truncateAndAppend entries
        let l := { l with unstable := unstable }
        return (l, l.lastIndex)

/-- Append what a batch that starts behind `index` has beyond the log's own entries.  A conflict
below `index` would make the source erase a negative number of entries. -/
def appendNew (l : RaftLog) (index : Nat) (entries : List Entry) : Outcome RaftLog :=
  let ci := l.findConflict entries
  if ci = 0 then pure l
  else if ci ≤ l.committed then
    throw (Crash.fatal s!"entry {ci} conflict with committed entry [committed({l.committed})]")
  else if ci < index + 1 ∨ ci - (index + 1) > entries.length then
    throw (Crash.outOfRange "entries.erase(entries.begin(), entries.begin() + n)")
  else do
    let (l, _) ← l.append (entries.drop (ci - (index + 1)))
    return l

/-- `some lastNewIndex` stands for the source's `ok = true`. -/
def maybeAppend (l : RaftLog) (index logTerm committed : Nat) (entries : List Entry) :
    Outcome (RaftLog × Option Nat) :=
  if l.matchTerm index logTerm then do
    let lastnewi := index + entries.length
    let l ← l.appendNew index entries
    let l ← l.commitTo (min committed lastnewi)
    return (l, some lastnewi)
  else pure (l, none)

/-- A term that cannot be read leaves the source's local variable unassigned. -/
def maybeCommit (l : RaftLog) (maxIndex term : Nat) : Outcome (RaftLog × Bool) :=
  if maxIndex > l.committed then
    match l.term maxIndex with
    | Except.error _ => throw (Crash.uninitialized "t")
    | Except.ok t =>
        if t = term then do
          let l ← l.commitTo maxIndex
          return (l, true)
        else pure (l, false)
  else pure (l, false)

def mustCheckOutOfBounds (l : RaftLog) (low high : Nat) : Outcome Status :=
  if ¬ high ≥ low then throw (Crash.assertion "high >= low")
  else if low < l.firstIndex then
    pure (Status.invalidArgument "requested index is unavailable due to compaction")
  else if high > l.firstIndex + (l.lastIndex + 1 - l.firstIndex) then
    throw (Crash.fatal s!"slice[{low},{high}) out of bound [{l.firstIndex},{l.lastIndex}]")
  else pure Status.ok

/-- The entries of `[low, high)`, cut to `maxSize`; the inner result is the returned status. -/
def slice (l : RaftLog) (low high maxSize : Nat) : Outcome (Except Status (List Entry)) := do
  let status ← l.mustCheckOutOfBounds low high
  if status ≠ Status.ok then return Except.error status
  if low = high then return Except.ok []
  let stable ←
    if low < l.unstable.offset then
      l.storage.entriesOf low (min high l.unstable.offset) maxSize
    else pure (Except.ok [])
  match stable with
  | Except.error status => return Except.error status
  | Except.ok stable =>
      -- the storage's part has reached the size limit
      if low < l.unstable.offset ∧ stable.length < min high l.unstable.offset - low then
        return Except.ok stable
      let tail ←
        if high > l.unstable.offset then l.unstable.slice (max low l.unstable.offset) high
        else pure []
      return Except.ok (entryLimitSize maxSize (stable ++ tail))

/-- The entries from `index` on. -/
def entries (l : RaftLog) (index maxSize : Nat) : Outcome (Except Status (List Entry)) :=
  if index > l.lastIndex then pure (Except.ok [])
  else l.slice index (l.lastIndex + 1) maxSize

/-- Where the next entry to apply is. -/
def nextOffset (l : RaftLog) : Nat := max (l.applied + 1) l.firstIndex

/-- The committed entries that have not been applied. -/
def nextEntries (l : RaftLog) : Outcome (List Entry) :=
  if l.committed + 1 > l.nextOffset then do
    match ← l.slice l.nextOffset (l.committed + 1) l.maxNextEntsSize with
    | Except.ok es => pure es
    | Except.error _ => throw (Crash.fatal "unexpected error when getting unapplied entries")
  else pure []

def hasNextEntries (l : RaftLog) : Bool := decide (l.committed + 1 > l.nextOffset)

def restore (l : RaftLog) (snapshot : Snapshot) : RaftLog :=
  { l with committed := snapshot.metadata.index, unstable := l.unstable.restore snapshot }

/-- The snapshot that would be sent: the one being installed, or the storage's. -/
def snapshot (l : RaftLog) : Snapshot := l.unstable.snapshot.getD l.storage.snapshot

/-- An index outside `[applied, committed]` is logged, and taken over all the same. -/
def appliedTo (l : RaftLog) (index : Nat) : RaftLog :=
  if index = 0 then l else { l with applied := index }

def stableTo (l : RaftLog) (index term : Nat) : RaftLog :=
  { l with unstable := l.unstable.stableTo index term }

def stableSnapTo (l : RaftLog) (index : Nat) : RaftLog :=
  { l with unstable := l.unstable.stableSnapTo index }

/-- Let the process around the node write to the shared storage. -/
def setStorage (l : RaftLog) (storage : MemoryStorage) : RaftLog := { l with storage := storage }

end RaftLog

end RaftKv
