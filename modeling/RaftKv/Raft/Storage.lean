import RaftKv.Raft.Proto

/-!
# The in-memory storage

`MemoryStorage` (`raft/storage.cpp`): the part of the log that has been handed over by a `Ready`,
the newest snapshot and the hard state.  Its first entry is a dummy holding index and term of the
last compacted position.  That the vector is never empty is a field here, so every access to
`entries_[0]` of the source is total.
-/

namespace RaftKv

/-- The list of the dummy entry alone. -/
theorem dummy_ne_nil : [({} : Entry)] ≠ [] := List.cons_ne_nil _ _

structure MemoryStorage where
  hardState : HardState := {}
  snapshot : Snapshot := {}
  /-- `entries_[0]` is the dummy entry. -/
  entries : List Entry := [{}]
  nonempty : entries ≠ [] := by first | exact dummy_ne_nil | decide
  deriving Repr

instance : Inhabited MemoryStorage := ⟨{}⟩

namespace MemoryStorage

/-- `entries_[0]`. -/
def front (s : MemoryStorage) : Entry := s.entries.head s.nonempty

def lastIndex (s : MemoryStorage) : Nat := s.front.index + s.entries.length - 1

def firstIndex (s : MemoryStorage) : Nat := s.front.index + 1

def initialState (s : MemoryStorage) : HardState × ConfState :=
  (s.hardState, s.snapshot.metadata.confState)

def setHardState (s : MemoryStorage) (hs : HardState) : MemoryStorage := { s with hardState := hs }

/-- The entries of `[low, high)`, cut to `maxSize`; the inner result is the returned status. -/
def entriesOf (s : MemoryStorage) (low high maxSize : Nat) :
    Outcome (Except Status (List Entry)) := do
  if ¬ low < high then throw (Crash.assertion "low < high")
  let offset := s.front.index
  if low ≤ offset then
    return Except.error
      (Status.invalidArgument "requested index is unavailable due to compaction")
  if high > s.lastIndex + 1 then
    throw (Crash.fatal s!"entries' hi({high}) is out of bound last_index({s.lastIndex})")
  if s.entries.length = 1 then
    return Except.error (Status.invalidArgument "requested entry at index is unavailable")
  return Except.ok (entryLimitSize maxSize ((s.entries.take (high - offset)).drop (low - offset)))

def term (s : MemoryStorage) (i : Nat) : Except Status Nat :=
  let offset := s.front.index
  if i < offset then
    Except.error (Status.invalidArgument "requested index is unavailable due to compaction")
  else
    match s.entries[i - offset]? with
    | none => Except.error (Status.invalidArgument "requested entry at index is unavailable")
    | some e => Except.ok e.term

/-- Discard all entries before `compactIndex`, whose index and term the dummy takes over. -/
def compact (s : MemoryStorage) (compactIndex : Nat) : Outcome (MemoryStorage × Status) :=
  let offset := s.front.index
  if compactIndex ≤ offset then
    pure (s, Status.invalidArgument "requested index is unavailable due to compaction")
  else if compactIndex > s.lastIndex then
    throw (Crash.fatal s!"compact {compactIndex} is out of bound lastindex({s.lastIndex})")
  else
    match s.entries[compactIndex - offset]? with
    | none => throw (Crash.outOfRange "entries_[i]")
    | some e =>
        pure ({ s with
          entries := { s.front with index := e.index, term := e.term } ::
            s.entries.drop (compactIndex - offset + 1)
          nonempty := by simp }, Status.ok)

/-- Append a batch, replacing whatever the storage holds from its first index on. -/
def append (s : MemoryStorage) (entries : List Entry) : Outcome MemoryStorage :=
  match entries with
  | [] => pure s
  | e :: es =>
      let first := s.firstIndex
      let last := e.index + (es.length + 1) - 1
      if last < first then pure s
      else
        -- entries before `first` are already in the snapshot
        match (e :: es).drop (first - e.index) with
        | [] => throw (Crash.outOfRange "entries[0]")
        | e₁ :: es₁ =>
            let offset := e₁.index - s.front.index
            if e₁.index < s.front.index ∨ s.entries.length < offset then
              throw (Crash.fatal
                s!"missing log entry [last: {s.lastIndex}, append at: {e₁.index}")
            else
              pure { s with
                entries := s.entries.take offset ++ e₁ :: es₁
                nonempty := by simp }

/-- Record the state at `index` as the newest snapshot.  The snapshot object itself is updated in
place, and it is this object that is handed out. -/
def createSnapshot (s : MemoryStorage) (index : Nat) (cs : Option ConfState) (data : Bytes) :
    Outcome (MemoryStorage × Snapshot × Status) :=
  if index ≤ s.snapshot.metadata.index then
    pure (s, {}, Status.invalidArgument "requested index is older than the existing snapshot")
  else if index > s.lastIndex then
    throw (Crash.fatal s!"snapshot {index} is out of bound lastindex({s.lastIndex})")
  else if index < s.front.index then throw (Crash.outOfRange "entries_[index - offset]")
  else
    match s.entries[index - s.front.index]? with
    | none => throw (Crash.outOfRange "entries_[index - offset]")
    | some e =>
        let snapshot : Snapshot :=
          { data := data
            metadata :=
              { confState := cs.getD s.snapshot.metadata.confState, index := index,
                term := e.term } }
        pure ({ s with snapshot := snapshot }, snapshot, Status.ok)

/-- Replace the whole content by a snapshot; an older one is refused. -/
def applySnapshot (s : MemoryStorage) (snapshot : Snapshot) : MemoryStorage × Status :=
  if s.snapshot.metadata.index ≥ snapshot.metadata.index then
    (s, Status.invalidArgument "requested index is older than the existing snapshot")
  else
    ({ s with
        snapshot := snapshot
        entries := [{ term := snapshot.metadata.term, index := snapshot.metadata.index }]
        nonempty := by simp }, Status.ok)

end MemoryStorage

end RaftKv
