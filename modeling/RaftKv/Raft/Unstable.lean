import RaftKv.Raft.Proto

/-!
# The unstable tail of the log

`Unstable` (`raft/unstable.cpp`): the entries, and possibly the snapshot, that no `Ready` has
handed to the storage yet.  `entries[i]` has log position `i + offset`.
-/

namespace RaftKv

structure Unstable where
  snapshot : Option Snapshot := none
  entries : List Entry := []
  offset : Nat
  deriving DecidableEq, Repr

namespace Unstable

def maybeFirstIndex (u : Unstable) : Option Nat :=
  u.snapshot.map fun s => s.metadata.index + 1

def maybeLastIndex (u : Unstable) : Option Nat :=
  if u.entries ≠ [] then some (u.offset + u.entries.length - 1)
  else u.snapshot.map fun s => s.metadata.index

def maybeTerm (u : Unstable) (index : Nat) : Option Nat :=
  if index < u.offset then
    match u.snapshot with
    | none => none
    | some s => if s.metadata.index = index then some s.metadata.term else none
  else
    match u.maybeLastIndex with
    | none => none
    | some last =>
        if index > last then none
        else u.entries[index - u.offset]?.map Entry.term

/-- Forget the entries up to `index`, if the entry there still has `term`. -/
def stableTo (u : Unstable) (index term : Nat) : Unstable :=
  match u.maybeTerm index with
  | none => u
  | some gt =>
      if gt = term ∧ index ≥ u.offset then
        { u with entries := u.entries.drop (index + 1 - u.offset), offset := index + 1 }
      else u

def stableSnapTo (u : Unstable) (index : Nat) : Unstable :=
  match u.snapshot with
  | none => u
  | some s => if s.metadata.index = index then { u with snapshot := none } else u

def restore (_u : Unstable) (snapshot : Snapshot) : Unstable :=
  { offset := snapshot.metadata.index + 1, entries := [], snapshot := some snapshot }

def slice (u : Unstable) (low high : Nat) : Outcome (List Entry) :=
  if ¬ high > low then throw (Crash.assertion "high > low")
  else if low < u.offset ∨ high > u.offset + u.entries.length then
    throw (Crash.fatal s!"unstable.slice[{low},{high}) out of bound [{u.offset},{u.offset +
      u.entries.length}]")
  else pure ((u.entries.take (high - u.offset)).drop (low - u.offset))

def truncateAndAppend (u : Unstable) (entries : List Entry) : Outcome Unstable :=
  match entries with
  | [] => pure u
  | e :: _ =>
      let after := e.index
      if after = u.offset + u.entries.length then
        -- directly append
        pure { u with entries := u.entries ++ entries }
      else if after ≤ u.offset then
        -- the log is truncated to before our portion: replace it
        pure { u with offset := after, entries := entries }
      else do
        let kept ← u.slice u.offset after
        pure { u with entries := kept ++ entries }

end Unstable

end RaftKv
