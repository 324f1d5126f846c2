import Mathlib.Data.List.AList
import Mathlib.Data.Finset.Card
import RaftKv.Raft.Proto

/-!
# Pending read requests

`ReadOnly` (`raft/readonly.cpp`): the read requests that wait for a quorum of heartbeat answers,
keyed by their context, and the order in which they came in.
-/

namespace RaftKv

inductive ReadOnlyOption where
  | readOnlySafe | readOnlyLeaseBased
  deriving DecidableEq, Repr

structure ReadState where
  index : Nat
  requestCtx : Bytes
  deriving DecidableEq, Repr

structure ReadIndexStatus where
  req : Message
  index : Nat
  acks : Finset Nat := ∅

structure ReadOnly where
  option : ReadOnlyOption
  pendingReadIndex : AList (fun _ : Bytes => ReadIndexStatus) := ∅
  readIndexQueue : List Bytes := []

/-- `entries[0].data`, by which a read request names itself. -/
def Message.readContext (m : Message) : Outcome Bytes :=
  match m.entries with
  | [] => throw (Crash.outOfRange "entries[0]")
  | e :: _ => pure e.data

namespace ReadOnly

def lastPendingRequestCtx (ro : ReadOnly) : Bytes := ro.readIndexQueue.getLast?.getD []

/-- How many nodes, the local one included, are known to have acknowledged `m`'s context. -/
def recvAck (ro : ReadOnly) (m : Message) : ReadOnly × Nat :=
  match ro.pendingReadIndex.lookup m.context with
  | none => (ro, 0)
  | some status =>
      let status := { status with acks := insert m.fromId status.acks }
      ({ ro with pendingReadIndex := ro.pendingReadIndex.insert m.context status },
        status.acks.card + 1)

/-- The loop of `advance`: the requests up to and including `ctx`, and whether `ctx` was found. -/
def collect (ro : ReadOnly) (ctx : Bytes) : List Bytes → Outcome (List ReadIndexStatus × Bool)
  | [] => pure ([], false)
  | okctx :: queue =>
      match ro.pendingReadIndex.lookup okctx with
      | none => throw (Crash.fatal "cannot find corresponding read state from pending map")
      | some status =>
          if okctx = ctx then pure ([status], true)
          else do
            let (rss, found) ← collect ro ctx queue
            return (status :: rss, found)

/-- Release the requests up to `m`'s context.  When the queue does not hold the context, the
source still returns the requests it walked over, without removing them. -/
def advance (ro : ReadOnly) (m : Message) : Outcome (ReadOnly × List ReadIndexStatus) := do
  let (rss, found) ← ro.collect m.context ro.readIndexQueue
  if found then do
    let pending ← rss.foldlM
      (fun pending rs => do return pending.erase (← rs.req.readContext)) ro.pendingReadIndex
    return ({ ro with
      readIndexQueue := ro.readIndexQueue.drop rss.length
      pendingReadIndex := pending }, rss)
  else return (ro, rss)

def addRequest (ro : ReadOnly) (index : Nat) (m : Message) : Outcome ReadOnly := do
  let ctx ← m.readContext
  if ctx ∈ ro.pendingReadIndex then return ro
  return { ro with
    pendingReadIndex := ro.pendingReadIndex.insert ctx { req := m, index := index }
    readIndexQueue := ro.readIndexQueue ++ [ctx] }

end ReadOnly

end RaftKv
