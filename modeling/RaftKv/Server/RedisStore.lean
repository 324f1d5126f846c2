import Mathlib.Data.List.AList
import RaftKv.Core.MsgPack
import RaftKv.Core.Outcome
import RaftKv.Server.RocksDB
import RaftKv.Server.StringMatch

/-!
# The store behind the sessions

`RedisStore` (`server/redis_store.cpp`): the database, the requests that wait for their log entry
and the handlers that run on the store's thread.  A callback is a value of any type `κ`; a handler
returns the callbacks it invokes, each with its status.

* `RedisStore.recoverFromSnapshot_iff` — **a snapshot of a store reproduces the store** on every
  receiver, unless the snapshot lists no key and the receiver holds one: the test for keys to delete
  sits inside the loop over the pairs of the snapshot and never runs when there are none.
-/

namespace RaftKv

structure RedisCommitData where
  type : UInt8
  strs : List Bytes
  deriving DecidableEq, Repr

namespace RedisCommitData

def kCommitSet : UInt8 := 0

def kCommitDel : UInt8 := 1

end RedisCommitData

structure RaftCommit where
  nodeId : UInt32
  commitId : UInt32
  redisData : RedisCommitData
  deriving DecidableEq, Repr

/-- The packed form of a list of pairs of strings. -/
def keyValuesCodec : Codec (List (Bytes × Bytes)) :=
  Codec.ofFormat
    (Format.list (Format.record 2 (Format.seq (Format.blob Header.str) (Format.blob Header.str))))

/-- The packed form of a commit. -/
def commitFormat : Format RaftCommit :=
  (Format.record 3 (Format.seq Format.nat (Format.seq Format.nat (Format.record 2
    (Format.seq Format.nat (Format.list (Format.blob Header.str))))))).map
    (fun t => ⟨UInt32.ofNat t.1, UInt32.ofNat t.2.1, ⟨UInt8.ofNat t.2.2.1, t.2.2.2⟩⟩)
    (fun c => (c.nodeId.toNat, c.commitId.toNat, c.redisData.type.toNat, c.redisData.strs))
    (fun c => by simp)

def commitCodec : Codec RaftCommit := Codec.ofFormat commitFormat

lemma commitCodec_roundTrips (commit : RaftCommit)
    (hlen : commit.redisData.strs.length < 16)
    (hstrs : ∀ s ∈ commit.redisData.strs, s.length < 32) : commitCodec.RoundTrips commit := by
  have huint : ∀ n < 2 ^ 32, Header.uint.Fits n := fun n hn =>
    Or.inr ⟨(0xce, 4), by decide, hn⟩
  refine Codec.roundTrips_ofFormat _ ⟨Or.inl (by decide), huint _ commit.nodeId.toNat_lt,
    huint _ commit.commitId.toNat_lt, Or.inl (by decide), ?_, Or.inl hlen, fun s hs =>
      Or.inl (hstrs s hs)⟩
  exact huint _ (lt_of_lt_of_le commit.redisData.type.toNat_lt (by decide))

structure RedisStore (κ : Type) where
  /-- `server_->node_id()`. -/
  nodeId : Nat
  nextRequestId : UInt32 := 0
  pendingRequests : AList (fun _ : UInt32 => κ) := ∅
  db : RocksDB

namespace RedisStore

variable {κ : Type}

/-! ## Requests -/

/-- What `propose` is given: the packed commit, and the request its status handler is about. -/
structure Proposal where
  commitId : UInt32
  data : Bytes
  deriving DecidableEq, Repr

/-- The common part of `set` and `del`. -/
def request (codec : Codec RaftCommit) (s : RedisStore κ) (data : RedisCommitData) (callback : κ) :
    RedisStore κ × Proposal :=
  let commitId := s.nextRequestId
  let commit : RaftCommit := ⟨UInt32.ofNat s.nodeId, commitId, data⟩
  ({ s with
      nextRequestId := s.nextRequestId + 1
      pendingRequests := s.pendingRequests.insert commitId callback },
    ⟨commitId, codec.pack commit⟩)

def set (codec : Codec RaftCommit) (s : RedisStore κ) (key value : Bytes) (callback : κ) :
    RedisStore κ × Proposal :=
  s.request codec ⟨RedisCommitData.kCommitSet, [key, value]⟩ callback

def del (codec : Codec RaftCommit) (s : RedisStore κ) (keys : List Bytes) (callback : κ) :
    RedisStore κ × Proposal :=
  s.request codec ⟨RedisCommitData.kCommitDel, keys⟩ callback

/-- Find a pending request, invoke its callback and forget it. -/
def complete (s : RedisStore κ) (commitId : UInt32) (status : Status) :
    RedisStore κ × List (κ × Status) :=
  match s.pendingRequests.lookup commitId with
  | none => (s, [])
  | some callback =>
      ({ s with pendingRequests := s.pendingRequests.erase commitId }, [(callback, status)])

/-- The status handler that `set` hands to `propose`. -/
def setStatus (s : RedisStore κ) (commitId : UInt32) (status : Status) :
    RedisStore κ × List (κ × Status) :=
  if status.isOk then (s, []) else s.complete commitId status

/-- The status handler that `del` hands to `propose`: it does not look at the status. -/
def delStatus (s : RedisStore κ) (commitId : UInt32) (status : Status) :
    RedisStore κ × List (κ × Status) :=
  s.complete commitId status

/-! ## Committed entries -/

/-- The writes of a commit. -/
def commitWrites (data : RedisCommitData) : Outcome (List WriteOp) :=
  if data.type = RedisCommitData.kCommitSet then
    match data.strs with
    | [key, value] => pure [WriteOp.put key value]
    | _ => throw (Crash.assertion "data.strs.size() == 2")
  else if data.type = RedisCommitData.kCommitDel then pure (data.strs.map WriteOp.delete)
  else pure []

/-- The handler that `read_commit` posts; `ok i` is the database's answer to its `i`-th write. -/
def readCommit (codec : Codec RaftCommit) (ok : Nat → Bool) (s : RedisStore κ) (entry : Entry) :
    Outcome (RedisStore κ × List (κ × Status)) :=
  match codec.unpack entry.data with
  | Except.error _ => pure (s, [])
  | Except.ok commit => do
      let ops ← commitWrites commit.redisData
      let s' := { s with db := RocksDB.writeEach ok s.db ops }
      if commit.nodeId.toNat = s.nodeId then pure (s'.complete commit.commitId Status.ok)
      else pure (s', [])

def get (s : RedisStore κ) (key : Bytes) : Option Bytes := s.db.get key

def keys (s : RedisStore κ) (pattern : Bytes) : List Bytes :=
  ((RocksDB.iterate s.db).map Prod.fst).filter (stringMatchLen pattern)

/-! ## Snapshots -/

def getAllKeyValue (s : RedisStore κ) (keyValues : List (Bytes × Bytes)) : List (Bytes × Bytes) :=
  keyValues ++ RocksDB.iterate s.db

/-- The data `get_snapshot` hands to its callback. -/
def getSnapshot (codec : Codec (List (Bytes × Bytes))) (s : RedisStore κ) : Bytes :=
  codec.pack (s.getAllKeyValue [])

/-- The inner loop over the pairs to load, for one key of the store: the key is pushed once for
every pair before the first one with this key. -/
def keysPushed (key : Bytes) : List (Bytes × Bytes) → List Bytes
  | [] => []
  | kv :: kvs => if kv.1 = key then [] else key :: keysPushed key kvs

def keysToDelete (db : RocksDB) (keyValues : List (Bytes × Bytes)) : List Bytes :=
  (RocksDB.iterate db).flatMap fun kv => keysPushed kv.1 keyValues

def loadBatch (db : RocksDB) (keyValues : List (Bytes × Bytes)) : List WriteOp :=
  (keysToDelete db keyValues).map WriteOp.delete ++
    keyValues.map fun kv => WriteOp.put kv.1 kv.2

/-- `ok` is the database's answer to the batch. -/
def loadKvToRocksdb (ok : Bool) (s : RedisStore κ) (keyValues : List (Bytes × Bytes)) :
    RedisStore κ :=
  { s with db := if ok then RocksDB.write s.db (loadBatch s.db keyValues) else s.db }

/-- The handler that `recover_from_snapshot` posts, with the status its callback gets. -/
def recoverFromSnapshot (codec : Codec (List (Bytes × Bytes))) (ok : Bool) (s : RedisStore κ)
    (snap : Bytes) : Outcome (RedisStore κ × Status) :=
  match codec.unpack snap with
  | Except.error UnpackError.malformed => throw (Crash.uncaught "msgpack::unpack_error")
  | Except.error (UnpackError.typeError _) => pure (s, Status.ioError "invalid snapshot")
  | Except.ok keyValues => pure (s.loadKvToRocksdb ok keyValues, Status.ok)

/-- The constructor, over the database that is found on the disk. -/
def create (codec : Codec (List (Bytes × Bytes))) (ok : Bool) (nodeId : Nat) (disk : RocksDB)
    (snap : Bytes) : Outcome (RedisStore κ) :=
  let s : RedisStore κ := { nodeId := nodeId, db := disk }
  if snap = [] then pure s
  else
    match codec.unpack snap with
    | Except.error UnpackError.malformed => throw (Crash.uncaught "msgpack::unpack_error")
    | Except.error (UnpackError.typeError keyValues) => pure (s.loadKvToRocksdb ok keyValues)
    | Except.ok keyValues => pure (s.loadKvToRocksdb ok keyValues)

/-! ## What the handlers invoke -/

lemma complete_fst (s : RedisStore κ) (commitId : UInt32) (status : Status) :
    (s.complete commitId status).1.db = s.db ∧
      (s.complete commitId status).1.nodeId = s.nodeId := by
  rw [complete]
  split <;> exact ⟨rfl, rfl⟩

lemma mem_complete {s : RedisStore κ} {commitId : UInt32} {status : Status} {x : κ × Status}
    (h : x ∈ (s.complete commitId status).2) :
    s.pendingRequests.lookup commitId = some x.1 ∧ x.2 = status := by
  rw [complete] at h
  split at h
  · cases h
  · rename_i callback hlookup
    cases List.mem_singleton.mp h
    exact ⟨hlookup, rfl⟩

/-- The status handler of `set` never tells a callback that all is well. -/
lemma mem_setStatus {s : RedisStore κ} {commitId : UInt32} {status : Status} {x : κ × Status}
    (h : x ∈ (s.setStatus commitId status).2) : x.2.isOk = false := by
  rw [setStatus] at h
  split_ifs at h with hok
  · cases h
  · rw [(mem_complete h).2]
    exact Bool.eq_false_iff.mpr hok

lemma setStatus_fst (s : RedisStore κ) (commitId : UInt32) (status : Status) :
    (s.setStatus commitId status).1.db = s.db ∧
      (s.setStatus commitId status).1.nodeId = s.nodeId := by
  rw [setStatus]
  split_ifs
  · exact ⟨rfl, rfl⟩
  · exact s.complete_fst commitId status

/-- The writes of the commit in an entry. -/
def writesOf (codec : Codec RaftCommit) (entry : Entry) : Outcome (List WriteOp) :=
  match codec.unpack entry.data with
  | Except.error _ => pure []
  | Except.ok commit => commitWrites commit.redisData

/-- The pending request that the commit in an entry completes. -/
def completes (codec : Codec RaftCommit) (s : RedisStore κ) (entry : Entry) : Option κ :=
  match codec.unpack entry.data with
  | Except.error _ => none
  | Except.ok commit =>
      if commit.nodeId.toNat = s.nodeId then s.pendingRequests.lookup commit.commitId else none

/-- All that `read_commit` does. -/
lemma readCommit_spec {codec : Codec RaftCommit} {ok : Nat → Bool} {s : RedisStore κ}
    {entry : Entry} {r : RedisStore κ × List (κ × Status)}
    (h : s.readCommit codec ok entry = Except.ok r) :
    ∃ ops, writesOf codec entry = Except.ok ops ∧ r.1.db = RocksDB.writeEach ok s.db ops ∧
      r.1.nodeId = s.nodeId ∧
      ∀ x ∈ r.2, completes codec s entry = some x.1 ∧ x.2 = Status.ok := by
  rw [readCommit] at h
  rw [writesOf, completes]
  split at h
  · cases Outcome.pure_eq_ok.mp h
    exact ⟨[], rfl, rfl, rfl, fun x hx => by cases hx⟩
  · rename_i commit _
    obtain ⟨ops, hops, h⟩ := Outcome.bind_eq_ok.mp h
    refine ⟨ops, hops, ?_⟩
    dsimp only at h ⊢
    split_ifs at h with hid
    · cases Outcome.pure_eq_ok.mp h
      rw [if_pos hid]
      obtain ⟨hdb, hnode⟩ := complete_fst
        { s with db := RocksDB.writeEach ok s.db ops } commit.commitId Status.ok
      refine ⟨hdb, hnode, fun x hx => ?_⟩
      obtain ⟨hlookup, hstatus⟩ := mem_complete hx
      exact ⟨hlookup, hstatus⟩
    · cases Outcome.pure_eq_ok.mp h
      exact ⟨rfl, rfl, fun x hx => by cases hx⟩

/-- The writes of a commit are about its keys only, and leave there what they say. -/
lemma get_commitWrites {data : RedisCommitData} {ops : List WriteOp}
    (h : commitWrites data = Except.ok ops) {op : WriteOp} (hop : op ∈ ops) (db : RocksDB) :
    (RocksDB.write db ops).get op.key = op.value := by
  have hdel : ∀ (ks : List Bytes) (db : RocksDB) (k : Bytes), k ∈ ks →
      (RocksDB.write db (ks.map WriteOp.delete)).get k = none := by
    intro ks db k hk
    have : RocksDB.write db (ks.map WriteOp.delete) = ks.foldl OrderedMap.erase db :=
      List.foldl_map
    rw [this, OrderedMap.get_foldl_erase, if_pos hk]
  rw [commitWrites] at h
  split_ifs at h
  · split at h
    · cases Outcome.pure_eq_ok.mp h
      cases List.mem_singleton.mp hop
      exact db.get_put_self _ _
    · cases h
  · cases Outcome.pure_eq_ok.mp h
    obtain ⟨k, hk, rfl⟩ := List.mem_map.mp hop
    exact hdel _ db k hk
  · cases Outcome.pure_eq_ok.mp h
    cases hop

/-! ## What a load leaves -/

lemma mem_keysPushed {key k : Bytes} {kvs : List (Bytes × Bytes)} :
    k ∈ keysPushed key kvs ↔ k = key ∧ ∃ kv ∈ kvs.head?, kv.1 ≠ key := by
  induction kvs with
  | nil => simp [keysPushed]
  | cons kv kvs ih =>
      rw [keysPushed]
      split_ifs with h
      · simp [h]
      · simp only [List.mem_cons, ih, List.head?_cons, Option.mem_some_iff, exists_eq_left']
        constructor
        · rintro (rfl | ⟨rfl, -⟩)
          · exact ⟨rfl, h⟩
          · exact ⟨rfl, h⟩
        · exact fun hk => Or.inl hk.1

/-- The keys to delete: those of the store that differ from the key of the first pair. -/
lemma mem_keysToDelete {db : RocksDB} {kvs : List (Bytes × Bytes)} {k : Bytes} :
    k ∈ keysToDelete db kvs ↔ db.get k ≠ none ∧ ∃ kv ∈ kvs.head?, kv.1 ≠ k := by
  simp only [keysToDelete, RocksDB.iterate, List.mem_flatMap, mem_keysPushed]
  constructor
  · rintro ⟨e, he, rfl, hkv⟩
    refine ⟨?_, hkv⟩
    rw [(db.mem_entries e).mp he]
    exact Option.some_ne_none _
  · rintro ⟨hk, hkv⟩
    obtain ⟨v, hv⟩ := Option.ne_none_iff_exists'.mp hk
    exact ⟨(k, v), (db.mem_entries (k, v)).mpr hv, rfl, hkv⟩

lemma get_loadKvToRocksdb (s : RedisStore κ) (kvs : List (Bytes × Bytes)) (k : Bytes) :
    (s.loadKvToRocksdb true kvs).db.get k =
      (OrderedMap.lastOf k kvs).or
        (if k ∈ keysToDelete s.db kvs then none else s.db.get k) := by
  have hdel : RocksDB.write s.db ((keysToDelete s.db kvs).map WriteOp.delete) =
      (keysToDelete s.db kvs).foldl OrderedMap.erase s.db := List.foldl_map
  have hput : ∀ db, RocksDB.write db (kvs.map fun kv => WriteOp.put kv.1 kv.2) =
      kvs.foldl (fun m kv => m.put kv.1 kv.2) db := fun db => List.foldl_map
  simp only [loadKvToRocksdb, loadBatch, if_true, RocksDB.write_append, hdel, hput,
    OrderedMap.get_foldl_put]
  congr 1
  by_cases hk : k ∈ keysToDelete s.db kvs
  · rw [if_pos hk, OrderedMap.get_foldl_erase, if_pos hk]
  · rw [if_neg hk, OrderedMap.get_foldl_erase, if_neg hk]

/-- A load leaves the map of its pairs, or was given no pair at all. -/
theorem loadKvToRocksdb_iff (s : RedisStore κ) (kvs : List (Bytes × Bytes)) :
    (s.loadKvToRocksdb true kvs).db = OrderedMap.ofList kvs ↔
      kvs ≠ [] ∨ s.db = OrderedMap.empty := by
  constructor
  · intro h
    by_cases hkvs : kvs = []
    · right
      subst hkvs
      refine OrderedMap.ext_get fun k => ?_
      have := congrArg (fun m => OrderedMap.get m k) h
      simpa [get_loadKvToRocksdb, mem_keysToDelete, OrderedMap.get_ofList, OrderedMap.lastOf,
        OrderedMap.find] using this
    · exact Or.inl hkvs
  · intro h
    refine OrderedMap.ext_get fun k => ?_
    rw [get_loadKvToRocksdb, OrderedMap.get_ofList]
    cases hlast : OrderedMap.lastOf k kvs with
    | some v => rfl
    | none =>
        rw [Option.none_or]
        split_ifs with hk
        · rfl
        · by_contra hget
          -- a key that stays must be the first pair's key, but no pair has this key
          refine hk (mem_keysToDelete.mpr ⟨hget, ?_⟩)
          rcases h with hne | hempty
          · obtain ⟨kv, rest, rfl⟩ := List.exists_cons_of_ne_nil hne
            exact ⟨kv, rfl, OrderedMap.lastOf_eq_none.mp hlast kv (List.mem_cons_self ..)⟩
          · exact absurd (by rw [hempty]; rfl) hget

/-- **Snapshot transfer.**  The receiver of a snapshot has the sender's content, and a load leaves
exactly the map it was given, if and only if there is a pair to load or nothing to delete. -/
theorem recoverFromSnapshot_iff (codec : Codec (List (Bytes × Bytes))) (a b : RedisStore κ)
    (hcodec : codec.RoundTrips (RocksDB.iterate a.db)) :
    ((∃ b', b.recoverFromSnapshot codec true (a.getSnapshot codec) = Except.ok (b', Status.ok) ∧
        b'.db = a.db) ↔ a.db ≠ OrderedMap.empty ∨ b.db = OrderedMap.empty) ∧
      ∀ kvs, (b.loadKvToRocksdb true kvs).db = OrderedMap.ofList kvs ↔
        kvs ≠ [] ∨ b.db = OrderedMap.empty := by
  refine ⟨?_, b.loadKvToRocksdb_iff⟩
  have hentries : a.db.entries ≠ [] ↔ a.db ≠ OrderedMap.empty := by
    rw [not_iff_not, OrderedMap.entries_eq_nil]
    exact ⟨fun h => OrderedMap.ext_get h, fun h k => by rw [h]; rfl⟩
  have hload := b.loadKvToRocksdb_iff a.db.entries
  rw [OrderedMap.ofList_entries, hentries] at hload
  have hunpack : codec.unpack (codec.pack a.db.entries) = Except.ok a.db.entries := hcodec
  rw [← hload]
  simp [recoverFromSnapshot, getSnapshot, getAllKeyValue, RocksDB.iterate, hunpack, pure,
    Except.pure]

/-- A store with one key. -/
def oneKey (key value : Bytes) : RedisStore Nat :=
  { nodeId := 1, db := OrderedMap.empty.put key value }

theorem recoverFromSnapshot_iff_oneKey :
    ∃ b', (oneKey [98] [1]).recoverFromSnapshot keyValuesCodec true
        ((oneKey [97] [2]).getSnapshot keyValuesCodec) = Except.ok (b', Status.ok) ∧
      b'.db = (oneKey [97] [2]).db :=
  (recoverFromSnapshot_iff keyValuesCodec (oneKey [97] [2]) (oneKey [98] [1]) rfl).1.mpr
    (Or.inl fun h => by simpa [oneKey] using congrArg (fun m => OrderedMap.get m [97]) h)

/-- An empty snapshot deletes nothing. -/
theorem recoverFromSnapshot_empty_fails :
    keyValuesCodec.RoundTrips [] ∧
      ¬ ∃ b', (oneKey [98] [1]).recoverFromSnapshot keyValuesCodec true
          (({ nodeId := 1, db := OrderedMap.empty } : RedisStore Nat).getSnapshot keyValuesCodec) =
            Except.ok (b', Status.ok) ∧ b'.db = OrderedMap.empty := by
  refine ⟨rfl, ?_⟩
  rintro ⟨b', hrecover, hdb⟩
  have hkept : ∀ r, (oneKey [98] [1]).recoverFromSnapshot keyValuesCodec true
      (({ nodeId := 1, db := OrderedMap.empty } : RedisStore Nat).getSnapshot keyValuesCodec) =
        Except.ok r → r.1.db.get [98] = some [1] := by
    intro r hr
    cases hr
    decide
  have := hkept _ hrecover
  rw [hdb] at this
  cases this

end RedisStore

end RaftKv
