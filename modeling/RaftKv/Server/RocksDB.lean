import RaftKv.Core.OrderedMap
import RaftKv.Raft.Proto

/-!
# The key-value database

What the server uses of RocksDB: a map from byte strings to byte strings that an iterator lists in
the order of the keys, single writes that may be refused, and batches of writes that are applied
in their order.
-/

namespace RaftKv

/-- Bytes compare as unsigned numbers, byte strings lexicographically. -/
instance linearOrderByte : LinearOrder UInt8 where
  le_refl := UInt8.le_refl
  le_trans _ _ _ := UInt8.le_trans
  le_antisymm _ _ := UInt8.le_antisymm
  le_total := UInt8.le_total
  lt_iff_le_not_ge a b := by
    rw [UInt8.lt_iff_toNat_lt, UInt8.le_iff_toNat_le, UInt8.le_iff_toNat_le]
    omega
  toDecidableLE := inferInstance
  toDecidableLT := inferInstance
  toDecidableEq := inferInstance

/-- The content of the database. -/
abbrev RocksDB := OrderedMap Bytes Bytes

/-- One operation of a write batch, or a single write. -/
inductive WriteOp where
  | delete (key : Bytes)
  | put (key value : Bytes)
  deriving DecidableEq, Repr

namespace WriteOp

def key : WriteOp → Bytes
  | delete k => k
  | put k _ => k

/-- What the operation leaves at its key. -/
def value : WriteOp → Option Bytes
  | delete _ => none
  | put _ v => some v

def apply (db : RocksDB) : WriteOp → RocksDB
  | delete k => db.erase k
  | put k v => db.put k v

theorem get_apply (db : RocksDB) (op : WriteOp) (k : Bytes) :
    (apply db op).get k = if k = op.key then op.value else db.get k := by
  by_cases hk : k = op.key
  · rw [if_pos hk]
    cases op with
    | delete k' => exact hk ▸ db.get_erase_self k'
    | put k' v => exact hk ▸ db.get_put_self k' v
  · rw [if_neg hk]
    cases op with
    | delete k' => exact db.get_erase_of_ne hk
    | put k' v => exact db.get_put_of_ne hk v

end WriteOp

namespace RocksDB

/-- The pairs an iterator lists from the first to the last. -/
def iterate (db : RocksDB) : List (Bytes × Bytes) := db.entries

/-- A batch, applied in the order its operations were added. -/
def write (db : RocksDB) (batch : List WriteOp) : RocksDB := batch.foldl WriteOp.apply db

/-- Single writes one after the other; `ok i` is the database's answer to the `i`-th of them. -/
def writeEach (ok : Nat → Bool) (db : RocksDB) : List WriteOp → RocksDB
  | [] => db
  | op :: ops => writeEach (fun i => ok (i + 1)) (if ok 0 then op.apply db else db) ops

/-- A key that no operation is about keeps its value. -/
theorem get_write_of_not_mem (db : RocksDB) {batch : List WriteOp} {k : Bytes}
    (h : ∀ op ∈ batch, op.key ≠ k) : (write db batch).get k = db.get k := by
  induction batch generalizing db with
  | nil => rfl
  | cons op batch ih =>
      obtain ⟨hop, hbatch⟩ := List.forall_mem_cons.mp h
      show (write (op.apply db) batch).get k = db.get k
      rw [ih _ hbatch, WriteOp.get_apply, if_neg (Ne.symm hop)]

theorem write_append (db : RocksDB) (b b' : List WriteOp) :
    write db (b ++ b') = write (write db b) b' :=
  List.foldl_append

/-- When the database refuses nothing, single writes are a batch. -/
theorem writeEach_eq_write (db : RocksDB) {ok : Nat → Bool} {ops : List WriteOp}
    (h : ∀ i < ops.length, ok i = true) : writeEach ok db ops = write db ops := by
  induction ops generalizing db ok with
  | nil => rfl
  | cons op ops ih =>
      rw [writeEach, if_pos (h 0 (Nat.succ_pos _)), ih]
      · rfl
      · exact fun i hi => h (i + 1) (Nat.succ_lt_succ hi)

theorem get_writeEach_of_not_mem (db : RocksDB) {ok : Nat → Bool} {ops : List WriteOp} {k : Bytes}
    (h : ∀ op ∈ ops, op.key ≠ k) : (writeEach ok db ops).get k = db.get k := by
  induction ops generalizing db ok with
  | nil => rfl
  | cons op ops ih =>
      obtain ⟨hop, hops⟩ := List.forall_mem_cons.mp h
      rw [writeEach, ih _ hops]
      split_ifs
      · rw [WriteOp.get_apply, if_neg (Ne.symm hop)]
      · rfl

end RocksDB

end RaftKv
