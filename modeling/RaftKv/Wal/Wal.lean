import RaftKv.Core.MsgPack
import RaftKv.Core.RecordLog
import RaftKv.Raft.Proto

/-!
# The write-ahead log

`WAL_Record`, `WAL_File` and `WAL` (`wal/wal.h`, `wal/wal.cpp`).

* A log has one file: `cut` only flushes, so no second one is ever created.
* `WalFile.content` is what `fwrite` was given, `WalFile.dataBuffer` what `append` has collected
  since.  System calls succeed; the position that `ftell` reports for a file that was just opened
  is left open.
* `WalFormat` — what is not in the repository: the packed forms and the checksum.
* `WalFormat.reader` — the reading loop; each branch that stops it is a `StopReason`.
-/

namespace RaftKv

structure WalSnapshot where
  index : Nat := 0
  term : Nat := 0
  deriving DecidableEq, Repr

/-- What the log takes from elsewhere: the packed forms of its records, and the checksum. -/
structure WalFormat where
  entry : Codec Entry
  state : Codec HardState
  snapshot : Codec WalSnapshot
  crc : Bytes → UInt32

/-! ## Records -/

/-- A record as the reading loop hands it on: its type and its data. -/
abbrev WalRecord := UInt8 × Bytes

def walInvalidType : UInt8 := 0

def walEntryType : UInt8 := 1

def walStateType : UInt8 := 2

def walCrcType : UInt8 := 3

def walSnapshotType : UInt8 := 4

def maxWalRecordLen : Nat := 0x00FFFFFF

/-- The low `k` bytes of a number, the least significant one first. -/
def littleEndian : Nat → Nat → Bytes
  | 0, _ => []
  | k + 1, n => UInt8.ofNat n :: littleEndian k (n / 256)

def readLittleEndian : Bytes → Nat
  | [] => 0
  | b :: bs => b.toNat + 256 * readLittleEndian bs

@[simp] lemma length_littleEndian (k n : Nat) : (littleEndian k n).length = k := by
  induction k generalizing n with
  | zero => rfl
  | succ k ih => rw [littleEndian, List.length_cons, ih]

lemma readLittleEndian_littleEndian (k n : Nat) :
    readLittleEndian (littleEndian k n) = n % 256 ^ k := by
  induction k generalizing n with
  | zero => simp [littleEndian, readLittleEndian, Nat.mod_one]
  | succ k ih =>
      have hbyte : (UInt8.ofNat n).toNat = n % 256 := UInt8.toNat_ofNat'
      rw [littleEndian, readLittleEndian, ih, hbyte, Nat.pow_succ', Nat.mod_mul]

/-- The three length bytes of a header. -/
def walRecordLen (len : Bytes) : Nat := readLittleEndian len

/-- The length is a 32-bit argument, and saturates at what three bytes hold. -/
def setWalRecordLen (len : Nat) : Bytes := littleEndian 3 (min (wrap32 len) maxWalRecordLen)

theorem walRecordLen_setWalRecordLen (len : Nat) :
    walRecordLen (setWalRecordLen len) = min (wrap32 len) maxWalRecordLen := by
  rw [walRecordLen, setWalRecordLen, readLittleEndian_littleEndian, Nat.mod_eq_of_lt]
  exact lt_of_le_of_lt (Nat.min_le_right ..) (by decide)

/-- The header tells the length of the data exactly when the length fits into three bytes. -/
theorem walRecordLen_eq_iff (len : Nat) :
    walRecordLen (setWalRecordLen len) = len ↔ len ≤ maxWalRecordLen := by
  rw [walRecordLen_setWalRecordLen, wrap32]
  constructor
  · intro h
    exact h ▸ Nat.min_le_right ..
  · intro h
    rw [Nat.mod_eq_of_lt (lt_of_le_of_lt h (by decide)), Nat.min_eq_left h]

lemma walRecordLen_lt {len : Nat} (h : maxWalRecordLen < len) :
    walRecordLen (setWalRecordLen len) < len := by
  rw [walRecordLen_setWalRecordLen]
  exact lt_of_le_of_lt (Nat.min_le_right ..) h

/-- Why the reading loop stopped before the end of the file. -/
inductive StopReason where
  /-- Less than a header is left. -/
  | header
  /-- The header is of type `walInvalidType`. -/
  | invalidType
  /-- Less data is left than the header announces. -/
  | data
  /-- The data does not have the checksum of the header. -/
  | crc
  deriving DecidableEq, Repr

/-- Whether the loop truncates the file where it stops. -/
def StopReason.truncates : StopReason → Bool
  | StopReason.invalidType => false
  | _ => true

namespace WalFormat

variable (f : WalFormat)

/-- A record as `append` writes it. -/
def frame (r : WalRecord) : Bytes :=
  r.1 :: (setWalRecordLen r.2.length ++ (littleEndian 4 (f.crc r.2).toNat ++ r.2))

/-- One round of the reading loop.  A checksum of 0 in the header is not compared. -/
def nextRecord : Bytes → Found WalRecord StopReason
  | type :: l₀ :: l₁ :: l₂ :: c₀ :: c₁ :: c₂ :: c₃ :: rest =>
      if type = walInvalidType then Found.stop StopReason.invalidType
      else
        let len := walRecordLen [l₀, l₁, l₂]
        if rest.length < len then Found.stop StopReason.data
        else
          let crc := UInt32.ofNat (readLittleEndian [c₀, c₁, c₂, c₃])
          if crc ≠ 0 ∧ f.crc (rest.take len) ≠ crc then Found.stop StopReason.crc
          else Found.record (type, rest.take len) (8 + len)
  | _ => Found.stop StopReason.header

variable {f} {bs : Bytes} {r : WalRecord} {n : Nat}

/-- What a record that was found looks like. -/
lemma nextRecord_eq_record (h : f.nextRecord bs = Found.record r n) :
    ∃ type l₀ l₁ l₂ c₀ c₁ c₂ c₃ rest, bs = type :: l₀ :: l₁ :: l₂ :: c₀ :: c₁ :: c₂ :: c₃ :: rest ∧
      type ≠ walInvalidType ∧ walRecordLen [l₀, l₁, l₂] ≤ rest.length ∧
      (UInt32.ofNat (readLittleEndian [c₀, c₁, c₂, c₃]) = 0 ∨
        f.crc (rest.take (walRecordLen [l₀, l₁, l₂])) =
          UInt32.ofNat (readLittleEndian [c₀, c₁, c₂, c₃])) ∧
      r = (type, rest.take (walRecordLen [l₀, l₁, l₂])) ∧ n = 8 + walRecordLen [l₀, l₁, l₂] := by
  unfold nextRecord at h
  split at h
  · rename_i type l₀ l₁ l₂ c₀ c₁ c₂ c₃ rest
    dsimp only at h
    split at h
    · cases h
    · rename_i htype
      split at h
      · cases h
      · rename_i hlen
        split at h
        · cases h
        · rename_i hcrc
          injection h with hr hn
          refine ⟨type, l₀, l₁, l₂, c₀, c₁, c₂, c₃, rest, rfl, htype, Nat.le_of_not_lt hlen, ?_,
            hr.symm, hn.symm⟩
          by_cases hzero : UInt32.ofNat (readLittleEndian [c₀, c₁, c₂, c₃]) = 0
          · exact Or.inl hzero
          · exact Or.inr (not_not.mp fun hne => hcrc ⟨hzero, hne⟩)
  · cases h

/-- A record is found by its own bytes. -/
lemma nextRecord_take (h : f.nextRecord bs = Found.record r n) (more : Bytes) :
    f.nextRecord (bs.take n ++ more) = Found.record r n := by
  obtain ⟨type, l₀, l₁, l₂, c₀, c₁, c₂, c₃, rest, rfl, htype, hlen, hcrc, rfl, rfl⟩ :=
    nextRecord_eq_record h
  have hdata : (rest.take (walRecordLen [l₀, l₁, l₂]) ++ more).take (walRecordLen [l₀, l₁, l₂]) =
      rest.take (walRecordLen [l₀, l₁, l₂]) := by
    rw [List.take_left']
    exact List.length_take_of_le hlen
  have htake : (type :: l₀ :: l₁ :: l₂ :: c₀ :: c₁ :: c₂ :: c₃ :: rest).take
        (8 + walRecordLen [l₀, l₁, l₂]) =
      type :: l₀ :: l₁ :: l₂ :: c₀ :: c₁ :: c₂ :: c₃ :: rest.take (walRecordLen [l₀, l₁, l₂]) := by
    rw [Nat.add_comm]
    rfl
  rw [htake]
  simp only [List.cons_append, nextRecord, hdata]
  rw [if_neg htype, if_neg, if_neg]
  · rintro ⟨hzero, hne⟩
    exact hcrc.elim hzero hne
  · rw [List.length_append, List.length_take_of_le hlen]
    omega

variable (f)

/-- The reading loop. -/
def reader : RecordReader UInt8 WalRecord StopReason where
  next := f.nextRecord
  size_pos h := by
    obtain ⟨-, -, -, -, -, -, -, -, -, -, -, -, -, -, rfl⟩ := nextRecord_eq_record h
    omega
  size_le h := by
    obtain ⟨-, l₀, l₁, l₂, -, -, -, -, rest, rfl, -, hlen, -, -, rfl⟩ := nextRecord_eq_record h
    have : walRecordLen [l₀, l₁, l₂] ≤ rest.length := hlen
    simp only [List.length_cons]
    omega
  next_take h more := nextRecord_take h more

/-- The records of a file. -/
def scan (content : Bytes) : Scan WalRecord StopReason := f.reader.scan content

variable {f}

/-- The type that marks the end of a file is met again, whatever is appended. -/
lemma nextRecord_invalidType (h : f.nextRecord bs = Found.stop StopReason.invalidType)
    (more : Bytes) : f.nextRecord (bs ++ more) = Found.stop StopReason.invalidType := by
  unfold nextRecord at h
  split at h
  · dsimp only at h
    split at h
    · rename_i htype
      simp only [List.cons_append, nextRecord]
      exact if_pos htype
    · split at h
      · cases h
      · split at h <;> cases h
  · cases h

/-- What `append` has written is found as a record with the announced length. -/
lemma nextRecord_frame (hr : r.1 ≠ walInvalidType) (more : Bytes) :
    f.nextRecord (f.frame r ++ more) =
      let data := (r.2 ++ more).take (walRecordLen (setWalRecordLen r.2.length))
      if f.crc r.2 ≠ 0 ∧ f.crc data ≠ f.crc r.2 then Found.stop StopReason.crc
      else Found.record (r.1, data) (8 + walRecordLen (setWalRecordLen r.2.length)) := by
  have hcrc : UInt32.ofNat (readLittleEndian (littleEndian 4 (f.crc r.2).toNat)) = f.crc r.2 := by
    have hlt : (f.crc r.2).toNat < 256 ^ 4 := (f.crc r.2).toNat_lt
    rw [readLittleEndian_littleEndian, Nat.mod_eq_of_lt hlt, UInt32.ofNat_toNat]
  have hle : walRecordLen (setWalRecordLen r.2.length) ≤ r.2.length := by
    rw [walRecordLen_setWalRecordLen]
    exact (Nat.min_le_left ..).trans (Nat.mod_le ..)
  have hlen : ¬ (r.2 ++ more).length < walRecordLen (setWalRecordLen r.2.length) := by
    rw [List.length_append]
    omega
  generalize hdata : walRecordLen (setWalRecordLen r.2.length) = len at hlen ⊢
  obtain ⟨l₀, l₁, l₂, hset⟩ := List.length_eq_three.mp (length_littleEndian 3
    (min (wrap32 r.2.length) maxWalRecordLen))
  obtain ⟨c₀, cs, hcs⟩ := List.exists_cons_of_length_eq_add_one
    (length_littleEndian 4 (f.crc r.2).toNat)
  obtain ⟨c₁, c₂, c₃, rfl⟩ := List.length_eq_three.mp
    (Nat.succ.inj (by simpa [hcs] using length_littleEndian 4 (f.crc r.2).toNat))
  rw [setWalRecordLen, hset] at hdata
  rw [hcs] at hcrc
  rw [frame, setWalRecordLen, hset, hcs]
  simp only [List.cons_append, List.nil_append, nextRecord, hdata, hcrc]
  rw [if_neg hr, if_neg hlen]

/-- **A record of at most `maxWalRecordLen` bytes is read back.** -/
theorem nextRecord_frame_of_le (hr : r.1 ≠ walInvalidType) (hfit : r.2.length ≤ maxWalRecordLen)
    (more : Bytes) :
    f.nextRecord (f.frame r ++ more) = Found.record r (f.frame r).length := by
  have hsize : (f.frame r).length = 8 + r.2.length := by
    simp only [frame, setWalRecordLen, List.length_cons, List.length_append, length_littleEndian]
    omega
  rw [nextRecord_frame hr, (walRecordLen_eq_iff _).mpr hfit, List.take_left, hsize]
  exact if_neg fun h => h.2 rfl

/-- **A larger one is not**: the reader stops at it, or takes a part of its data. -/
theorem nextRecord_frame_of_lt (hr : r.1 ≠ walInvalidType) (hbig : maxWalRecordLen < r.2.length)
    (more : Bytes) :
    f.nextRecord (f.frame r ++ more) = Found.stop StopReason.crc ∨
      ∃ k < r.2.length, ∃ size, f.nextRecord (f.frame r ++ more) =
        Found.record (r.1, r.2.take k) size := by
  have hlt := walRecordLen_lt hbig
  rw [nextRecord_frame hr, List.take_append_of_le_length hlt.le]
  dsimp only
  split
  · exact Or.inl rfl
  · exact Or.inr ⟨_, hlt, _, rfl⟩

end WalFormat

/-! ## Files -/

/-- `fileSize` starts as what `ftell` reports; the file is open for appending, so every write goes
to its end. -/
structure WalFile where
  content : Bytes
  dataBuffer : Bytes := []
  fileSize : Nat
  deriving DecidableEq, Repr

namespace WalFile

def append (f : WalFormat) (file : WalFile) (r : WalRecord) : WalFile :=
  { file with dataBuffer := file.dataBuffer ++ f.frame r }

def sync (file : WalFile) : WalFile :=
  { content := file.content ++ file.dataBuffer
    fileSize := file.fileSize + file.dataBuffer.length }

def truncate (file : WalFile) (offset : Nat) : WalFile :=
  { content := file.content.take offset, fileSize := offset }

/-- What the file holds once the buffer is flushed. -/
def bytes (file : WalFile) : Bytes := file.content ++ file.dataBuffer

@[simp] lemma content_sync (file : WalFile) : file.sync.content = file.bytes := rfl

@[simp] lemma bytes_sync (file : WalFile) : file.sync.bytes = file.bytes := List.append_nil _

lemma bytes_append (f : WalFormat) (file : WalFile) (r : WalRecord) :
    (file.append f r).bytes = file.bytes ++ f.frame r := (List.append_assoc ..).symm

end WalFile

/-! ## Replaying -/

namespace Codec

variable {α : Type}

/-- Unpack and convert; nothing catches the exceptions of either. -/
def unpackOrThrow (c : Codec α) (bs : Bytes) : Outcome α :=
  match c.unpack bs with
  | Except.ok a => pure a
  | Except.error UnpackError.malformed => throw (Crash.uncaught "msgpack::unpack_error")
  | Except.error (UnpackError.typeError _) => throw (Crash.uncaught "msgpack::type_error")

lemma unpackOrThrow_pack {c : Codec α} {a : α} (h : c.RoundTrips a) :
    c.unpackOrThrow (c.pack a) = Except.ok a := by
  rw [unpackOrThrow, h]
  rfl

lemma unpackOrThrow_take {c : Codec α} {a : α} (h : c.RefusesCut a) {n : Nat}
    (hn : n < (c.pack a).length) :
    ∃ crash, c.unpackOrThrow ((c.pack a).take n) = Except.error crash := by
  obtain ⟨err, herr⟩ := h n hn
  rw [unpackOrThrow, herr]
  cases err <;> exact ⟨_, rfl⟩

end Codec

/-- What the reading loop carries along.  The entries are pointers, and `resize` fills gaps with null
pointers. -/
structure WalReplay where
  matchsnap : Bool := false
  hs : HardState := {}
  ents : List (Option Entry) := []
  enti : Nat := 0
  deriving DecidableEq, Repr

def resizeEntries (n : Nat) (ents : List (Option Entry)) : List (Option Entry) :=
  ents.take n ++ List.replicate (n - ents.length) none

/-- `handle_record_wal_record`, and the flag that `read_all` sets behind it for any snapshot. -/
def WalReplay.handleRecord (f : WalFormat) (start : WalSnapshot) (s : WalReplay) (r : WalRecord) :
    Outcome WalReplay :=
  if r.1 = walEntryType then do
    let entry ← f.entry.unpackOrThrow r.2
    return { s with
      ents :=
        if entry.index > start.index then
          resizeEntries (entry.index - start.index - 1) s.ents ++ [some entry]
        else s.ents
      enti := entry.index }
  else if r.1 = walStateType then do
    let hs ← f.state.unpackOrThrow r.2
    return { s with hs := hs }
  else if r.1 = walSnapshotType then do
    let snap ← f.snapshot.unpackOrThrow r.2
    if snap.index = start.index ∧ snap.term ≠ start.term then
      throw (Crash.fatal "wal: snapshot mismatch")
    return { s with matchsnap := true }
  else if r.1 = walCrcType then throw (Crash.fatal "wal crc type")
  else throw (Crash.fatal s!"invalid record type {r.1}")

/-! ## The log -/

/-- `state` is the last hard state that was saved, `start` the snapshot that reading begins at. -/
structure Wal where
  state : HardState := {}
  start : WalSnapshot := {}
  enti : Nat := 0
  file : WalFile
  deriving DecidableEq, Repr

namespace Wal

def segmentSizeBytes : Nat := 64 * 1000 * 1000

/-- The file that `create` leaves behind. -/
def create (f : WalFormat) : Bytes := f.frame (walSnapshotType, f.snapshot.pack {})

/-- Open a file for reading from `snap` on. -/
def openAt (content : Bytes) (fileSize : Nat) (snap : WalSnapshot) : Wal :=
  { start := snap, file := { content := content, fileSize := fileSize } }

/-- What the reading loop leaves of the file. -/
def readFile (f : WalFormat) (file : WalFile) : WalFile :=
  match (f.scan file.content).stop with
  | some why => if why.truncates then file.truncate (f.scan file.content).size else file
  | none => file

def readAll (f : WalFormat) (w : Wal) (hs : HardState) (ents : List (Option Entry)) :
    Outcome (Wal × HardState × List (Option Entry)) := do
  let s ← (f.scan w.file.content).records.foldlM (WalReplay.handleRecord f w.start)
    { hs := hs, ents := ents, enti := w.enti }
  if ¬ s.matchsnap then throw (Crash.fatal "wal: snapshot not found")
  return ({ w with enti := s.enti, file := readFile f w.file }, s.hs, s.ents)

def saveEntry (f : WalFormat) (w : Wal) (entry : Entry) : Wal :=
  { w with file := w.file.append f (walEntryType, f.entry.pack entry), enti := entry.index }

def saveHardState (f : WalFormat) (w : Wal) (hs : HardState) : Wal :=
  if hs.isEmptyState then w
  else { w with state := hs, file := w.file.append f (walStateType, f.state.pack hs) }

/-- No file is cut: the source only flushes. -/
def cut (w : Wal) : Wal := { w with file := w.file.sync }

def save (f : WalFormat) (w : Wal) (hs : HardState) (ents : List Entry) : Wal :=
  if hs.isEmptyState ∧ ents = [] then w
  else
    let mustSync := isMustSync hs w.state ents.length
    let w := (ents.foldl (saveEntry f) w).saveHardState f hs
    if w.file.fileSize < segmentSizeBytes then
      if mustSync then { w with file := w.file.sync } else w
    else w.cut

def saveSnapshot (f : WalFormat) (w : Wal) (snap : WalSnapshot) : Wal :=
  { w with
    file := (w.file.append f (walSnapshotType, f.snapshot.pack snap)).sync
    enti := if w.enti < snap.index then snap.index else w.enti }

/-- The calls `save(hs, ents)`, one after the other. -/
def saveEach (f : WalFormat) (w : Wal) (saves : List (HardState × List Entry)) : Wal :=
  saves.foldl (fun w s => w.save f s.1 s.2) w

/-- The records that one call of `save` appends. -/
def saveRecords (f : WalFormat) (s : HardState × List Entry) : List WalRecord :=
  s.2.map (fun e => (walEntryType, f.entry.pack e)) ++
    if s.1.isEmptyState then [] else [(walStateType, f.state.pack s.1)]

variable (f : WalFormat) (w : Wal)

/-! ### What is written -/

lemma saveEntries_file (ents : List Entry) :
    (ents.foldl (saveEntry f) w).file.bytes =
      w.file.bytes ++ (ents.map fun e => (walEntryType, f.entry.pack e)).flatMap f.frame := by
  induction ents generalizing w with
  | nil => simp
  | cons e ents ih =>
      rw [List.foldl_cons, ih, saveEntry, WalFile.bytes_append, List.map_cons, List.flatMap_cons,
        List.append_assoc]

/-- What is appended before a call of `save` decides whether to flush. -/
lemma bytes_saveHardState (hs : HardState) (ents : List Entry) :
    ((ents.foldl (saveEntry f) w).saveHardState f hs).file.bytes =
      w.file.bytes ++ (saveRecords f (hs, ents)).flatMap f.frame := by
  rw [saveHardState, saveRecords]
  split
  · rw [saveEntries_file, List.append_nil]
  · rw [WalFile.bytes_append, saveEntries_file, List.flatMap_append, List.append_assoc,
      List.flatMap_singleton]

/-- **A call of `save` appends its records** to the file or to the buffer. -/
theorem bytes_save (hs : HardState) (ents : List Entry) :
    (w.save f hs ents).file.bytes = w.file.bytes ++ (saveRecords f (hs, ents)).flatMap f.frame := by
  have hsave := bytes_saveHardState f w hs ents
  rw [save]
  split
  · rename_i hnone
    simp [saveRecords, hnone]
  · dsimp only
    split
    · split
      · exact (WalFile.bytes_sync _).trans hsave
      · exact hsave
    · exact (WalFile.bytes_sync _).trans hsave

theorem bytes_saveEach (saves : List (HardState × List Entry)) :
    (w.saveEach f saves).file.bytes =
      w.file.bytes ++ (saves.flatMap (saveRecords f)).flatMap f.frame := by
  induction saves generalizing w with
  | nil => simp [saveEach]
  | cons s saves ih =>
      rw [saveEach, List.foldl_cons]
      refine (ih _).trans ?_
      rw [bytes_save, List.flatMap_cons, List.flatMap_append, List.append_assoc]

variable {f}

/-- `save` writes no record of the type that ends a file. -/
lemma type_of_mem_saveRecords {s : HardState × List Entry} {r : WalRecord}
    (h : r ∈ saveRecords f s) : r.1 ≠ walInvalidType := by
  rw [saveRecords, List.mem_append] at h
  rcases h with h | h
  · obtain ⟨e, -, rfl⟩ := List.mem_map.mp h
    exact (by decide : walEntryType ≠ walInvalidType)
  · split at h
    · cases h
    · rw [List.mem_singleton] at h
      subst h
      exact (by decide : walStateType ≠ walInvalidType)

end Wal

/-! ## The packing of the msgpack library and the checksum -/

def EntryType.ofCode (code : Nat) : EntryType :=
  if code = 0 then EntryType.entryNormal
  else if code = 1 then EntryType.entryConfChange
  else EntryType.unknown (UInt8.ofNat code)

def entryFormat : Format Entry :=
  (Format.record 4 (Format.seq Format.nat (Format.seq Format.nat
    (Format.seq Format.nat (Format.blob Header.bin))))).mapWhere
    (fun t => ⟨EntryType.ofCode t.1, t.2.1, t.2.2.1, t.2.2.2⟩)
    (fun e => (e.type.code, e.term, e.index, e.data))

lemma entryFormat_stable : entryFormat.Stable :=
  Format.mapWhere_stable (Format.record_stable _ (Format.seq_stable Format.nat_stable
    (Format.seq_stable Format.nat_stable
      (Format.seq_stable Format.nat_stable (Format.blob_stable _))))) _ _

lemma entryFormat_fits {e : Entry} (htype : EntryType.ofCode e.type.code = e.type)
    (hterm : e.term < 2 ^ 64) (hindex : e.index < 2 ^ 64) (hdata : e.data.length < 2 ^ 32) :
    entryFormat.Fits e := by
  have huint : ∀ n < 2 ^ 64, Header.uint.Fits n := fun n hn =>
    Or.inr ⟨(0xcf, 8), by decide, hn⟩
  have hcode : e.type.code < 2 ^ 64 := by
    cases e.type with
    | entryNormal => decide
    | entryConfChange => decide
    | unknown c => exact lt_of_lt_of_le c.toNat_lt (by decide)
  refine ⟨⟨Or.inl (by decide), huint _ hcode, huint _ hterm, huint _ hindex, ?_⟩, ?_⟩
  · exact Or.inr ⟨(0xc6, 4), by decide, hdata⟩
  · show Entry.mk _ _ _ _ = e
    rw [htype]

lemma length_le_packedEntry (e : Entry) : e.data.length ≤ (entryFormat.pack e).length := by
  simp only [entryFormat, Format.mapWhere, Format.record, Format.seq, Format.blob,
    List.length_append]
  omega

def hardStateFormat : Format HardState :=
  (Format.record 3 (Format.seq Format.nat (Format.seq Format.nat Format.nat))).map
    (fun t => ⟨t.1, t.2.1, t.2.2⟩) (fun hs => (hs.term, hs.vote, hs.commit)) (fun _ => rfl)

def walSnapshotFormat : Format WalSnapshot :=
  (Format.record 2 (Format.seq Format.nat Format.nat)).map
    (fun t => ⟨t.1, t.2⟩) (fun s => (s.index, s.term)) (fun _ => rfl)

/-- One byte of the reflected CRC-32 of `boost::crc_32_type`. -/
def crc32Byte (crc : UInt32) (b : UInt8) : UInt32 :=
  (List.range 8).foldl (fun c _ => if c &&& 1 = 1 then (c >>> 1) ^^^ 0xEDB88320 else c >>> 1)
    (crc ^^^ b.toUInt32)

def crc32 (bs : Bytes) : UInt32 := bs.foldl crc32Byte 0xFFFFFFFF ^^^ 0xFFFFFFFF

def WalFormat.msgpack : WalFormat where
  entry := Codec.ofFormat entryFormat
  state := Codec.ofFormat hardStateFormat
  snapshot := Codec.ofFormat walSnapshotFormat
  crc := crc32

end RaftKv
