import RaftKv.Wal.Wal

/-!
# What is saved is read back

A header announces a length of at most `maxWalRecordLen` bytes, whatever `append` writes behind it.

* `Wal.scan_frames` — records of at most that length are read back, behind whole records.
* `Wal.scan_frames_of_lt` — behind a larger one the reader has lost its place: it has stopped, or
  goes on inside of that record.
* `Wal.saveEach_framing_iff` — **the reading loop yields what was saved** exactly when no record
  that was saved is larger.
-/

namespace RaftKv

namespace Wal

variable {f : WalFormat}

/-- Records that fit are read back behind whole records. -/
theorem scan_frames {bytes : Bytes} (hclean : (f.scan bytes).stop = none) {rs : List WalRecord}
    (htype : ∀ r ∈ rs, r.1 ≠ walInvalidType) (hfit : ∀ r ∈ rs, r.2.length ≤ maxWalRecordLen) :
    (f.scan (bytes ++ rs.flatMap f.frame)).records = (f.scan bytes).records ++ rs ∧
      (f.scan (bytes ++ rs.flatMap f.frame)).stop = none := by
  have hframes : f.reader.scan (rs.flatMap f.frame) =
      { records := rs, size := (rs.flatMap f.frame).length } :=
    @RecordReader.scan_flatMap _ _ _ f.reader f.frame
      (fun r => r.1 ≠ walInvalidType ∧ r.2.length ≤ maxWalRecordLen)
      (fun r hr more => WalFormat.nextRecord_frame_of_le hr.1 hr.2 more) rs
      (fun r hr => ⟨htype r hr, hfit r hr⟩)
  have happ : f.scan (bytes ++ rs.flatMap f.frame) = (f.scan bytes).append _ :=
    f.reader.scan_append hclean _
  rw [happ, hframes]
  exact ⟨rfl, rfl⟩

/-- Behind the header of a record that does not fit, the reader stops, or takes a part of the
record for the whole. -/
theorem scan_frames_of_lt {bytes : Bytes} (hclean : (f.scan bytes).stop = none)
    {rs : List WalRecord} {big : WalRecord} (htype : ∀ r ∈ rs, r.1 ≠ walInvalidType)
    (hfit : ∀ r ∈ rs, r.2.length ≤ maxWalRecordLen) (hbigType : big.1 ≠ walInvalidType)
    (hbig : maxWalRecordLen < big.2.length) (rs' : List WalRecord) :
    ∃ tail, (f.scan (bytes ++ (rs ++ big :: rs').flatMap f.frame)).records =
        (f.scan bytes).records ++ rs ++ tail ∧
      (tail = [] ∨ ∃ k < big.2.length, ∃ tail', tail = (big.1, big.2.take k) :: tail') := by
  obtain ⟨hrecords, hstop⟩ := scan_frames hclean htype hfit
  have hsplit : bytes ++ (rs ++ big :: rs').flatMap f.frame =
      (bytes ++ rs.flatMap f.frame) ++ (f.frame big ++ rs'.flatMap f.frame) := by
    simp
  have happ : f.scan (bytes ++ (rs ++ big :: rs').flatMap f.frame) =
      (f.scan (bytes ++ rs.flatMap f.frame)).append
        (f.scan (f.frame big ++ rs'.flatMap f.frame)) := by
    rw [hsplit]
    exact f.reader.scan_append hstop _
  refine ⟨(f.scan (f.frame big ++ rs'.flatMap f.frame)).records, ?_, ?_⟩
  · rw [happ, ← hrecords]
    rfl
  · rcases WalFormat.nextRecord_frame_of_lt (f := f) hbigType hbig (rs'.flatMap f.frame) with
      hnext | ⟨k, hk, size, hnext⟩
    · have hne : f.frame big ++ rs'.flatMap f.frame ≠ [] := by simp [WalFormat.frame]
      left
      rw [WalFormat.scan, f.reader.scan_stop hne hnext]
    · have hnext : f.reader.next (f.frame big ++ rs'.flatMap f.frame) = _ := hnext
      right
      refine ⟨k, hk,
        (f.reader.scan ((f.frame big ++ rs'.flatMap f.frame).drop size)).records, ?_⟩
      rw [WalFormat.scan, f.reader.scan_record hnext]
      rfl

/-- The first of a list of things that does not fit. -/
lemma exists_first_big {α : Type} (size : α → Nat) {as : List α}
    (h : ¬ ∀ a ∈ as, size a ≤ maxWalRecordLen) :
    ∃ fitting big rest, as = fitting ++ big :: rest ∧
      (∀ a ∈ fitting, size a ≤ maxWalRecordLen) ∧ maxWalRecordLen < size big := by
  induction as with
  | nil => exact absurd (fun _ ha => nomatch ha) h
  | cons a as ih =>
      by_cases ha : size a ≤ maxWalRecordLen
      · have has : ¬ ∀ a ∈ as, size a ≤ maxWalRecordLen := fun hall =>
          h (List.forall_mem_cons.mpr ⟨ha, hall⟩)
        obtain ⟨fitting, big, rest, rfl, hfit, hbig⟩ := ih has
        exact ⟨a :: fitting, big, rest, rfl, List.forall_mem_cons.mpr ⟨ha, hfit⟩, hbig⟩
      · exact ⟨[], a, as, rfl, fun _ hmem => (nomatch hmem), Nat.lt_of_not_le ha⟩

/-- What was appended is read back exactly when all of it fits. -/
theorem scan_frames_iff {bytes : Bytes} (hclean : (f.scan bytes).stop = none) {rs : List WalRecord}
    (htype : ∀ r ∈ rs, r.1 ≠ walInvalidType) :
    (f.scan (bytes ++ rs.flatMap f.frame)).records = (f.scan bytes).records ++ rs ↔
      ∀ r ∈ rs, r.2.length ≤ maxWalRecordLen := by
  refine ⟨fun hread => ?_, fun hfit => (scan_frames hclean htype hfit).1⟩
  by_contra hbig
  obtain ⟨fitting, big, rest, rfl, hfit, hbig⟩ :=
    exists_first_big (fun r : WalRecord => r.2.length) hbig
  obtain ⟨tail, htail, hcase⟩ := scan_frames_of_lt hclean
    (fun r hr => htype r (List.mem_append_left _ hr)) hfit (htype big (by simp)) hbig rest
  rw [htail, List.append_assoc, List.append_cancel_left_eq, List.append_cancel_left_eq] at hread
  rcases hcase with rfl | ⟨k, hk, tail', rfl⟩
  · cases hread
  · injection hread with hhead
    have hlen : (big.2.take k).length = big.2.length := congrArg (fun r => r.2.length) hhead
    rw [List.length_take] at hlen
    omega

lemma type_of_mem_saves {saves : List (HardState × List Entry)} :
    ∀ r ∈ saves.flatMap (saveRecords f), r.1 ≠ walInvalidType := by
  intro r hr
  obtain ⟨s, -, hr⟩ := List.mem_flatMap.mp hr
  exact type_of_mem_saveRecords hr

/-- **The reading loop yields what was saved**, each record's type and its bytes in order, exactly
when no packed entry or hard state is larger than a header can say. -/
theorem saveEach_framing_iff (f : WalFormat) (w : Wal) (hclean : (f.scan w.file.bytes).stop = none)
    (saves : List (HardState × List Entry)) :
    (f.scan (w.saveEach f saves).file.sync.content).records =
        (f.scan w.file.bytes).records ++ saves.flatMap (saveRecords f) ↔
      ∀ s ∈ saves, ∀ r ∈ saveRecords f s, r.2.length ≤ maxWalRecordLen := by
  rw [WalFile.content_sync, bytes_saveEach, scan_frames_iff hclean type_of_mem_saves]
  simp only [List.mem_flatMap]
  exact ⟨fun h s hs r hr => h r ⟨s, hs, hr⟩, fun h r ⟨s, hs, hr⟩ => h s hs r hr⟩

/-- A log that was just created, as it is opened for a node without a snapshot. -/
def created : Wal := openAt (create WalFormat.msgpack) 0 {}

lemma created_clean : (WalFormat.msgpack.scan created.file.bytes).stop = none := by
  decide +kernel

/-- A log that takes one small entry. -/
theorem saveEach_framing_iff_created :
    (WalFormat.msgpack.scan (created.saveEach WalFormat.msgpack
        [({ term := 1 }, [{ term := 1, index := 1, data := [97] }])]).file.sync.content).records =
      (WalFormat.msgpack.scan created.file.bytes).records ++
        [(walEntryType, [148, 0, 1, 1, 196, 1, 97]), (walStateType, [147, 1, 0, 0])] :=
  (saveEach_framing_iff WalFormat.msgpack created created_clean _).mpr (by decide)

/-- A value of 16 MiB makes a record of which less is read than was saved. -/
theorem saveEach_large_entry :
    ∃ saves : List (HardState × List Entry),
      (WalFormat.msgpack.scan (created.saveEach WalFormat.msgpack saves).file.sync.content).records ≠
        (WalFormat.msgpack.scan created.file.bytes).records ++
          saves.flatMap (saveRecords WalFormat.msgpack) := by
  refine ⟨[({}, [{ term := 1, index := 1, data := List.replicate (2 ^ 24) 0 }])], fun hread => ?_⟩
  rw [WalFile.content_sync, bytes_saveEach, scan_frames_iff created_clean type_of_mem_saves] at hread
  have hbig := hread (walEntryType, entryFormat.pack
    { term := 1, index := 1, data := List.replicate (2 ^ 24) 0 }) (List.mem_append_left _
      (List.mem_singleton_self _))
  have hlen := length_le_packedEntry { term := 1, index := 1, data := List.replicate (2 ^ 24) 0 }
  rw [List.length_replicate] at hlen
  exact absurd (hlen.trans hbig) (by decide)

end Wal

end RaftKv
