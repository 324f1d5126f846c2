import RaftKv.Wal.Calls

/-!
# Torn writes

A log whose file ends somewhere in what was written: inside of a header, inside of a record's data,
or behind a record.

* `WalFormat.nextRecord_torn` — a part of a record is not taken for a record, and the file is
  truncated in front of it.
* `Wal.wholeItems` — what lies wholly in the first bytes of a log.
* `Wal.readAll_torn` — **only the torn record is lost**: what is wholly there is read, the file is
  truncated behind it, and what is saved afterwards is read behind it.
-/

namespace RaftKv

namespace WalFormat

variable {f : WalFormat} {r : WalRecord}

/-- The loop stops at a header that announces more data than there is. -/
lemma nextRecord_short {type : UInt8} (htype : type ≠ walInvalidType) {len : Nat}
    (hlen : len ≤ maxWalRecordLen) (crc : Nat) {data : Bytes} (hshort : data.length < len) :
    f.nextRecord (type :: (setWalRecordLen len ++ (littleEndian 4 crc ++ data))) =
      Found.stop StopReason.data := by
  have hset := (walRecordLen_eq_iff len).mpr hlen
  obtain ⟨l₀, l₁, l₂, hl⟩ := List.length_eq_three.mp (length_littleEndian 3
    (min (wrap32 len) maxWalRecordLen))
  obtain ⟨c₀, cs, hcs⟩ := List.exists_cons_of_length_eq_add_one (length_littleEndian 4 crc)
  obtain ⟨c₁, c₂, c₃, rfl⟩ := List.length_eq_three.mp
    (Nat.succ.inj (by simpa [hcs] using length_littleEndian 4 crc))
  rw [setWalRecordLen, hl] at hset ⊢
  rw [hcs]
  simp only [List.cons_append, List.nil_append, nextRecord, hset]
  rw [if_neg htype, if_pos hshort]

/-- The loop stops at less than a header. -/
lemma nextRecord_header {bs : Bytes} (h : bs.length < 8) :
    f.nextRecord bs = Found.stop StopReason.header := by
  unfold nextRecord
  split
  · simp only [List.length_cons] at h
    omega
  · rfl

/-- **A part of a record is not taken for a record.** -/
theorem nextRecord_torn (htype : r.1 ≠ walInvalidType) (hfit : r.2.length ≤ maxWalRecordLen)
    {m : Nat} (hm : m < (f.frame r).length) :
    ∃ why : StopReason, why.truncates = true ∧ f.nextRecord ((f.frame r).take m) = Found.stop why := by
  have hsize : (f.frame r).length = 8 + r.2.length := by
    simp only [frame, setWalRecordLen, List.length_cons, List.length_append, length_littleEndian]
    omega
  rcases Nat.lt_or_ge m 8 with hlt | hge
  · refine ⟨StopReason.header, rfl, nextRecord_header ?_⟩
    rw [List.length_take]
    omega
  · obtain ⟨k, rfl⟩ := Nat.exists_eq_add_of_le hge
    have htake : (f.frame r).take (8 + k) =
        r.1 :: (setWalRecordLen r.2.length ++ (littleEndian 4 (f.crc r.2).toNat ++ r.2.take k)) := by
      have hlen : (setWalRecordLen r.2.length).length = 3 := length_littleEndian ..
      rw [frame, Nat.add_comm 8 k, List.take_succ_cons, List.take_append, hlen,
        List.take_of_length_le (by omega), List.take_append, length_littleEndian,
        List.take_of_length_le (by rw [length_littleEndian]; omega)]
      congr 4
    refine ⟨StopReason.data, rfl, ?_⟩
    rw [htake]
    refine nextRecord_short htype hfit _ ?_
    rw [List.length_take]
    omega

end WalFormat

namespace Wal

variable {f : WalFormat} {start : WalSnapshot}

/-- The bytes of a log. -/
def itemBytes (f : WalFormat) (items : List WalItem) : Bytes :=
  (items.map (WalItem.record f)).flatMap f.frame

/-- The items that lie wholly in the first `n` bytes of a log. -/
def wholeItems (f : WalFormat) (n : Nat) (items : List WalItem) : List WalItem :=
  RecordReader.whole (fun i => f.frame (i.record f)) n items

/-- What a log says to someone who starts at a snapshot. -/
def readItems (start : WalSnapshot) (items : List WalItem) :
    Outcome (HardState × List (Option Entry)) :=
  (items.foldlM (replayItem start) {}).map fun s => (s.hs, s.ents)

/-- Once a snapshot record was met, the loop has its match. -/
lemma matchsnap_replayItems {items : List WalItem} {s s' : WalReplay} (hs : s.matchsnap = true)
    (h : items.foldlM (replayItem start) s = Except.ok s') : s'.matchsnap = true := by
  refine Outcome.foldlM_induct (P := fun s => s.matchsnap = true) (fun s s' i _ hs h => ?_) hs h
  cases i with
  | entry e => cases h; exact hs
  | state hs' => cases h; exact hs
  | snapshot snap =>
      rw [replayItem] at h
      split at h
      · cases h
      · cases h
        rfl

/-- **A log of whole items is read item by item.** -/
theorem readAll_itemBytes {items : List WalItem} {file : WalFile}
    (hitems : ∃ rest, items = WalItem.snapshot {} :: rest)
    (hpack : ∀ i ∈ items, i.RoundTrips f)
    (hrecords : (f.scan file.content).records = items.map (WalItem.record f)) :
    (readAll f { start := start, file := file } {} []).map Prod.snd = readItems start items := by
  obtain ⟨rest, rfl⟩ := hitems
  rw [readItems, readAll]
  dsimp only
  rw [hrecords, handleRecords_items hpack]
  cases hreplay : (WalItem.snapshot {} :: rest).foldlM (replayItem start) {} with
  | error e => rfl
  | ok s =>
      have hmatch : s.matchsnap = true := by
        rw [List.foldlM_cons] at hreplay
        obtain ⟨s₁, hfirst, hreplay⟩ := Outcome.bind_eq_ok.mp hreplay
        refine matchsnap_replayItems ?_ hreplay
        rw [replayItem] at hfirst
        split at hfirst
        · cases hfirst
        · cases hfirst
          rfl
      simp [hmatch, Except.map, pure, Except.pure]

variable {items : List WalItem}

/-- The reading loop finds what lies wholly in the first bytes, and leaves just that. -/
theorem scan_torn (hfit : ∀ i ∈ items, (i.record f).2.length ≤ maxWalRecordLen) (n size : Nat) :
    (f.scan ((itemBytes f items).take n)).records =
        (wholeItems f n items).map (WalItem.record f) ∧
      (readFile f { content := (itemBytes f items).take n, fileSize := size }).content =
        itemBytes f (wholeItems f n items) := by
  obtain ⟨hrecords, hsize, hkept, hstop⟩ := @RecordReader.scan_take_flatMap _ _ _ f.reader f.frame
    (fun r => r.1 ≠ walInvalidType ∧ r.2.length ≤ maxWalRecordLen)
    (fun why => why.truncates = true)
    (fun _ hr more => WalFormat.nextRecord_frame_of_le hr.1 hr.2 more)
    (fun _ hr _ hm _ => WalFormat.nextRecord_torn hr.1 hr.2 hm) (items.map (WalItem.record f))
    (List.forall_mem_map.mpr fun i hi => ⟨i.type_record f, hfit i hi⟩) n
  rw [RecordReader.whole_map] at hrecords hsize hkept
  refine ⟨hrecords, ?_⟩
  have hle := f.reader.scan_size_le ((itemBytes f items).take n)
  -- either way the file ends behind the records that were read
  have hcut : (readFile f { content := (itemBytes f items).take n, fileSize := size }).content =
      ((itemBytes f items).take n).take (f.reader.scan ((itemBytes f items).take n)).size := by
    rw [readFile]
    cases hs : (f.scan ((itemBytes f items).take n)).stop with
    | none =>
        have hwhole := f.reader.scan_size_eq hs
        rw [hwhole, List.take_length]
    | some why =>
        have htruncates : why.truncates = true := hstop why hs
        dsimp only
        rw [if_pos htruncates]
        rfl
  rw [List.length_take] at hle
  rw [hcut, List.take_take, Nat.min_eq_left (by omega)]
  exact (congrArg (fun k => (itemBytes f items).take k) hsize).trans hkept

lemma first_mem_wholeItems {n : Nat} (rest : List WalItem) (hn : (create f).length ≤ n) :
    ∃ rest', wholeItems f n (WalItem.snapshot {} :: rest) = WalItem.snapshot {} :: rest' := by
  have hcreate : create f = f.frame ((WalItem.snapshot {}).record f) := rfl
  rw [hcreate] at hn
  rw [wholeItems, RecordReader.whole, if_pos hn]
  exact ⟨_, rfl⟩

/-- **Torn writes lose only the torn record.**  Of a log that was written by any calls and ends
behind its first `n` bytes, `read_all` returns what lies wholly in them, and truncates the file
behind it; what is written afterwards is returned behind it by the next `read_all`, from whatever
snapshot it starts. -/
theorem readAll_torn (f : WalFormat) {w : Wal} (hw : w.file.bytes = create f) (cs : List WalCall)
    (hpack : ∀ i ∈ written cs, i.RoundTrips f ∧ (i.record f).2.length ≤ maxWalRecordLen)
    (n : Nat) (hn : (create f).length ≤ n) (start : WalSnapshot) (size : Nat) :
    ((openAt ((w.calls f cs).file.sync.content.take n) size start).readAll f {} []).map Prod.snd =
        readItems start (wholeItems f n (written cs)) ∧
      ∀ w' hs ents, (openAt ((w.calls f cs).file.sync.content.take n) size start).readAll f {} [] =
          Except.ok (w', hs, ents) →
        w'.file.content = itemBytes f (wholeItems f n (written cs)) ∧
        ∀ cs', (∀ i ∈ cs'.flatMap WalCall.items,
            i.RoundTrips f ∧ (i.record f).2.length ≤ maxWalRecordLen) →
          ∀ start' size',
            ((openAt (w'.calls f cs').file.sync.content size' start').readAll f {} []).map Prod.snd =
              readItems start' (wholeItems f n (written cs) ++ cs'.flatMap WalCall.items) := by
  obtain ⟨rest, hrest⟩ := first_mem_wholeItems (cs.flatMap WalCall.items) hn
  have hsub : ∀ i ∈ wholeItems f n (written cs), i ∈ written cs :=
    fun i hi => (RecordReader.whole_isPrefix _ n (written cs)).subset hi
  obtain ⟨hrecords, hkept⟩ := scan_torn (fun i hi => (hpack i hi).2) n size
  rw [content_calls hw]
  refine ⟨readAll_itemBytes ⟨rest, hrest⟩ (fun i hi => (hpack i (hsub i hi)).1) hrecords, ?_⟩
  intro w' hs ents hread
  obtain ⟨s, -, -, rfl, -, -⟩ := readAll_eq_ok.mp hread
  refine ⟨hkept, fun cs' hpack' start' size' => ?_⟩
  have hall : ∀ i ∈ wholeItems f n (written cs) ++ cs'.flatMap WalCall.items,
      i.RoundTrips f ∧ (i.record f).2.length ≤ maxWalRecordLen := by
    intro i hi
    rcases List.mem_append.mp hi with hi | hi
    · exact hpack i (hsub i hi)
    · exact hpack' i hi
  refine readAll_itemBytes ⟨rest ++ cs'.flatMap WalCall.items, ?_⟩ (fun i hi => (hall i hi).1) ?_
  · rw [written, hrest]
    rfl
  · have hcontent : ∀ w₁ : Wal, w₁.file.bytes = itemBytes f (wholeItems f n (written cs)) →
        (w₁.calls f cs').file.sync.content =
          itemBytes f (wholeItems f n (written cs) ++ cs'.flatMap WalCall.items) := by
      intro w₁ hw₁
      rw [WalFile.content_sync, bytes_calls, hw₁, itemBytes, itemBytes, List.map_append,
        List.flatMap_append]
    dsimp only
    rw [hcontent _ ((bytes_readFile _ rfl).trans hkept), itemBytes, scan_items fun i hi => (hall i hi).2]

/-- The second of the entries is torn. -/
theorem readAll_torn_overwritten :
    wholeItems WalFormat.msgpack 30 (written overwritten) =
        [WalItem.snapshot {}, WalItem.entry { term := 1, index := 1 }] ∧
      ((openAt ((created.calls WalFormat.msgpack overwritten).file.sync.content.take 30) 0 {}).readAll
        WalFormat.msgpack {} []).map Prod.snd = Except.ok ({}, [some { term := 1, index := 1 }]) := by
  have hkept : wholeItems WalFormat.msgpack 30 (written overwritten) =
      [WalItem.snapshot {}, WalItem.entry { term := 1, index := 1 }] := by decide +kernel
  refine ⟨hkept, ?_⟩
  have hread := (readAll_torn WalFormat.msgpack (w := created) rfl overwritten overwritten_fits 30
    (by decide +kernel) {} 0).1
  rw [hread, hkept]
  rfl

end Wal

end RaftKv
