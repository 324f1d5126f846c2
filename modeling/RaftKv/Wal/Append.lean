import RaftKv.Wal.Replay

/-!
# Appending after reading

`read_all` is to leave the log ready for new records.  Wherever the reading loop stops it truncates
the file, but for one of its branches: at a header of type `walInvalidType` it only stops.

* `Wal.scan_readFile` — what reading leaves of the file is whole records, unless it stopped there.
* `Wal.readAll_append_iff` — **what is saved after reading is read the next time**, exactly when the
  loop did not stop there, or nothing new is saved, and every record fits its header.
-/

namespace RaftKv

namespace Wal

variable {f : WalFormat} {start : WalSnapshot}

/-- What a call of `read_all` that returns has done. -/
theorem readAll_eq_ok {w w' : Wal} {hs hs' : HardState} {ents ents' : List (Option Entry)} :
    w.readAll f hs ents = Except.ok (w', hs', ents') ↔
      ∃ s, (f.scan w.file.content).records.foldlM (WalReplay.handleRecord f w.start)
          { hs := hs, ents := ents, enti := w.enti } = Except.ok s ∧ s.matchsnap = true ∧
        w' = { w with enti := s.enti, file := readFile f w.file } ∧ hs' = s.hs ∧ ents' = s.ents := by
  rw [readAll, Outcome.bind_eq_ok]
  refine exists_congr fun s => and_congr_right fun _ => ?_
  split
  · rename_i hsnap
    exact ⟨fun h => (nomatch h), fun h => absurd h.1 hsnap⟩
  · rename_i hsnap
    rw [Outcome.pure_eq_ok, Prod.mk.injEq, Prod.mk.injEq]
    exact ⟨fun h => ⟨not_not.mp hsnap, h.1.symm, h.2.1.symm, h.2.2.symm⟩,
      fun h => ⟨h.2.1.symm, h.2.2.1.symm, h.2.2.2.symm⟩⟩

/-- A file is whole records after it was read, unless the loop stopped at `walInvalidType`. -/
theorem scan_readFile {file : WalFile}
    (h : (f.scan file.content).stop ≠ some StopReason.invalidType) :
    (f.scan (readFile f file).content).records = (f.scan file.content).records ∧
      (f.scan (readFile f file).content).stop = none := by
  have hcut : f.scan (file.content.take (f.scan file.content).size) =
      { f.scan file.content with stop := none } := f.reader.scan_take _
  cases hstop : (f.scan file.content).stop with
  | none =>
      rw [readFile, hstop]
      exact ⟨rfl, hstop⟩
  | some why =>
      have htruncates : why.truncates = true := by
        cases why with
        | invalidType => exact absurd hstop h
        | _ => rfl
      rw [readFile, hstop]
      dsimp only
      rw [if_pos htruncates, WalFile.truncate]
      dsimp only
      rw [hcut]
      exact ⟨rfl, rfl⟩

/-- Reading buffers nothing. -/
lemma bytes_readFile (file : WalFile) (hfile : file.dataBuffer = []) :
    (readFile f file).bytes = (readFile f file).content := by
  have hbuffer : (readFile f file).dataBuffer = [] := by
    rw [readFile]
    split
    · split
      · rfl
      · exact hfile
    · exact hfile
  rw [WalFile.bytes, hbuffer, List.append_nil]

/-- Behind `walInvalidType` nothing is read, now or later. -/
theorem scan_readFile_of_invalidType {file : WalFile}
    (h : (f.scan file.content).stop = some StopReason.invalidType) (more : Bytes) :
    f.scan ((readFile f file).content ++ more) = f.scan file.content := by
  have hfile : readFile f file = file := by rw [readFile, h]; rfl
  rw [hfile]
  exact f.reader.scan_append_of_stop h
    (WalFormat.nextRecord_invalidType (f.reader.next_drop_size h).1 more)

variable {content : Bytes} {size : Nat} {w : Wal} {hs : HardState} {ents : List (Option Entry)}
  {saves : List (HardState × List Entry)}

/-- The file behind a log that was read and then saved to. -/
lemma content_saves (hread : (openAt content size start).readAll f {} [] =
      Except.ok (w, hs, ents)) (saves : List (HardState × List Entry)) :
    (w.saveEach f saves).file.sync.content =
      (readFile f { content := content, fileSize := size }).content ++
        (saves.flatMap (saveRecords f)).flatMap f.frame := by
  obtain ⟨s, -, -, rfl, -, -⟩ := readAll_eq_ok.mp hread
  rw [WalFile.content_sync, bytes_saveEach]
  exact congrArg (· ++ _) (bytes_readFile { content := content, fileSize := size } rfl)

/-- Nothing new is read behind `walInvalidType`. -/
lemma readAll_of_invalidType (hread : (openAt content size start).readAll f {} [] =
      Except.ok (w, hs, ents)) (hstop : (f.scan content).stop = some StopReason.invalidType)
    (saves : List (HardState × List Entry)) (size' : Nat) :
    ∃ w', (openAt (w.saveEach f saves).file.sync.content size' start).readAll f {} [] =
      Except.ok (w', hs, ents) := by
  have hscan : f.scan (w.saveEach f saves).file.sync.content = f.scan content := by
    rw [content_saves hread]
    exact @scan_readFile_of_invalidType f { content := content, fileSize := size } hstop _
  obtain ⟨s, hfold, hsnap, -, hhs, hents⟩ := readAll_eq_ok.mp hread
  exact ⟨_, readAll_eq_ok.mpr ⟨s, by rw [openAt]; dsimp only; rw [hscan]; exact hfold, hsnap, rfl,
    hhs, hents⟩⟩

/-- Where the loop has left whole records, the records of the second reading are those of the first
one and then whatever the reader makes of the saved ones. -/
lemma records_saves (hread : (openAt content size start).readAll f {} [] =
      Except.ok (w, hs, ents)) (hstop : (f.scan content).stop ≠ some StopReason.invalidType)
    (saves : List (HardState × List Entry)) :
    ∃ before, (f.scan before).stop = none ∧ (f.scan before).records = (f.scan content).records ∧
      (w.saveEach f saves).file.sync.content =
        before ++ ((saves.flatMap saveItems).map (WalItem.record f)).flatMap f.frame := by
  obtain ⟨hrecords, hend⟩ := @scan_readFile f { content := content, fileSize := size } hstop
  refine ⟨(readFile f { content := content, fileSize := size }).content, hend, hrecords, ?_⟩
  rw [content_saves hread, saveRecords_flatMap]

/-- The second reading finds what was saved, if every record fits. -/
lemma readAll_of_fits (hread : (openAt content size start).readAll f {} [] =
      Except.ok (w, hs, ents)) (hstop : (f.scan content).stop ≠ some StopReason.invalidType)
    (hnum : Numbered (start.index + ents.length + 1) (newEntries saves))
    (hitems : ∀ i ∈ saves.flatMap saveItems,
      i.RoundTrips f ∧ (i.record f).2.length ≤ maxWalRecordLen) (size' : Nat) :
    ∃ w', (openAt (w.saveEach f saves).file.sync.content size' start).readAll f {} [] =
      Except.ok (w', newestState hs saves, ents ++ (newEntries saves).map some) := by
  obtain ⟨before, hend, hrecords, hcontent⟩ := records_saves hread hstop saves
  obtain ⟨s, hfold, hsnap, -, rfl, rfl⟩ := readAll_eq_ok.mp hread
  have htype : ∀ r ∈ (saves.flatMap saveItems).map (WalItem.record f), r.1 ≠ walInvalidType :=
    List.forall_mem_map.mpr fun i _ => i.type_record f
  have hscan := (scan_frames hend htype (List.forall_mem_map.mpr fun i hi => (hitems i hi).2)).1
  rw [← hcontent, hrecords] at hscan
  obtain ⟨enti, hsaved⟩ := replayItems_saved start (snapshot_not_mem_saveItems saves)
    (s := s) (by rw [filterMap_saveItems]; exact hnum)
  rw [filterMap_saveItems, stateAfter_saveItems] at hsaved
  refine ⟨_, readAll_eq_ok.mpr ⟨{ s with
    hs := newestState s.hs saves
    ents := s.ents ++ (newEntries saves).map some
    enti := enti }, ?_, hsnap, rfl, rfl, rfl⟩⟩
  · rw [openAt]
    dsimp only
    rw [hscan, List.foldlM_append]
    refine Outcome.bind_eq_ok.mpr ⟨s, hfold, ?_⟩
    rw [handleRecords_items fun i hi => (hitems i hi).1]
    exact hsaved

/-- The second reading fails, or comes short, if a packed entry does not fit. -/
lemma not_readAll_of_big (hread : (openAt content size start).readAll f {} [] =
      Except.ok (w, hs, ents)) (hstop : (f.scan content).stop ≠ some StopReason.invalidType)
    (hnum : Numbered (start.index + ents.length + 1) (newEntries saves))
    (hentry : ∀ e ∈ newEntries saves, f.entry.RoundTrips e ∧ f.entry.RefusesCut e)
    (hstate : ∀ s ∈ saves, f.state.RoundTrips s.1 ∧
      (f.state.pack s.1).length ≤ maxWalRecordLen)
    (hbig : ¬ ∀ e ∈ newEntries saves, (f.entry.pack e).length ≤ maxWalRecordLen)
    (size' : Nat) (w' : Wal) (hs' : HardState) :
    (openAt (w.saveEach f saves).file.sync.content size' start).readAll f {} [] ≠
      Except.ok (w', hs', ents ++ (newEntries saves).map some) := by
  intro hagain
  obtain ⟨before, hend, hrecords, hcontent⟩ := records_saves hread hstop saves
  obtain ⟨s, hfold, -, -, rfl, rfl⟩ := readAll_eq_ok.mp hread
  have hbigItem : ¬ ∀ i ∈ saves.flatMap saveItems, (i.record f).2.length ≤ maxWalRecordLen := by
    refine fun hall => hbig fun e he => hall (WalItem.entry e) ?_
    obtain ⟨t, ht, he⟩ := List.mem_flatMap.mp he
    exact List.mem_flatMap.mpr ⟨t, ht, List.mem_append_left _ (List.mem_map_of_mem he)⟩
  obtain ⟨pre, big, post, hsplit, hfit, hlt⟩ :=
    exists_first_big (fun i : WalItem => (i.record f).2.length) hbigItem
  -- only an entry can be that large
  have hmem : ∀ i, i ∈ pre ++ big :: post → (∃ e ∈ newEntries saves, i = WalItem.entry e) ∨
      ∃ t ∈ saves, i = WalItem.state t.1 := fun i hi => mem_saveItems (hsplit ▸ hi)
  obtain ⟨e, he, rfl⟩ : ∃ e ∈ newEntries saves, big = WalItem.entry e := by
    refine (hmem big (by simp)).resolve_right fun ⟨t, ht, hbig⟩ => ?_
    subst hbig
    exact absurd hlt (Nat.not_lt.mpr (hstate t ht).2)
  have hentries : newEntries saves =
      pre.filterMap WalItem.entry? ++ e :: post.filterMap WalItem.entry? := by
    rw [← filterMap_saveItems, hsplit, List.filterMap_append]
    rfl
  -- what is read before the record that does not fit
  have hpre : ∀ i ∈ pre, i.RoundTrips f := by
    intro i hi
    rcases hmem i (List.mem_append_left _ hi) with ⟨e', he', rfl⟩ | ⟨t, ht, rfl⟩
    · exact (hentry e' he').1
    · exact (hstate t ht).1
  have hsnap : ∀ snap, WalItem.snapshot snap ∉ pre := fun snap hs =>
    snapshot_not_mem_saveItems saves snap (hsplit ▸ List.mem_append_left _ hs)
  obtain ⟨enti, hreplay⟩ := replayItems_saved start hsnap (s := s) (by
    have := hnum.take (pre.filterMap WalItem.entry?).length
    rwa [hentries, List.take_left] at this)
  rw [← handleRecords_items hpre] at hreplay
  -- what is read behind it
  obtain ⟨tail, htail, hcase⟩ := scan_frames_of_lt hend
    (List.forall_mem_map.mpr fun i _ => i.type_record f) (List.forall_mem_map.mpr hfit)
    (WalItem.type_record f (WalItem.entry e)) hlt (post.map (WalItem.record f))
  rw [hcontent, hsplit, List.map_append, List.map_cons] at hagain
  obtain ⟨s', hfold', -, -, -, hents⟩ := readAll_eq_ok.mp hagain
  rw [openAt] at hfold'
  dsimp only at hfold'
  rw [htail, hrecords, List.append_assoc, List.foldlM_append] at hfold'
  obtain ⟨s₁, hs₁, hfold'⟩ := Outcome.bind_eq_ok.mp hfold'
  obtain rfl := Except.ok.inj (hfold.symm.trans hs₁)
  rw [List.foldlM_append] at hfold'
  obtain ⟨s₂, hs₂, hfold'⟩ := Outcome.bind_eq_ok.mp hfold'
  obtain rfl := Except.ok.inj (hreplay.symm.trans hs₂)
  rcases hcase with rfl | ⟨k, hk, tail', rfl⟩
  · -- the reader has stopped, and the large entry is missing
    cases hfold'
    have hlen := congrArg List.length hents
    simp only [hentries, List.length_append, List.length_map, List.length_cons] at hlen
    omega
  · -- the reader has taken a part of the large entry
    obtain ⟨crash, hcrash⟩ := Codec.unpackOrThrow_take (hentry e he).2 hk
    rw [List.foldlM_cons] at hfold'
    obtain ⟨s₃, hs₃, -⟩ := Outcome.bind_eq_ok.mp hfold'
    cases (handleRecord_of_error hcrash _).symm.trans hs₃

/-- **What is saved after reading is read the next time**: the entries behind those of the first
reading, and the newest hard state.  This holds exactly when the first reading did not stop at a
header of type `walInvalidType`, or nothing new was saved behind it, and every entry fits. -/
theorem readAll_append_iff (f : WalFormat) (start : WalSnapshot) (content : Bytes) (size size' : Nat)
    {w : Wal} {hs : HardState} {ents : List (Option Entry)}
    (hread : (openAt content size start).readAll f {} [] = Except.ok (w, hs, ents))
    (saves : List (HardState × List Entry))
    (hnum : Numbered (start.index + ents.length + 1) (newEntries saves))
    (hentry : ∀ e ∈ newEntries saves, f.entry.RoundTrips e ∧ f.entry.RefusesCut e)
    (hstate : ∀ s ∈ saves, f.state.RoundTrips s.1 ∧
      (f.state.pack s.1).length ≤ maxWalRecordLen) :
    (∃ w', (openAt (w.saveEach f saves).file.sync.content size' start).readAll f {} [] =
        Except.ok (w', newestState hs saves, ents ++ (newEntries saves).map some)) ↔
      ((f.scan content).stop = some StopReason.invalidType →
        newEntries saves = [] ∧ newestState hs saves = hs) ∧
      ((f.scan content).stop ≠ some StopReason.invalidType →
        ∀ e ∈ newEntries saves, (f.entry.pack e).length ≤ maxWalRecordLen) := by
  by_cases hstop : (f.scan content).stop = some StopReason.invalidType
  · obtain ⟨w', hagain⟩ := readAll_of_invalidType hread hstop saves size'
    constructor
    · rintro ⟨w'', hall⟩
      refine ⟨fun _ => ?_, fun hne => absurd hstop hne⟩
      rw [hagain, Except.ok.injEq, Prod.mk.injEq, Prod.mk.injEq] at hall
      obtain ⟨-, hhs, hents⟩ := hall
      exact ⟨List.map_eq_nil_iff.mp (List.append_right_eq_self.mp hents.symm), hhs.symm⟩
    · rintro ⟨hnone, -⟩
      obtain ⟨hents, hhs⟩ := hnone hstop
      refine ⟨w', ?_⟩
      rw [hagain, hents, hhs, List.map_nil, List.append_nil]
  · refine ⟨fun ⟨w', hall⟩ => ⟨fun h => absurd h hstop, fun _ => ?_⟩, fun ⟨_, hfit⟩ => ?_⟩
    · by_contra hbig
      exact not_readAll_of_big hread hstop hnum hentry hstate hbig size' w' _ hall
    · refine readAll_of_fits hread hstop hnum (fun i hi => ?_) size'
      rcases mem_saveItems hi with ⟨e, he, rfl⟩ | ⟨s, hs, rfl⟩
      · exact ⟨(hentry e he).1, hfit hstop e he⟩
      · exact hstate s hs

/-- The first entry after a log was created and opened. -/
theorem readAll_append_iff_created :
    ∃ w w', created.readAll WalFormat.msgpack {} [] = Except.ok (w, {}, []) ∧
      (openAt (w.saveEach WalFormat.msgpack
        [({ term := 1 }, [{ term := 1, index := 1 }])]).file.sync.content 0 {}).readAll
          WalFormat.msgpack {} [] =
        Except.ok (w', { term := 1 }, [some { term := 1, index := 1 }]) := by
  have hread : created.readAll WalFormat.msgpack {} [] = Except.ok (created, {}, []) := by
    decide +kernel
  have hfits : entryFormat.Fits { term := 1, index := 1 } :=
    entryFormat_fits rfl (by decide) (by decide) (by decide)
  obtain ⟨w', hagain⟩ := (readAll_append_iff WalFormat.msgpack {} (create WalFormat.msgpack) 0 0
    hread [({ term := 1 }, [{ term := 1, index := 1 }])]
    (Numbered.cons rfl (Numbered.nil _))
    (fun e he => by
      obtain rfl := List.mem_singleton.mp he
      exact ⟨Codec.roundTrips_ofFormat _ hfits, Codec.refusesCut_ofFormat entryFormat_stable hfits⟩)
    (fun s hs => by
      obtain rfl := List.mem_singleton.mp hs
      exact ⟨rfl, by decide⟩)).mpr
        ⟨fun hstop => absurd hstop (by decide +kernel), fun _ => by decide⟩
  exact ⟨created, w', hread, hagain⟩

/-- The file of a log that was created, with a header's worth of zeros behind it. -/
def zeroTail : Bytes := create WalFormat.msgpack ++ List.replicate 8 0

/-- An entry that is saved behind zeros is lost: the second reading finds nothing. -/
theorem readAll_append_zeroTail :
    ∃ w w', (openAt zeroTail 0 {}).readAll WalFormat.msgpack {} [] = Except.ok (w, {}, []) ∧
      (openAt (w.saveEach WalFormat.msgpack
          [({ term := 1 }, [{ term := 1, index := 1 }])]).file.sync.content 0 {}).readAll
        WalFormat.msgpack {} [] = Except.ok (w', {}, []) ∧
      newestState {} [({ term := 1 }, [{ term := 1, index := 1 }])] ≠ {} := by
  have hread : (openAt zeroTail 0 {}).readAll WalFormat.msgpack {} [] =
      Except.ok (openAt zeroTail 0 {}, {}, []) := by decide +kernel
  obtain ⟨w', hagain⟩ := readAll_of_invalidType hread (by decide +kernel)
    [({ term := 1 }, [{ term := 1, index := 1 }])] 0
  exact ⟨_, w', hread, hagain, by decide⟩

end Wal

end RaftKv
