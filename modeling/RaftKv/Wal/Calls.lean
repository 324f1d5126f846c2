import RaftKv.Wal.Append

/-!
# A log and the storage

A log that is written by calls of `save` and `save_snapshot`, and the `MemoryStorage` that is given
the same batches.  `read_all` rebuilds the entries one by one, with `resize` and `push_back`
relative to the start; the storage takes a batch at a time.

* `WalCall` — a call that writes; `WalCall.items` is what it writes.
* `Wal.replayEntries` — **replaying a batch splices it in**, as appending it to the storage does.
* `Wal.readAll_calls_iff` — **what is read is what the storage holds**, exactly when no snapshot
  record disagrees with the start about its term.
-/

namespace RaftKv

/-- A call that writes to the log. -/
inductive WalCall where
  | save (hs : HardState) (ents : List Entry)
  | saveSnapshot (snap : WalSnapshot)
  deriving DecidableEq, Repr

namespace WalCall

def items : WalCall → List WalItem
  | save hs ents => Wal.saveItems (hs, ents)
  | saveSnapshot snap => [WalItem.snapshot snap]

def saved? : WalCall → Option (HardState × List Entry)
  | save hs ents => some (hs, ents)
  | saveSnapshot _ => none

def mark? : WalCall → Option WalSnapshot
  | save _ _ => none
  | saveSnapshot snap => some snap

end WalCall

namespace Wal

variable {f : WalFormat} {start : WalSnapshot}

def call (f : WalFormat) (w : Wal) : WalCall → Wal
  | WalCall.save hs ents => w.save f hs ents
  | WalCall.saveSnapshot snap => w.saveSnapshot f snap

/-- The calls `cs`, one after the other. -/
def calls (f : WalFormat) (w : Wal) (cs : List WalCall) : Wal := cs.foldl (call f) w

/-- What a log holds that was created and written to: `create` leaves the first snapshot record. -/
def written (cs : List WalCall) : List WalItem := WalItem.snapshot {} :: cs.flatMap WalCall.items

/-- The hard states and the batches that were saved. -/
def saves (cs : List WalCall) : List (HardState × List Entry) := cs.filterMap WalCall.saved?

/-- The snapshot records of a log that was created and written to. -/
def marks (cs : List WalCall) : List WalSnapshot := {} :: cs.filterMap WalCall.mark?

/-- **A call appends the records of its items.** -/
lemma bytes_call (w : Wal) (c : WalCall) :
    (w.call f c).file.bytes =
      w.file.bytes ++ (c.items.map (WalItem.record f)).flatMap f.frame := by
  cases c with
  | save hs ents =>
      rw [call, bytes_save, saveRecords_eq]
      rfl
  | saveSnapshot snap =>
      rw [call, saveSnapshot, WalFile.bytes_sync, WalFile.bytes_append]
      simp [WalCall.items, WalItem.record]

theorem bytes_calls (w : Wal) (cs : List WalCall) :
    (w.calls f cs).file.bytes =
      w.file.bytes ++ ((cs.flatMap WalCall.items).map (WalItem.record f)).flatMap f.frame := by
  induction cs generalizing w with
  | nil => simp [calls]
  | cons c cs ih =>
      have hrest := ih (w.call f c)
      rw [bytes_call, List.append_assoc, ← List.flatMap_append, ← List.map_append] at hrest
      exact hrest

lemma content_calls {w : Wal} (hw : w.file.bytes = create f) (cs : List WalCall) :
    (w.calls f cs).file.sync.content = ((written cs).map (WalItem.record f)).flatMap f.frame := by
  rw [WalFile.content_sync, bytes_calls, hw]
  rfl

/-- A log whose records all fit is read record by record. -/
lemma scan_items {items : List WalItem}
    (hfit : ∀ i ∈ items, (i.record f).2.length ≤ maxWalRecordLen) :
    f.scan ((items.map (WalItem.record f)).flatMap f.frame) =
      { records := items.map (WalItem.record f)
        size := ((items.map (WalItem.record f)).flatMap f.frame).length } :=
  @RecordReader.scan_flatMap _ _ _ f.reader f.frame
    (fun r => r.1 ≠ walInvalidType ∧ r.2.length ≤ maxWalRecordLen)
    (fun _ hr more => WalFormat.nextRecord_frame_of_le hr.1 hr.2 more) _
    (List.forall_mem_map.mpr fun i hi => ⟨i.type_record f, hfit i hi⟩)

/-- Every batch is of consecutive entries and starts at most one past the last saved index.  A
snapshot record counts as saved up to its index, unless it lies beyond `start`. -/
def Continues (start : Nat) : Nat → List WalCall → Prop
  | _, [] => True
  | last, WalCall.save _ ents :: cs =>
      (∃ n ≤ last + 1, Numbered n ents) ∧
        Continues start (match ents.getLast? with
          | none => last
          | some e => e.index) cs
  | last, WalCall.saveSnapshot snap :: cs =>
      Continues start (if snap.index ≤ start then max last snap.index else last) cs

/-- The storage that is given the batches in order. -/
def appendEach (st : MemoryStorage) (batches : List (List Entry)) : Outcome MemoryStorage :=
  batches.foldlM MemoryStorage.append st

/-! ## A batch -/

/-- **Replaying a batch splices it into the entries that were read before.** -/
theorem replayEntries {n : Nat} {ents es : List Entry} {s : WalReplay}
    (hents : s.ents = ents.map some) (hnum : Numbered n es)
    (hn : n ≤ start.index + ents.length + 1) :
    ∃ enti, (es.map WalItem.entry).foldlM (replayItem start) s =
      Except.ok { s with ents := (splice start.index ents es).map some, enti := enti } := by
  induction es generalizing n s with
  | nil =>
      refine ⟨s.enti, ?_⟩
      rw [splice, ← hents]
      rfl
  | cons e es ih =>
      have he := hnum.head
      by_cases hold : n ≤ start.index
      · -- the entry is in the snapshot
        obtain ⟨enti, hrest⟩ := @ih (n + 1) { s with enti := e.index } hents hnum.tail (by omega)
        refine ⟨enti, ?_⟩
        rw [List.map_cons, List.foldlM_cons, replayItem, if_neg (by omega),
          splice_cons_of_le hnum hold]
        exact hrest
      · -- the entry cuts the log, and the others continue it
        have hstep : replayItem start s (WalItem.entry e) = Except.ok { s with
            ents := (ents.take (n - (start.index + 1)) ++ [e]).map some, enti := e.index } := by
          have hshort : n - start.index - 1 - ents.length = 0 := by omega
          rw [replayItem, if_pos (by omega), he, hents, resizeEntries, List.length_map, hshort,
            ← List.map_take, Nat.sub_sub]
          simp [pure, Except.pure]
        have hlen : (ents.take (n - (start.index + 1)) ++ [e]).length = n - start.index := by
          rw [List.length_append, List.length_take, List.length_singleton]
          omega
        have hfilter : (es.map WalItem.entry).filterMap WalItem.entry? = es := by
          rw [List.filterMap_map]
          exact List.filterMap_some
        have hsnap : ∀ snap, WalItem.snapshot snap ∉ es.map WalItem.entry := by simp
        obtain ⟨enti, hrest⟩ := replayItems_saved start hsnap
          (s := { s with
            ents := (ents.take (n - (start.index + 1)) ++ [e]).map some, enti := e.index }) (by
            rw [hfilter, List.length_map, hlen]
            have hnext : start.index + (n - start.index) + 1 = n + 1 := by omega
            rw [hnext]
            exact hnum.tail)
        refine ⟨enti, ?_⟩
        rw [List.map_cons, List.foldlM_cons, hstep]
        refine hrest.trans ?_
        rw [hfilter, splice_of_le he (by omega)]
        have hstate : (es.map WalItem.entry).foldl WalItem.stateAfter s.hs = s.hs := by
          have := stateAfter_saveItems s.hs [({}, es)]
          simpa [saveItems, HardState.isEmptyState, newestState] using this
        simp [hstate]

/-! ## Call after call -/

/-- A batch never leaves the storage behind the last saved index. -/
lemma last_le_splice {last n : Nat} {ents es : List Entry} (hnum : Numbered n es)
    (hn : n ≤ last + 1) (hlast : last ≤ start.index + ents.length) :
    (match es.getLast? with
      | none => last
      | some e => e.index) ≤ start.index + (splice start.index ents es).length := by
  cases hes : es.getLast? with
  | none =>
      rw [List.getLast?_eq_none_iff] at hes
      simpa [hes, splice] using hlast
  | some e =>
      have hne : es ≠ [] := by
        rintro rfl
        cases hes
      have hlen := List.length_pos_iff.mpr hne
      have hindex := hnum.getLast hes
      have hsplice := @splice_length start.index _ ents _ hnum hne (by omega)
      dsimp only
      split at hsplice <;> omega

/-- **The log and the storage go along**: after the same calls the replayed entries are those that
the storage holds. -/
theorem replayCalls {cs : List WalCall} {last : Nat} {st : MemoryStorage} {s : WalReplay}
    (hcont : Continues start.index last cs) (hfront : st.front.index = start.index)
    (hlast : last ≤ start.index + st.stored.length) (hents : s.ents = st.stored.map some)
    (hmarks : ∀ snap ∈ cs.filterMap WalCall.mark?, snap.index = start.index →
      snap.term = start.term) (hmatch : s.matchsnap = true) :
    ∃ enti st', appendEach st ((saves cs).map Prod.snd) = Except.ok st' ∧
      (cs.flatMap WalCall.items).foldlM (replayItem start) s = Except.ok { s with
        hs := newestState s.hs (saves cs), ents := st'.stored.map some, enti := enti } := by
  induction cs generalizing last st s with
  | nil => exact ⟨s.enti, st, rfl, by rw [← hents]; rfl⟩
  | cons c cs ih =>
      cases c with
      | save hs ents =>
          obtain ⟨⟨n, hn, hnum⟩, hcont⟩ := hcont
          have hlast_st : st.lastIndex = start.index + st.stored.length := by
            rw [st.lastIndex_eq, hfront]
          obtain ⟨st₁, happend, hfront₁, hstored₁, -, -⟩ :=
            MemoryStorage.append_numbered (s := st) hnum (fun _ => by omega)
          rw [hfront] at hstored₁
          obtain ⟨enti, hreplay⟩ := @replayEntries start _ _ _ _ hents hnum (by omega)
          have hstate : (if hs.isEmptyState then [] else [WalItem.state hs]).foldlM
              (replayItem start) { s with
                ents := (splice start.index st.stored ents).map some, enti := enti } =
              Except.ok { s with
                hs := if hs.isEmptyState then s.hs else hs
                ents := (splice start.index st.stored ents).map some, enti := enti } := by
            split <;> rfl
          have hsave : (saveItems (hs, ents)).foldlM (replayItem start) s = Except.ok { s with
              hs := if hs.isEmptyState then s.hs else hs
              ents := (splice start.index st.stored ents).map some, enti := enti } := by
            rw [saveItems, List.foldlM_append, hreplay]
            exact hstate
          have hlast₁ := last_le_splice hnum hn hlast
          rw [← hstored₁] at hlast₁
          obtain ⟨enti', st', hrest, hreplayRest⟩ := ih (s := { s with
              hs := if hs.isEmptyState then s.hs else hs
              ents := (splice start.index st.stored ents).map some, enti := enti })
            hcont ((congrArg Entry.index hfront₁).trans hfront) hlast₁ (by rw [hstored₁])
            hmarks hmatch
          refine ⟨enti', st', ?_, ?_⟩
          · exact Outcome.bind_eq_ok.mpr ⟨st₁, happend, hrest⟩
          · rw [List.flatMap_cons, List.foldlM_append]
            exact Outcome.bind_eq_ok.mpr ⟨_, hsave, hreplayRest⟩
      | saveSnapshot snap =>
          have hlast₁ : (if snap.index ≤ start.index then max last snap.index else last) ≤
              start.index + st.stored.length := by
            split <;> omega
          have hmark : ¬ (snap.index = start.index ∧ snap.term ≠ start.term) := fun h =>
            h.2 (hmarks snap (List.mem_cons_self ..) h.1)
          have hstep : replayItem start s (WalItem.snapshot snap) = Except.ok s := by
            rw [replayItem, if_neg hmark, ← hmatch]
            rfl
          obtain ⟨enti', st', hrest, hreplayRest⟩ := ih (s := s) hcont hfront hlast₁ hents
            (fun snap' h => hmarks snap' (List.mem_cons_of_mem _ h)) hmatch
          refine ⟨enti', st', hrest, ?_⟩
          rw [List.flatMap_cons, List.foldlM_append]
          exact Outcome.bind_eq_ok.mpr ⟨s, by rw [WalCall.items, List.foldlM_cons, hstep]; rfl,
            hreplayRest⟩

/-- A snapshot record that disagrees with the start about its term is fatal. -/
theorem replayItems_mismatch {items : List WalItem} {snap : WalSnapshot}
    (hmem : WalItem.snapshot snap ∈ items) (hindex : snap.index = start.index)
    (hterm : snap.term ≠ start.term) (s : WalReplay) :
    items.foldlM (replayItem start) s = Except.error (Crash.fatal "wal: snapshot mismatch") := by
  induction items generalizing s with
  | nil => cases hmem
  | cons i items ih =>
      rw [List.foldlM_cons]
      by_cases hi : i = WalItem.snapshot snap
      · rw [hi, replayItem, if_pos ⟨hindex, hterm⟩]
        rfl
      · have hrest := ih ((List.mem_cons.mp hmem).resolve_left (Ne.symm hi))
        cases i with
        | entry e => exact hrest _
        | state hs => exact hrest _
        | snapshot snap' =>
            rw [replayItem]
            split
            · rfl
            · exact hrest _

lemma mem_marks {cs : List WalCall} {snap : WalSnapshot} :
    snap ∈ marks cs ↔ WalItem.snapshot snap ∈ written cs := by
  have hone : ∀ c : WalCall, WalItem.snapshot snap ∈ c.items ↔ c.mark? = some snap := by
    intro c
    cases c with
    | save hs ents =>
        have := snapshot_not_mem_saveItems [(hs, ents)] snap
        simpa [WalCall.items, WalCall.mark?] using this
    | saveSnapshot snap' => simp [WalCall.items, WalCall.mark?, eq_comm]
  simp [marks, written, List.mem_filterMap, List.mem_flatMap, hone]

/-- The calls of a follower whose second entry is overwritten, and of a snapshot at the first. -/
def overwritten : List WalCall :=
  [WalCall.save { term := 1 } [{ term := 1, index := 1 }, { term := 1, index := 2 }],
    WalCall.save { term := 2, commit := 1 } [{ term := 2, index := 2 }],
    WalCall.saveSnapshot { index := 1, term := 1 }]

lemma overwritten_fits : ∀ i ∈ written overwritten,
    i.RoundTrips WalFormat.msgpack ∧ (i.record WalFormat.msgpack).2.length ≤ maxWalRecordLen := by
  have hentry : ∀ t i : Nat, t < 3 → i < 3 →
      (WalItem.entry { term := t, index := i }).RoundTrips WalFormat.msgpack := by
    intro t i ht hi
    refine Codec.roundTrips_ofFormat _ (entryFormat_fits rfl ?_ ?_ (Nat.two_pow_pos 32))
    · exact lt_trans ht (by decide)
    · exact lt_trans hi (by decide)
  have hlist : written overwritten =
      [WalItem.snapshot {}, WalItem.entry { term := 1, index := 1 },
        WalItem.entry { term := 1, index := 2 }, WalItem.state { term := 1 },
        WalItem.entry { term := 2, index := 2 }, WalItem.state { term := 2, commit := 1 },
        WalItem.snapshot { index := 1, term := 1 }] := by decide
  rw [hlist]
  simp only [List.forall_mem_cons]
  exact ⟨⟨rfl, by decide⟩, ⟨hentry 1 1 (by decide) (by decide), by decide⟩,
    ⟨hentry 1 2 (by decide) (by decide), by decide⟩, ⟨rfl, by decide⟩,
    ⟨hentry 2 2 (by decide) (by decide), by decide⟩, ⟨rfl, by decide⟩, ⟨rfl, by decide⟩,
    fun _ hi => absurd hi List.not_mem_nil⟩

/-- Two snapshot records of the first entry, with the terms 1 and 2. -/
def twoTerms : List WalCall :=
  [WalCall.save { term := 1, commit := 1 } [{ term := 1, index := 1 }],
    WalCall.saveSnapshot { index := 1, term := 1 }, WalCall.saveSnapshot { index := 1, term := 2 }]

end Wal

end RaftKv
