import RaftKv.Raft.StoredLog
import RaftKv.Wal.Framing

/-!
# What a log says

A log seen as the things that were written to it, not as bytes.

* `WalItem` — an entry, a hard state or the mark of a snapshot; `WalItem.record` is its record.
* `Wal.handleRecords_items` — **replaying the records is replaying the items**, if the packed forms
  are faithful.
* `Wal.replayItems_saved` — items that continue a log extend what it says.
-/

namespace RaftKv

inductive WalItem where
  | entry (e : Entry)
  | state (hs : HardState)
  | snapshot (s : WalSnapshot)
  deriving DecidableEq, Repr

namespace WalItem

def record (f : WalFormat) : WalItem → WalRecord
  | entry e => (walEntryType, f.entry.pack e)
  | state hs => (walStateType, f.state.pack hs)
  | snapshot s => (walSnapshotType, f.snapshot.pack s)

/-- The packed form of the item comes back. -/
def RoundTrips (f : WalFormat) : WalItem → Prop
  | entry e => f.entry.RoundTrips e
  | state hs => f.state.RoundTrips hs
  | snapshot s => f.snapshot.RoundTrips s

def entry? : WalItem → Option Entry
  | entry e => some e
  | _ => none

/-- The hard state behind the item. -/
def stateAfter (hs : HardState) : WalItem → HardState
  | state hs => hs
  | _ => hs

lemma type_record (f : WalFormat) (i : WalItem) : (i.record f).1 ≠ walInvalidType := by
  cases i with
  | entry e => exact (by decide : walEntryType ≠ walInvalidType)
  | state hs => exact (by decide : walStateType ≠ walInvalidType)
  | snapshot s => exact (by decide : walSnapshotType ≠ walInvalidType)

end WalItem

namespace Wal

/-- What an item does to the state of the reading loop. -/
def replayItem (start : WalSnapshot) (s : WalReplay) : WalItem → Outcome WalReplay
  | WalItem.entry e =>
      pure { s with
        ents :=
          if e.index > start.index then
            resizeEntries (e.index - start.index - 1) s.ents ++ [some e]
          else s.ents
        enti := e.index }
  | WalItem.state hs => pure { s with hs := hs }
  | WalItem.snapshot snap =>
      if snap.index = start.index ∧ snap.term ≠ start.term then
        throw (Crash.fatal "wal: snapshot mismatch")
      else pure { s with matchsnap := true }

variable {f : WalFormat} {start : WalSnapshot}

lemma handleRecord_item {i : WalItem} (h : i.RoundTrips f) (s : WalReplay) :
    s.handleRecord f start (i.record f) = replayItem start s i := by
  cases i with
  | entry e =>
      simp only [WalReplay.handleRecord, WalItem.record, if_true,
        Codec.unpackOrThrow_pack (show f.entry.RoundTrips e from h)]
      rfl
  | state hs =>
      have hne : walStateType ≠ walEntryType := by decide
      simp only [WalReplay.handleRecord, WalItem.record, if_neg hne, if_true,
        Codec.unpackOrThrow_pack (show f.state.RoundTrips hs from h)]
      rfl
  | snapshot snap =>
      have hne : walSnapshotType ≠ walEntryType := by decide
      have hne' : walSnapshotType ≠ walStateType := by decide
      simp only [WalReplay.handleRecord, WalItem.record, if_neg hne, if_neg hne', if_true,
        Codec.unpackOrThrow_pack (show f.snapshot.RoundTrips snap from h), replayItem]
      rfl

/-- An entry that cannot be unpacked ends the process. -/
lemma handleRecord_of_error {data : Bytes} {crash : Crash}
    (h : f.entry.unpackOrThrow data = Except.error crash) (s : WalReplay) :
    s.handleRecord f start (walEntryType, data) = Except.error crash := by
  simp only [WalReplay.handleRecord, if_true, h]
  rfl

/-- **Replaying the records is replaying the items.** -/
theorem handleRecords_items {items : List WalItem} (h : ∀ i ∈ items, i.RoundTrips f)
    (s : WalReplay) :
    (items.map (WalItem.record f)).foldlM (WalReplay.handleRecord f start) s =
      items.foldlM (replayItem start) s := by
  induction items generalizing s with
  | nil => rfl
  | cons i items ih =>
      obtain ⟨hi, h⟩ := List.forall_mem_cons.mp h
      rw [List.map_cons, List.foldlM_cons, List.foldlM_cons, handleRecord_item hi]
      exact bind_congr fun s => ih h s

/-! ## Saved items -/

/-- The items that one call of `save` appends. -/
def saveItems (s : HardState × List Entry) : List WalItem :=
  s.2.map WalItem.entry ++ if s.1.isEmptyState then [] else [WalItem.state s.1]

lemma saveRecords_eq (f : WalFormat) (s : HardState × List Entry) :
    saveRecords f s = (saveItems s).map (WalItem.record f) := by
  rw [saveRecords, saveItems, List.map_append, List.map_map]
  split <;> rfl

lemma saveRecords_flatMap (f : WalFormat) (saves : List (HardState × List Entry)) :
    saves.flatMap (saveRecords f) = (saves.flatMap saveItems).map (WalItem.record f) := by
  rw [List.map_flatMap]
  exact congrArg (saves.flatMap ·) (funext fun s => saveRecords_eq f s)

/-- The entries that are saved. -/
def newEntries (saves : List (HardState × List Entry)) : List Entry := saves.flatMap Prod.snd

/-- The last hard state that is saved; an empty one says that nothing has changed. -/
def newestState (hs : HardState) (saves : List (HardState × List Entry)) : HardState :=
  saves.foldl (fun hs s => if s.1.isEmptyState then hs else s.1) hs

lemma filterMap_saveItems (saves : List (HardState × List Entry)) :
    (saves.flatMap saveItems).filterMap WalItem.entry? = newEntries saves := by
  have hone : ∀ s : HardState × List Entry, (saveItems s).filterMap WalItem.entry? = s.2 := by
    intro s
    have hents : (s.2.map WalItem.entry).filterMap WalItem.entry? = s.2 := by
      rw [List.filterMap_map]
      exact List.filterMap_some
    rw [saveItems, List.filterMap_append, hents]
    split
    · exact List.append_nil _
    · exact List.append_nil _
  induction saves with
  | nil => rfl
  | cons s saves ih =>
      rw [List.flatMap_cons, List.filterMap_append, hone, ih]
      rfl

lemma stateAfter_saveItems (hs : HardState) (saves : List (HardState × List Entry)) :
    (saves.flatMap saveItems).foldl WalItem.stateAfter hs = newestState hs saves := by
  have hents : ∀ (es : List Entry) (hs : HardState),
      (es.map WalItem.entry).foldl WalItem.stateAfter hs = hs := by
    intro es
    induction es with
    | nil => exact fun _ => rfl
    | cons e es ih => exact fun hs => ih hs
  have hone : ∀ (s : HardState × List Entry) (hs : HardState),
      (saveItems s).foldl WalItem.stateAfter hs = if s.1.isEmptyState then hs else s.1 := by
    intro s hs
    rw [saveItems, List.foldl_append, hents]
    split <;> rfl
  induction saves generalizing hs with
  | nil => rfl
  | cons s saves ih =>
      rw [List.flatMap_cons, List.foldl_append, hone, ih]
      rfl

lemma resizeEntries_length (ents : List (Option Entry)) :
    resizeEntries ents.length ents = ents := by
  rw [resizeEntries, List.take_length, Nat.sub_self, List.replicate_zero, List.append_nil]

lemma length_resizeEntries (n : Nat) (ents : List (Option Entry)) :
    (resizeEntries n ents).length = n := by
  rw [resizeEntries, List.length_append, List.length_take, List.length_replicate]
  omega

/-- **Items that continue a log extend what it says** by their entries and their last hard state. -/
theorem replayItems_saved (start : WalSnapshot) {items : List WalItem}
    (hsnap : ∀ s, WalItem.snapshot s ∉ items) {s : WalReplay}
    (hnum : Numbered (start.index + s.ents.length + 1) (items.filterMap WalItem.entry?)) :
    ∃ enti, items.foldlM (replayItem start) s = Except.ok
      { s with
        hs := items.foldl WalItem.stateAfter s.hs
        ents := s.ents ++ (items.filterMap WalItem.entry?).map some
        enti := enti } := by
  induction items generalizing s with
  | nil => exact ⟨s.enti, by simp [pure, Except.pure]⟩
  | cons i items ih =>
      have hsnap' : ∀ s, WalItem.snapshot s ∉ items := fun s hs =>
        hsnap s (List.mem_cons_of_mem _ hs)
      cases i with
      | entry e =>
          have hindex : e.index = start.index + s.ents.length + 1 := hnum.head
          have hresize : e.index - start.index - 1 = s.ents.length := by omega
          have hstep : replayItem start s (WalItem.entry e) =
              Except.ok { s with ents := s.ents ++ [some e], enti := e.index } := by
            rw [replayItem, if_pos (by omega), hresize, resizeEntries_length]
            rfl
          have hrest : Numbered (start.index + (s.ents ++ [some e]).length + 1)
              (items.filterMap WalItem.entry?) := by
            rw [List.length_append]
            exact hnum.tail
          obtain ⟨enti, hih⟩ := @ih hsnap' { s with ents := s.ents ++ [some e], enti := e.index }
            hrest
          refine ⟨enti, ?_⟩
          rw [List.foldlM_cons, hstep]
          refine hih.trans ?_
          simp [WalItem.stateAfter, WalItem.entry?]
      | state hs =>
          obtain ⟨enti, hih⟩ := @ih hsnap' { s with hs := hs } hnum
          exact ⟨enti, hih⟩
      | snapshot snap => exact absurd (List.mem_cons_self ..) (hsnap snap)

lemma mem_saveItems {saves : List (HardState × List Entry)} {i : WalItem}
    (h : i ∈ saves.flatMap saveItems) :
    (∃ e ∈ newEntries saves, i = WalItem.entry e) ∨ ∃ s ∈ saves, i = WalItem.state s.1 := by
  obtain ⟨s, hs, h⟩ := List.mem_flatMap.mp h
  rw [saveItems, List.mem_append] at h
  rcases h with h | h
  · obtain ⟨e, he, rfl⟩ := List.mem_map.mp h
    exact Or.inl ⟨e, List.mem_flatMap.mpr ⟨s, hs, he⟩, rfl⟩
  · split at h
    · cases h
    · exact Or.inr ⟨s, hs, List.mem_singleton.mp h⟩

lemma snapshot_not_mem_saveItems (saves : List (HardState × List Entry)) (snap : WalSnapshot) :
    WalItem.snapshot snap ∉ saves.flatMap saveItems := by
  intro h
  rcases mem_saveItems h with ⟨e, -, he⟩ | ⟨s, -, hs⟩
  · cases he
  · cases hs

end Wal

end RaftKv
