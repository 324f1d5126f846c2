import RaftKv.Wal.Open
import RaftKv.Wal.Torn

/-!
# Reading behind another snapshot

A process reads its log behind the newest snapshot it has, which is not the one that it read behind
the last time.

* `Wal.Lists` — the items that a file is made of; `Lists.append` adds what is written.
* `Wal.replay_extends` — **items that are read later** take the place of what they overwrite, and
  leave the entries before them alone.
* `Wal.Shadows.replay` — **behind a later snapshot the same entries are read**, unless a mark of the
  log disagrees with it.
* `Wal.Backs` — the log of a running process: what it says, and what its buffer holds.
-/

namespace RaftKv

/-- Term and vote of a hard state. -/
def HardState.ballot (hs : HardState) : Nat × Nat := (hs.term, hs.vote)

lemma HardState.ballot_of_isEmptyState {hs : HardState} (h : hs.isEmptyState = true) :
    hs.ballot = (0, 0) := by
  simp only [HardState.isEmptyState, Bool.and_eq_true, beq_iff_eq] at h
  rw [HardState.ballot, h.1.1, h.1.2]

/-- A reading from `start` goes on behind the mark. -/
def WalSnapshot.Agrees (start mark : WalSnapshot) : Prop :=
  mark.index = start.index → mark.term = start.term

instance (start mark : WalSnapshot) : Decidable (start.Agrees mark) :=
  inferInstanceAs (Decidable (_ → _))

/-- The item is written in a form that is read back. -/
def WalItem.Fits (f : WalFormat) (i : WalItem) : Prop :=
  i.RoundTrips f ∧ (i.record f).2.length ≤ maxWalRecordLen

instance (f : WalFormat) : (i : WalItem) → Decidable (i.RoundTrips f)
  | WalItem.entry e => inferInstanceAs (Decidable (f.entry.unpack (f.entry.pack e) = Except.ok e))
  | WalItem.state hs => inferInstanceAs (Decidable (f.state.unpack (f.state.pack hs) = Except.ok hs))
  | WalItem.snapshot mark =>
      inferInstanceAs (Decidable (f.snapshot.unpack (f.snapshot.pack mark) = Except.ok mark))

instance (f : WalFormat) (i : WalItem) : Decidable (i.Fits f) :=
  inferInstanceAs (Decidable (_ ∧ _))

/-- The entry `e` is read at the index `i`, behind a snapshot at `start`. -/
def WalReplay.HoldsAt (start : Nat) (t : WalReplay) (i : Nat) (e : Entry) : Prop :=
  start < i ∧ t.ents[i - (start + 1)]? = some (some e)

namespace Wal

variable {f : WalFormat} {start : WalSnapshot} {content : Bytes} {items more : List WalItem}
  {t : WalReplay}

/-! ## The items of a file -/

lemma itemOf_record {i : WalItem} (h : i.RoundTrips f) : itemOf f (i.record f) = some i := by
  have hstate : walStateType ≠ walEntryType := by decide
  have hsnapshot : walSnapshotType ≠ walEntryType := by decide
  have hsnapshot' : walSnapshotType ≠ walStateType := by decide
  cases i with
  | entry e =>
      have hunpack : f.entry.unpack (f.entry.pack e) = Except.ok e := h
      rw [itemOf, WalItem.record, if_pos rfl, hunpack]
      rfl
  | state hs =>
      have hunpack : f.state.unpack (f.state.pack hs) = Except.ok hs := h
      rw [itemOf, WalItem.record, if_neg hstate, if_pos rfl, hunpack]
      rfl
  | snapshot mark =>
      have hunpack : f.snapshot.unpack (f.snapshot.pack mark) = Except.ok mark := h
      rw [itemOf, WalItem.record, if_neg hsnapshot, if_neg hsnapshot', if_pos rfl, hunpack]
      rfl

lemma itemBytes_append (f : WalFormat) (a b : List WalItem) :
    itemBytes f (a ++ b) = itemBytes f a ++ itemBytes f b := by
  rw [itemBytes, List.map_append, List.flatMap_append]
  rfl

/-- The file is whole records, and these are the items. -/
structure Lists (f : WalFormat) (content : Bytes) (items : List WalItem) : Prop where
  clean : (f.scan content).stop = none
  records : (f.scan content).records.map (itemOf f) = items.map some

/-- **What is written is said.** -/
theorem Lists.append (h : Lists f content items) (hmore : ∀ i ∈ more, i.Fits f) :
    Lists f (content ++ itemBytes f more) (items ++ more) := by
  obtain ⟨hrecords, hstop⟩ := @scan_frames _ _ h.clean (more.map (WalItem.record f))
    (List.forall_mem_map.mpr fun i _ => i.type_record f)
    (List.forall_mem_map.mpr fun i hi => (hmore i hi).2)
  refine ⟨hstop, ?_⟩
  rw [itemBytes, hrecords, List.map_append, List.map_append, h.records, List.map_map]
  exact congrArg (_ ++ ·) (List.map_congr_left fun i hi => itemOf_record (hmore i hi).1)

lemma Lists.marksOf (h : Lists f content items) :
    Wal.marksOf f content = items.filterMap mark? := by
  have hmarks : Wal.marksOf f content =
      ((f.scan content).records.map (itemOf f)).filterMap fun i => i.bind mark? := by
    rw [List.filterMap_map]
    rfl
  rw [hmarks, h.records, List.filterMap_map]
  rfl

/-- **The records are handled as the items.** -/
lemma Lists.replay (h : Lists f content items) (start : WalSnapshot) (s : WalReplay) :
    (f.scan content).records.foldlM (WalReplay.handleRecord f start) s =
      items.foldlM (replayItem start) s := by
  obtain ⟨-, hrecords⟩ := h
  generalize (f.scan content).records = rs at hrecords
  induction rs generalizing items s with
  | nil =>
      obtain rfl := List.map_eq_nil_iff.mp hrecords.symm
      rfl
  | cons r rs ih =>
      cases items with
      | nil => cases hrecords
      | cons i items =>
          rw [List.map_cons, List.map_cons] at hrecords
          obtain ⟨hitem, hrecords⟩ := List.cons.inj hrecords
          rcases handleRecord_itemOf f start s r with ⟨i', hi', hhandle⟩ | ⟨hnone, -⟩
          · obtain rfl : i = i' := Option.some.inj (hitem.symm.trans hi')
            rw [List.foldlM_cons, List.foldlM_cons, hhandle]
            exact bind_congr fun s => ih s hrecords
          · rw [hitem] at hnone
            cases hnone

/-- A file that was read to its end is made of items. -/
lemma lists_of_replay (hclean : (f.scan content).stop = none) {s : WalReplay}
    (h : (f.scan content).records.foldlM (WalReplay.handleRecord f start) s = Except.ok t) :
    ∃ items, Lists f content items ∧ items.foldlM (replayItem start) s = Except.ok t := by
  obtain ⟨hreadable, -⟩ := foldRecords_eq_ok h
  have hitems : ∃ items : List WalItem,
      (f.scan content).records.map (itemOf f) = items.map some := by
    clear h
    generalize (f.scan content).records = rs at hreadable ⊢
    induction rs with
    | nil => exact ⟨[], rfl⟩
    | cons r rs ih =>
        obtain ⟨⟨i, hi, -⟩, hreadable⟩ := List.forall_mem_cons.mp hreadable
        obtain ⟨items, hitems⟩ := ih hreadable
        exact ⟨i :: items, by rw [List.map_cons, List.map_cons, hi, hitems]⟩
  obtain ⟨items, hitems⟩ := hitems
  have hlists : Lists f content items := ⟨hclean, hitems⟩
  exact ⟨items, hlists, (hlists.replay start s).symm.trans h⟩

end Wal

/-! ## Entries -/

namespace WalReplay

/-- What an entry of the log does to what is read behind a snapshot at `start`. -/
def read (start : Nat) (t : WalReplay) (e : Entry) : WalReplay :=
  { t with
    ents :=
      if e.index > start then resizeEntries (e.index - start - 1) t.ents ++ [some e]
      else t.ents
    enti := e.index }

variable {start i : Nat} {t : WalReplay} {e x : Entry}

/-- **An entry takes its place, and ends what is read.** -/
lemma holdsAt_read_of_lt (h : start < e.index) : (t.read start e).HoldsAt start i x ↔
    (i < e.index ∧ t.HoldsAt start i x) ∨ (i = e.index ∧ x = e) := by
  have hlen := Wal.length_resizeEntries (e.index - start - 1) t.ents
  rw [HoldsAt, HoldsAt, read, if_pos h]
  constructor
  · rintro ⟨hstart, hi⟩
    rw [List.getElem?_append] at hi
    split at hi
    · rename_i hlt
      rw [hlen] at hlt
      rw [resizeEntries, List.getElem?_append] at hi
      split at hi
      · rw [List.getElem?_take_of_lt hlt] at hi
        exact Or.inl ⟨by omega, hstart, hi⟩
      · have hmem := List.mem_of_getElem? hi
        rw [List.mem_replicate] at hmem
        cases hmem.2
    · rename_i hge
      have hlast := (List.getElem?_eq_some_iff.mp hi).1
      rw [hlen] at hge hi hlast
      rw [List.length_singleton] at hlast
      have hzero : i - (start + 1) - (e.index - start - 1) = 0 := by omega
      rw [hzero] at hi
      cases hi
      exact Or.inr ⟨by omega, rfl⟩
  · rintro (⟨hlt, hstart, hi⟩ | ⟨rfl, hx⟩)
    · have hheld := (List.getElem?_eq_some_iff.mp hi).1
      have hpos : i - (start + 1) < e.index - start - 1 := by omega
      refine ⟨hstart, ?_⟩
      rw [List.getElem?_append_left (by omega), resizeEntries, List.getElem?_append_left, ← hi,
        List.getElem?_take_of_lt hpos]
      rw [List.length_take]
      omega
    · rw [hx]
      refine ⟨h, ?_⟩
      have hzero : e.index - (start + 1) - (e.index - start - 1) = 0 := by omega
      rw [List.getElem?_append_right (by omega), hlen, hzero]
      rfl

lemma read_of_le (h : e.index ≤ start) : t.read start e = { t with enti := e.index } := by
  rw [read, if_neg (Nat.not_lt.mpr h)]

end WalReplay

namespace Wal

variable {f : WalFormat} {start a b : WalSnapshot} {content : Bytes} {items : List WalItem}
  {i : WalItem} {s t t' : WalReplay}

/-- What an item does that is accepted. -/
lemma replayItem_cases (h : replayItem start s i = Except.ok t) :
    (∃ e, i = WalItem.entry e ∧ t = s.read start.index e) ∨
    (∃ hs, i = WalItem.state hs ∧ t = { s with hs := hs }) ∨
    (∃ mark, i = WalItem.snapshot mark ∧ start.Agrees mark ∧ t = { s with matchsnap := true }) := by
  cases i with
  | entry e =>
      cases h
      exact Or.inl ⟨e, rfl, rfl⟩
  | state hs =>
      cases h
      exact Or.inr (Or.inl ⟨hs, rfl, rfl⟩)
  | snapshot mark =>
      rw [replayItem] at h
      split at h
      · cases h
      · rename_i hagrees
        cases h
        exact Or.inr (Or.inr ⟨mark, rfl, fun hindex => not_not.mp fun hterm =>
          hagrees ⟨hindex, hterm⟩, rfl⟩)

lemma replayItem_snapshot {mark : WalSnapshot} (h : start.Agrees mark) (s : WalReplay) :
    replayItem start s (WalItem.snapshot mark) = Except.ok { s with matchsnap := true } := by
  rw [replayItem, if_neg fun hne => hne.2 (h hne.1)]
  rfl

/-! ## Items that are read later -/

/-- What the items add, whose entries are numbered from `n` on. -/
structure Extends (start : WalSnapshot) (n : Nat) (items : List WalItem) (t t' : WalReplay) :
    Prop where
  hs : t'.hs = items.foldl WalItem.stateAfter t.hs
  matchsnap : t.matchsnap = true → t'.matchsnap = true
  new : ∀ e ∈ items.filterMap WalItem.entry?, start.index < e.index →
    t'.HoldsAt start.index e.index e
  kept : ∀ i e, items.filterMap WalItem.entry? = [] ∨ i < n → t.HoldsAt start.index i e →
    t'.HoldsAt start.index i e

/-- **Items that are read later take the place of what they overwrite**, and leave the entries before
them alone. -/
theorem replay_extends {n : Nat} (hnum : Numbered n (items.filterMap WalItem.entry?))
    (hmarks : ∀ mark ∈ items.filterMap mark?, start.Agrees mark) (t : WalReplay) :
    ∃ t', items.foldlM (replayItem start) t = Except.ok t' ∧ Extends start n items t t' := by
  induction items generalizing n t with
  | nil => exact ⟨t, rfl, rfl, id, fun e he => absurd he List.not_mem_nil, fun _ _ _ h => h⟩
  | cons i items ih =>
      cases i with
      | entry e =>
          have he : e.index = n := hnum.head
          obtain ⟨t', hfold, hext⟩ := ih hnum.tail hmarks (t.read start.index e)
          refine ⟨t', hfold, hext.hs, hext.matchsnap, ?_, ?_⟩
          · refine List.forall_mem_cons.mpr ⟨fun hlt => ?_, hext.new⟩
            refine hext.kept _ _ (Or.inr (by omega)) ?_
            exact (WalReplay.holdsAt_read_of_lt hlt).mpr (Or.inr ⟨rfl, rfl⟩)
          · intro i x hi hx
            have hi : i < n := hi.resolve_left (List.cons_ne_nil _ _)
            refine hext.kept i x (Or.inr (by omega)) ?_
            rcases Nat.lt_or_ge start.index e.index with hlt | hge
            · exact (WalReplay.holdsAt_read_of_lt hlt).mpr (Or.inl ⟨by omega, hx⟩)
            · rw [WalReplay.read_of_le hge]
              exact hx
      | state hs =>
          obtain ⟨t', hfold, hext⟩ := ih hnum hmarks { t with hs := hs }
          exact ⟨t', hfold, hext.hs, hext.matchsnap, hext.new, hext.kept⟩
      | snapshot mark =>
          obtain ⟨hmark, hmarks⟩ := List.forall_mem_cons.mp hmarks
          obtain ⟨t', hfold, hext⟩ := ih hnum hmarks { t with matchsnap := true }
          refine ⟨t', ?_, hext.hs, fun _ => hext.matchsnap rfl, hext.new, hext.kept⟩
          rw [List.foldlM_cons, replayItem_snapshot hmark]
          exact hfold

/-! ## A later snapshot -/

/-- What is read behind the later snapshot `b` has the entries that are read behind `a`. -/
structure Shadows (a b : WalSnapshot) (t t' : WalReplay) : Prop where
  hs : t'.hs = t.hs
  matchsnap : t'.matchsnap = t.matchsnap
  holds : ∀ i e, b.index < i → t.HoldsAt a.index i e → t'.HoldsAt b.index i e

lemma Shadows.read {e : Entry} (h : Shadows a b s t) (hab : a.index ≤ b.index) :
    Shadows a b (s.read a.index e) (t.read b.index e) := by
  refine ⟨h.hs, h.matchsnap, fun i x hi hx => ?_⟩
  rcases Nat.lt_or_ge a.index e.index with hlt | hge
  · rcases (WalReplay.holdsAt_read_of_lt hlt).mp hx with ⟨hbefore, hx⟩ | ⟨rfl, rfl⟩
    · exact (WalReplay.holdsAt_read_of_lt (by omega)).mpr (Or.inl ⟨hbefore, h.holds i x hi hx⟩)
    · exact (WalReplay.holdsAt_read_of_lt hi).mpr (Or.inr ⟨rfl, rfl⟩)
  · rw [WalReplay.read_of_le hge] at hx
    rw [WalReplay.read_of_le (hge.trans hab)]
    exact h.holds i x hi hx

/-- **Behind a later snapshot the same entries are read**, if no mark disagrees with it. -/
theorem Shadows.replay (hab : a.index ≤ b.index)
    (hmarks : ∀ mark ∈ items.filterMap mark?, b.Agrees mark) (h : Shadows a b s t)
    {s' : WalReplay} (hfold : items.foldlM (replayItem a) s = Except.ok s') :
    ∃ t', items.foldlM (replayItem b) t = Except.ok t' ∧ Shadows a b s' t' := by
  induction items generalizing s t with
  | nil =>
      cases hfold
      exact ⟨t, rfl, h⟩
  | cons i items ih =>
      rw [List.foldlM_cons] at hfold
      obtain ⟨s₁, hs₁, hfold⟩ := Outcome.bind_eq_ok.mp hfold
      rcases replayItem_cases hs₁ with ⟨e, rfl, rfl⟩ | ⟨hs, rfl, rfl⟩ | ⟨mark, rfl, -, rfl⟩
      · obtain ⟨t', ht', hshadows⟩ := ih hmarks (h.read hab) hfold
        exact ⟨t', ht', hshadows⟩
      · have hnext : Shadows a b { s with hs := hs } { t with hs := hs } :=
          ⟨rfl, h.matchsnap, h.holds⟩
        obtain ⟨t', ht', hshadows⟩ := ih hmarks hnext hfold
        exact ⟨t', ht', hshadows⟩
      · obtain ⟨hmark, hmarks⟩ := List.forall_mem_cons.mp hmarks
        have hnext : Shadows a b { s with matchsnap := true } { t with matchsnap := true } :=
          ⟨h.hs, rfl, h.holds⟩
        obtain ⟨t', ht', hshadows⟩ := ih hmarks hnext hfold
        refine ⟨t', ?_, hshadows⟩
        rw [List.foldlM_cons, replayItem_snapshot hmark]
        exact ht'

/-! ## The log of a running process -/

/-- The hard state that was written last, if `hs` was when the log was opened. -/
def latest (w : Wal) (hs : HardState) : HardState := if w.state.isEmptyState then hs else w.state

/-- **What the file of a log holds** for someone who starts at a snapshot: the reading loop ends in
`t`.  The hard states in the buffer differ from the one that is read in their commit index only. -/
structure Backs (f : WalFormat) (start : WalSnapshot) (w : Wal) (t : WalReplay) : Prop where
  lists : ∃ items, Lists f w.file.content items ∧ items.foldlM (replayItem start) {} = Except.ok t
  matchsnap : t.matchsnap = true
  buffer : ∃ states : List HardState,
    w.file.dataBuffer = itemBytes f (states.map WalItem.state) ∧
      (∀ hs ∈ states, (WalItem.state hs).Fits f ∧ hs.ballot = t.hs.ballot) ∧
      states.getLast?.getD t.hs = w.latest t.hs

variable {w w' : Wal} {hs : HardState} {ents : List (Option Entry)}

/-- What the file says is read. -/
theorem Backs.readAll (h : Backs f start w t) (size : Nat) :
    ∃ w', (openAt w.file.content size start).readAll f {} [] = Except.ok (w', t.hs, t.ents) := by
  obtain ⟨items, hlists, hfold⟩ := h.lists
  exact ⟨_, readAll_eq_ok.mpr ⟨t, (hlists.replay start _).trans hfold, h.matchsnap, rfl, rfl, rfl⟩⟩

/-- What was read is what the file says, unless the loop stopped at `walInvalidType`. -/
theorem backs_of_readAll {size : Nat}
    (h : (openAt content size start).readAll f {} [] = Except.ok (w, hs, ents))
    (hstop : (f.scan content).stop ≠ some StopReason.invalidType) :
    ∃ t, Backs f start w t ∧ t.hs = hs ∧ t.ents = ents := by
  obtain ⟨t, hfold, hmatch, rfl, rfl, rfl⟩ := readAll_eq_ok.mp h
  obtain ⟨hrecords, hclean⟩ := @scan_readFile f { content := content, fileSize := size } hstop
  have hbuffer := bytes_readFile (f := f) { content := content, fileSize := size } rfl
  have hfold := hrecords.symm ▸ hfold
  obtain ⟨items, hlists, hitems⟩ := lists_of_replay hclean hfold
  refine ⟨t, ⟨⟨items, hlists, hitems⟩, hmatch, ⟨[], ?_, fun _ hmem => absurd hmem List.not_mem_nil,
    rfl⟩⟩, rfl, rfl⟩
  exact List.append_right_eq_self.mp hbuffer

/-- A file that is opened again holds what is not lost. -/
lemma Backs.reopen (h : Backs f start w t) (size : Nat) :
    Backs f start (openAt w.file.content size start) t :=
  ⟨h.lists, h.matchsnap, [], rfl, fun _ hmem => absurd hmem List.not_mem_nil, rfl⟩

/-- **Behind a later snapshot** the log says the same of the entries behind it. -/
theorem Backs.shift (h : Backs f a w t) (hab : a.index ≤ b.index)
    (hmarks : ∀ mark ∈ marksOf f w.file.content, b.Agrees mark) :
    ∃ t', Backs f b w t' ∧ Shadows a b t t' := by
  obtain ⟨items, hlists, hfold⟩ := h.lists
  rw [hlists.marksOf] at hmarks
  have hstart : Shadows a b {} {} := by
    refine ⟨rfl, rfl, fun i e _ he => ?_⟩
    obtain ⟨-, he⟩ := he
    cases he
  obtain ⟨t', hfold', hshadows⟩ := Shadows.replay hab hmarks hstart hfold
  refine ⟨t', ⟨⟨items, hlists, hfold'⟩, hshadows.matchsnap.trans h.matchsnap, ?_⟩, hshadows⟩
  rw [hshadows.hs]
  exact h.buffer

/-! ## Writing -/

lemma latest_latest (w : Wal) (hs : HardState) : w.latest (w.latest hs) = w.latest hs := by
  rw [latest, latest]
  split
  · rfl
  · rfl

lemma stateAfter_states (hs : HardState) (states : List HardState) :
    (states.map WalItem.state).foldl WalItem.stateAfter hs = states.getLast?.getD hs := by
  induction states generalizing hs with
  | nil => rfl
  | cons hs' states ih =>
      rw [List.map_cons, List.foldl_cons, ih, List.getLast?_cons]
      rfl

/-- The items of the file behind a flush: the hard states of the buffer, and then the new ones. -/
lemma Backs.flushed (h : Backs f start w t) (hfits : ∀ i ∈ items, i.Fits f) :
    ∃ (before : List WalItem) (states : List HardState), Lists f w.file.content before ∧
      before.foldlM (replayItem start) {} = Except.ok t ∧
      Lists f (w.file.bytes ++ itemBytes f items) (before ++ (states.map WalItem.state ++ items)) ∧
      states.getLast?.getD t.hs = w.latest t.hs := by
  obtain ⟨before, hlists, hfold⟩ := h.lists
  obtain ⟨states, hbuffer, hstates, hlast⟩ := h.buffer
  have hall : ∀ i ∈ states.map WalItem.state ++ items, i.Fits f := by
    intro i hi
    rcases List.mem_append.mp hi with hi | hi
    · obtain ⟨hs, hhs, rfl⟩ := List.mem_map.mp hi
      exact (hstates hs hhs).1
    · exact hfits i hi
  refine ⟨before, states, hlists, hfold, ?_, hlast⟩
  have hadded := hlists.append hall
  rwa [itemBytes_append, ← hbuffer, ← List.append_assoc] at hadded

lemma entries_states (states : List HardState) (items : List WalItem) :
    (states.map WalItem.state ++ items).filterMap WalItem.entry? =
      items.filterMap WalItem.entry? := by
  rw [List.filterMap_append, List.filterMap_map]
  simp [Function.comp_def, WalItem.entry?]

/-- **What is flushed**: the hard states of the buffer, and then the items. -/
lemma Backs.flush {n : Nat} (h : Backs f start w t) (hfits : ∀ i ∈ items, i.Fits f)
    (hnum : Numbered n (items.filterMap WalItem.entry?))
    (hmarks : ∀ mark ∈ items.filterMap mark?, start.Agrees mark) :
    ∃ t', (∃ all, Lists f (w.file.bytes ++ itemBytes f items) all ∧
        all.foldlM (replayItem start) {} = Except.ok t' ∧
        all.filterMap mark? = marksOf f w.file.content ++ items.filterMap mark?) ∧
      Extends start n items { t with hs := w.latest t.hs } t' := by
  obtain ⟨before, states, hlists, hfold, hflushed, hlast⟩ := h.flushed hfits
  have hentries := entries_states states items
  have hmarked : (states.map WalItem.state ++ items).filterMap mark? =
      items.filterMap mark? := by
    rw [List.filterMap_append, List.filterMap_map]
    simp [Function.comp_def, mark?]
  obtain ⟨t', hreplay, hext⟩ := replay_extends (hentries ▸ hnum) (hmarked ▸ hmarks) t
  refine ⟨t', ⟨before ++ (states.map WalItem.state ++ items), hflushed, ?_, ?_⟩, ?_,
    hext.matchsnap, ?_, ?_⟩
  · rw [List.foldlM_append, hfold]
    exact hreplay
  · rw [List.filterMap_append, hmarked, hlists.marksOf]
  · rw [hext.hs, List.foldl_append, stateAfter_states, hlast]
  · intro e he hlt
    exact hext.new e (hentries ▸ he) hlt
  · intro i e hi he
    exact hext.kept i e (hentries ▸ hi) he

/-- The hard state that was written last has the term and the vote of the one that is read. -/
lemma Backs.ballot_latest (h : Backs f start w t) : (w.latest t.hs).ballot = t.hs.ballot := by
  obtain ⟨states, -, hstates, hlast⟩ := h.buffer
  rw [← hlast]
  cases hs : states.getLast? with
  | none => rfl
  | some last => exact (hstates last (List.mem_of_getLast? hs)).2

lemma content_saveSnapshot (f : WalFormat) (w : Wal) (mark : WalSnapshot) :
    (w.saveSnapshot f mark).file.content =
      w.file.bytes ++ itemBytes f [WalItem.snapshot mark] := by
  rw [saveSnapshot, WalFile.content_sync, WalFile.bytes_append, itemBytes]
  simp [WalItem.record]

/-- **The mark of a snapshot** is flushed with the hard states before it. -/
theorem Backs.saveSnapshot {mark : WalSnapshot} (h : Backs f start w t)
    (hfits : (WalItem.snapshot mark).Fits f) (hagrees : start.Agrees mark) :
    ∃ t', Backs f start (w.saveSnapshot f mark) t' ∧ t'.hs = w.latest t.hs ∧
      (∀ i e, t.HoldsAt start.index i e → t'.HoldsAt start.index i e) ∧
      marksOf f (w.saveSnapshot f mark).file.content = marksOf f w.file.content ++ [mark] := by
  have hcontent := content_saveSnapshot f w mark
  have hone : ∀ i ∈ [WalItem.snapshot mark], i.Fits f := List.forall_mem_singleton.mpr hfits
  obtain ⟨t', ⟨all, hlists, hfold, hmarks⟩, hext⟩ :=
    h.flush hone (Numbered.nil 0) (List.forall_mem_singleton.mpr hagrees)
  rw [← hcontent] at hlists
  have hhs : t'.hs = w.latest t.hs := hext.hs
  refine ⟨t', ⟨⟨all, hlists, hfold⟩, hext.matchsnap h.matchsnap, [], rfl,
    fun _ hmem => absurd hmem List.not_mem_nil, ?_⟩, hhs, fun i e he => hext.kept i e (Or.inl rfl) he,
    hlists.marksOf.trans hmarks⟩
  show t'.hs = w.latest t'.hs
  rw [hhs, latest_latest]

/-- What a call of `save` writes, and whether it flushes. -/
lemma save_cases (f : WalFormat) (w : Wal) (hs : HardState) (es : List Entry) :
    (hs.isEmptyState = true ∧ es = [] ∧ w.save f hs es = w) ∨
    ((w.save f hs es).file.content = w.file.bytes ++ itemBytes f (saveItems (hs, es)) ∧
      (w.save f hs es).file.dataBuffer = [] ∧
      (w.save f hs es).state = if hs.isEmptyState then w.state else hs) ∨
    (es = [] ∧ hs.isEmptyState = false ∧ hs.ballot = w.state.ballot ∧
      (w.save f hs es).file.content = w.file.content ∧
      (w.save f hs es).file.dataBuffer =
        w.file.dataBuffer ++ itemBytes f [WalItem.state hs] ∧
      (w.save f hs es).state = hs) := by
  have hbytes := bytes_saveHardState f w hs es
  rw [saveRecords_eq] at hbytes
  have hents : ∀ (es : List Entry) (w : Wal), (es.foldl (saveEntry f) w).state = w.state := by
    intro es
    induction es with
    | nil => exact fun _ => rfl
    | cons e es ih => exact fun w => ih (w.saveEntry f e)
  have hstate : ((es.foldl (saveEntry f) w).saveHardState f hs).state =
      if hs.isEmptyState then w.state else hs := by
    rw [saveHardState]
    split
    · exact hents es w
    · rfl
  rw [save]
  by_cases hnone : hs.isEmptyState = true ∧ es = []
  · rw [if_pos hnone]
    exact Or.inl ⟨hnone.1, hnone.2, rfl⟩
  rw [if_neg hnone]
  dsimp only
  split
  · split
    · exact Or.inr (Or.inl ⟨hbytes, rfl, hstate⟩)
    · rename_i hsync
      simp only [isMustSync, Bool.or_eq_true, bne_iff_ne, ne_eq, List.length_eq_zero_iff,
        not_or, not_not] at hsync
      obtain ⟨⟨rfl, hvote⟩, hterm⟩ := hsync
      have hsome : hs.isEmptyState = false := by simpa using hnone
      refine Or.inr (Or.inr ⟨rfl, hsome, ?_, ?_, ?_, ?_⟩)
      · rw [HardState.ballot, HardState.ballot, hterm, hvote]
      · rw [List.foldl_nil, saveHardState, hsome]
        rfl
      · rw [List.foldl_nil, saveHardState, hsome]
        simp [WalFile.append, itemBytes, WalItem.record]
      · rw [hstate, hsome]
        rfl
  · exact Or.inr (Or.inl ⟨hbytes, rfl, hstate⟩)

lemma entries_saveItems (hs : HardState) (es : List Entry) :
    (saveItems (hs, es)).filterMap WalItem.entry? = es := by
  have := filterMap_saveItems [(hs, es)]
  simpa [newEntries] using this

/-- What a call of `save` leaves behind, whose entries are numbered from `n` on. -/
structure Saves (f : WalFormat) (start : WalSnapshot) (n : Nat) (hs : HardState) (es : List Entry)
    (w : Wal) (t : WalReplay) (w' : Wal) (t' : WalReplay) : Prop where
  backs : Backs f start w' t'
  latest : w'.latest t'.hs = if hs.isEmptyState then w.latest t.hs else hs
  new : ∀ e ∈ es, start.index < e.index → t'.HoldsAt start.index e.index e
  kept : ∀ i e, es = [] ∨ i < n → t.HoldsAt start.index i e → t'.HoldsAt start.index i e
  marks : marksOf f w'.file.content = marksOf f w.file.content
  durable : (w'.file.content = w.file.content ∧ t' = t) ∨ t'.hs = w'.latest t'.hs

/-- **What is saved is on disk**, but for hard states that only bring a later commit index: the file
has their term and vote, and the new entries. -/
theorem Backs.save {n : Nat} {es : List Entry} (h : Backs f start w t) (hnum : Numbered n es)
    (hfits : ∀ i ∈ saveItems (hs, es), i.Fits f)
    (hfirst : hs.isEmptyState = false → hs.ballot = (0, 0) → t.hs.ballot = (0, 0)) :
    ∃ t', Saves f start n hs es w t (w.save f hs es) t' := by
  have hentries := entries_saveItems hs es
  have hmarked : (saveItems (hs, es)).filterMap mark? = [] := by
    rw [saveItems, List.filterMap_append, List.filterMap_map]
    split <;> simp [Function.comp_def, mark?]
  have hafter : ∀ hs' : HardState, (saveItems (hs, es)).foldl WalItem.stateAfter hs' =
      if hs.isEmptyState then hs' else hs := by
    intro hs'
    have := stateAfter_saveItems hs' [(hs, es)]
    simpa [newestState] using this
  rcases save_cases f w hs es with ⟨hempty, rfl, hsame⟩ | ⟨hcontent, hbuffer, hstate⟩ |
    ⟨rfl, hsome, hballot, hcontent, hbuffer, hstate⟩
  · rw [hsame]
    exact ⟨t, h, by rw [if_pos hempty], fun e he => absurd he List.not_mem_nil, fun _ _ _ he => he,
      rfl, Or.inl ⟨rfl, rfl⟩⟩
  · obtain ⟨t', ⟨all, hlists, hfold, hmarks⟩, hext⟩ := h.flush (n := n) hfits
      (by rw [hentries]; exact hnum) (by rw [hmarked]; exact fun _ hm => absurd hm List.not_mem_nil)
    rw [← hcontent] at hlists
    have hhs : t'.hs = if hs.isEmptyState then w.latest t.hs else hs :=
      hext.hs.trans (hafter _)
    have hlatest : (w.save f hs es).latest t'.hs = t'.hs := by
      rw [latest, hstate, hhs]
      by_cases hempty : hs.isEmptyState = true
      · rw [if_pos hempty, if_pos hempty, ← latest, latest_latest]
      · rw [if_neg hempty, if_neg hempty, if_neg hempty]
    refine ⟨t', ⟨⟨all, hlists, hfold⟩, hext.matchsnap h.matchsnap, [], hbuffer,
      fun _ hmem => absurd hmem List.not_mem_nil, hlatest.symm⟩, hlatest.trans hhs, ?_, ?_, ?_,
      Or.inr hlatest.symm⟩
    · intro e he hlt
      exact hext.new e (by rw [hentries]; exact he) hlt
    · intro i e hi he
      exact hext.kept i e (by rw [hentries]; exact hi) he
    · rw [hlists.marksOf, hmarks, hmarked, List.append_nil]
  · -- the hard state waits in the buffer
    have hsame : hs.ballot = t.hs.ballot := by
      by_cases hempty : w.state.isEmptyState = true
      · have hzero := hballot.trans (HardState.ballot_of_isEmptyState hempty)
        rw [hzero, hfirst hsome hzero]
      · rw [hballot, ← h.ballot_latest, latest, if_neg hempty]
    obtain ⟨states, hstates, hfit, -⟩ := h.buffer
    have hlatest : (w.save f hs []).latest t.hs = hs := by
      rw [latest, hstate, hsome]
      rfl
    refine ⟨t, ⟨?_, h.matchsnap, states ++ [hs], ?_, ?_, ?_⟩, ?_, ?_, fun _ _ _ he => he, ?_,
      Or.inl ⟨hcontent, rfl⟩⟩
    · rw [hcontent]
      exact h.lists
    · rw [hbuffer, hstates, List.map_append, itemBytes_append]
      rfl
    · intro hs' hmem
      rcases List.mem_append.mp hmem with hmem | hmem
      · exact hfit hs' hmem
      · obtain rfl := List.mem_singleton.mp hmem
        refine ⟨hfits _ ?_, hsame⟩
        rw [saveItems, hsome]
        exact List.mem_singleton.mpr rfl
    · rw [hlatest, List.getLast?_append]
      rfl
    · rw [hlatest, hsome]
      rfl
    · exact fun e he => absurd he List.not_mem_nil
    · rw [hcontent]

end Wal

end RaftKv
