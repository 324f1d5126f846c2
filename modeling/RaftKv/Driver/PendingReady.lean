import RaftKv.Driver.LogMoves

/-!
# The log under a pending `Ready`

Between `ready` and `advance` the log moves on, while the process puts into the storage what the log
held before.

* `Ready.Awaits`, `Ready.Settles` — how the log and a `Ready` fit together before and after it was
  stored.
* `Ready.Awaits.move`, `Ready.Settles.move` — every move keeps that.
* `Ready.Awaits.store` — storing a `Ready` keeps the log sound.
* `Ready.Overtaken` — **the situation in which `advance` goes wrong**: behind a snapshot that came in
  later, the log holds an entry like the last one of the `Ready`.
* `Ready.Settles.advance` — in every other situation, `advance` keeps the log sound.
-/

namespace RaftKv

/-- The snapshot that a `Ready` carries. -/
def Ready.pendingSnapshot (rd : Ready) : Option Snapshot :=
  if rd.snapshot.isEmpty then none else some rd.snapshot

lemma Snapshot.isEmpty_iff {s : Snapshot} : s.isEmpty = true ↔ s.metadata.index = 0 := by
  rw [Snapshot.isEmpty, beq_iff_eq]

namespace Ready

/-- The log has extended or cut what it held when the `Ready` was taken. -/
structure Current (rd : Ready) (n : Nat) (l : RaftLog) : Prop where
  snapshot : l.unstable.snapshot = rd.pendingSnapshot
  offset_le : l.unstable.offset ≤ n
  entries : rd.entries ≠ [] → l.unstable.entries ≠ []

/-- A snapshot has come in since the `Ready` was taken. -/
def Superseded (rd : Ready) (l : RaftLog) : Prop :=
  ∃ s, l.unstable.snapshot = some s ∧ rd.snapshot.metadata.index < s.metadata.index ∧
    l.storage.snapshot.metadata.index < s.metadata.index

/-- The `Ready`, with entries from `n` on, has been taken and is not stored yet. -/
structure Awaits (rd : Ready) (n : Nat) (l : RaftLog) : Prop where
  numbered : Numbered n rd.entries
  cursor_le : rd.appliedCursor ≤ l.committed
  snapshot_le : rd.snapshot.metadata.index ≤ l.committed
  behind : rd.pendingSnapshot = none →
    l.storage.front.index + 1 ≤ n ∧ n ≤ l.storage.lastIndex + 1
  behindSnapshot : ∀ s, rd.pendingSnapshot = some s →
    n = s.metadata.index + 1 ∧ l.storage.snapshot.metadata.index < s.metadata.index
  line : rd.Current n l ∨ rd.Superseded l

/-- What the storage holds behind the snapshot of a stored `Ready`. -/
structure StoredSnapshot (s : Snapshot) (l : RaftLog) : Prop where
  front : l.storage.front.index = s.metadata.index
  offset_le : l.unstable.offset ≤ l.storage.lastIndex + 1
  offset_eq : l.unstable.entries = [] → l.unstable.offset = l.storage.lastIndex + 1

/-- The `Ready` is stored, and the log has not been told yet. -/
structure Settles (rd : Ready) (l : RaftLog) : Prop where
  cursor_le : rd.appliedCursor ≤ l.committed
  snapshot_le : rd.snapshot.metadata.index ≤ l.committed
  last_eq : ∀ e, rd.entries.getLast? = some e → l.storage.lastIndex = e.index
  line : (l.unstable.snapshot = rd.pendingSnapshot ∧
      ∀ s, rd.pendingSnapshot = some s → StoredSnapshot s l) ∨ rd.Superseded l

end Ready

/-- No `Ready` is pending: the snapshot that is being installed is newer than the storage's. -/
def RaftLog.Idle (l : RaftLog) : Prop :=
  ∀ s, l.unstable.snapshot = some s → l.storage.snapshot.metadata.index < s.metadata.index

open RaftLog

variable {l l' : RaftLog} {rd : Ready} {n : Nat}

/-! ## The log moves on -/

lemma RaftLog.Idle.move (h : l.Idle) (hsound : l.Sound) (hmove : Move l l') : l'.Idle := by
  cases hmove with
  | commit hact =>
      obtain ⟨rfl, -⟩ := commitTo_eq_ok hact
      exact h
  | extend hnum hpos hact =>
      obtain ⟨hu, hl'⟩ := append_unstable hact
      obtain ⟨hsnapshot, -⟩ := truncateAndAppend_eq_ok hu
      intro s hs
      rw [hsnapshot] at hs
      rw [hl']
      exact h s hs
  | restore hlt =>
      intro s hs
      cases hs
      exact lt_of_le_of_lt hsound.snapshot_le hlt

namespace Ready

lemma Superseded.move (h : rd.Superseded l) (hsound : l.Sound) (hmove : Move l l')
    (hle : rd.snapshot.metadata.index ≤ l.committed) : rd.Superseded l' := by
  obtain ⟨s, hs, hlt, hstorage⟩ := h
  cases hmove with
  | commit hact =>
      obtain ⟨rfl, -⟩ := commitTo_eq_ok hact
      exact ⟨s, hs, hlt, hstorage⟩
  | extend hnum hpos hact =>
      obtain ⟨hu, hl'⟩ := append_unstable hact
      obtain ⟨hsnapshot, -⟩ := truncateAndAppend_eq_ok hu
      refine ⟨s, hsnapshot.trans hs, hlt, ?_⟩
      rw [hl']
      exact hstorage
  | restore hnew =>
      exact ⟨_, rfl, lt_of_le_of_lt hle hnew, lt_of_le_of_lt hsound.snapshot_le hnew⟩

/-- **A move under a `Ready` that is not stored yet.** -/
theorem Awaits.move (h : rd.Awaits n l) (hsound : l.Sound) (hmove : Move l l') :
    rd.Awaits n l' := by
  have hcommitted := hmove.committed_le
  have hstorage := hmove.storage
  refine ⟨h.numbered, h.cursor_le.trans hcommitted, h.snapshot_le.trans hcommitted, ?_, ?_, ?_⟩
  · rw [hstorage]
    exact h.behind
  · rw [hstorage]
    exact h.behindSnapshot
  rcases h.line with hcurrent | hsuperseded
  · cases hmove with
    | commit hact =>
        obtain ⟨rfl, -⟩ := commitTo_eq_ok hact
        exact Or.inl ⟨hcurrent.snapshot, hcurrent.offset_le, hcurrent.entries⟩
    | extend hnum hpos hact =>
        obtain ⟨hsnapshot, -, hoffset, hentries⟩ :=
          truncateAndAppend_eq_ok (append_unstable hact).1
        refine Or.inl ⟨hsnapshot.trans hcurrent.snapshot, ?_, fun _ => ?_⟩
        · rw [hoffset]
          exact (Nat.min_le_left ..).trans hcurrent.offset_le
        · rw [hentries]
          simp
    | restore hlt =>
        exact Or.inr ⟨_, rfl, lt_of_le_of_lt h.snapshot_le hlt,
          lt_of_le_of_lt hsound.snapshot_le hlt⟩
  · exact Or.inr (hsuperseded.move hsound hmove h.snapshot_le)

lemma Awaits.moves (h : rd.Awaits n l) (hsound : l.Sound) (hmoves : Moves l l') :
    rd.Awaits n l' := by
  have hkept : l'.Sound ∧ rd.Awaits n l' := by
    induction hmoves with
    | refl => exact ⟨hsound, h⟩
    | tail _ hmove ih => exact ⟨ih.1.move hmove, ih.2.move ih.1 hmove⟩
  exact hkept.2

/-- **A move under a stored `Ready`.** -/
theorem Settles.move (h : rd.Settles l) (hsound : l.Sound) (hmove : Move l l') :
    rd.Settles l' := by
  have hcommitted := hmove.committed_le
  have hstorage := hmove.storage
  refine ⟨h.cursor_le.trans hcommitted, h.snapshot_le.trans hcommitted, ?_, ?_⟩
  · rw [hstorage]
    exact h.last_eq
  rcases h.line with ⟨hsnap, hstored⟩ | hsuperseded
  · cases hmove with
    | commit hact =>
        obtain ⟨rfl, -⟩ := commitTo_eq_ok hact
        exact Or.inl ⟨hsnap, fun s hs =>
          ⟨(hstored s hs).front, (hstored s hs).offset_le, (hstored s hs).offset_eq⟩⟩
    | extend hnum hpos hact =>
        obtain ⟨hsnapshot, -, hoffset, hentries⟩ :=
          truncateAndAppend_eq_ok (append_unstable hact).1
        refine Or.inl ⟨hsnapshot.trans hsnap, fun s hs => ⟨?_, ?_, fun hnil => ?_⟩⟩
        · rw [hstorage]
          exact (hstored s hs).front
        · rw [hstorage, hoffset]
          exact (Nat.min_le_left ..).trans (hstored s hs).offset_le
        · rw [hentries] at hnil
          simp at hnil
    | restore hlt =>
        exact Or.inr ⟨_, rfl, lt_of_le_of_lt h.snapshot_le hlt,
          lt_of_le_of_lt hsound.snapshot_le hlt⟩
  · exact Or.inr (hsuperseded.move hsound hmove h.snapshot_le)

/-! ## Storing -/

/-- The storage after the snapshot of a `Ready` was applied. -/
def storageBehind (rd : Ready) (storage : MemoryStorage) : MemoryStorage :=
  if rd.snapshot.isEmpty then storage else (storage.applySnapshot rd.snapshot).1

lemma pendingSnapshot_eq_none (h : rd.pendingSnapshot = none) : rd.snapshot.isEmpty = true := by
  by_contra hne
  rw [pendingSnapshot, if_neg hne] at h
  cases h

lemma pendingSnapshot_eq_some {s : Snapshot} (h : rd.pendingSnapshot = some s) :
    rd.snapshot.isEmpty = false ∧ s = rd.snapshot := by
  rw [pendingSnapshot] at h
  split at h
  · cases h
  · rename_i hne
    exact ⟨by simpa using hne, (Option.some.inj h).symm⟩

lemma Awaits.storageBehind_eq (h : rd.Awaits n l) :
    (rd.pendingSnapshot = none ∧ rd.storageBehind l.storage = l.storage) ∨
    ∃ s, rd.pendingSnapshot = some s ∧ n = s.metadata.index + 1 ∧
      (rd.storageBehind l.storage).front.index = s.metadata.index ∧
      (rd.storageBehind l.storage).stored = [] ∧
      (rd.storageBehind l.storage).snapshot = s := by
  cases hs : rd.pendingSnapshot with
  | none =>
      refine Or.inl ⟨rfl, ?_⟩
      rw [storageBehind, if_pos (pendingSnapshot_eq_none hs)]
  | some s =>
      obtain ⟨hempty, rfl⟩ := pendingSnapshot_eq_some hs
      obtain ⟨hn, hlt⟩ := h.behindSnapshot _ hs
      have happly : rd.storageBehind l.storage = { l.storage with
          snapshot := rd.snapshot
          entries := [{ term := rd.snapshot.metadata.term, index := rd.snapshot.metadata.index }]
          nonempty := List.cons_ne_nil _ _ } := by
        rw [storageBehind, if_neg (by simp [hempty]), MemoryStorage.applySnapshot,
          if_neg (Nat.not_le.mpr hlt)]
      rw [happly]
      exact Or.inr ⟨_, rfl, hn, rfl, rfl, rfl⟩

/-- What the storage holds once a `Ready` is stored. -/
theorem Awaits.store_eq_ok (h : rd.Awaits n l) (hsound : l.Sound) {storage : MemoryStorage}
    (hstore : rd.store l.storage = Except.ok storage) :
    storage.front = (rd.storageBehind l.storage).front ∧
    storage.snapshot = (rd.storageBehind l.storage).snapshot ∧
    Numbered storage.front.index storage.entries ∧
    storage.front.index + 1 ≤ n ∧ n ≤ (rd.storageBehind l.storage).lastIndex + 1 ∧
    storage.stored = (if rd.entries = [] then (rd.storageBehind l.storage).stored
      else (rd.storageBehind l.storage).stored.take (n - (storage.front.index + 1)) ++
        rd.entries) := by
  have hfits : Numbered (rd.storageBehind l.storage).front.index
      (rd.storageBehind l.storage).entries ∧
      (rd.storageBehind l.storage).front.index + 1 ≤ n ∧
      n ≤ (rd.storageBehind l.storage).lastIndex + 1 := by
    rcases h.storageBehind_eq with ⟨hs, heq⟩ | ⟨s, hs, hn, hfront, hstored, -⟩
    · rw [heq]
      exact ⟨hsound.wf.stable, h.behind hs⟩
    · rw [MemoryStorage.lastIndex_eq, MemoryStorage.entries_eq, hstored, hfront, hn]
      exact ⟨Numbered.cons hfront (Numbered.nil _), Nat.le_refl _, Nat.le_refl _⟩
  obtain ⟨hnum, hlow, hhigh⟩ := hfits
  obtain ⟨storage', happend, hfront, hstored, hsnapshot, -⟩ :=
    MemoryStorage.append_numbered h.numbered (s := rd.storageBehind l.storage) (fun _ => hhigh)
  obtain rfl : storage' = storage := Except.ok.inj (happend.symm.trans hstore)
  rw [MemoryStorage.lastIndex_eq] at hhigh
  have hrest : Numbered ((rd.storageBehind l.storage).front.index + 1)
      (rd.storageBehind l.storage).stored := by
    rw [MemoryStorage.entries_eq] at hnum
    exact hnum.tail
  refine ⟨hfront, hsnapshot, ?_, ?_, ?_, ?_⟩
  · rw [MemoryStorage.entries_eq, hstored, hfront]
    exact Numbered.cons rfl (splice_numbered hrest h.numbered hhigh)
  · rw [hfront]
    exact hlow
  · rw [MemoryStorage.lastIndex_eq]
    exact hhigh
  · rw [hstored, hfront]
    cases hes : rd.entries with
    | nil => rfl
    | cons e es =>
        have hindex := h.numbered
        rw [hes] at hindex
        rw [if_neg (List.cons_ne_nil _ _)]
        exact splice_of_le hindex.head hlow

/-- Where the storage ends once a `Ready` is stored. -/
lemma Awaits.store_lastIndex (h : rd.Awaits n l) (hsound : l.Sound) {storage : MemoryStorage}
    (hstore : rd.store l.storage = Except.ok storage) :
    (rd.entries = [] → storage.lastIndex = (rd.storageBehind l.storage).lastIndex) ∧
    (rd.entries ≠ [] → storage.lastIndex + 1 = n + rd.entries.length) := by
  obtain ⟨hfront, -, -, hlow, hhigh, hstored⟩ := h.store_eq_ok hsound hstore
  have hlast := storage.lastIndex_eq
  have hlast' := (rd.storageBehind l.storage).lastIndex_eq
  rw [hstored, hfront] at hlast
  constructor
  · intro hnil
    rw [if_pos hnil] at hlast
    omega
  · intro hne
    rw [if_neg hne, List.length_append, List.length_take] at hlast
    rw [hfront] at hlow
    omega

/-- The storage of a `Ready` without a snapshot, when the log has no newer one, ends where it did or
behind the unstable tail's first index. -/
lemma Awaits.store_fits (h : rd.Awaits n l) (hsound : l.Sound) {storage : MemoryStorage}
    (hstore : rd.store l.storage = Except.ok storage) (hnone : l.unstable.snapshot = none) :
    storage.front = l.storage.front ∧ l.unstable.offset ≤ storage.lastIndex + 1 ∧
      (l.unstable.entries = [] → storage.lastIndex = l.storage.lastIndex) := by
  obtain ⟨hfront, -, -, -, -, -⟩ := h.store_eq_ok hsound hstore
  obtain ⟨hempty, hnonempty⟩ := h.store_lastIndex hsound hstore
  obtain ⟨-, hhigh, -⟩ := hsound.wf.fits hnone
  have hcurrent : rd.Current n l := by
    rcases h.line with hc | ⟨s, hs, -⟩
    · exact hc
    · rw [hnone] at hs
      cases hs
  have hpending : rd.pendingSnapshot = none := hcurrent.snapshot.symm.trans hnone
  rcases h.storageBehind_eq with ⟨-, heq⟩ | ⟨s, hs, -⟩
  · rw [heq] at hfront hempty
    have hoffset := hcurrent.offset_le
    refine ⟨hfront, ?_, fun hnil => ?_⟩
    · by_cases hes : rd.entries = []
      · rw [hempty hes]
        exact hhigh
      · have := hnonempty hes
        omega
    · exact hempty (by_contra fun hes => hcurrent.entries hes hnil)
  · rw [hpending] at hs
    cases hs

/-- Storing does not move the ends of the log. -/
lemma Awaits.store_ends (h : rd.Awaits n l) (hsound : l.Sound) {storage : MemoryStorage}
    (hstore : rd.store l.storage = Except.ok storage) :
    (l.setStorage storage).base = l.base ∧ (l.setStorage storage).lastIndex = l.lastIndex := by
  have hu : (l.setStorage storage).unstable = l.unstable := rfl
  have hst : (l.setStorage storage).storage = storage := rfl
  cases hs : l.unstable.snapshot with
  | some s =>
      refine ⟨by simp [base, hu, hs], ?_⟩
      simp only [lastIndex, Unstable.maybeLastIndex, hu, hs]
      split <;> rfl
  | none =>
      obtain ⟨hfront, -, hlast⟩ := h.store_fits hsound hstore hs
      refine ⟨by simp [base, hu, hst, hs, hfront], ?_⟩
      simp only [lastIndex, Unstable.maybeLastIndex, hu, hst, hs, Option.map_none]
      split
      · rfl
      · rename_i hnil
        exact hlast (Decidable.not_not.mp hnil)

/-- **Storing a `Ready`** keeps the log sound. -/
theorem Awaits.store (h : rd.Awaits n l) (hsound : l.Sound) {storage : MemoryStorage}
    (hstore : rd.store l.storage = Except.ok storage) :
    (l.setStorage storage).Sound ∧ rd.Settles (l.setStorage storage) := by
  obtain ⟨hfront, hsnapshot, hnum, -, -, -⟩ := h.store_eq_ok hsound hstore
  obtain ⟨hbase, hlast⟩ := h.store_ends hsound hstore
  obtain ⟨hempty, hnonempty⟩ := h.store_lastIndex hsound hstore
  constructor
  · refine ⟨⟨hnum, hsound.wf.unstable, fun hnone => ?_, hsound.wf.fits_snapshot⟩, ?_, ?_,
      hsound.applied_le, ?_⟩
    · obtain ⟨hlow, -, hend⟩ := hsound.wf.fits hnone
      obtain ⟨hfront', hoffset, hlast'⟩ := h.store_fits hsound hstore hnone
      refine ⟨?_, hoffset, fun hnil => ?_⟩
      · show storage.front.index + 1 ≤ l.unstable.offset
        rw [hfront']
        exact hlow
      · show l.unstable.offset = storage.lastIndex + 1
        rw [hlast' hnil]
        exact hend hnil
    · rw [hbase]
      exact hsound.base_le
    · rw [hlast]
      exact hsound.committed_le
    · show storage.snapshot.metadata.index ≤ l.committed
      rw [hsnapshot]
      rcases h.storageBehind_eq with ⟨-, heq⟩ | ⟨s, hs, -, -, -, heq⟩
      · rw [heq]
        exact hsound.snapshot_le
      · obtain ⟨-, rfl⟩ := pendingSnapshot_eq_some hs
        rw [heq]
        exact h.snapshot_le
  · refine ⟨h.cursor_le, h.snapshot_le, fun e he => ?_, ?_⟩
    · have hne : rd.entries ≠ [] := by
        rintro hnil
        rw [hnil] at he
        cases he
      have := hnonempty hne
      have := h.numbered.getLast he
      show storage.lastIndex = e.index
      omega
    · rcases h.line with hcurrent | ⟨s, hs, hlt, hstorage⟩
      · refine Or.inl ⟨hcurrent.snapshot, fun s hs => ?_⟩
        rcases h.storageBehind_eq with ⟨hnone, -⟩ | ⟨s', hs', hn, hfront', hstored', -⟩
        · rw [hs] at hnone
          cases hnone
        obtain rfl : s = s' := Option.some.inj (hs.symm.trans hs')
        have hoffset := hsound.wf.fits_snapshot s (hcurrent.snapshot.trans hs)
        have hlast₁ := (rd.storageBehind l.storage).lastIndex_eq
        rw [hfront', hstored', List.length_nil] at hlast₁
        refine ⟨?_, ?_, fun hnil => ?_⟩
        · show storage.front.index = s.metadata.index
          rw [hfront, hfront']
        · show l.unstable.offset ≤ storage.lastIndex + 1
          by_cases hes : rd.entries = []
          · have := hempty hes
            omega
          · have := hnonempty hes
            omega
        · have hes : rd.entries = [] := by_contra fun hes => hcurrent.entries hes hnil
          have := hempty hes
          show l.unstable.offset = storage.lastIndex + 1
          omega
      · refine Or.inr ⟨s, hs, hlt, ?_⟩
        show storage.snapshot.metadata.index < s.metadata.index
        rw [hsnapshot]
        rcases h.storageBehind_eq with ⟨-, heq⟩ | ⟨s', hs', -, -, -, heq⟩
        · rw [heq]
          exact hstorage
        · obtain ⟨-, rfl⟩ := pendingSnapshot_eq_some hs'
          rw [heq]
          exact hlt

/-! ## Advancing -/

/-- A later snapshot is being installed, and behind it the log holds an entry with the index and the
term of the last entry of the `Ready`. -/
def Overtaken (rd : Ready) (l : RaftLog) : Prop :=
  ∃ s ∈ l.unstable.snapshot, s.metadata.index ≠ rd.snapshot.metadata.index ∧
    ∃ e ∈ rd.entries.getLast?, l.unstable.offset ≤ e.index ∧
      l.unstable.maybeTerm e.index = some e.term

instance (rd : Ready) (l : RaftLog) : Decidable (rd.Overtaken l) :=
  inferInstanceAs (Decidable (∃ s ∈ l.unstable.snapshot, _ ∧ ∃ e ∈ rd.entries.getLast?, _ ∧ _))

end Ready

/-- `stable_to` forgets the tail up to an entry that it holds, or does nothing. -/
lemma Unstable.stableTo_cases (u : Unstable) (i t : Nat) :
    u.stableTo i t = u ∨ (u.offset ≤ i ∧ i < u.offset + u.entries.length ∧
      u.maybeTerm i = some t ∧
      u.stableTo i t = { u with entries := u.entries.drop (i + 1 - u.offset), offset := i + 1 }) := by
  rw [stableTo]
  split
  · exact Or.inl rfl
  · rename_i gt hterm
    split
    · rename_i hmatch
      obtain ⟨rfl, hge⟩ := hmatch
      refine Or.inr ⟨hge, ?_, hterm, rfl⟩
      rw [maybeTerm, if_neg (Nat.not_lt.mpr hge)] at hterm
      split at hterm
      · cases hterm
      · split at hterm
        · cases hterm
        · obtain ⟨e, he, -⟩ := Option.map_eq_some_iff.mp hterm
          have := (List.getElem?_eq_some_iff.mp he).1
          omega
    · exact Or.inl rfl

namespace Ready

/-- What `advance` does to the unstable part of the log. -/
def settled (rd : Ready) (u : Unstable) : Unstable :=
  let u := match rd.entries.getLast? with
    | some e => u.stableTo e.index e.term
    | none => u
  if rd.snapshot.isEmpty then u else u.stableSnapTo rd.snapshot.metadata.index

lemma advanceLog_eq (l : RaftLog) (rd : Ready) :
    RawNode.advanceLog l rd = { l with
      applied := if rd.appliedCursor > 0 then rd.appliedCursor else l.applied
      unstable := rd.settled l.unstable } := by
  have happlied : (if rd.appliedCursor > 0 then l.appliedTo rd.appliedCursor else l) = { l with
      applied := if rd.appliedCursor > 0 then rd.appliedCursor else l.applied } := by
    split
    · rename_i hpos
      rw [appliedTo, if_neg (Nat.ne_of_gt hpos)]
    · rfl
  simp only [RawNode.advanceLog, happlied, settled]
  cases rd.entries.getLast? <;> dsimp only <;> split <;> rfl

/-- The snapshot that is forgotten is the one that the log holds. -/
lemma stableSnapTo_pending {u : Unstable} (hu : u.snapshot = rd.pendingSnapshot) :
    (if rd.snapshot.isEmpty then u else u.stableSnapTo rd.snapshot.metadata.index) =
      { u with snapshot := none } := by
  split
  · rename_i hempty
    rw [pendingSnapshot, if_pos hempty] at hu
    rw [← hu]
  · rename_i hempty
    rw [pendingSnapshot, if_neg hempty] at hu
    simp [Unstable.stableSnapTo, hu]

/-- A log that has not changed since the `Ready` was taken forgets all of its unstable tail. -/
lemma settled_all {u : Unstable} (hu : u.snapshot = rd.pendingSnapshot)
    (hentries : rd.entries = u.entries) (hnum : Numbered u.offset u.entries) :
    rd.settled u =
      { snapshot := none, entries := [], offset := u.offset + u.entries.length } := by
  cases hlast : rd.entries.getLast? with
  | none =>
      have hnil : u.entries = [] := hentries ▸ List.getLast?_eq_none_iff.mp hlast
      simp only [settled, hlast]
      rw [stableSnapTo_pending hu, hnil]
      rfl
  | some e =>
      rw [hentries] at hlast
      have hindex := hnum.getLast hlast
      rw [List.getLast?_eq_getElem?] at hlast
      have hlen := (List.getElem?_eq_some_iff.mp hlast).1
      have hne : u.entries ≠ [] := by
        rintro hnil
        simp [hnil] at hlen
      have hterm : u.maybeTerm e.index = some e.term := by
        rw [Unstable.maybeTerm, Unstable.maybeLastIndex, if_neg (by omega), if_pos hne]
        dsimp only
        rw [if_neg (by omega), show e.index - u.offset = u.entries.length - 1 by omega, hlast]
        rfl
      have hcut : u.stableTo e.index e.term = { u with
          entries := []
          offset := u.offset + u.entries.length } := by
        simp only [Unstable.stableTo, hterm]
        have hle : u.offset ≤ e.index := by omega
        rw [if_pos ⟨trivial, hle⟩, List.drop_eq_nil_of_le (by omega)]
        simp only [Unstable.mk.injEq, true_and]
        omega
      rw [← List.getLast?_eq_getElem?, ← hentries] at hlast
      simp only [settled, hlast, hcut]
      exact stableSnapTo_pending hu

/-- The log forgets a part of the unstable tail that the storage holds, and the snapshot. -/
lemma Settles.settled_current (h : rd.Settles l) (hs : l.unstable.snapshot = rd.pendingSnapshot) :
    ∃ k, k ≤ l.unstable.entries.length ∧
      (k ≠ 0 → l.unstable.offset + k = l.storage.lastIndex + 1 ∧
        ∃ e ∈ rd.entries.getLast?, e.index + 1 = l.unstable.offset + k ∧
          l.unstable.maybeTerm e.index = some e.term) ∧
      rd.settled l.unstable =
        { snapshot := none
          entries := l.unstable.entries.drop k
          offset := l.unstable.offset + k } := by
  have hkeep : rd.settled l.unstable = { l.unstable with snapshot := none } →
      ∃ k, k ≤ l.unstable.entries.length ∧
        (k ≠ 0 → l.unstable.offset + k = l.storage.lastIndex + 1 ∧
          ∃ e ∈ rd.entries.getLast?, e.index + 1 = l.unstable.offset + k ∧
            l.unstable.maybeTerm e.index = some e.term) ∧
        rd.settled l.unstable =
          { snapshot := none
            entries := l.unstable.entries.drop k
            offset := l.unstable.offset + k } :=
    fun hkept => ⟨0, Nat.zero_le _, fun h₀ => absurd rfl h₀, hkept⟩
  rcases Option.eq_none_or_eq_some rd.entries.getLast? with hlast | ⟨e, hlast⟩
  · refine hkeep ?_
    simp only [settled, hlast]
    exact stableSnapTo_pending hs
  · have hend := h.last_eq e hlast
    rcases l.unstable.stableTo_cases e.index e.term with hno | ⟨hge, hlt, hterm, hcut⟩
    · refine hkeep ?_
      simp only [settled, hlast, hno]
      exact stableSnapTo_pending hs
    · refine ⟨e.index + 1 - l.unstable.offset, by omega,
        fun _ => ⟨by omega, e, hlast, by omega, hterm⟩, ?_⟩
      simp only [settled, hlast, hcut]
      refine (stableSnapTo_pending (u := { l.unstable with
        entries := l.unstable.entries.drop (e.index + 1 - l.unstable.offset)
        offset := e.index + 1 }) hs).trans ?_
      simp only [Unstable.mk.injEq, true_and]
      omega

/-- Behind a later snapshot, `advance` changes nothing. -/
lemma Settles.settled_superseded (hsuper : rd.Superseded l) (hgood : ¬ rd.Overtaken l) :
    rd.settled l.unstable = l.unstable := by
  obtain ⟨s, hs, hlt, -⟩ := hsuper
  have htail : (match rd.entries.getLast? with
      | some e => l.unstable.stableTo e.index e.term
      | none => l.unstable) = l.unstable := by
    cases hlast : rd.entries.getLast? with
    | none => rfl
    | some e =>
        rcases l.unstable.stableTo_cases e.index e.term with hno | ⟨hge, -, hterm, -⟩
        · exact hno
        · exact absurd ⟨s, hs, Nat.ne_of_gt hlt, e, hlast, hge, hterm⟩ hgood
  have hsnap : l.unstable.stableSnapTo rd.snapshot.metadata.index = l.unstable := by
    simp only [Unstable.stableSnapTo, hs, if_neg (Nat.ne_of_gt hlt)]
  rw [settled, htail]
  split
  · rfl
  · exact hsnap

/-- A tail of the unstable entries is forgotten that the storage holds: the ends of the log stay. -/
lemma sound_forget (hsound : l.Sound) (hbase : l.base = l.storage.front.index)
    (hlow : l.storage.front.index + 1 ≤ l.unstable.offset)
    (hhigh : l.unstable.offset ≤ l.storage.lastIndex + 1)
    (hend : l.unstable.entries = [] → l.unstable.offset = l.storage.lastIndex + 1) {k : Nat}
    (hk : k ≤ l.unstable.entries.length)
    (hstored : k ≠ 0 → l.unstable.offset + k = l.storage.lastIndex + 1) {applied : Nat}
    (happlied : applied ≤ l.committed) :
    RaftLog.Sound { l with
      applied := applied
      unstable :=
        { snapshot := none
          entries := l.unstable.entries.drop k
          offset := l.unstable.offset + k } } := by
  have hoffset := hsound.wf.offset_eq
  have hcommitted := hsound.committed_le
  rw [lastIndex_eq hsound.wf] at hcommitted
  refine ⟨⟨hsound.wf.stable, hsound.wf.unstable.drop k, fun _ => ⟨?_, ?_, fun hnil => ?_⟩,
    fun s hs => ?_⟩, ?_, ?_, happlied, hsound.snapshot_le⟩
  · exact hlow.trans (Nat.le_add_right ..)
  · show l.unstable.offset + k ≤ l.storage.lastIndex + 1
    by_cases h₀ : k = 0
    · omega
    · exact (hstored h₀).le
  · show l.unstable.offset + k = l.storage.lastIndex + 1
    by_cases h₀ : k = 0
    · subst h₀
      exact hend hnil
    · exact hstored h₀
  · cases hs
  · have := hsound.base_le
    rw [hbase] at this
    exact this
  · show l.committed ≤ lastIndex _
    rw [lastIndex, Unstable.maybeLastIndex]
    dsimp only
    split
    · rename_i hne
      have hlen : k < l.unstable.entries.length := by
        by_contra hge
        exact hne (List.drop_eq_nil_of_le (Nat.not_lt.mp hge))
      simp only [Option.getD_some, List.length_drop]
      omega
    · rename_i hnil
      have hlen := List.drop_eq_nil_iff.mp (Decidable.not_not.mp hnil)
      show l.committed ≤ l.storage.lastIndex
      by_cases h₀ : k = 0
      · have := hend (List.length_eq_zero_iff.mp (by omega))
        omega
      · have := hstored h₀
        omega

/-- **`advance` keeps the log sound**, unless the `Ready` was overtaken. -/
theorem Settles.advance (h : rd.Settles l) (hsound : l.Sound) (hgood : ¬ rd.Overtaken l) :
    (RawNode.advanceLog l rd).Sound ∧ (RawNode.advanceLog l rd).Idle := by
  rw [advanceLog_eq]
  have happlied : (if rd.appliedCursor > 0 then rd.appliedCursor else l.applied) ≤ l.committed := by
    split
    · exact h.cursor_le
    · exact hsound.applied_le
  rcases h.line with ⟨hs, hstored⟩ | hsuper
  · obtain ⟨k, hk, hend, hsettled⟩ := h.settled_current hs
    rw [hsettled]
    refine ⟨?_, fun s hs' => by cases hs'⟩
    cases hp : rd.pendingSnapshot with
    | none =>
        rw [hp] at hs
        obtain ⟨hlow, hhigh, hempty⟩ := hsound.wf.fits hs
        exact sound_forget hsound (by simp [base, hs]) hlow hhigh hempty hk
          (fun h₀ => (hend h₀).1) happlied
    | some s =>
        rw [hp] at hs
        have hfit := hstored s hp
        have hoffset := hsound.wf.fits_snapshot s hs
        have hfront := hfit.front
        exact sound_forget hsound (by simp [base, hs, hfront]) (by omega) hfit.offset_le
          hfit.offset_eq hk (fun h₀ => (hend h₀).1) happlied
  · rw [settled_superseded hsuper hgood]
    refine ⟨⟨⟨hsound.wf.stable, hsound.wf.unstable, hsound.wf.fits, hsound.wf.fits_snapshot⟩,
      hsound.base_le, hsound.committed_le, happlied, hsound.snapshot_le⟩, ?_⟩
    obtain ⟨s, hs, -, hlt⟩ := hsuper
    intro s' hs'
    obtain rfl : s = s' := Option.some.inj (hs.symm.trans hs')
    exact hlt

/-- `advance` does not move the end of the log. -/
lemma Settles.advance_lastIndex (h : rd.Settles l) (hsound : l.Sound) (hgood : ¬ rd.Overtaken l) :
    (RawNode.advanceLog l rd).lastIndex = l.lastIndex := by
  have hend := hsound.wf.lastIndex_succ
  have hend' := (h.advance hsound hgood).1.wf.lastIndex_succ
  have hsettled : (RawNode.advanceLog l rd).unstable = rd.settled l.unstable := by
    rw [advanceLog_eq]
  rw [hsettled] at hend'
  rcases h.line with ⟨hs, -⟩ | hsuper
  · obtain ⟨k, hk, -, hcut⟩ := h.settled_current hs
    rw [hcut] at hend'
    dsimp only at hend'
    rw [List.length_drop] at hend'
    omega
  · rw [settled_superseded hsuper hgood] at hend'
    omega

end Ready

end RaftKv
