import Mathlib.Tactic.Set
import RaftKv.Raft.RaftLog

/-!
# One log out of two parts

`RaftLog` keeps its entries in the storage and in the unstable tail.  Where the two fit together
(`RaftLog.WF`) they represent one list behind one compacted position, and every reading function is
a function of that list.

* `RaftLog.base`, `RaftLog.baseTerm`, `RaftLog.logical` — the represented log.
* `RaftLog.WF` — the representation invariant.
* `RaftLog.firstIndex_eq`, `lastIndex_eq`, `term_eq`, `slice_eq` — **what is read is the represented
  log**.
* `RaftLog.append_eq_ok` — **appending cuts the represented log and extends it**.
-/

namespace RaftKv

/-- The entries of `es` are numbered from `n` on. -/
def Numbered (n : Nat) (es : List Entry) : Prop :=
  ∀ k e, es[k]? = some e → e.index = n + k

namespace Numbered

theorem nil (n : Nat) : Numbered n [] := by
  intro k e h
  simp at h

theorem cons {n : Nat} {e : Entry} {es : List Entry} (he : e.index = n) (h : Numbered (n + 1) es) :
    Numbered n (e :: es) := by
  intro k e' hk
  cases k with
  | zero => simp_all
  | succ k =>
      have := h k e' (by simpa using hk)
      omega

theorem append {n : Nat} {es es' : List Entry} (h : Numbered n es)
    (h' : Numbered (n + es.length) es') : Numbered n (es ++ es') := by
  intro k e hk
  rcases Nat.lt_or_ge k es.length with hlt | hge
  · exact h k e (by rwa [List.getElem?_append_left hlt] at hk)
  · rw [List.getElem?_append_right hge] at hk
    have := h' _ e hk
    omega

theorem take {n : Nat} {es : List Entry} (h : Numbered n es) (m : Nat) :
    Numbered n (es.take m) := by
  intro k e hk
  rw [List.getElem?_take] at hk
  split at hk
  · exact h k e hk
  · cases hk

theorem drop {n : Nat} {es : List Entry} (h : Numbered n es) (m : Nat) :
    Numbered (n + m) (es.drop m) := by
  intro k e hk
  have := h (m + k) e (by rwa [List.getElem?_drop] at hk)
  omega

theorem head {n : Nat} {e : Entry} {es : List Entry} (h : Numbered n (e :: es)) : e.index = n :=
  h 0 e rfl

theorem tail {n : Nat} {e : Entry} {es : List Entry} (h : Numbered n (e :: es)) :
    Numbered (n + 1) es := by
  simpa using h.drop 1

theorem getLast {n : Nat} {es : List Entry} {e : Entry} (h : Numbered n es)
    (he : es.getLast? = some e) : e.index = n + es.length - 1 := by
  rw [List.getLast?_eq_getElem?] at he
  have hlt := (List.getElem?_eq_some_iff.mp he).1
  have := h _ e he
  omega

theorem iff_map_index {n : Nat} {es : List Entry} :
    Numbered n es ↔ es.map Entry.index = List.range' n es.length := by
  constructor
  · intro h
    refine List.ext_getElem? fun k => ?_
    rw [List.getElem?_map]
    cases he : es[k]? with
    | none =>
        have := List.getElem?_eq_none_iff.mp he
        simp [this]
    | some e =>
        have hk := (List.getElem?_eq_some_iff.mp he).1
        simp [List.getElem?_range' hk, h k e he]
  · intro h k e he
    have hk := (List.getElem?_eq_some_iff.mp he).1
    have hmap := congrArg (fun is => is[k]?) h
    simpa [he, List.getElem?_range' hk] using hmap

instance (n : Nat) (es : List Entry) : Decidable (Numbered n es) :=
  decidable_of_iff _ iff_map_index.symm

end Numbered

/-! ## Cutting a batch by size -/

/-- A batch that the limit cuts is cut the same way when more entries follow. -/
theorem limitAfter_append_of_lt {maxSize size : Nat} :
    ∀ {es : List Entry} (es' : List Entry), (limitAfter maxSize size es).length < es.length →
      limitAfter maxSize size (es ++ es') = limitAfter maxSize size es
  | [], es', h => by simp [limitAfter] at h
  | e :: es, es', h => by
      rw [List.cons_append, limitAfter, limitAfter]
      rw [limitAfter] at h
      split
      · rfl
      · rename_i hfits
        rw [if_neg hfits] at h
        rw [limitAfter_append_of_lt es' (by simpa using h)]

theorem entryLimitSize_append_of_lt {maxSize : Nat} {es : List Entry} (es' : List Entry)
    (h : (entryLimitSize maxSize es).length < es.length) :
    entryLimitSize maxSize (es ++ es') = entryLimitSize maxSize es := by
  cases es with
  | nil => simp at h
  | cons e es =>
      have h' : (limitAfter maxSize e.serializeSize es).length < es.length := by
        simpa [entryLimitSize] using h
      simp [entryLimitSize, limitAfter_append_of_lt es' h']

/-- A batch that the limit does not shorten is not cut. -/
theorem entryLimitSize_eq_self {maxSize : Nat} {es : List Entry}
    (h : es.length ≤ (entryLimitSize maxSize es).length) : entryLimitSize maxSize es = es :=
  (entryLimitSize_isPrefix maxSize es).eq_of_length_le h

namespace RaftLog

/-! ## The represented log -/

/-- The compacted position the log starts behind. -/
def base (l : RaftLog) : Nat :=
  match l.unstable.snapshot with
  | some s => s.metadata.index
  | none => l.storage.front.index

def baseTerm (l : RaftLog) : Nat :=
  match l.unstable.snapshot with
  | some s => s.metadata.term
  | none => l.storage.front.term

/-- The entries behind the base: those of the storage that the unstable tail does not replace, and
the unstable tail. -/
def logical (l : RaftLog) : List Entry :=
  match l.unstable.snapshot with
  | some _ => l.unstable.entries
  | none =>
      l.storage.entries.tail.take (l.unstable.offset - (l.storage.front.index + 1)) ++
        l.unstable.entries

theorem logical_of_snapshot_none {l : RaftLog} (h : l.unstable.snapshot = none) :
    l.logical = l.storage.entries.tail.take (l.unstable.offset - (l.storage.front.index + 1)) ++
      l.unstable.entries := by
  rw [logical, h]

/-- The term the represented log has at an index; 0 outside of it. -/
def logicalTerm (l : RaftLog) (index : Nat) : Nat :=
  if index < l.base then 0
  else if index = l.base then l.baseTerm
  else (l.logical[index - (l.base + 1)]?.map Entry.term).getD 0

/-- The representation invariant. -/
structure WF (l : RaftLog) : Prop where
  stable : Numbered l.storage.front.index l.storage.entries
  unstable : Numbered l.unstable.offset l.unstable.entries
  fits : l.unstable.snapshot = none → l.storage.front.index + 1 ≤ l.unstable.offset ∧
    l.unstable.offset ≤ l.storage.lastIndex + 1 ∧
    (l.unstable.entries = [] → l.unstable.offset = l.storage.lastIndex + 1)
  fits_snapshot : ∀ s, l.unstable.snapshot = some s → l.unstable.offset = s.metadata.index + 1

/-! ## Reading -/

theorem storage_lastIndex (s : MemoryStorage) :
    s.lastIndex + 1 = s.front.index + s.entries.length := by
  have := List.length_pos_iff.mpr s.nonempty
  simp only [MemoryStorage.lastIndex]
  omega

theorem storage_entries (s : MemoryStorage) : s.entries = s.front :: s.entries.tail :=
  (List.cons_head_tail s.nonempty).symm

theorem firstIndex_eq (l : RaftLog) : l.firstIndex = l.base + 1 := by
  unfold firstIndex base Unstable.maybeFirstIndex
  cases l.unstable.snapshot with
  | none => rfl
  | some s => rfl

/-- The unstable tail starts right behind the part of the log that the storage keeps. -/
theorem WF.offset_eq {l : RaftLog} (h : l.WF) :
    l.unstable.offset + l.unstable.entries.length = l.base + 1 + l.logical.length := by
  unfold base logical
  cases hs : l.unstable.snapshot with
  | none =>
      obtain ⟨hlow, hhigh, -⟩ := h.fits hs
      have := storage_lastIndex l.storage
      simp
      omega
  | some s =>
      simp [h.fits_snapshot s hs]

theorem WF.base_lt_offset {l : RaftLog} (h : l.WF) : l.base + 1 ≤ l.unstable.offset := by
  unfold base
  cases hs : l.unstable.snapshot with
  | none => exact (h.fits hs).1
  | some s => exact Nat.le_of_eq (h.fits_snapshot s hs).symm

theorem lastIndex_eq {l : RaftLog} (h : l.WF) : l.lastIndex = l.base + l.logical.length := by
  have hoffset := h.offset_eq
  unfold lastIndex Unstable.maybeLastIndex
  by_cases hu : l.unstable.entries = []
  · rw [if_neg (by simpa using hu)]
    simp only [hu, List.length_nil] at hoffset
    cases hs : l.unstable.snapshot with
    | none =>
        have := (h.fits hs).2.2 hu
        simp
        omega
    | some s =>
        have := h.fits_snapshot s hs
        simp
        omega
  · have := List.length_pos_iff.mpr hu
    rw [if_pos hu]
    simp
    omega

/-- The log ends where its unstable tail does. -/
lemma WF.lastIndex_succ {l : RaftLog} (h : l.WF) :
    l.lastIndex + 1 = l.unstable.offset + l.unstable.entries.length := by
  rw [lastIndex_eq h, h.offset_eq]
  omega

theorem WF.numbered {l : RaftLog} (h : l.WF) : Numbered (l.base + 1) l.logical := by
  unfold base logical
  cases hs : l.unstable.snapshot with
  | none =>
      obtain ⟨hlow, hhigh, -⟩ := h.fits hs
      have hlast := storage_lastIndex l.storage
      have hstable := h.stable
      rw [storage_entries] at hstable
      refine (hstable.tail.take _).append ?_
      have hlen : l.storage.front.index + 1 + (l.storage.entries.tail.take
          (l.unstable.offset - (l.storage.front.index + 1))).length = l.unstable.offset := by
        simp
        omega
      rw [hlen]
      exact h.unstable
  | some s =>
      have := h.fits_snapshot s hs
      simpa [this] using h.unstable

theorem term_eq {l : RaftLog} (h : l.WF) (index : Nat) :
    l.term index = Except.ok (l.logicalTerm index) := by
  have hlast := lastIndex_eq h
  have hoffset := h.offset_eq
  unfold term logicalTerm
  rw [firstIndex_eq, hlast]
  by_cases hbelow : index < l.base
  · rw [if_pos (by omega), if_pos hbelow]
  by_cases habove : index > l.base + l.logical.length
  · rw [if_pos (by omega), if_neg hbelow, if_neg (by omega),
      List.getElem?_eq_none (by omega)]
    rfl
  rw [if_neg (by omega), if_neg hbelow]
  -- inside, the term comes from the unstable tail, the snapshot or the storage
  by_cases hin : index < l.unstable.offset
  · rw [Unstable.maybeTerm, if_pos hin]
    cases hs : l.unstable.snapshot with
    | some s =>
        have hfit := h.fits_snapshot s hs
        have hbase : l.base = s.metadata.index := by simp [base, hs]
        have heq : index = l.base := by omega
        simp [heq, hbase, baseTerm, hs]
    | none =>
        have hbase : l.base = l.storage.front.index := by simp [base, hs]
        have hstorage := storage_lastIndex l.storage
        obtain ⟨hlow, hhigh, -⟩ := h.fits hs
        have hlt : index - l.storage.front.index < l.storage.entries.length := by omega
        simp only [MemoryStorage.term]
        rw [if_neg (by omega), List.getElem?_eq_getElem hlt]
        by_cases heq : index = l.base
        · rw [if_pos heq]
          have hfront : l.storage.entries[index - l.storage.front.index] = l.storage.front := by
            simp only [show index - l.storage.front.index = 0 by omega]
            exact (List.head_eq_getElem l.storage.nonempty).symm
          simp [hfront, baseTerm, hs]
        · rw [if_neg heq]
          have hentry : l.logical[index - (l.base + 1)]? =
              some l.storage.entries[index - l.storage.front.index] := by
            simp only [logical, hs]
            rw [List.getElem?_append_left (by simp; omega), List.getElem?_take_of_lt (by omega),
              ← List.drop_one, List.getElem?_drop, hbase,
              show 1 + (index - (l.storage.front.index + 1)) = index - l.storage.front.index by
                omega, List.getElem?_eq_getElem hlt]
          simp [hentry]
  · have hne : l.unstable.entries ≠ [] := by
      intro hnil
      simp only [hnil, List.length_nil] at hoffset
      omega
    have hlt : index - l.unstable.offset < l.unstable.entries.length := by omega
    have hmaybe : l.unstable.maybeTerm index =
        some l.unstable.entries[index - l.unstable.offset].term := by
      unfold Unstable.maybeTerm Unstable.maybeLastIndex
      rw [if_neg hin, if_pos hne]
      simp only
      rw [if_neg (by omega), List.getElem?_eq_getElem hlt]
      rfl
    have hentry : l.logical[index - (l.base + 1)]? =
        some l.unstable.entries[index - l.unstable.offset] := by
      have hlen : l.logical.length - l.unstable.entries.length =
          l.unstable.offset - (l.base + 1) := by omega
      unfold logical at hlen ⊢
      cases hs : l.unstable.snapshot with
      | some s =>
          have hfit := h.fits_snapshot s hs
          have hbase : l.base = s.metadata.index := by simp [base, hs]
          simp only
          rw [show index - (l.base + 1) = index - l.unstable.offset by omega,
            List.getElem?_eq_getElem hlt]
      | none =>
          have hbase : l.base = l.storage.front.index := by simp [base, hs]
          obtain ⟨hlow, hhigh, -⟩ := h.fits hs
          simp only [hs, List.length_append, Nat.add_sub_cancel] at hlen
          have hle : (l.storage.entries.tail.take
              (l.unstable.offset - (l.storage.front.index + 1))).length ≤ index - (l.base + 1) := by
            omega
          simp only
          rw [List.getElem?_append_right hle, hlen,
            show index - (l.base + 1) - (l.unstable.offset - (l.base + 1)) =
              index - l.unstable.offset by omega, List.getElem?_eq_getElem hlt]
    have hne : index ≠ l.base := by
      have := h.base_lt_offset
      omega
    rw [hmaybe, if_neg hne, hentry]
    rfl

/-- The storage's part of a read, before it is cut to size. -/
theorem storage_segment {l : RaftLog} (h : l.WF) (hs : l.unstable.snapshot = none) {low high : Nat}
    (hlow : l.base + 1 ≤ low) (hhigh : high ≤ l.unstable.offset) :
    (l.storage.entries.take (high - l.storage.front.index)).drop (low - l.storage.front.index) =
      (l.logical.drop (low - (l.base + 1))).take (high - low) := by
  have hbase : l.base = l.storage.front.index := by simp [base, hs]
  obtain ⟨hfit, hlast, -⟩ := h.fits hs
  have hstorage := storage_lastIndex l.storage
  simp only [logical, hs]
  rw [List.drop_append, List.take_append, List.drop_take, List.drop_take, List.take_take]
  have hentries : l.storage.entries.drop (low - l.storage.front.index) =
      l.storage.entries.tail.drop (low - (l.base + 1)) := by
    rw [← List.drop_one, List.drop_drop]
    congr 1
    omega
  rw [hentries, Nat.min_eq_left (by omega)]
  have hrest : ∀ x : List Entry, x.take (high - low - (List.take (l.unstable.offset -
      (l.storage.front.index + 1) - (low - (l.base + 1))) (l.storage.entries.tail.drop
        (low - (l.base + 1)))).length) = [] := by
    intro x
    rw [List.take_eq_nil_iff]
    left
    simp
    omega
  rw [hrest, List.append_nil]
  congr 1
  omega

theorem entriesOf_eq {l : RaftLog} (h : l.WF) (hs : l.unstable.snapshot = none)
    {low high maxSize : Nat} (hlow : l.base + 1 ≤ low) (hlt : low < high)
    (hhigh : high ≤ l.unstable.offset) :
    l.storage.entriesOf low high maxSize =
      Except.ok (Except.ok (entryLimitSize maxSize
        ((l.logical.drop (low - (l.base + 1))).take (high - low)))) := by
  have hbase : l.base = l.storage.front.index := by simp [base, hs]
  obtain ⟨hfit, hlast, -⟩ := h.fits hs
  have hstorage := storage_lastIndex l.storage
  rw [← storage_segment h hs hlow hhigh, MemoryStorage.entriesOf]
  simp only [hlt, not_true_eq_false, if_false]
  rw [if_neg (by omega), if_neg (by omega), if_neg (by omega)]
  rfl

/-- The unstable tail's part of a read. -/
theorem unstable_slice_eq {l : RaftLog} (h : l.WF) {low high : Nat} (hlow : l.unstable.offset ≤ low)
    (hlt : low < high) (hhigh : high ≤ l.base + l.logical.length + 1) :
    l.unstable.slice low high =
      Except.ok ((l.logical.drop (low - (l.base + 1))).take (high - low)) := by
  have hoffset := h.offset_eq
  have hbase := h.base_lt_offset
  rw [Unstable.slice, if_neg (by omega), if_neg (by omega), List.drop_take,
    show high - l.unstable.offset - (low - l.unstable.offset) = high - low by omega]
  have hdrop : l.logical.drop (low - (l.base + 1)) =
      l.unstable.entries.drop (low - l.unstable.offset) := by
    unfold logical at hoffset ⊢
    cases hs : l.unstable.snapshot with
    | some s =>
        have hfit := h.fits_snapshot s hs
        have hbase : l.base = s.metadata.index := by simp [base, hs]
        simp only
        congr 1
        omega
    | none =>
        have hbase : l.base = l.storage.front.index := by simp [base, hs]
        simp only [hs, List.length_append] at hoffset
        simp only
        rw [List.drop_append, List.drop_eq_nil_of_le (by omega), List.nil_append]
        congr 1
        omega
  rw [hdrop]
  rfl

/-- **What `slice` reads is the represented log**, cut to size. -/
theorem slice_eq {l : RaftLog} (h : l.WF) {low high : Nat} (maxSize : Nat) (hlow : l.base + 1 ≤ low)
    (hle : low ≤ high) (hhigh : high ≤ l.base + l.logical.length + 1) :
    l.slice low high maxSize =
      Except.ok (Except.ok (entryLimitSize maxSize
        ((l.logical.drop (low - (l.base + 1))).take (high - low)))) := by
  have hlast := lastIndex_eq h
  have hoffset := h.offset_eq
  have hbase := h.base_lt_offset
  have hcheck : l.mustCheckOutOfBounds low high = Except.ok Status.ok := by
    rw [mustCheckOutOfBounds, firstIndex_eq, if_neg (by omega), if_neg (by omega),
      if_neg (by omega)]
    rfl
  rw [slice, hcheck]
  simp only [Outcome.ok_bind, ne_eq, not_true_eq_false, if_false]
  by_cases heq : low = high
  · subst heq
    simp [entryLimitSize, pure, Except.pure]
  simp only [heq, if_false]
  by_cases hstable : low < l.unstable.offset
  · have hs : l.unstable.snapshot = none := by
      cases hs : l.unstable.snapshot with
      | none => rfl
      | some s =>
          have hfit := h.fits_snapshot s hs
          have : l.base = s.metadata.index := by simp [base, hs]
          omega
    rw [if_pos hstable, entriesOf_eq h hs hlow (by omega) (Nat.min_le_right _ _)]
    simp only [Outcome.ok_bind, hstable, true_and]
    -- the storage's part, and the rest
    set seg := l.logical.drop (low - (l.base + 1)) with hseg
    have hseglen : seg.length = l.logical.length - (low - (l.base + 1)) := by simp [hseg]
    have hparts : seg.take (high - low) = seg.take (min high l.unstable.offset - low) ++
        (seg.drop (min high l.unstable.offset - low)).take (high - min high l.unstable.offset) := by
      rw [show high - low = (min high l.unstable.offset - low) +
        (high - min high l.unstable.offset) by omega, List.take_add]
    have hlen : (seg.take (min high l.unstable.offset - low)).length =
        min high l.unstable.offset - low := by
      rw [List.length_take, hseglen]
      omega
    by_cases hcut : (entryLimitSize maxSize (seg.take (min high l.unstable.offset - low))).length <
        min high l.unstable.offset - low
    · rw [if_pos hcut, hparts, entryLimitSize_append_of_lt _ (by rwa [hlen])]
      rfl
    · rw [if_neg hcut, entryLimitSize_eq_self (by rw [hlen]; omega)]
      by_cases hmore : high > l.unstable.offset
      · rw [if_pos hmore, unstable_slice_eq h (Nat.le_max_right _ _) (by omega) hhigh]
        simp only [Outcome.ok_bind]
        rw [hparts, hseg, List.drop_drop, Nat.min_eq_right (by omega), Nat.max_eq_right (by omega),
          show low - (l.base + 1) + (l.unstable.offset - low) = l.unstable.offset - (l.base + 1) by
            omega]
        rfl
      · rw [if_neg hmore, Nat.min_eq_left (by omega)]
        simp only [pure_bind, List.append_nil]
        rfl
  · rw [if_neg hstable]
    simp only [pure_bind, hstable, false_and, if_false]
    rw [if_pos (by omega), Nat.max_eq_left (by omega), unstable_slice_eq h (by omega) (by omega)
      hhigh]
    rfl

/-! ## Writing -/

theorem base_congr {l l' : RaftLog} (hstorage : l'.storage = l.storage)
    (hsnapshot : l'.unstable.snapshot = l.unstable.snapshot) :
    l'.base = l.base ∧ l'.baseTerm = l.baseTerm := by
  simp [base, baseTerm, hstorage, hsnapshot]

/-- The unstable tail after a batch that starts at most one past the end. -/
theorem truncateAndAppend_eq_ok {u u' : Unstable} {e : Entry} {es : List Entry}
    (h : u.truncateAndAppend (e :: es) = Except.ok u') :
    u'.snapshot = u.snapshot ∧ e.index ≤ u.offset + u.entries.length ∧
      u'.offset = min u.offset e.index ∧
      u'.entries = u.entries.take (e.index - u.offset) ++ e :: es := by
  simp only [Unstable.truncateAndAppend] at h
  split at h
  · rename_i hend
    obtain rfl := Outcome.pure_eq_ok.mp h
    refine ⟨rfl, by omega, by simp; omega, ?_⟩
    rw [List.take_of_length_le (by omega)]
  · split at h
    · rename_i hfront
      obtain rfl := Outcome.pure_eq_ok.mp h
      refine ⟨rfl, by omega, by simp; omega, ?_⟩
      rw [show e.index - u.offset = 0 by omega]
      simp
    · rename_i hend hfront
      obtain ⟨kept, hkept, h⟩ := Outcome.bind_eq_ok.mp h
      obtain rfl := Outcome.pure_eq_ok.mp h
      rw [Unstable.slice, if_neg (by omega)] at hkept
      split at hkept
      · cases hkept
      · rename_i hin
        obtain rfl := Outcome.pure_eq_ok.mp hkept
        exact ⟨rfl, by omega, by simp; omega, by simp⟩

/-- A batch changes the unstable tail only. -/
theorem append_unstable {l l' : RaftLog} {e : Entry} {es : List Entry} {last : Nat}
    (h : l.append (e :: es) = Except.ok (l', last)) :
    l.unstable.truncateAndAppend (e :: es) = Except.ok l'.unstable ∧
      l' = { l with unstable := l'.unstable } := by
  rw [append] at h
  split at h
  · cases h
  · obtain ⟨u, hu, h⟩ := Outcome.bind_eq_ok.mp h
    cases h
    exact ⟨hu, rfl⟩

/-- **Appending cuts the represented log at the batch's first index and extends it by the batch.** -/
theorem append_eq_ok {l l' : RaftLog} {e : Entry} {es : List Entry} {last : Nat} (h : l.WF)
    (hbase : l.base ≤ l.committed) (hnum : Numbered e.index (e :: es)) (hpos : 0 < e.index)
    (happend : l.append (e :: es) = Except.ok (l', last)) :
    l'.WF ∧ l.committed < e.index ∧ e.index ≤ l.base + l.logical.length + 1 ∧
      l' = { l with unstable := l'.unstable } ∧
      l'.unstable.snapshot = l.unstable.snapshot ∧
      l'.logical = l.logical.take (e.index - (l.base + 1)) ++ e :: es ∧
      last = l'.lastIndex := by
  have hoffset := h.offset_eq
  have hlow := h.base_lt_offset
  simp only [append] at happend
  split at happend
  · cases happend
  rename_i hcommitted
  obtain ⟨u, hu, happend⟩ := Outcome.bind_eq_ok.mp happend
  simp only [Outcome.pure_eq_ok, Prod.mk.injEq] at happend
  obtain ⟨rfl, rfl⟩ := happend
  obtain ⟨hsnapshot, hend, huoffset, huentries⟩ := truncateAndAppend_eq_ok hu
  have hwf : ({ l with unstable := u } : RaftLog).WF := by
    refine ⟨h.stable, ?_, fun hs => ?_, fun s hs => ?_⟩
    · -- the kept part ends where the batch starts
      simp only [huoffset, huentries]
      rcases Nat.le_total l.unstable.offset e.index with hle | hle
      · rw [Nat.min_eq_left hle]
        refine (h.unstable.take _).append ?_
        rw [List.length_take, show l.unstable.offset +
          min (e.index - l.unstable.offset) l.unstable.entries.length = e.index by omega]
        exact hnum
      · rw [Nat.min_eq_right hle, show e.index - l.unstable.offset = 0 by omega]
        simpa using hnum
    · have hs' : l.unstable.snapshot = none := hsnapshot ▸ hs
      have hfit := h.fits hs'
      have hb : l.base = l.storage.front.index := by simp [base, hs']
      simp only [huoffset, huentries]
      exact ⟨by omega, by omega, by simp⟩
    · have hs' : l.unstable.snapshot = some s := hsnapshot ▸ hs
      have hfit := h.fits_snapshot s hs'
      have hb : l.base = s.metadata.index := by simp [base, hs']
      simp only [huoffset]
      omega
  refine ⟨hwf, by omega, by omega, rfl, hsnapshot, ?_, rfl⟩
  unfold logical at hoffset ⊢
  simp only [hsnapshot, huoffset, huentries]
  cases hs : l.unstable.snapshot with
  | some s =>
      have hfit := h.fits_snapshot s hs
      have hb : l.base = s.metadata.index := by simp [base, hs]
      simp only
      rw [show e.index - l.unstable.offset = e.index - (l.base + 1) by omega]
  | none =>
      have hfit := h.fits hs
      have hstorage := storage_lastIndex l.storage
      have hb : l.base = l.storage.front.index := by simp [base, hs]
      simp only
      rw [List.take_append, List.take_take, List.length_take, List.length_tail, List.append_assoc]
      congr 2
      · omega
      · congr 1
        omega

theorem commitTo_eq_ok {l l' : RaftLog} {toCommit : Nat} (h : l.commitTo toCommit = Except.ok l') :
    l' = { l with committed := max l.committed toCommit } ∧
      (toCommit ≤ l.committed ∨ toCommit ≤ l.lastIndex) := by
  rw [commitTo] at h
  split at h
  · rename_i hlt
    split at h
    · cases h
    · rw [← Outcome.pure_eq_ok.mp h, Nat.max_eq_right (by omega)]
      exact ⟨rfl, Or.inr (by omega)⟩
  · rw [← Outcome.pure_eq_ok.mp h, Nat.max_eq_left (by omega)]
    exact ⟨rfl, Or.inl (by omega)⟩

/-- The first conflict splits the batch. -/
theorem findConflict_cases {l : RaftLog} : ∀ {es : List Entry}, (∀ e ∈ es, 0 < e.index) →
    (l.findConflict es = 0 ∧ ∀ e ∈ es, l.matchTerm e.index e.term = true) ∨
    ∃ (pre : List Entry) (e : Entry) (post : List Entry), es = pre ++ e :: post ∧
      l.findConflict es = e.index ∧ (∀ x ∈ pre, l.matchTerm x.index x.term = true) ∧
      l.matchTerm e.index e.term = false
  | [], _ => Or.inl ⟨rfl, by simp⟩
  | e :: es, hpos => by
      rw [findConflict]
      by_cases hm : l.matchTerm e.index e.term = true
      · rw [if_pos hm]
        rcases findConflict_cases (fun x hx => hpos x (List.mem_cons_of_mem _ hx)) with
          ⟨h₀, hall⟩ | ⟨pre, x, post, rfl, hx, hpre, hconf⟩
        · exact Or.inl ⟨h₀, by simp [hm]; exact hall⟩
        · exact Or.inr ⟨e :: pre, x, post, rfl, hx, by simp [hm]; exact hpre, hconf⟩
      · rw [if_neg hm]
        exact Or.inr ⟨[], e, es, rfl, rfl, by simp, by simpa using hm⟩

/-- The batch is in the log, or the log is cut at the first conflict and extended. -/
theorem appendNew_cases {l l' : RaftLog} {index : Nat} {es : List Entry}
    (hnum : Numbered (index + 1) es) (h : l.appendNew index es = Except.ok l') :
    (l' = l ∧ ∀ e ∈ es, l.matchTerm e.index e.term = true) ∨
    ∃ (pre : List Entry) (e : Entry) (post : List Entry) (last : Nat), es = pre ++ e :: post ∧
      (∀ x ∈ pre, l.matchTerm x.index x.term = true) ∧ l.matchTerm e.index e.term = false ∧
      l.committed < e.index ∧ l.append (e :: post) = Except.ok (l', last) := by
  have hpos : ∀ e ∈ es, 0 < e.index := by
    intro e he
    obtain ⟨k, hk⟩ := List.getElem?_of_mem he
    have := hnum k e hk
    omega
  simp only [appendNew] at h
  rcases findConflict_cases (l := l) hpos with ⟨h₀, hall⟩ | ⟨pre, e, post, rfl, hconf, hpre, hfirst⟩
  · rw [if_pos h₀] at h
    exact Or.inl ⟨(Outcome.pure_eq_ok.mp h).symm, hall⟩
  · have hindex : e.index = index + 1 + pre.length := hnum pre.length e (by simp)
    rw [hconf, if_neg (by omega)] at h
    split at h
    · cases h
    rename_i hcommitted
    rw [if_neg (by simp; omega), show e.index - (index + 1) = pre.length by omega,
      List.drop_left] at h
    obtain ⟨⟨l₃, last⟩, h₃, h⟩ := Outcome.bind_eq_ok.mp h
    obtain rfl := Outcome.pure_eq_ok.mp h
    exact Or.inr ⟨pre, e, post, last, rfl, hpre, hfirst, by omega, h₃⟩

/-- **What an append request does**: it is refused, or the entries are all there, or the log is cut
at the first conflict and extended; then the commit index follows. -/
theorem maybeAppend_cases {l l' : RaftLog} {index logTerm committed : Nat} {es : List Entry}
    {res : Option Nat} (hnum : Numbered (index + 1) es)
    (h : l.maybeAppend index logTerm committed es = Except.ok (l', res)) :
    (l.matchTerm index logTerm = false ∧ l' = l ∧ res = none) ∨
    (l.matchTerm index logTerm = true ∧ res = some (index + es.length) ∧ ∃ l₁,
      l₁.commitTo (min committed (index + es.length)) = Except.ok l' ∧
      ((l₁ = l ∧ ∀ e ∈ es, l.matchTerm e.index e.term = true) ∨
        ∃ (pre : List Entry) (e : Entry) (post : List Entry) (last : Nat), es = pre ++ e :: post ∧
          (∀ x ∈ pre, l.matchTerm x.index x.term = true) ∧ l.matchTerm e.index e.term = false ∧
          l.committed < e.index ∧ l.append (e :: post) = Except.ok (l₁, last))) := by
  rw [maybeAppend] at h
  by_cases hm : l.matchTerm index logTerm = true
  · rw [if_pos hm] at h
    obtain ⟨l₁, h₁, h⟩ := Outcome.bind_eq_ok.mp h
    obtain ⟨l₂, h₂, h⟩ := Outcome.bind_eq_ok.mp h
    simp only [Outcome.pure_eq_ok, Prod.mk.injEq] at h
    obtain ⟨rfl, rfl⟩ := h
    exact Or.inr ⟨hm, rfl, l₁, h₂, appendNew_cases hnum h₁⟩
  · rw [if_neg hm] at h
    simp only [Outcome.pure_eq_ok, Prod.mk.injEq] at h
    exact Or.inl ⟨by simpa using hm, h.1.symm, h.2.symm⟩

end RaftLog

end RaftKv
