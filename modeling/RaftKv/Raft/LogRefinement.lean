import Mathlib.Data.List.TakeWhile
import Mathlib.Order.Basic
import RaftKv.Core.Run
import RaftKv.Raft.StoredLog

/-!
# One logical list

`RaftLog` keeps its entries in two places, the storage and the unstable tail, whose ranges overlap,
shrink and are replaced.  Together they are one list behind one compacted position.

* `ListLog` — the list, and what each operation does to it.
* `LogOp` — an operation of the code; `LogOp.act` is what the code does, `LogOp.actList` the
  corresponding list operation.
* `RaftLog.Represents` — the representation invariant.
* `LogOp.act_refines` — **one operation**: the code's result represents the list's.
* `RaftLog.refines_listLog` — **every read of the log is a read of the list**, after any operations.
-/

namespace RaftKv

/-! ## The list -/

/-- A compacted position, the entries behind it, and the index up to which they were stored. -/
structure ListLog where
  base : Nat
  baseTerm : Nat
  entries : List Entry
  stored : Nat
  deriving DecidableEq, Repr

namespace ListLog

def firstIndex (a : ListLog) : Nat := a.base + 1

def lastIndex (a : ListLog) : Nat := a.base + a.entries.length

/-- The term at an index; 0 outside of the list. -/
def term (a : ListLog) (i : Nat) : Nat :=
  if i < a.base then 0
  else if i = a.base then a.baseTerm
  else (a.entries[i - (a.base + 1)]?.map Entry.term).getD 0

lemma term_of_lt {a : ListLog} {i : Nat} (h : a.base < i) :
    a.term i = (a.entries[i - (a.base + 1)]?.map Entry.term).getD 0 := by
  rw [term, if_neg (by omega), if_neg (by omega)]

def unstableEntries (a : ListLog) : List Entry := a.entries.drop (a.stored - a.base)

/-- The entries of `[low, high)`. -/
def window (a : ListLog) (low high : Nat) : List Entry :=
  (a.entries.drop (low - (a.base + 1))).take (high - low)

/-- Cut the list at the first index of a batch, and extend it by the batch. -/
def append (a : ListLog) : List Entry → ListLog
  | [] => a
  | e :: es =>
      { a with
        entries := a.entries.take (e.index - (a.base + 1)) ++ e :: es
        stored := min a.stored (e.index - 1) }

/-- Append what of a batch differs from the list, if the list has `logTerm` at `index`. -/
def maybeAppend (a : ListLog) (index logTerm : Nat) (es : List Entry) : ListLog :=
  if a.term index = logTerm then a.append (es.dropWhile fun e => a.term e.index == e.term) else a

def restore (snapshot : Snapshot) : ListLog :=
  { base := snapshot.metadata.index
    baseTerm := snapshot.metadata.term
    entries := []
    stored := snapshot.metadata.index }

def store (a : ListLog) : ListLog := { a with stored := a.lastIndex }

/-- Forget the entries up to `i`, unless they were forgotten before. -/
def compact (a : ListLog) (i : Nat) : ListLog :=
  if i ≤ a.base then a
  else { a with base := i, baseTerm := a.term i, entries := a.entries.drop (i - a.base) }

/-- The list that a storage holds. -/
def ofStorage (s : MemoryStorage) : ListLog :=
  { base := s.front.index
    baseTerm := s.front.term
    entries := s.stored
    stored := s.lastIndex }

end ListLog

/-! ## The longest prefix of a size -/

/-- What the entries of a batch add up to. -/
def sizeSum : List Entry → Nat
  | [] => 0
  | e :: es => e.serializeSize + sizeSum es

/-- A single entry is never too large. -/
def FitsSize (maxSize : Nat) (es : List Entry) : Prop := es.length ≤ 1 ∨ sizeSum es ≤ maxSize

/-- The longest prefix that adds up to at most `maxSize`, but at least one entry. -/
structure IsLongestPrefix (maxSize : Nat) (es p : List Entry) : Prop where
  isPrefix : p <+: es
  fits : FitsSize maxSize p
  longest : ∀ q, q <+: es → FitsSize maxSize q → q.length ≤ p.length

@[simp] lemma sizeSum_nil : sizeSum [] = 0 := rfl

@[simp] lemma sizeSum_cons (e : Entry) (es : List Entry) :
    sizeSum (e :: es) = e.serializeSize + sizeSum es := rfl

lemma limitAfter_fits {maxSize size : Nat} {es : List Entry} :
    limitAfter maxSize size es = [] ∨ size + sizeSum (limitAfter maxSize size es) ≤ maxSize := by
  induction es generalizing size with
  | nil => exact Or.inl rfl
  | cons e es ih =>
      rw [limitAfter]
      split
      · exact Or.inl rfl
      · rename_i hfits
        right
        rw [sizeSum_cons]
        rcases @ih (size + e.serializeSize) with hnil | hle
        · rw [hnil, sizeSum_nil]
          omega
        · omega

lemma limitAfter_longest {maxSize size : Nat} {es q : List Entry} (hq : q <+: es)
    (hfits : size + sizeSum q ≤ maxSize) : q.length ≤ (limitAfter maxSize size es).length := by
  induction es generalizing size q with
  | nil => simp [List.prefix_nil.mp hq]
  | cons e es ih =>
      cases q with
      | nil => exact Nat.zero_le _
      | cons e' q =>
          obtain ⟨rfl, hrest⟩ := List.cons_prefix_cons.mp hq
          rw [sizeSum_cons] at hfits
          rw [limitAfter, if_neg (by omega), List.length_cons, List.length_cons]
          have hsum : size + e'.serializeSize + sizeSum q ≤ maxSize := by omega
          exact Nat.succ_le_succ (ih hrest hsum)

/-- **`entry_limit_size` keeps the longest prefix that fits.** -/
theorem entryLimitSize_isLongestPrefix (maxSize : Nat) (es : List Entry) :
    IsLongestPrefix maxSize es (entryLimitSize maxSize es) := by
  refine ⟨entryLimitSize_isPrefix maxSize es, ?_, ?_⟩
  · cases es with
    | nil => exact Or.inl (Nat.zero_le _)
    | cons e es =>
        rw [entryLimitSize]
        rcases @limitAfter_fits maxSize e.serializeSize es with hnil | hle
        · left
          rw [hnil]
          exact Nat.le_refl _
        · right
          rwa [sizeSum_cons]
  · intro q hq hfits
    cases es with
    | nil => simp [List.prefix_nil.mp hq]
    | cons e es =>
        cases q with
        | nil => exact Nat.zero_le _
        | cons e' q =>
            obtain ⟨rfl, hrest⟩ := List.cons_prefix_cons.mp hq
            rw [entryLimitSize, List.length_cons, List.length_cons]
            rcases hfits with hone | hle
            · rw [List.length_cons] at hone
              omega
            · rw [sizeSum_cons] at hle
              exact Nat.succ_le_succ (limitAfter_longest hrest hle)

/-! ## The operations -/

inductive LogOp where
  | append (entries : List Entry)
  | maybeAppend (index logTerm committed : Nat) (entries : List Entry)
  | commitTo (index : Nat)
  | restore (snapshot : Snapshot)
  /-- The unstable entries are appended to the storage, and `stable_to` is called. -/
  | storeEntries
  /-- The unstable snapshot is applied to the storage, and `stable_snap_to` is called. -/
  | storeSnapshot
  /-- Both, in the order of a `Ready`: first the storage, the snapshot before the entries; then
  `stable_to` and `stable_snap_to`. -/
  | storeReady
  | appliedTo (index : Nat)
  /-- `MemoryStorage::compact`. -/
  | compact (index : Nat)

namespace LogOp

/-- What the code does. -/
def act (l : RaftLog) : LogOp → Outcome RaftLog
  | append entries => do
      let (l, _) ← l.append entries
      return l
  | maybeAppend index logTerm committed entries => do
      let (l, _) ← l.maybeAppend index logTerm committed entries
      return l
  | commitTo index => l.commitTo index
  | restore snapshot => pure (l.restore snapshot)
  | storeEntries => do
      let storage ← l.storage.append l.unstable.entries
      match l.unstable.entries.getLast? with
      | none => return l.setStorage storage
      | some e => return (l.setStorage storage).stableTo e.index e.term
  | storeSnapshot =>
      match l.unstable.snapshot with
      | none => pure l
      | some s =>
          pure ((l.setStorage (l.storage.applySnapshot s).1).stableSnapTo s.metadata.index)
  | storeReady => do
      let storage := match l.unstable.snapshot with
        | none => l.storage
        | some s => (l.storage.applySnapshot s).1
      let storage ← storage.append l.unstable.entries
      let stable := match l.unstable.entries.getLast? with
        | none => l.setStorage storage
        | some e => (l.setStorage storage).stableTo e.index e.term
      match l.unstable.snapshot with
      | none => return stable
      | some s => return stable.stableSnapTo s.metadata.index
  | appliedTo index => pure (l.appliedTo index)
  | compact index => do
      let (storage, _) ← l.storage.compact index
      return l.setStorage storage

/-- What happens to the list. -/
def actList (a : ListLog) : LogOp → ListLog
  | append entries => a.append entries
  | maybeAppend index logTerm _ entries => a.maybeAppend index logTerm entries
  | commitTo _ => a
  | restore snapshot => ListLog.restore snapshot
  | storeEntries => a.store
  | storeSnapshot => a
  | storeReady => a.store
  | appliedTo _ => a
  | compact index => a.compact index

/-- Batches are of consecutive entries, a restored snapshot is above the commit index, only
committed entries are applied and only applied ones are compacted. -/
def Proper (l : RaftLog) : LogOp → Prop
  | append entries => ∀ e ∈ entries.head?, 0 < e.index ∧ Numbered e.index entries
  | maybeAppend index _ _ entries => Numbered (index + 1) entries
  | restore snapshot => l.committed < snapshot.metadata.index
  | appliedTo index => index ≤ l.committed
  | compact index => index ≤ l.applied
  | _ => True

/-- Entries go to the storage behind a snapshot, and are applied once they are there. -/
def StoredFirst (l : RaftLog) : LogOp → Prop
  | storeEntries => l.unstable.snapshot = none
  | appliedTo index => index < l.unstable.offset
  | _ => True

instance (l : RaftLog) : (op : LogOp) → Decidable (op.Proper l)
  | append entries =>
      inferInstanceAs (Decidable (∀ e ∈ entries.head?, 0 < e.index ∧ Numbered e.index entries))
  | maybeAppend index _ _ entries => inferInstanceAs (Decidable (Numbered (index + 1) entries))
  | commitTo _ => inferInstanceAs (Decidable True)
  | restore snapshot => inferInstanceAs (Decidable (l.committed < snapshot.metadata.index))
  | storeEntries => inferInstanceAs (Decidable True)
  | storeSnapshot => inferInstanceAs (Decidable True)
  | storeReady => inferInstanceAs (Decidable True)
  | appliedTo index => inferInstanceAs (Decidable (index ≤ l.committed))
  | compact index => inferInstanceAs (Decidable (index ≤ l.applied))

instance (l : RaftLog) : (op : LogOp) → Decidable (op.StoredFirst l)
  | storeEntries => inferInstanceAs (Decidable (l.unstable.snapshot = none))
  | appliedTo index => inferInstanceAs (Decidable (index < l.unstable.offset))
  | append _ => inferInstanceAs (Decidable True)
  | maybeAppend .. => inferInstanceAs (Decidable True)
  | commitTo _ => inferInstanceAs (Decidable True)
  | restore _ => inferInstanceAs (Decidable True)
  | storeSnapshot => inferInstanceAs (Decidable True)
  | storeReady => inferInstanceAs (Decidable True)
  | compact _ => inferInstanceAs (Decidable True)

end LogOp

/-! ## The representation -/

namespace RaftLog

/-- The list that a log represents. -/
def list (l : RaftLog) : ListLog :=
  { base := l.base
    baseTerm := l.baseTerm
    entries := l.logical
    stored := l.unstable.offset - 1 }

/-- **The representation invariant.** -/
structure Represents (l : RaftLog) : Prop where
  wf : l.WF
  base_le : l.base ≤ l.committed
  applied_le : l.applied ≤ l.committed
  applied_lt : l.applied < l.unstable.offset
  snapshot_le : l.storage.snapshot.metadata.index ≤ l.committed
  snapshot_lt : ∀ s, l.unstable.snapshot = some s →
    l.storage.snapshot.metadata.index < s.metadata.index

variable {l l' : RaftLog}

lemma term_list (h : l.WF) (i : Nat) : l.term i = Except.ok (l.list.term i) := term_eq h i

lemma matchTerm_list (h : l.WF) (i t : Nat) : l.matchTerm i t = (t == l.list.term i) := by
  rw [matchTerm, term_list h]

lemma unstable_entries_list (h : l.WF) : l.unstable.entries = l.list.unstableEntries := by
  have hoffset := h.offset_eq
  have hbase := h.base_lt_offset
  simp only [ListLog.unstableEntries, list]
  unfold logical at hoffset ⊢
  cases hs : l.unstable.snapshot with
  | some s =>
      have hfit := h.fits_snapshot s hs
      have hb : l.base = s.metadata.index := by simp [base, hs]
      simp only
      rw [show l.unstable.offset - 1 - l.base = 0 by omega, List.drop_zero]
  | none =>
      have hb : l.base = l.storage.front.index := by simp [base, hs]
      obtain ⟨hlow, hhigh, -⟩ := h.fits hs
      simp only [hs, List.length_append] at hoffset
      simp only
      rw [List.drop_append, List.drop_eq_nil_of_le (by omega), List.nil_append,
        show l.unstable.offset - 1 - l.base - (l.storage.entries.tail.take
          (l.unstable.offset - (l.storage.front.index + 1))).length = 0 by omega, List.drop_zero]

/-! ## One operation -/

lemma lastIndex_list (h : l.WF) : l.lastIndex = l.list.lastIndex := lastIndex_eq h

/-- **`append`** cuts the list and extends it. -/
theorem append_list {es : List Entry} {n last : Nat} (h : l.Represents) (hn : 0 < n)
    (hnum : Numbered n es) (hact : l.append es = Except.ok (l', last)) :
    l'.Represents ∧ l'.list = l.list.append es ∧ l'.committed = l.committed := by
  cases es with
  | nil =>
      cases hact
      exact ⟨h, rfl, rfl⟩
  | cons e es =>
      have he := hnum.head
      obtain ⟨hwf, hcommitted, hend, hl', hsnapshot, hlogical, -⟩ :=
        append_eq_ok h.wf h.base_le (by rwa [he]) (by omega) hact
      have hstorage : l'.storage = l.storage := by rw [hl']
      have hcommit : l'.committed = l.committed := by rw [hl']
      have happlied : l'.applied = l.applied := by rw [hl']
      obtain ⟨hbase, hterm⟩ := base_congr hstorage hsnapshot
      obtain ⟨-, -, hoffset, -⟩ := truncateAndAppend_eq_ok (append_unstable hact).1
      have hlow := h.wf.base_lt_offset
      have hbl := h.base_le
      refine ⟨⟨hwf, ?_, ?_, ?_, ?_, ?_⟩, ?_, hcommit⟩
      · rw [hbase, hcommit]
        exact h.base_le
      · rw [happlied, hcommit]
        exact h.applied_le
      · have := h.applied_lt
        have := h.applied_le
        rw [happlied, hoffset]
        omega
      · rw [hstorage, hcommit]
        exact h.snapshot_le
      · rw [hstorage, hsnapshot]
        exact h.snapshot_lt
      · simp only [list, ListLog.append, hbase, hterm, hlogical, hoffset, ListLog.mk.injEq, true_and]
        omega

lemma Represents.commitTo {i : Nat} (h : l.Represents) (hact : l.commitTo i = Except.ok l') :
    l'.Represents ∧ l'.list = l.list := by
  obtain ⟨rfl, -⟩ := commitTo_eq_ok hact
  refine ⟨⟨⟨h.wf.stable, h.wf.unstable, h.wf.fits, h.wf.fits_snapshot⟩, ?_, ?_, h.applied_lt, ?_,
    h.snapshot_lt⟩, rfl⟩
  · exact h.base_le.trans (Nat.le_max_left ..)
  · exact h.applied_le.trans (Nat.le_max_left ..)
  · exact h.snapshot_le.trans (Nat.le_max_left ..)

/-- **`maybe_append`** appends what differs, behind a matching position. -/
theorem maybeAppend_list {index logTerm committed : Nat} {es : List Entry} {res : Option Nat}
    (h : l.Represents) (hnum : Numbered (index + 1) es)
    (hact : l.maybeAppend index logTerm committed es = Except.ok (l', res)) :
    l'.Represents ∧ l'.list = l.list.maybeAppend index logTerm es := by
  have hkeep : ∀ e : Entry, l.matchTerm e.index e.term = (l.list.term e.index == e.term) := by
    intro e
    rw [matchTerm_list h.wf, Bool.beq_comm]
  rcases maybeAppend_cases hnum hact with ⟨hm, rfl, -⟩ | ⟨hm, -, l₁, hcommit, hcase⟩
  · refine ⟨h, ?_⟩
    rw [matchTerm_list h.wf, beq_eq_false_iff_ne] at hm
    rw [ListLog.maybeAppend, if_neg (Ne.symm hm)]
  · rw [matchTerm_list h.wf, beq_iff_eq] at hm
    rw [ListLog.maybeAppend, if_pos hm.symm]
    rcases hcase with ⟨rfl, hall⟩ | ⟨pre, e, post, last, rfl, hpre, hconf, -, happend⟩
    · have hnew : es.dropWhile (fun e => l₁.list.term e.index == e.term) = [] :=
        List.dropWhile_eq_nil_iff.mpr fun e he => by rw [← hkeep]; exact hall e he
      rw [hnew]
      exact h.commitTo hcommit
    · have hnew : (pre ++ e :: post).dropWhile (fun e => l.list.term e.index == e.term) =
          e :: post := by
        rw [List.dropWhile_append_of_pos fun x hx => by rw [← hkeep]; exact hpre x hx,
          List.dropWhile_cons_of_neg]
        rw [← hkeep, hconf]
        exact Bool.false_ne_true
      have hindex := hnum.drop pre.length
      rw [List.drop_left] at hindex
      obtain ⟨h₁, hlist, -⟩ := append_list h (by omega) hindex happend
      rw [hnew, ← hlist]
      exact h₁.commitTo hcommit

/-- **`restore`** begins a new list behind a snapshot. -/
theorem restore_list {s : Snapshot} (h : l.Represents) (hs : l.committed < s.metadata.index) :
    (l.restore s).Represents ∧ (l.restore s).list = ListLog.restore s := by
  have happlied := h.applied_le
  have hsnapshot := h.snapshot_le
  refine ⟨⟨⟨h.wf.stable, Numbered.nil _, fun hn => ?_, fun s' hs' => ?_⟩, ?_, ?_, ?_, ?_,
    fun s' hs' => ?_⟩, rfl⟩
  · cases hn
  · cases hs'
    rfl
  · exact Nat.le_refl _
  · simp only [restore]
    omega
  · simp only [restore, Unstable.restore]
    omega
  · simp only [restore]
    omega
  · cases hs'
    exact lt_of_le_of_lt hsnapshot hs

/-- `stable_to` at the last unstable entry empties the tail. -/
lemma stableTo_last {u : Unstable} {e : Entry} (hnum : Numbered u.offset u.entries)
    (he : u.entries.getLast? = some e) :
    u.stableTo e.index e.term =
      { u with entries := [], offset := u.offset + u.entries.length } := by
  have hindex := hnum.getLast he
  have hne : u.entries ≠ [] := by
    rintro hnil
    rw [hnil] at he
    cases he
  have hpos := List.length_pos_iff.mpr hne
  have hterm : u.maybeTerm e.index = some e.term := by
    rw [List.getLast?_eq_getElem?] at he
    rw [Unstable.maybeTerm, if_neg (by omega), Unstable.maybeLastIndex, if_pos hne]
    dsimp only
    rw [if_neg (by omega), show e.index - u.offset = u.entries.length - 1 by omega, he]
    rfl
  rw [Unstable.stableTo, hterm]
  dsimp only
  rw [if_pos ⟨rfl, by omega⟩, List.drop_eq_nil_of_le (by omega)]
  simp only [Unstable.mk.injEq, true_and]
  omega

/-- The list of a log whose entries have all been stored. -/
lemma list_stored {storage : MemoryStorage} (h : l.WF) (hnone : l.unstable.snapshot = none)
    (hfront : storage.front = l.storage.front) (hstored : storage.stored = l.logical) :
    RaftLog.list { l with
      storage := storage
      unstable := { l.unstable with
        entries := [], offset := l.unstable.offset + l.unstable.entries.length } } =
      l.list.store := by
  have hoffset := h.offset_eq
  have hbase : l.base = l.storage.front.index := by simp [base, hnone]
  have htail : storage.entries.tail = l.logical := hstored
  simp only [list, ListLog.store, ListLog.lastIndex, ListLog.mk.injEq]
  refine ⟨?_, ?_, ?_, ?_⟩
  · simp [base, hnone, hfront]
  · simp [baseTerm, hnone, hfront]
  · refine (logical_of_snapshot_none (l := { l with
      storage := storage
      unstable := { l.unstable with
        entries := [], offset := l.unstable.offset + l.unstable.entries.length } }) hnone).trans ?_
    dsimp only
    rw [htail, hfront, List.append_nil, List.take_of_length_le (by omega)]
  · omega

/-- **Storing the unstable entries** leaves the list as it is. -/
theorem storeEntries_list (h : l.Represents) (hnone : l.unstable.snapshot = none)
    (hact : LogOp.storeEntries.act l = Except.ok l') :
    l'.Represents ∧ l'.list = l.list.store := by
  obtain ⟨storage, happend, hact⟩ := Outcome.bind_eq_ok.mp hact
  obtain ⟨hlow, hhigh, hempty⟩ := h.wf.fits hnone
  have hoffset := h.wf.offset_eq
  have hbase : l.base = l.storage.front.index := by simp [base, hnone]
  cases hlast : l.unstable.entries.getLast? with
  | none =>
      rw [hlast] at hact
      rw [List.getLast?_eq_none_iff] at hlast
      rw [hlast] at happend hoffset
      cases happend
      cases hact
      refine ⟨h, ?_⟩
      simp only [ListLog.store, ListLog.lastIndex, list, setStorage, ListLog.mk.injEq, true_and]
      rw [List.length_nil] at hoffset
      omega
  | some e =>
      obtain ⟨e₀, es₀, hne⟩ : ∃ e₀ es₀, l.unstable.entries = e₀ :: es₀ := by
        cases hu : l.unstable.entries with
        | nil =>
            rw [hu] at hlast
            cases hlast
        | cons e₀ es₀ => exact ⟨e₀, es₀, rfl⟩
      have hnum := h.wf.unstable
      have hlen : 0 < l.unstable.entries.length := by
        rw [hne]
        exact Nat.succ_pos _
      obtain ⟨storage', happend', hfront, hstored, hsnapshot, -⟩ :=
        MemoryStorage.append_numbered hnum (s := l.storage) (fun _ => hhigh)
      obtain rfl : storage' = storage := Except.ok.inj (happend'.symm.trans happend)
      have hlogical : storage'.stored = l.logical := by
        rw [hstored, hne, splice_of_le (by rw [hne] at hnum; exact hnum.head) hlow,
          logical_of_snapshot_none hnone, ← hne]
        rfl
      rw [hlast] at hact
      cases hact
      have hl' : (l.setStorage storage').stableTo e.index e.term = { l with
          storage := storage'
          unstable := { l.unstable with
            entries := [], offset := l.unstable.offset + l.unstable.entries.length } } := by
        simp only [stableTo, setStorage, stableTo_last hnum hlast]
      have hlast' := storage'.lastIndex_eq
      rw [hlogical, hfront] at hlast'
      have hnumbered := h.wf.numbered
      rw [hl']
      refine ⟨⟨⟨?_, Numbered.nil _, fun _ => ⟨?_, ?_, fun _ => ?_⟩, fun s hs => ?_⟩, ?_, h.applied_le,
        ?_, ?_, fun s hs => ?_⟩, ?_⟩
      · show Numbered storage'.front.index storage'.entries
        rw [storage'.entries_eq, hlogical, hfront, ← hbase]
        exact Numbered.cons hbase.symm hnumbered
      · show storage'.front.index + 1 ≤ _
        rw [hfront]
        exact hlow.trans (Nat.le_add_right ..)
      · show l.unstable.offset + l.unstable.entries.length ≤ storage'.lastIndex + 1
        omega
      · show l.unstable.offset + l.unstable.entries.length = storage'.lastIndex + 1
        omega
      · rw [hnone] at hs
        cases hs
      · have := h.base_le
        rw [hbase, ← hfront] at this
        simpa [base, hnone] using this
      · have := h.applied_lt
        show l.applied < l.unstable.offset + l.unstable.entries.length
        omega
      · show storage'.snapshot.metadata.index ≤ l.committed
        rw [hsnapshot]
        exact h.snapshot_le
      · rw [hnone] at hs
        cases hs
      · exact list_stored h.wf hnone hfront hlogical

/-- **Storing the unstable snapshot** leaves the list as it is. -/
theorem storeSnapshot_list (h : l.Represents) (hact : LogOp.storeSnapshot.act l = Except.ok l') :
    l'.Represents ∧ l'.list = l.list := by
  cases hs : l.unstable.snapshot with
  | none =>
      simp only [LogOp.act, hs] at hact
      cases hact
      exact ⟨h, rfl⟩
  | some s =>
      have hlt := h.snapshot_lt s hs
      have hoffset := h.wf.fits_snapshot s hs
      have hbase : l.base = s.metadata.index := by simp [base, hs]
      have hl' : l' = { l with
          storage := (l.storage.applySnapshot s).1
          unstable := { l.unstable with snapshot := none } } := by
        simp only [LogOp.act, hs] at hact
        cases hact
        simp [stableSnapTo, setStorage, Unstable.stableSnapTo, hs]
      have happly : (l.storage.applySnapshot s).1 = { l.storage with
          snapshot := s
          entries := [{ term := s.metadata.term, index := s.metadata.index }]
          nonempty := List.cons_ne_nil _ _ } := by
        rw [MemoryStorage.applySnapshot, if_neg (by omega)]
      rw [happly] at hl'
      subst hl'
      have hle := h.base_le
      refine ⟨⟨⟨?_, h.wf.unstable, fun _ => ⟨?_, ?_, fun _ => ?_⟩, fun s' hs' => ?_⟩, ?_, h.applied_le,
        h.applied_lt, ?_, fun s' hs' => ?_⟩, ?_⟩
      · exact Numbered.cons rfl (Numbered.nil _)
      · exact Nat.le_of_eq hoffset.symm
      · exact Nat.le_of_eq hoffset
      · exact hoffset
      · cases hs'
      · show s.metadata.index ≤ l.committed
        omega
      · show s.metadata.index ≤ l.committed
        omega
      · cases hs'
      · simp [list, base, baseTerm, logical, hs, MemoryStorage.front]

/-- Storing a snapshot leaves the unstable entries. -/
lemma storeSnapshot_unstable (hact : LogOp.storeSnapshot.act l = Except.ok l') :
    l'.unstable = { l.unstable with snapshot := none } := by
  cases hs : l.unstable.snapshot with
  | none =>
      simp only [LogOp.act, hs] at hact
      cases hact
      rw [← hs]
  | some s =>
      simp only [LogOp.act, hs] at hact
      cases hact
      simp [stableSnapTo, setStorage, Unstable.stableSnapTo, hs]

/-- **A `Ready`** is stored as its snapshot is, and then its entries. -/
theorem storeReady_eq (h : l.Represents) :
    LogOp.storeReady.act l = (do
      let l ← LogOp.storeSnapshot.act l
      LogOp.storeEntries.act l) := by
  cases hs : l.unstable.snapshot with
  | none =>
      simp only [LogOp.act, hs, pure_bind]
      refine bind_congr fun storage => ?_
      cases l.unstable.entries.getLast? <;> rfl
  | some s =>
      have hunstable : ((l.setStorage (l.storage.applySnapshot s).1).stableSnapTo
          s.metadata.index).unstable = { l.unstable with snapshot := none } := by
        simp [stableSnapTo, setStorage, Unstable.stableSnapTo, hs]
      simp only [LogOp.act, hs, pure_bind, hunstable]
      refine bind_congr fun storage => ?_
      cases hlast : l.unstable.entries.getLast? with
      | none => simp [stableSnapTo, setStorage, Unstable.stableSnapTo, hs]
      | some e =>
          have h₁ := stableTo_last h.wf.unstable hlast
          have h₂ := stableTo_last (u := { l.unstable with snapshot := none }) h.wf.unstable hlast
          simp [stableSnapTo, stableTo, setStorage, Unstable.stableSnapTo, hs, h₁, h₂]

/-- **Compacting** forgets entries of the list. -/
theorem compact_list {i : Nat} (h : l.Represents) (hi : i ≤ l.applied)
    (hact : (LogOp.compact i).act l = Except.ok l') :
    l'.Represents ∧ l'.list = l.list.compact i := by
  obtain ⟨⟨storage, status⟩, hcompact, hact⟩ := Outcome.bind_eq_ok.mp hact
  cases hact
  have happlied := h.applied_lt
  have happlied' := h.applied_le
  have hstored_num : Numbered (l.storage.front.index + 1) l.storage.stored := by
    have := h.wf.stable
    rw [l.storage.entries_eq] at this
    exact this.tail
  -- below a snapshot that is not stored yet, nothing of the list is in the storage
  have hpending : ∀ s, l.unstable.snapshot = some s → i ≤ l.base := by
    intro s hs
    have hoffset := h.wf.fits_snapshot s hs
    have hbase : l.base = s.metadata.index := by simp [base, hs]
    omega
  rcases MemoryStorage.compact_cases h.wf.stable hcompact with
    ⟨rfl, hold⟩ | ⟨hnew, hlast, e, he, hfront, hterm, hstored, hsnapshot⟩
  · refine ⟨h, ?_⟩
    have hle : i ≤ l.base := by
      cases hs : l.unstable.snapshot with
      | none => simpa [base, hs] using hold
      | some s => exact hpending s hs
    rw [ListLog.compact, if_pos (show i ≤ l.list.base from hle)]
    rfl
  have hnumbered : Numbered storage.front.index storage.entries := by
    rw [storage.entries_eq]
    refine Numbered.cons rfl ?_
    rw [hstored, hfront]
    have hdrop := hstored_num.drop (i - l.storage.front.index)
    rwa [show l.storage.front.index + 1 + (i - l.storage.front.index) = i + 1 by omega] at hdrop
  have hlast' : storage.lastIndex = l.storage.lastIndex := by
    rw [storage.lastIndex_eq, hstored, hfront, List.length_drop]
    have := l.storage.lastIndex_eq
    omega
  have hsnapshot_le : storage.snapshot.metadata.index ≤ l.committed := by
    rw [hsnapshot]
    exact h.snapshot_le
  cases hs : l.unstable.snapshot with
  | some s =>
      refine ⟨⟨⟨hnumbered, h.wf.unstable, fun hn => ?_, h.wf.fits_snapshot⟩, ?_, h.applied_le,
        h.applied_lt, hsnapshot_le, fun s' hs' => ?_⟩, ?_⟩
      · rw [setStorage, hs] at hn
        cases hn
      · have := h.base_le
        simpa [base, setStorage, hs] using this
      · show storage.snapshot.metadata.index < s'.metadata.index
        rw [hsnapshot]
        exact h.snapshot_lt s' hs'
      · rw [ListLog.compact, if_pos (show i ≤ l.list.base from hpending s hs)]
        simp [list, base, baseTerm, logical, setStorage, hs]
  | none =>
      obtain ⟨hlow, hhigh, hempty⟩ := h.wf.fits hs
      have hbase : l.base = l.storage.front.index := by simp [base, hs]
      refine ⟨⟨⟨hnumbered, h.wf.unstable, fun _ => ⟨?_, ?_, fun hu => ?_⟩, fun s' hs' => ?_⟩, ?_,
        h.applied_le, h.applied_lt, hsnapshot_le, fun s' hs' => ?_⟩, ?_⟩
      · show storage.front.index + 1 ≤ l.unstable.offset
        omega
      · show l.unstable.offset ≤ storage.lastIndex + 1
        omega
      · show l.unstable.offset = storage.lastIndex + 1
        rw [hlast']
        exact hempty hu
      · rw [setStorage, hs] at hs'
        cases hs'
      · simp only [base, setStorage, hs, hfront]
        omega
      · rw [setStorage, hs] at hs'
        cases hs'
      · have htail : storage.entries.tail = l.storage.entries.tail.drop (i - l.storage.front.index) :=
          hstored
        have hlogical : l.logical = l.storage.entries.tail.take
            (l.unstable.offset - (l.storage.front.index + 1)) ++ l.unstable.entries :=
          logical_of_snapshot_none hs
        have hentry : l.logical[i - (l.base + 1)]? = some e := by
          have hlen : i - (l.storage.front.index + 1) <
              (l.storage.entries.tail.take
                (l.unstable.offset - (l.storage.front.index + 1))).length := by
            have := l.storage.lastIndex_eq
            rw [MemoryStorage.stored] at this
            rw [List.length_take]
            omega
          rw [hlogical, hbase, List.getElem?_append_left hlen, List.getElem?_take_of_lt (by omega)]
          exact he
        have hlt : l.list.base < i := by
          rw [← hbase] at hnew
          exact hnew
        have hterm' : l.list.term i = e.term := by
          rw [ListLog.term_of_lt hlt]
          show (l.logical[i - (l.base + 1)]?.map Entry.term).getD 0 = e.term
          rw [hentry]
          rfl
        rw [ListLog.compact, if_neg (Nat.not_le.mpr hlt), hterm']
        simp only [list, ListLog.mk.injEq]
        refine ⟨?_, ?_, ?_, rfl⟩
        · simp [base, setStorage, hs, hfront]
        · simp [baseTerm, setStorage, hs, hterm]
        · rw [logical_of_snapshot_none (l := l.setStorage storage) hs, hlogical,
            List.drop_append_of_le_length, hbase]
          · simp only [setStorage, htail, hfront, List.drop_take]
            congr 2
            omega
          · have := l.storage.lastIndex_eq
            rw [MemoryStorage.stored] at this
            rw [List.length_take, hbase]
            omega

end RaftLog

open RaftLog

variable {l l' : RaftLog}

/-- **One operation**: what the code leaves represents what the list operation leaves. -/
theorem LogOp.act_refines {op : LogOp} (h : l.Represents) (hproper : op.Proper l)
    (hfirst : op.StoredFirst l) (hact : op.act l = Except.ok l') :
    l'.Represents ∧ l'.list = op.actList l.list := by
  cases op with
  | append entries =>
      obtain ⟨⟨l₁, last⟩, happend, hact⟩ := Outcome.bind_eq_ok.mp hact
      cases hact
      cases entries with
      | nil =>
          cases happend
          exact ⟨h, rfl⟩
      | cons e es =>
          obtain ⟨hn, hnum⟩ := hproper e rfl
          obtain ⟨h₁, hlist, -⟩ := append_list h hn hnum happend
          exact ⟨h₁, hlist⟩
  | maybeAppend index logTerm committed entries =>
      obtain ⟨⟨l₁, res⟩, happend, hact⟩ := Outcome.bind_eq_ok.mp hact
      cases hact
      exact maybeAppend_list h hproper happend
  | commitTo index => exact h.commitTo hact
  | restore snapshot =>
      cases hact
      exact restore_list h hproper
  | storeEntries => exact storeEntries_list h hfirst hact
  | storeSnapshot => exact storeSnapshot_list h hact
  | storeReady =>
      rw [storeReady_eq h] at hact
      obtain ⟨l₁, hsnapshot, hentries⟩ := Outcome.bind_eq_ok.mp hact
      obtain ⟨h₁, hlist₁⟩ := storeSnapshot_list h hsnapshot
      have hnone : l₁.unstable.snapshot = none := by rw [storeSnapshot_unstable hsnapshot]
      obtain ⟨h₂, hlist₂⟩ := storeEntries_list h₁ hnone hentries
      exact ⟨h₂, hlist₂.trans (congrArg ListLog.store hlist₁)⟩
  | appliedTo index =>
      cases hact
      rw [RaftLog.appliedTo]
      split
      · exact ⟨h, rfl⟩
      · exact ⟨⟨⟨h.wf.stable, h.wf.unstable, h.wf.fits, h.wf.fits_snapshot⟩, h.base_le, hproper,
          hfirst, h.snapshot_le, h.snapshot_lt⟩, rfl⟩
  | compact index => exact compact_list h hproper hact

/-! ## Any operations -/

/-- The code and the list do the same operation. -/
def LogOp.actBoth (p : RaftLog × ListLog) (op : LogOp) : Outcome (RaftLog × ListLog) := do
  let l ← op.act p.1
  return (l, op.actList p.2)

/-- The entries of a storage are consecutive, and its snapshot is not ahead of its dummy entry. -/
structure MemoryStorage.Consecutive (s : MemoryStorage) : Prop where
  numbered : Numbered s.front.index s.entries
  snapshot_le : s.snapshot.metadata.index ≤ s.front.index

lemma RaftLog.init_represents {storage : MemoryStorage} (h : storage.Consecutive) (maxSize : Nat) :
    (RaftLog.init storage maxSize).Represents := by
  have hlast := storage.lastIndex_eq
  refine ⟨⟨h.numbered, Numbered.nil _, fun _ => ⟨?_, Nat.le_refl _, fun _ => rfl⟩, fun s hs => ?_⟩,
    Nat.le_refl _, Nat.le_refl _, ?_, h.snapshot_le, fun s hs => ?_⟩
  · show storage.front.index + 1 ≤ storage.lastIndex + 1
    omega
  · cases hs
  · show storage.front.index + 1 - 1 < storage.lastIndex + 1
    omega
  · cases hs

lemma RaftLog.init_list (storage : MemoryStorage) (maxSize : Nat) :
    (RaftLog.init storage maxSize).list = ListLog.ofStorage storage := by
  have hlast := storage.lastIndex_eq
  have htail : storage.entries.tail = storage.stored := rfl
  simp only [list, base, baseTerm, logical, init, ListLog.ofStorage, htail, List.append_nil,
    ListLog.mk.injEq, true_and]
  exact ⟨List.take_of_length_le (by omega), by omega⟩

end RaftKv
