import RaftKv.Raft.LogicalLog

/-!
# Logs that were never compacted

Without snapshots a log is a list of entries numbered from 1 on.

* `termAt` — the term a list has at an index.
* `Uncompacted` — the log represents a list behind position 0, and there is no snapshot to send.
* `Uncompacted.maybeAppend` — **a follower that takes an append request afterwards holds the
  request's part of the leader's log**, and drops entries only if they conflict with it.
-/

namespace RaftKv

/-- The term at position `index`, counted from 1; 0 outside the list. -/
def termAt (ℓ : List Entry) (index : Nat) : Nat :=
  if index = 0 then 0 else (ℓ[index - 1]?.map Entry.term).getD 0

theorem termAt_zero (ℓ : List Entry) : termAt ℓ 0 = 0 := rfl

theorem termAt_succ (ℓ : List Entry) (k : Nat) :
    termAt ℓ (k + 1) = (ℓ[k]?.map Entry.term).getD 0 := by
  simp [termAt]

theorem termAt_of_getElem? {ℓ : List Entry} {k : Nat} {e : Entry} (h : ℓ[k]? = some e) :
    termAt ℓ (k + 1) = e.term := by
  simp [termAt_succ, h]

theorem termAt_of_isPrefix {ℓ ℓ' : List Entry} (h : ℓ <+: ℓ') {index : Nat}
    (hi : index ≤ ℓ.length) : termAt ℓ' index = termAt ℓ index := by
  obtain ⟨r, rfl⟩ := h
  cases index with
  | zero => rfl
  | succ k => rw [termAt_succ, termAt_succ, List.getElem?_append_left (by omega)]

/-- A position with a term other than 0 holds an entry. -/
theorem exists_of_termAt {ℓ : List Entry} {index t : Nat} (h : termAt ℓ index = t) (ht : 0 < t) :
    ∃ k e, index = k + 1 ∧ ℓ[k]? = some e ∧ e.term = t := by
  cases index with
  | zero => simp [termAt_zero] at h; omega
  | succ k =>
      rw [termAt_succ] at h
      cases hk : ℓ[k]? with
      | none => simp [hk] at h; omega
      | some e => exact ⟨k, e, rfl, hk, by simpa [hk] using h⟩

/-- Logs that agree on the term of an entry agree up to it. -/
def Matching (ℓ₁ ℓ₂ : List Entry) : Prop :=
  ∀ k e₁ e₂, ℓ₁[k]? = some e₁ → ℓ₂[k]? = some e₂ → e₁.term = e₂.term →
    ℓ₁.take (k + 1) = ℓ₂.take (k + 1)

/-- The log represents a list behind position 0, and there is no snapshot to send. -/
structure Uncompacted (l : RaftLog) : Prop where
  wf : l.WF
  base : l.base = 0
  baseTerm : l.baseTerm = 0
  unstable : l.unstable.snapshot = none
  snapshot : l.storage.snapshot.isEmpty = true

namespace Uncompacted

variable {l l' : RaftLog}

theorem lastIndex (h : Uncompacted l) : l.lastIndex = l.logical.length := by
  rw [RaftLog.lastIndex_eq h.wf, h.base, Nat.zero_add]

theorem numbered (h : Uncompacted l) : Numbered 1 l.logical := by
  simpa [h.base] using h.wf.numbered

theorem term (h : Uncompacted l) (index : Nat) :
    l.term index = Except.ok (termAt l.logical index) := by
  rw [RaftLog.term_eq h.wf, RaftLog.logicalTerm, h.base, h.baseTerm, termAt]
  simp

theorem lastTerm (h : Uncompacted l) {t : Nat} (ht : l.lastTerm = Except.ok t) :
    t = termAt l.logical l.logical.length := by
  rw [RaftLog.lastTerm, h.term, h.lastIndex] at ht
  exact (Outcome.pure_eq_ok.mp ht).symm

theorem matchTerm (h : Uncompacted l) (index t : Nat) :
    l.matchTerm index t = true ↔ t = termAt l.logical index := by
  rw [RaftLog.matchTerm, h.term]
  simp

/-- The commit and the apply index are no part of the representation. -/
theorem congr (h : Uncompacted l) (hstorage : l'.storage = l.storage)
    (hunstable : l'.unstable = l.unstable) : Uncompacted l' ∧ l'.logical = l.logical := by
  have hb := RaftLog.base_congr hstorage (congrArg Unstable.snapshot hunstable)
  refine ⟨⟨⟨?_, ?_, ?_, ?_⟩, ?_, ?_, ?_, ?_⟩, ?_⟩
  · rw [hstorage]; exact h.wf.stable
  · rw [hunstable]; exact h.wf.unstable
  · rw [hstorage, hunstable]; exact h.wf.fits
  · rw [hunstable]; exact h.wf.fits_snapshot
  · rw [hb.1, h.base]
  · rw [hb.2, h.baseTerm]
  · rw [hunstable, h.unstable]
  · rw [hstorage, h.snapshot]
  · simp [RaftLog.logical, hstorage, hunstable]

/-- The entries that are read from `index` on are entries of the list. -/
theorem entries (h : Uncompacted l) {index maxSize : Nat} (hpos : 1 ≤ index)
    {res : Except Status (List Entry)} (hread : l.entries index maxSize = Except.ok res) :
    ∃ es, res = Except.ok es ∧ es <+: l.logical.drop (index - 1) := by
  rw [RaftLog.entries, h.lastIndex] at hread
  split at hread
  · exact ⟨[], (Outcome.pure_eq_ok.mp hread).symm, List.nil_prefix⟩
  · rw [RaftLog.slice_eq h.wf maxSize (by rw [h.base]; omega) (by omega)
      (by rw [h.base]; omega), Except.ok.injEq] at hread
    refine ⟨_, hread.symm, (entryLimitSize_isPrefix _ _).trans ?_⟩
    rw [h.base]
    exact List.take_prefix _ _

theorem append (h : Uncompacted l) {e : Entry} {es : List Entry} {last : Nat}
    (hnum : Numbered e.index (e :: es)) (hpos : 0 < e.index)
    (happend : l.append (e :: es) = Except.ok (l', last)) :
    Uncompacted l' ∧ l.committed < e.index ∧ e.index ≤ l.logical.length + 1 ∧
      l'.committed = l.committed ∧ l'.logical = l.logical.take (e.index - 1) ++ e :: es ∧
      last = l'.logical.length := by
  obtain ⟨hwf, hc, hle, hframe, hsnap, hlogical, hlast⟩ :=
    RaftLog.append_eq_ok h.wf (by rw [h.base]; omega) hnum hpos happend
  have hstorage : l'.storage = l.storage := by rw [hframe]
  have hb := RaftLog.base_congr hstorage hsnap
  have hu : Uncompacted l' :=
    ⟨hwf, by rw [hb.1, h.base], by rw [hb.2, h.baseTerm], by rw [hsnap, h.unstable],
      by rw [hstorage, h.snapshot]⟩
  rw [h.base] at hle hlogical
  exact ⟨hu, hc, by omega, by rw [hframe], by simpa using hlogical, by rw [hlast, hu.lastIndex]⟩

/-- Appending behind the end. -/
theorem append_end (h : Uncompacted l) {es : List Entry} {last : Nat}
    (hnum : Numbered (l.logical.length + 1) es) (happend : l.append es = Except.ok (l', last)) :
    Uncompacted l' ∧ l'.committed = l.committed ∧ l'.logical = l.logical ++ es ∧
      last = l'.logical.length := by
  cases es with
  | nil =>
      simp only [RaftLog.append, Outcome.pure_eq_ok, Prod.mk.injEq] at happend
      obtain ⟨rfl, rfl⟩ := happend
      exact ⟨h, rfl, by simp, h.lastIndex⟩
  | cons e es =>
      have he := hnum.head
      obtain ⟨hu, -, -, hc, hlogical, hlast⟩ := h.append (he ▸ hnum) (by omega) happend
      refine ⟨hu, hc, ?_, hlast⟩
      rw [hlogical, he, Nat.add_sub_cancel, List.take_length]

theorem commitTo (h : Uncompacted l) {toCommit : Nat} (hto : l.commitTo toCommit = Except.ok l') :
    Uncompacted l' ∧ l'.logical = l.logical ∧ l'.committed = max l.committed toCommit := by
  obtain ⟨hl', -⟩ := RaftLog.commitTo_eq_ok hto
  have hu : Uncompacted l' ∧ l'.logical = l.logical := h.congr (by rw [hl']) (by rw [hl'])
  exact ⟨hu.1, hu.2, by rw [hl']⟩

/-- A leader commits an index only if its entry is of the given term. -/
theorem maybeCommit (h : Uncompacted l) {maxIndex t : Nat} {changed : Bool}
    (hm : l.maybeCommit maxIndex t = Except.ok (l', changed)) :
    l' = l ∨ Uncompacted l' ∧ l'.logical = l.logical ∧ l.committed < maxIndex ∧
      termAt l.logical maxIndex = t ∧ l'.committed = maxIndex := by
  rw [RaftLog.maybeCommit, h.term] at hm
  split at hm
  · rename_i hlt
    simp only at hm
    split at hm
    · rename_i ht
      obtain ⟨l₁, h₁, hm⟩ := Outcome.bind_eq_ok.mp hm
      simp only [Outcome.pure_eq_ok, Prod.mk.injEq] at hm
      obtain ⟨rfl, -⟩ := hm
      obtain ⟨hu, hlogical, hc⟩ := h.commitTo h₁
      exact Or.inr ⟨hu, hlogical, hlt, ht, by omega⟩
    · simp only [Outcome.pure_eq_ok, Prod.mk.injEq] at hm
      exact Or.inl hm.1.symm
  · simp only [Outcome.pure_eq_ok, Prod.mk.injEq] at hm
    exact Or.inl hm.1.symm

/-! ## Append requests -/

/-- Up to a position at which the terms agree, the logs agree. -/
theorem take_of_matchTerm (h : Uncompacted l) {L : List Entry} (hmatching : Matching l.logical L)
    (hpos : ∀ e ∈ L, 0 < e.term) {index : Nat} (hindex : index ≤ L.length)
    (hm : l.matchTerm index (termAt L index) = true) : L.take index <+: l.logical := by
  rw [h.matchTerm] at hm
  cases index with
  | zero => simp
  | succ k =>
      have hk : L[k]? = some L[k] := List.getElem?_eq_getElem (by omega)
      rw [termAt_of_getElem? hk] at hm
      obtain ⟨k', e, hkk, he, hterm⟩ :=
        exists_of_termAt hm.symm (hpos L[k] (List.getElem_mem _))
      obtain rfl : k = k' := by omega
      rw [← hmatching k e L[k] he hk hterm]
      exact List.take_prefix _ _

/-- A batch of the log `L` behind `index` is numbered, and its entries are those of `L`. -/
theorem batch_getElem? {L : List Entry} {index : Nat} {es : List Entry} (hes : es <+: L.drop index)
    {k : Nat} {e : Entry} (hk : es[k]? = some e) : L[index + k]? = some e := by
  obtain ⟨r, hr⟩ := hes
  rw [← List.getElem?_drop, ← hr, List.getElem?_append_left (List.getElem?_eq_some_iff.mp hk).1, hk]

theorem batch_numbered {L : List Entry} (hnum : Numbered 1 L) {index : Nat} {es : List Entry}
    (hes : es <+: L.drop index) : Numbered (index + 1) es := by
  intro k e hk
  have := hnum _ e (batch_getElem? hes hk)
  omega

/-- Up to the part of a batch that the log holds, the log is the one the batch is from. -/
theorem take_of_batch (h : Uncompacted l) {L : List Entry} (hmatching : Matching l.logical L)
    (hnum : Numbered 1 L) (hpos : ∀ e ∈ L, 0 < e.term) {index : Nat} {pre post : List Entry}
    (hindex : index ≤ L.length) (hes : pre ++ post <+: L.drop index)
    (hmt : l.matchTerm index (termAt L index) = true)
    (hpre : ∀ x ∈ pre, l.matchTerm x.index x.term = true) :
    L.take (index + pre.length) <+: l.logical := by
  rcases List.eq_nil_or_concat pre with rfl | ⟨init, e, hconcat⟩
  · simpa using h.take_of_matchTerm hmatching hpos hindex hmt
  obtain rfl : pre = init ++ [e] := by rw [hconcat, List.concat_eq_append]
  have hk : (init ++ [e] ++ post)[init.length]? = some e := by simp
  have hLk := batch_getElem? hes hk
  have hek : e.index = index + init.length + 1 := by
    have := batch_numbered hnum hes init.length e hk
    omega
  have hlen : index + (init ++ [e]).length = index + init.length + 1 := by simp [Nat.add_assoc]
  rw [hlen]
  refine h.take_of_matchTerm hmatching hpos ?_ ?_
  · have := (List.getElem?_eq_some_iff.mp hLk).1
    omega
  · rw [termAt_of_getElem? hLk, ← hek]
    exact hpre e (by simp)

/-- **A follower that takes an append request** afterwards holds the request's part of the leader's
log `L`.  It keeps its log if that part was there already; otherwise its log is that part. -/
theorem maybeAppend (h : Uncompacted l) {L : List Entry} (hmatching : Matching l.logical L)
    (hnum : Numbered 1 L) (hpos : ∀ e ∈ L, 0 < e.term) {index commit : Nat} {es : List Entry}
    (hindex : index ≤ L.length) (hes : es <+: L.drop index) {res : Option Nat}
    (hm : l.maybeAppend index (termAt L index) commit es = Except.ok (l', res)) :
    (res = none ∧ l' = l) ∨
    (res = some (index + es.length) ∧ Uncompacted l' ∧
      index + es.length ≤ L.length ∧
      l'.committed = max l.committed (min commit (index + es.length)) ∧
      (l'.logical = l.logical ∧ L.take (index + es.length) <+: l.logical ∨
        l'.logical = L.take (index + es.length) ∧ ¬ L.take (index + es.length) <+: l.logical)) := by
  have hlen : index + es.length ≤ L.length := by
    have := hes.length_le
    rw [List.length_drop] at this
    omega
  have hes' : es = (L.drop index).take es.length := List.prefix_iff_eq_take.mp hes
  have hwhole : L.take (index + es.length) = L.take index ++ es := by
    rw [List.take_add, ← hes']
  have hesnum := batch_numbered hnum hes
  rcases RaftLog.maybeAppend_cases hesnum hm with ⟨-, rfl, rfl⟩ | ⟨hmt, rfl, l₁, hcommit, hlog⟩
  · exact Or.inl ⟨rfl, rfl⟩
  right
  rcases hlog with ⟨rfl, hall⟩ | ⟨pre, e, post, last, rfl, hpre, hconf, hlt, happend⟩
  · obtain ⟨hu, hlogical, hc⟩ := h.commitTo hcommit
    refine ⟨rfl, hu, hlen, hc, Or.inl ⟨hlogical, ?_⟩⟩
    exact h.take_of_batch hmatching hnum hpos hindex (by rwa [List.append_nil]) hmt hall
  · have hindexe : e.index = index + pre.length + 1 := by
      have := hesnum pre.length e (by simp)
      omega
    have hpost : Numbered e.index (e :: post) := by
      have := hesnum.drop pre.length
      rw [List.drop_left] at this
      rwa [hindexe, show index + pre.length + 1 = index + 1 + pre.length by omega]
    obtain ⟨hu₁, -, hend, hc₁, hlogical₁, -⟩ := h.append hpost (by omega) happend
    obtain ⟨hu, hlogical, hc⟩ := hu₁.commitTo hcommit
    -- what the log keeps is the leader's
    have hkept : L.take (index + pre.length) <+: l.logical :=
      h.take_of_batch hmatching hnum hpos hindex hes hmt hpre
    have hkept' : l.logical.take (index + pre.length) = L.take (index + pre.length) := by
      rw [List.prefix_iff_eq_take.mp hkept, List.length_take]
      congr 1
      simp only [List.length_append, List.length_cons] at hlen
      omega
    have hpreL : L.take (index + pre.length) = L.take index ++ pre := by
      rw [List.take_add]
      congr 1
      rw [show (L.drop index).take pre.length =
        ((L.drop index).take (pre ++ e :: post).length).take pre.length by
          rw [List.take_take]; congr 1; simp, ← hes', List.take_left]
    refine ⟨rfl, hu, hlen, by rw [hc, hc₁], Or.inr ⟨?_, ?_⟩⟩
    · rw [hlogical, hlogical₁, hindexe, Nat.add_sub_cancel, hkept', hpreL, hwhole,
        List.append_assoc]
    · intro hp
      rw [hwhole] at hp
      have hat : l.logical[index + pre.length]? = some e := by
        obtain ⟨r, hr⟩ := hp
        rw [← hr]
        have : (L.take index).length = index := by simp [Nat.min_eq_left hindex]
        rw [List.append_assoc, List.getElem?_append_right (by omega), this]
        simp
      have : l.matchTerm e.index e.term = true := by
        rw [h.matchTerm, hindexe, termAt_of_getElem? hat]
      rw [this] at hconf
      cases hconf

/-! ## Storing the unstable tail -/

theorem front_index (h : Uncompacted l) : l.storage.front.index = 0 := by
  have := h.base
  rwa [RaftLog.base, h.unstable] at this

theorem logical_eq (h : Uncompacted l) :
    l.logical = l.storage.entries.tail.take (l.unstable.offset - 1) ++ l.unstable.entries := by
  simp only [RaftLog.logical, h.unstable, h.front_index, Nat.zero_add]

/-- **The storage takes over the unstable tail**: the log stays the same, and the storage holds all
of it. -/
theorem store (h : Uncompacted l) {s : MemoryStorage}
    (hok : l.storage.append l.unstable.entries = Except.ok s) :
    Uncompacted { l with storage := s } ∧ s.entries.tail = l.logical ∧
      ({ l with storage := s } : RaftLog).logical = l.logical := by
  obtain ⟨hfits, hlast, hempty⟩ := h.wf.fits h.unstable
  have hfront := h.front_index
  have hstorage := RaftLog.storage_lastIndex l.storage
  have hlength : l.unstable.offset + l.unstable.entries.length = l.logical.length + 1 := by
    have := h.wf.offset_eq
    rw [h.base] at this
    omega
  have htail : l.storage.entries.tail.length = l.storage.lastIndex := by
    rw [List.length_tail]
    omega
  have hentries : s.entries = l.storage.front :: l.logical ∧
      s.snapshot = l.storage.snapshot := by
    rw [h.logical_eq]
    cases hu : l.unstable.entries with
    | nil =>
        rw [hu] at hok
        obtain rfl := Outcome.pure_eq_ok.mp hok
        have hoffset := hempty hu
        rw [List.append_nil, List.take_of_length_le (by omega)]
        exact ⟨RaftLog.storage_entries l.storage, rfl⟩
    | cons e es =>
        have he : e.index = l.unstable.offset := by
          have := h.wf.unstable
          rw [hu] at this
          exact this.head
        rw [hu] at hok
        simp only [MemoryStorage.append, MemoryStorage.firstIndex, hfront] at hok
        rw [if_neg (by omega), show 0 + 1 - e.index = 0 by omega, List.drop_zero] at hok
        dsimp only at hok
        split at hok
        · cases hok
        · obtain rfl := Outcome.pure_eq_ok.mp hok
          refine ⟨?_, rfl⟩
          have htake : l.storage.entries.take (e.index - 0) =
              l.storage.front :: l.storage.entries.tail.take (l.unstable.offset - 1) := by
            rw [← List.take_succ_cons, ← RaftLog.storage_entries]
            congr 1
            omega
          dsimp only
          rw [htake, List.cons_append]
  have hsfront : s.front = l.storage.front := by
    simp only [MemoryStorage.front, hentries.1, List.head_cons]
  have hslast : s.lastIndex = l.logical.length := by
    have := RaftLog.storage_lastIndex s
    rw [hsfront, hfront, hentries.1, List.length_cons] at this
    omega
  have hlogical : ({ l with storage := s } : RaftLog).logical = l.logical := by
    have hkept : l.logical.take (l.unstable.offset - 1) ++ l.unstable.entries = l.logical := by
      rw [h.logical_eq, List.take_append_of_le_length (by rw [List.length_take]; omega),
        List.take_take, Nat.min_self]
    rw [@RaftLog.logical_of_snapshot_none { l with storage := s } h.unstable]
    dsimp only
    rw [hsfront, hfront, hentries.1, List.tail_cons, Nat.zero_add, hkept]
  refine ⟨⟨⟨?_, h.wf.unstable, fun _ => ⟨?_, ?_, fun hu => ?_⟩, h.wf.fits_snapshot⟩, ?_, ?_,
    h.unstable, ?_⟩, ?_, hlogical⟩
  · dsimp only
    rw [hsfront, hentries.1]
    exact Numbered.cons rfl (by rw [hfront]; exact h.numbered)
  · dsimp only
    rw [hsfront]
    exact hfits
  · dsimp only
    omega
  · have hu : l.unstable.entries = [] := hu
    rw [hu, List.length_nil] at hlength
    dsimp only
    omega
  · simp [RaftLog.base, h.unstable, hsfront, hfront]
  · have := h.baseTerm
    simp only [RaftLog.baseTerm, h.unstable] at this ⊢
    rw [hsfront, this]
  · dsimp only
    rw [hentries.2]
    exact h.snapshot
  · rw [hentries.1, List.tail_cons]

/-- Forgetting an unstable tail that the storage holds. -/
theorem stableTo (h : Uncompacted l) (hheld : l.storage.entries.tail = l.logical) {e : Entry}
    (he : l.unstable.entries.getLast? = some e) :
    Uncompacted (l.stableTo e.index e.term) ∧ (l.stableTo e.index e.term).logical = l.logical := by
  have hfront := h.front_index
  have hpos : 0 < l.unstable.entries.length := by
    rw [List.length_pos_iff]
    rintro hnil
    simp [hnil] at he
  have hindex : e.index = l.unstable.offset + l.unstable.entries.length - 1 :=
    h.wf.unstable.getLast he
  have hlength : l.unstable.offset + l.unstable.entries.length = l.logical.length + 1 := by
    have := h.wf.offset_eq
    rw [h.base] at this
    omega
  have hterm : l.unstable.maybeTerm e.index = some e.term := by
    rw [List.getLast?_eq_getElem?] at he
    rw [Unstable.maybeTerm, if_neg (by omega), Unstable.maybeLastIndex,
      if_pos (List.length_pos_iff.mp hpos)]
    dsimp only
    rw [if_neg (by omega), show e.index - l.unstable.offset = l.unstable.entries.length - 1 by omega,
      he]
    rfl
  have hstable : l.unstable.stableTo e.index e.term =
      { l.unstable with entries := [], offset := e.index + 1 } := by
    rw [Unstable.stableTo, hterm]
    dsimp only
    rw [if_pos ⟨rfl, by omega⟩, List.drop_eq_nil_of_le (by omega)]
  have hslast : l.storage.lastIndex = l.logical.length := by
    have := RaftLog.storage_lastIndex l.storage
    rw [hfront, RaftLog.storage_entries l.storage, hheld, List.length_cons] at this
    omega
  rw [RaftLog.stableTo, hstable]
  refine ⟨⟨⟨h.wf.stable, Numbered.nil _, fun _ => ⟨?_, ?_, fun _ => ?_⟩, fun s hs => ?_⟩, ?_, ?_,
    h.unstable, h.snapshot⟩, ?_⟩
  · dsimp only
    omega
  · dsimp only
    omega
  · dsimp only
    omega
  · have hs : l.unstable.snapshot = some s := hs
    rw [h.unstable] at hs
    cases hs
  · simp [RaftLog.base, h.unstable, hfront]
  · have := h.baseTerm
    simpa [RaftLog.baseTerm, h.unstable] using this
  · rw [@RaftLog.logical_of_snapshot_none
      { l with unstable := { l.unstable with entries := [], offset := e.index + 1 } } h.unstable]
    dsimp only
    rw [hfront, hheld, List.append_nil, List.take_of_length_le (by omega)]

end Uncompacted

end RaftKv
