import RaftKv.Raft.LogicalLog

/-!
# The stored part of the log

What the operations of `MemoryStorage` do to the list of entries behind its dummy entry.

* `splice` — a batch of entries takes the place of what a log holds from its first index on.
* `MemoryStorage.append_numbered` — **`append` splices**, unless the batch leaves a gap.
* `MemoryStorage.compact_cases` — **`compact` drops entries**, and the dummy takes over the last.
-/

namespace RaftKv

/-- Replace what the log `ents` behind `base` holds from the first index of a batch on.  The part of
the batch up to `base` is left out, and a batch that is wholly in it changes nothing. -/
def splice (base : Nat) (ents : List Entry) : List Entry → List Entry
  | [] => ents
  | e :: es =>
      if (e :: es).drop (base + 1 - e.index) = [] then ents
      else ents.take (e.index - (base + 1)) ++ (e :: es).drop (base + 1 - e.index)

lemma splice_of_le {base n : Nat} {ents : List Entry} {e : Entry} {es : List Entry}
    (hindex : e.index = n) (hn : base + 1 ≤ n) :
    splice base ents (e :: es) = ents.take (n - (base + 1)) ++ e :: es := by
  have hzero : base + 1 - n = 0 := by omega
  simp [splice, hindex, hzero]

/-- A batch that starts an empty log is the log. -/
lemma splice_nil {base : Nat} {es : List Entry} (hnum : Numbered (base + 1) es) :
    splice base [] es = es := by
  cases es with
  | nil => rfl
  | cons e es => rw [splice_of_le hnum.head (Nat.le_refl _), List.take_nil, List.nil_append]

/-- An entry that lies at or below the base is left out. -/
lemma splice_cons_of_le {base n : Nat} {ents : List Entry} {e : Entry} {es : List Entry}
    (hnum : Numbered n (e :: es)) (hn : n ≤ base) :
    splice base ents (e :: es) = splice base ents es := by
  have he := hnum.head
  cases es with
  | nil =>
      have hdrop : (base + 1 - n) = (base - n) + 1 := by omega
      simp [splice, he, hdrop]
  | cons e' es =>
      have he' := hnum.tail.head
      have hdrop : base + 1 - n = (base + 1 - (n + 1)) + 1 := by omega
      have htake : n - (base + 1) = n + 1 - (base + 1) := by omega
      simp [splice, he, he', hdrop, htake]

/-- What is behind the log after a batch was spliced in. -/
lemma splice_length {base n : Nat} {ents es : List Entry} (hnum : Numbered n es) (hne : es ≠ [])
    (hn : n ≤ base + ents.length + 1) :
    base + (splice base ents es).length = if base < n + es.length - 1 then n + es.length - 1
      else base + ents.length := by
  cases es with
  | nil => exact absurd rfl hne
  | cons e es =>
      have he := hnum.head
      simp only [splice, he, List.drop_eq_nil_iff, List.length_cons]
      split
      · rename_i hle
        rw [if_neg (by omega)]
      · rename_i hlt
        rw [if_pos (by omega)]
        simp
        omega

lemma splice_numbered {base n : Nat} {ents es : List Entry} (hents : Numbered (base + 1) ents)
    (hnum : Numbered n es) (hn : n ≤ base + ents.length + 1) :
    Numbered (base + 1) (splice base ents es) := by
  cases es with
  | nil => exact hents
  | cons e es =>
      have he := hnum.head
      rw [splice]
      split
      · exact hents
      · rename_i hne
        rw [List.drop_eq_nil_iff, List.length_cons, he] at hne
        refine (hents.take _).append ?_
        rw [List.length_take, he]
        have hrest := hnum.drop (base + 1 - n)
        have hstart : n + (base + 1 - n) = base + 1 + min (n - (base + 1)) ents.length := by omega
        rwa [hstart] at hrest

namespace MemoryStorage

variable {s s' : MemoryStorage}

/-- The entries behind the dummy entry. -/
def stored (s : MemoryStorage) : List Entry := s.entries.tail

lemma entries_eq (s : MemoryStorage) : s.entries = s.front :: s.stored :=
  (List.cons_head_tail s.nonempty).symm

lemma front_eq {e : Entry} {es : List Entry} (h : s.entries = e :: es) : s.front = e := by
  simp [front, h]

lemma stored_eq {e : Entry} {es : List Entry} (h : s.entries = e :: es) : s.stored = es := by
  simp [stored, h]

lemma lastIndex_eq (s : MemoryStorage) : s.lastIndex = s.front.index + s.stored.length := by
  rw [lastIndex, entries_eq s, List.length_cons]
  rfl

/-- **`append` splices a batch of consecutive entries in**, if it leaves no gap. -/
theorem append_numbered {n : Nat} {es : List Entry} (hnum : Numbered n es)
    (hn : es ≠ [] → n ≤ s.lastIndex + 1) :
    ∃ s', s.append es = Except.ok s' ∧ s'.front = s.front ∧
      s'.stored = splice s.front.index s.stored es ∧ s'.snapshot = s.snapshot ∧
      s'.hardState = s.hardState := by
  cases es with
  | nil => exact ⟨s, rfl, rfl, rfl, rfl, rfl⟩
  | cons e es =>
      have he := hnum.head
      have hgap := hn (List.cons_ne_nil _ _)
      rw [lastIndex_eq] at hgap
      have hlen : s.entries.length = s.stored.length + 1 := by rw [entries_eq s]; rfl
      simp only [append, firstIndex, he]
      by_cases hold : n + (es.length + 1) - 1 < s.front.index + 1
      · rw [if_pos hold]
        refine ⟨s, rfl, rfl, ?_, rfl, rfl⟩
        rw [splice, if_pos]
        rw [List.drop_eq_nil_iff, List.length_cons]
        omega
      rw [if_neg hold]
      cases hdrop : (e :: es).drop (s.front.index + 1 - n) with
      | nil =>
          rw [List.drop_eq_nil_iff, List.length_cons] at hdrop
          omega
      | cons e₁ es₁ =>
          have hindex : e₁.index = max n (s.front.index + 1) := by
            have := hnum.drop (s.front.index + 1 - n)
            rw [hdrop] at this
            rw [this.head]
            omega
          have hoffset : e₁.index - s.front.index = (n - (s.front.index + 1)) + 1 := by omega
          have hentries : s.entries.take (e₁.index - s.front.index) ++ e₁ :: es₁ =
              s.front :: (s.stored.take (n - (s.front.index + 1)) ++ e₁ :: es₁) := by
            rw [hoffset, entries_eq s]
            rfl
          dsimp only
          rw [if_neg (by omega)]
          refine ⟨_, rfl, front_eq hentries, (stored_eq hentries).trans ?_, rfl, rfl⟩
          simp [splice, he, hdrop]

/-- **`compact` drops the entries up to an index**, whose term the dummy entry takes over, or refuses
an index that was compacted before. -/
theorem compact_cases {i : Nat} {status : Status} (hnum : Numbered s.front.index s.entries)
    (h : s.compact i = Except.ok (s', status)) :
    (s' = s ∧ i ≤ s.front.index) ∨
    (s.front.index < i ∧ i ≤ s.lastIndex ∧ ∃ e, s.stored[i - (s.front.index + 1)]? = some e ∧
      s'.front.index = i ∧ s'.front.term = e.term ∧
      s'.stored = s.stored.drop (i - s.front.index) ∧ s'.snapshot = s.snapshot) := by
  simp only [compact] at h
  split at h
  · rename_i hold
    cases h
    exact Or.inl ⟨rfl, hold⟩
  rename_i hnew
  split at h
  · cases h
  rename_i hlast
  split at h
  · cases h
  rename_i e he
  cases h
  have hindex : e.index = i := by
    have := hnum _ e he
    omega
  have hoffset : i - s.front.index = i - (s.front.index + 1) + 1 := by omega
  refine Or.inr ⟨by omega, by omega, e, ?_, hindex, rfl, ?_, rfl⟩
  · rw [entries_eq s, hoffset] at he
    exact he
  · refine (stored_eq rfl).trans ?_
    rw [entries_eq s]
    rfl

/-- An index that is held and was not compacted yet can be compacted. -/
lemma compact_returns {i : Nat} (hnum : Numbered s.front.index s.entries)
    (hnew : s.front.index < i) (hlast : i ≤ s.lastIndex) :
    ∃ s', s.compact i = Except.ok (s', Status.ok) ∧ s'.front.index = i ∧
      s'.lastIndex = s.lastIndex ∧ Numbered s'.front.index s'.entries ∧
      s'.snapshot = s.snapshot := by
  have hreturns : ∃ s', s.compact i = Except.ok (s', Status.ok) := by
    rw [compact]
    dsimp only
    rw [if_neg (by omega), if_neg (by omega)]
    cases he : s.entries[i - s.front.index]? with
    | none =>
        have hlen := List.getElem?_eq_none_iff.mp he
        have hend := s.lastIndex_eq
        rw [entries_eq s, List.length_cons] at hlen
        omega
    | some e => exact ⟨_, rfl⟩
  obtain ⟨s', hs'⟩ := hreturns
  rcases compact_cases hnum hs' with ⟨-, hle⟩ | ⟨-, -, e, -, hfront, -, hstored, hsnapshot⟩
  · omega
  · refine ⟨s', hs', hfront, ?_, ?_, hsnapshot⟩
    · have hend := s.lastIndex_eq
      rw [lastIndex_eq, hfront, hstored, List.length_drop]
      omega
    · rw [entries_eq s] at hnum
      rw [entries_eq s', hstored, hfront]
      have hdrop := hnum.tail.drop (i - s.front.index)
      rw [show s.front.index + 1 + (i - s.front.index) = i + 1 by omega] at hdrop
      exact Numbered.cons hfront hdrop

/-- An entry that is held can be made the newest snapshot. -/
lemma createSnapshot_returns {i : Nat} (cs : Option ConfState) (data : Bytes)
    (hnew : s.snapshot.metadata.index < i) (hlow : s.front.index ≤ i) (hhigh : i ≤ s.lastIndex) :
    ∃ snapshot : Snapshot, snapshot.metadata.index = i ∧ snapshot.data = data ∧
      s.createSnapshot i cs data =
        Except.ok ({ s with snapshot := snapshot }, snapshot, Status.ok) := by
  rw [createSnapshot, if_neg (by omega), if_neg (by omega), if_neg (by omega)]
  cases he : s.entries[i - s.front.index]? with
  | none =>
      have hlen := List.getElem?_eq_none_iff.mp he
      have hend := s.lastIndex_eq
      rw [entries_eq s, List.length_cons] at hlen
      omega
  | some e => exact ⟨_, rfl, rfl, rfl⟩

/-- The snapshot that is made is the newest one, and has the term of its entry. -/
lemma createSnapshot_eq_ok {i : Nat} {cs : Option ConfState} {data : Bytes} {snapshot : Snapshot}
    (h : s.createSnapshot i cs data = Except.ok (s', snapshot, Status.ok)) :
    s.front.index ≤ i ∧ snapshot.metadata.index = i ∧ s' = { s with snapshot := snapshot } ∧
      ∃ e, s.entries[i - s.front.index]? = some e ∧ snapshot.metadata.term = e.term := by
  rw [createSnapshot] at h
  split at h
  · cases h
  split at h
  · cases h
  split at h
  · cases h
  rename_i hlow
  split at h
  · cases h
  · rename_i e he
    cases h
    exact ⟨Nat.le_of_not_lt hlow, rfl, rfl, e, he, rfl⟩

end MemoryStorage

end RaftKv
