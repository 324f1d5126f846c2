import RaftKv.Wal.Reading

/-!
# A log without gaps

`read_all` puts an entry where its index says, and fills up with null pointers what is missing
before it.

* `Gapless` — no entry that is read leaves a gap behind the entries before it.
* `Gapless.shift` — **behind a later snapshot there is no gap either**.
* `Wal.Dense` — the file of a log is without gaps; **what is written behind the last entry** keeps it
  so.
* `Wal.Dense.full` — then no null pointer is read.
-/

namespace RaftKv

/-- No entry that is read behind `start` leaves a gap behind the one before it, whose index is
`last`. -/
def Gapless (start : Nat) : Nat → List Entry → Prop
  | _, [] => True
  | last, e :: es =>
      if start < e.index then e.index ≤ last + 1 ∧ Gapless start e.index es
      else Gapless start last es

/-- The index of the last entry that is read. -/
def reach (start last : Nat) (es : List Entry) : Nat :=
  es.foldl (fun last e => if start < e.index then e.index else last) last

variable {start last n : Nat} {es more : List Entry}

@[simp] lemma reach_nil (start last : Nat) : reach start last [] = last := rfl

lemma gapless_append : Gapless start last (es ++ more) ↔
    Gapless start last es ∧ Gapless start (reach start last es) more := by
  induction es generalizing last with
  | nil => simp [Gapless]
  | cons e es ih =>
      rw [List.cons_append, Gapless, Gapless, reach, List.foldl_cons]
      split
      · rw [ih, and_assoc]
        rfl
      · exact ih

/-- **Behind a later snapshot there is no gap either.** -/
theorem Gapless.shift {a b last' : Nat} (h : Gapless a last es) (hab : a ≤ b) (hlast : last ≤ last')
    (hb : b ≤ last') : Gapless b last' es := by
  induction es generalizing last last' with
  | nil => trivial
  | cons e es ih =>
      rw [Gapless] at h
      rw [Gapless]
      split
      · rename_i hlt
        rw [if_pos (hab.trans_lt hlt)] at h
        exact ⟨by omega, ih h.2 le_rfl hlt.le⟩
      · rename_i hge
        split at h
        · exact ih h.2 (by omega) hb
        · exact ih h hlast hb

lemma gapless_of_numbered (h : Numbered n es) (hn : n ≤ last + 1) (hlast : start ≤ last) :
    Gapless start last es := by
  induction es generalizing n last with
  | nil => trivial
  | cons e es ih =>
      have he : e.index = n := h.head
      rw [Gapless]
      split
      · rename_i hlt
        exact ⟨by omega, ih h.tail (by omega) hlt.le⟩
      · rename_i hge
        exact ih h.tail (by omega) hlast

/-- All places up to the index `last` hold an entry. -/
structure WalReplay.Full (start last : Nat) (t : WalReplay) : Prop where
  none_notMem : none ∉ t.ents
  last_eq : start + t.ents.length = last

lemma WalReplay.Full.congr {t t' : WalReplay} (h : t.Full start last) (hents : t'.ents = t.ents) :
    t'.Full start last :=
  ⟨hents ▸ h.none_notMem, hents ▸ h.last_eq⟩

/-- An entry that leaves no gap. -/
lemma WalReplay.Full.read {t : WalReplay} {e : Entry} (h : t.Full start last)
    (hlt : start < e.index) (hle : e.index ≤ last + 1) : (t.read start e).Full start e.index := by
  have hlast := h.last_eq
  have hlen := Wal.length_resizeEntries (e.index - start - 1) t.ents
  rw [WalReplay.read, if_pos hlt]
  refine ⟨fun hmem => ?_, ?_⟩
  · have hzero : e.index - start - 1 - t.ents.length = 0 := by omega
    rw [resizeEntries, hzero, List.replicate_zero, List.append_nil, List.mem_append] at hmem
    rcases hmem with hmem | hmem
    · exact h.none_notMem (List.mem_of_mem_take hmem)
    · cases List.mem_singleton.mp hmem
  · show start + (resizeEntries _ t.ents ++ [some e]).length = e.index
    rw [List.length_append, hlen, List.length_singleton]
    omega

namespace Wal

variable {f : WalFormat} {start a b : WalSnapshot} {content : Bytes} {items : List WalItem}
  {s t : WalReplay} {w : Wal}

/-- **Without gaps no null pointer is read.** -/
theorem full_replay {last : Nat} (h : Gapless start.index last (items.filterMap WalItem.entry?))
    (hs : s.Full start.index last) (hfold : items.foldlM (replayItem start) s = Except.ok t) :
    t.Full start.index (reach start.index last (items.filterMap WalItem.entry?)) := by
  induction items generalizing last s with
  | nil =>
      cases hfold
      exact hs
  | cons i items ih =>
      rw [List.foldlM_cons] at hfold
      obtain ⟨s₁, hs₁, hfold⟩ := Outcome.bind_eq_ok.mp hfold
      rcases replayItem_cases hs₁ with ⟨e, rfl, rfl⟩ | ⟨hs', rfl, rfl⟩ | ⟨mark, rfl, -, rfl⟩
      · have hcons : (WalItem.entry e :: items).filterMap WalItem.entry? =
            e :: items.filterMap WalItem.entry? := rfl
        rw [hcons, Gapless] at h
        rw [hcons, reach, List.foldl_cons]
        split at h
        · rename_i hlt
          rw [if_pos hlt]
          exact ih h.2 (hs.read hlt h.1) hfold
        · rename_i hge
          rw [if_neg hge]
          rw [WalReplay.read_of_le (Nat.le_of_not_lt hge)] at hfold
          refine ih h ?_ hfold
          exact hs.congr rfl
      · refine ih h ?_ hfold
        exact hs.congr rfl
      · refine ih h ?_ hfold
        exact hs.congr rfl

/-- What the places before the index `n` hold, `s` has held already. -/
structure Follows (start n : Nat) (es : List Entry) (s t : WalReplay) : Prop where
  ents : es = [] → t.ents = s.ents
  before : ∀ i e, i < n → t.HoldsAt start i e → s.HoldsAt start i e

/-- **Entries that are read fill no place before them.** -/
theorem follows_replay {n : Nat} (hnum : Numbered n (items.filterMap WalItem.entry?))
    (hfold : items.foldlM (replayItem start) s = Except.ok t) :
    Follows start.index n (items.filterMap WalItem.entry?) s t := by
  induction items generalizing n s with
  | nil =>
      cases hfold
      exact ⟨fun _ => rfl, fun _ _ _ h => h⟩
  | cons i items ih =>
      rw [List.foldlM_cons] at hfold
      obtain ⟨s₁, hs₁, hfold⟩ := Outcome.bind_eq_ok.mp hfold
      rcases replayItem_cases hs₁ with ⟨e, rfl, rfl⟩ | ⟨hs', rfl, rfl⟩ | ⟨mark, rfl, -, rfl⟩
      · have hcons : (WalItem.entry e :: items).filterMap WalItem.entry? =
            e :: items.filterMap WalItem.entry? := rfl
        rw [hcons] at hnum ⊢
        have he : e.index = n := hnum.head
        refine ⟨fun hnil => (by cases hnil), fun i x hi hx => ?_⟩
        have hx := (ih hnum.tail hfold).before i x (by omega) hx
        rcases Nat.lt_or_ge start.index e.index with hlt | hge
        · rcases (WalReplay.holdsAt_read_of_lt hlt).mp hx with ⟨-, hx⟩ | ⟨rfl, -⟩
          · exact hx
          · omega
        · rw [WalReplay.read_of_le hge] at hx
          exact hx
      · exact ⟨(ih hnum hfold).ents, (ih hnum hfold).before⟩
      · exact ⟨(ih hnum hfold).ents, (ih hnum hfold).before⟩

/-! ## Files -/

/-- Read behind the snapshot, the file has no gap. -/
def Dense (f : WalFormat) (start : WalSnapshot) (content : Bytes) : Prop :=
  ∃ items, Lists f content items ∧
    Gapless start.index start.index (items.filterMap WalItem.entry?)

lemma Lists.unique {items' : List WalItem} (h : Lists f content items)
    (h' : Lists f content items') : items = items' :=
  List.map_injective_iff.mpr (Option.some_injective _) (h.records.symm.trans h'.records)

/-- What is read depends on the file alone. -/
lemma Backs.unique {w' : Wal} {t' : WalReplay} (h : Backs f start w t) (h' : Backs f start w' t')
    (hcontent : w'.file.content = w.file.content) : t' = t := by
  obtain ⟨items, hlists, hfold⟩ := h.lists
  obtain ⟨items', hlists', hfold'⟩ := h'.lists
  rw [hcontent] at hlists'
  obtain rfl := hlists.unique hlists'
  exact Except.ok.inj (hfold'.symm.trans hfold)

/-- What a flush adds to what is read. -/
lemma Backs.follows_flush {n : Nat} {w' : Wal} {t' : WalReplay} (h : Backs f start w t)
    (hfits : ∀ i ∈ items, i.Fits f) (hnum : Numbered n (items.filterMap WalItem.entry?))
    (h' : Backs f start w' t') (hcontent : w'.file.content = w.file.bytes ++ itemBytes f items) :
    Follows start.index n (items.filterMap WalItem.entry?) t t' := by
  obtain ⟨before, states, -, hfold, hflushed, -⟩ := h.flushed hfits
  obtain ⟨items', hlists', hfold'⟩ := h'.lists
  rw [hcontent] at hlists'
  obtain rfl := hlists'.unique hflushed
  rw [List.foldlM_append] at hfold'
  obtain ⟨t₁, ht₁, hfold'⟩ := Outcome.bind_eq_ok.mp hfold'
  obtain rfl : t = t₁ := Except.ok.inj (hfold.symm.trans ht₁)
  rw [← entries_states states] at hnum ⊢
  exact follows_replay hnum hfold'

/-- **What `save` adds to what is read.** -/
theorem Backs.follows_save {n : Nat} {hs : HardState} {es : List Entry} {t' : WalReplay}
    (h : Backs f start w t) (hfits : ∀ i ∈ saveItems (hs, es), i.Fits f) (hnum : Numbered n es)
    (h' : Backs f start (w.save f hs es) t') : Follows start.index n es t t' := by
  rcases save_cases f w hs es with ⟨-, -, hsame⟩ | ⟨hcontent, -, -⟩ | ⟨-, -, -, hcontent, -, -⟩
  · obtain rfl := h.unique h' (by rw [hsame])
    exact ⟨fun _ => rfl, fun _ _ _ hx => hx⟩
  · have hentries := entries_saveItems hs es
    rw [← hentries] at hnum ⊢
    exact h.follows_flush hfits hnum h' hcontent
  · obtain rfl := h.unique h' hcontent
    exact ⟨fun _ => rfl, fun _ _ _ hx => hx⟩

/-- The mark of a snapshot adds no entry. -/
lemma Backs.ents_saveSnapshot {mark : WalSnapshot} {t' : WalReplay} (h : Backs f start w t)
    (hfits : (WalItem.snapshot mark).Fits f) (h' : Backs f start (w.saveSnapshot f mark) t') :
    t'.ents = t.ents := by
  have hone : ∀ i ∈ [WalItem.snapshot mark], i.Fits f := List.forall_mem_singleton.mpr hfits
  exact (h.follows_flush hone (Numbered.nil 0) h' (content_saveSnapshot f w mark)).ents rfl

/-- **Behind a later snapshot the file has no gap either.** -/
theorem Dense.shift (h : Dense f a content) (hab : a.index ≤ b.index) : Dense f b content := by
  obtain ⟨items, hlists, hgapless⟩ := h
  exact ⟨items, hlists, hgapless.shift hab hab le_rfl⟩

/-- **No null pointer is read.** -/
theorem Dense.full (h : Dense f start w.file.content) (hbacks : Backs f start w t) :
    ∃ last, t.Full start.index last := by
  obtain ⟨items, hlists, hgapless⟩ := h
  obtain ⟨items', hlists', hfold⟩ := hbacks.lists
  obtain rfl := hlists.unique hlists'
  exact ⟨_, full_replay hgapless ⟨List.not_mem_nil, rfl⟩ hfold⟩

/-- **What is written behind the last entry** leaves no gap. -/
lemma Dense.flush {n : Nat} (h : Dense f start w.file.content) (hbacks : Backs f start w t)
    (hfits : ∀ i ∈ items, i.Fits f) (hnum : Numbered n (items.filterMap WalItem.entry?))
    (hn : n ≤ start.index + t.ents.length + 1) :
    Dense f start (w.file.bytes ++ itemBytes f items) := by
  obtain ⟨before, hlists, hgapless⟩ := h
  obtain ⟨before', states, hlists', hfold, hflushed, -⟩ := hbacks.flushed hfits
  obtain rfl := hlists.unique hlists'
  have hfull := full_replay hgapless ⟨List.not_mem_nil, rfl⟩ hfold
  refine ⟨_, hflushed, ?_⟩
  rw [List.filterMap_append, entries_states, gapless_append]
  refine ⟨hgapless, gapless_of_numbered hnum ?_ ?_⟩
  · rw [← hfull.last_eq]
    exact hn
  · rw [← hfull.last_eq]
    exact Nat.le_add_right ..

theorem Dense.saveSnapshot {mark : WalSnapshot} (h : Dense f start w.file.content)
    (hbacks : Backs f start w t) (hfits : (WalItem.snapshot mark).Fits f) :
    Dense f start (w.saveSnapshot f mark).file.content := by
  have hone : ∀ i ∈ [WalItem.snapshot mark], i.Fits f := List.forall_mem_singleton.mpr hfits
  rw [content_saveSnapshot]
  exact h.flush hbacks hone (Numbered.nil 0) (Nat.zero_le _)

theorem Dense.save {n : Nat} {hs : HardState} {es : List Entry} (h : Dense f start w.file.content)
    (hbacks : Backs f start w t) (hfits : ∀ i ∈ saveItems (hs, es), i.Fits f)
    (hnum : Numbered n es) (hn : n ≤ start.index + t.ents.length + 1) :
    Dense f start (w.save f hs es).file.content := by
  rcases save_cases f w hs es with ⟨-, -, hsame⟩ | ⟨hcontent, -, -⟩ | ⟨-, -, -, hcontent, -, -⟩
  · rw [hsame]
    exact h
  · rw [hcontent]
    exact h.flush hbacks hfits (by rw [entries_saveItems]; exact hnum) hn
  · rw [hcontent]
    exact h

end Wal

end RaftKv
