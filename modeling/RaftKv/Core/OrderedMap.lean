import Mathlib.Data.List.Lex
import Mathlib.Data.List.Nodup
import Mathlib.Order.Lattice
import Mathlib.Tactic.Lemma

/-!
# Ordered maps

A finite map held as the list of its entries in increasing order of their keys: what an ordered
key-value store shows to somebody who iterates over it.

* `OrderedMap` — the entries together with the proof that their keys increase.
* `OrderedMap.get_put`, `OrderedMap.get_erase` — **the two updates, seen through `get`**.
* `OrderedMap.ext_get` — a map is determined by what `get` returns.
* `OrderedMap.get_ofList` — the last pair of a key decides what a list of pairs says about it.
-/

namespace RaftKv

/-- A finite map as the list of its entries in increasing order of their keys. -/
structure OrderedMap (κ ν : Type) [LinearOrder κ] where
  entries : List (κ × ν)
  sorted : entries.Pairwise fun a b => a.1 < b.1

namespace OrderedMap

variable {κ ν : Type} [LinearOrder κ]

/-- The value at a key of a list of entries. -/
def find (k : κ) : List (κ × ν) → Option ν
  | [] => none
  | e :: es => if e.1 = k then some e.2 else find k es

/-- The entries with one key set; the list is searched up to the key's place. -/
def insertEntry (k : κ) (v : ν) : List (κ × ν) → List (κ × ν)
  | [] => [(k, v)]
  | e :: es =>
      if k < e.1 then (k, v) :: e :: es
      else if e.1 = k then (k, v) :: es
      else e :: insertEntry k v es

lemma fst_mem_insertEntry {k : κ} {v : ν} {es : List (κ × ν)} {e : κ × ν}
    (h : e ∈ insertEntry k v es) : e.1 = k ∨ e ∈ es := by
  induction es with
  | nil =>
      left
      simp_all [insertEntry]
  | cons e' es ih =>
      simp only [insertEntry] at h
      split_ifs at h
      · rcases List.mem_cons.mp h with rfl | h
        · exact Or.inl rfl
        · exact Or.inr h
      · rcases List.mem_cons.mp h with rfl | h
        · exact Or.inl rfl
        · exact Or.inr (List.mem_cons_of_mem _ h)
      · rcases List.mem_cons.mp h with rfl | h
        · exact Or.inr (List.mem_cons_self ..)
        · exact (ih h).imp_right (List.mem_cons_of_mem _)

lemma pairwise_insertEntry {k : κ} {v : ν} {es : List (κ × ν)}
    (h : es.Pairwise fun a b => a.1 < b.1) :
    (insertEntry k v es).Pairwise fun a b => a.1 < b.1 := by
  induction es with
  | nil => simp [insertEntry]
  | cons e es ih =>
      obtain ⟨he, hes⟩ := List.pairwise_cons.mp h
      simp only [insertEntry]
      split_ifs with hlt heq
      · refine List.pairwise_cons.mpr ⟨fun a ha => ?_, h⟩
        rcases List.mem_cons.mp ha with rfl | ha
        · exact hlt
        · exact hlt.trans (he a ha)
      · exact List.pairwise_cons.mpr ⟨fun a ha => heq ▸ he a ha, hes⟩
      · refine List.pairwise_cons.mpr ⟨fun a ha => ?_, ih hes⟩
        rcases fst_mem_insertEntry ha with hk | ha
        · exact hk ▸ lt_of_le_of_ne (not_lt.mp hlt) heq
        · exact he a ha

/-- The map without entries. -/
def empty : OrderedMap κ ν := ⟨[], List.Pairwise.nil⟩

/-- The value at a key. -/
def get (m : OrderedMap κ ν) (k : κ) : Option ν := find k m.entries

/-- Set the value at a key. -/
def put (m : OrderedMap κ ν) (k : κ) (v : ν) : OrderedMap κ ν :=
  ⟨insertEntry k v m.entries, pairwise_insertEntry m.sorted⟩

/-- Remove a key. -/
def erase (m : OrderedMap κ ν) (k : κ) : OrderedMap κ ν :=
  ⟨m.entries.filter fun e => e.1 ≠ k, m.sorted.filter _⟩

/-- The map that a list of pairs describes: a later pair replaces an earlier one. -/
def ofList (kvs : List (κ × ν)) : OrderedMap κ ν :=
  kvs.foldl (fun m kv => m.put kv.1 kv.2) empty

/-! ## What `get` sees -/

@[simp] theorem get_empty (k : κ) : (empty : OrderedMap κ ν).get k = none := rfl

lemma find_insertEntry {k a : κ} {v : ν} (es : List (κ × ν)) :
    find a (insertEntry k v es) = if a = k then some v else find a es := by
  induction es with
  | nil => simp [insertEntry, find, eq_comm]
  | cons e es ih =>
      by_cases hak : a = k
      · subst hak
        rw [if_pos rfl] at ih ⊢
        simp only [insertEntry]
        split_ifs with hlt heq
        · simp [find]
        · simp [find]
        · rw [find, if_neg heq, ih]
      · rw [if_neg hak] at ih ⊢
        simp only [insertEntry]
        split_ifs with hlt heq
        · rw [find, if_neg (Ne.symm hak)]
        · rw [find, find, if_neg (Ne.symm hak), if_neg fun h => hak (h.symm.trans heq)]
        · rw [find, find, ih]

theorem get_put (m : OrderedMap κ ν) (k a : κ) (v : ν) :
    (m.put k v).get a = if a = k then some v else m.get a :=
  find_insertEntry m.entries

@[simp] theorem get_put_self (m : OrderedMap κ ν) (k : κ) (v : ν) :
    (m.put k v).get k = some v := by
  rw [get_put, if_pos rfl]

theorem get_put_of_ne (m : OrderedMap κ ν) {k a : κ} (h : a ≠ k) (v : ν) :
    (m.put k v).get a = m.get a := by
  rw [get_put, if_neg h]

theorem get_erase (m : OrderedMap κ ν) (k a : κ) :
    (m.erase k).get a = if a = k then none else m.get a := by
  show find a (m.entries.filter _) = if a = k then none else find a m.entries
  induction m.entries with
  | nil => simp [find]
  | cons e es ih =>
      by_cases hek : e.1 = k
      · rw [List.filter_cons_of_neg (by simpa using hek), ih]
        by_cases hak : a = k
        · simp [hak]
        · have : e.1 ≠ a := fun h => hak (h ▸ hek)
          simp [hak, find, this]
      · rw [List.filter_cons_of_pos (by simpa using hek)]
        by_cases hak : a = k
        · simp [find, hak, hek] at ih ⊢
          exact ih
        · simp only [find, ih, if_neg hak]

@[simp] theorem get_erase_self (m : OrderedMap κ ν) (k : κ) : (m.erase k).get k = none := by
  rw [get_erase, if_pos rfl]

theorem get_erase_of_ne (m : OrderedMap κ ν) {k a : κ} (h : a ≠ k) :
    (m.erase k).get a = m.get a := by
  rw [get_erase, if_neg h]

/-! ## A map is what `get` returns -/

lemma mem_of_find {k : κ} {v : ν} {es : List (κ × ν)} (h : find k es = some v) :
    (k, v) ∈ es := by
  induction es with
  | nil => cases h
  | cons e es ih =>
      rw [find] at h
      split_ifs at h with he
      · cases h
        exact he ▸ List.mem_cons_self ..
      · exact List.mem_cons_of_mem _ (ih h)

lemma mem_iff_find {es : List (κ × ν)} (h : es.Pairwise fun a b => a.1 < b.1) (e : κ × ν) :
    e ∈ es ↔ find e.1 es = some e.2 := by
  induction es with
  | nil => simp [find]
  | cons e' es ih =>
      obtain ⟨hlt, hes⟩ := List.pairwise_cons.mp h
      by_cases heq : e'.1 = e.1
      · rw [find, if_pos heq, List.mem_cons]
        constructor
        · rintro (rfl | hmem)
          · rfl
          · exact absurd heq (hlt e hmem).ne
        · intro hv
          exact Or.inl (Prod.ext heq.symm (Option.some.inj hv).symm)
      · rw [find, if_neg heq, List.mem_cons, ih hes]
        exact or_iff_right fun h => heq (h ▸ rfl)

theorem mem_entries (m : OrderedMap κ ν) (e : κ × ν) :
    e ∈ m.entries ↔ m.get e.1 = some e.2 :=
  mem_iff_find m.sorted e

theorem ext_get {m m' : OrderedMap κ ν} (h : ∀ k, m.get k = m'.get k) : m = m' := by
  have hnodup : ∀ m : OrderedMap κ ν, m.entries.Nodup := fun m =>
    m.sorted.imp fun hlt heq => hlt.ne (congrArg Prod.fst heq)
  have hperm : m.entries.Perm m'.entries :=
    (List.perm_ext_iff_of_nodup (hnodup m) (hnodup m')).mpr fun e => by
      rw [mem_entries, mem_entries, h]
  have : m.entries = m'.entries :=
    hperm.eq_of_pairwise (fun a b _ _ hab hba => absurd hab hba.asymm) m.sorted m'.sorted
  cases m
  cases m'
  simpa using this

theorem entries_eq_nil {m : OrderedMap κ ν} : m.entries = [] ↔ ∀ k, m.get k = none := by
  constructor
  · intro h k
    rw [get, h]
    rfl
  · intro h
    refine List.eq_nil_iff_forall_not_mem.mpr fun e he => ?_
    rw [mem_entries, h] at he
    cases he

/-! ## Lists of pairs -/

/-- The last pair of a list with a key. -/
def lastOf (k : κ) (kvs : List (κ × ν)) : Option ν :=
  find k kvs.reverse

lemma find_append (k : κ) (es es' : List (κ × ν)) :
    find k (es ++ es') = (find k es).or (find k es') := by
  induction es with
  | nil => rfl
  | cons e es ih =>
      rw [List.cons_append, find, find]
      split_ifs
      · rfl
      · exact ih

lemma lastOf_cons (k : κ) (kv : κ × ν) (kvs : List (κ × ν)) :
    lastOf k (kv :: kvs) = (lastOf k kvs).or (if kv.1 = k then some kv.2 else none) := by
  rw [lastOf, List.reverse_cons, find_append]
  rfl

/-- Putting a list of pairs one after the other: its last pair of a key wins. -/
theorem get_foldl_put (m : OrderedMap κ ν) (kvs : List (κ × ν)) (k : κ) :
    (kvs.foldl (fun m kv => m.put kv.1 kv.2) m).get k = (lastOf k kvs).or (m.get k) := by
  induction kvs generalizing m with
  | nil => rfl
  | cons kv kvs ih =>
      rw [List.foldl_cons, ih, lastOf_cons, get_put]
      by_cases h : kv.1 = k
      · simp [h]
      · simp [h, Ne.symm h]

theorem get_ofList (kvs : List (κ × ν)) (k : κ) : (ofList kvs).get k = lastOf k kvs := by
  simp [ofList, get_foldl_put]

lemma lastOf_eq_none {k : κ} {kvs : List (κ × ν)} :
    lastOf k kvs = none ↔ ∀ kv ∈ kvs, kv.1 ≠ k := by
  induction kvs with
  | nil => simp [lastOf, find]
  | cons kv kvs ih =>
      simp only [lastOf_cons, Option.or_eq_none_iff, ih, List.forall_mem_cons]
      constructor
      · rintro ⟨h, hkv⟩
        exact ⟨fun heq => by simp [heq] at hkv, h⟩
      · rintro ⟨hkv, h⟩
        exact ⟨h, if_neg hkv⟩

/-- Erasing a list of keys. -/
theorem get_foldl_erase (m : OrderedMap κ ν) (ks : List κ) (k : κ) :
    (ks.foldl erase m).get k = if k ∈ ks then none else m.get k := by
  induction ks generalizing m with
  | nil => simp
  | cons a ks ih =>
      rw [List.foldl_cons, ih, get_erase]
      by_cases hk : k ∈ ks
      · simp [hk]
      · by_cases ha : k = a <;> simp [hk, ha]

theorem ofList_entries (m : OrderedMap κ ν) : ofList m.entries = m := by
  refine ext_get fun k => ?_
  rw [get_ofList]
  cases hk : lastOf k m.entries with
  | none =>
      cases hm : m.get k with
      | none => rfl
      | some v => exact absurd rfl (lastOf_eq_none.mp hk (k, v) ((m.mem_entries (k, v)).mpr hm))
  | some v =>
      have hmem : (k, v) ∈ m.entries := List.mem_reverse.mp (mem_of_find hk)
      exact ((m.mem_entries (k, v)).mp hmem).symm

end OrderedMap

end RaftKv
