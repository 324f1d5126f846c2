import Mathlib.Data.List.AList
import Mathlib.Tactic.Lemma

/-!
# Maps keyed by a number, with an iteration order

`AList` is the map; this file adds the two operations it lacks and that pointer-valued maps
need: changing every value in place (`mapWithKey`) and changing one value in place (`modify`).
Neither touches the keys or their order, so an iteration over the keys may call them.
-/

namespace RaftKv

/-- A map keyed by numbers.  The order of its entries is the iteration order. -/
abbrev IdMap (β : Type) := AList (fun _ : Nat => β)

namespace IdMap

variable {β : Type}

/-- Change every value, each with its key at hand. -/
def mapWithKey (f : Nat → β → β) (m : IdMap β) : IdMap β :=
  ⟨m.entries.map fun e => ⟨e.1, f e.1 e.2⟩, List.NodupKeys.map₂ f m.entries m.nodupKeys⟩

/-- Change the value at one key, if there is one. -/
def modify (k : Nat) (f : β → β) (m : IdMap β) : IdMap β :=
  m.mapWithKey fun a b => if a = k then f b else b

@[simp] theorem keys_mapWithKey (f : Nat → β → β) (m : IdMap β) :
    (m.mapWithKey f).keys = m.keys :=
  List.map₂_keys f m.entries

@[simp] theorem lookup_mapWithKey (f : Nat → β → β) (m : IdMap β) (a : Nat) :
    (m.mapWithKey f).lookup a = (m.lookup a).map (f a) :=
  List.dlookup_map₂ a

@[simp] theorem mem_mapWithKey (f : Nat → β → β) (m : IdMap β) (a : Nat) :
    a ∈ m.mapWithKey f ↔ a ∈ m := by
  rw [AList.mem_keys, AList.mem_keys, keys_mapWithKey]

@[simp] theorem keys_modify (k : Nat) (f : β → β) (m : IdMap β) :
    (m.modify k f).keys = m.keys := keys_mapWithKey _ m

@[simp] theorem mem_modify (k : Nat) (f : β → β) (m : IdMap β) (a : Nat) :
    a ∈ m.modify k f ↔ a ∈ m := mem_mapWithKey _ m a

@[simp] theorem lookup_modify_self (k : Nat) (f : β → β) (m : IdMap β) :
    (m.modify k f).lookup k = (m.lookup k).map f := by
  simp [modify]

theorem lookup_modify_of_ne {k a : Nat} (h : a ≠ k) (f : β → β) (m : IdMap β) :
    (m.modify k f).lookup a = m.lookup a := by
  simp [modify, h]

/-- A list of something about the values is a list of the same about what the keys look up. -/
theorem map_entries_eq_map_keys {γ : Type} (g : β → γ) (d : γ) (m : IdMap β) :
    m.entries.map (fun e => g e.2) = m.keys.map fun k => ((m.lookup k).map g).getD d := by
  simp only [AList.keys, List.keys, List.map_map]
  refine List.map_congr_left fun e he => ?_
  have : m.lookup e.1 = some e.2 := AList.mem_lookup_iff.mpr he
  simp [this]

end IdMap

end RaftKv
