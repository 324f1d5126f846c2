import Mathlib.Data.Finset.Card
import Mathlib.Data.List.Sort
import Mathlib.Data.Set.Basic

/-!
# Majorities

* `Majority` — a set of nodes that contains more than half of the voters.
* `Majority.inter` — **two majorities meet**.
* `le_countP_of_sorted`, `le_of_le_countP` — the value at the right place of a sorted list is the largest
  one that so many entries reach.
* `majority_of_sorted` — the value at the right place of a sorted list is reached by a majority.
-/

namespace Replication

variable {Id : Type}

/-- `A` contains more than half of the voters. -/
def Majority (voters : Finset Id) (A : Set Id) : Prop :=
  ∃ Q ⊆ voters, voters.card / 2 + 1 ≤ Q.card ∧ ∀ i ∈ Q, i ∈ A

namespace Majority

variable {voters : Finset Id} {A B : Set Id}

theorem mono (h : A ⊆ B) (hA : Majority voters A) : Majority voters B := by
  obtain ⟨Q, hQ, hcard, hmem⟩ := hA
  exact ⟨Q, hQ, hcard, fun i hi => h (hmem i hi)⟩

/-- **Two majorities meet.** -/
theorem inter (hA : Majority voters A) (hB : Majority voters B) : ∃ i, i ∈ A ∧ i ∈ B := by
  classical
  obtain ⟨P, hP, hPcard, hPmem⟩ := hA
  obtain ⟨Q, hQ, hQcard, hQmem⟩ := hB
  obtain ⟨i, hi⟩ := Finset.inter_nonempty_of_card_lt_card_add_card hP hQ (by omega)
  rw [Finset.mem_inter] at hi
  exact ⟨i, hPmem i hi.1, hQmem i hi.2⟩

theorem univ (h : voters.Nonempty) : Majority voters (Set.univ : Set Id) := by
  have := h.card_pos
  exact ⟨voters, Finset.Subset.refl _, by omega, fun i _ => Set.mem_univ i⟩

end Majority

/-- In a sorted list, the entry that has `q - 1` entries behind it is reached by `q` entries. -/
theorem le_countP_of_sorted {xs : List Nat} (hs : xs.Pairwise (· ≤ ·)) {q v : Nat} (hq : 0 < q)
    (hv : xs[xs.length - q]? = some v) (hle : q ≤ xs.length) :
    q ≤ xs.countP fun x => v ≤ x := by
  have hlt : xs.length - q < xs.length := by omega
  have hall : ∀ x ∈ xs.drop (xs.length - q), v ≤ x := by
    rw [List.drop_eq_getElem_cons hlt]
    have hval : xs[xs.length - q] = v := by
      simpa [List.getElem?_eq_getElem hlt] using hv
    have hsorted := hs.sublist (List.drop_sublist (xs.length - q) xs)
    rw [List.drop_eq_getElem_cons hlt, List.pairwise_cons, hval] at hsorted
    intro x hx
    rcases List.mem_cons.mp hx with rfl | hx
    · exact hval.ge
    · exact hsorted.1 x hx
  have hcount : (xs.drop (xs.length - q)).countP (fun x => v ≤ x) = q := by
    rw [List.countP_eq_length.mpr (by simpa using hall), List.length_drop]
    omega
  calc q = (xs.drop (xs.length - q)).countP (fun x => v ≤ x) := hcount.symm
    _ ≤ xs.countP fun x => v ≤ x := (List.drop_sublist _ _).countP_le

/-- No more than that: a value that `q` entries reach is not larger. -/
theorem le_of_le_countP {xs : List Nat} (hs : xs.Pairwise (· ≤ ·)) {q v k : Nat} (hq : 0 < q)
    (hv : xs[xs.length - q]? = some v) (hle : q ≤ xs.length)
    (hk : q ≤ xs.countP fun x => k ≤ x) : k ≤ v := by
  by_contra hvk
  have hlt : xs.length - q < xs.length := by omega
  have hval : xs[xs.length - q] = v := by
    simpa [List.getElem?_eq_getElem hlt] using hv
  have hfront : (xs.take (xs.length - q + 1)).countP (fun x => k ≤ x) = 0 := by
    rw [List.countP_eq_zero]
    intro x hx
    obtain ⟨i, hi, rfl⟩ := List.mem_take_iff_getElem.mp hx
    have hxv : xs[i] ≤ xs[xs.length - q] := by
      rcases Nat.lt_or_ge i (xs.length - q) with hlt' | hge
      · exact List.pairwise_iff_getElem.mp hs i (xs.length - q) (by omega) hlt hlt'
      · exact Nat.le_of_eq (by congr 1; omega)
    simp only [decide_eq_true_eq]
    omega
  have hback : (xs.drop (xs.length - q + 1)).countP (fun x => k ≤ x) ≤ q - 1 := by
    refine List.countP_le_length.trans ?_
    rw [List.length_drop]
    omega
  have hsum : xs.countP (fun x => k ≤ x) =
      (xs.take (xs.length - q + 1)).countP (fun x => k ≤ x) +
        (xs.drop (xs.length - q + 1)).countP fun x => k ≤ x := by
    rw [← List.countP_append, List.take_append_drop]
  omega

/-- A majority of the voters reaches the value that stands at the majority's place of the sorted
list of everybody's value. -/
theorem majority_of_sorted [DecidableEq Id] {ids : List Id} (hnd : ids.Nodup) (f : Id → Nat) {v : Nat}
    (hv : ((ids.map f).insertionSort (· ≤ ·))[ids.length - (ids.length / 2 + 1)]? = some v)
    (hle : ids.length / 2 + 1 ≤ ids.length) :
    Majority ids.toFinset {i | v ≤ f i} := by
  refine ⟨(ids.filter fun i => v ≤ f i).toFinset, ?_, ?_, ?_⟩
  · intro i hi
    simp only [List.mem_toFinset, List.mem_filter] at hi
    exact List.mem_toFinset.mpr hi.1
  · rw [List.toFinset_card_of_nodup hnd, List.toFinset_card_of_nodup (hnd.filter _),
      ← List.countP_eq_length_filter]
    have hlen : ((ids.map f).insertionSort (· ≤ ·)).length = ids.length := by simp
    have hcount := le_countP_of_sorted (List.pairwise_insertionSort (· ≤ ·) (ids.map f))
      (Nat.succ_pos (ids.length / 2)) (by rwa [hlen]) (by rwa [hlen])
    rw [(List.perm_insertionSort (· ≤ ·) (ids.map f)).countP_eq, List.countP_map] at hcount
    exact hcount
  · intro i hi
    simp only [List.mem_toFinset, List.mem_filter, decide_eq_true_eq] at hi
    exact hi.2

end Replication
