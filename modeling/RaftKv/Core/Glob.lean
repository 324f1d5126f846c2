import Mathlib.Computability.Language
import Mathlib.Data.List.Forall2
import Mathlib.Tactic.Lemma

/-!
# Languages of patterns with wildcards

A pattern is a list of tokens: `none` stands for any string, `some P` for one symbol out of `P`.

* `Glob.language` — the strings a pattern stands for.
* `Glob.mem_star`, `cons_mem_set`, `nil_mem` — how a string is taken apart.
* `Glob.sets` — the tokens that stand for one symbol; a string of the language that is as long as they
  are many takes one symbol out of each.
* `Glob.language_eq_iff` — **two patterns with their wildcards in the same places have the same
  language exactly when they have the same sets, or each has an empty one**.
-/

namespace RaftKv

namespace Glob

variable {α : Type} {g g' : List (Option (Set α))} {P : Set α} {c : α} {w : List α}

/-- The strings of one symbol out of a set. -/
def symbols (P : Set α) : Language α := {w | ∃ c ∈ P, w = [c]}

def language : List (Option (Set α)) → Language α
  | [] => 1
  | none :: g => ⊤ * language g
  | some P :: g => symbols P * language g

/-! ## How a string is taken apart -/

lemma mem_nil : w ∈ language ([] : List (Option (Set α))) ↔ w = [] := Language.mem_one w

lemma cons_mem_set : c :: w ∈ language (some P :: g) ↔ c ∈ P ∧ w ∈ language g := by
  rw [language, Language.mem_mul]
  constructor
  · rintro ⟨u, ⟨d, hd, rfl⟩, v, hv, h⟩
    obtain ⟨rfl, rfl⟩ := List.cons.inj h
    exact ⟨hd, hv⟩
  · rintro ⟨hc, hw⟩
    exact ⟨[c], ⟨c, hc, rfl⟩, w, hw, rfl⟩

lemma nil_notMem_set : [] ∉ language (some P :: g) := by
  rw [language, Language.mem_mul]
  rintro ⟨u, ⟨d, -, rfl⟩, v, -, h⟩
  cases h

/-- A wildcard takes some part of the string. -/
lemma mem_star : w ∈ language (none :: g) ↔ ∃ i, w.drop i ∈ language g := by
  rw [language, Language.mem_mul]
  constructor
  · rintro ⟨u, -, v, hv, rfl⟩
    exact ⟨u.length, by rwa [List.drop_left]⟩
  · rintro ⟨i, hi⟩
    exact ⟨w.take i, Set.mem_univ _, w.drop i, hi, List.take_append_drop i w⟩

lemma mem_star_of_mem (h : w ∈ language g) : w ∈ language (none :: g) :=
  mem_star.mpr ⟨0, h⟩

/-- Two wildcards are one. -/
lemma language_star_star : language (none :: none :: g) = language (none :: g) := by
  ext w
  constructor
  · intro h
    obtain ⟨i, hi⟩ := mem_star.mp h
    obtain ⟨j, hj⟩ := mem_star.mp hi
    rw [List.drop_drop] at hj
    exact mem_star.mpr ⟨i + j, hj⟩
  · exact mem_star_of_mem

/-- The empty string is in the language of wildcards only. -/
lemma nil_mem : [] ∈ language g ↔ ∀ t ∈ g, t = none := by
  induction g with
  | nil => exact ⟨fun _ t ht => absurd ht List.not_mem_nil, fun _ => mem_nil.mpr rfl⟩
  | cons t g ih =>
      rw [List.forall_mem_cons]
      cases t with
      | none =>
          rw [mem_star, ← ih]
          exact ⟨fun ⟨i, hi⟩ => ⟨rfl, by rwa [List.drop_nil] at hi⟩, fun h => ⟨0, h.2⟩⟩
      | some P => exact ⟨fun h => absurd h nil_notMem_set, fun h => absurd h.1 (Option.some_ne_none P)⟩

/-! ## One symbol out of each set -/

/-- The tokens that stand for one symbol. -/
def sets (g : List (Option (Set α))) : List (Set α) := g.filterMap fun t => t

@[simp] lemma sets_star : sets (none :: g) = sets g := rfl

@[simp] lemma sets_set : sets (some P :: g) = P :: sets g := rfl

lemma mem_of_forall₂ (h : List.Forall₂ (· ∈ ·) w (sets g)) : w ∈ language g := by
  induction g generalizing w with
  | nil =>
      cases h
      exact mem_nil.mpr rfl
  | cons t g ih =>
      cases t with
      | none => exact mem_star_of_mem (ih h)
      | some P =>
          obtain ⟨c, v, hc, hv, rfl⟩ := List.forall₂_cons_right_iff.mp h
          exact cons_mem_set.mpr ⟨hc, ih hv⟩

lemma exists_forall₂_of_mem (h : w ∈ language g) :
    ∃ v, List.Sublist v w ∧ List.Forall₂ (· ∈ ·) v (sets g) := by
  induction g generalizing w with
  | nil => exact ⟨[], List.nil_sublist w, List.Forall₂.nil⟩
  | cons t g ih =>
      cases t with
      | none =>
          obtain ⟨i, hi⟩ := mem_star.mp h
          obtain ⟨v, hv, hsets⟩ := ih hi
          exact ⟨v, hv.trans (List.drop_sublist i w), hsets⟩
      | some P =>
          cases w with
          | nil => exact absurd h nil_notMem_set
          | cons c w =>
              obtain ⟨hc, hw⟩ := cons_mem_set.mp h
              obtain ⟨v, hv, hsets⟩ := ih hw
              exact ⟨c :: v, hv.cons_cons c, hsets.cons hc⟩

/-- The shortest strings of the language take one symbol out of each set. -/
lemma mem_iff_forall₂ (hlength : w.length = (sets g).length) :
    w ∈ language g ↔ List.Forall₂ (· ∈ ·) w (sets g) := by
  refine ⟨fun h => ?_, mem_of_forall₂⟩
  obtain ⟨v, hsub, hv⟩ := exists_forall₂_of_mem h
  rwa [← hsub.eq_of_length (hv.length_eq.trans hlength.symm)]

/-- A pattern with an empty set stands for no string. -/
lemma notMem_of_void (h : ∅ ∈ sets g) : w ∉ language g := by
  intro hw
  obtain ⟨v, -, hv⟩ := exists_forall₂_of_mem hw
  obtain ⟨i, hi⟩ := List.mem_iff_get.mp h
  have hmem := hv.get (hv.length_eq.symm ▸ i.isLt : i.1 < v.length) i.isLt
  rw [show (sets g).get ⟨i, i.isLt⟩ = ∅ from hi] at hmem
  exact hmem

lemma exists_forall₂ {Ps : List (Set α)} (h : ∅ ∉ Ps) : ∃ w, List.Forall₂ (· ∈ ·) w Ps := by
  induction Ps with
  | nil => exact ⟨[], List.Forall₂.nil⟩
  | cons P Ps ih =>
      rw [List.mem_cons, not_or] at h
      obtain ⟨c, hc⟩ := Set.nonempty_iff_ne_empty.mpr (Ne.symm h.1)
      obtain ⟨w, hw⟩ := ih h.2
      exact ⟨c :: w, hw.cons hc⟩

/-- Lists of inhabited sets that have the same rows of members are the same. -/
lemma sets_eq {Ps Qs : List (Set α)} (hP : ∅ ∉ Ps) (hQ : ∅ ∉ Qs)
    (h : ∀ w, List.Forall₂ (· ∈ ·) w Ps ↔ List.Forall₂ (· ∈ ·) w Qs) : Ps = Qs := by
  induction Ps generalizing Qs with
  | nil =>
      cases (h []).mp List.Forall₂.nil
      rfl
  | cons P Ps ih =>
      obtain ⟨c₀, w₀, hc₀, hw₀, hrow⟩ := List.forall₂_cons_right_iff.mp (exists_forall₂ hP).choose_spec
      cases Qs with
      | nil => cases (h (c₀ :: w₀)).mp (hw₀.cons hc₀)
      | cons Q Qs =>
          have hboth : c₀ ∈ Q ∧ List.Forall₂ (· ∈ ·) w₀ Qs :=
            List.forall₂_cons.mp ((h (c₀ :: w₀)).mp (hw₀.cons hc₀))
          have hhead : P = Q := by
            ext c
            constructor
            · intro hc
              exact (List.forall₂_cons.mp ((h (c :: w₀)).mp (hw₀.cons hc))).1
            · intro hc
              exact (List.forall₂_cons.mp ((h (c :: w₀)).mpr (hboth.2.cons hc))).1
          have htail : Ps = Qs := by
            refine ih (fun hmem => hP (List.mem_cons_of_mem _ hmem))
              (fun hmem => hQ (List.mem_cons_of_mem _ hmem)) fun w => ?_
            constructor
            · intro hw
              exact (List.forall₂_cons.mp ((h (c₀ :: w)).mp (hw.cons hc₀))).2
            · intro hw
              exact (List.forall₂_cons.mp ((h (c₀ :: w)).mpr (hw.cons hboth.1))).2
          rw [hhead, htail]

/-! ## When two patterns have the same language -/

lemma eq_of_sets (hshape : g.map Option.isSome = g'.map Option.isSome) (h : sets g = sets g') :
    g = g' := by
  induction g generalizing g' with
  | nil =>
      cases g' with
      | nil => rfl
      | cons t g' => cases hshape
  | cons t g ih =>
      cases g' with
      | nil => cases hshape
      | cons t' g' =>
          obtain ⟨hhead, htail⟩ := List.cons.inj hshape
          cases t with
          | none =>
              cases t' with
              | none => rw [ih htail h]
              | some Q => cases hhead
          | some P =>
              cases t' with
              | none => cases hhead
              | some Q =>
                  obtain ⟨rfl, hsets⟩ := List.cons.inj h
                  rw [ih htail hsets]

lemma length_sets (hshape : g.map Option.isSome = g'.map Option.isSome) :
    (sets g).length = (sets g').length := by
  induction g generalizing g' with
  | nil =>
      cases g' with
      | nil => rfl
      | cons t g' => cases hshape
  | cons t g ih =>
      cases g' with
      | nil => cases hshape
      | cons t' g' =>
          obtain ⟨hhead, htail⟩ := List.cons.inj hshape
          cases t with
          | none =>
              cases t' with
              | none =>
                  show (sets g).length = (sets g').length
                  exact ih htail
              | some Q => cases hhead
          | some P =>
              cases t' with
              | none => cases hhead
              | some Q => exact congrArg Nat.succ (ih htail)

/-- **When two patterns with their wildcards in the same places have the same language**, the empty
string apart, which depends on the places only. -/
theorem language_eq_iff (hshape : g.map Option.isSome = g'.map Option.isSome) :
    (∀ w, w ≠ [] → (w ∈ language g ↔ w ∈ language g')) ↔
      (sets g = sets g' ∨ (∅ ∈ sets g ∧ ∅ ∈ sets g')) := by
  have hlength := length_sets hshape
  constructor
  · intro h
    have hrows : ∀ w, List.Forall₂ (· ∈ ·) w (sets g) ↔ List.Forall₂ (· ∈ ·) w (sets g') := by
      intro w
      by_cases hw : w.length = (sets g).length
      · rw [← mem_iff_forall₂ hw, ← mem_iff_forall₂ (hw.trans hlength)]
        cases w with
        | nil =>
            rw [mem_iff_forall₂ hw, mem_iff_forall₂ (hw.trans hlength),
              List.length_eq_zero_iff.mp hw.symm,
              List.length_eq_zero_iff.mp (hlength.symm.trans hw.symm)]
        | cons c w => exact h (c :: w) (List.cons_ne_nil c w)
      · exact ⟨fun hrow => absurd hrow.length_eq hw,
          fun hrow => absurd (hrow.length_eq.trans hlength.symm) hw⟩
    by_cases hvoid : ∅ ∈ sets g
    · refine Or.inr ⟨hvoid, ?_⟩
      by_contra hinhabited
      obtain ⟨w, hw⟩ := exists_forall₂ hinhabited
      exact notMem_of_void hvoid (mem_of_forall₂ ((hrows w).mpr hw))
    · by_cases hvoid' : ∅ ∈ sets g'
      · obtain ⟨w, hw⟩ := exists_forall₂ hvoid
        exact absurd (mem_of_forall₂ ((hrows w).mp hw)) (notMem_of_void hvoid')
      · exact Or.inl (sets_eq hvoid hvoid' hrows)
  · rintro (h | ⟨h, h'⟩) w -
    · rw [eq_of_sets hshape h]
    · exact ⟨fun hw => absurd hw (notMem_of_void h), fun hw => absurd hw (notMem_of_void h')⟩

end Glob

end RaftKv
