import Mathlib.Data.List.TakeWhile
import RaftKv.Core.Glob
import RaftKv.Server.StringMatch

/-!
# What a pattern of keys means

* `StringMatch.tokens` — a pattern, read: stars, and tokens that stand for one byte.
* `StringMatch.language` — the keys a pattern stands for.  How the bytes are ordered, which the ranges
  of a class depend on, is a parameter: `value` is the order of bytes, `char` the one the source
  compares by.
* `stringMatchLen_iff` — **what `string_match_len` accepts**: the language over `char`, less the empty
  key where the pattern is not empty.
* `StringMatch.language_char_iff` — when the two orders give a pattern the same keys.
-/

namespace RaftKv

namespace StringMatch

/-! ## Patterns as tokens -/

inductive Member where
  | byte (b : UInt8)
  | range (a b : UInt8)
  deriving DecidableEq, Repr

inductive Token where
  | star
  | any
  | literal (b : UInt8)
  | cls (negated : Bool) (members : List Member)
  deriving DecidableEq, Repr

/-- The members of a class, and the pattern behind it.  A class that is left open ends with the
pattern. -/
def readClass : Bytes → List Member × Bytes
  | [] => ([], [])
  | 92 :: b :: p => (Member.byte b :: (readClass p).1, (readClass p).2)
  | 93 :: p => ([], p)
  | a :: 45 :: b :: p => (Member.range a b :: (readClass p).1, (readClass p).2)
  | a :: p => (Member.byte a :: (readClass p).1, (readClass p).2)

def readToken : UInt8 → Bytes → Token × Bytes
  | 42, p => (Token.star, p)
  | 63, p => (Token.any, p)
  | 91, 94 :: p => (Token.cls true (readClass p).1, (readClass p).2)
  | 91, p => (Token.cls false (readClass p).1, (readClass p).2)
  | 92, b :: p => (Token.literal b, p)
  | a, p => (Token.literal a, p)

lemma readClass_length (p : Bytes) : (readClass p).2.length ≤ p.length := by
  fun_induction readClass p with
  | case1 => exact Nat.le_refl 0
  | case2 b p ih => exact Nat.le_succ_of_le (Nat.le_succ_of_le ih)
  | case3 p => exact Nat.le_succ p.length
  | case4 a b p _ _ ih => exact Nat.le_succ_of_le (Nat.le_succ_of_le (Nat.le_succ_of_le ih))
  | case5 a p _ _ _ ih => exact Nat.le_succ_of_le ih

lemma readToken_length (a : UInt8) (p : Bytes) : (readToken a p).2.length ≤ p.length := by
  fun_cases readToken a p with
  | case1 | case2 => exact Nat.le_refl p.length
  | case3 p => exact Nat.le_succ_of_le (readClass_length p)
  | case4 => exact readClass_length p
  | case5 b p => exact Nat.le_succ p.length
  | case6 => exact Nat.le_refl p.length

def tokens : Bytes → List Token
  | [] => []
  | a :: p => (readToken a p).1 :: tokens (readToken a p).2
termination_by p => p.length
decreasing_by exact Nat.lt_succ_of_le (readToken_length a p)

/-! ## Their language -/

/-- A byte's place in the order of bytes. -/
def value (b : UInt8) : Int := b.toNat

/-- A range has the bytes between its ends, whichever is the smaller one. -/
def Member.has (order : UInt8 → Int) (c : UInt8) : Member → Bool
  | byte b => decide (b = c)
  | range a b =>
      decide (min (order a) (order b) ≤ order c) && decide (order c ≤ max (order a) (order b))

/-- The bytes that a token other than a star stands for. -/
def Token.has (order : UInt8 → Int) (c : UInt8) : Token → Bool
  | star => false
  | any => true
  | literal b => decide (b = c)
  | cls negated members => members.any (Member.has order c) != negated

def Token.set (order : UInt8 → Int) : Token → Option (Set UInt8)
  | star => none
  | t => some {c | t.has order c = true}

def language (order : UInt8 → Int) (p : Bytes) : Language UInt8 :=
  Glob.language ((tokens p).map (Token.set order))

variable {order : UInt8 → Int} {a c : UInt8} {p s : Bytes}

lemma mem_language_nil : s ∈ language order [] ↔ s = [] := by
  rw [language, tokens]
  exact Glob.mem_nil

lemma readToken_eq_star : (readToken a p).1 = Token.star ↔ a = 42 := by
  fun_cases readToken a p <;> simp_all

lemma readToken_star (p : Bytes) : readToken 42 p = (Token.star, p) := rfl

lemma set_eq_none {t : Token} : t.set order = none ↔ t = Token.star := by
  cases t <;> simp [Token.set]

lemma set_of_ne_star {t : Token} (h : t ≠ Token.star) :
    t.set order = some {c | t.has order c = true} := by
  cases t with
  | star => exact absurd rfl h
  | any | literal | cls => rfl

lemma language_star : language order (42 :: p) =
    Glob.language (none :: (tokens p).map (Token.set order)) := by
  rw [language, tokens, readToken_star]
  rfl

lemma cons_mem_language (ha : a ≠ 42) : c :: s ∈ language order (a :: p) ↔
    (readToken a p).1.has order c = true ∧ s ∈ language order (readToken a p).2 := by
  rw [language, tokens, List.map_cons, set_of_ne_star fun h => ha (readToken_eq_star.mp h)]
  exact Glob.cons_mem_set

/-- The empty key is in the language of stars only. -/
lemma nil_mem_language : [] ∈ language order p ↔ ∀ b ∈ p, b = 42 := by
  rw [language, Glob.nil_mem]
  induction p with
  | nil =>
      rw [tokens]
      simp
  | cons a p ih =>
      rw [tokens, List.map_cons, List.forall_mem_cons, List.forall_mem_cons, set_eq_none,
        readToken_eq_star]
      refine and_congr_right fun ha => ?_
      rw [ha, readToken_star]
      exact ih

/-- A row of stars is one. -/
lemma language_dropWhile :
    language order (42 :: p) = language order (42 :: p.dropWhile (· = 42)) := by
  induction p with
  | nil => rfl
  | cons a p ih =>
      rw [List.dropWhile_cons]
      split
      · rename_i ha
        rw [of_decide_eq_true ha, ← ih, language_star, tokens, readToken_star, language_star]
        exact Glob.language_star_star
      · rfl

/-! ## What the matcher accepts -/

lemma inRange_eq (a b c : UInt8) : inRange a b c = (Member.range a b).has char c := rfl

/-- The loop over a class reads it to its end. -/
lemma classLoop_eq {fuel : Nat} {found : Bool} (h : p.length ≤ fuel) : classLoop c fuel found p =
    (found || (readClass p).1.any (Member.has char c), (readClass p).2) := by
  induction fuel generalizing found p with
  | zero =>
      rw [List.length_eq_zero_iff.mp (Nat.le_zero.mp h)]
      simp [classLoop, readClass]
  | succ fuel ih =>
      fun_cases readClass p with
      | case1 => simp [classLoop]
      | case2 b p =>
          rw [classLoop, ih (Nat.le_of_succ_le (Nat.le_of_succ_le_succ h))]
          simp [Member.has, Bool.or_assoc]
      | case3 p => simp [classLoop]
      | case4 a b p =>
          rw [classLoop, ih (by simp only [List.length_cons] at h; omega), inRange_eq]
          · simp [Bool.or_assoc]
          all_goals assumption
      | case5 a p =>
          rw [classLoop, ih (Nat.le_of_succ_le_succ h)]
          · simp [Member.has, Bool.or_assoc]
          all_goals assumption

/-- One round reads one token. -/
lemma matchOne_eq (ha : a ≠ 42) : matchOne c (a :: p) =
    if (readToken a p).1.has char c then some (readToken a p).2 else none := by
  fun_cases readToken a p with
  | case1 => exact absurd rfl ha
  | case2 => rfl
  | case3 p =>
      have hclass : classLoop c (94 :: p).length false p = _ := classLoop_eq (Nat.le_succ p.length)
      rw [matchOne]
      simp only [List.head?_cons, decide_true, if_true, List.drop_one, List.tail_cons]
      rw [hclass, Token.has]
      cases (readClass p).1.any (Member.has char c) <;> rfl
  | case4 p hopen =>
      have hhead : p.head? ≠ some 94 := by
        intro hhead
        obtain ⟨q, rfl⟩ := List.head?_eq_some_iff.mp hhead
        exact hopen q rfl
      rw [matchOne]
      simp only [hhead, decide_false, if_false]
      rw [classLoop_eq (Nat.le_refl p.length), Token.has]
      cases (readClass p).1.any (Member.has char c) <;> rfl
  | case5 b p =>
      rw [matchOne, Token.has]
      simp
  | case6 =>
      rw [matchOne, Token.has]
      · simp
      all_goals assumption

lemma dropWhile_isEmpty (order : UInt8 → Int) :
    (p.dropWhile (· = 42)).isEmpty = true ↔ [] ∈ language order p := by
  rw [List.isEmpty_iff, List.dropWhile_eq_nil_iff, nil_mem_language]
  simp only [decide_eq_true_eq]

/-- What a star leaves of the key is in the language of what is behind it. -/
lemma mem_language_star (hp : [] ∉ language order p) :
    s ∈ language order (42 :: p) ↔ ∃ i < s.length, s.drop i ∈ language order p := by
  rw [language_star, Glob.mem_star]
  constructor
  · rintro ⟨i, hi⟩
    refine ⟨i, ?_, hi⟩
    by_contra hle
    rw [List.drop_eq_nil_of_le (Nat.not_lt.mp hle)] at hi
    exact hp hi
  · rintro ⟨i, -, hi⟩
    exact ⟨i, hi⟩

lemma matchLoop_star {fuel : Nat} (h : p.length ≤ fuel)
    (ih : ∀ p s, p.length ≤ fuel →
      (matchLoop fuel p s = true ↔ s ∈ language char p ∧ (s = [] → p = []))) :
    matchLoop (fuel + 1) (42 :: p) (c :: s) = true ↔ c :: s ∈ language char (42 :: p) := by
  have hdrop : (p.dropWhile (· = 42)).length ≤ fuel :=
    (List.dropWhile_sublist (· = 42)).length_le.trans h
  rw [matchLoop, language_dropWhile]
  · cases hq : p.dropWhile (· = 42) with
    | nil =>
        refine iff_of_true rfl ?_
        rw [language_star, Glob.mem_star]
        exact ⟨(c :: s).length, by rw [List.drop_length]; exact mem_language_nil.mpr rfl⟩
    | cons x q =>
        rw [hq] at hdrop
        have hx : x ≠ 42 := by
          have hhead := List.head?_dropWhile_not (fun b => decide (b = (42 : UInt8))) p
          rw [hq] at hhead
          exact of_decide_eq_false hhead
        have hnil : [] ∉ language char (x :: q) := by
          rw [nil_mem_language, List.forall_mem_cons]
          exact fun h => hx h.1
        rw [mem_language_star hnil, List.any_eq_true]
        constructor
        · rintro ⟨i, hi, hmatch⟩
          exact ⟨i, List.mem_range.mp hi, ((ih _ _ hdrop).mp hmatch).1⟩
        · rintro ⟨i, hi, hmem⟩
          refine ⟨i, List.mem_range.mpr hi, (ih _ _ hdrop).mpr ⟨hmem, fun hs => ?_⟩⟩
          rw [hs] at hmem
          exact absurd hmem hnil
  · exact List.cons_ne_nil c s

lemma matchLoop_iff {fuel : Nat} (h : p.length ≤ fuel) :
    matchLoop fuel p s = true ↔ s ∈ language char p ∧ (s = [] → p = []) := by
  induction fuel generalizing p s with
  | zero =>
      rw [List.length_eq_zero_iff.mp (Nat.le_zero.mp h), matchLoop, mem_language_nil]
      simp
  | succ fuel ih =>
      cases p with
      | nil =>
          rw [matchLoop, mem_language_nil]
          simp
      | cons a p =>
          cases s with
          | nil => simp [matchLoop]
          | cons c s =>
              have hlength : p.length ≤ fuel := Nat.le_of_succ_le_succ h
              by_cases ha : a = 42
              · rw [ha, matchLoop_star hlength fun p s => ih]
                simp
              · have hrest : (readToken a p).2.length ≤ fuel := (readToken_length a p).trans hlength
                rw [matchLoop, matchOne_eq ha, cons_mem_language ha]
                · cases (readToken a p).1.has char c with
                  | false => simp
                  | true =>
                      rw [if_pos rfl]
                      dsimp only
                      split
                      · rename_i hs
                        rw [hs, dropWhile_isEmpty char]
                        simp
                      · rename_i hs
                        rw [ih hrest]
                        simp [hs]
                · simp
                · simpa using ha

/-- **What the matcher accepts**: the language over `char`, and the empty key for the empty pattern
only. -/
theorem stringMatchLen_iff :
    stringMatchLen p s = true ↔ s ∈ language char p ∧ (s = [] → p = []) :=
  matchLoop_iff (Nat.le_refl p.length)

/-! ## Bytes and characters -/

/-- The token stands for one byte, and none is left for it. -/
def Token.Void (order : UInt8 → Int) (t : Token) : Prop :=
  t ≠ Token.star ∧ ∀ c, t.has order c = false

/-- The order of characters gives every class of the pattern the bytes that the order of bytes gives
it, or both leave some class without any. -/
def Alike (p : Bytes) : Prop :=
  (∀ t ∈ tokens p, ∀ c, t.has char c = t.has value c) ∨
    ((∃ t ∈ tokens p, t.Void char) ∧ (∃ t ∈ tokens p, t.Void value))

lemma set_eq_empty {t : Token} : t.set order = some ∅ ↔ t.Void order := by
  by_cases hstar : t = Token.star
  · rw [hstar]
    exact ⟨fun h => (by cases h), fun h => absurd rfl h.1⟩
  · rw [set_of_ne_star hstar, Option.some_inj, Set.eq_empty_iff_forall_notMem]
    simp [Token.Void, hstar]

lemma set_eq_set {t : Token} : t.set char = t.set value ↔ ∀ c, t.has char c = t.has value c := by
  by_cases hstar : t = Token.star
  · rw [hstar]
    exact iff_of_true rfl fun _ => rfl
  · rw [set_of_ne_star hstar, set_of_ne_star hstar, Option.some_inj, Set.ext_iff]
    exact forall_congr' fun c => Bool.eq_iff_iff.symm

lemma mem_sets {ts : List Token} :
    ∅ ∈ Glob.sets (ts.map (Token.set order)) ↔ ∃ t ∈ ts, t.Void order := by
  simp only [Glob.sets, List.mem_filterMap, List.mem_map, exists_eq_right, set_eq_empty]

/-- **When the two orders give a pattern the same keys.**  The empty key is in the language of stars,
whatever the order. -/
theorem language_char_iff :
    (∀ s, s ≠ [] → (s ∈ language char p ↔ s ∈ language value p)) ↔ Alike p := by
  have hshape : ((tokens p).map (Token.set char)).map Option.isSome =
      ((tokens p).map (Token.set value)).map Option.isSome := by
    rw [List.map_map, List.map_map]
    refine List.map_congr_left fun t _ => ?_
    cases t <;> rfl
  refine (Glob.language_eq_iff hshape).trans (or_congr ?_ (and_congr ?_ ?_))
  · constructor
    · intro h t ht
      exact set_eq_set.mp (List.map_inj_left.mp (Glob.eq_of_sets hshape h) t ht)
    · intro h
      rw [List.map_congr_left fun t ht => set_eq_set.mpr (h t ht)]
  · exact mem_sets
  · exact mem_sets

/-- Both ends of a range are characters of ASCII, or neither is. -/
def Member.SameHalf : Member → Prop
  | byte _ => True
  | range a b => a.toNat < 128 ↔ b.toNat < 128

def Token.SameHalf : Token → Prop
  | cls _ members => ∀ m ∈ members, m.SameHalf
  | _ => True

lemma Member.SameHalf.has_eq {m : Member} (h : m.SameHalf) : m.has char c = m.has value c := by
  cases m with
  | byte b => rfl
  | range a b =>
      have := c.toNat_lt
      have := a.toNat_lt
      have := b.toNat_lt
      simp only [SameHalf] at h
      rw [Member.has, Member.has, ← Bool.decide_and, ← Bool.decide_and, decide_eq_decide]
      simp only [char, value]
      split_ifs <;> omega

lemma alike_of_sameHalf (h : ∀ t ∈ tokens p, t.SameHalf) : Alike p := by
  refine Or.inl fun t ht c => ?_
  have hhalf := h t ht
  cases t with
  | star | any | literal => rfl
  | cls negated members =>
      have hany : members.any (Member.has char c) = members.any (Member.has value c) := by
        rw [Bool.eq_iff_iff, List.any_eq_true, List.any_eq_true]
        exact exists_congr fun m => and_congr_right fun hm => by rw [(hhalf m hm).has_eq]
      rw [Token.has, Token.has, hany]

end StringMatch

end RaftKv
