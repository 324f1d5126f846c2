import RaftKv.Core.Outcome
import RaftKv.Server.Patterns

/-!
# What the matcher reads of a pattern

`string_match_len` once more, as it goes over the buffer that holds the pattern and its terminating
zero: a pointer, which is an index here, and `patternLen`, which is kept in step by hand.  A read behind
the buffer is a `Crash`.

* `StringMatch.Stands` — where the pointer stands, and what is left of the pattern there.
* `StringMatch.matchAt_eq` — the buffer is read up to its zero only, for the result of
  `stringMatchLen`.
* `StringMatch.matches_language` — **when the matcher agrees with the language of the pattern**.
-/

namespace RaftKv

namespace StringMatch

/-! ## The matcher over a buffer -/

/-- `*pattern` -/
def readAt (buffer : Bytes) (i : Nat) : Outcome UInt8 :=
  match buffer[i]? with
  | some b => pure b
  | none => throw (Crash.outOfRange "pattern")

/-- `while (pattern[k] == '*')` -/
def skipStars (buffer : Bytes) (k : Nat) : Nat → Nat → Int → Outcome (Nat × Int)
  | 0, _, _ => throw (Crash.diverges "string_match_len")
  | fuel + 1, i, n => do
      let b ← readAt buffer (i + k)
      if b = 42 then skipStars buffer k fuel (i + 1) (n - 1) else return (i, n)

/-- The loop over a class.  Where the pattern ends, the pointer goes back to its last byte. -/
def classAt (buffer : Bytes) (c : UInt8) : Nat → Bool → Nat → Int → Outcome (Bool × Nat × Int)
  | 0, _, _, _ => throw (Crash.diverges "string_match_len")
  | fuel + 1, found, i, n => do
      let a ← readAt buffer i
      if a = 92 ∧ n ≥ 2 then
        let b ← readAt buffer (i + 1)
        classAt buffer c fuel (found || b = c) (i + 2) (n - 2)
      else if a = 93 then return (found, i, n)
      else if n = 0 then return (found, i - 1, n + 1)
      else
        let dash ← readAt buffer (i + 1)
        if dash = 45 ∧ n ≥ 3 then
          let b ← readAt buffer (i + 2)
          classAt buffer c fuel (found || inRange a b c) (i + 3) (n - 3)
        else classAt buffer c fuel (found || a = c) (i + 1) (n - 1)

/-- One round for a byte `a` of the pattern that is not a star, with the `pattern++` at its end. -/
def roundAt (buffer : Bytes) (c a : UInt8) (i : Nat) (n : Int) : Outcome (Option (Nat × Int)) :=
  if a = 63 then return some (i + 1, n - 1)
  else if a = 91 then do
    let b ← readAt buffer (i + 1)
    let negated := decide (b = 94)
    let start := if negated then i + 2 else i + 1
    let left := if negated then n - 2 else n - 1
    let (found, j, m) ← classAt buffer c (buffer.length + 1) false start left
    return if found = negated then none else some (j + 1, m - 1)
  else do
    let escaped := decide (a = 92) && decide (n ≥ 2)
    let i := if escaped then i + 1 else i
    let n := if escaped then n - 1 else n
    let b ← readAt buffer i
    return if b = c then some (i + 1, n - 1) else none

/-- The loop behind a star, which gives up the string byte by byte. -/
def anySuffix (f : Bytes → Outcome Bool) : Bytes → Outcome Bool
  | [] => return false
  | c :: s => do
      let found ← f (c :: s)
      if found then return true else anySuffix f s

def matchAt (buffer : Bytes) : Nat → Nat → Int → Bytes → Outcome Bool
  | 0, _, _, _ => throw (Crash.diverges "string_match_len")
  | _ + 1, _, n, [] => return decide (n = 0)
  | fuel + 1, i, n, c :: s =>
      if n = 0 then return false
      else do
        let a ← readAt buffer i
        if a = 42 then
          let (i, n) ← skipStars buffer 1 buffer.length i n
          if n = 1 then return true
          else anySuffix (matchAt buffer fuel (i + 1) (n - 1)) (c :: s)
        else
          match ← roundAt buffer c a i n with
          | none => return false
          | some (i, n) =>
              if s = [] then
                let (_, n) ← skipStars buffer 0 buffer.length i n
                return decide (n = 0)
              else matchAt buffer fuel i n s

/-- `string_match_len` of a pattern with its terminating zero. -/
def matchBuffer (pattern string : Bytes) : Outcome Bool :=
  matchAt (pattern ++ [0]) (pattern.length + 1) 0 pattern.length string

/-! ## Where the pointer stands -/

/-- The pointer stands at `i`, with `n` bytes of the pattern left, which are `p`. -/
structure Stands (buffer : Bytes) (i : Nat) (n : Int) (p : Bytes) : Prop where
  rest : buffer.drop i = p ++ [0]
  left : n = p.length

variable {buffer p s : Bytes} {i : Nat} {n : Int} {a c : UInt8}

namespace Stands

lemma read (h : Stands buffer i n p) : readAt buffer i = Except.ok (p.headD 0) := by
  have hget : buffer[i]? = (p ++ [0])[0]? := by
    rw [← h.rest, List.getElem?_drop, Nat.add_zero]
  rw [readAt, hget]
  cases p <;> rfl

lemma drop (h : Stands buffer i n p) {k : Nat} (hk : k ≤ p.length) :
    Stands buffer (i + k) (n - k) (p.drop k) where
  rest := by rw [← List.drop_drop, h.rest, List.drop_append_of_le_length hk]
  left := by
    rw [h.left, List.length_drop]
    omega

lemma tail (h : Stands buffer i n (a :: p)) : Stands buffer (i + 1) (n - 1) p :=
  h.drop (Nat.succ_le_succ (Nat.zero_le p.length))

lemma length_lt (h : Stands buffer i n p) : p.length < buffer.length := by
  have hrest := congrArg List.length h.rest
  simp only [List.length_drop, List.length_append, List.length_singleton] at hrest
  omega

end Stands

lemma skipStars_eq (k : Nat) {fuel : Nat} (h : Stands buffer (i + k) (n - k) p)
    (hfuel : p.length < fuel) :
    ∃ j m, skipStars buffer k fuel i n = Except.ok (j, m) ∧
      Stands buffer (j + k) (m - k) (p.dropWhile (· = 42)) := by
  induction fuel generalizing i n p with
  | zero => exact absurd hfuel (Nat.not_lt_zero _)
  | succ fuel ih =>
      rw [skipStars, h.read, Outcome.ok_bind]
      cases p with
      | nil => exact ⟨i, n, rfl, h⟩
      | cons a p =>
          rw [List.dropWhile_cons]
          by_cases ha : a = 42
          · have htail : Stands buffer (i + 1 + k) (n - 1 - k) p := by
              have := h.tail
              rwa [show i + k + 1 = i + 1 + k by omega, show n - k - 1 = n - 1 - k by omega] at this
            obtain ⟨j, m, heq, hstands⟩ := ih htail (Nat.lt_of_succ_lt_succ hfuel)
            refine ⟨j, m, ?_, ?_⟩
            · rw [List.headD_cons, if_pos ha, heq]
            · rwa [if_pos (decide_eq_true ha)]
          · refine ⟨i, n, ?_, ?_⟩
            · rw [List.headD_cons, if_neg ha]
              rfl
            · rwa [if_neg (by simpa using ha)]

/-- The loop over a class reads the class, and stops a byte before what is behind it. -/
lemma classAt_eq {fuel : Nat} (c : UInt8) (found : Bool) (h : Stands buffer i n p) (hi : 0 < i)
    (hfuel : p.length < fuel) : ∃ j m, classAt buffer c fuel found i n =
      Except.ok (found || (readClass p).1.any (Member.has char c), j, m) ∧
      Stands buffer (j + 1) (m - 1) (readClass p).2 := by
  induction fuel generalizing i n p found with
  | zero => exact absurd hfuel (Nat.not_lt_zero _)
  | succ fuel ih =>
      have hleft := h.left
      rw [classAt, h.read, Outcome.ok_bind]
      fun_cases readClass p with
      | case1 =>
          refine ⟨i - 1, n + 1, ?_, ?_⟩
          · simp [hleft]
          · rwa [Nat.sub_add_cancel hi, Int.add_sub_cancel]
      | case2 b p =>
          simp only [List.length_cons] at hfuel hleft
          have h₂ : Stands buffer (i + 2) (n - 2) p := h.drop (Nat.le_add_left 2 p.length)
          obtain ⟨j, m, heq, hstands⟩ := ih (found || decide (b = c)) h₂ (Nat.succ_pos _) (by omega)
          refine ⟨j, m, ?_, hstands⟩
          rw [List.headD_cons, if_pos ⟨rfl, by omega⟩, h.tail.read, Outcome.ok_bind, List.headD_cons,
            heq]
          simp [Member.has, Bool.or_assoc]
      | case3 p =>
          refine ⟨i, n, ?_, h.tail⟩
          simp
      | case4 a b p hesc hend =>
          simp only [List.length_cons] at hfuel hleft
          have h₃ : Stands buffer (i + 3) (n - 3) p := h.drop (Nat.le_add_left 3 p.length)
          obtain ⟨j, m, heq, hstands⟩ := ih (found || inRange a b c) h₃ (Nat.succ_pos _)
            (by omega)
          refine ⟨j, m, ?_, hstands⟩
          rw [List.headD_cons, if_neg fun hne => hesc hne.1, if_neg hend, if_neg (by omega),
            h.tail.read, Outcome.ok_bind, List.headD_cons, if_pos ⟨rfl, by omega⟩, h.tail.tail.read,
            Outcome.ok_bind, List.headD_cons, heq, inRange_eq]
          simp [Bool.or_assoc]
      | case5 a p hesc hend hrange =>
          simp only [List.length_cons] at hfuel hleft
          obtain ⟨j, m, heq, hstands⟩ := ih (found || decide (a = c)) h.tail (Nat.succ_pos _)
            (by omega)
          refine ⟨j, m, ?_, hstands⟩
          have hdash : ¬ (p.headD 0 = 45 ∧ n ≥ 3) := by
            rintro ⟨hhead, hn⟩
            have hlength : 1 < p.length := by omega
            obtain ⟨x, q, rfl⟩ := List.exists_cons_of_length_pos (Nat.lt_of_succ_lt hlength)
            obtain ⟨b, q, rfl⟩ :=
              List.exists_cons_of_length_pos (show 0 < q.length from Nat.lt_of_succ_lt_succ hlength)
            exact hrange b q (by rw [← hhead]; rfl)
          have hescape : ¬ (a = 92 ∧ n ≥ 2) := by
            rintro ⟨ha, hn⟩
            obtain ⟨b, q, hp⟩ := List.exists_cons_of_length_pos (show 0 < p.length by omega)
            exact hesc b q ha hp
          rw [List.headD_cons, if_neg hescape, if_neg hend, if_neg (by omega), h.tail.read,
            Outcome.ok_bind, if_neg hdash, heq]
          simp [Member.has, Bool.or_assoc]

/-- One round reads one token, and goes on behind it if that stands for the character. -/
lemma roundAt_eq (h : Stands buffer i n (a :: p)) (ha : a ≠ 42) : ∃ j m,
    roundAt buffer c a i n =
      Except.ok (if (readToken a p).1.has char c then some (j, m) else none) ∧
      Stands buffer j m (readToken a p).2 := by
  have hlength := h.length_lt
  have hleft := h.left
  simp only [List.length_cons] at hlength hleft
  fun_cases readToken a p with
  | case1 => exact absurd rfl ha
  | case2 => exact ⟨i + 1, n - 1, rfl, h.tail⟩
  | case3 p =>
      simp only [List.length_cons] at hlength hleft
      have hclass : Stands buffer (i + 2) (n - 2) p := h.drop (Nat.le_add_left 2 p.length)
      obtain ⟨j, m, heq, hstands⟩ := classAt_eq c false hclass (Nat.succ_pos _)
        (show p.length < buffer.length + 1 by omega)
      refine ⟨j + 1, m - 1, ?_, hstands⟩
      rw [roundAt, if_neg (by decide), if_pos rfl, h.tail.read, Outcome.ok_bind, List.headD_cons]
      simp only [decide_true, if_true]
      rw [heq, Outcome.ok_bind, Token.has]
      cases (readClass p).1.any (Member.has char c) <;> rfl
  | case4 p hopen =>
      obtain ⟨j, m, heq, hstands⟩ := classAt_eq c false h.tail (Nat.succ_pos _)
        (show p.length < buffer.length + 1 by omega)
      refine ⟨j + 1, m - 1, ?_, hstands⟩
      have hhead : p.headD 0 ≠ 94 := by
        intro hhead
        cases p with
        | nil => cases hhead
        | cons b q => exact hopen q (by rw [← hhead]; rfl)
      rw [roundAt, if_neg (by decide), if_pos rfl, h.tail.read, Outcome.ok_bind]
      simp only [hhead, decide_false, Bool.false_eq_true, if_false]
      rw [heq, Outcome.ok_bind, Token.has]
      cases (readClass p).1.any (Member.has char c) <;> rfl
  | case5 b p =>
      simp only [List.length_cons] at hleft
      have hescaped : decide (n ≥ 2) = true := decide_eq_true (by omega)
      refine ⟨i + 1 + 1, n - 1 - 1, ?_, h.tail.tail⟩
      rw [roundAt, if_neg (by decide), if_neg (by decide)]
      simp only [hescaped, decide_true, Bool.true_and, if_true]
      rw [h.tail.read, Outcome.ok_bind, Token.has]
      simp
  | case6 _ _ _ hany _ hclass hescape =>
      have hescaped : (decide (a = 92) && decide (n ≥ 2)) = false := by
        rw [← Bool.decide_and]
        refine decide_eq_false fun hne => ?_
        obtain ⟨b, q, hp⟩ := List.exists_cons_of_length_pos (show 0 < p.length by omega)
        exact hescape b q hne.1 hp
      refine ⟨i + 1, n - 1, ?_, h.tail⟩
      rw [roundAt, if_neg hany, if_neg hclass]
      simp only [hescaped, Bool.false_eq_true, if_false]
      rw [h.read, Outcome.ok_bind, Token.has]
      simp

lemma anySuffix_eq {f : Bytes → Outcome Bool} {g : Bytes → Bool}
    (h : ∀ s, f s = Except.ok (g s)) :
    anySuffix f s = Except.ok ((List.range s.length).any fun i => g (s.drop i)) := by
  induction s with
  | nil => rfl
  | cons c s ih =>
      rw [anySuffix, h, Outcome.ok_bind, ih, List.length_cons, List.range_succ_eq_map, List.any_cons,
        List.any_map]
      cases hg : g (c :: s) with
      | true => simp [hg]
      | false => simp [hg, Function.comp_def]

/-- **The buffer is read up to its zero**, and the result is that of the matcher over lists. -/
lemma matchAt_eq {fuel : Nat} (h : Stands buffer i n p) (hfuel : p.length ≤ fuel) :
    matchAt buffer (fuel + 1) i n s = Except.ok (matchLoop fuel p s) := by
  induction fuel generalizing i n p s with
  | zero =>
      cases List.length_eq_zero_iff.mp (Nat.le_zero.mp hfuel)
      cases s <;> simp [matchAt, matchLoop, h.left]
  | succ fuel ih =>
      cases s with
      | nil =>
          rw [matchAt, h.left]
          cases p with
          | nil => rfl
          | cons a p =>
              refine congrArg Except.ok (decide_eq_false ?_)
              rw [List.length_cons]
              omega
      | cons c s =>
          cases p with
          | nil => simp [matchAt, matchLoop, h.left]
          | cons a p =>
              have hsome : ¬ n = 0 := by
                rw [h.left, List.length_cons]
                omega
              rw [matchAt, if_neg hsome, h.read, Outcome.ok_bind, List.headD_cons]
              by_cases ha : a = 42
              · obtain ⟨j, m, hskip, hstands⟩ := skipStars_eq 1 h.tail
                  (Nat.lt_trans (Nat.lt_succ_self p.length) h.length_lt)
                have hdrop : (p.dropWhile (· = 42)).length ≤ fuel :=
                  (List.dropWhile_sublist _).length_le.trans (Nat.le_of_succ_le_succ hfuel)
                have hleft := hstands.left
                rw [if_pos ha, hskip, Outcome.ok_bind, ha, matchLoop]
                · cases hq : p.dropWhile (· = 42) with
                  | nil =>
                      rw [hq, List.length_nil] at hleft
                      exact if_pos (show m = 1 by omega)
                  | cons x q =>
                      rw [hq] at hleft hstands hdrop
                      have hmore : ¬ m = 1 := by
                        rw [List.length_cons] at hleft
                        omega
                      exact (if_neg hmore).trans (anySuffix_eq fun t => ih hstands hdrop)
                · exact List.cons_ne_nil c s
              · obtain ⟨j, m, hround, hstands⟩ := roundAt_eq (c := c) h ha
                have hrest := (readToken_length a p).trans (Nat.le_of_succ_le_succ hfuel)
                rw [if_neg ha, hround, Outcome.ok_bind, matchLoop, matchOne_eq ha]
                · cases (readToken a p).1.has char c with
                  | false => rfl
                  | true =>
                      simp only [if_true]
                      split
                      · obtain ⟨j', m', hskip, hend⟩ := skipStars_eq 0 (i := j) (n := m)
                          (by rwa [Nat.add_zero, Int.ofNat_zero, Int.sub_zero]) hstands.length_lt
                        have hleft := hend.left
                        rw [hskip, Outcome.ok_bind]
                        refine congrArg Except.ok ?_
                        cases hq : (readToken a p).2.dropWhile (· = 42) with
                        | nil =>
                            rw [hq] at hleft
                            exact decide_eq_true (show m' = 0 by simpa using hleft)
                        | cons x q =>
                            rw [hq, List.length_cons] at hleft
                            exact decide_eq_false (show ¬ m' = 0 by omega)
                      · exact ih hstands hrest
                · simp
                · simpa using ha

lemma matchBuffer_eq (p s : Bytes) : matchBuffer p s = Except.ok (stringMatchLen p s) :=
  matchAt_eq ⟨List.drop_zero, rfl⟩ (Nat.le_refl p.length)

/-! ## The matcher and the language -/

/-- The matcher reads the pattern only, and accepts the key if and only if the pattern stands for it. -/
def Agrees (p s : Bytes) : Prop :=
  ∃ b, matchBuffer p s = Except.ok b ∧ (b = true ↔ s ∈ language value p)

/-- The pattern is a row of stars. -/
def Stars (p : Bytes) : Prop := p ≠ [] ∧ ∀ b ∈ p, b = 42

lemma agrees_iff : Agrees p s ↔
    ((s ∈ language char p ∧ (s = [] → p = [])) ↔ s ∈ language value p) := by
  rw [← stringMatchLen_iff]
  constructor
  · rintro ⟨b, hmatch, hb⟩
    rw [matchBuffer_eq] at hmatch
    cases hmatch
    exact hb
  · exact fun h => ⟨_, matchBuffer_eq p s, h⟩

/-- **When the matcher agrees with the language of a pattern.**  It never reads behind the terminating
zero.  With the keys that are not empty it agrees if and only if the order of characters makes no
difference to the pattern, and with the empty key if and only if the pattern is no row of stars. -/
theorem matches_language (p : Bytes) : (∀ s, ∃ b, matchBuffer p s = Except.ok b) ∧
    ((∀ s, s ≠ [] → Agrees p s) ↔ Alike p) ∧ (Agrees p [] ↔ ¬ Stars p) := by
  refine ⟨fun s => ⟨_, matchBuffer_eq p s⟩, ?_, ?_⟩
  · rw [← language_char_iff]
    refine forall_congr' fun s => forall_congr' fun hs => agrees_iff.trans ?_
    rw [and_iff_left fun h => absurd h hs]
  · rw [agrees_iff, nil_mem_language, nil_mem_language, Stars]
    by_cases hp : p = []
    · simp [hp]
    · simp [hp]

/-- A star does not stand for the empty key, and a range from a letter to a byte above 127 has none of
the bytes between. -/
theorem matches_fails : ¬ Agrees [42] [] ∧ ¬ Agrees [91, 97, 45, 233, 93] [200] := by
  constructor
  · rw [agrees_iff, nil_mem_language, nil_mem_language]
    simp
  · rintro ⟨b, hmatch, hb⟩
    rw [matchBuffer_eq] at hmatch
    have hfalse : b = false := (Except.ok.inj hmatch).symm.trans (by decide)
    rw [hfalse, cons_mem_language (by decide)] at hb
    exact absurd (hb.mpr ⟨by decide, mem_language_nil.mpr rfl⟩) Bool.false_ne_true

end StringMatch

end RaftKv
