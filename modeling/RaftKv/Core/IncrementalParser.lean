import Mathlib.Data.List.Infix
import Mathlib.Data.Nat.Find
import Mathlib.Tactic.Lemma

/-!
# Incremental parsers

A parser that is fed a stream in pieces and hands out the values it has completed one at a time.
What it has found depends on the concatenation of the pieces only; more bytes complete more
values, and nothing is completed behind an error.

* `IncrementalParser` — what is found in a stream.
* `Reader`, `Reader.feed`, `Reader.getReply` — its use, piece by piece.
* `ByteMachine.parser` — every machine that reads one byte at a time is an incremental parser.
-/

namespace RaftKv

/-- The values that are complete in a stream, and whether an error follows them. -/
structure IncrementalParser (β ρ : Type) where
  replies : List β → List ρ
  failed : List β → Bool
  replies_nil : replies [] = []
  replies_prefix : ∀ a b, replies a <+: replies (a ++ b)
  replies_failed : ∀ a b, failed a = true → replies (a ++ b) = replies a
  failed_append : ∀ a b, failed a = true → failed (a ++ b) = true

/-- A parser in use: the bytes it was fed, and how many values it has handed out. -/
structure Reader (β : Type) where
  fed : List β := []
  taken : Nat := 0
  err : Bool := false
  deriving DecidableEq, Repr

namespace Reader

variable {β ρ : Type}

/-- Feed bytes; `none` when the reader is in the error state. -/
def feed (r : Reader β) (bytes : List β) : Option (Reader β) :=
  if r.err then none else some { r with fed := r.fed ++ bytes }

/-- The next value, if one is complete; `none` is an error. -/
def getReply (parser : IncrementalParser β ρ) (r : Reader β) : Reader β × Option (Option ρ) :=
  if r.err then (r, none)
  else
    match (parser.replies r.fed)[r.taken]? with
    | some reply => ({ r with taken := r.taken + 1 }, some (some reply))
    | none => if parser.failed r.fed then ({ r with err := true }, none) else (r, some none)

/-! ## One value per piece

What comes out of a stream that is fed piece by piece when only one value is asked for after each
piece. -/

/-- Feed a piece and ask for one value; an error ends it. -/
def takeOne (parser : IncrementalParser β ρ) (s : Reader β × Option (List ρ)) (piece : List β) :
    Reader β × Option (List ρ) :=
  match s.2 with
  | none => s
  | some out =>
      match s.1.feed piece with
      | none => (s.1, none)
      | some r =>
          match r.getReply parser with
          | (r, none) => (r, none)
          | (r, some reply) => (r, some (out ++ reply.toList))

def takeEach (parser : IncrementalParser β ρ) (s : Reader β × Option (List ρ))
    (pieces : List (List β)) : Reader β × Option (List ρ) :=
  pieces.foldl (takeOne parser) s

lemma takeEach_append {parser : IncrementalParser β ρ} (s : Reader β × Option (List ρ))
    (as bs : List (List β)) :
    takeEach parser s (as ++ bs) = takeEach parser (takeEach parser s as) bs :=
  List.foldl_append

lemma takeEach_none {parser : IncrementalParser β ρ} {s : Reader β × Option (List ρ)}
    (h : s.2 = none) (pieces : List (List β)) : takeEach parser s pieces = s := by
  induction pieces with
  | nil => rfl
  | cons piece pieces ih =>
      have : takeOne parser s piece = s := by rw [takeOne, h]
      rw [takeEach, List.foldl_cons, this]
      exact ih

lemma takeOne_some {parser : IncrementalParser β ρ} (r : Reader β) (acc : List ρ)
    (piece : List β) :
    takeOne parser (r, some acc) piece =
      ((takeOne parser (r, some []) piece).1,
        (takeOne parser (r, some []) piece).2.map (acc ++ ·)) := by
  rw [takeOne, takeOne]
  dsimp only
  cases r.feed piece with
  | none => rfl
  | some r' =>
      dsimp only
      cases r'.getReply parser with
      | mk r'' reply => cases reply <;> simp

/-- What was taken before the pieces stands in front of what is taken from them. -/
lemma takeEach_some {parser : IncrementalParser β ρ} (r : Reader β) (acc : List ρ)
    (pieces : List (List β)) :
    takeEach parser (r, some acc) pieces =
      ((takeEach parser (r, some []) pieces).1,
        (takeEach parser (r, some []) pieces).2.map (acc ++ ·)) := by
  induction pieces generalizing r acc with
  | nil => simp [takeEach]
  | cons piece pieces ih =>
      have hcons : ∀ s, takeEach parser s (piece :: pieces) =
          takeEach parser (takeOne parser s piece) pieces := fun _ => rfl
      rw [hcons, hcons, takeOne_some]
      cases hone : takeOne parser (r, some []) piece with
      | mk r' out =>
          cases out with
          | none =>
              rw [takeEach_none (s := (r', none)) rfl]
              exact takeEach_none rfl pieces
          | some out =>
              rw [ih r' out]
              refine (ih r' (acc ++ out)).trans ?_
              simp [Function.comp_def, List.append_assoc]

end Reader

namespace IncrementalParser

variable {β ρ : Type} (parser : IncrementalParser β ρ) (pieces : List (List β))

/-- How many values are complete in the first `k` pieces. -/
def found (k : Nat) : Nat := (parser.replies (pieces.take k).flatten).length

/-- There is an error in the first `k` pieces. -/
def broken (k : Nat) : Bool := parser.failed (pieces.take k).flatten

/-- One value per piece is enough: behind any piece, no more values are still to come than pieces;
and when the piece with an error is there, values completed before are still waiting. -/
def KeepsUp : Prop :=
  (∀ k ≤ pieces.length,
    parser.found pieces pieces.length ≤ parser.found pieces k + (pieces.length - k)) ∧
  ∀ k < pieces.length, parser.broken pieces (k + 1) = true →
    ∃ i ≤ k, parser.found pieces i + (k - i) < parser.found pieces pieces.length

/-- How many values have been taken after `k` pieces. -/
def takenAfter : Nat → Nat
  | 0 => 0
  | k + 1 => min (takenAfter k + 1) (parser.found pieces (k + 1))

lemma found_zero : parser.found pieces 0 = 0 := by
  simp [found, parser.replies_nil]

lemma replies_take_prefix {j k : Nat} (h : j ≤ k) :
    parser.replies (pieces.take j).flatten <+: parser.replies (pieces.take k).flatten := by
  obtain ⟨d, rfl⟩ := Nat.exists_eq_add_of_le h
  rw [List.take_add, List.flatten_append]
  exact parser.replies_prefix _ _

lemma found_mono {j k : Nat} (h : j ≤ k) : parser.found pieces j ≤ parser.found pieces k :=
  (parser.replies_take_prefix pieces h).length_le

lemma found_of_broken {j k : Nat} (hj : parser.broken pieces j = true) (h : j ≤ k) :
    parser.found pieces k = parser.found pieces j := by
  obtain ⟨d, rfl⟩ := Nat.exists_eq_add_of_le h
  rw [found, List.take_add, List.flatten_append, parser.replies_failed _ _ hj]
  rfl

lemma takenAfter_le_found (k : Nat) : parser.takenAfter pieces k ≤ parser.found pieces k := by
  cases k with
  | zero => exact Nat.zero_le _
  | succ k => exact Nat.min_le_right ..

lemma le_takenAfter {m k : Nat} :
    m ≤ parser.takenAfter pieces k ↔ ∀ i ≤ k, m ≤ parser.found pieces i + (k - i) := by
  induction k generalizing m with
  | zero => simp [takenAfter, found_zero]
  | succ k ih =>
      have hpred : m ≤ parser.takenAfter pieces k + 1 ↔ m - 1 ≤ parser.takenAfter pieces k := by
        omega
      rw [takenAfter, Nat.le_min, hpred, ih]
      constructor
      · rintro ⟨hk, hlast⟩ i hi
        rcases Nat.lt_or_ge i (k + 1) with hlt | hge
        · have := hk i (by omega)
          omega
        · obtain rfl : i = k + 1 := Nat.le_antisymm hi hge
          omega
      · intro h
        refine ⟨fun i hi => ?_, by simpa using h (k + 1) (Nat.le_refl _)⟩
        have := h i (by omega)
        omega

/-- The error is met when the piece behind the `k`-th is fed. -/
def Meets (k : Nat) : Prop :=
  parser.broken pieces (k + 1) = true ∧
    parser.takenAfter pieces k = parser.found pieces (k + 1)

/-- The reader after `k` pieces, when it has met no error. -/
def readerAfter (k : Nat) : Reader β × Option (List ρ) :=
  ({ fed := (pieces.take k).flatten, taken := parser.takenAfter pieces k },
    some ((parser.replies (pieces.take k).flatten).take (parser.takenAfter pieces k)))

lemma takeOne_readerAfter {k : Nat} (hk : k < pieces.length) :
    (Meets parser pieces k →
      (Reader.takeOne parser (parser.readerAfter pieces k) pieces[k]).2 = none) ∧
    (¬ Meets parser pieces k →
      Reader.takeOne parser (parser.readerAfter pieces k) pieces[k] =
        parser.readerAfter pieces (k + 1)) := by
  have hfed : (pieces.take k).flatten ++ pieces[k] = (pieces.take (k + 1)).flatten := by
    rw [← List.take_append_getElem hk, List.flatten_append, List.flatten_singleton]
  have hle : parser.takenAfter pieces k ≤ parser.found pieces (k + 1) :=
    (parser.takenAfter_le_found pieces k).trans (parser.found_mono pieces (Nat.le_succ k))
  have htake : (parser.replies (pieces.take k).flatten).take (parser.takenAfter pieces k) =
      (parser.replies (pieces.take (k + 1)).flatten).take (parser.takenAfter pieces k) := by
    obtain ⟨more, hmore⟩ := parser.replies_take_prefix pieces (Nat.le_succ k)
    rw [← hmore, List.take_append_of_le_length (parser.takenAfter_le_found pieces k)]
  simp only [Reader.takeOne, readerAfter, Reader.feed, Reader.getReply, hfed, htake,
    Bool.false_eq_true, if_false]
  cases hreply : (parser.replies (pieces.take (k + 1)).flatten)[parser.takenAfter pieces k]? with
  | some reply =>
      obtain ⟨hlt, hget⟩ := List.getElem?_eq_some_iff.mp hreply
      have hnext : parser.takenAfter pieces (k + 1) = parser.takenAfter pieces k + 1 :=
        Nat.min_eq_left hlt
      refine ⟨fun hmeets => absurd hmeets.2 hlt.ne, fun _ => ?_⟩
      simp only [hnext, ← List.take_append_getElem hlt, hget, Option.toList]
  | none =>
      have heq : parser.takenAfter pieces k = parser.found pieces (k + 1) :=
        Nat.le_antisymm hle (List.getElem?_eq_none_iff.mp hreply)
      have hnext : parser.takenAfter pieces (k + 1) = parser.takenAfter pieces k := by
        rw [takenAfter, heq]
        exact Nat.min_eq_right (Nat.le_succ _)
      cases hbroken : parser.failed (pieces.take (k + 1)).flatten with
      | false =>
          refine ⟨fun hmeets => absurd hmeets.1 (by simp [broken, hbroken]), fun _ => ?_⟩
          simp [hnext]
      | true => exact ⟨fun _ => rfl, fun hmeets => absurd ⟨hbroken, heq⟩ hmeets⟩

lemma takeEach_take {k : Nat} (hk : k ≤ pieces.length)
    (h : ∀ j < k, ¬ Meets parser pieces j) :
    Reader.takeEach parser ({}, some []) (pieces.take k) = parser.readerAfter pieces k := by
  induction k with
  | zero => simp [Reader.takeEach, readerAfter, takenAfter]
  | succ k ih =>
      rw [← List.take_append_getElem hk, Reader.takeEach_append,
        ih (by omega) fun j hj => h j (by omega)]
      exact (parser.takeOne_readerAfter pieces hk).2 (h k (Nat.lt_succ_self k))

/-- An error that is met stays. -/
lemma takeEach_meets {k : Nat} (hk : k < pieces.length) (hmeets : Meets parser pieces k)
    (h : ∀ j < k, ¬ Meets parser pieces j) :
    (Reader.takeEach parser ({}, some []) pieces).2 = none := by
  have hsplit : pieces = pieces.take k ++ [pieces[k]] ++ pieces.drop (k + 1) := by
    rw [List.take_append_getElem hk, List.take_append_drop]
  have hnone := (parser.takeOne_readerAfter pieces hk).1 hmeets
  have hrun : Reader.takeEach parser ({}, some []) pieces =
      Reader.takeEach parser (Reader.takeOne parser (parser.readerAfter pieces k) pieces[k])
        (pieces.drop (k + 1)) := by
    refine (congrArg (Reader.takeEach parser ({}, some [])) hsplit).trans ?_
    rw [Reader.takeEach_append, Reader.takeEach_append,
      parser.takeEach_take pieces (Nat.le_of_lt hk) h]
    rfl
  rw [hrun, Reader.takeEach_none hnone, hnone]

/-- **One value per piece** gives all the values of the stream exactly when it keeps up. -/
theorem takeEach_iff :
    (Reader.takeEach parser ({}, some []) pieces).2 = some (parser.replies pieces.flatten) ↔
      parser.KeepsUp pieces := by
  have hall : parser.replies pieces.flatten =
      parser.replies (pieces.take pieces.length).flatten := by rw [List.take_length]
  have hmeets : ∀ k < pieces.length, Meets parser pieces k ↔
      parser.broken pieces (k + 1) = true ∧
        ∀ i ≤ k, parser.found pieces pieces.length ≤ parser.found pieces i + (k - i) := by
    intro k hk
    refine and_congr_right fun hbroken => ?_
    rw [parser.found_of_broken pieces hbroken hk, ← le_takenAfter]
    have hle := (parser.takenAfter_le_found pieces k).trans
      (parser.found_mono pieces (Nat.le_succ k))
    exact ⟨fun heq => heq.ge, fun hge => Nat.le_antisymm hle hge⟩
  by_cases hmet : ∃ k, k < pieces.length ∧ Meets parser pieces k
  · classical
    have hfirst := Nat.find_spec hmet
    have hnone := parser.takeEach_meets pieces hfirst.1 hfirst.2 fun j hj hjm =>
      Nat.find_min hmet hj ⟨hj.trans hfirst.1, hjm⟩
    constructor
    · intro h
      rw [hnone] at h
      cases h
    · rintro ⟨-, herr⟩
      obtain ⟨hbroken, hwait⟩ := (hmeets _ hfirst.1).mp hfirst.2
      obtain ⟨i, hi, hlt⟩ := herr _ hfirst.1 hbroken
      exact absurd (hwait i hi) (by omega)
  · have hno : ∀ k < pieces.length, ¬ Meets parser pieces k := fun k hk hm => hmet ⟨k, hk, hm⟩
    have hend := parser.takeEach_take pieces (Nat.le_refl _) hno
    rw [List.take_length] at hend
    rw [hend, readerAfter, hall, Option.some_inj, List.take_eq_self_iff]
    show parser.found pieces pieces.length ≤ _ ↔ _
    rw [le_takenAfter]
    refine (and_iff_left fun k hk hbroken => ?_).symm
    by_contra hwait
    push Not at hwait
    exact hno k hk ((hmeets k hk).mpr ⟨hbroken, hwait⟩)

/-- One value per piece is enough for a stream without an error in which no piece completes two. -/
theorem keepsUp_of_found_succ_le (hstep : ∀ k < pieces.length,
      parser.found pieces (k + 1) ≤ parser.found pieces k + 1)
    (hok : parser.failed pieces.flatten = false) : parser.KeepsUp pieces := by
  have hfound : ∀ d k, k + d ≤ pieces.length →
      parser.found pieces (k + d) ≤ parser.found pieces k + d := by
    intro d
    induction d with
    | zero => exact fun k _ => Nat.le_refl _
    | succ d ih =>
        intro k hk
        have := ih k (by omega)
        have := hstep (k + d) (by omega)
        rw [← Nat.add_assoc]
        omega
  refine ⟨fun k hk => ?_, fun k hk hbroken => ?_⟩
  · have := hfound (pieces.length - k) k (by omega)
    rwa [Nat.add_sub_cancel' hk] at this
  · have := parser.failed_append _ (pieces.drop (k + 1)).flatten hbroken
    rw [← List.flatten_append, List.take_append_drop, hok] at this
    cases this

end IncrementalParser

/-! ## Machines -/

/-- A machine that reads one byte at a time; `none` is an error. -/
structure ByteMachine (β ρ : Type) where
  State : Type
  init : State
  step : State → β → Option (State × List ρ)

namespace ByteMachine

variable {β ρ : Type} (m : ByteMachine β ρ)

/-- Read on behind what has been read; the state is gone after an error. -/
def next (s : Option m.State × List ρ) (b : β) : Option m.State × List ρ :=
  match s.1.bind (m.step · b) with
  | none => (none, s.2)
  | some (q, out) => (some q, s.2 ++ out)

def run (s : Option m.State × List ρ) (bytes : List β) : Option m.State × List ρ :=
  bytes.foldl m.next s

lemma next_prefix (s : Option m.State × List ρ) (b : β) : s.2 <+: (m.next s b).2 := by
  rw [next]
  split
  · exact List.prefix_refl _
  · exact List.prefix_append ..

lemma run_prefix (s : Option m.State × List ρ) (bytes : List β) : s.2 <+: (m.run s bytes).2 := by
  induction bytes generalizing s with
  | nil => exact List.prefix_refl _
  | cons b bytes ih => exact (m.next_prefix s b).trans (ih (m.next s b))

lemma run_failed {s : Option m.State × List ρ} (h : s.1 = none) (bytes : List β) :
    m.run s bytes = s := by
  induction bytes with
  | nil => rfl
  | cons b bytes ih =>
      have : m.next s b = s := by
        rw [next, h]
        exact Prod.ext h.symm rfl
      rw [run, List.foldl_cons, this]
      exact ih

/-- The parser a machine implements. -/
def parser : IncrementalParser β ρ where
  replies bytes := (m.run (some m.init, []) bytes).2
  failed bytes := (m.run (some m.init, []) bytes).1.isNone
  replies_nil := rfl
  replies_prefix a b := by
    rw [run, run, List.foldl_append]
    exact m.run_prefix _ b
  replies_failed a b h := by
    have := m.run_failed (Option.isNone_iff_eq_none.mp h) b
    rw [run, List.foldl_append]
    exact congrArg Prod.snd this
  failed_append a b h := by
    have := m.run_failed (Option.isNone_iff_eq_none.mp h) b
    rw [run, List.foldl_append]
    exact (congrArg (fun s => s.1.isNone) this).trans h

end ByteMachine

end RaftKv
