import Mathlib.Order.Basic
import RaftKv.Core.Run
import RaftKv.Raft.Progress

/-!
# The window of a peer is a queue

`InFlights` is a ring that wraps at `size`, in a buffer that grows on demand and may be shorter.

* `InFlights.Holds` — the ring holds a queue: its elements are found from `start` on.
* `Holds.add`, `Holds.freeTo`, `Holds.freeFirstOne`, `Holds.reset` — **the operations are those of the
  queue, and every access is inside the buffer**.
* `InFlights.add_grown_out` — a buffer of `2 ^ 31` elements is not grown but cut down to one.
* `Flights.window_queue` — **every run keeps to the queue, as long as no buffer of `2 ^ 31` elements
  has to grow**.
-/

namespace RaftKv

namespace InFlights

/-- The place of the `k`-th element. -/
def slot (f : InFlights) (k : Nat) : Nat :=
  if f.start + k ≥ f.size then f.start + k - f.size else f.start + k

/-- The ring holds the queue `w`. -/
structure Holds (f : InFlights) (w : List Nat) : Prop where
  count : f.count = w.length
  fits : w.length ≤ f.size
  start_lt : f.start < f.size
  length_le : f.buffer.length ≤ f.size
  /-- The buffer ends behind the elements, unless it is as long as it may become. -/
  dense : f.start + f.count ≤ f.buffer.length ∨ f.buffer.length = f.size
  cells : ∀ k v, w[k]? = some v → f.buffer[f.slot k]? = some v

/-- The buffer is not grown beyond `2 ^ 31` elements by the next one. -/
def Growable (f : InFlights) : Prop := f.size ≤ 2 ^ 31 ∨ f.start + f.count < 2 ^ 31

instance (f : InFlights) : Decidable f.Growable := inferInstanceAs (Decidable (_ ∨ _))

variable {f : InFlights} {w : List Nat}

lemma slot_lt (h : f.Holds w) {k : Nat} (hk : k < f.size) : f.slot k < f.size := by
  have := h.start_lt
  rw [slot]
  split <;> omega

/-- The next place. -/
lemma slot_succ (h : f.Holds w) {k : Nat} (hk : k < f.size) :
    f.slot (k + 1) =
      if f.slot k + 1 ≥ f.size then f.slot k + 1 - f.size else f.slot k + 1 := by
  have := h.start_lt
  simp only [slot]
  split_ifs <;> omega

lemma slot_inj (h : f.Holds w) {j k : Nat} (hj : j < f.size) (hk : k < f.size)
    (heq : f.slot j = f.slot k) : j = k := by
  have := h.start_lt
  simp only [slot] at heq
  split_ifs at heq <;> omega

lemma Holds.isFull (h : f.Holds w) : f.isFull = true ↔ w.length = f.size := by
  rw [InFlights.isFull, beq_iff_eq, h.count]
  exact eq_comm

theorem new_holds {maxInflight : Nat} (hpos : 0 < wrap32 maxInflight) : (new maxInflight).Holds [] where
  count := rfl
  fits := Nat.zero_le _
  start_lt := hpos
  length_le := Nat.zero_le _
  dense := Or.inl (Nat.le_refl 0)
  cells := fun k v hk => by cases hk

/-! ## Adding -/

lemma resize_eq {n : Nat} {buffer : List Nat} (h : buffer.length ≤ n) :
    resize n buffer = buffer ++ List.replicate (n - buffer.length) 0 := by
  rw [resize, List.take_of_length_le h]

/-- When the buffer has to grow, the new element goes to its end. -/
lemma Holds.slot_of_grow (h : f.Holds w) (hroom : w.length < f.size)
    (hgrow : f.buffer.length ≤ f.slot f.count) :
    f.slot f.count = f.buffer.length ∧ f.start + f.count = f.buffer.length := by
  have hlt := slot_lt h (h.count ▸ hroom)
  have hdense := h.dense
  simp only [slot] at hgrow hlt ⊢
  split_ifs at hgrow hlt ⊢ <;> omega

/-- The buffer grows, by one element at least. -/
lemma Holds.grownSize (h : f.Holds w) (hroom : w.length < f.size) (hgrowable : f.Growable)
    (hgrow : f.buffer.length ≤ f.slot f.count) :
    f.buffer.length < f.grownSize ∧ f.grownSize ≤ f.size := by
  obtain ⟨hslot, hend⟩ := h.slot_of_grow hroom hgrow
  have hlt := slot_lt h (h.count ▸ hroom)
  have hshort : f.buffer.length < 2 ^ 31 := by
    rcases hgrowable with hsize | hshort
    · omega
    · omega
  have hdoubled : wrap32 (f.buffer.length * 2) = f.buffer.length * 2 :=
    Nat.mod_eq_of_lt (by omega)
  rw [InFlights.grownSize, hdoubled]
  split_ifs <;> omega

/-- **An element is added at the end of the queue.** -/
theorem Holds.add (h : f.Holds w) (hroom : w.length < f.size) (hgrowable : f.Growable) (x : Nat) :
    ∃ f', f.add x = Except.ok f' ∧ f'.Holds (w ++ [x]) ∧ f'.size = f.size ∧
      f'.start + f'.count = f.start + f.count + 1 ∧
      (f'.buffer.length = f.buffer.length ∨
        f.start + f.count = f.buffer.length ∧ f'.buffer.length = f.grownSize) := by
  have hfull : ¬ f.isFull = true := by
    rw [h.isFull]
    omega
  have hcount := h.count
  have hlength := h.length_le
  have hnext := slot_lt h (h.count ▸ hroom)
  -- the buffer that the element is written to
  let buffer := if f.slot f.count ≥ f.buffer.length then resize f.grownSize f.buffer else f.buffer
  have hbuffer : f.slot f.count < buffer.length ∧ buffer.length ≤ f.size ∧
      (f.start + f.count + 1 ≤ buffer.length ∨ buffer.length = f.size) ∧
      (buffer.length = f.buffer.length ∨
        f.start + f.count = f.buffer.length ∧ buffer.length = f.grownSize) ∧
      ∀ i v : Nat, f.buffer[i]? = some v → buffer[i]? = some v := by
    by_cases hgrow : f.slot f.count ≥ f.buffer.length
    · obtain ⟨hslot, hend⟩ := h.slot_of_grow hroom hgrow
      obtain ⟨hlarger, hfits⟩ := h.grownSize hroom hgrowable hgrow
      have heq : buffer = f.buffer ++ List.replicate (f.grownSize - f.buffer.length) 0 := by
        show (if _ then _ else _) = _
        rw [if_pos hgrow, resize_eq (Nat.le_of_lt hlarger)]
      have hlen : buffer.length = f.grownSize := by
        rw [heq, List.length_append, List.length_replicate]
        omega
      refine ⟨by omega, by omega, Or.inl (by omega), Or.inr ⟨hend, hlen⟩, fun i v hi => ?_⟩
      have hlt := (List.getElem?_eq_some_iff.mp hi).1
      rw [heq, List.getElem?_append_left hlt, hi]
    · have heq : buffer = f.buffer := if_neg hgrow
      rw [heq]
      refine ⟨by omega, hlength, ?_, Or.inl rfl, fun i v hi => hi⟩
      have hdense := h.dense
      simp only [slot] at hgrow
      split_ifs at hgrow <;> omega
  obtain ⟨hin, hfits, hdense, hgrown, hkept⟩ := hbuffer
  have hslot : (if f.start + f.count ≥ f.size then f.start + f.count - f.size
      else f.start + f.count) = f.slot f.count := rfl
  refine ⟨{ f with buffer := buffer.set (f.slot f.count) x, count := f.count + 1 }, ?_,
    ⟨?_, ?_, h.start_lt, ?_, ?_, ?_⟩, rfl, rfl, ?_⟩
  · rw [InFlights.add, if_neg hfull]
    dsimp only
    rw [hslot]
    exact if_pos hin
  · simp [hcount]
  · rw [List.length_append, List.length_singleton]
    exact hroom
  · rw [List.length_set]
    exact hfits
  · rw [List.length_set]
    exact hdense
  · intro k v hk
    show (buffer.set (f.slot f.count) x)[f.slot k]? = some v
    rcases Nat.lt_or_ge k w.length with hlt | hge
    · rw [List.getElem?_append_left hlt] at hk
      have hne : f.slot f.count ≠ f.slot k := by
        intro heq
        have := slot_inj h (by omega) (by omega) heq
        omega
      rw [List.getElem?_set_ne hne]
      exact hkept _ _ (h.cells k v hk)
    · have hend : k = f.count ∧ v = x := by
        rw [List.getElem?_append_right hge] at hk
        have hzero := (List.getElem?_eq_some_iff.mp hk).1
        simp only [List.length_singleton] at hzero
        have hk' : k - w.length = 0 := by omega
        rw [hk'] at hk
        exact ⟨by omega, (Option.some.inj hk).symm⟩
      obtain ⟨rfl, rfl⟩ := hend
      exact List.getElem?_set_self hin
  · rw [List.length_set]
    exact hgrown

/-- **A buffer of `2 ^ 31` elements that has to grow is cut down to one element**, and the new element
is written behind its end. -/
theorem add_grown_out (hroom : ¬ f.isFull = true) (hsize : 2 ^ 31 < f.size)
    (hlength : f.buffer.length = 2 ^ 31) (hend : f.start + f.count = 2 ^ 31) (x : Nat) :
    f.add x = Except.error (Crash.outOfRange "buffer[next]") := by
  have hdoubled : wrap32 (f.buffer.length * 2) = 0 := by
    rw [hlength]
    rfl
  have hgrown : f.grownSize = 1 := by
    rw [InFlights.grownSize, hdoubled]
    rfl
  have hlast : ¬ (2 ^ 31 ≥ f.size) := by omega
  have hcut : ¬ 2 ^ 31 < (resize 1 f.buffer).length := by
    rw [resize, List.length_append, List.length_take, List.length_replicate, hlength]
    omega
  rw [InFlights.add, if_neg hroom]
  dsimp only
  rw [hend, if_neg hlast, if_pos (Nat.le_of_eq hlength), hgrown, if_neg hcut]
  rfl

/-! ## Freeing -/

/-- The scan stops behind the elements that `upTo` covers. -/
lemma Holds.freeScan (h : f.Holds w) (upTo : Nat) {i : Nat} {rest : List Nat}
    (hrest : w.drop i = rest) :
    f.freeScan upTo rest.length (f.slot i) i =
      Except.ok (f.slot (i + (rest.takeWhile fun v => decide (v ≤ upTo)).length),
        i + (rest.takeWhile fun v => decide (v ≤ upTo)).length) := by
  induction rest generalizing i with
  | nil => rfl
  | cons v rest ih =>
      have hi : w[i]? = some v := by
        have := congrArg (fun l => l[0]?) hrest
        simpa using this
      have hlt := (List.getElem?_eq_some_iff.mp hi).1
      have hfits := h.fits
      have hnext : w.drop (i + 1) = rest := by
        rw [← List.tail_drop, hrest, List.tail_cons]
      rw [List.length_cons, InFlights.freeScan, h.cells i v hi]
      dsimp only
      by_cases hv : v ≤ upTo
      · rw [if_neg (by omega), ← slot_succ h (by omega), ih hnext,
          List.takeWhile_cons_of_pos (by simpa using hv), List.length_cons]
        rw [show i + 1 + (rest.takeWhile fun v => decide (v ≤ upTo)).length =
          i + ((rest.takeWhile fun v => decide (v ≤ upTo)).length + 1) by omega]
      · rw [if_pos (by omega), List.takeWhile_cons_of_neg (by simpa using hv)]
        rfl

lemma slot_zero (h : f.Holds w) : f.slot 0 = f.start := by
  have := h.start_lt
  rw [slot]
  split <;> omega

/-- A ring whose start moves over its first `n` elements. -/
lemma Holds.drop (h : f.Holds w) {n : Nat} (hn : n ≤ w.length) (hpos : 0 < w.length - n) :
    ({ f with count := f.count - n, start := f.slot n } : InFlights).Holds (w.drop n) := by
  have hcount := h.count
  have hfits := h.fits
  have hstart := h.start_lt
  have hlength := h.length_le
  have hslot := slot_lt h (k := n) (by omega)
  refine ⟨?_, ?_, hslot, hlength, ?_, ?_⟩
  · rw [List.length_drop, hcount]
  · rw [List.length_drop]
    show w.length - n ≤ f.size
    omega
  · have hdense := h.dense
    show f.slot n + (f.count - n) ≤ f.buffer.length ∨ f.buffer.length = f.size
    simp only [slot] at hslot ⊢
    split_ifs <;> omega
  · intro k v hk
    rw [List.getElem?_drop] at hk
    have hlt := (List.getElem?_eq_some_iff.mp hk).1
    have heq : ({ f with count := f.count - n, start := f.slot n } : InFlights).slot k =
        f.slot (n + k) := by
      simp only [slot]
      split_ifs <;> omega
    rw [heq]
    exact h.cells (n + k) v hk

/-- A ring without elements. -/
lemma Holds.empty (h : f.Holds w) :
    ({ f with count := 0, start := 0 } : InFlights).Holds [] where
  count := rfl
  fits := Nat.zero_le _
  start_lt := Nat.lt_of_le_of_lt (Nat.zero_le _) h.start_lt
  length_le := h.length_le
  dense := Or.inl (Nat.zero_le _)
  cells := fun k v hk => by cases hk

/-- **`reset` empties the queue.** -/
theorem Holds.reset (h : f.Holds w) : f.reset.Holds [] := h.empty

/-- What is left behind the elements that are at most `upTo`. -/
lemma dropWhile_eq_drop (upTo : Nat) (w : List Nat) :
    w.dropWhile (fun v => decide (v ≤ upTo)) =
      w.drop (w.takeWhile fun v => decide (v ≤ upTo)).length := by
  induction w with
  | nil => rfl
  | cons v w ih =>
      by_cases hv : v ≤ upTo
      · rw [List.dropWhile_cons_of_pos (by simpa using hv),
          List.takeWhile_cons_of_pos (by simpa using hv), List.length_cons, List.drop_succ_cons, ih]
      · rw [List.dropWhile_cons_of_neg (by simpa using hv),
          List.takeWhile_cons_of_neg (by simpa using hv), List.length_nil, List.drop_zero]

/-- **The longest prefix of elements up to `upTo` is freed.** -/
theorem Holds.freeTo (h : f.Holds w) (upTo : Nat) :
    ∃ f', f.freeTo upTo = Except.ok f' ∧ f'.Holds (w.dropWhile fun v => decide (v ≤ upTo)) ∧
      f'.size = f.size ∧ f'.buffer = f.buffer ∧ f'.start + f'.count ≤ f.start + f.count := by
  have hcount := h.count
  by_cases hzero : f.count = 0
  · obtain rfl : w = [] := List.eq_nil_of_length_eq_zero (hcount.symm.trans hzero)
    refine ⟨f, ?_, h, rfl, rfl, Nat.le_refl _⟩
    rw [InFlights.freeTo, if_pos hzero]
    rfl
  obtain ⟨v, rest, rfl⟩ := List.exists_cons_of_length_pos (show 0 < w.length by omega)
  have hfirst : f.buffer[f.start]? = some v := by
    have := h.cells 0 v rfl
    rwa [slot_zero h] at this
  by_cases hv : upTo < v
  · refine ⟨f, ?_, ?_, rfl, rfl, Nat.le_refl _⟩
    · rw [InFlights.freeTo, if_neg hzero, hfirst]
      exact if_pos hv
    · rwa [List.dropWhile_cons_of_neg (by simpa using hv)]
  let n := ((v :: rest).takeWhile fun v => decide (v ≤ upTo)).length
  have hn : n ≤ (v :: rest).length := (List.takeWhile_sublist _).length_le
  have hscan : f.freeScan upTo f.count f.start 0 = Except.ok (f.slot n, n) := by
    have := h.freeScan upTo (List.drop_zero : (v :: rest).drop 0 = v :: rest)
    rwa [slot_zero h, ← hcount, Nat.zero_add] at this
  have hfree : f.freeTo upTo = Except.ok
      { f with count := f.count - n, start := if f.count - n = 0 then 0 else f.slot n } := by
    rw [InFlights.freeTo, if_neg hzero, hfirst]
    dsimp only
    rw [if_neg hv, hscan]
    rfl
  refine ⟨_, hfree, ?_, rfl, rfl, ?_⟩
  · rw [dropWhile_eq_drop]
    show InFlights.Holds _ ((v :: rest).drop n)
    by_cases hall : f.count - n = 0
    · have hnil : (v :: rest).drop n = [] := List.drop_eq_nil_of_le (by omega)
      rw [hnil, hall]
      exact h.empty
    · rw [if_neg hall]
      exact h.drop hn (by omega)
  · show (if f.count - n = 0 then 0 else f.slot n) + (f.count - n) ≤ f.start + f.count
    simp only [slot]
    split_ifs <;> omega

/-- **The longest prefix of elements up to the first one is freed.** -/
theorem Holds.freeFirstOne {v : Nat} (h : f.Holds (v :: w)) :
    ∃ f', f.freeFirstOne = Except.ok f' ∧
      f'.Holds ((v :: w).dropWhile fun x => decide (x ≤ v)) ∧ f'.size = f.size ∧
      f'.buffer = f.buffer ∧ f'.start + f'.count ≤ f.start + f.count := by
  have hfirst : f.buffer[f.start]? = some v := by
    have := h.cells 0 v rfl
    rwa [slot_zero h] at this
  obtain ⟨f', hfree, hholds⟩ := h.freeTo v
  refine ⟨f', ?_, hholds⟩
  rw [InFlights.freeFirstOne, hfirst]
  exact hfree

end InFlights

/-! ## Runs -/

inductive WindowAction where
  | add (inflight : Nat)
  | freeTo (upTo : Nat)
  | freeFirstOne
  | reset

/-- A ring, beside the queue that it is to hold. -/
structure Flights where
  ring : InFlights
  queue : List Nat := []

namespace Flights

def start (maxInflight : Nat) : Flights := { ring := InFlights.new maxInflight }

def act (s : Flights) : WindowAction → Outcome Flights
  | WindowAction.add inflight => do
      let ring ← s.ring.add inflight
      return { ring := ring, queue := s.queue ++ [inflight] }
  | WindowAction.freeTo upTo => do
      let ring ← s.ring.freeTo upTo
      return { ring := ring, queue := s.queue.dropWhile fun v => decide (v ≤ upTo) }
  | WindowAction.freeFirstOne => do
      let ring ← s.ring.freeFirstOne
      return { ring := ring, queue := s.queue.dropWhile fun v => decide (v ≤ s.queue.headD 0) }
  | WindowAction.reset => pure { ring := s.ring.reset, queue := [] }

/-- An element is added when the window is not full, and the first one is freed when there is
one. -/
def Allowed (s : Flights) : WindowAction → Prop
  | WindowAction.add _ => ¬ s.ring.isFull = true
  | WindowAction.freeFirstOne => s.ring.count ≠ 0
  | _ => True

instance (s : Flights) : (a : WindowAction) → Decidable (s.Allowed a)
  | WindowAction.add _ => inferInstanceAs (Decidable (¬ s.ring.isFull = true))
  | WindowAction.freeFirstOne => inferInstanceAs (Decidable (s.ring.count ≠ 0))
  | WindowAction.freeTo _ | WindowAction.reset => inferInstanceAs (Decidable True)

/-- No buffer of `2 ^ 31` elements has to grow. -/
def Roomy (s : Flights) : WindowAction → Prop
  | WindowAction.add _ => s.ring.Growable
  | _ => True

instance (s : Flights) : (a : WindowAction) → Decidable (s.Roomy a)
  | WindowAction.add _ => inferInstanceAs (Decidable s.ring.Growable)
  | WindowAction.freeTo _ | WindowAction.freeFirstOne | WindowAction.reset =>
      inferInstanceAs (Decidable True)

/-- The ring holds the queue; and where it may become longer than `2 ^ 31` elements, its buffer has
been doubled up to that length at most. -/
structure Kept (s : Flights) : Prop where
  holds : s.ring.Holds s.queue
  small : s.ring.size ≤ 2 ^ 31 ∨ s.ring.start + s.ring.count ≤ 2 ^ 31 ∧
    (s.ring.buffer.length = 0 ∨ ∃ k ≤ 31, s.ring.buffer.length = 2 ^ k)

variable {s : Flights} {a : WindowAction}

/-- The queue after an operation that frees elements. -/
lemma Kept.free (h : s.Kept) {ring : InFlights} {queue : List Nat} (hholds : ring.Holds queue)
    (hsize : ring.size = s.ring.size) (hbuffer : ring.buffer = s.ring.buffer)
    (hend : ring.start + ring.count ≤ s.ring.start + s.ring.count) :
    Kept { ring := ring, queue := queue } := by
  refine ⟨hholds, ?_⟩
  show ring.size ≤ 2 ^ 31 ∨ ring.start + ring.count ≤ 2 ^ 31 ∧
    (ring.buffer.length = 0 ∨ ∃ k ≤ 31, ring.buffer.length = 2 ^ k)
  rw [hsize, hbuffer]
  exact h.small.imp_right fun hsmall => ⟨Nat.le_trans hend hsmall.1, hsmall.2⟩

/-- A buffer that grows is doubled. -/
lemma grown_small {f : InFlights} (hsize : 2 ^ 31 < f.size) (hshort : f.buffer.length < 2 ^ 31)
    (hpow : f.buffer.length = 0 ∨ ∃ k ≤ 31, f.buffer.length = 2 ^ k) :
    ∃ k ≤ 31, f.grownSize = 2 ^ k := by
  have hdoubled : wrap32 (f.buffer.length * 2) = f.buffer.length * 2 :=
    Nat.mod_eq_of_lt (by omega)
  rw [InFlights.grownSize, hdoubled]
  rcases hpow with hzero | ⟨k, -, hk⟩
  · exact ⟨0, by omega, by rw [hzero]; rfl⟩
  · rw [hk] at hshort ⊢
    have hlt : k < 31 := (Nat.pow_lt_pow_iff_right (by omega)).mp hshort
    have hle : 2 ^ (k + 1) ≤ 2 ^ 31 := Nat.pow_le_pow_right (by omega) hlt
    refine ⟨k + 1, hlt, ?_⟩
    have hpos : 2 ^ (k + 1) ≠ 0 := Nat.ne_of_gt (Nat.two_pow_pos _)
    rw [← Nat.pow_succ, if_neg hpos, if_neg (by omega)]

/-- **A step that keeps to the queue.** -/
theorem act_kept (h : s.Kept) (ha : s.Allowed a) (hroomy : s.Roomy a) :
    ∃ s', s.act a = Except.ok s' ∧ s'.Kept := by
  cases a with
  | add x =>
      have hroom : s.queue.length < s.ring.size := by
        have hfits := h.holds.fits
        have hne : s.queue.length ≠ s.ring.size := fun heq => ha (h.holds.isFull.mpr heq)
        omega
      obtain ⟨ring, hadd, hholds, hsize, hend, hbuffer⟩ := h.holds.add hroom hroomy x
      refine ⟨{ ring := ring, queue := s.queue ++ [x] }, ?_, hholds, ?_⟩
      · rw [act, hadd]
        rfl
      show ring.size ≤ 2 ^ 31 ∨ ring.start + ring.count ≤ 2 ^ 31 ∧ _
      rw [hsize, hend]
      rcases Nat.lt_or_ge (2 ^ 31) s.ring.size with hlarge | hle
      · right
        have hshort : s.ring.start + s.ring.count < 2 ^ 31 := hroomy.resolve_left (by omega)
        have hpow := (h.small.resolve_left (by omega)).2
        refine ⟨hshort, ?_⟩
        rcases hbuffer with hsame | ⟨heq, hgrown⟩
        · show ring.buffer.length = 0 ∨ ∃ k ≤ 31, ring.buffer.length = 2 ^ k
          rwa [hsame]
        · show ring.buffer.length = 0 ∨ ∃ k ≤ 31, ring.buffer.length = 2 ^ k
          rw [hgrown]
          exact Or.inr (grown_small hlarge (by omega) hpow)
      · exact Or.inl hle
  | freeTo upTo =>
      obtain ⟨ring, hfree, hholds, hsize, hbuffer, hend⟩ := h.holds.freeTo upTo
      refine ⟨_, ?_, h.free hholds hsize hbuffer hend⟩
      rw [act, hfree]
      rfl
  | freeFirstOne =>
      obtain ⟨v, rest, hqueue⟩ : ∃ v rest, s.queue = v :: rest := by
        refine List.exists_cons_of_length_pos ?_
        rw [← h.holds.count]
        exact Nat.pos_of_ne_zero ha
      have hholds := h.holds
      rw [hqueue] at hholds
      obtain ⟨ring, hfree, hholds, hsize, hbuffer, hend⟩ := hholds.freeFirstOne
      refine ⟨_, ?_, h.free hholds hsize hbuffer hend⟩
      rw [act, hfree, hqueue]
      rfl
  | reset =>
      refine ⟨{ ring := s.ring.reset, queue := [] }, rfl, h.holds.reset, ?_⟩
      exact h.small.imp_right fun hsmall => ⟨Nat.zero_le _, hsmall.2⟩

/-- A step that does not keep to it ends behind the buffer. -/
theorem act_out (h : s.Kept) (ha : s.Allowed a) (hroomy : ¬ s.Roomy a) :
    s.act a = Except.error (Crash.outOfRange "buffer[next]") := by
  cases a with
  | add x =>
      have hroomy : ¬ (s.ring.size ≤ 2 ^ 31 ∨ s.ring.start + s.ring.count < 2 ^ 31) := hroomy
      rw [not_or] at hroomy
      obtain ⟨hsmall, hpow⟩ := h.small.resolve_left hroomy.1
      have hend : s.ring.start + s.ring.count = 2 ^ 31 := by omega
      have hle : s.ring.buffer.length ≤ 2 ^ 31 := by
        rcases hpow with hzero | ⟨k, hk, hk'⟩
        · omega
        · rw [hk']
          exact Nat.pow_le_pow_right (by omega) hk
      have hlength : s.ring.buffer.length = 2 ^ 31 := by
        have hdense := h.holds.dense
        omega
      rw [act, InFlights.add_grown_out ha (by omega) hlength hend]
      rfl
  | _ => exact absurd trivial hroomy

/-- **The window is a queue.**  In a run from the constructor in which no buffer of `2 ^ 31` elements
has to grow, the ring holds the queue in every state; and there an action keeps to the queue if and
only if it does not make such a buffer grow. -/
theorem window_queue {maxInflight : Nat} (hpos : 0 < wrap32 maxInflight)
    (hrun : RunOf act (fun s a => s.Allowed a ∧ s.Roomy a) (start maxInflight) s) :
    s.ring.Holds s.queue ∧ ∀ a, s.Allowed a →
      ((∃ s', s.act a = Except.ok s' ∧ s'.ring.Holds s'.queue) ↔ s.Roomy a) := by
  have hkept : s.Kept := by
    refine hrun.invariant (I := Kept) ?_ ⟨InFlights.new_holds hpos, Or.inr ⟨?_, Or.inl rfl⟩⟩
    · intro s a s' h ha hact
      obtain ⟨s₁, hs₁, hkept⟩ := act_kept h ha.1 ha.2
      obtain rfl := Except.ok.inj (hs₁.symm.trans hact)
      exact hkept
    · exact Nat.zero_le _
  refine ⟨hkept.holds, fun a ha => ⟨fun ⟨s', hact, _⟩ => ?_, fun hroomy => ?_⟩⟩
  · by_contra hroomy
    rw [act_out hkept ha hroomy] at hact
    cases hact
  · obtain ⟨s', hact, hkept'⟩ := act_kept hkept ha hroomy
    exact ⟨s', hact, hkept'.holds⟩

/-- A window of three that wraps. -/
theorem window_queue_three : ∃ s : Flights,
    RunOf act (fun s a => s.Allowed a ∧ s.Roomy a) (start 3) s ∧ s.queue = [7, 8, 9] ∧
    s.ring.start = 2 ∧ s.ring.Holds [7, 8, 9] := by
  let acts : List WindowAction := [WindowAction.add 5, WindowAction.add 6, WindowAction.add 7,
    WindowAction.freeFirstOne, WindowAction.freeTo 6, WindowAction.add 8, WindowAction.add 9]
  have hreached : ((acts.foldlM (RunOf.exec act fun s a => s.Allowed a ∧ s.Roomy a)
      (start 3)).toOption.any fun s =>
        decide (s.queue = [7, 8, 9] ∧ s.ring.start = 2)) = true := by
    decide +kernel
  obtain ⟨s, hs, hreached⟩ := (Option.any_eq_true ..).mp hreached
  obtain ⟨hqueue, hstart⟩ := of_decide_eq_true hreached
  have hrun := RunOf.of_exec (Outcome.eq_ok_of_toOption hs)
  have hholds := (window_queue (by decide) hrun).1
  rw [hqueue] at hholds
  exact ⟨s, hrun, hqueue, hstart, hholds⟩

/-- So many elements are added to a window that is larger than `2 ^ 31`. -/
lemma add_many (x : Nat → Nat) {n : Nat} (hn : n ≤ 2 ^ 31) : ∃ s : Flights,
    RunOf act (fun s a => s.Allowed a ∧ s.Roomy a) (start (2 ^ 31 + 1)) s ∧ s.Kept ∧
    s.ring.size = 2 ^ 31 + 1 ∧ s.ring.start + s.ring.count = n ∧ s.ring.count = n ∧
    s.queue = (List.range n).map x := by
  induction n with
  | zero =>
      refine ⟨start (2 ^ 31 + 1), RunOf.refl _, ⟨InFlights.new_holds (by decide), ?_⟩, rfl, rfl, rfl,
        rfl⟩
      exact Or.inr ⟨Nat.zero_le _, Or.inl rfl⟩
  | succ n ih =>
      obtain ⟨s, hrun, hkept, hsize, hend, hcount, hqueue⟩ := ih (by omega)
      have hroom : s.queue.length < s.ring.size := by
        rw [← hkept.holds.count]
        omega
      have hallowed : s.Allowed (WindowAction.add (x n)) := by
        intro hfull
        have := hkept.holds.isFull.mp hfull
        omega
      have hgrowable : s.ring.Growable := Or.inr (by omega)
      obtain ⟨ring, hadd, -, hsize', hend', -⟩ := hkept.holds.add hroom hgrowable (x n)
      obtain ⟨s', hact, hkept'⟩ :=
        act_kept (a := WindowAction.add (x n)) hkept hallowed hgrowable
      have hact' := hact
      rw [act, hadd] at hact'
      cases hact'
      have hcount' := hkept'.holds.count
      rw [List.length_append, ← hkept.holds.count] at hcount'
      refine ⟨_, hrun.step _ ⟨hallowed, hgrowable⟩ hact, hkept', hsize'.trans hsize, ?_, ?_, ?_⟩
      · exact hend'.trans (congrArg (· + 1) hend)
      · exact hcount'.trans (congrArg (· + 1) hcount)
      · rw [List.range_succ, List.map_append, ← hqueue]
        rfl

/-- A window of `2 ^ 31 + 1` elements is not full, and its last element is written out of bounds. -/
theorem window_out_of_bounds : ∃ s : Flights, RunOf act Allowed (start (2 ^ 31 + 1)) s ∧
    s.Allowed (WindowAction.add 0) ∧
    s.act (WindowAction.add 0) = Except.error (Crash.outOfRange "buffer[next]") := by
  obtain ⟨s, hrun, hkept, hsize, hend, hcount, -⟩ := add_many (fun _ => 0) (Nat.le_refl _)
  have hallowed : s.Allowed (WindowAction.add 0) := by
    intro hfull
    have := hkept.holds.isFull.mp hfull
    have := hkept.holds.count
    omega
  refine ⟨s, hrun.mono fun s a ha => ha.1, hallowed, act_out hkept hallowed ?_⟩
  rintro (hle | hlt)
  · omega
  · omega

end Flights

end RaftKv
