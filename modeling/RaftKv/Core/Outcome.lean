import Mathlib.Tactic.Lemma
import Mathlib.Tactic.SplitIfs

/-!
# Computations that may end the process

The modelled program has two ways of not returning: it throws (a fatal log line throws a
`std::runtime_error` that nothing catches), or it performs an access C++ leaves undefined.
Both are a `Crash`, and a function that can reach one returns an `Outcome`.

* `Outcome.bind_eq_ok` — **the only inversion lemma the rest of the development uses**: a
  sequence of steps returns exactly when each of its steps does.
* `Outcome.foldlM_induct` — a loop that returns preserves whatever each of its rounds preserves.
* `Outcome.Avoids` — the computation does not crash in a certain way, with its rules.
* `Outcome.Ensures` — what it returns meets a postcondition, with the same rules.
-/

namespace RaftKv

/-- Why a computation did not return. -/
inductive Crash where
  /-- A fatal log line; `text` is the formatted message of the exception it throws. -/
  | fatal (text : String)
  /-- An exception that reaches the top of its thread. -/
  | uncaught (exception : String)
  /-- A failing assertion. -/
  | assertion (condition : String)
  /-- A dereference of a null pointer or of an end iterator. -/
  | nullDeref (expression : String)
  /-- An access outside a buffer. -/
  | outOfRange (expression : String)
  /-- A read of a variable that was never assigned. -/
  | uninitialized (name : String)
  /-- A loop that was cut off by the model because it does not end. -/
  | diverges (loop : String)
  deriving DecidableEq, Repr

/-- The result of a computation that may crash. -/
abbrev Outcome := Except Crash

namespace Outcome

variable {α β σ ε : Type}

/-- A sequence of two steps returns exactly when both do. -/
@[simp] theorem bind_eq_ok {x : Except ε α} {f : α → Except ε β} {b : β} :
    (x >>= f) = Except.ok b ↔ ∃ a, x = Except.ok a ∧ f a = Except.ok b := by
  cases x with
  | error e => simp [bind, Except.bind]
  | ok a => simp [bind, Except.bind]

@[simp] theorem pure_eq_ok {a b : α} : (pure a : Except ε α) = Except.ok b ↔ a = b := by
  simp [pure, Except.pure]

@[simp] theorem ok_bind {a : α} {f : α → Except ε β} : (Except.ok a >>= f) = f a := rfl

@[simp] theorem error_bind {e : ε} {f : α → Except ε β} :
    ((Except.error e : Except ε α) >>= f) = Except.error e := rfl

@[simp] theorem throw_ne_ok {e : ε} {a : α} : (throw e : Except ε α) ≠ Except.ok a := by
  intro h; cases h

/-- A computation that returns, returns what it evaluates to. -/
theorem eq_ok_get {x : Except ε α} (h : x.toOption.isSome = true) :
    x = Except.ok (x.toOption.get h) := by
  cases x with
  | error e => cases h
  | ok a => rfl

theorem eq_ok_of_toOption {x : Except ε α} {a : α} (h : x.toOption = some a) : x = Except.ok a := by
  cases x with
  | error e => cases h
  | ok b => exact congrArg Except.ok (Option.some.inj h)

/-- A loop over a list that returns keeps what each of its rounds keeps. -/
theorem foldlM_induct {P : σ → Prop} {f : σ → α → Except ε σ} :
    ∀ {xs : List α} {s s' : σ},
      (∀ s s' x, x ∈ xs → P s → f s x = Except.ok s' → P s') →
      P s → xs.foldlM f s = Except.ok s' → P s'
  | [], s, s', _, hs, h => by
      have hss : s = s' := by simpa [List.foldlM] using h
      exact hss ▸ hs
  | x :: xs, s, s', hstep, hs, h => by
      obtain ⟨s₁, h₁, h₂⟩ := bind_eq_ok.mp (by simpa only [List.foldlM] using h)
      exact foldlM_induct (fun a b y hy => hstep a b y (List.mem_cons_of_mem _ hy))
        (hstep s s₁ x (List.mem_cons_self ..) hs h₁) h₂

/-! ## Crashes that do not happen -/

/-- The computation does not end in a crash of the kind `bad`. -/
def Avoids (bad : ε → Prop) (x : Except ε α) : Prop := ∀ e, x = Except.error e → ¬ bad e

variable {bad : ε → Prop}

theorem Avoids.of_eq_ok {x : Except ε α} {a : α} (h : x = Except.ok a) : Avoids bad x := by
  intro e he
  rw [h] at he
  cases he

theorem Avoids.pure {a : α} : Avoids bad (pure a : Except ε α) := Avoids.of_eq_ok rfl

theorem Avoids.throw {e : ε} (h : ¬ bad e) : Avoids bad (throw e : Except ε α) := by
  intro e' he
  obtain rfl : e = e' := Except.error.inj he
  exact h

/-- A sequence of two steps crashes as its first step does, or as its second one does after it. -/
theorem Avoids.bind {x : Except ε α} {f : α → Except ε β} (hx : Avoids bad x)
    (hf : ∀ a, x = Except.ok a → Avoids bad (f a)) : Avoids bad (x >>= f) := by
  intro e he
  cases h : x with
  | error e' =>
      rw [h] at he
      obtain rfl : e' = e := Except.error.inj he
      exact hx e' h
  | ok a =>
      rw [h] at he
      exact hf a h e he

/-- A loop whose rounds keep an invariant crashes only as one of its rounds does. -/
theorem Avoids.foldlM {P : σ → Prop} {f : σ → α → Except ε σ} :
    ∀ {xs : List α} {s : σ}, (∀ s x, x ∈ xs → P s → Avoids bad (f s x)) →
      (∀ s s' x, x ∈ xs → P s → f s x = Except.ok s' → P s') → P s → Avoids bad (xs.foldlM f s)
  | [], _, _, _, _ => Avoids.pure
  | x :: xs, s, hround, hstep, hs => by
      rw [List.foldlM_cons]
      refine Avoids.bind (hround s x (List.mem_cons_self ..) hs) fun s₁ h₁ => ?_
      exact Avoids.foldlM (fun t y hy => hround t y (List.mem_cons_of_mem _ hy))
        (fun t t' y hy => hstep t t' y (List.mem_cons_of_mem _ hy))
        (hstep s s₁ x (List.mem_cons_self ..) hs h₁)

/-! ## Postconditions -/

/-- If the computation returns, then something that meets `P`. -/
def Ensures (P : α → Prop) (x : Except ε α) : Prop := ∀ a, x = Except.ok a → P a

variable {P : α → Prop} {Q : β → Prop}

theorem Ensures.pure {a : α} (h : P a) : Ensures P (pure a : Except ε α) := by
  intro b hb
  exact pure_eq_ok.mp hb ▸ h

theorem Ensures.throw {e : ε} : Ensures P (throw e : Except ε α) := fun _ h => by cases h

/-- A sequence of two steps: what the first one ensures is what the second one starts from. -/
theorem Ensures.bind {x : Except ε β} {f : β → Except ε α} (hx : Ensures Q x)
    (hf : ∀ b, Q b → Ensures P (f b)) : Ensures P (x >>= f) := by
  intro a ha
  obtain ⟨b, hb, ha⟩ := bind_eq_ok.mp ha
  exact hf b (hx b hb) a ha

/-- The second step is only looked at where the first one returns. -/
theorem Ensures.eval {x : Except ε β} {f : β → Except ε α}
    (hf : ∀ b, x = Except.ok b → Ensures P (f b)) : Ensures P (x >>= f) := by
  intro a ha
  obtain ⟨b, hb, ha⟩ := bind_eq_ok.mp ha
  exact hf b hb a ha

theorem Ensures.foldlM {P : σ → Prop} {f : σ → α → Except ε σ} {xs : List α} {s : σ} (hs : P s)
    (hround : ∀ s x, x ∈ xs → P s → Ensures P (f s x)) : Ensures P (xs.foldlM f s) :=
  fun _ h => foldlM_induct (fun s s' x hx hs h => hround s x hx hs s' h) hs h

end Outcome

end RaftKv
