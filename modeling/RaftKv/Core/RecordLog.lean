import Mathlib.Data.List.Basic
import Mathlib.Tactic.Lemma

/-!
# Logs of records

A stream that is read record by record, until it ends or the reader meets something that is no
record.  A record is recognised by its own elements, whatever follows it.

* `RecordReader.scan` — the records of a stream, how far they reach, and why the reader stopped.
* `RecordReader.scan_append` — **behind whole records, reading goes on** with what was appended.
* `RecordReader.scan_take` — what was read is whole records, so a stream that is cut there can be
  appended to.
* `RecordReader.scan_append_of_stop` — behind a stop that more elements do not lift, nothing is read.
* `RecordReader.scan_take_flatMap` — of what was written and torn, the whole records are read.
-/

namespace RaftKv

/-- What a reader finds in front of a stream. -/
inductive Found (ρ ω : Type) where
  | record (r : ρ) (size : Nat)
  | stop (why : ω)
  deriving DecidableEq, Repr

/-- A reader of records. -/
structure RecordReader (β ρ ω : Type) where
  next : List β → Found ρ ω
  size_pos : ∀ {bs r n}, next bs = Found.record r n → 0 < n
  size_le : ∀ {bs r n}, next bs = Found.record r n → n ≤ bs.length
  /-- Only the elements of a record decide that it is one. -/
  next_take : ∀ {bs r n}, next bs = Found.record r n →
    ∀ more, next (bs.take n ++ more) = Found.record r n

/-- The outcome of reading a stream: its records, how many elements they take up, and why the
reader stopped before the end, if it did. -/
structure Scan (ρ ω : Type) where
  records : List ρ := []
  size : Nat := 0
  stop : Option ω := none
  deriving DecidableEq, Repr

/-- What is read behind a stream that was read to its end. -/
def Scan.append {ρ ω : Type} (a b : Scan ρ ω) : Scan ρ ω :=
  { records := a.records ++ b.records, size := a.size + b.size, stop := b.stop }

namespace RecordReader

variable {β ρ ω : Type} (rd : RecordReader β ρ ω)

/-- Read at most `fuel` records. -/
def scanFuel : Nat → List β → Scan ρ ω
  | 0, _ => {}
  | _ + 1, [] => {}
  | fuel + 1, b :: bs =>
      match rd.next (b :: bs) with
      | Found.stop why => { stop := some why }
      | Found.record r n =>
          Scan.append { records := [r], size := n } (scanFuel fuel ((b :: bs).drop n))

/-- Read until the end or a stop. -/
def scan (bs : List β) : Scan ρ ω := rd.scanFuel bs.length bs

variable {bs : List β} {r : ρ} {n : Nat} {why : ω}

/-- Every record takes up an element, so more fuel than elements changes nothing. -/
lemma scanFuel_eq_scan (fuel : Nat) (bs : List β) (h : bs.length ≤ fuel) :
    rd.scanFuel fuel bs = rd.scan bs := by
  have key : ∀ fuel fuel' (bs : List β), bs.length ≤ fuel → bs.length ≤ fuel' →
      rd.scanFuel fuel bs = rd.scanFuel fuel' bs := by
    intro fuel
    induction fuel with
    | zero =>
        intro fuel' bs h _
        obtain rfl := List.length_eq_zero_iff.mp (Nat.le_zero.mp h)
        cases fuel' <;> rfl
    | succ fuel ih =>
        intro fuel' bs h h'
        cases bs with
        | nil => cases fuel' <;> rfl
        | cons b bs =>
            cases fuel' with
            | zero => cases h'
            | succ fuel' =>
                rw [scanFuel, scanFuel]
                cases hnext : rd.next (b :: bs) with
                | stop why => rfl
                | record r n =>
                    have hpos := rd.size_pos hnext
                    have hlen : ((b :: bs).drop n).length ≤ bs.length := by
                      rw [List.length_drop, List.length_cons]
                      omega
                    have hbs : bs.length ≤ fuel := Nat.le_of_succ_le_succ h
                    have hbs' : bs.length ≤ fuel' := Nat.le_of_succ_le_succ h'
                    dsimp only
                    rw [ih fuel' _ (Nat.le_trans hlen hbs) (Nat.le_trans hlen hbs')]
  exact key fuel bs.length bs h (Nat.le_refl _)

@[simp] lemma scan_nil : rd.scan [] = {} := rfl

lemma scan_stop (hne : bs ≠ []) (h : rd.next bs = Found.stop why) :
    rd.scan bs = { stop := some why } := by
  cases bs with
  | nil => exact absurd rfl hne
  | cons b bs => rw [scan, List.length_cons, scanFuel, h]

lemma scan_record (h : rd.next bs = Found.record r n) :
    rd.scan bs = Scan.append { records := [r], size := n } (rd.scan (bs.drop n)) := by
  have hpos := rd.size_pos h
  cases bs with
  | nil =>
      have := rd.size_le h
      rw [List.length_nil] at this
      omega
  | cons b bs =>
      rw [scan, List.length_cons, scanFuel, h]
      dsimp only
      rw [scanFuel_eq_scan]
      rw [List.length_drop, List.length_cons]
      omega

/-- Induction along the records of a stream. -/
theorem scan_induction {motive : List β → Prop} (nil : motive [])
    (stop : ∀ bs why, bs ≠ [] → rd.next bs = Found.stop why → motive bs)
    (record : ∀ bs r n, rd.next bs = Found.record r n → motive (bs.drop n) → motive bs)
    (bs : List β) : motive bs := by
  induction hlen : bs.length using Nat.strongRecOn generalizing bs with
  | ind len ih =>
      by_cases hne : bs = []
      · exact hne ▸ nil
      · cases hnext : rd.next bs with
        | stop why => exact stop bs why hne hnext
        | record r n =>
            have := rd.size_pos hnext
            have := rd.size_le hnext
            refine record bs r n hnext (ih _ ?_ _ rfl)
            rw [List.length_drop]
            omega

theorem scan_size_le (bs : List β) : (rd.scan bs).size ≤ bs.length := by
  induction bs using rd.scan_induction with
  | nil => exact Nat.le_refl _
  | stop bs why hne h => rw [rd.scan_stop hne h]; exact Nat.zero_le _
  | record bs r n h ih =>
      have := rd.size_le h
      rw [List.length_drop] at ih
      rw [rd.scan_record h]
      show n + _ ≤ _
      omega

/-- A stream that is read to its end is whole records. -/
theorem scan_size_eq (h : (rd.scan bs).stop = none) : (rd.scan bs).size = bs.length := by
  induction bs using rd.scan_induction with
  | nil => rfl
  | stop bs why hne hnext =>
      rw [rd.scan_stop hne hnext] at h
      cases h
  | record bs r n hnext ih =>
      have := rd.size_le hnext
      rw [rd.scan_record hnext] at h ⊢
      have := ih h
      rw [List.length_drop] at this
      show n + _ = _
      omega

/-- **Behind whole records, reading goes on** with what was appended. -/
theorem scan_append {a : List β} (h : (rd.scan a).stop = none) (b : List β) :
    rd.scan (a ++ b) = (rd.scan a).append (rd.scan b) := by
  induction a using rd.scan_induction with
  | nil => simp [Scan.append]
  | stop bs why hne hnext =>
      rw [rd.scan_stop hne hnext] at h
      cases h
  | record bs r n hnext ih =>
      have hnext' : rd.next (bs ++ b) = Found.record r n := by
        have := rd.next_take hnext (bs.drop n ++ b)
        rwa [← List.append_assoc, List.take_append_drop] at this
      rw [rd.scan_record hnext] at h ⊢
      rw [rd.scan_record hnext', List.drop_append_of_le_length (rd.size_le hnext), ih h]
      simp [Scan.append, Nat.add_assoc]

/-- **A stream that is cut behind its records** is whole records. -/
theorem scan_take (bs : List β) :
    rd.scan (bs.take (rd.scan bs).size) = { rd.scan bs with stop := none } := by
  induction bs using rd.scan_induction with
  | nil => rfl
  | stop bs why hne h => rw [rd.scan_stop hne h]; rfl
  | record bs r n h ih =>
      have hnext := rd.next_take h ((bs.drop n).take (rd.scan (bs.drop n)).size)
      have hlen : (bs.take n).length = n := by
        have := rd.size_le h
        rw [List.length_take]
        omega
      have hsplit : bs.take (n + (rd.scan (bs.drop n)).size) =
          bs.take n ++ (bs.drop n).take (rd.scan (bs.drop n)).size := List.take_add
      rw [rd.scan_record h]
      show rd.scan (bs.take (n + _)) = _
      rw [hsplit, rd.scan_record hnext, List.drop_left' hlen, ih]
      rfl

/-- What the reader met when it stopped. -/
theorem next_drop_size (h : (rd.scan bs).stop = some why) :
    rd.next (bs.drop (rd.scan bs).size) = Found.stop why ∧ bs.drop (rd.scan bs).size ≠ [] := by
  induction bs using rd.scan_induction with
  | nil => cases h
  | stop bs why' hne hnext =>
      rw [rd.scan_stop hne hnext] at h ⊢
      cases h
      exact ⟨hnext, hne⟩
  | record bs r n hnext ih =>
      rw [rd.scan_record hnext] at h ⊢
      have := ih h
      rwa [List.drop_drop] at this

/-- **Behind a stop that more elements do not lift**, nothing that is appended is read. -/
theorem scan_append_of_stop {a : List β} (h : (rd.scan a).stop = some why) {b : List β}
    (hstop : rd.next (a.drop (rd.scan a).size ++ b) = Found.stop why) :
    rd.scan (a ++ b) = rd.scan a := by
  have hsize := rd.scan_size_le a
  have hne : a.drop (rd.scan a).size ++ b ≠ [] := by
    simp [(rd.next_drop_size h).2]
  have hcut := rd.scan_take a
  have happ := rd.scan_append (a := a.take (rd.scan a).size) (by rw [hcut])
    (a.drop (rd.scan a).size ++ b)
  rw [← List.append_assoc, List.take_append_drop, hcut, rd.scan_stop hne hstop] at happ
  rw [happ, Scan.append, List.append_nil, Nat.add_zero, ← h]

/-! ## Writers -/

variable {rd} {put : ρ → List β} {Fits : ρ → Prop}

/-- **What is written is read back**, if every record is one that the reader recognises. -/
theorem scan_flatMap
    (hput : ∀ r, Fits r → ∀ more, rd.next (put r ++ more) = Found.record r (put r).length)
    {rs : List ρ} (hrs : ∀ r ∈ rs, Fits r) :
    rd.scan (rs.flatMap put) = { records := rs, size := (rs.flatMap put).length } := by
  induction rs with
  | nil => rfl
  | cons r rs ih =>
      obtain ⟨hr, hrs⟩ := List.forall_mem_cons.mp hrs
      have hnext := hput r hr (rs.flatMap put)
      rw [List.flatMap_cons, rd.scan_record hnext, List.drop_left, ih hrs]
      simp [Scan.append]

/-- The records that lie wholly in the first `n` elements of what is written. -/
def whole (put : ρ → List β) : Nat → List ρ → List ρ
  | _, [] => []
  | n, r :: rs => if (put r).length ≤ n then r :: whole put (n - (put r).length) rs else []

theorem whole_isPrefix (put : ρ → List β) (n : Nat) (rs : List ρ) : whole put n rs <+: rs := by
  induction rs generalizing n with
  | nil => exact List.prefix_refl _
  | cons r rs ih =>
      rw [whole]
      split
      · exact (List.prefix_cons_inj r).mpr (ih _)
      · exact List.nil_prefix

theorem whole_cons_of_le {put : ρ → List β} {n : Nat} {r : ρ} (h : (put r).length ≤ n)
    (rs : List ρ) : whole put n (r :: rs) = r :: whole put (n - (put r).length) rs := by
  rw [whole, if_pos h]

theorem whole_map {α : Type} (put : ρ → List β) (g : α → ρ) (n : Nat) (as : List α) :
    whole put n (as.map g) = (whole (fun a => put (g a)) n as).map g := by
  induction as generalizing n with
  | nil => rfl
  | cons a as ih =>
      rw [List.map_cons, whole, whole]
      split
      · rw [List.map_cons, ih]
      · rfl

/-- **What is torn is read up to the tear**: of the first `n` elements the reader makes the records
that lie wholly in them, and it stops as it does in front of a part of a record. -/
theorem scan_take_flatMap {Torn : ω → Prop}
    (hput : ∀ r, Fits r → ∀ more, rd.next (put r ++ more) = Found.record r (put r).length)
    (htorn : ∀ r, Fits r → ∀ m, m < (put r).length → (put r).take m ≠ [] →
      ∃ why, Torn why ∧ rd.next ((put r).take m) = Found.stop why)
    {rs : List ρ} (hrs : ∀ r ∈ rs, Fits r) (n : Nat) :
    (rd.scan ((rs.flatMap put).take n)).records = whole put n rs ∧
      (rd.scan ((rs.flatMap put).take n)).size = ((whole put n rs).flatMap put).length ∧
      (rs.flatMap put).take ((whole put n rs).flatMap put).length = (whole put n rs).flatMap put ∧
      ∀ why, (rd.scan ((rs.flatMap put).take n)).stop = some why → Torn why := by
  induction rs generalizing n with
  | nil =>
      rw [List.flatMap_nil, List.take_nil, scan_nil]
      exact ⟨rfl, rfl, rfl, fun _ h => by cases h⟩
  | cons r rs ih =>
      obtain ⟨hr, hrs⟩ := List.forall_mem_cons.mp hrs
      rw [List.flatMap_cons, whole]
      split
      · rename_i hle
        obtain ⟨hrecords, hsize, hkept, hstop⟩ := ih hrs (n - (put r).length)
        rw [List.take_append, List.take_of_length_le hle]
        rw [rd.scan_record (hput r hr _), List.drop_left]
        refine ⟨?_, ?_, ?_, hstop⟩
        · rw [Scan.append, hrecords]
          rfl
        · rw [Scan.append, hsize, List.flatMap_cons, List.length_append]
        · rw [List.flatMap_cons, List.length_append, List.take_length_add_append, hkept]
      · rename_i hlt
        have hlt := Nat.lt_of_not_le hlt
        rw [List.take_append_of_le_length (Nat.le_of_lt hlt)]
        by_cases hnil : (put r).take n = []
        · rw [hnil, scan_nil]
          exact ⟨rfl, rfl, rfl, fun _ h => by cases h⟩
        · obtain ⟨why, hwhy, hnext⟩ := htorn r hr n hlt hnil
          rw [rd.scan_stop hnil hnext]
          refine ⟨rfl, rfl, rfl, fun why' h => ?_⟩
          cases h
          exact hwhy

end RecordReader

end RaftKv
