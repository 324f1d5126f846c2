import Mathlib.Data.Prod.Lex
import RaftKv.Server.Snapshotter
import RaftKv.Wal.Open

/-!
# The names of the logs

A log is named by its sequence number and by the index it starts behind.  `WAL::open` tells by the
names which logs there are, which of them a snapshot needs, and whether one is missing.

* `Wal.walName` — the name; `Wal.searchNameIndex` — the loop that looks for a position.
* `Wal.parseWalName_walName`, `Wal.walName_lt_iff` — **a name holds its two numbers, and the names are
  ordered as the pairs of them**.
* `Wal.searchIndex_reverse` — the position is where `openDir` starts.
* `Wal.selects_iff` — **when the names are judged rightly**: 0 is taken for no number at all, and the
  loop counts down from the length of the list less one.
-/

namespace RaftKv

namespace Wal

/-! ## Names and positions -/

def walName (seq index : Nat) : List Char :=
  hexFixed 16 seq ++ '-' :: (hexFixed 16 index ++ walExtension)

/-- The index in the name at a position. -/
def indexAt (names : List (List Char)) (i : Nat) : Outcome Nat :=
  match names[i]? with
  | none => throw (Crash.outOfRange "names[i]")
  | some name =>
      match parseWalName name with
      | none => throw (Crash.fatal s!"invalid wal name {String.ofList name}")
      | some (_, curIndex) => pure curIndex

/-- The loop of `search_index`, from a position downwards.  The position that is written when there is
none is -1. -/
def searchDown (names : List (List Char)) (index : Nat) : Nat → Outcome (Bool × Nat)
  | 0 => do
      let curIndex ← indexAt names 0
      if index ≥ curIndex then return (true, 0) else return (false, 2 ^ 64 - 1)
  | i + 1 => do
      let curIndex ← indexAt names (i + 1)
      if index ≥ curIndex then return (true, i + 1) else searchDown names index i

/-- `search_index`: whether there is such a name, and its position.  Of an empty list, the first
position to be read is the greatest number of 64 bits. -/
def searchNameIndex (names : List (List Char)) (index : Nat) : Outcome (Bool × Nat) :=
  match names.length with
  | 0 => throw (Crash.outOfRange "names[i]")
  | n + 1 => searchDown names index n

/-! ## Reading a name back -/

lemma hexChar_spec : ∀ {d : Nat}, d < 16 → hexDigit (hexChar d) = some d ∧
    (hexChar d).isWhitespace = false ∧ hexChar d ≠ '+' ∧ hexChar d ≠ '-' ∧ hexChar d ≠ 'x' ∧
      hexChar d ≠ 'X' := by
  have hall : ∀ d : Fin 16, hexDigit (hexChar d.val) = some d.val ∧
      (hexChar d.val).isWhitespace = false ∧ hexChar d.val ≠ '+' ∧ hexChar d.val ≠ '-' ∧
        hexChar d.val ≠ 'x' ∧ hexChar d.val ≠ 'X' := by decide
  intro d hd
  exact hall ⟨d, hd⟩

lemma dash_notMem_hexFixed (k n : Nat) : '-' ∉ hexFixed k n := by
  induction k with
  | zero => exact List.not_mem_nil
  | succ k ih =>
      rw [hexFixed, List.mem_cons, not_or]
      exact ⟨(hexChar_spec (Nat.mod_lt _ (by decide))).2.2.2.1.symm, ih⟩

/-- The digits are read as they were written. -/
lemma hexPrefix_hexFixed (k n a : Nat) : hexPrefix a (hexFixed k n) = 16 ^ k * a + n % 16 ^ k := by
  induction k generalizing a with
  | zero => simp [hexFixed, hexPrefix, Nat.mod_one]
  | succ k ih =>
      rw [hexFixed, hexPrefix, (hexChar_spec (Nat.mod_lt _ (by decide))).1]
      dsimp only
      rw [ih, Nat.mod_pow_succ, Nat.pow_succ]
      ring

lemma readHex_hexFixed {n : Nat} (hn : n < 2 ^ 64) : readHex (hexFixed 16 n) = n := by
  have hsixteen : (2 : Nat) ^ 64 = 16 ^ 16 := by decide
  have hvalue : min (hexPrefix 0 (hexFixed 16 n)) (2 ^ 64 - 1) = n := by
    rw [hexPrefix_hexFixed, ← hsixteen, Nat.mod_eq_of_lt hn, Nat.mul_zero, Nat.zero_add]
    exact Nat.min_eq_left (Nat.le_sub_one_of_lt hn)
  obtain ⟨c, d, cs, hcs, hc, hd⟩ : ∃ c d cs, hexFixed 16 n = c :: d :: cs ∧
      (c.isWhitespace = false ∧ c ≠ '+' ∧ c ≠ '-') ∧ d ≠ 'x' ∧ d ≠ 'X' := by
    have hfirst := hexChar_spec (d := n / 16 ^ 15 % 16) (Nat.mod_lt _ (by decide))
    have hsecond := hexChar_spec (d := n / 16 ^ 14 % 16) (Nat.mod_lt _ (by decide))
    exact ⟨_, _, _, rfl, ⟨hfirst.2.1, hfirst.2.2.1, hfirst.2.2.2.1⟩, hsecond.2.2.2.2⟩
  rw [hcs] at hvalue ⊢
  have hblank : (c :: d :: cs).dropWhile Char.isWhitespace = c :: d :: cs :=
    List.dropWhile_cons_of_neg (by simp [hc.1])
  have hbase : ¬ (['0', 'x'] <+: c :: d :: cs ∨ ['0', 'X'] <+: c :: d :: cs) := by
    simp [List.cons_prefix_cons, hd.1.symm, hd.2.symm]
  rw [readHex, hblank]
  dsimp only
  split
  · rename_i heq
    exact absurd (List.cons.inj heq).1 hc.2.1
  · rename_i heq
    exact absurd (List.cons.inj heq).1 hc.2.2
  · rw [if_neg hbase]
    exact hvalue

/-- **A name holds its two numbers.** -/
theorem parseWalName_walName {seq index : Nat} (hseq : seq < 2 ^ 64) (hindex : index < 2 ^ 64) :
    parseWalName (walName seq index) = some (seq, index) := by
  have hfile : (walName seq index).take ((walName seq index).length - 4) =
      hexFixed 16 seq ++ '-' :: hexFixed 16 index := by
    have hname : walName seq index =
        (hexFixed 16 seq ++ '-' :: hexFixed 16 index) ++ walExtension := by simp [walName]
    rw [hname, List.length_append]
    exact List.take_left
  have hdigits : ∀ c ∈ hexFixed 16 seq, decide (c ≠ '-') = true := fun c hc =>
    decide_eq_true fun heq => dash_notMem_hexFixed 16 seq (heq ▸ hc)
  have hsuffix : walExtension <:+ walName seq index :=
    ⟨hexFixed 16 seq ++ '-' :: hexFixed 16 index, by simp [walName]⟩
  rw [parseWalName, if_neg (not_not.mpr hsuffix), hfile]
  dsimp only
  rw [List.dropWhile_append_of_pos hdigits, List.takeWhile_append_of_pos hdigits,
    List.dropWhile_cons_of_neg (by simp), List.takeWhile_cons_of_neg (by simp), List.append_nil,
    List.tail_cons, readHex_hexFixed hseq, readHex_hexFixed hindex, if_neg (by simp), if_neg]
  intro hempty
  have hlength := congrArg List.length hempty
  rw [List.length_cons, length_hexFixed] at hlength
  cases hlength

/-- The index at a position of a list of names. -/
lemma indexAt_names {ps : List (Nat × Nat)} (hps : ∀ p ∈ ps, p.1 < 2 ^ 64 ∧ p.2 < 2 ^ 64) {i : Nat}
    {p : Nat × Nat} (hi : ps[i]? = some p) :
    indexAt (ps.map fun p => walName p.1 p.2) i = Except.ok p.2 := by
  obtain ⟨hseq, hindex⟩ := hps p (List.mem_of_getElem? hi)
  rw [indexAt, List.getElem?_map, hi]
  dsimp only [Option.map_some]
  rw [parseWalName_walName hseq hindex]
  rfl

/-! ## The order of the names -/

/-- **The names are ordered as the pairs of sequence number and index.** -/
theorem walName_lt_iff {p q : Nat × Nat} (hp : p.1 < 2 ^ 64 ∧ p.2 < 2 ^ 64)
    (hq : q.1 < 2 ^ 64 ∧ q.2 < 2 ^ 64) :
    walName p.1 p.2 < walName q.1 q.2 ↔ toLex p < toLex q := by
  rw [Prod.Lex.toLex_lt_toLex]
  exact hexNames_lt_iff walExtension hp.1 hp.2 hq.1 hq.2

/-! ## The position that is looked for -/

/-- The last position whose index is at most `index`. -/
structure LastAtMost (ps : List (Nat × Nat)) (index i : Nat) : Prop where
  atMost : ∃ p, ps[i]? = some p ∧ p.2 ≤ index
  last : ∀ j p, i < j → ps[j]? = some p → index < p.2

/-- The loop finds the last such position up to the one it starts from. -/
lemma searchDown_names {ps : List (Nat × Nat)} (hps : ∀ p ∈ ps, p.1 < 2 ^ 64 ∧ p.2 < 2 ^ 64)
    (index : Nat) : ∀ i < ps.length,
    (∃ j ≤ i, searchDown (ps.map fun p => walName p.1 p.2) index i = Except.ok (true, j) ∧
      (∃ p, ps[j]? = some p ∧ p.2 ≤ index) ∧
        ∀ k p, j < k → k ≤ i → ps[k]? = some p → index < p.2) ∨
    searchDown (ps.map fun p => walName p.1 p.2) index i = Except.ok (false, 2 ^ 64 - 1) ∧
      ∀ k p, k ≤ i → ps[k]? = some p → index < p.2 := by
  intro i
  induction i with
  | zero =>
      intro hi
      have hp := List.getElem?_eq_getElem hi
      rw [searchDown, indexAt_names hps hp, Outcome.ok_bind]
      by_cases hle : ps[0].2 ≤ index
      · rw [if_pos hle]
        refine Or.inl ⟨0, Nat.le_refl _, rfl, ⟨_, hp, hle⟩, fun k p hk hk' => ?_⟩
        omega
      · rw [if_neg hle]
        refine Or.inr ⟨rfl, fun k p hk hkp => ?_⟩
        rw [Nat.le_zero.mp hk, hp] at hkp
        cases hkp
        exact Nat.not_le.mp hle
  | succ i ih =>
      intro hi
      have hp := List.getElem?_eq_getElem hi
      rw [searchDown, indexAt_names hps hp, Outcome.ok_bind]
      by_cases hle : ps[i + 1].2 ≤ index
      · rw [if_pos hle]
        refine Or.inl ⟨i + 1, Nat.le_refl _, rfl, ⟨_, hp, hle⟩, fun k p hk hk' => ?_⟩
        omega
      · rw [if_neg hle]
        -- the position itself is none, and the loop goes on below it
        have hlast : ∀ k p, i < k → k ≤ i + 1 → ps[k]? = some p → index < p.2 := by
          intro k p hk hk' hkp
          rw [Nat.le_antisymm hk' hk, hp] at hkp
          cases hkp
          exact Nat.not_le.mp hle
        rcases ih (Nat.lt_of_succ_lt hi) with ⟨j, hj, hfound, hatMost, hbehind⟩ | ⟨hnone, hall⟩
        · refine Or.inl ⟨j, Nat.le_succ_of_le hj, hfound, hatMost, fun k p hk hk' hkp => ?_⟩
          rcases Nat.lt_or_ge i k with hik | hik
          · exact hlast k p hik hk' hkp
          · exact hbehind k p hk hik hkp
        · refine Or.inr ⟨hnone, fun k p hk hkp => ?_⟩
          rcases Nat.lt_or_ge i k with hik | hik
          · exact hlast k p hik hk hkp
          · exact hall k p hik hkp

/-- Whether the position that is returned is the last one whose index is at most the given one. -/
structure Finds (ps : List (Nat × Nat)) (index : Nat) (result : Outcome (Bool × Nat)) : Prop where
  found : ∀ i, LastAtMost ps index i → result = Except.ok (true, i)
  missing : (∀ p ∈ ps, index < p.2) → result = Except.ok (false, 2 ^ 64 - 1)

/-- **The search is right, unless there are no names.** -/
theorem searchNameIndex_finds {ps : List (Nat × Nat)}
    (hps : ∀ p ∈ ps, p.1 < 2 ^ 64 ∧ p.2 < 2 ^ 64) (hne : ps ≠ []) (index : Nat) :
    Finds ps index (searchNameIndex (ps.map fun p => walName p.1 p.2) index) := by
  obtain ⟨n, hn⟩ := Nat.exists_eq_succ_of_ne_zero (List.length_pos_iff.mpr hne).ne'
  have hsearch : searchNameIndex (ps.map fun p => walName p.1 p.2) index =
      searchDown (ps.map fun p => walName p.1 p.2) index n := by
    rw [searchNameIndex, List.length_map, hn]
  have hbelow : ∀ {k p}, ps[k]? = some p → k ≤ n := by
    intro k p hk
    have := (List.getElem?_eq_some_iff.mp hk).1
    omega
  rw [hsearch]
  rcases searchDown_names hps index n (hn ▸ Nat.lt_succ_self n) with
    ⟨j, -, hfound, hatMost, hbehind⟩ | ⟨hnone, hall⟩
  · obtain ⟨q, hq, hqle⟩ := hatMost
    refine ⟨fun i hi => ?_, fun hmissing => ?_⟩
    · obtain ⟨p, hp, hple⟩ := hi.atMost
      rcases Nat.lt_trichotomy i j with hlt | rfl | hlt
      · exact absurd (hi.last j q hlt hq) hqle.not_gt
      · exact hfound
      · exact absurd (hbehind i p hlt (hbelow hp) hp) hple.not_gt
    · exact absurd (hmissing q (List.mem_of_getElem? hq)) hqle.not_gt
  · refine ⟨fun i hi => ?_, fun _ => hnone⟩
    obtain ⟨p, hp, hple⟩ := hi.atMost
    exact absurd (hall i p (hbelow hp) hp) hple.not_gt

/-- The search from a position on, with the names behind it. -/
lemma searchIndex_take (names : List (List Char)) (index : Nat) : ∀ i < names.length,
    searchIndex index (names.drop (i + 1)) (names.take (i + 1)).reverse = (do
      let result ← searchDown names index i
      if ¬ result.1 then throw (Crash.fatal "wal not found")
      return names.drop result.2) := by
  have hround : ∀ i (hi : i < names.length),
      searchIndex index (names.drop (i + 1)) (names.take (i + 1)).reverse = (do
        let curIndex ← indexAt names i
        if index ≥ curIndex then return names.drop i
        else searchIndex index (names.drop i) (names.take i).reverse) := by
    intro i hi
    rw [List.take_succ_eq_append_getElem hi, List.reverse_append, List.reverse_singleton,
      List.singleton_append, searchIndex, indexAt, List.getElem?_eq_getElem hi,
      List.drop_eq_getElem_cons hi]
    dsimp only
    cases parseWalName names[i] with
    | none => rfl
    | some p => rfl
  intro i
  induction i with
  | zero =>
      intro hi
      rw [hround 0 hi, searchDown, bind_assoc]
      refine bind_congr fun curIndex => ?_
      split
      · rfl
      · rfl
  | succ i ih =>
      intro hi
      rw [hround (i + 1) hi, searchDown, bind_assoc]
      refine bind_congr fun curIndex => ?_
      split
      · rfl
      · exact ih (Nat.lt_of_succ_lt hi)

/-- `openDir` goes on with the names from the position on. -/
theorem searchIndex_reverse {names : List (List Char)} (hne : names ≠ []) (index : Nat) :
    searchIndex index [] names.reverse = (do
      let result ← searchNameIndex names index
      if ¬ result.1 then throw (Crash.fatal "wal not found")
      return names.drop result.2) := by
  obtain ⟨n, hn⟩ := Nat.exists_eq_succ_of_ne_zero (List.length_pos_iff.mpr hne).ne'
  have hwhole := searchIndex_take names index n (hn ▸ Nat.lt_succ_self n)
  rw [List.drop_of_length_le hn.le, List.take_of_length_le hn.le] at hwhole
  rw [hwhole, searchNameIndex, hn]

/-! ## The order of the sequence numbers -/

/-- The sequence numbers rise one by one. -/
def Consecutive (ps : List (Nat × Nat)) : Prop := ps.IsChain fun p q => q.1 = p.1 + 1

/-- So far as `is_valid_seq` looks: a sequence number 0 is not compared with the next one. -/
def SeemConsecutive (ps : List (Nat × Nat)) : Prop :=
  ps.IsChain fun p q => p.1 ≠ 0 → q.1 = p.1 + 1

/-- A name of sequence number 0 is followed by one of 1 only. -/
def StartsWell (ps : List (Nat × Nat)) : Prop := ps.IsChain fun p q => p.1 = 0 → q.1 = 1

lemma consecutive_iff (ps : List (Nat × Nat)) :
    Consecutive ps ↔ SeemConsecutive ps ∧ StartsWell ps := by
  rw [Consecutive, SeemConsecutive, StartsWell]
  induction ps with
  | nil => simp
  | cons p ps ih =>
      cases ps with
      | nil => simp
      | cons q ps =>
          rw [List.isChain_cons_cons, List.isChain_cons_cons, List.isChain_cons_cons, ih]
          by_cases hzero : p.1 = 0
          · simp [hzero]
            tauto
          · simp [hzero]
            tauto

/-- The loop of `is_valid_seq` behind a first name. -/
lemma isValidSeq_names {ps : List (Nat × Nat)} : ∀ {p : Nat × Nat},
    (∀ q ∈ p :: ps, q.1 < 2 ^ 64 ∧ q.2 < 2 ^ 64) →
    ((p :: ps).map fun p => walName p.1 p.2).Pairwise (· ≤ ·) →
    ∃ valid, isValidSeq p.1 (ps.map fun p => walName p.1 p.2) = Except.ok valid ∧
      (valid = true ↔ SeemConsecutive (p :: ps)) := by
  induction ps with
  | nil =>
      intro p hps hsorted
      exact ⟨true, rfl, by simp [SeemConsecutive]⟩
  | cons q ps ih =>
      intro p hps hsorted
      have hp := hps p (List.mem_cons_self ..)
      have hq := hps q (List.mem_cons_of_mem _ (List.mem_cons_self ..))
      have hle : p.1 ≤ q.1 := by
        have hnames : walName p.1 p.2 ≤ walName q.1 q.2 :=
          (List.pairwise_cons.mp hsorted).1 _ (List.mem_map_of_mem (List.mem_cons_self ..))
        by_contra hlt
        refine absurd hnames (not_le.mpr ((walName_lt_iff hq hp).mpr ?_))
        exact Prod.Lex.toLex_lt_toLex.mpr (Or.inl (Nat.not_le.mp hlt))
      have hbreak : p.1 ≠ 0 ∧ p.1 ≠ (q.1 + 2 ^ 64 - 1) % 2 ^ 64 ↔ ¬ (p.1 ≠ 0 → q.1 = p.1 + 1) := by
        omega
      rw [List.map_cons, isValidSeq, parseWalName_walName hq.1 hq.2]
      dsimp only
      rw [SeemConsecutive, List.isChain_cons_cons]
      by_cases hnext : p.1 ≠ 0 → q.1 = p.1 + 1
      · rw [if_neg fun hb => hbreak.mp hb hnext]
        obtain ⟨valid, hvalid, hiff⟩ :=
          ih (fun x hx => hps x (List.mem_cons_of_mem _ hx)) (List.pairwise_cons.mp hsorted).2
        exact ⟨valid, hvalid, hiff.trans (and_iff_right hnext).symm⟩
      · rw [if_pos (hbreak.mpr hnext)]
        exact ⟨false, rfl, by simp [hnext]⟩

/-- What the names are asked is answered rightly. -/
structure Selects (ps : List (Nat × Nat)) : Prop where
  valid : ∃ valid, isValidSeq 0 (ps.map fun p => walName p.1 p.2) = Except.ok valid ∧
    (valid = true ↔ Consecutive ps)
  search : ∀ index, Finds ps index (searchNameIndex (ps.map fun p => walName p.1 p.2) index)

/-- What `is_valid_seq` returns. -/
lemma isValidSeq_seem {ps : List (Nat × Nat)} (hps : ∀ p ∈ ps, p.1 < 2 ^ 64 ∧ p.2 < 2 ^ 64)
    (hsorted : (ps.map fun p => walName p.1 p.2).Pairwise (· ≤ ·)) :
    ∃ valid, isValidSeq 0 (ps.map fun p => walName p.1 p.2) = Except.ok valid ∧
      (valid = true ↔ SeemConsecutive ps) := by
  cases ps with
  | nil => exact ⟨true, rfl, by simp [SeemConsecutive]⟩
  | cons p ps =>
      obtain ⟨valid, hvalid, hiff⟩ := isValidSeq_names hps hsorted
      obtain ⟨hseq, hindex⟩ := hps p (List.mem_cons_self ..)
      refine ⟨valid, ?_, hiff⟩
      rw [List.map_cons, isValidSeq, parseWalName_walName hseq hindex]
      exact hvalid

/-- **The selection of logs by their names**: a name holds its two numbers, and the names are ordered
as the pairs of them.  A sorted list of names is judged rightly exactly when it is not empty, and a
sequence number 0 is followed by 1 unless the numbers behind are broken anyway. -/
theorem selects_iff (p q : Nat × Nat) (ps : List (Nat × Nat)) (hp : p.1 < 2 ^ 64 ∧ p.2 < 2 ^ 64)
    (hq : q.1 < 2 ^ 64 ∧ q.2 < 2 ^ 64) (hps : ∀ p ∈ ps, p.1 < 2 ^ 64 ∧ p.2 < 2 ^ 64)
    (hsorted : (ps.map fun p => walName p.1 p.2).Pairwise (· ≤ ·)) :
    parseWalName (walName p.1 p.2) = some p ∧
    (walName p.1 p.2 < walName q.1 q.2 ↔ toLex p < toLex q) ∧
    (Selects ps ↔ ps ≠ [] ∧ (SeemConsecutive ps → StartsWell ps)) := by
  refine ⟨parseWalName_walName hp.1 hp.2, walName_lt_iff hp hq, ?_⟩
  obtain ⟨valid, hvalid, hseem⟩ := isValidSeq_seem hps hsorted
  constructor
  · intro h
    refine ⟨?_, fun hchain => ?_⟩
    · rintro rfl
      have := (h.search 0).missing (fun p hp => by cases hp)
      cases this
    · obtain ⟨valid', hvalid', hiff⟩ := h.valid
      rw [hvalid, Except.ok.injEq] at hvalid'
      rw [← hvalid'] at hiff
      exact ((consecutive_iff ps).mp (hiff.mp (hseem.mpr hchain))).2
  · rintro ⟨hne, hstarts⟩
    refine ⟨⟨valid, hvalid, hseem.trans ?_⟩, searchNameIndex_finds hps hne⟩
    rw [consecutive_iff]
    exact ⟨fun hchain => ⟨hchain, hstarts hchain⟩, fun h => h.1⟩

/-- A name, and three logs one behind the other. -/
theorem selects_three : parseWalName (walName 256 257) = some (256, 257) ∧
    walName 256 257 < walName 257 0 ∧ Selects [(0, 0), (1, 4096), (2, 8192)] := by
  obtain ⟨hparse, horder, hselects⟩ := selects_iff (256, 257) (257, 0)
    [(0, 0), (1, 4096), (2, 8192)] (by decide) (by decide) (by decide) (by decide)
  refine ⟨hparse, horder.mpr (by decide), hselects.mpr ⟨by decide, fun _ => ?_⟩⟩
  simp [StartsWell]

/-- Behind the log 0, the logs 1 to 4 are missing, and the list counts as whole.  Of an empty list, a
name is read all the same. -/
theorem gap_unnoticed :
    ([(0, 0), (5, 4096)].map fun p : Nat × Nat => walName p.1 p.2).Pairwise (· ≤ ·) ∧
    isValidSeq 0 ([(0, 0), (5, 4096)].map fun p : Nat × Nat => walName p.1 p.2) = Except.ok true ∧
    ¬ Selects [(0, 0), (5, 4096)] ∧
    searchNameIndex [] 0 = Except.error (Crash.outOfRange "names[i]") ∧ ¬ Selects [] := by
  have hvalid : isValidSeq 0 ([(0, 0), (5, 4096)].map fun p : Nat × Nat => walName p.1 p.2) =
      Except.ok true := by decide
  refine ⟨by decide, hvalid, fun h => ?_, rfl, fun h => ?_⟩
  · obtain ⟨valid, hvalid', hiff⟩ := h.valid
    rw [hvalid, Except.ok.injEq] at hvalid'
    have hchain := hiff.mp hvalid'.symm
    simp [Consecutive] at hchain
  · have := (h.search 0).missing (fun p hp => by cases hp)
    cases this

end Wal

end RaftKv
