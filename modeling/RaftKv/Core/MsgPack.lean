import Mathlib.Algebra.Order.Ring.Nat
import Mathlib.Data.List.Basic
import Mathlib.Tactic.Ring

/-!
# Packed values

A binary format for nested values: numbers, byte strings and arrays, each behind a tag byte that
says how wide its length is.  Writer and reader of a type form a `Format`, which carries the proof
that the reader takes back what the writer wrote and stops where it stopped.

* `Header` — a number stored in its tag byte or big-endian behind a tag.
* `Format.nat`, `Format.blob`, `Format.list`, `Format.seq`, `Format.record`, `Format.map`,
  `Format.mapWhere` — **formats and the ways to build them**; none needs a new round-trip proof.
* `Codec` — what a user of the format sees: whole buffers, and two ways of being refused.
-/

namespace RaftKv

/-! ## Big-endian numbers -/

/-- The low `k` bytes of a number, the most significant one first. -/
def bigEndian : Nat → Nat → List UInt8
  | 0, _ => []
  | k + 1, n => UInt8.ofNat (n / 256 ^ k) :: bigEndian k n

/-- Read `k` bytes behind those already read into `acc`. -/
def readBigEndian : Nat → Nat → List UInt8 → Option (Nat × List UInt8)
  | 0, acc, bs => some (acc, bs)
  | _ + 1, _, [] => none
  | k + 1, acc, b :: bs => readBigEndian k (acc * 256 + b.toNat) bs

lemma readBigEndian_bigEndian (k acc n : Nat) (rest : List UInt8) :
    readBigEndian k acc (bigEndian k n ++ rest) = some (acc * 256 ^ k + n % 256 ^ k, rest) := by
  induction k generalizing acc with
  | zero => simp [bigEndian, readBigEndian, Nat.mod_one]
  | succ k ih =>
      have hbyte : (UInt8.ofNat (n / 256 ^ k)).toNat = n / 256 ^ k % 256 := UInt8.toNat_ofNat'
      rw [bigEndian, List.cons_append, readBigEndian, ih, hbyte, Nat.mod_pow_succ]
      congr 2
      ring

/-! ## Numbers behind a tag -/

/-- How a number is written: below `limit` it is added to the tag byte `base`, otherwise it
follows, big-endian, the first of the `wide` tags whose width is large enough. -/
structure Header where
  base : Nat
  limit : Nat
  wide : List (UInt8 × Nat)
  inByte : base + limit ≤ 256 := by decide
  apart : ∀ w ∈ wide, w.1.toNat < base ∨ base + limit ≤ w.1.toNat := by decide
  nodup : (wide.map Prod.fst).Nodup := by decide

namespace Header

def packWide : List (UInt8 × Nat) → Nat → List UInt8
  | [], _ => []
  | w :: ws, n => if n < 256 ^ w.2 then w.1 :: bigEndian w.2 n else packWide ws n

def readWide (tag : UInt8) (bs : List UInt8) : List (UInt8 × Nat) → Option (Nat × List UInt8)
  | [] => none
  | w :: ws => if tag = w.1 then readBigEndian w.2 0 bs else readWide tag bs ws

def pack (h : Header) (n : Nat) : List UInt8 :=
  if n < h.limit then [UInt8.ofNat (h.base + n)] else packWide h.wide n

def read (h : Header) : List UInt8 → Option (Nat × List UInt8)
  | [] => none
  | tag :: bs =>
      if h.base ≤ tag.toNat ∧ tag.toNat < h.base + h.limit then some (tag.toNat - h.base, bs)
      else readWide tag bs h.wide

/-- The number has a representation. -/
def Fits (h : Header) (n : Nat) : Prop := n < h.limit ∨ ∃ w ∈ h.wide, n < 256 ^ w.2

lemma packWide_eq {ws : List (UInt8 × Nat)} {n : Nat} (hn : ∃ w ∈ ws, n < 256 ^ w.2) :
    ∃ w ∈ ws, n < 256 ^ w.2 ∧ packWide ws n = w.1 :: bigEndian w.2 n := by
  induction ws with
  | nil =>
      obtain ⟨w, hw, -⟩ := hn
      cases hw
  | cons w ws ih =>
      by_cases hlt : n < 256 ^ w.2
      · exact ⟨w, List.mem_cons_self .., hlt, by rw [packWide, if_pos hlt]⟩
      · have : ∃ w ∈ ws, n < 256 ^ w.2 := by
          obtain ⟨w', hw', hlt'⟩ := hn
          rcases List.mem_cons.mp hw' with rfl | hw'
          · exact absurd hlt' hlt
          · exact ⟨w', hw', hlt'⟩
        obtain ⟨w', hw', hlt', hpack⟩ := ih this
        exact ⟨w', List.mem_cons_of_mem _ hw', hlt', by rw [packWide, if_neg hlt, hpack]⟩

lemma readWide_eq {ws : List (UInt8 × Nat)} (hnodup : (ws.map Prod.fst).Nodup) {w : UInt8 × Nat}
    (hw : w ∈ ws) (bs : List UInt8) : readWide w.1 bs ws = readBigEndian w.2 0 bs := by
  induction ws with
  | nil => cases hw
  | cons w' ws ih =>
      rw [List.map_cons, List.nodup_cons] at hnodup
      rcases List.mem_cons.mp hw with rfl | hmem
      · rw [readWide, if_pos rfl]
      · have hne : w.1 ≠ w'.1 := fun heq =>
          hnodup.1 (heq ▸ List.mem_map_of_mem hmem)
        rw [readWide, if_neg hne, ih hnodup.2 hmem]

theorem read_pack (h : Header) {n : Nat} (hn : h.Fits n) (rest : List UInt8) :
    h.read (h.pack n ++ rest) = some (n, rest) := by
  by_cases hlt : n < h.limit
  · have hbyte : (UInt8.ofNat (h.base + n)).toNat = h.base + n := by
      rw [UInt8.toNat_ofNat']
      exact Nat.mod_eq_of_lt (by have := h.inByte; omega)
    rw [pack, if_pos hlt, List.singleton_append, read, hbyte,
      if_pos ⟨Nat.le_add_right .., by omega⟩, Nat.add_sub_cancel_left]
  · obtain ⟨w, hw, hfit, hpack⟩ := packWide_eq (hn.resolve_left hlt)
    have hout : ¬ (h.base ≤ w.1.toNat ∧ w.1.toNat < h.base + h.limit) := by
      have := h.apart w hw
      omega
    rw [pack, if_neg hlt, hpack, List.cons_append, read, if_neg hout, readWide_eq h.nodup hw,
      readBigEndian_bigEndian, Nat.mod_eq_of_lt hfit, Nat.zero_mul, Nat.zero_add]

/-- Unsigned numbers. -/
def uint : Header where
  base := 0
  limit := 0x80
  wide := [(0xcc, 1), (0xcd, 2), (0xce, 4), (0xcf, 8)]

/-- Lengths of character strings. -/
def str : Header where
  base := 0xa0
  limit := 32
  wide := [(0xd9, 1), (0xda, 2), (0xdb, 4)]

/-- Lengths of byte buffers. -/
def bin : Header where
  base := 0
  limit := 0
  wide := [(0xc4, 1), (0xc5, 2), (0xc6, 4)]

/-- Lengths of arrays. -/
def array : Header where
  base := 0x90
  limit := 16
  wide := [(0xdc, 2), (0xdd, 4)]

end Header

/-! ## Formats -/

/-- A writer and a reader of one type that agree on every value the format can hold. -/
structure Format (α : Type) where
  pack : α → List UInt8
  read : List UInt8 → Option (α × List UInt8)
  /-- The value is within the lengths the format can express. -/
  Fits : α → Prop
  read_pack : ∀ a rest, Fits a → read (pack a ++ rest) = some (a, rest)

namespace Format

variable {α β : Type}

def nat : Format Nat where
  pack := Header.uint.pack
  read := Header.uint.read
  Fits := Header.uint.Fits
  read_pack _ rest h := Header.uint.read_pack h rest

/-- Take `n` bytes, if there are as many. -/
def takeBytes (n : Nat) (bs : List UInt8) : Option (List UInt8 × List UInt8) :=
  if n ≤ bs.length then some (bs.take n, bs.drop n) else none

/-- A byte string behind its length. -/
def blob (h : Header) : Format (List UInt8) where
  pack s := h.pack s.length ++ s
  read bs := (h.read bs).bind fun r => takeBytes r.1 r.2
  Fits s := h.Fits s.length
  read_pack s rest hs := by
    rw [List.append_assoc, h.read_pack hs]
    simp [takeBytes]

/-- Read `n` values one after the other. -/
def readMany (f : Format α) : Nat → List UInt8 → Option (List α × List UInt8)
  | 0, bs => some ([], bs)
  | n + 1, bs => (f.read bs).bind fun r => (f.readMany n r.2).map fun rs => (r.1 :: rs.1, rs.2)

lemma readMany_flatMap (f : Format α) {as : List α} (has : ∀ a ∈ as, f.Fits a)
    (rest : List UInt8) : f.readMany as.length (as.flatMap f.pack ++ rest) = some (as, rest) := by
  induction as with
  | nil => rfl
  | cons a as ih =>
      obtain ⟨ha, has⟩ := List.forall_mem_cons.mp has
      rw [List.flatMap_cons, List.append_assoc, List.length_cons, readMany, f.read_pack _ _ ha,
        Option.bind_some, ih has]
      rfl

/-- An array of values of one format. -/
def list (f : Format α) : Format (List α) where
  pack as := Header.array.pack as.length ++ as.flatMap f.pack
  read bs := (Header.array.read bs).bind fun r => f.readMany r.1 r.2
  Fits as := Header.array.Fits as.length ∧ ∀ a ∈ as, f.Fits a
  read_pack as rest h := by
    rw [List.append_assoc, Header.array.read_pack h.1, Option.bind_some, f.readMany_flatMap h.2]

/-- Two values, one behind the other. -/
def seq (f : Format α) (g : Format β) : Format (α × β) where
  pack p := f.pack p.1 ++ g.pack p.2
  read bs := (f.read bs).bind fun r => (g.read r.2).map fun s => ((r.1, s.1), s.2)
  Fits p := f.Fits p.1 ∧ g.Fits p.2
  read_pack p rest h := by
    rw [List.append_assoc, f.read_pack _ _ h.1, Option.bind_some, g.read_pack _ _ h.2]
    rfl

/-- The fields of a record of `n` fields, as an array. -/
def record (n : Nat) (f : Format α) : Format α where
  pack a := Header.array.pack n ++ f.pack a
  read bs := (Header.array.read bs).bind fun r => if r.1 = n then f.read r.2 else none
  Fits a := Header.array.Fits n ∧ f.Fits a
  read_pack a rest h := by
    rw [List.append_assoc, Header.array.read_pack h.1, Option.bind_some, if_pos rfl,
      f.read_pack _ _ h.2]

/-- A type written as another one. -/
def map (f : Format α) (into : α → β) (out : β → α) (h : ∀ b, into (out b) = b) : Format β where
  pack b := f.pack (out b)
  read bs := (f.read bs).map fun r => (into r.1, r.2)
  Fits b := f.Fits (out b)
  read_pack b rest hb := by
    rw [f.read_pack _ _ hb, Option.map_some, h]

/-- A type of which only some values come back from the other one. -/
def mapWhere (f : Format α) (into : α → β) (out : β → α) : Format β where
  pack b := f.pack (out b)
  read bs := (f.read bs).map fun r => (into r.1, r.2)
  Fits b := f.Fits (out b) ∧ into (out b) = b
  read_pack b rest hb := by
    rw [f.read_pack _ _ hb.1, Option.map_some, hb.2]

/-- A type of which only some values come from the other one. -/
def mapSome (f : Format α) (into : α → Option β) (out : β → α) : Format β where
  pack b := f.pack (out b)
  read bs := (f.read bs).bind fun r => (into r.1).map fun b => (b, r.2)
  Fits b := f.Fits (out b) ∧ into (out b) = some b
  read_pack b rest hb := by
    rw [f.read_pack _ _ hb.1, Option.bind_some, hb.2, Option.map_some]

/-- Read a truth value. -/
def readBool : List UInt8 → Option (Bool × List UInt8)
  | [] => none
  | b :: rest =>
      if b = 0xc3 then some (true, rest) else if b = 0xc2 then some (false, rest) else none

def bool : Format Bool where
  pack b := [if b then 0xc3 else 0xc2]
  read := readBool
  Fits _ := True
  read_pack b rest _ := by cases b <;> rfl

/-! ### Cut buffers

A reader that has found a value does not look at what follows it, so nothing short of the packed
form of a value is read as one. -/

/-- What follows a value does not change it. -/
def Stable (f : Format α) : Prop :=
  ∀ bs a rest more, f.read bs = some (a, rest) → f.read (bs ++ more) = some (a, rest ++ more)

lemma readBigEndian_stable {k acc n : Nat} {bs rest : List UInt8} (more : List UInt8)
    (h : readBigEndian k acc bs = some (n, rest)) :
    readBigEndian k acc (bs ++ more) = some (n, rest ++ more) := by
  induction k generalizing acc bs with
  | zero =>
      cases h
      rfl
  | succ k ih =>
      cases bs with
      | nil => cases h
      | cons b bs => exact ih h

lemma readWide_stable {tag : UInt8} {bs rest : List UInt8} {ws : List (UInt8 × Nat)} {n : Nat}
    (more : List UInt8) (h : Header.readWide tag bs ws = some (n, rest)) :
    Header.readWide tag (bs ++ more) ws = some (n, rest ++ more) := by
  induction ws with
  | nil => cases h
  | cons w ws ih =>
      rw [Header.readWide] at h ⊢
      split at h
      · rename_i htag
        rw [if_pos htag]
        exact readBigEndian_stable more h
      · rename_i htag
        rw [if_neg htag]
        exact ih h

lemma header_stable (h : Header) {bs rest : List UInt8} {n : Nat} (more : List UInt8)
    (hread : h.read bs = some (n, rest)) : h.read (bs ++ more) = some (n, rest ++ more) := by
  cases bs with
  | nil => cases hread
  | cons tag bs =>
      rw [Header.read] at hread
      rw [List.cons_append, Header.read]
      split at hread
      · rename_i htag
        cases hread
        rw [if_pos htag]
      · rename_i htag
        rw [if_neg htag]
        exact readWide_stable more hread

lemma takeBytes_stable {n : Nat} {bs out rest : List UInt8} (more : List UInt8)
    (h : takeBytes n bs = some (out, rest)) : takeBytes n (bs ++ more) = some (out, rest ++ more) := by
  rw [takeBytes] at h ⊢
  split at h
  · rename_i hle
    cases h
    rw [if_pos (by rw [List.length_append]; omega), List.take_append_of_le_length hle,
      List.drop_append_of_le_length hle]
  · cases h

lemma nat_stable : nat.Stable := fun _ _ _ more h => header_stable Header.uint more h

lemma blob_stable (h : Header) : (blob h).Stable := by
  intro bs a rest more hread
  obtain ⟨r, hr, htake⟩ := Option.bind_eq_some_iff.mp hread
  exact Option.bind_eq_some_iff.mpr ⟨(r.1, r.2 ++ more), header_stable h more hr,
    takeBytes_stable more htake⟩

lemma seq_stable {f : Format α} {g : Format β} (hf : f.Stable) (hg : g.Stable) :
    (seq f g).Stable := by
  intro bs a rest more hread
  obtain ⟨r, hr, hread⟩ := Option.bind_eq_some_iff.mp hread
  obtain ⟨s, hs, hout⟩ := Option.map_eq_some_iff.mp hread
  cases hout
  exact Option.bind_eq_some_iff.mpr ⟨(r.1, r.2 ++ more), hf _ _ _ more hr,
    Option.map_eq_some_iff.mpr ⟨(s.1, s.2 ++ more), hg _ _ _ more hs, rfl⟩⟩

lemma readMany_stable {f : Format α} (hf : f.Stable) {n : Nat} {bs rest : List UInt8}
    {as : List α} (more : List UInt8) (h : f.readMany n bs = some (as, rest)) :
    f.readMany n (bs ++ more) = some (as, rest ++ more) := by
  induction n generalizing bs as with
  | zero =>
      cases h
      rfl
  | succ n ih =>
      obtain ⟨r, hr, hread⟩ := Option.bind_eq_some_iff.mp h
      obtain ⟨s, hs, hout⟩ := Option.map_eq_some_iff.mp hread
      cases hout
      exact Option.bind_eq_some_iff.mpr ⟨(r.1, r.2 ++ more), hf _ _ _ more hr,
        Option.map_eq_some_iff.mpr ⟨(s.1, s.2 ++ more), ih hs, rfl⟩⟩

lemma list_stable {f : Format α} (hf : f.Stable) : (list f).Stable := by
  intro bs a rest more hread
  obtain ⟨r, hr, hread⟩ := Option.bind_eq_some_iff.mp hread
  exact Option.bind_eq_some_iff.mpr ⟨(r.1, r.2 ++ more), header_stable Header.array more hr,
    readMany_stable hf more hread⟩

lemma record_stable (n : Nat) {f : Format α} (hf : f.Stable) : (record n f).Stable := by
  intro bs a rest more hread
  obtain ⟨r, hr, hread⟩ := Option.bind_eq_some_iff.mp hread
  split at hread
  · rename_i hn
    refine Option.bind_eq_some_iff.mpr ⟨(r.1, r.2 ++ more), header_stable Header.array more hr, ?_⟩
    exact (if_pos hn).trans (hf _ _ _ more hread)
  · cases hread

lemma mapWhere_stable {f : Format α} (hf : f.Stable) (into : α → β) (out : β → α) :
    (f.mapWhere into out).Stable := by
  intro bs a rest more hread
  obtain ⟨r, hr, hout⟩ := Option.map_eq_some_iff.mp hread
  cases hout
  exact Option.map_eq_some_iff.mpr ⟨(r.1, r.2 ++ more), hf _ _ _ more hr, rfl⟩

/-- Nothing is read from less than the packed form of a value. -/
theorem read_take {f : Format α} (hf : f.Stable) {a : α} (ha : f.Fits a) {n : Nat}
    (hn : n < (f.pack a).length) : f.read ((f.pack a).take n) = none := by
  cases hread : f.read ((f.pack a).take n) with
  | none => rfl
  | some r =>
      have hwhole := hf _ _ _ ((f.pack a).drop n) hread
      have hpack := f.read_pack a [] ha
      rw [List.take_append_drop] at hwhole
      rw [List.append_nil, hwhole] at hpack
      have hnil := congrArg (fun o => o.map fun p : α × List UInt8 => p.2.length) hpack
      simp at hnil
      omega

end Format

/-! ## Whole buffers -/

/-- Why a buffer is refused. -/
inductive UnpackError (α : Type) where
  /-- The buffer is not a packed object. -/
  | malformed
  /-- It is one, but of another type; `stored` is what the conversion had stored before it failed. -/
  | typeError (stored : α)
  deriving DecidableEq, Repr

/-- The packer and the unpacker of a type. -/
structure Codec (α : Type) where
  pack : α → List UInt8
  unpack : List UInt8 → Except (UnpackError α) α

namespace Codec

variable {α : Type}

/-- The value comes back from its packed form. -/
def RoundTrips (c : Codec α) (a : α) : Prop := c.unpack (c.pack a) = Except.ok a

/-- The codec of a format. -/
def ofFormat (f : Format α) : Codec α where
  pack := f.pack
  unpack bs :=
    match f.read bs with
    | some (a, _) => Except.ok a
    | none => Except.error UnpackError.malformed

theorem roundTrips_ofFormat (f : Format α) {a : α} (h : f.Fits a) : (ofFormat f).RoundTrips a := by
  have := f.read_pack a [] h
  rw [List.append_nil] at this
  simp only [RoundTrips, ofFormat, this]

/-- The codec takes no strict prefix of the packed form of the value for a value. -/
def RefusesCut (c : Codec α) (a : α) : Prop :=
  ∀ n < (c.pack a).length, ∃ err, c.unpack ((c.pack a).take n) = Except.error err

theorem refusesCut_ofFormat {f : Format α} (hf : f.Stable) {a : α} (h : f.Fits a) :
    (ofFormat f).RefusesCut a := fun n hn =>
  ⟨UnpackError.malformed, by
    have := Format.read_take hf h hn
    simp only [ofFormat, this]⟩

end Codec

end RaftKv
