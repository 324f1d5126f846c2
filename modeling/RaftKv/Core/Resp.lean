import Mathlib.Data.List.Basic

/-!
# Values of a line protocol

Texts that end a line, strings behind their length and arrays behind their number of items, each
after a byte that says which of these it is.  Integers are left out.

* `Resp.decode`, `Resp.read` — a value at the front of some bytes, and bytes that are one value.
* `Resp.decode_more` — **more bytes do not change a value that is complete**.
* `Resp.line_eq_some`, `number_decimal` — lines and numbers.
* `Resp.read_error`, `read_bulkBytes`, `read_arrayBytes` — **what is written is read back**.
-/

namespace RaftKv

inductive Resp where
  | simple (text : List UInt8)
  | error (text : List UInt8)
  | bulk (data : List UInt8)
  | null
  | array (items : List Resp)

namespace Resp

/-- The end of a line. -/
def crlf : List UInt8 := [13, 10]

/-- No end of a line, nor a part of one, is among the bytes. -/
def Unbroken (text : List UInt8) : Prop := 13 ∉ text ∧ 10 ∉ text

instance (text : List UInt8) : Decidable (Unbroken text) := inferInstanceAs (Decidable (_ ∧ _))

/-! ## Reading -/

/-- The first line, and what follows it. -/
def line : List UInt8 → Option (List UInt8 × List UInt8)
  | [] => none
  | b :: bs =>
      if b = 13 then if bs.head? = some 10 then some ([], bs.tail) else none
      else if b = 10 then none
      else (line bs).map fun r => (b :: r.1, r.2)

/-- A number in digits, behind those that make `acc`. -/
def digits : Nat → List UInt8 → Option Nat
  | acc, [] => some acc
  | acc, b :: bs =>
      if 48 ≤ b.toNat ∧ b.toNat ≤ 57 then digits (acc * 10 + (b.toNat - 48)) bs else none

def number (text : List UInt8) : Option Nat := if text = [] then none else digits 0 text

/-- `n` bytes and the end of their line, and what follows. -/
def body (n : Nat) (bs : List UInt8) : Option (List UInt8 × List UInt8) :=
  if (bs.drop n).take 2 = crlf then some (bs.take n, bs.drop (n + 2)) else none

/-- `n` values, and what follows them. -/
def items (read : List UInt8 → Option (Resp × List UInt8)) :
    Nat → List UInt8 → Option (List Resp × List UInt8)
  | 0, bs => some ([], bs)
  | n + 1, bs =>
      (read bs).bind fun r => (items read n r.2).map fun rs => (r.1 :: rs.1, rs.2)

/-- A bulk string, or what stands for none. -/
def decodeBulk (bs : List UInt8) : Option (Resp × List UInt8) :=
  (line bs).bind fun r =>
    if r.1 = [45, 49] then some (null, r.2)
    else (number r.1).bind fun n => (body n r.2).map fun d => (bulk d.1, d.2)

def decodeArray (read : List UInt8 → Option (Resp × List UInt8)) (bs : List UInt8) :
    Option (Resp × List UInt8) :=
  (line bs).bind fun r =>
    (number r.1).bind fun n => (items read n r.2).map fun rs => (array rs.1, rs.2)

/-- The value at the front, of at most this depth, and what follows it. -/
def decode : Nat → List UInt8 → Option (Resp × List UInt8)
  | 0, _ => none
  | _ + 1, [] => none
  | depth + 1, b :: bs =>
      if b = 43 then (line bs).map fun r => (simple r.1, r.2)
      else if b = 45 then (line bs).map fun r => (error r.1, r.2)
      else if b = 36 then decodeBulk bs
      else if b = 42 then decodeArray (decode depth) bs
      else none

/-- The bytes are one value, with nothing left over. -/
def read (bs : List UInt8) : Option Resp :=
  (decode (bs.length + 1) bs).bind fun r => if r.2 = [] then some r.1 else none

/-! ## Writing -/

def decimal (n : Nat) : List UInt8 := (Nat.toDigits 10 n).map fun c => UInt8.ofNat c.toNat

def bulkBytes (data : List UInt8) : List UInt8 :=
  36 :: decimal data.length ++ crlf ++ data ++ crlf

/-- An array of strings. -/
def arrayBytes (strs : List (List UInt8)) : List UInt8 :=
  42 :: decimal strs.length ++ crlf ++ strs.flatMap bulkBytes

variable {bs more text rest : List UInt8} {n depth : Nat} {v : Resp}

/-! ## Lines -/

lemma line_append (h : Unbroken text) : line (text ++ crlf ++ rest) = some (text, rest) := by
  induction text with
  | nil => rfl
  | cons b text ih =>
      obtain ⟨hcr, hlf⟩ := h
      rw [List.mem_cons, not_or] at hcr hlf
      rw [List.cons_append, List.cons_append, line, if_neg (Ne.symm hcr.1), if_neg (Ne.symm hlf.1),
        ih ⟨hcr.2, hlf.2⟩]
      rfl

/-- **What a line is.** -/
theorem line_eq_some : line bs = some (text, rest) ↔ bs = text ++ crlf ++ rest ∧ Unbroken text := by
  refine ⟨fun h => ?_, fun ⟨hbs, htext⟩ => hbs ▸ line_append htext⟩
  induction bs generalizing text with
  | nil => cases h
  | cons b bs ih =>
      rw [line] at h
      split_ifs at h with hcr hhead hlf
      · obtain ⟨rfl, rfl⟩ := Prod.mk.inj (Option.some.inj h)
        obtain ⟨bs', rfl⟩ := List.head?_eq_some_iff.mp hhead
        rw [hcr]
        exact ⟨rfl, List.not_mem_nil, List.not_mem_nil⟩
      · obtain ⟨⟨text', rest'⟩, hline, hr⟩ := Option.map_eq_some_iff.mp h
        obtain ⟨rfl, rfl⟩ := Prod.mk.inj hr
        obtain ⟨rfl, hcr', hlf'⟩ := ih hline
        refine ⟨rfl, ?_, ?_⟩
        · rw [List.mem_cons, not_or]
          exact ⟨Ne.symm hcr, hcr'⟩
        · rw [List.mem_cons, not_or]
          exact ⟨Ne.symm hlf, hlf'⟩

/-! ## Numbers -/

lemma digits_chars (acc : Nat) {cs : List Char} (h : ∀ c ∈ cs, c.isDigit) :
    digits acc (cs.map fun c => UInt8.ofNat c.toNat) = some (Nat.ofDigitChars 10 cs acc) := by
  induction cs generalizing acc with
  | nil => rfl
  | cons c cs ih =>
      obtain ⟨hlow, hhigh⟩ : 48 ≤ c.toNat ∧ c.toNat ≤ 57 := by
        have hc := h c (List.mem_cons_self ..)
        rw [Char.isDigit, Bool.and_eq_true, decide_eq_true_eq, decide_eq_true_eq] at hc
        exact hc
      have hbyte : (UInt8.ofNat c.toNat).toNat = c.toNat := by
        rw [UInt8.toNat_ofNat']
        omega
      rw [List.map_cons, digits, hbyte, if_pos ⟨hlow, hhigh⟩,
        ih _ fun c hc => h c (List.mem_cons_of_mem _ hc), Nat.ofDigitChars_cons, Nat.mul_comm acc]
      rfl

lemma digits_decimal (n : Nat) : digits 0 (decimal n) = some n := by
  rw [decimal, digits_chars 0 fun c hc => Nat.isDigit_of_mem_toDigits (by decide) (by decide) hc,
    Nat.ofDigitChars_ten_toDigits]

lemma mem_decimal {b : UInt8} (h : b ∈ decimal n) : 48 ≤ b.toNat ∧ b.toNat ≤ 57 := by
  obtain ⟨c, hc, rfl⟩ := List.mem_map.mp h
  have hdigit := Nat.isDigit_of_mem_toDigits (by decide) (by decide) hc
  rw [Char.isDigit, Bool.and_eq_true, decide_eq_true_eq, decide_eq_true_eq] at hdigit
  have hlow : 48 ≤ c.toNat := hdigit.1
  have hhigh : c.toNat ≤ 57 := hdigit.2
  rw [UInt8.toNat_ofNat']
  omega

lemma decimal_unbroken (n : Nat) : Unbroken (decimal n) := by
  constructor
  · intro h
    exact absurd (mem_decimal h).1 (by decide)
  · intro h
    exact absurd (mem_decimal h).1 (by decide)

lemma decimal_ne_nil (n : Nat) : decimal n ≠ [] := by
  rw [decimal, Ne, List.map_eq_nil_iff]
  exact Nat.toDigits_ne_nil

/-- **A number that was written is read.** -/
theorem number_decimal (n : Nat) : number (decimal n) = some n := by
  rw [number, if_neg (decimal_ne_nil n), digits_decimal]

lemma line_decimal (n : Nat) (rest : List UInt8) :
    line (decimal n ++ crlf ++ rest) = some (decimal n, rest) :=
  line_append (decimal_unbroken n)

/-! ## More bytes -/

lemma line_more (h : line bs = some (text, rest)) : line (bs ++ more) = some (text, rest ++ more) := by
  obtain ⟨rfl, htext⟩ := line_eq_some.mp h
  rw [List.append_assoc]
  exact line_append htext

lemma length_of_body {data : List UInt8} (h : body n bs = some (data, rest)) : n + 2 ≤ bs.length := by
  rw [body] at h
  split_ifs at h with hend
  have hlen := congrArg List.length hend
  rw [List.length_take, List.length_drop, crlf] at hlen
  simp only [List.length_cons, List.length_nil] at hlen
  omega

lemma body_more {data : List UInt8} (h : body n bs = some (data, rest)) :
    body n (bs ++ more) = some (data, rest ++ more) := by
  have hlen := length_of_body h
  rw [body] at h ⊢
  split_ifs at h with hend
  obtain ⟨rfl, rfl⟩ := Prod.mk.inj (Option.some.inj h)
  have htake : ((bs ++ more).drop n).take 2 = crlf := by
    rw [List.drop_append_of_le_length (by omega),
      List.take_append_of_le_length (by rw [List.length_drop]; omega), hend]
  rw [if_pos htake, List.take_append_of_le_length (by omega), List.drop_append_of_le_length hlen]

lemma decodeBulk_more (h : decodeBulk bs = some (v, rest)) :
    decodeBulk (bs ++ more) = some (v, rest ++ more) := by
  obtain ⟨⟨text, bs'⟩, hline, h⟩ := Option.bind_eq_some_iff.mp h
  rw [decodeBulk, line_more hline, Option.bind_some]
  split_ifs at h ⊢
  · obtain ⟨rfl, rfl⟩ := Prod.mk.inj (Option.some.inj h)
    rfl
  · obtain ⟨n, hn, h⟩ := Option.bind_eq_some_iff.mp h
    obtain ⟨⟨data, rest'⟩, hbody, hr⟩ := Option.map_eq_some_iff.mp h
    obtain ⟨rfl, rfl⟩ := Prod.mk.inj hr
    rw [hn, Option.bind_some, body_more hbody]
    rfl

lemma items_more {read : List UInt8 → Option (Resp × List UInt8)} {vs : List Resp}
    (hread : ∀ {bs v rest}, read bs = some (v, rest) → read (bs ++ more) = some (v, rest ++ more))
    (h : items read n bs = some (vs, rest)) :
    items read n (bs ++ more) = some (vs, rest ++ more) := by
  induction n generalizing bs vs with
  | zero =>
      obtain ⟨rfl, rfl⟩ := Prod.mk.inj (Option.some.inj h)
      rfl
  | succ n ih =>
      obtain ⟨⟨v, bs'⟩, hfirst, h⟩ := Option.bind_eq_some_iff.mp h
      obtain ⟨⟨vs', rest'⟩, hothers, hr⟩ := Option.map_eq_some_iff.mp h
      obtain ⟨rfl, rfl⟩ := Prod.mk.inj hr
      rw [items, hread hfirst, Option.bind_some, ih hothers]
      rfl

/-- **More bytes do not change a value that is complete.** -/
theorem decode_more (h : decode depth bs = some (v, rest)) :
    decode depth (bs ++ more) = some (v, rest ++ more) := by
  induction depth generalizing bs v rest with
  | zero => cases h
  | succ depth ih =>
      cases bs with
      | nil => cases h
      | cons b bs =>
          rw [List.cons_append, decode]
          rw [decode] at h
          split_ifs at h ⊢
          · obtain ⟨⟨text, rest'⟩, hline, hr⟩ := Option.map_eq_some_iff.mp h
            obtain ⟨rfl, rfl⟩ := Prod.mk.inj hr
            rw [line_more hline]
            rfl
          · obtain ⟨⟨text, rest'⟩, hline, hr⟩ := Option.map_eq_some_iff.mp h
            obtain ⟨rfl, rfl⟩ := Prod.mk.inj hr
            rw [line_more hline]
            rfl
          · exact decodeBulk_more h
          · obtain ⟨⟨text, bs'⟩, hline, h⟩ := Option.bind_eq_some_iff.mp h
            obtain ⟨n, hn, h⟩ := Option.bind_eq_some_iff.mp h
            obtain ⟨⟨vs, rest'⟩, hitems, hr⟩ := Option.map_eq_some_iff.mp h
            obtain ⟨rfl, rfl⟩ := Prod.mk.inj hr
            rw [decodeArray, line_more hline, Option.bind_some, hn, Option.bind_some,
              items_more ih hitems]
            rfl

/-! ## Bulk strings -/

lemma decimal_ne_null (n : Nat) : decimal n ≠ [45, 49] := by
  intro h
  have hmem : (45 : UInt8) ∈ decimal n := h ▸ List.mem_cons_self ..
  exact absurd (mem_decimal hmem).1 (by decide)

/-- Behind a length, as many bytes have to follow. -/
lemma decodeBulk_decimal (n : Nat) (bs : List UInt8) :
    decodeBulk (decimal n ++ crlf ++ bs) = (body n bs).map fun d => (bulk d.1, d.2) := by
  rw [decodeBulk, line_decimal, Option.bind_some, if_neg (decimal_ne_null n), number_decimal,
    Option.bind_some]

lemma body_append (data rest : List UInt8) :
    body data.length (data ++ (crlf ++ rest)) = some (data, rest) := by
  rw [body, List.drop_left, List.take_left]
  rw [show (crlf ++ rest).take 2 = crlf from rfl, if_pos rfl, ← List.drop_drop, List.drop_left]
  rfl

lemma decode_string (depth : Nat) (bs : List UInt8) :
    decode (depth + 1) (36 :: bs) = decodeBulk bs := rfl

lemma decode_bulkBytes (depth : Nat) (data rest : List UInt8) :
    decode (depth + 1) (bulkBytes data ++ rest) = some (bulk data, rest) := by
  have hbytes : bulkBytes data ++ rest =
      36 :: (decimal data.length ++ crlf ++ (data ++ (crlf ++ rest))) := by
    simp only [bulkBytes, List.cons_append, List.append_assoc]
  rw [hbytes, decode_string, decodeBulk_decimal, body_append]
  rfl

/-- Behind a number of items, as many values have to follow. -/
lemma decode_items (depth n : Nat) (bs : List UInt8) :
    decode (depth + 1) (42 :: (decimal n ++ crlf ++ bs)) =
      (items (decode depth) n bs).map fun rs => (array rs.1, rs.2) := by
  show decodeArray (decode depth) _ = _
  rw [decodeArray, line_decimal, Option.bind_some, number_decimal, Option.bind_some]

lemma items_bulkBytes (depth : Nat) (strs : List (List UInt8)) (rest : List UInt8) :
    items (decode (depth + 1)) strs.length (strs.flatMap bulkBytes ++ rest) =
      some (strs.map bulk, rest) := by
  induction strs with
  | nil => rfl
  | cons str strs ih =>
      rw [List.length_cons, items, List.flatMap_cons, List.append_assoc, decode_bulkBytes,
        Option.bind_some, ih]
      rfl

/-! ## Whole values -/

/-- A value is read from its own bytes. -/
lemma read_eq_some : read bs = some v ↔ decode (bs.length + 1) bs = some (v, []) := by
  constructor
  · intro h
    obtain ⟨⟨v', rest⟩, hdecode, h⟩ := Option.bind_eq_some_iff.mp h
    split_ifs at h with hrest
    rw [hdecode]
    have hrest : rest = [] := hrest
    have hv : v' = v := Option.some.inj h
    rw [hrest, hv]
  · intro h
    rw [read, h]
    rfl

/-- **A string that was written is read.** -/
theorem read_bulkBytes (data : List UInt8) : read (bulkBytes data) = some (bulk data) := by
  rw [read_eq_some]
  have h := decode_bulkBytes (bulkBytes data).length data []
  rwa [List.append_nil] at h

/-- **An array of strings that was written is read.** -/
theorem read_arrayBytes (strs : List (List UInt8)) :
    read (arrayBytes strs) = some (array (strs.map bulk)) := by
  rw [read_eq_some]
  have hbytes : arrayBytes strs =
      42 :: (decimal strs.length ++ crlf ++ (strs.flatMap bulkBytes ++ [])) := by
    rw [List.append_nil]
    rfl
  have hlen : ∃ depth, (arrayBytes strs).length = depth + 1 := ⟨_, rfl⟩
  obtain ⟨depth, hdepth⟩ := hlen
  rw [hdepth, hbytes, decode_items, items_bulkBytes]
  rfl

/-- **A line that was written as an error is read, and no other.** -/
theorem read_error : read (45 :: bs) = some v ↔
    ∃ text, bs = text ++ crlf ∧ Unbroken text ∧ v = error text := by
  rw [read_eq_some]
  show (line bs).map _ = _ ↔ _
  constructor
  · intro h
    obtain ⟨⟨text, rest⟩, hline, hr⟩ := Option.map_eq_some_iff.mp h
    obtain ⟨rfl, rfl⟩ := Prod.mk.inj hr
    obtain ⟨hbs, htext⟩ := line_eq_some.mp hline
    exact ⟨text, by rw [hbs, List.append_nil], htext, rfl⟩
  · rintro ⟨text, rfl, htext, rfl⟩
    have hline : line (text ++ crlf ++ []) = _ := line_append htext
    rw [List.append_nil] at hline
    rw [hline]
    rfl

/-- **Where the front of some bytes is a value, the whole begins with it.** -/
theorem decode_of_read_take {k : Nat} (h : read (bs.take k) = some v) :
    decode ((bs.take k).length + 1) bs = some (v, bs.drop k) := by
  have hmore : decode _ (bs.take k ++ bs.drop k) = _ := decode_more (read_eq_some.mp h)
  rwa [List.take_append_drop, List.nil_append] at hmore

end Resp

end RaftKv
