import Mathlib.Data.List.TakeWhile
import RaftKv.Core.Resp
import RaftKv.Server.Commands

/-!
# What the replies say

The bytes that a session sends, read as a client reads them.

* `getReply_read`, `keysReply_read` — **when an answer from the store is the value**: `GET` loses what
  stands behind a zero byte, and `KEYS` the end of the line behind an empty key.
* `formatted_read` — **when an error is one line**: if its text fits the buffer and has no line breaks.
* `replies_binary_safe`, `replies_fit` — the same for the commands.
-/

namespace RaftKv

namespace Commands

open Resp (Unbroken crlf)

variable {strdupPrintf : StrdupPrintf} {κ : Type} {s : RedisStore κ} {reply : RedisReply}
  {text value : Bytes} {v : Resp}

/-- What `send_reply` puts into the buffer: its length is a 32-bit number. -/
def sendReply (data : Bytes) : Bytes := data.take (wrap32 data.length)

lemma sendReply_of_lt {data : Bytes} (h : data.length < 2 ^ 32) : sendReply data = data := by
  rw [sendReply, wrap32, Nat.mod_eq_of_lt h, List.take_length]

lemma decimal_eq (n : Nat) : decimal n = Resp.decimal n := by
  rw [decimal, ascii, Resp.decimal, show toString n = n.repr from rfl, Nat.toList_repr]

/-! ## Answers from the store -/

/-- What is sent of bytes that are read to their end is all of them. -/
lemma length_lt_of_read {data : Bytes} (h : Resp.read (sendReply data) = some v)
    (hwhole : ∀ depth rest, Resp.decode (depth + 1) data = some (v, rest) → rest = []) :
    data.length < 2 ^ 32 := by
  have hrest := hwhole _ _ (Resp.decode_of_read_take h)
  have hlen := congrArg List.length hrest
  rw [List.length_drop, List.length_nil, wrap32] at hlen
  have hmod := Nat.mod_lt data.length (Nat.two_pow_pos 32)
  omega

def getReply (value : Bytes) : Bytes := bulkText value.length value

lemma cStr_eq_self : cStr value = value ↔ 0 ∉ value := by
  rw [cStr, List.takeWhile_eq_self_iff]
  constructor
  · intro h hmem
    exact of_decide_eq_true (h 0 hmem) rfl
  · intro h b hb
    refine decide_eq_true ?_
    rintro rfl
    exact h hb

lemma getReply_eq (value : Bytes) : getReply value =
    36 :: (Resp.decimal value.length ++ crlf ++ (cStr value ++ crlf)) := by
  rw [getReply, bulkText, decimal_eq, List.append_assoc]
  rfl

/-- There is no zero byte in the answer: `strlen` finds its end. -/
lemma cStr_getReply (value : Bytes) : cStr (getReply value) = getReply value := by
  rw [cStr_eq_self, getReply_eq]
  simp only [List.mem_cons, List.mem_append, not_or]
  have hcrlf : (0 : UInt8) ∉ crlf := by decide
  refine ⟨by decide, ⟨fun hmem => ?_, hcrlf⟩, fun hmem => ?_, hcrlf⟩
  · exact absurd (Resp.mem_decimal hmem).1 (by decide)
  · have hne := List.mem_takeWhile_imp (p := fun b : UInt8 => decide (b ≠ 0)) hmem
    exact of_decide_eq_true hne rfl

/-- Behind the length of the value, as many bytes follow if there is no zero among them. -/
lemma decode_getReply {depth : Nat} {rest : Bytes}
    (h : Resp.decode (depth + 1) (getReply value) = some (v, rest)) : 0 ∉ value ∧ rest = [] := by
  rw [getReply_eq, Resp.decode_string, Resp.decodeBulk_decimal] at h
  obtain ⟨⟨data, rest'⟩, hbody, hr⟩ := Option.map_eq_some_iff.mp h
  have hlen := Resp.length_of_body hbody
  rw [List.length_append, show crlf.length = 2 from rfl] at hlen
  have hprefix : cStr value <+: value := List.takeWhile_prefix _
  have hself : cStr value = value := hprefix.eq_of_length_le (by omega)
  rw [hself] at hbody
  have happend := Resp.body_append value []
  rw [List.append_nil, hbody] at happend
  obtain ⟨rfl, rfl⟩ := Prod.mk.inj (Option.some.inj happend)
  exact ⟨cStr_eq_self.mp hself, (Prod.mk.inj hr).2.symm⟩

lemma getReply_of_not_mem (hzero : 0 ∉ value) : getReply value = Resp.bulkBytes value := by
  rw [getReply_eq, cStr_eq_self.mpr hzero, Resp.bulkBytes]
  simp only [List.cons_append, List.append_assoc]

/-- **What a client reads of the answer to `GET`.** -/
theorem getReply_read : Resp.read (sendReply (getReply value)) = some v ↔
    (0 ∉ value ∧ (Resp.bulkBytes value).length < 2 ^ 32) ∧ v = Resp.bulk value := by
  constructor
  · intro h
    obtain ⟨hzero, -⟩ := decode_getReply (Resp.decode_of_read_take h)
    have hlt := length_lt_of_read h fun depth rest hdecode => (decode_getReply hdecode).2
    rw [sendReply_of_lt hlt, getReply_of_not_mem hzero, Resp.read_bulkBytes] at h
    exact ⟨⟨hzero, getReply_of_not_mem hzero ▸ hlt⟩, (Option.some.inj h).symm⟩
  · rintro ⟨⟨hzero, hlt⟩, rfl⟩
    rw [getReply_of_not_mem hzero, sendReply_of_lt hlt, Resp.read_bulkBytes]

/-- **What `get_command` does with a value**: its answer, or the end of the process if the answer is
too long for `g_strdup_printf`. -/
lemma getCommand_eq (hformats : strdupPrintf.Formats) {command key : ReplyElement}
    (helement : reply.element = [command, key]) (hkey : key.type = ReplyType.string)
    (hvalue : s.get key.str = some value) : getCommand strdupPrintf s reply =
      if (getReply value).length < 2 ^ 31 then Except.ok (Reaction.reply (getReply value))
      else Except.error (Crash.nullDeref "strlen(str)") := by
  rw [getCommand, helement]
  dsimp only
  rw [if_neg (not_not.mpr hkey), hvalue]
  dsimp only
  split_ifs with hlt
  · rw [hformats.text _ _ hlt]
    show pure (Reaction.reply (cStr (getReply value))) = _
    rw [cStr_getReply]
    rfl
  · rw [hformats.null _ _ (Nat.le_of_not_lt hlt)]
    rfl

/-- **When the answer to `GET` is the value**: without zero bytes, and of less than `2 ^ 31` bytes. -/
theorem getCommand_read (hformats : strdupPrintf.Formats) {command key : ReplyElement}
    (helement : reply.element = [command, key]) (hkey : key.type = ReplyType.string)
    (hvalue : s.get key.str = some value) :
    (∃ data, getCommand strdupPrintf s reply = Except.ok (Reaction.reply data) ∧
      Resp.read (sendReply data) = some v) ↔
    (0 ∉ value ∧ (Resp.bulkBytes value).length < 2 ^ 31) ∧ v = Resp.bulk value := by
  rw [getCommand_eq hformats helement hkey hvalue]
  constructor
  · rintro ⟨data, hdata, hread⟩
    split_ifs at hdata with hlt
    cases hdata
    obtain ⟨⟨hzero, -⟩, hv⟩ := getReply_read.mp hread
    exact ⟨⟨hzero, getReply_of_not_mem hzero ▸ hlt⟩, hv⟩
  · rintro ⟨⟨hzero, hlt⟩, hv⟩
    refine ⟨_, if_pos (getReply_of_not_mem hzero ▸ hlt), getReply_read.mpr ⟨⟨hzero, ?_⟩, hv⟩⟩
    exact hlt.trans (by decide)

/-- One string of an answer to `KEYS`. -/
def keysItem (str : Bytes) : Bytes :=
  ascii "$" ++ decimal str.length ++ ascii "\r\n" ++ if str = [] then [] else str ++ ascii "\r\n"

lemma keysItem_eq (str : Bytes) : keysItem str =
    36 :: (Resp.decimal str.length ++ crlf ++ if str = [] then [] else str ++ crlf) := by
  rw [keysItem, decimal_eq]
  rfl

lemma keysItem_of_ne_nil {str : Bytes} (h : str ≠ []) : keysItem str = Resp.bulkBytes str := by
  rw [keysItem_eq, if_neg h, Resp.bulkBytes]
  simp only [List.cons_append, List.append_assoc]

lemma buildRedisStringArrayReply_eq (strs : List Bytes) : buildRedisStringArrayReply strs =
    42 :: (Resp.decimal strs.length ++ crlf ++ strs.flatMap keysItem) := by
  rw [buildRedisStringArrayReply, decimal_eq]
  rfl

/-- Behind the length of an empty string, the end of its line is missing. -/
lemma decode_keysItem_nil {depth : Nat} {strs : List Bytes} :
    Resp.decode (depth + 1) (keysItem [] ++ strs.flatMap keysItem) = none := by
  rw [keysItem_eq, if_pos rfl, List.append_nil, List.cons_append, Resp.decode_string,
    Resp.decodeBulk_decimal, Option.map_eq_none_iff, List.length_nil, Resp.body]
  refine if_neg ?_
  cases strs with
  | nil => decide
  | cons str strs =>
      rw [List.flatMap_cons, keysItem_eq]
      intro hend
      have hhead := congrArg List.head? hend
      cases hhead

/-- As many strings follow as are announced if none of them is empty. -/
lemma items_keysItem {depth : Nat} {strs : List Bytes} {vs : List Resp} {rest : Bytes}
    (h : Resp.items (Resp.decode (depth + 1)) strs.length (strs.flatMap keysItem) =
      some (vs, rest)) : [] ∉ strs ∧ rest = [] := by
  induction strs generalizing vs with
  | nil =>
      obtain ⟨-, rfl⟩ := Prod.mk.inj (Option.some.inj h)
      exact ⟨List.not_mem_nil, rfl⟩
  | cons str strs ih =>
      rw [List.length_cons, Resp.items, List.flatMap_cons] at h
      by_cases hstr : str = []
      · rw [hstr, decode_keysItem_nil] at h
        cases h
      · rw [keysItem_of_ne_nil hstr, Resp.decode_bulkBytes, Option.bind_some] at h
        obtain ⟨⟨vs', rest'⟩, hitems, hr⟩ := Option.map_eq_some_iff.mp h
        obtain ⟨-, rfl⟩ := Prod.mk.inj hr
        obtain ⟨hempty, hrest⟩ := ih hitems
        rw [List.mem_cons, not_or]
        exact ⟨⟨Ne.symm hstr, hempty⟩, hrest⟩

lemma decode_keysReply {depth : Nat} {strs : List Bytes} {rest : Bytes}
    (h : Resp.decode (depth + 1) (buildRedisStringArrayReply strs) = some (v, rest)) :
    [] ∉ strs ∧ rest = [] := by
  rw [buildRedisStringArrayReply_eq, Resp.decode_items] at h
  obtain ⟨⟨vs, rest'⟩, hitems, hr⟩ := Option.map_eq_some_iff.mp h
  obtain ⟨-, rfl⟩ := Prod.mk.inj hr
  cases depth with
  | zero =>
      cases strs with
      | nil =>
          obtain ⟨-, rfl⟩ := Prod.mk.inj (Option.some.inj hitems)
          exact ⟨List.not_mem_nil, rfl⟩
      | cons str strs => cases hitems
  | succ depth => exact items_keysItem hitems

/-- **What a client reads of the answer to `KEYS`.** -/
theorem keysReply_read {strs : List Bytes} :
    Resp.read (sendReply (buildRedisStringArrayReply strs)) = some v ↔
      ([] ∉ strs ∧ (Resp.arrayBytes strs).length < 2 ^ 32) ∧
        v = Resp.array (strs.map Resp.bulk) := by
  have hwhole : [] ∉ strs → buildRedisStringArrayReply strs = Resp.arrayBytes strs := by
    intro hempty
    have hitems : strs.flatMap keysItem = strs.flatMap Resp.bulkBytes := by
      refine List.flatMap_congr fun str hstr => keysItem_of_ne_nil ?_
      rintro rfl
      exact hempty hstr
    rw [buildRedisStringArrayReply_eq, hitems]
    rfl
  constructor
  · intro h
    obtain ⟨hempty, -⟩ := decode_keysReply (Resp.decode_of_read_take h)
    have hlt := length_lt_of_read h fun depth rest hdecode => (decode_keysReply hdecode).2
    rw [sendReply_of_lt hlt, hwhole hempty, Resp.read_arrayBytes] at h
    exact ⟨⟨hempty, hwhole hempty ▸ hlt⟩, (Option.some.inj h).symm⟩
  · rintro ⟨⟨hempty, hlt⟩, rfl⟩
    rw [hwhole hempty, sendReply_of_lt hlt, Resp.read_arrayBytes]

/-! ## Errors -/

/-- A client reads one value. -/
def OneValue (data : Bytes) : Prop := ∃ v, Resp.read (sendReply data) = some v

/-- What is formatted is sent as it was written, and a client reads one value. -/
def Sent (o : Outcome Bytes) : Prop := ∃ data, o = Except.ok data ∧ OneValue data

/-- **When an error is one line**: if its text is short, and has no line breaks. -/
theorem formatted_read : Sent (formatted (45 :: (text ++ crlf))) ↔
    text.length + 3 < 256 ∧ Unbroken text := by
  have hlen : (45 :: (text ++ crlf)).length = text.length + 3 := by
    rw [List.length_cons, List.length_append]
    rfl
  rw [formatted, hlen]
  constructor
  · rintro ⟨data, hdata, v, hread⟩
    split_ifs at hdata with hlt heq
    · obtain rfl := Outcome.pure_eq_ok.mp hdata
      rw [sendReply_of_lt (by omega)] at hread
      obtain ⟨text', htext, hunbroken, -⟩ := Resp.read_error.mp hread
      exact ⟨hlt, List.append_cancel_right htext ▸ hunbroken⟩
    · -- the zero at its end is sent as well
      obtain rfl := Outcome.pure_eq_ok.mp hdata
      have hshort : ((45 :: (text ++ crlf)).take 255 ++ [0]).length < 2 ^ 32 := by
        have htake := List.length_take_le 255 (45 :: (text ++ crlf))
        rw [List.length_append, List.length_singleton]
        omega
      rw [sendReply_of_lt hshort] at hread
      obtain ⟨text', htext, -⟩ := Resp.read_error.mp hread
      have hlast := congrArg List.getLast? htext
      simp [crlf] at hlast
  · rintro ⟨hlt, hunbroken⟩
    refine ⟨_, if_pos hlt, Resp.error text, ?_⟩
    rw [sendReply_of_lt (by omega)]
    exact Resp.read_error.mpr ⟨text, rfl, hunbroken, rfl⟩

/-- Between texts without line breaks, only the text in the middle counts. -/
lemma unbroken_between {before after : Bytes} (hbefore : Unbroken before) (hafter : Unbroken after) :
    Unbroken (before ++ text ++ after) ↔ Unbroken text := by
  simp only [Unbroken, List.mem_append, not_or] at hbefore hafter ⊢
  tauto

lemma unknownCommand_read (command : Bytes) : Sent (formatted (shared.unknownCommand command)) ↔
    command.length + 25 < 256 ∧ Unbroken command := by
  have htext : shared.unknownCommand command =
      45 :: ((ascii "ERR unknown command \x60" ++ command ++ [96]) ++ crlf) := by
    simp only [shared.unknownCommand, ascii, List.append_assoc]
    rfl
  rw [htext, formatted_read, unbroken_between (by decide) (by decide)]
  refine and_congr_left fun _ => ?_
  rw [List.length_append, List.length_append]
  show 21 + command.length + 1 + 3 < 256 ↔ _
  omega

lemma err_read (status : Bytes) : Sent (formatted (shared.err status)) ↔
    status.length + 7 < 256 ∧ Unbroken status := by
  have htext : shared.err status = 45 :: ((ascii "ERR " ++ status ++ []) ++ crlf) := by
    rw [shared.err, List.append_nil]
    rfl
  rw [htext, formatted_read, unbroken_between (by decide) (by decide)]
  refine and_congr_left fun _ => ?_
  rw [List.length_append, List.length_append]
  show 4 + status.length + 0 + 3 < 256 ↔ _
  omega

/-- The replies that never change. -/
lemma shared_read : OneValue shared.ok ∧ OneValue shared.pong ∧ OneValue shared.null ∧
    OneValue shared.wrongType := by
  have hread : ∀ data : Bytes, data.length < 2 ^ 32 → (Resp.read data).isSome = true →
      OneValue data := by
    intro data hlt hread
    rw [OneValue, sendReply_of_lt hlt]
    exact Option.isSome_iff_exists.mp hread
  refine ⟨?_, ?_, ?_, ?_⟩ <;> exact hread _ (by decide) (by decide)

/-! ## Reactions -/

/-- A command is answered with one value, or not at once. -/
def Answers (o : Outcome Reaction) : Prop :=
  ∃ r, o = Except.ok r ∧ ∀ data, r = Reaction.reply data → OneValue data

lemma answers_reply {data : Bytes} : Answers (pure (Reaction.reply data)) ↔ OneValue data := by
  constructor
  · rintro ⟨r, hr, hone⟩
    exact hone data (Outcome.pure_eq_ok.mp hr).symm
  · intro hone
    refine ⟨_, rfl, fun data' hreply => ?_⟩
    cases hreply
    exact hone

lemma answers_formatted {o : Outcome Bytes} :
    Answers (do return Reaction.reply (← o)) ↔ Sent o := by
  constructor
  · rintro ⟨r, hr, hone⟩
    obtain ⟨data, hdata, hr⟩ := Outcome.bind_eq_ok.mp hr
    exact ⟨data, hdata, hone data (Outcome.pure_eq_ok.mp hr).symm⟩
  · rintro ⟨data, rfl, hone⟩
    exact answers_reply.mpr hone

/-- The commands of the table are short, and have no line breaks. -/
lemma wrongArguments_answers {command : String}
    (h : command ∈ ["", "get", "set", "del", "keys"]) : Answers (wrongArguments command) := by
  rw [wrongArguments, answers_formatted]
  have htext : shared.wrongNumberArguments command =
      45 :: ((ascii "ERR wrong number of arguments for '" ++ ascii command ++ ascii "' command") ++
        crlf) := by
    simp only [shared.wrongNumberArguments, List.append_assoc]
    rfl
  rw [htext, formatted_read, unbroken_between (by decide) (by decide)]
  revert command
  decide

/-- The names of the table. -/
def commandNames : List Bytes := (commandTable (κ := Unit) strdupText).map Prod.fst

/-- What has to hold of a command for its answer to be one value. -/
structure Plain (s : RedisStore κ) (command : ReplyElement) (args : List ReplyElement) : Prop where
  /-- An unknown command is short, and has no line breaks in front of its first zero byte. -/
  unknown : command.str ∉ commandNames →
    (cStr command.str).length + 25 < 256 ∧ Unbroken (cStr command.str)
  get : command.str ∈ [ascii "get", ascii "GET"] → ∀ key value, args = [key] →
    key.type = ReplyType.string → s.get key.str = some value →
    0 ∉ value ∧ (Resp.bulkBytes value).length < 2 ^ 31
  keys : command.str ∈ [ascii "keys", ascii "KEYS"] → ∀ pattern, args = [pattern] →
    pattern.type = ReplyType.string →
    [] ∉ s.keys pattern.str ∧ (Resp.arrayBytes (s.keys pattern.str)).length < 2 ^ 32

variable {command : ReplyElement} {args : List ReplyElement}

lemma getCommand_answers (hformats : strdupPrintf.Formats)
    (helement : reply.element = command :: args) :
    Answers (getCommand strdupPrintf s reply) ↔ ∀ key value, args = [key] →
      key.type = ReplyType.string → s.get key.str = some value →
      0 ∉ value ∧ (Resp.bulkBytes value).length < 2 ^ 31 := by
  by_cases hone : ∃ key, args = [key]
  · obtain ⟨key, rfl⟩ := hone
    by_cases htype : key.type = ReplyType.string
    · cases hget : s.get key.str with
      | none =>
          have hnull : getCommand strdupPrintf s reply = pure (Reaction.reply shared.null) := by
            rw [getCommand, helement]
            dsimp only
            rw [if_neg (not_not.mpr htype), hget]
          rw [hnull]
          refine iff_of_true (answers_reply.mpr shared_read.2.2.1) ?_
          rintro key' value hkey - hvalue
          obtain rfl := List.singleton_inj.mp hkey
          rw [hget] at hvalue
          cases hvalue
      | some value =>
          have hread := fun v => @getCommand_read _ _ _ _ _ v hformats _ _ helement htype hget
          constructor
          · rintro ⟨r, hr, hone⟩ key' value' hkey - hvalue
            obtain rfl := List.singleton_inj.mp hkey
            obtain rfl := Option.some.inj (hget.symm.trans hvalue)
            have hr' := getCommand_eq hformats helement htype hget
            rw [hr] at hr'
            split_ifs at hr' with hlt
            obtain ⟨v, hv⟩ := hone _ (Except.ok.inj hr')
            exact ((hread v).mp ⟨_, hr.trans (congrArg _ (Except.ok.inj hr')), hv⟩).1
          · intro h
            obtain ⟨data, hdata, hv⟩ := (hread _).mpr ⟨h key value rfl htype hget, rfl⟩
            rw [hdata]
            exact answers_reply.mpr ⟨_, hv⟩
    · have hwrong : getCommand strdupPrintf s reply = pure (Reaction.reply shared.wrongType) := by
        rw [getCommand, helement]
        exact if_pos htype
      rw [hwrong]
      refine iff_of_true (answers_reply.mpr shared_read.2.2.2) ?_
      rintro key' value hkey hstring -
      obtain rfl := List.singleton_inj.mp hkey
      exact absurd hstring htype
  · rw [getCommand, helement]
    split
    · rename_i key hargs
      exact absurd ⟨key, (List.cons.inj hargs).2⟩ hone
    · refine iff_of_true (wrongArguments_answers (by decide)) ?_
      rintro key value rfl
      exact absurd ⟨key, rfl⟩ hone

lemma keysCommand_answers (helement : reply.element = command :: args) :
    Answers (keysCommand s reply) ↔ ∀ pattern, args = [pattern] →
      pattern.type = ReplyType.string →
      [] ∉ s.keys pattern.str ∧ (Resp.arrayBytes (s.keys pattern.str)).length < 2 ^ 32 := by
  rw [keysCommand, helement]
  split
  · rename_i pattern hargs
    obtain ⟨-, rfl⟩ := List.cons.inj hargs
    split_ifs with htype
    · refine iff_of_true (answers_reply.mpr shared_read.2.2.2) ?_
      rintro pattern' hpattern hstring
      obtain rfl := List.singleton_inj.mp hpattern
      exact absurd hstring htype
    · refine answers_reply.trans ⟨?_, fun h => ?_⟩
      · rintro ⟨v, hread⟩ pattern' hpattern -
        obtain rfl := List.singleton_inj.mp hpattern
        exact (keysReply_read.mp hread).1
      · exact ⟨_, keysReply_read.mpr ⟨h pattern rfl (not_not.mp htype), rfl⟩⟩
  · rename_i hother
    refine iff_of_true (wrongArguments_answers (by decide)) ?_
    rintro pattern rfl
    exact absurd rfl (hother command pattern)

lemma setCommand_answers (s : RedisStore κ) (reply : RedisReply) : Answers (setCommand s reply) := by
  rw [setCommand]
  split
  · split_ifs
    · exact answers_reply.mpr shared_read.2.2.2
    · exact ⟨_, rfl, fun data hreply => by cases hreply⟩
  · exact wrongArguments_answers (by decide)

lemma delCommand_answers (s : RedisStore κ) (reply : RedisReply) : Answers (delCommand s reply) := by
  rw [delCommand]
  split
  · exact wrongArguments_answers (by decide)
  · exact wrongArguments_answers (by decide)
  · split_ifs
    · exact answers_reply.mpr shared_read.2.2.2
    · exact ⟨_, rfl, fun data hreply => by cases hreply⟩

/-- The commands of the table, under both of their names. -/
lemma lookup_cases {name : Bytes} {cb : RedisStore κ → RedisReply → Outcome Reaction}
    (h : (commandTable strdupPrintf).lookup name = some cb) :
    (name ∈ [ascii "ping", ascii "PING"] ∧ cb = pingCommand) ∨
    (name ∈ [ascii "get", ascii "GET"] ∧ cb = getCommand strdupPrintf) ∨
    (name ∈ [ascii "set", ascii "SET"] ∧ cb = setCommand) ∨
    (name ∈ [ascii "del", ascii "DEL"] ∧ cb = delCommand) ∨
    (name ∈ [ascii "keys", ascii "KEYS"] ∧ cb = keysCommand) := by
  obtain ⟨before, after, htable, -⟩ := List.lookup_eq_some_iff.mp h
  have hmem : (name, cb) ∈ commandTable (κ := κ) strdupPrintf :=
    htable ▸ List.mem_append_right _ (List.mem_cons_self ..)
  simp only [commandTable, List.mem_cons, List.not_mem_nil, Prod.mk.injEq, or_false] at hmem ⊢
  rcases hmem with h | h | h | h | h | h | h | h | h | h
  · exact Or.inl ⟨Or.inl h.1, h.2⟩
  · exact Or.inl ⟨Or.inr h.1, h.2⟩
  · exact Or.inr (Or.inl ⟨Or.inl h.1, h.2⟩)
  · exact Or.inr (Or.inl ⟨Or.inr h.1, h.2⟩)
  · exact Or.inr (Or.inr (Or.inl ⟨Or.inl h.1, h.2⟩))
  · exact Or.inr (Or.inr (Or.inl ⟨Or.inr h.1, h.2⟩))
  · exact Or.inr (Or.inr (Or.inr (Or.inl ⟨Or.inl h.1, h.2⟩)))
  · exact Or.inr (Or.inr (Or.inr (Or.inl ⟨Or.inr h.1, h.2⟩)))
  · exact Or.inr (Or.inr (Or.inr (Or.inr ⟨Or.inl h.1, h.2⟩)))
  · exact Or.inr (Or.inr (Or.inr (Or.inr ⟨Or.inr h.1, h.2⟩)))

lemma lookup_eq_none {name : Bytes} :
    (commandTable (κ := κ) strdupPrintf).lookup name = none ↔ name ∉ commandNames := by
  rw [show commandNames = (commandTable (κ := κ) strdupPrintf).map Prod.fst from rfl,
    List.lookup_eq_none_iff, List.mem_map]
  constructor
  · rintro h ⟨p, hp, rfl⟩
    simpa using h p hp
  · intro h p hp
    rw [bne_iff_ne]
    rintro rfl
    exact h ⟨p, hp, rfl⟩

lemma mem_names_of_mem {name : Bytes} {names : List Bytes}
    (hnames : ∀ n ∈ names, n ∈ commandNames) (h : name ∈ names) : name ∈ commandNames :=
  hnames name h

lemma not_mem_of_mem {name : Bytes} {names others : List Bytes} (hapart : ∀ n ∈ names, n ∉ others)
    (h : name ∈ names) : name ∉ others := hapart name h

/-- The other commands of the table are always answered with one value. -/
lemma plain_of_not_mem {names : List Bytes}
    (hnames : ∀ n ∈ names, n ∈ commandNames)
    (hget : ∀ n ∈ names, n ∉ [ascii "get", ascii "GET"])
    (hkeys : ∀ n ∈ names, n ∉ [ascii "keys", ascii "KEYS"]) (h : command.str ∈ names) :
    Plain s command args where
  unknown hunknown := absurd (hnames _ h) hunknown
  get hmem := absurd hmem (not_mem_of_mem hget h)
  keys hmem := absurd hmem (not_mem_of_mem hkeys h)

/-- **When a command is answered with one value.** -/
theorem onRedisReply_answers (hformats : strdupPrintf.Formats) :
    Answers (onRedisReply strdupPrintf s reply) ↔ ∀ command args,
      reply.type = ReplyType.array → reply.element = command :: args →
      command.type = ReplyType.string → Plain s command args := by
  rw [onRedisReply]
  split_ifs with harray
  · refine iff_of_true (answers_reply.mpr shared_read.2.2.2) ?_
    intro command args htype
    exact absurd htype harray
  · cases helement : reply.element with
    | nil =>
        refine iff_of_true (wrongArguments_answers (by decide)) ?_
        intro command args _ hcons
        cases hcons
    | cons command args =>
        have hplain : (∀ command' args', reply.type = ReplyType.array →
            command :: args = command' :: args' → command'.type = ReplyType.string →
            Plain s command' args') ↔ (command.type = ReplyType.string → Plain s command args) := by
          constructor
          · intro h
            exact h command args (not_not.mp harray) rfl
          · rintro h command' args' - hcons
            obtain ⟨rfl, rfl⟩ := List.cons.inj hcons
            exact h
        rw [hplain]
        dsimp only
        split_ifs with hstring
        · exact iff_of_true (answers_reply.mpr shared_read.2.2.2) fun h => absurd h hstring
        rw [forall_prop_of_true (not_not.mp hstring)]
        cases hlookup : (commandTable strdupPrintf).lookup command.str with
        | none =>
            have hunknown := lookup_eq_none.mp hlookup
            refine answers_formatted.trans ((unknownCommand_read _).trans ⟨fun h => ?_, fun h => ?_⟩)
            · refine ⟨fun _ => h, fun hget => ?_, fun hkeys => ?_⟩
              · exact absurd (mem_names_of_mem (by decide) hget) hunknown
              · exact absurd (mem_names_of_mem (by decide) hkeys) hunknown
            · exact h.unknown hunknown
        | some cb =>
            rcases lookup_cases hlookup with ⟨hname, rfl⟩ | ⟨hname, rfl⟩ | ⟨hname, rfl⟩ |
              ⟨hname, rfl⟩ | ⟨hname, rfl⟩
            · exact iff_of_true (answers_reply.mpr shared_read.2.1)
                (plain_of_not_mem (by decide) (by decide) (by decide) hname)
            · rw [getCommand_answers hformats helement]
              refine ⟨fun h => ⟨fun hunknown => ?_, fun _ => h, fun hkeys => ?_⟩,
                fun h => h.get hname⟩
              · exact absurd (mem_names_of_mem (by decide) hname) hunknown
              · exact absurd hkeys (not_mem_of_mem (by decide) hname)
            · exact iff_of_true (setCommand_answers s reply)
                (plain_of_not_mem (by decide) (by decide) (by decide) hname)
            · exact iff_of_true (delCommand_answers s reply)
                (plain_of_not_mem (by decide) (by decide) (by decide) hname)
            · rw [keysCommand_answers helement]
              refine ⟨fun h => ⟨fun hunknown => ?_, fun hget => ?_, fun _ => h⟩,
                fun h => h.keys hname⟩
              · exact absurd (mem_names_of_mem (by decide) hname) hunknown
              · exact absurd hget (not_mem_of_mem (by decide) hname)

/-! ## The results -/

/-- **When answers from the store are binary safe**: a value without zero bytes of less than `2 ^ 31`
bytes in all, and keys of which none is empty of less than `2 ^ 32` bytes in all. -/
theorem replies_binary_safe (hformats : strdupPrintf.Formats) {arg : ReplyElement}
    (helement : reply.element = [command, arg]) (harg : arg.type = ReplyType.string) :
    (∀ value, s.get arg.str = some value →
      ((∃ data, getCommand strdupPrintf s reply = Except.ok (Reaction.reply data) ∧
        Resp.read (sendReply data) = some (Resp.bulk value)) ↔
        0 ∉ value ∧ (Resp.bulkBytes value).length < 2 ^ 31)) ∧
    ((∃ data, keysCommand s reply = Except.ok (Reaction.reply data) ∧
      Resp.read (sendReply data) = some (Resp.array ((s.keys arg.str).map Resp.bulk))) ↔
      [] ∉ s.keys arg.str ∧ (Resp.arrayBytes (s.keys arg.str)).length < 2 ^ 32) := by
  constructor
  · intro value hvalue
    rw [getCommand_read hformats helement harg hvalue]
    exact and_iff_left rfl
  · have hkeys : keysCommand s reply =
        Except.ok (Reaction.reply (buildRedisStringArrayReply (s.keys arg.str))) := by
      rw [keysCommand, helement]
      exact if_neg (not_not.mpr harg)
    constructor
    · rintro ⟨data, hdata, hread⟩
      cases hkeys.symm.trans hdata
      exact (keysReply_read.mp hread).1
    · intro h
      exact ⟨_, hkeys, keysReply_read.mpr ⟨h, rfl⟩⟩

def getRequest (key : Bytes) : RedisReply where
  type := ReplyType.array
  element := [⟨ReplyType.string, ascii "get"⟩, ⟨ReplyType.string, key⟩]

def keysRequest (pattern : Bytes) : RedisReply where
  type := ReplyType.array
  element := [⟨ReplyType.string, ascii "keys"⟩, ⟨ReplyType.string, pattern⟩]

/-- A value of a line break, under a key that `KEYS` lists. -/
theorem replies_binary_safe_break :
    (∃ data, getCommand strdupText (RedisStore.oneKey [107] [13, 10]) (getRequest [107]) =
      Except.ok (Reaction.reply data) ∧
      Resp.read (sendReply data) = some (Resp.bulk [13, 10])) ∧
    ∃ data, keysCommand (RedisStore.oneKey [107] [13, 10]) (keysRequest [107]) =
      Except.ok (Reaction.reply data) ∧
      Resp.read (sendReply data) = some (Resp.array [Resp.bulk [107]]) := by
  constructor
  · exact ((replies_binary_safe strdupText_formats
      (show (getRequest [107]).element = [_, _] from rfl) rfl).1 [13, 10] (by decide)).mpr
      ⟨by decide, by decide⟩
  · have hkeys : (RedisStore.oneKey [107] [13, 10]).keys [107] = [[107]] := by decide
    have h := (replies_binary_safe (s := RedisStore.oneKey [107] [13, 10]) strdupText_formats
      (show (keysRequest [107]).element = [_, _] from rfl) rfl).2.mpr
    rw [hkeys] at h
    exact h ⟨by decide, by decide⟩

/-- A value of one zero byte is announced and not sent, and behind an empty key the line does not
end. -/
theorem replies_cut_short :
    (RedisStore.oneKey [] [0]).get [] = some [0] ∧
    (¬ ∃ data, getCommand strdupText (RedisStore.oneKey [] [0]) (getRequest []) =
      Except.ok (Reaction.reply data) ∧ Resp.read (sendReply data) = some (Resp.bulk [0])) ∧
    (RedisStore.oneKey [] [0]).keys [] = [[]] ∧
    ¬ ∃ data, keysCommand (RedisStore.oneKey [] [0]) (keysRequest []) =
      Except.ok (Reaction.reply data) ∧
      Resp.read (sendReply data) = some (Resp.array [Resp.bulk []]) := by
  refine ⟨by decide, ?_, by decide, ?_⟩
  · rintro ⟨data, hdata, hread⟩
    have hget : getCommand strdupText (RedisStore.oneKey [] [0]) (getRequest []) =
        Except.ok (Reaction.reply (ascii "$1\r\n\r\n")) := by decide
    cases hget.symm.trans hdata
    have hnone : (Resp.read (sendReply (ascii "$1\r\n\r\n"))).isNone = true := by decide
    rw [hread] at hnone
    cases hnone
  · rintro ⟨data, hdata, hread⟩
    have hkeys : keysCommand (RedisStore.oneKey [] [0]) (keysRequest []) =
        Except.ok (Reaction.reply (ascii "*1\r\n$0\r\n")) := by decide
    cases hkeys.symm.trans hdata
    have hnone : (Resp.read (sendReply (ascii "*1\r\n$0\r\n"))).isNone = true := by decide
    rw [hread] at hnone
    cases hnone

/-- The text of a failing status, as it is formatted. -/
def statusText (status : Status) : Bytes := cStr (ascii status.toText)

/-- **When every reply is one value**, and is sent from what was written: for the commands and for the
failing status of a request. -/
theorem replies_fit (hformats : strdupPrintf.Formats) :
    (∀ (s : RedisStore κ) (reply : RedisReply),
      Answers (onRedisReply strdupPrintf s reply) ↔ ∀ command args,
        reply.type = ReplyType.array → reply.element = command :: args →
        command.type = ReplyType.string → Plain s command args) ∧
    ∀ status, status.isOk = false → (Sent (statusReply status) ↔
      (statusText status).length + 7 < 256 ∧ Unbroken (statusText status)) := by
  refine ⟨fun s reply => onRedisReply_answers hformats, fun status hstatus => ?_⟩
  rw [statusReply, hstatus, if_neg Bool.false_ne_true]
  exact err_read _

/-- An unknown command, and a proposal that was dropped. -/
theorem replies_fit_unknown :
    Answers (onRedisReply strdupText (RedisStore.oneKey [107] [118])
      { type := ReplyType.array, element := [⟨ReplyType.string, ascii "flush"⟩] }) ∧
    Sent (statusReply (Status.invalidArgument "raft proposal dropped")) := by
  obtain ⟨hcommand, hstatus⟩ := replies_fit (κ := Nat) strdupText_formats
  constructor
  · refine (hcommand _ _).mpr ?_
    rintro command args - hcons -
    cases hcons
    refine ⟨fun _ => ⟨by decide, by decide⟩, fun hget => ?_, fun hkeys => ?_⟩
    · exact absurd hget (by decide)
    · exact absurd hkeys (by decide)
  · exact (hstatus _ rfl).mpr ⟨by decide, by decide⟩

/-- A command of 300 bytes is read behind the end of the buffer, one of 231 bytes loses the end of its
line, and one with a line break makes two lines. -/
theorem replies_spoiled :
    onRedisReply strdupText (RedisStore.oneKey [107] [118])
      { type := ReplyType.array, element := [⟨ReplyType.string, List.replicate 300 97⟩] } =
      Except.error (Crash.outOfRange "buffer") ∧
    (¬ Answers (onRedisReply strdupText (RedisStore.oneKey [107] [118])
      { type := ReplyType.array, element := [⟨ReplyType.string, List.replicate 231 97⟩] })) ∧
    ¬ Answers (onRedisReply strdupText (RedisStore.oneKey [107] [118])
      { type := ReplyType.array, element := [⟨ReplyType.string, [97, 13, 10, 98]⟩] }) := by
  refine ⟨by decide +kernel, fun h => ?_, fun h => ?_⟩
  · have hplain := (onRedisReply_answers strdupText_formats).mp h _ _ rfl rfl rfl
    exact absurd (hplain.unknown (by decide +kernel)).1 (by decide +kernel)
  · have hplain := (onRedisReply_answers strdupText_formats).mp h _ _ rfl rfl rfl
    exact absurd (hplain.unknown (by decide)).2 (by decide)

end Commands

end RaftKv
