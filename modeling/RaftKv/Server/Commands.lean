import RaftKv.Server.HandleRead
import RaftKv.Server.RedisStore

/-!
# Commands

`RedisSession::on_redis_reply` and the commands of its table (`server/redis_session.cpp`).  A
command is answered at once, or becomes a request to the store whose callback will answer it.

* `StrdupPrintf`, `StrdupPrintf.Formats` — GLib's `g_strdup_printf` is a parameter, and what is known of
  it a hypothesis: it gives no string for a text whose length is no `int`.
* `getCommand`, `setCommand`, … — the commands; `onRedisReply` — the table.
-/

namespace RaftKv

namespace Commands

/-! ## Texts -/

/-- The bytes of an ASCII text. -/
def ascii (s : String) : Bytes := s.toList.map fun c => UInt8.ofNat c.toNat

namespace shared

def ok : Bytes := ascii "+OK\r\n"

def err (text : Bytes) : Bytes := ascii "-ERR " ++ text ++ ascii "\r\n"

def wrongType : Bytes :=
  ascii "-WRONGTYPE Operation against a key holding the wrong kind of value\r\n"

def unknownCommand (command : Bytes) : Bytes :=
  ascii "-ERR unknown command " ++ [96] ++ command ++ [96] ++ ascii "\r\n"

def wrongNumberArguments (command : String) : Bytes :=
  ascii "-ERR wrong number of arguments for '" ++ ascii command ++ ascii "' command\r\n"

def pong : Bytes := ascii "+PONG\r\n"

def null : Bytes := ascii "$-1\r\n"

end shared

/-- A string as `c_str()` shows it. -/
def cStr (b : Bytes) : Bytes := b.takeWhile (· ≠ 0)

def decimal (n : Nat) : Bytes := ascii (toString n)

/-! ## `g_strdup_printf` -/

/-- `g_strdup_printf` of a format with a number and a string; `none` stands for `NULL`. -/
abbrev StrdupPrintf := String → Nat → Bytes → Option Bytes

/-- The format of `get_command`, and the text that it stands for. -/
def bulkFormat : String := "$%lu\r\n%s\r\n"

def bulkText (size : Nat) (str : Bytes) : Bytes :=
  ascii "$" ++ decimal size ++ ascii "\r\n" ++ cStr str ++ ascii "\r\n"

/-- **What is known of `g_strdup_printf`**: it returns the text, unless the length of the text is
beyond an `int`; then the formatting fails, and it returns `NULL`. -/
structure StrdupPrintf.Formats (strdupPrintf : StrdupPrintf) : Prop where
  text : ∀ size str, (bulkText size str).length < 2 ^ 31 →
    strdupPrintf bulkFormat size str = some (bulkText size str)
  null : ∀ size str, 2 ^ 31 ≤ (bulkText size str).length → strdupPrintf bulkFormat size str = none

/-- A function that does so. -/
def strdupText : StrdupPrintf := fun _ size str =>
  if (bulkText size str).length < 2 ^ 31 then some (bulkText size str) else none

lemma strdupText_formats : StrdupPrintf.Formats strdupText where
  text _ _ hlt := if_pos hlt
  null _ _ hle := if_neg (Nat.not_lt.mpr hle)

/-! ## Replies -/

/-- `snprintf` into a buffer of 256 bytes, and `send_reply` of as many bytes as `snprintf` says. -/
def formatted (text : Bytes) : Outcome Bytes :=
  if text.length < 256 then pure text
  else if text.length = 256 then pure (text.take 255 ++ [0])
  else throw (Crash.outOfRange "buffer")

def buildRedisStringArrayReply (strs : List Bytes) : Bytes :=
  ascii "*" ++ decimal strs.length ++ ascii "\r\n" ++ strs.flatMap fun str =>
    ascii "$" ++ decimal str.length ++ ascii "\r\n" ++
      if str = [] then [] else str ++ ascii "\r\n"

/-! ## Reactions -/

/-- What a command makes the session do. -/
inductive Reaction where
  | reply (data : Bytes)
  | set (key value : Bytes)
  | del (keys : List Bytes)
  deriving DecidableEq, Repr

variable {κ : Type}

def wrongArguments (command : String) : Outcome Reaction := do
  return Reaction.reply (← formatted (shared.wrongNumberArguments command))

def pingCommand (_ : RedisStore κ) (_ : RedisReply) : Outcome Reaction :=
  pure (Reaction.reply shared.pong)

/-- The length of the answer is what `strlen` says. -/
def getCommand (strdupPrintf : StrdupPrintf) (s : RedisStore κ) (reply : RedisReply) :
    Outcome Reaction :=
  match reply.element with
  | [_, key] =>
      if key.type ≠ ReplyType.string then pure (Reaction.reply shared.wrongType)
      else
        match s.get key.str with
        | none => pure (Reaction.reply shared.null)
        | some value =>
            match strdupPrintf bulkFormat value.length value with
            | none => throw (Crash.nullDeref "strlen(str)")
            | some str => pure (Reaction.reply (cStr str))
  | _ => wrongArguments "get"

def setCommand (_ : RedisStore κ) (reply : RedisReply) : Outcome Reaction :=
  match reply.element with
  | [_, key, value] =>
      if key.type ≠ ReplyType.string ∨ value.type ≠ ReplyType.string then
        pure (Reaction.reply shared.wrongType)
      else pure (Reaction.set key.str value.str)
  | _ => wrongArguments "set"

def delCommand (_ : RedisStore κ) (reply : RedisReply) : Outcome Reaction :=
  match reply.element with
  | [] => wrongArguments "del"
  | [_] => wrongArguments "del"
  | _ :: keys =>
      if ∃ key ∈ keys, key.type ≠ ReplyType.string then pure (Reaction.reply shared.wrongType)
      else pure (Reaction.del (keys.map ReplyElement.str))

def keysCommand (s : RedisStore κ) (reply : RedisReply) : Outcome Reaction :=
  match reply.element with
  | [_, pattern] =>
      if pattern.type ≠ ReplyType.string then pure (Reaction.reply shared.wrongType)
      else pure (Reaction.reply (buildRedisStringArrayReply (s.keys pattern.str)))
  | _ => wrongArguments "keys"

def commandTable (strdupPrintf : StrdupPrintf) :
    List (Bytes × (RedisStore κ → RedisReply → Outcome Reaction)) :=
  [(ascii "ping", pingCommand), (ascii "PING", pingCommand),
    (ascii "get", getCommand strdupPrintf), (ascii "GET", getCommand strdupPrintf),
    (ascii "set", setCommand), (ascii "SET", setCommand), (ascii "del", delCommand),
    (ascii "DEL", delCommand), (ascii "keys", keysCommand), (ascii "KEYS", keysCommand)]

def onRedisReply (strdupPrintf : StrdupPrintf) (s : RedisStore κ) (reply : RedisReply) :
    Outcome Reaction :=
  if reply.type ≠ ReplyType.array then pure (Reaction.reply shared.wrongType)
  else
    match reply.element with
    | [] => wrongArguments ""
    | command :: _ =>
        if command.type ≠ ReplyType.string then pure (Reaction.reply shared.wrongType)
        else
          match (commandTable strdupPrintf).lookup command.str with
          | none => do
              return Reaction.reply (← formatted (shared.unknownCommand (cStr command.str)))
          | some cb => cb s reply

/-- The callback of `set_command` and `del_command`. -/
def statusReply (status : Status) : Outcome Bytes :=
  if status.isOk then pure shared.ok else formatted (shared.err (cStr (ascii status.toText)))

end Commands

end RaftKv
