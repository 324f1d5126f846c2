import RaftKv.Core.IncrementalParser
import RaftKv.Raft.Proto

/-!
# Reading commands

`RedisSession::handle_read` and `start` (`server/redis_session.cpp`): a chunk of the client's stream
is cut at its newlines, and each line is fed to the protocol reader, which is then asked for one
reply.  What stands behind the last newline of a chunk is not fed, and `start` is called twice.

* `RedisSession.handleRead_iff` — **the replies are those of the whole stream and one read is
  outstanding**, if and only if every chunk ends in a newline and one reply per line keeps up with
  the stream.
-/

namespace RaftKv

def receiveBufferSize : Nat := 1024 * 512

def newline : UInt8 := 10

/-! ## Lines -/

/-- `memchr` for a newline: what ends in it, and what follows. -/
def memchrLine : Bytes → Option (Bytes × Bytes)
  | [] => none
  | b :: bs =>
      if b = newline then some ([b], bs)
      else (memchrLine bs).map fun r => (b :: r.1, r.2)

/-- One byte more in front of the lines of a stream and what stands behind the last of them. -/
def consByte (b : UInt8) (p : List Bytes × Bytes) : List Bytes × Bytes :=
  if b = newline then ([b] :: p.1, p.2)
  else
    match p.1 with
    | [] => ([], b :: p.2)
    | l :: ls => ((b :: l) :: ls, p.2)

/-- The lines of a stream, each with its newline, and what stands behind the last one. -/
def splitLines : Bytes → List Bytes × Bytes
  | [] => ([], [])
  | b :: bs => consByte b (splitLines bs)

lemma splitLines_of_memchrLine {bs l rest : Bytes} (h : memchrLine bs = some (l, rest)) :
    splitLines bs = (l :: (splitLines rest).1, (splitLines rest).2) ∧ rest.length < bs.length := by
  induction bs generalizing l with
  | nil => cases h
  | cons b bs ih =>
      rw [memchrLine] at h
      split_ifs at h with hb
      · obtain ⟨rfl, rfl⟩ := Prod.mk.inj (Option.some.inj h)
        exact ⟨by rw [splitLines, consByte, if_pos hb], Nat.lt_succ_self _⟩
      · obtain ⟨⟨l', rest'⟩, hl, hr⟩ := Option.map_eq_some_iff.mp h
        obtain ⟨rfl, rfl⟩ := Prod.mk.inj hr
        obtain ⟨hsplit, hlen⟩ := ih hl
        exact ⟨by rw [splitLines, hsplit, consByte, if_neg hb], hlen.trans (Nat.lt_succ_self _)⟩

lemma splitLines_of_memchrLine_none {bs : Bytes} (h : memchrLine bs = none) :
    splitLines bs = ([], bs) := by
  induction bs with
  | nil => rfl
  | cons b bs ih =>
      rw [memchrLine] at h
      split_ifs at h with hb
      rw [splitLines, ih (Option.map_eq_none_iff.mp h), consByte, if_neg hb]

lemma splitLines_flatten (bs : Bytes) : (splitLines bs).1.flatten ++ (splitLines bs).2 = bs := by
  induction bs with
  | nil => rfl
  | cons b bs ih =>
      rw [splitLines, consByte]
      split_ifs with hb
      · rw [List.flatten_cons, List.append_assoc, ih]
        rfl
      · split
        · rename_i hls
          rw [hls] at ih
          exact congrArg (b :: ·) ih
        · rename_i l ls hls
          rw [hls] at ih
          exact congrArg (b :: ·) ih

lemma splitLines_append {a : Bytes} (ha : (splitLines a).2 = []) (b : Bytes) :
    splitLines (a ++ b) = ((splitLines a).1 ++ (splitLines b).1, (splitLines b).2) := by
  induction a with
  | nil => rfl
  | cons c a ih =>
      rw [splitLines, consByte] at ha
      rw [List.cons_append, splitLines, splitLines, consByte, consByte]
      split_ifs at ha ⊢ with hc
      · rw [ih ha]
        rfl
      · split at ha
        · cases ha
        · rename_i l ls hls
          rw [ih ha, hls]
          rfl

/-- Nothing stands behind the last newline. -/
lemma splitLines_snd_eq_nil {bs : Bytes} (h : bs ≠ []) :
    (splitLines bs).2 = [] ↔ bs.getLast? = some newline := by
  induction bs with
  | nil => exact absurd rfl h
  | cons b bs ih =>
      rw [splitLines, consByte]
      by_cases hbs : bs = []
      · subst hbs
        by_cases hb : b = newline <;> simp [splitLines, hb]
      · rw [List.getLast?_cons_of_ne_nil hbs, ← ih hbs]
        split_ifs with hb
        · rfl
        · split
          · rename_i hls
            have hflat := splitLines_flatten bs
            rw [hls, List.flatten_nil, List.nil_append] at hflat
            exact iff_of_false (List.cons_ne_nil _ _) fun htail => hbs (hflat.symm.trans htail)
          · rfl

/-! ## Sessions -/

structure RedisSession where
  quit : Bool := false
  reader : Reader UInt8 := {}
  /-- How many asynchronous reads have been started and not completed. -/
  outstanding : Nat := 0

namespace RedisSession

variable {ρ : Type}

def start (s : RedisSession) : RedisSession :=
  if s.quit then s else { s with outstanding := s.outstanding + 1 }

/-- The loop of `handle_read` over the rest of the buffer, with the replies so far; the flag says
that `err` is `REDIS_OK`.  Each round takes a byte at least, so `fuel` is a bound on the rounds. -/
def readLoop (parser : IncrementalParser UInt8 ρ) :
    Nat → RedisSession → Bytes → List ρ → RedisSession × List ρ × Bool
  | 0, s, _, replies => (s, replies, true)
  | fuel + 1, s, buffer, replies =>
      if s.quit ∨ buffer = [] then (s, replies, true)
      else
        match memchrLine buffer with
        | none => (s.start, replies, true)
        | some (line, rest) =>
            match s.reader.feed line with
            | none => ({ s with quit := true }, replies, false)
            | some reader =>
                match reader.getReply parser with
                | (reader, none) => ({ s with reader := reader, quit := true }, replies, false)
                | (reader, some reply) =>
                    readLoop parser fuel { s with reader := reader } rest (replies ++ reply.toList)

/-- The handler of a completed read: the session behind it, and the replies it passes to
`on_redis_reply`. -/
def handleRead (parser : IncrementalParser UInt8 ρ) (s : RedisSession) (bytes : Bytes) :
    RedisSession × List ρ :=
  match readLoop parser bytes.length { s with outstanding := s.outstanding - 1 } bytes [] with
  | (s, replies, ok) => if ok then (s.start, replies) else (s, [])

/-- Successive reads: the session and the replies after each of them. -/
def handleReads (parser : IncrementalParser UInt8 ρ) :
    RedisSession → List Bytes → List (RedisSession × List ρ)
  | _, [] => []
  | s, chunk :: chunks =>
      let r := s.handleRead parser chunk
      r :: handleReads parser r.1 chunks

/-! ## One read -/

variable {parser : IncrementalParser UInt8 ρ}

/-- The loop feeds the lines of the buffer one by one; with a tail it starts a read. -/
lemma readLoop_eq {fuel : Nat} {s : RedisSession} {buffer : Bytes} {replies : List ρ}
    (hfuel : buffer.length ≤ fuel) (hquit : s.quit = false) :
    match Reader.takeEach parser (s.reader, some replies) (splitLines buffer).1 with
    | (reader, some out) =>
        readLoop parser fuel s buffer replies =
          (if (splitLines buffer).2 = [] then { s with reader := reader }
            else ({ s with reader := reader } : RedisSession).start, out, true)
    | (reader, none) => ∃ out,
        readLoop parser fuel s buffer replies =
          ({ s with reader := reader, quit := true }, out, false) := by
  induction fuel generalizing s buffer replies with
  | zero =>
      obtain rfl : buffer = [] := List.eq_nil_of_length_eq_zero (Nat.le_zero.mp hfuel)
      rfl
  | succ fuel ih =>
      by_cases hbuffer : buffer = []
      · subst hbuffer
        simp [splitLines, Reader.takeEach, readLoop]
      · have hgo : ¬ (s.quit = true ∨ buffer = []) := by simp [hquit, hbuffer]
        cases hline : memchrLine buffer with
        | none =>
            rw [splitLines_of_memchrLine_none hline]
            simp only [Reader.takeEach, List.foldl_nil, readLoop, if_neg hgo, hline, if_neg hbuffer]
        | some r =>
            obtain ⟨line, rest⟩ := r
            obtain ⟨hsplit, hlen⟩ := splitLines_of_memchrLine hline
            rw [hsplit]
            simp only [Reader.takeEach, List.foldl_cons, readLoop, if_neg hgo, hline]
            rw [Reader.takeOne]
            dsimp only
            cases hfeed : s.reader.feed line with
            | none =>
                have : Reader.takeEach parser (s.reader, none) (splitLines rest).1 = _ :=
                  Reader.takeEach_none rfl _
                rw [Reader.takeEach] at this
                dsimp only
                rw [this]
                exact ⟨replies, rfl⟩
            | some reader =>
                dsimp only
                cases hget : reader.getReply parser with
                | mk reader' reply =>
                    cases reply with
                    | none =>
                        have : Reader.takeEach parser (reader', none) (splitLines rest).1 = _ :=
                          Reader.takeEach_none rfl _
                        rw [Reader.takeEach] at this
                        dsimp only
                        rw [this]
                        exact ⟨replies, rfl⟩
                    | some reply =>
                        exact ih (s := { s with reader := reader' }) (by omega) hquit

/-- A read keeps one read outstanding exactly when its chunk ends in a newline and the reader meets
no error; the replies are then those taken line by line. -/
lemma handleRead_outstanding {s : RedisSession} (hquit : s.quit = false) (hone : s.outstanding = 1)
    (bytes : Bytes) :
    ((s.handleRead parser bytes).1.outstanding = 1 ↔ (splitLines bytes).2 = [] ∧
      (Reader.takeEach parser (s.reader, some []) (splitLines bytes).1).2 ≠ none) ∧
    ((s.handleRead parser bytes).1.outstanding = 1 →
      Reader.takeEach parser (s.reader, some []) (splitLines bytes).1 =
        ((s.handleRead parser bytes).1.reader, some (s.handleRead parser bytes).2) ∧
      (s.handleRead parser bytes).1.quit = false) := by
  have hloop := @readLoop_eq _ parser _ { s with outstanding := s.outstanding - 1 } _ []
    (Nat.le_refl bytes.length) hquit
  dsimp only at hloop
  rw [handleRead]
  cases htake : Reader.takeEach parser (s.reader, some []) (splitLines bytes).1 with
  | mk reader out =>
      rw [htake] at hloop
      cases out with
      | none =>
          obtain ⟨out, hloop⟩ := hloop
          rw [hloop]
          simp [hone]
      | some out =>
          dsimp only at hloop
          rw [hloop]
          by_cases htail : (splitLines bytes).2 = [] <;> simp [htail, start, hquit, hone]

/-! ## All reads -/

/-- All reads of a session: each chunk is cut into lines, and the replies are taken line by
line. -/
lemma handleReads_iff {s : RedisSession} (hquit : s.quit = false) (hone : s.outstanding = 1)
    (chunks : List Bytes) (acc target : List ρ) :
    ((∀ r ∈ handleReads parser s chunks, r.1.outstanding = 1) ∧
      acc ++ (handleReads parser s chunks).flatMap Prod.snd = target) ↔
    (∀ chunk ∈ chunks, (splitLines chunk).2 = []) ∧
      (Reader.takeEach parser (s.reader, some acc)
        (chunks.flatMap fun chunk => (splitLines chunk).1)).2 = some target := by
  induction chunks generalizing s acc with
  | nil => simp [handleReads, Reader.takeEach]
  | cons chunk chunks ih =>
      obtain ⟨hiff, hread⟩ := @handleRead_outstanding _ parser _ hquit hone chunk
      rw [handleReads, List.flatMap_cons, List.flatMap_cons, Reader.takeEach_append,
        Reader.takeEach_some, List.forall_mem_cons, List.forall_mem_cons]
      by_cases hr : (s.handleRead parser chunk).1.outstanding = 1
      · obtain ⟨htake, hquit'⟩ := hread hr
        have := ih hquit' hr (acc ++ (s.handleRead parser chunk).2)
        rw [List.append_assoc] at this
        rw [htake, and_assoc, and_assoc, and_iff_right hr, and_iff_right (hiff.mp hr).1, this]
        rfl
      · refine iff_of_false (fun h => hr h.1.1) fun h => hr (hiff.mpr ⟨h.1.1, fun hnone => ?_⟩)
        rw [hnone] at h
        have := h.2
        rw [Reader.takeEach_none rfl] at this
        cases this

lemma splitLines_flatten_chunks {chunks : List Bytes}
    (h : ∀ chunk ∈ chunks, (splitLines chunk).2 = []) :
    splitLines chunks.flatten = (chunks.flatMap fun chunk => (splitLines chunk).1, []) := by
  induction chunks with
  | nil => rfl
  | cons chunk chunks ih =>
      obtain ⟨hchunk, hchunks⟩ := List.forall_mem_cons.mp h
      rw [List.flatten_cons, splitLines_append hchunk, ih hchunks]
      rfl

/-- **Reading in chunks.**  However the stream is cut, exactly one read is outstanding after each
`handle_read` and the replies are those of the whole stream, if and only if each chunk ends in a
newline and one reply per line keeps up with the stream. -/
theorem handleRead_iff (parser : IncrementalParser UInt8 ρ) (chunks : List Bytes)
    (hsize : ∀ chunk ∈ chunks, 1 ≤ chunk.length ∧ chunk.length ≤ receiveBufferSize) :
    ((∀ r ∈ handleReads parser (start {}) chunks, r.1.outstanding = 1) ∧
      (handleReads parser (start {}) chunks).flatMap Prod.snd = parser.replies chunks.flatten) ↔
    (∀ chunk ∈ chunks, chunk.getLast? = some newline) ∧
      parser.KeepsUp (splitLines chunks.flatten).1 := by
  have htails : (∀ chunk ∈ chunks, (splitLines chunk).2 = []) ↔
      ∀ chunk ∈ chunks, chunk.getLast? = some newline :=
    forall₂_congr fun chunk hchunk =>
      splitLines_snd_eq_nil (List.ne_nil_of_length_pos (hsize chunk hchunk).1)
  have hreads := @handleReads_iff _ parser (start {}) rfl rfl chunks []
    (parser.replies chunks.flatten)
  rw [List.nil_append] at hreads
  rw [hreads, ← htails]
  refine and_congr_right fun hchunks => ?_
  have hlines := splitLines_flatten_chunks hchunks
  have hflat := splitLines_flatten chunks.flatten
  rw [hlines, List.append_nil] at hflat
  rw [hlines, ← parser.takeEach_iff, hflat]
  rfl

end RedisSession

/-! ## Commands -/

/-- `REDIS_REPLY_STRING` and so on. -/
inductive ReplyType where
  | string | array | integer | nil | status | error
  deriving DecidableEq, Repr

structure ReplyElement where
  type : ReplyType
  str : Bytes
  deriving DecidableEq, Repr

/-- `redisReply`, to the depth that the session looks at. -/
structure RedisReply where
  type : ReplyType
  str : Bytes := []
  element : List ReplyElement := []
  deriving DecidableEq, Repr

/-- Where a machine for arrays of bulk strings stands. -/
inductive CommandState where
  | idle
  | count (n : Nat)
  | countEnd (n : Nat)
  /-- `k` elements are to come. -/
  | bulk (k : Nat) (element : List ReplyElement)
  | length (k : Nat) (element : List ReplyElement) (n : Nat)
  | lengthEnd (k : Nat) (element : List ReplyElement) (n : Nat)
  /-- `n` bytes of a string are to come, and two behind them. -/
  | body (k : Nat) (element : List ReplyElement) (n : Nat) (str : Bytes)
  | bodyEnd (k : Nat) (element : List ReplyElement) (str : Bytes)
  deriving DecidableEq, Repr

namespace CommandState

/-- Elements have been read; `k` are to come. -/
def elements (k : Nat) (element : List ReplyElement) : CommandState × List RedisReply :=
  if k = 0 then (idle, [{ type := ReplyType.array, element := element }]) else (bulk k element, [])

def digit (b : UInt8) : Option Nat :=
  if 48 ≤ b.toNat ∧ b.toNat ≤ 57 then some (b.toNat - 48) else none

def step (s : CommandState) (b : UInt8) : Option (CommandState × List RedisReply) :=
  match s with
  | idle => if b = 42 then some (count 0, []) else none
  | count n =>
      if b = 13 then some (countEnd n, [])
      else (digit b).map fun d => (count (n * 10 + d), [])
  | countEnd n => if b = newline then some (elements n []) else none
  | bulk k element => if b = 36 then some (length k element 0, []) else none
  | length k element n =>
      if b = 13 then some (lengthEnd k element n, [])
      else (digit b).map fun d => (length k element (n * 10 + d), [])
  | lengthEnd k element n => if b = newline then some (body k element n [], []) else none
  | body k element (n + 1) str => some (body k element n (str ++ [b]), [])
  | body k element 0 str => some (bodyEnd k element str, [])
  | bodyEnd k element str =>
      some (elements (k - 1) (element ++ [{ type := ReplyType.string, str := str }]))

end CommandState

/-- The part of the protocol in which clients send commands. -/
def commandParser : IncrementalParser UInt8 RedisReply :=
  ByteMachine.parser { State := CommandState, init := CommandState.idle, step := CommandState.step }

namespace RedisSession

/-- `*1`, `$4` and `PING`, each behind the other with carriage return and newline. -/
def pingCommand : Bytes := [42, 49, 13, 10, 36, 52, 13, 10, 80, 73, 78, 71, 13, 10]

def pingReply : RedisReply where
  type := ReplyType.array
  element := [{ type := ReplyType.string, str := [80, 73, 78, 71] }]

/-- A command that arrives in two reads, cut behind a line. -/
theorem handleRead_iff_ping :
    (∀ r ∈ handleReads commandParser (start {}) [pingCommand.take 4, pingCommand.drop 4],
        r.1.outstanding = 1) ∧
      (handleReads commandParser (start {}) [pingCommand.take 4, pingCommand.drop 4]).flatMap
        Prod.snd = commandParser.replies pingCommand :=
  (handleRead_iff commandParser [pingCommand.take 4, pingCommand.drop 4] (by decide)).mpr
    ⟨by decide, commandParser.keepsUp_of_found_succ_le _ (by decide) (by decide)⟩

/-- A command that arrives in two reads, cut inside a line, is lost, and two reads are outstanding
after the first one. -/
theorem handleRead_loses_tail :
    commandParser.replies pingCommand = [pingReply] ∧
      (handleReads commandParser (start {}) [pingCommand.take 10, pingCommand.drop 10]).flatMap
        Prod.snd = [] ∧
      ¬ ∀ r ∈ handleReads commandParser (start {}) [pingCommand.take 10, pingCommand.drop 10],
        r.1.outstanding = 1 := by
  decide

end RedisSession

end RaftKv
