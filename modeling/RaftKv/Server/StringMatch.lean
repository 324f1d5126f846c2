import RaftKv.Raft.Proto

/-!
# Patterns of keys

`string_match_len` (`server/redis_store.cpp`), as it is called: case matters.  Behind its last byte
a pattern has the terminating zero, which is none of the special characters.  Every round of a loop
uses up a byte of the pattern, so the pattern's length bounds the rounds.
-/

namespace RaftKv

namespace StringMatch

/-- A byte as the source's `char`. -/
def char (b : UInt8) : Int := if b.toNat < 128 then b.toNat else b.toNat - 256

/-- `c` lies between two characters, whichever is the smaller one. -/
def inRange (a b c : UInt8) : Bool :=
  decide (min (char a) (char b) ≤ char c) && decide (char c ≤ max (char a) (char b))

/-- The loop over a character class, behind `[` and `^`, for the character `c`: whether a member
matches, and the pattern behind the class. -/
def classLoop (c : UInt8) : Nat → Bool → Bytes → Bool × Bytes
  | 0, found, p => (found, p)
  | _ + 1, found, [] => (found, [])
  | fuel + 1, found, 92 :: b :: p => classLoop c fuel (found || b = c) p
  | _ + 1, found, 93 :: p => (found, p)
  | fuel + 1, found, a :: 45 :: b :: p => classLoop c fuel (found || inRange a b c) p
  | fuel + 1, found, a :: p => classLoop c fuel (found || a = c) p

/-- One round of the outer loop for a pattern that does not start with a star: the pattern behind
the character, unless it does not match. -/
def matchOne (c : UInt8) : Bytes → Option Bytes
  | [] => none
  | 63 :: p => some p
  | 91 :: p =>
      let negated := p.head? = some 94
      let r := classLoop c p.length false (if negated then p.drop 1 else p)
      if r.1 = decide negated then none else some r.2
  | 92 :: b :: p => if b = c then some p else none
  | a :: p => if a = c then some p else none

def matchLoop : Nat → Bytes → Bytes → Bool
  | 0, p, s => p.isEmpty && s.isEmpty
  | _ + 1, [], s => s.isEmpty
  | _ + 1, _ :: _, [] => false
  | fuel + 1, 42 :: p, s =>
      match p.dropWhile (· = 42) with
      | [] => true
      | p => (List.range s.length).any fun i => matchLoop fuel p (s.drop i)
  | fuel + 1, p, c :: s =>
      match matchOne c p with
      | none => false
      | some p => if s = [] then (p.dropWhile (· = 42)).isEmpty else matchLoop fuel p s

end StringMatch

def stringMatchLen (pattern string : Bytes) : Bool :=
  StringMatch.matchLoop pattern.length pattern string

example : stringMatchLen [107, 91, 97, 45, 99, 93, 42] [107, 98, 120] = true := by decide

end RaftKv
