import Mathlib.Data.List.Infix
import Mathlib.Data.Set.Basic
import Mathlib.Logic.Function.Basic
import Mathlib.Logic.Relation
import Mathlib.Tactic.Lemma

/-!
# Leader-based log replication, abstractly

Nodes elect at most one leader a term, leaders append to their own log, the others take over
prefixes of a leader's log, and what a quorum has acknowledged is committed.  Nothing here knows
of messages: what a message may claim is a fact about the `World`, which records history as well.

* `Setting` — what is fixed: how entries carry terms, what a quorum is, the initial log.
* `World` — the nodes' terms, logs and commit indexes, and the records of ballots, candidacies,
  leaders and acknowledgements, for every node and every term.
* `Step` — what a single node can do.
* `World.Later` — what no step ever undoes, so that a claim about the past stays true.
-/

namespace Replication

variable {Id Ent : Type}

/-- Entries carry terms, any two quorums meet, and every node starts with the log `boot`, whose
entries are of the term `term₀`. -/
structure Setting (Id Ent : Type) where
  termOf : Ent → Nat
  Quorum : Set Id → Prop
  quorum_mono : ∀ {A B}, A ⊆ B → Quorum A → Quorum B
  quorum_inter : ∀ {A B}, Quorum A → Quorum B → ∃ i, i ∈ A ∧ i ∈ B
  quorum_univ : Quorum Set.univ
  term₀ : Nat
  boot : List Ent
  boot_term : ∀ e ∈ boot, termOf e = term₀

/-- A vote: for whom, with which log in hand, and whether the voter had not yet acknowledged
anything to a leader of that term. -/
structure Ballot (Id Ent : Type) where
  choice : Id
  log : List Ent
  fresh : Bool

/-- The state of all nodes, and the record of what they did in each term. -/
structure World (Id Ent : Type) where
  term : Id → Nat
  log : Id → List Ent
  commit : Id → Nat
  /-- The vote of a node in a term. -/
  ballot : Id → Nat → Option (Ballot Id Ent)
  /-- The log a node stood for election with. -/
  cand : Id → Nat → Option (List Ent)
  lead : Nat → Option Id
  /-- The log the leader of a term was elected with. -/
  start : Nat → List Ent
  /-- The log of the leader of a term, as long as it ever was in that term. -/
  llog : Nat → List Ent
  /-- How much of `llog t` a node has acknowledged in term `t`. -/
  ack : Id → Nat → Nat

/-- The term of the last entry, 0 for the empty log. -/
def Setting.lastTerm (S : Setting Id Ent) (ℓ : List Ent) : Nat :=
  (ℓ.getLast?.map S.termOf).getD 0

/-- A candidate's log `c` is at least as up to date as `ℓ`. -/
def Setting.UpToDate (S : Setting Id Ent) (c ℓ : List Ent) : Prop :=
  S.lastTerm ℓ < S.lastTerm c ∨ S.lastTerm ℓ = S.lastTerm c ∧ ℓ.length ≤ c.length

namespace World

/-- The first `k` entries of the leader's log of term `t` are committed for good: the last of them
is of term `t` itself, and a quorum has acknowledged them. -/
def Certified (S : Setting Id Ent) (w : World Id Ent) (t k : Nat) : Prop :=
  0 < k ∧ (∃ e, (w.llog t)[k - 1]? = some e ∧ S.termOf e = t) ∧ S.Quorum {i | k ≤ w.ack i t}

/-- `ℓ` is part of what was committed in term `t` or before. -/
def Committed (S : Setting Id Ent) (w : World Id Ent) (t : Nat) (ℓ : List Ent) : Prop :=
  ℓ = [] ∨ ∃ s ≤ t, ∃ k, w.Certified S s k ∧ ℓ <+: (w.llog s).take k

end World

section Steps

variable [DecidableEq Id]

/-- Write one cell of a table of nodes and terms. -/
def setAt {β : Type} (f : Id → Nat → β) (i : Id) (t : Nat) (b : β) : Id → Nat → β :=
  fun j s => if j = i ∧ s = t then b else f j s

@[simp] theorem setAt_self {β : Type} (f : Id → Nat → β) (i : Id) (t : Nat) (b : β) :
    setAt f i t b i t = b := by simp [setAt]

theorem setAt_of_ne_node {β : Type} (f : Id → Nat → β) {i j : Id} (t s : Nat) (b : β)
    (h : j ≠ i) : setAt f i t b j s = f j s := by simp [setAt, h]

/-- What node `i` can do. -/
inductive Step (S : Setting Id Ent) (i : Id) (w : World Id Ent) : World Id Ent → Prop
  /-- Move to a higher term. -/
  | adopt (t : Nat) (hterm : w.term i < t) :
      Step S i w { w with term := Function.update w.term i t }
  /-- Move to the next term, stand for election and vote for itself. -/
  | stand :
      Step S i w { w with
        term := Function.update w.term i (w.term i + 1)
        ballot := setAt w.ballot i (w.term i + 1) (some ⟨i, w.log i, true⟩)
        cand := setAt w.cand i (w.term i + 1) (some (w.log i)) }
  /-- Vote for a candidate whose log is up to date. -/
  | vote (c : Id) (ℓ : List Ent) (hcand : w.cand c (w.term i) = some ℓ)
      (hnone : w.ballot i (w.term i) = none) (hup : S.UpToDate ℓ (w.log i)) :
      Step S i w { w with
        ballot := setAt w.ballot i (w.term i)
          (some ⟨c, w.log i, decide (w.ack i (w.term i) = 0)⟩) }
  /-- Become the leader, with the log of the candidacy. -/
  | win (hcand : w.cand i (w.term i) = some (w.log i)) (hlead : w.lead (w.term i) = none)
      (hvotes : S.Quorum {j | ∃ b, w.ballot j (w.term i) = some b ∧ b.choice = i}) :
      Step S i w { w with
        lead := Function.update w.lead (w.term i) (some i)
        start := Function.update w.start (w.term i) (w.log i)
        llog := Function.update w.llog (w.term i) (w.log i)
        ack := setAt w.ack i (w.term i) (w.log i).length }
  /-- Append entries of the own term to the own log. -/
  | extend (es : List Ent) (hlead : w.lead (w.term i) = some i)
      (hes : ∀ e ∈ es, S.termOf e = w.term i) :
      Step S i w { w with
        log := Function.update w.log i (w.log i ++ es)
        llog := Function.update w.llog (w.term i) (w.log i ++ es)
        ack := setAt w.ack i (w.term i) (w.log i ++ es).length }
  /-- Take over and acknowledge the first `m` entries of the leader's log, dropping the own ones
  if they conflict. -/
  | accept (l : Id) (m : Nat) (log : List Ent) (hlead : w.lead (w.term i) = some l) (hne : l ≠ i)
      (hm : m ≤ (w.llog (w.term i)).length) (hcommit : w.commit i ≤ m)
      (hlog : log = w.log i ∧ (w.llog (w.term i)).take m <+: w.log i ∨
        log = (w.llog (w.term i)).take m ∧ ¬ (w.llog (w.term i)).take m <+: w.log i) :
      Step S i w { w with
        log := Function.update w.log i log
        ack := setAt w.ack i (w.term i) (max (w.ack i (w.term i)) m) }
  /-- Acknowledge the committed entries. -/
  | ackCommit (l : Id) (hlead : w.lead (w.term i) = some l) :
      Step S i w { w with
        ack := setAt w.ack i (w.term i) (max (w.ack i (w.term i)) (w.commit i)) }
  /-- As leader, commit what a quorum has acknowledged, if it ends in an own entry. -/
  | commitLead (k : Nat) (hlead : w.lead (w.term i) = some i) (hk : w.Certified S (w.term i) k)
      (hlt : w.commit i < k) :
      Step S i w { w with commit := Function.update w.commit i k }
  /-- Commit what was acknowledged in this term and is committed elsewhere. -/
  | commitFollow (k : Nat) (hk : k ≤ w.ack i (w.term i))
      (hcomm : w.Committed S (w.term i) ((w.llog (w.term i)).take k)) (hlt : w.commit i < k) :
      Step S i w { w with commit := Function.update w.commit i k }

/-- Any number of steps of node `i`. -/
abbrev Steps (S : Setting Id Ent) (i : Id) : World Id Ent → World Id Ent → Prop :=
  Relation.ReflTransGen (Step S i)

end Steps

end Replication
