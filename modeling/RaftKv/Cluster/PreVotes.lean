import RaftKv.Cluster.Cluster
import RaftKv.Cluster.Reads
import RaftKv.Driver.Candidacies

/-!
# Pre-votes in a cluster

The cluster of `Fleet`, where it is recorded which pre-candidacy of its sender a request for a
pre-vote belongs to, and which request was granted by whom.  Messages do not carry this; neither do the
nodes know it.

* `Canvass.act` — what can happen, and what is recorded of it.
* `Canvass.Backed` — a term is raised with the pre-votes of a quorum of voters.
* `Canvass.Proper` — a pre-candidate only counts the answers to the pre-votes it has asked for since it
  became one.
* `Canvass.prevotes_gate` — **in every run of proper actions every raised term is backed**.
* `Canvass.vote_counted` — an answer to a real vote, counted as a pre-vote.
-/

namespace RaftKv

open Raft

/-- A pre-vote that was granted, and in which of its pre-candidacies the candidate had asked for it. -/
structure Grant where
  voter : Nat
  candidate : Nat
  term : Nat
  round : Nat
  deriving DecidableEq, Repr

/-- A cluster, with a record of its pre-votes. -/
structure Canvass where
  fleet : Fleet := {}
  /-- How often each node became a pre-candidate. -/
  rounds : Nat → Nat := fun _ => 0
  /-- Which pre-candidacies the messages in the queue of each node go back to. -/
  queued : Nat → List (Option Nat) := fun _ => []
  /-- The same for the messages of the network. -/
  sent : List (Option Nat) := []
  grants : List Grant := []

namespace Canvass

/-- The call makes the node a pre-candidate, which asks for pre-votes. -/
def Asks (c : Call) (r r' : Raft) : Prop :=
  c.hups = true ∧ r'.state = RaftState.preCandidate ∧ r.msgs.length < r'.msgs.length

instance (c : Call) (r r' : Raft) : Decidable (Asks c r r') := inferInstanceAs (Decidable (_ ∧ _))

/-- A request for a pre-vote goes back to the current pre-candidacy, and an answer to that of the
request. -/
def originOf (round : Nat) (origin : Option Nat) (x : Message) : Option Nat :=
  match x.type with
  | MessageType.msgPreVote => some round
  | MessageType.msgPreVoteResp => origin
  | _ => none

/-- The pre-vote that an answer grants. -/
def grantOf (origin : Option Nat) (x : Message) : Option Grant :=
  if x.type = MessageType.msgPreVoteResp ∧ x.reject = false then
    origin.map fun round =>
      { voter := x.fromId, candidate := x.toId, term := x.term, round := round }
  else none

/-- Record what a call of node `i` has done; `origin` is the pre-candidacy that its message goes back
to.  Messages enter the queue at its end and leave it from its front. -/
def record (w : Canvass) (i : Nat) (c : Call) (origin : Option Nat) (d d' : Driver)
    (fleet : Fleet) : Canvass :=
  let round := if Asks c d.node.raft d'.node.raft then w.rounds i + 1 else w.rounds i
  let handed := (d'.handed.drop d.handed.length).flatMap Ready.messages
  let fresh := d'.node.raft.msgs.drop (d.node.raft.msgs.length - handed.length)
  { fleet := fleet
    rounds := Function.update w.rounds i round
    queued := Function.update w.queued i
      ((w.queued i).drop handed.length ++ fresh.map (originOf round origin))
    sent := w.sent ++ (w.queued i).take handed.length
    grants := w.grants ++ fresh.filterMap (grantOf origin) }

def onDriver (w : Canvass) (i : Nat) (c : Call) (origin : Option Nat) (fleet : Fleet) : Canvass :=
  match w.fleet.nodes i, fleet.nodes i with
  | some d, some d' => w.record i c origin d d' fleet
  | _, _ => { w with fleet := fleet }

/-- The pre-candidacy that the `k`-th message of the network goes back to. -/
def origin (w : Canvass) (k : Nat) : Option Nat := w.sent[k]?.getD none

/-- What can happen is what can happen in the cluster; a process starts with an empty queue. -/
def act (pack : ConfChange → Bytes) (w : Canvass) (a : Fleet.Action) : Outcome Canvass := do
  let fleet ← w.fleet.act pack a
  match a with
  | Fleet.Action.boot conf _ =>
      return { w with fleet := fleet, queued := Function.update w.queued conf.id [] }
  | Fleet.Action.call _ (Call.step _) => return { w with fleet := fleet }
  | Fleet.Action.call i c => return w.onDriver i c none fleet
  | Fleet.Action.deliver k =>
      match w.fleet.net[k]? with
      | none => return { w with fleet := fleet }
      | some m => return w.onDriver m.toId (Call.step m) (w.origin k) fleet

/-- Every node uses the pre-vote, and no leadership is transferred. -/
def Permitted : Fleet.Action → Prop
  | Fleet.Action.boot conf _ => conf.preVote = true
  | Fleet.Action.call _ (Call.transferLeadership _ _) => False
  | _ => True

instance : (a : Fleet.Action) → Decidable (Permitted a)
  | Fleet.Action.boot conf _ => inferInstanceAs (Decidable (conf.preVote = true))
  | Fleet.Action.call _ (Call.transferLeadership _ _) => inferInstanceAs (Decidable False)
  | Fleet.Action.deliver _ => inferInstanceAs (Decidable True)
  | Fleet.Action.call _ Call.tick | Fleet.Action.call _ Call.campaign
  | Fleet.Action.call _ (Call.propose _) | Fleet.Action.call _ (Call.proposeConfChange _)
  | Fleet.Action.call _ (Call.step _) | Fleet.Action.call _ (Call.applyConfChange _)
  | Fleet.Action.call _ (Call.readIndex _) | Fleet.Action.call _ (Call.reportUnreachable _)
  | Fleet.Action.call _ (Call.reportSnapshot _ _) | Fleet.Action.call _ Call.ready
  | Fleet.Action.call _ Call.store | Fleet.Action.call _ Call.advance =>
      inferInstanceAs (Decidable True)

/-- The pre-candidate counts the message as one more vote. -/
def Gains (r : Raft) (m : Message) : Prop :=
  r.getProgress m.fromId ≠ none ∧ r.Counts m ∧ m.reject = false ∧ m.fromId ∉ r.votes

instance (r : Raft) (m : Message) : Decidable (Gains r m) := inferInstanceAs (Decidable (_ ∧ _))

/-- A vote that a pre-candidate gains is the answer of a voter to a pre-vote of this pre-candidacy; a
node that is no voter is not told to campaign, and no voter is removed whose pre-vote counts. -/
def Proper (w : Canvass) : Fleet.Action → Prop
  | Fleet.Action.boot _ _ => True
  | Fleet.Action.call i c => ∀ d ∈ w.fleet.nodes i,
      (c = Call.campaign → c.Eligible d.node) ∧ ¬ c.Disowns d.node.raft
  | Fleet.Action.deliver k => ∀ m ∈ w.fleet.net[k]?, ∀ d ∈ w.fleet.nodes m.toId,
      Gains d.node.raft m → m.type = MessageType.msgPreVoteResp ∧
        w.origin k = some (w.rounds m.toId) ∧ m.fromId ∈ d.node.raft.prs

instance (w : Canvass) : (a : Fleet.Action) → Decidable (w.Proper a)
  | Fleet.Action.boot _ _ => inferInstanceAs (Decidable True)
  | Fleet.Action.call i c => inferInstanceAs (Decidable (∀ d ∈ w.fleet.nodes i,
      (c = Call.campaign → c.Eligible d.node) ∧ ¬ c.Disowns d.node.raft))
  | Fleet.Action.deliver k => inferInstanceAs (Decidable (∀ m ∈ w.fleet.net[k]?,
      ∀ d ∈ w.fleet.nodes m.toId, Gains d.node.raft m → m.type = MessageType.msgPreVoteResp ∧
        w.origin k = some (w.rounds m.toId) ∧ m.fromId ∈ d.node.raft.prs))

/-- Node `i` is in a term that it has raised itself by the last action. -/
structure Raises (w w' : Canvass) (i : Nat) (d d' : Driver) : Prop where
  before : w.fleet.nodes i = some d
  after : w'.fleet.nodes i = some d'
  term : d'.node.raft.term ≠ d.node.raft.term
  role : d'.node.raft.state ≠ RaftState.follower

/-- It has raised its term by one, and a quorum of voters, itself among them, has granted it a pre-vote
for the new term since it became a pre-candidate. -/
def Backed (w : Canvass) (i : Nat) (d d' : Driver) : Prop :=
  d'.node.raft.term = d.node.raft.term + 1 ∧
  ∃ Q : Finset Nat, (∀ j ∈ Q, j ∈ d.node.raft.prs) ∧ i ∈ Q ∧ d.node.raft.quorum ≤ Q.card ∧
    ∀ j ∈ Q, j = i ∨
      { voter := j, candidate := i, term := d.node.raft.term + 1, round := w.rounds i : Grant } ∈
        w.grants

/-! ## What holds in every run -/

/-- What was asked or granted in the current pre-candidacy of a node is about the next term. -/
structure Current (w : Canvass) (i round term : Nat) : Prop where
  le : round ≤ w.rounds i
  term : round = w.rounds i → ∀ d, w.fleet.nodes i = some d →
    d.node.raft.state = RaftState.preCandidate → term = d.node.raft.term + 1

/-- A message and the pre-candidacy that it goes back to. -/
structure Mail (w : Canvass) (x : Message) (origin : Option Nat) : Prop where
  fromId : x.fromId ≠ 0
  timeoutNow : x.type ≠ MessageType.msgTimeoutNow
  transfer : x.type ≠ MessageType.msgTransferLeader
  request : x.type = MessageType.msgPreVote → ∀ round, origin = some round →
    w.Current x.fromId round x.term
  answer : x.type = MessageType.msgPreVoteResp → x.reject = false → ∀ round, origin = some round →
    { voter := x.fromId, candidate := x.toId, term := x.term, round := round : Grant } ∈ w.grants

/-- A node that uses the pre-vote and transfers no leadership, with its queue. -/
structure Seated (i : Nat) (r : Raft) (queue : List (Option Nat)) : Prop where
  id : r.id = i
  nonzero : i ≠ 0
  preVote : r.preVote = true
  leadTransferee : r.leadTransferee = 0
  queue : queue.length = r.msgs.length

/-- The votes that a pre-candidate counts are its own, and those granted in this pre-candidacy. -/
structure Polled (w : Canvass) (i : Nat) (r : Raft) : Prop where
  own : r.votes.lookup i = some true
  granted : ∀ j, r.votes.lookup j = some true → j ∈ r.prs ∧ (j = i ∨
    { voter := j, candidate := i, term := r.term + 1, round := w.rounds i : Grant } ∈ w.grants)

/-- The record is true. -/
structure Tallied (w : Canvass) : Prop where
  seated : ∀ i d, w.fleet.nodes i = some d → Seated i d.node.raft (w.queued i)
  sent : w.sent.length = w.fleet.net.length
  queue : ∀ i d, w.fleet.nodes i = some d → ∀ x origin,
    (x, origin) ∈ d.node.raft.msgs.zip (w.queued i) → w.Mail x origin
  net : ∀ x origin, (x, origin) ∈ w.fleet.net.zip w.sent → w.Mail x origin
  grants : ∀ g ∈ w.grants, w.Current g.candidate g.round g.term
  polled : ∀ i d, w.fleet.nodes i = some d → d.node.raft.state = RaftState.preCandidate →
    w.Polled i d.node.raft

variable {pack : ConfChange → Bytes} {w w' : Canvass} {i : Nat} {c : Call} {d d' : Driver}
  {r r' : Raft} {origin : Option Nat} {fleet : Fleet}

/-! ## One course -/

lemma not_asks_of_state (h : r'.state ≠ RaftState.preCandidate) : ¬ Asks c r r' :=
  fun hasks => h hasks.2.1

/-- A node that is a pre-candidate has just become one, or was one before, in the same term. -/
lemma asks_or_stays (h : Driver.Course c r r') : Asks c r r' ∨ ¬ Asks c r r' ∧
    (r'.state = RaftState.preCandidate →
      r.state = RaftState.preCandidate ∧ r'.term = r.term) := by
  cases h with
  | keeps h hquiet =>
      refine Or.inr ⟨fun hasks => ?_, fun hpre => ?_⟩
      · have hmsgs := hquiet hasks.1 hasks.2.1
        have hmore := hasks.2.2
        rw [hmsgs] at hmore
        exact absurd hmore (Nat.lt_irrefl _)
      · rcases h.role with hfollower | ⟨-, hterm, hstays⟩
        · rw [hfollower] at hpre
          cases hpre
        · exact ⟨(hstays hpre).1, hterm⟩
  | prepared hc hvoter h => exact Or.inl ⟨hc, h.state, h.asks⟩
  | counted hc hknown hcounts h =>
      subst hc
      subst h
      exact Or.inr ⟨fun hasks => (by cases hasks.1), fun hpre => ⟨hcounts.1, rfl⟩⟩
  | alone _ _ _ h | won _ _ _ _ h =>
      have hne : r'.state ≠ RaftState.preCandidate := by
        rcases h.state with hs | hs <;> rw [hs] <;> exact RaftState.noConfusion
      exact Or.inr ⟨not_asks_of_state hne, fun hpre => absurd hpre hne⟩

lemma term_of_preCandidate (h : Driver.Course c r r') (hpre : r'.state = RaftState.preCandidate) :
    r'.term = r.term := by
  cases h with
  | keeps h _ =>
      rcases h.role with hfollower | ⟨-, hterm, -⟩
      · rw [hfollower] at hpre
        cases hpre
      · exact hterm
  | prepared _ _ h => exact h.term
  | counted _ _ _ h =>
      rw [h]
      rfl
  | alone _ _ _ h | won _ _ _ _ h =>
      rcases h.state with hs | hs <;> rw [hs] at hpre <;> cases hpre

/-! ## Votes -/

/-- A pre-candidate counts one more vote, which backs it, or an answer that changes nothing. -/
lemma Polled.poll (h : w.Polled i r) {id : Nat} {granted : Bool}
    (hnew : granted = true → id ∉ r.votes → id ∈ r.prs ∧
      { voter := id, candidate := i, term := r.term + 1, round := w.rounds i : Grant } ∈ w.grants) :
    w.Polled i (r.poll id granted).1 := by
  by_cases hold : id ∈ r.votes
  · have hsame : (r.poll id granted).1 = r := by
      simp only [Raft.poll, if_pos hold]
    rw [hsame]
    exact h
  have hvotes : (r.poll id granted).1.votes = r.votes.insert id granted := by
    simp only [Raft.poll, if_neg hold]
  refine ⟨?_, fun j hj => ?_⟩
  · rw [hvotes, AList.lookup_insert_ne]
    · exact h.own
    · rintro rfl
      exact hold (AList.lookup_isSome.mp (by rw [h.own]; rfl))
  · rw [hvotes] at hj
    by_cases hji : j = id
    · subst hji
      rw [AList.lookup_insert, Option.some.injEq] at hj
      exact ⟨(hnew hj hold).1, Or.inr (hnew hj hold).2⟩
    · rw [AList.lookup_insert_ne hji] at hj
      exact h.granted j hj

/-- The votes of a pre-candidate that has a quorum of them. -/
lemma Polled.quorum (h : w.Polled i r) (hquorum : r.quorum = r.grantedVotes) :
    ∃ Q : Finset Nat, (∀ j ∈ Q, j ∈ r.prs) ∧ i ∈ Q ∧ r.quorum ≤ Q.card ∧
      ∀ j ∈ Q, j = i ∨
        { voter := j, candidate := i, term := r.term + 1, round := w.rounds i : Grant } ∈
          w.grants := by
  let voters := (r.votes.entries.filter fun e => e.2).map Sigma.fst
  have hmem : ∀ j, j ∈ voters ↔ r.votes.lookup j = some true := by
    intro j
    simp only [voters, List.mem_map, List.mem_filter]
    constructor
    · rintro ⟨e, ⟨he, htrue⟩, rfl⟩
      rw [← htrue]
      exact AList.mem_lookup_iff.mpr he
    · intro hj
      exact ⟨⟨j, true⟩, ⟨AList.mem_lookup_iff.mp hj, rfl⟩, rfl⟩
  have hnodup : voters.Nodup := by
    have hkeys : r.votes.keys.Nodup := r.votes.keys_nodup
    exact (List.Sublist.map Sigma.fst List.filter_sublist).nodup hkeys
  refine ⟨voters.toFinset, fun j hj => ?_, ?_, ?_, fun j hj => ?_⟩
  · exact (h.granted j ((hmem j).mp (List.mem_toFinset.mp hj))).1
  · exact List.mem_toFinset.mpr ((hmem i).mpr h.own)
  · rw [List.toFinset_card_of_nodup hnodup, List.length_map, ← List.countP_eq_length_filter, hquorum]
    exact Nat.le_refl _
  · exact (h.granted j ((hmem j).mp (List.mem_toFinset.mp hj))).2

lemma zip_map_self {α β : Type} (f : α → β) (xs : List α) :
    xs.zip (xs.map f) = xs.map fun x => (x, f x) := by
  induction xs with
  | nil => rfl
  | cons x xs ih => rw [List.map_cons, List.zip_cons_cons, ih, List.map_cons]

/-! ## One call -/

section

variable (hseat : Seated i d.node.raft (w.queued i)) (hact : d.act pack c = Except.ok d')

/-- The round that node `i` is in after the call. -/
def roundAfter (w : Canvass) (i : Nat) (c : Call) (r r' : Raft) : Nat :=
  if Asks c r r' then w.rounds i + 1 else w.rounds i

include hseat hact

variable (origin) (fleet) in
/-- The call has put messages into the queue, or has taken all of them out of it. -/
lemma record_cases :
    (∃ sent, Outbox (c.stepped pack d.node) d.node.raft d'.node.raft ∧ d'.handed = d.handed ∧
      d'.node.raft.msgs = d.node.raft.msgs ++ sent ∧
      (∀ x ∈ sent, Queued (c.stepped pack d.node) d.node.raft x ∧
        (x.type = MessageType.msgPreVote → d'.node.raft.state ≠ RaftState.follower →
          d'.node.raft.term = d.node.raft.term → x.term = d.node.raft.term + 1)) ∧
      w.record i c origin d d' fleet =
        { fleet := fleet
          rounds := Function.update w.rounds i (w.roundAfter i c d.node.raft d'.node.raft)
          queued := Function.update w.queued i (w.queued i ++
            sent.map (originOf (w.roundAfter i c d.node.raft d'.node.raft) origin))
          sent := w.sent
          grants := w.grants ++ sent.filterMap (grantOf origin) }) ∨
    (Driver.Emptied d d' ∧
      (d'.handed.drop d.handed.length).flatMap Ready.messages = d.node.raft.msgs ∧
      w.record i c origin d d' fleet =
        { fleet := fleet
          rounds := Function.update w.rounds i (w.roundAfter i c d.node.raft d'.node.raft)
          queued := Function.update w.queued i []
          sent := w.sent ++ w.queued i
          grants := w.grants }) := by
  rcases Driver.act_outbox hact with ⟨hbox, hhanded⟩ | hempty
  · obtain ⟨sent, hmsgs, hsent⟩ := hbox.queued
    refine Or.inl ⟨sent, hbox, hhanded, hmsgs, hsent, ?_⟩
    have hnone : (d'.handed.drop d.handed.length).flatMap Ready.messages = [] := by
      rw [hhanded, List.drop_length]
      rfl
    have hfresh : d'.node.raft.msgs.drop (d.node.raft.msgs.length - 0) = sent := by
      rw [hmsgs, Nat.sub_zero, List.drop_left]
    simp only [record, hnone, List.length_nil, hfresh, List.drop_zero, List.take_zero,
      List.append_nil, roundAfter]
  · obtain ⟨rd, hhanded, hmessages⟩ := hempty.handed
    have hall : (d'.handed.drop d.handed.length).flatMap Ready.messages = d.node.raft.msgs := by
      rw [hhanded, List.drop_left, List.flatMap_singleton, hmessages]
    refine Or.inr ⟨hempty, hall, ?_⟩
    simp only [record, hall, hempty.msgs, ← hseat.queue, List.drop_length, List.take_length,
      List.drop_nil, List.map_nil, List.filterMap_nil, List.append_nil, roundAfter]

end

/-- A call has nothing to do with a leadership transfer. -/
lemma not_transfers (pack : ConfChange → Bytes) (hseat : Seated i d.node.raft (w.queued i))
    (htransfer : ∀ lead transferee, c ≠ Call.transferLeadership lead transferee)
    (hmail : ∀ m, c = Call.step m → w.Mail m origin) :
    ¬ d.node.raft.Transfers (c.stepped pack d.node) := by
  rintro (htype | hne | ⟨htype, hfrom⟩)
  · cases c with
    | step m => exact (hmail m rfl).transfer htype
    | transferLeadership lead transferee => exact htransfer lead transferee rfl
    | _ => cases htype
  · exact hne hseat.leadTransferee
  · cases c with
    | step m => exact (hmail m rfl).fromId hfrom
    | _ => cases htype

/-- What was current before the call is so after it. -/
lemma Current.record (hd : w.fleet.nodes i = some d)
    (hcourse : Driver.Course c d.node.raft d'.node.raft)
    (hnodes : fleet.nodes = Function.update w.fleet.nodes i (some d')) {j round term : Nat}
    (h : w.Current j round term) : (w.record i c origin d d' fleet).Current j round term := by
  by_cases hj : j = i
  · subst hj
    have hrounds : (w.record j c origin d d' fleet).rounds j =
        w.roundAfter j c d.node.raft d'.node.raft := Function.update_self ..
    have hle := h.le
    rcases asks_or_stays hcourse with hasks | ⟨hasks, hstays⟩
    · rw [roundAfter, if_pos hasks] at hrounds
      exact ⟨by omega, fun heq => by omega⟩
    · rw [roundAfter, if_neg hasks] at hrounds
      refine ⟨by omega, fun heq e he hpre => ?_⟩
      have he : Function.update w.fleet.nodes j (some d') j = some e := hnodes ▸ he
      rw [Function.update_self, Option.some.injEq] at he
      subst he
      obtain ⟨hpre', hterm⟩ := hstays hpre
      rw [hterm]
      exact h.term (heq.trans hrounds) d hd hpre'
  · have hrounds : (w.record i c origin d d' fleet).rounds j = w.rounds j :=
      Function.update_of_ne hj ..
    refine ⟨hrounds ▸ h.le, fun heq e he => ?_⟩
    have he : Function.update w.fleet.nodes i (some d') j = some e := hnodes ▸ he
    rw [Function.update_of_ne hj] at he
    exact h.term (heq.trans hrounds) e he

/-- Grants stay. -/
lemma grants_record {g : Grant} (hg : g ∈ w.grants) :
    g ∈ (w.record i c origin d d' fleet).grants := List.mem_append_left _ hg

lemma Mail.record (hd : w.fleet.nodes i = some d)
    (hcourse : Driver.Course c d.node.raft d'.node.raft)
    (hnodes : fleet.nodes = Function.update w.fleet.nodes i (some d')) {x : Message}
    {o : Option Nat} (h : w.Mail x o) : (w.record i c origin d d' fleet).Mail x o :=
  ⟨h.fromId, h.timeoutNow, h.transfer,
    fun ht round ho => (h.request ht round ho).record hd hcourse hnodes,
    fun ht hr round ho => grants_record (h.answer ht hr round ho)⟩

/-- What the message that node `i` is given is known to be. -/
structure Given (w : Canvass) (i : Nat) (c : Call) (origin : Option Nat) (r : Raft) : Prop where
  mail : ∀ m, c = Call.step m → w.Mail m origin
  toId : ∀ m, c = Call.step m → m.toId = i
  transfer : ∀ lead transferee, c ≠ Call.transferLeadership lead transferee
  gains : ∀ m, c = Call.step m → Gains r m → m.type = MessageType.msgPreVoteResp ∧
    origin = some (w.rounds i) ∧ m.fromId ∈ r.prs

section

variable (h : w.Tallied) (hd : w.fleet.nodes i = some d) (hgiven : w.Given i c origin d.node.raft)
  (hact : d.act pack c = Except.ok d') (hcourse : Driver.Course c d.node.raft d'.node.raft)
  (hnodes : fleet.nodes = Function.update w.fleet.nodes i (some d'))

include h hd hgiven

/-- The vote that a pre-candidate gains was granted in its current pre-candidacy. -/
lemma gained {m : Message} (hc : c = Call.step m) (hgains : Gains d.node.raft m) :
    m.fromId ∈ d.node.raft.prs ∧
      { voter := m.fromId, candidate := i, term := d.node.raft.term + 1,
        round := w.rounds i : Grant } ∈ w.grants := by
  obtain ⟨htype, horigin, hvoter⟩ := hgiven.gains m hc hgains
  have hgrant := (hgiven.mail m hc).answer htype hgains.2.2.1 _ horigin
  have hterm := (h.grants _ hgrant).term
  rw [hgiven.toId m hc] at hgrant hterm
  have hterm : m.term = d.node.raft.term + 1 := hterm rfl d hd hgains.2.1.1
  rw [hterm] at hgrant
  exact ⟨hvoter, hgrant⟩

/-- The votes of a pre-candidate that counts an answer. -/
lemma polled_counted {m : Message} (hc : c = Call.step m)
    (hknown : d.node.raft.getProgress m.fromId ≠ none) (hcounts : d.node.raft.Counts m) :
    w.Polled i (d.node.raft.poll m.fromId (!m.reject)).1 := by
  refine (h.polled i d hd hcounts.1).poll fun hgranted hnew => ?_
  exact gained h hd hgiven hc ⟨hknown, hcounts, by simpa using hgranted, hnew⟩

/-- **A raised term is backed.** -/
theorem backed_of_course (hcourse : Driver.Course c d.node.raft d'.node.raft)
    (hterm : d'.node.raft.term ≠ d.node.raft.term)
    (hrole : d'.node.raft.state ≠ RaftState.follower) : w.Backed i d d' := by
  cases hcourse with
  | keeps hkeeps _ =>
      rcases hkeeps.role with hfollower | ⟨-, hsame, -⟩
      · exact absurd hfollower hrole
      · exact absurd hsame hterm
  | prepared _ _ hprepared => exact absurd hprepared.term hterm
  | counted _ _ _ heq =>
      rw [heq] at hterm
      exact absurd rfl hterm
  | alone _ hvoter hquorum hstood =>
      have hid := (h.seated i d hd).id
      refine ⟨hstood.term, {i}, fun j hj => ?_, Finset.mem_singleton_self i, ?_, fun j hj => ?_⟩
      · rw [Finset.mem_singleton.mp hj, ← hid]
        exact hvoter
      · rw [hquorum, Finset.card_singleton]
      · exact Or.inl (Finset.mem_singleton.mp hj)
  | won hc hknown hcounts hquorum hstood =>
      exact ⟨hstood.term, (polled_counted h hd hgiven hc hknown hcounts).quorum hquorum⟩

include hcourse hnodes

/-- The new messages. -/
lemma fresh_mail {sent : List Message}
    (hsent : ∀ x ∈ sent, Queued (c.stepped pack d.node) d.node.raft x ∧
      (x.type = MessageType.msgPreVote → d'.node.raft.state ≠ RaftState.follower →
        d'.node.raft.term = d.node.raft.term → x.term = d.node.raft.term + 1))
    (hgrants : ∀ x ∈ sent, ∀ g, grantOf origin x = some g →
      g ∈ (w.record i c origin d d' fleet).grants) {x : Message} (hx : x ∈ sent) :
    (w.record i c origin d d' fleet).Mail x
      (originOf (w.roundAfter i c d.node.raft d'.node.raft) origin x) := by
  have hseat := h.seated i d hd
  have hnot := not_transfers pack hseat hgiven.transfer hgiven.mail
  obtain ⟨hq, hrequest⟩ := hsent x hx
  have hfrom : x.fromId = i := hq.fromId.trans hseat.id
  refine ⟨hfrom ▸ hseat.nonzero, fun ht => hnot (hq.timeoutNow ht), fun ht => ?_, ?_, ?_⟩
  · exact hnot (Or.inl (hq.transfer ht))
  · intro ht round ho
    rw [originOf, ht, Option.some.injEq] at ho
    subst ho
    have hrounds : (w.record i c origin d d' fleet).rounds i =
        w.roundAfter i c d.node.raft d'.node.raft := Function.update_self ..
    rw [hfrom]
    refine ⟨hrounds.ge, fun _ e he hpre => ?_⟩
    have he : Function.update w.fleet.nodes i (some d') i = some e := hnodes ▸ he
    rw [Function.update_self, Option.some.injEq] at he
    subst he
    have hterm := term_of_preCandidate hcourse hpre
    rw [hterm]
    refine hrequest ht ?_ hterm
    rw [hpre]
    exact RaftState.noConfusion
  · intro ht hr round ho
    rw [originOf, ht] at ho
    dsimp only at ho
    refine hgrants x hx _ ?_
    rw [grantOf, if_pos ⟨ht, hr⟩, ho]
    rfl

omit h in
/-- A pre-vote is granted for what was asked. -/
lemma fresh_grant {sent : List Message}
    (hsent : ∀ x ∈ sent, Queued (c.stepped pack d.node) d.node.raft x) {g : Grant}
    (hg : g ∈ sent.filterMap (grantOf origin)) :
    (w.record i c origin d d' fleet).Current g.candidate g.round g.term := by
  obtain ⟨x, hx, hgrant⟩ := List.mem_filterMap.mp hg
  rw [grantOf] at hgrant
  split at hgrant
  · rename_i hanswer
    obtain ⟨round, horigin, rfl⟩ := Option.map_eq_some_iff.mp hgrant
    obtain ⟨htype, hto, hterm⟩ := (hsent x hx).granted hanswer.1 hanswer.2
    obtain ⟨m, rfl⟩ : ∃ m, c = Call.step m := by
      cases c with
      | step m => exact ⟨m, rfl⟩
      | _ => cases htype
    have hrequest := (hgiven.mail m rfl).request htype round horigin
    dsimp only
    rw [hto, hterm]
    exact hrequest.record hd hcourse hnodes
  · cases hgrant

omit hnodes in
/-- The votes of a pre-candidate after the call. -/
lemma polled_record (hpre : d'.node.raft.state = RaftState.preCandidate) :
    (w.record i c origin d d' fleet).Polled i d'.node.raft := by
  have hid := (h.seated i d hd).id
  have hlater : ∀ {r : Raft}, w.roundAfter i c d.node.raft d'.node.raft = w.rounds i →
      w.Polled i r → (w.record i c origin d d' fleet).Polled i r := by
    intro r hround hp
    refine ⟨hp.own, fun j hj => ⟨(hp.granted j hj).1, (hp.granted j hj).2.imp_right fun hg => ?_⟩⟩
    have hrounds : (w.record i c origin d d' fleet).rounds i = w.rounds i :=
      (Function.update_self ..).trans hround
    rw [hrounds]
    exact grants_record hg
  have hstays : ¬ Asks c d.node.raft d'.node.raft →
      w.roundAfter i c d.node.raft d'.node.raft = w.rounds i := fun hasks => if_neg hasks
  rcases hcourse with ⟨hkeeps, hquiet⟩ | ⟨-, hvoter, hprepared⟩ | ⟨-, -, -, hstood⟩ |
    ⟨hc, hknown, hcounts, heq⟩ | ⟨-, -, -, -, hstood⟩
  · rcases hkeeps.role with hfollower | ⟨-, hterm, hsame⟩
    · rw [hfollower] at hpre
      cases hpre
    obtain ⟨hpre', hvotes, hvoters⟩ := hsame hpre
    have hold := h.polled i d hd hpre'
    refine hlater (hstays fun hasks => ?_) ⟨hvotes ▸ hold.own, fun j hj => ?_⟩
    · have hmore := hasks.2.2
      rw [hquiet hasks.1 hpre] at hmore
      exact absurd hmore (Nat.lt_irrefl _)
    · rw [hvotes] at hj
      rw [hterm]
      exact ⟨hvoters j (hold.granted j hj).1 hj, (hold.granted j hj).2⟩
  · refine ⟨(hprepared.votes i).mpr hid.symm, fun j hj => ?_⟩
    have hj := (hprepared.votes j).mp hj
    rw [hprepared.prs]
    exact ⟨hj ▸ hvoter, Or.inl (hj.trans hid)⟩
  · rcases hstood.state with hs | hs <;> rw [hs] at hpre <;> cases hpre
  · have hround : w.roundAfter i c d.node.raft d'.node.raft = w.rounds i := by
      refine hstays fun hasks => ?_
      rw [hc] at hasks
      cases hasks.1
    have hpolled := hlater hround (polled_counted h hd hgiven hc hknown hcounts)
    rw [heq]
    exact hpolled
  · rcases hstood.state with hs | hs <;> rw [hs] at hpre <;> cases hpre

include hact

/-- **The record stays true.** -/
theorem record_tallied
    (hnet : fleet.net = w.fleet.net ++
      (d'.handed.drop d.handed.length).flatMap Ready.messages) :
    (w.record i c origin d d' fleet).Tallied := by
  have hseat := h.seated i d hd
  have hnot := not_transfers pack hseat hgiven.transfer hgiven.mail
  have hmail : ∀ {x o}, w.Mail x o → (w.record i c origin d d' fleet).Mail x o :=
    fun hm => hm.record hd hcourse hnodes
  have hcurrent : ∀ {j round term}, w.Current j round term →
      (w.record i c origin d d' fleet).Current j round term :=
    fun hc => hc.record hd hcourse hnodes
  have hnode : ∀ {j e}, (w.record i c origin d d' fleet).fleet.nodes j = some e →
      j = i ∧ e = d' ∨ j ≠ i ∧ w.fleet.nodes j = some e := by
    intro j e he
    have he : Function.update w.fleet.nodes i (some d') j = some e := hnodes ▸ he
    by_cases hj : j = i
    · rw [hj, Function.update_self, Option.some.injEq] at he
      exact Or.inl ⟨hj, he.symm⟩
    · rw [Function.update_of_ne hj] at he
      exact Or.inr ⟨hj, he⟩
  have hother : ∀ {j}, j ≠ i → (w.record i c origin d d' fleet).queued j = w.queued j :=
    fun hj => Function.update_of_ne hj ..
  have hpolled : ∀ j e, (w.record i c origin d d' fleet).fleet.nodes j = some e →
      e.node.raft.state = RaftState.preCandidate →
      (w.record i c origin d d' fleet).Polled j e.node.raft := by
    intro j e he hpre
    rcases hnode he with ⟨rfl, rfl⟩ | ⟨hj, he⟩
    · exact polled_record h hd hgiven hcourse hpre
    · have hold := h.polled j e he hpre
      have hrounds : (w.record i c origin d d' fleet).rounds j = w.rounds j :=
        Function.update_of_ne hj ..
      refine ⟨hold.own, fun a ha => ⟨(hold.granted a ha).1, (hold.granted a ha).2.imp_right ?_⟩⟩
      intro hg
      rw [hrounds]
      exact grants_record hg
  have hqueued : ∀ {j e x o}, j ≠ i → w.fleet.nodes j = some e →
      (x, o) ∈ e.node.raft.msgs.zip ((w.record i c origin d d' fleet).queued j) →
      (w.record i c origin d d' fleet).Mail x o := by
    intro j e x o hj he hx
    rw [hother hj] at hx
    exact hmail (h.queue j e he x o hx)
  rcases record_cases origin fleet hseat hact with
    ⟨sent, hbox, hhanded, hmsgs, hsent, hrecord⟩ | ⟨hempty, hall, hrecord⟩
  · have hgrants : (w.record i c origin d d' fleet).grants =
        w.grants ++ sent.filterMap (grantOf origin) := congrArg Canvass.grants hrecord
    have hsame : (w.record i c origin d d' fleet).sent = w.sent := by rw [hrecord]
    have hqueue : (w.record i c origin d d' fleet).queued i = w.queued i ++
        sent.map (originOf (w.roundAfter i c d.node.raft d'.node.raft) origin) :=
      (congrFun (congrArg Canvass.queued hrecord) i).trans (Function.update_self ..)
    have hnet' : (w.record i c origin d d' fleet).fleet.net = w.fleet.net := by
      rw [hhanded, List.drop_length, List.flatMap_nil, List.append_nil] at hnet
      exact hnet
    have hfresh : ∀ x ∈ sent, (w.record i c origin d d' fleet).Mail x
        (originOf (w.roundAfter i c d.node.raft d'.node.raft) origin x) := by
      refine fun x hx => fresh_mail h hd hgiven hcourse hnodes hsent (fun y hy g hg => ?_) hx
      rw [hgrants]
      exact List.mem_append_right _ (List.mem_filterMap.mpr ⟨y, hy, hg⟩)
    refine ⟨fun j e he => ?_, ?_, fun j e he x o hx => ?_, fun x o hx => ?_, fun g hg => ?_, hpolled⟩
    · rcases hnode he with ⟨rfl, rfl⟩ | ⟨hj, he⟩
      · refine ⟨hbox.id.trans hseat.id, hseat.nonzero, hbox.preVote.trans hseat.preVote,
          hbox.leadTransferee hnot, ?_⟩
        rw [hqueue, hmsgs, List.length_append, List.length_append, List.length_map, hseat.queue]
      · rw [hother hj]
        exact h.seated j e he
    · rw [hsame, hnet']
      exact h.sent
    · rcases hnode he with ⟨rfl, rfl⟩ | ⟨hj, he⟩
      · rw [hqueue, hmsgs, List.zip_append hseat.queue.symm] at hx
        rcases List.mem_append.mp hx with hx | hx
        · exact hmail (h.queue j d hd x o hx)
        · rw [zip_map_self] at hx
          obtain ⟨y, hy, heq⟩ := List.mem_map.mp hx
          cases heq
          exact hfresh _ hy
      · exact hqueued hj he hx
    · rw [hsame, hnet'] at hx
      exact hmail (h.net x o hx)
    · rw [hgrants] at hg
      rcases List.mem_append.mp hg with hg | hg
      · exact hcurrent (h.grants g hg)
      · exact fresh_grant hd hgiven hcourse hnodes (fun x hx => (hsent x hx).1) hg
  · -- the queue has moved into the network
    have hgrants : (w.record i c origin d d' fleet).grants = w.grants := by rw [hrecord]
    have hsent' : (w.record i c origin d d' fleet).sent = w.sent ++ w.queued i :=
      congrArg Canvass.sent hrecord
    have hqueue : (w.record i c origin d d' fleet).queued i = [] :=
      (congrFun (congrArg Canvass.queued hrecord) i).trans (Function.update_self ..)
    have hnet' : (w.record i c origin d d' fleet).fleet.net =
        w.fleet.net ++ d.node.raft.msgs := hnet.trans (by rw [hall])
    refine ⟨fun j e he => ?_, ?_, fun j e he x o hx => ?_, fun x o hx => ?_, fun g hg => ?_, hpolled⟩
    · rcases hnode he with ⟨rfl, rfl⟩ | ⟨hj, he⟩
      · refine ⟨hempty.id.trans hseat.id, hseat.nonzero, hempty.preVote.trans hseat.preVote,
          hempty.leadTransferee.trans hseat.leadTransferee, ?_⟩
        rw [hqueue, hempty.msgs]
        rfl
      · rw [hother hj]
        exact h.seated j e he
    · rw [hsent', hnet', List.length_append, List.length_append, h.sent, hseat.queue]
    · rcases hnode he with ⟨rfl, rfl⟩ | ⟨hj, he⟩
      · rw [hempty.msgs] at hx
        cases hx
      · exact hqueued hj he hx
    · rw [hsent', hnet', List.zip_append h.sent.symm] at hx
      rcases List.mem_append.mp hx with hx | hx
      · exact hmail (h.net x o hx)
      · exact hmail (h.queue i d hd x o hx)
    · rw [hgrants] at hg
      exact hcurrent (h.grants g hg)

end

/-! ## One action -/

/-- A node that has just been started. -/
structure Fresh (conf : Config) (r : Raft) : Prop where
  id : r.id = conf.id
  state : r.state = RaftState.follower
  msgs : r.msgs = []
  preVote : r.preVote = conf.preVote
  leadTransferee : r.leadTransferee = 0

namespace Fresh

variable {conf : Config}

lemma becomeFollower {term lead : Nat} (h : Fresh conf r) :
    Outcome.Ensures (Fresh conf) (r.becomeFollower term lead) := by
  intro r' hr'
  rw [becomeFollower_eq_ok hr']
  exact ⟨h.id, rfl, h.msgs, h.preVote, rfl⟩

lemma init : Outcome.Ensures (Fresh conf) (Raft.init conf) := by
  rw [Raft.init]
  dsimp only
  split
  · exact Outcome.Ensures.throw
  refine Outcome.Ensures.bind (Q := Fresh conf) ?_ fun r₁ h₁ => ?_
  · refine Outcome.Ensures.foldlM ⟨rfl, rfl, rfl, rfl, rfl⟩ fun s learner _ hs s' hs' => ?_
    rw [initLearner_frame hs']
    exact ⟨hs.id, hs.state, hs.msgs, hs.preVote, hs.leadTransferee⟩
  refine Outcome.Ensures.bind (Q := Fresh conf) ?_ fun r₂ h₂ => ?_
  · rw [restoreState]
    split
    · exact Outcome.Ensures.pure h₁
    · rw [loadState]
      split
      · exact Outcome.Ensures.throw
      · exact Outcome.Ensures.pure ⟨h₁.id, h₁.state, h₁.msgs, h₁.preVote, h₁.leadTransferee⟩
  · split
    · exact becomeFollower ⟨h₂.id, h₂.state, h₂.msgs, h₂.preVote, h₂.leadTransferee⟩
    · exact becomeFollower h₂

lemma regrouped (h : Fresh conf r) (hgroup : Regrouped r r') : Fresh conf r' := by
  obtain ⟨hid, hpre, hmsgs, -, htransferee⟩ := Driver.regrouped_frame hgroup
  have hledger := hgroup.ledger
  simp only [ledger, Prod.mk.injEq] at hledger
  exact ⟨hid.trans h.id, hledger.2.2.2.1.trans h.state, hmsgs.trans h.msgs, hpre.trans h.preVote,
    htransferee.trans h.leadTransferee⟩

end Fresh

/-- A process that starts is a follower with nothing in its queue. -/
lemma bootNode_fresh {conf : Config} {peers : Option (List PeerContext)} :
    Outcome.Ensures (fun n => Fresh conf n.raft) (Fleet.bootNode pack conf peers) := by
  cases peers with
  | none => exact Outcome.Ensures.bind Fresh.init fun _ hr => Outcome.Ensures.pure hr
  | some peers =>
      refine Outcome.Ensures.bind (Q := Fresh conf) Fresh.init fun r hr => ?_
      refine Outcome.Ensures.bind (Q := Fresh conf) ?_ fun _ hr => Outcome.Ensures.pure hr
      rw [RawNode.bootstrapIfNew]
      split
      · refine Outcome.Ensures.bind (Q := Fresh conf) hr.becomeFollower fun r₁ h₁ => ?_
        refine Outcome.Ensures.eval fun p _ => ?_
        refine Outcome.Ensures.foldlM ?_ fun s peer _ hs s' hs' => ?_
        · exact ⟨h₁.id, h₁.state, h₁.msgs, h₁.preVote, h₁.leadTransferee⟩
        · exact hs.regrouped (Deeds.addNodeOrLearner hs')
      · exact Outcome.Ensures.pure hr

lemma validate_preVote (conf : Config) : conf.validate.1.preVote = conf.preVote := by
  unfold Config.validate
  dsimp only
  split_ifs
  all_goals rfl

lemma node_onDriver (origin : Option Nat) (hd : w.fleet.nodes i = some d)
    (hact : w.fleet.onDriver pack i c = Except.ok fleet) :
    ∃ d', d.act pack c = Except.ok d' ∧
      fleet.nodes = Function.update w.fleet.nodes i (some d') ∧
      fleet.net = w.fleet.net ++ (d'.handed.drop d.handed.length).flatMap Ready.messages ∧
      w.onDriver i c origin fleet = w.record i c origin d d' fleet := by
  rw [Fleet.onDriver, hd] at hact
  obtain ⟨d', hd', hact⟩ := Outcome.bind_eq_ok.mp hact
  have hfleet := Outcome.pure_eq_ok.mp hact
  have hnodes : fleet.nodes = Function.update w.fleet.nodes i (some d') := by rw [← hfleet]
  refine ⟨d', hd', hnodes, by rw [← hfleet], ?_⟩
  have hafter : fleet.nodes i = some d' := by rw [hnodes, Function.update_self]
  rw [onDriver, hd, hafter]

/-- The action of one node. -/
lemma onDriver_tallied (h : w.Tallied)
    (hgiven : ∀ d, w.fleet.nodes i = some d → w.Given i c origin d.node.raft)
    (hproper : ∀ d, w.fleet.nodes i = some d →
      (c = Call.campaign → c.Eligible d.node) ∧ ¬ c.Disowns d.node.raft)
    (hact : w.fleet.onDriver pack i c = Except.ok fleet) :
    (w.onDriver i c origin fleet).Tallied ∧
      ∀ j d d', Raises w (w.onDriver i c origin fleet) j d d' → w.Backed j d d' := by
  cases hd : w.fleet.nodes i with
  | none =>
      rw [Fleet.onDriver, hd] at hact
      obtain rfl := Outcome.pure_eq_ok.mp hact
      have hsame : w.onDriver i c origin w.fleet = w := by rw [onDriver, hd]
      rw [hsame]
      refine ⟨h, fun j d d' hr => ?_⟩
      have heq := hr.before.symm.trans hr.after
      rw [Option.some.injEq] at heq
      exact absurd (by rw [heq]) hr.term
  | some d =>
      obtain ⟨d', hd', hnodes, hnet, hrecord⟩ := node_onDriver origin hd hact
      rw [hrecord]
      have hseat := h.seated i d hd
      obtain ⟨hcampaign, hkept⟩ := hproper d hd
      have hg := hgiven d hd
      have hcourse := Driver.act_course hseat.preVote hg.transfer
        (fun m hm => (hg.mail m hm).timeoutNow) hcampaign hkept hd'
      refine ⟨record_tallied h hd hg hd' hcourse hnodes hnet, fun j e e' hr => ?_⟩
      have hafter : Function.update w.fleet.nodes i (some d') j = some e' := hnodes ▸ hr.after
      by_cases hj : j = i
      · subst hj
        rw [Function.update_self, Option.some.injEq] at hafter
        have hbefore := hr.before
        rw [hd, Option.some.injEq] at hbefore
        subst hafter
        subst hbefore
        exact backed_of_course h hd hg hcourse hr.term hr.role
      · rw [Function.update_of_ne hj, hr.before, Option.some.injEq] at hafter
        exact absurd (by rw [hafter]) hr.term

/-- A process that starts, or starts again. -/
lemma boot_tallied (h : w.Tallied) {conf : Config} {peers : Option (List PeerContext)}
    (hpre : conf.preVote = true)
    (hact : w.fleet.act pack (Fleet.Action.boot conf peers) = Except.ok fleet)
    (hw' : w' = { w with fleet := fleet, queued := Function.update w.queued conf.id [] }) :
    w'.Tallied ∧ ∀ j d d', ¬ Raises w w' j d d' := by
  rw [Fleet.act] at hact
  dsimp only at hact
  split at hact
  · cases hact
  rename_i hvalid
  obtain ⟨hid, hne⟩ := Fleet.validate_id (not_not.mp hvalid)
  obtain ⟨n, hn, hact⟩ := Outcome.bind_eq_ok.mp hact
  have hfresh := bootNode_fresh n hn
  obtain rfl := Outcome.pure_eq_ok.mp hact
  subst hw'
  rw [hid]
  have hnode : ∀ {j e}, Function.update w.fleet.nodes conf.id (some { node := n }) j = some e →
      j = conf.id ∧ e = { node := n } ∨ j ≠ conf.id ∧ w.fleet.nodes j = some e := by
    intro j e he
    by_cases hj : j = conf.id
    · rw [hj, Function.update_self, Option.some.injEq] at he
      exact Or.inl ⟨hj, he.symm⟩
    · rw [Function.update_of_ne hj] at he
      exact Or.inr ⟨hj, he⟩
  -- a process that has just started is no pre-candidate, and its queue is empty
  have hnot : ¬ n.raft.state = RaftState.preCandidate := by
    rw [hfresh.state]
    exact RaftState.noConfusion
  have hcurrent : ∀ {j round term}, w.Current j round term → Current
      { w with
        fleet := { w.fleet with nodes := Function.update w.fleet.nodes conf.id (some { node := n }) }
        queued := Function.update w.queued conf.id [] } j round term := by
    refine fun hc => ⟨hc.le, fun heq e he hpre => ?_⟩
    rcases hnode he with ⟨rfl, rfl⟩ | ⟨-, he⟩
    · exact absurd hpre hnot
    · exact hc.term heq e he hpre
  have hmail : ∀ {x o}, w.Mail x o → Mail
      { w with
        fleet := { w.fleet with nodes := Function.update w.fleet.nodes conf.id (some { node := n }) }
        queued := Function.update w.queued conf.id [] } x o :=
    fun hm => ⟨hm.fromId, hm.timeoutNow, hm.transfer,
      fun ht round ho => hcurrent (hm.request ht round ho), hm.answer⟩
  have hother : ∀ {j}, j ≠ conf.id →
      Function.update w.queued conf.id ([] : List (Option Nat)) j = w.queued j :=
    fun hj => Function.update_of_ne hj ..
  refine ⟨⟨fun j e he => ?_, h.sent, fun j e he x o hx => ?_, fun x o hx => hmail (h.net x o hx),
    fun g hg => hcurrent (h.grants g hg), fun j e he hs => ?_⟩, fun j e e' hr => ?_⟩
  · rcases hnode he with ⟨rfl, rfl⟩ | ⟨hj, he⟩
    · refine ⟨hfresh.id.trans hid, hne, hfresh.preVote.trans ?_, hfresh.leadTransferee, ?_⟩
      · rw [validate_preVote, hpre]
      · dsimp only
        rw [Function.update_self, hfresh.msgs]
        rfl
    · dsimp only
      rw [hother hj]
      exact h.seated j e he
  · rcases hnode he with ⟨rfl, rfl⟩ | ⟨hj, he⟩
    · rw [hfresh.msgs] at hx
      cases hx
    · dsimp only at hx
      rw [hother hj] at hx
      exact hmail (h.queue j e he x o hx)
  · rcases hnode he with ⟨rfl, rfl⟩ | ⟨hj, he⟩
    · exact absurd hs hnot
    · have hold := h.polled j e he hs
      exact ⟨hold.own, hold.granted⟩
  · rcases hnode hr.after with ⟨rfl, rfl⟩ | ⟨hj, he⟩
    · exact hr.role hfresh.state
    · have heq := hr.before.symm.trans he
      rw [Option.some.injEq] at heq
      exact hr.term (by rw [heq])

/-- A call that brings no message. -/
lemma act_call (hc : ∀ m, c ≠ Call.step m) : w.act pack (Fleet.Action.call i c) = (do
    let fleet ← w.fleet.onDriver pack i c
    return w.onDriver i c none fleet) := by
  cases c with
  | step m => exact absurd rfl (hc m)
  | _ => rfl

/-- **One action** keeps the record true, and backs what it raises. -/
theorem act_tallied {a : Fleet.Action} (h : w.Tallied) (ha : Permitted a) (hp : w.Proper a)
    (hact : w.act pack a = Except.ok w') :
    w'.Tallied ∧ ∀ i d d', Raises w w' i d d' → w.Backed i d d' := by
  have hsame : ∀ {j : Nat} {e e' : Driver}, Raises w w j e e' → w.Backed j e e' := by
    intro j e e' hr
    have heq := hr.before.symm.trans hr.after
    rw [Option.some.injEq] at heq
    exact absurd (by rw [heq]) hr.term
  cases a with
  | boot conf peers =>
      obtain ⟨fleet, hfleet, hact⟩ := Outcome.bind_eq_ok.mp hact
      obtain ⟨htallied, hraises⟩ :=
        boot_tallied h ha hfleet (Outcome.pure_eq_ok.mp hact).symm
      exact ⟨htallied, fun j e e' hr => absurd hr (hraises j e e')⟩
  | call i c =>
      by_cases hc : ∃ m, c = Call.step m
      · obtain ⟨m, rfl⟩ := hc
        cases hact
        exact ⟨h, fun _ _ _ hr => hsame hr⟩
      have hc : ∀ m, c ≠ Call.step m := fun m heq => hc ⟨m, heq⟩
      rw [act_call hc] at hact
      obtain ⟨fleet, hfleet, hact⟩ := Outcome.bind_eq_ok.mp hact
      obtain rfl := Outcome.pure_eq_ok.mp hact
      refine onDriver_tallied h (fun d hd => ⟨?_, ?_, ?_, ?_⟩) (fun d hd => hp d hd) hfleet
      · exact fun m hm => absurd hm (hc m)
      · exact fun m hm => absurd hm (hc m)
      · rintro lead transferee rfl
        exact ha
      · exact fun m hm => absurd hm (hc m)
  | deliver k =>
      obtain ⟨fleet, hfleet, hact⟩ := Outcome.bind_eq_ok.mp hact
      rw [Fleet.act] at hfleet
      dsimp only at hact
      cases hm : w.fleet.net[k]? with
      | none =>
          rw [hm] at hact hfleet
          cases hfleet
          cases hact
          exact ⟨h, fun _ _ _ hr => hsame hr⟩
      | some m =>
          rw [hm] at hact hfleet
          dsimp only at hact hfleet
          obtain rfl := Outcome.pure_eq_ok.mp hact
          have hmail : w.Mail m (w.origin k) := by
            obtain ⟨hk, -⟩ := List.getElem?_eq_some_iff.mp hm
            rw [← h.sent] at hk
            have ho : w.sent[k]? = some w.sent[k] := List.getElem?_eq_getElem hk
            refine h.net m _ (List.mem_of_getElem? (List.getElem?_zip_eq_some.mpr ⟨hm, ?_⟩))
            rw [origin, ho, Option.getD_some]
          refine onDriver_tallied h (fun d hd => ⟨?_, ?_, ?_, ?_⟩) (fun d hd => ⟨?_, ?_⟩) hfleet
          · rintro m' hm'
            cases hm'
            exact hmail
          · rintro m' hm'
            cases hm'
            rfl
          · rintro lead transferee hc
            cases hc
          · rintro m' hm' hgains
            cases hm'
            exact hp m hm d hd hgains
          · rintro hc
            cases hc
          · exact fun hc => hc

/-! ## Runs -/

/-- **Pre-votes gate the term**: in every run of proper actions, a node that raises its own term has
the pre-votes of a quorum of voters for the new term, asked for since it became a pre-candidate. -/
theorem prevotes_gate (hrun : RunOf (act pack) (fun w a => Permitted a ∧ w.Proper a) {} w)
    {a : Fleet.Action} (ha : Permitted a) (hp : w.Proper a) (hact : w.act pack a = Except.ok w') :
    ∀ i d d', Raises w w' i d d' → w.Backed i d d' := by
  have h : w.Tallied := by
    refine hrun.invariant (I := Tallied) (fun _ _ _ hw ha hact => ?_) ?_
    · exact (act_tallied hw ha.1 ha.2 hact).1
    · exact ⟨fun _ _ hd => (by cases hd), rfl, fun _ _ hd => (by cases hd),
        fun _ _ hx => (by cases hx), fun _ hg => (by cases hg), fun _ _ hd => (by cases hd)⟩
  exact (act_tallied h ha hp hact).2

/-- Start a node of a cluster of three. -/
def bootOfThree (i : Nat) : Fleet.Action :=
  Fleet.Action.boot (ThreeNodes.config true i) (some [{ id := 1 }, { id := 2 }, { id := 3 }])

/-- Node 1 asks for pre-votes, and node 2 grants one. -/
def canvassed : List Fleet.Action :=
  [bootOfThree 1, bootOfThree 2] ++ Fleet.pullReady 1 ++ Fleet.pullReady 2 ++
    [Fleet.Action.call 1 Call.campaign] ++ Fleet.pullReady 1 ++ [Fleet.Action.deliver 1] ++
    Fleet.pullReady 2

/-- Node 1 becomes a candidate of term 2 with the pre-vote of node 2. -/
theorem prevotes_gate_threeNodes : ∃ w w' d d',
    RunOf (act fun _ => []) (fun w a => Permitted a ∧ w.Proper a) {} w ∧
    w.act (fun _ => []) (Fleet.Action.deliver 2) = Except.ok w' ∧ Raises w w' 1 d d' ∧
    d'.node.raft.state = RaftState.candidate ∧ w.Backed 1 d d' := by
  have hreached : ((canvassed.foldlM (RunOf.exec (act fun _ => []) fun w a =>
      Permitted a ∧ w.Proper a) {}).toOption.any fun w =>
        decide (w.Proper (Fleet.Action.deliver 2)) &&
        ((w.act (fun _ => []) (Fleet.Action.deliver 2)).toOption.any fun w' =>
          (w.fleet.nodes 1).any fun d => (w'.fleet.nodes 1).any fun d' =>
            decide (d'.node.raft.term ≠ d.node.raft.term ∧
              d'.node.raft.state = RaftState.candidate))) = true := by
    decide
  obtain ⟨w, hw, hreached⟩ := (Option.any_eq_true ..).mp hreached
  obtain ⟨hproper, hreached⟩ := Bool.and_eq_true_iff.mp hreached
  obtain ⟨w', hw', hreached⟩ := (Option.any_eq_true ..).mp hreached
  obtain ⟨d, hd, hreached⟩ := (Option.any_eq_true ..).mp hreached
  obtain ⟨d', hd', hreached⟩ := (Option.any_eq_true ..).mp hreached
  obtain ⟨hterm, hstate⟩ := of_decide_eq_true hreached
  have hrun := RunOf.of_exec (Outcome.eq_ok_of_toOption hw)
  have hact := Outcome.eq_ok_of_toOption hw'
  have hraises : Raises w w' 1 d d' := by
    refine ⟨hd, hd', hterm, ?_⟩
    rw [hstate]
    exact RaftState.noConfusion
  exact ⟨w, w', d, d', hrun, hact, hraises, hstate,
    prevotes_gate (a := Fleet.Action.deliver 2) hrun trivial (of_decide_eq_true hproper) hact 1 d d'
      hraises⟩

/-- **A vote that counts as a pre-vote**: node 1 becomes a candidate of term 2, and a pre-candidate
again before the vote of node 2 arrives.  With that vote it raises its term to 3, for which nobody has
granted a pre-vote. -/
theorem vote_counted : ∃ w w' d d', RunOf (act fun _ => []) (fun _ a => Permitted a) {} w ∧
    Permitted (Fleet.Action.deliver 5) ∧
    w.act (fun _ => []) (Fleet.Action.deliver 5) = Except.ok w' ∧ Raises w w' 1 d d' ∧
    d.node.raft.state = RaftState.preCandidate ∧ d'.node.raft.state = RaftState.candidate ∧
    ¬ w.Backed 1 d d' := by
  let actions : List Fleet.Action := canvassed ++ [Fleet.Action.deliver 2] ++ Fleet.pullReady 1 ++
    [Fleet.Action.deliver 4] ++ Fleet.pullReady 2 ++ [Fleet.Action.call 1 Call.campaign]
  have hreached : ((actions.foldlM (RunOf.exec (act fun _ => []) fun _ a => Permitted a)
      {}).toOption.any fun w =>
        (w.act (fun _ => []) (Fleet.Action.deliver 5)).toOption.any fun w' =>
          (w.fleet.nodes 1).any fun d => (w'.fleet.nodes 1).any fun d' =>
            decide (d.node.raft.state = RaftState.preCandidate ∧
              d'.node.raft.state = RaftState.candidate ∧ d.node.raft.term = 2 ∧
              d'.node.raft.term = 3 ∧ d.node.raft.quorum = 2 ∧
              ∀ g ∈ w.grants, g.term = 2)) = true := by
    decide
  obtain ⟨w, hw, hreached⟩ := (Option.any_eq_true ..).mp hreached
  obtain ⟨w', hw', hreached⟩ := (Option.any_eq_true ..).mp hreached
  obtain ⟨d, hd, hreached⟩ := (Option.any_eq_true ..).mp hreached
  obtain ⟨d', hd', hreached⟩ := (Option.any_eq_true ..).mp hreached
  obtain ⟨hbefore, hafter, hterm, hterm', hquorum, hgrants⟩ := of_decide_eq_true hreached
  refine ⟨w, w', d, d', RunOf.of_exec (Outcome.eq_ok_of_toOption hw), trivial,
    Outcome.eq_ok_of_toOption hw', ⟨hd, hd', by omega, ?_⟩, hbefore, hafter, ?_⟩
  · rw [hafter]
    exact RaftState.noConfusion
  · rintro ⟨-, Q, -, -, hcard, hgranted⟩
    -- the only pre-votes that were ever granted are for term 2
    have hsub : Q ⊆ {1} := by
      intro j hj
      rcases hgranted j hj with rfl | hg
      · exact Finset.mem_singleton_self _
      · have hterm'' := hgrants _ hg
        simp only [hterm] at hterm''
        omega
    have hle := Finset.card_le_card hsub
    rw [Finset.card_singleton] at hle
    omega

end Canvass

end RaftKv
