import RaftKv.Raft.MaybeAppend
import RaftKv.Raft.Restore
import RaftKv.Replication.Majority

/-!
# What a leader commits

`maybe_commit` sorts the positions of the voters and looks at one of them.

* `Raft.holders` — the voters that are known to hold the log up to an index.
* `Raft.QuorumIndex` — the largest index that a quorum holds.
* `Raft.maybeCommit_quorum` — **`maybe_commit` commits that index if its entry is of the current term**,
  whatever the order of the voters.
-/

namespace RaftKv

/-- What `maybe_commit` does to a log, in one equation. -/
lemma RaftLog.maybeCommit_eq {l : RaftLog} (h : l.WF) (m : Nat) {t : Nat} (ht : 0 < t) :
    l.maybeCommit m t = Except.ok
      (if l.committed < m ∧ l.term m = Except.ok t then ({ l with committed := m }, true)
        else (l, false)) := by
  have hterm := RaftLog.term_eq h m
  rw [RaftLog.maybeCommit, hterm]
  by_cases hlt : m > l.committed
  · rw [if_pos hlt]
    dsimp only
    by_cases heq : l.logicalTerm m = t
    · have hle : m ≤ l.lastIndex := by
        rw [RaftLog.lastIndex_eq h]
        exact RaftLog.le_lastIndex_of_term h (hterm.trans (congrArg Except.ok heq)) (by omega)
      rw [if_pos heq, RaftLog.commitTo_returns hle, if_pos ⟨hlt, congrArg Except.ok heq⟩,
        Nat.max_eq_right hlt.le]
      rfl
    · rw [if_neg heq, if_neg fun hand => heq (Except.ok.inj hand.2)]
      rfl
  · rw [if_neg hlt, if_neg fun hand => hlt hand.1]
    rfl

namespace Raft

/-- The voters that are known to hold the log up to `m`. -/
def holders (r : Raft) (m : Nat) : Finset Nat :=
  r.prs.keys.toFinset.filter fun id => (r.prs.lookup id).any fun p => m ≤ p.matched

/-- The largest index that a quorum of the voters holds. -/
structure QuorumIndex (r : Raft) (m : Nat) : Prop where
  held : r.quorum ≤ (r.holders m).card
  largest : ∀ k, r.quorum ≤ (r.holders k).card → k ≤ m

variable {r : Raft} {m : Nat}

lemma QuorumIndex.unique {m' : Nat} (h : r.QuorumIndex m) (h' : r.QuorumIndex m') : m = m' :=
  Nat.le_antisymm (h'.largest m h.held) (h.largest m' h'.held)

/-- Two quorums share a voter. -/
lemma quorum_inter {A B : Finset Nat} (hA : A ⊆ r.prs.keys.toFinset) (hB : B ⊆ r.prs.keys.toFinset)
    (hAcard : r.quorum ≤ A.card) (hBcard : r.quorum ≤ B.card) : ∃ id, id ∈ A ∧ id ∈ B := by
  have hcard : r.prs.keys.toFinset.card = r.prs.keys.length :=
    List.toFinset_card_of_nodup (AList.keys_nodup r.prs)
  have hmajority : ∀ C ⊆ r.prs.keys.toFinset, r.quorum ≤ C.card →
      Replication.Majority r.prs.keys.toFinset {id | id ∈ C} :=
    fun C hC hle => ⟨C, hC, by rwa [hcard], fun id hid => hid⟩
  exact (hmajority A hA hAcard).inter (hmajority B hB hBcard)

/-- The holders of an index are counted in `match_buf_`. -/
lemma card_holders (r : Raft) (k : Nat) :
    (r.holders k).card = r.sortedMatches.countP fun x => k ≤ x := by
  have hperm := List.perm_insertionSort (· ≤ ·) (r.prs.entries.map fun e => e.2.matched)
  rw [sortedMatches, hperm.countP_eq, IdMap.map_entries_eq_map_keys Progress.matched 0,
    List.countP_map, holders, ← List.toFinset_filter,
    List.toFinset_card_of_nodup ((AList.keys_nodup r.prs).filter _), ← List.countP_eq_length_filter]
  refine List.countP_congr fun id hid => ?_
  obtain ⟨p, hp⟩ := Option.isSome_iff_exists.mp (AList.lookup_isSome.mpr (AList.mem_keys.mpr hid))
  simp [hp]

lemma length_sortedMatches (r : Raft) : r.sortedMatches.length = r.prs.keys.length := by
  rw [sortedMatches, List.length_insertionSort, List.length_map, AList.keys, List.keys,
    List.length_map]

lemma quorum_le (hvoters : r.prs.keys ≠ []) : r.quorum ≤ r.prs.keys.length := by
  have := List.length_pos_of_ne_nil hvoters
  rw [quorum]
  omega

/-- The place of `match_buf_` that is looked at holds the largest index that a quorum holds. -/
theorem quorumIndex_sortedMatches (hvoters : r.prs.keys ≠ []) :
    ∃ mci, r.sortedMatches[r.sortedMatches.length - r.quorum]? = some mci ∧ r.QuorumIndex mci := by
  have hle : r.quorum ≤ r.sortedMatches.length := by
    rw [length_sortedMatches]
    exact quorum_le hvoters
  have hpos : 0 < r.quorum := Nat.succ_pos _
  have hsorted : r.sortedMatches.Pairwise (· ≤ ·) := List.pairwise_insertionSort ..
  have hlt : r.sortedMatches.length - r.quorum < r.sortedMatches.length := by omega
  have hget := List.getElem?_eq_getElem hlt
  refine ⟨_, hget, ?_, fun k hk => ?_⟩
  · rw [card_holders]
    exact Replication.le_countP_of_sorted hsorted hpos hget hle
  · rw [card_holders] at hk
    exact Replication.le_of_le_countP hsorted hpos hget hle hk

/-- The voters and their positions do not depend on the order in which they are visited. -/
lemma holders_perm {prs : IdMap Progress} (h : prs.entries.Perm r.prs.entries) (k : Nat) :
    ({ r with prs := prs } : Raft).holders k = r.holders k := by
  have hkeys : prs.keys.toFinset = r.prs.keys.toFinset :=
    List.toFinset_eq_of_perm _ _ (h.map Sigma.fst)
  have hlookup : ∀ id, prs.lookup id = r.prs.lookup id := fun id =>
    AList.perm_lookup h
  rw [holders, holders]
  simp only [hkeys, hlookup]

lemma QuorumIndex.perm {prs : IdMap Progress} (h : r.QuorumIndex m)
    (hperm : prs.entries.Perm r.prs.entries) : ({ r with prs := prs } : Raft).QuorumIndex m := by
  have hquorum : ({ r with prs := prs } : Raft).quorum = r.quorum := by
    have hlength : prs.keys.length = r.prs.keys.length := (hperm.map Sigma.fst).length_eq
    rw [quorum, quorum, hlength]
  constructor
  · rw [hquorum, holders_perm hperm]
    exact h.held
  · intro k hk
    rw [hquorum, holders_perm hperm] at hk
    exact h.largest k hk

/-- The log behind `maybe_commit`, when `m` is the largest index that a quorum holds. -/
def committedLog (r : Raft) (m : Nat) : RaftLog :=
  if r.raftLog.committed < m ∧ r.raftLog.term m = Except.ok r.term then
    { r.raftLog with committed := m }
  else r.raftLog

/-- What `maybe_commit` does, in one equation. -/
lemma maybeCommit_eq (hwf : r.raftLog.WF) (hterm : 0 < r.term) (hvoters : r.prs.keys ≠ [])
    (hm : r.QuorumIndex m) :
    r.maybeCommit = Except.ok ({ r with raftLog := r.committedLog m },
      decide (r.raftLog.committed < m ∧ r.raftLog.term m = Except.ok r.term)) := by
  obtain ⟨mci, hget, hmci⟩ := quorumIndex_sortedMatches hvoters
  obtain rfl := hm.unique hmci
  have hlong : ¬ r.sortedMatches.length < r.quorum := by
    rw [length_sortedMatches]
    exact Nat.not_lt.mpr (quorum_le hvoters)
  rw [maybeCommit, if_neg hlong, hget]
  dsimp only
  rw [RaftLog.maybeCommit_eq hwf m hterm, committedLog]
  by_cases hcommits : r.raftLog.committed < m ∧ r.raftLog.term m = Except.ok r.term
  · simp [hcommits]
  · simp [hcommits]

/-- **What a leader commits.**  Two quorums share a voter; there is a largest index that a quorum of
the voters holds; `maybe_commit` commits it if it is not committed and its entry is of the current
term, and changes nothing otherwise; and it does so in whatever order the voters are visited. -/
theorem maybeCommit_quorum (hwf : r.raftLog.WF) (hterm : 0 < r.term) (hvoters : r.prs.keys ≠ []) :
    (∀ A B : Finset Nat, A ⊆ r.prs.keys.toFinset → B ⊆ r.prs.keys.toFinset →
      r.quorum ≤ A.card → r.quorum ≤ B.card → ∃ id, id ∈ A ∧ id ∈ B) ∧
    ∃ m, r.QuorumIndex m ∧ ∀ prs : IdMap Progress, prs.entries.Perm r.prs.entries →
      ({ r with prs := prs } : Raft).maybeCommit =
        Except.ok ({ r with prs := prs, raftLog := r.committedLog m },
          decide (r.raftLog.committed < m ∧ r.raftLog.term m = Except.ok r.term)) := by
  refine ⟨fun A B hA hB hAcard hBcard => quorum_inter hA hB hAcard hBcard, ?_⟩
  obtain ⟨m, -, hm⟩ := quorumIndex_sortedMatches hvoters
  refine ⟨m, hm, fun prs hperm => ?_⟩
  have hkeys : prs.keys ≠ [] := by
    intro hnil
    have hlength : prs.keys.length = r.prs.keys.length := (hperm.map Sigma.fst).length_eq
    rw [hnil] at hlength
    exact hvoters (List.eq_nil_of_length_eq_zero hlength.symm)
  exact maybeCommit_eq (r := { r with prs := prs }) hwf hterm hkeys (hm.perm hperm)

/-- A leader of three voters, which hold one, two and three entries. -/
def splitLeader : Raft :=
  { freshFollower 1 with
    term := 1
    state := RaftState.leader
    raftLog := RaftLog.init RaftLog.threeEntries 0
    prs := (AList.insert 1 { Progress.new 1 with next := 4, matched := 3 }
      (AList.insert 2 { Progress.new 1 with next := 2, matched := 1 }
        (AList.insert 3 { Progress.new 1 with next := 3, matched := 2 } ∅))) }

/-- The leader commits what two of the three hold. -/
theorem maybeCommit_quorum_split : ∃ m, splitLeader.QuorumIndex m ∧
    splitLeader.maybeCommit =
      Except.ok ({ splitLeader with raftLog := splitLeader.committedLog m }, true) ∧ m = 2 := by
  have hwf : splitLeader.raftLog.WF := (RaftLog.init_represents ⟨by decide, by decide⟩ 0).wf
  obtain ⟨-, m, hm, hcommit⟩ := maybeCommit_quorum hwf (by decide) (by decide)
  have htwo : m = 2 := by
    refine Nat.le_antisymm ?_ (hm.largest 2 (by decide))
    by_contra hgt
    have hthree : splitLeader.holders m ⊆ {1} := by
      intro id hid
      have hid := Finset.mem_filter.mp hid
      have hkeys : id = 1 ∨ id = 2 ∨ id = 3 := by simpa [splitLeader] using hid.1
      rcases hkeys with rfl | rfl | rfl
      · exact Finset.mem_singleton_self 1
      · have hone : m ≤ 1 := of_decide_eq_true hid.2
        omega
      · have htwo : m ≤ 2 := of_decide_eq_true hid.2
        omega
    have hcard := hm.held.trans (Finset.card_le_card hthree)
    exact absurd hcard (by decide)
  subst htwo
  exact ⟨2, hm, hcommit splitLeader.prs (List.Perm.refl _), rfl⟩

end Raft

end RaftKv
