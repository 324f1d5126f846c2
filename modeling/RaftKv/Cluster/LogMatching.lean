import RaftKv.Cluster.Safety

/-!
# Log matching

* `Uncompacted.entryAt_eq` — what `slice` reads at a single index, inside the log or not.
* `LogsMatch`, `KeepsEntries` — what is claimed of two logs, and of one log at two times.
* `logMatching` — **logs that agree on the term of an entry agree up to it, and a leader only ever
  appends to its log.**
-/

namespace RaftKv

open Replication

variable {C : ClusterConf} {c₀ c₁ c₂ : Cluster}

/-! ## Reading one entry -/

/-- Outside the log there is no entry, and inside it is the represented one. -/
theorem Uncompacted.entryAt_eq {l : RaftLog} (h : Uncompacted l) (index : Nat) :
    l.entryAt index = if index = 0 then none else l.logical[index - 1]? := by
  have hfirst : l.firstIndex = 1 := by rw [RaftLog.firstIndex_eq, h.base]
  rcases Nat.eq_zero_or_pos index with rfl | hpos
  · have hcheck : l.mustCheckOutOfBounds 0 1 =
        Except.ok (Status.invalidArgument "requested index is unavailable due to compaction") := by
      rw [RaftLog.mustCheckOutOfBounds, hfirst, if_neg (by omega), if_pos (by omega)]
      rfl
    rw [RaftLog.entryAt, RaftLog.slice, hcheck]
    rfl
  rw [if_neg (by omega)]
  by_cases hle : index ≤ l.logical.length
  · exact h.entryAt hpos hle
  · have hcheck : ∃ crash, l.mustCheckOutOfBounds index (index + 1) = Except.error crash := by
      rw [RaftLog.mustCheckOutOfBounds, hfirst, h.lastIndex, if_neg (by omega), if_neg (by omega),
        if_pos (by omega)]
      exact ⟨_, rfl⟩
    obtain ⟨crash, hcheck⟩ := hcheck
    rw [RaftLog.entryAt, RaftLog.slice, hcheck, List.getElem?_eq_none (by omega)]
    rfl

theorem Uncompacted.entryAt_eq_some {l : RaftLog} (h : Uncompacted l) {index : Nat} {e : Entry} :
    l.entryAt index = some e ↔ ∃ k, index = k + 1 ∧ l.logical[k]? = some e := by
  rw [h.entryAt_eq]
  cases index with
  | zero => simp
  | succ k => simp

/-! ## Two logs -/

/-- If the logs hold entries of one term at one index, they agree there and at every smaller
index. -/
def LogsMatch (l l' : RaftLog) : Prop :=
  ∀ index e e', l.entryAt index = some e → l'.entryAt index = some e' → e.term = e'.term →
    ∀ k ≤ index, l.entryAt k = l'.entryAt k

/-- Every entry of the one log is an entry of the other one, at the same index. -/
def KeepsEntries (l l' : RaftLog) : Prop :=
  ∀ index e, l.entryAt index = some e → l'.entryAt index = some e

theorem LogsMatch.of_matching {l l' : RaftLog} (h : Uncompacted l) (h' : Uncompacted l')
    (hmatch : Matching l.logical l'.logical) : LogsMatch l l' := by
  intro index e e' he he' hterm k hk
  obtain ⟨n, rfl, hn⟩ := h.entryAt_eq_some.mp he
  obtain ⟨n', hn', hother⟩ := h'.entryAt_eq_some.mp he'
  obtain rfl : n = n' := by omega
  have htake := hmatch n e e' hn hother hterm
  rw [h.entryAt_eq, h'.entryAt_eq]
  cases k with
  | zero => rfl
  | succ k =>
      have hlt : k < n + 1 := by omega
      have hread := congrArg (fun ℓ => ℓ[k]?) htake
      simpa [List.getElem?_take, hlt] using hread

theorem KeepsEntries.of_isPrefix {l l' : RaftLog} (h : Uncompacted l) (h' : Uncompacted l')
    (hpre : l.logical <+: l'.logical) : KeepsEntries l l' := by
  intro index e he
  obtain ⟨k, rfl, hk⟩ := h.entryAt_eq_some.mp he
  exact h'.entryAt_eq_some.mpr ⟨k, rfl, getElem?_of_isPrefix hpre hk⟩

/-! ## Every run -/

/-- **Log matching**: without pre-votes, in every run, the logs of any two nodes match, and whoever
leads a term at two times has at the second one every entry it had at the first one. -/
theorem logMatching (hpre : ∀ i, (C.conf i).preVote = false) (hstart : Started C c₀)
    (h₁ : Run C c₀ c₁) (h₂ : Run C c₁ c₂) :
    (∀ a b na nb, c₂.nodes a = some na → c₂.nodes b = some nb →
      LogsMatch na.raft.raftLog nb.raft.raftLog) ∧
    (∀ a n₁ n₂, c₁.nodes a = some n₁ → c₂.nodes a = some n₂ →
      n₁.raft.state = RaftState.leader → n₂.raft.state = RaftState.leader →
      n₁.raft.term = n₂.raft.term → KeepsEntries n₁.raft.raftLog n₂.raft.raftLog) := by
  obtain ⟨w₁, -, hf₁⟩ := (Cluster.Follows.init hstart).runAny hpre h₁
  obtain ⟨w₂, hlater, hf₂⟩ := hf₁.runAny hpre h₂
  refine ⟨?_, ?_⟩
  · intro a b na nb ha hb
    have hsa := hf₂.nodes a na ha
    have hsb := hf₂.nodes b nb hb
    exact LogsMatch.of_matching hsa.uncompacted hsb.uncompacted
      (matching_of_good (hsa.good hf₂.inv) (hsb.good hf₂.inv))
  · intro a n₁ n₂ hn₁ hn₂ hl₁ hl₂ hterm
    have hs₁ := hf₁.nodes a n₁ hn₁
    have hs₂ := hf₂.nodes a n₂ hn₂
    refine KeepsEntries.of_isPrefix hs₁.uncompacted hs₂.uncompacted ?_
    -- both logs are the log of the leader of the term, which only grows
    rw [hs₁.log_eq_llog hf₁.inv hl₁, hs₂.log_eq_llog hf₂.inv hl₂, ← hterm]
    exact hlater.llog _

/-- Node 1 is elected, appends, and node 2 takes over what it has appended. -/
theorem logMatching_threeNodes : ∃ c₁ c₂ n₁ n₂ m, Run (ThreeNodes.conf false)
    (ThreeNodes.start false) c₁ ∧ Run (ThreeNodes.conf false) c₁ c₂ ∧
      c₁.nodes 1 = some n₁ ∧ c₂.nodes 1 = some n₂ ∧ c₂.nodes 2 = some m ∧
      (n₁.raft.raftLog.entryAt 4).isSome ∧ KeepsEntries n₁.raft.raftLog n₂.raft.raftLog ∧
      (m.raft.raftLog.entryAt 5).isSome ∧ LogsMatch n₂.raft.raftLog m.raft.raftLog := by
  let exec := RunWhere.exec (ThreeNodes.conf false) fun _ _ => True
  let elect : List Action := [Action.pullReady 1, Action.pullReady 2, Action.campaign 1,
    Action.pullReady 1, Action.deliver 1, Action.pullReady 2, Action.deliver 2]
  let append : List Action := [Action.propose 1 [7], Action.pullReady 1, Action.deliver 4,
    Action.pullReady 2, Action.deliver 5, Action.pullReady 1, Action.deliver 6]
  have hreached : ((elect.foldlM exec (ThreeNodes.start false)).toOption.any fun c₁ =>
      (append.foldlM exec c₁).toOption.any fun c₂ =>
        ((c₁.nodes 1).any fun n₁ => (c₂.nodes 1).any fun n₂ => n₁.raft.state = RaftState.leader ∧
          n₂.raft.state = RaftState.leader ∧ n₁.raft.term = n₂.raft.term ∧
          (n₁.raft.raftLog.entryAt 4).isSome) &&
        (c₂.nodes 2).any fun m => (m.raft.raftLog.entryAt 5).isSome) = true := by
    decide
  obtain ⟨c₁, hc₁, hreached⟩ := (Option.any_eq_true ..).mp hreached
  obtain ⟨c₂, hc₂, hreached⟩ := (Option.any_eq_true ..).mp hreached
  rw [Bool.and_eq_true] at hreached
  obtain ⟨n₁, hn₁, hfirst⟩ := (Option.any_eq_true ..).mp hreached.1
  obtain ⟨n₂, hn₂, hsecond⟩ := (Option.any_eq_true ..).mp hfirst
  obtain ⟨m, hm, hentry⟩ := (Option.any_eq_true ..).mp hreached.2
  obtain ⟨hl₁, hl₂, hterm, hstart⟩ := of_decide_eq_true hsecond
  have h₁ : Run (ThreeNodes.conf false) (ThreeNodes.start false) c₁ :=
    RunOf.of_exec (Outcome.eq_ok_of_toOption hc₁)
  have h₂ : Run (ThreeNodes.conf false) c₁ c₂ := RunOf.of_exec (Outcome.eq_ok_of_toOption hc₂)
  obtain ⟨hmatch, hkeeps⟩ := logMatching (fun _ => rfl) (ThreeNodes.started false) h₁ h₂
  exact ⟨c₁, c₂, n₁, n₂, m, h₁, h₂, hn₁, hn₂, hm, hstart, hkeeps 1 n₁ n₂ hn₁ hn₂ hl₁ hl₂ hterm,
    hentry, hmatch 1 2 n₂ m hn₂ hm⟩

end RaftKv
