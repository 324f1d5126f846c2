import RaftKv.Driver.HandedOut

/-!
# What a `Ready` says about itself

* `RawNode.hasOtherWork` — everything `has_ready` asks for, but for the answers to reads.
* `hasReady_agrees` — **`has_ready` and `contains_updates` agree if and only if there is such work**:
  the one asks for answers to reads, and the other for their absence.
* `lastHardState` — the last hard state that `advance` was called with, which is the node's previous
  one.
* `mustSync_agrees` — **when `must_sync` is right**: with entries, or where only the commit index has
  changed.
-/

namespace RaftKv

open RaftLog

variable {pack : ConfChange → Bytes} {n n' : RawNode} {d d' : Driver} {rd : Ready}

/-! ## The entries to apply -/

namespace RaftLog

variable {l : RaftLog} {low high maxSize : Nat} {es : List Entry}

lemma entriesOf_ne_nil {s : MemoryStorage}
    (h : s.entriesOf low high maxSize = Except.ok (Except.ok es)) :
    es ≠ [] := by
  rw [MemoryStorage.entriesOf] at h
  split at h
  · cases h
  rename_i hlt
  rw [not_not] at hlt
  dsimp only at h
  split at h
  · cases h
  split at h
  · cases h
  split at h
  · cases h
  rename_i hlow hhigh _
  cases h
  rw [Ne, entryLimitSize_eq_nil, List.drop_eq_nil_iff, List.length_take]
  rw [MemoryStorage.lastIndex] at hhigh
  omega

lemma unstable_slice_ne_nil {u : Unstable} (h : u.slice low high = Except.ok es) : es ≠ [] := by
  rw [Unstable.slice] at h
  split at h
  · cases h
  split at h
  · cases h
  rename_i hlt hbounds
  cases h
  rw [Ne, List.drop_eq_nil_iff, List.length_take]
  omega

/-- **A slice that is not empty has entries**, whatever its size limit. -/
lemma slice_ne_nil (hlt : low < high) (h : l.slice low high maxSize = Except.ok (Except.ok es)) :
    es ≠ [] := by
  rw [slice] at h
  obtain ⟨status, -, h⟩ := Outcome.bind_eq_ok.mp h
  split at h
  · cases h
  rw [if_neg (Nat.ne_of_lt hlt)] at h
  dsimp only at h
  split at h
  · -- the storage has a part of it
    obtain ⟨stable, hstable, h⟩ := Outcome.bind_eq_ok.mp h
    cases stable with
    | error status => cases h
    | ok stable =>
        have hstable : stable ≠ [] := entriesOf_ne_nil hstable
        have hlimit : ∀ tail, entryLimitSize maxSize (stable ++ tail) ≠ [] := by
          intro tail hnil
          exact hstable (List.append_eq_nil_iff.mp (entryLimitSize_eq_nil.mp hnil)).1
        dsimp only at h
        split at h
        · cases h
          exact hstable
        split at h
        · obtain ⟨tail, -, h⟩ := Outcome.bind_eq_ok.mp h
          cases h
          exact hlimit tail
        · cases h
          exact hlimit []
  · -- all of it is in the tail
    rename_i hbehind
    obtain ⟨stable, hstable, h⟩ := Outcome.bind_eq_ok.mp h
    cases hstable
    dsimp only at h
    rw [if_neg fun hlow => hbehind hlow.1, if_pos (by omega)] at h
    obtain ⟨tail, htail, h⟩ := Outcome.bind_eq_ok.mp h
    cases h
    rw [Ne, entryLimitSize_eq_nil]
    exact unstable_slice_ne_nil htail

/-- There are entries to apply if and only if some are handed out. -/
lemma nextEntries_eq_nil (h : l.nextEntries = Except.ok es) : es = [] ↔ l.hasNextEntries = false := by
  rw [nextEntries] at h
  rw [hasNextEntries, decide_eq_false_iff_not]
  split at h
  · rename_i hlt
    obtain ⟨res, hslice, h⟩ := Outcome.bind_eq_ok.mp h
    cases res with
    | error status => cases h
    | ok es' =>
        cases h
        exact iff_of_false (slice_ne_nil hlt hslice) (not_not_intro hlt)
  · rename_i hge
    cases h
    exact iff_of_true rfl hge

end RaftLog

/-! ## `has_ready` and `contains_updates` -/

/-- What is pending, beside the answers to reads. -/
def RawNode.hasOtherWork (n : RawNode) : Bool :=
  let r := n.raft
  n.raft.softState != n.prevSoftState ||
  (!r.hardState.isEmptyState && r.hardState != n.prevHardState) ||
  (r.raftLog.unstable.snapshot.any fun s => !s.isEmpty) ||
  !r.msgs.isEmpty || !r.raftLog.unstable.entries.isEmpty || r.raftLog.hasNextEntries

/-- What `contains_updates` says of a `Ready` that was built here. -/
lemma containsUpdates_eq (h : n.ready = Except.ok (n', rd)) :
    rd.containsUpdates = (n.hasOtherWork || n.raft.readStates.isEmpty) := by
  obtain ⟨rd', hnew, h⟩ := Outcome.bind_eq_ok.mp h
  cases h
  obtain ⟨es, hes, hrd⟩ := Outcome.bind_eq_ok.mp hnew
  have hempty : (!es.isEmpty) = n.raft.raftLog.hasNextEntries := by
    have hnil := nextEntries_eq_nil hes
    cases hnext : n.raft.raftLog.hasNextEntries <;> cases es <;> simp_all
  cases hrd
  have hsoft : (if n.raft.softState = n.prevSoftState then none else some n.raft.softState).isSome =
      (n.raft.softState != n.prevSoftState) := by
    by_cases heq : n.raft.softState = n.prevSoftState <;> simp [heq]
  have hhard : (!(if n.raft.hardState = n.prevHardState then ({} : HardState)
      else n.raft.hardState).isEmptyState) =
      (!n.raft.hardState.isEmptyState && n.raft.hardState != n.prevHardState) := by
    by_cases heq : n.raft.hardState = n.prevHardState
    · simp [heq, HardState.isEmptyState]
    · simp [heq]
  have hsnapshot : (!(n.raft.raftLog.unstable.snapshot.getD {}).isEmpty) =
      (n.raft.raftLog.unstable.snapshot.any fun s => !s.isEmpty) := by
    cases n.raft.raftLog.unstable.snapshot <;> rfl
  simp only [Ready.containsUpdates, RawNode.hasOtherWork, hsoft, hhard, hsnapshot, hempty]
  ac_rfl

namespace Driver

lemma hasReady_eq (n : RawNode) :
    n.hasReady = (n.hasOtherWork || !n.raft.readStates.isEmpty) := rfl

/-- The last hard state of a series of `Ready`s, or the one before them; an empty one is no update. -/
def lastHardState (hs : HardState) (rds : List Ready) : HardState :=
  rds.foldl (fun hs rd => if rd.hardState.isEmptyState then hs else rd.hardState) hs

/-- The previous hard state of the node is the last one that `advance` was called with. -/
def Advanced (hs : HardState) (d : Driver) : Prop :=
  match d.phase with
  | Phase.idle => d.node.prevHardState = lastHardState hs d.handed
  | Phase.taken rd | Phase.stored rd =>
      ∃ rds, d.handed = rds ++ [rd] ∧ d.node.prevHardState = lastHardState hs rds

lemma stepRaft_prev {m : Message} {status : Status} (h : n.stepRaft m = Except.ok (n', status)) :
    n'.prevHardState = n.prevHardState := by
  obtain ⟨⟨r, s⟩, -, h⟩ := Outcome.bind_eq_ok.mp h
  cases h
  rfl

/-- A call leaves the previous hard state, the phase and what was handed out as they are, or it deals
with a `Ready`. -/
lemma act_prev {c : Call} (h : d.act pack c = Except.ok d') :
    (d'.node.prevHardState = d.node.prevHardState ∧ d'.phase = d.phase ∧ d'.handed = d.handed) ∨
    (d.phase = Phase.idle ∧ ∃ n rd, d.node.ready = Except.ok (n, rd) ∧
      d' = { node := n, phase := Phase.taken rd, handed := d.handed ++ [rd] }) ∨
    (∃ rd storage, d.phase = Phase.taken rd ∧
      d' = { d with node := d.node.setStorage storage, phase := Phase.stored rd }) ∨
    (∃ rd, d.phase = Phase.stored rd ∧
      d' = { d with node := d.node.advance rd, phase := Phase.idle }) := by
  cases c with
  | tick =>
      obtain ⟨n, hn, rfl⟩ := onNode_eq_ok h
      obtain ⟨r, -, hn⟩ := Outcome.bind_eq_ok.mp hn
      cases hn
      exact Or.inl ⟨rfl, rfl, rfl⟩
  | campaign =>
      obtain ⟨n, status, hn, rfl⟩ := onNodeWith_eq_ok h
      exact Or.inl ⟨stepRaft_prev hn, rfl, rfl⟩
  | propose data =>
      rw [act] at h
      obtain ⟨n, status, hn, rfl⟩ := onNodeWith_eq_ok h
      exact Or.inl ⟨stepRaft_prev hn, rfl, rfl⟩
  | proposeConfChange cc =>
      rw [act] at h
      obtain ⟨n, status, hn, rfl⟩ := onNodeWith_eq_ok h
      exact Or.inl ⟨stepRaft_prev hn, rfl, rfl⟩
  | step m =>
      rw [act] at h
      obtain ⟨n, status, hn, rfl⟩ := onNodeWith_eq_ok h
      refine Or.inl ⟨?_, rfl, rfl⟩
      rw [RawNode.step] at hn
      split at hn
      · cases hn
        rfl
      split at hn
      · exact stepRaft_prev hn
      · cases hn
        rfl
  | applyConfChange cc =>
      rw [act] at h
      obtain ⟨n, cs, hn, rfl⟩ := onNodeWith_eq_ok h
      refine Or.inl ⟨?_, rfl, rfl⟩
      rw [RawNode.applyConfChange] at hn
      split at hn
      · cases hn
        rfl
      · obtain ⟨r, -, hn⟩ := Outcome.bind_eq_ok.mp hn
        cases hn
        rfl
  | transferLeadership lead transferee =>
      rw [act] at h
      obtain ⟨n, hn, rfl⟩ := onNode_eq_ok h
      obtain ⟨⟨n₁, status⟩, hstep, hn⟩ := Outcome.bind_eq_ok.mp hn
      cases hn
      exact Or.inl ⟨stepRaft_prev hstep, rfl, rfl⟩
  | readIndex rctx =>
      rw [act] at h
      obtain ⟨n, status, hn, rfl⟩ := onNodeWith_eq_ok h
      exact Or.inl ⟨stepRaft_prev hn, rfl, rfl⟩
  | reportUnreachable id =>
      rw [act] at h
      obtain ⟨n, hn, rfl⟩ := onNode_eq_ok h
      obtain ⟨⟨n₁, status⟩, hstep, hn⟩ := Outcome.bind_eq_ok.mp hn
      cases hn
      exact Or.inl ⟨stepRaft_prev hstep, rfl, rfl⟩
  | reportSnapshot id status =>
      rw [act] at h
      obtain ⟨n, hn, rfl⟩ := onNode_eq_ok h
      obtain ⟨⟨n₁, status'⟩, hstep, hn⟩ := Outcome.bind_eq_ok.mp hn
      cases hn
      exact Or.inl ⟨stepRaft_prev hstep, rfl, rfl⟩
  | ready =>
      rw [act] at h
      split at h
      · rename_i hidle
        obtain ⟨⟨n, rd⟩, hready, h⟩ := Outcome.bind_eq_ok.mp h
        exact Or.inr (Or.inl ⟨hidle, n, rd, hready, (Outcome.pure_eq_ok.mp h).symm⟩)
      · cases h
        exact Or.inl ⟨rfl, rfl, rfl⟩
  | store =>
      rw [act] at h
      split at h
      · rename_i rd htaken
        obtain ⟨storage, -, h⟩ := Outcome.bind_eq_ok.mp h
        exact Or.inr (Or.inr (Or.inl ⟨rd, storage, htaken, (Outcome.pure_eq_ok.mp h).symm⟩))
      · cases h
        exact Or.inl ⟨rfl, rfl, rfl⟩
  | advance =>
      rw [act] at h
      split at h
      · rename_i rd hstored
        exact Or.inr (Or.inr (Or.inr ⟨rd, hstored, (Outcome.pure_eq_ok.mp h).symm⟩))
      · cases h
        exact Or.inl ⟨rfl, rfl, rfl⟩

/-- A `Ready` is built with the current and the previous hard state. -/
lemma ready_hardState (h : n.ready = Except.ok (n', rd)) :
    n'.prevHardState = n.prevHardState ∧ rd.entries = n.raft.raftLog.unstable.entries ∧
    rd.mustSync = isMustSync n.raft.hardState
      (if n.raft.hardState = n.prevHardState then {} else n.raft.hardState) rd.entries.length ∧
    rd.hardState = if n.raft.hardState = n.prevHardState then {} else n.raft.hardState := by
  obtain ⟨rd', hnew, h⟩ := Outcome.bind_eq_ok.mp h
  cases h
  obtain ⟨es, hes, hrd⟩ := Outcome.bind_eq_ok.mp hnew
  cases hrd
  exact ⟨rfl, rfl, rfl, rfl⟩

lemma lastHardState_snoc (hs : HardState) (rds : List Ready) (rd : Ready) :
    lastHardState hs (rds ++ [rd]) =
      if rd.hardState.isEmptyState then lastHardState hs rds else rd.hardState := by
  rw [lastHardState, List.foldl_append]
  rfl

/-- **Every call keeps the previous hard state at the last one that was passed to `advance`.** -/
theorem Advanced.act {hs : HardState} {c : Call} (h : d.Advanced hs)
    (hact : d.act pack c = Except.ok d') : d'.Advanced hs := by
  rw [Advanced] at h ⊢
  rcases act_prev hact with ⟨hprev, hphase, hhanded⟩ | ⟨hidle, n, rd, hready, rfl⟩ |
    ⟨rd, storage, htaken, rfl⟩ | ⟨rd, hstored, rfl⟩
  · rw [hprev, hphase, hhanded]
    exact h
  · rw [hidle] at h
    exact ⟨d.handed, rfl, (ready_hardState hready).1.trans h⟩
  · rw [htaken] at h
    exact h
  · rw [hstored] at h
    obtain ⟨rds, hhanded, hprev⟩ := h
    show (if rd.hardState.isEmptyState then d.node.prevHardState else rd.hardState) =
      lastHardState hs d.handed
    rw [hhanded, lastHardState_snoc, hprev]

/-- A flag that is raised for entries or zeros that stay, beside a need for it that comes with
entries or a change. -/
lemma flag_iff {entries term vote commit : Prop} {t v : Nat} :
    ((entries ∨ (term ∧ vote ∧ commit) ∧ (v ≠ 0 ∨ t ≠ 0)) ↔ entries ∨ ¬ term ∨ ¬ vote) ↔
      entries ∨ term ∧ vote ∧ (commit → t = 0 ∧ v = 0) := by
  by_cases hentries : entries
  · simp [hentries]
  by_cases hchanged : term ∧ vote
  · obtain ⟨hterm, hvote⟩ := hchanged
    simp only [hentries, hterm, hvote, true_and, false_or, not_true, iff_false, or_self]
    tauto
  · tauto

/-- **When `must_sync` is right**: for every `Ready` of a run, if and only if it carries entries, or
neither term nor vote have changed, and either the commit index has or both are 0. -/
theorem mustSync_agrees (hrun : RunOf (Driver.act pack) (fun _ _ => True) { node := n } d)
    (hidle : d.phase = Phase.idle) (hready : d.node.ready = Except.ok (n', rd)) :
    (rd.mustSync = true ↔ rd.entries ≠ [] ∨
      d.node.raft.term ≠ (lastHardState n.prevHardState d.handed).term ∨
      d.node.raft.vote ≠ (lastHardState n.prevHardState d.handed).vote) ↔
    d.log.unstable.entries ≠ [] ∨
      d.node.raft.term = (lastHardState n.prevHardState d.handed).term ∧
      d.node.raft.vote = (lastHardState n.prevHardState d.handed).vote ∧
      (d.log.committed = (lastHardState n.prevHardState d.handed).commit →
        d.node.raft.term = 0 ∧ d.node.raft.vote = 0) := by
  have hlast : d.node.prevHardState = lastHardState n.prevHardState d.handed := by
    have hadvanced : d.Advanced n.prevHardState := by
      refine hrun.invariant (I := Advanced n.prevHardState) ?_ ?_
      · intro s call s' hs _ hact
        exact hs.act hact
      · rfl
    rw [Advanced, hidle] at hadvanced
    exact hadvanced
  obtain ⟨-, hentries, hsync, -⟩ := ready_hardState hready
  have hsync : rd.mustSync = true ↔ rd.entries ≠ [] ∨
      (d.node.raft.hardState = d.node.prevHardState ∧
        (d.node.raft.vote ≠ 0 ∨ d.node.raft.term ≠ 0)) := by
    rw [hsync, isMustSync]
    by_cases hsame : d.node.raft.hardState = d.node.prevHardState
    · rw [if_pos hsame, and_iff_right hsame]
      show (rd.entries.length != 0 || d.node.raft.vote != 0 || d.node.raft.term != 0) = true ↔ _
      simp [or_assoc]
    · rw [if_neg hsame]
      simp [hsame]
  have hsame : d.node.raft.hardState = d.node.prevHardState ↔
      d.node.raft.term = d.node.prevHardState.term ∧ d.node.raft.vote = d.node.prevHardState.vote ∧
      d.log.committed = d.node.prevHardState.commit := by
    constructor
    · intro heq
      rw [← heq]
      exact ⟨rfl, rfl, rfl⟩
    · rintro ⟨hterm, hvote, hcommit⟩
      rw [Raft.hardState, hterm, hvote, show d.node.raft.raftLog.committed = _ from hcommit]
  rw [hsync, hsame, hentries, ← hlast]
  exact flag_iff

/-- The entry of a new leader. -/
theorem mustSync_agrees_lone : ∃ (d : Driver) (n' : RawNode) (rd : Ready),
    RunOf (Driver.act fun _ => []) (fun _ _ => True) { node := loneNode } d ∧
    d.node.ready = Except.ok (n', rd) ∧ d.log.unstable.entries ≠ [] ∧
    (rd.mustSync = true ↔ rd.entries ≠ [] ∨
      d.node.raft.term ≠ (lastHardState loneNode.prevHardState d.handed).term ∨
      d.node.raft.vote ≠ (lastHardState loneNode.prevHardState d.handed).vote) := by
  let calls : List Call := [Call.ready, Call.store, Call.advance, Call.campaign]
  have hreached : ((calls.foldlM (RunOf.exec (Driver.act fun _ => []) fun _ _ => True)
      { node := loneNode }).toOption.any fun d =>
        decide (d.phase = Phase.idle ∧ d.log.unstable.entries ≠ []) &&
          d.node.ready.toOption.isSome) = true := by
    decide
  obtain ⟨d, hd, hreached⟩ := (Option.any_eq_true ..).mp hreached
  obtain ⟨hstate, hready⟩ := Bool.and_eq_true_iff.mp hreached
  obtain ⟨hidle, hentries⟩ := of_decide_eq_true hstate
  obtain ⟨⟨n', rd⟩, hready⟩ := Option.isSome_iff_exists.mp hready
  have hrun := RunOf.of_exec (Outcome.eq_ok_of_toOption hd)
  have hready := Outcome.eq_ok_of_toOption hready
  exact ⟨d, n', rd, hrun, hready, hentries,
    (mustSync_agrees hrun hidle hready).mpr (Or.inl hentries)⟩

/-- A candidate has voted for itself in a new term, and `must_sync` says that this can wait; once it
is stored, nothing has changed, and `must_sync` says that it cannot. -/
theorem mustSync_inverted : ∃ (n : RawNode) (d d' : Driver),
    Boots (fun _ => []) emptyConf n ∧
    RunOf (Driver.act fun _ => []) (fun _ _ => True) { node := n } d ∧ d.phase = Phase.idle ∧
    (∃ n' rd, d.node.ready = Except.ok (n', rd) ∧ rd.mustSync = false ∧
      d.node.raft.term ≠ (lastHardState n.prevHardState d.handed).term) ∧
    RunOf (Driver.act fun _ => []) (fun _ _ => True) { node := n } d' ∧ d'.phase = Phase.idle ∧
    ∃ n' rd, d'.node.ready = Except.ok (n', rd) ∧ rd.mustSync = true ∧ rd.entries = [] ∧
      d'.node.raft.term = (lastHardState n.prevHardState d'.handed).term ∧
      d'.node.raft.vote = (lastHardState n.prevHardState d'.handed).vote := by
  let n := (RawNode.restart emptyConf).toOption.get (by decide)
  have hvoted : (([Call.campaign].foldlM (RunOf.exec (Driver.act fun _ => []) fun _ _ => True)
      { node := n }).toOption.any fun d => decide (d.phase = Phase.idle) &&
        d.node.ready.toOption.any fun p => decide (p.2.mustSync = false ∧
          d.node.raft.term ≠ (lastHardState n.prevHardState d.handed).term)) = true := by
    decide
  have hstored : (([Call.campaign, Call.ready, Call.store, Call.advance].foldlM
      (RunOf.exec (Driver.act fun _ => []) fun _ _ => True) { node := n }).toOption.any fun d =>
        decide (d.phase = Phase.idle) && d.node.ready.toOption.any fun p =>
          decide (p.2.mustSync = true ∧ p.2.entries = [] ∧
            d.node.raft.term = (lastHardState n.prevHardState d.handed).term ∧
            d.node.raft.vote = (lastHardState n.prevHardState d.handed).vote)) = true := by
    decide
  obtain ⟨d, hd, hvoted⟩ := (Option.any_eq_true ..).mp hvoted
  obtain ⟨hidle, hvoted⟩ := Bool.and_eq_true_iff.mp hvoted
  obtain ⟨⟨n₁, rd⟩, hready, hvoted⟩ := (Option.any_eq_true ..).mp hvoted
  obtain ⟨d', hd', hstored⟩ := (Option.any_eq_true ..).mp hstored
  obtain ⟨hidle', hstored⟩ := Bool.and_eq_true_iff.mp hstored
  obtain ⟨⟨n₂, rd'⟩, hready', hstored⟩ := (Option.any_eq_true ..).mp hstored
  exact ⟨n, d, d', Or.inl (Outcome.eq_ok_get (by decide)),
    RunOf.of_exec (Outcome.eq_ok_of_toOption hd), of_decide_eq_true hidle,
    ⟨n₁, rd, Outcome.eq_ok_of_toOption hready, of_decide_eq_true hvoted⟩,
    RunOf.of_exec (Outcome.eq_ok_of_toOption hd'), of_decide_eq_true hidle',
    n₂, rd', Outcome.eq_ok_of_toOption hready', of_decide_eq_true hstored⟩

end Driver

end RaftKv
