import RaftKv.Server.Compaction

/-!
# The data of a snapshot

The storage holds one snapshot object, and hands it out.  Who writes to it: `apply_snapshot` and
`create_snapshot`, and `schedule`, which moves its data away.

* `Recorded` — a process, and what was put into its storage as snapshot since its start.
* `RaftNode.NothingPending` — no received snapshot waits to be installed: what holds behind every
  start and behind every round, so that a call may come right after either.
* `Recorded.Complete` — the storage holds the newest one of them, and every `MsgSnap` carries one.
* `Recorded.Sane.act` — every action keeps that, but for a start from a snapshot with data.
* `Recorded.snapshots_complete` — **a process that never starts from a snapshot with data sends complete
  snapshots; one that does holds an empty one**.
-/

namespace RaftKv

open RaftLog RaftNode

/-- A process, with index and data of every snapshot that was loaded at its start, installed or made,
the newest one at the end. -/
structure Recorded where
  proc : RaftNode
  snaps : List (Nat × Bytes)

namespace RaftNode

/-- Index and data of the snapshot that a disk is loaded with. -/
def loadedSnaps (site : Site) (disk : Disk) : List (Nat × Bytes) :=
  match (disk.snapDir.load site.snap).2 with
  | none => []
  | some snap => if snap.isEmpty then [] else [(snap.metadata.index, snap.data)]

/-- What a round hands to `apply_snapshot` and to `create_snapshot`. -/
def roundSnaps (site : Site) (data : Bytes) (s : RaftNode) : List (Nat × Bytes) :=
  match s.node.ready with
  | Except.error _ => []
  | Except.ok (node, rd) =>
      if ¬ s.node.hasReady ∨ ¬ rd.containsUpdates then []
      else
        (if rd.snapshot.isEmpty then [] else [(rd.snapshot.metadata.index, rd.snapshot.data)]) ++
          match ({ s with node := node } : RaftNode).settle site rd with
          | Except.error _ => []
          | Except.ok s₁ => if s₁.SnapshotDue then [(s₁.appliedIndex, data)] else []

/-- No snapshot that was received waits to be installed. -/
def NothingPending (s : RaftNode) : Prop := s.log.unstable.snapshot = none

instance (s : RaftNode) : Decidable s.NothingPending :=
  inferInstanceAs (Decidable (s.log.unstable.snapshot = none))

/-- A disk without a snapshot, or with one without data. -/
def Bare (site : Site) (disk : Disk) : Prop := ∀ p ∈ loadedSnaps site disk, p.2 = []

instance (site : Site) (disk : Disk) : Decidable (Bare site disk) :=
  inferInstanceAs (Decidable (∀ p ∈ loadedSnaps site disk, p.2 = []))

/-! ## Where a call may come -/

lemma NothingPending.snapshot {s : RaftNode} (h : s.NothingPending) :
    s.log.snapshot = s.storage.snapshot := by
  show s.log.unstable.snapshot.getD s.storage.snapshot = _
  rw [show s.log.unstable.snapshot = none from h]
  rfl

/-- What `has_ready` passes over is no pending snapshot. -/
lemma Tied.nothingPending {s : RaftNode} (h : s.Tied) (hno : s.node.hasReady = false) :
    s.NothingPending := by
  show s.node.raft.raftLog.unstable.snapshot = none
  cases hs : s.node.raft.raftLog.unstable.snapshot with
  | none => rfl
  | some snap =>
      have hpos := h.idle snap hs
      have hempty : snap.isEmpty = false := by
        rw [Snapshot.isEmpty, beq_eq_false_iff_ne]
        omega
      simp [RawNode.hasReady, hs, hempty] at hno

/-- The bootstrap entries are appended behind whatever snapshot the log has. -/
lemma boots_nothingPending {pack : ConfChange → Bytes} {c : Config} {n : RawNode}
    (h : Boots pack c n) : n.raft.raftLog.unstable.snapshot = none := by
  have hinit : ∀ {r : Raft}, Raft.init c = Except.ok r → r.raftLog.unstable.snapshot = none := by
    intro r hr
    obtain ⟨-, -, -, committed, -, -, -, hlog⟩ := Raft.init_eq_ok hr
    rw [hlog]
    rfl
  obtain ⟨r, hr, hn | ⟨-, peers, hboot⟩⟩ := boots_cases h
  · rw [hn]
    exact hinit hr
  · obtain ⟨l, last, happend, hlog, -, -⟩ := bootstrap_eq_ok hboot
    rw [hlog]
    show l.unstable.snapshot = none
    rw [append_pending happend]
    exact hinit hr

/-- **Behind every start, nothing is pending.** -/
theorem boot_nothingPending {site : Site} {disk : Disk} {fileSize : Nat} {s : RaftNode}
    (h : boot site disk fileSize = Except.ok s) : s.NothingPending := by
  obtain ⟨storage, wal, snapDir, last, node, -, hstart, rfl⟩ := boot_eq_ok h
  show node.raft.raftLog.unstable.snapshot = none
  exact boots_nothingPending (c := (config site storage).validate.1) (Or.inr ⟨_, hstart⟩)

/-- **Behind every round, nothing is pending**: what was received is installed. -/
theorem handleReady_nothingPending {site : Site} {s s' : RaftNode} {data : Bytes}
    (hkept : site.snapshotCatchUpEntriesN ≤ s.snapCount) (h : s.Tied)
    (hround : s.handleReady site data = Except.ok s') : s'.NothingPending := by
  rcases handleReady_cases hround with ⟨hno, rfl⟩ | ⟨-, node, rd, hready, hno, rfl⟩ |
    ⟨-, node, rd, s₁, s₂, hready, -, hsettle, htrigger, rfl⟩
  · exact h.nothingPending hno
  · have htakes := h.takes hready
    show node.raft.raftLog.unstable.snapshot = none
    rw [htakes.log]
    show s.log.unstable.snapshot = none
    rw [htakes.snapshot, Ready.pendingSnapshot, if_pos]
    simp only [Ready.containsUpdates, Bool.or_eq_false_iff] at hno
    simpa using hno.1.1.1.1.2
  · obtain ⟨hsettled, hcount, -⟩ := settle_eq_ok h hready hsettle
    obtain ⟨s₂', htrigger', hsettled', -⟩ := trigger_returns (hkept.trans hcount.ge) hsettled data
    obtain rfl : s₂' = s₂ := Except.ok.inj (htrigger'.symm.trans htrigger)
    show (s₂'.advance rd).log.unstable.snapshot = none
    rw [hsettled'.advance_log]

end RaftNode

namespace Recorded

def start (site : Site) (disk : Disk) (fileSize : Nat) : Outcome Recorded := do
  let s ← boot site disk fileSize
  return { proc := s, snaps := loadedSnaps site disk }

def act (site : Site) (w : Recorded) : RaftNode.Action → Outcome Recorded
  | Action.call c => do
      let s ← w.proc.act site (Action.call c)
      return { w with proc := s }
  | Action.handleReady data => do
      let s ← w.proc.act site (Action.handleReady data)
      return { proc := s, snaps := w.snaps ++ w.proc.roundSnaps site data }
  | Action.restart disk fileSize => start site disk fileSize

/-- Messages are what their senders make of them, and between a call that takes a snapshot in and the
next call there is a round: the process calls `pull_ready_events` behind each call. -/
def Allowed (w : Recorded) : RaftNode.Action → Prop
  | Action.call c => c.Stamped ∧ c.Numbered ∧ c ≠ Call.ready ∧ w.proc.NothingPending
  | _ => True

instance (w : Recorded) : (a : RaftNode.Action) → Decidable (w.Allowed a)
  | Action.call c =>
      inferInstanceAs (Decidable (c.Stamped ∧ c.Numbered ∧ c ≠ Call.ready ∧ w.proc.NothingPending))
  | Action.handleReady _ | Action.restart .. => inferInstanceAs (Decidable True)

/-- No start is from a snapshot with data. -/
def StartsBare (site : Site) : RaftNode.Action → Prop
  | Action.restart disk _ => Bare site disk
  | _ => True

instance (site : Site) : (a : RaftNode.Action) → Decidable (StartsBare site a)
  | Action.restart disk _ => inferInstanceAs (Decidable (Bare site disk))
  | Action.call _ | Action.handleReady _ => inferInstanceAs (Decidable True)

/-- The snapshot that the storage holds is the newest one that was put there. -/
def Held (w : Recorded) : Prop :=
  w.snaps.getLast?.getD (0, []) =
    (w.proc.storage.snapshot.metadata.index, w.proc.storage.snapshot.data)

/-- The data of a snapshot is what was put into the storage for its index. -/
def Genuine (w : Recorded) (snap : Snapshot) : Prop :=
  (snap.metadata.index, snap.data) ∈ w.snaps ∧
    ∀ p ∈ w.snaps, p.1 = snap.metadata.index → p.2 = snap.data

/-- **Complete snapshots**: nothing but what was put there is held, queued or sent. -/
structure Complete (w : Recorded) : Prop where
  held : w.Held
  genuine : ∀ m ∈ w.proc.node.raft.msgs ++ w.proc.sentMessages, m.type = MessageType.msgSnap →
    w.Genuine m.snapshot

/-! ## The list of the snapshots -/

/-- The list ends with the snapshot that is held, and rises to it. -/
structure Ledger (snaps : List (Nat × Bytes)) (snap : Snapshot) : Prop where
  held : snaps.getLast?.getD (0, []) = (snap.metadata.index, snap.data)
  rising : snaps.Pairwise fun p q => p.1 < q.1
  bound : ∀ p ∈ snaps, p.1 ≤ snap.metadata.index

variable {site : Site} {snaps : List (Nat × Bytes)} {snap snap' : Snapshot}

lemma Ledger.mem (h : Ledger snaps snap) (hne : snap.isEmpty = false) :
    (snap.metadata.index, snap.data) ∈ snaps := by
  have hheld := h.held
  cases hlast : snaps.getLast? with
  | none =>
      rw [hlast] at hheld
      have hzero : 0 = snap.metadata.index := congrArg Prod.fst hheld
      rw [Snapshot.isEmpty, ← hzero] at hne
      cases hne
  | some p =>
      rw [hlast, Option.getD_some] at hheld
      rw [← hheld]
      exact List.mem_of_getLast? hlast

/-- A newer snapshot is put into the storage. -/
lemma Ledger.push (h : Ledger snaps snap) (hlt : snap.metadata.index < snap'.metadata.index) :
    Ledger (snaps ++ [(snap'.metadata.index, snap'.data)]) snap' := by
  refine ⟨by simp, ?_, fun p hp => ?_⟩
  · rw [List.pairwise_append]
    refine ⟨h.rising, List.pairwise_singleton .., fun p hp q hq => ?_⟩
    rw [List.mem_singleton] at hq
    rw [hq]
    exact lt_of_le_of_lt (h.bound p hp) hlt
  · rcases List.mem_append.mp hp with hp | hp
    · exact (h.bound p hp).trans hlt.le
    · rw [List.mem_singleton] at hp
      rw [hp]

/-- An index has one data. -/
lemma Ledger.unique (h : Ledger snaps snap) {p q : Nat × Bytes} (hp : p ∈ snaps) (hq : q ∈ snaps)
    (hindex : p.1 = q.1) : p = q := by
  have hnodup : (snaps.map Prod.fst).Nodup := by
    rw [List.nodup_iff_pairwise_ne, List.pairwise_map]
    exact h.rising.imp fun hlt => Nat.ne_of_lt hlt
  exact List.inj_on_of_nodup_map hnodup hp hq hindex

/-! ## A call -/

/-- Only a message of the network brings a snapshot. -/
lemma stepped_msgSnap {pack : ConfChange → Bytes} {n : RawNode} {c : Call}
    (h : (c.stepped pack n).type = MessageType.msgSnap) :
    ∃ m, c = Call.step m ∧ m.type = MessageType.msgSnap := by
  cases c with
  | step m => exact ⟨m, rfl, h⟩
  | _ => cases h

/-- **The snapshots that a call sends** are the log's own one. -/
lemma call_sends {pack : ConfChange → Bytes} {n : RawNode} {c : Call} {d : Driver}
    (hstamped : c.Stamped) (hact : Driver.act pack { node := n } c = Except.ok d) :
    Raft.SendsSnapshot n.raft.raftLog.snapshot n.raft d.node.raft := by
  by_cases hsnap : (c.stepped pack n).type = MessageType.msgSnap
  · obtain ⟨m, rfl, ht⟩ := stepped_msgSnap hsnap
    rw [Driver.act] at hact
    obtain ⟨n', status, hn, rfl⟩ := Driver.onNodeWith_eq_ok hact
    simp only [RawNode.step] at hn
    split at hn
    · cases hn
      exact Raft.SendsSnapshot.nothing rfl
    split at hn
    · obtain ⟨⟨r, status'⟩, hstep, hn⟩ := Outcome.bind_eq_ok.mp hn
      cases hn
      exact Raft.step_msgSnap_sends ht hstep
    · cases hn
      exact Raft.SendsSnapshot.nothing rfl
  · rcases Driver.act_deeds hstamped hact with ⟨⟨r, hgroup, hdeeds⟩, -, -⟩ |
      ⟨-, n', rd, hready, rfl⟩ | ⟨rd, storage, htaken, -, -⟩ | ⟨-, rd, hstored, -⟩
    · obtain ⟨hsame, hmsgs⟩ := hgroup.sends
      have hsends := (hdeeds.sends hsnap).2
      rw [hsame] at hsends
      exact (Raft.SendsSnapshot.nothing hmsgs).trans hsends
    · obtain ⟨-, -, -, -, hn⟩ := RawNode.ready_eq_ok hready
      have hmsgs : n'.raft.msgs = [] := by
        rw [hn]
        rfl
      intro msg hmsg
      rw [hmsgs] at hmsg
      cases hmsg
    · cases htaken
    · cases hstored

/-! ## Runs -/

/-- **The invariant of a run.** -/
structure Sane (site : Site) (w : Recorded) : Prop where
  tied : w.proc.Tied
  count : w.proc.snapCount = site.snapCount
  ledger : Ledger w.snaps w.proc.storage.snapshot
  kept : ∀ m ∈ w.proc.node.raft.msgs ++ w.proc.sentMessages, m.type = MessageType.msgSnap →
    (m.snapshot.metadata.index, m.snapshot.data) ∈ w.snaps

lemma Sane.complete {w : Recorded} (h : w.Sane site) : w.Complete := by
  refine ⟨h.ledger.held, fun m hm ht => ⟨h.kept m hm ht, fun p hp hindex => ?_⟩⟩
  exact congrArg Prod.snd (h.ledger.unique hp (h.kept m hm ht) hindex)

/-- A disk without a snapshot, and one with a snapshot. -/
lemma loadedSnaps_cases (site : Site) (disk : Disk) :
    (loadedSnaps site disk = [] ∧
      (loadedStorage (disk.snapDir.load site.snap).2).snapshot = {}) ∨
    ∃ snap : Snapshot, loadedSnaps site disk = [(snap.metadata.index, snap.data)] ∧
      (loadedStorage (disk.snapDir.load site.snap).2).snapshot = snap := by
  rw [loadedSnaps]
  cases (disk.snapDir.load site.snap).2 with
  | none => exact Or.inl ⟨rfl, rfl⟩
  | some snap =>
      have hstorage : loadedStorage (some snap) = (({} : MemoryStorage).applySnapshot snap).1 := rfl
      dsimp only
      rw [hstorage, MemoryStorage.applySnapshot]
      by_cases hempty : snap.isEmpty = true
      · have hzero := Snapshot.isEmpty_iff.mp hempty
        have hrefused : ({} : MemoryStorage).snapshot.metadata.index ≥ snap.metadata.index := by
          rw [hzero]
        rw [if_pos hempty, if_pos hrefused]
        exact Or.inl ⟨rfl, rfl⟩
      · have hpos : ¬ ({} : MemoryStorage).snapshot.metadata.index ≥ snap.metadata.index := by
          rw [Snapshot.isEmpty_iff] at hempty
          exact fun hle => hempty (Nat.le_zero.mp hle)
        rw [if_neg hempty, if_neg hpos]
        exact Or.inr ⟨snap, rfl, rfl⟩

/-- A process that has just been started holds the loaded snapshot exactly if this has no data. -/
lemma start_held {disk : Disk} {fileSize : Nat} {w : Recorded}
    (h : start site disk fileSize = Except.ok w) : w.Held ↔ Bare site disk := by
  obtain ⟨s, hboot, h⟩ := Outcome.bind_eq_ok.mp h
  obtain rfl := Outcome.pure_eq_ok.mp h
  obtain ⟨hsnapshot, -, -⟩ := boot_snapshot hboot
  rw [Held, Bare]
  dsimp only
  rw [hsnapshot]
  rcases loadedSnaps_cases site disk with ⟨hnil, hempty⟩ | ⟨snap, hone, hsnap⟩
  · rw [hnil, hempty]
    exact ⟨fun _ p hp => (by cases hp), fun _ => rfl⟩
  · rw [hone, hsnap]
    simp

theorem start_sane {disk : Disk} {fileSize : Nat} {w : Recorded} (hbare : Bare site disk)
    (h : start site disk fileSize = Except.ok w) : w.Sane site := by
  have hheld := (start_held h).mpr hbare
  obtain ⟨s, hboot, h⟩ := Outcome.bind_eq_ok.mp h
  obtain rfl := Outcome.pure_eq_ok.mp h
  obtain ⟨htied, hcount⟩ := boot_tied hboot
  obtain ⟨hsnapshot, hmsgs, hsent⟩ := boot_snapshot hboot
  refine ⟨htied, hcount, ⟨hheld, ?_, ?_⟩, ?_⟩
  · dsimp only
    rcases loadedSnaps_cases site disk with ⟨hnil, -⟩ | ⟨snap, hone, -⟩
    · rw [hnil]
      exact List.Pairwise.nil
    · rw [hone]
      exact List.pairwise_singleton ..
  · intro p hp
    dsimp only at hp ⊢
    rw [hsnapshot]
    rcases loadedSnaps_cases site disk with ⟨hnil, -⟩ | ⟨snap, hone, hsnap⟩
    · rw [hnil] at hp
      cases hp
    · rw [hone, List.mem_singleton] at hp
      rw [hp, hsnap]
  · intro m hm
    dsimp only at hm
    rw [hmsgs, hsent] at hm
    cases hm

/-- The list behind a round that settles a `Ready`. -/
lemma roundSnaps_eq {s s₁ : RaftNode} {node : RawNode} {rd : Ready} {data : Bytes}
    (hhas : s.node.hasReady = true) (hready : s.node.ready = Except.ok (node, rd))
    (hupdates : rd.containsUpdates = true)
    (hsettle : ({ s with node := node } : RaftNode).settle site rd = Except.ok s₁) :
    s.roundSnaps site data =
      (if rd.snapshot.isEmpty then [] else [(rd.snapshot.metadata.index, rd.snapshot.data)]) ++
        if s₁.SnapshotDue then [(s₁.appliedIndex, data)] else [] := by
  rw [roundSnaps, hready]
  dsimp only
  rw [if_neg (by simp [hhas, hupdates]), hsettle]

/-- **A round keeps the invariant.** -/
theorem Sane.round {w : Recorded} {s' : RaftNode} {data : Bytes}
    (hkept : site.snapshotCatchUpEntriesN ≤ site.snapCount) (h : w.Sane site)
    (hround : w.proc.handleReady site data = Except.ok s') :
    Sane site { proc := s', snaps := w.snaps ++ w.proc.roundSnaps site data } := by
  obtain ⟨htied', hcount'⟩ := Tied.act (a := Action.handleReady data) hkept ⟨h.tied, h.count⟩ trivial
    hround
  rcases handleReady_cases hround with ⟨hno, rfl⟩ | ⟨hhas, node, rd, hready, hno, rfl⟩ |
    ⟨hhas, node, rd, s₁, s₂, hready, hupdates, hsettle, htrigger, rfl⟩
  · have hnil : w.proc.roundSnaps site data = [] := by
      rw [roundSnaps]
      split
      · rfl
      · exact if_pos (Or.inl (by simp [hno]))
    rw [hnil, List.append_nil]
    exact h
  · have hnil : w.proc.roundSnaps site data = [] := by
      rw [roundSnaps, hready]
      exact if_pos (Or.inr (by simp [hno]))
    have htakes := h.tied.takes hready
    have hstorage : ({ w.proc with node := node } : RaftNode).storage = w.proc.storage :=
      congrArg RaftLog.storage htakes.log
    rw [hnil, List.append_nil]
    refine ⟨htied', hcount', ?_, fun m hm ht => ?_⟩
    · dsimp only
      rw [hstorage]
      exact h.ledger
    · have hm : m ∈ node.raft.msgs ++ w.proc.sentMessages := hm
      rw [htakes.msgs, List.nil_append] at hm
      exact h.kept m (List.mem_append_right _ hm) ht
  · obtain ⟨hsettled, hcount₁, -⟩ := settle_eq_ok h.tied hready hsettle
    obtain ⟨hsent₁, hsnapshot₁, hsends₁⟩ := settle_sends h.tied hready hsettle
    obtain ⟨s₂', htrigger', -, htriggers⟩ := trigger_returns
      (hkept.trans (hcount₁.trans h.count).ge) hsettled data
    obtain rfl : s₂' = s₂ := Except.ok.inj (htrigger'.symm.trans htrigger)
    have hpending := (h.tied.takes hready).snapshot
    have hinstalled : Ledger (w.snaps ++
        if rd.snapshot.isEmpty then [] else [(rd.snapshot.metadata.index, rd.snapshot.data)])
        s₁.storage.snapshot := by
      rw [hsnapshot₁]
      rw [Ready.pendingSnapshot] at hpending ⊢
      split
      · rw [List.append_nil]
        exact h.ledger
      · rename_i hfull
        rw [if_neg hfull] at hpending
        exact h.ledger.push (h.tied.idle _ hpending)
    have hmade : Ledger (w.snaps ++ w.proc.roundSnaps site data) s₂'.storage.snapshot := by
      rw [roundSnaps_eq hhas hready hupdates hsettle, ← List.append_assoc]
      by_cases hdue : s₁.SnapshotDue
      · obtain ⟨hindex, hdata⟩ := htriggers.made hdue
        rw [if_pos hdue, ← hindex, ← hdata]
        refine hinstalled.push ?_
        have hsnapshot := hsettled.snapshot_le
        rw [SnapshotDue, uint64Sub, if_pos hsnapshot] at hdue
        rw [hindex, hsettled.snapshot_eq]
        omega
      · rw [if_neg hdue, List.append_nil, htriggers.same hdue]
        exact hinstalled
    rw [← s₂'.advance_storage rd] at hmade
    refine ⟨htied', hcount', hmade, fun m hm ht => ?_⟩
    have hm : m ∈ s₂'.node.raft.msgs ++ s₂'.sentMessages := hm
    rw [htriggers.msgs, htriggers.sent, hsent₁, List.mem_append, List.mem_append] at hm
    dsimp only
    rw [roundSnaps_eq hhas hready hupdates hsettle, ← List.append_assoc]
    rcases hm with hm | hm | hm
    · obtain ⟨hsnap, hne⟩ := hsends₁ m hm ht
      rw [hsnap]
      exact List.mem_append_left _ (hinstalled.mem hne)
    · exact List.mem_append_left _ (List.mem_append_left _
        (h.kept m (List.mem_append_right _ hm) ht))
    · exact List.mem_append_left _ (List.mem_append_left _
        (h.kept m (List.mem_append_left _ hm) ht))

/-- **Every action keeps the invariant**, but for a start from a snapshot with data. -/
theorem Sane.act {w w' : Recorded} {a : RaftNode.Action}
    (hkept : site.snapshotCatchUpEntriesN ≤ site.snapCount) (h : w.Sane site) (ha : w.Allowed a)
    (hbare : StartsBare site a) (hact : w.act site a = Except.ok w') : w'.Sane site := by
  cases a with
  | call c =>
      obtain ⟨s', hs', hact⟩ := Outcome.bind_eq_ok.mp hact
      cases hact
      obtain ⟨d, hd, hs'⟩ := Outcome.bind_eq_ok.mp hs'
      cases hs'
      obtain ⟨hstamped, hnum, -, hpending⟩ := ha
      have hsends := call_sends hstamped hd
      have hown : w.proc.node.raft.raftLog.snapshot = w.proc.storage.snapshot := hpending.snapshot
      have hstorage : ({ w.proc with node := d.node } : RaftNode).storage = w.proc.storage :=
        (call_moves hstamped hnum hd).storage
      rw [hown] at hsends
      refine ⟨h.tied.call hstamped hnum hd, h.count, ?_, fun m hm ht => ?_⟩
      · dsimp only
        rw [hstorage]
        exact h.ledger
      · rcases List.mem_append.mp hm with hm | hm
        · rcases hsends m hm ht with hold | ⟨hsnap, hne⟩
          · exact h.kept m (List.mem_append_left _ hold) ht
          · rw [hsnap]
            exact h.ledger.mem hne
        · exact h.kept m (List.mem_append_right _ hm) ht
  | handleReady data =>
      obtain ⟨s', hs', hact⟩ := Outcome.bind_eq_ok.mp hact
      cases hact
      exact h.round hkept hs'
  | restart disk fileSize => exact start_sane hbare hact

/-- **When a process sends complete snapshots.**  If none of its starts is from a snapshot with data,
then in every state that it reaches the storage holds the newest snapshot that was put there, and
every `MsgSnap` that is queued or was sent carries the data that was put there for its index.  A
process that has just been started from a snapshot with data holds another one. -/
theorem snapshots_complete (hkept : site.snapshotCatchUpEntriesN ≤ site.snapCount) {disk : Disk}
    {fileSize : Nat} {w₀ : Recorded} (hstart : start site disk fileSize = Except.ok w₀) :
    (Bare site disk → ∀ w, RunOf (act site) (fun w a => w.Allowed a ∧ StartsBare site a) w₀ w →
      w.Complete) ∧
    (¬ Bare site disk → ¬ w₀.Complete) := by
  constructor
  · intro hbare w hrun
    have hsane : w.Sane site := by
      refine hrun.invariant (I := Sane site) ?_ (start_sane hbare hstart)
      intro w a w' h ha hact
      exact h.act hkept ha.1 ha.2 hact
    exact hsane.complete
  · intro hloaded hcomplete
    exact hloaded ((start_held hstart).mp hcomplete.held)

/-- A process without a disk ticks right behind its start, makes a snapshot, and holds it. -/
theorem snapshots_complete_lone : ∃ w₀ w : Recorded, start loneSite {} 0 = Except.ok w₀ ∧
    RunOf (act loneSite) (fun w a => w.Allowed a ∧ StartsBare loneSite a) w₀ w ∧
    w.snaps = [(2, [7])] ∧ w.Complete := by
  let acts : List RaftNode.Action :=
    [Action.call Call.tick, Action.handleReady [], Action.call Call.campaign,
      Action.handleReady [7]]
  have hreached : ((start loneSite {} 0).toOption.any fun w₀ =>
      (acts.foldlM (RunOf.exec (act loneSite) fun w a => w.Allowed a ∧ StartsBare loneSite a)
        w₀).toOption.any fun w => decide (w.snaps = [(2, [7])])) = true := by
    decide +kernel
  obtain ⟨w₀, hw₀, hreached⟩ := (Option.any_eq_true ..).mp hreached
  obtain ⟨w, hw, hreached⟩ := (Option.any_eq_true ..).mp hreached
  have hstart := Outcome.eq_ok_of_toOption hw₀
  have hrun := RunOf.of_exec (Outcome.eq_ok_of_toOption hw)
  have hcomplete := (snapshots_complete (Nat.le_refl 1) hstart).1 (by decide +kernel) w hrun
  exact ⟨w₀, w, hstart, hrun, of_decide_eq_true hreached, hcomplete⟩

/-! ## A start from a snapshot with data -/

def pairSite : Site where
  id := 1
  peers := 2
  wal := WalFormat.msgpack
  snap := SnapFormat.msgpack
  confChange := ThreeNodes.codec

/-- The disk of a process that has saved a snapshot. -/
def pairDisk : Disk where
  snapDir := SnapFolder.saveSnap SnapFormat.msgpack ∅
    { data := [7], metadata := { confState := { nodes := [1, 2] }, index := 5, term := 1 } }
  walFile := some (((Wal.openAt (Wal.create WalFormat.msgpack) 0 {}).save WalFormat.msgpack
    { term := 1, commit := 5 } []).saveSnapshot WalFormat.msgpack
      { index := 5, term := 1 }).file.content

/-- The process is elected by a peer that has lost its log. -/
def pairRun : List RaftNode.Action :=
  let answer (type : MessageType) (index : Nat) (reject : Bool) :=
    Action.call (Call.step
      { type := type, toId := 1, fromId := 2, term := 2, index := index, reject := reject })
  [Action.call Call.campaign, Action.handleReady [], answer MessageType.msgPreVoteResp 0 false,
    Action.handleReady [], answer MessageType.msgVoteResp 0 false, Action.handleReady [],
    answer MessageType.msgAppResp 5 true]

/-- The leader sends a snapshot without the data that it was loaded with. -/
theorem loaded_snapshot_sent_empty : ∃ w₀ w : Recorded, start pairSite pairDisk 0 = Except.ok w₀ ∧
    RunOf (act pairSite) Allowed w₀ w ∧ w.snaps = [(5, [7])] ∧
    (∃ m ∈ w.proc.node.raft.msgs, m.type = MessageType.msgSnap ∧
      m.snapshot.metadata.index = 5 ∧ m.snapshot.data = []) ∧ ¬ w.Complete := by
  have hreached : ((start pairSite pairDisk 0).toOption.any fun w₀ =>
      (pairRun.foldlM (RunOf.exec (act pairSite) Allowed) w₀).toOption.any fun w =>
        decide (w.snaps = [(5, [7])] ∧ ∃ m ∈ w.proc.node.raft.msgs,
          m.type = MessageType.msgSnap ∧ m.snapshot.metadata.index = 5 ∧
          m.snapshot.data = [])) = true := by
    decide +kernel
  obtain ⟨w₀, hw₀, hreached⟩ := (Option.any_eq_true ..).mp hreached
  obtain ⟨w, hw, hreached⟩ := (Option.any_eq_true ..).mp hreached
  obtain ⟨hsnaps, m, hm, ht, hindex, hdata⟩ := of_decide_eq_true hreached
  refine ⟨w₀, w, Outcome.eq_ok_of_toOption hw₀, RunOf.of_exec (Outcome.eq_ok_of_toOption hw),
    hsnaps, ⟨m, hm, ht, hindex, hdata⟩, fun hcomplete => ?_⟩
  obtain ⟨hmem, -⟩ := hcomplete.genuine m (List.mem_append_left _ hm) ht
  rw [hsnaps, hdata, List.mem_singleton] at hmem
  cases congrArg Prod.snd hmem

end Recorded

end RaftKv
