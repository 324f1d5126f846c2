import RaftKv.Server.Recovery

/-!
# The crash points of a round

A round of `pull_ready_events` writes in steps: the log, the mark of a snapshot, its file.  The
process may end between any two of them, and what is in the buffer of the log is then lost; the bytes
that `fwrite` was given are on disk.

* `RaftNode.crashDisk` — what a process leaves behind at each of these points.
* `RaftNode.handleReady_disk` — a whole round leaves the disk as its last point does.
* `RaftNode.Installing` — the window of a received snapshot: the points behind `WAL::save` and behind
  the mark, where the log may already say that it was committed, and its file is not there.
* `RaftNode.Survives` — rounds write what can be read back, and starts are from what was left at any
  crash point.
* `RaftNode.crash_holds` — **at every point but these two**, what the node relies on is on disk.
-/

namespace RaftKv

open Outcome RaftLog

namespace RaftNode

variable {site : Site} {data : Bytes} {s s' s₁ : RaftNode} {rd : Ready} {node : RawNode}
  {loaded : Option Snapshot} {t : WalReplay} {snap : Snapshot}

/-! ## What is written, and where -/

/-- The round that begins: the node behind `ready`, and what there is to do. -/
def takeReady (s : RaftNode) : Option (RaftNode × Ready) := do
  guard s.node.hasReady
  let p ← s.node.ready.toOption
  guard p.2.containsUpdates
  return ({ s with node := p.1 }, p.2)

/-- Behind `WAL::save`. -/
def saved (site : Site) (s : RaftNode) (rd : Ready) : RaftNode :=
  { s with wal := s.wal.save site.wal rd.hardState rd.entries }

/-- Within `save_snap`: behind `WAL::save_snapshot`. -/
def marked (site : Site) (s : RaftNode) (snap : Snapshot) : RaftNode :=
  { s with wal := s.wal.saveSnapshot site.wal snap.position }

/-- The snapshot that `maybe_trigger_snapshot` makes. -/
def localSnapshot (data : Bytes) (s : RaftNode) : Option Snapshot :=
  if uint64Sub s.appliedIndex s.snapshotIndex ≤ s.snapCount then none
  else
    match s.storage.createSnapshot s.appliedIndex (some s.confState) data with
    | Except.ok (_, snap, Status.ok) => some snap
    | _ => none

/-- The points of a round between two writes. -/
inductive CrashPoint where
  /-- Nothing of the round is written. -/
  | idle
  /-- Behind `WAL::save`. -/
  | saved
  /-- The mark of the received snapshot is written. -/
  | marked
  /-- The received snapshot is written. -/
  | filed
  /-- The mark of the local snapshot is written. -/
  | localMarked
  /-- The local snapshot is written. -/
  | localFiled
  deriving DecidableEq

/-- The process at a point of its next round, if the round comes that far. -/
def writing (site : Site) (data : Bytes) (s : RaftNode) : CrashPoint → Option RaftNode
  | CrashPoint.idle => some s
  | CrashPoint.saved => do
      let p ← s.takeReady
      return p.1.saved site p.2
  | CrashPoint.marked => do
      let p ← s.takeReady
      let snap ← p.2.pendingSnapshot
      return (p.1.saved site p.2).marked site snap
  | CrashPoint.filed => do
      let p ← s.takeReady
      let snap ← p.2.pendingSnapshot
      return (p.1.saved site p.2).saveSnap site snap
  | CrashPoint.localMarked => do
      let p ← s.takeReady
      let s₁ ← (p.1.settle site p.2).toOption
      let snap ← s₁.localSnapshot data
      return s₁.marked site snap
  | CrashPoint.localFiled => do
      let p ← s.takeReady
      let s₁ ← (p.1.settle site p.2).toOption
      let snap ← s₁.localSnapshot data
      return s₁.saveSnap site snap

/-- What the process leaves behind if it ends there. -/
def crashDisk (site : Site) (data : Bytes) (s : RaftNode) (point : CrashPoint) : Option Disk :=
  (s.writing site data point).map disk

/-- The hard state and the entries that are on disk there. -/
def kept (s : RaftNode) : CrashPoint → HardState × List Entry
  | CrashPoint.idle => (s.node.prevHardState, s.storage.stored)
  | _ => (s.node.raft.hardState, s.log.logical)

lemma takeReady_eq_some {p : RaftNode × Ready} (h : s.takeReady = some p) :
    ∃ node, s.node.hasReady = true ∧ s.node.ready = Except.ok (node, p.2) ∧
      p.2.containsUpdates = true ∧ p.1 = { s with node := node } := by
  rw [takeReady] at h
  obtain ⟨_, hready, h⟩ := Option.bind_eq_some_iff.mp h
  obtain ⟨q, hq, h⟩ := Option.bind_eq_some_iff.mp h
  obtain ⟨_, hupdates, h⟩ := Option.bind_eq_some_iff.mp h
  cases h
  refine ⟨q.1, ?_, eq_ok_of_toOption hq, ?_, rfl⟩
  · exact (Option.guard_eq_some' _).mp hready
  · exact (Option.guard_eq_some' _).mp hupdates

lemma localSnapshot_eq_some (h : s.localSnapshot data = some snap) :
    s.SnapshotDue ∧ ∃ storage,
      s.storage.createSnapshot s.appliedIndex (some s.confState) data =
        Except.ok (storage, snap, Status.ok) := by
  rw [localSnapshot] at h
  split at h
  · cases h
  rename_i hdue
  split at h
  · rename_i storage snap' hcreate
    cases h
    exact ⟨Nat.lt_of_not_le hdue, storage, hcreate⟩
  · cases h

lemma takeReady_of_ready (hready : s.node.hasReady = true)
    (h : s.node.ready = Except.ok (node, rd)) (hupdates : rd.containsUpdates = true) :
    s.takeReady = some ({ s with node := node }, rd) := by
  rw [takeReady, hready, h]
  simp [Except.toOption, hupdates, guard]

/-- What `maybe_trigger_snapshot` has done. -/
lemma trigger_cases (h : s.maybeTriggerSnapshot site data = Except.ok s') :
    (¬ s.SnapshotDue ∧ s' = s) ∨
    ∃ snap storage, s.localSnapshot data = some snap ∧
      ({ s.storage with snapshot := snap } : MemoryStorage).compact
        (if s.appliedIndex > site.snapshotCatchUpEntriesN then
          s.appliedIndex - site.snapshotCatchUpEntriesN
        else 1) = Except.ok (storage, Status.ok) ∧
      s' = { (s.saveSnap site snap).setStorage storage with snapshotIndex := s.appliedIndex } := by
  rw [maybeTriggerSnapshot] at h
  split at h
  · rename_i hdue
    cases h
    exact Or.inl ⟨Nat.not_lt.mpr hdue, rfl⟩
  rename_i hdue
  obtain ⟨p, hcreate, h⟩ := bind_eq_ok.mp h
  dsimp only at h
  split at h
  · cases h
  rename_i hok
  obtain ⟨q, hcompact, h⟩ := bind_eq_ok.mp h
  split at h
  · cases h
  rename_i hok'
  cases h
  have hcreate : s.storage.createSnapshot s.appliedIndex (some s.confState) data =
      Except.ok (p.1, p.2.1, Status.ok) := by
    rw [hcreate, ← not_not.mp hok]
  obtain ⟨-, -, hstorage, -⟩ := MemoryStorage.createSnapshot_eq_ok hcreate
  refine Or.inr ⟨p.2.1, q.1, ?_, ?_, ?_⟩
  · rw [localSnapshot, if_neg hdue, hcreate]
  · rw [← not_not.mp hok', ← hstorage]
    exact hcompact
  · rfl

/-- What is on disk when `send` is called. -/
lemma persist_disk (h : s.persist site rd = Except.ok s₁) :
    (rd.pendingSnapshot = none → s₁.disk = (s.saved site rd).disk) ∧
      ∀ snap, rd.pendingSnapshot = some snap →
        s₁.disk = ((s.saved site rd).saveSnap site snap).disk := by
  obtain ⟨-, -, -, -, -, hnone, hsome⟩ := persist_eq_ok h
  refine ⟨fun hpending => ?_, fun snap hpending => ?_⟩
  · obtain ⟨-, -, hwal, hdir⟩ := hnone hpending
    rw [disk, hwal, hdir]
    rfl
  · obtain ⟨-, -, hwal, hdir⟩ := hsome snap hpending
    rw [disk, hwal, hdir]
    rfl

/-- Publishing writes nothing. -/
lemma settle_persist (htied : s.Tied) (hready : s.node.ready = Except.ok (node, rd))
    (h : ({ s with node := node } : RaftNode).settle site rd = Except.ok s₁) :
    ∃ s₀, ({ s with node := node } : RaftNode).persist site rd = Except.ok s₀ ∧
      s₁.wal = s₀.wal ∧ s₁.snapDir = s₀.snapDir ∧ s₁.storage = s₀.storage := by
  rw [settle_eq] at h
  obtain ⟨s₀, hpersist, hpublish⟩ := bind_eq_ok.mp h
  obtain ⟨es, hes, -, hnum, -⟩ := htied.sound.nextEntries
  obtain rfl : es = rd.committedEntries :=
    Except.ok.inj (hes.symm.trans (htied.takes hready).committed)
  obtain ⟨calls, hcalls⟩ := sendMessages_frame s₀ rd.messages
  rw [hcalls] at hpublish
  obtain ⟨hpub, -, -⟩ := publishCommitted_publishes hnum hpublish
  refine ⟨s₀, hpersist, hpub.wal, hpub.snapDir, ?_⟩
  show s₁.log.storage = s₀.log.storage
  rw [hpub.log.frame.1]
  rfl

/-- **A whole round leaves the disk as its last point does.** -/
theorem handleReady_disk (htied : s.Tied) (h : s.handleReady site data = Except.ok s') :
    ∃ point, s.crashDisk site data point = some s'.disk := by
  rcases handleReady_cases h with ⟨-, rfl⟩ | ⟨-, node, rd, -, -, rfl⟩ |
    ⟨hhas, node, rd, s₁, s₂, hready, hupdates, hsettle, htrigger, rfl⟩
  · exact ⟨CrashPoint.idle, rfl⟩
  · exact ⟨CrashPoint.idle, rfl⟩
  · have htake := takeReady_of_ready hhas hready hupdates
    rcases trigger_cases htrigger with ⟨-, rfl⟩ | ⟨snap, storage, hlocal, -, rfl⟩
    · obtain ⟨s₀, hpersist, hwal, hdir, -⟩ := settle_persist htied hready hsettle
      obtain ⟨hnone, hsome⟩ := persist_disk hpersist
      have hdisk : (s₂.advance rd).disk = s₀.disk := by
        show ({ snapDir := s₂.snapDir, walFile := some s₂.wal.file.content } : Disk) = _
        rw [hwal, hdir]
        rfl
      rw [hdisk]
      cases hpending : rd.pendingSnapshot with
      | none =>
          refine ⟨CrashPoint.saved, ?_⟩
          rw [crashDisk, writing, htake, hnone hpending]
          rfl
      | some snap =>
          refine ⟨CrashPoint.filed, ?_⟩
          rw [crashDisk, writing, htake, hsome snap hpending]
          simp [hpending]
    · refine ⟨CrashPoint.localFiled, ?_⟩
      rw [crashDisk, writing, htake]
      simp only [Option.bind_eq_bind, Option.bind_some, hsettle, Except.toOption, hlocal]
      rfl

/-! ## What can be recovered from -/

/-- The snapshot is read back from its file, and its file is tried before those of the snapshots
before it. -/
structure ReadsBack (site : Site) (s : RaftNode) (snap : Snapshot) : Prop where
  term_le : s.walStart.term ≤ snap.metadata.term
  numbered : snap.Numbered
  loads : site.snap.loadSnap (site.snap.record snap) = some snap
  apart : snap.metadata.confState.Apart

/-- **What the next round writes can be read back.** -/
structure Recorded (site : Site) (data : Bytes) (s : RaftNode) : Prop extends
    Writable site s where
  received : ∀ snap ∈ s.log.unstable.snapshot, s.ReadsBack site snap
  made : ∀ p ∈ s.takeReady, ∀ s₁ ∈ (p.1.settle site p.2).toOption,
    ∀ snap ∈ s₁.localSnapshot data, s₁.ReadsBack site snap

instance (snap : Snapshot) : Decidable snap.Numbered :=
  decidable_of_iff (snap.metadata.term < 2 ^ 64 ∧ snap.metadata.index < 2 ^ 64)
    ⟨fun h => ⟨h.1, h.2⟩, fun h => ⟨h.term, h.index⟩⟩

instance (cs : ConfState) : Decidable cs.Apart :=
  inferInstanceAs (Decidable (∀ id ∈ cs.learners, id ∉ cs.nodes))

instance (site : Site) (s : RaftNode) (snap : Snapshot) : Decidable (s.ReadsBack site snap) :=
  decidable_of_iff (s.walStart.term ≤ snap.metadata.term ∧ snap.Numbered ∧
      site.snap.loadSnap (site.snap.record snap) = some snap ∧ snap.metadata.confState.Apart)
    ⟨fun h => ⟨h.1, h.2.1, h.2.2.1, h.2.2.2⟩, fun h => ⟨h.term_le, h.numbered, h.loads, h.apart⟩⟩

instance (site : Site) (data : Bytes) (s : RaftNode) : Decidable (s.Recorded site data) :=
  decidable_of_iff (s.Writable site ∧
      (∀ snap ∈ s.log.unstable.snapshot, s.ReadsBack site snap) ∧
      ∀ p ∈ s.takeReady, ∀ s₁ ∈ (p.1.settle site p.2).toOption,
        ∀ snap ∈ s₁.localSnapshot data, s₁.ReadsBack site snap)
    ⟨fun h => ⟨h.1, h.2.1, h.2.2⟩, fun h => ⟨h.toWritable, h.received, h.made⟩⟩

/-- The two points at which the log may say already that a received snapshot was committed, and its
file is not there: behind `WAL::save`, and behind its mark. -/
def Installing (s : RaftNode) (point : CrashPoint) : Prop :=
  s.log.unstable.snapshot ≠ none ∧ (point = CrashPoint.saved ∨ point = CrashPoint.marked)

/-- Rounds write what can be read back, and starts are from what the process leaves behind when it
ends at a crash point of such a round. -/
def Survives (site : Site) (s : RaftNode) : Action → Prop
  | Action.call _ => True
  | Action.handleReady data => s.Recorded site data
  | Action.restart disk _ => ∃ data point, s.Recorded site data ∧
      s.crashDisk site data point = some disk

/-- A disk that can be recovered from, and holds a hard state and entries. -/
structure Holds (site : Site) (disk : Disk) (hs : HardState) (es : List Entry)
    (loaded : Option Snapshot) (t : WalReplay) : Prop where
  recoverable : Recoverable site disk loaded t
  state : hs.ballot = t.hs.ballot ∨ hs = {}
  entries : ∀ e ∈ es, (loaded.getD {}).position.index < e.index →
    t.HoldsAt (loaded.getD {}).position.index e.index e

/-- **From such a disk the start returns**, and restores them. -/
theorem Holds.boot {disk : Disk} {hs : HardState} {es : List Entry}
    (h : Holds site disk hs es loaded t) (hid : site.id ≠ 0) (hpeers : 0 < site.peers) (size : Nat) :
    ∃ s', boot site disk size = Except.ok s' ∧ Standing site s' loaded t ∧
      hs.Precedes s'.node.raft ∧ ∀ e ∈ es, s'.walStart.index < e.index → e ∈ s'.log.logical := by
  obtain ⟨s', hboot⟩ := h.recoverable.boot_returns hid size
  obtain ⟨hstanding, hprecedes, hentries⟩ := h.recoverable.standing hpeers hboot
  refine ⟨s', hboot, hstanding, ?_, fun e he hlt => ?_⟩
  · rcases h.state with hballot | rfl
    · obtain ⟨hterm, hvote⟩ := Prod.mk.inj hballot
      exact ⟨hterm ▸ hprecedes.term_le, fun ht hv =>
        (hprecedes.vote_eq (ht.trans hterm) (hvote ▸ hv)).trans hvote.symm⟩
    · exact ⟨Nat.zero_le _, fun _ hv => absurd rfl hv⟩
  · rw [← hstanding.position] at hlt hentries
    exact hentries _ e (h.entries e he hlt)

/-- The log on disk goes on as far as the entries that it holds. -/
lemma reach_of_holds {base start : Nat} {es : List Entry} (hnum : Numbered (base + 1) es)
    (hbase : base ≤ start) (hheld : ∀ e ∈ es, start < e.index → t.HoldsAt start e.index e) :
    base + es.length ≤ start + t.ents.length := by
  by_contra hgt
  have hlen : es.length - 1 < es.length := by omega
  have hindex := hnum _ _ (List.getElem?_eq_getElem hlen)
  obtain ⟨-, he⟩ := hheld _ (List.getElem_mem hlen) (by omega)
  have hlt := (List.getElem?_eq_some_iff.mp he).1
  omega

/-- What is committed is on disk. -/
lemma inRange_of_holds {l : RaftLog} {start : Nat} (hsound : l.Sound) (hpos : 0 < l.committed)
    (hstart : start ≤ l.committed) (hbase : l.base ≤ start)
    (hheld : ∀ e ∈ l.logical, start < e.index → t.HoldsAt start e.index e)
    (hcommit : t.hs.commit = l.committed) : t.InRange start := by
  have hreach := reach_of_holds hsound.wf.numbered hbase hheld
  have hlast := hsound.committed_le
  rw [lastIndex_eq hsound.wf] at hlast
  exact Or.inr ⟨by omega, by omega, by omega⟩

/-! ## One round -/

lemma hardState_nonempty (h : Standing site s loaded t) :
    s.node.raft.hardState.isEmptyState = false := by
  have hpos := h.positive
  have hcommit : s.node.raft.hardState.commit = s.log.committed := rfl
  cases hempty : s.node.raft.hardState.isEmptyState with
  | false => rfl
  | true =>
      simp only [HardState.isEmptyState, Bool.and_eq_true, beq_iff_eq] at hempty
      omega

/-- The hard state that was written last is that of the node. -/
lemma latest_saved {start : WalSnapshot} {n : Nat} {w' : Wal} {t₀ t₁ : WalReplay}
    (h : Standing site s loaded t) (hready : s.node.ready = Except.ok (node, rd))
    (hsaves : Wal.Saves site.wal start n rd.hardState rd.entries s.wal t₀ w' t₁)
    (hhs : t₀.hs = t.hs) : w'.latest t₁.hs = s.node.raft.hardState := by
  obtain ⟨-, -, -, hstate⟩ := Driver.ready_hardState hready
  have hnonempty := hardState_nonempty h
  rw [hsaves.latest, hhs]
  by_cases hsame : s.node.raft.hardState = s.node.prevHardState
  · rw [if_pos hsame] at hstate
    rw [hstate, if_pos (show ({} : HardState).isEmptyState = true from rfl), hsame]
    refine (h.latest.resolve_right fun hnone => ?_).symm
    rw [hsame, hnone] at hnonempty
    cases hnonempty
  · rw [if_neg hsame] at hstate
    rw [hstate, hnonempty]
    rfl

/-- What the node relies on between two rounds is on disk. -/
lemma standing_holds (h : Standing site s loaded t) :
    Holds site s.disk s.node.prevHardState s.storage.stored loaded t := by
  refine ⟨h.recoverable, h.prev.imp_right And.left, fun e he hlt => ?_⟩
  rw [h.position] at hlt ⊢
  exact h.entries e he hlt

lemma walStart_le (htied : s.Tied) : s.walStart.index ≤ s.log.committed := by
  have hindex : s.walStart.index = s.snapshotIndex := htied.snapshot_eq
  rw [hindex]
  exact htied.snapshot_le.trans htied.applied_le

lemma base_le_walStart (htied : s.Tied) (hnone : s.log.unstable.snapshot = none) :
    s.log.base ≤ s.walStart.index := by
  have hindex : s.walStart.index = s.snapshotIndex := htied.snapshot_eq
  rw [hindex, base, hnone]
  exact htied.front_le

/-- **Without a snapshot to install**: what the log holds is on disk behind `WAL::save`. -/
theorem saved_holds (h : Standing site s loaded t) (htied : s.Tied) (hw : s.Writable site)
    (hready : s.node.ready = Except.ok (node, rd)) (hnone : s.log.unstable.snapshot = none) :
    ∃ t₁, Holds site (({ s with node := node } : RaftNode).saved site rd).disk
        s.node.raft.hardState s.log.logical loaded t₁ ∧
      Wal.Backs site.wal s.walStart (s.wal.save site.wal rd.hardState rd.entries) t₁ ∧
      (s.wal.save site.wal rd.hardState rd.entries).latest t₁.hs = s.node.raft.hardState := by
  have hentries : rd.entries = s.log.unstable.entries := (htied.takes hready).entries
  obtain ⟨t₁, hsaves, hballot⟩ := h.save h.backs rfl hw htied.sound hready
  have hheld := h.saved_holds htied hentries hnone hsaves
  have hlatest := latest_saved h hready hsaves rfl
  have hfits := hw.saveItems_fit (h.hardState_cases hready) hentries
  refine ⟨t₁, ⟨⟨h.recoverable.heads, h.recoverable.filed, ?_, ?_, ?_⟩, Or.inl hballot.symm, ?_⟩,
    hsaves.backs, hlatest⟩
  · rw [h.position]
    exact hsaves.backs.reopen 0
  · rw [h.position]
    refine (h.position ▸ h.recoverable.dense).save h.backs hfits
      (hentries ▸ htied.sound.wf.unstable) ?_
    -- the storage reaches to the first of the new entries
    have hhigh : s.log.unstable.offset ≤ s.storage.lastIndex + 1 :=
      (htied.sound.wf.fits hnone).2.1
    have hstable := htied.sound.wf.stable
    rw [storage_entries] at hstable
    have hfront : s.storage.front.index ≤ s.walStart.index :=
      htied.front_le.trans htied.snapshot_eq.ge
    have hreach : s.storage.front.index + s.storage.stored.length ≤
        s.walStart.index + t.ents.length := reach_of_holds hstable.tail hfront h.entries
    have hlast := s.storage.lastIndex_eq
    omega
  · rw [h.position]
    rcases hsaves.durable with ⟨-, rfl⟩ | hflushed
    · exact h.position ▸ h.recoverable.inRange
    · refine inRange_of_holds htied.sound h.positive (walStart_le htied)
        (base_le_walStart htied hnone) hheld ?_
      rw [hflushed, hlatest]
      rfl
  · rw [h.position]
    exact hheld

/-- The file of a later snapshot is tried first. -/
lemma newer_name {snap' : Snapshot} (hposition : (loaded.getD {}).position = s.walStart)
    (hreads : s.ReadsBack site snap) (hlt : s.walStart.index < snap.metadata.index)
    (hmem : snap' ∈ loaded) : snap'.name ≤ snap.name := by
  obtain rfl : loaded = some snap' := hmem
  have hposition : snap'.position = s.walStart := hposition
  have hterm : snap'.metadata.term = s.walStart.term := congrArg WalSnapshot.term hposition
  have hindex : snap'.metadata.index = s.walStart.index := congrArg WalSnapshot.index hposition
  have hle := hreads.term_le
  have holder : snap'.Older snap := by
    rw [Snapshot.Older]
    omega
  exact (holder.name_lt hreads.numbered).le

/-- **With a snapshot to install**: what the log holds is on disk once its file is written. -/
theorem filed_holds (h : Standing site s loaded t) (htied : s.Tied) (hw : s.Writable site)
    (hready : s.node.ready = Except.ok (node, rd)) (hsome : s.log.unstable.snapshot = some snap)
    (hreads : s.ReadsBack site snap) :
    ∃ t₂, Holds site ((({ s with node := node } : RaftNode).saved site rd).saveSnap site snap).disk
        s.node.raft.hardState s.log.logical (some snap) t₂ ∧
      Wal.Backs site.wal snap.position ((s.wal.save site.wal rd.hardState rd.entries).saveSnapshot
        site.wal snap.position) t₂ ∧
      ((s.wal.save site.wal rd.hardState rd.entries).saveSnapshot site.wal snap.position).latest
        t₂.hs = s.node.raft.hardState := by
  have hentries : rd.entries = s.log.unstable.entries := (htied.takes hready).entries
  obtain ⟨t', t₁, t₂, hbehind, hsaves, hhs, hbacks, hhs₂, hballot, hheld, -⟩ :=
    h.filed htied hw hready hsome
  have hlatest := latest_saved h hready hsaves hhs
  have hfits := hw.saveItems_fit (h.hardState_cases hready) hentries
  have hmark := (hw.marks snap.position (pending_mem_nextMarks hsome)).1
  have hlt : s.walStart.index < snap.metadata.index := htied.idle snap hsome
  have hbase : s.log.base = snap.metadata.index := by rw [base, hsome]
  have hstate : t₂.hs = s.node.raft.hardState := hhs₂.trans hlatest
  have hdense : Wal.Dense site.wal snap.position s.wal.file.content :=
    (show Wal.Dense site.wal s.walStart s.wal.file.content from
      h.position ▸ h.recoverable.dense).shift hlt.le
  refine ⟨t₂, ⟨⟨?_, ?_, hbacks.reopen 0, ?_, ?_⟩, Or.inl hballot.symm, hheld⟩, hbacks, ?_⟩
  · exact h.recoverable.heads.saveSnap hreads.loads fun snap' hmem =>
      newer_name h.position hreads hlt hmem
  · intro snap' hmem
    cases hmem
    refine ⟨?_, hreads.apart⟩
    rw [Snapshot.isEmpty, beq_eq_false_iff_ne]
    omega
  · refine (hdense.save hbehind hfits (hentries ▸ htied.sound.wf.unstable) ?_).saveSnapshot
      hsaves.backs hmark
    rw [htied.sound.wf.fits_snapshot snap hsome]
    show snap.metadata.index + 1 ≤ snap.metadata.index + t'.ents.length + 1
    omega
  · refine inRange_of_holds htied.sound h.positive ?_ hbase.le hheld ?_
    · exact hbase.ge.trans htied.sound.base_le
    · rw [hstate]
      rfl
  · show (s.wal.save site.wal rd.hardState rd.entries).latest t₂.hs = _
    rw [hhs₂, Wal.latest_latest, hlatest]

/-- What is on disk of a node, and in the buffer of its log. -/
structure Secured (site : Site) (s : RaftNode) (r : Raft) (loaded : Option Snapshot)
    (t : WalReplay) : Prop where
  holds : Holds site s.disk r.hardState r.raftLog.logical loaded t
  position : (loaded.getD {}).position = s.walStart
  backs : Wal.Backs site.wal s.walStart s.wal t
  latest : s.wal.latest t.hs = r.hardState
  base_le : r.raftLog.base ≤ s.walStart.index
  start_le : s.walStart.index ≤ r.raftLog.committed

/-- **Before the local snapshot**, what the node holds is on disk. -/
theorem settle_secured (h : Standing site s loaded t) (htied : s.Tied)
    (hw : s.Recorded site data) (hready : s.node.ready = Except.ok (node, rd))
    (hsettle : ({ s with node := node } : RaftNode).settle site rd = Except.ok s₁) :
    ∃ loaded₁ t₁, Secured site s₁ s.node.raft loaded₁ t₁ := by
  obtain ⟨s₀, hpersist, hwal, hdir, hstorage⟩ := settle_persist htied hready hsettle
  obtain ⟨t', hwritten⟩ := h.toPersisted.persist htied hw.toWritable hready hpersist
  obtain ⟨-, -, -, -, -, hnone₀, hsome₀⟩ := persist_eq_ok hpersist
  obtain ⟨hnone_disk, hsome_disk⟩ := persist_disk hpersist
  have hdisk : s₁.disk = s₀.disk := by rw [disk, disk, hwal, hdir]
  have hstart : s₁.walStart = s.log.snapshot.position := by
    rw [walStart, hstorage]
    exact hwritten.start
  have hpending : s.log.unstable.snapshot = rd.pendingSnapshot := (htied.takes hready).snapshot
  cases hsome : s.log.unstable.snapshot with
  | none =>
      rw [hsome] at hpending
      obtain ⟨t₁, hholds, hbacks, hlatest⟩ := saved_holds h htied hw.toWritable hready hsome
      obtain ⟨-, -, hwal₀, -⟩ := hnone₀ hpending.symm
      have hstart' : s₁.walStart = s.walStart := by
        rw [hstart, RaftLog.snapshot, hsome]
        rfl
      refine ⟨loaded, t₁, ?_, h.position.trans hstart'.symm, ?_, ?_, ?_, ?_⟩
      · rw [hdisk, hnone_disk hpending.symm]
        exact hholds
      · rw [hstart', hwal, hwal₀]
        exact hbacks
      · rw [hwal, hwal₀]
        exact hlatest
      · rw [hstart']
        exact base_le_walStart htied hsome
      · rw [hstart']
        exact walStart_le htied
  | some snap =>
      rw [hsome] at hpending
      obtain ⟨t₂, hholds, hbacks, hlatest⟩ := filed_holds h htied hw.toWritable hready hsome
        (hw.received snap hsome)
      obtain ⟨-, -, hwal₀, -⟩ := hsome₀ snap hpending.symm
      have hstart' : s₁.walStart = snap.position := by
        rw [hstart, RaftLog.snapshot, hsome]
        rfl
      have hbase : s.log.base = snap.metadata.index := by rw [base, hsome]
      refine ⟨some snap, t₂, ?_, hstart'.symm, ?_, ?_, ?_, ?_⟩
      · rw [hdisk, hsome_disk snap hpending.symm]
        exact hholds
      · rw [hstart', hwal, hwal₀]
        exact hbacks
      · rw [hwal, hwal₀]
        exact hlatest
      · rw [hstart']
        exact hbase.le
      · rw [hstart']
        exact hbase.ge.trans htied.sound.base_le

/-! ## The local snapshot -/

/-- The local snapshot is made at an entry of the log. -/
lemma local_mark (hsettled : s.Settled rd) (h : s.localSnapshot data = some snap) :
    s.walStart.index < snap.metadata.index ∧ snap.metadata.index = s.appliedIndex ∧
      ∃ e ∈ s.storage.stored, e.index = s.appliedIndex ∧ s.snapshotIndex < e.index ∧
        snap.position = { index := e.index, term := e.term } := by
  obtain ⟨hdue, storage, hcreate⟩ := localSnapshot_eq_some h
  have hlt : s.snapshotIndex < s.appliedIndex := by
    rw [SnapshotDue, uint64Sub, if_pos hsettled.snapshot_le] at hdue
    omega
  obtain ⟨hlow, hindex, -, e, he, hterm⟩ := MemoryStorage.createSnapshot_eq_ok hcreate
  have hfront := hsettled.front_le
  have hposition : s.appliedIndex - s.storage.front.index =
      s.appliedIndex - s.storage.front.index - 1 + 1 := by omega
  have heindex : e.index = s.appliedIndex := by
    have := hsettled.stored _ e he
    omega
  have hstart : s.walStart.index = s.snapshotIndex := hsettled.snapshot_eq
  refine ⟨by omega, hindex, e, ?_, heindex, by omega, ?_⟩
  · rw [MemoryStorage.entries_eq, hposition] at he
    exact List.mem_of_getElem? he
  · rw [Snapshot.position, hindex, hterm, heindex]

namespace Secured

variable {r : Raft}

/-- **Behind the mark of the local snapshot** the old one is still the newest that is filed. -/
theorem marked (h : Secured site s r loaded t) (hsound : r.raftLog.Sound)
    (hpos : 0 < r.raftLog.committed) (hfits : (WalItem.snapshot snap.position).Fits site.wal)
    (hlt : s.walStart.index < snap.metadata.index) :
    ∃ t', Holds site (s.marked site snap).disk r.hardState r.raftLog.logical loaded t' := by
  have hagrees : s.walStart.Agrees snap.position := fun heq => by
    have heq : snap.metadata.index = s.walStart.index := heq
    omega
  obtain ⟨t', hbacks, hhs, hkept, -⟩ := h.backs.saveSnapshot hfits hagrees
  have hstate : t'.hs = r.hardState := hhs.trans h.latest
  have hentries := h.holds.entries
  rw [h.position] at hentries
  have hheld : ∀ e ∈ r.raftLog.logical, s.walStart.index < e.index →
      t'.HoldsAt s.walStart.index e.index e := fun e he hgt => hkept _ _ (hentries e he hgt)
  refine ⟨t', ⟨h.holds.recoverable.heads, h.holds.recoverable.filed, ?_, ?_, ?_⟩,
    Or.inl (congrArg HardState.ballot hstate.symm), ?_⟩
  · rw [h.position]
    exact hbacks.reopen 0
  · rw [h.position]
    exact (h.position ▸ h.holds.recoverable.dense).saveSnapshot h.backs hfits
  · rw [h.position]
    exact inRange_of_holds hsound hpos h.start_le h.base_le hheld (by rw [hstate]; rfl)
  · rw [h.position]
    exact hheld

/-- **Once its file is written**, the log is read behind the local snapshot. -/
theorem filed (h : Secured site s r loaded t) (hsound : r.raftLog.Sound)
    (hpos : 0 < r.raftLog.committed) (hfits : (WalItem.snapshot snap.position).Fits site.wal)
    (hagrees : ∀ mark ∈ Wal.marksOf site.wal s.wal.file.content, snap.position.Agrees mark)
    (hlt : s.walStart.index < snap.metadata.index)
    (hle : snap.metadata.index ≤ r.raftLog.committed) (hreads : s.ReadsBack site snap) :
    ∃ t', Holds site (s.saveSnap site snap).disk r.hardState r.raftLog.logical (some snap) t' ∧
      Wal.Backs site.wal snap.position (s.saveSnap site snap).wal t' ∧
      (s.saveSnap site snap).wal.latest t'.hs = r.hardState := by
  obtain ⟨t₁, hbacks₁, hshadows⟩ := h.backs.shift hlt.le hagrees
  obtain ⟨t₂, hbacks₂, hhs, hkept, -⟩ := hbacks₁.saveSnapshot hfits fun _ => rfl
  have hstate : t₂.hs = r.hardState := by rw [hhs, hshadows.hs, h.latest]
  have hentries := h.holds.entries
  rw [h.position] at hentries
  have hheld : ∀ e ∈ r.raftLog.logical, snap.position.index < e.index →
      t₂.HoldsAt snap.position.index e.index e := fun e he hgt =>
    hkept _ _ (hshadows.holds _ _ hgt (hentries e he (hlt.trans hgt)))
  have hdense : Wal.Dense site.wal snap.position s.wal.file.content :=
    (show Wal.Dense site.wal s.walStart s.wal.file.content from
      h.position ▸ h.holds.recoverable.dense).shift hlt.le
  refine ⟨t₂, ⟨⟨?_, ?_, hbacks₂.reopen 0, hdense.saveSnapshot hbacks₁ hfits, ?_⟩,
    Or.inl (congrArg HardState.ballot hstate.symm), hheld⟩, hbacks₂, ?_⟩
  · exact h.holds.recoverable.heads.saveSnap hreads.loads fun snap' hmem =>
      newer_name h.position hreads hlt hmem
  · intro snap' hmem
    cases hmem
    refine ⟨?_, hreads.apart⟩
    rw [Snapshot.isEmpty, beq_eq_false_iff_ne]
    omega
  · exact inRange_of_holds hsound hpos hle (h.base_le.trans hlt.le) hheld (by rw [hstate]; rfl)
  · show s.wal.latest t₂.hs = _
    rw [hhs, Wal.latest_latest, hshadows.hs, h.latest]

end Secured

/-! ## All points -/

/-- The local snapshot can be written behind what is on disk. -/
lemma local_secured (h : Standing site s loaded t) (htied : s.Tied) (hw : s.Recorded site data)
    (hready : s.node.ready = Except.ok (node, rd))
    (htake : s.takeReady = some ({ s with node := node }, rd))
    (hsettle : ({ s with node := node } : RaftNode).settle site rd = Except.ok s₁)
    (hlocal : s₁.localSnapshot data = some snap) :
    ∃ loaded₁ t₁, Secured site s₁ s.node.raft loaded₁ t₁ ∧
      s₁.walStart.index < snap.metadata.index ∧ snap.metadata.index ≤ s.log.committed ∧
      (WalItem.snapshot snap.position).Fits site.wal ∧
      (∀ mark ∈ Wal.marksOf site.wal s₁.wal.file.content, snap.position.Agrees mark) ∧
      s₁.ReadsBack site snap := by
  obtain ⟨hsettled, -, happlied⟩ := settle_eq_ok htied hready hsettle
  obtain ⟨-, -, -, hmarks, -, -⟩ := h.toPersisted.settle htied hw.toWritable hready hsettle
  obtain ⟨loaded₁, t₁, hsecured⟩ := settle_secured h htied hw hready hsettle
  obtain ⟨hlt, hindex, e, he, heindex, hgt, hposition⟩ := local_mark hsettled hlocal
  obtain ⟨hfits, hagrees⟩ := hmarks e he hgt heindex.le
  rw [← hposition] at hfits hagrees
  refine ⟨loaded₁, t₁, hsecured, hlt, by omega, hfits, hagrees, ?_⟩
  exact hw.made _ htake s₁ (congrArg Except.toOption hsettle) snap hlocal

/-- **Outside the window**, what the node relies on at a crash point is on disk. -/
theorem crash_holds {point : CrashPoint} {disk : Disk} (h : Standing site s loaded t)
    (htied : s.Tied) (hw : s.Recorded site data)
    (hcrash : s.crashDisk site data point = some disk) (hwindow : ¬ s.Installing point) :
    ∃ loaded' t', Holds site disk (s.kept point).1 (s.kept point).2 loaded' t' := by
  obtain ⟨s₀, hwriting, rfl⟩ := Option.map_eq_some_iff.mp hcrash
  cases point with
  | idle =>
      cases hwriting
      exact ⟨loaded, t, standing_holds h⟩
  | saved =>
      obtain ⟨p, htake, hwriting⟩ := Option.bind_eq_some_iff.mp hwriting
      cases hwriting
      obtain ⟨node, -, hready, -, hp⟩ := takeReady_eq_some htake
      have hnone : s.log.unstable.snapshot = none := by
        by_contra hsome
        exact hwindow ⟨hsome, Or.inl rfl⟩
      obtain ⟨t₁, hholds, -, -⟩ := saved_holds h htied hw.toWritable hready hnone
      rw [hp]
      exact ⟨loaded, t₁, hholds⟩
  | marked =>
      obtain ⟨p, htake, hwriting⟩ := Option.bind_eq_some_iff.mp hwriting
      obtain ⟨snap, hpending, hwriting⟩ := Option.bind_eq_some_iff.mp hwriting
      obtain ⟨node, -, hready, -, hp⟩ := takeReady_eq_some htake
      refine absurd ⟨?_, Or.inr rfl⟩ hwindow
      rw [(htied.takes hready).snapshot, hpending]
      exact Option.some_ne_none snap
  | filed =>
      obtain ⟨p, htake, hwriting⟩ := Option.bind_eq_some_iff.mp hwriting
      obtain ⟨snap, hpending, hwriting⟩ := Option.bind_eq_some_iff.mp hwriting
      cases hwriting
      obtain ⟨node, -, hready, -, hp⟩ := takeReady_eq_some htake
      have hsome : s.log.unstable.snapshot = some snap :=
        (htied.takes hready).snapshot.trans hpending
      obtain ⟨t₂, hholds, -, -⟩ := filed_holds h htied hw.toWritable hready hsome
        (hw.received snap hsome)
      rw [hp]
      exact ⟨some snap, t₂, hholds⟩
  | localMarked =>
      obtain ⟨p, htake, hwriting⟩ := Option.bind_eq_some_iff.mp hwriting
      obtain ⟨s₁, hsettle, hwriting⟩ := Option.bind_eq_some_iff.mp hwriting
      obtain ⟨snap, hlocal, hwriting⟩ := Option.bind_eq_some_iff.mp hwriting
      cases hwriting
      obtain ⟨p, rd⟩ := p
      obtain ⟨node, -, hready, -, rfl⟩ := takeReady_eq_some htake
      obtain ⟨loaded₁, t₁, hsecured, hlt, -, hfits, -, -⟩ := local_secured h htied hw hready htake
        (eq_ok_of_toOption hsettle) hlocal
      obtain ⟨t', hholds⟩ := hsecured.marked htied.sound h.positive hfits hlt
      exact ⟨loaded₁, t', hholds⟩
  | localFiled =>
      obtain ⟨p, htake, hwriting⟩ := Option.bind_eq_some_iff.mp hwriting
      obtain ⟨s₁, hsettle, hwriting⟩ := Option.bind_eq_some_iff.mp hwriting
      obtain ⟨snap, hlocal, hwriting⟩ := Option.bind_eq_some_iff.mp hwriting
      cases hwriting
      obtain ⟨p, rd⟩ := p
      obtain ⟨node, -, hready, -, rfl⟩ := takeReady_eq_some htake
      obtain ⟨loaded₁, t₁, hsecured, hlt, hle, hfits, hagrees, hreads⟩ := local_secured h htied hw
        hready htake (eq_ok_of_toOption hsettle) hlocal
      obtain ⟨t', hholds, -, -⟩ := hsecured.filed htied.sound h.positive hfits hagrees hlt hle hreads
      exact ⟨some snap, t', hholds⟩

end RaftNode

end RaftKv
