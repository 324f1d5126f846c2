import RaftKv.Driver.Membership
import RaftKv.Raft.MaybeAppend
import RaftKv.Server.Durable
import RaftKv.Wal.Gapless

/-!
# The start from a disk

What a start makes of the disk that another process has left behind.

* `RawNode.start_returns` — when a node can be started on a storage.
* `SnapFolder.Heads` — the snapshot that is tried first, and can be loaded.
* `Recoverable` — a disk whose parts fit together: the log goes on behind the newest snapshot, and
  the commit index of its hard state lies between the two ends.
* `Recoverable.boot_returns` — **the start from such a disk returns**.
* `Recoverable.restored` — **it restores the term, the vote and the entries of the log**.
-/

namespace RaftKv

open Outcome RaftLog

/-! ## The node -/

namespace RawNode

variable {pack : ConfChange → Bytes} {r : Raft} {c : Config} {peers : List PeerContext}

lemma enterPeers_returns (peers : List PeerContext) (r : Raft) :
    ∃ r', peers.foldlM (fun r peer => r.addNode peer.id) r = Except.ok r' := by
  induction peers generalizing r with
  | nil => exact ⟨r, rfl⟩
  | cons peer peers ih =>
      obtain ⟨r₁, hr₁⟩ := Raft.addNodeOrLearner_returns r peer.id false
      obtain ⟨r', hr'⟩ := ih r₁
      refine ⟨r', ?_⟩
      rw [List.foldlM_cons]
      exact bind_eq_ok.mpr ⟨r₁, hr₁, hr'⟩

lemma bootstrap_returns (hsound : r.raftLog.Sound) (hlast : r.raftLog.lastIndex = 0)
    (hdevice : r.randomDevice.max ≤ r.electionTimeout) :
    ∃ r', bootstrap pack r peers = Except.ok r' := by
  have hcommitted := hsound.committed_le
  have hbase := hsound.base_le
  obtain ⟨l, last, happend⟩ : ∃ l last,
      r.raftLog.append (bootstrapEntries pack 1 peers) = Except.ok (l, last) := by
    cases hes : bootstrapEntries pack 1 peers with
    | nil => exact ⟨_, _, rfl⟩
    | cons e es =>
        have he : e.index = 1 := (hes ▸ bootstrapEntries_numbered pack 1 peers).head
        exact append_returns hsound.wf (by omega) (by omega) (by omega)
  obtain ⟨r', hr'⟩ := enterPeers_returns peers
    { r.resetTo 1 with
      lead := 0
      state := RaftState.follower
      raftLog := { l with committed := (bootstrapEntries pack 1 peers).length } }
  exact ⟨r', bind_eq_ok.mpr ⟨_, Raft.becomeFollower_returns hdevice 1 0,
    bind_eq_ok.mpr ⟨(l, last), happend, hr'⟩⟩⟩

/-- **A node can be started** on a storage whose hard state lies within its log, and whose snapshot
keeps voters and learners apart. -/
theorem start_returns (hc : c.Consistent) (hpeers : c.peers = []) (hlearners : c.learners = [])
    (happlied : c.applied = 0)
    (hapart : ∀ id ∈ c.storage.snapshot.metadata.confState.learners,
      id ∉ c.storage.snapshot.metadata.confState.nodes)
    (hcommit : c.storage.hardState.isEmptyState = true ∨
      (c.storage.front.index ≤ c.storage.hardState.commit ∧
        c.storage.hardState.commit ≤ c.storage.lastIndex)) :
    ∃ n, start pack c peers = Except.ok n := by
  obtain ⟨r, hinit, hdevice⟩ := Raft.init_returns hpeers hlearners happlied hapart hcommit
  obtain ⟨-, -, -, committed, -, -, -, hlog⟩ := Raft.init_eq_ok hinit
  have hboot : ∃ r', bootstrapIfNew pack c peers r = Except.ok r' := by
    rw [bootstrapIfNew]
    split
    · rename_i hzero
      refine bootstrap_returns (init_sound hc hinit).1 ?_ hdevice
      rw [hlog]
      exact hzero
    · exact ⟨r, rfl⟩
  obtain ⟨r', hr'⟩ := hboot
  exact ⟨_, bind_eq_ok.mpr ⟨r, hinit, bind_eq_ok.mpr ⟨r', hr', rfl⟩⟩⟩

/-- A node is started behind the bootstrap entries, or as the constructor leaves it. -/
lemma start_cases {n : RawNode} (h : start pack c peers = Except.ok n) :
    ∃ r, Raft.init c = Except.ok r ∧
      ((c.storage.lastIndex = 0 ∧ n.prevHardState = {} ∧
          bootstrap pack r peers = Except.ok n.raft) ∨
        (c.storage.lastIndex ≠ 0 ∧ n.prevHardState = r.hardState ∧ n.raft = r)) := by
  obtain ⟨r, hinit, h⟩ := bind_eq_ok.mp h
  obtain ⟨r', hboot, h⟩ := bind_eq_ok.mp h
  cases h
  refine ⟨r, hinit, ?_⟩
  rw [bootstrapIfNew] at hboot
  split at hboot
  · rename_i hzero
    exact Or.inl ⟨hzero, if_pos hzero, hboot⟩
  · rename_i hsome
    cases hboot
    exact Or.inr ⟨hsome, if_neg hsome, rfl⟩

end RawNode

/-! ## The snapshot files -/

namespace SnapFolder

/-- The greatest name is that of the snapshot, which can be loaded. -/
structure Heads (f : SnapFormat) (d : SnapFolder) (loaded : Option Snapshot) : Prop where
  reads : ∀ s ∈ loaded, (d.lookup s.name).bind f.loadSnap = some s
  first : ∀ name ∈ d.snapNames, ∃ s ∈ loaded, name ≤ s.name

variable {f : SnapFormat} {d : SnapFolder} {loaded : Option Snapshot} {s : Snapshot}

lemma heads_empty (f : SnapFormat) : Heads f ∅ none :=
  ⟨fun _ hs => (by cases hs), fun name hname =>
    absurd (mem_snapNames.mp hname).1 (AList.notMem_empty name)⟩

/-- **That snapshot is loaded**, and no file is renamed. -/
theorem Heads.load (h : Heads f d loaded) : d.load f = (d, loaded) := by
  cases loaded with
  | none =>
      have hnil : d.snapNames = [] := by
        refine List.eq_nil_iff_forall_not_mem.mpr fun name hname => ?_
        obtain ⟨s, hs, -⟩ := h.first name hname
        cases hs
      rw [SnapFolder.load, hnil]
      rfl
  | some s =>
      have hread := h.reads s rfl
      have hmem : s.name ∈ d.snapNames := by
        refine mem_snapNames.mpr ⟨?_, s.snapExtension_suffix_name⟩
        refine AList.lookup_isSome.mp ?_
        cases hlookup : d.lookup s.name with
        | none =>
            rw [hlookup] at hread
            cases hread
        | some content => rfl
      have hsorted := snapNames_pairwise d
      have hfirst := h.first
      rw [SnapFolder.load]
      cases hnames : d.snapNames with
      | nil =>
          rw [hnames] at hmem
          cases hmem
      | cons name names =>
          rw [hnames] at hmem hsorted hfirst
          obtain ⟨s', hs', hle⟩ := hfirst name (List.mem_cons_self ..)
          cases hs'
          have hname : name = s.name := by
            rcases List.mem_cons.mp hmem with heq | hrest
            · exact heq.symm
            · exact absurd ((List.pairwise_cons.mp hsorted).1 _ hrest) hle.not_gt
          rw [loadNames, hname, hread]

/-- **A newer snapshot** takes the place of the first. -/
theorem Heads.saveSnap (h : Heads f d loaded) (hloads : f.loadSnap (f.record s) = some s)
    (hnewer : ∀ s' ∈ loaded, s'.name ≤ s.name) : Heads f (d.saveSnap f s) (some s) := by
  refine ⟨fun s' hs' => ?_, fun name hname => ⟨s, rfl, ?_⟩⟩
  · cases hs'
    rw [SnapFolder.saveSnap, AList.lookup_insert]
    exact hloads
  · obtain ⟨hmem, hsuffix⟩ := mem_snapNames.mp hname
    rcases (AList.mem_insert _).mp hmem with rfl | hmem
    · exact le_rfl
    · obtain ⟨s', hs', hle⟩ := h.first name (mem_snapNames.mpr ⟨hmem, hsuffix⟩)
      exact hle.trans (hnewer s' hs')

end SnapFolder

/-! ## The disk -/

lemma Wal.readFile_of_clean {f : WalFormat} {file : WalFile}
    (h : (f.scan file.content).stop = none) : Wal.readFile f file = file := by
  rw [Wal.readFile, h]

/-- No node is a voter and a learner. -/
def ConfState.Apart (cs : ConfState) : Prop := ∀ id ∈ cs.learners, id ∉ cs.nodes

/-- The commit index lies between the two ends of the log; before anything is committed, nothing is
on the disk. -/
def WalReplay.InRange (start : Nat) (t : WalReplay) : Prop :=
  (t.hs.isEmptyState = true ∧ start = 0 ∧ t.ents = []) ∨
  (0 < t.hs.commit ∧ start ≤ t.hs.commit ∧ t.hs.commit ≤ start + t.ents.length)

/-- What the file of the log holds. -/
def Disk.walContent (f : WalFormat) (disk : Disk) : Bytes := disk.walFile.getD (Wal.create f)

/-- **A disk whose parts fit together**: behind the newest snapshot the log is without gaps, and its
hard state lies within it. -/
structure Recoverable (site : Site) (disk : Disk) (loaded : Option Snapshot) (t : WalReplay) :
    Prop where
  heads : disk.snapDir.Heads site.snap loaded
  filed : ∀ snap ∈ loaded, snap.isEmpty = false ∧ snap.metadata.confState.Apart
  backs : Wal.Backs site.wal (loaded.getD {}).position
    (Wal.openAt (disk.walContent site.wal) 0 (loaded.getD {}).position) t
  dense : Wal.Dense site.wal (loaded.getD {}).position (disk.walContent site.wal)
  inRange : t.InRange (loaded.getD {}).position.index

/-- What the process would leave behind if it ended here: what is in the buffer is lost. -/
def RaftNode.disk (s : RaftNode) : Disk :=
  { snapDir := s.snapDir, walFile := some s.wal.file.content }

/-- **What holds between two rounds**: the disk can be recovered from, and the node relies on no
other hard state than the one that was written last. -/
structure Standing (site : Site) (s : RaftNode) (loaded : Option Snapshot) (t : WalReplay) :
    Prop extends RaftNode.Persisted site s t where
  recoverable : Recoverable site s.disk loaded t
  position : (loaded.getD {}).position = s.walStart
  latest : s.node.prevHardState = s.wal.latest t.hs ∨ s.node.prevHardState = {}
  positive : 0 < s.log.committed

/-- What `load_state` ends the process with. -/
def RaftNode.commitOutOfRange (id commit low high : Nat) : Crash :=
  Crash.fatal (s!"{id} state.commit {commit} is out of range " ++ s!"[{low}, {high}]")

namespace Recoverable

open RaftNode

variable {site : Site} {disk : Disk} {loaded : Option Snapshot} {t : WalReplay} {s : RaftNode}
  {size : Nat}

lemma exists_map_some {ents : List (Option Entry)} (h : none ∉ ents) :
    ∃ es : List Entry, ents = es.map some := by
  induction ents with
  | nil => exact ⟨[], rfl⟩
  | cons entry ents ih =>
      obtain ⟨es, rfl⟩ := ih fun hmem => h (List.mem_cons_of_mem _ hmem)
      cases entry with
      | none => exact absurd (List.mem_cons_self ..) h
      | some e => exact ⟨e :: es, rfl⟩

lemma derefEntries_map (es : List Entry) : derefEntries (es.map some) = Except.ok es := by
  induction es with
  | nil => rfl
  | cons e es ih =>
      rw [derefEntries, List.map_cons, List.mapM_cons]
      exact bind_eq_ok.mpr ⟨e, rfl, bind_eq_ok.mpr ⟨es, ih, rfl⟩⟩

/-- The parameters of a node are right if it has an id. -/
lemma validate_config (hid : site.id ≠ 0) (storage : MemoryStorage) :
    (config site storage).validate =
      ({ config site storage with maxCommittedSizePerReady := 1024 * 1024 }, Status.ok) := by
  simp [config, Config.validate, hid]

/-- **A log without gaps is replayed** behind the newest snapshot. -/
lemma replay_returns (hheads : disk.snapDir.Heads site.snap loaded)
    (hfiled : ∀ snap ∈ loaded, snap.isEmpty = false ∧ snap.metadata.confState.Apart)
    (hbacks : Wal.Backs site.wal (loaded.getD {}).position
      (Wal.openAt (disk.walContent site.wal) 0 (loaded.getD {}).position) t)
    (hnone : none ∉ t.ents) (size : Nat) :
    ∃ storage w last, replayWal site disk size = Except.ok (storage, w, disk.snapDir, last) ∧
      storage.hardState = t.hs ∧ storage.front.index = (loaded.getD {}).position.index ∧
      storage.lastIndex = (loaded.getD {}).position.index + t.ents.length ∧
      storage.snapshot.metadata.confState.Apart := by
  obtain ⟨w, hread⟩ := hbacks.readAll size
  obtain ⟨es, hes⟩ := exists_map_some hnone
  obtain ⟨hfront, hstored, hsnapshot⟩ := loadedStorage_eq loaded
  have hplaced := Wal.placed_readAll hread
  have hnum : Numbered ((loadedStorage loaded).front.index + 1) es := by
    intro k e hk
    rw [hfront]
    exact hplaced k e (by rw [hes, List.getElem?_map, hk]; rfl)
  have hlast := (loadedStorage loaded).lastIndex_eq
  rw [hstored] at hlast
  obtain ⟨storage, happend, hfront', hstored', hsnapshot', hhs'⟩ := MemoryStorage.append_numbered hnum
    (s := (loadedStorage loaded).setHardState t.hs)
    (fun _ => (show _ ≤ (loadedStorage loaded).lastIndex + 1 by
      rw [hlast]; exact Nat.le_refl _))
  -- the log of the storage
  have hall : storage.stored = es := by
    rw [hstored']
    show splice _ (loadedStorage loaded).stored es = es
    rw [hstored]
    exact splice_nil hnum
  have hindex : storage.front.index = (loaded.getD {}).position.index :=
    (congrArg Entry.index hfront').trans hfront
  refine ⟨storage, w, (es.getLast?.map Entry.index).getD 0, ?_, hhs', hindex, ?_, ?_⟩
  · simp only [replayWal, hheads.load]
    refine bind_eq_ok.mpr ⟨(w, t.hs, t.ents), hread, bind_eq_ok.mpr ⟨es, ?_, ?_⟩⟩
    · rw [hes]
      exact derefEntries_map es
    · exact bind_eq_ok.mpr ⟨storage, happend, rfl⟩
  · rw [storage.lastIndex_eq, hindex, hall, hes, List.length_map]
  · rw [hsnapshot']
    show (loadedStorage loaded).snapshot.metadata.confState.Apart
    cases loaded with
    | none => exact fun _ hmem => absurd hmem List.not_mem_nil
    | some snap =>
        obtain ⟨hne, hapart⟩ := hfiled snap rfl
        rw [Snapshot.isEmpty, beq_eq_false_iff_ne] at hne
        rw [loadedStorage, MemoryStorage.applySnapshot, if_neg]
        · exact hapart
        · show ¬ (0 ≥ snap.metadata.index)
          omega

/-- **The start from a disk whose parts fit together returns.** -/
theorem boot_returns (h : Recoverable site disk loaded t) (hid : site.id ≠ 0) (size : Nat) :
    ∃ s, boot site disk size = Except.ok s := by
  obtain ⟨reach, hfull⟩ := h.dense.full h.backs
  obtain ⟨storage, w, last, hreplay, hhs, hindex, hend, hapart⟩ := replay_returns h.heads h.filed
    h.backs hfull.none_notMem size
  have hvalid := validate_config hid storage
  have hconsistent := replayWal_consistent hreplay
  rw [hvalid] at hconsistent
  have hcommit : storage.hardState.isEmptyState = true ∨
      storage.front.index ≤ storage.hardState.commit ∧
        storage.hardState.commit ≤ storage.lastIndex := by
    rw [hhs, hindex, hend]
    exact h.inRange.imp And.left And.right
  obtain ⟨node, hnode⟩ := @RawNode.start_returns site.confChange.pack _ (peerContexts site)
    hconsistent rfl rfl rfl hapart hcommit
  let s : RaftNode :=
    { id := site.id, lastIndex := last, node := node
      snapCount := site.snapCount, snapDir := disk.snapDir, wal := w }
  have hnew : new site disk size = Except.ok s := by
    refine bind_eq_ok.mpr ⟨_, hreplay, ?_⟩
    dsimp only
    rw [hvalid]
    exact bind_eq_ok.mpr ⟨node, hnode, rfl⟩
  exact ⟨_, bind_eq_ok.mpr ⟨s, hnew, rfl⟩⟩

/-- **A commit index behind the end of the log** ends the process in `load_state`. -/
theorem boot_fatal (hheads : disk.snapDir.Heads site.snap loaded)
    (hfiled : ∀ snap ∈ loaded, snap.isEmpty = false ∧ snap.metadata.confState.Apart)
    (hbacks : Wal.Backs site.wal (loaded.getD {}).position
      (Wal.openAt (disk.walContent site.wal) 0 (loaded.getD {}).position) t)
    (hnone : none ∉ t.ents) (hid : site.id ≠ 0)
    (hgt : (loaded.getD {}).position.index + t.ents.length < t.hs.commit) (size : Nat) :
    boot site disk size = Except.error (commitOutOfRange site.id t.hs.commit
      (loaded.getD {}).position.index ((loaded.getD {}).position.index + t.ents.length)) := by
  obtain ⟨storage, w, last, hreplay, hhs, hindex, hend, hapart⟩ := replay_returns hheads hfiled
    hbacks hnone size
  have hvalid := validate_config hid storage
  have hsome : storage.hardState.isEmptyState = false := by
    rw [hhs]
    cases hempty : t.hs.isEmptyState with
    | false => rfl
    | true =>
        simp only [HardState.isEmptyState, Bool.and_eq_true, beq_iff_eq] at hempty
        omega
  have hgt : storage.lastIndex < storage.hardState.commit := by
    rw [hhs, hend]
    exact hgt
  have hinit := @Raft.init_fatal { config site storage with maxCommittedSizePerReady := 1024 * 1024 }
    rfl rfl rfl hapart hsome (Or.inr hgt)
  have hnew : new site disk size = Except.error (commitOutOfRange site.id storage.hardState.commit
      storage.front.index storage.lastIndex) := by
    rw [new, hreplay]
    dsimp only [bind, Except.bind]
    rw [hvalid]
    dsimp only
    rw [RawNode.start, hinit]
    rfl
  rw [boot, hnew, hhs, hindex, hend]
  rfl

/-- What a start leaves of the disk, and what it makes of it. -/
lemma boot_disk (h : Recoverable site disk loaded t) (hboot : boot site disk size = Except.ok s) :
    s.snapDir = disk.snapDir ∧ s.wal.file.content = disk.walContent site.wal ∧
      (loaded.getD {}).position = s.walStart := by
  obtain ⟨storage, wal, snapDir, last, node, hreplay, hstart, rfl⟩ := boot_eq_ok hboot
  obtain ⟨-, -, hsnapshot, hread⟩ := replayWal_eq_ok hreplay
  have hstorage := started_storage hreplay hstart
  refine ⟨?_, ?_, ?_⟩
  · obtain ⟨p, -, hreplay⟩ := bind_eq_ok.mp hreplay
    obtain ⟨es, -, hreplay⟩ := bind_eq_ok.mp hreplay
    obtain ⟨storage', -, hreplay⟩ := bind_eq_ok.mp hreplay
    cases hreplay
    show (disk.snapDir.load site.snap).1 = _
    rw [h.heads.load]
  · obtain ⟨items, hlists, -⟩ := h.backs.lists
    obtain ⟨t', -, -, rfl, -, -⟩ := Wal.readAll_eq_ok.mp hread
    have hclean : (site.wal.scan (disk.walContent site.wal)).stop = none := hlists.clean
    show (Wal.readFile site.wal (Wal.openAt (disk.walContent site.wal) size _).file).content = _
    rw [Wal.readFile_of_clean hclean]
    rfl
  · show _ = node.raft.raftLog.storage.snapshot.position
    rw [hstorage, hsnapshot, h.heads.load, loadedStorage_position]
    exact fun snap hsnap => (h.filed snap hsnap).1

/-- What was read at a start is what the disk holds. -/
lemma boot_persisted (h : Recoverable site disk loaded t)
    (hboot : boot site disk size = Except.ok s) : Persisted site s t := by
  obtain ⟨items, hlists, hfold⟩ := h.backs.lists
  have hlegible : Legible site disk := by
    refine ⟨?_, fun snap hsnap => (h.filed snap ?_).1⟩
    · have hclean : (site.wal.scan (disk.walContent site.wal)).stop = none := hlists.clean
      rw [show (disk.walFile.getD (Wal.create site.wal)) = disk.walContent site.wal from rfl, hclean]
      exact fun heq => by cases heq
    · rw [h.heads.load] at hsnap
      exact hsnap
  obtain ⟨t', hpersisted⟩ := Persisted.boot hlegible hboot
  obtain ⟨items', hlists', hfold'⟩ := hpersisted.backs.lists
  obtain ⟨-, hcontent, hposition⟩ := h.boot_disk hboot
  rw [hcontent] at hlists'
  obtain rfl : items = items' := hlists.unique hlists'
  rw [hposition] at hfold
  obtain rfl : t = t' := Except.ok.inj (hfold.symm.trans hfold')
  exact hpersisted

/-- **A process that has just been started stands on its disk**, and has restored the term, the vote
and the entries of the log. -/
theorem standing (h : Recoverable site disk loaded t) (hpeers : 0 < site.peers)
    (hboot : boot site disk size = Except.ok s) :
    Standing site s loaded t ∧ t.hs.Precedes s.node.raft ∧
      ∀ i e, t.HoldsAt s.walStart.index i e → e ∈ s.log.logical := by
  have hpersisted := h.boot_persisted hboot
  obtain ⟨hdir, hcontent, hposition⟩ := h.boot_disk hboot
  have hdisk : s.disk.walContent site.wal = disk.walContent site.wal := hcontent
  have hrecoverable : Recoverable site s.disk loaded t := by
    refine ⟨?_, h.filed, ?_, ?_, h.inRange⟩
    · show s.snapDir.Heads site.snap loaded
      rw [hdir]
      exact h.heads
    · rw [hdisk]
      exact h.backs
    · rw [hdisk]
      exact h.dense
  obtain ⟨storage, wal, snapDir, last, node, hreplay, hstart, rfl⟩ := boot_eq_ok hboot
  obtain ⟨-, hfront, hsnapshot, hread⟩ := replayWal_eq_ok hreplay
  have hstorage := started_storage hreplay hstart
  have hconsistent := replayWal_consistent hreplay
  obtain ⟨hvalid, happlied⟩ := validate_storage (config site storage)
  have hvalid : (config site storage).validate.1.storage = storage := hvalid
  -- what was read is what the storage holds
  obtain ⟨w', hread'⟩ := h.backs.readAll size
  rw [h.heads.load] at hread
  obtain ⟨rfl, hhs, hstored⟩ : w' = wal ∧ t.hs = storage.hardState ∧
      t.ents = storage.stored.map some := by
    have heq := Except.ok.inj (hread'.symm.trans hread)
    exact ⟨congrArg Prod.fst heq, congrArg (fun p => p.2.1) heq, congrArg (fun p => p.2.2) heq⟩
  have hstate : w'.latest t.hs = t.hs := by
    obtain ⟨t', -, -, rfl, -, -⟩ := Wal.readAll_eq_ok.mp hread
    rfl
  have hindex : storage.front.index = (loaded.getD {}).position.index := by
    rw [hposition, hfront]
    show _ = node.raft.raftLog.storage.snapshot.metadata.index
    rw [hstorage]
  have hlast : storage.lastIndex = (loaded.getD {}).position.index + t.ents.length := by
    rw [storage.lastIndex_eq, hindex, hstored, List.length_map]
  obtain ⟨r, hinit, ⟨hzero, hprev, hbootstrap⟩ | ⟨hsome, hprev, hnode⟩⟩ := RawNode.start_cases hstart
  · -- a new node
    rw [hvalid] at hzero
    have hnil : t.ents = [] := List.eq_nil_of_length_eq_zero (by omega)
    obtain ⟨hempty, -, -⟩ := h.inRange.resolve_right fun hright => by omega
    simp only [HardState.isEmptyState, Bool.and_eq_true, beq_iff_eq] at hempty
    obtain ⟨l, -, -, hlog, -, -⟩ := bootstrap_eq_ok hbootstrap
    refine ⟨⟨hpersisted, hrecoverable, hposition, Or.inr hprev, ?_⟩, ⟨?_, fun _ hvote => ?_⟩,
      fun i e he => ?_⟩
    · show 0 < node.raft.raftLog.committed
      rw [hlog]
      show 0 < (RawNode.bootstrapEntries site.confChange.pack 1 (peerContexts site)).length
      rw [bootstrapEntries_length, peerContexts, List.length_map, List.length_range]
      exact hpeers
    · rw [hempty.1.1]
      exact Nat.zero_le _
    · exact absurd hempty.1.2 hvote
    · obtain ⟨-, he⟩ := he
      rw [hnil] at he
      cases he
  · -- a node that goes on
    rw [hvalid] at hsome
    obtain ⟨hpos, hlow, hhigh⟩ := h.inRange.resolve_left fun hleft => hsome (by
      rw [hlast, hleft.2.1, hleft.2.2]
      rfl)
    have hnonempty : ¬ t.hs.isEmptyState = true := by
      intro hempty
      simp only [HardState.isEmptyState, Bool.and_eq_true, beq_iff_eq] at hempty
      omega
    obtain ⟨hterm, hvote, -, -⟩ := Raft.init_hardState hinit
    have hcommitted := Raft.init_committed hinit happlied
    rw [hvalid, ← hhs] at hterm hvote hcommitted
    rw [if_neg hnonempty] at hcommitted
    have hheld : r.hardState = t.hs := by
      show ({ term := r.term, vote := r.vote, commit := r.raftLog.committed } : HardState) = t.hs
      rw [hterm, hvote, hcommitted]
    refine ⟨⟨hpersisted, hrecoverable, hposition, Or.inl ?_, ?_⟩, ⟨?_, fun _ _ => ?_⟩,
      fun i e he => ?_⟩
    · show node.prevHardState = w'.latest t.hs
      rw [hprev, hheld, hstate]
    · show 0 < node.raft.raftLog.committed
      rw [hnode, hcommitted]
      exact hpos
    · show t.hs.term ≤ node.raft.term
      rw [hnode, hterm]
    · show node.raft.vote = t.hs.vote
      rw [hnode, hvote]
    · obtain ⟨-, -, -, committed, -, -, -, hlog⟩ := Raft.init_eq_ok hinit
      obtain ⟨-, he⟩ := he
      have hmem : e ∈ storage.stored := by
        rw [hstored, List.getElem?_map, Option.map_eq_some_iff] at he
        obtain ⟨e', he', heq⟩ := he
        cases heq
        exact List.mem_of_getElem? he'
      have hoffset : node.raft.raftLog.unstable.offset = storage.lastIndex + 1 := by
        rw [hnode, hlog, hvalid]
        rfl
      rw [logical_of_snapshot_none]
      · refine List.mem_append_left _ ?_
        show e ∈ node.raft.raftLog.storage.stored.take
          (node.raft.raftLog.unstable.offset - (node.raft.raftLog.storage.front.index + 1))
        rw [hstorage, hoffset, storage.lastIndex_eq, List.take_of_length_le (by omega)]
        exact hmem
      · show node.raft.raftLog.unstable.snapshot = none
        rw [hnode, hlog]
        rfl

end Recoverable

end RaftKv
