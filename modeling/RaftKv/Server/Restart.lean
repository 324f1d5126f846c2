import RaftKv.Server.Rounds
import RaftKv.Wal.Replay

/-!
# The start of a process

What `replay_WAL` makes of a disk, whatever the disk holds.

* `Wal.Placed` — an entry that is read from the log stands where its index says.
* `RaftNode.replayWal_eq_ok` — **the storage is a log behind the snapshot that was loaded**.
* `RaftNode.boot_tied` — **the indices of a process that has just been started**.
-/

namespace RaftKv

open RaftLog

namespace Wal

/-- The entries stand where their indices say. -/
def Placed (start : Nat) (ents : List (Option Entry)) : Prop :=
  ∀ k e, ents[k]? = some (some e) → e.index = start + 1 + k

lemma placed_resize {start n : Nat} {ents : List (Option Entry)} (h : Placed start ents) :
    Placed start (resizeEntries n ents) := by
  intro k e hk
  rw [resizeEntries, List.getElem?_append] at hk
  split at hk
  · rw [List.getElem?_take] at hk
    split at hk
    · exact h k e hk
    · cases hk
  · have hmem := List.mem_of_getElem? hk
    rw [List.mem_replicate] at hmem
    cases hmem.2

lemma placed_handleRecord {f : WalFormat} {start : WalSnapshot} {s s' : WalReplay} {r : WalRecord}
    (h : Placed start.index s.ents) (hr : s.handleRecord f start r = Except.ok s') :
    Placed start.index s'.ents := by
  rw [WalReplay.handleRecord] at hr
  split at hr
  · obtain ⟨entry, -, hr⟩ := Outcome.bind_eq_ok.mp hr
    cases hr
    dsimp only
    split
    · rename_i hlt
      intro k e hk
      rw [List.getElem?_append] at hk
      split at hk
      · exact placed_resize h k e hk
      · rename_i hge
        rw [length_resizeEntries] at hge hk
        have hlen := (List.getElem?_eq_some_iff.mp hk).1
        rw [List.length_singleton] at hlen
        have hzero : k - (entry.index - start.index - 1) = 0 := by omega
        rw [hzero] at hk
        cases hk
        omega
    · exact h
  split at hr
  · obtain ⟨hs, -, hr⟩ := Outcome.bind_eq_ok.mp hr
    cases hr
    exact h
  split at hr
  · obtain ⟨snap, -, hr⟩ := Outcome.bind_eq_ok.mp hr
    split at hr
    · cases hr
    · cases hr
      exact h
  split at hr
  · cases hr
  · cases hr

/-- **What `read_all` returns** stands where its indices say. -/
theorem placed_readAll {f : WalFormat} {w w' : Wal} {hs hs' : HardState}
    {ents' : List (Option Entry)} (h : w.readAll f hs [] = Except.ok (w', hs', ents')) :
    Placed w.start.index ents' := by
  obtain ⟨s, hfold, h⟩ := Outcome.bind_eq_ok.mp h
  have hplaced : Placed w.start.index s.ents := by
    refine Outcome.foldlM_induct (P := fun s : WalReplay => Placed w.start.index s.ents)
      (fun s s' r _ hs hr => placed_handleRecord hs hr) ?_ hfold
    intro k e hk
    cases hk
  split at h
  · cases h
  · cases h
    exact hplaced

end Wal

namespace RaftNode

variable {site : Site} {disk : Disk} {fileSize : Nat} {s : RaftNode}

lemma derefEntries_eq_ok {ents : List (Option Entry)} {es : List Entry}
    (h : derefEntries ents = Except.ok es) : ents = es.map some := by
  induction ents generalizing es with
  | nil =>
      cases h
      rfl
  | cons entry ents ih =>
      rw [derefEntries, List.mapM_cons] at h
      obtain ⟨e, he, h⟩ := Outcome.bind_eq_ok.mp h
      obtain ⟨es', hes', h⟩ := Outcome.bind_eq_ok.mp h
      cases h
      cases entry with
      | none => cases he
      | some e' =>
          cases he
          rw [ih hes', List.map_cons]

/-- A fresh storage takes over any snapshot but an empty one. -/
lemma loadedStorage_eq (loaded : Option Snapshot) :
    (loadedStorage loaded).front.index = (loaded.getD {}).metadata.index ∧
      (loadedStorage loaded).stored = [] ∧
      (loadedStorage loaded).snapshot.metadata.index = (loaded.getD {}).metadata.index := by
  cases loaded with
  | none => exact ⟨rfl, rfl, rfl⟩
  | some snapshot =>
      rw [loadedStorage, Option.getD_some, MemoryStorage.applySnapshot]
      split
      · rename_i hge
        have hzero : snapshot.metadata.index = 0 := Nat.le_zero.mp hge
        rw [hzero]
        exact ⟨rfl, rfl, rfl⟩
      · exact ⟨rfl, rfl, rfl⟩

/-- **What `replay_WAL` makes of a disk**: the log behind the snapshot that was loaded. -/
theorem replayWal_eq_ok {storage : MemoryStorage} {wal : Wal} {snapDir : SnapFolder} {last : Nat}
    (h : replayWal site disk fileSize = Except.ok (storage, wal, snapDir, last)) :
    Numbered storage.front.index storage.entries ∧
      storage.front.index = storage.snapshot.metadata.index ∧
      storage.snapshot = (loadedStorage (disk.snapDir.load site.snap).2).snapshot ∧
      (Wal.openAt (disk.walFile.getD (Wal.create site.wal)) fileSize
        { index := ((disk.snapDir.load site.snap).2.getD {}).metadata.index
          term := ((disk.snapDir.load site.snap).2.getD {}).metadata.term }).readAll site.wal {} [] =
        Except.ok (wal, storage.hardState, storage.stored.map some) := by
  obtain ⟨⟨wal', hs, ents⟩, hread, h⟩ := Outcome.bind_eq_ok.mp h
  obtain ⟨es, hderef, h⟩ := Outcome.bind_eq_ok.mp h
  obtain ⟨storage', happend, h⟩ := Outcome.bind_eq_ok.mp h
  cases h
  obtain ⟨hfront, hstored, hsnapshot⟩ := loadedStorage_eq (disk.snapDir.load site.snap).2
  have hplaced := Wal.placed_readAll hread
  have hnum : Numbered ((loadedStorage (disk.snapDir.load site.snap).2).front.index + 1) es := by
    intro k e hk
    rw [hfront]
    exact hplaced k e (by rw [derefEntries_eq_ok hderef, List.getElem?_map, hk]; rfl)
  have hlast := (loadedStorage (disk.snapDir.load site.snap).2).lastIndex_eq
  rw [hstored] at hlast
  obtain ⟨storage', happend', hfront', hstored', hsnapshot', hhs'⟩ := MemoryStorage.append_numbered hnum
    (s := (loadedStorage (disk.snapDir.load site.snap).2).setHardState hs)
    (fun _ => (show _ ≤ (loadedStorage (disk.snapDir.load site.snap).2).lastIndex + 1 by
      rw [hlast]; exact Nat.le_refl _))
  obtain rfl : storage' = storage := Except.ok.inj (happend'.symm.trans happend)
  have hfront'' : storage'.front.index =
      (loadedStorage (disk.snapDir.load site.snap).2).front.index := congrArg Entry.index hfront'
  refine ⟨?_, ?_, hsnapshot', ?_⟩
  · rw [MemoryStorage.entries_eq, hstored']
    refine Numbered.cons rfl ?_
    rw [hfront'']
    refine splice_numbered ?_ hnum ?_
    · show Numbered _ (loadedStorage (disk.snapDir.load site.snap).2).stored
      rw [hstored]
      exact Numbered.nil _
    · show _ ≤ _ + (loadedStorage (disk.snapDir.load site.snap).2).stored.length + 1
      rw [hstored]
      exact Nat.le_refl _
  · rw [hfront'', hfront, hsnapshot']
    exact hsnapshot.symm
  · have hall : storage'.stored = es := by
      rw [hstored']
      show splice _ (loadedStorage (disk.snapDir.load site.snap).2).stored es = es
      rw [hstored]
      exact splice_nil hnum
    rw [hall, hhs', ← derefEntries_eq_ok hderef]
    exact hread

/-! ## The indices -/

/-- Checking the parameters does not change what the node starts from. -/
lemma validate_storage (c : Config) :
    c.validate.1.storage = c.storage ∧ c.validate.1.applied = c.applied := by
  simp only [Config.validate, apply_ite Prod.fst, apply_ite Config.storage,
    apply_ite Config.applied, ite_self, and_self]

/-- The log of a node that was started is on top of the storage it was started from. -/
lemma boots_storage {pack : ConfChange → Bytes} {c : Config} {n : RawNode} (hc : c.Consistent)
    (h : Boots pack c n) : n.raft.raftLog.storage = c.storage := by
  have hinit : ∀ {r : Raft}, Raft.init c = Except.ok r → r.raftLog.storage = c.storage := by
    intro r hr
    obtain ⟨-, -, -, committed, -, -, -, hlog⟩ := Raft.init_eq_ok hr
    rw [hlog]
    rfl
  obtain ⟨r, hr, hn | ⟨hlast, peers, hboot⟩⟩ := boots_cases h
  · rw [hn]
    exact hinit hr
  · rw [(bootstrap_moves (init_sound hc hr).1 hlast hboot).storage]
    exact hinit hr

/-- The data of the storage's snapshot does not concern the log. -/
lemma sound_data {l : RaftLog} (h : l.Sound) (data : Bytes) :
    (l.setStorage { l.storage with snapshot := { l.storage.snapshot with data := data } }).Sound :=
  ⟨⟨h.wf.stable, h.wf.unstable, h.wf.fits, h.wf.fits_snapshot⟩, h.base_le, h.committed_le,
    h.applied_le, h.snapshot_le⟩

/-- What a start consists of. -/
lemma boot_eq_ok (h : boot site disk fileSize = Except.ok s) :
    ∃ (storage : MemoryStorage) (wal : Wal) (snapDir : SnapFolder) (last : Nat) (node : RawNode),
      replayWal site disk fileSize = Except.ok (storage, wal, snapDir, last) ∧
      RawNode.start site.confChange.pack (config site storage).validate.1 (peerContexts site) =
        Except.ok node ∧
      s = (RaftNode.schedule
        { id := site.id, lastIndex := last, node := node, snapCount := site.snapCount
          snapDir := snapDir, wal := wal }).1 := by
  obtain ⟨s₀, hnew, h⟩ := Outcome.bind_eq_ok.mp h
  obtain rfl := Outcome.pure_eq_ok.mp h
  obtain ⟨⟨storage, wal, snapDir, last⟩, hreplay, hnew⟩ := Outcome.bind_eq_ok.mp hnew
  dsimp only at hnew
  split at hnew
  · cases hnew
  obtain ⟨node, hstart, hnew⟩ := Outcome.bind_eq_ok.mp hnew
  obtain rfl := Outcome.pure_eq_ok.mp hnew
  exact ⟨storage, wal, snapDir, last, node, hreplay, hstart, rfl⟩

/-- The storage that `replay_WAL` leaves behind is one to start from. -/
lemma replayWal_consistent {storage : MemoryStorage} {wal : Wal} {snapDir : SnapFolder} {last : Nat}
    (h : replayWal site disk fileSize = Except.ok (storage, wal, snapDir, last)) :
    (config site storage).validate.1.Consistent := by
  obtain ⟨hnum, hfront, -, -⟩ := replayWal_eq_ok h
  obtain ⟨hstorage, happlied⟩ := validate_storage (config site storage)
  refine ⟨?_, ?_, ?_⟩
  · rw [hstorage]
    exact hnum
  · rw [hstorage]
    exact le_max_of_le_left hfront.ge
  · rw [happlied]
    exact Nat.zero_le _

/-- The storage of a node that was started is the one that `replay_WAL` has left behind. -/
lemma started_storage {storage : MemoryStorage} {wal : Wal} {snapDir : SnapFolder} {last : Nat}
    {node : RawNode} (h : replayWal site disk fileSize = Except.ok (storage, wal, snapDir, last))
    (hstart : RawNode.start site.confChange.pack (config site storage).validate.1
      (peerContexts site) = Except.ok node) : node.raft.raftLog.storage = storage :=
  (boots_storage (replayWal_consistent h) (Or.inr ⟨_, hstart⟩)).trans
    (validate_storage (config site storage)).1

/-- **The indices of a process that has just been started.** -/
theorem boot_tied (h : boot site disk fileSize = Except.ok s) :
    s.Tied ∧ s.snapCount = site.snapCount := by
  obtain ⟨storage, wal, snapDir, last, node, hreplay, hstart, rfl⟩ := boot_eq_ok h
  have hsound := Driver.sound_of_boots (replayWal_consistent hreplay) (Or.inr ⟨_, hstart⟩)
  refine ⟨⟨sound_data hsound.log [], hsound.phase, rfl, ?_, Nat.le_refl _, hsound.log.snapshot_le⟩,
    rfl⟩
  show node.raft.raftLog.storage.front.index ≤
    node.raft.raftLog.storage.snapshot.metadata.index
  rw [started_storage hreplay hstart, (replayWal_eq_ok hreplay).2.1]

/-- **The snapshot of a process that has just been started** is the loaded one without its data. -/
theorem boot_snapshot (h : boot site disk fileSize = Except.ok s) :
    s.storage.snapshot =
        { (loadedStorage (disk.snapDir.load site.snap).2).snapshot with data := [] } ∧
      s.node.raft.msgs = [] ∧ s.sentMessages = [] := by
  obtain ⟨storage, wal, snapDir, last, node, hreplay, hstart, rfl⟩ := boot_eq_ok h
  have hmsgs : node.raft.msgs = [] :=
    boots_msgs (c := (config site storage).validate.1) (Or.inr ⟨_, hstart⟩)
  refine ⟨?_, hmsgs, rfl⟩
  show { node.raft.raftLog.storage.snapshot with data := [] } = _
  rw [started_storage hreplay hstart, (replayWal_eq_ok hreplay).2.2.1]

end RaftNode

end RaftKv
