import RaftKv.Server.CrashPoints

/-!
# The window of a received snapshot

Behind `WAL::save` the log may say that a received snapshot was committed; until the file of the
snapshot is written, a start reads the log behind an older one.

* `RaftNode.Left` — what a process leaves on disk that ends within the window.
* `RaftNode.Left.holds` — what can be recovered from it, if nothing of the round is on disk or the
  log that was there before goes on to the snapshot.
* `RaftNode.Left.returns_iff` — **the start returns exactly then**.
* `RaftNode.Left.fatal` — **otherwise `load_state` ends it**, where nothing stands behind the snapshot.
-/

namespace RaftKv

open Outcome RaftLog

namespace RaftNode

variable {site : Site} {data : Bytes} {s s' : RaftNode} {rd : Ready} {node : RawNode}
  {loaded : Option Snapshot} {t t' : WalReplay} {snap : Snapshot} {disk : Disk} {fileSize : Nat}

/-! ## How far the log goes -/

/-- The index of the last entry that a start would read from the log. -/
def logReach (site : Site) (s : RaftNode) : Nat :=
  match (Wal.openAt s.wal.file.content 0 s.walStart).readAll site.wal {} [] with
  | Except.ok (_, _, ents) => s.walStart.index + ents.length
  | Except.error _ => s.walStart.index

lemma logReach_eq (h : Wal.Backs site.wal s.walStart s.wal t) :
    s.logReach site = s.walStart.index + t.ents.length := by
  obtain ⟨w, hread⟩ := h.readAll 0
  rw [logReach, hread]

lemma le_reach_of_holdsAt {start i : Nat} {e : Entry} (h : t.HoldsAt start i e) :
    i ≤ start + t.ents.length := by
  obtain ⟨hlt, he⟩ := h
  have hlen := (List.getElem?_eq_some_iff.mp he).1
  omega

/-- A start returns only from a log without gaps that reaches to the commit index. -/
lemma full_of_boot (hheads : disk.snapDir.Heads site.snap loaded)
    (hbacks : Wal.Backs site.wal (loaded.getD {}).position
      (Wal.openAt (disk.walContent site.wal) 0 (loaded.getD {}).position) t)
    (hboot : boot site disk fileSize = Except.ok s) :
    none ∉ t.ents ∧ t.hs.commit ≤ (loaded.getD {}).position.index + t.ents.length := by
  obtain ⟨storage, wal, snapDir, last, node, hreplay, hstart, -⟩ := boot_eq_ok hboot
  obtain ⟨-, hfront, hsnapshot, hread⟩ := replayWal_eq_ok hreplay
  obtain ⟨w', hread'⟩ := hbacks.readAll fileSize
  rw [hheads.load] at hread hsnapshot
  have heq := Except.ok.inj (hread'.symm.trans hread)
  have hhs : t.hs = storage.hardState := congrArg (fun p => p.2.1) heq
  have hents : t.ents = storage.stored.map some := congrArg (fun p => p.2.2) heq
  obtain ⟨r, hinit, -⟩ := RawNode.start_cases hstart
  obtain ⟨-, -, -, committed, -, hhigh, hcommit, -⟩ := Raft.init_eq_ok hinit
  rw [(validate_storage _).1] at hhigh hcommit
  have hindex : storage.front.index = (loaded.getD {}).position.index := by
    obtain ⟨-, -, hsnapshot'⟩ := loadedStorage_eq loaded
    rw [hfront, hsnapshot, hsnapshot']
    rfl
  refine ⟨?_, ?_⟩
  · rw [hents]
    intro hmem
    obtain ⟨e, -, he⟩ := List.mem_map.mp hmem
    cases he
  · have hlast := storage.lastIndex_eq
    have hhigh : committed ≤ storage.lastIndex := hhigh
    have hcommit : storage.hardState.commit ≤ committed := hcommit
    rw [hents, List.length_map, hhs]
    omega

/-! ## What is left on disk -/

/-- **What a process leaves on disk within the window**, and what is read of it: `t'`, where `t` was
read of the disk before the round. -/
structure Left (site : Site) (s : RaftNode) (snap : Snapshot) (disk : Disk) (t t' : WalReplay) :
    Prop where
  snapDir : disk.snapDir = s.snapDir
  backs : Wal.Backs site.wal s.walStart (Wal.openAt (disk.walContent site.wal) 0 s.walStart) t'
  follows : Wal.Follows s.walStart.index (snap.metadata.index + 1) s.log.unstable.entries t t'
  new : ∀ e ∈ s.log.unstable.entries, t'.HoldsAt s.walStart.index e.index e
  dense : snap.metadata.index ≤ s.walStart.index + t.ents.length →
    Wal.Dense site.wal s.walStart (disk.walContent site.wal)
  ballot : s.node.raft.hardState.ballot = t'.hs.ballot
  /-- What the buffer held back is a hard state without entries. -/
  commit : disk = s.disk ∨ t'.hs.commit = s.log.committed

/-- What is written within the window: `WAL::save`, and then the mark. -/
lemma writing_window {point : CrashPoint} {s₀ : RaftNode} (htied : s.Tied)
    (hsome : s.log.unstable.snapshot = some snap)
    (hwindow : point = CrashPoint.saved ∨ point = CrashPoint.marked)
    (hwriting : s.writing site data point = some s₀) :
    ∃ p, s.takeReady = some p ∧ s₀.snapDir = p.1.snapDir ∧
      (s₀.wal = p.1.wal.save site.wal p.2.hardState p.2.entries ∨
        s₀.wal = (p.1.wal.save site.wal p.2.hardState p.2.entries).saveSnapshot site.wal
          snap.position) := by
  rcases hwindow with rfl | rfl
  · obtain ⟨p, htake, hwriting⟩ := Option.bind_eq_some_iff.mp hwriting
    cases hwriting
    exact ⟨p, htake, rfl, Or.inl rfl⟩
  · obtain ⟨p, htake, hwriting⟩ := Option.bind_eq_some_iff.mp hwriting
    obtain ⟨snap', hpending, hwriting⟩ := Option.bind_eq_some_iff.mp hwriting
    cases hwriting
    obtain ⟨node, -, hready, -, -⟩ := takeReady_eq_some htake
    obtain rfl : snap = snap' :=
      Option.some.inj (hsome.symm.trans ((htied.takes hready).snapshot.trans hpending))
    exact ⟨p, htake, rfl, Or.inr rfl⟩

/-- A process that ends within the window leaves that. -/
theorem left_of_crash {point : CrashPoint} (h : Standing site s loaded t) (htied : s.Tied)
    (hw : s.Writable site) (hsome : s.log.unstable.snapshot = some snap)
    (hwindow : point = CrashPoint.saved ∨ point = CrashPoint.marked)
    (hcrash : s.crashDisk site data point = some disk) : ∃ t', Left site s snap disk t t' := by
  obtain ⟨s₀, hwriting, rfl⟩ := Option.map_eq_some_iff.mp hcrash
  obtain ⟨p, htake, hdir, hwal⟩ := writing_window htied hsome hwindow hwriting
  obtain ⟨p, rd⟩ := p
  obtain ⟨node, -, hready, -, rfl⟩ := takeReady_eq_some htake
  have hentries : rd.entries = s.log.unstable.entries := (htied.takes hready).entries
  have hlt : s.walStart.index < snap.metadata.index := htied.idle snap hsome
  have hoffset : s.log.unstable.offset = snap.metadata.index + 1 :=
    htied.sound.wf.fits_snapshot snap hsome
  have hnum : Numbered s.log.unstable.offset rd.entries := hentries ▸ htied.sound.wf.unstable
  have hfits := hw.saveItems_fit (h.hardState_cases hready) hentries
  have hdense : Wal.Dense site.wal s.walStart s.wal.file.content :=
    h.position ▸ h.recoverable.dense
  obtain ⟨t₁, hsaves, hballot⟩ := h.save h.backs rfl hw htied.sound hready
  have hlatest := latest_saved h hready hsaves rfl
  have hfollows := h.backs.follows_save hfits hnum hsaves.backs
  have hnew : ∀ e ∈ s.log.unstable.entries, t₁.HoldsAt s.walStart.index e.index e := by
    intro e he
    obtain ⟨k, hk⟩ := List.mem_iff_getElem?.mp (hentries ▸ he)
    have hindex := hnum k e hk
    exact hsaves.new e (hentries ▸ he) (by omega)
  rw [hentries, hoffset] at hfollows
  have hsaved : snap.metadata.index ≤ s.walStart.index + t.ents.length → Wal.Dense site.wal
      s.walStart (s.wal.save site.wal rd.hardState rd.entries).file.content :=
    fun hreach => hdense.save h.backs hfits hnum (by omega)
  rcases hwal with hwal | hwal
  · have hcontent : s₀.disk.walContent site.wal =
        (s.wal.save site.wal rd.hardState rd.entries).file.content := by
      show s₀.wal.file.content = _
      rw [hwal]
    refine ⟨t₁, hdir, hcontent ▸ hsaves.backs.reopen 0, hfollows, hnew, hcontent ▸ hsaved,
      hballot.symm, ?_⟩
    rcases hsaves.durable with ⟨hsame, -⟩ | hflushed
    · refine Or.inl ?_
      rw [disk, disk, hdir, hwal, ← hsame]
    · refine Or.inr ?_
      rw [hflushed, hlatest]
      rfl
  · have hcontent : s₀.disk.walContent site.wal = ((s.wal.save site.wal rd.hardState
        rd.entries).saveSnapshot site.wal snap.position).file.content := by
      show s₀.wal.file.content = _
      rw [hwal]
    have hmark := (hw.marks snap.position (pending_mem_nextMarks hsome)).1
    have hagrees : s.walStart.Agrees snap.position := fun heq => by
      have heq : snap.metadata.index = s.walStart.index := heq
      omega
    obtain ⟨t₂, hbacks, hhs, hkept, -⟩ := hsaves.backs.saveSnapshot hmark hagrees
    have hents := hsaves.backs.ents_saveSnapshot hmark hbacks
    have hstate : t₂.hs = s.node.raft.hardState := hhs.trans hlatest
    refine ⟨t₂, hdir, hcontent ▸ hbacks.reopen 0, ⟨fun hnil => hents.trans (hfollows.ents hnil),
      fun i e hi hx => hfollows.before i e hi ⟨hx.1, hents ▸ hx.2⟩⟩,
      fun e he => hkept _ _ (hnew e he), fun hreach => ?_, ?_, Or.inr ?_⟩
    · rw [hcontent]
      exact (hsaved hreach).saveSnapshot hsaves.backs hmark
    · rw [hstate]
    · rw [hstate]
      rfl

namespace Left

/-- **What can be recovered from it**: nothing of the round is on disk, or the log that was there
goes on to the snapshot. -/
theorem holds (hl : Left site s snap disk t t') (h : Standing site s loaded t) (htied : s.Tied)
    (hsome : s.log.unstable.snapshot = some snap)
    (hor : disk = s.disk ∨ snap.metadata.index ≤ s.logReach site) :
    Holds site disk s.node.raft.hardState s.log.logical loaded t' := by
  have hentries : ∀ e ∈ s.log.logical, (loaded.getD {}).position.index < e.index →
      t'.HoldsAt (loaded.getD {}).position.index e.index e := by
    intro e he _
    rw [logical, hsome] at he
    rw [h.position]
    exact hl.new e he
  refine ⟨?_, Or.inl hl.ballot, hentries⟩
  by_cases hsame : disk = s.disk
  · have hbacks := hl.backs
    rw [hsame] at hbacks
    obtain rfl : t' = t := h.backs.unique hbacks rfl
    rw [hsame]
    exact h.recoverable
  rw [logReach_eq h.backs] at hor
  have hreach := hor.resolve_left hsame
  have hbase : s.log.base = snap.metadata.index := by rw [base, hsome]
  refine ⟨?_, h.recoverable.filed, ?_, ?_, Or.inr ⟨?_, ?_, ?_⟩⟩
  · rw [hl.snapDir]
    exact h.recoverable.heads
  · rw [h.position]
    exact hl.backs
  · rw [h.position]
    exact hl.dense hreach
  · rw [hl.commit.resolve_left hsame]
    exact h.positive
  · rw [hl.commit.resolve_left hsame, h.position]
    exact walStart_le htied
  · -- the last entry of the log is the last that is read
    have hlast := htied.sound.committed_le
    rw [lastIndex_eq htied.sound.wf, hbase, logical, hsome] at hlast
    dsimp only at hlast
    rw [hl.commit.resolve_left hsame, h.position]
    have hnum := htied.sound.wf.unstable
    have hoffset := htied.sound.wf.fits_snapshot snap hsome
    rcases List.eq_nil_or_concat s.log.unstable.entries with hnil | ⟨es, e, hconcat⟩
    · rw [hl.follows.ents hnil]
      rw [hnil, List.length_nil] at hlast
      omega
    · rw [hconcat, List.length_concat] at hlast
      have hindex := hnum es.length e (by rw [hconcat]; simp)
      have hheld := le_reach_of_holdsAt (hl.new e (by rw [hconcat]; simp))
      omega

/-- A start returns from nothing else. -/
lemma of_boot (hl : Left site s snap disk t t') (h : Standing site s loaded t) (htied : s.Tied)
    (hsome : s.log.unstable.snapshot = some snap)
    (hboot : boot site disk fileSize = Except.ok s') :
    disk = s.disk ∨ snap.metadata.index ≤ s.logReach site := by
  refine or_iff_not_imp_left.mpr fun hsame => ?_
  have hbase : s.log.base = snap.metadata.index := by rw [base, hsome]
  have hlow : snap.metadata.index ≤ s.log.committed := hbase.ge.trans htied.sound.base_le
  have hlt : s.walStart.index < snap.metadata.index := htied.idle snap hsome
  obtain ⟨hnone, hreach⟩ := full_of_boot (hl.snapDir ▸ h.recoverable.heads)
    (h.position.symm ▸ hl.backs) hboot
  rw [h.position, hl.commit.resolve_left hsame] at hreach
  rw [logReach_eq h.backs]
  have hplace : snap.metadata.index - (s.walStart.index + 1) < t'.ents.length := by omega
  cases hx : t'.ents[snap.metadata.index - (s.walStart.index + 1)] with
  | none => exact absurd (hx ▸ List.getElem_mem hplace) hnone
  | some x =>
      refine le_reach_of_holdsAt (hl.follows.before snap.metadata.index x (by omega) ⟨hlt, ?_⟩)
      rw [List.getElem?_eq_getElem hplace, hx]

/-- **The start returns** exactly if nothing of the round is on disk, or the log that was there goes
on to the snapshot. -/
theorem returns_iff (hl : Left site s snap disk t t') (h : Standing site s loaded t)
    (htied : s.Tied) (hsome : s.log.unstable.snapshot = some snap) (hid : site.id ≠ 0)
    (size : Nat) : (∃ s', boot site disk size = Except.ok s') ↔
      disk = s.disk ∨ snap.metadata.index ≤ s.logReach site := by
  constructor
  · rintro ⟨s', hboot⟩
    exact hl.of_boot h htied hsome hboot
  · intro hor
    exact (hl.holds h htied hsome hor).recoverable.boot_returns hid size

/-- **Otherwise `load_state` ends the process**, if the log holds nothing behind the snapshot. -/
theorem fatal (hl : Left site s snap disk t t') (h : Standing site s loaded t) (htied : s.Tied)
    (hsome : s.log.unstable.snapshot = some snap) (hid : site.id ≠ 0)
    (hnil : s.log.unstable.entries = []) (hsame : disk ≠ s.disk)
    (hshort : s.logReach site < snap.metadata.index) (size : Nat) :
    boot site disk size = Except.error (commitOutOfRange site.id s.log.committed
      s.walStart.index (s.logReach site)) := by
  have hbase : s.log.base = snap.metadata.index := by rw [base, hsome]
  have hlow : snap.metadata.index ≤ s.log.committed := hbase.ge.trans htied.sound.base_le
  have hents := hl.follows.ents hnil
  have hcommit := hl.commit.resolve_left hsame
  rw [logReach_eq h.backs] at hshort ⊢
  obtain ⟨reach, hfull⟩ := h.recoverable.dense.full (h.position.symm ▸ h.backs)
  rw [Recoverable.boot_fatal (hl.snapDir ▸ h.recoverable.heads) h.recoverable.filed
    (h.position.symm ▸ hl.backs) (hents ▸ hfull.none_notMem) hid ?_ size, h.position, hcommit,
    hents]
  rw [h.position, hcommit, hents]
  omega

end Left

end RaftNode

end RaftKv
