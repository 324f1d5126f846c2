import RaftKv.Driver.ReadyFlags
import RaftKv.Server.Compaction
import RaftKv.Wal.Reading

/-!
# Persist before send

What is on disk when `pull_ready_events` hands the messages of a `Ready` to the transport.  There are
four copies of the hard state: the one of the node, the one of the last `Ready`, the one that the log
has in memory, and the one that is read from its file.

* `RaftNode.Restores` — **what a restart reads from the file** is what the node relied on when its
  `Ready` was taken.
* `RaftNode.Persisted` — **the invariant between two rounds**, and how every part of a round, every
  call and every start keeps it.
* `RaftNode.persists_before_send` — **nothing is sent before it is on disk**, in every run that
  writes only what fits into a record of the log.
* `RaftNode.lost_entry` — an entry that does not fit is acknowledged, and is lost.
-/

namespace RaftKv

open RaftLog

/-- Where a log is read from behind a snapshot. -/
def Snapshot.position (snap : Snapshot) : WalSnapshot :=
  { index := snap.metadata.index, term := snap.metadata.term }

/-- Term and vote of the node are later than those of a hard state. -/
structure HardState.Precedes (hs : HardState) (r : Raft) : Prop where
  term_le : hs.term ≤ r.term
  vote_eq : r.term = hs.term → hs.vote ≠ 0 → r.vote = hs.vote

lemma HardState.Precedes.later {hs : HardState} {r r' : Raft} (h : hs.Precedes r)
    (hlater : Raft.Later r r') : hs.Precedes r' := by
  refine ⟨h.term_le.trans hlater.term_le, fun hterm hvote => ?_⟩
  have hsame : r.term = hs.term := le_antisymm (hterm ▸ hlater.term_le) h.term_le
  have hheld := h.vote_eq hsame hvote
  rw [hlater.vote_eq (hterm.trans hsame.symm) (by rwa [hheld]), hheld]

namespace RaftNode

variable {site : Site} {disk : Disk} {fileSize : Nat} {s s' s₁ : RaftNode} {rd : Ready}
  {node : RawNode} {t : WalReplay} {a : Action}

/-- Where a restart reads the log from. -/
def walStart (s : RaftNode) : WalSnapshot := s.storage.snapshot.position

/-- **What a restart reads from the file is what the node `r` relies on**: its term and its vote, and
behind its snapshot every entry of its log.  A snapshot that is being installed has its mark in the
log. -/
def Restores (site : Site) (s : RaftNode) (r : Raft) : Prop :=
  s.walStart = r.raftLog.snapshot.position ∧
  (∀ snap, r.raftLog.unstable.snapshot = some snap →
    snap.position ∈ Wal.marksOf site.wal s.wal.file.content) ∧
  ∀ size, ∃ (w : Wal) (hs : HardState) (ents : List (Option Entry)),
    (Wal.openAt s.wal.file.content size s.walStart).readAll site.wal {} [] =
      Except.ok (w, hs, ents) ∧ hs.term = r.term ∧ hs.vote = r.vote ∧
    ∀ e ∈ r.raftLog.logical, s.walStart.index < e.index →
      ents[e.index - (s.walStart.index + 1)]? = some (some e)

/-! ## What is written -/

/-- The marks that the next round may write: of the snapshot that is being installed, and of a local
snapshot at an entry that is committed. -/
def nextMarks (s : RaftNode) : List WalSnapshot :=
  (s.log.unstable.snapshot.map Snapshot.position).toList ++
    (s.log.logical.filter fun e => s.snapshotIndex < e.index ∧ e.index ≤ s.log.committed).map
      fun e => { index := e.index, term := e.term }

/-- **What the next round writes can be read back**: every record fits, and no mark of the log is of
another snapshot at the same index. -/
structure Writable (site : Site) (s : RaftNode) : Prop where
  entries : ∀ e ∈ s.log.unstable.entries, (WalItem.entry e).Fits site.wal
  state : (WalItem.state s.node.raft.hardState).Fits site.wal
  marks : ∀ mark ∈ s.nextMarks, (WalItem.snapshot mark).Fits site.wal ∧
    ∀ mark' ∈ Wal.marksOf site.wal s.wal.file.content, mark.Agrees mark'

/-- The log has no end mark that hides what is appended, and no snapshot on the disk is empty. -/
structure Legible (site : Site) (disk : Disk) : Prop where
  wal : (site.wal.scan (disk.walFile.getD (Wal.create site.wal))).stop ≠
    some StopReason.invalidType
  snap : ∀ snap ∈ (disk.snapDir.load site.snap).2, snap.isEmpty = false

instance (site : Site) (s : RaftNode) : Decidable (s.Writable site) :=
  decidable_of_iff ((∀ e ∈ s.log.unstable.entries, (WalItem.entry e).Fits site.wal) ∧
    (WalItem.state s.node.raft.hardState).Fits site.wal ∧
    ∀ mark ∈ s.nextMarks, (WalItem.snapshot mark).Fits site.wal ∧
      ∀ mark' ∈ Wal.marksOf site.wal s.wal.file.content, mark.Agrees mark')
    ⟨fun h => ⟨h.1, h.2.1, h.2.2⟩, fun h => ⟨h.entries, h.state, h.marks⟩⟩

instance (site : Site) (disk : Disk) : Decidable (Legible site disk) :=
  decidable_of_iff ((site.wal.scan (disk.walFile.getD (Wal.create site.wal))).stop ≠
      some StopReason.invalidType ∧
    ∀ snap ∈ (disk.snapDir.load site.snap).2, snap.isEmpty = false)
    ⟨fun h => ⟨h.1, h.2⟩, fun h => ⟨h.wal, h.snap⟩⟩

/-- What a round writes can be read back, and a start is from a disk that can be read. -/
def Durably (site : Site) (s : RaftNode) : Action → Prop
  | Action.call _ => True
  | Action.handleReady _ => s.Writable site
  | Action.restart disk _ => Legible site disk

instance (site : Site) (s : RaftNode) : (a : Action) → Decidable (s.Durably site a)
  | Action.call _ => inferInstanceAs (Decidable True)
  | Action.handleReady _ => inferInstanceAs (Decidable (s.Writable site))
  | Action.restart disk _ => inferInstanceAs (Decidable (Legible site disk))

/-- What `save` is given can be read back. -/
lemma Writable.saveItems_fit {p : Prop} (hw : s.Writable site)
    (hcases : (rd.hardState.isEmptyState = true ∧ p) ∨
      (rd.hardState.isEmptyState = false ∧ rd.hardState = s.node.raft.hardState))
    (hentries : rd.entries = s.log.unstable.entries) :
    ∀ i ∈ Wal.saveItems (rd.hardState, rd.entries), i.Fits site.wal := by
  intro i hi
  rw [Wal.saveItems, List.mem_append] at hi
  rcases hi with hi | hi
  · obtain ⟨e, he, rfl⟩ := List.mem_map.mp hi
    exact hw.entries e (hentries ▸ he)
  · split at hi
    · cases hi
    · rename_i hsome
      obtain rfl := List.mem_singleton.mp hi
      rcases hcases with ⟨hempty, -⟩ | ⟨-, heq⟩
      · exact absurd hempty hsome
      · rw [heq]
        exact hw.state

lemma pending_mem_nextMarks {snap : Snapshot} (h : s.log.unstable.snapshot = some snap) :
    snap.position ∈ s.nextMarks := by
  rw [nextMarks, h]
  exact List.mem_append_left _ (List.mem_singleton.mpr rfl)

lemma entry_mem_nextMarks {e : Entry} (he : e ∈ s.log.logical) (hlow : s.snapshotIndex < e.index)
    (hhigh : e.index ≤ s.log.committed) : { index := e.index, term := e.term } ∈ s.nextMarks :=
  List.mem_append_right _ (List.mem_map.mpr
    ⟨e, List.mem_filter.mpr ⟨he, decide_eq_true ⟨hlow, hhigh⟩⟩, rfl⟩)

/-! ## The invariant -/

/-- The file of the log holds what the storage does. -/
structure OnDisk (site : Site) (s : RaftNode) (t : WalReplay) : Prop where
  backs : Wal.Backs site.wal s.walStart s.wal t
  entries : ∀ e ∈ s.storage.stored, s.walStart.index < e.index →
    t.HoldsAt s.walStart.index e.index e

/-- **What is on disk between two rounds.** -/
structure Persisted (site : Site) (s : RaftNode) (t : WalReplay) : Prop extends
    OnDisk site s t where
  prev : s.node.prevHardState.ballot = t.hs.ballot ∨
    s.node.prevHardState = {} ∧ 0 < s.node.raft.term
  precedes : s.node.prevHardState.Precedes s.node.raft

/-- A node without term and vote has none on disk. -/
lemma Persisted.ballot_zero (h : Persisted site s t)
    (hzero : s.node.raft.hardState.ballot = (0, 0)) : t.hs.ballot = (0, 0) := by
  obtain ⟨hterm, hvote⟩ := Prod.mk.inj hzero
  have hterm : s.node.raft.term = 0 := hterm
  have hvote : s.node.raft.vote = 0 := hvote
  rcases h.prev with hprev | ⟨-, hpos⟩
  · have hle := h.precedes.term_le
    have hterm' : s.node.prevHardState.term = 0 := by omega
    have hvote' : s.node.prevHardState.vote = 0 := by
      by_contra hne
      exact hne ((h.precedes.vote_eq (hterm.trans hterm'.symm) hne).symm.trans hvote)
    rw [← hprev, HardState.ballot, hterm', hvote']
  · omega

/-- A call leaves the disk alone. -/
lemma Persisted.call {c : Call} {d : Driver} (h : Persisted site s t) (hstamped : c.Stamped)
    (hnum : c.Numbered)
    (hact : Driver.act site.confChange.pack { node := s.node } c = Except.ok d) :
    Persisted site ({ s with node := d.node } : RaftNode) t := by
  have hstorage : ({ s with node := d.node } : RaftNode).storage = s.storage :=
    (call_moves hstamped hnum hact).storage
  have hlater := Driver.act_later hstamped hact
  have hprev : d.node.prevHardState = s.node.prevHardState := by
    rcases Driver.act_prev hact with ⟨hprev, -, -⟩ | ⟨-, n, rd, hn, rfl⟩ |
      ⟨rd, storage, htaken, -⟩ | ⟨rd, hstored, -⟩
    · exact hprev
    · exact (Driver.ready_hardState hn).1
    · cases htaken
    · cases hstored
  refine ⟨⟨?_, ?_⟩, ?_, ?_⟩
  · rw [walStart, hstorage]
    exact h.backs
  · rw [walStart, hstorage]
    exact h.entries
  · show d.node.prevHardState.ballot = _ ∨ d.node.prevHardState = {} ∧ 0 < d.node.raft.term
    rw [hprev]
    exact h.prev.imp_right fun hfirst =>
      ⟨hfirst.1, lt_of_lt_of_le hfirst.2 hlater.term_le⟩
  · show d.node.prevHardState.Precedes d.node.raft
    rw [hprev]
    exact h.precedes.later hlater

/-! ## A round -/

/-- **What a round has written when it calls `send`.** -/
structure Written (site : Site) (s s₁ : RaftNode) (t₁ : WalReplay) : Prop where
  backs : Wal.Backs site.wal s₁.walStart s₁.wal t₁
  ballot : t₁.hs.ballot = s.node.raft.hardState.ballot
  stored : s₁.storage.stored = s.log.logical
  entries : ∀ e ∈ s.log.logical, s₁.walStart.index < e.index →
    t₁.HoldsAt s₁.walStart.index e.index e
  start : s₁.walStart = s.log.snapshot.position
  marks : Wal.marksOf site.wal s₁.wal.file.content = Wal.marksOf site.wal s.wal.file.content ++
    (s.log.unstable.snapshot.map Snapshot.position).toList

/-- The hard state of a `Ready` is the one of the node, or term and vote are on disk. -/
lemma Persisted.hardState_cases (h : Persisted site s t)
    (hready : s.node.ready = Except.ok (node, rd)) :
    (rd.hardState.isEmptyState = true ∧ t.hs.ballot = s.node.raft.hardState.ballot ∧
      s.node.prevHardState.ballot = t.hs.ballot) ∨
    (rd.hardState.isEmptyState = false ∧ rd.hardState = s.node.raft.hardState) := by
  obtain ⟨-, -, -, hstate⟩ := Driver.ready_hardState hready
  by_cases hsame : s.node.raft.hardState = s.node.prevHardState
  · rw [if_pos hsame] at hstate
    have hempty : rd.hardState.isEmptyState = true := by rw [hstate]; rfl
    rcases h.prev with hprev | ⟨hnone, hpos⟩
    · exact Or.inl ⟨hempty, by rw [hsame, hprev], hprev⟩
    · rw [hnone] at hsame
      have hterm : s.node.raft.term = 0 := congrArg HardState.term hsame
      omega
  · rw [if_neg hsame] at hstate
    cases hempty : rd.hardState.isEmptyState with
    | false => exact Or.inr ⟨rfl, hstate⟩
    | true =>
        have hzero := HardState.ballot_of_isEmptyState (hstate ▸ hempty)
        have hdisk := h.ballot_zero hzero
        refine Or.inl ⟨rfl, by rw [hzero, hdisk], h.prev.resolve_right fun hfirst => ?_⟩
        have hterm : s.node.raft.term = 0 := congrArg Prod.fst hzero
        omega

/-- The hard state and the entries are written, and then term and vote are on disk; the log is read
behind any snapshot. -/
lemma Persisted.save {start : WalSnapshot} {t₀ : WalReplay} (h : Persisted site s t)
    (hbacks : Wal.Backs site.wal start s.wal t₀) (hhs : t₀.hs = t.hs) (hw : s.Writable site)
    (hsound : s.log.Sound) (hready : s.node.ready = Except.ok (node, rd)) :
    ∃ t₁, Wal.Saves site.wal start s.log.unstable.offset rd.hardState rd.entries s.wal t₀
        (s.wal.save site.wal rd.hardState rd.entries) t₁ ∧
      t₁.hs.ballot = s.node.raft.hardState.ballot := by
  obtain ⟨-, hentries, -, -⟩ := Driver.ready_hardState hready
  have hcases := h.hardState_cases hready
  have hfits := hw.saveItems_fit hcases hentries
  have hfirst : rd.hardState.isEmptyState = false → rd.hardState.ballot = (0, 0) →
      t₀.hs.ballot = (0, 0) := by
    intro hsome hzero
    rw [hhs]
    rcases hcases with ⟨hempty, -⟩ | ⟨-, heq⟩
    · rw [hempty] at hsome
      cases hsome
    · exact h.ballot_zero (heq ▸ hzero)
  obtain ⟨t₁, hsaves⟩ := hbacks.save (hentries ▸ hsound.wf.unstable) hfits hfirst
  refine ⟨t₁, hsaves, ?_⟩
  rw [← hsaves.backs.ballot_latest, hsaves.latest]
  rcases hcases with ⟨hempty, hballot, -⟩ | ⟨hsome, heq⟩
  · rw [if_pos hempty, hbacks.ballot_latest, hhs, hballot]
  · rw [if_neg (by simp [hsome]), heq]

/-- **Without a snapshot to install**, every entry of the log is on disk once the new ones are. -/
lemma Persisted.saved_holds {t₁ : WalReplay} {w' : Wal} (h : Persisted site s t) (htied : s.Tied)
    (hentries : rd.entries = s.log.unstable.entries) (hnone : s.log.unstable.snapshot = none)
    (hsaves : Wal.Saves site.wal s.walStart s.log.unstable.offset rd.hardState rd.entries s.wal t
      w' t₁) :
    ∀ e ∈ s.log.logical, s.walStart.index < e.index → t₁.HoldsAt s.walStart.index e.index e := by
  intro e he hlt
  rw [logical_of_snapshot_none hnone, List.mem_append] at he
  rcases he with he | he
  · -- an entry that was stored before, and is not overwritten
    have hmem := List.mem_of_mem_take he
    refine hsaves.kept e.index e ?_ (h.entries e hmem hlt)
    obtain ⟨k, hk⟩ := List.mem_iff_getElem?.mp he
    have hlt' := (List.getElem?_eq_some_iff.mp hk).1
    rw [List.length_take] at hlt'
    have hstable := htied.sound.wf.stable
    rw [storage_entries] at hstable
    have hindex := (hstable.tail.take _) k e hk
    exact Or.inr (by omega)
  · exact hsaves.new e (hentries ▸ he) hlt

/-- **With a snapshot to install**, the log is read behind it: the new entries are written, and then
its mark. -/
lemma Persisted.filed {snap : Snapshot} (h : Persisted site s t) (htied : s.Tied)
    (hw : s.Writable site) (hready : s.node.ready = Except.ok (node, rd))
    (hsome : s.log.unstable.snapshot = some snap) :
    ∃ t' t₁ t₂, Wal.Backs site.wal snap.position s.wal t' ∧
      Wal.Saves site.wal snap.position s.log.unstable.offset rd.hardState rd.entries s.wal t'
        (s.wal.save site.wal rd.hardState rd.entries) t₁ ∧ t'.hs = t.hs ∧
      Wal.Backs site.wal snap.position
        ((s.wal.save site.wal rd.hardState rd.entries).saveSnapshot site.wal snap.position) t₂ ∧
      t₂.hs = (s.wal.save site.wal rd.hardState rd.entries).latest t₁.hs ∧
      t₂.hs.ballot = s.node.raft.hardState.ballot ∧
      (∀ e ∈ s.log.logical, snap.position.index < e.index →
        t₂.HoldsAt snap.position.index e.index e) ∧
      Wal.marksOf site.wal ((s.wal.save site.wal rd.hardState rd.entries).saveSnapshot site.wal
        snap.position).file.content = Wal.marksOf site.wal s.wal.file.content ++ [snap.position] := by
  obtain ⟨-, hentries, -, -⟩ := Driver.ready_hardState hready
  have hlt : s.walStart.index < snap.position.index := htied.idle snap hsome
  obtain ⟨hfits, hagrees⟩ := hw.marks snap.position (pending_mem_nextMarks hsome)
  obtain ⟨t', hbacks', hshadows⟩ := h.backs.shift hlt.le hagrees
  obtain ⟨t₁, hsaves, hballot⟩ := h.save hbacks' hshadows.hs hw htied.sound hready
  obtain ⟨t₂, hbacks₂, hhs, hkept, hmarks⟩ := hsaves.backs.saveSnapshot hfits fun _ => rfl
  refine ⟨t', t₁, t₂, hbacks', hsaves, hshadows.hs, hbacks₂, hhs, ?_, fun e he hgt => ?_, ?_⟩
  · rw [hhs, hsaves.backs.ballot_latest, hballot]
  · rw [logical, hsome] at he
    exact hkept _ _ (hsaves.new e (hentries ▸ he) hgt)
  · rw [hmarks, hsaves.marks]

/-- **Before `send` is called**, what the `Ready` brings is on disk. -/
theorem Persisted.persist (h : Persisted site s t) (htied : s.Tied) (hw : s.Writable site)
    (hready : s.node.ready = Except.ok (node, rd))
    (hpersist : ({ s with node := node } : RaftNode).persist site rd = Except.ok s₁) :
    ∃ t₁, Written site s s₁ t₁ := by
  obtain ⟨hlog, -, -, hentries, hpending, -, hawaits⟩ := htied.takes hready
  obtain ⟨storage, hstore, hnode₁, -, -, hnone₁, hsome₁⟩ := persist_eq_ok hpersist
  have hstore : rd.store s.log.storage = Except.ok storage := by
    rw [← hlog]
    exact hstore
  have hstorage₁ : s₁.storage = storage :=
    congrArg (fun n : RawNode => n.raft.raftLog.storage) hnode₁
  have hstored := stored_logical htied.sound hawaits hpending hentries hstore
  obtain ⟨-, hsnapshot, -, -, -, -⟩ := hawaits.store_eq_ok htied.sound hstore
  rcases hawaits.storageBehind_eq with ⟨hnone, heq⟩ | ⟨snap, hsome, -, -, -, hsnap⟩
  · obtain ⟨-, -, hwal, -⟩ := hnone₁ hnone
    have hstart : s₁.walStart = s.walStart := by
      rw [walStart, hstorage₁, hsnapshot, heq]
      rfl
    have hnone' := hpending.trans hnone
    obtain ⟨t₁, hsaves, hballot⟩ := h.save h.backs rfl hw htied.sound hready
    refine ⟨t₁, ?_, hballot, hstorage₁ ▸ hstored, ?_, ?_, ?_⟩
    · rw [hstart, hwal]
      exact hsaves.backs
    · rw [hstart]
      exact h.saved_holds htied hentries hnone' hsaves
    · rw [hstart, RaftLog.snapshot, hnone']
      rfl
    · rw [hwal, hnone']
      simpa using hsaves.marks
  · obtain ⟨-, -, hwal, -⟩ := hsome₁ snap hsome
    have hsome' := hpending.trans hsome
    have hstart : s₁.walStart = snap.position := by
      rw [walStart, hstorage₁, hsnapshot, hsnap]
    obtain ⟨-, -, t₂, -, -, -, hbacks, -, hballot, hholds, hmarks⟩ :=
      h.filed htied hw hready hsome'
    refine ⟨t₂, ?_, hballot, hstorage₁ ▸ hstored, ?_, ?_, ?_⟩
    · rw [hstart, hwal]
      exact hbacks
    · rw [hstart]
      exact hholds
    · rw [hstart, RaftLog.snapshot, hsome']
      rfl
    · rw [hwal, hsome']
      exact hmarks

/-- What is on disk when `send` is called is all that a restart needs. -/
theorem Written.restores {t₁ : WalReplay} (h : Written site s s₁ t₁) :
    s₁.Restores site s.node.raft := by
  obtain ⟨hterm, hvote⟩ := Prod.mk.inj h.ballot
  refine ⟨h.start, fun snap hsnap => ?_, fun size => ?_⟩
  · have hsnap : s.log.unstable.snapshot = some snap := hsnap
    rw [h.marks, hsnap]
    exact List.mem_append_right _ (List.mem_singleton.mpr rfl)
  · obtain ⟨w, hread⟩ := h.backs.readAll size
    exact ⟨w, t₁.hs, t₁.ents, hread, hterm, hvote, fun e he hlt => (h.entries e he hlt).2⟩

/-- **A local snapshot** leaves on disk what the storage still holds. -/
theorem OnDisk.trigger {data : Bytes} (h : OnDisk site s t) (hsettled : s.Settled rd)
    (hmarks : ∀ e ∈ s.storage.stored, s.snapshotIndex < e.index → e.index ≤ s.appliedIndex →
      (WalItem.snapshot { index := e.index, term := e.term }).Fits site.wal ∧
      ∀ mark ∈ Wal.marksOf site.wal s.wal.file.content,
        WalSnapshot.Agrees { index := e.index, term := e.term } mark)
    (htrigger : s.maybeTriggerSnapshot site data = Except.ok s') :
    ∃ t', OnDisk site s' t' ∧ t'.hs.ballot = t.hs.ballot ∧
      s'.node = s.node.setStorage s'.storage := by
  rw [maybeTriggerSnapshot] at htrigger
  split at htrigger
  · cases htrigger
    exact ⟨t, h, rfl, rfl⟩
  rename_i hdue
  have hlt : s.snapshotIndex < s.appliedIndex := by
    rw [uint64Sub, if_pos hsettled.snapshot_le] at hdue
    omega
  obtain ⟨⟨storage₁, snap, status⟩, hcreate, htrigger⟩ := Outcome.bind_eq_ok.mp htrigger
  dsimp only at htrigger
  split at htrigger
  · cases htrigger
  rename_i hok
  obtain rfl := not_not.mp hok
  obtain ⟨⟨storage₂, status₂⟩, hcompact, htrigger⟩ := Outcome.bind_eq_ok.mp htrigger
  dsimp only at htrigger
  split at htrigger
  · cases htrigger
  cases htrigger
  obtain ⟨hlow, hindex, rfl, e, he, hterm⟩ := MemoryStorage.createSnapshot_eq_ok hcreate
  -- the entry that the snapshot is made at
  have hfront := hsettled.front_le
  have hentry : e ∈ s.storage.stored ∧ e.index = s.appliedIndex := by
    have hposition : s.appliedIndex - s.storage.front.index =
        s.appliedIndex - s.storage.front.index - 1 + 1 := by omega
    refine ⟨?_, ?_⟩
    · rw [MemoryStorage.entries_eq, hposition] at he
      exact List.mem_of_getElem? he
    · have := hsettled.stored _ e he
      omega
  obtain ⟨hmem, heindex⟩ := hentry
  have hmark : snap.position = { index := e.index, term := e.term } := by
    rw [Snapshot.position, hindex, hterm, heindex]
  obtain ⟨hfits, hagrees⟩ := hmarks e hmem (by omega) heindex.le
  -- what the storage still holds
  have hcompacted : storage₂.snapshot = snap ∧ ∀ e ∈ storage₂.stored, e ∈ s.storage.stored := by
    rcases MemoryStorage.compact_cases (s := { s.storage with snapshot := snap }) hsettled.stored
      hcompact with ⟨rfl, -⟩ | ⟨-, -, -, -, -, -, hstored, hsnapshot⟩
    · exact ⟨rfl, fun _ he => he⟩
    · refine ⟨hsnapshot, fun e he => ?_⟩
      rw [hstored] at he
      exact List.mem_of_mem_drop he
  obtain ⟨hsnapshot, hstored⟩ := hcompacted
  have hle : s.walStart.index ≤ snap.position.index := by
    show s.storage.snapshot.metadata.index ≤ snap.metadata.index
    rw [hsettled.snapshot_eq, hindex]
    exact hlt.le
  obtain ⟨t₁, hbacks₁, hshadows⟩ := h.backs.shift hle (by rw [hmark]; exact hagrees)
  obtain ⟨t₂, hbacks₂, hhs, hkept, -⟩ := hbacks₁.saveSnapshot (by rw [hmark]; exact hfits)
    fun _ => rfl
  refine ⟨t₂, ⟨?_, ?_⟩, ?_, rfl⟩
  · show Wal.Backs site.wal storage₂.snapshot.position _ _
    rw [hsnapshot]
    exact hbacks₂
  · show ∀ e ∈ storage₂.stored, storage₂.snapshot.position.index < e.index → _
    intro e he hgt
    rw [hsnapshot] at hgt
    show t₂.HoldsAt storage₂.snapshot.position.index e.index e
    rw [hsnapshot]
    exact hkept _ _ (hshadows.holds _ _ hgt (h.entries e (hstored e he) (by omega)))
  · rw [hhs, hbacks₁.ballot_latest, hshadows.hs]

/-- The mark of a local snapshot is one that the round may write. -/
lemma Writable.localMark {s₀ : RaftNode} {t₁ : WalReplay} (hw : s.Writable site) (htied : s.Tied)
    (hready : s.node.ready = Except.ok (node, rd))
    (hpersist : ({ s with node := node } : RaftNode).persist site rd = Except.ok s₀)
    (hwritten : Written site s s₀ t₁) {e : Entry} (he : e ∈ s.log.logical)
    (hgt : s₀.snapshotIndex < e.index) (hle : e.index ≤ s.log.committed) :
    (WalItem.snapshot { index := e.index, term := e.term }).Fits site.wal ∧
      ∀ mark ∈ Wal.marksOf site.wal s₀.wal.file.content,
        WalSnapshot.Agrees { index := e.index, term := e.term } mark := by
  obtain ⟨storage, -, -, -, -, hnone₀, hsome₀⟩ := persist_eq_ok hpersist
  have hpending := (htied.takes hready).snapshot
  have hbehind : s.snapshotIndex < e.index ∧
      ∀ snap, s.log.unstable.snapshot = some snap → snap.metadata.index < e.index := by
    cases hs : rd.pendingSnapshot with
    | none =>
        rw [(hnone₀ hs).1] at hgt
        refine ⟨hgt, fun snap hsnap => ?_⟩
        rw [hpending, hs] at hsnap
        cases hsnap
    | some snap =>
        rw [(hsome₀ snap hs).1] at hgt
        have hnewer := htied.idle snap (hpending.trans hs)
        have heq : s.log.storage.snapshot.metadata.index = s.snapshotIndex := htied.snapshot_eq
        refine ⟨by omega, fun snap' hsnap => ?_⟩
        rw [hpending, hs] at hsnap
        obtain rfl := Option.some.inj hsnap
        exact hgt
  obtain ⟨hfits, hagrees⟩ := hw.marks _ (entry_mem_nextMarks he hbehind.1 hle)
  refine ⟨hfits, fun mark hmark => ?_⟩
  rw [hwritten.marks, List.mem_append] at hmark
  rcases hmark with hmark | hmark
  · exact hagrees mark hmark
  · rw [Option.mem_toList, Option.map_eq_some_iff] at hmark
    obtain ⟨snap, hsnap, rfl⟩ := hmark
    intro hsame
    have := hbehind.2 snap hsnap
    exact absurd hsame (by show snap.metadata.index ≠ e.index; omega)

/-- What a round leaves on disk before the local snapshot, and what publishing does to the node. -/
lemma Persisted.settle (h : Persisted site s t) (htied : s.Tied) (hw : s.Writable site)
    (hready : s.node.ready = Except.ok (node, rd))
    (hsettle : ({ s with node := node } : RaftNode).settle site rd = Except.ok s₁) :
    ∃ t₁, OnDisk site s₁ t₁ ∧ t₁.hs.ballot = s.node.raft.hardState.ballot ∧
      (∀ e ∈ s₁.storage.stored, s₁.snapshotIndex < e.index → e.index ≤ s₁.appliedIndex →
        (WalItem.snapshot { index := e.index, term := e.term }).Fits site.wal ∧
        ∀ mark ∈ Wal.marksOf site.wal s₁.wal.file.content,
          WalSnapshot.Agrees { index := e.index, term := e.term } mark) ∧
      s₁.node.prevHardState = s.node.prevHardState ∧ Raft.Later s.node.raft s₁.node.raft := by
  obtain ⟨-, -, happlied⟩ := settle_eq_ok htied hready hsettle
  rw [settle_eq] at hsettle
  obtain ⟨s₀, hpersist, hpublish⟩ := Outcome.bind_eq_ok.mp hsettle
  obtain ⟨storage, -, hnode₀, -, -, -, -⟩ := persist_eq_ok hpersist
  obtain ⟨t₁, hwritten⟩ := h.persist htied hw hready hpersist
  obtain ⟨es, hes, -, hnum, -⟩ := htied.sound.nextEntries
  obtain rfl : es = rd.committedEntries :=
    Except.ok.inj (hes.symm.trans (htied.takes hready).committed)
  obtain ⟨calls, hcalls⟩ := sendMessages_frame s₀ rd.messages
  rw [hcalls] at hpublish
  obtain ⟨hpub, -, -⟩ := publishCommitted_publishes hnum hpublish
  have hstorage₁ : s₁.storage = s₀.storage := by
    show s₁.log.storage = s₀.log.storage
    rw [hpub.log.frame.1]
    rfl
  have hwal₁ : s₁.wal = s₀.wal := hpub.wal
  have hindex₁ : s₁.snapshotIndex = s₀.snapshotIndex := hpub.snapshotIndex
  have hprev₁ : s₁.node.prevHardState = s₀.node.prevHardState := hpub.prev
  have hstart₁ : s₁.walStart = s₀.walStart := by rw [walStart, hstorage₁]; rfl
  refine ⟨t₁, ⟨?_, ?_⟩, hwritten.ballot, ?_, ?_, ?_⟩
  · rw [hstart₁, hwal₁]
    exact hwritten.backs
  · rw [hstart₁, hstorage₁, hwritten.stored]
    exact hwritten.entries
  · intro e he hgt hle
    rw [hstorage₁, hwritten.stored] at he
    rw [hindex₁] at hgt
    rw [hwal₁]
    exact hw.localMark htied hready hpersist hwritten he hgt (hle.trans happlied)
  · rw [hprev₁, hnode₀]
    exact (Driver.ready_hardState hready).1
  · obtain ⟨-, -, -, -, hn⟩ := RawNode.ready_eq_ok hready
    refine Raft.Later.trans ?_ hpub.later
    show Raft.Later s.node.raft s₀.node.raft
    rw [hnode₀]
    show Raft.Later s.node.raft { node.raft with raftLog := _ }
    rw [hn]
    exact ⟨Nat.le_refl _, fun _ _ => rfl, Nat.le_refl _⟩

/-- **A whole round** leaves on disk what the next one relies on. -/
theorem Persisted.round {data : Bytes} {s₂ : RaftNode} (h : Persisted site s t) (htied : s.Tied)
    (hw : s.Writable site) (hready : s.node.ready = Except.ok (node, rd))
    (hsettle : ({ s with node := node } : RaftNode).settle site rd = Except.ok s₁)
    (htrigger : s₁.maybeTriggerSnapshot site data = Except.ok s₂) :
    ∃ t', Persisted site (s₂.advance rd) t' := by
  obtain ⟨hsettled, -, -⟩ := settle_eq_ok htied hready hsettle
  obtain ⟨t₁, hdisk₁, hballot₁, hmarks₁, hprev₁, hlater⟩ := h.settle htied hw hready hsettle
  obtain ⟨t₂, hdisk₂, hballot₂, hnode₂⟩ := hdisk₁.trigger hsettled hmarks₁ htrigger
  have hstorage₂ : (s₂.advance rd).storage = s₂.storage := advance_storage s₂ rd
  have hprev : (s₂.advance rd).node.prevHardState =
      if rd.hardState.isEmptyState then s.node.prevHardState else rd.hardState := by
    rw [← hprev₁]
    show (if rd.hardState.isEmptyState then s₂.node.prevHardState else rd.hardState) = _
    rw [hnode₂]
    rfl
  have hterm : (s₂.advance rd).node.raft.term = s₁.node.raft.term := by
    show s₂.node.raft.term = _
    rw [hnode₂]
    rfl
  have hvote : (s₂.advance rd).node.raft.vote = s₁.node.raft.vote := by
    show s₂.node.raft.vote = _
    rw [hnode₂]
    rfl
  have hprecedes : ∀ {hs : HardState}, hs.Precedes s.node.raft →
      hs.Precedes (s₂.advance rd).node.raft := by
    intro hs hbefore
    have hafter := hbefore.later hlater
    refine ⟨?_, ?_⟩
    · rw [hterm]
      exact hafter.term_le
    · rw [hterm, hvote]
      exact hafter.vote_eq
  have hballot := hballot₂.trans hballot₁
  refine ⟨t₂, ⟨?_, ?_⟩, ?_, ?_⟩
  · rw [walStart, hstorage₂]
    exact hdisk₂.backs
  · rw [walStart, hstorage₂]
    exact hdisk₂.entries
  · rw [hprev, hballot]
    rcases h.hardState_cases hready with ⟨hempty, hsame, hprev'⟩ | ⟨hsome, heq⟩
    · rw [if_pos hempty, hprev', hsame]
      exact Or.inl rfl
    · rw [if_neg (by simp [hsome]), heq]
      exact Or.inl rfl
  · rw [hprev]
    rcases h.hardState_cases hready with ⟨hempty, -, -⟩ | ⟨hsome, heq⟩
    · rw [if_pos hempty]
      exact hprecedes h.precedes
    · rw [if_neg (by simp [hsome]), heq]
      exact hprecedes ⟨Nat.le_refl _, fun _ _ => rfl⟩

/-! ## The start -/

/-- The snapshot that was loaded says where the log is read from. -/
lemma loadedStorage_position {loaded : Option Snapshot}
    (h : ∀ snap ∈ loaded, snap.isEmpty = false) :
    (loadedStorage loaded).snapshot.position = (loaded.getD {}).position := by
  cases loaded with
  | none => rfl
  | some snap =>
      have hne := h snap rfl
      rw [Snapshot.isEmpty, beq_eq_false_iff_ne] at hne
      rw [loadedStorage, MemoryStorage.applySnapshot, if_neg]
      · rfl
      · show ¬ (0 ≥ snap.metadata.index)
        omega

/-- **A process that has just been started** has on disk what it starts from. -/
theorem Persisted.boot (hdisk : Legible site disk) (h : boot site disk fileSize = Except.ok s) :
    ∃ t, Persisted site s t := by
  obtain ⟨storage, wal, snapDir, last, node, hreplay, hstart, rfl⟩ := boot_eq_ok h
  obtain ⟨hnum, hfront, hsnapshot, hread⟩ := replayWal_eq_ok hreplay
  have hstorage := started_storage hreplay hstart
  obtain ⟨t, hbacks, hhs, hents⟩ := Wal.backs_of_readAll hread hdisk.wal
  let s : RaftNode := (schedule
    { id := site.id, lastIndex := last, node := node, snapCount := site.snapCount
      snapDir := snapDir, wal := wal }).1
  have hposition : s.walStart = ((disk.snapDir.load site.snap).2.getD {}).position := by
    show node.raft.raftLog.storage.snapshot.position = _
    rw [hstorage, hsnapshot, loadedStorage_position hdisk.snap]
  have hstored : s.storage.stored = storage.stored := by
    show node.raft.raftLog.storage.stored = _
    rw [hstorage]
  refine ⟨t, ⟨?_, ?_⟩, ?_, ?_⟩
  · show Wal.Backs site.wal s.walStart wal t
    rw [hposition]
    exact hbacks
  · show ∀ e ∈ s.storage.stored, s.walStart.index < e.index → t.HoldsAt s.walStart.index e.index e
    have hindex : s.walStart.index = storage.front.index := by
      rw [hfront, hsnapshot]
      show node.raft.raftLog.storage.snapshot.metadata.index = _
      rw [hstorage, hsnapshot]
    rw [hstored, hindex]
    intro e he hlt
    refine ⟨hlt, ?_⟩
    obtain ⟨k, hk⟩ := List.mem_iff_getElem?.mp he
    rw [MemoryStorage.entries_eq] at hnum
    have he := hnum.tail k e hk
    have hposition : e.index - (storage.front.index + 1) = k := by omega
    rw [hents, hposition, List.getElem?_map, hk]
    rfl
  · show node.prevHardState.ballot = t.hs.ballot ∨ node.prevHardState = {} ∧ 0 < node.raft.term
    rcases start_prev hstart with ⟨hnone, hterm⟩ | ⟨hsame, hterm, hvote⟩
    · exact Or.inr ⟨hnone, by omega⟩
    · rw [(validate_storage _).1] at hterm hvote
      refine Or.inl ?_
      rw [hhs, hsame, HardState.ballot, HardState.ballot, ← show _ = storage.hardState.term from hterm,
        ← show _ = storage.hardState.vote from hvote]
      rfl
  · show node.prevHardState.Precedes s.node.raft
    rcases start_prev hstart with ⟨hnone, -⟩ | ⟨hsame, -⟩
    · rw [hnone]
      exact ⟨Nat.zero_le _, fun _ hvote => absurd rfl hvote⟩
    · rw [hsame]
      exact ⟨Nat.le_refl _, fun _ _ => rfl⟩

/-! ## Runs -/

/-- **Every action leaves on disk what the process relies on.** -/
theorem Persisted.act (hkept : site.snapshotCatchUpEntriesN ≤ site.snapCount)
    (h : (s.Tied ∧ s.snapCount = site.snapCount) ∧ ∃ t, Persisted site s t) (ha : s.Proper a)
    (hw : s.Durably site a) (hact : s.act site a = Except.ok s') :
    (s'.Tied ∧ s'.snapCount = site.snapCount) ∧ ∃ t, Persisted site s' t := by
  obtain ⟨htied, t, hdisk⟩ := h
  refine ⟨Tied.act hkept htied ha hact, ?_⟩
  cases a with
  | call c =>
      obtain ⟨d, hd, hact⟩ := Outcome.bind_eq_ok.mp hact
      cases hact
      exact ⟨t, hdisk.call ha.1 ha.2.1 hd⟩
  | handleReady data =>
      rcases handleReady_cases hact with ⟨-, rfl⟩ | ⟨-, node, rd, hready, -, rfl⟩ |
        ⟨-, node, rd, s₁, s₂, hready, -, hsettle, htrigger, rfl⟩
      · exact ⟨t, hdisk⟩
      · have hstorage : ({ s with node := node } : RaftNode).storage = s.storage :=
          congrArg RaftLog.storage (htied.1.takes hready).log
        obtain ⟨-, -, -, -, hn⟩ := RawNode.ready_eq_ok hready
        have hprev : node.prevHardState = s.node.prevHardState :=
          (Driver.ready_hardState hready).1
        have hterm : node.raft.term = s.node.raft.term := by rw [hn]; rfl
        have hvote : node.raft.vote = s.node.raft.vote := by rw [hn]; rfl
        refine ⟨t, ⟨?_, ?_⟩, ?_, ?_⟩
        · rw [walStart, hstorage]
          exact hdisk.backs
        · rw [walStart, hstorage]
          exact hdisk.entries
        · show node.prevHardState.ballot = _ ∨ node.prevHardState = {} ∧ 0 < node.raft.term
          rw [hprev, hterm]
          exact hdisk.prev
        · show node.prevHardState.Precedes node.raft
          rw [hprev]
          refine ⟨?_, ?_⟩
          · rw [hterm]
            exact hdisk.precedes.term_le
          · rw [hterm, hvote]
            exact hdisk.precedes.vote_eq
      · exact hdisk.round htied.1 hw hready hsettle htrigger
  | restart disk fileSize => exact Persisted.boot hw hact

/-- **Nothing is sent before it is on disk.**  In every run of a process that is started from disks
that can be read, and whose rounds write only what can be read back: whenever a round calls `send`,
a restart would read the term and the vote that the node had when its `Ready` was taken, and behind
the snapshot every entry of its log; and the mark of a snapshot that is being installed is in the
log. -/
theorem persists_before_send (hkept : site.snapshotCatchUpEntriesN ≤ site.snapCount)
    {s₀ : RaftNode} (hdisk : Legible site disk) (hboot : boot site disk fileSize = Except.ok s₀)
    (hrun : RunOf (act site) (fun s a => s.Proper a ∧ s.Durably site a) s₀ s)
    (hw : s.Writable site) (hready : s.node.ready = Except.ok (node, rd))
    (hsend : ({ s with node := node } : RaftNode).persist site rd = Except.ok s₁) :
    s₁.Restores site s.node.raft := by
  obtain ⟨⟨htied, -⟩, t, hpersisted⟩ := hrun.invariant
    (I := fun s => (s.Tied ∧ s.snapCount = site.snapCount) ∧ ∃ t, Persisted site s t)
    (fun s a s' hs ha hact => Persisted.act hkept hs ha.1 ha.2 hact)
    ⟨boot_tied hboot, Persisted.boot hdisk hboot⟩
  obtain ⟨t₁, hwritten⟩ := hpersisted.persist htied hw hready hsend
  exact hwritten.restores

/-- The second node of three. -/
def followerSite : Site where
  id := 2
  peers := 3
  wal := WalFormat.msgpack
  snap := SnapFormat.msgpack
  confChange := ThreeNodes.codec

/-- The first node, as leader of the first term, sends an entry behind those of the new cluster. -/
def fourthEntry (data : Bytes) : Message :=
  { type := MessageType.msgApp
    fromId := 1
    toId := 2
    term := 1
    index := 3
    logTerm := 1
    commit := 3
    entries := [{ term := 1, index := 4, data := data }] }

/-- The follower answers when it has stored the entry. -/
theorem persists_before_send_follower : ∃ (s s₁ : RaftNode) (node : RawNode) (rd : Ready),
    s.node.ready = Except.ok (node, rd) ∧ rd.messages ≠ [] ∧
    ({ s with node := node } : RaftNode).persist followerSite rd = Except.ok s₁ ∧
    s₁.Restores followerSite s.node.raft := by
  let acts : List RaftNode.Action :=
    [Action.handleReady [], Action.call (Call.step (fourthEntry [7]))]
  have hreached : ((boot followerSite {} 0).toOption.any fun s₀ =>
      (acts.foldlM (RunOf.exec (act followerSite)
          fun s a => s.Proper a ∧ s.Durably followerSite a) s₀).toOption.any fun s =>
        s.node.ready.toOption.any fun p =>
          (({ s with node := p.1 } : RaftNode).persist followerSite p.2).toOption.any fun _ =>
            decide (p.2.messages ≠ []) && decide (s.Writable followerSite)) = true := by
    decide +kernel
  obtain ⟨s₀, hs₀, hreached⟩ := (Option.any_eq_true ..).mp hreached
  obtain ⟨s, hs, hreached⟩ := (Option.any_eq_true ..).mp hreached
  obtain ⟨p, hready, hreached⟩ := (Option.any_eq_true ..).mp hreached
  obtain ⟨s₁, hs₁, hreached⟩ := (Option.any_eq_true ..).mp hreached
  obtain ⟨hmessages, hw⟩ := Bool.and_eq_true_iff.mp hreached
  refine ⟨s, s₁, p.1, p.2, Outcome.eq_ok_of_toOption hready, of_decide_eq_true hmessages,
    Outcome.eq_ok_of_toOption hs₁, ?_⟩
  have hdisk : Legible followerSite {} := by decide +kernel
  exact persists_before_send (by decide) hdisk (Outcome.eq_ok_of_toOption hs₀)
    (RunOf.of_exec (Outcome.eq_ok_of_toOption hs)) (of_decide_eq_true hw)
    (Outcome.eq_ok_of_toOption hready) (Outcome.eq_ok_of_toOption hs₁)

/-! ## An entry that does not fit -/

/-- What a follower holds of an append request with one entry, if all was stored before. -/
lemma step_oneEntry {r r' : Raft} {m : Message} {e : Entry} {status : Status}
    (ht : m.type = MessageType.msgApp) (hs : r.state = RaftState.follower)
    (hpos : m.term ≠ 0) (hterm : m.term = r.term) (hes : m.entries = [e])
    (hindex : e.index = m.index + 1) (hstored : r.raftLog.unstable.entries = [])
    (h : r.step m = Except.ok (r', status)) :
    r'.raftLog.unstable.entries = [] ∨ r'.raftLog.unstable.entries = [e] := by
  obtain ⟨⟨r₁, goOn⟩, hcheck, h⟩ := Outcome.bind_eq_ok.mp h
  rw [Raft.checkTerm, if_neg hpos, if_neg (by omega), if_neg (by omega)] at hcheck
  cases hcheck
  rw [ht] at h
  dsimp only at h
  rw [if_neg (by simp), Raft.stepRole, hs] at h
  dsimp only at h
  rw [Raft.stepFollower, ht] at h
  obtain ⟨r₂, hhandle, h⟩ := Outcome.bind_eq_ok.mp h
  cases h
  have hsend : ∀ {r₁ : Raft} {y : Message}, r₁.send y = Except.ok r' →
      r'.raftLog = r₁.raftLog := by
    intro r₁ y hsend
    rw [(Raft.send_eq_ok hsend).1]
  rw [Raft.handleAppendEntries] at hhandle
  split at hhandle
  · rw [hsend hhandle]
    exact Or.inl hstored
  obtain ⟨⟨l, res⟩, happend, hhandle⟩ := Outcome.bind_eq_ok.mp hhandle
  have hlog : r'.raftLog = l := by
    dsimp only at hhandle
    split at hhandle
    · exact hsend hhandle
    · exact hsend hhandle
  rw [hlog]
  have hnum : Numbered (m.index + 1) m.entries := by
    rw [hes]
    exact Numbered.cons hindex (Numbered.nil _)
  rcases maybeAppend_cases hnum happend with ⟨-, rfl, -⟩ | ⟨-, -, l₁, hcommit, hnew⟩
  · exact Or.inl hstored
  have hunstable : l.unstable = l₁.unstable := by rw [(commitTo_eq_ok hcommit).1]
  rw [hunstable]
  rcases hnew with ⟨rfl, -⟩ | ⟨pre, x, post, last, hsplit, -, -, -, hadd⟩
  · exact Or.inl hstored
  · obtain ⟨rfl, hx⟩ : pre = [] ∧ x :: post = [e] := by
      rw [hes] at hsplit
      cases pre with
      | nil => exact ⟨rfl, hsplit.symm⟩
      | cons y pre =>
          have hlen := congrArg List.length hsplit
          simp at hlen
    obtain ⟨-, -, -, hentries⟩ := truncateAndAppend_eq_ok (append_unstable hadd).1
    have hstored : r.raftLog.unstable.entries = [] := hstored
    rw [hentries, hx]
    show r.raftLog.unstable.entries.take _ ++ _ = [] ∨ r.raftLog.unstable.entries.take _ ++ _ = [e]
    rw [hstored, List.take_nil, List.nil_append]
    exact Or.inr rfl

/-- The first new entry does not fit into a record: **it is not read back**. -/
theorem not_restores_of_big {e : Entry} {es : List Entry} (htied : s.Tied)
    (hentries : s.log.unstable.entries = e :: es) (hnone : s.log.unstable.snapshot = none)
    (hbuffer : s.wal.file.dataBuffer = [])
    (hclean : (site.wal.scan s.wal.file.content).stop = none)
    (hfold : (site.wal.scan s.wal.file.content).records.foldlM
      (WalReplay.handleRecord site.wal s.walStart) {} = Except.ok t)
    (hshort : s.walStart.index + t.ents.length < e.index) (hcut : site.wal.entry.RefusesCut e)
    (hbig : maxWalRecordLen < (site.wal.entry.pack e).length)
    (hready : s.node.ready = Except.ok (node, rd))
    (hpersist : ({ s with node := node } : RaftNode).persist site rd = Except.ok s₁) :
    ¬ s₁.Restores site s.node.raft := by
  rintro ⟨hstart, -, hrestores⟩
  obtain ⟨-, -, -, hrd, hpending, -, -⟩ := htied.takes hready
  obtain ⟨-, -, -, -, -, hnone₁, -⟩ := persist_eq_ok hpersist
  obtain ⟨-, -, hwal, -⟩ := hnone₁ (hpending.symm.trans hnone)
  have hstart : s₁.walStart = s.walStart := by
    rw [hstart, RaftLog.snapshot]
    show (s.log.unstable.snapshot.getD s.log.storage.snapshot).position = _
    rw [hnone]
    rfl
  -- what is in the file
  have hcontent : ∃ rest : List WalRecord, s₁.wal.file.content = s.wal.file.content ++
      ([] ++ (WalItem.entry e).record site.wal :: rest).flatMap site.wal.frame := by
    rw [hwal]
    rcases Wal.save_cases site.wal s.wal rd.hardState rd.entries with ⟨-, hnil, -⟩ |
      ⟨hsaved, -, -⟩ | ⟨hnil, -⟩
    · rw [hrd, hentries] at hnil
      cases hnil
    · refine ⟨(es.map WalItem.entry ++ if rd.hardState.isEmptyState then []
        else [WalItem.state rd.hardState]).map (WalItem.record site.wal), ?_⟩
      show (s.wal.save site.wal rd.hardState rd.entries).file.content = _
      rw [hsaved, WalFile.bytes, hbuffer, List.append_nil, Wal.saveItems, hrd, hentries]
      rfl
    · rw [hrd, hentries] at hnil
      cases hnil
  obtain ⟨rest, hcontent⟩ := hcontent
  obtain ⟨tail, htail, hcase⟩ := @Wal.scan_frames_of_lt _ _ hclean [] _
    (fun _ hr => absurd hr List.not_mem_nil) (fun _ hr => absurd hr List.not_mem_nil)
    (WalItem.type_record site.wal (WalItem.entry e)) hbig rest
  rw [← hcontent, List.append_nil] at htail
  -- what is read from it
  obtain ⟨w, hs, ents, hread, -, -, hents⟩ := hrestores 0
  obtain ⟨t', hfold', -, -, -, rfl⟩ := Wal.readAll_eq_ok.mp hread
  rw [Wal.openAt] at hfold'
  dsimp only at hfold'
  rw [htail, List.foldlM_append, hstart] at hfold'
  obtain ⟨t₀, ht₀, hfold'⟩ := Outcome.bind_eq_ok.mp hfold'
  obtain rfl := Except.ok.inj (hfold.symm.trans ht₀)
  rcases hcase with rfl | ⟨k, hk, tail', rfl⟩
  · -- the reader has stopped
    cases hfold'
    have hmem : e ∈ s.node.raft.raftLog.logical := by
      show e ∈ s.log.logical
      rw [logical_of_snapshot_none hnone, hentries]
      exact List.mem_append_right _ (List.mem_cons_self ..)
    have hheld := hents e hmem (by rw [hstart]; omega)
    have hlt := (List.getElem?_eq_some_iff.mp hheld).1
    rw [hstart] at hlt
    omega
  · -- the reader has taken a part of the entry
    obtain ⟨crash, hcrash⟩ := Codec.unpackOrThrow_take hcut hk
    rw [List.foldlM_cons] at hfold'
    obtain ⟨t₂, ht₂, -⟩ := Outcome.bind_eq_ok.mp hfold'
    cases (Wal.handleRecord_of_error hcrash _).symm.trans ht₂

/-- An entry with 16 MiB of data. -/
def bigEntry : Entry := { term := 1, index := 4, data := List.replicate (2 ^ 24) 0 }

/-- What is left to say of the follower that was sent an entry: it holds it unstable. -/
lemma call_oneEntry {data : Bytes} (hs : s.node.raft.state = RaftState.follower)
    (hterm : s.node.raft.term = 1) (hstored : s.log.unstable.entries = [])
    (hact : s.act site (Action.call (Call.step (fourthEntry data))) = Except.ok s') :
    s'.log.unstable.entries = [] ∨
      s'.log.unstable.entries = [{ term := 1, index := 4, data := data }] := by
  obtain ⟨d, hd, hact⟩ := Outcome.bind_eq_ok.mp hact
  cases hact
  rw [Driver.act] at hd
  obtain ⟨n, status, hn, rfl⟩ := Driver.onNodeWith_eq_ok hd
  have hlocal : (fourthEntry data).isLocalMsg = false := rfl
  have hresponse : (fourthEntry data).isResponseMsg = false := rfl
  rw [RawNode.step, hlocal, hresponse, if_neg (by simp), if_pos (by simp)] at hn
  obtain ⟨⟨r, status'⟩, hstep, hn⟩ := Outcome.bind_eq_ok.mp hn
  cases hn
  exact step_oneEntry rfl hs Nat.one_ne_zero hterm.symm rfl rfl hstored hstep

/-- **A lost entry.**  The follower acknowledges an entry of 16 MiB, and a restart does not find
it. -/
theorem lost_entry : ∃ (s₀ s s₁ : RaftNode) (node : RawNode) (rd : Ready),
    boot followerSite {} 0 = Except.ok s₀ ∧ RunOf (act followerSite) Proper s₀ s ∧
    s.node.ready = Except.ok (node, rd) ∧ rd.messages ≠ [] ∧
    ({ s with node := node } : RaftNode).persist followerSite rd = Except.ok s₁ ∧
    ¬ s₁.Restores followerSite s.node.raft := by
  let call : RaftNode.Action := Action.call (Call.step (fourthEntry bigEntry.data))
  have hreached : ((boot followerSite {} 0).toOption.any fun s₀ =>
      (s₀.act followerSite (Action.handleReady [])).toOption.any fun s₂ =>
        decide (s₂.node.raft.state = RaftState.follower ∧ s₂.node.raft.term = 1 ∧
          s₂.log.unstable.entries = []) &&
        (s₂.act followerSite call).toOption.any fun s =>
          decide (s.log.unstable.entries ≠ [] ∧ s.log.unstable.snapshot = none ∧
            s.wal.file.dataBuffer = [] ∧
            (followerSite.wal.scan s.wal.file.content).stop = none) &&
          (((followerSite.wal.scan s.wal.file.content).records.foldlM
            (WalReplay.handleRecord followerSite.wal s.walStart) {}).toOption.any fun t =>
              decide (s.walStart.index + t.ents.length < 4)) &&
          s.node.ready.toOption.any fun p => decide (p.2.messages ≠ []) &&
            (({ s with node := p.1 } : RaftNode).persist followerSite p.2).toOption.any fun _ =>
              true) = true := by
    decide +kernel
  obtain ⟨s₀, hboot, hreached⟩ := (Option.any_eq_true ..).mp hreached
  obtain ⟨s₂, hround, hreached⟩ := (Option.any_eq_true ..).mp hreached
  obtain ⟨hfollower, hreached⟩ := Bool.and_eq_true_iff.mp hreached
  obtain ⟨hstate, hterm, hstored⟩ := of_decide_eq_true hfollower
  obtain ⟨s, hcall, hreached⟩ := (Option.any_eq_true ..).mp hreached
  obtain ⟨hfacts, hreached⟩ := Bool.and_eq_true_iff.mp hreached
  obtain ⟨hfile, hread⟩ := Bool.and_eq_true_iff.mp hfacts
  obtain ⟨hnew, hnone, hbuffer, hclean⟩ := of_decide_eq_true hfile
  obtain ⟨t, hfold, hshort⟩ := (Option.any_eq_true ..).mp hread
  obtain ⟨p, hready, hreached⟩ := (Option.any_eq_true ..).mp hreached
  obtain ⟨hmessages, hreached⟩ := Bool.and_eq_true_iff.mp hreached
  obtain ⟨s₁, hpersist, -⟩ := (Option.any_eq_true ..).mp hreached
  have hboot := Outcome.eq_ok_of_toOption hboot
  have hproper : s₂.Proper call :=
    ⟨Or.inl Nat.one_ne_zero, fun _ => Numbered.cons rfl (Numbered.nil _), fun h => (by cases h)⟩
  have hrun : RunOf (act followerSite) Proper s₀ s :=
    ((RunOf.refl s₀).step (Action.handleReady []) trivial (Outcome.eq_ok_of_toOption hround)).step
      call hproper (Outcome.eq_ok_of_toOption hcall)
  have hreaches : Reaches followerSite _ _ s := ⟨s₀, hboot, hrun⟩
  obtain ⟨htied, -⟩ := hreaches.tied (by decide)
  have hentries : s.log.unstable.entries = [bigEntry] :=
    (call_oneEntry hstate hterm hstored (Outcome.eq_ok_of_toOption hcall)).resolve_left hnew
  have hfits : entryFormat.Fits bigEntry := by
    refine entryFormat_fits rfl (by decide) (by decide) ?_
    rw [bigEntry, List.length_replicate]
    decide
  have hbig : maxWalRecordLen < (followerSite.wal.entry.pack bigEntry).length := by
    have hlen := length_le_packedEntry bigEntry
    rw [bigEntry, List.length_replicate] at hlen
    exact lt_of_lt_of_le (by decide) hlen
  have hready := Outcome.eq_ok_of_toOption hready
  have hpersist := Outcome.eq_ok_of_toOption hpersist
  refine ⟨s₀, s, s₁, p.1, p.2, hboot, hrun, hready, of_decide_eq_true hmessages, hpersist, ?_⟩
  exact not_restores_of_big htied hentries hnone hbuffer hclean (Outcome.eq_ok_of_toOption hfold)
    (of_decide_eq_true hshort) (Codec.refusesCut_ofFormat entryFormat_stable hfits) hbig hready
    hpersist

end RaftNode

end RaftKv
