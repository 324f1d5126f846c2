import RaftKv.Server.CrashWindow

/-!
# Crashes and starts

What a process can restore that ends at a crash point, after any number of crashes and starts.

* `RaftNode.standing_act` — **every action keeps the disk recoverable**.
* `RaftNode.recovers` — **the start restores what was written**, in every run, and it returns but for
  the two points at which a received snapshot is not yet filed.
* `RaftNode.installing_iff` — at these two, when the start returns, and how it ends if it does not.
-/

namespace RaftKv

open Outcome RaftLog

namespace RaftNode

variable {site : Site} {data : Bytes} {s s' s₁ s₂ : RaftNode} {rd : Ready} {node : RawNode}
  {loaded : Option Snapshot} {t : WalReplay} {snap : Snapshot} {fileSize : Nat}

/-! ## What every action keeps -/

/-- What is read behind the newest snapshot is what the node relies on. -/
lemma standing_of_persisted (hpersisted : ∃ t', Persisted site s t')
    (hrecoverable : Recoverable site s.disk loaded t)
    (hposition : (loaded.getD {}).position = s.walStart)
    (hlatest : s.node.prevHardState = s.wal.latest t.hs ∨ s.node.prevHardState = {})
    (hpositive : 0 < s.log.committed) : Standing site s loaded t := by
  obtain ⟨t', hpersisted⟩ := hpersisted
  have hbacks := hrecoverable.backs
  rw [hposition] at hbacks
  obtain rfl : t' = t := hbacks.unique hpersisted.backs rfl
  exact ⟨hpersisted, hrecoverable, hposition, hlatest, hpositive⟩

/-- A call writes nothing. -/
lemma standing_call {c : Call} {d : Driver} (h : Standing site s loaded t) (hstamped : c.Stamped)
    (hnum : c.Numbered)
    (hact : Driver.act site.confChange.pack { node := s.node } c = Except.ok d) :
    Standing site ({ s with node := d.node } : RaftNode) loaded t := by
  have hmoves := call_moves hstamped hnum hact
  have hstorage : ({ s with node := d.node } : RaftNode).storage = s.storage := hmoves.storage
  have hprev : d.node.prevHardState = s.node.prevHardState := by
    rcases Driver.act_prev hact with ⟨hprev, -, -⟩ | ⟨-, n, rd, hn, rfl⟩ |
      ⟨rd, storage, htaken, -⟩ | ⟨rd, hstored, -⟩
    · exact hprev
    · exact (Driver.ready_hardState hn).1
    · cases htaken
    · cases hstored
  refine ⟨h.toPersisted.call hstamped hnum hact, h.recoverable, ?_, ?_, ?_⟩
  · rw [walStart, hstorage]
    exact h.position
  · show d.node.prevHardState = _ ∨ d.node.prevHardState = {}
    rw [hprev]
    exact h.latest
  · exact lt_of_lt_of_le h.positive hmoves.committed_le

/-- A local snapshot changes neither the hard state of the last `Ready` nor the commit index. -/
lemma trigger_node (h : s₁.maybeTriggerSnapshot site data = Except.ok s₂) :
    s₂.node.prevHardState = s₁.node.prevHardState ∧ s₂.log.committed = s₁.log.committed := by
  rcases trigger_cases h with ⟨-, rfl⟩ | ⟨snap, storage, -, -, rfl⟩
  · exact ⟨rfl, rfl⟩
  · exact ⟨rfl, rfl⟩

lemma advance_committed (s : RaftNode) (rd : Ready) :
    (s.advance rd).log.committed = s.log.committed := by
  show (RawNode.advanceLog s.log rd).committed = _
  rw [Ready.advanceLog_eq]

/-- Behind `advance`, the hard state of the last `Ready` is that of the node when it was taken. -/
lemma advance_prev (h : Standing site s loaded t) (hready : s.node.ready = Except.ok (node, rd))
    (hprev : s₂.node.prevHardState = s.node.prevHardState) :
    (s₂.advance rd).node.prevHardState = s.node.raft.hardState := by
  obtain ⟨-, -, -, hstate⟩ := Driver.ready_hardState hready
  show (if rd.hardState.isEmptyState then s₂.node.prevHardState else rd.hardState) = _
  by_cases hsame : s.node.raft.hardState = s.node.prevHardState
  · rw [if_pos hsame] at hstate
    rw [hstate, if_pos (show ({} : HardState).isEmptyState = true from rfl), hprev, hsame]
  · rw [if_neg hsame] at hstate
    rw [hstate, hardState_nonempty h]
    rfl

/-- **A whole round** leaves a disk that can be recovered from. -/
theorem standing_round (h : Standing site s loaded t) (htied : s.Tied) (hw : s.Recorded site data)
    (hready : s.node.ready = Except.ok (node, rd)) (hhas : s.node.hasReady = true)
    (hupdates : rd.containsUpdates = true)
    (hsettle : ({ s with node := node } : RaftNode).settle site rd = Except.ok s₁)
    (htrigger : s₁.maybeTriggerSnapshot site data = Except.ok s₂) :
    ∃ loaded' t', Standing site (s₂.advance rd) loaded' t' := by
  obtain ⟨hsettled, -, -⟩ := settle_eq_ok htied hready hsettle
  obtain ⟨-, -, -, -, hprev₁, hlater⟩ := h.toPersisted.settle htied hw.toWritable hready hsettle
  have hpersisted := h.toPersisted.round htied hw.toWritable hready hsettle htrigger
  obtain ⟨hprev₂, hcommitted₂⟩ := trigger_node htrigger
  have hprev := advance_prev h hready (hprev₂.trans hprev₁)
  have hpositive : 0 < (s₂.advance rd).log.committed := by
    rw [advance_committed, hcommitted₂]
    exact lt_of_lt_of_le h.positive hlater.committed_le
  have hstart : (s₂.advance rd).walStart = s₂.walStart := by rw [walStart, advance_storage]; rfl
  rcases trigger_cases htrigger with ⟨-, rfl⟩ | ⟨snap, storage, hlocal, hcompact, rfl⟩
  · obtain ⟨loaded₁, t₁, hsecured⟩ := settle_secured h htied hw hready hsettle
    refine ⟨loaded₁, t₁, standing_of_persisted hpersisted hsecured.holds.recoverable ?_ ?_ ?_⟩
    · rw [hstart]
      exact hsecured.position
    · rw [hprev]
      exact Or.inl hsecured.latest.symm
    · exact hpositive
  · have htake := takeReady_of_ready hhas hready hupdates
    obtain ⟨loaded₁, t₁, hsecured, hlt, hle, hfits, hagrees, hreads⟩ := local_secured h htied hw
      hready htake hsettle hlocal
    obtain ⟨t', hholds, -, hlatest⟩ := hsecured.filed htied.sound h.positive hfits hagrees hlt hle
      hreads
    have hsnapshot : storage.snapshot = snap := by
      rcases MemoryStorage.compact_cases (s := { s₁.storage with snapshot := snap }) hsettled.stored
        hcompact with ⟨rfl, -⟩ | ⟨-, -, -, -, -, -, -, hsnapshot⟩
      · rfl
      · exact hsnapshot
    refine ⟨some snap, t', standing_of_persisted hpersisted hholds.recoverable ?_ ?_ ?_⟩
    · rw [hstart]
      show snap.position = storage.snapshot.position
      rw [hsnapshot]
    · rw [hprev]
      exact Or.inl hlatest.symm
    · exact hpositive

/-- A disk from which the start returns holds what the node relied on, whatever the crash point. -/
lemma holds_of_boot {point : CrashPoint} {disk : Disk} (h : Standing site s loaded t)
    (htied : s.Tied) (hw : s.Recorded site data)
    (hcrash : s.crashDisk site data point = some disk)
    (hboot : boot site disk fileSize = Except.ok s') :
    ∃ loaded' t', Holds site disk (s.kept point).1 (s.kept point).2 loaded' t' := by
  by_cases hwindow : s.Installing point
  · obtain ⟨hpending, hpoint⟩ := hwindow
    obtain ⟨snap, hsome⟩ := Option.ne_none_iff_exists'.mp hpending
    obtain ⟨t', hleft⟩ := left_of_crash h htied hw.toWritable hsome hpoint hcrash
    have hholds := hleft.holds h htied hsome (hleft.of_boot h htied hsome hboot)
    rcases hpoint with rfl | rfl
    · exact ⟨loaded, t', hholds⟩
    · exact ⟨loaded, t', hholds⟩
  · exact crash_holds h htied hw hcrash hwindow

/-- **Every action keeps the disk recoverable.** -/
theorem standing_act {a : Action} (hkept : site.snapshotCatchUpEntriesN ≤ site.snapCount)
    (hpeers : 0 < site.peers) (hid : site.id ≠ 0)
    (h : (s.Tied ∧ s.snapCount = site.snapCount) ∧ ∃ loaded t, Standing site s loaded t)
    (ha : s.Proper a) (hw : s.Survives site a) (hact : s.act site a = Except.ok s') :
    (s'.Tied ∧ s'.snapCount = site.snapCount) ∧ ∃ loaded t, Standing site s' loaded t := by
  obtain ⟨⟨htied, hcount⟩, loaded, t, h⟩ := h
  refine ⟨Tied.act hkept ⟨htied, hcount⟩ ha hact, ?_⟩
  cases a with
  | call c =>
      obtain ⟨d, hd, hact⟩ := bind_eq_ok.mp hact
      cases hact
      exact ⟨loaded, t, standing_call h ha.1 ha.2.1 hd⟩
  | handleReady data =>
      rcases handleReady_cases hact with ⟨-, rfl⟩ | ⟨-, node, rd, hready, -, rfl⟩ |
        ⟨hhas, node, rd, s₁, s₂, hready, hupdates, hsettle, htrigger, rfl⟩
      · exact ⟨loaded, t, h⟩
      · -- the queues are taken, and nothing is written
        have hlog := (htied.takes hready).log
        have hprev : node.prevHardState = s.node.prevHardState :=
          (Driver.ready_hardState hready).1
        obtain ⟨-, hpersisted⟩ := Persisted.act hkept ⟨⟨htied, hcount⟩, t, h.toPersisted⟩ ha
          hw.toWritable hact
        refine ⟨loaded, t, standing_of_persisted hpersisted h.recoverable ?_ ?_ ?_⟩
        · show _ = node.raft.raftLog.storage.snapshot.position
          rw [hlog]
          exact h.position
        · show node.prevHardState = _ ∨ node.prevHardState = {}
          rw [hprev]
          exact h.latest
        · show 0 < node.raft.raftLog.committed
          rw [hlog]
          exact h.positive
      · exact standing_round h htied hw hready hhas hupdates hsettle htrigger
  | restart disk size =>
      obtain ⟨data, point, hrecorded, hcrash⟩ := hw
      obtain ⟨loaded', t', hholds⟩ := holds_of_boot h htied hrecorded hcrash hact
      obtain ⟨s'', hboot, hstanding, -, -⟩ := hholds.boot hid hpeers size
      obtain rfl : s'' = s' := Except.ok.inj (hboot.symm.trans hact)
      exact ⟨loaded', t', hstanding⟩

/-! ## Runs -/

/-- Only a process with an id is started. -/
lemma id_of_boot {disk : Disk} (h : boot site disk fileSize = Except.ok s) : site.id ≠ 0 := by
  intro hzero
  obtain ⟨s₀, hnew, -⟩ := bind_eq_ok.mp h
  obtain ⟨p, -, hnew⟩ := bind_eq_ok.mp hnew
  have hstatus : (config site p.1).validate.2 = Status.invalidArgument "cannot use none as id" := by
    simp [config, Config.validate, hzero]
  dsimp only at hnew
  rw [if_pos (by rw [hstatus]; exact fun heq => (by cases heq))] at hnew
  cases hnew

/-- A disk without files can be recovered from. -/
lemma recoverable_new (hfirst : (WalItem.snapshot {}).Fits site.wal) :
    Recoverable site {} none { matchsnap := true } := by
  have hlists : Wal.Lists site.wal (Wal.create site.wal) [WalItem.snapshot {}] := by
    have hnil : Wal.Lists site.wal [] [] := ⟨rfl, rfl⟩
    have happend := hnil.append (List.forall_mem_singleton.mpr hfirst)
    rw [Wal.itemBytes] at happend
    simpa [Wal.create, WalItem.record] using happend
  refine ⟨SnapFolder.heads_empty _, fun _ hs => (by cases hs), ?_, ?_, ?_⟩
  · exact ⟨⟨_, hlists, rfl⟩, rfl, [], rfl, fun _ hmem => absurd hmem List.not_mem_nil, rfl⟩
  · exact ⟨_, hlists, trivial⟩
  · exact Or.inl ⟨rfl, rfl, rfl⟩

/-- **What holds in every run.** -/
theorem standing_of_run {s₀ : RaftNode} (hkept : site.snapshotCatchUpEntriesN ≤ site.snapCount)
    (hpeers : 0 < site.peers) (hfirst : (WalItem.snapshot {}).Fits site.wal)
    (hboot : boot site {} fileSize = Except.ok s₀)
    (hrun : RunOf (act site) (fun s a => s.Proper a ∧ s.Survives site a) s₀ s) :
    (s.Tied ∧ s.snapCount = site.snapCount) ∧ ∃ loaded t, Standing site s loaded t := by
  have hid := id_of_boot hboot
  have hnew := recoverable_new hfirst
  obtain ⟨hstanding, -, -⟩ := hnew.standing hpeers hboot
  exact hrun.invariant
    (I := fun s => (s.Tied ∧ s.snapCount = site.snapCount) ∧ ∃ loaded t, Standing site s loaded t)
    (fun s a s' hs ha hact => standing_act hkept hpeers hid hs ha.1 ha.2 hact)
    ⟨boot_tied hboot, none, _, hstanding⟩

/-- **A process that ends at a crash point can be started again, and has lost nothing.**  In every run
from an empty disk, with any number of crashes and starts on the way, whose rounds write only what
can be read back: if the process ends at any point of its next round, then the start from what it
leaves behind returns, but for the two points at which a received snapshot is not yet filed.  And
where it returns, the node has the term and the vote that were written, or later ones, and in its log
every entry that was written behind the newest snapshot. -/
theorem recovers {s₀ : RaftNode} (hkept : site.snapshotCatchUpEntriesN ≤ site.snapCount)
    (hpeers : 0 < site.peers) (hfirst : (WalItem.snapshot {}).Fits site.wal)
    (hboot : boot site {} fileSize = Except.ok s₀)
    (hrun : RunOf (act site) (fun s a => s.Proper a ∧ s.Survives site a) s₀ s)
    (hw : s.Recorded site data) {point : CrashPoint} {disk : Disk}
    (hcrash : s.crashDisk site data point = some disk) (size : Nat) :
    (¬ s.Installing point → ∃ s', boot site disk size = Except.ok s') ∧
    ∀ s', boot site disk size = Except.ok s' → (s.kept point).1.Precedes s'.node.raft ∧
      ∀ e ∈ (s.kept point).2, s'.walStart.index < e.index → e ∈ s'.log.logical := by
  obtain ⟨⟨htied, -⟩, loaded, t, hstanding⟩ := standing_of_run hkept hpeers hfirst hboot hrun
  constructor
  · intro hwindow
    obtain ⟨loaded', t', hholds⟩ := crash_holds hstanding htied hw hcrash hwindow
    exact hholds.recoverable.boot_returns (id_of_boot hboot) size
  · intro s' hboot'
    obtain ⟨loaded', t', hholds⟩ := holds_of_boot hstanding htied hw hcrash hboot'
    obtain ⟨s'', hboot'', -, hprecedes, hentries⟩ := hholds.boot (id_of_boot hboot) hpeers size
    obtain rfl : s'' = s' := Except.ok.inj (hboot''.symm.trans hboot')
    exact ⟨hprecedes, hentries⟩

/-- The first node sends the entry behind the fourth. -/
def fifthEntry : Message :=
  { fourthEntry [] with index := 4, entries := [{ term := 1, index := 5, data := [9] }] }

/-- The follower has stored an entry, has ended and was started again; it is sent the next entry, and
ends before it can answer. -/
theorem recovers_follower : ∃ (s s' : RaftNode) (disk : Disk) (e : Entry), e.index = 5 ∧
    s.crashDisk followerSite [] CrashPoint.saved = some disk ∧
    boot followerSite disk 0 = Except.ok s' ∧ s.node.raft.term ≤ s'.node.raft.term ∧
    e ∈ s'.log.logical := by
  let round : RaftNode.Action := Action.handleReady []
  let fourth : RaftNode.Action := Action.call (Call.step (fourthEntry [7]))
  let fifth : RaftNode.Action := Action.call (Call.step fifthEntry)
  have hreached : ((boot followerSite {} 0).toOption.any fun s₀ =>
      decide (s₀.Recorded followerSite []) && (s₀.act followerSite round).toOption.any fun s₁ =>
      (s₁.act followerSite fourth).toOption.any fun s₂ =>
      decide (s₂.Recorded followerSite []) && (s₂.act followerSite round).toOption.any fun s₃ =>
      decide (s₃.Recorded followerSite []) &&
      (s₃.crashDisk followerSite [] CrashPoint.idle).any fun disk =>
      (s₃.act followerSite (Action.restart disk 0)).toOption.any fun s₄ =>
      (s₄.act followerSite fifth).toOption.any fun s₅ =>
      decide (s₅.Recorded followerSite [] ∧ s₅.log.unstable.snapshot = none) &&
      (s₅.crashDisk followerSite [] CrashPoint.saved).any fun disk' =>
      (boot followerSite disk' 0).toOption.any fun s₆ => s₅.log.logical.any fun e =>
        decide (e.index = 5 ∧ s₆.walStart.index < 5)) = true := by
    decide +kernel
  obtain ⟨s₀, hs₀, hreached⟩ := (Option.any_eq_true ..).mp hreached
  obtain ⟨hw₀, hreached⟩ := Bool.and_eq_true_iff.mp hreached
  have hw₀ : s₀.Recorded followerSite [] := of_decide_eq_true hw₀
  obtain ⟨s₁, hs₁, hreached⟩ := (Option.any_eq_true ..).mp hreached
  obtain ⟨s₂, hs₂, hreached⟩ := (Option.any_eq_true ..).mp hreached
  obtain ⟨hw₂, hreached⟩ := Bool.and_eq_true_iff.mp hreached
  have hw₂ : s₂.Recorded followerSite [] := of_decide_eq_true hw₂
  obtain ⟨s₃, hs₃, hreached⟩ := (Option.any_eq_true ..).mp hreached
  obtain ⟨hw₃, hreached⟩ := Bool.and_eq_true_iff.mp hreached
  obtain ⟨disk, hcrash, hreached⟩ := (Option.any_eq_true ..).mp hreached
  obtain ⟨s₄, hs₄, hreached⟩ := (Option.any_eq_true ..).mp hreached
  obtain ⟨s₅, hs₅, hreached⟩ := (Option.any_eq_true ..).mp hreached
  obtain ⟨hw₅, hreached⟩ := Bool.and_eq_true_iff.mp hreached
  obtain ⟨hw₅, hnone⟩ := of_decide_eq_true hw₅
  obtain ⟨disk', hcrash', hreached⟩ := (Option.any_eq_true ..).mp hreached
  obtain ⟨s₆, hs₆, hreached⟩ := (Option.any_eq_true ..).mp hreached
  obtain ⟨e, he, hfacts⟩ := List.any_eq_true.mp hreached
  obtain ⟨hindex, hbehind⟩ := of_decide_eq_true hfacts
  have hproper : ∀ (s : RaftNode) (m : Message), m.term ≠ 0 → Numbered (m.index + 1) m.entries →
      s.Proper (Action.call (Call.step m)) := fun s m hterm hnum =>
    ⟨Or.inl hterm, fun _ => hnum, fun h => (by cases h)⟩
  have hsurvives : s₃.Survives followerSite (Action.restart disk 0) :=
    ⟨[], CrashPoint.idle, of_decide_eq_true hw₃, hcrash⟩
  have hrun : RunOf (act followerSite) (fun s a => s.Proper a ∧ s.Survives followerSite a) s₀ s₅ :=
    (((((RunOf.refl s₀).step round ⟨trivial, hw₀⟩ (eq_ok_of_toOption hs₁)).step
      fourth ⟨hproper _ _ Nat.one_ne_zero (Numbered.cons rfl (Numbered.nil _)), trivial⟩
      (eq_ok_of_toOption hs₂)).step round ⟨trivial, hw₂⟩
      (eq_ok_of_toOption hs₃)).step (Action.restart disk 0) ⟨trivial, hsurvives⟩
      (eq_ok_of_toOption hs₄)).step fifth
      ⟨hproper _ _ Nat.one_ne_zero (Numbered.cons rfl (Numbered.nil _)), trivial⟩
      (eq_ok_of_toOption hs₅)
  obtain ⟨hreturns, hrestores⟩ := recovers (by decide) (by decide) (by decide +kernel)
    (eq_ok_of_toOption hs₀) hrun hw₅ hcrash' 0
  obtain ⟨s', hboot'⟩ := hreturns fun hinstalling => hinstalling.1 hnone
  obtain rfl : s' = s₆ := Except.ok.inj (hboot'.symm.trans (eq_ok_of_toOption hs₆))
  obtain ⟨hprecedes, hentries⟩ := hrestores s' hboot'
  exact ⟨s₅, s', disk', e, hindex, hcrash', hboot', hprecedes.term_le,
    hentries e he (hindex ▸ hbehind)⟩

/-! ## The window -/

/-- **The window.**  In every run as above: if the process ends while a received snapshot is installed,
behind `WAL::save` or behind the mark of the snapshot, then the start returns exactly if nothing of
the round is on disk, or the log that was there before goes on to the index of the snapshot.  If not,
and the node's log holds nothing behind the snapshot, the start ends in `load_state`. -/
theorem installing_iff {s₀ : RaftNode} (hkept : site.snapshotCatchUpEntriesN ≤ site.snapCount)
    (hpeers : 0 < site.peers) (hfirst : (WalItem.snapshot {}).Fits site.wal)
    (hboot : boot site {} fileSize = Except.ok s₀)
    (hrun : RunOf (act site) (fun s a => s.Proper a ∧ s.Survives site a) s₀ s)
    (hw : s.Writable site) (hsome : s.log.unstable.snapshot = some snap) {point : CrashPoint}
    (hwindow : s.Installing point) {disk : Disk}
    (hcrash : s.crashDisk site data point = some disk) (size : Nat) :
    ((∃ s', boot site disk size = Except.ok s') ↔
      disk = s.disk ∨ snap.metadata.index ≤ s.logReach site) ∧
    (s.log.unstable.entries = [] → disk ≠ s.disk → s.logReach site < snap.metadata.index →
      boot site disk size = Except.error
        (commitOutOfRange site.id s.log.committed s.walStart.index (s.logReach site))) := by
  obtain ⟨⟨htied, -⟩, loaded, t, hstanding⟩ := standing_of_run hkept hpeers hfirst hboot hrun
  obtain ⟨t', hleft⟩ := left_of_crash hstanding htied hw hsome hwindow.2 hcrash
  have hid := id_of_boot hboot
  refine ⟨hleft.returns_iff hstanding htied hsome hid size, fun hnil hsame hshort => ?_⟩
  exact hleft.fatal hstanding htied hsome hid hnil hsame hshort size

/-- The follower has three entries, and is sent a snapshot of the tenth. -/
def tenthSnapshot : Message where
  type := MessageType.msgSnap
  fromId := 1
  toId := 2
  term := 1
  snapshot := { metadata := { index := 10, term := 1, confState := { nodes := [2, 1, 3] } } }

/-- Once the mark of the snapshot is written, every start of the follower ends in `load_state`. -/
theorem installing_follower : ∃ (s₀ s : RaftNode) (disk : Disk),
    boot followerSite {} 0 = Except.ok s₀ ∧ RunOf (act followerSite) Proper s₀ s ∧
    s.crashDisk followerSite [] CrashPoint.marked = some disk ∧
    ∀ size, (¬ ∃ s', boot followerSite disk size = Except.ok s') ∧
      boot followerSite disk size = Except.error (commitOutOfRange 2 10 0 3) := by
  let round : RaftNode.Action := Action.handleReady []
  let receive : RaftNode.Action := Action.call (Call.step tenthSnapshot)
  have hreached : ((boot followerSite {} 0).toOption.any fun s₀ =>
      decide (s₀.Recorded followerSite []) && (s₀.act followerSite round).toOption.any fun s₁ =>
      (s₁.act followerSite receive).toOption.any fun s₂ =>
      decide (s₂.Writable followerSite ∧ s₂.logReach followerSite = 3 ∧ s₂.walStart.index = 0 ∧
        s₂.log.committed = 10 ∧ s₂.log.unstable.entries = []) &&
      (s₂.log.unstable.snapshot.any fun snap => decide (snap.metadata.index = 10)) &&
      (s₂.crashDisk followerSite [] CrashPoint.marked).any fun disk =>
        decide (disk.walFile ≠ s₂.disk.walFile)) = true := by
    decide +kernel
  obtain ⟨s₀, hs₀, hreached⟩ := (Option.any_eq_true ..).mp hreached
  obtain ⟨hw₀, hreached⟩ := Bool.and_eq_true_iff.mp hreached
  have hw₀ : s₀.Recorded followerSite [] := of_decide_eq_true hw₀
  obtain ⟨s₁, hs₁, hreached⟩ := (Option.any_eq_true ..).mp hreached
  obtain ⟨s₂, hs₂, hreached⟩ := (Option.any_eq_true ..).mp hreached
  obtain ⟨hreached, hcrash⟩ := Bool.and_eq_true_iff.mp hreached
  obtain ⟨hw₂, hreached⟩ := Bool.and_eq_true_iff.mp hreached
  obtain ⟨hw₂, hreach, hstart, hcommitted, hnil⟩ := of_decide_eq_true hw₂
  obtain ⟨snap, hsome, hindex⟩ := (Option.any_eq_true ..).mp hreached
  have hindex : snap.metadata.index = 10 := of_decide_eq_true hindex
  obtain ⟨disk, hcrash, hchanged⟩ := (Option.any_eq_true ..).mp hcrash
  have hsame : disk ≠ s₂.disk := fun heq =>
    of_decide_eq_true hchanged (congrArg Disk.walFile heq)
  have hproper : s₁.Proper receive :=
    ⟨Or.inl Nat.one_ne_zero, fun happ => (by cases happ), fun h => (by cases h)⟩
  have hrun : RunOf (act followerSite) (fun s a => s.Proper a ∧ s.Survives followerSite a) s₀ s₂ :=
    ((RunOf.refl s₀).step round ⟨trivial, hw₀⟩ (eq_ok_of_toOption hs₁)).step
      receive ⟨hproper, trivial⟩ (eq_ok_of_toOption hs₂)
  have hwindow : s₂.Installing CrashPoint.marked :=
    ⟨by rw [hsome]; exact Option.some_ne_none snap, Or.inr rfl⟩
  refine ⟨s₀, s₂, disk, eq_ok_of_toOption hs₀, hrun.mono fun _ _ h => h.1, hcrash, fun size => ?_⟩
  obtain ⟨hiff, hfatal⟩ := installing_iff (by decide) (by decide) (by decide +kernel)
    (eq_ok_of_toOption hs₀) hrun hw₂ hsome hwindow hcrash size
  constructor
  · rw [hiff, hreach, hindex]
    exact not_or.mpr ⟨hsame, by decide⟩
  · have hend := hfatal hnil hsame (by rw [hreach, hindex]; decide)
    rw [hreach, hstart, hcommitted] at hend
    exact hend

end RaftNode

end RaftKv
