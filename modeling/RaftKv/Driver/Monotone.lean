import RaftKv.Driver.PendingReady
import RaftKv.Raft.Bootstrap
import RaftKv.Raft.SnapshotSends

/-!
# What never goes back

* `Driver.Sound` — **the invariant of a run**: the log is sound, and fits the pending `Ready`.
* `Driver.Sound.act`, `Driver.sound_of_boots` — every orderly call keeps it, and every node starts with
  it.
* `Raft.Later` — a later term, a vote that is kept within a term, and a later commit index.
* `Driver.InRange` — the call makes no term and no index that the 64 bits of the source do not hold.
* `Driver.run_later` — **term, vote and commit index never go back**, and in orderly runs what is
  applied is committed, and what is committed is in the log.
-/

namespace RaftKv

open RaftLog

variable {pack : ConfChange → Bytes} {d d' : Driver} {n : RawNode} {rd : Ready}

/-! ## The invariant -/

/-- How the log and the pending `Ready` fit together. -/
def Phase.Fits (l : RaftLog) : Phase → Prop
  | Phase.idle => l.Idle
  | Phase.taken rd => ∃ k, rd.Awaits k l
  | Phase.stored rd => rd.Settles l

lemma Phase.Fits.move {p : Phase} {l l' : RaftLog} (h : p.Fits l) (hsound : l.Sound)
    (hmove : Move l l') : p.Fits l' := by
  cases p with
  | idle => exact RaftLog.Idle.move h hsound hmove
  | taken rd =>
      obtain ⟨k, hk⟩ := h
      exact ⟨k, hk.move hsound hmove⟩
  | stored rd => exact Ready.Settles.move h hsound hmove

lemma Phase.Fits.moves {p : Phase} {l l' : RaftLog} (h : p.Fits l) (hsound : l.Sound)
    (hmoves : Moves l l') : l'.Sound ∧ p.Fits l' := by
  induction hmoves with
  | refl => exact ⟨hsound, h⟩
  | tail _ hmove ih => exact ⟨ih.1.move hmove, ih.2.move ih.1 hmove⟩

namespace Driver

def log (d : Driver) : RaftLog := d.node.raft.raftLog

/-- **The invariant of a run.** -/
structure Sound (d : Driver) : Prop where
  log : d.log.Sound
  phase : d.phase.Fits d.log

/-- The pending `Ready` has been overtaken. -/
def Overtaken (d : Driver) : Prop := ∃ rd ∈ d.phase.settling, rd.Overtaken d.log

instance (d : Driver) : Decidable d.Overtaken :=
  inferInstanceAs (Decidable (∃ rd ∈ d.phase.settling, _))

end Driver

/-- The entries of an append request follow its index. -/
def Call.Numbered : Call → Prop
  | Call.step m => m.type = MessageType.msgApp → RaftKv.Numbered (m.index + 1) m.entries
  | _ => True

instance : (c : Call) → Decidable c.Numbered
  | Call.step m =>
      inferInstanceAs (Decidable (m.type = _ → RaftKv.Numbered (m.index + 1) m.entries))
  | Call.tick | Call.campaign | Call.propose _ | Call.proposeConfChange _ | Call.applyConfChange _
  | Call.transferLeadership _ _ | Call.readIndex _ | Call.reportUnreachable _
  | Call.reportSnapshot _ _ | Call.ready | Call.store | Call.advance =>
      inferInstanceAs (Decidable True)

lemma Call.Numbered.message {c : Call} (h : c.Numbered)
    (ht : (c.message pack n).type = MessageType.msgApp) :
    RaftKv.Numbered ((c.message pack n).index + 1) (c.message pack n).entries := by
  cases c with
  | step m => exact h ht
  | _ => cases ht

lemma Call.Numbered.stepped {c : Call} (h : c.Numbered)
    (ht : (c.stepped pack n).type = MessageType.msgApp) :
    RaftKv.Numbered ((c.stepped pack n).index + 1) (c.stepped pack n).entries := by
  cases c with
  | step m => exact h ht
  | _ => cases ht

/-- Messages are what their senders make of them, and `advance` is not called for a `Ready` that has
been overtaken. -/
def Orderly (d : Driver) (c : Call) : Prop :=
  c.Stamped ∧ c.Numbered ∧ (c = Call.advance → ¬ d.Overtaken)

instance (d : Driver) (c : Call) : Decidable (Orderly d c) :=
  inferInstanceAs (Decidable (_ ∧ _ ∧ (c = Call.advance → ¬ d.Overtaken)))

/-- Between `ready` and `advance`, the process does nothing but store the `Ready`. -/
def Serial (d : Driver) (c : Call) : Prop :=
  c.Stamped ∧ c.Numbered ∧ (d.phase ≠ Phase.idle → c = Call.store ∨ c = Call.advance)

/-- The snapshot that is being installed is the one of the pending `Ready`. -/
def Phase.Untouched (l : RaftLog) : Phase → Prop
  | Phase.idle => True
  | Phase.taken rd | Phase.stored rd => l.unstable.snapshot = none ∨
      l.unstable.snapshot = some rd.snapshot

/-- **A process that is serial is orderly**: no `Ready` is overtaken while nothing else happens. -/
theorem orderly_of_serial (hrun : RunOf (Driver.act pack) Serial { node := n } d) :
    RunOf (Driver.act pack) Orderly { node := n } d := by
  refine hrun.mono_of_invariant (I := fun d => d.phase.Untouched d.log) ?_ trivial ?_
  · intro d c d' huntouched hc hact
    obtain ⟨hstamped, -, hserial⟩ := hc
    rcases Driver.act_cases hstamped hact with ⟨-, hphase, -⟩ | ⟨-, n, rd, hready, rfl⟩ |
      ⟨rd, storage, htaken, -, rfl⟩ | ⟨-, rd, -, rfl⟩
    · by_cases hidle : d.phase = Phase.idle
      · rw [hphase, hidle]
        trivial
      · -- what is called does not fit the phase
        have hsame : d' = d := by
          rcases hserial hidle with rfl | rfl <;> rw [Driver.act] at hact <;> split at hact
          · obtain ⟨storage, -, hact⟩ := Outcome.bind_eq_ok.mp hact
            cases hact
            rename_i rd htaken
            rw [htaken] at hphase
            cases hphase
          · cases hact
            rfl
          · cases hact
            rename_i rd hstored
            rw [hstored] at hphase
            cases hphase
          · cases hact
            rfl
        rw [hsame]
        exact huntouched
    · obtain ⟨-, -, hsnapshot, -, hn⟩ := RawNode.ready_eq_ok hready
      have hlog : n.raft.raftLog = d.node.raft.raftLog := by
        rw [hn]
        rfl
      show n.raft.raftLog.unstable.snapshot = none ∨ n.raft.raftLog.unstable.snapshot = some rd.snapshot
      rw [hlog, hsnapshot]
      cases d.node.raft.raftLog.unstable.snapshot with
      | none => exact Or.inl rfl
      | some s => exact Or.inr rfl
    · rw [htaken] at huntouched
      exact huntouched
    · trivial
  · intro d c huntouched hc
    refine ⟨hc.1, hc.2.1, ?_⟩
    rintro rfl ⟨rd, hrd, s, hs, hne, -⟩
    cases hphase : d.phase with
    | idle =>
        rw [hphase] at hrd
        cases hrd
    | taken rd' =>
        rw [hphase] at hrd
        cases hrd
    | stored rd' =>
        rw [hphase] at hrd huntouched
        obtain rfl : rd' = rd := Option.some.inj hrd
        rcases huntouched with hnone | hsame
        · rw [hnone] at hs
          cases hs
        · rw [hsame] at hs
          obtain rfl : rd'.snapshot = s := Option.some.inj hs
          exact hne rfl

/-- The storage a node is started from is a log, and neither its snapshot nor what was applied is
ahead of what was committed. -/
structure Config.Consistent (c : Config) : Prop where
  numbered : Numbered c.storage.front.index c.storage.entries
  snapshot_le : c.storage.snapshot.metadata.index ≤
    max c.storage.front.index c.storage.hardState.commit
  applied_le : c.applied ≤ max c.storage.front.index c.storage.hardState.commit

/-- The node has just been started, or started again. -/
def Boots (pack : ConfChange → Bytes) (c : Config) (n : RawNode) : Prop :=
  RawNode.restart c = Except.ok n ∨ ∃ peers, RawNode.start pack c peers = Except.ok n

/-! ## The start -/

/-- A node starts as the constructor leaves it, or, with an empty storage, behind the bootstrap
entries. -/
lemma boots_cases {c : Config} (h : Boots pack c n) : ∃ r, Raft.init c = Except.ok r ∧
    (n.raft = r ∨ r.raftLog.lastIndex = 0 ∧ ∃ peers,
      RawNode.bootstrap pack r peers = Except.ok n.raft) := by
  rcases h with h | ⟨peers, h⟩
  · obtain ⟨r, hinit, h⟩ := Outcome.bind_eq_ok.mp h
    cases h
    exact ⟨r, hinit, Or.inl rfl⟩
  · obtain ⟨r, hinit, h⟩ := Outcome.bind_eq_ok.mp h
    obtain ⟨r', hboot, h⟩ := Outcome.bind_eq_ok.mp h
    cases h
    rw [RawNode.bootstrapIfNew] at hboot
    split at hboot
    · rename_i hzero
      have hlast : r.raftLog.lastIndex = 0 := by
        obtain ⟨-, -, -, committed, -, -, -, hlog⟩ := Raft.init_eq_ok hinit
        rw [hlog]
        exact hzero
      exact ⟨r, hinit, Or.inr ⟨hlast, peers, hboot⟩⟩
    · cases hboot
      exact ⟨r, hinit, Or.inl rfl⟩

lemma init_sound {c : Config} {r : Raft} (hc : c.Consistent) (h : Raft.init c = Except.ok r) :
    r.raftLog.Sound ∧ r.raftLog.Idle := by
  obtain ⟨-, -, -, committed, hlow, hhigh, hcommit, hlog⟩ := Raft.init_eq_ok h
  have hlast := storage_lastIndex c.storage
  have hlen := List.length_pos_iff.mpr c.storage.nonempty
  have happlied := hc.applied_le
  have hsnapshot := hc.snapshot_le
  rw [hlog]
  refine ⟨⟨⟨hc.numbered, Numbered.nil _, fun _ => ⟨?_, Nat.le_refl _, fun _ => rfl⟩,
    fun s hs => ?_⟩, hlow, hhigh, ?_, ?_⟩, fun s hs => ?_⟩
  · show c.storage.front.index + 1 ≤ c.storage.lastIndex + 1
    omega
  · cases hs
  · dsimp only
    split <;> omega
  · show c.storage.snapshot.metadata.index ≤ committed
    omega
  · cases hs

/-- The bootstrap entries are appended and committed, and then the peers are entered. -/
lemma bootstrap_eq_ok {r r' : Raft} {peers : List PeerContext}
    (h : RawNode.bootstrap pack r peers = Except.ok r') :
    ∃ l last, r.raftLog.append (RawNode.bootstrapEntries pack 1 peers) = Except.ok (l, last) ∧
      r'.raftLog = { l with committed := (RawNode.bootstrapEntries pack 1 peers).length } ∧
      r'.term = 1 ∧ r'.state = RaftState.follower := by
  obtain ⟨r₁, hfollow, h⟩ := Outcome.bind_eq_ok.mp h
  obtain ⟨⟨l, last⟩, happend, h⟩ := Outcome.bind_eq_ok.mp h
  have hr₁ := Raft.becomeFollower_eq_ok hfollow
  let r₂ : Raft := { r₁ with
    raftLog := { l with committed := (RawNode.bootstrapEntries pack 1 peers).length } }
  have hentered : r'.ledger = r₂.ledger :=
    Outcome.foldlM_induct (P := fun s => s.ledger = r₂.ledger)
      (fun _ _ _ _ hs hround =>
        (Raft.Deeds.addNodeOrLearner hround).ledger.trans hs) rfl h
  simp only [Raft.ledger, Prod.mk.injEq] at hentered
  obtain ⟨-, hterm, -, hstate, hlog, -⟩ := hentered
  have hterm₁ : r₁.term = 1 := by rw [hr₁]; rfl
  have hstate₁ : r₁.state = RaftState.follower := by rw [hr₁]
  rw [hr₁] at happend
  exact ⟨l, last, happend, hlog, hterm.trans hterm₁, hstate.trans hstate₁⟩

/-- No message is queued at the start. -/
lemma boots_msgs {c : Config} (h : Boots pack c n) : n.raft.msgs = [] := by
  obtain ⟨r, hr, hn | ⟨-, peers, hboot⟩⟩ := boots_cases h
  · rw [hn]
    exact (Raft.init_hardState hr).2.2.1
  · obtain ⟨r₁, hfollow, hboot⟩ := Outcome.bind_eq_ok.mp hboot
    obtain ⟨⟨l, last⟩, -, hboot⟩ := Outcome.bind_eq_ok.mp hboot
    refine Outcome.foldlM_induct (P := fun r : Raft => r.msgs = [])
      (fun r r' peer _ hs hround => ?_) ?_ hboot
    · exact (Raft.Deeds.addNodeOrLearner hround).sends.2.trans hs
    · show r₁.msgs = []
      rw [Raft.becomeFollower_eq_ok hfollow]
      exact (Raft.init_hardState hr).2.2.1

/-- Every node starts as a follower. -/
lemma boots_follower {c : Config} (h : Boots pack c n) : n.raft.state = RaftState.follower := by
  obtain ⟨r, hr, hn | ⟨-, peers, hboot⟩⟩ := boots_cases h
  · rw [hn]
    exact (Raft.init_eq_ok hr).1
  · obtain ⟨l, last, -, -, -, hstate⟩ := bootstrap_eq_ok hboot
    exact hstate

/-- The previous hard state of a node that was started: none for a new cluster, or its own, which is
the one of the storage. -/
lemma start_prev {c : Config} {peers : List PeerContext}
    (h : RawNode.start pack c peers = Except.ok n) :
    (n.prevHardState = {} ∧ n.raft.term = 1) ∨
    (n.prevHardState = n.raft.hardState ∧ n.raft.term = c.storage.hardState.term ∧
      n.raft.vote = c.storage.hardState.vote) := by
  obtain ⟨r, hinit, h⟩ := Outcome.bind_eq_ok.mp h
  obtain ⟨r', hboot, h⟩ := Outcome.bind_eq_ok.mp h
  cases h
  dsimp only
  rw [RawNode.bootstrapIfNew] at hboot
  split at hboot
  · rename_i hzero
    obtain ⟨l, last, -, -, hterm, -⟩ := bootstrap_eq_ok hboot
    rw [if_pos hzero]
    exact Or.inl ⟨rfl, hterm⟩
  · rename_i hsome
    cases hboot
    obtain ⟨hterm, hvote, -, -⟩ := Raft.init_hardState hinit
    rw [if_neg hsome]
    exact Or.inr ⟨rfl, hterm, hvote⟩

lemma bootstrap_moves {r r' : Raft} {peers : List PeerContext} (hsound : r.raftLog.Sound)
    (hlast : r.raftLog.lastIndex = 0) (h : RawNode.bootstrap pack r peers = Except.ok r') :
    Moves r.raftLog r'.raftLog := by
  obtain ⟨l, last, happend, hr', -, -⟩ := bootstrap_eq_ok h
  rw [hr']
  have hcommitted := hsound.committed_le
  have hnum := bootstrapEntries_numbered pack 1 peers
  cases hes : RawNode.bootstrapEntries pack 1 peers with
  | nil =>
      rw [hes] at happend
      cases happend
      have hzero : r.raftLog.committed = 0 := by omega
      have hsame : { r.raftLog with committed := ([] : List Entry).length } = r.raftLog := by
        rw [List.length_nil, ← hzero]
      rw [hsame]
  | cons e es =>
      rw [hes] at happend hnum
      have he := hnum.head
      obtain ⟨hwf, -, -, hl, hsnapshot, hlogical, -⟩ :=
        append_eq_ok hsound.wf hsound.base_le (he ▸ hnum) (by omega) happend
      have hbase := (base_congr (by rw [hl] : l.storage = r.raftLog.storage) hsnapshot).1
      have hbl := hsound.base_le
      have hc : l.committed = r.raftLog.committed := by rw [hl]
      have hend : l.lastIndex = (e :: es).length := by
        rw [lastIndex_eq hwf, hlogical, hbase, List.length_append, List.length_take]
        omega
      have hcommit : l.commitTo (e :: es).length =
          Except.ok { l with committed := (e :: es).length } := by
        rw [commitTo, if_pos (by rw [hc, List.length_cons]; omega), if_neg (by omega)]
        rfl
      exact Relation.ReflTransGen.tail
        (Relation.ReflTransGen.single (Move.extend (he ▸ hnum) (by omega) happend))
        (Move.commit hcommit)

/-- **Every node starts with the invariant.** -/
theorem Driver.sound_of_boots {c : Config} (hc : c.Consistent) (h : Boots pack c n) :
    Driver.Sound { node := n } := by
  obtain ⟨r, hinit, hr | ⟨hlast, peers, hboot⟩⟩ := boots_cases h
  · obtain ⟨hsound, hidle⟩ := init_sound hc (hr ▸ hinit)
    exact ⟨hsound, hidle⟩
  · obtain ⟨hsound, hidle⟩ := init_sound hc hinit
    obtain ⟨hsound', hidle'⟩ := Phase.Fits.moves (p := Phase.idle) hidle hsound
      (bootstrap_moves hsound hlast hboot)
    exact ⟨hsound', hidle'⟩

/-! ## One call -/

/-- The snapshot of a `Ready` is the one that is being installed. -/
lemma pendingSnapshot_of_ready {l : RaftLog} (hidle : l.Idle)
    (hsnapshot : rd.snapshot = l.unstable.snapshot.getD {}) :
    l.unstable.snapshot = rd.pendingSnapshot := by
  rw [Ready.pendingSnapshot, hsnapshot]
  cases hs : l.unstable.snapshot with
  | none => rfl
  | some s =>
      have hpos := hidle s hs
      rw [Option.getD_some, if_neg]
      rw [Snapshot.isEmpty_iff]
      omega

/-- **A `Ready` that is taken** fits the log. -/
lemma awaits_of_ready {l : RaftLog} (hsound : l.Sound) (hidle : l.Idle)
    (hnext : l.nextEntries = Except.ok rd.committedEntries)
    (hentries : rd.entries = l.unstable.entries)
    (hsnapshot : rd.snapshot = l.unstable.snapshot.getD {}) :
    rd.Awaits l.unstable.offset l := by
  obtain ⟨es, hes, -, hnum, hlen⟩ := hsound.nextEntries
  obtain rfl : es = rd.committedEntries := Except.ok.inj (hes.symm.trans hnext)
  have hpending := pendingSnapshot_of_ready hidle hsnapshot
  have hle : rd.snapshot.metadata.index ≤ l.committed := by
    rw [hsnapshot]
    cases hs : l.unstable.snapshot with
    | none => exact Nat.zero_le _
    | some s =>
        have := hsound.base_le
        simpa [base, hs] using this
  refine ⟨hentries ▸ hsound.wf.unstable, ?_, hle, fun hnone => ?_, fun s hs => ?_,
    Or.inl ⟨hpending, Nat.le_refl _, fun hne => hentries ▸ hne⟩⟩
  · rw [Ready.appliedCursor]
    cases hlast : rd.committedEntries.getLast? with
    | none => exact hle
    | some e =>
        have hindex := hnum.getLast hlast
        have hne : rd.committedEntries ≠ [] := by
          rintro hnil
          rw [hnil] at hlast
          cases hlast
        have := List.length_pos_iff.mpr hne
        show e.index ≤ l.committed
        omega
  · obtain ⟨hlow, hhigh, -⟩ := hsound.wf.fits (hpending.trans hnone)
    exact ⟨hlow, hhigh⟩
  · have hs' := hpending.trans hs
    exact ⟨hsound.wf.fits_snapshot s hs', hidle s hs'⟩

/-- **Every orderly call keeps the invariant.** -/
theorem Driver.Sound.act {c : Call} (h : d.Sound) (hc : Orderly d c)
    (hact : d.act pack c = Except.ok d') : d'.Sound := by
  obtain ⟨hstamped, hnumbered, hadvance⟩ := hc
  rcases Driver.act_cases hstamped hact with ⟨heffects, hphase, -⟩ | ⟨hidle, n, rd, hready, rfl⟩ |
    ⟨rd, storage, htaken, hstore, rfl⟩ | ⟨hc, rd, hstored, rfl⟩
  · have hmoves : Moves d.log d'.log := Raft.Effects.moves hnumbered.message heffects
    obtain ⟨hsound, hfits⟩ := h.phase.moves h.log hmoves
    refine ⟨hsound, ?_⟩
    rw [hphase]
    exact hfits
  · obtain ⟨hnext, hentries, hsnapshot, -, hn⟩ := RawNode.ready_eq_ok hready
    have hlog : n.raft.raftLog = d.log := by
      rw [hn]
      rfl
    have hfits := h.phase
    rw [hidle] at hfits
    refine ⟨?_, ?_⟩
    · show n.raft.raftLog.Sound
      rw [hlog]
      exact h.log
    · show ∃ k, rd.Awaits k n.raft.raftLog
      rw [hlog]
      exact ⟨_, awaits_of_ready h.log hfits hnext hentries hsnapshot⟩
  · have hfits := h.phase
    rw [htaken] at hfits
    obtain ⟨k, hawaits⟩ := hfits
    obtain ⟨hsound, hsettles⟩ := hawaits.store h.log hstore
    exact ⟨hsound, hsettles⟩
  · have hfits := h.phase
    rw [hstored] at hfits
    have hgood : ¬ rd.Overtaken d.log := fun hover => hadvance hc ⟨rd, by rw [hstored]; rfl, hover⟩
    obtain ⟨hsound, hidle⟩ := Ready.Settles.advance hfits h.log hgood
    exact ⟨hsound, hidle⟩

/-! ## Sixty-four bits -/

/-- The indices that a message brings. -/
def Message.indices (m : Message) : List Nat :=
  [m.index, m.rejectHint, m.snapshot.metadata.index] ++ m.entries.map Entry.index

namespace RaftLog

/-- The indices that a log holds. -/
def indices (l : RaftLog) : List Nat :=
  [l.lastIndex, l.snapshot.metadata.index] ++
    (l.storage.entries ++ l.unstable.entries).map Entry.index

/-- The number of entries that a log holds. -/
def size (l : RaftLog) : Nat := l.storage.entries.length + l.unstable.entries.length

end RaftLog

/-! ## Later states -/

namespace Raft

/-- A later term, a vote that is kept within a term, and a later commit index. -/
structure Later (r r' : Raft) : Prop where
  term_le : r.term ≤ r'.term
  vote_eq : r'.term = r.term → r.vote ≠ 0 → r'.vote = r.vote
  committed_le : r.raftLog.committed ≤ r'.raftLog.committed

lemma Later.refl (r : Raft) : Later r r := ⟨Nat.le_refl _, fun _ _ => rfl, Nat.le_refl _⟩

lemma Later.trans {r r₁ r' : Raft} (h : Later r r₁) (h' : Later r₁ r') : Later r r' where
  term_le := h.term_le.trans h'.term_le
  vote_eq hterm hvote := by
    have hterm₁ : r₁.term = r.term :=
      le_antisymm (hterm ▸ h'.term_le) h.term_le
    have hvote₁ := h.vote_eq hterm₁ hvote
    rw [h'.vote_eq (hterm.trans hterm₁.symm) (by rwa [hvote₁]), hvote₁]
  committed_le := h.committed_le.trans h'.committed_le

/-- A log that is changed does not concern term and vote. -/
lemma Later.log {r : Raft} {l : RaftLog} (h : r.raftLog.committed ≤ l.committed) :
    Later r { r with raftLog := l } := ⟨Nat.le_refl _, fun _ _ => rfl, h⟩

lemma append_frame {l l' : RaftLog} {es : List Entry} {last : Nat}
    (h : l.append es = Except.ok (l', last)) : l' = { l with unstable := l'.unstable } := by
  cases es with
  | nil =>
      cases h
      rfl
  | cons e es => exact (append_unstable h).2

/-- An append request of whatever kind touches the tail and the commit index only. -/
lemma maybeAppend_frame {l l' : RaftLog} {index logTerm committed : Nat} {es : List Entry}
    {res : Option Nat} (h : l.maybeAppend index logTerm committed es = Except.ok (l', res)) :
    l.committed ≤ l'.committed ∧
      l' = { l with unstable := l'.unstable, committed := l'.committed } := by
  rw [RaftLog.maybeAppend] at h
  split at h
  · obtain ⟨l₁, hnew, h⟩ := Outcome.bind_eq_ok.mp h
    obtain ⟨l₂, hcommit, h⟩ := Outcome.bind_eq_ok.mp h
    cases h
    have h₁ : l₁ = { l with unstable := l₁.unstable } := by
      simp only [appendNew] at hnew
      split at hnew
      · cases hnew
        rfl
      split at hnew
      · cases hnew
      split at hnew
      · cases hnew
      obtain ⟨⟨l₃, last⟩, happend, hnew⟩ := Outcome.bind_eq_ok.mp hnew
      cases hnew
      exact append_frame happend
    obtain ⟨rfl, -⟩ := commitTo_eq_ok hcommit
    rw [h₁]
    exact ⟨Nat.le_max_left .., rfl⟩
  · cases h
    exact ⟨Nat.le_refl _, rfl⟩

/-- **Every effect leads to a later state**, whatever the message holds. -/
theorem Effect.later {r r' : Raft} {m : Message} (h : Effect m r r') : Later r r' := by
  cases h with
  | aside h =>
      simp only [ledger, Prod.mk.injEq] at h
      obtain ⟨-, hterm, hvote, -, hlog, -⟩ := h
      exact ⟨hterm.ge, fun _ _ => hvote, by rw [hlog]⟩
  | @follow term hle =>
      refine ⟨hle, fun hterm _ => ?_, Nat.le_refl _⟩
      have hsame : ¬ r.term ≠ term := not_not_intro hterm.symm
      exact if_neg hsame
  | prepare => exact ⟨Nat.le_refl _, fun _ _ => rfl, Nat.le_refl _⟩
  | stand =>
      refine ⟨Nat.le_succ _, fun hterm => ?_, Nat.le_refl _⟩
      exact absurd hterm (Nat.succ_ne_self _)
  | lead => exact ⟨Nat.le_refl _, fun _ _ => if_neg (not_not_intro rfl), Nat.le_refl _⟩
  | vote h =>
      refine ⟨Nat.le_refl _, fun _ hne => ?_, Nat.le_refl _⟩
      exact (h.resolve_right hne).symm
  | refuse => exact ⟨Nat.le_refl _, fun _ _ => rfl, Nat.le_refl _⟩
  | propose _ _ hsize hlog =>
      have hr := increaseUncommittedSize_frame hsize
      have hc := (congrArg RaftLog.committed (append_frame hlog)).ge
      refine ⟨?_, fun _ _ => ?_, hc⟩ <;> rw [hr]
  | commit h =>
      obtain ⟨rfl, -⟩ := commitTo_eq_ok h
      exact Later.log (Nat.le_max_left ..)
  | append _ _ _ _ hlog => exact Later.log (maybeAppend_frame hlog).1
  | restore _ _ hindex => exact Later.log hindex.le

lemma Effects.later {r r' : Raft} {m : Message} (h : Effects m r r') : Later r r' := by
  induction h with
  | refl => exact Later.refl r
  | tail _ heffect ih => exact ih.trans heffect.later

end Raft

namespace Driver

/-- **Every call leads to a later state.** -/
theorem act_later {c : Call} (hc : c.Stamped) (h : d.act pack c = Except.ok d') :
    Raft.Later d.node.raft d'.node.raft := by
  rcases act_cases hc h with ⟨heffects, -, -⟩ | ⟨-, n, rd, hready, rfl⟩ |
    ⟨rd, storage, -, -, rfl⟩ | ⟨-, rd, -, rfl⟩
  · exact heffects.later
  · obtain ⟨-, -, -, -, hn⟩ := RawNode.ready_eq_ok hready
    show Raft.Later d.node.raft n.raft
    rw [hn]
    exact ⟨Nat.le_refl _, fun _ _ => rfl, Nat.le_refl _⟩
  · exact ⟨Nat.le_refl _, fun _ _ => rfl, Nat.le_refl _⟩
  · refine ⟨Nat.le_refl _, fun _ _ => rfl, ?_⟩
    show d.log.committed ≤ (RawNode.advanceLog d.log rd).committed
    rw [Ready.advanceLog_eq]

/-- Terms and indices of the source have 64 bits, and those of the log and of the message leave room:
for the term behind this one, and for as many indices as there are entries behind any of them. -/
def InRange (pack : ConfChange → Bytes) (d : Driver) (c : Call) : Prop :=
  d.node.raft.term + 1 < 2 ^ 64 ∧ (c.message pack d.node).term < 2 ^ 64 ∧
    ∀ i ∈ d.log.indices ++ (c.message pack d.node).indices,
      i + d.log.size + (c.message pack d.node).entries.length + 2 < 2 ^ 64

instance (d : Driver) (c : Call) : Decidable (InRange pack d c) :=
  inferInstanceAs (Decidable (_ ∧ _ ∧ ∀ i ∈ _, _))

/-- **Nothing goes back.**  Whatever the messages hold, as long as terms and indices stay in range, a
later state of a run has a later term, has not changed its vote within a term, and has a later commit
index; and in an orderly run of a node that was started from a consistent storage, what is applied is
committed, and what is committed is in the log. -/
theorem run_later (hrun : RunOf (Driver.act pack) (fun d c => c.Stamped ∧ InRange pack d c) d d') :
    (d.node.raft.term ≤ d'.node.raft.term ∧
      (d'.node.raft.term = d.node.raft.term → d.node.raft.vote ≠ 0 →
        d'.node.raft.vote = d.node.raft.vote) ∧
      d.log.committed ≤ d'.log.committed) ∧
    ∀ (c : Config) (n : RawNode), c.Consistent → Boots pack c n →
      RunOf (Driver.act pack) (fun d c => Orderly d c ∧ InRange pack d c) { node := n } d' →
        d'.log.applied ≤ d'.log.committed ∧ d'.log.committed ≤ d'.log.lastIndex := by
  constructor
  · have hlater : Raft.Later d.node.raft d'.node.raft := by
      refine hrun.invariant (I := fun s => Raft.Later d.node.raft s.node.raft) ?_ (Raft.Later.refl _)
      intro s c s' hs hc hact
      exact hs.trans (act_later hc.1 hact)
    exact ⟨hlater.term_le, hlater.vote_eq, hlater.committed_le⟩
  · intro c n hc hboots horderly
    have hsound : d'.Sound := by
      refine horderly.invariant (I := Driver.Sound) ?_ (sound_of_boots hc hboots)
      intro s call s' hs hcall hact
      exact hs.act hcall.1 hact
    exact ⟨hsound.log.applied_le, hsound.log.committed_le⟩

/-- A node that is the only one. -/
def loneConf : Config where
  id := 1
  electionTick := 10
  heartbeatTick := 1
  maxInflightMsgs := 1

def loneNode : RawNode :=
  (RawNode.start (fun _ => []) loneConf [{ id := 1 }]).toOption.get (by decide)

/-- The node applies the entry of its start, and then becomes the leader of term 2. -/
theorem run_later_lone : ∃ d : Driver,
    RunOf (Driver.act fun _ => []) (fun d c => Orderly d c ∧ InRange (fun _ => []) d c)
      { node := loneNode } d ∧
    d.node.raft.term = 2 ∧ d.log.applied = 2 ∧ loneNode.raft.term ≤ d.node.raft.term ∧
    d.log.applied ≤ d.log.committed ∧ d.log.committed ≤ d.log.lastIndex := by
  let calls : List Call := [Call.ready, Call.store, Call.advance, Call.campaign, Call.ready,
    Call.store, Call.advance]
  have hreached : ((calls.foldlM (RunOf.exec (Driver.act fun _ => [])
      fun d c => Orderly d c ∧ InRange (fun _ => []) d c) { node := loneNode }).toOption.any fun d =>
        decide (d.node.raft.term = 2 ∧ d.log.applied = 2)) = true := by
    decide +kernel
  obtain ⟨d, hd, hreached⟩ := (Option.any_eq_true ..).mp hreached
  obtain ⟨hterm, happlied⟩ := of_decide_eq_true hreached
  have hrun := RunOf.of_exec (Outcome.eq_ok_of_toOption hd)
  have hboots : Boots (fun _ => []) loneConf loneNode :=
    Or.inr ⟨_, Outcome.eq_ok_get (by decide)⟩
  obtain ⟨⟨hle, -, -⟩, hbounds⟩ := run_later (hrun.mono fun _ _ h => ⟨h.1.1, h.2⟩)
  exact ⟨d, hrun, hterm, happlied, hle,
    hbounds loneConf loneNode ⟨by decide, by decide, by decide⟩ hboots hrun⟩

/-- A node that has three entries, all of them committed. -/
def restartedConf : Config where
  id := 1
  peers := [1, 2]
  electionTick := 10
  heartbeatTick := 1
  maxInflightMsgs := 1
  storage :=
    { hardState := { term := 1, commit := 3 }
      entries := [{}, { term := 1, index := 1 }, { term := 1, index := 2 },
        { term := 1, index := 3 }] }

/-- An append request whose second entry has index 0: the log ends before the commit index. -/
theorem run_later_misnumbered : ∃ (n : RawNode) (d : Driver),
    restartedConf.Consistent ∧ Boots (fun _ => []) restartedConf n ∧
    RunOf (Driver.act fun _ => []) (fun d c => c.Stamped ∧ InRange (fun _ => []) d c)
      { node := n } d ∧
    d.log.committed = 3 ∧ d.log.lastIndex = 0 := by
  let n := (RawNode.restart restartedConf).toOption.get (by decide)
  let request : Message :=
    { type := MessageType.msgApp, fromId := 2, toId := 1, term := 1, index := 3, logTerm := 1,
      entries := [{ term := 2, index := 5 }, { term := 2 }] }
  have hreached : (([Call.step request].foldlM (RunOf.exec (Driver.act fun _ => [])
      fun d c => c.Stamped ∧ InRange (fun _ => []) d c) { node := n }).toOption.any fun d =>
        decide (d.log.committed = 3 ∧ d.log.lastIndex = 0)) = true := by
    decide +kernel
  obtain ⟨d, hd, hreached⟩ := (Option.any_eq_true ..).mp hreached
  exact ⟨n, d, ⟨by decide, by decide, by decide⟩, Or.inl (Outcome.eq_ok_get (by decide)),
    RunOf.of_exec (Outcome.eq_ok_of_toOption hd), of_decide_eq_true hreached⟩

end Driver

end RaftKv
