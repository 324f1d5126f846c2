import RaftKv.Driver.Driver
import RaftKv.Raft.StoredLog

/-!
# What a call does to the log

* `RaftLog.Move` — a change of the log that leaves the storage alone: the commit index moves, a batch
  is appended, or a snapshot replaces everything.
* `RaftLog.Sound` — the representation invariant, and **applied ≤ committed ≤ last index**.
* `RaftLog.Sound.move` — every move keeps it.
* `Raft.Effects.moves` — the effects of a call move the log, if append requests are numbered.
-/

namespace RaftKv

namespace RaftLog

inductive Move : RaftLog → RaftLog → Prop
  | commit {l l' : RaftLog} {i : Nat} (h : l.commitTo i = Except.ok l') : Move l l'
  | extend {l l' : RaftLog} {e : Entry} {es : List Entry} {last : Nat}
      (hnum : Numbered e.index (e :: es)) (hpos : 0 < e.index)
      (h : l.append (e :: es) = Except.ok (l', last)) : Move l l'
  | restore (l : RaftLog) {s : Snapshot} (h : l.committed < s.metadata.index) :
      Move l (l.restore s)

abbrev Moves : RaftLog → RaftLog → Prop := Relation.ReflTransGen Move

/-- **The invariant of a log.** -/
structure Sound (l : RaftLog) : Prop where
  wf : l.WF
  base_le : l.base ≤ l.committed
  committed_le : l.committed ≤ l.lastIndex
  applied_le : l.applied ≤ l.committed
  snapshot_le : l.storage.snapshot.metadata.index ≤ l.committed

variable {l l' : RaftLog}

/-! ## One move -/

lemma Move.storage (h : Move l l') : l'.storage = l.storage := by
  cases h with
  | commit h =>
      obtain ⟨rfl, -⟩ := commitTo_eq_ok h
      rfl
  | extend hnum hpos h =>
      rw [(append_unstable h).2]
  | restore => rfl

lemma Moves.storage (h : Moves l l') : l'.storage = l.storage := by
  induction h with
  | refl => rfl
  | tail _ hmove ih => exact hmove.storage.trans ih

lemma Move.applied (h : Move l l') : l'.applied = l.applied := by
  cases h with
  | commit h =>
      obtain ⟨rfl, -⟩ := commitTo_eq_ok h
      rfl
  | extend hnum hpos h =>
      rw [(append_unstable h).2]
  | restore => rfl

lemma Move.committed_le (h : Move l l') : l.committed ≤ l'.committed := by
  cases h with
  | commit hact =>
      obtain ⟨rfl, -⟩ := commitTo_eq_ok hact
      exact Nat.le_max_left ..
  | extend hnum hpos hact =>
      rw [(append_unstable hact).2]
  | restore hlt => exact hlt.le

lemma Moves.committed_le (h : Moves l l') : l.committed ≤ l'.committed := by
  induction h with
  | refl => exact Nat.le_refl _
  | tail _ hmove ih => exact ih.trans hmove.committed_le

namespace Sound

lemma commitTo (h : l.Sound) {i : Nat} (hact : l.commitTo i = Except.ok l') : l'.Sound := by
  obtain ⟨rfl, hi⟩ := commitTo_eq_ok hact
  have hbase := h.base_le
  have hlast := h.committed_le
  have happlied := h.applied_le
  have hsnapshot := h.snapshot_le
  refine ⟨⟨h.wf.stable, h.wf.unstable, h.wf.fits, h.wf.fits_snapshot⟩, ?_, ?_, ?_, ?_⟩
  · exact le_max_of_le_left hbase
  · show max l.committed i ≤ l.lastIndex
    omega
  · exact le_max_of_le_left happlied
  · exact le_max_of_le_left hsnapshot

lemma extend (h : l.Sound) {e : Entry} {es : List Entry} {last : Nat}
    (hnum : Numbered e.index (e :: es)) (hpos : 0 < e.index)
    (hact : l.append (e :: es) = Except.ok (l', last)) : l'.Sound := by
  obtain ⟨hwf, hcommitted, hend, hl', hsnapshot, hlogical, -⟩ :=
    append_eq_ok h.wf h.base_le hnum hpos hact
  have hstorage : l'.storage = l.storage := by rw [hl']
  have hcommit : l'.committed = l.committed := by rw [hl']
  have happlied : l'.applied = l.applied := by rw [hl']
  have hbase := (base_congr hstorage hsnapshot).1
  have hbl := h.base_le
  refine ⟨hwf, ?_, ?_, ?_, ?_⟩
  · rw [hbase, hcommit]
    exact hbl
  · rw [lastIndex_eq hwf, hlogical, hbase, hcommit, List.length_append, List.length_take,
      List.length_cons]
    have hlast := h.committed_le
    rw [lastIndex_eq h.wf] at hlast
    omega
  · rw [happlied, hcommit]
    exact h.applied_le
  · rw [hstorage, hcommit]
    exact h.snapshot_le

lemma restore (h : l.Sound) {s : Snapshot} (hs : l.committed < s.metadata.index) :
    (l.restore s).Sound := by
  have happlied := h.applied_le
  have hsnapshot := h.snapshot_le
  refine ⟨⟨h.wf.stable, Numbered.nil _, fun hn => ?_, fun s' hs' => ?_⟩, ?_, ?_, ?_, ?_⟩
  · cases hn
  · cases hs'
    rfl
  · exact Nat.le_refl _
  · exact Nat.le_refl _
  · exact happlied.trans hs.le
  · exact hsnapshot.trans hs.le

/-- **Every move keeps the invariant.** -/
theorem move (h : l.Sound) (hmove : Move l l') : l'.Sound := by
  cases hmove with
  | commit hact => exact h.commitTo hact
  | extend hnum hpos hact => exact h.extend hnum hpos hact
  | restore hs => exact h.restore hs

lemma moves (h : l.Sound) (hmoves : Moves l l') : l'.Sound := by
  induction hmoves with
  | refl => exact h
  | tail _ hmove ih => exact ih.move hmove

/-- **The entries that are handed out** follow the apply index, up to the commit index at most. -/
theorem nextEntries (h : l.Sound) : ∃ es, l.nextEntries = Except.ok es ∧
    es <+: (l.logical.drop (l.nextOffset - (l.base + 1))).take (l.committed + 1 - l.nextOffset) ∧
    Numbered l.nextOffset es ∧ es.length ≤ l.committed + 1 - l.nextOffset := by
  have hlow : l.base + 1 ≤ l.nextOffset := by
    rw [nextOffset, firstIndex_eq]
    exact Nat.le_max_right ..
  have hlast := h.committed_le
  rw [lastIndex_eq h.wf] at hlast
  have hnum : Numbered l.nextOffset
      ((l.logical.drop (l.nextOffset - (l.base + 1))).take (l.committed + 1 - l.nextOffset)) := by
    have hdrop := h.wf.numbered.drop (l.nextOffset - (l.base + 1))
    rw [show l.base + 1 + (l.nextOffset - (l.base + 1)) = l.nextOffset by omega] at hdrop
    exact hdrop.take _
  have hpre := entryLimitSize_isPrefix l.maxNextEntsSize
    ((l.logical.drop (l.nextOffset - (l.base + 1))).take (l.committed + 1 - l.nextOffset))
  rw [RaftLog.nextEntries]
  split
  · rename_i hlt
    rw [slice_eq h.wf l.maxNextEntsSize hlow (Nat.le_of_lt hlt) (by omega)]
    refine ⟨_, rfl, hpre, ?_, hpre.length_le.trans (List.length_take_le ..)⟩
    rw [List.prefix_iff_eq_take.mp hpre]
    exact hnum.take _
  · exact ⟨[], rfl, List.nil_prefix, Numbered.nil _, Nat.zero_le _⟩

end Sound

/-! ## The moves of an append request -/

lemma moves_maybeAppend {index logTerm committed : Nat} {es : List Entry} {res : Option Nat}
    (hnum : Numbered (index + 1) es)
    (h : l.maybeAppend index logTerm committed es = Except.ok (l', res)) : Moves l l' := by
  rcases maybeAppend_cases hnum h with ⟨-, rfl, -⟩ | ⟨-, -, l₁, hcommit, hcase⟩
  · exact Relation.ReflTransGen.refl
  · refine Relation.ReflTransGen.tail ?_ (Move.commit hcommit)
    rcases hcase with ⟨rfl, -⟩ | ⟨pre, e, post, last, rfl, -, -, -, happend⟩
    · exact Relation.ReflTransGen.refl
    · have hindex := hnum.drop pre.length
      rw [List.drop_left] at hindex
      have he := hindex.head
      refine Relation.ReflTransGen.single (Move.extend (he ▸ hindex) ?_ happend)
      omega

end RaftLog

namespace Raft

open RaftLog

variable {r r' : Raft} {m : Message}

lemma stampEntries_numbered (term n : Nat) (es : List Entry) :
    Numbered n (stampEntries term n es) := by
  induction es generalizing n with
  | nil => exact Numbered.nil n
  | cons e es ih => exact Numbered.cons rfl (ih (n + 1))

lemma increaseUncommittedSize_frame {es : List Entry} (h : r.increaseUncommittedSize es = some r') :
    r' = { r with uncommittedSize := r.uncommittedSize + payloadSum es } := by
  rw [increaseUncommittedSize] at h
  split at h
  · cases h
  · exact (Option.some.inj h).symm

/-- One effect moves the log. -/
lemma Effect.moves (hnum : m.type = MessageType.msgApp → Numbered (m.index + 1) m.entries)
    (h : Effect m r r') : Moves r.raftLog r'.raftLog := by
  cases h with
  | aside h =>
      simp only [ledger, Prod.mk.injEq] at h
      rw [h.2.2.2.2.1]
  | follow => exact Relation.ReflTransGen.refl
  | prepare => exact Relation.ReflTransGen.refl
  | stand => exact Relation.ReflTransGen.refl
  | lead => exact Relation.ReflTransGen.refl
  | vote => exact Relation.ReflTransGen.refl
  | refuse => exact Relation.ReflTransGen.refl
  | @propose _ es _ r₁ _ l last hlog =>
      have hstamped := stampEntries_numbered r.term (r.raftLog.lastIndex + 1) (r.admitted es).1
      rw [show stampEntries _ _ _ = r.stamped es from rfl] at hstamped
      show Moves r.raftLog l
      cases hes : r.stamped es with
      | nil =>
          rw [hes] at hlog
          cases hlog
          exact Relation.ReflTransGen.refl
      | cons e rest =>
          rw [hes] at hlog hstamped
          have he := hstamped.head
          refine Relation.ReflTransGen.single (Move.extend (he ▸ hstamped) ?_ hlog)
          omega
  | commit h => exact Relation.ReflTransGen.single (Move.commit h)
  | append hm _ _ _ hlog => exact moves_maybeAppend (hnum hm) hlog
  | restore hm _ hindex => exact Relation.ReflTransGen.single (Move.restore _ hindex)

/-- **The effects of a call move the log.** -/
theorem Effects.moves (hnum : m.type = MessageType.msgApp → Numbered (m.index + 1) m.entries)
    (h : Effects m r r') : Moves r.raftLog r'.raftLog := by
  induction h with
  | refl => exact Relation.ReflTransGen.refl
  | tail _ heffect ih => exact ih.trans (heffect.moves hnum)

end Raft

end RaftKv
