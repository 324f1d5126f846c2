import Mathlib.Data.List.TakeWhile
import RaftKv.Core.Run
import RaftKv.Raft.LogicalLog
import RaftKv.Server.RaftNode

/-!
# Publishing what is committed

What becomes of the committed entries that the `Ready`s of a process carry, batch after batch.

* `publishEntries_eq_ok` — the loop publishes what comes before the entry that removes the process's
  own node, and counts the entries whose payload it can read.
* `Publishable` — no entry of the batch removes the node, and the last one can be read.
* `published_iff` — **a batch is published completely exactly when it is publishable**.
* `publish_exactlyOnce` — **as long as all batches are publishable, every command is handed to the
  store once and in order**, and the next batch passes the check of `entries_to_apply`.
-/

namespace RaftKv

variable {codec : ConfChangeCodec} {s s' : RaftNode} {es : List Entry} {n : Nat}

/-- The entries that are handed to the store. -/
def commands (es : List Entry) : List Entry :=
  es.filter fun e => e.type == EntryType.entryNormal && e.data != []

lemma commands_append (es es' : List Entry) : commands (es ++ es') = commands es ++ commands es' :=
  List.filter_append ..

lemma commands_cons (e : Entry) (es : List Entry) : commands (e :: es) = commands [e] ++ commands es :=
  commands_append [e] es

/-- The entries that `read_commit` was called with. -/
def RaftNode.readCommits (s : RaftNode) : List Entry :=
  s.storeTasks.filterMap fun
    | StoreTask.readCommit e => some e
    | StoreTask.recoverFromSnapshot _ => none

/-- The payload of a configuration change does not unpack. -/
def Unreadable (codec : ConfChangeCodec) (e : Entry) : Prop :=
  e.type = EntryType.entryConfChange ∧ codec.unpack e.data = none

instance : DecidablePred (Unreadable codec) := fun _ => inferInstanceAs (Decidable (_ ∧ _))

/-- The entry removes the node `id`. -/
def RemovesNode (codec : ConfChangeCodec) (id : Nat) (e : Entry) : Prop :=
  e.type = EntryType.entryConfChange ∧ (codec.unpack e.data).any (fun cc =>
    cc.confChangeType == ConfChangeType.removeNode && cc.nodeId == id) = true

instance {id : Nat} : DecidablePred (RemovesNode codec id) :=
  fun _ => inferInstanceAs (Decidable (_ ∧ _))

/-- No entry of the batch removes the node, and its last entry can be read. -/
def Publishable (codec : ConfChangeCodec) (id : Nat) (es : List Entry) : Prop :=
  (∀ e ∈ es, ¬ RemovesNode codec id e) ∧ ∀ e ∈ es.getLast?, ¬ Unreadable codec e

instance {id : Nat} : Decidable (Publishable codec id es) := inferInstanceAs (Decidable (_ ∧ _))

/-! ## The apply index behind a batch -/

/-- The apply index after the entries `es`: unreadable ones leave it where it is. -/
def appliedAfter (codec : ConfChangeCodec) (a : Nat) (es : List Entry) : Nat :=
  es.foldl (fun a e => if Unreadable codec e then a else e.index) a

lemma appliedAfter_cons (a : Nat) (e : Entry) (es : List Entry) :
    appliedAfter codec a (e :: es) =
      appliedAfter codec (if Unreadable codec e then a else e.index) es := rfl

lemma appliedAfter_lt {a : Nat} (ha : a < n) (hnum : Numbered n es) :
    appliedAfter codec a es < n + es.length := by
  induction es generalizing a n with
  | nil => simpa [appliedAfter] using ha
  | cons e es ih =>
      have hlt : (if Unreadable codec e then a else e.index) < n + 1 := by
        have he := hnum.head
        split <;> omega
      have := ih hlt hnum.tail
      simp only [appliedAfter, List.foldl_cons, List.length_cons] at this ⊢
      omega

lemma appliedAfter_of_readable {a : Nat} {e : Entry} (he : es.getLast? = some e)
    (hread : ¬ Unreadable codec e) : appliedAfter codec a es = e.index := by
  obtain ⟨init, rfl⟩ := List.getLast?_eq_some_iff.mp he
  simp [appliedAfter, hread]

lemma appliedAfter_of_unreadable {a : Nat} {e : Entry} (ha : a < n) (hnum : Numbered n es)
    (he : es.getLast? = some e) (hread : Unreadable codec e) :
    appliedAfter codec a es < e.index := by
  have hlast := hnum.getLast he
  obtain ⟨init, rfl⟩ := List.getLast?_eq_some_iff.mp he
  have hinit : Numbered n init := by
    intro k e' hk
    exact hnum k e' (by rw [List.getElem?_append_left (List.getElem?_eq_some_iff.mp hk).1, hk])
  have hlt : appliedAfter codec a init < n + init.length := appliedAfter_lt ha hinit
  simp only [appliedAfter, List.foldl_append, List.foldl_cons, List.foldl_nil, hread,
    if_true] at hlt ⊢
  simp only [List.length_append, List.length_cons, List.length_nil] at hlast
  omega

/-! ## The loop -/

namespace RaftNode

@[simp] lemma readCommits_post_readCommit (s : RaftNode) (e : Entry) :
    (s.post (StoreTask.readCommit e)).readCommits = s.readCommits ++ [e] := by
  simp [readCommits, post]

@[simp] lemma id_setAppliedIndex (s : RaftNode) (index : Nat) :
    (s.setAppliedIndex index).id = s.id := rfl

@[simp] lemma appliedIndex_setAppliedIndex (s : RaftNode) (index : Nat) :
    (s.setAppliedIndex index).appliedIndex = index := rfl

@[simp] lemma readCommits_setAppliedIndex (s : RaftNode) (index : Nat) :
    (s.setAppliedIndex index).readCommits = s.readCommits := rfl

@[simp] lemma readCommits_call (s : RaftNode) (c : TransportCall) :
    (s.call c).readCommits = s.readCommits := rfl

@[simp] lemma id_publishNormal (s : RaftNode) (e : Entry) : (s.publishNormal e).id = s.id := by
  rw [publishNormal]
  split <;> rfl

lemma readCommits_publishNormal (s : RaftNode) {e : Entry} (he : e.type = EntryType.entryNormal) :
    (s.publishNormal e).readCommits = s.readCommits ++ commands [e] := by
  rw [publishNormal]
  split <;> simp_all [commands]

/-- A configuration change hands nothing to the store, and leaves the loop exactly when it removes
the node. -/
lemma publishConfChange_eq_ok {cc : ConfChange} {goOn : Bool}
    (h : s.publishConfChange cc = Except.ok (s', goOn)) :
    s'.id = s.id ∧ s'.readCommits = s.readCommits ∧ s'.appliedIndex = s.appliedIndex ∧
      (goOn = false ↔ cc.confChangeType = ConfChangeType.removeNode ∧ cc.nodeId = s.id) := by
  rw [publishConfChange] at h
  obtain ⟨⟨node, confState⟩, -, h⟩ := Outcome.bind_eq_ok.mp h
  dsimp only at h
  split at h
  · rename_i htype
    cases h
    split <;> simp [htype, call, readCommits]
  · rename_i htype
    split at h
    · rename_i hid
      cases h
      simp [htype, hid, readCommits]
    · rename_i hid
      cases h
      simp [htype, hid, call, readCommits]
  · rename_i hremove
    cases h
    exact ⟨rfl, rfl, rfl, by simp, fun h => absurd h.1 hremove⟩

/-- **What the loop publishes**: the entries before the one that removes the node. -/
theorem publishEntries_eq_ok {goOn : Bool}
    (h : s.publishEntries codec es = Except.ok (s', goOn)) :
    s'.id = s.id ∧
      s'.readCommits =
        s.readCommits ++ commands (es.takeWhile fun e => ¬ RemovesNode codec s.id e) ∧
      s'.appliedIndex =
        appliedAfter codec s.appliedIndex (es.takeWhile fun e => ¬ RemovesNode codec s.id e) := by
  induction es generalizing s with
  | nil =>
      cases h
      simp [commands, appliedAfter]
  | cons e es ih =>
      simp only [publishEntries] at h
      split at h
      · rename_i htype
        have hkeep : ¬ RemovesNode codec s.id e := by simp [RemovesNode, htype]
        have hread : ¬ Unreadable codec e := by simp [Unreadable, htype]
        obtain ⟨hid, hcommits, happlied⟩ := ih h
        simp only [id_setAppliedIndex, id_publishNormal, appliedIndex_setAppliedIndex,
          readCommits_setAppliedIndex] at hid hcommits happlied
        rw [List.takeWhile_cons_of_pos (by simpa using hkeep)]
        refine ⟨hid, ?_, ?_⟩
        · rw [hcommits, s.readCommits_publishNormal htype, List.append_assoc,
            ← commands_cons]
        · rw [happlied, appliedAfter_cons, if_neg hread]
      · rename_i htype
        have hcommand : commands [e] = [] := by simp [commands, htype]
        split at h
        · rename_i hunpack
          have hkeep : ¬ RemovesNode codec s.id e := by simp [RemovesNode, hunpack]
          have hread : Unreadable codec e := ⟨htype, hunpack⟩
          obtain ⟨hid, hcommits, happlied⟩ := ih h
          rw [List.takeWhile_cons_of_pos (by simpa using hkeep)]
          refine ⟨hid, ?_, ?_⟩
          · rw [hcommits, commands_cons e, hcommand, List.nil_append]
          · rw [happlied, appliedAfter_cons, if_pos hread]
        · rename_i cc hunpack
          have hread : ¬ Unreadable codec e := by simp [Unreadable, hunpack]
          obtain ⟨⟨s₁, goOn⟩, hchange, h⟩ := Outcome.bind_eq_ok.mp h
          obtain ⟨hid₁, hcommits₁, happlied₁, hgoOn⟩ := publishConfChange_eq_ok hchange
          have hiff : RemovesNode codec s.id e ↔ goOn = false := by
            rw [hgoOn]
            simp [RemovesNode, htype, hunpack]
          dsimp only at h
          split at h
          · rename_i hnext
            have hkeep : ¬ RemovesNode codec s.id e := by simp [hiff, hnext]
            obtain ⟨hid, hcommits, happlied⟩ := ih h
            simp only [id_setAppliedIndex, hid₁, appliedIndex_setAppliedIndex,
              readCommits_setAppliedIndex, hcommits₁] at hid hcommits happlied
            rw [List.takeWhile_cons_of_pos (by simpa using hkeep)]
            refine ⟨hid, ?_, ?_⟩
            · rw [hcommits, commands_cons e, hcommand, List.nil_append]
            · rw [happlied, appliedAfter_cons, if_neg hread]
          · rename_i hleave
            have hremove : RemovesNode codec s.id e := hiff.mpr (by simpa using hleave)
            cases h
            rw [List.takeWhile_cons_of_neg (by simpa using hremove)]
            exact ⟨hid₁, by simpa [commands] using hcommits₁, happlied₁⟩
      · cases h

/-! ## A batch -/

/-- The check of `entries_to_apply` takes a batch that begins right behind the apply index. -/
lemma entriesToApply_eq_ok (hnum : Numbered (s.appliedIndex + 1) es) :
    s.entriesToApply es = Except.ok es := by
  cases es with
  | nil => rfl
  | cons e es =>
      have he := hnum.head
      simp [entriesToApply, he, pure, Except.pure]

theorem publishCommitted_eq_ok (hnum : Numbered (s.appliedIndex + 1) es)
    (h : s.publishCommitted codec es = Except.ok s') :
    s'.id = s.id ∧
      s'.readCommits =
        s.readCommits ++ commands (es.takeWhile fun e => ¬ RemovesNode codec s.id e) ∧
      s'.appliedIndex =
        appliedAfter codec s.appliedIndex (es.takeWhile fun e => ¬ RemovesNode codec s.id e) := by
  rw [publishCommitted, entriesToApply_eq_ok hnum] at h
  split at h
  · rename_i hnil
    cases h
    simp [hnil, commands, appliedAfter]
  · rename_i hne
    simp only [Outcome.ok_bind, hne, if_false] at h
    obtain ⟨⟨s₁, goOn⟩, hloop, h⟩ := Outcome.bind_eq_ok.mp h
    cases h
    exact publishEntries_eq_ok hloop

/-- **A batch is published completely exactly when it is publishable**: the apply index is that of
its last entry, and the store was handed each of its commands once and in order. -/
theorem published_iff (hne : es ≠ []) (hnum : Numbered (s.appliedIndex + 1) es)
    (h : s.publishCommitted codec es = Except.ok s') :
    ((∀ e ∈ es.getLast?, s'.appliedIndex = e.index) ∧
        s'.readCommits = s.readCommits ++ commands es) ↔ Publishable codec s.id es := by
  obtain ⟨-, hcommits, happlied⟩ := publishCommitted_eq_ok hnum h
  obtain ⟨last, hlast⟩ := Option.ne_none_iff_exists'.mp (mt List.getLast?_eq_none_iff.mp hne)
  have hindex := hnum.getLast hlast
  by_cases hremove : ∀ e ∈ es, ¬ RemovesNode codec s.id e
  · have hall : es.takeWhile (fun e => ¬ RemovesNode codec s.id e) = es :=
      List.takeWhile_eq_self_iff.mpr fun e he => by simpa using hremove e he
    rw [hall] at hcommits happlied
    rw [Publishable, hlast, happlied, hcommits]
    simp only [Option.mem_def, Option.some.injEq, forall_eq', and_true]
    constructor
    · intro heq
      refine ⟨fun e he => hremove e he, fun hread => ?_⟩
      exact absurd heq (Nat.ne_of_lt
        (appliedAfter_of_unreadable (Nat.lt_succ_self _) hnum hlast hread))
    · rintro ⟨-, hread⟩
      exact appliedAfter_of_readable hlast hread
  · have hpre := List.takeWhile_prefix (l := es) (fun e => decide (¬ RemovesNode codec s.id e))
    have hlt : (es.takeWhile fun e => ¬ RemovesNode codec s.id e).length < es.length := by
      refine lt_of_le_of_ne hpre.length_le fun hlen => hremove fun e he => ?_
      have := List.takeWhile_eq_self_iff.mp (hpre.eq_of_length hlen) e he
      simpa using this
    constructor
    · rintro ⟨heq, -⟩
      have hkept : Numbered (s.appliedIndex + 1)
          (es.takeWhile fun e => ¬ RemovesNode codec s.id e) := by
        rw [List.prefix_iff_eq_take.mp hpre]
        exact hnum.take _
      have hlt : appliedAfter codec s.appliedIndex _ < _ :=
        appliedAfter_lt (Nat.lt_succ_self s.appliedIndex) hkept
      have := heq last hlast
      omega
    · rintro ⟨hnone, -⟩
      exact absurd hnone hremove

end RaftNode

/-! ## Batch after batch -/

/-- A process, and the committed entries that it was given. -/
structure Delivered where
  proc : RaftNode
  entries : List Entry := []

/-- A `Ready` with committed entries is dealt with, or the node of the process does something
else. -/
inductive Delivery where
  | batch (entries : List Entry)
  | work (node : RawNode)

namespace Delivered

def act (codec : ConfChangeCodec) (d : Delivered) : Delivery → Outcome Delivered
  | Delivery.batch es => do
      let proc ← d.proc.publishCommitted codec es
      return { proc := proc, entries := d.entries ++ es }
  | Delivery.work node => pure { d with proc := { d.proc with node := node } }

end Delivered

namespace Delivery

/-- The batches are consecutive, from `first` on. -/
def Consecutive (first : Nat) (d : Delivered) : Delivery → Prop
  | batch es => es ≠ [] ∧ Numbered (first + d.entries.length) es
  | work _ => True

instance (first : Nat) (d : Delivered) : (a : Delivery) → Decidable (Consecutive first d a)
  | batch _ => inferInstanceAs (Decidable (_ ∧ _))
  | work _ => inferInstanceAs (Decidable True)

/-- Every batch is publishable. -/
def IsPublishable (codec : ConfChangeCodec) (id : Nat) : Delivery → Prop
  | batch es => Publishable codec id es
  | work _ => True

instance (codec : ConfChangeCodec) (id : Nat) :
    (a : Delivery) → Decidable (IsPublishable codec id a)
  | batch _ => inferInstanceAs (Decidable (Publishable ..))
  | work _ => inferInstanceAs (Decidable True)

end Delivery

/-- Everything that was delivered has been published. -/
structure Delivered.Complete (s₀ : RaftNode) (d : Delivered) : Prop where
  id : d.proc.id = s₀.id
  numbered : Numbered (s₀.appliedIndex + 1) d.entries
  applied : d.proc.appliedIndex = s₀.appliedIndex + d.entries.length
  commits : d.proc.readCommits = s₀.readCommits ++ commands d.entries

namespace Delivered.Complete

variable {s₀ : RaftNode} {d d' : Delivered} {a : Delivery}

/-- The last entry that was delivered is the one at the apply index. -/
lemma applied_eq (h : d.Complete s₀) : ∀ e ∈ d.entries.getLast?, d.proc.appliedIndex = e.index := by
  intro e he
  have hpos : 0 < d.entries.length := List.length_pos_iff.mpr fun hnil => by simp [hnil] at he
  rw [h.numbered.getLast he, h.applied]
  omega

/-- The next batch begins right behind the apply index. -/
lemma next_numbered (h : d.Complete s₀)
    (hnext : Delivery.Consecutive (s₀.appliedIndex + 1) d (Delivery.batch es)) :
    Numbered (d.proc.appliedIndex + 1) es := by
  have hnum := hnext.2
  rw [Nat.add_right_comm, ← h.applied] at hnum
  exact hnum

/-- One step: a publishable batch is published completely. -/
theorem act (h : d.Complete s₀) (hnext : Delivery.Consecutive (s₀.appliedIndex + 1) d a)
    (hgood : Delivery.IsPublishable codec s₀.id a) (hact : d.act codec a = Except.ok d') :
    d'.Complete s₀ := by
  cases a with
  | batch es =>
      obtain ⟨proc, hpublish, hd⟩ := Outcome.bind_eq_ok.mp hact
      cases hd
      have hnum := h.next_numbered hnext
      have hgood' : Publishable codec d.proc.id es := h.id ▸ hgood
      obtain ⟨happlied, hcommits⟩ := (RaftNode.published_iff hnext.1 hnum hpublish).mpr hgood'
      obtain ⟨last, hlast⟩ := Option.ne_none_iff_exists'.mp (mt List.getLast?_eq_none_iff.mp hnext.1)
      refine ⟨?_, h.numbered.append hnext.2, ?_, ?_⟩
      · exact (RaftNode.publishCommitted_eq_ok hnum hpublish).1.trans h.id
      · have hlen : 0 < es.length := List.length_pos_iff.mpr hnext.1
        rw [happlied last hlast, hnum.getLast hlast, h.applied, List.length_append]
        omega
      · rw [hcommits, h.commits, commands_append, List.append_assoc]
  | work node =>
      cases hact
      exact ⟨h.id, h.numbered, h.applied, h.commits⟩

end Delivered.Complete

/-- **Every command is published once and in order**: in every run of consecutive batches that are
all publishable, the apply index is the index of the last entry, the store was handed every command,
and the next batch passes the check of `entries_to_apply`.  A batch that is not publishable is not
published completely. -/
theorem publish_exactlyOnce {s₀ : RaftNode} {d : Delivered}
    (hrun : RunOf (Delivered.act codec) (fun d a =>
      Delivery.Consecutive (s₀.appliedIndex + 1) d a ∧ Delivery.IsPublishable codec s₀.id a)
      { proc := s₀ } d) :
    (∀ e ∈ d.entries.getLast?, d.proc.appliedIndex = e.index) ∧
    d.proc.readCommits = s₀.readCommits ++ commands d.entries ∧
    ∀ es, Delivery.Consecutive (s₀.appliedIndex + 1) d (Delivery.batch es) →
      d.proc.entriesToApply es = Except.ok es ∧
      ∀ d', d.act codec (Delivery.batch es) = Except.ok d' →
        (((∀ e ∈ es.getLast?, d'.proc.appliedIndex = e.index) ∧
            d'.proc.readCommits = d.proc.readCommits ++ commands es) ↔
          Publishable codec s₀.id es) := by
  have h : d.Complete s₀ := by
    refine hrun.invariant (I := Delivered.Complete s₀) ?_ ?_
    · intro d a d' h ha hact
      exact h.act ha.1 ha.2 hact
    · exact ⟨rfl, Numbered.nil _, rfl, by simp [commands]⟩
  refine ⟨h.applied_eq, h.commits, fun es hnext => ?_⟩
  have hnum := h.next_numbered hnext
  refine ⟨RaftNode.entriesToApply_eq_ok hnum, fun d' hact => ?_⟩
  obtain ⟨proc, hpublish, hd⟩ := Outcome.bind_eq_ok.mp hact
  cases hd
  rw [← h.id]
  exact RaftNode.published_iff hnext.1 hnum hpublish

/-- Node 1 publishes the entries it was started with, and a command. -/
theorem publish_exactlyOnce_threeNodes : ∃ (n : RawNode) (d : Delivered),
    (ThreeNodes.start false).nodes 1 = some n ∧ d.proc.appliedIndex = 5 ∧
      d.proc.readCommits = commands d.entries ∧ d.proc.readCommits.length = 1 := by
  let joining := RawNode.bootstrapEntries ThreeNodes.codec.pack 1 (ThreeNodes.conf false).peers
  let acts : List Delivery := [Delivery.batch joining,
    Delivery.batch [{ term := 2, index := 4 }, { term := 2, index := 5, data := [1] }]]
  have hpublished : ((ThreeNodes.start false).nodes 1).any (fun n =>
      let s₀ : RaftNode := { id := 1, node := n, wal := Wal.openAt [] 0 {} }
      ((acts.foldlM (RunOf.exec (Delivered.act ThreeNodes.codec) fun d a =>
          Delivery.Consecutive (s₀.appliedIndex + 1) d a ∧
            Delivery.IsPublishable ThreeNodes.codec s₀.id a)
        { proc := s₀ }).toOption.any fun d =>
          decide (d.proc.appliedIndex = 5 ∧ d.proc.readCommits.length = 1))) = true := by
    decide
  obtain ⟨n, hn, hpublished⟩ := (Option.any_eq_true ..).mp hpublished
  obtain ⟨d, hd, hpublished⟩ := (Option.any_eq_true ..).mp hpublished
  obtain ⟨happlied, hlength⟩ := of_decide_eq_true hpublished
  obtain ⟨-, hcommits, -⟩ := publish_exactlyOnce (RunOf.of_exec (Outcome.eq_ok_of_toOption hd))
  exact ⟨n, d, hn, happlied, hcommits, hlength⟩

/-- A batch that ends in a configuration change that does not unpack: the next one is fatal. -/
theorem publish_unreadable : ∃ (n : RawNode) (d : Delivered),
    (ThreeNodes.start false).nodes 1 = some n ∧
    RunOf (Delivered.act ThreeNodes.codec) (Delivery.Consecutive 1)
      { proc := { id := 1, node := n, wal := Wal.openAt [] 0 {} } } d ∧
    Delivery.Consecutive 1 d (Delivery.batch [{ term := 2, index := 3 }]) ∧
    d.proc.entriesToApply [{ term := 2, index := 3 }] = Except.error (Crash.fatal
      "first index of committed entry[3] should <= progress.appliedIndex[1]+1") := by
  let acts : List Delivery := [Delivery.batch [{ term := 2, index := 1, data := [1] },
    { type := EntryType.entryConfChange, term := 2, index := 2, data := [0xc1] }]]
  have hstuck : ((ThreeNodes.start false).nodes 1).any (fun n =>
      ((acts.foldlM (RunOf.exec (Delivered.act ThreeNodes.codec) (Delivery.Consecutive 1))
        { proc := { id := 1, node := n, wal := Wal.openAt [] 0 {} } }).toOption.any fun d =>
          decide (d.proc.appliedIndex = 1 ∧ d.entries.length = 2))) = true := by
    decide
  obtain ⟨n, hn, hstuck⟩ := (Option.any_eq_true ..).mp hstuck
  obtain ⟨d, hd, hstuck⟩ := (Option.any_eq_true ..).mp hstuck
  obtain ⟨happlied, hlength⟩ := of_decide_eq_true hstuck
  refine ⟨n, d, hn, RunOf.of_exec (Outcome.eq_ok_of_toOption hd), ?_, ?_⟩
  · simp only [Delivery.Consecutive, hlength]
    decide
  · simp only [RaftNode.entriesToApply, happlied]
    rfl

end RaftKv
