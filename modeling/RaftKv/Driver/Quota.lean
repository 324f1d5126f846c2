import Mathlib.Algebra.GroupWithZero.Nat
import RaftKv.Driver.Monotone
import RaftKv.Driver.Proposals

/-!
# The quota of uncommitted bytes

* `payloadSum_le`, `payloadSum_eq` — the 32-bit sum, and when it is the sum.
* `RaftLog.nextEntries_payload` — a batch that is handed out is too small to wrap.
* `Books`, `Books.act` — **a run with its books**: what was appended in this term and has not been
  handed out.
* `Books.Balanced` — `uncommitted_size_` is at most what is owed; every call keeps it.
* `Books.uncommitted_owed` — **the quota never gets stuck**.
-/

namespace RaftKv

open RaftLog

/-! ## Sums -/

/-- What the entries' payloads add up to. -/
def payloadTotal (es : List Entry) : Nat := (es.map Entry.payloadSize).sum

@[simp] lemma payloadTotal_nil : payloadTotal [] = 0 := rfl

@[simp] lemma payloadTotal_cons (e : Entry) (es : List Entry) :
    payloadTotal (e :: es) = e.payloadSize + payloadTotal es := by
  simp [payloadTotal]

@[simp] lemma payloadTotal_append (es es' : List Entry) :
    payloadTotal (es ++ es') = payloadTotal es + payloadTotal es' := by
  simp [payloadTotal]

namespace Raft

/-- The 32-bit sum, from a start value on. -/
lemma payloadSum_foldl (es : List Entry) (s : Nat) :
    es.foldl (fun s e => wrap32 (s + e.payloadSize)) s ≤ s + payloadTotal es ∧
      (s + payloadTotal es < 2 ^ 32 →
        es.foldl (fun s e => wrap32 (s + e.payloadSize)) s = s + payloadTotal es) := by
  induction es generalizing s with
  | nil => simp
  | cons e es ih =>
      obtain ⟨hle, heq⟩ := ih (wrap32 (s + e.payloadSize))
      have hwrap : wrap32 (s + e.payloadSize) ≤ s + e.payloadSize := Nat.mod_le _ _
      rw [payloadTotal_cons, List.foldl_cons]
      refine ⟨by omega, fun hlt => ?_⟩
      have hsame : wrap32 (s + e.payloadSize) = s + e.payloadSize := Nat.mod_eq_of_lt (by omega)
      rw [heq (by omega), hsame]
      omega

lemma payloadSum_le (es : List Entry) : payloadSum es ≤ payloadTotal es := by
  rw [payloadSum]
  simpa using (payloadSum_foldl es 0).1

lemma payloadSum_eq {es : List Entry} (h : payloadTotal es < 2 ^ 32) :
    payloadSum es = payloadTotal es := by
  rw [payloadSum]
  simpa using (payloadSum_foldl es 0).2 (by simpa using h)

end Raft

/-- Taking entries away takes at most their payloads away. -/
lemma payloadTotal_diff (es gone : List Entry) :
    payloadTotal es ≤ payloadTotal (es.diff gone) + payloadTotal gone := by
  induction gone generalizing es with
  | nil => simp
  | cons e gone ih =>
      rw [List.diff_cons, payloadTotal_cons]
      have hrest := ih (es.erase e)
      have herase : payloadTotal es ≤ payloadTotal (es.erase e) + e.payloadSize := by
        by_cases he : e ∈ es
        · have := (List.perm_cons_erase he).map Entry.payloadSize
          rw [payloadTotal, this.sum_nat]
          simp [payloadTotal, Nat.add_comm]
        · rw [List.erase_of_not_mem he]
          omega
      omega

/-! ## Batches -/

/-- The estimated size of an entry is not smaller than its payload. -/
lemma Entry.payloadSize_le {e : Entry} (h : e.data.length < 2 ^ 31) :
    e.payloadSize ≤ e.serializeSize := by
  have hpayload : e.payloadSize = e.data.length := Nat.mod_eq_of_lt (by omega)
  have hcode : ∀ d, u8SerializeSize d ≤ 2 := by
    intro d
    rw [u8SerializeSize]
    split <;> omega
  have hnumber : ∀ d, u64SerializeSize d ≤ 9 := by
    intro d
    rw [u64SerializeSize]
    repeat' split
    all_goals omega
  have hdata : e.data.length ≤ dataSerializeSize e.data.length ∧
      dataSerializeSize e.data.length ≤ e.data.length + 5 := by
    rw [dataSerializeSize]
    simp only [wrap32]
    repeat' split
    all_goals omega
  have := hcode e.type.code
  have := hnumber e.term
  have := hnumber e.index
  rw [Entry.serializeSize, hpayload, wrap32, Nat.mod_eq_of_lt (by omega)]
  omega

lemma payloadTotal_le {es : List Entry} (h : ∀ e ∈ es, e.data.length < 2 ^ 31) :
    payloadTotal es ≤ (es.map Entry.serializeSize).sum := by
  induction es with
  | nil => simp
  | cons e es ih =>
      rw [payloadTotal_cons, List.map_cons, List.sum_cons]
      exact Nat.add_le_add (Entry.payloadSize_le (h e (List.mem_cons_self ..)))
        (ih fun x hx => h x (List.mem_cons_of_mem _ hx))

/-- What is kept of a batch is a single entry, or within the limit. -/
lemma entryLimitSize_le (maxSize : Nat) (es : List Entry) :
    (entryLimitSize maxSize es).length ≤ 1 ∨
      ((entryLimitSize maxSize es).map Entry.serializeSize).sum ≤ maxSize := by
  have hafter : ∀ (es : List Entry) (size : Nat), limitAfter maxSize size es = [] ∨
      size + ((limitAfter maxSize size es).map Entry.serializeSize).sum ≤ maxSize := by
    intro es
    induction es with
    | nil => exact fun _ => Or.inl rfl
    | cons e es ih =>
        intro size
        rw [limitAfter]
        split
        · exact Or.inl rfl
        · rename_i hle
          right
          rw [List.map_cons, List.sum_cons]
          rcases ih (size + e.serializeSize) with hnil | hle'
          · rw [hnil]
            simp only [List.map_nil, List.sum_nil]
            omega
          · omega
  cases es with
  | nil => exact Or.inl (Nat.zero_le _)
  | cons e es =>
      rw [entryLimitSize, List.length_cons, List.map_cons, List.sum_cons]
      rcases hafter es e.serializeSize with hnil | hle
      · rw [hnil]
        exact Or.inl (Nat.le_refl _)
      · exact Or.inr hle

namespace RaftLog

variable {l : RaftLog} {es : List Entry}

lemma entriesOf_limited {storage : MemoryStorage} {low high maxSize : Nat}
    (h : storage.entriesOf low high maxSize = Except.ok (Except.ok es)) :
    ∃ xs, es = entryLimitSize maxSize xs := by
  rw [MemoryStorage.entriesOf] at h
  split at h
  · cases h
  dsimp only at h
  split at h
  · cases h
  split at h
  · cases h
  split at h
  · cases h
  · cases h
    exact ⟨_, rfl⟩

/-- Whatever the log is like, what is read of it was cut to the limit. -/
lemma slice_limited {low high maxSize : Nat}
    (h : l.slice low high maxSize = Except.ok (Except.ok es)) :
    es = [] ∨ ∃ xs, es = entryLimitSize maxSize xs := by
  rw [slice] at h
  obtain ⟨status, -, h⟩ := Outcome.bind_eq_ok.mp h
  split at h
  · cases h
  split at h
  · cases h
    exact Or.inl rfl
  dsimp only at h
  split at h
  · obtain ⟨stable, hstable, h⟩ := Outcome.bind_eq_ok.mp h
    cases stable with
    | error status => cases h
    | ok stable =>
        dsimp only at h
        split at h
        · cases h
          exact Or.inr (entriesOf_limited hstable)
        split at h
        · obtain ⟨tail, -, h⟩ := Outcome.bind_eq_ok.mp h
          cases h
          exact Or.inr ⟨_, rfl⟩
        · cases h
          exact Or.inr ⟨_, rfl⟩
  · rename_i hbehind
    obtain ⟨stable, hstable, h⟩ := Outcome.bind_eq_ok.mp h
    cases hstable
    dsimp only at h
    rw [if_neg fun hlow => hbehind hlow.1] at h
    split at h
    · obtain ⟨tail, -, h⟩ := Outcome.bind_eq_ok.mp h
      cases h
      exact Or.inr ⟨_, rfl⟩
    · cases h
      exact Or.inr ⟨_, rfl⟩

lemma nextEntries_limited (h : l.nextEntries = Except.ok es) :
    es.length ≤ 1 ∨ (es.map Entry.serializeSize).sum ≤ l.maxNextEntsSize := by
  rw [nextEntries] at h
  split at h
  · obtain ⟨res, hslice, h⟩ := Outcome.bind_eq_ok.mp h
    cases res with
    | error status => cases h
    | ok es' =>
        cases h
        rcases slice_limited hslice with rfl | ⟨xs, rfl⟩
        · exact Or.inl (Nat.zero_le _)
        · exact entryLimitSize_le _ _
  · cases h
    exact Or.inl (Nat.zero_le _)

/-- **A batch that is handed out is too small to wrap.** -/
lemma nextEntries_payload (hmax : l.maxNextEntsSize < 2 ^ 31)
    (hsmall : ∀ e ∈ es, e.data.length < 2 ^ 31) (h : l.nextEntries = Except.ok es) :
    payloadTotal es < 2 ^ 32 := by
  have hsum := payloadTotal_le hsmall
  rcases nextEntries_limited h with hone | hle
  · cases es with
    | nil => simp
    | cons e es =>
        have hnil : es = [] := List.length_eq_zero_iff.mp (by simpa using hone)
        have := Nat.mod_le e.data.length (2 ^ 32)
        have := hsmall e (List.mem_cons_self ..)
        rw [hnil, payloadTotal_cons, payloadTotal_nil, Entry.payloadSize, wrap32]
        omega
  · omega

end RaftLog

/-! ## Books -/

/-- A driver with its books. -/
structure Books where
  driver : Driver
  /-- What the leader has appended in its term and has not handed out. -/
  owed : List Entry := []

namespace Driver

/-- The entries that a call has put behind the log. -/
def appended (d d' : Driver) : List Entry :=
  d'.log.unstable.entries.filter fun e => d.log.lastIndex < e.index

/-- The entries that a call has handed out. -/
def handedOut (d d' : Driver) : List Entry :=
  (d'.handed.drop d.handed.length).flatMap Ready.committedEntries

/-- The leader of a term is still in office. -/
def Stays (d d' : Driver) : Prop :=
  d.node.raft.state = RaftState.leader ∧ d'.node.raft.term = d.node.raft.term

instance (d d' : Driver) : Decidable (Stays d d') := inferInstanceAs (Decidable (_ ∧ _))

end Driver

namespace Books

/-- The books behind a call: a new leader starts with nothing owed. -/
def after (b : Books) (d : Driver) : Books where
  driver := d
  owed :=
    if d.node.raft.state = RaftState.leader then
      ((if b.driver.Stays d then b.owed else []) ++ b.driver.appended d).diff (b.driver.handedOut d)
    else []

def act (pack : ConfChange → Bytes) (b : Books) (c : Call) : Outcome Books := do
  let d ← b.driver.act pack c
  return b.after d

end Books

/-! ## What effects do to the quota -/

namespace Raft

variable {r r' s : Raft} {m : Message}

/-- The empty entry of a new leader has no payload. -/
lemma stamped_empty (r : Raft) : payloadTotal (r.stamped [{}]) = 0 := rfl

/-- What of the quota is still used in `term`: only a leader of this term has used any. -/
def carried (r : Raft) (term : Nat) : Nat :=
  if r.state = RaftState.leader ∧ term = r.term then r.uncommittedSize else 0

/-- How the quota is used behind a chain of effects. -/
structure Booked (m : Message) (r r' : Raft) : Prop where
  last_le : m.type = MessageType.msgProp → r.raftLog.lastIndex ≤ r'.raftLog.lastIndex
  used_le : r'.state = RaftState.leader → r'.uncommittedSize ≤ r.carried r'.term +
    payloadTotal (r'.raftLog.unstable.entries.filter fun e => r.raftLog.lastIndex < e.index)

lemma Booked.refl (r : Raft) : Booked m r r := by
  refine ⟨fun _ => Nat.le_refl _, fun hs => ?_⟩
  rw [carried, if_pos ⟨hs, rfl⟩]
  exact Nat.le_add_right ..

lemma Booked.effect (h : Booked m r s) (heffect : Effect m s r') : Booked m r r' := by
  cases heffect with
  | aside hledger =>
      simp only [ledger, Prod.mk.injEq] at hledger
      obtain ⟨-, hterm, -, hstate, hlog, -, hused, -⟩ := hledger
      obtain ⟨hlast, hle⟩ := h
      rw [← hlog] at hlast
      rw [← hlog, ← hterm, ← hstate, ← hused] at hle
      exact ⟨hlast, hle⟩
  | follow hterm => exact ⟨h.last_le, fun hs => by cases hs⟩
  | prepare hs => exact ⟨h.last_le, fun hs => by cases hs⟩
  | stand hs => exact ⟨h.last_le, fun hs => by cases hs⟩
  | lead hs => exact ⟨h.last_le, fun _ => Nat.zero_le _⟩
  | vote => exact ⟨h.last_le, h.used_le⟩
  | refuse => exact ⟨h.last_le, h.used_le⟩
  | @propose hs es hes r₁ hsize l last hlog =>
      have hnum : Numbered (s.raftLog.lastIndex + 1) (s.stamped es) := stampEntries_numbered _ _ _
      obtain ⟨hentries, hlast⟩ := append_tail hnum hlog
      have hused := h.used_le hs
      rw [increaseUncommittedSize_frame hsize]
      refine ⟨fun hm => (h.last_le hm).trans hlast, fun _ => ?_⟩
      have hsum := payloadSum_le (s.stamped es)
      show s.uncommittedSize + payloadSum (s.stamped es) ≤ r.carried s.term +
        payloadTotal (l.unstable.entries.filter fun e => r.raftLog.lastIndex < e.index)
      rw [hentries, List.filter_append, payloadTotal_append]
      rcases hes with rfl | ⟨hm, -⟩
      · have := stamped_empty s
        omega
      · have hall : (s.stamped es).filter (fun e => r.raftLog.lastIndex < e.index) = s.stamped es := by
          refine List.filter_eq_self.mpr fun e he => ?_
          obtain ⟨j, hj⟩ := List.getElem?_of_mem he
          have := hnum j e hj
          have := h.last_le hm
          simp only [decide_eq_true_eq]
          omega
        rw [hall]
        omega
  | commit hcommit =>
      obtain ⟨rfl, -⟩ := commitTo_eq_ok hcommit
      exact ⟨h.last_le, h.used_le⟩
  | append hm hs =>
      refine ⟨fun hp => ?_, fun hl => ?_⟩
      · rw [hm] at hp
        cases hp
      · rw [show s.state = RaftState.leader from hl] at hs
        cases hs
  | restore hm hs =>
      refine ⟨fun hp => ?_, fun hl => ?_⟩
      · rw [hm] at hp
        cases hp
      · rw [show s.state = RaftState.leader from hl] at hs
        cases hs

lemma Effects.booked (h : Effects m r r') : Booked m r r' := by
  induction h with
  | refl => exact Booked.refl r
  | tail _ heffect ih => exact ih.effect heffect

end Raft

/-! ## The limit of a batch -/

namespace Raft

variable {r r' : Raft} {m : Message}

lemma Effect.limit (h : Effect m r r') :
    r'.raftLog.maxNextEntsSize = r.raftLog.maxNextEntsSize := by
  cases h with
  | aside h =>
      simp only [ledger, Prod.mk.injEq] at h
      rw [h.2.2.2.2.1]
  | propose _ _ _ hlog => rw [append_frame hlog]
  | commit hcommit =>
      obtain ⟨rfl, -⟩ := commitTo_eq_ok hcommit
      rfl
  | append _ _ _ _ hlog => rw [(maybeAppend_frame hlog).2]
  | _ => rfl

lemma Effects.limit (h : Effects m r r') :
    r'.raftLog.maxNextEntsSize = r.raftLog.maxNextEntsSize := by
  induction h with
  | refl => rfl
  | tail _ heffect ih => exact heffect.limit.trans ih

end Raft

/-! ## The invariant -/

namespace Books

variable {pack : ConfChange → Bytes} {b b' : Books}

/-- Every entry that was handed out is shorter than 2³¹ bytes. -/
def Short (b : Books) : Prop :=
  ∀ rd ∈ b.driver.handed, ∀ e ∈ rd.committedEntries, e.data.length < 2 ^ 31

/-- **The quota that is used is owed.** -/
structure Balanced (b : Books) : Prop where
  limit : b.driver.log.maxNextEntsSize < 2 ^ 31
  used : b.Short → b.driver.node.raft.state = RaftState.leader →
    b.driver.node.raft.uncommittedSize ≤ payloadTotal b.owed

/-- What is owed behind a call of a leader. -/
lemma owed_after {d : Driver} (hs : d.node.raft.state = RaftState.leader) :
    payloadTotal (if b.driver.Stays d then b.owed else []) + payloadTotal (b.driver.appended d) ≤
      payloadTotal (b.after d).owed + payloadTotal (b.driver.handedOut d) := by
  have hdiff := payloadTotal_diff ((if b.driver.Stays d then b.owed else []) ++ b.driver.appended d)
    (b.driver.handedOut d)
  rw [payloadTotal_append] at hdiff
  rw [after, if_pos hs]
  exact hdiff

/-- A call that hands out nothing. -/
lemma Balanced.after (h : b.Balanced) {d : Driver} (hhanded : d.handed = b.driver.handed)
    (hlimit : d.log.maxNextEntsSize = b.driver.log.maxNextEntsSize)
    (hused : d.node.raft.state = RaftState.leader → d.node.raft.uncommittedSize ≤
      b.driver.node.raft.carried d.node.raft.term + payloadTotal (b.driver.appended d)) :
    (b.after d).Balanced := by
  refine ⟨hlimit.trans_lt h.limit, fun hshort hs => ?_⟩
  have hshort' : b.Short := by
    rw [Short, ← hhanded]
    exact hshort
  have hnothing : b.driver.handedOut d = [] := by simp [Driver.handedOut, hhanded]
  have hs' : d.node.raft.state = RaftState.leader := hs
  have hle := hused hs'
  have howed := owed_after (b := b) hs'
  rw [hnothing, payloadTotal_nil] at howed
  show d.node.raft.uncommittedSize ≤ payloadTotal (b.after d).owed
  by_cases hstays : b.driver.Stays d
  · have hcarried : b.driver.node.raft.carried d.node.raft.term =
        b.driver.node.raft.uncommittedSize := if_pos hstays
    have := h.used hshort' hstays.1
    rw [if_pos hstays] at howed
    omega
  · have hcarried : b.driver.node.raft.carried d.node.raft.term = 0 := if_neg hstays
    omega

/-- A `Ready` is taken: its batch is subtracted as a whole. -/
lemma Balanced.hand (h : b.Balanced) {d : Driver} {rd : Ready}
    (hnext : b.driver.log.nextEntries = Except.ok rd.committedEntries)
    (hhanded : d.handed = b.driver.handed ++ [rd])
    (hraft : d.node.raft =
      ({ b.driver.node.raft with msgs := [] }).reduceUncommittedSize rd.committedEntries) :
    (b.after d).Balanced := by
  have hlog : d.log = b.driver.log := by
    rw [Driver.log, hraft]
    rfl
  have hstate : d.node.raft.state = b.driver.node.raft.state := by
    rw [hraft]
    rfl
  have hterm : d.node.raft.term = b.driver.node.raft.term := by
    rw [hraft]
    rfl
  have hreduced : d.node.raft.uncommittedSize =
      b.driver.node.raft.uncommittedSize - Raft.payloadSum rd.committedEntries := by
    rw [hraft]
    rfl
  refine ⟨hlog ▸ h.limit, fun hshort hs => ?_⟩
  have hs' : d.node.raft.state = RaftState.leader := hs
  have hmem : ∀ rd' ∈ b.driver.handed ++ [rd], ∀ e ∈ rd'.committedEntries, e.data.length < 2 ^ 31 := by
    rw [← hhanded]
    exact hshort
  have hused := h.used (fun rd' hrd' => hmem rd' (List.mem_append_left _ hrd'))
    (hstate.symm.trans hs')
  have hbatch : payloadTotal rd.committedEntries < 2 ^ 32 :=
    nextEntries_payload h.limit (hmem rd (List.mem_append_right _ (List.mem_singleton_self rd)))
      hnext
  have hsum := Raft.payloadSum_eq hbatch
  have hgone : b.driver.handedOut d = rd.committedEntries := by
    rw [Driver.handedOut, hhanded, List.drop_left]
    simp
  have howed := owed_after (b := b) hs'
  rw [hgone, if_pos ⟨hstate.symm.trans hs', hterm⟩] at howed
  show d.node.raft.uncommittedSize ≤ payloadTotal (b.after d).owed
  omega

/-- **Every call keeps the books balanced.** -/
theorem Balanced.act {c : Call} (h : b.Balanced) (hc : c.Stamped)
    (hact : b.act pack c = Except.ok b') : b'.Balanced := by
  obtain ⟨d, hd, hact⟩ := Outcome.bind_eq_ok.mp hact
  cases hact
  -- nothing changes but the log
  have hsame : ∀ {d : Driver}, d.node.raft.state = b.driver.node.raft.state →
      d.node.raft.term = b.driver.node.raft.term →
      d.node.raft.uncommittedSize = b.driver.node.raft.uncommittedSize →
      d.node.raft.state = RaftState.leader → d.node.raft.uncommittedSize ≤
        b.driver.node.raft.carried d.node.raft.term + payloadTotal (b.driver.appended d) := by
    intro d hstate hterm hused hs
    rw [Raft.carried, if_pos ⟨hstate.symm.trans hs, hterm⟩, hused]
    exact Nat.le_add_right ..
  rcases Driver.act_cases hc hd with ⟨heffects, -, hhanded⟩ | ⟨hidle, n, rd, hready, rfl⟩ |
    ⟨rd, storage, -, -, rfl⟩ | ⟨-, rd, -, rfl⟩
  · exact h.after hhanded heffects.limit heffects.booked.used_le
  · obtain ⟨hnext, -, -, -, hn⟩ := RawNode.ready_eq_ok hready
    exact h.hand hnext rfl hn
  · exact h.after rfl rfl (hsame rfl rfl rfl)
  · refine h.after rfl ?_ (hsame rfl rfl rfl)
    show (RawNode.advanceLog b.driver.log rd).maxNextEntsSize = b.driver.log.maxNextEntsSize
    rw [Ready.advanceLog_eq]

/-- **Every node starts with balanced books.** -/
theorem balanced_of_boots {c : Config} {n : RawNode} (h : Boots pack c n)
    (hmax : c.maxCommittedSizePerReady < 2 ^ 31) : Balanced { driver := { node := n } } := by
  have hinit : ∀ r, Raft.init c = Except.ok r →
      r.raftLog.maxNextEntsSize < 2 ^ 31 ∧ r.state = RaftState.follower := by
    intro r hr
    obtain ⟨hs, -, -, committed, -, -, -, hlog⟩ := Raft.init_eq_ok hr
    rw [hlog]
    exact ⟨hmax, hs⟩
  have hstart : n.raft.raftLog.maxNextEntsSize < 2 ^ 31 ∧ n.raft.state = RaftState.follower := by
    obtain ⟨r, hr, hraft | ⟨-, peers, hboot⟩⟩ := boots_cases h
    · exact hinit _ (hraft ▸ hr)
    · obtain ⟨l, last, happend, hlog, -, hs⟩ := bootstrap_eq_ok hboot
      refine ⟨?_, hs⟩
      rw [hlog]
      show l.maxNextEntsSize < 2 ^ 31
      rw [Raft.append_frame happend]
      exact (hinit r hr).1
  refine ⟨hstart.1, fun _ hs => ?_⟩
  rw [show n.raft.state = RaftState.leader from hs] at hstart
  cases hstart.2

/-- **The quota never gets stuck.**  Whatever a node is called with, a leader's `uncommitted_size_` is
at most what it has appended in its term and not handed out yet, if batches and payloads are shorter
than 2³¹ bytes; and an accepted proposal found nothing uncommitted, or stays within the quota. -/
theorem uncommitted_owed {c : Config} {n : RawNode} (hboots : Boots pack c n)
    (hmax : c.maxCommittedSizePerReady < 2 ^ 31)
    (hrun : RunOf (Books.act pack) (fun _ call => call.Stamped) { driver := { node := n } } b)
    (hshort : b.Short) (hs : b.driver.node.raft.state = RaftState.leader) :
    b.driver.node.raft.uncommittedSize ≤ payloadTotal b.owed ∧
    ∀ (call : Call) (d : Driver),
      (call.message pack b.driver.node).type = MessageType.msgProp →
      b.driver.act pack call = Except.ok d →
      d.log = b.driver.log ∨ b.driver.node.raft.uncommittedSize = 0 ∨
        d.node.raft.uncommittedSize ≤ b.driver.node.raft.maxUncommittedSize := by
  have hbalanced : b.Balanced :=
    hrun.invariant (fun s call s' h hcall hact => h.act hcall hact) (balanced_of_boots hboots hmax)
  refine ⟨hbalanced.used hshort hs, fun call d htype hact => ?_⟩
  rcases Driver.act_prop htype hact with hnode | ⟨status, hstep⟩
  · exact Or.inl (by rw [Driver.log, hnode, Driver.log])
  · rcases Raft.step_prop hs htype hstep with hsame | hprop
    · exact Or.inl hsame
    · exact (Raft.stepLeaderProp_cases hprop).imp_right And.right

/-- A proposal of three bytes is owed until it is handed out; the second one is dropped. -/
theorem uncommitted_owed_lone : ∃ b : Books,
    RunOf (Books.act fun _ => []) (fun _ call => call.Stamped) { driver := { node := Driver.loneNode } } b ∧
    b.driver.node.raft.state = RaftState.leader ∧ b.driver.node.raft.uncommittedSize = 3 ∧
    b.owed.map Entry.data = [[], [1, 2, 3]] ∧
    b.driver.node.raft.uncommittedSize ≤ payloadTotal b.owed ∧
    ∀ (call : Call) (d : Driver),
      (call.message (fun _ => []) b.driver.node).type = MessageType.msgProp →
      b.driver.act (fun _ => []) call = Except.ok d →
      d.log = b.driver.log ∨ b.driver.node.raft.uncommittedSize = 0 ∨
        d.node.raft.uncommittedSize ≤ b.driver.node.raft.maxUncommittedSize := by
  let calls : List Call := [Call.ready, Call.store, Call.advance, Call.campaign,
    Call.propose [1, 2, 3], Call.propose [4]]
  have hreached : ((calls.foldlM (RunOf.exec (Books.act fun _ => []) fun _ call => call.Stamped)
      { driver := { node := Driver.loneNode } }).toOption.any fun b =>
        decide (b.driver.node.raft.state = RaftState.leader ∧
          b.driver.node.raft.uncommittedSize = 3 ∧ b.owed.map Entry.data = [[], [1, 2, 3]] ∧
          ∀ rd ∈ b.driver.handed, ∀ e ∈ rd.committedEntries, e.data.length < 2 ^ 31)) = true := by
    decide
  obtain ⟨b, hb, hreached⟩ := (Option.any_eq_true ..).mp hreached
  obtain ⟨hs, hused, hdata, hshort⟩ := of_decide_eq_true hreached
  have hrun := RunOf.of_exec (Outcome.eq_ok_of_toOption hb)
  have hboots : Boots (fun _ => []) Driver.loneConf Driver.loneNode :=
    Or.inr ⟨_, Outcome.eq_ok_get (by decide)⟩
  exact ⟨b, hrun, hs, hused, hdata, uncommitted_owed hboots (by decide) hrun hshort hs⟩

end Books

end RaftKv
