import RaftKv.Raft.SnapshotSends

/-!
# Where entries come from

A node invents no entry but the empty one: whatever its log holds and its messages bring was
proposed to it, or was brought to it by a message.

* `RaftLog.held` — the entries of the two parts of a log.
* `Raft.Stems` — the entries of a log, and of the batches that were queued, are of a given kind.
* `Raft.Deed.stems` — **a deed keeps it**, if the call brings entries of this kind only.
* `Raft.step_handled` — **a proposal is dropped, forwarded once or appended once**.
-/

namespace RaftKv

/-! ## What a log holds -/

lemma Unstable.slice_subset {u : Unstable} {low high : Nat} {es : List Entry}
    (h : u.slice low high = Except.ok es) : es ⊆ u.entries := by
  rw [slice] at h
  split at h
  · cases h
  split at h
  · cases h
  rw [← Outcome.pure_eq_ok.mp h]
  exact List.Subset.trans (List.drop_subset _ _) (List.take_subset _ _)

namespace MemoryStorage

variable {s s' : MemoryStorage} {es : List Entry}

lemma entriesOf_subset {low high maxSize : Nat}
    (h : s.entriesOf low high maxSize = Except.ok (Except.ok es)) : es ⊆ s.entries := by
  rw [entriesOf] at h
  split at h
  · cases h
  dsimp only at h
  split at h
  · cases h
  split at h
  · cases h
  split at h
  · cases h
  cases h
  refine List.Subset.trans (entryLimitSize_isPrefix _ _).subset ?_
  exact List.Subset.trans (List.drop_subset _ _) (List.take_subset _ _)

lemma append_subset (h : s.append es = Except.ok s') : s'.entries ⊆ s.entries ++ es := by
  cases es with
  | nil =>
      cases Outcome.pure_eq_ok.mp h
      exact List.subset_append_left _ _
  | cons e es =>
      rw [append] at h
      dsimp only at h
      split at h
      · cases Outcome.pure_eq_ok.mp h
        exact List.subset_append_left _ _
      split at h
      · cases h
      rename_i e₁ es₁ hdrop
      split at h
      · cases h
      cases Outcome.pure_eq_ok.mp h
      refine List.append_subset.mpr ⟨?_, ?_⟩
      · exact List.Subset.trans (List.take_subset _ _) (List.subset_append_left _ _)
      · rw [← hdrop]
        exact List.Subset.trans (List.drop_subset _ _) (List.subset_append_right _ _)

end MemoryStorage

namespace RaftLog

variable {l l' : RaftLog} {es : List Entry}

/-- The entries of the two parts. -/
def held (l : RaftLog) : List Entry := l.storage.entries ++ l.unstable.entries

lemma logical_subset (l : RaftLog) : l.logical ⊆ l.held := by
  rw [logical]
  split
  · exact List.subset_append_right _ _
  · refine List.append_subset.mpr ⟨?_, List.subset_append_right _ _⟩
    refine List.Subset.trans (List.take_subset _ _) ?_
    exact List.Subset.trans (List.tail_subset _) (List.subset_append_left _ _)

lemma slice_subset {low high maxSize : Nat}
    (h : l.slice low high maxSize = Except.ok (Except.ok es)) : es ⊆ l.held := by
  obtain ⟨status, -, h⟩ := Outcome.bind_eq_ok.mp h
  dsimp only at h
  split at h
  · cases h
  split at h
  · cases h
    exact List.nil_subset _
  -- what follows the part of the storage
  have hjoin : ∀ {stable tail}, stable ⊆ l.storage.entries → tail ⊆ l.unstable.entries →
      entryLimitSize maxSize (stable ++ tail) ⊆ l.held := by
    intro stable tail hstable htail
    refine List.Subset.trans (entryLimitSize_isPrefix _ _).subset ?_
    exact List.append_subset.mpr ⟨List.subset_append_of_subset_left _ hstable,
      List.subset_append_of_subset_right _ htail⟩
  split at h
  · obtain ⟨stable, hstable, h⟩ := Outcome.bind_eq_ok.mp h
    cases stable with
    | error status => cases h
    | ok stable =>
        have hheld := MemoryStorage.entriesOf_subset hstable
        dsimp only at h
        split at h
        · cases h
          exact List.subset_append_of_subset_left _ hheld
        split at h
        · obtain ⟨tail, htail, h⟩ := Outcome.bind_eq_ok.mp h
          cases h
          exact hjoin hheld (Unstable.slice_subset htail)
        · cases h
          exact hjoin hheld (List.nil_subset _)
  · rename_i hbehind
    obtain ⟨stable, hstable, h⟩ := Outcome.bind_eq_ok.mp h
    cases hstable
    dsimp only at h
    rw [if_neg fun hlow => hbehind hlow.1] at h
    split at h
    · obtain ⟨tail, htail, h⟩ := Outcome.bind_eq_ok.mp h
      cases h
      exact hjoin (List.nil_subset _) (Unstable.slice_subset htail)
    · cases h
      exact hjoin (List.nil_subset _) (List.nil_subset _)

lemma entries_subset {index maxSize : Nat}
    (h : l.entries index maxSize = Except.ok (Except.ok es)) : es ⊆ l.held := by
  rw [entries] at h
  split at h
  · cases h
    exact List.nil_subset _
  · exact slice_subset h

lemma commitTo_held {toCommit : Nat} (h : l.commitTo toCommit = Except.ok l') :
    l'.held = l.held := by
  obtain ⟨rfl, -⟩ := commitTo_eq_ok h
  rfl

lemma append_held {last : Nat} (h : l.append es = Except.ok (l', last)) :
    l'.held ⊆ l.held ++ es := by
  cases es with
  | nil =>
      cases Outcome.pure_eq_ok.mp h
      exact List.subset_append_left _ _
  | cons e es =>
      obtain ⟨hu, hl'⟩ := append_unstable h
      obtain ⟨-, -, -, hentries⟩ := truncateAndAppend_eq_ok hu
      rw [hl', held, held, hentries]
      intro x hx
      simp only [List.mem_append] at hx ⊢
      rcases hx with hx | hx | hx
      · exact Or.inl (Or.inl hx)
      · exact Or.inl (Or.inr (List.mem_of_mem_take hx))
      · exact Or.inr hx

lemma appendNew_held {index : Nat} (h : l.appendNew index es = Except.ok l') :
    l'.held ⊆ l.held ++ es := by
  simp only [appendNew] at h
  split at h
  · cases Outcome.pure_eq_ok.mp h
    exact List.subset_append_left _ _
  split at h
  · cases h
  split at h
  · cases h
  obtain ⟨⟨l₁, last⟩, happend, h⟩ := Outcome.bind_eq_ok.mp h
  cases Outcome.pure_eq_ok.mp h
  refine List.Subset.trans (append_held happend) ?_
  refine List.append_subset.mpr ⟨List.subset_append_left _ _, ?_⟩
  exact List.Subset.trans (List.drop_subset _ _) (List.subset_append_right _ _)

lemma maybeAppend_held {index logTerm committed : Nat} {res : Option Nat}
    (h : l.maybeAppend index logTerm committed es = Except.ok (l', res)) :
    l'.held ⊆ l.held ++ es := by
  rw [maybeAppend] at h
  split at h
  · obtain ⟨l₁, hnew, h⟩ := Outcome.bind_eq_ok.mp h
    obtain ⟨l₂, hcommit, h⟩ := Outcome.bind_eq_ok.mp h
    cases h
    rw [commitTo_held hcommit]
    exact appendNew_held hnew
  · cases h
    exact List.subset_append_left _ _

lemma restore_held (l : RaftLog) (snap : Snapshot) : (l.restore snap).held ⊆ l.held := by
  refine List.append_subset.mpr ⟨List.subset_append_left _ _, ?_⟩
  exact List.nil_subset _

lemma setStorage_held {storage : MemoryStorage} (h : l.storage.append es = Except.ok storage) :
    (l.setStorage storage).held ⊆ l.held ++ es := by
  intro x hx
  rcases List.mem_append.mp hx with hx | hx
  · rcases List.mem_append.mp (MemoryStorage.append_subset h hx) with hx | hx
    · exact List.mem_append_left _ (List.mem_append_left _ hx)
    · exact List.mem_append_right _ hx
  · exact List.mem_append_left _ (List.mem_append_right _ hx)

end RaftLog

/-! ## Entries of a kind -/

section Kinds

variable {K K' : Entry → Prop} {m : Message}

/-- What a batch of the log brings is of the kind `K`. -/
def Message.Stems (K : Entry → Prop) (m : Message) : Prop :=
  m.type = MessageType.msgApp → ∀ e ∈ m.entries, K e

/-- What a proposal brings is of the kind `K`. -/
def Message.Proposes (K : Entry → Prop) (m : Message) : Prop :=
  m.type = MessageType.msgProp → ∀ e ∈ m.entries, K e

lemma Message.Stems.mono (h : m.Stems K) (hK : ∀ e, K e → K' e) : m.Stems K' :=
  fun ht e he => hK e (h ht e he)

lemma Message.Proposes.mono (h : m.Proposes K) (hK : ∀ e, K e → K' e) : m.Proposes K' :=
  fun ht e he => hK e (h ht e he)

namespace Raft

variable {r r' r'' : Raft} {es : List Entry}

/-- Numbering and stamping leave alone what an entry is about. -/
lemma mem_stampEntries {term n : Nat} {e : Entry} (he : e ∈ stampEntries term n es) :
    ∃ x ∈ es, e.type = x.type ∧ e.data = x.data := by
  induction es generalizing n with
  | nil => cases he
  | cons x es ih =>
      rcases List.mem_cons.mp he with rfl | he
      · exact ⟨x, List.mem_cons_self .., rfl, rfl⟩
      · obtain ⟨y, hy, hsame⟩ := ih he
        exact ⟨y, List.mem_cons_of_mem x hy, hsame⟩

/-- A configuration change that is not admitted becomes an empty entry. -/
lemma mem_admitConfChanges {lastIndex applied i pending : Nat} {e : Entry}
    (he : e ∈ (admitConfChanges lastIndex applied i pending es).1) : e = {} ∨ e ∈ es := by
  induction es generalizing i pending with
  | nil => cases he
  | cons x es ih =>
      have hrest : ∀ {i pending}, e ∈ (admitConfChanges lastIndex applied i pending es).1 →
          e = {} ∨ e ∈ x :: es :=
        fun he => (ih he).imp_right (List.mem_cons_of_mem x)
      have hhead : e = x → e = {} ∨ e ∈ x :: es := fun h => Or.inr (h ▸ List.mem_cons_self ..)
      rw [admitConfChanges] at he
      by_cases hchange : x.type = EntryType.entryConfChange
      · by_cases hpending : pending > applied
        · rw [if_pos hchange, if_pos hpending] at he
          exact (List.mem_cons.mp he).elim Or.inl hrest
        · rw [if_pos hchange, if_neg hpending] at he
          exact (List.mem_cons.mp he).elim hhead hrest
      · rw [if_neg hchange] at he
        exact (List.mem_cons.mp he).elim hhead hrest

/-- **What a leader appends is about nothing new.** -/
lemma mem_stamped {e : Entry} (he : e ∈ r.stamped es) :
    e.type = EntryType.entryNormal ∧ e.data = [] ∨ ∃ x ∈ es, e.type = x.type ∧ e.data = x.data := by
  obtain ⟨x, hx, htype, hdata⟩ := mem_stampEntries he
  rcases mem_admitConfChanges hx with rfl | hx
  · exact Or.inl ⟨htype, hdata⟩
  · exact Or.inr ⟨x, hx, htype, hdata⟩

/-- What the log of a node and the batches that it has queued bring. -/
structure Stems (K : Entry → Prop) (r : Raft) : Prop where
  log : ∀ e ∈ r.raftLog.held, K e
  msgs : ∀ msg ∈ r.msgs, msg.Stems K

lemma Stems.mono (h : r.Stems K) (hK : ∀ e, K e → K' e) : r.Stems K' where
  log e he := hK e (h.log e he)
  msgs msg hmsg := (h.msgs msg hmsg).mono hK

/-- Nothing is added to the log, and nothing is queued. -/
lemma Stems.same (h : r.Stems K) (hlog : r'.raftLog.held ⊆ r.raftLog.held)
    (hmsgs : r'.msgs = r.msgs) : r'.Stems K where
  log e he := h.log e (hlog he)
  msgs := hmsgs ▸ h.msgs

/-- Entries are added to the log. -/
lemma Stems.grow (h : r.Stems K) (hlog : r'.raftLog.held ⊆ r.raftLog.held ++ es)
    (hes : ∀ e ∈ es, K e) (hmsgs : r'.msgs = r.msgs) : r'.Stems K where
  log e he := (List.mem_append.mp (hlog he)).elim (h.log e) (hes e)
  msgs := hmsgs ▸ h.msgs

/-- A message is queued. -/
lemma Stems.push {msg : Message} (h : r.Stems K) (hlog : r'.raftLog = r.raftLog)
    (hmsgs : r'.msgs = r.msgs ++ [r.signed msg]) (hmsg : msg.Stems K) : r'.Stems K where
  log := hlog ▸ h.log
  msgs x hx := by
    rw [hmsgs] at hx
    rcases List.mem_append.mp hx with hx | hx
    · exact h.msgs x hx
    · rw [List.mem_singleton.mp hx]
      intro ht
      rw [signed_type] at ht
      rw [signed_entries]
      exact hmsg ht

/-- Apart from `maybe_send_append`, a call queues no batch. -/
lemma Posted.not_append {msg : Message} (h : Posted m r msg) : msg.type ≠ MessageType.msgApp := by
  intro ht
  cases h with
  | forward htype =>
      rcases htype with htype | htype | htype
      · cases htype.symm.trans ht
      · cases htype.symm.trans ht
      · cases htype.symm.trans ht
  | _ => cases ht

/-- **What a deed adds to the log** was made of the empty entry, of the entries of a proposal or of
a batch. -/
theorem Deed.stems (hnew : ∀ (s : Raft) es, es = [{}] ∨ m.type = MessageType.msgProp ∧
      es = m.entries → ∀ e ∈ s.stamped es, K e)
    (hbatch : m.Stems K) (h : Deed m r r') (hr : r.Stems K) : r'.Stems K := by
  cases h with
  | quiet h =>
      simp only [dossier, ledger, Prod.mk.injEq] at h
      obtain ⟨⟨-, -, -, -, hlog, -⟩, -, -, -, hmsgs, -⟩ := h
      exact hr.same (by rw [hlog]; exact List.Subset.refl _) hmsgs
  | post h => exact hr.push rfl rfl fun ht => absurd ht h.not_append
  | sendEntries _ _ _ hes =>
      exact hr.push rfl rfl fun _ e he => hr.log e (RaftLog.entries_subset hes he)
  | sendSnapshot => exact hr.push rfl rfl fun ht => by cases ht
  | propose _ hes hsize hlog =>
      rw [increaseUncommittedSize] at hsize
      split at hsize
      · cases hsize
      cases hsize
      exact hr.grow (RaftLog.append_held hlog) (hnew r _ hes) rfl
  | commit h => exact hr.same (RaftLog.commitTo_held h ▸ List.Subset.refl _) rfl
  | append hm _ _ _ hlog => exact hr.grow (RaftLog.maybeAppend_held hlog) (hbatch hm) rfl
  | restore _ _ _ _ hr' =>
      rw [hr']
      exact hr.same (RaftLog.restore_held _ _) rfl
  | _ => exact hr.same (List.Subset.refl _) rfl

theorem Deeds.stems (hnew : ∀ (s : Raft) es, es = [{}] ∨ m.type = MessageType.msgProp ∧
      es = m.entries → ∀ e ∈ s.stamped es, K e)
    (hbatch : m.Stems K) (h : Deeds m r r') (hr : r.Stems K) : r'.Stems K := by
  induction h with
  | refl => exact hr
  | tail _ hdeed ih => exact hdeed.stems hnew hbatch ih

/-- Without a proposal, nothing but empty entries is made. -/
theorem Deeds.stems_of_ne (hempty : ∀ e : Entry, e.type = EntryType.entryNormal → e.data = [] → K e)
    (ht : m.type ≠ MessageType.msgProp) (hbatch : m.Stems K) (h : Deeds m r r') (hr : r.Stems K) :
    r'.Stems K := by
  refine h.stems (fun s es hes e he => ?_) hbatch hr
  rcases hes with rfl | ⟨hprop, -⟩
  · rcases mem_stamped he with ⟨htype, hdata⟩ | ⟨x, hx, htype, hdata⟩
    · exact hempty e htype hdata
    · obtain rfl := List.mem_singleton.mp hx
      exact hempty e htype hdata
  · exact absurd hprop ht

/-! ## Proposals -/

/-- The messages that are queued behind the others; a proposal among them is forwarded. -/
def Forwards (m : Message) (r r' : Raft) : Prop :=
  ∃ sent, r'.msgs = r.msgs ++ sent ∧ ∀ x ∈ sent, x.type = MessageType.msgProp →
    m.type = MessageType.msgProp ∧ x.entries = m.entries

lemma Forwards.none (h : r'.msgs = r.msgs) : Forwards m r r' :=
  ⟨[], h.trans (List.append_nil _).symm, fun x hx => by cases hx⟩

lemma Forwards.post {msg : Message} (h : r'.msgs = r.msgs ++ [r.signed msg])
    (hmsg : msg.type = MessageType.msgProp →
      m.type = MessageType.msgProp ∧ msg.entries = m.entries) : Forwards m r r' := by
  refine ⟨_, h, fun x hx ht => ?_⟩
  obtain rfl := List.mem_singleton.mp hx
  rw [signed_type] at ht
  rw [signed_entries]
  exact hmsg ht

lemma Forwards.trans (h : Forwards m r r') (h' : Forwards m r' r'') : Forwards m r r'' := by
  obtain ⟨sent, hmsgs, hsent⟩ := h
  obtain ⟨sent', hmsgs', hsent'⟩ := h'
  refine ⟨sent ++ sent', ?_, fun x hx => ?_⟩
  · rw [hmsgs', hmsgs, List.append_assoc]
  · exact (List.mem_append.mp hx).elim (hsent x) (hsent' x)

theorem Deed.forwards (h : Deed m r r') : Forwards m r r' := by
  cases h with
  | quiet h =>
      simp only [dossier, ledger, Prod.mk.injEq] at h
      exact Forwards.none h.2.2.2.2.1
  | post h =>
      refine Forwards.post rfl fun ht => ?_
      cases h with
      | forward => exact ⟨ht, rfl⟩
      | _ => cases ht
  | sendEntries | sendSnapshot => exact Forwards.post rfl fun ht => by cases ht
  | propose _ _ hsize =>
      rw [increaseUncommittedSize] at hsize
      split at hsize
      · cases hsize
      cases hsize
      exact Forwards.none rfl
  | restore _ _ _ _ hr' =>
      rw [hr']
      exact Forwards.none rfl
  | _ => exact Forwards.none rfl

/-- **A proposal that a call queues is the one it was called with.** -/
theorem Deeds.forwards (h : Deeds m r r') : Forwards m r r' := by
  induction h with
  | refl => exact Forwards.none rfl
  | tail _ hdeed ih => exact ih.trans hdeed.forwards

/-- What is proposed stays of its kind. -/
lemma Forwards.proposes (h : Forwards m r r') (hm : m.Proposes K)
    (hr : ∀ msg ∈ r.msgs, msg.Proposes K) : ∀ msg ∈ r'.msgs, msg.Proposes K := by
  obtain ⟨sent, hmsgs, hsent⟩ := h
  intro msg hmsg
  rw [hmsgs] at hmsg
  rcases List.mem_append.mp hmsg with hmsg | hmsg
  · exact hr msg hmsg
  · intro ht
    obtain ⟨htype, hentries⟩ := hsent msg hmsg ht
    rw [hentries]
    exact hm htype

/-- What becomes of a proposal that carries no term. -/
inductive Handled (m : Message) (r r' : Raft) : Prop
  | dropped (hlog : r'.raftLog = r.raftLog) (hmsgs : r'.msgs = r.msgs)
  | forwarded (hlog : r'.raftLog = r.raftLog)
      (hmsgs : r'.msgs = r.msgs ++ [r.signed { m with toId := r.lead }])
  /-- It is appended once; what follows is the business of no message in particular. -/
  | appended {r₁ : Raft} {last : Nat}
      (hlog : r.raftLog.append (r.stamped m.entries) = Except.ok (r₁.raftLog, last))
      (hmsgs : r₁.msgs = r.msgs) (hrest : ∀ m', Deeds m' r₁ r')

lemma stepLeaderProp_handled {status : Status} (hs : r.state = RaftState.leader)
    (h : r.stepLeaderProp m = Except.ok (r', status)) : Handled m r r' := by
  rw [stepLeaderProp] at h
  split at h
  · cases h
  split at h
  · cases h
    exact Handled.dropped rfl rfl
  split at h
  · cases h
    exact Handled.dropped rfl rfl
  obtain ⟨⟨r₁, ok⟩, happend, h⟩ := Outcome.bind_eq_ok.mp h
  rw [appendEntry] at happend
  dsimp only at happend h
  split at happend
  · cases happend
    cases h
    exact Handled.dropped rfl rfl
  rename_i r₂ hsize
  obtain ⟨⟨l, last⟩, hlog, happend⟩ := Outcome.bind_eq_ok.mp happend
  dsimp only at happend
  split at happend
  · cases happend
  obtain ⟨⟨r₃, changed⟩, hcommit, happend⟩ := Outcome.bind_eq_ok.mp happend
  cases happend
  obtain ⟨r₄, hbcast, h⟩ := Outcome.bind_eq_ok.mp h
  cases h
  have hr₂ : r₂.raftLog = r.raftLog ∧ r₂.state = r.state ∧ r₂.msgs = r.msgs := by
    rw [increaseUncommittedSize] at hsize
    split at hsize
    · cases hsize
    · cases hsize
      exact ⟨rfl, rfl, rfl⟩
  obtain ⟨hlog₂, hs₂, hmsgs₂⟩ := hr₂
  rw [hlog₂] at hlog
  obtain rfl := append_last hlog
  have hrest : ∀ m', Deeds m' { r₂ with raftLog := l } r' := fun m' =>
    Relation.ReflTransGen.head (Deed.own _ (hs₂.trans hs))
      ((Deeds.maybeCommit hcommit).trans (Asides.bcastAppend hbcast).deeds)
  exact @Handled.appended m r r' { r₂ with raftLog := l } _ hlog hmsgs₂ hrest

/-- **A proposal is dropped, forwarded once or appended once.** -/
theorem step_handled {status : Status} (hm : m.type = MessageType.msgProp) (hterm : m.term = 0)
    (h : r.step m = Except.ok (r', status)) : Handled m r r' := by
  obtain ⟨⟨r₁, continues⟩, hcheck, h⟩ := Outcome.bind_eq_ok.mp h
  rw [checkTerm, if_pos hterm] at hcheck
  cases Outcome.pure_eq_ok.mp hcheck
  simp only [hm, not_true_eq_false, if_false] at h
  rw [stepRole] at h
  split at h
  · simp only [stepFollower, hm] at h
    split at h
    · cases h
      exact Handled.dropped rfl rfl
    split at h
    · cases h
      exact Handled.dropped rfl rfl
    obtain ⟨r₂, hsend, h⟩ := Outcome.bind_eq_ok.mp h
    cases h
    rw [(send_eq_ok hsend).1]
    exact Handled.forwarded rfl rfl
  · simp only [stepCandidate, hm] at h
    cases h
    exact Handled.dropped rfl rfl
  · simp only [stepCandidate, hm] at h
    cases h
    exact Handled.dropped rfl rfl
  · rename_i hs
    simp only [stepLeader, hm] at h
    exact stepLeaderProp_handled hs h

end Raft

end Kinds

end RaftKv
