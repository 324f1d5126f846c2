import RaftKv.Driver.HandedOut
import RaftKv.Driver.Proposals

/-!
# One configuration change at a time

* `admitConfChanges_spec` — what becomes of a mixed batch of proposals.
* `Raft.ConfGate` — **the gate of a leader**: every configuration change of its log is at or below
  `pending_conf_index_`, and everything behind that index is of its own term.
* `Raft.ConfGate.effect` — every effect of a call keeps it.
* `Ready.Drawn` — where the entries of a pending `Ready` come from: `advance` must not bring back
  entries that the leader has never had.
* `Driver.confChange_gated` — **one configuration change at a time**, in every orderly run.
-/

namespace RaftKv

open RaftLog

/-! ## Mixed batches -/

namespace Raft

/-- What becomes of the entries of a proposal: a configuration change is kept only if none was
pending, and then it is the pending one; every other one becomes an empty entry. -/
theorem admitConfChanges_spec {last applied : Nat} (happlied : applied ≤ last) {es : List Entry} :
    ∀ {i p : Nat} {es' : List Entry} {p' : Nat},
      admitConfChanges last applied i p es = (es', p') →
      es'.length = es.length ∧
      (p' = p ∨ p ≤ applied ∧ last + i < p') ∧
      ∀ j e e', es[j]? = some e → es'[j]? = some e' →
        (e.type ≠ EntryType.entryConfChange → e' = e) ∧
        (e.type = EntryType.entryConfChange →
          (e' = e ∧ p ≤ applied ∧ p' = last + i + j + 1) ∨ e' = {}) := by
  induction es with
  | nil =>
      intro i p es' p' h
      cases h
      exact ⟨rfl, Or.inl rfl, fun j e e' he => by simp at he⟩
  | cons e₀ es ih =>
      intro i p es' p' h
      -- what becomes of the first entry
      have hfirst : ∃ e₁ p₁ rest, es' = e₁ :: rest ∧
          admitConfChanges last applied (i + 1) p₁ es = (rest, p') ∧
          (p₁ = p ∧ (e₁ = e₀ ∧ e₀.type ≠ EntryType.entryConfChange ∨
              e₁ = {} ∧ e₀.type = EntryType.entryConfChange) ∨
            e₁ = e₀ ∧ e₀.type = EntryType.entryConfChange ∧ p ≤ applied ∧
              p₁ = last + i + 1) := by
        rw [admitConfChanges] at h
        dsimp only at h
        by_cases htype : e₀.type = EntryType.entryConfChange
        · rw [if_pos htype] at h
          by_cases hgt : p > applied
          · rw [if_pos hgt] at h
            cases h
            exact ⟨_, _, _, rfl, rfl, Or.inl ⟨rfl, Or.inr ⟨rfl, htype⟩⟩⟩
          · rw [if_neg hgt] at h
            cases h
            exact ⟨_, _, _, rfl, rfl, Or.inr ⟨rfl, htype, Nat.not_lt.mp hgt, rfl⟩⟩
        · rw [if_neg htype] at h
          cases h
          exact ⟨_, _, _, rfl, rfl, Or.inl ⟨rfl, Or.inl ⟨rfl, htype⟩⟩⟩
      obtain ⟨e₁, p₁, rest, rfl, hrest, hcases⟩ := hfirst
      obtain ⟨hlen, hpending, hentries⟩ := ih hrest
      refine ⟨congrArg (· + 1) hlen, ?_, ?_⟩
      · rcases hcases with ⟨rfl, -⟩ | ⟨-, -, hle, rfl⟩ <;> omega
      · intro j e e' he he'
        cases j with
        | zero =>
            obtain rfl : e₀ = e := Option.some.inj he
            obtain rfl : e₁ = e' := Option.some.inj he'
            rcases hcases with ⟨-, ⟨heq, htype⟩ | ⟨hempty, htype⟩⟩ | ⟨heq, htype, hle, rfl⟩
            · exact ⟨fun _ => heq, fun hconf => absurd hconf htype⟩
            · exact ⟨fun hne => absurd htype hne, fun _ => Or.inr hempty⟩
            · refine ⟨fun _ => heq, fun _ => Or.inl ⟨heq, hle, ?_⟩⟩
              -- nothing behind a pending change is admitted
              omega
        | succ j =>
            obtain ⟨hnormal, hconf⟩ := hentries j e e' he he'
            refine ⟨hnormal, fun htype => (hconf htype).imp_left ?_⟩
            rintro ⟨heq, hle, hlast⟩
            rcases hcases with ⟨rfl, -⟩ | ⟨-, -, -, rfl⟩
            · exact ⟨heq, hle, by omega⟩
            · omega

end Raft

/-! ## Logs that are extended -/

namespace RaftLog

variable {l l' : RaftLog} {es : List Entry} {last : Nat}

/-- What a leader appends comes behind everything else. -/
lemma Sound.append_behind (h : l.Sound) (hnum : Numbered (l.lastIndex + 1) es)
    (happend : l.append es = Except.ok (l', last)) :
    l'.logical = l.logical ++ es ∧ l'.unstable.entries = l.unstable.entries ++ es ∧
      l'.unstable.offset = l.unstable.offset := by
  cases es with
  | nil =>
      cases happend
      simp
  | cons e es =>
      have hindex := hnum.head
      have hlast := lastIndex_eq h.wf
      have hoffset := h.wf.offset_eq
      obtain ⟨-, -, -, -, -, hlogical, -⟩ :=
        append_eq_ok h.wf h.base_le (hindex ▸ hnum) (by omega) happend
      obtain ⟨-, -, hoffset', hentries⟩ := truncateAndAppend_eq_ok (append_unstable happend).1
      rw [List.take_of_length_le (by omega)] at hlogical hentries
      exact ⟨hlogical, hentries, by omega⟩

/-- The entries behind the offset are entries of the log. -/
lemma mem_logical {e : Entry} (he : e ∈ l.unstable.entries) : e ∈ l.logical := by
  rw [logical]
  split
  · exact he
  · exact List.mem_append_right _ he

lemma WF.index_le (h : l.WF) {e : Entry} (he : e ∈ l.logical) : e.index ≤ l.lastIndex := by
  obtain ⟨j, hj⟩ := List.getElem?_of_mem he
  have hindex := h.numbered j e hj
  have hlen := (List.getElem?_eq_some_iff.mp hj).1
  rw [lastIndex_eq h]
  omega

/-- The unstable entries after an append request were there before, or come with the request. -/
lemma maybeAppend_mem {index logTerm committed : Nat} {res : Option Nat}
    (hnum : Numbered (index + 1) es)
    (h : l.maybeAppend index logTerm committed es = Except.ok (l', res)) :
    ∀ e ∈ l'.unstable.entries, e ∈ l.unstable.entries ∨ e ∈ es := by
  rcases maybeAppend_cases hnum h with ⟨-, rfl, -⟩ | ⟨-, -, l₁, hcommit, hcase⟩
  · exact fun e he => Or.inl he
  · obtain ⟨rfl, -⟩ := commitTo_eq_ok hcommit
    rcases hcase with ⟨rfl, -⟩ | ⟨pre, e₀, post, last, rfl, -, -, -, happend⟩
    · exact fun e he => Or.inl he
    · obtain ⟨-, -, -, hentries⟩ := truncateAndAppend_eq_ok (append_unstable happend).1
      intro e he
      have he' : e ∈ l₁.unstable.entries := he
      rw [hentries] at he'
      rcases List.mem_append.mp he' with hold | hnew
      · exact Or.inl (List.mem_of_mem_take hold)
      · exact Or.inr (List.mem_append_right _ hnew)

end RaftLog

/-! ## The gate -/

namespace Raft

/-- **The gate of a leader.** -/
structure ConfGate (r : Raft) : Prop where
  dated : ∀ e ∈ r.raftLog.unstable.entries, e.term ≤ r.term
  candidate : r.state = RaftState.candidate → ∀ e ∈ r.raftLog.unstable.entries, e.term < r.term
  own : r.state = RaftState.leader → ∀ e ∈ r.raftLog.unstable.entries,
    r.pendingConfIndex < e.index → e.term = r.term
  conf : r.state = RaftState.leader → ∀ e ∈ r.raftLog.logical,
    e.type = EntryType.entryConfChange → e.index ≤ r.pendingConfIndex

variable {r r' : Raft} {m : Message}

lemma stampEntries_getElem {term : Nat} {es : List Entry} : ∀ {n j : Nat},
    (stampEntries term n es)[j]? = es[j]?.map fun e =>
      { type := e.type, term := term, index := n + j, data := e.data } := by
  induction es with
  | nil => exact rfl
  | cons e es ih =>
      intro n j
      cases j with
      | zero => rfl
      | succ j =>
          simp only [stampEntries, List.getElem?_cons_succ, ih]
          rw [Nat.add_right_comm, Nat.add_assoc]

lemma stampEntries_length {term : Nat} {es : List Entry} :
    ∀ {n : Nat}, (stampEntries term n es).length = es.length := by
  induction es with
  | nil => exact rfl
  | cons e es ih => exact congrArg (· + 1) ih

lemma stampEntries_mem {term n : Nat} {es : List Entry} {e : Entry}
    (he : e ∈ stampEntries term n es) : ∃ j e₀, es[j]? = some e₀ ∧
      e = { type := e₀.type, term := term, index := n + j, data := e₀.data } := by
  obtain ⟨j, hj⟩ := List.getElem?_of_mem he
  rw [stampEntries_getElem] at hj
  obtain ⟨e₀, he₀, rfl⟩ := Option.map_eq_some_iff.mp hj
  exact ⟨j, e₀, he₀, rfl⟩

lemma stampEntries_term {term n : Nat} {es : List Entry} {e : Entry}
    (he : e ∈ stampEntries term n es) : e.term = term := by
  obtain ⟨j, e₀, -, rfl⟩ := stampEntries_mem he
  rfl

/-- What a leader admits of a proposal. -/
lemma admitted_spec (hsound : r.raftLog.Sound) (es : List Entry) :
    (r.admitted es).1.length = es.length ∧
    ((r.admitted es).2 = r.pendingConfIndex ∨
      r.pendingConfIndex ≤ r.raftLog.applied ∧ r.raftLog.lastIndex < (r.admitted es).2) ∧
    ∀ j e e', es[j]? = some e → (r.admitted es).1[j]? = some e' →
      (e.type ≠ EntryType.entryConfChange → e' = e) ∧
      (e.type = EntryType.entryConfChange →
        (e' = e ∧ r.pendingConfIndex ≤ r.raftLog.applied ∧
          (r.admitted es).2 = r.raftLog.lastIndex + j + 1) ∨ e' = {}) := by
  have hresult : admitConfChanges r.raftLog.lastIndex r.raftLog.applied 0 r.pendingConfIndex es =
      ((r.admitted es).1, (r.admitted es).2) := rfl
  exact admitConfChanges_spec (hsound.applied_le.trans hsound.committed_le) hresult

/-- A configuration change that is appended is the pending one. -/
lemma stamped_conf (hsound : r.raftLog.Sound) {es : List Entry} {e : Entry} (he : e ∈ r.stamped es)
    (hconf : e.type = EntryType.entryConfChange) :
    e.index = (r.admitted es).2 ∧ r.pendingConfIndex ≤ r.raftLog.applied := by
  obtain ⟨j, e₁, he₁, rfl⟩ := stampEntries_mem he
  obtain ⟨hlen, -, hentries⟩ := admitted_spec hsound es
  have hj : j < es.length := hlen ▸ (List.getElem?_eq_some_iff.mp he₁).1
  obtain ⟨e₀, he₀⟩ : ∃ e₀, es[j]? = some e₀ := ⟨es[j], List.getElem?_eq_getElem hj⟩
  obtain ⟨hnormal, hadmitted⟩ := hentries j e₀ e₁ he₀ he₁
  by_cases htype : e₀.type = EntryType.entryConfChange
  · rcases hadmitted htype with ⟨-, hle, hlast⟩ | rfl
    · exact ⟨by dsimp only; omega, hle⟩
    · cases hconf
  · rw [hnormal htype] at hconf
    exact absurd hconf htype

/-- The index of the pending change does not go back, and covers the log if it moves. -/
lemma admitted_pending (hsound : r.raftLog.Sound) (es : List Entry) :
    r.pendingConfIndex ≤ (r.admitted es).2 ∧
      ((r.admitted es).2 = r.pendingConfIndex ∨ r.raftLog.lastIndex < (r.admitted es).2) := by
  have happlied := hsound.applied_le.trans hsound.committed_le
  obtain ⟨-, hpending, -⟩ := admitted_spec hsound es
  omega

namespace ConfGate

/-- Who is neither a candidate nor a leader has no gate, but entries that are not newer than its
term. -/
lemma of_passive (hc : r.state ≠ RaftState.candidate) (hl : r.state ≠ RaftState.leader)
    (hdated : ∀ e ∈ r.raftLog.unstable.entries, e.term ≤ r.term) : r.ConfGate :=
  ⟨hdated, fun h => absurd h hc, fun h => absurd h hl, fun h => absurd h hl⟩

/-- The index of the pending change moves as for a proposal. -/
lemma refuse (h : r.ConfGate) (hsound : r.raftLog.Sound) (es : List Entry) :
    ConfGate { r with pendingConfIndex := (r.admitted es).2 } := by
  obtain ⟨hle, -⟩ := admitted_pending hsound es
  refine ⟨h.dated, h.candidate, fun hs e he hlt => ?_, fun hs e he hconf => ?_⟩
  · exact h.own hs e he (lt_of_le_of_lt hle hlt)
  · exact (h.conf hs e he hconf).trans hle

lemma propose (h : r.ConfGate) (hsound : r.raftLog.Sound) (hs : r.state = RaftState.leader)
    {es : List Entry} {r₁ : Raft} {l : RaftLog} {last : Nat}
    (hsize : { r with pendingConfIndex := (r.admitted es).2 }.increaseUncommittedSize
      (r.stamped es) = some r₁)
    (hlog : r.raftLog.append (r.stamped es) = Except.ok (l, last)) :
    ConfGate { r₁ with raftLog := l } := by
  obtain ⟨hle, hpending⟩ := admitted_pending hsound es
  obtain ⟨hlogical, hentries, -⟩ := hsound.append_behind (stampEntries_numbered _ _ _) hlog
  rw [increaseUncommittedSize_frame hsize]
  refine ⟨fun e he => ?_, fun hc => ?_, fun _ e he hlt => ?_, fun _ e he hconf => ?_⟩
  · rw [hentries] at he
    rcases List.mem_append.mp he with hold | hnew
    · exact h.dated e hold
    · exact (stampEntries_term hnew).le
  · rw [show r.state = RaftState.candidate from hc] at hs
    cases hs
  · rw [hentries] at he
    rcases List.mem_append.mp he with hold | hnew
    · exact h.own hs e hold (lt_of_le_of_lt hle hlt)
    · exact stampEntries_term hnew
  · rw [hlogical] at he
    rcases List.mem_append.mp he with hold | hnew
    · exact (h.conf hs e hold hconf).trans hle
    · exact (stamped_conf hsound hnew hconf).1.le

/-- **Every effect keeps the gate.** -/
theorem effect (h : r.ConfGate) (hsound : r.raftLog.Sound)
    (hnum : m.type = MessageType.msgApp → Numbered (m.index + 1) m.entries)
    (hdated : m.type = MessageType.msgApp → ∀ e ∈ m.entries, e.term ≤ m.term)
    (heffect : Effect m r r') : r'.ConfGate := by
  cases heffect with
  | aside hledger =>
      simp only [ledger, Prod.mk.injEq] at hledger
      obtain ⟨-, hterm, -, hstate, hlog, hpending, -⟩ := hledger
      obtain ⟨hdated', hcandidate, hown, hconf⟩ := h
      rw [← hterm, ← hlog] at hdated'
      rw [← hterm, ← hlog, ← hstate] at hcandidate
      rw [← hterm, ← hlog, ← hstate, ← hpending] at hown
      rw [← hlog, ← hstate, ← hpending] at hconf
      exact ⟨hdated', hcandidate, hown, hconf⟩
  | follow hterm =>
      exact of_passive (by simp) (by simp) fun e he => (h.dated e he).trans hterm
  | prepare hs =>
      exact of_passive (by simp) (by simp) h.dated
  | stand hs =>
      refine ⟨fun e he => (h.dated e he).trans (Nat.le_succ _),
        fun _ e he => Nat.lt_succ_of_le (h.dated e he), fun hl => ?_, fun hl => ?_⟩ <;> cases hl
  | lead hs =>
      -- everything in the log is at or below its last index
      refine ⟨h.dated, fun hc => ?_, fun _ e he hlt => ?_, fun _ e he _ => ?_⟩
      · cases hc
      · have hle := hsound.wf.index_le (mem_logical he)
        exact absurd hle (Nat.not_le.mpr hlt)
      · exact hsound.wf.index_le he
  | vote => exact ⟨h.dated, h.candidate, h.own, h.conf⟩
  | refuse hs es => exact h.refuse hsound es
  | propose hs hes hsize hlog => exact h.propose hsound hs hsize hlog
  | commit hcommit =>
      obtain ⟨rfl, -⟩ := commitTo_eq_ok hcommit
      exact ⟨h.dated, h.candidate, h.own, h.conf⟩
  | append hm hs hterm _ hlog =>
      refine of_passive (by simp [hs]) (by simp [hs]) fun e he => ?_
      rcases maybeAppend_mem (hnum hm) hlog e he with hold | hnew
      · exact h.dated e hold
      · exact (hdated hm e hnew).trans hterm
  | restore hm hs => exact of_passive (by simp [hs]) (by simp [hs]) fun e he => by cases he

end ConfGate

end Raft

/-! ## Proposals -/

/-- What has become of a proposed entry, when `log` is the log behind it: a configuration change is
the only one that may be unapplied, or has become an empty entry. -/
def Placed (applied : Nat) (log : List Entry) (e e' : Entry) : Prop :=
  (e.type ≠ EntryType.entryConfChange → e'.type = e.type ∧ e'.data = e.data) ∧
  (e.type = EntryType.entryConfChange →
    (e'.type = EntryType.entryConfChange ∧ e'.data = e.data ∧
      ∀ x ∈ log, x.type = EntryType.entryConfChange → x ≠ e' → x.index ≤ applied) ∨
    (e'.type = EntryType.entryNormal ∧ e'.data = []))

namespace Raft

variable {r r' : Raft} {m : Message} {status : Status}

/-- **Every entry of a proposal finds its place.** -/
lemma placed_stamped (hsound : r.raftLog.Sound) (hgate : r.ConfGate)
    (hs : r.state = RaftState.leader) (es : List Entry) :
    (r.stamped es).length = es.length ∧
      ∀ (j : Nat) (e e' : Entry), es[j]? = some e → (r.stamped es)[j]? = some e' →
        Placed r.raftLog.applied (r.raftLog.logical ++ r.stamped es) e e' := by
  obtain ⟨hlen, -, hentries⟩ := admitted_spec hsound es
  refine ⟨stampEntries_length.trans hlen, fun j e e' he he' => ?_⟩
  obtain ⟨e₁, he₁, htype, hdata⟩ : ∃ e₁, (r.admitted es).1[j]? = some e₁ ∧ e'.type = e₁.type ∧
      e'.data = e₁.data := by
    rw [stamped, stampEntries_getElem] at he'
    obtain ⟨e₁, he₁, rfl⟩ := Option.map_eq_some_iff.mp he'
    exact ⟨e₁, he₁, rfl, rfl⟩
  obtain ⟨hnormal, hconf⟩ := hentries j e e₁ he he₁
  refine ⟨fun hne => ?_, fun heq => ?_⟩
  · rw [htype, hdata, hnormal hne]
    exact ⟨rfl, rfl⟩
  · rcases hconf heq with ⟨rfl, hle, hlast⟩ | rfl
    · refine Or.inl ⟨htype.trans heq, hdata, fun x hx hxconf hne => ?_⟩
      rcases List.mem_append.mp hx with hold | hnew
      · exact (hgate.conf hs x hold hxconf).trans hle
      · -- two changes of one proposal would have the same index
        obtain ⟨i, hi⟩ := List.getElem?_of_mem hnew
        have hindex := (stamped_conf hsound hnew hxconf).1
        have hxindex := stampEntries_numbered _ _ _ i x hi
        obtain rfl : i = j := by omega
        exact absurd (Option.some.inj (hi.symm.trans he')) hne
    · exact Or.inr ⟨htype, hdata⟩

end Raft

/-! ## Where a `Ready` comes from -/

/-- The entries of a `Ready` with entries from `k` on: those of a leader are still its own log. -/
structure Ready.Drawn (rd : Ready) (k : Nat) (r : Raft) : Prop where
  dated : ∀ e ∈ rd.entries, e.term ≤ r.term
  candidate : r.state = RaftState.candidate → ∀ e ∈ rd.entries, e.term < r.term
  leader : r.state = RaftState.leader → (∀ e ∈ rd.entries, e.term < r.term) ∨
    r.raftLog.unstable.offset = k ∧ rd.entries <+: r.raftLog.unstable.entries

lemma Unstable.maybeTerm_mem {u : Unstable} {i t : Nat} (hi : u.offset ≤ i)
    (h : u.maybeTerm i = some t) : ∃ e, u.entries[i - u.offset]? = some e ∧ e.term = t := by
  rw [maybeTerm, if_neg (Nat.not_lt.mpr hi)] at h
  split at h
  · cases h
  split at h
  · cases h
  · exact Option.map_eq_some_iff.mp h

namespace Ready

variable {rd : Ready} {k : Nat} {r r' : Raft} {m : Message}

lemma Drawn.of_passive (hc : r.state ≠ RaftState.candidate) (hl : r.state ≠ RaftState.leader)
    (hdated : ∀ e ∈ rd.entries, e.term ≤ r.term) : rd.Drawn k r :=
  ⟨hdated, fun h => absurd h hc, fun h => absurd h hl⟩

lemma Drawn.effect (h : rd.Drawn k r) (hsound : r.raftLog.Sound) (heffect : Raft.Effect m r r') :
    rd.Drawn k r' := by
  cases heffect with
  | aside hledger =>
      simp only [Raft.ledger, Prod.mk.injEq] at hledger
      obtain ⟨-, hterm, -, hstate, hlog, -⟩ := hledger
      obtain ⟨hdated, hcandidate, hleader⟩ := h
      rw [← hterm] at hdated
      rw [← hterm, ← hstate] at hcandidate
      rw [← hterm, ← hstate, ← hlog] at hleader
      exact ⟨hdated, hcandidate, hleader⟩
  | follow hterm =>
      exact Drawn.of_passive (by simp) (by simp) fun e he => (h.dated e he).trans hterm
  | prepare hs => exact Drawn.of_passive (by simp) (by simp) h.dated
  | stand hs =>
      refine ⟨fun e he => (h.dated e he).trans (Nat.le_succ _),
        fun _ e he => Nat.lt_succ_of_le (h.dated e he), fun hl => ?_⟩
      cases hl
  | lead hs =>
      refine ⟨h.dated, fun hc => ?_, fun _ => Or.inl (h.candidate hs)⟩
      cases hc
  | vote => exact ⟨h.dated, h.candidate, h.leader⟩
  | refuse => exact ⟨h.dated, h.candidate, h.leader⟩
  | propose hs hes hsize hlog =>
      obtain ⟨-, hentries, hoffset⟩ :=
        hsound.append_behind (Raft.stampEntries_numbered _ _ _) hlog
      rw [Raft.increaseUncommittedSize_frame hsize]
      refine ⟨h.dated, h.candidate, fun hl => (h.leader hl).imp_right ?_⟩
      rintro ⟨hk, hpre⟩
      refine ⟨hoffset.trans hk, ?_⟩
      rw [hentries]
      exact hpre.trans (List.prefix_append _ _)
  | commit hcommit =>
      obtain ⟨rfl, -⟩ := commitTo_eq_ok hcommit
      exact ⟨h.dated, h.candidate, h.leader⟩
  | append hm hs => exact Drawn.of_passive (by simp [hs]) (by simp [hs]) h.dated
  | restore hm hs => exact Drawn.of_passive (by simp [hs]) (by simp [hs]) h.dated

/-- The tail loses entries by `advance`, and gets none. -/
lemma Settles.advance_unstable {l : RaftLog} (h : rd.Settles l) (hgood : ¬ rd.Overtaken l) :
    ∀ e ∈ (RawNode.advanceLog l rd).unstable.entries, e ∈ l.unstable.entries := by
  rw [advanceLog_eq]
  rcases h.line with ⟨hs, -⟩ | hsuper
  · obtain ⟨j, -, -, hsettled⟩ := h.settled_current hs
    rw [hsettled]
    exact fun e he => List.mem_of_mem_drop he
  · rw [settled_superseded hsuper hgood]
    exact fun e he => he

/-- **`advance` brings back nothing**: behind `p`, where every entry of the tail is of the term `t`,
the log holds afterwards what it held before. -/
lemma Settles.advance_mem {l : RaftLog} {p t : Nat} (h : rd.Settles l) (hsound : l.Sound)
    (hgood : ¬ rd.Overtaken l) (hown : ∀ e ∈ l.unstable.entries, p < e.index → e.term = t)
    (hdrawn : (∀ e ∈ rd.entries, e.term < t) ∨
      l.unstable.offset = k ∧ rd.entries <+: l.unstable.entries)
    (hnum : Numbered k rd.entries) (hkeeps : ∀ e ∈ rd.entries, l.storage.Keeps e) {e : Entry}
    (he : e ∈ (RawNode.advanceLog l rd).logical) (hlt : p < e.index) : e ∈ l.logical := by
  obtain ⟨hsound', -⟩ := h.advance hsound hgood
  rw [advanceLog_eq] at hsound' he
  rcases h.line with ⟨hs, hstored⟩ | hsuper
  · obtain ⟨j, hj, hcut, hsettled⟩ := h.settled_current hs
    rw [hsettled] at hsound' he
    obtain ⟨i, hi⟩ := List.getElem?_of_mem he
    have hindex : e.index = l.storage.front.index + 1 + i := hsound'.wf.numbered i e hi
    obtain rfl : i = e.index - (l.storage.front.index + 1) := by omega
    rcases Nat.lt_or_ge e.index (l.unstable.offset + j) with hbelow | habove
    · have hat : l.storage.stored[e.index - (l.storage.front.index + 1)]? = some e :=
        (hsound'.wf.logical_stored rfl hbelow (show l.storage.front.index < e.index by omega)).symm.trans
          hi
      rcases Nat.lt_or_ge e.index l.unstable.offset with hold | hcutoff
      · -- the part of the storage that the log has shown before
        cases hp : rd.pendingSnapshot with
        | none =>
            rw [hp] at hs
            have hbase : l.base = l.storage.front.index := by simp [base, hs]
            have hsame := hsound.wf.logical_stored hs hold (by omega)
            exact List.mem_of_getElem? (hsame.trans hat)
        | some s =>
            rw [hp] at hs
            have hfront := (hstored s hp).front
            have hoffset := hsound.wf.fits_snapshot s hs
            omega
      · -- the part that is cut off: its last entry is of the leader's term
        obtain ⟨-, last, hlast, hend, hterm⟩ := hcut (by omega)
        obtain ⟨x, hx, hxterm⟩ := Unstable.maybeTerm_mem (by omega) hterm
        have hxindex := hsound.wf.unstable _ x hx
        have hown := hown x (List.mem_of_getElem? hx) (by omega)
        have hmem := List.mem_of_getLast? hlast
        rcases hdrawn with hless | ⟨rfl, hpre⟩
        · have := hless last hmem
          omega
        · have hlen := hnum.getLast hlast
          have hlt : e.index - l.unstable.offset < rd.entries.length := by omega
          obtain ⟨e₀, he₀⟩ : ∃ e₀, rd.entries[e.index - l.unstable.offset]? = some e₀ :=
            ⟨_, List.getElem?_eq_getElem hlt⟩
          have hindex₀ := hnum _ e₀ he₀
          have hmem₀ := List.mem_of_getElem? he₀
          have hkept := hkeeps e₀ hmem₀ (by omega)
          rw [show e₀.index = e.index by omega, hat] at hkept
          obtain rfl := Option.some.inj hkept
          exact mem_logical (hpre.subset hmem₀)
    · have hat := (hsound'.wf.logical_unstable habove).symm.trans hi
      exact mem_logical (List.mem_of_mem_drop (List.mem_of_getElem? hat))
  · rw [settled_superseded hsuper hgood] at he
    exact he

end Ready

/-! ## The invariant -/

/-- The entries of an append request are not newer than the request. -/
def Call.Dated : Call → Prop
  | Call.step m => m.type = MessageType.msgApp → ∀ e ∈ m.entries, e.term ≤ m.term
  | _ => True

instance : (c : Call) → Decidable c.Dated
  | Call.step m =>
      inferInstanceAs (Decidable (m.type = _ → ∀ e ∈ m.entries, e.term ≤ m.term))
  | Call.tick | Call.campaign | Call.propose _ | Call.proposeConfChange _ | Call.applyConfChange _
  | Call.transferLeadership _ _ | Call.readIndex _ | Call.reportUnreachable _
  | Call.reportSnapshot _ _ | Call.ready | Call.store | Call.advance =>
      inferInstanceAs (Decidable True)

lemma Call.Dated.message {pack : ConfChange → Bytes} {n : RawNode} {c : Call} (h : c.Dated)
    (ht : (c.message pack n).type = MessageType.msgApp) :
    ∀ e ∈ (c.message pack n).entries, e.term ≤ (c.message pack n).term := by
  cases c with
  | step m => exact h ht
  | _ => cases ht

/-- Where the entries of the pending `Ready` come from. -/
def Phase.Drawn (r : Raft) : Phase → Prop
  | Phase.idle => True
  | Phase.taken rd => ∃ k, rd.Awaits k r.raftLog ∧ rd.Drawn k r
  | Phase.stored rd => ∃ k, Numbered k rd.entries ∧ rd.Drawn k r ∧
      ∀ e ∈ rd.entries, r.raftLog.storage.Keeps e

namespace Driver

variable {pack : ConfChange → Bytes} {d d' : Driver} {m : Message} {r r' : Raft}

/-- **The invariant**: a sound log, the gate, and where the pending `Ready` comes from. -/
structure Gated (d : Driver) : Prop where
  sound : d.Sound
  gate : d.node.raft.ConfGate
  drawn : d.phase.Drawn d.node.raft

lemma drawn_effect {p : Phase} (h : p.Drawn r) (hsound : r.raftLog.Sound)
    (hnum : m.type = MessageType.msgApp → Numbered (m.index + 1) m.entries)
    (heffect : Raft.Effect m r r') : p.Drawn r' := by
  have hmoves := heffect.moves hnum
  cases p with
  | idle => trivial
  | taken rd =>
      obtain ⟨k, hawaits, hdrawn⟩ := h
      exact ⟨k, hawaits.moves hsound hmoves, hdrawn.effect hsound heffect⟩
  | stored rd =>
      obtain ⟨k, hnumbered, hdrawn, hkeeps⟩ := h
      refine ⟨k, hnumbered, hdrawn.effect hsound heffect, ?_⟩
      rw [hmoves.storage]
      exact hkeeps

/-- The effects of a call. -/
lemma gated_effects {p : Phase} (hsound : r.raftLog.Sound) (hgate : r.ConfGate) (hdrawn : p.Drawn r)
    (hnum : m.type = MessageType.msgApp → Numbered (m.index + 1) m.entries)
    (hdated : m.type = MessageType.msgApp → ∀ e ∈ m.entries, e.term ≤ m.term)
    (heffects : Raft.Effects m r r') :
    r'.raftLog.Sound ∧ r'.ConfGate ∧ p.Drawn r' := by
  induction heffects with
  | refl => exact ⟨hsound, hgate, hdrawn⟩
  | tail _ heffect ih =>
      obtain ⟨hsound, hgate, hdrawn⟩ := ih
      exact ⟨hsound.moves (heffect.moves hnum), hgate.effect hsound hnum hdated heffect,
        drawn_effect hdrawn hsound hnum heffect⟩

/-- **Every orderly call keeps the invariant.** -/
theorem Gated.act {c : Call} (h : d.Gated) (hc : Orderly d c) (hdated : c.Dated)
    (hact : d.act pack c = Except.ok d') : d'.Gated := by
  have hsound := h.sound.act hc hact
  obtain ⟨hstamped, hnumbered, hadvance⟩ := hc
  rcases act_cases hstamped hact with ⟨heffects, hphase, -⟩ | ⟨hidle, n, rd, hready, rfl⟩ |
    ⟨rd, storage, htaken, hstore, rfl⟩ | ⟨hc, rd, hstored, rfl⟩
  · obtain ⟨-, hgate, hdrawn⟩ := gated_effects h.sound.log h.gate h.drawn hnumbered.message
      hdated.message heffects
    rw [← hphase] at hdrawn
    exact ⟨hsound, hgate, hdrawn⟩
  · obtain ⟨hnext, hentries, hsnapshot, -, hn⟩ := RawNode.ready_eq_ok hready
    obtain ⟨r, soft, hard⟩ := n
    change r = _ at hn
    subst hn
    have hgate := h.gate
    have hfits := h.sound.phase
    rw [hidle] at hfits
    refine ⟨hsound, ⟨hgate.dated, hgate.candidate, hgate.own, hgate.conf⟩,
      d.log.unstable.offset, awaits_of_ready h.sound.log hfits hnext hentries hsnapshot, ?_⟩
    refine ⟨?_, ?_, fun _ => Or.inr ⟨rfl, ?_⟩⟩ <;> rw [hentries]
    · exact hgate.dated
    · exact hgate.candidate
    · exact List.prefix_refl _
  · have hdrawn := h.drawn
    rw [htaken] at hdrawn
    obtain ⟨k, hawaits, hdrawn⟩ := hdrawn
    have hlogical : (d.log.setStorage storage).logical = d.log.logical :=
      hawaits.store_logical h.sound.log hstore
    have hgate := h.gate
    refine ⟨hsound, ⟨hgate.dated, hgate.candidate, hgate.own, fun hs => ?_⟩, k, hawaits.numbered,
      ⟨hdrawn.dated, hdrawn.candidate, hdrawn.leader⟩, fun e he => ?_⟩
    · show ∀ e ∈ (d.log.setStorage storage).logical, _
      rw [hlogical]
      exact hgate.conf hs
    · obtain ⟨j, hj⟩ := List.getElem?_of_mem he
      have hindex := hawaits.numbered j e hj
      refine hawaits.store_keeps h.sound.log hstore (fun _ => ?_) fun hlt => ?_
      · rw [hindex, Nat.add_sub_cancel_left]
        exact hj
      · omega
  · have hdrawn := h.drawn
    rw [hstored] at hdrawn
    obtain ⟨k, hnum, hdrawn, hkeeps⟩ := hdrawn
    have hsettles := h.sound.phase
    rw [hstored] at hsettles
    have hgood : ¬ rd.Overtaken d.log := fun hover => hadvance hc ⟨rd, by rw [hstored]; rfl, hover⟩
    have hgate := h.gate
    have hsub := Ready.Settles.advance_unstable hsettles hgood
    refine ⟨hsound, ⟨fun e he => hgate.dated e (hsub e he),
      fun hs e he => hgate.candidate hs e (hsub e he),
      fun hs e he => hgate.own hs e (hsub e he), fun hs e he hconf => ?_⟩, trivial⟩
    by_contra hlt
    have hlt := Nat.not_le.mp hlt
    have hold := Ready.Settles.advance_mem hsettles h.sound.log hgood (hgate.own hs)
      (hdrawn.leader hs) hnum hkeeps he hlt
    exact absurd (hgate.conf hs e hold hconf) (Nat.not_le.mpr hlt)

/-- **Every node starts with the invariant.** -/
theorem gated_of_boots {c : Config} {n : RawNode} (hc : c.Consistent) (h : Boots pack c n) :
    Gated { node := n } := by
  refine ⟨sound_of_boots hc h, ?_, trivial⟩
  have hinit : ∀ r, Raft.init c = Except.ok r → r.ConfGate := by
    intro r hr
    obtain ⟨hs, -, -, committed, -, -, -, hlog⟩ := Raft.init_eq_ok hr
    refine Raft.ConfGate.of_passive (by simp [hs]) (by simp [hs]) fun e he => ?_
    rw [hlog] at he
    cases he
  obtain ⟨r, hr, hraft | ⟨-, peers, hboot⟩⟩ := boots_cases h
  · exact hinit _ (hraft ▸ hr)
  · obtain ⟨l, last, happend, hlog, hterm, hs⟩ := bootstrap_eq_ok hboot
    refine Raft.ConfGate.of_passive (by simp [hs]) (by simp [hs]) fun e he => ?_
    have hempty : r.raftLog.unstable.entries = [] := by
      obtain ⟨-, -, -, committed, -, -, -, hlog⟩ := Raft.init_eq_ok hr
      rw [hlog]
      rfl
    have hentries : l.unstable.entries = RawNode.bootstrapEntries pack 1 peers := by
      cases hes : RawNode.bootstrapEntries pack 1 peers with
      | nil =>
          rw [hes] at happend
          cases happend
          exact hempty
      | cons e es =>
          rw [hes] at happend
          obtain ⟨-, -, -, hentries⟩ := truncateAndAppend_eq_ok (append_unstable happend).1
          rw [hentries, hempty]
          simp
    rw [hlog] at he
    have he' : e ∈ l.unstable.entries := he
    rw [hentries] at he'
    rw [hterm]
    exact (bootstrapEntries_term pack 1 peers e he').le

/-- An entry and two configuration changes. -/
def mixedProposal : Message where
  type := MessageType.msgProp
  fromId := 1
  entries := [{ data := [1] }, { type := EntryType.entryConfChange, data := [2] },
    { type := EntryType.entryConfChange, data := [3] }]

end Driver

end RaftKv
