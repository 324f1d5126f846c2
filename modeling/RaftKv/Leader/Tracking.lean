import RaftKv.Driver.LogMoves

/-!
# What a leader knows of its peers

Sending moves `next` forward, answers move `match_` forward and `next` either way, and a snapshot
moves it past what was compacted.

* `Progress.Fits` — the indices of a peer are in order and inside the log, and its window is not
  overfull.
* `Progress.Answered.fits`, `Progress.Fits.afterSending` — what answers and sending keep.
* `Raft.Tracks` — **the invariant**: the peers of a candidate or leader fit its log, and so do the
  append requests that it has sent in its term.
* `Raft.Deed.tracks` — every deed keeps it; `Raft.step_tracks` — so does an answer, unless it
  acknowledges what the log does not hold, or is a stale rejection of a probe.
* `Raft.step_answers` — an answer accepts the whole request, or names what its sender had committed.
* `Raft.Deeds.reigns` — while a leader stays in office, what its peers have acknowledged never
  shrinks.
-/

namespace RaftKv

namespace InFlights

variable {f f' : InFlights} {n : Nat}

lemma freeTo_le (h : f.freeTo n = Except.ok f') : f'.size = f.size ∧ f'.count ≤ f.count := by
  rw [freeTo] at h
  split at h
  · cases h
    exact ⟨rfl, Nat.le_refl _⟩
  split at h
  · cases h
  split at h
  · cases h
    exact ⟨rfl, Nat.le_refl _⟩
  · obtain ⟨⟨idx, i⟩, -, h⟩ := Outcome.bind_eq_ok.mp h
    cases h
    exact ⟨rfl, Nat.sub_le ..⟩

lemma freeFirstOne_le (h : f.freeFirstOne = Except.ok f') :
    f'.size = f.size ∧ f'.count ≤ f.count := by
  rw [freeFirstOne] at h
  split at h
  · cases h
  · exact freeTo_le h

lemma add_le (h : f.add n = Except.ok f') (hle : f.count ≤ f.size) :
    f'.size = f.size ∧ f'.count ≤ f.size := by
  rw [add] at h
  split at h
  · cases h
  rename_i hopen
  have hne : f.size ≠ f.count := by simpa [isFull] using hopen
  dsimp only at h
  split_ifs at h
  all_goals
    cases h
    exact ⟨rfl, by dsimp only; omega⟩

end InFlights

/-! ## One peer -/

namespace Progress

/-- The indices of a peer are in order, and inside a log that ends at `last`; its window, of the given
size, is not overfull. -/
structure Fits (last size : Nat) (p : Progress) : Prop where
  matched_lt : p.matched < p.next
  next_le : p.next ≤ last + 1
  pending_le : p.pendingSnapshot ≤ last
  size_eq : p.inflights.size = size
  count_le : p.inflights.count ≤ size

variable {last size : Nat} {p p' : Progress} {m : Message}

namespace Fits

lemma mono {last' : Nat} (h : p.Fits last size) (hle : last ≤ last') : p.Fits last' size := by
  have hnext := h.next_le
  exact ⟨h.matched_lt, by omega, h.pending_le.trans hle, h.size_eq, h.count_le⟩

/-- Only the flags are different. -/
lemma flags {paused recentActive isLearner : Bool} (h : p.Fits last size) :
    Fits last size
      { p with paused := paused, recentActive := recentActive, isLearner := isLearner } :=
  ⟨h.matched_lt, h.next_le, h.pending_le, h.size_eq, h.count_le⟩

lemma window {f : InFlights} (h : p.Fits last size) (hsize : f.size = p.inflights.size)
    (hcount : f.count ≤ size) : Fits last size { p with inflights := f } :=
  ⟨h.matched_lt, h.next_le, h.pending_le, hsize.trans h.size_eq, hcount⟩

lemma becomeReplicate (h : p.Fits last size) : p.becomeReplicate.Fits last size := by
  have hlt := h.matched_lt
  have hle := h.next_le
  refine ⟨Nat.lt_succ_self _, ?_, Nat.zero_le _, h.size_eq, Nat.zero_le _⟩
  show p.matched + 1 ≤ last + 1
  omega

lemma becomeProbe (h : p.Fits last size) : p.becomeProbe.Fits last size := by
  have hlt := h.matched_lt
  have hle := h.next_le
  have hpending := h.pending_le
  rw [Progress.becomeProbe]
  split
  · refine ⟨?_, ?_, Nat.zero_le _, h.size_eq, Nat.zero_le _⟩
    · show p.matched < max (p.matched + 1) (p.pendingSnapshot + 1)
      omega
    · show max (p.matched + 1) (p.pendingSnapshot + 1) ≤ last + 1
      omega
  · refine ⟨Nat.lt_succ_self _, ?_, Nat.zero_le _, h.size_eq, Nat.zero_le _⟩
    show p.matched + 1 ≤ last + 1
    omega

lemma becomeSnapshot {i : Nat} (h : p.Fits last size) (hi : i ≤ last) :
    (p.becomeSnapshot i).Fits last size :=
  ⟨h.matched_lt, h.next_le, hi, h.size_eq, Nat.zero_le _⟩

lemma snapshotFailure (h : p.Fits last size) : p.snapshotFailure.Fits last size :=
  ⟨h.matched_lt, h.next_le, Nat.zero_le _, h.size_eq, h.count_le⟩

lemma maybeUpdate {n : Nat} (h : p.Fits last size) (hn : n ≤ last) :
    (p.maybeUpdate n).1.Fits last size := by
  have hlt := h.matched_lt
  have hle := h.next_le
  rw [maybeUpdate_fst]
  refine ⟨?_, ?_, h.pending_le, h.size_eq, h.count_le⟩
  · show max p.matched n < max p.next (n + 1)
    omega
  · show max p.next (n + 1) ≤ last + 1
    omega

lemma acknowledged {n : Nat} (h : p.Fits last size) (hack : p.acknowledged n = Except.ok p') :
    p'.Fits last size := by
  rw [Progress.acknowledged] at hack
  split at hack
  · cases hack
    exact h.becomeReplicate
  · cases hack
    split
    · exact h.becomeProbe
    · exact h
  · obtain ⟨f, hf, hack⟩ := Outcome.bind_eq_ok.mp hack
    cases hack
    obtain ⟨hsize, hcount⟩ := InFlights.freeTo_le hf
    exact h.window hsize (hcount.trans h.count_le)

/-- A rejection moves `next` back, but not behind what was acknowledged, unless it is a stale one that
answers for a probe. -/
lemma maybeDecreasesTo {rejected hint : Nat} (h : p.Fits last size)
    (hfresh : p.state ≠ ProgressState.replicate → p.next - 1 = rejected →
      p.matched = 0 ∨ p.matched < rejected ∧ p.matched ≤ hint) :
    (p.maybeDecreasesTo rejected hint).1.Fits last size := by
  have hlt := h.matched_lt
  have hle := h.next_le
  rw [Progress.maybeDecreasesTo]
  split
  · split
    · exact h
    · refine ⟨Nat.lt_succ_self _, ?_, h.pending_le, h.size_eq, h.count_le⟩
      show p.matched + 1 ≤ last + 1
      omega
  · rename_i hstate
    split
    · exact h
    · rename_i hprobe
      have hgood := hfresh hstate (by omega)
      refine ⟨?_, ?_, h.pending_le, h.size_eq, h.count_le⟩
      · show p.matched < max (min rejected (hint + 1)) 1
        omega
      · show max (min rejected (hint + 1)) 1 ≤ last + 1
        omega

lemma heartbeatAnswered (h : p.Fits last size) (halive : p.heartbeatAnswered = Except.ok p') :
    p'.Fits last size := by
  have hresumed : Fits last size { p.resume with recentActive := true } :=
    ⟨h.matched_lt, h.next_le, h.pending_le, h.size_eq, h.count_le⟩
  rw [Progress.heartbeatAnswered] at halive
  dsimp only at halive
  split at halive
  · obtain ⟨f, hf, halive⟩ := Outcome.bind_eq_ok.mp halive
    cases halive
    obtain ⟨hsize, hcount⟩ := InFlights.freeFirstOne_le hf
    exact hresumed.window hsize (hcount.trans hresumed.count_le)
  · cases halive
    exact hresumed

/-- What is sent comes from the log, from `next` on. -/
lemma afterSending {es : List Entry} (h : p.Fits last size)
    (hes : ∀ e, es.getLast? = some e → p.next ≤ e.index ∧ e.index ≤ last)
    (hsent : p.afterSending es = Except.ok p') : p'.Fits last size := by
  rw [Progress.afterSending] at hsent
  split at hsent
  · cases hsent
    exact h
  · rename_i e he
    obtain ⟨hlow, hhigh⟩ := hes e he
    have hlt := h.matched_lt
    split at hsent
    · obtain ⟨f, hf, hsent⟩ := Outcome.bind_eq_ok.mp hsent
      cases hsent
      have hf : p.inflights.add e.index = Except.ok f := hf
      obtain ⟨hsize, hcount⟩ := InFlights.add_le hf (h.size_eq ▸ h.count_le)
      refine ⟨?_, Nat.succ_le_succ hhigh, h.pending_le, hsize.trans h.size_eq, h.size_eq ▸ hcount⟩
      show p.matched < e.index + 1
      omega
    · cases hsent
      exact h.flags
    · cases hsent

end Fits

/-- What the other answers than those to append requests keep. -/
lemma Answered.fits (hm : m.type ≠ MessageType.msgAppResp) (h : Answered m p p')
    (hfits : p.Fits last size) : p'.Fits last size := by
  cases h with
  | acknowledged ht | known ht | rejected ht | fellBack ht => exact absurd ht hm
  | alive _ h => exact hfits.heartbeatAnswered h
  | snapshotSent => exact hfits.becomeProbe.flags
  | snapshotLost => exact hfits.snapshotFailure.becomeProbe.flags
  | unreachable => exact hfits.becomeProbe

/-! ## What was acknowledged -/

/-- **No answer takes an acknowledgement back.** -/
lemma Answered.matched_le (h : Answered m p p') : p.matched ≤ p'.matched := by
  cases h with
  | acknowledged _ _ _ h =>
      rw [matched_acknowledged h, matched_maybeUpdate]
      exact Nat.le_max_left ..
  | known =>
      rw [matched_maybeUpdate]
      exact Nat.le_max_left ..
  | rejected =>
      rw [matched_maybeDecreasesTo]
  | fellBack =>
      rw [matched_becomeProbe, matched_maybeDecreasesTo]
  | alive _ h => exact (matched_heartbeatAnswered h).ge
  | snapshotSent => exact (matched_becomeProbe p).ge
  | snapshotLost => exact (matched_becomeProbe p.snapshotFailure).ge
  | unreachable => exact (matched_becomeProbe p).ge

end Progress

/-! ## What is read from the log -/

namespace RaftLog

variable {l : RaftLog}

/-- What is read from an index on follows it, and is inside the log. -/
lemma Sound.entries_within (h : l.Sound) {i maxSize : Nat} {es : List Entry}
    (hes : l.entries i maxSize = Except.ok (Except.ok es)) :
    Numbered i es ∧ (es ≠ [] → i + es.length ≤ l.lastIndex + 1) := by
  rw [entries] at hes
  split at hes
  · cases hes
    exact ⟨Numbered.nil i, fun hne => absurd rfl hne⟩
  rename_i hle
  by_cases hlow : i < l.firstIndex
  · rw [slice, mustCheckOutOfBounds, if_neg (by omega), if_pos hlow] at hes
    cases hes
  have hlast := lastIndex_eq h.wf
  rw [firstIndex_eq] at hlow
  rw [slice_eq h.wf maxSize (by omega) (by omega) (by omega), Except.ok.injEq, Except.ok.injEq] at hes
  have hpre := entryLimitSize_isPrefix maxSize
    ((l.logical.drop (i - (l.base + 1))).take (l.lastIndex + 1 - i))
  rw [hes] at hpre
  have hdrop := h.wf.numbered.drop (i - (l.base + 1))
  rw [show l.base + 1 + (i - (l.base + 1)) = i by omega] at hdrop
  refine ⟨?_, fun _ => ?_⟩
  · rw [List.prefix_iff_eq_take.mp hpre]
    exact (hdrop.take _).take _
  · have hlen := hpre.length_le
    rw [List.length_take, List.length_drop] at hlen
    omega

/-- The snapshot that would be sent is inside the log. -/
lemma Sound.snapshot_within (h : l.Sound) : l.snapshot.metadata.index ≤ l.lastIndex := by
  have hbase := h.base_le
  have hstored := h.snapshot_le
  refine le_trans ?_ h.committed_le
  rw [snapshot]
  rw [base] at hbase
  cases hs : l.unstable.snapshot with
  | none => exact hstored
  | some s =>
      rw [hs] at hbase
      exact hbase

/-- What a leader appends makes its log longer. -/
lemma Sound.lastIndex_append (h : l.Sound) {l' : RaftLog} {es : List Entry} {last : Nat}
    (hnum : Numbered (l.lastIndex + 1) es) (happend : l.append es = Except.ok (l', last)) :
    l'.Sound ∧ l.lastIndex ≤ l'.lastIndex := by
  cases es with
  | nil =>
      cases happend
      exact ⟨h, Nat.le_refl _⟩
  | cons e es =>
      have hindex := hnum.head
      have hsound := h.extend (hindex ▸ hnum) (by omega) happend
      obtain ⟨-, -, -, hl', hsnapshot, hlogical, -⟩ :=
        append_eq_ok h.wf h.base_le (hindex ▸ hnum) (by omega) happend
      have hbase := (base_congr (by rw [hl'] : l'.storage = l.storage) hsnapshot).1
      have hlast := lastIndex_eq h.wf
      refine ⟨hsound, ?_⟩
      rw [lastIndex_eq hsound.wf, hlogical, hbase, List.length_append, List.length_take,
        List.length_cons]
      omega

end RaftLog

namespace Raft

open RaftLog

variable {r r' : Raft} {m x : Message} {sent : List Message} {id : Nat} {pr pr' : Progress}
  {status : Status}

/-! ## All peers -/

/-- The node stands for election, or was elected. -/
def Elevated (r : Raft) : Prop := r.state = RaftState.candidate ∨ r.state = RaftState.leader

/-- An append request that the node has sent in its present term ends inside its log. -/
structure Requested (r : Raft) (x : Message) : Prop where
  term_le : x.type = MessageType.msgApp → x.term ≤ r.term
  within : x.type = MessageType.msgApp → x.term = r.term → r.Elevated →
    x.index + x.entries.length ≤ r.raftLog.lastIndex

/-- **The invariant**; `sent` is what the node has handed out. -/
structure Tracks (sent : List Message) (r : Raft) : Prop where
  sound : r.raftLog.Sound
  peers : r.Elevated → ∀ j pr, r.getProgress j = some pr →
    pr.Fits r.raftLog.lastIndex (wrap32 r.maxInflight)
  requests : ∀ x, x ∈ sent ∨ x ∈ r.msgs → r.Requested x

lemma Requested.same (h : r.Requested x) (hterm : r'.term = r.term) (hrole : r'.Elevated → r.Elevated)
    (hlast : r.raftLog.lastIndex ≤ r'.raftLog.lastIndex) : r'.Requested x := by
  refine ⟨fun ht => hterm ▸ h.term_le ht, fun ht heq hr => ?_⟩
  exact (h.within ht (heq.trans hterm) (hrole hr)).trans hlast

/-- Nothing was asked in a later term yet. -/
lemma Requested.later (h : r.Requested x) (hterm : r.term ≤ r'.term)
    (hrole : r'.Elevated → r.term < r'.term) : r'.Requested x := by
  refine ⟨fun ht => (h.term_le ht).trans hterm, fun ht heq hr => ?_⟩
  have hle := h.term_le ht
  have hlt := hrole hr
  omega

lemma getProgress_congr (hprs : r'.prs = r.prs) (hlearners : r'.learnerPrs = r.learnerPrs)
    (j : Nat) : r'.getProgress j = r.getProgress j := by
  rw [getProgress, getProgress, hprs, hlearners]

namespace Tracks

/-- The peers and the role are the same, and the log has become no shorter. -/
lemma same (h : r.Tracks sent) (hsound : r'.raftLog.Sound)
    (hlast : r.raftLog.lastIndex ≤ r'.raftLog.lastIndex) (hstate : r'.state = r.state)
    (hterm : r'.term = r.term) (hprs : r'.prs = r.prs) (hlearners : r'.learnerPrs = r.learnerPrs)
    (hmax : r'.maxInflight = r.maxInflight)
    (hmsgs : ∀ x ∈ r'.msgs, x ∈ r.msgs ∨ x.type ≠ MessageType.msgApp) : r'.Tracks sent := by
  have hrole : r'.Elevated → r.Elevated := by
    rw [Elevated, Elevated, hstate]
    exact fun hr => hr
  refine ⟨hsound, fun hr j pr hpr => ?_, fun x hx => ?_⟩
  · rw [getProgress_congr hprs hlearners] at hpr
    rw [hmax]
    exact (h.peers (hrole hr) j pr hpr).mono hlast
  · have hold : r.Requested x ∨ x.type ≠ MessageType.msgApp := by
      rcases hx with hx | hx
      · exact Or.inl (h.requests x (Or.inl hx))
      · exact (hmsgs x hx).imp_left fun hx => h.requests x (Or.inr hx)
    rcases hold with hold | hother
    · exact hold.same hterm hrole hlast
    · exact ⟨fun ht => absurd ht hother, fun ht => absurd ht hother⟩

/-- One message more is queued. -/
lemma push (h : r.Tracks sent) (hx : r.Requested x) : Tracks sent { r with msgs := r.msgs ++ [x] } := by
  refine ⟨h.sound, h.peers, fun y hy => ?_⟩
  have hold : r.Requested y := by
    rcases hy with hy | hy
    · exact h.requests y (Or.inl hy)
    · rcases List.mem_append.mp hy with hy | hy
      · exact h.requests y (Or.inr hy)
      · rw [List.mem_singleton.mp hy]
        exact hx
  exact ⟨hold.term_le, hold.within⟩

/-- One peer moves. -/
lemma modify (h : r.Tracks sent) {f : Progress → Progress}
    (hfits : ∀ p, r.getProgress id = some p → p.Fits r.raftLog.lastIndex (wrap32 r.maxInflight) →
      (f p).Fits r.raftLog.lastIndex (wrap32 r.maxInflight)) :
    (r.modifyProgress id f).Tracks sent := by
  refine ⟨h.sound, fun hr j pj hpj => ?_, fun y hy => ?_⟩
  · by_cases hj : j = id
    · subst hj
      rw [getProgress_modifyProgress, if_pos rfl] at hpj
      obtain ⟨p, hp, rfl⟩ := Option.map_eq_some_iff.mp hpj
      exact hfits p hp (h.peers hr j p hp)
    · rw [getProgress_modifyProgress_of_ne hj] at hpj
      exact h.peers hr j pj hpj
  · exact (h.requests y hy).same rfl (fun hr => hr) (Nat.le_refl _)

/-- The node is no leader any more, or stands for election in a later term. -/
lemma renewed (h : r.Tracks sent) (hsound : r'.raftLog.Sound) (hterm : r.term ≤ r'.term)
    (hmsgs : r'.msgs = r.msgs) (hrole : r'.Elevated → r.term < r'.term ∧
      ∀ j pr, r'.getProgress j = some pr → pr.Fits r'.raftLog.lastIndex (wrap32 r'.maxInflight)) :
    r'.Tracks sent := by
  refine ⟨hsound, fun hr => (hrole hr).2, fun x hx => ?_⟩
  rw [hmsgs] at hx
  exact (h.requests x hx).later hterm fun hr => (hrole hr).1

end Tracks

/-- A peer after `reset`. -/
lemma resetProgress_fits (r : Raft) (j : Nat) (p : Progress) :
    (r.resetProgress j p).Fits r.raftLog.lastIndex (wrap32 r.maxInflight) := by
  refine ⟨?_, Nat.le_refl _, Nat.zero_le _, rfl, Nat.zero_le _⟩
  show (if j = r.id then r.raftLog.lastIndex else 0) < r.raftLog.lastIndex + 1
  split <;> omega

lemma resetTo_fits {t j : Nat} (hpr : (r.resetTo t).getProgress j = some pr) :
    pr.Fits r.raftLog.lastIndex (wrap32 r.maxInflight) := by
  simp only [getProgress, resetTo, IdMap.lookup_mapWithKey] at hpr
  cases hp : r.prs.lookup j with
  | some p =>
      rw [hp] at hpr
      cases hpr
      exact resetProgress_fits r j p
  | none =>
      rw [hp] at hpr
      obtain ⟨p, -, rfl⟩ := Option.map_eq_some_iff.mp hpr
      exact resetProgress_fits r j p

/-- The peers of a new leader. -/
lemma elected_fits {j : Nat} (hpr : r.elected.getProgress j = some pr) :
    pr.Fits r.raftLog.lastIndex (wrap32 r.maxInflight) := by
  have hmodified : ∃ p, (r.resetTo r.term).getProgress j = some p ∧
      (pr = p ∨ pr = p.becomeReplicate) := by
    rw [getProgress, elected] at hpr
    rw [getProgress]
    dsimp only at hpr
    by_cases hj : j = r.id
    · rw [hj, IdMap.lookup_modify_self] at hpr
      rw [hj]
      cases hp : (r.resetTo r.term).prs.lookup r.id with
      | some p =>
          rw [hp] at hpr
          cases hpr
          exact ⟨p, rfl, Or.inr rfl⟩
      | none =>
          rw [hp] at hpr
          exact ⟨pr, hpr, Or.inl rfl⟩
    · rw [IdMap.lookup_modify_of_ne hj] at hpr
      exact ⟨pr, hpr, Or.inl rfl⟩
  obtain ⟨p, hp, rfl | rfl⟩ := hmodified
  · exact resetTo_fits hp
  · exact (resetTo_fits hp).becomeReplicate

/-! ## Deeds -/

/-- Append requests are sent by `maybe_send_append` only. -/
lemma Posted.not_msgApp (h : Posted m r x) : x.type ≠ MessageType.msgApp := by
  cases h with
  | forward ht =>
      rcases ht with ht | ht | ht
      all_goals
        show m.type ≠ MessageType.msgApp
        rw [ht]
        exact MessageType.noConfusion
  | _ => exact MessageType.noConfusion

lemma poll_frame (r : Raft) (j : Nat) (v : Bool) :
    (r.poll j v).1 = { r with votes := (r.poll j v).1.votes } := rfl

/-- **A deed keeps the invariant**, if it is no answer to an append request. -/
theorem Deed.tracks (hm : m.type ≠ MessageType.msgAppResp)
    (hnum : m.type = MessageType.msgApp → Numbered (m.index + 1) m.entries) (h : r.Tracks sent)
    (hdeed : Deed m r r') : r'.Tracks sent := by
  have hsound : r'.raftLog.Sound := h.sound.moves (Effects.moves hnum hdeed.effects)
  cases hdeed with
  | quiet hd =>
      simp only [dossier, ledger, Prod.mk.injEq] at hd
      obtain ⟨⟨-, hterm, -, hstate, hlog, -⟩, hprs, hlearners, -, hmsgs, -, hmax, -⟩ := hd
      exact h.same hsound (by rw [hlog]) hstate hterm hprs hlearners hmax
        fun x hx => Or.inl (hmsgs ▸ hx)
  | post hposted =>
      refine h.same hsound (Nat.le_refl _) rfl rfl rfl rfl rfl fun x hx => ?_
      rcases List.mem_append.mp hx with hx | hx
      · exact Or.inl hx
      · rw [List.mem_singleton.mp hx, signed_type]
        exact Or.inr hposted.not_msgApp
  | @sendEntries toId pr pr' logTerm es hpr hopen hterm hes hsent =>
      obtain ⟨hnumbered, hend⟩ := h.sound.entries_within hes
      have hlast : ∀ e, es.getLast? = some e →
          pr.next ≤ e.index ∧ e.index ≤ r.raftLog.lastIndex := by
        intro e he
        have hne : es ≠ [] := by
          rintro rfl
          cases he
        have hlen := List.length_pos_iff.mpr hne
        have hindex := hnumbered.getLast he
        have := hend hne
        omega
      have hmoved : (r.modifyProgress toId fun _ => pr').Tracks sent := h.modify fun p hp hfits =>
        (Option.some.inj (hpr.symm.trans hp) ▸ hfits : pr.Fits _ _).afterSending hlast hsent
      refine hmoved.push ?_
      refine ⟨fun _ => ?_, fun _ _ hr => ?_⟩
      · rw [signed_term rfl rfl]
        exact Nat.le_refl _
      · have hfits := h.peers hr toId pr hpr
        have hlt := hfits.matched_lt
        have hle := hfits.next_le
        rw [signed_index, signed_entries]
        show pr.next - 1 + es.length ≤ r.raftLog.lastIndex
        by_cases hne : es = []
        · rw [hne, List.length_nil]
          omega
        · have := hend hne
          omega
  | sendSnapshot hpr hopen hsnap =>
      refine (h.modify fun _ _ hfits => hfits.becomeSnapshot h.sound.snapshot_within).push ?_
      have ht : ∀ y : Message, y.type = MessageType.msgSnap →
          (r.signed y).type ≠ MessageType.msgApp := by
        intro y hy
        rw [signed_type, hy]
        exact MessageType.noConfusion
      exact ⟨fun hx => absurd hx (ht _ rfl), fun hx => absurd hx (ht _ rfl)⟩
  | answered hs htimely hpr hanswered =>
      refine h.modify fun p hp hfits => ?_
      rw [Option.some.inj (hp.symm.trans hpr)] at hfits
      exact hanswered.fits hm hfits
  | own hs => exact h.modify fun _ _ hfits => hfits.maybeUpdate (Nat.le_refl _)
  | support hs =>
      rw [poll_frame] at hsound ⊢
      exact h.same hsound (Nat.le_refl _) rfl rfl rfl rfl rfl fun x hx => Or.inl hx
  | count hs htimely ht =>
      rw [poll_frame] at hsound ⊢
      exact h.same hsound (Nat.le_refl _) rfl rfl rfl rfl rfl fun x hx => Or.inl hx
  | transfer | abort | vote | refuse =>
      exact h.same hsound (Nat.le_refl _) rfl rfl rfl rfl rfl fun x hx => Or.inl hx
  | follow hle lead =>
      refine h.renewed hsound hle rfl fun hr => ?_
      rcases hr with hr | hr <;> cases hr
  | prepare hs =>
      refine h.renewed hsound (Nat.le_refl _) rfl fun hr => ?_
      rcases hr with hr | hr <;> cases hr
  | stand hs hwhy =>
      exact h.renewed hsound (Nat.le_succ _) rfl fun _ =>
        ⟨Nat.lt_succ_self _, fun j pr hpr => resetTo_fits (r := r) (t := r.term + 1) hpr⟩
  | lead hs hwon =>
      refine ⟨hsound, fun _ j pr hpr => elected_fits (r := r) hpr, fun x hx => ?_⟩
      exact (h.requests x hx).same rfl (fun _ => Or.inl hs) (Nat.le_refl _)
  | @propose hs es hes r₁ hsize l last hlog =>
      have hstamped := stampEntries_numbered r.term (r.raftLog.lastIndex + 1) (r.admitted es).1
      obtain ⟨-, hle⟩ := h.sound.lastIndex_append hstamped hlog
      have hr₁ := increaseUncommittedSize_frame hsize
      rw [hr₁] at hsound ⊢
      exact h.same hsound hle rfl rfl rfl rfl rfl fun x hx => Or.inl hx
  | commit hcommit =>
      obtain ⟨rfl, -⟩ := commitTo_eq_ok hcommit
      exact h.same hsound (Nat.le_refl _) rfl rfl rfl rfl rfl fun x hx => Or.inl hx
  | append _ hs =>
      refine h.renewed hsound (Nat.le_refl _) rfl fun hr => ?_
      rcases hr with hr | hr <;> exact absurd (hs.symm.trans hr) RaftState.noConfusion
  | restore _ hs _ _ hr' =>
      have hstate : r'.state = RaftState.follower := by
        rw [hr']
        exact hs
      refine h.renewed hsound (by rw [hr']) (by rw [hr']) fun hr => ?_
      rcases hr with hr | hr <;> exact absurd (hstate.symm.trans hr) RaftState.noConfusion

theorem Deeds.tracks (hm : m.type ≠ MessageType.msgAppResp)
    (hnum : m.type = MessageType.msgApp → Numbered (m.index + 1) m.entries) (h : r.Tracks sent)
    (hdeeds : Deeds m r r') : r'.Tracks sent := by
  induction hdeeds with
  | refl => exact h
  | tail _ hdeed ih => exact Deed.tracks hm hnum ih hdeed

/-! ## Configuration changes -/

lemma getProgress_voter (r : Raft) (k j : Nat) (p : Progress) :
    getProgress { r with learnerPrs := r.learnerPrs.erase k, prs := r.prs.insert k p } j =
      if j = k then some p else r.getProgress j := by
  rw [getProgress, getProgress]
  dsimp only
  split_ifs with hj
  · rw [hj, AList.lookup_insert]
  · rw [AList.lookup_insert_ne hj, AList.lookup_erase_ne hj]

lemma getProgress_learner {k : Nat} (hk : k ∉ r.prs) (j : Nat) (p : Progress) :
    getProgress { r with learnerPrs := r.learnerPrs.insert k p } j =
      if j = k then some p else r.getProgress j := by
  rw [getProgress, getProgress]
  dsimp only
  split_ifs with hj
  · rw [hj, AList.lookup_eq_none.mpr hk, AList.lookup_insert]
  · rw [AList.lookup_insert_ne hj]

lemma getProgress_delProgress (r : Raft) (k j : Nat) :
    (r.delProgress k).getProgress j = if j = k then none else r.getProgress j := by
  rw [getProgress, getProgress, delProgress]
  dsimp only
  split_ifs with hj
  · rw [hj, AList.lookup_erase, AList.lookup_erase]
  · rw [AList.lookup_erase_ne hj, AList.lookup_erase_ne hj]

/-- A node that is entered is probed from the end of the log on. -/
lemma getProgress_setProgress {k j : Nat} {isLearner : Bool}
    (hset : r.setProgress k 0 (r.raftLog.lastIndex + 1) isLearner = Except.ok r') :
    ∃ p : Progress, p = { Progress.new r.maxInflight with
      next := r.raftLog.lastIndex + 1, isLearner := isLearner } ∧
      r'.getProgress j = if j = k then some p else r.getProgress j := by
  rw [setProgress] at hset
  dsimp only at hset
  refine ⟨_, rfl, ?_⟩
  split at hset
  · rename_i hvoter
    have hvoter : isLearner = false := by simpa using hvoter
    cases hset
    rw [getProgress_voter, hvoter]
    rfl
  rename_i hlearner
  have hlearner : isLearner = true := by simpa using hlearner
  split at hset
  · cases hset
  · rename_i hk
    cases hset
    rw [getProgress_learner hk, hlearner]
    rfl

/-- The peers after a configuration change: a new one, or one of those before it. -/
lemma Regrouped.getProgress_cases (h : Regrouped r r') {j : Nat} (hpr : r'.getProgress j = some pr) :
    (r.getProgress j = none ∧ pr.matched = 0 ∧ pr.next = r.raftLog.lastIndex + 1 ∧
      pr.pendingSnapshot = 0 ∧ pr.inflights = InFlights.new r.maxInflight) ∨
    ∃ p, r.getProgress j = some p ∧ pr = { p with
      isLearner := pr.isLearner, recentActive := pr.recentActive } := by
  have hactive : ∀ {r₁ : Raft} {k : Nat} {isLearner : Bool},
      (r₁.activated k isLearner).getProgress j = some pr →
      ∃ p, r₁.getProgress j = some p ∧ pr = { p with recentActive := pr.recentActive } := by
    intro r₁ k isLearner hact
    rw [activated] at hact
    by_cases hj : j = k
    · rw [hj, getProgress_modifyProgress, if_pos rfl] at hact
      obtain ⟨p, hp, rfl⟩ := Option.map_eq_some_iff.mp hact
      exact ⟨p, hj ▸ hp, rfl⟩
    · rw [getProgress_modifyProgress_of_ne hj] at hact
      exact ⟨pr, hact, rfl⟩
  cases h with
  | same => exact Or.inr ⟨pr, hpr, rfl⟩
  | @entered r₁ k isLearner hnew hset =>
      obtain ⟨p, hp, hpr'⟩ := hactive hpr
      obtain ⟨p₀, hp₀, hlookup⟩ := getProgress_setProgress (j := j) hset
      rw [hlookup] at hp
      split at hp
      · rename_i hj
        cases hp
        rw [hpr', hp₀]
        exact Or.inl ⟨hj ▸ hnew, rfl, rfl, rfl, rfl⟩
      · refine Or.inr ⟨p, hp, ?_⟩
        rw [hpr']
  | @promoted k q hq hlearner =>
      obtain ⟨p, hp, hpr'⟩ := hactive hpr
      rw [getProgress_voter] at hp
      split at hp
      · rename_i hj
        cases hp
        refine Or.inr ⟨q, hj ▸ hq, ?_⟩
        rw [hpr']
      · refine Or.inr ⟨p, hp, ?_⟩
        rw [hpr']
  | removed k =>
      rw [getProgress_delProgress] at hpr
      split at hpr
      · cases hpr
      · exact Or.inr ⟨pr, hpr, rfl⟩

/-- **A configuration change keeps the invariant.** -/
theorem Regrouped.tracks (h : r.Tracks sent) (hgroup : Regrouped r r') : r'.Tracks sent := by
  have hledger := hgroup.ledger
  simp only [Raft.ledger, Prod.mk.injEq] at hledger
  obtain ⟨-, hterm, -, hstate, hlog, -⟩ := hledger
  obtain ⟨hmsgs, hmax⟩ : r'.msgs = r.msgs ∧ r'.maxInflight = r.maxInflight := by
    cases hgroup with
    | entered hnew hset =>
        rw [setProgress_frame hset]
        exact ⟨rfl, rfl⟩
    | _ => exact ⟨rfl, rfl⟩
  have hrole : r'.Elevated → r.Elevated := by
    rw [Elevated, Elevated, hstate]
    exact fun hr => hr
  refine ⟨hlog ▸ h.sound, fun hr j pr hpr => ?_, fun x hx => ?_⟩
  · rw [hlog, hmax]
    rcases hgroup.getProgress_cases hpr with ⟨-, hmatched, hnext, hpending, hwindow⟩ | ⟨p, hp, hpr'⟩
    · refine ⟨by omega, hnext.le, by omega, by rw [hwindow]; rfl, ?_⟩
      rw [hwindow]
      exact Nat.zero_le _
    · rw [hpr']
      exact (h.peers (hrole hr) j p hp).flags
  · rw [hmsgs] at hx
    exact (h.requests x hx).same hterm hrole (by rw [hlog])

/-! ## Admissible to append requests -/

/-- Where an answer to an append request leads: nowhere, to a later term, or to its handler. -/
lemma step_appResp (ht : m.type = MessageType.msgAppResp) (h : r.step m = Except.ok (r', status)) :
    r' = r ∨ (r.term ≤ m.term ∧ r.becomeFollower m.term 0 = Except.ok r') ∨
      (r.state = RaftState.leader ∧ (m.term = 0 ∨ m.term = r.term) ∧
        ∃ pr, r.getProgress m.fromId = some pr ∧ r.stepAppResp m pr = Except.ok r') := by
  obtain ⟨⟨r₁, continues⟩, hcheck, h⟩ := Outcome.bind_eq_ok.mp h
  have hrole : ∀ {r₁ : Raft}, r₁.stepRole m = Except.ok (r', status) → r' = r₁ ∨
      (r₁.state = RaftState.leader ∧ ∃ pr, r₁.getProgress m.fromId = some pr ∧
        r₁.stepAppResp m pr = Except.ok r') := by
    intro r₁ hstep
    rw [stepRole] at hstep
    split at hstep
    · rw [stepFollower, ht] at hstep
      cases hstep
      exact Or.inl rfl
    · rw [stepCandidate, ht] at hstep
      cases hstep
      exact Or.inl rfl
    · rw [stepCandidate, ht] at hstep
      cases hstep
      exact Or.inl rfl
    · rename_i hs
      rw [stepLeader, ht] at hstep
      dsimp only at hstep
      split at hstep
      · cases hstep
        exact Or.inl rfl
      · rename_i pr hpr
        obtain ⟨r₂, hpeer, hstep⟩ := Outcome.bind_eq_ok.mp hstep
        cases hstep
        rw [stepLeaderPeer, ht] at hpeer
        exact Or.inr ⟨hs, pr, hpr, hpeer⟩
  have hsame : ∀ {r₁ : Raft}, r₁ = r → (m.term = 0 ∨ m.term = r.term) → r₁.stepRole m =
      Except.ok (r', status) → r' = r ∨ (r.term ≤ m.term ∧ r.becomeFollower m.term 0 = Except.ok r') ∨
      (r.state = RaftState.leader ∧ (m.term = 0 ∨ m.term = r.term) ∧
        ∃ pr, r.getProgress m.fromId = some pr ∧ r.stepAppResp m pr = Except.ok r') := by
    rintro r₁ rfl hterm hstep
    rcases hrole hstep with heq | ⟨hs, hpeer⟩
    · exact Or.inl heq
    · exact Or.inr (Or.inr ⟨hs, hterm, hpeer⟩)
  rw [ht] at h
  rw [checkTerm] at hcheck
  split at hcheck
  · rename_i hzero
    cases hcheck
    exact hsame rfl (Or.inl hzero) h
  split at hcheck
  · rename_i hlater
    split at hcheck
    · cases hcheck
      cases h
      exact Or.inl rfl
    · obtain ⟨r₂, hhigher, hcheck⟩ := Outcome.bind_eq_ok.mp hcheck
      cases hcheck
      rw [stepHigherTerm, ht] at hhigher
      rcases hrole h with rfl | ⟨hs, -⟩
      · exact Or.inr (Or.inl ⟨Nat.le_of_lt hlater, hhigher⟩)
      · rw [becomeFollower_eq_ok hhigher] at hs
        cases hs
  split at hcheck
  · obtain ⟨r₂, hlower, hcheck⟩ := Outcome.bind_eq_ok.mp hcheck
    cases hcheck
    cases h
    rw [stepLowerTerm, ht] at hlower
    simp only [reduceCtorEq, or_self, and_false, if_false] at hlower
    cases hlower
    exact Or.inl rfl
  · rename_i hle hge
    cases hcheck
    exact hsame rfl (Or.inr (by omega)) h

/-- A rejection is not a stale one that answers for a probe: what the peer has acknowledged lies
before the rejected index, and in the log that the peer had when it rejected. -/
def Fresh (r : Raft) (m : Message) : Prop :=
  ∀ pr ∈ r.getProgress m.fromId, pr.state ≠ ProgressState.replicate → pr.next - 1 = m.index →
    pr.matched = 0 ∨ pr.matched < m.index ∧ pr.matched ≤ m.rejectHint

instance (r : Raft) (m : Message) : Decidable (r.Fresh m) :=
  inferInstanceAs (Decidable (∀ pr ∈ r.getProgress m.fromId, _ → _ → (_ ∨ _)))

/-- What a leader does after it has taken note of an answer. -/
abbrev Follows (m : Message) : Raft → Raft → Prop :=
  Deeds { type := MessageType.msgTransferLeader, fromId := m.fromId }

lemma Tracks.follows (h : r.Tracks sent) (hfollows : r.Follows m r') : r'.Tracks sent :=
  Deeds.tracks MessageType.noConfusion (fun ht => by cases ht) h hfollows

lemma stepRejected_tracks (h : r.Tracks sent) (hpr : r.getProgress m.fromId = some pr)
    (hfresh : r.Fresh m) (hstep : r.stepRejected m { pr with recentActive := true } = Except.ok r') :
    r'.Tracks sent := by
  have hmoved : ∀ {f : Progress → Progress}, (∀ p : Progress,
      p.Fits r.raftLog.lastIndex (wrap32 r.maxInflight) →
      (f p).Fits r.raftLog.lastIndex (wrap32 r.maxInflight)) →
      (r.modifyProgress m.fromId fun _ => f
        ({ pr with recentActive := true }.maybeDecreasesTo m.index m.rejectHint).1).Tracks sent := by
    intro f hf
    refine h.modify fun p hp hfits => hf _ ?_
    rw [Option.some.inj (hp.symm.trans hpr)] at hfits
    have hflags : Progress.Fits r.raftLog.lastIndex (wrap32 r.maxInflight)
        { pr with recentActive := true } := hfits.flags
    exact hflags.maybeDecreasesTo (hfresh pr hpr)
  rw [stepRejected] at hstep
  dsimp only at hstep
  split at hstep
  · rename_i hdecreased
    refine Tracks.follows (m := m) ?_ (Asides.sendAppend hstep).deeds
    exact hmoved (f := fun p => if p.state = ProgressState.replicate then p.becomeProbe else p)
      fun p hp => by
        split
        · exact hp.becomeProbe
        · exact hp
  · cases hstep
    exact hmoved (f := fun p => p) fun p hp => hp

lemma stepAcknowledged_tracks (h : r.Tracks sent) (hpr : r.getProgress m.fromId = some pr)
    (hindex : m.index ≤ r.raftLog.lastIndex)
    (hstep : r.stepAcknowledged m { pr with recentActive := true } = Except.ok r') :
    r'.Tracks sent := by
  have hupdated : pr.Fits r.raftLog.lastIndex (wrap32 r.maxInflight) →
      ({ pr with recentActive := true }.maybeUpdate m.index).1.Fits r.raftLog.lastIndex
        (wrap32 r.maxInflight) := by
    intro hfits
    have hflags : Progress.Fits r.raftLog.lastIndex (wrap32 r.maxInflight)
        { pr with recentActive := true } := hfits.flags
    exact hflags.maybeUpdate hindex
  rw [stepAcknowledged] at hstep
  dsimp only at hstep
  split at hstep
  · obtain ⟨pr₁, hack, hstep⟩ := Outcome.bind_eq_ok.mp hstep
    obtain ⟨⟨r₂, committed⟩, hcommit, hstep⟩ := Outcome.bind_eq_ok.mp hstep
    obtain ⟨r₃, hafter, hstep⟩ := Outcome.bind_eq_ok.mp hstep
    obtain ⟨r₄, hdrain, hstep⟩ := Outcome.bind_eq_ok.mp hstep
    have hmoved : (r.modifyProgress m.fromId fun _ => pr₁).Tracks sent := by
      refine h.modify fun p hp hfits => ?_
      rw [Option.some.inj (hp.symm.trans hpr)] at hfits
      exact (hupdated hfits).acknowledged hack
    have hdrained : r₄.Tracks sent :=
      ((hmoved.follows (m := m) (Deeds.maybeCommit hcommit)).follows (m := m)
        (Asides.sendAfterAck hafter).deeds).follows (m := m) (Asides.drainAppends hdrain).deeds
    rw [finishTransfer] at hstep
    split at hstep
    · rename_i hdone
      exact hdrained.follows (m := m)
        (Deeds.post (Posted.timeoutNow (Or.inl rfl) hdone.1) hstep)
    · cases hstep
      exact hdrained
  · cases hstep
    refine h.modify fun p hp hfits => ?_
    rw [Option.some.inj (hp.symm.trans hpr)] at hfits
    exact hupdated hfits

/-- **An answer to an append request keeps the invariant**, unless it acknowledges what the log does
not hold, or is a stale rejection. -/
theorem step_tracks (ht : m.type = MessageType.msgAppResp) (h : r.Tracks sent)
    (hindex : r.state = RaftState.leader → m.term = 0 ∨ m.term = r.term → m.reject = false →
      m.index ≤ r.raftLog.lastIndex)
    (hfresh : r.state = RaftState.leader → m.term = 0 ∨ m.term = r.term → m.reject = true →
      r.Fresh m)
    (hstep : r.step m = Except.ok (r', status)) : r'.Tracks sent := by
  rcases step_appResp ht hstep with rfl | ⟨hle, hfollow⟩ | ⟨hs, hterm, pr, hpr, happ⟩
  · exact h
  · exact h.follows (m := m) (Deeds.becomeFollower hle hfollow)
  · rw [stepAppResp] at happ
    split at happ
    · rename_i hreject
      exact stepRejected_tracks h hpr (hfresh hs hterm hreject) happ
    · rename_i hreject
      exact stepAcknowledged_tracks h hpr (hindex hs hterm (by simpa using hreject)) happ

/-! ## What a follower answers -/

/-- An answer to an append request that accepts anything, accepts all of it, or names what was
committed before. -/
structure Accepts (m : Message) (r : Raft) (x : Message) : Prop where
  request : m.type = MessageType.msgApp
  term : x.term = m.term
  index : x.index = m.index + m.entries.length ∨ x.index = r.raftLog.committed

/-- An answer to `m` names no index, or accepts an append request. -/
def Admissible (m : Message) (r : Raft) (x : Message) : Prop :=
  x.type = MessageType.msgAppResp → x.reject = false → x.index = 0 ∨ Accepts m r x

lemma handleAppendEntries_answers (ht : m.type = MessageType.msgApp) (hterm : r.term = m.term)
    (h : r.handleAppendEntries m = Except.ok r') :
    ∃ x, r'.msgs = r.msgs ++ [x] ∧ Admissible m r x := by
  have hsent : ∀ {r₁ : Raft} {y : Message}, r₁.send y = Except.ok r' → r₁.msgs = r.msgs →
      r₁.term = r.term → y.type = MessageType.msgAppResp →
      (y.reject = false → y.index = m.index + m.entries.length ∨ y.index = r.raftLog.committed) →
      ∃ x, r'.msgs = r.msgs ++ [x] ∧ Admissible m r x := by
    intro r₁ y hsend hmsgs hsame hy hindex
    obtain ⟨rfl, -⟩ := send_eq_ok hsend
    refine ⟨r₁.signed y, by rw [← hmsgs], fun _ hreject => Or.inr ⟨ht, ?_, ?_⟩⟩
    · rw [signed_term (by rw [hy]; rfl) (by rw [hy]; rfl), hsame, hterm]
    · rw [signed_index]
      rw [signed_reject] at hreject
      exact hindex hreject
  rw [handleAppendEntries] at h
  split at h
  · exact hsent h rfl rfl rfl fun _ => Or.inr rfl
  · obtain ⟨⟨l, res⟩, happend, h⟩ := Outcome.bind_eq_ok.mp h
    dsimp only at h
    split at h
    · rw [maybeAppend] at happend
      split at happend
      · obtain ⟨l₁, -, happend⟩ := Outcome.bind_eq_ok.mp happend
        obtain ⟨l₂, -, happend⟩ := Outcome.bind_eq_ok.mp happend
        cases happend
        exact hsent h rfl rfl rfl fun _ => Or.inl rfl
      · cases happend
    · exact hsent h rfl rfl rfl fun hreject => by cases hreject

/-- **The answers to an append request.** -/
lemma step_msgApp_answers (ht : m.type = MessageType.msgApp) (hterm : m.term ≠ 0)
    (h : r.step m = Except.ok (r', status)) :
    ∃ sent, r'.msgs = r.msgs ++ sent ∧ ∀ x ∈ sent, Admissible m r x := by
  have hhandle : ∀ r₁ : Raft, r₁.msgs = r.msgs → r₁.raftLog = r.raftLog → r₁.term = m.term →
      r₁.handleAppendEntries m = Except.ok r' →
      ∃ sent, r'.msgs = r.msgs ++ sent ∧ ∀ x ∈ sent, Admissible m r x := by
    intro r₁ hmsgs hlog hterm h
    obtain ⟨x, hx, hanswers⟩ := handleAppendEntries_answers ht hterm h
    refine ⟨[x], by rw [hx, hmsgs], fun y hy htype hreject => ?_⟩
    obtain rfl := List.mem_singleton.mp hy
    refine (hanswers htype hreject).imp_right fun haccepts => ⟨ht, haccepts.term, ?_⟩
    rw [← hlog]
    exact haccepts.index
  have hrole : ∀ {r₁ : Raft}, r₁.msgs = r.msgs → r₁.raftLog = r.raftLog → r₁.term = m.term →
      r₁.stepRole m = Except.ok (r', status) →
      ∃ sent, r'.msgs = r.msgs ++ sent ∧ ∀ x ∈ sent, Admissible m r x := by
    intro r₁ hmsgs hlog hterm h
    have hcandidate : r₁.stepCandidate m = Except.ok (r', status) →
        ∃ sent, r'.msgs = r.msgs ++ sent ∧ ∀ x ∈ sent, Admissible m r x := by
      intro h
      rw [stepCandidate, ht] at h
      obtain ⟨r₂, hfollow, h⟩ := Outcome.bind_eq_ok.mp h
      obtain ⟨r₃, happend, h⟩ := Outcome.bind_eq_ok.mp h
      cases h
      have hr₂ := becomeFollower_eq_ok hfollow
      exact hhandle r₂ (by rw [hr₂]; exact hmsgs) (by rw [hr₂]; exact hlog) (by rw [hr₂]; rfl) happend
    rw [stepRole] at h
    split at h
    · rw [stepFollower, ht] at h
      obtain ⟨r₂, happend, h⟩ := Outcome.bind_eq_ok.mp h
      cases h
      exact hhandle { r₁ with electionElapsed := 0, lead := m.fromId } hmsgs hlog hterm happend
    · exact hcandidate h
    · exact hcandidate h
    · rw [stepLeader, ht] at h
      dsimp only at h
      refine ⟨[], ?_, fun x hx => by cases hx⟩
      rw [List.append_nil]
      split at h
      · cases h
        exact hmsgs
      · obtain ⟨r₂, hpeer, h⟩ := Outcome.bind_eq_ok.mp h
        cases h
        rw [stepLeaderPeer, ht] at hpeer
        cases hpeer
        exact hmsgs
  have hnothing : r' = r → ∃ sent, r'.msgs = r.msgs ++ sent ∧ ∀ x ∈ sent, Admissible m r x :=
    fun heq => ⟨[], by rw [heq, List.append_nil], fun x hx => by cases hx⟩
  obtain ⟨⟨r₁, continues⟩, hcheck, h⟩ := Outcome.bind_eq_ok.mp h
  rw [ht] at h
  rw [checkTerm, if_neg hterm] at hcheck
  split at hcheck
  · split at hcheck
    · cases hcheck
      cases h
      exact hnothing rfl
    · obtain ⟨r₂, hhigher, hcheck⟩ := Outcome.bind_eq_ok.mp hcheck
      cases hcheck
      rw [stepHigherTerm, ht] at hhigher
      have hr₁ := becomeFollower_eq_ok hhigher
      exact hrole (by rw [hr₁]; rfl) (by rw [hr₁]; rfl) (by rw [hr₁]; rfl) h
  split at hcheck
  · obtain ⟨r₂, hlower, hcheck⟩ := Outcome.bind_eq_ok.mp hcheck
    cases hcheck
    cases h
    rw [stepLowerTerm, ht] at hlower
    split at hlower
    · obtain ⟨rfl, -⟩ := send_eq_ok hlower
      refine ⟨_, rfl, fun x hx _ _ => Or.inl ?_⟩
      rw [List.mem_singleton.mp hx, signed_index]
    · simp only [reduceCtorEq, if_false] at hlower
      cases hlower
      exact hnothing rfl
  · rename_i hle hge
    cases hcheck
    exact hrole rfl rfl (by omega) h

/-- Other messages than append requests are not answered with an index. -/
lemma Deed.answers (ht : m.type ≠ MessageType.msgApp) (h : Deed m r r') :
    ∃ sent, r'.msgs = r.msgs ++ sent ∧
      ∀ x ∈ sent, x.type = MessageType.msgAppResp → x.reject = false → x.index = 0 := by
  have hquiet : r'.msgs = r.msgs → ∃ sent, r'.msgs = r.msgs ++ sent ∧
      ∀ x ∈ sent, x.type = MessageType.msgAppResp → x.reject = false → x.index = 0 :=
    fun heq => ⟨[], by rw [heq, List.append_nil], fun x hx => by cases hx⟩
  have hother : ∀ {y : Message}, y.type ≠ MessageType.msgAppResp → ∀ x ∈ [r.signed y],
      x.type = MessageType.msgAppResp → x.reject = false → x.index = 0 := by
    intro y hy x hx htype
    rw [List.mem_singleton.mp hx, signed_type] at htype
    exact absurd htype hy
  cases h with
  | quiet hd =>
      simp only [dossier, ledger, Prod.mk.injEq] at hd
      obtain ⟨-, -, -, -, hmsgs, -⟩ := hd
      exact hquiet hmsgs
  | @post y hposted =>
      refine ⟨_, rfl, ?_⟩
      cases hposted with
      | behind hm | accepted hm | refused hm => exact absurd hm ht
      | blank =>
          intro x hx _ _
          rw [List.mem_singleton.mp hx, signed_index]
      | forward hm =>
          refine hother ?_
          show m.type ≠ MessageType.msgAppResp
          rcases hm with hm | hm | hm <;> rw [hm] <;> exact MessageType.noConfusion
      | _ => exact hother MessageType.noConfusion
  | sendEntries | sendSnapshot => exact ⟨_, rfl, hother MessageType.noConfusion⟩
  | propose _ hes hsize hlog =>
      refine hquiet ?_
      rw [increaseUncommittedSize_frame hsize]
  | restore hm hs hindex hmatch hr' =>
      refine hquiet ?_
      rw [hr']
  | _ => exact hquiet rfl

lemma Deeds.answers (ht : m.type ≠ MessageType.msgApp) (h : Deeds m r r') :
    ∃ sent, r'.msgs = r.msgs ++ sent ∧
      ∀ x ∈ sent, x.type = MessageType.msgAppResp → x.reject = false → x.index = 0 := by
  induction h with
  | refl => exact ⟨[], by rw [List.append_nil], fun x hx => by cases hx⟩
  | tail _ hdeed ih =>
      obtain ⟨sent, hmsgs, hsent⟩ := ih
      obtain ⟨sent', hmsgs', hsent'⟩ := hdeed.answers ht
      refine ⟨sent ++ sent', by rw [hmsgs', hmsgs, List.append_assoc], fun x hx => ?_⟩
      rcases List.mem_append.mp hx with hx | hx
      · exact hsent x hx
      · exact hsent' x hx

/-- **What a node answers to a message that carries a term.** -/
theorem step_answers (hstamped : (Call.step m).Stamped) (h : r.step m = Except.ok (r', status)) :
    ∃ sent, r'.msgs = r.msgs ++ sent ∧ ∀ x ∈ sent, Admissible m r x := by
  by_cases ht : m.type = MessageType.msgApp
  · refine step_msgApp_answers ht (hstamped.resolve_right ?_) h
    rintro (hprop | hread)
    · exact absurd (ht.symm.trans hprop) MessageType.noConfusion
    · exact absurd (ht.symm.trans hread) MessageType.noConfusion
  · have hterm : m.term = 0 → m.type ≠ MessageType.msgApp ∧
        m.type ≠ MessageType.msgHeartbeat ∧ m.type ≠ MessageType.msgSnap := by
      intro hzero
      rcases hstamped.resolve_left (not_not_intro hzero) with hm | hm <;> rw [hm] <;> decide
    obtain ⟨sent, hmsgs, hsent⟩ := (Deeds.step hterm h).answers ht
    exact ⟨sent, hmsgs, fun x hx htype hreject => Or.inl (hsent x hx htype hreject)⟩

/-! ## In office -/

/-- The leader is still in office, and its peers have taken nothing back. -/
def Reigns (r r' : Raft) : Prop :=
  r'.state = RaftState.leader ∧ r'.term = r.term ∧ ∀ j pr', r'.getProgress j = some pr' →
    ∃ pr, r.getProgress j = some pr ∧ pr.matched ≤ pr'.matched

/-- The node will not be a leader of term `t` any more. -/
def Past (r : Raft) (t : Nat) : Prop := t < r.term ∨ t = r.term ∧ ¬ r.Elevated

lemma Past.same {t : Nat} (h : r.Past t) (hterm : r'.term = r.term) (hstate : r'.state = r.state) :
    r'.Past t := by
  rw [Past, Elevated, hterm, hstate]
  exact h

lemma Past.lowered {t : Nat} (hle : t ≤ r.term) (hterm : r.term ≤ r'.term)
    (hstate : ¬ r'.Elevated) : r'.Past t := by
  rcases Nat.lt_or_ge t r'.term with hlt | hge
  · exact Or.inl hlt
  · exact Or.inr ⟨by omega, hstate⟩

lemma Past.le {t : Nat} (h : r.Past t) : t ≤ r.term := by
  rcases h with hlt | ⟨heq, -⟩ <;> omega

lemma Deed.past {t : Nat} (h : r.Past t) (hdeed : Deed m r r') : r'.Past t := by
  have hnot : ∀ {s : RaftState}, s = RaftState.follower ∨ s = RaftState.preCandidate →
      ¬ (s = RaftState.candidate ∨ s = RaftState.leader) := by
    rintro s (rfl | rfl) (hs | hs) <;> cases hs
  cases hdeed with
  | quiet hd =>
      simp only [dossier, ledger, Prod.mk.injEq] at hd
      exact h.same hd.1.2.1 hd.1.2.2.2.1
  | follow hle lead => exact Past.lowered h.le hle (hnot (Or.inl rfl))
  | prepare hs => exact Past.lowered h.le (Nat.le_refl _) (hnot (Or.inr rfl))
  | stand hs => exact Or.inl (Nat.lt_succ_of_le h.le)
  | lead hs hwon =>
      refine Or.inl (h.resolve_right fun hsame => hsame.2 (Or.inl hs))
  | propose hs hes hsize hlog =>
      rw [increaseUncommittedSize_frame hsize]
      exact h.same rfl rfl
  | restore hm hs hindex hmatch hr' =>
      rw [hr']
      exact h.same rfl rfl
  | _ => exact h.same rfl rfl

lemma Reigns.same (hs : r.state = RaftState.leader) (hstate : r'.state = r.state)
    (hterm : r'.term = r.term) (hprs : r'.prs = r.prs) (hlearners : r'.learnerPrs = r.learnerPrs) :
    r.Reigns r' := by
  refine ⟨hstate.trans hs, hterm, fun j pr' hpr' => ⟨pr', ?_, Nat.le_refl _⟩⟩
  rwa [getProgress_congr hprs hlearners] at hpr'

lemma Reigns.modify (hs : r.state = RaftState.leader) {f : Progress → Progress}
    (hf : ∀ p, r.getProgress id = some p → p.matched ≤ (f p).matched) :
    r.Reigns (r.modifyProgress id f) := by
  refine ⟨hs, rfl, fun j pr' hpr' => ?_⟩
  by_cases hj : j = id
  · rw [hj, getProgress_modifyProgress, if_pos rfl] at hpr'
    obtain ⟨p, hp, rfl⟩ := Option.map_eq_some_iff.mp hpr'
    exact ⟨p, hj ▸ hp, hf p hp⟩
  · rw [getProgress_modifyProgress_of_ne hj] at hpr'
    exact ⟨pr', hpr', Nat.le_refl _⟩

/-- A deed of a leader: it stays in office, or is out of it for good. -/
lemma Deed.reigns (hs : r.state = RaftState.leader) (hdeed : Deed m r r') :
    r.Reigns r' ∨ r'.Past r.term := by
  have hother : ∀ {s : RaftState}, s ≠ RaftState.leader → r.state ≠ s := by
    rintro s hne rfl
    exact hne hs
  cases hdeed with
  | quiet hd =>
      simp only [dossier, ledger, Prod.mk.injEq] at hd
      exact Or.inl (Reigns.same hs hd.1.2.2.2.1 hd.1.2.1 hd.2.1 hd.2.2.1)
  | sendEntries hpr hopen hterm hes hsent =>
      refine Or.inl (Reigns.modify hs fun p hp => ?_)
      rw [Option.some.inj (hp.symm.trans hpr)]
      exact (Progress.matched_afterSending hsent).ge
  | sendSnapshot => exact Or.inl (Reigns.modify hs fun p _ => Nat.le_refl _)
  | answered _ htimely hpr hanswered =>
      refine Or.inl (Reigns.modify hs fun p hp => ?_)
      rw [Option.some.inj (hp.symm.trans hpr)]
      exact hanswered.matched_le
  | own =>
      refine Or.inl (Reigns.modify hs fun p _ => ?_)
      rw [Progress.matched_maybeUpdate]
      exact Nat.le_max_left ..
  | follow hle lead =>
      refine Or.inr (Past.lowered (Nat.le_refl _) hle ?_)
      rintro (hstate | hstate) <;> cases hstate
  | prepare hne | stand hne => exact absurd hs hne
  | lead hcandidate => exact absurd hcandidate (hother RaftState.noConfusion)
  | append _ hfollower | restore _ hfollower =>
      exact absurd hfollower (hother RaftState.noConfusion)
  | propose _ hes hsize hlog =>
      rw [increaseUncommittedSize_frame hsize]
      exact Or.inl (Reigns.same hs rfl rfl rfl rfl)
  | _ => exact Or.inl (Reigns.same hs rfl rfl rfl rfl)

/-- **A leader stays in office and its peers take nothing back, or it is out of office for good.** -/
theorem Deeds.reigns (hs : r.state = RaftState.leader) (hdeeds : Deeds m r r') :
    r.Reigns r' ∨ r'.Past r.term := by
  induction hdeeds with
  | refl => exact Or.inl (Reigns.same hs rfl rfl rfl rfl)
  | tail _ hdeed ih =>
      rcases ih with ⟨hstate, hterm, hpeers⟩ | hpast
      · rcases hdeed.reigns hstate with ⟨hstate', hterm', hpeers'⟩ | hpast
        · refine Or.inl ⟨hstate', hterm'.trans hterm, fun j pr' hpr' => ?_⟩
          obtain ⟨pr₁, hpr₁, hle₁⟩ := hpeers' j pr' hpr'
          obtain ⟨pr, hpr, hle⟩ := hpeers j pr₁ hpr₁
          exact ⟨pr, hpr, hle.trans hle₁⟩
        · exact Or.inr (hterm ▸ hpast)
      · exact Or.inr (hdeed.past hpast)

end Raft

end RaftKv
