import RaftKv.Leader.Commit
import RaftKv.Leader.Work
import RaftKv.Raft.Deeds
import RaftKv.Raft.InFlights

/-!
# The send loop after an acknowledgement

`while (maybe_send_append(from, false))`: what is left of the log is sent in batches, as long as the
window has room.

* `batches` — how entries are cut into batches.
* `Raft.unsent` — what a peer has not been sent.
* `Raft.maybeSendAppend_stops`, `maybeSendAppend_sends` — one round of the loop.
* `Raft.drainAppends_drains`, `drainAppends_out` — **the loop ends with a peer that cannot be sent more,
  unless it would make a window of `2 ^ 31` messages grow**.
* `Raft.acknowledgement_drains` — the same for a whole acknowledgement.
-/

namespace RaftKv

/-! ## Batches -/

lemma entryLimitSize_length_pos (maxSize : Nat) {es : List Entry} (h : es ≠ []) :
    0 < (entryLimitSize maxSize es).length :=
  List.length_pos_iff.mpr fun hnil => h (entryLimitSize_eq_nil.mp hnil)

/-- The batches in which entries are sent, each as large as `maxSize` allows. -/
def batches (maxSize : Nat) (es : List Entry) : List (List Entry) :=
  if es = [] then []
  else entryLimitSize maxSize es ::
    batches maxSize (es.drop (entryLimitSize maxSize es).length)
termination_by es.length
decreasing_by
  rename_i hne
  have := entryLimitSize_length_pos maxSize hne
  have := List.length_pos_iff.mpr hne
  rw [List.length_drop]
  omega

lemma batches_nil (maxSize : Nat) : batches maxSize [] = [] := by
  rw [batches, if_pos rfl]

lemma batches_cons {maxSize : Nat} {es : List Entry} (h : es ≠ []) :
    batches maxSize es = entryLimitSize maxSize es ::
      batches maxSize (es.drop (entryLimitSize maxSize es).length) := by
  rw [batches, if_neg h]

/-- A window that the operations of the queue lead to. -/
def InFlights.Sane (f : InFlights) : Prop := ∃ w, Flights.Kept { ring := f, queue := w }

namespace Raft

variable {r r' : Raft} {id : Nat} {pr : Progress}

/-- What a peer whose next entry is not compacted has not been sent. -/
def unsent (r : Raft) (pr : Progress) : List Entry :=
  if pr.next < r.raftLog.firstIndex then []
  else r.raftLog.logical.drop (pr.next - (r.raftLog.base + 1))

/-- Append requests to a peer, whose entries follow each other from `next` up to `last`. -/
def Chained (id : Nat) : Nat → List Message → Nat → Prop
  | next, [], last => last = next
  | next, m :: ms, last => m.type = MessageType.msgApp ∧ m.toId = id ∧ m.index + 1 = next ∧
      m.entries ≠ [] ∧ Numbered next m.entries ∧ Chained id (next + m.entries.length) ms last

/-- A peer cannot be sent more. -/
def Exhausted (r : Raft) (pr : Progress) : Prop :=
  pr.isPaused = true ∨ pr.next > r.raftLog.lastIndex ∨ pr.next < r.raftLog.firstIndex

/-- What the loop has done: the peer cannot be sent more, and the entries that it was sent while it
was replicating follow each other without a gap. -/
structure Drained (r : Raft) (id : Nat) (pr : Progress) (r' : Raft) : Prop where
  log : r'.raftLog = r.raftLog
  exhausted : ∃ pr', r'.getProgress id = some pr' ∧ r'.Exhausted pr' ∧
    ∃ reqs last, r'.msgs = r.msgs ++ reqs ∧ Chained id pr.next reqs last ∧
      (pr.state = ProgressState.replicate → last = pr'.next)

/-! ## One round -/

lemma lastIndex_lt_of_unsent (hwf : r.raftLog.WF) (hfirst : r.raftLog.firstIndex ≤ pr.next) :
    r.unsent pr = [] ↔ r.raftLog.lastIndex < pr.next := by
  rw [unsent, if_neg (Nat.not_lt.mpr hfirst), List.drop_eq_nil_iff, RaftLog.lastIndex_eq hwf]
  rw [RaftLog.firstIndex_eq] at hfirst
  omega

/-- What is read for a peer. -/
lemma entries_unsent (hwf : r.raftLog.WF) (hfirst : r.raftLog.firstIndex ≤ pr.next) :
    r.raftLog.entries pr.next r.maxMsgSize =
      Except.ok (Except.ok (entryLimitSize r.maxMsgSize (r.unsent pr))) := by
  have hlast := RaftLog.lastIndex_eq hwf
  have hfirst' := hfirst
  rw [RaftLog.firstIndex_eq] at hfirst'
  rw [RaftLog.entries]
  split
  · rename_i hgt
    rw [(lastIndex_lt_of_unsent hwf hfirst).mpr hgt]
    rfl
  · rename_i hle
    rw [RaftLog.slice_eq hwf r.maxMsgSize hfirst' (by omega) (by omega), unsent,
      if_neg (Nat.not_lt.mpr hfirst), List.take_of_length_le]
    rw [List.length_drop]
    omega

/-- **A round that stops** leaves a peer that cannot be sent more. -/
theorem maybeSendAppend_stops (hwf : r.raftLog.WF) (hpr : r.getProgress id = some pr)
    (hstop : pr.isPaused = true ∨ r.unsent pr = []) :
    r.maybeSendAppend id false = Except.ok (r, false) ∧ r.Exhausted pr := by
  by_cases hpaused : pr.isPaused = true
  · refine ⟨?_, Or.inl hpaused⟩
    rw [maybeSendAppend, hpr]
    exact if_pos hpaused
  have hnil := hstop.resolve_left hpaused
  rcases Nat.lt_or_ge pr.next r.raftLog.firstIndex with hlow | hfirst
  · refine ⟨?_, Or.inr (Or.inr hlow)⟩
    rw [maybeSendAppend, hpr]
    dsimp only
    rw [if_neg hpaused]
    have hentries : ∃ res, r.raftLog.entries pr.next r.maxMsgSize = Except.ok res ∧
        res.toOption.getD [] = [] := by
      rw [RaftLog.entries]
      split
      · exact ⟨_, rfl, rfl⟩
      · rename_i hle
        rw [RaftLog.slice, RaftLog.mustCheckOutOfBounds, if_neg (by omega), if_pos hlow]
        exact ⟨_, rfl, rfl⟩
    obtain ⟨res, hres, hempty⟩ := hentries
    rw [hres, Outcome.ok_bind, hempty]
    rfl
  · have hgt := (lastIndex_lt_of_unsent hwf hfirst).mp hnil
    refine ⟨?_, Or.inr (Or.inl hgt)⟩
    rw [maybeSendAppend, hpr]
    dsimp only
    rw [if_neg hpaused, entries_unsent hwf hfirst, hnil]
    rfl

/-- The request that a batch is sent with. -/
def batchRequest (r : Raft) (id : Nat) (pr : Progress) (es : List Entry) : Message :=
  r.signed { type := MessageType.msgApp, toId := id, index := pr.next - 1,
             logTerm := r.raftLog.logicalTerm (pr.next - 1), entries := es,
             commit := r.raftLog.committed }

/-- **A round that sends** a batch. -/
theorem maybeSendAppend_sends (hwf : r.raftLog.WF) (hpr : r.getProgress id = some pr)
    (hopen : ¬ pr.isPaused = true) (hsome : r.unsent pr ≠ []) :
    r.maybeSendAppend id false = (do
      let pr' ← pr.afterSending (entryLimitSize r.maxMsgSize (r.unsent pr))
      return ({ r.modifyProgress id fun _ => pr' with
        msgs := r.msgs ++ [r.batchRequest id pr (entryLimitSize r.maxMsgSize (r.unsent pr))] },
        true)) := by
  have hfirst : r.raftLog.firstIndex ≤ pr.next := by
    by_contra hlow
    exact hsome (if_pos (Nat.not_le.mp hlow))
  have hbatch : entryLimitSize r.maxMsgSize (r.unsent pr) ≠ [] := fun hnil =>
    hsome (entryLimitSize_eq_nil.mp hnil)
  rw [maybeSendAppend, hpr]
  dsimp only
  rw [if_neg hopen, entries_unsent hwf hfirst, RaftLog.term_eq hwf, Outcome.ok_bind]
  refine (if_neg ?_).trans rfl
  exact fun hnil => hbatch hnil.1

lemma unsent_numbered (hwf : r.raftLog.WF) : Numbered pr.next (r.unsent pr) := by
  rw [unsent]
  split
  · exact Numbered.nil _
  · rename_i hfirst
    rw [RaftLog.firstIndex_eq] at hfirst
    have hdrop := hwf.numbered.drop (pr.next - (r.raftLog.base + 1))
    rwa [show r.raftLog.base + 1 + (pr.next - (r.raftLog.base + 1)) = pr.next by omega] at hdrop

/-- What is unsent behind a batch. -/
lemma unsent_drop {n : Nat} (hsome : r.unsent pr ≠ []) {pr' : Progress} (hlog : r'.raftLog = r.raftLog)
    (hnext : pr'.next = pr.next + n) : r'.unsent pr' = (r.unsent pr).drop n := by
  have hfirst : ¬ pr.next < r.raftLog.firstIndex := fun hlow => hsome (if_pos hlow)
  rw [unsent, unsent, if_neg hfirst, hlog, hnext, if_neg (by omega), List.drop_drop]
  rw [RaftLog.firstIndex_eq] at hfirst
  congr 1
  omega

/-- The batch of a round, and the last entry in it. -/
lemma batch_last (hwf : r.raftLog.WF) (hsome : r.unsent pr ≠ []) :
    ∃ e, (entryLimitSize r.maxMsgSize (r.unsent pr)).getLast? = some e ∧
      e.index + 1 = pr.next + (entryLimitSize r.maxMsgSize (r.unsent pr)).length ∧
      Numbered pr.next (entryLimitSize r.maxMsgSize (r.unsent pr)) := by
  have hbatch : entryLimitSize r.maxMsgSize (r.unsent pr) ≠ [] := fun hnil =>
    hsome (entryLimitSize_eq_nil.mp hnil)
  have hnum : Numbered pr.next (entryLimitSize r.maxMsgSize (r.unsent pr)) := by
    rw [List.prefix_iff_eq_take.mp (entryLimitSize_isPrefix _ _)]
    exact (unsent_numbered hwf).take _
  have hpos := List.length_pos_iff.mpr hbatch
  have hlast := List.getLast?_eq_some_getLast hbatch
  refine ⟨_, hlast, ?_, hnum⟩
  rw [List.getLast?_eq_getElem?] at hlast
  have hindex := hnum _ _ hlast
  omega

/-- The batch of a peer that is replicating takes a place in its window. -/
lemma round_replicate {w : List Nat} (hwf : r.raftLog.WF) (hpr : r.getProgress id = some pr)
    (hstate : pr.state = ProgressState.replicate) (hsome : r.unsent pr ≠ [])
    (hkept : Flights.Kept { ring := pr.inflights, queue := w })
    (hopen : ¬ pr.inflights.isFull = true) (hgrowable : pr.inflights.Growable) :
    ∃ r₁ pr₁ w₁, r.maybeSendAppend id false = Except.ok (r₁, true) ∧
      r₁.raftLog = r.raftLog ∧ r₁.maxMsgSize = r.maxMsgSize ∧
      r₁.msgs = r.msgs ++ [r.batchRequest id pr (entryLimitSize r.maxMsgSize (r.unsent pr))] ∧
      r₁.getProgress id = some pr₁ ∧ pr₁.state = ProgressState.replicate ∧
      pr₁.next = pr.next + (entryLimitSize r.maxMsgSize (r.unsent pr)).length ∧
      Flights.Kept { ring := pr₁.inflights, queue := w₁ } ∧
      pr₁.inflights.size = pr.inflights.size ∧
      pr₁.inflights.start + pr₁.inflights.count =
        pr.inflights.start + pr.inflights.count + 1 := by
  obtain ⟨e, hlast, hnext, -⟩ := batch_last hwf hsome
  have hroom : w.length < pr.inflights.size := by
    have hfits := hkept.holds.fits
    have hne : w.length ≠ pr.inflights.size := fun heq => hopen (hkept.holds.isFull.mpr heq)
    exact Nat.lt_of_le_of_ne hfits hne
  obtain ⟨f', hadd, -, hsize, hend, -⟩ := hkept.holds.add hroom hgrowable e.index
  obtain ⟨s', hact, hkept'⟩ := Flights.act_kept (a := WindowAction.add e.index) hkept hopen hgrowable
  rw [Flights.act, hadd] at hact
  cases hact
  have hpaused : ¬ pr.isPaused = true := by
    rw [Progress.isPaused, hstate]
    exact hopen
  have hafter : pr.afterSending (entryLimitSize r.maxMsgSize (r.unsent pr)) =
      Except.ok { pr.optimisticUpdate e.index with inflights := f' } := by
    rw [Progress.afterSending, hlast]
    dsimp only
    rw [hstate]
    show (do let inflights ← pr.inflights.add e.index; _) = _
    rw [hadd]
    rfl
  let pr₁ : Progress := { pr.optimisticUpdate e.index with inflights := f' }
  refine ⟨{ r.modifyProgress id fun _ => pr₁ with
      msgs := r.msgs ++ [r.batchRequest id pr (entryLimitSize r.maxMsgSize (r.unsent pr))] },
    pr₁, w ++ [e.index], ?_, rfl, rfl, rfl, getProgress_modifyProgress_self hpr _, hstate, hnext,
    hkept', hsize, hend⟩
  rw [maybeSendAppend_sends hwf hpr hpaused hsome, hafter]
  rfl

/-- The same round where a window of `2 ^ 31` messages would have to grow. -/
lemma round_out {w : List Nat} (hwf : r.raftLog.WF) (hpr : r.getProgress id = some pr)
    (hstate : pr.state = ProgressState.replicate) (hsome : r.unsent pr ≠ [])
    (hkept : Flights.Kept { ring := pr.inflights, queue := w })
    (hopen : ¬ pr.inflights.isFull = true) (hgrowable : ¬ pr.inflights.Growable) :
    r.maybeSendAppend id false = Except.error (Crash.outOfRange "buffer[next]") := by
  obtain ⟨e, hlast, -⟩ := batch_last hwf hsome
  have hpaused : ¬ pr.isPaused = true := by
    rw [Progress.isPaused, hstate]
    exact hopen
  have hadd : pr.inflights.add e.index = Except.error (Crash.outOfRange "buffer[next]") := by
    have hout := Flights.act_out (a := WindowAction.add e.index) hkept hopen hgrowable
    rw [Flights.act] at hout
    cases hadd : pr.inflights.add e.index with
    | ok f' =>
        rw [hadd] at hout
        cases hout
    | error c =>
        rw [hadd] at hout
        cases hout
        rfl
  rw [maybeSendAppend_sends hwf hpr hpaused hsome, Progress.afterSending, hlast]
  dsimp only
  rw [hstate]
  show (do let inflights ← pr.inflights.add e.index; _) >>= _ = _
  rw [hadd]
  rfl

/-! ## The loop -/

lemma batchRequest_chained {es : List Entry} {reqs : List Message} {last : Nat} (hpos : 0 < pr.next)
    (hes : es ≠ []) (hnum : Numbered pr.next es)
    (hrest : Chained id (pr.next + es.length) reqs last) :
    Chained id pr.next (r.batchRequest id pr es :: reqs) last := by
  refine ⟨signed_type .., signed_toId .., ?_, ?_, ?_, ?_⟩
  · rw [batchRequest, signed_index]
    exact Nat.sub_add_cancel hpos
  · rwa [batchRequest, signed_entries]
  · rwa [batchRequest, signed_entries]
  · rwa [batchRequest, signed_entries]

lemma next_pos_of_unsent (hsome : r.unsent pr ≠ []) : 0 < pr.next := by
  have hfirst : ¬ pr.next < r.raftLog.firstIndex := fun hlow => hsome (if_pos hlow)
  rw [RaftLog.firstIndex_eq] at hfirst
  omega

/-- A loop that stops at once. -/
lemma drainAppends_stops (fuel : Nat) (hwf : r.raftLog.WF) (hpr : r.getProgress id = some pr)
    (hstop : pr.isPaused = true ∨ r.unsent pr = []) :
    drainAppends id (fuel + 1) r = Except.ok r ∧ Drained r id pr r := by
  obtain ⟨hround, hexhausted⟩ := maybeSendAppend_stops hwf hpr hstop
  refine ⟨?_, rfl, pr, hpr, hexhausted, [], pr.next, (List.append_nil _).symm, rfl, fun _ => rfl⟩
  rw [drainAppends, hround]
  rfl

lemma drainAppends_sends {fuel : Nat} {r₁ : Raft}
    (hround : r.maybeSendAppend id false = Except.ok (r₁, true)) :
    drainAppends id (fuel + 1) r = drainAppends id fuel r₁ := by
  rw [drainAppends, hround]
  rfl

/-- **The loop of a peer that is replicating ends**, if the window need not grow too far.  Every round
moves the peer's next index forward. -/
theorem drainAppends_drains {fuel : Nat} {w : List Nat} (hwf : r.raftLog.WF)
    (hpr : r.getProgress id = some pr) (hstate : pr.state = ProgressState.replicate)
    (hkept : Flights.Kept { ring := pr.inflights, queue := w })
    (hfuel : r.raftLog.lastIndex + 1 - pr.next < fuel)
    (hroom : pr.inflights.size ≤ 2 ^ 31 ∨ pr.inflights.start + pr.inflights.count +
      (batches r.maxMsgSize (r.unsent pr)).length ≤ 2 ^ 31) :
    ∃ r', drainAppends id fuel r = Except.ok r' ∧ Drained r id pr r' := by
  induction fuel generalizing r pr w with
  | zero => omega
  | succ fuel ih =>
      by_cases hstop : pr.isPaused = true ∨ r.unsent pr = []
      · obtain ⟨hloop, hdrained⟩ := drainAppends_stops fuel hwf hpr hstop
        exact ⟨r, hloop, hdrained⟩
      obtain ⟨hopen, hsome⟩ := not_or.mp hstop
      rw [Progress.isPaused, hstate] at hopen
      rw [batches_cons hsome, List.length_cons] at hroom
      obtain ⟨r₁, pr₁, w₁, hround, hlog, hmax, hmsgs, hpr₁, hstate₁, hnext, hkept₁, hsize, hend⟩ :=
        round_replicate hwf hpr hstate hsome hkept hopen (hroom.imp_right fun h => by omega)
      obtain ⟨-, -, -, hnum⟩ := batch_last hwf hsome
      have hpos := entryLimitSize_length_pos r.maxMsgSize hsome
      have hfirst : ¬ r.raftLog.lastIndex < pr.next := fun hlt =>
        hsome ((lastIndex_lt_of_unsent hwf (by
          by_contra hlow
          exact hsome (if_pos (Nat.not_le.mp hlow)))).mpr hlt)
      have hrest := ih (hlog ▸ hwf) hpr₁ hstate₁ hkept₁ (by rw [hlog, hnext]; omega)
        (by rw [hsize, hend, hmax, unsent_drop hsome hlog hnext]; omega)
      obtain ⟨r', hloop, hlog', pr', hpr', hexhausted, reqs, last, hmsgs', hchained, hlast⟩ := hrest
      refine ⟨r', (drainAppends_sends hround).trans hloop, hlog'.trans hlog, pr', hpr', hexhausted,
        r.batchRequest id pr (entryLimitSize r.maxMsgSize (r.unsent pr)) :: reqs, last, ?_, ?_,
        fun _ => hlast hstate₁⟩
      · rw [hmsgs', hmsgs, List.append_assoc]
        rfl
      · exact batchRequest_chained (next_pos_of_unsent hsome) (List.length_pos_iff.mp hpos) hnum
          (hnext ▸ hchained)

/-- **A loop that makes a window of `2 ^ 31` messages grow** ends behind its buffer. -/
theorem drainAppends_out {fuel : Nat} {w : List Nat} (hwf : r.raftLog.WF)
    (hpr : r.getProgress id = some pr) (hstate : pr.state = ProgressState.replicate)
    (hkept : Flights.Kept { ring := pr.inflights, queue := w })
    (hfuel : r.raftLog.lastIndex + 1 - pr.next < fuel)
    (hroom : 2 ^ 31 < pr.inflights.size ∧ 2 ^ 31 < pr.inflights.start + pr.inflights.count +
      (batches r.maxMsgSize (r.unsent pr)).length) :
    drainAppends id fuel r = Except.error (Crash.outOfRange "buffer[next]") := by
  induction fuel generalizing r pr w with
  | zero => omega
  | succ fuel ih =>
      have hsmall : pr.inflights.start + pr.inflights.count ≤ 2 ^ 31 :=
        (hkept.small.resolve_left (Nat.not_le.mpr hroom.1)).1
      have hsome : r.unsent pr ≠ [] := by
        intro hnil
        rw [hnil, batches_nil, List.length_nil] at hroom
        omega
      have hopen : ¬ pr.inflights.isFull = true := by
        rw [InFlights.isFull, beq_iff_eq]
        omega
      rw [batches_cons hsome, List.length_cons] at hroom
      by_cases hgrowable : pr.inflights.Growable
      · obtain ⟨r₁, pr₁, w₁, hround, hlog, hmax, -, hpr₁, hstate₁, hnext, hkept₁, hsize, hend⟩ :=
          round_replicate hwf hpr hstate hsome hkept hopen hgrowable
        have hpos := entryLimitSize_length_pos r.maxMsgSize hsome
        have hfirst : ¬ r.raftLog.lastIndex < pr.next := fun hlt =>
          hsome ((lastIndex_lt_of_unsent hwf (by
            by_contra hlow
            exact hsome (if_pos (Nat.not_le.mp hlow)))).mpr hlt)
        rw [drainAppends_sends hround]
        refine ih (hlog ▸ hwf) hpr₁ hstate₁ hkept₁ (by rw [hlog, hnext]; omega) ?_
        rw [hsize, hend, hmax, unsent_drop hsome hlog hnext]
        omega
      · rw [drainAppends, round_out hwf hpr hstate hsome hkept hopen hgrowable]
        rfl

/-- The loop of a peer that is probed sends one batch, and pauses. -/
lemma drainAppends_probe {fuel : Nat} (hwf : r.raftLog.WF) (hpr : r.getProgress id = some pr)
    (hstate : pr.state = ProgressState.probe) :
    ∃ r', drainAppends id (fuel + 2) r = Except.ok r' ∧ Drained r id pr r' := by
  by_cases hstop : pr.isPaused = true ∨ r.unsent pr = []
  · obtain ⟨hloop, hdrained⟩ := drainAppends_stops (fuel + 1) hwf hpr hstop
    exact ⟨r, hloop, hdrained⟩
  obtain ⟨hopen, hsome⟩ := not_or.mp hstop
  obtain ⟨e, hlast, -, hnum⟩ := batch_last hwf hsome
  let es := entryLimitSize r.maxMsgSize (r.unsent pr)
  let r₁ : Raft := { r.modifyProgress id fun _ => pr.setPause with
    msgs := r.msgs ++ [r.batchRequest id pr es] }
  have hround : r.maybeSendAppend id false = Except.ok (r₁, true) := by
    rw [maybeSendAppend_sends hwf hpr hopen hsome, Progress.afterSending, hlast]
    dsimp only
    rw [hstate]
    rfl
  have hpr₁ : r₁.getProgress id = some pr.setPause := getProgress_modifyProgress_self hpr _
  have hpaused : pr.setPause.isPaused = true := by
    rw [Progress.isPaused, show pr.setPause.state = pr.state from rfl, hstate]
    rfl
  obtain ⟨hloop, -, hdone⟩ := drainAppends_stops fuel (r := r₁) hwf hpr₁ (Or.inl hpaused)
  refine ⟨r₁, (drainAppends_sends hround).trans hloop, rfl, pr.setPause, hpr₁, Or.inl hpaused,
    [r.batchRequest id pr es], pr.next + es.length, rfl, ?_, ?_⟩
  · exact batchRequest_chained (next_pos_of_unsent hsome)
      (fun hnil => hsome (entryLimitSize_eq_nil.mp hnil)) hnum rfl
  · intro hreplicate
    rw [hstate] at hreplicate
    cases hreplicate

/-- The window of the peer has room for what is to be sent, or need not grow beyond `2 ^ 31`
messages. -/
def RoomToDrain (r : Raft) (pr : Progress) : Prop :=
  pr.state = ProgressState.replicate → pr.inflights.size ≤ 2 ^ 31 ∨
    pr.inflights.start + pr.inflights.count + (batches r.maxMsgSize (r.unsent pr)).length ≤ 2 ^ 31

/-- **When the loop drains.** -/
theorem drainAppends_iff (hwf : r.raftLog.WF) (hpr : r.getProgress id = some pr)
    (hsane : pr.inflights.Sane) :
    (∃ r', drainAppends id (r.raftLog.lastIndex + 2) r = Except.ok r' ∧ Drained r id pr r') ↔
      r.RoomToDrain pr := by
  obtain ⟨w, hkept⟩ := hsane
  cases hstate : pr.state with
  | probe =>
      refine iff_of_true (drainAppends_probe hwf hpr hstate) fun hreplicate => ?_
      rw [hstate] at hreplicate
      cases hreplicate
  | snapshot =>
      have hpaused : pr.isPaused = true := by
        rw [Progress.isPaused, hstate]
      obtain ⟨hloop, hdrained⟩ := drainAppends_stops (r.raftLog.lastIndex + 1) hwf hpr
        (Or.inl hpaused)
      refine iff_of_true ⟨r, hloop, hdrained⟩ fun hreplicate => ?_
      rw [hstate] at hreplicate
      cases hreplicate
  | replicate =>
      constructor
      · rintro ⟨r', hloop, -⟩ -
        by_contra hroom
        rw [not_or, Nat.not_le, Nat.not_le] at hroom
        rw [drainAppends_out hwf hpr hstate hkept (by omega) hroom] at hloop
        cases hloop
      · intro hroom
        exact drainAppends_drains hwf hpr hstate hkept (by omega) (hroom hstate)

/-! ## What comes before the loop -/

/-- The log keeps its form, and the peers keep sane windows. -/
structure KeepsWindows (r r' : Raft) : Prop where
  wf : r.raftLog.WF → r'.raftLog.WF
  windows : ∀ id pr, r.getProgress id = some pr → pr.inflights.Sane →
    ∃ pr', r'.getProgress id = some pr' ∧ pr'.inflights.Sane

lemma KeepsWindows.refl (r : Raft) : KeepsWindows r r := ⟨fun h => h, fun _ pr hpr h => ⟨pr, hpr, h⟩⟩

lemma KeepsWindows.trans {r₁ : Raft} (h : KeepsWindows r r₁) (h' : KeepsWindows r₁ r') :
    KeepsWindows r r' := by
  refine ⟨fun hwf => h'.wf (h.wf hwf), fun id pr hpr hsane => ?_⟩
  obtain ⟨pr₁, hpr₁, hsane₁⟩ := h.windows id pr hpr hsane
  exact h'.windows id pr₁ hpr₁ hsane₁

/-- One peer's progress is replaced. -/
lemma KeepsWindows.set {pr' : Progress} (hpr : r.getProgress id = some pr)
    (h : pr.inflights.Sane → pr'.inflights.Sane) :
    KeepsWindows r (r.modifyProgress id fun _ => pr') := by
  refine ⟨fun hwf => hwf, fun a p hp hsane => ?_⟩
  by_cases ha : a = id
  · subst ha
    obtain rfl := Option.some.inj (hpr.symm.trans hp)
    exact ⟨pr', getProgress_modifyProgress_self hpr _, h hsane⟩
  · exact ⟨p, (getProgress_modifyProgress_of_ne ha _).trans hp, hsane⟩

/-- What is sent does not matter. -/
lemma KeepsWindows.send {r₁ : Raft} {m : Message} (h : KeepsWindows r r₁)
    (hsend : r₁.send m = Except.ok r') : KeepsWindows r r' := by
  rw [(send_eq_ok hsend).1]
  exact ⟨h.wf, h.windows⟩

lemma sane_reset {f : InFlights} (h : f.Sane) : f.reset.Sane := by
  obtain ⟨w, hkept⟩ := h
  obtain ⟨s', hact, hkept'⟩ := Flights.act_kept (a := WindowAction.reset) hkept trivial trivial
  cases hact
  exact ⟨[], hkept'⟩

lemma sane_freeTo {f f' : InFlights} {upTo : Nat} (h : f.Sane) (hfree : f.freeTo upTo = Except.ok f') :
    f'.Sane := by
  obtain ⟨w, hkept⟩ := h
  obtain ⟨s', hact, hkept'⟩ := Flights.act_kept (a := WindowAction.freeTo upTo) hkept trivial trivial
  rw [Flights.act, hfree] at hact
  cases hact
  exact ⟨_, hkept'⟩

lemma sane_add {f f' : InFlights} {inflight : Nat} (h : f.Sane)
    (hadd : f.add inflight = Except.ok f') : f'.Sane := by
  obtain ⟨w, hkept⟩ := h
  have hopen : ¬ f.isFull = true := by
    intro hfull
    rw [InFlights.add, if_pos hfull] at hadd
    cases hadd
  have hact : Flights.act { ring := f, queue := w } (WindowAction.add inflight) =
      Except.ok { ring := f', queue := w ++ [inflight] } := by
    rw [Flights.act, hadd]
    rfl
  have hroomy : Flights.Roomy { ring := f, queue := w } (WindowAction.add inflight) := by
    by_contra hout
    rw [Flights.act_out (a := WindowAction.add inflight) hkept hopen hout] at hact
    cases hact
  obtain ⟨s', hact', hkept'⟩ :=
    Flights.act_kept (a := WindowAction.add inflight) hkept hopen hroomy
  cases hact.symm.trans hact'
  exact ⟨_, hkept'⟩

lemma sane_afterSending {es : List Entry} {pr' : Progress} (h : pr.inflights.Sane)
    (hafter : pr.afterSending es = Except.ok pr') : pr'.inflights.Sane := by
  rw [Progress.afterSending] at hafter
  split at hafter
  · cases hafter
    exact h
  split at hafter
  · obtain ⟨f, hadd, hafter⟩ := Outcome.bind_eq_ok.mp hafter
    cases hafter
    exact sane_add h hadd
  · cases hafter
    exact h
  · cases hafter

lemma sane_acknowledged {n : Nat} {pr' : Progress} (h : pr.inflights.Sane)
    (hack : pr.acknowledged n = Except.ok pr') : pr'.inflights.Sane := by
  rw [Progress.acknowledged] at hack
  split at hack
  · cases hack
    exact sane_reset h
  · cases hack
    split
    · rw [Progress.becomeProbe]
      split
      · exact sane_reset h
      · exact sane_reset h
    · exact h
  · obtain ⟨f, hfree, hack⟩ := Outcome.bind_eq_ok.mp hack
    cases hack
    exact sane_freeTo h hfree

namespace KeepsWindows

variable {toId : Nat} {sent : Bool}

lemma sendEntries {logTerm : Nat} {es : List Entry} (hpr : r.getProgress toId = some pr)
    (h : r.sendEntries toId pr logTerm es = Except.ok (r', sent)) : KeepsWindows r r' := by
  obtain ⟨pr', hpr', h⟩ := Outcome.bind_eq_ok.mp h
  obtain ⟨r₁, hsend, h⟩ := Outcome.bind_eq_ok.mp h
  cases h
  exact (set hpr fun hsane => sane_afterSending hsane hpr').send hsend

lemma sendSnapshot (hpr : r.getProgress toId = some pr)
    (h : r.sendSnapshot toId pr = Except.ok (r', sent)) : KeepsWindows r r' := by
  rw [Raft.sendSnapshot] at h
  split at h
  · cases h
    exact refl r
  dsimp only at h
  split at h
  · cases h
  · obtain ⟨r₁, hsend, h⟩ := Outcome.bind_eq_ok.mp h
    cases h
    suffices hset : KeepsWindows r (r.modifyProgress toId fun p =>
        p.becomeSnapshot r.raftLog.snapshot.metadata.index) from hset.send hsend
    refine ⟨fun hwf => hwf, fun a p hp hsane => ?_⟩
    by_cases ha : a = toId
    · subst ha
      exact ⟨_, getProgress_modifyProgress_self hp _, sane_reset hsane⟩
    · exact ⟨p, (getProgress_modifyProgress_of_ne ha _).trans hp, hsane⟩

lemma maybeSendAppend {sendIfEmpty : Bool}
    (h : r.maybeSendAppend toId sendIfEmpty = Except.ok (r', sent)) : KeepsWindows r r' := by
  rw [Raft.maybeSendAppend] at h
  split at h
  · cases h
  rename_i pr hpr
  split at h
  · cases h
    exact refl r
  obtain ⟨res, -, h⟩ := Outcome.bind_eq_ok.mp h
  dsimp only at h
  split at h
  · cases h
    exact refl r
  split at h
  · exact sendEntries hpr h
  · exact sendSnapshot hpr h

lemma sendAppend (h : r.sendAppend toId = Except.ok r') : KeepsWindows r r' := by
  obtain ⟨⟨r₁, sent⟩, h₁, h⟩ := Outcome.bind_eq_ok.mp h
  obtain rfl := Outcome.pure_eq_ok.mp h
  exact maybeSendAppend h₁

lemma sendAfterAck {committed oldPaused : Bool}
    (h : r.sendAfterAck toId committed oldPaused = Except.ok r') : KeepsWindows r r' := by
  rw [Raft.sendAfterAck] at h
  split at h
  · refine Outcome.foldlM_induct (P := KeepsWindows r) (fun s s' a _ hs hround => ?_) (refl r) h
    split at hround
    · exact Outcome.pure_eq_ok.mp hround ▸ hs
    · exact hs.trans (sendAppend hround)
  · split at h
    · exact sendAppend h
    · exact Outcome.pure_eq_ok.mp h ▸ refl r

lemma maybeCommit {changed : Bool} (h : r.maybeCommit = Except.ok (r', changed)) :
    KeepsWindows r r' := by
  rcases maybeCommit_cases h with rfl | ⟨i, l, hcommit, rfl⟩
  · exact refl r'
  · obtain ⟨rfl, -⟩ := RaftLog.commitTo_eq_ok hcommit
    exact ⟨fun hwf => ⟨hwf.stable, hwf.unstable, hwf.fits, hwf.fits_snapshot⟩,
      fun _ pr hpr hsane => ⟨pr, hpr, hsane⟩⟩

end KeepsWindows

/-- What a leader does about an acknowledgement that is news, up to the loop. -/
def beforeDrain (r : Raft) (m : Message) (pr : Progress) : Outcome Raft := do
  let pr₁ ← (pr.maybeUpdate m.index).1.acknowledged m.index
  let (r₁, committed) ← (r.modifyProgress m.fromId fun _ => pr₁).maybeCommit
  r₁.sendAfterAck m.fromId committed pr.isPaused

lemma KeepsWindows.beforeDrain {m : Message} (hpr : r.getProgress m.fromId = some pr)
    {p : Progress} (hp : p.inflights = pr.inflights) (h : r.beforeDrain m p = Except.ok r') :
    KeepsWindows r r' := by
  obtain ⟨pr₁, hack, h⟩ := Outcome.bind_eq_ok.mp h
  obtain ⟨⟨r₁, committed⟩, hcommit, h⟩ := Outcome.bind_eq_ok.mp h
  have hset : KeepsWindows r (r.modifyProgress m.fromId fun _ => pr₁) := by
    refine set hpr fun hsane => sane_acknowledged ?_ hack
    have hwindow : (p.maybeUpdate m.index).1.inflights = p.inflights := by
      simp only [Progress.maybeUpdate]
      split <;> split <;> rfl
    rwa [hwindow, hp]
  exact hset.trans ((maybeCommit hcommit).trans (sendAfterAck h))

/-- An acknowledgement that is news: what comes before the loop, the loop, and the end of a transfer
of leadership. -/
lemma stepAcknowledged_eq {m : Message} (hnews : pr.matched < m.index) :
    r.stepAcknowledged m pr = (do
      let r₁ ← r.beforeDrain m pr
      let r₂ ← drainAppends m.fromId (r₁.raftLog.lastIndex + 2) r₁
      r₂.finishTransfer m.fromId m.index) := by
  have hupdated : (pr.maybeUpdate m.index).2 = true := by
    simp [Progress.maybeUpdate, hnews]
  have hmatched : (pr.maybeUpdate m.index).1.matched = m.index := by
    simp only [Progress.maybeUpdate, if_pos hnews]
    split <;> rfl
  rw [stepAcknowledged]
  dsimp only
  rw [if_pos hupdated, beforeDrain]
  simp only [bind_assoc]
  cases hack : (pr.maybeUpdate m.index).1.acknowledged m.index with
  | error c => rfl
  | ok pr₁ =>
      rw [← hmatched, ← Progress.matched_acknowledged hack]
      rfl

/-- A leader whose follower holds nothing yet; a window has room for two messages of one entry
each. -/
def drainLeader : Raft :=
  { freshFollower 1 with
    term := 1
    state := RaftState.leader
    maxMsgSize := 0
    raftLog := RaftLog.init RaftLog.threeEntries 0
    prs := (AList.insert 1 { Progress.new 2 with next := 4, matched := 3 }
      (AList.insert 2 { Progress.new 2 with next := 1, matched := 0 } ∅)) }

/-- A log of `n` entries of term 1, all of them unstable and committed. -/
def longLog (n : Nat) : RaftLog where
  storage := {}
  unstable := { offset := 1, entries := (List.range n).map fun k => { term := 1, index := k + 1 } }
  committed := n
  applied := 0
  maxNextEntsSize := 0

lemma longLog_entries (n : Nat) : (longLog n).unstable.entries =
    (List.range n).map fun k => { term := 1, index := k + 1 } := rfl

lemma longLog_length (n : Nat) : (longLog n).unstable.entries.length = n := by
  rw [longLog_entries, List.length_map, List.length_range]

lemma longLog_ne_nil {n : Nat} (hn : 0 < n) : (longLog n).unstable.entries ≠ [] := by
  intro hnil
  have hlength := longLog_length n
  rw [hnil] at hlength
  exact absurd hlength (Nat.ne_of_lt hn)

lemma longLog_wf {n : Nat} (hn : 0 < n) : (longLog n).WF where
  stable := by
    intro k e he
    cases k with
    | zero =>
        cases he
        rfl
    | succ k => cases he
  unstable := by
    intro k e he
    rw [longLog_entries, List.getElem?_map] at he
    obtain ⟨j, hj, rfl⟩ := Option.map_eq_some_iff.mp he
    obtain ⟨hlt, rfl⟩ := List.getElem?_eq_some_iff.mp hj
    rw [List.getElem_range]
    exact Nat.add_comm k 1
  fits := by
    intro _
    exact ⟨Nat.le_refl 1, Nat.le_refl 1, fun hnil => absurd hnil (longLog_ne_nil hn)⟩
  fits_snapshot := by
    intro s hs
    cases hs

lemma longLog_lastIndex {n : Nat} (hn : 0 < n) : (longLog n).lastIndex = n := by
  rw [RaftLog.lastIndex, Unstable.maybeLastIndex, if_pos (longLog_ne_nil hn), longLog_length]
  show 1 + n - 1 = n
  omega

/-- A follower that is sent entry after entry and is to be sent the last one of `n`. -/
def longPeer (n : Nat) (ring : InFlights) : Progress where
  matched := 1
  next := n
  state := ProgressState.replicate
  inflights := ring

/-- A peer whose log is the leader's. -/
def donePeer (n : Nat) : Progress :=
  { Progress.new 1 with next := n + 1, matched := n }

/-- A leader of three, which has committed its log with the third one. -/
def longLeader (n : Nat) (ring : InFlights) : Raft :=
  { freshFollower 1 with
    term := 1
    state := RaftState.leader
    raftLog := longLog n
    prs := AList.insert 1 (donePeer n)
      (AList.insert 2 (longPeer n ring) (AList.insert 3 (donePeer n) ∅)) }

/-- The leader's commit index is its last entry, which two of three have: an answer of the other
moves nothing. -/
lemma longLeader_commit {n : Nat} {ring : InFlights} {f : Progress → Progress}
    (hf : (f (longPeer n ring)).matched ≤ n) :
    ((longLeader n ring).modifyProgress 2 f).maybeCommit =
      Except.ok ((longLeader n ring).modifyProgress 2 f, false) := by
  obtain ⟨r, hr⟩ : ∃ r, r = (longLeader n ring).modifyProgress 2 f := ⟨_, rfl⟩
  have hsorted : r.sortedMatches = [(f (longPeer n ring)).matched, n, n] := by
    have hmatches : r.sortedMatches =
        [n, (f (longPeer n ring)).matched, n].insertionSort (· ≤ ·) := by
      rw [hr]
      rfl
    rw [hmatches]
    rcases Nat.lt_or_eq_of_le hf with hlt | heq
    · simp [Nat.not_le.mpr hlt, hf]
    · simp [heq]
  have hquorum : r.quorum = 2 := by
    have hkeys : r.prs.keys = [1, 2, 3] := by
      rw [hr]
      rfl
    rw [quorum, hkeys]
    rfl
  have hcommitted : r.raftLog.committed = n := by
    rw [hr]
    rfl
  rw [← hr, maybeCommit, hsorted, hquorum]
  show (do let res ← r.raftLog.maybeCommit n r.term; _) = _
  rw [RaftLog.maybeCommit, hcommitted, if_neg (Nat.lt_irrefl n)]
  rfl

end Raft

end RaftKv
