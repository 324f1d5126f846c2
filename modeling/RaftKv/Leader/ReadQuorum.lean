import RaftKv.Core.Run
import RaftKv.Leader.PendingReads
import RaftKv.Leader.ReadRound

/-!
# Who acknowledged a read

`recv_ack` counts every answer with the context of a pending request, and one more for the leader.
It asks neither whether the answer is from a voter nor whether the leader is one.

* `ReadOffice` — a leader, and the acknowledgements it was sent, as a ghost.
* `Moved`, `Confirmed` — a request is answered; a quorum of voters has acknowledged it or one behind
  it.
* `TrueCount` — the acknowledgements that are counted stem from voters other than the leader, and
  the leader is a voter.
* `moved_confirmed` — **while all counts are true, no request is answered without its quorum**.
-/

namespace RaftKv

namespace Raft

/-- A leader, and the pairs of a sender and a context that it was sent. -/
structure ReadOffice where
  raft : Raft
  acked : List (Nat × Bytes)

namespace ReadOffice

/-- A heartbeat answer of a known peer acknowledges its context. -/
def acknowledges (r : Raft) (m : Message) : Bool :=
  r.ownTerm m && m.type == MessageType.msgHeartbeatResp && (r.getProgress m.fromId).isSome

/-- A read request that is new forgets what was acknowledged under its context before. -/
def renews (r : Raft) (m : Message) (ctx : Bytes) : Bool :=
  r.ownTerm m && m.type == MessageType.msgReadIndex && decide (ctx ∉ r.readOnly.pendingReadIndex) &&
    decide (m.readContext.toOption = some ctx)

/-- The acknowledgements after a message. -/
def ackedAfter (s : ReadOffice) (m : Message) : List (Nat × Bytes) :=
  if acknowledges s.raft m then (m.fromId, m.context) :: s.acked
  else s.acked.filter fun a => !renews s.raft m a.2

def ackedThrough (s : ReadOffice) : LeaderAction → List (Nat × Bytes)
  | LeaderAction.step m => s.ackedAfter m
  | _ => s.acked

def act (s : ReadOffice) (a : LeaderAction) : Outcome ReadOffice := do
  let raft ← a.act s.raft
  return { raft := raft, acked := s.ackedThrough a }

end ReadOffice

/-! ## What an answer promises -/

/-- A pending request is answered: it is no longer pending, and there is a new `ReadState` or a new
`MsgReadIndexResp` for it. -/
structure Moved (r r' : Raft) (ctx : Bytes) (status : ReadIndexStatus) : Prop where
  pending : r.readOnly.pendingReadIndex.lookup ctx = some status
  gone : ctx ∉ r'.readOnly.pendingReadIndex
  answered : { index := status.index, requestCtx := ctx } ∈
      r'.readStates.drop r.readStates.length ∨
    ∃ a ∈ r'.readAnswers.drop r.readAnswers.length,
      a.index = status.index ∧ a.readContext = Except.ok ctx

/-- The context and those queued after it. -/
def queuedFrom (r : Raft) (ctx : Bytes) : List Bytes :=
  r.readOnly.readIndexQueue.dropWhile (· ≠ ctx)

/-- The node is the leader itself, or has acknowledged one of the contexts. -/
def Acknowledged (r : Raft) (acked : List (Nat × Bytes)) (ctxs : List Bytes) (v : Nat) : Prop :=
  v = r.id ∨ ∃ ctx ∈ ctxs, (v, ctx) ∈ acked

instance (r : Raft) (acked : List (Nat × Bytes)) (ctxs : List Bytes) (v : Nat) :
    Decidable (r.Acknowledged acked ctxs v) :=
  inferInstanceAs (Decidable (_ ∨ _))

/-- A quorum of the voters, the leader included, has acknowledged the request or one behind it. -/
def Confirmed (s s' : ReadOffice) (ctx : Bytes) : Prop :=
  s.raft.quorum ≤
    (s.raft.prs.keys.toFinset.filter
      (s.raft.Acknowledged s'.acked (s.raft.queuedFrom ctx))).card

/-- If the answer completes the count of its context, the count is true: the leader is a voter, and
all the others that are counted are voters too. -/
def TrueCount (r : Raft) (m : Message) : Prop :=
  ∀ status ∈ r.readOnly.pendingReadIndex.lookup m.context,
    r.quorum ≤ (insert m.fromId status.acks).card + 1 →
    r.id ∈ r.prs ∧ ∀ v ∈ insert m.fromId status.acks, v ∈ r.prs ∧ v ≠ r.id

/-- The action happens to a leader in office, and if it is a heartbeat answer, its count is true. -/
def CountsVoters (s : ReadOffice) (a : LeaderAction) : Prop :=
  s.raft.InOffice a ∧ ∀ m, a = LeaderAction.step m → ReadOffice.acknowledges s.raft m = true →
    s.raft.TrueCount m

/-! ## The invariant -/

/-- The requests are tracked, and every acknowledgement that is recorded was sent. -/
structure Recorded (s : ReadOffice) : Prop where
  tracked : s.raft.readOnly.Tracked
  acks : ∀ ctx status, s.raft.readOnly.pendingReadIndex.lookup ctx = some status →
    ∀ v ∈ status.acks, (v, ctx) ∈ s.acked

/-- A leader without pending reads starts with nothing acknowledged. -/
theorem recorded_of_no_reads {r : Raft} {option : ReadOnlyOption}
    (h : r.readOnly = { option := option }) : Recorded { raft := r, acked := [] } where
  tracked := h ▸ ReadOnly.tracked_empty option
  acks := fun ctx status hstatus => by
    rw [h] at hstatus
    cases hstatus

variable {r r' : Raft} {m : Message} {ctx : Bytes} {status : ReadIndexStatus} {s s' s₀ : ReadOffice}

/-- Nothing is forgotten of a pending request. -/
theorem mem_ackedAfter {v : Nat} (h : (v, ctx) ∈ s.acked)
    (hctx : ctx ∈ s.raft.readOnly.pendingReadIndex) : (v, ctx) ∈ s.ackedAfter m := by
  unfold ReadOffice.ackedAfter
  split
  · exact List.mem_cons_of_mem _ h
  · exact List.mem_filter.mpr ⟨h, by simp [ReadOffice.renews, hctx]⟩

/-- What an action keeps of the requests, it keeps of their acknowledgements. -/
theorem Recorded.keep (h : Recorded s) (m : Message) (hro : r'.readOnly = s.raft.readOnly) :
    Recorded { raft := r', acked := s.ackedAfter m } where
  tracked := hro ▸ h.tracked
  acks := fun ctx status hstatus v hv => by
    have hstatus : s.raft.readOnly.pendingReadIndex.lookup ctx = some status := hro ▸ hstatus
    exact mem_ackedAfter (h.acks ctx status hstatus v hv)
      (AList.lookup_isSome.mp (by simp [hstatus]))

/-! ## Reads are accepted -/

/-- A read request changes the reads by `add_request`, if at all. -/
theorem stepLeaderReadIndex_readOnly (h : r.stepLeaderReadIndex m = Except.ok r') :
    r'.readOnly = r.readOnly ∨ ∃ index, r.readOnly.addRequest index m = Except.ok r'.readOnly := by
  rw [stepLeaderReadIndex] at h
  split at h
  · split at h
    · exact Or.inl (Outcome.pure_eq_ok.mp h ▸ rfl)
    split at h
    · obtain ⟨readOnly, hadd, h⟩ := Outcome.bind_eq_ok.mp h
      obtain ⟨ctx, -, h⟩ := Outcome.bind_eq_ok.mp h
      refine Or.inr ⟨r.raftLog.committed, ?_⟩
      rw [hadd, (Sent.bcastHeartbeatWithCtx h).readOnly]
    · exact Or.inl (respondRead_samePeers h).2
  · obtain ⟨ctx, -, h⟩ := Outcome.bind_eq_ok.mp h
    exact Or.inl (Outcome.pure_eq_ok.mp h ▸ rfl)

/-- A request that is accepted has no acknowledgement yet. -/
theorem Recorded.accept (h : Recorded s) {index : Nat}
    (hadd : s.raft.readOnly.addRequest index m = Except.ok r'.readOnly) :
    Recorded { raft := r', acked := s.ackedAfter m } where
  tracked := h.tracked.addRequest hadd
  acks := fun ctx status hstatus v hv => by
    obtain ⟨c, -, ⟨-, hro⟩ | ⟨hnew, hro⟩⟩ := ReadOnly.addRequest_cases hadd
    · exact (h.keep m hro).acks ctx status hstatus v hv
    · rw [hro] at hstatus
      by_cases hcc : ctx = c
      · subst hcc
        rw [AList.lookup_insert] at hstatus
        rw [← Option.some.inj hstatus] at hv
        cases hv
      · rw [AList.lookup_insert_ne hcc] at hstatus
        exact mem_ackedAfter (h.acks ctx status hstatus v hv)
          (AList.lookup_isSome.mp (by simp [hstatus]))

/-! ## Reads are acknowledged and released -/

/-- A heartbeat answer is not counted, or counted, or it completes the count of its context. -/
theorem releaseReads_readOnly (h : r.releaseReads m = Except.ok r') :
    r'.readOnly = r.readOnly ∨ r'.readOnly = (r.readOnly.recvAck m).1 ∨
    (r.quorum ≤ (r.readOnly.recvAck m).2 ∧
      ∃ rss, (r.readOnly.recvAck m).1.advance m = Except.ok (r'.readOnly, rss)) := by
  rw [releaseReads] at h
  split at h
  · exact Or.inl (Outcome.pure_eq_ok.mp h ▸ rfl)
  dsimp only at h
  split at h
  · exact Or.inr (Or.inl (Outcome.pure_eq_ok.mp h ▸ rfl))
  rename_i hcount
  obtain ⟨⟨readOnly, rss⟩, hadvance, h⟩ := Outcome.bind_eq_ok.mp h
  have hro : r'.readOnly = readOnly := by
    refine Outcome.foldlM_induct (P := fun t => t.readOnly = readOnly)
      (fun t t' rs _ ht hround => ?_) rfl h
    rw [(respondRead_samePeers hround).2, ht]
  exact Or.inr (Or.inr ⟨Nat.not_lt.mp hcount, rss, hro ▸ hadvance⟩)

/-- The answer itself is among the acknowledgements. -/
theorem ackedAfter_acknowledges (hack : ReadOffice.acknowledges s.raft m = true) :
    s.ackedAfter m = (m.fromId, m.context) :: s.acked := by
  rw [ReadOffice.ackedAfter, if_pos hack]

theorem Recorded.acknowledge (h : Recorded s) (hack : ReadOffice.acknowledges s.raft m = true)
    (hro : r'.readOnly = (s.raft.readOnly.recvAck m).1) :
    Recorded { raft := r', acked := s.ackedAfter m } where
  tracked := hro ▸ h.tracked.recvAck
  acks := fun ctx status hstatus v hv => by
    obtain ⟨-, hcases⟩ | ⟨old, hold, hcases⟩ := ReadOnly.recvAck_cases s.raft.readOnly m
    · exact (h.keep m (by rw [hro, hcases])).acks ctx status hstatus v hv
    · rw [hro, hcases] at hstatus
      rw [ackedAfter_acknowledges hack]
      by_cases hcc : ctx = m.context
      · subst hcc
        rw [AList.lookup_insert] at hstatus
        rw [← Option.some.inj hstatus] at hv
        rcases Finset.mem_insert.mp hv with rfl | hv
        · exact List.mem_cons_self ..
        · exact List.mem_cons_of_mem _ (h.acks _ old hold v hv)
      · rw [AList.lookup_insert_ne hcc] at hstatus
        exact List.mem_cons_of_mem _ (h.acks ctx status hstatus v hv)

theorem quorum_pos (r : Raft) : 0 < r.quorum := Nat.succ_pos _

/-- Only a pending context can complete its count. -/
theorem recvAck_complete (h : r.quorum ≤ (r.readOnly.recvAck m).2) :
    ∃ old, r.readOnly.pendingReadIndex.lookup m.context = some old ∧
      m.context ∈ (r.readOnly.recvAck m).1.pendingReadIndex ∧
      (r.readOnly.recvAck m).1.readIndexQueue = r.readOnly.readIndexQueue ∧
      r.quorum ≤ (insert m.fromId old.acks).card + 1 := by
  obtain ⟨-, hcases⟩ | ⟨old, hold, hcases⟩ := ReadOnly.recvAck_cases r.readOnly m
  · rw [hcases] at h
    exact absurd h (Nat.not_le.mpr r.quorum_pos)
  · rw [hcases] at h ⊢
    exact ⟨old, hold, (AList.mem_insert _).mpr (Or.inl rfl), rfl, h⟩

theorem Recorded.release (h : Recorded s) (hack : ReadOffice.acknowledges s.raft m = true)
    (hcount : s.raft.quorum ≤ (s.raft.readOnly.recvAck m).2) {rss : List ReadIndexStatus}
    (hadvance : (s.raft.readOnly.recvAck m).1.advance m = Except.ok (r'.readOnly, rss)) :
    Recorded { raft := r', acked := s.ackedAfter m } := by
  obtain ⟨old, -, hpending, -, -⟩ := recvAck_complete hcount
  have hacked : Recorded
      { raft := { s.raft with readOnly := (s.raft.readOnly.recvAck m).1 },
        acked := s.ackedAfter m } := h.acknowledge hack rfl
  refine ⟨hacked.tracked.advance hpending hadvance, fun ctx status hstatus v hv => ?_⟩
  obtain ⟨pre, post, -, -, hlookup⟩ := ReadOnly.advance_split hacked.tracked hpending hadvance
  have hstatus : r'.readOnly.pendingReadIndex.lookup ctx = some status := hstatus
  rw [hlookup] at hstatus
  split at hstatus
  · cases hstatus
  · exact hacked.acks ctx status hstatus v hv

/-- A context is still to be seen from any that was queued before it. -/
theorem mem_dropWhile_ne {x ctx : Bytes} {pre post : List Bytes} (h : ctx ∈ pre ++ [x]) :
    x ∈ (pre ++ x :: post).dropWhile (· ≠ ctx) := by
  induction pre with
  | nil =>
      obtain rfl := List.mem_singleton.mp h
      simp
  | cons y pre ih =>
      by_cases hy : y = ctx
      · subst hy
        simp
      · have hmem : ctx ∈ pre ++ [x] := (List.mem_cons.mp h).resolve_left (Ne.symm hy)
        simpa [hy] using ih hmem

/-- **Where the count is true, the requests it releases are confirmed by a quorum.** -/
theorem confirmed_of_release (h : Recorded s) (hack : ReadOffice.acknowledges s.raft m = true)
    (htrue : s.raft.TrueCount m) (hcount : s.raft.quorum ≤ (s.raft.readOnly.recvAck m).2)
    {rss : List ReadIndexStatus}
    (hadvance : (s.raft.readOnly.recvAck m).1.advance m = Except.ok (r'.readOnly, rss))
    (hmoved : Moved s.raft r' ctx status) :
    Confirmed s { raft := r', acked := s.ackedAfter m } ctx := by
  obtain ⟨old, hold, hpending, hqueue, hquorum⟩ := recvAck_complete hcount
  obtain ⟨pre, post, hsplit, -, hlookup⟩ :=
    ReadOnly.advance_split h.tracked.recvAck hpending hadvance
  obtain ⟨hself, hvoters⟩ := htrue old hold hquorum
  have hbefore : ctx ∈ pre ++ [m.context] := by
    by_contra hnot
    have hkept := hlookup ctx
    rw [if_neg hnot] at hkept
    have hin : ctx ∈ (s.raft.readOnly.recvAck m).1.pendingReadIndex := by
      have hqueued := (h.tracked.queued ctx).mpr
        (AList.lookup_isSome.mp (by simp [hmoved.pending]))
      exact (h.tracked.recvAck.queued ctx).mp (hqueue ▸ hqueued)
    rw [← AList.lookup_isSome, ← hkept, AList.lookup_isSome] at hin
    exact hmoved.gone hin
  have hseen : m.context ∈ s.raft.queuedFrom ctx := by
    rw [queuedFrom, ← hqueue, hsplit]
    exact mem_dropWhile_ne hbefore
  have hacked (v : Nat) (hv : v ∈ insert m.fromId old.acks) : (v, m.context) ∈ s.ackedAfter m := by
    rw [ackedAfter_acknowledges hack]
    rcases Finset.mem_insert.mp hv with rfl | hv
    · exact List.mem_cons_self ..
    · exact List.mem_cons_of_mem _ (h.acks _ old hold v hv)
  have hcard : (insert s.raft.id (insert m.fromId old.acks)).card =
      (insert m.fromId old.acks).card + 1 :=
    Finset.card_insert_of_notMem fun hin => (hvoters _ hin).2 rfl
  refine (hquorum.trans hcard.ge).trans (Finset.card_le_card fun v hv => ?_)
  rw [Finset.mem_filter, List.mem_toFinset, ← AList.mem_keys]
  rcases Finset.mem_insert.mp hv with rfl | hv
  · exact ⟨hself, Or.inl rfl⟩
  · exact ⟨(hvoters v hv).1, Or.inr ⟨m.context, hseen, hacked v hv⟩⟩

/-! ## Every action -/

/-- Nothing moves while the reads stay as they are, or while more are accepted. -/
theorem not_moved_of_pending (h : ∀ ctx, ctx ∈ r.readOnly.pendingReadIndex →
    ctx ∈ r'.readOnly.pendingReadIndex) : ¬ Moved r r' ctx status := fun hmoved =>
  hmoved.gone (h ctx (AList.lookup_isSome.mp (by simp [hmoved.pending])))

/-- Nothing moves where nothing is answered. -/
theorem SameAnswers.not_moved (h : SameAnswers r r') : ¬ Moved r r' ctx status := by
  rintro ⟨-, -, hlocal | ⟨a, ha, -⟩⟩
  · rw [h.readStates] at hlocal
    simp at hlocal
  · rw [h.readAnswers] at ha
    simp at ha

/-- What a message does to the reads of a leader: if it is still one, its acknowledgements are
recorded, and if the count is true, what is answered is confirmed. -/
structure ReadStep (s : ReadOffice) (m : Message) (r' : Raft) : Prop where
  recorded : r'.state = RaftState.leader → Recorded { raft := r', acked := s.ackedAfter m }
  confirmed : (ReadOffice.acknowledges s.raft m = true → s.raft.TrueCount m) →
    ∀ ctx status, Moved s.raft r' ctx status →
      Confirmed s { raft := r', acked := s.ackedAfter m } ctx

namespace ReadStep

theorem keep (h : Recorded s) (hro : r'.readOnly = s.raft.readOnly) : ReadStep s m r' where
  recorded := fun _ => h.keep m hro
  confirmed := fun _ _ _ hm => absurd hm (not_moved_of_pending fun _ hc => hro ▸ hc)

theorem deposed (hstate : r'.state = RaftState.follower) (hsame : SameAnswers s.raft r') :
    ReadStep s m r' where
  recorded := fun hl => by
    rw [hstate] at hl
    cases hl
  confirmed := fun _ _ _ hm => absurd hm hsame.not_moved

theorem accept (h : Recorded s) {index : Nat}
    (hadd : s.raft.readOnly.addRequest index m = Except.ok r'.readOnly) : ReadStep s m r' where
  recorded := fun _ => h.accept hadd
  confirmed := fun _ _ _ hm => by
    refine absurd hm (not_moved_of_pending fun c hc => ?_)
    obtain ⟨c', -, ⟨-, hro⟩ | ⟨-, hro⟩⟩ := ReadOnly.addRequest_cases hadd
    · exact hro ▸ hc
    · rw [hro]
      exact (AList.mem_insert _).mpr (Or.inr hc)

theorem acknowledge (h : Recorded s) (hack : ReadOffice.acknowledges s.raft m = true)
    (hro : r'.readOnly = (s.raft.readOnly.recvAck m).1) : ReadStep s m r' where
  recorded := fun _ => h.acknowledge hack hro
  confirmed := fun _ _ _ hm => by
    refine absurd hm (not_moved_of_pending fun c hc => ?_)
    obtain ⟨-, hcases⟩ | ⟨old, -, hcases⟩ := ReadOnly.recvAck_cases s.raft.readOnly m
    · rw [hro, hcases]
      exact hc
    · rw [hro, hcases]
      exact (AList.mem_insert _).mpr (Or.inr hc)

theorem release (h : Recorded s) (hack : ReadOffice.acknowledges s.raft m = true)
    (hcount : s.raft.quorum ≤ (s.raft.readOnly.recvAck m).2) {rss : List ReadIndexStatus}
    (hadvance : (s.raft.readOnly.recvAck m).1.advance m = Except.ok (r'.readOnly, rss)) :
    ReadStep s m r' where
  recorded := fun _ => h.release hack hcount hadvance
  confirmed := fun htrue _ _ hm => confirmed_of_release h hack (htrue hack) hcount hadvance hm

end ReadStep

theorem stepLeaderReadIndex_readStep (h : Recorded s)
    (hok : s.raft.stepLeaderReadIndex m = Except.ok r') : ReadStep s m r' := by
  rcases stepLeaderReadIndex_readOnly hok with hro | ⟨index, hadd⟩
  · exact ReadStep.keep h hro
  · exact ReadStep.accept h hadd

theorem stepHeartbeatResp_readStep (h : Recorded s) {pr : Progress}
    (hpr : s.raft.getProgress m.fromId = some pr)
    (hack : ReadOffice.acknowledges s.raft m = true)
    (hok : s.raft.stepHeartbeatResp m pr = Except.ok r') : ReadStep s m r' := by
  obtain ⟨r₁, hpeers, hsame, hrelease⟩ := stepHeartbeatResp_split hpr hok
  have hquorum : r₁.quorum = s.raft.quorum := hpeers.quorum
  have hro₁ : r₁.readOnly = s.raft.readOnly := hsame.readOnly
  rcases releaseReads_readOnly hrelease with hro | hro | ⟨hcount, rss, hadvance⟩
  · exact ReadStep.keep h (hro.trans hro₁)
  · exact ReadStep.acknowledge h hack (hro₁ ▸ hro)
  · rw [hro₁, hquorum] at hcount
    exact ReadStep.release h hack hcount (hro₁ ▸ hadvance)

/-- Every message to a leader in office. -/
theorem step_readStep (h : Recorded s) (hin : s.raft.InOffice (LeaderAction.step m))
    {answer : Status} (hstep : s.raft.step m = Except.ok (r', answer)) : ReadStep s m r' := by
  obtain ⟨hl, hk⟩ := hin
  by_cases hcheck : s.raft.checksQuorum m = true
  · rcases step_checkQuorum hl hcheck hstep with ⟨-, hsame⟩ | ⟨-, hstate, hsame⟩
    · exact ReadStep.keep h (hsame ▸ rfl)
    · exact ReadStep.deposed hstate hsame
  by_cases hreads : s.raft.concernsReads m = true
  · simp only [concernsReads, Bool.and_eq_true, Bool.or_eq_true, beq_iff_eq] at hreads
    obtain ⟨hown, htype⟩ := hreads
    rcases step_leader hl hk hstep with ⟨-, hrole, -⟩ | ⟨hsent, -⟩
    · rcases htype with htype | htype
      · simp only [stepLeader, htype] at hrole
        obtain ⟨r₁, hread, hrole⟩ := Outcome.bind_eq_ok.mp hrole
        simp only [Outcome.pure_eq_ok, Prod.mk.injEq] at hrole
        exact hrole.1 ▸ stepLeaderReadIndex_readStep h hread
      · simp only [stepLeader, htype] at hrole
        split at hrole
        · simp only [Outcome.pure_eq_ok, Prod.mk.injEq] at hrole
          exact ReadStep.keep h (hrole.1 ▸ rfl)
        · rename_i pr hpr
          obtain ⟨r₁, hpeer, hrole⟩ := Outcome.bind_eq_ok.mp hrole
          simp only [Outcome.pure_eq_ok, Prod.mk.injEq] at hrole
          simp only [stepLeaderPeer, htype] at hpeer
          have hack : ReadOffice.acknowledges s.raft m = true := by
            simp [ReadOffice.acknowledges, hown, htype, hpr]
          exact hrole.1 ▸ stepHeartbeatResp_readStep h hpr hack hpeer
    · exact ReadStep.keep h hsent.readOnly
  · have hsame := step_sameReads hl hk (by simpa using hcheck) (by simpa using hreads) hstep
    exact ReadStep.keep h hsame.readOnly

/-- The acknowledgements stay recorded when the reads stay as they are. -/
theorem Recorded.same (h : Recorded s) (hro : r'.readOnly = s.raft.readOnly) :
    Recorded { raft := r', acked := s.acked } where
  tracked := hro ▸ h.tracked
  acks := fun ctx status hstatus => h.acks ctx status (hro ▸ hstatus)

/-- An action that leaves the reads alone, or deposes the leader without answering any. -/
theorem quiet_reads (h : Recorded s)
    (hquiet : SameReads s.raft r' ∨ (r'.state = RaftState.follower ∧ SameAnswers s.raft r')) :
    (r'.state = RaftState.leader → Recorded { raft := r', acked := s.acked }) ∧
      ∀ ctx status, ¬ Moved s.raft r' ctx status := by
  rcases hquiet with hsame | ⟨hstate, hsame⟩
  · exact ⟨fun _ => h.same hsame.readOnly, fun _ _ => hsame.toSameAnswers.not_moved⟩
  · refine ⟨fun hl => ?_, fun _ _ => hsame.not_moved⟩
    rw [hstate] at hl
    cases hl

/-- **One action**: a leader that stays in office keeps its acknowledgements recorded, and what it
answers is confirmed if the count is true. -/
theorem act_reads {a : LeaderAction} (h : Recorded s) (hin : CountsVoters s a)
    (hact : s.act a = Except.ok s') :
    (s'.raft.state = RaftState.leader → Recorded s') ∧
      ∀ ctx status, Moved s.raft s'.raft ctx status → Confirmed s s' ctx := by
  obtain ⟨hoffice, hcounts⟩ := hin
  obtain ⟨r', hraft, hs'⟩ := Outcome.bind_eq_ok.mp hact
  rw [← Outcome.pure_eq_ok.mp hs']
  cases a with
  | step m =>
      obtain ⟨⟨r₁, answer⟩, hstep, hr⟩ := Outcome.bind_eq_ok.mp hraft
      rw [← Outcome.pure_eq_ok.mp hr]
      have hread := step_readStep h hoffice hstep
      exact ⟨hread.recorded, hread.confirmed (hcounts m rfl)⟩
  | tick =>
      have hquiet := quiet_reads h <|
        (tick_leader hoffice hraft).imp (fun ht => ht.2.toSameReads) (fun ht => ht.2.2)
      exact ⟨hquiet.1, fun _ _ hm => absurd hm (hquiet.2 _ _)⟩
  | addNode id =>
      have hsame := (addNodeOrLearner_sameRole hraft).2
      exact ⟨fun _ => h.same hsame.readOnly, fun _ _ hm => absurd hm hsame.toSameAnswers.not_moved⟩
  | addLearner id =>
      have hsame := (addNodeOrLearner_sameRole hraft).2
      exact ⟨fun _ => h.same hsame.readOnly, fun _ _ hm => absurd hm hsame.toSameAnswers.not_moved⟩
  | removeNode id =>
      have hsame := (removeNode_sameRole hraft).2
      exact ⟨fun _ => h.same hsame.readOnly, fun _ _ hm => absurd hm hsame.toSameAnswers.not_moved⟩

/-! ## Every run -/

/-- The acknowledgements are recorded throughout a term. -/
theorem recorded_run (h : Recorded s₀) (hrun : RunOf ReadOffice.act CountsVoters s₀ s)
    (hl : s.raft.state = RaftState.leader) : Recorded s :=
  hrun.invariant (I := fun s => s.raft.state = RaftState.leader → Recorded s)
    (fun _ _ _ hs hin hact => (act_reads (hs hin.1.leader) hin hact).1) (fun _ => h) hl

/-- **In every run of a leader in which all counts are true, whatever request it answers is
confirmed by a quorum of its voters**, the leader included. -/
theorem moved_confirmed {a : LeaderAction} (h : Recorded s₀)
    (hrun : RunOf ReadOffice.act CountsVoters s₀ s) (hin : CountsVoters s a)
    (hact : s.act a = Except.ok s') (hmoved : Moved s.raft s'.raft ctx status) :
    Confirmed s s' ctx :=
  (act_reads (recorded_run h hrun hin.1.leader) hin hact).2 ctx status hmoved

/-! ## Three voters and a learner -/

/-- Node 1 leads the voters 1, 2 and 3, and the learner 4. -/
def observedRun : Outcome Raft := do
  let r ← oneOfThree 1 [4]
  r.deliver (firstElection ++ [firstAck])

def observedLeader : ReadOffice :=
  { raft := observedRun.toOption.get (by decide), acked := [] }

theorem observedLeader_recorded : Recorded observedLeader :=
  recorded_of_no_reads (show observedLeader.raft.readOnly = _ from rfl)

def readAccepted : ReadOffice :=
  (observedLeader.act (LeaderAction.step localRead)).toOption.get (by decide)

/-- The answer of a node to a heartbeat with the context of the request. -/
def answerFrom (v : Nat) : LeaderAction :=
  LeaderAction.step
    { type := MessageType.msgHeartbeatResp, fromId := v, toId := 1, term := 1, context := [7] }

def answeredByVoter : ReadOffice :=
  (readAccepted.act (answerFrom 2)).toOption.get (by decide)

def answeredByLearner : ReadOffice :=
  (readAccepted.act (answerFrom 4)).toOption.get (by decide)

def pendingRead : ReadIndexStatus := { req := localRead, index := 1 }

theorem moved_by_voter : Moved readAccepted.raft answeredByVoter.raft [7] pendingRead where
  pending := rfl
  gone := by decide
  answered := Or.inl (by decide)

theorem moved_by_learner : Moved readAccepted.raft answeredByLearner.raft [7] pendingRead where
  pending := rfl
  gone := by decide
  answered := Or.inl (by decide)

theorem readAccepted_run {P : ReadOffice → LeaderAction → Prop}
    (h : P observedLeader (LeaderAction.step localRead)) :
    RunOf ReadOffice.act P observedLeader readAccepted :=
  (RunOf.refl _).step _ h (Outcome.eq_ok_get _)

theorem moved_confirmed_voter : Confirmed readAccepted answeredByVoter [7] := by
  refine moved_confirmed observedLeader_recorded (readAccepted_run ⟨by decide, ?_⟩)
    ⟨by decide, ?_⟩ (Outcome.eq_ok_get _) moved_by_voter
  · rintro m ⟨rfl⟩ hack
    cases hack
  · rintro m ⟨rfl⟩ - status hstatus -
    obtain rfl : pendingRead = status := Option.some.inj hstatus
    decide

/-- The answer of the learner alone releases the request. -/
theorem read_released_by_learner : ¬ ∀ s₀ s s' a ctx status, Recorded s₀ →
    RunOf ReadOffice.act (fun s a => s.raft.InOffice a) s₀ s → s.raft.InOffice a →
    s.act a = Except.ok s' → Moved s.raft s'.raft ctx status → Confirmed s s' ctx := by
  intro hall
  have hconfirmed := hall _ _ _ _ _ _ observedLeader_recorded
    (readAccepted_run (by decide)) (by decide +kernel) (Outcome.eq_ok_get _) moved_by_learner
  revert hconfirmed
  unfold Confirmed
  decide

end Raft

end RaftKv
