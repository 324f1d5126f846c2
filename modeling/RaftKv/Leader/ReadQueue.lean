import RaftKv.Core.Run
import RaftKv.Leader.PendingReads

/-!
# Pending reads are a queue

The requests that were accepted and not released, in the order in which they came in, beside the two
containers of `ReadOnly`.

* `ReadAction`, `Reads.act` — requests, and answers as `step_leader` deals with them.
* `Reads.InStep` — the two containers hold the requests, and nothing else.
* `Reads.released_in_order` — **an answer releases the requests up to its own one, in their order, and
  nothing ever ends the process**.
-/

namespace RaftKv

inductive ReadAction where
  /-- A read request, at the commit index `index`. -/
  | addRequest (index : Nat) (m : Message)
  /-- An answer to a heartbeat, while so many acknowledgements are needed. -/
  | answer (m : Message) (quorum : Nat)

/-- `ReadOnly`, with the requests that it has accepted and not released, each behind its context, and
with what the last action released. -/
structure Reads where
  readOnly : ReadOnly
  requests : List (Bytes × Nat × Message) := []
  released : List ReadIndexStatus := []

namespace Reads

/-- The accepted requests behind an action; one whose context is pending is not accepted again. -/
def accept (requests : List (Bytes × Nat × Message)) (ctx : Bytes) (index : Nat) (m : Message) :
    List (Bytes × Nat × Message) :=
  if ctx ∈ requests.map Prod.fst then requests else requests ++ [(ctx, index, m)]

/-- What is left when the requests up to `ctx` are taken away. -/
def behind (requests : List (Bytes × Nat × Message)) (ctx : Bytes) : List (Bytes × Nat × Message) :=
  (requests.dropWhile fun r => r.1 ≠ ctx).drop 1

def act (s : Reads) : ReadAction → Outcome Reads
  | ReadAction.addRequest index m => do
      let readOnly ← s.readOnly.addRequest index m
      let ctx ← m.readContext
      return { readOnly := readOnly, requests := accept s.requests ctx index m }
  | ReadAction.answer m quorum =>
      let (readOnly, ackCount) := s.readOnly.recvAck m
      if ackCount < quorum then pure { s with readOnly := readOnly, released := [] }
      else do
        let (readOnly, rss) ← readOnly.advance m
        return { readOnly := readOnly, requests := behind s.requests m.context, released := rss }

/-- A request carries its context, and a quorum is not empty. -/
def Allowed (_ : Reads) : ReadAction → Prop
  | ReadAction.addRequest _ m => m.entries ≠ []
  | ReadAction.answer _ quorum => 1 ≤ quorum

instance (s : Reads) : (a : ReadAction) → Decidable (s.Allowed a)
  | ReadAction.addRequest _ m => inferInstanceAs (Decidable (m.entries ≠ []))
  | ReadAction.answer _ quorum => inferInstanceAs (Decidable (1 ≤ quorum))

/-- **The queue and the map are in step**, with each other and with the accepted requests. -/
structure InStep (s : Reads) : Prop where
  tracked : s.readOnly.Tracked
  queue : s.readOnly.readIndexQueue = s.requests.map Prod.fst
  stored : ∀ r ∈ s.requests, ∃ status, s.readOnly.pendingReadIndex.lookup r.1 = some status ∧
    (status.index, status.req) = r.2

/-- What the action may do to the accepted requests, and what it releases. -/
def Orders (s : Reads) (a : ReadAction) (s' : Reads) : Prop :=
  match a with
  | ReadAction.addRequest index m => ∃ ctx, m.readContext = Except.ok ctx ∧
      s'.requests = accept s.requests ctx index m ∧ s'.released = []
  | ReadAction.answer m quorum =>
      ((s.readOnly.recvAck m).2 < quorum ∧ s'.requests = s.requests ∧ s'.released = []) ∨
      (quorum ≤ (s.readOnly.recvAck m).2 ∧ ∃ pre r post, s.requests = pre ++ r :: post ∧
        r.1 = m.context ∧ m.context ∉ pre.map Prod.fst ∧ s'.requests = post ∧
        s'.released.map (fun status => (status.index, status.req)) = (pre ++ [r]).map Prod.snd)

variable {s s' : Reads} {m : Message} {a : ReadAction}

lemma inStep_empty (option : ReadOnlyOption) : InStep { readOnly := { option := option } } where
  tracked := ReadOnly.tracked_empty option
  queue := rfl
  stored := fun r hr => by cases hr

lemma InStep.mem_pending (h : s.InStep) (ctx : Bytes) :
    ctx ∈ s.readOnly.pendingReadIndex ↔ ctx ∈ s.requests.map Prod.fst := by
  rw [← h.tracked.queued, h.queue]

/-- A list is cut at its first element with a key. -/
lemma behind_of_split {pre post : List (Bytes × Nat × Message)} {r : Bytes × Nat × Message}
    (hpre : r.1 ∉ pre.map Prod.fst) : behind (pre ++ r :: post) r.1 = post := by
  have hdrop : (pre ++ r :: post).dropWhile (fun x => decide (x.1 ≠ r.1)) = r :: post := by
    rw [List.dropWhile_append_of_pos]
    · simp
    · intro x hx
      have hne : x.1 ≠ r.1 := fun heq => hpre (heq ▸ List.mem_map_of_mem hx)
      simpa using hne
  rw [behind, hdrop, List.drop_one, List.tail_cons]

/-- A request that is accepted goes to the end of both containers. -/
theorem addRequest_inStep {index : Nat} (h : s.InStep) (hentry : m.entries ≠ []) :
    ∃ s', s.act (ReadAction.addRequest index m) = Except.ok s' ∧ s'.InStep ∧
      s.Orders (ReadAction.addRequest index m) s' := by
  obtain ⟨e, es, hes⟩ := List.exists_cons_of_ne_nil hentry
  have hctx : m.readContext = Except.ok e.data := by
    rw [Message.readContext, hes]
    rfl
  by_cases hmem : e.data ∈ s.readOnly.pendingReadIndex
  · have hadd : s.readOnly.addRequest index m = Except.ok s.readOnly := by
      rw [ReadOnly.addRequest, hctx, Outcome.ok_bind, if_pos hmem]
      rfl
    have haccept : accept s.requests e.data index m = s.requests :=
      if_pos ((h.mem_pending e.data).mp hmem)
    refine ⟨{ s with released := [] }, ?_, ⟨h.tracked, h.queue, h.stored⟩,
      e.data, hctx, haccept.symm, rfl⟩
    rw [act, hadd, hctx]
    simp only [Outcome.ok_bind, haccept]
    rfl
  · have hnew : e.data ∉ s.requests.map Prod.fst := fun hin => hmem ((h.mem_pending e.data).mpr hin)
    let readOnly : ReadOnly := { s.readOnly with
      pendingReadIndex := s.readOnly.pendingReadIndex.insert e.data { req := m, index := index }
      readIndexQueue := s.readOnly.readIndexQueue ++ [e.data] }
    have hadd : s.readOnly.addRequest index m = Except.ok readOnly := by
      rw [ReadOnly.addRequest, hctx, Outcome.ok_bind, if_neg hmem]
      rfl
    have haccept : accept s.requests e.data index m = s.requests ++ [(e.data, index, m)] :=
      if_neg hnew
    refine ⟨{ readOnly := readOnly, requests := s.requests ++ [(e.data, index, m)] }, ?_,
      ⟨h.tracked.addRequest hadd, ?_, ?_⟩, e.data, hctx, haccept.symm, rfl⟩
    · rw [act, hadd, hctx]
      simp only [Outcome.ok_bind, haccept]
      rfl
    · show s.readOnly.readIndexQueue ++ [e.data] = _
      rw [h.queue, List.map_append]
      rfl
    · intro r hr
      rcases List.mem_append.mp hr with hr | hr
      · have hne : r.1 ≠ e.data := fun heq => hnew (heq ▸ List.mem_map_of_mem hr)
        obtain ⟨status, hstatus, hsame⟩ := h.stored r hr
        refine ⟨status, ?_, hsame⟩
        show (s.readOnly.pendingReadIndex.insert e.data _).lookup r.1 = some status
        rw [AList.lookup_insert_ne hne, hstatus]
      · rw [List.mem_singleton.mp hr]
        exact ⟨_, AList.lookup_insert _, rfl⟩

/-- An acknowledgement that is counted leaves everything else as it is. -/
lemma recvAck_inStep (h : s.InStep) (m : Message) :
    InStep { s with readOnly := (s.readOnly.recvAck m).1 } ∧
      (1 ≤ (s.readOnly.recvAck m).2 → m.context ∈ (s.readOnly.recvAck m).1.pendingReadIndex) := by
  have htracked := h.tracked.recvAck (m := m)
  rcases ReadOnly.recvAck_cases s.readOnly m with ⟨-, hack⟩ | ⟨status, hstatus, hack⟩
  · rw [hack] at htracked ⊢
    exact ⟨⟨htracked, h.queue, h.stored⟩, fun hle => (by cases hle)⟩
  · rw [hack] at htracked ⊢
    refine ⟨⟨htracked, h.queue, fun r hr => ?_⟩, fun _ => ?_⟩
    · obtain ⟨old, hold, hsame⟩ := h.stored r hr
      by_cases hctx : r.1 = m.context
      · rw [hctx, hstatus] at hold
        obtain rfl := Option.some.inj hold
        refine ⟨{ status with acks := insert m.fromId status.acks }, ?_, hsame⟩
        rw [hctx]
        exact AList.lookup_insert _
      · refine ⟨old, ?_, hsame⟩
        show (s.readOnly.pendingReadIndex.insert m.context _).lookup r.1 = some old
        rw [AList.lookup_insert_ne hctx, hold]
    · show m.context ∈ s.readOnly.pendingReadIndex.insert m.context
        { status with acks := insert m.fromId status.acks }
      rw [AList.mem_insert]
      exact Or.inl rfl

/-- The requests that a list of contexts finds in the map are those of the queue. -/
lemma released_eq {pre : List (Bytes × Nat × Message)} {rss : List ReadIndexStatus}
    (hstored : ∀ r ∈ pre, ∃ status, s.readOnly.pendingReadIndex.lookup r.1 = some status ∧
      (status.index, status.req) = r.2)
    (hfound : List.Forall₂ (fun c status => s.readOnly.pendingReadIndex.lookup c = some status)
      (pre.map Prod.fst) rss) :
    rss.map (fun status => (status.index, status.req)) = pre.map Prod.snd := by
  induction pre generalizing rss with
  | nil =>
      cases hfound
      rfl
  | cons r pre ih =>
      rw [List.map_cons] at hfound
      obtain ⟨status, rss, hstatus, hrest, rfl⟩ := List.forall₂_cons_left_iff.mp hfound
      obtain ⟨status', hstatus', hsame⟩ := hstored r List.mem_cons_self
      obtain rfl := Option.some.inj (hstatus.symm.trans hstatus')
      rw [List.map_cons, List.map_cons, hsame,
        ih (fun x hx => hstored x (List.mem_cons_of_mem r hx)) hrest]

/-- An answer that completes a quorum releases the requests up to its context. -/
theorem answer_inStep {quorum : Nat} (h : s.InStep) (hquorum : 1 ≤ quorum) :
    ∃ s', s.act (ReadAction.answer m quorum) = Except.ok s' ∧ s'.InStep ∧
      s.Orders (ReadAction.answer m quorum) s' := by
  obtain ⟨hstep, hpending⟩ := recvAck_inStep h m
  by_cases hfew : (s.readOnly.recvAck m).2 < quorum
  · refine ⟨{ s with readOnly := (s.readOnly.recvAck m).1, released := [] }, ?_,
      ⟨hstep.tracked, hstep.queue, hstep.stored⟩, Or.inl ⟨hfew, rfl, rfl⟩⟩
    rw [act]
    exact if_pos hfew
  · have henough : quorum ≤ (s.readOnly.recvAck m).2 := Nat.le_of_not_lt hfew
    have hmem := hpending (hquorum.trans henough)
    obtain ⟨readOnly, rss, hadvance⟩ := ReadOnly.advance_returns hstep.tracked m
    obtain ⟨ctxs, rest, hqueue, hqueue', hlookup, hfound⟩ :=
      ReadOnly.advance_releases hstep.tracked hmem hadvance
    -- the requests are cut where the queue of their contexts is cut
    have hsplit := hstep.queue.symm.trans hqueue
    obtain ⟨pre, tail, hrequests, hpre, htail⟩ := List.map_eq_append_iff.mp hsplit
    obtain ⟨r, post, rfl, hr, hpost⟩ := List.map_eq_cons_iff.mp htail
    have hrequests : s.requests = pre ++ r :: post := hrequests
    have hnodup := hstep.tracked.nodup
    rw [hqueue, ← hpre, ← hr] at hnodup
    have hfresh : r.1 ∉ pre.map Prod.fst := fun hin =>
      (List.nodup_append.mp hnodup).2.2 r.1 hin r.1 List.mem_cons_self rfl
    have hbehind : behind s.requests m.context = post := by
      rw [hrequests, ← hr]
      exact behind_of_split hfresh
    have hkeys : ctxs ++ [m.context] = (pre ++ [r]).map Prod.fst := by
      rw [← hpre, ← hr, List.map_append]
      rfl
    rw [hkeys] at hlookup hfound
    have hstored : ∀ x ∈ pre ++ r :: post, _ := hrequests ▸ hstep.stored
    have hreleased := released_eq (s := { s with readOnly := (s.readOnly.recvAck m).1 })
      (fun x hx => hstored x (by
        rcases List.mem_append.mp hx with hx | hx
        · exact List.mem_append_left _ hx
        · exact List.mem_append_right _ (List.mem_singleton.mp hx ▸ List.mem_cons_self))) hfound
    refine ⟨{ readOnly := readOnly, requests := post, released := rss }, ?_, ⟨?_, ?_, ?_⟩,
      Or.inr ⟨henough, pre, r, post, hrequests, hr, hr ▸ hfresh, rfl, hreleased⟩⟩
    · rw [act]
      dsimp only
      rw [if_neg hfew, hadvance, hbehind]
      rfl
    · exact hstep.tracked.advance hmem hadvance
    · rw [hqueue', ← hpost]
    · intro x hx
      obtain ⟨status, hstatus, hsame⟩ := hstored x
        (List.mem_append_right _ (List.mem_cons_of_mem r hx))
      refine ⟨status, ?_, hsame⟩
      have hlater : x.1 ∉ (pre ++ [r]).map Prod.fst := by
        intro hin
        rw [List.append_cons] at hnodup
        have hsplit : (pre.map Prod.fst ++ [r.1]) = (pre ++ [r]).map Prod.fst := by simp
        rw [hsplit, ← hpost] at hnodup
        exact (List.nodup_append.mp hnodup).2.2 x.1 hin x.1 (List.mem_map_of_mem hx) rfl
      rw [hlookup, if_neg hlater]
      exact hstatus

/-- **What one action does.** -/
theorem act_inStep (h : s.InStep) (ha : s.Allowed a) :
    ∃ s', s.act a = Except.ok s' ∧ s'.InStep ∧ s.Orders a s' := by
  cases a with
  | addRequest index m => exact addRequest_inStep h ha
  | answer m quorum => exact answer_inStep h ha

/-- **Reads are released in order.**  In every state that requests and answers lead to, the queue and
the map are in step; no action ends the process there; and an answer that completes a quorum returns
and removes exactly the requests up to its own one, in the order in which they came in. -/
theorem released_in_order {option : ReadOnlyOption}
    (hrun : RunOf act Allowed { readOnly := { option := option } } s) :
    s.InStep ∧ ∀ a, s.Allowed a → ∃ s', s.act a = Except.ok s' ∧ s'.InStep ∧ s.Orders a s' := by
  have hstep : s.InStep := by
    refine hrun.invariant (I := InStep) ?_ (inStep_empty option)
    intro s a s' h ha hact
    obtain ⟨s₁, hs₁, hstep, -⟩ := act_inStep h ha
    obtain rfl := Except.ok.inj (hs₁.symm.trans hact)
    exact hstep
  exact ⟨hstep, fun a ha => act_inStep hstep ha⟩

def readRequest (ctx : Bytes) : Message :=
  { type := MessageType.msgReadIndex, entries := [{ data := ctx }] }

/-- Three requests, of which the second one is answered. -/
theorem released_in_order_three : ∃ s s' : Reads,
    RunOf act Allowed { readOnly := { option := ReadOnlyOption.readOnlySafe } } s ∧
    s.requests.map Prod.fst = [[1], [2], [3]] ∧
    s.act (ReadAction.answer { fromId := 2, context := [2] } 2) = Except.ok s' ∧
    s'.InStep ∧ s'.requests.map Prod.fst = [[3]] := by
  let acts : List ReadAction := [ReadAction.addRequest 5 (readRequest [1]),
    ReadAction.addRequest 5 (readRequest [2]), ReadAction.addRequest 6 (readRequest [3])]
  have hreached : ((acts.foldlM (RunOf.exec act Allowed)
      { readOnly := { option := ReadOnlyOption.readOnlySafe } }).toOption.any fun s =>
        (s.act (ReadAction.answer { fromId := 2, context := [2] } 2)).toOption.any fun s' =>
          decide (s.requests.map Prod.fst = [[1], [2], [3]] ∧
            s'.requests.map Prod.fst = [[3]])) = true := by
    decide +kernel
  obtain ⟨s, hs, hreached⟩ := (Option.any_eq_true ..).mp hreached
  obtain ⟨s', hs', hreached⟩ := (Option.any_eq_true ..).mp hreached
  obtain ⟨hthree, hone⟩ := of_decide_eq_true hreached
  have hrun := RunOf.of_exec (Outcome.eq_ok_of_toOption hs)
  have hact := Outcome.eq_ok_of_toOption hs'
  obtain ⟨-, hnext⟩ := released_in_order hrun
  obtain ⟨s₁, hs₁, hstep, -⟩ := hnext (ReadAction.answer { fromId := 2, context := [2] } 2)
    (Nat.le_succ 1)
  obtain rfl := Except.ok.inj (hs₁.symm.trans hact)
  exact ⟨s, s₁, hrun, hthree, hact, hstep, hone⟩

end Reads

end RaftKv
