import RaftKv.Raft.ReadOnly

/-!
# Pending reads are tracked

`Tracked` is the invariant of `ReadOnly`: the queue holds the contexts of the pending requests, each
once.  Under it, `advance` always finds the context it is asked for.

* `Tracked.addRequest`, `Tracked.recvAck`, `Tracked.advance` — every operation keeps it.
* `recvAck_cases`, `advance_releases` — what an acknowledgement changes, and **which requests it
  releases: those up to its context**.
* `advance_returns` — **`advance` never ends the process**.
-/

namespace RaftKv

namespace ReadOnly

/-- The queue lists the pending contexts, and every request is kept under its own context. -/
structure Tracked (ro : ReadOnly) : Prop where
  nodup : ro.readIndexQueue.Nodup
  queued : ∀ ctx, ctx ∈ ro.readIndexQueue ↔ ctx ∈ ro.pendingReadIndex
  named : ∀ ctx status, ro.pendingReadIndex.lookup ctx = some status →
    status.req.readContext = Except.ok ctx

variable {ro ro' : ReadOnly} {m : Message} {ctx : Bytes}

/-- Without any request there is nothing to track. -/
theorem tracked_empty (option : ReadOnlyOption) : Tracked { option := option } where
  nodup := List.nodup_nil
  queued := fun ctx => ⟨(by simp), fun h => absurd h (AList.notMem_empty ctx)⟩
  named := (by simp)

/-! ## Accepting a request -/

/-- A request whose context is pending already changes nothing; any other one joins the queue, with
no acknowledgement. -/
theorem addRequest_cases {index : Nat} (h : ro.addRequest index m = Except.ok ro') :
    ∃ ctx, m.readContext = Except.ok ctx ∧
      ((ctx ∈ ro.pendingReadIndex ∧ ro' = ro) ∨
        (ctx ∉ ro.pendingReadIndex ∧
          ro' = { ro with
            pendingReadIndex := ro.pendingReadIndex.insert ctx { req := m, index := index }
            readIndexQueue := ro.readIndexQueue ++ [ctx] })) := by
  obtain ⟨ctx, hctx, h⟩ := Outcome.bind_eq_ok.mp h
  refine ⟨ctx, hctx, ?_⟩
  split at h
  · rename_i hpending
    exact Or.inl ⟨hpending, (Outcome.pure_eq_ok.mp h).symm⟩
  · rename_i hnew
    exact Or.inr ⟨hnew, (Outcome.pure_eq_ok.mp h).symm⟩

theorem Tracked.addRequest (ht : ro.Tracked) {index : Nat}
    (h : ro.addRequest index m = Except.ok ro') : ro'.Tracked := by
  obtain ⟨ctx, hctx, ⟨-, rfl⟩ | ⟨hnew, rfl⟩⟩ := addRequest_cases h
  · exact ht
  refine ⟨?_, fun c => ?_, fun c status hc => ?_⟩
  · have hfresh : ctx ∉ ro.readIndexQueue := fun hq => hnew ((ht.queued ctx).mp hq)
    exact List.nodup_append.mpr ⟨ht.nodup, List.nodup_singleton ctx, by
      rintro a ha b hb rfl
      exact hfresh (List.mem_singleton.mp hb ▸ ha)⟩
  · simp only [List.mem_append, List.mem_singleton, AList.mem_insert, ht.queued]
    tauto
  · by_cases hcc : c = ctx
    · subst hcc
      rw [AList.lookup_insert] at hc
      rw [← Option.some.inj hc]
      exact hctx
    · rw [AList.lookup_insert_ne hcc] at hc
      exact ht.named c status hc

/-! ## Acknowledgements -/

/-- An answer counts for the pending request with its context, if there is one. -/
theorem recvAck_cases (ro : ReadOnly) (m : Message) :
    (ro.pendingReadIndex.lookup m.context = none ∧ ro.recvAck m = (ro, 0)) ∨
    ∃ status, ro.pendingReadIndex.lookup m.context = some status ∧
      ro.recvAck m =
        ({ ro with
            pendingReadIndex := ro.pendingReadIndex.insert m.context
              { status with acks := insert m.fromId status.acks } },
          (insert m.fromId status.acks).card + 1) := by
  unfold recvAck
  cases h : ro.pendingReadIndex.lookup m.context with
  | none => exact Or.inl ⟨rfl, rfl⟩
  | some status => exact Or.inr ⟨status, rfl, rfl⟩

theorem Tracked.recvAck (ht : ro.Tracked) : (ro.recvAck m).1.Tracked := by
  obtain ⟨-, hack⟩ | ⟨status, hstatus, hack⟩ := recvAck_cases ro m
  · rw [hack]
    exact ht
  · rw [hack]
    refine ⟨ht.nodup, fun c => ?_, fun c status' hc => ?_⟩
    · have hmem : m.context ∈ ro.pendingReadIndex := AList.lookup_isSome.mp (by simp [hstatus])
      simp only [AList.mem_insert, ht.queued]
      constructor
      · exact Or.inr
      · rintro (rfl | hc)
        · exact hmem
        · exact hc
    · by_cases hcc : c = m.context
      · subst hcc
        rw [AList.lookup_insert] at hc
        rw [← Option.some.inj hc]
        exact ht.named _ status hstatus
      · rw [AList.lookup_insert_ne hcc] at hc
        exact ht.named c status' hc

/-! ## Releasing -/

/-- The loop of `advance` returns the requests up to the context. -/
theorem collect_found {queue : List Bytes} {rss : List ReadIndexStatus}
    (h : ro.collect ctx queue = Except.ok (rss, true)) :
    ∃ pre post, queue = pre ++ ctx :: post ∧
      List.Forall₂ (fun c status => ro.pendingReadIndex.lookup c = some status)
        (pre ++ [ctx]) rss := by
  induction queue generalizing rss with
  | nil => simp [collect] at h
  | cons okctx queue ih =>
      rw [collect] at h
      split at h
      · cases h
      rename_i status hstatus
      split at h
      · rename_i heq
        simp only [Outcome.pure_eq_ok, Prod.mk.injEq, and_true] at h
        subst heq
        refine ⟨[], queue, rfl, ?_⟩
        rw [← h]
        exact List.Forall₂.cons hstatus List.Forall₂.nil
      · obtain ⟨⟨rss', found⟩, hcollect, h⟩ := Outcome.bind_eq_ok.mp h
        simp only [Outcome.pure_eq_ok, Prod.mk.injEq] at h
        obtain ⟨rfl, rfl⟩ := h
        obtain ⟨pre, post, rfl, hpre⟩ := ih hcollect
        exact ⟨okctx :: pre, post, rfl, List.Forall₂.cons hstatus hpre⟩

/-- It fails to find a context only when the queue does not hold it. -/
theorem collect_not_found {queue : List Bytes} {rss : List ReadIndexStatus}
    (h : ro.collect ctx queue = Except.ok (rss, false)) : ctx ∉ queue := by
  induction queue generalizing rss with
  | nil => exact List.not_mem_nil
  | cons okctx queue ih =>
      rw [collect] at h
      split at h
      · cases h
      split at h
      · simp at h
      · rename_i hne
        obtain ⟨⟨rss', found⟩, hcollect, h⟩ := Outcome.bind_eq_ok.mp h
        simp only [Outcome.pure_eq_ok, Prod.mk.injEq] at h
        obtain ⟨-, rfl⟩ := h
        rw [List.mem_cons, not_or]
        exact ⟨fun heq => hne heq.symm, ih hcollect⟩

/-- Only pending requests are returned. -/
theorem collect_pending {queue : List Bytes} {rss : List ReadIndexStatus} {found : Bool}
    (h : ro.collect ctx queue = Except.ok (rss, found)) :
    ∀ status ∈ rss, ∃ c, ro.pendingReadIndex.lookup c = some status := by
  induction queue generalizing rss with
  | nil =>
      cases h
      exact fun status hs => by cases hs
  | cons okctx queue ih =>
      rw [collect] at h
      split at h
      · cases h
      rename_i status hstatus
      split at h
      · cases h
        intro s hs
        rw [List.mem_singleton.mp hs]
        exact ⟨okctx, hstatus⟩
      · obtain ⟨⟨rss', found'⟩, hcollect, h⟩ := Outcome.bind_eq_ok.mp h
        cases h
        intro s hs
        rcases List.mem_cons.mp hs with rfl | hs
        · exact ⟨okctx, hstatus⟩
        · exact ih hcollect s hs

/-- `advance` returns pending requests, and those that are left were pending before. -/
theorem advance_pending {rss : List ReadIndexStatus} (h : ro.advance m = Except.ok (ro', rss)) :
    (∀ status ∈ rss, ∃ c, ro.pendingReadIndex.lookup c = some status) ∧
      ∀ c status, ro'.pendingReadIndex.lookup c = some status →
        ro.pendingReadIndex.lookup c = some status := by
  obtain ⟨⟨rss', found⟩, hcollect, h⟩ := Outcome.bind_eq_ok.mp h
  cases found with
  | false =>
      cases h
      exact ⟨collect_pending hcollect, fun _ _ hc => hc⟩
  | true =>
      simp only [if_true] at h
      obtain ⟨pending, herase, h⟩ := Outcome.bind_eq_ok.mp h
      cases h
      refine ⟨collect_pending hcollect, fun c status hc => ?_⟩
      refine Outcome.foldlM_induct (P := fun p : AList fun _ : Bytes => ReadIndexStatus =>
        ∀ c status, p.lookup c = some status → ro.pendingReadIndex.lookup c = some status)
        (fun p p' rs _ hp hround => ?_) (fun _ _ hc => hc) herase c status hc
      obtain ⟨key, -, hround⟩ := Outcome.bind_eq_ok.mp hround
      obtain rfl := Outcome.pure_eq_ok.mp hround
      intro c status hc
      by_cases hck : c = key
      · subst hck
        rw [AList.lookup_erase] at hc
        cases hc
      · rw [AList.lookup_erase_ne hck] at hc
        exact hp c status hc

/-- The requests of a list of contexts are erased one by one. -/
theorem erase_collected {pending pending' : AList fun _ : Bytes => ReadIndexStatus}
    {ctxs : List Bytes} {rss : List ReadIndexStatus}
    (hnamed : List.Forall₂ (fun c (status : ReadIndexStatus) =>
      status.req.readContext = Except.ok c) ctxs rss)
    (h : rss.foldlM (fun pending (rs : ReadIndexStatus) => do
      return pending.erase (← rs.req.readContext)) pending = Except.ok pending') (c : Bytes) :
    pending'.lookup c = if c ∈ ctxs then none else pending.lookup c := by
  induction hnamed generalizing pending with
  | nil =>
      obtain rfl : pending = pending' := by simpa using h
      simp
  | @cons ctx status ctxs rss hctx _ ih =>
      rw [List.foldlM_cons] at h
      obtain ⟨pending₁, herase, h⟩ := Outcome.bind_eq_ok.mp h
      rw [hctx] at herase
      obtain rfl := Outcome.pure_eq_ok.mp herase
      rw [ih h]
      by_cases hc : c ∈ ctxs
      · simp [hc]
      · by_cases hcc : c = ctx
        · subst hcc
          simp
        · simp [hc, hcc, AList.lookup_erase_ne hcc]

/-- Requests that name themselves are erased without a crash. -/
lemma erase_returns {ctxs : List Bytes} {rss : List ReadIndexStatus}
    (hnamed : List.Forall₂ (fun c (status : ReadIndexStatus) =>
      status.req.readContext = Except.ok c) ctxs rss)
    (pending : AList fun _ : Bytes => ReadIndexStatus) :
    ∃ pending', rss.foldlM (fun pending (rs : ReadIndexStatus) => do
      return pending.erase (← rs.req.readContext)) pending = Except.ok pending' := by
  induction hnamed generalizing pending with
  | nil => exact ⟨pending, rfl⟩
  | @cons ctx status ctxs rss hctx _ ih =>
      obtain ⟨pending', h⟩ := ih (pending.erase ctx)
      refine ⟨pending', ?_⟩
      rw [List.foldlM_cons, hctx]
      exact h

/-- The loop of `advance` finds every context of the queue in the map. -/
lemma collect_returns (ctx : Bytes) {queue : List Bytes} (h : ∀ c ∈ queue, c ∈ ro.pendingReadIndex) :
    ∃ rss found, ro.collect ctx queue = Except.ok (rss, found) := by
  induction queue with
  | nil => exact ⟨[], false, rfl⟩
  | cons okctx queue ih =>
      obtain ⟨status, hstatus⟩ :=
        Option.isSome_iff_exists.mp (AList.lookup_isSome.mpr (h okctx List.mem_cons_self))
      obtain ⟨rss, found, hrest⟩ := ih fun c hc => h c (List.mem_cons_of_mem okctx hc)
      rw [collect, hstatus]
      dsimp only
      split
      · exact ⟨[status], true, rfl⟩
      · rw [hrest]
        exact ⟨status :: rss, found, rfl⟩

/-- **`advance` never ends the process.** -/
theorem advance_returns (ht : ro.Tracked) (m : Message) :
    ∃ ro' rss, ro.advance m = Except.ok (ro', rss) := by
  obtain ⟨rss, found, hcollect⟩ :=
    collect_returns m.context fun c hc => (ht.queued c).mp hc
  rw [ReadOnly.advance, hcollect]
  cases found with
  | false => exact ⟨ro, rss, rfl⟩
  | true =>
      obtain ⟨pre, post, -, hlookup⟩ := collect_found hcollect
      obtain ⟨pending, herase⟩ := erase_returns
        (hlookup.imp fun c status hc => ht.named c status hc) ro.pendingReadIndex
      refine ⟨{ ro with
        readIndexQueue := ro.readIndexQueue.drop rss.length
        pendingReadIndex := pending }, rss, ?_⟩
      simp only [Outcome.ok_bind, if_true, herase]
      rfl

/-- **The requests up to the context of an acknowledgement are returned**, and leave the queue and
the map. -/
theorem advance_releases (ht : ro.Tracked) {rss : List ReadIndexStatus}
    (hpending : m.context ∈ ro.pendingReadIndex) (h : ro.advance m = Except.ok (ro', rss)) :
    ∃ pre post, ro.readIndexQueue = pre ++ m.context :: post ∧
      ro'.readIndexQueue = post ∧
      (∀ c, ro'.pendingReadIndex.lookup c =
        if c ∈ pre ++ [m.context] then none else ro.pendingReadIndex.lookup c) ∧
      List.Forall₂ (fun c status => ro.pendingReadIndex.lookup c = some status)
        (pre ++ [m.context]) rss := by
  obtain ⟨⟨rss', found⟩, hcollect, h⟩ := Outcome.bind_eq_ok.mp h
  cases found with
  | false => exact absurd ((ht.queued _).mpr hpending) (collect_not_found hcollect)
  | true =>
      obtain ⟨pre, post, hqueue, hlookup⟩ := collect_found hcollect
      simp only [if_true] at h
      obtain ⟨pending, herase, h⟩ := Outcome.bind_eq_ok.mp h
      simp only [Outcome.pure_eq_ok, Prod.mk.injEq] at h
      obtain ⟨rfl, rfl⟩ := h
      refine ⟨pre, post, hqueue, ?_, fun c => ?_, hlookup⟩
      · have hlength := hlookup.length_eq
        have hsplit : pre ++ m.context :: post = (pre ++ [m.context]) ++ post := by simp
        simp only [hqueue, ← hlength]
        rw [hsplit, List.drop_left]
      · exact erase_collected (hlookup.imp fun c status hc => ht.named c status hc) herase c

theorem advance_split (ht : ro.Tracked) {rss : List ReadIndexStatus}
    (hpending : m.context ∈ ro.pendingReadIndex) (h : ro.advance m = Except.ok (ro', rss)) :
    ∃ pre post, ro.readIndexQueue = pre ++ m.context :: post ∧
      ro'.readIndexQueue = post ∧
      ∀ c, ro'.pendingReadIndex.lookup c =
        if c ∈ pre ++ [m.context] then none else ro.pendingReadIndex.lookup c := by
  obtain ⟨pre, post, hqueue, hqueue', hlookup, -⟩ := advance_releases ht hpending h
  exact ⟨pre, post, hqueue, hqueue', hlookup⟩

theorem Tracked.advance (ht : ro.Tracked) {rss : List ReadIndexStatus}
    (hpending : m.context ∈ ro.pendingReadIndex) (h : ro.advance m = Except.ok (ro', rss)) :
    ro'.Tracked := by
  obtain ⟨pre, post, hqueue, hqueue', hlookup⟩ := advance_split ht hpending h
  have hnodup := ht.nodup
  rw [hqueue, List.append_cons, List.nodup_append] at hnodup
  obtain ⟨-, hpost, hdisjoint⟩ := hnodup
  refine ⟨hqueue' ▸ hpost, fun c => ?_, fun c status hc => ?_⟩
  · have hold := ht.queued c
    rw [hqueue, List.append_cons, List.mem_append] at hold
    rw [hqueue', ← AList.lookup_isSome, hlookup]
    split
    · rename_i hpre
      simp only [Option.isSome_none, Bool.false_eq_true, iff_false]
      exact fun hc => hdisjoint c hpre c hc rfl
    · rename_i hpre
      rw [AList.lookup_isSome, ← hold]
      exact ⟨Or.inr, fun hc => hc.resolve_left hpre⟩
  · rw [hlookup] at hc
    split at hc
    · cases hc
    · exact ht.named c status hc

end ReadOnly

end RaftKv
