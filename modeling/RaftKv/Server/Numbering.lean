import RaftKv.Server.Process

/-!
# Request numbers

What holds of the numbers of the requests in every run, clean or not: a pending request is the
last one that took its 32-bit id, and a callback is invoked once.

* `RequestIds` — the invariant.
* `RequestIds.act` — **every action of a process keeps it**.
-/

namespace RaftKv

/-! ## Answers -/

namespace RedisStore

variable {κ : Type}

/-- A handler left the pending requests alone, or took one of them and invoked its callback. -/
def Answers (s : RedisStore κ) (r : RedisStore κ × List (κ × Status)) : Prop :=
  r.1.nextRequestId = s.nextRequestId ∧
    ((r.1.pendingRequests = s.pendingRequests ∧ r.2 = []) ∨
      ∃ commitId callback status, s.pendingRequests.lookup commitId = some callback ∧
        r.1.pendingRequests = s.pendingRequests.erase commitId ∧ r.2 = [(callback, status)])

lemma answers_complete (s : RedisStore κ) (commitId : UInt32) (status : Status) :
    s.Answers (s.complete commitId status) := by
  rw [complete]
  split
  · exact ⟨rfl, Or.inl ⟨rfl, rfl⟩⟩
  · rename_i callback hlookup
    exact ⟨rfl, Or.inr ⟨commitId, callback, status, hlookup, rfl, rfl⟩⟩

lemma answers_setStatus (s : RedisStore κ) (commitId : UInt32) (status : Status) :
    s.Answers (s.setStatus commitId status) := by
  rw [setStatus]
  split_ifs
  · exact ⟨rfl, Or.inl ⟨rfl, rfl⟩⟩
  · exact s.answers_complete commitId status

lemma answers_readCommit {codec : Codec RaftCommit} {ok : Nat → Bool} {s : RedisStore κ}
    {entry : Entry} {r : RedisStore κ × List (κ × Status)}
    (h : s.readCommit codec ok entry = Except.ok r) : s.Answers r := by
  rw [readCommit] at h
  split at h
  · cases Outcome.pure_eq_ok.mp h
    exact ⟨rfl, Or.inl ⟨rfl, rfl⟩⟩
  · rename_i commit _
    obtain ⟨ops, -, h⟩ := Outcome.bind_eq_ok.mp h
    dsimp only at h
    split_ifs at h
    · cases Outcome.pure_eq_ok.mp h
      exact answers_complete { s with db := RocksDB.writeEach ok s.db ops } commit.commitId Status.ok
    · cases Outcome.pure_eq_ok.mp h
      exact ⟨rfl, Or.inl ⟨rfl, rfl⟩⟩

end RedisStore

/-! ## The invariant -/

/-- The numbers of a store that has made `count` requests and invoked some callbacks. -/
structure RequestIds (s : RedisStore Nat) (count : Nat) (invoked : List (Nat × Status)) : Prop where
  next : s.nextRequestId = UInt32.ofNat count
  /-- A pending request has the id of its number, and nobody has taken this id since. -/
  pending : ∀ commitId n, s.pendingRequests.lookup commitId = some n →
    commitId = UInt32.ofNat n ∧ n < count ∧ count ≤ n + 2 ^ 32
  fresh : ∀ commitId n, s.pendingRequests.lookup commitId = some n → ∀ x ∈ invoked, x.1 ≠ n
  once : (invoked.map Prod.fst).Nodup
  made : ∀ x ∈ invoked, x.1 < count

lemma ofNat_eq_iff {m n : Nat} : UInt32.ofNat m = UInt32.ofNat n ↔ m % 2 ^ 32 = n % 2 ^ 32 := by
  rw [← UInt32.toNat_inj, UInt32.toNat_ofNat', UInt32.toNat_ofNat']

namespace RequestIds

variable {s : RedisStore Nat} {count : Nat} {invoked : List (Nat × Status)}

theorem start (nodeId : Nat) (db : RocksDB) :
    RequestIds { nodeId := nodeId, db := db } 0 [] where
  next := rfl
  pending _ _ h := by cases h
  fresh _ _ h := by cases h
  once := List.nodup_nil
  made _ h := by cases h

theorem request (h : RequestIds s count invoked) (codec : Codec RaftCommit) (data : RedisCommitData) :
    RequestIds (s.request codec data count).1 (count + 1) invoked := by
  have hlookup : ∀ commitId n,
      (s.request codec data count).1.pendingRequests.lookup commitId = some n →
      (commitId = UInt32.ofNat count ∧ n = count) ∨
        (commitId ≠ UInt32.ofNat count ∧ s.pendingRequests.lookup commitId = some n) := by
    intro commitId n hn
    by_cases hid : commitId = s.nextRequestId
    · left
      rw [RedisStore.request, hid, AList.lookup_insert] at hn
      exact ⟨hid.trans h.next, (Option.some.inj hn).symm⟩
    · right
      rw [RedisStore.request, AList.lookup_insert_ne hid] at hn
      exact ⟨fun heq => hid (heq.trans h.next.symm), hn⟩
  refine ⟨?_, fun commitId n hn => ?_, fun commitId n hn x hx => ?_, h.once, fun x hx => ?_⟩
  · show s.nextRequestId + 1 = _
    rw [h.next, UInt32.ofNat_add]
    rfl
  · rcases hlookup commitId n hn with ⟨hid, rfl⟩ | ⟨hne, hold⟩
    · exact ⟨hid, Nat.lt_succ_self _, by omega⟩
    · obtain ⟨hid, hlt, hle⟩ := h.pending commitId n hold
      refine ⟨hid, hlt.trans (Nat.lt_succ_self _), ?_⟩
      -- the id of the new request is another one, so it is not 2 ^ 32 requests later
      have : count ≠ n + 2 ^ 32 := fun heq => hne (by
        rw [hid, heq, ofNat_eq_iff, Nat.add_mod_right])
      omega
  · rcases hlookup commitId n hn with ⟨-, rfl⟩ | ⟨-, hold⟩
    · exact (h.made x hx).ne
    · exact h.fresh commitId n hold x hx
  · exact (h.made x hx).trans (Nat.lt_succ_self _)

theorem answers (h : RequestIds s count invoked) {r : RedisStore Nat × List (Nat × Status)}
    (hr : s.Answers r) : RequestIds r.1 count (invoked ++ r.2) := by
  obtain ⟨hnext, ⟨hpending, hout⟩ | ⟨commitId, n, status, hlookup, hpending, hout⟩⟩ := hr
  · rw [hout, List.append_nil]
    refine ⟨hnext.trans h.next, ?_, ?_, h.once, h.made⟩
    · rw [hpending]
      exact h.pending
    · rw [hpending]
      exact h.fresh
  · obtain ⟨hid, hlt, -⟩ := h.pending commitId n hlookup
    have hkept : ∀ commitId' m, r.1.pendingRequests.lookup commitId' = some m →
        commitId' ≠ commitId ∧ s.pendingRequests.lookup commitId' = some m := by
      intro commitId' m hm
      rw [hpending] at hm
      by_cases heq : commitId' = commitId
      · rw [heq, AList.lookup_erase] at hm
        cases hm
      · rw [AList.lookup_erase_ne heq] at hm
        exact ⟨heq, hm⟩
    refine ⟨hnext.trans h.next, fun commitId' m hm => h.pending _ _ (hkept _ _ hm).2,
      fun commitId' m hm x hx => ?_, ?_, fun x hx => ?_⟩
    · obtain ⟨hne, hm⟩ := hkept commitId' m hm
      rcases List.mem_append.mp hx with hx | hx
      · exact h.fresh _ _ hm x hx
      · rw [hout] at hx
        cases List.mem_singleton.mp hx
        -- the same number would have the same id
        exact fun heq => hne ((h.pending _ _ hm).1.trans (heq ▸ hid.symm))
    · rw [List.map_append, hout, List.nodup_append]
      refine ⟨h.once, List.nodup_singleton _, fun a ha b hb => ?_⟩
      cases List.mem_singleton.mp hb
      obtain ⟨x, hx, rfl⟩ := List.mem_map.mp ha
      exact h.fresh _ _ hlookup x hx
    · rcases List.mem_append.mp hx with hx | hx
      · exact h.made x hx
      · rw [hout] at hx
        cases List.mem_singleton.mp hx
        exact hlt

end RequestIds

namespace Process

variable {codecs : Codecs} {p p' : Process}

/-- What a handler of the store's thread does to the pending requests. -/
lemma runHandler_answers {ok : Nat → Bool} {x : Handler}
    (hrun : p.runHandler codecs ok x = Except.ok p') :
    p'.requests = p.requests ∧ ∃ r, p'.store = r.1 ∧ p'.invoked = p.invoked ++ r.2 ∧
      p.store.Answers r := by
  cases x with
  | setStatus commitId status =>
      cases Outcome.pure_eq_ok.mp hrun
      exact ⟨rfl, _, rfl, rfl, p.store.answers_setStatus commitId status⟩
  | delStatus commitId status =>
      cases Outcome.pure_eq_ok.mp hrun
      exact ⟨rfl, _, rfl, rfl, p.store.answers_complete commitId status⟩
  | readCommit e =>
      obtain ⟨r, hr, hrun⟩ := Outcome.bind_eq_ok.mp hrun
      obtain ⟨ops, -, hrun⟩ := Outcome.bind_eq_ok.mp hrun
      cases Outcome.pure_eq_ok.mp hrun
      exact ⟨rfl, r, rfl, rfl, RedisStore.answers_readCommit hr⟩
  | recoverFromSnapshot snap =>
      obtain ⟨r, hr, hrun⟩ := Outcome.bind_eq_ok.mp hrun
      rw [RedisStore.recoverFromSnapshot] at hr
      cases hunpack : codecs.keyValues.unpack snap with
      | error err =>
          rw [hunpack] at hrun
          cases hrun
      | ok keyValues =>
          rw [hunpack] at hr hrun
          cases Outcome.pure_eq_ok.mp hr
          cases Outcome.pure_eq_ok.mp hrun
          exact ⟨rfl, (p.store.loadKvToRocksdb (ok 0) keyValues, []), rfl,
            (List.append_nil _).symm, rfl, Or.inl ⟨rfl, rfl⟩⟩

end Process

open Process in
/-- **Every action keeps it.** -/
theorem RequestIds.act {codecs : Codecs} {p p' : Process}
    (h : RequestIds p.store p.requests.length p.invoked) {a : Process.Action}
    (hact : p.act codecs a = Except.ok p') :
    RequestIds p'.store p'.requests.length p'.invoked := by
  cases a with
  | set key value =>
      cases Outcome.pure_eq_ok.mp hact
      have := h.request codecs.commit ⟨RedisCommitData.kCommitSet, [key, value]⟩
      simpa [Process.request, RedisStore.set] using this
  | del keys =>
      cases Outcome.pure_eq_ok.mp hact
      have := h.request codecs.commit ⟨RedisCommitData.kCommitDel, keys⟩
      simpa [Process.request, RedisStore.del] using this
  | propose status =>
      rw [Process.act] at hact
      split at hact <;> cases Outcome.pure_eq_ok.mp hact <;> exact h
  | publishEntry e =>
      rw [Process.act] at hact
      split at hact <;> cases Outcome.pure_eq_ok.mp hact <;> exact h
  | publishSnapshot snap =>
      cases Outcome.pure_eq_ok.mp hact
      exact h
  | runStore ok =>
      rw [Process.act] at hact
      split at hact
      · cases Outcome.pure_eq_ok.mp hact
        exact h
      · obtain ⟨hrequests, r, hstore, hinvoked, hr⟩ := runHandler_answers hact
        rw [hrequests, hstore, hinvoked]
        exact h.answers hr

end RaftKv
