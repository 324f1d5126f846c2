import RaftKv.Service.Requests

/-!
# Acknowledged requests

* `Process.Fed.Acknowledges` — **the invariant**: the callback of a `set` was told OK by the
  handler of an entry that carries the number of the request.
* `Service.Upheld.acknowledged` — the entry is the one that was proposed for the request.
* `Service.Fits` — ids and numbers of requests have 32 bits, and packed requests can be unpacked.
* `Service.acknowledged_durable` — **an acknowledged `set` is run by every store**, in the same
  place.
* `Service.acknowledged_in_order` — **a `set` that is asked for after another was acknowledged is
  run after it**, whatever the replicas at which the two were asked for.
-/

namespace RaftKv

open Replication RaftLog

/-! ## The threads of a replica -/

namespace Process

variable {codecs : Codecs} {db : RocksDB} {nodeId : Nat} {f f' : Fed} {p : Process}

/-- The entry carries the packed commit of request `n` of this node. -/
def Fed.Answers (codec : Codec RaftCommit) (f : Fed) (n : Nat) (e : Entry) : Prop :=
  ∃ commit, codec.unpack e.data = Except.ok commit ∧ commit.nodeId.toNat = f.process.store.nodeId ∧
    commit.commitId = UInt32.ofNat n

/-- What holds of the handlers and of the callbacks of a process that has made fewer requests than
there are ids. -/
structure Fed.Acknowledges (codec : Codec RaftCommit) (f : Fed) : Prop where
  onStatus : ∀ x ∈ f.process.raftQueue, x.proposal.commitId = UInt32.ofNat x.origin ∧
    (x.onStatus = Handler.setStatus ∨ x.onStatus = Handler.delStatus ∧
      ∃ keys, f.process.requests[x.origin]? = some ⟨RedisCommitData.kCommitDel, keys⟩)
  delStatus : ∀ commitId status, Handler.delStatus commitId status ∈ f.process.storeQueue →
    ∃ n keys, f.process.requests[n]? = some ⟨RedisCommitData.kCommitDel, keys⟩ ∧
      commitId = UInt32.ofNat n
  acknowledged : f.process.requests.length ≤ 2 ^ 32 → ∀ n data,
    (n, Status.ok) ∈ f.process.invoked → f.process.requests[n]? = some data →
      data.type = RedisCommitData.kCommitSet → ∃ e ∈ f.ran, f.Answers codec n e

lemma Fed.Acknowledges.start :
    Fed.Acknowledges codecs.commit ⟨[], Process.start nodeId db⟩ where
  onStatus _ h := by cases h
  delStatus _ _ h := by cases h
  acknowledged _ _ _ h := by cases h

namespace Fed.Acknowledges

/-- A session makes a request. -/
lemma request (h : f.Acknowledges codecs.commit)
    (hids : RequestIds f.process.store f.process.requests.length f.process.invoked)
    {data : RedisCommitData} {onStatus : UInt32 → Status → Handler}
    (hon : onStatus = Handler.setStatus ∨ onStatus = Handler.delStatus ∧
      ∃ keys, data = ⟨RedisCommitData.kCommitDel, keys⟩) :
    Fed.Acknowledges codecs.commit ⟨f.cmds, f.process.request data
      (f.process.store.request codecs.commit data f.process.requests.length) onStatus⟩ := by
  have hkept : ∀ {n : Nat} {d : RedisCommitData}, f.process.requests[n]? = some d →
      (f.process.requests ++ [data])[n]? = some d := by
    intro n d hn
    rw [List.getElem?_append_left (List.getElem?_eq_some_iff.mp hn).1, hn]
  refine ⟨fun x hx => ?_, fun commitId status hmem => ?_, fun hlen n d hack hn hset => ?_⟩
  · rcases List.mem_append.mp hx with hx | hx
    · obtain ⟨hid, hold⟩ := h.onStatus x hx
      exact ⟨hid, hold.imp_right fun hdel => ⟨hdel.1, hdel.2.imp fun keys hn => hkept hn⟩⟩
    · cases List.mem_singleton.mp hx
      refine ⟨hids.next, hon.imp_right fun hdel => ⟨hdel.1, hdel.2.imp fun keys hdata => ?_⟩⟩
      rw [← hdata]
      exact List.getElem?_concat_length
  · obtain ⟨n, keys, hn, hid⟩ := h.delStatus commitId status hmem
    exact ⟨n, keys, hkept hn, hid⟩
  · have hlt : n < f.process.requests.length := hids.made _ hack
    have hold : f.process.requests[n]? = some d :=
      (List.getElem?_append_left hlt).symm.trans hn
    have hlen' : f.process.requests.length ≤ 2 ^ 32 := by
      have : (f.process.requests ++ [data]).length ≤ 2 ^ 32 := hlen
      rw [List.length_append] at this
      omega
    exact h.acknowledged hlen' n d hack hold hset

/-- The raft thread runs a handler. -/
lemma propose (h : f.Acknowledges codecs.commit) {status : Status}
    (hact : f.process.act codecs (Action.propose status) = Except.ok p) :
    Fed.Acknowledges codecs.commit ⟨f.cmds, p⟩ := by
  rw [Process.act] at hact
  split at hact
  · cases Outcome.pure_eq_ok.mp hact
    exact h
  rename_i x queue hqueue
  cases Outcome.pure_eq_ok.mp hact
  refine ⟨fun y hy => h.onStatus y (hqueue ▸ List.mem_cons_of_mem x hy),
    fun commitId status hmem => ?_, h.acknowledged⟩
  rcases List.mem_append.mp hmem with hmem | hmem
  · exact h.delStatus commitId status hmem
  · have hhandler := List.mem_singleton.mp hmem
    obtain ⟨hid, hset | ⟨hdel, keys, hn⟩⟩ := h.onStatus x (hqueue ▸ List.mem_cons_self ..)
    · rw [hset] at hhandler
      cases hhandler
    · rw [hdel] at hhandler
      cases hhandler
      exact ⟨x.origin, keys, hn, hid⟩

/-- The raft thread publishes an entry. -/
lemma publish (h : f.Acknowledges codecs.commit) {e : Committed}
    (hle : f.process.applied.length ≤ f.cmds.length)
    (hact : f.process.act codecs (Action.publishEntry e) = Except.ok p) :
    Fed.Acknowledges codecs.commit ⟨f.cmds ++ [e.entry], p⟩ := by
  have hran : ∀ x ∈ f.ran, x ∈ (f.cmds ++ [e.entry]).take f.process.applied.length := by
    intro x hx
    rw [List.take_append_of_le_length hle]
    exact hx
  rw [Process.act] at hact
  split at hact
  · cases Outcome.pure_eq_ok.mp hact
    refine ⟨h.onStatus, fun commitId status hmem => ?_, fun hlen n d hack hn hset => ?_⟩
    · rcases List.mem_append.mp hmem with hmem | hmem
      · exact h.delStatus commitId status hmem
      · cases List.mem_singleton.mp hmem
    · obtain ⟨x, hx, hanswers⟩ := h.acknowledged hlen n d hack hn hset
      exact ⟨x, hran x hx, hanswers⟩
  · cases Outcome.pure_eq_ok.mp hact
    refine ⟨h.onStatus, h.delStatus, fun hlen n d hack hn hset => ?_⟩
    obtain ⟨x, hx, hanswers⟩ := h.acknowledged hlen n d hack hn hset
    exact ⟨x, hran x hx, hanswers⟩

/-- The thread of the store runs a handler. -/
lemma runStore (h : f.Acknowledges codecs.commit) (hserves : Serves codecs db f.cmds f.process)
    (hids : RequestIds f.process.store f.process.requests.length f.process.invoked)
    {ok : Nat → Bool} (hact : f.process.act codecs (Action.runStore ok) = Except.ok p) :
    Fed.Acknowledges codecs.commit ⟨f.cmds, p⟩ := by
  rw [Process.act] at hact
  split at hact
  · cases Outcome.pure_eq_ok.mp hact
    exact h
  rename_i x queue hqueue
  have hdel : ∀ commitId status, Handler.delStatus commitId status ∈ queue →
      ∃ n keys, f.process.requests[n]? = some ⟨RedisCommitData.kCommitDel, keys⟩ ∧
        commitId = UInt32.ofNat n :=
    fun commitId status hmem => h.delStatus commitId status (hqueue ▸ List.mem_cons_of_mem x hmem)
  cases x with
  | setStatus commitId status =>
      cases Outcome.pure_eq_ok.mp hact
      refine ⟨h.onStatus, hdel, fun hlen n d hack hn hset => ?_⟩
      have hstore := (f.process.store.setStatus_fst commitId status).2
      rcases List.mem_append.mp hack with hack | hack
      · obtain ⟨e, he, commit, hunpack, hnode, hid⟩ := h.acknowledged hlen n d hack hn hset
        exact ⟨e, he, commit, hunpack, hnode.trans hstore.symm, hid⟩
      · have := RedisStore.mem_setStatus hack
        cases this
  | delStatus commitId status =>
      cases Outcome.pure_eq_ok.mp hact
      refine ⟨h.onStatus, hdel, fun hlen n d hack hn hset => ?_⟩
      have hstore := (f.process.store.complete_fst commitId status).2
      rcases List.mem_append.mp hack with hack | hack
      · obtain ⟨e, he, commit, hunpack, hnode, hid⟩ := h.acknowledged hlen n d hack hn hset
        exact ⟨e, he, commit, hunpack, hnode.trans hstore.symm, hid⟩
      · -- the request with this id is a `del`
        obtain ⟨hlookup, -⟩ := RedisStore.mem_complete hack
        obtain ⟨hid, hlt, -⟩ := hids.pending commitId n hlookup
        obtain ⟨m, keys, hm, hid'⟩ := h.delStatus commitId status (hqueue ▸ List.mem_cons_self ..)
        have hmlt := (List.getElem?_eq_some_iff.mp hm).1
        have hmod := ofNat_eq_iff.mp (hid.symm.trans hid')
        have hlen' : f.process.requests.length ≤ 2 ^ 32 := hlen
        obtain rfl : n = m := by omega
        obtain rfl := Option.some.inj (hn.symm.trans hm)
        cases hset
  | readCommit e =>
      obtain ⟨r, hr, hact⟩ := Outcome.bind_eq_ok.mp hact
      obtain ⟨ops, -, hact⟩ := Outcome.bind_eq_ok.mp hact
      cases Outcome.pure_eq_ok.mp hact
      obtain ⟨-, -, -, hstore, hinvoked⟩ := RedisStore.readCommit_spec hr
      obtain ⟨done, hcmds, hdone, -⟩ := hserves.ran
      have hran : f.cmds.take (f.process.applied.length + 1) = f.ran ++ [e.entry] := by
        rw [Fed.ran, hcmds, ← hdone, List.take_left, queued, hqueue, List.filterMap_cons,
          List.take_append]
        simp [Handler.command]
      have hmem : ∀ {y : Entry}, y ∈ f.ran ∨ y = e.entry →
          y ∈ f.cmds.take (f.process.applied ++ [Applied.commit e.origin ops ok]).length := by
        intro y hy
        rw [List.length_append, List.length_singleton, hran]
        exact List.mem_append.mpr (hy.imp_right fun hy => List.mem_singleton.mpr hy)
      refine ⟨h.onStatus, hdel, fun hlen n d hack hn hset => ?_⟩
      rcases List.mem_append.mp hack with hack | hack
      · obtain ⟨y, hy, commit, hunpack, hnode, hid⟩ := h.acknowledged hlen n d hack hn hset
        exact ⟨y, hmem (Or.inl hy), commit, hunpack, hnode.trans hstore.symm, hid⟩
      · have hcompletes := (hinvoked _ hack).1
        rw [RedisStore.completes] at hcompletes
        split at hcompletes
        · cases hcompletes
        rename_i commit hunpack
        split at hcompletes
        · rename_i hnode
          obtain ⟨hid, -⟩ := hids.pending _ n hcompletes
          exact ⟨e.entry, hmem (Or.inr rfl), commit, hunpack, hnode.trans hstore.symm, hid⟩
        · cases hcompletes
  | recoverFromSnapshot snap =>
      exact absurd (hqueue ▸ List.mem_cons_self ..) (hserves.noSnapshot snap)

end Fed.Acknowledges

/-- **It holds in every run.** -/
theorem Feeds.acknowledges (h : Feeds codecs ⟨[], Process.start nodeId db⟩ f) :
    f.Acknowledges codecs.commit := by
  induction h with
  | refl => exact Fed.Acknowledges.start
  | @step f f' a hrun ha hact ih =>
      obtain ⟨p, hp, hact⟩ := Outcome.bind_eq_ok.mp hact
      cases Outcome.pure_eq_ok.mp hact
      obtain ⟨-, hids, -⟩ := Feeds.booked hrun
      cases a with
      | set key value =>
          cases Outcome.pure_eq_ok.mp hp
          simp only [published, List.append_nil]
          exact ih.request hids (Or.inl rfl)
      | del keys =>
          cases Outcome.pure_eq_ok.mp hp
          simp only [published, List.append_nil]
          exact ih.request hids (Or.inr ⟨rfl, keys, rfl⟩)
      | propose status =>
          simp only [published, List.append_nil]
          exact ih.propose hp
      | publishEntry e =>
          refine ih.publish ?_ hp
          have := (Feeds.ran_eq hrun).1
          rw [Fed.ran, List.length_take] at this
          omega
      | publishSnapshot snap => exact absurd ha fun h => h
      | runStore ok =>
          simp only [published, List.append_nil]
          exact ih.runStore (Feeds.serves hrun) hids hp

end Process

/-! ## What a command does to a key -/

/-- The command writes to the key. -/
def Touches (codec : Codec RaftCommit) (k : Bytes) (e : Entry) : Prop :=
  ∃ ops, RedisStore.writesOf codec e = Except.ok ops ∧ ∃ op ∈ ops, op.key = k

lemma get_contentAfter {codec : Codec RaftCommit} {k : Bytes} {cmds : List Entry}
    (h : ∀ e ∈ cmds, ¬ Touches codec k e) (db : RocksDB) :
    (contentAfter codec db cmds).get k = db.get k := by
  induction cmds generalizing db with
  | nil => rfl
  | cons e cmds ih =>
      obtain ⟨he, hcmds⟩ := List.forall_mem_cons.mp h
      show (contentAfter codec (applyCommand codec db e) cmds).get k = _
      rw [ih hcmds, applyCommand]
      split
      · rename_i ops hops
        exact RocksDB.get_write_of_not_mem db fun op hop hk => he ⟨ops, hops, op, hop, hk⟩
      · rfl

/-! ## The service -/

namespace Service

variable {S : ServiceConf} {c c' c₀ c₁ c₂ : Service} {w : World Nat Entry} {i j n m : Nat}
  {s a b : Replica}

/-- The numbers of the replicas and of the requests have 32 bits, and the packed requests can be
unpacked. -/
structure Fits (S : ServiceConf) (c : Service) : Prop where
  ids : ∀ i s, c.replicas i = some s → i < 2 ^ 32
  requests : ∀ i s, c.replicas i = some s → s.threads.requests.length ≤ 2 ^ 32
  unpack : ∀ i s, c.replicas i = some s → ∀ data ∈ s.threads.requests, ∀ commitId,
    S.codecs.commit.RoundTrips ⟨UInt32.ofNat i, commitId, data⟩

lemma Fits.earlier (h : c'.Fits S) (honward : Onward S c c') : c.Fits S where
  ids i s hs := by
    obtain ⟨s', hs', -⟩ := honward i s hs
    exact h.ids i s' hs'
  requests i s hs := by
    obtain ⟨s', hs', hfeeds⟩ := honward i s hs
    exact hfeeds.grows.requests.2.length_le.trans (h.requests i s' hs')
  unpack i s hs data hdata := by
    obtain ⟨s', hs', hfeeds⟩ := honward i s hs
    exact h.unpack i s' hs' data (hfeeds.grows.requests.2.subset hdata)

/-- The packed request of a replica. -/
def packed (S : ServiceConf) (i n : Nat) (data : RedisCommitData) : Bytes :=
  S.codecs.commit.pack ⟨UInt32.ofNat i, UInt32.ofNat n, data⟩

/-- What a store has run is the packed request of a replica; its fields tell which. -/
lemma Sourced.ran_packed (h : c.Sourced) (hu : c.Upheld S w) (hfits : c.Fits S)
    (hs : c.replicas i = some s) {e : Entry} (he : e ∈ s.ran) :
    ∃ j r n data, c.replicas j = some r ∧ r.threads.requests[n]? = some data ∧
      e.data = packed S j n data ∧ S.codecs.commit.unpack e.data =
        Except.ok ⟨UInt32.ofNat j, UInt32.ofNat n, data⟩ := by
  obtain ⟨j, r, hr, x, hx, hdata⟩ := h.ran hu hs he
  obtain ⟨data, hreq, hbytes⟩ := hu.proposed hr hx
  refine ⟨j, r, x.origin, data, hr, hreq, hdata.symm.trans hbytes, ?_⟩
  rw [← hdata, hbytes]
  exact hfits.unpack j r hr data (List.mem_of_getElem? hreq) _

/-- **The entry of an acknowledged `set` was run.** -/
lemma Upheld.acknowledged (hu : c.Upheld S w) (h : c.Sourced) (hfits : c.Fits S)
    (hs : c.replicas i = some s) (hack : (n, Status.ok) ∈ s.threads.invoked)
    {data : RedisCommitData} (hn : s.threads.requests[n]? = some data)
    (hset : data.type = RedisCommitData.kCommitSet) :
    ∃ e ∈ s.ran, e.data = packed S i n data := by
  have hfeeds := hu.feeds i s hs
  have hlen := hfits.requests i s hs
  obtain ⟨e, he, commit, hunpack, hnode, hid⟩ :=
    hfeeds.acknowledges.acknowledged hlen n data hack hn hset
  obtain ⟨j, r, k, data', hr, hk, hbytes, hunpack'⟩ := h.ran_packed hu hfits hs he
  obtain rfl := Except.ok.inj (hunpack.symm.trans hunpack')
  -- the node and the number are those of the request
  have hj : j = i := by
    have hj := hfits.ids j r hr
    have : (UInt32.ofNat j).toNat = i := hnode.trans hfeeds.booked.2.2
    rw [UInt32.toNat_ofNat', Nat.mod_eq_of_lt hj] at this
    exact this
  subst hj
  obtain rfl := Option.some.inj (hr.symm.trans hs)
  have hkn : k = n := by
    have hklt := (List.getElem?_eq_some_iff.mp hk).1
    have hnlt := (List.getElem?_eq_some_iff.mp hn).1
    have hmod := ofNat_eq_iff.mp hid
    omega
  subst hkn
  obtain rfl := Option.some.inj (hk.symm.trans hn)
  exact ⟨e, he, hbytes⟩

/-- A request that has not been made was not run. -/
lemma Sourced.not_ran (h : c.Sourced) (hu : c.Upheld S w) (hfits : c.Fits S)
    (ha : c.replicas i = some a) (hj : j < 2 ^ 32) (hm : m < 2 ^ 32)
    (hlater : ∀ r, c.replicas j = some r → r.threads.requests.length ≤ m) {data : RedisCommitData}
    (hunpack : S.codecs.commit.RoundTrips ⟨UInt32.ofNat j, UInt32.ofNat m, data⟩) :
    ∀ e ∈ a.ran, e.data ≠ packed S j m data := by
  intro e he hdata
  obtain ⟨k, r, n, data', hr, hn, -, hunpack'⟩ := h.ran_packed hu hfits ha he
  rw [hdata] at hunpack'
  have hsame := Except.ok.inj (hunpack.symm.trans hunpack')
  simp only [RaftCommit.mk.injEq] at hsame
  obtain ⟨hid, hnumber, -⟩ := hsame
  have hk : j = k := by
    have hk := hfits.ids k r hr
    have hmod := ofNat_eq_iff.mp hid
    omega
  subst hk
  have hlt := (List.getElem?_eq_some_iff.mp hn).1
  have hle := hlater r hr
  have hroom := hfits.requests j r hr
  have hmod := ofNat_eq_iff.mp hnumber
  omega

/-- **An acknowledged `set` is never lost.**  In a steady run in which no replica is started again, and
whose requests fit: every store that has run as many commands as the one that acknowledged it has
run it in the same place; and it has the value, unless a later command writes to the key. -/
theorem acknowledged_durable (hstart : Started S c₀) (h₁ : RunOf (act S) Steady c₀ c₁)
    (h₂ : RunOf (act S) Steady c₁ c₂) (hfits : c₁.Fits S) (ha : c₁.replicas i = some a)
    (hb : c₂.replicas j = some b) (hack : (n, Status.ok) ∈ a.threads.invoked) {key value : Bytes}
    (hset : a.threads.requests[n]? = some ⟨RedisCommitData.kCommitSet, [key, value]⟩)
    (hfar : a.ran.length ≤ b.ran.length) :
    ∃ before e after, b.ran = before ++ e :: after ∧ before ++ [e] <+: a.ran ∧
      e.data = packed S i n ⟨RedisCommitData.kCommitSet, [key, value]⟩ ∧
      ((∀ x ∈ after, ¬ Touches S.codecs.commit key x) →
        b.threads.store.get key = some value) := by
  obtain ⟨⟨w₁, -, hu₁⟩, -⟩ := hstart.upheld.run h₁
  obtain ⟨⟨w₂, hl, hu₂⟩, -⟩ := hu₁.run h₂
  have hsourced := hstart.sourced.run hstart.upheld h₁
  obtain ⟨e, he, hdata⟩ := hu₁.acknowledged hsourced hfits ha hack hset rfl
  have hpre : a.ran <+: b.ran :=
    (hu₁.comparable hl hu₂ ha hb).elim (fun hpre => hpre) fun hpre => by
      rw [hpre.eq_of_length_le hfar]
  obtain ⟨before, rest, hsplit⟩ := List.append_of_mem he
  obtain ⟨more, hmore⟩ := hpre
  have hran : b.ran = before ++ e :: (rest ++ more) := by
    rw [← hmore, hsplit, List.append_assoc, List.cons_append]
  refine ⟨before, e, rest ++ more, hran, ?_, hdata, fun hafter => ?_⟩
  · rw [hsplit]
    exact ⟨rest, (List.append_cons ..).symm⟩
  · have hops : RedisStore.writesOf S.codecs.commit e = Except.ok [WriteOp.put key value] := by
      have hunpack : S.codecs.commit.unpack e.data = Except.ok ⟨UInt32.ofNat i, UInt32.ofNat n,
          ⟨RedisCommitData.kCommitSet, [key, value]⟩⟩ := by
        rw [hdata]
        exact hfits.unpack i a ha _ (List.mem_of_getElem? hset) _
      rw [RedisStore.writesOf, hunpack]
      rfl
    show b.threads.store.db.get key = some value
    rw [hu₂.content hb, hran, List.append_cons, contentAfter, List.foldl_append]
    refine (get_contentAfter hafter _).trans ?_
    show (contentAfter S.codecs.commit S.db (before ++ [e])).get key = _
    rw [contentAfter_snoc, applyCommand, hops]
    exact OrderedMap.get_put_self _ _ _

/-- A replica that is there was there before. -/
lemma replicas_run {P : Service → Action → Prop} (hrun : RunOf (act S) P c₀ c)
    (hs : c.replicas i = some s) : ∃ s₀, c₀.replicas i = some s₀ := by
  induction hrun generalizing s with
  | refl => exact ⟨s, hs⟩
  | step a _ _ hact ih =>
      rcases act_cases hact with rfl | ⟨k, r, r', sent, hr, -, rfl⟩
      · exact ih hs
      · rcases replicas_put hs with ⟨rfl, -⟩ | ⟨-, hold⟩
        · exact ih hr
        · exact ih hold

/-- The requests of three replicas are small. -/
def small (c : Service) : Bool :=
  [1, 2, 3].all fun i => (c.replicas i).all fun s =>
    s.threads.requests.length < 16 && s.threads.requests.all fun data =>
      data.strs.length < 16 && data.strs.all fun str => str.length < 32

lemma fits_three {P : Service → Action → Prop}
    (hrun : RunOf (act ThreeReplicas.conf) P ThreeReplicas.start c) (hsmall : c.small = true) :
    c.Fits ThreeReplicas.conf := by
  have hthree : ∀ i s, c.replicas i = some s → i ∈ [1, 2, 3] := by
    intro i s hs
    obtain ⟨s₀, hs₀⟩ := replicas_run hrun hs
    simp only [ThreeReplicas.start] at hs₀
    split at hs₀
    · rename_i hi
      simpa using hi
    · cases hs₀
  have hof : ∀ i s, c.replicas i = some s → s.threads.requests.length < 16 ∧
      ∀ data ∈ s.threads.requests, data.strs.length < 16 ∧ ∀ str ∈ data.strs, str.length < 32 := by
    intro i s hs
    have hi := List.all_eq_true.mp hsmall i (hthree i s hs)
    rw [hs] at hi
    simpa using hi
  refine ⟨fun i s hs => ?_, fun i s hs => ?_, fun i s hs data hdata commitId => ?_⟩
  · have hi := hthree i s hs
    simp only [List.mem_cons, List.not_mem_nil, or_false] at hi
    omega
  · have := (hof i s hs).1
    omega
  · obtain ⟨hlen, hstrs⟩ := (hof i s hs).2 data hdata
    exact commitCodec_roundTrips _ hlen hstrs

/-- Replica 1 has acknowledged a `set`, and replica 2 has run it. -/
theorem acknowledged_durable_three : ∃ (c₁ c₂ : Service) (a b : Replica),
    RunOf (act ThreeReplicas.conf) Steady ThreeReplicas.start c₁ ∧
    RunOf (act ThreeReplicas.conf) Steady c₁ c₂ ∧
    c₁.replicas 1 = some a ∧ c₂.replicas 2 = some b ∧ (0, Status.ok) ∈ a.threads.invoked ∧
    b.threads.store.get [107] = some [118] := by
  let exec := RunOf.exec (act ThreeReplicas.conf) Steady
  have hreached : (((ThreeReplicas.elect ++ ThreeReplicas.write).foldlM exec
      ThreeReplicas.start).toOption.any fun c₁ =>
        (ThreeReplicas.follow.foldlM exec c₁).toOption.any fun c₂ => c₁.small &&
          (c₁.replicas 1).any fun a => (c₂.replicas 2).any fun b =>
            (0, Status.ok) ∈ a.threads.invoked ∧ a.threads.requests[0]? =
              some ⟨RedisCommitData.kCommitSet, [[107], [118]]⟩ ∧
            a.ran.length = 1 ∧ b.ran.length = 1) = true := by
    decide +kernel
  obtain ⟨c₁, hc₁, hreached⟩ := (Option.any_eq_true ..).mp hreached
  obtain ⟨c₂, hc₂, hreached⟩ := (Option.any_eq_true ..).mp hreached
  rw [Bool.and_eq_true] at hreached
  obtain ⟨hsmall, hreached⟩ := hreached
  obtain ⟨a, ha, hreached⟩ := (Option.any_eq_true ..).mp hreached
  obtain ⟨b, hb, hreached⟩ := (Option.any_eq_true ..).mp hreached
  obtain ⟨hack, hset, hlena, hlenb⟩ := of_decide_eq_true hreached
  have h₁ : RunOf (act ThreeReplicas.conf) Steady ThreeReplicas.start c₁ :=
    RunOf.of_exec (Outcome.eq_ok_of_toOption hc₁)
  have h₂ : RunOf (act ThreeReplicas.conf) Steady c₁ c₂ :=
    RunOf.of_exec (Outcome.eq_ok_of_toOption hc₂)
  obtain ⟨before, e, after, hran, -, -, hget⟩ := acknowledged_durable ThreeReplicas.started h₁ h₂
    (fits_three h₁ hsmall) ha hb hack hset (by omega)
  refine ⟨c₁, c₂, a, b, h₁, h₂, ha, hb, hack, hget fun x hx => ?_⟩
  rw [hran, List.length_append, List.length_cons] at hlenb
  rw [List.length_eq_zero_iff.mp (show after.length = 0 by omega)] at hx
  cases hx

/-- **Writes keep the order of real time**, in a steady run in which no replica is started again, and
whose requests fit.  If one `set` was acknowledged before another was asked for, at whatever
replicas, then where the other one is acknowledged it was run after all that had been run where the
first one was acknowledged, the first one included, and had not been run before. -/
theorem acknowledged_in_order (hstart : Started S c₀) (h₁ : RunOf (act S) Steady c₀ c₁)
    (h₂ : RunOf (act S) Steady c₁ c₂) (hfits : c₂.Fits S) (ha : c₁.replicas i = some a)
    (hb : c₂.replicas j = some b) {data data' : RedisCommitData}
    (hack : (n, Status.ok) ∈ a.threads.invoked) (hn : a.threads.requests[n]? = some data)
    (hset : data.type = RedisCommitData.kCommitSet)
    (hlater : ∀ r, c₁.replicas j = some r → r.threads.requests.length ≤ m)
    (hack' : (m, Status.ok) ∈ b.threads.invoked) (hm : b.threads.requests[m]? = some data')
    (hset' : data'.type = RedisCommitData.kCommitSet) :
    ∃ rest, b.ran = a.ran ++ rest ∧ (∃ e ∈ a.ran, e.data = packed S i n data) ∧
      (∃ e ∈ rest, e.data = packed S j m data') ∧ ∀ e ∈ a.ran, e.data ≠ packed S j m data' := by
  obtain ⟨⟨w₁, -, hu₁⟩, -⟩ := hstart.upheld.run h₁
  obtain ⟨⟨w₂, hl, hu₂⟩, honward, -⟩ := hu₁.run h₂
  have hsourced₁ := hstart.sourced.run hstart.upheld h₁
  have hsourced₂ := hsourced₁.run hu₁ h₂
  have hfits₁ := hfits.earlier honward
  have hfirst := hu₁.acknowledged hsourced₁ hfits₁ ha hack hn hset
  obtain ⟨e, he, hdata⟩ := hu₂.acknowledged hsourced₂ hfits hb hack' hm hset'
  have hmlt : m < 2 ^ 32 :=
    lt_of_lt_of_le (List.getElem?_eq_some_iff.mp hm).1 (hfits.requests j b hb)
  have hnew : ∀ x ∈ a.ran, x.data ≠ packed S j m data' :=
    hsourced₁.not_ran hu₁ hfits₁ ha (hfits.ids j b hb) hmlt hlater
      (hfits.unpack j b hb data' (List.mem_of_getElem? hm) _)
  rcases hu₁.comparable hl hu₂ ha hb with hpre | hpre
  · obtain ⟨rest, hrest⟩ := hpre
    refine ⟨rest, hrest.symm, hfirst, ⟨e, ?_, hdata⟩, hnew⟩
    rw [← hrest] at he
    exact (List.mem_append.mp he).resolve_left fun hmem => hnew e hmem hdata
  · exact absurd hdata (hnew e (hpre.subset he))

/-- Replica 1 has acknowledged a `set`, and then a session of replica 2 writes to the same key. -/
theorem acknowledged_in_order_three : ∃ (c₁ c₂ : Service) (a b : Replica) (rest : List Entry),
    RunOf (act ThreeReplicas.conf) Steady ThreeReplicas.start c₁ ∧
    RunOf (act ThreeReplicas.conf) Steady c₁ c₂ ∧
    c₁.replicas 1 = some a ∧ c₂.replicas 2 = some b ∧ (0, Status.ok) ∈ a.threads.invoked ∧
    (0, Status.ok) ∈ b.threads.invoked ∧ b.ran = a.ran ++ rest ∧
    ∃ e ∈ rest, e.data = packed ThreeReplicas.conf 2 0
      ⟨RedisCommitData.kCommitSet, [[107], [119]]⟩ := by
  let exec := RunOf.exec (act ThreeReplicas.conf) Steady
  have hreached : (((ThreeReplicas.elect ++ ThreeReplicas.write ++ ThreeReplicas.follow).foldlM exec
      ThreeReplicas.start).toOption.any fun c₁ =>
        (ThreeReplicas.overwrite.foldlM exec c₁).toOption.any fun c₂ => c₂.small &&
          ((c₁.replicas 2).all fun r => r.threads.requests.length = 0) &&
          (c₁.replicas 1).any fun a => (c₂.replicas 2).any fun b =>
            (0, Status.ok) ∈ a.threads.invoked ∧ (0, Status.ok) ∈ b.threads.invoked ∧
            a.threads.requests[0]? = some ⟨RedisCommitData.kCommitSet, [[107], [118]]⟩ ∧
            b.threads.requests[0]? = some ⟨RedisCommitData.kCommitSet, [[107], [119]]⟩) =
      true := by
    decide +kernel
  obtain ⟨c₁, hc₁, hreached⟩ := (Option.any_eq_true ..).mp hreached
  obtain ⟨c₂, hc₂, hreached⟩ := (Option.any_eq_true ..).mp hreached
  rw [Bool.and_eq_true, Bool.and_eq_true] at hreached
  obtain ⟨⟨hsmall, hlater⟩, hreached⟩ := hreached
  obtain ⟨a, ha, hreached⟩ := (Option.any_eq_true ..).mp hreached
  obtain ⟨b, hb, hreached⟩ := (Option.any_eq_true ..).mp hreached
  obtain ⟨hack, hack', hn, hm⟩ := of_decide_eq_true hreached
  have h₁ : RunOf (act ThreeReplicas.conf) Steady ThreeReplicas.start c₁ :=
    RunOf.of_exec (Outcome.eq_ok_of_toOption hc₁)
  have h₂ : RunOf (act ThreeReplicas.conf) Steady c₁ c₂ :=
    RunOf.of_exec (Outcome.eq_ok_of_toOption hc₂)
  have hlater : ∀ r, c₁.replicas 2 = some r → r.threads.requests.length ≤ 0 := by
    intro r hr
    rw [hr] at hlater
    exact (of_decide_eq_true hlater).le
  obtain ⟨rest, hran, -, he, -⟩ := acknowledged_in_order ThreeReplicas.started h₁ h₂
    (fits_three (h₁.trans h₂) hsmall) ha hb hack hn rfl hlater hack' hm rfl
  exact ⟨c₁, c₂, a, b, rest, h₁, h₂, ha, hb, hack, hack', hran, he⟩

end Service

end RaftKv
