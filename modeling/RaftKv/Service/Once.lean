import RaftKv.Service.Acknowledged

/-!
# No command is run twice

The transport gives a peer no message twice.  Where this is so, a request is in one place at any time:
it waits for the raft thread, is on the way to the leader, or was appended to a log once.

* `Courier` — a service, and the messages that were delivered.
* `Place`, `Places` — where a request is.
* `Placed` — **the invariant**: whatever holds a request is the place where it is.
* `Service.ran_once` — **no store runs a request twice**, and an acknowledged `set` was run once.
-/

namespace RaftKv

open Replication RaftLog

/-- Numbered entries are in the order of their indices. -/
lemma Numbered.pairwise {n : Nat} {es : List Entry} (h : Numbered n es) :
    es.Pairwise fun e e' => e.index < e'.index := by
  refine List.pairwise_iff_getElem.mpr fun i j hi hj hlt => ?_
  have hindex := h i _ (List.getElem?_eq_getElem hi)
  have hindex' := h j _ (List.getElem?_eq_getElem hj)
  omega

/-! ## Deliveries -/

/-- A service, with the numbers of the messages that were delivered. -/
structure Courier where
  service : Service
  delivered : List Nat := []

namespace Courier

def record (delivered : List Nat) : Service.Action → List Nat
  | Service.Action.deliver k => k :: delivered
  | _ => delivered

def act (S : ServiceConf) (d : Courier) (a : Service.Action) : Outcome Courier := do
  let service ← d.service.act S a
  return { service := service, delivered := record d.delivered a }

/-- The action is steady, and delivers no message a second time. -/
def Once (d : Courier) (a : Service.Action) : Prop :=
  d.service.Steady a ∧ ∀ k ∈ d.delivered, a ≠ Service.Action.deliver k

instance (d : Courier) (a : Service.Action) : Decidable (d.Once a) :=
  inferInstanceAs (Decidable (_ ∧ _))

/-- The service does not know what was delivered. -/
lemma run_service {S : ServiceConf} {d d' : Courier} (h : RunOf (act S) Once d d') :
    RunOf (Service.act S) Service.Steady d.service d'.service := by
  induction h with
  | refl => exact RunOf.refl _
  | step a _ ha hact ih =>
      obtain ⟨c, hc, hact⟩ := Outcome.bind_eq_ok.mp hact
      cases Outcome.pure_eq_ok.mp hact
      exact ih.step a ha.1 hc

lemma subset_record (delivered : List Nat) (a : Service.Action) : delivered ⊆ record delivered a := by
  cases a with
  | deliver k => exact List.subset_cons_self k delivered
  | _ => exact List.Subset.refl _

end Courier

/-! ## Places -/

/-- Where a request can be. -/
inductive Place where
  /-- With the `k`-th handler that was ever posted to the raft thread of replica `i`. -/
  | queue (i k : Nat)
  /-- In the `k`-th message that the node of replica `i` has queued. -/
  | outbox (i k : Nat)
  /-- In the `k`-th message that was sent. -/
  | wire (k : Nat)
  /-- In the entry with this term and index. -/
  | logged (term index : Nat)

/-- The place belongs to replica `i`, or is a message that was delivered. -/
def Place.Freed (delivered : List Nat) (i : Nat) : Place → Prop
  | queue j _ | outbox j _ => j = i
  | wire k => k ∈ delivered
  | logged .. => False

/-- Replica `i` sends its messages behind the first `n`. -/
def Place.post (i n : Nat) : Place → Place
  | outbox j k => if j = i then wire (n + k) else outbox j k
  | p => p

/-- Where each request is, if it was made. -/
abbrev Places := Bytes → Option Place

namespace Places

variable {ω ω' : Places} {data x : Bytes} {p q : Place} {m : Message} {i : Nat}

def move (ω : Places) (data : Bytes) (p : Place) : Places := Function.update ω data (some p)

lemma move_self (ω : Places) (data : Bytes) (p : Place) : ω.move data p data = some p :=
  Function.update_self ..

lemma move_of_ne (h : ω x = some q) (hne : ω data ≠ some q) : ω.move data p x = some q := by
  rw [move, Function.update_of_ne]
  · exact h
  · rintro rfl
    exact hne h

/-- The entry is where its request is. -/
def Logged (ω : Places) (e : Entry) : Prop :=
  e.type = EntryType.entryNormal → e.data = [] ∨ ω e.data = some (Place.logged e.term e.index)

/-- The message, if it is a proposal, is where its request is. -/
def Sends (ω : Places) (p : Place) (m : Message) : Prop :=
  m.type = MessageType.msgProp →
    m.term = 0 ∧ ∃ data, m.entries = [{ data := data }] ∧ ω data = some p

/-- The handlers of the raft thread are where their requests are. -/
def Waits (ω : Places) (i : Nat) (t : Process) : Prop :=
  ∀ k x, t.raftQueue[k]? = some x →
    ω x.proposal.data = some (Place.queue i (t.proposed.length + k))

lemma logged_empty (ω : Places) :
    ∀ e : Entry, e.type = EntryType.entryNormal → e.data = [] → ω.Logged e :=
  fun _ _ h _ => Or.inl h

lemma Logged.mono {e : Entry} (h : ω.Logged e)
    (hkeep : ∀ x, ω x = some (Place.logged e.term e.index) →
      ω' x = some (Place.logged e.term e.index)) : ω'.Logged e :=
  fun ht => (h ht).imp_right (hkeep _)

lemma Sends.mono (h : ω.Sends p m) (hkeep : ∀ x, ω x = some p → ω' x = some q) : ω'.Sends q m := by
  intro ht
  obtain ⟨hterm, data, hentries, hdata⟩ := h ht
  exact ⟨hterm, data, hentries, hkeep data hdata⟩

lemma Waits.mono {t : Process} (h : ω.Waits i t)
    (hkeep : ∀ x k, ω x = some (Place.queue i k) → ω' x = some (Place.queue i k)) : ω'.Waits i t :=
  fun k x hx => hkeep _ _ (h k x hx)

/-- What holds of a node. -/
structure Node (ω : Places) (i : Nat) (r : Raft) : Prop where
  stems : r.Stems ω.Logged
  outbox : ∀ k m, r.msgs[k]? = some m → ω.Sends (Place.outbox i k) m

lemma Node.mono {r : Raft} (h : ω.Node i r)
    (hlogged : ∀ x t n, ω x = some (Place.logged t n) → ω' x = some (Place.logged t n))
    (houtbox : ∀ x k, ω x = some (Place.outbox i k) → ω' x = some (Place.outbox i k)) :
    ω'.Node i r where
  stems := h.stems.mono fun _ he => he.mono fun x => hlogged x _ _
  outbox k m hm := (h.outbox k m hm).mono fun x => houtbox x k

/-- A call that is no proposal. -/
lemma Node.deeds {r r' : Raft} (h : ω.Node i r) (ht : m.type ≠ MessageType.msgProp)
    (hbatch : m.Stems ω.Logged) (hdeeds : Raft.Deeds m r r') : ω.Node i r' where
  stems := hdeeds.stems_of_ne ω.logged_empty ht hbatch h.stems
  outbox k x hx := by
    obtain ⟨sent, hmsgs, hsent⟩ := hdeeds.forwards
    rw [hmsgs, List.getElem?_append] at hx
    split at hx
    · exact h.outbox k x hx
    · exact fun htype => absurd (hsent x (List.mem_of_getElem? hx) htype).1 ht

/-- **A proposal that a node is called with** moves its request to one place. -/
theorem Node.handled {r r' : Raft} (h : ω.Node i r) (hm : Raft.Handled m r r')
    (htype : m.type = MessageType.msgProp) (hterm : m.term = 0)
    (hentries : m.entries = [{ data := data }]) (hdata : ω data = some p)
    (hlogged : ∀ t n, p ≠ Place.logged t n) (houtbox : ∀ k, p ≠ Place.outbox i k) :
    ∃ q, (ω.move data q).Node i r' := by
  have hkept : ∀ q, (ω.move data q).Node i r := by
    intro q
    refine h.mono (fun x t n hx => move_of_ne hx ?_) (fun x k hx => move_of_ne hx ?_)
    · rw [hdata]
      exact fun heq => hlogged t n (Option.some.inj heq)
    · rw [hdata]
      exact fun heq => houtbox k (Option.some.inj heq)
  cases hm with
  | dropped hlog hmsgs =>
      have hsame := hkept p
      refine ⟨p, hsame.stems.same (by rw [hlog]; exact List.Subset.refl _) hmsgs, ?_⟩
      rw [hmsgs]
      exact hsame.outbox
  | forwarded hlog hmsgs =>
      have hsame := hkept (Place.outbox i r.msgs.length)
      refine ⟨_, hsame.stems.push hlog hmsgs fun ht => ?_, fun k x hx => ?_⟩
      · exact absurd (htype.symm.trans ht) (by decide)
      rw [hmsgs] at hx
      by_cases hk : k < r.msgs.length
      · rw [List.getElem?_append_left hk] at hx
        exact hsame.outbox k x hx
      have hlt := (List.getElem?_eq_some_iff.mp hx).1
      rw [List.length_append, List.length_singleton] at hlt
      obtain rfl : k = r.msgs.length := by omega
      rw [List.getElem?_concat_length, Option.some.injEq] at hx
      subst hx
      refine fun _ => ⟨?_, data, ?_, move_self ..⟩
      · rw [Raft.signed, if_pos (Or.inr (by rw [htype]; rfl))]
        exact hterm
      · rw [Raft.signed_entries]
        exact hentries
  | @appended r₁ last hlog hmsgs hrest =>
      have hsame := hkept (Place.logged r.term (r.raftLog.lastIndex + 1))
      have hr₁ : (ω.move data (Place.logged r.term (r.raftLog.lastIndex + 1))).Node i r₁ := by
        refine ⟨hsame.stems.grow (append_held hlog) ?_ hmsgs, ?_⟩
        · rw [hentries]
          exact List.forall_mem_singleton.mpr fun _ => Or.inr (move_self ..)
        · rw [hmsgs]
          exact hsame.outbox
      exact ⟨_, hr₁.deeds (m := { type := MessageType.msgHup }) (by simp) (fun ht => by cases ht)
        (hrest _)⟩

end Places

/-! ## The threads of a replica -/

section Threads

variable {codecs : Process.Codecs} {p p' : Process} {ω ω' : Places} {i : Nat}

lemma Places.Waits.same (h : ω.Waits i p)
    (hsame : p'.raftQueue = p.raftQueue ∧ p'.proposed = p.proposed) : ω.Waits i p' := by
  obtain ⟨hqueue, hproposed⟩ := hsame
  rw [Waits, hqueue, hproposed]
  exact h

/-- The thread of the store leaves the handlers of the raft thread alone. -/
lemma Process.runStore_frame {ok : Nat → Bool}
    (hact : p.act codecs (Process.Action.runStore ok) = Except.ok p') :
    p'.raftQueue = p.raftQueue ∧ p'.proposed = p.proposed := by
  rw [Process.act] at hact
  split at hact
  · cases Outcome.pure_eq_ok.mp hact
    exact ⟨rfl, rfl⟩
  · obtain ⟨hqueue, hproposed, -⟩ := Incarnations.runHandler_frame hact
    exact ⟨hqueue, hproposed⟩

/-- And so does publishing. -/
lemma Replica.publish_frame {tasks : List StoreTask}
    (hpublish : tasks.foldlM (Replica.publish codecs) p = Except.ok p') :
    p'.raftQueue = p.raftQueue ∧ p'.proposed = p.proposed := by
  refine Outcome.foldlM_induct (P := fun t : Process =>
    t.raftQueue = p.raftQueue ∧ t.proposed = p.proposed) (fun t t' task _ ht hround => ?_)
    ⟨rfl, rfl⟩ hpublish
  cases task with
  | readCommit e =>
      rw [publish, Process.act] at hround
      split at hround
      · cases Outcome.pure_eq_ok.mp hround
        exact ht
      · cases Outcome.pure_eq_ok.mp hround
        exact ht
  | recoverFromSnapshot data =>
      cases Outcome.pure_eq_ok.mp hround
      exact ht

/-- A session makes a request. -/
lemma Places.Waits.request (h : ω.Waits i p) {data : RedisCommitData}
    {r : RedisStore Nat × RedisStore.Proposal} {onStatus : UInt32 → Status → Process.Handler}
    (hfresh : ω r.2.data = none) :
    (ω.move r.2.data (Place.queue i (p.proposed.length + p.raftQueue.length))).Waits i
      (p.request data r onStatus) := by
  intro k x hx
  by_cases hk : k < p.raftQueue.length
  · have hold : p.raftQueue[k]? = some x := (List.getElem?_append_left hk).symm.trans hx
    refine move_of_ne (h k x hold) ?_
    rw [hfresh]
    exact fun heq => by cases heq
  · have hlt := (List.getElem?_eq_some_iff.mp hx).1
    have hlt : k < p.raftQueue.length + 1 := by
      simpa only [Process.request, List.length_append, List.length_singleton] using hlt
    obtain rfl : k = p.raftQueue.length := by omega
    obtain rfl : _ = x := Option.some.inj (List.getElem?_concat_length.symm.trans hx)
    exact move_self ..

/-- The raft thread takes its next handler. -/
lemma Places.Waits.propose (h : ω.Waits i p) {x : Process.Posted} {queue : List Process.Posted}
    (hqueue : p.raftQueue = x :: queue) (q : Place) {t : Process} (ht : t.raftQueue = queue)
    (hproposed : t.proposed = p.proposed ++ [x]) :
    (ω.move x.proposal.data q).Waits i t := by
  intro k y hy
  have hfirst := h 0 x (by rw [hqueue]; rfl)
  have hnext := h (k + 1) y (by rw [hqueue, List.getElem?_cons_succ, ← ht]; exact hy)
  rw [hproposed, List.length_append, List.length_singleton, Nat.add_assoc, Nat.add_comm 1 k]
  refine move_of_ne hnext ?_
  rw [hfirst]
  simp

end Threads

/-! ## The service -/

namespace Service

variable {S : ServiceConf} {c c' c₀ : Service} {w : World Nat Entry} {i j n k : Nat}
  {s s' r : Replica} {sent : List Message} {ω ω' : Places} {delivered delivered' : List Nat}

/-- A session has asked for it at some replica. -/
def Made (S : ServiceConf) (c : Service) (bytes : Bytes) : Prop :=
  ∃ i s n data, c.replicas i = some s ∧ s.threads.requests[n]? = some data ∧
    bytes = packed S i n data

lemma Onward.made (h : Onward S c c') {bytes : Bytes} (hmade : c.Made S bytes) :
    c'.Made S bytes := by
  obtain ⟨i, s, n, data, hs, hn, hbytes⟩ := hmade
  obtain ⟨s', hs', hfeeds⟩ := h i s hs
  obtain ⟨more, hmore⟩ := hfeeds.grows.requests.2
  have hrequests : s.threads.requests ++ more = s'.threads.requests := hmore
  refine ⟨i, s', n, data, hs', ?_, hbytes⟩
  rw [← hrequests, List.getElem?_append_left (List.getElem?_eq_some_iff.mp hn).1]
  exact hn

/-- Different requests are packed differently. -/
lemma Fits.packed_inj (h : c.Fits S) (hr : c.replicas j = some r) {data data' : RedisCommitData}
    (hk : r.threads.requests[k]? = some data) (hs : c.replicas i = some s)
    (hn : s.threads.requests[n]? = some data') (heq : packed S j k data = packed S i n data') :
    j = i ∧ k = n := by
  have hunpack := h.unpack j r hr data (List.mem_of_getElem? hk) (UInt32.ofNat k)
  have hunpack' := h.unpack i s hs data' (List.mem_of_getElem? hn) (UInt32.ofNat n)
  rw [Codec.RoundTrips, show S.codecs.commit.pack _ = packed S j k data from rfl, heq] at hunpack
  have hsame := Except.ok.inj (hunpack.symm.trans hunpack')
  simp only [RaftCommit.mk.injEq] at hsame
  obtain ⟨hid, hnumber, -⟩ := hsame
  have hj := h.ids j r hr
  have hi := h.ids i s hs
  have hidmod := ofNat_eq_iff.mp hid
  obtain rfl : j = i := by omega
  obtain rfl := Option.some.inj (hr.symm.trans hs)
  have hroom := h.requests j r hr
  have hklt := (List.getElem?_eq_some_iff.mp hk).1
  have hnlt := (List.getElem?_eq_some_iff.mp hn).1
  have hmod := ofNat_eq_iff.mp hnumber
  exact ⟨rfl, by omega⟩

/-- **The invariant**: whatever holds a request is the place where it is. -/
structure Placed (S : ServiceConf) (ω : Places) (delivered : List Nat) (c : Service) : Prop where
  nodes : ∀ i s, c.replicas i = some s → ω.Node i s.proc.node.raft
  waits : ∀ i s, c.replicas i = some s → ω.Waits i s.threads
  batches : ∀ m ∈ c.net, m.Stems ω.Logged
  wire : ∀ k m, c.net[k]? = some m → k ∉ delivered → ω.Sends (Place.wire k) m
  made : ∀ bytes p, ω bytes = some p → c.Made S bytes

namespace Placed

lemma later (h : c.Placed S ω delivered) (hsub : delivered ⊆ delivered') :
    c.Placed S ω delivered' :=
  { h with wire := fun k m hm hk => h.wire k m hm fun hmem => hk (hsub hmem) }

/-- **What replica `i` does** moves the requests that are with it, or in a message that was
delivered. -/
lemma put (h : c.Placed S ω delivered) (honward : Onward S c (c.put i s' sent))
    (hsub : delivered ⊆ delivered')
    (hkeep : ∀ x q, ω x = some q → ¬ q.Freed delivered' i → ω' x = some q)
    (hnode : ω'.Node i s'.proc.node.raft) (hwaits : ω'.Waits i s'.threads)
    (hbatches : ∀ m ∈ sent, m.Stems ω'.Logged)
    (hwire : ∀ k m, sent[k]? = some m → ω'.Sends (Place.wire (c.net.length + k)) m)
    (hmade : ∀ x q, ω' x = some q → c.Made S x ∨ (c.put i s' sent).Made S x) :
    (c.put i s' sent).Placed S ω' delivered' where
  nodes j r hr := by
    rcases replicas_put hr with ⟨rfl, rfl⟩ | ⟨hne, hr⟩
    · exact hnode
    · exact (h.nodes j r hr).mono (fun x t n hx => hkeep x _ hx fun hq => hq)
        fun x k hx => hkeep x _ hx hne
  waits j r hr := by
    rcases replicas_put hr with ⟨rfl, rfl⟩ | ⟨hne, hr⟩
    · exact hwaits
    · exact (h.waits j r hr).mono fun x k hx => hkeep x _ hx hne
  batches m hm := by
    rcases List.mem_append.mp hm with hm | hm
    · exact (h.batches m hm).mono fun e he => he.mono fun x hx => hkeep x _ hx fun hq => hq
    · exact hbatches m hm
  wire k m hm hk := by
    by_cases hold : k < c.net.length
    · have hm : c.net[k]? = some m := (List.getElem?_append_left hold).symm.trans hm
      exact (h.wire k m hm fun hmem => hk (hsub hmem)).mono fun x hx => hkeep x _ hx hk
    · have hm : sent[k - c.net.length]? = some m :=
        (List.getElem?_append_right (Nat.le_of_not_lt hold)).symm.trans hm
      have hnew := hwire _ m hm
      rwa [Nat.add_sub_cancel' (Nat.le_of_not_lt hold)] at hnew
  made x q hx := (hmade x q hx).elim honward.made fun hnew => hnew

/-- The replica sends nothing, and no request is moved. -/
lemma still (h : c.Placed S ω delivered) (honward : Onward S c (c.put i s' []))
    (hsub : delivered ⊆ delivered') (hnode : ω.Node i s'.proc.node.raft)
    (hwaits : ω.Waits i s'.threads) : (c.put i s' []).Placed S ω delivered' :=
  h.put honward hsub (fun x q hx _ => hx) hnode hwaits (fun m hm => by cases hm)
    (fun k m hm => by simp at hm) fun x q hx => Or.inl (h.made x q hx)

/-- The replica sends nothing, and moves one request. -/
lemma moved (h : c.Placed S ω delivered) (honward : Onward S c (c.put i s' []))
    (hsub : delivered ⊆ delivered') {bytes : Bytes} {q : Place}
    (hfrom : ∀ p, ω bytes = some p → p.Freed delivered' i)
    (hnode : (ω.move bytes q).Node i s'.proc.node.raft)
    (hwaits : (ω.move bytes q).Waits i s'.threads) (hmade : (c.put i s' []).Made S bytes) :
    (c.put i s' []).Placed S (ω.move bytes q) delivered' := by
  refine h.put honward hsub (fun x p hx hp => Places.move_of_ne hx fun heq => hp (hfrom p heq))
    hnode hwaits (fun m hm => by cases hm) (fun k m hm => by simp at hm) fun x p hx => ?_
  by_cases hsame : x = bytes
  · exact Or.inr (hsame ▸ hmade)
  · rw [Places.move, Function.update_of_ne hsame] at hx
    exact Or.inl (h.made x p hx)

/-- **The messages of a `Ready` are sent.** -/
lemma sendAll (h : c.Placed S ω delivered) (hs : c.replicas i = some s)
    (honward : Onward S c (c.put i s' sent)) (hsent : sent = s.proc.node.raft.msgs)
    (hnode : s'.proc.node.raft.Stems ω.Logged)
    (hleft : ∀ m ∈ s'.proc.node.raft.msgs, m.type ≠ MessageType.msgProp)
    (hthreads : s'.threads.raftQueue = s.threads.raftQueue ∧
      s'.threads.proposed = s.threads.proposed) :
    (c.put i s' sent).Placed S (fun x => (ω x).map (Place.post i c.net.length)) delivered := by
  have hmap : ∀ {x q}, ω x = some q →
      (ω x).map (Place.post i c.net.length) = some (q.post i c.net.length) := by
    intro x q hx
    rw [hx, Option.map_some]
  have hlogged : ∀ e, ω.Logged e →
      Places.Logged (fun x => (ω x).map (Place.post i c.net.length)) e :=
    fun e he => he.mono fun x hx => hmap hx
  refine h.put honward (List.Subset.refl _) (fun x q hx hq => ?_) ⟨hnode.mono hlogged, ?_⟩
    (((h.waits i s hs).same hthreads).mono fun x k hx => hmap hx)
    (fun m hm => ?_) (fun k m hm => ?_) fun x q hx => ?_
  · rw [hmap hx]
    cases q with
    | outbox j k =>
        have hne : ¬ j = i := hq
        rw [Place.post, if_neg hne]
    | _ => rfl
  · exact fun k m hm ht => absurd ht (hleft m (List.mem_of_getElem? hm))
  · rw [hsent] at hm
    exact ((h.nodes i s hs).stems.msgs m hm).mono hlogged
  · rw [hsent] at hm
    refine ((h.nodes i s hs).outbox k m hm).mono fun x hx => ?_
    rw [hmap hx, Place.post, if_pos rfl]
  · obtain ⟨p, hp, -⟩ := Option.map_eq_some_iff.mp hx
    exact Or.inl (h.made x p hp)

end Placed

/-- A request that was not made is nowhere. -/
lemma Placed.fresh (h : c.Placed S ω delivered) (honward : Onward S c c') (hfits : c'.Fits S)
    (hs : c.replicas i = some s) (hs' : c'.replicas i = some s') {data : RedisCommitData}
    (hn : s'.threads.requests[s.threads.requests.length]? = some data) :
    ω (packed S i s.threads.requests.length data) = none := by
  refine Option.eq_none_iff_forall_ne_some.mpr fun p hp => ?_
  obtain ⟨j, r, k, data', hr, hk, hbytes⟩ := h.made _ p hp
  obtain ⟨r', hr', hfeeds⟩ := honward j r hr
  obtain ⟨more, hmore⟩ := hfeeds.grows.requests.2
  have hrequests : r.threads.requests ++ more = r'.threads.requests := hmore
  have hlt := (List.getElem?_eq_some_iff.mp hk).1
  rw [← List.getElem?_append_left hlt, hrequests] at hk
  obtain ⟨rfl, rfl⟩ := hfits.packed_inj hs' hn hr' hk hbytes
  obtain rfl := Option.some.inj (hr.symm.trans hs)
  omega

/-- A session makes a request. -/
lemma Placed.request (h : c.Placed S ω delivered) (hu : c.Upheld S w) (hs : c.replicas i = some s)
    {data : RedisCommitData} {onStatus : UInt32 → Status → Process.Handler}
    (hproc : s'.proc = s.proc) (hthreads : s'.threads = s.threads.request data
      (s.threads.store.request S.codecs.commit data s.threads.requests.length) onStatus)
    (honward : Onward S c (c.put i s' [])) (hfits : (c.put i s' []).Fits S) :
    ∃ ω', (c.put i s' []).Placed S ω' delivered := by
  obtain ⟨-, hids, hnode⟩ := (hu.feeds i s hs).booked
  have hnext : s.threads.store.nextRequestId = UInt32.ofNat s.threads.requests.length := hids.next
  have hbytes : (s.threads.store.request S.codecs.commit data s.threads.requests.length).2.data =
      packed S i s.threads.requests.length data := by
    rw [RedisStore.request, hnext, show s.threads.store.nodeId = i from hnode]
    rfl
  have hput : (c.put i s' []).replicas i = some s' := Function.update_self ..
  have hn : s'.threads.requests[s.threads.requests.length]? = some data := by
    rw [hthreads]
    exact List.getElem?_concat_length
  have hfresh := h.fresh honward hfits hs hput hn
  rw [← hbytes] at hfresh
  refine ⟨_, h.moved (q := Place.queue i (s.threads.proposed.length + s.threads.raftQueue.length))
    honward (List.Subset.refl _) (fun p hp => ?_) ?_ ?_ ⟨i, s', _, data, hput, hn, hbytes⟩⟩
  · rw [hfresh] at hp
    cases hp
  · rw [hproc]
    refine (h.nodes i s hs).mono (fun x t n hx => Places.move_of_ne hx ?_)
      fun x k hx => Places.move_of_ne hx ?_
    · rw [hfresh]
      exact fun heq => by cases heq
    · rw [hfresh]
      exact fun heq => by cases heq
  · rw [hthreads]
    exact (h.waits i s hs).request hfresh

/-- A proposal that the node of a replica is stepped with. -/
lemma Placed.proposal {n : RawNode} {m : Message} {status : Status} {bytes : Bytes} {p : Place}
    {node : RawNode} (h : ω.Node i n.raft) (htype : m.type = MessageType.msgProp)
    (hterm : m.term = 0) (hentries : m.entries = [{ data := bytes }]) (hbytes : ω bytes = some p)
    (hlogged : ∀ t n, p ≠ Place.logged t n) (houtbox : ∀ k, p ≠ Place.outbox i k)
    (hstep : n.stepRaft m = Except.ok (node, status)) : ∃ q, (ω.move bytes q).Node i node.raft := by
  obtain ⟨⟨r, _⟩, hr, hstep⟩ := Outcome.bind_eq_ok.mp hstep
  cases Outcome.pure_eq_ok.mp hstep
  exact h.handled (Raft.step_handled htype hterm hr) htype hterm hentries hbytes hlogged houtbox

/-- **One action keeps it**, if no message is delivered a second time. -/
theorem Placed.act (h : c.Placed S ω delivered) (hu : c.Upheld S w) {a : Action} (ha : c.Steady a)
    (honce : ∀ k ∈ delivered, a ≠ Action.deliver k) (hact : c.act S a = Except.ok c')
    (hfits : c'.Fits S) : ∃ ω', c'.Placed S ω' (Courier.record delivered a) := by
  have honward := (hu.act ha hact).onward
  have hsub := Courier.subset_record delivered a
  rcases act_cases hact with rfl | ⟨i, s, s', sent, hs, hdoes, rfl⟩
  · exact ⟨ω, h.later hsub⟩
  have hn := h.nodes i s hs
  have hw := h.waits i s hs
  cases hdoes with
  | tick hq =>
      obtain ⟨node, hnode, hq⟩ := Outcome.bind_eq_ok.mp hq
      cases Outcome.pure_eq_ok.mp hq
      obtain ⟨r, hr, hnode⟩ := Outcome.bind_eq_ok.mp hnode
      cases Outcome.pure_eq_ok.mp hnode
      exact ⟨ω, h.still honward hsub (hn.deeds (m := { type := MessageType.msgHup }) (by simp)
        (fun ht => by cases ht) (Raft.Deeds.tick hr)) hw⟩
  | @deliver k m _ hm hto hq =>
      subst hto
      obtain ⟨⟨node, status⟩, hnode, hq⟩ := Outcome.bind_eq_ok.mp hq
      cases Outcome.pure_eq_ok.mp hq
      rw [RawNode.step] at hnode
      split at hnode
      · cases hnode
        exact ⟨ω, h.still honward hsub hn hw⟩
      split at hnode
      · have hmem := List.mem_of_getElem? hm
        by_cases htype : m.type = MessageType.msgProp
        · -- the message was not delivered before
          obtain ⟨hterm, bytes, hentries, hbytes⟩ :=
            h.wire k m hm (fun hk => honce k hk rfl) htype
          obtain ⟨q, hnode⟩ := Placed.proposal hn htype hterm hentries hbytes
            (fun t n heq => by cases heq) (fun k heq => by cases heq) hnode
          refine ⟨_, h.moved honward hsub (fun p hp => ?_) hnode (hw.mono fun x n hx => ?_)
            (honward.made (h.made _ _ hbytes))⟩
          · obtain rfl := Option.some.inj (hbytes.symm.trans hp)
            exact List.mem_cons_self ..
          · refine Places.move_of_ne hx ?_
            rw [hbytes]
            exact fun heq => by cases heq
        · obtain ⟨⟨r, _⟩, hr, hnode⟩ := Outcome.bind_eq_ok.mp hnode
          cases Outcome.pure_eq_ok.mp hnode
          exact ⟨ω, h.still honward hsub (hn.deeds htype (h.batches m hmem) (Raft.Deeds.step
            ((hu.follows.net m hmem).stamped hu.follows.inv) hr)) hw⟩
      · cases hnode
        exact ⟨ω, h.still honward hsub hn hw⟩
  | propose hq =>
      rw [Replica.propose] at hq
      split at hq
      · cases Outcome.pure_eq_ok.mp hq
        exact ⟨ω, h.still honward hsub hn hw⟩
      rename_i x queue hqueue
      obtain ⟨⟨node, status⟩, hnode, hq⟩ := Outcome.bind_eq_ok.mp hq
      obtain ⟨threads, hthreads, hq⟩ := Outcome.bind_eq_ok.mp hq
      cases Outcome.pure_eq_ok.mp hq
      rw [Process.act, hqueue] at hthreads
      cases Outcome.pure_eq_ok.mp hthreads
      have hbytes := hw 0 x (by rw [hqueue]; rfl)
      obtain ⟨q, hnode⟩ := Placed.proposal hn rfl rfl rfl hbytes (fun t n heq => by cases heq)
        (fun k heq => by cases heq) hnode
      refine ⟨_, h.moved honward hsub (fun p hp => ?_) hnode (hw.propose hqueue q rfl rfl)
        (honward.made (h.made _ _ hbytes))⟩
      obtain rfl := Option.some.inj (hbytes.symm.trans hp)
      rfl
  | handleReady hq =>
      obtain ⟨-, -, hcases⟩ := (hu.replicas i s hs).handleReady hu.follows.inv
        (hu.follows.nodes i _ (nodes_cluster hs)) (ha s hs) hq
      obtain ⟨proc, -, hq⟩ := Outcome.bind_eq_ok.mp hq
      obtain ⟨threads, hpublish, hq⟩ := Outcome.bind_eq_ok.mp hq
      simp only [Outcome.pure_eq_ok, Prod.mk.injEq] at hq
      obtain ⟨rfl, rfl⟩ := hq
      have hthreads := Replica.publish_frame hpublish
      rcases hcases with ⟨hsame, hnil⟩ | hpull
      · rw [hnil] at honward ⊢
        exact ⟨ω, h.still honward hsub (by rw [hsame]; exact hn) (hw.same hthreads)⟩
      · obtain ⟨hstems, hsent, hleft⟩ := pullReady_stems ω.logged_empty hpull hn.stems
        exact ⟨_, h.sendAll hs honward hsent hstems hleft hthreads⟩
  | set hq | del hq =>
      obtain ⟨threads, hthreads, hq⟩ := Outcome.bind_eq_ok.mp hq
      cases Outcome.pure_eq_ok.mp hq
      cases Outcome.pure_eq_ok.mp hthreads
      exact h.request hu hs rfl rfl honward hfits
  | runStore hq =>
      obtain ⟨threads, hthreads, hq⟩ := Outcome.bind_eq_ok.mp hq
      cases Outcome.pure_eq_ok.mp hq
      exact ⟨ω, h.still honward hsub hn (hw.same (Process.runStore_frame hthreads))⟩

/-- At the start there is no request. -/
lemma Started.placed (h : Started S c) : c.Placed S (fun _ => none) [] where
  nodes i s hs := by
    obtain ⟨hmsgs, hlog⟩ := h.blank hs
    refine ⟨⟨fun e he ht => Or.inl (hlog e he ht), ?_⟩, ?_⟩
    · rw [hmsgs]
      exact fun m hm => by cases hm
    · rw [hmsgs]
      exact fun k m hm => by simp at hm
  waits i s hs := by
    rw [(h.2 i s hs).1]
    exact fun k x hx => by simp [Process.start] at hx
  batches m hm := by
    rw [h.1] at hm
    cases hm
  wire k m hm := by
    rw [h.1] at hm
    simp at hm
  made bytes p hp := by cases hp

/-- **It holds in every run** in which no message is delivered twice. -/
lemma Placed.run {d₀ d : Courier} (h : d₀.service.Placed S ω d₀.delivered)
    (hu : d₀.service.Upheld S w) (hrun : RunOf (Courier.act S) Courier.Once d₀ d)
    (hfits : d.service.Fits S) : ∃ ω', d.service.Placed S ω' d.delivered := by
  induction hrun with
  | refl => exact ⟨ω, h⟩
  | step a hrun ha hact ih =>
      obtain ⟨⟨w', -, hu'⟩, -⟩ := hu.run (Courier.run_service hrun)
      obtain ⟨c', hc', hact⟩ := Outcome.bind_eq_ok.mp hact
      cases Outcome.pure_eq_ok.mp hact
      obtain ⟨ω', h'⟩ := ih (hfits.earlier (hu'.act ha.1 hc').onward)
      exact h'.act hu' ha.1 ha.2 hc' hfits

/-- **No store runs a request twice**: entries with the same data are at the same place of the
log. -/
lemma Placed.ran_nodup (h : c.Placed S ω delivered) (hu : c.Upheld S w)
    (hs : c.replicas i = some s) : (s.ran.map Entry.data).Nodup := by
  have hsim := hu.follows.nodes i _ (nodes_cluster hs)
  obtain ⟨hsublist, hcommands⟩ := hu.ran_sublist hs
  have hordered : s.ran.Pairwise fun e e' => e.index < e'.index :=
    (Numbered.pairwise hsim.uncompacted.numbered).sublist hsublist
  have hplace : ∀ e ∈ s.ran, ω e.data = some (Place.logged e.term e.index) := by
    intro e he
    obtain ⟨htype, hdata⟩ := hcommands e he
    have hheld := logical_subset s.proc.log (hsublist.subset he)
    exact ((h.nodes i s hs).stems.log e hheld htype).resolve_left hdata
  refine List.pairwise_map.mpr (hordered.imp_of_mem fun {e e'} he he' hlt hsame => ?_)
  have hboth := hplace e he
  rw [hsame, hplace e' he', Option.some.injEq, Place.logged.injEq] at hboth
  omega

/-- What was acknowledged was run. -/
lemma Placed.acknowledged_once (h : c.Placed S ω delivered) (hu : c.Upheld S w)
    (hsourced : c.Sourced) (hfits : c.Fits S) (hs : c.replicas i = some s)
    (hack : (n, Status.ok) ∈ s.threads.invoked) {data : RedisCommitData}
    (hn : s.threads.requests[n]? = some data)
    (hset : data.type = RedisCommitData.kCommitSet) :
    (s.ran.map Entry.data).count (packed S i n data) = 1 := by
  obtain ⟨e, he, hdata⟩ := hu.acknowledged hsourced hfits hs hack hn hset
  exact List.count_eq_one_of_mem (h.ran_nodup hu hs) (hdata ▸ List.mem_map_of_mem he)

/-- **No store runs a request twice**, in a steady run in which no replica is started again, no message
is delivered twice, and whose requests fit; and an acknowledged `set` was run exactly once. -/
theorem ran_once {d : Courier} (hstart : Started S c₀)
    (hrun : RunOf (Courier.act S) Courier.Once { service := c₀ } d) (hfits : d.service.Fits S)
    (hs : d.service.replicas i = some s) :
    (s.ran.map Entry.data).Nodup ∧ ∀ n data, (n, Status.ok) ∈ s.threads.invoked →
      s.threads.requests[n]? = some data → data.type = RedisCommitData.kCommitSet →
      (s.ran.map Entry.data).count (packed S i n data) = 1 := by
  obtain ⟨ω, hplaced⟩ := hstart.placed.run hstart.upheld hrun hfits
  have hsteady := Courier.run_service hrun
  obtain ⟨⟨w, -, hu⟩, -⟩ := hstart.upheld.run hsteady
  refine ⟨hplaced.ran_nodup hu hs, fun n data hack hn hset => ?_⟩
  have hsourced := hstart.sourced.run hstart.upheld hsteady
  exact hplaced.acknowledged_once hu hsourced hfits hs hack hn hset

/-- Replica 2 has run a `set` of replica 1 and one of its own, which was forwarded to the leader. -/
theorem ran_once_three : ∃ (d : Courier) (s : Replica),
    RunOf (Courier.act ThreeReplicas.conf) Courier.Once { service := ThreeReplicas.start } d ∧
    d.service.replicas 2 = some s ∧ s.ran.length = 2 ∧ (s.ran.map Entry.data).Nodup ∧
    (s.ran.map Entry.data).count
      (packed ThreeReplicas.conf 2 0 ⟨RedisCommitData.kCommitSet, [[107], [119]]⟩) = 1 := by
  let exec := RunOf.exec (Courier.act ThreeReplicas.conf) Courier.Once
  have hreached : (((ThreeReplicas.elect ++ ThreeReplicas.write ++ ThreeReplicas.follow ++
      ThreeReplicas.overwrite).foldlM exec { service := ThreeReplicas.start }).toOption.any fun d =>
        d.service.small && (d.service.replicas 2).any fun s =>
          s.ran.length = 2 ∧ (0, Status.ok) ∈ s.threads.invoked ∧
          s.threads.requests[0]? = some ⟨RedisCommitData.kCommitSet, [[107], [119]]⟩) = true := by
    decide +kernel
  obtain ⟨d, hd, hreached⟩ := (Option.any_eq_true ..).mp hreached
  obtain ⟨hsmall, hreached⟩ := Bool.and_eq_true_iff.mp hreached
  obtain ⟨s, hs, hreached⟩ := (Option.any_eq_true ..).mp hreached
  obtain ⟨hlen, hack, hn⟩ := of_decide_eq_true hreached
  have hrun : RunOf (Courier.act ThreeReplicas.conf) Courier.Once
      { service := ThreeReplicas.start } d := RunOf.of_exec (Outcome.eq_ok_of_toOption hd)
  obtain ⟨hnodup, honce⟩ := ran_once ThreeReplicas.started hrun
    (fits_three (Courier.run_service hrun) hsmall) hs
  exact ⟨d, s, hrun, hs, hlen, hnodup, honce 0 _ hack hn rfl⟩

-- the forwarded proposal is delivered twice, and replica 1 runs the command twice
example : ((ThreeReplicas.elect ++ ThreeReplicas.write ++ ThreeReplicas.follow ++
    [Action.set 2 [107] [119], Action.propose 2, Action.handleReady 2 [], Action.deliver 14,
      Action.deliver 14, Action.handleReady 1 [], Action.deliver 15, Action.deliver 16,
      Action.handleReady 2 [], Action.deliver 17, Action.deliver 18, Action.handleReady 1 [],
      Action.runStore 1 [], Action.runStore 1 []]).foldlM (act ThreeReplicas.conf)
    ThreeReplicas.start).toOption.any (fun c => (c.replicas 1).any fun s =>
      (s.ran.map Entry.data).count
        (packed ThreeReplicas.conf 2 0 ⟨RedisCommitData.kCommitSet, [[107], [119]]⟩) = 2) = true := by
  decide +kernel

end Service

end RaftKv
