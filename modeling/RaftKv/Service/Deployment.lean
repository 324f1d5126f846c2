import RaftKv.Service.Once
import RaftKv.Transport.Transport

/-!
# The service over its transport

A message of a replica is passed to its transport, waits there, is given to the connection to its
addressee, and is taken by the raft thread of the replica at the other end.  Peers can be added at
any time, the messages of one call of `send` are handled one by one, and a raft thread takes the
messages of its connections in any interleaving.  No replica is started again, and a run ends where
the memory of a pending write would be read that was given back.

* `Deployment` — the replicas, and the transport of each.
* `Deployment.At`, `Deployment.Tracked` — **the invariant**: each message that is waiting somewhere
  is one that was sent and not delivered.
* `Deployment.runs_service` — **a run of the deployment is a run of the service** in which no
  message is delivered twice.
* `Deployment.consistent_history` — **what the clients can rely on**: one sequence of commands,
  nothing run twice, nothing invented.
-/

namespace RaftKv

open Replication RaftLog

structure Deployment where
  /-- Its `net` is the history of the messages that were passed to the transports. -/
  service : Service
  transports : Nat → Transport
  /-- How many messages of connection `n` from `i` to `j` the raft thread of `j` has taken. -/
  processed : Nat × Nat × Nat → Nat

namespace Deployment

inductive Action where
  /-- What the replicas do; a delivery is a call of `process`. -/
  | work (a : Service.Action)
  /-- `main` does this, and `publish_entries`. -/
  | addPeer (i j : Nat)
  | timer (i j : Nat)
  /-- The transport of replica `i` comes to the next message. -/
  | send (i : Nat)
  | link (i j : Nat) (a : LinkAction)
  /-- The raft thread of replica `j` takes the next message of a connection. -/
  | process (i j n : Nat)
  deriving DecidableEq, Repr

/-- The next message that the transport of a replica comes to. -/
def next (d : Deployment) (i : Nat) : Option Message :=
  (d.service.replicas i).bind fun s => s.proc.sentMessages[(d.transports i).sent.length]?

/-- The next message of a connection, if it has arrived. -/
def arrived (d : Deployment) (i j n : Nat) : Option Message :=
  ((d.transports i).peers.lookup j).bind fun l =>
    l.connections[n]?.bind fun c => c.server.received[d.processed (i, j, n)]?

def onTransport (codec : Codec Message) (d : Deployment) (i : Nat) (a : Transport.Action) :
    Outcome Deployment := do
  let t ← (d.transports i).act codec a
  return { d with transports := Function.update d.transports i t }

def act (codec : Codec Message) (S : ServiceConf) (d : Deployment) : Action → Outcome Deployment
  | Action.work (Service.Action.deliver _) => pure d
  | Action.work a => do
      let service ← d.service.act S a
      return { d with service := service }
  | Action.addPeer i j => d.onTransport codec i (Transport.Action.addPeer j)
  | Action.timer i j => d.onTransport codec i (Transport.Action.timer j)
  | Action.send i =>
      match d.next i with
      | none => pure d
      | some m => d.onTransport codec i (Transport.Action.send [m])
  | Action.link i j a => d.onTransport codec i (Transport.Action.link j a)
  | Action.process i j n =>
      match d.arrived i j n with
      | none => pure d
      | some m => do
          let service ← d.service.onReplica j (Service.quiet (Replica.step m))
          return { d with
            service := service
            processed := Function.update d.processed (i, j, n) (d.processed (i, j, n) + 1) }

/-- The condition of the results: that of the service, and messages can be packed. -/
def Steady (codec : Codec Message) (d : Deployment) : Action → Prop
  | Action.work a => d.service.Steady a
  | Action.send i => ∀ m ∈ d.next i, Transport.Packs codec m
  | Action.process i j n =>
      ∀ m ∈ d.arrived i j n, ∀ s ∈ d.service.replicas j, CleanFor s.proc.node.raft m
  | _ => True

instance (codec : Codec Message) (d : Deployment) : (a : Action) → Decidable (d.Steady codec a)
  | Action.work _ => inferInstanceAs (Decidable (Service.Steady ..))
  | Action.send _ => inferInstanceAs (Decidable (∀ _ ∈ _, _))
  | Action.process .. => inferInstanceAs (Decidable (∀ _ ∈ _, ∀ _ ∈ _, _))
  | Action.addPeer .. | Action.timer .. | Action.link .. => inferInstanceAs (Decidable True)

/-- Nothing has been sent. -/
def start (c : Service) : Deployment where
  service := c
  transports _ := {}
  processed _ := 0

/-! ## Where the messages are -/

/-- Where a message can be that was sent and not delivered. -/
inductive Spot where
  /-- The `g`-th message that replica `i` has sent, which its transport has not come to. -/
  | waiting (i g : Nat)
  /-- The `q`-th message of connection `n` from `i` to `j`. -/
  | given (i j n q : Nat)

/-- A message is there. -/
def At (codec : Codec Message) (d : Deployment) : Spot → Message → Prop
  | Spot.waiting i g, m => (d.transports i).sent.length ≤ g ∧
      ∃ s, d.service.replicas i = some s ∧ s.proc.sentMessages[g]? = some m
  | Spot.given i j n q, m =>
      d.processed (i, j, n) ≤ q ∧ (d.transports i).Given codec j n q m

/-- **The invariant**: what is at a spot is a message that was sent and not delivered, and at no
other spot. -/
structure Tracked (codec : Codec Message) (spots : Nat → Option Spot) (d : Deployment)
    (delivered : List Nat) : Prop where
  sound : ∀ i, (d.transports i).Sound codec
  addressed : ∀ i j n q m, (d.transports i).Given codec j n q m → m.toId = j
  found : ∀ p m, d.At codec p m → ∃ k, d.service.net[k]? = some m ∧ spots k = some p
  gone : ∀ k ∈ delivered, k < d.service.net.length ∧ spots k = none

/-- Where the messages are once replica `i`, which had sent `g` of the `n` messages, sends more. -/
def passed (spots : Nat → Option Spot) (i g n k : Nat) : Option Spot :=
  if k < n then spots k else some (Spot.waiting i (g + (k - n)))

section Steps

variable {codec : Codec Message} {S : ServiceConf} {d d' : Deployment} {c : Service}
  {w : World Nat Entry} {spots : Nat → Option Spot} {delivered : List Nat} {i j n g : Nat}
  {m : Message} {s s' : Replica} {sent : List Message}

/-- **What a replica has sent** are the messages that it has passed to its transport. -/
lemma sentMessages_does (hu : c.Upheld S w) {a : Service.Action} (ha : c.Steady a)
    (hs : c.replicas i = some s) (hdoes : Service.Does S c i s a s' sent) :
    s'.proc.sentMessages = s.proc.sentMessages ++ sent := by
  cases hdoes with
  | tick hq =>
      obtain ⟨node, -, hq⟩ := Outcome.bind_eq_ok.mp hq
      cases Outcome.pure_eq_ok.mp hq
      exact (List.append_nil _).symm
  | deliver hm hto hq =>
      obtain ⟨⟨node, status⟩, -, hq⟩ := Outcome.bind_eq_ok.mp hq
      cases Outcome.pure_eq_ok.mp hq
      exact (List.append_nil _).symm
  | propose hq =>
      rw [Replica.propose] at hq
      split at hq
      · cases Outcome.pure_eq_ok.mp hq
        exact (List.append_nil _).symm
      obtain ⟨⟨node, status⟩, -, hq⟩ := Outcome.bind_eq_ok.mp hq
      obtain ⟨threads, -, hq⟩ := Outcome.bind_eq_ok.mp hq
      cases Outcome.pure_eq_ok.mp hq
      exact (List.append_nil _).symm
  | handleReady hq =>
      obtain ⟨proc, hround, hq⟩ := Outcome.bind_eq_ok.mp hq
      obtain ⟨threads, -, hq⟩ := Outcome.bind_eq_ok.mp hq
      simp only [Outcome.pure_eq_ok, Prod.mk.injEq] at hq
      obtain ⟨rfl, rfl⟩ := hq
      rcases RaftNode.handleReady_pullReady (C := S.clusterConf) (S.site_confChange i)
        hu.follows.inv (hu.follows.nodes i _ (Service.nodes_cluster hs))
        (hu.replicas i s hs).paced (ha s hs) hround with rfl | ⟨sent, es, -, hsent, -⟩
      · rw [List.drop_length, List.append_nil]
      · rw [hsent, List.drop_left]
  | set hq | del hq | runStore hq =>
      obtain ⟨threads, -, hq⟩ := Outcome.bind_eq_ok.mp hq
      cases Outcome.pure_eq_ok.mp hq
      exact (List.append_nil _).symm

namespace Tracked

lemma sound_update (h : d.Tracked codec spots delivered) {t : Transport} (ht : t.Sound codec) :
    ∀ j, (Function.update d.transports i t j).Sound codec := by
  intro j
  by_cases hj : j = i
  · subst hj
    rw [Function.update_self]
    exact ht
  · rw [Function.update_of_ne hj]
    exact h.sound j

/-- A message that leaves its spot leaves the others where they are. -/
lemma keep (h : d.Tracked codec spots delivered) {p q : Spot} {k : Nat} {o : Option Spot}
    (hk : spots k = some p) (hat : d.At codec q m) (hne : q ≠ p) :
    ∃ k', d.service.net[k']? = some m ∧ Function.update spots k o k' = some q := by
  obtain ⟨k', hnet, hk'⟩ := h.found q m hat
  refine ⟨k', hnet, ?_⟩
  rw [Function.update_of_ne]
  · exact hk'
  · rintro rfl
    exact hne (Option.some.inj (hk'.symm.trans hk))

/-- What was delivered has not been at the spot. -/
lemma keep_gone (h : d.Tracked codec spots delivered) {p : Spot} {k : Nat}
    (hk : spots k = some p) (o : Option Spot) : ∀ k' ∈ delivered,
      k' ≠ k ∧ k' < d.service.net.length ∧ Function.update spots k o k' = none := by
  intro k' hk'
  obtain ⟨hlt, hnone⟩ := h.gone k' hk'
  have hne : k' ≠ k := by
    rintro rfl
    rw [hk] at hnone
    cases hnone
  exact ⟨hne, hlt, (Function.update_of_ne hne ..).trans hnone⟩

/-- A step of a transport that sends no message. -/
lemma quiet (h : d.Tracked codec spots delivered) {a : Transport.Action}
    (ha : ∀ msgs, a ≠ Transport.Action.send msgs)
    (hact : d.onTransport codec i a = Except.ok d') :
    d'.Tracked codec spots delivered ∧ d'.service = d.service := by
  obtain ⟨t, ht, hact⟩ := Outcome.bind_eq_ok.mp hact
  cases Outcome.pure_eq_ok.mp hact
  have hpacked : (d.transports i).Packed codec a := by
    cases a with
    | send msgs => exact absurd rfl (ha msgs)
    | _ => trivial
  obtain ⟨hsent, hgiven⟩ := Transport.act_given (h.sound i) ha ht
  have hsame : ∀ j, (Function.update d.transports i t j).sent = (d.transports j).sent ∧
      ∀ id n q x, (Function.update d.transports i t j).Given codec id n q x →
        (d.transports j).Given codec id n q x := by
    intro j
    by_cases hj : j = i
    · subst hj
      rw [Function.update_self]
      exact ⟨hsent, hgiven⟩
    · rw [Function.update_of_ne hj]
      exact ⟨rfl, fun _ _ _ _ hx => hx⟩
  refine ⟨⟨h.sound_update ((h.sound i).act hpacked ht), fun j id n q m hm => ?_, ?_, h.gone⟩, rfl⟩
  · exact h.addressed j id n q m ((hsame j).2 id n q m hm)
  · intro p m hat
    cases p with
    | waiting j g =>
        obtain ⟨hle, hs⟩ := hat
        have hle : (Function.update d.transports i t j).sent.length ≤ g := hle
        rw [(hsame j).1] at hle
        exact h.found (Spot.waiting j g) m ⟨hle, hs⟩
    | given j id n q =>
        exact h.found (Spot.given j id n q) m ⟨hat.1, (hsame j).2 id n q m hat.2⟩

/-- **A message that the transport comes to** is given to a connection, or dropped. -/
lemma send (h : d.Tracked codec spots delivered) (hnext : d.next i = some m)
    (hm : Transport.Packs codec m)
    (hact : d.onTransport codec i (Transport.Action.send [m]) = Except.ok d') :
    (∃ spots', d'.Tracked codec spots' delivered) ∧ d'.service = d.service := by
  obtain ⟨t, ht, hact⟩ := Outcome.bind_eq_ok.mp hact
  cases Outcome.pure_eq_ok.mp hact
  obtain ⟨s, hs, hsends⟩ := Option.bind_eq_some_iff.mp hnext
  obtain ⟨hsent, n₀, q₀, hgiven⟩ := Transport.send_given hm ht
  have hwaits : d.At codec (Spot.waiting i (d.transports i).sent.length) m :=
    ⟨Nat.le_refl _, s, hs, hsends⟩
  obtain ⟨k, hk, hspot⟩ := h.found _ m hwaits
  have hsame : ∀ j id n q x, (Function.update d.transports i t j).Given codec id n q x →
      (d.transports j).Given codec id n q x ∨ x = m ∧ j = i ∧ id = m.toId ∧ n = n₀ ∧ q = q₀ := by
    intro j id n q x hx
    by_cases hj : j = i
    · subst hj
      rw [Function.update_self] at hx
      rcases hgiven id n q x hx with hold | ⟨hxm, hid, hn, hq⟩
      · exact Or.inl hold
      · exact Or.inr ⟨hxm, rfl, hid, hn, hq⟩
    · rw [Function.update_of_ne hj] at hx
      exact Or.inl hx
  have hpacked : (d.transports i).Packed codec (Transport.Action.send [m]) :=
    List.forall_mem_singleton.mpr hm
  refine ⟨⟨Function.update spots k (some (Spot.given i m.toId n₀ q₀)),
    h.sound_update ((h.sound i).act hpacked ht), fun j id n q x hx => ?_, fun p x hat => ?_,
    fun k' hk' => (h.keep_gone hspot _ k' hk').2⟩, rfl⟩
  · rcases hsame j id n q x hx with hold | ⟨rfl, -, hid, -, -⟩
    · exact h.addressed j id n q x hold
    · exact hid.symm
  · cases p with
    | waiting j g =>
        obtain ⟨hle, r, hr, hg⟩ := hat
        have hle : (Function.update d.transports i t j).sent.length ≤ g := hle
        by_cases hj : j = i
        · subst hj
          rw [Function.update_self, hsent, List.length_append, List.length_singleton] at hle
          refine h.keep hspot ⟨by omega, r, hr, hg⟩ fun heq => ?_
          rw [Spot.waiting.injEq] at heq
          omega
        · rw [Function.update_of_ne hj] at hle
          refine h.keep hspot ⟨hle, r, hr, hg⟩ fun heq => hj ?_
          rw [Spot.waiting.injEq] at heq
          exact heq.1
    | given j id n q =>
        rcases hsame j id n q x hat.2 with hold | ⟨rfl, rfl, rfl, rfl, rfl⟩
        · exact h.keep hspot ⟨hat.1, hold⟩ fun heq => by cases heq
        · exact ⟨k, hk, Function.update_self ..⟩

/-- **What a replica sends** waits for its transport. -/
lemma work (h : d.Tracked codec spots delivered) (hu : d.service.Upheld S w) {a : Service.Action}
    (ha : d.service.Steady a) (hact : d.service.act S a = Except.ok c) :
    ∃ spots', Tracked codec spots' { d with service := c } delivered := by
  rcases Service.act_cases hact with rfl | ⟨i, s, s', sent, hs, hdoes, rfl⟩
  · exact ⟨spots, h⟩
  have hsends := sentMessages_does hu ha hs hdoes
  have hkeep : ∀ k < d.service.net.length,
      passed spots i s.proc.sentMessages.length d.service.net.length k = spots k :=
    fun k hk => if_pos hk
  have hold : ∀ p x, d.At codec p x → ∃ k, (d.service.put i s' sent).net[k]? = some x ∧
      passed spots i s.proc.sentMessages.length d.service.net.length k = some p := by
    intro p x hat
    obtain ⟨k, hk, hspot⟩ := h.found p x hat
    have hlt := (List.getElem?_eq_some_iff.mp hk).1
    exact ⟨k, (List.getElem?_append_left hlt).trans hk, (hkeep k hlt).trans hspot⟩
  refine ⟨passed spots i s.proc.sentMessages.length d.service.net.length, h.sound, h.addressed,
    fun p x hat => ?_, fun k hk => ?_⟩
  · cases p with
    | given j id n q => exact hold _ x hat
    | waiting j g =>
        obtain ⟨hle, r, hr, hg⟩ := hat
        rcases Service.replicas_put hr with ⟨rfl, rfl⟩ | ⟨-, hr⟩
        · by_cases hlt : g < s.proc.sentMessages.length
          · rw [hsends, List.getElem?_append_left hlt] at hg
            exact hold _ x ⟨hle, s, hs, hg⟩
          · rw [hsends, List.getElem?_append_right (by omega)] at hg
            refine ⟨d.service.net.length + (g - s.proc.sentMessages.length), ?_, ?_⟩
            · show (d.service.net ++ sent)[_]? = some x
              rw [List.getElem?_append_right (by omega), Nat.add_sub_cancel_left]
              exact hg
            · rw [passed, if_neg (by omega), Nat.add_sub_cancel_left, Nat.add_sub_of_le (by omega)]
        · exact hold _ x ⟨hle, r, hr, hg⟩
  · obtain ⟨hlt, hnone⟩ := h.gone k hk
    refine ⟨?_, (hkeep k hlt).trans hnone⟩
    show k < (d.service.net ++ sent).length
    rw [List.length_append]
    omega

/-- **A message that is processed** was sent, and was not delivered before. -/
lemma process (h : d.Tracked codec spots delivered) (hu : d.service.Upheld S w)
    (harrived : d.arrived i j n = some m)
    (hclean : ∀ s ∈ d.service.replicas j, CleanFor s.proc.node.raft m)
    (hact : d.service.onReplica j (Service.quiet (Replica.step m)) = Except.ok c) :
    ∃ k spots', k ∉ delivered ∧ d.service.Steady (Service.Action.deliver k) ∧
      d.service.act S (Service.Action.deliver k) = Except.ok c ∧
      Tracked codec spots' { d with
        service := c
        processed := Function.update d.processed (i, j, n) (d.processed (i, j, n) + 1) }
        (k :: delivered) := by
  obtain ⟨l, hl, harrived⟩ := Option.bind_eq_some_iff.mp harrived
  obtain ⟨conn, hconn, hm⟩ := Option.bind_eq_some_iff.mp harrived
  have hgiven : (d.transports i).Given codec j n (d.processed (i, j, n)) m :=
    ⟨l, hl, (h.sound i j l hl).1.given hconn hm⟩
  obtain ⟨k, hk, hspot⟩ := h.found (Spot.given i j n (d.processed (i, j, n))) m
    ⟨Nat.le_refl _, hgiven⟩
  have hto : m.toId = j := h.addressed i j n _ m hgiven
  have hsteady : d.service.Steady (Service.Action.deliver k) := by
    intro k' m' node hk' hm' hnode
    cases hk'
    obtain rfl : m = m' := Option.some.inj (hk.symm.trans hm')
    obtain ⟨r, hr, rfl⟩ := Option.map_eq_some_iff.mp hnode
    rw [hto] at hr
    exact hclean r hr
  have hdeliver : d.service.act S (Service.Action.deliver k) = Except.ok c := by
    rw [Service.act, hk]
    dsimp only
    rw [hto]
    exact hact
  -- nothing is sent
  have hsame : c.net = d.service.net ∧ ∀ i' r, c.replicas i' = some r →
      ∃ r₀, d.service.replicas i' = some r₀ ∧ r.proc.sentMessages = r₀.proc.sentMessages := by
    rcases Service.quiet_cases hact with rfl | ⟨s, s', hs, hq, rfl⟩
    · exact ⟨rfl, fun i' r hr => ⟨r, hr, rfl⟩⟩
    refine ⟨List.append_nil _, fun i' r hr => ?_⟩
    rcases Service.replicas_put hr with ⟨rfl, rfl⟩ | ⟨-, hr⟩
    · have hsends := sentMessages_does hu hsteady hs (Service.Does.deliver hk hto hq)
      exact ⟨s, hs, hsends.trans (List.append_nil _)⟩
    · exact ⟨r, hr, rfl⟩
  refine ⟨k, Function.update spots k none, fun hmem => (h.keep_gone hspot none k hmem).1 rfl,
    hsteady, hdeliver, h.sound, h.addressed, fun p x hat => ?_, fun k' hk' => ?_⟩
  · have hold : d.At codec p x ∧ p ≠ Spot.given i j n (d.processed (i, j, n)) := by
      cases p with
      | waiting i' g =>
          obtain ⟨hle, r, hr, hg⟩ := hat
          obtain ⟨r₀, hr₀, hsends⟩ := hsame.2 i' r hr
          exact ⟨⟨hle, r₀, hr₀, hsends ▸ hg⟩, fun heq => by cases heq⟩
      | given i' j' n' q =>
          obtain ⟨hle, hx⟩ := hat
          have hle : Function.update d.processed (i, j, n) (d.processed (i, j, n) + 1)
            (i', j', n') ≤ q := hle
          by_cases heq : (i', j', n') = (i, j, n)
          · rw [heq, Function.update_self] at hle
            simp only [Prod.mk.injEq] at heq
            obtain ⟨rfl, rfl, rfl⟩ := heq
            refine ⟨⟨Nat.le_of_succ_le hle, hx⟩, fun heq => ?_⟩
            rw [Spot.given.injEq] at heq
            omega
          · rw [Function.update_of_ne heq] at hle
            refine ⟨⟨hle, hx⟩, fun hspots => heq ?_⟩
            rw [Spot.given.injEq] at hspots
            rw [hspots.1, hspots.2.1, hspots.2.2.1]
    rw [hsame.1]
    exact h.keep hspot hold.1 hold.2
  · rw [hsame.1]
    rcases List.mem_cons.mp hk' with rfl | hk'
    · exact ⟨(List.getElem?_eq_some_iff.mp hk).1, Function.update_self ..⟩
    · exact (h.keep_gone hspot _ k' hk').2

end Tracked

/-! ## The simulation -/

/-- The deployment is a service, and its messages are those of the service. -/
structure Carried (codec : Codec Message) (S : ServiceConf) (d : Deployment) (e : Courier) :
    Prop where
  service : e.service = d.service
  upheld : ∃ w, d.service.Upheld S w
  tracked : ∃ spots, d.Tracked codec spots e.delivered

variable {e : Courier}

lemma Carried.work (h : Carried codec S d e) {a : Service.Action}
    (hact : d.service.act S a = Except.ok c) (ha : d.service.Steady a)
    (hnot : ∀ k, a ≠ Service.Action.deliver k) :
    ∃ e', RunOf (Courier.act S) Courier.Once e e' ∧ Carried codec S { d with service := c } e' := by
  obtain ⟨w, hu⟩ := h.upheld
  obtain ⟨spots, htracked⟩ := h.tracked
  obtain ⟨w', -, hu'⟩ := (hu.act ha hact).upheld
  have hrecord : Courier.record e.delivered a = e.delivered := by
    cases a with
    | deliver k => exact absurd rfl (hnot k)
    | _ => rfl
  have hstep : Courier.act S e a = Except.ok { service := c, delivered := e.delivered } := by
    rw [Courier.act, h.service, hact, hrecord]
    rfl
  exact ⟨_, (RunOf.refl e).step a ⟨h.service.symm ▸ ha, fun k _ => hnot k⟩ hstep, rfl, ⟨w', hu'⟩,
    htracked.work hu ha hact⟩

/-- **Each action of the deployment** is one of the service, or none. -/
theorem Carried.act (h : Carried codec S d e) {a : Action} (ha : d.Steady codec a)
    (hact : d.act codec S a = Except.ok d') :
    ∃ e', RunOf (Courier.act S) Courier.Once e e' ∧ Carried codec S d' e' := by
  obtain ⟨w, hu⟩ := h.upheld
  obtain ⟨spots, htracked⟩ := h.tracked
  have hquiet : ∀ {i : Nat} {b : Transport.Action}, (∀ msgs, b ≠ Transport.Action.send msgs) →
      d.onTransport codec i b = Except.ok d' →
      ∃ e', RunOf (Courier.act S) Courier.Once e e' ∧ Carried codec S d' e' := by
    intro i b hb hact
    obtain ⟨htracked', hservice⟩ := htracked.quiet hb hact
    exact ⟨e, RunOf.refl e, h.service.trans hservice.symm, ⟨w, hservice ▸ hu⟩, spots, htracked'⟩
  cases a with
  | work a =>
      cases a with
      | deliver k =>
          cases hact
          exact ⟨e, RunOf.refl e, h⟩
      | tick | propose | handleReady | set | del | runStore =>
          obtain ⟨c, hc, hact⟩ := Outcome.bind_eq_ok.mp hact
          cases Outcome.pure_eq_ok.mp hact
          exact h.work hc ha fun k hk => by cases hk
  | addPeer i j => exact hquiet (fun msgs hb => by cases hb) hact
  | timer i j => exact hquiet (fun msgs hb => by cases hb) hact
  | link i j b => exact hquiet (fun msgs hb => by cases hb) hact
  | send i =>
      rw [Deployment.act] at hact
      split at hact
      · cases Outcome.pure_eq_ok.mp hact
        exact ⟨e, RunOf.refl e, h⟩
      rename_i m hm
      obtain ⟨htracked', hservice⟩ := htracked.send hm (ha m hm) hact
      exact ⟨e, RunOf.refl e, h.service.trans hservice.symm, ⟨w, hservice ▸ hu⟩, htracked'⟩
  | process i j n =>
      rw [Deployment.act] at hact
      split at hact
      · cases Outcome.pure_eq_ok.mp hact
        exact ⟨e, RunOf.refl e, h⟩
      rename_i m hm
      obtain ⟨c, hc, hact⟩ := Outcome.bind_eq_ok.mp hact
      cases Outcome.pure_eq_ok.mp hact
      obtain ⟨k, spots', hnew, hsteady, hdeliver, htracked'⟩ := htracked.process hu hm (ha m hm) hc
      obtain ⟨w', -, hu'⟩ := (hu.act hsteady hdeliver).upheld
      have hstep : Courier.act S e (Service.Action.deliver k) =
          Except.ok { service := c, delivered := k :: e.delivered } := by
        rw [Courier.act, h.service, hdeliver]
        rfl
      refine ⟨_, (RunOf.refl e).step _ ⟨h.service.symm ▸ hsteady, fun k' hk' heq => ?_⟩ hstep, rfl,
        ⟨w', hu'⟩, spots', htracked'⟩
      cases heq
      exact hnew hk'

/-- At the start nothing has been sent. -/
lemma carried_start (h : Service.Started S c) :
    Carried codec S (start c) { service := c } := by
  have hnone : ∀ i j n q x, ¬ ((start c).transports i).Given codec j n q x := by
    rintro i j n q x ⟨l, hl, -⟩
    cases hl
  refine ⟨rfl, ⟨_, h.upheld⟩, fun _ => none, fun i id l hl => (by cases hl), fun i j n q x hx => ?_,
    fun p x hat => ?_, fun k hk => (by cases hk)⟩
  · exact absurd hx (hnone i j n q x)
  · cases p with
    | given i j n q => exact absurd hat.2 (hnone i j n q x)
    | waiting i g =>
        obtain ⟨-, s, hs, hg⟩ := hat
        obtain ⟨-, size, hboot⟩ := h.2 i s hs
        obtain ⟨storage, wal, snapDir, last, node, -, -, hproc⟩ := RaftNode.boot_eq_ok hboot
        rw [hproc] at hg
        cases hg

end Steps

end Deployment

/-! ## Three replicas with their transports -/

namespace WiredReplicas

open Deployment

def start : Deployment := Deployment.start ThreeReplicas.start

/-- Replica `i` connects to replica `j`, and sends the debug message of the timer. -/
def connect (i j : Nat) : List Deployment.Action :=
  [Action.addPeer i j, Action.link i j LinkAction.connected,
    Action.link i j (LinkAction.transmit 0 100), Action.link i j (LinkAction.written 0),
    Action.link i j (LinkAction.arrive 100)]

/-- A message is sent, and arrives in two portions. -/
def ship (i j : Nat) : List Deployment.Action :=
  [Action.send i, Action.link i j (LinkAction.transmit 0 5000),
    Action.link i j (LinkAction.written 0), Action.link i j (LinkAction.arrive 7),
    Action.link i j (LinkAction.arrive 5000), Action.process i j 0]

/-- A round of replica `i`, and its next two messages. -/
def talk (i j : Nat) : List Deployment.Action :=
  Action.work (Service.Action.handleReady i []) :: (ship i j ++ ship i j)

/-- Replica 1 is elected with the votes of replica 2. -/
def elect : List Deployment.Action :=
  connect 1 2 ++ connect 2 1 ++ [Action.work (Service.Action.handleReady 1 []),
    Action.work (Service.Action.handleReady 2 [])] ++
    List.replicate 10 (Action.work (Service.Action.tick 1)) ++
    talk 1 2 ++ talk 2 1 ++ talk 1 2 ++ talk 2 1 ++ talk 1 2 ++ talk 2 1

/-- A session of replica 2 asks for a `set`: the proposal goes to replica 1, which runs it. -/
def write : List Deployment.Action :=
  [Action.work (Service.Action.set 2 [107] [118]), Action.work (Service.Action.propose 2)] ++
    talk 1 2 ++ talk 2 1 ++ talk 1 2 ++ talk 2 1 ++ talk 1 2 ++
    [Action.work (Service.Action.runStore 1 [])]

/-- Replica 2 runs it, and the session has its answer. -/
def follow : List Deployment.Action :=
  talk 2 1 ++
    [Action.work (Service.Action.runStore 2 []), Action.work (Service.Action.runStore 2 [])]

end WiredReplicas

namespace Deployment

section Runs

variable {codec : Codec Message} {S : ServiceConf} {c₀ : Service} {d d₁ d₂ : Deployment} {i j : Nat}

lemma carried_of_run (hstart : Service.Started S c₀)
    (hrun : RunOf (act codec S) (Steady codec) (start c₀) d) :
    ∃ e, RunOf (Courier.act S) Courier.Once { service := c₀ } e ∧ Carried codec S d e :=
  RunOf.simulates (fun _ _ _ _ h ha hact => h.act ha hact) (carried_start hstart) hrun

/-- **A run of the deployment is a run of the service** in which no message is delivered twice. -/
theorem runs_service (hstart : Service.Started S c₀)
    (hrun : RunOf (act codec S) (Steady codec) (start c₀) d) :
    ∃ delivered, RunOf (Courier.act S) Courier.Once { service := c₀ }
      { service := d.service, delivered := delivered } := by
  obtain ⟨e, he, hcarried⟩ := carried_of_run hstart hrun
  exact ⟨e.delivered, hcarried.service ▸ he⟩

/-- Replica 1 is elected over the connections, and so it is in the service. -/
theorem runs_service_three : ∃ (d : Deployment) (delivered : List Nat),
    RunOf (act Transport.messageCodec ThreeReplicas.conf) (Steady Transport.messageCodec)
      WiredReplicas.start d ∧ d.service.cluster.Leads 1 2 ∧
    RunOf (Courier.act ThreeReplicas.conf) Courier.Once { service := ThreeReplicas.start }
      { service := d.service, delivered := delivered } := by
  let exec := RunOf.exec (act Transport.messageCodec ThreeReplicas.conf)
    (Steady Transport.messageCodec)
  have hreached : ((WiredReplicas.elect.foldlM exec WiredReplicas.start).toOption.any fun d =>
      (d.service.replicas 1).any fun s =>
        s.proc.node.raft.state = RaftState.leader ∧ s.proc.node.raft.term = 2) = true := by
    decide +kernel
  obtain ⟨d, hd, hreached⟩ := (Option.any_eq_true ..).mp hreached
  obtain ⟨s, hs, hleads⟩ := (Option.any_eq_true ..).mp hreached
  have hrun : RunOf (act Transport.messageCodec ThreeReplicas.conf)
      (Steady Transport.messageCodec) WiredReplicas.start d :=
    RunOf.of_exec (Outcome.eq_ok_of_toOption hd)
  obtain ⟨delivered, hcourier⟩ := runs_service ThreeReplicas.started hrun
  exact ⟨d, delivered, hrun, ⟨_, Service.nodes_cluster hs, of_decide_eq_true hleads⟩, hcourier⟩

/-- **What the clients can rely on.**  In every steady run of the deployment in which no replica is
started again, and whose requests fit: of what any two stores have run, at any two times, one is the
beginning of the other, and no store goes back; the content of a store is what these commands make
of the database it began with; no command is run twice, and each was asked for by a client; and an
acknowledged `set` was run exactly once. -/
theorem consistent_history (hstart : Service.Started S c₀)
    (h₁ : RunOf (act codec S) (Steady codec) (start c₀) d₁)
    (h₂ : RunOf (act codec S) (Steady codec) d₁ d₂) (hfits : d₂.service.Fits S) {a b : Replica}
    (ha : d₁.service.replicas i = some a) (hb : d₂.service.replicas j = some b) :
    (a.ran <+: b.ran ∨ b.ran <+: a.ran) ∧ (i = j → a.ran <+: b.ran) ∧
      b.threads.store.db = contentAfter S.codecs.commit S.db b.ran ∧
      (b.ran.map Entry.data).Nodup ∧ (∀ e ∈ b.ran, d₂.service.Made S e.data) ∧
      ∀ n data, (n, Status.ok) ∈ b.threads.invoked → b.threads.requests[n]? = some data →
        data.type = RedisCommitData.kCommitSet →
        (b.ran.map Entry.data).count (Service.packed S j n data) = 1 := by
  obtain ⟨e₁, he₁, hcarried₁⟩ := carried_of_run hstart h₁
  obtain ⟨e₂, he₂, hcarried₂⟩ := RunOf.simulates (R := Carried codec S)
    (fun _ _ _ _ h ha hact => h.act ha hact) hcarried₁ h₂
  have hrun₁ := hcarried₁.service ▸ Courier.run_service he₁
  have hrun₂ := hcarried₂.service ▸ hcarried₁.service ▸ Courier.run_service he₂
  obtain ⟨⟨w₁, -, hu₁⟩, -⟩ := hstart.upheld.run hrun₁
  obtain ⟨⟨w₂, hl, hu₂⟩, honward, -⟩ := hu₁.run hrun₂
  have hsourced := (hstart.sourced.run hstart.upheld hrun₁).run hu₁ hrun₂
  obtain ⟨ω, hplaced⟩ := hstart.placed.run hstart.upheld (he₁.trans he₂)
    (hcarried₂.service.symm ▸ hfits)
  rw [hcarried₂.service] at hplaced
  refine ⟨hu₁.comparable hl hu₂ ha hb, fun hij => ?_, hu₂.content hb, hplaced.ran_nodup hu₂ hb,
    fun e he => ?_, fun n data hack hn hset => ?_⟩
  · subst hij
    exact honward.ran_isPrefix hu₁ hl hu₂ ha hb
  · obtain ⟨k, r, n, data, hr, hn, hbytes, -⟩ := hsourced.ran_packed hu₂ hfits hb he
    exact ⟨k, r, n, data, hr, hn, hbytes⟩
  · exact hplaced.acknowledged_once hu₂ hsourced hfits hb hack hn hset

/-- Replica 1 has run the `set` that was asked for at replica 2, and then replica 2 has. -/
theorem consistent_history_three : ∃ (d₁ d₂ : Deployment) (a b : Replica),
    RunOf (act Transport.messageCodec ThreeReplicas.conf) (Steady Transport.messageCodec)
      WiredReplicas.start d₁ ∧
    RunOf (act Transport.messageCodec ThreeReplicas.conf) (Steady Transport.messageCodec) d₁ d₂ ∧
    d₁.service.replicas 1 = some a ∧ d₂.service.replicas 2 = some b ∧ a.ran.length = 1 ∧
    b.ran.length = 1 ∧ (a.ran <+: b.ran ∨ b.ran <+: a.ran) ∧
    (b.ran.map Entry.data).count (Service.packed ThreeReplicas.conf 2 0
      ⟨RedisCommitData.kCommitSet, [[107], [118]]⟩) = 1 := by
  let exec := RunOf.exec (act Transport.messageCodec ThreeReplicas.conf)
    (Steady Transport.messageCodec)
  have hreached : (((WiredReplicas.elect ++ WiredReplicas.write).foldlM exec
      WiredReplicas.start).toOption.any fun d₁ =>
        (WiredReplicas.follow.foldlM exec d₁).toOption.any fun d₂ =>
          d₂.service.small && ((d₁.service.replicas 1).any (fun a => a.ran.length = 1) &&
            (d₂.service.replicas 2).any fun b => b.ran.length = 1 ∧
              (0, Status.ok) ∈ b.threads.invoked ∧ b.threads.requests[0]? =
                some ⟨RedisCommitData.kCommitSet, [[107], [118]]⟩)) = true := by
    decide +kernel
  obtain ⟨d₁, hd₁, hreached⟩ := (Option.any_eq_true ..).mp hreached
  obtain ⟨d₂, hd₂, hreached⟩ := (Option.any_eq_true ..).mp hreached
  obtain ⟨hsmall, hreached⟩ := Bool.and_eq_true_iff.mp hreached
  obtain ⟨hreacheda, hreachedb⟩ := Bool.and_eq_true_iff.mp hreached
  obtain ⟨a, ha, hlena⟩ := (Option.any_eq_true ..).mp hreacheda
  obtain ⟨b, hb, hranb⟩ := (Option.any_eq_true ..).mp hreachedb
  obtain ⟨hlenb, hack, hn⟩ := of_decide_eq_true hranb
  have h₁ : RunOf (act Transport.messageCodec ThreeReplicas.conf)
      (Steady Transport.messageCodec) WiredReplicas.start d₁ :=
    RunOf.of_exec (Outcome.eq_ok_of_toOption hd₁)
  have h₂ : RunOf (act Transport.messageCodec ThreeReplicas.conf)
      (Steady Transport.messageCodec) d₁ d₂ := RunOf.of_exec (Outcome.eq_ok_of_toOption hd₂)
  obtain ⟨e, he, hcarried⟩ := carried_of_run ThreeReplicas.started (h₁.trans h₂)
  have hservice := hcarried.service ▸ Courier.run_service he
  obtain ⟨hcomparable, -, -, -, -, honce⟩ := consistent_history ThreeReplicas.started h₁ h₂
    (Service.fits_three hservice hsmall) ha hb
  exact ⟨d₁, d₂, a, b, h₁, h₂, ha, hb, of_decide_eq_true hlena, hlenb, hcomparable,
    honce 0 _ hack hn rfl⟩

end Runs

end Deployment

end RaftKv
