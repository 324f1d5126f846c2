import RaftKv.Replication.World

/-!
# What every run of the replication keeps

* `Inv` — the invariant.  Its two essential fields are `held` and `held_ballot`: what a node
  acknowledged in a term is still in its log, or in the log it voted with, unless it has since
  acknowledged a leader that did not have it.
* `Inv.election` — a term has at most one leader that a quorum voted for.
* `Good.matching` — logs that agree on index and term of an entry agree up to it.
* `Inv.completeness` — **what is certified is in the log of every later leader**.
* `Inv.committed_comparable` — **of two committed lists, one is a prefix of the other**.
-/

namespace Replication

variable {Id Ent : Type}

/-! ## Prefixes -/

lemma take_of_isPrefix {p q : List Ent} {k : Nat} (h : p <+: q) (hk : k ≤ p.length) :
    q.take k = p.take k := by
  obtain ⟨r, rfl⟩ := h
  exact List.take_append_of_le_length hk

lemma getElem?_of_isPrefix {p q : List Ent} {k : Nat} {e : Ent} (h : p <+: q)
    (hk : p[k]? = some e) : q[k]? = some e := by
  obtain ⟨r, rfl⟩ := h
  rw [List.getElem?_append_left (List.getElem?_eq_some_iff.mp hk).1, hk]

lemma getElem?_of_isPrefix_of_lt {p q : List Ent} {k : Nat} {e : Ent} (h : p <+: q)
    (hk : k < p.length) (hq : q[k]? = some e) : p[k]? = some e := by
  obtain ⟨r, rfl⟩ := h
  rwa [List.getElem?_append_left hk] at hq

/-! ## Logs whose entries stem from leaders -/

/-- Every entry of `ℓ` stems, with all that precedes it, from the log of its term's leader, and
terms do not decrease. -/
structure Good (S : Setting Id Ent) (w : World Id Ent) (ℓ : List Ent) : Prop where
  anchored : ∀ k e, ℓ[k]? = some e → ℓ.take (k + 1) <+: w.llog (S.termOf e) ∧
    (S.termOf e = S.term₀ ∨ w.lead (S.termOf e) ≠ none)
  sorted : ℓ.Pairwise fun a b => S.termOf a ≤ S.termOf b

theorem Good.of_isPrefix {S : Setting Id Ent} {w : World Id Ent} {p ℓ : List Ent}
    (h : Good S w ℓ) (hp : p <+: ℓ) : Good S w p where
  anchored k e hk := by
    have hlt := (List.getElem?_eq_some_iff.mp hk).1
    have := h.anchored k e (getElem?_of_isPrefix hp hk)
    rwa [take_of_isPrefix hp hlt] at this
  sorted := h.sorted.sublist hp.sublist

/-- **Log matching**: logs that hold entries of the same term at the same index agree up to it. -/
theorem Good.matching {S : Setting Id Ent} {w : World Id Ent} {ℓ₁ ℓ₂ : List Ent}
    (h₁ : Good S w ℓ₁) (h₂ : Good S w ℓ₂) {k : Nat} {e₁ e₂ : Ent}
    (hk₁ : ℓ₁[k]? = some e₁) (hk₂ : ℓ₂[k]? = some e₂) (hterm : S.termOf e₁ = S.termOf e₂) :
    ℓ₁.take (k + 1) = ℓ₂.take (k + 1) := by
  have p₁ := (h₁.anchored k e₁ hk₁).1
  have p₂ := (h₂.anchored k e₂ hk₂).1
  have l₁ := (List.getElem?_eq_some_iff.mp hk₁).1
  have l₂ := (List.getElem?_eq_some_iff.mp hk₂).1
  rw [← hterm] at p₂
  have hp := List.prefix_of_prefix_length_le p₁ p₂ (by simp; omega)
  exact hp.eq_of_length (by simp; omega)

/-- In a sorted log the last term bounds every term. -/
theorem Good.le_lastTerm {S : Setting Id Ent} {ℓ : List Ent}
    (h : ℓ.Pairwise fun a b => S.termOf a ≤ S.termOf b) {e : Ent} (he : e ∈ ℓ) :
    S.termOf e ≤ S.lastTerm ℓ := by
  obtain ⟨p, l, rfl⟩ : ∃ p l, ℓ = p ++ [l] := by
    rcases List.eq_nil_or_concat ℓ with rfl | ⟨p, l, rfl⟩
    · simp at he
    · exact ⟨p, l, by simp⟩
  rcases List.mem_append.mp he with hp | hl
  · have := (List.pairwise_append.mp h).2.2 e hp l (List.mem_singleton_self l)
    simpa [Setting.lastTerm] using this
  · simp only [List.mem_singleton] at hl
    simp [Setting.lastTerm, hl]

/-! ## The invariant -/

structure Inv (S : Setting Id Ent) (w : World Id Ent) : Prop where
  term_ge : ∀ i, S.term₀ ≤ w.term i
  ballot_term : ∀ {i t b}, w.ballot i t = some b → S.term₀ < t ∧ t ≤ w.term i
  ballot_cand : ∀ {i t b}, w.ballot i t = some b →
    ∃ ℓ, w.cand b.choice t = some ℓ ∧ S.UpToDate ℓ b.log
  ballot_sorted : ∀ {i t b}, w.ballot i t = some b →
    b.log.Pairwise fun a b => S.termOf a ≤ S.termOf b
  ballot_fresh : ∀ {i t b}, w.ballot i t = some b → w.lead t = none → b.fresh = true
  cand_term : ∀ {c t ℓ}, w.cand c t = some ℓ → S.term₀ < t ∧ t ≤ w.term c
  cand_good : ∀ {c t ℓ}, w.cand c t = some ℓ → Good S w ℓ ∧ ∀ e ∈ ℓ, S.termOf e < t
  lead_term : ∀ {t c}, w.lead t = some c → S.term₀ < t ∧ t ≤ w.term c
  lead_start : ∀ {t c}, w.lead t = some c → w.cand c t = some (w.start t)
  lead_votes : ∀ {t c}, w.lead t = some c →
    S.Quorum {j | ∃ b, w.ballot j t = some b ∧ b.choice = c ∧ b.fresh = true}
  start_prefix : ∀ {t}, w.lead t ≠ none → w.start t <+: w.llog t
  llog_own : ∀ {t}, w.lead t ≠ none → ∀ k e, (w.start t).length ≤ k →
    (w.llog t)[k]? = some e → S.termOf e = t
  llog_none : ∀ {t}, w.lead t = none → t ≠ S.term₀ → w.llog t = []
  llog_boot : w.llog S.term₀ = S.boot
  llog_good : ∀ t, Good S w (w.llog t)
  log_lead : ∀ {i}, w.lead (w.term i) = some i → w.log i = w.llog (w.term i)
  log_good : ∀ i, Good S w (w.log i)
  log_term : ∀ i, ∀ e ∈ w.log i, S.termOf e ≤ w.term i
  ack_term : ∀ {i t}, 0 < w.ack i t → t ≤ w.term i ∧ (t = S.term₀ ∨ w.lead t ≠ none)
  ack_le : ∀ i t, w.ack i t ≤ (w.llog t).length
  held : ∀ {i t k}, k ≤ w.ack i t → (w.llog t).take k <+: w.log i ∨
    ∃ s, t < s ∧ s ≤ w.term i ∧ 0 < w.ack i s ∧ w.lead s ≠ none ∧
      ¬ (w.llog t).take k <+: w.start s
  held_ballot : ∀ {i s b t k}, w.ballot i s = some b → b.fresh = true → t < s → k ≤ w.ack i t →
    (w.llog t).take k <+: b.log ∨
    ∃ s', t < s' ∧ s' < s ∧ w.lead s' ≠ none ∧ ¬ (w.llog t).take k <+: w.start s'
  commit_le : ∀ i, w.commit i ≤ (w.log i).length
  commit_ok : ∀ i, w.Committed S (w.term i) ((w.log i).take (w.commit i))

/-- The world all nodes start in: everybody has acknowledged the initial log. -/
def World.init (S : Setting Id Ent) : World Id Ent where
  term _ := S.term₀
  log _ := S.boot
  commit _ := S.boot.length
  ballot _ _ := none
  cand _ _ := none
  lead _ := none
  start _ := []
  llog t := if t = S.term₀ then S.boot else []
  ack _ t := if t = S.term₀ then S.boot.length else 0

theorem Good.boot (S : Setting Id Ent) : Good S (World.init S) S.boot where
  anchored k e hk := by
    have he : S.termOf e = S.term₀ := S.boot_term e (List.mem_of_getElem? hk)
    rw [he]
    exact ⟨by simpa [World.init] using List.take_prefix _ _, Or.inl rfl⟩
  sorted := List.pairwise_of_forall_mem_list fun a ha b hb => by
    rw [S.boot_term a ha, S.boot_term b hb]

theorem Inv.init (S : Setting Id Ent) : Inv S (World.init S) where
  term_ge _ := le_rfl
  ballot_term h := by cases h
  ballot_cand h := by cases h
  ballot_sorted h := by cases h
  ballot_fresh h := by cases h
  cand_term h := by cases h
  cand_good h := by cases h
  lead_term h := by cases h
  lead_start h := by cases h
  lead_votes h := by cases h
  start_prefix h := absurd rfl h
  llog_own h := absurd rfl h
  llog_none _ ht := if_neg ht
  llog_boot := if_pos rfl
  llog_good t := by
    by_cases ht : t = S.term₀
    · simpa [World.init, ht] using Good.boot S
    · simpa [World.init, ht] using (Good.boot S).of_isPrefix List.nil_prefix
  log_lead h := by cases h
  log_good _ := Good.boot S
  log_term _ e he := (S.boot_term e he).le
  ack_term {i t} h := by
    by_cases ht : t = S.term₀
    · exact ⟨ht.le, Or.inl ht⟩
    · simp [World.init, ht] at h
  ack_le i t := by by_cases ht : t = S.term₀ <;> simp [World.init, ht]
  held {i t k} _ := by
    left
    by_cases ht : t = S.term₀
    · simpa [World.init, ht] using List.take_prefix _ _
    · simp [World.init, ht]
  held_ballot h := by cases h
  commit_le _ := le_rfl
  commit_ok i := by
    rcases List.eq_nil_or_concat S.boot with hnil | ⟨p, e, hboot⟩
    · exact Or.inl (by simp [World.init, hnil])
    · refine Or.inr ⟨S.term₀, le_rfl, S.boot.length, ⟨by simp [hboot], ⟨e, ?_, ?_⟩, ?_⟩, ?_⟩
      · simp [World.init, hboot]
      · exact S.boot_term e (by simp [hboot])
      · exact S.quorum_mono (fun i _ => by simp [World.init]) S.quorum_univ
      · simp [World.init]

/-! ## What the invariant says -/

variable {S : Setting Id Ent} {w : World Id Ent}

/-- **Election safety**: whom a quorum voted for is the leader, if the term has one. -/
theorem Inv.election (h : Inv S w) {t : Nat} {c d : Id} (hlead : w.lead t = some c)
    (hvotes : S.Quorum {j | ∃ b, w.ballot j t = some b ∧ b.choice = d}) : d = c := by
  obtain ⟨j, ⟨b, hb, hc, -⟩, ⟨b', hb', hd⟩⟩ := S.quorum_inter (h.lead_votes hlead) hvotes
  rw [hb, Option.some.injEq] at hb'
  rw [← hd, ← hc, hb']

/-- The terms in the log of a leader do not exceed its own. -/
theorem Inv.llog_term (h : Inv S w) {t : Nat} {e : Ent} (he : e ∈ w.llog t) : S.termOf e ≤ t := by
  cases hlead : w.lead t with
  | none =>
      by_cases ht : t = S.term₀
      · rw [ht, h.llog_boot] at he
        exact (S.boot_term e he).trans_le ht.ge
      · simp [h.llog_none hlead ht] at he
  | some c =>
      have hne : w.lead t ≠ none := by simp [hlead]
      obtain ⟨k, hk⟩ := List.getElem?_of_mem he
      by_cases hlt : k < (w.start t).length
      · have hs := getElem?_of_isPrefix_of_lt (h.start_prefix hne) hlt hk
        exact ((h.cand_good (h.lead_start hlead)).2 e (List.mem_of_getElem? hs)).le
      · exact (h.llog_own hne k e (by omega) hk).le

/-- A certified prefix is not longer than the leader's log. -/
theorem World.Certified.le_length {t k : Nat} (h : w.Certified S t k) :
    k ≤ (w.llog t).length := by
  obtain ⟨hpos, ⟨e, he, -⟩, -⟩ := h
  have := (List.getElem?_eq_some_iff.mp he).1
  omega

/-- A log that contains a certified prefix has a last term that is not lower. -/
theorem World.Certified.lastTerm_ge {t k : Nat} (h : w.Certified S t k) {ℓ : List Ent}
    (hsorted : ℓ.Pairwise fun a b => S.termOf a ≤ S.termOf b) (hp : (w.llog t).take k <+: ℓ) :
    t ≤ S.lastTerm ℓ := by
  obtain ⟨hpos, ⟨e, he, hterm⟩, -⟩ := h
  have hmem : e ∈ ℓ := by
    refine hp.sublist.mem (List.mem_of_getElem? (i := k - 1) ?_)
    rw [List.getElem?_take_of_lt (by omega), he]
  exact hterm ▸ Good.le_lastTerm hsorted hmem

/-- The term of a certified prefix is the initial one or has a leader. -/
theorem Inv.certified_term (h : Inv S w) {t k : Nat} (hc : w.Certified S t k) :
    t = S.term₀ ∨ w.lead t ≠ none := by
  obtain ⟨-, ⟨e, he, hterm⟩, -⟩ := hc
  have := (h.llog_good t).anchored _ e he
  rw [hterm] at this
  exact this.2

/-- A candidate whose log is up to date with one that contains a certified prefix has it too, as
long as the leaders between have. -/
theorem Inv.upToDate_contains (h : Inv S w) {t k t' : Nat} {c ballot : List Ent}
    (hcert : w.Certified S t k) (hgood : Good S w c) (hterms : ∀ e ∈ c, S.termOf e < t')
    (hsorted : ballot.Pairwise fun a b => S.termOf a ≤ S.termOf b)
    (hballot : (w.llog t).take k <+: ballot) (hup : S.UpToDate c ballot)
    (hbetween : ∀ s, t < s → s < t' → w.lead s ≠ none → (w.llog t).take k <+: w.start s) :
    (w.llog t).take k <+: c := by
  have hlast := hcert.lastTerm_ge hsorted hballot
  have hlen : k ≤ ballot.length := by
    simpa [Nat.min_eq_left hcert.le_length] using hballot.length_le
  rcases List.eq_nil_or_concat c with rfl | ⟨p, l, rfl⟩
  · rcases hup with hlt | ⟨-, hle⟩
    · simp [Setting.lastTerm] at hlt
    · have := hcert.1
      rw [List.length_nil] at hle
      omega
  set c := p.concat l with hc
  have hl : (p.concat l)[p.length]? = some l := by simp
  have hcl : S.lastTerm c = S.termOf l := by simp [hc, Setting.lastTerm]
  obtain ⟨hanchor, hlead⟩ := hgood.anchored _ l hl
  have hwhole : c.take (p.length + 1) = c := by simp [hc]
  rw [hwhole] at hanchor
  have hlt' : S.termOf l < t' := hterms l (by simp [hc])
  have hge : t ≤ S.termOf l := by
    rcases hup with hlt | ⟨heq, -⟩ <;> omega
  rcases Nat.lt_or_eq_of_le hge with hlt | heq
  · -- the candidate's last entry is of a leader between: that leader's log contains the prefix
    have hne : w.lead (S.termOf l) ≠ none := by
      rcases hlead with h₀ | hne
      · have := h.certified_term hcert
        rcases this with ht | ht
        · omega
        · cases hc : w.lead t with
          | none => exact absurd hc ht
          | some d => have := (h.lead_term hc).1; omega
      · exact hne
    have hstart := hbetween _ hlt hlt' hne
    have hlong : (w.start (S.termOf l)).length ≤ p.length := by
      by_contra hshort
      obtain ⟨d, hd⟩ := Option.ne_none_iff_exists'.mp hne
      have hs := getElem?_of_isPrefix_of_lt (h.start_prefix hne) (by omega)
        (getElem?_of_isPrefix hanchor hl)
      have := (h.cand_good (h.lead_start hd)).2 l (List.mem_of_getElem? hs)
      omega
    refine hstart.trans (List.prefix_of_prefix_length_le (h.start_prefix hne) hanchor ?_)
    simp [hc]
    omega
  · -- the candidate's log is part of the certified leader's own, and long enough
    rw [← heq] at hanchor
    have hk : k ≤ c.length := by
      rcases hup with hlt | ⟨-, hle⟩ <;> omega
    exact List.prefix_of_prefix_length_le (List.take_prefix _ _) hanchor (by
      rw [List.length_take]
      omega)

/-- **Leader completeness**: what is certified is in the log of every later leader from its first
moment on. -/
theorem Inv.completeness (h : Inv S w) {t k : Nat} (hcert : w.Certified S t k) :
    ∀ t', t < t' → w.lead t' ≠ none → (w.llog t).take k <+: w.start t' := by
  intro t'
  induction t' using Nat.strong_induction_on with
  | _ t' ih =>
      intro hlt hne
      obtain ⟨c, hc⟩ := Option.ne_none_iff_exists'.mp hne
      -- a voter of the new leader is among the nodes that acknowledged the prefix
      obtain ⟨j, hack, ⟨b, hb, hchoice, hfresh⟩⟩ :=
        S.quorum_inter hcert.2.2 (h.lead_votes hc)
      have hcand := h.lead_start hc
      obtain ⟨ℓ, hℓ, hup⟩ := h.ballot_cand hb
      rw [hchoice, hcand, Option.some.injEq] at hℓ
      subst hℓ
      have hheld : (w.llog t).take k <+: b.log := by
        rcases h.held_ballot hb hfresh hlt hack with hp | ⟨s, hts, hst, hlead, hnot⟩
        · exact hp
        · exact absurd (ih s hst hts hlead) hnot
      exact h.upToDate_contains hcert (h.cand_good hcand).1 (h.cand_good hcand).2
        (h.ballot_sorted hb) hheld hup fun s hts hst hlead => ih s hst hts hlead

/-- What is committed in term `t` or before is part of the log of the leader of `t`. -/
theorem Inv.committed_prefix (h : Inv S w) {t : Nat} {ℓ : List Ent}
    (hc : w.Committed S t ℓ) (hlead : w.lead t ≠ none) : ℓ <+: w.llog t := by
  rcases hc with rfl | ⟨s, hs, k, hcert, hp⟩
  · exact List.nil_prefix
  · rcases Nat.lt_or_eq_of_le hs with hlt | rfl
    · exact hp.trans ((h.completeness hcert t hlt hlead).trans (h.start_prefix hlead))
    · exact hp.trans (List.take_prefix _ _)

/-- **Of two committed lists one is a prefix of the other.** -/
theorem Inv.committed_comparable (h : Inv S w) {t₁ t₂ : Nat} {ℓ₁ ℓ₂ : List Ent}
    (h₁ : w.Committed S t₁ ℓ₁) (h₂ : w.Committed S t₂ ℓ₂) : ℓ₁ <+: ℓ₂ ∨ ℓ₂ <+: ℓ₁ := by
  rcases h₁ with rfl | ⟨s₁, -, k₁, c₁, p₁⟩
  · exact Or.inl List.nil_prefix
  rcases h₂ with rfl | ⟨s₂, -, k₂, c₂, p₂⟩
  · exact Or.inr List.nil_prefix
  -- the certificate of the lower term is part of the leader's log of the higher one
  have key {s s' k k' : Nat} (hlt : s < s') (c : w.Certified S s k) (c' : w.Certified S s' k') :
      (w.llog s).take k <+: w.llog s' := by
    have hne : w.lead s' ≠ none := by
      rcases h.certified_term c' with h₀ | hne
      · rcases h.certified_term c with h₁ | h₁
        · omega
        · obtain ⟨d, hd⟩ := Option.ne_none_iff_exists'.mp h₁
          have := (h.lead_term hd).1
          omega
      · exact hne
    exact (h.completeness c s' hlt hne).trans (h.start_prefix hne)
  rcases Nat.lt_trichotomy s₁ s₂ with hlt | rfl | hlt
  · exact List.prefix_or_prefix_of_prefix (p₁.trans (key hlt c₁ c₂))
      (p₂.trans (List.take_prefix _ _))
  · exact List.prefix_or_prefix_of_prefix (p₁.trans (List.take_prefix _ _))
      (p₂.trans (List.take_prefix _ _))
  · exact List.prefix_or_prefix_of_prefix (p₁.trans (List.take_prefix _ _))
      (p₂.trans (key hlt c₂ c₁))

end Replication
