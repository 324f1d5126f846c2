import RaftKv.Replication.Invariant

/-!
# The invariant is kept

* `Step.later` — no step undoes what the records say.
* `Inv.step` — **every step keeps the invariant**; one lemma for each kind of step.
* `Inv.steps`, `Steps.later` — the same for any number of steps.
-/

namespace Replication

variable {Id Ent : Type}

/-! ## What no step undoes -/

/-- `w'` has everything on record that `w` has. -/
structure World.Later (w w' : World Id Ent) : Prop where
  term : ∀ i, w.term i ≤ w'.term i
  ballot : ∀ {i t b}, w.ballot i t = some b → w'.ballot i t = some b
  cand : ∀ {i t ℓ}, w.cand i t = some ℓ → w'.cand i t = some ℓ
  lead : ∀ {t c}, w.lead t = some c → w'.lead t = some c
  start : ∀ {t}, w.lead t ≠ none → w'.start t = w.start t
  llog : ∀ t, w.llog t <+: w'.llog t
  ack : ∀ i t, w.ack i t ≤ w'.ack i t

namespace World.Later

variable {S : Setting Id Ent} {w w' w'' : World Id Ent}

theorem refl (w : World Id Ent) : w.Later w where
  term _ := le_rfl
  ballot := id
  cand := id
  lead := id
  start _ := rfl
  llog _ := List.prefix_refl _
  ack _ _ := le_rfl

theorem lead_ne (h : w.Later w') {t : Nat} (hne : w.lead t ≠ none) : w'.lead t ≠ none := by
  obtain ⟨c, hc⟩ := Option.ne_none_iff_exists'.mp hne
  simp [h.lead hc]

theorem trans (h : w.Later w') (h' : w'.Later w'') : w.Later w'' where
  term i := (h.term i).trans (h'.term i)
  ballot hb := h'.ballot (h.ballot hb)
  cand hc := h'.cand (h.cand hc)
  lead hl := h'.lead (h.lead hl)
  start hne := (h'.start (h.lead_ne hne)).trans (h.start hne)
  llog t := (h.llog t).trans (h'.llog t)
  ack i t := (h.ack i t).trans (h'.ack i t)

theorem good (h : w.Later w') {ℓ : List Ent} (hg : Good S w ℓ) : Good S w' ℓ where
  anchored k e hk :=
    ⟨(hg.anchored k e hk).1.trans (h.llog _), (hg.anchored k e hk).2.imp_right h.lead_ne⟩
  sorted := hg.sorted

theorem certified (h : w.Later w') {t k : Nat} (hc : w.Certified S t k) : w'.Certified S t k := by
  obtain ⟨hpos, ⟨e, he, hterm⟩, hq⟩ := hc
  exact ⟨hpos, ⟨e, getElem?_of_isPrefix (h.llog t) he, hterm⟩,
    S.quorum_mono (fun i hi => le_trans hi (h.ack i t)) hq⟩

theorem take_llog (h : w.Later w') {t k : Nat} (hk : k ≤ (w.llog t).length) :
    (w'.llog t).take k = (w.llog t).take k :=
  take_of_isPrefix (h.llog t) hk

theorem committed (h : w.Later w') {t : Nat} {ℓ : List Ent} (hc : w.Committed S t ℓ) :
    w'.Committed S t ℓ := by
  rcases hc with rfl | ⟨s, hs, k, hk, hp⟩
  · exact Or.inl rfl
  · exact Or.inr ⟨s, hs, k, h.certified hk, by rwa [h.take_llog hk.le_length]⟩

end World.Later

theorem World.Committed.mono {S : Setting Id Ent} {w : World Id Ent} {t t' : Nat} {ℓ : List Ent}
    (h : w.Committed S t ℓ) (ht : t ≤ t') : w.Committed S t' ℓ :=
  h.imp_right fun ⟨s, hs, k, hk, hp⟩ => ⟨s, hs.trans ht, k, hk, hp⟩

theorem World.Committed.of_isPrefix {S : Setting Id Ent} {w : World Id Ent} {t : Nat}
    {ℓ ℓ' : List Ent} (h : w.Committed S t ℓ) (hp : ℓ' <+: ℓ) : w.Committed S t ℓ' := by
  rcases h with rfl | ⟨s, hs, k, hk, hp'⟩
  · exact Or.inl (List.prefix_nil.mp hp)
  · exact Or.inr ⟨s, hs, k, hk, hp.trans hp'⟩

/-! ## Tables -/

theorem update_some_of_none {f : Nat → Option Id} {t : Nat} {b : Option Id} (hnone : f t = none)
    {s : Nat} {c : Id} (h : f s = some c) : Function.update f t b s = some c := by
  rw [Function.update_of_ne, h]
  rintro rfl
  simp [hnone] at h

theorem prefix_update {f : Nat → List Ent} {t : Nat} {ℓ : List Ent} (h : f t <+: ℓ) (s : Nat) :
    f s <+: Function.update f t ℓ s := by
  by_cases hs : s = t
  · subst hs; simpa using h
  · simp [Function.update_of_ne hs]

section Tables

variable [DecidableEq Id]

theorem setAt_some_of_none {β : Type} {f : Id → Nat → Option β} {i : Id} {t : Nat} {b : Option β}
    (hnone : f i t = none) {j : Id} {s : Nat} {c : β} (h : f j s = some c) :
    setAt f i t b j s = some c := by
  rw [setAt, if_neg, h]
  rintro ⟨rfl, rfl⟩
  simp [hnone] at h

theorem setAt_eq_some {β : Type} {f : Id → Nat → Option β} {i j : Id} {t s : Nat} {b c : β}
    (h : setAt f i t (some b) j s = some c) : (j = i ∧ s = t ∧ c = b) ∨ f j s = some c := by
  rw [setAt] at h
  split at h
  · rename_i hjs
    exact Or.inl ⟨hjs.1, hjs.2, (Option.some.inj h).symm⟩
  · exact Or.inr h

theorem le_setAt {f : Id → Nat → Nat} {i : Id} {t n : Nat} (h : f i t ≤ n) (j : Id) (s : Nat) :
    f j s ≤ setAt f i t n j s := by
  rw [setAt]
  split
  · rename_i hjs; rw [hjs.1, hjs.2]; exact h
  · exact le_rfl

theorem setAt_ack_cases {f : Id → Nat → Nat} {i j : Id} {t s n k : Nat}
    (h : k ≤ setAt f i t n j s) : (j = i ∧ s = t ∧ k ≤ n) ∨ k ≤ f j s := by
  rw [setAt] at h
  split at h
  · rename_i hjs
    exact Or.inl ⟨hjs.1, hjs.2, h⟩
  · exact Or.inr h

theorem le_update {f : Id → Nat} {i : Id} {n : Nat} (h : f i ≤ n) (j : Id) :
    f j ≤ Function.update f i n j := by
  by_cases hj : j = i
  · subst hj; simpa using h
  · simp [Function.update_of_ne hj]

/-- What holds of the written cell and of all the others holds of all. -/
theorem forall_update {β : Type} {f : Id → β} {i : Id} {b : β} {P : Id → β → Prop} (hi : P i b)
    (hj : ∀ j, j ≠ i → P j (f j)) (j : Id) : P j (Function.update f i b j) := by
  by_cases hji : j = i
  · subst hji; simpa using hi
  · simpa [Function.update_of_ne hji] using hj j hji

theorem forall_setAt {β : Type} {f : Id → Nat → β} {i : Id} {t : Nat} {b : β}
    {P : Id → Nat → β → Prop} (hi : P i t b) (hj : ∀ j s, P j s (f j s)) (j : Id) (s : Nat) :
    P j s (setAt f i t b j s) := by
  rw [setAt]
  split
  · rename_i hjs; rw [hjs.1, hjs.2]; exact hi
  · exact hj j s

end Tables

/-! ## Records of terms to come -/

variable {S : Setting Id Ent} {i : Id} {w w' : World Id Ent}

theorem Inv.ballot_none (h : Inv S w) {t : Nat} (ht : w.term i < t) : w.ballot i t = none := by
  cases hb : w.ballot i t with
  | none => rfl
  | some b => have := (h.ballot_term hb).2; omega

theorem Inv.cand_none (h : Inv S w) {t : Nat} (ht : w.term i < t) : w.cand i t = none := by
  cases hc : w.cand i t with
  | none => rfl
  | some ℓ => have := (h.cand_term hc).2; omega

theorem Inv.ack_none (h : Inv S w) {t : Nat} (ht : w.term i < t) : w.ack i t = 0 := by
  rcases Nat.eq_zero_or_pos (w.ack i t) with h₀ | hpos
  · exact h₀
  · have := (h.ack_term hpos).1; omega

/-- Before a term has a leader, its leader's log is empty. -/
theorem Inv.llog_before (h : Inv S w) {ℓ : List Ent} (hcand : w.cand i (w.term i) = some ℓ)
    (hlead : w.lead (w.term i) = none) : w.llog (w.term i) = [] :=
  h.llog_none hlead (by have := (h.cand_term hcand).1; omega)

/-- What a node acknowledged in its current term is in its log. -/
theorem Inv.held_current (h : Inv S w) {k : Nat} (hk : k ≤ w.ack i (w.term i)) :
    (w.llog (w.term i)).take k <+: w.log i := by
  rcases h.held hk with hp | ⟨s, hlt, hle, -⟩
  · exact hp
  · omega

section Steps

variable [DecidableEq Id]

theorem Step.later (h : Inv S w) (hs : Step S i w w') : w.Later w' := by
  cases hs with
  | adopt t hterm => exact { World.Later.refl w with term := le_update hterm.le }
  | stand =>
      exact { World.Later.refl w with
        term := le_update (Nat.le_succ _)
        ballot := setAt_some_of_none (h.ballot_none (Nat.lt_succ_self _))
        cand := setAt_some_of_none (h.cand_none (Nat.lt_succ_self _)) }
  | vote c ℓ hcand hnone hup =>
      exact { World.Later.refl w with ballot := setAt_some_of_none hnone }
  | win hcand hlead hvotes =>
      have hllog := h.llog_before hcand hlead
      have hack : w.ack i (w.term i) = 0 := by simpa [hllog] using h.ack_le i (w.term i)
      exact { World.Later.refl w with
        lead := update_some_of_none hlead
        start := fun hne => Function.update_of_ne (by rintro rfl; exact hne hlead) _ _
        llog := prefix_update (by simp [hllog])
        ack := le_setAt (by simp [hack]) }
  | extend es hlead hes =>
      have hlog := h.log_lead hlead
      have hack := h.ack_le i (w.term i)
      exact { World.Later.refl w with
        llog := prefix_update (by simp [hlog])
        ack := le_setAt (by rw [List.length_append, hlog]; omega) }
  | accept l m log hlead hne hm hcommit hlog =>
      exact { World.Later.refl w with ack := le_setAt (le_max_left _ _) }
  | ackCommit l hlead => exact { World.Later.refl w with ack := le_setAt (le_max_left _ _) }
  | commitLead k hlead hk hlt => exact { World.Later.refl w with }
  | commitFollow k hk hcomm hlt => exact { World.Later.refl w with }

end Steps

/-! ## The invariant, one step at a time -/

/-- The part of the invariant that only speaks of ballots, candidacies and leaders survives a step
that writes none of them. -/
theorem Inv.of_same_records (h : Inv S w) (hl : w.Later w') (hballot : w'.ballot = w.ballot)
    (hcand : w'.cand = w.cand) (hlead : w'.lead = w.lead) (hstart : w'.start = w.start)
    (hllog : w'.llog = w.llog)
    (log_lead : ∀ {i}, w.lead (w'.term i) = some i → w'.log i = w.llog (w'.term i))
    (log_good : ∀ i, Good S w (w'.log i)) (log_term : ∀ i, ∀ e ∈ w'.log i, S.termOf e ≤ w'.term i)
    (ack_term : ∀ {i t}, 0 < w'.ack i t → t ≤ w'.term i ∧ (t = S.term₀ ∨ w.lead t ≠ none))
    (ack_le : ∀ i t, w'.ack i t ≤ (w.llog t).length)
    (held : ∀ {i t k}, k ≤ w'.ack i t → (w.llog t).take k <+: w'.log i ∨
      ∃ s, t < s ∧ s ≤ w'.term i ∧ 0 < w'.ack i s ∧ w.lead s ≠ none ∧
        ¬ (w.llog t).take k <+: w.start s)
    (held_ballot : ∀ {i s b t k}, w.ballot i s = some b → b.fresh = true → t < s →
      k ≤ w'.ack i t → (w.llog t).take k <+: b.log ∨
      ∃ s', t < s' ∧ s' < s ∧ w.lead s' ≠ none ∧ ¬ (w.llog t).take k <+: w.start s')
    (commit_le : ∀ i, w'.commit i ≤ (w'.log i).length)
    (commit_ok : ∀ i, w.Committed S (w'.term i) ((w'.log i).take (w'.commit i))) :
    Inv S w' where
  term_ge i := (h.term_ge i).trans (hl.term i)
  ballot_term hb := (h.ballot_term (hballot ▸ hb)).imp_right (le_trans · (hl.term _))
  ballot_cand hb := hcand ▸ h.ballot_cand (hballot ▸ hb)
  ballot_sorted hb := h.ballot_sorted (hballot ▸ hb)
  ballot_fresh hb hn := h.ballot_fresh (hballot ▸ hb) (hlead ▸ hn)
  cand_term hc := (h.cand_term (hcand ▸ hc)).imp_right (le_trans · (hl.term _))
  cand_good hc := (h.cand_good (hcand ▸ hc)).imp_left hl.good
  lead_term hc := (h.lead_term (hlead ▸ hc)).imp_right (le_trans · (hl.term _))
  lead_start hc := by rw [hcand, hstart]; exact h.lead_start (hlead ▸ hc)
  lead_votes hc := by rw [hballot]; exact h.lead_votes (hlead ▸ hc)
  start_prefix hne := by rw [hstart, hllog]; exact h.start_prefix (hlead ▸ hne)
  llog_own hne := by rw [hstart, hllog]; exact h.llog_own (hlead ▸ hne)
  llog_none hn ht := by rw [hllog]; exact h.llog_none (hlead ▸ hn) ht
  llog_boot := by rw [hllog]; exact h.llog_boot
  llog_good t := by rw [hllog]; exact hl.good (h.llog_good t)
  log_lead hi := by rw [hllog]; exact log_lead (hlead ▸ hi)
  log_good i := hl.good (log_good i)
  log_term := log_term
  ack_term := by rw [hlead]; exact ack_term
  ack_le := by rw [hllog]; exact ack_le
  held := by rw [hllog, hlead, hstart]; exact held
  held_ballot := by rw [hballot, hllog, hlead, hstart]; exact held_ballot
  commit_le := commit_le
  commit_ok i := hl.committed (commit_ok i)

/-- What was acknowledged before a step that only appends is still held after it. -/
theorem Inv.held_later (h : Inv S w) (hl : w.Later w') {j : Id} {t k : Nat}
    (hlog : w.log j <+: w'.log j) (hk : k ≤ w.ack j t) :
    (w'.llog t).take k <+: w'.log j ∨
      ∃ s, t < s ∧ s ≤ w'.term j ∧ 0 < w'.ack j s ∧ w'.lead s ≠ none ∧
        ¬ (w'.llog t).take k <+: w'.start s := by
  rw [hl.take_llog (hk.trans (h.ack_le j t))]
  rcases h.held hk with hp | ⟨s, hts, hs, hpos, hlead, hnot⟩
  · exact Or.inl (hp.trans hlog)
  · exact Or.inr ⟨s, hts, hs.trans (hl.term j), hpos.trans_le (hl.ack j s), hl.lead_ne hlead,
      by rwa [hl.start hlead]⟩

theorem Inv.held_ballot_later (h : Inv S w) (hl : w.Later w') {j : Id} {s : Nat}
    {b : Ballot Id Ent} {t k : Nat} (hb : w.ballot j s = some b) (hfresh : b.fresh = true)
    (hts : t < s) (hk : k ≤ w.ack j t) :
    (w'.llog t).take k <+: b.log ∨
      ∃ s', t < s' ∧ s' < s ∧ w'.lead s' ≠ none ∧ ¬ (w'.llog t).take k <+: w'.start s' := by
  rw [hl.take_llog (hk.trans (h.ack_le j t))]
  rcases h.held_ballot hb hfresh hts hk with hp | ⟨s', hts', hs', hlead, hnot⟩
  · exact Or.inl hp
  · exact Or.inr ⟨s', hts', hs', hl.lead_ne hlead, by rwa [hl.start hlead]⟩

theorem Inv.lead_votes_later (h : Inv S w) (hl : w.Later w') {t : Nat} {c : Id}
    (hc : w.lead t = some c) :
    S.Quorum {j | ∃ b, w'.ballot j t = some b ∧ b.choice = c ∧ b.fresh = true} := by
  refine S.quorum_mono ?_ (h.lead_votes hc)
  rintro j ⟨b, hb, hrest⟩
  exact ⟨b, hl.ballot hb, hrest⟩

section Steps

variable [DecidableEq Id]

theorem Inv.adopt (h : Inv S w) {t : Nat} (hterm : w.term i < t)
    (hl : w.Later { w with term := Function.update w.term i t }) :
    Inv S { w with term := Function.update w.term i t } := by
  refine h.of_same_records hl rfl rfl rfl rfl rfl ?_ h.log_good ?_ ?_ h.ack_le ?_ h.held_ballot
    h.commit_le ?_
  · intro j
    refine forall_update (P := fun j t => w.lead t = some j → w.log j = w.llog t) (fun hi => ?_)
      (fun _ _ hj => h.log_lead hj) j
    have := (h.lead_term hi).2
    omega
  · exact fun j e he => (h.log_term j e he).trans (hl.term j)
  · exact fun hpos => (h.ack_term hpos).imp_left (le_trans · (hl.term _))
  · exact fun hk => (h.held hk).imp_right fun ⟨s, hts, hs, hrest⟩ =>
      ⟨s, hts, hs.trans (hl.term _), hrest⟩
  · exact fun j => (h.commit_ok j).mono (hl.term j)

/-- Acknowledging what is in the log keeps the two `held` fields: they are about this node and this
term, and the acknowledged entries are at hand. -/
theorem Inv.held_ack (h : Inv S w) {n : Nat} {log : List Ent}
    (hown : (w.llog (w.term i)).take n <+: log)
    (hkeep : ∀ {t k}, k ≤ w.ack i t → (w.llog t).take k <+: log ∨
      ∃ s, t < s ∧ s ≤ w.term i ∧ 0 < setAt w.ack i (w.term i) n i s ∧ w.lead s ≠ none ∧
        ¬ (w.llog t).take k <+: w.start s) (hn : w.ack i (w.term i) ≤ n) {j : Id} {t k : Nat}
    (hk : k ≤ setAt w.ack i (w.term i) n j t) :
    (w.llog t).take k <+: Function.update w.log i log j ∨
      ∃ s, t < s ∧ s ≤ w.term j ∧ 0 < setAt w.ack i (w.term i) n j s ∧ w.lead s ≠ none ∧
        ¬ (w.llog t).take k <+: w.start s := by
  rcases setAt_ack_cases hk with ⟨rfl, rfl, hkn⟩ | hk'
  · left
    simpa using (List.take_prefix_take_left hkn).trans hown
  · by_cases hji : j = i
    · subst hji
      simpa using hkeep hk'
    · rw [Function.update_of_ne hji]
      refine (h.held hk').imp_right fun ⟨s, hts, hs, hpos, hrest⟩ => ⟨s, hts, hs, ?_, hrest⟩
      exact hpos.trans_le (le_setAt hn j s)

/-- Acknowledging in the current term does not concern the ballots of later terms, for there are
none. -/
theorem Inv.held_ballot_ack (h : Inv S w) {n : Nat} {j : Id} {s : Nat} {b : Ballot Id Ent}
    {t k : Nat} (hb : w.ballot j s = some b) (hfresh : b.fresh = true) (hts : t < s)
    (hk : k ≤ setAt w.ack i (w.term i) n j t) :
    (w.llog t).take k <+: b.log ∨
      ∃ s', t < s' ∧ s' < s ∧ w.lead s' ≠ none ∧ ¬ (w.llog t).take k <+: w.start s' := by
  rcases setAt_ack_cases hk with ⟨rfl, rfl, -⟩ | hk
  · have := (h.ballot_term hb).2
    omega
  · exact h.held_ballot hb hfresh hts hk

theorem Inv.accept (h : Inv S w) {l : Id} {m : Nat} {log : List Ent}
    (hlead : w.lead (w.term i) = some l) (hne : l ≠ i) (hm : m ≤ (w.llog (w.term i)).length)
    (hcommit : w.commit i ≤ m)
    (hlog : log = w.log i ∧ (w.llog (w.term i)).take m <+: w.log i ∨
      log = (w.llog (w.term i)).take m ∧ ¬ (w.llog (w.term i)).take m <+: w.log i)
    (hl : w.Later { w with
      log := Function.update w.log i log
      ack := setAt w.ack i (w.term i) (max (w.ack i (w.term i)) m) }) :
    Inv S { w with
      log := Function.update w.log i log
      ack := setAt w.ack i (w.term i) (max (w.ack i (w.term i)) m) } := by
  have hleadne : w.lead (w.term i) ≠ none := by simp [hlead]
  have hhave : (w.llog (w.term i)).take m <+: log := by
    rcases hlog with ⟨rfl, hp⟩ | ⟨rfl, -⟩
    · exact hp
    · exact List.prefix_refl _
  have hgood : Good S w log := by
    rcases hlog with ⟨rfl, -⟩ | ⟨rfl, -⟩
    · exact h.log_good i
    · exact (h.llog_good _).of_isPrefix (List.take_prefix _ _)
  -- the acknowledged part of the leader's log is in the new log
  have hown : (w.llog (w.term i)).take (max (w.ack i (w.term i)) m) <+: log := by
    rcases Nat.le_total m (w.ack i (w.term i)) with hle | hle
    · rw [Nat.max_eq_left hle]
      rcases hlog with ⟨rfl, -⟩ | ⟨-, hnot⟩
      · exact h.held_current le_rfl
      · exact absurd ((List.take_prefix_take_left hle).trans (h.held_current le_rfl)) hnot
    · rw [Nat.max_eq_right hle]
      exact hhave
  refine h.of_same_records hl rfl rfl rfl rfl rfl ?_ ?_ ?_ ?_ ?_ (h.held_ack hown ?_
    (le_max_left _ _)) h.held_ballot_ack ?_ ?_
  · intro j
    exact forall_update (P := fun j ℓ => w.lead (w.term j) = some j → ℓ = w.llog (w.term j))
      (fun hi => absurd (Option.some.inj (hlead.symm.trans hi)) hne) (fun _ _ hj => h.log_lead hj) j
  · exact forall_update (P := fun _ ℓ => Good S w ℓ) hgood fun j _ => h.log_good j
  · refine forall_update (P := fun j ℓ => ∀ e ∈ ℓ, S.termOf e ≤ w.term j) (fun e he => ?_)
      fun j _ => h.log_term j
    rcases hlog with ⟨rfl, -⟩ | ⟨rfl, -⟩
    · exact h.log_term _ e he
    · exact h.llog_term (List.mem_of_mem_take he)
  · intro j t hpos
    rcases setAt_ack_cases hpos with ⟨rfl, rfl, -⟩ | hpos
    · exact ⟨le_rfl, Or.inr hleadne⟩
    · exact h.ack_term hpos
  · exact forall_setAt (P := fun _ t n => n ≤ (w.llog t).length) (max_le (h.ack_le i _) hm)
      h.ack_le
  · -- an older acknowledgement is lost only if the leader does not have it
    intro t k hk
    rcases h.held hk with hp | ⟨s, hts, hs, hpos, hrest⟩
    · by_cases hnew : (w.llog t).take k <+: log
      · exact Or.inl hnew
      right
      rcases hlog with ⟨rfl, -⟩ | ⟨rfl, hnot⟩
      · exact absurd hp hnew
      have htlt : t < w.term i := by
        rcases Nat.lt_trichotomy t (w.term i) with hlt | rfl | hgt
        · exact hlt
        · exact absurd ((List.take_prefix_take_left (hk.trans (le_max_left _ _))).trans hown) hnew
        · exact absurd (by simp [Nat.le_zero.mp (h.ack_none hgt ▸ hk)]) hnew
      refine ⟨w.term i, htlt, le_rfl, ?_, hleadne, fun hstart => ?_⟩
      · have : 0 < m := by
          rcases Nat.eq_zero_or_pos m with rfl | hpos
          · exact absurd List.nil_prefix hnot
          · exact hpos
        simp
        omega
      · rcases List.prefix_or_prefix_of_prefix (hstart.trans (h.start_prefix hleadne))
          (List.take_prefix m _) with hp' | hp'
        · exact hnew hp'
        · exact hnot (hp'.trans hp)
    · exact Or.inr ⟨s, hts, hs, hpos.trans_le (le_setAt (le_max_left _ _) i s), hrest⟩
  · refine forall_update (P := fun j (ℓ : List Ent) => w.commit j ≤ ℓ.length) ?_ fun j _ => h.commit_le j
    have := hhave.length_le
    rw [List.length_take] at this
    omega
  · refine forall_update (P := fun j (ℓ : List Ent) => w.Committed S (w.term j) (ℓ.take (w.commit j))) ?_
      fun j _ => h.commit_ok j
    -- the committed part is in the leader's log, hence in what was taken over
    have hc := h.commit_ok i
    have hp := h.committed_prefix hc hleadne
    have hlen : ((w.log i).take (w.commit i)).length = w.commit i := by simpa using h.commit_le i
    have heq : (w.log i).take (w.commit i) = (w.llog (w.term i)).take (w.commit i) := by
      rw [List.prefix_iff_eq_take.mp hp, hlen]
    have hnew : log.take (w.commit i) = (w.llog (w.term i)).take (w.commit i) := by
      rw [take_of_isPrefix hhave (by rw [List.length_take]; omega), List.take_take,
        Nat.min_eq_left hcommit]
    rw [hnew, ← heq]
    exact hc

theorem Inv.ackCommit (h : Inv S w) {l : Id} (hlead : w.lead (w.term i) = some l)
    (hl : w.Later { w with
      ack := setAt w.ack i (w.term i) (max (w.ack i (w.term i)) (w.commit i)) }) :
    Inv S { w with
      ack := setAt w.ack i (w.term i) (max (w.ack i (w.term i)) (w.commit i)) } := by
  have hleadne : w.lead (w.term i) ≠ none := by simp [hlead]
  have hp := h.committed_prefix (h.commit_ok i) hleadne
  have hlen : ((w.log i).take (w.commit i)).length = w.commit i := by simpa using h.commit_le i
  have heq : (w.log i).take (w.commit i) = (w.llog (w.term i)).take (w.commit i) := by
    rw [List.prefix_iff_eq_take.mp hp, hlen]
  have hown : (w.llog (w.term i)).take (max (w.ack i (w.term i)) (w.commit i)) <+: w.log i := by
    rcases Nat.le_total (w.commit i) (w.ack i (w.term i)) with hle | hle
    · rw [Nat.max_eq_left hle]; exact h.held_current le_rfl
    · rw [Nat.max_eq_right hle, ← heq]; exact List.take_prefix _ _
  refine h.of_same_records hl rfl rfl rfl rfl rfl h.log_lead h.log_good h.log_term ?_ ?_ ?_
    h.held_ballot_ack h.commit_le h.commit_ok
  · intro j t hpos
    rcases setAt_ack_cases hpos with ⟨rfl, rfl, -⟩ | hpos
    · exact ⟨le_rfl, Or.inr hleadne⟩
    · exact h.ack_term hpos
  · exact forall_setAt (P := fun _ t n => n ≤ (w.llog t).length)
      (max_le (h.ack_le i _) (hlen ▸ hp.length_le)) h.ack_le
  · intro j t k hk
    have := h.held_ack hown (fun hk => (h.held hk).imp_right fun ⟨s, hts, hs, hpos, hrest⟩ =>
      ⟨s, hts, hs, hpos.trans_le (le_setAt (le_max_left _ _) i s), hrest⟩) (le_max_left _ _) hk
    simpa using this

/-- Raising the commit index to what is committed keeps the invariant. -/
theorem Inv.commit (h : Inv S w) {k : Nat} (hk : k ≤ (w.log i).length)
    (hc : w.Committed S (w.term i) ((w.log i).take k))
    (hl : w.Later { w with commit := Function.update w.commit i k }) :
    Inv S { w with commit := Function.update w.commit i k } := by
  refine h.of_same_records hl rfl rfl rfl rfl rfl h.log_lead h.log_good h.log_term h.ack_term
    h.ack_le h.held h.held_ballot ?_ ?_
  · exact forall_update (P := fun j n => n ≤ (w.log j).length) hk fun j _ => h.commit_le j
  · exact forall_update (P := fun j n => w.Committed S (w.term j) ((w.log j).take n)) hc
      fun j _ => h.commit_ok j

theorem Inv.commitLead (h : Inv S w) {k : Nat} (hlead : w.lead (w.term i) = some i)
    (hk : w.Certified S (w.term i) k)
    (hl : w.Later { w with commit := Function.update w.commit i k }) :
    Inv S { w with commit := Function.update w.commit i k } := by
  have hlog := h.log_lead hlead
  refine h.commit (hlog ▸ hk.le_length) ?_ hl
  exact Or.inr ⟨_, le_rfl, k, hk, by rw [hlog]⟩

theorem Inv.commitFollow (h : Inv S w) {k : Nat} (hk : k ≤ w.ack i (w.term i))
    (hc : w.Committed S (w.term i) ((w.llog (w.term i)).take k))
    (hl : w.Later { w with commit := Function.update w.commit i k }) :
    Inv S { w with commit := Function.update w.commit i k } := by
  have hp := h.held_current hk
  have hlen : ((w.llog (w.term i)).take k).length = k := by
    have := h.ack_le i (w.term i)
    simp
    omega
  have heq : (w.log i).take k = (w.llog (w.term i)).take k := by
    rw [List.prefix_iff_eq_take.mp hp, hlen]
  exact h.commit (hlen ▸ hp.length_le) (heq ▸ hc) hl

theorem Inv.stand (h : Inv S w)
    (hl : w.Later { w with
      term := Function.update w.term i (w.term i + 1)
      ballot := setAt w.ballot i (w.term i + 1) (some ⟨i, w.log i, true⟩)
      cand := setAt w.cand i (w.term i + 1) (some (w.log i)) }) :
    Inv S { w with
      term := Function.update w.term i (w.term i + 1)
      ballot := setAt w.ballot i (w.term i + 1) (some ⟨i, w.log i, true⟩)
      cand := setAt w.cand i (w.term i + 1) (some (w.log i)) } where
  term_ge j := (h.term_ge j).trans (hl.term j)
  ballot_term hb := by
    rcases setAt_eq_some hb with ⟨rfl, rfl, -⟩ | hb
    · exact ⟨Nat.lt_succ_of_le (h.term_ge _), by simp⟩
    · exact (h.ballot_term hb).imp_right (le_trans · (hl.term _))
  ballot_cand hb := by
    rcases setAt_eq_some hb with ⟨rfl, rfl, rfl⟩ | hb
    · exact ⟨_, setAt_self _ _ _ _, Or.inr ⟨rfl, le_rfl⟩⟩
    · obtain ⟨ℓ, hℓ, hup⟩ := h.ballot_cand hb
      exact ⟨ℓ, hl.cand hℓ, hup⟩
  ballot_sorted hb := by
    rcases setAt_eq_some hb with ⟨-, -, rfl⟩ | hb
    · exact (h.log_good i).sorted
    · exact h.ballot_sorted hb
  ballot_fresh hb hn := by
    rcases setAt_eq_some hb with ⟨-, -, rfl⟩ | hb
    · rfl
    · exact h.ballot_fresh hb hn
  cand_term hc := by
    rcases setAt_eq_some hc with ⟨rfl, rfl, -⟩ | hc
    · exact ⟨Nat.lt_succ_of_le (h.term_ge _), by simp⟩
    · exact (h.cand_term hc).imp_right (le_trans · (hl.term _))
  cand_good hc := by
    rcases setAt_eq_some hc with ⟨-, rfl, rfl⟩ | hc
    · exact ⟨hl.good (h.log_good i), fun e he => Nat.lt_succ_of_le (h.log_term i e he)⟩
    · exact (h.cand_good hc).imp_left hl.good
  lead_term hc := (h.lead_term hc).imp_right (le_trans · (hl.term _))
  lead_start hc := hl.cand (h.lead_start hc)
  lead_votes hc := h.lead_votes_later hl hc
  start_prefix := h.start_prefix
  llog_own := h.llog_own
  llog_none := h.llog_none
  llog_boot := h.llog_boot
  llog_good t := hl.good (h.llog_good t)
  log_lead {j} := by
    refine forall_update (P := fun j t => w.lead t = some j → w.log j = w.llog t) (fun hi => ?_)
      (fun _ _ hj => h.log_lead hj) j
    have := (h.lead_term hi).2
    omega
  log_good j := hl.good (h.log_good j)
  log_term j e he := (h.log_term j e he).trans (hl.term j)
  ack_term hpos := (h.ack_term hpos).imp_left (le_trans · (hl.term _))
  ack_le := h.ack_le
  held hk := (h.held hk).imp_right fun ⟨s, hts, hs, hrest⟩ => ⟨s, hts, hs.trans (hl.term _), hrest⟩
  held_ballot {j s b t k} hb hfresh hts hk := by
    rcases setAt_eq_some hb with ⟨rfl, rfl, rfl⟩ | hb
    · exact (h.held hk).imp_right fun ⟨s, hts, hs, _, hrest⟩ => ⟨s, hts, Nat.lt_succ_of_le hs, hrest⟩
    · exact h.held_ballot hb hfresh hts hk
  commit_le := h.commit_le
  commit_ok j := (hl.committed (h.commit_ok j)).mono (hl.term j)

theorem Inv.vote (h : Inv S w) {c : Id} {ℓ : List Ent} (hcand : w.cand c (w.term i) = some ℓ)
    (hup : S.UpToDate ℓ (w.log i))
    (hl : w.Later { w with
      ballot := setAt w.ballot i (w.term i)
        (some ⟨c, w.log i, decide (w.ack i (w.term i) = 0)⟩) }) :
    Inv S { w with
      ballot := setAt w.ballot i (w.term i)
        (some ⟨c, w.log i, decide (w.ack i (w.term i) = 0)⟩) } where
  term_ge := h.term_ge
  ballot_term hb := by
    rcases setAt_eq_some hb with ⟨rfl, rfl, -⟩ | hb
    · exact ⟨(h.cand_term hcand).1, le_rfl⟩
    · exact h.ballot_term hb
  ballot_cand hb := by
    rcases setAt_eq_some hb with ⟨rfl, rfl, rfl⟩ | hb
    · exact ⟨ℓ, hcand, hup⟩
    · exact h.ballot_cand hb
  ballot_sorted hb := by
    rcases setAt_eq_some hb with ⟨-, -, rfl⟩ | hb
    · exact (h.log_good i).sorted
    · exact h.ballot_sorted hb
  ballot_fresh hb hn := by
    rcases setAt_eq_some hb with ⟨rfl, rfl, rfl⟩ | hb
    · -- before the term has a leader nothing is acknowledged in it
      refine decide_eq_true ?_
      by_contra hack
      rcases (h.ack_term (Nat.pos_of_ne_zero hack)).2 with ht | hne
      · have := (h.cand_term hcand).1
        omega
      · exact hne hn
    · exact h.ballot_fresh hb hn
  cand_term := h.cand_term
  cand_good hc := (h.cand_good hc).imp_left hl.good
  lead_term := h.lead_term
  lead_start := h.lead_start
  lead_votes hc := h.lead_votes_later hl hc
  start_prefix := h.start_prefix
  llog_own := h.llog_own
  llog_none := h.llog_none
  llog_boot := h.llog_boot
  llog_good t := hl.good (h.llog_good t)
  log_lead := h.log_lead
  log_good j := hl.good (h.log_good j)
  log_term := h.log_term
  ack_term := h.ack_term
  ack_le := h.ack_le
  held := h.held
  held_ballot {j s b t k} hb hfresh hts hk := by
    rcases setAt_eq_some hb with ⟨rfl, rfl, rfl⟩ | hb
    · -- a fresh voter has acknowledged nothing in this term
      have hzero : w.ack j (w.term j) = 0 := of_decide_eq_true hfresh
      rcases h.held hk with hp | ⟨s, hts, hs, hpos, hrest⟩
      · exact Or.inl hp
      · refine Or.inr ⟨s, hts, lt_of_le_of_ne hs ?_, hrest⟩
        rintro rfl
        omega
    · exact h.held_ballot hb hfresh hts hk
  commit_le := h.commit_le
  commit_ok j := hl.committed (h.commit_ok j)

theorem Inv.win (h : Inv S w) (hcand : w.cand i (w.term i) = some (w.log i))
    (hlead : w.lead (w.term i) = none)
    (hvotes : S.Quorum {j | ∃ b, w.ballot j (w.term i) = some b ∧ b.choice = i})
    (hl : w.Later { w with
      lead := Function.update w.lead (w.term i) (some i)
      start := Function.update w.start (w.term i) (w.log i)
      llog := Function.update w.llog (w.term i) (w.log i)
      ack := setAt w.ack i (w.term i) (w.log i).length }) :
    Inv S { w with
      lead := Function.update w.lead (w.term i) (some i)
      start := Function.update w.start (w.term i) (w.log i)
      llog := Function.update w.llog (w.term i) (w.log i)
      ack := setAt w.ack i (w.term i) (w.log i).length } := by
  have hterm := (h.cand_term hcand).1
  -- a fact about leaders holds of the new one and of all the others
  have hleads {P : Nat → Id → Prop} (hi : P (w.term i) i)
      (hj : ∀ t c, t ≠ w.term i → w.lead t = some c → P t c) (t : Nat) (c : Id)
      (hc : Function.update w.lead (w.term i) (some i) t = some c) : P t c := by
    by_cases ht : t = w.term i
    · subst ht
      simp only [Function.update_self, Option.some.injEq] at hc
      exact hc ▸ hi
    · rw [Function.update_of_ne ht] at hc
      exact hj t c ht hc
  have hleads_ne {P : Nat → Prop} (hi : P (w.term i))
      (hj : ∀ t, t ≠ w.term i → w.lead t ≠ none → P t) (t : Nat)
      (hne : Function.update w.lead (w.term i) (some i) t ≠ none) : P t := by
    obtain ⟨c, hc⟩ := Option.ne_none_iff_exists'.mp hne
    exact hleads (P := fun t _ => P t) hi (fun t c ht hc => hj t ht (by simp [hc])) t c hc
  exact {
    term_ge := h.term_ge
    ballot_term := h.ballot_term
    ballot_cand := h.ballot_cand
    ballot_sorted := h.ballot_sorted
    ballot_fresh := fun {j t b} hb hn => by
      dsimp only at hn
      by_cases ht : t = w.term i
      · subst ht; simp at hn
      · rw [Function.update_of_ne ht] at hn
        exact h.ballot_fresh hb hn
    cand_term := h.cand_term
    cand_good := fun hc => (h.cand_good hc).imp_left hl.good
    lead_term := fun {t c} hc => hleads (P := fun t c => S.term₀ < t ∧ t ≤ w.term c)
      ⟨hterm, le_rfl⟩ (fun _ _ _ hc => h.lead_term hc) t c hc
    lead_start := fun {t c} hc => hleads
      (P := fun t c => w.cand c t = some (Function.update w.start (w.term i) (w.log i) t))
      (by simpa using hcand)
      (fun t c ht hc => by rw [Function.update_of_ne ht]; exact h.lead_start hc) t c hc
    lead_votes := fun {t c} hc => hleads
      (P := fun t c => S.Quorum {j | ∃ b, w.ballot j t = some b ∧ b.choice = c ∧ b.fresh = true})
      (by
        refine S.quorum_mono ?_ hvotes
        rintro j ⟨b, hb, hc⟩
        exact ⟨b, hb, hc, h.ballot_fresh hb hlead⟩)
      (fun _ _ _ hc => h.lead_votes hc) t c hc
    start_prefix := fun {t} hne => hleads_ne
      (P := fun t => Function.update w.start (w.term i) (w.log i) t <+:
        Function.update w.llog (w.term i) (w.log i) t) (by simp)
      (fun t ht hne => by
        rw [Function.update_of_ne ht, Function.update_of_ne ht]; exact h.start_prefix hne) t hne
    llog_own := fun {t} hne => hleads_ne
      (P := fun t => ∀ k e, (Function.update w.start (w.term i) (w.log i) t).length ≤ k →
        (Function.update w.llog (w.term i) (w.log i) t)[k]? = some e → S.termOf e = t)
      (fun k e hk he => by
        simp only [Function.update_self] at hk he
        have := (List.getElem?_eq_some_iff.mp he).1
        omega)
      (fun t ht hne => by
        rw [Function.update_of_ne ht, Function.update_of_ne ht]; exact h.llog_own hne) t hne
    llog_none := fun {t} hn ht₀ => by
      dsimp only at hn ⊢
      by_cases ht : t = w.term i
      · subst ht; simp at hn
      · rw [Function.update_of_ne ht] at hn ⊢
        exact h.llog_none hn ht₀
    llog_boot := by
      dsimp only
      rw [Function.update_of_ne (by omega)]
      exact h.llog_boot
    llog_good := forall_update (P := fun _ ℓ => Good S _ ℓ) (hl.good (h.log_good i))
      fun t _ => hl.good (h.llog_good t)
    log_lead := fun {j} hj => by
      dsimp only at hj ⊢
      by_cases ht : w.term j = w.term i
      · simp only [ht, Function.update_self, Option.some.injEq] at hj ⊢
        rw [hj]
      · rw [Function.update_of_ne ht] at hj ⊢
        exact h.log_lead hj
    log_good := fun j => hl.good (h.log_good j)
    log_term := h.log_term
    ack_term := fun {j t} hpos => by
      rcases setAt_ack_cases hpos with ⟨rfl, rfl, -⟩ | hpos
      · exact ⟨le_rfl, Or.inr (by simp)⟩
      · exact (h.ack_term hpos).imp_right (Or.imp_right hl.lead_ne)
    ack_le := forall_setAt
      (P := fun _ t n => n ≤ (Function.update w.llog (w.term i) (w.log i) t).length) (by simp)
      fun j t => (h.ack_le j t).trans (hl.llog t).length_le
    held := fun {j t k} hk => by
      rcases setAt_ack_cases hk with ⟨rfl, rfl, -⟩ | hk
      · exact Or.inl (by simpa using List.take_prefix _ _)
      · exact h.held_later hl (List.prefix_refl _) hk
    held_ballot := fun {j s b t k} hb hfresh hts hk => by
      rcases setAt_ack_cases hk with ⟨rfl, rfl, -⟩ | hk
      · have := (h.ballot_term hb).2
        omega
      · exact h.held_ballot_later hl hb hfresh hts hk
    commit_le := h.commit_le
    commit_ok := fun j => hl.committed (h.commit_ok j) }

theorem Inv.extend (h : Inv S w) {es : List Ent} (hlead : w.lead (w.term i) = some i)
    (hes : ∀ e ∈ es, S.termOf e = w.term i)
    (hl : w.Later { w with
      log := Function.update w.log i (w.log i ++ es)
      llog := Function.update w.llog (w.term i) (w.log i ++ es)
      ack := setAt w.ack i (w.term i) (w.log i ++ es).length }) :
    Inv S { w with
      log := Function.update w.log i (w.log i ++ es)
      llog := Function.update w.llog (w.term i) (w.log i ++ es)
      ack := setAt w.ack i (w.term i) (w.log i ++ es).length } := by
  have hleadne : w.lead (w.term i) ≠ none := by simp [hlead]
  have hlog := h.log_lead hlead
  have hgood : Good S { w with
      log := Function.update w.log i (w.log i ++ es)
      llog := Function.update w.llog (w.term i) (w.log i ++ es)
      ack := setAt w.ack i (w.term i) (w.log i ++ es).length } (w.log i ++ es) := by
    refine ⟨fun k e hk => ?_, ?_⟩
    · rcases Nat.lt_or_ge k (w.log i).length with hlt | hge
      · rw [List.getElem?_append_left hlt] at hk
        rw [List.take_append_of_le_length (by omega)]
        exact (hl.good (h.log_good i)).anchored k e hk
      · rw [List.getElem?_append_right hge] at hk
        rw [hes e (List.mem_of_getElem? hk)]
        exact ⟨by simpa using List.take_prefix _ _, Or.inr hleadne⟩
    · refine List.pairwise_append.mpr ⟨(h.log_good i).sorted, ?_, fun a ha b hb => ?_⟩
      · exact List.pairwise_of_forall_mem_list fun a ha b hb => by rw [hes a ha, hes b hb]
      · rw [hes b hb]
        exact h.log_term i a ha
  have hlogs (j : Id) : w.log j <+: Function.update w.log i (w.log i ++ es) j :=
    forall_update (P := fun j ℓ => w.log j <+: ℓ) (List.prefix_append _ _)
      (fun _ _ => List.prefix_refl _) j
  exact {
    term_ge := h.term_ge
    ballot_term := h.ballot_term
    ballot_cand := h.ballot_cand
    ballot_sorted := h.ballot_sorted
    ballot_fresh := h.ballot_fresh
    cand_term := h.cand_term
    cand_good := fun hc => (h.cand_good hc).imp_left hl.good
    lead_term := h.lead_term
    lead_start := h.lead_start
    lead_votes := h.lead_votes
    start_prefix := fun {t} hne => (h.start_prefix hne).trans (hl.llog t)
    llog_own := fun {t} hne k e hk he => by
      dsimp only at he
      by_cases ht : t = w.term i
      · subst ht
        simp only [Function.update_self] at he
        rcases Nat.lt_or_ge k (w.log i).length with hlt | hge
        · rw [List.getElem?_append_left hlt, hlog] at he
          exact h.llog_own hne k e hk he
        · rw [List.getElem?_append_right hge] at he
          exact hes e (List.mem_of_getElem? he)
      · rw [Function.update_of_ne ht] at he
        exact h.llog_own hne k e hk he
    llog_none := fun {t} hn ht₀ => by
      dsimp only
      rw [Function.update_of_ne (by rintro rfl; exact hleadne hn)]
      exact h.llog_none hn ht₀
    llog_boot := by
      have := (h.lead_term hlead).1
      dsimp only
      rw [Function.update_of_ne (by omega)]
      exact h.llog_boot
    llog_good := forall_update (P := fun _ ℓ => Good S _ ℓ) hgood fun t _ => hl.good (h.llog_good t)
    log_lead := fun {j} hj => by
      dsimp only at hj ⊢
      by_cases hji : j = i
      · subst hji; simp
      · have ht : w.term j ≠ w.term i := by
          intro ht
          exact hji (Option.some.inj (hj.symm.trans (ht ▸ hlead)))
        rw [Function.update_of_ne hji, Function.update_of_ne ht]
        exact h.log_lead hj
    log_good := forall_update (P := fun _ ℓ => Good S _ ℓ) hgood fun j _ => hl.good (h.log_good j)
    log_term := forall_update (P := fun j ℓ => ∀ e ∈ ℓ, S.termOf e ≤ w.term j)
      (fun e he => (List.mem_append.mp he).elim (h.log_term i e) fun he => (hes e he).le)
      fun j _ => h.log_term j
    ack_term := fun {j t} hpos => by
      rcases setAt_ack_cases hpos with ⟨rfl, rfl, -⟩ | hpos
      · exact ⟨le_rfl, Or.inr hleadne⟩
      · exact h.ack_term hpos
    ack_le := forall_setAt
      (P := fun _ t n => n ≤ (Function.update w.llog (w.term i) (w.log i ++ es) t).length)
      (by simp) fun j t => (h.ack_le j t).trans (hl.llog t).length_le
    held := fun {j t k} hk => by
      rcases setAt_ack_cases hk with ⟨rfl, rfl, -⟩ | hk
      · exact Or.inl (by simpa using List.take_prefix _ _)
      · exact h.held_later hl (hlogs j) hk
    held_ballot := fun {j s b t k} hb hfresh hts hk => by
      rcases setAt_ack_cases hk with ⟨rfl, rfl, -⟩ | hk
      · have := (h.ballot_term hb).2
        omega
      · exact h.held_ballot_later hl hb hfresh hts hk
    commit_le := fun j => (h.commit_le j).trans (hlogs j).length_le
    commit_ok := fun j => by
      dsimp only
      rw [take_of_isPrefix (hlogs j) (h.commit_le j)]
      exact hl.committed (h.commit_ok j) }

/-- **Every step keeps the invariant.** -/
theorem Inv.step (h : Inv S w) (hs : Step S i w w') : Inv S w' := by
  have hl := hs.later h
  cases hs with
  | adopt t hterm => exact h.adopt hterm hl
  | stand => exact h.stand hl
  | vote c ℓ hcand hnone hup => exact h.vote hcand hup hl
  | win hcand hlead hvotes => exact h.win hcand hlead hvotes hl
  | extend es hlead hes => exact h.extend hlead hes hl
  | accept l m log hlead hne hm hcommit hlog => exact h.accept hlead hne hm hcommit hlog hl
  | ackCommit l hlead => exact h.ackCommit hlead hl
  | commitLead k hlead hk hlt => exact h.commitLead hlead hk hl
  | commitFollow k hk hcomm hlt => exact h.commitFollow hk hcomm hl

/-- The run lemma: any number of steps keeps the invariant, and undoes no record. -/
theorem Inv.steps (h : Inv S w) (hs : Steps S i w w') : Inv S w' ∧ w.Later w' := by
  induction hs with
  | refl => exact ⟨h, World.Later.refl w⟩
  | tail _ hstep ih => exact ⟨ih.1.step hstep, ih.2.trans (hstep.later ih.1)⟩

/-- A step of one node leaves the others' own parts of the world alone. -/
theorem Steps.frame (hs : Steps S i w w') {j : Id} (hji : j ≠ i) :
    w'.term j = w.term j ∧ w'.log j = w.log j ∧ w'.commit j = w.commit j ∧
      w'.ballot j = w.ballot j ∧ w'.cand j = w.cand j ∧ w'.ack j = w.ack j := by
  induction hs with
  | refl => exact ⟨rfl, rfl, rfl, rfl, rfl, rfl⟩
  | tail _ hstep ih =>
      obtain ⟨h₁, h₂, h₃, h₄, h₅, h₆⟩ := ih
      rw [← h₁, ← h₂, ← h₃, ← h₄, ← h₅, ← h₆]
      cases hstep <;>
        simp [Function.update_of_ne hji, funext_iff, setAt_of_ne_node _ _ _ _ hji]

/-- A step of one node makes nobody else the leader of a term. -/
theorem Steps.lead_frame (hs : Steps S i w w') {t : Nat} {j : Id} (hji : j ≠ i)
    (hlead : w'.lead t = some j) : w.lead t = some j := by
  induction hs with
  | refl => exact hlead
  | tail _ hstep ih =>
      refine ih ?_
      cases hstep with
      | win _ _ _ =>
          dsimp only at hlead
          rw [Function.update_apply] at hlead
          split at hlead
          · exact absurd (Option.some.inj hlead).symm hji
          · exact hlead
      | _ => exact hlead

end Steps

end Replication
