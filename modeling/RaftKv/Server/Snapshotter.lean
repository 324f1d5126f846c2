import Mathlib.Data.Char
import Mathlib.Data.Finset.Max
import Mathlib.Data.List.AList
import Mathlib.Data.List.Lex
import RaftKv.Wal.Wal

/-!
# Snapshot files

`Snapshotter` (`snap/snapshotter.cpp`): one file for each snapshot, named by term and index, that
holds a length, a checksum and the packed snapshot.

* `snapName_lt_iff` — the names are ordered as the pairs of term and index.
* `SnapFormat.loadSnap_record` — **which snapshots can be read back at all**: a checksum of 0 is taken
  for damage.
* `SnapFolder.load_eq` — loading renames the files up to the first one that can be read.
* `SnapFolder.load_newest_iff` — **when the newest intact snapshot is loaded**.
-/

namespace RaftKv

/-- The packed form of a snapshot, and the checksum of its file. -/
structure SnapFormat where
  snapshot : Codec Snapshot
  crc : Bytes → UInt32

namespace SnapFormat

variable (f : SnapFormat)

/-- A `SnapshotRecord`; both numbers have 32 bits. -/
def record (snapshot : Snapshot) : Bytes :=
  let data := f.snapshot.pack snapshot
  littleEndian 4 (wrap32 data.length) ++
    (littleEndian 4 (f.crc data).toNat ++ data.take (wrap32 data.length))

/-- `load_snap`; `none` stands for `invalid_snap`. -/
def loadSnap : Bytes → Option Snapshot
  | l₀ :: l₁ :: l₂ :: l₃ :: c₀ :: c₁ :: c₂ :: c₃ :: rest =>
      let len := readLittleEndian [l₀, l₁, l₂, l₃]
      let crc := UInt32.ofNat (readLittleEndian [c₀, c₁, c₂, c₃])
      if len = 0 ∨ crc = 0 then none
      else if rest.length < len then none
      else if f.crc (rest.take len) ≠ crc then none
      else
        match f.snapshot.unpack (rest.take len) with
        | Except.ok snapshot => some snapshot
        | Except.error _ => none
  | _ => none

/-- The header, the length or the checksum of a file does not fit. -/
def Broken : Bytes → Prop
  | l₀ :: l₁ :: l₂ :: l₃ :: c₀ :: c₁ :: c₂ :: c₃ :: rest =>
      let len := readLittleEndian [l₀, l₁, l₂, l₃]
      let crc := UInt32.ofNat (readLittleEndian [c₀, c₁, c₂, c₃])
      len = 0 ∨ crc = 0 ∨ rest.length < len ∨ f.crc (rest.take len) ≠ crc
  | _ => True

end SnapFormat

/-! ## Names -/

def hexChar (d : Nat) : Char := if d < 10 then Char.ofNat (48 + d) else Char.ofNat (87 + d)

/-- The last `k` hexadecimal digits of a number, as `%016x` prints them for `k = 16`. -/
def hexFixed : Nat → Nat → List Char
  | 0, _ => []
  | k + 1, n => hexChar (n / 16 ^ k % 16) :: hexFixed k n

def snapExtension : List Char := ['.', 's', 'n', 'a', 'p']

def brokenExtension : List Char := ['.', 'b', 'r', 'o', 'k', 'e', 'n']

def snapName (term index : Nat) : List Char :=
  hexFixed 16 term ++ '-' :: (hexFixed 16 index ++ snapExtension)

def Snapshot.name (s : Snapshot) : List Char := snapName s.metadata.term s.metadata.index

/-! ## The directory -/

/-- A directory: what the files hold, by their names. -/
abbrev SnapFolder := AList fun _ : List Char => Bytes

namespace SnapFolder

def saveSnap (f : SnapFormat) (d : SnapFolder) (s : Snapshot) : SnapFolder :=
  d.insert s.name (f.record s)

/-- The names of the snapshot files, the greatest one first. -/
def snapNames (d : SnapFolder) : List (List Char) :=
  (d.keys.filter fun name => snapExtension <:+ name).mergeSort fun a b => decide (b ≤ a)

/-- Put a file away as broken. -/
def rename (d : SnapFolder) (name : List Char) : SnapFolder :=
  match d.lookup name with
  | none => d
  | some content => (d.erase name).insert (name ++ brokenExtension) content

/-- The loop of `load`: the first file that can be read; those before it are renamed. -/
def loadNames (f : SnapFormat) : List (List Char) → SnapFolder → SnapFolder × Option Snapshot
  | [], d => (d, none)
  | name :: names, d =>
      match (d.lookup name).bind f.loadSnap with
      | some s => (d, some s)
      | none => loadNames f names (d.rename name)

def load (f : SnapFormat) (d : SnapFolder) : SnapFolder × Option Snapshot :=
  loadNames f d.snapNames d

end SnapFolder

/-! ## The order of the names -/

lemma hexChar_lt : ∀ {a b : Nat}, a < b → b < 16 → hexChar a < hexChar b := by
  have hall : ∀ b : Fin 16, ∀ a : Fin b.val, hexChar a.val < hexChar b.val := by decide
  intro a b hab hb
  exact hall ⟨b, hb⟩ ⟨a, hab⟩

@[simp] lemma length_hexFixed (k n : Nat) : (hexFixed k n).length = k := by
  induction k with
  | zero => rfl
  | succ k ih => rw [hexFixed, List.length_cons, ih]

lemma hexFixed_mod {k j : Nat} (h : k ≤ j) (n : Nat) : hexFixed k (n % 16 ^ j) = hexFixed k n := by
  induction k with
  | zero => rfl
  | succ k ih =>
      obtain ⟨i, rfl⟩ := Nat.exists_eq_add_of_le h
      have hdigit : n % 16 ^ (k + 1 + i) / 16 ^ k % 16 = n / 16 ^ k % 16 := by
        rw [show k + 1 + i = k + (1 + i) by omega, Nat.pow_add, Nat.mod_mul_right_div_self,
          Nat.pow_add, Nat.pow_one, Nat.mod_mul_right_mod]
      rw [hexFixed, hexFixed, hdigit, ih (by omega)]

/-- Numbers of the same width are ordered as their digits. -/
lemma hexFixed_lt {k : Nat} : ∀ {a b : Nat}, a < b → b < 16 ^ k →
    hexFixed k a < hexFixed k b := by
  induction k with
  | zero =>
      intro a b hab hb
      simp at hb
      omega
  | succ k ih =>
      intro a b hab hb
      have hdigit : ∀ {n}, n < 16 ^ (k + 1) → n / 16 ^ k < 16 := by
        intro n hn
        rw [Nat.pow_succ'] at hn
        exact Nat.div_lt_of_lt_mul (by rwa [Nat.mul_comm] at hn)
      rw [hexFixed, hexFixed, Nat.mod_eq_of_lt (hdigit (hab.trans hb)), Nat.mod_eq_of_lt (hdigit hb)]
      rcases Nat.lt_or_eq_of_le (Nat.div_le_div_right (c := 16 ^ k) hab.le) with hlt | heq
      · exact List.Lex.rel (hexChar_lt hlt (hdigit hb))
      · -- the first digits agree
        rw [heq]
        have hrest : a % 16 ^ k < b % 16 ^ k := by
          have ha := Nat.div_add_mod a (16 ^ k)
          have hb' := Nat.div_add_mod b (16 ^ k)
          rw [heq] at ha
          omega
        have := ih hrest (Nat.mod_lt _ (Nat.pow_pos (by decide)))
        rw [hexFixed_mod (Nat.le_refl _), hexFixed_mod (Nat.le_refl _)] at this
        exact List.Lex.cons this

/-- Lists of the same length are ordered whatever follows them. -/
lemma append_lt_append {as bs : List Char} (hlt : as < bs) (hlen : as.length = bs.length)
    (xs ys : List Char) : as ++ xs < bs ++ ys := by
  induction hlt with
  | nil => cases hlen
  | rel hab => exact List.Lex.rel hab
  | cons _ ih => exact List.Lex.cons (ih (Nat.succ.inj hlen))

/-- Two numbers of 64 bits, written one behind the other, are ordered as pairs. -/
lemma hexNames_lt {a b c d : Nat} (extension : List Char) (hc : c < 2 ^ 64) (hd : d < 2 ^ 64)
    (h : a < c ∨ a = c ∧ b < d) :
    hexFixed 16 a ++ '-' :: (hexFixed 16 b ++ extension) <
      hexFixed 16 c ++ '-' :: (hexFixed 16 d ++ extension) := by
  have hsixteen : (2 : Nat) ^ 64 = 16 ^ 16 := by decide
  rw [hsixteen] at hc hd
  rcases h with hlt | ⟨rfl, hlt⟩
  · exact append_lt_append (hexFixed_lt hlt hc) (by simp) _ _
  · refine List.append_left_lt (List.Lex.cons ?_)
    exact append_lt_append (hexFixed_lt hlt hd) (by simp) _ _

theorem hexNames_lt_iff {a b c d : Nat} (extension : List Char) (ha : a < 2 ^ 64) (hb : b < 2 ^ 64)
    (hc : c < 2 ^ 64) (hd : d < 2 ^ 64) :
    hexFixed 16 a ++ '-' :: (hexFixed 16 b ++ extension) <
      hexFixed 16 c ++ '-' :: (hexFixed 16 d ++ extension) ↔ a < c ∨ a = c ∧ b < d := by
  refine ⟨fun hlt => ?_, hexNames_lt extension hc hd⟩
  by_contra hnot
  by_cases hsame : a = c ∧ b = d
  · rw [hsame.1, hsame.2] at hlt
    exact absurd hlt (lt_irrefl _)
  · exact absurd hlt (hexNames_lt extension ha hb (by omega)).not_gt

namespace Snapshot

/-- The order of the pairs of term and index. -/
def Older (s t : Snapshot) : Prop :=
  s.metadata.term < t.metadata.term ∨
    s.metadata.term = t.metadata.term ∧ s.metadata.index < t.metadata.index

/-- Term and index have 64 bits. -/
structure Numbered (s : Snapshot) : Prop where
  term : s.metadata.term < 2 ^ 64
  index : s.metadata.index < 2 ^ 64

lemma older_or_older {s t : Snapshot}
    (h : (s.metadata.term, s.metadata.index) ≠ (t.metadata.term, t.metadata.index)) :
    s.Older t ∨ t.Older s := by
  simp only [ne_eq, Prod.mk.injEq, not_and_or] at h
  simp only [Older]
  omega

lemma Older.name_lt {s t : Snapshot} (h : s.Older t) (ht : t.Numbered) : s.name < t.name :=
  hexNames_lt snapExtension ht.term ht.index h

/-- **The names are ordered as the pairs of term and index.** -/
theorem name_lt_iff {s t : Snapshot} (hs : s.Numbered) (ht : t.Numbered) :
    s.name < t.name ↔ s.Older t :=
  hexNames_lt_iff snapExtension hs.term hs.index ht.term ht.index

lemma snapExtension_suffix_name (s : Snapshot) : snapExtension <:+ s.name :=
  ⟨hexFixed 16 s.metadata.term ++ '-' :: hexFixed 16 s.metadata.index, by simp [name, snapName]⟩

end Snapshot

/-- A file that was put away is no snapshot file. -/
lemma not_snapExtension_suffix_broken (name : List Char) :
    ¬ snapExtension <:+ name ++ brokenExtension := by
  intro h
  have hlast := h.getLast (by decide)
  rw [List.getLast_append_of_ne_nil _ (by decide)] at hlast
  exact absurd hlast (by decide)

/-! ## Reading one file -/

namespace SnapFormat

variable {f : SnapFormat}

/-- What a snapshot needs to be read back. -/
structure Loadable (f : SnapFormat) (s : Snapshot) : Prop where
  filled : f.snapshot.pack s ≠ []
  short : (f.snapshot.pack s).length < 2 ^ 32
  checked : f.crc (f.snapshot.pack s) ≠ 0

lemma loadSnap_of_broken {content : Bytes} (h : f.Broken content) : f.loadSnap content = none := by
  unfold Broken at h
  split at h
  · rename_i rest
    simp only [loadSnap]
    split_ifs with hzero hshort hcrc
    · rfl
    · rfl
    · rfl
    · simp only [not_or] at hzero
      rcases h with hlen | hcrc' | hless | hne
      · exact absurd hlen hzero.1
      · exact absurd hcrc' hzero.2
      · exact absurd hless hshort
      · exact absurd hne hcrc
  · rename_i hshape
    unfold loadSnap
    split
    · exact absurd rfl (hshape _ _ _ _ _ _ _ _ _)
    · rfl

lemma length_four {xs : Bytes} (h : xs.length = 4) : ∃ a b c d, xs = [a, b, c, d] := by
  obtain ⟨a, rest, rfl⟩ := List.exists_cons_of_length_eq_add_one h
  obtain ⟨b, c, d, rfl⟩ := List.length_eq_three.mp (Nat.succ.inj h)
  exact ⟨a, b, c, d, rfl⟩

/-- The loading of a file behind a header that was written whole. -/
lemma loadSnap_header {len : Nat} (hlen : len < 2 ^ 32) (crc : UInt32) (data : Bytes) :
    f.loadSnap (littleEndian 4 len ++ (littleEndian 4 crc.toNat ++ data)) =
      if len = 0 ∨ crc = 0 then none
      else if data.length < len then none
      else if f.crc (data.take len) ≠ crc then none
      else
        match f.snapshot.unpack (data.take len) with
        | Except.ok snapshot => some snapshot
        | Except.error _ => none := by
  have hreadLen : readLittleEndian (littleEndian 4 len) = len := by
    rw [readLittleEndian_littleEndian, Nat.mod_eq_of_lt (show len < 256 ^ 4 by omega)]
  have hreadCrc : UInt32.ofNat (readLittleEndian (littleEndian 4 crc.toNat)) = crc := by
    have hlt : crc.toNat < 256 ^ 4 := crc.toNat_lt
    rw [readLittleEndian_littleEndian, Nat.mod_eq_of_lt hlt, UInt32.ofNat_toNat]
  obtain ⟨l₀, l₁, l₂, l₃, hl⟩ := length_four (length_littleEndian 4 len)
  obtain ⟨c₀, c₁, c₂, c₃, hc⟩ := length_four (length_littleEndian 4 crc.toNat)
  rw [hl] at hreadLen
  rw [hc] at hreadCrc
  rw [hl, hc]
  simp only [List.cons_append, List.nil_append, loadSnap, hreadLen, hreadCrc]

lemma wrap32_lt (n : Nat) : wrap32 n < 2 ^ 32 := Nat.mod_lt _ (by decide)

/-- A snapshot that can be loaded comes back. -/
theorem Loadable.loadSnap {s : Snapshot} (h : f.Loadable s) (hback : f.snapshot.RoundTrips s) :
    f.loadSnap (f.record s) = some s := by
  have hwrap : wrap32 (f.snapshot.pack s).length = (f.snapshot.pack s).length :=
    Nat.mod_eq_of_lt h.short
  have hsome : (f.snapshot.pack s).length ≠ 0 := fun hzero =>
    h.filled (List.eq_nil_of_length_eq_zero hzero)
  rw [record, hwrap, List.take_length, loadSnap_header h.short, List.take_length,
    if_neg (not_or.mpr ⟨hsome, h.checked⟩), if_neg (Nat.lt_irrefl _), if_neg (not_not.mpr rfl)]
  rw [Codec.RoundTrips] at hback
  rw [hback]

/-- **The file of a snapshot that packs to nothing, to more than the length field holds or to bytes
with checksum 0 is taken for damaged.** -/
theorem loadSnap_record_of_not {s : Snapshot} (hcut : f.snapshot.RefusesCut s)
    (h : ¬ f.Loadable s) : f.loadSnap (f.record s) = none := by
  rw [record, loadSnap_header (wrap32_lt _), List.take_take, Nat.min_self]
  split_ifs with hzero hless hcrc
  · rfl
  · rfl
  · rfl
  · rw [not_or] at hzero
    -- header and checksum fit: only the length was cut to 32 bits
    have hcut' : wrap32 (f.snapshot.pack s).length < (f.snapshot.pack s).length := by
      by_contra hge
      refine h ⟨fun hnil => hzero.1 (by rw [hnil]; rfl), ?_, hzero.2⟩
      exact (Nat.le_of_not_lt hge).trans_lt (wrap32_lt _)
    obtain ⟨err, herr⟩ := hcut _ hcut'
    rw [herr]

end SnapFormat

/-! ## The files of a run -/

namespace SnapFolder

variable {f : SnapFormat} {d d' : SnapFolder} {saves : List Snapshot}

def saveAll (f : SnapFormat) (d : SnapFolder) (saves : List Snapshot) : SnapFolder :=
  saves.foldl (saveSnap f) d

/-- Snapshot files are damaged: the header, the length or the checksum of each no longer fits. -/
def Damages (f : SnapFormat) (d d' : SnapFolder) : Prop :=
  ∀ name, d'.lookup name = d.lookup name ∨
    name ∈ d ∧ snapExtension <:+ name ∧ ∃ content, d'.lookup name = some content ∧ f.Broken content

/-- The file of the snapshot is as it was written. -/
def Intact (f : SnapFormat) (d : SnapFolder) (s : Snapshot) : Prop :=
  d.lookup s.name = some (f.record s)

/-- The snapshot is the last of the intact ones. -/
structure Newest (f : SnapFormat) (saves : List Snapshot) (d : SnapFolder) (s : Snapshot) :
    Prop where
  saved : s ∈ saves
  intact : Intact f d s
  last : ∀ t ∈ saves, Intact f d t → ¬ s.Older t

/-- The snapshot is damaged, and newer than what was loaded if anything was. -/
structure PutAway (f : SnapFormat) (saves : List Snapshot) (d : SnapFolder)
    (result : Option Snapshot) (s : Snapshot) : Prop where
  saved : s ∈ saves
  damaged : ¬ Intact f d s
  newer : ∀ t, result = some t → t.Older s

/-- What loading is for: the newest intact snapshot is returned, the damaged files that are newer
are put away, and every other file stays as it is. -/
structure LoadsNewest (f : SnapFormat) (saves : List Snapshot) (d d' : SnapFolder)
    (result : Option Snapshot) : Prop where
  loaded : ∀ s, result = some s ↔ Newest f saves d s
  notFound : result = none ↔ ∀ s ∈ saves, ¬ Intact f d s
  renamed : ∀ s, PutAway f saves d result s →
    d'.lookup s.name = none ∧ d'.lookup (s.name ++ brokenExtension) = d.lookup s.name
  kept : ∀ name, (∀ s, PutAway f saves d result s →
      name ≠ s.name ∧ name ≠ s.name ++ brokenExtension) →
    d'.lookup name = d.lookup name

/-! ## Loading -/

@[simp] lemma lookup_rename_self {name : List Char} :
    (d.rename name).lookup name = none := by
  unfold rename
  split
  · assumption
  · have hne : name ≠ name ++ brokenExtension := fun h => by
      simpa [brokenExtension] using congrArg List.length h
    rw [AList.lookup_insert_ne hne, AList.lookup_erase]

lemma lookup_rename_broken {name : List Char} (h : name ∈ d) :
    (d.rename name).lookup (name ++ brokenExtension) = d.lookup name := by
  obtain ⟨content, hcontent⟩ := Option.isSome_iff_exists.mp (AList.lookup_isSome.mpr h)
  simp only [rename, hcontent, AList.lookup_insert]

lemma lookup_rename_of_ne {name other : List Char} (hne : other ≠ name)
    (hbroken : other ≠ name ++ brokenExtension) :
    (d.rename name).lookup other = d.lookup other := by
  unfold rename
  split
  · rfl
  · rw [AList.lookup_insert_ne hbroken, AList.lookup_erase_ne hne]

/-- The file cannot be read as a snapshot. -/
def Unreadable (f : SnapFormat) (d : SnapFolder) (name : List Char) : Prop :=
  (d.lookup name).bind f.loadSnap = none

/-- **Loading goes through the names up to the first file that can be read.** -/
theorem loadNames_spec {names : List (List Char)} (hnodup : names.Nodup)
    (hsnap : ∀ name ∈ names, snapExtension <:+ name ∧ name ∈ d) :
    ∃ before after, names = before ++ after ∧
      (∀ name ∈ before, Unreadable f d name) ∧
      ((after = [] ∧ (loadNames f names d).2 = none) ∨
        ∃ name rest s, after = name :: rest ∧ (d.lookup name).bind f.loadSnap = some s ∧
          (loadNames f names d).2 = some s) ∧
      (∀ name ∈ before, (loadNames f names d).1.lookup name = none ∧
        (loadNames f names d).1.lookup (name ++ brokenExtension) = d.lookup name) ∧
      ∀ other, (∀ name ∈ before, other ≠ name ∧ other ≠ name ++ brokenExtension) →
        (loadNames f names d).1.lookup other = d.lookup other := by
  induction names generalizing d with
  | nil => exact ⟨[], [], rfl, by simp, Or.inl ⟨rfl, rfl⟩, by simp, fun _ _ => rfl⟩
  | cons name names ih =>
      rw [List.nodup_cons] at hnodup
      simp only [List.mem_cons, forall_eq_or_imp] at hsnap
      rcases hread : (d.lookup name).bind f.loadSnap with _ | s
      · -- the file is put away; the names behind it are found as they were
        have hstays : ∀ other ∈ names, (d.rename name).lookup other = d.lookup other := by
          intro other hother
          refine lookup_rename_of_ne (fun h => hnodup.1 (h ▸ hother)) fun h => ?_
          exact not_snapExtension_suffix_broken name (h ▸ (hsnap.2 other hother).1)
        have hsnap' : ∀ other ∈ names, snapExtension <:+ other ∧ other ∈ d.rename name := by
          intro other hother
          refine ⟨(hsnap.2 other hother).1, ?_⟩
          rw [← AList.lookup_isSome, hstays other hother, AList.lookup_isSome]
          exact (hsnap.2 other hother).2
        obtain ⟨before, after, rfl, hbefore, hresult, haway, hkept⟩ := ih hnodup.2 hsnap'
        have hload : loadNames f (name :: (before ++ after)) d =
            loadNames f (before ++ after) (d.rename name) := by
          rw [loadNames, hread]
        have hmem : ∀ other ∈ before, other ∈ before ++ after := fun _ =>
          List.mem_append_left after
        rw [hload]
        refine ⟨name :: before, after, rfl, ?_, ?_, ?_, ?_⟩
        · refine List.forall_mem_cons.mpr ⟨hread, fun other hother => ?_⟩
          have := hbefore other hother
          rwa [Unreadable, hstays other (hmem other hother)] at this
        · rcases hresult with hnone | ⟨other, rest, s, rfl, hs, hsome⟩
          · exact Or.inl hnone
          · rw [hstays other (by simp)] at hs
            exact Or.inr ⟨other, rest, s, rfl, hs, hsome⟩
        · refine List.forall_mem_cons.mpr ⟨?_, fun other hother => ?_⟩
          · have hfresh : ∀ other ∈ before,
                name ≠ other ∧ name ≠ other ++ brokenExtension := by
              intro other hother
              refine ⟨fun h => hnodup.1 (h ▸ hmem other hother), fun h => ?_⟩
              exact not_snapExtension_suffix_broken other (h ▸ hsnap.1.1)
            have hfresh' : ∀ other ∈ before, name ++ brokenExtension ≠ other ∧
                name ++ brokenExtension ≠ other ++ brokenExtension := by
              intro other hother
              refine ⟨fun h => ?_, fun h => ?_⟩
              · exact not_snapExtension_suffix_broken name (h ▸ (hsnap.2 _ (hmem _ hother)).1)
              · exact (hfresh other hother).1 (List.append_cancel_right h)
            rw [hkept name hfresh, hkept _ hfresh', lookup_rename_broken hsnap.1.2]
            exact ⟨lookup_rename_self, rfl⟩
          · obtain ⟨hnone, hbroken⟩ := haway other hother
            exact ⟨hnone, hbroken.trans (hstays other (hmem other hother))⟩
        · intro other hother
          rw [List.forall_mem_cons] at hother
          rw [hkept other hother.2, lookup_rename_of_ne hother.1.1 hother.1.2]
      · -- the file can be read
        have hload : loadNames f (name :: names) d = (d, some s) := by rw [loadNames, hread]
        rw [hload]
        exact ⟨[], name :: names, rfl, by simp, Or.inr ⟨name, names, s, rfl, hread, rfl⟩,
          by simp, fun _ _ => rfl⟩

lemma nodup_snapNames (d : SnapFolder) : d.snapNames.Nodup :=
  (List.mergeSort_perm ..).nodup_iff.mpr (d.keys_nodup.filter _)

lemma mem_snapNames {name : List Char} : name ∈ d.snapNames ↔ name ∈ d ∧ snapExtension <:+ name := by
  rw [snapNames, List.mem_mergeSort, List.mem_filter, decide_eq_true_iff, AList.mem_keys]

lemma snapNames_pairwise (d : SnapFolder) : d.snapNames.Pairwise fun a b => b < a := by
  have hsorted : d.snapNames.Pairwise fun a b => decide (b ≤ a) :=
    List.pairwise_mergeSort (by simpa using fun a b c hab hbc => le_trans hbc hab)
      (by simpa using fun a b => le_total b a) _
  refine (hsorted.and (nodup_snapNames d)).imp fun h => ?_
  exact lt_of_le_of_ne (of_decide_eq_true h.1) (Ne.symm h.2)

/-! ## What was saved -/

lemma lookup_saveAll_of_ne {name : List Char} (h : ∀ s ∈ saves, name ≠ s.name) :
    (saveAll f d saves).lookup name = d.lookup name := by
  induction saves generalizing d with
  | nil => rfl
  | cons s saves ih =>
      rw [List.forall_mem_cons] at h
      rw [saveAll, List.foldl_cons]
      exact (ih h.2).trans (AList.lookup_insert_ne h.1)

lemma lookup_saveAll {s : Snapshot} (hdistinct : (saves.map Snapshot.name).Nodup) (hs : s ∈ saves) :
    (saveAll f d saves).lookup s.name = some (f.record s) := by
  induction saves generalizing d with
  | nil => cases hs
  | cons t saves ih =>
      rw [List.map_cons, List.nodup_cons] at hdistinct
      rw [saveAll, List.foldl_cons]
      rcases List.mem_cons.mp hs with rfl | hmem
      · refine (lookup_saveAll_of_ne fun t ht h => ?_).trans (AList.lookup_insert _)
        exact hdistinct.1 (List.mem_map.mpr ⟨t, ht, h.symm⟩)
      · exact ih hdistinct.2 hmem

/-- Different snapshots have different files. -/
lemma nodup_names (hnumbered : ∀ s ∈ saves, s.Numbered)
    (hdistinct : (saves.map fun s => (s.metadata.term, s.metadata.index)).Nodup) :
    (saves.map Snapshot.name).Nodup := by
  rw [List.Nodup, List.pairwise_map] at hdistinct ⊢
  refine hdistinct.imp_of_mem fun {s t} hs ht hne heq => ?_
  rcases Snapshot.older_or_older hne with h | h
  · exact absurd heq (h.name_lt (hnumbered t ht)).ne
  · exact absurd heq (h.name_lt (hnumbered s hs)).ne'

/-- The folder of a run: the files of the saved snapshots, some of them damaged. -/
structure Saved (f : SnapFormat) (saves : List Snapshot) (d : SnapFolder) : Prop where
  numbered : ∀ s ∈ saves, s.Numbered
  names : (saves.map Snapshot.name).Nodup
  file : ∀ s ∈ saves, Intact f d s ∨ ∃ content, d.lookup s.name = some content ∧ f.Broken content
  only : ∀ name ∈ d, snapExtension <:+ name → ∃ s ∈ saves, name = s.name

lemma saved_of_damages {start : SnapFolder} (hnumbered : ∀ s ∈ saves, s.Numbered)
    (hdistinct : (saves.map fun s => (s.metadata.term, s.metadata.index)).Nodup)
    (hstart : ∀ name ∈ start, ¬ snapExtension <:+ name)
    (hdamage : Damages f (saveAll f start saves) d) : Saved f saves d := by
  have hnames := nodup_names hnumbered hdistinct
  refine ⟨hnumbered, hnames, fun s hs => ?_, fun name hname hsuffix => ?_⟩
  · rcases hdamage s.name with hsame | ⟨-, -, content, hcontent, hbroken⟩
    · exact Or.inl (hsame.trans (lookup_saveAll hnames hs))
    · exact Or.inr ⟨content, hcontent, hbroken⟩
  · by_contra hnone
    have hsame : (saveAll f start saves).lookup name = start.lookup name :=
      lookup_saveAll_of_ne fun s hs h => hnone ⟨s, hs, h⟩
    have hmem : name ∈ saveAll f start saves := by
      rcases hdamage name with hsame' | ⟨hmem, -⟩
      · rwa [← AList.lookup_isSome, ← hsame', AList.lookup_isSome]
      · exact hmem
    refine hstart name ?_ hsuffix
    rwa [← AList.lookup_isSome, ← hsame, AList.lookup_isSome]

namespace Saved

variable (h : Saved f saves d)

include h

lemma mem_snapNames_iff {name : List Char} :
    name ∈ d.snapNames ↔ ∃ s ∈ saves, name = s.name := by
  rw [mem_snapNames]
  constructor
  · rintro ⟨hmem, hsuffix⟩
    exact h.only name hmem hsuffix
  · rintro ⟨s, hs, rfl⟩
    refine ⟨?_, s.snapExtension_suffix_name⟩
    rw [← AList.lookup_isSome]
    rcases h.file s hs with hintact | ⟨content, hcontent, -⟩
    · rw [hintact]
      rfl
    · rw [hcontent]
      rfl

lemma unreadable_of_damaged {s : Snapshot} (hs : s ∈ saves) (hnot : ¬ Intact f d s) :
    Unreadable f d s.name := by
  rcases h.file s hs with hintact | ⟨content, hcontent, hbroken⟩
  · exact absurd hintact hnot
  · rw [Unreadable, hcontent]
    exact SnapFormat.loadSnap_of_broken hbroken

/-- A file that can be read holds the snapshot that was saved there. -/
lemma eq_of_readable {s t : Snapshot} (hback : f.snapshot.RoundTrips s)
    (hcut : f.snapshot.RefusesCut s) (hs : s ∈ saves)
    (hread : (d.lookup s.name).bind f.loadSnap = some t) : t = s ∧ Intact f d s ∧ f.Loadable s := by
  by_cases hintact : Intact f d s
  · have hrecord : f.loadSnap (f.record s) = some t := by rwa [hintact] at hread
    by_cases hloadable : f.Loadable s
    · rw [hloadable.loadSnap hback] at hrecord
      exact ⟨(Option.some.inj hrecord).symm, hintact, hloadable⟩
    · rw [SnapFormat.loadSnap_record_of_not hcut hloadable] at hrecord
      cases hrecord
  · rw [h.unreadable_of_damaged hs hintact] at hread
    cases hread

lemma eq_of_name {s t : Snapshot} (hs : s ∈ saves) (ht : t ∈ saves) (heq : s.name = t.name) :
    s = t :=
  List.inj_on_of_nodup_map h.names hs ht heq

lemma exists_newest (hsome : ∃ s ∈ saves, Intact f d s) : ∃ s, Newest f saves d s := by
  classical
  obtain ⟨s, hs, hintact⟩ := hsome
  obtain ⟨u, hu, hmax⟩ := Finset.exists_max_image (saves.toFinset.filter (Intact f d)) Snapshot.name
    ⟨s, by simp [hs, hintact]⟩
  simp only [Finset.mem_filter, List.mem_toFinset] at hu hmax
  refine ⟨u, hu.1, hu.2, fun t ht hintact' holder => ?_⟩
  exact absurd (hmax t ⟨ht, hintact'⟩) (holder.name_lt (h.numbered t ht)).not_ge

lemma newest_unique {s t : Snapshot} (hs : Newest f saves d s) (ht : Newest f saves d t) :
    s = t := by
  refine h.eq_of_name hs.saved ht.saved (le_antisymm ?_ ?_)
  · refine le_of_not_gt fun hlt => ht.last s hs.saved hs.intact ?_
    exact (Snapshot.name_lt_iff (h.numbered t ht.saved) (h.numbered s hs.saved)).mp hlt
  · refine le_of_not_gt fun hlt => hs.last t ht.saved ht.intact ?_
    exact (Snapshot.name_lt_iff (h.numbered s hs.saved) (h.numbered t ht.saved)).mp hlt

end Saved

/-- Only a snapshot that can be read back is loaded. -/
lemma Saved.loadable_of_load (h : Saved f saves d) (hback : ∀ s ∈ saves, f.snapshot.RoundTrips s)
    (hcut : ∀ s ∈ saves, f.snapshot.RefusesCut s) {s : Snapshot} (hload : (d.load f).2 = some s) :
    f.Loadable s := by
  obtain ⟨before, after, hnames, -, hresult, -, -⟩ :=
    loadNames_spec (f := f) (nodup_snapNames d) fun name hname => (mem_snapNames.mp hname).symm
  have hloaded : loadNames f d.snapNames d = d.load f := rfl
  rw [hloaded, hload] at hresult
  rcases hresult with ⟨-, hnone⟩ | ⟨name, rest, t, rfl, hread, ht⟩
  · cases hnone
  · have hmem : name ∈ d.snapNames := by simp [hnames]
    obtain ⟨u, hu, rfl⟩ := h.mem_snapNames_iff.mp hmem
    obtain ⟨rfl, -, hloadable⟩ := h.eq_of_readable (hback u hu) (hcut u hu) hu hread
    cases ht
    exact hloadable

/-- The loading when every newest intact snapshot can be read back. -/
lemma Saved.loadsNewest (h : Saved f saves d) (hback : ∀ s ∈ saves, f.snapshot.RoundTrips s)
    (hcut : ∀ s ∈ saves, f.snapshot.RefusesCut s)
    (hloadable : ∀ s, Newest f saves d s → f.Loadable s) :
    LoadsNewest f saves d (d.load f).1 (d.load f).2 := by
  obtain ⟨before, after, hnames, hbefore, hresult, haway, hkept⟩ :=
    loadNames_spec (f := f) (nodup_snapNames d) fun name hname => (mem_snapNames.mp hname).symm
  have hloaded : loadNames f d.snapNames d = d.load f := rfl
  rw [hloaded] at hresult haway hkept
  have hsaved : ∀ name ∈ d.snapNames, ∃ s ∈ saves, name = s.name := fun name =>
    h.mem_snapNames_iff.mp
  have hlisted : ∀ s ∈ saves, s.name ∈ d.snapNames := fun s hs =>
    h.mem_snapNames_iff.mpr ⟨s, hs, rfl⟩
  have hreads : ∀ s, Newest f saves d s → ¬ Unreadable f d s.name := by
    intro s hs hun
    rw [Unreadable, hs.intact] at hun
    exact absurd (hun.symm.trans ((hloadable s hs).loadSnap (hback s hs.saved))) (by simp)
  rcases hresult with ⟨rfl, hnone⟩ | ⟨name, rest, t, rfl, hread, ht⟩
  · -- no file can be read
    rw [List.append_nil] at hnames
    have hall : ∀ s ∈ saves, s.name ∈ before := fun s hs => hnames ▸ hlisted s hs
    have hnewest : ∀ s, ¬ Newest f saves d s := fun s hs =>
      hreads s hs (hbefore _ (hall s hs.saved))
    have hdamaged : ∀ s ∈ saves, ¬ Intact f d s := fun s hs hintact =>
      (h.exists_newest ⟨s, hs, hintact⟩).elim hnewest
    rw [hnone]
    refine ⟨fun s => ⟨fun heq => (by cases heq), fun hs => absurd hs (hnewest s)⟩,
      ⟨fun _ => hdamaged, fun _ => rfl⟩, fun s hs => haway _ (hall s hs.saved), ?_⟩
    intro name hname
    refine hkept name fun other hother => ?_
    obtain ⟨s, hs, rfl⟩ := hsaved other (hnames ▸ hother)
    exact hname s ⟨hs, hdamaged s hs, fun t heq => by cases heq⟩
  · obtain ⟨s, hs, rfl⟩ := hsaved name (by simp [hnames])
    obtain ⟨rfl, hintact, -⟩ := h.eq_of_readable (hback s hs) (hcut s hs) hs hread
    have hsorted := snapNames_pairwise d
    rw [hnames, List.pairwise_append, List.pairwise_cons] at hsorted
    obtain ⟨-, ⟨hrest, -⟩, hfirst⟩ := hsorted
    have hnewest : Newest f saves d t := by
      obtain ⟨u, hu⟩ := h.exists_newest ⟨t, hs, hintact⟩
      have hmem := hlisted u hu.saved
      rw [hnames, List.mem_append, List.mem_cons] at hmem
      rcases hmem with hmem | heq | hmem
      · exact absurd (hbefore _ hmem) (hreads u hu)
      · exact h.eq_of_name hu.saved hs heq ▸ hu
      · refine absurd ?_ (hu.last t hs hintact)
        exact (Snapshot.name_lt_iff (h.numbered u hu.saved) (h.numbered t hs)).mp (hrest _ hmem)
    -- the names that come before it are those of the newer snapshots
    have hnewer : ∀ u ∈ saves, u.name ∈ before ↔ t.Older u := by
      intro u hu
      rw [← Snapshot.name_lt_iff (h.numbered t hs) (h.numbered u hu)]
      refine ⟨fun hmem => hfirst _ hmem _ (List.mem_cons_self ..), fun hlt => ?_⟩
      have hmem := hlisted u hu
      rw [hnames, List.mem_append, List.mem_cons] at hmem
      rcases hmem with hmem | heq | hmem
      · exact hmem
      · exact absurd hlt (heq ▸ lt_irrefl _)
      · exact absurd hlt (hrest _ hmem).not_gt
    rw [ht]
    refine ⟨fun s => ⟨fun heq => ?_, fun hs => ?_⟩,
      ⟨fun heq => (by cases heq), fun hnone => absurd hintact (hnone t hs)⟩,
      fun u hu => haway _ ((hnewer u hu.saved).mpr (hu.newer t rfl)), fun name hname => ?_⟩
    · cases heq
      exact hnewest
    · rw [h.newest_unique hnewest hs]
    · refine hkept name fun other hother => ?_
      obtain ⟨u, hu, rfl⟩ := hsaved other (by simp [hnames, hother])
      have hlast := (hnewer u hu).mp hother
      refine hname u ⟨hu, fun hintact' => hnewest.last u hu hintact' hlast, fun _ heq => ?_⟩
      cases heq
      exact hlast

/-- **The newest intact snapshot is loaded**, and exactly the damaged files that are newer are put
away, just when that snapshot can be read back. -/
theorem load_newest_iff {start : SnapFolder} (hnumbered : ∀ s ∈ saves, s.Numbered)
    (hdistinct : (saves.map fun s => (s.metadata.term, s.metadata.index)).Nodup)
    (hback : ∀ s ∈ saves, f.snapshot.RoundTrips s) (hcut : ∀ s ∈ saves, f.snapshot.RefusesCut s)
    (hstart : ∀ name ∈ start, ¬ snapExtension <:+ name)
    (hdamage : Damages f (saveAll f start saves) d) :
    LoadsNewest f saves d (d.load f).1 (d.load f).2 ↔
      ∀ s, Newest f saves d s → f.Loadable s := by
  have h := saved_of_damages hnumbered hdistinct hstart hdamage
  refine ⟨fun hloads s hs => ?_, h.loadsNewest hback hcut⟩
  exact h.loadable_of_load hback hcut ((hloads.loaded s).mpr hs)

end SnapFolder

/-! ## The packing of the msgpack library -/

def snapshotFormat : Format Snapshot :=
  (Format.record 2 (Format.seq (Format.blob Header.bin) (Format.record 3 (Format.seq
    (Format.record 2 (Format.seq (Format.list Format.nat) (Format.list Format.nat)))
    (Format.seq Format.nat Format.nat))))).mapWhere
    (fun t => ⟨t.1, ⟨⟨t.2.1.1, t.2.1.2⟩, t.2.2.1, t.2.2.2⟩⟩)
    (fun s => (s.data, (s.metadata.confState.nodes, s.metadata.confState.learners),
      s.metadata.index, s.metadata.term))

lemma snapshotFormat_stable : snapshotFormat.Stable :=
  Format.mapWhere_stable (Format.record_stable _ (Format.seq_stable (Format.blob_stable _)
    (Format.record_stable _ (Format.seq_stable
      (Format.record_stable _ (Format.seq_stable (Format.list_stable Format.nat_stable)
        (Format.list_stable Format.nat_stable)))
      (Format.seq_stable Format.nat_stable Format.nat_stable))))) _ _

def SnapFormat.msgpack : SnapFormat where
  snapshot := Codec.ofFormat snapshotFormat
  crc := crc32

namespace SnapFolder

/-- The snapshot of the tests. -/
def testSnap : Snapshot :=
  { data := [116, 101, 115, 116]
    metadata := { confState := { nodes := [1, 2, 3] }, index := 1, term := 1 } }

def laterSnap : Snapshot :=
  { testSnap with metadata := { testSnap.metadata with index := 0xFFFF, term := 0xFFFF } }

/-- A snapshot whose packed form has the checksum 0. -/
def unchecked : Snapshot :=
  { data := [0, 54, 48, 111]
    metadata := { confState := { nodes := [1] }, index := 1, term := 1 } }

lemma snapshotFormat_fits {s : Snapshot} (hs : s.Numbered) (hdata : s.data.length < 2 ^ 32)
    (hnodes : s.metadata.confState.nodes.length < 2 ^ 32 ∧
      ∀ n ∈ s.metadata.confState.nodes, n < 2 ^ 64)
    (hlearners : s.metadata.confState.learners.length < 2 ^ 32 ∧
      ∀ n ∈ s.metadata.confState.learners, n < 2 ^ 64) : snapshotFormat.Fits s := by
  have hnat : ∀ n < 2 ^ 64, Header.uint.Fits n := fun n hn => Or.inr ⟨(0xcf, 8), by decide, hn⟩
  have hlist : ∀ {ns : List Nat}, ns.length < 2 ^ 32 ∧ (∀ n ∈ ns, n < 2 ^ 64) →
      (Format.list Format.nat).Fits ns := fun hns =>
    ⟨Or.inr ⟨(0xdd, 4), by decide, hns.1⟩, fun n hn => hnat n (hns.2 n hn)⟩
  have harray : ∀ n < 16, Header.array.Fits n := fun n hn => Or.inl hn
  refine ⟨⟨harray 2 (by decide), Or.inr ⟨(0xc6, 4), by decide, hdata⟩, harray 3 (by decide),
    ⟨harray 2 (by decide), hlist hnodes, hlist hlearners⟩, hnat _ hs.index, hnat _ hs.term⟩, rfl⟩

lemma fits_of_mem {s : Snapshot} (hs : s ∈ [testSnap, laterSnap, unchecked]) :
    s.Numbered ∧ snapshotFormat.Fits s := by
  simp only [List.mem_cons, List.not_mem_nil, or_false] at hs
  rcases hs with rfl | rfl | rfl
  all_goals
    refine ⟨⟨by decide, by decide⟩, snapshotFormat_fits ⟨by decide, by decide⟩ (by decide)
      ⟨by decide, by decide⟩ ⟨by decide, by decide⟩⟩

/-- The newer of two files was cut within its header. -/
theorem load_newest_failback :
    let saved : SnapFolder := saveAll SnapFormat.msgpack ∅ [testSnap, laterSnap]
    let d : SnapFolder := saved.insert laterSnap.name [115, 111, 109, 101, 100]
    LoadsNewest SnapFormat.msgpack [testSnap, laterSnap] d (d.load SnapFormat.msgpack).1
      (d.load SnapFormat.msgpack).2 := by
  intro saved d
  have hfits : ∀ s ∈ [testSnap, laterSnap], s.Numbered ∧ snapshotFormat.Fits s := fun s hs =>
    fits_of_mem (List.mem_append_left [unchecked] hs)
  have hdamage : Damages SnapFormat.msgpack saved d := by
    intro name
    by_cases hname : name = laterSnap.name
    · subst hname
      refine Or.inr ⟨?_, laterSnap.snapExtension_suffix_name, _, AList.lookup_insert _, trivial⟩
      exact AList.lookup_isSome.mp (by decide +kernel)
    · exact Or.inl (AList.lookup_insert_ne hname)
  refine (load_newest_iff (fun s hs => (hfits s hs).1) (by decide)
    (fun s hs => Codec.roundTrips_ofFormat _ (hfits s hs).2)
    (fun s hs => Codec.refusesCut_ofFormat snapshotFormat_stable (hfits s hs).2)
    (fun name hname => by cases hname) hdamage).mpr fun s hs => ?_
  have hmem := hs.saved
  simp only [List.mem_cons, List.not_mem_nil, or_false] at hmem
  rcases hmem with rfl | rfl
  · exact ⟨by decide, by decide, by decide +kernel⟩
  · -- the later file is not intact
    have hintact := hs.intact
    rw [Intact, AList.lookup_insert] at hintact
    exact absurd hintact (by decide +kernel)

/-- A snapshot is saved and nothing is damaged: its checksum is 0, and it is put away. -/
theorem load_newest_unchecked :
    let d : SnapFolder := saveAll SnapFormat.msgpack ∅ [unchecked]
    Newest SnapFormat.msgpack [unchecked] d unchecked ∧
      ¬ LoadsNewest SnapFormat.msgpack [unchecked] d (d.load SnapFormat.msgpack).1
        (d.load SnapFormat.msgpack).2 := by
  intro d
  have hfits := fits_of_mem (s := unchecked) (by simp)
  have hnewest : Newest SnapFormat.msgpack [unchecked] d unchecked :=
    ⟨List.mem_cons_self .., AList.lookup_insert _, fun t ht _ => by
      simp [List.mem_singleton.mp ht, Snapshot.Older]⟩
  have h : Saved SnapFormat.msgpack [unchecked] d :=
    saved_of_damages (by simpa using hfits.1) (by simp)
      (fun name (hname : name ∈ (∅ : SnapFolder)) => by cases hname) fun _ => Or.inl rfl
  refine ⟨hnewest, fun hloads => ?_⟩
  have hloadable := h.loadable_of_load
    (List.forall_mem_singleton.mpr (Codec.roundTrips_ofFormat _ hfits.2))
    (List.forall_mem_singleton.mpr (Codec.refusesCut_ofFormat snapshotFormat_stable hfits.2))
    ((hloads.loaded unchecked).mpr hnewest)
  exact hloadable.checked (by decide +kernel)

end SnapFolder

end RaftKv
