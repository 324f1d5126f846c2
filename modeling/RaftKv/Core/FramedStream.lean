import RaftKv.Core.RecordLog

/-!
# Streams of frames

A frame is a header of a fixed length, which says how long the body is, and the body.  The reader of a
stream is given its elements in portions of any size, and hands every frame to a handler once it is
complete.

* `Framing.feed` — the reader.
* `Framing.feed_frame`, `feed_part` — what it makes of a frame, and of a part of one.
* `Framing.feed_take` — **of a stream that is cut anywhere**, the handler is given the frames that lie
  wholly in what was read.
-/

namespace RaftKv

structure Frame (β : Type) where
  header : List β
  body : List β
  deriving DecidableEq, Repr

def Frame.bytes {β : Type} (f : Frame β) : List β := f.header ++ f.body

/-- How the frames of a stream are told apart. -/
structure Framing (β : Type) where
  headerLen : Nat
  header_pos : 0 < headerLen
  bodyLen : List β → Nat

/-- What has been read of a frame. -/
inductive Reading (β : Type) where
  | header (got : List β)
  | body (header got : List β)
  deriving DecidableEq, Repr

namespace Framing

open RecordReader

variable {β σ ε : Type} (fr : Framing β) (handle : σ → Frame β → Except ε σ)

/-- The frame is one that the reader recognises. -/
structure Fits (f : Frame β) : Prop where
  header : f.header.length = fr.headerLen
  body : f.body.length = fr.bodyLen f.header

/-- A header is complete: an empty body is complete with it. -/
def enter (header : List β) (s : σ) : Except ε (Reading β × σ) :=
  if fr.bodyLen header = 0 then do
    let s ← handle s { header := header, body := [] }
    return (Reading.header [], s)
  else pure (Reading.body header [], s)

/-- Read one element. -/
def next (s : Reading β × σ) (b : β) : Except ε (Reading β × σ) :=
  match s.1 with
  | Reading.header got =>
      if got.length + 1 < fr.headerLen then pure (Reading.header (got ++ [b]), s.2)
      else fr.enter handle (got ++ [b]) s.2
  | Reading.body header got =>
      if got.length + 1 < fr.bodyLen header then pure (Reading.body header (got ++ [b]), s.2)
      else do
        let s ← handle s.2 { header := header, body := got ++ [b] }
        return (Reading.header [], s)

/-- Read on. -/
def feed (s : Reading β × σ) (bs : List β) : Except ε (Reading β × σ) :=
  bs.foldlM (fr.next handle) s

variable {fr handle} {f : Frame β} {frames : List (Frame β)} {s s' : σ}

lemma Fits.header_ne_nil (hf : fr.Fits f) : f.header ≠ [] := by
  intro hnil
  have hlen := hf.header
  have hpos := fr.header_pos
  rw [hnil, List.length_nil] at hlen
  omega

lemma feed_append (p : Reading β × σ) (as bs : List β) :
    fr.feed handle p (as ++ bs) = (fr.feed handle p as).bind fun p => fr.feed handle p bs :=
  List.foldlM_append

/-- A part of a header. -/
lemma feed_header_part (s : σ) {got more : List β} (h : got.length + more.length < fr.headerLen) :
    fr.feed handle (Reading.header got, s) more = Except.ok (Reading.header (got ++ more), s) := by
  induction more generalizing got with
  | nil =>
      rw [List.append_nil]
      rfl
  | cons b more ih =>
      rw [List.length_cons] at h
      have hnext : fr.next handle (Reading.header got, s) b =
          Except.ok (Reading.header (got ++ [b]), s) := by
        rw [next]
        exact if_pos (by omega)
      rw [feed, List.foldlM_cons, hnext]
      refine (ih ?_).trans (by simp)
      rw [List.length_append, List.length_singleton]
      omega

/-- The rest of a header. -/
lemma feed_header (s : σ) {got more : List β} (hmore : more ≠ [])
    (h : got.length + more.length = fr.headerLen) :
    fr.feed handle (Reading.header got, s) more = fr.enter handle (got ++ more) s := by
  obtain ⟨front, b, rfl⟩ := (List.eq_nil_or_concat' more).resolve_left hmore
  rw [List.length_append, List.length_singleton] at h
  rw [feed_append, feed_header_part s (by omega)]
  show fr.feed handle (Reading.header (got ++ front), s) [b] = _
  have hlen : (got ++ front).length + 1 = fr.headerLen := by
    rw [List.length_append]
    omega
  rw [feed, List.foldlM_cons, next]
  dsimp only
  rw [if_neg (by omega), List.append_assoc]
  exact bind_pure _

/-- A part of a body. -/
lemma feed_body_part (s : σ) {header got more : List β}
    (h : got.length + more.length < fr.bodyLen header) :
    fr.feed handle (Reading.body header got, s) more =
      Except.ok (Reading.body header (got ++ more), s) := by
  induction more generalizing got with
  | nil =>
      rw [List.append_nil]
      rfl
  | cons b more ih =>
      rw [List.length_cons] at h
      have hnext : fr.next handle (Reading.body header got, s) b =
          Except.ok (Reading.body header (got ++ [b]), s) := by
        rw [next]
        exact if_pos (by omega)
      rw [feed, List.foldlM_cons, hnext]
      refine (ih ?_).trans (by simp)
      rw [List.length_append, List.length_singleton]
      omega

/-- The rest of a body: the frame is handled. -/
lemma feed_body (s : σ) {header got more : List β} (hmore : more ≠ [])
    (h : got.length + more.length = fr.bodyLen header) :
    fr.feed handle (Reading.body header got, s) more =
      (handle s { header := header, body := got ++ more }).map fun s => (Reading.header [], s) := by
  obtain ⟨front, b, rfl⟩ := (List.eq_nil_or_concat' more).resolve_left hmore
  rw [List.length_append, List.length_singleton] at h
  rw [feed_append, feed_body_part s (by omega)]
  show fr.feed handle (Reading.body header (got ++ front), s) [b] = _
  have hlen : (got ++ front).length + 1 = fr.bodyLen header := by
    rw [List.length_append]
    omega
  rw [feed, List.foldlM_cons, next]
  dsimp only
  rw [if_neg (by omega), List.append_assoc]
  cases handle s { header := header, body := got ++ (front ++ [b]) } with
  | error e => rfl
  | ok s => rfl

/-- **A frame is handed to the handler.** -/
theorem feed_frame (hf : fr.Fits f) (s : σ) :
    fr.feed handle (Reading.header [], s) f.bytes =
      (handle s f).map fun s => (Reading.header [], s) := by
  rw [Frame.bytes, feed_append, feed_header s hf.header_ne_nil (by rw [List.length_nil, hf.header]; omega),
    List.nil_append, enter]
  by_cases hzero : fr.bodyLen f.header = 0
  · have hnil : f.body = [] := List.eq_nil_of_length_eq_zero (hf.body.trans hzero)
    have heta : ({ header := f.header, body := [] } : Frame β) = f := by rw [← hnil]
    rw [if_pos hzero, hnil, heta]
    cases handle s f with
    | error e => rfl
    | ok s => rfl
  · rw [if_neg hzero]
    have hbody : f.body ≠ [] := fun hnil => hzero (by rw [← hf.body, hnil]; rfl)
    exact feed_body s hbody (by rw [List.length_nil, hf.body]; omega)

/-- **Of a part of a frame** nothing is handed over. -/
theorem feed_part (hf : fr.Fits f) (s : σ) {n : Nat} (hn : n < f.bytes.length) :
    ∃ r, fr.feed handle (Reading.header [], s) (f.bytes.take n) = Except.ok (r, s) := by
  have hlen : f.bytes.length = fr.headerLen + f.body.length := by
    rw [Frame.bytes, List.length_append, hf.header]
  rcases Nat.lt_or_ge n fr.headerLen with hlt | hge
  · refine ⟨Reading.header (f.bytes.take n), ?_⟩
    refine feed_header_part s ?_
    rw [List.length_nil, List.length_take]
    omega
  · have hsplit : f.bytes.take n = f.header ++ f.body.take (n - fr.headerLen) := by
      rw [Frame.bytes, List.take_append, hf.header, List.take_of_length_le (by rw [hf.header]; exact hge)]
    have hsome : fr.bodyLen f.header ≠ 0 := by
      rw [← hf.body]
      omega
    refine ⟨Reading.body f.header (f.body.take (n - fr.headerLen)), ?_⟩
    rw [hsplit, feed_append, feed_header s hf.header_ne_nil (by rw [List.length_nil, hf.header]; omega),
      List.nil_append, enter, if_neg hsome]
    exact feed_body_part s (by rw [List.length_nil, List.length_take, ← hf.body]; omega)

/-- **Of a stream that is cut anywhere**, the handler is given the frames that lie wholly in what was
read. -/
theorem feed_take (hfits : ∀ f ∈ frames, fr.Fits f) (n : Nat)
    (hfold : (whole Frame.bytes n frames).foldlM handle s = Except.ok s') :
    ∃ r, fr.feed handle (Reading.header [], s) ((frames.flatMap Frame.bytes).take n) =
      Except.ok (r, s') := by
  induction frames generalizing n s with
  | nil =>
      cases hfold
      refine ⟨Reading.header [], ?_⟩
      rw [List.flatMap_nil, List.take_nil]
      rfl
  | cons f frames ih =>
      obtain ⟨hf, hfits⟩ := List.forall_mem_cons.mp hfits
      rw [List.flatMap_cons]
      rcases Nat.lt_or_ge n f.bytes.length with hlt | hge
      · rw [whole, if_neg (Nat.not_le.mpr hlt)] at hfold
        cases hfold
        rw [List.take_append_of_le_length (Nat.le_of_lt hlt)]
        exact feed_part hf _ hlt
      · rw [whole_cons_of_le hge, List.foldlM_cons] at hfold
        cases hhandle : handle s f with
        | error e =>
            rw [hhandle] at hfold
            cases hfold
        | ok s₁ =>
            rw [hhandle] at hfold
            obtain ⟨r, hr⟩ := ih hfits (n - f.bytes.length) hfold
            refine ⟨r, ?_⟩
            rw [List.take_append, List.take_of_length_le hge, feed_append, feed_frame hf, hhandle]
            exact hr

end Framing

end RaftKv
