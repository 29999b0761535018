import Mathlib.Data.List.Basic

/- Streams that are cut into frames. The header of a frame says how long the frame
   is, and some headers are refused. `parse` is the reference: from left to right it
   takes one frame after the other off the stream, until what is left is no whole
   frame or begins with a refused header.

   A stream can be parsed as it comes in. Of what has come it is enough to keep the
   unfinished end (`parse_append`), which is shorter than a frame
   (`Incomplete.length_lt`); and one more chunk completes at most one frame of which
   bytes were kept (`Incomplete.frames_lt`). What frames were joined to, of which
   only a part has come in, parses to the first of them (`parse_prefix`). -/
namespace Framing
universe u
variable {α : Type u}

structure Format (α : Type u) where
  headerSize : Nat
  maxSize : Nat
  /-- The length of the frame at the front; none if its header is refused. -/
  total : List α → Option Nat
  header_pos : 0 < headerSize
  header_le_max : headerSize ≤ maxSize
  /-- The header alone decides. -/
  total_append : ∀ s t, headerSize ≤ s.length → total (s ++ t) = total s
  total_bounds : ∀ s n, total s = some n → headerSize ≤ n ∧ n ≤ maxSize

/-- How a stream ends: in bytes that are no whole frame, or at a refused header. -/
inductive Ending (α : Type u) where
  | kept (rest : List α)
  | broken
  deriving DecidableEq, Repr

structure Parsed (α : Type u) where
  frames : List (List α)
  ending : Ending α
  deriving DecidableEq, Repr

def Parsed.cons (frame : List α) (p : Parsed α) : Parsed α := ⟨frame :: p.frames, p.ending⟩

namespace Format
variable (fmt : Format α)

def parse (stream : List α) : Parsed α :=
  if stream.length < fmt.headerSize then ⟨[], .kept stream⟩
  else
    match _h : fmt.total stream with
    | none => ⟨[], .broken⟩
    | some n =>
      if stream.length < n then ⟨[], .kept stream⟩
      else (parse (stream.drop n)).cons (stream.take n)
termination_by stream.length
decreasing_by
  -- a frame has a header, so what follows it is shorter
  have hn := (fmt.total_bounds _ _ _h).1
  have hpos := fmt.header_pos
  rw [List.length_drop]
  omega

/-- One whole frame. -/
def IsFrame (frame : List α) : Prop := fmt.total frame = some frame.length

/-- The beginning of a frame, or nothing. -/
def Incomplete (s : List α) : Prop :=
  fmt.headerSize ≤ s.length → ∃ n, fmt.total s = some n ∧ s.length < n

/-- A header that is refused, and anything after it. -/
def Refused (s : List α) : Prop := fmt.headerSize ≤ s.length ∧ fmt.total s = none

/-- What `parse` makes of a stream, step by step. -/
inductive Parses : List α → Parsed α → Prop
  | incomplete {s : List α} (h : fmt.Incomplete s) : Parses s ⟨[], .kept s⟩
  | refused {s : List α} (h : fmt.Refused s) : Parses s ⟨[], .broken⟩
  | frame {frame s : List α} {p : Parsed α} (h : fmt.IsFrame frame) (rest : Parses s p) :
      Parses (frame ++ s) (p.cons frame)

/-- The result after the stream has gone on with `more`. -/
def resume (p : Parsed α) (more : List α) : Parsed α :=
  match p.ending with
  | .kept rest => ⟨p.frames ++ (fmt.parse (rest ++ more)).frames, (fmt.parse (rest ++ more)).ending⟩
  | .broken => p

variable {fmt} {s t frame rest more : List α} {p : Parsed α}

theorem IsFrame.length_ge (h : fmt.IsFrame frame) : fmt.headerSize ≤ frame.length :=
  (fmt.total_bounds _ _ h).1

theorem IsFrame.total_append (h : fmt.IsFrame frame) (s : List α) :
    fmt.total (frame ++ s) = some frame.length :=
  (fmt.total_append frame s h.length_ge).trans h

/-- What a valid header announces is a frame, if it has all come. -/
theorem isFrame_take {n : Nat} (htotal : fmt.total s = some n) (hn : n ≤ s.length) :
    fmt.IsFrame (s.take n) := by
  have hlength : (s.take n).length = n := List.length_take_of_le hn
  have hheader := (fmt.total_bounds _ _ htotal).1
  have hsplit := fmt.total_append (s.take n) (s.drop n) (by omega)
  rw [List.take_append_drop, htotal] at hsplit
  rw [IsFrame, hlength]
  exact hsplit.symm

theorem Refused.append (h : fmt.Refused s) (t : List α) : fmt.Refused (s ++ t) := by
  refine ⟨?_, (fmt.total_append s t h.1).trans h.2⟩
  rw [List.length_append]
  have := h.1
  omega

theorem incomplete_nil : fmt.Incomplete [] := by
  intro h
  have hpos := fmt.header_pos
  rw [List.length_nil] at h
  omega

theorem Incomplete.length_lt (h : fmt.Incomplete s) : s.length < fmt.maxSize := by
  by_cases hs : fmt.headerSize ≤ s.length
  · obtain ⟨n, htotal, hn⟩ := h hs
    have hmax := (fmt.total_bounds _ _ htotal).2
    omega
  · have hmax := fmt.header_le_max
    omega

/-! ## The three cases of `parse` -/

theorem parse_incomplete (h : fmt.Incomplete s) : fmt.parse s = ⟨[], .kept s⟩ := by
  rw [parse]
  split
  · rfl
  rename_i hs
  obtain ⟨n, htotal, hn⟩ := h (by omega)
  split
  · rename_i hnone
    rw [htotal] at hnone
    cases hnone
  · rename_i n' hsome
    rw [htotal] at hsome
    cases hsome
    rw [if_pos hn]

theorem parse_refused (h : fmt.Refused s) : fmt.parse s = ⟨[], .broken⟩ := by
  obtain ⟨hs, htotal⟩ := h
  rw [parse, if_neg (by omega)]
  split
  · rfl
  · rename_i n hsome
    rw [htotal] at hsome
    cases hsome

theorem parse_frame (h : fmt.IsFrame frame) (s : List α) :
    fmt.parse (frame ++ s) = (fmt.parse s).cons frame := by
  have htotal := h.total_append s
  have hlength := h.length_ge
  rw [parse, List.length_append, if_neg (by omega)]
  split
  · rename_i hnone
    rw [htotal] at hnone
    cases hnone
  · rename_i n hsome
    rw [htotal] at hsome
    cases hsome
    rw [if_neg (by omega), List.drop_left, List.take_left]

theorem parses (s : List α) : fmt.Parses s (fmt.parse s) := by
  fun_induction fmt.parse s with
  | case1 s hs => exact .incomplete fun h => absurd hs (by omega)
  | case2 s hs htotal => exact .refused ⟨by omega, htotal⟩
  | case3 s hs n htotal hn => exact .incomplete fun _ => ⟨n, htotal, hn⟩
  | case4 s hs n htotal hn ih =>
    have hparses := Parses.frame (isFrame_take htotal (by omega)) ih
    rwa [List.take_append_drop] at hparses

/-! ## A stream that comes in piece by piece -/

/-- It is enough to keep what was left over. -/
theorem parse_append (s t : List α) : fmt.parse (s ++ t) = fmt.resume (fmt.parse s) t := by
  have h := fmt.parses s
  generalize fmt.parse s = p at h
  induction h with
  | incomplete h => rfl
  | refused h => exact parse_refused (h.append t)
  | @frame frame s p h _ ih =>
    rw [List.append_assoc, parse_frame h, ih]
    cases hp : p.ending with
    | kept rest => simp [resume, Parsed.cons, hp]
    | broken => simp [resume, Parsed.cons, hp]

theorem Parses.kept (h : fmt.Parses s p) (hp : p.ending = .kept rest) :
    fmt.Incomplete rest ∧ s = p.frames.flatten ++ rest := by
  induction h with
  | incomplete h =>
    cases hp
    exact ⟨h, rfl⟩
  | refused h => cases hp
  | frame h _ ih =>
    obtain ⟨hrest, e⟩ := ih hp
    refine ⟨hrest, ?_⟩
    rw [e]
    simp [Parsed.cons]

theorem parse_kept (h : (fmt.parse s).ending = .kept rest) :
    fmt.Incomplete rest ∧ s = (fmt.parse s).frames.flatten ++ rest :=
  (fmt.parses s).kept h

/-- A frame is at least as long as its header. -/
theorem Parses.frames_le (h : fmt.Parses s p) : p.frames.length * fmt.headerSize ≤ s.length := by
  induction h with
  | incomplete h => simp
  | refused h => simp
  | @frame frame s p h _ ih =>
    have hlength := h.length_ge
    show (p.frames.length + 1) * fmt.headerSize ≤ (frame ++ s).length
    rw [List.length_append, Nat.succ_mul]
    omega

/-- A chunk completes the frame that was begun; every other frame is in the chunk, with at least one
element of the first. -/
theorem Incomplete.frames_lt (h : fmt.Incomplete rest) (more : List α)
    (hsome : (fmt.parse (rest ++ more)).frames ≠ []) :
    ((fmt.parse (rest ++ more)).frames.length - 1) * fmt.headerSize < more.length := by
  have hparses := fmt.parses (rest ++ more)
  generalize hs : rest ++ more = s at hparses hsome ⊢
  generalize fmt.parse s = p at hparses hsome ⊢
  cases hparses with
  | incomplete => exact absurd rfl hsome
  | refused => exact absurd rfl hsome
  | @frame frame s p hframe hrest =>
    have hlonger : rest.length < frame.length := by
      have hheader := hframe.length_ge
      by_cases hlt : fmt.headerSize ≤ rest.length
      · obtain ⟨n, htotal, hn⟩ := h hlt
        have hsame := hframe.total_append s
        rw [← hs, fmt.total_append rest more hlt, htotal] at hsame
        cases hsame
        exact hn
      · omega
    have hcount := hrest.frames_le
    have hlength := congrArg List.length hs
    rw [List.length_append, List.length_append] at hlength
    show (p.frames.length + 1 - 1) * fmt.headerSize < more.length
    rw [Nat.add_sub_cancel]
    omega

/-! ## Frames that were joined -/

theorem parse_flatten (frames : List (List α)) :
    (∀ frame ∈ frames, fmt.IsFrame frame) → fmt.parse frames.flatten = ⟨frames, .kept []⟩ := by
  induction frames with
  | nil =>
    intro _
    exact parse_incomplete incomplete_nil
  | cons frame frames ih =>
    intro h
    obtain ⟨hframe, hframes⟩ := List.forall_mem_cons.mp h
    rw [List.flatten_cons, parse_frame hframe, ih hframes]
    rfl

/-- What has come in of joined frames parses to the first of them, and to all when all has come. -/
theorem parse_prefix {frames : List (List α)} (hframes : ∀ frame ∈ frames, fmt.IsFrame frame)
    (h : s ++ t = frames.flatten) :
    ∃ rest later, fmt.parse s = ⟨(fmt.parse s).frames, .kept rest⟩ ∧
      frames = (fmt.parse s).frames ++ later ∧ (t = [] → later = []) := by
  have hall := parse_flatten frames hframes
  rw [← h, parse_append] at hall
  cases hs : (fmt.parse s).ending with
  | broken =>
    have hstill : fmt.resume (fmt.parse s) t = fmt.parse s := by simp only [resume, hs]
    rw [← hstill, hall] at hs
    cases hs
  | kept rest =>
    rw [resume, hs] at hall
    refine ⟨rest, (fmt.parse (rest ++ t)).frames, by rw [← hs],
      (congrArg Parsed.frames hall).symm, ?_⟩
    rintro rfl
    rw [List.append_nil, parse_incomplete (parse_kept hs).1]

end Format
end Framing
