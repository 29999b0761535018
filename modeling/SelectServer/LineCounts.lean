import SelectServer.Lib.Loops
import SelectServer.OmokBoard

/- The loop of `CountDirection` without a bound of its own and with its indices
   into the arrays checked, where `countLoop` reads a cell that is never missing.
   The two agree in every round (`walk_countLoop`), so the walk ends and stays on
   the board, and what `HasWinningLine` adds up are lengths of maximal runs. -/
namespace SelectServer
open LineRuns Loops

/-- `m_board[y][x]`, none where an index is negative or past the end of its array. -/
def Board.index (b : Board) (x y : Int) : Option GameStone :=
  if x < 0 ∨ y < 0 then none else (b[y.toNat]?).bind (·[x.toNat]?)

/-- How the walk of `CountDirection` ends. -/
inductive Walked where
  | counted (n : Nat)
  | indexedOutside
  deriving DecidableEq, Repr

structure Walker where
  nextX : Int
  nextY : Int
  count : Nat

namespace OmokGame

/-- One round of the loop of `CountDirection`, with the index into the board checked. -/
def walkRound (g : OmokGame) (stone : GameStone) (dx dy : Int) (w : Walker) :
    Round Walker Walked :=
  if isInside w.nextX w.nextY then
    match g.board.index w.nextX w.nextY with
    | none => .halt .indexedOutside
    | some cell =>
      if cell ≠ stone then .halt (.counted w.count)
      else .next ⟨w.nextX + dx, w.nextY + dy, w.count + 1⟩
  else .halt (.counted w.count)

/-- `CountDirection` for so many rounds; none if it has not returned by then. -/
def walk (g : OmokGame) (stone : GameStone) (x y dx dy : Int) (rounds : Nat) : Option Walked :=
  loop (g.walkRound stone dx dy) rounds ⟨x + dx, y + dy, 0⟩

end OmokGame

/-! ## The index -/

theorem Board.index_inside {b : Board} {x y : Int} (h : isInside x y = true) :
    b.index x y = some (b.cell x y) := by
  have hxy := isInside_iff.mp h
  have hy : y.toNat < boardSize := by simp only [boardSize]; omega
  have hx : x.toNat < boardSize := by simp only [boardSize]; omega
  unfold Board.index Board.cell
  rw [if_neg (by omega), if_pos h, Vector.getElem?_eq_getElem hy, Option.bind_some,
    Vector.getElem?_eq_getElem hx, Option.getD_some]

theorem Board.index_outside {b : Board} {x y : Int} (h : isInside x y ≠ true) :
    b.index x y = none := by
  rw [Ne, isInside_iff] at h
  unfold Board.index
  by_cases hneg : x < 0 ∨ y < 0
  · rw [if_pos hneg]
  · rw [if_neg hneg]
    by_cases hy : y.toNat < boardSize
    · have hx : boardSize ≤ x.toNat := by simp only [boardSize] at hy ⊢; omega
      rw [Vector.getElem?_eq_getElem hy, Option.bind_some, Vector.getElem?_eq_none hx]
    · rw [Vector.getElem?_eq_none (by omega), Option.bind_none]

theorem Board.index_eq_some {b : Board} {x y : Int} {stone : GameStone} :
    b.index x y = some stone ↔ isInside x y = true ∧ b.cell x y = stone := by
  by_cases h : isInside x y = true
  · rw [index_inside h, Option.some.injEq]
    exact ⟨fun hcell => ⟨h, hcell⟩, fun hboth => hboth.2⟩
  · rw [index_outside h]
    constructor
    · intro hnone
      cases hnone
    · intro hboth
      exact absurd hboth.1 h

theorem onLine_iff_index {b : Board} {stone : GameStone} {x y : Int} {d : Int × Int} {k : Int} :
    OnLine b stone x y d k ↔ b.index (x + k * d.1) (y + k * d.2) = some stone :=
  Board.index_eq_some.symm

/-! ## The walk -/

namespace OmokGame

/-- In every number of rounds the walk and `countLoop` are equally far. -/
theorem walk_countLoop (g : OmokGame) (stone : GameStone) (dx dy : Int) (rounds : Nat)
    (w : Walker) : loop (g.walkRound stone dx dy) rounds w =
      (g.countLoop stone dx dy rounds w.nextX w.nextY w.count).map .counted := by
  induction rounds generalizing w with
  | zero => rfl
  | succ rounds ih =>
    rw [countLoop]
    by_cases hinside : isInside w.nextX w.nextY = true
    · rw [if_pos hinside]
      by_cases hother : g.board.cell w.nextX w.nextY ≠ stone
      · have hround : g.walkRound stone dx dy w = .halt (.counted w.count) := by
          rw [walkRound, if_pos hinside, Board.index_inside hinside]
          exact if_pos hother
        rw [loop_halt hround, if_pos hother, Option.map_some]
      · have hround : g.walkRound stone dx dy w =
            .next ⟨w.nextX + dx, w.nextY + dy, w.count + 1⟩ := by
          rw [walkRound, if_pos hinside, Board.index_inside hinside]
          exact if_neg hother
        rw [loop_next hround, if_neg hother]
        exact ih ⟨w.nextX + dx, w.nextY + dy, w.count + 1⟩
    · have hround : g.walkRound stone dx dy w = .halt (.counted w.count) := by
        rw [walkRound, if_neg hinside]
      rw [loop_halt hround, if_neg hinside, Option.map_some]

/-- From an inside cell the walk in any direction is over within fifteen rounds, counts the
    run next to the cell and has indexed nothing outside the board. -/
theorem walk_run {g : OmokGame} {stone : GameStone} {x y : Int} {d : Int × Int}
    (hin : isInside x y = true) (hd : UnitStep d) :
    (∀ rounds, boardSize ≤ rounds → g.walk stone x y d.1 d.2 rounds =
      some (.counted (g.countDirection stone x y d.1 d.2))) ∧
      Run (OnLine g.board stone x y d) (g.countDirection stone x y d.1 d.2) := by
  refine ⟨fun rounds hrounds => ?_, countDirection_run hin hd stone⟩
  obtain ⟨n, hn, -⟩ := @countLoop_run g stone x y d hin hd 15 1 (by omega) (by omega)
    (by intro i h1 h2; omega)
  rw [Nat.cast_one, one_mul, one_mul, Nat.sub_self] at hn
  have hcount : g.countDirection stone x y d.1 d.2 = n := by
    rw [countDirection, hn, Option.getD_some]
  apply loop_mono hrounds
  rw [walk_countLoop, hn, hcount, Option.map_some]

end OmokGame

/-! ## Five in a row over a cell -/

/-- Five consecutive cells of a row, a column, a diagonal or an anti-diagonal, one of
    them `(x, y)`, that all hold `stone`. -/
def Board.FiveThrough (b : Board) (stone : GameStone) (x y : Int) : Prop :=
  ∃ d ∈ [((1, 0) : Int × Int), (0, 1), (1, 1), (1, -1)], ∃ u v : Int,
    (∀ k : Nat, k < 5 → b.index (u + k * d.1) (v + k * d.2) = some stone) ∧
      ∃ k : Nat, k < 5 ∧ u + k * d.1 = x ∧ v + k * d.2 = y

theorem fiveThrough_iff {b : Board} {stone : GameStone} {x y : Int} :
    b.FiveThrough stone x y ↔ ∃ d ∈ OmokGame.directions, ∃ start : Int,
      start ≤ 0 ∧ 0 < start + winLength ∧ Window (OnLine b stone x y d) winLength start := by
  unfold Board.FiveThrough
  refine exists_congr fun d => and_congr_right fun _ => ?_
  constructor
  · intro ⟨u, v, hall, k, hk, hx, hy⟩
    subst hx hy
    refine ⟨-k, by omega, by simp only [winLength]; omega, fun i hlo hhi => ?_⟩
    obtain ⟨j, hj⟩ : ∃ j : Nat, (j : Int) = k + i := ⟨(k + i).toNat, by omega⟩
    rw [onLine_shift, ← hj, onLine_iff_index]
    exact hall j (by simp only [winLength] at hhi; omega)
  · intro ⟨start, hlo, hhi, hw⟩
    refine ⟨x + start * d.1, y + start * d.2, fun k hk => ?_, (-start).toNat,
      by simp only [winLength] at hhi; omega, ?_, ?_⟩
    · rw [← onLine_iff_index, onLine_shift]
      exact hw (start + k) (by omega) (by simp only [winLength]; omega)
    · rw [Int.toNat_of_nonneg (by omega)]
      ring
    · rw [Int.toNat_of_nonneg (by omega)]
      ring

/-- On every board and from every cell that holds `stone`: each of the eight walks returns,
    without an index outside the board, the length of the maximal run next to the cell, and
    the check for a win answers whether five in a row go through the cell. -/
theorem winning_lines_exact (g : OmokGame) (stone : GameStone) (x y : Int)
    (hcell : g.board.index x y = some stone) :
    (∀ d, (d ∈ OmokGame.directions ∨ (-d.1, -d.2) ∈ OmokGame.directions) →
      ∃ n : Nat, g.countDirection stone x y d.1 d.2 = n ∧
        (∀ rounds, boardSize ≤ rounds → g.walk stone x y d.1 d.2 rounds = some (.counted n)) ∧
        (∀ k : Nat, 1 ≤ k → k ≤ n → g.board.index (x + k * d.1) (y + k * d.2) = some stone) ∧
        g.board.index (x + (n + 1) * d.1) (y + (n + 1) * d.2) ≠ some stone) ∧
    (g.hasWinningLine stone x y = true ↔ g.board.FiveThrough stone x y) := by
  obtain ⟨hin, hstone⟩ := Board.index_eq_some.mp hcell
  refine ⟨fun d hd => ?_, ?_⟩
  · have hunit : UnitStep d := by
      cases hd with
      | inl hd => exact directions_unit hd
      | inr hd => simpa using (directions_unit hd).neg
    obtain ⟨hwalk, hrun⟩ := @OmokGame.walk_run g stone x y d hin hunit
    refine ⟨_, rfl, hwalk, fun k h1 h2 => ?_, ?_⟩
    · rw [← onLine_iff_index]
      exact hrun.marked k (by omega) (by omega)
    · rw [Ne, ← onLine_iff_index]
      exact hrun.ends
  · rw [fiveThrough_iff]
    exact hasWinningLine_iff hin hstone

/-- The end of `TestOverlineAndBothDirections`: black at 0 to 5 in one row. -/
def overline : OmokGame where
  board := ([0, 1, 2, 4, 5, 3] : List Int).foldl (fun b x => b.put x 7 .black) emptyBoard

theorem overline_wins : overline.walk .black 3 7 (-1) 0 15 = some (.counted 3) ∧
    overline.board.FiveThrough .black 3 7 := by
  have hexact := winning_lines_exact overline .black 3 7 (by decide)
  refine ⟨?_, hexact.2.mp (by decide)⟩
  obtain ⟨n, hn, hwalk, -⟩ := hexact.1 (-1, 0) (.inr (by decide))
  have hthree : n = 3 := by
    rw [← hn]
    decide
  rw [← hthree]
  exact hwalk 15 (by decide)

end SelectServer
