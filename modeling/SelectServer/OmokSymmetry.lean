import SelectServer.OmokHistory

/- The rules know no direction: a game that is played in a mirror is the mirror of
   the game (`mirrored_games`). The eight symmetries of the board take lines to
   lines, if not each of the four `directions` to one of them, and a count both
   ways does not see which way a line is walked (`Lined.flip`). -/
namespace SelectServer
open LineRuns

/-- A symmetry of the board: the axes are swapped or not, and then each is reversed or not. -/
structure Symmetry where
  swap : Bool
  flipX : Bool
  flipY : Bool
  deriving DecidableEq, Repr

namespace Symmetry

def point (σ : Symmetry) (p : Int × Int) : Int × Int :=
  let p := if σ.swap then (p.2, p.1) else p
  (if σ.flipX then boardSize - 1 - p.1 else p.1, if σ.flipY then boardSize - 1 - p.2 else p.2)

/-- What becomes of a direction. -/
def step (σ : Symmetry) (d : Int × Int) : Int × Int :=
  let d := if σ.swap then (d.2, d.1) else d
  (if σ.flipX then -d.1 else d.1, if σ.flipY then -d.2 else d.2)

def inverse (σ : Symmetry) : Symmetry :=
  if σ.swap then { σ with flipX := σ.flipY, flipY := σ.flipX } else σ

variable (σ : Symmetry)

theorem inverse_point (p : Int × Int) : σ.inverse.point (σ.point p) = p := by
  obtain ⟨swap, flipX, flipY⟩ := σ
  cases swap <;> cases flipX <;> cases flipY <;> simp [inverse, point]

theorem point_inverse (p : Int × Int) : σ.point (σ.inverse.point p) = p := by
  obtain ⟨swap, flipX, flipY⟩ := σ
  cases swap <;> cases flipX <;> cases flipY <;> simp [inverse, point]

theorem point_inj {p q : Int × Int} (h : σ.point p = σ.point q) : p = q := by
  rw [← σ.inverse_point p, h, σ.inverse_point]

theorem inside_point (p : Int × Int) :
    isInside (σ.point p).1 (σ.point p).2 = isInside p.1 p.2 := by
  rw [Bool.eq_iff_iff, isInside_iff, isInside_iff]
  obtain ⟨swap, flipX, flipY⟩ := σ
  cases swap <;> cases flipX <;> cases flipY <;> simp [point] <;> omega

/-- A walk in the mirror. -/
theorem point_walk (x y k : Int) (d : Int × Int) :
    σ.point (x + k * d.1, y + k * d.2) =
      ((σ.point (x, y)).1 + k * (σ.step d).1, (σ.point (x, y)).2 + k * (σ.step d).2) := by
  obtain ⟨swap, flipX, flipY⟩ := σ
  cases swap <;> cases flipX <;> cases flipY <;> simp [point, step] <;> ring_nf <;> simp

/-- Each of the four directions becomes one of them, walked forwards or backwards. -/
theorem step_directions {d : Int × Int} (h : d ∈ OmokGame.directions) :
    ∃ d' ∈ OmokGame.directions, σ.step d = d' ∨ σ.step d = (-d'.1, -d'.2) := by
  obtain ⟨swap, flipX, flipY⟩ := σ
  revert d
  cases swap <;> cases flipX <;> cases flipY <;> decide

end Symmetry

/-! ## Lines in the mirror -/

/-- Five on the line `d` through `(x, y)`, one of them there. -/
def Lined (b : Board) (stone : GameStone) (x y : Int) (d : Int × Int) : Prop :=
  ∃ start : Int, start ≤ 0 ∧ 0 < start + winLength ∧ Window (OnLine b stone x y d) winLength start

/-- The other way along the same line. -/
theorem Lined.flip {b : Board} {stone : GameStone} {x y : Int} {d : Int × Int}
    (h : Lined b stone x y d) : Lined b stone x y (-d.1, -d.2) := by
  obtain ⟨start, hlo, hhi, hw⟩ := h
  refine ⟨1 - start - winLength, by omega, by omega, fun k h1 h2 => ?_⟩
  have hk := hw.flip k h1 h2
  unfold OnLine at hk ⊢
  dsimp only at hk ⊢
  rw [Int.neg_mul] at hk
  rw [Int.mul_neg, Int.mul_neg]
  rw [Int.neg_mul] at hk
  exact hk

/-- `b'` is `b` in the mirror. -/
def Board.Mirrored (σ : Symmetry) (b b' : Board) : Prop :=
  ∀ p : Int × Int, b'.cell (σ.point p).1 (σ.point p).2 = b.cell p.1 p.2

namespace Board.Mirrored
variable {σ : Symmetry} {b b' : Board} {stone : GameStone} {x y : Int} {d : Int × Int}

theorem symm (h : Board.Mirrored σ b b') : Board.Mirrored σ.inverse b' b := by
  intro p
  rw [← h, σ.point_inverse]

theorem empty (σ : Symmetry) : Board.Mirrored σ emptyBoard emptyBoard := by
  intro p
  rw [emptyBoard_cell, emptyBoard_cell]

theorem put (h : Board.Mirrored σ b b') (hin : isInside x y = true) (stone : GameStone) :
    Board.Mirrored σ (b.put x y stone) (b'.put (σ.point (x, y)).1 (σ.point (x, y)).2 stone) := by
  intro p
  have hin' : isInside (σ.point (x, y)).1 (σ.point (x, y)).2 = true := by
    rw [σ.inside_point]
    exact hin
  rw [Board.cell_put hin', Board.cell_put hin, h]
  by_cases hp : p.1 = x ∧ p.2 = y
  · have hsame : p = (x, y) := Prod.ext hp.1 hp.2
    rw [if_pos hp, if_pos (by rw [hsame]; exact ⟨rfl, rfl⟩)]
  · rw [if_neg hp, if_neg]
    intro hsame
    have e := σ.point_inj (Prod.ext hsame.1 hsame.2)
    rw [e] at hp
    exact hp ⟨rfl, rfl⟩

theorem onLine (h : Board.Mirrored σ b b') (k : Int) :
    OnLine b' stone (σ.point (x, y)).1 (σ.point (x, y)).2 (σ.step d) k ↔
      OnLine b stone x y d k := by
  have hwalk := σ.point_walk x y k d
  have h1 : (σ.point (x, y)).1 + k * (σ.step d).1 = (σ.point (x + k * d.1, y + k * d.2)).1 := by
    rw [hwalk]
  have h2 : (σ.point (x, y)).2 + k * (σ.step d).2 = (σ.point (x + k * d.1, y + k * d.2)).2 := by
    rw [hwalk]
  unfold OnLine
  rw [h1, h2, σ.inside_point, h]

theorem five (h : Board.Mirrored σ b b')
    (hfive : ∃ d ∈ OmokGame.directions, Lined b stone x y d) :
    ∃ d ∈ OmokGame.directions, Lined b' stone (σ.point (x, y)).1 (σ.point (x, y)).2 d := by
  obtain ⟨d, hd, start, hlo, hhi, hw⟩ := hfive
  have hlined : Lined b' stone (σ.point (x, y)).1 (σ.point (x, y)).2 (σ.step d) :=
    ⟨start, hlo, hhi, fun k h1 h2 => (h.onLine k).mpr (hw k h1 h2)⟩
  obtain ⟨d', hd', e⟩ := σ.step_directions hd
  refine ⟨d', hd', ?_⟩
  cases e with
  | inl e =>
    rw [e] at hlined
    exact hlined
  | inr e =>
    rw [e] at hlined
    have hback := hlined.flip
    simpa using hback

end Board.Mirrored

/-! ## Games in the mirror -/

namespace OmokGame

/-- `g'` is `g` in the mirror. -/
structure Mirrored (σ : Symmetry) (g g' : OmokGame) : Prop where
  board : Board.Mirrored σ g.board g'.board
  status : g'.status = g.status
  nextTurn : g'.nextTurn = g.nextTurn
  moveCount : g'.moveCount = g.moveCount

variable {σ : Symmetry} {g g' : OmokGame} {stone : GameStone} {x y : Int}

theorem Mirrored.hasWinningLine (h : Mirrored σ g g') (hin : isInside x y = true)
    (hcell : g.board.cell x y = stone) :
    g'.hasWinningLine stone (σ.point (x, y)).1 (σ.point (x, y)).2 = g.hasWinningLine stone x y := by
  have hin' : isInside (σ.point (x, y)).1 (σ.point (x, y)).2 = true := by
    rw [σ.inside_point]
    exact hin
  have hcell' : g'.board.cell (σ.point (x, y)).1 (σ.point (x, y)).2 = stone := by
    rw [h.board]
    exact hcell
  rw [Bool.eq_iff_iff, hasWinningLine_iff hin hcell, hasWinningLine_iff hin' hcell']
  constructor
  · intro hfive
    have hback := h.board.symm.five hfive
    have hpoint : σ.inverse.point ((σ.point (x, y)).1, (σ.point (x, y)).2) = (x, y) :=
      σ.inverse_point (x, y)
    rw [hpoint] at hback
    exact hback
  · exact h.board.five

theorem Mirrored.tryPlaceStone (h : Mirrored σ g g') (stone : GameStone) (x y : Int) :
    (g'.tryPlaceStone stone (σ.point (x, y)).1 (σ.point (x, y)).2).1 =
        (g.tryPlaceStone stone x y).1 ∧
      Mirrored σ (g.tryPlaceStone stone x y).2
        (g'.tryPlaceStone stone (σ.point (x, y)).1 (σ.point (x, y)).2).2 := by
  have hinside := σ.inside_point (x, y)
  have hcell := h.board (x, y)
  unfold OmokGame.tryPlaceStone
  rw [h.status, h.nextTurn, hinside, hcell, h.moveCount]
  dsimp only
  split
  · exact ⟨rfl, h⟩
  split
  · exact ⟨rfl, h⟩
  split
  · exact ⟨rfl, h⟩
  rename_i hin
  have hin : isInside x y = true := by simpa using hin
  split
  · exact ⟨rfl, h⟩
  split
  · exact ⟨rfl, h⟩
  have hput : Mirrored σ { g with board := g.board.put x y stone, moveCount := g.moveCount + 1 }
      { g' with
        board := g'.board.put (σ.point (x, y)).1 (σ.point (x, y)).2 stone
        moveCount := g.moveCount + 1 } :=
    ⟨h.board.put hin stone, h.status, h.nextTurn, rfl⟩
  have hwin := hput.hasWinningLine hin (by
    show (g.board.put x y stone).cell x y = stone
    rw [Board.cell_put hin, if_pos ⟨rfl, rfl⟩])
  rw [h.status, h.nextTurn] at hput hwin
  rw [hwin]
  split
  · exact ⟨rfl, hput.board, rfl, rfl, rfl⟩
  split
  · exact ⟨rfl, hput.board, rfl, rfl, rfl⟩
  · exact ⟨rfl, hput.board, rfl, rfl, rfl⟩

theorem Mirrored.forfeit (h : Mirrored σ g g') (loser : GameStone) :
    (g'.forfeit loser).1 = (g.forfeit loser).1 ∧
      Mirrored σ (g.forfeit loser).2 (g'.forfeit loser).2 := by
  unfold OmokGame.forfeit
  rw [h.status]
  split
  · exact ⟨rfl, h⟩
  split
  · exact ⟨rfl, h⟩
  · exact ⟨rfl, h.board, rfl, rfl, h.moveCount⟩

/-- The call in the mirror. -/
def GameCall.mirror (σ : Symmetry) : GameCall → GameCall
  | .tryPlaceStone stone x y => .tryPlaceStone stone (σ.point (x, y)).1 (σ.point (x, y)).2
  | call => call

/-- What a call returns, if it returns anything. -/
def returns (g : OmokGame) : GameCall → Option (MoveResult ⊕ Bool)
  | .tryPlaceStone stone x y => some (.inl (g.tryPlaceStone stone x y).1)
  | .forfeit loser => some (.inr (g.forfeit loser).1)
  | _ => none

theorem Mirrored.call (h : Mirrored σ g g') (call : GameCall) :
    g'.returns (call.mirror σ) = g.returns call ∧
      Mirrored σ (g.apply call) (g'.apply (call.mirror σ)) := by
  cases call with
  | start => exact ⟨rfl, .empty σ, rfl, rfl, rfl⟩
  | reset => exact ⟨rfl, .empty σ, rfl, rfl, rfl⟩
  | tryPlaceStone stone x y =>
    obtain ⟨hresult, hafter⟩ := h.tryPlaceStone stone x y
    exact ⟨congrArg (fun result : MoveResult => some (Sum.inl result)) hresult, hafter⟩
  | forfeit loser =>
    obtain ⟨hresult, hafter⟩ := h.forfeit loser
    exact ⟨congrArg (fun result : Bool => some (Sum.inr result)) hresult, hafter⟩

theorem Mirrored.after (calls : List GameCall) : ∀ {g g' : OmokGame}, Mirrored σ g g' →
    Mirrored σ (g.after calls) (g'.after (calls.map (GameCall.mirror σ))) := by
  induction calls with
  | nil => exact fun h => h
  | cons call calls ih => exact fun h => ih (h.call call).2

/-- For every symmetry of the board and all calls to a game: the game that gets them in the mirror
returns the same from each, and is the mirror of the other all along. -/
theorem mirrored_games (σ : Symmetry) (calls : List GameCall) (call : GameCall) :
    Mirrored σ (after {} calls) (after {} (calls.map (GameCall.mirror σ))) ∧
      (after {} (calls.map (GameCall.mirror σ))).returns (call.mirror σ) =
        (after {} calls).returns call := by
  have hmirrored : Mirrored σ (after {} calls) (after {} (calls.map (GameCall.mirror σ))) :=
    Mirrored.after calls ⟨.empty σ, rfl, rfl, rfl⟩
  exact ⟨hmirrored, (hmirrored.call call).1⟩

/-- A column wins where a row does. -/
example : let calls : List GameCall := .start ::
      ([0, 1, 2, 3] : List Int).flatMap (fun x =>
        [.tryPlaceStone .black x 0, .tryPlaceStone .white x 1]) ++ [.tryPlaceStone .black 4 0]
    ((after {} (calls.map (GameCall.mirror ⟨true, true, false⟩))).status = .blackWon) := by
  decide +kernel

end OmokGame
end SelectServer
