import Mathlib.Data.Vector.Basic
import SelectServer.Protocol

/- `OmokGame.h` and `OmokGame.cpp`: the 15×15 board, the turn, and the check for
   five in a row through the last stone. -/
namespace SelectServer

inductive MoveResult where
  | success | gameNotRunning | invalidStone | outOfBounds | notYourTurn | occupied
  deriving DecidableEq, Repr

abbrev boardSize : Nat := 15
abbrev winLength : Nat := 5

/-- `m_board[y][x]`. -/
abbrev Board := Vector (Vector GameStone boardSize) boardSize

def emptyBoard : Board := Vector.replicate boardSize (Vector.replicate boardSize .empty)

def isInside (x y : Int) : Bool := 0 ≤ x && x < boardSize && 0 ≤ y && y < boardSize

theorem isInside_iff {x y : Int} :
    isInside x y = true ↔ 0 ≤ x ∧ x < 15 ∧ 0 ≤ y ∧ y < 15 := by
  simp [isInside, and_assoc]

/-- The stone at `(x, y)`; outside the board, which the code never indexes, empty. -/
def Board.cell (b : Board) (x y : Int) : GameStone :=
  if isInside x y then ((b[y.toNat]?).bind (·[x.toNat]?)).getD .empty else .empty

def Board.put (b : Board) (x y : Int) (stone : GameStone) : Board :=
  if h : isInside x y then
    have hy : y.toNat < boardSize := by have := isInside_iff.mp h; simp only [boardSize]; omega
    b.set y.toNat (b[y.toNat].setIfInBounds x.toNat stone)
  else b

structure OmokGame where
  board : Board := emptyBoard
  status : GameState := .notStarted
  nextTurn : GameStone := .empty
  moveCount : Nat := 0
  deriving DecidableEq, Repr

namespace OmokGame

def reset (_ : OmokGame) : OmokGame :=
  { board := emptyBoard, status := .notStarted, nextTurn := .empty, moveCount := 0 }

def start (g : OmokGame) : OmokGame :=
  { g.reset with status := .playing, nextTurn := .black }

/-- The loop of `CountDirection`. `none` is a walk longer than the fuel. -/
def countLoop (g : OmokGame) (stone : GameStone) (dx dy : Int) :
    Nat → Int → Int → Nat → Option Nat
  | 0, _, _, _ => none
  | fuel + 1, nextX, nextY, count =>
    if isInside nextX nextY then
      if g.board.cell nextX nextY ≠ stone then some count
      else countLoop g stone dx dy fuel (nextX + dx) (nextY + dy) (count + 1)
    else some count

/-- A walk in one of the eight directions leaves the board after at most `boardSize` steps
(`countLoop_run`), so the fuel never runs out. -/
def countDirection (g : OmokGame) (stone : GameStone) (x y dx dy : Int) : Nat :=
  (countLoop g stone dx dy boardSize (x + dx) (y + dy) 0).getD 0

def directions : List (Int × Int) := [(1, 0), (0, 1), (1, 1), (1, -1)]

def hasWinningLine (g : OmokGame) (stone : GameStone) (x y : Int) : Bool :=
  directions.any fun (dx, dy) =>
    1 + g.countDirection stone x y dx dy + g.countDirection stone x y (-dx) (-dy) ≥ winLength

def tryPlaceStone (g : OmokGame) (stone : GameStone) (x y : Int) : MoveResult × OmokGame :=
  if g.status ≠ .playing then (.gameNotRunning, g)
  else if stone ≠ .black ∧ stone ≠ .white then (.invalidStone, g)
  else if !isInside x y then (.outOfBounds, g)
  else if stone ≠ g.nextTurn then (.notYourTurn, g)
  else if g.board.cell x y ≠ .empty then (.occupied, g)
  else
    let g := { g with board := g.board.put x y stone, moveCount := g.moveCount + 1 }
    if g.hasWinningLine stone x y then
      (.success, { g with
        status := if stone = .black then .blackWon else .whiteWon
        nextTurn := .empty })
    else if g.moveCount = boardSize * boardSize then
      (.success, { g with status := .draw, nextTurn := .empty })
    else (.success, { g with nextTurn := if stone = .black then .white else .black })

def forfeit (g : OmokGame) (loser : GameStone) : Bool × OmokGame :=
  if g.status ≠ .playing then (false, g)
  else if loser ≠ .black ∧ loser ≠ .white then (false, g)
  else (true, { g with
    status := if loser = .black then .whiteWon else .blackWon
    nextTurn := .empty })

end OmokGame
end SelectServer
