import SelectServer.RoomCalls

/- One game under every history of calls. The board, the counter, the turn and the
   status are written by separate statements on several exits, so what ties them
   together is an invariant: `Sound` (the counter, the open board) and `Alternating`
   (the turn follows from the numbers of stones). Every call keeps both, and a call
   that is refused keeps the game itself (`Consistent`). -/
namespace SelectServer

/-! ## How many stones of each colour -/

/-- The cells that hold `stone`. -/
def Board.stones (b : Board) (stone : GameStone) : Finset (Fin boardSize × Fin boardSize) :=
  Finset.univ.filter fun p => b.cell (p.1 : Nat) (p.2 : Nat) = stone

theorem emptyBoard_stones {stone : GameStone} (h : stone ≠ .empty) :
    emptyBoard.stones stone = ∅ := by
  simp [Board.stones, emptyBoard_cell, h.symm]

/-- A stone put on an empty cell adds one to its own colour. -/
theorem Board.stones_put_self {b : Board} {x y : Int} {stone : GameStone}
    (h : isInside x y = true) (hempty : b.cell x y = .empty) (hstone : stone ≠ .empty) :
    ((b.put x y stone).stones stone).card = (b.stones stone).card + 1 := by
  obtain ⟨i, j, rfl, rfl⟩ := exists_fin h
  have hnew : (i, j) ∉ b.stones stone := by simp [Board.stones, hempty, hstone.symm]
  have e : (b.put (i : Nat) (j : Nat) stone).stones stone = insert (i, j) (b.stones stone) := by
    ext ⟨i', j'⟩
    simp only [Board.stones, Board.cell_put h, Finset.mem_filter, Finset.mem_univ, true_and,
      Finset.mem_insert, Prod.mk.injEq, Nat.cast_inj, Fin.val_inj]
    by_cases hc : i' = i ∧ j' = j <;> simp [hc]
  rw [e, Finset.card_insert_of_notMem hnew]

theorem Board.stones_put_other {b : Board} {x y : Int} {stone other : GameStone}
    (h : isInside x y = true) (hempty : b.cell x y = .empty) (hne : other ≠ stone)
    (hother : other ≠ .empty) : (b.put x y stone).stones other = b.stones other := by
  obtain ⟨i, j, rfl, rfl⟩ := exists_fin h
  ext ⟨i', j'⟩
  simp only [Board.stones, Board.cell_put h, Finset.mem_filter, Finset.mem_univ, true_and,
    Nat.cast_inj, Fin.val_inj]
  by_cases hc : i' = i ∧ j' = j
  · obtain ⟨rfl, rfl⟩ := hc
    simp [hempty, hne.symm, hother.symm]
  · simp [hc]

namespace OmokGame

/-! ## The turn follows from the stones -/

/-- Black is at most one stone ahead, and is to move exactly when it is not. -/
structure Alternating (g : OmokGame) : Prop where
  ahead : (g.board.stones .black).card = (g.board.stones .white).card ∨
    (g.board.stones .black).card = (g.board.stones .white).card + 1
  black : g.status = .playing →
    (g.nextTurn = .black ↔ (g.board.stones .black).card = (g.board.stones .white).card)

theorem reset_alternating (g : OmokGame) : g.reset.Alternating where
  ahead := by simp [reset, emptyBoard_stones]
  black h := by cases h

theorem start_alternating (g : OmokGame) : g.start.Alternating where
  ahead := by simp [start, reset, emptyBoard_stones]
  black _ := by simp [start, reset, emptyBoard_stones]

/-- A stone is only accepted in its own turn, so it evens the numbers out or puts black one
ahead. -/
theorem Alternating.tryPlaceStone {g : OmokGame} (hg : g.Sound) (ha : g.Alternating)
    (stone : GameStone) (x y : Int) : (g.tryPlaceStone stone x y).2.Alternating := by
  by_cases h : g.Accepts stone x y
  · obtain ⟨hboard, -, hout⟩ := hg.outcome h
    have hturn := ha.black h.playing
    rw [← h.turn] at hturn
    have hahead := ha.ahead
    -- what the stone does to the two numbers
    have hcount : ∀ p : GameStone, g.nextTurn = p → p ≠ .empty →
        ((g.board.put x y stone).stones p).card = (g.board.stones p).card + 1 := by
      intro p hp hpe
      obtain rfl : stone = p := h.turn.trans hp
      exact Board.stones_put_self h.inside h.vacant hpe
    have hsame : ∀ p : GameStone, p ≠ stone → p ≠ .empty →
        ((g.board.put x y stone).stones p).card = (g.board.stones p).card := by
      intro p hp hpe
      rw [Board.stones_put_other h.inside h.vacant hp hpe]
    have hnext : (g.tryPlaceStone stone x y).2.status = .playing →
        (g.tryPlaceStone stone x y).2.nextTurn = stone.other := by
      intro hplaying
      cases hout with
      | open_ _ turn _ => exact turn
      | won status _ => rw [status] at hplaying; split at hplaying <;> cases hplaying
      | drawn status _ _ => rw [status] at hplaying; cases hplaying
    rcases h.colour with rfl | rfl
    · have hself := hcount .black h.turn.symm (by decide)
      have hother := hsame .white (by decide) (by decide)
      have heven := hturn.mp rfl
      constructor
      · rw [hboard, hself, hother]
        omega
      · intro hplaying
        rw [hnext hplaying, hboard, hself, hother]
        refine ⟨fun e => (by cases e), fun e => (by omega)⟩
    · have hself := hcount .white h.turn.symm (by decide)
      have hother := hsame .black (by decide) (by decide)
      have hodd : (g.board.stones .black).card ≠ (g.board.stones .white).card :=
        fun e => by cases hturn.mpr e
      constructor
      · rw [hboard, hself, hother]
        omega
      · intro hplaying
        rw [hnext hplaying, hboard, hself, hother]
        refine ⟨fun _ => (by omega), fun _ => rfl⟩
  · rw [tryPlaceStone_rejected (fun hs => h (tryPlaceStone_success_iff.mp hs))]
    exact ha

theorem forfeit_refused {g : OmokGame} {loser : GameStone} (h : (g.forfeit loser).1 = false) :
    (g.forfeit loser).2 = g := by
  unfold forfeit at h ⊢
  split
  · rfl
  · rename_i hplaying
    rw [if_neg hplaying] at h
    split
    · rfl
    · rename_i hcolour
      rw [if_neg hcolour] at h
      cases h

theorem forfeit_board (g : OmokGame) (loser : GameStone) :
    (g.forfeit loser).2.board = g.board := by
  unfold forfeit
  split
  · rfl
  split <;> rfl

theorem Alternating.forfeit {g : OmokGame} (ha : g.Alternating) (loser : GameStone) :
    (g.forfeit loser).2.Alternating := by
  by_cases h : (g.forfeit loser).1 = false
  · rw [forfeit_refused h]
    exact ha
  · constructor
    · rw [forfeit_board]
      exact ha.ahead
    · -- a forfeit that is taken ends the game
      intro hplaying
      unfold OmokGame.forfeit at h hplaying
      split at h
      · exact absurd rfl h
      · rename_i hrun
        rw [if_neg hrun] at hplaying
        split at h
        · exact absurd rfl h
        · rename_i hcolour
          rw [if_neg hcolour] at hplaying
          dsimp only at hplaying
          split at hplaying <;> cases hplaying

/-! ## Histories -/

inductive GameCall where
  | start
  | reset
  | tryPlaceStone (stone : GameStone) (x y : Int)
  | forfeit (loser : GameStone)
  deriving DecidableEq, Repr

def apply (g : OmokGame) : GameCall → OmokGame
  | .start => g.start
  | .reset => g.reset
  | .tryPlaceStone stone x y => (g.tryPlaceStone stone x y).2
  | .forfeit loser => (g.forfeit loser).2

/-- The game after a sequence of calls. -/
def after (g : OmokGame) (calls : List GameCall) : OmokGame := calls.foldl apply g

theorem Sound.apply {g : OmokGame} (hg : g.Sound) (call : GameCall) : (g.apply call).Sound := by
  cases call with
  | start => exact start_sound g
  | reset => exact reset_sound g
  | tryPlaceStone stone x y => exact hg.tryPlaceStone stone x y
  | forfeit loser => exact hg.forfeit loser

theorem Alternating.apply {g : OmokGame} (hg : g.Sound) (ha : g.Alternating) (call : GameCall) :
    (g.apply call).Alternating := by
  cases call with
  | start => exact start_alternating g
  | reset => exact reset_alternating g
  | tryPlaceStone stone x y => exact ha.tryPlaceStone hg stone x y
  | forfeit loser => exact ha.forfeit loser

theorem after_alternating (calls : List GameCall) :
    ∀ g : OmokGame, g.Sound → g.Alternating → (g.after calls).Sound ∧ (g.after calls).Alternating := by
  induction calls with
  | nil => exact fun _ hg ha => ⟨hg, ha⟩
  | cons call calls ih =>
    intro g hg ha
    exact ih _ (hg.apply call) (ha.apply hg call)

/-- A call that could change a game that is over. -/
def GameCall.Restarts (call : GameCall) : Prop := call = .start ∨ call = .reset

theorem after_over {g : OmokGame} (h : g.status ≠ .playing) (calls : List GameCall)
    (hcalls : ∀ call ∈ calls, ¬ call.Restarts) : g.after calls = g := by
  induction calls with
  | nil => rfl
  | cons call calls ih =>
    have hsame : g.apply call = g := by
      have hcall := hcalls call (List.mem_cons_self ..)
      cases call with
      | start => exact absurd (Or.inl rfl) hcall
      | reset => exact absurd (Or.inr rfl) hcall
      | tryPlaceStone stone x y =>
        exact tryPlaceStone_rejected fun hs => h (tryPlaceStone_success_iff.mp hs).playing
      | forfeit loser =>
        apply forfeit_refused
        unfold forfeit
        rw [if_pos h]
    show (g.apply call).after calls = g
    rw [hsame]
    exact ih fun c hc => hcalls c (List.mem_cons_of_mem _ hc)

/-- What ties the counter, the turn, the status and the cells together, and what the next call
can and cannot do to them. -/
structure Consistent (g : OmokGame) : Prop where
  count : g.moveCount = g.board.filled.card
  ahead : ((g.board.stones .black).card : Int) - (g.board.stones .white).card = 0 ∨
    ((g.board.stones .black).card : Int) - (g.board.stones .white).card = 1
  turn : g.nextTurn = .empty ↔ g.status ≠ .playing
  playing : g.status = .playing →
    (g.nextTurn = .black ↔ (g.board.stones .black).card = (g.board.stones .white).card) ∧
      g.moveCount < 225
  won : ∀ stone x y, (g.tryPlaceStone stone x y).1 = .success →
    ((g.tryPlaceStone stone x y).2.status = .blackWon → stone = .black) ∧
      ((g.tryPlaceStone stone x y).2.status = .whiteWon → stone = .white)
  refused : ∀ stone x y, (g.tryPlaceStone stone x y).1 ≠ .success →
    (g.tryPlaceStone stone x y).2 = g
  kept : ∀ loser, (g.forfeit loser).1 = false → (g.forfeit loser).2 = g
  ended : g.status ≠ .playing → ∀ calls : List GameCall, (∀ call ∈ calls, ¬ call.Restarts) →
    g.after calls = g

theorem Sound.consistent {g : OmokGame} (hg : g.Sound) (ha : g.Alternating) : g.Consistent where
  count := hg.count
  ahead := by
    have := ha.ahead
    omega
  turn := by
    constructor
    · intro hempty hplaying
      rcases hg.turn hplaying with e | e
      · rw [hempty] at e; cases e
      · rw [hempty] at e; cases e
    · exact hg.frozen
  playing h := ⟨ha.black h, (hg.open_board h).2.2⟩
  won stone x y h := by
    have hacc := tryPlaceStone_success_iff.mp h
    cases (hg.outcome hacc).2.2 with
    | open_ status _ _ => rw [status]; exact ⟨fun e => (by cases e), fun e => (by cases e)⟩
    | drawn status _ _ => rw [status]; exact ⟨fun e => (by cases e), fun e => (by cases e)⟩
    | won status _ =>
      rw [status]
      rcases hacc.colour with rfl | rfl
      · exact ⟨fun _ => rfl, fun e => (by cases e)⟩
      · exact ⟨fun e => (by cases e), fun _ => rfl⟩
  refused _ _ _ h := tryPlaceStone_rejected h
  kept _ h := forfeit_refused h
  ended h calls hcalls := after_over h calls hcalls

theorem new_sound : ({} : OmokGame).Sound := reset_sound {}

theorem new_alternating : ({} : OmokGame).Alternating := reset_alternating {}

/-- After any calls of `Start`, `Reset`, `TryPlaceStone` and `Forfeit`, in any order and with any
arguments, the parts of a game agree. -/
theorem game_consistent (calls : List GameCall) : (after {} calls).Consistent := by
  obtain ⟨hg, ha⟩ := after_alternating calls {} new_sound new_alternating
  exact hg.consistent ha

end OmokGame
end SelectServer
