import Mathlib.Data.Fintype.Card
import Mathlib.Data.Fintype.Prod
import Mathlib.Data.Finset.Card
import SelectServer.Lib.LineRuns
import SelectServer.OmokGame

/- The game status against a scan of the whole board. The code looks only at the
   lines through the last stone, counting both ways from it. `countDirection_run`
   says that one such count is the length of the run next to the stone, and
   `hasWinningLine_iff` turns the two-sided counts into a window of five over the
   stone (`LineRuns.window_over_iff`). Since no five stood before the stone was
   placed, a five anywhere must run over it (`fiveAligned_put`), so the local
   check and the global scan agree after every call (`status_agrees_with_scan`). -/
namespace SelectServer
open LineRuns

/-! ## Cells after one stone -/

theorem Board.cell_put {b : Board} {x y : Int} (h : isInside x y = true) (stone : GameStone)
    (x' y' : Int) :
    (b.put x y stone).cell x' y' = if x' = x ∧ y' = y then stone else b.cell x' y' := by
  have hxy := isInside_iff.mp h
  unfold Board.put Board.cell
  simp only [h, dif_pos]
  by_cases h' : isInside x' y' = true
  · have hxy' := isInside_iff.mp h'
    have e1 : y'.toNat < boardSize := by simp only [boardSize]; omega
    have e2 : x'.toNat < boardSize := by simp only [boardSize]; omega
    simp only [h', if_true, Vector.getElem?_eq_getElem e1, Option.bind_some,
      Vector.getElem?_eq_getElem e2, Option.getD_some, Vector.getElem_set]
    by_cases hy : y' = y
    · subst hy
      by_cases hx : x' = x
      · subst hx; simp
      · have : x.toNat ≠ x'.toNat := by omega
        simp [hx, Vector.getElem_setIfInBounds_ne e2 this]
    · have : y.toNat ≠ y'.toNat := by omega
      simp [hy, this]
  · have : ¬ (x' = x ∧ y' = y) := by rintro ⟨rfl, rfl⟩; exact h' h
    simp [h', this]

theorem emptyBoard_cell (x y : Int) : emptyBoard.cell x y = .empty := by
  unfold Board.cell
  split
  · rename_i h
    have hxy := isInside_iff.mp h
    have e1 : y.toNat < boardSize := by simp only [boardSize]; omega
    have e2 : x.toNat < boardSize := by simp only [boardSize]; omega
    simp [emptyBoard, Vector.getElem?_eq_getElem e1, Vector.getElem?_eq_getElem e2]
  · rfl

/-! ## How many cells are filled -/

/-- The cells that hold a stone. -/
def Board.filled (b : Board) : Finset (Fin boardSize × Fin boardSize) :=
  Finset.univ.filter fun p => b.cell (p.1 : Nat) (p.2 : Nat) ≠ .empty

/-- No cell of the board is empty. -/
def Board.Full (b : Board) : Prop := ∀ x y, isInside x y = true → b.cell x y ≠ .empty

theorem isInside_fin (i j : Fin boardSize) : isInside (i : Nat) (j : Nat) = true := by
  have hi := i.isLt
  have hj := j.isLt
  simp only [boardSize] at hi hj
  rw [isInside_iff]
  omega

theorem exists_fin {x y : Int} (h : isInside x y = true) :
    ∃ i j : Fin boardSize, x = (i : Nat) ∧ y = (j : Nat) := by
  have hxy := isInside_iff.mp h
  refine ⟨⟨x.toNat, by simp only [boardSize]; omega⟩,
    ⟨y.toNat, by simp only [boardSize]; omega⟩, ?_, ?_⟩
  · dsimp only; omega
  · dsimp only; omega

theorem Board.filled_card_le (b : Board) : b.filled.card ≤ 225 := by
  have h := Finset.card_le_univ b.filled
  simpa [boardSize] using h

theorem Board.full_iff (b : Board) : b.Full ↔ b.filled.card = 225 := by
  have hu : b.filled.card = 225 ↔ b.filled = Finset.univ := by
    rw [← Finset.card_eq_iff_eq_univ]
    simp [boardSize]
  rw [hu, Finset.eq_univ_iff_forall]
  constructor
  · intro h p
    simp only [Board.filled, Finset.mem_filter, Finset.mem_univ, true_and]
    exact h _ _ (isInside_fin p.1 p.2)
  · intro h x y hxy
    obtain ⟨i, j, rfl, rfl⟩ := exists_fin hxy
    have := h (i, j)
    simpa only [Board.filled, Finset.mem_filter, Finset.mem_univ, true_and] using this

theorem Board.filled_card_put {b : Board} {x y : Int} {stone : GameStone}
    (h : isInside x y = true) (hempty : b.cell x y = .empty) (hstone : stone ≠ .empty) :
    (b.put x y stone).filled.card = b.filled.card + 1 := by
  obtain ⟨i, j, rfl, rfl⟩ := exists_fin h
  have hnew : (i, j) ∉ b.filled := by simp [Board.filled, hempty]
  have e : (b.put (i : Nat) (j : Nat) stone).filled = insert (i, j) b.filled := by
    ext ⟨i', j'⟩
    simp only [Board.filled, Board.cell_put h, Finset.mem_filter, Finset.mem_univ, true_and,
      Finset.mem_insert, Prod.mk.injEq, Nat.cast_inj, Fin.val_inj]
    by_cases hc : i' = i ∧ j' = j <;> simp [hc, hstone]
  rw [e, Finset.card_insert_of_notMem hnew]

theorem emptyBoard_filled : emptyBoard.filled = ∅ := by
  simp [Board.filled, emptyBoard_cell]

/-! ## One count is one run -/

/-- Whether the point `k` steps from `(x, y)` is on the board and holds `stone`. -/
def OnLine (b : Board) (stone : GameStone) (x y : Int) (d : Int × Int) (k : Int) : Prop :=
  isInside (x + k * d.1) (y + k * d.2) = true ∧ b.cell (x + k * d.1) (y + k * d.2) = stone

/-- One of the eight directions. -/
def UnitStep (d : Int × Int) : Prop :=
  (d.1 = 1 ∨ d.1 = 0 ∨ d.1 = -1) ∧ (d.2 = 1 ∨ d.2 = 0 ∨ d.2 = -1) ∧ (d.1 ≠ 0 ∨ d.2 ≠ 0)

theorem UnitStep.neg {d : Int × Int} (h : UnitStep d) : UnitStep (-d.1, -d.2) := by
  unfold UnitStep at *
  dsimp only
  omega

theorem directions_unit {d : Int × Int} (h : d ∈ OmokGame.directions) : UnitStep d := by
  simp only [OmokGame.directions, List.mem_cons, List.not_mem_nil, or_false] at h
  rcases h with rfl | rfl | rfl | rfl <;> simp [UnitStep]

/-- Fifteen steps in one direction leave the board. -/
theorem UnitStep.leaves {d : Int × Int} (hd : UnitStep d) {x y : Int}
    (h : isInside x y = true) : isInside (x + 15 * d.1) (y + 15 * d.2) ≠ true := by
  have hxy := isInside_iff.mp h
  rw [Ne, isInside_iff]
  obtain ⟨h1, h2, h3⟩ := hd
  rcases h1 with h1 | h1 | h1 <;> rcases h2 with h2 | h2 | h2 <;> rw [h1, h2] <;> omega

theorem countLoop_run {g : OmokGame} {stone : GameStone} {x y : Int} {d : Int × Int}
    (hin : isInside x y = true) (hd : UnitStep d) :
    ∀ (fuel k : Nat), fuel + k = 16 → 1 ≤ k →
      (∀ i : Int, 1 ≤ i → i < k → OnLine g.board stone x y d i) →
      ∃ n, g.countLoop stone d.1 d.2 fuel (x + k * d.1) (y + k * d.2) (k - 1) = some n ∧
        Run (OnLine g.board stone x y d) n := by
  intro fuel
  induction fuel with
  | zero =>
    intro k hk _ hmarked
    have := (hmarked 15 (by omega) (by omega)).1
    exact absurd this (hd.leaves hin)
  | succ fuel ih =>
    intro k hk hpos hmarked
    have hlast : ∀ P : Int → Prop, ¬ P k → ¬ P ((k - 1 : Nat) + 1) := by
      intro P h
      rwa [show ((k - 1 : Nat) : Int) + 1 = k by omega]
    simp only [OmokGame.countLoop]
    split
    · rename_i hinside
      split
      · rename_i hother
        exact ⟨k - 1, rfl, fun i h1 h2 => hmarked i h1 (by omega),
          hlast _ (fun h => hother h.2)⟩
      · rename_i hsame
        rw [not_not] at hsame
        obtain ⟨n, hn, hrun⟩ := ih (k + 1) (by omega) (by omega) (by
          intro i h1 h2
          rcases eq_or_ne i k with rfl | hne
          · exact ⟨hinside, hsame⟩
          · exact hmarked i h1 (by omega))
        refine ⟨n, ?_, hrun⟩
        rw [← hn, show k - 1 + 1 = k + 1 - 1 by omega]
        congr 1 <;> push_cast <;> ring
    · rename_i houtside
      exact ⟨k - 1, rfl, fun i h1 h2 => hmarked i h1 (by omega),
        hlast _ (fun h => houtside h.1)⟩

/-- `CountDirection` ends, and returns the length of the run next to `(x, y)`. -/
theorem countDirection_run {g : OmokGame} {x y : Int} {d : Int × Int}
    (hin : isInside x y = true) (hd : UnitStep d) (stone : GameStone) :
    Run (OnLine g.board stone x y d) (g.countDirection stone x y d.1 d.2) := by
  obtain ⟨n, hn, hrun⟩ := @countLoop_run g stone x y d hin hd 15 1 (by omega) (by omega)
    (by intro i h1 h2; omega)
  have e : g.countDirection stone x y d.1 d.2 = n := by
    simp only [Nat.cast_one, one_mul, Nat.sub_self] at hn
    simp [OmokGame.countDirection, hn]
  rwa [e]

/-! ## Five aligned -/

/-- Five stones of one colour in a row, column, diagonal or anti-diagonal. -/
def Board.FiveAligned (b : Board) (stone : GameStone) : Prop :=
  ∃ d ∈ OmokGame.directions, ∃ x y, Window (OnLine b stone x y d) winLength 0

/-- The local check finds exactly the windows of five over `(x, y)`. -/
theorem hasWinningLine_iff {g : OmokGame} {stone : GameStone} {x y : Int}
    (hin : isInside x y = true) (hcell : g.board.cell x y = stone) :
    g.hasWinningLine stone x y = true ↔ ∃ d ∈ OmokGame.directions, ∃ start : Int,
      start ≤ 0 ∧ 0 < start + winLength ∧ Window (OnLine g.board stone x y d) winLength start := by
  simp only [OmokGame.hasWinningLine, List.any_eq_true, decide_eq_true_eq, ge_iff_le]
  refine exists_congr fun d => and_congr_right fun hd => ?_
  have hdown := countDirection_run (g := g) hin (directions_unit hd).neg stone
  have e : OnLine g.board stone x y (-d.1, -d.2) = fun k => OnLine g.board stone x y d (-k) := by
    funext k
    simp [OnLine]
  rw [e] at hdown
  exact (window_over_iff (P := OnLine g.board stone x y d) ⟨by simpa using hin, by simpa using hcell⟩
    (countDirection_run hin (directions_unit hd) stone) hdown (by decide)).symm

/-- Moving the origin of a line along it. -/
theorem onLine_shift {b : Board} {stone : GameStone} {x y : Int} {d : Int × Int} (j k : Int) :
    OnLine b stone (x + j * d.1) (y + j * d.2) d k ↔ OnLine b stone x y d (j + k) := by
  have e1 : x + j * d.1 + k * d.1 = x + (j + k) * d.1 := by ring
  have e2 : y + j * d.2 + k * d.2 = y + (j + k) * d.2 := by ring
  simp only [OnLine, e1, e2]

/-- Placing a stone adds a five of its colour exactly when a window over it is marked. -/
theorem fiveAligned_put {b : Board} {stone : GameStone} {x y : Int} (hin : isInside x y = true)
    (hnone : ¬ b.FiveAligned stone) :
    (b.put x y stone).FiveAligned stone ↔ ∃ d ∈ OmokGame.directions, ∃ start : Int,
      start ≤ 0 ∧ 0 < start + winLength ∧
        Window (OnLine (b.put x y stone) stone x y d) winLength start := by
  constructor
  · rintro ⟨d, hd, u, v, hw⟩
    -- some point of the window is the new stone, or the five stood before
    by_cases hmiss : ∀ k : Int, 0 ≤ k → k < 5 → ¬ (u + k * d.1 = x ∧ v + k * d.2 = y)
    · refine absurd ⟨d, hd, u, v, fun k h1 h2 => ?_⟩ hnone
      have hk := hw k h1 h2
      refine ⟨hk.1, ?_⟩
      have hc := hk.2
      rw [Board.cell_put hin, if_neg (hmiss k h1 (by simpa using h2))] at hc
      exact hc
    · push Not at hmiss
      obtain ⟨k, h1, h2, rfl, rfl⟩ := hmiss
      refine ⟨d, hd, -k, by omega, by simp only [winLength]; omega, fun i hi hi' => ?_⟩
      rw [onLine_shift]
      exact hw (k + i) (by omega) (by simp only [winLength] at hi' ⊢; omega)
  · rintro ⟨d, hd, start, -, -, hw⟩
    refine ⟨d, hd, x + start * d.1, y + start * d.2, fun k h1 h2 => ?_⟩
    rw [onLine_shift]
    exact hw (start + k) (by omega) (by omega)

/-- A stone of the other colour makes no five of this one. -/
theorem fiveAligned_put_other {b : Board} {stone other : GameStone} {x y : Int}
    (hin : isInside x y = true) (hne : other ≠ stone) (hnone : ¬ b.FiveAligned other) :
    ¬ (b.put x y stone).FiveAligned other := by
  rintro ⟨d, hd, u, v, hw⟩
  refine hnone ⟨d, hd, u, v, fun k h1 h2 => ?_⟩
  obtain ⟨hk, hc⟩ := hw k h1 h2
  refine ⟨hk, ?_⟩
  rw [Board.cell_put hin] at hc
  split at hc
  · exact absurd hc.symm hne
  · exact hc

theorem emptyBoard_not_five {stone : GameStone} (h : stone ≠ .empty) :
    ¬ emptyBoard.FiveAligned stone := by
  rintro ⟨d, -, u, v, hw⟩
  have := (hw 0 (by omega) (by decide)).2
  rw [emptyBoard_cell] at this
  exact h this.symm

/-! ## `TryPlaceStone` -/

namespace OmokGame

/-- The checks `TryPlaceStone` makes before it changes anything. -/
structure Accepts (g : OmokGame) (stone : GameStone) (x y : Int) : Prop where
  playing : g.status = .playing
  colour : stone = .black ∨ stone = .white
  inside : isInside x y = true
  turn : stone = g.nextTurn
  vacant : g.board.cell x y = .empty

/-- The game with the stone on the board and counted, before the status is settled. -/
def withStone (g : OmokGame) (stone : GameStone) (x y : Int) : OmokGame :=
  { g with board := g.board.put x y stone, moveCount := g.moveCount + 1 }

/-- A stone that is not accepted is refused for the first check that fails. -/
theorem tryPlaceStone_refused {g : OmokGame} {stone : GameStone} {x y : Int}
    (h : ¬ g.Accepts stone x y) :
    ∃ result, result ≠ .success ∧ (stone ≠ .empty → result ≠ .invalidStone) ∧
      g.tryPlaceStone stone x y = (result, g) := by
  unfold tryPlaceStone
  by_cases hplaying : g.status ≠ .playing
  · exact ⟨.gameNotRunning, by decide, fun _ => by decide, if_pos hplaying⟩
  rw [if_neg hplaying]
  by_cases hcolour : stone ≠ .black ∧ stone ≠ .white
  · refine ⟨.invalidStone, by decide, fun hstone => ?_, if_pos hcolour⟩
    cases stone with
    | empty => exact absurd rfl hstone
    | black => exact absurd rfl hcolour.1
    | white => exact absurd rfl hcolour.2
  rw [if_neg hcolour]
  by_cases hinside : (!isInside x y) = true
  · exact ⟨.outOfBounds, by decide, fun _ => by decide, if_pos hinside⟩
  rw [if_neg hinside]
  by_cases hturn : stone ≠ g.nextTurn
  · exact ⟨.notYourTurn, by decide, fun _ => by decide, if_pos hturn⟩
  rw [if_neg hturn]
  by_cases hvacant : g.board.cell x y ≠ .empty
  · exact ⟨.occupied, by decide, fun _ => by decide, if_pos hvacant⟩
  · refine absurd ⟨not_not.mp hplaying, ?_, by simpa using hinside, not_not.mp hturn,
      not_not.mp hvacant⟩ h
    tauto

/-- What an accepted call leaves: a win for the stone, a draw on a full board, or the other
colour's turn. -/
theorem tryPlaceStone_taken {g : OmokGame} {stone : GameStone} {x y : Int}
    (h : g.Accepts stone x y) :
    g.tryPlaceStone stone x y = (.success,
      if (g.withStone stone x y).hasWinningLine stone x y then
        { g.withStone stone x y with
          status := if stone = .black then .blackWon else .whiteWon
          nextTurn := .empty }
      else if g.moveCount + 1 = boardSize * boardSize then
        { g.withStone stone x y with status := .draw, nextTurn := .empty }
      else
        { g.withStone stone x y with nextTurn := if stone = .black then .white else .black }) := by
  obtain ⟨h1, h2, h3, h4, h5⟩ := h
  have h2' : ¬ (stone ≠ .black ∧ stone ≠ .white) := by tauto
  unfold tryPlaceStone
  rw [if_neg (not_not.mpr h1), if_neg h2', if_neg (by simp [h3]), if_neg (not_not.mpr h4),
    if_neg (not_not.mpr h5)]
  dsimp only [withStone]
  split_ifs <;> rfl

theorem tryPlaceStone_success_iff {g : OmokGame} {stone : GameStone} {x y : Int} :
    (g.tryPlaceStone stone x y).1 = .success ↔ g.Accepts stone x y := by
  constructor
  · intro hsuccess
    by_contra h
    obtain ⟨result, hresult, -, e⟩ := tryPlaceStone_refused h
    rw [e] at hsuccess
    exact hresult hsuccess
  · intro h
    rw [tryPlaceStone_taken h]

theorem tryPlaceStone_rejected {g : OmokGame} {stone : GameStone} {x y : Int}
    (h : (g.tryPlaceStone stone x y).1 ≠ .success) : (g.tryPlaceStone stone x y).2 = g := by
  obtain ⟨result, -, -, e⟩ := tryPlaceStone_refused fun hacc => h (tryPlaceStone_success_iff.mpr hacc)
  rw [e]

theorem tryPlaceStone_accepted {g : OmokGame} {stone : GameStone} {x y : Int}
    (h : g.Accepts stone x y) :
    (g.tryPlaceStone stone x y).2 =
      if (g.withStone stone x y).hasWinningLine stone x y then
        { g.withStone stone x y with
          status := if stone = .black then .blackWon else .whiteWon
          nextTurn := .empty }
      else if g.moveCount + 1 = boardSize * boardSize then
        { g.withStone stone x y with status := .draw, nextTurn := .empty }
      else { g.withStone stone x y with nextTurn := if stone = .black then .white else .black } := by
  rw [tryPlaceStone_taken h]

/-- A stone of a colour is never an invalid one. -/
theorem tryPlaceStone_valid {g : OmokGame} {stone : GameStone} {x y : Int} (h : stone ≠ .empty) :
    (g.tryPlaceStone stone x y).1 ≠ .invalidStone := by
  by_cases hacc : g.Accepts stone x y
  · rw [tryPlaceStone_taken hacc]
    exact MoveResult.noConfusion
  · obtain ⟨result, -, hvalid, e⟩ := tryPlaceStone_refused hacc
    rw [e]
    exact hvalid h

/-- What holds of every game that was started, whatever stones and forfeits followed. -/
structure Sound (g : OmokGame) : Prop where
  count : g.moveCount = g.board.filled.card
  open_board : g.status = .playing →
    ¬ g.board.FiveAligned .black ∧ ¬ g.board.FiveAligned .white ∧ g.moveCount < 225
  turn : g.status = .playing → g.nextTurn = .black ∨ g.nextTurn = .white
  frozen : g.status ≠ .playing → g.nextTurn = .empty

theorem start_sound (g : OmokGame) : g.start.Sound where
  count := by simp [start, reset, emptyBoard_filled]
  open_board _ := ⟨emptyBoard_not_five (by decide), emptyBoard_not_five (by decide),
    (by decide : 0 < 225)⟩
  turn _ := Or.inl rfl
  frozen h := absurd rfl h

theorem reset_sound (g : OmokGame) : g.reset.Sound where
  count := by simp [reset, emptyBoard_filled]
  open_board h := by cases h
  turn h := by cases h
  frozen _ := rfl

/-- The status that goes with a stone on the board, as a scan of the board decides it. -/
structure Settled (g : OmokGame) (stone : GameStone) : Prop where
  other_none : ∀ c, c ≠ stone → c ≠ .empty → ¬ g.board.FiveAligned c
  won : g.board.FiveAligned stone → g.status = if stone = .black then .blackWon else .whiteWon
  drawn : ¬ g.board.FiveAligned stone → g.board.Full → g.status = .draw
  open_ : ¬ g.board.FiveAligned stone → ¬ g.board.Full → g.status = .playing

theorem Sound.withStone_scan {g : OmokGame} {stone : GameStone} {x y : Int} (hg : g.Sound)
    (h : g.Accepts stone x y) :
    ((g.withStone stone x y).hasWinningLine stone x y = true ↔
        (g.withStone stone x y).board.FiveAligned stone) ∧
      (∀ c, c ≠ stone → c ≠ .empty → ¬ (g.withStone stone x y).board.FiveAligned c) ∧
      g.moveCount + 1 = (g.withStone stone x y).board.filled.card := by
  have hopen := hg.open_board h.playing
  have hnone : ∀ c, c ≠ .empty → ¬ g.board.FiveAligned c := by
    intro c hc
    cases c with
    | empty => exact absurd rfl hc
    | black => exact hopen.1
    | white => exact hopen.2.1
  have hstone : stone ≠ .empty := by rcases h.colour with rfl | rfl <;> decide
  refine ⟨?_, fun c hc hc' => fiveAligned_put_other h.inside hc (hnone c hc'), ?_⟩
  · rw [hasWinningLine_iff h.inside (by simp [withStone, Board.cell_put h.inside])]
    exact (fiveAligned_put h.inside (hnone stone hstone)).symm
  · rw [hg.count, withStone, Board.filled_card_put h.inside h.vacant hstone]

theorem Sound.tryPlaceStone_settled {g : OmokGame} {stone : GameStone} {x y : Int} (hg : g.Sound)
    (h : g.Accepts stone x y) :
    (g.tryPlaceStone stone x y).2.Sound ∧ (g.tryPlaceStone stone x y).2.Settled stone := by
  obtain ⟨hwin, hother, hcount⟩ := hg.withStone_scan h
  rw [tryPlaceStone_accepted h]
  by_cases hw : (g.withStone stone x y).hasWinningLine stone x y = true
  · rw [if_pos hw]
    refine ⟨⟨hcount, ?_, ?_, fun _ => rfl⟩, ⟨hother, fun _ => rfl, ?_, ?_⟩⟩
    · intro e; dsimp only at e; split at e <;> cases e
    · intro e; dsimp only at e; split at e <;> cases e
    · exact fun hn => absurd (hwin.mp hw) hn
    · exact fun hn => absurd (hwin.mp hw) hn
  · rw [if_neg hw]
    have hnot := fun hf => hw (hwin.mpr hf)
    by_cases hfull : g.moveCount + 1 = boardSize * boardSize
    · rw [if_pos hfull]
      have hF : (g.withStone stone x y).board.Full := by
        rw [Board.full_iff, ← hcount]
        exact hfull
      exact ⟨⟨hcount, fun e => (by cases e), fun e => (by cases e), fun _ => rfl⟩,
        ⟨hother, fun hf => absurd hf hnot, fun _ _ => rfl, fun _ hn => absurd hF hn⟩⟩
    · rw [if_neg hfull]
      have hF : ¬ (g.withStone stone x y).board.Full := by
        rw [Board.full_iff, ← hcount]
        exact hfull
      have hlt : g.moveCount + 1 < 225 := by
        have := (g.withStone stone x y).board.filled_card_le
        simp only [boardSize] at hfull
        omega
      have hboth : ¬ (g.withStone stone x y).board.FiveAligned .black ∧
          ¬ (g.withStone stone x y).board.FiveAligned .white := by
        rcases h.colour with rfl | rfl
        · exact ⟨hnot, hother _ (by decide) (by decide)⟩
        · exact ⟨hother _ (by decide) (by decide), hnot⟩
      refine ⟨⟨hcount, fun _ => ⟨hboth.1, hboth.2, hlt⟩, fun _ => ?_,
        fun e => absurd h.playing e⟩, ⟨hother, fun hf => absurd hf hnot,
          fun _ hf => absurd hf hF, fun _ _ => h.playing⟩⟩
      rcases h.colour with rfl | rfl
      · exact Or.inr rfl
      · exact Or.inl rfl

theorem Sound.tryPlaceStone {g : OmokGame} (hg : g.Sound) (stone : GameStone) (x y : Int) :
    (g.tryPlaceStone stone x y).2.Sound := by
  by_cases h : (g.tryPlaceStone stone x y).1 = .success
  · exact (hg.tryPlaceStone_settled (tryPlaceStone_success_iff.mp h)).1
  · rw [tryPlaceStone_rejected h]
    exact hg

/-- How an accepted stone leaves the game: it goes on, it is won, or it is a draw. -/
inductive Outcome (g : OmokGame) (stone : GameStone) : Prop
  | open_ (status : g.status = .playing) (turn : g.nextTurn = stone.other) (room : g.moveCount < 225)
  | won (status : g.status = if stone = .black then .blackWon else .whiteWon)
      (turn : g.nextTurn = .empty)
  | drawn (status : g.status = .draw) (turn : g.nextTurn = .empty) (full : g.moveCount = 225)

theorem Sound.outcome {g : OmokGame} {stone : GameStone} {x y : Int} (hg : g.Sound)
    (h : g.Accepts stone x y) :
    (g.tryPlaceStone stone x y).2.board = g.board.put x y stone ∧
      (g.tryPlaceStone stone x y).2.moveCount = g.moveCount + 1 ∧
      (g.tryPlaceStone stone x y).2.Outcome stone := by
  have hlt := (hg.open_board h.playing).2.2
  rw [tryPlaceStone_accepted h]
  split
  · exact ⟨rfl, rfl, .won rfl rfl⟩
  split
  · rename_i hfull
    exact ⟨rfl, rfl, .drawn rfl rfl hfull⟩
  · rename_i hfull
    refine ⟨rfl, rfl, .open_ h.playing ?_ ?_⟩
    · rcases h.colour with rfl | rfl <;> rfl
    · show g.moveCount + 1 < 225
      simp only [boardSize] at hfull
      omega

/-! ## The status agrees with a scan -/

/-- The status read off the whole board. -/
structure StatusAgrees (g : OmokGame) : Prop where
  black : g.status = .blackWon ↔ g.board.FiveAligned .black
  white : g.status = .whiteWon ↔ g.board.FiveAligned .white
  exclusive : ¬ (g.board.FiveAligned .black ∧ g.board.FiveAligned .white)
  draw : g.status = .draw ↔
    g.board.Full ∧ ¬ g.board.FiveAligned .black ∧ ¬ g.board.FiveAligned .white
  playing : g.status = .playing ↔
    ¬ g.board.FiveAligned .black ∧ ¬ g.board.FiveAligned .white ∧ ¬ g.board.Full

theorem Sound.agrees_playing {g : OmokGame} (hg : g.Sound) (h : g.status = .playing) :
    g.StatusAgrees := by
  obtain ⟨hb, hw, hlt⟩ := hg.open_board h
  have hF : ¬ g.board.Full := by
    rw [Board.full_iff, ← hg.count]
    omega
  constructor <;> simp [h, hb, hw, hF]

theorem Settled.agrees {g : OmokGame} {stone : GameStone} (h : g.Settled stone)
    (hc : stone = .black ∨ stone = .white) : g.StatusAgrees := by
  by_cases hf : g.board.FiveAligned stone
  · have hs := h.won hf
    rcases hc with rfl | rfl
    · have := h.other_none .white (by decide) (by decide)
      constructor <;> simp [hs, hf, this]
    · have := h.other_none .black (by decide) (by decide)
      constructor <;> simp [hs, hf, this]
  · have hb : ¬ g.board.FiveAligned .black ∧ ¬ g.board.FiveAligned .white := by
      rcases hc with rfl | rfl
      · exact ⟨hf, h.other_none .white (by decide) (by decide)⟩
      · exact ⟨h.other_none .black (by decide) (by decide), hf⟩
    by_cases hF : g.board.Full
    · have hs := h.drawn hf hF
      constructor <;> simp [hs, hb, hF]
    · have hs := h.open_ hf hF
      constructor <;> simp [hs, hb, hF]

/-- One call keeps the agreement: an accepted stone settles the status, a refused one changes
nothing. -/
theorem StatusAgrees.tryPlaceStone {g : OmokGame} (hg : g.Sound) (ha : g.StatusAgrees)
    (stone : GameStone) (x y : Int) : (g.tryPlaceStone stone x y).2.StatusAgrees := by
  by_cases h : (g.tryPlaceStone stone x y).1 = .success
  · have hacc := tryPlaceStone_success_iff.mp h
    exact (hg.tryPlaceStone_settled hacc).2.agrees hacc.colour
  · rw [tryPlaceStone_rejected h]
    exact ha

/-- A run of calls, each with any stone and any coordinates. -/
def placeAll (g : OmokGame) (calls : List (GameStone × Int × Int)) : OmokGame :=
  calls.foldl (fun g call => (g.tryPlaceStone call.1 call.2.1 call.2.2).2) g

theorem placeAll_agrees (calls : List (GameStone × Int × Int)) :
    ∀ g : OmokGame, g.Sound → g.StatusAgrees → (g.placeAll calls).StatusAgrees := by
  induction calls with
  | nil => exact fun _ _ ha => ha
  | cons call calls ih =>
    intro g hg ha
    exact ih _ (hg.tryPlaceStone _ _ _) (ha.tryPlaceStone hg _ _ _)

/-- After `Start` and any calls of `TryPlaceStone`, refused ones included, the status is the one
a scan of the whole board gives. -/
theorem status_agrees_with_scan (g : OmokGame) (calls : List (GameStone × Int × Int)) :
    (g.start.placeAll calls).StatusAgrees :=
  placeAll_agrees calls _ (start_sound g) ((start_sound g).agrees_playing rfl)

end OmokGame
end SelectServer
