import SelectServer.GameRecords

/- What a recorded result says about the game it is of. The run is read back from
   its history: the `StartGame` that handed out the id, and the accepted moves.
   Every game that is on is the replay of its accepted moves (`run_told`), so the
   record, taken when the game ends, can be checked against them (`results_fair`). -/
namespace SelectServer
open Wire (Bytes)
open Histories

/-! ## A game read back from the history -/

/-- `e` is the `StartGame` by which `host` started the game `g` against `guest` in room `r`. -/
structure StartedBy (e : Entry Managed (Call × Answer)) (r : RoomId) (g : GameId)
    (host guest : SessionId) : Prop where
  call : ∃ now, e.label.1 = .startGame host now
  accepted : e.label.2 = .room .success
  room : ∃ room, e.pre.manager.rooms[r]? = some room ∧ room.hostSession = host ∧
    room.members = [host, guest] ∧ guest ≠ host
  issued : ¬ e.pre.manager.Issued g ∧ e.post.manager.lastGameId = g ∧ e.post.manager.Live r g

/-- The stone and the cell of an accepted move of the game `g`. -/
def acceptedMove? (g : GameId) (e : Entry Managed (Call × Answer)) :
    Option (GameStone × Int × Int) :=
  match e.label with
  | (.placeStone _ _ _ x y _ _, .placed .success move) =>
    if move.game = g then some (move.placedStone, x, y) else none
  | _ => none

/-- The moves accepted in the game `g`, in order. -/
def acceptedMoves (g : GameId) (history : List (Entry Managed (Call × Answer))) :
    List (GameStone × Int × Int) :=
  history.filterMap (acceptedMove? g)

/-- The game in which these moves were made. -/
def replay (moves : List (GameStone × Int × Int)) : OmokGame := ({} : OmokGame).start.placeAll moves

/-- What the history tells about a game that is on. -/
structure Told (history : List (Entry Managed (Call × Answer))) (r : RoomId) (room : Room)
    (host guest : SessionId) : Prop where
  start : ∃ e ∈ history, StartedBy e r room.gameId host guest
  members : room.members = [host, guest]
  black : room.blackPlayer = host
  white : room.whitePlayer = guest
  distinct : guest ≠ host
  game : room.game = replay (acceptedMoves room.gameId history)
  count : room.game.moveCount = (acceptedMoves room.gameId history).length

theorem acceptedMoves_snoc (g : GameId) (history : List (Entry Managed (Call × Answer)))
    (e : Entry Managed (Call × Answer)) :
    acceptedMoves g (history ++ [e]) = acceptedMoves g history ++ (acceptedMove? g e).toList := by
  unfold acceptedMoves
  rw [List.filterMap_append]
  cases h : acceptedMove? g e <;> simp [h]

theorem acceptedMove?_none {g : GameId} {e : Entry Managed (Call × Answer)}
    (h : ∀ move, e.label.2 = .placed .success move → move.game ≠ g) : acceptedMove? g e = none := by
  unfold acceptedMove?
  split
  · rename_i s r g' x y out now move hl
    rw [if_neg (h move (by rw [hl]))]
  · rfl

theorem replay_snoc (moves : List (GameStone × Int × Int)) (stone : GameStone) (x y : Int) :
    replay (moves ++ [(stone, x, y)]) = ((replay moves).tryPlaceStone stone x y).2 := by
  simp [replay, OmokGame.placeAll]

theorem Told.extend {history : List (Entry Managed (Call × Answer))} {r : RoomId} {room : Room}
    {host guest : SessionId} (h : Told history r room host guest)
    {e : Entry Managed (Call × Answer)} (he : acceptedMove? room.gameId e = none) :
    Told (history ++ [e]) r room host guest := by
  have hmoves : acceptedMoves room.gameId (history ++ [e]) = acceptedMoves room.gameId history := by
    rw [acceptedMoves_snoc, he, Option.toList_none, List.append_nil]
  obtain ⟨start, hstart, hs⟩ := h.start
  exact { h with
    start := ⟨start, List.mem_append_left _ hstart, hs⟩
    game := by rw [hmoves]; exact h.game
    count := by rw [hmoves]; exact h.count }

theorem OmokGame.moveCount_accepted {g : OmokGame} {stone : GameStone} {x y : Int}
    (h : g.Accepts stone x y) : (g.tryPlaceStone stone x y).2.moveCount = g.moveCount + 1 := by
  rw [OmokGame.tryPlaceStone_accepted h]
  split
  · rfl
  · split <;> rfl

/-- One more stone of a game that goes on. -/
theorem Told.move {history : List (Entry Managed (Call × Answer))} {r : RoomId} {room : Room}
    {host guest : SessionId} (h : Told history r room host guest)
    {e : Entry Managed (Call × Answer)} {stone : GameStone} {x y : Int} {now : Time}
    (hacc : room.game.Accepts stone x y)
    (he : acceptedMove? room.gameId e = some (stone, x, y)) :
    Told (history ++ [e]) r (room.moved (room.game.tryPlaceStone stone x y).2 now) host guest := by
  obtain ⟨start, hstart, hs⟩ := h.start
  obtain ⟨hgame, -, hnum, -⟩ := Room.moved_fields room (room.game.tryPlaceStone stone x y).2 now
  have hmoves : acceptedMoves room.gameId (history ++ [e]) =
      acceptedMoves room.gameId history ++ [(stone, x, y)] := by
    rw [acceptedMoves_snoc, he, Option.toList_some]
  have hplayers : ∀ g now, (room.moved g now).members = room.members ∧
      (room.moved g now).blackPlayer = room.blackPlayer ∧
      (room.moved g now).whitePlayer = room.whitePlayer := by
    intro g now
    unfold Room.moved
    split <;> exact ⟨rfl, rfl, rfl⟩
  obtain ⟨hmem, hblack, hwhite⟩ := hplayers (room.game.tryPlaceStone stone x y).2 now
  refine ⟨⟨start, List.mem_append_left _ hstart, hnum ▸ hs⟩, hmem ▸ h.members, hblack ▸ h.black,
    hwhite ▸ h.white, h.distinct, ?_, ?_⟩
  · rw [hgame, hnum, hmoves, replay_snoc, ← h.game]
  · rw [hgame, hnum, hmoves, List.length_append, OmokGame.moveCount_accepted hacc, h.count]
    rfl

/-! ## Every game that is on is the replay of its moves -/

section
variable {m m' : RoomManager} {l : Call} {a : Answer} {records : List FinishedGame}

/-- An accepted move is one of a game that was on, and only there. -/
theorem Turnover.move_live (h : Turnover m l a m' records) {move : AcceptedMove}
    (ha : a = .placed .success move) : ∃ r, m.Live r move.game := by
  cases h with
  | started _ ha' => rw [ha] at ha'; cases ha'
  | @moved s u room x y out now _ ha' hseat hphase =>
    rw [ha] at ha'
    cases ha'
    exact ⟨room.id, room, ⟨hseat.here, hphase⟩, rfl⟩
  | ended hends _ hmove =>
    cases hends with
    | nil => exact absurd ha (hmove rfl move)
    | snoc hprev hon hcause =>
      cases hcause with
      | stone _ ha' =>
        rw [ha] at ha'
        cases ha'
        exact ⟨_, _, hprev.on_before hon, rfl⟩
      | resigned _ ha' => rw [ha] at ha'; cases ha'
      | left _ ha' => rw [ha] at ha'; cases ha'
      | timeout _ _ hno => exact absurd ha (hno move)

/-- A call that ends games adds no move to a game that stays on. -/
theorem Ends.move_recorded {m1 : RoomManager} (h : Ends m l a m1 records) {move : AcceptedMove}
    (ha : a = .placed .success move) (hne : records ≠ []) : ∃ f ∈ records, f.game = move.game := by
  cases h with
  | nil => exact absurd rfl hne
  | snoc _ _ hcause =>
    refine ⟨_, List.mem_append_right _ (List.mem_singleton_self _), ?_⟩
    cases hcause with
    | stone _ ha' => rw [ha] at ha'; cases ha'; rfl
    | resigned _ ha' => rw [ha] at ha'; cases ha'
    | left _ ha' => rw [ha] at ha'; cases ha'
    | timeout _ _ hno => exact absurd ha (hno move)

/-- The stone that ends a game is in none that is still on. -/
theorem Ends.move_over {m1 : RoomManager} (h : Ends m l a m1 records)
    (hmove : records = [] → ∀ move, a ≠ .placed .success move) {before : List FinishedGame}
    (hb : m'.Books (before ++ records)) {r : RoomId} {room : Room} (hon : m'.On r room)
    {move : AcceptedMove} (ha : a = .placed .success move) : move.game ≠ room.gameId := by
  intro e
  have hne : records ≠ [] := fun hnil => hmove hnil move ha
  obtain ⟨f, hf, hgame⟩ := h.move_recorded ha hne
  exact hb.open_unrecorded r room.gameId ⟨room, hon, rfl⟩ f (List.mem_append_right _ hf)
    (hgame.trans e)

theorem Turnover.last_le (h : Turnover m l a m' records) : m.lastGameId ≤ m'.lastGameId := by
  cases h with
  | started _ _ _ _ _ _ _ hlast =>
    show m.lastGameId ≤ m.lastGameId + 1
    grind
  | moved => exact UInt32.le_refl _
  | ended hends hquiet =>
    rw [hquiet.last, hends.grows.2]
    exact UInt32.le_refl _

end

/-- One call keeps what the history tells about the games that are on. -/
theorem told_step {wideChars : Bytes → Nat} {c c' : Managed} {la : Call × Answer}
    {history : List (Entry Managed (Call × Answer))} {records : List FinishedGame}
    (hstep : CallStep wideChars c la c') (hwf : c.manager.WellFormed)
    (hb : c.manager.Books records)
    (htold : ∀ r room, c.manager.On r room → ∃ host guest, Told history r room host guest)
    (hfresh : ∀ g, c.manager.lastGameId < g → acceptedMoves g history = []) {r : RoomId}
    {room : Room} (hon : c'.manager.On r room) :
    ∃ host guest, Told (history ++ [⟨c, la, c'⟩]) r room host guest := by
  obtain ⟨hturn, -⟩ := (hwf.call_effect hstep.returned).turnover hwf
  have hb' := hturn.books hb
  -- a game that was on before, unless this call moved in it
  have hkeep : ∀ {r : RoomId} {room : Room}, c.manager.On r room →
      (∀ move, la.2 = .placed .success move → move.game ≠ room.gameId) →
      ∃ host guest, Told (history ++ [⟨c, la, c'⟩]) r room host guest := by
    intro r room hon hno
    obtain ⟨host, guest, h⟩ := htold r room hon
    exact ⟨host, guest, h.extend (acceptedMove?_none hno)⟩
  generalize recordedBy c.manager la.1 c'.manager = new at hturn hb'
  generalize hm' : c'.manager = m' at hturn hb' hon
  cases hturn with
  | @started s guest u room0 now hl ha hseat hwait hhost hpair hne hlast =>
    rcases (RoomManager.on_started hseat.here hwait r room).mp hon with hon | ⟨rfl, rfl⟩
    · exact hkeep hon (by simp [ha])
    have hnone : acceptedMoves (c.manager.lastGameId + 1) (history ++ [⟨c, la, c'⟩]) = [] := by
      rw [acceptedMoves_snoc, hfresh _ (by grind), acceptedMove?_none (by simp [ha])]
      rfl
    have hstart : StartedBy ⟨c, la, c'⟩ room0.id (c.manager.lastGameId + 1) s guest :=
      { call := ⟨now, hl⟩
        accepted := ha
        room := ⟨room0, hseat.here, hhost, hpair, hne⟩
        issued := ⟨fun h => by have := h.2; grind, by rw [hm']; rfl, hm' ▸ ⟨_, hon, rfl⟩⟩ }
    refine ⟨s, guest, ⟨_, by simp, hstart⟩, hpair, hhost, ?_, hne, ?_, ?_⟩
    · simp [Room.startGame, hpair, hhost, hne]
    · rw [show (room0.startGame (c.manager.lastGameId + 1) now).gameId = c.manager.lastGameId + 1
        from rfl, hnone]
      rfl
    · rw [show (room0.startGame (c.manager.lastGameId + 1) now).gameId = c.manager.lastGameId + 1
        from rfl, hnone]
      rfl
  | @moved s u room0 x y out now hl ha hseat hphase hacc hgo =>
    obtain ⟨-, -, -, hsame⟩ :=
      Room.moved_fields room0 (room0.game.tryPlaceStone (room0.getPlayerStone s) x y).2 now
    have hphase' := hsame.trans hphase
    rcases (RoomManager.on_moved hphase' r room).mp hon with ⟨hon, hne⟩ | ⟨rfl, rfl⟩
    · refine hkeep hon fun move hmove e => hne ?_
      rw [ha] at hmove
      cases hmove
      exact hb.once r room0.id _ ⟨room, hon, rfl⟩ ⟨room0, ⟨hseat.here, hphase⟩, e⟩
    · obtain ⟨host, guest, h⟩ := htold room0.id room0 ⟨hseat.here, hphase⟩
      refine ⟨host, guest, h.move hacc ?_⟩
      have hla : la = (la.1, la.2) := rfl
      rw [hl, ha] at hla
      simp only [acceptedMove?, hla, RoomManager.acceptedMove, if_true]
  | ended hends hquiet hmove =>
    refine hkeep (hends.on_before ((hquiet.on r room).mp hon)) fun move ha => ?_
    exact hends.move_over hmove hb' hon ha

theorem fresh_step {wideChars : Bytes → Nat} {c c' : Managed} {la : Call × Answer}
    {history : List (Entry Managed (Call × Answer))} {records : List FinishedGame}
    (hstep : CallStep wideChars c la c') (hwf : c.manager.WellFormed)
    (hb : c.manager.Books records)
    (hfresh : ∀ g, c.manager.lastGameId < g → acceptedMoves g history = []) {g : GameId}
    (hg : c'.manager.lastGameId < g) : acceptedMoves g (history ++ [⟨c, la, c'⟩]) = [] := by
  obtain ⟨hturn, -⟩ := (hwf.call_effect hstep.returned).turnover hwf
  have hold : c.manager.lastGameId < g := UInt32.lt_of_le_of_lt hturn.last_le hg
  have hnone : acceptedMove? g ⟨c, la, c'⟩ = none := by
    refine acceptedMove?_none fun move ha e => ?_
    obtain ⟨r, hlive⟩ := hturn.move_live ha
    have hissued := (hb.open_issued r _ hlive).2
    rw [e] at hissued
    exact UInt32.not_le.mpr hold hissued
  rw [acceptedMoves_snoc, hfresh g hold, hnone]
  rfl

/-- After every run, every game that is on is the replay of its accepted moves. -/
theorem run_told {wideChars : Bytes → Nat} {config : RoomConfig} {m : RoomManager}
    {history : List (Entry Managed (Call × Answer))} {c : Managed}
    (hmake : RoomManager.make {} config = .ok m) (hrun : CallRun wideChars m history c) :
    (∀ r room, c.manager.On r room → ∃ host guest, Told history r room host guest) ∧
      ∀ g, c.manager.lastGameId < g → acceptedMoves g history = [] := by
  induction hrun with
  | start =>
    refine ⟨?_, fun _ _ => rfl⟩
    rintro r room ⟨hr, -⟩
    unfold RoomManager.make at hmake
    split at hmake <;> cases hmake
    simp at hr
  | snoc before taken ih =>
    have hwf := (run_wellFormed hmake before).manager
    have hb := (run_books hmake before).1
    exact ⟨fun r room hon => told_step taken hwf hb ih.1 ih.2 hon,
      fun g hg => fresh_step taken hwf hb ih.2 hg⟩

/-- A result comes from one call, and no move is accepted in its game after that. -/
theorem recorded_split {wideChars : Bytes → Nat} {config : RoomConfig} {m : RoomManager}
    {history : List (Entry Managed (Call × Answer))} {c : Managed}
    (hmake : RoomManager.make {} config = .ok m) (hrun : CallRun wideChars m history c)
    {e : Entry Managed (Call × Answer)} (he : e ∈ history) {f : FinishedGame}
    (hf : f ∈ recordedBy e.pre.manager e.label.1 e.post.manager) :
    ∃ before after, history = before ++ e :: after ∧ CallRun wideChars m before e.pre ∧
      CallStep wideChars e.pre e.label e.post ∧
      acceptedMoves f.game history = acceptedMoves f.game (before ++ [e]) := by
  induction hrun with
  | start => cases he
  | @snoc history c c' la hbefore taken ih =>
    rcases List.mem_append.mp he with he | he
    · obtain ⟨b, a, e1, hrun, hstep, hmoves⟩ := ih he
      refine ⟨b, a ++ [⟨c, la, c'⟩], by rw [e1, List.append_assoc, List.cons_append], hrun, hstep, ?_⟩
      have hwf := (run_wellFormed hmake hbefore).manager
      have hb := (run_books hmake hbefore).1
      obtain ⟨hturn, -⟩ := (hwf.call_effect taken.returned).turnover hwf
      have hmem : f ∈ recorded history := List.mem_flatMap.mpr ⟨e, he, hf⟩
      have hnone : acceptedMove? f.game ⟨c, la, c'⟩ = none := by
        refine acceptedMove?_none fun move ha e2 => ?_
        obtain ⟨r, hlive⟩ := hturn.move_live ha
        exact hb.open_unrecorded r _ hlive f hmem e2.symm
      rw [acceptedMoves_snoc, hnone, hmoves, Option.toList_none, List.append_nil]
    · obtain rfl := List.mem_singleton.mp he
      exact ⟨history, [], rfl, hbefore, taken, rfl⟩

/-! ## The record against the game -/

/-- The status of a game that a colour won. -/
def wonBy : GameStone → GameState
  | .black => .blackWon
  | _ => .whiteWon

/-- The status of a game that a colour lost. -/
def lostBy : GameStone → GameState
  | .black => .whiteWon
  | _ => .blackWon

/-- The colour of a session in the game that `host` started against `guest`. -/
def colourOf (host guest s : SessionId) : GameStone :=
  if s = host then .black else if s = guest then .white else .empty

/-- A result `f` that is right for the reason it gives: `e` is the call that recorded it, `room`
the room before that call, and `moves` are all moves accepted in the game. -/
def FairResult (e : Entry Managed (Call × Answer)) (room : Room) (host guest : SessionId)
    (moves : List (GameStone × Int × Int)) (f : FinishedGame) : Prop :=
  match f.reason with
  | .fiveInRow => ∃ winner x y, (winner = .black ∨ winner = .white) ∧ f.status = wonBy winner ∧
      (replay moves).board.FiveAligned winner ∧ moves.getLast? = some (winner, x, y)
  | .boardFull => f.status = .draw ∧ f.moveCount = 225 ∧
      ¬ (replay moves).board.FiveAligned .black ∧ ¬ (replay moves).board.FiveAligned .white
  | .resigned => ∃ s r g now, e.label.1 = .resign s r g now ∧ (s = host ∨ s = guest) ∧
      f.status = lostBy (colourOf host guest s) ∧ now < room.turnDeadline
  | .turnTimeout => ∃ loser now, (loser = .black ∨ loser = .white) ∧
      (replay moves).nextTurn = loser ∧ f.status = lostBy loser ∧
      e.label.1.time = some now ∧ room.turnDeadline ≤ now
  | reason => ∃ s now, e.label.1 = .leaveRoom s reason now ∧ (s = host ∨ s = guest) ∧
      f.status = lostBy (colourOf host guest s) ∧ now < room.turnDeadline

theorem forfeit_status {g : OmokGame} {loser : GameStone} (h : g.status = .playing)
    (hl : loser = .black ∨ loser = .white) : (g.forfeit loser).2.status = lostBy loser := by
  rw [OmokGame.forfeit_playing h hl]
  rcases hl with rfl | rfl <;> rfl

theorem replay_sound (moves : List (GameStone × Int × Int)) : (replay moves).Sound := by
  unfold replay OmokGame.placeAll
  induction moves using List.reverseRecOn with
  | nil => exact OmokGame.start_sound _
  | append_singleton moves move ih =>
    rw [List.foldl_append]
    exact ih.tryPlaceStone _ _ _

theorem replay_agrees (moves : List (GameStone × Int × Int)) : (replay moves).StatusAgrees :=
  OmokGame.placeAll_agrees moves _ (OmokGame.start_sound _)
    ((OmokGame.start_sound _).agrees_playing rfl)

/-- A member of a game that is on plays the colour it was given at the start. -/
theorem Told.stone {history : List (Entry Managed (Call × Answer))} {m : RoomManager}
    (hwf : m.WellFormed) {s : SessionId} {u : User} {room : Room} (hseat : m.Seated s u room)
    (hphase : room.phase = .playing) {r : RoomId} {host guest : SessionId}
    (h : Told history r room host guest) :
    (s = host ∨ s = guest) ∧ room.getPlayerStone s = colourOf host guest s := by
  obtain ⟨guest', hin⟩ := (hwf.room hseat.here).playing hphase
  have hhost : room.hostSession = host := hin.black.symm.trans h.black
  have hguest : guest' = guest := hin.white.symm.trans h.white
  unfold colourOf
  rcases hwf.stone_of_member hseat hin with ⟨rfl, e⟩ | ⟨rfl, e⟩
  · exact ⟨Or.inl hhost, by rw [e, if_pos hhost]⟩
  · refine ⟨Or.inr hguest, ?_⟩
    rw [e, if_neg (hguest ▸ h.distinct), if_pos hguest]

theorem not_expired {room : Room} {now : Time} (hphase : room.phase = .playing)
    (hstatus : room.game.status = .playing) (h : ¬ room.isTurnExpired now = true) :
    now < room.turnDeadline := by
  rw [RoomManager.isTurnExpired_iff] at h
  by_contra hle
  exact h ⟨hphase, hstatus, Int.not_lt.mp hle⟩

/-- The last stone of a game that it ended. -/
theorem fair_stone {e : Entry Managed (Call × Answer)} {room : Room} {host guest : SessionId}
    {moves : List (GameStone × Int × Int)} {stone : GameStone} {x y : Int} {f : FinishedGame}
    (hacc : (replay moves).Accepts stone x y)
    (hend : ((replay moves).tryPlaceStone stone x y).2.status ≠ .playing)
    (hstatus : f.status = ((replay moves).tryPlaceStone stone x y).2.status)
    (hreason : f.reason = ((replay moves).tryPlaceStone stone x y).2.endReason)
    (hcount : f.moveCount = ((replay moves).tryPlaceStone stone x y).2.moveCount) :
    FairResult e room host guest (moves ++ [(stone, x, y)]) f := by
  rw [← replay_snoc] at hend hstatus hreason hcount
  have hagrees := replay_agrees (moves ++ [(stone, x, y)])
  have hsettled := ((replay_sound moves).tryPlaceStone_settled hacc).2
  rw [← replay_snoc] at hsettled
  by_cases hdraw : (replay (moves ++ [(stone, x, y)])).status = .draw
  · obtain ⟨hfull, hb, hw⟩ := hagrees.draw.mp hdraw
    rw [OmokGame.endReason, if_pos hdraw] at hreason
    simp only [FairResult, hreason]
    refine ⟨hstatus.trans hdraw, ?_, hb, hw⟩
    rw [hcount, (replay_sound _).count, (Board.full_iff _).mp hfull]
  · rw [OmokGame.endReason, if_neg hdraw] at hreason
    simp only [FairResult, hreason]
    have hfive : (replay (moves ++ [(stone, x, y)])).board.FiveAligned stone := by
      by_contra hno
      by_cases hfull : (replay (moves ++ [(stone, x, y)])).board.Full
      · exact hdraw (hsettled.drawn hno hfull)
      · exact hend (hsettled.open_ hno hfull)
    refine ⟨stone, x, y, hacc.colour, ?_, hfive, by simp⟩
    rw [hstatus, hsettled.won hfive]
    rcases hacc.colour with rfl | rfl <;> rfl

theorem Cause.fair {e : Entry Managed (Call × Answer)} {room : Room} {g : OmokGame}
    {reason : GameEndReason} {history : List (Entry Managed (Call × Answer))} {r : RoomId}
    {host guest : SessionId} (hc : Cause e.pre.manager e.label.1 e.label.2 room g reason)
    (hwf : e.pre.manager.WellFormed) (hon : e.pre.manager.On room.id room)
    (h : Told history r room host guest) :
    (({ room with game := g } : Room).record reason).moveCount =
        (acceptedMoves room.gameId (history ++ [e])).length ∧
      FairResult e room host guest (acceptedMoves room.gameId (history ++ [e]))
        (({ room with game := g } : Room).record reason) := by
  obtain ⟨_, hin⟩ := (hwf.room hon.1).playing hon.2
  have hforfeit := room.game.forfeit_moveCount
  have hsame : (∀ move, e.label.2 ≠ .placed .success move) →
      acceptedMoves room.gameId (history ++ [e]) = acceptedMoves room.gameId history := by
    intro hno
    rw [acceptedMoves_snoc, acceptedMove?_none fun move ha => absurd ha (hno move)]
    exact List.append_nil _
  cases hc with
  | @stone s u x y out now hl ha hseat hlive hacc hend =>
    have he : acceptedMove? room.gameId e = some (room.getPlayerStone s, x, y) := by
      have hla : e.label = (e.label.1, e.label.2) := rfl
      rw [hl, ha] at hla
      simp only [acceptedMove?, hla, RoomManager.acceptedMove, if_true]
    rw [acceptedMoves_snoc, he, Option.toList_some]
    refine ⟨?_, fair_stone (h.game ▸ hacc) (h.game ▸ hend) (by rw [← h.game]; rfl)
      (by rw [← h.game]; rfl) (by rw [← h.game]; rfl)⟩
    rw [List.length_append, ← h.count]
    exact OmokGame.moveCount_accepted hacc
  | @resigned s u now hl ha hseat hlive =>
    rw [hsame (by simp [ha])]
    obtain ⟨hplayer, hstone⟩ := h.stone hwf hseat hon.2
    refine ⟨(hforfeit _).trans h.count, s, room.id, room.gameId, now, hl, hplayer, ?_,
      not_expired hon.2 hin.status hlive⟩
    rw [← hstone]
    exact forfeit_status hin.status (hwf.stone_colour hseat hon.2)
  | @left s u reason now hl ha hreason hseat hlive =>
    rw [hsame (by simp [ha])]
    obtain ⟨hplayer, hstone⟩ := h.stone hwf hseat hon.2
    have hstatus : (room.game.forfeit (room.getPlayerStone s)).2.status =
        lostBy (colourOf host guest s) := by
      rw [← hstone]
      exact forfeit_status hin.status (hwf.stone_colour hseat hon.2)
    refine ⟨(hforfeit _).trans h.count, ?_⟩
    rcases hreason with rfl | rfl
    · exact ⟨s, now, hl, hplayer, hstatus, not_expired hon.2 hin.status hlive⟩
    · exact ⟨s, now, hl, hplayer, hstatus, not_expired hon.2 hin.status hlive⟩
  | @timeout now hl he hno =>
    rw [hsame hno]
    have hturn := (hwf.room hon.1).sound.turn hin.status
    exact ⟨(hforfeit _).trans h.count, room.game.nextTurn, now, hturn, by rw [← h.game],
      forfeit_status hin.status hturn, hl, (RoomManager.isTurnExpired_iff.mp he).2.2⟩

/-- Every result recorded in any run names the two players of the game, the id its `StartGame`
handed out and the number of moves accepted in it, and is right for the reason it gives. -/
theorem results_fair {wideChars : Bytes → Nat} {config : RoomConfig} {m : RoomManager}
    {history : List (Entry Managed (Call × Answer))} {c : Managed}
    (hmake : RoomManager.make {} config = .ok m) (hrun : CallRun wideChars m history c)
    {e : Entry Managed (Call × Answer)} (he : e ∈ history) {f : FinishedGame}
    (hf : f ∈ recordedBy e.pre.manager e.label.1 e.post.manager) :
    ∃ before after host guest room, history = before ++ e :: after ∧
      (∃ start ∈ before, StartedBy start f.room f.game host guest) ∧
      e.pre.manager.On f.room room ∧ room.game = replay (acceptedMoves f.game before) ∧
      f.targets = [host, guest] ∧ f.moveCount = (acceptedMoves f.game history).length ∧
      FairResult e room host guest (acceptedMoves f.game history) f := by
  obtain ⟨before, after, hsplit, hbefore, hstep, hmoves⟩ := recorded_split hmake hrun he hf
  have hwf := (run_wellFormed hmake hbefore).manager
  obtain ⟨hturn, -⟩ := (hwf.call_effect hstep.returned).turnover hwf
  rw [hmoves]
  generalize recordedBy e.pre.manager e.label.1 e.post.manager = records at hturn hf
  generalize e.post.manager = m' at hturn
  cases hturn with
  | started => cases hf
  | moved => cases hf
  | ended hends _ _ =>
    obtain ⟨room, g, reason, hon, hcause, rfl⟩ := hends.causes hf
    obtain ⟨host, guest, htold⟩ := (run_told hmake hbefore).1 room.id room hon
    obtain ⟨hcount, hfair⟩ := hcause.fair hwf hon htold
    exact ⟨before, after, host, guest, room, hsplit, htold.start, hon, htold.game, htold.members,
      hcount, hfair⟩

theorem results_fair_resigned : ∃ history c, ∃ e ∈ history,
    CallRun (fun _ => 1) RoomManager.fresh history c ∧
      ∃ f ∈ recordedBy e.pre.manager e.label.1 e.post.manager,
        f.moveCount = (acceptedMoves f.game history).length := by
  obtain ⟨history, c, hrun, hcheck⟩ := CallRun.played (fun _ => 1) RoomManager.fresh resignedCalls
    (fun history _ => decide (0 < (recorded history).length)) (by decide +kernel)
  obtain ⟨f, hf⟩ := List.exists_mem_of_length_pos (of_decide_eq_true hcheck)
  obtain ⟨e, he, hf⟩ := List.mem_flatMap.mp hf
  obtain ⟨-, -, -, -, -, -, -, -, -, -, hcount, -⟩ :=
    results_fair RoomManager.make_fresh hrun he hf
  exact ⟨history, c, e, he, hrun, f, hf, hcount⟩

end SelectServer
