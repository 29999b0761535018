import SelectServer.TurnTimeouts

/- Which stones are accepted, and what they change. `PlaceStone` asks in three
   layers who the session is, which game it means and whose turn it is; `MayPlace`
   says the same at once. A game id is handed out once and stays with its room, so
   a request that names a game reaches no other game (`stones_guarded`). -/
namespace SelectServer
open Wire (Bytes)
open Histories

namespace RoomManager

/-- Everything that must hold for a stone of `s` in `room` to be accepted. -/
structure MayPlace (m : RoomManager) (s : SessionId) (r : RoomId) (g : GameId) (x y : Int)
    (now : Time) (room : Room) : Prop where
  user : ∃ u, m.users.users[s]? = some u ∧ u.state = .inRoom ∧ u.roomId = r
  here : m.rooms[r]? = some room
  game : g ≠ 0 ∧ g = room.gameId
  playing : room.phase = .playing
  inTime : now < room.turnDeadline
  inside : 0 ≤ x ∧ x < 15 ∧ 0 ≤ y ∧ y < 15
  turn : room.getPlayerStone s = room.game.nextTurn
  vacant : room.game.board.cell x y = .empty

/-- One more stone of `s` in the room `r`, which was `room`, and the report of it. -/
structure Placed (m : RoomManager) (s : SessionId) (r : RoomId) (x y : Int) (room : Room)
    (move : AcceptedMove) (m' : RoomManager) : Prop where
  users : m'.users = m.users
  others : ∀ r' : RoomId, r' ≠ r → m'.rooms[r']? = m.rooms[r']?
  room : ∃ room', m'.rooms[r]? = some room' ∧ room'.gameId = room.gameId ∧
    room'.members = room.members ∧ room'.game.moveCount = room.game.moveCount + 1 ∧
    (∀ x' y', room'.game.board.cell x' y' =
      if x' = x ∧ y' = y then room.getPlayerStone s else room.game.board.cell x' y') ∧
    move = { room := r
             game := room.gameId
             x := x
             y := y
             placedStone := room.getPlayerStone s
             nextTurn := room'.game.nextTurn
             status := room'.game.status
             moveCount := room'.game.moveCount }

variable {m : RoomManager} {s : SessionId} {r : RoomId} {g : GameId} {x y : Int} {now : Time}
  {room : Room}

theorem MayPlace.seated (hm : m.MayPlace s r g x y now room) (h : m.WellFormed) :
    ∃ u, m.Seated s u room ∧ room.id = r := by
  obtain ⟨u, hu, hstate, rfl⟩ := hm.user
  obtain ⟨hid, -⟩ := h.stored hm.here
  obtain ⟨room', hr, hmem⟩ := h.inRoom hu hstate
  cases hm.here.symm.trans hr
  exact ⟨u, ⟨hu, hstate, hid.symm, hid ▸ hm.here, hmem⟩, hid⟩

theorem MayPlace.accepts (hm : m.MayPlace s r g x y now room) (h : m.WellFormed) :
    room.game.Accepts (room.getPlayerStone s) x y := by
  obtain ⟨guest, hin⟩ := (h.room hm.here).playing hm.playing
  have hturn := (h.room hm.here).sound.turn hin.status
  exact ⟨hin.status, hm.turn ▸ hturn, isInside_iff.mpr hm.inside, hm.turn, hm.vacant⟩

theorem MayPlace.live (hm : m.MayPlace s r g x y now room) : ¬ room.isTurnExpired now = true :=
  fun he => not_lt.mpr (isTurnExpired_iff.mp he).2.2 hm.inTime

theorem mayPlace_of_accepts {u : User} (h : m.WellFormed) (hseat : m.Seated s u room)
    (hg : room.gameId ≠ 0) (hlive : ¬ room.isTurnExpired now = true)
    (hphase : room.phase = .playing) (hacc : room.game.Accepts (room.getPlayerStone s) x y) :
    m.MayPlace s room.id room.gameId x y now room where
  user := ⟨u, hseat.user, hseat.state, hseat.roomId⟩
  here := hseat.here
  game := ⟨hg, rfl⟩
  playing := hphase
  inTime := h.on_live ⟨hseat.here, hphase⟩ hlive
  inside := isInside_iff.mp hacc.inside
  turn := hacc.turn
  vacant := hacc.vacant

/-- The board after an accepted stone. -/
theorem board_accepted {g : OmokGame} {stone : GameStone} (h : g.Accepts stone x y) (x' y' : Int) :
    (g.tryPlaceStone stone x y).2.board.cell x' y' =
      if x' = x ∧ y' = y then stone else g.board.cell x' y' := by
  have hboard : (g.tryPlaceStone stone x y).2.board = g.board.put x y stone := by
    rw [OmokGame.tryPlaceStone_accepted h]
    split
    · rfl
    · split <;> rfl
  rw [hboard, Board.cell_put h.inside]

/-- What `PlaceStone` leaves has the room after the stone under its key. -/
theorem moved_room (m : RoomManager) (room : Room) (g : OmokGame) (now : Time) :
    ∃ room', (m.moved room g now).rooms[room.id]? = some room' ∧ room'.game = g ∧
      room'.gameId = room.gameId ∧ room'.members = room.members := by
  unfold moved
  split
  · rename_i hgo
    refine ⟨room.moved g now, ?_, ?_⟩
    · show (m.rooms.insert room.id _)[room.id]? = _
      simp
    · rw [Room.moved, if_pos hgo]
      exact ⟨rfl, rfl, rfl⟩
  · rename_i hend
    have hroom : room.moved g now = { room with game := g } := if_neg hend
    rw [hroom]
    refine ⟨({ room with game := g } : Room).finishGame, ?_, rfl, rfl, rfl⟩
    show (m.rooms.insert room.id _)[room.id]? = _
    simp

theorem moved_others (m : RoomManager) (room : Room) (g : OmokGame) (now : Time) :
    (m.moved room g now).users = m.users ∧
      ∀ r : RoomId, r ≠ room.id → (m.moved room g now).rooms[r]? = m.rooms[r]? := by
  obtain ⟨-, hid, -⟩ := Room.moved_fields room g now
  unfold moved
  split
  · refine ⟨rfl, fun r hr => ?_⟩
    show (m.rooms.insert room.id _)[r]? = _
    grind
  · refine ⟨rfl, fun r hr => ?_⟩
    show (m.rooms.insert (room.moved g now).id _)[r]? = _
    rw [hid]
    grind

theorem placed_moved (hacc : room.game.Accepts (room.getPlayerStone s) x y) :
    m.Placed s room.id x y room
      (acceptedMove room (room.getPlayerStone s) x y
        (room.game.tryPlaceStone (room.getPlayerStone s) x y).2)
      (m.moved room (room.game.tryPlaceStone (room.getPlayerStone s) x y).2 now) := by
  obtain ⟨husers, hothers⟩ :=
    moved_others m room (room.game.tryPlaceStone (room.getPlayerStone s) x y).2 now
  obtain ⟨room', hr, hgame, hnum, hmem⟩ :=
    moved_room m room (room.game.tryPlaceStone (room.getPlayerStone s) x y).2 now
  refine ⟨husers, hothers, room', hr, hnum, hmem, ?_, fun x' y' => ?_, ?_⟩
  · rw [hgame, OmokGame.moveCount_accepted hacc]
  · rw [hgame, board_accepted hacc]
  · rw [hgame]
    rfl

/-- `PlaceStone` accepts a stone if and only if it may be placed, and then places it. -/
theorem placeStone_guarded (h : m.WellFormed) (s : SessionId) (r : RoomId) (g : GameId) (x y : Int)
    (out : AcceptedMove) (now : Time) :
    ∃ answer move m', m.placeStone s r g x y out now = .ok (answer, move, m') ∧
      (answer = .success ↔ ∃ room, m.MayPlace s r g x y now room) ∧
      (answer = .success → ∃ room, m.rooms[r]? = some room ∧ m.Placed s r x y room move m') := by
  rcases placeStone_cases h s r g x y now with ⟨result, hne, e⟩ |
    ⟨u, room, hseat, rfl, hg, rfl, hrest⟩
  · refine ⟨_, _, _, placeStone_misdirected e, ⟨fun h => absurd h hne.1, ?_⟩, fun h => absurd h hne.1⟩
    rintro ⟨room, hm⟩
    obtain ⟨u, hseat, hid⟩ := hm.seated h
    have hfound := gameRoomOf_seated hseat (hm.game.2 ▸ hm.game.1)
    rw [hid, ← hm.game.2, e] at hfound
    cases hfound
  -- the room that the request means is the room that it is found in
  have hsame : ∀ {room'}, m.MayPlace s room.id room.gameId x y now room' → room' = room := by
    intro room' hm
    exact Option.some.inj (hm.here.symm.trans hseat.here)
  have hrefused : ∀ {answer : GameMoveResult} {m' : RoomManager}, answer ≠ .success →
      m.placeStone s room.id room.gameId x y out now = .ok (answer, out, m') →
        (¬ m.MayPlace s room.id room.gameId x y now room) →
          ∃ answer move m', m.placeStone s room.id room.gameId x y out now = .ok (answer, move, m') ∧
            (answer = .success ↔ ∃ room', m.MayPlace s room.id room.gameId x y now room') ∧
            (answer = .success → ∃ room', m.rooms[room.id]? = some room' ∧
              m.Placed s room.id x y room' move m') := by
    intro answer m' hne e hno
    refine ⟨_, _, _, e, ⟨fun h => absurd h hne, ?_⟩, fun h => absurd h hne⟩
    rintro ⟨room', hm⟩
    cases hsame hm
    exact absurd hm hno
  rcases hrest with he | hphase | ⟨hlive, hphase, ⟨result, answer, hans, ep, er, hno⟩ | hacc⟩
  · exact hrefused (by decide) (placeStone_expired h hseat hg he) fun hm => hm.live he
  · refine hrefused (by decide) (placeStone_waiting hseat hg hphase) fun hm => ?_
    have hplaying := hm.playing
    rw [hphase] at hplaying
    cases hplaying
  · exact hrefused hans.1 (placeStone_rejected hseat hg hlive ep er) fun hm => hno (hm.accepts h)
  · refine ⟨_, _, _, placeStone_taken hseat hg hlive hphase hacc, ?_, fun _ =>
      ⟨room, hseat.here, placed_moved hacc⟩⟩
    exact ⟨fun _ => ⟨room, mayPlace_of_accepts h hseat hg hlive hphase hacc⟩, fun _ => rfl⟩

end RoomManager

/-! ## Game ids over a run -/

/-- The game that a request names. -/
def Call.gameId? : Call → Option GameId
  | .placeStone _ _ g _ _ _ _ => some g
  | .resign _ _ g _ => some g
  | _ => none

/-- The room and the id of the game that a call starts. -/
def startedGame? (e : Entry Managed (Call × Answer)) : Option (RoomId × GameId) :=
  match e.label with
  | (.startGame s _, .room .success) =>
    (e.pre.manager.users.find s).map fun user => (user.roomId, e.post.manager.lastGameId)
  | _ => none

/-- The games that were started in a run, in order. -/
def startedGames (history : List (Entry Managed (Call × Answer))) : List (RoomId × GameId) :=
  history.filterMap startedGame?

namespace RoomManager
variable {m m1 m' : RoomManager}

/-- Every room of `m'` has the game id of the room that `m` has under its key, or none. -/
def IdsKept (m m' : RoomManager) : Prop :=
  ∀ (r : RoomId) room', m'.rooms[r]? = some room' →
    room'.gameId = 0 ∨ ∃ room, m.rooms[r]? = some room ∧ room.gameId = room'.gameId

theorem idsKept_same (h : m'.rooms = m.rooms) : IdsKept m m' := by
  intro r room' hr
  rw [h] at hr
  exact Or.inr ⟨room', hr, rfl⟩

theorem IdsKept.trans (h : IdsKept m m1) (h' : IdsKept m1 m') : IdsKept m m' := by
  intro r room' hr
  rcases h' r room' hr with h0 | ⟨room1, hr1, e1⟩
  · exact Or.inl h0
  rcases h r room1 hr1 with h0 | ⟨room, hr, e⟩
  · exact Or.inl (e1.symm.trans h0)
  · exact Or.inr ⟨room, hr, e.trans e1⟩

theorem idsKept_insert {key : RoomId} {room1 : Room} (hrooms : m'.rooms = m.rooms.insert key room1)
    (hnum : room1.gameId = 0 ∨ ∃ room, m.rooms[key]? = some room ∧ room.gameId = room1.gameId) :
    IdsKept m m' := by
  intro r room' hr
  rw [hrooms] at hr
  by_cases e : r = key
  · subst e
    have hroom : room' = room1 := by simpa [eq_comm] using hr
    rw [hroom]
    exact hnum
  · have hold : m.rooms[r]? = some room' := by grind
    exact Or.inr ⟨room', hold, rfl⟩

/-- A room that is stored over itself. -/
theorem idsKept_over {room room1 : Room} (hrooms : m'.rooms = m.rooms.insert room.id room1)
    (hr : m.rooms[room.id]? = some room) (hnum : room1.gameId = room.gameId) : IdsKept m m' :=
  idsKept_insert hrooms (Or.inr ⟨room, hr, hnum.symm⟩)

theorem idsKept_settle {room room1 : Room} (reason : GameEndReason)
    (hr : m.rooms[room.id]? = some room) (hid : room1.id = room.id)
    (hnum : room1.gameId = room.gameId) : IdsKept m (m.settle room1 reason) :=
  idsKept_over (congrArg (m.rooms.insert · _) hid) hr hnum

theorem removeMember_gameId (room : Room) (s : SessionId) :
    (room.removeMember s).2.gameId = room.gameId := by
  unfold Room.removeMember
  split <;> rfl

theorem idsKept_depart {s : SessionId} {u : User} {room : Room}
    (hr : m.rooms[room.id]? = some room) : IdsKept m (m.depart s u room) := by
  unfold depart
  dsimp only
  split
  · intro r room' hr'
    have hold : m.rooms[r]? = some room' := by
      have he : (m.rooms.erase room.id)[r]? = some room' := hr'
      grind
    exact Or.inr ⟨room', hold, rfl⟩
  · exact idsKept_over rfl hr (removeMember_gameId room s)

end RoomManager

/-- A call that starts no game gives no room another id. -/
theorem Effect.idsKept {wideChars : Bytes → Nat} {m m' : RoomManager} {l : Call} {a : Answer}
    (he : Effect wideChars m l a m') (h : m.WellFormed)
    (hno : ∀ s now, l = .startGame s now → a ≠ .room .success) : m.IdsKept m' := by
  cases he with
  | refused => exact RoomManager.idsKept_same rfl
  | loggedIn => exact RoomManager.idsKept_same rfl
  | removed => exact RoomManager.idsKept_same rfl
  | popped => exact RoomManager.idsKept_same rfl
  | created => exact RoomManager.idsKept_insert rfl (Or.inl rfl)
  | entered _ hroom => exact RoomManager.idsKept_over rfl hroom rfl
  | readied hseat => exact RoomManager.idsKept_over rfl hseat.here rfl
  | started => exact absurd rfl (hno _ _ rfl)
  | @moved s u room x y out now hseat =>
    obtain ⟨-, hid, hnum, -⟩ :=
      Room.moved_fields room (room.game.tryPlaceStone (room.getPlayerStone s) x y).2 now
    unfold RoomManager.moved
    split
    · exact RoomManager.idsKept_over rfl hseat.here hnum
    · exact RoomManager.idsKept_settle _ hseat.here hid hnum
  | expired _ _ hseat => exact RoomManager.idsKept_settle _ hseat.here rfl rfl
  | resigned hseat => exact RoomManager.idsKept_settle _ hseat.here rfl rfl
  | left hseat _ hclosed =>
    have hafter := (h.closed hseat hclosed).2.1.here
    refine RoomManager.IdsKept.trans ?_ (RoomManager.idsKept_depart hafter)
    cases hclosed with
    | idle => exact RoomManager.idsKept_same rfl
    | expired => exact RoomManager.idsKept_settle _ hseat.here rfl rfl
    | forfeited => exact RoomManager.idsKept_settle _ hseat.here rfl rfl
  | swept =>
    rename_i traversal now
    obtain ⟨m1, e, hswept⟩ := RoomManager.updateTimeouts_swept h traversal now
    rw [RoomManager.updateTimeouts_spec h] at e
    cases e
    intro r room' hr
    rw [hswept.rooms] at hr
    obtain ⟨room, hroom, rfl⟩ := Option.map_eq_some_iff.mp hr
    exact Or.inr ⟨room, hroom, Room.timedOut_gameId.symm⟩

/-- What the history tells about the ids that the rooms hold, also after their games. -/
structure Numbered (history : List (Entry Managed (Call × Answer))) (m : RoomManager) : Prop where
  distinct : ((startedGames history).map Prod.snd).Nodup
  issued : ∀ p ∈ startedGames history, p.2 ≤ m.lastGameId
  held : ∀ (r : RoomId) room, m.rooms[r]? = some room →
    room.gameId = 0 ∨ (r, room.gameId) ∈ startedGames history

theorem startedGames_snoc (history : List (Entry Managed (Call × Answer)))
    (e : Entry Managed (Call × Answer)) :
    startedGames (history ++ [e]) = startedGames history ++ (startedGame? e).toList := by
  unfold startedGames
  rw [List.filterMap_append]
  cases h : startedGame? e <;> simp [h]

theorem startedGame?_none {e : Entry Managed (Call × Answer)}
    (h : ∀ s now, e.label.1 = .startGame s now → e.label.2 ≠ .room .success) :
    startedGame? e = none := by
  unfold startedGame?
  split
  · rename_i s now hl
    exact absurd (by rw [hl]) (h s now (by rw [hl]))
  · rfl

theorem numbered_step {wideChars : Bytes → Nat} {c c' : Managed} {la : Call × Answer}
    {history : List (Entry Managed (Call × Answer))} (hstep : CallStep wideChars c la c')
    (hwf : c.manager.WellFormed) (hn : Numbered history c.manager) :
    Numbered (history ++ [⟨c, la, c'⟩]) c'.manager := by
  have heffect := hwf.call_effect hstep.returned
  have hlast := (heffect.turnover hwf).1.last_le
  obtain ⟨l, a⟩ := la
  dsimp only at heffect hlast
  by_cases hstart : ∃ s now, l = .startGame s now ∧ a = .room .success
  · obtain ⟨s, now, rfl, rfl⟩ := hstart
    obtain ⟨hnew, hmax⟩ := heffect.start_id
    have hlt : c.manager.lastGameId < c'.manager.lastGameId := by
      rw [hnew]
      grind
    generalize hm' : c'.manager = m' at heffect hlast hnew hlt
    cases heffect with
    | refused ha => cases ha
    | expired hactor => cases hactor
    | @started _ guest u room _ hseat hwait =>
      have hgame : startedGame? ⟨c, (.startGame s now, .room .success), c'⟩ =
          some (room.id, c.manager.lastGameId + 1) := by
        show (c.manager.users.find s).map _ = _
        rw [UserManager.find, hseat.user, Option.map_some, hseat.roomId, hm']
        rfl
      refine ⟨?_, ?_, ?_⟩
      · -- the new number is above every number given before
        rw [startedGames_snoc, hgame, List.map_append, List.nodup_append]
        refine ⟨hn.distinct, List.nodup_singleton _, fun g hg g' hg' e => ?_⟩
        obtain ⟨p, hp, rfl⟩ := List.mem_map.mp hg
        obtain rfl : g' = c.manager.lastGameId + 1 := by simpa using hg'
        have hle := hn.issued p hp
        rw [e] at hle
        exact UInt32.not_le.mpr hlt hle
      · rw [startedGames_snoc, hgame]
        intro p hp
        rcases List.mem_append.mp hp with hp | hp
        · exact UInt32.le_trans (hn.issued p hp) hlast
        · obtain rfl : p = (room.id, c.manager.lastGameId + 1) := by simpa using hp
          exact UInt32.le_refl _
      · rw [startedGames_snoc, hgame]
        intro r room' hr
        have hinsert : (c.manager.rooms.insert room.id
          (room.startGame (c.manager.lastGameId + 1) now))[r]? = some room' := hr
        by_cases e : r = room.id
        · subst e
          have hroom : room' = room.startGame (c.manager.lastGameId + 1) now := by
            simpa [eq_comm] using hinsert
          rw [hroom]
          exact Or.inr (by simp [Room.startGame])
        · have hold : c.manager.rooms[r]? = some room' := by grind
          exact (hn.held r room' hold).imp_right fun h => List.mem_append_left _ h
  · -- nothing else gives a number, and rooms keep theirs
    have hno : ∀ s now, l = .startGame s now → a ≠ .room .success := by
      intro s now hl ha
      exact hstart ⟨s, now, hl, ha⟩
    have hsame : startedGames (history ++ [⟨c, (l, a), c'⟩]) = startedGames history := by
      rw [startedGames_snoc, startedGame?_none hno, Option.toList_none, List.append_nil]
    refine ⟨?_, ?_, ?_⟩
    · rw [hsame]
      exact hn.distinct
    · rw [hsame]
      exact fun p hp => UInt32.le_trans (hn.issued p hp) hlast
    · rw [hsame]
      intro r room' hr
      rcases heffect.idsKept hwf hno r room' hr with h0 | ⟨room, hroom, e⟩
      · exact Or.inl h0
      · rw [← e]
        exact hn.held r room hroom

theorem run_numbered {wideChars : Bytes → Nat} {config : RoomConfig} {m : RoomManager}
    {history : List (Entry Managed (Call × Answer))} {c : Managed}
    (hmake : RoomManager.make {} config = .ok m) (hrun : CallRun wideChars m history c) :
    Numbered history c.manager := by
  induction hrun with
  | start =>
    unfold RoomManager.make at hmake
    split at hmake <;> cases hmake
    exact ⟨List.nodup_nil, by simp [startedGames], by simp⟩
  | snoc before taken ih => exact numbered_step taken (run_wellFormed hmake before).manager ih

/-- A request that names a game leaves every room with another id as it is. -/
theorem request_elsewhere {wideChars : Bytes → Nat} {m m' : RoomManager} {l : Call} {a : Answer}
    (h : m.WellFormed) (hcall : m.call wideChars l = .ok (a, m')) {g : GameId}
    (hl : l.gameId? = some g) {r : RoomId} {other : Room} (hr : m.rooms[r]? = some other)
    (hne : other.gameId ≠ g) : m'.rooms[r]? = some other := by
  -- the room that the request means is not this one
  have hkey : ∀ {s : SessionId} {u : User} {room : Room}, m.Seated s u room → g = room.gameId →
      r ≠ room.id ∧ ∀ loser reason,
        (m.settle (room.conceded loser) reason).rooms[r]? = some other := by
    intro s u room hseat hgame
    have hroom : r ≠ room.id := by
      rintro rfl
      cases hr.symm.trans hseat.here
      exact hne hgame.symm
    refine ⟨hroom, fun loser reason => ?_⟩
    show (m.rooms.insert room.id _)[r]? = some other
    grind
  cases l with
  | placeStone s r' g' x y out now =>
    cases hl
    rcases RoomManager.placeStone_spec h s r' g x y out now with
      ⟨result, -, e⟩ | ⟨u, room, hseat, -, -, hgame, ⟨-, e⟩ | ⟨-, -, -, e⟩⟩ <;>
      rw [RoomManager.call, e] at hcall <;> cases hcall
    · exact hr
    · exact (hkey hseat hgame).2 _ _
    · rw [(RoomManager.moved_others m room _ now).2 r (hkey hseat hgame).1, hr]
  | resign s r' g' now =>
    cases hl
    rcases RoomManager.resign_spec h s r' g now with
      ⟨result, -, e⟩ | ⟨u, room, hseat, -, -, hgame, ⟨-, e⟩ | ⟨-, -, e⟩⟩ <;>
      rw [RoomManager.call, e] at hcall <;> cases hcall
    · exact hr
    · exact (hkey hseat hgame).2 _ _
    · exact (hkey hseat hgame).2 _ _
  | _ => cases hl

/-- In every reachable state a stone is accepted if and only if it may be placed, and then that cell
alone changes. In every run each game that was started has an id of its own, which is the id of its
room for as long as no other game is started there, and a request that names a game changes no room
with another id. -/
theorem stones_guarded {wideChars : Bytes → Nat} {config : RoomConfig} {m : RoomManager}
    {history : List (Entry Managed (Call × Answer))} {c : Managed}
    (hmake : RoomManager.make {} config = .ok m) (hrun : CallRun wideChars m history c) :
    (∀ s r g x y out now, ∃ answer move m',
      c.manager.placeStone s r g x y out now = .ok (answer, move, m') ∧
      (answer = .success ↔ ∃ room, c.manager.MayPlace s r g x y now room) ∧
      (answer = .success → ∃ room, c.manager.rooms[r]? = some room ∧
        c.manager.Placed s r x y room move m')) ∧
    (((startedGames history).map Prod.snd).Nodup ∧
      ∀ (r : RoomId) room, c.manager.rooms[r]? = some room →
        room.gameId = 0 ∨ (r, room.gameId) ∈ startedGames history) ∧
    ∀ e ∈ history, ∀ g, e.label.1.gameId? = some g →
      ∀ (r : RoomId) room, e.pre.manager.rooms[r]? = some room → room.gameId ≠ g →
        e.post.manager.rooms[r]? = some room := by
  have h := (run_wellFormed hmake hrun).manager
  have hn := run_numbered hmake hrun
  refine ⟨RoomManager.placeStone_guarded h, ⟨hn.distinct, hn.held⟩, ?_⟩
  intro e he g hl r room hr hne
  obtain ⟨before, after, -, hbefore, hstep⟩ := hrun.split he
  exact request_elsewhere (run_wellFormed hmake hbefore).manager hstep.returned hl hr hne

/-- After a rematch a stone for the first game is refused, and one for the second is taken. -/
def rematchCalls : List Call :=
  [.login 1 [97], .login 2 [98], .createRoom 1 [97], .enterRoom 2 1, .setReady 2 true,
    .startGame 1 0, .resign 2 1 1 1, .setReady 2 true, .startGame 1 2]

theorem stones_guarded_rematch : ∃ history c,
    CallRun (fun _ => 1) RoomManager.fresh history c ∧
      startedGames history = [(1, 1), (1, 2)] ∧ ((startedGames history).map Prod.snd).Nodup ∧
      (¬ ∃ room, c.manager.MayPlace 1 1 1 7 7 3 room) ∧
      ∃ room, c.manager.MayPlace 1 1 2 7 7 3 room := by
  obtain ⟨history, c, hrun, hcheck⟩ := CallRun.played (fun _ => 1) RoomManager.fresh rematchCalls
    (fun history c => decide (startedGames history = [(1, 1), (1, 2)]) &&
      decide ((c.manager.placeStone 1 1 1 7 7 {} 3).toOption.map Prod.fst = some .staleGame ∧
        (c.manager.placeStone 1 1 2 7 7 {} 3).toOption.map Prod.fst = some .success))
    (by decide +kernel)
  obtain ⟨hstarted, hanswers⟩ := Bool.and_eq_true_iff.mp hcheck
  obtain ⟨hguard, ⟨hdistinct, -⟩, -⟩ := stones_guarded RoomManager.make_fresh hrun
  obtain ⟨stale, _, _, e1, hstale, -⟩ := hguard 1 1 1 7 7 {} 3
  obtain ⟨fresh, _, _, e2, hfresh, -⟩ := hguard 1 1 2 7 7 {} 3
  rw [e1, e2] at hanswers
  obtain ⟨hstale', hfresh'⟩ := decide_eq_true_eq.mp hanswers
  obtain rfl := Option.some.inj hstale'
  obtain rfl := Option.some.inj hfresh'
  exact ⟨_, c, hrun, of_decide_eq_true hstarted, hdistinct,
    fun hm => absurd (hstale.mpr hm) (by decide), hfresh.mp rfl⟩

end SelectServer
