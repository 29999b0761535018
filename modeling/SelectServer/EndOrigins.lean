import SelectServer.GameResults
import SelectServer.StoneOrigins

/- Where the end of a game comes from, when it is played to its end or resigned. A
   call that records such a result is the move or the resignation that ends the
   game (`Cause.ends`), a step of the server makes it only for a request of that
   player (`ServerStep.queued`), and what is told of such an end was recorded in an
   earlier step (`Deed.end_queued`). -/
namespace SelectServer
open Wire (Bytes)
open Histories

/-! ## Calls -/

/-- The game was played to its end, or a player resigned. -/
def FinishedGame.Played (f : FinishedGame) : Prop :=
  f.reason = .fiveInRow ∨ f.reason = .boardFull ∨ f.reason = .resigned

namespace RoomManager

/-- `player` resigns the game of `f`, in time, and so loses it. -/
def ResignedBy (m : RoomManager) (player : SessionId) (request : GameResignRequest) (now : Time)
    (f : FinishedGame) : Prop :=
  f.reason = .resigned ∧ (request.roomId = f.room ∧ request.game = f.game) ∧
    ∃ room, m.On f.room room ∧ room.gameId = f.game ∧ player ∈ room.members ∧
      now < room.turnDeadline ∧ f.status = lostBy (room.getPlayerStone player) ∧
        f.moveCount = room.game.moveCount

/-- `player` places the last stone of the game of `f`, and may do so: five stones or more of that
colour are in a row then, or the board is full without such a row. -/
def PlayedOut (m : RoomManager) (player : SessionId) (request : GameMoveRequest) (now : Time)
    (f : FinishedGame) : Prop :=
  (request.roomId = f.room ∧ request.game = f.game) ∧
    ∃ room board, m.MayPlace player f.room f.game request.x.toNat request.y.toNat now room ∧
      board = room.game.board.put request.x.toNat request.y.toNat (room.getPlayerStone player) ∧
        f.moveCount = room.game.moveCount + 1 ∧
          ((f.reason = .fiveInRow ∧ board.FiveAligned (room.getPlayerStone player) ∧
              f.status = wonBy (room.getPlayerStone player)) ∨
            (f.reason = .boardFull ∧ board.Full ∧ ¬ board.FiveAligned .black ∧
              ¬ board.FiveAligned .white ∧ f.status = .draw))

/-- The request of `player` ends the game of `f`. -/
def EndsGame (m : RoomManager) (player : SessionId) (request : Request) (now : Time)
    (f : FinishedGame) : Prop :=
  (∃ resign, request = .gameResign resign ∧ m.ResignedBy player resign now f) ∨
    ∃ move, request = .gameMove move ∧ m.PlayedOut player move now f

end RoomManager

theorem OmokGame.tryPlaceStone_board {g : OmokGame} {stone : GameStone} {x y : Int}
    (h : g.Accepts stone x y) : (g.tryPlaceStone stone x y).2.board = g.board.put x y stone := by
  rw [OmokGame.tryPlaceStone_accepted h]
  split
  · rfl
  · split <;> rfl

/-- The last stone of a game makes a row, or fills the board without one. -/
theorem OmokGame.last_stone {g : OmokGame} (hg : g.Sound) {stone : GameStone} {x y : Int}
    (h : g.Accepts stone x y) (hend : (g.tryPlaceStone stone x y).2.status ≠ .playing) :
    ((g.tryPlaceStone stone x y).2.endReason = .fiveInRow ∧
        (g.board.put x y stone).FiveAligned stone ∧
          (g.tryPlaceStone stone x y).2.status = wonBy stone) ∨
      ((g.tryPlaceStone stone x y).2.endReason = .boardFull ∧ (g.board.put x y stone).Full ∧
        ¬ (g.board.put x y stone).FiveAligned .black ∧ ¬ (g.board.put x y stone).FiveAligned .white ∧
          (g.tryPlaceStone stone x y).2.status = .draw) := by
  have hsettled := (hg.tryPlaceStone_settled h).2
  have hboard := OmokGame.tryPlaceStone_board h
  generalize (g.tryPlaceStone stone x y).2 = g' at hend hsettled hboard
  rw [← hboard]
  unfold OmokGame.endReason
  by_cases hfive : g'.board.FiveAligned stone
  · have hwon := hsettled.won hfive
    have hstatus : g'.status = wonBy stone := by
      rw [hwon]
      rcases h.colour with rfl | rfl <;> rfl
    have hdraw : g'.status ≠ .draw := by
      rw [hstatus]
      rcases h.colour with rfl | rfl <;> decide
    exact .inl ⟨if_neg hdraw, hfive, hstatus⟩
  · -- the game has ended, and not with a row
    have hfull : g'.board.Full := by
      by_contra hopen
      exact hend (hsettled.open_ hfive hopen)
    have hdraw := hsettled.drawn hfive hfull
    have hnone : ∀ colour, colour ≠ .empty → ¬ g'.board.FiveAligned colour := by
      intro colour hne
      by_cases hsame : colour = stone
      · rw [hsame]
        exact hfive
      · exact hsettled.other_none colour hsame hne
    exact .inr ⟨if_pos hdraw, hfull, hnone _ (by decide), hnone _ (by decide), hdraw⟩

/-- A call that a request stands for, and that records such a result, ends the game for its player. -/
theorem Cause.ends {m : RoomManager} {l : Call} {a : Answer} {room : Room} {g : OmokGame}
    {reason : GameEndReason} (hc : Cause m l a room g reason) (h : m.WellFormed)
    (hon : m.On room.id room) (hplayed : (({ room with game := g } : Room).record reason).Played)
    {request : Request} {users : UserManager} {player : SessionId} {now : Time}
    (hcall : request.call? users player now = some l) :
    m.EndsGame player request now (({ room with game := g } : Room).record reason) := by
  obtain ⟨_, hin⟩ := (h.room hon.1).playing hon.2
  cases hc with
  -- only a move makes the call that places a stone, so the request is that move
  | @stone s u x y out now' hl ha hseat hlive hacc hend =>
    subst hl
    have hlast := OmokGame.last_stone (h.room hon.1).sound hacc hend
    have hmay := RoomManager.mayPlace_of_accepts h hseat hin.numbered hlive hon.2 hacc
    have hcount := OmokGame.moveCount_accepted hacc
    cases request with
    | gameMove move =>
      obtain ⟨rfl, hroom, hgame, rfl, rfl, -, rfl⟩ := Call.placeStone.inj (Option.some.inj hcall)
      exact .inr ⟨move, rfl, ⟨hroom, hgame⟩, room, _, hmay, rfl, hcount, hlast⟩
    | roomLeave =>
      unfold Request.call? at hcall
      dsimp only at hcall
      split at hcall <;> cases hcall
    | _ => cases hcall
  | @resigned s u now' hl ha hseat hlive =>
    subst hl
    cases request with
    | gameResign resign =>
      obtain ⟨rfl, hroom, hgame, rfl⟩ := Call.resign.inj (Option.some.inj hcall)
      exact .inl ⟨resign, rfl, rfl, ⟨hroom, hgame⟩, room, hon, rfl, hseat.mem, h.on_live hon hlive,
        forfeit_status hin.status (h.stone_colour hseat hon.2), OmokGame.forfeit_moveCount _ _⟩
    | roomLeave =>
      unfold Request.call? at hcall
      dsimp only at hcall
      split at hcall <;> cases hcall
    | _ => cases hcall
  -- who leaves, or runs out of time, has not played the game to its end
  | left _ _ hreason =>
    rcases hreason with rfl | rfl
    · rcases hplayed with e | e | e <;> cases e
    · rcases hplayed with e | e | e <;> cases e
  | timeout => rcases hplayed with e | e | e <;> cases e

/-- Such a result is recorded by a move or by a resignation. -/
theorem Cause.call {m : RoomManager} {l : Call} {a : Answer} {room : Room} {g : OmokGame}
    {reason : GameEndReason} (hc : Cause m l a room g reason)
    (hplayed : (({ room with game := g } : Room).record reason).Played) :
    (∃ s x y out now, l = .placeStone s room.id room.gameId x y out now) ∨
      ∃ s now, l = .resign s room.id room.gameId now := by
  cases hc with
  | stone hl => exact .inl ⟨_, _, _, _, _, hl⟩
  | resigned hl => exact .inr ⟨_, _, hl⟩
  | left _ _ hreason =>
    rcases hreason with rfl | rfl
    · rcases hplayed with e | e | e <;> cases e
    · rcases hplayed with e | e | e <;> cases e
  | timeout => rcases hplayed with e | e | e <;> cases e

/-- A result that is in the queue after a call was there before it, or the call has recorded it. -/
theorem Effect.recorded {wideChars : Bytes → Nat} {m m' : RoomManager} {l : Call} {a : Answer}
    (he : Effect wideChars m l a m') (h : m.WellFormed) {f : FinishedGame}
    (hf : f ∈ m'.finishedGames) :
    f ∈ m.finishedGames ∨ ∃ room g reason, m.On room.id room ∧ Cause m l a room g reason ∧
      f = ({ room with game := g } : Room).record reason := by
  obtain ⟨hturn, hqueue⟩ := he.turnover h
  unfold QueueStep at hqueue
  have hmem : f ∈ m.finishedGames ++ recordedBy m l m' := by
    rw [hqueue]
    exact List.mem_append_right _ hf
  rcases List.mem_append.mp hmem with hold | hnew
  · exact .inl hold
  generalize recordedBy m l m' = records at hturn hnew
  cases hturn with
  | ended hends => exact .inr (hends.causes hnew)
  | started => cases hnew
  | moved => cases hnew

/-- The same after some calls. -/
theorem calls_queued {wideChars : Bytes → Nat} {history : List (Entry Managed (Call × Answer))}
    {c c' : Managed} (hrun : Run (CallStep wideChars) c history c') (hc : c.WellFormed)
    {f : FinishedGame} (hf : f ∈ c'.manager.finishedGames) :
    f ∈ c.manager.finishedGames ∨ ∃ before e after room g reason, history = before ++ e :: after ∧
      e.pre.manager.On room.id room ∧ Cause e.pre.manager e.label.1 e.label.2 room g reason ∧
        f = ({ room with game := g } : Room).record reason := by
  have hsource := hrun.brought (P := fun c => f ∈ c.manager.finishedGames)
    (Q := fun e => ∃ room g reason, e.pre.manager.On room.id room ∧
      Cause e.pre.manager e.label.1 e.label.2 room g reason ∧
        f = ({ room with game := g } : Room).record reason) ?_ hf
  · rcases hsource with hfirst | ⟨before, e, after, rfl, -, -, room, g, reason, hrecorded⟩
    · exact .inl hfirst
    · exact .inr ⟨before, e, after, room, g, reason, rfl, hrecorded⟩
  · intro before c1 l c2 hbefore taken hf
    have hc1 : c1.WellFormed :=
      hbefore.invariant (P := Managed.WellFormed) hc fun _ _ _ h step => step.wellFormed h
    exact (hc1.manager.call_effect taken.returned).recorded hc1.manager hf

/-! ## Steps of the server -/

/-- The step `l` takes a request of `player`, when the time is `now`. -/
def Server.Serves (c : Server) (l : Input) (player : SessionId) (request : Request) (now : Time) :
    Prop :=
  ∃ loginNow event rest, l = .event loginNow now ∧ c.network.events = event :: rest ∧
    event.type = .packet ∧ event.session = player ∧
      Request.decode event.packetId event.body = some request

/-- Such a result that is in the queue after a step was there before it, or the step takes the request
that ends the game. -/
theorem ServerStep.queued {host : Host} {c c' : Server} {l : Input} (hc : c.Sound)
    (h : ServerStep host c l c') {f : FinishedGame} (hf : f ∈ c'.rooms.finishedGames)
    (hplayed : f.Played) : f ∈ c.rooms.finishedGames ∨ ∃ player request now,
      c.Serves l player request now ∧ c.rooms.EndsGame player request now f := by
  obtain ⟨pops, hmakes⟩ := h.calls hc
  obtain ⟨made, leaving, hrun, hlabels⟩ := hmakes none
  rcases calls_queued hrun ⟨hc.rooms.wellFormed, fun _ e => by cases e⟩ hf with
    hold | ⟨before, e, after, room, g, reason, rfl, hon, hcause, rfl⟩
  · exact .inl hold
  have hkind := hcause.call hplayed
  have hpop : e.label.1 ≠ .tryPopFinishedGame := by
    rcases hkind with ⟨_, _, _, _, _, hl⟩ | ⟨_, _, hl⟩ <;> simp [hl]
  obtain ⟨hcalled, honly⟩ := only_call hlabels hpop
  obtain ⟨hone, loginNow, now, event, rest, request, hl, hevents, htype, hdecode, hcall⟩ :=
    Server.calls_requested hcalled
      (by rcases hkind with ⟨_, _, _, _, _, hl⟩ | ⟨_, _, hl⟩ <;> simp [hl])
      (by rcases hkind with ⟨_, _, _, _, _, hl⟩ | ⟨_, _, hl⟩ <;> simp [hl])
      (by rcases hkind with ⟨_, _, _, _, _, hl⟩ | ⟨_, _, hl⟩ <;> simp [hl])
  -- it is the one call of the step but pops, so it was made in the rooms that the step found
  obtain rfl := honly hone
  have hpre : e.pre = ⟨c.rooms, none⟩ := hrun.until.nil_eq
  rw [hpre] at hon hcause
  exact .inr ⟨event.session, request, now, ⟨loginNow, event, rest, hl, hevents, htype, rfl, hdecode⟩,
    hcause.ends hc.rooms.wellFormed hon hplayed hcall⟩

/-! ## What is told of ends -/

section Told
variable {host : Host} {asked : NetworkEvent → Prop} {m m' : RoomManager}
  {packets : List SentPacket} {packet : SentPacket} {n : GameEndNotification}

/-- None of the packets tells of an end. -/
def Endless (packets : List SentPacket) : Prop :=
  ∀ packet ∈ packets, ∀ n, packet.packet.notice ≠ .ended n

theorem Endless.append {a b : List SentPacket} (ha : Endless a) (hb : Endless b) :
    Endless (a ++ b) := by
  intro packet h
  rcases List.mem_append.mp h with h | h
  · exact ha packet h
  · exact hb packet h

theorem endless_one {s : SessionId} {rid : UInt16} {body : Bytes}
    (h : ∀ n, (⟨rid, body⟩ : ClientPacket).notice ≠ .ended n) : Endless [⟨s, rid, body⟩] := by
  intro packet hpacket
  rw [List.mem_singleton.mp hpacket]
  exact h

theorem endless_memberOuts (m : RoomManager) (r : RoomId) (change : RoomMemberChange)
    (nickname : Bytes) : Endless (memberOuts m r change nickname) := by
  intro packet h n
  rw [(memberOuts_other h).2]
  simp

theorem endless_stateOuts (m : RoomManager) (r : RoomId) : Endless (stateOuts m r) := by
  intro packet h n
  unfold stateOuts at h
  split at h
  · cases h
  split at h
  · cases h
  rename_i body hbody
  obtain ⟨notification, -, hencode⟩ := Option.bind_eq_some_iff.mp hbody
  obtain ⟨target, -, rfl⟩ := List.mem_map.mp h
  rw [show SentPacket.packet _ = ⟨roomStateNtf, body⟩ from rfl, RoomStateNotification.notice hencode]
  simp

theorem endless_moveOuts (m : RoomManager) (move : AcceptedMove) : Endless (moveOuts m move) := by
  intro packet h n
  unfold moveOuts at h
  split at h
  · cases h
  split at h
  · cases h
  rename_i body hencode
  obtain ⟨target, -, rfl⟩ := List.mem_map.mp h
  rw [show SentPacket.packet _ = ⟨gameMoveNtf, body⟩ from rfl, GameMoveNotification.notice hencode]
  simp

/-- The end that `FlushFinishedGames` tells of is in the queue. -/
theorem flushOuts_ended (h : packet ∈ flushOuts m) (hn : packet.packet.notice = .ended n) :
    ∃ f ∈ m.finishedGames, n = PacketProcessor.gameEnd f := by
  obtain ⟨f, hf, h⟩ := List.mem_flatMap.mp h
  rcases List.mem_append.mp h with hend | hstate
  · unfold endOuts at hend
    split at hend
    · cases hend
    rename_i body hencode
    obtain ⟨target, -, rfl⟩ := List.mem_map.mp hend
    have hread := (GameEndNotification.notice hencode).symm.trans hn
    exact ⟨f, hf, (Notice.ended.inj hread).symm⟩
  · exact absurd hn (endless_stateOuts _ _ packet hstate n)

/-- An end is told of a result that was in the queue, or is not such a result. -/
def Queued (m : RoomManager) (n : GameEndNotification) : Prop :=
  ∃ f, n = PacketProcessor.gameEnd f ∧ (f.Played → f ∈ m.finishedGames)

/-- A call that neither places a stone nor resigns records no such result. -/
theorem Effect.end_queued {wideChars : Bytes → Nat} {l : Call} {a : Answer}
    (he : Effect wideChars m l a m') (hm : m.WellFormed)
    (hmove : ∀ s r g x y out now, l ≠ .placeStone s r g x y out now)
    (hresign : ∀ s r g now, l ≠ .resign s r g now) {f : FinishedGame}
    (hf : f ∈ m'.finishedGames) : f.Played → f ∈ m.finishedGames := by
  intro hplayed
  rcases he.recorded hm hf with hold | ⟨room, g, reason, -, hcause, rfl⟩
  · exact hold
  · rcases hcause.call hplayed with ⟨_, _, _, _, _, hl⟩ | ⟨_, _, hl⟩
    · exact absurd hl (hmove _ _ _ _ _ _ _)
    · exact absurd hl (hresign _ _ _ _)

theorem Handled.end_queued {event : NetworkEvent} {rid : UInt16}
    (h : Handled host m event rid packets m') (hm : m.WellFormed) (hpacket : packet ∈ packets)
    (hn : packet.packet.notice = .ended n) : Queued m n := by
  have hnone : Endless packets → Queued m n :=
    fun hendless => absurd hn (hendless packet hpacket n)
  have hplain : ∀ {s : SessionId} {body : Bytes}, (⟨rid, body⟩ : ClientPacket).notice = .other →
      Endless [⟨s, rid, body⟩] :=
    fun hother => endless_one fun n => by rw [hother]; simp
  have hroom : ∀ {s : SessionId} {body nickname : Bytes} {r : RoomId} {m1 : RoomManager}
      {change : RoomMemberChange}, Endless [⟨s, rid, body⟩] →
        Endless (⟨s, rid, body⟩ :: (memberOuts m1 r change nickname ++ stateOuts m1 r)) :=
    fun hfirst => hfirst.append ((endless_memberOuts _ _ _ _).append (endless_stateOuts _ _))
  cases h with
  | idle hother => exact hnone (hplain hother)
  | answered hother => exact hnone (hplain hother)
  | created hother => exact hnone (hroom (hplain hother))
  | entered hother => exact hnone (hroom (hplain hother))
  | readied _ _ hother => exact hnone ((hplain hother).append (endless_stateOuts _ _))
  | started _ _ hother => exact hnone ((hplain hother).append (endless_stateOuts _ _))
  | moved hother => exact hnone ((hplain hother).append (endless_moveOuts _ _))
  -- the results are told before the reply to `ROOM_LEAVE_REQ`, and the call has recorded one
  | left hleft he =>
    have hreply : ∀ {s : SessionId}, Endless [⟨s, rid, _⟩] :=
      endless_one fun n => by rw [hleft]; simp
    rcases List.mem_append.mp hpacket with hflush | hrest
    · obtain ⟨f, hf, e⟩ := flushOuts_ended hflush hn
      exact ⟨f, e, he.end_queued hm (by simp) (by simp) hf⟩
    · exact absurd hn (hroom hreply packet hrest n)
  | stayed hother =>
    rcases List.mem_append.mp hpacket with hflush | hrest
    · obtain ⟨f, hf, e⟩ := flushOuts_ended hflush hn
      exact ⟨f, e, fun _ => hf⟩
    · exact absurd hn (hplain hother packet hrest n)

/-- What is told of such an end was recorded before the step. -/
theorem Deed.end_queued (h : Deed host asked m packets m') (hm : m.WellFormed)
    (hpacket : packet ∈ packets) (hn : packet.packet.notice = .ended n) : Queued m n := by
  cases h with
  | quiet hother =>
    rw [hother packet hpacket] at hn
    cases hn
  | handled _ hhandled => exact hhandled.end_queued hm hpacket hn
  | forgotten =>
    obtain ⟨f, hf, e⟩ := flushOuts_ended hpacket hn
    exact ⟨f, e, fun _ => hf⟩
  | gone he =>
    rcases List.mem_append.mp hpacket with hflush | hrest
    · obtain ⟨f, hf, e⟩ := flushOuts_ended hflush hn
      exact ⟨f, e, he.end_queued hm (by simp) (by simp) hf⟩
    · exact absurd hn
        ((endless_memberOuts _ _ _ _).append (endless_stateOuts _ _) packet hrest n)
  | swept he =>
    obtain ⟨f, hf, e⟩ := flushOuts_ended hpacket hn
    exact ⟨f, e, he.end_queued hm (by simp) (by simp) hf⟩

end Told

end SelectServer
