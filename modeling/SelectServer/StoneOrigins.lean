import SelectServer.OmokHistory
import SelectServer.GameMoves
import SelectServer.ServerCalls

/- Where stones come from. No call puts a stone on a board but a `PlaceStone` that
   may place it, for the session it was called for (`Effect.stone`); a step of the
   server calls that only for a move that it was asked for (`ServerStep.stone`); and
   the stones it tells its clients of are on its boards (`Deed.move_shown`). -/
namespace SelectServer
open Wire (Bytes)
open Histories

/-! ## Calls -/

namespace RoomManager

/-- There is a stone at `(x, y)` in the game `g` of the room `r`. -/
structure HasStone (m : RoomManager) (r : RoomId) (g : GameId) (x y : Int) (stone : GameStone) :
    Prop where
  present : stone ≠ .empty
  room : ∃ room, m.rooms[r]? = some room ∧ room.gameId = g ∧ room.game.board.cell x y = stone

variable {m m1 m' : RoomManager} {r key : RoomId} {g : GameId} {x y : Int} {stone : GameStone}
  {room room1 : Room}

theorem HasStone.same (hs : m'.HasStone r g x y stone) (h : m'.rooms = m.rooms) :
    m.HasStone r g x y stone := by
  refine ⟨hs.present, ?_⟩
  rw [← h]
  exact hs.room

theorem HasStone.inserted (hs : m'.HasStone r g x y stone)
    (h : m'.rooms = m.rooms.insert key room1) :
    m.HasStone r g x y stone ∨
      (r = key ∧ room1.gameId = g ∧ room1.game.board.cell x y = stone) := by
  obtain ⟨hne, room', hr, hgame, hcell⟩ := hs
  rw [h] at hr
  by_cases hkey : r = key
  · subst hkey
    have hsame : room' = room1 := by simpa [eq_comm] using hr
    rw [hsame] at hgame hcell
    exact .inr ⟨rfl, hgame, hcell⟩
  · have hold : m.rooms[r]? = some room' := by grind
    exact .inl ⟨hne, room', hold, hgame, hcell⟩

/-- A room that is stored over itself with the game that it had, or with none. -/
theorem HasStone.over (hs : m'.HasStone r g x y stone)
    (h : m'.rooms = m.rooms.insert room.id room1) (hr : m.rooms[room.id]? = some room)
    (hboard : room1.game.board = emptyBoard ∨
      (room1.gameId = room.gameId ∧ room1.game.board = room.game.board)) :
    m.HasStone r g x y stone := by
  rcases hs.inserted h with hold | ⟨rfl, hgame, hcell⟩
  · exact hold
  rcases hboard with hempty | ⟨hid, hsame⟩
  · rw [hempty, emptyBoard_cell] at hcell
    exact absurd hcell.symm hs.present
  · rw [hid] at hgame
    rw [hsame] at hcell
    exact ⟨hs.present, room, hr, hgame, hcell⟩

theorem HasStone.settled {loser : GameStone} {reason : GameEndReason}
    (hs : (m.settle (room.conceded loser) reason).HasStone r g x y stone)
    (hr : m.rooms[room.id]? = some room) : m.HasStone r g x y stone := by
  have hrooms : (m.settle (room.conceded loser) reason).rooms =
      m.rooms.insert room.id (room.conceded loser).finishGame := rfl
  exact hs.over hrooms hr (.inr ⟨rfl, room.game.forfeit_board loser⟩)

theorem HasStone.departed {s : SessionId} {u : User} (hs : (m.depart s u room).HasStone r g x y stone)
    (hr : m.rooms[room.id]? = some room) : m.HasStone r g x y stone := by
  unfold depart at hs
  dsimp only at hs
  split at hs
  · obtain ⟨hne, room', hr', hgame, hcell⟩ := hs
    have herased : (m.rooms.erase room.id)[r]? = some room' := hr'
    have hold : m.rooms[r]? = some room' := by grind
    exact ⟨hne, room', hold, hgame, hcell⟩
  · refine hs.over rfl hr ?_
    unfold Room.removeMember
    split
    · exact .inr ⟨rfl, rfl⟩
    · exact .inl rfl

theorem timedOut_board (now : Time) (room : Room) :
    (room.timedOut now).game.board = room.game.board := by
  unfold Room.timedOut
  split
  · exact room.game.forfeit_board _
  · rfl

end RoomManager

/-- A stone after a call was there before it, or the call has put it there. -/
theorem Effect.stone {wideChars : Bytes → Nat} {m m' : RoomManager} {l : Call} {a : Answer}
    (he : Effect wideChars m l a m') (h : m.WellFormed) {r : RoomId} {g : GameId} {x y : Int}
    {stone : GameStone} (hs : m'.HasStone r g x y stone) :
    m.HasStone r g x y stone ∨ ∃ s out now room, l = .placeStone s r g x y out now ∧
      m.MayPlace s r g x y now room ∧ room.getPlayerStone s = stone := by
  cases he with
  | refused => exact .inl hs
  | loggedIn => exact .inl (hs.same rfl)
  | removed => exact .inl (hs.same rfl)
  | popped => exact .inl (hs.same rfl)
  | created =>
    rcases hs.inserted rfl with hold | ⟨-, -, hcell⟩
    · exact .inl (hold.same rfl)
    · have hcell : emptyBoard.cell x y = stone := hcell
      rw [emptyBoard_cell] at hcell
      exact absurd hcell.symm hs.present
  | entered _ hroom => exact .inl (hs.over rfl hroom (.inr ⟨rfl, rfl⟩))
  | readied hseat => exact .inl (hs.over rfl hseat.here (.inr ⟨rfl, rfl⟩))
  | started hseat => exact .inl (hs.over rfl hseat.here (.inl rfl))
  | @moved s u room x' y' out now hseat hnum hlive hphase hacc =>
    have hplaced : m.Placed s room.id x' y' room _ (m.moved room _ now) :=
      RoomManager.placed_moved hacc
    obtain ⟨-, hothers, room', hr, hid, -, -, hcells, -⟩ := hplaced
    obtain ⟨hne, room1, hr1, hgame, hcell⟩ := hs
    -- of the cells of that room, only the one of the move has changed
    by_cases hkey : r = room.id
    · subst hkey
      obtain rfl := Option.some.inj (hr.symm.trans hr1)
      rw [hcells] at hcell
      by_cases hxy : x = x' ∧ y = y'
      · obtain ⟨rfl, rfl⟩ := hxy
        rw [if_pos ⟨rfl, rfl⟩] at hcell
        obtain rfl := hid.symm.trans hgame
        exact .inr ⟨s, out, now, room, rfl,
          RoomManager.mayPlace_of_accepts h hseat hnum hlive hphase hacc, hcell⟩
      · rw [if_neg hxy] at hcell
        exact .inl ⟨hne, room, hseat.here, hid.symm.trans hgame, hcell⟩
    · rw [hothers r hkey] at hr1
      exact .inl ⟨hne, room1, hr1, hgame, hcell⟩
  | expired _ _ hseat => exact .inl (hs.settled hseat.here)
  | resigned hseat => exact .inl (hs.settled hseat.here)
  | left hseat _ hclosed =>
    have hafter := (h.closed hseat hclosed).2.1.here
    have hstays := hs.departed hafter
    cases hclosed with
    | idle => exact .inl hstays
    | expired => exact .inl (hstays.settled hseat.here)
    | forfeited => exact .inl (hstays.settled hseat.here)
  | swept =>
    rename_i traversal now
    obtain ⟨m1, e, hswept⟩ := RoomManager.updateTimeouts_swept h traversal now
    rw [RoomManager.updateTimeouts_spec h] at e
    obtain ⟨hne, room', hr, hgame, hcell⟩ := hs
    rw [Except.ok.inj e, hswept.rooms] at hr
    obtain ⟨room, hroom, rfl⟩ := Option.map_eq_some_iff.mp hr
    rw [RoomManager.timedOut_board] at hcell
    rw [Room.timedOut_gameId] at hgame
    exact .inl ⟨hne, room, hroom, hgame, hcell⟩

/-- A stone after some calls was there before them, or one of them has put it there. -/
theorem calls_stone {wideChars : Bytes → Nat} {history : List (Entry Managed (Call × Answer))}
    {c c' : Managed} (hrun : Run (CallStep wideChars) c history c') (hc : c.WellFormed) {r : RoomId}
    {g : GameId} {x y : Int} {stone : GameStone} (hs : c'.manager.HasStone r g x y stone) :
    c.manager.HasStone r g x y stone ∨ ∃ before e after s out now room,
      history = before ++ e :: after ∧ e.label.1 = .placeStone s r g x y out now ∧
        e.pre.manager.MayPlace s r g x y now room ∧ room.getPlayerStone s = stone := by
  have hsource := hrun.brought (P := fun c => c.manager.HasStone r g x y stone)
    (Q := fun e => ∃ s out now room, e.label.1 = .placeStone s r g x y out now ∧
      e.pre.manager.MayPlace s r g x y now room ∧ room.getPlayerStone s = stone) ?_ hs
  · rcases hsource with hfirst | ⟨before, e, after, rfl, -, -, s, out, now, room, hplaced⟩
    · exact .inl hfirst
    · exact .inr ⟨before, e, after, s, out, now, room, rfl, hplaced⟩
  · intro before c1 l c2 hbefore taken hs
    have hc1 : c1.WellFormed :=
      hbefore.invariant (P := Managed.WellFormed) hc fun _ _ _ h step => step.wellFormed h
    exact (hc1.manager.call_effect taken.returned).stone hc1.manager hs

/-! ## Steps of the server -/

/-- The step `l` takes a move that `player` has asked for, and may place that stone then. -/
def Server.Places (c : Server) (l : Input) (player : SessionId) (r : RoomId) (g : GameId)
    (x y : Int) (stone : GameStone) : Prop :=
  ∃ loginNow now event rest request room, l = .event loginNow now ∧
    c.network.events = event :: rest ∧ (event.type = .packet ∧ event.session = player) ∧
      Request.decode event.packetId event.body = some (.gameMove request) ∧
        (request.roomId = r ∧ request.game = g ∧ (request.x.toNat : Int) = x ∧
          (request.y.toNat : Int) = y) ∧
            c.rooms.MayPlace player r g x y now room ∧ room.getPlayerStone player = stone

/-- `PlaceStone` is called for a move that is asked for, and nothing else is called then. -/
theorem Server.calls_placeStone {c : Server} {l : Input} {s : SessionId} {r : RoomId} {g : GameId}
    {x y : Int} {out : AcceptedMove} {now : Time} (h : .placeStone s r g x y out now ∈ c.calls l) :
    c.calls l = [.placeStone s r g x y out now] ∧
      ∃ loginNow event rest request, l = .event loginNow now ∧ c.network.events = event :: rest ∧
        (event.type = .packet ∧ event.session = s) ∧
          Request.decode event.packetId event.body = some (.gameMove request) ∧
            request.roomId = r ∧ request.game = g ∧ (request.x.toNat : Int) = x ∧
              (request.y.toNat : Int) = y := by
  obtain ⟨hone, loginNow, now', event, rest, request, hl, hevents, htype, hdecode, hcall⟩ :=
    Server.calls_requested h (by simp) (by simp) (by simp)
  refine ⟨hone, ?_⟩
  cases request with
  | gameMove request =>
    obtain ⟨⟩ := hcall
    exact ⟨loginNow, event, rest, request, hl, hevents, ⟨htype, rfl⟩, hdecode, rfl, rfl, rfl, rfl⟩
  | roomLeave =>
    unfold Request.call? at hcall
    dsimp only at hcall
    split at hcall
    · cases hcall
    · cases hcall
  | _ => cases hcall

/-- A call that pops no result is one of `calls`, and if it is the only one, it comes first. -/
theorem only_call {before after : List (Entry Managed (Call × Answer))}
    {e : Entry Managed (Call × Answer)} {calls : List Call} {pops : Nat}
    (hlabels : (before ++ e :: after).map (fun e => e.label.1) =
      calls ++ List.replicate pops .tryPopFinishedGame)
    (hpop : e.label.1 ≠ .tryPopFinishedGame) :
    e.label.1 ∈ calls ∧ (calls = [e.label.1] → before = []) := by
  rw [List.map_append, List.map_cons] at hlabels
  constructor
  · have hmem : e.label.1 ∈ calls ++ List.replicate pops .tryPopFinishedGame := by
      rw [← hlabels]
      exact List.mem_append_right _ (List.mem_cons_self ..)
    exact (List.mem_append.mp hmem).resolve_right fun h => hpop (List.eq_of_mem_replicate h)
  · intro hone
    rw [hone] at hlabels
    cases before with
    | nil => rfl
    | cons first before =>
      have htail : _ = List.replicate pops Call.tryPopFinishedGame := (List.cons.inj hlabels).2
      have hlater : e.label.1 ∈ List.replicate pops Call.tryPopFinishedGame := by
        rw [← htail]
        exact List.mem_append_right _ (List.mem_cons_self ..)
      exact absurd (List.eq_of_mem_replicate hlater) hpop

/-- A stone after a step was there before it, or the step has placed it for its player. -/
theorem ServerStep.stone {host : Host} {c c' : Server} {l : Input} (hc : c.Sound)
    (h : ServerStep host c l c') {r : RoomId} {g : GameId} {x y : Int} {stone : GameStone}
    (hs : c'.rooms.HasStone r g x y stone) :
    c.rooms.HasStone r g x y stone ∨ ∃ player, c.Places l player r g x y stone := by
  obtain ⟨pops, hmakes⟩ := h.calls hc
  obtain ⟨made, leaving, hrun, hlabels⟩ := hmakes none
  rcases calls_stone hrun ⟨hc.rooms.wellFormed, fun _ e => by cases e⟩ hs with
    hold | ⟨before, e, after, s, out, now, room, rfl, hl, hplace, hcolour⟩
  · exact .inl hold
  -- the call is one of the step, and so its only one
  obtain ⟨hcalled, honly⟩ := only_call hlabels (by rw [hl]; simp)
  rw [hl] at hcalled
  obtain ⟨hone, loginNow, event, rest, request, hl', hevents, hsender, hdecode, hnamed⟩ :=
    Server.calls_placeStone hcalled
  obtain rfl := honly (by rw [hl]; exact hone)
  have hpre : e.pre = ⟨c.rooms, none⟩ := hrun.until.nil_eq
  rw [hpre] at hplace
  exact .inr ⟨s, loginNow, now, event, rest, request, room, hl', hevents, hsender, hdecode, hnamed,
    hplace, hcolour⟩

/-! ## What is told of stones -/

/-- None of the packets tells of a stone. -/
def Stoneless (packets : List SentPacket) : Prop :=
  ∀ packet ∈ packets, ∀ n, packet.packet.notice ≠ .move n

theorem Stoneless.append {a b : List SentPacket} (ha : Stoneless a) (hb : Stoneless b) :
    Stoneless (a ++ b) := by
  intro packet h
  rcases List.mem_append.mp h with h | h
  · exact ha packet h
  · exact hb packet h

theorem stoneless_one {s : SessionId} {rid : UInt16} {body : Bytes}
    (h : ∀ n, (⟨rid, body⟩ : ClientPacket).notice ≠ .move n) : Stoneless [⟨s, rid, body⟩] := by
  intro packet hpacket
  rw [List.mem_singleton.mp hpacket]
  exact h

theorem stoneless_toAll {targets : List SessionId} {packetId : UInt16} {body : Bytes}
    (h : ∀ n, (⟨packetId, body⟩ : ClientPacket).notice ≠ .move n) :
    Stoneless (toAll targets packetId body) := by
  intro packet hpacket
  obtain ⟨target, -, rfl⟩ := List.mem_map.mp hpacket
  exact h

theorem stoneless_memberOuts (m : RoomManager) (r : RoomId) (change : RoomMemberChange)
    (nickname : Bytes) : Stoneless (memberOuts m r change nickname) := by
  intro packet h n
  rw [(memberOuts_other h).2]
  simp

theorem stoneless_stateOuts (m : RoomManager) (r : RoomId) : Stoneless (stateOuts m r) := by
  unfold stateOuts
  split
  · simp [Stoneless]
  split
  · simp [Stoneless]
  · rename_i body hbody
    obtain ⟨notification, -, hencode⟩ := Option.bind_eq_some_iff.mp hbody
    refine stoneless_toAll fun n => ?_
    rw [RoomStateNotification.notice hencode]
    simp

theorem stoneless_flushOuts (m : RoomManager) : Stoneless (flushOuts m) := by
  intro packet h
  obtain ⟨finished, -, h⟩ := List.mem_flatMap.mp h
  have hend : Stoneless (endOuts finished) := by
    unfold endOuts
    split
    · simp [Stoneless]
    · rename_i body hencode
      refine stoneless_toAll fun n => ?_
      rw [GameEndNotification.notice hencode]
      simp
  exact (hend.append (stoneless_stateOuts m finished.room)) packet h

section Shown
variable {host : Host} {asked : NetworkEvent → Prop} {m m' : RoomManager}
  {packets : List SentPacket} {packet : SentPacket} {n : GameMoveNotification}

/-- The stone that a move is told of is on the board. -/
theorem Effect.move_shown {wideChars : Bytes → Nat} {s : SessionId} {r : RoomId} {g : GameId}
    {x y : Int} {out move : AcceptedMove} {now : Time}
    (he : Effect wideChars m (.placeStone s r g x y out now) (.placed .success move) m')
    (hpacket : packet ∈ moveOuts m' move) (hn : packet.packet.notice = .move n) :
    m'.HasStone n.roomId n.game n.x.toNat n.y.toNat n.placedStone := by
  unfold moveOuts at hpacket
  split at hpacket
  · cases hpacket
  split at hpacket
  · cases hpacket
  rename_i body hbody
  obtain ⟨target, -, rfl⟩ := List.mem_map.mp hpacket
  have hread := GameMoveNotification.notice hbody
  obtain rfl : PacketProcessor.gameMove move = n := by
    have hsame := hread.symm.trans hn
    cases hsame
    rfl
  cases he with
  | refused ha => cases ha
  | expired _ ha => cases ha
  | @moved s u room x y _ now hseat hnum hlive hphase hacc =>
    have hplaced : m.Placed s room.id x y room _ (m.moved room _ now) :=
      RoomManager.placed_moved hacc
    obtain ⟨-, -, room', hr, hid, -, -, hcells, hmove⟩ := hplaced
    obtain ⟨hx0, hx, hy0, hy⟩ := isInside_iff.mp hacc.inside
    have hx' : (((UInt8.ofInt x).toNat : Nat) : Int) = x := by
      rw [byte_toNat hx0 hx]
      omega
    have hy' : (((UInt8.ofInt y).toNat : Nat) : Int) = y := by
      rw [byte_toNat hy0 hy]
      omega
    have hne : room.getPlayerStone s ≠ .empty := by
      intro hempty
      rcases hacc.colour with hblack | hwhite
      · rw [hempty] at hblack
        cases hblack
      · rw [hempty] at hwhite
        cases hwhite
    have hcell := hcells x y
    rw [if_pos ⟨rfl, rfl⟩] at hcell
    refine ⟨?_, room', hr, hid, ?_⟩
    · show PacketProcessor.toPacketStone (room.getPlayerStone s) ≠ .empty
      rw [toPacketStone_eq]
      exact hne
    · show room'.game.board.cell ((UInt8.ofInt x).toNat : Nat) ((UInt8.ofInt y).toNat : Nat) =
        PacketProcessor.toPacketStone (room.getPlayerStone s)
      rw [hx', hy', hcell, toPacketStone_eq]

theorem Handled.move_shown {event : NetworkEvent} {rid : UInt16}
    (h : Handled host m event rid packets m') (hpacket : packet ∈ packets)
    (hn : packet.packet.notice = .move n) :
    m'.HasStone n.roomId n.game n.x.toNat n.y.toNat n.placedStone := by
  have hnone : ∀ {m1 : RoomManager}, Stoneless packets →
      m1.HasStone n.roomId n.game n.x.toNat n.y.toNat n.placedStone :=
    fun hstoneless => absurd hn (hstoneless packet hpacket n)
  have hplain : ∀ {s : SessionId} {body : Bytes}, (⟨rid, body⟩ : ClientPacket).notice = .other →
      Stoneless [⟨s, rid, body⟩] :=
    fun hother => stoneless_one fun n => by rw [hother]; simp
  cases h with
  | idle hother => exact hnone (hplain hother)
  | answered hother => exact hnone (hplain hother)
  | created hother =>
    exact hnone ((hplain hother).append
      ((stoneless_memberOuts _ _ _ _).append (stoneless_stateOuts _ _)))
  | entered hother =>
    exact hnone ((hplain hother).append
      ((stoneless_memberOuts _ _ _ _).append (stoneless_stateOuts _ _)))
  | readied _ _ hother => exact hnone ((hplain hother).append (stoneless_stateOuts _ _))
  | started _ _ hother => exact hnone ((hplain hother).append (stoneless_stateOuts _ _))
  | moved hother he =>
    rcases List.mem_cons.mp hpacket with rfl | hmove
    · exact absurd hn (hplain hother _ (List.mem_singleton_self _) n)
    · exact he.move_shown hmove hn
  | left hleft =>
    have hreply : ∀ {s : SessionId}, Stoneless [⟨s, rid, _⟩] :=
      stoneless_one fun n => by rw [hleft]; simp
    exact hnone ((stoneless_flushOuts _).append (hreply.append
      ((stoneless_memberOuts _ _ _ _).append (stoneless_stateOuts _ _))))
  | stayed hother => exact hnone ((stoneless_flushOuts _).append (hplain hother))

/-- A stone that anyone is told of is on the board after the step. -/
theorem Deed.move_shown (h : Deed host asked m packets m') (hpacket : packet ∈ packets)
    (hn : packet.packet.notice = .move n) :
    m'.HasStone n.roomId n.game n.x.toNat n.y.toNat n.placedStone := by
  have hnone : ∀ {m1 : RoomManager}, Stoneless packets →
      m1.HasStone n.roomId n.game n.x.toNat n.y.toNat n.placedStone :=
    fun hstoneless => absurd hn (hstoneless packet hpacket n)
  cases h with
  | quiet hother =>
    rw [hother packet hpacket] at hn
    cases hn
  | handled _ hhandled => exact hhandled.move_shown hpacket hn
  | forgotten => exact hnone (stoneless_flushOuts _)
  | gone =>
    exact hnone ((stoneless_flushOuts _).append
      ((stoneless_memberOuts _ _ _ _).append (stoneless_stateOuts _ _)))
  | swept => exact hnone (stoneless_flushOuts _)

end Shown

/-! ## What a view shows -/

/-- The view shows a stone at `(x, y)`, in the game that it names. -/
def ClientGameView.HasStone (v : ClientGameView) (r : RoomId) (g : GameId) (x y : Int)
    (stone : GameStone) : Prop :=
  stone ≠ .empty ∧ v.roomId = r ∧ v.game = g ∧ v.cells.cell x y = stone

section Views
variable {v v' : ClientGameView} {r : RoomId} {g : GameId} {x y : Int} {stone : GameStone}

/-- The notice is of a stone at `(x, y)`. -/
def Notice.Tells (notice : Notice) (r : RoomId) (g : GameId) (x y : Int) (stone : GameStone) : Prop :=
  ∃ n, notice = .move n ∧ n.roomId = r ∧ n.game = g ∧ (n.x.toNat : Int) = x ∧
    (n.y.toNat : Int) = y ∧ n.placedStone = stone

theorem ClientGameView.HasStone.not_reset (h : v.HasStone r g x y stone)
    (hempty : v.cells = emptyBoard) : False := by
  obtain ⟨hne, -, -, hcell⟩ := h
  rw [hempty, emptyBoard_cell] at hcell
  exact hne hcell.symm

/-- A room state clears the view, or leaves its stones as they are. -/
theorem ClientGameView.onRoomState_stone {notification : RoomStateNotification}
    (h : v.onRoomState notification = some v') (hs : v'.HasStone r g x y stone) :
    v.HasStone r g x y stone := by
  unfold ClientGameView.onRoomState at h
  dsimp only at h
  split at h
  · split at h
    · cases h
      exact hs
    · cases h
      exact (hs.not_reset rfl).elim
  split at h
  · cases h
    exact (hs.not_reset rfl).elim
  split at h
  · cases h
  · cases h
    exact hs

theorem ClientGameView.onGameEnd_stone {notification : GameEndNotification}
    (h : v.onGameEnd notification = some v') (hs : v'.HasStone r g x y stone) :
    v.HasStone r g x y stone := by
  unfold ClientGameView.onGameEnd at h
  split at h
  · cases h
    exact hs
  split at h
  · cases h
  · cases h
    exact hs

/-- A move puts its own stone, and no other. -/
theorem ClientGameView.onGameMove_stone {notification : GameMoveNotification}
    (h : v.onGameMove notification = some v') (hs : v'.HasStone r g x y stone) :
    v.HasStone r g x y stone ∨ (Notice.move notification).Tells r g x y stone := by
  unfold ClientGameView.onGameMove at h
  split at h
  -- a move of another room or game is not applied
  · cases h
    exact .inl hs
  rename_i hsame
  unfold ClientGameView.apply at h
  split at h
  · cases h
  rename_i hfits
  cases h
  obtain ⟨hne, hroom, hgame, hcell⟩ := hs
  have hcell : (v.cells.put notification.x.toNat notification.y.toNat
    notification.placedStone).cell x y = stone := hcell
  have hinside : isInside notification.x.toNat notification.y.toNat = true := by
    simp only [not_or] at hfits
    obtain ⟨-, -, -, hx, hy, -⟩ := hfits
    have hx : ¬ notification.x.toNat ≥ 15 := hx
    have hy : ¬ notification.y.toNat ≥ 15 := hy
    rw [isInside_iff]
    omega
  rw [Board.cell_put hinside] at hcell
  have hnamed : notification.roomId = v.roomId ∧ notification.game = v.game := by tauto
  split at hcell
  · rename_i hxy
    exact .inr ⟨notification, rfl, hnamed.1.trans hroom, hnamed.2.trans hgame, hxy.1.symm,
      hxy.2.symm, hcell⟩
  · exact .inl ⟨hne, hroom, hgame, hcell⟩

/-- A stone that is shown after a notice was shown before it, or is the one of the notice. -/
theorem ClientGameView.onNotice_stone {notice : Notice} (h : v.onNotice notice = some v')
    (hs : v'.HasStone r g x y stone) : v.HasStone r g x y stone ∨ notice.Tells r g x y stone := by
  cases notice with
  | garbled => cases h
  | other =>
    cases h
    exact .inl hs
  | left =>
    cases h
    exact (hs.not_reset rfl).elim
  | state notification => exact .inl (onRoomState_stone h hs)
  | ended notification => exact .inl (onGameEnd_stone h hs)
  | move notification => exact onGameMove_stone h hs

end Views

end SelectServer
