import SelectServer.Lib.Trace
import SelectServer.Server

/- One step of the server as one session sees it: a row of small acts, each a
   change of the games with the notices that reach the session. An act queues one
   result, or announces one, or starts a game, or adds a stone, or announces the
   state of a room; everything else is quiet. Which states may be announced is left
   open (`Policy`): the guarantees that need a queue without surprises restrict it. -/
namespace SelectServer
open Wire (Bytes)
open Traces

/-- Which room's state may be announced, given the rooms and the results still queued. -/
abbrev Policy := Map RoomId Room → List FinishedGame → RoomId → Prop

inductive Act (D : Policy) (s : SessionId) (m : RoomManager) : List Notice → RoomManager → Prop
  | quiet {m' : RoomManager} (hquiet : m.Quiet m') (hqueue : m'.finishedGames = m.finishedGames) :
      Act D s m [] m'
  | conceded {room : Room} {g : OmokGame} {reason : GameEndReason} (hon : m.On room.id room)
      (hcount : g.moveCount = room.game.moveCount) :
      Act D s m [] (m.settle { room with game := g } reason)
  | started {room : Room} {now : Time} {notices : List Notice}
      (hr : m.rooms[room.id]? = some room) (hwait : room.phase = .waiting)
      (hlast : m.lastGameId ≠ 0xffffffff)
      (hD : D (m.started room now).rooms (m.started room now).finishedGames room.id)
      (hok : (m.started room now).Ok)
      (h : (m.started room now).StateHeard room.id s notices) : Act D s m notices (m.started room now)
  | moved {room : Room} {stone : GameStone} {x y : Int} {now : Time} (hon : m.On room.id room)
      (hacc : room.game.Accepts stone x y) :
      Act D s m
        (if s ∈ room.members then
          [.move (PacketProcessor.gameMove (RoomManager.acceptedMove room stone x y
            (room.game.tryPlaceStone stone x y).2))]
        else [])
        (m.moved room (room.game.tryPlaceStone stone x y).2 now)
  | state {r : RoomId} {notices : List Notice} (hD : D m.rooms m.finishedGames r)
      (h : m.StateHeard r s notices) : Act D s m notices m
  | announced {f : FinishedGame} {rest : List FinishedGame} (hq : m.finishedGames = f :: rest) :
      Act D s m (if s ∈ f.targets then [.ended (PacketProcessor.gameEnd f)] else [])
        { m with finishedGames := rest }
  | left (hq : m.finishedGames = [])
      (hgone : ∀ (r : RoomId) (room : Room), m.rooms[r]? = some room → s ∉ room.members) :
      Act D s m [.left] m

/-- An act on rooms that are in order. -/
def OrderlyAct (D : Policy) (s : SessionId) (m : RoomManager) (notices : List Notice)
    (m' : RoomManager) : Prop :=
  m.Ok ∧ Act D s m notices m'

abbrev Acts (D : Policy) (s : SessionId) : RoomManager → List Notice → RoomManager → Prop :=
  Trace (OrderlyAct D s)

theorem Act.acts {D : Policy} {s : SessionId} {m m' : RoomManager} {notices : List Notice}
    (h : Act D s m notices m') (hok : m.Ok) : Acts D s m notices m' :=
  .single ⟨hok, h⟩

/-! ## Games that end -/

namespace Cause
variable {m : RoomManager} {l : Call} {a : Answer} {room : Room} {g : OmokGame}
  {reason : GameEndReason}

/-- A game that ends without a stone has the stones it had. -/
theorem moveCount (hc : Cause m l a room g reason) (ha : ∀ move, a ≠ .placed .success move) :
    g.moveCount = room.game.moveCount := by
  cases hc with
  | stone _ hplaced => exact absurd hplaced (ha _)
  | resigned => exact OmokGame.forfeit_moveCount _ _
  | left => exact OmokGame.forfeit_moveCount _ _
  | timeout => exact OmokGame.forfeit_moveCount _ _

theorem game_over (hc : Cause m l a room g reason) (h : m.WellFormed) (hon : m.On room.id room) :
    g.Sound ∧ g.status ≠ .playing := by
  have hsound := (h.room hon.1).sound
  obtain ⟨guest, hin⟩ := (h.room hon.1).playing hon.2
  cases hc with
  | stone _ _ _ _ _ hend => exact ⟨hsound.tryPlaceStone _ _ _, hend⟩
  | resigned _ _ hseat =>
    exact ⟨hsound.forfeit _,
      (OmokGame.forfeit_over hin.status (h.stone_colour hseat hon.2)).not_playing⟩
  | left _ _ _ hseat =>
    exact ⟨hsound.forfeit _,
      (OmokGame.forfeit_over hin.status (h.stone_colour hseat hon.2)).not_playing⟩
  | timeout =>
    exact ⟨hsound.forfeit _, (OmokGame.forfeit_over hin.status (hsound.turn hin.status)).not_playing⟩

/-- A game that ends leaves the rooms in order, whatever games ended before it in the same call. -/
theorem settle_ok {m1 : RoomManager} (hc : Cause m l a room g reason) (hok : m.Ok) (hok1 : m1.Ok)
    (hon : m.On room.id room) (hon1 : m1.On room.id room) :
    (m1.settle { room with game := g } reason).Ok where
  wellFormed := by
    obtain ⟨hsound, hover⟩ := hc.game_over hok.wellFormed hon
    exact hok1.wellFormed.settle reason hon1.1 hsound hover
  books := by
    obtain ⟨announced, hb⟩ := hok1.books
    refine ⟨announced, ?_⟩
    show (m1.settle { room with game := g } reason).Books
      (announced ++ (m1.finishedGames ++ [({ room with game := g } : Room).record reason]))
    rw [← List.append_assoc]
    exact RoomManager.settle_books reason hb hon1
  valid f hf := by
    rcases List.mem_append.mp hf with hf | hf
    · exact hok1.valid f hf
    · exact List.mem_singleton.mp hf ▸ hc.valid hok.wellFormed hon

end Cause

variable {D : Policy} {s : SessionId}

theorem Ends.acts {m m1 : RoomManager} {l : Call} {a : Answer} {records : List FinishedGame}
    (h : Ends m l a m1 records) (ha : ∀ move, a ≠ .placed .success move) (hok : m.Ok) :
    Acts D s m [] m1 ∧ m1.Ok := by
  induction h with
  | nil => exact ⟨.nil m, hok⟩
  | snoc hprev hon hcause ih =>
    obtain ⟨hacts, hok1⟩ := ih
    exact ⟨hacts.append (Act.acts (.conceded hon (hcause.moveCount ha)) hok1),
      hcause.settle_ok hok hok1 (hprev.on_before hon) hon⟩

/-- A call that starts no game, takes no stone and announces nothing: some games end, and the
rest is quiet. -/
theorem Effect.acts {wideChars : Bytes → Nat} {m m' : RoomManager} {l : Call} {a : Answer}
    (he : Effect wideChars m l a m') (hok : m.Ok) (hmove : ∀ move, a ≠ .placed .success move)
    (hstart : ∀ s now, l = .startGame s now → a ≠ .room .success) (hpop : l ≠ .tryPopFinishedGame) :
    Acts D s m [] m' := by
  obtain ⟨hturn, hqueue⟩ := he.turnover hok.wellFormed
  rw [QueueStep, he.popped?_nil hpop, List.nil_append] at hqueue
  generalize recordedBy m l m' = records at hturn hqueue
  cases hturn with
  | started hl ha => exact absurd ha (hstart _ _ hl)
  | moved _ ha => exact absurd ha (hmove _)
  | ended hends hquiet =>
    obtain ⟨hacts, hok1⟩ : Acts D s m [] _ ∧ _ := hends.acts hmove hok
    have hsame := hqueue.symm.trans hends.grows.1.symm
    exact hacts.append (Act.acts (.quiet hquiet hsame) hok1)

/-! ## The queue announced -/

theorem hears_cons (s : SessionId) (packet : SentPacket) (rest : List SentPacket) :
    hears s (packet :: rest) = hears s [packet] ++ hears s rest :=
  hears_append s [packet] rest

theorem flush_acts (queue : List FinishedGame) : ∀ {m : RoomManager}, m.finishedGames = queue →
    m.Ok → (∀ before f rest, queue = before ++ f :: rest → D m.rooms rest f.room) →
      Acts D s m (hears s (flushOuts m)) { m with finishedGames := [] } := by
  induction queue with
  | nil =>
    intro m hq _ _
    have hsame : ({ m with finishedGames := [] } : RoomManager) = m := by rw [← hq]
    have hquiet : hears s (flushOuts m) = [] := by
      rw [flushOuts, hq]
      rfl
    rw [hsame, hquiet]
    exact .nil m
  | cons f queue ih =>
    intro m hq hok hD
    have hok' : ({ m with finishedGames := queue } : RoomManager).Ok :=
      hok.announced (show m.finishedGames = [f] ++ queue from hq)
    have houts : flushOuts m = endOuts f ++
        (stateOuts m f.room ++ flushOuts { m with finishedGames := queue }) := by
      rw [flushOuts, flushOuts, hq, List.flatMap_cons, List.append_assoc]
      rfl
    have hvalid := hok.valid f (hq ▸ List.mem_cons_self)
    rw [houts, hears_append, hears_append, hears_endOuts s hvalid.encodes hvalid.nodup]
    have hstate : ({ m with finishedGames := queue } : RoomManager).StateHeard f.room s
        (hears s (stateOuts m f.room)) := hok'.wellFormed.hears_stateOuts f.room s
    refine .cons ⟨hok, .announced hq⟩ (.cons ⟨hok', .state (hD [] f queue rfl) hstate⟩ ?_)
    exact ih rfl hok' fun before g rest e => hD (f :: before) g rest (by rw [e]; rfl)

/-! ## Deeds -/

/-- `D` allows every state that a deed on `m` announces. -/
structure Permits (host : Host) (asked : NetworkEvent → Prop) (D : Policy) (m : RoomManager) :
    Prop where
  empty : ∀ rooms r, D rooms [] r
  created : ∀ {s : SessionId} {title : Bytes} {r : RoomId} {m' : RoomManager},
    Effect host.multiByteToWideChar m (.createRoom s title) (.created .success r) m' →
      D m'.rooms m'.finishedGames r
  entered : ∀ {s : SessionId} {r : RoomId} {m' : RoomManager},
    Effect host.multiByteToWideChar m (.enterRoom s r) (.room .success) m' →
      D m'.rooms m'.finishedGames r
  readied : ∀ {event : NetworkEvent} {ready : Bool} {u : User} {m' : RoomManager}, asked event →
    event.packetId = roomReadyReq → RoomReadyRequest.decode event.body = .ok ⟨ready⟩ →
      m.users.users[event.session]? = some u →
        Effect host.multiByteToWideChar m (.setReady event.session ready) (.room .success) m' →
          D m'.rooms m'.finishedGames u.roomId
  started : ∀ {event : NetworkEvent} {u : User} {now : Time} {m' : RoomManager}, asked event →
    event.packetId = roomStartReq → (∃ request, RoomStartRequest.decode event.body = .ok request) →
      m.users.users[event.session]? = some u →
        Effect host.multiByteToWideChar m (.startGame event.session now) (.room .success) m' →
          D m'.rooms m'.finishedGames u.roomId
  flushed : ∀ before f rest, m.finishedGames = before ++ f :: rest → D m.rooms rest f.room
  left : ∀ {s : SessionId} {reason : GameEndReason} {now : Time} {m' : RoomManager},
    Effect host.multiByteToWideChar m (.leaveRoom s reason now) (.room .success) m' →
      ∀ before f rest, m'.finishedGames = before ++ f :: rest → D m'.rooms rest f.room
  swept : ∀ {traversal : Traversal RoomId} {now : Time} {m' : RoomManager},
    Effect host.multiByteToWideChar m (.updateTimeouts traversal now) .none m' →
      ∀ before f rest, m'.finishedGames = before ++ f :: rest → D m'.rooms rest f.room

theorem Permits.all (host : Host) (asked : NetworkEvent → Prop) (m : RoomManager) :
    Permits host asked (fun _ _ _ => True) m where
  empty _ _ := trivial
  created _ := trivial
  entered _ := trivial
  readied _ _ _ _ _ := trivial
  started _ _ _ _ _ := trivial
  flushed _ _ _ _ := trivial
  left _ _ _ _ _ := trivial
  swept _ _ _ _ _ := trivial

theorem hears_plain {s s' : SessionId} {rid : UInt16} {body : Bytes}
    (h : (⟨rid, body⟩ : ClientPacket).notice = .other) : hears s [⟨s', rid, body⟩] = [] :=
  hears_other fun _ hpacket => List.mem_singleton.mp hpacket ▸ h

theorem hears_memberOuts (s : SessionId) (m : RoomManager) (r : RoomId) (change : RoomMemberChange)
    (nickname : Bytes) : hears s (memberOuts m r change nickname) = [] :=
  hears_other fun _ hpacket => (memberOuts_other hpacket).2

/-- Only the one who leaves hears that. -/
theorem hears_left {s s' : SessionId} {rid : UInt16} {body : Bytes}
    (h : (⟨rid, body⟩ : ClientPacket).notice = .left) :
    hears s [⟨s', rid, body⟩] = if s' = s then [.left] else [] := by
  by_cases hs : s' = s
  · simp [hears, toSession, heard, SentPacket.packet, h, hs]
  · simp [hears, toSession, heard, hs]

/-- What is heard of the stone just taken. -/
theorem hears_moveOuts {m : RoomManager} (h : m.WellFormed) {room : Room} {stone : GameStone}
    {x y : Int} {now : Time} (hon : m.On room.id room) (hacc : room.game.Accepts stone x y)
    (s : SessionId) :
    hears s (moveOuts (m.moved room (room.game.tryPlaceStone stone x y).2 now)
      (RoomManager.acceptedMove room stone x y (room.game.tryPlaceStone stone x y).2)) =
      if s ∈ room.members then
        [.move (PacketProcessor.gameMove (RoomManager.acceptedMove room stone x y
          (room.game.tryPlaceStone stone x y).2))]
      else [] := by
  have hroom := h.room hon.1
  obtain ⟨guest, hin⟩ := hroom.playing hon.2
  have hvalid := gameMove_valid (h.stored hon.1).2.1 hin.numbered hroom.sound hacc
  obtain ⟨body, hbody⟩ := GameMoveNotification.encode_some hvalid
  obtain ⟨room', hfind, hmembers⟩ :=
    PacketProcessor.find_moved m room (room.game.tryPlaceStone stone x y).2 now
  have hfind' : (m.moved room (room.game.tryPlaceStone stone x y).2 now).find
      (RoomManager.acceptedMove room stone x y (room.game.tryPlaceStone stone x y).2).room =
        some room' := hfind
  rw [moveOuts, hfind']
  simp only [hbody]
  rw [hears_toAll (hmembers ▸ h.nodup hon.1) s (by simp) (GameMoveNotification.notice hbody), hmembers]

section Deeds
variable {host : Host} {asked : NetworkEvent → Prop} {m m' : RoomManager}
  {packets : List SentPacket}

/-- The state of a room is announced. -/
theorem state_acts (hok : m.Ok) {r : RoomId} (hD : D m.rooms m.finishedGames r) (s : SessionId) :
    Acts D s m (hears s (stateOuts m r)) m :=
  Act.acts (.state hD (hok.wellFormed.hears_stateOuts r s)) hok

/-- A newcomer is welcomed. -/
theorem hears_welcome (s : SessionId) {s' : SessionId} {rid : UInt16} {body nickname : Bytes}
    {r : RoomId} (hplain : (⟨rid, body⟩ : ClientPacket).notice = .other) :
    hears s (⟨s', rid, body⟩ :: (memberOuts m r .joined nickname ++ stateOuts m r)) =
      hears s (stateOuts m r) := by
  rw [hears_cons, hears_plain hplain, hears_append, hears_memberOuts]
  rfl

/-- Who has left is in no room. -/
theorem Effect.left_gone {wideChars : Bytes → Nat} {s : SessionId} {reason : GameEndReason}
    {now : Time} (he : Effect wideChars m (.leaveRoom s reason now) (.room .success) m')
    (hok' : m'.Ok) (r : RoomId) (room : Room) (hr : m'.rooms[r]? = some room) : s ∉ room.members := by
  intro hs
  obtain ⟨u, hu, hstate, -⟩ := hok'.wellFormed.member hr s hs
  rw [he.left_lobby hu] at hstate
  cases hstate

theorem Handled.acts {event : NetworkEvent} {rid : UInt16} (hasked : asked event)
    (h : Handled host m event rid packets m') (hok : m.Ok) (hs : event.session ≠ 0)
    (hD : Permits host asked D m) (s : SessionId) : Acts D s m (hears s packets) m' := by
  have hok' := h.ok hok hs
  cases h with
  | idle hplain =>
    rw [hears_plain hplain]
    exact .nil m
  | @answered body l a _ hplain he hl =>
    rw [hears_plain hplain]
    refine he.acts hok ?_ ?_ ?_
    · rintro move rfl
      cases l with
      | placeStone => exact hl rfl
      | _ => cases he with | refused ha => cases ha | expired _ ha => cases ha
    · rintro s' now rfl
      exact hl.elim
    · rintro rfl
      exact hl
  | created hplain he =>
    rw [hears_welcome s hplain]
    exact (he.acts hok (by simp) (by simp) (by simp)).append (state_acts hok' (hD.created he) s)
  | entered hplain he =>
    rw [hears_welcome s hplain]
    exact (he.acts hok (by simp) (by simp) (by simp)).append (state_acts hok' (hD.entered he) s)
  | readied hid hdecode hplain hu he =>
    rw [hears_cons, hears_plain hplain]
    exact (he.acts hok (by simp) (by simp) (by simp)).append
      (state_acts hok' (hD.readied hasked hid hdecode hu he) s)
  | started hid hdecode hplain hu he =>
    have hstate := hD.started hasked hid hdecode hu he
    rw [hears_cons, hears_plain hplain]
    cases he with
    | refused ha => cases ha
    | expired hactor => cases hactor
    | started hseat hwait _ _ _ _ hlast =>
      rw [hseat.roomId_of hu] at hstate ⊢
      exact Act.acts (.started hseat.here hwait hlast hstate hok'
        (hok'.wellFormed.hears_stateOuts _ s)) hok
  | moved hplain he =>
    rw [hears_cons, hears_plain hplain]
    cases he with
    | refused ha => cases ha
    | expired _ ha => cases ha
    | moved hseat hnum hlive hphase hacc =>
      rw [hears_moveOuts hok.wellFormed ⟨hseat.here, hphase⟩ hacc]
      exact Act.acts (.moved ⟨hseat.here, hphase⟩ hacc) hok
  | @left body u now m1 hleft he =>
    have hok1 := he.ok hok (by simp) (by simp) (by simp)
    rw [hears_append, hears_cons, hears_left hleft, hears_append, hears_memberOuts, List.nil_append]
    have hflush := flush_acts _ rfl hok1 (hD.left he) (s := s)
    refine (he.acts hok (by simp) (by simp) (by simp)).append (hflush.append ?_)
    have hstate := state_acts hok' (hD.empty m1.rooms u.roomId) s
    split
    · rename_i hme
      exact (Act.acts (.left rfl (hme ▸ he.left_gone hok1)) hok').append hstate
    · exact hstate
  | stayed hplain =>
    rw [hears_append, hears_plain hplain, List.append_nil]
    exact flush_acts _ rfl hok hD.flushed

theorem Deed.acts (h : Deed host asked m packets m') (hok : m.Ok)
    (hids : ∀ event, asked event → event.session ≠ 0) (hD : Permits host asked D m)
    (s : SessionId) : Acts D s m (hears s packets) m' := by
  have hok' := h.ok hok hids
  cases h with
  | quiet hother =>
    rw [hears_other hother]
    exact .nil m
  | handled hasked h => exact h.acts hasked hok (hids _ hasked) hD s
  | @forgotten s' u hidle =>
    have hok1 : ({ m with users := m.users.remove s' } : RoomManager).Ok :=
      PacketProcessor.removed_ok hok fun _ => hidle.lobby
    have hquiet : Acts D s m [] { m with users := m.users.remove s' } :=
      Act.acts (.quiet (RoomManager.quiet_rooms rfl rfl) rfl) hok
    exact hquiet.append (flush_acts _ rfl hok1 hD.flushed)
  | @gone s' u now m1 he =>
    have hok1 := he.ok hok (by simp) (by simp) (by simp)
    -- the game ends, the user goes, the results go out, and the others see the room
    have hok2 := PacketProcessor.removed_ok hok1 fun _ => he.left_lobby
    have hquiet : Acts D s m1 [] { m1 with users := m1.users.remove s' } :=
      Act.acts (.quiet (RoomManager.quiet_rooms rfl rfl) rfl) hok1
    have hflush := flush_acts _ rfl hok2 (fun before f rest => hD.left he before f rest) (s := s)
    rw [hears_append, hears_append, hears_memberOuts]
    exact (he.acts hok (by simp) (by simp) (by simp)).append
      (hquiet.append (hflush.append (state_acts hok' (hD.empty m1.rooms u.roomId) s)))
  | swept he =>
    have hok1 := he.ok hok (by simp) (by simp) (by simp)
    exact (he.acts hok (by simp) (by simp) (by simp)).append (flush_acts _ rfl hok1 (hD.swept he))

end Deeds
end SelectServer
