import SelectServer.CodecRoundTrip
import SelectServer.OmokGame

/- `ClientGameView.h` and `ProcessResponse` of `ChatClient.cpp`: what the client
   makes of the packets it is sent. A return of false is `none`. Lines for the
   console are left out.

   Of all packets only four can change the view, so a packet is also read as a
   `Notice`, and `processResponse_eq` splits `ProcessResponse` into the reading
   and what the view does on it. -/
namespace SelectServer
open Wire (Bytes)

structure ClientPacket where
  packetId : UInt16 := 0
  body : Bytes := []
  deriving DecidableEq, Repr

structure ClientGameView where
  roomId : RoomId := 0
  roomPlaying : Bool := false
  state : GameState := .notStarted
  nextTurn : GameStone := .empty
  moveCount : UInt32 := 0
  cells : Board := emptyBoard
  game : GameId := 0
  deriving DecidableEq

namespace ClientGameView

def reset (_ : ClientGameView) (roomId : RoomId := 0) : ClientGameView :=
  { roomId := roomId
    roomPlaying := false
    state := .notStarted
    nextTurn := .empty
    moveCount := 0
    game := 0
    cells := emptyBoard }

def begin (view : ClientGameView) (roomId : RoomId) (gameId : GameId) : ClientGameView :=
  { view.reset roomId with
    game := gameId
    roomPlaying := true
    state := .playing
    nextTurn := .black }

def apply (view : ClientGameView) (packet : GameMoveNotification) : Option ClientGameView :=
  if !view.roomPlaying ∨ view.state ≠ .playing ∨ packet.roomId ≠ view.roomId ∨
      packet.x.toNat ≥ gameBoardSize ∨ packet.y.toNat ≥ gameBoardSize ∨
      packet.moveCount ≠ view.moveCount + 1 ∨ packet.placedStone ≠ view.nextTurn ∨
      view.cells.cell packet.x.toNat packet.y.toNat ≠ .empty ∨ packet.game ≠ view.game then none
  else
    some { view with
      cells := view.cells.put packet.x.toNat packet.y.toNat packet.placedStone
      state := packet.state
      nextTurn := packet.nextTurn
      moveCount := packet.moveCount }

def hasFinalResult (view : ClientGameView) : Bool :=
  view.state = .blackWon || view.state = .whiteWon || view.state = .draw

/-- The case of `ROOM_STATE_NTF`. -/
def onRoomState (view : ClientGameView) (notification : RoomStateNotification) :
    Option ClientGameView :=
  let nowPlaying := notification.phase = .playing
  let sameGame := view.roomId = notification.roomId ∧ view.game = notification.game
  if ¬ nowPlaying then
    if sameGame ∧ view.hasFinalResult then some { view with roomPlaying := false }
    else some { view.reset notification.roomId with game := notification.game }
  else if ¬ sameGame then some (view.begin notification.roomId notification.game)
  else if !view.roomPlaying then none
  else some view

/-- The case of `GAME_MOVE_NTF`. -/
def onGameMove (view : ClientGameView) (notification : GameMoveNotification) :
    Option ClientGameView :=
  if notification.roomId ≠ view.roomId ∨ notification.game ≠ view.game then some view
  else view.apply notification

/-- The case of `GAME_END_NTF`. -/
def onGameEnd (view : ClientGameView) (notification : GameEndNotification) :
    Option ClientGameView :=
  if notification.roomId ≠ view.roomId ∨ notification.game ≠ view.game then some view
  else if !view.roomPlaying ∨ notification.moveCount ≠ view.moveCount then none
  else some { view with state := notification.state, nextTurn := .empty, roomPlaying := false }

end ClientGameView

/-- A case of the switch: false on a body that `Decode` rejects. -/
def received {α : Type} (decoded : Except Wire.Fault α) (next : α → Option ClientGameView) :
    Option ClientGameView :=
  match decoded with
  | .ok a => next a
  | .error _ => none

/-- The case the room requests share. -/
def onRoomAction (packetId : UInt16) (body : Bytes) (view : ClientGameView) :
    Option ClientGameView :=
  received (RoomActionResponse.decode body) fun response =>
    if packetId = roomLeaveRes ∧ response.result = .success then some view.reset else some view

def processResponse (packet : ClientPacket) (game : ClientGameView) : Option ClientGameView :=
  if packet.packetId = loginRes then received (LoginResponse.decode packet.body) fun _ => some game
  else if packet.packetId = echoRes then some game
  else if packet.packetId = chatRes then
    received (ChatResponse.decode packet.body) fun _ => some game
  else if packet.packetId = chatNtf then
    received (ChatNotification.decode packet.body) fun _ => some game
  else if packet.packetId = roomListRes then
    received (RoomListResponse.decode packet.body) fun _ => some game
  else if packet.packetId = roomCreateRes ∨ packet.packetId = roomEnterRes ∨
      packet.packetId = roomLeaveRes ∨ packet.packetId = roomReadyRes ∨
      packet.packetId = roomStartRes then onRoomAction packet.packetId packet.body game
  else if packet.packetId = roomMemberNtf then
    received (RoomMemberNotification.decode packet.body) fun _ => some game
  else if packet.packetId = roomStateNtf then
    received (RoomStateNotification.decode packet.body) game.onRoomState
  else if packet.packetId = gameMoveRes then
    received (GameMoveResponse.decode packet.body) fun _ => some game
  else if packet.packetId = gameMoveNtf then
    received (GameMoveNotification.decode packet.body) game.onGameMove
  else if packet.packetId = gameResignRes then
    received (GameMoveResponse.decode packet.body) fun _ => some game
  else if packet.packetId = gameEndNtf then
    received (GameEndNotification.decode packet.body) game.onGameEnd
  else none

/-- The client after a list of packets, if `ProcessResponse` accepts them all. -/
def watch (view : ClientGameView) (packets : List ClientPacket) : Option ClientGameView :=
  packets.foldlM (fun view packet => processResponse packet view) view

/-! ## What a packet says -/

/-- What a packet is to the view. -/
inductive Notice where
  | garbled
  | other
  | left
  | state (notification : RoomStateNotification)
  | move (notification : GameMoveNotification)
  | ended (notification : GameEndNotification)
  deriving DecidableEq, Repr

def Notice.ofDecoded {α : Type} (f : α → Notice) : Except Wire.Fault α → Notice
  | .ok a => f a
  | .error _ => .garbled

namespace ClientPacket

def notice (packet : ClientPacket) : Notice :=
  if packet.packetId = loginRes then .ofDecoded (fun _ => .other) (LoginResponse.decode packet.body)
  else if packet.packetId = echoRes then .other
  else if packet.packetId = chatRes then
    .ofDecoded (fun _ => .other) (ChatResponse.decode packet.body)
  else if packet.packetId = chatNtf then
    .ofDecoded (fun _ => .other) (ChatNotification.decode packet.body)
  else if packet.packetId = roomListRes then
    .ofDecoded (fun _ => .other) (RoomListResponse.decode packet.body)
  else if packet.packetId = roomCreateRes ∨ packet.packetId = roomEnterRes ∨
      packet.packetId = roomLeaveRes ∨ packet.packetId = roomReadyRes ∨
      packet.packetId = roomStartRes then
    .ofDecoded (fun response =>
      if packet.packetId = roomLeaveRes ∧ response.result = .success then .left else .other)
      (RoomActionResponse.decode packet.body)
  else if packet.packetId = roomMemberNtf then
    .ofDecoded (fun _ => .other) (RoomMemberNotification.decode packet.body)
  else if packet.packetId = roomStateNtf then
    .ofDecoded .state (RoomStateNotification.decode packet.body)
  else if packet.packetId = gameMoveRes then
    .ofDecoded (fun _ => .other) (GameMoveResponse.decode packet.body)
  else if packet.packetId = gameMoveNtf then
    .ofDecoded .move (GameMoveNotification.decode packet.body)
  else if packet.packetId = gameResignRes then
    .ofDecoded (fun _ => .other) (GameMoveResponse.decode packet.body)
  else if packet.packetId = gameEndNtf then
    .ofDecoded .ended (GameEndNotification.decode packet.body)
  else .garbled

end ClientPacket

/-- What the view does on a notice. -/
def ClientGameView.onNotice (view : ClientGameView) : Notice → Option ClientGameView
  | .garbled => none
  | .other => some view
  | .left => some view.reset
  | .state notification => view.onRoomState notification
  | .move notification => view.onGameMove notification
  | .ended notification => view.onGameEnd notification

theorem received_eq {α : Type} (decoded : Except Wire.Fault α) (view : ClientGameView)
    (f : α → Notice) :
    received decoded (fun a => view.onNotice (f a)) = view.onNotice (.ofDecoded f decoded) := by
  cases decoded <;> rfl

theorem onRoomAction_eq (packetId : UInt16) (body : Bytes) (view : ClientGameView) :
    onRoomAction packetId body view = view.onNotice (.ofDecoded (fun response =>
      if packetId = roomLeaveRes ∧ response.result = .success then .left else .other)
      (RoomActionResponse.decode body)) := by
  unfold onRoomAction
  rw [← received_eq]
  refine congrArg (received _) (funext fun response => ?_)
  split <;> rfl

theorem onNotice_ite {view : ClientGameView} {c : Prop} [Decidable c]
    {a b : Option ClientGameView} {x y : Notice} (ha : a = view.onNotice x)
    (hb : b = view.onNotice y) :
    (if c then a else b) = view.onNotice (if c then x else y) := by
  split
  · exact ha
  · exact hb

/-- The client reads a packet as a notice, and nothing else of it reaches the view. -/
theorem processResponse_eq (packet : ClientPacket) (view : ClientGameView) :
    processResponse packet view = view.onNotice packet.notice := by
  unfold processResponse ClientPacket.notice
  -- one step per case of the switch, in its order
  refine onNotice_ite (received_eq _ _ fun _ => .other) ?_
  refine onNotice_ite rfl ?_
  refine onNotice_ite (received_eq _ _ fun _ => .other) ?_
  refine onNotice_ite (received_eq _ _ fun _ => .other) ?_
  refine onNotice_ite (received_eq _ _ fun _ => .other) ?_
  refine onNotice_ite (onRoomAction_eq _ _ _) ?_
  refine onNotice_ite (received_eq _ _ fun _ => .other) ?_
  refine onNotice_ite (received_eq _ _ Notice.state) ?_
  refine onNotice_ite (received_eq _ _ fun _ => .other) ?_
  refine onNotice_ite (received_eq _ _ Notice.move) ?_
  refine onNotice_ite (received_eq _ _ fun _ => .other) ?_
  exact onNotice_ite (received_eq _ _ Notice.ended) rfl

/-- What the view hears in a list of packets: the notices that can change it or stop it. -/
def heard (packets : List ClientPacket) : List Notice :=
  (packets.map ClientPacket.notice).filter (· ≠ .other)

/-- The view after a list of notices, if it accepts them all. -/
def hear (view : ClientGameView) (notices : List Notice) : Option ClientGameView :=
  notices.foldlM ClientGameView.onNotice view

theorem heard_append (a b : List ClientPacket) : heard (a ++ b) = heard a ++ heard b := by
  simp [heard]

theorem hear_append (view : ClientGameView) (a b : List Notice) :
    hear view (a ++ b) = (hear view a).bind fun view => hear view b :=
  List.foldlM_append ..

theorem hear_append_some {view view' : ClientGameView} {a b : List Notice}
    (h : hear view (a ++ b) = some view') :
    ∃ mid, hear view a = some mid ∧ hear mid b = some view' := by
  rw [hear_append] at h
  exact Option.bind_eq_some_iff.mp h

theorem watch_eq (packets : List ClientPacket) : ∀ view : ClientGameView,
    watch view packets = hear view (heard packets) := by
  induction packets with
  | nil => intro view; rfl
  | cons packet packets ih =>
    intro view
    have hstep : watch view (packet :: packets) =
        (view.onNotice packet.notice).bind fun view => watch view packets := by
      rw [← processResponse_eq]
      rfl
    rw [hstep]
    by_cases hother : packet.notice = .other
    · have hskip : heard (packet :: packets) = heard packets := by simp [heard, hother]
      rw [hother, hskip]
      exact ih view
    · have hkeep : heard (packet :: packets) = packet.notice :: heard packets := by
        simp [heard, hother]
      rw [hkeep]
      exact congrArg (Option.bind _) (funext ih)

end SelectServer
