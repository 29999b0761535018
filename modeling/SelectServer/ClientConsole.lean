import SelectServer.ClientApp
import SelectServer.Lib.TextOutput

/- What the client shows: `Print` of `ClientGameView.h`, and what `ProcessCommand` and
   `ProcessResponse` of `ChatClient.cpp` write to `std::cout` and `std::cerr`, in the
   order in which they write it. What `TcpClient` and `main` write themselves (the
   errors of the sockets, the prompt) is left out. The text of a board says what is
   on it (`print_eq_iff`), and the last board that was written is the one of the view
   (`Displayed`). -/
namespace SelectServer
open Wire (Bytes)
open TextOutput

/-! ## The source -/

/-- The bytes of a literal of the source. -/
def literal (s : String) : Bytes := ascii s.toList

namespace ClientGameView

/-- `' ' << symbol << ' '`. -/
def stoneText : GameStone → Bytes
  | .empty => literal " . "
  | .black => literal " X "
  | .white => literal " O "

def rowText (y : Nat) (row : Vector GameStone boardSize) : Bytes :=
  setw 2 (decimal y) ++ literal "  " ++ row.toList.flatMap stoneText ++ literal "\n"

def stateText : GameState → GameStone → Bytes
  | .playing, nextTurn =>
    literal "Next: " ++ (if nextTurn = .black then literal "Black" else literal "White") ++ literal "\n"
  | .blackWon, _ => literal "Black wins.\n"
  | .whiteWon, _ => literal "White wins.\n"
  | .draw, _ => literal "Draw.\n"
  | .notStarted, _ => literal "Game has not started.\n"

/-- The first line of a board, with the numbers of the columns. -/
def columnsText : Bytes :=
  literal "\n    " ++ (List.range gameBoardSize).flatMap (fun x => setw 2 (decimal x) ++ literal " ") ++
    literal "\n"

def print (view : ClientGameView) : Bytes :=
  columnsText ++ ((List.finRange gameBoardSize).flatMap (fun y => rowText y.val view.cells[y]) ++
    (literal "X = Black, O = White\nMoves: " ++
      (decimal view.moveCount.toNat ++ (literal "\n" ++ stateText view.state view.nextTurn))))

end ClientGameView

def roomResultText : RoomResult → Bytes
  | .success => literal "Success"
  | .userNotFound => literal "Login first"
  | .alreadyInRoom => literal "Already in a room"
  | .notInRoom => literal "Not in a room"
  | .invalidTitle => literal "Invalid room title"
  | .roomLimitReached => literal "Room limit reached"
  | .roomIdExhausted => literal "Room ID exhausted"
  | .stateMismatch => literal "Server state mismatch"
  | .roomNotFound => literal "Room not found"
  | .roomFull => literal "Room is full"
  | .invalidRequest => literal "Invalid request"
  | .notHost => literal "Only the host can start"
  | .hostCannotReady => literal "Host uses the start command"
  | .notEnoughPlayers => literal "Two players are required"
  | .notAllReady => literal "The other player is not ready"
  | .gameAlreadyStarted => literal "Game already started"
  | .gameInProgress => literal "Game is in progress"
  | .gameIdExhausted => literal "Game ID exhausted"

def moveResultText : GameMoveResult → Bytes
  | .success => literal "Success"
  | .notLoggedIn => literal "Login first"
  | .notInRoom => literal "Enter a room first"
  | .wrongRoom => literal "Room does not match"
  | .gameNotRunning => literal "Game is not running"
  | .outOfBounds => literal "Position is outside the board"
  | .notYourTurn => literal "Not your turn"
  | .occupied => literal "Position is already occupied"
  | .stateMismatch => literal "Server state mismatch"
  | .staleGame => literal "Request belongs to an old or invalid game"

def gameEndReasonText : GameEndReason → Bytes
  | .fiveInRow => literal "Five or more connected stones"
  | .boardFull => literal "Board is full"
  | .resigned => literal "Resignation"
  | .turnTimeout => literal "Turn timeout"
  | .leftRoom => literal "A player left the room"
  | .disconnected => literal "Player disconnected"

/-- One of the things that are written. -/
inductive Written where
  | text (bytes : Bytes)
  /-- What `Print` writes. -/
  | board (bytes : Bytes)
  deriving DecidableEq, Repr

def Written.literal (s : String) : Written := .text (SelectServer.literal s)

def Written.board? : Written → Option Bytes
  | .text _ => none
  | .board bytes => some bytes

/-! ### Commands -/

def helpText : Bytes :=
  literal "login <nickname>\necho <message>\nquit\ncreate <title>\nrooms [afterRoomId]\n" ++
    literal "enter <roomId>\nleave\nready on\nready off\nstart\nmove <x:0-14> <y:0-14>\nboard\n" ++
      literal "resign\n"

/-- A request that is queued, or else `failed`. -/
def queueWrites (client : TcpClient) (packetId : UInt16) (body : Bytes) (failed : String) :
    List Written :=
  if (client.sendPacket packetId body).1 then [] else [.literal failed]

/-- A request that is encoded, or else `failed`. -/
def encodeWrites (failed : String) : Option Bytes → List Written
  | none => [.literal failed]
  | some _ => []

/-- What `ProcessCommand` writes. -/
def commandWrites (client : TcpClient) (command : Bytes) (game : ClientGameView) : List Written :=
  if command = quitWord then []
  else if command = helpWord then [.text helpText]
  else if command = boardWord then [.board game.print]
  else if isCommand loginWord command then
    queueWrites client loginReq (LoginRequest.encode ⟨argument loginWord command⟩)
      "Could not queue login request.\n"
  else if isCommand echoWord command then
    queueWrites client echoReq (argument echoWord command) "Could not queue echo request.\n"
  else if isCommand chatWord command then
    queueWrites client chatReq (ChatRequest.encode ⟨argument chatWord command⟩)
      "Could not queue chat request.\n"
  else if isCommand createWord command then
    encodeWrites "Room title is too long to encode.\n"
      (RoomCreateRequest.encode ⟨argument createWord command⟩)
  else if isCommand roomsWord command then
    let (parsed, afterRoomId) :=
      if command ≠ roomsWord then tryParseRoomId (command.drop 6) 0 else (true, 0)
    if !parsed then [.literal "Usage: rooms [afterRoomId]\n"]
    else encodeWrites "Could not encode room list request.\n" (RoomListRequest.encode ⟨afterRoomId⟩)
  else if isCommand enterWord command then
    let (parsed, roomId) :=
      if command = enterWord then (false, 0) else tryParseRoomId (command.drop 6) 0
    if !parsed ∨ roomId = 0 then [.literal "Usage: enter <roomId>\n"]
    else encodeWrites "Could not encode room enter request.\n" (RoomEnterRequest.encode ⟨roomId⟩)
  else if command = leaveWord then
    encodeWrites "Could not encode leave request.\n" (RoomLeaveRequest.encode ⟨⟩)
  else if command = readyOnWords ∨ command = readyOffWords then
    encodeWrites "Could not encode ready request.\n" (RoomReadyRequest.encode ⟨command = readyOnWords⟩)
  else if command = startWord then
    encodeWrites "Could not encode start request.\n" (RoomStartRequest.encode ⟨⟩)
  else if isCommand moveWord command then
    if game.roomId = 0 ∨ !game.roomPlaying ∨ game.state ≠ .playing then
      [.literal "Start a game first.\n"]
    else
      match moveArguments command with
      | none => [.literal "Usage: move <x:0-14> <y:0-14>\n"]
      | some (x, y) =>
        encodeWrites "Could not encode move request.\n" (GameMoveRequest.encode
          ⟨game.roomId, game.game, UInt8.ofNat x.toNat, UInt8.ofNat y.toNat⟩)
  else if command = resignWord then
    if !game.roomPlaying ∨ game.state ≠ .playing then [.literal "No active game.\n"]
    else encodeWrites "Could not encode resign request.\n"
      (GameResignRequest.encode ⟨game.roomId, game.game⟩)
  else if command ≠ [] then [.literal "Unknown command. Type help.\n"]
  else []

/-! ### Packets -/

/-- A case of the switch: `invalid` for a body that `Decode` rejects. -/
def decodeWrites {α : Type} (decoded : Except Wire.Fault α) (invalid : String)
    (next : α → List Written) : List Written :=
  match decoded with
  | .ok a => next a
  | .error _ => [.literal invalid]

def loginWrites : LoginResult → List Written
  | .success => [.literal "[Login] Success\n"]
  | .invalidNickname => [.literal "[Login] Use 1-16 letters, digits or underscore.\n"]
  | .nicknameInUse => [.literal "[Login] Nickname is already in use.\n"]
  | .alreadyLoggedIn => [.literal "[Login] This connection is already logged in.\n"]

def chatWrites : ChatResult → List Written
  | .success => []
  | .notLoggedIn => [.literal "\n[Chat error] Login first.\n"]
  | .invalidMessage => [.literal "\n[Chat error] Use 1-256 UTF-8 bytes, ",
      .literal "with no control characters or only spaces.\n"]
  | .notInRoom => [.literal "\n[Chat error] Enter a room first.\n"]
  | .stateMismatch => [.literal "\n[Chat error] Server room state mismatch.\n"]

def chatText (notification : ChatNotification) : Bytes :=
  literal "\n[Chat] " ++ notification.nickname ++ literal ": " ++ notification.message ++ literal "\n"

def roomInfoText (room : RoomInfo) : Bytes :=
  literal "[Room " ++ decimal room.roomId.toNat ++ literal "] " ++ room.title ++ literal " (" ++
    decimal room.userCount.toNat ++ literal "/" ++ decimal room.capacity.toNat ++ literal ")\n"

/-- `Decode` takes no `hasMore` without rooms, so there is a last one. -/
def roomListWrites (response : RoomListResponse) : List Written :=
  if response.result ≠ .success then
    [.text (literal "[Rooms] " ++ roomResultText response.result ++ literal "\n")]
  else
    (if response.rooms.isEmpty then [.literal "[Rooms] No rooms on this page.\n"] else []) ++
      response.rooms.map (fun room => .text (roomInfoText room)) ++
        match response.hasMore, response.rooms.getLast? with
        | true, some room =>
          [.text (literal "Next page: rooms " ++ decimal room.roomId.toNat ++ literal "\n")]
        | _, _ => []

def actionText (packetId : UInt16) : Bytes :=
  if packetId = roomCreateRes then literal "Create"
  else if packetId = roomEnterRes then literal "Enter"
  else if packetId = roomLeaveRes then literal "Leave"
  else if packetId = roomReadyRes then literal "Ready"
  else if packetId = roomStartRes then literal "Start"
  else literal "Room"

def roomActionText (packetId : UInt16) (response : RoomActionResponse) : Bytes :=
  literal "[" ++ actionText packetId ++ literal "] " ++ roomResultText response.result ++
    (if response.result = .success then literal ", room ID: " ++ decimal response.roomId.toNat
      else []) ++ literal "\n"

def memberChangeText : RoomMemberChange → Bytes
  | .joined => literal "joined"
  | .left => literal "left"
  | .disconnected => literal "disconnected"

def roomMemberText (notification : RoomMemberNotification) : Bytes :=
  literal "\n[Room " ++ decimal notification.roomId.toNat ++ literal "] " ++ notification.nickname ++
    literal " " ++ memberChangeText notification.change ++ literal ".\n"

def playerText (notification : RoomStateNotification) (player : RoomPlayerInfo) : Bytes :=
  literal "- " ++ player.nickname ++
    (if player.nickname = notification.hostNickname then literal " [Host]"
      else if notification.phase ≠ .playing then
        if player.ready then literal " [Ready]" else literal " [Not ready]"
      else []) ++ literal "\n"

def roomStateText (notification : RoomStateNotification) : Bytes :=
  literal "\n[Room " ++ decimal notification.roomId.toNat ++ literal "] " ++
    (if notification.phase = .playing then literal "Playing" else literal "Waiting") ++ literal "\n" ++
      literal "Host: " ++ notification.hostNickname ++ literal "\n" ++
        notification.players.flatMap (playerText notification)

/-- The case of `ROOM_STATE_NTF`. -/
def roomStateWrites (game : ClientGameView) (notification : RoomStateNotification) : List Written :=
  let sameGame := game.roomId = notification.roomId ∧ game.game = notification.game
  if notification.phase = .playing ∧ ¬ sameGame then
    [.board (game.begin notification.roomId notification.game).print,
      .text (roomStateText notification)]
  else if notification.phase = .playing ∧ !game.roomPlaying then
    [.literal "Finished game unexpectedly returned to playing.\n"]
  else [.text (roomStateText notification)]

/-- The case of `GAME_MOVE_RES`, and of `GAME_RESIGN_RES`. -/
def gameResultWrites (label : String) (game : ClientGameView) (response : GameMoveResponse) :
    List Written :=
  if response.game ≠ game.game then [.literal "[Game] Ignored response for an old game.\n"]
  else if response.result ≠ .success then
    [.text (literal label ++ moveResultText response.result ++ literal "\n")]
  else []

def gameMoveText (notification : GameMoveNotification) : Bytes :=
  literal "\n[Move] " ++
    (if notification.placedStone = .black then literal "Black" else literal "White") ++
      literal " at (" ++ decimal notification.x.toNat ++ literal ", " ++ decimal notification.y.toNat ++
        literal ")\n"

/-- The case of `GAME_MOVE_NTF`. -/
def gameMoveWrites (game : ClientGameView) (notification : GameMoveNotification) : List Written :=
  if notification.roomId ≠ game.roomId ∨ notification.game ≠ game.game then
    [.literal "[Game] Ignored move from another game.\n"]
  else
    match game.apply notification with
    | none => [.literal "Client board is out of sync.\n"]
    | some game => [.text (gameMoveText notification), .board game.print]

/-- The case of `GAME_END_NTF`. -/
def gameEndWrites (game : ClientGameView) (notification : GameEndNotification) : List Written :=
  if notification.roomId ≠ game.roomId ∨ notification.game ≠ game.game then
    [.literal "[Game] Ignored result from another game.\n"]
  else
    match game.onGameEnd notification with
    | none => [.literal "Game end state is out of sync.\n"]
    | some game =>
      [.text (literal "\n[Game ended] " ++ gameEndReasonText notification.reason ++ literal "\n"),
        .board game.print]

/-- What `ProcessResponse` writes. -/
def responseWrites (packet : ClientPacket) (game : ClientGameView) : List Written :=
  if packet.packetId = loginRes then
    decodeWrites (LoginResponse.decode packet.body) "Invalid login response.\n" fun response =>
      loginWrites response.result
  else if packet.packetId = echoRes then
    [.text (literal "[Echo] " ++ packet.body ++ literal "\n")]
  else if packet.packetId = chatRes then
    decodeWrites (ChatResponse.decode packet.body) "Invalid chat response.\n" fun response =>
      chatWrites response.result
  else if packet.packetId = chatNtf then
    decodeWrites (ChatNotification.decode packet.body) "Invalid chat notification.\n"
      fun notification => [.text (chatText notification)]
  else if packet.packetId = roomListRes then
    decodeWrites (RoomListResponse.decode packet.body) "Invalid room list response.\n" roomListWrites
  else if packet.packetId = roomCreateRes ∨ packet.packetId = roomEnterRes ∨
      packet.packetId = roomLeaveRes ∨ packet.packetId = roomReadyRes ∨
      packet.packetId = roomStartRes then
    decodeWrites (RoomActionResponse.decode packet.body) "Invalid room action response.\n"
      fun response => [.text (roomActionText packet.packetId response)]
  else if packet.packetId = roomMemberNtf then
    decodeWrites (RoomMemberNotification.decode packet.body) "Invalid room member notification.\n"
      fun notification => [.text (roomMemberText notification)]
  else if packet.packetId = roomStateNtf then
    decodeWrites (RoomStateNotification.decode packet.body) "Invalid room state notification.\n"
      (roomStateWrites game)
  else if packet.packetId = gameMoveRes then
    decodeWrites (GameMoveResponse.decode packet.body) "Invalid move response.\n"
      (gameResultWrites "[Move] " game)
  else if packet.packetId = gameMoveNtf then
    decodeWrites (GameMoveNotification.decode packet.body) "Invalid move notification.\n"
      (gameMoveWrites game)
  else if packet.packetId = gameResignRes then
    decodeWrites (GameMoveResponse.decode packet.body) "Invalid resign response.\n"
      (gameResultWrites "[Resign] " game)
  else if packet.packetId = gameEndNtf then
    decodeWrites (GameEndNotification.decode packet.body) "Invalid game end notification.\n"
      (gameEndWrites game)
  else [.text (literal "Unexpected packet ID: " ++ decimal packet.packetId.toNat ++ literal "\n")]

/-! ## The text of a board -/

namespace ClientGameView

theorem stoneText_length (stone : GameStone) : (stoneText stone).length = 3 := by
  cases stone <;> decide +kernel

theorem stoneText_inj (stone stone' : GameStone) (h : stoneText stone = stoneText stone') :
    stone = stone' := by
  cases stone <;> cases stone' <;> first | rfl | exact absurd h (by decide +kernel)

theorem rowText_length (y : Nat) (row row' : Vector GameStone boardSize) :
    (rowText y row).length = (rowText y row').length := by
  have hstones : ∀ row : Vector GameStone boardSize,
      (row.toList.flatMap stoneText).length = 15 * 3 := by
    intro row
    rw [List.length_flatMap, List.map_congr_left fun stone _ => stoneText_length stone,
      List.map_const', List.sum_replicate, Vector.length_toList]
    rfl
  unfold rowText
  simp only [List.length_append, hstones]

theorem rowText_inj {y : Nat} {row row' : Vector GameStone boardSize}
    (h : rowText y row = rowText y row') : row = row' := by
  have hstones := List.append_cancel_left (List.append_cancel_right h)
  refine Vector.toList_inj.mp (flatMap_inj stoneText_length stoneText_inj ?_ hstones)
  rw [Vector.length_toList, Vector.length_toList]

theorem stateText_playing (turn : GameStone) : stateText .playing turn =
    if turn = .black then literal "Next: Black\n" else literal "Next: White\n" := by
  cases turn <;> decide +kernel

/-- The last line says how the game stands. -/
theorem stateText_state {state state' : GameState} {turn turn' : GameStone}
    (h : stateText state turn = stateText state' turn') : state = state' := by
  cases state <;> cases state' <;>
    first
    | rfl
    | exact absurd h (show ¬ literal _ = literal _ by decide +kernel)
    | rw [stateText_playing] at h
  -- a game that goes on, and one that does not
  all_goals split at h <;> exact absurd h (show ¬ literal _ = literal _ by decide +kernel)

/-- Of a game that goes on the last line also says whether it is black's turn. -/
theorem stateText_eq_iff {state state' : GameState} {turn turn' : GameStone} :
    stateText state turn = stateText state' turn' ↔
      state = state' ∧ (state = .playing → (turn = .black ↔ turn' = .black)) := by
  have hturns : literal "Next: Black\n" ≠ literal "Next: White\n" := by decide +kernel
  constructor
  · intro h
    refine ⟨stateText_state h, ?_⟩
    rintro rfl
    rw [← stateText_state h, stateText_playing, stateText_playing] at h
    refine ⟨fun e => ?_, fun e => ?_⟩
    · by_contra hne
      rw [if_pos e, if_neg hne] at h
      exact hturns h
    · by_contra hne
      rw [if_pos e, if_neg hne] at h
      exact hturns h.symm
  · rintro ⟨rfl, hturn⟩
    cases state with
    | playing => rw [stateText_playing, stateText_playing, if_congr (hturn rfl) rfl rfl]
    | notStarted => rfl
    | blackWon => rfl
    | whiteWon => rfl
    | draw => rfl

/-- Two views that look the same on the screen. -/
structure Alike (view view' : ClientGameView) : Prop where
  cells : view.cells = view'.cells
  moveCount : view.moveCount = view'.moveCount
  state : view.state = view'.state
  turn : view.state = .playing → (view.nextTurn = .black ↔ view'.nextTurn = .black)

/-- The text says what is on the board, how many stones, and how the game stands. -/
theorem print_eq_iff {view view' : ClientGameView} :
    view.print = view'.print ↔ view.Alike view' := by
  have hnewline : ∀ text : Bytes, ∀ ch ∈ (literal "\n" ++ text).head?,
      TextInput.isDigit ch = false := by
    intro text ch hch
    obtain rfl := Option.some.inj (show some 10 = some ch from hch)
    rfl
  constructor
  · intro h
    have hrows := List.append_cancel_left h
    obtain ⟨hboards, hrest⟩ := List.append_inj hrows (by
      rw [List.length_flatMap, List.length_flatMap]
      exact congrArg List.sum (List.map_congr_left fun y _ => rowText_length ..))
    have hcells := rows_inj (fun y _ => rowText_length ..) hboards
    obtain ⟨hmoves, hlast⟩ := decimal_append_inj (hnewline _) (hnewline _)
      (List.append_cancel_left hrest)
    obtain ⟨hstate, hturn⟩ := stateText_eq_iff.mp (List.append_cancel_left hlast)
    refine ⟨Vector.ext fun y hy => ?_, UInt32.toNat_inj.mp hmoves, hstate, hturn⟩
    exact rowText_inj (hcells ⟨y, hy⟩ (List.mem_finRange _))
  · intro h
    unfold print
    rw [h.cells, h.moveCount, stateText_eq_iff.mpr ⟨h.state, h.turn⟩]

end ClientGameView

/-! ## The last board -/

/-- The texts of the boards among what was written. -/
def boards (written : List Written) : List Bytes := written.filterMap Written.board?

theorem boards_append (first later : List Written) :
    boards (first ++ later) = boards first ++ boards later :=
  List.filterMap_append

/-- Unless no game is on the screen, the last board that was written is the one of the view. -/
def Displayed (texts : List Bytes) (view : ClientGameView) : Prop :=
  view.state ≠ .notStarted → texts.getLast? = some view.print

variable {texts : List Bytes} {view view' : ClientGameView} {notice : Notice}

theorem Displayed.last (texts : List Bytes) (view : ClientGameView) :
    Displayed (texts ++ [view.print]) view := fun _ => List.getLast?_concat

theorem Displayed.none (h : view.state = .notStarted) : Displayed texts view := fun hstate => absurd h hstate

/-- Nothing more is written. -/
theorem Displayed.still (h : Displayed texts view) {new : List Bytes} (hnew : new = []) :
    Displayed (texts ++ new) view := by
  rw [hnew, List.append_nil]
  exact h

/-- The view looks the same as before. -/
theorem Displayed.alike (h : Displayed texts view) (ha : view.Alike view') : Displayed texts view' := by
  intro hstate
  rw [← ClientGameView.print_eq_iff.mpr ha]
  exact h (by rw [ha.state]; exact hstate)

/-! ### Commands -/

/-- Every board among what was written is the one of `view`. -/
def BoardsOf (view : ClientGameView) (written : List Written) : Prop :=
  ∀ text ∈ boards written, text = view.print

namespace BoardsOf
variable {written : List Written}

theorem none (h : boards written = []) : BoardsOf view written := by
  intro text htext
  rw [h] at htext
  cases htext

theorem ite {c : Prop} [Decidable c] {a b : List Written} (ha : BoardsOf view a)
    (hb : BoardsOf view b) : BoardsOf view (if c then a else b) := by
  split
  · exact ha
  · exact hb

theorem queue (client : TcpClient) (packetId : UInt16) (body : Bytes) (failed : String) :
    BoardsOf view (queueWrites client packetId body failed) := by
  unfold queueWrites
  exact .ite (.none rfl) (.none rfl)

theorem encode (failed : String) (encoded : Option Bytes) :
    BoardsOf view (encodeWrites failed encoded) := by
  cases encoded with
  | none => exact .none rfl
  | some body => exact .none rfl

theorem shown (h : BoardsOf view written) (hshown : Displayed texts view) :
    Displayed (texts ++ boards written) view := by
  intro hstate
  rw [List.getLast?_append]
  cases hlast : (boards written).getLast? with
  | none => exact hshown hstate
  | some text =>
    rw [h text (List.mem_of_getLast? hlast)]
    rfl

end BoardsOf

/-- Only `board` writes a board, and it is the one of the view. -/
theorem commandWrites_boards (client : TcpClient) (command : Bytes) (game : ClientGameView) :
    BoardsOf game (commandWrites client command game) := by
  unfold commandWrites
  -- one step per branch, in their order
  refine .ite (.none rfl) (.ite (.none rfl) (.ite (fun text htext => ?_) ?_))
  · exact List.mem_singleton.mp htext
  refine .ite (.queue _ _ _ _) (.ite (.queue _ _ _ _) (.ite (.queue _ _ _ _) (.ite (.encode _ _) ?_)))
  refine .ite (.ite (.none rfl) (.encode _ _)) (.ite (.ite (.none rfl) (.encode _ _)) ?_)
  refine .ite (.encode _ _) (.ite (.encode _ _) (.ite (.encode _ _) (.ite (.ite (.none rfl) ?_) ?_)))
  · cases moveArguments command with
    | none => exact .none rfl
    | some arguments => exact .encode _ _
  · exact .ite (.ite (.none rfl) (.encode _ _)) (.ite (.none rfl) (.none rfl))

/-! ### Packets -/

/-- The boards that are written on a notice. -/
def ClientGameView.boardsOn (view : ClientGameView) : Notice → List Bytes
  | .state notification => boards (roomStateWrites view notification)
  | .move notification => boards (gameMoveWrites view notification)
  | .ended notification => boards (gameEndWrites view notification)
  | _ => []

theorem decodeWrites_boards {α : Type} {decoded : Except Wire.Fault α} {invalid : String}
    {next : α → List Written} (f : α → Notice) (hnext : ∀ a, boards (next a) = view.boardsOn (f a)) :
    boards (decodeWrites decoded invalid next) = view.boardsOn (.ofDecoded f decoded) := by
  cases decoded with
  | error fault => rfl
  | ok a => exact hnext a

theorem boards_ite {c : Prop} [Decidable c] {a b : List Written} {x y : Notice}
    (ha : boards a = view.boardsOn x) (hb : boards b = view.boardsOn y) :
    boards (if c then a else b) = view.boardsOn (if c then x else y) := by
  split
  · exact ha
  · exact hb

theorem roomListWrites_boards (response : RoomListResponse) : boards (roomListWrites response) = [] := by
  have hrooms : boards (response.rooms.map fun room => .text (roomInfoText room)) = [] := by
    unfold boards
    rw [List.filterMap_map]
    exact List.filterMap_eq_nil_iff.mpr fun _ _ => rfl
  unfold roomListWrites
  split
  · rfl
  · rw [boards_append, boards_append, hrooms, List.append_nil]
    split <;> split <;> rfl

theorem gameResultWrites_boards (label : String) (game : ClientGameView)
    (response : GameMoveResponse) : boards (gameResultWrites label game response) = [] := by
  unfold gameResultWrites
  split
  · rfl
  · split <;> rfl

/-- A packet has boards written only as a notice. -/
theorem responseWrites_boards (packet : ClientPacket) (view : ClientGameView) :
    boards (responseWrites packet view) = view.boardsOn packet.notice := by
  unfold responseWrites ClientPacket.notice
  -- one step per case of the switch, in its order
  refine boards_ite (decodeWrites_boards _ fun response => ?_) ?_
  · cases response.result <;> rfl
  refine boards_ite rfl ?_
  refine boards_ite (decodeWrites_boards _ fun response => ?_) ?_
  · cases response.result <;> rfl
  refine boards_ite (decodeWrites_boards _ fun _ => rfl) ?_
  refine boards_ite (decodeWrites_boards _ roomListWrites_boards) ?_
  refine boards_ite (decodeWrites_boards _ fun response => ?_) ?_
  · split <;> rfl
  refine boards_ite (decodeWrites_boards _ fun _ => rfl) ?_
  refine boards_ite (decodeWrites_boards _ fun _ => rfl) ?_
  refine boards_ite (decodeWrites_boards _ (gameResultWrites_boards _ _)) ?_
  refine boards_ite (decodeWrites_boards _ fun _ => rfl) ?_
  refine boards_ite (decodeWrites_boards _ (gameResultWrites_boards _ _)) ?_
  exact boards_ite (decodeWrites_boards _ fun _ => rfl) rfl

/-- A notice that is refused has no board written. -/
theorem boardsOn_refused (h : view.onNotice notice = none) : view.boardsOn notice = [] := by
  cases notice with
  | garbled => rfl
  | other => rfl
  | left => rfl
  | state notification =>
    have h : view.onRoomState notification = none := h
    unfold ClientGameView.onRoomState at h
    dsimp only at h
    show boards (roomStateWrites view notification) = []
    unfold roomStateWrites
    dsimp only
    split at h
    · split at h <;> cases h
    · split at h
      · cases h
      · rename_i hplaying hsame
        rw [if_neg fun hnew => hsame hnew.2]
        split <;> rfl
  | move notification =>
    have h : view.onGameMove notification = none := h
    unfold ClientGameView.onGameMove at h
    show boards (gameMoveWrites view notification) = []
    unfold gameMoveWrites
    split at h
    · cases h
    · rename_i hsame
      rw [if_neg hsame, h]
      rfl
  | ended notification =>
    have h : view.onGameEnd notification = none := h
    show boards (gameEndWrites view notification) = []
    unfold gameEndWrites
    rw [h]
    split <;> rfl

/-- A room state clears the view or has the empty board of a new game written, or changes nothing
that the board shows. -/
theorem Displayed.onRoomState {notification : RoomStateNotification} (h : Displayed texts view)
    (hview : view.onRoomState notification = some view') :
    Displayed (texts ++ boards (roomStateWrites view notification)) view' := by
  unfold ClientGameView.onRoomState at hview
  dsimp only at hview
  unfold roomStateWrites
  dsimp only
  split at hview
  · rename_i hwaiting
    split at hview
    · cases hview
      rw [if_neg fun hnew => hwaiting hnew.1, if_neg fun hold => hwaiting hold.1]
      exact (h.alike ⟨rfl, rfl, rfl, fun _ => Iff.rfl⟩).still rfl
    · cases hview
      exact .none rfl
  · rename_i hplaying
    replace hplaying := Decidable.not_not.mp hplaying
    split at hview
    · rename_i hnew
      cases hview
      rw [if_pos ⟨hplaying, hnew⟩]
      exact .last _ _
    · rename_i hsame
      -- the game on the screen goes on, or the notice is refused
      split at hview
      · cases hview
      · rename_i hrunning
        cases hview
        rw [if_neg fun hnew => hsame hnew.2, if_neg fun hold => hrunning hold.2]
        exact h.still rfl

/-- A stone of the game on the screen has the new board written. -/
theorem Displayed.onGameMove {notification : GameMoveNotification} (h : Displayed texts view)
    (hview : view.onGameMove notification = some view') :
    Displayed (texts ++ boards (gameMoveWrites view notification)) view' := by
  unfold ClientGameView.onGameMove at hview
  unfold gameMoveWrites
  split at hview
  · rename_i hother
    cases hview
    rw [if_pos hother]
    exact h.still rfl
  · rename_i hsame
    rw [if_neg hsame, hview]
    exact .last _ _

/-- The end of the game on the screen has the last board written. -/
theorem Displayed.onGameEnd {notification : GameEndNotification} (h : Displayed texts view)
    (hview : view.onGameEnd notification = some view') :
    Displayed (texts ++ boards (gameEndWrites view notification)) view' := by
  unfold gameEndWrites
  rw [hview]
  split
  · rename_i hother
    unfold ClientGameView.onGameEnd at hview
    rw [if_pos hother] at hview
    cases hview
    exact h.still rfl
  · exact .last _ _

/-- A notice that is accepted has the board written, unless the view looks the same or has none. -/
theorem Displayed.onNotice (h : Displayed texts view) (hview : view.onNotice notice = some view') :
    Displayed (texts ++ view.boardsOn notice) view' := by
  cases notice with
  | garbled => cases hview
  | other =>
    cases hview
    exact h.still rfl
  | left =>
    cases hview
    exact .none rfl
  | state notification => exact h.onRoomState hview
  | move notification => exact h.onGameMove hview
  | ended notification => exact h.onGameEnd hview

/-! ## The console of a client -/

namespace ClientApp

/-- What the loop over the packets writes. -/
def respondWrites : List ClientPacket → ClientGameView → List Written
  | [], _ => []
  | packet :: packets, game =>
    responseWrites packet game ++
      match processResponse packet game with
      | none => []
      | some game => respondWrites packets game

/-- What is written on an input. -/
def writes (c : ClientApp) : ClientInput → List Written
  | .line none => []
  | .line (some text) => commandWrites c.tcp text c.game
  | .inputFinished => []
  | .run os =>
    match c.tcp.run os with
    | some (none, tcp) => respondWrites tcp.packets c.game
    | _ => []

variable {c c' : ClientApp}

theorem command_game (c : ClientApp) (text : Bytes) : (c.command text).game = c.game := by
  have hcommand := c.command_spec text
  generalize c.command text = c' at hcommand
  cases hcommand <;> rfl

theorem respond_shown (packets : List ClientPacket) : ∀ {texts : List Bytes} {c : ClientApp},
    Displayed texts c.game →
      Displayed (texts ++ boards (respondWrites packets c.game)) (respond packets c).game := by
  induction packets with
  | nil =>
    intro texts c h
    exact h.still rfl
  | cons packet packets ih =>
    intro texts c h
    unfold respond respondWrites
    dsimp only
    rw [boards_append, responseWrites_boards]
    cases hgame : processResponse packet c.game with
    -- a packet that is refused ends the loop, with the view as it was
    | none =>
      rw [processResponse_eq] at hgame
      rw [boardsOn_refused hgame]
      exact h.still rfl
    | some game =>
      rw [processResponse_eq] at hgame
      dsimp only
      rw [← List.append_assoc]
      exact @ih _ { c with
        tcp := { c.tcp with packets := packets }, heard := c.heard ++ [packet], game := game }
        (h.onNotice hgame)

/-- Whatever the client does, the last board that it wrote is the one of its view. -/
theorem step_shown {l : ClientInput} (h : Displayed texts c.game) (hstep : c.step l = some c') :
    Displayed (texts ++ boards (c.writes l)) c'.game := by
  unfold step at hstep
  split at hstep
  · cases hstep
  cases l with
  | inputFinished =>
    cases hstep
    exact h.still rfl
  | line text =>
    cases text with
    | none =>
      cases hstep
      exact h.still rfl
    | some text =>
      cases hstep
      rw [command_game]
      exact (commandWrites_boards c.tcp text c.game).shown h
  | run os =>
    obtain ⟨⟨fault, tcp⟩, hrun, rfl⟩ := Option.map_eq_some_iff.mp hstep
    unfold writes
    dsimp only
    rw [hrun]
    cases fault with
    | some fault =>
      exact h.still rfl
    | none => exact @respond_shown tcp.packets texts { c with tcp := tcp } h

end ClientApp

end SelectServer
