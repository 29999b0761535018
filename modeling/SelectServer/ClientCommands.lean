import SelectServer.Lib.TextInput
import SelectServer.RoomIdText
import SelectServer.TcpClient
import SelectServer.CodecRoundTrip

/- `ProcessCommand` of `ChatClient.cpp`: what a line that the user types sends. Every
   branch that sends does so last and returns what `SendPacket` returns, so a line is
   read as a `Command` first. `Typed` is the language of the lines that send something,
   each with its request, and `commands_exact` says that `ProcessCommand` knows it. -/
namespace SelectServer
open Wire (Bytes)
open TextInput

/-! ## The source -/

/-- The bytes of a word of the source. -/
def ascii (word : List Char) : Bytes := word.map fun c => UInt8.ofNat c.toNat

def quitWord : Bytes := ascii ['q', 'u', 'i', 't']
def helpWord : Bytes := ascii ['h', 'e', 'l', 'p']
def boardWord : Bytes := ascii ['b', 'o', 'a', 'r', 'd']
def loginWord : Bytes := ascii ['l', 'o', 'g', 'i', 'n']
def echoWord : Bytes := ascii ['e', 'c', 'h', 'o']
def chatWord : Bytes := ascii ['c', 'h', 'a', 't']
def createWord : Bytes := ascii ['c', 'r', 'e', 'a', 't', 'e']
def roomsWord : Bytes := ascii ['r', 'o', 'o', 'm', 's']
def enterWord : Bytes := ascii ['e', 'n', 't', 'e', 'r']
def leaveWord : Bytes := ascii ['l', 'e', 'a', 'v', 'e']
def readyOnWords : Bytes := ascii ['r', 'e', 'a', 'd', 'y', ' ', 'o', 'n']
def readyOffWords : Bytes := ascii ['r', 'e', 'a', 'd', 'y', ' ', 'o', 'f', 'f']
def startWord : Bytes := ascii ['s', 't', 'a', 'r', 't']
def moveWord : Bytes := ascii ['m', 'o', 'v', 'e']
def resignWord : Bytes := ascii ['r', 'e', 's', 'i', 'g', 'n']

/-- The word alone, or with a space after it: `command == "w" || command.rfind("w ", 0) == 0`. -/
def isCommand (word command : Bytes) : Bool :=
  command = word || (word ++ ascii [' ']).isPrefixOf command

/-- What follows the word and the space, if anything. -/
def argument (word command : Bytes) : Bytes :=
  if command = word then [] else command.drop (word.length + 1)

/-- What a line is to the client. -/
inductive Command where
  /-- False is returned, and nothing is sent. -/
  | stop
  /-- True is returned, and nothing is sent. -/
  | done
  /-- What `SendPacket` returns is returned. -/
  | send (packetId : UInt16) (body : Bytes)
  deriving DecidableEq, Repr

/-- A request that is encoded and sent; false where `Encode` fails. -/
def Command.sendEncoded (packetId : UInt16) : Option Bytes → Command
  | none => .stop
  | some body => .send packetId body

/-- The least and the greatest `int`. -/
def intMin : Int := -2147483648
def intMax : Int := 2147483647

/-- The coordinates of a move; none where the usage is printed. -/
def moveArguments (command : Bytes) : Option (Int × Int) := do
  let (_, input) ← readWord command
  let (x, input) ← readInt intMin intMax input
  let (y, input) ← readInt intMin intMax input
  if (readWord input).isSome ∨ x < 0 ∨ x ≥ 15 ∨ y < 0 ∨ y ≥ 15 then none else some (x, y)

def readCommand (command : Bytes) (game : ClientGameView) : Command :=
  if command = quitWord then .stop
  else if command = helpWord then .done
  else if command = boardWord then .done
  else if isCommand loginWord command then
    .send loginReq (LoginRequest.encode ⟨argument loginWord command⟩)
  else if isCommand echoWord command then .send echoReq (argument echoWord command)
  else if isCommand chatWord command then
    .send chatReq (ChatRequest.encode ⟨argument chatWord command⟩)
  else if isCommand createWord command then
    match RoomCreateRequest.encode ⟨argument createWord command⟩ with
    | none => .done
    | some body => .send roomCreateReq body
  else if isCommand roomsWord command then
    let (parsed, afterRoomId) :=
      if command ≠ roomsWord then tryParseRoomId (command.drop 6) 0 else (true, 0)
    if !parsed then .done else .sendEncoded roomListReq (RoomListRequest.encode ⟨afterRoomId⟩)
  else if isCommand enterWord command then
    let (parsed, roomId) :=
      if command = enterWord then (false, 0) else tryParseRoomId (command.drop 6) 0
    if !parsed ∨ roomId = 0 then .done
    else .sendEncoded roomEnterReq (RoomEnterRequest.encode ⟨roomId⟩)
  else if command = leaveWord then .sendEncoded roomLeaveReq (RoomLeaveRequest.encode ⟨⟩)
  else if command = readyOnWords ∨ command = readyOffWords then
    .sendEncoded roomReadyReq (RoomReadyRequest.encode ⟨command = readyOnWords⟩)
  else if command = startWord then .sendEncoded roomStartReq (RoomStartRequest.encode ⟨⟩)
  else if isCommand moveWord command then
    if game.roomId = 0 ∨ !game.roomPlaying ∨ game.state ≠ .playing then .done
    else
      match moveArguments command with
      | none => .done
      | some (x, y) =>
        .sendEncoded gameMoveReq (GameMoveRequest.encode
          ⟨game.roomId, game.game, UInt8.ofNat x.toNat, UInt8.ofNat y.toNat⟩)
  else if command = resignWord then
    if !game.roomPlaying ∨ game.state ≠ .playing then .done
    else .sendEncoded gameResignReq (GameResignRequest.encode ⟨game.roomId, game.game⟩)
  else .done

def processCommand (client : TcpClient) (command : Bytes) (game : ClientGameView) :
    Bool × TcpClient :=
  match readCommand command game with
  | .stop => (false, client)
  | .done => (true, client)
  | .send packetId body => client.sendPacket packetId body

/-! ## Requests -/

/-- What the server reads a packet of a client as. -/
inductive Request where
  | login (request : LoginRequest)
  | echo (message : Bytes)
  | chat (request : ChatRequest)
  | roomCreate (request : RoomCreateRequest)
  | roomList (request : RoomListRequest)
  | roomEnter (request : RoomEnterRequest)
  | roomLeave (request : RoomLeaveRequest)
  | roomReady (request : RoomReadyRequest)
  | roomStart (request : RoomStartRequest)
  | gameMove (request : GameMoveRequest)
  | gameResign (request : GameResignRequest)
  deriving DecidableEq, Repr

namespace Request

def packetId : Request → UInt16
  | .login _ => loginReq
  | .echo _ => echoReq
  | .chat _ => chatReq
  | .roomCreate _ => roomCreateReq
  | .roomList _ => roomListReq
  | .roomEnter _ => roomEnterReq
  | .roomLeave _ => roomLeaveReq
  | .roomReady _ => roomReadyReq
  | .roomStart _ => roomStartReq
  | .gameMove _ => gameMoveReq
  | .gameResign _ => gameResignReq

def encode : Request → Option Bytes
  | .login request => some request.encode
  | .echo message => some message
  | .chat request => some request.encode
  | .roomCreate request => request.encode
  | .roomList request => request.encode
  | .roomEnter request => request.encode
  | .roomLeave request => request.encode
  | .roomReady request => request.encode
  | .roomStart request => request.encode
  | .gameMove request => request.encode
  | .gameResign request => request.encode

/-- The `Decode` that the handler of `packetId` begins with. -/
def decode (packetId : UInt16) (body : Bytes) : Option Request :=
  if packetId = loginReq then (LoginRequest.decode body).toOption.map .login
  else if packetId = echoReq then some (.echo body)
  else if packetId = chatReq then (ChatRequest.decode body).toOption.map .chat
  else if packetId = roomCreateReq then (RoomCreateRequest.decode body).toOption.map .roomCreate
  else if packetId = roomListReq then (RoomListRequest.decode body).toOption.map .roomList
  else if packetId = roomEnterReq then (RoomEnterRequest.decode body).toOption.map .roomEnter
  else if packetId = roomLeaveReq then (RoomLeaveRequest.decode body).toOption.map .roomLeave
  else if packetId = roomReadyReq then (RoomReadyRequest.decode body).toOption.map .roomReady
  else if packetId = roomStartReq then (RoomStartRequest.decode body).toOption.map .roomStart
  else if packetId = gameMoveReq then (GameMoveRequest.decode body).toOption.map .gameMove
  else if packetId = gameResignReq then (GameResignRequest.decode body).toOption.map .gameResign
  else none

end Request

/-- A request of numbers only is always encoded, and read back. -/
theorem Writer.finish_short {w : Writer} (h : w.body.length ≤ maxPacketSize - headerSize) :
    w.finish = some w.body :=
  if_neg (Nat.not_lt.mpr h)

theorem RoomCreateRequest.decode_encode {p : RoomCreateRequest} {b : Bytes}
    (h : p.encode = some b) : decode b = .ok p := by
  obtain ⟨title⟩ := p
  obtain ⟨writer, hwriter, hfinish⟩ := Option.bind_eq_some_iff.mp h
  obtain ⟨hlength, hbody⟩ := Writer.text8_eq hwriter
  have key : writer.body = UInt8.ofNat title.length :: title ++ [] := by
    rw [hbody, List.append_nil]
    rfl
  rw [Writer.finish_eq hfinish, key]
  exact Wire.Reads.run ((reads_text8 title [] hlength).bind (reads_done.bind (Wire.Reads.pure _ _)))

theorem RoomCreateRequest.encode_some {p : RoomCreateRequest} (h : p.title.length ≤ 255) :
    ∃ b, p.encode = some b := by
  have htext : ({} : Writer).text8 p.title =
      some ⟨(({} : Writer).u8 (UInt8.ofNat p.title.length)).body ++ p.title⟩ :=
    if_neg (Nat.not_lt.mpr h)
  have hfits : (⟨(({} : Writer).u8 (UInt8.ofNat p.title.length)).body ++ p.title⟩ :
      Writer).body.length ≤ maxPacketSize - headerSize := by
    rw [Writer.u8_body, List.length_append]
    show 1 + p.title.length ≤ 4092
    omega
  have hfinish := Writer.finish_short hfits
  unfold encode
  rw [htext]
  exact ⟨_, hfinish⟩

theorem RoomListRequest.encode_reads (p : RoomListRequest) :
    ∃ b, p.encode = some b ∧ decode b = .ok p := by
  refine ⟨_, Writer.finish_short (by simp [maxPacketSize, headerSize]), ?_⟩
  have key : (({} : Writer).u32 p.afterRoomId).body = u32Bytes p.afterRoomId ++ [] := by simp
  rw [key]
  exact Wire.Reads.run ((reads_u32 _ _).bind (reads_done.bind (Wire.Reads.pure _ _)))

theorem RoomEnterRequest.encode_reads (p : RoomEnterRequest) :
    ∃ b, p.encode = some b ∧ decode b = .ok p := by
  refine ⟨_, Writer.finish_short (by simp [maxPacketSize, headerSize]), ?_⟩
  have key : (({} : Writer).u32 p.roomId).body = u32Bytes p.roomId ++ [] := by simp
  rw [key]
  exact Wire.Reads.run ((reads_u32 _ _).bind (reads_done.bind (Wire.Reads.pure _ _)))

theorem RoomReadyRequest.encode_reads (p : RoomReadyRequest) :
    ∃ b, p.encode = some b ∧ decode b = .ok p := by
  obtain ⟨ready⟩ := p
  cases ready with
  | true => exact ⟨[1], rfl, rfl⟩
  | false => exact ⟨[0], rfl, rfl⟩

theorem GameMoveRequest.encode_reads (p : GameMoveRequest) :
    ∃ b, p.encode = some b ∧ decode b = .ok p := by
  obtain ⟨roomId, game, x, y⟩ := p
  have key : ((((({} : Writer).u32 roomId).u32 game).u8 x).u8 y).body =
      u32Bytes roomId ++ (u32Bytes game ++ [x, y]) := by simp
  refine ⟨_, Writer.finish_short (by simp [maxPacketSize, headerSize]), ?_⟩
  dsimp only
  rw [key]
  exact Wire.Reads.run ((reads_u32 _ _).bind ((reads_u32 _ _).bind ((reads_u8 _ _).bind
    ((reads_u8 _ _).bind (reads_done.bind (Wire.Reads.pure _ _))))))

theorem GameResignRequest.encode_reads (p : GameResignRequest) :
    ∃ b, p.encode = some b ∧ decode b = .ok p := by
  obtain ⟨roomId, game⟩ := p
  have key : ((({} : Writer).u32 roomId).u32 game).body =
      u32Bytes roomId ++ (u32Bytes game ++ []) := by simp
  refine ⟨_, Writer.finish_short (by simp [maxPacketSize, headerSize]), ?_⟩
  dsimp only
  rw [key]
  exact Wire.Reads.run ((reads_u32 _ _).bind ((reads_u32 _ _).bind (reads_done.bind
    (Wire.Reads.pure _ _))))

/-- What is encoded and fits a packet is read back as it was. -/
theorem Request.decode_encode {request : Request} {body : Bytes}
    (h : request.encode = some body) (hbody : body.length ≤ maxPacketSize - headerSize) :
    decode request.packetId body = some request := by
  have hread : ∀ {α : Type} {d : Except Wire.Fault α} {a : α} (f : α → Request),
      d = .ok a → d.toOption.map f = some (f a) := by
    intro α d a f hd
    rw [hd]
    rfl
  cases request with
  | login request =>
    obtain rfl := Option.some.inj h
    exact hread Request.login (if_neg (Nat.not_lt.mpr hbody))
  | echo message =>
    obtain rfl := Option.some.inj h
    rfl
  | chat request =>
    obtain rfl := Option.some.inj h
    exact hread Request.chat (if_neg (Nat.not_lt.mpr hbody))
  | roomCreate request =>
    exact hread Request.roomCreate (RoomCreateRequest.decode_encode h)
  | roomList request =>
    obtain ⟨b, e, hd⟩ := request.encode_reads
    obtain rfl := Option.some.inj (h.symm.trans e)
    exact hread Request.roomList hd
  | roomEnter request =>
    obtain ⟨b, e, hd⟩ := request.encode_reads
    obtain rfl := Option.some.inj (h.symm.trans e)
    exact hread Request.roomEnter hd
  | roomLeave request =>
    obtain rfl := Option.some.inj h
    rfl
  | roomReady request =>
    obtain ⟨b, e, hd⟩ := request.encode_reads
    obtain rfl := Option.some.inj (h.symm.trans e)
    exact hread Request.roomReady hd
  | roomStart request =>
    obtain rfl := Option.some.inj h
    rfl
  | gameMove request =>
    obtain ⟨b, e, hd⟩ := request.encode_reads
    obtain rfl := Option.some.inj (h.symm.trans e)
    exact hread Request.gameMove hd
  | gameResign request =>
    obtain ⟨b, e, hd⟩ := request.encode_reads
    obtain rfl := Option.some.inj (h.symm.trans e)
    exact hread Request.gameResign hd

/-! ## The lines that send -/

/-- `line` is the word alone, or the word, a space and `text`. -/
inductive Words (word : Bytes) : Bytes → Bytes → Prop
  | alone : Words word word []
  | spaced (text : Bytes) : Words word (word ++ 32 :: text) text

/-- Two numbers, and nothing after them. -/
structure Coordinates (text : Bytes) (x y : Int) : Prop where
  numbers : ∃ rest blank, TextInput.Reads text x rest ∧ TextInput.Reads rest y blank ∧
    ∀ ch ∈ blank, isSpace ch = true
  inside : 0 ≤ x ∧ x < 15 ∧ 0 ≤ y ∧ y < 15

/-- The lines that send something, each with the request it stands for. -/
inductive Typed (game : ClientGameView) : Bytes → Request → Prop
  | login {line nickname : Bytes} (h : Words loginWord line nickname) :
      Typed game line (.login ⟨nickname⟩)
  | echo {line message : Bytes} (h : Words echoWord line message) : Typed game line (.echo message)
  | chat {line message : Bytes} (h : Words chatWord line message) :
      Typed game line (.chat ⟨message⟩)
  | create {line title : Bytes} (h : Words createWord line title) (hlength : title.length ≤ 255) :
      Typed game line (.roomCreate ⟨title⟩)
  | rooms : Typed game roomsWord (.roomList ⟨0⟩)
  | roomsAfter {text : Bytes} {roomId : RoomId} (h : Denotes text roomId.toNat) :
      Typed game (roomsWord ++ 32 :: text) (.roomList ⟨roomId⟩)
  | enter {text : Bytes} {roomId : RoomId} (h : Denotes text roomId.toNat) (hne : roomId ≠ 0) :
      Typed game (enterWord ++ 32 :: text) (.roomEnter ⟨roomId⟩)
  | leave : Typed game leaveWord (.roomLeave ⟨⟩)
  | readyOn : Typed game readyOnWords (.roomReady ⟨true⟩)
  | readyOff : Typed game readyOffWords (.roomReady ⟨false⟩)
  | start : Typed game startWord (.roomStart ⟨⟩)
  | move {text : Bytes} {x y : Int} (hroom : game.roomId ≠ 0) (hplaying : game.roomPlaying = true)
      (hstate : game.state = .playing) (h : Coordinates (32 :: text) x y) :
      Typed game (moveWord ++ 32 :: text)
        (.gameMove ⟨game.roomId, game.game, UInt8.ofNat x.toNat, UInt8.ofNat y.toNat⟩)
  | resign (hplaying : game.roomPlaying = true) (hstate : game.state = .playing) :
      Typed game resignWord (.gameResign ⟨game.roomId, game.game⟩)

theorem isCommand_iff {word line : Bytes} :
    isCommand word line = true ↔ ∃ text, Words word line text := by
  unfold isCommand
  rw [Bool.or_eq_true, decide_eq_true_eq, List.isPrefixOf_iff_prefix]
  constructor
  · rintro (rfl | ⟨text, rfl⟩)
    · exact ⟨[], .alone⟩
    · rw [List.append_assoc]
      exact ⟨text, .spaced text⟩
  · rintro ⟨text, h⟩
    cases h with
    | alone => exact .inl rfl
    | spaced => exact .inr ⟨text, List.append_assoc ..⟩

theorem Words.argument {word line text : Bytes} (h : Words word line text) :
    argument word line = text := by
  unfold SelectServer.argument
  cases h with
  | alone => exact if_pos rfl
  | spaced =>
    have hne : ¬ word ++ 32 :: text = word := by
      intro hsame
      have hlength := congrArg List.length hsame
      rw [List.length_append, List.length_cons] at hlength
      omega
    rw [if_neg hne, List.drop_append]
    simp

/-- Every command begins with four letters of its own. -/
theorem Words.first {word line text : Bytes} (h : Words word line text) (hword : 4 ≤ word.length) :
    line.take 4 = word.take 4 := by
  cases h with
  | alone => rfl
  | spaced => exact List.take_append_of_le_length hword

section Peel
variable {line first : Bytes} {a b : Command}

theorem peel_word (h : line.take 4 = first) (word : Bytes) (hword : word.take 4 ≠ first) :
    (if line = word then a else b) = b := by
  refine if_neg fun hsame => hword ?_
  rw [← hsame]
  exact h

theorem peel_command (h : line.take 4 = first) (word : Bytes) (hlength : 4 ≤ word.length)
    (hword : word.take 4 ≠ first) : (if isCommand word line then a else b) = b := by
  refine if_neg fun hcommand => hword ?_
  obtain ⟨text, hfollows⟩ := isCommand_iff.mp hcommand
  rw [← hfollows.first hlength]
  exact h

end Peel

theorem moveArguments_iff {text : Bytes} {x y : Int} :
    moveArguments (moveWord ++ 32 :: text) = some (x, y) ↔ Coordinates (32 :: text) x y := by
  have hverb : readWord (moveWord ++ 32 :: text) = some (moveWord, 32 :: text) := by
    refine readWord_append (by decide +kernel) (by decide) ?_
    intro ch hch
    obtain rfl := Option.some.inj hch
    decide
  unfold moveArguments
  rw [hverb]
  constructor
  · intro h
    obtain ⟨⟨verb, input⟩, hinput, h⟩ := Option.bind_eq_some_iff.mp h
    obtain ⟨rfl, rfl⟩ := Prod.mk.inj (Option.some.inj hinput)
    obtain ⟨⟨x', rest⟩, hx, h⟩ := Option.bind_eq_some_iff.mp h
    obtain ⟨⟨y', blank⟩, hy, h⟩ := Option.bind_eq_some_iff.mp h
    dsimp only at hy h
    split at h
    · cases h
    rename_i hrest
    obtain ⟨hword, hbounds⟩ := not_or.mp hrest
    obtain ⟨rfl, rfl⟩ := Prod.mk.inj (Option.some.inj h)
    have hblank := readWord_none.mp (Option.not_isSome_iff_eq_none.mp hword)
    refine ⟨⟨rest, blank, (readInt_iff.mp hx).1, (readInt_iff.mp hy).1, hblank⟩, ?_⟩
    omega
  · intro h
    obtain ⟨rest, blank, hx, hy, hblank⟩ := h.numbers
    have hinside := h.inside
    have hx' : readInt intMin intMax (32 :: text) = some (x, rest) :=
      readInt_iff.mpr ⟨hx, by unfold intMin; omega, by unfold intMax; omega⟩
    have hy' : readInt intMin intMax rest = some (y, blank) :=
      readInt_iff.mpr ⟨hy, by unfold intMin; omega, by unfold intMax; omega⟩
    have hnone := readWord_none.mpr hblank
    simp only [Option.bind_eq_bind, Option.bind_some, hx', hy', hnone]
    rw [if_neg]
    rintro (h | h)
    · cases h
    · omega

theorem Command.sendEncoded_some {packetId packetId' : UInt16} {e : Option Bytes} {body : Bytes}
    (h : Command.sendEncoded packetId e = .send packetId' body) : packetId = packetId' ∧ e = some body := by
  cases e with
  | none => cases h
  | some b =>
    cases h
    exact ⟨rfl, rfl⟩

theorem branch {c : Prop} [Decidable c] {a b command : Command}
    (h : (if c then a else b) = command) : (c ∧ a = command) ∨ (¬ c ∧ b = command) := by
  by_cases hc : c
  · exact .inl ⟨hc, (if_pos hc).symm.trans h⟩
  · exact .inr ⟨hc, (if_neg hc).symm.trans h⟩

theorem parsed_roomId {text : Bytes} {roomId : RoomId} {ok : Bool}
    (hparse : tryParseRoomId text 0 = (ok, roomId)) (hok : ¬ (!ok) = true) :
    Denotes text roomId.toNat := by
  have htrue : ok = true := by simpa using hok
  rw [htrue] at hparse
  exact tryParseRoomId_true_iff.mp hparse

/-- What a line sends is the request that it stands for. -/
theorem readCommand_typed {line body : Bytes} {game : ClientGameView} {packetId : UInt16}
    (h : readCommand line game = .send packetId body) :
    ∃ request, Typed game line request ∧ request.packetId = packetId ∧ request.encode = some body := by
  unfold readCommand at h
  rcases branch h with ⟨-, h⟩ | ⟨-, h⟩
  · cases h
  rcases branch h with ⟨-, h⟩ | ⟨-, h⟩
  · cases h
  rcases branch h with ⟨-, h⟩ | ⟨-, h⟩
  · cases h
  rcases branch h with ⟨hline, h⟩ | ⟨-, h⟩
  · obtain ⟨text, hline⟩ := isCommand_iff.mp hline
    rw [hline.argument] at h
    cases h
    exact ⟨_, .login hline, rfl, rfl⟩
  rcases branch h with ⟨hline, h⟩ | ⟨-, h⟩
  · obtain ⟨text, hline⟩ := isCommand_iff.mp hline
    rw [hline.argument] at h
    cases h
    exact ⟨_, .echo hline, rfl, rfl⟩
  rcases branch h with ⟨hline, h⟩ | ⟨-, h⟩
  · obtain ⟨text, hline⟩ := isCommand_iff.mp hline
    rw [hline.argument] at h
    cases h
    exact ⟨_, .chat hline, rfl, rfl⟩
  rcases branch h with ⟨hline, h⟩ | ⟨-, h⟩
  · obtain ⟨text, hline⟩ := isCommand_iff.mp hline
    rw [hline.argument] at h
    cases hbody : RoomCreateRequest.encode ⟨text⟩ with
    | none =>
      rw [hbody] at h
      cases h
    | some body' =>
      rw [hbody] at h
      cases h
      obtain ⟨writer, hwriter, -⟩ := Option.bind_eq_some_iff.mp hbody
      exact ⟨_, .create hline (Writer.text8_eq hwriter).1, rfl, hbody⟩
  rcases branch h with ⟨hline, h⟩ | ⟨-, h⟩
  · obtain ⟨text, hline⟩ := isCommand_iff.mp hline
    cases hline with
    | alone =>
      rw [if_neg (not_not.mpr rfl)] at h
      rcases branch h with ⟨hfalse, -⟩ | ⟨-, h⟩
      · cases hfalse
      obtain ⟨rfl, hbody⟩ := Command.sendEncoded_some h
      exact ⟨_, .rooms, rfl, hbody⟩
    | spaced =>
      have hne : roomsWord ++ 32 :: text ≠ roomsWord := by
        intro hsame
        cases hsame
      have hdrop : (roomsWord ++ 32 :: text).drop 6 = text := rfl
      rw [if_pos hne, hdrop] at h
      generalize hparse : tryParseRoomId text 0 = parsed at h
      obtain ⟨ok, roomId⟩ := parsed
      rcases branch h with ⟨-, h⟩ | ⟨hok, h⟩
      · cases h
      obtain ⟨rfl, hbody⟩ := Command.sendEncoded_some h
      exact ⟨_, .roomsAfter (parsed_roomId hparse hok), rfl, hbody⟩
  rcases branch h with ⟨hline, h⟩ | ⟨-, h⟩
  · obtain ⟨text, hline⟩ := isCommand_iff.mp hline
    cases hline with
    | alone => cases h
    | spaced =>
      have hne : ¬ enterWord ++ 32 :: text = enterWord := by
        intro hsame
        cases hsame
      have hdrop : (enterWord ++ 32 :: text).drop 6 = text := rfl
      rw [if_neg hne, hdrop] at h
      generalize hparse : tryParseRoomId text 0 = parsed at h
      obtain ⟨ok, roomId⟩ := parsed
      rcases branch h with ⟨-, h⟩ | ⟨hok, h⟩
      · cases h
      obtain ⟨hok, hid⟩ := not_or.mp hok
      obtain ⟨rfl, hbody⟩ := Command.sendEncoded_some h
      exact ⟨_, .enter (parsed_roomId hparse hok) hid, rfl, hbody⟩
  rcases branch h with ⟨hline, hsent⟩ | ⟨-, h⟩
  · obtain ⟨rfl, hbody⟩ := Command.sendEncoded_some hsent
    rw [hline]
    exact ⟨_, .leave, rfl, hbody⟩
  rcases branch h with ⟨hline, hsent⟩ | ⟨-, h⟩
  · obtain ⟨rfl, hbody⟩ := Command.sendEncoded_some hsent
    rcases hline with hon | hoff
    · rw [decide_eq_true hon] at hbody
      rw [hon]
      exact ⟨_, .readyOn, rfl, hbody⟩
    · rw [hoff] at hbody ⊢
      exact ⟨_, .readyOff, rfl, hbody⟩
  rcases branch h with ⟨hline, hsent⟩ | ⟨-, h⟩
  · obtain ⟨rfl, hbody⟩ := Command.sendEncoded_some hsent
    rw [hline]
    exact ⟨_, .start, rfl, hbody⟩
  rcases branch h with ⟨hline, h⟩ | ⟨-, h⟩
  · obtain ⟨text, hline⟩ := isCommand_iff.mp hline
    rcases branch h with ⟨-, h⟩ | ⟨hgame, h⟩
    · cases h
    have hgame : game.roomId ≠ 0 ∧ game.roomPlaying = true ∧ game.state = .playing := by
      simpa using hgame
    obtain ⟨hroom, hplaying, hstate⟩ := hgame
    cases hline with
    | alone => cases h
    | spaced =>
      cases hmove : moveArguments (moveWord ++ 32 :: text) with
      | none =>
        rw [hmove] at h
        cases h
      | some xy =>
        obtain ⟨x, y⟩ := xy
        rw [hmove] at h
        obtain ⟨rfl, hbody⟩ := Command.sendEncoded_some h
        exact ⟨_, .move hroom hplaying hstate (moveArguments_iff.mp hmove), rfl, hbody⟩
  rcases branch h with ⟨hline, h⟩ | ⟨-, h⟩
  · rcases branch h with ⟨-, h⟩ | ⟨hgame, h⟩
    · cases h
    have hgame : game.roomPlaying = true ∧ game.state = .playing := by simpa using hgame
    obtain ⟨rfl, hbody⟩ := Command.sendEncoded_some h
    rw [hline]
    exact ⟨_, .resign hgame.1 hgame.2, rfl, hbody⟩
  · cases h

/-- A request that stands on a line is encoded. -/
theorem Typed.encodes {game : ClientGameView} {line : Bytes} {request : Request}
    (h : Typed game line request) : ∃ body, request.encode = some body := by
  cases h with
  | login => exact ⟨_, rfl⟩
  | echo => exact ⟨_, rfl⟩
  | chat => exact ⟨_, rfl⟩
  | create _ hlength => exact RoomCreateRequest.encode_some hlength
  | rooms =>
    obtain ⟨b, e, -⟩ := RoomListRequest.encode_reads ⟨0⟩
    exact ⟨b, e⟩
  | roomsAfter =>
    obtain ⟨b, e, -⟩ := RoomListRequest.encode_reads _
    exact ⟨b, e⟩
  | enter =>
    obtain ⟨b, e, -⟩ := RoomEnterRequest.encode_reads _
    exact ⟨b, e⟩
  | leave => exact ⟨_, rfl⟩
  | readyOn => exact ⟨_, rfl⟩
  | readyOff => exact ⟨_, rfl⟩
  | start => exact ⟨_, rfl⟩
  | move =>
    obtain ⟨b, e, -⟩ := GameMoveRequest.encode_reads _
    exact ⟨b, e⟩
  | resign =>
    obtain ⟨b, e, -⟩ := GameResignRequest.encode_reads _
    exact ⟨b, e⟩

/-- A line that stands for a request sends it. -/
theorem Typed.readCommand {game : ClientGameView} {line body : Bytes} {request : Request}
    (h : Typed game line request) (hbody : request.encode = some body) :
    SelectServer.readCommand line game = .send request.packetId body := by
  have hsent : ∀ packetId : UInt16, Command.sendEncoded packetId request.encode = .send packetId body := by
    intro packetId
    rw [hbody]
    rfl
  unfold SelectServer.readCommand
  cases h with
  | @login _ nickname hline =>
    have hfirst := hline.first (by decide)
    rw [peel_word hfirst quitWord (by decide), peel_word hfirst helpWord (by decide),
      peel_word hfirst boardWord (by decide), if_pos (isCommand_iff.mpr ⟨_, hline⟩), hline.argument]
    cases hbody
    rfl
  | @echo _ message hline =>
    have hfirst := hline.first (by decide)
    rw [peel_word hfirst quitWord (by decide), peel_word hfirst helpWord (by decide),
      peel_word hfirst boardWord (by decide), peel_command hfirst loginWord (by decide) (by decide),
      if_pos (isCommand_iff.mpr ⟨_, hline⟩), hline.argument]
    cases hbody
    rfl
  | @chat _ message hline =>
    have hfirst := hline.first (by decide)
    rw [peel_word hfirst quitWord (by decide), peel_word hfirst helpWord (by decide),
      peel_word hfirst boardWord (by decide), peel_command hfirst loginWord (by decide) (by decide),
      peel_command hfirst echoWord (by decide) (by decide),
      if_pos (isCommand_iff.mpr ⟨_, hline⟩), hline.argument]
    cases hbody
    rfl
  | @create _ title hline =>
    have hfirst := hline.first (by decide)
    have hbody : RoomCreateRequest.encode ⟨title⟩ = some body := hbody
    rw [peel_word hfirst quitWord (by decide), peel_word hfirst helpWord (by decide),
      peel_word hfirst boardWord (by decide), peel_command hfirst loginWord (by decide) (by decide),
      peel_command hfirst echoWord (by decide) (by decide),
      peel_command hfirst chatWord (by decide) (by decide),
      if_pos (isCommand_iff.mpr ⟨_, hline⟩), hline.argument, hbody]
    rfl
  | rooms => exact hsent roomListReq
  | @roomsAfter text roomId hdenotes =>
    have hfirst : (roomsWord ++ 32 :: text).take 4 = roomsWord.take 4 := rfl
    have hne : roomsWord ++ 32 :: text ≠ roomsWord := by
      intro hsame
      cases hsame
    have hdrop : (roomsWord ++ 32 :: text).drop 6 = text := rfl
    rw [peel_word hfirst quitWord (by decide), peel_word hfirst helpWord (by decide),
      peel_word hfirst boardWord (by decide), peel_command hfirst loginWord (by decide) (by decide),
      peel_command hfirst echoWord (by decide) (by decide),
      peel_command hfirst chatWord (by decide) (by decide),
      peel_command hfirst createWord (by decide) (by decide),
      if_pos (isCommand_iff.mpr ⟨_, .spaced text⟩), if_pos hne, hdrop,
      tryParseRoomId_true_iff.mpr hdenotes]
    exact hsent roomListReq
  | @enter text roomId hdenotes hid =>
    have hfirst : (enterWord ++ 32 :: text).take 4 = enterWord.take 4 := rfl
    have hne : ¬ enterWord ++ 32 :: text = enterWord := by
      intro hsame
      cases hsame
    have hdrop : (enterWord ++ 32 :: text).drop 6 = text := rfl
    rw [peel_word hfirst quitWord (by decide), peel_word hfirst helpWord (by decide),
      peel_word hfirst boardWord (by decide), peel_command hfirst loginWord (by decide) (by decide),
      peel_command hfirst echoWord (by decide) (by decide),
      peel_command hfirst chatWord (by decide) (by decide),
      peel_command hfirst createWord (by decide) (by decide),
      peel_command hfirst roomsWord (by decide) (by decide),
      if_pos (isCommand_iff.mpr ⟨_, .spaced text⟩), if_neg hne, hdrop,
      tryParseRoomId_true_iff.mpr hdenotes]
    dsimp only
    rw [if_neg (by simp [hid])]
    exact hsent roomEnterReq
  | leave => exact hsent roomLeaveReq
  | readyOn => exact hsent roomReadyReq
  | readyOff => exact hsent roomReadyReq
  | start => exact hsent roomStartReq
  | @move text x y hroom hplaying hstate hcoordinates =>
    have hfirst : (moveWord ++ 32 :: text).take 4 = moveWord.take 4 := rfl
    have hready : ¬ (moveWord ++ 32 :: text = readyOnWords ∨ moveWord ++ 32 :: text = readyOffWords) := by
      rintro (hsame | hsame)
      · cases hsame
      · cases hsame
    rw [peel_word hfirst quitWord (by decide), peel_word hfirst helpWord (by decide),
      peel_word hfirst boardWord (by decide), peel_command hfirst loginWord (by decide) (by decide),
      peel_command hfirst echoWord (by decide) (by decide),
      peel_command hfirst chatWord (by decide) (by decide),
      peel_command hfirst createWord (by decide) (by decide),
      peel_command hfirst roomsWord (by decide) (by decide),
      peel_command hfirst enterWord (by decide) (by decide),
      peel_word hfirst leaveWord (by decide), if_neg hready, peel_word hfirst startWord (by decide),
      if_pos (isCommand_iff.mpr ⟨_, .spaced text⟩), if_neg (by simp [hroom, hplaying, hstate]),
      moveArguments_iff.mpr hcoordinates]
    exact hsent gameMoveReq
  | resign hplaying hstate =>
    have hguard : ¬ ((!game.roomPlaying) = true ∨ game.state ≠ .playing) := by
      simp [hplaying, hstate]
    show (if (!game.roomPlaying) = true ∨ game.state ≠ .playing then Command.done else _) = _
    rw [if_neg hguard]
    exact hsent gameResignReq

theorem Command.not_stopped {packetId : UInt16} {e : Option Bytes} {body : Bytes}
    (h : e = some body) : Command.sendEncoded packetId e ≠ .stop := by
  rw [h]
  intro hstop
  cases hstop

/-- Only `quit` makes it return false with nothing to send: no `Encode` fails for a request that is
sent. -/
theorem readCommand_stop_iff {line : Bytes} {game : ClientGameView} :
    readCommand line game = .stop ↔ line = quitWord := by
  constructor
  · intro h
    unfold readCommand at h
    rcases branch h with ⟨hline, -⟩ | ⟨-, h⟩
    · exact hline
    rcases branch h with ⟨-, h⟩ | ⟨-, h⟩
    · cases h
    rcases branch h with ⟨-, h⟩ | ⟨-, h⟩
    · cases h
    rcases branch h with ⟨-, h⟩ | ⟨-, h⟩
    · cases h
    rcases branch h with ⟨-, h⟩ | ⟨-, h⟩
    · cases h
    rcases branch h with ⟨-, h⟩ | ⟨-, h⟩
    · cases h
    rcases branch h with ⟨-, h⟩ | ⟨-, h⟩
    · cases hbody : RoomCreateRequest.encode ⟨argument createWord line⟩ with
      | none =>
        rw [hbody] at h
        cases h
      | some body =>
        rw [hbody] at h
        cases h
    rcases branch h with ⟨-, h⟩ | ⟨-, h⟩
    · generalize (if line ≠ roomsWord then tryParseRoomId (line.drop 6) 0 else (true, 0)) = parsed at h
      rcases branch h with ⟨-, h⟩ | ⟨-, h⟩
      · cases h
      · obtain ⟨body, e, -⟩ := RoomListRequest.encode_reads ⟨parsed.2⟩
        exact absurd h (Command.not_stopped e)
    rcases branch h with ⟨-, h⟩ | ⟨-, h⟩
    · generalize (if line = enterWord then (false, 0) else tryParseRoomId (line.drop 6) 0) = parsed at h
      rcases branch h with ⟨-, h⟩ | ⟨-, h⟩
      · cases h
      · obtain ⟨body, e, -⟩ := RoomEnterRequest.encode_reads ⟨parsed.2⟩
        exact absurd h (Command.not_stopped e)
    rcases branch h with ⟨-, h⟩ | ⟨-, h⟩
    · cases h
    rcases branch h with ⟨-, h⟩ | ⟨-, h⟩
    · obtain ⟨body, e, -⟩ := RoomReadyRequest.encode_reads ⟨line = readyOnWords⟩
      exact absurd h (Command.not_stopped e)
    rcases branch h with ⟨-, h⟩ | ⟨-, h⟩
    · cases h
    rcases branch h with ⟨-, h⟩ | ⟨-, h⟩
    · rcases branch h with ⟨-, h⟩ | ⟨-, h⟩
      · cases h
      cases hmove : moveArguments line with
      | none =>
        rw [hmove] at h
        cases h
      | some xy =>
        rw [hmove] at h
        obtain ⟨body, e, -⟩ := GameMoveRequest.encode_reads
          ⟨game.roomId, game.game, UInt8.ofNat xy.1.toNat, UInt8.ofNat xy.2.toNat⟩
        exact absurd h (Command.not_stopped e)
    rcases branch h with ⟨-, h⟩ | ⟨-, h⟩
    · rcases branch h with ⟨-, h⟩ | ⟨-, h⟩
      · cases h
      · obtain ⟨body, e, -⟩ := GameResignRequest.encode_reads ⟨game.roomId, game.game⟩
        exact absurd h (Command.not_stopped e)
    · cases h
  · rintro rfl
    rfl

/-- `ProcessCommand` on every line: it sends the request that the line stands for, if any, in a packet
that the server reads as this request, and returns what `SendPacket` does; otherwise nothing is sent,
and only `quit` returns false. -/
theorem commands_exact (client : TcpClient) (line : Bytes) (game : ClientGameView) :
    (∀ request, Typed game line request → ∃ body, request.encode = some body ∧
      processCommand client line game = client.sendPacket request.packetId body ∧
        (body.length ≤ maxPacketSize - headerSize →
          Request.decode request.packetId body = some request)) ∧
    ((¬ ∃ request, Typed game line request) →
      processCommand client line game = (decide (line ≠ quitWord), client)) := by
  refine ⟨fun request h => ?_, fun hnone => ?_⟩
  · obtain ⟨body, hbody⟩ := h.encodes
    refine ⟨body, hbody, ?_, Request.decode_encode hbody⟩
    unfold processCommand
    rw [h.readCommand hbody]
  · unfold processCommand
    cases hread : readCommand line game with
    | stop =>
      rw [readCommand_stop_iff.mp hread, decide_eq_false (not_not.mpr rfl)]
    | done =>
      have hne : line ≠ quitWord := by
        rintro rfl
        cases hread
      rw [decide_eq_true hne]
    | send packetId body =>
      obtain ⟨request, htyped, -⟩ := readCommand_typed hread
      exact absurd ⟨request, htyped⟩ hnone

end SelectServer
