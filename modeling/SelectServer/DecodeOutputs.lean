import SelectServer.Lib.OutParam
import SelectServer.Codec

/- The `Decode` overloads with their output parameter and with a position that
   stays where a read has failed. `Codec.lean` has their values; here they are
   followed statement by statement, with the place where `out` is written, and
   each is shown to be the other with an output (`DecodeOverload.decodes`). -/
namespace SelectServer
open Wire

/-! ## `RoomCodecDetail::Reader` -/

namespace OutReader
open Filling
variable {α : Type}

def u8 : Filling α UInt8 := do
  require ((← position) < (← size))
  next

def u32 : Filling α UInt32 := do
  require (4 ≤ (← remaining))
  let bytes ← take 4
  return bytes.foldl (fun value b => (value <<< 8) ||| b.toUInt32) 0

def text8 : Filling α Bytes := do
  let size ← u8
  require (size.toNat ≤ (← remaining))
  take size.toNat

def done : Filling α Unit := do
  require ((← position) == (← size))

/-- `static_cast` to an enumeration, as `Reader.cast`. -/
def cast {β : Type} (value : Option β) : Filling α β := lift (Reader.cast value)

def readResult : Filling α RoomResult := do
  let value ← u8
  require (value ≤ RoomResult.gameIdExhausted.code)
  cast (RoomResult.ofCode? value)

end OutReader

/-! ## The overloads -/

section
open Filling OutReader

def LoginRequest.decodeInto : Filling LoginRequest Unit := do
  require ((← size) ≤ maxPacketSize - headerSize)
  let nickname ← take (← size)
  setOut fun out => { out with nickname := nickname }

def LoginResponse.decodeInto : Filling LoginResponse Unit := do
  require ((← size) == 1)
  let value ← next
  let result ← cast (LoginResult.ofCode? value)
  setOut fun out => { out with result := result }

def ChatRequest.decodeInto : Filling ChatRequest Unit := do
  require ((← size) ≤ maxPacketSize - headerSize)
  let message ← take (← size)
  setOut fun out => { out with message := message }

def ChatResponse.decodeInto : Filling ChatResponse Unit := do
  require ((← size) == 1)
  let value ← next
  let result ← cast (ChatResult.ofCode? value)
  setOut fun out => { out with result := result }

def ChatNotification.decodeInto : Filling ChatNotification Unit := do
  require (3 ≤ (← size) && (← size) ≤ maxPacketSize - headerSize)
  let nicknameSize ← next
  require (nicknameSize != 0 && nicknameSize.toNat ≤ maxNicknameBytes)
  require (nicknameSize.toNat + 2 ≤ (← remaining))
  let nickname ← take nicknameSize.toNat
  let messageSize := readUInt16 (← next) (← next)
  require (messageSize != 0 && messageSize.toNat ≤ maxChatMessageBytes)
  require ((← remaining) == messageSize.toNat)
  let message ← take messageSize.toNat
  setOut fun _ => ⟨nickname, message⟩

def RoomCreateRequest.decodeInto : Filling RoomCreateRequest Unit := do
  let title ← text8
  done
  setOut fun _ => ⟨title⟩

def RoomActionResponse.decodeInto : Filling RoomActionResponse Unit := do
  let result ← readResult
  let roomId ← u32
  done
  let success := result == .success
  require !((success && roomId == 0) || (!success && roomId != 0))
  setOut fun _ => ⟨result, roomId⟩

def RoomListRequest.decodeInto : Filling RoomListRequest Unit := do
  let afterRoomId ← u32
  done
  setOut fun _ => ⟨afterRoomId⟩

def RoomEnterRequest.decodeInto : Filling RoomEnterRequest Unit := do
  let roomId ← u32
  done
  setOut fun _ => ⟨roomId⟩

def RoomListResponse.readRooms : Nat → RoomId → Filling RoomListResponse (List RoomInfo)
  | 0, _ => return []
  | count + 1, previousId => do
    let roomId ← u32
    let userCount ← u8
    let capacity ← u8
    let title ← text8
    let room : RoomInfo := ⟨roomId, userCount, capacity, title⟩
    require !(room.rejected previousId)
    return room :: (← readRooms count roomId)

def RoomListResponse.decodeInto : Filling RoomListResponse Unit := do
  let result ← readResult
  let hasMore ← u8
  let count ← u8
  require (hasMore ≤ 1 && count.toNat ≤ roomListPageSize)
  require !(result != .success && (count != 0 || hasMore != 0))
  require !(hasMore != 0 && count == 0)
  let rooms ← readRooms count.toNat 0
  done
  setOut fun _ => ⟨result, hasMore != 0, rooms⟩

def RoomLeaveRequest.decodeInto : Filling RoomLeaveRequest Unit := do
  require ((← size) == 0)

def RoomMemberNotification.decodeInto : Filling RoomMemberNotification Unit := do
  let roomId ← u32
  let change ← u8
  let nickname ← text8
  done
  require !(roomId == 0 || nickname.isEmpty || nickname.length > maxNicknameBytes)
  let change ← cast (RoomMemberChange.ofCode? change)
  setOut fun _ => ⟨roomId, change, nickname⟩

def RoomReadyRequest.decodeInto : Filling RoomReadyRequest Unit := do
  let ready ← u8
  require (ready ≤ 1)
  done
  setOut fun out => { out with ready := ready != 0 }

def RoomStartRequest.decodeInto : Filling RoomStartRequest Unit := do
  require ((← size) == 0)

def RoomStateNotification.readPlayers :
    Nat → Filling RoomStateNotification (List RoomPlayerInfo)
  | 0 => return []
  | count + 1 => do
    let nickname ← text8
    let ready ← u8
    require (ready ≤ 1)
    return ⟨nickname, ready != 0⟩ :: (← readPlayers count)

def RoomStateNotification.decodeInto : Filling RoomStateNotification Unit := do
  let roomId ← u32
  let game ← u32
  let phase ← u8
  let capacity ← u8
  let hostNickname ← text8
  let count ← u8
  require !(count == 0 || count.toNat > roomPlayerCount)
  let players ← readPlayers count.toNat
  done
  let phase ← cast (RoomPhase.ofCode? phase)
  let decoded : RoomStateNotification := ⟨roomId, game, phase, capacity, hostNickname, players⟩
  require (isValidRoomState decoded)
  setOut fun _ => decoded

def GameMoveRequest.decodeInto : Filling GameMoveRequest Unit := do
  let roomId ← u32
  let game ← u32
  let x ← u8
  let y ← u8
  done
  setOut fun _ => ⟨roomId, game, x, y⟩

def GameMoveResponse.decodeInto : Filling GameMoveResponse Unit := do
  let result ← u8
  require (result ≤ GameMoveResult.staleGame.code)
  let game ← u32
  done
  let result ← cast (GameMoveResult.ofCode? result)
  setOut fun _ => ⟨result, game⟩

def GameMoveNotification.decodeInto : Filling GameMoveNotification Unit := do
  let roomId ← u32
  let game ← u32
  let x ← u8
  let y ← u8
  let placed ← u8
  let next ← u8
  let state ← u8
  let moveCount ← u32
  done
  let placed ← cast (GameStone.ofCode? placed)
  let next ← cast (GameStone.ofCode? next)
  let state ← cast (GameState.ofCode? state)
  let decoded : GameMoveNotification := ⟨roomId, game, x, y, placed, next, state, moveCount⟩
  require (isValidGameMove decoded)
  setOut fun _ => decoded

def GameResignRequest.decodeInto : Filling GameResignRequest Unit := do
  let roomId ← u32
  let game ← u32
  done
  setOut fun _ => ⟨roomId, game⟩

def GameEndNotification.decodeInto : Filling GameEndNotification Unit := do
  let roomId ← u32
  let game ← u32
  let state ← u8
  let reason ← u8
  let moveCount ← u32
  done
  let state ← cast (GameState.ofCode? state)
  let reason ← cast (GameEndReason.ofCode? reason)
  let decoded : GameEndNotification := ⟨roomId, game, state, reason, moveCount⟩
  require (isValidGameEnd decoded)
  setOut fun _ => decoded

end

/-! ## The reads stay inside the body -/

section
variable {α : Type}

theorem inside_u8 : Inside (OutReader.u8 : Filling α UInt8) Reader.u8 := by
  refine Tracks.position.bind fun pos => Tracks.size.bind fun size => ?_
  refine (Tracks.require _ fun cur h => h.2.2).bind fun _ => ?_
  refine (Tracks.next 0).weaken (fun cur h => ?_) fun _ _ h => h
  obtain ⟨hlt, rfl, rfl, -⟩ := h
  have hlt : cur.pos < cur.body.length := of_decide_eq_true hlt
  unfold Cursor.Ahead
  omega

theorem inside_u32 : Inside (OutReader.u32 : Filling α UInt32) Reader.u32 := by
  refine (Tracks.remaining fun cur h => h).bind fun left => ?_
  refine (Tracks.require _ fun cur h => h.2).bind fun _ => ?_
  have htake : Tracks (fun cur => decide (4 ≤ left) = true ∧
      cur.pos + left = cur.body.length ∧ cur.Ahead 0) (Filling.take 4 : Filling α Bytes)
      (Decoder.take 4) fun _ cur => cur.Ahead 0 := by
    refine (Tracks.take 4 0).weaken (fun cur h => ?_) fun _ _ h => h
    exact .of_left h.2.1 (of_decide_eq_true h.1)
  exact htake.bind fun bytes => .pure _ fun _ h => h

/-- `Text8` with the size byte read, which is where it may stop half-way. -/
theorem inside_text8 : Inside (OutReader.text8 : Filling α Bytes) Reader.text8 := by
  refine inside_u8.bind fun size => ?_
  refine (Tracks.remaining fun cur h => h).bind fun left => ?_
  refine (Tracks.require _ fun cur h => h.2).bind fun _ => ?_
  refine (Tracks.take size.toNat 0).weaken (fun cur h => ?_) fun _ _ h => h
  exact .of_left h.2.1 (of_decide_eq_true h.1)

theorem inside_done : Inside (OutReader.done : Filling α Unit) Reader.done := by
  refine Tracks.position.bind fun pos => Tracks.size.bind fun size => ?_
  exact (Tracks.require _ fun cur h => h.2.2).weaken (fun _ h => h) fun _ _ h => h.2.2.2

theorem inside_cast {β : Type} (value : Option β) :
    Inside (OutReader.cast value : Filling α β) (Reader.cast value) := by
  intro cur out hcur
  cases value with
  | some b => exact .inl ⟨b, cur, rfl, rfl, rfl, hcur⟩
  | none => exact .inr ⟨cur, rfl, rfl, rfl, hcur⟩

theorem inside_readResult : Inside (OutReader.readResult : Filling α RoomResult)
    Reader.readResult :=
  inside_u8.bind fun _ => (Inside.require _).bind fun _ => inside_cast _

end

theorem inside_readRooms (count : Nat) (previousId : RoomId) :
    Inside (RoomListResponse.readRooms count previousId)
      (RoomListResponse.decodeRooms count previousId) := by
  induction count generalizing previousId with
  | zero => exact .pure []
  | succ count ih =>
    refine inside_u32.bind fun roomId => inside_u8.bind fun userCount => ?_
    refine inside_u8.bind fun capacity => inside_text8.bind fun title => ?_
    exact (Inside.require _).bind fun _ => (ih roomId).bind fun rooms => .pure _

theorem inside_readPlayers (count : Nat) :
    Inside (RoomStateNotification.readPlayers count)
      (RoomStateNotification.decodePlayers count) := by
  induction count with
  | zero => exact .pure []
  | succ count ih =>
    refine inside_text8.bind fun nickname => inside_u8.bind fun ready => ?_
    exact (Inside.require _).bind fun _ => ih.bind fun players => .pure _

/-! ## Each overload -/

section
variable {α β : Type}
open Filling OutReader

/-- A request that is one text, with the check of its size. -/
theorem decodes_text (limit : Nat) (make : Bytes → α) (write : Bytes → α → α)
    (hwrite : ∀ text out, write text out = make text) :
    Decodes (do
        require ((← size) ≤ limit)
        let text ← take (← size)
        setOut (write text))
      fun body => if body.length > limit then .error .reject else .ok (make body) := by
  have hfill : Fills (fun cur => cur.pos = 0)
      (do
        require ((← size) ≤ limit)
        let text ← take (← size)
        setOut (write text))
      (do
        Decoder.require ((← Decoder.size) ≤ limit)
        let text ← Decoder.take (← Decoder.size)
        return make text) := by
    refine Tracks.size.fill fun n => (Tracks.require _ fun cur h => ?_).fill fun _ => ?_
    · exact Cursor.ahead_start h.2
    refine Tracks.size.fill fun size => ?_
    have htake : Tracks (fun cur => size = cur.body.length ∧ decide (n ≤ limit) = true ∧
        n = cur.body.length ∧ cur.pos = 0) (take size : Filling α Bytes) (Decoder.take size)
        fun _ cur => cur.Ahead 0 := by
      refine (Tracks.take size 0).weaken (fun cur h => ?_) fun _ _ h => h
      obtain ⟨hsize, -, -, hpos⟩ := h
      unfold Cursor.Ahead
      omega
    exact htake.fill fun text => .written (hwrite text)
  have hrun : ∀ body, Decoder.run (do
      Decoder.require ((← Decoder.size) ≤ limit)
      let text ← Decoder.take (← Decoder.size)
      return make text) body =
        if body.length > limit then .error .reject else .ok (make body) := by
    intro body
    rw [Decoder.run_size]
    by_cases h : body.length ≤ limit
    · have htake := Reads.take body []
      rw [List.append_nil] at htake
      rw [if_neg (by omega), decide_eq_true h]
      show Decoder.run (Decoder.take body.length >>= fun text => Pure.pure (make text)) body = _
      exact Reads.run (htake.bind (Reads.pure (make body) []))
    · rw [if_pos (by omega), decide_eq_false h]
      rfl
  exact hfill.decodes_as (fun _ h => h) hrun

/-- A response that is one code. -/
theorem decodes_code (code : UInt8 → Option β) (make : β → α) (write : β → α → α)
    (hwrite : ∀ result out, write result out = make result) :
    Decodes (do
        require ((← size) == 1)
        let value ← next
        let result ← cast (code value)
        setOut (write result))
      (Decoder.run do
        Decoder.require ((← Decoder.size) == 1)
        let value ← Decoder.next
        return make (← Reader.cast (code value))) := by
  refine @Fills.decodes α (fun cur => cur.pos = 0) _ _ ?_ fun _ h => h
  refine Tracks.size.fill fun size => (Tracks.require _ fun cur h => ?_).fill fun _ => ?_
  · exact Cursor.ahead_start h.2
  have hnext : Tracks (fun cur => (size == 1) = true ∧ size = cur.body.length ∧ cur.pos = 0)
      (next : Filling α UInt8) Decoder.next fun _ cur => cur.Ahead 0 := by
    refine (Tracks.next 0).weaken (fun cur h => ?_) fun _ _ h => h
    obtain ⟨hone, hsize, hpos⟩ := h
    have hone : size = 1 := of_decide_eq_true hone
    unfold Cursor.Ahead
    omega
  exact hnext.fill fun value => (inside_cast _).fill fun result => .written (hwrite result)

/-- A request without a body. -/
theorem decodes_empty {a : α} (hout : ∀ out, out = a) :
    Decodes (do require ((← size) == 0)) fun body : Bytes =>
      if body.isEmpty then .ok a else .error .reject := by
  have hfill : Fills (fun cur => cur.pos = 0) (do require ((← size) == 0))
      ((do Decoder.require ((← Decoder.size) == 0)) >>= fun _ => Pure.pure a) := by
    apply Fills.unwritten hout
    refine Tracks.size.bind fun size => ?_
    refine (Tracks.require _ fun cur h => Cursor.ahead_start h.2).weaken (fun _ h => h) ?_
    intro _ cur h
    exact Cursor.ahead_start h.2.2
  have hrun : ∀ body, Decoder.run
      ((do Decoder.require ((← Decoder.size) == 0)) >>= fun _ => Pure.pure a) body =
        if body.isEmpty then .ok a else .error .reject := by
    intro body
    cases body <;> rfl
  exact hfill.decodes_as (fun _ h => h) hrun

end

theorem LoginRequest.decodes : Decodes LoginRequest.decodeInto LoginRequest.decode :=
  decodes_text _ LoginRequest.mk _ fun _ _ => rfl

theorem LoginResponse.decodes : Decodes LoginResponse.decodeInto LoginResponse.decode :=
  decodes_code LoginResult.ofCode? LoginResponse.mk _ fun _ _ => rfl

theorem ChatRequest.decodes : Decodes ChatRequest.decodeInto ChatRequest.decode :=
  decodes_text _ ChatRequest.mk _ fun _ _ => rfl

theorem ChatResponse.decodes : Decodes ChatResponse.decodeInto ChatResponse.decode :=
  decodes_code ChatResult.ofCode? ChatResponse.mk _ fun _ _ => rfl

theorem ChatNotification.decodes :
    Decodes ChatNotification.decodeInto ChatNotification.decode := by
  refine @Fills.decodes _ (fun cur => cur.pos = 0) _ _ ?_ fun _ h => h
  refine Tracks.size.fill fun size => Tracks.size.fill fun _ => ?_
  refine (Tracks.require _ fun cur h => Cursor.ahead_start h.2.2).fill fun _ => ?_
  refine ((Tracks.next 2).weaken (fun cur h => ?_) fun _ _ h => h).fill fun nicknameSize => ?_
  · obtain ⟨hsize, -, hlen, hpos⟩ := h
    have hthree := of_decide_eq_true (Bool.and_eq_true_iff.mp hsize).1
    unfold Cursor.Ahead
    omega
  refine (Tracks.require _ fun cur h => h.less (by omega)).fill fun _ => ?_
  refine (Tracks.remaining fun cur h => h.2.less (by omega)).fill fun left => ?_
  refine (Tracks.require _ fun cur h => h.2.2.less (by omega)).fill fun _ => ?_
  refine ((Tracks.take nicknameSize.toNat 2).weaken (fun cur h => ?_) fun _ _ h => h).fill
    fun nickname => ?_
  · exact .of_left h.2.1 (of_decide_eq_true h.1)
  refine (Tracks.next 1).fill fun high => (Tracks.next 0).fill fun low => ?_
  refine (Inside.require _).fill fun _ => ?_
  refine (Tracks.remaining fun cur h => h).fill fun left => ?_
  refine (Tracks.require _ fun cur h => h.2).fill fun _ => ?_
  refine ((Tracks.take _ 0).weaken (fun cur h => ?_) fun _ _ h => h).fill fun message => ?_
  · have hleft := of_decide_eq_true h.1
    exact .of_left h.2.1 (Nat.le_of_eq hleft.symm)
  exact .written fun _ => rfl

theorem RoomCreateRequest.decodes :
    Decodes RoomCreateRequest.decodeInto RoomCreateRequest.decode := by
  apply Fills.decodes_inside
  exact inside_text8.fill fun title => inside_done.fill fun _ => .written fun _ => rfl

theorem RoomActionResponse.decodes :
    Decodes RoomActionResponse.decodeInto RoomActionResponse.decode := by
  apply Fills.decodes_inside
  refine inside_readResult.fill fun result => inside_u32.fill fun roomId => ?_
  exact inside_done.fill fun _ => (Inside.require _).fill fun _ => .written fun _ => rfl

theorem RoomListRequest.decodes : Decodes RoomListRequest.decodeInto RoomListRequest.decode := by
  apply Fills.decodes_inside
  exact inside_u32.fill fun afterRoomId => inside_done.fill fun _ => .written fun _ => rfl

theorem RoomEnterRequest.decodes :
    Decodes RoomEnterRequest.decodeInto RoomEnterRequest.decode := by
  apply Fills.decodes_inside
  exact inside_u32.fill fun roomId => inside_done.fill fun _ => .written fun _ => rfl

theorem RoomListResponse.decodes :
    Decodes RoomListResponse.decodeInto RoomListResponse.decode := by
  apply Fills.decodes_inside
  refine inside_readResult.fill fun result => inside_u8.fill fun hasMore => ?_
  refine inside_u8.fill fun count => (Inside.require _).fill fun _ => ?_
  refine (Inside.require _).fill fun _ => (Inside.require _).fill fun _ => ?_
  refine (inside_readRooms count.toNat 0).fill fun rooms => inside_done.fill fun _ => ?_
  exact .written fun _ => rfl

theorem RoomLeaveRequest.decodes :
    Decodes RoomLeaveRequest.decodeInto RoomLeaveRequest.decode :=
  decodes_empty fun _ => rfl

theorem RoomMemberNotification.decodes :
    Decodes RoomMemberNotification.decodeInto RoomMemberNotification.decode := by
  apply Fills.decodes_inside
  refine inside_u32.fill fun roomId => inside_u8.fill fun change => ?_
  refine inside_text8.fill fun nickname => inside_done.fill fun _ => ?_
  refine (Inside.require _).fill fun _ => (inside_cast _).fill fun change => ?_
  exact .written fun _ => rfl

theorem RoomReadyRequest.decodes :
    Decodes RoomReadyRequest.decodeInto RoomReadyRequest.decode := by
  apply Fills.decodes_inside
  refine inside_u8.fill fun ready => (Inside.require _).fill fun _ => ?_
  exact inside_done.fill fun _ => .written fun _ => rfl

theorem RoomStartRequest.decodes :
    Decodes RoomStartRequest.decodeInto RoomStartRequest.decode :=
  decodes_empty fun _ => rfl

theorem RoomStateNotification.decodes :
    Decodes RoomStateNotification.decodeInto RoomStateNotification.decode := by
  apply Fills.decodes_inside
  refine inside_u32.fill fun roomId => inside_u32.fill fun game => ?_
  refine inside_u8.fill fun phase => inside_u8.fill fun capacity => ?_
  refine inside_text8.fill fun hostNickname => inside_u8.fill fun count => ?_
  refine (Inside.require _).fill fun _ => (inside_readPlayers count.toNat).fill fun players => ?_
  refine inside_done.fill fun _ => (inside_cast _).fill fun phase => ?_
  exact (Inside.require _).fill fun _ => .written fun _ => rfl

theorem GameMoveRequest.decodes : Decodes GameMoveRequest.decodeInto GameMoveRequest.decode := by
  apply Fills.decodes_inside
  refine inside_u32.fill fun roomId => inside_u32.fill fun game => ?_
  refine inside_u8.fill fun x => inside_u8.fill fun y => ?_
  exact inside_done.fill fun _ => .written fun _ => rfl

theorem GameMoveResponse.decodes :
    Decodes GameMoveResponse.decodeInto GameMoveResponse.decode := by
  apply Fills.decodes_inside
  refine inside_u8.fill fun result => (Inside.require _).fill fun _ => ?_
  refine inside_u32.fill fun game => inside_done.fill fun _ => ?_
  exact (inside_cast _).fill fun result => .written fun _ => rfl

theorem GameMoveNotification.decodes :
    Decodes GameMoveNotification.decodeInto GameMoveNotification.decode := by
  apply Fills.decodes_inside
  refine inside_u32.fill fun roomId => inside_u32.fill fun game => ?_
  refine inside_u8.fill fun x => inside_u8.fill fun y => ?_
  refine inside_u8.fill fun placed => inside_u8.fill fun next => ?_
  refine inside_u8.fill fun state => inside_u32.fill fun moveCount => ?_
  refine inside_done.fill fun _ => (inside_cast _).fill fun placed => ?_
  refine (inside_cast _).fill fun next => (inside_cast _).fill fun state => ?_
  exact (Inside.require _).fill fun _ => .written fun _ => rfl

theorem GameResignRequest.decodes :
    Decodes GameResignRequest.decodeInto GameResignRequest.decode := by
  apply Fills.decodes_inside
  refine inside_u32.fill fun roomId => inside_u32.fill fun game => ?_
  exact inside_done.fill fun _ => .written fun _ => rfl

theorem GameEndNotification.decodes :
    Decodes GameEndNotification.decodeInto GameEndNotification.decode := by
  apply Fills.decodes_inside
  refine inside_u32.fill fun roomId => inside_u32.fill fun game => ?_
  refine inside_u8.fill fun state => inside_u8.fill fun reason => ?_
  refine inside_u32.fill fun moveCount => inside_done.fill fun _ => ?_
  refine (inside_cast _).fill fun state => (inside_cast _).fill fun reason => ?_
  exact (Inside.require _).fill fun _ => .written fun _ => rfl

/-! ## All of them -/

/-- The packets that have a `Decode`, in the order of the headers. -/
inductive DecodeOverload where
  | loginRequest | loginResponse | chatRequest | chatResponse | chatNotification
  | roomCreateRequest | roomActionResponse | roomListRequest | roomEnterRequest
  | roomListResponse | roomLeaveRequest | roomMemberNotification | roomReadyRequest
  | roomStartRequest | roomStateNotification
  | gameMoveRequest | gameMoveResponse | gameMoveNotification | gameResignRequest
  | gameEndNotification

namespace DecodeOverload

def Packet : DecodeOverload → Type
  | .loginRequest => LoginRequest
  | .loginResponse => LoginResponse
  | .chatRequest => ChatRequest
  | .chatResponse => ChatResponse
  | .chatNotification => ChatNotification
  | .roomCreateRequest => RoomCreateRequest
  | .roomActionResponse => RoomActionResponse
  | .roomListRequest => RoomListRequest
  | .roomEnterRequest => RoomEnterRequest
  | .roomListResponse => RoomListResponse
  | .roomLeaveRequest => RoomLeaveRequest
  | .roomMemberNotification => RoomMemberNotification
  | .roomReadyRequest => RoomReadyRequest
  | .roomStartRequest => RoomStartRequest
  | .roomStateNotification => RoomStateNotification
  | .gameMoveRequest => GameMoveRequest
  | .gameMoveResponse => GameMoveResponse
  | .gameMoveNotification => GameMoveNotification
  | .gameResignRequest => GameResignRequest
  | .gameEndNotification => GameEndNotification

/-- `Decode(body, out)` -/
def decodeInto : (overload : DecodeOverload) → Filling overload.Packet Unit
  | .loginRequest => LoginRequest.decodeInto
  | .loginResponse => LoginResponse.decodeInto
  | .chatRequest => ChatRequest.decodeInto
  | .chatResponse => ChatResponse.decodeInto
  | .chatNotification => ChatNotification.decodeInto
  | .roomCreateRequest => RoomCreateRequest.decodeInto
  | .roomActionResponse => RoomActionResponse.decodeInto
  | .roomListRequest => RoomListRequest.decodeInto
  | .roomEnterRequest => RoomEnterRequest.decodeInto
  | .roomListResponse => RoomListResponse.decodeInto
  | .roomLeaveRequest => RoomLeaveRequest.decodeInto
  | .roomMemberNotification => RoomMemberNotification.decodeInto
  | .roomReadyRequest => RoomReadyRequest.decodeInto
  | .roomStartRequest => RoomStartRequest.decodeInto
  | .roomStateNotification => RoomStateNotification.decodeInto
  | .gameMoveRequest => GameMoveRequest.decodeInto
  | .gameMoveResponse => GameMoveResponse.decodeInto
  | .gameMoveNotification => GameMoveNotification.decodeInto
  | .gameResignRequest => GameResignRequest.decodeInto
  | .gameEndNotification => GameEndNotification.decodeInto

/-- The value of the same overload in `Codec.lean`. -/
def decode : (overload : DecodeOverload) → Bytes → Except Fault overload.Packet
  | .loginRequest => LoginRequest.decode
  | .loginResponse => LoginResponse.decode
  | .chatRequest => ChatRequest.decode
  | .chatResponse => ChatResponse.decode
  | .chatNotification => ChatNotification.decode
  | .roomCreateRequest => RoomCreateRequest.decode
  | .roomActionResponse => RoomActionResponse.decode
  | .roomListRequest => RoomListRequest.decode
  | .roomEnterRequest => RoomEnterRequest.decode
  | .roomListResponse => RoomListResponse.decode
  | .roomLeaveRequest => RoomLeaveRequest.decode
  | .roomMemberNotification => RoomMemberNotification.decode
  | .roomReadyRequest => RoomReadyRequest.decode
  | .roomStartRequest => RoomStartRequest.decode
  | .roomStateNotification => RoomStateNotification.decode
  | .gameMoveRequest => GameMoveRequest.decode
  | .gameMoveResponse => GameMoveResponse.decode
  | .gameMoveNotification => GameMoveNotification.decode
  | .gameResignRequest => GameResignRequest.decode
  | .gameEndNotification => GameEndNotification.decode

theorem decodes (overload : DecodeOverload) :
    Decodes overload.decodeInto overload.decode := by
  cases overload with
  | loginRequest => exact LoginRequest.decodes
  | loginResponse => exact LoginResponse.decodes
  | chatRequest => exact ChatRequest.decodes
  | chatResponse => exact ChatResponse.decodes
  | chatNotification => exact ChatNotification.decodes
  | roomCreateRequest => exact RoomCreateRequest.decodes
  | roomActionResponse => exact RoomActionResponse.decodes
  | roomListRequest => exact RoomListRequest.decodes
  | roomEnterRequest => exact RoomEnterRequest.decodes
  | roomListResponse => exact RoomListResponse.decodes
  | roomLeaveRequest => exact RoomLeaveRequest.decodes
  | roomMemberNotification => exact RoomMemberNotification.decodes
  | roomReadyRequest => exact RoomReadyRequest.decodes
  | roomStartRequest => exact RoomStartRequest.decodes
  | roomStateNotification => exact RoomStateNotification.decodes
  | gameMoveRequest => exact GameMoveRequest.decodes
  | gameMoveResponse => exact GameMoveResponse.decodes
  | gameMoveNotification => exact GameMoveNotification.decodes
  | gameResignRequest => exact GameResignRequest.decodes
  | gameEndNotification => exact GameEndNotification.decodes

end DecodeOverload

/-- On every body and every output each overload returns true with the decoded value in
    `out`, or false with `out` as it was. It never indexes outside the body, never subtracts
    below zero, and its position ends inside the body either way. -/
theorem decode_overloads_safe (overload : DecodeOverload) (body : Bytes)
    (out : overload.Packet) : ∃ pos, pos ≤ body.length ∧
      ((∃ decoded, overload.decode body = .ok decoded ∧
          overload.decodeInto ⟨⟨body, 0⟩, out⟩ = .ok () ⟨⟨body, pos⟩, decoded⟩) ∨
        (overload.decode body = .error .reject ∧
          overload.decodeInto ⟨⟨body, 0⟩, out⟩ = .error .reject ⟨⟨body, pos⟩, out⟩)) :=
  overload.decodes body out

/-- A title longer than the body: false, after the size byte. -/
example : RoomCreateRequest.decodeInto ⟨⟨[9, 65], 0⟩, ⟨[66]⟩⟩ =
    .error .reject ⟨⟨[9, 65], 1⟩, ⟨[66]⟩⟩ := rfl

end SelectServer
