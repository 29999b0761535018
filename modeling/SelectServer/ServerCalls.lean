import SelectServer.ClientCommands
import SelectServer.UpdateTermination

/- What `PacketProcessor` asks of the managers. A request is one call at most, on
   behalf of the session that it comes from, logged in or not, and with what its body
   is decoded to, and none if the session is not connected or is late to log in; a
   session that is gone leaves its room and is removed; and the timeouts and the
   results are asked for by `Update` (`Server.calls`). `rooms_called`: the rooms of
   a server are what these calls make of them, one after the other, so that what
   holds after every run of calls holds of every server. -/
namespace SelectServer
open Wire (Bytes)
open Histories

/-! ## The calls of a step -/

/-- The call that a request of `s` leads to. -/
def Request.call? (users : UserManager) (s : SessionId) (now : Time) : Request → Option Call
  | .login request => some (.login s request.nickname)
  | .echo _ => none
  | .chat _ => none
  | .roomCreate request => some (.createRoom s request.title)
  | .roomList _ => none
  | .roomEnter request => some (.enterRoom s request.roomId)
  -- `HandleRoomLeave` looks for the user first
  | .roomLeave _ => if (users.find s).isSome then some (.leaveRoom s .leftRoom now) else none
  | .roomReady request => some (.setReady s request.ready)
  | .roomStart _ => some (.startGame s now)
  | .gameMove request =>
    some (.placeStone s request.roomId request.game request.x.toNat request.y.toNat {} now)
  | .gameResign request => some (.resign s request.roomId request.game now)

namespace PacketProcessor

/-- The calls that the handler of a packet makes. -/
def requested (p : PacketProcessor) (event : NetworkEvent) (now : Time) : List Call :=
  ((Request.decode event.packetId event.body).bind
    (Request.call? p.rooms.users event.session now)).toList

/-- The calls that an event leads to. -/
def calls (p : PacketProcessor) (event : NetworkEvent) (loginNow gameNow : Time) : List Call :=
  match event.type with
  | .connected => []
  | .packet =>
    if !p.network.isConnected event.session || p.isLoginExpired event.session loginNow then []
    else p.requested event gameNow
  | .disconnected =>
    if (p.rooms.users.find event.session).isSome then
      [.leaveRoom event.session .disconnected gameNow, .remove event.session]
    else []

end PacketProcessor

/-- The calls of a step, but for those that pop the results. -/
def Server.calls (c : Server) : Input → List Call
  | .beginUpdate traversal now => [.updateTimeouts traversal now]
  | .event loginNow gameNow =>
    match c.network.events with
    | [] => []
    | event :: _ => c.processor.calls event loginNow gameNow
  | .endUpdate _ _ traversal now => [.updateTimeouts traversal now]
  | _ => []

/-- A call that is neither for the timeouts nor for a session that is gone is the only one of its
step, and a request of the session that it is made for stands for it. -/
theorem Server.calls_requested {c : Server} {l : Input} {call : Call} (h : call ∈ c.calls l)
    (htimeouts : ∀ traversal now, call ≠ .updateTimeouts traversal now)
    (hgone : ∀ s now, call ≠ .leaveRoom s .disconnected now) (hremove : ∀ s, call ≠ .remove s) :
    c.calls l = [call] ∧ ∃ loginNow now event rest request, l = .event loginNow now ∧
      c.network.events = event :: rest ∧ event.type = .packet ∧
        Request.decode event.packetId event.body = some request ∧
          request.call? c.rooms.users event.session now = some call := by
  cases l with
  | accept => cases h
  | receive => cases h
  | close => cases h
  | beginUpdate => exact absurd (List.mem_singleton.mp h) (htimeouts _ _)
  | endUpdate => exact absurd (List.mem_singleton.mp h) (htimeouts _ _)
  | event loginNow now =>
    unfold Server.calls at h ⊢
    cases hevents : c.network.events with
    | nil =>
      rw [hevents] at h
      cases h
    | cons event rest =>
      rw [hevents] at h
      dsimp only at h ⊢
      unfold PacketProcessor.calls at h ⊢
      cases htype : event.type with
      | connected =>
        rw [htype] at h
        cases h
      | disconnected =>
        rw [htype] at h
        dsimp only at h
        split at h
        · simp [hgone, hremove] at h
        · cases h
      | packet =>
        rw [htype] at h
        dsimp only at h ⊢
        split at h
        · cases h
        rename_i hlive
        rw [if_neg hlive]
        have hsome := Option.mem_toList.mp h
        obtain ⟨request, hdecode, hcall⟩ := Option.bind_eq_some_iff.mp hsome
        refine ⟨?_, loginNow, now, event, rest, request, rfl, rfl, htype, hdecode, hcall⟩
        unfold PacketProcessor.requested
        rw [hsome]
        rfl

/-! ## Calls in a row -/

/-- The calls take `m` to `m'`, whoever has just left. -/
def Makes (wideChars : Bytes → Nat) (m : RoomManager) (calls : List Call) (m' : RoomManager) : Prop :=
  ∀ leaving, ∃ history leaving', Run (CallStep wideChars) ⟨m, leaving⟩ history ⟨m', leaving'⟩ ∧
    history.map (fun e => e.label.1) = calls

/-- The same, and then some results are popped. -/
def MakesAndPops (wideChars : Bytes → Nat) (m : RoomManager) (calls : List Call)
    (m' : RoomManager) : Prop :=
  ∃ pops, Makes wideChars m (calls ++ List.replicate pops .tryPopFinishedGame) m'

section Makes
variable {wideChars : Bytes → Nat} {m m1 m' : RoomManager} {calls later : List Call}

theorem Makes.nil (m : RoomManager) : Makes wideChars m [] m :=
  fun leaving => ⟨[], leaving, .start, rfl⟩

theorem Makes.one {l : Call} {a : Answer} (hcall : m.call wideChars l = .ok (a, m'))
    (hallows : ∀ leaving, Managed.allows ⟨m, leaving⟩ l = true) : Makes wideChars m [l] m' := by
  intro leaving
  have hstep : CallStep wideChars ⟨m, leaving⟩ (l, a) ⟨m', leavingAfter l a⟩ :=
    ⟨hcall, rfl, hallows leaving⟩
  exact ⟨_, _, Run.start.snoc hstep, rfl⟩

theorem Makes.append (h : Makes wideChars m calls m1) (h' : Makes wideChars m1 later m') :
    Makes wideChars m (calls ++ later) m' := by
  intro leaving
  obtain ⟨history, leaving1, hrun, hcalls⟩ := h leaving
  obtain ⟨history', leaving', hrun', hlater⟩ := h' leaving1
  refine ⟨history ++ history', leaving', hrun.append hrun', ?_⟩
  rw [List.map_append, hcalls, hlater]

/-- The loop of `FlushFinishedGames` pops the whole queue, and is left when nothing comes. -/
theorem Makes.pops (queue : List FinishedGame) : ∀ m : RoomManager, m.finishedGames = queue →
    Makes wideChars m (List.replicate (queue.length + 1) .tryPopFinishedGame)
      { m with finishedGames := [] } := by
  induction queue with
  | nil =>
    intro m hqueue
    have hpop : m.tryPopFinishedGame = (none, m) := by
      rw [RoomManager.tryPopFinishedGame, hqueue]
    have hcall : m.call wideChars .tryPopFinishedGame = .ok (.popped none, m) := by
      rw [RoomManager.call, hpop]
    have hsame : ({ m with finishedGames := [] } : RoomManager) = m := by rw [← hqueue]
    rw [hsame]
    exact .one hcall fun _ => rfl
  | cons finished rest ih =>
    intro m hqueue
    have hcall : m.call wideChars .tryPopFinishedGame =
        .ok (.popped (some finished), { m with finishedGames := rest }) := by
      rw [RoomManager.call, RoomManager.tryPopFinishedGame, hqueue]
    exact (Makes.one hcall fun _ => rfl).append (ih { m with finishedGames := rest } rfl)

theorem Makes.quiet (h : Makes wideChars m calls m') : MakesAndPops wideChars m calls m' :=
  ⟨0, by rw [List.replicate_zero, List.append_nil]; exact h⟩

theorem Makes.flushed (h : Makes wideChars m calls m') :
    MakesAndPops wideChars m calls { m' with finishedGames := [] } :=
  ⟨_, h.append (.pops m'.finishedGames m' rfl)⟩

end Makes

/-! ## What sending leaves -/

namespace PacketProcessor
variable {host : Host} {p p' : PacketProcessor}

theorem sendRoomActionResult_rooms (s : SessionId) (rid : UInt16) (result : RoomResult)
    (roomId : RoomId) : (p.sendRoomActionResult host s rid result roomId).2.rooms = p.rooms := by
  unfold sendRoomActionResult
  dsimp only
  split
  · rfl
  · rw [sendOrDisconnect_eq, deliver_rooms]

theorem sendGameMoveResult_rooms (s : SessionId) (result : GameMoveResult) (gameId : GameId) :
    (p.sendGameMoveResult host s result gameId).2.rooms = p.rooms := by
  unfold sendGameMoveResult
  split
  · rfl
  · rw [sendOrDisconnect_eq, deliver_rooms]

theorem notified_rooms (roomId : RoomId) (change : RoomMemberChange) (nickname : Bytes) :
    ((p.notifyRoomMember host roomId change nickname).notifyRoomState host roomId).rooms =
      p.rooms := by
  rw [notifyRoomState_eq, deliver_rooms, notifyRoomMember_eq, deliver_rooms]

theorem welcome_rooms (s : SessionId) (rid : UInt16) (result : RoomResult) (r : RoomId) :
    (welcome host p s rid result r).rooms = p.rooms := by
  unfold welcome
  dsimp only
  split
  · exact sendRoomActionResult_rooms _ _ _ _
  split
  · exact sendRoomActionResult_rooms _ _ _ _
  · rw [notified_rooms, sendRoomActionResult_rooms]

theorem answerInRoom_rooms (s : SessionId) (rid : UInt16) (result : RoomResult) :
    (answerInRoom host p s rid result).rooms = p.rooms := by
  unfold answerInRoom
  dsimp only
  split
  · rw [notifyRoomState_eq, deliver_rooms, sendRoomActionResult_rooms]
  · exact sendRoomActionResult_rooms _ _ _ _

theorem flushLoop_rooms (queue : List FinishedGame) : ∀ p : PacketProcessor,
    p.rooms.finishedGames = queue →
      (flushLoop host queue.length p).rooms = { p.rooms with finishedGames := [] } := by
  induction queue with
  | nil =>
    intro p hqueue
    show p.rooms = _
    rw [← hqueue]
  | cons finished rest ih =>
    intro p hqueue
    have hpop : p.rooms.tryPopFinishedGame =
        (some finished, { p.rooms with finishedGames := rest }) := by
      rw [RoomManager.tryPopFinishedGame, hqueue]
    rw [List.length_cons, flushLoop, hpop]
    dsimp only
    rw [ih _ (by rw [announce_rooms]), announce_rooms]

theorem flushFinishedGames_rooms :
    (p.flushFinishedGames host).rooms = { p.rooms with finishedGames := [] } :=
  flushLoop_rooms p.rooms.finishedGames p rfl

/-! ## Requests -/

section Requests
variable {wideChars : Bytes → Nat} {event : NetworkEvent} {now : Time}

theorem requested_eq {request : Request} {calls : List Call}
    (hdecode : Request.decode event.packetId event.body = some request)
    (hcall : (request.call? p.rooms.users event.session now).toList = calls) :
    p.requested event now = calls := by
  rw [requested, hdecode]
  exact hcall

theorem requested_none (hdecode : Request.decode event.packetId event.body = none) :
    p.requested event now = [] := by
  rw [requested, hdecode]
  rfl

theorem handleLogin_calls (hid : event.packetId = loginReq) (hs : event.session ≠ 0) :
    MakesAndPops host.multiByteToWideChar p.rooms (p.requested event now)
      (handleLogin host p event).rooms := by
  have hdecode : Request.decode event.packetId event.body =
      (LoginRequest.decode event.body).toOption.map .login := by rw [hid]; rfl
  unfold handleLogin
  split
  · rename_i herror
    rw [herror] at hdecode
    rw [requested_none hdecode]
    exact (Makes.nil _).quiet
  · rename_i request hrequest
    rw [hrequest] at hdecode
    rw [requested_eq hdecode rfl]
    dsimp only
    rw [sendOrDisconnect_eq, deliver_rooms]
    exact (Makes.one rfl fun _ => by simpa [Managed.allows] using hs).quiet

/-- A handler that makes no call. -/
theorem requested_without {request : Request}
    (hdecode : Request.decode event.packetId event.body = some request)
    (hnone : request.call? p.rooms.users event.session now = none) :
    MakesAndPops wideChars p.rooms (p.requested event now) p.rooms := by
  rw [requested_eq hdecode (congrArg Option.toList hnone)]
  exact (Makes.nil _).quiet

/-- A request that is not read. -/
theorem requested_unread (hdecode : Request.decode event.packetId event.body = none) :
    MakesAndPops wideChars p.rooms (p.requested event now) p.rooms := by
  rw [requested_none hdecode]
  exact (Makes.nil _).quiet

theorem handleEcho_calls (hid : event.packetId = echoReq) :
    MakesAndPops host.multiByteToWideChar p.rooms (p.requested event now)
      (handleEcho host p event).rooms := by
  have hdecode : Request.decode event.packetId event.body = some (.echo event.body) := by
    rw [hid]
    rfl
  unfold handleEcho
  rw [sendOrDisconnect_eq, deliver_rooms]
  exact requested_without hdecode rfl

theorem handleChat_calls (hid : event.packetId = chatReq) :
    MakesAndPops host.multiByteToWideChar p.rooms (p.requested event now)
      (handleChat host p event).rooms := by
  have hdecode : Request.decode event.packetId event.body =
      (ChatRequest.decode event.body).toOption.map .chat := by rw [hid]; rfl
  have hrooms : (handleChat host p event).rooms = p.rooms := by
    unfold handleChat sendChatResult
    split
    · rw [sendOrDisconnect_eq, deliver_rooms]
    split
    · rw [sendOrDisconnect_eq, deliver_rooms]
    split
    · rw [sendOrDisconnect_eq, deliver_rooms]
    split
    · rw [sendOrDisconnect_eq, deliver_rooms]
    split
    · rfl
    split
    · rw [sendOrDisconnect_eq, deliver_rooms]
    split
    · rfl
    dsimp only
    split
    · rw [sendOrDisconnect_eq, deliver_rooms]
    split
    · rw [sendOrDisconnect_eq, deliver_rooms, sendOrDisconnect_eq, deliver_rooms]
    · rw [broadcast_eq, deliver_rooms, sendOrDisconnect_eq, deliver_rooms, sendOrDisconnect_eq,
        deliver_rooms]
  rw [hrooms]
  cases hread : ChatRequest.decode event.body with
  | error fault =>
    rw [hread] at hdecode
    exact requested_unread hdecode
  | ok request =>
    rw [hread] at hdecode
    exact requested_without hdecode rfl

theorem handleRoomCreate_calls (hid : event.packetId = roomCreateReq)
    (h : handleRoomCreate host p event = .ok p') :
    MakesAndPops host.multiByteToWideChar p.rooms (p.requested event now) p'.rooms := by
  have hdecode : Request.decode event.packetId event.body =
      (RoomCreateRequest.decode event.body).toOption.map .roomCreate := by rw [hid]; rfl
  unfold handleRoomCreate at h
  split at h
  · rename_i hread
    rw [hread] at hdecode
    cases h
    exact requested_unread hdecode
  rename_i request hread
  rw [hread] at hdecode
  cases e : RoomManager.createRoom host.multiByteToWideChar p.rooms event.session request.title with
  | error error =>
    rw [e] at h
    cases h
  | ok created =>
    rw [e] at h
    cases h
    rw [welcome_rooms, requested_eq hdecode rfl]
    exact (Makes.one (by rw [RoomManager.call, e]; rfl) fun _ => rfl).quiet

theorem handleRoomList_calls (hid : event.packetId = roomListReq) :
    MakesAndPops host.multiByteToWideChar p.rooms (p.requested event now)
      (handleRoomList host p event).rooms := by
  have hdecode : Request.decode event.packetId event.body =
      (RoomListRequest.decode event.body).toOption.map .roomList := by rw [hid]; rfl
  unfold handleRoomList
  split
  · rename_i hread
    rw [hread] at hdecode
    exact requested_unread hdecode
  rename_i request hread
  rw [hread] at hdecode
  dsimp only
  split
  · exact requested_without hdecode rfl
  · rw [sendOrDisconnect_eq, deliver_rooms]
    exact requested_without hdecode rfl

theorem handleRoomEnter_calls (hid : event.packetId = roomEnterReq) :
    MakesAndPops host.multiByteToWideChar p.rooms (p.requested event now)
      (handleRoomEnter host p event).rooms := by
  have hdecode : Request.decode event.packetId event.body =
      (RoomEnterRequest.decode event.body).toOption.map .roomEnter := by rw [hid]; rfl
  unfold handleRoomEnter
  split
  · rename_i hread
    rw [hread] at hdecode
    exact requested_unread hdecode
  · rename_i request hread
    rw [hread] at hdecode
    dsimp only
    rw [welcome_rooms, requested_eq hdecode rfl]
    exact (Makes.one rfl fun _ => rfl).quiet

theorem handleRoomLeave_calls (hid : event.packetId = roomLeaveReq)
    (h : handleRoomLeave host p event now = .ok p') :
    MakesAndPops host.multiByteToWideChar p.rooms (p.requested event now) p'.rooms := by
  have hdecode : Request.decode event.packetId event.body =
      (RoomLeaveRequest.decode event.body).toOption.map .roomLeave := by rw [hid]; rfl
  unfold handleRoomLeave at h
  split at h
  · rename_i hread
    rw [hread] at hdecode
    cases h
    exact requested_unread hdecode
  rename_i request hread
  rw [hread] at hdecode
  split at h
  · rename_i hnone
    cases h
    rw [sendRoomActionResult_rooms]
    exact requested_without hdecode (by rw [Request.call?, hnone]; rfl)
  rename_i user huser
  have hcalls : p.requested event now = [.leaveRoom event.session .leftRoom now] :=
    requested_eq hdecode (by rw [Request.call?, huser]; rfl)
  cases e : p.rooms.leaveRoom event.session .leftRoom now with
  | error error =>
    rw [e] at h
    cases h
  | ok left =>
    obtain ⟨result, rooms⟩ := left
    have hleft : Makes host.multiByteToWideChar p.rooms
        [.leaveRoom event.session .leftRoom now] rooms :=
      .one (by rw [RoomManager.call, e]; rfl) fun _ => rfl
    simp only [e, bind, Except.bind] at h
    rw [hcalls]
    split at h
    · cases h
      rw [notified_rooms, sendRoomActionResult_rooms, flushFinishedGames_rooms]
      exact hleft.flushed
    · cases h
      rw [sendRoomActionResult_rooms, flushFinishedGames_rooms]
      exact hleft.flushed

theorem handleRoomReady_calls (hid : event.packetId = roomReadyReq) :
    MakesAndPops host.multiByteToWideChar p.rooms (p.requested event now)
      (handleRoomReady host p event).rooms := by
  have hdecode : Request.decode event.packetId event.body =
      (RoomReadyRequest.decode event.body).toOption.map .roomReady := by rw [hid]; rfl
  unfold handleRoomReady
  split
  · rename_i hread
    rw [hread] at hdecode
    exact requested_unread hdecode
  · rename_i request hread
    rw [hread] at hdecode
    dsimp only
    rw [answerInRoom_rooms, requested_eq hdecode rfl]
    exact (Makes.one rfl fun _ => rfl).quiet

theorem handleRoomStart_calls (hid : event.packetId = roomStartReq) :
    MakesAndPops host.multiByteToWideChar p.rooms (p.requested event now)
      (handleRoomStart host p event now).rooms := by
  have hdecode : Request.decode event.packetId event.body =
      (RoomStartRequest.decode event.body).toOption.map .roomStart := by rw [hid]; rfl
  unfold handleRoomStart
  split
  · rename_i hread
    rw [hread] at hdecode
    exact requested_unread hdecode
  · rename_i request hread
    rw [hread] at hdecode
    dsimp only
    rw [answerInRoom_rooms, requested_eq hdecode rfl]
    exact (Makes.one rfl fun _ => rfl).quiet

theorem handleGameMove_calls (hid : event.packetId = gameMoveReq)
    (h : handleGameMove host p event now = .ok p') :
    MakesAndPops host.multiByteToWideChar p.rooms (p.requested event now) p'.rooms := by
  have hdecode : Request.decode event.packetId event.body =
      (GameMoveRequest.decode event.body).toOption.map .gameMove := by rw [hid]; rfl
  unfold handleGameMove at h
  split at h
  · rename_i hread
    rw [hread] at hdecode
    cases h
    exact requested_unread hdecode
  rename_i request hread
  rw [hread] at hdecode
  rw [requested_eq hdecode rfl]
  cases e : p.rooms.placeStone event.session request.roomId request.game request.x.toNat
      request.y.toNat {} now with
  | error error =>
    rw [e] at h
    cases h
  | ok placed =>
    obtain ⟨result, accepted, rooms⟩ := placed
    have hplaced : Makes host.multiByteToWideChar p.rooms [.placeStone event.session
        request.roomId request.game request.x.toNat request.y.toNat {} now] rooms :=
      .one (by rw [RoomManager.call, e]; rfl) fun _ => rfl
    simp only [e, bind, Except.bind] at h
    split at h
    · cases h
      rw [sendGameMoveResult_rooms]
      exact hplaced.quiet
    split at h
    · cases h
      exact hplaced.quiet
    split at h
    · cases h
      rw [foldl_disconnect_rooms]
      exact hplaced.quiet
    · cases h
      rw [broadcast_eq, deliver_rooms, sendGameMoveResult_rooms]
      exact hplaced.quiet

theorem handleGameResign_calls (hid : event.packetId = gameResignReq)
    (h : handleGameResign host p event now = .ok p') :
    MakesAndPops host.multiByteToWideChar p.rooms (p.requested event now) p'.rooms := by
  have hdecode : Request.decode event.packetId event.body =
      (GameResignRequest.decode event.body).toOption.map .gameResign := by rw [hid]; rfl
  unfold handleGameResign at h
  split at h
  · rename_i hread
    rw [hread] at hdecode
    cases h
    exact requested_unread hdecode
  rename_i request hread
  rw [hread] at hdecode
  rw [requested_eq hdecode rfl]
  cases e : p.rooms.resign event.session request.roomId request.game now with
  | error error =>
    rw [e] at h
    cases h
  | ok resigned =>
    obtain ⟨result, rooms⟩ := resigned
    have hresigned : Makes host.multiByteToWideChar p.rooms
        [.resign event.session request.roomId request.game now] rooms :=
      .one (by rw [RoomManager.call, e]; rfl) fun _ => rfl
    simp only [e, bind, Except.bind] at h
    split at h
    · cases h
      exact hresigned.quiet
    · cases h
      rw [sendOrDisconnect_eq, deliver_rooms]
      exact hresigned.quiet

/-- A row of the table that was not found. -/
theorem table_miss {α : Type} {c : Prop} [Decidable c] {a : α} {rest : Option α}
    (h : (if c then some a else rest) = none) : ¬ c ∧ rest = none := by
  by_cases hc : c
  · rw [if_pos hc] at h
    cases h
  · rw [if_neg hc] at h
    exact ⟨hc, h⟩

/-- What has no handler is read as nothing. -/
theorem decode_unknown {packetId : UInt16} (h : handler? packetId = none) (body : Bytes) :
    Request.decode packetId body = none := by
  unfold handler? at h
  obtain ⟨hlogin, h⟩ := table_miss h
  obtain ⟨hecho, h⟩ := table_miss h
  obtain ⟨hchat, h⟩ := table_miss h
  obtain ⟨hcreate, h⟩ := table_miss h
  obtain ⟨hlist, h⟩ := table_miss h
  obtain ⟨henter, h⟩ := table_miss h
  obtain ⟨hleave, h⟩ := table_miss h
  obtain ⟨hready, h⟩ := table_miss h
  obtain ⟨hstart, h⟩ := table_miss h
  obtain ⟨hmove, h⟩ := table_miss h
  obtain ⟨hresign, -⟩ := table_miss h
  unfold Request.decode
  rw [if_neg hlogin, if_neg hecho, if_neg hchat, if_neg hcreate, if_neg hlist, if_neg henter,
    if_neg hleave, if_neg hready, if_neg hstart, if_neg hmove, if_neg hresign]

theorem processPacket_calls (hs : event.session ≠ 0) (h : processPacket host p event now = .ok p') :
    MakesAndPops host.multiByteToWideChar p.rooms (p.requested event now) p'.rooms := by
  have hdispatches := processPacket_dispatches host p event now
  generalize processPacket host p event now = r at h hdispatches
  cases hdispatches with
  | login hid =>
    cases h
    exact handleLogin_calls hid hs
  | echo hid =>
    cases h
    exact handleEcho_calls hid
  | chat hid =>
    cases h
    exact handleChat_calls hid
  | roomCreate hid => exact handleRoomCreate_calls hid h
  | roomList hid =>
    cases h
    exact handleRoomList_calls hid
  | roomEnter hid =>
    cases h
    exact handleRoomEnter_calls hid
  | roomLeave hid => exact handleRoomLeave_calls hid h
  | roomReady hid =>
    cases h
    exact handleRoomReady_calls hid
  | roomStart hid =>
    cases h
    exact handleRoomStart_calls hid
  | gameMove hid => exact handleGameMove_calls hid h
  | gameResign hid => exact handleGameResign_calls hid h
  | unknown hid =>
    cases h
    exact requested_unread (decode_unknown hid event.body)

end Requests

/-! ## Events and timeouts -/

theorem handleDisconnected_calls (hok : p.rooms.Ok) {s : SessionId} {now : Time}
    (h : handleDisconnected host p s now = .ok p') :
    MakesAndPops host.multiByteToWideChar p.rooms
      (if (p.rooms.users.find s).isSome then [.leaveRoom s .disconnected now, .remove s] else [])
      p'.rooms := by
  unfold handleDisconnected at h
  dsimp only at h
  split at h
  · rename_i hnone
    cases h
    rw [hnone, if_neg (by simp)]
    exact (Makes.nil _).quiet
  rename_i user huser
  rw [huser, if_pos Option.isSome_some]
  cases e : p.rooms.leaveRoom s .disconnected now with
  | error error =>
    rw [e] at h
    cases h
  | ok left =>
    obtain ⟨result, rooms⟩ := left
    -- who is logged in is let go, with a room to leave or without
    have hresult : result = .success ∨ result = .notInRoom := by
      rcases RoomManager.leaveRoom_spec hok.wellFormed s now (Or.inr rfl) with
        ⟨hunknown, -⟩ | ⟨u, -, e'⟩ | ⟨u, room, m1, room1, -, -, e'⟩
      · rw [UserManager.find, hunknown] at huser
        cases huser
      · exact .inr (congrArg Prod.fst (Except.ok.inj (e.symm.trans e')))
      · exact .inl (congrArg Prod.fst (Except.ok.inj (e.symm.trans e')))
    have hmade : Makes host.multiByteToWideChar p.rooms [.leaveRoom s .disconnected now, .remove s]
        { rooms with users := rooms.users.remove s } := by
      intro leaving
      have hleaving : leavingAfter (.leaveRoom s .disconnected now) (.room result) = some s := by
        rcases hresult with rfl | rfl
        · rfl
        · rfl
      have hleave : CallStep host.multiByteToWideChar ⟨p.rooms, leaving⟩
          (.leaveRoom s .disconnected now, .room result) ⟨rooms, some s⟩ :=
        ⟨by rw [RoomManager.call, e]; rfl, hleaving.symm, rfl⟩
      have hremove : CallStep host.multiByteToWideChar ⟨rooms, some s⟩ (.remove s, .none)
          ⟨{ rooms with users := rooms.users.remove s }, none⟩ :=
        ⟨rfl, rfl, by simp [Managed.allows]⟩
      exact ⟨_, _, (Run.start.snoc hleave).snoc hremove, rfl⟩
    simp only [e, bind, Except.bind] at h
    split at h
    · cases h
      rw [notified_rooms, flushFinishedGames_rooms]
      exact hmade.flushed
    · cases h
      rw [flushFinishedGames_rooms]
      exact hmade.flushed

theorem sweepRooms_calls {traversal : Traversal RoomId} {now : Time}
    (h : sweepRooms host p traversal now = .ok p') :
    MakesAndPops host.multiByteToWideChar p.rooms [.updateTimeouts traversal now] p'.rooms := by
  unfold sweepRooms at h
  cases e : p.rooms.updateTimeouts traversal now with
  | error error =>
    rw [e] at h
    cases h
  | ok rooms =>
    rw [e] at h
    cases h
    rw [flushFinishedGames_rooms]
    have hmade : Makes host.multiByteToWideChar p.rooms [.updateTimeouts traversal now] rooms :=
      .one (by rw [RoomManager.call, e]; rfl) fun _ => rfl
    exact hmade.flushed

theorem handleEvent_calls (hok : p.rooms.Ok) {event : NetworkEvent} {loginNow gameNow : Time}
    (hs : event.session ∈ p.network.connected → event.session ≠ 0)
    (h : p.handleEvent host event loginNow gameNow = .ok p') :
    MakesAndPops host.multiByteToWideChar p.rooms (p.calls event loginNow gameNow) p'.rooms := by
  unfold calls
  cases handleEvent_takes h with
  | skipped htype hout =>
    cases hcase : event.type with
    | connected => exact (Makes.nil _).quiet
    | disconnected => exact absurd hcase htype
    | packet =>
      dsimp only
      rw [if_pos (by simp [Network.isConnected, hout])]
      exact (Makes.nil _).quiet
  | opened htype =>
    rw [htype]
    exact (Makes.nil _).quiet
  | late htype hin hlate =>
    rw [htype]
    dsimp only
    rw [if_pos (by rw [hlate, Bool.or_true])]
    exact (Makes.nil _).quiet
  | closed htype hclosed =>
    rw [htype]
    exact handleDisconnected_calls hok hclosed
  | served htype hin hlive hserved =>
    rw [htype]
    dsimp only
    rw [if_neg (by simp [Network.isConnected, hin, hlive])]
    exact processPacket_calls (hs hin) hserved

end PacketProcessor

/-! ## Runs -/

/-- A step of the server makes its calls, and pops results at the end. -/
theorem ServerStep.calls {host : Host} {c c' : Server} {l : Input} (hc : c.Sound)
    (h : ServerStep host c l c') :
    MakesAndPops host.multiByteToWideChar c.rooms (c.calls l) c'.rooms := by
  cases l with
  | accept now =>
    cases h
    exact (Makes.nil _).quiet
  | receive s packetId body =>
    cases h
    exact (Makes.nil _).quiet
  | close s =>
    cases h
    exact (Makes.nil _).quiet
  | beginUpdate traversal now =>
    obtain ⟨p', hp', rfl⟩ := Server.step_begin h
    exact PacketProcessor.sweepRooms_calls hp'
  | endUpdate first second traversal now =>
    obtain ⟨p', hp', rfl⟩ := Server.step_end h
    obtain ⟨hrooms, -⟩ := PacketProcessor.checkLoginTimeouts_twice c.processor first second
    have hmade := PacketProcessor.sweepRooms_calls hp'
    rw [hrooms] at hmade
    exact hmade
  | event loginNow gameNow =>
    obtain ⟨event, rest, p', hevents, hp', rfl⟩ := Server.step_event h
    have hcalls : c.calls (.event loginNow gameNow) =
        c.processor.calls event loginNow gameNow := by
      rw [Server.calls, hevents]
    rw [hcalls]
    exact PacketProcessor.handleEvent_calls
      (p := { c.processor with network := { c.network with events := rest } }) hc.rooms
      (fun hin => (hc.connected _ hin).1) hp'

/-- The calls that were made in the step `e`: its own, and then the results are popped. -/
structure CallsOf (wideChars : Bytes → Nat) (e : Entry Server Input)
    (made : List (Entry Managed (Call × Answer))) : Prop where
  run : ∃ leaving leaving',
    Run (CallStep wideChars) ⟨e.pre.rooms, leaving⟩ made ⟨e.post.rooms, leaving'⟩
  calls : ∃ pops, made.map (fun call => call.label.1) =
    e.pre.calls e.label ++ List.replicate pops .tryPopFinishedGame

/-- Every run of the server is a run of calls on the managers, step by step: a request is answered by
the one call that its body stands for, for the session that it came from, and there are no calls but
those of `Server.calls` and the pops of the results that follow them. -/
theorem rooms_called {host : Host} {timeout : Time} {p : PacketProcessor}
    {history : List (Entry Server Input)} {c : Server}
    (hmake : PacketProcessor.make {} timeout = .ok p) (hrun : ServerRun host p history c) :
    RoomManager.make {} {} = .ok p.rooms ∧
      ∃ made leaving, CallRun host.multiByteToWideChar p.rooms made.flatten ⟨c.rooms, leaving⟩ ∧
        List.Forall₂ (CallsOf host.multiByteToWideChar) history made := by
  refine ⟨(PacketProcessor.make_eq hmake).1, ?_⟩
  induction hrun with
  | start => exact ⟨[], none, .start, .nil⟩
  | snoc hbefore htaken ih =>
    obtain ⟨made, leaving, hcalls, hmade⟩ := ih
    obtain ⟨pops, hstep⟩ := htaken.calls (ServerRun.sound hmake hbefore)
    obtain ⟨last, leaving', hlast, hlabels⟩ := hstep leaving
    refine ⟨made ++ [last], leaving', ?_, ?_⟩
    · rw [List.flatten_append, List.flatten_singleton]
      exact hcalls.append hlast
    · have hof : CallsOf host.multiByteToWideChar ⟨_, _, _⟩ last :=
        ⟨⟨leaving, leaving', hlast⟩, pops, hlabels⟩
      exact List.rel_append hmade (.cons hof .nil)

theorem rooms_called_playing : ∃ history c made leaving room,
    ServerRun Host.ascii PacketProcessor.fresh history c ∧ c.rooms.On 1 room ∧
      CallRun Host.ascii.multiByteToWideChar .fresh made.flatten ⟨c.rooms, leaving⟩ ∧
        List.Forall₂ (CallsOf Host.ascii.multiByteToWideChar) history made := by
  obtain ⟨history, c, hrun, hcheck⟩ := ServerRun.played Host.ascii PacketProcessor.fresh
    (playingInputs ++ [.finish])
    (fun _ c => (c.rooms.rooms[(1 : RoomId)]?).any fun room : Room => decide (room.phase = .playing))
    (by decide +kernel)
  obtain ⟨room, hroom, hphase⟩ := (Option.any_eq_true _ _).mp hcheck
  obtain ⟨-, made, leaving, hcalls, hmade⟩ := rooms_called PacketProcessor.make_fresh hrun
  exact ⟨history, c, made, leaving, room, hrun, ⟨hroom, of_decide_eq_true hphase⟩, hcalls, hmade⟩

end SelectServer
