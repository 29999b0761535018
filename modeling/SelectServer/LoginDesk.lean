import SelectServer.SessionStreams

/- What the logic knows of a session before and after its login: the users under
   both of their indices and the pending login deadlines (`Desk`). Sending leaves
   the desk as it is, and of all requests only a login that succeeds changes who is
   known. -/
namespace SelectServer
open Wire (Bytes)
open Histories

/-! ## The users of the managers -/

/-- The same sessions are logged in under the same nicknames. -/
structure UserManager.SameNames (m m' : UserManager) : Prop where
  index : m'.sessionByNickname = m.sessionByNickname
  names : ∀ s : SessionId, (m'.users[s]?).map User.nickname = (m.users[s]?).map User.nickname

namespace UserManager
variable {m m1 m' : UserManager} {s : SessionId}

theorem SameNames.refl (m : UserManager) : SameNames m m := ⟨rfl, fun _ => rfl⟩

theorem SameNames.trans (h : SameNames m m1) (h' : SameNames m1 m') : SameNames m m' :=
  ⟨h'.index.trans h.index, fun s => (h'.names s).trans (h.names s)⟩

theorem SameNames.isSome (h : SameNames m m') (s : SessionId) :
    (m'.users[s]?).isSome = (m.users[s]?).isSome := by
  have hs := congrArg Option.isSome (h.names s)
  simpa using hs

/-- A write through the pointer to a user that leaves its name alone. -/
theorem sameNames_update {u u' : User} (hu : m.users[s]? = some u) (hname : u'.nickname = u.nickname) :
    SameNames m (m.update s u') where
  index := rfl
  names s' := by
    simp only [UserManager.update]
    by_cases hs : s' = s
    · subst hs
      simp [hu, hname]
    · have hne : s ≠ s' := fun e => hs e.symm
      grind

end UserManager

theorem RoomManager.depart_sameNames {m : RoomManager} {s : SessionId} {u : User} (room : Room)
    (hu : m.users.users[s]? = some u) : m.users.SameNames (m.depart s u room).users := by
  have hwrite : m.users.SameNames (m.users.update s u.returnToLobby) :=
    UserManager.sameNames_update hu rfl
  unfold depart
  dsimp only
  split <;> exact hwrite

/-- Only `Login` and `Remove` change who is logged in. -/
theorem Effect.sameNames {wideChars : Bytes → Nat} {m m' : RoomManager} {l : Call} {a : Answer}
    (he : Effect wideChars m l a m') (hlogin : ∀ s nickname, l ≠ .login s nickname)
    (hremove : ∀ s, l ≠ .remove s) : m.users.SameNames m'.users := by
  cases he with
  | refused => exact .refl _
  | loggedIn => exact absurd rfl (hlogin _ _)
  | removed => exact absurd rfl (hremove _)
  | created hidle => exact UserManager.sameNames_update hidle.user rfl
  | entered hidle => exact UserManager.sameNames_update hidle.user rfl
  | readied => exact .refl _
  | started => exact .refl _
  | moved =>
    unfold RoomManager.moved
    split <;> exact .refl _
  | expired => exact .refl _
  | resigned => exact .refl _
  | @left s u room room1 m1 reason now hseat hreason hclosed =>
    have husers : m1.users = m.users := by cases hclosed <;> rfl
    have hdepart := RoomManager.depart_sameNames room1 (husers ▸ hseat.user)
    rw [husers] at hdepart
    exact hdepart
  | swept =>
    rw [RoomManager.foldl_expire_users]
    exact .refl _
  | popped => exact .refl _

theorem RoomManager.WellFormed.call_sameNames {wideChars : Bytes → Nat} {m m' : RoomManager}
    (h : m.WellFormed) {l : Call} {a : Answer} (hcall : m.call wideChars l = .ok (a, m'))
    (hlogin : ∀ s nickname, l ≠ .login s nickname) (hremove : ∀ s, l ≠ .remove s) :
    m.users.SameNames m'.users :=
  (h.call_effect hcall).sameNames hlogin hremove

/-! ## Sending -/

/-- What the logic keeps of sessions that are not in a room. -/
structure Desk where
  users : UserManager
  loginDeadlines : Map SessionId Time
  loginTimeout : { t : Time // 0 < t }

namespace PacketProcessor
variable {host : Host} {p p' : PacketProcessor}

def desk (p : PacketProcessor) : Desk := ⟨p.rooms.users, p.loginDeadlines, p.loginTimeout⟩

@[simp] theorem deliver_desk (packets : List SentPacket) : (p.deliver host packets).desk = p.desk :=
  rfl

@[simp] theorem disconnect_desk (s : SessionId) : (p.disconnect s).desk = p.desk := rfl

@[simp] theorem sendOrDisconnect_desk (packet : SentPacket) :
    (p.sendOrDisconnect host packet).2.desk = p.desk := by
  rw [sendOrDisconnect_eq, deliver_desk]

@[simp] theorem broadcast_desk (targets : List SessionId) (packetId : UInt16) (body : Bytes) :
    (p.broadcast host targets packetId body).desk = p.desk := by
  rw [broadcast_eq, deliver_desk]

@[simp] theorem sendRoomActionResult_desk (s : SessionId) (rid : UInt16) (result : RoomResult)
    (roomId : RoomId) : (p.sendRoomActionResult host s rid result roomId).2.desk = p.desk := by
  unfold sendRoomActionResult
  dsimp only
  split
  · rfl
  · exact sendOrDisconnect_desk _

@[simp] theorem sendChatResult_desk (s : SessionId) (result : ChatResult) :
    (p.sendChatResult host s result).2.desk = p.desk :=
  sendOrDisconnect_desk _

@[simp] theorem sendGameMoveResult_desk (s : SessionId) (result : GameMoveResult) (g : GameId) :
    (p.sendGameMoveResult host s result g).2.desk = p.desk := by
  unfold sendGameMoveResult
  split
  · rfl
  · exact sendOrDisconnect_desk _

@[simp] theorem notifyRoomMember_desk (r : RoomId) (change : RoomMemberChange) (nickname : Bytes) :
    (p.notifyRoomMember host r change nickname).desk = p.desk := by
  rw [notifyRoomMember_eq, deliver_desk]

@[simp] theorem notifyRoomState_desk (r : RoomId) : (p.notifyRoomState host r).desk = p.desk := by
  rw [notifyRoomState_eq, deliver_desk]

theorem foldl_disconnect_desk (targets : List SessionId) :
    ∀ p : PacketProcessor, (targets.foldl disconnect p).desk = p.desk := by
  induction targets with
  | nil => exact fun _ => rfl
  | cons target targets ih => exact fun p => ih (p.disconnect target)

@[simp] theorem announce_desk (finished : FinishedGame) :
    (p.announce host finished).desk = p.desk := by
  unfold announce
  split
  · exact foldl_disconnect_desk _ _
  · rw [notifyRoomState_desk, broadcast_desk]

theorem flushLoop_desk (fuel : Nat) :
    ∀ p : PacketProcessor, (flushLoop host fuel p).desk = p.desk := by
  induction fuel with
  | zero => exact fun _ => rfl
  | succ fuel ih =>
    intro p
    unfold flushLoop RoomManager.tryPopFinishedGame
    cases p.rooms.finishedGames with
    | nil => rfl
    | cons finished rest =>
      dsimp only
      rw [ih, announce_desk]
      rfl

@[simp] theorem flushFinishedGames_desk : (p.flushFinishedGames host).desk = p.desk :=
  flushLoop_desk _ p

@[simp] theorem welcome_desk (s : SessionId) (rid : UInt16) (result : RoomResult) (r : RoomId) :
    (welcome host p s rid result r).desk = p.desk := by
  unfold welcome
  dsimp only
  split
  · exact sendRoomActionResult_desk _ _ _ _
  split
  · exact sendRoomActionResult_desk _ _ _ _
  · rw [notifyRoomState_desk, notifyRoomMember_desk, sendRoomActionResult_desk]

@[simp] theorem answerInRoom_desk (s : SessionId) (rid : UInt16) (result : RoomResult) :
    (answerInRoom host p s rid result).desk = p.desk := by
  unfold answerInRoom
  dsimp only
  split
  · rw [notifyRoomState_desk, sendRoomActionResult_desk]
  · exact sendRoomActionResult_desk _ _ _ _

end PacketProcessor

/-! ## Requests -/

/-- What a request of `s` does to the desk: nothing that concerns who is known, or a login. -/
inductive Desk.Serves (s : SessionId) (d : Desk) : Desk → Prop
  | kept {users : UserManager} (hsame : d.users.SameNames users) :
      Serves s d { d with users := users }
  | loggedIn {nickname : Bytes} (hnew : d.users.users[s]? = none)
      (hfree : d.users.sessionByNickname[nickname]? = none) :
      Serves s d { d with
        users := d.users.add s nickname
        loginDeadlines := d.loginDeadlines.erase s }

theorem Desk.Serves.refl (s : SessionId) (d : Desk) : Desk.Serves s d d := .kept (.refl d.users)

namespace PacketProcessor
variable {host : Host} {p p' : PacketProcessor} {event : NetworkEvent} {now : Time}

theorem handleLogin_desk : Desk.Serves event.session p.desk (handleLogin host p event).desk := by
  unfold handleLogin
  split
  · exact .refl _ _
  rename_i request _
  rcases RoomManager.login_spec p.rooms.users event.session request.nickname with
    ⟨result, hne, e⟩ | ⟨hnew, -, hfree, e⟩
  · simp only [e, sendOrDisconnect_desk, if_neg hne]
    exact .refl _ _
  · simp only [e, sendOrDisconnect_desk, if_true]
    exact .loggedIn hnew hfree

theorem handleEcho_desk : (handleEcho host p event).desk = p.desk := by
  unfold handleEcho
  exact sendOrDisconnect_desk _

theorem handleChat_desk : (handleChat host p event).desk = p.desk := by
  unfold handleChat
  split
  · exact sendChatResult_desk _ _
  split
  · exact sendChatResult_desk _ _
  split
  · exact sendChatResult_desk _ _
  split
  · exact sendChatResult_desk _ _
  split
  · exact disconnect_desk _
  split
  · exact sendChatResult_desk _ _
  split
  · exact disconnect_desk _
  dsimp only
  split
  · exact sendChatResult_desk _ _
  split
  · rw [sendChatResult_desk, sendChatResult_desk]
  · rw [broadcast_desk, sendChatResult_desk, sendChatResult_desk]

theorem handleRoomCreate_desk (hok : p.rooms.Ok) (h : handleRoomCreate host p event = .ok p') :
    Desk.Serves event.session p.desk p'.desk := by
  unfold handleRoomCreate at h
  split at h
  · cases h
    exact .refl _ _
  rename_i request _
  cases e : RoomManager.createRoom host.multiByteToWideChar p.rooms event.session request.title with
  | error error =>
    rw [e] at h
    cases h
  | ok created =>
    obtain ⟨result, roomId, rooms⟩ := created
    rw [e] at h
    cases h
    have hcall : p.rooms.call host.multiByteToWideChar (.createRoom event.session request.title) =
        .ok (.created result roomId, rooms) := by
      rw [RoomManager.call, e]
      rfl
    rw [welcome_desk]
    exact .kept (hok.wellFormed.call_sameNames hcall (by simp) (by simp))

theorem handleRoomList_desk : (handleRoomList host p event).desk = p.desk := by
  unfold handleRoomList
  split
  · exact disconnect_desk _
  dsimp only
  split
  · exact disconnect_desk _
  · exact sendOrDisconnect_desk _

theorem handleRoomEnter_desk (hok : p.rooms.Ok) :
    Desk.Serves event.session p.desk (handleRoomEnter host p event).desk := by
  unfold handleRoomEnter
  split
  · exact .refl _ _
  rename_i request _
  dsimp only
  rw [welcome_desk]
  have hcall : p.rooms.call host.multiByteToWideChar (.enterRoom event.session request.roomId) =
      .ok (.room (p.rooms.enterRoom event.session request.roomId).1,
        (p.rooms.enterRoom event.session request.roomId).2) := rfl
  exact .kept (hok.wellFormed.call_sameNames hcall (by simp) (by simp))

theorem handleRoomLeave_desk (hok : p.rooms.Ok) (h : handleRoomLeave host p event now = .ok p') :
    Desk.Serves event.session p.desk p'.desk := by
  unfold handleRoomLeave at h
  split at h
  · cases h
    exact .refl _ _
  split at h
  · cases h
    rw [sendRoomActionResult_desk]
    exact .refl _ _
  rename_i user _
  cases e : p.rooms.leaveRoom event.session .leftRoom now with
  | error error =>
    rw [e] at h
    cases h
  | ok left =>
    obtain ⟨result, rooms⟩ := left
    have hcall : p.rooms.call host.multiByteToWideChar (.leaveRoom event.session .leftRoom now) =
        .ok (.room result, rooms) := by
      rw [RoomManager.call, e]
      rfl
    have hsame := hok.wellFormed.call_sameNames hcall (by simp) (by simp)
    simp only [e, bind, Except.bind] at h
    split at h
    · cases h
      rw [notifyRoomState_desk, notifyRoomMember_desk, sendRoomActionResult_desk,
        flushFinishedGames_desk]
      exact .kept hsame
    · cases h
      rw [sendRoomActionResult_desk, flushFinishedGames_desk]
      exact .kept hsame

theorem handleRoomReady_desk (hok : p.rooms.Ok) :
    Desk.Serves event.session p.desk (handleRoomReady host p event).desk := by
  unfold handleRoomReady
  split
  · exact .refl _ _
  rename_i request _
  dsimp only
  rw [answerInRoom_desk]
  have hcall : p.rooms.call host.multiByteToWideChar (.setReady event.session request.ready) =
      .ok (.room (p.rooms.setReady event.session request.ready).1,
        (p.rooms.setReady event.session request.ready).2) := rfl
  exact .kept (hok.wellFormed.call_sameNames hcall (by simp) (by simp))

theorem handleRoomStart_desk (hok : p.rooms.Ok) :
    Desk.Serves event.session p.desk (handleRoomStart host p event now).desk := by
  unfold handleRoomStart
  split
  · exact .refl _ _
  dsimp only
  rw [answerInRoom_desk]
  have hcall : p.rooms.call host.multiByteToWideChar (.startGame event.session now) =
      .ok (.room (p.rooms.startGame event.session now).1,
        (p.rooms.startGame event.session now).2) := rfl
  exact .kept (hok.wellFormed.call_sameNames hcall (by simp) (by simp))

theorem handleGameMove_desk (hok : p.rooms.Ok) (h : handleGameMove host p event now = .ok p') :
    Desk.Serves event.session p.desk p'.desk := by
  unfold handleGameMove at h
  split at h
  · cases h
    exact .refl _ _
  rename_i request _
  cases e : p.rooms.placeStone event.session request.roomId request.game request.x.toNat
      request.y.toNat {} now with
  | error error =>
    rw [e] at h
    cases h
  | ok placed =>
    obtain ⟨result, accepted, rooms⟩ := placed
    have hcall : p.rooms.call host.multiByteToWideChar (.placeStone event.session request.roomId
        request.game request.x.toNat request.y.toNat {} now) =
          .ok (.placed result accepted, rooms) := by
      rw [RoomManager.call, e]
      rfl
    have hsame := hok.wellFormed.call_sameNames hcall (by simp) (by simp)
    simp only [e, bind, Except.bind] at h
    split at h
    · cases h
      rw [sendGameMoveResult_desk]
      exact .kept hsame
    split at h
    · cases h
      exact .kept hsame
    split at h
    · cases h
      rw [foldl_disconnect_desk]
      exact .kept hsame
    · cases h
      rw [broadcast_desk, sendGameMoveResult_desk]
      exact .kept hsame

theorem handleGameResign_desk (hok : p.rooms.Ok) (h : handleGameResign host p event now = .ok p') :
    Desk.Serves event.session p.desk p'.desk := by
  unfold handleGameResign at h
  split at h
  · cases h
    exact .refl _ _
  rename_i request _
  cases e : p.rooms.resign event.session request.roomId request.game now with
  | error error =>
    rw [e] at h
    cases h
  | ok resigned =>
    obtain ⟨result, rooms⟩ := resigned
    have hcall : p.rooms.call host.multiByteToWideChar (.resign event.session request.roomId
        request.game now) = .ok (.resigned result, rooms) := by
      rw [RoomManager.call, e]
      rfl
    have hsame := hok.wellFormed.call_sameNames hcall (by simp) (by simp)
    simp only [e, bind, Except.bind] at h
    split at h
    · cases h
      exact .kept hsame
    · cases h
      rw [sendOrDisconnect_desk]
      exact .kept hsame

/-- Every request leaves the desk as it is, or is a login that succeeds. -/
theorem processPacket_desk (hok : p.rooms.Ok) (h : processPacket host p event now = .ok p') :
    Desk.Serves event.session p.desk p'.desk := by
  have hsame : ∀ {p1 : PacketProcessor}, p1.desk = p.desk →
      (Except.ok p1 : Except LogicError PacketProcessor) = .ok p' →
        Desk.Serves event.session p.desk p'.desk := by
    intro p1 hdesk e
    cases e
    rw [hdesk]
    exact .refl _ _
  have hdispatches := processPacket_dispatches host p event now
  generalize processPacket host p event now = r at h hdispatches
  cases hdispatches with
  | login =>
    cases h
    exact handleLogin_desk
  | echo => exact hsame handleEcho_desk h
  | chat => exact hsame handleChat_desk h
  | roomCreate => exact handleRoomCreate_desk hok h
  | roomList => exact hsame handleRoomList_desk h
  | roomEnter =>
    cases h
    exact handleRoomEnter_desk hok
  | roomLeave => exact handleRoomLeave_desk hok h
  | roomReady =>
    cases h
    exact handleRoomReady_desk hok
  | roomStart =>
    cases h
    exact handleRoomStart_desk hok
  | gameMove => exact handleGameMove_desk hok h
  | gameResign => exact handleGameResign_desk hok h
  | unknown => exact hsame (disconnect_desk _) h

/-! ## Leaving -/

theorem remove_users (m : UserManager) (a s : SessionId) :
    (m.remove a).users[s]? = if s = a then none else m.users[s]? := by
  unfold UserManager.remove UserManager.find
  cases hu : m.users[a]? with
  | none =>
    by_cases hs : s = a
    · rw [if_pos hs, hs]
      exact hu
    · rw [if_neg hs]
  | some user =>
    dsimp only
    grind

/-- After its `Disconnected` event nothing is known of a session. -/
theorem handleDisconnected_desk (hok : p.rooms.Ok) {a : SessionId}
    (h : handleDisconnected host p a now = .ok p') :
    ∃ users, p.rooms.users.SameNames users ∧
      p'.desk = ⟨users.remove a, p.loginDeadlines.erase a, p.loginTimeout⟩ := by
  unfold handleDisconnected at h
  dsimp only at h
  cases hu : p.rooms.users.find a with
  | none =>
    rw [hu] at h
    cases h
    refine ⟨p.rooms.users, .refl _, ?_⟩
    have hremove : p.rooms.users.remove a = p.rooms.users := by
      unfold UserManager.remove
      rw [hu]
    rw [hremove]
    rfl
  | some user =>
    rw [hu] at h
    dsimp only at h
    cases e : p.rooms.leaveRoom a .disconnected now with
    | error error =>
      rw [e] at h
      cases h
    | ok left =>
      obtain ⟨result, rooms⟩ := left
      have hcall : p.rooms.call host.multiByteToWideChar (.leaveRoom a .disconnected now) =
          .ok (.room result, rooms) := by
        rw [RoomManager.call, e]
        rfl
      refine ⟨rooms.users, hok.wellFormed.call_sameNames hcall (by simp) (by simp), ?_⟩
      simp only [e, bind, Except.bind] at h
      split at h
      · cases h
        rw [notifyRoomState_desk, notifyRoomMember_desk, flushFinishedGames_desk]
        rfl
      · cases h
        rw [flushFinishedGames_desk]
        rfl

theorem sweepRooms_desk (hok : p.rooms.Ok) {traversal : Traversal RoomId}
    (h : sweepRooms host p traversal now = .ok p') :
    ∃ users, p.rooms.users.SameNames users ∧ p'.desk = { p.desk with users := users } := by
  unfold sweepRooms at h
  cases e : p.rooms.updateTimeouts traversal now with
  | error error =>
    rw [e] at h
    cases h
  | ok rooms =>
    have hcall : p.rooms.call host.multiByteToWideChar (.updateTimeouts traversal now) =
        .ok (.none, rooms) := by
      rw [RoomManager.call, e]
      rfl
    rw [e] at h
    cases h
    refine ⟨rooms.users, hok.wellFormed.call_sameNames hcall (by simp) (by simp), ?_⟩
    rw [flushFinishedGames_desk]
    rfl

end PacketProcessor
end SelectServer
