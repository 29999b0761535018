import SelectServer.Lib.History
import SelectServer.RoomCalls

/- Runs of `UserManager` and `RoomManager` calls, each with any arguments, where
   `Remove` comes only right after a `LeaveRoom` of the same session that freed
   its seat. `reachable_consistent`: users and rooms agree after every run. -/
namespace SelectServer
open Wire (Bytes)
open Histories

/-- A call with its arguments. -/
inductive Call where
  | login (sessionId : SessionId) (nickname : Bytes)
  | remove (sessionId : SessionId)
  | createRoom (sessionId : SessionId) (title : Bytes)
  | enterRoom (sessionId : SessionId) (roomId : RoomId)
  | leaveRoom (sessionId : SessionId) (reason : GameEndReason) (now : Time)
  | setReady (sessionId : SessionId) (ready : Bool)
  | startGame (sessionId : SessionId) (now : Time)
  | placeStone (sessionId : SessionId) (roomId : RoomId) (gameId : GameId) (x y : Int)
      (out : AcceptedMove) (now : Time)
  | resign (sessionId : SessionId) (roomId : RoomId) (gameId : GameId) (now : Time)
  | updateTimeouts (traversal : Traversal RoomId) (now : Time)
  | tryPopFinishedGame

/-- What a call returns, with its out parameters. -/
inductive Answer where
  | none
  | login (result : LoginResult)
  | created (result : RoomResult) (roomId : RoomId)
  | room (result : RoomResult)
  | placed (result : GameMoveResult) (move : AcceptedMove)
  | resigned (result : GameMoveResult)
  | popped (finished : Option FinishedGame)
  deriving DecidableEq, Repr

namespace RoomManager

def call (wideChars : Bytes → Nat) (m : RoomManager) : Call → Except LogicError (Answer × RoomManager)
  | .login s nickname =>
    let (result, users) := m.users.login s nickname
    .ok (.login result, { m with users := users })
  | .remove s => .ok (.none, { m with users := m.users.remove s })
  | .createRoom s title => (createRoom wideChars m s title).map fun (result, roomId, m) =>
      (.created result roomId, m)
  | .enterRoom s roomId =>
    let (result, m) := m.enterRoom s roomId
    .ok (.room result, m)
  | .leaveRoom s reason now => (m.leaveRoom s reason now).map fun (result, m) => (.room result, m)
  | .setReady s ready =>
    let (result, m) := m.setReady s ready
    .ok (.room result, m)
  | .startGame s now =>
    let (result, m) := m.startGame s now
    .ok (.room result, m)
  | .placeStone s r g x y out now => (m.placeStone s r g x y out now).map fun (result, out, m) =>
      (.placed result out, m)
  | .resign s r g now => (m.resign s r g now).map fun (result, m) => (.resigned result, m)
  | .updateTimeouts traversal now => (m.updateTimeouts traversal now).map fun m => (.none, m)
  | .tryPopFinishedGame =>
    let (finished, m) := m.tryPopFinishedGame
    .ok (.popped finished, m)

end RoomManager

/-- The managers, and the session that has just left its room for good, if any. -/
structure Managed where
  manager : RoomManager
  leaving : Option SessionId := none

/-- The session that `Remove` may be called for next. -/
def leavingAfter : Call → Answer → Option SessionId
  | .leaveRoom s _ _, .room .success => some s
  | .leaveRoom s _ _, .room .notInRoom => some s
  | _, _ => none

/-- The calls its callers make: a login of a real session, and `Remove` only after `LeaveRoom`. -/
def Managed.allows (c : Managed) : Call → Bool
  | .login s _ => s ≠ 0
  | .remove s => c.leaving = some s
  | _ => true

/-- One call as its callers make it. -/
structure CallStep (wideChars : Bytes → Nat) (c : Managed) (l : Call × Answer) (c' : Managed) :
    Prop where
  returned : c.manager.call wideChars l.1 = .ok (l.2, c'.manager)
  leaving : c'.leaving = leavingAfter l.1 l.2
  allowed : c.allows l.1 = true

/-! ## What one call can do -/

def Answer.accepted : Answer → Bool
  | .login result => result = .success
  | .created result _ => result = .success
  | .room result => result = .success
  | .placed result _ => result = .success
  | .resigned result => result = .success
  | .popped finished => finished.isSome
  | .none => false

/-- The session and the time of a call that can meet an expired turn of its own room. -/
def Call.actor : Call → Option (SessionId × Time)
  | .placeStone s _ _ _ _ _ now => some (s, now)
  | .resign s _ _ now => some (s, now)
  | _ => none

/-- Everything a call can do to well-formed rooms. -/
inductive Effect (wideChars : Bytes → Nat) (m : RoomManager) :
    Call → Answer → RoomManager → Prop
  | refused {l : Call} {a : Answer} (h : a.accepted = false) : Effect wideChars m l a m
  | loggedIn {s : SessionId} {nickname : Bytes} (hnew : m.users.users[s]? = none)
      (hname : UserManager.isValidNickname nickname = true)
      (hfree : m.users.sessionByNickname[nickname]? = none) :
      Effect wideChars m (.login s nickname) (.login .success)
        { m with users := m.users.add s nickname }
  | removed {s : SessionId} :
      Effect wideChars m (.remove s) .none { m with users := m.users.remove s }
  | created {s : SessionId} {u : User} {title : Bytes} (hidle : m.Idle s u)
      (htitle : RoomManager.isValidTitle wideChars title = true)
      (hspace : m.rooms.size < m.config.val.maxRooms) (hlast : m.lastRoomId ≠ 0xffffffff) :
      Effect wideChars m (.createRoom s title) (.created .success (m.lastRoomId + 1))
        (m.created s u (m.newRoom s title))
  | entered {s : SessionId} {u : User} {room : Room} (hidle : m.Idle s u)
      (hroom : m.rooms[room.id]? = some room) (hwait : room.phase = .waiting)
      (hnew : s ∉ room.members) (hfree : room.members.length < 2) :
      Effect wideChars m (.enterRoom s room.id) (.room .success) (m.entered s u room)
  | readied {s : SessionId} {u : User} {room : Room} {ready : Bool} (hseat : m.Seated s u room)
      (hwait : room.phase = .waiting) (hguest : s ≠ room.hostSession) :
      Effect wideChars m (.setReady s ready) (.room .success)
        (m.store room.id (room.setReady s ready))
  | started {s guest : SessionId} {u : User} {room : Room} {now : Time}
      (hseat : m.Seated s u room) (hwait : room.phase = .waiting) (hhost : room.hostSession = s)
      (hpair : room.members = [s, guest]) (hne : guest ≠ s) (hready : guest ∈ room.readyMembers)
      (hlast : m.lastGameId ≠ 0xffffffff) :
      Effect wideChars m (.startGame s now) (.room .success) (m.started room now)
  | moved {s : SessionId} {u : User} {room : Room} {x y : Int} {out : AcceptedMove} {now : Time}
      (hseat : m.Seated s u room) (hnum : room.gameId ≠ 0) (hlive : ¬ room.isTurnExpired now = true)
      (hphase : room.phase = .playing) (hacc : room.game.Accepts (room.getPlayerStone s) x y) :
      Effect wideChars m (.placeStone s room.id room.gameId x y out now)
        (.placed .success (RoomManager.acceptedMove room (room.getPlayerStone s) x y
          (room.game.tryPlaceStone (room.getPlayerStone s) x y).2))
        (m.moved room (room.game.tryPlaceStone (room.getPlayerStone s) x y).2 now)
  | expired {l : Call} {a : Answer} {s : SessionId} {u : User} {room : Room} {now : Time}
      (hactor : l.actor = some (s, now)) (ha : a.accepted = false) (hseat : m.Seated s u room)
      (he : room.isTurnExpired now = true) :
      Effect wideChars m l a (m.settle (room.conceded room.game.nextTurn) .turnTimeout)
  | resigned {s : SessionId} {u : User} {room : Room} {now : Time} (hseat : m.Seated s u room)
      (hnum : room.gameId ≠ 0) (hlive : ¬ room.isTurnExpired now = true)
      (hphase : room.phase = .playing) :
      Effect wideChars m (.resign s room.id room.gameId now) (.resigned .success)
        (m.settle (room.conceded (room.getPlayerStone s)) .resigned)
  | left {s : SessionId} {u : User} {room room1 : Room} {m1 : RoomManager}
      {reason : GameEndReason} {now : Time} (hseat : m.Seated s u room)
      (hreason : reason = .leftRoom ∨ reason = .disconnected)
      (hclosed : m.Closed s room reason now m1 room1) :
      Effect wideChars m (.leaveRoom s reason now) (.room .success) (m1.depart s u room1)
  | swept {traversal : Traversal RoomId} {now : Time} :
      Effect wideChars m (.updateTimeouts traversal now) .none
        ((traversal.order m.rooms.keys).foldl (RoomManager.expire now) m)
  | popped {finished : FinishedGame} {rest : List FinishedGame}
      (hq : m.finishedGames = finished :: rest) :
      Effect wideChars m .tryPopFinishedGame (.popped (some finished))
        { m with finishedGames := rest }

theorem RoomManager.WellFormed.call_effect {wideChars : Bytes → Nat} {m m' : RoomManager}
    (h : m.WellFormed) {l : Call} {a : Answer} (hcall : m.call wideChars l = .ok (a, m')) :
    Effect wideChars m l a m' := by
  -- the spec lemma of each operation, read as a constructor
  cases l with
  | login s nickname =>
    rcases RoomManager.login_spec m.users s nickname with
      ⟨result, hne, e⟩ | ⟨hnew, hname, hfree, e⟩ <;>
      simp only [RoomManager.call, e, Except.ok.injEq, Prod.mk.injEq] at hcall <;>
      obtain ⟨rfl, rfl⟩ := hcall
    · exact .refused (by simp [Answer.accepted, hne])
    · exact .loggedIn hnew hname hfree
  | remove s =>
    simp only [RoomManager.call, Except.ok.injEq, Prod.mk.injEq] at hcall
    obtain ⟨rfl, rfl⟩ := hcall
    exact .removed
  | createRoom s title =>
    rcases RoomManager.createRoom_spec h wideChars s title with
      ⟨result, hne, e⟩ | ⟨u, hidle, htitle, hspace, hlast, e⟩ <;>
      simp only [RoomManager.call, e, Except.map, Except.ok.injEq, Prod.mk.injEq] at hcall <;>
      obtain ⟨rfl, rfl⟩ := hcall
    · exact .refused (by simp [Answer.accepted, hne.1])
    · exact .created hidle htitle hspace hlast
  | enterRoom s roomId =>
    rcases RoomManager.enterRoom_spec h s roomId with
      ⟨result, hne, e⟩ | ⟨u, room, hidle, rfl, hroom, hwait, hnew, hfree, e⟩ <;>
      simp only [RoomManager.call, e, Except.ok.injEq, Prod.mk.injEq] at hcall <;>
      obtain ⟨rfl, rfl⟩ := hcall
    · exact .refused (by simp [Answer.accepted, hne.1])
    · exact .entered hidle hroom hwait hnew hfree
  | leaveRoom s reason now =>
    by_cases hreason : reason = .leftRoom ∨ reason = .disconnected
    · rcases RoomManager.leaveRoom_spec h s now hreason with
        ⟨-, e⟩ | ⟨u, -, e⟩ | ⟨u, room, m1, room1, hseat, hclosed, e⟩ <;>
        simp only [RoomManager.call, e, Except.map, Except.ok.injEq, Prod.mk.injEq] at hcall <;>
        obtain ⟨rfl, rfl⟩ := hcall
      · exact .refused rfl
      · exact .refused rfl
      · exact .left hseat hreason hclosed
    · have hthrow : reason ≠ .leftRoom ∧ reason ≠ .disconnected := by tauto
      simp only [RoomManager.call, RoomManager.leaveRoom, if_pos hthrow] at hcall
      cases hcall
  | setReady s ready =>
    rcases RoomManager.setReady_spec h s ready with
      ⟨result, hne, e⟩ | ⟨u, room, hseat, hwait, hguest, e⟩ <;>
      simp only [RoomManager.call, e, Except.ok.injEq, Prod.mk.injEq] at hcall <;>
      obtain ⟨rfl, rfl⟩ := hcall
    · exact .refused (by simp [Answer.accepted, hne.1])
    · exact .readied hseat hwait hguest
  | startGame s now =>
    rcases RoomManager.startGame_spec h s now with
      ⟨result, hne, e⟩ | ⟨u, room, guest, hseat, hwait, hhost, hpair, hne, hready, hlast, e⟩ <;>
      simp only [RoomManager.call, e, Except.ok.injEq, Prod.mk.injEq] at hcall <;>
      obtain ⟨rfl, rfl⟩ := hcall
    · exact .refused (by simp [Answer.accepted, hne.1])
    · exact .started hseat hwait hhost hpair hne hready hlast
  | placeStone s r g x y out now =>
    rcases RoomManager.placeStone_spec h s r g x y out now with
      ⟨result, hne, e⟩ | ⟨u, room, hseat, rfl, hg, rfl, ⟨he, e⟩ | ⟨hlive, hphase, hacc, e⟩⟩ <;>
      simp only [RoomManager.call, e, Except.map, Except.ok.injEq, Prod.mk.injEq] at hcall <;>
      obtain ⟨rfl, rfl⟩ := hcall
    · exact .refused (by simp [Answer.accepted, hne.1])
    · exact .expired rfl rfl hseat he
    · exact .moved hseat hg hlive hphase hacc
  | resign s r g now =>
    rcases RoomManager.resign_spec h s r g now with
      ⟨result, hne, e⟩ | ⟨u, room, hseat, rfl, hg, rfl, ⟨he, e⟩ | ⟨hlive, hphase, e⟩⟩ <;>
      simp only [RoomManager.call, e, Except.map, Except.ok.injEq, Prod.mk.injEq] at hcall <;>
      obtain ⟨rfl, rfl⟩ := hcall
    · exact .refused (by simp [Answer.accepted, hne.1])
    · exact .expired rfl rfl hseat he
    · exact .resigned hseat hg hlive hphase
  | updateTimeouts traversal now =>
    simp only [RoomManager.call, RoomManager.updateTimeouts_spec h, Except.map, Except.ok.injEq,
      Prod.mk.injEq] at hcall
    obtain ⟨rfl, rfl⟩ := hcall
    exact .swept
  | tryPopFinishedGame =>
    simp only [RoomManager.call, RoomManager.tryPopFinishedGame] at hcall
    split at hcall <;> simp only [Except.ok.injEq, Prod.mk.injEq] at hcall <;>
      obtain ⟨rfl, rfl⟩ := hcall
    · exact .refused rfl
    · rename_i hq
      exact .popped hq

/-- No call throws on well-formed rooms, but for a wrong reason to leave. -/
theorem RoomManager.WellFormed.call_returns {m : RoomManager} (h : m.WellFormed)
    (wideChars : Bytes → Nat) (l : Call)
    (hreason : ∀ s reason now, l = .leaveRoom s reason now →
      reason = .leftRoom ∨ reason = .disconnected) :
    ∃ a m', m.call wideChars l = .ok (a, m') := by
  cases l with
  | createRoom s title =>
    rcases RoomManager.createRoom_spec h wideChars s title with
      ⟨result, -, e⟩ | ⟨u, -, -, -, -, e⟩ <;> exact ⟨_, _, by rw [RoomManager.call, e]; rfl⟩
  | leaveRoom s reason now =>
    rcases RoomManager.leaveRoom_spec h s now (hreason s reason now rfl) with
      ⟨-, e⟩ | ⟨u, -, e⟩ | ⟨u, room, m1, room1, -, -, e⟩ <;>
      exact ⟨_, _, by rw [RoomManager.call, e]; rfl⟩
  | placeStone s r g x y out now =>
    rcases RoomManager.placeStone_spec h s r g x y out now with
      ⟨result, -, e⟩ | ⟨u, room, -, -, -, -, ⟨-, e⟩ | ⟨-, -, -, e⟩⟩ <;>
      exact ⟨_, _, by rw [RoomManager.call, e]; rfl⟩
  | resign s r g now =>
    rcases RoomManager.resign_spec h s r g now with
      ⟨result, -, e⟩ | ⟨u, room, -, -, -, -, ⟨-, e⟩ | ⟨-, -, e⟩⟩ <;>
      exact ⟨_, _, by rw [RoomManager.call, e]; rfl⟩
  | updateTimeouts traversal now =>
    exact ⟨_, _, by rw [RoomManager.call, RoomManager.updateTimeouts_spec h]; rfl⟩
  | _ => exact ⟨_, _, rfl⟩

/-! ## Users and rooms agree -/

theorem foldl_expire_wellFormed (now : Time) (keys : List RoomId) :
    ∀ {m : RoomManager}, m.WellFormed → (keys.foldl (RoomManager.expire now) m).WellFormed := by
  induction keys with
  | nil => exact fun h => h
  | cons key keys ih => exact fun h => ih (h.expire now key)

theorem RoomManager.isValidTitle_length {wideChars : Bytes → Nat} {title : Bytes}
    (h : isValidTitle wideChars title = true) : title ≠ [] ∧ title.length ≤ maxRoomTitleBytes := by
  simp only [isValidTitle, Bool.and_eq_true, Bool.not_eq_true', decide_eq_true_eq,
    List.isEmpty_eq_false_iff] at h
  exact h.1.1.1

/-- One call keeps users and rooms well formed; a removal does so for a session that has left. -/
theorem Effect.wellFormed {wideChars : Bytes → Nat} {m m' : RoomManager} {l : Call} {a : Answer}
    (he : Effect wideChars m l a m') (h : m.WellFormed)
    (hlogin : ∀ s nickname, l = .login s nickname → s ≠ 0)
    (hremove : ∀ s, l = .remove s → ∀ u, m.users.users[s]? = some u → u.state = .lobby) :
    m'.WellFormed := by
  cases he with
  | refused => exact h
  | loggedIn hnew hname hfree => exact h.add (hlogin _ _ rfl) hnew hname hfree
  | removed => exact h.remove (hremove _ rfl)
  | created hidle htitle hspace hlast =>
    exact h.created hidle.user hidle.state (RoomManager.isValidTitle_length htitle) hspace hlast
  | entered hidle hroom hwait _ hfree => exact h.entered hidle.user hidle.state hroom hwait hfree
  | readied hseat hwait hguest =>
    exact h.store hseat.here (by rfl) (by rfl)
      ((h.room hseat.here).setReady _ hwait hseat.mem hguest)
  | started hseat _ _ hpair _ _ hlast => exact h.started _ hseat.here (by simp [hpair]) hlast
  | moved hseat _ _ hphase _ => exact h.moved hseat.here hphase _ _ _ _
  | expired _ _ hseat he => exact h.expired hseat.here he
  | resigned hseat _ _ hphase => exact h.forfeited hseat .resigned hphase
  | left hseat _ hclosed =>
    obtain ⟨h1, hseat1, -⟩ := h.closed hseat hclosed
    exact h1.depart hseat1.user hseat1.here hseat1.mem
  | swept => exact foldl_expire_wellFormed _ _ h
  | popped => exact h.withRecords _

theorem RoomManager.depart_user (m : RoomManager) (s : SessionId) (u : User) (room : Room) :
    (m.depart s u room).users.users[s]? = some u.returnToLobby := by
  unfold depart
  dsimp only
  split <;> simp [RoomManager.store, updateUser, UserManager.update]

/-- A session that `LeaveRoom` has let go is in the lobby. -/
theorem RoomManager.WellFormed.leaving_lobby {wideChars : Bytes → Nat} {m m' : RoomManager}
    {l : Call} {a : Answer} (h : m.WellFormed) (hcall : m.call wideChars l = .ok (a, m'))
    {s : SessionId} (hleft : leavingAfter l a = some s) {u : User}
    (hu : m'.users.users[s]? = some u) : u.state = .lobby := by
  cases l with
  | leaveRoom s' reason now =>
    by_cases hreason : reason = .leftRoom ∨ reason = .disconnected
    · rcases RoomManager.leaveRoom_spec h s' now hreason with
        ⟨-, e⟩ | ⟨u', hidle, e⟩ | ⟨u', room, m1, room1, hseat, hclosed, e⟩ <;>
        simp only [RoomManager.call, e, Except.map, Except.ok.injEq, Prod.mk.injEq] at hcall <;>
        obtain ⟨rfl, rfl⟩ := hcall
      · cases hleft
      · obtain rfl : s' = s := Option.some.inj hleft
        exact hidle.lobby hu
      · obtain rfl : s' = s := Option.some.inj hleft
        rw [RoomManager.depart_user] at hu
        exact Option.some.inj hu ▸ rfl
    · have hthrow : reason ≠ .leftRoom ∧ reason ≠ .disconnected := by tauto
      simp only [RoomManager.call, RoomManager.leaveRoom, if_pos hthrow] at hcall
      cases hcall
  | _ => cases hleft

structure Managed.WellFormed (c : Managed) : Prop where
  manager : c.manager.WellFormed
  leaving : ∀ s, c.leaving = some s → ∀ u, c.manager.users.users[s]? = some u → u.state = .lobby

theorem CallStep.wellFormed {wideChars : Bytes → Nat} {c c' : Managed} {l : Call × Answer}
    (h : CallStep wideChars c l c') (hc : c.WellFormed) : c'.WellFormed where
  manager := by
    have hallowed := h.allowed
    refine (hc.manager.call_effect h.returned).wellFormed hc.manager ?_ ?_
    · rintro s nickname e
      rw [e] at hallowed
      simpa [Managed.allows] using hallowed
    · rintro s e
      rw [e] at hallowed
      exact hc.leaving s (by simpa [Managed.allows] using hallowed)
  leaving _ hs _ hu := hc.manager.leaving_lobby h.returned (h.leaving ▸ hs) hu

/-- `RoomManager` as it is constructed over no users. -/
theorem make_wellFormed {config : RoomConfig} {m : RoomManager}
    (h : RoomManager.make {} config = .ok m) : m.WellFormed := by
  unfold RoomManager.make at h
  split at h
  · cases h
    constructor <;> simp
  · cases h

/-- The `RoomManager` that `PacketProcessor` starts with. -/
def RoomManager.fresh : RoomManager := { users := {}, config := ⟨{}, by decide⟩ }

theorem RoomManager.make_fresh : RoomManager.make {} {} = .ok RoomManager.fresh := rfl

/-- The runs of calls from an empty `UserManager` and a fresh `RoomManager`. -/
abbrev CallRun (wideChars : Bytes → Nat) (m : RoomManager) :
    List (Entry Managed (Call × Answer)) → Managed → Prop :=
  Run (CallStep wideChars) { manager := m }

theorem run_wellFormed {wideChars : Bytes → Nat} {config : RoomConfig} {m : RoomManager}
    {history : List (Entry Managed (Call × Answer))} {c : Managed}
    (hmake : RoomManager.make {} config = .ok m) (hrun : CallRun wideChars m history c) :
    c.WellFormed :=
  hrun.invariant (P := Managed.WellFormed) ⟨make_wellFormed hmake, fun _ e => by cases e⟩
    fun _ _ _ hc hstep => hstep.wellFormed hc

/-- Users, rooms and games agree with each other. -/
structure RoomManager.Consistent (m : RoomManager) : Prop where
  user : ∀ (s : SessionId) (u : User), m.users.users[s]? = some u →
    (u.state = .lobby ∧ u.roomId = 0 ∧
        ∀ (r : RoomId) (room : Room), m.rooms[r]? = some room → s ∉ room.members) ∨
      (u.state = .inRoom ∧ ∃ room, m.rooms[u.roomId]? = some room ∧ s ∈ room.members ∧
        ∀ (r : RoomId) (other : Room), m.rooms[r]? = some other → s ∈ other.members → r = u.roomId)
  limit : m.rooms.size ≤ m.config.val.maxRooms
  stored : ∀ (r : RoomId) (room : Room), m.rooms[r]? = some room →
    room.id = r ∧ 1 ≤ r ∧ r ≤ m.lastRoomId
  members : ∀ (r : RoomId) (room : Room), m.rooms[r]? = some room →
    (room.members.length = 1 ∨ room.members.length = 2) ∧ room.members.Nodup ∧
      (∀ s ∈ room.members, (m.users.users[s]?).isSome) ∧
      room.members.head? = some room.hostSession ∧
      ∀ s ∈ room.readyMembers, s ∈ room.members ∧ s ≠ room.hostSession
  playing : ∀ (r : RoomId) (room : Room), m.rooms[r]? = some room → room.phase = .playing →
    ∃ guest, room.members = [room.hostSession, guest] ∧ room.blackPlayer = room.hostSession ∧
      room.whitePlayer = guest ∧ room.game.status = .playing ∧ room.readyMembers = ∅ ∧
      1 ≤ room.gameId ∧ room.gameId ≤ m.lastGameId
  waiting : ∀ (r : RoomId) (room : Room), m.rooms[r]? = some room → room.phase = .waiting →
    room.game.status ≠ .playing ∧ room.turnDeadline = 0 ∧
      (∀ now, room.isTurnExpired now = false) ∧ room.gameId ≤ m.lastGameId ∧
      (room.blackPlayer = 0 ∨ room.blackPlayer ∈ room.members) ∧
      (room.whitePlayer = 0 ∨ room.whitePlayer ∈ room.members)

theorem RoomManager.WellFormed.consistent {m : RoomManager} (h : m.WellFormed) : m.Consistent where
  user s u hu := by
    rcases h.user_cases hu with hidle | ⟨room, hseat⟩
    · exact Or.inl ⟨hidle.state, hidle.roomId, hidle.away h⟩
    · refine Or.inr ⟨hseat.state, room, hseat.roomId ▸ hseat.here, hseat.mem, ?_⟩
      intro r other hr hs
      rw [hseat.roomId]
      exact h.room_unique s _ _ _ _ hr hs hseat.here hseat.mem
  limit := h.limit
  stored r room hr := by
    obtain ⟨hid, hne, hle⟩ := h.stored hr
    exact ⟨hid, by grind, hle⟩
  members r room hr := by
    have hroom := h.room hr
    refine ⟨?_, h.nodup hr, fun s hs => ?_, ?_, hroom.ready⟩
    · rcases hroom.seats with hm | ⟨guest, hm, -⟩ <;> simp [hm]
    · obtain ⟨u, hu, -⟩ := h.member hr s hs
      simp [hu]
    · rcases hroom.seats with hm | ⟨guest, hm, -⟩ <;> simp [hm]
  playing r room hr hp := by
    obtain ⟨guest, hin⟩ := (h.room hr).playing hp
    exact ⟨guest, hin.members, hin.black, hin.white, hin.status, hin.unready,
      by have := hin.numbered; grind, (h.room hr).issued⟩
  waiting r room hr hw := by
    have hroom := h.room hr
    obtain ⟨hstatus, hdeadline⟩ := hroom.waiting hw
    have hcolour : ∀ p, p = room.blackPlayer ∨ p = room.whitePlayer → p = 0 ∨ p ∈ room.members := by
      intro p hp
      by_cases h0 : p = 0
      · exact Or.inl h0
      · exact Or.inr (hroom.colours p h0 hp)
    exact ⟨hstatus, hdeadline, fun now => by simp [Room.isTurnExpired, hw], hroom.issued,
      hcolour _ (Or.inl rfl), hcolour _ (Or.inr rfl)⟩

/-- After every run of calls, users, rooms and games agree. -/
theorem reachable_consistent {wideChars : Bytes → Nat} {config : RoomConfig} {m : RoomManager}
    {history : List (Entry Managed (Call × Answer))} {c : Managed}
    (hmake : RoomManager.make {} config = .ok m) (hrun : CallRun wideChars m history c) :
    c.manager.Consistent :=
  (run_wellFormed hmake hrun).manager.consistent

/-- The run of a list of calls, if all are allowed and none throws. -/
def Managed.runCalls (wideChars : Bytes → Nat) (c : Managed) :
    List Call → Option (List (Entry Managed (Call × Answer)) × Managed)
  | [] => some ([], c)
  | l :: ls =>
    if c.allows l then
      match c.manager.call wideChars l with
      | .error _ => none
      | .ok (a, m) =>
        let next : Managed := { manager := m, leaving := leavingAfter l a }
        (runCalls wideChars next ls).map fun (history, last) => (⟨c, (l, a), next⟩ :: history, last)
    else none

theorem runCalls_run {wideChars : Bytes → Nat} {m : RoomManager} {c0 : Managed}
    (calls : List Call) : ∀ {before history : List (Entry Managed (Call × Answer))} {c : Managed},
      CallRun wideChars m before c0 → c0.runCalls wideChars calls = some (history, c) →
        CallRun wideChars m (before ++ history) c := by
  induction calls generalizing c0 with
  | nil =>
    intro before history c hrun h
    cases h
    rwa [List.append_nil]
  | cons l ls ih =>
    intro before history c hrun h
    simp only [Managed.runCalls] at h
    split at h
    · rename_i hallowed
      split at h
      · cases h
      rename_i a m1 hcall
      obtain ⟨⟨rest, last⟩, hrest, e⟩ := Option.map_eq_some_iff.mp h
      cases e
      have hstep : CallStep wideChars c0 (l, a) { manager := m1, leaving := leavingAfter l a } :=
        ⟨hcall, rfl, hallowed⟩
      have hall := ih (hrun.snoc hstep) hrest
      rwa [List.append_assoc] at hall
    · cases h

/-- A run of `calls` that ends as `check` says. -/
theorem CallRun.played (wideChars : Bytes → Nat) (m : RoomManager) (calls : List Call)
    (check : List (Entry Managed (Call × Answer)) → Managed → Bool)
    (h : (Managed.runCalls wideChars { manager := m } calls).any (fun r => check r.1 r.2) = true) :
    ∃ history c, CallRun wideChars m history c ∧ check history c = true := by
  obtain ⟨⟨history, c⟩, e, hcheck⟩ := (Option.any_eq_true _ _).mp h
  exact ⟨history, c, runCalls_run calls Run.start e, hcheck⟩

/-- Two players, one of whom resigns the game they play, and the other leaves the room. -/
def resignedCalls : List Call :=
  [.login 1 [97], .login 2 [98], .createRoom 1 [97], .enterRoom 2 1, .setReady 2 true,
    .startGame 1 0, .placeStone 1 1 1 7 7 {} 1, .resign 2 1 1 2, .leaveRoom 1 .leftRoom 3]

/-- Who resigned is the host of the room now, and the result of the game is queued. -/
theorem reachable_consistent_resigned : ∃ history c room,
    CallRun (fun _ => 1) RoomManager.fresh history c ∧
      c.manager.rooms[(1 : RoomId)]? = some room ∧ room.members = [2] ∧ room.hostSession = 2 ∧
        c.manager.users.users.size = 2 ∧
          c.manager.finishedGames.map FinishedGame.reason = [.resigned] ∧ c.manager.Consistent := by
  obtain ⟨history, c, hrun, hcheck⟩ := CallRun.played (fun _ => 1) RoomManager.fresh resignedCalls
    (fun _ c => (c.manager.rooms[(1 : RoomId)]?).any fun room : Room =>
      decide ((room.members = [2] ∧ room.hostSession = 2) ∧ c.manager.users.users.size = 2 ∧
        c.manager.finishedGames.map FinishedGame.reason = [.resigned])) (by decide +kernel)
  obtain ⟨room, hroom, hcheck⟩ := (Option.any_eq_true _ _).mp hcheck
  obtain ⟨⟨hmembers, hhost⟩, husers, hqueued⟩ := decide_eq_true_eq.mp hcheck
  exact ⟨history, c, room, hrun, hroom, hmembers, hhost, husers, hqueued,
    reachable_consistent RoomManager.make_fresh hrun⟩

end SelectServer
