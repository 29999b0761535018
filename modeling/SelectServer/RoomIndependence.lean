import SelectServer.Lib.Footprint
import SelectServer.RoomFrames

/- The requests of players in different rooms. `EnterRoom`, `LeaveRoom`, `SetReady`,
   `PlaceStone` and `Resign` look at the record of their caller and at one room, and
   change nothing else but for the queue of results (`confined`); so the requests of
   two sessions about two rooms can change places (`rooms_independent`). -/
namespace SelectServer
open Wire (Bytes)
open Histories
open Footprints

/-- The session that calls `EnterRoom`, `LeaveRoom`, `SetReady`, `PlaceStone` or `Resign`. -/
def Call.caller : Call → Option SessionId
  | .enterRoom s _ => some s
  | .leaveRoom s _ _ => some s
  | .setReady s _ => some s
  | .placeStone s _ _ _ _ _ _ => some s
  | .resign s _ _ _ => some s
  | _ => none

namespace RoomManager

/-- The room that the record of a session names. -/
def currentRoom (m : RoomManager) (s : SessionId) : Option RoomId :=
  match m.users.users[s]? with
  | some u => if u.state = .inRoom then some u.roomId else none
  | none => none

/-- The room that a request is about: the one to enter, or the one its caller is in. -/
def concerns (m : RoomManager) : Call → Option RoomId
  | .enterRoom _ roomId => some roomId
  | .leaveRoom s _ _ => m.currentRoom s
  | .setReady s _ => m.currentRoom s
  | .placeStone s _ _ _ _ _ _ => m.currentRoom s
  | .resign s _ _ _ => m.currentRoom s
  | _ => none

/-- A call whose throw is caught: what it returns or throws, and the managers after it. The one
throw of a reachable state, at a wrong reason to leave, is before any change. -/
def attempt (wideChars : Bytes → Nat) (l : Call) (m : RoomManager) :
    Except LogicError Answer × RoomManager :=
  match m.call wideChars l with
  | .ok (a, m') => (.ok a, m')
  | .error e => (.error e, m)

end RoomManager

/-! ## The managers as cells -/

/-- What a request can look at or change on its own. -/
inductive Cell where
  | user (s : SessionId)
  | room (key : RoomId)
  | rest

/-- What no request of a player in a room looks at. -/
structure Counters where
  config : { c : RoomConfig // c.Accepted }
  sessionByNickname : Map Bytes SessionId
  lastRoomId : RoomId
  lastGameId : GameId

def Cell.Content : Cell → Type
  | .user _ => Option User
  | .room _ => Option Room
  | .rest => Counters

namespace RoomManager

def counters (m : RoomManager) : Counters :=
  { config := m.config
    sessionByNickname := m.users.sessionByNickname
    lastRoomId := m.lastRoomId
    lastGameId := m.lastGameId }

def readCell (m : RoomManager) : (c : Cell) → c.Content
  | .user s => m.users.users[s]?
  | .room key => m.rooms[key]?
  | .rest => m.counters

def view : View RoomManager Cell Cell.Content FinishedGame := ⟨readCell, finishedGames⟩

/-- The record of a session, and the room that its request is about. -/
def footprint (s : SessionId) (k : Option RoomId) : Set Cell :=
  { c | c = .user s ∨ ∃ key, k = some key ∧ c = .room key }

theorem footprint_disjoint {s t : SessionId} {k k' : Option RoomId} (hne : s ≠ t)
    (hrooms : ∀ key, k = some key → k' ≠ some key) :
    ∀ c ∈ footprint s k, c ∉ footprint t k' := by
  rintro c (rfl | ⟨key, hk, rfl⟩) (h | ⟨key', hk', h⟩)
  · exact hne (Cell.user.inj h)
  · cases h
  · cases h
  · cases h
    exact hrooms key hk hk'

variable {m m' m1 m2 y y' : RoomManager} {s : SessionId} {u : User} {room : Room} {key : RoomId}
  {k : Option RoomId}

theorem agree_user (h : view.Agree (footprint s k) y m) :
    y.users.users[s]? = m.users.users[s]? :=
  h (.user s) (Or.inl rfl)

theorem agree_room (h : view.Agree (footprint s (some key)) y m) : y.rooms[key]? = m.rooms[key]? :=
  h (.room key) (Or.inr ⟨key, rfl, rfl⟩)

/-- `y'` is `y` but for the record of `s`, the room under `key`, and new results. -/
structure Alters (s : SessionId) (key : RoomId) (u : Option User) (room : Option Room)
    (new : List FinishedGame) (y y' : RoomManager) : Prop where
  beside : y.Beside s key y'
  lastRoom : y'.lastRoomId = y.lastRoomId
  lastGame : y'.lastGameId = y.lastGameId
  user : y'.users.users[s]? = u
  room : y'.rooms[key]? = room
  records : y'.finishedGames = y.finishedGames ++ new

theorem alters_store (hu : y.users.users[s]? = some u) (key : RoomId) (room : Room) :
    Alters s key (some u) (some room) [] y (y.store key room) where
  beside := beside_store y s key room
  lastRoom := rfl
  lastGame := rfl
  user := hu
  room := by simp [RoomManager.store]
  records := (List.append_nil _).symm

theorem alters_settle (hu : y.users.users[s]? = some u) (room : Room) (reason : GameEndReason) :
    Alters s room.id (some u) (some room.finishGame) [room.record reason] y
      (y.settle room reason) where
  beside := beside_settle y s room reason
  lastRoom := rfl
  lastGame := rfl
  user := hu
  room := by simp [RoomManager.settle, RoomManager.store]
  records := rfl

/-- What a stone changes is the same wherever its room is. -/
theorem alters_moved (s : SessionId) (u : User) (room : Room) (g : OmokGame) (now : Time) :
    ∃ room' new, ∀ y : RoomManager, y.users.users[s]? = some u →
      Alters s room.id (some u) (some room') new y (y.moved room g now) := by
  obtain ⟨-, hid, -⟩ := Room.moved_fields room g now
  unfold moved
  split
  · exact ⟨room.moved g now, [], fun y hu => alters_store hu room.id _⟩
  · refine ⟨(room.moved g now).finishGame, [(room.moved g now).record g.endReason], fun y hu => ?_⟩
    have h := alters_settle hu (room.moved g now) g.endReason
    rwa [hid] at h

theorem update_self (m : UserManager) (s : SessionId) (u : User) :
    (m.update s u).users[s]? = some u := by
  simp [UserManager.update]

theorem alters_entered (y : RoomManager) (s : SessionId) (u : User) (room : Room) :
    Alters s room.id (some (u.enterRoom room.id))
      (some { room with members := room.members ++ [s], readyMembers := ∅ }) [] y
      (y.entered s u room) where
  beside := beside_entered y s u room
  lastRoom := rfl
  lastGame := rfl
  user := update_self y.users s _
  room := by simp [entered, updateUser, RoomManager.store]
  records := (List.append_nil _).symm

/-- Closing the game of a room queues what the room tells, whatever the rest. -/
theorem Closed.departed {reason : GameEndReason} {now : Time} {room1 : Room} (u : User)
    (hc : Closed m s room reason now m1 room1) : room1.id = room.id ∧ ∃ new,
      ∀ (y y1 : RoomManager) (room2 : Room), Closed y s room reason now y1 room2 →
        y1.depart s u room2 =
          ({ y with finishedGames := y.finishedGames ++ new } : RoomManager).depart s u room1 := by
  cases hc with
  | idle hphase =>
    refine ⟨rfl, [], fun y y1 room2 h => ?_⟩
    cases h with
    | idle => rw [List.append_nil]
    | expired he => exact absurd he (Room.waiting_live hphase)
    | forfeited hplay => rw [hphase] at hplay; cases hplay
  | expired he =>
    refine ⟨rfl, [(room.conceded room.game.nextTurn).record .turnTimeout], fun y y1 room2 h => ?_⟩
    cases h with
    | idle hphase => exact absurd he (Room.waiting_live hphase)
    | expired => exact depart_settle y _ _
    | forfeited _ hlive => exact absurd he hlive
  | forfeited hphase hlive =>
    refine ⟨rfl, [(room.conceded (room.getPlayerStone s)).record reason], fun y y1 room2 h => ?_⟩
    cases h with
    | idle hwait => rw [hphase] at hwait; cases hwait
    | expired he => exact absurd he hlive
    | forfeited => exact depart_settle y _ _

theorem alters_depart (y : RoomManager) (s : SessionId) (u : User) (room : Room)
    (new : List FinishedGame) :
    Alters s room.id (some u.returnToLobby)
      (if (room.removeMember s).2.members.isEmpty then none else some (room.removeMember s).2) new y
      (({ y with finishedGames := y.finishedGames ++ new } : RoomManager).depart s u room) := by
  let y1 : RoomManager := { y with finishedGames := y.finishedGames ++ new }
  have hrecorded : y.Beside s room.id y1 := ⟨rfl, rfl, fun _ _ => rfl, fun _ _ => rfl⟩
  have hgone := local_depart y1 s u room
  refine ⟨hrecorded.trans (beside_depart y1 s u room), hgone.lastRoom, hgone.lastGame, ?_,
    depart_at y1 s u room, ?_⟩
  · rw [depart_users]
    exact update_self y.users s _
  · rw [hgone.records, List.append_nil]

/-! ## The requests are confined -/

section Confined
variable {wideChars : Bytes → Nat}

theorem Seated.currentRoom (h : m.Seated s u room) : m.currentRoom s = some room.id := by
  simp [RoomManager.currentRoom, h.user, h.state, h.roomId]

theorem Seated.roomOf (h : m.Seated s u room) : m.roomOf s = .ok (room.id, room) := by
  simp [RoomManager.roomOf, UserManager.find, RoomManager.find, h.user, h.state, h.roomId, h.here,
    h.contains]

theorem Seated.alike (h : m.Seated s u room)
    (hag : view.Agree (footprint s (m.currentRoom s)) y m) : y.Seated s u room := by
  rw [h.currentRoom] at hag
  exact ⟨(agree_user hag).trans h.user, h.state, h.roomId, (agree_room hag).trans h.here, h.mem⟩

/-- The room that the record of the caller names is the same one. -/
theorem find_alike (hag : view.Agree (footprint s (m.currentRoom s)) y m)
    (hu : m.users.users[s]? = some u) (hstate : u.state = .inRoom) :
    y.rooms[u.roomId]? = m.rooms[u.roomId]? := by
  rw [RoomManager.currentRoom, hu] at hag
  dsimp only at hag
  rw [if_pos hstate] at hag
  exact agree_room hag

theorem roomOf_alike (hag : view.Agree (footprint s (m.currentRoom s)) y m) :
    y.roomOf s = m.roomOf s := by
  unfold roomOf UserManager.find RoomManager.find
  rw [agree_user hag]
  cases hu : m.users.users[s]? with
  | none => rfl
  | some u =>
    by_cases hstate : u.state = .inRoom
    · dsimp only
      rw [find_alike hag hu hstate]
    · dsimp only
      rw [if_pos hstate, if_pos hstate]

theorem gameRoomOf_alike (hag : view.Agree (footprint s (m.currentRoom s)) y m) (r : RoomId)
    (g : GameId) : y.gameRoomOf s r g = m.gameRoomOf s r g := by
  unfold gameRoomOf UserManager.find RoomManager.find
  rw [agree_user hag]
  cases hu : m.users.users[s]? with
  | none => rfl
  | some u =>
    by_cases hstate : u.state = .inRoom
    · dsimp only
      rw [find_alike hag hu hstate]
    · dsimp only
      rw [if_pos hstate, if_pos hstate]

theorem attempt_of {l : Call} {a : Answer} (e : y.call wideChars l = .ok (a, y')) :
    attempt wideChars l y = (.ok a, y') := by
  rw [attempt, e]

/-- A request that is refused for what it sees in its cells. -/
theorem confined_same {l : Call} (a : Except LogicError Answer) (h : m.WellFormed)
    (hsame : ∀ y : RoomManager, y.WellFormed → view.Agree (footprint s k) y m →
      attempt wideChars l y = (a, y)) :
    Confined view WellFormed (footprint s k) (attempt wideChars l) m := by
  have e := hsame m h (.refl m)
  refine ⟨[], fun y hy hag => ?_⟩
  have ey := hsame y hy hag
  refine ⟨?_, ?_, ?_, ?_, ?_⟩
  · rw [ey]
    exact hy
  · rw [ey, e]
  · rw [ey, e]
    exact hag
  · rw [ey]
    exact fun _ _ => rfl
  · rw [ey, List.append_nil]

theorem caller_wellFormed {l : Call} (hs : l.caller = some s) {a : Answer} (h : m.WellFormed)
    (e : m.call wideChars l = .ok (a, m')) : m'.WellFormed := by
  refine (h.call_effect e).wellFormed h ?_ ?_
  · rintro s nickname rfl
    cases hs
  · rintro s rfl
    cases hs

/-- A request that changes its cells to what it makes of their content. -/
theorem confined_alters {l : Call} (hs : l.caller = some s) (h : m.WellFormed) (a : Answer)
    (post : RoomManager → RoomManager) {user : Option User} {room : Option Room}
    {new : List FinishedGame}
    (hcall : ∀ y : RoomManager, y.WellFormed → view.Agree (footprint s (some key)) y m →
      y.call wideChars l = .ok (a, post y))
    (halters : ∀ y : RoomManager, view.Agree (footprint s (some key)) y m →
      Alters s key user room new y (post y)) :
    Confined view WellFormed (footprint s (some key)) (attempt wideChars l) m := by
  refine ⟨new, fun y hy hag => ?_⟩
  have e := hcall m h (.refl m)
  have ey := hcall y hy hag
  have hm := halters m (.refl m)
  have hy' := halters y hag
  have hx := attempt_of e
  have hy1 := attempt_of ey
  refine ⟨?_, ?_, ?_, ?_, ?_⟩
  · rw [hy1]
    exact caller_wellFormed hs hy ey
  · rw [hy1, hx]
  · rw [hy1, hx]
    rintro c (rfl | ⟨key', hkey, rfl⟩)
    · exact hy'.user.trans hm.user.symm
    · obtain rfl := Option.some.inj hkey
      exact hy'.room.trans hm.room.symm
  · rw [hy1]
    intro c hc
    cases c with
    | user t => exact hy'.beside.users t fun ht => hc (Or.inl (by rw [ht]))
    | room r => exact hy'.beside.rooms r fun hr => hc (Or.inr ⟨key, rfl, by rw [hr]⟩)
    | rest =>
      show (post y).counters = y.counters
      rw [counters, counters, hy'.beside.config, hy'.beside.index, hy'.lastRoom, hy'.lastGame]
  · rw [hy1]
    exact hy'.records

/-- What a request of a member makes of its record and its room. -/
theorem confined_seated {l : Call} (hs : l.caller = some s) (h : m.WellFormed)
    (hseat : m.Seated s u room) (a : Answer) (post : RoomManager → RoomManager)
    {user : Option User} {room' : Option Room} {new : List FinishedGame}
    (hcall : ∀ y : RoomManager, y.WellFormed → y.Seated s u room →
      y.call wideChars l = .ok (a, post y))
    (halters : ∀ y : RoomManager, y.Seated s u room → Alters s room.id user room' new y (post y)) :
    Confined view WellFormed (footprint s (m.currentRoom s)) (attempt wideChars l) m := by
  have hseated : ∀ y : RoomManager, view.Agree (footprint s (some room.id)) y m →
      y.Seated s u room := by
    intro y hag
    rw [← hseat.currentRoom] at hag
    exact hseat.alike hag
  rw [hseat.currentRoom]
  exact confined_alters hs h a post (fun y hy hag => hcall y hy (hseated y hag))
    fun y hag => halters y (hseated y hag)

theorem enterRoom_joined (h : m.WellFormed) (hidle : m.Idle s u)
    (hroom : m.rooms[room.id]? = some room) (hwait : room.phase = .waiting)
    (hfree : room.members.length < room.capacity) :
    m.enterRoom s room.id = (.success, m.entered s u room) := by
  have haway : room.contains s = false := by
    simpa [Room.contains] using hidle.away h room.id room hroom
  have hs : s ≠ 0 := (h.user hidle.user).2.1
  have hadd : ¬ (room.phase ≠ .waiting ∨ s = 0 ∨ room.contains s = true ∨
      room.members.length ≥ room.capacity) := by
    simp [hwait, hs, haway, hfree]
  have hjoin : room.addMember s =
      (true, { room with members := room.members ++ [s], readyMembers := ∅ }) := if_neg hadd
  simp [enterRoom, UserManager.find, RoomManager.find, hidle.user, hidle.state, hidle.roomId, hroom,
    hwait, haway, Nat.not_le.mpr hfree, hjoin, entered]

theorem confined_enterRoom (h : m.WellFormed) (s : SessionId) (roomId : RoomId) :
    Confined view WellFormed (footprint s (some roomId)) (attempt wideChars (.enterRoom s roomId))
      m := by
  -- what is refused is refused for the record of the caller or for the room
  have hsame : ∀ result, (∀ y : RoomManager, y.users.users[s]? = m.users.users[s]? →
      y.rooms[roomId]? = m.rooms[roomId]? → y.enterRoom s roomId = (result, y)) →
      Confined view WellFormed (footprint s (some roomId))
        (attempt wideChars (.enterRoom s roomId)) m := by
    intro result e
    refine confined_same (.ok (.room result)) h fun y _ hag => attempt_of ?_
    rw [call, e y (agree_user hag) (agree_room hag)]
  cases hu : m.users.users[s]? with
  | none =>
    refine hsame .userNotFound fun y huy _ => ?_
    rw [enterRoom, UserManager.find, huy, hu]
  | some u =>
    rcases h.user_cases hu with hidle | ⟨room, hseat⟩
    · cases hr : m.rooms[roomId]? with
      | none =>
        refine hsame .roomNotFound fun y huy hry => ?_
        simp [enterRoom, UserManager.find, RoomManager.find, huy, hry, hu, hr, hidle.state,
          hidle.roomId]
      | some room =>
        obtain rfl : room.id = roomId := (h.stored hr).1
        have haway : room.contains s = false := by
          simpa [Room.contains] using hidle.away h room.id room hr
        cases hphase : room.phase with
        | playing =>
          refine hsame .gameInProgress fun y huy hry => ?_
          simp [enterRoom, UserManager.find, RoomManager.find, huy, hry, hu, hr, hidle.state,
            hidle.roomId, hphase]
        | waiting =>
          by_cases hfree : room.members.length < room.capacity
          · refine confined_alters rfl h (.room .success) _ (fun y hy hag => ?_)
              fun y _ => alters_entered y s u room
            have hidle' : y.Idle s u := ⟨(agree_user hag).trans hu, hidle.state, hidle.roomId⟩
            rw [call, enterRoom_joined hy hidle' ((agree_room hag).trans hr) hphase hfree]
          · refine hsame .roomFull fun y huy hry => ?_
            simp [enterRoom, UserManager.find, RoomManager.find, huy, hry, hu, hr, hidle.state,
              hidle.roomId, hphase, haway, Nat.not_lt.mp hfree]
    · refine hsame .alreadyInRoom fun y huy _ => ?_
      simp [enterRoom, UserManager.find, huy, hu, hseat.state]

theorem confined_setReady (h : m.WellFormed) (s : SessionId) (ready : Bool) :
    Confined view WellFormed (footprint s (m.currentRoom s)) (attempt wideChars (.setReady s ready))
      m := by
  -- a refusal is the same wherever the room of the caller is the same
  have hsame : ∀ result, (∀ y : RoomManager, y.roomOf s = m.roomOf s →
      y.setReady s ready = (result, y)) →
      Confined view WellFormed (footprint s (m.currentRoom s))
        (attempt wideChars (.setReady s ready)) m := by
    intro result e
    refine confined_same (.ok (.room result)) h fun y _ hag => attempt_of ?_
    rw [call, e y (roomOf_alike hag)]
  rcases roomOf_spec h s with ⟨result, -, e⟩ | ⟨u, room, hseat, e⟩
  · refine hsame result fun y ey => ?_
    rw [setReady, ey, e]
  by_cases hphase : room.phase = .playing
  · refine hsame .gameInProgress fun y ey => ?_
    rw [setReady, ey, e]
    exact if_pos hphase
  by_cases hhost : room.hostSession = s
  · refine hsame .hostCannotReady fun y ey => ?_
    rw [setReady, ey, e]
    exact (if_neg hphase).trans (if_pos hhost)
  · refine confined_seated rfl h hseat (.room .success)
      (fun y => y.store room.id (room.setReady s ready)) (fun y _ hseat' => ?_)
      fun y hseat' => alters_store hseat'.user room.id _
    rw [call, setReady, hseat'.roomOf]
    dsimp only
    rw [if_neg hphase, if_neg hhost]

theorem confined_placeStone (h : m.WellFormed) (s : SessionId) (r : RoomId) (g : GameId) (x y : Int)
    (out : AcceptedMove) (now : Time) :
    Confined view WellFormed (footprint s (m.currentRoom s))
      (attempt wideChars (.placeStone s r g x y out now)) m := by
  rcases placeStone_cases h s r g x y now with ⟨result, -, e⟩ |
    ⟨u, room, hseat, rfl, hg, rfl, he | hphase | ⟨hlive, hphase, ⟨result, answer, -, ep, er, -⟩ | hacc⟩⟩
  · refine confined_same (.ok (.placed result out)) h fun z _ hag => attempt_of ?_
    rw [call, placeStone_misdirected ((gameRoomOf_alike hag r g).trans e)]
    rfl
  · refine confined_seated rfl h hseat (.placed .gameNotRunning out) _ (fun z hz hseat' => ?_)
      fun z hseat' => alters_settle hseat'.user (room.conceded room.game.nextTurn) .turnTimeout
    rw [call, placeStone_expired hz hseat' hg he]
    rfl
  · refine confined_same (.ok (.placed .gameNotRunning out)) h fun z _ hag => attempt_of ?_
    rw [call, placeStone_waiting (hseat.alike hag) hg hphase]
    rfl
  · refine confined_same (.ok (.placed answer out)) h fun z _ hag => attempt_of ?_
    rw [call, placeStone_rejected (hseat.alike hag) hg hlive ep er]
    rfl
  · obtain ⟨room', new, hmoved⟩ :=
      alters_moved s u room (room.game.tryPlaceStone (room.getPlayerStone s) x y).2 now
    let g := (room.game.tryPlaceStone (room.getPlayerStone s) x y).2
    let move := acceptedMove room (room.getPlayerStone s) x y g
    refine confined_seated rfl h hseat (.placed .success move) _ (fun z hz hseat' => ?_)
      fun z hseat' => hmoved z hseat'.user
    rw [call, placeStone_taken hseat' hg hlive hphase hacc]
    rfl

theorem confined_resign (h : m.WellFormed) (s : SessionId) (r : RoomId) (g : GameId) (now : Time) :
    Confined view WellFormed (footprint s (m.currentRoom s)) (attempt wideChars (.resign s r g now))
      m := by
  rcases gameRoomOf_spec h s r g with ⟨result, -, e⟩ | ⟨u, room, hseat, rfl, hg, rfl, -⟩
  · refine confined_same (.ok (.resigned result)) h fun y _ hag => attempt_of ?_
    rw [call, resign_misdirected ((gameRoomOf_alike hag r g).trans e)]
    rfl
  by_cases he : room.isTurnExpired now = true
  · refine confined_seated rfl h hseat (.resigned .gameNotRunning) _ (fun y hy hseat' => ?_)
      fun y hseat' => alters_settle hseat'.user (room.conceded room.game.nextTurn) .turnTimeout
    rw [call, resign_expired hy hseat' hg he]
    rfl
  cases hphase : room.phase with
  | waiting =>
    refine confined_same (.ok (.resigned .gameNotRunning)) h fun y _ hag => attempt_of ?_
    rw [call, resign_waiting (hseat.alike hag) hg hphase]
    rfl
  | playing =>
    refine confined_seated rfl h hseat (.resigned .success) _ (fun y hy hseat' => ?_)
      fun y hseat' => alters_settle hseat'.user (room.conceded (room.getPlayerStone s)) .resigned
    rw [call, resign_taken hy hseat' hg he hphase]
    rfl

theorem confined_leaveRoom (h : m.WellFormed) (s : SessionId) (reason : GameEndReason) (now : Time) :
    Confined view WellFormed (footprint s (m.currentRoom s))
      (attempt wideChars (.leaveRoom s reason now)) m := by
  by_cases hreason : reason = .leftRoom ∨ reason = .disconnected
  swap
  · have hthrow : reason ≠ .leftRoom ∧ reason ≠ .disconnected := not_or.mp hreason
    refine confined_same (.error .invalidLeaveReason) h fun y _ _ => ?_
    rw [attempt, call, leaveRoom, if_pos hthrow]
    rfl
  cases hu : m.users.users[s]? with
  | none =>
    refine confined_same (.ok (.room .userNotFound)) h fun y _ hag => attempt_of ?_
    rw [call, leaveRoom_unknown now hreason ((agree_user hag).trans hu)]
    rfl
  | some u =>
    rcases h.user_cases hu with hidle | ⟨room, hseat⟩
    · refine confined_same (.ok (.room .notInRoom)) h fun y _ hag => attempt_of ?_
      have hidle' : y.Idle s u := ⟨(agree_user hag).trans hidle.user, hidle.state, hidle.roomId⟩
      rw [call, hidle'.leaveRoom now hreason]
      rfl
    obtain ⟨m1, room1, hclosed, -⟩ := hseat.leaveRoom now hreason h
    obtain ⟨hid, new, hdeparted⟩ := hclosed.departed u
    refine confined_seated rfl h hseat (.room .success) _ (fun y hy hseat' => ?_)
      fun y _ => hid ▸ alters_depart y s u room1 new
    obtain ⟨y1, room2, hclosed', e⟩ := hseat'.leaveRoom now hreason hy
    rw [call, e, hdeparted y y1 room2 hclosed']
    rfl

theorem confined (h : m.WellFormed) {l : Call} (hs : l.caller = some s) :
    Confined view WellFormed (footprint s (m.concerns l)) (attempt wideChars l) m := by
  cases l with
  | enterRoom t roomId =>
    cases hs
    exact confined_enterRoom h s roomId
  | leaveRoom t reason now =>
    cases hs
    exact confined_leaveRoom h s reason now
  | setReady t ready =>
    cases hs
    exact confined_setReady h s ready
  | placeStone t r g x y out now =>
    cases hs
    exact confined_placeStone h s r g x y out now
  | resign t r g now =>
    cases hs
    exact confined_resign h s r g now
  | _ => cases hs

end Confined

/-! ## Both orders -/

/-- `l` and then `l'`, or `l'` and then `l`: each returns the same, and the users and the rooms are
the same after both, and the recorded results but for their order. -/
structure Interchangeable (wideChars : Bytes → Nat) (l l' : Call) (m : RoomManager) : Prop where
  first : (attempt wideChars l (attempt wideChars l' m).2).1 = (attempt wideChars l m).1
  second : (attempt wideChars l' (attempt wideChars l m).2).1 = (attempt wideChars l' m).1
  users : (attempt wideChars l' (attempt wideChars l m).2).2.users =
    (attempt wideChars l (attempt wideChars l' m).2).2.users
  rooms : (attempt wideChars l' (attempt wideChars l m).2).2.rooms =
    (attempt wideChars l (attempt wideChars l' m).2).2.rooms
  counters : (attempt wideChars l' (attempt wideChars l m).2).2.counters =
    (attempt wideChars l (attempt wideChars l' m).2).2.counters
  records : (attempt wideChars l' (attempt wideChars l m).2).2.finishedGames.Perm
    (attempt wideChars l (attempt wideChars l' m).2).2.finishedGames

theorem users_ext {a b : UserManager} (husers : ∀ t : SessionId, a.users[t]? = b.users[t]?)
    (hindex : a.sessionByNickname = b.sessionByNickname) : a = b := by
  obtain ⟨users, index⟩ := a
  obtain ⟨users', index'⟩ := b
  obtain rfl : users = users' := by
    ext1 t
    exact husers t
  obtain rfl : index = index' := hindex
  rfl

theorem interchangeable_of_commute {wideChars : Bytes → Nat} {l l' : Call}
    (h : Commute view (attempt wideChars l) (attempt wideChars l') m) :
    Interchangeable wideChars l l' m where
  first := h.first
  second := h.second
  users := users_ext (fun t => h.cells (.user t)) (congrArg Counters.sessionByNickname (h.cells .rest))
  rooms := by
    ext1 key
    exact h.cells (.room key)
  counters := h.cells .rest
  records := h.log

end RoomManager

open RoomManager

/-- In every reachable state, the requests of two sessions about two rooms can change places. -/
theorem rooms_independent {wideChars : Bytes → Nat} {config : RoomConfig} {m : RoomManager}
    {history : List (Entry Managed (Call × Answer))} {c : Managed}
    (hmake : RoomManager.make {} config = .ok m) (hrun : CallRun wideChars m history c)
    {l l' : Call} {s t : SessionId} (hs : l.caller = some s) (ht : l'.caller = some t) (hne : s ≠ t)
    (hrooms : ∀ key, c.manager.concerns l = some key → c.manager.concerns l' ≠ some key) :
    Interchangeable wideChars l l' c.manager := by
  have h := (run_wellFormed hmake hrun).manager
  exact interchangeable_of_commute
    ((confined h hs).commute (confined h ht) h (footprint_disjoint hne hrooms))

/-- Two rooms whose players are in a game. -/
def twoGamesCalls : List Call :=
  [.login 1 [97], .login 2 [98], .login 3 [99], .login 4 [100], .createRoom 1 [97],
    .createRoom 3 [98], .enterRoom 2 1, .enterRoom 4 2, .setReady 2 true, .setReady 4 true,
    .startGame 1 0, .startGame 3 0]

/-- One game is resigned and the other is lost by a disconnect: two results, in either order. -/
theorem rooms_independent_games : ∃ history c,
    CallRun (fun _ => 1) RoomManager.fresh history c ∧
      Interchangeable (fun _ => 1) (.resign 2 1 1 1) (.leaveRoom 4 .disconnected 1) c.manager ∧
      ((attempt (fun _ => 1) (.leaveRoom 4 .disconnected 1)
        (attempt (fun _ => 1) (.resign 2 1 1 1) c.manager).2).2.finishedGames.map
          FinishedGame.room = [1, 2]) := by
  obtain ⟨history, c, hrun, hcheck⟩ := CallRun.played (fun _ => 1) RoomManager.fresh twoGamesCalls
    (fun _ c => decide (c.manager.concerns (.resign 2 1 1 1) = some 1 ∧
      c.manager.concerns (.leaveRoom 4 .disconnected 1) = some 2 ∧
      (attempt (fun _ => 1) (.leaveRoom 4 .disconnected 1)
        (attempt (fun _ => 1) (.resign 2 1 1 1) c.manager).2).2.finishedGames.map
          FinishedGame.room = [1, 2])) (by decide +kernel)
  obtain ⟨hl, hl', hresults⟩ := of_decide_eq_true hcheck
  refine ⟨history, c, hrun, rooms_independent RoomManager.make_fresh hrun rfl rfl (by decide) ?_,
    hresults⟩
  intro key hkey
  rw [hl] at hkey
  rw [hl', ← hkey]
  decide

end SelectServer
