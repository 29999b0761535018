import SelectServer.TimeoutOrder

/- What a room request leaves alone. A request that is refused changes nothing and
   writes no move; only `PlaceStone` and `Resign` may have found the turn of the
   caller's own room run out, which they settle before they answer that no game is
   running (`Untouched`). A request that succeeds changes the record of its user,
   one room, the counter it counts with, and queues at most one result (`Framed`). -/
namespace SelectServer
open Wire (Bytes)
open Histories

/-- The session that makes a room request. -/
def Call.requester : Call → Option SessionId
  | .createRoom s _ => some s
  | .enterRoom s _ => some s
  | .leaveRoom s _ _ => some s
  | .setReady s _ => some s
  | .startGame s _ => some s
  | .placeStone s _ _ _ _ _ _ => some s
  | .resign s _ _ _ => some s
  | _ => none

namespace RoomManager
variable {m m1 m' : RoomManager} {s : SessionId} {u : User} {room : Room} {key : RoomId}

/-- The session is in the room with this id, by its user record. -/
def Holds (m : RoomManager) (s : SessionId) (key : RoomId) : Prop :=
  ∃ u, m.users.users[s]? = some u ∧ u.state = .inRoom ∧ u.roomId = key

theorem Seated.holds (h : m.Seated s u room) : m.Holds s room.id := ⟨u, h.user, h.state, h.roomId⟩

theorem Seated.held (h : m.Seated s u room) (hs : m.Holds s key) : room.id = key := by
  obtain ⟨u', hu', -, hroom⟩ := hs
  exact (h.roomId_of hu').symm.trans hroom

/-- `m'` has the users of `m` but for the record of `s`, and the rooms of `m` but for the one under
`key`. -/
structure Beside (m : RoomManager) (s : SessionId) (key : RoomId) (m' : RoomManager) : Prop where
  config : m'.config = m.config
  index : m'.users.sessionByNickname = m.users.sessionByNickname
  users : ∀ t : SessionId, t ≠ s → m'.users.users[t]? = m.users.users[t]?
  rooms : ∀ r : RoomId, r ≠ key → m'.rooms[r]? = m.rooms[r]?

theorem Beside.refl (m : RoomManager) (s : SessionId) (key : RoomId) : m.Beside s key m :=
  ⟨rfl, rfl, fun _ _ => rfl, fun _ _ => rfl⟩

theorem Beside.trans (h : m.Beside s key m1) (h' : m1.Beside s key m') : m.Beside s key m' where
  config := h'.config.trans h.config
  index := h'.index.trans h.index
  users t ht := (h'.users t ht).trans (h.users t ht)
  rooms r hr := (h'.rooms r hr).trans (h.rooms r hr)

theorem beside_store (m : RoomManager) (s : SessionId) (key : RoomId) (room : Room) :
    m.Beside s key (m.store key room) :=
  ⟨rfl, rfl, fun _ _ => rfl, (local_store m key room).rooms⟩

theorem beside_settle (m : RoomManager) (s : SessionId) (room : Room) (reason : GameEndReason) :
    m.Beside s room.id (m.settle room reason) :=
  ⟨rfl, rfl, fun _ _ => rfl, (local_settle m room reason).rooms⟩

theorem beside_conceded (m : RoomManager) (s : SessionId) (room : Room) (loser : GameStone)
    (reason : GameEndReason) : m.Beside s room.id (m.settle (room.conceded loser) reason) :=
  beside_settle m s (room.conceded loser) reason

theorem update_other (m : UserManager) {s t : SessionId} (u : User) (ht : t ≠ s) :
    (m.update s u).users[t]? = m.users[t]? := by
  simp only [UserManager.update]
  grind

theorem beside_updateUser (m : RoomManager) (s : SessionId) (key : RoomId) (u : User) :
    m.Beside s key (m.updateUser s u) :=
  ⟨rfl, rfl, fun _ ht => update_other m.users u ht, fun _ _ => rfl⟩

theorem beside_entered (m : RoomManager) (s : SessionId) (u : User) (room : Room) :
    m.Beside s room.id (m.entered s u room) :=
  (beside_store m s room.id _).trans (beside_updateUser _ s room.id _)

theorem beside_depart (m : RoomManager) (s : SessionId) (u : User) (room : Room) :
    m.Beside s room.id (m.depart s u room) where
  config := (local_depart m s u room).config
  index := by rw [depart_users]; rfl
  users t ht := by
    rw [depart_users]
    exact update_other m.users _ ht
  rooms := (local_depart m s u room).rooms

theorem beside_moved (m : RoomManager) (s : SessionId) (room : Room) (g : OmokGame) (now : Time) :
    m.Beside s room.id (m.moved room g now) := by
  obtain ⟨-, hid, -⟩ := Room.moved_fields room g now
  unfold moved
  split
  · exact beside_store m s room.id _
  · have h := beside_settle m s (room.moved g now) g.endReason
    rwa [hid] at h

/-- How the game of the room ended before its member leaves is beside everything else too. -/
theorem Closed.beside {reason : GameEndReason} {now : Time} {room1 : Room}
    (h : Closed m s room reason now m1 room1) : m.Beside s room.id m1 ∧ room1.id = room.id ∧
      m1.lastRoomId = m.lastRoomId ∧ m1.lastGameId = m.lastGameId ∧
        ∃ new, new.length ≤ 1 ∧ m1.finishedGames = m.finishedGames ++ new := by
  cases h with
  | idle => exact ⟨.refl m s _, rfl, rfl, rfl, [], Nat.zero_le 1, (List.append_nil _).symm⟩
  | expired => exact ⟨beside_conceded m s room _ _, rfl, rfl, rfl, [_], Nat.le_refl 1, rfl⟩
  | forfeited => exact ⟨beside_conceded m s room _ _, rfl, rfl, rfl, [_], Nat.le_refl 1, rfl⟩

/-! ## What a request changes -/

/-- Everything a request of `s` that succeeds can have changed. -/
structure Framed (m : RoomManager) (l : Call) (s : SessionId) (m' : RoomManager) : Prop where
  /-- The one room is the one that `s` was in or is in now. -/
  beside : ∃ key, (m.Holds s key ∨ m'.Holds s key) ∧ m.Beside s key m'
  lastRoom : m'.lastRoomId = m.lastRoomId ∨
    ((∃ title, l = .createRoom s title) ∧ m'.lastRoomId = m.lastRoomId + 1)
  lastGame : m'.lastGameId = m.lastGameId ∨
    ((∃ now, l = .startGame s now) ∧ m'.lastGameId = m.lastGameId + 1)
  records : ∃ new, new.length ≤ 1 ∧ m'.finishedGames = m.finishedGames ++ new

theorem framed_within {l : Call} (hseat : m.Seated s u room) (h : m.Beside s room.id m')
    (hroom : m'.lastRoomId = m.lastRoomId) (hgame : m'.lastGameId = m.lastGameId)
    (new : List FinishedGame) (hone : new.length ≤ 1)
    (hrecords : m'.finishedGames = m.finishedGames ++ new) : m.Framed l s m' :=
  ⟨⟨room.id, Or.inl hseat.holds, h⟩, Or.inl hroom, Or.inl hgame, new, hone, hrecords⟩

theorem moved_counters (m : RoomManager) (room : Room) (g : OmokGame) (now : Time) :
    (m.moved room g now).lastRoomId = m.lastRoomId ∧
      (m.moved room g now).lastGameId = m.lastGameId ∧
        ∃ new, new.length ≤ 1 ∧ (m.moved room g now).finishedGames = m.finishedGames ++ new := by
  unfold moved
  split
  · exact ⟨rfl, rfl, [], Nat.zero_le 1, (List.append_nil _).symm⟩
  · exact ⟨rfl, rfl, [_], Nat.le_refl 1, rfl⟩

theorem updateUser_holds (m : RoomManager) (s : SessionId) (u : User) (key : RoomId) :
    (m.updateUser s (u.enterRoom key)).Holds s key := by
  refine ⟨u.enterRoom key, ?_, rfl, rfl⟩
  simp [updateUser, UserManager.update]

end RoomManager

open RoomManager

theorem Effect.framed {wideChars : Bytes → Nat} {m m' : RoomManager} {l : Call} {a : Answer}
    (he : Effect wideChars m l a m') {s : SessionId} (hs : l.requester = some s)
    (ha : a.accepted = true) : m.Framed l s m' := by
  cases he with
  | refused h =>
    rw [h] at ha
    cases ha
  | expired _ h =>
    rw [h] at ha
    cases ha
  | loggedIn => cases hs
  | removed => cases hs
  | swept => cases hs
  | popped => cases hs
  | @created s' u title hidle htitle hspace hlast =>
    cases hs
    refine ⟨⟨m.lastRoomId + 1, Or.inr (updateUser_holds _ s u _), ?_⟩, Or.inr ⟨⟨title, rfl⟩, rfl⟩,
      Or.inl rfl, [], Nat.zero_le 1, (List.append_nil _).symm⟩
    have h := (beside_store m s (m.lastRoomId + 1) (m.newRoom s title)).trans
      (beside_updateUser _ s _ (u.enterRoom (m.lastRoomId + 1)))
    exact ⟨h.config, h.index, h.users, h.rooms⟩
  | @entered s' u room hidle hroom hwait hnew hfree =>
    cases hs
    exact ⟨⟨room.id, Or.inr (updateUser_holds _ s u _), beside_entered m s u room⟩, Or.inl rfl,
      Or.inl rfl, [], Nat.zero_le 1, (List.append_nil _).symm⟩
  | readied hseat hwait hguest =>
    cases hs
    exact framed_within hseat (beside_store m s _ _) rfl rfl [] (Nat.zero_le 1)
      (List.append_nil _).symm
  | @started s' guest u room now hseat hwait hhost hpair hne hready hlast =>
    cases hs
    have h := beside_store m s room.id (room.startGame (m.lastGameId + 1) now)
    exact ⟨⟨room.id, Or.inl hseat.holds, h.config, h.index, h.users, h.rooms⟩, Or.inl rfl,
      Or.inr ⟨⟨now, rfl⟩, rfl⟩, [], Nat.zero_le 1, (List.append_nil _).symm⟩
  | moved hseat hnum hlive hphase hacc =>
    cases hs
    obtain ⟨hroom, hgame, new, hone, hrecords⟩ := moved_counters m _ _ _
    exact framed_within hseat (beside_moved m s _ _ _) hroom hgame new hone hrecords
  | resigned hseat hnum hlive hphase =>
    cases hs
    exact framed_within hseat (beside_conceded m s _ _ _) rfl rfl [_] (Nat.le_refl 1) rfl
  | @left s' u room room1 m1 reason now hseat hreason hclosed =>
    cases hs
    obtain ⟨hbeside, hid, hroom, hgame, new, hone, hrecords⟩ := hclosed.beside
    have hgone := local_depart m1 s u room1
    have hdepart := beside_depart m1 s u room1
    rw [hid] at hdepart
    exact framed_within hseat (hbeside.trans hdepart) (hgone.lastRoom.trans hroom)
      (hgone.lastGame.trans hgame) new hone
      (by rw [hgone.records, hrecords, List.append_nil])

/-! ## What a refused request changes -/

/-- A call that writes an `AcceptedMove` has left the one it was given. -/
def Call.KeepsMove (l : Call) (a : Answer) : Prop :=
  ∀ s r g x y out now, l = .placeStone s r g x y out now → ∃ result, a = .placed result out

/-- The answer of a game request that no game is running. -/
def Answer.notRunning : Answer → Bool
  | .placed result _ => result = .gameNotRunning
  | .resigned result => result = .gameNotRunning
  | _ => false

/-- What a refused request leaves. -/
inductive RoomManager.Untouched (m : RoomManager) (l : Call) (a : Answer) : RoomManager → Prop
  | same (hmove : l.KeepsMove a) : m.Untouched l a m
  /-- The turn of the caller's own room had run out, and its game is ended for that. -/
  | expired {s : SessionId} {now : Time} {u : User} {room : Room} (hactor : l.actor = some (s, now))
      (hanswer : a.notRunning = true) (hmove : l.KeepsMove a) (hseat : m.Seated s u room)
      (hphase : room.phase = .playing) (hdeadline : room.turnDeadline ≤ now) :
      m.Untouched l a (m.settle (room.conceded room.game.nextTurn) .turnTimeout)

theorem keepsMove_of_ne {l : Call} {a : Answer}
    (h : ∀ s r g x y out now, l ≠ .placeStone s r g x y out now) : l.KeepsMove a :=
  fun s r g x y out now e => absurd e (h s r g x y out now)

theorem RoomManager.WellFormed.untouched {wideChars : Bytes → Nat} {m m' : RoomManager}
    (hwf : m.WellFormed) {l : Call} {a : Answer} {s : SessionId} (hs : l.requester = some s)
    (hcall : m.call wideChars l = .ok (a, m')) (ha : a.accepted = false) : m.Untouched l a m' := by
  cases l with
  | placeStone s r g x y out now =>
    rcases placeStone_spec hwf s r g x y out now with
      ⟨result, hne, e⟩ | ⟨u, room, hseat, rfl, hg, rfl, ⟨he, e⟩ | ⟨hlive, hphase, hacc, e⟩⟩
    · rw [RoomManager.call, e] at hcall
      cases hcall
      exact .same fun _ _ _ _ _ _ _ e => by cases e; exact ⟨_, rfl⟩
    · rw [RoomManager.call, e] at hcall
      cases hcall
      obtain ⟨hphase, -, hdeadline⟩ := isTurnExpired_iff.mp he
      exact .expired rfl rfl (fun _ _ _ _ _ _ _ e => by cases e; exact ⟨_, rfl⟩) hseat hphase
        hdeadline
    · rw [RoomManager.call, e] at hcall
      cases hcall
      cases ha
  | resign s r g now =>
    rcases resign_spec hwf s r g now with
      ⟨result, hne, e⟩ | ⟨u, room, hseat, rfl, hg, rfl, ⟨he, e⟩ | ⟨hlive, hphase, e⟩⟩
    · rw [RoomManager.call, e] at hcall
      cases hcall
      exact .same (keepsMove_of_ne (by simp))
    · rw [RoomManager.call, e] at hcall
      cases hcall
      obtain ⟨hphase, -, hdeadline⟩ := isTurnExpired_iff.mp he
      exact .expired rfl rfl (keepsMove_of_ne (by simp)) hseat hphase hdeadline
    · rw [RoomManager.call, e] at hcall
      cases hcall
      cases ha
  | login => cases hs
  | remove => cases hs
  | updateTimeouts => cases hs
  | tryPopFinishedGame => cases hs
  | createRoom s title =>
    cases hwf.call_effect hcall with
    | refused => exact .same (keepsMove_of_ne (by simp))
    | created => cases ha
    | expired hactor => cases hactor
  | enterRoom s r =>
    cases hwf.call_effect hcall with
    | refused => exact .same (keepsMove_of_ne (by simp))
    | entered => cases ha
    | expired hactor => cases hactor
  | leaveRoom s reason now =>
    cases hwf.call_effect hcall with
    | refused => exact .same (keepsMove_of_ne (by simp))
    | left => cases ha
    | expired hactor => cases hactor
  | setReady s ready =>
    cases hwf.call_effect hcall with
    | refused => exact .same (keepsMove_of_ne (by simp))
    | readied => cases ha
    | expired hactor => cases hactor
  | startGame s now =>
    cases hwf.call_effect hcall with
    | refused => exact .same (keepsMove_of_ne (by simp))
    | started => cases ha
    | expired hactor => cases hactor

/-- In every reachable state, a room request that is refused leaves everything as it was, but for an
expired game of the caller's own room; and one that succeeds changes no other user, no other room,
and no counter but its own. -/
theorem requests_atomic {wideChars : Bytes → Nat} {config : RoomConfig} {m m' : RoomManager}
    {history : List (Entry Managed (Call × Answer))} {c : Managed}
    (hmake : RoomManager.make {} config = .ok m) (hrun : CallRun wideChars m history c) {l : Call}
    {s : SessionId} (hs : l.requester = some s) {a : Answer}
    (hcall : c.manager.call wideChars l = .ok (a, m')) :
    (a.accepted = false → c.manager.Untouched l a m') ∧
      (a.accepted = true → c.manager.Framed l s m') := by
  have hwf := (run_wellFormed hmake hrun).manager
  exact ⟨hwf.untouched hs hcall, (hwf.call_effect hcall).framed hs⟩

/-- What a call returns decides that it returns. -/
theorem RoomManager.call_returned {wideChars : Bytes → Nat} {m : RoomManager} {l : Call} {a : Answer}
    (h : ((m.call wideChars l).map Prod.fst).toOption = some a) :
    ∃ m', m.call wideChars l = .ok (a, m') := by
  cases hcall : m.call wideChars l with
  | error e =>
    rw [hcall] at h
    cases h
  | ok r =>
    rw [hcall] at h
    exact ⟨r.2, by rw [← Option.some.inj h]⟩

/-- Two players in a game whose first turn ends at 300 s. -/
def startedCalls : List Call :=
  [.login 1 [97], .login 2 [98], .createRoom 1 [97], .enterRoom 2 1, .setReady 2 true,
    .startGame 1 0]

theorem requests_atomic_started : ∃ history c,
    CallRun (fun _ => 1) RoomManager.fresh history c ∧
      (∃ m', c.manager.call (fun _ => 1) (.placeStone 2 1 1 7 7 {} 1) =
          .ok (.placed .notYourTurn {}, m') ∧
        c.manager.Untouched (.placeStone 2 1 1 7 7 {} 1) (.placed .notYourTurn {}) m') ∧
      (∃ m', c.manager.call (fun _ => 1) (.resign 2 1 1 1) = .ok (.resigned .success, m') ∧
        c.manager.Framed (.resign 2 1 1 1) 2 m') := by
  obtain ⟨history, c, hrun, hcheck⟩ := CallRun.played (fun _ => 1) RoomManager.fresh startedCalls
    (fun _ c => ((c.manager.call (fun _ => 1) (.placeStone 2 1 1 7 7 {} 1)).map Prod.fst).toOption =
        some (.placed .notYourTurn {}) &&
      ((c.manager.call (fun _ => 1) (.resign 2 1 1 1)).map Prod.fst).toOption =
        some (.resigned .success)) (by decide +kernel)
  simp only [Bool.and_eq_true, decide_eq_true_eq] at hcheck
  obtain ⟨m1, h1⟩ := call_returned hcheck.1
  obtain ⟨m2, h2⟩ := call_returned hcheck.2
  exact ⟨history, c, hrun,
    ⟨m1, h1, (requests_atomic RoomManager.make_fresh hrun rfl h1).1 rfl⟩,
    m2, h2, (requests_atomic RoomManager.make_fresh hrun rfl h2).2 rfl⟩

end SelectServer
