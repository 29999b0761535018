import SelectServer.TurnTimeouts

/- A sweep and a request of a player at the same time, in either order. Each of
   `PlaceStone`, `Resign` and `LeaveRoom` changes one room and looks at whether its
   turn has run out itself, so what it does to swept rooms is what a sweep does to
   the rooms it leaves (`Swept.placeStone` and the others). `timeouts_commute`: the
   order is seen in the queue only. -/
namespace SelectServer
open Wire (Bytes)
open Histories

namespace RoomManager
variable {m m' m1 m1' : RoomManager} {now : Time} {key : RoomId} {new new1 : List FinishedGame}

/-- `m'` is `m` but for its users, the room under `key`, and new records. -/
structure Local (m : RoomManager) (key : RoomId) (new : List FinishedGame) (m' : RoomManager) :
    Prop where
  config : m'.config = m.config
  rooms : ∀ r : RoomId, r ≠ key → m'.rooms[r]? = m.rooms[r]?
  lastRoom : m'.lastRoomId = m.lastRoomId
  lastGame : m'.lastGameId = m.lastGameId
  records : m'.finishedGames = m.finishedGames ++ new

theorem Local.refl (m : RoomManager) (key : RoomId) : Local m key [] m where
  config := rfl
  rooms _ _ := rfl
  lastRoom := rfl
  lastGame := rfl
  records := (List.append_nil _).symm

theorem local_store (m : RoomManager) (key : RoomId) (room : Room) :
    Local m key [] (m.store key room) where
  config := rfl
  rooms r hr := by
    show (m.rooms.insert key room)[r]? = m.rooms[r]?
    grind
  lastRoom := rfl
  lastGame := rfl
  records := (List.append_nil _).symm

theorem local_settle (m : RoomManager) (room : Room) (reason : GameEndReason) :
    Local m room.id [room.record reason] (m.settle room reason) where
  config := rfl
  rooms := (local_store m room.id room.finishGame).rooms
  lastRoom := rfl
  lastGame := rfl
  records := rfl

theorem local_depart (m : RoomManager) (s : SessionId) (u : User) (room : Room) :
    Local m room.id [] (m.depart s u room) := by
  unfold depart
  dsimp only
  split
  · refine ⟨rfl, fun r hr => ?_, rfl, rfl, (List.append_nil _).symm⟩
    show (m.rooms.erase room.id)[r]? = m.rooms[r]?
    grind
  · have h := local_store (m.updateUser s u.returnToLobby) room.id (room.removeMember s).2
    exact ⟨h.config, h.rooms, h.lastRoom, h.lastGame, h.records⟩

/-! ## The records of a sweep -/

theorem timeoutsAt_of {o : Option Room} (h : m.rooms[key]? = o) :
    timeoutsAt now m key = o.elim [] (Room.timeoutRecords now) := by
  rw [timeoutsAt, h]

/-- The records of the room under `key` apart from the others. -/
theorem timeouts_split (now : Time) (m : RoomManager) (key : RoomId) :
    (timeouts now m).Perm
      (timeoutsAt now m key ++ (m.rooms.keys.erase key).flatMap (timeoutsAt now m)) := by
  by_cases hkey : key ∈ m.rooms.keys
  · exact (List.perm_cons_erase hkey).flatMap_right _
  · have hnone : timeoutsAt now m key = [] := by
      rw [Std.ExtTreeMap.mem_keys] at hkey
      rw [timeoutsAt_of (Std.ExtTreeMap.getElem?_eq_none hkey)]
      rfl
    rw [hnone, List.nil_append, List.erase_of_not_mem hkey]
    exact List.Perm.refl _

/-- A change of one room leaves the records of the others. -/
theorem Local.timeouts_perm (now : Time) (h : Local m key new m') :
    (timeouts now m ++ timeoutsAt now m' key).Perm (timeoutsAt now m key ++ timeouts now m') := by
  have hkeys : (m'.rooms.keys.erase key).Perm (m.rooms.keys.erase key) := by
    rw [List.perm_ext_iff_of_nodup (Std.ExtTreeMap.nodup_keys.erase key)
      (Std.ExtTreeMap.nodup_keys.erase key)]
    intro r
    rw [Std.ExtTreeMap.nodup_keys.mem_erase_iff, Std.ExtTreeMap.nodup_keys.mem_erase_iff,
      Std.ExtTreeMap.mem_keys, Std.ExtTreeMap.mem_keys]
    refine and_congr_right fun hr => ?_
    rw [← Std.ExtTreeMap.isSome_getElem?_iff_mem, ← Std.ExtTreeMap.isSome_getElem?_iff_mem,
      h.rooms r hr]
  have hothers : (m'.rooms.keys.erase key).flatMap (timeoutsAt now m') =
      (m'.rooms.keys.erase key).flatMap (timeoutsAt now m) := by
    refine List.flatMap_congr fun r hr => ?_
    have hne := (Std.ExtTreeMap.nodup_keys.mem_erase_iff.mp hr).1
    rw [timeoutsAt, timeoutsAt, h.rooms r hne]
  have hrest := hkeys.flatMap_right (timeoutsAt now m)
  rw [← hothers] at hrest
  have hsplit := timeouts_split now m key
  have hsplit' := timeouts_split now m' key
  rw [List.perm_iff_count] at hrest hsplit hsplit' ⊢
  intro f
  have e := hrest f
  have e1 := hsplit f
  have e2 := hsplit' f
  rw [List.count_append] at e1 e2 ⊢
  rw [List.count_append]
  omega

/-- Two changes of one room, of rooms and of what a sweep leaves of them, that agree on that room. -/
theorem Swept.change (hs : Swept now m m1) (h : Local m key new m') (h1 : Local m1 key new1 m1')
    (husers : m1'.users = m'.users)
    (hroom : m1'.rooms[key]? = (m'.rooms[key]?).map (Room.timedOut now))
    (hrecords : (timeoutsAt now m key ++ new1).Perm (new ++ timeoutsAt now m' key)) :
    Swept now m' m1' where
  users := husers
  config := by rw [h1.config, hs.config, h.config]
  rooms r := by
    by_cases hr : r = key
    · rw [hr]
      exact hroom
    · rw [h1.rooms r hr, hs.rooms, h.rooms r hr]
  lastRoom := by rw [h1.lastRoom, hs.lastRoom, h.lastRoom]
  lastGame := by rw [h1.lastGame, hs.lastGame, h.lastGame]
  records := by
    have hbefore := hs.records
    have hothers := h.timeouts_perm now
    rw [h1.records, h.records]
    -- only the number of times that each record occurs matters
    rw [List.perm_iff_count] at hbefore hothers hrecords ⊢
    intro f
    have e := hbefore f
    have e1 := hothers f
    have e2 := hrecords f
    simp only [List.count_append] at e e1 e2 ⊢
    omega

/-! ## The requests -/

section Requests
variable {s : SessionId} {u : User} {room : Room}

theorem Swept.seated (hs : Swept now m m1) (hseat : m.Seated s u room) :
    m1.Seated s u (room.timedOut now) where
  user := by
    rw [hs.users]
    exact hseat.user
  state := hseat.state
  roomId := by
    rw [Room.timedOut_id]
    exact hseat.roomId
  here := by rw [Room.timedOut_id, hs.rooms, hseat.here, Option.map_some]
  mem := by
    rw [Room.timedOut_members]
    exact hseat.mem

theorem Swept.seated_live (hs : Swept now m m1) (hseat : m.Seated s u room)
    (hlive : ¬ room.isTurnExpired now = true) : m1.Seated s u room := by
  have h := hs.seated hseat
  rwa [Room.timedOut_live hlive] at h

/-- A request that is turned away before its room is looked at. -/
theorem Swept.misdirected (hs : Swept now m m1) {r : RoomId} {g : GameId} {result : GameMoveResult}
    (e : m.gameRoomOf s r g = .error result) : m1.gameRoomOf s r g = .error result := by
  have hcontains : ∀ room : Room, (room.timedOut now).contains s = room.contains s := fun room => by
    rw [Room.contains, Room.timedOut_members, Room.contains]
  unfold gameRoomOf UserManager.find RoomManager.find at e ⊢
  rw [hs.users]
  cases hu : m.users.users[s]? with
  | none =>
    rw [hu] at e
    exact e
  | some u =>
    rw [hu] at e
    dsimp only at e ⊢
    rw [hs.rooms]
    cases hr : m.rooms[u.roomId]? with
    | none =>
      rw [hr] at e
      exact e
    | some room =>
      rw [hr] at e
      dsimp only [Option.map_some] at e ⊢
      -- what the checks look at is the same in an expired room
      rw [hcontains, Room.timedOut_gameId]
      by_cases hstate : u.state ≠ .inRoom
      · rw [if_pos hstate] at e ⊢
        exact e
      rw [if_neg hstate] at e ⊢
      by_cases hroom : u.roomId ≠ r
      · rw [if_pos hroom] at e ⊢
        exact e
      rw [if_neg hroom] at e ⊢
      by_cases hin : (!room.contains s) = true
      · rw [if_pos hin] at e ⊢
        exact e
      rw [if_neg hin] at e ⊢
      by_cases hgame : g = 0 ∨ g ≠ room.gameId
      · rw [if_pos hgame] at e ⊢
        exact e
      · rw [if_neg hgame] at e
        cases e

/-- A sweep that comes after a request has ended the expired game itself. -/
theorem Swept.expired (hs : Swept now m m1) (hr : m.rooms[room.id]? = some room)
    (he : room.isTurnExpired now = true) :
    Swept now (m.settle (room.conceded room.game.nextTurn) .turnTimeout) m1 := by
  have hat : (m.settle (room.conceded room.game.nextTurn) .turnTimeout).rooms[room.id]? =
      some (room.timedOut now) := by
    show (m.rooms.insert room.id _)[room.id]? = _
    rw [Room.timedOut_expired he]
    simp
  refine hs.change (local_settle m (room.conceded room.game.nextTurn) .turnTimeout)
    (Local.refl m1 _) hs.users ?_ ?_
  · show m1.rooms[room.id]? = _
    rw [hs.rooms, hr]
    show _ = ((m.settle _ _).rooms[room.id]?).map _
    rw [hat, Option.map_some, Option.map_some, Room.timedOut_live Room.timedOut_not_expired]
  · show (timeoutsAt now m room.id ++ []).Perm
      ([_] ++ timeoutsAt now (m.settle _ _) room.id)
    rw [timeoutsAt_of hr, timeoutsAt_of hat, Option.elim_some, Option.elim_some,
      Room.timeoutRecords_expired he, Room.timeoutRecords_live Room.timedOut_not_expired]

/-- A game that a request ends, where no turn has run out. -/
theorem Swept.settle (hs : Swept now m m1) (hr : m.rooms[room.id]? = some room)
    (hlive : ¬ room.isTurnExpired now = true) (room' : Room) (hid : room'.id = room.id)
    (reason : GameEndReason) : Swept now (m.settle room' reason) (m1.settle room' reason) := by
  have hat : ∀ m : RoomManager, (m.settle room' reason).rooms[room'.id]? = some room'.finishGame := by
    intro m
    show (m.rooms.insert room'.id _)[room'.id]? = _
    simp
  have hwait : ¬ room'.finishGame.isTurnExpired now = true := Room.waiting_live rfl
  refine hs.change (local_settle m room' reason) (local_settle m1 room' reason) hs.users ?_ ?_
  · rw [hat, hat, Option.map_some, Room.timedOut_live hwait]
  · rw [timeoutsAt_of (hat m), hid, timeoutsAt_of hr, Option.elim_some, Option.elim_some,
      Room.timeoutRecords_live hlive, Room.timeoutRecords_live hwait, List.append_nil,
      List.nil_append]

/-- A stone after which a game goes on has a later deadline. -/
theorem Swept.store (hs : Swept now m m1) (hr : m.rooms[room.id]? = some room)
    (hlive : ¬ room.isTurnExpired now = true) {room' : Room}
    (hlive' : ¬ room'.isTurnExpired now = true) :
    Swept now (m.store room.id room') (m1.store room.id room') := by
  have hat : ∀ m : RoomManager, (m.store room.id room').rooms[room.id]? = some room' := by
    intro m
    show (m.rooms.insert room.id _)[room.id]? = _
    simp
  refine hs.change (local_store m room.id room') (local_store m1 room.id room') hs.users ?_ ?_
  · rw [hat, hat, Option.map_some, Room.timedOut_live hlive']
  · rw [timeoutsAt_of (hat m), timeoutsAt_of hr, Option.elim_some, Option.elim_some,
      Room.timeoutRecords_live hlive, Room.timeoutRecords_live hlive']

theorem depart_users (m : RoomManager) (s : SessionId) (u : User) (room : Room) :
    (m.depart s u room).users = m.users.update s u.returnToLobby := by
  unfold depart
  dsimp only
  split <;> rfl

/-- The room under its key after a member has gone. -/
theorem depart_at (m : RoomManager) (s : SessionId) (u : User) (room : Room) :
    (m.depart s u room).rooms[room.id]? =
      if (room.removeMember s).2.members.isEmpty then none else some (room.removeMember s).2 := by
  unfold depart
  dsimp only
  split
  · show (m.rooms.erase room.id)[room.id]? = none
    simp
  · show (m.rooms.insert room.id _)[room.id]? = _
    simp

theorem Swept.depart (hs : Swept now m m1) (hseat : m.Seated s u room)
    (hwait : room.phase = .waiting) : Swept now (m.depart s u room) (m1.depart s u room) := by
  have hgone : ¬ (room.removeMember s).2.isTurnExpired now = true := by
    apply Room.waiting_live
    simp [Room.removeMember, hseat.contains]
  refine hs.change (local_depart m s u room) (local_depart m1 s u room) ?_ ?_ ?_
  · rw [depart_users, depart_users, hs.users]
  · rw [depart_at, depart_at]
    split
    · rfl
    · rw [Option.map_some, Room.timedOut_live hgone]
  · rw [timeoutsAt_of (depart_at m s u room), timeoutsAt_of hseat.here, Option.elim_some,
      Room.timeoutRecords_live (Room.waiting_live hwait)]
    split
    · exact List.Perm.refl _
    · rw [Option.elim_some, Room.timeoutRecords_live hgone]

theorem Swept.placeStone (hs : Swept now m m1) (h : m.WellFormed) (s : SessionId) (r : RoomId)
    (g : GameId) (x y : Int) (out : AcceptedMove) :
    ∃ answer move m' m1', m.placeStone s r g x y out now = .ok (answer, move, m') ∧
      m1.placeStone s r g x y out now = .ok (answer, move, m1') ∧ Swept now m' m1' := by
  rcases placeStone_cases h s r g x y now with ⟨result, -, e⟩ |
    ⟨u, room, hseat, rfl, hg, rfl, he | hphase | ⟨hlive, hphase, hrest⟩⟩
  · exact ⟨_, _, _, _, placeStone_misdirected e, placeStone_misdirected (hs.misdirected e), hs⟩
  · -- swept first, the room is waiting when the stone comes
    have hseat1 := hs.seated hseat
    have hwait := Room.timedOut_waiting he
    have hg1 : (room.timedOut now).gameId ≠ 0 := by
      rw [Room.timedOut_gameId]
      exact hg
    have e1 : m1.placeStone s _ _ x y out now = _ := placeStone_waiting hseat1 hg1 hwait
    rw [Room.timedOut_id, Room.timedOut_gameId] at e1
    exact ⟨_, _, _, _, placeStone_expired h hseat hg he, e1, hs.expired hseat.here he⟩
  · have hseat1 := hs.seated_live hseat (Room.waiting_live hphase)
    exact ⟨_, _, _, _, placeStone_waiting hseat hg hphase, placeStone_waiting hseat1 hg hphase, hs⟩
  have hseat1 := hs.seated_live hseat hlive
  rcases hrest with ⟨result, answer, -, ep, er, -⟩ | hacc
  · exact ⟨_, _, _, _, placeStone_rejected hseat hg hlive ep er,
      placeStone_rejected hseat1 hg hlive ep er, hs⟩
  · refine ⟨_, _, _, _, placeStone_taken hseat hg hlive hphase hacc,
      placeStone_taken hseat1 hg hlive hphase hacc, ?_⟩
    obtain ⟨-, hid, -⟩ :=
      Room.moved_fields room (room.game.tryPlaceStone (room.getPlayerStone s) x y).2 now
    unfold moved
    split
    · -- the new deadline is later than `now`
      rename_i hgo
      refine hs.store hseat.here hlive fun he => ?_
      obtain ⟨-, -, hle⟩ := isTurnExpired_iff.mp he
      have hturn : 0 < room.turnTime := by
        rw [(h.room hseat.here).turnTime]
        exact m.config.property.2.2
      rw [Room.moved, if_pos hgo] at hle
      exact Int.not_le.mpr (Int.lt_add_of_pos_right now hturn) hle
    · exact hs.settle hseat.here hlive _ hid _

theorem Swept.resign (hs : Swept now m m1) (h : m.WellFormed) (h1 : m1.WellFormed) (s : SessionId)
    (r : RoomId) (g : GameId) :
    ∃ answer m' m1', m.resign s r g now = .ok (answer, m') ∧
      m1.resign s r g now = .ok (answer, m1') ∧ Swept now m' m1' := by
  rcases gameRoomOf_spec h s r g with ⟨result, -, e⟩ | ⟨u, room, hseat, rfl, hg, rfl, -⟩
  · exact ⟨_, _, _, resign_misdirected e, resign_misdirected (hs.misdirected e), hs⟩
  by_cases he : room.isTurnExpired now = true
  · have hseat1 := hs.seated hseat
    have hwait := Room.timedOut_waiting he
    have hg1 : (room.timedOut now).gameId ≠ 0 := by
      rw [Room.timedOut_gameId]
      exact hg
    have e1 : m1.resign s _ _ now = _ := resign_waiting hseat1 hg1 hwait
    rw [Room.timedOut_id, Room.timedOut_gameId] at e1
    exact ⟨_, _, _, resign_expired h hseat hg he, e1, hs.expired hseat.here he⟩
  have hseat1 := hs.seated_live hseat he
  cases hphase : room.phase with
  | waiting => exact ⟨_, _, _, resign_waiting hseat hg hphase, resign_waiting hseat1 hg hphase, hs⟩
  | playing =>
    exact ⟨_, _, _, resign_taken h hseat hg he hphase, resign_taken h1 hseat1 hg he hphase,
      hs.settle hseat.here he (room.conceded (room.getPlayerStone s)) rfl _⟩

/-- A game that `LeaveRoom` ends before it takes the member out. -/
theorem Swept.closed (hs : Swept now m m1) (hseat : m.Seated s u room) {reason : GameEndReason}
    {mc m1c : RoomManager} {roomc room1 room1c : Room} (hc : Closed m s room reason now mc roomc)
    (hroom1 : room1 = room.timedOut now) (hc1 : Closed m1 s room1 reason now m1c room1c) :
    Swept now mc m1c ∧ room1c = roomc := by
  cases hc with
  | idle hphase =>
    rw [Room.timedOut_live (Room.waiting_live hphase)] at hroom1
    subst hroom1
    cases hc1 with
    | idle => exact ⟨hs, rfl⟩
    | expired he => exact absurd he (Room.waiting_live hphase)
    | forfeited hplay => rw [hphase] at hplay; cases hplay
  | expired he =>
    have hwait : room1.phase = .waiting := hroom1 ▸ Room.timedOut_waiting he
    cases hc1 with
    | idle => exact ⟨hs.expired hseat.here he, by rw [hroom1, Room.timedOut_expired he]⟩
    | expired he1 => exact absurd he1 (Room.waiting_live hwait)
    | forfeited hplay => rw [hwait] at hplay; cases hplay
  | forfeited hphase hlive =>
    rw [Room.timedOut_live hlive] at hroom1
    subst hroom1
    cases hc1 with
    | idle hwait => rw [hphase] at hwait; cases hwait
    | expired he => exact absurd he hlive
    | forfeited =>
      exact ⟨hs.settle hseat.here hlive (room1.conceded (room1.getPlayerStone s)) rfl reason, rfl⟩

theorem Swept.leaveRoom (hs : Swept now m m1) (h : m.WellFormed) (h1 : m1.WellFormed)
    (s : SessionId) {reason : GameEndReason} (hreason : reason = .leftRoom ∨ reason = .disconnected) :
    ∃ answer m' m1', m.leaveRoom s reason now = .ok (answer, m') ∧
      m1.leaveRoom s reason now = .ok (answer, m1') ∧ Swept now m' m1' := by
  cases hu : m.users.users[s]? with
  | none =>
    have hu1 : m1.users.users[s]? = none := by rwa [hs.users]
    exact ⟨_, _, _, leaveRoom_unknown now hreason hu, leaveRoom_unknown now hreason hu1, hs⟩
  | some u =>
    rcases h.user_cases hu with hidle | ⟨room, hseat⟩
    · have hidle1 : m1.Idle s u := ⟨by rw [hs.users]; exact hidle.user, hidle.state, hidle.roomId⟩
      exact ⟨_, _, _, hidle.leaveRoom now hreason, hidle1.leaveRoom now hreason, hs⟩
    · obtain ⟨mc, roomc, hclosed, e⟩ := hseat.leaveRoom now hreason h
      obtain ⟨m1c, room1c, hclosed1, e1⟩ := (hs.seated hseat).leaveRoom now hreason h1
      obtain ⟨hsc, rfl⟩ := hs.closed hseat hclosed rfl hclosed1
      obtain ⟨-, hseatc, -, -, hwait⟩ := h.closed hseat hclosed
      exact ⟨_, _, _, e, e1, hsc.depart hseatc hwait⟩

end Requests

end RoomManager

/-! ## The two orders -/

/-- The requests that look at the clock of one room, at `now`. -/
def Call.requestAt (now : Time) : Call → Bool
  | .placeStone _ _ _ _ _ _ t => t = now
  | .resign _ _ _ t => t = now
  | .leaveRoom _ _ t => t = now
  | _ => false

namespace RoomManager

/-- `UpdateTimeouts(now)` and then `l`. -/
def sweepThen (wideChars : Bytes → Nat) (m : RoomManager) (traversal : Traversal RoomId)
    (now : Time) (l : Call) : Except LogicError (Answer × RoomManager) := do
  let m ← m.updateTimeouts traversal now
  m.call wideChars l

/-- `l` and then `UpdateTimeouts(now)`. -/
def thenSweep (wideChars : Bytes → Nat) (m : RoomManager) (traversal : Traversal RoomId)
    (now : Time) (l : Call) : Except LogicError (Answer × RoomManager) := do
  let (a, m) ← m.call wideChars l
  let m ← m.updateTimeouts traversal now
  pure (a, m)

/-- Both refuse a wrong reason to leave, or both return the same and leave the same but for the order
of the records. -/
inductive SameOutcome :
    Except LogicError (Answer × RoomManager) → Except LogicError (Answer × RoomManager) → Prop
  | threw : SameOutcome (.error .invalidLeaveReason) (.error .invalidLeaveReason)
  | returned {a : Answer} {m m' : RoomManager} (husers : m'.users = m.users)
      (hrooms : m'.rooms = m.rooms) (hconfig : m'.config = m.config)
      (hlastRoom : m'.lastRoomId = m.lastRoomId) (hlastGame : m'.lastGameId = m.lastGameId)
      (hrecords : m'.finishedGames.Perm m.finishedGames) : SameOutcome (.ok (a, m)) (.ok (a, m'))

variable {m m1 : RoomManager} {now : Time}

/-- What a request does to swept rooms. -/
theorem Swept.call (hs : Swept now m m1) (h : m.WellFormed) (h1 : m1.WellFormed)
    (wideChars : Bytes → Nat) {l : Call} (hl : l.requestAt now = true) :
    (m.call wideChars l = .error .invalidLeaveReason ∧
        m1.call wideChars l = .error .invalidLeaveReason) ∨
      ∃ a m' m1', m.call wideChars l = .ok (a, m') ∧ m1.call wideChars l = .ok (a, m1') ∧
        Swept now m' m1' := by
  cases l with
  | placeStone s r g x y out t =>
    obtain rfl : t = now := by simpa [Call.requestAt] using hl
    obtain ⟨answer, move, m', m1', e, e1, hs'⟩ := hs.placeStone h s r g x y out
    exact Or.inr ⟨.placed answer move, m', m1', by rw [call, e]; rfl, by rw [call, e1]; rfl, hs'⟩
  | resign s r g t =>
    obtain rfl : t = now := by simpa [Call.requestAt] using hl
    obtain ⟨answer, m', m1', e, e1, hs'⟩ := hs.resign h h1 s r g
    exact Or.inr ⟨.resigned answer, m', m1', by rw [call, e]; rfl, by rw [call, e1]; rfl, hs'⟩
  | leaveRoom s reason t =>
    obtain rfl : t = now := by simpa [Call.requestAt] using hl
    by_cases hreason : reason = .leftRoom ∨ reason = .disconnected
    · obtain ⟨answer, m', m1', e, e1, hs'⟩ := hs.leaveRoom h h1 s hreason
      exact Or.inr ⟨.room answer, m', m1', by rw [call, e]; rfl, by rw [call, e1]; rfl, hs'⟩
    · have hthrow : reason ≠ .leftRoom ∧ reason ≠ .disconnected := not_or.mp hreason
      have e : ∀ m : RoomManager, m.call wideChars (.leaveRoom s reason t) =
          .error .invalidLeaveReason := by
        intro m
        rw [call, RoomManager.leaveRoom, if_pos hthrow]
        rfl
      exact Or.inl ⟨e m, e m1⟩
  | _ => cases hl

/-- Two sweeps differ in the order of their records only. -/
theorem Swept.same {a : Answer} {m2 : RoomManager} (h1 : Swept now m m1) (h2 : Swept now m m2) :
    SameOutcome (.ok (a, m1)) (.ok (a, m2)) := by
  refine .returned (h2.users.trans h1.users.symm) ?_ (h2.config.trans h1.config.symm)
    (h2.lastRoom.trans h1.lastRoom.symm) (h2.lastGame.trans h1.lastGame.symm)
    (h2.records.trans h1.records.symm)
  ext1 r
  rw [h2.rooms, h1.rooms]

end RoomManager

/-- In every reachable state a request of a player and a sweep at the same time can change places:
the request returns the same, and users, rooms and recorded results are the same, the results but for
their order. -/
theorem timeouts_commute {wideChars : Bytes → Nat} {config : RoomConfig} {m : RoomManager}
    {history : List (Entry Managed (Call × Answer))} {c : Managed}
    (hmake : RoomManager.make {} config = .ok m) (hrun : CallRun wideChars m history c) {now : Time}
    {l : Call} (hl : l.requestAt now = true) (before after : Traversal RoomId) :
    RoomManager.SameOutcome (c.manager.sweepThen wideChars before now l)
      (c.manager.thenSweep wideChars after now l) := by
  have h := (run_wellFormed hmake hrun).manager
  obtain ⟨m1, e1, hs⟩ := RoomManager.updateTimeouts_swept h before now
  have h1 : m1.WellFormed := by
    rw [RoomManager.updateTimeouts_spec h] at e1
    exact Except.ok.inj e1 ▸ foldl_expire_wellFormed now _ h
  rw [RoomManager.sweepThen, RoomManager.thenSweep, e1]
  rcases hs.call h h1 wideChars hl with ⟨e, e1⟩ | ⟨a, m', m1', e, e1, hs'⟩
  · rw [e]
    show RoomManager.SameOutcome (m1.call wideChars l) (.error .invalidLeaveReason)
    rw [e1]
    exact .threw
  · have h' : m'.WellFormed := by
      refine (h.call_effect e).wellFormed h ?_ ?_
      · rintro s nickname rfl
        cases hl
      · rintro s rfl
        cases hl
    obtain ⟨m2, e2, hs2⟩ := RoomManager.updateTimeouts_swept h' after now
    rw [e]
    show RoomManager.SameOutcome (m1.call wideChars l)
      ((m'.updateTimeouts after now).bind fun m => .ok (a, m))
    rw [e1, e2]
    exact hs'.same hs2

/-- The stone comes when the turn of its player has just run out. -/
theorem timeouts_commute_late : ∃ history c,
    CallRun (fun _ => 1) RoomManager.fresh history c ∧
      RoomManager.SameOutcome
        (c.manager.sweepThen (fun _ => 1) .ascending (1 + seconds 300)
          (.placeStone 2 1 1 0 0 {} (1 + seconds 300)))
        (c.manager.thenSweep (fun _ => 1) .ascending (1 + seconds 300)
          (.placeStone 2 1 1 0 0 {} (1 + seconds 300))) ∧
      ∃ m f, c.manager.thenSweep (fun _ => 1) .ascending (1 + seconds 300)
          (.placeStone 2 1 1 0 0 {} (1 + seconds 300)) = .ok (.placed .gameNotRunning {}, m) ∧
        m.finishedGames = [f] ∧ f.reason = .turnTimeout := by
  obtain ⟨history, c, hrun, hcheck⟩ := CallRun.played (fun _ => 1) RoomManager.fresh stoneCalls
    (fun _ c => (c.manager.thenSweep (fun _ => 1) .ascending (1 + seconds 300)
      (.placeStone 2 1 1 0 0 {} (1 + seconds 300))).toOption.any
        fun outcome : Answer × RoomManager => decide (outcome.1 = .placed .gameNotRunning {} ∧
          outcome.2.finishedGames.map FinishedGame.reason = [.turnTimeout])) (by decide +kernel)
  refine
    ⟨_, c, hrun, timeouts_commute RoomManager.make_fresh hrun (by decide) .ascending .ascending, ?_⟩
  generalize c.manager.thenSweep _ _ _ _ = outcome at hcheck ⊢
  cases outcome with
  | error e => cases hcheck
  | ok r =>
    obtain ⟨ha, hreasons⟩ := decide_eq_true_eq.mp hcheck
    obtain ⟨f, hf, hreason⟩ := List.map_eq_singleton_iff.mp hreasons
    exact ⟨r.2, f, by rw [← ha], hf, hreason⟩

end SelectServer
