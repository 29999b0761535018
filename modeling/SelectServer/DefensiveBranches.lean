import SelectServer.Server

/- The branches that the logic keeps for a state that should not be: a
   `StateMismatch`, a failed cleanup, a host or a member without a user, a room
   that is gone after its move, and the throws of `Room`, `FinishRoom`,
   `ExpireRoom` and `LeaveRoom`. `Guarded` says of a manager that none of them is
   open, `branches_unreached` that every manager the server works on is guarded:
   also those between two calls of one handler, since any run of calls may follow
   the state that the server is in. -/
namespace SelectServer
open Wire (Bytes)
open Histories

/-- Whether an answer reports a broken state. -/
def Answer.mismatched : Answer → Bool
  | .created result _ => result = .stateMismatch
  | .room result => result = .stateMismatch
  | .placed result _ => result = .stateMismatch
  | .resigned result => result = .stateMismatch
  | .none => false
  | .login _ => false
  | .popped _ => false

/-- The only argument that a call checks by a throw: `LeaveRoom` takes two of the reasons. -/
def Call.Proper : Call → Prop
  | .leaveRoom _ reason _ => reason = .leftRoom ∨ reason = .disconnected
  | _ => True

/-- None of the branches for a broken state can be entered from `m`. -/
structure RoomManager.Guarded (wideChars : Bytes → Nat) (m : RoomManager) : Prop where
  /-- No call throws and none answers `StateMismatch`. -/
  answers : ∀ l : Call, l.Proper →
    ∃ a m', m.call wideChars l = .ok (a, m') ∧ a.mismatched = false
  /-- The reason to leave is checked before anything is changed. -/
  improper : ∀ l : Call, ¬ l.Proper → m.call wideChars l = .error .invalidLeaveReason
  /-- `ExpireRoom` does not throw, at any time. -/
  expires : ∀ (r : RoomId) (room : Room) (now : Time), m.find r = some room →
    ∃ expired m' room', m.expireRoom room now = .ok (expired, m', room')
  /-- `HandleDisconnected` takes a known user out of its room, or finds it in none. -/
  cleanup : ∀ (s : SessionId) (u : User) (now : Time), m.users.find s = some u →
    ∃ result m', m.leaveRoom s .disconnected now = .ok (result, m') ∧
      (result = .success ∨ result = .notInRoom)
  /-- `HandleChat` finds the room of a sender who is in one, and the sender in it. -/
  chat : ∀ (s : SessionId) (u : User), m.users.find s = some u → u.state = .inRoom →
    ∃ room, m.find u.roomId = some room ∧ room.contains s = true
  /-- `NotifyRoomState` finds the host and every member of a room. -/
  state : ∀ (r : RoomId) (room : Room), m.find r = some room →
    (PacketProcessor.roomState m r room).isSome = true
  /-- `HandleGameMove` finds the room of a move that was accepted. -/
  move : ∀ (s : SessionId) (r : RoomId) (g : GameId) (x y : Int) (out move : AcceptedMove)
    (now : Time) (m' : RoomManager), m.placeStone s r g x y out now = .ok (.success, move, m') →
      (m'.find move.room).isSome = true

/-! ## Well-formed managers are guarded -/

namespace RoomManager
variable {m : RoomManager}

theorem WellFormed.call_matched (h : m.WellFormed) {wideChars : Bytes → Nat} {l : Call}
    {a : Answer} {m' : RoomManager} (hcall : m.call wideChars l = .ok (a, m')) :
    a.mismatched = false := by
  -- the refusals of the spec lemmas leave `stateMismatch` out
  have hroom : ∀ {result : RoomResult}, result.Refusal → decide (result = .stateMismatch) = false :=
    fun hr => decide_eq_false hr.2
  have hmove : ∀ {result : GameMoveResult}, result.Refusal →
      decide (result = .stateMismatch) = false := fun hr => decide_eq_false hr.2
  cases l with
  | login s nickname =>
    simp only [call, Except.ok.injEq, Prod.mk.injEq] at hcall
    rw [← hcall.1]
    rfl
  | remove s =>
    simp only [call, Except.ok.injEq, Prod.mk.injEq] at hcall
    rw [← hcall.1]
    rfl
  | createRoom s title =>
    rcases createRoom_spec h wideChars s title with ⟨result, hr, e⟩ | ⟨u, -, -, -, -, e⟩ <;>
      rw [call, e] at hcall <;> cases hcall
    · exact hroom hr
    · rfl
  | enterRoom s roomId =>
    rcases enterRoom_spec h s roomId with ⟨result, hr, e⟩ | ⟨u, room, -, -, -, -, -, -, e⟩ <;>
      rw [call, e] at hcall <;> cases hcall
    · exact hroom hr
    · rfl
  | leaveRoom s reason now =>
    by_cases hreason : reason = .leftRoom ∨ reason = .disconnected
    · rcases leaveRoom_spec h s now hreason with
        ⟨-, e⟩ | ⟨u, -, e⟩ | ⟨u, room, m1, room1, -, -, e⟩ <;>
        rw [call, e] at hcall <;> cases hcall <;> rfl
    · have hthrow : reason ≠ .leftRoom ∧ reason ≠ .disconnected := not_or.mp hreason
      simp only [call, leaveRoom, if_pos hthrow] at hcall
      cases hcall
  | setReady s ready =>
    rcases setReady_spec h s ready with ⟨result, hr, e⟩ | ⟨u, room, -, -, -, e⟩ <;>
      rw [call, e] at hcall <;> cases hcall
    · exact hroom hr
    · rfl
  | startGame s now =>
    rcases startGame_spec h s now with ⟨result, hr, e⟩ | ⟨u, room, guest, -, -, -, -, -, -, -, e⟩ <;>
      rw [call, e] at hcall <;> cases hcall
    · exact hroom hr
    · rfl
  | placeStone s r g x y out now =>
    rcases placeStone_spec h s r g x y out now with
      ⟨result, hr, e⟩ | ⟨u, room, -, -, -, -, ⟨-, e⟩ | ⟨-, -, -, e⟩⟩ <;>
      rw [call, e] at hcall <;> cases hcall
    · exact hmove hr
    · rfl
    · rfl
  | resign s r g now =>
    rcases resign_spec h s r g now with
      ⟨result, hr, e⟩ | ⟨u, room, -, -, -, -, ⟨-, e⟩ | ⟨-, -, e⟩⟩ <;>
      rw [call, e] at hcall <;> cases hcall
    · exact hmove hr
    · rfl
    · rfl
  | updateTimeouts traversal now =>
    rw [call, updateTimeouts_spec h] at hcall
    cases hcall
    rfl
  | tryPopFinishedGame =>
    simp only [call, Except.ok.injEq, Prod.mk.injEq] at hcall
    rw [← hcall.1]
    rfl

theorem call_improper (wideChars : Bytes → Nat) {l : Call} (hl : ¬ l.Proper) :
    m.call wideChars l = .error .invalidLeaveReason := by
  cases l with
  | leaveRoom s reason now =>
    have hthrow : reason ≠ .leftRoom ∧ reason ≠ .disconnected := not_or.mp hl
    rw [call, leaveRoom, if_pos hthrow]
    rfl
  | _ => exact absurd trivial hl

theorem WellFormed.expireRoom_returns (h : m.WellFormed) {r : RoomId} {room : Room}
    (hr : m.find r = some room) (now : Time) :
    ∃ expired m' room', m.expireRoom room now = .ok (expired, m', room') := by
  by_cases he : room.isTurnExpired now = true
  · exact ⟨_, _, _, expireRoom_expired m (h.room hr).sound he⟩
  · exact ⟨_, _, _, expireRoom_live m he⟩

theorem WellFormed.placeStone_room (h : m.WellFormed) {s : SessionId} {r : RoomId} {g : GameId}
    {x y : Int} {out move : AcceptedMove} {now : Time} {m' : RoomManager}
    (e : m.placeStone s r g x y out now = .ok (.success, move, m')) :
    (m'.find move.room).isSome = true := by
  rcases placeStone_spec h s r g x y out now with
    ⟨result, hr, e'⟩ | ⟨u, room, -, -, -, -, ⟨-, e'⟩ | ⟨-, -, -, e'⟩⟩
  · rw [e'] at e
    cases e
    exact absurd rfl hr.1
  · rw [e'] at e
    cases e
  · rw [e'] at e
    cases e
    obtain ⟨room', hfind, -⟩ := PacketProcessor.find_moved m room
      (room.game.tryPlaceStone (room.getPlayerStone s) x y).2 now
    show ((m.moved room _ now).find room.id).isSome = true
    rw [hfind]
    rfl

/-- Every branch is ruled out by what the users, rooms and games know of each other. -/
theorem WellFormed.guarded (h : m.WellFormed) (wideChars : Bytes → Nat) : m.Guarded wideChars where
  answers l hl := by
    obtain ⟨a, m', hcall⟩ := h.call_returns wideChars l fun s reason now e => by
      rw [e] at hl
      exact hl
    exact ⟨a, m', hcall, h.call_matched hcall⟩
  improper l hl := call_improper wideChars hl
  expires r room now hr := h.expireRoom_returns hr now
  cleanup s u now hu := by
    rcases leaveRoom_spec h s now (Or.inr rfl) with
      ⟨hnone, -⟩ | ⟨u', -, e⟩ | ⟨u', room, m1, room1, -, -, e⟩
    · rw [UserManager.find, hnone] at hu
      cases hu
    · exact ⟨_, _, e, Or.inr rfl⟩
    · exact ⟨_, _, e, Or.inl rfl⟩
  chat s u hu hin := by
    rcases h.user_cases hu with hidle | ⟨room, hseat⟩
    · rw [hidle.state] at hin
      cases hin
    · exact ⟨room, by rw [hseat.roomId]; exact hseat.here, hseat.contains⟩
  state r room hr := by
    obtain ⟨notification, -, e, -⟩ := h.roomState_spec hr
    rw [e]
    rfl
  move s r g x y out move now m' e := h.placeStone_room e

end RoomManager

/-! ## Every state of the logic -/

theorem Server.Sound.managed {c : Server} (h : c.Sound) :
    ({ manager := c.rooms } : Managed).WellFormed :=
  ⟨h.rooms.wellFormed, fun s e => by cases e⟩

/-- In every state of the server no step throws, and whatever calls are made next, no branch for a
broken state can be entered. -/
theorem branches_unreached {host : Host} {timeout : Time} {p : PacketProcessor}
    {history : List (Entry Server Input)} {c : Server}
    (hp : PacketProcessor.make {} timeout = .ok p) (hrun : ServerRun host p history c) :
    (∀ l r, c.step host l = some r → ∃ c', r = .ok c') ∧
      ∀ calls d, Run (CallStep host.multiByteToWideChar) { manager := c.rooms } calls d →
        d.manager.Guarded host.multiByteToWideChar := by
  have hsound := ServerRun.sound hp hrun
  constructor
  · intro l r h
    obtain ⟨c', -, e, -⟩ := hsound.step_returns h
    exact ⟨c', e⟩
  · intro calls d hcalls
    have hd : d.WellFormed := hcalls.invariant (P := Managed.WellFormed) hsound.managed
      fun _ _ _ hm hstep => hstep.wellFormed hm
    exact hd.manager.guarded _

theorem branches_unreached_playing : ∃ history c,
    ServerRun Host.ascii PacketProcessor.fresh history c ∧
      (c.rooms.rooms[(1 : RoomId)]?.any fun room => room.phase == .playing) = true ∧
        c.rooms.Guarded Host.ascii.multiByteToWideChar := by
  obtain ⟨history, c, hrun, hcheck⟩ := ServerRun.played Host.ascii PacketProcessor.fresh
    playingInputs (fun _ c => c.rooms.rooms[(1 : RoomId)]?.any fun room => room.phase == .playing)
    (by decide +kernel)
  exact ⟨history, c, hrun, hcheck,
    (branches_unreached PacketProcessor.make_fresh hrun).2 [] _ Run.start⟩

/-- `LeaveRoom` throws on a reason for which no one leaves a room, also of a session it does not
know. -/
theorem leaveRoom_resigned : ∃ p, PacketProcessor.make {} 10 = .ok p ∧
    ServerRun Host.ascii p [] { processor := p } ∧
      p.rooms.leaveRoom 1 .resigned 0 = .error .invalidLeaveReason :=
  ⟨.fresh, rfl, Run.start, rfl⟩

end SelectServer
