import SelectServer.RoomInvariant

/- What each call of `RoomManager` does on well-formed rooms: it refuses and
   changes nothing, or it makes the change its lemma names. None of them throws
   there, but for `LeaveRoom` under a reason it does not take, which it checks
   first. Everything later reads these lemmas and not the code. -/
namespace SelectServer
open Wire (Bytes)

/-- An answer that turns a request down by the rules, and not because the state is broken. -/
def RoomResult.Refusal (result : RoomResult) : Prop :=
  result ≠ .success ∧ result ≠ .stateMismatch

instance (result : RoomResult) : Decidable result.Refusal :=
  inferInstanceAs (Decidable (_ ∧ _))

def GameMoveResult.Refusal (result : GameMoveResult) : Prop :=
  result ≠ .success ∧ result ≠ .stateMismatch

instance (result : GameMoveResult) : Decidable result.Refusal :=
  inferInstanceAs (Decidable (_ ∧ _))

namespace RoomManager
variable {m : RoomManager} {s : SessionId} {u : User} {room : Room}

/-- A session that is in a room, with its user record and the room. -/
structure Seated (m : RoomManager) (s : SessionId) (u : User) (room : Room) : Prop where
  user : m.users.users[s]? = some u
  state : u.state = .inRoom
  roomId : u.roomId = room.id
  here : m.rooms[room.id]? = some room
  mem : s ∈ room.members

/-- A session that is logged in and in no room. -/
structure Idle (m : RoomManager) (s : SessionId) (u : User) : Prop where
  user : m.users.users[s]? = some u
  state : u.state = .lobby
  roomId : u.roomId = invalidRoomId

theorem Idle.lobby (h : m.Idle s u) {u' : User} (hu : m.users.users[s]? = some u') :
    u'.state = .lobby := by
  rw [h.user] at hu
  exact Option.some.inj hu ▸ h.state

theorem Idle.away (h : m.Idle s u) (hwf : m.WellFormed) (r : RoomId) (room : Room)
    (hr : m.rooms[r]? = some room) : s ∉ room.members := by
  intro hs
  obtain ⟨u', hu', hstate, -⟩ := hwf.member hr s hs
  rw [h.lobby hu'] at hstate
  cases hstate

/-- Every user is in one of the two states. -/
theorem WellFormed.user_cases (h : m.WellFormed) (hu : m.users.users[s]? = some u) :
    m.Idle s u ∨ ∃ room, m.Seated s u room := by
  cases hst : u.state with
  | lobby => exact Or.inl ⟨hu, hst, h.lobby hu hst⟩
  | inRoom =>
    obtain ⟨room, hr, hmem⟩ := h.inRoom hu hst
    obtain ⟨hid, -⟩ := h.stored hr
    exact Or.inr ⟨room, hu, hst, hid.symm, hid ▸ hr, hmem⟩

theorem store_self {r : RoomId} (h : m.rooms[r]? = some room) : m.store r room = m := by
  have e : m.rooms.insert r room = m.rooms := by
    ext1 k
    grind
  simp [RoomManager.store, e]

theorem store_other (m : RoomManager) {r r' : RoomId} (room : Room) (hne : r' ≠ r) :
    (m.store r room).rooms[r']? = m.rooms[r']? := by
  simp only [RoomManager.store]
  grind

theorem Seated.roomId_of (h : m.Seated s u room) {u' : User} (hu : m.users.users[s]? = some u') :
    u'.roomId = room.id := by
  rw [h.user] at hu
  exact Option.some.inj hu ▸ h.roomId

theorem Seated.contains (h : m.Seated s u room) : room.contains s = true := by
  simpa [Room.contains] using h.mem

/-! ## Login, creating and entering a room -/

theorem login_spec (m : UserManager) (s : SessionId) (nickname : Bytes) :
    (∃ result, result ≠ .success ∧ m.login s nickname = (result, m)) ∨
      (m.users[s]? = none ∧ UserManager.isValidNickname nickname = true ∧
        m.sessionByNickname[nickname]? = none ∧
        m.login s nickname = (.success, m.add s nickname)) := by
  unfold UserManager.login
  split
  · exact Or.inl ⟨_, by decide, rfl⟩
  rename_i hnew
  split
  · exact Or.inl ⟨_, by decide, rfl⟩
  rename_i hvalid
  split
  · exact Or.inl ⟨_, by decide, rfl⟩
  rename_i hfree
  exact Or.inr ⟨by simpa [UserManager.find] using hnew, by simpa using hvalid,
    by simpa using hfree, rfl⟩

/-- The room that `CreateRoom` builds. -/
def newRoom (m : RoomManager) (s : SessionId) (title : Bytes) : Room :=
  { id := m.lastRoomId + 1, title := title, capacity := roomPlayerCount, members := [s],
    hostSession := s, turnTime := m.config.val.turnTime }

theorem WellFormed.next_id_free (h : m.WellFormed) (hlast : m.lastRoomId ≠ 0xffffffff) :
    m.rooms[m.lastRoomId + 1]? = none := by
  cases hget : m.rooms[m.lastRoomId + 1]? with
  | none => rfl
  | some room =>
    have := h.stored hget
    grind

theorem createRoom_spec (h : m.WellFormed) (wideChars : Bytes → Nat) (s : SessionId)
    (title : Bytes) :
    (∃ result, result.Refusal ∧
        createRoom wideChars m s title = .ok (result, invalidRoomId, m)) ∨
      ∃ u, m.Idle s u ∧ isValidTitle wideChars title = true ∧
        m.rooms.size < m.config.val.maxRooms ∧ m.lastRoomId ≠ 0xffffffff ∧
        createRoom wideChars m s title =
          .ok (.success, m.lastRoomId + 1, m.created s u (m.newRoom s title)) := by
  unfold createRoom
  split
  · exact Or.inl ⟨_, by decide, rfl⟩
  rename_i u hu
  split
  · exact Or.inl ⟨_, by decide, rfl⟩
  rename_i hstate
  -- a user in the lobby has no room
  split
  · rename_i hroomId
    exact absurd (h.lobby hu (not_not.mp hstate)) hroomId
  rename_i hroomId
  split
  · exact Or.inl ⟨_, by decide, rfl⟩
  rename_i htitle
  split
  · exact Or.inl ⟨_, by decide, rfl⟩
  rename_i hspace
  split
  · exact Or.inl ⟨_, by decide, rfl⟩
  rename_i hlast
  refine Or.inr ⟨u, ⟨hu, not_not.mp hstate, not_not.mp hroomId⟩, by simpa using htitle,
    by omega, hlast, ?_⟩
  have hmake : Room.make (m.lastRoomId + 1) title m.config.val.capacity s m.config.val.turnTime =
      .ok (m.newRoom s title) := by
    have hs : s ≠ 0 := (h.user hu).2.1
    obtain ⟨-, hcap, hturn⟩ := m.config.property
    have hvalid : ¬ (m.lastRoomId + 1 = invalidRoomId ∨ roomPlayerCount = 0 ∨ s = 0 ∨
        m.config.val.turnTime ≤ 0) := by
      simp only [roomPlayerCount]
      grind
    simp only [Room.make, hcap, if_neg hvalid, newRoom]
  simp only [hmake, bind, Except.bind, RoomManager.find, h.next_id_free hlast, Option.isSome_none,
    Bool.false_eq_true, if_false]
  rfl

theorem enterRoom_spec (h : m.WellFormed) (s : SessionId) (roomId : RoomId) :
    (∃ result, result.Refusal ∧ m.enterRoom s roomId = (result, m)) ∨
      ∃ u room, m.Idle s u ∧ room.id = roomId ∧ m.rooms[room.id]? = some room ∧
        room.phase = .waiting ∧ s ∉ room.members ∧ room.members.length < 2 ∧
        m.enterRoom s roomId = (.success, m.entered s u room) := by
  unfold enterRoom
  split
  · exact Or.inl ⟨_, by decide, rfl⟩
  rename_i u hu
  split
  · exact Or.inl ⟨_, by decide, rfl⟩
  rename_i hstate
  split
  · rename_i hroomId
    exact absurd (h.lobby hu (not_not.mp hstate)) hroomId
  rename_i hroomId
  split
  · exact Or.inl ⟨_, by decide, rfl⟩
  rename_i room hr
  split
  · exact Or.inl ⟨_, by decide, rfl⟩
  rename_i hphase
  -- and is a member of none
  split
  · rename_i hmem
    obtain ⟨u', hu', hin, -⟩ := h.member hr s (by simpa [Room.contains] using hmem)
    rw [UserManager.find, hu'] at hu
    rw [Option.some.inj hu] at hin
    exact absurd hin (by simp [not_not.mp hstate])
  rename_i hnew
  split
  · exact Or.inl ⟨_, by decide, rfl⟩
  rename_i hfull
  have hid : room.id = roomId := (h.stored hr).1
  have hwait : room.phase = .waiting := by cases e : room.phase <;> simp_all
  have hcap := (h.room hr).capacity
  have hs : s ≠ 0 := (h.user hu).2.1
  refine Or.inr ⟨u, room, ⟨hu, not_not.mp hstate, not_not.mp hroomId⟩, hid, hid ▸ hr, hwait,
    by simpa [Room.contains] using hnew, by simp only [hcap, roomPlayerCount] at hfull; omega, ?_⟩
  have hadd : ¬ (room.phase ≠ .waiting ∨ s = 0 ∨ room.contains s = true ∨
      room.members.length ≥ room.capacity) := by
    simp only [hwait, hs, hnew, hfull]
    simp
  simp only [Room.addMember, if_neg hadd, Bool.not_true, Bool.false_eq_true, if_false, entered, hid]

/-! ## Readiness and the start of a game -/

theorem roomOf_spec (h : m.WellFormed) (s : SessionId) :
    (∃ result, result.Refusal ∧ m.roomOf s = .error result) ∨
      ∃ u room, m.Seated s u room ∧ m.roomOf s = .ok (room.id, room) := by
  unfold roomOf
  split
  · exact Or.inl ⟨_, by decide, rfl⟩
  rename_i u hu
  rcases h.user_cases hu with hidle | ⟨room, hseat⟩
  · exact Or.inl ⟨.notInRoom, by decide, by simp [hidle.state]⟩
  · refine Or.inr ⟨u, room, hseat, ?_⟩
    simp [hseat.state, hseat.roomId, RoomManager.find, hseat.here, hseat.contains]

theorem setReady_spec (h : m.WellFormed) (s : SessionId) (ready : Bool) :
    (∃ result, result.Refusal ∧ m.setReady s ready = (result, m)) ∨
      ∃ u room, m.Seated s u room ∧ room.phase = .waiting ∧ s ≠ room.hostSession ∧
        m.setReady s ready = (.success, m.store room.id (room.setReady s ready)) := by
  unfold setReady
  rcases roomOf_spec h s with ⟨result, hne, e⟩ | ⟨u, room, hseat, e⟩ <;> rw [e] <;> dsimp only
  · exact Or.inl ⟨_, hne, rfl⟩
  split
  · exact Or.inl ⟨_, by decide, rfl⟩
  rename_i hphase
  split
  · exact Or.inl ⟨_, by decide, rfl⟩
  rename_i hhost
  exact Or.inr ⟨u, room, hseat, by cases e : room.phase <;> simp_all, Ne.symm hhost, rfl⟩

theorem startGame_spec (h : m.WellFormed) (s : SessionId) (now : Time) :
    (∃ result, result.Refusal ∧ m.startGame s now = (result, m)) ∨
      ∃ u room guest, m.Seated s u room ∧ room.phase = .waiting ∧ room.hostSession = s ∧
        room.members = [s, guest] ∧ guest ≠ s ∧ guest ∈ room.readyMembers ∧
        m.lastGameId ≠ 0xffffffff ∧
        m.startGame s now = (.success, m.started room now) := by
  unfold startGame
  rcases roomOf_spec h s with ⟨result, hne, e⟩ | ⟨u, room, hseat, e⟩ <;> rw [e] <;> dsimp only
  · exact Or.inl ⟨_, hne, rfl⟩
  split
  · exact Or.inl ⟨_, by decide, rfl⟩
  rename_i hhost
  split
  · exact Or.inl ⟨_, by decide, rfl⟩
  rename_i hphase
  split
  · exact Or.inl ⟨_, by decide, rfl⟩
  rename_i htwo
  split
  · exact Or.inl ⟨_, by decide, rfl⟩
  rename_i hready
  split
  · exact Or.inl ⟨_, by decide, rfl⟩
  rename_i hlast
  rw [not_not] at hhost htwo
  rcases (h.room hseat.here).seats with hm | ⟨guest, hm, hguest⟩
  · simp [hm, roomPlayerCount] at htwo
  refine Or.inr ⟨u, room, guest, hseat, by cases e : room.phase <;> simp_all, hhost,
    by rw [hm, hhost], hhost ▸ hguest, ?_, hlast, rfl⟩
  simpa [hm, hguest, Room.isReady] using hready

/-! ## The end of a game -/

end RoomManager

/-- The room after a forfeit. -/
def Room.conceded (room : Room) (loser : GameStone) : Room :=
  { room with game := (room.game.forfeit loser).2 }

theorem Room.forfeit_eq (room : Room) (loser : GameStone) :
    room.forfeit loser = ((room.game.forfeit loser).1, room.conceded loser) := rfl

namespace OmokGame

def Over (g : OmokGame) : Prop := g.status = .blackWon ∨ g.status = .whiteWon ∨ g.status = .draw

theorem Over.not_playing {g : OmokGame} (h : g.Over) : g.status ≠ .playing := by
  rcases h with h | h | h <;> simp [h]

theorem forfeit_playing {g : OmokGame} {loser : GameStone} (h : g.status = .playing)
    (hl : loser = .black ∨ loser = .white) :
    g.forfeit loser = (true, { g with
      status := if loser = .black then .whiteWon else .blackWon
      nextTurn := .empty }) := by
  have hl' : ¬ (loser ≠ .black ∧ loser ≠ .white) := by tauto
  simp [forfeit, h, hl']

theorem forfeit_over {g : OmokGame} {loser : GameStone} (h : g.status = .playing)
    (hl : loser = .black ∨ loser = .white) : (g.forfeit loser).2.Over := by
  rw [forfeit_playing h hl]
  unfold Over
  dsimp only
  split <;> simp

theorem forfeit_moveCount (g : OmokGame) (loser : GameStone) :
    (g.forfeit loser).2.moveCount = g.moveCount := by
  unfold forfeit
  split
  · rfl
  split <;> rfl

theorem Sound.forfeit {g : OmokGame} (hg : g.Sound) (loser : GameStone) :
    (g.forfeit loser).2.Sound := by
  unfold OmokGame.forfeit
  split
  · exact hg
  split
  · exact hg
  refine ⟨hg.count, fun e => ?_, fun e => ?_, fun _ => rfl⟩
  · dsimp only at e; split at e <;> cases e
  · dsimp only at e; split at e <;> cases e

end OmokGame

namespace RoomManager
variable {m : RoomManager} {s : SessionId} {u : User} {room : Room}

theorem finishRoom_eq (room : Room) (m : RoomManager) (reason : GameEndReason)
    (hplay : room.phase = .playing) (hover : room.game.Over) :
    m.finishRoom room reason =
      .ok ({ m with finishedGames := m.finishedGames ++ [room.record reason] },
        room.finishGame) := by
  have hfinal : ¬ (room.game.status ≠ .blackWon ∧ room.game.status ≠ .whiteWon ∧
      room.game.status ≠ .draw) := by
    unfold OmokGame.Over at hover
    tauto
  simp only [finishRoom, hplay, ne_eq, not_true_eq_false, if_false, if_neg hfinal, Room.record]

theorem isTurnExpired_iff {now : Time} : room.isTurnExpired now = true ↔
    room.phase = .playing ∧ room.game.status = .playing ∧ room.turnDeadline ≤ now := by
  simp [Room.isTurnExpired, and_assoc]

theorem expireRoom_live (m : RoomManager) {now : Time} (h : ¬ room.isTurnExpired now = true) :
    m.expireRoom room now = .ok (false, m, room) := by
  simp [expireRoom, h]

theorem expireRoom_expired (m : RoomManager) {now : Time} (hs : room.game.Sound)
    (h : room.isTurnExpired now = true) :
    m.expireRoom room now =
      .ok (true,
        { m with finishedGames :=
            m.finishedGames ++ [(room.conceded room.game.nextTurn).record .turnTimeout] },
        (room.conceded room.game.nextTurn).finishGame) := by
  obtain ⟨hphase, hstatus, -⟩ := isTurnExpired_iff.mp h
  have hturn := hs.turn hstatus
  have hf : (room.game.forfeit room.game.nextTurn).1 = true := by
    rw [OmokGame.forfeit_playing hstatus hturn]
  have hover : (room.conceded room.game.nextTurn).game.Over := OmokGame.forfeit_over hstatus hturn
  have hfin := finishRoom_eq (room.conceded room.game.nextTurn) m .turnTimeout hphase hover
  simp only [expireRoom, h, Room.forfeit_eq, hf, Bool.not_true, Bool.false_eq_true, if_false, hfin,
    bind, Except.bind, pure, Except.pure]

/-- `ExpireRoom` at a key, as a function. -/
def expire (now : Time) (m : RoomManager) (key : RoomId) : RoomManager :=
  match m.rooms[key]? with
  | none => m
  | some room =>
    if room.isTurnExpired now then m.settle (room.conceded room.game.nextTurn) .turnTimeout else m

theorem expireAt_eq (h : m.WellFormed) (now : Time) (key : RoomId) :
    expireAt now m key = .ok (expire now m key) := by
  unfold expireAt expire
  simp only [RoomManager.find]
  cases hr : m.rooms[key]? with
  | none => rfl
  | some room =>
    obtain ⟨hid, -⟩ := h.stored hr
    by_cases he : room.isTurnExpired now = true
    · simp only [expireRoom_expired m (h.room hr).sound he, if_pos he, bind, Except.bind]
      subst hid
      rfl
    · simp only [expireRoom_live m he, if_neg he, bind, Except.bind]
      rw [store_self hr]
      rfl

theorem WellFormed.expired (h : m.WellFormed) (hr : m.rooms[room.id]? = some room) {now : Time}
    (he : room.isTurnExpired now = true) :
    (m.settle (room.conceded room.game.nextTurn) .turnTimeout).WellFormed := by
  obtain ⟨-, hstatus, -⟩ := isTurnExpired_iff.mp he
  have hsound := (h.room hr).sound
  exact h.settle .turnTimeout hr (hsound.forfeit _)
    (OmokGame.forfeit_over hstatus (hsound.turn hstatus)).not_playing

theorem WellFormed.expire (h : m.WellFormed) (now : Time) (key : RoomId) :
    (expire now m key).WellFormed := by
  unfold RoomManager.expire
  split
  · exact h
  rename_i room hr
  split
  · rename_i he
    obtain ⟨hid, -⟩ := h.stored hr
    exact h.expired (hid ▸ hr) he
  · exact h

theorem foldlM_expireAt (now : Time) (keys : List RoomId) : ∀ {m : RoomManager}, m.WellFormed →
    keys.foldlM (expireAt now) m = .ok (keys.foldl (expire now) m) := by
  induction keys with
  | nil => intro m _; rfl
  | cons key keys ih =>
    intro m h
    rw [List.foldlM_cons, expireAt_eq h, List.foldl_cons]
    exact ih (h.expire now key)

theorem updateTimeouts_spec (h : m.WellFormed) (traversal : Traversal RoomId) (now : Time) :
    m.updateTimeouts traversal now =
      .ok ((traversal.order m.rooms.keys).foldl (expire now) m) :=
  foldlM_expireAt now _ h

/-! ## Leaving -/

/-- How the game of a room ends when a member leaves: there is none, its turn had run out, or
the member forfeits. -/
inductive Closed (m : RoomManager) (s : SessionId) (room : Room) (reason : GameEndReason)
    (now : Time) : RoomManager → Room → Prop
  | idle (hphase : room.phase = .waiting) : Closed m s room reason now m room
  | expired (he : room.isTurnExpired now = true) :
      Closed m s room reason now (m.settle (room.conceded room.game.nextTurn) .turnTimeout)
        (room.conceded room.game.nextTurn).finishGame
  | forfeited (hphase : room.phase = .playing) (he : ¬ room.isTurnExpired now = true) :
      Closed m s room reason now (m.settle (room.conceded (room.getPlayerStone s)) reason)
        (room.conceded (room.getPlayerStone s)).finishGame

/-- A member of a room whose game is on has a colour of its own. -/
theorem WellFormed.stone_of_member (h : m.WellFormed) (hseat : m.Seated s u room) {guest : SessionId}
    (hin : room.InPlay guest) :
    (s = room.hostSession ∧ room.getPlayerStone s = .black) ∨
      (s = guest ∧ room.getPlayerStone s = .white) := by
  have hs : s ≠ 0 := (h.user hseat.user).2.1
  have hmem := hseat.mem
  rw [hin.members] at hmem
  have hne : guest ≠ room.hostSession := by
    have := h.nodup hseat.here
    rw [hin.members] at this
    simpa [eq_comm] using this
  rcases List.mem_cons.mp hmem with rfl | hmem
  · exact Or.inl ⟨rfl, by simp [Room.getPlayerStone, hs, hin.black]⟩
  · obtain rfl := List.mem_singleton.mp hmem
    exact Or.inr ⟨rfl, by simp [Room.getPlayerStone, hs, hin.black, hin.white, hne]⟩

theorem WellFormed.stone_colour (h : m.WellFormed) (hseat : m.Seated s u room)
    (hphase : room.phase = .playing) :
    room.getPlayerStone s = .black ∨ room.getPlayerStone s = .white := by
  obtain ⟨guest, hin⟩ := (h.room hseat.here).playing hphase
  rcases h.stone_of_member hseat hin with ⟨-, e⟩ | ⟨-, e⟩ <;> simp [e]

theorem WellFormed.forfeited (h : m.WellFormed) (hseat : m.Seated s u room) (reason : GameEndReason)
    (hphase : room.phase = .playing) :
    (m.settle (room.conceded (room.getPlayerStone s)) reason).WellFormed := by
  obtain ⟨guest, hin⟩ := (h.room hseat.here).playing hphase
  exact h.settle reason hseat.here ((h.room hseat.here).sound.forfeit _)
    (OmokGame.forfeit_over hin.status (h.stone_colour hseat hphase)).not_playing

theorem WellFormed.closed (h : m.WellFormed) (hseat : m.Seated s u room) {reason : GameEndReason}
    {now : Time} {m1 : RoomManager} {room1 : Room} (hc : Closed m s room reason now m1 room1) :
    m1.WellFormed ∧ m1.Seated s u room1 ∧ room1.id = room.id ∧ room1.members = room.members ∧
      room1.phase = .waiting := by
  have hstore : ∀ (r : Room) (reason : GameEndReason), r.id = room.id → r.members = room.members →
      (m.settle r reason).Seated s u r.finishGame := by
    intro r reason hid hmem
    refine ⟨hseat.user, hseat.state, hseat.roomId.trans hid.symm, ?_, ?_⟩
    · simp [RoomManager.settle, RoomManager.store, Room.finishGame]
    · show s ∈ r.members
      rw [hmem]
      exact hseat.mem
  cases hc with
  | idle hphase => exact ⟨h, hseat, rfl, rfl, hphase⟩
  | expired he => exact ⟨h.expired hseat.here he, hstore _ _ rfl rfl, rfl, rfl, rfl⟩
  | forfeited hphase he =>
    exact ⟨h.forfeited hseat reason hphase, hstore _ _ rfl rfl, rfl, rfl, rfl⟩

/-- What is stored for the room before the member goes does not matter. -/
theorem depart_store (m : RoomManager) (room room' : Room) :
    (m.store room.id room').depart s u room = m.depart s u room := by
  have hid : (m.rooms.insert room.id room').erase room.id = m.rooms.erase room.id := by
    ext1 k
    grind
  have hins : ∀ r : Room, (m.rooms.insert room.id room').insert room.id r =
      m.rooms.insert room.id r := by
    intro r
    ext1 k
    grind
  simp [depart, RoomManager.store, updateUser, hid, hins]

theorem depart_settle (m : RoomManager) (room : Room) (reason : GameEndReason) :
    (m.settle room reason).depart s u room.finishGame =
      ({ m with finishedGames := m.finishedGames ++ [room.record reason] } : RoomManager).depart s u
        room.finishGame :=
  depart_store { m with finishedGames := m.finishedGames ++ [room.record reason] } room.finishGame
    room.finishGame

theorem takeOut_eq (hseat : m.Seated s u room) {m0 : RoomManager} {room1 : Room}
    (hid : room1.id = room.id) (hmem : room1.members = room.members) :
    m0.takeOut s u room1 = (.success, m0.depart s u room1) := by
  have hremove := removeMember_of_mem (hmem ▸ hseat.mem)
  have e : u.roomId = room1.id := hseat.roomId.trans hid.symm
  simp only [takeOut, hremove.1, Bool.not_true, Bool.false_eq_true, if_false, depart, e]
  split <;> rfl

/-- `closeGame` leaves out only the store of the closed room, which `takeOut` makes up for. -/
theorem closeGame_spec (h : m.WellFormed) (hseat : m.Seated s u room) (reason : GameEndReason)
    (now : Time) : ∃ m0 m1 room1, m.closeGame s room reason now = .ok (true, m0, room1) ∧
      Closed m s room reason now m1 room1 ∧ m1.depart s u room1 = m0.depart s u room1 := by
  have hsound := (h.room hseat.here).sound
  unfold closeGame
  by_cases he : room.isTurnExpired now = true
  · refine ⟨_, _, _, ?_, .expired he, depart_settle m _ _⟩
    rw [expireRoom_expired m hsound he]
    rfl
  rw [expireRoom_live m he]
  cases hphase : room.phase with
  | waiting => exact ⟨m, m, room, by simp [bind, Except.bind, hphase]; rfl, .idle hphase, rfl⟩
  | playing =>
    obtain ⟨guest, hin⟩ := (h.room hseat.here).playing hphase
    have hcolour := h.stone_colour hseat hphase
    have hover : (room.conceded (room.getPlayerStone s)).game.Over :=
      OmokGame.forfeit_over hin.status hcolour
    have hfin := finishRoom_eq (room.conceded (room.getPlayerStone s)) m reason hphase hover
    have hok : (room.game.forfeit (room.getPlayerStone s)).1 = true := by
      rw [OmokGame.forfeit_playing hin.status hcolour]
    refine ⟨_, _, _, ?_, .forfeited hphase he, depart_settle m _ _⟩
    simp only [bind, Except.bind, if_pos hphase, Room.forfeit_eq, hok, Bool.not_true,
      Bool.false_eq_true, if_false, hfin]
    rfl

section Leave
variable {reason : GameEndReason} (now : Time)
  (hreason : reason = .leftRoom ∨ reason = .disconnected)
include hreason

theorem leaveRoom_unknown (hu : m.users.users[s]? = none) :
    m.leaveRoom s reason now = .ok (.userNotFound, m) := by
  have hr : ¬ (reason ≠ .leftRoom ∧ reason ≠ .disconnected) := by tauto
  simp only [leaveRoom, if_neg hr, UserManager.find, hu]

theorem Idle.leaveRoom (hidle : m.Idle s u) : m.leaveRoom s reason now = .ok (.notInRoom, m) := by
  have hr : ¬ (reason ≠ .leftRoom ∧ reason ≠ .disconnected) := by tauto
  simp [RoomManager.leaveRoom, if_neg hr, UserManager.find, hidle.user, hidle.state, hidle.roomId]

/-- A member that leaves closes the game of its room first. -/
theorem Seated.leaveRoom (hseat : m.Seated s u room) (h : m.WellFormed) :
    ∃ m1 room1, Closed m s room reason now m1 room1 ∧
      m.leaveRoom s reason now = .ok (.success, m1.depart s u room1) := by
  have hr : ¬ (reason ≠ .leftRoom ∧ reason ≠ .disconnected) := by tauto
  obtain ⟨m0, m1, room1, e, hc, hd⟩ := closeGame_spec h hseat reason now
  obtain ⟨-, -, hid, hmem, -⟩ := h.closed hseat hc
  refine ⟨m1, room1, hc, ?_⟩
  simp only [RoomManager.leaveRoom, if_neg hr, UserManager.find, RoomManager.find, hseat.user,
    hseat.state, hseat.roomId, hseat.here, hseat.contains, e, bind, Except.bind,
    takeOut_eq hseat hid hmem, hd]
  rfl

end Leave

theorem leaveRoom_spec (h : m.WellFormed) (s : SessionId) {reason : GameEndReason} (now : Time)
    (hreason : reason = .leftRoom ∨ reason = .disconnected) :
    (m.users.users[s]? = none ∧ m.leaveRoom s reason now = .ok (.userNotFound, m)) ∨
      (∃ u, m.Idle s u ∧ m.leaveRoom s reason now = .ok (.notInRoom, m)) ∨
      ∃ u room m1 room1, m.Seated s u room ∧ Closed m s room reason now m1 room1 ∧
        m.leaveRoom s reason now = .ok (.success, m1.depart s u room1) := by
  cases hu : m.users.users[s]? with
  | none => exact Or.inl ⟨rfl, leaveRoom_unknown now hreason hu⟩
  | some u =>
    right
    rcases h.user_cases hu with hidle | ⟨room, hseat⟩
    · exact Or.inl ⟨u, hidle, hidle.leaveRoom now hreason⟩
    · obtain ⟨m1, room1, hclosed, e⟩ := hseat.leaveRoom now hreason h
      exact Or.inr ⟨u, room, m1, room1, hseat, hclosed, e⟩

/-! ## Moves and resignation -/

theorem gameRoomOf_seated (hseat : m.Seated s u room) (hg : room.gameId ≠ 0) :
    m.gameRoomOf s room.id room.gameId = .ok (room.id, room) := by
  simp [gameRoomOf, UserManager.find, RoomManager.find, hseat.user, hseat.state, hseat.roomId,
    hseat.here, hseat.contains, hg]

theorem gameRoomOf_spec (h : m.WellFormed) (s : SessionId) (r : RoomId) (g : GameId) :
    (∃ result, result.Refusal ∧ m.gameRoomOf s r g = .error result) ∨
      ∃ u room, m.Seated s u room ∧ room.id = r ∧ g ≠ 0 ∧ g = room.gameId ∧
        m.gameRoomOf s r g = .ok (room.id, room) := by
  unfold gameRoomOf
  split
  · exact Or.inl ⟨_, by decide, rfl⟩
  rename_i u hu
  rcases h.user_cases hu with hidle | ⟨room, hseat⟩
  · exact Or.inl ⟨.notInRoom, by decide, by simp [hidle.state]⟩
  simp only [hseat.state, hseat.roomId, RoomManager.find, hseat.here, hseat.contains]
  split
  · rename_i hno; exact absurd rfl hno
  split
  · exact Or.inl ⟨_, by decide, rfl⟩
  rename_i hid
  split
  · rename_i hno; simp at hno
  split
  · exact Or.inl ⟨_, by decide, rfl⟩
  rename_i hgame
  exact Or.inr ⟨u, room, hseat, not_not.mp hid, by tauto, by tauto, rfl⟩

theorem rejection_isSome {result : MoveResult} (h : result ≠ .success)
    (hstone : result ≠ .invalidStone) :
    ∃ answer, answer.Refusal ∧ rejection result = some answer := by
  cases result
  case success => exact absurd rfl h
  case invalidStone => exact absurd rfl hstone
  all_goals exact ⟨_, by decide, rfl⟩

end RoomManager

/-- Why a game that a stone ended is over. -/
def OmokGame.endReason (g : OmokGame) : GameEndReason :=
  if g.status = .draw then .boardFull else .fiveInRow

/-- The room after a stone that left its game as `g`. -/
def Room.moved (room : Room) (g : OmokGame) (now : Time) : Room :=
  if g.status = .playing then { room with game := g, turnDeadline := now + room.turnTime }
  else { room with game := g }

@[simp] theorem Room.moved_fields (room : Room) (g : OmokGame) (now : Time) :
    (room.moved g now).game = g ∧ (room.moved g now).id = room.id ∧
      (room.moved g now).gameId = room.gameId ∧ (room.moved g now).phase = room.phase := by
  unfold Room.moved
  split <;> simp

namespace RoomManager
variable {m : RoomManager} {s : SessionId} {u : User} {room : Room}

/-- What `PlaceStone` leaves after a stone it took: the game goes on, or it is settled. -/
def moved (m : RoomManager) (room : Room) (g : OmokGame) (now : Time) : RoomManager :=
  if g.status = .playing then m.store room.id (room.moved g now)
  else m.settle (room.moved g now) g.endReason

/-- The `AcceptedMove` that `PlaceStone` reports. -/
def acceptedMove (room : Room) (stone : GameStone) (x y : Int) (g : OmokGame) : AcceptedMove :=
  { room := room.id
    game := room.gameId
    x := x
    y := y
    placedStone := stone
    nextTurn := g.nextTurn
    status := g.status
    moveCount := g.moveCount }

theorem placeStone_of_room (now : Time) (x y : Int) (hphase : room.phase = .playing)
    (hstone : room.getPlayerStone s ≠ .empty) :
    (∃ result, result ≠ .success ∧ result ≠ .invalidStone ∧
        room.placeStone s x y now = (result, room)) ∨
      (room.game.Accepts (room.getPlayerStone s) x y ∧ room.placeStone s x y now =
        (.success, room.moved (room.game.tryPlaceStone (room.getPlayerStone s) x y).2 now)) := by
  unfold Room.placeStone
  rw [if_neg (not_not.mpr hphase)]
  simp only [if_neg hstone]
  by_cases hok : (room.game.tryPlaceStone (room.getPlayerStone s) x y).1 = .success
  · refine Or.inr ⟨OmokGame.tryPlaceStone_success_iff.mp hok, ?_⟩
    simp only [hok, true_and, Room.moved]
    split <;> simp_all
  · refine Or.inl ⟨_, hok, OmokGame.tryPlaceStone_valid hstone, ?_⟩
    simp only [hok, false_and, if_false, OmokGame.tryPlaceStone_rejected hok]

theorem placed_over {g : OmokGame} {stone : GameStone} {x y : Int} (h : g.Accepts stone x y)
    (hs : (g.tryPlaceStone stone x y).2.status ≠ .playing) :
    (g.tryPlaceStone stone x y).2.Over := by
  rw [OmokGame.tryPlaceStone_accepted h] at hs ⊢
  unfold OmokGame.Over
  split
  · dsimp only
    split <;> simp
  split
  · simp
  · rename_i h1 h2
    simp only [if_neg h1, if_neg h2] at hs
    exact absurd h.playing hs

section PlaceStone
variable {r : RoomId} {g : GameId} {x y : Int} {out : AcceptedMove} {now : Time}

theorem placeStone_misdirected {result : GameMoveResult} (e : m.gameRoomOf s r g = .error result) :
    m.placeStone s r g x y out now = .ok (result, out, m) := by
  rw [placeStone, e]

theorem placeStone_expired (h : m.WellFormed) (hseat : m.Seated s u room) (hg : room.gameId ≠ 0)
    (he : room.isTurnExpired now = true) :
    m.placeStone s room.id room.gameId x y out now =
      .ok (.gameNotRunning, out, m.settle (room.conceded room.game.nextTurn) .turnTimeout) := by
  rw [placeStone, gameRoomOf_seated hseat hg]
  dsimp only
  rw [expireRoom_expired m (h.room hseat.here).sound he]
  rfl

theorem placeStone_waiting (hseat : m.Seated s u room) (hg : room.gameId ≠ 0)
    (hphase : room.phase = .waiting) :
    m.placeStone s room.id room.gameId x y out now = .ok (.gameNotRunning, out, m) := by
  have hlive : ¬ room.isTurnExpired now = true := by simp [isTurnExpired_iff, hphase]
  rw [placeStone, gameRoomOf_seated hseat hg]
  simp only [expireRoom_live m hlive, bind, Except.bind, Bool.false_eq_true, if_false]
  simp [Room.placeStone, hphase, rejection, store_self hseat.here]
  rfl

theorem placeStone_rejected (hseat : m.Seated s u room) (hg : room.gameId ≠ 0)
    (hlive : ¬ room.isTurnExpired now = true) {result : MoveResult} {answer : GameMoveResult}
    (e : room.placeStone s x y now = (result, room)) (er : rejection result = some answer) :
    m.placeStone s room.id room.gameId x y out now = .ok (answer, out, m) := by
  rw [placeStone, gameRoomOf_seated hseat hg]
  simp only [expireRoom_live m hlive, bind, Except.bind, Bool.false_eq_true, if_false, e, er,
    store_self hseat.here]
  rfl

theorem placeStone_taken (hseat : m.Seated s u room) (hg : room.gameId ≠ 0)
    (hlive : ¬ room.isTurnExpired now = true) (hphase : room.phase = .playing)
    (hacc : room.game.Accepts (room.getPlayerStone s) x y) :
    m.placeStone s room.id room.gameId x y out now =
      .ok (.success,
        acceptedMove room (room.getPlayerStone s) x y
          (room.game.tryPlaceStone (room.getPlayerStone s) x y).2,
        m.moved room (room.game.tryPlaceStone (room.getPlayerStone s) x y).2 now) := by
  have hstone : room.getPlayerStone s ≠ .empty := by rcases hacc.colour with e | e <;> simp [e]
  have hok := OmokGame.tryPlaceStone_success_iff.mpr hacc
  have ep : room.placeStone s x y now = (.success,
      room.moved (room.game.tryPlaceStone (room.getPlayerStone s) x y).2 now) := by
    rcases placeStone_of_room now x y hphase hstone with ⟨result, hne, -, e⟩ | ⟨-, e⟩
    · simp only [Room.placeStone, hphase, ne_eq, not_true_eq_false, if_false, if_neg hstone, hok,
        true_and] at e
      split at e
      · exact absurd (congrArg Prod.fst e).symm hne
      · exact absurd (congrArg Prod.fst e).symm hne
    · exact e
  rw [placeStone, gameRoomOf_seated hseat hg]
  simp only [expireRoom_live m hlive, bind, Except.bind, Bool.false_eq_true, if_false, ep, rejection]
  generalize hg' : (room.game.tryPlaceStone (room.getPlayerStone s) x y).2 = g'
  have hover := placed_over hacc
  rw [hg'] at hover
  obtain ⟨hgame', hid', hnum, hphase'⟩ := Room.moved_fields room g' now
  simp only [hgame', hid', hnum]
  by_cases hs : g'.status = .playing
  · simp [moved, acceptedMove, hs]
    rfl
  have hfin := fun reason => finishRoom_eq (room.moved g' now) m reason (hphase'.trans hphase)
    (by rw [hgame']; exact hover hs)
  rcases hover hs with e | e | e
  all_goals
    simp only [e, hfin]
    simp [moved, settle, acceptedMove, OmokGame.endReason, e]
    rfl

end PlaceStone

/-- Where `PlaceStone` ends: no room for it, a turn that has run out, a room that waits, a stone
that the room does not take, or one that it takes. -/
theorem placeStone_cases (h : m.WellFormed) (s : SessionId) (r : RoomId) (g : GameId) (x y : Int)
    (now : Time) :
    (∃ result, result.Refusal ∧ m.gameRoomOf s r g = .error result) ∨
      ∃ u room, m.Seated s u room ∧ room.id = r ∧ g ≠ 0 ∧ g = room.gameId ∧
        (room.isTurnExpired now = true ∨ room.phase = .waiting ∨
          (¬ room.isTurnExpired now = true ∧ room.phase = .playing ∧
            ((∃ result answer, answer.Refusal ∧ room.placeStone s x y now = (result, room) ∧
                rejection result = some answer ∧
                ¬ room.game.Accepts (room.getPlayerStone s) x y) ∨
              room.game.Accepts (room.getPlayerStone s) x y))) := by
  rcases gameRoomOf_spec h s r g with ⟨result, hne, e⟩ | ⟨u, room, hseat, hid, hg, hgame, e⟩
  · exact Or.inl ⟨result, hne, e⟩
  refine Or.inr ⟨u, room, hseat, hid, hg, hgame, ?_⟩
  by_cases he : room.isTurnExpired now = true
  · exact Or.inl he
  cases hphase : room.phase with
  | waiting => exact Or.inr (Or.inl rfl)
  | playing =>
    refine Or.inr (Or.inr ⟨he, rfl, ?_⟩)
    by_cases hacc : room.game.Accepts (room.getPlayerStone s) x y
    · exact Or.inr hacc
    have hstone : room.getPlayerStone s ≠ .empty := by
      rcases h.stone_colour hseat hphase with e | e <;> simp [e]
    rcases placeStone_of_room now x y hphase hstone with ⟨result, hne, hvalid, ep⟩ | ⟨hacc', -⟩
    · obtain ⟨answer, hans, er⟩ := rejection_isSome hne hvalid
      exact Or.inl ⟨result, answer, hans, ep, er, hacc⟩
    · exact absurd hacc' hacc

theorem placeStone_spec (h : m.WellFormed) (s : SessionId) (r : RoomId) (g : GameId) (x y : Int)
    (out : AcceptedMove) (now : Time) :
    (∃ result, result.Refusal ∧ m.placeStone s r g x y out now = .ok (result, out, m)) ∨
      ∃ u room, m.Seated s u room ∧ room.id = r ∧ g ≠ 0 ∧ g = room.gameId ∧
        ((room.isTurnExpired now = true ∧ m.placeStone s r g x y out now =
            .ok (.gameNotRunning, out,
              m.settle (room.conceded room.game.nextTurn) .turnTimeout)) ∨
          (¬ room.isTurnExpired now = true ∧ room.phase = .playing ∧
            room.game.Accepts (room.getPlayerStone s) x y ∧
            m.placeStone s r g x y out now =
              .ok (.success,
                acceptedMove room (room.getPlayerStone s) x y
                  (room.game.tryPlaceStone (room.getPlayerStone s) x y).2,
                m.moved room (room.game.tryPlaceStone (room.getPlayerStone s) x y).2 now))) := by
  rcases placeStone_cases h s r g x y now with ⟨result, hne, e⟩ |
    ⟨u, room, hseat, rfl, hg, rfl, he | hphase | ⟨hlive, hphase, hrest⟩⟩
  · exact Or.inl ⟨result, hne, placeStone_misdirected e⟩
  · exact Or.inr ⟨u, room, hseat, rfl, hg, rfl, Or.inl ⟨he, placeStone_expired h hseat hg he⟩⟩
  · exact Or.inl ⟨_, by decide, placeStone_waiting hseat hg hphase⟩
  rcases hrest with ⟨result, answer, hans, ep, er, -⟩ | hacc
  · exact Or.inl ⟨answer, hans, placeStone_rejected hseat hg hlive ep er⟩
  · exact Or.inr ⟨u, room, hseat, rfl, hg, rfl,
      Or.inr ⟨hlive, hphase, hacc, placeStone_taken hseat hg hlive hphase hacc⟩⟩

theorem WellFormed.moved (h : m.WellFormed) (hr : m.rooms[room.id]? = some room)
    (hphase : room.phase = .playing) (stone : GameStone) (x y : Int) (now : Time) :
    (m.moved room (room.game.tryPlaceStone stone x y).2 now).WellFormed := by
  have hs := (h.room hr).sound.tryPlaceStone stone x y
  unfold RoomManager.moved Room.moved
  split
  · rename_i hgo
    exact h.store hr (by rfl) (by rfl) ((h.room hr).placed _ hphase hs hgo)
  · rename_i hend
    exact h.settle _ hr hs hend

section Resign
variable {r : RoomId} {g : GameId} {now : Time}

theorem resign_misdirected {result : GameMoveResult} (e : m.gameRoomOf s r g = .error result) :
    m.resign s r g now = .ok (result, m) := by
  rw [resign, e]

theorem resign_expired (h : m.WellFormed) (hseat : m.Seated s u room) (hg : room.gameId ≠ 0)
    (he : room.isTurnExpired now = true) :
    m.resign s room.id room.gameId now =
      .ok (.gameNotRunning, m.settle (room.conceded room.game.nextTurn) .turnTimeout) := by
  rw [resign, gameRoomOf_seated hseat hg]
  dsimp only
  rw [expireRoom_expired m (h.room hseat.here).sound he]
  rfl

theorem resign_waiting (hseat : m.Seated s u room) (hg : room.gameId ≠ 0)
    (hphase : room.phase = .waiting) :
    m.resign s room.id room.gameId now = .ok (.gameNotRunning, m) := by
  have hlive : ¬ room.isTurnExpired now = true := by simp [isTurnExpired_iff, hphase]
  have hstop : room.phase ≠ .playing ∨ room.game.status ≠ .playing := by simp [hphase]
  rw [resign, gameRoomOf_seated hseat hg]
  simp only [expireRoom_live m hlive, bind, Except.bind, Bool.false_eq_true, if_false, if_pos hstop,
    store_self hseat.here]
  rfl

theorem resign_taken (h : m.WellFormed) (hseat : m.Seated s u room) (hg : room.gameId ≠ 0)
    (hlive : ¬ room.isTurnExpired now = true) (hphase : room.phase = .playing) :
    m.resign s room.id room.gameId now =
      .ok (.success, m.settle (room.conceded (room.getPlayerStone s)) .resigned) := by
  obtain ⟨guest, hin⟩ := (h.room hseat.here).playing hphase
  have hcolour := h.stone_colour hseat hphase
  have hok : (room.game.forfeit (room.getPlayerStone s)).1 = true := by
    rw [OmokGame.forfeit_playing hin.status hcolour]
  have hfin := finishRoom_eq (room.conceded (room.getPlayerStone s)) m .resigned hphase
    (OmokGame.forfeit_over hin.status hcolour)
  have hgo : ¬ (room.phase ≠ .playing ∨ room.game.status ≠ .playing) := by
    simp [hphase, hin.status]
  rw [resign, gameRoomOf_seated hseat hg]
  simp only [expireRoom_live m hlive, bind, Except.bind, Bool.false_eq_true, if_false, if_neg hgo,
    Room.forfeit_eq, hok, Bool.not_true, hfin]
  rfl

end Resign

theorem resign_spec (h : m.WellFormed) (s : SessionId) (r : RoomId) (g : GameId) (now : Time) :
    (∃ result, result.Refusal ∧ m.resign s r g now = .ok (result, m)) ∨
      ∃ u room, m.Seated s u room ∧ room.id = r ∧ g ≠ 0 ∧ g = room.gameId ∧
        ((room.isTurnExpired now = true ∧ m.resign s r g now =
            .ok (.gameNotRunning, m.settle (room.conceded room.game.nextTurn) .turnTimeout)) ∨
          (¬ room.isTurnExpired now = true ∧ room.phase = .playing ∧
            m.resign s r g now =
              .ok (.success, m.settle (room.conceded (room.getPlayerStone s)) .resigned))) := by
  rcases gameRoomOf_spec h s r g with ⟨result, hne, e⟩ | ⟨u, room, hseat, rfl, hg, rfl, e⟩
  · exact Or.inl ⟨result, hne, resign_misdirected e⟩
  by_cases he : room.isTurnExpired now = true
  · exact Or.inr ⟨u, room, hseat, rfl, hg, rfl, Or.inl ⟨he, resign_expired h hseat hg he⟩⟩
  cases hphase : room.phase with
  | waiting => exact Or.inl ⟨_, by decide, resign_waiting hseat hg hphase⟩
  | playing =>
    exact Or.inr ⟨u, room, hseat, rfl, hg, rfl,
      Or.inr ⟨he, hphase, resign_taken h hseat hg he hphase⟩⟩

end RoomManager
end SelectServer
