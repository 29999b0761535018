import SelectServer.OmokBoard
import SelectServer.RoomManager

/- What holds of every user, room and game record between two calls
   (`WellFormed`), and that each elementary change a call can make keeps it: a
   login, a removal, a new room, a new member, a ready flag, a start, a stone, the
   end of a game (`settle`), a member leaving (`depart`). `RoomCalls.lean` shows
   that the calls of `RoomManager` make no other changes. -/
namespace SelectServer
open Wire (Bytes)

/-! ## One room -/

namespace Room

/-- The host first, and at most one guest. -/
inductive Seats (room : Room) : Prop
  | alone (h : room.members = [room.hostSession])
  | pair (guest : SessionId) (h : room.members = [room.hostSession, guest])
      (ne : guest ≠ room.hostSession)

/-- A room whose game is on: both seats taken, one colour each, nobody ready. -/
structure InPlay (room : Room) (guest : SessionId) : Prop where
  members : room.members = [room.hostSession, guest]
  black : room.blackPlayer = room.hostSession
  white : room.whitePlayer = guest
  status : room.game.status = .playing
  unready : room.readyMembers = ∅
  numbered : room.gameId ≠ 0

structure WellFormed (config : RoomConfig) (lastGameId : GameId) (room : Room) : Prop where
  capacity : room.capacity = roomPlayerCount
  turnTime : room.turnTime = config.turnTime
  title : room.title ≠ [] ∧ room.title.length ≤ maxRoomTitleBytes
  seats : room.Seats
  ready : ∀ s ∈ room.readyMembers, s ∈ room.members ∧ s ≠ room.hostSession
  issued : room.gameId ≤ lastGameId
  sound : room.game.Sound
  playing : room.phase = .playing → ∃ guest, room.InPlay guest
  waiting : room.phase = .waiting → room.game.status ≠ .playing ∧ room.turnDeadline = 0
  colours : ∀ s, s ≠ 0 → s = room.blackPlayer ∨ s = room.whitePlayer → s ∈ room.members

end Room

namespace RoomManager

structure WellFormed (m : RoomManager) : Prop where
  user : ∀ {s : SessionId} {u : User}, m.users.users[s]? = some u →
    u.session = s ∧ s ≠ 0 ∧ UserManager.isValidNickname u.nickname = true
  named : ∀ {s : SessionId} {u : User}, m.users.users[s]? = some u →
    m.users.sessionByNickname[u.nickname]? = some s
  lobby : ∀ {s : SessionId} {u : User}, m.users.users[s]? = some u → u.state = .lobby →
    u.roomId = invalidRoomId
  inRoom : ∀ {s : SessionId} {u : User}, m.users.users[s]? = some u → u.state = .inRoom →
    ∃ room, m.rooms[u.roomId]? = some room ∧ s ∈ room.members
  member : ∀ {r : RoomId} {room : Room}, m.rooms[r]? = some room → ∀ s ∈ room.members,
    ∃ u, m.users.users[s]? = some u ∧ u.state = .inRoom ∧ u.roomId = r
  stored : ∀ {r : RoomId} {room : Room}, m.rooms[r]? = some room →
    room.id = r ∧ r ≠ invalidRoomId ∧ r ≤ m.lastRoomId
  room : ∀ {r : RoomId} {room : Room}, m.rooms[r]? = some room →
    room.WellFormed m.config.val m.lastGameId
  limit : m.rooms.size ≤ m.config.val.maxRooms

/-! ## What one call can change -/

/-- A room of its own for a session. -/
def created (m : RoomManager) (sessionId : SessionId) (user : User) (room : Room) : RoomManager :=
  { (m.store room.id room).updateUser sessionId (user.enterRoom room.id) with
    lastRoomId := room.id }

/-- A session becomes the guest of a room. -/
def entered (m : RoomManager) (sessionId : SessionId) (user : User) (room : Room) : RoomManager :=
  (m.store room.id { room with members := room.members ++ [sessionId], readyMembers := ∅ }).updateUser
    sessionId (user.enterRoom room.id)

/-- The next game starts in a room. -/
def started (m : RoomManager) (room : Room) (now : Time) : RoomManager :=
  { m.store room.id (room.startGame (m.lastGameId + 1) now) with lastGameId := m.lastGameId + 1 }

end RoomManager

/-- The record that `FinishRoom` queues. -/
def Room.record (room : Room) (reason : GameEndReason) : FinishedGame :=
  { room := room.id
    game := room.gameId
    status := room.game.status
    reason := reason
    moveCount := room.game.moveCount
    targets := room.members }

namespace RoomManager

/-- The end of a game: the record is queued and the room waits again. -/
def settle (m : RoomManager) (room : Room) (reason : GameEndReason) : RoomManager :=
  { m.store room.id room.finishGame with
    finishedGames := m.finishedGames ++ [room.record reason] }

/-- A session leaves its room; the last one takes the room with it. -/
def depart (m : RoomManager) (sessionId : SessionId) (user : User) (room : Room) : RoomManager :=
  let room' := (room.removeMember sessionId).2
  let m := m.updateUser sessionId user.returnToLobby
  if room'.members.isEmpty then { m with rooms := m.rooms.erase room.id } else m.store room.id room'

end RoomManager

/-! ## Each change keeps the rooms well formed -/

namespace Room
variable {config : RoomConfig} {lastGameId : GameId} {room : Room}

theorem WellFormed.mono {lastGameId' : GameId} (h : room.WellFormed config lastGameId)
    (hle : lastGameId ≤ lastGameId') : room.WellFormed config lastGameId' :=
  { h with issued := UInt32.le_trans h.issued hle }

theorem Seats.host_mem (h : room.Seats) : room.hostSession ∈ room.members := by
  rcases h with h | ⟨guest, h, -⟩ <;> simp [h]

theorem make_wellFormed {id : RoomId} {title : Bytes} {creator : SessionId}
    (htitle : title ≠ [] ∧ title.length ≤ maxRoomTitleBytes) :
    ({ id := id, title := title, capacity := roomPlayerCount, members := [creator],
       hostSession := creator, turnTime := config.turnTime } : Room).WellFormed config lastGameId where
  capacity := rfl
  turnTime := rfl
  title := htitle
  seats := .alone rfl
  ready := by simp
  issued := UInt32.zero_le
  sound := OmokGame.reset_sound {}
  playing h := by cases h
  waiting _ := ⟨(by intro e; cases e), rfl⟩
  colours := by grind

theorem WellFormed.withGuest (h : room.WellFormed config lastGameId) {s : SessionId}
    (hwait : room.phase = .waiting) (hnew : s ∉ room.members) (hroom : room.members.length < 2) :
    ({ room with members := room.members ++ [s], readyMembers := ∅ } : Room).WellFormed config
      lastGameId where
  capacity := h.capacity
  turnTime := h.turnTime
  title := h.title
  seats := by
    rcases h.seats with hm | ⟨guest, hm, -⟩
    · exact .pair s (by simp [hm]) (fun e => hnew (by simp [hm, e]))
    · simp [hm] at hroom
  ready := by simp
  issued := h.issued
  sound := h.sound
  playing e := by simp [hwait] at e
  waiting := h.waiting
  colours := by have := h.colours; grind

theorem WellFormed.setReady (h : room.WellFormed config lastGameId) {s : SessionId} (ready : Bool)
    (hwait : room.phase = .waiting) (hs : s ∈ room.members) (hguest : s ≠ room.hostSession) :
    (room.setReady s ready).WellFormed config lastGameId where
  capacity := h.capacity
  turnTime := h.turnTime
  title := h.title
  seats := by rcases h.seats with hm | ⟨guest, hm, hne⟩; exacts [.alone hm, .pair guest hm hne]
  ready := by
    intro s' hs'
    have := h.ready s'
    simp only [Room.setReady] at hs' ⊢
    split at hs' <;> grind
  issued := h.issued
  sound := h.sound
  playing e := by simp [Room.setReady, hwait] at e
  waiting := h.waiting
  colours := h.colours

theorem WellFormed.startGame (h : room.WellFormed config lastGameId) {gameId : GameId} (now : Time)
    (htwo : room.members.length = 2) (hid : gameId ≠ 0) :
    (room.startGame gameId now).WellFormed config gameId where
  capacity := h.capacity
  turnTime := h.turnTime
  title := h.title
  seats := by rcases h.seats with hm | ⟨guest, hm, hne⟩; exacts [.alone hm, .pair guest hm hne]
  ready := by simp [Room.startGame]
  issued := UInt32.le_refl _
  sound := OmokGame.start_sound _
  playing _ := by
    rcases h.seats with hm | ⟨guest, hm, hne⟩
    · simp [hm] at htwo
    · exact ⟨guest, hm, rfl, by simp [Room.startGame, hm, hne], rfl, rfl, hid⟩
  waiting e := by cases e
  colours := by
    rcases h.seats with hm | ⟨guest, hm, hne⟩
    · simp [hm] at htwo
    · simp [Room.startGame, hm, hne]

/-- A stone that leaves the game going. -/
theorem WellFormed.placed (h : room.WellFormed config lastGameId) {g : OmokGame} (deadline : Time)
    (hplay : room.phase = .playing) (hs : g.Sound) (hg : g.status = .playing) :
    ({ room with game := g, turnDeadline := deadline } : Room).WellFormed config lastGameId where
  capacity := h.capacity
  turnTime := h.turnTime
  title := h.title
  seats := by rcases h.seats with hm | ⟨guest, hm, hne⟩; exacts [.alone hm, .pair guest hm hne]
  ready := h.ready
  issued := h.issued
  sound := hs
  playing _ := by
    obtain ⟨guest, hin⟩ := h.playing hplay
    exact ⟨guest, { hin with status := hg }⟩
  waiting e := by simp [hplay] at e
  colours := h.colours

/-- The room after its game has ended as `g`. -/
theorem WellFormed.finished (h : room.WellFormed config lastGameId) {g : OmokGame}
    (hs : g.Sound) (hg : g.status ≠ .playing) :
    ({ room with game := g } : Room).finishGame.WellFormed config lastGameId where
  capacity := h.capacity
  turnTime := h.turnTime
  title := h.title
  seats := by rcases h.seats with hm | ⟨guest, hm, hne⟩; exacts [.alone hm, .pair guest hm hne]
  ready := by simp [Room.finishGame]
  issued := h.issued
  sound := hs
  playing e := by cases e
  waiting _ := ⟨hg, rfl⟩
  colours := h.colours

theorem WellFormed.removeMember (h : room.WellFormed config lastGameId) {s : SessionId}
    (hs : s ∈ room.members) (hne : (room.removeMember s).2.members ≠ []) :
    (room.removeMember s).2.WellFormed config lastGameId := by
  have hc : room.contains s = true := by simpa [Room.contains] using hs
  simp only [Room.removeMember, hc, Bool.not_true, Bool.false_eq_true, if_false] at hne ⊢
  exact
    { capacity := h.capacity
      turnTime := h.turnTime
      title := h.title
      seats := by
        rcases h.seats with hm | ⟨guest, hm, hg⟩
        · grind
        · have : s = room.hostSession ∨ s = guest := by simpa [hm] using hs
          rcases this with rfl | rfl <;> exact .alone (by simp [hm]; try grind)
      ready := by simp
      issued := h.issued
      sound := OmokGame.reset_sound room.game
      playing := fun e => by cases e
      waiting := fun _ => ⟨by simp [OmokGame.reset], rfl⟩
      colours := by grind }

end Room

namespace RoomManager
variable {m : RoomManager}

/-- Storing a room over itself, with the same members, touches no one else. -/
theorem WellFormed.store (h : m.WellFormed) {room room' : Room} (hr : m.rooms[room.id]? = some room)
    (hid : room'.id = room.id) (hmem : room'.members = room.members)
    (hroom : room'.WellFormed m.config.val m.lastGameId) : (m.store room.id room').WellFormed where
  user := h.user
  named := h.named
  lobby := h.lobby
  inRoom hu hs := by
    obtain ⟨old, hold, hmember⟩ := h.inRoom hu hs
    simp only [RoomManager.store]
    grind
  member := by
    have := @h.member
    simp only [RoomManager.store]
    grind
  stored := by
    have := @h.stored
    simp only [RoomManager.store]
    grind
  room := by
    have := @h.room
    simp only [RoomManager.store]
    grind
  limit := by
    have := h.limit
    have : room.id ∈ m.rooms := by grind
    simpa [RoomManager.store, Std.ExtTreeMap.size_insert, this] using h.limit

/-- Another queue of records changes nothing of the rest. -/
theorem WellFormed.withRecords (h : m.WellFormed) (records : List FinishedGame) :
    ({ m with finishedGames := records } : RoomManager).WellFormed :=
  ⟨h.user, h.named, h.lobby, h.inRoom, h.member, h.stored, h.room, h.limit⟩

theorem WellFormed.settle (h : m.WellFormed) {room : Room} {g : OmokGame} (reason : GameEndReason)
    (hr : m.rooms[room.id]? = some room) (hs : g.Sound) (hg : g.status ≠ .playing) :
    (m.settle { room with game := g } reason).WellFormed :=
  (h.store hr (by rfl) (by rfl) ((h.room hr).finished hs hg)).withRecords _

/-- A larger counter changes nothing of the rest. -/
theorem WellFormed.withLastGame (h : m.WellFormed) {lastGameId : GameId}
    (hle : m.lastGameId ≤ lastGameId) :
    ({ m with lastGameId := lastGameId } : RoomManager).WellFormed :=
  ⟨h.user, h.named, h.lobby, h.inRoom, h.member, h.stored, fun hr => (h.room hr).mono hle, h.limit⟩

theorem WellFormed.started (h : m.WellFormed) {room : Room} (now : Time)
    (hr : m.rooms[room.id]? = some room) (htwo : room.members.length = 2)
    (hlast : m.lastGameId ≠ 0xffffffff) : (m.started room now).WellFormed := by
  have hnext := h.withLastGame (by grind : m.lastGameId ≤ m.lastGameId + 1)
  exact hnext.store hr (by rfl) (by rfl) ((h.room hr).startGame now htwo (by grind))

theorem WellFormed.add (h : m.WellFormed) {s : SessionId} {nickname : Bytes} (hs : s ≠ 0)
    (hnew : m.users.users[s]? = none) (hname : UserManager.isValidNickname nickname = true)
    (hfree : m.users.sessionByNickname[nickname]? = none) :
    ({ m with users := m.users.add s nickname } : RoomManager).WellFormed where
  user := by
    have := @h.user
    simp only [UserManager.add]
    grind
  named := by
    have := @h.named
    simp only [UserManager.add]
    grind
  lobby := by
    have := @h.lobby
    simp only [UserManager.add]
    grind
  inRoom := by
    have := @h.inRoom
    simp only [UserManager.add]
    grind
  member := by
    intro r room hr s' hs'
    obtain ⟨u, hu, hu'⟩ := h.member hr s' hs'
    have hne : s ≠ s' := by grind
    exact ⟨u, by simp only [UserManager.add]; grind, hu'⟩
  stored := h.stored
  room := h.room
  limit := h.limit

theorem WellFormed.remove (h : m.WellFormed) {s : SessionId}
    (hfree : ∀ u, m.users.users[s]? = some u → u.state = .lobby) :
    ({ m with users := m.users.remove s } : RoomManager).WellFormed := by
  simp only [UserManager.remove, UserManager.find]
  split
  · exact h
  rename_i u hu
  have hlobby := hfree u hu
  exact
    { user := by have := @h.user; grind
      named := by have := @h.named; grind
      lobby := by have := @h.lobby; grind
      inRoom := by have := @h.inRoom; grind
      member := by
        intro r room hr s' hs'
        obtain ⟨u', hu', hst, hrid⟩ := h.member hr s' hs'
        have hne : s ≠ s' := by grind
        exact ⟨u', by grind, hst, hrid⟩
      stored := h.stored
      room := h.room
      limit := h.limit }

/-- One session moves into one room, which may be new: the room gains it as a member, and no
one else moves. -/
theorem WellFormed.join (h : m.WellFormed) {s : SessionId} {u : User} {room : Room}
    {lastRoomId : RoomId} (hroom : room.WellFormed m.config.val m.lastGameId)
    (hu : m.users.users[s]? = some u) (hlobby : u.state = .lobby)
    (hold : ∀ old, m.rooms[room.id]? = some old →
      ∀ s', s' ∈ room.members ↔ s' ∈ old.members ∨ s' = s)
    (hnew : m.rooms[room.id]? = none → ∀ s', s' ∈ room.members ↔ s' = s)
    (hid : room.id ≠ 0 ∧ room.id ≤ lastRoomId) (hlast : m.lastRoomId ≤ lastRoomId)
    (hspace : m.rooms[room.id]? = none → m.rooms.size < m.config.val.maxRooms) :
    ({ (m.store room.id room).updateUser s (u.enterRoom room.id) with
      lastRoomId := lastRoomId } : RoomManager).WellFormed := by
  have hnone : ∀ (r : RoomId) (room : Room), m.rooms[r]? = some room → s ∉ room.members := by
    intro r room hr hs
    obtain ⟨u', hu', hst, -⟩ := h.member hr s hs
    grind
  have hs : s ∈ room.members := by
    cases hget : m.rooms[room.id]? with
    | none => exact (hnew hget s).mpr rfl
    | some old => exact (hold old hget s).mpr (Or.inr rfl)
  simp only [RoomManager.store, RoomManager.updateUser, UserManager.update, User.enterRoom]
  -- the fields about users and about rooms by themselves see one key change
  refine ⟨?_, ?_, ?_, ?_, ?_, ?_, ?_, ?_⟩ <;> dsimp only
  · have := @h.user; grind
  · have := @h.named; grind
  · have := @h.lobby; grind
  · -- the newcomer is in `room`, everyone else stays where it was
    intro s' u' hu' hst
    by_cases e : s' = s
    · subst e
      refine ⟨room, ?_, hs⟩
      grind
    · obtain ⟨old, hget, hmem⟩ := h.inRoom (s := s') (u := u') (by grind) hst
      by_cases er : u'.roomId = room.id
      · exact ⟨room, by grind, (hold old (er ▸ hget) s').mpr (Or.inl hmem)⟩
      · exact ⟨old, by grind, hmem⟩
  · intro r room' hr s' hs'
    by_cases e : s' = s
    · subst e
      refine ⟨_, Std.ExtTreeMap.getElem?_insert_self, rfl, ?_⟩
      grind
    · -- any other member was a member before
      have hmem : ∃ old, m.rooms[r]? = some old ∧ s' ∈ old.members := by
        by_cases er : room.id = r
        · subst er
          rw [Std.ExtTreeMap.getElem?_insert_self] at hr
          obtain rfl := Option.some.inj hr
          cases hget : m.rooms[room.id]? with
          | none => exact absurd ((hnew hget s').mp hs') e
          | some old => exact ⟨old, rfl, ((hold old hget s').mp hs').resolve_right e⟩
        · exact ⟨room', by grind, hs'⟩
      obtain ⟨old, hget, hmem⟩ := hmem
      obtain ⟨u', hu', hst⟩ := h.member hget s' hmem
      exact ⟨u', by grind, hst⟩
  · have := @h.stored
    grind
  · have := @h.room
    grind
  · have := h.limit
    rw [Std.ExtTreeMap.size_insert]
    split
    · exact h.limit
    · exact hspace (by grind)

theorem WellFormed.created (h : m.WellFormed) {s : SessionId} {u : User} {title : Bytes}
    (hu : m.users.users[s]? = some u) (hlobby : u.state = .lobby)
    (htitle : title ≠ [] ∧ title.length ≤ maxRoomTitleBytes)
    (hspace : m.rooms.size < m.config.val.maxRooms) (hlast : m.lastRoomId ≠ 0xffffffff) :
    (m.created s u
      { id := m.lastRoomId + 1, title := title, capacity := roomPlayerCount, members := [s],
        hostSession := s, turnTime := m.config.val.turnTime }).WellFormed := by
  have hfresh : m.rooms[m.lastRoomId + 1]? = none := by
    cases hget : m.rooms[m.lastRoomId + 1]? with
    | none => rfl
    | some room =>
      have := h.stored hget
      grind
  exact h.join (Room.make_wellFormed htitle) hu hlobby (fun old hold => by simp [hfresh] at hold)
    (fun _ s' => by simp) (by grind) (by grind) (fun _ => hspace)

theorem WellFormed.entered (h : m.WellFormed) {s : SessionId} {u : User} {room : Room}
    (hu : m.users.users[s]? = some u) (hlobby : u.state = .lobby)
    (hr : m.rooms[room.id]? = some room) (hwait : room.phase = .waiting)
    (hfree : room.members.length < 2) : (m.entered s u room).WellFormed := by
  have hnew : s ∉ room.members := by
    intro hs
    obtain ⟨u', hu', hst, -⟩ := h.member hr s hs
    grind
  have hroom := (h.room hr).withGuest hwait hnew hfree
  refine h.join hroom hu hlobby (fun old hold s' => ?_) (fun hnone => ?_) (h.stored hr).2
    (UInt32.le_refl _) (fun hnone => ?_)
  · obtain rfl : room = old := by grind
    simp
  · exact absurd hr (by simp [hnone])
  · exact absurd hr (by simp [hnone])

/-- A session is in one room only. -/
theorem WellFormed.room_unique (h : m.WellFormed) (s : SessionId) :
    ∀ (r r' : RoomId) (room room' : Room), m.rooms[r]? = some room → s ∈ room.members →
      m.rooms[r']? = some room' → s ∈ room'.members → r = r' := by
  intro r r' room room' hr hs hr' hs'
  obtain ⟨u1, hu1, -, e1⟩ := h.member hr s hs
  obtain ⟨u2, hu2, -, e2⟩ := h.member hr' s hs'
  grind

theorem WellFormed.nodup (h : m.WellFormed) {r : RoomId} {room : Room}
    (hr : m.rooms[r]? = some room) : room.members.Nodup := by
  rcases (h.room hr).seats with hm | ⟨guest, hm, hne⟩
  · simp [hm]
  · simp [hm, Ne.symm hne]

/-- The last member takes the room away. -/
theorem WellFormed.vacate (h : m.WellFormed) {s : SessionId} {u : User} {room : Room}
    (hu : m.users.users[s]? = some u) (hr : m.rooms[room.id]? = some room)
    (halone : ∀ s', s' ∈ room.members ↔ s' = s) :
    ({ m.updateUser s u.returnToLobby with rooms := m.rooms.erase room.id } :
      RoomManager).WellFormed := by
  have hunique := h.room_unique s
  simp only [RoomManager.updateUser, UserManager.update, User.returnToLobby]
  refine ⟨?_, ?_, ?_, ?_, ?_, ?_, ?_, ?_⟩ <;> dsimp only
  · have := @h.user; grind
  · have := @h.named; grind
  · have := @h.lobby; grind
  · -- the room that goes had no other member
    intro s' u' hu' hst
    obtain ⟨room', hr', hs'⟩ := h.inRoom (s := s') (u := u') (by grind) hst
    exact ⟨room', by grind, hs'⟩
  · intro r room' hr' s' hs'
    obtain ⟨u', hu', hst⟩ := h.member (r := r) (by grind) s' hs'
    exact ⟨u', by grind, hst⟩
  · have := @h.stored; grind
  · have := @h.room; grind
  · exact le_trans Std.ExtTreeMap.size_erase_le h.limit

/-- A member goes and another stays. -/
theorem WellFormed.standUp (h : m.WellFormed) {s : SessionId} {u : User} {room room' : Room}
    (hroom : room'.WellFormed m.config.val m.lastGameId) (hid : room'.id = room.id)
    (hu : m.users.users[s]? = some u) (hr : m.rooms[room.id]? = some room)
    (hs : s ∈ room.members)
    (hrest : ∀ s', s' ∈ room'.members ↔ s' ≠ s ∧ s' ∈ room.members) :
    ((m.updateUser s u.returnToLobby).store room.id room').WellFormed := by
  have hunique := h.room_unique s
  simp only [RoomManager.updateUser, UserManager.update, User.returnToLobby, RoomManager.store]
  refine ⟨?_, ?_, ?_, ?_, ?_, ?_, ?_, ?_⟩ <;> dsimp only
  · have := @h.user; grind
  · have := @h.named; grind
  · have := @h.lobby; grind
  · intro s' u' hu' hst
    obtain ⟨old, hold, hs'⟩ := h.inRoom (s := s') (u := u') (by grind) hst
    by_cases e : u'.roomId = room.id
    · exact ⟨room', by grind, by grind⟩
    · exact ⟨old, by grind, hs'⟩
  · -- who is still a member was one before and is not the one who goes
    intro r old hold s' hs'
    have hne : s' ≠ s ∧ ∃ old', m.rooms[r]? = some old' ∧ s' ∈ old'.members := by grind
    obtain ⟨old', hold', hs''⟩ := hne.2
    obtain ⟨u', hu', hst⟩ := h.member hold' s' hs''
    exact ⟨u', by grind, hst⟩
  · have := @h.stored; grind
  · have := @h.room; grind
  · have : room.id ∈ m.rooms := by grind
    simpa [Std.ExtTreeMap.size_insert, this] using h.limit

theorem removeMember_of_mem {room : Room} {s : SessionId} (hs : s ∈ room.members) :
    (room.removeMember s).1 = true ∧ (room.removeMember s).2.members = room.members.erase s ∧
      (room.removeMember s).2.id = room.id := by
  simp [Room.removeMember, hs, Room.contains]

theorem WellFormed.depart (h : m.WellFormed) {s : SessionId} {u : User} {room : Room}
    (hu : m.users.users[s]? = some u) (hr : m.rooms[room.id]? = some room) (hs : s ∈ room.members) :
    (m.depart s u room).WellFormed := by
  obtain ⟨-, hmem, hid⟩ := removeMember_of_mem hs
  have hrest : ∀ s', s' ∈ (room.removeMember s).2.members ↔ s' ≠ s ∧ s' ∈ room.members := by
    intro s'
    rw [hmem, (h.nodup hr).mem_erase_iff]
  -- an empty room is erased
  by_cases hempty : (room.removeMember s).2.members = []
  · have e : m.depart s u room =
        { m.updateUser s u.returnToLobby with rooms := m.rooms.erase room.id } := by
      simp [RoomManager.depart, hempty, RoomManager.updateUser]
    rw [e]
    refine h.vacate hu hr fun s' => ⟨fun hs' => ?_, fun e => e ▸ hs⟩
    by_contra hne
    have := (hrest s').mpr ⟨hne, hs'⟩
    simp [hempty] at this
  · have e : m.depart s u room =
        (m.updateUser s u.returnToLobby).store room.id (room.removeMember s).2 := by
      simp [RoomManager.depart, hempty]
    rw [e]
    exact h.standUp ((h.room hr).removeMember hs hempty) hid hu hr hs hrest

end RoomManager
end SelectServer
