import SelectServer.ChatClient
import SelectServer.GameResults
import SelectServer.PacketProcessor

/- What the server sends without being asked, and what a client hears in it. Every
   send of `PacketProcessor` is a `deliver` of packets that depend on the rooms
   alone: `memberOuts`, `stateOuts`, `endOuts`, and `flushOuts` for a whole queue
   of results. On well-formed rooms each of these notifications can be encoded,
   so what arrives is what was meant. -/
namespace SelectServer
open Wire (Bytes)

def SentPacket.packet (packet : SentPacket) : ClientPacket := ⟨packet.packetId, packet.body⟩

/-- What the session `s` hears in the packets sent. -/
def hears (s : SessionId) (packets : List SentPacket) : List Notice :=
  heard ((toSession s packets).map SentPacket.packet)

theorem hears_append (s : SessionId) (a b : List SentPacket) :
    hears s (a ++ b) = hears s a ++ hears s b := by
  rw [hears, toSession_append, List.map_append, heard_append]
  rfl

theorem hears_nil (s : SessionId) : hears s [] = [] := rfl

/-- Packets that no view cares about. -/
theorem hears_other {s : SessionId} {packets : List SentPacket}
    (h : ∀ packet ∈ packets, packet.packet.notice = .other) : hears s packets = [] := by
  rw [hears, heard, List.filter_eq_nil_iff]
  intro notice hnotice
  simp only [List.map_map, List.mem_map, Function.comp_apply] at hnotice
  obtain ⟨packet, hpacket, rfl⟩ := hnotice
  simpa using h packet (List.mem_filter.mp hpacket).1

/-- One body for every target. -/
def toAll (targets : List SessionId) (packetId : UInt16) (body : Bytes) : List SentPacket :=
  targets.map fun target => ⟨target, packetId, body⟩

theorem toSession_toAll {targets : List SessionId} (hnodup : targets.Nodup) (s : SessionId)
    (packetId : UInt16) (body : Bytes) :
    toSession s (toAll targets packetId body) =
      if s ∈ targets then [⟨s, packetId, body⟩] else [] := by
  induction targets with
  | nil => rfl
  | cons target targets ih =>
    obtain ⟨hnew, hrest⟩ := List.nodup_cons.mp hnodup
    have hcons : toAll (target :: targets) packetId body =
        [⟨target, packetId, body⟩] ++ toAll targets packetId body := rfl
    rw [hcons, toSession_append, ih hrest]
    by_cases h : target = s
    · subst h
      simp [toSession, hnew]
    · simp [toSession, h, Ne.symm h]

theorem hears_toAll {targets : List SessionId} (hnodup : targets.Nodup) (s : SessionId)
    {packetId : UInt16} {body : Bytes} {notice : Notice} (hother : notice ≠ .other)
    (hread : (⟨packetId, body⟩ : ClientPacket).notice = notice) :
    hears s (toAll targets packetId body) = if s ∈ targets then [notice] else [] := by
  rw [hears, toSession_toAll hnodup]
  split
  · simp [heard, SentPacket.packet, hread, hother]
  · rfl

/-! ## Messages as they are read -/

variable {body : Bytes}

theorem RoomStateNotification.notice {p : RoomStateNotification} (h : p.encode = some body) :
    (⟨roomStateNtf, body⟩ : ClientPacket).notice = .state p := by
  simp only [ClientPacket.notice, RoomStateNotification.decode_encode h]
  rfl

theorem GameMoveNotification.notice {p : GameMoveNotification} (h : p.encode = some body) :
    (⟨gameMoveNtf, body⟩ : ClientPacket).notice = .move p := by
  simp only [ClientPacket.notice, GameMoveNotification.decode_encode h]
  rfl

theorem GameEndNotification.notice {p : GameEndNotification} (h : p.encode = some body) :
    (⟨gameEndNtf, body⟩ : ClientPacket).notice = .ended p := by
  simp only [ClientPacket.notice, GameEndNotification.decode_encode h]
  rfl

/-! ## Messages that can be encoded -/

theorem RoomActionResponse.encode_some (response : RoomActionResponse) :
    ∃ body, response.encode = some body := by
  simp [encode, Writer.finish, maxPacketSize, headerSize]

theorem GameMoveResponse.encode_some (response : GameMoveResponse) :
    ∃ body, response.encode = some body := by
  simp [encode, Writer.finish, maxPacketSize, headerSize]

theorem GameMoveNotification.encode_some {p : GameMoveNotification} (h : isValidGameMove p = true) :
    ∃ body, p.encode = some body := by
  simp [encode, h, Writer.finish, maxPacketSize, headerSize]

theorem GameEndNotification.encode_some {p : GameEndNotification} (h : isValidGameEnd p = true) :
    ∃ body, p.encode = some body := by
  simp [encode, h, Writer.finish, maxPacketSize, headerSize]

/-! ## What is sent -/

def memberOuts (m : RoomManager) (roomId : RoomId) (change : RoomMemberChange) (nickname : Bytes) :
    List SentPacket :=
  match m.find roomId with
  | none => []
  | some room =>
    match RoomMemberNotification.encode ⟨roomId, change, nickname⟩ with
    | none => []
    | some body => toAll room.members roomMemberNtf body

def stateOuts (m : RoomManager) (roomId : RoomId) : List SentPacket :=
  match m.find roomId with
  | none => []
  | some room =>
    match (PacketProcessor.roomState m roomId room).bind RoomStateNotification.encode with
    | none => []
    | some body => toAll room.members roomStateNtf body

def endOuts (finished : FinishedGame) : List SentPacket :=
  match (PacketProcessor.gameEnd finished).encode with
  | none => []
  | some body => toAll finished.targets gameEndNtf body

/-- The packets of `FlushFinishedGames`. -/
def flushOuts (m : RoomManager) : List SentPacket :=
  m.finishedGames.flatMap fun finished => endOuts finished ++ stateOuts m finished.room

namespace PacketProcessor
variable {host : Host}

def deliver (host : Host) (p : PacketProcessor) (packets : List SentPacket) : PacketProcessor :=
  { p with network := p.network.deliver host packets }

@[simp] theorem deliver_rooms (p : PacketProcessor) (packets : List SentPacket) :
    (p.deliver host packets).rooms = p.rooms := rfl

@[simp] theorem deliver_network (p : PacketProcessor) (packets : List SentPacket) :
    (p.deliver host packets).network = p.network.deliver host packets := rfl

theorem deliver_deliver (p : PacketProcessor) (a b : List SentPacket) :
    (p.deliver host a).deliver host b = p.deliver host (a ++ b) := by
  simp [deliver, Network.deliver_append]

theorem sendOrDisconnect_eq (p : PacketProcessor) (packet : SentPacket) :
    (p.sendOrDisconnect host packet).2 = p.deliver host [packet] := by
  unfold sendOrDisconnect deliver
  simp only [Network.deliver, List.foldl_cons, List.foldl_nil, Network.post]
  split <;> simp_all

theorem sendOrDisconnect_served {p : PacketProcessor} {packet : SentPacket}
    (hserves : host.Serves packet.session) (h : packet.session ∈ p.network.connected) :
    (p.sendOrDisconnect host packet).1 = true := by
  unfold sendOrDisconnect Network.sendPacket Network.isConnected
  simp [h, hserves p.network.sent packet rfl]

theorem broadcast_eq (targets : List SessionId) (packetId : UInt16) (body : Bytes) :
    ∀ p : PacketProcessor,
      p.broadcast host targets packetId body = p.deliver host (toAll targets packetId body) := by
  induction targets with
  | nil => intro p; rfl
  | cons target targets ih =>
    intro p
    have hskip : target ∉ p.network.connected → p.deliver host [⟨target, packetId, body⟩] = p := by
      intro h
      simp [deliver, Network.deliver, Network.post, Network.sendPacket, Network.isConnected,
        Network.disconnect, h]
    have hcons : toAll (target :: targets) packetId body =
        [⟨target, packetId, body⟩] ++ toAll targets packetId body := rfl
    rw [hcons, ← deliver_deliver, ← ih]
    unfold broadcast
    rw [List.foldl_cons, sendOrDisconnect_eq]
    by_cases h : target ∈ p.network.connected
    · simp [Network.isConnected, h]
    · simp [Network.isConnected, h, hskip h]

theorem notifyRoomMember_eq (p : PacketProcessor) (roomId : RoomId) (change : RoomMemberChange)
    (nickname : Bytes) : p.notifyRoomMember host roomId change nickname =
      p.deliver host (memberOuts p.rooms roomId change nickname) := by
  unfold notifyRoomMember memberOuts
  cases p.rooms.find roomId with
  | none => rfl
  | some room =>
    dsimp only
    cases RoomMemberNotification.encode ⟨roomId, change, nickname⟩ with
    | none => rfl
    | some body => exact broadcast_eq _ _ _ _

theorem notifyRoomState_eq (p : PacketProcessor) (roomId : RoomId) :
    p.notifyRoomState host roomId = p.deliver host (stateOuts p.rooms roomId) := by
  unfold notifyRoomState stateOuts
  cases p.rooms.find roomId with
  | none => rfl
  | some room =>
    dsimp only
    cases roomState p.rooms roomId room with
    | none => rfl
    | some notification =>
      dsimp only [Option.bind_some]
      cases notification.encode with
      | none => rfl
      | some body => exact broadcast_eq _ _ _ _

theorem announce_eq (p : PacketProcessor) {finished : FinishedGame}
    (hvalid : isValidGameEnd (gameEnd finished) = true) : p.announce host finished =
      p.deliver host (endOuts finished ++ stateOuts p.rooms finished.room) := by
  obtain ⟨body, hbody⟩ := GameEndNotification.encode_some hvalid
  unfold announce endOuts
  rw [hbody]
  dsimp only
  rw [broadcast_eq, notifyRoomState_eq, deliver_deliver]
  rfl

/-- The whole queue is announced in order. -/
theorem flushLoop_eq (queue : List FinishedGame) : ∀ p : PacketProcessor,
    p.rooms.finishedGames = queue →
    (∀ finished ∈ queue, isValidGameEnd (gameEnd finished) = true) →
    flushLoop host queue.length p =
      ({ p with rooms := { p.rooms with finishedGames := [] } } : PacketProcessor).deliver host
        (flushOuts p.rooms) := by
  induction queue with
  | nil =>
    intro p hq _
    have hrooms : ({ p.rooms with finishedGames := [] } : RoomManager) = p.rooms := by rw [← hq]
    rw [hrooms, flushOuts, hq]
    rfl
  | cons finished queue ih =>
    intro p hq hvalid
    -- the rooms that the next turn of the loop starts with
    have hstate : ∀ r, stateOuts { p.rooms with finishedGames := queue } r = stateOuts p.rooms r :=
      fun _ => rfl
    have hpop : p.rooms.tryPopFinishedGame =
        (some finished, { p.rooms with finishedGames := queue }) := by
      rw [RoomManager.tryPopFinishedGame, hq]
    simp only [List.length_cons, flushLoop, hpop]
    rw [announce_eq _ (hvalid finished List.mem_cons_self),
      ih _ rfl fun f hf => hvalid f (List.mem_cons_of_mem _ hf)]
    have houts : flushOuts p.rooms = (endOuts finished ++ stateOuts p.rooms finished.room) ++
        flushOuts { p.rooms with finishedGames := queue } := by
      rw [flushOuts, flushOuts, hq, List.flatMap_cons]
      rfl
    rw [houts]
    exact deliver_deliver
      ({ p with rooms := { p.rooms with finishedGames := [] } } : PacketProcessor) _ _

theorem flushFinishedGames_eq (p : PacketProcessor)
    (hvalid : ∀ finished ∈ p.rooms.finishedGames, isValidGameEnd (gameEnd finished) = true) :
    p.flushFinishedGames host =
      ({ p with rooms := { p.rooms with finishedGames := [] } } : PacketProcessor).deliver host
        (flushOuts p.rooms) :=
  flushLoop_eq _ p rfl hvalid

end PacketProcessor

/-! ## What is heard -/

theorem memberOuts_other {m : RoomManager} {roomId : RoomId} {change : RoomMemberChange}
    {nickname : Bytes} {packet : SentPacket} (h : packet ∈ memberOuts m roomId change nickname) :
    packet.packetId = roomMemberNtf ∧ packet.packet.notice = .other := by
  unfold memberOuts at h
  split at h
  · cases h
  split at h
  · cases h
  rename_i body hbody
  obtain ⟨target, -, rfl⟩ := List.mem_map.mp h
  have hread := RoomMemberNotification.decode_encode hbody
  refine ⟨rfl, ?_⟩
  simp only [SentPacket.packet, ClientPacket.notice, hread]
  rfl

def notificationIds : List UInt16 := [chatNtf, roomMemberNtf, roomStateNtf, gameMoveNtf, gameEndNtf]

/-- Only notifications. -/
def Notifies (packets : List SentPacket) : Prop :=
  ∀ packet ∈ packets, packet.packetId ∈ notificationIds

theorem Notifies.append {a b : List SentPacket} (ha : Notifies a) (hb : Notifies b) :
    Notifies (a ++ b) := by
  intro packet h
  rcases List.mem_append.mp h with h | h
  · exact ha packet h
  · exact hb packet h

theorem notifies_toAll (targets : List SessionId) {packetId : UInt16} (body : Bytes)
    (h : packetId ∈ notificationIds) : Notifies (toAll targets packetId body) := by
  intro packet hpacket
  obtain ⟨target, -, rfl⟩ := List.mem_map.mp hpacket
  exact h

theorem notifies_memberOuts (m : RoomManager) (r : RoomId) (change : RoomMemberChange)
    (nickname : Bytes) : Notifies (memberOuts m r change nickname) := by
  intro packet h
  rw [(memberOuts_other h).1]
  decide

theorem notifies_stateOuts (m : RoomManager) (r : RoomId) : Notifies (stateOuts m r) := by
  unfold stateOuts
  split
  · simp [Notifies]
  split
  · simp [Notifies]
  · exact notifies_toAll _ _ (by decide)

theorem notifies_flushOuts (m : RoomManager) : Notifies (flushOuts m) := by
  intro packet h
  obtain ⟨finished, -, h⟩ := List.mem_flatMap.mp h
  have hend : Notifies (endOuts finished) := by
    unfold endOuts
    split
    · simp [Notifies]
    · exact notifies_toAll _ _ (by decide)
  exact hend.append (notifies_stateOuts m finished.room) packet h

theorem RoomStateNotification.encodePlayers_some (players : List RoomPlayerInfo) :
    ∀ writer : Writer, (∀ player ∈ players, player.nickname.length ≤ maxNicknameBytes) →
      ∃ writer', encodePlayers players writer = some writer' ∧
        writer'.body.length ≤ writer.body.length + 18 * players.length := by
  induction players with
  | nil => exact fun writer _ => ⟨writer, rfl, Nat.le_refl _⟩
  | cons player players ih =>
    intro writer hnames
    have hlen : player.nickname.length ≤ 16 := hnames player List.mem_cons_self
    have htext : writer.text8 player.nickname =
        some ⟨(writer.u8 (UInt8.ofNat player.nickname.length)).body ++ player.nickname⟩ :=
      if_neg (by omega)
    obtain ⟨writer', e, hle⟩ := ih
      ((⟨(writer.u8 (UInt8.ofNat player.nickname.length)).body ++ player.nickname⟩ : Writer).u8
        (if player.ready then 1 else 0)) fun p hp => hnames p (List.mem_cons_of_mem _ hp)
    refine ⟨writer', by simp only [encodePlayers, htext, Option.bind_eq_bind, Option.bind_some, e], ?_⟩
    simp only [Writer.u8_body, List.length_append, List.length_cons, List.length_nil] at hle ⊢
    omega

theorem RoomStateNotification.encode_some {p : RoomStateNotification}
    (hvalid : isValidRoomState p = true)
    (hnames : ∀ player ∈ p.players, player.nickname.length ≤ maxNicknameBytes)
    (hhost : p.hostNickname.length ≤ maxNicknameBytes) (hplayers : p.players.length ≤ 2) :
    ∃ body, p.encode = some body := by
  have hhost16 : p.hostNickname.length ≤ 16 := hhost
  have htext : ∀ writer : Writer, writer.text8 p.hostNickname =
      some ⟨(writer.u8 (UInt8.ofNat p.hostNickname.length)).body ++ p.hostNickname⟩ :=
    fun writer => if_neg (by omega)
  have hfinish : ∀ writer : Writer, writer.body.length ≤ 28 →
      ∃ body, ((encodePlayers p.players writer).bind fun writer => writer.finish) = some body := by
    intro writer hwriter
    obtain ⟨writer', e, hle⟩ := encodePlayers_some p.players writer hnames
    refine ⟨writer'.body, ?_⟩
    rw [e, Option.bind_some]
    refine if_neg ?_
    simp only [maxPacketSize, headerSize]
    omega
  simp only [encode, hvalid, htext, Bool.not_true, Bool.false_eq_true, if_false,
    Option.bind_eq_bind, Option.bind_some]
  apply hfinish
  simp only [Writer.u8_body, Writer.u32_body, List.length_append, List.length_cons, List.length_nil,
    u32Bytes_length]
  omega

theorem nickname_length {nickname : Bytes} (h : UserManager.isValidNickname nickname = true) :
    nickname ≠ [] ∧ nickname.length ≤ maxNicknameBytes := by
  simp only [UserManager.isValidNickname, Bool.and_eq_true, Bool.not_eq_true', decide_eq_true_eq,
    List.isEmpty_eq_false_iff] at h
  exact h.1

namespace RoomManager
variable {m : RoomManager} {s : SessionId}

/-- The nickname of a member, as `NotifyRoomState` finds it. -/
theorem WellFormed.member_name (h : m.WellFormed) {r : RoomId} {room : Room}
    (hr : m.rooms[r]? = some room) (hs : s ∈ room.members) :
    ∃ u, m.users.find s = some u ∧ u.roomId = r ∧ u.nickname ≠ [] ∧
      u.nickname.length ≤ maxNicknameBytes := by
  obtain ⟨u, hu, -, hid⟩ := h.member hr s hs
  exact ⟨u, hu, hid, nickname_length (h.user hu).2.2⟩

/-- Two users have two nicknames. -/
theorem WellFormed.names_distinct (h : m.WellFormed) {s' : SessionId} {u u' : User}
    (hu : m.users.find s = some u) (hu' : m.users.find s' = some u') (hne : s ≠ s') :
    u.nickname ≠ u'.nickname := by
  intro e
  have h1 := h.named hu
  have h2 := h.named hu'
  rw [e, h2] at h1
  exact hne (Option.some.inj h1).symm

/-- The notification of a room names its id, its game and its phase, and can be encoded. -/
theorem WellFormed.roomState_spec (h : m.WellFormed) {r : RoomId} {room : Room}
    (hr : m.rooms[r]? = some room) :
    ∃ notification body, PacketProcessor.roomState m r room = some notification ∧
      notification.encode = some body ∧ notification.roomId = r ∧
      notification.game = room.gameId ∧ notification.phase = room.phase := by
  have hroom := h.room hr
  have hr0 : r ≠ 0 := (h.stored hr).2.1
  have hcap : room.capacity.toUInt8.toNat = 2 := by rw [hroom.capacity]; rfl
  obtain ⟨host, hhost, hhid, hh0, hh16⟩ := h.member_name hr hroom.seats.host_mem
  have hunready : room.isReady room.hostSession = false := by
    simp only [Room.isReady, decide_eq_false_iff_not]
    intro hready
    exact (hroom.ready _ hready).2 rfl
  rcases hroom.seats with hm | ⟨guest, hm, hguest⟩
  · have hphase : room.phase = .waiting := by
      cases hp : room.phase with
      | waiting => rfl
      | playing =>
        obtain ⟨guest, hin⟩ := hroom.playing hp
        have hpair := hin.members
        simp [hm] at hpair
    have hstate : PacketProcessor.roomState m r room =
        some ⟨r, room.gameId, room.phase, room.capacity.toUInt8, host.nickname,
          [⟨host.nickname, false⟩]⟩ := by
      simp [PacketProcessor.roomState, hhost, hm, hhid, hunready]
    have hvalid : isValidRoomState ⟨r, room.gameId, room.phase, room.capacity.toUInt8,
        host.nickname, [⟨host.nickname, false⟩]⟩ = true := by
      simp [isValidRoomState, RoomStateNotification.checkPlayers, hr0, hcap, roomPlayerCount,
        hphase, hh0, Nat.not_lt.mpr hh16]
    obtain ⟨body, hbody⟩ := RoomStateNotification.encode_some hvalid (by simpa using hh16) hh16
      (by simp)
    exact ⟨_, body, hstate, hbody, rfl, rfl, rfl⟩
  · obtain ⟨other, hother, hoid, ho0, ho16⟩ :=
      h.member_name hr (by simp [hm] : guest ∈ room.members)
    have hne : other.nickname ≠ host.nickname := h.names_distinct hother hhost hguest
    have hready : room.phase = .playing → room.isReady guest = false ∧ room.gameId ≠ 0 := by
      intro hp
      obtain ⟨guest', hin⟩ := hroom.playing hp
      exact ⟨by simp [Room.isReady, hin.unready], hin.numbered⟩
    have hstate : PacketProcessor.roomState m r room =
        some ⟨r, room.gameId, room.phase, room.capacity.toUInt8, host.nickname,
          [⟨host.nickname, false⟩, ⟨other.nickname, room.isReady guest⟩]⟩ := by
      simp [PacketProcessor.roomState, hhost, hother, hm, hhid, hoid, hunready]
    have hvalid : isValidRoomState ⟨r, room.gameId, room.phase, room.capacity.toUInt8,
        host.nickname, [⟨host.nickname, false⟩, ⟨other.nickname, room.isReady guest⟩]⟩ = true := by
      cases hp : room.phase with
      | waiting =>
        simp [isValidRoomState, RoomStateNotification.checkPlayers, hr0, hcap, roomPlayerCount,
          hh0, ho0, Nat.not_lt.mpr hh16, Nat.not_lt.mpr ho16, hne]
      | playing =>
        obtain ⟨hunready', hgame⟩ := hready hp
        simp [isValidRoomState, RoomStateNotification.checkPlayers, hr0, hcap, roomPlayerCount,
          hh0, ho0, Nat.not_lt.mpr hh16, Nat.not_lt.mpr ho16, hne, hunready', hgame]
    obtain ⟨body, hbody⟩ := RoomStateNotification.encode_some hvalid
      (by simpa using ⟨hh16, ho16⟩) hh16 (by simp)
    exact ⟨_, body, hstate, hbody, rfl, rfl, rfl⟩

/-- What a session hears when the state of a room is announced. -/
inductive StateHeard (m : RoomManager) (r : RoomId) (s : SessionId) : List Notice → Prop
  | away (h : ∀ room, m.rooms[r]? = some room → s ∉ room.members) : StateHeard m r s []
  | member {room : Room} {notification : RoomStateNotification} (hr : m.rooms[r]? = some room)
      (hs : s ∈ room.members) (hid : notification.roomId = r)
      (hgame : notification.game = room.gameId) (hphase : notification.phase = room.phase) :
      StateHeard m r s [.state notification]

theorem WellFormed.hears_stateOuts (h : m.WellFormed) (r : RoomId) (s : SessionId) :
    StateHeard m r s (hears s (stateOuts m r)) := by
  unfold stateOuts RoomManager.find
  cases hr : m.rooms[r]? with
  | none => exact .away fun room hr' => by rw [hr] at hr'; cases hr'
  | some room =>
    obtain ⟨notification, body, hstate, hbody, hid, hgame, hphase⟩ := h.roomState_spec hr
    simp only [hstate, Option.bind_some, hbody]
    rw [hears_toAll (h.nodup hr) s (by simp) (RoomStateNotification.notice hbody)]
    split
    · rename_i hs
      exact .member hr hs hid hgame hphase
    · rename_i hs
      refine .away fun room' hr' => ?_
      rw [hr] at hr'
      exact Option.some.inj hr' ▸ hs

end RoomManager

theorem hears_endOuts {finished : FinishedGame} (s : SessionId)
    (hvalid : isValidGameEnd (PacketProcessor.gameEnd finished) = true)
    (hnodup : finished.targets.Nodup) :
    hears s (endOuts finished) =
      if s ∈ finished.targets then [.ended (PacketProcessor.gameEnd finished)] else [] := by
  obtain ⟨body, hbody⟩ := GameEndNotification.encode_some hvalid
  unfold endOuts
  rw [hbody]
  exact hears_toAll hnodup s (by simp) (GameEndNotification.notice hbody)

@[simp] theorem toPacketStone_eq (stone : GameStone) :
    PacketProcessor.toPacketStone stone = stone := by
  cases stone <;> rfl

@[simp] theorem toPacketState_eq (state : GameState) :
    PacketProcessor.toPacketState state = state := by
  cases state <;> rfl

/-- A coordinate on the board fits its byte. -/
theorem byte_toNat {n : Int} (h0 : 0 ≤ n) (h15 : n < 15) : (UInt8.ofInt n).toNat = n.toNat := by
  show (UInt8.ofNat (n % 2 ^ 8).toNat).toNat = n.toNat
  rw [UInt8.toNat_ofNat_of_lt' (by simp only [UInt8.size]; omega)]
  omega

/-- The notification of a stone that the game took. -/
theorem gameMove_valid {room : Room} {stone : GameStone} {x y : Int} (hid : room.id ≠ 0)
    (hnum : room.gameId ≠ 0) (hs : room.game.Sound) (hacc : room.game.Accepts stone x y) :
    isValidGameMove (PacketProcessor.gameMove (RoomManager.acceptedMove room stone x y
      (room.game.tryPlaceStone stone x y).2)) = true := by
  obtain ⟨-, hcount, houtcome⟩ := hs.outcome hacc
  have hlt := (hs.open_board hacc.playing).2.2
  obtain ⟨hx0, hx, hy0, hy⟩ := isInside_iff.mp hacc.inside
  have hword : (UInt32.ofNat (room.game.moveCount + 1)).toNat = room.game.moveCount + 1 :=
    UInt32.toNat_ofNat_of_lt' (by simp only [UInt32.size]; omega)
  have hword0 : UInt32.ofNat (room.game.moveCount + 1) ≠ 0 := by
    intro e
    rw [e] at hword
    cases hword
  have hfields : ¬ (room.id = 0 ∨ room.gameId = 0 ∨ (UInt8.ofInt x).toNat ≥ gameBoardSize ∨
      (UInt8.ofInt y).toNat ≥ gameBoardSize ∨ UInt32.ofNat (room.game.moveCount + 1) = 0 ∨
      (UInt32.ofNat (room.game.moveCount + 1)).toNat > gameBoardSize * gameBoardSize) := by
    rw [byte_toNat hx0 hx, byte_toNat hy0 hy, hword]
    simp only [gameBoardSize, hid, hnum, hword0, false_or, not_or]
    omega
  have hcolour : ¬ (stone ≠ .black ∧ stone ≠ .white) := by
    have := hacc.colour
    tauto
  simp only [isValidGameMove, PacketProcessor.gameMove, RoomManager.acceptedMove, hcount,
    toPacketStone_eq, toPacketState_eq]
  rw [if_neg hfields, if_neg hcolour, hword]
  cases houtcome with
  | open_ status turn hroom =>
    rw [hcount] at hroom
    rcases hacc.colour with rfl | rfl <;>
      simpa [status, turn, GameStone.other, gameBoardSize] using hroom
  | won status turn => rcases hacc.colour with rfl | rfl <;> simp [status, turn]
  | drawn status turn hfull =>
    rw [hcount] at hfull
    simp [status, turn, hfull, gameBoardSize]

/-! ## Every queued result can be announced -/

/-- A result that `FlushFinishedGames` can announce. -/
structure FinishedGame.Valid (finished : FinishedGame) : Prop where
  encodes : isValidGameEnd (PacketProcessor.gameEnd finished) = true
  nodup : finished.targets.Nodup

theorem OmokGame.Sound.moveCount_le {g : OmokGame} (h : g.Sound) : g.moveCount ≤ 225 := by
  rw [h.count]
  exact g.board.filled_card_le

theorem gameEnd_valid {finished : FinishedGame} (hroom : finished.room ≠ 0)
    (hgame : finished.game ≠ 0) (hcount : finished.moveCount ≤ 225)
    (hreason : (finished.status = .blackWon ∨ finished.status = .whiteWon) ∧
        finished.reason ≠ .boardFull ∨
      finished.status = .draw ∧ finished.reason = .boardFull ∧ finished.moveCount = 225) :
    isValidGameEnd (PacketProcessor.gameEnd finished) = true := by
  have hword : (UInt32.ofNat finished.moveCount).toNat = finished.moveCount :=
    UInt32.toNat_ofNat_of_lt' (by simp only [UInt32.size]; omega)
  have hfields : ¬ (finished.room = 0 ∨ finished.game = 0 ∨
      (UInt32.ofNat finished.moveCount).toNat > gameBoardSize * gameBoardSize) := by
    rw [hword]
    simp only [gameBoardSize, hroom, hgame, false_or]
    omega
  simp only [isValidGameEnd, PacketProcessor.gameEnd, toPacketState_eq]
  rw [if_neg hfields, hword]
  rcases hreason with ⟨hwon, hreason⟩ | ⟨hdraw, hreason, hfull⟩
  · have hwinner : (finished.status == .blackWon || finished.status == .whiteWon) = true := by
      simpa using hwon
    cases hr : finished.reason with
    | boardFull => exact absurd hr hreason
    | _ => exact hwinner
  · simp [hdraw, hreason, hfull, gameBoardSize]

theorem Cause.valid {m : RoomManager} {l : Call} {a : Answer} {room : Room} {g : OmokGame}
    {reason : GameEndReason} (hc : Cause m l a room g reason) (h : m.WellFormed)
    (hon : m.On room.id room) : (({ room with game := g } : Room).record reason).Valid where
  encodes := by
    have hroom := h.room hon.1
    obtain ⟨guest, hin⟩ := hroom.playing hon.2
    have hforfeit : ∀ loser, (loser = .black ∨ loser = .white) → ∀ reason, reason ≠ .boardFull →
        isValidGameEnd (PacketProcessor.gameEnd
          (({ room with game := (room.game.forfeit loser).2 } : Room).record reason)) = true := by
      intro loser hl reason hr
      have hstatus := forfeit_status hin.status hl
      refine gameEnd_valid (h.stored hon.1).2.1 hin.numbered (hroom.sound.forfeit loser).moveCount_le
        (Or.inl ⟨?_, hr⟩)
      show (room.game.forfeit loser).2.status = _ ∨ (room.game.forfeit loser).2.status = _
      rw [hstatus]
      rcases hl with rfl | rfl
      · exact Or.inr rfl
      · exact Or.inl rfl
    cases hc with
    | @stone s u x y out now _ _ _ _ hacc hend =>
      have hsound := hroom.sound.tryPlaceStone (room.getPlayerStone s) x y
      refine gameEnd_valid (h.stored hon.1).2.1 hin.numbered hsound.moveCount_le ?_
      obtain ⟨-, -, houtcome⟩ := hroom.sound.outcome hacc
      cases houtcome with
      | open_ status => exact absurd status hend
      | won status =>
        refine Or.inl ⟨?_, ?_⟩
        · show (room.game.tryPlaceStone (room.getPlayerStone s) x y).2.status = _ ∨
            (room.game.tryPlaceStone (room.getPlayerStone s) x y).2.status = _
          rw [status]
          split <;> simp
        · show OmokGame.endReason _ ≠ _
          rw [OmokGame.endReason, status]
          split <;> decide
      | drawn status _ hfull =>
        refine Or.inr ⟨status, ?_, hfull⟩
        show OmokGame.endReason _ = _
        rw [OmokGame.endReason, if_pos status]
    | resigned _ _ hseat => exact hforfeit _ (h.stone_colour hseat hon.2) _ (by decide)
    | left _ _ hreason hseat =>
      refine hforfeit _ (h.stone_colour hseat hon.2) _ ?_
      rcases hreason with rfl | rfl <;> decide
    | timeout => exact hforfeit _ (hroom.sound.turn hin.status) _ (by decide)
  nodup := h.nodup hon.1

namespace RoomManager

/-- What holds of the rooms and of the results queued between any two calls of the server. -/
structure Ok (m : RoomManager) : Prop where
  wellFormed : m.WellFormed
  books : ∃ announced, m.Books (announced ++ m.finishedGames)
  valid : ∀ finished ∈ m.finishedGames, finished.Valid

/-- The queue is announced. -/
theorem Ok.announced {m : RoomManager} (h : m.Ok) {announced rest : List FinishedGame}
    (hq : m.finishedGames = announced ++ rest) :
    ({ m with finishedGames := rest } : RoomManager).Ok where
  wellFormed := h.wellFormed.withRecords rest
  books := by
    obtain ⟨before, hb⟩ := h.books
    refine ⟨before ++ announced, ?_⟩
    rw [List.append_assoc, ← hq]
    exact hb
  valid f hf := h.valid f (by rw [hq]; exact List.mem_append_right _ hf)

section Ok
variable {m : RoomManager} {r : RoomId} {room : Room} {f f' : FinishedGame} {rest : List FinishedGame}

/-- A queued result is not of a game that is on. -/
theorem Ok.over (h : m.Ok) (hf : f ∈ m.finishedGames) (hon : m.On r room) : f.game ≠ room.gameId := by
  obtain ⟨announced, hb⟩ := h.books
  exact hb.open_unrecorded r _ ⟨room, hon, rfl⟩ f (List.mem_append_right _ hf)

theorem Ok.past (h : m.Ok) (hf : f ∈ m.finishedGames) : 1 ≤ f.game ∧ f.game ≤ m.lastGameId := by
  obtain ⟨announced, hb⟩ := h.books
  exact hb.recorded_issued f (List.mem_append_right _ hf)

theorem Ok.issued (h : m.Ok) (hon : m.On r room) : 1 ≤ room.gameId ∧ room.gameId ≤ m.lastGameId := by
  obtain ⟨announced, hb⟩ := h.books
  exact hb.open_issued r _ ⟨room, hon, rfl⟩

/-- No game has two results queued. -/
theorem Ok.once (h : m.Ok) (hq : m.finishedGames = f :: rest) (hf' : f' ∈ rest) :
    f'.game ≠ f.game := by
  obtain ⟨announced, hb⟩ := h.books
  have hdup := hb.nodup
  rw [hq, List.map_append, List.map_cons] at hdup
  have hnew := (List.nodup_cons.mp (List.nodup_append.mp hdup).2.1).1
  intro e
  exact hnew (e ▸ List.mem_map_of_mem hf')

end Ok

end RoomManager

theorem Answer.popped?_nil {a : Answer} (h : a.accepted = false) : a.popped? = [] := by
  cases a with
  | popped finished =>
    cases finished with
    | none => rfl
    | some f => cases h
  | _ => rfl

theorem Effect.popped?_nil {wideChars : Bytes → Nat} {m m' : RoomManager} {l : Call} {a : Answer}
    (he : Effect wideChars m l a m') (hpop : l ≠ .tryPopFinishedGame) : a.popped? = [] := by
  cases he with
  | refused ha => exact Answer.popped?_nil ha
  | expired _ ha => exact Answer.popped?_nil ha
  | popped => exact absurd rfl hpop
  | _ => rfl

/-- A call of the server that takes nothing from the queue. -/
theorem Effect.ok {wideChars : Bytes → Nat} {m m' : RoomManager} {l : Call} {a : Answer}
    (he : Effect wideChars m l a m') (h : m.Ok) (hpop : l ≠ .tryPopFinishedGame)
    (hlogin : ∀ s nickname, l = .login s nickname → s ≠ 0)
    (hremove : ∀ s, l = .remove s → ∀ u, m.users.users[s]? = some u → u.state = .lobby) :
    m'.Ok := by
  obtain ⟨hturn, hqueue⟩ := he.turnover h.wellFormed
  rw [QueueStep, he.popped?_nil hpop, List.nil_append] at hqueue
  obtain ⟨announced, hb⟩ := h.books
  generalize recordedBy m l m' = records at hturn hqueue
  refine ⟨he.wellFormed h.wellFormed hlogin hremove, ⟨announced, ?_⟩, ?_⟩
  · rw [← hqueue, ← List.append_assoc]
    exact hturn.books hb
  · rw [← hqueue]
    intro f hf
    rcases List.mem_append.mp hf with hf | hf
    · exact h.valid f hf
    · cases hturn with
      | ended hends =>
        obtain ⟨room, g, reason, hon, hcause, rfl⟩ := hends.causes hf
        exact hcause.valid h.wellFormed hon
      | started => cases hf
      | moved => cases hf

end SelectServer
