import SelectServer.Handlers

/- The running server as a transition system: connections open, close and send at
   any time, and `Update` is taken apart into its beginning, one step per event of
   its loop, and its end. A step is one of a few deeds (`Deed`), each a change of
   the rooms with the packets that go with it. No step throws (`step_returns`). -/
namespace SelectServer
open Wire (Bytes)
open Histories

structure Server where
  processor : PacketProcessor
  /-- Whether `Update` has begun and not yet returned. -/
  updating : Bool := false

inductive Input where
  | accept (now : Time)
  | receive (sessionId : SessionId) (packetId : UInt16) (body : Bytes)
  | close (sessionId : SessionId)
  | beginUpdate (traversal : Traversal RoomId) (now : Time)
  | event (loginNow gameNow : Time)
  | endUpdate (first second : Traversal SessionId × Time) (traversal : Traversal RoomId) (now : Time)

namespace Server

abbrev network (c : Server) : Network := c.processor.network

abbrev rooms (c : Server) : RoomManager := c.processor.rooms

def withNetwork (c : Server) (network : Network) : Server :=
  { c with processor := { c.processor with network := network } }

/-- The server after one input; none where the input cannot come. -/
def step (host : Host) (c : Server) : Input → Option (Except LogicError Server)
  | .accept now => some (.ok (c.withNetwork (c.network.accept now)))
  | .receive s packetId body => some (.ok (c.withNetwork (c.network.receive s packetId body)))
  | .close s => some (.ok (c.withNetwork (c.network.disconnect s)))
  | .beginUpdate traversal now =>
    if c.updating then none
    else some ((c.processor.beginUpdate host traversal now).map fun p => ⟨p, true⟩)
  | .event loginNow gameNow =>
    if !c.updating then none
    else
      match c.network.tryPopEvent with
      | none => none
      | some (event, network) =>
        some (((c.withNetwork network).processor.handleEvent host event loginNow gameNow).map
          fun p => ⟨p, true⟩)
  | .endUpdate first second traversal now =>
    if !c.updating || c.network.tryPopEvent.isSome then none
    else some ((c.processor.endUpdate host first second traversal now).map fun p => ⟨p, false⟩)

end Server

def ServerStep (host : Host) (c : Server) (l : Input) (c' : Server) : Prop :=
  c.step host l = some (.ok c')

/-- The runs of a server from its construction. -/
abbrev ServerRun (host : Host) (p : PacketProcessor) : List (Entry Server Input) → Server → Prop :=
  Run (ServerStep host) { processor := p }

/-! ## What a step does -/

/-- What a step does to the rooms, with the packets it sends. The requests it may handle are
`asked`. -/
inductive Deed (host : Host) (asked : NetworkEvent → Prop) (m : RoomManager) :
    List SentPacket → RoomManager → Prop
  | quiet {packets : List SentPacket}
      (hother : ∀ packet ∈ packets, packet.packet.notice = .other) : Deed host asked m packets m
  | handled {event : NetworkEvent} {rid : UInt16} {packets : List SentPacket} {m' : RoomManager}
      (hasked : asked event) (h : Handled host m event rid packets m') :
      Deed host asked m packets m'
  | forgotten {s : SessionId} {u : User} (hidle : m.Idle s u) :
      Deed host asked m (flushOuts { m with users := m.users.remove s })
        { m with users := m.users.remove s, finishedGames := [] }
  | gone {s : SessionId} {u : User} {now : Time} {m' : RoomManager}
      (he : Effect host.multiByteToWideChar m (.leaveRoom s .disconnected now)
        (.room .success) m') (hu : m.users.users[s]? = some u) :
      Deed host asked m
        (flushOuts { m' with users := m'.users.remove s } ++
          (memberOuts { m' with users := m'.users.remove s } u.roomId .disconnected u.nickname ++
            stateOuts { m' with users := m'.users.remove s } u.roomId))
        { m' with users := m'.users.remove s, finishedGames := [] }
  | swept {traversal : Traversal RoomId} {now : Time} {m' : RoomManager}
      (he : Effect host.multiByteToWideChar m (.updateTimeouts traversal now) .none m') :
      Deed host asked m (flushOuts m') { m' with finishedGames := [] }

theorem Deed.mono {host : Host} {asked asked' : NetworkEvent → Prop} {m m' : RoomManager}
    {packets : List SentPacket} (h : Deed host asked m packets m')
    (hle : ∀ event, asked event → asked' event) : Deed host asked' m packets m' := by
  cases h with
  | quiet hother => exact .quiet hother
  | handled hasked h => exact .handled (hle _ hasked) h
  | forgotten hidle => exact .forgotten hidle
  | gone he hu => exact .gone he hu
  | swept he => exact .swept he

namespace PacketProcessor
variable (host : Host) (asked : NetworkEvent → Prop) (p : PacketProcessor)

/-- A session that is in no room, or gone from its room, can be removed. -/
theorem removed_ok {m : RoomManager} (hok : m.Ok) {s : SessionId}
    (hlobby : ∀ u, m.users.users[s]? = some u → u.state = .lobby) :
    ({ m with users := m.users.remove s } : RoomManager).Ok :=
  (Effect.removed : Effect (fun _ => 0) m (.remove s) .none _).ok hok (by simp) (by simp)
    fun s' h u hu => by cases h; exact hlobby u hu

/-- What `HandleDisconnected` does, by what the session was: not logged in, in no room, or in one. -/
theorem handleDisconnected_spec (hok : p.rooms.Ok) (s : SessionId) (now : Time) :
    ∃ p', p.handleDisconnected host s now = .ok p' ∧
      ((p.rooms.users.users[s]? = none ∧ p'.rooms = p.rooms ∧ p'.network = p.network) ∨
        (∃ u, p.rooms.Idle s u ∧
          p'.rooms = { p.rooms with users := p.rooms.users.remove s, finishedGames := [] } ∧
          p'.network = p.network.deliver host
            (flushOuts { p.rooms with users := p.rooms.users.remove s })) ∨
        ∃ u m, Effect host.multiByteToWideChar p.rooms (.leaveRoom s .disconnected now)
            (.room .success) m ∧ p.rooms.users.users[s]? = some u ∧
          p'.rooms = { m with users := m.users.remove s, finishedGames := [] } ∧
          p'.network = p.network.deliver host
            (flushOuts { m with users := m.users.remove s } ++
              (memberOuts { m with users := m.users.remove s } u.roomId .disconnected u.nickname ++
                stateOuts { m with users := m.users.remove s } u.roomId))) := by
  unfold handleDisconnected
  dsimp only
  cases hu : p.rooms.users.find s with
  | none => exact ⟨_, rfl, Or.inl ⟨hu, rfl, rfl⟩⟩
  | some user =>
    dsimp only
    rcases RoomManager.leaveRoom_spec hok.wellFormed s now (Or.inr rfl) with
      ⟨hnone, -⟩ | ⟨u, hidle, e⟩ | ⟨u, room, m1, room1, hseat, hclosed, e⟩
    · rw [UserManager.find, hnone] at hu
      cases hu
    · have hok' := removed_ok hok (s := s) fun _ => hidle.lobby
      refine ⟨_, by rw [e]; rfl, Or.inr (Or.inl ⟨u, hidle, ?_⟩)⟩
      rw [flushFinishedGames_eq]
      · exact ⟨rfl, rfl⟩
      · exact fun f hf => (hok'.valid f hf).encodes
    · generalize hm : m1.depart s u room1 = m at e
      have he : Effect host.multiByteToWideChar p.rooms (.leaveRoom s .disconnected now)
          (.room .success) m := hm ▸ .left hseat (Or.inr rfl) hclosed
      have hlobby : ∀ u', m.users.users[s]? = some u' → u'.state = .lobby := by
        intro u' hu'
        rw [← hm, RoomManager.depart_user] at hu'
        exact Option.some.inj hu' ▸ rfl
      have hok' := removed_ok (he.ok hok (by simp) (by simp) (by simp)) hlobby
      refine ⟨_, by rw [e]; rfl, Or.inr (Or.inr ⟨user, m, he, hu, ?_⟩)⟩
      rw [flushFinishedGames_eq]
      · rw [notifyRoomMember_eq, notifyRoomState_eq, deliver_deliver, deliver_deliver]
        exact ⟨rfl, rfl⟩
      · exact fun f hf => (hok'.valid f hf).encodes

theorem handleDisconnected_deed (hok : p.rooms.Ok) (s : SessionId) (now : Time) :
    ∃ p' packets, p.handleDisconnected host s now = .ok p' ∧
      Deed host asked p.rooms packets p'.rooms ∧ p'.network = p.network.deliver host packets ∧
        Notifies packets := by
  obtain ⟨p', e, ⟨-, hrooms, hnetwork⟩ | ⟨u, hidle, hrooms, hnetwork⟩ |
    ⟨u, m, he, hu, hrooms, hnetwork⟩⟩ := handleDisconnected_spec host p hok s now
  · refine ⟨p', [], e, ?_, hnetwork, by simp [Notifies]⟩
    rw [hrooms]
    exact .quiet (by simp)
  · refine ⟨p', _, e, ?_, hnetwork, notifies_flushOuts _⟩
    rw [hrooms]
    exact .forgotten hidle
  · refine ⟨p', _, e, ?_, hnetwork, (notifies_flushOuts _).append
      ((notifies_memberOuts _ _ _ _).append (notifies_stateOuts _ _))⟩
    rw [hrooms]
    exact .gone he hu

theorem sweepRooms_spec (hok : p.rooms.Ok) (traversal : Traversal RoomId) (now : Time) :
    ∃ p' m, p.sweepRooms host traversal now = .ok p' ∧
      Effect host.multiByteToWideChar p.rooms (.updateTimeouts traversal now) .none m ∧
        p'.rooms = { m with finishedGames := [] } ∧
          p'.network = p.network.deliver host (flushOuts m) := by
  unfold sweepRooms
  rw [RoomManager.updateTimeouts_spec hok.wellFormed]
  have he : Effect host.multiByteToWideChar p.rooms (.updateTimeouts traversal now) .none
      ((traversal.order p.rooms.rooms.keys).foldl (RoomManager.expire now) p.rooms) := .swept
  have hok' := he.ok hok (by simp) (by simp) (by simp)
  refine ⟨_, _, rfl, he, ?_⟩
  rw [flushFinishedGames_eq]
  · exact ⟨rfl, rfl⟩
  · exact fun f hf => (hok'.valid f hf).encodes

theorem sweepRooms_deed (hok : p.rooms.Ok) (traversal : Traversal RoomId) (now : Time) :
    ∃ p' packets, p.sweepRooms host traversal now = .ok p' ∧
      Deed host asked p.rooms packets p'.rooms ∧ p'.network = p.network.deliver host packets ∧
        p'.rooms.finishedGames = [] ∧ Notifies packets := by
  obtain ⟨p', m, e, he, hrooms, hnetwork⟩ := sweepRooms_spec host p hok traversal now
  refine ⟨p', flushOuts m, e, ?_, hnetwork, ?_, notifies_flushOuts m⟩
  · rw [hrooms]
    exact .swept he
  · rw [hrooms]

/-- The login checks only disconnect sessions. -/
theorem checkLoginTimeout_quiet (now : Time) (p : PacketProcessor) (s : SessionId) :
    (checkLoginTimeout now p s).rooms = p.rooms ∧
      Network.Emits p.network [] (checkLoginTimeout now p s).network := by
  unfold checkLoginTimeout
  split
  · exact ⟨rfl, Network.Emits.refl _⟩
  split
  · exact ⟨rfl, Network.Emits.refl _⟩
  · exact ⟨rfl, Network.emits_disconnect _ _⟩

theorem checkLoginTimeouts_quiet (p : PacketProcessor) (traversal : Traversal SessionId)
    (now : Time) : (p.checkLoginTimeouts traversal now).rooms = p.rooms ∧
      Network.Emits p.network [] (p.checkLoginTimeouts traversal now).network := by
  unfold checkLoginTimeouts
  generalize traversal.order p.loginDeadlines.keys = sessions
  induction sessions generalizing p with
  | nil => exact ⟨rfl, Network.Emits.refl _⟩
  | cons s sessions ih =>
    obtain ⟨hrooms, hemits⟩ := checkLoginTimeout_quiet now p s
    obtain ⟨hrooms', hemits'⟩ := ih (checkLoginTimeout now p s)
    exact ⟨hrooms'.trans hrooms, hemits.trans hemits'⟩

theorem checkLoginTimeouts_twice (p : PacketProcessor) (first second : Traversal SessionId × Time) :
    ((p.checkLoginTimeouts first.1 first.2).checkLoginTimeouts second.1 second.2).rooms = p.rooms ∧
      Network.Emits p.network []
        ((p.checkLoginTimeouts first.1 first.2).checkLoginTimeouts second.1 second.2).network := by
  obtain ⟨hrooms, hemits⟩ := checkLoginTimeouts_quiet p first.1 first.2
  obtain ⟨hrooms', hemits'⟩ :=
    checkLoginTimeouts_quiet (p.checkLoginTimeouts first.1 first.2) second.1 second.2
  exact ⟨hrooms'.trans hrooms, hemits.trans hemits'⟩

theorem endUpdate_deed (hok : p.rooms.Ok) (first second : Traversal SessionId × Time)
    (traversal : Traversal RoomId) (now : Time) :
    ∃ p' packets, p.endUpdate host first second traversal now = .ok p' ∧
      Deed host asked p.rooms packets p'.rooms ∧ Network.Emits p.network packets p'.network ∧
        p'.rooms.finishedGames = [] ∧ Notifies packets := by
  obtain ⟨hrooms, hemits⟩ := checkLoginTimeouts_twice p first second
  obtain ⟨p', packets, e, hdeed, hnetwork, hleft⟩ :=
    sweepRooms_deed host asked _ (hrooms ▸ hok) traversal now
  refine ⟨p', packets, e, hrooms ▸ hdeed, ?_, hleft⟩
  rw [hnetwork]
  exact hemits.trans (Network.emits_deliver host packets _)

/-- `event` is a request of a session that is connected and has logged in in time, or still can. -/
structure Asked (loginNow : Time) (event : NetworkEvent) : Prop where
  packet : event.type = .packet
  connected : event.session ∈ p.network.connected
  inTime : p.isLoginExpired event.session loginNow = false

theorem handleEvent_deed (hok : p.rooms.Ok) (event : NetworkEvent) (loginNow gameNow : Time) :
    ∃ p' packets, p.handleEvent host event loginNow gameNow = .ok p' ∧
      Deed host (fun e => e = event ∧ p.Asked loginNow e) p.rooms packets p'.rooms ∧
        Network.Emits p.network packets p'.network := by
  unfold handleEvent
  cases htype : event.type with
  | connected =>
    refine ⟨_, [], rfl, ?_⟩
    unfold handleConnected
    split
    · exact ⟨.quiet (by simp), Network.Emits.refl _⟩
    · exact ⟨.quiet (by simp), Network.Emits.refl _⟩
  | disconnected =>
    obtain ⟨p', packets, e, hdeed, hnetwork, -⟩ :=
      handleDisconnected_deed host _ p hok event.session gameNow
    exact ⟨p', packets, e, hdeed, hnetwork ▸ Network.emits_deliver host packets _⟩
  | packet =>
    dsimp only
    split
    · exact ⟨p, [], rfl, .quiet (by simp), Network.Emits.refl _⟩
    rename_i hconnected
    split
    · exact ⟨_, [], rfl, .quiet (by simp), Network.emits_disconnect _ _⟩
    rename_i hlogin
    obtain ⟨p', e, hresponds⟩ : ∃ p', processPacket host p event gameNow = .ok p' ∧
        Responds host p event p' := processPacket_responds hok gameNow
    cases hresponds with
    | dropped _ hrooms hnetwork =>
      refine ⟨p', [], e, ?_, hnetwork ▸ Network.emits_disconnect _ _⟩
      rw [hrooms]
      exact .quiet (by simp)
    | handled _ _ h hnetwork =>
      have hasked : p.Asked loginNow event :=
        ⟨htype, by simpa [Network.isConnected] using hconnected, by simpa using hlogin⟩
      exact ⟨p', _, e, .handled ⟨rfl, hasked⟩ h, hnetwork ▸ Network.emits_deliver host _ _⟩
    | chatted _ _ hrooms hnetwork hother =>
      refine ⟨p', _, e, ?_, hnetwork ▸ Network.emits_deliver host _ _⟩
      rw [hrooms]
      exact .quiet hother

end PacketProcessor

/-! ## The rooms after a deed -/

theorem RoomManager.depart_keys (m : RoomManager) (s : SessionId) (u : User) (room : Room)
    {s' : SessionId} {u' : User} (h : (m.depart s u room).users.users[s']? = some u') :
    s' = s ∨ m.users.users[s']? = some u' := by
  unfold depart at h
  dsimp only at h
  have hkey : ∀ users : Map SessionId User, (users.insert s u.returnToLobby)[s']? = some u' →
      s' = s ∨ users[s']? = some u' := by
    intro users h
    grind
  split at h
  · exact hkey _ h
  · exact hkey _ h

theorem RoomManager.foldl_expire_users (now : Time) (keys : List RoomId) :
    ∀ m : RoomManager, (keys.foldl (expire now) m).users = m.users := by
  induction keys with
  | nil => exact fun _ => rfl
  | cons key keys ih =>
    intro m
    refine (ih _).trans ?_
    unfold expire
    split
    · rfl
    split <;> rfl

/-- Only a login adds a user. -/
theorem Effect.users {wideChars : Bytes → Nat} {m m' : RoomManager} {l : Call} {a : Answer}
    (he : Effect wideChars m l a m') {s : SessionId} {u : User}
    (hu : m'.users.users[s]? = some u) :
    (∃ u', m.users.users[s]? = some u') ∨ ∃ nickname, l = .login s nickname := by
  have hinsert : ∀ (s' : SessionId) (u' u'' : User), m.users.users[s']? = some u'' →
      (m.users.users.insert s' u')[s]? = some u → ∃ u', m.users.users[s]? = some u' := by
    intro s' u' u'' hold h
    grind
  cases he with
  | refused => exact Or.inl ⟨u, hu⟩
  | @loggedIn s' nickname hnew hname hfree =>
    by_cases h : s' = s
    · exact Or.inr ⟨nickname, by rw [h]⟩
    · refine Or.inl ⟨u, ?_⟩
      simp only [UserManager.add] at hu
      grind
  | removed =>
    refine Or.inl ⟨u, ?_⟩
    simp only [UserManager.remove] at hu
    split at hu
    · exact hu
    · grind
  | created hidle => exact Or.inl (hinsert _ _ _ hidle.user hu)
  | entered hidle => exact Or.inl (hinsert _ _ _ hidle.user hu)
  | readied => exact Or.inl ⟨u, hu⟩
  | started => exact Or.inl ⟨u, hu⟩
  | moved =>
    refine Or.inl ⟨u, ?_⟩
    unfold RoomManager.moved at hu
    split at hu <;> exact hu
  | expired => exact Or.inl ⟨u, hu⟩
  | resigned => exact Or.inl ⟨u, hu⟩
  | @left s' u' room room1 m1 reason now hseat hreason hclosed =>
    have husers : m1.users = m.users := by cases hclosed <;> rfl
    rcases RoomManager.depart_keys _ _ _ _ hu with rfl | h
    · exact Or.inl ⟨u', hseat.user⟩
    · exact Or.inl ⟨u, husers ▸ h⟩
  | swept => exact Or.inl ⟨u, RoomManager.foldl_expire_users _ _ m ▸ hu⟩
  | popped => exact Or.inl ⟨u, hu⟩

/-- Who has left a room is in the lobby. -/
theorem Effect.left_lobby {wideChars : Bytes → Nat} {m m' : RoomManager} {s : SessionId}
    {reason : GameEndReason} {now : Time} {u : User}
    (he : Effect wideChars m (.leaveRoom s reason now) (.room .success) m')
    (hu : m'.users.users[s]? = some u) : u.state = .lobby := by
  cases he with
  | refused ha => cases ha
  | expired _ ha => cases ha
  | left =>
    rw [RoomManager.depart_user] at hu
    exact Option.some.inj hu ▸ rfl

theorem Handled.ok {host : Host} {m m' : RoomManager} {event : NetworkEvent} {rid : UInt16}
    {packets : List SentPacket} (h : Handled host m event rid packets m') (hok : m.Ok)
    (hs : event.session ≠ 0) : m'.Ok := by
  cases h with
  | idle => exact hok
  | answered _ he hl hcaller =>
    refine he.ok hok ?_ (fun s' nickname e => hcaller s' nickname e ▸ hs) ?_
    · rintro rfl
      exact hl
    · rintro s' rfl
      exact hl.elim
  | created _ he => exact he.ok hok (by simp) (by simp) (by simp)
  | entered _ he => exact he.ok hok (by simp) (by simp) (by simp)
  | readied _ _ _ _ he => exact he.ok hok (by simp) (by simp) (by simp)
  | started _ _ _ _ he => exact he.ok hok (by simp) (by simp) (by simp)
  | moved _ he => exact he.ok hok (by simp) (by simp) (by simp)
  | left _ he =>
    exact (he.ok hok (by simp) (by simp) (by simp)).announced (List.append_nil _).symm
  | stayed => exact hok.announced (List.append_nil _).symm

/-- Only a login adds a user. -/
theorem Handled.users {host : Host} {m m' : RoomManager} {event : NetworkEvent} {rid : UInt16}
    {packets : List SentPacket} (h : Handled host m event rid packets m') {s' : SessionId} {u : User}
    (hu : m'.users.users[s']? = some u) :
    (∃ u', m.users.users[s']? = some u') ∨ s' = event.session := by
  have hother : ∀ {l : Call} {a : Answer} {m1 : RoomManager},
      Effect host.multiByteToWideChar m l a m1 → (∀ nickname, l ≠ .login s' nickname) →
      m1.users.users[s']? = some u →
        (∃ u', m.users.users[s']? = some u') ∨ s' = event.session := by
    intro l a m1 he hl hu
    rcases he.users hu with h | ⟨nickname, h⟩
    · exact Or.inl h
    · exact absurd h (hl nickname)
  cases h with
  | idle => exact Or.inl ⟨u, hu⟩
  | answered _ he _ hcaller =>
    rcases he.users hu with h | ⟨nickname, h⟩
    · exact Or.inl h
    · exact Or.inr (hcaller s' nickname h)
  | created _ he => exact hother he (by simp) hu
  | entered _ he => exact hother he (by simp) hu
  | readied _ _ _ _ he => exact hother he (by simp) hu
  | started _ _ _ _ he => exact hother he (by simp) hu
  | moved _ he => exact hother he (by simp) hu
  | left _ he => exact hother he (by simp) hu
  | stayed => exact Or.inl ⟨u, hu⟩

theorem Deed.ok {host : Host} {asked : NetworkEvent → Prop} {m m' : RoomManager}
    {packets : List SentPacket} (h : Deed host asked m packets m') (hok : m.Ok)
    (hids : ∀ event, asked event → event.session ≠ 0) : m'.Ok := by
  cases h with
  | quiet => exact hok
  | handled hasked h => exact h.ok hok (hids _ hasked)
  | forgotten hidle =>
    exact (PacketProcessor.removed_ok hok fun _ => hidle.lobby).announced (List.append_nil _).symm
  | gone he =>
    exact (PacketProcessor.removed_ok (he.ok hok (by simp) (by simp) (by simp))
      fun _ => he.left_lobby).announced (List.append_nil _).symm
  | swept he =>
    exact (he.ok hok (by simp) (by simp) (by simp)).announced (List.append_nil _).symm

/-- Who has a user record had one before or has asked for it. -/
theorem Deed.users {host : Host} {asked : NetworkEvent → Prop} {m m' : RoomManager}
    {packets : List SentPacket} (h : Deed host asked m packets m') {s : SessionId} {u : User}
    (hu : m'.users.users[s]? = some u) :
    (∃ u', m.users.users[s]? = some u') ∨ ∃ event, asked event ∧ event.session = s := by
  have hremove : ∀ {users : UserManager} {s' : SessionId},
      (users.remove s').users[s]? = some u → users.users[s]? = some u := by
    intro users s' h
    simp only [UserManager.remove] at h
    split at h
    · exact h
    · grind
  cases h with
  | quiet => exact Or.inl ⟨u, hu⟩
  | handled hasked h =>
    rcases h.users hu with h | h
    · exact Or.inl h
    · exact Or.inr ⟨_, hasked, h.symm⟩
  | forgotten => exact Or.inl ⟨u, hremove hu⟩
  | gone he =>
    rcases he.users (hremove hu) with h | ⟨nickname, h⟩
    · exact Or.inl h
    · cases h
  | swept he =>
    rcases he.users hu with h | ⟨nickname, h⟩
    · exact Or.inl h
    · cases h

/-! ## Steps -/

/-- What the sessions get of a step that sends `packets`: a connection that is still up gets its
own, and a new one has been sent nothing. -/
structure Served (n : Network) (packets : List SentPacket) (n' : Network) : Prop where
  last : n.lastSessionId ≤ n'.lastSessionId
  heard : ∀ s ∈ n'.connected,
    (s ∈ n.connected ∧ hears s n'.sent = hears s n.sent ++ hears s packets) ∨
      (n.lastSessionId < s ∧ s ≤ n'.lastSessionId ∧ packets = [] ∧ n'.sent = n.sent)
  sent : ∀ packet ∈ n'.sent, packet ∈ n.sent ∨ packet.session ∈ n.connected

theorem Network.Emits.served {n n' : Network} {packets : List SentPacket}
    (h : Network.Emits n packets n') : Served n packets n' where
  last := UInt64.le_of_eq h.last.symm
  heard s hs := by
    refine Or.inl ⟨h.connected hs, ?_⟩
    rw [hears, h.complete s hs, List.map_append, heard_append]
    rfl
  sent packet hpacket := by
    obtain ⟨new, e, hnew⟩ := h.sent
    rw [e] at hpacket
    rcases List.mem_append.mp hpacket with hpacket | hpacket
    · exact Or.inl hpacket
    · exact Or.inr (hnew packet hpacket).2

/-- Events that come and go send nothing. -/
theorem Served.events (n : Network) (events : List NetworkEvent) :
    Served n [] { n with events := events } where
  last := UInt64.le_refl _
  heard s hs := Or.inl ⟨hs, by rw [hears_nil, List.append_nil]⟩
  sent packet hpacket := Or.inl hpacket

theorem Served.accept (n : Network) (now : Time) : Served n [] (n.accept now) := by
  unfold Network.accept
  split
  · exact Served.events n n.events
  · rename_i hlast
    have hlt : n.lastSessionId < n.lastSessionId + 1 := by grind
    refine ⟨UInt64.le_of_lt hlt, fun s hs => ?_, fun packet hpacket => Or.inl hpacket⟩
    rcases Finset.mem_insert.mp hs with rfl | hs
    · exact Or.inr ⟨hlt, UInt64.le_refl _, rfl, rfl⟩
    · exact Or.inl ⟨hs, by rw [hears_nil, List.append_nil]⟩

/-- What holds of a server between any two steps. -/
structure Server.Sound (c : Server) : Prop where
  rooms : c.rooms.Ok
  connected : ∀ s ∈ c.network.connected, s ≠ 0 ∧ s ≤ c.network.lastSessionId
  users : ∀ s u, c.rooms.users.users[s]? = some u → s ≤ c.network.lastSessionId
  sent : ∀ packet ∈ c.network.sent, packet.session ≤ c.network.lastSessionId
  /-- Every result has been announced when `Update` returns. -/
  idle : c.updating = false → c.rooms.finishedGames = []

/-- The input `l` makes `c` handle the request `event`. -/
def Server.Asked (c : Server) (l : Input) (event : NetworkEvent) : Prop :=
  ∃ loginNow gameNow network, l = .event loginNow gameNow ∧
    c.network.tryPopEvent = some (event, network) ∧ c.processor.Asked loginNow event

theorem Server.Asked.connected {c : Server} {l : Input} {event : NetworkEvent}
    (h : c.Asked l event) : event.session ∈ c.network.connected := by
  obtain ⟨_, _, _, _, _, hasked⟩ := h
  exact hasked.connected

theorem Server.Sound.asked_id {c : Server} (hc : c.Sound) {l : Input} (event : NetworkEvent)
    (h : c.Asked l event) : event.session ≠ 0 :=
  (hc.connected _ h.connected).1

/-- No step of a sound server throws. -/
theorem Server.Sound.step_returns {host : Host} {c : Server} (hc : c.Sound) {l : Input}
    {r : Except LogicError Server} (h : c.step host l = some r) :
    ∃ c' packets, r = .ok c' ∧ Deed host (c.Asked l) c.rooms packets c'.rooms ∧
      Served c.network packets c'.network ∧ (c'.updating = false → c'.rooms.finishedGames = []) := by
  cases l with
  | accept now =>
    obtain rfl := Option.some.inj h
    exact ⟨_, [], rfl, .quiet (by simp), .accept _ now, hc.idle⟩
  | receive s packetId body =>
    obtain rfl := Option.some.inj h
    refine ⟨_, [], rfl, .quiet (by simp), ?_, hc.idle⟩
    show Served c.network [] (c.network.receive s packetId body)
    unfold Network.receive
    split
    · exact Served.events _ c.network.events
    · exact Served.events _ _
  | close s =>
    obtain rfl := Option.some.inj h
    exact ⟨_, [], rfl, .quiet (by simp), (Network.emits_disconnect _ s).served, hc.idle⟩
  | beginUpdate traversal now =>
    simp only [Server.step] at h
    split at h
    · cases h
    obtain ⟨p', packets, e, hdeed, hnetwork, hempty, -⟩ :=
      c.processor.sweepRooms_deed host _ hc.rooms traversal now
    rw [PacketProcessor.beginUpdate, e] at h
    obtain rfl := Option.some.inj h
    refine ⟨⟨p', true⟩, packets, rfl, hdeed, ?_, fun _ => hempty⟩
    show Served c.network packets p'.network
    rw [hnetwork]
    exact (Network.emits_deliver host packets _).served
  | event loginNow gameNow =>
    simp only [Server.step] at h
    split at h
    · cases h
    cases hpop : c.network.tryPopEvent with
    | none =>
      rw [hpop] at h
      cases h
    | some popped =>
      obtain ⟨event, network⟩ := popped
      obtain ⟨events, hnetwork⟩ : ∃ events, network = { c.network with events := events } := by
        unfold Network.tryPopEvent at hpop
        split at hpop
        · cases hpop
        · cases hpop
          exact ⟨_, rfl⟩
      subst hnetwork
      obtain ⟨p', packets, e, hdeed, hemits⟩ :=
        (c.withNetwork { c.network with events := events }).processor.handleEvent_deed host
          hc.rooms event loginNow gameNow
      simp only [hpop, e] at h
      obtain rfl := Option.some.inj h
      have hdeed' : Deed host (c.Asked (.event loginNow gameNow)) c.rooms packets p'.rooms := by
        refine hdeed.mono fun e he => ?_
        obtain ⟨rfl, hasked⟩ := he
        exact ⟨loginNow, gameNow, _, rfl, hpop, hasked.packet, hasked.connected, hasked.inTime⟩
      refine ⟨⟨p', true⟩, packets, rfl, hdeed', ?_, by simp⟩
      obtain ⟨hlast, hheard, hsent⟩ := hemits.served
      exact ⟨hlast, hheard, hsent⟩
  | endUpdate first second traversal now =>
    simp only [Server.step] at h
    split at h
    · cases h
    obtain ⟨p', packets, e, hdeed, hemits, hempty, -⟩ :=
      c.processor.endUpdate_deed host _ hc.rooms first second traversal now
    rw [e] at h
    obtain rfl := Option.some.inj h
    exact ⟨⟨p', false⟩, packets, rfl, hdeed, hemits.served, fun _ => hempty⟩

/-! ## Runs -/

theorem ServerStep.deed {host : Host} {c c' : Server} {l : Input} (hc : c.Sound)
    (h : ServerStep host c l c') :
    ∃ packets, Deed host (c.Asked l) c.rooms packets c'.rooms ∧
      Served c.network packets c'.network := by
  obtain ⟨c1, packets, e, hdeed, hserved, -⟩ := hc.step_returns h
  cases e
  exact ⟨packets, hdeed, hserved⟩

theorem ServerStep.sound {host : Host} {c c' : Server} {l : Input} (hc : c.Sound)
    (h : ServerStep host c l c') : c'.Sound := by
  obtain ⟨c1, packets, e, hdeed, hserved, hidle⟩ := hc.step_returns h
  cases e
  refine ⟨hdeed.ok hc.rooms hc.asked_id, fun s hs => ?_, fun s u hu => ?_,
    fun packet hpacket => ?_, hidle⟩
  · -- a connection is kept, or has the next id
    rcases hserved.heard s hs with ⟨hs, -⟩ | ⟨hlt, hle, -⟩
    · exact ⟨(hc.connected s hs).1, UInt64.le_trans (hc.connected s hs).2 hserved.last⟩
    · refine ⟨?_, hle⟩
      rintro rfl
      exact absurd hlt UInt64.not_lt_zero
  · rcases hdeed.users hu with ⟨u', hu'⟩ | ⟨event, hasked, rfl⟩
    · exact UInt64.le_trans (hc.users s u' hu') hserved.last
    · exact UInt64.le_trans (hc.connected _ hasked.connected).2 hserved.last
  · rcases hserved.sent packet hpacket with hsent | hs
    · exact UInt64.le_trans (hc.sent packet hsent) hserved.last
    · exact UInt64.le_trans (hc.connected _ hs).2 hserved.last

/-- The only processor that is made for `timeout`. -/
theorem PacketProcessor.make_ok {timeout : Time} {p : PacketProcessor}
    (hp : make {} timeout = .ok p) :
    ∃ h, p = { network := {}, rooms := .fresh, loginTimeout := ⟨timeout, h⟩ } := by
  rw [make, RoomManager.make_fresh] at hp
  by_cases h : 0 < timeout
  · simp only [h, dite_true] at hp
    exact ⟨h, (Except.ok.inj hp).symm⟩
  · simp only [h, dite_false] at hp
    cases hp

theorem PacketProcessor.make_eq {timeout : Time} {p : PacketProcessor}
    (hp : make {} timeout = .ok p) : RoomManager.make {} {} = .ok p.rooms ∧ p.network = {} := by
  obtain ⟨h, rfl⟩ := make_ok hp
  exact ⟨rfl, rfl⟩

/-- Nobody is connected at first. -/
theorem PacketProcessor.make_unconnected {timeout : Time} {p : PacketProcessor}
    (hp : make {} timeout = .ok p) (s : SessionId) : s ∉ p.network.connected := by
  rw [(make_eq hp).2]
  simp

theorem Server.sound_make {timeout : Time} {p : PacketProcessor}
    (hp : PacketProcessor.make {} timeout = .ok p) : ({ processor := p } : Server).Sound := by
  obtain ⟨hrooms, hnetwork⟩ := PacketProcessor.make_eq hp
  obtain ⟨hb, hqueue⟩ := RoomManager.make_books hrooms
  refine ⟨⟨make_wellFormed hrooms, ⟨[], ?_⟩, ?_⟩, ?_, ?_, ?_, fun _ => hqueue⟩
  · show p.rooms.Books ([] ++ p.rooms.finishedGames)
    rw [hqueue]
    exact hb
  · show ∀ f ∈ p.rooms.finishedGames, f.Valid
    simp [hqueue]
  · show ∀ s ∈ p.network.connected, _
    simp [hnetwork]
  · intro s u hu
    have husers : p.rooms = RoomManager.fresh :=
      Except.ok.inj (hrooms.symm.trans RoomManager.make_fresh)
    have hu' : p.rooms.users.users[s]? = some u := hu
    simp [husers, RoomManager.fresh] at hu'
  · show ∀ packet ∈ p.network.sent, _
    simp [hnetwork]

/-- Every server reached from a construction is sound. -/
theorem ServerRun.sound {host : Host} {timeout : Time} {p : PacketProcessor}
    (hp : PacketProcessor.make {} timeout = .ok p) {history : List (Entry Server Input)}
    {c : Server} (h : ServerRun host p history c) : c.Sound :=
  Run.invariant (P := Server.Sound) (Server.sound_make hp) (fun _ _ _ hc step => step.sound hc) h

/-! ## Runs of given inputs -/

/-- The server after an input that can come. -/
def Server.next (host : Host) (c : Server) (l : Input) : Option Server :=
  match c.step host l with
  | some (.ok c') => some c'
  | _ => none

theorem Server.step_of_next {host : Host} {c c' : Server} {l : Input}
    (h : c.next host l = some c') : c.step host l = some (.ok c') := by
  unfold next at h
  split at h
  · rename_i hstep
    exact Option.some.inj h ▸ hstep
  · cases h

/-- A run of `inputs` that ends as `check` says. -/
theorem ServerRun.played (host : Host) (p : PacketProcessor) (inputs : List Input)
    (check : List (Entry Server Input) → Server → Bool)
    (h : (play (Server.next host) { processor := p } inputs).any (fun r => check r.1 r.2) = true) :
    ∃ history c, ServerRun host p history c ∧ check history c = true :=
  Run.played (fun _ _ _ => Server.step_of_next) h

/-- The processor as the server creates it, with a login timeout of 10 ticks of the clock. -/
def PacketProcessor.fresh : PacketProcessor :=
  { network := {}, rooms := .fresh, loginTimeout := ⟨10, by decide⟩ }

theorem PacketProcessor.make_fresh : make {} 10 = .ok fresh := rfl

/-- A host whose sessions take every packet, and whose text is ASCII. -/
def Host.ascii : Host where
  multiByteToWideChar bytes := if bytes.all (· < 128) then bytes.length else 0
  accepts _ _ := true

/-- A request that arrives and is handled. -/
def Input.request (s : SessionId) (packetId : UInt16) (body : Bytes) : List Input :=
  [.receive s packetId body, .event 0 0]

/-- Two sessions connect and log in, the first opens a room and the second enters it. -/
def pairedInputs : List Input :=
  [.accept 0, .accept 0, .beginUpdate .ascending 0, .event 0 0, .event 0 0] ++
    Input.request 1 loginReq [97] ++ Input.request 2 loginReq [98] ++
      Input.request 1 roomCreateReq ((RoomCreateRequest.encode ⟨[114]⟩).getD []) ++
        Input.request 2 roomEnterReq ((RoomEnterRequest.encode ⟨1⟩).getD [])

/-- The second says that it is ready. -/
def readyInputs : List Input :=
  Input.request 2 roomReadyReq ((RoomReadyRequest.encode ⟨true⟩).getD [])

/-- The second is ready and the first starts the game. -/
def playingInputs : List Input := pairedInputs ++ readyInputs ++ Input.request 1 roomStartReq []

/-- The first resigns that game. -/
def resignedInputs : List Input :=
  playingInputs ++ Input.request 1 gameResignReq ((GameResignRequest.encode ⟨1, 1⟩).getD [])

/-- `Update` returns. -/
def Input.finish : Input := .endUpdate (.ascending, 0) (.ascending, 0) .ascending 0

end SelectServer
