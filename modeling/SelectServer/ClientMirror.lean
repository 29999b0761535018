import SelectServer.RoomActs

/- The client's picture of the game against the server's. While a game is on, the
   view of each of its players who is still connected shows it exactly
   (`view_mirrors`), whatever the view went through before: results of earlier
   games do not match it any more, and a room or a game that is new resets it. -/
namespace SelectServer
open Wire (Bytes)
open Histories Traces

/-- The view shows the game that is on in `room`. -/
structure Mirrors (v : ClientGameView) (room : Room) : Prop where
  roomId : v.roomId = room.id
  game : v.game = room.gameId
  roomPlaying : v.roomPlaying = true
  state : v.state = .playing
  nextTurn : v.nextTurn = room.game.nextTurn
  moveCount : v.moveCount.toNat = room.game.moveCount
  cells : v.cells = room.game.board

/-- The view of `s` shows the game that `s` plays, and no game that is yet to come. -/
structure UpToDate (s : SessionId) (m : RoomManager) (v : ClientGameView) : Prop where
  game : v.game ≤ m.lastGameId
  mirrors : ∀ r room, m.On r room → s ∈ room.members → Mirrors v room

/-! ## The view on a notice -/

/-- The view after a stone that `room` took. -/
def ClientGameView.placed (v : ClientGameView) (stone : GameStone) (x y : Int) (g : OmokGame) :
    ClientGameView :=
  { v with
    cells := v.cells.put x y stone
    state := g.status
    nextTurn := g.nextTurn
    moveCount := UInt32.ofNat g.moveCount }

/-- A stone of the game that is shown is put where the server put it. -/
theorem Mirrors.onGameMove {v : ClientGameView} {room : Room} (h : Mirrors v room)
    (hs : room.game.Sound) {stone : GameStone} {x y : Int} (hacc : room.game.Accepts stone x y) :
    v.onGameMove (PacketProcessor.gameMove (RoomManager.acceptedMove room stone x y
      (room.game.tryPlaceStone stone x y).2)) =
      some (v.placed stone x y (room.game.tryPlaceStone stone x y).2) := by
  obtain ⟨-, hcount, -⟩ := hs.outcome hacc
  obtain ⟨hx0, hx, hy0, hy⟩ := isInside_iff.mp hacc.inside
  have hx' : (((UInt8.ofInt x).toNat : Nat) : Int) = x := by
    rw [byte_toNat hx0 hx]
    omega
  have hy' : (((UInt8.ofInt y).toNat : Nat) : Int) = y := by
    rw [byte_toNat hy0 hy]
    omega
  have hnext : UInt32.ofNat (room.game.tryPlaceStone stone x y).2.moveCount = v.moveCount + 1 := by
    rw [hcount, ← h.moveCount, UInt32.ofNat_add, UInt32.ofNat_toNat]
    rfl
  have hvacant : v.cells.cell x y = .empty := by
    rw [h.cells]
    exact hacc.vacant
  unfold ClientGameView.onGameMove ClientGameView.apply
  simp only [PacketProcessor.gameMove, RoomManager.acceptedMove, toPacketStone_eq, toPacketState_eq]
  rw [if_neg (by simp [h.roomId, h.game]), if_neg, hx', hy']
  · rfl
  · simp only [not_or]
    refine ⟨by simp [h.roomPlaying], by simp [h.state], by simp [h.roomId], ?_, ?_, by simp [hnext],
      by simp [h.nextTurn, hacc.turn], by simp [hx', hy', hvacant], by simp [h.game]⟩
    · show ¬ (UInt8.ofInt x).toNat ≥ 15
      omega
    · show ¬ (UInt8.ofInt y).toNat ≥ 15
      omega

/-- A new game is begun. -/
theorem ClientGameView.onRoomState_new {v : ClientGameView} {n : RoomStateNotification}
    (hphase : n.phase = .playing) (hnew : v.game ≠ n.game) :
    v.onRoomState n = some (v.begin n.roomId n.game) := by
  simp [onRoomState, hphase, hnew]

/-- The state of the game that is shown changes nothing. -/
theorem Mirrors.onRoomState {v : ClientGameView} {room : Room} (h : Mirrors v room)
    {n : RoomStateNotification} (hid : n.roomId = room.id) (hgame : n.game = room.gameId)
    (hphase : n.phase = .playing) : v.onRoomState n = some v := by
  simp [ClientGameView.onRoomState, hphase, hid, hgame, h.roomId, h.game, h.roomPlaying]

/-- A room that waits leaves its game in the view, over. -/
theorem ClientGameView.onRoomState_waiting (v : ClientGameView) {n : RoomStateNotification}
    (hphase : n.phase = .waiting) :
    ∃ v', v.onRoomState n = some v' ∧ v'.roomId = n.roomId ∧ v'.game = n.game ∧
      v'.roomPlaying = false := by
  have hwait : ¬ n.phase = .playing := by simp [hphase]
  unfold onRoomState
  simp only [hwait, not_false_iff, if_true]
  split
  · rename_i h
    exact ⟨_, rfl, h.1.1, h.1.2, rfl⟩
  · exact ⟨_, rfl, rfl, rfl, rfl⟩

/-- A result changes neither the room nor the game that is shown. -/
theorem ClientGameView.onGameEnd_fields {v v' : ClientGameView} {n : GameEndNotification}
    (h : v.onGameEnd n = some v') : v'.roomId = v.roomId ∧ v'.game = v.game := by
  unfold onGameEnd at h
  split at h
  · cases h
    exact ⟨rfl, rfl⟩
  split at h
  · cases h
  · cases h
    exact ⟨rfl, rfl⟩

/-- The result of another game is passed over. -/
theorem ClientGameView.onGameEnd_other {v : ClientGameView} {n : GameEndNotification}
    (h : n.game ≠ v.game) : v.onGameEnd n = some v := by
  simp [onGameEnd, h]

theorem hear_nil {v v' : ClientGameView} (h : hear v [] = some v') : v' = v :=
  (Option.some.inj h).symm

theorem hear_single (v : ClientGameView) (notice : Notice) : hear v [notice] = v.onNotice notice := by
  show (v.onNotice notice).bind some = v.onNotice notice
  exact Option.bind_fun_some _

/-! ## The rooms a session plays in -/

namespace RoomManager
variable {m : RoomManager} {s : SessionId}

/-- A session plays in one room. -/
theorem WellFormed.on_same (h : m.WellFormed) {r r' : RoomId} {room room' : Room} (hon : m.On r room)
    (hs : s ∈ room.members) (hr : m.rooms[r']? = some room') (hs' : s ∈ room'.members) :
    r' = r ∧ room' = room := by
  obtain rfl := h.room_unique s _ _ _ _ hr hs' hon.1 hs
  exact ⟨rfl, Option.some.inj (hr.symm.trans hon.1)⟩

/-- The games on after a stone: the others, and this one if it goes on. -/
theorem on_after_stone {room : Room} {g : OmokGame} {now : Time} (hon : m.On room.id room)
    {r : RoomId} {room' : Room} (h : (m.moved room g now).On r room') :
    (m.On r room' ∧ r ≠ room.id) ∨
      (r = room.id ∧ room' = room.moved g now ∧ g.status = .playing) := by
  obtain ⟨-, hid, -, hphase⟩ := Room.moved_fields room g now
  unfold RoomManager.moved at h
  split at h
  · rename_i hgo
    rcases (on_moved (hphase.trans hon.2) r room').mp h with h | ⟨hr, hroom⟩
    · exact Or.inl h
    · exact Or.inr ⟨hr, hroom, hgo⟩
  · exact Or.inl (hid ▸ (on_settle _ _ _).mp h)

theorem moved_last (m : RoomManager) (room : Room) (g : OmokGame) (now : Time) :
    (m.moved room g now).lastGameId = m.lastGameId := by
  unfold RoomManager.moved
  split <;> rfl

end RoomManager

theorem Room.moved_members (room : Room) (g : OmokGame) (now : Time) :
    (room.moved g now).members = room.members := by
  unfold Room.moved
  split <;> rfl

/-! ## One act -/

theorem Mirrors.placed {v : ClientGameView} {room : Room} (h : Mirrors v room) {stone : GameStone}
    {x y : Int} {now : Time} (hs : room.game.Sound) (hacc : room.game.Accepts stone x y)
    (hgo : (room.game.tryPlaceStone stone x y).2.status = .playing) :
    Mirrors (v.placed stone x y (room.game.tryPlaceStone stone x y).2)
      (room.moved (room.game.tryPlaceStone stone x y).2 now) := by
  obtain ⟨hgame, hid, hnum, -⟩ := Room.moved_fields room (room.game.tryPlaceStone stone x y).2 now
  obtain ⟨hboard, hcount, -⟩ := hs.outcome hacc
  have hlt := (hs.open_board hacc.playing).2.2
  refine ⟨h.roomId.trans hid.symm, h.game.trans hnum.symm, h.roomPlaying, hgo, ?_, ?_, ?_⟩
  · rw [hgame]
    rfl
  · rw [hgame]
    exact UInt32.toNat_ofNat_of_lt' (by simp only [UInt32.size]; omega)
  · show v.cells.put x y stone = _
    rw [hgame, hboard, h.cells]

section Acts
variable {D : Policy} {s : SessionId} {m m' : RoomManager} {notices : List Notice}
  {v v' : ClientGameView}

theorem UpToDate.of_quiet (hv : UpToDate s m v) (hquiet : m.Quiet m') : UpToDate s m' v where
  game := by
    rw [hquiet.last]
    exact hv.game
  mirrors r room hon hs := hv.mirrors r room ((hquiet.on r room).mp hon) hs

/-- A view that has followed the session so far follows it through one more act. -/
theorem Act.keeps_view (hok : m.Ok) (h : Act D s m notices m') (hv : UpToDate s m v)
    (e : hear v notices = some v') : UpToDate s m' v' := by
  cases h with
  | quiet hquiet =>
    obtain rfl := hear_nil e
    exact hv.of_quiet hquiet
  | conceded hon =>
    -- nothing is promised of a game that is over
    obtain rfl := hear_nil e
    refine ⟨hv.game, fun r room hon' hs => ?_⟩
    exact hv.mirrors r room ((RoomManager.on_settle _ _ _).mp hon').1 hs
  | @started room now _ hr hwait hlast _ hok' hheard =>
    have hlt : m.lastGameId < m.lastGameId + 1 := by grind
    have hnew : m.lastGameId + 1 ≠ v.game := by
      have := hv.game
      grind
    have hon' : ∀ r room', (m.started room now).On r room' ↔ _ := RoomManager.on_started hr hwait
    have hroom' : (m.started room now).On room.id _ := RoomManager.started_on hr hwait
    cases hheard with
    | away haway =>
      obtain rfl := hear_nil e
      refine ⟨UInt32.le_of_lt (UInt32.lt_of_le_of_lt hv.game hlt), fun r room' hon hs => ?_⟩
      rcases (hon' r room').mp hon with hold | ⟨rfl, rfl⟩
      · exact hv.mirrors r room' hold hs
      · exact absurd hs (haway _ hon.1)
    | @member room1 n hr1 hs hid hgame hphase =>
      -- the game that starts is shown from its first state on
      obtain rfl := Option.some.inj (hroom'.1.symm.trans hr1)
      have hbegin := ClientGameView.onRoomState_new (v := v) (n := n) hphase
        (by rw [hgame]; exact hnew.symm)
      rw [hear_single] at e
      obtain rfl := Option.some.inj (hbegin.symm.trans e)
      refine ⟨?_, fun r room' hon hs' => ?_⟩
      · show n.game ≤ m.lastGameId + 1
        rw [hgame]
        exact UInt32.le_refl _
      · obtain ⟨-, rfl⟩ := hok'.wellFormed.on_same hroom' hs hon.1 hs'
        exact ⟨hid, hgame, rfl, rfl, rfl, rfl, rfl⟩
  | @moved room stone x y now hon hacc =>
    have hsound := (hok.wellFormed.room hon.1).sound
    by_cases hs : s ∈ room.members
    · rw [if_pos hs, hear_single] at e
      have hmirror := hv.mirrors _ _ hon hs
      obtain rfl := Option.some.inj ((hmirror.onGameMove hsound hacc).symm.trans e)
      refine ⟨?_, fun r room' hon' hs' => ?_⟩
      · rw [RoomManager.moved_last]
        exact hv.game
      · rcases RoomManager.on_after_stone hon hon' with ⟨hold, hne⟩ | ⟨rfl, rfl, hgo⟩
        · exact absurd (hok.wellFormed.on_same hon hs hold.1 hs').1 hne
        · exact hmirror.placed hsound hacc hgo
    · -- a stone in another room
      rw [if_neg hs] at e
      obtain rfl := hear_nil e
      refine ⟨?_, fun r room' hon' hs' => ?_⟩
      · rw [RoomManager.moved_last]
        exact hv.game
      · rcases RoomManager.on_after_stone hon hon' with ⟨hold, -⟩ | ⟨rfl, rfl, -⟩
        · exact hv.mirrors r room' hold hs'
        · rw [Room.moved_members] at hs'
          exact absurd hs' hs
  | state _ hheard =>
    cases hheard with
    | away =>
      obtain rfl := hear_nil e
      exact hv
    | @member room n hr hs hid hgame hphase =>
      rw [hear_single] at e
      cases hp : room.phase with
      | waiting =>
        -- the only room of `s` waits, so `s` plays nowhere
        obtain ⟨v1, e1, -, hgame1, -⟩ := v.onRoomState_waiting (hphase.trans hp)
        obtain rfl := Option.some.inj (e1.symm.trans e)
        refine ⟨?_, fun r' room' hon hs' => ?_⟩
        · rw [hgame1, hgame]
          exact (hok.wellFormed.room hr).issued
        · obtain ⟨-, rfl⟩ := hok.wellFormed.on_same hon hs' hr hs
          rw [hon.2] at hp
          cases hp
      | playing =>
        have hroom := (hok.wellFormed.stored hr).1
        have hsame := (hv.mirrors _ _ ⟨hr, hp⟩ hs).onRoomState (hid.trans hroom.symm) hgame
          (hphase.trans hp)
        obtain rfl := Option.some.inj (hsame.symm.trans e)
        exact hv
  | @announced f rest hq =>
    by_cases hs : s ∈ f.targets
    · rw [if_pos hs, hear_single] at e
      refine ⟨?_, fun r room hon hs' => ?_⟩
      · rw [(ClientGameView.onGameEnd_fields e).2]
        exact hv.game
      · -- the game that is over is not the one that `s` plays now
        have hmirror := hv.mirrors r room hon hs'
        have hover : f.game ≠ room.gameId := hok.over (by simp [hq]) hon
        have hother := ClientGameView.onGameEnd_other (v := v) (n := PacketProcessor.gameEnd f)
          (by rw [hmirror.game]; exact hover)
        obtain rfl := Option.some.inj (hother.symm.trans e)
        exact hmirror
    · rw [if_neg hs] at e
      obtain rfl := hear_nil e
      exact ⟨hv.game, hv.mirrors⟩
  | left hq hgone =>
    rw [hear_single] at e
    obtain rfl := Option.some.inj e
    refine ⟨?_, fun r room hon hs => absurd hs (hgone r room hon.1)⟩
    show (0 : UInt32) ≤ m.lastGameId
    exact UInt32.zero_le

theorem Acts.keeps_view (h : Acts D s m notices m') (hv : UpToDate s m v)
    (e : hear v notices = some v') : UpToDate s m' v' :=
  Trace.keeps (fun _ _ _ _ _ hact e hv => hact.2.keeps_view hact.1 hv e) h e hv

end Acts

/-! ## Runs -/

/-- What a step is to a session that is connected after it: more packets, or a new connection, with
a new id, which has been sent nothing and is in no room. -/
theorem ServerStep.session {host : Host} {c c' : Server} {l : Input} (hc : c.Sound)
    (h : ServerStep host c l c') :
    ∃ packets, Deed host (c.Asked l) c.rooms packets c'.rooms ∧ ∀ s ∈ c'.network.connected,
      (s ∈ c.network.connected ∧ hears s c'.network.sent = hears s c.network.sent ++ hears s packets) ∨
        (c.network.lastSessionId < s ∧ hears s c'.network.sent = [] ∧
          ∀ (r : RoomId) (room : Room), c'.rooms.rooms[r]? = some room → s ∉ room.members) := by
  obtain ⟨packets, hdeed, hserved⟩ := h.deed hc
  refine ⟨packets, hdeed, fun s hs => ?_⟩
  rcases hserved.heard s hs with hold | ⟨hlt, -, -, hsent⟩
  · exact Or.inl hold
  · have hnew : ¬ s ≤ c.network.lastSessionId := UInt64.not_le.mpr hlt
    refine Or.inr ⟨hlt, ?_, fun r room hr hmem => ?_⟩
    · have hnone : toSession s c'.network.sent = [] := by
        rw [hsent, toSession, List.filter_eq_nil_iff]
        intro packet hpacket e
        exact hnew (decide_eq_true_eq.mp e ▸ hc.sent packet hpacket)
      rw [hears, hnone]
      rfl
    · obtain ⟨u, hu, -⟩ := (h.sound hc).rooms.wellFormed.member hr s hmem
      rcases hdeed.users hu with ⟨u', hu'⟩ | ⟨event, hasked, rfl⟩
      · exact hnew (hc.users s u' hu')
      · exact hnew (hc.connected _ hasked.connected).2

theorem ServerRun.upToDate {host : Host} {timeout : Time} {p : PacketProcessor}
    (hmake : PacketProcessor.make {} timeout = .ok p) {history : List (Entry Server Input)}
    {c : Server} (hrun : ServerRun host p history c) :
    ∀ s ∈ c.network.connected, ∀ v, hear {} (hears s c.network.sent) = some v →
      UpToDate s c.rooms v := by
  induction hrun with
  | start =>
    intro s hs
    exact absurd hs (PacketProcessor.make_unconnected hmake s)
  | @snoc before c c' l hbefore taken ih =>
    intro s hs v hv
    have hc := ServerRun.sound hmake hbefore
    obtain ⟨packets, hdeed, hsession⟩ := ServerStep.session hc taken
    rcases hsession s hs with ⟨hs, hmore⟩ | ⟨-, hnone, hgone⟩
    · rw [hmore] at hv
      obtain ⟨mid, hmid, hv⟩ := hear_append_some hv
      have hacts := hdeed.acts hc.rooms hc.asked_id (Permits.all host _ c.rooms) s
      exact hacts.keeps_view (ih s hs mid hmid) hv
    · rw [hnone] at hv
      obtain rfl := hear_nil hv
      exact ⟨UInt32.zero_le, fun r room hon hmem => absurd hmem (hgone r room hon.1)⟩

/-- After every step of every run, the view of a connected player shows the game that is on in its
room, if `ProcessResponse` has accepted every packet the server sent to it. -/
theorem view_mirrors {host : Host} {timeout : Time} {p : PacketProcessor}
    {history : List (Entry Server Input)} {c : Server} {s : SessionId} {r : RoomId} {room : Room}
    {v : ClientGameView} (hmake : PacketProcessor.make {} timeout = .ok p)
    (hrun : ServerRun host p history c) (hon : c.rooms.On r room) (hs : s ∈ room.members)
    (hconnected : s ∈ c.network.connected)
    (hv : watch {} ((toSession s c.network.sent).map SentPacket.packet) = some v) :
    v.roomId = r ∧ v.game = room.gameId ∧ v.roomPlaying = true ∧ v.state = .playing ∧
      v.nextTurn = room.game.nextTurn ∧ v.moveCount.toNat = room.game.moveCount ∧
        v.cells = room.game.board := by
  rw [watch_eq] at hv
  have hmirror := (hrun.upToDate hmake s hconnected v hv).mirrors r room hon hs
  have hid := (hrun.sound hmake).rooms.wellFormed.on_id hon
  exact ⟨hmirror.roomId.trans hid, hmirror.game, hmirror.roomPlaying, hmirror.state,
    hmirror.nextTurn, hmirror.moveCount, hmirror.cells⟩

/-- The view of `s` after all it has been sent, and the room `r`, if the game there is on. -/
def Server.viewOf (c : Server) (s : SessionId) (r : RoomId) : Option (ClientGameView × Room) := do
  let v ← watch {} ((toSession s c.network.sent).map SentPacket.packet)
  let room ← c.rooms.rooms[r]?
  if room.phase = .playing ∧ s ∈ room.members then some (v, room) else none

theorem Server.viewOf_some {c : Server} {s : SessionId} {r : RoomId} {v : ClientGameView} {room : Room}
    (h : c.viewOf s r = some (v, room)) :
    watch {} ((toSession s c.network.sent).map SentPacket.packet) = some v ∧ c.rooms.On r room ∧
      s ∈ room.members := by
  obtain ⟨v', hv, h⟩ := Option.bind_eq_some_iff.mp h
  obtain ⟨room', hr, h⟩ := Option.bind_eq_some_iff.mp h
  split at h
  · rename_i hplaying
    obtain ⟨rfl, rfl⟩ := Prod.mk.inj (Option.some.inj h)
    exact ⟨hv, ⟨hr, hplaying.1⟩, hplaying.2⟩
  · cases h

/-- The host puts a stone in the middle. -/
def middleMove : Bytes := (GameMoveRequest.encode ⟨1, 1, 7, 7⟩).getD []

theorem view_mirrors_stone : ∃ history c v room,
    ServerRun Host.ascii PacketProcessor.fresh history c ∧ c.rooms.On 1 room ∧
      watch {} ((toSession 2 c.network.sent).map SentPacket.packet) = some v ∧
        v.moveCount.toNat = 1 ∧ v.cells = room.game.board := by
  obtain ⟨history, c, hrun, hcheck⟩ := ServerRun.played Host.ascii PacketProcessor.fresh
    (playingInputs ++ Input.request 1 gameMoveReq middleMove)
    (fun _ c => decide (2 ∈ c.network.connected) &&
      (c.viewOf 2 1).any fun (_, room) => room.game.moveCount = 1)
    (by decide +kernel)
  rw [Bool.and_eq_true, decide_eq_true_eq] at hcheck
  obtain ⟨⟨v, room⟩, hview, hcount⟩ := (Option.any_eq_true _ _).mp hcheck.2
  obtain ⟨hv, hon, hs⟩ := Server.viewOf_some hview
  obtain ⟨-, -, -, -, -, hmoves, hcells⟩ :=
    view_mirrors PacketProcessor.make_fresh hrun hon hs hcheck.1 hv
  exact ⟨history, c, v, room, hrun, hon, hv, hmoves.trans (decide_eq_true_eq.mp hcount), hcells⟩

/-- A player whose connection is gone, but whose `Disconnected` event is still queued, is not told of
the stone that its opponent puts. -/
theorem view_stale_disconnected : ∃ history c v room,
    ServerRun Host.ascii PacketProcessor.fresh history c ∧ c.rooms.On 1 room ∧ 2 ∈ room.members ∧
      watch {} ((toSession 2 c.network.sent).map SentPacket.packet) = some v ∧
        v.moveCount.toNat ≠ room.game.moveCount := by
  obtain ⟨history, c, hrun, hcheck⟩ := ServerRun.played Host.ascii PacketProcessor.fresh
    (playingInputs ++ [.receive 1 gameMoveReq middleMove, .close 2, .event 0 0])
    (fun _ c => (c.viewOf 2 1).any fun (v, room) =>
      decide (v.moveCount.toNat ≠ room.game.moveCount))
    (by decide +kernel)
  obtain ⟨⟨v, room⟩, hview, hcount⟩ := (Option.any_eq_true _ _).mp hcheck
  obtain ⟨hv, hon, hs⟩ := Server.viewOf_some hview
  exact ⟨history, c, v, room, hrun, hon, hs, hv, decide_eq_true_eq.mp hcount⟩

end SelectServer
