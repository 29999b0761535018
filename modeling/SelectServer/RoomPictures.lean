import SelectServer.QueuedResults

/- What the members of a room are to be shown of it (`projection`), and which
   rooms a call changes in this respect. A call changes the picture of at most the
   room it is about (`Call.Touches`); every other room that looks different
   afterwards has just had its game ended and has a result queued (`Queued`). -/
namespace SelectServer
open Wire (Bytes)

namespace RoomManager

/-- The nickname of a session, empty if it has no user. -/
def nameOf (m : RoomManager) (s : SessionId) : Bytes :=
  ((m.users.find s).map (·.nickname)).getD []

/-- What `ROOM_STATE_NTF` is to say of a room. -/
def projection (m : RoomManager) (room : Room) : RoomStateNotification :=
  { roomId := room.id
    game := room.gameId
    phase := room.phase
    capacity := room.capacity.toUInt8
    hostNickname := m.nameOf room.hostSession
    players := room.members.map fun s => { nickname := m.nameOf s, ready := room.isReady s } }

/-- Room `r` is in `m'` as its members last saw it in `m`. -/
def Unchanged (m m' : RoomManager) (r : RoomId) : Prop :=
  ∀ room', m'.rooms[r]? = some room' → ∃ room, m.rooms[r]? = some room ∧
    room.members = room'.members ∧ m.projection room = m'.projection room'

variable {m m' : RoomManager} {r : RoomId} {room : Room} {s : SessionId} {u : User}

/-! ## The notification is the projection -/

theorem WellFormed.roomState_eq (h : m.WellFormed) (hr : m.rooms[r]? = some room) :
    PacketProcessor.roomState m r room = some (m.projection room) := by
  have hname : ∀ s ∈ room.members, ∃ u, m.users.find s = some u ∧ u.roomId = r ∧
      u.nickname = m.nameOf s := by
    intro s hs
    obtain ⟨u, hu, -, hid⟩ := h.member hr s hs
    refine ⟨u, hu, hid, ?_⟩
    simp only [nameOf, UserManager.find, hu, Option.map_some, Option.getD_some]
  have hplayers : ∀ members : List SessionId, (∀ s ∈ members, s ∈ room.members) →
      (members.mapM fun member => do
        let user ← m.users.find member
        if user.roomId ≠ r then none
        else some ({ nickname := user.nickname, ready := room.isReady member } : RoomPlayerInfo)) =
        some (members.map fun s => { nickname := m.nameOf s, ready := room.isReady s }) := by
    intro members hmembers
    induction members with
    | nil => rfl
    | cons s members ih =>
      obtain ⟨u, hu, hid, hnick⟩ := hname s (hmembers s List.mem_cons_self)
      rw [List.mapM_cons, ih fun s' hs' => hmembers s' (List.mem_cons_of_mem _ hs')]
      simp [hu, hid, hnick]
  -- the host is a member, so its user is found as well
  have hseats := (h.room hr).seats
  obtain ⟨host, hhost, -, hnick⟩ := hname room.hostSession hseats.host_mem
  have hnonempty : room.members.isEmpty = false :=
    List.isEmpty_eq_false_iff.mpr (List.ne_nil_of_mem hseats.host_mem)
  have hall := hplayers room.members fun s hs => hs
  simp only [Option.bind_eq_bind] at hall
  simp only [PacketProcessor.roomState, hhost, hall, hnonempty, Option.bind_eq_bind,
    Option.bind_some, Bool.false_eq_true, if_false, hnick, projection, (h.stored hr).1]
  rfl

theorem WellFormed.projection_encodes (h : m.WellFormed) (hr : m.rooms[r]? = some room) :
    ∃ body, (m.projection room).encode = some body := by
  obtain ⟨notification, body, hstate, hbody, -⟩ := h.roomState_spec hr
  rw [h.roomState_eq hr] at hstate
  exact ⟨body, Option.some.inj hstate ▸ hbody⟩

/-! ## Rooms that look the same -/

theorem Unchanged.refl (m : RoomManager) (r : RoomId) : Unchanged m m r :=
  fun room hr => ⟨room, hr, rfl, rfl⟩

theorem Unchanged.trans {m1 : RoomManager} (h : Unchanged m m1 r) (h' : Unchanged m1 m' r) :
    Unchanged m m' r := by
  intro room' hr'
  obtain ⟨room1, hr1, hmembers1, hsame1⟩ := h' room' hr'
  obtain ⟨room, hr, hmembers, hsame⟩ := h room1 hr1
  exact ⟨room, hr, hmembers.trans hmembers1, hsame.trans hsame1⟩

theorem nameOf_congr (h : m'.users.users[s]? = m.users.users[s]?) : m'.nameOf s = m.nameOf s := by
  rw [nameOf, nameOf, UserManager.find, UserManager.find, h]

/-- The same record, and the same names for its members. -/
theorem WellFormed.unchanged (h : m.WellFormed) (hroom : m'.rooms[r]? = m.rooms[r]?)
    (hnames : ∀ room, m.rooms[r]? = some room → ∀ s ∈ room.members, m'.nameOf s = m.nameOf s) :
    Unchanged m m' r := by
  intro room hr
  rw [hroom] at hr
  refine ⟨room, hr, rfl, ?_⟩
  have hmembers : (room.members.map fun s =>
      ({ nickname := m'.nameOf s, ready := room.isReady s } : RoomPlayerInfo)) =
        room.members.map fun s => { nickname := m.nameOf s, ready := room.isReady s } :=
    List.map_congr_left fun s hs => by rw [hnames room hr s hs]
  have hhost := hnames room hr _ (h.room hr).seats.host_mem
  simp only [projection, hmembers, hhost]

theorem nameOf_update (user : User) (hu : m.users.users[s]? = some u)
    (hname : user.nickname = u.nickname) (s' : SessionId) :
    (m.updateUser s user).nameOf s' = m.nameOf s' := by
  by_cases hs : s' = s
  · subst hs
    simp [nameOf, updateUser, UserManager.update, UserManager.find, hu, hname]
  · refine nameOf_congr ?_
    simp only [updateUser, UserManager.update]
    grind

theorem nameOf_add {nickname : Bytes} (hu : m.users.users[s]? = some u) (s' : SessionId) :
    ({ m with users := m.users.add s' nickname } : RoomManager).nameOf s = m.nameOf s := by
  refine nameOf_congr ?_
  simp only [UserManager.add]
  grind

theorem nameOf_remove {s' : SessionId} (hne : s ≠ s') :
    ({ m with users := m.users.remove s' } : RoomManager).nameOf s = m.nameOf s := by
  refine nameOf_congr ?_
  simp only [UserManager.remove]
  split
  · rfl
  · grind

theorem queued_settle (m : RoomManager) (room : Room) (reason : GameEndReason) :
    (m.settle room reason).Queued room.id :=
  ⟨room.record reason, List.mem_append_right _ (List.mem_singleton_self _), rfl⟩

/-- The end of a game in one room: its result is queued, and no other room is changed. -/
theorem WellFormed.settle_pictures (h : m.WellFormed) (room : Room) (reason : GameEndReason)
    (r : RoomId) : Unchanged m (m.settle room reason) r ∨ (m.settle room reason).Queued r := by
  by_cases hr : r = room.id
  · exact Or.inr (hr ▸ queued_settle m room reason)
  · exact Or.inl (h.unchanged (store_other _ _ hr) fun _ _ _ _ => rfl)

theorem WellFormed.expire_pictures (h : m.WellFormed) (now : Time) (key r : RoomId) :
    Unchanged m (RoomManager.expire now m key) r ∨ (RoomManager.expire now m key).Queued r := by
  unfold RoomManager.expire
  split
  · exact Or.inl (Unchanged.refl m r)
  split
  · exact h.settle_pictures _ _ r
  · exact Or.inl (Unchanged.refl m r)

theorem expire_queued {now : Time} {key : RoomId} (h : m.Queued r) :
    (expire now m key).Queued r := by
  obtain ⟨finished, hmem, hroom⟩ := h
  unfold expire
  split
  · exact ⟨finished, hmem, hroom⟩
  split
  · exact ⟨finished, List.mem_append_left _ hmem, hroom⟩
  · exact ⟨finished, hmem, hroom⟩

theorem foldl_expire_queued (now : Time) (keys : List RoomId) :
    ∀ {m : RoomManager}, m.Queued r → (keys.foldl (expire now) m).Queued r := by
  induction keys with
  | nil => exact fun h => h
  | cons key keys ih => exact fun h => ih (expire_queued h)

theorem foldl_expire_pictures (now : Time) (keys : List RoomId) (r : RoomId) :
    ∀ {m : RoomManager}, m.WellFormed →
      Unchanged m (keys.foldl (expire now) m) r ∨ (keys.foldl (expire now) m).Queued r := by
  induction keys with
  | nil => exact fun _ => Or.inl (Unchanged.refl _ r)
  | cons key keys ih =>
    intro m h
    show Unchanged m (keys.foldl (expire now) (expire now m key)) r ∨
      (keys.foldl (expire now) (expire now m key)).Queued r
    -- what one room's check queues stays queued during the rest of the sweep
    rcases h.expire_pictures now key r with hsame | hqueued
    · rcases ih (h.expire now key) with hsame' | hqueued
      · exact Or.inl (hsame.trans hsame')
      · exact Or.inr hqueued
    · exact Or.inr (foldl_expire_queued now keys hqueued)

theorem WellFormed.moved_pictures (h : m.WellFormed) (hr : m.rooms[room.id]? = some room)
    (g : OmokGame) (now : Time) (r : RoomId) :
    Unchanged m (m.moved room g now) r ∨ (m.moved room g now).Queued r := by
  unfold RoomManager.moved
  split
  · -- the game goes on: neither the stone nor the deadline is shown
    refine Or.inl ?_
    by_cases hid : r = room.id
    · subst hid
      intro room' hr'
      have hroom' : room' = room.moved g now := by
        simp only [RoomManager.store] at hr'
        grind
      refine ⟨room, hr, ?_, ?_⟩
      · rw [hroom']
        unfold Room.moved
        split <;> rfl
      · rw [hroom']
        unfold Room.moved
        split <;> rfl
    · exact h.unchanged (store_other _ _ hid) fun _ _ _ _ => rfl
  · exact h.settle_pictures _ _ r

theorem depart_name (hu : m.users.users[s]? = some u) (room : Room) (s' : SessionId) :
    (m.depart s u room).nameOf s' = m.nameOf s' := by
  have hname : (m.updateUser s u.returnToLobby).nameOf s' = m.nameOf s' :=
    nameOf_update u.returnToLobby hu rfl s'
  unfold depart
  dsimp only
  split
  · exact hname
  · exact hname

theorem depart_other (hne : r ≠ room.id) (s : SessionId) (u : User) :
    (m.depart s u room).rooms[r]? = m.rooms[r]? := by
  have hid : (room.removeMember s).2.id = room.id := by
    unfold Room.removeMember
    split <;> rfl
  unfold depart
  dsimp only
  split
  · simp only [updateUser]
    grind
  · exact store_other _ _ hne

end RoomManager

/-! ## One call -/

/-- The room that a call is about, if it can change what is shown of it. -/
def Call.Touches (m : RoomManager) (r : RoomId) : Call → Answer → Prop
  | .createRoom _ _, .created _ r' => r' = r
  | .enterRoom _ r', _ => r' = r
  | .leaveRoom s _ _, _ => ∃ u, m.users.users[s]? = some u ∧ u.roomId = r
  | .setReady s _, _ => ∃ u, m.users.users[s]? = some u ∧ u.roomId = r
  | .startGame s _, _ => ∃ u, m.users.users[s]? = some u ∧ u.roomId = r
  | _, _ => False

open RoomManager

/-- A call changes the picture of the room it is about, or of rooms it queues a result of. -/
theorem Effect.pictures {wideChars : Bytes → Nat} {m m' : RoomManager} {l : Call} {a : Answer}
    (he : Effect wideChars m l a m') (h : m.WellFormed)
    (hcall : l ≠ .tryPopFinishedGame ∧ ∀ s, l ≠ .remove s) (r : RoomId) :
    Unchanged m m' r ∨ m'.Queued r ∨ l.Touches m r a := by
  have hsettled : ∀ {m1 : RoomManager}, (Unchanged m m1 r ∨ m1.Queued r) →
      Unchanged m m1 r ∨ m1.Queued r ∨ l.Touches m r a := by
    intro m1 hpicture
    rcases hpicture with hsame | hqueued
    · exact Or.inl hsame
    · exact Or.inr (Or.inl hqueued)
  cases he with
  | refused => exact Or.inl (Unchanged.refl m r)
  | loggedIn hnew =>
    -- the members are users already
    refine Or.inl (h.unchanged rfl fun room hr s hs => ?_)
    obtain ⟨u, hu, -⟩ := h.member hr s hs
    exact nameOf_add hu _
  | removed => exact absurd rfl (hcall.2 _)
  | @created s u title hidle =>
    by_cases hr : m.lastRoomId + 1 = r
    · exact Or.inr (Or.inr hr)
    · refine Or.inl (h.unchanged ?_ fun room _ s' _ => ?_)
      · show (m.store (m.lastRoomId + 1) _).rooms[r]? = m.rooms[r]?
        exact store_other _ _ (fun e => hr e.symm)
      · exact nameOf_update (u.enterRoom _) hidle.user rfl s'
  | @entered s u room hidle =>
    by_cases hr : room.id = r
    · exact Or.inr (Or.inr hr)
    · refine Or.inl (h.unchanged ?_ fun room _ s' _ => ?_)
      · exact store_other _ _ (fun e => hr e.symm)
      · exact nameOf_update (u.enterRoom _) hidle.user rfl s'
  | @readied s u room ready hseat =>
    by_cases hr : r = room.id
    · exact Or.inr (Or.inr ⟨u, hseat.user, hseat.roomId.trans hr.symm⟩)
    · exact Or.inl (h.unchanged (store_other _ _ hr) fun _ _ _ _ => rfl)
  | @started s guest u room now hseat =>
    by_cases hr : r = room.id
    · exact Or.inr (Or.inr ⟨u, hseat.user, hseat.roomId.trans hr.symm⟩)
    · exact Or.inl (h.unchanged (store_other _ _ hr) fun _ _ _ _ => rfl)
  | moved hseat => exact hsettled (h.moved_pictures hseat.here _ _ r)
  | expired => exact hsettled (h.settle_pictures _ _ r)
  | resigned => exact hsettled (h.settle_pictures _ _ r)
  | @left s u room room1 m1 reason now hseat hreason hclosed =>
    by_cases hr : r = room.id
    · exact Or.inr (Or.inr ⟨u, hseat.user, hseat.roomId.trans hr.symm⟩)
    · -- the game that leaving ends is in the room that is left
      obtain ⟨husers, hid, hother⟩ : m1.users = m.users ∧ room1.id = room.id ∧
          m1.rooms[r]? = m.rooms[r]? := by
        cases hclosed with
        | idle => exact ⟨rfl, rfl, rfl⟩
        | expired => exact ⟨rfl, rfl, store_other _ _ hr⟩
        | forfeited => exact ⟨rfl, rfl, store_other _ _ hr⟩
      refine Or.inl (h.unchanged ?_ fun room _ s' _ => ?_)
      · rw [depart_other (hid ▸ hr), hother]
      · rw [depart_name (husers ▸ hseat.user)]
        exact nameOf_congr (by rw [husers])
  | swept => exact hsettled (foldl_expire_pictures _ _ r h)
  | popped => exact absurd rfl hcall.1

/-- Results stay queued. -/
theorem Effect.queued {wideChars : Bytes → Nat} {m m' : RoomManager} {l : Call} {a : Answer}
    (he : Effect wideChars m l a m') (h : m.WellFormed) (hpop : l ≠ .tryPopFinishedGame) {r : RoomId}
    (hr : m.Queued r) : m'.Queued r := by
  obtain ⟨finished, hmem, hroom⟩ := hr
  obtain ⟨-, hqueue⟩ := he.turnover h
  rw [QueueStep, he.popped?_nil hpop, List.nil_append] at hqueue
  exact ⟨finished, hqueue ▸ List.mem_append_left _ hmem, hroom⟩

end SelectServer
