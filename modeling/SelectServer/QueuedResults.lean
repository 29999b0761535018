import SelectServer.RoomActs

/- The results that wait in the queue. As long as no request disturbs its room, a
   queued result finds the room as its game left it: waiting, with the same two
   members (`Shelved`). Two requests can disturb it, because their handlers answer
   without flushing the queue: a guest that gets ready, and a host that starts the
   next game. Leaving flushes the queue at once, and the queue then still tells
   whose results it holds (`Flushable`). -/
namespace SelectServer
open Wire (Bytes)

namespace RoomManager

/-- A result of the room `r` is still queued. -/
def Queued (m : RoomManager) (r : RoomId) : Prop := ∃ f ∈ m.finishedGames, f.room = r

/-- One of the requests `asked` is a `ROOM_READY_REQ` that the room `r` accepts. -/
def Readies (asked : NetworkEvent → Prop) (m : RoomManager) (r : RoomId) : Prop :=
  ∃ event ready u room, asked event ∧ event.packetId = roomReadyReq ∧
    RoomReadyRequest.decode event.body = .ok ⟨ready⟩ ∧ m.Seated event.session u room ∧
      room.phase = .waiting ∧ event.session ≠ room.hostSession ∧ room.id = r

/-- One of the requests `asked` is a `ROOM_START_REQ` that the room `r` accepts. -/
def Starts (asked : NetworkEvent → Prop) (m : RoomManager) (r : RoomId) : Prop :=
  ∃ event u room guest, asked event ∧ event.packetId = roomStartReq ∧
    (∃ request, RoomStartRequest.decode event.body = .ok request) ∧ m.Seated event.session u room ∧
      room.phase = .waiting ∧ room.hostSession = event.session ∧
        room.members = [event.session, guest] ∧ guest ∈ room.readyMembers ∧
          m.lastGameId ≠ 0xffffffff ∧ room.id = r

/-- Every queued result finds its room as its game left it, where it is `strict` also with nobody
ready for the next game. -/
structure Shelved (strict : Prop) (m : RoomManager) : Prop where
  room : ∀ f ∈ m.finishedGames, ∃ room, m.rooms[f.room]? = some room ∧ room.phase = .waiting ∧
    room.members = f.targets ∧ f.targets.length = 2 ∧ (strict → room.readyMembers = ∅)
  apart : (m.finishedGames.map FinishedGame.room).Nodup

/-- No queued result is for a player who is by now in another room. -/
structure Flushable (m : RoomManager) : Prop where
  apart : (m.finishedGames.map FinishedGame.room).Nodup
  home : ∀ f ∈ m.finishedGames, ∀ s ∈ f.targets, ∀ (r : RoomId) (room : Room),
    m.rooms[r]? = some room → s ∈ room.members → r = f.room

variable {strict : Prop} {m m' : RoomManager}

theorem Shelved.empty (hq : m.finishedGames = []) : m.Shelved strict where
  room f hf := by
    rw [hq] at hf
    cases hf
  apart := by simp [hq]

/-- A step that queues nothing and touches one room, of which no result is queued. -/
theorem Shelved.outside (h : m.Shelved strict) {r : RoomId} (hr : ¬ m.Queued r)
    (hrooms : ∀ r', r' ≠ r → m'.rooms[r']? = m.rooms[r']?)
    (hqueue : m'.finishedGames = m.finishedGames) : m'.Shelved strict where
  room f hf := by
    rw [hqueue] at hf
    obtain ⟨room, hroom, hrest⟩ := h.room f hf
    have hne : f.room ≠ r := fun e => hr ⟨f, hf, e⟩
    exact ⟨room, (hrooms _ hne).trans hroom, hrest⟩
  apart := by
    rw [hqueue]
    exact h.apart

theorem Shelved.not_queued (h : m.Shelved strict) {r : RoomId}
    (hr : ∀ room, m.rooms[r]? = some room → room.phase = .waiting → room.members.length ≠ 2) :
    ¬ m.Queued r := by
  rintro ⟨f, hf, rfl⟩
  obtain ⟨room, hroom, hwait, hmembers, htwo, -⟩ := h.room f hf
  exact hr room hroom hwait (by rw [hmembers, htwo])

/-- The room of a game that is on has no result queued. -/
theorem Shelved.not_queued_on (h : m.Shelved strict) {r : RoomId} {room : Room} (hon : m.On r room) :
    ¬ m.Queued r := by
  rintro ⟨f, hf, rfl⟩
  obtain ⟨room', hroom, hwait, -⟩ := h.room f hf
  obtain rfl := Option.some.inj (hroom.symm.trans hon.1)
  rw [hon.2] at hwait
  cases hwait

/-- A game ends. -/
theorem Shelved.settle (h : m.Shelved strict) (hwf : m.WellFormed) {room : Room} {g : OmokGame}
    (reason : GameEndReason) (hon : m.On room.id room) :
    (m.settle { room with game := g } reason).Shelved strict := by
  obtain ⟨guest, hin⟩ := (hwf.room hon.1).playing hon.2
  have hfree := h.not_queued_on hon
  constructor
  · intro f hf
    rcases List.mem_append.mp hf with hf | hf
    · obtain ⟨room', hroom, hrest⟩ := h.room f hf
      have hne : f.room ≠ room.id := fun e => hfree ⟨f, hf, e⟩
      exact ⟨room', (store_other m _ hne).trans hroom, hrest⟩
    · obtain rfl := List.mem_singleton.mp hf
      refine ⟨({ room with game := g } : Room).finishGame, ?_, rfl, rfl, ?_, fun _ => rfl⟩
      · simp [RoomManager.settle, RoomManager.store, Room.record]
      · simp [Room.record, hin.members]
  · show ((m.finishedGames ++ [_]).map FinishedGame.room).Nodup
    rw [List.map_append, List.nodup_append]
    refine ⟨h.apart, by simp, ?_⟩
    intro r hr r' hr'
    obtain ⟨f, hf, rfl⟩ := List.mem_map.mp hr
    have e : r' = room.id := by simpa [Room.record] using hr'
    rintro rfl
    exact hfree ⟨f, hf, e⟩

theorem Shelved.expire (h : m.Shelved strict) (hwf : m.WellFormed) (now : Time) (key : RoomId) :
    (RoomManager.expire now m key).Shelved strict := by
  unfold RoomManager.expire
  split
  · exact h
  rename_i room hr
  split
  · rename_i he
    obtain ⟨rfl, -⟩ := hwf.stored hr
    exact h.settle hwf .turnTimeout ⟨hr, (isTurnExpired_iff.mp he).1⟩
  · exact h

theorem Shelved.sweep (now : Time) (keys : List RoomId) : ∀ {m : RoomManager}, m.Shelved strict →
    m.WellFormed → (keys.foldl (RoomManager.expire now) m).Shelved strict := by
  induction keys with
  | nil => exact fun h _ => h
  | cons key keys ih => exact fun h hwf => ih (h.expire hwf now key) (hwf.expire now key)

/-- The game of a room that a member leaves. -/
theorem Shelved.closed (h : m.Shelved strict) (hwf : m.WellFormed) {s : SessionId} {u : User}
    {room room1 : Room} {reason : GameEndReason} {now : Time} (hseat : m.Seated s u room)
    (hc : m.Closed s room reason now m' room1) : m'.Shelved strict := by
  cases hc with
  | idle => exact h
  | expired he => exact h.settle hwf _ ⟨hseat.here, (isTurnExpired_iff.mp he).1⟩
  | forfeited hphase => exact h.settle hwf _ ⟨hseat.here, hphase⟩

/-- Readiness is not what a result is about. -/
theorem Shelved.readied (h : m.Shelved strict) {s : SessionId} {u : User} {room : Room} {ready : Bool}
    (hseat : m.Seated s u room) (hfree : strict → ¬ m.Queued room.id) :
    (m.store room.id (room.setReady s ready)).Shelved strict := by
  by_cases hstrict : strict
  · exact h.outside (hfree hstrict) (fun r' hne => store_other m _ hne) rfl
  refine ⟨fun f hf => ?_, h.apart⟩
  obtain ⟨room', hroom, hwait, hmembers, htwo, -⟩ := h.room f hf
  by_cases e : f.room = room.id
  · obtain rfl := Option.some.inj (hseat.here.symm.trans (e ▸ hroom))
    refine ⟨room.setReady s ready, ?_, hwait, hmembers, htwo, fun hs => absurd hs hstrict⟩
    simp [RoomManager.store, e]
  · exact ⟨room', (store_other m _ e).trans hroom, hwait, hmembers, htwo,
      fun hs => absurd hs hstrict⟩

theorem Shelved.new_free (h : m.Shelved strict) (hwf : m.WellFormed)
    (hlast : m.lastRoomId ≠ 0xffffffff) : ¬ m.Queued (m.lastRoomId + 1) := by
  refine h.not_queued fun room hr => ?_
  have hnone : m.rooms[m.lastRoomId + 1]? = none := hwf.next_id_free hlast
  rw [hnone] at hr
  cases hr

theorem Shelved.space_free (h : m.Shelved strict) {room : Room} (hr : m.rooms[room.id]? = some room)
    (hfree : room.members.length < 2) : ¬ m.Queued room.id := by
  refine h.not_queued fun room' hr' _ => ?_
  obtain rfl := Option.some.inj (hr.symm.trans hr')
  omega

/-! ## The queue before it is flushed -/

theorem Shelved.flushable (h : m.Shelved strict) (hwf : m.WellFormed) : m.Flushable where
  apart := h.apart
  home f hf s hs r room hr hmem := by
    obtain ⟨room', hroom, -, hmembers, -⟩ := h.room f hf
    exact hwf.room_unique s _ _ _ _ hr hmem hroom (hmembers ▸ hs)

/-- Fewer members in the rooms. -/
theorem Flushable.shrink (h : m.Flushable) (hqueue : m'.finishedGames = m.finishedGames)
    (hrooms : ∀ (r : RoomId) (room' : Room), m'.rooms[r]? = some room' → ∀ s ∈ room'.members,
      ∃ room, m.rooms[r]? = some room ∧ s ∈ room.members) : m'.Flushable where
  apart := by
    rw [hqueue]
    exact h.apart
  home f hf s hs r room' hr hmem := by
    rw [hqueue] at hf
    obtain ⟨room, hroom, hmem'⟩ := hrooms r room' hr s hmem
    exact h.home f hf s hs r room hroom hmem'

theorem Flushable.depart (h : m.Flushable) {s : SessionId} {u : User} {room : Room}
    (hr : m.rooms[room.id]? = some room) (hs : s ∈ room.members) :
    (m.depart s u room).Flushable := by
  obtain ⟨-, hmembers, -⟩ := removeMember_of_mem hs
  refine h.shrink (RoomManager.depart_queue m s u room) fun r room' hr' s' hs' => ?_
  unfold RoomManager.depart at hr'
  dsimp only at hr'
  split at hr'
  · have hold : (m.rooms.erase room.id)[r]? = some room' := hr'
    rw [Std.ExtTreeMap.getElem?_erase] at hold
    split at hold
    · cases hold
    · exact ⟨room', hold, hs'⟩
  · by_cases e : r = room.id
    · subst e
      refine ⟨room, hr, ?_⟩
      simp only [RoomManager.store, RoomManager.updateUser, Std.ExtTreeMap.getElem?_insert_self,
        Option.some.injEq] at hr'
      rw [← hr', hmembers] at hs'
      exact List.mem_of_mem_erase hs'
    · rw [store_other _ _ e] at hr'
      exact ⟨room', hr', hs'⟩

end RoomManager

/-! ## One step -/

section Steps
open RoomManager
variable {strict : Prop} {wideChars : Bytes → Nat} {m m' : RoomManager} {l : Call} {a : Answer}

/-- The requests that can disturb the room of a queued result, or take members from it. -/
def Call.Disturbs : Call → Prop
  | .setReady .. => True
  | .startGame .. => True
  | .leaveRoom .. => True
  | _ => False

/-- Every other call keeps the results shelved. -/
theorem Effect.shelved (he : Effect wideChars m l a m') (h : m.Shelved strict) (hwf : m.WellFormed)
    (hl : ¬ l.Disturbs) : m'.Shelved strict := by
  cases he with
  | refused => exact h
  | loggedIn => exact ⟨h.room, h.apart⟩
  | removed => exact ⟨h.room, h.apart⟩
  | created hidle htitle hspace hlast =>
    exact h.outside (h.new_free hwf hlast) (fun r' hne => store_other m _ hne) rfl
  | entered hidle hroom hwait hnew hfree =>
    exact h.outside (h.space_free hroom hfree) (fun r' hne => store_other m _ hne) rfl
  | readied => exact absurd trivial hl
  | started => exact absurd trivial hl
  | @moved s u room x y out now hseat hnum hlive hphase hacc =>
    have hon : m.On room.id room := ⟨hseat.here, hphase⟩
    by_cases hgo : (room.game.tryPlaceStone (room.getPlayerStone s) x y).2.status = .playing
    · rw [RoomManager.moved, if_pos hgo]
      exact h.outside (h.not_queued_on hon) (fun r' hne => store_other m _ hne) rfl
    · rw [RoomManager.moved, if_neg hgo, Room.moved, if_neg hgo]
      exact h.settle hwf _ hon
  | expired _ _ hseat he => exact h.settle hwf _ ⟨hseat.here, (isTurnExpired_iff.mp he).1⟩
  | resigned hseat _ _ hphase => exact h.settle hwf _ ⟨hseat.here, hphase⟩
  | left => exact absurd trivial hl
  | swept => exact h.sweep _ _ hwf
  | @popped finished rest hq =>
    have hmem : ∀ f ∈ rest, f ∈ m.finishedGames := by
      intro f hf
      rw [hq]
      exact List.mem_cons_of_mem _ hf
    refine ⟨fun f hf => h.room f (hmem f hf), ?_⟩
    have hapart := h.apart
    rw [hq, List.map_cons] at hapart
    exact (List.nodup_cons.mp hapart).2

/-- A member leaves. -/
theorem Effect.left_flushable {s : SessionId} {reason : GameEndReason} {now : Time}
    (he : Effect wideChars m (.leaveRoom s reason now) (.room .success) m') (h : m.Shelved strict)
    (hwf : m.WellFormed) : m'.Flushable := by
  cases he with
  | refused ha => cases ha
  | expired _ ha => cases ha
  | left hseat hreason hclosed =>
    obtain ⟨hwf1, hseat1, -⟩ := hwf.closed hseat hclosed
    exact ((h.closed hwf hseat hclosed).flushable hwf1).depart hseat1.here hseat1.mem

end Steps

section Deeds
open RoomManager
variable {strict : Prop} {host : Host} {asked : NetworkEvent → Prop} {m m' : RoomManager}
  {packets : List SentPacket}

/-- No game starts while everybody is unready. -/
theorem RoomManager.Shelved.not_starts (h : m.Shelved strict) (hstrict : strict) {r : RoomId}
    (hq : m.Queued r) : ¬ m.Starts asked r := by
  rintro ⟨event, u, room, guest, -, -, -, hseat, -, -, -, hguest, -, rfl⟩
  obtain ⟨f, hf, e⟩ := hq
  obtain ⟨room', hroom, -, -, -, hunready⟩ := h.room f hf
  rw [e] at hroom
  obtain rfl := Option.some.inj (hseat.here.symm.trans hroom)
  rw [hunready hstrict] at hguest
  cases hguest

theorem Handled.shelved {event : NetworkEvent} {rid : UInt16} (hasked : asked event)
    (h : Handled host m event rid packets m') (hwf : m.WellFormed) (hq : m.Shelved strict)
    (hready : strict → ∀ r, m.Queued r → ¬ m.Readies asked r)
    (hstart : ∀ r, m.Queued r → ¬ m.Starts asked r) : m'.Shelved strict := by
  cases h with
  | idle => exact hq
  | @answered body l a _ _ he hl =>
    refine he.shelved hq hwf fun h => ?_
    cases l with
    | setReady => exact hl
    | startGame => exact hl
    | leaveRoom => exact hl
    | _ => exact h
  | created _ he => exact he.shelved hq hwf id
  | entered _ he => exact he.shelved hq hwf id
  | readied hid hdecode _ _ he =>
    cases he with
    | refused ha => cases ha
    | expired hactor => cases hactor
    | readied hseat hwait hguest =>
      refine hq.readied hseat fun hstrict hqueued => ?_
      exact hready hstrict _ hqueued ⟨_, _, _, _, hasked, hid, hdecode, hseat, hwait, hguest, rfl⟩
  | started hid hdecode _ _ he =>
    cases he with
    | refused ha => cases ha
    | expired hactor => cases hactor
    | started hseat hwait hhost hpair hne hguest hlast =>
      refine hq.outside (fun hqueued => ?_) (fun r' hne => store_other m _ hne) rfl
      exact hstart _ hqueued
        ⟨_, _, _, _, hasked, hid, hdecode, hseat, hwait, hhost, hpair, hguest, hlast, rfl⟩
  | moved _ he => exact he.shelved hq hwf id
  | left => exact .empty rfl
  | stayed => exact .empty rfl

/-- A step that disturbs no queued result keeps the results shelved. -/
theorem Deed.shelved (h : Deed host asked m packets m') (hwf : m.WellFormed) (hq : m.Shelved strict)
    (hready : strict → ∀ r, m.Queued r → ¬ m.Readies asked r)
    (hstart : ∀ r, m.Queued r → ¬ m.Starts asked r) : m'.Shelved strict := by
  cases h with
  | quiet => exact hq
  | handled hasked h => exact h.shelved hasked hwf hq hready hstart
  | forgotten => exact .empty rfl
  | gone => exact .empty rfl
  | swept => exact .empty rfl

/-! ## Announcements that do not come between a game and its result -/

/-- The state of a room is not announced to a player who is still to hear a result; where it is not
`strict`, the state of a room that waits may be. -/
def Undisturbed (strict : Prop) (s : SessionId) : Policy := fun rooms queue r =>
  ∀ room, rooms[r]? = some room → (strict ∨ room.phase = .playing) → s ∈ room.members →
    ∀ f ∈ queue, s ∉ f.targets

theorem RoomManager.Flushable.undisturbed (h : m.Flushable) (s : SessionId) {r : RoomId}
    (hr : ¬ m.Queued r) : Undisturbed strict s m.rooms m.finishedGames r := by
  intro room hroom _ hs f hf hs'
  exact hr ⟨f, hf, (h.home f hf s hs' r room hroom hs).symm⟩

theorem RoomManager.Flushable.undisturbed_rest (h : m.Flushable) (s : SessionId)
    {before rest : List FinishedGame} {f : FinishedGame} (hq : m.finishedGames = before ++ f :: rest) :
    Undisturbed strict s m.rooms rest f.room := by
  intro room hroom _ hs f' hf' hs'
  have hmem : f' ∈ m.finishedGames := by
    rw [hq]
    exact List.mem_append_right _ (List.mem_cons_of_mem _ hf')
  have hsame := h.home f' hmem s hs' f.room room hroom hs
  have hapart := h.apart
  rw [hq, List.map_append, List.map_cons] at hapart
  refine (List.nodup_cons.mp (List.nodup_append.mp hapart).2.1).1 ?_
  rw [hsame]
  exact List.mem_map_of_mem hf'

theorem RoomManager.Shelved.permits (hq : m.Shelved strict) (hok : m.Ok)
    (hready : strict → ∀ r, m.Queued r → ¬ m.Readies asked r)
    (hstart : ∀ r, m.Queued r → ¬ m.Starts asked r) (s : SessionId) :
    Permits host asked (Undisturbed strict s) m where
  empty rooms r := by simp [Undisturbed]
  created he := by
    have hshelved := he.shelved hq hok.wellFormed id
    have hwf := he.wellFormed hok.wellFormed (by simp) (by simp)
    cases he with
    | refused ha => cases ha
    | expired hactor => cases hactor
    | created hidle htitle hspace hlast =>
      exact (hshelved.flushable hwf).undisturbed s (hq.new_free hok.wellFormed hlast)
  entered he := by
    have hshelved := he.shelved hq hok.wellFormed id
    have hwf := he.wellFormed hok.wellFormed (by simp) (by simp)
    cases he with
    | refused ha => cases ha
    | expired hactor => cases hactor
    | entered hidle hroom hwait hnew hfree =>
      exact (hshelved.flushable hwf).undisturbed s (hq.space_free hroom hfree)
  readied := fun {event ready u m'} hasked hid hdecode hu he => by
    have hwf := he.wellFormed hok.wellFormed (by simp) (by simp)
    cases he with
    | refused ha => cases ha
    | expired hactor => cases hactor
    | @readied _ u room _ hseat hwait hguest =>
      -- a guest of a room with a queued result would disturb it
      have hfree : strict → ¬ m.Queued room.id := fun hstrict hqueued =>
        hready hstrict _ hqueued ⟨_, _, _, _, hasked, hid, hdecode, hseat, hwait, hguest, rfl⟩
      rw [hseat.roomId_of hu]
      intro room' hr' hphase hs
      rcases hphase with hstrict | hplay
      · have hshelved : (m.store room.id (room.setReady event.session ready)).Shelved strict :=
          hq.readied hseat hfree
        exact (hshelved.flushable hwf).undisturbed s (hfree hstrict) room' hr' (Or.inl hstrict) hs
      · -- only waiting rooms accept the request
        have hstored : (m.store room.id (room.setReady event.session ready)).rooms[room.id]? =
            some (room.setReady event.session ready) := by simp [RoomManager.store]
        obtain rfl := Option.some.inj (hstored.symm.trans hr')
        have hstill : (room.setReady event.session ready).phase = .waiting := hwait
        rw [hstill] at hplay
        cases hplay
  started := fun {event u now m'} hasked hid hdecode hu he => by
    have hwf := he.wellFormed hok.wellFormed (by simp) (by simp)
    cases he with
    | refused ha => cases ha
    | expired hactor => cases hactor
    | @started _ _ _ room _ hseat hwait hhost hpair hne hguest hlast =>
      have hfree : ¬ m.Queued room.id := fun hqueued => hstart _ hqueued
        ⟨_, _, _, _, hasked, hid, hdecode, hseat, hwait, hhost, hpair, hguest, hlast, rfl⟩
      rw [hseat.roomId_of hu]
      have hshelved : (m.started room now).Shelved strict :=
        hq.outside hfree (fun r' hne => store_other m _ hne) rfl
      exact (hshelved.flushable hwf).undisturbed s hfree
  flushed before f rest e := (hq.flushable hok.wellFormed).undisturbed_rest s e
  left he before f rest e := (he.left_flushable hq hok.wellFormed).undisturbed_rest s e
  swept he before f rest e := by
    have hshelved := he.shelved hq hok.wellFormed id
    exact (hshelved.flushable (he.wellFormed hok.wellFormed (by simp) (by simp))).undisturbed_rest s e

end Deeds
end SelectServer
