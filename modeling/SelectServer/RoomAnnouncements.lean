import SelectServer.ClientMirror
import SelectServer.Replies
import SelectServer.RoomPictures
import SelectServer.SessionStreams

/- The members of a room are told of every change of it. `lastState` is the last
   `ROOM_STATE_NTF` among some packets for a session. A step sends the members of a
   room its new state, or leaves a result of the room in the queue, or changes
   nothing that they are shown (`Follows`); what is queued is announced, with the
   state of its room, before `Update` returns (`rooms_announced`). -/
namespace SelectServer
open Wire (Bytes)
open Histories

/-- The last `ROOM_STATE_NTF` for `s`. -/
def lastState (s : SessionId) (packets : List SentPacket) : Option SentPacket :=
  ((toSession s packets).filter (·.packetId = roomStateNtf)).getLast?

variable {s : SessionId} {r : RoomId}

theorem lastState_append (a b : List SentPacket) :
    lastState s (a ++ b) = (lastState s b).or (lastState s a) := by
  rw [lastState, toSession_append, List.filter_append, List.getLast?_append]
  rfl

theorem lastState_congr {a b : List SentPacket} (h : toSession s a = toSession s b) :
    lastState s a = lastState s b := by
  rw [lastState, lastState, h]

theorem lastState_none {packets : List SentPacket}
    (h : ∀ packet ∈ packets, packet.packetId ≠ roomStateNtf) : lastState s packets = none := by
  have hnil : (toSession s packets).filter (·.packetId = roomStateNtf) = [] := by
    rw [List.filter_eq_nil_iff]
    intro packet hpacket
    simpa using h packet (List.mem_filter.mp hpacket).1
  rw [lastState, hnil]
  rfl

theorem lastState_toAll {targets : List SessionId} {packetId : UInt16} {body : Bytes}
    (h : packetId ≠ roomStateNtf) : lastState s (toAll targets packetId body) = none := by
  refine lastState_none fun packet hpacket => ?_
  obtain ⟨target, -, rfl⟩ := List.mem_map.mp hpacket
  exact h

theorem lastState_memberOuts (m : RoomManager) (r' : RoomId) (change : RoomMemberChange)
    (nickname : Bytes) : lastState s (memberOuts m r' change nickname) = none := by
  refine lastState_none fun packet hpacket => ?_
  rw [(memberOuts_other hpacket).1]
  decide

theorem lastState_moveOuts (m : RoomManager) (move : AcceptedMove) :
    lastState s (moveOuts m move) = none := by
  unfold moveOuts
  split
  · rfl
  split
  · rfl
  · exact lastState_toAll (by decide)

theorem lastState_endOuts (finished : FinishedGame) : lastState s (endOuts finished) = none := by
  unfold endOuts
  split
  · rfl
  · exact lastState_toAll (by decide)

/-- A packet with a plain notice is not about the state of a room. -/
theorem not_state {packetId : UInt16} {body : Bytes} {notice : Notice}
    (h : (⟨packetId, body⟩ : ClientPacket).notice = notice)
    (hother : notice = .other ∨ notice = .left) : packetId ≠ roomStateNtf := by
  rintro rfl
  have hstate : (⟨roomStateNtf, body⟩ : ClientPacket).notice =
      .ofDecoded .state (RoomStateNotification.decode body) := rfl
  rw [hstate] at h
  cases hd : RoomStateNotification.decode body with
  | error => rw [hd] at h; rcases hother with rfl | rfl <;> cases h
  | ok => rw [hd] at h; rcases hother with rfl | rfl <;> cases h

theorem lastState_cons {rid : UInt16} {s' : SessionId} {body : Bytes} {packets : List SentPacket}
    (h : rid ≠ roomStateNtf) : lastState s (⟨s', rid, body⟩ :: packets) = lastState s packets := by
  have hhead : lastState s [⟨s', rid, body⟩] = none :=
    lastState_none fun packet hpacket => by rw [List.mem_singleton.mp hpacket]; exact h
  have hsplit : (⟨s', rid, body⟩ :: packets : List SentPacket) = [⟨s', rid, body⟩] ++ packets := rfl
  rw [hsplit, lastState_append, hhead, Option.or_none]

namespace RoomManager
variable {m m' : RoomManager} {room : Room}

/-- What `NotifyRoomState` would tell `s` of room `r`. -/
def picture (m : RoomManager) (s : SessionId) (r : RoomId) : Option SentPacket :=
  lastState s (stateOuts m r)

/-- A member is told the projection of its room, and nothing of other rooms. -/
theorem WellFormed.picture_eq (h : m.WellFormed) (hr : m.rooms[r]? = some room)
    (hs : s ∈ room.members) : ∃ body, (m.projection room).encode = some body ∧
      ∀ r', m.picture s r' = if r' = r then some ⟨s, roomStateNtf, body⟩ else none := by
  obtain ⟨body, hbody⟩ := h.projection_encodes hr
  refine ⟨body, hbody, fun r' => ?_⟩
  unfold picture stateOuts RoomManager.find
  cases hr' : m.rooms[r']? with
  | none =>
    have hne : r' ≠ r := by
      rintro rfl
      rw [hr] at hr'
      cases hr'
    rw [if_neg hne]
    rfl
  | some room' =>
    obtain ⟨body', hbody'⟩ := h.projection_encodes hr'
    simp only [h.roomState_eq hr', Option.bind_some, hbody']
    rw [lastState, toSession_toAll (h.nodup hr')]
    -- `s` is a member of `r` alone
    by_cases hmem : s ∈ room'.members
    · obtain rfl := h.room_unique s _ _ _ _ hr' hmem hr hs
      obtain rfl : room' = room := Option.some.inj (hr'.symm.trans hr)
      obtain rfl : body' = body := Option.some.inj (hbody'.symm.trans hbody)
      rw [if_pos hmem, if_pos rfl]
      rfl
    · have hne : r' ≠ r := by
        rintro rfl
        exact hmem (Option.some.inj (hr'.symm.trans hr) ▸ hs)
      rw [if_neg hmem, if_neg hne]
      rfl

/-- A room that looks the same has the same picture. -/
theorem Unchanged.picture (h : m.WellFormed) (h' : m'.WellFormed) (hsame : Unchanged m m' r)
    (hr : m'.rooms[r]? = some room) (hs : s ∈ room.members) :
    (∃ old, m.rooms[r]? = some old ∧ s ∈ old.members) ∧ m.picture s r = m'.picture s r := by
  obtain ⟨old, hold, hmembers, hprojection⟩ := hsame room hr
  have hs' : s ∈ old.members := hmembers ▸ hs
  obtain ⟨body, hbody, hpicture⟩ := h.picture_eq hold hs'
  obtain ⟨body', hbody', hpicture'⟩ := h'.picture_eq hr hs
  rw [hprojection, hbody'] at hbody
  refine ⟨⟨old, hold, hs'⟩, ?_⟩
  rw [hpicture r, hpicture' r, Option.some.inj hbody]

/-- What a member is told when the queue is announced: the state of its room, if a result of it is
queued. -/
theorem WellFormed.lastState_flushOuts (h : m.WellFormed) (hr : m.rooms[r]? = some room)
    (hs : s ∈ room.members) :
    (m.Queued r → lastState s (flushOuts m) = m.picture s r) ∧
      (¬ m.Queued r → lastState s (flushOuts m) = none) := by
  obtain ⟨body, -, hpicture⟩ := h.picture_eq hr hs
  unfold Queued flushOuts
  generalize m.finishedGames = queue
  induction queue with
  | nil => exact ⟨fun ⟨_, hmem, _⟩ => (List.not_mem_nil hmem).elim, fun _ => rfl⟩
  | cons finished queue ih =>
    rw [List.flatMap_cons, lastState_append, lastState_append, lastState_endOuts, Option.or_none]
    show (_ → (lastState s _).or (m.picture s finished.room) = _) ∧
      (_ → (lastState s _).or (m.picture s finished.room) = none)
    -- if a later result is of the same room, its state comes once more
    by_cases hlater : ∃ f ∈ queue, f.room = r
    · rw [ih.1 hlater, hpicture r, if_pos rfl]
      refine ⟨fun _ => rfl, fun hnone => ?_⟩
      obtain ⟨f, hmem, hf⟩ := hlater
      exact absurd ⟨f, List.mem_cons_of_mem _ hmem, hf⟩ hnone
    · rw [ih.2 hlater, Option.none_or, hpicture finished.room, hpicture r]
      constructor
      · rintro ⟨f, hmem, hf⟩
        rcases List.mem_cons.mp hmem with rfl | hmem
        · rw [if_pos hf, if_pos rfl]
        · exact absurd ⟨f, hmem, hf⟩ hlater
      · intro hnone
        exact if_neg fun hf => hnone ⟨finished, List.mem_cons_self, hf⟩

/-- Who is removed is in no room, so no room looks different. -/
theorem WellFormed.remove_unchanged (h : m.WellFormed) {s' : SessionId}
    (hgone : ∀ (r : RoomId) (room : Room), m.rooms[r]? = some room → s' ∉ room.members) (r : RoomId) :
    Unchanged m { m with users := m.users.remove s' } r := by
  refine h.unchanged rfl fun room hr s hs => nameOf_remove ?_
  rintro rfl
  exact hgone r room hr hs

end RoomManager

open RoomManager

/-! ## What a step tells a member of its room -/

section Follows
variable {m m1 m' : RoomManager} {room : Room} {packets tail : List SentPacket}

/-- `s` is told how room `r` is in `m1`, or is told nothing while the room looks as it did, or a result
of it is queued. -/
def Shown (m : RoomManager) (packets : List SentPacket) (m1 : RoomManager) (s : SessionId)
    (r : RoomId) : Prop :=
  lastState s packets = m1.picture s r ∨
    (lastState s packets = none ∧ (Unchanged m m1 r ∨ m1.Queued r))

/-- After a step `s` has been told how room `r` is, or will be when its result is announced, or knows
it already. -/
def Follows (m : RoomManager) (packets : List SentPacket) (m' : RoomManager) (s : SessionId)
    (r : RoomId) : Prop :=
  lastState s packets = m'.picture s r ∨ m'.Queued r ∨
    (lastState s packets = none ∧ ¬ m.Queued r ∧
      (∃ old, m.rooms[r]? = some old ∧ s ∈ old.members) ∧ m.picture s r = m'.picture s r)

theorem Shown.follows (ht : Shown m packets m1 s r) (h : m.WellFormed) (h1 : m1.WellFormed)
    (hkept : m.Queued r → m1.Queued r) (hr : m1.rooms[r]? = some room) (hs : s ∈ room.members) :
    Follows m packets m1 s r := by
  rcases ht with htold | ⟨hnone, hsame | hqueued⟩
  · exact Or.inl htold
  · -- what was queued before is still to be announced
    by_cases hq : m.Queued r
    · exact Or.inr (Or.inl (hkept hq))
    · exact Or.inr (Or.inr ⟨hnone, hq, hsame.picture h h1 hr hs⟩)
  · exact Or.inr (Or.inl hqueued)

/-- The queue is announced first, with the states of its rooms. -/
theorem Shown.follows_flush (ht : Shown m tail m1 s r) (h : m.WellFormed) (h1 : m1.WellFormed)
    (hkept : m.Queued r → m1.Queued r) (hr : m1.rooms[r]? = some room) (hs : s ∈ room.members) :
    Follows m (flushOuts m1 ++ tail) { m1 with finishedGames := [] } s r := by
  obtain ⟨body, -, hpicture⟩ := h1.picture_eq hr hs
  obtain ⟨hflush, hquiet⟩ := h1.lastState_flushOuts hr hs
  -- a picture does not show the queue
  show lastState s (flushOuts m1 ++ tail) = m1.picture s r ∨ _ ∨
    (lastState s (flushOuts m1 ++ tail) = none ∧ _ ∧ _ ∧ m.picture s r = m1.picture s r)
  rw [lastState_append]
  rcases ht with htold | ⟨hnone, hchange⟩
  · refine Or.inl ?_
    rw [htold, hpicture r, if_pos rfl]
    rfl
  rw [hnone, Option.none_or]
  by_cases hq : m1.Queued r
  · exact Or.inl (hflush hq)
  · rcases hchange with hsame | hqueued
    · exact Or.inr (Or.inr ⟨hquiet hq, fun hq' => hq (hkept hq'), hsame.picture h h1 hr hs⟩)
    · exact absurd hqueued hq

variable {wideChars : Bytes → Nat} {l : Call} {a : Answer}

/-- A call whose room is announced. -/
theorem Effect.told (he : Effect wideChars m l a m1) (h : m.WellFormed) (h1 : m1.WellFormed)
    (hcall : l ≠ .tryPopFinishedGame ∧ ∀ s, l ≠ .remove s) (hr : m1.rooms[r]? = some room)
    (hs : s ∈ room.members) {r0 : RoomId} (htold : lastState s packets = m1.picture s r0)
    (htouch : l.Touches m r a → r0 = r) : Shown m packets m1 s r := by
  -- a member of another room hears nothing of `r0`
  by_cases hroom : r0 = r
  · exact Or.inl (hroom ▸ htold)
  obtain ⟨body, -, hpicture⟩ := h1.picture_eq hr hs
  rw [hpicture r0, if_neg hroom] at htold
  rcases he.pictures h hcall r with hsame | hqueued | htouched
  · exact Or.inr ⟨htold, Or.inl hsame⟩
  · exact Or.inr ⟨htold, Or.inr hqueued⟩
  · exact absurd (htouch htouched) hroom

/-- A call that is about no room, or about one that has queued a result. -/
theorem Effect.untold (he : Effect wideChars m l a m1) (h : m.WellFormed)
    (hcall : l ≠ .tryPopFinishedGame ∧ ∀ s, l ≠ .remove s) (hnone : lastState s packets = none)
    (htouch : ¬ l.Touches m r a) : Shown m packets m1 s r := by
  rcases he.pictures h hcall r with hsame | hqueued | htouched
  · exact Or.inr ⟨hnone, Or.inl hsame⟩
  · exact Or.inr ⟨hnone, Or.inr hqueued⟩
  · exact absurd htouched htouch

/-- The packets after an answer. -/
theorem lastState_answer {rid : UInt16} {s' : SessionId} {body : Bytes} {notice : Notice}
    (hplain : (⟨rid, body⟩ : ClientPacket).notice = notice)
    (hother : notice = .other ∨ notice = .left) :
    lastState s (⟨s', rid, body⟩ :: packets) = lastState s packets :=
  lastState_cons (not_state hplain hother)

theorem lastState_member {r' : RoomId} {change : RoomMemberChange} {nickname : Bytes} :
    lastState s (memberOuts m r' change nickname ++ stateOuts m r') = m.picture s r' := by
  rw [lastState_append, lastState_memberOuts, Option.or_none]
  rfl

/-- A call about the room that a session is in. -/
theorem seat_touched {s' : SessionId} {u : User} (hu : m.users.users[s']? = some u) :
    (∃ u', m.users.users[s']? = some u' ∧ u'.roomId = r) → u.roomId = r := by
  rintro ⟨u', hu', hroom⟩
  obtain rfl := Option.some.inj (hu.symm.trans hu')
  exact hroom

theorem Handled.follows {host : Host} {event : NetworkEvent} {rid : UInt16}
    (h : Handled host m event rid packets m') (hok : m.Ok) (hid : event.session ≠ 0)
    (hr : m'.rooms[r]? = some room) (hs : s ∈ room.members) : Follows m packets m' s r := by
  have hwf := hok.wellFormed
  have hwf' := (h.ok hok hid).wellFormed
  cases h with
  | idle hplain =>
    have ht : Shown m [⟨event.session, rid, _⟩] m s r :=
      Or.inr ⟨lastState_answer hplain (Or.inl rfl), Or.inl (Unchanged.refl m r)⟩
    exact ht.follows hwf hwf id hr hs
  | @answered body l a _ hplain he hl =>
    have hpop : l ≠ .tryPopFinishedGame := by
      rintro rfl
      exact hl
    have hremove : ∀ s', l ≠ .remove s' := by
      rintro s' rfl
      exact hl
    have htouch : ¬ l.Touches m r a := by
      intro htouch
      cases l <;> first | exact hl | exact htouch
    have hnone : lastState s [⟨event.session, rid, body⟩] = none :=
      lastState_answer hplain (Or.inl rfl)
    have ht := he.untold hwf ⟨hpop, hremove⟩ hnone htouch
    exact ht.follows hwf hwf' (he.queued hwf hpop) hr hs
  | created hplain he =>
    refine Shown.follows ?_ hwf hwf' (he.queued hwf (by simp)) hr hs
    refine he.told hwf hwf' (by simp) hr hs ?_ id
    exact (lastState_answer hplain (Or.inl rfl)).trans lastState_member
  | entered hplain he =>
    refine Shown.follows ?_ hwf hwf' (he.queued hwf (by simp)) hr hs
    refine he.told hwf hwf' (by simp) hr hs ?_ id
    exact (lastState_answer hplain (Or.inl rfl)).trans lastState_member
  | readied _ _ hplain hu he =>
    refine Shown.follows ?_ hwf hwf' (he.queued hwf (by simp)) hr hs
    exact he.told hwf hwf' (by simp) hr hs (lastState_answer hplain (Or.inl rfl)) (seat_touched hu)
  | started _ _ hplain hu he =>
    refine Shown.follows ?_ hwf hwf' (he.queued hwf (by simp)) hr hs
    exact he.told hwf hwf' (by simp) hr hs (lastState_answer hplain (Or.inl rfl)) (seat_touched hu)
  | moved hplain he =>
    refine Shown.follows ?_ hwf hwf' (he.queued hwf (by simp)) hr hs
    refine he.untold hwf (by simp) ?_ id
    exact (lastState_answer hplain (Or.inl rfl)).trans (lastState_moveOuts _ _)
  | left hleft he hu =>
    -- the results go out before the answer, the state of the room after it
    have hwf1 := (he.ok hok (by simp) (by simp) (by simp)).wellFormed
    refine Shown.follows_flush ?_ hwf hwf1 (he.queued hwf (by simp)) hr hs
    refine he.told hwf hwf1 (by simp) hr hs ?_ (seat_touched hu)
    exact (lastState_answer hleft (Or.inr rfl)).trans lastState_member
  | stayed hplain =>
    have ht : Shown m [⟨event.session, rid, _⟩] m s r :=
      Or.inr ⟨lastState_answer hplain (Or.inl rfl), Or.inl (Unchanged.refl m r)⟩
    exact ht.follows_flush hwf hwf id hr hs

theorem Deed.follows {host : Host} {asked : NetworkEvent → Prop} (h : Deed host asked m packets m')
    (hok : m.Ok) (hids : ∀ event, asked event → event.session ≠ 0) (hr : m'.rooms[r]? = some room)
    (hs : s ∈ room.members) : Follows m packets m' s r := by
  have hwf := hok.wellFormed
  cases h with
  | quiet hother =>
    have hnone : lastState s packets = none := lastState_none fun packet hpacket =>
      not_state (hother packet hpacket) (Or.inl rfl)
    have ht : Shown m packets m s r := Or.inr ⟨hnone, Or.inl (Unchanged.refl m r)⟩
    exact ht.follows hwf hwf id hr hs
  | handled hasked h => exact h.follows hok (hids _ hasked) hr hs
  | @forgotten s' u hidle =>
    have hwf1 := (PacketProcessor.removed_ok hok fun _ => hidle.lobby).wellFormed
    have hsame := hwf.remove_unchanged (hidle.away hwf) r
    have ht : Shown m [] { m with users := m.users.remove s' } s r := Or.inr ⟨rfl, Or.inl hsame⟩
    have hfollows := ht.follows_flush hwf hwf1 id hr hs
    rw [List.append_nil] at hfollows
    exact hfollows
  | @gone s' u now m1 he hu =>
    have hok1 := he.ok hok (by simp) (by simp) (by simp)
    have hwf2 := (PacketProcessor.removed_ok hok1 fun _ => he.left_lobby).wellFormed
    refine Shown.follows_flush ?_ hwf hwf2 (he.queued hwf (by simp)) hr hs
    by_cases hroom : u.roomId = r
    · refine Or.inl ?_
      rw [← hroom]
      exact lastState_member
    · -- the room that is left is another one
      obtain ⟨body, -, hpicture⟩ := hwf2.picture_eq hr hs
      refine Or.inr ⟨?_, ?_⟩
      · rw [lastState_member, hpicture, if_neg hroom]
      · have hremoved := hok1.wellFormed.remove_unchanged (he.left_gone hok1) r
        rcases he.pictures hwf (by simp) r with hsame | hqueued | htouched
        · exact Or.inl (hsame.trans hremoved)
        · exact Or.inr hqueued
        · exact absurd (seat_touched hu htouched) hroom
  | @swept traversal now m1 he =>
    have hwf1 := (he.ok hok (by simp) (by simp) (by simp)).wellFormed
    have ht : Shown m [] m1 s r := he.untold hwf (by simp) rfl id
    have hfollows := ht.follows_flush hwf hwf1 (he.queued hwf (by simp)) hr hs
    rw [List.append_nil] at hfollows
    exact hfollows

end Follows

/-! ## What is sent to a connection -/

/-- The sent packets have grown by what every session whose connection is kept was to get. -/
structure Sends (n : Network) (packets : List SentPacket) (n' : Network) : Prop where
  more : ∃ new, n'.sent = n.sent ++ new ∧
    ∀ s ∈ n'.connected, s ∈ n.connected → toSession s new = toSession s packets

theorem Network.Emits.sends {n n' : Network} {packets : List SentPacket}
    (h : Network.Emits n packets n') : Sends n packets n' where
  more := by
    obtain ⟨new, hsent, -⟩ := h.sent
    refine ⟨new, hsent, fun s hs _ => ?_⟩
    have hcomplete := h.complete s hs
    rw [hsent, toSession_append] at hcomplete
    exact List.append_cancel_left hcomplete

/-- Nothing is sent. -/
theorem Sends.nothing {n n' : Network} (h : n'.sent = n.sent) : Sends n [] n' where
  more := ⟨[], by rw [h, List.append_nil], fun _ _ _ => rfl⟩

theorem ServerStep.sends {host : Host} {c c' : Server} {l : Input} (hc : c.Sound)
    (h : ServerStep host c l c') :
    ∃ packets, Deed host (fun event => event.session ∈ c.network.connected) c.rooms packets c'.rooms ∧
      Sends c.network packets c'.network := by
  cases l with
  | accept now =>
    cases h
    exact ⟨[], .quiet (by simp), .nothing (Network.accept_sent now)⟩
  | receive s packetId body =>
    cases h
    exact ⟨[], .quiet (by simp), .nothing (Network.receive_sent packetId body)⟩
  | close s =>
    cases h
    exact ⟨[], .quiet (by simp), (Network.emits_disconnect _ s).sends⟩
  | beginUpdate traversal now =>
    obtain ⟨p', hp', rfl⟩ := Server.step_begin h
    obtain ⟨p1, packets, e, hdeed, hnetwork, -⟩ :=
      c.processor.sweepRooms_deed host _ hc.rooms traversal now
    obtain rfl := Except.ok.inj (e.symm.trans hp')
    refine ⟨packets, hdeed, ?_⟩
    show Sends c.network packets p1.network
    rw [hnetwork]
    exact (Network.emits_deliver host packets _).sends
  | event loginNow gameNow =>
    obtain ⟨event, rest, p', hevents, hp', rfl⟩ := Server.step_event h
    obtain ⟨p1, packets, e, hdeed, hemits⟩ :=
      ({ c.processor with network := { c.network with events := rest } } :
        PacketProcessor).handleEvent_deed host (by exact hc.rooms) event loginNow gameNow
    obtain rfl := Except.ok.inj (e.symm.trans hp')
    exact ⟨packets, hdeed.mono fun _ he => he.2.connected, ⟨hemits.sends.more⟩⟩
  | endUpdate first second traversal now =>
    obtain ⟨p', hp', rfl⟩ := Server.step_end h
    obtain ⟨p1, packets, e, hdeed, hemits, -⟩ :=
      c.processor.endUpdate_deed host _ hc.rooms first second traversal now
    obtain rfl := Except.ok.inj (e.symm.trans hp')
    exact ⟨packets, hdeed, hemits.sends⟩

/-! ## Runs -/

/-- Since `e`, a member of a room that was not in it then has been told how the room is, unless a
result of it is queued. -/
def Announced (e : Entry Server Input) (c : Server) : Prop :=
  ∃ new, c.network.sent = e.pre.network.sent ++ new ∧ ∀ (s : SessionId) (r : RoomId) (room : Room),
    (∀ old, e.pre.rooms.rooms[r]? = some old → s ∉ old.members) → c.rooms.rooms[r]? = some room →
      s ∈ room.members → s ∈ c.network.connected →
        c.rooms.Queued r ∨ lastState s new = c.rooms.picture s r

theorem ServerRun.announced {host : Host} {timeout : Time} {p : PacketProcessor}
    (hp : PacketProcessor.make {} timeout = .ok p) {history : List (Entry Server Input)}
    {c : Server} (hrun : ServerRun host p history c) : ∀ e ∈ history, Announced e c := by
  induction hrun with
  | start => exact fun e he => (List.not_mem_nil he).elim
  | @snoc before c c' l hbefore taken ih =>
    intro e he
    have hc := ServerRun.sound hp hbefore
    have hok' := (taken.sound hc).rooms
    obtain ⟨packets, hdeed, more, hsent, htold⟩ := taken.sends hc
    have hids : ∀ event : NetworkEvent, event.session ∈ c.network.connected → event.session ≠ 0 :=
      fun event hevent => (hc.connected _ hevent).1
    -- a session that has just been accepted is in no room
    have hkept : ∀ s (r : RoomId) (room : Room), c'.rooms.rooms[r]? = some room → s ∈ room.members →
        s ∈ c'.network.connected → s ∈ c.network.connected := by
      intro s r room hr hs hconnected
      obtain ⟨_, -, hsession⟩ := ServerStep.session hc taken
      rcases hsession s hconnected with ⟨hold, -⟩ | ⟨-, -, hgone⟩
      · exact hold
      · exact absurd hs (hgone r room hr)
    rcases List.mem_append.mp he with hold | hnew
    · -- an older entry: if this step tells nothing, what was known before still holds
      obtain ⟨new, hprefix, hknown⟩ := ih e hold
      refine ⟨new ++ more, by rw [hsent, hprefix, List.append_assoc], ?_⟩
      intro s r room hout hr hs hconnected
      have hstill := hkept s r room hr hs hconnected
      obtain ⟨body, -, hpicture⟩ := hok'.wellFormed.picture_eq hr hs
      rw [lastState_append, lastState_congr (htold s hconnected hstill)]
      rcases hdeed.follows hc.rooms hids hr hs with
        hlast | hqueued | ⟨hnone, hfree, ⟨old, hr', hs'⟩, hsame⟩
      · refine Or.inr ?_
        rw [hlast, hpicture r, if_pos rfl]
        rfl
      · exact Or.inl hqueued
      · rcases hknown s r old hout hr' hs' hstill with hqueued | hlast
        · exact absurd hqueued hfree
        · exact Or.inr (by rw [hnone, Option.none_or, hlast, hsame])
    · -- this very step: whoever joins in it is told in it
      obtain rfl := List.mem_singleton.mp hnew
      refine ⟨more, hsent, fun s r room hout hr hs hconnected => ?_⟩
      rw [lastState_congr (htold s hconnected (hkept s r room hr hs hconnected))]
      rcases hdeed.follows hc.rooms hids hr hs with
        hlast | hqueued | ⟨-, -, ⟨old, hr', hs'⟩, -⟩
      · exact Or.inr hlast
      · exact Or.inl hqueued
      · exact absurd hs' (hout old hr')

/-- When `Update` has returned, the last `ROOM_STATE_NTF` that a connected member of a room was sent
since it joined says how the room is now: its id, phase, game and capacity, its host, and its members
in order with their ready flags. `e` is any step before which it was not in the room, so also the one
that let it in. -/
theorem rooms_announced {host : Host} {timeout : Time} {p : PacketProcessor}
    (hp : PacketProcessor.make {} timeout = .ok p) {history : List (Entry Server Input)} {c : Server}
    (hrun : ServerRun host p history c) (hidle : c.updating = false) {r : RoomId} {room : Room}
    (hr : c.rooms.rooms[r]? = some room) {s : SessionId} (hs : s ∈ room.members)
    (hconnected : s ∈ c.network.connected) {e : Entry Server Input} (he : e ∈ history)
    (hout : ∀ old, e.pre.rooms.rooms[r]? = some old → s ∉ old.members) :
    ∃ body, (c.rooms.projection room).encode = some body ∧
      lastState s (c.network.sent.drop e.pre.network.sent.length) = some ⟨s, roomStateNtf, body⟩ := by
  have hc := ServerRun.sound hp hrun
  obtain ⟨new, hsent, hknown⟩ := ServerRun.announced hp hrun e he
  obtain ⟨body, hbody, hpicture⟩ := hc.rooms.wellFormed.picture_eq hr hs
  refine ⟨body, hbody, ?_⟩
  have hdrop : c.network.sent.drop e.pre.network.sent.length = new := by
    rw [hsent, List.drop_left]
  rw [hdrop]
  rcases hknown s r room hout hr hs hconnected with ⟨finished, hmem, -⟩ | hlast
  · rw [hc.idle hidle] at hmem
    cases hmem
  · rw [hlast, hpicture r, if_pos rfl]

/-- The second player of a game that the first has resigned. -/
theorem rooms_announced_resigned : ∃ history c room body e,
    ServerRun Host.ascii PacketProcessor.fresh history c ∧ c.updating = false ∧ e ∈ history ∧
      c.rooms.rooms[(1 : RoomId)]? = some room ∧ room.members = [1, 2] ∧ room.phase = .waiting ∧
        (c.rooms.projection room).encode = some body ∧
          lastState 2 (c.network.sent.drop e.pre.network.sent.length) =
            some ⟨2, roomStateNtf, body⟩ := by
  obtain ⟨history, c, hrun, hcheck⟩ := ServerRun.played Host.ascii PacketProcessor.fresh
    (resignedInputs ++ [Input.finish])
    (fun history c => !c.updating && decide (2 ∈ c.network.connected) &&
      c.rooms.rooms[(1 : RoomId)]?.any (fun room : Room =>
        decide (room.members = [1, 2] ∧ room.phase = .waiting)) &&
        history.any fun e => e.pre.rooms.rooms[(1 : RoomId)]?.isNone)
    (by decide +kernel)
  simp only [Bool.and_eq_true, Bool.not_eq_true', decide_eq_true_eq] at hcheck
  obtain ⟨⟨⟨hidle, hconnected⟩, hroom⟩, hbefore⟩ := hcheck
  obtain ⟨room, hr, hstate⟩ := (Option.any_eq_true _ _).mp hroom
  obtain ⟨hmembers, hphase⟩ := of_decide_eq_true hstate
  obtain ⟨e, he, hnone⟩ := List.any_eq_true.mp hbefore
  rw [Option.isNone_iff_eq_none] at hnone
  obtain ⟨body, hbody, hlast⟩ := rooms_announced PacketProcessor.make_fresh hrun hidle hr (s := 2)
    (by rw [hmembers]; decide) hconnected he fun old hold => by rw [hnone] at hold; cases hold
  exact ⟨history, c, room, body, e, hrun, hidle, he, hr, hmembers, hphase, hbody, hlast⟩

end SelectServer
