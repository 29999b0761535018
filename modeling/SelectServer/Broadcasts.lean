import SelectServer.Replies
import SelectServer.LoginDeadlines
import SelectServer.SessionCleanup

/- Who is told what. A step sends a few emissions in a row, each one body to a list
   of sessions: a reply to the session whose request is handled, a notification of a
   room to its members, a chat message to the members of the sender's room, or the
   result of a game to its two players (`Proper`). Every handler changes the rooms
   before it sends anything, so the members are those the room has after the step.
   `broadcasts_confined`: nothing else is sent, and each emission reaches each of its
   recipients that is connected once. -/
namespace SelectServer
open Wire (Bytes)
open Histories

/-- One body for some sessions. -/
structure Emission where
  recipients : List SessionId
  packetId : UInt16
  body : Bytes

namespace Emission

def packets (e : Emission) : List SentPacket := toAll e.recipients e.packetId e.body

/-- What `s` gets of it. -/
def copy (s : SessionId) (e : Emission) : SentPacket := ⟨s, e.packetId, e.body⟩

end Emission

/-- The game `g` is on in the room `r`, and these are its players. -/
def RoomManager.Playing (m : RoomManager) (r : RoomId) (g : GameId) (black white : SessionId) :
    Prop :=
  ∃ room, m.On r room ∧ room.gameId = g ∧ room.blackPlayer = black ∧ room.whitePlayer = white

/-- What may be sent when the users and the rooms are those of `m`, for the requests `asked` and
the games that have been `played`. -/
inductive Proper (host : Host) (asked : NetworkEvent → Prop)
    (played : RoomId → GameId → SessionId → SessionId → Prop) (m : RoomManager) : Emission → Prop
  | reply {event : NetworkEvent} {rid : UInt16} {body : Bytes} (hasked : asked event)
      (hid : responseId? event.packetId = some rid) :
      Proper host asked played m ⟨[event.session], rid, body⟩
  | member {r : RoomId} {room : Room} {change : RoomMemberChange} {nickname body : Bytes}
      (hr : m.rooms[r]? = some room)
      (hbody : RoomMemberNotification.encode ⟨r, change, nickname⟩ = some body) :
      Proper host asked played m ⟨room.members, roomMemberNtf, body⟩
  | state {r : RoomId} {room : Room} {notification : RoomStateNotification} {body : Bytes}
      (hr : m.rooms[r]? = some room) (hroom : notification.roomId = r)
      (hgame : notification.game = room.gameId) (hbody : notification.encode = some body) :
      Proper host asked played m ⟨room.members, roomStateNtf, body⟩
  | moved {room : Room} {notification : GameMoveNotification} {black white : SessionId} {body : Bytes}
      (hr : m.rooms[notification.roomId]? = some room) (hmembers : room.members = [black, white])
      (hplayed : played notification.roomId notification.game black white)
      (hbody : notification.encode = some body) :
      Proper host asked played m ⟨room.members, gameMoveNtf, body⟩
  | chatted {event : NetworkEvent} {sender : User} {room : Room} {body : Bytes}
      (hasked : asked event) (hid : event.packetId = chatReq)
      (hu : m.users.users[event.session]? = some sender)
      (hr : m.rooms[sender.roomId]? = some room) (hmem : event.session ∈ room.members)
      (hvalid : PacketProcessor.isValidChatMessage host event.body = true)
      (hbody : ChatNotification.encode ⟨sender.nickname, event.body⟩ = some body) :
      Proper host asked played m ⟨room.members, chatNtf, body⟩
  | result {notification : GameEndNotification} {black white : SessionId} {body : Bytes}
      (hplayed : played notification.roomId notification.game black white)
      (hbody : notification.encode = some body) :
      Proper host asked played m ⟨[black, white], gameEndNtf, body⟩

/-- The packets are those of some emissions, all as they should be. -/
def Made (P : Emission → Prop) (packets : List SentPacket) : Prop :=
  ∃ emissions : List Emission, packets = emissions.flatMap Emission.packets ∧ ∀ e ∈ emissions, P e

section Made
variable {P : Emission → Prop}

theorem Made.nil : Made P [] := ⟨[], rfl, by simp⟩

theorem Made.one {e : Emission} (h : P e) : Made P e.packets :=
  ⟨[e], by simp, by simpa using h⟩

theorem Made.append {a b : List SentPacket} (ha : Made P a) (hb : Made P b) : Made P (a ++ b) := by
  obtain ⟨ea, rfl, hea⟩ := ha
  obtain ⟨eb, rfl, heb⟩ := hb
  refine ⟨ea ++ eb, List.flatMap_append.symm, fun e he => ?_⟩
  rcases List.mem_append.mp he with he | he
  · exact hea e he
  · exact heb e he

theorem Made.flatMap {α : Type} {list : List α} {f : α → List SentPacket}
    (h : ∀ a ∈ list, Made P (f a)) : Made P (list.flatMap f) := by
  induction list with
  | nil => exact .nil
  | cons a list ih =>
    rw [List.flatMap_cons]
    exact (h a List.mem_cons_self).append (ih fun b hb => h b (List.mem_cons_of_mem _ hb))

end Made

theorem Made.mono {P Q : Emission → Prop} {packets : List SentPacket} (h : Made P packets)
    (hle : ∀ e, P e → Q e) : Made Q packets := by
  obtain ⟨emissions, rfl, hall⟩ := h
  exact ⟨emissions, rfl, fun e he => hle e (hall e he)⟩

section Proper
variable {host : Host} {asked : NetworkEvent → Prop}
  {played : RoomId → GameId → SessionId → SessionId → Prop} {m : RoomManager}

/-- The queue of results is no part of what is asked. -/
theorem Proper.flushed {e : Emission} (h : Proper host asked played m e) :
    Proper host asked played { m with finishedGames := [] } e := by
  cases h with
  | reply hasked hid => exact .reply hasked hid
  | member hr hbody => exact .member hr hbody
  | state hr hroom hgame hbody => exact .state hr hroom hgame hbody
  | moved hr hmembers hplayed hbody => exact .moved hr hmembers hplayed hbody
  | chatted hasked hid hu hr hmem hvalid hbody => exact .chatted hasked hid hu hr hmem hvalid hbody
  | result hplayed hbody => exact .result hplayed hbody

/-- Nobody is a recipient twice. -/
theorem Proper.nodup {e : Emission} (h : Proper host asked played m e) (hwf : m.WellFormed)
    (hdistinct : ∀ r g black white, played r g black white → black ≠ white) :
    e.recipients.Nodup := by
  cases h with
  | reply => exact List.nodup_singleton _
  | member hr => exact hwf.nodup hr
  | state hr => exact hwf.nodup hr
  | moved hr => exact hwf.nodup hr
  | chatted _ _ _ hr => exact hwf.nodup hr
  | result hplayed =>
    have hne := hdistinct _ _ _ _ hplayed
    simpa using hne

/-! ## What the notifications are -/

theorem made_reply {event : NetworkEvent} {rid : UInt16} (hasked : asked event)
    (hid : responseId? event.packetId = some rid) (body : Bytes) :
    Made (Proper host asked played m) [⟨event.session, rid, body⟩] :=
  .one (Proper.reply hasked hid)

theorem made_memberOuts (r : RoomId) (change : RoomMemberChange) (nickname : Bytes) :
    Made (Proper host asked played m) (memberOuts m r change nickname) := by
  unfold memberOuts
  split
  · exact .nil
  rename_i room hr
  split
  · exact .nil
  · rename_i body hbody
    exact .one (Proper.member hr hbody)

theorem made_stateOuts (hwf : m.WellFormed) (r : RoomId) :
    Made (Proper host asked played m) (stateOuts m r) := by
  unfold stateOuts
  split
  · exact .nil
  rename_i room hr
  obtain ⟨notification, body, hstate, hbody, hroom, hgame, -⟩ := hwf.roomState_spec hr
  rw [hstate, Option.bind_some, hbody]
  exact .one (Proper.state hr hroom hgame hbody)

/-- The queued results go to the two players of their games. -/
def RoomManager.Attended (m : RoomManager)
    (played : RoomId → GameId → SessionId → SessionId → Prop) : Prop :=
  ∀ finished ∈ m.finishedGames, ∃ black white, finished.targets = [black, white] ∧
    played finished.room finished.game black white

theorem made_flushOuts (hwf : m.WellFormed) (hattended : m.Attended played) :
    Made (Proper host asked played m) (flushOuts m) := by
  refine .flatMap fun finished hfinished => .append ?_ (made_stateOuts hwf finished.room)
  obtain ⟨black, white, htargets, hplayed⟩ := hattended finished hfinished
  unfold endOuts
  split
  · exact .nil
  · rename_i body hbody
    rw [htargets]
    exact .one (Proper.result hplayed hbody)

end Proper

/-! ## The players of a game -/

namespace RoomManager
variable {m m' : RoomManager} {room : Room} {r : RoomId}

theorem WellFormed.on_players (h : m.WellFormed) (hon : m.On r room) :
    room.members = [room.blackPlayer, room.whitePlayer] ∧ room.blackPlayer ≠ room.whitePlayer := by
  obtain ⟨guest, hin⟩ := (h.room hon.1).playing hon.2
  have hnodup := h.nodup hon.1
  rw [hin.members] at hnodup
  rw [hin.members, hin.black, hin.white]
  exact ⟨rfl, by simpa using hnodup⟩

theorem WellFormed.playing_ne (h : m.WellFormed) {g : GameId} {black white : SessionId}
    (hplaying : m.Playing r g black white) : black ≠ white := by
  obtain ⟨room, hon, -, rfl, rfl⟩ := hplaying
  exact (h.on_players hon).2

end RoomManager

section Attended
variable {wideChars : Bytes → Nat} {host : Host} {asked : NetworkEvent → Prop}
  {played : RoomId → GameId → SessionId → SessionId → Prop} {m m' : RoomManager}

/-- What a call queues is the result of a game that was on. -/
theorem Effect.attended {l : Call} {a : Answer} (he : Effect wideChars m l a m')
    (h : m.WellFormed) (hpop : l ≠ .tryPopFinishedGame)
    (hplayed : ∀ r g black white, m.Playing r g black white → played r g black white)
    (hattended : m.Attended played) : m'.Attended played := by
  obtain ⟨hturn, hqueue⟩ := he.turnover h
  rw [QueueStep, he.popped?_nil hpop, List.nil_append] at hqueue
  generalize recordedBy m l m' = records at hturn hqueue
  intro finished hfinished
  rw [← hqueue] at hfinished
  rcases List.mem_append.mp hfinished with hold | hnew
  · exact hattended finished hold
  · cases hturn with
    | ended hends =>
      obtain ⟨room, g, reason, hon, -, rfl⟩ := hends.causes hnew
      exact ⟨room.blackPlayer, room.whitePlayer, (h.on_players hon).1,
        hplayed _ _ _ _ ⟨room, hon, rfl, rfl, rfl⟩⟩
    | started => cases hnew
    | moved => cases hnew

theorem Effect.made_moveOuts {s : SessionId} {r : RoomId} {g : GameId} {x y : Int}
    {out move : AcceptedMove} {now : Time}
    (he : Effect wideChars m (.placeStone s r g x y out now) (.placed .success move) m')
    (h : m.WellFormed)
    (hplayed : ∀ r g black white, m.Playing r g black white → played r g black white) :
    Made (Proper host asked played m') (moveOuts m' move) := by
  unfold moveOuts
  split
  · exact .nil
  rename_i room' hr
  replace hr : m'.rooms[(PacketProcessor.gameMove move).roomId]? = some room' := hr
  split
  · exact .nil
  rename_i body hbody
  cases he with
  | refused ha => cases ha
  | expired _ ha => cases ha
  | @moved _ u room _ _ _ _ hseat hnum hlive hphase hacc =>
    obtain ⟨room1, hfind, hmembers⟩ :=
      PacketProcessor.find_moved m room (room.game.tryPlaceStone (room.getPlayerStone s) x y).2 now
    obtain rfl : room' = room1 := Option.some.inj (hr.symm.trans hfind)
    have hon : m.On room.id room := ⟨hseat.here, hphase⟩
    exact .one (Proper.moved hr (hmembers.trans (h.on_players hon).1)
      (hplayed _ _ _ _ ⟨room, hon, rfl, rfl, rfl⟩) hbody)

/-! ## What the handlers send -/

theorem Handled.made {event : NetworkEvent} {rid : UInt16} {packets : List SentPacket}
    (hd : Handled host m event rid packets m') (hasked : asked event)
    (hid : responseId? event.packetId = some rid) (hsession : event.session ≠ 0) (hok : m.Ok)
    (hplayed : ∀ r g black white, m.Playing r g black white → played r g black white)
    (hattended : m.Attended played) : Made (Proper host asked played m') packets := by
  have hreply : ∀ (m : RoomManager) body,
      Made (Proper host asked played m) [⟨event.session, rid, body⟩] :=
    fun m body => made_reply hasked hid body
  have hwf' : m'.WellFormed := (hd.ok hok hsession).wellFormed
  cases hd with
  | idle => exact hreply _ _
  | answered => exact hreply _ _
  | created =>
    exact (hreply _ _).append ((made_memberOuts _ _ _).append (made_stateOuts hwf' _))
  | entered =>
    exact (hreply _ _).append ((made_memberOuts _ _ _).append (made_stateOuts hwf' _))
  | readied => exact (hreply _ _).append (made_stateOuts hwf' _)
  | started => exact (hreply _ _).append (made_stateOuts hwf' _)
  | moved _ he => exact (hreply _ _).append (he.made_moveOuts hok.wellFormed hplayed)
  | @left body u now m1 hleft he hu =>
    have hwf1 := (he.ok hok (by simp) (by simp) (by simp)).wellFormed
    have hflush : Made (Proper host asked played m1) (flushOuts m1) :=
      made_flushOuts hwf1 (he.attended hok.wellFormed (by simp) hplayed hattended)
    have hroom : Made (Proper host asked played m1)
        (memberOuts m1 u.roomId .left u.nickname ++ stateOuts m1 u.roomId) :=
      (made_memberOuts _ _ _).append (made_stateOuts hwf1 _)
    exact (hflush.append ((hreply m1 body).append hroom)).mono fun _ h => h.flushed
  | stayed =>
    exact ((made_flushOuts hok.wellFormed hattended).append (hreply _ _)).mono fun _ h => h.flushed

theorem Handled.attended {event : NetworkEvent} {rid : UInt16} {packets : List SentPacket}
    (hd : Handled host m event rid packets m') (h : m.WellFormed)
    (hplayed : ∀ r g black white, m.Playing r g black white → played r g black white)
    (hattended : m.Attended played) : m'.Attended played := by
  cases hd with
  | idle => exact hattended
  | @answered body l a m' hplain he hl hcaller =>
    refine he.attended h ?_ hplayed hattended
    rintro rfl
    exact hl
  | created _ he => exact he.attended h (by simp) hplayed hattended
  | entered _ he => exact he.attended h (by simp) hplayed hattended
  | readied _ _ _ _ he => exact he.attended h (by simp) hplayed hattended
  | started _ _ _ _ he => exact he.attended h (by simp) hplayed hattended
  | moved _ he => exact he.attended h (by simp) hplayed hattended
  | left => simp [RoomManager.Attended]
  | stayed => simp [RoomManager.Attended]

theorem Deed.attended {packets : List SentPacket} (hd : Deed host asked m packets m')
    (h : m.WellFormed)
    (hplayed : ∀ r g black white, m.Playing r g black white → played r g black white)
    (hattended : m.Attended played) : m'.Attended played := by
  cases hd with
  | quiet => exact hattended
  | handled _ hd => exact hd.attended h hplayed hattended
  | forgotten => simp [RoomManager.Attended]
  | gone => simp [RoomManager.Attended]
  | swept => simp [RoomManager.Attended]

end Attended

theorem RoomManager.Attended.mono {m : RoomManager}
    {played played' : RoomId → GameId → SessionId → SessionId → Prop} (h : m.Attended played)
    (hle : ∀ r g black white, played r g black white → played' r g black white) :
    m.Attended played' := by
  intro finished hfinished
  obtain ⟨black, white, htargets, hplayed⟩ := h finished hfinished
  exact ⟨black, white, htargets, hle _ _ _ _ hplayed⟩

/-- In one of the states the game `g` was on in the room `r`, and these were its players. -/
def Played (states : List Server) (r : RoomId) (g : GameId) (black white : SessionId) : Prop :=
  ∃ c ∈ states, c.rooms.Playing r g black white

theorem Played.distinct {states : List Server} (hsound : ∀ c ∈ states, c.rooms.WellFormed)
    (r : RoomId) (g : GameId) (black white : SessionId) (h : Played states r g black white) :
    black ≠ white := by
  obtain ⟨c, hc, hplaying⟩ := h
  exact (hsound c hc).playing_ne hplaying

/-- What is queued is the result of a game of the run. -/
theorem ServerRun.attended {host : Host} {timeout : Time} {p : PacketProcessor}
    (hp : PacketProcessor.make {} timeout = .ok p) {history : List (Entry Server Input)}
    {c : Server} (h : ServerRun host p history c) :
    c.rooms.Attended (Played (history.map (·.pre))) := by
  induction h with
  | start =>
    have hqueue := (RoomManager.make_books (PacketProcessor.make_eq hp).1).2
    show p.rooms.Attended _
    simp [RoomManager.Attended, hqueue]
  | @snoc history c c' l before taken ih =>
    have hsound := ServerRun.sound hp before
    obtain ⟨packets, hdeed, -⟩ := taken.deed hsound
    rw [List.map_append]
    refine hdeed.attended hsound.rooms.wellFormed ?_ (ih.mono ?_)
    · intro r g black white hplaying
      exact ⟨c, by simp, hplaying⟩
    · intro r g black white hplayed
      obtain ⟨d, hd, hplaying⟩ := hplayed
      exact ⟨d, List.mem_append_left _ hd, hplaying⟩

/-! ## What is delivered -/

/-- Who was connected before a row of sends still is, or one of its packets was refused. -/
theorem Network.kept_deliver {host : Host} {s : SessionId} (packets : List SentPacket) :
    ∀ {n : Network}, s ∈ n.connected → s ∈ (n.deliver host packets).connected ∨
      ∃ packet ∈ packets, packet.session = s ∧
        ∃ sent, n.sent <+: sent ∧ host.accepts sent packet = false := by
  induction packets with
  | nil => exact fun h => Or.inl h
  | cons packet packets ih =>
    intro n h
    have hrest : ∀ n1 : Network, n.sent <+: n1.sent → s ∈ n1.connected →
        s ∈ (n1.deliver host packets).connected ∨
          ∃ packet' ∈ packet :: packets, packet'.session = s ∧
            ∃ sent, n.sent <+: sent ∧ host.accepts sent packet' = false := by
      intro n1 hsent h1
      rcases ih h1 with hkept | ⟨packet', hmem, hto, sent, hprefix, hrefused⟩
      · exact Or.inl hkept
      · exact Or.inr ⟨packet', List.mem_cons_of_mem _ hmem, hto, sent, hsent.trans hprefix, hrefused⟩
    have hcases := post_cases host n packet
    show s ∈ ((n.post host packet).deliver host packets).connected ∨ _
    generalize n.post host packet = n1 at hcases ⊢
    cases hcases with
    | skipped => exact hrest n (List.prefix_refl _) h
    | taken => exact hrest _ (List.prefix_append _ _) h
    | refused _ ha =>
      by_cases hs : packet.session = s
      · exact Or.inr ⟨packet, List.mem_cons_self, hs, n.sent, List.prefix_refl _, ha⟩
      · refine hrest _ ?_ ?_
        · rw [disconnect_sent]
        · rw [disconnect_connected, Finset.mem_erase]
          exact ⟨fun e => hs e.symm, h⟩

/-- The emissions of a step that leads from the network `n` to `n'`: only their recipients are
sent anything, each of them once what it is a recipient of unless it is disconnected, and it is
disconnected only when it refuses a packet. -/
structure Reached (host : Host) (n : Network) (emissions : List Emission) (n' : Network) :
    Prop where
  sent : ∃ new, n'.sent = n.sent ++ new ∧
    (∀ packet ∈ new, ∃ e ∈ emissions, packet.session ∈ e.recipients ∧
      packet = e.copy packet.session) ∧
    ∀ s ∈ n'.connected, toSession s new =
      (emissions.filter fun e => s ∈ e.recipients).map (Emission.copy s)
  kept : ∀ e ∈ emissions, ∀ s ∈ e.recipients, s ∈ n.connected → s ∈ n'.connected ∨
    ∃ e' ∈ emissions, s ∈ e'.recipients ∧
      ∃ sent, n.sent <+: sent ∧ host.accepts sent (e'.copy s) = false

theorem Emission.mem_packets {e : Emission} {packet : SentPacket} :
    packet ∈ e.packets ↔ packet.session ∈ e.recipients ∧ packet = e.copy packet.session := by
  unfold packets toAll copy
  rw [List.mem_map]
  constructor
  · rintro ⟨s, hs, rfl⟩
    exact ⟨hs, rfl⟩
  · intro ⟨hs, he⟩
    exact ⟨packet.session, hs, he.symm⟩

theorem toSession_emissions (s : SessionId) (emissions : List Emission)
    (hnodup : ∀ e ∈ emissions, e.recipients.Nodup) :
    toSession s (emissions.flatMap Emission.packets) =
      (emissions.filter fun e => s ∈ e.recipients).map (Emission.copy s) := by
  induction emissions with
  | nil => rfl
  | cons e emissions ih =>
    rw [List.flatMap_cons, toSession_append, Emission.packets,
      toSession_toAll (hnodup e List.mem_cons_self),
      ih fun e' he' => hnodup e' (List.mem_cons_of_mem _ he')]
    by_cases hs : s ∈ e.recipients
    · simp [hs, Emission.copy]
    · simp [hs]

/-- `n'` is `n` with the packets of some emissions sent, none of whose recipients was disconnected
before that. -/
def Cast (host : Host) (P : Emission → Prop) (n n' : Network) : Prop :=
  ∃ (n1 : Network) (packets : List SentPacket), n1.sent = n.sent ∧
    (∀ packet ∈ packets, packet.session ∈ n.connected → packet.session ∈ n1.connected) ∧
      n' = n1.deliver host packets ∧ Made P packets

section Cast
variable {host : Host} {P : Emission → Prop} {n n' : Network}

theorem Cast.none (h : n'.sent = n.sent) : Cast host P n n' := ⟨n', [], h, by simp, rfl, .nil⟩

theorem Cast.all {packets : List SentPacket} (h : n' = n.deliver host packets)
    (hmade : Made P packets) : Cast host P n n' :=
  ⟨n, packets, rfl, fun _ _ hs => hs, h, hmade⟩

theorem Cast.reached (h : Cast host P n n') (hnodup : ∀ e, P e → e.recipients.Nodup) :
    ∃ emissions, (∀ e ∈ emissions, P e) ∧ Reached host n emissions n' := by
  obtain ⟨n1, packets, hsent, hconnected, rfl, emissions, rfl, hall⟩ := h
  have hemits := Network.emits_deliver host (emissions.flatMap Emission.packets) n1
  obtain ⟨new, hnew, hfrom⟩ := hemits.sent
  refine ⟨emissions, hall, ⟨new, hsent ▸ hnew, ?_, ?_⟩, ?_⟩
  · intro packet hpacket
    obtain ⟨e, he, hmem⟩ := List.mem_flatMap.mp (hfrom packet hpacket).1
    exact ⟨e, he, Emission.mem_packets.mp hmem⟩
  · intro s hs
    have hcomplete := hemits.complete s hs
    rw [hnew, toSession_append] at hcomplete
    rw [List.append_cancel_left hcomplete]
    exact toSession_emissions s emissions fun e he => hnodup e (hall e he)
  · intro e he s hs hin
    have hin1 : s ∈ n1.connected :=
      hconnected (e.copy s)
        (List.mem_flatMap.mpr ⟨e, he, Emission.mem_packets.mpr ⟨hs, rfl⟩⟩) hin
    rcases Network.kept_deliver (emissions.flatMap Emission.packets) hin1 with
      hkept | ⟨packet, hpacket, rfl, sent, hprefix, hrefused⟩
    · exact Or.inl hkept
    · obtain ⟨e', he', hmem⟩ := List.mem_flatMap.mp hpacket
      obtain ⟨hto, hcopy⟩ := Emission.mem_packets.mp hmem
      refine Or.inr ⟨e', he', hto, sent, hsent ▸ hprefix, ?_⟩
      rw [← hcopy]
      exact hrefused

end Cast

/-! ## Every step -/

/-- What `FlushFinishedGames` sends goes to sessions that are logged in. -/
theorem RoomManager.WellFormed.flushOuts_known {m : RoomManager} (h : m.WellFormed)
    (hk : m.TargetsKnown) {packet : SentPacket} (hpacket : packet ∈ flushOuts m) :
    (m.users.users[packet.session]?).isSome = true := by
  obtain ⟨finished, hfinished, hpacket⟩ := List.mem_flatMap.mp hpacket
  rcases List.mem_append.mp hpacket with hend | hstate
  · unfold endOuts at hend
    split at hend
    · cases hend
    · obtain ⟨s, hs, rfl⟩ := List.mem_map.mp hend
      exact hk finished hfinished s hs
  · unfold stateOuts at hstate
    split at hstate
    · cases hstate
    rename_i room hr
    split at hstate
    · cases hstate
    · obtain ⟨s, hs, rfl⟩ := List.mem_map.mp hstate
      obtain ⟨u, hu, -⟩ := h.member hr s hs
      exact Option.isSome_iff_exists.mpr ⟨u, hu⟩

section Steps
variable {host : Host} {asked : NetworkEvent → Prop}
  {played : RoomId → GameId → SessionId → SessionId → Prop} {p p' : PacketProcessor}
  {event : NetworkEvent}

theorem sweepRooms_cast (hok : p.rooms.Ok)
    (hplayed : ∀ r g black white, p.rooms.Playing r g black white → played r g black white)
    (hattended : p.rooms.Attended played) (hk : p.rooms.TargetsKnown)
    {traversal : Traversal RoomId} {now : Time} (h : p.sweepRooms host traversal now = .ok p') :
    ∃ packets, p'.network = p.network.deliver host packets ∧
      Made (Proper host asked played p'.rooms) packets ∧
        ∀ packet ∈ packets, (p.rooms.users.users[packet.session]?).isSome = true := by
  obtain ⟨p1, m, e, he, hrooms, hnetwork⟩ := p.sweepRooms_spec host hok traversal now
  obtain rfl := Except.ok.inj (e.symm.trans h)
  have hwf := (he.ok hok (by simp) (by simp) (by simp)).wellFormed
  refine ⟨flushOuts m, hnetwork, ?_, fun packet hpacket => ?_⟩
  · rw [hrooms]
    exact (made_flushOuts hwf (he.attended hok.wellFormed (by simp) hplayed hattended)).mono
      fun _ h => h.flushed
  · have hknown := hwf.flushOuts_known (he.targetsKnown hok.wellFormed hk (by simp) (by simp)) hpacket
    obtain ⟨u, hu⟩ := Option.isSome_iff_exists.mp hknown
    rcases he.users hu with ⟨u', hu'⟩ | ⟨nickname, hlogin⟩
    · exact Option.isSome_iff_exists.mpr ⟨u', hu'⟩
    · cases hlogin

theorem endUpdate_cast (hok : p.rooms.Ok)
    (hplayed : ∀ r g black white, p.rooms.Playing r g black white → played r g black white)
    (hattended : p.rooms.Attended played) (hk : p.rooms.TargetsKnown)
    (hexempt : ∀ s : SessionId, (p.rooms.users.users[s]?).isSome = true →
      p.loginDeadlines[s]? = none)
    {first second : Traversal SessionId × Time} {traversal : Traversal RoomId} {now : Time}
    (h : p.endUpdate host first second traversal now = .ok p') :
    Cast host (Proper host asked played p'.rooms) p.network p'.network := by
  obtain ⟨hrooms, hemits⟩ := p.checkLoginTimeouts_twice first second
  have hstays := fun s hs => stays_connected_twice (hexempt s hs) first second
  simp only [PacketProcessor.endUpdate] at h
  generalize (p.checkLoginTimeouts first.1 first.2).checkLoginTimeouts second.1 second.2 = p1
    at h hrooms hemits hstays
  rw [← hrooms] at hok hplayed hattended hk hstays
  obtain ⟨packets, hnetwork, hmade, hknown⟩ := sweepRooms_cast hok hplayed hattended hk h
  refine ⟨p1.network, packets, ?_, fun packet hpacket hin => ?_, hnetwork, hmade⟩
  · obtain ⟨new, hsent, hnew⟩ := hemits.sent
    cases new with
    | nil => rw [hsent, List.append_nil]
    | cons packet new => cases (hnew packet List.mem_cons_self).1
  · -- who has logged in has no deadline, so the checks leave it alone
    exact hstays _ (hknown packet hpacket) hin

theorem handleDisconnected_cast (hok : p.rooms.Ok)
    (hplayed : ∀ r g black white, p.rooms.Playing r g black white → played r g black white)
    (hattended : p.rooms.Attended played) {s : SessionId} {now : Time}
    (h : p.handleDisconnected host s now = .ok p') :
    Cast host (Proper host asked played p'.rooms) p.network p'.network := by
  obtain ⟨p1, e, hcases⟩ := p.handleDisconnected_spec host hok s now
  obtain rfl := Except.ok.inj (e.symm.trans h)
  rcases hcases with ⟨-, -, hnetwork⟩ | ⟨u, hidle, hrooms, hnetwork⟩ |
    ⟨u, m, he, -, hrooms, hnetwork⟩
  · exact .none (congrArg Network.sent hnetwork)
  · have hwf := (PacketProcessor.removed_ok hok fun _ => hidle.lobby).wellFormed
    refine .all hnetwork ?_
    rw [hrooms]
    exact (made_flushOuts hwf hattended).mono fun _ h => h.flushed
  · -- the session has left its room and is removed before anyone is told
    have hwf := (PacketProcessor.removed_ok (he.ok hok (by simp) (by simp) (by simp))
      fun _ => he.left_lobby).wellFormed
    refine .all hnetwork ?_
    rw [hrooms]
    refine .mono (.append (made_flushOuts hwf ?_) ((made_memberOuts _ _ _).append
      (made_stateOuts hwf _))) fun _ h => h.flushed
    exact he.attended hok.wellFormed (by simp) hplayed hattended

theorem handleChat_cast (hok : p.rooms.Ok) (hid : event.packetId = chatReq) (hasked : asked event) :
    Cast host (Proper host asked played (PacketProcessor.handleChat host p event).rooms) p.network
      (PacketProcessor.handleChat host p event).network := by
  have hreply : ∀ body : Bytes,
      Made (Proper host asked played p.rooms) [⟨event.session, chatRes, body⟩] :=
    made_reply hasked (by rw [hid]; rfl)
  have houtcome := PacketProcessor.handleChat_outcome host hok event
  generalize PacketProcessor.handleChat host p event = p' at houtcome ⊢
  cases houtcome with
  | dropped => exact .none Network.disconnect_sent
  | refused => exact .all rfl (hreply _)
  | lost _ results =>
    refine .all rfl ?_
    rw [List.map_eq_flatMap]
    exact .flatMap fun result _ => hreply _
  | told hchat hu hr hmem hbody =>
    refine .all rfl ((hreply _).append ((hreply _).append ?_))
    exact .one (Proper.chatted hasked hid hu hr hmem hchat.2 hbody)

theorem processPacket_cast (hok : p.rooms.Ok) (hasked : asked event) (hsession : event.session ≠ 0)
    (hplayed : ∀ r g black white, p.rooms.Playing r g black white → played r g black white)
    (hattended : p.rooms.Attended played) {now : Time}
    (h : PacketProcessor.processPacket host p event now = .ok p') :
    Cast host (Proper host asked played p'.rooms) p.network p'.network := by
  obtain ⟨p1, e, hresponds⟩ : ∃ p1, PacketProcessor.processPacket host p event now = .ok p1 ∧
      Responds host p event p1 := PacketProcessor.processPacket_responds hok now
  obtain rfl := Except.ok.inj (e.symm.trans h)
  cases hresponds with
  | dropped _ _ hnetwork =>
    refine .none ?_
    rw [hnetwork]
    exact Network.disconnect_sent
  | handled hrid _ hd hnetwork =>
    exact .all hnetwork (hd.made hasked hrid hsession hok hplayed hattended)
  | chatted hid =>
    rw [PacketProcessor.processPacket_chat hid, Except.ok.injEq] at h
    subst h
    exact handleChat_cast hok hid hasked

theorem handleEvent_cast (p : PacketProcessor) (hok : p.rooms.Ok) {loginNow gameNow : Time}
    (hasked : event.type = .packet → event.session ∈ p.network.connected →
      p.isLoginExpired event.session loginNow = false → asked event)
    (hsession : asked event → event.session ≠ 0)
    (hplayed : ∀ r g black white, p.rooms.Playing r g black white → played r g black white)
    (hattended : p.rooms.Attended played)
    (h : p.handleEvent host event loginNow gameNow = .ok p') :
    Cast host (Proper host asked played p'.rooms) p.network p'.network := by
  cases PacketProcessor.handleEvent_takes h with
  | skipped => exact .none rfl
  | opened => exact .none rfl
  | closed _ hclosed => exact handleDisconnected_cast hok hplayed hattended hclosed
  | late => exact .none Network.disconnect_sent
  | served htype hin hlive hserved =>
    have hevent := hasked htype hin hlive
    exact processPacket_cast hok hevent (hsession hevent) hplayed hattended hserved

end Steps

theorem ServerStep.cast {host : Host} {timeout : Time} {p : PacketProcessor}
    {history : List (Entry Server Input)} {c c' : Server} {l : Input}
    (hp : PacketProcessor.make {} timeout = .ok p) (hrun : ServerRun host p history c)
    (hstep : ServerStep host c l c') :
    Cast host (Proper host (c.Asked l) (Played (history.map (·.pre) ++ [c])) c'.rooms) c.network
      c'.network := by
  have hc := ServerRun.sound hp hrun
  have hplayed : ∀ r g black white, c.rooms.Playing r g black white →
      Played (history.map (·.pre) ++ [c]) r g black white :=
    fun r g black white hplaying => ⟨c, by simp, hplaying⟩
  have htargets := (ServerRun.referenced hp hrun).2
  have hattended : c.rooms.Attended (Played (history.map (·.pre) ++ [c])) := by
    refine (ServerRun.attended hp hrun).mono fun r g black white h => ?_
    obtain ⟨d, hd, hplaying⟩ := h
    exact ⟨d, List.mem_append_left _ hd, hplaying⟩
  cases l with
  | accept now =>
    cases hstep
    exact .none (Network.accept_sent now)
  | receive s packetId body =>
    cases hstep
    exact .none (Network.receive_sent packetId body)
  | close s =>
    cases hstep
    exact .none Network.disconnect_sent
  | beginUpdate traversal now =>
    obtain ⟨p', hp', rfl⟩ := Server.step_begin hstep
    obtain ⟨packets, hnetwork, hmade, -⟩ := sweepRooms_cast hc.rooms hplayed hattended htargets hp'
    exact .all hnetwork hmade
  | event loginNow gameNow =>
    obtain ⟨event, rest, p', hevents, hp', rfl⟩ := Server.step_event hstep
    have hpop : c.network.tryPopEvent = some (event, { c.network with events := rest }) := by
      rw [Network.tryPopEvent, hevents]
    have hasked : event.type = .packet → event.session ∈ c.network.connected →
        c.processor.isLoginExpired event.session loginNow = false →
          c.Asked (.event loginNow gameNow) event :=
      fun htype hin hlive => ⟨loginNow, gameNow, _, rfl, hpop, htype, hin, hlive⟩
    exact handleEvent_cast (c.withNetwork { c.network with events := rest }).processor hc.rooms
      hasked (hc.asked_id event) hplayed hattended hp'
  | endUpdate first second traversal now =>
    obtain ⟨p', hp', rfl⟩ := Server.step_end hstep
    exact endUpdate_cast hc.rooms hplayed hattended htargets
      (fun s hs => (ServerRun.standing hp hrun s).exempt hs) hp'

/-- In every step of every run what is sent are replies to the request that is handled, notifications
of a room to its members, chat messages to the members of the sender's room and results to the two
players of the game, and each reaches its recipients once. -/
theorem broadcasts_confined {host : Host} {timeout : Time} {p : PacketProcessor}
    {history : List (Entry Server Input)} {c c' : Server} {l : Input}
    (hp : PacketProcessor.make {} timeout = .ok p) (hrun : ServerRun host p history c)
    (hstep : ServerStep host c l c') :
    ∃ emissions,
      (∀ e ∈ emissions,
        Proper host (c.Asked l) (Played (history.map (·.pre) ++ [c])) c'.rooms e) ∧
      Reached host c.network emissions c'.network := by
  have hc := ServerRun.sound hp hrun
  have hwf' := (hstep.sound hc).rooms.wellFormed
  have hstates : ∀ d ∈ history.map (·.pre) ++ [c], d.rooms.WellFormed := by
    intro d hd
    rcases List.mem_append.mp hd with hd | hd
    · obtain ⟨entry, hentry, rfl⟩ := List.mem_map.mp hd
      obtain ⟨before, after, -, hbefore, -⟩ := hrun.split hentry
      exact (ServerRun.sound hp hbefore).rooms.wellFormed
    · rw [List.mem_singleton.mp hd]
      exact hc.rooms.wellFormed
  exact (hstep.cast hp hrun).reached fun e he => he.nodup hwf' (Played.distinct hstates)

/-- The guest of a game that is on says something. -/
theorem broadcasts_confined_chat : ∃ history c c' emissions,
    ServerRun Host.ascii PacketProcessor.fresh history c ∧
      ServerStep Host.ascii c (.event 0 0) c' ∧
      c'.network.sent.drop c.network.sent.length =
        [⟨2, chatRes, [0]⟩, ⟨2, chatRes, [0]⟩, ⟨1, chatNtf, [1, 98, 0, 2, 104, 105]⟩,
          ⟨2, chatNtf, [1, 98, 0, 2, 104, 105]⟩] ∧
      (∀ e ∈ emissions, Proper Host.ascii (c.Asked (.event 0 0))
        (Played (history.map (·.pre) ++ [c])) c'.rooms e) ∧
      Reached Host.ascii c.network emissions c'.network := by
  obtain ⟨history, c, hrun, hcheck⟩ := ServerRun.played Host.ascii PacketProcessor.fresh
    (playingInputs ++ [.receive 2 chatReq [104, 105]])
    (fun _ c => (c.next Host.ascii (.event 0 0)).any fun (c' : Server) =>
      decide (c'.network.sent.drop c.network.sent.length =
        [⟨2, chatRes, [0]⟩, ⟨2, chatRes, [0]⟩, ⟨1, chatNtf, [1, 98, 0, 2, 104, 105]⟩,
          ⟨2, chatNtf, [1, 98, 0, 2, 104, 105]⟩]))
    (by decide +kernel)
  obtain ⟨c', hc', hsent⟩ := (Option.any_eq_true _ _).mp hcheck
  have hstep : ServerStep Host.ascii c (.event 0 0) c' := Server.step_of_next hc'
  obtain ⟨emissions, hproper, hreached⟩ :=
    broadcasts_confined PacketProcessor.make_fresh hrun hstep
  exact ⟨history, c, c', emissions, hrun, hstep, of_decide_eq_true hsent, hproper, hreached⟩

/-- A session in the lobby is told which rooms there are, and who enters a room is told the number
of the game that was played there before. -/
theorem newcomer_told :
    (∃ history c, ServerRun Host.ascii PacketProcessor.fresh history c ∧
      (∀ d ∈ history.map (·.pre) ++ [c], ∀ room ∈ d.rooms.rooms[(1 : RoomId)]?,
        3 ∉ room.members) ∧
      ∃ packet ∈ c.network.sent, packet.session = 3 ∧ packet.packetId = roomListRes ∧
        ∃ response ∈ (RoomListResponse.decode packet.body).toOption,
          ∃ info ∈ response.rooms, info.roomId = 1) ∧
    ∃ history c, ServerRun Host.ascii PacketProcessor.fresh history c ∧
      (∀ d ∈ history.map (·.pre) ++ [c], ∀ room ∈ d.rooms.rooms[(1 : RoomId)]?,
        room.blackPlayer ≠ 3 ∧ room.whitePlayer ≠ 3) ∧
      ∃ packet ∈ c.network.sent, packet.session = 3 ∧ packet.packetId = roomStateNtf ∧
        ∃ notification ∈ (RoomStateNotification.decode packet.body).toOption,
          notification.roomId = 1 ∧ notification.game = 1 := by
  constructor
  · obtain ⟨history, c, hrun, hcheck⟩ := ServerRun.played Host.ascii PacketProcessor.fresh
      (pairedInputs ++ [.accept 0, .event 0 0] ++ Input.request 3 loginReq [99] ++
        Input.request 3 roomListReq ((RoomListRequest.encode ⟨0⟩).getD []))
      (fun history c => decide ((∀ d ∈ history.map (·.pre) ++ [c],
        ∀ room ∈ d.rooms.rooms[(1 : RoomId)]?, 3 ∉ room.members) ∧
        ∃ packet ∈ c.network.sent, packet.session = 3 ∧ packet.packetId = roomListRes ∧
          ∃ response ∈ (RoomListResponse.decode packet.body).toOption,
            ∃ info ∈ response.rooms, info.roomId = 1)) (by decide +kernel)
    exact ⟨history, c, hrun, of_decide_eq_true hcheck⟩
  · obtain ⟨history, c, hrun, hcheck⟩ := ServerRun.played Host.ascii PacketProcessor.fresh
      (playingInputs ++ Input.request 2 roomLeaveReq [] ++ [.accept 0, .event 0 0] ++
        Input.request 3 loginReq [99] ++
          Input.request 3 roomEnterReq ((RoomEnterRequest.encode ⟨1⟩).getD []))
      (fun history c => decide ((∀ d ∈ history.map (·.pre) ++ [c],
        ∀ room ∈ d.rooms.rooms[(1 : RoomId)]?, room.blackPlayer ≠ 3 ∧ room.whitePlayer ≠ 3) ∧
        ∃ packet ∈ c.network.sent, packet.session = 3 ∧ packet.packetId = roomStateNtf ∧
          ∃ notification ∈ (RoomStateNotification.decode packet.body).toOption,
            notification.roomId = 1 ∧ notification.game = 1)) (by decide +kernel)
    exact ⟨history, c, hrun, of_decide_eq_true hcheck⟩

end SelectServer
