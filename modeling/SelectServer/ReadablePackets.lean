import SelectServer.CodecInverse
import SelectServer.DefensiveBranches
import SelectServer.Replies
import SelectServer.RoomPages
import SelectServer.SessionStreams

/- Every packet that the logic gives to `SendPacket` fits a packet and is read by
   the client, and no `Encode` of the server fails. A body other than an echo
   fits because the client's `Decode` accepts it; an echo is the body of a packet
   that was received. What is encoded is well formed because users, rooms, games
   and queued results are (`RoomManager.Ok`). -/
namespace SelectServer
open Wire (Bytes Fault)
open Histories

/-- The client reads the packet. `garbled` is what it makes of a body that the `Decode` of the id
rejects and of an id that it does not know. -/
structure SentPacket.Readable (packet : SentPacket) : Prop where
  size : packet.body.length ≤ maxPacketSize - headerSize
  decodes : packet.packet.notice ≠ .garbled

/-! ## What can be read fits a packet -/

theorem Writer.finish_length {w : Writer} {b : Bytes} (h : w.finish = some b) : b.length ≤ 4092 := by
  unfold Writer.finish at h
  split at h
  · cases h
  · rename_i hsize
    simp only [maxPacketSize, headerSize] at hsize
    obtain rfl := Option.some.inj h
    omega

theorem ChatNotification.encode_length {p : ChatNotification} {b : Bytes} (h : p.encode = some b) :
    b.length ≤ 4092 := by
  simp only [ChatNotification.encode] at h
  split at h
  · cases h
  split at h
  · cases h
  split at h
  · cases h
  · rename_i hsize
    simp only [maxPacketSize, headerSize] at hsize
    obtain rfl := Option.some.inj h
    simp [writeUInt16]
    omega

theorem RoomListResponse.encode_length {p : RoomListResponse} {b : Bytes} (h : p.encode = some b) :
    b.length ≤ 4092 := by
  simp only [RoomListResponse.encode] at h
  split at h
  · cases h
  split at h
  · cases h
  split at h
  · cases h
  · obtain ⟨w, -, hfin⟩ := Option.bind_eq_some_iff.mp h
    exact Writer.finish_length hfin

theorem RoomMemberNotification.encode_length {p : RoomMemberNotification} {b : Bytes}
    (h : p.encode = some b) : b.length ≤ 4092 := by
  simp only [RoomMemberNotification.encode] at h
  split at h
  · cases h
  · obtain ⟨w, -, hfin⟩ := Option.bind_eq_some_iff.mp h
    exact Writer.finish_length hfin

theorem RoomStateNotification.encode_length {p : RoomStateNotification} {b : Bytes}
    (h : p.encode = some b) : b.length ≤ 4092 := by
  simp only [RoomStateNotification.encode] at h
  split at h
  · cases h
  · obtain ⟨w, -, h⟩ := Option.bind_eq_some_iff.mp h
    obtain ⟨w', -, hfin⟩ := Option.bind_eq_some_iff.mp h
    exact Writer.finish_length hfin

theorem GameMoveNotification.encode_length {p : GameMoveNotification} {b : Bytes}
    (h : p.encode = some b) : b.length ≤ 4092 := by
  simp only [GameMoveNotification.encode] at h
  split at h
  · cases h
  · exact Writer.finish_length h

theorem GameEndNotification.encode_length {p : GameEndNotification} {b : Bytes}
    (h : p.encode = some b) : b.length ≤ 4092 := by
  simp only [GameEndNotification.encode] at h
  split at h
  · cases h
  · exact Writer.finish_length h

/-- A body is no longer than an encoding if `Decode` accepts nothing but encodings. -/
theorem decoded_length {α : Type} {encode : α → Option Bytes} {decode : Bytes → Except Fault α}
    {f : α → Notice} {b : Bytes} (hdecode : ∀ p, decode b = .ok p → encode p = some b)
    (hlength : ∀ p, encode p = some b → b.length ≤ 4092)
    (h : Notice.ofDecoded f (decode b) ≠ .garbled) : b.length ≤ 4092 := by
  cases e : decode b with
  | error fault =>
    rw [e] at h
    exact absurd rfl h
  | ok p => exact hlength p (hdecode p e)

/-- One of the cases of `ProcessResponse`. -/
theorem short_ite {c : Prop} [Decidable c] {read later : Notice} {body : Bytes}
    (hread : read ≠ .garbled → body.length ≤ 4092) (hlater : later ≠ .garbled → body.length ≤ 4092) :
    (if c then read else later) ≠ .garbled → body.length ≤ 4092 := by
  split
  · exact hread
  · exact hlater

theorem ClientPacket.notice_length {packet : ClientPacket} (h : packet.notice ≠ .garbled)
    (hecho : packet.packetId ≠ echoRes) : packet.body.length ≤ 4092 := by
  obtain ⟨packetId, body⟩ := packet
  revert h
  dsimp only at hecho ⊢
  rw [notice, if_neg hecho]
  refine short_ite (@decoded_length _ (fun p => some (LoginResponse.encode p)) _ _ _
    (fun p e => congrArg some ((LoginResponse.decode_iff body p).mp e))
    (fun p e => by rw [← Option.some.inj e]; simp [LoginResponse.encode])) ?_
  refine short_ite (@decoded_length _ (fun p => some (ChatResponse.encode p)) _ _ _
    (fun p e => congrArg some ((ChatResponse.decode_iff body p).mp e))
    (fun p e => by rw [← Option.some.inj e]; simp [ChatResponse.encode])) ?_
  refine short_ite (decoded_length (fun p => ChatNotification.encode_decode)
    (fun p => ChatNotification.encode_length)) ?_
  refine short_ite (decoded_length (fun p => (RoomListResponse.decode_iff body p).mp)
    (fun p => RoomListResponse.encode_length)) ?_
  refine short_ite (decoded_length (fun p e => ((RoomActionResponse.decode_iff body p).mp e).1)
    (fun p => Writer.finish_length)) ?_
  refine short_ite (decoded_length (fun p => (RoomMemberNotification.decode_iff body p).mp)
    (fun p => RoomMemberNotification.encode_length)) ?_
  refine short_ite (decoded_length (fun p => (RoomStateNotification.decode_iff body p).mp)
    (fun p => RoomStateNotification.encode_length)) ?_
  refine short_ite (decoded_length (fun p => (GameMoveResponse.decode_iff body p).mp)
    (fun p => Writer.finish_length)) ?_
  refine short_ite (decoded_length (fun p => (GameMoveNotification.decode_iff body p).mp)
    (fun p => GameMoveNotification.encode_length)) ?_
  refine short_ite (decoded_length (fun p => (GameMoveResponse.decode_iff body p).mp)
    (fun p => Writer.finish_length)) ?_
  refine short_ite (decoded_length (fun p => (GameEndNotification.decode_iff body p).mp)
    (fun p => GameEndNotification.encode_length)) ?_
  exact fun hnone => absurd rfl hnone

theorem SentPacket.readable_of {packet : SentPacket} (h : packet.packet.notice ≠ .garbled)
    (hecho : packet.packetId ≠ echoRes) : packet.Readable :=
  ⟨ClientPacket.notice_length h hecho, h⟩

/-! ## What the handlers send is read -/

def Legible (packets : List SentPacket) : Prop :=
  ∀ packet ∈ packets, packet.packet.notice ≠ .garbled

theorem Legible.append {a b : List SentPacket} (ha : Legible a) (hb : Legible b) :
    Legible (a ++ b) := by
  intro packet h
  rcases List.mem_append.mp h with h | h
  · exact ha packet h
  · exact hb packet h

theorem Legible.cons {s : SessionId} {rid : UInt16} {body : Bytes} {packets : List SentPacket}
    (h : (⟨rid, body⟩ : ClientPacket).notice ≠ .garbled) (hrest : Legible packets) :
    Legible (⟨s, rid, body⟩ :: packets) := by
  intro packet hpacket
  rcases List.mem_cons.mp hpacket with rfl | hpacket
  · exact h
  · exact hrest packet hpacket

theorem legible_nil : Legible [] := by simp [Legible]

theorem legible_toAll {targets : List SessionId} {packetId : UInt16} {body : Bytes}
    (h : (⟨packetId, body⟩ : ClientPacket).notice ≠ .garbled) :
    Legible (toAll targets packetId body) := by
  intro packet hpacket
  obtain ⟨target, -, rfl⟩ := List.mem_map.mp hpacket
  exact h

theorem legible_memberOuts (m : RoomManager) (r : RoomId) (change : RoomMemberChange)
    (nickname : Bytes) : Legible (memberOuts m r change nickname) := by
  intro packet h
  rw [(memberOuts_other h).2]
  decide

theorem legible_stateOuts (m : RoomManager) (r : RoomId) : Legible (stateOuts m r) := by
  unfold stateOuts
  split
  · exact legible_nil
  split
  · exact legible_nil
  · rename_i body hbody
    obtain ⟨notification, -, hencode⟩ := Option.bind_eq_some_iff.mp hbody
    refine legible_toAll ?_
    rw [RoomStateNotification.notice hencode]
    exact Notice.noConfusion

theorem legible_moveOuts (m : RoomManager) (move : AcceptedMove) : Legible (moveOuts m move) := by
  unfold moveOuts
  split
  · exact legible_nil
  split
  · exact legible_nil
  · rename_i body hbody
    refine legible_toAll ?_
    rw [GameMoveNotification.notice hbody]
    exact Notice.noConfusion

theorem legible_flushOuts (m : RoomManager) : Legible (flushOuts m) := by
  intro packet h
  obtain ⟨finished, -, h⟩ := List.mem_flatMap.mp h
  have hend : Legible (endOuts finished) := by
    unfold endOuts
    split
    · exact legible_nil
    · rename_i body hbody
      refine legible_toAll ?_
      rw [GameEndNotification.notice hbody]
      exact Notice.noConfusion
  exact hend.append (legible_stateOuts m finished.room) packet h

theorem Handled.legible {host : Host} {m m' : RoomManager} {event : NetworkEvent} {rid : UInt16}
    {packets : List SentPacket} (h : Handled host m event rid packets m') : Legible packets := by
  have hread : ∀ {body : Bytes}, (⟨rid, body⟩ : ClientPacket).notice = .other →
      (⟨rid, body⟩ : ClientPacket).notice ≠ .garbled := by
    intro body hplain
    rw [hplain]
    exact Notice.noConfusion
  have hroom : ∀ m r change nickname, Legible (memberOuts m r change nickname ++ stateOuts m r) :=
    fun m r change nickname =>
      (legible_memberOuts m r change nickname).append (legible_stateOuts m r)
  cases h with
  | idle hplain => exact .cons (hread hplain) legible_nil
  | answered hplain => exact .cons (hread hplain) legible_nil
  | created hplain => exact .cons (hread hplain) (hroom _ _ _ _)
  | entered hplain => exact .cons (hread hplain) (hroom _ _ _ _)
  | readied _ _ hplain => exact .cons (hread hplain) (legible_stateOuts _ _)
  | started _ _ hplain => exact .cons (hread hplain) (legible_stateOuts _ _)
  | moved hplain => exact .cons (hread hplain) (legible_moveOuts _ _)
  | left hleft =>
    refine (legible_flushOuts _).append (.cons ?_ (hroom _ _ _ _))
    rw [hleft]
    exact Notice.noConfusion
  | stayed hplain => exact (legible_flushOuts _).append (.cons (hread hplain) legible_nil)

theorem Deed.legible {host : Host} {asked : NetworkEvent → Prop} {m m' : RoomManager}
    {packets : List SentPacket} (h : Deed host asked m packets m') : Legible packets := by
  cases h with
  | quiet hother =>
    intro packet hpacket
    rw [hother packet hpacket]
    exact Notice.noConfusion
  | handled _ h => exact h.legible
  | forgotten => exact legible_flushOuts _
  | gone =>
    exact (legible_flushOuts _).append
      ((legible_memberOuts _ _ _ _).append (legible_stateOuts _ _))
  | swept => exact legible_flushOuts _

/-! ## One step -/

/-- What a step sends is read by the client. -/
theorem Network.Emits.readable {n n' : Network} {packets : List SentPacket}
    (h : Network.Emits n packets n') (hr : ∀ packet ∈ packets, packet.Readable) :
    ∀ packet ∈ n'.sent, packet ∈ n.sent ∨ packet.Readable := by
  intro packet hpacket
  obtain ⟨new, e, hnew⟩ := h.sent
  rw [e] at hpacket
  rcases List.mem_append.mp hpacket with hold | hpacket
  · exact Or.inl hold
  · exact Or.inr (hr packet (hnew packet hpacket).1)

theorem Legible.readable {packets : List SentPacket} (h : Legible packets)
    (hecho : ∀ packet ∈ packets, packet.packetId ≠ echoRes) :
    ∀ packet ∈ packets, packet.Readable :=
  fun packet hpacket => SentPacket.readable_of (h packet hpacket) (hecho packet hpacket)

theorem Notifies.not_echo {packets : List SentPacket} (h : Notifies packets) :
    ∀ packet ∈ packets, packet.packetId ≠ echoRes := by
  intro packet hpacket e
  have hid := h packet hpacket
  rw [e] at hid
  exact absurd hid (by decide)

theorem Handled.not_echo {host : Host} {m m' : RoomManager} {event : NetworkEvent} {rid : UInt16}
    {packets : List SentPacket} (h : Handled host m event rid packets m') (hrid : rid ≠ echoRes) :
    ∀ packet ∈ packets, packet.packetId ≠ echoRes := by
  obtain ⟨before, body, after, rfl, hbefore, hafter⟩ := h.reply
  intro packet hpacket
  rcases List.mem_append.mp hpacket with hpacket | hpacket
  · exact hbefore.not_echo packet hpacket
  rcases List.mem_cons.mp hpacket with rfl | hpacket
  · exact hrid
  · exact hafter.not_echo packet hpacket

theorem responseId?_echo {packetId : UInt16} (h : responseId? packetId = some echoRes) :
    packetId = echoReq := by
  by_contra hne
  unfold responseId? at h
  rw [if_neg hne] at h
  -- no other row of the table has this answer
  have hrow : ∀ {p : Prop} [Decidable p] {a : UInt16} {o : Option UInt16}, a ≠ echoRes →
      o ≠ some echoRes → (if p then some a else o) ≠ some echoRes := by
    intro p _ a o ha ho
    by_cases hp : p
    · rw [if_pos hp]
      exact fun e => ha (Option.some.inj e)
    · rw [if_neg hp]
      exact ho
  refine absurd h ?_
  repeat (refine hrow (by decide) ?_)
  intro e
  cases e

namespace PacketProcessor
variable {host : Host} {p p' : PacketProcessor} {event : NetworkEvent}

/-- A chat request sends chat packets only. -/
theorem handleChat_sends (host : Host) (hok : p.rooms.Ok) (event : NetworkEvent) :
    ∃ packets, Network.Emits p.network packets (handleChat host p event).network ∧
      ∀ packet ∈ packets, packet.packetId = chatRes ∨ packet.packetId = chatNtf := by
  have h := handleChat_outcome host hok event
  generalize handleChat host p event = p' at h ⊢
  cases h with
  | dropped => exact ⟨[], Network.emits_disconnect _ _, by simp⟩
  | refused => exact ⟨_, Network.emits_deliver host _ _, by simp⟩
  | lost _ results =>
    refine ⟨_, Network.emits_deliver host _ _, fun packet hpacket => ?_⟩
    obtain ⟨result, -, rfl⟩ := List.mem_map.mp hpacket
    exact Or.inl rfl
  | told =>
    refine ⟨_, Network.emits_deliver host _ _, fun packet hpacket => ?_⟩
    rcases List.mem_cons.mp hpacket with rfl | hpacket
    · exact Or.inl rfl
    rcases List.mem_cons.mp hpacket with rfl | hpacket
    · exact Or.inl rfl
    · obtain ⟨target, -, rfl⟩ := List.mem_map.mp hpacket
      exact Or.inr rfl

theorem processPacket_readable (hok : p.rooms.Ok) (hbody : event.body.length ≤ 4092) {now : Time}
    (h : processPacket host p event now = .ok p') :
    ∀ packet ∈ p'.network.sent, packet ∈ p.network.sent ∨ packet.Readable := by
  obtain ⟨p1, e, hresponds⟩ : ∃ p1, processPacket host p event now = .ok p1 ∧
      Responds host p event p1 := processPacket_responds hok now
  rw [e] at h
  cases h
  by_cases hecho : event.packetId = echoReq
  · -- the answer to an echo is its own body
    have hhandled : processPacket host p event now = .ok (handleEcho host p event) :=
      processPacket_handler (by rw [hecho]; decide) (by rw [hecho]; rfl)
    rw [hhandled, Except.ok.injEq] at e
    rw [← e, handleEcho, sendOrDisconnect_eq]
    refine (Network.emits_deliver host _ _).readable fun packet hpacket => ?_
    rw [List.mem_singleton.mp hpacket]
    exact ⟨hbody, Notice.noConfusion⟩
  · cases hresponds with
    | dropped _ _ hnetwork =>
      rw [hnetwork]
      exact (Network.emits_disconnect _ _).readable (by simp)
    | handled hrid _ hdone hnetwork =>
      rw [hnetwork]
      exact (Network.emits_deliver host _ _).readable
        (hdone.legible.readable (hdone.not_echo fun e => hecho (responseId?_echo (e ▸ hrid))))
    | @chatted packets hid _ _ hnetwork hother =>
      rw [processPacket_chat hid, Except.ok.injEq] at e
      obtain ⟨chats, hemits, hids⟩ := handleChat_sends host hok event
      rw [e] at hemits
      intro packet hpacket
      obtain ⟨new, hsent, hnew⟩ := hemits.sent
      obtain ⟨new', hsent', hnew'⟩ := (Network.emits_deliver host packets p.network).sent
      -- both lists describe the packets that were taken
      obtain rfl : new = new' := by
        rw [hnetwork, hsent'] at hsent
        exact (List.append_cancel_left hsent).symm
      rw [hsent] at hpacket
      rcases List.mem_append.mp hpacket with hold | hpacket
      · exact Or.inl hold
      · refine Or.inr (SentPacket.readable_of ?_ ?_)
        · rw [hother packet (hnew' packet hpacket).1]
          exact Notice.noConfusion
        · rcases hids packet (hnew packet hpacket).1 with e | e <;> rw [e] <;> decide

theorem handleEvent_readable (hok : p.rooms.Ok) (hbody : event.body.length ≤ 4092)
    {loginNow gameNow : Time} (h : p.handleEvent host event loginNow gameNow = .ok p') :
    ∀ packet ∈ p'.network.sent, packet ∈ p.network.sent ∨ packet.Readable := by
  cases handleEvent_takes h with
  | skipped => exact fun packet hpacket => Or.inl hpacket
  | opened => exact fun packet hpacket => Or.inl hpacket
  | closed _ hclosed =>
    obtain ⟨p1, packets, e, hdeed, hnetwork, hnotifies⟩ :=
      handleDisconnected_deed host (fun _ => True) p hok event.session gameNow
    obtain rfl := Except.ok.inj (e.symm.trans hclosed)
    rw [hnetwork]
    exact (Network.emits_deliver host _ _).readable (hdeed.legible.readable hnotifies.not_echo)
  | late => exact (Network.emits_disconnect _ _).readable (by simp)
  | served _ _ _ hserved => exact processPacket_readable hok hbody hserved

end PacketProcessor

theorem ServerStep.readable {host : Host} {c c' : Server} {l : Input} (hc : c.Sound)
    (hbodies : ∀ event ∈ c.network.events, event.body.length ≤ 4092) (h : ServerStep host c l c') :
    ∀ packet ∈ c'.network.sent, packet ∈ c.network.sent ∨ packet.Readable := by
  cases l with
  | accept now =>
    cases h
    exact fun packet hpacket => Or.inl (Network.accept_sent (n := c.network) now ▸ hpacket)
  | receive s packetId body =>
    cases h
    exact fun packet hpacket =>
      Or.inl (Network.receive_sent (n := c.network) (s := s) packetId body ▸ hpacket)
  | close s =>
    cases h
    exact (Network.emits_disconnect _ s).readable (by simp)
  | beginUpdate traversal now =>
    obtain ⟨p', hp', rfl⟩ := Server.step_begin h
    obtain ⟨p1, packets, e, hdeed, hnetwork, -, hnotifies⟩ :=
      c.processor.sweepRooms_deed host (fun _ => True) hc.rooms traversal now
    obtain rfl := Except.ok.inj (e.symm.trans hp')
    show ∀ packet ∈ p1.network.sent, _
    rw [hnetwork]
    exact (Network.emits_deliver host _ _).readable (hdeed.legible.readable hnotifies.not_echo)
  | event loginNow gameNow =>
    obtain ⟨event, rest, p', hevents, hp', rfl⟩ := Server.step_event h
    have hbody := hbodies event (by rw [hevents]; exact List.mem_cons_self)
    have hsent := PacketProcessor.handleEvent_readable (by exact hc.rooms) hbody hp'
    exact hsent
  | endUpdate first second traversal now =>
    obtain ⟨p', hp', rfl⟩ := Server.step_end h
    obtain ⟨p1, packets, e, hdeed, hemits, -, hnotifies⟩ :=
      c.processor.endUpdate_deed host (fun _ => True) hc.rooms first second traversal now
    obtain rfl := Except.ok.inj (e.symm.trans hp')
    exact hemits.readable (hdeed.legible.readable hnotifies.not_echo)

/-! ## Runs -/

/-- The bodies that wait in the queue fit a packet. -/
theorem Network.Moves.bodies {n n' : Network} {taken : Option NetworkEvent}
    (h : Network.Moves n taken n') (hbodies : ∀ event ∈ n.events, event.body.length ≤ 4092) :
    ∀ event ∈ n'.events, event.body.length ≤ 4092 := by
  have hquits : ∀ {n1 : Network}, (∀ event ∈ n1.events, event.body.length ≤ 4092) →
      Network.Quits n1 n' → ∀ event ∈ n'.events, event.body.length ≤ 4092 := by
    intro n1 hold hq event hevent
    have hmine : event ∈ ofSession event.session n'.events := mem_ofSession.mpr ⟨hevent, rfl⟩
    rw [hq.queue] at hmine
    rcases List.mem_append.mp hmine with hmine | hmine
    · exact hold event (mem_ofSession.mp hmine).1
    · split at hmine
      · rw [List.mem_singleton.mp hmine]
        exact Nat.zero_le _
      · cases hmine
  cases h with
  | accepted now =>
    intro event hevent
    unfold Network.accept at hevent
    split at hevent
    · exact hbodies event hevent
    · rcases List.mem_append.mp hevent with hevent | hevent
      · exact hbodies event hevent
      · rw [List.mem_singleton.mp hevent]
        exact Nat.zero_le _
  | received s packetId body =>
    intro event hevent
    unfold Network.receive at hevent
    split at hevent
    · exact hbodies event hevent
    · rename_i hfits
      rcases List.mem_append.mp hevent with hevent | hevent
      · exact hbodies event hevent
      · rw [List.mem_singleton.mp hevent]
        rw [Bool.or_eq_true, not_or] at hfits
        exact Nat.le_of_not_lt fun hlt => hfits.2 (decide_eq_true hlt)
  | quit hq => exact hquits hbodies hq
  | popped hpop hq =>
    refine hquits (fun event hevent => hbodies event ?_) hq
    rw [hpop]
    exact List.mem_cons_of_mem _ hevent

theorem ServerRun.readable {host : Host} {timeout : Time} {p : PacketProcessor}
    (hp : PacketProcessor.make {} timeout = .ok p) {history : List (Entry Server Input)}
    {c : Server} (hrun : ServerRun host p history c) :
    (∀ event ∈ c.network.events, event.body.length ≤ 4092) ∧
      ∀ packet ∈ c.network.sent, packet.Readable := by
  induction hrun with
  | start =>
    have hnetwork : p.network = {} := (PacketProcessor.make_eq hp).2
    show (∀ event ∈ p.network.events, _) ∧ ∀ packet ∈ p.network.sent, _
    simp [hnetwork]
  | @snoc history c c' l before taken ih =>
    have hc := ServerRun.sound hp before
    refine ⟨(taken.moves hc).bodies ih.1, fun packet hpacket => ?_⟩
    rcases taken.readable hc ih.1 packet hpacket with hold | hnew
    · exact ih.2 packet hold
    · exact hnew

/-! ## No encoding fails -/

/-- Every response and notification that the server may encode from `m` can be encoded. -/
structure RoomManager.Encodes (host : Host) (m : RoomManager) : Prop where
  /-- `SendRoomActionResult`. -/
  action : ∀ response : RoomActionResponse, response.encode.isSome = true
  /-- `SendGameMoveResult` and `HandleGameResign`. -/
  result : ∀ response : GameMoveResponse, response.encode.isSome = true
  /-- `HandleRoomList`, for a user in the lobby. -/
  list : ∀ afterRoomId : RoomId, (RoomListResponse.encode
    { rooms := (m.getRoomsAfter afterRoomId).1
      hasMore := (m.getRoomsAfter afterRoomId).2 }).isSome = true
  /-- `HandleRoomList`, for anyone else. -/
  listRefused : ∀ result : RoomResult, (RoomListResponse.encode { result := result }).isSome = true
  /-- `NotifyRoomMember`, for the nickname of a user, who may have left since. -/
  member : ∀ (r : RoomId) (room : Room) (change : RoomMemberChange) (nickname : Bytes),
    m.find r = some room → UserManager.isValidNickname nickname = true →
      (RoomMemberNotification.encode ⟨r, change, nickname⟩).isSome = true
  nickname : ∀ (s : SessionId) (u : User), m.users.find s = some u →
    UserManager.isValidNickname u.nickname = true
  /-- `NotifyRoomState`. -/
  state : ∀ (r : RoomId) (room : Room), m.find r = some room →
    ((PacketProcessor.roomState m r room).bind RoomStateNotification.encode).isSome = true
  /-- `HandleChat`. -/
  chat : ∀ (s : SessionId) (u : User) (message : Bytes), m.users.find s = some u →
    PacketProcessor.isValidChatMessage host message = true →
      (ChatNotification.encode ⟨u.nickname, message⟩).isSome = true
  /-- `HandleGameMove`. -/
  move : ∀ (s : SessionId) (r : RoomId) (g : GameId) (x y : Int) (out move : AcceptedMove)
    (now : Time) (m' : RoomManager), m.placeStone s r g x y out now = .ok (.success, move, m') →
      (PacketProcessor.gameMove move).encode.isSome = true
  /-- `FlushFinishedGames`. -/
  ended : ∀ finished ∈ m.finishedGames, (PacketProcessor.gameEnd finished).encode.isSome = true

theorem isSome_of_some {α : Type} {o : Option α} (h : ∃ a, o = some a) : o.isSome = true :=
  Option.isSome_iff_exists.mpr h

theorem RoomMemberNotification.encode_some {p : RoomMemberNotification} (hroom : p.roomId ≠ 0)
    (hname : p.nickname ≠ [] ∧ p.nickname.length ≤ maxNicknameBytes) :
    ∃ body, p.encode = some body := by
  have hlength : p.nickname.length ≤ 16 := hname.2
  have hok : ¬ (p.roomId = 0 ∨ p.nickname = [] ∨ p.nickname.length > maxNicknameBytes) := by
    simp only [not_or, hroom, hname.1, not_false_eq_true, true_and]
    exact Nat.not_lt.mpr hname.2
  simp only [RoomMemberNotification.encode, if_neg hok, Option.bind_eq_bind,
    Writer.text8_some _ (by omega : p.nickname.length ≤ 255), Option.bind_some]
  exact ⟨_, Writer.finish_some (by simp; omega)⟩

namespace RoomManager
variable {m : RoomManager}

theorem Ok.move_encodes (h : m.Ok) {s : SessionId} {r : RoomId} {g : GameId} {x y : Int}
    {out move : AcceptedMove} {now : Time} {m' : RoomManager}
    (e : m.placeStone s r g x y out now = .ok (.success, move, m')) :
    (PacketProcessor.gameMove move).encode.isSome = true := by
  rcases placeStone_spec h.wellFormed s r g x y out now with
    ⟨result, hr, e'⟩ | ⟨u, room, hseat, -, hg, hgame, ⟨-, e'⟩ | ⟨-, -, hacc, e'⟩⟩
  · rw [e'] at e
    cases e
    exact absurd rfl hr.1
  · rw [e'] at e
    cases e
  · rw [e'] at e
    cases e
    exact isSome_of_some (GameMoveNotification.encode_some (gameMove_valid
      (h.wellFormed.stored hseat.here).2.1 (hgame ▸ hg) (h.wellFormed.room hseat.here).sound hacc))

theorem Ok.encodes (h : m.Ok) (host : Host) : m.Encodes host where
  action response := isSome_of_some (RoomActionResponse.encode_some response)
  result response := isSome_of_some (GameMoveResponse.encode_some response)
  list afterRoomId := isSome_of_some (h.wellFormed.page_encodes afterRoomId)
  listRefused result := by cases result <;> rfl
  member r room change nickname hr hname :=
    isSome_of_some (RoomMemberNotification.encode_some (h.wellFormed.stored hr).2.1
      (nickname_length hname))
  nickname s u hu := (h.wellFormed.user hu).2.2
  state r room hr := by
    obtain ⟨notification, body, hstate, hbody, -⟩ := h.wellFormed.roomState_spec hr
    rw [hstate, Option.bind_some, hbody]
    rfl
  chat s u message hu hvalid :=
    isSome_of_some (PacketProcessor.chatNotification_encodes
      (p := { PacketProcessor.fresh with rooms := m }) h hu hvalid)
  move s r g x y out move now m' e := h.move_encodes e
  ended finished hf := isSome_of_some (GameEndNotification.encode_some (h.valid finished hf).encodes)

end RoomManager

theorem CallStep.ok {wideChars : Bytes → Nat} {c c' : Managed} {l : Call × Answer}
    (h : CallStep wideChars c l c') (hc : c.WellFormed) (hok : c.manager.Ok) : c'.manager.Ok := by
  have he := hc.manager.call_effect h.returned
  have hallowed := h.allowed
  obtain ⟨l, a⟩ := l
  dsimp only at he hallowed
  by_cases hpop : l = .tryPopFinishedGame
  · subst hpop
    generalize c'.manager = m' at he ⊢
    cases he with
    | refused => exact hok
    | popped hq => exact @RoomManager.Ok.announced _ hok [_] _ hq
    | expired hl => cases hl
  · refine he.ok hok hpop ?_ ?_
    · rintro s nickname rfl
      simpa [Managed.allows] using hallowed
    · rintro s rfl
      exact hc.leaving s (by simpa [Managed.allows] using hallowed)

/-! ## Every packet of every run -/

/-- In the step `l` from `c` the packet is given to `SendPacket`: for some answers of the network
to the sends of that step it is among the packets that were taken. -/
def Server.Hands (host : Host) (c : Server) (l : Input) (packet : SentPacket) : Prop :=
  ∃ accepts c', ServerStep { host with accepts := accepts } c l c' ∧ packet ∈ c'.network.sent

/-- Whatever is given to `SendPacket` in a run can be read by the client, and every `Encode` of the
server succeeds: in the states of the run and in those that calls lead to from there, as between
the calls of one handler. -/
theorem packets_readable {host : Host} {timeout : Time} {p : PacketProcessor}
    {history : List (Entry Server Input)} {c : Server}
    (hp : PacketProcessor.make {} timeout = .ok p) (hrun : ServerRun host p history c) :
    (∀ l packet, c.Hands host l packet → packet.Readable) ∧
      ∀ calls d, Run (CallStep host.multiByteToWideChar) { manager := c.rooms } calls d →
        d.manager.Encodes host := by
  have hc := ServerRun.sound hp hrun
  obtain ⟨hbodies, hsent⟩ := ServerRun.readable hp hrun
  constructor
  · intro l packet hhands
    obtain ⟨accepts, c', hstep, hpacket⟩ := hhands
    rcases hstep.readable hc hbodies packet hpacket with hold | hnew
    · exact hsent packet hold
    · exact hnew
  · intro calls d hcalls
    have hd : d.WellFormed ∧ d.manager.Ok := hcalls.invariant
      (P := fun d => d.WellFormed ∧ d.manager.Ok) ⟨hc.managed, hc.rooms⟩
      fun _ _ _ hm hstep => ⟨hstep.wellFormed hm.1, hstep.ok hm.1 hm.2⟩
    exact hd.2.encodes host

theorem packets_readable_move : ∃ history c packet,
    ServerRun Host.ascii PacketProcessor.fresh history c ∧ packet.packetId = gameMoveNtf ∧
      c.Hands Host.ascii (.event 0 0) packet ∧ packet.Readable ∧ c.rooms.Encodes Host.ascii := by
  obtain ⟨history, c, hrun, hcheck⟩ := ServerRun.played Host.ascii PacketProcessor.fresh
    (playingInputs ++ [.receive 1 gameMoveReq ((GameMoveRequest.encode ⟨1, 1, 7, 7⟩).getD [])])
    (fun _ c => (c.next Host.ascii (.event 0 0)).any fun c' =>
      c'.network.sent.any fun packet => packet.packetId == gameMoveNtf) (by decide +kernel)
  obtain ⟨c', hc', hany⟩ := (Option.any_eq_true _ _).mp hcheck
  obtain ⟨packet, hpacket, hid⟩ := List.any_eq_true.mp hany
  have hhands : c.Hands Host.ascii (.event 0 0) packet :=
    ⟨Host.ascii.accepts, c', Server.step_of_next hc', hpacket⟩
  obtain ⟨hread, hencode⟩ := packets_readable PacketProcessor.make_fresh hrun
  exact ⟨history, c, packet, hrun, beq_iff_eq.mp hid, hhands, hread _ _ hhands,
    hencode [] _ Run.start⟩

end SelectServer
