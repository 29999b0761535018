import SelectServer.Broadcasts
import SelectServer.ServerCalls
import SelectServer.WorldOrigins

/- Nobody speaks for another, across the whole system. The name under which a chat
   message is shown is that of its sender's login, which the server keeps for the
   session (`ServerStep.named`), and the message is the one of the request that is
   handled then (`ServerStep.chatted`). So whoever is shown a message has been in a
   room with a player who typed both, the name and the message (`chats_typed`). -/
namespace SelectServer
open Wire (Bytes)
open Histories

/-! ## Names -/

/-- The name under which a session is logged in. -/
def RoomManager.loginName (m : RoomManager) (s : SessionId) : Option Bytes :=
  (m.users.users[s]?).map User.nickname

/-- Two sessions are in one room. -/
def RoomManager.Together (m : RoomManager) (s s' : SessionId) : Prop :=
  ∃ (r : RoomId) (room : Room), m.rooms[r]? = some room ∧ s ∈ room.members ∧ s' ∈ room.members

theorem UserManager.add_nickname {m : UserManager} {s' s : SessionId} {nickname n : Bytes}
    (hnew : m.users[s']? = none)
    (hn : ((m.add s' nickname).users[s]?).map User.nickname = some n) :
    (m.users[s]?).map User.nickname = some n ∨ (s' = s ∧ nickname = n) := by
  unfold UserManager.add at hn
  by_cases hs : s' = s
  · subst hs
    have huser : (m.users.insertIfNew s' { session := s', nickname := nickname })[s']? =
        some { session := s', nickname := nickname } := by
      rw [Std.ExtTreeMap.getElem?_insertIfNew]
      have hmem : s' ∉ m.users := by simpa using hnew
      simp [hmem]
    dsimp only at hn
    rw [huser] at hn
    exact .inr ⟨rfl, Option.some.inj hn⟩
  · have huser : (m.users.insertIfNew s' { session := s', nickname := nickname })[s]? =
        m.users[s]? := by
      grind
    dsimp only at hn
    rw [huser] at hn
    exact .inl hn

section Calls
variable {wideChars : Bytes → Nat} {m m' : RoomManager} {s : SessionId} {n : Bytes}

/-- Only a login gives a name to a session. -/
theorem Effect.named {l : Call} {a : Answer} (he : Effect wideChars m l a m')
    (hn : m'.loginName s = some n) : m.loginName s = some n ∨ l = .login s n := by
  by_cases hlogin : ∃ s' nickname, l = .login s' nickname
  · obtain ⟨s', nickname, rfl⟩ := hlogin
    cases he with
    | refused => exact .inl hn
    | expired hactor => cases hactor
    | loggedIn hnew =>
      rcases UserManager.add_nickname hnew hn with hold | ⟨rfl, rfl⟩
      · exact .inl hold
      · exact .inr rfl
  by_cases hremove : ∃ s', l = .remove s'
  · obtain ⟨s', rfl⟩ := hremove
    cases he with
    | refused => exact .inl hn
    | expired hactor => cases hactor
    | removed =>
      unfold RoomManager.loginName at hn ⊢
      dsimp only at hn
      unfold UserManager.remove at hn
      split at hn
      · exact .inl hn
      · by_cases hs : s' = s
        · subst hs
          simp at hn
        · refine .inl ?_
          dsimp only at hn
          rw [Std.ExtTreeMap.getElem?_erase] at hn
          simpa [hs] using hn
  · have hsame := he.sameNames (fun s' nickname e => hlogin ⟨s', nickname, e⟩)
      fun s' e => hremove ⟨s', e⟩
    unfold RoomManager.loginName at hn ⊢
    rw [hsame.names s] at hn
    exact .inl hn

/-- A name after some calls was there before them, or one of them was the login. -/
theorem calls_named {history : List (Entry Managed (Call × Answer))} {c c' : Managed}
    (hrun : Run (CallStep wideChars) c history c') (hc : c.WellFormed)
    (hn : c'.manager.loginName s = some n) :
    c.manager.loginName s = some n ∨ ∃ e ∈ history, e.label.1 = .login s n := by
  have hsource := hrun.brought (P := fun c => c.manager.loginName s = some n)
    (Q := fun e => e.label.1 = .login s n) ?_ hn
  · rcases hsource with hfirst | ⟨before, e, after, rfl, -, -, hlogin⟩
    · exact .inl hfirst
    · exact .inr ⟨e, List.mem_append_right _ (List.mem_cons_self ..), hlogin⟩
  · intro before c1 l c2 hbefore taken hn
    have hc1 : c1.WellFormed :=
      hbefore.invariant (P := Managed.WellFormed) hc fun _ _ _ h step => step.wellFormed h
    exact (hc1.manager.call_effect taken.returned).named hn

end Calls

/-! ## Steps of the server -/

section Steps
variable {host : Host} {c c' : Server} {l : Input} {s : SessionId} {n : Bytes}

/-- A name after a step was there before it, or the step handles the login that gives it. -/
theorem ServerStep.named (hc : c.Sound) (h : ServerStep host c l c')
    (hn : c'.rooms.loginName s = some n) :
    c.rooms.loginName s = some n ∨ ∃ loginNow now event rest, l = .event loginNow now ∧
      c.network.events = event :: rest ∧ event.type = .packet ∧ event.session = s ∧
        Request.decode event.packetId event.body = some (.login ⟨n⟩) := by
  obtain ⟨pops, hmakes⟩ := h.calls hc
  obtain ⟨made, leaving, hrun, hlabels⟩ := hmakes none
  rcases calls_named hrun ⟨hc.rooms.wellFormed, fun _ e => by cases e⟩ hn with
    hold | ⟨e, he, hlogin⟩
  · exact .inl hold
  -- a login is no pop, so it is the call that the request of the step stands for
  have hmem : .login s n ∈ c.calls l ++ List.replicate pops .tryPopFinishedGame := by
    rw [← hlabels, ← hlogin]
    exact List.mem_map_of_mem he
  have hcalled : .login s n ∈ c.calls l := by
    rcases List.mem_append.mp hmem with hmem | hmem
    · exact hmem
    · cases List.eq_of_mem_replicate hmem
  obtain ⟨-, loginNow, now, event, rest, request, hl, hevents, htype, hdecode, hcall⟩ :=
    Server.calls_requested hcalled (by simp) (by simp) (by simp)
  refine .inr ⟨loginNow, now, event, rest, hl, hevents, htype, ?_⟩
  cases request with
  | login request =>
    obtain ⟨⟩ := hcall
    exact ⟨rfl, hdecode⟩
  | roomLeave =>
    unfold Request.call? at hcall
    dsimp only at hcall
    split at hcall
    · cases hcall
    · cases hcall
  | _ => cases hcall

/-- The packets that carry chat messages are made for the messages. -/
theorem Proper.chat {asked : NetworkEvent → Prop}
    {played : RoomId → GameId → SessionId → SessionId → Prop} {m : RoomManager} {e : Emission}
    (h : Proper host asked played m e) (hid : e.packetId = chatNtf) :
    ∃ event sender room, asked event ∧ event.packetId = chatReq ∧
      m.users.users[event.session]? = some sender ∧ m.rooms[sender.roomId]? = some room ∧
        event.session ∈ room.members ∧ e.recipients = room.members ∧
          ChatNotification.encode ⟨sender.nickname, event.body⟩ = some e.body := by
  cases h with
  | @reply event rid body _ hrid =>
    have hid : rid = chatNtf := hid
    rw [hid] at hrid
    exact absurd (by decide) (responseId?_response event.packetId chatNtf hrid)
  | member => exact absurd (show roomMemberNtf = chatNtf from hid) (by decide)
  | state => exact absurd (show roomStateNtf = chatNtf from hid) (by decide)
  | moved => exact absurd (show gameMoveNtf = chatNtf from hid) (by decide)
  | result => exact absurd (show gameEndNtf = chatNtf from hid) (by decide)
  | chatted hasked hreq hu hr hmem _ hbody =>
    exact ⟨_, _, _, hasked, hreq, hu, hr, hmem, rfl, hbody⟩

/-- A chat message that has been sent after a step was sent before it, or it is that of the request
that the step handles, with the name of its sender, for someone in the sender's room. -/
theorem ServerStep.chatted {timeout : Time} {p : PacketProcessor}
    {history : List (Entry Server Input)} (hp : PacketProcessor.make {} timeout = .ok p)
    (hrun : ServerRun host p history c) (h : ServerStep host c l c') {packet : SentPacket}
    (hpacket : packet ∈ c'.network.sent) (hid : packet.packetId = chatNtf) :
    packet ∈ c.network.sent ∨ ∃ event sender room, c.Asked l event ∧ event.packetId = chatReq ∧
      c'.rooms.users.users[event.session]? = some sender ∧
        c'.rooms.rooms[sender.roomId]? = some room ∧
          (event.session ∈ room.members ∧ packet.session ∈ room.members) ∧
            ChatNotification.encode ⟨sender.nickname, event.body⟩ = some packet.body := by
  obtain ⟨n1, packets, hsent, -, hnetwork, emissions, rfl, hproper⟩ := h.cast hp hrun
  rw [hnetwork] at hpacket
  rcases (Network.cuts_deliver host _ n1).sent hpacket with hold | hnew
  · rw [hsent] at hold
    exact .inl hold
  · obtain ⟨e, he, hcopy⟩ := List.mem_flatMap.mp hnew
    obtain ⟨target, htarget, rfl⟩ := List.mem_map.mp hcopy
    obtain ⟨event, sender, room, hasked, hreq, hu, hr, hmem, hrecipients, hbody⟩ :=
      (hproper e he).chat hid
    rw [hrecipients] at htarget
    exact .inr ⟨event, sender, room, hasked, hreq, hu, hr, ⟨hmem, htarget⟩, hbody⟩

end Steps

/-! ## The whole system -/

namespace World

/-- A player typed the name, and after that the server handled the login. -/
def NamedBy (history : List (Entry World WorldInput)) (player : SessionId) (nickname : Bytes) : Prop :=
  ∃ before login after now, history = before ++ login :: after ∧
    (∃ typed ∈ before, Types typed player (.login ⟨nickname⟩)) ∧
      Handles login player (.login ⟨nickname⟩) now

/-- The server handles the message of `player`, who is the one logged in under the name and in a room
with `s`. -/
def Says (e : Entry World WorldInput) (player s : SessionId) (nickname message : Bytes) : Prop :=
  (∃ now, Handles e player (.chat ⟨message⟩) now) ∧
    (∀ s', e.post.server.logic.rooms.loginName s' = some nickname ↔ s' = player) ∧
      e.post.server.logic.rooms.Together player s

/-- A player who had logged in under the name typed the message, and the server took it after that. -/
def Said (history : List (Entry World WorldInput)) (s : SessionId) (nickname message : Bytes) :
    Prop :=
  ∃ before taken after player, history = before ++ taken :: after ∧
    NamedBy before player nickname ∧ (∃ typed ∈ before, Types typed player (.chat ⟨message⟩)) ∧
      Says taken player s nickname message

variable {m : Bytes → Nat} {w w' : World} {app0 : ServerApp} {config : ServerConfig}
  {listening : Bool} {history : List (Entry World WorldInput)} {s : SessionId} {nickname : Bytes}

theorem step_named (hinit : ServerApp.init config listening = .ok (some app0))
    (hrun : WorldRun m app0 history w) {l : WorldInput} (htaken : WorldStep m w l w')
    (hn : w'.server.logic.rooms.loginName s = some nickname) :
    w.server.logic.rooms.loginName s = some nickname ∨
      ∃ now, Handles ⟨w, l, w'⟩ s (.login ⟨nickname⟩) now := by
  rcases step_logic hinit hrun htaken with ⟨hsame, -⟩ | ⟨host, _, p, past, input, hp, hpast, hstep, hl⟩
  · rw [hsame] at hn
    exact .inl hn
  rcases hstep.named (ServerRun.sound hp hpast) hn with
    hold | ⟨loginNow, now, event, rest, hevent, hhandled⟩
  · exact .inl hold
  · exact .inr ⟨now, loginNow, event, rest, hl _ _ hevent, hhandled⟩

/-- A name that is logged in was typed. -/
theorem run_named (hinit : ServerApp.init config listening = .ok (some app0))
    (hrun : WorldRun m app0 history w) (hn : w.server.logic.rooms.loginName s = some nickname) :
    NamedBy history s nickname := by
  have hsource := hrun.brought (P := fun w => w.server.logic.rooms.loginName s = some nickname)
    (Q := fun e => ∃ now, Handles e s (.login ⟨nickname⟩) now)
    (fun _ _ _ _ hbefore htaken => step_named hinit hbefore htaken) hn
  rcases hsource with hnone | ⟨before, e, after, rfl, hbefore, htaken, now, hhandles⟩
  · have hnone : app0.logic.rooms.loginName s = some nickname := hnone
    rw [(init_logic hinit).1] at hnone
    simp [RoomManager.loginName, RoomManager.fresh] at hnone
  · exact ⟨before, e, after, now, rfl, run_handles hinit hbefore htaken hhandles, hhandles⟩

/-- A chat message is sent for a request that stands for it. -/
theorem chat_request {event : NetworkEvent} {sender : User} {body : Bytes}
    (hreq : event.packetId = chatReq)
    (hbody : ChatNotification.encode ⟨sender.nickname, event.body⟩ = some body) :
    Request.decode event.packetId event.body = some (.chat ⟨event.body⟩) := by
  have hlength : event.body.length ≤ maxChatMessageBytes := by
    unfold ChatNotification.encode at hbody
    dsimp only at hbody
    split at hbody
    · cases hbody
    split at hbody
    · cases hbody
    · omega
  have hdecode : ChatRequest.decode event.body = .ok ⟨event.body⟩ := by
    have hmax : maxChatMessageBytes ≤ maxPacketSize - headerSize := by decide
    unfold ChatRequest.decode
    rw [if_neg (Nat.not_lt.mpr (hlength.trans hmax))]
  rw [hreq]
  show (ChatRequest.decode event.body).toOption.map Request.chat = _
  rw [hdecode]
  rfl

theorem step_says (hinit : ServerApp.init config listening = .ok (some app0))
    (hrun : WorldRun m app0 history w) {l : WorldInput} (htaken : WorldStep m w l w')
    {packet : SentPacket} (hpacket : packet ∈ w'.server.sent) (hid : packet.packetId = chatNtf)
    {notification : ChatNotification} (hread : ChatNotification.decode packet.body = .ok notification) :
    packet ∈ w.server.sent ∨
      ∃ player, Says ⟨w, l, w'⟩ player packet.session notification.nickname notification.message := by
  rcases step_logic hinit hrun htaken with ⟨-, hsame⟩ | ⟨host, _, p, past, input, hp, hpast, hstep, hl⟩
  · rw [hsame] at hpacket
    exact .inl hpacket
  rcases hstep.chatted hp hpast hpacket hid with
    hold | ⟨event, sender, room, hasked, hreq, hu, hr, ⟨hplayer, hs⟩, hbody⟩
  · exact .inl hold
  have hdecode := chat_request hreq hbody
  obtain rfl := Except.ok.inj ((ChatNotification.decode_encode hbody).symm.trans hread)
  obtain ⟨loginNow, now, network, hevent, hpop, hasked⟩ := hasked
  have hevents : w.server.network.events = event :: network.events := by
    have hpop : w.server.seen.network.tryPopEvent = some (event, network) := hpop
    unfold Network.tryPopEvent at hpop
    split at hpop
    · cases hpop
    · rename_i hevents
      cases hpop
      exact hevents
  have hwf := (hstep.sound (ServerRun.sound hp hpast)).rooms.wellFormed
  refine .inr ⟨event.session,
    ⟨now, loginNow, event, network.events, hl _ _ hevent, hevents, hasked.packet, rfl, hdecode⟩,
    fun s' => ⟨fun hn => ?_, fun hs' => ?_⟩, sender.roomId, room, hr, hplayer, hs⟩
  · -- two sessions of one name would be one under the index of the names
    obtain ⟨u, hu', hname⟩ := Option.map_eq_some_iff.mp hn
    have hindex := hwf.named hu'
    rw [hname, hwf.named hu] at hindex
    exact (Option.some.inj hindex).symm
  · subst hs'
    exact Option.map_eq_some_iff.mpr ⟨sender, hu, rfl⟩

/-- Whatever the server has sent as somebody's words was said. -/
theorem run_said (hinit : ServerApp.init config listening = .ok (some app0))
    (hrun : WorldRun m app0 history w) {packet : SentPacket} (hpacket : packet ∈ w.server.sent)
    (hid : packet.packetId = chatNtf) {notification : ChatNotification}
    (hread : ChatNotification.decode packet.body = .ok notification) :
    Said history packet.session notification.nickname notification.message := by
  have hsource := hrun.brought (P := fun w => packet ∈ w.server.sent)
    (Q := fun e => ∃ player,
      Says e player packet.session notification.nickname notification.message)
    (fun _ _ _ _ hbefore htaken hmem => step_says hinit hbefore htaken hmem hid hread) hpacket
  rcases hsource with hnone | ⟨before, e, after, rfl, hbefore, htaken, hsays⟩
  · have hnone : packet ∈ app0.sent := hnone
    rw [(init_logic hinit).2] at hnone
    cases hnone
  obtain ⟨player, ⟨now, hhandles⟩, hname, htogether⟩ := hsays
  -- the step has handled a chat message, so its player was logged in before
  have hnamed : NamedBy before player notification.nickname := by
    rcases step_named hinit hbefore htaken ((hname player).mpr rfl) with hold | ⟨now', hlogin⟩
    · exact run_named hinit hbefore hold
    · obtain ⟨_, event, rest, -, hevents, -, -, hdecode⟩ := hhandles
      obtain ⟨_, event', rest', -, hevents', -, -, hdecode'⟩ := hlogin
      obtain ⟨rfl, -⟩ := List.cons.inj (hevents.symm.trans hevents')
      cases hdecode.symm.trans hdecode'
  exact ⟨before, e, after, player, rfl, hnamed, run_handles hinit hbefore htaken hhandles,
    ⟨now, hhandles⟩, hname, htogether⟩

end World

open World

/-- In every run of the system, whenever a client is told that somebody says something, a player has
typed that name as a login and that message as a chat, and the server handled the message later, when
this player was the only one logged in under the name, and was in one room with the client's own. -/
theorem chats_typed {config : ServerConfig} {listening : Bool} {app0 : ServerApp}
    {m : Bytes → Nat} {history : List (Entry World WorldInput)} {w : World} {s : SessionId}
    {packet : ClientPacket} {notification : ChatNotification}
    (hinit : ServerApp.init config listening = .ok (some app0)) (hrun : WorldRun m app0 history w)
    (hheard : packet ∈ (w.links s).client.heard) (hid : packet.packetId = chatNtf)
    (hread : ChatNotification.decode packet.body = .ok notification) :
    Said history s notification.nickname notification.message := by
  have hsent := (run_carries hinit hrun s).heard.1.subset hheard
  obtain ⟨sent, hin, rfl⟩ := List.mem_map.mp hsent
  obtain ⟨hmem, hsession⟩ := List.mem_filter.mp hin
  have hsession : sent.session = s := of_decide_eq_true hsession
  have hsaid := run_said hinit hrun hmem hid hread
  rw [hsession] at hsaid
  exact hsaid

/-- Two players meet in a room, and the second says something. -/
def World.firstWords : List (World → WorldInput) :=
  [serverTurn 2] ++ serverUpdate 2 ++
    typed 1 ['l', 'o', 'g', 'i', 'n', ' ', 'a'] ++ typed 2 ['l', 'o', 'g', 'i', 'n', ' ', 'b'] ++
    typed 1 ['c', 'r', 'e', 'a', 't', 'e', ' ', 'r'] ++ typed 2 ['e', 'n', 't', 'e', 'r', ' ', '1'] ++
    typed 2 ['c', 'h', 'a', 't', ' ', 'h', 'i']

/-- The first player is told that `b` says `hi`. -/
def World.greeted (w : World) : Bool :=
  decide (⟨chatNtf, [1, 98, 0, 2, 104, 105]⟩ ∈ (w.links 1).client.heard)

theorem chats_typed_greeting : ∃ app0 history w, ServerApp.init {} true = .ok (some app0) ∧
    WorldRun (fun b => b.length) app0 history w ∧ w.greeted = true ∧
      Said history 1 [98] [104, 105] := by
  obtain ⟨app0, history, w, hinit, hrun, hheard⟩ :=
    scripted firstWords (fun _ w => w.greeted) ⟨_, rfl, by decide +kernel⟩
  have hsaid := chats_typed hinit hrun (of_decide_eq_true hheard) rfl
    (show ChatNotification.decode _ = .ok ⟨[98], [104, 105]⟩ from rfl)
  exact ⟨app0, history, w, hinit, hrun, hheard, hsaid⟩

end SelectServer
