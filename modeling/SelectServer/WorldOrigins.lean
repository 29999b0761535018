import SelectServer.WorldViews

/- Where things come from, across the whole system. A request that the logic handles
   is one that a player typed a line for before (`run_handles`), a step of the system
   is nothing to the logic or a step of its model (`step_logic`), and a packet that
   has been sent is new or old (`Cuts.sent`). -/
namespace SelectServer
open Wire (Bytes)
open Histories TcpNetwork

/-! ## What a client has asked for -/

namespace ClientApp
variable {c c' : ClientApp} {p : Payload}

theorem command_asked (c : ClientApp) (text : Bytes) (hp : p ∈ (c.command text).asked) :
    p ∈ c.asked ∨ ∃ request, Typed c.game text request ∧ Request.decode p.1 p.2 = some request := by
  unfold command processCommand at hp
  cases hread : readCommand text c.game with
  | stop =>
    rw [hread] at hp
    exact .inl hp
  | done =>
    rw [hread] at hp
    exact .inl hp
  | send packetId body =>
    rw [hread] at hp
    dsimp only at hp
    rcases c.tcp.sendPacket_cases (packetId, body) with e | ⟨hbody, e⟩
    · dsimp only at e
      rw [e] at hp
      exact .inl hp
    · dsimp only at e hbody
      rw [e] at hp
      rcases List.mem_append.mp hp with hp | hp
      · exact .inl hp
      · obtain ⟨request, htyped, hid, hencode⟩ := readCommand_typed hread
        have hdecode := Request.decode_encode hencode hbody
        rw [hid] at hdecode
        rw [List.mem_singleton.mp hp]
        exact .inr ⟨request, htyped, hdecode⟩

theorem turn_asked {os : ClientSockets} (h : c.turn os = some c') : c'.asked = c.asked := by
  obtain ⟨⟨fault, tcp⟩, -, hturn⟩ := Option.map_eq_some_iff.mp h
  cases fault with
  | some fault =>
    cases hturn
    rfl
  | none =>
    have hturn : respond tcp.packets { c with tcp := tcp } = c' := hturn
    rw [← hturn]
    have hrespond := respond_spec tcp.packets { c with tcp := tcp } rfl
    generalize respond tcp.packets { c with tcp := tcp } = c1 at hrespond
    cases hrespond with
    | all => rfl
    | refused _ _ _ hasked => exact hasked

/-- What is asked for after a step was asked for before it, or is what was typed. -/
theorem step_asked {l : ClientInput} (h : c.step l = some c') (hp : p ∈ c'.asked) :
    p ∈ c.asked ∨ ∃ text request, l = .line (some text) ∧ Typed c.game text request ∧
      Request.decode p.1 p.2 = some request := by
  unfold ClientApp.step at h
  split at h
  · cases h
  cases l with
  | inputFinished =>
    cases h
    exact .inl hp
  | run os =>
    rw [turn_asked h] at hp
    exact .inl hp
  | line text =>
    cases text with
    | none =>
      cases h
      exact .inl hp
    | some text =>
      cases h
      rcases c.command_asked text hp with hold | ⟨request, htyped, hdecode⟩
      · exact .inl hold
      · exact .inr ⟨text, request, rfl, htyped, hdecode⟩

end ClientApp

/-- What has been sent after some packets was sent before them, or is one of them. -/
theorem Network.Cuts.sent {n n' : Network} {packets : List SentPacket} (h : Network.Cuts n packets n')
    {packet : SentPacket} (hpacket : packet ∈ n'.sent) : packet ∈ n.sent ∨ packet ∈ packets := by
  obtain ⟨first, e, hfirst, -⟩ := h packet.session
  have hmem : packet ∈ toSession packet.session n'.sent :=
    List.mem_filter.mpr ⟨hpacket, by simp⟩
  rw [e] at hmem
  rcases List.mem_append.mp hmem with hold | hnew
  · exact .inl (List.mem_filter.mp hold).1
  · exact .inr (List.mem_filter.mp (hfirst.subset hnew)).1

namespace World

/-! ## Requests -/

/-- `player` types a line that stands for the request. -/
def Types (e : Entry World WorldInput) (player : SessionId) (request : Request) : Prop :=
  ∃ line, e.label = .client player (.line (some line)) ∧
    Typed (e.pre.links player).client.game line request

/-- The server handles a request of `player`, when the time is `now`. -/
def Handles (e : Entry World WorldInput) (player : SessionId) (request : Request) (now : Time) :
    Prop :=
  ∃ loginNow event rest, e.label = .server (.event loginNow now) ∧
    e.pre.server.network.events = event :: rest ∧ event.type = .packet ∧ event.session = player ∧
      Request.decode event.packetId event.body = some request

variable {m : Bytes → Nat} {w w' : World} {app0 : ServerApp} {config : ServerConfig}
  {listening : Bool} {history : List (Entry World WorldInput)}

/-- What a client has asked for was typed. -/
theorem run_asked (hrun : WorldRun m app0 history w) (s : SessionId) {p : Payload}
    (hp : p ∈ (w.links s).client.asked) :
    ∃ e ∈ history, ∃ request, Types e s request ∧ Request.decode p.1 p.2 = some request := by
  have hsource := hrun.brought (P := fun w => p ∈ (w.links s).client.asked)
    (Q := fun e => ∃ request, Types e s request ∧ Request.decode p.1 p.2 = some request) ?_ hp
  · rcases hsource with hinit | ⟨before, e, after, rfl, -, -, htyped⟩
    · cases hinit
    · exact ⟨e, List.mem_append_right _ (List.mem_cons_self ..), htyped⟩
  · intro before w1 l w2 _ htaken hp
    rcases step_client htaken s with hsame | ⟨l', rfl, hstep⟩
    · rw [hsame] at hp
      exact .inl hp
    · rcases ClientApp.step_asked hstep hp with hold | ⟨line, request, rfl, htyped, hdecode⟩
      · exact .inl hold
      · exact .inr ⟨request, ⟨line, rfl, htyped⟩, hdecode⟩

/-- What the server handles was typed. -/
theorem run_handles (hinit : ServerApp.init config listening = .ok (some app0))
    {e : Entry World WorldInput} (hrun : WorldRun m app0 history e.pre)
    (htaken : WorldStep m e.pre e.label e.post) {player : SessionId} {request : Request} {now : Time}
    (h : Handles e player request now) : ∃ typed ∈ history, Types typed player request := by
  obtain ⟨w, l, w'⟩ := e
  obtain ⟨loginNow, event, rest, hl, hevents, htype, hsession, hdecode⟩ := h
  dsimp only at hrun htaken hl hevents
  subst hl
  -- the event is the last that was popped of the player, so the player's client has sent it
  have hpopped := (run_carries hinit (hrun.snoc htaken) player).popped.1
  have hasked : (event.packetId, event.body) ∈ (w.links player).client.asked := by
    cases step_cases htaken with
    | handled =>
      refine hpopped.subset ?_
      dsimp only
      rw [packetsOf_append, hevents]
      refine List.mem_append_right _ (List.mem_map.mpr ⟨event, ?_, rfl⟩)
      exact List.mem_filter.mpr ⟨List.mem_singleton_self _, by simp [htype, hsession]⟩
  obtain ⟨typed, hin, request', htyped, hread⟩ := run_asked hrun player hasked
  obtain rfl := Option.some.inj (hread.symm.trans hdecode)
  exact ⟨typed, hin, htyped⟩

/-! ## Steps of the logic -/

/-- A turn of the network is nothing to the logic. -/
theorem poll_logic {app app' : ServerApp} {key : Option Char} {os : Sockets}
    (h : AppStep m app (.poll key os) app') : app'.logic = app.logic ∧ app'.sent = app.sent := by
  unfold AppStep ServerApp.step at h
  dsimp only at h
  split at h
  · cases h
  split at h
  · cases h
    exact ⟨rfl, rfl⟩
  · obtain ⟨⟨go, network⟩, -, e⟩ := Option.map_eq_some_iff.mp h
    cases e
    exact ⟨rfl, rfl⟩

/-- The logic starts with no room and no user, and has sent nothing. -/
theorem init_logic (hinit : ServerApp.init config listening = .ok (some app0)) :
    app0.logic.rooms = .fresh ∧ app0.sent = [] := by
  obtain ⟨p, hp, -, hseen⟩ := ServerApp.init_seen hinit
  obtain ⟨htimeout, rfl⟩ := PacketProcessor.make_ok hp
  exact ⟨congrArg Server.rooms hseen, (init_empty hinit).1⟩

/-- A step of the system is nothing to the logic, or it is a step of the model of the logic. -/
theorem step_logic (hinit : ServerApp.init config listening = .ok (some app0))
    (hrun : WorldRun m app0 history w) {l : WorldInput} (htaken : WorldStep m w l w') :
    (w'.server.logic = w.server.logic ∧ w'.server.sent = w.server.sent) ∨
      ∃ host timeout p past input, PacketProcessor.make {} timeout = .ok p ∧
        ServerRun host p past w.server.seen ∧ ServerStep host w.server.seen input w'.server.seen ∧
          ∀ loginNow gameNow, input = .event loginNow gameNow →
            l = .server (.event loginNow gameNow) := by
  obtain ⟨p, hp, -⟩ := ServerApp.init_seen hinit
  -- the host of the model is told what the network will do with each packet in this run
  have hlogic : ∀ {l : AppInput} {input : Input} {server : ServerApp},
      AppStep m w.server l server →
        ⟨w.server.seen, input, server.seen⟩ ∈ ServerApp.retold ⟨w.server, l, server⟩ →
          ∃ past, ServerRun (foreseen m server.sent) p past w.server.seen ∧
            ServerStep (foreseen m server.sent) w.server.seen input server.seen := by
    intro l input server happ hmem
    obtain ⟨-, hseen⟩ := ServerApp.run_shows hinit hp ((run_server hrun).snoc happ)
    have hall := hseen _ (Foretold.now (server.network, server.sent))
    rw [List.flatMap_append, List.flatMap_singleton] at hall
    obtain ⟨past, _, -, hpast, hstep⟩ := hall.split (List.mem_append_right _ hmem)
    exact ⟨past, hpast, hstep⟩
  cases step_cases htaken with
  | quit happ => exact .inl (poll_logic happ)
  | polled happ => exact .inl (poll_logic happ)
  | client => exact .inl ⟨rfl, rfl⟩
  | begun happ =>
    obtain ⟨past, hpast, hstep⟩ := hlogic happ (List.mem_singleton_self _)
    refine .inr ⟨_, _, p, past, _, hp, hpast, hstep, fun loginNow gameNow e => ?_⟩
    cases e
  | ended happ =>
    obtain ⟨past, hpast, hstep⟩ := hlogic happ (List.mem_singleton_self _)
    refine .inr ⟨_, _, p, past, _, hp, hpast, hstep, fun loginNow gameNow e => ?_⟩
    cases e
  | handled happ =>
    obtain ⟨past, hpast, hstep⟩ := hlogic happ (List.mem_singleton_self _)
    refine .inr ⟨_, _, p, past, _, hp, hpast, hstep, fun loginNow gameNow e => ?_⟩
    cases e
    rfl

/-- What the server has sent, one of its steps has sent. -/
theorem run_sent (hinit : ServerApp.init config listening = .ok (some app0))
    (hrun : WorldRun m app0 history w) {packet : SentPacket} (hpacket : packet ∈ w.server.sent) :
    ∃ before e after, history = before ++ e :: after ∧ WorldRun m app0 before e.pre ∧
      WorldStep m e.pre e.label e.post ∧ e.pre.server.logic.rooms.WellFormed ∧
        ∃ host asked packets, packet ∈ packets ∧
          Deed host asked e.pre.server.logic.rooms packets e.post.server.logic.rooms := by
  have hsource := hrun.brought (P := fun w => packet ∈ w.server.sent)
    (Q := fun e => e.pre.server.logic.rooms.WellFormed ∧ ∃ host asked packets, packet ∈ packets ∧
      Deed host asked e.pre.server.logic.rooms packets e.post.server.logic.rooms) ?_ hpacket
  · rcases hsource with hnone | ⟨before, e, after, rfl, hbefore, htaken, hwf, hdeed⟩
    · have hnone : packet ∈ app0.sent := hnone
      rw [(init_logic hinit).2] at hnone
      cases hnone
    · exact ⟨before, e, after, rfl, hbefore, htaken, hwf, hdeed⟩
  · intro before w1 l w2 hbefore htaken hmem
    rcases step_logic hinit hbefore htaken with
      ⟨-, hsame⟩ | ⟨host, _, p, past, input, hp, hpast, hstep, -⟩
    · rw [hsame] at hmem
      exact .inl hmem
    have hsound := ServerRun.sound hp hpast
    obtain ⟨packets, hdeed, hcuts⟩ := hstep.cuts hsound
    rcases hcuts.sent hmem with hold | hnew
    · exact .inl hold
    · exact .inr ⟨hsound.rooms.wellFormed, host, _, packets, hnew, hdeed⟩

end World
end SelectServer
