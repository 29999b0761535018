import SelectServer.WorldViews

/- The whole system carries its packets, and a client stops for nothing that they
   say. The loop of `main` is left by a line that was typed, at the end of the input,
   by a `Run` that fails, or over a packet that `ProcessResponse` refuses
   (`ClientApp.step_leaves`). In no run does a `Run` fail over the bytes that have
   come, and a packet is refused only after a `ROOM_READY_REQ` that the server has
   taken with a result still queued: `packets_carried`. -/
namespace SelectServer
open Wire (Bytes)
open Histories TcpNetwork

namespace ClientApp
variable {c c' : ClientApp}

/-- A line that stands for a request which `SendPacket` does not take: it is longer than a packet may
be, or than what is left of the send buffer. -/
def Unsent (c : ClientApp) (line : Bytes) : Prop :=
  ∃ request body, Typed c.game line request ∧ request.encode = some body ∧
    (maxPacketSize - headerSize < body.length ∨
      TcpClient.maxSendBuffer < c.tcp.sendBuffer.length + (headerSize + body.length))

/-- What it takes to leave the loop of `main` for that reason. -/
def Leaves (c : ClientApp) (l : ClientInput) : Exit → Prop
  | .command => ∃ line, l = .line (some line) ∧ (line = quitWord ∨ c.Unsent line)
  | .inputFinished => l = .inputFinished
  | .network fault => ∃ os tcp, l = .run os ∧ c.tcp.run os = some (some fault, tcp)
  | .response => ∃ os tcp, l = .run os ∧ c.tcp.run os = some (none, tcp) ∧
      watch c.game tcp.packets = none

/-- Only `quit`, or a request that cannot be sent, makes `ProcessCommand` return false. -/
theorem command_leaves (hconnected : c.tcp.connected = true) (hrunning : c.exit = none)
    {line : Bytes} {why : Exit} (h : (c.command line).exit = some why) :
    why = .command ∧ (line = quitWord ∨ c.Unsent line) := by
  unfold command processCommand at h
  cases hread : readCommand line c.game with
  | stop =>
    rw [hread] at h
    exact ⟨(Option.some.inj h).symm, .inl (readCommand_stop_iff.mp hread)⟩
  | done =>
    rw [hread] at h
    cases hrunning.symm.trans h
  | send packetId body =>
    rw [hread] at h
    dsimp only at h
    split at h
    · rename_i hfalse
      obtain ⟨request, htyped, -, hencode⟩ := readCommand_typed hread
      have hunsent := TcpClient.sendPacket_refused hconnected (by simpa using hfalse)
      exact ⟨(Option.some.inj h).symm, .inr ⟨request, body, htyped, hencode, hunsent⟩⟩
    · cases hrunning.symm.trans h

/-- A step that leaves the loop has a reason for it. -/
theorem step_leaves (hconnected : c.tcp.connected = true) (hrunning : c.exit = none)
    {l : ClientInput} {why : Exit} (hstep : c.step l = some c') (h : c'.exit = some why) :
    c.Leaves l why := by
  unfold ClientApp.step at hstep
  rw [if_neg (by rw [hrunning]; simp)] at hstep
  cases l with
  | inputFinished =>
    cases hstep
    obtain rfl := Option.some.inj h
    exact rfl
  | line text =>
    cases text with
    | none =>
      cases hstep
      cases hrunning.symm.trans h
    | some line =>
      cases hstep
      obtain ⟨rfl, hline⟩ := command_leaves hconnected hrunning h
      exact ⟨line, rfl, hline⟩
  | run os =>
    obtain ⟨⟨fault, tcp⟩, hrun, hturn⟩ := Option.map_eq_some_iff.mp hstep
    cases fault with
    | some fault =>
      cases hturn
      obtain rfl := Option.some.inj h
      exact ⟨os, tcp, rfl, hrun⟩
    | none =>
      have hturn : respond tcp.packets { c with tcp := tcp } = c' := hturn
      rw [← hturn] at h
      have hrespond := respond_spec tcp.packets { c with tcp := tcp } rfl
      generalize respond tcp.packets { c with tcp := tcp } = c1 at hrespond h
      cases hrespond with
      | all => cases hrunning.symm.trans h
      | @refused _ first hfirst hnone _ _ hleft =>
        obtain rfl := Option.some.inj (hleft.symm.trans h)
        obtain ⟨rest, hpackets⟩ := hfirst
        refine ⟨os, tcp, rfl, hrun, ?_⟩
        -- what refuses the beginning refuses the whole
        rw [← hpackets, watch_append, hnone]
        rfl

end ClientApp

namespace World
variable {m : Bytes → Nat} {w : World} {app0 : ServerApp} {config : ServerConfig}
  {listening : Bool} {history : List (Entry World WorldInput)} {s : SessionId}

/-- A client that has left its loop has had a reason, in one of its steps. -/
theorem run_leaves (hinit : ServerApp.init config listening = .ok (some app0))
    (hrun : WorldRun m app0 history w) {why : Exit} (hexit : (w.links s).client.exit = some why) :
    ∃ e ∈ history, ∃ l, e.label = .client s l ∧ (e.pre.links s).client.Leaves l why := by
  have hsource := hrun.brought (P := fun w => (w.links s).client.exit = some why)
    (Q := fun e => ∃ l, e.label = .client s l ∧ (e.pre.links s).client.Leaves l why) ?_ hexit
  · rcases hsource with hnone | ⟨before, e, after, rfl, -, -, hleaves⟩
    · cases hnone
    · exact ⟨e, List.mem_append_right _ (List.mem_cons_self ..), hleaves⟩
  · intro before w1 l w2 hbefore htaken hexit
    rcases step_client htaken s with hsame | ⟨l', rfl, hstep⟩
    · rw [hsame] at hexit
      exact .inl hexit
    · cases hrunning : (w1.links s).client.exit with
      | some why' =>
        -- nothing follows the end of the loop
        unfold ClientApp.step at hstep
        rw [if_pos (by rw [hrunning]; rfl)] at hstep
        cases hstep
      | none =>
        obtain ⟨e, hlink, -⟩ := run_carries hinit hbefore s
        obtain ⟨hconnected, -⟩ := hlink.running hrunning
        exact .inr ⟨l', rfl, ClientApp.step_leaves hconnected hrunning hstep hexit⟩

end World

open World

/-- In every run of the system, in any order of the programs' turns and whatever the sockets answer:
what a client has popped is the beginning of what the logic has sent to its session, and all of it while
the client runs and is connected, if nothing is under way; what the logic has popped of a session is the
beginning of what the client has sent, and all of it in the same way, and every packet of it is a
request that the logic reads. A client that has left its loop has had a reason for it, in one of its
steps (`ClientApp.Leaves`); no `Run` of it fails over the bytes that have come, and `ProcessResponse`
refuses nothing in a run that takes no `ROOM_READY_REQ` in a room with a result still queued. And
`ReceiveClient` closes no session over the bytes that have come, unless the queue of events is full. -/
theorem packets_carried {config : ServerConfig} {listening : Bool} {app0 : ServerApp}
    {m : Bytes → Nat} {history : List (Entry World WorldInput)} {w : World}
    (hinit : ServerApp.init config listening = .ok (some app0)) (hrun : WorldRun m app0 history w)
    (s : SessionId) :
    ((w.links s).client.heard <+: (toSession s w.server.sent).map SentPacket.packet ∧
      ((w.links s).client.exit = none → (w.links s).down = [] →
        (∀ client, w.server.network.session s = some client → client.sendBuffer = []) →
        s ∈ w.server.network.ids →
          (w.links s).client.heard = (toSession s w.server.sent).map SentPacket.packet)) ∧
    (packetsOf s w.taken <+: (w.links s).client.asked ∧
      ((w.links s).client.exit = none → (w.links s).client.tcp.sendBuffer = [] → (w.links s).up = [] →
        packetsOf s w.server.network.events = [] → s ∈ w.server.network.ids →
          packetsOf s w.taken = (w.links s).client.asked) ∧
      ∀ p ∈ packetsOf s w.taken, ∃ request, Request.decode p.1 p.2 = some request) ∧
    ((∀ why, (w.links s).client.exit = some why →
        ∃ e ∈ history, ∃ l, e.label = .client s l ∧ (e.pre.links s).client.Leaves l why) ∧
      (∀ fault, (w.links s).client.exit = some (.network fault) → fault.isExternal = true) ∧
        (ReadyInTime (logicHistory history) → (w.links s).client.exit ≠ some .response)) ∧
    ∀ client chunk, w.server.network.session s = some client → chunk.bytes <+: (w.links s).up →
      ∀ t : TcpNetwork, ∃ result t', t.receiveClient client (.data chunk) = some (result, t') ∧
        ∀ fault, result = .error fault → fault = .queueFull := by
  have hcarries := run_carries hinit hrun s
  obtain ⟨hfirst, hall⟩ := hcarries.popped
  obtain ⟨e, hlink, -⟩ := id hcarries
  refine ⟨hcarries.heard, ⟨hfirst, hall, fun p hp => ?_⟩,
    ⟨fun why => run_leaves hinit hrun, hlink.external, fun hready => ?_⟩, ?_⟩
  · exact Option.isSome_iff_exists.mp (hlink.readable p (hfirst.subset hp))
  · exact run_not_refused hinit hrun hready s
  · intro client chunk hsession hchunk t
    exact hcarries.readable hsession hchunk t

/-- A client connects and logs in, and hears that it has. -/
def loginExchange : List WorldInput :=
  let quiet : Sockets := ⟨some (fun _ => true, fun _ => true), fun _ => .wouldBlock,
    fun _ => .wouldBlock, fun _ => .wouldBlock⟩
  let begun : WorldInput := .server (.beginUpdate .ascending 0)
  let event : WorldInput := .server (.event 0 0)
  let ended : WorldInput := .server (.endUpdate (.ascending, 0) (.ascending, 0) .ascending 0)
  [.client 1 (.line (some (loginWord ++ [32, 97]))),
    .server (.poll none { quiet with
      accept := fun n => if n = 0 then .connection true 0 else .wouldBlock }),
    begun, event, ended,
    .client 1 (.run ⟨some (true, true), .wouldBlock, .bytes 5⟩),
    .server (.poll none { quiet with recv := fun _ => .data loginChunk }),
    begun, event, ended,
    .server (.poll none { quiet with send := fun _ => .bytes 5 }),
    .client 1 (.run ⟨some (true, true), .data ⟨[0, 5, 0, 2, 0], by decide, by decide⟩, .wouldBlock⟩)]

/-- The client has heard the answer, and nothing is under way. -/
def World.answered (w : World) : Bool :=
  decide ((w.links 1).client.heard = [⟨loginRes, LoginResponse.encode ⟨.success⟩⟩] ∧
    ((w.links 1).client.exit = none ∧ (w.links 1).client.tcp.sendBuffer = [] ∧
      (w.links 1).up = [] ∧ (w.links 1).down = []) ∧
    w.server.network.clients = [{ id := 1 }] ∧ w.server.network.events = [])

/-- One client is logged in, and another has quit. -/
theorem packets_carried_login : ∃ app0 history w, ServerApp.init {} true = .ok (some app0) ∧
    WorldRun (fun b => b.length) app0 history w ∧
      (w.links 1).client.heard = [⟨loginRes, LoginResponse.encode ⟨.success⟩⟩] ∧
        (w.links 1).client.heard = (toSession 1 w.server.sent).map SentPacket.packet ∧
          packetsOf 1 w.taken = (w.links 1).client.asked ∧
            (w.links 2).client.exit = some .command ∧ ∃ e ∈ history, ∃ l,
              e.label = .client 2 l ∧ (e.pre.links 2).client.Leaves l .command := by
  obtain ⟨app0, history, w, hinit, hrun, hcheck⟩ :=
    scripted ((loginExchange ++ [WorldInput.client 2 (.line (some quitWord))]).map fun l _ => l)
      (fun _ w => w.answered && decide ((w.links 2).client.exit = some .command))
      ⟨_, rfl, by decide +kernel⟩
  obtain ⟨hanswered, hquit⟩ := Bool.and_eq_true_iff.mp hcheck
  obtain ⟨hheard, ⟨hexit, hsend, hup, hdown⟩, hclients, hevents⟩ :=
    decide_eq_true_eq.mp hanswered
  replace hquit := of_decide_eq_true hquit
  have hin : 1 ∈ w.server.network.ids := by
    unfold TcpNetwork.ids
    rw [hclients]
    exact List.mem_singleton_self _
  have hbuffer : ∀ client, w.server.network.session 1 = some client → client.sendBuffer = [] := by
    intro client hclient
    unfold session at hclient
    rw [hclients] at hclient
    obtain rfl := Option.some.inj hclient
    rfl
  obtain ⟨⟨-, hall⟩, ⟨-, hall', -⟩, -⟩ := packets_carried hinit hrun 1
  obtain ⟨-, -, ⟨hleaves, -⟩, -⟩ := packets_carried hinit hrun 2
  exact ⟨app0, history, w, hinit, hrun, hheard, hall hexit hdown hbuffer hin,
    hall' hexit hsend hup (by rw [hevents]; rfl) hin, hquit, hleaves _ hquit⟩

end SelectServer
