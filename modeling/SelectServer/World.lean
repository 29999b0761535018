import SelectServer.ClientApp
import SelectServer.SessionBuffers

/- The server program and its clients, with what TCP carries between them. Each
   program takes its own turns in any order, and the system answers it as it likes,
   but a `recv` gives bytes that are on the way to it and a `send` takes bytes of
   its send buffer. A connection is named by the id that its session has or will
   have, so a client may send before the server has accepted it, and either end may
   go on after the other has closed. -/
namespace SelectServer
open Wire (Bytes)
open Histories

/-! ## What a `Run` moves -/

def Received.bytes : Received → Bytes
  | .data chunk => chunk.bytes
  | _ => []

/-- `send` takes some bytes of what it is given. -/
def Sent.fits (buffer : Bytes) : Sent → Bool
  | .bytes n => decide (0 < n ∧ n ≤ buffer.length)
  | _ => true

namespace TcpNetwork

/-- What a session is given to read. -/
def bytesRead (t : TcpNetwork) (os : Sockets) (s : SessionId) : Bytes :=
  match t.session s, t.receivedBy os s with
  | some _, some received => received.bytes
  | _, _ => []

/-- What is no longer in the send buffer of a session that is kept. -/
def bytesSent (t t' : TcpNetwork) (s : SessionId) : Bytes :=
  match t.session s, t'.session s with
  | some client, some client' =>
    client.sendBuffer.take (client.sendBuffer.length - client'.sendBuffer.length)
  | _, _ => []

end TcpNetwork

namespace TcpClient

def bytesRead (os : ClientSockets) : Bytes :=
  match os.select with
  | some (true, _) => os.recv.bytes
  | _ => []

def bytesSent (c : TcpClient) (os : ClientSockets) : Bytes :=
  match c.run os with
  | some (none, c') => c.sendBuffer.take (c.sendBuffer.length - c'.sendBuffer.length)
  | _ => []

end TcpClient

/-! ## A connection -/

structure Link where
  client : ClientApp := {}
  /-- Sent by the client, and not yet read by the server. -/
  up : Bytes := []
  /-- Sent by the server, and not yet read by the client. -/
  down : Bytes := []

namespace Link

/-- What the system can answer the client. -/
def allows (k : Link) (os : ClientSockets) : Bool :=
  (TcpClient.bytesRead os).isPrefixOf k.down &&
    (k.client.tcp.sendBuffer.isEmpty || os.send.fits k.client.tcp.sendBuffer)

def step (k : Link) : ClientInput → Option Link
  | .run os =>
    if k.allows os then
      (k.client.step (.run os)).map fun client =>
        { client := client
          up := k.up ++ k.client.tcp.bytesSent os
          down := k.down.drop (TcpClient.bytesRead os).length }
    else none
  | l => (k.client.step l).map fun client => { k with client := client }

/-- A `Run` of the server has read the first bytes of the one direction, and sent in the other. -/
def polled (k : Link) (read sent : Bytes) : Link :=
  { k with up := k.up.drop read.length, down := k.down ++ sent }

end Link

/-! ## The whole system -/

structure World where
  server : ServerApp
  links : SessionId → Link := fun _ => {}
  /-- The events that the loop of `Update` has popped, which the program does not keep. -/
  taken : List NetworkEvent := []

inductive WorldInput where
  | server (l : AppInput)
  | client (s : SessionId) (l : ClientInput)

namespace World

/-- What the system can answer the server. -/
def allows (w : World) (os : Sockets) : Bool :=
  w.server.network.clients.all fun client =>
    (w.server.network.bytesRead os client.id).isPrefixOf (w.links client.id).up &&
      (w.server.network.sentBy os client.id).all (Sent.fits client.sendBuffer)

def step (multiByteToWideChar : Bytes → Nat) (w : World) : WorldInput → Option World
  | .server (.poll key os) =>
    if key = some 'q' ∨ key = some 'Q' then
      (w.server.next multiByteToWideChar (.poll key os)).map fun server =>
        { w with server := server }
    else if w.allows os then
      (w.server.next multiByteToWideChar (.poll key os)).map fun server =>
        { w with
          server := server
          links := fun s => (w.links s).polled (w.server.network.bytesRead os s)
            (w.server.network.bytesSent server.network s) }
    else none
  | .server (.event loginNow gameNow) =>
    (w.server.next multiByteToWideChar (.event loginNow gameNow)).map fun server =>
      { w with server := server, taken := w.taken ++ w.server.network.events.take 1 }
  | .server l => (w.server.next multiByteToWideChar l).map fun server =>
      { w with server := server }
  | .client s l => ((w.links s).step l).map fun link =>
      { w with links := Function.update w.links s link }

end World

def WorldStep (multiByteToWideChar : Bytes → Nat) (w : World) (l : WorldInput) (w' : World) : Prop :=
  w.step multiByteToWideChar l = some w'

/-- The runs of the system from the start of the server on. -/
abbrev WorldRun (multiByteToWideChar : Bytes → Nat) (app0 : ServerApp) :
    List (Entry World WorldInput) → World → Prop :=
  Run (WorldStep multiByteToWideChar) { server := app0 }

namespace World

/-- What an entry of a run is to the server. -/
def serverEntry (e : Entry World WorldInput) : Option (Entry ServerApp AppInput) :=
  match e.label with
  | .server l => some ⟨e.pre.server, l, e.post.server⟩
  | .client _ _ => none

variable {m : Bytes → Nat} {w w' : World}

/-- What a step does, by whose it is. -/
inductive Stepped (m : Bytes → Nat) (w : World) : WorldInput → World → Prop
  | quit {key : Option Char} {os : Sockets} {server : ServerApp}
      (happ : AppStep m w.server (.poll key os) server)
      (hnetwork : server.network = w.server.network ∧ server.sent = w.server.sent) :
      Stepped m w (.server (.poll key os)) { w with server := server }
  | polled {key : Option Char} {os : Sockets} {server : ServerApp} {go : Bool}
      (happ : AppStep m w.server (.poll key os) server) (hallows : w.allows os = true)
      (hrun : w.server.network.run os = some (go, server.network))
      (hsent : server.sent = w.server.sent) :
      Stepped m w (.server (.poll key os)) { w with
        server := server
        links := fun s => (w.links s).polled (w.server.network.bytesRead os s)
          (w.server.network.bytesSent server.network s) }
  | begun {traversal : Traversal RoomId} {now : Time} {server : ServerApp}
      (happ : AppStep m w.server (.beginUpdate traversal now) server) :
      Stepped m w (.server (.beginUpdate traversal now)) { w with server := server }
  | handled {loginNow gameNow : Time} {server : ServerApp}
      (happ : AppStep m w.server (.event loginNow gameNow) server) :
      Stepped m w (.server (.event loginNow gameNow))
        { w with server := server, taken := w.taken ++ w.server.network.events.take 1 }
  | ended {first second : Traversal SessionId × Time} {traversal : Traversal RoomId} {now : Time}
      {server : ServerApp} (happ : AppStep m w.server (.endUpdate first second traversal now) server) :
      Stepped m w (.server (.endUpdate first second traversal now)) { w with server := server }
  | client {s : SessionId} {l : ClientInput} {link : Link} (hlink : (w.links s).step l = some link) :
      Stepped m w (.client s l) { w with links := Function.update w.links s link }

theorem step_cases {l : WorldInput} (h : WorldStep m w l w') : Stepped m w l w' := by
  unfold WorldStep step at h
  cases l with
  | client s l =>
    obtain ⟨link, hlink, rfl⟩ := Option.map_eq_some_iff.mp h
    exact .client hlink
  | server l =>
    cases l with
    | beginUpdate traversal now =>
      obtain ⟨server, hserver, rfl⟩ := Option.map_eq_some_iff.mp h
      exact .begun (ServerApp.step_of_next hserver)
    | event loginNow gameNow =>
      obtain ⟨server, hserver, rfl⟩ := Option.map_eq_some_iff.mp h
      exact .handled (ServerApp.step_of_next hserver)
    | endUpdate first second traversal now =>
      obtain ⟨server, hserver, rfl⟩ := Option.map_eq_some_iff.mp h
      exact .ended (ServerApp.step_of_next hserver)
    | poll key os =>
      dsimp only at h
      by_cases hkey : key = some 'q' ∨ key = some 'Q'
      · rw [if_pos hkey] at h
        obtain ⟨server, hserver, rfl⟩ := Option.map_eq_some_iff.mp h
        have happ := ServerApp.step_of_next hserver
        refine .quit happ ?_
        unfold AppStep ServerApp.step at happ
        dsimp only at happ
        rw [if_pos hkey] at happ
        split at happ
        · cases happ
        · cases happ
          exact ⟨rfl, rfl⟩
      · rw [if_neg hkey] at h
        split at h
        · rename_i hallows
          obtain ⟨server, hserver, rfl⟩ := Option.map_eq_some_iff.mp h
          have happ := ServerApp.step_of_next hserver
          have hparts : ∃ go, w.server.network.run os = some (go, server.network) ∧
              server.sent = w.server.sent := by
            unfold AppStep ServerApp.step at happ
            dsimp only at happ
            rw [if_neg hkey] at happ
            split at happ
            · cases happ
            · obtain ⟨⟨go, network⟩, hrun, e⟩ := Option.map_eq_some_iff.mp happ
              cases e
              exact ⟨go, hrun, rfl⟩
          obtain ⟨go, hrun, hsent⟩ := hparts
          exact .polled happ hallows hrun hsent
        · cases h

/-- The server's part of a run is a run of the server. -/
theorem run_server {app0 : ServerApp} {history : List (Entry World WorldInput)}
    (hrun : WorldRun m app0 history w) : AppRun m app0 (history.filterMap serverEntry) w.server := by
  induction hrun with
  | start => exact .start
  | @snoc history w w' l _ htaken ih =>
    rw [List.filterMap_append]
    have hnext : ∀ (l : AppInput) {server : ServerApp}, AppStep m w.server l server →
        AppRun m app0 (history.filterMap serverEntry ++ [⟨w.server, l, server⟩]) server :=
      fun _ _ happ => ih.snoc happ
    cases step_cases htaken with
    | quit happ => exact hnext _ happ
    | polled happ => exact hnext _ happ
    | begun happ => exact hnext _ happ
    | handled happ => exact hnext _ happ
    | ended happ => exact hnext _ happ
    | client =>
      show AppRun m app0 (_ ++ []) w.server
      rw [List.append_nil]
      exact ih

end World
end SelectServer
