import SelectServer.ClientCommands
import SelectServer.Connection

/- `ChatClient.cpp`, the program: the loop of `main` from a connection on. A turn
   handles the lines that were typed, lets the client receive and send once, and has
   `ProcessResponse` see every packet before the next turn. The loop is left for good
   for one of the reasons in `Exit`, and then the client disconnects. -/
namespace SelectServer
open Wire (Bytes)

/-- What the operating system answers in one `Run` of the client. -/
structure ClientSockets where
  /-- Whether `select` leaves the socket in the set for reading and in the one for writing; none for
  `SOCKET_ERROR`. -/
  select : Option (Bool × Bool)
  recv : Received
  send : Sent

/-- Why `Run` of the client returns false. -/
inductive RunFault where
  | notConnected
  | selectFailed
  | receive (fault : ReceiveFault)
  | send
  deriving DecidableEq, Repr

/-- With the reason for which it returns false. -/
def TcpClient.run (c : TcpClient) (os : ClientSockets) : Option (Option RunFault × TcpClient) :=
  if !c.connected then some (some .notConnected, c)
  else
    let hasPendingSend := !c.sendBuffer.isEmpty
    match os.select with
    | none => some (some .selectFailed, c)
    | some (readable, writable) =>
      (if readable then c.receive os.recv else some (none, c)).map fun (fault, c) =>
        match fault with
        | some fault => (some (.receive fault), c)
        | none =>
          if hasPendingSend && writable then
            match c.flushSend os.send with
            | none => (some .send, c)
            | some c => (none, c)
          else (none, c)

/-- Why the loop of `main` was left. -/
inductive Exit where
  /-- `ProcessCommand` returned false. -/
  | command
  /-- There is no more input. -/
  | inputFinished
  | network (fault : RunFault)
  /-- `ProcessResponse` returned false. -/
  | response
  deriving DecidableEq, Repr

structure ClientApp where
  tcp : TcpClient := {}
  game : ClientGameView := {}
  exit : Option Exit := none
  /-- The packets that `SendPacket` has taken, which the program does not keep. -/
  asked : List Payload := []
  /-- The packets that were popped, which the program does not keep. -/
  heard : List ClientPacket := []

inductive ClientInput where
  /-- A line from the console; none where `ToUtf8` throws. -/
  | line (text : Option Bytes)
  | inputFinished
  | run (os : ClientSockets)

namespace ClientApp

/-- The loop is left, and `main` disconnects. -/
def leave (c : ClientApp) (why : Exit) : ClientApp :=
  { c with tcp := c.tcp.disconnect, exit := some why }

def command (c : ClientApp) (text : Bytes) : ClientApp :=
  let (running, tcp) := processCommand c.tcp text c.game
  if !running then { c with tcp := tcp }.leave .command
  else
    match readCommand text c.game with
    | .send packetId body => { c with tcp := tcp, asked := c.asked ++ [(packetId, body)] }
    | _ => { c with tcp := tcp }

/-- The loop that pops the packets, which are `packets` now; `ProcessResponse` queues none. -/
def respond : List ClientPacket → ClientApp → ClientApp
  | [], c => c
  | packet :: packets, c =>
    let c := { c with
      tcp := { c.tcp with packets := packets }
      heard := c.heard ++ [packet] }
    match processResponse packet c.game with
    | none => c.leave .response
    | some game => respond packets { c with game := game }

/-- The part of a turn after the lines. -/
def turn (c : ClientApp) (os : ClientSockets) : Option ClientApp :=
  (c.tcp.run os).map fun (fault, tcp) =>
    match fault with
    | some fault => { c with tcp := tcp }.leave (.network fault)
    | none => respond tcp.packets { c with tcp := tcp }

/-- The program after one input; none where the loop has been left. -/
def step (c : ClientApp) (l : ClientInput) : Option ClientApp :=
  if c.exit.isSome then none
  else
    match l with
    | .line none => some c
    | .line (some text) => some (c.command text)
    | .inputFinished => some (c.leave .inputFinished)
    | .run os => c.turn os

end ClientApp

/-! ## What a turn does -/

namespace ClientApp
variable {c c' : ClientApp}

/-- The loop over the packets ends with none left, or with one that `ProcessResponse` refuses. -/
inductive Responded (c : ClientApp) (packets : List ClientPacket) : ClientApp → Prop
  | all {game : ClientGameView} (hwatch : watch c.game packets = some game) :
      Responded c packets
        { c with tcp := { c.tcp with packets := [] }, heard := c.heard ++ packets, game := game }
  | refused {c' : ClientApp} {first : List ClientPacket} (hfirst : first <+: packets)
      (hwatch : watch c.game first = none) (hheard : c'.heard = c.heard ++ first)
      (hasked : c'.asked = c.asked) (hexit : c'.exit = some .response) (htcp : c'.tcp = c.tcp.disconnect) :
      Responded c packets c'

theorem respond_spec (packets : List ClientPacket) : ∀ c : ClientApp, c.tcp.packets = packets →
    Responded c packets (respond packets c) := by
  induction packets with
  | nil =>
    intro c hpackets
    have hsame : c = { c with
        tcp := { c.tcp with packets := [] }, heard := c.heard ++ [], game := c.game } := by
      rw [List.append_nil, ← hpackets]
    unfold respond
    conv => right; rw [hsame]
    exact .all rfl
  | cons packet packets ih =>
    intro c hpackets
    have hwatch : ∀ rest, watch c.game (packet :: rest) =
        (processResponse packet c.game).bind fun game => watch game rest := fun _ => rfl
    unfold respond
    dsimp only
    cases hgame : processResponse packet c.game with
    | none =>
      refine .refused ⟨packets, rfl⟩ ?_ rfl rfl rfl rfl
      rw [hwatch, hgame]
      rfl
    | some game =>
      dsimp only
      have hrest := ih { c with
        tcp := { c.tcp with packets := packets }, heard := c.heard ++ [packet], game := game } rfl
      generalize respond packets _ = c' at hrest
      cases hrest with
      | @all game' hall =>
        have hall : watch c.game (packet :: packets) = some game' := by
          rw [hwatch, hgame]
          exact hall
        have hresponded := Responded.all (c := c) hall
        rw [List.append_cons] at hresponded
        exact hresponded
      | @refused _ first hfirst hnone hheard hasked hexit htcp =>
        refine .refused (List.cons_prefix_cons.mpr ⟨rfl, hfirst⟩) ?_ ?_ hasked hexit htcp
        · rw [hwatch, hgame]
          exact hnone
        · rw [hheard]
          exact (List.append_cons c.heard packet first).symm

/-- What a line does: the request that it stands for is queued, or nothing but that the loop is left. -/
inductive Commanded (c : ClientApp) : ClientApp → Prop
  | nothing : Commanded c c
  | asked {packetId : UInt16} {body : Bytes} {request : Request}
      (hbody : body.length ≤ maxPacketSize - headerSize)
      (hrequest : Request.decode packetId body = some request) :
      Commanded c { c with
        tcp := { c.tcp with sendBuffer := c.tcp.sendBuffer ++ packetBytes (packetId, body) }
        asked := c.asked ++ [(packetId, body)] }
  | left : Commanded c (c.leave .command)

theorem command_spec (c : ClientApp) (text : Bytes) : Commanded c (c.command text) := by
  unfold command processCommand
  cases hread : readCommand text c.game with
  | stop => exact .left
  | done => exact .nothing
  | send packetId body =>
    dsimp only
    rcases c.tcp.sendPacket_cases (packetId, body) with e | ⟨hbody, e⟩
    · dsimp only at e
      rw [e]
      exact .left
    · dsimp only at e hbody
      rw [e]
      obtain ⟨request, -, hid, hencode⟩ := readCommand_typed hread
      have hdecode := Request.decode_encode hencode hbody
      rw [hid] at hdecode
      exact .asked hbody hdecode

end ClientApp
end SelectServer
