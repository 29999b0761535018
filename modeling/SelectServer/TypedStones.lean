import SelectServer.StoneOrigins
import SelectServer.WorldOrigins

/- Every stone was typed, across the whole system. A stone on a board of the server
   or on the screen of a client is there because the player whose turn it was typed
   `move` with its coordinates, with the same game on the player's own screen, and
   the server took that line as the player's move in that game (`stones_typed`). -/
namespace SelectServer
open Wire (Bytes)
open Histories

/-! ## What a client shows -/

namespace ClientApp
variable {c c' : ClientApp}

/-- Every stone that is shown has been heard of. -/
def Informed (c : ClientApp) : Prop :=
  ∀ r g x y stone, c.game.HasStone r g x y stone →
    ∃ packet ∈ c.heard, packet.notice.Tells r g x y stone

theorem Informed.same (h : c.Informed) (hgame : c'.game = c.game) (hheard : c'.heard = c.heard) :
    c'.Informed := by
  intro r g x y stone hs
  rw [hgame] at hs
  rw [hheard]
  exact h r g x y stone hs

theorem Informed.respond (packets : List ClientPacket) : ∀ {c : ClientApp}, c.Informed →
    (respond packets c).Informed := by
  induction packets with
  | nil => exact fun h => h
  | cons packet packets ih =>
    intro c h
    unfold ClientApp.respond
    dsimp only
    have hheard : ∀ {r g x y stone}, c.game.HasStone r g x y stone →
        ∃ p ∈ c.heard ++ [packet], p.notice.Tells r g x y stone := by
      intro r g x y stone hs
      obtain ⟨p, hp, htells⟩ := h r g x y stone hs
      exact ⟨p, List.mem_append_left _ hp, htells⟩
    cases hgame : processResponse packet c.game with
    | none => exact fun r g x y stone hs => hheard hs
    | some game =>
      refine ih fun r g x y stone hs => ?_
      rw [processResponse_eq] at hgame
      rcases ClientGameView.onNotice_stone hgame hs with hold | htells
      · exact hheard hold
      · exact ⟨packet, List.mem_append_right _ (List.mem_singleton_self _), htells⟩

theorem Informed.step (h : c.Informed) {l : ClientInput} (hstep : c.step l = some c') :
    c'.Informed := by
  unfold ClientApp.step at hstep
  split at hstep
  · cases hstep
  cases l with
  | inputFinished =>
    cases hstep
    exact h.same rfl rfl
  | line text =>
    cases text with
    | none =>
      cases hstep
      exact h
    | some text =>
      cases hstep
      have hcommand := c.command_spec text
      generalize c.command text = c1 at hcommand
      cases hcommand with
      | nothing => exact h
      | asked => exact h.same rfl rfl
      | left => exact h.same rfl rfl
  | run os =>
    obtain ⟨⟨fault, tcp⟩, -, hturn⟩ := Option.map_eq_some_iff.mp hstep
    cases fault with
    | some fault =>
      cases hturn
      exact h.same rfl rfl
    | none =>
      cases hturn
      have hsame : ({ c with tcp := tcp } : ClientApp).Informed := h.same rfl rfl
      exact hsame.respond tcp.packets

end ClientApp

/-! ## Where a stone comes from -/

namespace World

/-- The server handles a move of `player`, who may place that stone then. -/
def Takes (e : Entry World WorldInput) (player : SessionId) (request : GameMoveRequest)
    (stone : GameStone) : Prop :=
  ∃ now room, Handles e player (.gameMove request) now ∧
    e.pre.server.logic.rooms.MayPlace player request.roomId request.game request.x.toNat
      request.y.toNat now room ∧ room.getPlayerStone player = stone

/-- A move that asks for the place `(x, y)` in that game. -/
def Asks (request : GameMoveRequest) (r : RoomId) (g : GameId) (x y : Int) : Prop :=
  request.roomId = r ∧ request.game = g ∧ (request.x.toNat : Int) = x ∧ (request.y.toNat : Int) = y

/-- A player typed the move, and the server took it after that. -/
def Authored (history : List (Entry World WorldInput)) (r : RoomId) (g : GameId) (x y : Int)
    (stone : GameStone) : Prop :=
  ∃ before taken after player request, history = before ++ taken :: after ∧
    (∃ typed ∈ before, Types typed player (.gameMove request)) ∧ Takes taken player request stone ∧
      Asks request r g x y

variable {m : Bytes → Nat} {w : World} {app0 : ServerApp} {config : ServerConfig}
  {listening : Bool} {history : List (Entry World WorldInput)} {r : RoomId} {g : GameId} {x y : Int}
  {stone : GameStone}

theorem run_informed (hrun : WorldRun m app0 history w) (s : SessionId) :
    (w.links s).client.Informed := by
  induction hrun with
  | start =>
    intro r g x y stone hs
    exact (hs.not_reset rfl).elim
  | snoc _ htaken ih =>
    rcases step_client htaken s with hsame | ⟨l', -, hstep⟩
    · rw [hsame]
      exact ih
    · exact ih.step hstep

/-- A stone after a step was there before it, or the step takes the move that places it. -/
theorem step_stone (hinit : ServerApp.init config listening = .ok (some app0))
    (hrun : WorldRun m app0 history w) {l : WorldInput} {w' : World} (htaken : WorldStep m w l w')
    (hs : w'.server.logic.rooms.HasStone r g x y stone) :
    w.server.logic.rooms.HasStone r g x y stone ∨
      ∃ player request, Takes ⟨w, l, w'⟩ player request stone ∧ Asks request r g x y := by
  rcases step_logic hinit hrun htaken with ⟨hsame, -⟩ | ⟨host, _, p, past, input, hp, hpast, hstep, hl⟩
  · rw [hsame] at hs
    exact .inl hs
  rcases hstep.stone (ServerRun.sound hp hpast) hs with hold | ⟨player, hplaces⟩
  · exact .inl hold
  · obtain ⟨loginNow, now, event, rest, request, room, hevent, hevents, ⟨htype, hsession⟩, hdecode,
      hasks, hallowed, hcolour⟩ := hplaces
    obtain ⟨rfl, rfl, rfl, rfl⟩ := hasks
    exact .inr ⟨player, request, ⟨now, room,
      ⟨loginNow, event, rest, hl _ _ hevent, hevents, htype, hsession, hdecode⟩, hallowed, hcolour⟩,
      rfl, rfl, rfl, rfl⟩

/-- A stone on a board of the server was typed. -/
theorem run_authored (hinit : ServerApp.init config listening = .ok (some app0))
    (hrun : WorldRun m app0 history w) (hs : w.server.logic.rooms.HasStone r g x y stone) :
    Authored history r g x y stone := by
  have hsource := hrun.brought (P := fun w => w.server.logic.rooms.HasStone r g x y stone)
    (Q := fun e => ∃ player request, Takes e player request stone ∧ Asks request r g x y)
    (fun _ _ _ _ hbefore htaken => step_stone hinit hbefore htaken) hs
  rcases hsource with hnone | ⟨before, e, after, rfl, hbefore, htaken, player, request, htakes, hasks⟩
  · obtain ⟨-, room, hr, -⟩ := hnone
    have hr : app0.logic.rooms.rooms[r]? = some room := hr
    rw [(init_logic hinit).1] at hr
    simp [RoomManager.fresh] at hr
  · obtain ⟨now, room, hhandles, hallowed⟩ := htakes
    exact ⟨before, e, after, player, request, rfl, run_handles hinit hbefore htaken hhandles,
      ⟨now, room, hhandles, hallowed⟩, hasks⟩

/-- A stone that the server has told of was typed. -/
theorem run_stone_told (hinit : ServerApp.init config listening = .ok (some app0))
    (hrun : WorldRun m app0 history w) {packet : SentPacket} (hpacket : packet ∈ w.server.sent)
    (htells : packet.packet.notice.Tells r g x y stone) : Authored history r g x y stone := by
  obtain ⟨before, e, after, rfl, hbefore, htaken, -, host, asked, packets, hin, hdeed⟩ :=
    run_sent hinit hrun hpacket
  -- it was on a board when the packet was sent
  have hshown : e.post.server.logic.rooms.HasStone r g x y stone := by
    obtain ⟨n, hn, rfl, rfl, rfl, rfl, rfl⟩ := htells
    exact hdeed.move_shown hin hn
  obtain ⟨first, taken, later, player, request, e', hauthored⟩ :=
    run_authored hinit (hbefore.snoc htaken) hshown
  refine ⟨first, taken, later ++ after, player, request, ?_, hauthored⟩
  have e' := congrArg (· ++ after) e'
  simpa using e'

end World

open World

/-- In every run of the system, every stone on a board of the server and every stone that a client
shows was typed: a player typed the line that asks for it, with that game on the player's own screen,
and the server handled that request later, when it was that player's turn in that game, in time, and
the cell was empty. -/
theorem stones_typed {config : ServerConfig} {listening : Bool} {app0 : ServerApp}
    {m : Bytes → Nat} {history : List (Entry World WorldInput)} {w : World}
    (hinit : ServerApp.init config listening = .ok (some app0)) (hrun : WorldRun m app0 history w) :
    (∀ r room x y, w.server.logic.rooms.rooms[r]? = some room → room.game.board.cell x y ≠ .empty →
      Authored history r room.gameId x y (room.game.board.cell x y)) ∧
    ∀ s x y, (w.links s).client.game.cells.cell x y ≠ .empty →
      Authored history (w.links s).client.game.roomId (w.links s).client.game.game x y
        ((w.links s).client.game.cells.cell x y) := by
  refine ⟨fun r room x y hr hne => ?_, fun s x y hne => ?_⟩
  · exact run_authored hinit hrun ⟨hne, room, hr, rfl, rfl⟩
  · obtain ⟨packet, hheard, htells⟩ := run_informed hrun s _ _ x y _ ⟨hne, rfl, rfl, rfl⟩
    have hsent := (run_carries hinit hrun s).heard.1.subset hheard
    obtain ⟨sent, hin, rfl⟩ := List.mem_map.mp hsent
    exact run_stone_told hinit hrun (List.mem_filter.mp hin).1 htells

/-- A stone is on the board, and the other player sees it. -/
def World.stoneSeen (w : World) : Bool :=
  ((w.server.logic.rooms.rooms[(1 : RoomId)]?).any fun room =>
    decide (room.gameId = 1 ∧ room.game.board.cell 7 7 = .black)) &&
    decide ((w.links 2).client.game.roomId = 1 ∧ (w.links 2).client.game.game = 1 ∧
      (w.links 2).client.game.cells.cell 7 7 = .black)

theorem stones_typed_first : ∃ app0 history w, ServerApp.init {} true = .ok (some app0) ∧
    WorldRun (fun b => b.length) app0 history w ∧ w.stoneSeen = true ∧
      Authored history 1 1 7 7 .black := by
  obtain ⟨app0, history, w, hinit, hrun, hseen⟩ :=
    scripted firstStone (fun _ w => w.stoneSeen) ⟨_, rfl, by decide +kernel⟩
  have hcheck := hseen
  unfold World.stoneSeen at hcheck
  rw [Bool.and_eq_true, decide_eq_true_eq] at hcheck
  obtain ⟨-, hroom, hgame, hcell⟩ := hcheck
  have htyped := (stones_typed hinit hrun).2 2 7 7 (by rw [hcell]; decide)
  rw [hroom, hgame, hcell] at htyped
  exact ⟨app0, history, w, hinit, hrun, hseen, htyped⟩

end SelectServer
