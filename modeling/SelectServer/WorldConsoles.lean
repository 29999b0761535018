import SelectServer.ClientConsole
import SelectServer.WorldViews

/- What the players read. Whatever has happened, the last board on the console of a
   client is the one of its view, unless there is no game to show (`run_shown`). So
   when nothing is under way to a player that is connected, the board it reads is the
   one of the room, and the text of it says all of that game but its name:
   `boards_shown`. -/
namespace SelectServer
open Wire (Bytes)
open Histories

namespace World
variable {m : Bytes → Nat} {w w' : World} {app0 : ServerApp} {s : SessionId}

/-- What an entry of a run has the client of `s` write. -/
def entryWrites (s : SessionId) (e : Entry World WorldInput) : List Written :=
  match e.label with
  | .client s' l => if s' = s then (e.pre.links s).client.writes l else []
  | .server _ => []

/-- What the client of `s` has written in a run. -/
def console (s : SessionId) (history : List (Entry World WorldInput)) : List Written :=
  history.flatMap (entryWrites s)

theorem step_shown {l : WorldInput} {texts : List Bytes} (htaken : WorldStep m w l w')
    (h : Displayed texts (w.links s).client.game) :
    Displayed (texts ++ boards (entryWrites s ⟨w, l, w'⟩)) (w'.links s).client.game := by
  have hsilent : entryWrites s ⟨w, l, w'⟩ = [] → (w'.links s).client = (w.links s).client →
      Displayed (texts ++ boards (entryWrites s ⟨w, l, w'⟩)) (w'.links s).client.game := by
    intro hnone hsame
    rw [hnone, hsame]
    exact h.still rfl
  cases l with
  -- what the server does writes nothing on the console of a client
  | server l =>
    rcases step_client htaken s with hsame | ⟨_, hl, -⟩
    · exact hsilent rfl hsame
    · cases hl
  | client s' l =>
    by_cases hs : s' = s
    · subst hs
      cases step_cases htaken with
      | client hlink =>
        have hwrites : ∀ w', entryWrites s' ⟨w, .client s' l, w'⟩ = (w.links s').client.writes l :=
          fun _ => if_pos rfl
        rw [hwrites]
        dsimp only
        rw [Function.update_self]
        exact ClientApp.step_shown h (link_client hlink)
    · rcases step_client htaken s with hsame | ⟨_, hl, -⟩
      · exact hsilent (if_neg hs) hsame
      · cases hl
        exact absurd rfl hs

theorem run_shown {history : List (Entry World WorldInput)} (hrun : WorldRun m app0 history w)
    (s : SessionId) : Displayed (boards (console s history)) (w.links s).client.game := by
  induction hrun with
  | start => exact .none rfl
  | snoc _ htaken ih =>
    unfold console
    rw [List.flatMap_append, List.flatMap_singleton, boards_append]
    exact step_shown htaken ih

end World

/-- The text of the board of a game that goes on. -/
def Tells (text : Bytes) (game : OmokGame) : Prop :=
  ∀ view : ClientGameView, view.print = text ↔
    view.cells = game.board ∧ view.moveCount.toNat = game.moveCount ∧ view.state = .playing ∧
      (view.nextTurn = .black ↔ game.nextTurn = .black)

/-- A view of a room prints a text that tells its game. -/
theorem Mirrors.tells {view : ClientGameView} {room : Room} (h : Mirrors view room) :
    Tells view.print room.game := by
  intro view'
  rw [ClientGameView.print_eq_iff]
  constructor
  · intro ha
    refine ⟨ha.cells.trans h.cells, ?_, ha.state.trans h.state, ?_⟩
    · rw [ha.moveCount, h.moveCount]
    · rw [← h.nextTurn]
      exact ha.turn (ha.state.trans h.state)
  · rintro ⟨hcells, hmoves, hstate, hturn⟩
    refine ⟨hcells.trans h.cells.symm, UInt32.toNat_inj.mp (hmoves.trans h.moveCount.symm),
      hstate.trans h.state.symm, fun _ => ?_⟩
    rw [h.nextTurn]
    exact hturn

open World

/-- In every run of the system: the last board on the console of a client is the one of its view,
unless no game is on the screen. So a client that runs and is connected, with nothing under way to it,
has as its last board a text that tells the game of the room, stone by stone, and two such players of
one game read the same. -/
theorem boards_shown {config : ServerConfig} {listening : Bool} {app0 : ServerApp} {m : Bytes → Nat}
    {history : List (Entry World WorldInput)} {w : World}
    (hinit : ServerApp.init config listening = .ok (some app0)) (hrun : WorldRun m app0 history w) :
    (∀ s, (w.links s).client.game.state ≠ .notStarted →
      (boards (console s history)).getLast? = some (w.links s).client.game.print) ∧
    (∀ s r room, w.Quiet s → w.server.logic.rooms.On r room → s ∈ room.members →
      ∃ text, (boards (console s history)).getLast? = some text ∧ Tells text room.game) ∧
    ∀ s s' r room, w.Quiet s → w.Quiet s' → w.server.logic.rooms.On r room → s ∈ room.members →
      s' ∈ room.members →
        (boards (console s history)).getLast? = (boards (console s' history)).getLast? := by
  have hlast : ∀ s r room, w.Quiet s → w.server.logic.rooms.On r room → s ∈ room.members →
      ∃ text, (boards (console s history)).getLast? = some text ∧ Tells text room.game := by
    intro s r room hquiet hon hs
    have hmirrors := (hquiet.upToDate hinit hrun).mirrors r room hon hs
    refine ⟨_, run_shown hrun s ?_, hmirrors.tells⟩
    rw [hmirrors.state]
    decide
  refine ⟨fun s => run_shown hrun s, hlast, fun s s' r room hquiet hquiet' hon hs hs' => ?_⟩
  obtain ⟨text, htext, htells⟩ := hlast s r room hquiet hon hs
  obtain ⟨text', htext', -⟩ := hlast s' r room hquiet' hon hs'
  have hmirrors' := (hquiet'.upToDate hinit hrun).mirrors r room hon hs'
  -- the text that the one reads is the one that the view of the other prints
  have hprinted : (w.links s').client.game.print = text :=
    (htells _).mpr ((hmirrors'.tells _).mp rfl)
  have hstate : (w.links s').client.game.state ≠ .notStarted := by
    rw [hmirrors'.state]
    decide
  rw [htext, run_shown hrun s' hstate, hprinted]

theorem boards_shown_stone : ∃ app0 history w text, ∃ room : Room,
    ServerApp.init {} true = .ok (some app0) ∧ WorldRun (fun b => b.length) app0 history w ∧
      room.game.moveCount = 1 ∧ (boards (console 1 history)).getLast? = some text ∧
        (boards (console 2 history)).getLast? = some text ∧ Tells text room.game := by
  obtain ⟨app0, history, w, hinit, hrun, hcheck⟩ :=
    scripted firstStone stonePlaced ⟨_, rfl, by decide +kernel⟩
  simp only [stonePlaced, Bool.and_eq_true, Option.any_eq_true, decide_eq_true_eq,
    List.all_eq_true] at hcheck
  obtain ⟨⟨⟨-, h1⟩, h2⟩, room, hroom, hphase, hmoves, hin1, hin2⟩ := hcheck
  obtain ⟨-, hlast, hsame⟩ := boards_shown hinit hrun
  obtain ⟨text, htext, htells⟩ := hlast 1 1 room (isQuiet_quiet h1) ⟨hroom, hphase⟩ hin1
  have hboth := hsame 1 2 1 room (isQuiet_quiet h1) (isQuiet_quiet h2) ⟨hroom, hphase⟩ hin1 hin2
  exact ⟨app0, history, w, text, room, hinit, hrun, hmoves, htext, hboth.symm.trans htext, htells⟩

end SelectServer
