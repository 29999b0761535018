import SelectServer.EndOrigins
import SelectServer.WorldOrigins

/- Every game that is played to its end was ended by what a player typed, across the
   whole system. Whoever is told that a game has ended with a row of five, with a
   full board or with a resignation is told of a game that a player's `move` or
   `resign` has ended so on the server (`ends_typed`). -/
namespace SelectServer
open Wire (Bytes)
open Histories

namespace World

/-- A player typed the request, and the server took it after that as the end of the game of `f`. -/
def Concluded (history : List (Entry World WorldInput)) (f : FinishedGame) : Prop :=
  ∃ before e after player request now, history = before ++ e :: after ∧
    (∃ typed ∈ before, Types typed player request) ∧ Handles e player request now ∧
      e.pre.server.logic.rooms.EndsGame player request now f

variable {m : Bytes → Nat} {w w' : World} {app0 : ServerApp} {config : ServerConfig}
  {listening : Bool} {history : List (Entry World WorldInput)} {f : FinishedGame}

theorem Concluded.later (h : Concluded history f) (after : List (Entry World WorldInput)) :
    Concluded (history ++ after) f := by
  obtain ⟨before, e, later, player, request, now, rfl, hconcluded⟩ := h
  exact ⟨before, e, later ++ after, player, request, now, by simp, hconcluded⟩

/-- Such a result that is in the queue after a step was there before it, or the step handles the
request that ends the game. -/
theorem step_queued (hinit : ServerApp.init config listening = .ok (some app0))
    (hrun : WorldRun m app0 history w) {l : WorldInput} (htaken : WorldStep m w l w')
    (hplayed : f.Played) (hf : f ∈ w'.server.logic.rooms.finishedGames) :
    f ∈ w.server.logic.rooms.finishedGames ∨ ∃ player request now,
      Handles ⟨w, l, w'⟩ player request now ∧
        w.server.logic.rooms.EndsGame player request now f := by
  rcases step_logic hinit hrun htaken with ⟨hsame, -⟩ | ⟨host, _, p, past, input, hp, hpast, hstep, hl⟩
  · rw [hsame] at hf
    exact .inl hf
  rcases hstep.queued (ServerRun.sound hp hpast) hf hplayed with
    hold | ⟨player, request, now, ⟨loginNow, event, rest, hevent, hserved⟩, hends⟩
  · exact .inl hold
  · exact .inr ⟨player, request, now, ⟨loginNow, event, rest, hl _ _ hevent, hserved⟩, hends⟩

/-- Such a result was brought about by what a player typed. -/
theorem run_concluded (hinit : ServerApp.init config listening = .ok (some app0))
    (hrun : WorldRun m app0 history w) (hplayed : f.Played)
    (hf : f ∈ w.server.logic.rooms.finishedGames) : Concluded history f := by
  have hsource := hrun.brought (P := fun w => f ∈ w.server.logic.rooms.finishedGames)
    (Q := fun e => ∃ player request now, Handles e player request now ∧
      e.pre.server.logic.rooms.EndsGame player request now f)
    (fun _ _ _ _ hbefore htaken => step_queued hinit hbefore htaken hplayed) hf
  rcases hsource with
    hnone | ⟨before, e, after, rfl, hbefore, htaken, player, request, now, hhandles, hends⟩
  · have hnone : f ∈ app0.logic.rooms.finishedGames := hnone
    rw [(init_logic hinit).1] at hnone
    cases hnone
  · exact ⟨before, e, after, player, request, now, rfl, run_handles hinit hbefore htaken hhandles,
      hhandles, hends⟩

/-- The end of such a game that the server has told of was brought about by what a player typed. -/
theorem run_end_told (hinit : ServerApp.init config listening = .ok (some app0))
    (hrun : WorldRun m app0 history w) {packet : SentPacket} (hpacket : packet ∈ w.server.sent)
    {n : GameEndNotification} (hn : packet.packet.notice = .ended n) :
    ∃ f, n = PacketProcessor.gameEnd f ∧ (f.Played → Concluded history f) := by
  obtain ⟨before, e, after, rfl, hbefore, -, hwf, host, asked, packets, hin, hdeed⟩ :=
    run_sent hinit hrun hpacket
  -- its result was in the queue before the packet was sent
  obtain ⟨f, hf, hqueued⟩ := hdeed.end_queued hwf hin hn
  exact ⟨f, hf, fun hplayed =>
    (run_concluded hinit hbefore hplayed (hqueued hplayed)).later (e :: after)⟩

end World

open World

/-- In every run of the system, every client that is told of the end of a game with a row of five, a
full board or a resignation is told of a game that ended so: a player typed the line that asks for the
last stone, or that resigns, and the server handled it later, when it was in time and that player's
turn or game, and the result that is told is the one of that board, or the loss of that player. -/
theorem ends_typed {config : ServerConfig} {listening : Bool} {app0 : ServerApp} {m : Bytes → Nat}
    {history : List (Entry World WorldInput)} {w : World}
    (hinit : ServerApp.init config listening = .ok (some app0)) (hrun : WorldRun m app0 history w)
    {s : SessionId} {packet : ClientPacket} (hheard : packet ∈ (w.links s).client.heard)
    {n : GameEndNotification} (hn : packet.notice = .ended n)
    (hreason : n.reason = .fiveInRow ∨ n.reason = .boardFull ∨ n.reason = .resigned) :
    ∃ f, n = PacketProcessor.gameEnd f ∧ Concluded history f := by
  have hsent := (run_carries hinit hrun s).heard.1.subset hheard
  obtain ⟨sent, hin, rfl⟩ := List.mem_map.mp hsent
  obtain ⟨f, rfl, hconcluded⟩ := run_end_told hinit hrun (List.mem_filter.mp hin).1 hn
  exact ⟨f, rfl, hconcluded hreason⟩

/-- The notice is of a resignation. -/
def Notice.isResigned : Notice → Bool
  | .ended n => n.reason = .resigned
  | _ => false

/-- The first stone is placed, and the other player resigns. -/
def firstLoss : List (World → WorldInput) :=
  firstStone ++ typed 2 ['r', 'e', 's', 'i', 'g', 'n']

/-- The first player is told that a player has resigned. -/
def World.winHeard (w : World) : Bool :=
  (w.links 1).client.heard.any fun packet => packet.notice.isResigned

theorem ends_typed_resigned : ∃ app0 history w f, ServerApp.init {} true = .ok (some app0) ∧
    WorldRun (fun b => b.length) app0 history w ∧ f.reason = .resigned ∧ Concluded history f := by
  obtain ⟨app0, history, w, hinit, hrun, hcheck⟩ :=
    scripted firstLoss (fun _ w => w.winHeard) ⟨_, rfl, by decide +kernel⟩
  obtain ⟨packet, hheard, hresigned⟩ := List.any_eq_true.mp hcheck
  have hended : ∃ n, packet.notice = .ended n ∧ n.reason = .resigned := by
    cases hnotice : packet.notice with
    | ended n =>
      rw [hnotice] at hresigned
      exact ⟨n, rfl, of_decide_eq_true hresigned⟩
    | _ =>
      rw [hnotice] at hresigned
      cases hresigned
  obtain ⟨n, hn, hreason⟩ := hended
  obtain ⟨f, rfl, hconcluded⟩ := ends_typed hinit hrun hheard hn (.inr (.inr hreason))
  exact ⟨app0, history, w, f, hinit, hrun, hreason, hconcluded⟩

end SelectServer
