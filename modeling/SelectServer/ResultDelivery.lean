import SelectServer.ClientSync

/- The delivery of results. What a session hears is read by an observer for one
   game: it waits for the game to be announced, then for its result, and stops at
   anything out of order. The observer follows every run in which no room starts a
   game with a result still queued, so by the end of the `Update` in which a game
   ended each of its players has its result, once and in its place. -/
namespace SelectServer
open Wire (Bytes)
open Histories Traces

/-- What a session has heard of one game. -/
inductive Delivery where
  | unheard
  | open_ (r : RoomId)
  | done (r : RoomId)
  deriving DecidableEq, Repr

namespace Notice

/-- A result of the game `g`. -/
def isEnd (g : GameId) : Notice → Bool
  | .ended n => n.game = g
  | _ => false

/-- A move of the game `g`. -/
def isMove (g : GameId) : Notice → Bool
  | .move n => n.game = g
  | _ => false

/-- A room that plays the game `g`. -/
def isStart (g : GameId) : Notice → Bool
  | .state n => n.phase = .playing && n.game = g
  | _ => false

/-- A room that plays another game than `g`. -/
def isOther (g : GameId) : Notice → Bool
  | .state n => n.phase = .playing && n.game ≠ g
  | _ => false

end Notice

/-- The observer for the game `g`. -/
def Delivery.hear (g : GameId) (d : Delivery) (notice : Notice) : Option Delivery :=
  match d with
  | .unheard =>
    match notice with
    | .state n =>
      if n.phase = .playing ∧ n.game = g then some (.open_ n.roomId) else some .unheard
    | _ => if notice.isEnd g ∨ notice.isMove g then none else some .unheard
  | .open_ r =>
    match notice with
    | .ended n =>
      if n.game = g then if n.roomId = r then some (.done r) else none else some (.open_ r)
    | _ => if notice.isOther g then none else some (.open_ r)
  | .done r => if notice.isEnd g ∨ notice.isMove g then none else some (.done r)

/-- The game `g` is announced in the room `r`, and after that its result, exactly once, after every
move of the game and before any other game is announced. -/
structure Delivered (r : RoomId) (g : GameId) (notices : List Notice) : Prop where
  parts : ∃ before start middle result after,
    notices = before ++ .state start :: (middle ++ .ended result :: after) ∧
      (start.phase = .playing ∧ start.roomId = r ∧ start.game = g) ∧
      (result.roomId = r ∧ result.game = g) ∧
      (∀ x ∈ before, x.isStart g = false) ∧
      (∀ x ∈ before ++ middle ++ after, x.isEnd g = false) ∧
      (∀ x ∈ before ++ after, x.isMove g = false) ∧
      ∀ x ∈ middle, x.isOther g = false

/-! ## What the observer has seen -/

section Observed
variable {g : GameId} {r : RoomId} {d : Delivery}

theorem hear_done {notice : Notice} (h : Delivery.hear g (.done r) notice = some d) :
    d = .done r ∧ notice.isEnd g = false ∧ notice.isMove g = false := by
  simp only [Delivery.hear] at h
  split at h
  · cases h
  · rename_i hclear
    rw [not_or, Bool.not_eq_true, Bool.not_eq_true] at hclear
    exact ⟨(Option.some.inj h).symm, hclear⟩

/-- The result, or something that leaves the game open. -/
theorem hear_open {notice : Notice} (h : Delivery.hear g (.open_ r) notice = some d) :
    (d = .done r ∧ ∃ n, notice = .ended n ∧ n.roomId = r ∧ n.game = g) ∨
      (d = .open_ r ∧ notice.isEnd g = false ∧ notice.isOther g = false) := by
  have hquiet : ∀ {notice : Notice}, notice.isEnd g = false →
      (if notice.isOther g then none else some (Delivery.open_ r)) = some d →
        d = .open_ r ∧ notice.isEnd g = false ∧ notice.isOther g = false := by
    intro notice hend h
    split at h
    · cases h
    · rename_i hother
      exact ⟨(Option.some.inj h).symm, hend, by simpa using hother⟩
  cases notice with
  | ended n =>
    simp only [Delivery.hear] at h
    split at h
    · rename_i hgame
      split at h
      · rename_i hroom
        exact Or.inl ⟨(Option.some.inj h).symm, n, rfl, hroom, hgame⟩
      · cases h
    · rename_i hgame
      exact Or.inr ⟨(Option.some.inj h).symm, by simp [Notice.isEnd, hgame], rfl⟩
  | garbled => exact Or.inr (hquiet rfl h)
  | other => exact Or.inr (hquiet rfl h)
  | left => exact Or.inr (hquiet rfl h)
  | state n => exact Or.inr (hquiet rfl h)
  | move n => exact Or.inr (hquiet rfl h)

/-- The announcement, or something that is not of the game. -/
theorem hear_unheard {notice : Notice} (h : Delivery.hear g .unheard notice = some d) :
    (∃ n, notice = .state n ∧ n.phase = .playing ∧ n.game = g ∧ d = .open_ n.roomId) ∨
      (d = .unheard ∧ notice.isStart g = false ∧ notice.isEnd g = false ∧
        notice.isMove g = false) := by
  have hquiet : ∀ {notice : Notice}, notice.isStart g = false →
      (if notice.isEnd g ∨ notice.isMove g then none else some Delivery.unheard) = some d →
        d = .unheard ∧ notice.isStart g = false ∧ notice.isEnd g = false ∧
          notice.isMove g = false := by
    intro notice hstart h
    split at h
    · cases h
    · rename_i hclear
      rw [not_or, Bool.not_eq_true, Bool.not_eq_true] at hclear
      exact ⟨(Option.some.inj h).symm, hstart, hclear⟩
  cases notice with
  | state n =>
    simp only [Delivery.hear] at h
    split at h
    · rename_i hstart
      exact Or.inl ⟨n, rfl, hstart.1, hstart.2, (Option.some.inj h).symm⟩
    · rename_i hother
      exact Or.inr ⟨(Option.some.inj h).symm, by simpa [Notice.isStart] using hother, rfl, rfl⟩
  | garbled => exact Or.inr (hquiet rfl h)
  | other => exact Or.inr (hquiet rfl h)
  | left => exact Or.inr (hquiet rfl h)
  | move n => exact Or.inr (hquiet rfl h)
  | ended n => exact Or.inr (hquiet rfl h)

theorem unheard_passes {notice : Notice} (hstart : notice.isStart g = false)
    (hend : notice.isEnd g = false) (hmove : notice.isMove g = false) :
    Delivery.hear g .unheard notice = some .unheard := by
  cases notice with
  | state n =>
    have hother : ¬ (n.phase = .playing ∧ n.game = g) := by simpa [Notice.isStart] using hstart
    simp [Delivery.hear, hother]
  | _ => simp [Delivery.hear, hend, hmove]

theorem done_passes {notice : Notice} (hend : notice.isEnd g = false)
    (hmove : notice.isMove g = false) : Delivery.hear g (.done r) notice = some (.done r) := by
  simp [Delivery.hear, hend, hmove]

theorem open_passes {notice : Notice} (hend : notice.isEnd g = false)
    (hother : notice.isOther g = false) : Delivery.hear g (.open_ r) notice = some (.open_ r) := by
  cases notice with
  | ended n =>
    have hgame : n.game ≠ g := by simpa [Notice.isEnd] using hend
    simp [Delivery.hear, hgame]
  | _ => simp [Delivery.hear, hother]

theorem observed_done (notices : List Notice) :
    notices.foldlM (Delivery.hear g) (.done r) = some d →
      d = .done r ∧ ∀ x ∈ notices, x.isEnd g = false ∧ x.isMove g = false := by
  induction notices with
  | nil =>
    intro h
    cases h
    exact ⟨rfl, by simp⟩
  | cons notice notices ih =>
    intro h
    obtain ⟨mid, e, hlater⟩ := Option.bind_eq_some_iff.mp h
    obtain ⟨rfl, hclear⟩ := hear_done e
    obtain ⟨rfl, hrest⟩ := ih hlater
    exact ⟨rfl, List.forall_mem_cons.mpr ⟨hclear, hrest⟩⟩

/-- From the announcement on, the observer keeps to the room. -/
theorem observed_open (notices : List Notice) :
    notices.foldlM (Delivery.hear g) (.open_ r) = some d →
      d = .open_ r ∨
        (d = .done r ∧ ∃ middle result after, notices = middle ++ .ended result :: after ∧
          (result.roomId = r ∧ result.game = g) ∧ (∀ x ∈ middle ++ after, x.isEnd g = false) ∧
            (∀ x ∈ after, x.isMove g = false) ∧ ∀ x ∈ middle, x.isOther g = false) := by
  induction notices with
  | nil =>
    intro h
    cases h
    exact Or.inl rfl
  | cons notice notices ih =>
    intro h
    obtain ⟨mid, e, hlater⟩ := Option.bind_eq_some_iff.mp h
    rcases hear_open e with ⟨rfl, n, rfl, hn⟩ | ⟨rfl, hend, hother⟩
    · obtain ⟨rfl, hrest⟩ := observed_done notices hlater
      exact Or.inr ⟨rfl, [], n, notices, rfl, hn, fun x hx => (hrest x hx).1,
        fun x hx => (hrest x hx).2, by simp⟩
    · rcases ih hlater with rfl | ⟨rfl, middle, result, after, rfl, hres, hends, hmoves, hothers⟩
      · exact Or.inl rfl
      · exact Or.inr ⟨rfl, notice :: middle, result, after, rfl, hres,
          List.forall_mem_cons.mpr ⟨hend, hends⟩, hmoves, List.forall_mem_cons.mpr ⟨hother, hothers⟩⟩

theorem observed_unheard (notices : List Notice) :
    notices.foldlM (Delivery.hear g) .unheard = some (.done r) → Delivered r g notices := by
  induction notices with
  | nil =>
    intro h
    cases h
  | cons notice notices ih =>
    intro h
    obtain ⟨mid, e, hlater⟩ := Option.bind_eq_some_iff.mp h
    rcases hear_unheard e with ⟨n, rfl, hphase, hgame, rfl⟩ | ⟨rfl, hstart, hend, hmove⟩
    · rcases observed_open notices hlater with
        hd | ⟨hd, middle, result, after, rfl, hres, hends, hmoves, hothers⟩
      · cases hd
      · have hr : n.roomId = r := by
          cases hd
          rfl
        exact ⟨[], n, middle, result, after, rfl, ⟨hphase, hr, hgame⟩, ⟨hres.1.trans hr, hres.2⟩,
          by simp, hends, hmoves, hothers⟩
    · obtain ⟨before, start, middle, result, after, rfl, hstarts, hres, hnews, hends, hmoves,
        hothers⟩ := (ih hlater).parts
      exact ⟨notice :: before, start, middle, result, after, rfl, hstarts, hres,
        List.forall_mem_cons.mpr ⟨hstart, hnews⟩, List.forall_mem_cons.mpr ⟨hend, hends⟩,
        List.forall_mem_cons.mpr ⟨hmove, hmoves⟩, hothers⟩

/-- Notices that the observer passes over. -/
theorem observed_pass (notices : List Notice)
    (h : ∀ x ∈ notices, Delivery.hear g d x = some d) :
    notices.foldlM (Delivery.hear g) d = some d := by
  induction notices with
  | nil => rfl
  | cons notice notices ih =>
    obtain ⟨hstep, hrest⟩ := List.forall_mem_cons.mp h
    exact Option.bind_eq_some_iff.mpr ⟨d, hstep, ih hrest⟩

/-- The observer reaches the end on exactly the notices that deliver the game. -/
theorem delivered_iff (notices : List Notice) :
    Delivered r g notices ↔ notices.foldlM (Delivery.hear g) .unheard = some (.done r) := by
  refine ⟨fun h => ?_, observed_unheard notices⟩
  obtain ⟨before, start, middle, result, after, rfl, ⟨hphase, rfl, hgame⟩, hres, hnews, hends, hmoves,
    hothers⟩ := h.parts
  simp only [List.forall_mem_append] at hends hmoves
  obtain ⟨⟨hends1, hends2⟩, hends3⟩ := hends
  have h1 : before.foldlM (Delivery.hear g) .unheard = some .unheard :=
    observed_pass _ fun x hx => unheard_passes (hnews x hx) (hends1 x hx) (hmoves.1 x hx)
  have h2 : Delivery.hear g .unheard (.state start) = some (.open_ start.roomId) :=
    if_pos ⟨hphase, hgame⟩
  have h3 : middle.foldlM (Delivery.hear g) (.open_ start.roomId) = some (.open_ start.roomId) :=
    observed_pass _ fun x hx => open_passes (hends2 x hx) (hothers x hx)
  have h4 : Delivery.hear g (.open_ start.roomId) (.ended result) = some (.done start.roomId) := by
    simp [Delivery.hear, hres]
  have h5 : after.foldlM (Delivery.hear g) (.done start.roomId) = some (.done start.roomId) :=
    observed_pass _ fun x hx => done_passes (hends3 x hx) (hmoves.2 x hx)
  rw [List.foldlM_append, h1, Option.bind_eq_bind, Option.bind_some, List.foldlM_cons, h2,
    Option.bind_eq_bind, Option.bind_some, List.foldlM_append, h3, Option.bind_eq_bind,
    Option.bind_some, List.foldlM_cons, h4, Option.bind_eq_bind, Option.bind_some, h5]

instance (r : RoomId) (g : GameId) (notices : List Notice) : Decidable (Delivered r g notices) :=
  decidable_of_iff _ (delivered_iff notices).symm

end Observed

/-! ## What the observer knows of the server -/

/-- What `s` has heard of the game `g`, against the rooms: nothing if it does not play it, the start
while it is on or its result is queued, all of it when it is over. -/
def Delivery.Fits (g : GameId) (s : SessionId) (m : RoomManager) : Delivery → Prop
  | .unheard =>
    (∀ (r : RoomId) (room : Room), m.On r room → room.gameId = g → s ∉ room.members) ∧
      ∀ f ∈ m.finishedGames, f.game = g → s ∉ f.targets
  | .open_ r =>
    (∃ room, m.On r room ∧ room.gameId = g ∧ s ∈ room.members) ∨
      ∃ f ∈ m.finishedGames, f.room = r ∧ f.game = g ∧ s ∈ f.targets
  | .done _ =>
    g ≤ m.lastGameId ∧ (∀ (r : RoomId) (room : Room), m.On r room → room.gameId ≠ g) ∧
      ∀ f ∈ m.finishedGames, f.game ≠ g

namespace RoomManager
variable {m : RoomManager} {room : Room} {g : OmokGame} {now : Time}

/-- A stone changes nothing in another room. -/
theorem on_stone_elsewhere {r : RoomId} {room' : Room} (hon : m.On room.id room) (h : m.On r room')
    (hne : r ≠ room.id) : (m.moved room g now).On r room' := by
  obtain ⟨-, hid, -, hphase⟩ := Room.moved_fields room g now
  unfold RoomManager.moved
  split
  · exact (on_moved (hphase.trans hon.2) r room').mpr (Or.inl ⟨h, hne⟩)
  · exact (on_settle _ _ _).mpr ⟨h, by rw [hid]; exact hne⟩

/-- After a stone the game is on, or its result is queued. -/
theorem on_or_queued (g : OmokGame) (now : Time) (hon : m.On room.id room) :
    (∃ room', (m.moved room g now).On room.id room' ∧ room'.gameId = room.gameId ∧
        room'.members = room.members) ∨
      ∃ f ∈ (m.moved room g now).finishedGames, f.room = room.id ∧ f.game = room.gameId ∧
        f.targets = room.members := by
  obtain ⟨-, hid, hnum, hphase⟩ := Room.moved_fields room g now
  unfold RoomManager.moved
  split
  · exact Or.inl ⟨_, (on_moved (hphase.trans hon.2) _ _).mpr (Or.inr ⟨rfl, rfl⟩), hnum,
      Room.moved_members room g now⟩
  · exact Or.inr ⟨_, List.mem_append_right _ (List.mem_singleton_self _), hid, hnum,
      Room.moved_members room g now⟩

theorem queued_before_stone {f : FinishedGame} (hf : f ∈ m.finishedGames) :
    f ∈ (m.moved room g now).finishedGames := by
  unfold RoomManager.moved
  split
  · exact hf
  · exact List.mem_append_left _ hf

end RoomManager

section Acts
variable {s : SessionId} {g : GameId} {m m' : RoomManager} {notices : List Notice} {r : RoomId}

theorem hear_one (g : GameId) (d : Delivery) (notice : Notice) :
    [notice].foldlM (Delivery.hear g) d = d.hear g notice := by
  show (d.hear g notice).bind some = d.hear g notice
  exact Option.bind_fun_some _

/-- A session that does not play the game. -/
theorem Act.unheard (h : Act (Undisturbed False s) s m notices m')
    (hd : Delivery.unheard.Fits g s m) :
    ∃ d', notices.foldlM (Delivery.hear g) .unheard = some d' ∧ d'.Fits g s m' := by
  obtain ⟨hrooms, hqueue⟩ := hd
  cases h with
  | quiet hquiet hsame =>
    refine ⟨.unheard, rfl, fun r room hon => hrooms r room ((hquiet.on r room).mp hon), ?_⟩
    rw [hsame]
    exact hqueue
  | @conceded room g1 reason hon =>
    refine ⟨.unheard, rfl, fun r room' hon' => ?_, fun f hf hgame => ?_⟩
    · exact hrooms r room' ((RoomManager.on_settle _ _ _).mp hon').1
    · rcases List.mem_append.mp hf with hf | hf
      · exact hqueue f hf hgame
      · obtain rfl := List.mem_singleton.mp hf
        exact hrooms _ _ hon hgame
  | @started room now _ hr hwait hlast _ hok' hheard =>
    have hon' : ∀ r room', (m.started room now).On r room' ↔ _ := RoomManager.on_started hr hwait
    have hroom' : (m.started room now).On room.id _ := RoomManager.started_on hr hwait
    cases hheard with
    | away haway =>
      refine ⟨.unheard, rfl, fun r room' hon hgame => ?_, hqueue⟩
      rcases (hon' r room').mp hon with hold | ⟨rfl, rfl⟩
      · exact hrooms r room' hold hgame
      · exact haway _ hon.1
    | @member room1 n hr1 hs hid hgame hphase =>
      obtain rfl := Option.some.inj (hroom'.1.symm.trans hr1)
      by_cases hmine : n.game = g
      · refine ⟨.open_ n.roomId, (hear_one g _ _).trans (if_pos ⟨hphase, hmine⟩), Or.inl ?_⟩
        rw [hid]
        exact ⟨_, hroom', hgame.symm.trans hmine, hs⟩
      · refine ⟨.unheard, (hear_one g _ _).trans (if_neg fun h => hmine h.2), ?_, hqueue⟩
        intro r room' hon hgame'
        rcases (hon' r room').mp hon with hold | ⟨rfl, rfl⟩
        · exact hrooms r room' hold hgame'
        · exact absurd (hgame.trans hgame') hmine
  | @moved room stone x y now hon hacc =>
    generalize (room.game.tryPlaceStone stone x y).2 = played
    have hrooms' : ∀ (r : RoomId) (room' : Room), (m.moved room played now).On r room' →
        room'.gameId = g → s ∉ room'.members := by
      intro r room' hon' hgame
      rcases RoomManager.on_after_stone hon hon' with ⟨hold, -⟩ | ⟨rfl, rfl, -⟩
      · exact hrooms r room' hold hgame
      · rw [Room.moved_members]
        exact hrooms _ _ hon ((Room.moved_fields room played now).2.2.1.symm.trans hgame)
    have hqueue' : ∀ f ∈ (m.moved room played now).finishedGames, f.game = g → s ∉ f.targets := by
      intro f hf hgame
      rcases RoomManager.queued_after_stone hf with hf | ⟨-, hnum, htargets, -⟩
      · exact hqueue f hf hgame
      · rw [htargets]
        exact hrooms _ _ hon (hnum.symm.trans hgame)
    refine ⟨.unheard, ?_, hrooms', hqueue'⟩
    split
    · rename_i hs
      have hother : room.gameId ≠ g := fun e => hrooms _ _ hon e hs
      refine (hear_one g _ _).trans (if_neg ?_)
      simp [Notice.isEnd, Notice.isMove, PacketProcessor.gameMove, RoomManager.acceptedMove, hother]
    · rfl
  | @state r _ hD hheard =>
    refine ⟨.unheard, ?_, hrooms, hqueue⟩
    cases hheard with
    | away => rfl
    | @member room n hr hs hid hgame hphase =>
      refine (hear_one g _ _).trans (if_neg fun h => ?_)
      exact hrooms r room ⟨hr, hphase.symm.trans h.1⟩ (hgame.symm.trans h.2) hs
  | @announced f rest hq =>
    refine ⟨.unheard, ?_, hrooms, fun f' hf' => hqueue f' (hq ▸ List.mem_cons_of_mem _ hf')⟩
    split
    · rename_i hs
      have hother : f.game ≠ g := fun e => hqueue f (hq ▸ List.mem_cons_self) e hs
      refine (hear_one g _ _).trans (if_neg ?_)
      simp [Notice.isEnd, Notice.isMove, PacketProcessor.gameEnd, hother]
    · rfl
  | left hq hgone => exact ⟨.unheard, rfl, hrooms, hqueue⟩

/-- A session whose game is over and announced. -/
theorem Act.done (h : Act (Undisturbed False s) s m notices m')
    (hd : (Delivery.done r).Fits g s m) :
    ∃ d', notices.foldlM (Delivery.hear g) (.done r) = some d' ∧ d'.Fits g s m' := by
  obtain ⟨hissued, hrooms, hqueue⟩ := hd
  cases h with
  | quiet hquiet hsame =>
    refine ⟨.done r, rfl, ?_, fun r room hon => hrooms r room ((hquiet.on r room).mp hon), ?_⟩
    · rw [hquiet.last]
      exact hissued
    · rw [hsame]
      exact hqueue
  | @conceded room g1 reason hon =>
    refine ⟨.done r, rfl, hissued, fun r room' hon' => ?_, fun f hf => ?_⟩
    · exact hrooms r room' ((RoomManager.on_settle _ _ _).mp hon').1
    · rcases List.mem_append.mp hf with hf | hf
      · exact hqueue f hf
      · obtain rfl := List.mem_singleton.mp hf
        exact hrooms _ _ hon
  | @started room now _ hr hwait hlast _ hok' hheard =>
    have hon' : ∀ r room', (m.started room now).On r room' ↔ _ := RoomManager.on_started hr hwait
    have hlt : m.lastGameId < m.lastGameId + 1 := by grind
    refine ⟨.done r, ?_, UInt32.le_of_lt (UInt32.lt_of_le_of_lt hissued hlt), ?_, hqueue⟩
    · cases hheard with
      | away => rfl
      | member => exact (hear_one g _ _).trans (done_passes rfl rfl)
    · intro r room' hon
      rcases (hon' r room').mp hon with hold | ⟨rfl, rfl⟩
      · exact hrooms r room' hold
      · show m.lastGameId + 1 ≠ g
        rintro rfl
        exact absurd hissued (UInt32.not_le.mpr hlt)
  | @moved room stone x y now hon hacc =>
    have hother := hrooms _ _ hon
    generalize (room.game.tryPlaceStone stone x y).2 = played
    refine ⟨.done r, ?_, ?_, fun r room' hon' => ?_, fun f hf => ?_⟩
    · split
      · refine (hear_one g _ _).trans (done_passes rfl ?_)
        simp [Notice.isMove, PacketProcessor.gameMove, RoomManager.acceptedMove, hother]
      · rfl
    · rw [RoomManager.moved_last]
      exact hissued
    · rcases RoomManager.on_after_stone hon hon' with ⟨hold, -⟩ | ⟨rfl, rfl, -⟩
      · exact hrooms r room' hold
      · rw [(Room.moved_fields room played now).2.2.1]
        exact hother
    · rcases RoomManager.queued_after_stone hf with hf | ⟨-, hnum, -, -⟩
      · exact hqueue f hf
      · rw [hnum]
        exact hother
  | state _ hheard =>
    refine ⟨.done r, ?_, hissued, hrooms, hqueue⟩
    cases hheard with
    | away => rfl
    | member => exact (hear_one g _ _).trans (done_passes rfl rfl)
  | @announced f rest hq =>
    refine ⟨.done r, ?_, hissued, hrooms, fun f' hf' => hqueue f' (hq ▸ List.mem_cons_of_mem _ hf')⟩
    have hother := hqueue f (hq ▸ List.mem_cons_self)
    split
    · refine (hear_one g _ _).trans (done_passes ?_ rfl)
      simp [Notice.isEnd, PacketProcessor.gameEnd, hother]
    · rfl
  | left hq hgone => exact ⟨.done r, rfl, hissued, hrooms, hqueue⟩

/-- A session whose game is on, or whose result is queued. -/
theorem Act.open_ (hok : m.Ok) (h : Act (Undisturbed False s) s m notices m')
    (hd : (Delivery.open_ r).Fits g s m) :
    ∃ d', notices.foldlM (Delivery.hear g) (.open_ r) = some d' ∧ d'.Fits g s m' := by
  cases h with
  | quiet hquiet hsame =>
    refine ⟨.open_ r, rfl, ?_⟩
    rcases hd with ⟨room, hon, hmine⟩ | ⟨f, hf, hmine⟩
    · exact Or.inl ⟨room, (hquiet.on r room).mpr hon, hmine⟩
    · exact Or.inr ⟨f, hsame ▸ hf, hmine⟩
  | @conceded room g1 reason hon =>
    refine ⟨.open_ r, rfl, ?_⟩
    rcases hd with ⟨room', hon', hgame, hs⟩ | ⟨f, hf, hmine⟩
    · by_cases e : r = room.id
      · subst e
        obtain rfl := RoomManager.on_unique hon' hon
        exact Or.inr ⟨_, List.mem_append_right _ (List.mem_singleton_self _), rfl, hgame, hs⟩
      · exact Or.inl ⟨room', (RoomManager.on_settle _ _ _).mpr ⟨hon', e⟩, hgame, hs⟩
    · exact Or.inr ⟨f, List.mem_append_left _ hf, hmine⟩
  | @started room now _ hr hwait hlast hD hok' hheard =>
    have hon' : ∀ r room', (m.started room now).On r room' ↔ _ := RoomManager.on_started hr hwait
    have hroom' : (m.started room now).On room.id _ := RoomManager.started_on hr hwait
    refine ⟨.open_ r, ?_, ?_⟩
    · cases hheard with
      | away => rfl
      | @member room1 n hr1 hs hid hgame hphase =>
        obtain rfl := Option.some.inj (hroom'.1.symm.trans hr1)
        refine (hear_one g _ _).trans (open_passes rfl ?_)
        have hsame : n.game = g := by
          rcases hd with ⟨room', hon, hmine, hs'⟩ | ⟨f, hf, -, -, hs'⟩
          · have hstill := (hon' r room').mpr (Or.inl hon)
            obtain ⟨-, rfl⟩ := hok'.wellFormed.on_same hroom' hs hstill.1 hs'
            exact hgame.trans hmine
          · exact absurd hs' (hD _ hr1 (Or.inr rfl) hs f hf)
        simp [Notice.isOther, hsame]
    · rcases hd with ⟨room', hon, hmine⟩ | hqueued
      · exact Or.inl ⟨room', (hon' r room').mpr (Or.inl hon), hmine⟩
      · exact Or.inr hqueued
  | @moved room stone x y now hon hacc =>
    generalize (room.game.tryPlaceStone stone x y).2 = played
    refine ⟨.open_ r, ?_, ?_⟩
    · split
      · exact (hear_one g _ _).trans (open_passes rfl rfl)
      · rfl
    · rcases hd with ⟨room', hon', hgame, hs⟩ | ⟨f, hf, hmine⟩
      · by_cases e : r = room.id
        · subst e
          obtain rfl := RoomManager.on_unique hon' hon
          rcases RoomManager.on_or_queued played now hon with
            ⟨room1, hon1, hnum, hmembers⟩ | ⟨f, hf, hroom, hnum, htargets⟩
          · exact Or.inl ⟨room1, hon1, hnum.trans hgame, hmembers ▸ hs⟩
          · exact Or.inr ⟨f, hf, hroom, hnum.trans hgame, htargets ▸ hs⟩
        · exact Or.inl ⟨room', RoomManager.on_stone_elsewhere hon hon' e, hgame, hs⟩
      · exact Or.inr ⟨f, RoomManager.queued_before_stone hf, hmine⟩
  | @state r' _ hD hheard =>
    refine ⟨.open_ r, ?_, hd⟩
    cases hheard with
    | away => rfl
    | @member room n hr hs hid hgame hphase =>
      refine (hear_one g _ _).trans (open_passes rfl ?_)
      cases hp : room.phase with
      | waiting => simp [Notice.isOther, hphase.trans hp]
      | playing =>
        have hsame : n.game = g := by
          rcases hd with ⟨room', hon, hmine, hs'⟩ | ⟨f, hf, -, -, hs'⟩
          · obtain ⟨-, rfl⟩ := hok.wellFormed.on_same hon hs' hr hs
            exact hgame.trans hmine
          · exact absurd hs' (hD _ hr (Or.inr hp) hs f hf)
        simp [Notice.isOther, hsame]
  | @announced f rest hq =>
    have hhead : f ∈ m.finishedGames := hq ▸ List.mem_cons_self
    -- either the result announced is the one of the game, or the game stays open
    have hcases : (f.room = r ∧ f.game = g ∧ s ∈ f.targets) ∨
        (f.game ≠ g ∧ (Delivery.open_ r).Fits g s { m with finishedGames := rest }) := by
      rcases hd with ⟨room, hon, hgame, hs⟩ | ⟨f0, hf0, hroom, hgame, hs⟩
      · exact Or.inr ⟨fun e => hok.over hhead hon (e.trans hgame.symm), Or.inl ⟨room, hon, hgame, hs⟩⟩
      · rw [hq] at hf0
        rcases List.mem_cons.mp hf0 with rfl | hf0
        · exact Or.inl ⟨hroom, hgame, hs⟩
        · exact Or.inr ⟨fun e => hok.once hq hf0 (hgame.trans e.symm),
            Or.inr ⟨f0, hf0, hroom, hgame, hs⟩⟩
    rcases hcases with ⟨rfl, rfl, hs⟩ | ⟨hother, hstill⟩
    · refine ⟨.done f.room, ?_, (hok.past hhead).2, ?_, fun f' hf' => hok.once hq hf'⟩
      · rw [if_pos hs]
        refine (hear_one f.game _ _).trans ?_
        simp [Delivery.hear, PacketProcessor.gameEnd]
      · exact fun r room hon => (hok.over hhead hon).symm
    · refine ⟨.open_ r, ?_, hstill⟩
      split
      · refine (hear_one g _ _).trans (open_passes ?_ rfl)
        simp [Notice.isEnd, PacketProcessor.gameEnd, hother]
      · rfl
  | left hq hgone =>
    rcases hd with ⟨room, hon, -, hs⟩ | ⟨f, hf, -⟩
    · exact absurd hs (hgone r room hon.1)
    · rw [hq] at hf
      cases hf

theorem Acts.observed (h : Acts (Undisturbed False s) s m notices m') {d : Delivery}
    (hd : d.Fits g s m) :
    ∃ d', notices.foldlM (Delivery.hear g) d = some d' ∧ d'.Fits g s m' := by
  refine Trace.follows (R := fun m d => Delivery.Fits g s m d) ?_ h hd
  rintro m a m' d ⟨hok, hact⟩ hd
  cases d with
  | unheard => exact hact.unheard hd
  | open_ r => exact hact.open_ hok hd
  | done r => exact hact.done hd

end Acts

/-! ## Runs -/

/-- The steps of a run that take no `ROOM_START_REQ` in a room with a result still queued. -/
def StartInTime (history : List (Entry Server Input)) : Prop :=
  ∀ e ∈ history, ∀ r, e.pre.rooms.Queued r → ¬ e.pre.rooms.Starts (e.pre.Asked e.label) r

theorem StartInTime.before {history : List (Entry Server Input)} {e : Entry Server Input}
    (h : StartInTime (history ++ [e])) : StartInTime history :=
  fun e' he' => h e' (List.mem_append_left _ he')

/-- Session ids only grow along a run. -/
theorem ServerRun.entry {host : Host} {timeout : Time} {p : PacketProcessor}
    (hmake : PacketProcessor.make {} timeout = .ok p) {history : List (Entry Server Input)}
    {c : Server} (hrun : ServerRun host p history c) {e : Entry Server Input} (he : e ∈ history) :
    e.post.Sound ∧ e.post.network.lastSessionId ≤ c.network.lastSessionId := by
  induction hrun with
  | start => cases he
  | @snoc before c c' l hbefore taken ih =>
    have hc := ServerRun.sound hmake hbefore
    rcases List.mem_append.mp he with he | he
    · obtain ⟨hsound, hle⟩ := ih he
      obtain ⟨packets, -, hserved⟩ := ServerStep.deed hc taken
      exact ⟨hsound, UInt64.le_trans hle hserved.last⟩
    · obtain rfl := List.mem_singleton.mp he
      exact ⟨ServerStep.sound hc taken, UInt64.le_refl _⟩

/-- A player of the game has heard that it is on, and nothing after its result. -/
theorem Delivery.Fits.playing {g : GameId} {s : SessionId} {m : RoomManager} {d : Delivery}
    (h : d.Fits g s m) (hok : m.Ok) {r : RoomId} {room : Room} (hon : m.On r room)
    (hgame : room.gameId = g) (hs : s ∈ room.members) : d = .open_ r := by
  cases d with
  | unheard => exact absurd hs (h.1 r room hon hgame)
  | done r' => exact absurd hgame (h.2.1 r room hon)
  | open_ r' =>
    rcases h with ⟨room', hon', -, hs'⟩ | ⟨f, hf, -, hsame, -⟩
    · rw [(hok.wellFormed.on_same hon hs hon'.1 hs').1]
    · exact absurd (hsame.trans hgame.symm) (hok.over hf hon)

/-- The observer has been told of the room, and keeps to it. -/
theorem observed_keeps {g : GameId} {r : RoomId} {d d' : Delivery} {notices : List Notice}
    (hd : d = .open_ r ∨ d = .done r) (h : notices.foldlM (Delivery.hear g) d = some d') :
    d' = .open_ r ∨ d' = .done r := by
  rcases hd with rfl | rfl
  · rcases observed_open notices h with h | ⟨h, -⟩
    · exact Or.inl h
    · exact Or.inr h
  · exact Or.inr (observed_done notices h).1

/-- The run invariant: the results are shelved, and the observer of each connected session goes on,
knowing of every game that the session has played in. -/
theorem ServerRun.observed (g : GameId) {host : Host} {timeout : Time} {p : PacketProcessor}
    (hmake : PacketProcessor.make {} timeout = .ok p) {history : List (Entry Server Input)}
    {c : Server} (hrun : ServerRun host p history c) (hstart : StartInTime history) :
    c.rooms.Shelved False ∧ ∀ s ∈ c.network.connected, ∃ d,
      (hears s c.network.sent).foldlM (Delivery.hear g) .unheard = some d ∧ d.Fits g s c.rooms ∧
        ∀ e ∈ history, ∀ (r : RoomId) (room : Room), e.post.rooms.On r room → room.gameId = g →
          s ∈ room.members → d = .open_ r ∨ d = .done r := by
  induction hrun with
  | start =>
    refine ⟨.empty (RoomManager.make_books (PacketProcessor.make_eq hmake).1).2, fun s hs => ?_⟩
    exact absurd hs (PacketProcessor.make_unconnected hmake s)
  | @snoc before c c' l hbefore taken ih =>
    obtain ⟨hshelved, hobserved⟩ := ih hstart.before
    have hc := ServerRun.sound hmake hbefore
    have hc' := ServerStep.sound hc taken
    obtain ⟨packets, hdeed, hsession⟩ := ServerStep.session hc taken
    have hstarts : ∀ r, c.rooms.Queued r → ¬ c.rooms.Starts (c.Asked l) r :=
      hstart ⟨c, l, c'⟩ (List.mem_append_right _ (List.mem_singleton_self _))
    have hshelved' := hdeed.shelved hc.rooms.wellFormed hshelved (fun h => h.elim) hstarts
    refine ⟨hshelved', fun s hs => ?_⟩
    rcases hsession s hs with ⟨hs, hmore⟩ | ⟨hlt, hnone, hgone⟩
    · obtain ⟨d, hd, hfits, hplayed⟩ := hobserved s hs
      have hacts := hdeed.acts hc.rooms hc.asked_id
        (hshelved.permits hc.rooms (fun h => h.elim) hstarts s) s
      obtain ⟨d', e, hfits'⟩ := hacts.observed hfits
      refine ⟨d', ?_, hfits', fun entry he r room hon hgame hmem => ?_⟩
      · rw [hmore, List.foldlM_append, hd]
        exact e
      rcases List.mem_append.mp he with he | he
      · exact observed_keeps (hplayed entry he r room hon hgame hmem) e
      · obtain rfl := List.mem_singleton.mp he
        exact Or.inl (hfits'.playing hc'.rooms hon hgame hmem)
    · refine ⟨.unheard, by rw [hnone]; rfl, ⟨?_, fun f hf _ hmem => ?_⟩, ?_⟩
      · exact fun r room hon _ => hgone r room hon.1
      · obtain ⟨room, hroom, -, hmembers, -⟩ := hshelved'.room f hf
        exact hgone f.room room hroom (hmembers ▸ hmem)
      · -- the session is newer than every entry before this one
        intro entry he r room hon _ hmem
        rcases List.mem_append.mp he with he | he
        · obtain ⟨hsound, hle⟩ := ServerRun.entry hmake hbefore he
          obtain ⟨u, hu, -⟩ := hsound.rooms.wellFormed.member hon.1 s hmem
          exact absurd (UInt64.le_trans (hsound.users s u hu) hle) (UInt64.not_le.mpr hlt)
        · obtain rfl := List.mem_singleton.mp he
          exact absurd hmem (hgone r room hon.1)

/-- In every run that takes no `ROOM_START_REQ` in a room with a result still queued: once a game is
over and `Update` has returned, each of its players that stayed connected has its result, once and
in its place. -/
theorem result_delivered {host : Host} {timeout : Time} {p : PacketProcessor}
    {history : List (Entry Server Input)} {c : Server} {e : Entry Server Input} {s : SessionId}
    {r : RoomId} {room : Room} (hmake : PacketProcessor.make {} timeout = .ok p)
    (hrun : ServerRun host p history c) (hstart : StartInTime history) (he : e ∈ history)
    (hon : e.post.rooms.On r room) (hs : s ∈ room.members)
    (hconnected : s ∈ c.network.connected) (hidle : c.updating = false)
    (hover : ¬ c.rooms.Live r room.gameId) :
    Delivered r room.gameId (hears s c.network.sent) := by
  obtain ⟨d, hd, hfits, hplayed⟩ := (hrun.observed room.gameId hmake hstart).2 s hconnected
  rcases hplayed e he r room hon rfl hs with rfl | rfl
  · exfalso
    rcases hfits with ⟨room', hon', hsame, -⟩ | ⟨f, hf, -⟩
    · exact hover ⟨room', hon', hsame⟩
    · rw [(hrun.sound hmake).idle hidle] at hf
      cases hf
  · exact observed_unheard _ hd

/-- A run in which the first session played game 1 in room 1, which is over when `Update` has
returned. -/
def playedOut (history : List (Entry Server Input)) (c : Server) : Bool :=
  history.any (fun e => (e.post.rooms.rooms[(1 : RoomId)]?).any
    fun room => room.phase = .playing && room.gameId = 1 && decide (1 ∈ room.members)) &&
  decide (1 ∈ c.network.connected) && !c.updating &&
  (c.rooms.rooms[(1 : RoomId)]?).all fun room => room.phase ≠ .playing || room.gameId ≠ 1

theorem playedOut_spec {history : List (Entry Server Input)} {c : Server}
    (h : playedOut history c = true) :
    (∃ e ∈ history, ∃ room, e.post.rooms.On 1 room ∧ room.gameId = 1 ∧ 1 ∈ room.members) ∧
      1 ∈ c.network.connected ∧ c.updating = false ∧ ¬ c.rooms.Live 1 1 := by
  simp only [playedOut, Bool.and_eq_true, decide_eq_true_eq, List.any_eq_true, Option.any_eq_true,
    Bool.not_eq_true'] at h
  obtain ⟨⟨⟨⟨e, he, room, hroom, ⟨hphase, hgame⟩, hs⟩, hconnected⟩, hidle⟩, hover⟩ := h
  refine ⟨⟨e, he, room, ⟨hroom, hphase⟩, hgame, hs⟩, hconnected, hidle, ?_⟩
  rintro ⟨room', ⟨hroom', hphase'⟩, hgame'⟩
  rw [hroom'] at hover
  simp [hphase', hgame'] at hover

theorem result_delivered_resigned : ∃ history c,
    ServerRun Host.ascii PacketProcessor.fresh history c ∧ StartInTime history ∧
      Delivered 1 1 (hears 1 c.network.sent) := by
  obtain ⟨history, c, hrun, hcheck⟩ := ServerRun.played Host.ascii PacketProcessor.fresh
    (resignedInputs ++ [.finish])
    (fun history c => history.all undisturbing && playedOut history c)
    (by decide +kernel)
  rw [Bool.and_eq_true, List.all_eq_true] at hcheck
  have hstart : StartInTime history := by
    rintro e he r hq ⟨event, u, room, guest, hasked, -⟩
    exact undisturbing_asked (hcheck.1 e he) hq event hasked
  obtain ⟨⟨e, he, room, hon, hgame, hs⟩, hconnected, hidle, hover⟩ := playedOut_spec hcheck.2
  have hdelivered := result_delivered PacketProcessor.make_fresh hrun hstart he hon hs hconnected
    hidle (by rw [hgame]; exact hover)
  exact ⟨history, c, hrun, hstart, hgame ▸ hdelivered⟩

/-- The host resigns, the guest gets ready and the host starts the next game in the same `Update`: the
result of the first game comes after the announcement of the second. -/
theorem result_after_rematch : ∃ history c,
    ServerRun Host.ascii PacketProcessor.fresh history c ∧
      (∃ e ∈ history, ∃ room, e.post.rooms.On 1 room ∧ room.gameId = 1 ∧ 1 ∈ room.members) ∧
        1 ∈ c.network.connected ∧ c.updating = false ∧ ¬ c.rooms.Live 1 1 ∧
          ¬ Delivered 1 1 (hears 1 c.network.sent) := by
  obtain ⟨history, c, hrun, hcheck⟩ := ServerRun.played Host.ascii PacketProcessor.fresh
    (resignedInputs ++ readyInputs ++ Input.request 1 roomStartReq [] ++ [.finish])
    (fun history c => playedOut history c && decide (¬ Delivered 1 1 (hears 1 c.network.sent)))
    (by decide +kernel)
  rw [Bool.and_eq_true, decide_eq_true_eq] at hcheck
  obtain ⟨hplayed, hconnected, hidle, hover⟩ := playedOut_spec hcheck.1
  exact ⟨history, c, hrun, hplayed, hconnected, hidle, hover, hcheck.2⟩

end SelectServer
