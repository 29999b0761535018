import SelectServer.ClientApp
import SelectServer.Lib.History

/- `ConsoleLineInput` and the loop of `main` that pops its lines. Its thread
   `ReadLines` reads the console and puts the lines in a queue behind a mutex while
   the loop goes on, so a step here is what one of the two does without the other
   seeing less: the section under the lock is one step, and so is each look at an
   atomic flag. `lines_handled` says what `main` gets to see of what is typed. -/
namespace SelectServer
open Wire (Bytes)
open Histories

/-- A `std::wstring`, in its units. -/
abbrev WideText := List UInt16

/-- `ToUtf8`, none where it throws; `wideCharToMultiByte` is the call for `CP_UTF8` with
`WC_ERR_INVALID_CHARS`, none where it returns 0. -/
def toUtf8 (wideCharToMultiByte : WideText → Option Bytes) (text : WideText) : Option Bytes :=
  if text.isEmpty then some [] else wideCharToMultiByte text

/-- What `ReadConsoleW` reads into the buffer. -/
structure ConsoleChunk where
  units : WideText
  nonempty : units ≠ []
  fits : units.length ≤ 256

/-- Where `ReadLines` is. -/
inductive ReadPhase where
  /-- Before the condition of the loop. -/
  | checking
  /-- In `ReadConsoleW`. -/
  | reading
  /-- In the loop over the units, of which `buffer` are left. -/
  | scanning (buffer : WideText)
  /-- Out of the loop. -/
  | finishing
  | ended
  deriving DecidableEq, Repr

structure ConsoleLineInput where
  lines : List WideText := []
  stopping : Bool := false
  finished : Bool := false
  phase : ReadPhase := .checking
  /-- The local `line` of `ReadLines`. -/
  line : WideText := []

inductive ReadInput where
  | go
  /-- `ReadConsoleW` returns; none where it fails or reads nothing. -/
  | read (answer : Option ConsoleChunk)

/-- A line without the `\r` before its end. -/
def withoutReturn (line : WideText) : WideText :=
  if line.getLast? = some 13 then line.dropLast else line

namespace ConsoleLineInput

/-- One unit in the loop of `ReadLines`. -/
def scan (c : ConsoleLineInput) (unit : UInt16) : ConsoleLineInput :=
  if unit = 10 then { c with lines := c.lines ++ [withoutReturn c.line], line := [] }
  else { c with line := c.line ++ [unit] }

/-- A step of `ReadLines`. -/
def readLines (c : ConsoleLineInput) : ReadInput → Option ConsoleLineInput
  | .go =>
    match c.phase with
    | .checking => some { c with phase := if c.stopping then .finishing else .reading }
    | .reading => none
    | .scanning [] => some { c with phase := .checking }
    | .scanning (unit :: buffer) => some { c.scan unit with phase := .scanning buffer }
    | .finishing => some { c with finished := true, phase := .ended }
    | .ended => none
  | .read answer =>
    if c.phase ≠ .reading then none
    else
      match answer with
      | none => some { c with phase := .finishing }
      | some chunk => some { c with phase := .scanning chunk.units }

def tryPop (c : ConsoleLineInput) : Option (WideText × ConsoleLineInput) :=
  match c.lines with
  | [] => none
  | line :: lines => some (line, { c with lines := lines })

/-- What has been read, and not yet scanned. -/
def unscanned (c : ConsoleLineInput) : WideText :=
  match c.phase with
  | .scanning buffer => buffer
  | _ => []

end ConsoleLineInput

/-- Where the loop of `main` is. -/
inductive MainPhase where
  /-- Before `TryPop`. -/
  | popping
  /-- Before `Finished`. -/
  | asking
  /-- Before `Run`. -/
  | serving
  /-- Out of the loop. -/
  | left
  deriving DecidableEq, Repr

structure ConsoleClient where
  console : ConsoleLineInput := {}
  phase : MainPhase := .popping
  app : ClientApp := {}

inductive ConsoleInput where
  | reader (l : ReadInput)
  | tryPop
  | finished
  /-- `Run`, and `ProcessResponse` for every packet. -/
  | run (os : ClientSockets)
  /-- The destructor of the console sets `m_stopping`. -/
  | destroy

namespace ConsoleClient

/-- The loop goes on at `phase` unless it has been left. -/
def goOn (c : ConsoleClient) (app : ClientApp) (phase : MainPhase) : ConsoleClient :=
  { c with app := app, phase := if app.exit.isSome then .left else phase }

def step (wideCharToMultiByte : WideText → Option Bytes) (c : ConsoleClient) :
    ConsoleInput → Option ConsoleClient
  | .reader l => (c.console.readLines l).map fun console => { c with console := console }
  | .tryPop =>
    if c.phase ≠ .popping then none
    else
      match c.console.tryPop with
      | none => some { c with phase := .asking }
      | some (line, console) =>
        (c.app.step (.line (toUtf8 wideCharToMultiByte line))).map fun app =>
          goOn { c with console := console } app .popping
  | .finished =>
    if c.phase ≠ .asking then none
    else if c.console.finished then
      (c.app.step .inputFinished).map fun app => c.goOn app .left
    else some { c with phase := .serving }
  | .run os =>
    if c.phase ≠ .serving then none
    else (c.app.step (.run os)).map fun app => c.goOn app .popping
  | .destroy =>
    if c.phase ≠ .left then none
    else some { c with console := { c.console with stopping := true } }

end ConsoleClient

def ConsoleStep (wideCharToMultiByte : WideText → Option Bytes) (c : ConsoleClient)
    (l : ConsoleInput) (c' : ConsoleClient) : Prop :=
  c.step wideCharToMultiByte l = some c'

/-- The line that an input is. -/
def ClientInput.typed : ClientInput → Option (Option Bytes)
  | .line text => some text
  | _ => none

def ClientStep (c : ClientApp) (l : ClientInput) (c' : ClientApp) : Prop := c.step l = some c'

/-! ## What happens in a run -/

namespace ConsoleInput

/-- What was read from the console. -/
def read (history : List (Entry ConsoleClient ConsoleInput)) : WideText :=
  history.flatMap fun e =>
    match e.label with
    | .reader (.read (some chunk)) => chunk.units
    | _ => []

/-- The lines that `TryPop` has found. -/
def found (history : List (Entry ConsoleClient ConsoleInput)) : List WideText :=
  history.flatMap fun e =>
    match e.label with
    | .tryPop => e.pre.console.lines.take 1
    | _ => []

/-- What an entry is to the program without its console. -/
def seen (wideCharToMultiByte : WideText → Option Bytes) (e : Entry ConsoleClient ConsoleInput) :
    List ClientInput :=
  match e.label with
  | .tryPop => (e.pre.console.lines.take 1).map fun line => .line (toUtf8 wideCharToMultiByte line)
  | .finished => if e.pre.console.finished then [.inputFinished] else []
  | .run os => [.run os]
  | _ => []

end ConsoleInput
open ConsoleInput

/-- `text` is the lines `lines`, each with its end, and then `rest`, which is no whole line. -/
structure Lines (text : WideText) (lines : List WideText) (rest : WideText) : Prop where
  split : text = lines.flatMap (· ++ [10]) ++ rest
  whole : ∀ line ∈ lines, 10 ∉ line
  open_end : 10 ∉ rest

namespace Lines
variable {text : WideText} {lines : List WideText} {rest : WideText}

theorem nil : Lines [] [] [] := ⟨rfl, by simp, by simp⟩

theorem ended (h : Lines text lines rest) : Lines (text ++ [10]) (lines ++ [rest]) [] where
  split := by
    rw [h.split, List.flatMap_append, List.flatMap_singleton]
    simp only [List.append_assoc, List.append_nil]
  whole line hline := by
    cases List.mem_append.mp hline with
    | inl hline => exact h.whole line hline
    | inr hline =>
      rw [List.mem_singleton.mp hline]
      exact h.open_end
  open_end := List.not_mem_nil

theorem longer (h : Lines text lines rest) {unit : UInt16} (hunit : unit ≠ 10) :
    Lines (text ++ [unit]) lines (rest ++ [unit]) where
  split := by rw [h.split, List.append_assoc]
  whole := h.whole
  open_end hin := by
    cases List.mem_append.mp hin with
    | inl hin => exact h.open_end hin
    | inr hin => exact hunit (List.mem_singleton.mp hin).symm

end Lines
namespace ConsoleClient
variable {w : WideText → Option Bytes} {c c' : ConsoleClient}
variable {history : List (Entry ConsoleClient ConsoleInput)}

/-- What a step does, by whose it is. -/
inductive Stepped (w : WideText → Option Bytes) (c : ConsoleClient) :
    ConsoleInput → ConsoleClient → Prop
  | reader {l : ReadInput} {console : ConsoleLineInput} (h : c.console.readLines l = some console) :
      Stepped w c (.reader l) { c with console := console }
  | none (hphase : c.phase = .popping) (hlines : c.console.lines = []) :
      Stepped w c .tryPop { c with phase := .asking }
  | popped {line : WideText} {lines : List WideText} {app : ClientApp} (hphase : c.phase = .popping)
      (hlines : c.console.lines = line :: lines) (happ : c.app.step (.line (toUtf8 w line)) = some app) :
      Stepped w c .tryPop
        (goOn { c with console := { c.console with lines := lines } } app .popping)
  | ended {app : ClientApp} (hphase : c.phase = .asking) (hfinished : c.console.finished = true)
      (happ : c.app.step .inputFinished = some app) : Stepped w c .finished (c.goOn app .left)
  | more (hphase : c.phase = .asking) (hfinished : c.console.finished = false) :
      Stepped w c .finished { c with phase := .serving }
  | ran {os : ClientSockets} {app : ClientApp} (hphase : c.phase = .serving)
      (happ : c.app.step (.run os) = some app) : Stepped w c (.run os) (c.goOn app .popping)
  | destroyed (hphase : c.phase = .left) :
      Stepped w c .destroy { c with console := { c.console with stopping := true } }

theorem step_cases {l : ConsoleInput} (h : ConsoleStep w c l c') : Stepped w c l c' := by
  unfold ConsoleStep step at h
  cases l with
  | reader l =>
    obtain ⟨console, hread, rfl⟩ := Option.map_eq_some_iff.mp h
    exact .reader hread
  | tryPop =>
    dsimp only at h
    split at h
    · cases h
    rename_i hphase
    have hphase := not_not.mp hphase
    unfold ConsoleLineInput.tryPop at h
    cases hlines : c.console.lines with
    | nil =>
      rw [hlines] at h
      cases h
      exact .none hphase hlines
    | cons line lines =>
      rw [hlines] at h
      obtain ⟨app, happ, rfl⟩ := Option.map_eq_some_iff.mp h
      exact .popped hphase hlines happ
  | finished =>
    dsimp only at h
    split at h
    · cases h
    rename_i hphase
    have hphase := not_not.mp hphase
    split at h
    · rename_i hfinished
      obtain ⟨app, happ, rfl⟩ := Option.map_eq_some_iff.mp h
      exact .ended hphase hfinished happ
    · rename_i hfinished
      cases h
      exact .more hphase (Bool.eq_false_iff.mpr hfinished)
  | run os =>
    dsimp only at h
    split at h
    · cases h
    rename_i hphase
    obtain ⟨app, happ, rfl⟩ := Option.map_eq_some_iff.mp h
    exact .ran (not_not.mp hphase) happ
  | destroy =>
    dsimp only at h
    split at h
    · cases h
    rename_i hphase
    cases h
    exact .destroyed (not_not.mp hphase)

/-! ## The lines -/

/-- What `ReadLines` has got from `text`, and what it has put in the queue of that. -/
def Scans (text : WideText) (put : List WideText) (c : ConsoleLineInput) : Prop :=
  ∃ scanned lines, text = scanned ++ c.unscanned ∧ Lines scanned lines c.line ∧
    put = lines.map withoutReturn

/-- A step of `ReadLines` takes a unit of what is read, or a chunk is read, or neither. -/
theorem Scans.readLines {text : WideText} {taken : List WideText} {c c' : ConsoleLineInput}
    {l : ReadInput} (h : Scans text (taken ++ c.lines) c) (hstep : c.readLines l = some c') :
    Scans (text ++ ConsoleInput.read [⟨{ console := c }, .reader l, { console := c' }⟩])
      (taken ++ c'.lines) c' := by
  obtain ⟨scanned, lines, htext, hlines, hput⟩ := h
  unfold ConsoleLineInput.readLines at hstep
  cases l with
  | go =>
    have hread : ConsoleInput.read [⟨{ console := c }, .reader .go, { console := c' }⟩] = [] := rfl
    rw [hread, List.append_nil]
    unfold ConsoleLineInput.unscanned at htext
    dsimp only at hstep
    split at hstep
    · rename_i hphase
      rw [hphase] at htext
      cases hstep
      refine ⟨scanned, lines, ?_, hlines, hput⟩
      cases hstopping : c.stopping with
      | true => exact htext
      | false => exact htext
    · cases hstep
    · rename_i hphase
      rw [hphase] at htext
      cases hstep
      exact ⟨scanned, lines, htext, hlines, hput⟩
    · rename_i unit buffer hphase
      rw [hphase] at htext
      cases hstep
      have htext : text = (scanned ++ [unit]) ++ buffer := by
        rw [htext, List.append_assoc]
        rfl
      unfold ConsoleLineInput.scan
      by_cases hunit : unit = 10
      · rw [if_pos hunit]
        subst hunit
        refine ⟨scanned ++ [10], lines ++ [c.line], htext, hlines.ended, ?_⟩
        show taken ++ (c.lines ++ [withoutReturn c.line]) = _
        rw [List.map_append, ← hput, List.append_assoc]
        rfl
      · rw [if_neg hunit]
        exact ⟨scanned ++ [unit], lines, htext, hlines.longer hunit, hput⟩
    · rename_i hphase
      rw [hphase] at htext
      cases hstep
      exact ⟨scanned, lines, htext, hlines, hput⟩
    · cases hstep
  | read answer =>
    dsimp only at hstep
    split at hstep
    · cases hstep
    rename_i hphase
    unfold ConsoleLineInput.unscanned at htext
    rw [not_not.mp hphase] at htext
    cases answer with
    | none =>
      cases hstep
      refine ⟨scanned, lines, ?_, hlines, hput⟩
      rw [htext]
      exact List.append_nil _
    | some chunk =>
      cases hstep
      refine ⟨scanned, lines, ?_, hlines, hput⟩
      rw [htext, List.append_nil]
      show scanned ++ (chunk.units ++ []) = scanned ++ chunk.units
      rw [List.append_nil]

theorem run_scans (hrun : Run (ConsoleStep w) {} history c) :
    Scans (read history) (found history ++ c.console.lines) c.console := by
  induction hrun with
  | start => exact ⟨[], [], rfl, .nil, rfl⟩
  | @snoc history c c' l _ htaken ih =>
    have hread : read (history ++ [⟨c, l, c'⟩]) = read history ++ read [⟨c, l, c'⟩] :=
      List.flatMap_append
    have hpopped : found (history ++ [⟨c, l, c'⟩]) = found history ++ found [⟨c, l, c'⟩] :=
      List.flatMap_append
    -- a step of `main` reads nothing, and what it pops is no longer queued
    have hmain : read [⟨c, l, c'⟩] = [] → c'.console.unscanned = c.console.unscanned →
        c'.console.line = c.console.line →
        found [⟨c, l, c'⟩] ++ c'.console.lines = c.console.lines →
          Scans (read (history ++ [⟨c, l, c'⟩]))
            (found (history ++ [⟨c, l, c'⟩]) ++ c'.console.lines) c'.console := by
      intro hnothing hunscanned hline hlines
      rw [hread, hnothing, List.append_nil, hpopped, List.append_assoc, hlines]
      unfold Scans
      rw [hunscanned, hline]
      exact ih
    cases step_cases htaken with
    | reader h =>
      rw [hread, hpopped]
      show Scans _ (found history ++ [] ++ _) _
      rw [List.append_nil]
      exact ih.readLines h
    | none hphase hlines =>
      refine hmain rfl rfl rfl ?_
      show c.console.lines.take 1 ++ [] ++ c.console.lines = c.console.lines
      rw [hlines]
      rfl
    | popped hphase hlines =>
      refine hmain rfl rfl rfl ?_
      show c.console.lines.take 1 ++ [] ++ _ = c.console.lines
      rw [hlines]
      rfl
    | ended => exact hmain rfl rfl rfl rfl
    | more => exact hmain rfl rfl rfl rfl
    | ran => exact hmain rfl rfl rfl rfl
    | destroyed => exact hmain rfl rfl rfl rfl

/-! ## The program without its console -/

/-- What `main` does is a run of the program that is given the lines. -/
theorem run_client (hrun : Run (ConsoleStep w) {} history c) :
    ∃ entries, Run ClientStep {} entries c.app ∧
      entries.map (·.label) = history.flatMap (seen w) := by
  induction hrun with
  | start => exact ⟨[], .start, rfl⟩
  | @snoc history c c' l _ htaken ih =>
    obtain ⟨entries, hclient, hlabels⟩ := ih
    rw [List.flatMap_append, List.flatMap_singleton]
    have hsame : seen w ⟨c, l, c'⟩ = [] → c'.app = c.app → ∃ entries, Run ClientStep {} entries c'.app ∧
        entries.map (·.label) = history.flatMap (seen w) ++ seen w ⟨c, l, c'⟩ := by
      intro hnone happ
      rw [hnone, List.append_nil, happ]
      exact ⟨entries, hclient, hlabels⟩
    have hone : ∀ {input : ClientInput} {app : ClientApp}, seen w ⟨c, l, c'⟩ = [input] →
        c.app.step input = some app → c'.app = app → ∃ entries, Run ClientStep {} entries c'.app ∧
          entries.map (·.label) = history.flatMap (seen w) ++ seen w ⟨c, l, c'⟩ := by
      intro input app hseen hstep happ
      rw [hseen, happ]
      refine ⟨entries ++ [⟨c.app, input, app⟩], hclient.snoc hstep, ?_⟩
      rw [List.map_append, hlabels]
      rfl
    cases step_cases htaken with
    | reader => exact hsame rfl rfl
    | none hphase hlines =>
      refine hsame ?_ rfl
      show (c.console.lines.take 1).map _ = []
      rw [hlines]
      rfl
    | popped hphase hlines happ =>
      refine hone ?_ happ rfl
      show (c.console.lines.take 1).map _ = _
      rw [hlines]
      rfl
    | ended hphase hfinished happ =>
      refine hone ?_ happ rfl
      show (if c.console.finished = true then _ else _) = _
      rw [if_pos hfinished]
    | more hphase hfinished =>
      refine hsame ?_ rfl
      show (if c.console.finished = true then _ else _) = _
      rw [hfinished]
      rfl
    | ran hphase happ => exact hone rfl happ rfl
    | destroyed => exact hsame rfl rfl

/-! ## The end of the input -/

/-- Only the end of the input makes the program leave for it. -/
theorem step_inputFinished {app app' : ClientApp} {input : ClientInput}
    (h : app.step input = some app') (hexit : app'.exit = some .inputFinished) :
    input = .inputFinished := by
  unfold ClientApp.step at h
  split at h
  · cases h
  rename_i hrunning
  have hnone : app.exit = none := by simpa using hrunning
  have hstays : app' ≠ app := by
    rintro rfl
    rw [hnone] at hexit
    cases hexit
  cases input with
  | inputFinished => rfl
  | line text =>
    cases text with
    | none => exact absurd (Option.some.inj h).symm hstays
    | some text =>
      cases h
      have hcommand := app.command_spec text
      generalize app.command text = app' at hcommand hexit hstays
      cases hcommand with
      | nothing => exact absurd rfl hstays
      | asked =>
        have hexit : app.exit = some .inputFinished := hexit
        rw [hnone] at hexit
        cases hexit
      | left => cases hexit
  | run os =>
    obtain ⟨⟨fault, tcp⟩, -, hturn⟩ := Option.map_eq_some_iff.mp h
    cases fault with
    | some fault =>
      cases hturn
      cases hexit
    | none =>
      have hturn : ClientApp.respond tcp.packets { app with tcp := tcp } = app' := hturn
      have hrespond := ClientApp.respond_spec tcp.packets { app with tcp := tcp } rfl
      rw [hturn] at hrespond
      cases hrespond with
      | all =>
        have hexit : app.exit = some .inputFinished := hexit
        rw [hnone] at hexit
        cases hexit
      | refused _ _ _ _ hleft =>
        rw [hleft] at hexit
        cases hexit

/-- The loop is left with the program, and only the end of the thread is the end of the input. -/
structure Settled (c : ConsoleClient) : Prop where
  left : c.app.exit.isSome = true → c.phase = .left
  finished : c.app.exit = some .inputFinished → c.console.finished = true

theorem goOn_settled {app : ClientApp} {phase : MainPhase}
    (hfinished : app.exit = some .inputFinished → c.console.finished = true) :
    (c.goOn app phase).Settled where
  left hexit := by
    have hexit : app.exit.isSome = true := hexit
    show (if app.exit.isSome then MainPhase.left else phase) = .left
    rw [if_pos hexit]
  finished := hfinished

theorem readLines_finished {c c' : ConsoleLineInput} {l : ReadInput} (h : c.readLines l = some c')
    (hfinished : c.finished = true) : c'.finished = true := by
  unfold ConsoleLineInput.readLines at h
  cases l with
  | go =>
    dsimp only at h
    split at h
    · cases h
      exact hfinished
    · cases h
    · cases h
      exact hfinished
    · cases h
      unfold ConsoleLineInput.scan
      split
      · exact hfinished
      · exact hfinished
    · cases h
      rfl
    · cases h
  | read answer =>
    dsimp only at h
    split at h
    · cases h
    cases answer with
    | none =>
      cases h
      exact hfinished
    | some chunk =>
      cases h
      exact hfinished

theorem Settled.step (h : c.Settled) {l : ConsoleInput} (hstep : ConsoleStep w c l c') :
    c'.Settled := by
  have hrunning : c.phase ≠ .left → c.app.exit = none := by
    intro hphase
    cases hexit : c.app.exit with
    | none => rfl
    | some why => exact absurd (h.left (by rw [hexit]; rfl)) hphase
  have hon : ∀ {phase : MainPhase}, c.phase ≠ .left →
      ({ c with phase := phase } : ConsoleClient).Settled := by
    intro phase hphase
    have hnone := hrunning hphase
    constructor
    · intro hexit
      have hexit : c.app.exit.isSome = true := hexit
      rw [hnone] at hexit
      cases hexit
    · intro hexit
      have hexit : c.app.exit = some .inputFinished := hexit
      rw [hnone] at hexit
      cases hexit
  cases step_cases hstep with
  | reader hread => exact ⟨h.left, fun hexit => readLines_finished hread (h.finished hexit)⟩
  | none hphase => exact hon (by rw [hphase]; decide)
  | popped hphase hlines happ =>
    refine goOn_settled fun hexit => ?_
    cases step_inputFinished happ hexit
  | ended hphase hfinished => exact goOn_settled fun _ => hfinished
  | more hphase => exact hon (by rw [hphase]; decide)
  | ran hphase happ =>
    refine goOn_settled fun hexit => ?_
    cases step_inputFinished happ hexit
  | destroyed => exact ⟨h.left, h.finished⟩

theorem run_settled (hrun : Run (ConsoleStep w) {} history c) : c.Settled :=
  hrun.invariant ⟨fun h => (by cases h), fun h => (by cases h)⟩ fun _ _ _ hs ht => hs.step ht

/-- When the input has ended, `TryPop` had found nothing last, and nothing was popped or sent since. -/
theorem run_since (hrun : Run (ConsoleStep w) {} history c)
    (hexit : c.app.exit = some .inputFinished) :
    Since (fun e => e.label = .tryPop ∧ e.pre.console.lines = [])
      (fun e => e.label ≠ .tryPop ∧ ∀ os, e.label ≠ .run os) history := by
  refine hrun.since (P := fun c => c.phase = .asking ∨ c.app.exit = some .inputFinished) ?_ ?_
    (.inr hexit)
  · rintro (h | h)
    · cases h
    · cases h
  intro before c l c' hbefore htaken hp
  cases step_cases htaken with
  | reader => exact .inr ⟨hp, by simp⟩
  | none hphase hlines => exact .inl ⟨rfl, hlines⟩
  | popped hphase hlines happ =>
    cases hp with
    | inl hasking =>
      unfold goOn at hasking
      dsimp only at hasking
      split at hasking
      · cases hasking
      · cases hasking
    | inr hexit => cases step_inputFinished happ hexit
  | ended hphase => exact .inr ⟨.inl hphase, by simp⟩
  | more hphase => exact .inr ⟨.inl hphase, by simp⟩
  | ran hphase happ =>
    cases hp with
    | inl hasking =>
      unfold goOn at hasking
      dsimp only at hasking
      split at hasking
      · cases hasking
      · cases hasking
    | inr hexit => cases step_inputFinished happ hexit
  | destroyed hphase =>
    cases hp with
    | inl hasking =>
      have hasking : c.phase = .asking := hasking
      rw [hphase] at hasking
      cases hasking
    | inr hexit => exact .inr ⟨.inr hexit, by simp⟩

/-- The lines that the program is given are those that `TryPop` has found. -/
theorem seen_lines (w : WideText → Option Bytes) (history : List (Entry ConsoleClient ConsoleInput)) :
    (history.flatMap (seen w)).filterMap ClientInput.typed = (found history).map (toUtf8 w) := by
  unfold found
  rw [List.filterMap_flatMap, List.map_flatMap]
  apply List.flatMap_congr
  intro e _
  unfold seen
  cases e.label with
  | reader => rfl
  | tryPop =>
    dsimp only
    rw [List.filterMap_map]
    exact List.filterMap_eq_map ▸ rfl
  | finished =>
    dsimp only
    split
    · rfl
    · rfl
  | run => rfl
  | destroy => rfl

end ConsoleClient

open ConsoleClient

/-- In every run of the client with its console, in any order of the two threads and however the text
is cut into reads: the lines that were popped and those that are queued are the whole lines of what
was read, in order and without their `\r`; what `main` does is a run of the program that is given the
popped lines in UTF-8; and if it leaves because the input has ended, the thread is done, and every
line has been handled that was whole when `TryPop` last found none. -/
theorem lines_handled {w : WideText → Option Bytes} {c : ConsoleClient}
    {history : List (Entry ConsoleClient ConsoleInput)} (hrun : Run (ConsoleStep w) {} history c) :
    Scans (read history) (found history ++ c.console.lines) c.console ∧
    (∃ entries, Run ClientStep {} entries c.app ∧
      entries.filterMap (fun e => e.label.typed) = (found history).map (toUtf8 w)) ∧
    (c.app.exit = some .inputFinished → c.console.finished = true ∧
      ∃ before e after, history = before ++ e :: after ∧
        Scans (read before) (found history) e.pre.console ∧
          ∀ x ∈ after, x.label ≠ .tryPop ∧ ∀ os, x.label ≠ .run os) := by
  refine ⟨run_scans hrun, ?_, fun hexit => ?_⟩
  · obtain ⟨entries, hclient, hlabels⟩ := run_client hrun
    refine ⟨entries, hclient, ?_⟩
    rw [← seen_lines, ← hlabels, List.filterMap_map]
    rfl
  · obtain ⟨before, e, after, rfl, ⟨hlabel, hnone⟩, hafter⟩ := run_since hrun hexit
    refine ⟨(run_settled hrun).finished hexit, before, e, after, rfl, ?_, hafter⟩
    have hscans := run_scans hrun.until
    have hsame : found (before ++ e :: after) = found before ++ e.pre.console.lines := by
      have hthen : found (e :: after) = [] := by
        unfold found
        rw [List.flatMap_eq_nil_iff]
        intro x hx
        cases List.mem_cons.mp hx with
        | inl hx =>
          rw [hx, hlabel]
          dsimp only
          rw [hnone]
          rfl
        | inr hx =>
          have hother := (hafter x hx).1
          split
          · rename_i htry
            exact absurd htry hother
          · rfl
      rw [hnone, List.append_nil]
      unfold found at hthen ⊢
      rw [List.flatMap_append, hthen, List.append_nil]
    rw [hsame]
    exact hscans

/-- `WideCharToMultiByte`, for ASCII. -/
def narrow (text : WideText) : Option Bytes :=
  if text.all (· < 128) then some (text.map UInt16.toUInt8) else none

/-- `main` finds no more lines, `quit` is typed, the input ends, and only then `main` asks. -/
def lateLine : List ConsoleInput :=
  let go (n : Nat) : List ConsoleInput := List.replicate n (.reader .go)
  go 1 ++ [.reader (.read (some ⟨[120, 10], by decide, by decide⟩))] ++ go 4 ++ [.tryPop, .tryPop] ++
    [.reader (.read (some ⟨[113, 117, 105, 116, 13, 10], by decide, by decide⟩))] ++ go 8 ++
    [.reader (.read none)] ++ go 1 ++ [.finished]

/-- The program has left, and `quit` has not been handled. -/
def ConsoleClient.missed (history : List (Entry ConsoleClient ConsoleInput)) (c : ConsoleClient) :
    Bool :=
  decide (c.app.exit = some .inputFinished ∧ found history = [[120]] ∧
    c.console.lines = [[113, 117, 105, 116]])

theorem lines_handled_late : ∃ history c, Run (ConsoleStep narrow) {} history c ∧
    c.app.exit = some .inputFinished ∧ found history = [[120]] ∧
      c.console.lines = [[113, 117, 105, 116]] ∧ ∃ before e after, history = before ++ e :: after ∧
        Scans (read before) (found history) e.pre.console := by
  have hplayed : ∃ history c, Run (ConsoleStep narrow) {} history c ∧
      ConsoleClient.missed history c = true :=
    Run.played (fun _ _ _ htaken => htaken) (by decide +kernel :
      (play (ConsoleClient.step narrow) {} lateLine).any
        (fun r => ConsoleClient.missed r.1 r.2) = true)
  obtain ⟨history, c, hrun, hcheck⟩ := hplayed
  obtain ⟨hexit, hpopped, hlines⟩ := of_decide_eq_true hcheck
  obtain ⟨-, before, e, after, hhistory, hscans, -⟩ := (lines_handled hrun).2.2 hexit
  exact ⟨history, c, hrun, hexit, hpopped, hlines, before, e, after, hhistory, hscans⟩

end SelectServer
