/-
  `MediaAudioFocusController`: the media are paused while the assistant speaks, and go on behind it, in all runs
  in which no executed Pause stays unconfirmed, and in no other. Nobody else commands the player, which starts
  in any state.
-/
import Cockpit.Lib.StepRun

namespace Cockpit.Voice

open StepRun List

/-! ## The media service -/

/-- `proto::media::MediaPlaybackState`. -/
inductive MediaPlaybackState where
  | unspecified | unavailable | stopped | playing | paused | faulted
  deriving DecidableEq

/-- The two commands of the controller. -/
inductive MediaCommand where
  | pause
  | resume
  deriving DecidableEq

/-- What the player does. -/
def MediaCommand.execute : MediaCommand → MediaPlaybackState → MediaPlaybackState
  | pause, .playing => .paused
  | resume, .paused => .playing
  | _, state => state

/-- What becomes of the RPC of a command. -/
inductive MediaRpc where
  /-- It is not executed. -/
  | lost
  /-- It is executed, and the reply does not arrive in time. -/
  | unanswered
  /-- It is executed, and the reply reports the state. -/
  | answered (state : MediaPlaybackState)
  deriving DecidableEq

namespace MediaRpc

/-- It got there. -/
def executed : MediaRpc → Bool
  | lost => false
  | unanswered | answered _ => true

/-- The RPC is `ok()` and reports the state. -/
def reports (rpc : MediaRpc) (state : MediaPlaybackState) : Bool := rpc == answered state

def apply (rpc : MediaRpc) (command : MediaCommand) (player : MediaPlaybackState) : MediaPlaybackState :=
  if rpc.executed then command.execute player else player

end MediaRpc

/-! ## The controller -/

/-- A pause is remembered only where the reply has confirmed it. -/
structure MediaAudioFocusController where
  acquired : Bool := false
  resumeNeeded : Bool := false
  deriving DecidableEq

/-- The controller and the player that it commands. -/
structure AudioFocus where
  controller : MediaAudioFocusController := {}
  player : MediaPlaybackState
  deriving DecidableEq

/-- Each makes at most two RPCs. -/
inductive FocusCall where
  /-- `statusAnswered`: the reply to `GetStatus` arrives; `pause`: what becomes of the Pause, if one is made. -/
  | acquireTts (statusAnswered : Bool) (pause : MediaRpc)
  | releaseTts (resume : MediaRpc)
  deriving DecidableEq

def FocusCall.isAcquire : FocusCall → Bool
  | acquireTts _ _ => true
  | releaseTts _ => false

/-- What `AcquireTts` returned, and the command that was issued. -/
structure FocusAnswer where
  returned : Option Bool := none
  issued : Option MediaCommand := none
  deriving DecidableEq

namespace AudioFocus

/-- `AcquireTts`. -/
def acquireTts (s : AudioFocus) (statusAnswered : Bool) (pause : MediaRpc) : AudioFocus × FocusAnswer :=
  if s.controller.acquired || !statusAnswered then (s, { returned := some false })
  else
    match s.player with
    | .playing =>
      let player := pause.apply .pause s.player
      if pause.reports .paused then
        ({ controller := { acquired := true, resumeNeeded := true }, player := player },
          { returned := some true, issued := some .pause })
      else ({ s with player := player }, { returned := some false, issued := some .pause })
    | .paused | .stopped | .unavailable =>
      ({ s with controller := { acquired := true, resumeNeeded := false } }, { returned := some true })
    | .faulted | .unspecified => (s, { returned := some false })

/-- `ReleaseTts`. -/
def releaseTts (s : AudioFocus) (resume : MediaRpc) : AudioFocus × FocusAnswer :=
  if !s.controller.acquired then (s, {})
  else if s.controller.resumeNeeded then
    ({ controller := {}, player := resume.apply .resume s.player }, { issued := some .resume })
  else ({ s with controller := {} }, {})

def step (s : AudioFocus) : FocusCall → AudioFocus × FocusAnswer
  | .acquireTts statusAnswered pause => s.acquireTts statusAnswered pause
  | .releaseTts resume => s.releaseTts resume

/-- A controller that has just been made. -/
def fresh (player : MediaPlaybackState) : AudioFocus := { player := player }

/-- The commands that were issued in a run. -/
def commands (history : List (FocusCall × FocusAnswer)) : List MediaCommand :=
  history.filterMap fun call => call.2.issued

/-! ## The law -/

/-- Right in front of each Resume there is a Pause. -/
def PausedFirst (commands : List MediaCommand) : Prop :=
  ∀ before after, commands = before ++ .resume :: after → before.getLast? = some .pause

/-- The music is given back in the run of the calls. -/
structure GivesBack (player : MediaPlaybackState) (calls : List FocusCall) : Prop where
  /-- A refused call leaves a player that was playing playing. -/
  refused : ∀ before call rest, calls = before ++ call :: rest →
    (run step (fresh player) before).player = .playing →
    ((run step (fresh player) before).step call).2.returned = some false →
    ((run step (fresh player) before).step call).1.player = .playing
  /-- The release behind an `AcquireTts` that met a playing player makes it play again, if its Resume is executed. -/
  released : ∀ before call between resume rest,
    calls = before ++ call :: between ++ .releaseTts resume :: rest →
    (run step (fresh player) before).player = .playing →
    ((run step (fresh player) before).step call).2.returned = some true →
    (∀ other ∈ between, other.isAcquire = true) →
    ((run step (fresh player) (before ++ call :: between)).step (.releaseTts resume)).2.issued = some .resume ∧
      (resume.executed = true →
        ((run step (fresh player) (before ++ call :: between)).step (.releaseTts resume)).1.player = .playing)
  owned : PausedFirst (commands (trace step (fresh player) calls))
  /-- A player that was paused before is never resumed. -/
  userPaused : player = .paused →
    .resume ∉ commands (trace step (fresh player) calls) ∧ (run step (fresh player) calls).player = .paused

/-- A Pause is executed, and the controller does not get to know. -/
def losesPause (s : AudioFocus) : FocusCall → Bool
  | .acquireTts statusAnswered pause =>
    !s.controller.acquired && statusAnswered && s.player == .playing && pause.executed && !pause.reports .paused
  | .releaseTts _ => false

/-! ## Steps -/

variable {s : AudioFocus} {call : FocusCall} {player : MediaPlaybackState} {calls : List FocusCall}

/-- What a step does: nothing, or it takes the focus with or without a pause, or it loses a pause, or it
    gives the focus back. -/
inductive Moves (s : AudioFocus) : FocusCall → AudioFocus → FocusAnswer → Prop where
  | refuses (statusAnswered : Bool) (pause : MediaRpc) : Moves s (.acquireTts statusAnswered pause) s { returned := some false }
  | joins (statusAnswered : Bool) (pause : MediaRpc) (hfree : s.controller.acquired = false)
    (hplayer : s.player ≠ .playing) :
    Moves s (.acquireTts statusAnswered pause) { s with controller := { acquired := true, resumeNeeded := false } }
      { returned := some true }
  | pauses (hfree : s.controller.acquired = false) (hplayer : s.player = .playing) :
    Moves s (.acquireTts true (.answered .paused))
      { controller := { acquired := true, resumeNeeded := true }, player := .paused }
      { returned := some true, issued := some .pause }
  | fails {pause : MediaRpc} (hfree : s.controller.acquired = false) (hplayer : s.player = .playing)
    (hunconfirmed : pause.reports .paused = false) :
    Moves s (.acquireTts true pause) { s with player := pause.apply .pause .playing }
      { returned := some false, issued := some .pause }
  | idles (resume : MediaRpc) (hfree : s.controller.acquired = false) : Moves s (.releaseTts resume) s {}
  | resumes (resume : MediaRpc) (hheld : s.controller.acquired = true) (hneeded : s.controller.resumeNeeded = true) :
    Moves s (.releaseTts resume) { controller := {}, player := resume.apply .resume s.player }
      { issued := some .resume }
  | leaves (resume : MediaRpc) (hheld : s.controller.acquired = true) (hneeded : s.controller.resumeNeeded = false) :
    Moves s (.releaseTts resume) { s with controller := {} } {}

/-- All that a call can do. -/
theorem step_moves (s : AudioFocus) (call : FocusCall) : Moves s call (s.step call).1 (s.step call).2 := by
  cases call with
  | acquireTts statusAnswered pause =>
    show Moves s _ (s.acquireTts statusAnswered pause).1 (s.acquireTts statusAnswered pause).2
    unfold acquireTts
    split
    case isTrue => exact .refuses statusAnswered pause
    case isFalse hready =>
      simp only [Bool.or_eq_true, Bool.not_eq_true', not_or, Bool.not_eq_true, Bool.not_eq_false] at hready
      obtain ⟨hfree, rfl⟩ := hready
      split
      case h_1 hplayer =>
        rw [hplayer]
        by_cases hconf : pause.reports .paused = true
        · obtain rfl : pause = .answered .paused := by simpa [MediaRpc.reports] using hconf
          exact .pauses hfree hplayer
        · simp only [hconf]
          exact .fails hfree hplayer (by simpa using hconf)
      case h_5 | h_6 => exact .refuses true pause
      all_goals exact .joins true pause hfree (by simp [*])
  | releaseTts resume =>
    show Moves s _ (s.releaseTts resume).1 (s.releaseTts resume).2
    unfold releaseTts
    cases hacquired : s.controller.acquired with
    | false => exact .idles resume hacquired
    | true =>
      cases hneeded : s.controller.resumeNeeded with
      | false => exact .leaves resume hacquired hneeded
      | true => exact .resumes resume hacquired hneeded

theorem step_acquire_of_held (hheld : s.controller.acquired = true) (hcall : call.isAcquire = true) :
    (s.step call).1 = s := by
  cases call with
  | acquireTts statusAnswered pause => simp [step, acquireTts, hheld]
  | releaseTts => cases hcall

theorem run_acquires_of_held (hheld : s.controller.acquired = true)
    (hcalls : ∀ call ∈ calls, call.isAcquire = true) : run step s calls = s := by
  induction calls with
  | nil => rfl
  | cons call calls ih =>
    rw [run_cons, step_acquire_of_held hheld (hcalls call mem_cons_self)]
    exact ih fun other hother => hcalls other (mem_cons_of_mem call hother)

/-! ## What the controller owns -/

/-- A pause that the controller will undo is the last command it has issued. -/
structure Owned (history : List (FocusCall × FocusAnswer)) (s : AudioFocus) : Prop where
  first : PausedFirst (commands history)
  pause : s.controller.resumeNeeded = true → (commands history).getLast? = some .pause

theorem pausedFirst_snoc {l : List MediaCommand} {command : MediaCommand} (h : PausedFirst l)
    (hcommand : command = .resume → l.getLast? = some .pause) : PausedFirst (l ++ [command]) := by
  intro before after hsplit
  rcases eq_nil_or_concat after with rfl | ⟨after', last, rfl⟩
  · obtain ⟨rfl, hlast⟩ := append_inj' hsplit rfl
    exact hcommand (by simpa using hlast)
  · rw [concat_eq_append, ← cons_append, ← append_assoc] at hsplit
    exact h before after' (append_inj' hsplit rfl).1

theorem commands_snoc (history : List (FocusCall × FocusAnswer)) (call : FocusCall × FocusAnswer) :
    commands (history ++ [call]) = commands history ++ call.2.issued.toList := filterMap_snoc _ history call

variable {history : List (FocusCall × FocusAnswer)}

theorem Owned.step (h : Owned history s) (call : FocusCall) :
    Owned (history ++ [(call, (s.step call).2)]) (s.step call).1 := by
  have hmoves := step_moves s call
  generalize s.step call = next at hmoves
  obtain ⟨s', answer⟩ := next
  have hcommands := commands_snoc history (call, answer)
  simp only at hmoves hcommands ⊢
  cases hmoves with
  | refuses | idles =>
    simp only [Option.toList_none, append_nil] at hcommands
    exact ⟨by rw [hcommands]; exact h.first, by rw [hcommands]; exact h.pause⟩
  | joins | leaves =>
    simp only [Option.toList_none, append_nil] at hcommands
    exact ⟨by rw [hcommands]; exact h.first, nofun⟩
  | pauses | fails =>
    refine ⟨by rw [hcommands]; exact pausedFirst_snoc h.first nofun, ?_⟩
    intro _
    rw [hcommands]
    exact List.getLast?_concat
  | resumes resume hheld hneeded =>
    refine ⟨?_, nofun⟩
    rw [hcommands]
    exact pausedFirst_snoc h.first fun _ => h.pause hneeded

/-- What the controller owns, at every time. -/
theorem owned_run (player : MediaPlaybackState) (calls : List FocusCall) :
    Owned (trace step (fresh player) calls) (run step (fresh player) calls) :=
  @trace_invariant _ _ _ step Owned (fun _ _ call h => h.step call) [] _
    { first := fun before after h => absurd h (by simp [commands]), pause := Bool.noConfusion } calls

theorem paused_step (call : FocusCall)
    (h : .resume ∉ commands history ∧ s.player = .paused ∧ s.controller.resumeNeeded = false) :
    .resume ∉ commands (history ++ [(call, (s.step call).2)]) ∧ (s.step call).1.player = .paused ∧
      (s.step call).1.controller.resumeNeeded = false := by
  obtain ⟨hcommands, hplayer, hneeded⟩ := h
  have hmoves := step_moves s call
  generalize s.step call = next at hmoves
  obtain ⟨s', answer⟩ := next
  rw [commands_snoc]
  simp only at hmoves ⊢
  cases hmoves with
  | refuses | idles =>
    rw [Option.toList_none, append_nil]
    exact ⟨hcommands, hplayer, hneeded⟩
  | joins | leaves =>
    rw [Option.toList_none, append_nil]
    exact ⟨hcommands, hplayer, rfl⟩
  | pauses _ hplaying | fails _ hplaying => rw [hplayer] at hplaying; cases hplaying
  | resumes _ _ hresume => rw [hneeded] at hresume; cases hresume

/-! ## The theorem -/

/-- A call that is refused while the music plays leaves it playing, unless it loses a pause. -/
theorem refused_iff (hplaying : s.player = .playing) :
    ((s.step call).2.returned = some false → (s.step call).1.player = .playing) ↔ s.losesPause call = false := by
  have hmoves := step_moves s call
  generalize hnext : s.step call = next at hmoves
  obtain ⟨s', answer⟩ := next
  simp only at hmoves ⊢
  cases hmoves with
  | refuses statusAnswered pause =>
    refine ⟨fun _ => ?_, fun _ _ => hplaying⟩
    -- the focus is held, or the status is not known
    cases hloses : s.losesPause (.acquireTts statusAnswered pause) with
    | false => rfl
    | true =>
      simp only [losesPause, Bool.and_eq_true, Bool.not_eq_true', beq_iff_eq] at hloses
      obtain ⟨⟨⟨⟨hfree, rfl⟩, -⟩, -⟩, hunconfirmed⟩ := hloses
      simp [step, acquireTts, hfree, hplaying, hunconfirmed] at hnext
  | joins _ _ _ hplayer => exact absurd hplaying hplayer
  | pauses => simp [losesPause, MediaRpc.reports]
  | @fails pause hfree _ hunconfirmed =>
    cases pause with
    | lost => simp [losesPause, MediaRpc.executed, MediaRpc.apply]
    | unanswered =>
      simp [losesPause, hfree, hplaying, MediaRpc.executed, MediaRpc.reports, MediaRpc.apply, MediaCommand.execute]
    | answered state =>
      simp [losesPause, hfree, hplaying, MediaRpc.executed, hunconfirmed, MediaRpc.apply, MediaCommand.execute]
  | idles | resumes | leaves => exact ⟨fun _ => rfl, fun _ h => by cases h⟩

theorem paused_of_returned (hplaying : s.player = .playing) (hret : (s.step call).2.returned = some true) :
    (s.step call).1 = { controller := { acquired := true, resumeNeeded := true }, player := .paused } := by
  have hmoves := step_moves s call
  generalize s.step call = next at hmoves hret
  obtain ⟨s', answer⟩ := next
  simp only at hmoves hret ⊢
  cases hmoves with
  | pauses => rfl
  | joins _ _ _ hplayer => exact absurd hplaying hplayer
  | refuses | fails | idles | resumes | leaves => cases hret

/-- **The music is given back just in the runs in which no executed Pause stays unconfirmed.** -/
theorem music_given_back_iff (player : MediaPlaybackState) (calls : List FocusCall) :
    GivesBack player calls ↔ Along step (fun s call => s.losesPause call = false) (fresh player) calls := by
  constructor <;> intro h
  · rw [along_iff_split]
    intro before call rest hsplit
    by_cases hplaying : (run step (fresh player) before).player = .playing
    · exact (refused_iff hplaying).mp (h.refused before call rest hsplit hplaying)
    · cases call with
      | acquireTts => simp [losesPause, hplaying]
      | releaseTts => rfl
  · rw [along_iff_split] at h
    constructor
    · intro before call rest hsplit hplaying
      exact (refused_iff hplaying).mpr (h before call rest hsplit)
    · intro before call between resume rest _ hplaying hret hbetween
      have hpaused := paused_of_returned hplaying hret
      rw [run_append, run_cons, hpaused, run_acquires_of_held rfl hbetween]
      refine ⟨rfl, ?_⟩
      intro hexecuted
      show resume.apply .resume .paused = .playing
      rw [MediaRpc.apply, if_pos hexecuted]
      rfl
    · exact (owned_run player calls).first
    · rintro rfl
      have hrun := @trace_invariant _ _ _ step
        (fun history s => .resume ∉ commands history ∧ s.player = .paused ∧ s.controller.resumeNeeded = false)
        (fun _ _ call h => paused_step call h) [] (fresh .paused) ⟨by simp [commands], rfl, rfl⟩ calls
      exact ⟨hrun.1, hrun.2.1⟩

theorem music_not_given_back :
    ¬ GivesBack .playing [.acquireTts true .unanswered, .releaseTts .unanswered, .acquireTts true .lost,
        .releaseTts .unanswered] ∧
      (run step (fresh .playing) [.acquireTts true .unanswered, .releaseTts .unanswered, .acquireTts true .lost,
        .releaseTts .unanswered]).player = .paused := by
  refine ⟨?_, by decide⟩
  intro h
  exact absurd (h.refused [] _ _ rfl rfl rfl) (by decide)

end AudioFocus

end Cockpit.Voice
