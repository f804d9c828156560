/-
  A wake prompt acts on its own wake only: the stage of the last wake says which states the conversation can be
  in, and no wake before it is at any stage.
-/
import Cockpit.Voice.InputGate
import Cockpit.Voice.InteractionSteps

namespace Cockpit.Voice

open InteractionState Function

/-! ## The stages of a wake -/

/-- The prompt is undecided; it was played and is to be completed; its failure is cleaned up. -/
inductive WakeStage where
  /-- Not accepted yet, or its prompt can change nothing any more. -/
  | ended
  | undecided
  | completing
  | cleaning
  deriving DecidableEq

namespace WakeStage

/-- The prompt can still fail, or has failed. -/
def mayFail : WakeStage → Bool
  | undecided | cleaning => true
  | ended | completing => false

/-- The states of the conversation at the stage of the last wake. -/
def allows : WakeStage → InteractionState → Bool
  | ended, state => state ≠ waking
  | undecided, state => state = waking || state = idle || state.unsettled
  | completing, state => state ≠ listening
  | cleaning, state => state = idle || state.unsettled

variable {state : InteractionState}

theorem allows_of_allows_cleaning {stage : WakeStage}
    (h : cleaning.allows state = true) : stage.allows state = true := by
  cases stage <;> cases state <;> first | rfl | cases h

theorem allows_completing_of_allows_undecided (h : undecided.allows state = true) : completing.allows state = true := by
  cases state <;> first | rfl | cases h

theorem allows_handle {stage : WakeStage} {event : ConversationEvent}
    (he : event.ofWorker = true ∨ event.ofOthers = true)
    (hspeech : stage.mayFail = true → event ≠ .speechSegmentReady) (h : stage.allows state = true) :
    stage.allows ((state.handle event).getD state) = true := by
  rw [handle_eq]
  cases stage <;> cases event <;>
    first
    | exact absurd rfl (hspeech rfl)
    | exact absurd he (by decide)
    | (cases state <;> first | rfl | cases h)

end WakeStage

/-- Of a call of `NotifyWakePromptFailed` behind its `Handle`. -/
def PromptFailing.stage : PromptFailing → WakeStage
  | .idle => .ended
  | .returning => .cleaning
  | .returned state => if (VoiceInteractionService.returnEvent state).isSome then .cleaning else .ended

/-- The stage of a wake whose caller takes its next step in it. -/
def PromptFailing.stageBefore : PromptFailing → WakeStage
  | .idle => .undecided
  | failure => failure.stage

/-- The stage as its thread's place tells it. -/
def Prompt.stage (failure : PromptFailing) : Prompt → WakeStage
  | .none | .finished => .ended
  | .started _ | .playing _ => .undecided
  | .played _ ok | .checking _ ok | .notifying ok => if ok then .completing else .undecided
  | .failing => failure.stage

/-- The generation it was started under. -/
def Prompt.generation? : Prompt → Option Nat
  | .started g | .playing g | .played g _ | .checking g _ => some g
  | .none | .notifying _ | .failing | .finished => Option.none

namespace Frame

def wake? : Frame → Option Nat
  | .idle | .analyzing | .detected => none
  | .starting w | .joining w _ | .storing w | .numbering w | .spawning w _ | .refusing w
  | .failing w => some w

def stage (failure : PromptFailing) : Frame → WakeStage
  | .idle | .analyzing | .detected => .ended
  | .starting _ | .joining _ _ | .storing _ | .numbering _ | .spawning _ _ | .refusing _ => .undecided
  | .failing _ => failure.stage

end Frame

namespace VoiceInteractionService

variable {s : VoiceInteractionService}

/-! ## The service behind the gate -/

/-- What a step of `NotifyWakePromptFailed` can do. -/
inductive PromptFails (s s' : VoiceInteractionService) (i : Nat) : Prop where
  | failed (hidle : s.promptFailures i = .idle) (hactive : s.state.isActive = true)
      (hstate : s'.state = .errorRecovery) (hplace : s'.promptFailures i = .returning)
  | refused (hidle : s.promptFailures i = .idle) (hplace : s'.promptFailures i = .idle)
      (hno : s.config.enabled = true → s.state.isActive = false) (hstate : s'.state = s.state)
  | snapshot (hreturning : s.promptFailures i = .returning) (hstate : s'.state = s.state)
      (hplace : s'.promptFailures i = .returned s.state)
  | returned (snapshot : InteractionState) (hret : s.promptFailures i = .returned snapshot)
      (hstate : s'.state = afterReturn snapshot s.state) (hplace : s'.promptFailures i = .idle)

theorem accepts_failure : s.accepts .failure = s.state.isActive := by
  unfold accepts
  cases s.state <;> rfl

theorem promptFailedStep_fails (i : Nat) (s : VoiceInteractionService) : s.PromptFails (s.promptFailedStep i) i := by
  unfold promptFailedStep
  cases hp : s.promptFailures i with
  | idle =>
    dsimp only
    split
    · next h =>
      rw [Bool.and_eq_true] at h
      exact .failed hp (accepts_failure ▸ h.2) (handled_failure h.2) (update_self ..)
    · next h =>
      refine .refused hp hp (fun he => ?_) rfl
      rw [he, Bool.true_and, accepts_failure] at h
      exact Bool.eq_false_iff.mpr h
  | returning => exact .snapshot hp rfl (update_self ..)
  | returned snapshot =>
    dsimp only
    rw [returnHandled_eq]
    exact .returned snapshot hp rfl (update_self ..)

theorem afterReturn_of_no_event {snapshot state : InteractionState}
    (h : ¬ (returnEvent snapshot).isSome = true) : afterReturn snapshot state = state := by
  unfold afterReturn
  rw [Option.not_isSome_iff_eq_none.mp h]

variable {s' : VoiceInteractionService} {i : Nat}

section

variable (h : s.PromptFails s' i)
include h

theorem PromptFails.allows (hall : (s.promptFailures i).stageBefore.allows s.state = true)
    (henabled : s.state = waking → s.config.enabled = true) : (s'.promptFailures i).stage.allows s'.state = true := by
  cases h with
  | failed hidle hactive hstate hplace => rw [hstate, hplace]; rfl
  | refused hidle hplace hno hstate =>
    rw [hstate, hplace]
    refine decide_eq_true fun hw => ?_
    have := hno (henabled hw)
    rw [hw] at this
    cases this
  | snapshot hreturning hstate hplace =>
    rw [hreturning] at hall
    rw [hstate, hplace]
    unfold PromptFailing.stage
    dsimp only
    split
    · exact hall
    · exact WakeStage.allows_of_allows_cleaning hall
  | returned snapshot hret hstate hplace =>
    rw [hret] at hall
    rw [hstate, hplace]
    refine decide_eq_true fun hw => ?_
    rw [eq_of_afterReturn hw nofun] at hw
    rw [hw] at hall
    dsimp only [PromptFailing.stageBefore, PromptFailing.stage] at hall
    split at hall <;> cases hall

theorem PromptFails.changes
    (hall : (s.promptFailures i).stageBefore.allows s.state = true) (hne : s'.state ≠ s.state) :
    (s.promptFailures i = .idle ∧ s.state = waking) ∨
      ((s.promptFailures i).stage = .cleaning ∧ s.state.unsettled = true) := by
  cases h with
  | failed hidle hactive hstate hplace =>
    rw [hidle] at hall
    refine .inl ⟨hidle, ?_⟩
    revert hall hactive
    cases s.state <;> decide
  | refused hidle hplace hno hstate | snapshot hreturning hstate hplace => exact absurd hstate hne
  | returned snapshot hret hstate hplace =>
    refine .inr ?_
    rw [hret] at hall ⊢
    rw [hstate] at hne
    dsimp only [PromptFailing.stageBefore, PromptFailing.stage] at hall ⊢
    split at hall
    · next hsome =>
      rw [if_pos hsome]
      refine ⟨rfl, ?_⟩
      revert hall hne
      cases snapshot <;> cases s.state <;> decide
    · next hnone =>
      exact absurd (afterReturn_of_no_event hnone) hne

theorem PromptFails.unchanged (hover : (s.promptFailures i).stageBefore = .ended) : s'.state = s.state := by
  cases h with
  | failed hidle hactive hstate hplace => rw [hidle] at hover; cases hover
  | refused hidle hplace hno hstate | snapshot hreturning hstate hplace => exact hstate
  | returned snapshot hret hstate hplace =>
    rw [hret] at hover
    dsimp only [PromptFailing.stageBefore, PromptFailing.stage] at hover
    split at hover
    · cases hover
    · next hnone =>
      exact hstate.trans (afterReturn_of_no_event hnone)

theorem PromptFails.mayFail (hmay : (s'.promptFailures i).stage ≠ .ended) :
    (s.promptFailures i).stageBefore.mayFail = true := by
  cases h with
  | failed hidle hactive hstate hplace => rw [hidle]; rfl
  | refused hidle hplace hno hstate => exact absurd (congrArg PromptFailing.stage hplace) hmay
  | snapshot hreturning hstate hplace => rw [hreturning]; rfl
  | returned snapshot hret hstate hplace => exact absurd (congrArg PromptFailing.stage hplace) hmay

theorem PromptFails.eq_waking (hw : s'.state = waking) : s.state = waking := by
  cases h with
  | failed hidle hactive hstate hplace => rw [hstate] at hw; cases hw
  | refused hidle hplace hno hstate | snapshot hreturning hstate hplace => exact hstate ▸ hw
  | returned snapshot hret hstate hplace =>
    rw [hstate] at hw
    exact eq_of_afterReturn hw nofun ▸ hw

end

theorem promptFailedStep_others {j : Nat} (h : j ≠ i) (s : VoiceInteractionService) :
    (s.promptFailedStep i).promptFailures j = s.promptFailures j := by
  unfold promptFailedStep
  cases s.promptFailures i with
  | idle =>
    dsimp only
    split
    · exact update_of_ne h _ _
    · rfl
  | returning => exact update_of_ne h _ _
  | returned snapshot =>
    dsimp only
    rw [returnHandled_eq]
    exact update_of_ne h _ _

end VoiceInteractionService

namespace VoiceInputGate

/-- A wake is first with the caller of `ProcessFrame` and then with its prompt. -/
def stage (s : VoiceInputGate) (wake : Nat) : WakeStage :=
  if s.frame.wake? = some wake then s.frame.stage (s.service.promptFailures wake)
  else (s.prompts wake).stage (s.service.promptFailures wake)

/-- A wake is accepted while the prompt of an older one can still act, a request begins while a prompt
    can still fail, or there is no thread for a prompt. -/
def Meets (s : VoiceInputGate) : GateEvent → Prop
  | .frame a =>
    match s.frame with
    | .detected =>
      s.service.config.enabled = true ∧ s.service.accepts .wakeWordDetected = true ∧
        ∃ wake, s.stage wake ≠ .ended
    | .spawning _ _ => a.threadStarts = false
    | _ => False
  | .service (.worker _) => s.service.Begins ∧ ∃ wake, (s.stage wake).mayFail = true
  | _ => False

/-- A notification changes the state only from the `kWaking` that the wake made. -/
def ActsOnItsOwn (s s' : VoiceInputGate) (wake : Nat) : Prop :=
  s'.service.state ≠ s.service.state → s.service.state = waking ∧ s.wakes = wake

/-- And the cleanup behind a failure only while nothing came after that wake. -/
def CleansItsOwn (s s' : VoiceInputGate) (wake : Nat) : Prop :=
  s'.service.state ≠ s.service.state →
    s.service.state.unsettled = true ∧ s.wakes = wake ∧ s.service.requests = s.wakeRequests

/-- What a step does for the prompt of a wake: the notifications of its result, and its start. -/
def Lawful (s : VoiceInputGate) : GateEvent → Prop
  | .frame a =>
    match s.frame with
    | .refusing wake => s.ActsOnItsOwn (s.frameStep a) wake
    | .failing wake => s.CleansItsOwn (s.frameStep a) wake
    | _ => True
  | .prompt wake ok =>
    match s.prompts wake with
    | .started _ => ¬ (s.service.state = listening ∧ s.wakes = wake)
    | .notifying _ => s.ActsOnItsOwn (s.promptStep wake ok) wake
    | .failing => s.CleansItsOwn (s.promptStep wake ok) wake
    | _ => True
  | .service _ => True

/-- Nobody has to end `kWaking`, and the state is another one. -/
def Unpaused (s : VoiceInputGate) : Prop :=
  s.frame = .idle → (∀ wake, s.prompts wake = .none ∨ s.prompts wake = .finished) →
    s.service.state ≠ waking

/-! ## Only the last wake is at a stage -/

open VoiceInteractionService

variable {s s' : VoiceInputGate}

/-- Only the last wake is at a stage. -/
structure Own (s : VoiceInputGate) : Prop where
  /-- The wakes to come have no prompt, and neither has the one that the frame carries. -/
  fresh : ∀ wake, s.wakes < wake → s.prompts wake = .none
  carried : ∀ wake, s.frame.wake? = some wake → wake = s.wakes ∧ s.prompts wake = .none
  spawning : ∀ wake g, s.frame = .spawning wake g → g = s.wakePromptGeneration
  generation : ∀ wake g, (s.prompts wake).generation? = some g → g = s.wakePromptGeneration
  /-- The callers at `failing` are those inside a call of `NotifyWakePromptFailed`. -/
  calling : ∀ wake, s.service.promptFailures wake ≠ .idle ↔
    s.prompts wake = .failing ∨ s.frame = .failing wake
  last : ∀ wake, s.stage wake ≠ .ended → wake = s.wakes
  allowed : (s.stage s.wakes).allows s.service.state = true
  requests : (s.stage s.wakes).mayFail = true → s.service.requests = s.wakeRequests
  enabled : s.service.state = waking → s.service.config.enabled = true

theorem own_start (config : KwsConfig) (service : VoiceConfig) : (start config service).Own where
  fresh := fun _ _ => rfl
  carried := nofun
  spawning := nofun
  generation := nofun
  calling := fun _ => ⟨fun h => absurd rfl h, nofun⟩
  last := fun _ h => absurd rfl h
  allowed := by
    show decide (_ ≠ waking) = true
    unfold start VoiceInteractionService.start
    dsimp only
    split <;> rfl
  requests := nofun
  enabled := by
    unfold start VoiceInteractionService.start
    dsimp only
    split <;> nofun

variable {wake : Nat}

theorem Own.stage_of_prompt (h : s.Own) (hp : s.prompts wake ≠ .none) :
    s.stage wake = (s.prompts wake).stage (s.service.promptFailures wake) :=
  if_neg fun hw => hp (h.carried wake hw).2

theorem stage_of_frame (hw : s.frame.wake? = some wake) :
    s.stage wake = s.frame.stage (s.service.promptFailures wake) :=
  if_pos hw

theorem Own.eq_wakes (h : s.Own) {stage : WakeStage} (hs : s.stage wake = stage)
    (hne : stage ≠ .ended) : wake = s.wakes :=
  h.last wake (hs ▸ hne)

theorem Own.not_calling (h : s.Own) (hp : s.prompts wake ≠ .failing)
    (hf : s.frame ≠ .failing wake) : s.service.promptFailures wake = .idle := by
  by_contra hne
  exact ((h.calling wake).mp hne).elim hp hf

theorem Own.frame_ne (h : s.Own) (hp : s.prompts wake ≠ .none) : s.frame ≠ .failing wake :=
  fun hf => hp (h.carried wake (by rw [hf]; rfl)).2

/-! ## The steps of the service -/

theorem Own.serviceStep (h : s.Own) (event : Event)
    (hprompts : (s.service.step event).1.promptFailures = s.service.promptFailures)
    (hallowed : (s.stage s.wakes).allows (s.service.step event).1.state = true)
    (hrequests : (s.stage s.wakes).mayFail = true →
      (s.service.step event).1.requests = s.service.requests) (henabled : (s.service.step event).1.state = waking →
      (s.service.step event).1.config.enabled = true) : (s.serviceStep event).Own := by
  have hstage : ∀ wake, (s.serviceStep event).stage wake = s.stage wake := fun wake => by
    show (if _ then _ else _) = _
    rw [VoiceInputGate.serviceStep, hprompts]
    rfl
  exact {
    fresh := h.fresh
    carried := h.carried
    spawning := h.spawning
    generation := h.generation
    calling := fun wake => by
      rw [VoiceInputGate.serviceStep, hprompts]
      exact h.calling wake
    last := fun wake hw => h.last wake (by rwa [← hstage])
    allowed := by
      rw [hstage]
      exact hallowed
    requests := fun hmay => by
      rw [hstage] at hmay
      exact (hrequests hmay).trans (h.requests hmay)
    enabled := henabled }

variable {who : ConversationEvent → Bool}

theorem eq_waking_of_handles {service service' : VoiceInteractionService}
    (h : service.Handles who service') (hwho : who .wakeWordDetected = false)
    (hs : service'.state = waking) : service.state = waking := by
  obtain ⟨_, h | ⟨event, he, h⟩⟩ := h
  · exact h ▸ hs
  · rw [h, handle_eq] at hs
    cases hstate : service.state <;> rw [hstate] at hs <;> cases event <;>
      first | rfl | exact absurd (hwho ▸ he) nofun | cases hs

theorem Own.handles (h : s.Own) (event : Event) (hhandles : s.service.Handles who (s.service.step event).1)
    (hwho : ∀ e, who e = true → e.ofWorker = true ∨ e.ofOthers = true)
    (hspeech : (s.stage s.wakes).mayFail = true → who .speechSegmentReady = false)
    (hprompts : (s.service.step event).1.promptFailures = s.service.promptFailures)
    (hrequests : (s.stage s.wakes).mayFail = true →
      (s.service.step event).1.requests = s.service.requests) : (s.serviceStep event).Own := by
  refine h.serviceStep event hprompts ?_ hrequests fun hwaking => ?_
  · obtain ⟨_, hstate | ⟨e, he, hstate⟩⟩ := hhandles <;> rw [hstate]
    · exact h.allowed
    · refine WakeStage.allows_handle (hwho e he) (fun hmay heq => ?_) h.allowed
      rw [heq, hspeech hmay] at he
      cases he
  · have hno : who .wakeWordDetected = false := by
      cases hw : who .wakeWordDetected with
      | false => rfl
      | true => exact absurd (hwho _ hw) (by decide)
    rw [hhandles.1]
    exact h.enabled (eq_waking_of_handles hhandles hno hwaking)

theorem Own.worker (a : Answers) (h : s.Own) (hno : ¬ s.Meets (.service (.worker a))) :
    (s.serviceStep (.worker a)).Own := by
  by_cases hb : s.service.Begins
  · have hmay : (s.stage s.wakes).mayFail = false :=
      Bool.eq_false_iff.mpr fun hmay => hno ⟨hb, s.wakes, hmay⟩
    have hprompts : (s.service.workerStep a).1.promptFailures = s.service.promptFailures := by
      obtain ⟨g, heq⟩ := workerStep_of_begins a hb
      rw [heq]
      rfl
    refine h.handles (.worker a) (workerStep_handles a s.service) (fun _ => .inl) ?_ hprompts ?_ <;>
    · intro h'
      rw [hmay] at h'
      cases h'
  · obtain ⟨hprompts, hrequests, hhandles⟩ := workerStep_of_not_begins a hb
    refine h.handles (.worker a) hhandles (fun e he => .inl ?_) (fun _ => rfl) hprompts
      fun _ => hrequests
    exact (Bool.and_eq_true _ _ ▸ he).1

theorem Own.serviceEvent (event : Event) (h : s.Own) (hno : ¬ s.Meets (.service event)) :
    (s.step (.service event)).1.Own := by
  cases event with
  | worker a => exact h.worker a hno
  | actionWatchdog =>
    obtain ⟨hs, hprompts⟩ := actionWatchdog_aside s.service
    exact h.handles .actionWatchdog hs.handles (fun _ he => absurd he Bool.false_ne_true) (fun _ => rfl) hprompts
      fun _ => hs.toCallerStep.requests
  | interrupt i =>
    obtain ⟨hs, hprompts⟩ := interruptStep_caller i s.service
    exact h.handles (.interrupt i) hs.handles
      (fun _ he => .inr (ConversationEvent.ofOthers_of_ofCallers he)) (fun _ => rfl) hprompts fun _ => hs.requests
  | output id status nowMs =>
    obtain ⟨hs, hprompts, hhandles⟩ := outputStep_leaves id status nowMs s.service
    exact h.handles (.output id status nowMs) hhandles (fun _ => .inr) (fun _ => rfl) hprompts fun _ => hs.requests
  | wakeWordDetected | wakePromptCompleted | wakePromptFailed i => exact h

/-! ## The steps of the prompts -/

theorem Own.prompt (h : s.Own) (hp : s.prompts wake ≠ .none)
    (service' : VoiceInteractionService) (done : Bool) (place : Prompt)
    (hgen : ∀ g, place.generation? = some g → (s.prompts wake).generation? = some g)
    (hothers : ∀ other, other ≠ wake →
      service'.promptFailures other = s.service.promptFailures other)
    (hcalling : service'.promptFailures wake ≠ .idle ↔ place = .failing)
    (hconfig : service'.config = s.service.config) (hrequests : service'.requests = s.service.requests)
    (hlast : place.stage (service'.promptFailures wake) ≠ .ended → s.stage wake ≠ .ended)
    (hmay : (place.stage (service'.promptFailures wake)).mayFail = true →
      (s.stage wake).mayFail = true) (hallowed : wake = s.wakes →
      (place.stage (service'.promptFailures wake)).allows service'.state = true)
    (hstate : wake ≠ s.wakes → service'.state = s.service.state)
    (hwaking : service'.state = waking → s.service.state = waking)
    (hs' : s' = { s with
      service := service', wakePromptDone := done
      prompts := update s.prompts wake place }) : s'.Own := by
  have hframe : s.frame.wake? ≠ some wake := fun hw => hp (h.carried wake hw).2
  have hle : wake ≤ s.wakes := Nat.le_of_not_lt fun hlt => hp (h.fresh wake hlt)
  have hwakes : s'.wakes = s.wakes := by rw [hs']
  have hservice : s'.service = service' := by rw [hs']
  have hplace : s'.prompts wake = place := by
    rw [hs']
    exact update_self ..
  have hprompts : ∀ other, other ≠ wake → s'.prompts other = s.prompts other := fun other hne => by
    rw [hs']
    exact update_of_ne hne _ _
  have hself : s'.stage wake = place.stage (service'.promptFailures wake) := by
    rw [← hplace, ← hservice, hs']
    exact if_neg hframe
  have hstage : ∀ other, other ≠ wake → s'.stage other = s.stage other := by
    intro other hne
    unfold stage
    rw [hprompts other hne, hservice, hothers other hne, hs']
  constructor
  · intro other hlt
    have hne : other ≠ wake := by omega
    exact (hprompts other hne).trans (h.fresh other (hwakes ▸ hlt))
  · intro other hw
    rw [hs'] at hw
    have hne : other ≠ wake := fun he => hframe (he ▸ hw)
    rw [hwakes, hprompts other hne]
    exact h.carried other hw
  · rw [hs']
    exact h.spawning
  · intro other g hg
    have hbefore : (s.prompts other).generation? = some g := by
      by_cases hne : other = wake
      · subst hne
        exact hgen g (hplace ▸ hg)
      · exact hprompts other hne ▸ hg
    rw [hs']
    exact h.generation other g hbefore
  · intro other
    by_cases hne : other = wake
    · subst hne
      rw [hservice, hplace, hcalling, hs', or_iff_left]
      intro hw
      exact hframe (by rw [show s.frame = _ from hw]; rfl)
    · rw [hservice, hothers other hne, hprompts other hne, hs']
      exact h.calling other
  · intro other hover
    rw [hwakes]
    by_cases hne : other = wake
    · subst hne
      exact h.last other (hlast (hself ▸ hover))
    · exact h.last other (hstage other hne ▸ hover)
  · rw [hwakes, hservice]
    by_cases hne : s.wakes = wake
    · rw [hne, hself]
      exact hallowed hne.symm
    · rw [hstage _ hne, hstate (Ne.symm hne)]
      exact h.allowed
  · intro hfail
    rw [hwakes] at hfail
    have hbefore : (s.stage s.wakes).mayFail = true := by
      by_cases hne : s.wakes = wake
      · rw [hne, hself] at hfail
        exact hne ▸ hmay hfail
      · exact hstage _ hne ▸ hfail
    rw [hservice, hrequests, hs']
    exact h.requests hbefore
  · intro hw
    rw [hservice] at hw ⊢
    rw [hconfig]
    exact h.enabled (hwaking hw)

theorem Own.promptMoves (h : s.Own) (hp : s.prompts wake ≠ .none)
    (hfailing : s.prompts wake ≠ .failing) (done : Bool) (place : Prompt) (hplace : place ≠ .failing)
    (hgen : ∀ g, place.generation? = some g → (s.prompts wake).generation? = some g)
    (hlast : place.stage .idle ≠ .ended → (s.prompts wake).stage .idle ≠ .ended)
    (hmay : (place.stage .idle).mayFail = true → ((s.prompts wake).stage .idle).mayFail = true)
    (hallowed : ∀ state, ((s.prompts wake).stage .idle).allows state = true →
      (place.stage .idle).allows state = true) :
    Own { s with
      wakePromptDone := done
      prompts := update s.prompts wake place } := by
  have hidle := h.not_calling hfailing (h.frame_ne hp)
  have hstage := h.stage_of_prompt hp
  rw [hidle] at hstage
  refine h.prompt hp s.service done place hgen (fun _ _ => rfl)
    ⟨absurd hidle, fun hf => absurd hf hplace⟩ rfl rfl ?_ ?_ ?_ (fun _ => rfl) id rfl
  · rw [hidle, hstage]
    exact hlast
  · rw [hidle, hstage]
    exact hmay
  · intro hw
    have hall := h.allowed
    rw [← hw, hstage] at hall
    rw [hidle]
    exact hallowed _ hall

theorem promptFailureOver_iff {wake : Nat} :
    s.promptFailureOver wake = true ↔ s.service.promptFailures wake = .idle := by
  unfold promptFailureOver
  cases s.service.promptFailures wake with
  | idle => exact iff_of_true rfl rfl
  | returning | returned state => exact iff_of_false nofun nofun

theorem Own.stage_before (h : s.Own) (hw : s.prompts wake = .notifying false ∨ s.prompts wake = .failing ∨
      s.frame = .refusing wake ∨ s.frame = .failing wake) :
    s.stage wake = (s.service.promptFailures wake).stageBefore := by
  have hcalling := h.calling wake
  cases hf : s.service.promptFailures wake with
  | idle =>
    rw [hf] at hcalling
    have hno := hcalling.not.mp fun hne => hne rfl
    rcases hw with hw | hw | hw | hw
    · rw [h.stage_of_prompt (by rw [hw]; nofun), hw]
      rfl
    · exact absurd (.inl hw) hno
    · rw [stage_of_frame (by rw [hw]; rfl), hw]
      rfl
    · exact absurd (.inr hw) hno
  | _ =>
    rw [hf] at hcalling
    rcases hcalling.mp nofun with hp | hp
    · rw [h.stage_of_prompt (by rw [hp]; nofun), hp, hf]
      rfl
    · rw [stage_of_frame (by rw [hp]; rfl), hp, hf]
      rfl

theorem failed_stage (s : VoiceInputGate) (wake : Nat) :
    Prompt.stage ((s.service.promptFailedStep wake).promptFailures wake)
      (if (s.serviceStep (.wakePromptFailed wake)).promptFailureOver wake then .finished else .failing) =
      ((s.service.promptFailedStep wake).promptFailures wake).stage := by
  by_cases hover : (s.serviceStep (.wakePromptFailed wake)).promptFailureOver wake = true
  · have hidle : (s.service.promptFailedStep wake).promptFailures wake = .idle :=
      promptFailureOver_iff.mp hover
    rw [if_pos hover, hidle]
    rfl
  · rw [if_neg hover]
    rfl

theorem Own.promptFails (h : s.Own) (hp : s.prompts wake = .notifying false ∨ s.prompts wake = .failing) (done : Bool) :
    Own { s with
      service := s.service.promptFailedStep wake, wakePromptDone := done
      prompts := update s.prompts wake
        (if (s.serviceStep (.wakePromptFailed wake)).promptFailureOver wake then .finished
        else .failing) } := by
  have hfails := promptFailedStep_fails wake s.service
  have hs := promptFailedStep_aside wake s.service
  have hbefore := h.stage_before (hp.elim .inl (.inr ∘ .inl))
  have hnone : s.prompts wake ≠ .none := by
    rcases hp with hp | hp <;> rw [hp] <;> nofun
  have hover := @promptFailureOver_iff (s.serviceStep (.wakePromptFailed wake)) wake
  have hstage := failed_stage s wake
  have hall : wake = s.wakes →
      (s.service.promptFailures wake).stageBefore.allows s.service.state = true := by
    intro hw
    rw [← hbefore, hw]
    exact h.allowed
  refine h.prompt hnone (s.service.promptFailedStep wake) done _ ?_
    (fun _ hne => promptFailedStep_others hne s.service) ?_
    hs.handles.1 hs.toCallerStep.requests ?_ ?_ ?_ ?_ hfails.eq_waking rfl
  · intro g hg
    split at hg <;> cases hg
  · change _ ↔ (s.service.promptFailedStep wake).promptFailures wake = .idle at hover
    rw [ne_eq, ← hover]
    cases (s.serviceStep (.wakePromptFailed wake)).promptFailureOver wake <;> decide
  · intro hne heq
    have hmay := hfails.mayFail (hstage ▸ hne)
    rw [← hbefore, heq] at hmay
    cases hmay
  · intro hmay
    rw [hbefore]
    refine hfails.mayFail fun heq => ?_
    rw [hstage, heq] at hmay
    cases hmay
  · intro hw
    rw [hstage]
    exact hfails.allows (hall hw) h.enabled
  · intro hw
    refine hfails.unchanged (hbefore.symm.trans ?_)
    by_contra hne
    exact hw (h.last wake hne)

theorem Own.promptCompletes (h : s.Own) (hp : s.prompts wake = .notifying true) (done : Bool) : Own { s with
      service := (s.service.step .wakePromptCompleted).1, wakePromptDone := done
      prompts := update s.prompts wake .finished } := by
  have hnone : s.prompts wake ≠ .none := by rw [hp]; nofun
  obtain ⟨hs, hprompts⟩ : s.service.AsideStep _ (s.service.step .wakePromptCompleted).1 ∧
    (s.service.step .wakePromptCompleted).1.promptFailures = s.service.promptFailures := handled_aside _ _
  have hwaking := eq_waking_of_handles hs.handles rfl
  have hstage : s.stage wake = .completing := by rw [h.stage_of_prompt hnone, hp]; rfl
  have hidle := h.not_calling (by rw [hp]; nofun) (h.frame_ne hnone)
  refine h.prompt hnone _ done .finished nofun (fun _ _ => congrFun hprompts _)
    ⟨fun hne => absurd ((congrFun hprompts wake).trans hidle) hne, nofun⟩ hs.handles.1 hs.toCallerStep.requests
    (absurd rfl) nofun ?_ ?_ hwaking rfl
  · refine fun _ => decide_eq_true fun hw => ?_
    have hbefore := hwaking hw
    unfold VoiceInteractionService.step at hw
    dsimp only at hw
    rw [if_pos (h.enabled hbefore)] at hw
    change (s.service.state.handle .wakePromptCompleted).getD s.service.state = waking at hw
    rw [hbefore] at hw
    cases hw
  · intro hw
    exact absurd (h.eq_wakes hstage nofun) hw

theorem Own.promptStep (wake : Nat) (ok : Bool) (h : s.Own) : (s.promptStep wake ok).Own := by
  unfold VoiceInputGate.promptStep
  cases hp : s.prompts wake with
  | none | finished => exact h
  | started g =>
    exact h.promptMoves (by rw [hp]; nofun) (by rw [hp]; nofun) _ (.playing g) nofun
      (fun _ hg => hp ▸ hg) (fun hne => hp ▸ hne) (fun hmay => hp ▸ hmay) (fun _ hall => by rwa [hp] at hall)
  | playing g =>
    refine h.promptMoves (by rw [hp]; nofun) (by rw [hp]; nofun) _ (.played g ok) nofun
      (fun _ hg => hp ▸ hg) (fun _ => by rw [hp]; nofun) (fun _ => by rw [hp]; rfl) fun state hall => ?_
    rw [hp] at hall
    cases ok with
    | true => exact WakeStage.allows_completing_of_allows_undecided hall
    | false => exact hall
  | played g ok =>
    exact h.promptMoves (by rw [hp]; nofun) (by rw [hp]; nofun) true (.checking g ok) nofun
      (fun _ hg => hp ▸ hg) (fun hne => hp ▸ hne) (fun hmay => hp ▸ hmay) (fun _ hall => by rwa [hp] at hall)
  | checking g ok =>
    dsimp only
    rw [if_neg (not_not.mpr (h.generation wake g (by rw [hp]; rfl)))]
    exact h.promptMoves (by rw [hp]; nofun) (by rw [hp]; nofun) _ (.notifying ok) nofun
      nofun (fun hne => hp ▸ hne) (fun hmay => hp ▸ hmay) (fun _ hall => by rwa [hp] at hall)
  | notifying ok =>
    cases ok with
    | true => exact h.promptCompletes hp _
    | false => exact h.promptFails (.inl hp) _
  | failing => exact h.promptFails (.inr hp) _

/-! ## The steps of the frame -/

theorem Own.frameMoves (h : s.Own) (hw : s.frame.wake? = none) {frame' : Frame}
    (hw' : frame'.wake? = none) (lastWake : Option Int) : Own { s with lastWake := lastWake, frame := frame' } := by
  have hno : ∀ {frame : Frame} {wake : Nat}, frame.wake? = none → frame ≠ .failing wake := by
    intro frame wake hnone heq
    rw [heq] at hnone
    cases hnone
  have hstage : ∀ wake, stage { s with lastWake := lastWake, frame := frame' } wake = s.stage wake := by
    intro wake
    unfold stage
    rw [hw, hw']
    rfl
  exact {
    fresh := h.fresh
    carried := fun wake hf => absurd (hw'.symm.trans hf) nofun
    spawning := fun wake g hf => by
      rw [show frame' = _ from hf] at hw'
      cases hw'
    generation := h.generation
    calling := fun wake => (h.calling wake).trans (or_congr_right (iff_of_false (hno hw) (hno hw')))
    last := fun wake hne => h.last wake (hstage wake ▸ hne)
    allowed := by
      rw [hstage]
      exact h.allowed
    requests := fun hmay => h.requests (hstage s.wakes ▸ hmay)
    enabled := h.enabled }

theorem Own.frame (h : s.Own) (hw : s.frame.wake? = some wake)
    (service' : VoiceInteractionService) (worker : Option Nat) (done : Bool) (generation : Nat)
    (frame' : Frame) (hw' : frame'.wake? = some wake ∨ frame' = .idle)
    (hspawning : ∀ w g, frame' = .spawning w g → g = generation)
    (hgen : ∀ w g, (s.prompts w).generation? = some g → g = generation) (hothers : ∀ other, other ≠ wake →
      service'.promptFailures other = s.service.promptFailures other)
    (hcalling : service'.promptFailures wake ≠ .idle ↔ frame' = .failing wake)
    (hconfig : service'.config = s.service.config) (hrequests : service'.requests = s.service.requests)
    (hmay : (frame'.stage (service'.promptFailures wake)).mayFail = true →
      (s.stage wake).mayFail = true)
    (hallowed : (frame'.stage (service'.promptFailures wake)).allows service'.state = true)
    (hwaking : service'.state = waking → s.service.state = waking)
    (hs' : s' = { s with
      service := service', wakePromptWorker := worker, wakePromptDone := done
      wakePromptGeneration := generation, frame := frame' }) : s'.Own := by
  obtain ⟨hlast, hnone⟩ := h.carried wake hw
  have hwakes : s'.wakes = s.wakes := by rw [hs']
  have hservice : s'.service = service' := by rw [hs']
  have hprompts : s'.prompts = s.prompts := by rw [hs']
  have hframe : s'.frame = frame' := by rw [hs']
  have hself : s'.stage wake = frame'.stage (service'.promptFailures wake) := by
    unfold stage
    rw [hframe, hservice, hprompts, hnone]
    rcases hw' with hw' | rfl
    · exact if_pos hw'
    · exact if_neg nofun
  have hcarry : ∀ other, frame'.wake? = some other → other = wake := by
    intro other ho
    rcases hw' with hw' | rfl
    · exact Option.some.inj (ho.symm.trans hw')
    · cases ho
  have hstage : ∀ other, other ≠ wake → s'.stage other = s.stage other := by
    intro other hne
    unfold stage
    rw [hframe, hservice, hprompts, hothers other hne, if_neg fun ho => hne (hcarry other ho),
      if_neg fun ho => hne (Option.some.inj (ho.symm.trans hw))]
  constructor
  · rw [hwakes, hprompts]
    exact h.fresh
  · intro other ho
    rw [hframe] at ho
    rw [hcarry other ho, hwakes, hprompts]
    exact h.carried wake hw
  · rw [hs']
    exact hspawning
  · rw [hs']
    exact hgen
  · intro other
    rw [hservice, hprompts, hframe]
    by_cases hne : other = wake
    · subst hne
      rw [hcalling, hnone]
      exact ⟨.inr, fun ho => ho.resolve_left nofun⟩
    · rw [hothers other hne, h.calling other]
      refine or_congr_right (iff_of_false (fun ho => hne ?_) fun ho => hne (hcarry other (by rw [ho]; rfl)))
      exact Option.some.inj (Eq.trans (by rw [ho]; rfl) hw)
  · intro other hne
    rw [hwakes]
    by_cases ho : other = wake
    · exact ho.trans hlast
    · exact h.last other (hstage other ho ▸ hne)
  · rw [hwakes, ← hlast, hself, hservice]
    exact hallowed
  · intro hfail
    rw [hwakes, ← hlast, hself] at hfail
    rw [hservice, hrequests, hs']
    exact h.requests (hlast ▸ hmay hfail)
  · rw [hservice, hconfig]
    exact fun hs => h.enabled (hwaking hs)

theorem Own.wakes (h : s.Own) (hdetected : s.frame = .detected)
    (henabled : s.service.config.enabled = true) (haccepts : s.service.accepts .wakeWordDetected = true)
    (hno : ∀ wake, s.stage wake = .ended) :
    Own { s.serviceStep .wakeWordDetected with
      wakes := s.wakes + 1, wakeRequests := s.service.requests, frame := .starting (s.wakes + 1) } := by
  have hservice : (s.service.step .wakeWordDetected).1 = s.service.handled .wakeWordDetected :=
    if_pos henabled
  have hstate : (s.service.handled .wakeWordDetected).state = waking := by
    obtain ⟨next, hnext⟩ := accepts_iff.mp haccepts
    rw [handled_state hnext]
    simp only [InteractionState.nextState] at hnext
    split at hnext <;> cases hnext
    rfl
  unfold VoiceInputGate.serviceStep
  rw [hservice]
  have hnew : s.prompts (s.wakes + 1) = .none := h.fresh _ (Nat.lt_succ_self _)
  constructor
  · intro wake hlt
    exact h.fresh wake (Nat.lt_of_succ_lt hlt)
  · intro wake hw
    cases hw
    exact ⟨rfl, hnew⟩
  · intro wake g hf
    cases hf
  · exact h.generation
  · intro wake
    refine (h.calling wake).trans (or_congr_right (iff_of_false (fun hf => ?_) fun hf => ?_))
    · cases hdetected.symm.trans hf
    · cases hf
  · intro wake hne
    by_contra hlast
    refine hne (Eq.trans ?_ (hno wake))
    unfold stage
    rw [hdetected]
    exact if_neg fun hw => hlast (Option.some.inj hw).symm
  · show (stage _ (s.wakes + 1)).allows (s.service.handled .wakeWordDetected).state = true
    rw [hstate, stage_of_frame rfl]
    rfl
  · exact fun _ => rfl
  · exact fun _ => henabled

theorem Own.spawn (h : s.Own) {g : Nat} (hf : s.frame = .spawning wake g) : Own { s with
      wakePromptWorker := some wake
      prompts := update s.prompts wake (.started g), frame := .idle } := by
  have hw : s.frame.wake? = some wake := by rw [hf]; rfl
  obtain ⟨hlast, hnone⟩ := h.carried wake hw
  have hidle := h.not_calling (by rw [hnone]; nofun) (by rw [hf]; nofun)
  have hstage : ∀ other, stage { s with
      wakePromptWorker := some wake
      prompts := update s.prompts wake (.started g), frame := .idle } other = s.stage other := by
    intro other
    by_cases hne : other = wake
    · rw [hne, stage_of_frame hw, hf]
      refine (if_neg nofun).trans ?_
      dsimp only
      rw [update_self]
      rfl
    · unfold stage
      rw [hw, if_neg nofun, if_neg fun he => hne (Option.some.inj he).symm]
      dsimp only
      rw [update_of_ne hne]
  constructor
  · intro other hlt
    have hne : other ≠ wake := by
      dsimp only at hlt
      omega
    exact (update_of_ne hne _ _).trans (h.fresh other hlt)
  · nofun
  · nofun
  · intro other g' hg
    dsimp only at hg
    by_cases hne : other = wake
    · rw [hne, update_self] at hg
      cases hg
      exact h.spawning wake g hf
    · rw [update_of_ne hne] at hg
      exact h.generation other g' hg
  · intro other
    dsimp only
    by_cases hne : other = wake
    · rw [hne, update_self]
      exact iff_of_false (absurd hidle) nofun
    · rw [update_of_ne hne]
      refine (h.calling other).trans (or_congr_right (iff_of_false ?_ nofun))
      rw [hf]
      nofun
  · exact fun other hne => h.last other (hstage other ▸ hne)
  · exact hstage s.wakes ▸ h.allowed
  · exact fun hmay => h.requests (hstage s.wakes ▸ hmay)
  · exact h.enabled

theorem Own.frameFails (h : s.Own) (hf : s.frame = .refusing wake ∨ s.frame = .failing wake) :
    Own { s.serviceStep (.wakePromptFailed wake) with
      frame := if (s.serviceStep (.wakePromptFailed wake)).promptFailureOver wake then .idle
        else .failing wake } := by
  have hw : s.frame.wake? = some wake := by
    rcases hf with hf | hf <;> rw [hf] <;> rfl
  have hfails := promptFailedStep_fails wake s.service
  have hbefore := h.stage_before (.inr (.inr hf))
  have hover := @promptFailureOver_iff (s.serviceStep (.wakePromptFailed wake)) wake
  have hall := h.allowed
  rw [← (h.carried wake hw).1, hbefore] at hall
  have hstage : Frame.stage ((s.service.promptFailedStep wake).promptFailures wake)
      (if (s.serviceStep (.wakePromptFailed wake)).promptFailureOver wake then .idle else .failing wake) =
      ((s.service.promptFailedStep wake).promptFailures wake).stage := by
    by_cases ho : (s.serviceStep (.wakePromptFailed wake)).promptFailureOver wake = true
    · have hidle : (s.service.promptFailedStep wake).promptFailures wake = .idle := hover.mp ho
      rw [if_pos ho, hidle]
      rfl
    · rw [if_neg ho]
      rfl
  refine h.frame hw (s.service.promptFailedStep wake) s.wakePromptWorker s.wakePromptDone
    s.wakePromptGeneration _ ?_ ?_ h.generation (fun _ hne => promptFailedStep_others hne s.service) ?_
    (promptFailedStep_aside wake s.service).handles.1 (promptFailedStep_aside wake s.service).toCallerStep.requests
    ?_ ?_ hfails.eq_waking rfl
  · split
    · exact .inr rfl
    · exact .inl rfl
  · intro w g hg
    split at hg <;> cases hg
  · change _ ↔ (s.service.promptFailedStep wake).promptFailures wake = .idle at hover
    rw [ne_eq, ← hover]
    split
    · next ho => exact iff_of_false (not_not.mpr ho) nofun
    · next ho => exact iff_of_true ho rfl
  · intro hmay
    rw [hbefore]
    refine hfails.mayFail fun heq => ?_
    rw [hstage, heq] at hmay
    cases hmay
  · rw [hstage]
    exact hfails.allows hall h.enabled

theorem serviceStep_wakeWordDetected
    (h : ¬ (s.service.config.enabled && s.service.accepts .wakeWordDetected) = true) :
    s.serviceStep .wakeWordDetected = s := by
  have hstep : (s.service.step .wakeWordDetected).1 = s.service := by
    unfold VoiceInteractionService.step
    dsimp only
    split
    · next he =>
      rw [he, Bool.true_and, VoiceInteractionService.accepts, Option.not_isSome_iff_eq_none] at h
      unfold VoiceInteractionService.handled
      rw [h]
      rfl
    · rfl
  unfold VoiceInputGate.serviceStep
  rw [hstep]

theorem Own.startMoves (h : s.Own) (hw : s.frame.wake? = some wake)
    (hstage : s.frame.stage .idle = .undecided) (worker : Option Nat) (done : Bool) {frame' : Frame}
    (hw' : frame'.wake? = some wake) (hstage' : frame'.stage .idle = .undecided)
    (hspawning : ∀ w g, frame' ≠ .spawning w g) (hnot : s.frame ≠ .failing wake) :
    Own { s with wakePromptWorker := worker, wakePromptDone := done, frame := frame' } := by
  obtain ⟨hlast, hnone⟩ := h.carried wake hw
  have hidle := h.not_calling (by rw [hnone]; nofun) hnot
  have hundecided : s.stage wake = .undecided := by rw [stage_of_frame hw, hidle, hstage]
  have hall := h.allowed
  rw [← hlast, hundecided] at hall
  refine h.frame hw s.service worker done s.wakePromptGeneration frame' (.inl hw')
    (fun w g he => absurd he (hspawning w g)) h.generation (fun _ _ => rfl) ?_ rfl rfl ?_ ?_ id rfl
  · refine iff_of_false (absurd hidle) fun he => ?_
    rw [he] at hstage'
    cases hstage'
  · exact fun _ => hundecided ▸ rfl
  · rw [hidle, hstage']
    exact hall

theorem Own.numbers (h : s.Own) (hf : s.frame = .numbering wake) : Own { s with
      wakePromptGeneration := s.wakePromptGeneration + 1
      frame := .spawning wake (s.wakePromptGeneration + 1) } := by
  have hw : s.frame.wake? = some wake := by rw [hf]; rfl
  obtain ⟨hlast, hnone⟩ := h.carried wake hw
  have hidle := h.not_calling (by rw [hnone]; nofun) (by rw [hf]; nofun)
  have hundecided : s.stage wake = .undecided := by rw [stage_of_frame hw, hf]; rfl
  have hall := h.allowed
  rw [← hlast, hundecided] at hall
  refine h.frame hw s.service s.wakePromptWorker s.wakePromptDone (s.wakePromptGeneration + 1)
    (.spawning wake (s.wakePromptGeneration + 1)) (.inl rfl) ?_ ?_ (fun _ _ => rfl) (iff_of_false (absurd hidle) nofun) rfl rfl (fun _ => hundecided ▸ rfl) hall id
    rfl
  · intro w g he
    cases he
    rfl
  · intro other g hg
    -- a prompt with a number is that of the last wake, and this one has no prompt yet
    have hprompt : s.prompts other ≠ .none := fun hp => by
      rw [hp] at hg
      cases hg
    have heq := h.last other (by
      rw [h.stage_of_prompt hprompt]
      revert hg
      cases s.prompts other with
      | played _ ok | checking _ ok => cases ok <;> nofun
      | _ => nofun)
    rw [heq, ← hlast] at hprompt
    exact absurd hnone hprompt

theorem Own.frameStep (a : FrameAnswers) (h : s.Own) (hno : ¬ s.Meets (.frame a)) : (s.frameStep a).Own := by
  unfold Meets at hno
  unfold VoiceInputGate.frameStep
  cases hf : s.frame with
  | idle =>
    refine h.frameMoves (by rw [hf]; rfl) ?_ s.lastWake
    split <;> rfl
  | analyzing =>
    have hw : s.frame.wake? = none := by rw [hf]; rfl
    dsimp only
    split
    · split
      · exact h.frameMoves hw rfl s.lastWake
      · split
        · exact h.frameMoves hw rfl (some a.nowMs)
        · exact h.frameMoves hw rfl s.lastWake
    · exact h.frameMoves hw rfl s.lastWake
  | detected =>
    rw [hf] at hno
    dsimp only at hno ⊢
    split
    · next hacc =>
      rw [Bool.and_eq_true] at hacc
      refine h.wakes hf hacc.1 hacc.2 fun wake => ?_
      by_contra hne
      exact hno ⟨hacc.1, hacc.2, wake, hne⟩
    · next hrefused =>
      rw [serviceStep_wakeWordDetected hrefused]
      exact h.frameMoves (by rw [hf]; rfl) rfl s.lastWake
  | starting wake =>
    have hw : s.frame.wake? = some wake := by rw [hf]; rfl
    dsimp only
    split
    · split <;> exact h.startMoves hw (by rw [hf]; rfl) _ _ rfl rfl (by simp) (by rw [hf]; simp)
    · exact h.startMoves hw (by rw [hf]; rfl) _ _ rfl rfl (by simp) (by rw [hf]; simp)
  | joining wake previous =>
    dsimp only
    split
    · exact h.startMoves (by rw [hf]; rfl) (by rw [hf]; rfl) none _ rfl rfl (by simp) (by rw [hf]; simp)
    · exact h
  | storing wake =>
    exact h.startMoves (by rw [hf]; rfl) (by rw [hf]; rfl) _ false rfl rfl (by simp) (by rw [hf]; simp)
  | numbering wake => exact h.numbers hf
  | spawning wake g =>
    rw [hf] at hno
    dsimp only at hno ⊢
    rw [if_pos (Bool.of_not_eq_false hno)]
    exact h.spawn hf
  | refusing wake => exact h.frameFails (.inl hf)
  | failing wake => exact h.frameFails (.inr hf)

/-- Only the last wake is at a stage, unless a wake meets the prompt of an older one. -/
theorem Own.step (event : GateEvent) (h : s.Own) (hno : ¬ s.Meets event) : (s.step event).1.Own := by
  cases event with
  | frame a => exact h.frameStep a hno
  | prompt wake ok => exact h.promptStep wake ok
  | service event => exact h.serviceEvent event hno

/-! ## Whole runs -/

theorem Own.failure_changes (h : s.Own) (hw : s.prompts wake = .notifying false ∨ s.prompts wake = .failing ∨
      s.frame = .refusing wake ∨ s.frame = .failing wake)
    (hne : (s.service.promptFailedStep wake).state ≠ s.service.state) :
    s.wakes = wake ∧
      (s.service.promptFailures wake = .idle ∧ s.service.state = waking ∨
        s.service.promptFailures wake ≠ .idle ∧ s.service.state.unsettled = true ∧
          s.service.requests = s.wakeRequests) := by
  have hfails := promptFailedStep_fails wake s.service
  have hbefore := h.stage_before hw
  have hlast : wake = s.wakes := h.last wake fun hover => hne (hfails.unchanged (hbefore ▸ hover))
  have hall := h.allowed
  rw [← hlast, hbefore] at hall
  refine ⟨hlast.symm, (hfails.changes hall hne).imp id fun ⟨hcleaning, hunsettled⟩ => ?_⟩
  have hcalling : s.service.promptFailures wake ≠ .idle := by
    intro hidle
    rw [hidle] at hcleaning
    cases hcleaning
  refine ⟨hcalling, hunsettled, h.requests ?_⟩
  rw [← hlast, hbefore]
  revert hcalling hcleaning
  cases s.service.promptFailures wake with
  | idle => exact fun _ hidle => absurd rfl hidle
  | _ => exact fun hcleaning _ => congrArg WakeStage.mayFail hcleaning

theorem Own.failure_acts (h : s.Own) (hw : s.prompts wake = .notifying false ∨ s.frame = .refusing wake)
    (hs' : s'.service = s.service.promptFailedStep wake) : s.ActsOnItsOwn s' wake := by
  intro hne
  rw [hs'] at hne
  have hcalling : ¬ (s.prompts wake = .failing ∨ s.frame = .failing wake) := by
    rintro (hp | hf) <;> rcases hw with hw | hw
    · rw [hw] at hp
      cases hp
    · rw [(h.carried wake (by rw [hw]; rfl)).2] at hp
      cases hp
    · exact h.frame_ne (by rw [hw]; nofun) hf
    · rw [hw] at hf
      cases hf
  obtain ⟨hlast, ⟨_, hwaking⟩ | ⟨hnot, _⟩⟩ := h.failure_changes
    (hw.elim .inl fun hf => .inr (.inr (.inl hf))) hne
  · exact ⟨hwaking, hlast⟩
  · exact absurd ((h.calling wake).mp hnot) hcalling

theorem Own.failure_cleans (h : s.Own) (hw : s.prompts wake = .failing ∨ s.frame = .failing wake)
    (hs' : s'.service = s.service.promptFailedStep wake) : s.CleansItsOwn s' wake := by
  intro hne
  rw [hs'] at hne
  obtain ⟨hlast, ⟨hidle, _⟩ | ⟨_, hunsettled, hrequests⟩⟩ := h.failure_changes
    (hw.elim (.inr ∘ .inl) fun hf => .inr (.inr (.inr hf))) hne
  · exact absurd hidle ((h.calling wake).mpr hw)
  · exact ⟨hunsettled, hlast, hrequests⟩

theorem Own.lawful (event : GateEvent) (h : s.Own) : s.Lawful event := by
  unfold Lawful
  cases event with
  | service event => trivial
  | frame a =>
    dsimp only
    split
    · next wake hf => exact h.failure_acts (.inr hf) (by unfold VoiceInputGate.frameStep; rw [hf]; rfl)
    · next wake hf => exact h.failure_cleans (.inr hf) (by unfold VoiceInputGate.frameStep; rw [hf]; rfl)
    · trivial
  | prompt wake ok =>
    dsimp only
    split
    · next g hp =>
      rintro ⟨hlistening, hlast⟩
      have hall := h.allowed
      rw [hlast, h.stage_of_prompt (by rw [hp]; nofun), hp, hlistening] at hall
      cases hall
    · next played hp =>
      cases played with
      | false => exact h.failure_acts (.inl hp) (by unfold VoiceInputGate.promptStep; rw [hp]; rfl)
      | true =>
        have hstage : s.stage wake = .completing := by rw [h.stage_of_prompt (by rw [hp]; nofun), hp]; rfl
        have hs' : (s.promptStep wake ok).service = (s.service.step .wakePromptCompleted).1 := by
          unfold VoiceInputGate.promptStep
          rw [hp]
          rfl
        intro hne
        refine ⟨?_, (h.eq_wakes hstage nofun).symm⟩
        rw [hs'] at hne
        by_contra hnot
        refine hne ?_
        unfold VoiceInteractionService.step
        dsimp only
        split
        · refine handled_state_of_not_accepts ?_
          rw [accepts, handle_eq, nextState, if_neg hnot]
          rfl
        · rfl
    · next hp => exact h.failure_cleans (.inl hp) (by unfold VoiceInputGate.promptStep; rw [hp]; rfl)
    · trivial

theorem Own.unpaused (h : s.Own) : s.Unpaused := by
  intro hf hp hw
  have hall := h.allowed
  have hover : s.stage s.wakes = .ended := by
    unfold stage
    rw [hf, if_neg nofun]
    rcases hp s.wakes with hp | hp <;> rw [hp] <;> rfl
  rw [hover, hw] at hall
  cases hall

/-- **A wake prompt acts on its own wake only.**  If no wake is accepted while the prompt of an older one
    can still act, no request begins while a prompt can still fail, and every prompt gets its thread, then
    the notification for a prompt changes the state only from the `kWaking` of its own wake, no prompt
    starts to play while its wake is listening, and at rest the state is not `kWaking`. -/
theorem wake_prompts_own (config : KwsConfig) (service : VoiceConfig) (events : List GateEvent)
    (hno : StepRun.Along step (fun s event => ¬ s.Meets event) (start config service) events) :
    StepRun.Along step Lawful (start config service) events ∧ (after config service events).Unpaused :=
  ⟨StepRun.Along.of_invariant (fun _ event h hs => h.step event hs) (fun _ event h _ => h.lawful event)
      (own_start config service) hno,
    (StepRun.Along.invariant (fun _ event h hs => Own.step event h hs) (own_start config service) hno).unpaused⟩

theorem wake_prompts_own_listening :
    StepRun.Along step Lawful (start { enabled := true } {})
        (.frame {} :: .frame { wakeWord := .result "" true } :: .frame {} :: .frame {} :: .frame {} ::
          .frame {} :: .frame {} :: .prompt 1 true :: .prompt 1 true :: .prompt 1 true :: .prompt 1 true ::
          .prompt 1 true :: .service (.worker { transcript := some "hello" }) :: .service (.worker {}) ::
          .service (.worker {}) :: [.service (.worker {})]) ∧
      (after { enabled := true } {}
        (.frame {} :: .frame { wakeWord := .result "" true } :: .frame {} :: .frame {} :: .frame {} ::
          .frame {} :: .frame {} :: .prompt 1 true :: .prompt 1 true :: .prompt 1 true :: .prompt 1 true ::
          .prompt 1 true :: .service (.worker { transcript := some "hello" }) :: .service (.worker {}) ::
          .service (.worker {}) :: [.service (.worker {})])).Unpaused :=
  wake_prompts_own { enabled := true } {} _
    ⟨id, id, fun ⟨_, _, _, h⟩ => h rfl, id, id, id, nofun, id, id, id, id, id, fun h => h.1, fun h => h.1,
      fun h => h.1, (by rintro ⟨_, _ | _ | wake, h⟩ <;> cases h), trivial⟩

theorem completed_for_older_wake :
    ¬ ∀ config service events,
      StepRun.Along step Lawful (start config service) events ∧
        (after config service events).Unpaused := by
  intro h
  have hlaw := (h { enabled := true } {}
    (.frame {} :: .frame { wakeWord := .result "" true } :: List.replicate 5 (.frame {}) ++
      List.replicate 4 (.prompt 1 true) ++ List.replicate 10 (.service (.interrupt 0)) ++
      .frame {} :: .frame { wakeWord := .result "" true, nowMs := 2000 } :: [.frame {}] ++
      [.prompt 1 true])).1
  have hlast := ((StepRun.along_append _ _ _).mp hlaw).2.1
  exact absurd (hlast (by decide)).2 (by decide)

end VoiceInputGate

end Cockpit.Voice
