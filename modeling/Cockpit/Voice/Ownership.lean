/-
  Every request has an owner: as long as the state is `busy`, there is somebody who will end it.
-/
import Cockpit.Voice.InteractionSteps

namespace Cockpit.Voice

open InteractionState Function

/-- Has still to look whether the conversation is active, and cancels it if so. -/
def Interrupting.armed : Interrupting → Bool
  | .looking _ | .invalidating _ _ | .deciding _ _ | .checking _ | .cancelling _ => true
  | _ => false

namespace Output

/-- Took its registration, and has still to tell the state machine. -/
def settling : Output → Bool
  | .completed _ _ | .cancelled _ | .recovering _ | .failing _ => true
  | _ => false

/-- The output is out, under this generation. -/
def awaits (generation : Nat) : Output → Bool
  | .outstanding g _ => g = generation
  | _ => false

end Output

namespace Worker

/-- Brought the request to the state that it is in, and will bring it on. -/
def owns (s : VoiceInteractionService) : Worker → Prop
  | .assistantCall g | .assistantFailed g | .assistantDone g _ _ | .transcriptReady g _ =>
    s.state = recognizing ∧ g = s.interruptGeneration
  | .llmCall g _ | .llmDone g _ | .beginningAction g _ | .selectingAction g _ _ | .selectingOpen g _ =>
    s.state = routing ∧ g = s.interruptGeneration
  | .startingAction g _ _ | .actionCall g _ _ | .endingAction g _ _ _ _ | .actionDone g _ _ _ =>
    s.state = executing ∧ g = s.interruptGeneration
  | .publishing g _ | .responding g _ _ =>
    (s.state = executing ∨ s.state = thinking) ∧ g = s.interruptGeneration
  | .registering g _ recovery => s.state = speaking ∧ g = s.interruptGeneration ∧ recovery = false
  | .submitting g id recovery =>
    s.state = speaking ∧ g = s.interruptGeneration ∧ recovery = false ∧
      s.activeOutputRequestId = id ∧ s.activeOutputGeneration = g ∧ s.activeOutputRecovery = false
  | .unregistering _ _ recovery => recovery = false
  | .abandoningAction _ _ | .recovering _ _ | .failing _ _ => True
  | .returning => s.state ≠ recognizing
  | .returned state => s.state ≠ recognizing ∧ state = s.state
  | _ => False

end Worker

namespace VoiceInteractionService

variable {s s' : VoiceInteractionService}

/-- An `Interrupt` has still to look whether the conversation is active. -/
def Armed (s : VoiceInteractionService) : Prop := ∃ i, (s.interrupts i).armed = true

/-- An output that is registered will find its registration, unless it is interrupted. -/
def Awaited (s : VoiceInteractionService) (recovery : Bool) : Prop :=
  s.activeOutputGeneration = s.interruptGeneration ∧ s.activeOutputRecovery = recovery ∧
    (s.outputs s.activeOutputRequestId).awaits s.activeOutputGeneration = true

/-- The response is played, or its callback is on its way. -/
def OutputOwns (s : VoiceInteractionService) : Prop :=
  s.state = speaking ∧
    ((∃ id, (s.outputs id).settling = true) ∨
      s.worker.free = true ∧ s.activeOutputRequestId ≠ 0 ∧ s.Awaited false)

/-- The owner of a busy state. -/
def Owned (s : VoiceInteractionService) : Prop :=
  s.state.busy = true → s.Armed ∨ s.worker.owns s ∨ s.OutputOwns

/-- The step leaves a request to nobody. -/
def Orphans (s : VoiceInteractionService) : Event → Prop
  | .worker a =>
    match s.worker with
    | .segmentReady g =>
      s.accepts .speechSegmentReady = true ∧ g ≠ s.interruptGeneration ∧ ¬ s.Armed
    | .llmCall _ _ => (match a.llm with | .foreign => True | _ => False) ∧ s.state.busy = true ∧ ¬ s.Armed
    | _ => False
  | _ => False

/-! ## Frames -/

/-- What the owner of a request goes by. -/
structure SameRequest (s s' : VoiceInteractionService) : Prop where
  state : s'.state = s.state
  generation : s'.interruptGeneration = s.interruptGeneration
  id : s'.activeOutputRequestId = s.activeOutputRequestId
  active : s'.activeOutputGeneration = s.activeOutputGeneration
  recovery : s'.activeOutputRecovery = s.activeOutputRecovery

/-- Who owns the request depends on nothing else. -/
theorem SameRequest.owns_iff (same : SameRequest s s') (w : Worker) : w.owns s' ↔ w.owns s := by
  cases w <;>
    simp only [Worker.owns, same.state, same.generation, same.id, same.active, same.recovery]

/-- And the places of all but the worker. -/
structure SameOthers (s s' : VoiceInteractionService) : Prop extends SameRequest s s' where
  interrupts : s'.interrupts = s.interrupts
  promptFailures : s'.promptFailures = s.promptFailures
  outputs : s'.outputs = s.outputs

theorem Worker.owns_of_not_submitting {w : Worker} (hw : ∀ g id recovery, w ≠ .submitting g id recovery)
    (hstate : s'.state = s.state) (hgeneration : s'.interruptGeneration = s.interruptGeneration)
    (h : w.owns s) : w.owns s' := by
  cases w with
  | submitting g id recovery => exact absurd rfl (hw g id recovery)
  | _ =>
    simp only [Worker.owns, hstate, hgeneration] at h ⊢
    try exact h

theorem Owned.of_not_busy (h : s.state.busy = false) : s.Owned := by
  intro hb
  rw [h] at hb
  cases hb

/-! ## The worker -/

theorem Owned.move (h : s.Owned) (same : SameOthers s s')
    (howns : s.state.busy = true → s.worker.owns s → s'.worker.owns s)
    (hfree : s.worker.free = true → s'.worker.free = true) : s'.Owned := by
  intro hb
  unfold OutputOwns Awaited Armed
  rw [same.owns_iff, same.state, same.generation, same.id, same.active, same.recovery,
    same.interrupts, same.outputs]
  rw [same.state] at hb
  rcases h hb with h | h | ⟨hstate, h⟩
  · exact .inl h
  · exact .inr (.inl (howns hb h))
  · exact .inr (.inr ⟨hstate, h.imp_right fun h => ⟨hfree h.1, h.2⟩⟩)

/-- The worker goes on to a place that owns what its place owned. -/
theorem Owned.goes {w : Worker} (h : s.Owned) (hw : s.worker = w)
    (howns : s.state.busy = true → w.owns s → s'.worker.owns s) (hfree : w.free = true → s'.worker.free = true)
    (same : SameOthers s s' := by exact ⟨⟨rfl, rfl, rfl, rfl, rfl⟩, rfl, rfl, rfl⟩) : s'.Owned := by
  subst hw
  exact h.move same howns hfree

variable {event : ConversationEvent}

theorem Owned.handleThen {accepted refused : Worker} (h : s.Owned) (hfree : s.worker.free = false)
    (hacc : s.accepts event = true → (s.handled event).state.busy = true → s.Armed ∨ accepted.owns (s.handled
      event)) (hrefused : s.accepts event = false → s.state.busy = true → s.worker.owns s → refused.owns s) :
    (s.handleThen event accepted refused).1.Owned := by
  unfold VoiceInteractionService.handleThen goTo
  cases ha : s.accepts event with
  | true =>
    intro hb
    rcases hacc ha hb with h | h
    · exact .inl h
    · exact .inr (.inl h)
  | false =>
    refine h.move ⟨⟨?_, rfl, rfl, rfl, rfl⟩, rfl, rfl, rfl⟩ (hrefused ha) ?_
    · exact handled_state_of_not_accepts ha
    · intro hf
      rw [hfree] at hf
      cases hf

theorem Owned.advance (before : InteractionState → Bool) {next : InteractionState} {accepted refused : Worker}
    (hevent : ∀ state : InteractionState, state.nextState event = if before state then some next else none)
    (hbefore : ∀ state, before state = true → state.busy = true ∧ state ≠ speaking) (h : s.Owned)
    (hfree : s.worker.free = false)
    (hacc : s.worker.owns s → ∀ s' : VoiceInteractionService, s'.state = next → s'.interruptGeneration =
      s.interruptGeneration → accepted.owns s') (hrefused : s.worker.owns s → before s.state = true) :
    (s.handleThen event accepted refused).1.Owned := by
  apply h.handleThen hfree
  · intro ha _
    have hs : before s.state = true := by
      obtain ⟨n, hn⟩ := accepts_iff.mp ha
      by_contra hne
      rw [hevent, if_neg hne] at hn
      cases hn
    have hnext : (s.handled event).state = next := handled_state (by rw [hevent, if_pos hs])
    rcases h (hbefore s.state hs).1 with h | h | h
    · exact .inl h
    · exact .inr (hacc h _ hnext rfl)
    · exact absurd h.1 (hbefore s.state hs).2
  · intro ha _ how
    have hs : s.accepts event = true :=
      accepts_iff.mpr ⟨next, by rw [hevent, if_pos (hrefused how)]⟩
    rw [ha] at hs
    cases hs

theorem Owned.worker (a : Answers) (hn : s.Numbered) (h : s.Owned) (hno : ¬ s.Orphans (.worker a)) :
    (s.workerStep a).1.Owned := by
  unfold Orphans at hno
  unfold workerStep
  cases hw : s.worker with
  | idle =>
    have moved : ∀ w : Worker, w.free = true → ∀ deadline,
        Owned { s with worker := w, followUpDeadline := deadline } := fun w hf _ =>
      h.goes hw (fun _ how => how.elim) fun _ => hf
    dsimp only
    split
    · split
      · exact moved _ rfl _
      · exact h
    · split
      · exact h
      · split
        · exact h
        · exact moved _ rfl _
  | expired =>
    intro hb
    have hstate := handle_eq_of_busy rfl hb
    refine h.move ⟨⟨hstate, rfl, rfl, rfl, rfl⟩, rfl, rfl, rfl⟩ ?_ ?_ hb
    all_goals rw [hw]
    · exact fun _ how => how.elim
    · intro _
      dsimp only [VoiceInteractionService.handleThen, goTo]
      split <;> rfl
  | segmentReady g =>
    rw [hw] at hno
    dsimp only at hno ⊢
    split
    · next ha =>
      intro _
      by_cases harmed : s.Armed
      · exact .inl harmed
      · exact .inr (.inl ⟨handled_speechSegmentReady ha, by_contra fun hg => hno ⟨ha, hg, harmed⟩⟩)
    · exact h.goes hw (fun _ how => how.elim) fun _ => rfl
  | transcriptReady g result =>
    refine h.advance (fun state => state = recognizing) (fun state => by cases state <;> rfl)
      (fun state => by cases state <;> decide) (by rw [hw]; rfl) ?_ ?_
    all_goals rw [hw]
    · intro how s' hs' hg
      grind [Worker.owns, route]
    · exact fun how => decide_eq_true how.1
  | llmCall g result =>
    rw [hw] at hno
    dsimp only at hno ⊢
    cases hllm : a.llm with
    | foreign =>
      intro hb
      exact .inl (by_contra fun harmed => hno ⟨by rw [hllm]; trivial, hb, harmed⟩)
    | exception => exact h.goes hw (fun _ _ => trivial) nofun
    | result success text => exact h.goes hw (fun _ how => how) nofun
  | selectingAction g result token =>
    refine h.advance (fun state => state = routing) (fun state => by cases state <;> rfl)
      (fun state => by cases state <;> decide) (by rw [hw]; rfl) ?_ ?_
    all_goals rw [hw]
    · intro how s' hs' hg
      cases token with
      | none => exact ⟨.inl hs', how.2.trans hg.symm⟩
      | some token => exact ⟨hs', how.2.trans hg.symm⟩
    · exact fun how => decide_eq_true how.1
  | abandoningAction g token =>
    unfold endActionCall
    dsimp only
    split <;> exact h.goes hw (fun _ _ => trivial) nofun
  | endingAction g result token execution timedOut =>
    unfold endActionCall
    dsimp only
    split <;> exact h.goes hw (fun _ how => how) nofun
  | selectingOpen g result =>
    refine h.advance (fun state => state = routing) (fun state => by cases state <;> rfl)
      (fun state => by cases state <;> decide) (by rw [hw]; rfl) ?_ ?_
    all_goals rw [hw]
    · exact fun how s' hs' hg => ⟨.inr hs', how.2.trans hg.symm⟩
    · exact fun how => decide_eq_true how.1
  | responding g id text =>
    refine h.advance (fun state => state = routing || state = executing || state = thinking)
      (fun state => by cases state <;> rfl) (fun state => by cases state <;> decide) (by rw [hw]; rfl)
      ?_ ?_
    all_goals rw [hw]
    · exact fun how s' hs' hg => ⟨hs', how.2.trans hg.symm, rfl⟩
    · rintro ⟨hs | hs, _⟩ <;> rw [hs] <;> rfl
  | registering g id recovery =>
    intro hb
    rcases h hb with h | h | ⟨hstate, h⟩
    · exact .inl h
    · rw [hw] at h
      exact .inr (.inl ⟨h.1, h.2.1, h.2.2, rfl, rfl, h.2.2⟩)
    · rw [hw] at h
      exact .inr (.inr ⟨hstate, .inl (h.resolve_right fun h => nomatch h.1)⟩)
  | submitting g id recovery =>
    obtain ⟨hpos, _, hnone⟩ := hn.fresh id (by rw [hw]; rfl)
    dsimp only
    split
    · intro hb
      rcases h hb with h | h | ⟨hstate, h⟩
      · exact .inl h
      · -- the worker hands the response on to the output
        rw [hw] at h
        obtain ⟨hstate, hg, _, hid, hactive, hrecovery⟩ := h
        have hne : s.activeOutputRequestId ≠ 0 := by omega
        refine .inr (.inr ⟨hstate, .inr ⟨rfl, hne, hactive.trans hg, hrecovery, ?_⟩⟩)
        dsimp only
        rw [hid, update_self, hactive]
        exact decide_eq_true rfl
      · rw [hw] at h
        refine .inr (.inr ⟨hstate, .inl ?_⟩)
        exact Callers.exists_update (P := fun place : Output => place.settling = true)
          (h.resolve_right fun h => nomatch h.1) (fun hp => by rw [hnone] at hp; cases hp)
    · exact h.goes hw (fun _ how => how.2.2.1) nofun
  | unregistering g id recovery =>
    intro hb
    have hstate : s.state.busy = true := by
      dsimp only at hb
      split at hb <;> exact hb
    rcases h hstate with h | h | ⟨hspeaking, h⟩
    all_goals dsimp only
    · left
      split <;> exact h
    · rw [hw] at h
      have hr : recovery = false := h
      subst hr
      exact .inr (.inl trivial)
    · rw [hw] at h
      have hsettling := h.resolve_right fun h => nomatch h.1
      right; right
      split <;> exact ⟨hspeaking, .inl hsettling⟩
  | recovering g prompt =>
    refine h.goes hw (fun hb _ => ?_) nofun
    have hne : ¬ (s.state = shuttingDown ∨ s.state = cancelled) := by
      rintro (hs | hs) <;> rw [hs] at hb <;> cases hb
    show Worker.owns s (ite _ _ _)
    rw [if_neg hne]
    trivial
  | failing g prompt =>
    exact Owned.of_not_busy (busy_handle_failure s.state)
  | returned state =>
    intro hb
    dsimp only at hb ⊢
    rw [returnHandled_eq] at hb ⊢
    have hstate : afterReturn state s.state = s.state := by
      refine (afterReturn_eq state s.state).resolve_left fun hidle => ?_
      dsimp only [goTo] at hb
      rw [hidle] at hb
      cases hb
    have hbusy : s.state.busy = true := by
      rw [← hstate]
      exact hb
    rcases h hbusy with h | h | ⟨hspeaking, h⟩
    · exact .inl h
    · rw [hw] at h
      obtain ⟨hne, rfl⟩ := h
      rw [afterReturn_busy hbusy hne] at hstate
      rw [← hstate] at hbusy
      cases hbusy
    · rw [hw] at h
      exact .inr (.inr ⟨hstate.trans hspeaking, .inl (h.resolve_right fun h => nomatch h.1)⟩)
  | _ =>
    refine h.goes hw ?_ ?_
    all_goals
      dsimp only [goTo, beginActionCall]
      grind [Worker.owns, Worker.free, route]

/-! ## The callers and the outputs -/

theorem Owned.other (h : s.Owned) (hbusy : s'.state.busy = true → s'.state = s.state)
    (harmed : s'.state.busy = true → s.Armed → s'.Armed)
    (hgeneration : s'.interruptGeneration = s.interruptGeneration := by rfl)
    (hid : s'.activeOutputRequestId = s.activeOutputRequestId := by rfl)
    (hactive : s'.activeOutputGeneration = s.activeOutputGeneration := by rfl)
    (hrecovery : s'.activeOutputRecovery = s.activeOutputRecovery := by rfl)
    (hworker : s'.worker = s.worker := by rfl) (hout : s'.outputs = s.outputs := by rfl) : s'.Owned := by
  intro hb
  have hstate := hbusy hb
  have same : SameRequest s s' := ⟨hstate, hgeneration, hid, hactive, hrecovery⟩
  unfold OutputOwns Awaited
  rw [hworker, same.owns_iff, hstate, hgeneration, hid, hactive, hrecovery, hout]
  rcases h (hstate ▸ hb) with h | h
  · exact .inl (harmed hb h)
  · exact .inr h

theorem Owned.interrupt (i : Nat) (h : s.Owned) : (s.interruptStep i).Owned := by
  have goes : ∀ {place : Interrupting},
      ((s.interrupts i).armed = true → place.armed = true) → s.Armed →
        ∃ j, (update s.interrupts i place j).armed = true := fun hplace harmed =>
    Callers.exists_update (P := fun place : Interrupting => place.armed = true) harmed hplace
  have arms : ∀ {place : Interrupting}, place.armed = true →
      ∃ j, (update s.interrupts i place j).armed = true := fun hplace =>
    Callers.exists_update_self (P := fun place : Interrupting => place.armed = true) _ i hplace
  unfold interruptStep
  cases hi : s.interrupts i with
  | idle => exact fun _ => .inl (arms rfl)
  | looking number => exact h.other (fun _ => rfl) fun _ => goes fun _ => rfl
  | invalidating number outputActive => exact fun _ => .inl (arms rfl)
  | deciding number outputActive =>
    refine h.other (fun _ => rfl) (fun hb => goes fun _ => ?_)
    rw [if_pos (by rw [isActive_of_busy hb, Bool.or_true])]
    rfl
  | checking number =>
    refine h.other (fun _ => rfl) (fun hb => goes fun _ => ?_)
    rw [if_pos (isActive_of_busy hb)]
    rfl
  | cancelling number =>
    exact Owned.of_not_busy (busy_handle_cancelRequested s.state)
  | cancellingAction number =>
    unfold cancelActionCall
    dsimp only
    split <;>
      exact h.other (fun _ => rfl) fun _ => goes (by rw [hi]; exact nofun)
  | returned number state =>
    dsimp only
    rw [returnHandled_eq]
    refine h.other ?_ fun _ => goes (by rw [hi]; exact nofun)
    exact eq_of_busy_afterReturn
  | _ =>
    exact h.other (fun _ => rfl) fun _ => goes (by rw [hi]; exact nofun)

theorem Owned.aside {who : ConversationEvent → Bool} (h : s.Owned) (hs : s.AsideStep who s')
    (hwho : ∀ e, who e = true → e.isProgress = false) : s'.Owned := by
  refine h.other (hs.handles.eq_of_busy hwho) (fun _ harmed => ?_) hs.generation hs.id hs.active hs.recovery
    hs.toCallerStep.worker hs.outputs
  unfold Armed
  rw [hs.interrupts]
  exact harmed

theorem Owned.output (h : s.Owned) (id : Nat) {place : Output} (hplace : ∀ g, (s.outputs id).awaits g = false)
    (hbusy : s'.state.busy = true → s'.state = s.state) (hout : s'.outputs = update s.outputs id place)
    (hsettling : s'.state.busy = true → s'.state = speaking → (s.outputs id).settling = true →
      place.settling = true) (hgeneration : s'.interruptGeneration = s.interruptGeneration := by rfl)
    (hid : s'.activeOutputRequestId = s.activeOutputRequestId := by rfl)
    (hactive : s'.activeOutputGeneration = s.activeOutputGeneration := by rfl)
    (hrecovery : s'.activeOutputRecovery = s.activeOutputRecovery := by rfl)
    (hworker : s'.worker = s.worker := by rfl) (hint : s'.interrupts = s.interrupts := by rfl) : s'.Owned := by
  intro hb
  have hstate := hbusy hb
  have same : SameRequest s s' := ⟨hstate, hgeneration, hid, hactive, hrecovery⟩
  unfold OutputOwns Awaited Armed
  rw [hworker, same.owns_iff, hint]
  rcases h (hstate ▸ hb) with h | h | ⟨hspeaking, h⟩
  · exact .inl h
  · exact .inr (.inl h)
  · refine .inr (.inr ⟨hstate.trans hspeaking, ?_⟩)
    rcases h with h | ⟨hfree, hne, hgen, hrec, hawaits⟩
    · left
      rw [hout]
      exact Callers.exists_update (P := fun place : Output => place.settling = true) h
        (hsettling hb (hstate.trans hspeaking))
    · right
      have hother : s.activeOutputRequestId ≠ id := by
        intro he
        rw [he, hplace] at hawaits
        cases hawaits
      rw [hgeneration, hid, hactive, hrecovery, hout, update_of_ne hother]
      exact ⟨hfree, hne, hgen, hrec, hawaits⟩

theorem Owned.taken {id : Nat} {place : Output} (hn : s.Numbered) (h : s.Owned)
    (hid : id = s.activeOutputRequestId) (hout : s.outputs id ≠ .none) (hsettling : (s.outputs id).settling = false)
    (hplace : s.activeOutputRecovery = false → place.settling = true) :
    Owned { s.clearOutput with outputs := update s.outputs id place } := by
  intro hb
  rcases h hb with h | h | ⟨hspeaking, h⟩
  · exact .inl h
  · refine .inr (.inl (Worker.owns_of_not_submitting (w := s.worker) (s := s) (fun g i recovery hw => ?_)
      rfl rfl h))
    -- what the worker submits has not been submitted yet
    rw [hw] at h
    have hfresh := (hn.fresh i (by rw [hw]; rfl)).2.2
    rw [hid, h.2.2.2.1] at hout
    exact hout hfresh
  · refine .inr (.inr ⟨hspeaking, .inl ?_⟩)
    rcases h with h | ⟨_, _, _, hrecovery, _⟩
    · exact Callers.exists_update (P := fun place : Output => place.settling = true) h
        (fun hs => by rw [hsettling] at hs; cases hs)
    · exact Callers.exists_update_self (P := fun place : Output => place.settling = true) _ id
        (hplace hrecovery)

theorem Owned.stale {id g request : Nat} (h : s.Owned) (hid : s.outputs id = .outstanding g request)
    (hstale : id ≠ s.activeOutputRequestId ∨ g ≠ s.activeOutputGeneration ∨
      g ≠ s.interruptGeneration ∨ id = 0) : Owned { s with outputs := update s.outputs id .done } := by
  intro hb
  rcases h hb with h | h | ⟨hspeaking, h⟩
  · exact .inl h
  · exact .inr (.inl ((SameRequest.mk rfl rfl rfl rfl rfl).owns_iff _ |>.mpr h))
  · refine .inr (.inr ⟨hspeaking, ?_⟩)
    rcases h with h | ⟨hfree, hne, hgen, hrecovery, hawaits⟩
    · exact .inl (Callers.exists_update (P := fun place : Output => place.settling = true) h
        (fun hs => by rw [hid] at hs; cases hs))
    · have hother : s.activeOutputRequestId ≠ id := by
        intro he
        rw [he, hid] at hawaits
        have hg : g = s.activeOutputGeneration := of_decide_eq_true hawaits
        omega
      refine .inr ⟨hfree, hne, hgen, hrecovery, ?_⟩
      dsimp only
      rw [update_of_ne hother]
      exact hawaits

theorem Owned.outputStep (id : Nat) (status : VoiceOutputStatus) (nowMs : Int) (hn : s.Numbered)
    (h : s.Owned) : (s.outputStep id status nowMs).Owned := by
  unfold VoiceInteractionService.outputStep
  cases ho : s.outputs id with
  | none | done => exact h
  | outstanding g request =>
    dsimp only
    split
    · next hstale =>
      refine h.stale ho ?_
      simp only [Bool.or_eq_true, decide_eq_true_eq] at hstale
      omega
    · next htaken =>
      refine h.taken hn ?_ (by rw [ho]; exact nofun) (by rw [ho]; rfl) ?_
      · simp only [Bool.or_eq_true, decide_eq_true_eq] at htaken
        omega
      · intro hrecovery
        rw [hrecovery]
        cases status <;> rfl
  | completed g request =>
    refine h.output id (by rw [ho]; exact fun _ => rfl) (handle_eq_of_busy rfl) rfl fun _ hspeaking => ?_
    exact absurd hspeaking (handle_playbackCompleted_ne_speaking s.state)
  | settingDeadline g request =>
    dsimp only
    split <;>
      exact h.output id (by rw [ho]; exact fun _ => rfl) (fun _ => rfl) rfl (by rw [ho]; exact nofun)
  | cancelled request => exact Owned.of_not_busy (busy_handle_cancelRequested s.state)
  | recovering request =>
    refine h.output id (by rw [ho]; exact fun _ => rfl) (fun _ => rfl) rfl fun _ hspeaking _ => ?_
    have hspeaking : s.state = speaking := hspeaking
    rw [hspeaking]
    rfl
  | failing request => exact Owned.of_not_busy (busy_handle_failure s.state)
  | returning request =>
    exact h.output id (by rw [ho]; exact fun _ => rfl) (fun _ => rfl) rfl (by rw [ho]; exact nofun)
  | returned request state =>
    dsimp only
    rw [returnHandled_eq]
    exact h.output id (by rw [ho]; exact fun _ => rfl) eq_of_busy_afterReturn rfl (by rw [ho]; exact nofun)

/-- A busy state has an owner after every step that orphans no request. -/
theorem Owned.step (event : Event) (hn : s.Numbered) (h : s.Owned) (hno : ¬ s.Orphans event) :
    (s.step event).1.Owned := by
  cases event with
  | worker a => exact h.worker a hn hno
  | actionWatchdog => exact h.aside (actionWatchdog_aside s).1 fun _ he => absurd he Bool.false_ne_true
  | interrupt i => exact h.interrupt i
  | wakeWordDetected | wakePromptCompleted =>
    refine h.aside (handled_aside _ s).1 fun e he => ?_
    rw [of_decide_eq_true he]
    rfl
  | wakePromptFailed i =>
    exact h.aside (promptFailedStep_aside i s)
      fun e => ConversationEvent.not_isProgress_of_ofOthers ∘ ConversationEvent.ofOthers_of_ofCallers
  | output id status nowMs => exact h.outputStep id status nowMs hn

end VoiceInteractionService

end Cockpit.Voice
