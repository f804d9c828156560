/-
  The sessions are isolated: what is done for a request that is over changes nothing of the conversation while a
  later request is the current one. What outlives a request is its output, whose callback passes its check in
  one step and acts in later ones, and its follow-up window.
-/
import Cockpit.Voice.InteractionSteps

namespace Cockpit.Voice

open InteractionState Function

namespace Worker

/-- The generation that the call in progress read. -/
def generation? : Worker → Option Nat
  | .idle | .expired | .returning | .returned _ => none
  | .expiring g | .called g _ | .beginning g | .resetting g | .segmentReady g | .assistantCall g
  | .assistantFailed g | .assistantDone g _ _ | .transcriptReady g _ | .llmCall g _ | .llmDone g _
  | .beginningAction g _ | .selectingAction g _ _ | .abandoningAction g _ | .startingAction g _ _
  | .actionCall g _ _ | .endingAction g _ _ _ _ | .actionDone g _ _ _ | .selectingOpen g _
  | .publishing g _ | .responding g _ _ | .registering g _ _ | .submitting g _ _ | .unregistering g _ _
  | .recovering g _ | .failing g _ | .prompting g | .publishingPrompt g => some g

/-- Took the follow-up deadline, and has still to tell the state machine. -/
def expires : Worker → Bool
  | .expiring _ | .expired => true
  | _ => false

/-- A recovery prompt is about to be registered. -/
def isRegistering : Worker → Bool
  | .registering _ _ _ => true
  | _ => false

end Worker

namespace Output

def generation? : Output → Option Nat
  | .outstanding g _ | .completed g _ | .settingDeadline g _ => some g
  | _ => .none

/-- The request that it is the output of, until it is over. -/
def request? : Output → Option Nat
  | .none | .done => .none
  | .outstanding _ r | .completed _ r | .settingDeadline _ r | .cancelled r | .recovering r | .failing r
  | .returning r | .returned r _ => some r

/-- The callback of the output `id` passes its checks, or has passed those that matter. -/
def acts (s : VoiceInteractionService) (id : Nat) : Output → Prop
  | .none | .done => False
  | .outstanding g _ =>
    id ≠ 0 ∧ id = s.activeOutputRequestId ∧ g = s.activeOutputGeneration ∧ g = s.interruptGeneration
  | .settingDeadline g _ => g = s.interruptGeneration
  | .returned _ state => (VoiceInteractionService.returnEvent state).isSome = true
  | .completed _ _ | .cancelled _ | .recovering _ | .failing _ | .returning _ => True

end Output

namespace VoiceInteractionService

variable {s s' : VoiceInteractionService}

/-- This output's callback acts on the state machine in its next step. -/
def Acts (s : VoiceInteractionService) (id : Nat) : Prop := (s.outputs id).acts s id

/-- A request begins while the callback of another one's output can still act. -/
def Meets (s : VoiceInteractionService) : Event → Prop
  | .worker _ =>
    match s.worker with
    | .segmentReady _ => s.accepts .speechSegmentReady = true ∧ ∃ id, s.Acts id
    | _ => False
  | _ => False

/-- What a session can see is the same. -/
structure SameSession (s s' : VoiceInteractionService) : Prop where
  state : s'.state = s.state
  followUpDeadline : s'.followUpDeadline = s.followUpDeadline
  id : s'.activeOutputRequestId = s.activeOutputRequestId
  active : s'.activeOutputGeneration = s.activeOutputGeneration
  recovery : s'.activeOutputRecovery = s.activeOutputRecovery

/-- An output of an older request changes nothing, and the end of an older follow-up window does not
    change the state. -/
def Isolated (s : VoiceInteractionService) : Event → Prop
  | .output id status nowMs =>
    ∀ request, (s.outputs id).request? = some request → request < s.requests →
      SameSession s (s.outputStep id status nowMs)
  | .worker a =>
    match s.worker with
    | .expired => s.followUpRequest < s.requests → (s.workerStep a).1.state = s.state
    | _ => True
  | _ => True

/-! ## The outputs -/

theorem outputStep_of_not_acts {id : Nat} (h : ¬ s.Acts id) (status : VoiceOutputStatus) (nowMs : Int) :
    ∃ place : Output, place.request? = none ∧
      s.outputStep id status nowMs = { s with outputs := update s.outputs id place } := by
  unfold Acts at h
  unfold outputStep
  cases ho : s.outputs id with
  | none | done => exact ⟨s.outputs id, by rw [ho]; rfl, by rw [update_eq_self]⟩
  | outstanding g request =>
    rw [ho] at h
    refine ⟨.done, rfl, ?_⟩
    dsimp only [Output.acts] at h ⊢
    rw [if_pos]
    simp only [Bool.or_eq_true, decide_eq_true_eq]
    omega
  | settingDeadline g request =>
    rw [ho] at h
    refine ⟨.done, rfl, ?_⟩
    dsimp only [Output.acts] at h ⊢
    rw [if_neg (fun hg => h hg.1)]
  | returned request state =>
    rw [ho] at h
    refine ⟨.done, rfl, ?_⟩
    dsimp only [Output.acts] at h ⊢
    unfold returnHandled
    cases he : returnEvent state with
    | none => rfl
    | some event =>
      rw [he] at h
      exact absurd rfl h
  | _ =>
    rw [ho] at h
    exact absurd trivial h

theorem outputStep_place (id : Nat) (status : VoiceOutputStatus) (nowMs : Int) (s : VoiceInteractionService) :
    ∃ place : Output, (s.outputStep id status nowMs).outputs = update s.outputs id place ∧
      (∀ request, place.request? = some request → (s.outputs id).request? = some request) ∧
      (∀ g, place.generation? = some g → (s.outputs id).generation? = some g) ∧
      ((s.outputStep id status nowMs).activeOutputRequestId = 0 ∨
        (s.outputStep id status nowMs).activeOutputRequestId = s.activeOutputRequestId ∧
          (s.outputStep id status nowMs).activeOutputGeneration = s.activeOutputGeneration) := by
  unfold outputStep
  cases ho : s.outputs id with
  | none | done =>
    refine ⟨s.outputs id, by rw [update_eq_self], ?_, ?_, .inr ⟨rfl, rfl⟩⟩ <;>
      (rw [ho]; exact nofun)
  | outstanding g request =>
    dsimp only
    split
    · exact ⟨.done, rfl, nofun, nofun, .inr ⟨rfl, rfl⟩⟩
    · refine ⟨_, rfl, ?_, ?_, .inl rfl⟩
      · split
        · exact fun _ h => h
        · cases status <;> exact fun _ h => h
      · split
        · exact nofun
        · cases status <;> first | exact fun _ h => h | exact nofun
  | completed g request =>
    refine ⟨_, rfl, ?_, ?_, .inr ⟨rfl, rfl⟩⟩ <;> split <;> first | exact fun _ h => h | exact nofun
  | settingDeadline g request =>
    dsimp only
    split <;> exact ⟨.done, rfl, nofun, nofun, .inr ⟨rfl, rfl⟩⟩
  | cancelled request | recovering request | failing request =>
    refine ⟨_, rfl, ?_, ?_, .inr ⟨rfl, rfl⟩⟩ <;> split <;> first | exact fun _ h => h | exact nofun
  | returning request => exact ⟨_, rfl, fun _ h => h, nofun, .inr ⟨rfl, rfl⟩⟩
  | returned request state =>
    dsimp only
    rw [returnHandled_eq]
    exact ⟨.done, rfl, nofun, nofun, .inr ⟨rfl, rfl⟩⟩

/-! ## The generations -/

/-- No generation that somebody read is newer than the current one. -/
structure Dated (s : VoiceInteractionService) : Prop where
  read : ∀ g, s.worker.generation? = some g → g ≤ s.interruptGeneration
  sent : ∀ id g, (s.outputs id).generation? = some g → g ≤ s.interruptGeneration

variable {who : ConversationEvent → Bool}

theorem Dated.caller (h : s.Dated) (hs : s.CallerStep who s') : s'.Dated where
  read g hg := by
    rw [hs.worker] at hg
    exact Nat.le_trans (h.read g hg) hs.newer
  sent id g hg := by
    rw [hs.outputs] at hg
    exact Nat.le_trans (h.sent id g hg) hs.newer

theorem Dated.outputStep (id : Nat) (status : VoiceOutputStatus) (nowMs : Int) (h : s.Dated) :
    (s.outputStep id status nowMs).Dated := by
  have hleaves := (outputStep_leaves id status nowMs s).1
  obtain ⟨place, hout, _, hgen, _⟩ := outputStep_place id status nowMs s
  constructor
  · intro g hg
    rw [hleaves.worker] at hg
    rw [hleaves.generation]
    exact h.read g hg
  · rw [hout, hleaves.generation]
    exact Callers.forall_update (P := fun place : Output =>
      ∀ g, place.generation? = some g → g ≤ s.interruptGeneration) h.sent
      fun g hg => h.sent id g (hgen g hg)

theorem Dated.move (h : s.Dated) (hgen : s'.interruptGeneration = s.interruptGeneration)
    (hout : s'.outputs = s.outputs)
    (hread : ∀ g, s'.worker.generation? = some g → g ≤ s.interruptGeneration) : s'.Dated where
  read g hg := by
    rw [hgen]
    exact hread g hg
  sent := by
    rw [hgen, hout]
    exact h.sent

theorem Dated.worker (a : Answers) (h : s.Dated) : (s.workerStep a).1.Dated := by
  have hread := h.read
  unfold workerStep
  cases hw : s.worker with
  | idle =>
    have moved : ∀ text deadline,
        Dated { s with worker := .called s.interruptGeneration text } ∧
          Dated { s with
            worker := .expiring s.interruptGeneration, followUpDeadline := deadline } := fun _ _ =>
      ⟨h.move rfl rfl fun g hg => by cases hg; exact Nat.le_refl _,
        h.move rfl rfl fun g hg => by cases hg; exact Nat.le_refl _⟩
    dsimp only
    split
    · split
      · exact (moved _ none).1
      · exact h
    · split
      · exact h
      · split
        · exact h
        · exact (moved "" _).2
  | segmentReady g =>
    rw [hw] at hread
    dsimp only
    split
    · exact h.move rfl rfl hread
    · exact h.move rfl rfl nofun
  | abandoningAction g token | endingAction g result token execution timedOut =>
    rw [hw] at hread
    unfold endActionCall
    dsimp only
    split <;> exact h.move rfl rfl hread
  | submitting g id recovery =>
    rw [hw] at hread
    dsimp only
    split
    · refine ⟨nofun, ?_⟩
      exact Callers.forall_update (P := fun place : Output =>
        ∀ g, place.generation? = some g → g ≤ s.interruptGeneration) h.sent hread
    · exact h.move rfl rfl hread
  | unregistering g id recovery =>
    rw [hw] at hread
    dsimp only [goTo]
    cases recovery <;> split <;> first | exact h.move rfl rfl hread | exact h.move rfl rfl nofun
  | returned snapshot =>
    dsimp only
    rw [returnHandled_eq]
    exact h.move rfl rfl nofun
  | _ =>
    rw [hw] at hread
    refine h.move rfl rfl fun g' hg => ?_
    dsimp only [goTo, VoiceInteractionService.handleThen, beginActionCall, route] at hg
    grind [Worker.generation?]

/-! ## The outputs of older requests -/

/-- The current request has submitted nothing as long as the worker is at it, and the outputs of the
    older ones do not act any more. -/
structure Retired (s : VoiceInteractionService) : Prop where
  begun : ∀ id request, (s.outputs id).request? = some request → request ≤ s.requests
  unsent : s.worker.free = false → ∀ id, (s.outputs id).request? ≠ some s.requests
  old : ∀ id request, (s.outputs id).request? = some request → request < s.requests → ¬ s.Acts id

theorem Acts.of_later {id : Nat} (hsent : ∀ g, (s.outputs id).generation? = some g → g ≤ s.interruptGeneration)
    (hout : s'.outputs id = s.outputs id) (hgen : s.interruptGeneration ≤ s'.interruptGeneration)
    (hregistration : s'.activeOutputRequestId = 0 ∨
      s'.activeOutputRequestId = s.activeOutputRequestId ∧
        s'.activeOutputGeneration = s.activeOutputGeneration) (h : s'.Acts id) : s.Acts id := by
  unfold Acts at h ⊢
  rw [hout] at h
  cases ho : s.outputs id with
  | outstanding g request | settingDeadline g request =>
    rw [ho] at h hsent
    have hg : g ≤ s.interruptGeneration := hsent g rfl
    dsimp only [Output.acts] at h ⊢
    omega
  | _ =>
    rw [ho] at h
    exact h

theorem Retired.caller (hd : s.Dated) (h : s.Retired) (hs : s.CallerStep who s') : s'.Retired where
  begun := by
    rw [hs.outputs, hs.requests]
    exact h.begun
  unsent := by
    rw [hs.outputs, hs.requests, hs.worker]
    exact h.unsent
  old id request hr hlt ha := by
    rw [hs.outputs] at hr
    rw [hs.requests] at hlt
    exact h.old id request hr hlt
      (ha.of_later (hd.sent id) (congrFun hs.outputs id) hs.newer hs.registration)

theorem Retired.outputStep (id : Nat) (status : VoiceOutputStatus) (nowMs : Int) (hd : s.Dated)
    (h : s.Retired) : (s.outputStep id status nowMs).Retired := by
  have hleaves := (outputStep_leaves id status nowMs s).1
  obtain ⟨place, hout, hreq, _, hregistration⟩ := outputStep_place id status nowMs s
  constructor
  · rw [hout, hleaves.requests]
    exact Callers.forall_update (P := fun place : Output =>
      ∀ request, place.request? = some request → request ≤ s.requests) h.begun
      fun request hr => h.begun id request (hreq request hr)
  · rw [hout, hleaves.requests, hleaves.worker]
    intro hfree
    exact Callers.forall_update (P := fun place : Output => place.request? ≠ some s.requests)
      (h.unsent hfree) fun hr => h.unsent hfree id (hreq _ hr)
  · intro other request hr hlt ha
    rw [hleaves.requests] at hlt
    by_cases he : other = id
    · -- an old output only ends
      subst he
      have hold : (s.outputs other).request? = some request := by
        rw [hout, update_self] at hr
        exact hreq request hr
      obtain ⟨place, hnone, hs⟩ := outputStep_of_not_acts (h.old other request hold hlt) status nowMs
      rw [hs] at hr
      dsimp only at hr
      rw [update_self, hnone] at hr
      cases hr
    · have hsame : (s.outputStep id status nowMs).outputs other = s.outputs other := by
        rw [hout, update_of_ne he]
      rw [hsame] at hr
      exact h.old other request hr hlt (ha.of_later (hd.sent other) hsame
        (Nat.le_of_eq hleaves.generation.symm) hregistration)

theorem Retired.move (hd : s.Dated) (h : s.Retired)
    (hgen : s'.interruptGeneration = s.interruptGeneration) (hout : s'.outputs = s.outputs)
    (hrequests : s'.requests = s.requests)
    (hregistration : s'.activeOutputRequestId = 0 ∨
      s'.activeOutputRequestId = s.activeOutputRequestId ∧
        s'.activeOutputGeneration = s.activeOutputGeneration)
    (hfree : s.worker.free = true → s'.worker.free = true) : s'.Retired where
  begun := by
    rw [hout, hrequests]
    exact h.begun
  unsent hbusy := by
    rw [hout, hrequests]
    apply h.unsent
    by_contra hf
    rw [hfree (eq_true_of_ne_false hf)] at hbusy
    cases hbusy
  old id request hr hlt ha := by
    rw [hout] at hr
    rw [hrequests] at hlt
    exact h.old id request hr hlt (ha.of_later (hd.sent id) (congrFun hout id)
      (Nat.le_of_eq hgen.symm) hregistration)

theorem Retired.worker (a : Answers) (hn : s.Numbered) (hd : s.Dated) (h : s.Retired)
    (hno : ¬ s.Meets (.worker a)) : (s.workerStep a).1.Retired := by
  unfold Meets at hno
  unfold workerStep
  cases hw : s.worker with
  | idle =>
    have moved : ∀ g text deadline,
        Retired { s with worker := .called g text } ∧
          Retired { s with worker := .expiring g, followUpDeadline := deadline } := fun _ _ _ =>
      ⟨h.move hd rfl rfl rfl (.inr ⟨rfl, rfl⟩) fun _ => rfl,
        h.move hd rfl rfl rfl (.inr ⟨rfl, rfl⟩) fun _ => rfl⟩
    dsimp only
    split
    · split
      · exact (moved _ _ none).1
      · exact h
    · split
      · exact h
      · split
        · exact h
        · exact (moved _ "" _).2
  | segmentReady g =>
    rw [hw] at hno
    dsimp only at hno ⊢
    split
    · next ha =>
      constructor
      · exact fun id request hr => Nat.le_succ_of_le (h.begun id request hr)
      · exact fun _ id hr => absurd (h.begun id _ hr) (Nat.not_succ_le_self _)
      · intro id request _ _ hacts
        exact hno ⟨ha, id, hacts.of_later (hd.sent id) rfl (Nat.le_refl _) (.inr ⟨rfl, rfl⟩)⟩
    · exact h.move hd rfl rfl rfl (.inr ⟨rfl, rfl⟩) fun _ => rfl
  | abandoningAction g token | endingAction g result token execution timedOut =>
    unfold endActionCall
    dsimp only
    split <;> exact h.move hd rfl rfl rfl (.inr ⟨rfl, rfl⟩) (by rw [hw]; exact nofun)
  | registering g id recovery =>
    have hnone := (hn.fresh id (by rw [hw]; rfl)).2.2
    refine ⟨h.begun, fun _ => h.unsent (by rw [hw]; rfl), fun other request hr hlt ha => ?_⟩
    refine h.old other request hr hlt ?_
    -- the registration is for an output that was not submitted yet
    unfold Acts at ha ⊢
    dsimp only [goTo] at ha hr
    cases ho : s.outputs other with
    | outstanding g' request' =>
      rw [ho] at ha
      have hid : other = id := ha.2.1
      rw [hid, hnone] at hr
      cases hr
    | _ =>
      rw [ho] at ha
      exact ha
  | submitting g id recovery =>
    dsimp only
    split
    · refine ⟨?_, nofun, fun other request hr hlt ha => ?_⟩
      · exact Callers.forall_update (P := fun place : Output =>
          ∀ request, place.request? = some request → request ≤ s.requests) h.begun
          fun request hr => by cases hr; exact Nat.le_refl _
      · dsimp only at hr hlt
        by_cases he : other = id
        · subst he
          rw [update_self] at hr
          cases hr
          exact absurd hlt (Nat.lt_irrefl _)
        · rw [update_of_ne he] at hr
          exact h.old other request hr hlt (ha.of_later (hd.sent other) (update_of_ne he _ _)
            (by exact Nat.le_refl _) (by exact .inr ⟨rfl, rfl⟩))
    · exact h.move hd rfl rfl rfl (.inr ⟨rfl, rfl⟩) (by rw [hw]; exact nofun)
  | unregistering g id recovery =>
    dsimp only [goTo]
    split
    · exact h.move hd rfl rfl rfl (.inl rfl) (by rw [hw]; exact nofun)
    · exact h.move hd rfl rfl rfl (.inr ⟨rfl, rfl⟩) (by rw [hw]; exact nofun)
  | returned snapshot =>
    dsimp only
    rw [returnHandled_eq]
    exact h.move hd rfl rfl rfl (.inr ⟨rfl, rfl⟩) (by rw [hw]; exact nofun)
  | _ =>
    refine h.move hd rfl rfl rfl (.inr ⟨rfl, rfl⟩) ?_
    rw [hw]
    dsimp only [goTo, VoiceInteractionService.handleThen, beginActionCall, route]
    grind [Worker.free]

/-! ## The follow-up window -/

/-- While a response is played no deadline is set, and so the one that is set in `kFollowUp`, or that
    the worker took there, is that of the current request. -/
structure Windowed (s : VoiceInteractionService) : Prop where
  silent : s.state = speaking →
    s.worker.isRegistering = true ∨ s.followUpDeadline = none ∧ s.worker.expires = false
  window : s.state = followUp → s.followUpDeadline ≠ none ∨ s.worker.expires = true →
    s.followUpRequest = s.requests

theorem Windowed.move (h : s.Windowed) (hspeaking : s'.state = speaking → s'.state = s.state)
    (hfollowUp : s'.state = followUp → s'.state = s.state)
    (hdeadline : s'.followUpDeadline = none ∨ s'.followUpDeadline = s.followUpDeadline)
    (hrequests : s'.requests = s.requests) (howner : s'.followUpRequest = s.followUpRequest)
    (hregistering : s.worker.isRegistering = true →
      s'.worker.isRegistering = true ∨ s'.followUpDeadline = none ∧ s'.worker.expires = false)
    (hexpires : s'.worker.expires = true → s.worker.expires = true ∨ s.followUpDeadline ≠ none) : s'.Windowed where
  silent hs := by
    rcases h.silent (hspeaking hs ▸ hs) with h | ⟨hnone, hidle⟩
    · exact hregistering h
    · refine .inr ⟨?_, ?_⟩
      · rcases hdeadline with hd | hd <;> rw [hd]
        exact hnone
      · by_contra he
        rcases hexpires (eq_true_of_ne_false he) with he | he
        · rw [hidle] at he
          cases he
        · exact he hnone
  window hs hw := by
    rw [hrequests, howner]
    refine h.window (hfollowUp hs ▸ hs) ?_
    rcases hw with hd | he
    · refine .inl fun hnone => hd ?_
      rcases hdeadline with hd | hd <;> rw [hd]
      exact hnone
    · exact (hexpires he).symm

theorem Windowed.goes (h : s.Windowed) (hspeaking : s'.state = speaking → s'.state = s.state)
    (hfollowUp : s'.state = followUp → s'.state = s.state)
    (hdeadline : s'.followUpDeadline = none ∨ s'.followUpDeadline = s.followUpDeadline)
    (hrequests : s'.requests = s.requests) (howner : s'.followUpRequest = s.followUpRequest)
    (hbefore : s.worker.isRegistering = false) (hafter : s'.worker.expires = false) : s'.Windowed := by
  refine h.move hspeaking hfollowUp hdeadline hrequests howner (fun hr => ?_) fun he => ?_
  · cases hbefore.symm.trans hr
  · cases hafter.symm.trans he

theorem Windowed.caller (h : s.Windowed) (hs : s.CallerStep who s') (hresponse : who .responseReady = false)
    (hplayback : who .playbackCompleted = false) : s'.Windowed := by
  refine h.move (hs.handles.eq_of_speaking hresponse) (hs.handles.eq_of_followUp hplayback) hs.deadline hs.requests
    hs.followUpRequest ?_ ?_
  all_goals
    rw [hs.worker]
    exact .inl

theorem Windowed.outputStep (id : Nat) (status : VoiceOutputStatus) (nowMs : Int) (hr : s.Retired)
    (h : s.Windowed) : (s.outputStep id status nowMs).Windowed := by
  unfold VoiceInteractionService.outputStep
  cases ho : s.outputs id with
  | none | done => exact h
  | outstanding g request =>
    dsimp only
    split <;> exact h.move (fun _ => rfl) (fun _ => rfl) (.inr rfl) rfl rfl .inl .inl
  | completed g request =>
    -- the window of the request whose response was played
    have hcur : (s.outputs id).request? = some s.requests := by
      have hreq : (s.outputs id).request? = some request := by
        rw [ho]
        rfl
      have hle := hr.begun id request hreq
      rcases Nat.lt_or_eq_of_le hle with hlt | heq
      · exact absurd (show s.Acts id by unfold Acts; rw [ho]; trivial) (hr.old id request hreq hlt)
      · rw [hreq, heq]
    constructor
    · exact fun hs => absurd hs (handle_playbackCompleted_ne_speaking s.state)
    · intro hs hw
      by_cases hsame : s.state = followUp
      · exact h.window hsame hw
      · have hspeaking : s.state = speaking := by
          have hs : (s.state.handle .playbackCompleted).getD s.state = followUp := hs
          rw [handle_eq, nextState] at hs
          by_contra hne
          rw [if_neg hne] at hs
          exact hsame hs
        rcases h.silent hspeaking with hreg | ⟨hnone, hidle⟩
        · exfalso
          refine hr.unsent ?_ id hcur
          cases hworker : s.worker <;> rw [hworker] at hreg <;> first | rfl | cases hreg
        · rcases hw with hd | he
          · exact absurd hnone hd
          · exact absurd (hidle.symm.trans he) Bool.false_ne_true
  | settingDeadline g request =>
    dsimp only
    split
    · next hset =>
      have hreq : (s.outputs id).request? = some request := by
        rw [ho]
        rfl
      have hacts : s.Acts id := by
        unfold Acts
        rw [ho]
        exact hset.1
      have hle := hr.begun id request hreq
      have hlt : ¬ request < s.requests := fun hlt => hr.old id request hreq hlt hacts
      constructor
      · exact fun hs => absurd (hset.2.symm.trans hs) (by decide)
      · exact fun _ _ => Nat.le_antisymm hle (Nat.not_lt.mp hlt)
    · exact h.move (fun _ => rfl) (fun _ => rfl) (.inr rfl) rfl rfl .inl .inl
  | cancelled request =>
    exact h.move (handle_eq_of_speaking (by decide)) (handle_eq_of_followUp (by decide)) (.inr rfl) rfl rfl .inl .inl
  | recovering request => exact h.move (fun _ => rfl) (fun _ => rfl) (.inr rfl) rfl rfl .inl .inl
  | failing request =>
    exact h.move (handle_eq_of_speaking (by decide)) (handle_eq_of_followUp (by decide)) (.inr rfl) rfl rfl .inl .inl
  | returning request => exact h.move (fun _ => rfl) (fun _ => rfl) (.inr rfl) rfl rfl .inl .inl
  | returned request snapshot =>
    dsimp only
    rw [returnHandled_eq]
    exact h.move (fun hs => eq_of_afterReturn hs (by decide)) (fun hs => eq_of_afterReturn hs (by decide))
      (.inr rfl) rfl rfl .inl .inl

theorem Windowed.worker (a : Answers) (h : s.Windowed) : (s.workerStep a).1.Windowed := by
  unfold workerStep
  cases hw : s.worker with
  | idle =>
    have hregistering : s.worker.isRegistering = false := by
      rw [hw]
      rfl
    dsimp only
    split
    · split
      · exact h.goes (fun _ => rfl) (fun _ => rfl) (.inr rfl) rfl rfl hregistering rfl
      · exact h
    · split
      · exact h
      · next deadline hdeadline =>
        split
        · exact h
        · refine h.move (fun _ => rfl) (fun _ => rfl) (.inl rfl) rfl rfl
            (fun hr => .inl (hregistering.symm.trans hr)) fun _ => .inr ?_
          rw [hdeadline]
          exact Option.some_ne_none deadline
  | expiring g =>
    refine h.move (fun _ => rfl) (fun _ => rfl) (.inr rfl) rfl rfl (fun hr => ?_) ?_
    · rw [hw] at hr
      cases hr
    · rw [hw]
      exact fun _ => .inl rfl
  | resetting g =>
    exact h.goes (fun _ => rfl) (fun _ => rfl) (.inl rfl) rfl rfl (by rw [hw]; rfl) rfl
  | segmentReady g =>
    dsimp only
    split
    · next ha =>
      have hstate := handled_speechSegmentReady ha
      exact ⟨fun hs => absurd (hstate.symm.trans hs) (by decide),
        fun hs => absurd (hstate.symm.trans hs) (by decide)⟩
    · exact h.goes (fun _ => rfl) (fun _ => rfl) (.inr rfl) rfl rfl (by rw [hw]; rfl) rfl
  | responding g id text =>
    dsimp only [VoiceInteractionService.handleThen, goTo]
    cases ha : s.accepts .responseReady with
    | true =>
      refine ⟨fun _ => .inl rfl, fun hs hwin => ?_⟩
      have hs : (s.state.handle .responseReady).getD s.state = followUp := hs
      have hsame := handle_eq_of_followUp (by decide) hs
      exact h.window (hsame ▸ hs) (hwin.imp_right fun he => absurd he Bool.false_ne_true)
    | false =>
      exact h.goes (fun _ => handled_state_of_not_accepts ha) (fun _ => handled_state_of_not_accepts ha)
        (.inr rfl) rfl rfl (by rw [hw]; rfl) rfl
  | registering g id recovery =>
    exact h.move (fun _ => rfl) (fun _ => rfl) (.inl rfl) rfl rfl (fun _ => .inr ⟨rfl, rfl⟩)
      fun he => absurd he Bool.false_ne_true
  | abandoningAction g token | endingAction g result token execution timedOut =>
    unfold endActionCall
    dsimp only
    split <;>
      exact h.goes (fun _ => rfl) (fun _ => rfl) (.inr rfl) rfl rfl (by rw [hw]; rfl) rfl
  | submitting g id recovery =>
    dsimp only
    split <;>
      exact h.goes (fun _ => rfl) (fun _ => rfl) (.inr rfl) rfl rfl (by rw [hw]; rfl) rfl
  | unregistering g id recovery =>
    dsimp only [goTo]
    cases recovery <;> split <;>
      exact h.goes (fun _ => rfl) (fun _ => rfl) (.inr rfl) rfl rfl (by rw [hw]; rfl) rfl
  | returned snapshot =>
    dsimp only
    rw [returnHandled_eq]
    exact h.goes (fun hs => eq_of_afterReturn hs (by decide)) (fun hs => eq_of_afterReturn hs (by decide))
      (.inr rfl) rfl rfl (by rw [hw]; rfl) rfl
  | _ =>
    refine h.goes ?_ ?_ (.inr rfl) rfl rfl (by rw [hw]; rfl) ?_
    · first | exact fun _ => rfl | exact handle_eq_of_speaking (by decide)
    · first | exact fun _ => rfl | exact handle_eq_of_followUp (by decide)
    · dsimp only [goTo, VoiceInteractionService.handleThen, beginActionCall, route]
      grind [Worker.expires]

/-! ## Whole runs -/

/-- What every run keeps. -/
structure Isolation (s : VoiceInteractionService) : Prop where
  numbered : s.Numbered
  dated : s.Dated
  retired : s.Retired
  windowed : s.Windowed

theorem isolation_start (config : VoiceConfig) : (start config).Isolation where
  numbered := numbered_start config
  dated := ⟨nofun, nofun⟩
  retired := ⟨nofun, nofun, nofun⟩
  windowed := by
    unfold start
    constructor <;> intro hs <;> dsimp only at hs <;> split at hs <;> cases hs

theorem Isolation.caller (h : s.Isolation) (hs : s.CallerStep who s') (hresponse : who .responseReady = false)
    (hplayback : who .playbackCompleted = false) : s'.Isolation where
  numbered := h.numbered.caller hs
  dated := h.dated.caller hs
  retired := h.retired.caller h.dated hs
  windowed := h.windowed.caller hs hresponse hplayback

/-- Kept by every step in which no new request meets an old callback. -/
theorem Isolation.step (event : Event) (h : s.Isolation) (hno : ¬ s.Meets event) : (s.step event).1.Isolation := by
  have hn := h.numbered.step event
  cases event with
  | worker a =>
    exact ⟨hn, h.dated.worker a, h.retired.worker a h.numbered h.dated hno, h.windowed.worker a⟩
  | actionWatchdog => exact h.caller (actionWatchdog_aside s).1.toCallerStep rfl rfl
  | interrupt i => exact h.caller (interruptStep_caller i s).1 rfl rfl
  | wakeWordDetected | wakePromptCompleted => exact h.caller (handled_aside _ s).1.toCallerStep rfl rfl
  | wakePromptFailed i => exact h.caller (promptFailedStep_aside i s).toCallerStep rfl rfl
  | output id status nowMs =>
    exact ⟨hn, h.dated.outputStep id status nowMs, h.retired.outputStep id status nowMs h.dated,
      h.windowed.outputStep id status nowMs h.retired⟩

theorem Isolation.isolated (event : Event) (h : s.Isolation) : s.Isolated event := by
  unfold Isolated
  cases event with
  | worker a =>
    dsimp only
    split
    · next hw =>
      intro hlt
      have hstate : (s.workerStep a).1.state = (s.handled .followUpExpired).state := by
        unfold workerStep
        rw [hw]
        rfl
      by_cases hs : s.state = followUp
      · have howner := h.windowed.window hs (.inr (by rw [hw]; rfl))
        exact absurd hlt (by omega)
      · refine hstate.trans (handled_state_of_not_accepts ?_)
        rw [accepts, handle_eq, nextState, if_neg hs]
        rfl
    · trivial
  | output id status nowMs =>
    intro request hr hlt
    obtain ⟨place, _, hs⟩ := outputStep_of_not_acts (h.retired.old id request hr hlt) status nowMs
    rw [hs]
    exact ⟨rfl, rfl, rfl, rfl, rfl⟩
  | _ => trivial

/-- **The sessions are isolated.**  If no request begins while the callback of an older one's output can
    still act, then no output of an older request changes the state, the follow-up deadline or the
    registration, and the end of an older follow-up window does not change the state. -/
theorem sessions_isolated (config : VoiceConfig) (events : List Event)
    (hno : StepRun.Along step (fun s event => ¬ s.Meets event) (start config) events) :
    StepRun.Along step Isolated (start config) events :=
  StepRun.Along.of_invariant (fun _ event h hs => h.step event hs) (fun _ event h _ => h.isolated event)
    (isolation_start config) hno

theorem sessions_isolated_interrupted :
    StepRun.Along step Isolated (start {})
      (.worker { transcript := some "hello" } :: .worker {} :: .worker {} :: .worker {} ::
        .worker { assistant := .result { responseText := "hi" } } ::
        .worker {} :: .worker {} :: .worker {} :: .worker {} :: .worker {} :: .worker {} :: .worker {} ::
        .interrupt 0 :: .interrupt 0 :: .interrupt 0 :: .interrupt 0 :: .interrupt 0 :: .interrupt 0 ::
        .interrupt 0 :: .interrupt 0 :: .interrupt 0 :: .interrupt 0 ::
        .worker { transcript := some "next" } :: .worker {} :: .worker {} :: .worker {} ::
        [.output 1 .completed 0]) :=
  sessions_isolated {} _
    ⟨id, id, id, fun ⟨_, _, h⟩ => h, id, id, id, id, id, id, id, id,
      id, id, id, id, id, id, id, id, id, id, id, id, id,
      (by rintro ⟨_, _ | _ | id, h⟩; exacts [h, Nat.succ_ne_zero 0 h.2.1, h]), id, trivial⟩

theorem failed_by_older_request :
    ¬ ∀ config events, StepRun.Along step Isolated (start config) events := by
  intro h
  have hlaw := h {}
    (.worker { transcript := some "hello" } :: List.replicate 3 (.worker {}) ++
      .worker { assistant := .result { responseText := "hi" } } :: List.replicate 7 (.worker {}) ++
      List.replicate 2 (.output 1 .failed 0) ++ List.replicate 10 (.interrupt 0) ++
      .worker { transcript := some "next" } :: List.replicate 3 (.worker {}) ++ [.output 1 .failed 0])
  have hlast := ((StepRun.along_append _ _ _).mp hlaw).2.1
  exact absurd (hlast 1 rfl (by decide)).state (by decide)

end VoiceInteractionService

end Cockpit.Voice
