/-
  The guard of the navigation provider. What keeps it from sending a goal while another is open is spread over
  three fields: `pendingAck`, `pendingCancel` and the active states of `status`.
-/
import Cockpit.Bridge.Nav2Provider

namespace Cockpit.Bridge

open Bool

/-! ## Open goals -/

/-- From the acceptance by the action server to the result. -/
def Goal.Live (goal : Goal) : Prop := goal.server = .accepted

/-- The goal's result or its rejection has arrived. -/
def Goal.Settled (goal : Goal) : Prop :=
  goal.client = .resulted ∨ (goal.server = .rejected ∧ goal.client ≠ .waiting)

instance (goal : Goal) : Decidable goal.Live := inferInstanceAs (Decidable (_ = _))

instance (goal : Goal) : Decidable goal.Settled := inferInstanceAs (Decidable (_ ∨ _))

/-! ## The invariant -/

/-- The goals carry their numbers as generations, and only a finished goal has a result. -/
structure Numbered (goals : List Goal) : Prop where
  generation : ∀ (i : Nat) (g : Goal), goals[i]? = some g → g.generation = UInt64.ofNat (i + 1)
  finished : ∀ (i : Nat) (g : Goal), goals[i]? = some g → g.client = .resulted → ∃ code, g.server = .finished code

/-- The goal whose acknowledgement is pending is the current one. -/
structure AwaitsAck (p : Ros2Nav2Provider) : Prop where
  generation : p.pendingGeneration = p.generation
  state : p.status.state = .disconnected ∨ p.status.state.isActive = true
  goal : ∀ (i : Nat) (g : Goal), p.client.goals[i]? = some g → i + 1 = p.client.goals.length →
    g.client = .waiting ∨ g.client = .answered

/-- A goal that is not settled is the newest, and it is guarded. -/
structure Guarding (p : Ros2Nav2Provider) : Prop where
  generation : p.generation = UInt64.ofNat p.client.goals.length
  newest : ∀ (i : Nat) (g : Goal), p.client.goals[i]? = some g → ¬ g.Settled → i + 1 = p.client.goals.length
  guard : ∀ (i : Nat) (g : Goal), p.client.goals[i]? = some g → ¬ g.Settled → p.refusesGoals = true
  ack : p.pendingAck = true → AwaitsAck p
  future : ∀ i, p.pendingAckFuture = some i → p.pendingAck = true ∧ i + 1 = p.client.goals.length
  idle : p.status.state = .idle → p.pendingAck = false ∧ p.pendingCancel = false

/-- A generation is reserved for a goal that is not sent yet; all the others are settled. -/
structure Reserved (p : Ros2Nav2Provider) (generation : UInt64) (ack : Bool) : Prop where
  settled : ∀ (i : Nat) (g : Goal), p.client.goals[i]? = some g → g.Settled
  active : p.status.state.isActive = true
  current : p.generation = generation
  next : generation = UInt64.ofNat (p.client.goals.length + 1)
  pendingAck : p.pendingAck = ack
  pendingGeneration : ack = true → p.pendingGeneration = generation
  cancel : p.pendingCancel = false
  future : p.pendingAckFuture = none

/-- The goal at `i` is the one whose response the executor is handling. -/
def Running (goals : List Goal) (i : Nat) : Prop :=
  (∃ g, goals[i]? = some g ∧ g.client = .answered) ∧
    (i + 1 = goals.length ∨
      i + 2 = goals.length ∧ ∀ g, goals[i + 1]? = some g → g.client = .waiting)

/-! ## Goals -/

theorem Numbered.not_live {goals : List Goal} (hn : Numbered goals) {i : Nat} {g : Goal}
    (hg : goals[i]? = some g) (hsettled : g.Settled) : ¬ g.Live := by
  intro hlive
  rcases hsettled with hresulted | ⟨hrejected, -⟩
  · obtain ⟨code, hfinished⟩ := hn.finished i g hg hresulted
    exact nomatch hfinished.symm.trans hlive
  · exact nomatch hrejected.symm.trans hlive

theorem Numbered.update {client : ActionClient} (hn : Numbered client.goals) {i : Nat}
    {f : Goal → Goal} (hgen : ∀ g, (f g).generation = g.generation)
    (hfinished : ∀ g, client.goals[i]? = some g →
      (g.client = .resulted → ∃ code, g.server = .finished code) →
      (f g).client = .resulted → ∃ code, (f g).server = .finished code) : Numbered (client.updateGoal i f).goals where
  generation := by
    intro j g hg
    obtain ⟨g₀, hg₀, rfl⟩ := ActionClient.getElem?_updateGoal hg
    have hnum : g₀.generation = UInt64.ofNat (j + 1) := hn.generation j g₀ hg₀
    split
    · rw [hgen, hnum]
    · exact hnum
  finished := by
    intro j g hg
    obtain ⟨g₀, hg₀, rfl⟩ := ActionClient.getElem?_updateGoal hg
    split
    case isTrue hij =>
      subst hij
      exact hfinished g₀ hg₀ (hn.finished i g₀ hg₀)
    case isFalse => exact hn.finished j g₀ hg₀

theorem Running.update {client : ActionClient} {r : Nat} (hr : Running client.goals r) {i : Nat}
    {f : Goal → Goal} (hclient : ∀ g, (f g).client = g.client) : Running (client.updateGoal i f).goals r := by
  obtain ⟨⟨g, hg, hanswered⟩, hplace⟩ := hr
  refine ⟨?_, ?_⟩
  · refine ⟨if i = r then f g else g, ?_, ?_⟩
    · rw [ActionClient.updateGoal, List.getElem?_modify, hg]
      rfl
    · split
      · rw [hclient, hanswered]
      · exact hanswered
  · rw [ActionClient.length_updateGoal]
    rcases hplace with hlast | ⟨hlen, hwaiting⟩
    · exact .inl hlast
    · refine .inr ⟨hlen, fun h hh => ?_⟩
      obtain ⟨h₀, hh₀, rfl⟩ := ActionClient.getElem?_updateGoal hh
      split
      · rw [hclient, hwaiting h₀ hh₀]
      · exact hwaiting h₀ hh₀

theorem ofNat_succ_ne (n : Nat) : UInt64.ofNat (n + 1) ≠ UInt64.ofNat n := by
  intro h
  have hmod : (n + 1) % 2 ^ 64 = n % 2 ^ 64 := by
    have := congrArg UInt64.toNat h
    simpa using this
  omega

theorem isActive_ne_idle {state : NavigationState} (h : state.isActive = true) : state ≠ .idle := by
  rintro rfl
  exact absurd h (by decide)

/-! ## The guard -/

namespace Guarding

variable {p : Ros2Nav2Provider}

theorem settled (h : Guarding p) (hrefuses : p.refusesGoals = false) {i : Nat} {g : Goal}
    (hg : p.client.goals[i]? = some g) : g.Settled :=
  Decidable.not_not.1 fun hopen => nomatch hrefuses.symm.trans (h.guard i g hg hopen)

theorem settled_of_newest (h : Guarding p) {i : Nat} {g : Goal} (hg : p.client.goals[i]? = some g)
    (hi : i + 1 = p.client.goals.length) (hsettled : g.Settled) {j : Nat} {g' : Goal}
    (hg' : p.client.goals[j]? = some g') : g'.Settled := by
  refine Decidable.not_not.1 fun hopen => ?_
  have hj : j + 1 = p.client.goals.length := h.newest j g' hg' hopen
  obtain rfl : i = j := by omega
  obtain rfl : g = g' := Option.some.inj (hg.symm.trans hg')
  exact hopen hsettled

theorem of_settled (hgen : p.generation = UInt64.ofNat p.client.goals.length)
    (hsettled : ∀ (i : Nat) (g : Goal), p.client.goals[i]? = some g → g.Settled)
    (hack : p.pendingAck = false) (hfuture : p.pendingAckFuture = none)
    (hidle : p.status.state = .idle → p.pendingCancel = false) : Guarding p where
  generation := hgen
  newest := fun i g hg hopen => absurd (hsettled i g hg) hopen
  guard := fun i g hg hopen => absurd (hsettled i g hg) hopen
  ack := fun hpending => nomatch hack.symm.trans hpending
  future := fun _ hi => nomatch hfuture.symm.trans hi
  idle := fun hstate => ⟨hack, hidle hstate⟩

theorem update (h : Guarding p) {i : Nat} {f : Goal → Goal}
    (hsettled : ∀ g, p.client.goals[i]? = some g → g.Settled → (f g).Settled)
    (hack : p.pendingAck = true → i + 1 = p.client.goals.length → ∀ g, p.client.goals[i]? = some g →
      g.client = .waiting ∨ g.client = .answered →
        (f g).client = .waiting ∨ (f g).client = .answered) :
    Guarding { p with client := p.client.updateGoal i f } := by
  have hopen (j : Nat) (g : Goal) (hg : (p.client.updateGoal i f).goals[j]? = some g)
      (hgopen : ¬ g.Settled) : ∃ g₀, p.client.goals[j]? = some g₀ ∧ ¬ g₀.Settled := by
    obtain ⟨g₀, hg₀, rfl⟩ := ActionClient.getElem?_updateGoal hg
    refine ⟨g₀, hg₀, fun hg₀settled => hgopen ?_⟩
    split
    case isTrue hij =>
      subst hij
      exact hsettled g₀ hg₀ hg₀settled
    case isFalse => exact hg₀settled
  have hlen : (p.client.updateGoal i f).goals.length = p.client.goals.length :=
    ActionClient.length_updateGoal ..
  constructor
  · show p.generation = UInt64.ofNat (p.client.updateGoal i f).goals.length
    rw [hlen]
    exact h.generation
  · intro j g hg hgopen
    obtain ⟨g₀, hg₀, hg₀open⟩ := hopen j g hg hgopen
    exact (h.newest j g₀ hg₀ hg₀open).trans hlen.symm
  · intro j g hg hgopen
    obtain ⟨g₀, hg₀, hg₀open⟩ := hopen j g hg hgopen
    exact h.guard j g₀ hg₀ hg₀open
  · intro hpending
    have hawaits : AwaitsAck p := h.ack hpending
    refine ⟨hawaits.generation, hawaits.state, fun j g hg hj => ?_⟩
    have hj : j + 1 = p.client.goals.length := hj.trans hlen
    obtain ⟨g₀, hg₀, rfl⟩ := ActionClient.getElem?_updateGoal hg
    have hphase : g₀.client = .waiting ∨ g₀.client = .answered := hawaits.goal j g₀ hg₀ hj
    split
    case isTrue hij =>
      subst hij
      exact hack hpending hj g₀ hg₀ hphase
    case isFalse => exact hphase
  · intro j hj
    exact ⟨(h.future j hj).1, (h.future j hj).2.trans hlen.symm⟩
  · exact h.idle

theorem of_acknowledged (h : Guarding p) {p' : Ros2Nav2Provider}
    (hgoals : p'.client.goals = p.client.goals) (hgen : p'.generation = p.generation)
    (hack : p'.pendingAck = false) (hfuture : p'.pendingAckFuture = none)
    (hguard : p.refusesGoals = true → p'.refusesGoals = true)
    (hidle : p'.status.state = .idle → p'.pendingCancel = false) : Guarding p' where
  generation := by rw [hgen, hgoals, h.generation]
  newest := by
    rw [hgoals]
    exact h.newest
  guard := by
    rw [hgoals]
    exact fun i g hg hopen => hguard (h.guard i g hg hopen)
  ack := fun hpending => nomatch hack.symm.trans hpending
  future := fun _ hi => nomatch hfuture.symm.trans hi
  idle := fun hstate => ⟨hack, hidle hstate⟩

variable {status : NavigationStatus}

theorem withStatus (h : Guarding p)
    (hactive : p.status.state.isActive = true → p.pendingAck = true ∨ p.pendingCancel = true ∨
      status.state.isActive = true)
    (hack : p.pendingAck = true → status.state = .disconnected ∨ status.state.isActive = true)
    (hidle : status.state = .idle → p.pendingAck = false ∧ p.pendingCancel = false) :
    Guarding { p with status := status } where
  generation := h.generation
  newest := h.newest
  guard := by
    intro i g hg hopen
    have hguard : p.refusesGoals = true := h.guard i g hg hopen
    show (p.pendingAck || p.pendingCancel || status.state.isActive) = true
    simp only [Ros2Nav2Provider.refusesGoals, or_eq_true] at hguard ⊢
    rcases hguard with (hpending | hcancel) | hstate
    · exact .inl (.inl hpending)
    · exact .inl (.inr hcancel)
    · rcases hactive hstate with hpending | hcancel | hstate
      · exact .inl (.inl hpending)
      · exact .inl (.inr hcancel)
      · exact .inr hstate
  ack := fun hpending => ⟨(h.ack hpending).generation, hack hpending, (h.ack hpending).goal⟩
  future := h.future
  idle := hidle

theorem withText (h : Guarding p) (hstate : status.state = p.status.state) : Guarding { p with status := status } := by
  refine h.withStatus (fun hactive => .inr (.inr ?_)) (fun hpending => ?_) fun hidle => ?_
  · rw [hstate, hactive]
  · rw [hstate]
    exact (h.ack hpending).state
  · exact h.idle (hstate.symm.trans hidle)

theorem withCancelFuture (h : Guarding p) {future : Option Nat} : Guarding { p with pendingCancelFuture := future } :=
  ⟨h.generation, h.newest, h.guard, fun hpending => ⟨(h.ack hpending).generation,
    (h.ack hpending).state, (h.ack hpending).goal⟩, h.future, h.idle⟩

theorem withCancels (h : Guarding p) (cancels : List CancelRequest) :
    Guarding { p with client := { p.client with cancels := cancels } } :=
  ⟨h.generation, h.newest, h.guard, fun hpending => ⟨(h.ack hpending).generation,
    (h.ack hpending).state, (h.ack hpending).goal⟩, h.future, h.idle⟩

end Guarding

/-! ## The blocks and callbacks -/

namespace Ros2Nav2Provider

variable (p : Ros2Nav2Provider)

theorem pendingAck_handleGoalResponseLocked (handle : Option GoalHandle) :
    (p.handleGoalResponseLocked p.generation handle).pendingAck = false := by
  unfold handleGoalResponseLocked
  rw [if_neg (fun hne => hne rfl)]
  split
  · rfl
  · split
    · rfl
    · split <;> rfl

theorem handleGoalResponseLocked_of_ne {p : Ros2Nav2Provider} {generation : UInt64}
    (hne : generation ≠ p.generation) (handle : Option GoalHandle) :
    p.handleGoalResponseLocked generation handle = p :=
  if_pos hne

end Ros2Nav2Provider

namespace Guarding

variable {p : Ros2Nav2Provider}

theorem cancelUncertainGoal (h : Guarding p) (handle : GoalHandle) :
    Guarding (p.acknowledged.cancelUncertainGoal handle) := by
  refine h.of_acknowledged rfl rfl rfl rfl (fun _ => ?_) nofun
  show (false || true || false) = true
  rfl

variable {i : Nat}

theorem rejected (h : Guarding p) (hfuture : p.client.goalFuture i = some none) (hi : i + 1 = p.client.goals.length)
    (error : String) : Guarding (p.acknowledged.rejected error) := by
  obtain ⟨g, hg, hphase, hrejected⟩ := ActionClient.goalFuture_eq_some hfuture
  have hsettled : g.Settled := .inr ⟨hrejected rfl, hphase⟩
  exact of_settled h.generation (fun j g' hg' => h.settled_of_newest hg hi hsettled hg') rfl rfl nofun

variable {handle : Option GoalHandle}

section

variable (h : Guarding p)
include h

theorem handleGoalResponseLocked (hfuture : p.client.goalFuture i = some handle)
    (hi : i + 1 = p.client.goals.length) (generation : UInt64) :
    Guarding (p.handleGoalResponseLocked generation handle) := by
  unfold Ros2Nav2Provider.handleGoalResponseLocked
  by_cases hne : generation ≠ p.generation
  · rw [if_pos hne]
    exact h
  rw [if_neg hne]
  cases handle with
  | none => exact h.rejected hfuture hi _
  | some handle =>
    show Guarding (if _ then _ else _)
    by_cases hdisconnected : p.status.state = .disconnected
    · rw [if_pos hdisconnected]
      exact h.cancelUncertainGoal handle
    rw [if_neg hdisconnected]
    by_cases hactive : p.status.state.isActive = true
    · rw [if_pos hactive]
      refine h.of_acknowledged rfl rfl rfl rfl (fun _ => ?_) fun hidle => ?_
      · show (false || p.pendingCancel || p.status.state.isActive) = true
        rw [hactive, Bool.or_true]
      · exact absurd hidle (isActive_ne_idle hactive)
    · -- neither disconnected nor active: the acknowledgement was not pending any more
      rw [if_neg hactive]
      refine h.of_acknowledged rfl rfl rfl rfl (fun hguard => ?_) fun hidle => (h.idle hidle).2
      have hack : p.pendingAck = false := by
        cases hpending : p.pendingAck
        · rfl
        · exact absurd (h.ack hpending).state (not_or.2 ⟨hdisconnected, hactive⟩)
      show (false || p.pendingCancel || p.status.state.isActive) = true
      rw [← hack]
      exact hguard

theorem resolvePendingAckLocked : Guarding p.resolvePendingAckLocked := by
  unfold Ros2Nav2Provider.resolvePendingAckLocked
  by_cases hpending : p.pendingAck = true
  · rw [if_neg (by rw [hpending]; decide)]
    cases hready : p.pendingAckFuture.bind p.client.goalFuture with
    | none => exact h
    | some handle =>
      obtain ⟨i, hi, hfuture⟩ := Option.bind_eq_some_iff.1 hready
      show Guarding (if _ then _ else _)
      rw [if_neg (fun hne => hne (h.ack hpending).generation)]
      cases handle with
      | none => exact h.rejected hfuture (h.future i hi).2 _
      | some handle => exact h.cancelUncertainGoal handle
  · rw [if_pos (by rw [not_eq_true] at hpending; rw [hpending]; rfl)]
    exact h

theorem checkPendingCancel : Guarding p.checkPendingCancel := by
  unfold Ros2Nav2Provider.checkPendingCancel
  split
  · exact h
  case isFalse hpending =>
    have hcancel : p.pendingCancel = true := by simpa using hpending
    split
    · exact h
    · exact h.withCancelFuture
    · have hnone : Guarding { p with pendingCancelFuture := none } := h.withCancelFuture
      exact hnone.withStatus (fun _ => .inr (.inl hcancel)) (fun _ => .inl rfl) nofun

theorem refreshConnection (serverReady : Bool) : Guarding (p.refreshConnection serverReady) := by
  unfold Ros2Nav2Provider.refreshConnection
  split
  · exact h
  case isFalse hpending =>
    have hfree : p.pendingAck = false ∧ p.pendingCancel = false := by simpa using hpending
    split
    case isTrue hstate =>
      have hidle : p.status.state = .idle := by
        simp only [and_eq_true, decide_eq_true_eq] at hstate
        exact hstate.1
      refine h.withStatus (fun hactive => absurd hidle (isActive_ne_idle hactive))
        (fun _ => .inl rfl) nofun
    case isFalse =>
      split
      case isTrue hstate =>
        have hdisconnected : p.status.state = .disconnected := by
          simp only [and_eq_true, decide_eq_true_eq] at hstate
          exact hstate.1
        refine h.withStatus (fun hactive => ?_) (fun hack => nomatch hfree.1.symm.trans hack)
          fun _ => hfree
        rw [hdisconnected] at hactive
        exact nomatch hactive
      case isFalse => exact h

theorem getNavigationStatus (serverReady : Bool) : Guarding (p.getNavigationStatus serverReady) :=
  h.resolvePendingAckLocked.checkPendingCancel.refreshConnection serverReady

theorem keepFuture {generation : UInt64} (hgen : p.generation = generation)
    (hi : i + 1 = p.client.goals.length) :
    Guarding (p.keepFuture generation i) ∧ (p.keepFuture generation i).generation = generation ∧
      i + 1 = (p.keepFuture generation i).client.goals.length := by
  unfold Ros2Nav2Provider.keepFuture
  split
  case isFalse => exact ⟨h, hgen, hi⟩
  case isTrue hpending =>
    rw [and_eq_true] at hpending
    refine ⟨⟨h.generation, h.newest, h.guard, fun _ => ⟨(h.ack hpending.1).generation,
      (h.ack hpending.1).state, (h.ack hpending.1).goal⟩, ?_, h.idle⟩, hgen, hi⟩
    intro j hj
    obtain rfl : i = j := Option.some.inj hj
    exact ⟨hpending.1, hi⟩

theorem feedbackCallback (generation : UInt64) (pose : NavigationPose) :
    Guarding (p.feedbackCallback generation pose) := by
  unfold Ros2Nav2Provider.feedbackCallback
  split
  · exact h
  · exact h.withStatus (fun _ => .inr (.inr rfl)) (fun _ => .inr rfl) nofun

theorem responded (hn : Numbered p.client.goals) {g : Goal} (hg : p.client.goals[i]? = some g)
    (hfuture : p.client.goalFuture i = some handle) (hr : Running p.client.goals i) :
    Guarding { p.handleGoalResponseLocked g.generation handle with
      client := (p.handleGoalResponseLocked g.generation handle).client.updateGoal i
        ({ · with client := .responded }) } := by
  have hanswered : g.client = .answered := by
    obtain ⟨g', hg', hanswered⟩ := hr.1
    obtain rfl : g = g' := Option.some.inj (hg.symm.trans hg')
    exact hanswered
  have hsettled : g.Settled → Goal.Settled { g with client := .responded } := by
    rintro (hresulted | ⟨hrejected, -⟩)
    · exact nomatch hanswered.symm.trans hresulted
    · exact .inr ⟨hrejected, nofun⟩
  have hnum : g.generation = UInt64.ofNat (i + 1) := hn.generation i g hg
  rcases hr.2 with hi | ⟨hi, -⟩
  · have hcur : g.generation = p.generation := by rw [hnum, hi, h.generation]
    refine (h.handleGoalResponseLocked hfuture hi g.generation).update ?_ ?_
    · rw [(p.sameGoals_handleGoalResponseLocked g.generation handle).goals]
      intro g' hg'
      obtain rfl : g = g' := Option.some.inj (hg.symm.trans hg')
      exact hsettled
    · intro hpending
      rw [hcur, p.pendingAck_handleGoalResponseLocked handle] at hpending
      cases hpending
  · have hne : g.generation ≠ p.generation := by
      rw [hnum, h.generation, ← hi]
      exact (ofNat_succ_ne (i + 1)).symm
    rw [Ros2Nav2Provider.handleGoalResponseLocked_of_ne hne]
    refine h.update ?_ fun _ hlast => ?_
    · intro g' hg'
      obtain rfl : g = g' := Option.some.inj (hg.symm.trans hg')
      exact hsettled
    · omega

theorem resulted (hn : Numbered p.client.goals) {g : Goal} {code : ResultCode}
    (hg : p.client.goals[i]? = some g) (hresponded : g.client = .responded) (hfinished : g.server = .finished code) :
    Guarding { p.resultCallback g.generation code with
      client := (p.resultCallback g.generation code).client.updateGoal i
        ({ · with client := .resulted }) } := by
  have hopen : ¬ g.Settled := by
    rintro (hresulted | ⟨hrejected, -⟩)
    · exact nomatch hresponded.symm.trans hresulted
    · exact nomatch hfinished.symm.trans hrejected
  have hi : i + 1 = p.client.goals.length := h.newest i g hg hopen
  have hcur : g.generation = p.generation := by rw [hn.generation i g hg, hi, h.generation]
  have hack : p.pendingAck = false := by
    cases hpending : p.pendingAck
    · rfl
    · have hphase := (h.ack hpending).goal i g hg hi
      rw [hresponded] at hphase
      exact absurd hphase (by decide)
  have hfuture : p.pendingAckFuture = none := by
    cases hfuture : p.pendingAckFuture with
    | none => rfl
    | some j => exact nomatch hack.symm.trans (h.future j hfuture).1
  rw [Ros2Nav2Provider.resultCallback, if_neg (fun hne => hne hcur)]
  refine of_settled ?_ (fun j g' hg' => ?_) hack hfuture fun _ => rfl
  · show p.generation = UInt64.ofNat (p.client.updateGoal i _).goals.length
    rw [ActionClient.length_updateGoal]
    exact h.generation
  · obtain ⟨g₀, hg₀, rfl⟩ := ActionClient.getElem?_updateGoal hg'
    split
    case isTrue => exact .inl rfl
    case isFalse hij =>
      refine Decidable.not_not.1 fun hg₀open => hij ?_
      have hj : j + 1 = p.client.goals.length := h.newest j g₀ hg₀ hg₀open
      omega

end

end Guarding

/-! ## Between the guard and the request -/

namespace Reserved

variable {p : Ros2Nav2Provider} {generation : UInt64} {ack : Bool}

theorem of_guarding (h : Guarding p) (hrefuses : p.refusesGoals = false) (goal : NavigationGoal) :
    Reserved (p.reserveGoal goal) (p.generation + 1) false where
  settled := fun _ _ hg => h.settled hrefuses hg
  active := rfl
  current := rfl
  next := by
    show p.generation + 1 = UInt64.ofNat (p.client.goals.length + 1)
    rw [h.generation, UInt64.ofNat_add]
    rfl
  pendingAck := by
    simp only [Ros2Nav2Provider.refusesGoals, or_eq_false_iff] at hrefuses
    exact hrefuses.1.1
  pendingGeneration := nofun
  cancel := by
    simp only [Ros2Nav2Provider.refusesGoals, or_eq_false_iff] at hrefuses
    exact hrefuses.1.2
  future := by
    simp only [Ros2Nav2Provider.refusesGoals, or_eq_false_iff] at hrefuses
    show p.pendingAckFuture = none
    cases hfuture : p.pendingAckFuture with
    | none => rfl
    | some i => exact nomatch hrefuses.1.1.symm.trans (h.future i hfuture).1

theorem awaitAcknowledgement (h : Reserved p generation false) :
    Reserved (p.awaitAcknowledgement generation) generation true :=
  ⟨h.settled, h.active, h.current, h.next, rfl, fun _ => rfl, h.cancel, h.future⟩

theorem sendGoal (h : Reserved p generation true) (goal : NavigationGoal) :
    Guarding (p.sendGoal goal generation) := by
  have hlen := p.length_sendGoal goal generation
  have hopen (i : Nat) (g : Goal) (hg : (p.sendGoal goal generation).client.goals[i]? = some g)
      (hgopen : ¬ g.Settled) : i = p.client.goals.length := by
    rcases ActionClient.getElem?_asyncSendGoal hg with hg | ⟨hi, -⟩
    · exact absurd (h.settled i g hg) hgopen
    · exact hi
  constructor
  · rw [hlen]
    exact h.current.trans h.next
  · intro i g hg hgopen
    rw [hlen, hopen i g hg hgopen]
  · intro _ _ _ _
    show (p.pendingAck || p.pendingCancel || p.status.state.isActive) = true
    rw [h.active, Bool.or_true]
  · intro _
    refine ⟨(h.pendingGeneration rfl).trans h.current.symm, .inr h.active, fun i g hg hi => .inl ?_⟩
    rcases ActionClient.getElem?_asyncSendGoal hg with hg | ⟨-, rfl⟩
    · obtain ⟨hlt, -⟩ := List.getElem?_eq_some_iff.1 hg
      omega
    · rfl
  · intro i hi
    exact nomatch h.future.symm.trans hi
  · exact fun hidle => absurd hidle (isActive_ne_idle h.active)

theorem numbered (h : Reserved p generation ack) (hn : Numbered p.client.goals)
    (goal : NavigationGoal) : Numbered (p.sendGoal goal generation).client.goals where
  generation := by
    intro i g hg
    rcases ActionClient.getElem?_asyncSendGoal hg with hg | ⟨rfl, rfl⟩
    · exact hn.generation i g hg
    · exact h.next
  finished := by
    intro i g hg
    rcases ActionClient.getElem?_asyncSendGoal hg with hg | ⟨-, rfl⟩
    · exact hn.finished i g hg
    · exact nofun

variable {i : Nat}

section

variable (h : Reserved p generation ack)
include h

theorem newest (hr : Running p.client.goals i) : i + 1 = p.client.goals.length := by
  rcases hr.2 with hi | ⟨hi, hwaiting⟩
  · exact hi
  · have hlt : i + 1 < p.client.goals.length := by omega
    obtain ⟨g, hg⟩ : ∃ g, p.client.goals[i + 1]? = some g := ⟨_, List.getElem?_eq_getElem hlt⟩
    rcases h.settled (i + 1) g hg with hresulted | ⟨-, hphase⟩
    · exact nomatch (hwaiting g hg).symm.trans hresulted
    · exact absurd (hwaiting g hg) hphase

theorem running (goal : NavigationGoal) (hr : Running p.client.goals i) :
    Running (p.sendGoal goal generation).client.goals i := by
  have hi : i + 1 = p.client.goals.length := h.newest hr
  obtain ⟨⟨g, hg, hanswered⟩, -⟩ := hr
  refine ⟨⟨g, ?_, hanswered⟩, .inr ⟨?_, fun g' hg' => ?_⟩⟩
  · exact (List.getElem?_append_left (by omega)).trans hg
  · rw [p.length_sendGoal, ← hi]
  · rcases ActionClient.getElem?_asyncSendGoal hg' with hg' | ⟨-, rfl⟩
    · obtain ⟨hlt, -⟩ := List.getElem?_eq_some_iff.1 hg'
      omega
    · rfl

theorem update {f : Goal → Goal} (hsettled : ∀ g, p.client.goals[i]? = some g → g.Settled → (f g).Settled) :
    Reserved { p with client := p.client.updateGoal i f } generation ack where
  settled := by
    intro j g hg
    obtain ⟨g₀, hg₀, rfl⟩ := ActionClient.getElem?_updateGoal hg
    have hg₀settled : g₀.Settled := h.settled j g₀ hg₀
    split
    case isTrue hij =>
      subst hij
      exact hsettled g₀ hg₀ hg₀settled
    case isFalse => exact hg₀settled
  active := h.active
  current := h.current
  next := by
    show generation = UInt64.ofNat ((p.client.updateGoal i f).goals.length + 1)
    rw [ActionClient.length_updateGoal]
    exact h.next
  pendingAck := h.pendingAck
  pendingGeneration := h.pendingGeneration
  cancel := h.cancel
  future := h.future

theorem feedbackCallback (g : UInt64) (pose : NavigationPose) :
    Reserved (p.feedbackCallback g pose) generation ack := by
  unfold Ros2Nav2Provider.feedbackCallback
  split
  · exact h
  · exact ⟨h.settled, rfl, h.current, h.next, h.pendingAck, h.pendingGeneration, h.cancel, h.future⟩

theorem responded (hn : Numbered p.client.goals) {g : Goal}
    (handle : Option GoalHandle) (hg : p.client.goals[i]? = some g) (hr : Running p.client.goals i) :
    Reserved { p.handleGoalResponseLocked g.generation handle with
      client := (p.handleGoalResponseLocked g.generation handle).client.updateGoal i
        ({ · with client := .responded }) } generation ack := by
  have hanswered : g.client = .answered := by
    obtain ⟨g', hg', hanswered⟩ := hr.1
    obtain rfl : g = g' := Option.some.inj (hg.symm.trans hg')
    exact hanswered
  have hi : i + 1 = p.client.goals.length := h.newest hr
  have hne : g.generation ≠ p.generation := by
    rw [hn.generation i g hg, hi, h.current, h.next]
    exact (ofNat_succ_ne _).symm
  rw [Ros2Nav2Provider.handleGoalResponseLocked_of_ne hne]
  refine h.update fun g' hg' hsettled => ?_
  obtain rfl : g = g' := Option.some.inj (hg.symm.trans hg')
  rcases hsettled with hresulted | ⟨hrejected, -⟩
  · exact nomatch hanswered.symm.trans hresulted
  · exact .inr ⟨hrejected, nofun⟩

end

end Reserved

end Cockpit.Bridge
