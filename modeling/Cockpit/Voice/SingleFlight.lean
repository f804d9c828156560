/-
  Single-flight cancellation, over whole runs: at most two RPCs for a playback, never two at the same time and
  none after one was accepted; and every caller returns.
-/
import Cockpit.Lib.FairRun
import Cockpit.Voice.PlaybackCancellation

namespace Cockpit.Voice.CancellationFlight

open FairRun List

variable {s : CancellationFlight} {i j p : Nat} {c call : CancellationCall} {place : FlightPlace}
  {log : List FlightEffect} {e : FlightEffect}

/-! ## Safety -/

/-- What the log of a run says of the Cancel RPCs. -/
structure SingleFlight (log : List FlightEffect) : Prop where
  atMostTwo : ∀ p, sentOf log p ≤ 2
  oneAtATime : ∀ before p after, log = before ++ .sent p :: after → sentOf before p = answeredOf before p
  notAccepted : ∀ before p after, log = before ++ .sent p :: after → .answered p true ∉ before
  decided : ∀ before p after, log = before ++ .sent p :: after → sentOf before p < countedOf before p
  inTime : ∀ before p after, log = before ++ .counted p :: after →
    .answered p true ∉ before ∧ .cleared p ∉ before
  accepted : ∀ before p after, log = before ++ .returned p true :: after → .answered p true ∈ before

theorem sentOf_le_two (h : Lawful Allowed log) (p : Nat) : sentOf log p ≤ 2 := by
  induction log using List.reverseRecOn with
  | nil => exact Nat.zero_le 2
  | append_singleton log e ih =>
    have hbefore : Lawful Allowed log := by
      intro before e' after hsplit
      refine h before e' (after ++ [e]) ?_
      rw [hsplit, append_assoc]
      rfl
    have hle := ih hbefore
    rw [sentOf_snoc]
    split
    case isTrue hsent =>
      subst hsent
      have hlast : sentOf log p < 2 := (h log (.sent p) [] rfl).1
      omega
    case isFalse => exact hle

/-- Effects that are all allowed are a single flight. -/
theorem SingleFlight.of_lawful (h : Lawful Allowed log) : SingleFlight log where
  atMostTwo := sentOf_le_two h
  oneAtATime := fun before _ after hsplit => (h before _ after hsplit).2.1
  notAccepted := fun before _ after hsplit => (h before _ after hsplit).2.2.2
  decided := fun before _ after hsplit => (h before _ after hsplit).2.2.1
  inTime := fun before _ after hsplit => h before _ after hsplit
  accepted := fun before _ after hsplit => h before _ after hsplit

theorem inv_initial (first : InitialPlaybackId) : Inv [] (initial first) := by
  have hfresh : ∀ p, 0 < p → Fresh p [] (initial first) := by
    intro p hpos
    refine ⟨Nat.ne_of_lt hpos, ?_, ?_⟩ <;> nofun
  refine ⟨⟨?_, ?_, ?_⟩, ?_, ?_, ?_, ?_, ⟨first.positive, fun p hp => hfresh p (Nat.lt_of_lt_of_le first.positive hp)⟩, fun p hp => Or.inl (hfresh p hp)⟩
  · intro i j hi
    exact absurd rfl hi
  · nofun
  · intro _
    rfl
  · nofun
  · nofun
  · nofun
  · nofun

variable {first : InitialPlaybackId}

/-- What has happened in a run. -/
def effects (first : InitialPlaybackId) (events : List FlightEvent) : List FlightEffect :=
  (StepRun.trace step (initial first) events).map Prod.snd

variable {events : List FlightEvent}

theorem lawful_effects (hcounts : StepRun.Along step CountsOn (initial first) events) :
    Lawful Allowed (effects first events) := by
  have hstart : Inv (List.map Prod.snd ([] : List (FlightEvent × FlightEffect))) (initial first) ∧
      Lawful Allowed (List.map Prod.snd ([] : List (FlightEvent × FlightEffect))) :=
    ⟨inv_initial first, lawful_nil⟩
  have hrun := StepRun.Along.trace_invariant (I := fun history s =>
      Inv (history.map Prod.snd) s ∧ Lawful Allowed (history.map Prod.snd)) ?_ hstart hcounts
  · exact hrun.2
  · intro history s event ⟨hinv, hlawful⟩ hon
    obtain ⟨hinv', hallowed⟩ := goes_step hinv event hon
    rw [map_append, map_singleton]
    exact ⟨hinv', lawful_snoc hlawful hallowed⟩

/-! ## Where a step takes a thread -/

theorem others_step (s : CancellationFlight) (event : FlightEvent) : Others s (s.step event).1 event.thread := by
  have hsame : Others s s event.thread := fun j _ => Or.inl rfl
  have hclear : ∀ r, Others s (s.clear event.thread r).1 event.thread := by
    intro r
    unfold clear clearActiveRequest
    split
    · exact others_notify_goTo rfl _ _
    · exact others_goTo rfl _ _
  have hlook : ∀ call, Others s (s.look event.thread call).1 event.thread := by
    intro call
    unfold look
    repeat' split
    all_goals exact others_goTo rfl _ _
  unfold step
  dsimp only
  split
  · split
    · exact others_goTo rfl _ _
    · exact others_goTo rfl _ _
    · split
      · exact hsame
      · exact others_goTo rfl _ _
    · exact hsame
  · exact others_goTo rfl _ _
  · exact others_goTo rfl _ _
  · unfold register
    split <;> exact others_goTo rfl _ _
  · split
    · exact others_goTo rfl _ _
    · exact hclear _
  · unfold commit
    split <;> exact others_goTo rfl _ _
  · split
    · exact others_goTo rfl _ _
    · exact hclear _
  · rename_i call place _
    cases place with
    | looking => exact hlook call
    | asleep notified =>
      show Others s (s.wake event.thread call).1 event.thread
      unfold wake
      split
      · exact hlook call
      · exact others_goTo rfl _ _
    | counted | calling => exact others_goTo rfl _ _
    | answered accepted =>
      show Others s (s.settle event.thread call accepted).1 event.thread
      unfold settle
      repeat' split
      all_goals first | exact others_notify_goTo rfl _ _ | exact others_goTo rfl _ _

/-- Where a step of a call leads: out of the call, to sleep, or to the next place of the flight. -/
inductive Moves (i : Nat) (call : CancellationCall) : FlightPlace → CancellationFlight × FlightEffect → Prop
  | returns {place result r} : r.1.threads i = call.behind → r.2 = .returned call.playbackId result →
    Moves i call place r
  | sleeps {place r} : place.flying = false → r.1.threads i = .cancelling call (.asleep false) →
    r.2 = .none → Moves i call place r
  | counts {place r} : (place.flying = false ∨ ∃ accepted, place = .answered accepted) →
    r.1.threads i = .cancelling call .counted → r.2 = .counted call.playbackId → Moves i call place r
  | sends {r} : r.1.threads i = .cancelling call .calling → r.2 = .sent call.playbackId →
    Moves i call .counted r
  | hears {accepted r} : r.1.threads i = .cancelling call (.answered accepted) →
    r.2 = .answered call.playbackId accepted → Moves i call .calling r

theorem moves_look (s : CancellationFlight) (i : Nat) (call : CancellationCall) (hground : place.flying = false) :
    Moves i call place (s.look i call) := by
  unfold look
  split
  · exact .returns (goTo_self _ i _) rfl
  · split
    · exact .returns (goTo_self _ i _) rfl
    · split
      · exact .sleeps hground (goTo_self _ i _) rfl
      · split
        · exact .returns (goTo_self _ i _) rfl
        · exact .counts (Or.inl hground) (goTo_self _ i _) rfl

theorem moves_requestPlaybackCancellation (s : CancellationFlight) (i : Nat) (call : CancellationCall)
    (accepted : Bool) (place : FlightPlace) :
    Moves i call place (s.requestPlaybackCancellation i call accepted place) := by
  cases place with
  | looking => exact moves_look s i call rfl
  | asleep notified =>
    show Moves i call _ (s.wake i call)
    unfold wake
    split
    · exact moves_look s i call rfl
    · exact .sleeps rfl (goTo_self _ i _) rfl
  | counted => exact .sends (goTo_self _ i _) rfl
  | calling => exact .hears (goTo_self _ i _) rfl
  | answered accepted =>
    show Moves i call _ (s.settle i call accepted)
    unfold settle
    repeat' split
    all_goals first
      | exact .returns (goTo_self _ i _) rfl
      | exact .counts (Or.inr ⟨accepted, rfl⟩) (goTo_self _ i _) rfl

variable {event : FlightEvent}

theorem step_call (hcall : s.threads event.thread = .cancelling call place) :
    s.step event = s.requestPlaybackCancellation event.thread call event.accepted place := by
  unfold step
  dsimp only
  rw [hcall]

theorem step_outside (hplain : ∀ c place, s.threads event.thread ≠ .cancelling c place)
    (hafter : (s.step event).1.threads event.thread = .cancelling call place) : place = .looking := by
  have hsame : ∀ {s' : CancellationFlight} {t : FlightThread} {call : CancellationCall} {place : FlightPlace},
      (s'.goTo event.thread t).threads event.thread = .cancelling call place → t = .cancelling call place := by
    intro s' t call place hthread
    rwa [goTo_self] at hthread
  unfold step at hafter
  dsimp only at hafter
  split at hafter
  · split at hafter
    · cases hsame hafter
    · cases hsame hafter
    · split at hafter
      · exact absurd hafter (hplain call place)
      · cases hsame hafter
    · exact absurd hafter (hplain call place)
  · cases hsame hafter
  · have hthread := hsame hafter
    split at hthread <;> cases hthread
    rfl
  · unfold register at hafter
    split at hafter <;> cases hsame hafter
  · split at hafter <;> cases hsame hafter
  · unfold commit at hafter
    split at hafter <;> cases hsame hafter
  · split at hafter <;> cases hsame hafter
    rfl
  · rename_i hcall
    exact absurd hcall (hplain _ _)

theorem step_takes_off (hafter : (s.step event).1.threads event.thread = .cancelling call place)
    (hfly : place.flying = true)
    (hbefore : ∀ c place', s.threads event.thread = .cancelling c place' → c.playbackId = call.playbackId →
      place'.flying = false) : (s.step event).2 = .counted call.playbackId := by
  by_cases hplain : ∀ c place', s.threads event.thread ≠ .cancelling c place'
  · rw [step_outside hplain hafter] at hfly
    cases hfly
  · simp only [ne_eq, not_forall, not_not] at hplain
    obtain ⟨c, place', hcall⟩ := hplain
    have hmoves := moves_requestPlaybackCancellation s event.thread c event.accepted place'
    rw [← step_call hcall] at hmoves
    cases hmoves with
    | returns hthread _ => exact absurd (hthread.symm.trans hafter) (behind_ne_cancelling c call place)
    | sleeps _ hthread _ =>
      cases hthread.symm.trans hafter
      cases hfly
    | counts _ hthread heffect =>
      cases hthread.symm.trans hafter
      exact heffect
    | sends hthread _ | hears hthread _ =>
      cases hthread.symm.trans hafter
      cases hbefore _ _ hcall rfl

/-! ## Progress -/

/-- No thread is in a flight of the playback. -/
def Grounded (p : Nat) (s : CancellationFlight) : Prop :=
  ∀ i call place, s.threads i = .cancelling call place → call.playbackId = p → place.flying = false

/-- No further attempt may be counted. -/
def Settled (p : Nat) (log : List FlightEffect) : Prop :=
  2 ≤ countedOf log p ∨ .answered p true ∈ log ∨ .cleared p ∈ log

/-- The flight of the playback is over for good. -/
def Over (p : Nat) (log : List FlightEffect) (s : CancellationFlight) : Prop := Settled p log ∧ Grounded p s

/-- The thread is in a call, and does not wait to be notified. -/
def Ready (s : CancellationFlight) (i : Nat) : Prop :=
  ∃ call place, s.threads i = .cancelling call place ∧ place ≠ .asleep false

theorem Inv.exists_flying (h : Inv log s) (hflies : ¬ Grounded p s) : ∃ i place, Flying p log s i place := by
  unfold Grounded at hflies
  simp only [not_forall, Bool.not_eq_false] at hflies
  obtain ⟨i, call, place, hcall, rfl, hfly⟩ := hflies
  exact ⟨i, place, h.flying hcall hfly⟩

theorem Settled.snoc (h : Settled p log) (e : FlightEffect) : Settled p (log ++ [e]) := by
  rcases h with hcounted | hacc | hcleared
  · left
    rw [countedOf_snoc]
    omega
  · exact Or.inr (Or.inl (mem_append_left _ hacc))
  · exact Or.inr (Or.inr (mem_append_left _ hcleared))

/-- **Nobody sleeps without a flight to wait for.** -/
theorem Inv.ready (h : Inv log s) (hcall : s.threads i = .cancelling call place)
    (hground : Grounded call.playbackId s) : place ≠ .asleep false := by
  rintro rfl
  obtain ⟨hover, hinFlight⟩ := h.asleep i call hcall
  have hactive := isOver_eq_false hover
  rcases h.stages _ (h.calls i call _ hcall) with hfresh | hresting | ⟨j, place, hflying⟩
  · exact Inv.not_fresh hcall hfresh
  · rw [(hresting.active hactive).1] at hinFlight
    cases hinFlight
  · obtain ⟨c, howner, hp⟩ := hflying.owner
    have hfalse := hground j c place howner hp
    rw [hflying.flying] at hfalse
    cases hfalse

/-- **Nobody takes off again** once the flight is over. -/
theorem Over.lasts (h : Over p log s) (hgoes : Goes log (s.step event)) :
    Over p (log ++ [(s.step event).2]) (s.step event).1 := by
  obtain ⟨hsettled, hground⟩ := h
  refine ⟨hsettled.snoc _, ?_⟩
  intro k call place hcall hp
  by_contra hfly
  have hfly := Bool.not_eq_false _ ▸ hfly
  by_cases hk : k = event.thread
  · subst hk
    subst hp
    have heffect := step_takes_off hcall hfly fun c place' hbefore hp => hground _ c place' hbefore hp
    obtain ⟨hinv, hallowed⟩ := hgoes
    have hcounts := (hinv.flying hcall hfly).counts.2.2
    rw [heffect] at hallowed
    rw [countedOf_snoc, if_pos heffect] at hcounts
    rcases hsettled with hcounted | hacc | hcleared
    · omega
    · exact hallowed.1 hacc
    · exact hallowed.2 hcleared
  · obtain ⟨place', hbefore, hsame, _⟩ := (others_step s event).cancelling hk hcall
    rw [← hsame, hground k call place' hbefore hp] at hfly
    cases hfly

/-- The end of a flight settles it. -/
theorem settled_of_settle (h : Inv log s) {accepted result : Bool}
    (hcall : s.threads i = .cancelling call (.answered accepted))
    (heffect : (s.settle i call accepted).2 = .returned call.playbackId result) : Settled call.playbackId log := by
  have hflying := h.flying hcall rfl
  unfold settle at heffect
  split at heffect
  case isTrue hover => exact Or.inr (Or.inr (hflying.inactive (h.inactive hcall hover)))
  case isFalse hover =>
    obtain ⟨_, _, hsame, hconf⟩ := hflying.active (isOver_eq_false (Bool.eq_false_iff.mpr hover))
    split at heffect
    case isTrue hacc =>
      subst hacc
      exact Or.inr (Or.inl (hflying.accepted.mpr rfl))
    case isFalse =>
      split at heffect
      case isTrue hattempts =>
        left
        omega
      case isFalse =>
        rw [if_neg (Bool.eq_false_iff.mp hconf)] at heffect
        cases heffect

section Run

variable {events : Nat → FlightEvent}

/-- Thread `i` returns from its call for the playback at the time `n`. -/
def ReturnsAt (first : InitialPlaybackId) (events : Nat → FlightEvent) (n i p : Nat) : Prop :=
  (events n).thread = i ∧
    ∃ result, ((stateAt step (initial first) events n).step (events n)).2 = .returned p result

/-- Every thread in a call that stays ready takes a step; so every RPC returns. -/
def Fair (first : InitialPlaybackId) (events : Nat → FlightEvent) : Prop :=
  ∀ i, WeaklyFair (fun n => Ready (stateAt step (initial first) events n) i) fun n => (events n).thread = i

/-- The counter does not come round in the run. -/
def CountsOnAt (first : InitialPlaybackId) (events : Nat → FlightEvent) : Prop :=
  ∀ n, CountsOn (stateAt step (initial first) events n) (events n)

theorem inv_at (hcounts : CountsOnAt first events) (n : Nat) :
    Inv (logAt step (initial first) events n) (stateAt step (initial first) events n) :=
  invariant (I := Inv) (P := CountsOn) (fun _ _ event hinv hon => (goes_step hinv event hon).1)
    (inv_initial first) hcounts n

theorem goes_at (hcounts : CountsOnAt first events) (n : Nat) :
    Goes (logAt step (initial first) events n) ((stateAt step (initial first) events n).step (events n)) :=
  goes_step (inv_at hcounts n) _ (hcounts n)

variable {n : Nat}

theorem call_lasts (hcall : (stateAt step (initial first) events n).threads i = .cancelling call place) :
    ReturnsAt first events n i call.playbackId ∨
      ∃ place', (stateAt step (initial first) events (n + 1)).threads i = .cancelling call place' := by
  show _ ∨ ∃ place', ((stateAt step (initial first) events n).step (events n)).1.threads i = _
  by_cases hi : (events n).thread = i
  · subst hi
    have hmoves := moves_requestPlaybackCancellation (stateAt step (initial first) events n) (events n).thread call
      (events n).accepted place
    rw [← step_call hcall] at hmoves
    cases hmoves with
    | returns _ heffect => exact Or.inl ⟨rfl, _, heffect⟩
    | sleeps _ hthread _ | counts _ hthread _ | sends hthread _ | hears hthread _ => exact Or.inr ⟨_, hthread⟩
  · right
    rcases others_step (stateAt step (initial first) events n) (events n) i fun heq => hi heq.symm with hsame | hwoken
    · exact ⟨place, hsame.trans hcall⟩
    · rw [hwoken, hcall]
      cases place <;> exact ⟨_, rfl⟩

/-- How far the owner of a flight is from its end, within one attempt. -/
def placeRank : FlightThread → Nat
  | .cancelling _ .counted => 2
  | .cancelling _ .calling => 1
  | _ => 0

/-- What is left to do for the owner of a flight. -/
def rankAt (first : InitialPlaybackId) (events : Nat → FlightEvent) (p j n : Nat) : Nat :=
  3 * (2 - countedOf (logAt step (initial first) events n) p) + placeRank ((stateAt step (initial first) events n).threads j)

theorem rankAt_succ (events : Nat → FlightEvent) (p j n : Nat) :
    rankAt first events p j (n + 1) = 3 * (2 - (countedOf (logAt step (initial first) events n) p +
        if ((stateAt step (initial first) events n).step (events n)).2 = .counted p then 1 else 0)) +
      placeRank (((stateAt step (initial first) events n).step (events n)).1.threads j) := by
  rw [← countedOf_snoc]
  rfl

section

variable (hcounts : CountsOnAt first events)
include hcounts

theorem Flying.advances
    (h : Flying p (logAt step (initial first) events n) (stateAt step (initial first) events n) j place) (hj : (events n).thread = j) :
    (ReturnsAt first events n j p ∧ Over p (logAt step (initial first) events (n + 1)) (stateAt step (initial first) events (n + 1))) ∨
      ((∃ place', Flying p (logAt step (initial first) events (n + 1)) (stateAt step (initial first) events (n + 1)) j place') ∧
        rankAt first events p j (n + 1) < rankAt first events p j n) := by
  obtain ⟨call, hcall, rfl⟩ := h.owner
  subst hj
  have hinv' := inv_at hcounts (n + 1)
  have hgoes : Goes _ ((stateAt step (initial first) events n).step (events n)) := goes_at hcounts n
  have hstep := step_call hcall
  have hrank : rankAt first events call.playbackId (events n).thread n =
      3 * (2 - countedOf (logAt step (initial first) events n) call.playbackId) +
        placeRank (.cancelling call place) := by
    unfold rankAt
    rw [hcall]
  have hmoves := moves_requestPlaybackCancellation (stateAt step (initial first) events n) (events n).thread call
    (events n).accepted place
  rw [← hstep] at hmoves
  cases hmoves with
  | @returns _ result _ hthread heffect =>
    left
    refine ⟨⟨rfl, result, heffect⟩, ?_, ?_⟩
    · -- only behind the RPC does the owner return
      cases place with
      | looking | asleep notified => cases h.flying
      | counted | calling =>
        rw [hstep] at heffect
        cases heffect
      | answered accepted =>
        rw [hstep] at heffect
        exact (settled_of_settle (inv_at hcounts n) hcall heffect).snoc _
    · intro k c place' hk hp
      by_contra hfly
      have hfly := Bool.not_eq_false _ ▸ hfly
      by_cases hkj : k = (events n).thread
      · rw [hkj] at hk
        exact behind_ne_cancelling call c place' (hthread.symm.trans hk)
      · obtain ⟨place'', hbefore, hsame, _⟩ := (others_step _ (events n)).cancelling hkj hk
        exact hkj (h.only k c place'' hbefore hp (hsame.trans hfly))
  | sleeps hground _ _ =>
    rw [h.flying] at hground
    cases hground
  | counts hplace hthread heffect =>
    right
    have hflying := hinv'.flying hthread rfl
    have hle := hflying.counts.2.2
    have hmore : countedOf (logAt step (initial first) events (n + 1)) call.playbackId =
        countedOf (logAt step (initial first) events n) call.playbackId + 1 := by
      show countedOf (_ ++ [((stateAt step (initial first) events n).step (events n)).2]) _ = _
      rw [countedOf_snoc, if_pos heffect]
    refine ⟨⟨_, hflying⟩, ?_⟩
    rw [rankAt_succ, hrank, hthread, if_pos heffect]
    show 3 * (2 - _) + 2 < _
    omega
  | sends hthread heffect | hears hthread heffect =>
    right
    refine ⟨⟨_, hinv'.flying hthread rfl⟩, ?_⟩
    rw [rankAt_succ, hrank, hthread, heffect, if_neg nofun]
    exact Nat.lt_succ_self _

/-- **The owner of a flight returns**, and the flight is over then. -/
theorem Flying.returns (hfair : Fair first events) {n : Nat}
    (h : Flying p (logAt step (initial first) events n) (stateAt step (initial first) events n) j place) :
    ∃ m ≥ n, ReturnsAt first events m j p ∧
      Over p (logAt step (initial first) events (m + 1)) (stateAt step (initial first) events (m + 1)) := by
  refine eventually_of_rank
    (P := fun n => ∃ place, Flying p (logAt step (initial first) events n) (stateAt step (initial first) events n) j place)
    (rankAt first events p j) (hfair j) ?_ ?_ ⟨place, h⟩
  · rintro n ⟨place, hflying⟩
    obtain ⟨call, hcall, _⟩ := hflying.owner
    refine ⟨call, place, hcall, ?_⟩
    rintro rfl
    cases hflying.flying
  · rintro n ⟨place, hflying⟩
    by_cases hj : (events n).thread = j
    · rcases hflying.advances hcounts hj with hreturns | ⟨hlasts, hless⟩
      · exact Or.inl hreturns
      · exact Or.inr ⟨hlasts, Nat.le_of_lt hless, fun _ => hless⟩
    · right
      obtain ⟨call, hcall, rfl⟩ := hflying.owner
      have hne : j ≠ (events n).thread := fun heq => hj heq.symm
      have hthread : ((stateAt step (initial first) events n).step (events n)).1.threads j = .cancelling call place :=
        (others_step _ (events n)).flying hne hcall hflying.flying
      refine ⟨⟨place, (inv_at hcounts (n + 1)).flying hthread hflying.flying⟩, ?_, fun htaken => absurd htaken hj⟩
      rw [rankAt_succ, hthread]
      unfold rankAt
      rw [hcall]
      omega

theorem returns_or_flies (hfair : Fair first events)
    (hcall : (stateAt step (initial first) events n).threads i = .cancelling call place)
    (hground : Grounded call.playbackId (stateAt step (initial first) events n)) :
    ∃ m ≥ n, ReturnsAt first events m i call.playbackId ∨
      ¬ Grounded call.playbackId (stateAt step (initial first) events (m + 1)) := by
  refine eventually_of_rank
    (P := fun n => (∃ place, (stateAt step (initial first) events n).threads i = .cancelling call place) ∧
      Grounded call.playbackId (stateAt step (initial first) events n))
    (fun _ => 0) (hfair i) ?_ ?_ ⟨⟨place, hcall⟩, hground⟩
  · rintro n ⟨⟨place, hcall⟩, hground⟩
    exact ⟨call, place, hcall, (inv_at hcounts n).ready hcall hground⟩
  · rintro n ⟨⟨place, hcall⟩, hground⟩
    by_cases hstays : Grounded call.playbackId (stateAt step (initial first) events (n + 1))
    · by_cases hi : (events n).thread = i
      · left
        left
        have hmoves := moves_requestPlaybackCancellation (stateAt step (initial first) events n) (events n).thread call
          (events n).accepted place
        subst hi
        rw [← step_call hcall] at hmoves
        cases hmoves with
        | returns _ heffect => exact ⟨rfl, _, heffect⟩
        | sleeps _ hthread _ => exact absurd rfl ((inv_at hcounts (n + 1)).ready hthread hstays)
        | counts _ hthread _ => cases hstays _ _ _ hthread rfl
        | sends _ _ | hears _ _ => cases hground _ _ _ hcall rfl
      · rcases call_lasts hcall with ⟨htaken, _⟩ | hlasts
        · exact absurd htaken hi
        · exact Or.inr ⟨⟨hlasts, hstays⟩, Nat.le_refl 0, fun htaken => absurd htaken hi⟩
    · exact Or.inl (Or.inr hstays)

/-- **Every caller returns.** -/
theorem caller_returns (hfair : Fair first events)
    (hcall : (stateAt step (initial first) events n).threads i = .cancelling call place) :
    ∃ m ≥ n, ReturnsAt first events m i call.playbackId := by
  by_contra hnever
  have hlasts : ∀ m ≥ n, ∃ place, (stateAt step (initial first) events m).threads i = .cancelling call place := by
    intro m hm
    induction m, hm using Nat.le_induction with
    | base => exact ⟨place, hcall⟩
    | succ m hm ih =>
      obtain ⟨place', hcall'⟩ := ih
      exact (call_lasts hcall').resolve_left fun hreturns => hnever ⟨m, hm, hreturns⟩
  -- somebody is in a flight, at some time
  obtain ⟨m, hm, hflies⟩ : ∃ m ≥ n, ¬ Grounded call.playbackId (stateAt step (initial first) events m) := by
    by_cases hground : Grounded call.playbackId (stateAt step (initial first) events n)
    · obtain ⟨m, hm, hreturns | hflies⟩ := returns_or_flies hcounts hfair hcall hground
      · exact absurd ⟨m, hm, hreturns⟩ hnever
      · exact ⟨m + 1, by omega, hflies⟩
    · exact ⟨n, Nat.le_refl n, hground⟩
  obtain ⟨j, place', hflying⟩ := (inv_at hcounts m).exists_flying hflies
  -- it returns, and the flight is over from then on
  obtain ⟨k, hk, _, hover⟩ := hflying.returns hcounts hfair
  have hstays : ∀ l ≥ k + 1, Over call.playbackId (logAt step (initial first) events l) (stateAt step (initial first) events l) := by
    intro l hl
    induction l, hl using Nat.le_induction with
    | base => exact hover
    | succ l _ ih => exact ih.lasts (goes_at hcounts l)
  obtain ⟨place'', hcall''⟩ := hlasts (k + 1) (by omega)
  obtain ⟨l, hl, hreturns | hflies⟩ := returns_or_flies hcounts hfair hcall'' (hstays (k + 1) (Nat.le_refl _)).2
  · exact hnever ⟨l, by omega, hreturns⟩
  · exact hflies (hstays (l + 1) (by omega)).2

end

end Run

/-- **The cancellation is single-flight, and every caller returns.** -/
theorem cancellation_contract (first : InitialPlaybackId) :
    (∀ events, StepRun.Along step CountsOn (initial first) events → SingleFlight (effects first events)) ∧
      ∀ events : Nat → FlightEvent, CountsOnAt first events → Fair first events → ∀ n i call place,
        (stateAt step (initial first) events n).threads i = .cancelling call place →
        ∃ m ≥ n, ReturnsAt first events m i call.playbackId :=
  ⟨fun _ hcounts => .of_lawful (lawful_effects hcounts),
    fun _ hcounts hfair _ _ _ _ hcall => caller_returns hcounts hfair hcall⟩

/-! ### A run in which a playback is interrupted -/

/-- The playbacks are numbered from 1 on. -/
def one : InitialPlaybackId := ⟨1, by decide, by decide⟩

/-- Thread 0 commits playback 1 for request 5. -/
def submission : List FlightEvent := [⟨0, .submit 5, false, true⟩, ⟨0, .number, false, true⟩,
  ⟨0, .number, false, true⟩, ⟨0, .cancel, false, true⟩]

/-- Thread 1 interrupts it, and its RPC is accepted. -/
def interruption : List FlightEvent := submission ++ [⟨1, .interrupt, false, true⟩, ⟨1, .cancel, false, true⟩,
  ⟨1, .cancel, false, true⟩, ⟨1, .cancel, false, true⟩, ⟨1, .cancel, false, true⟩, ⟨1, .cancel, false, true⟩]

/-- The same for ever: afterwards nothing happens. -/
def interruptionEvents (n : Nat) : FlightEvent := interruption.getD n ⟨2, .cancel, false, true⟩

theorem interruption_rests (k : Nat) :
    stateAt step (initial one) interruptionEvents (10 + k) = stateAt step (initial one) interruptionEvents 10 := by
  induction k with
  | zero => rfl
  | succ k ih =>
    show (step (stateAt step (initial one) interruptionEvents (10 + k)) (interruptionEvents (10 + k))).1 = _
    have hevent : interruptionEvents (10 + k) = ⟨2, .cancel, false, true⟩ := by
      unfold interruptionEvents
      rw [getD_eq_getElem?_getD, List.getElem?_eq_none (by show 10 ≤ 10 + k; omega)]
      rfl
    rw [ih, hevent]
    rfl

theorem never_calls {events : Nat → FlightEvent} {n : Nat} (hidle : ∀ m < n, (events m).thread ≠ i) :
    (stateAt step (initial first) events n).threads i ≠ .cancelling call place := by
  induction n generalizing place with
  | zero => nofun
  | succ n ih =>
    intro hcall
    obtain ⟨place', hbefore, _⟩ := (others_step _ (events n)).cancelling (hidle n (Nat.lt_succ_self n)).symm hcall
    exact ih (fun m hm => hidle m (by omega)) hbefore

theorem interruption_not_ready (i : Nat) : ¬ Ready (stateAt step (initial one) interruptionEvents 10) i := by
  rintro ⟨call, place, hcall, _⟩
  by_cases h0 : i = 0
  · subst h0
    cases hcall
  · by_cases h1 : i = 1
    · subst h1
      cases hcall
    · have hthreads : ∀ m < 10, (interruptionEvents m).thread < 2 := by decide
      refine never_calls (fun m hm heq => ?_) hcall
      have hlt := hthreads m hm
      omega

theorem interrupter_returns :
    (SingleFlight (effects one interruption) ∧ sentOf (effects one interruption) 1 = 1) ∧
      ∃ m ≥ 6, ReturnsAt one interruptionEvents m 1 1 := by
  refine ⟨⟨(cancellation_contract one).1 interruption ?_, by decide +kernel⟩,
    (cancellation_contract one).2 interruptionEvents ?_ ?_ 6 1 ⟨0, 1⟩ .looking (by decide +kernel)⟩
  · refine ⟨?_, ?_, ?_, ?_, ?_, ?_, ?_, ?_, ?_, ?_, trivial⟩ <;> exact Nat.le_of_ble_eq_true rfl
  · intro n
    rcases Nat.lt_or_ge n 10 with hlt | hge
    · have hall : ∀ n < 10, (stateAt step (initial one) interruptionEvents n).nextPlaybackId ≤
          (stateAt step (initial one) interruptionEvents (n + 1)).nextPlaybackId := by decide +kernel
      exact hall n hlt
    · obtain ⟨k, rfl⟩ := Nat.exists_eq_add_of_le hge
      show (stateAt step (initial one) interruptionEvents (10 + k)).nextPlaybackId ≤
        (stateAt step (initial one) interruptionEvents (10 + (k + 1))).nextPlaybackId
      rw [interruption_rests, interruption_rests]
  · intro i n hready
    obtain ⟨k, hk⟩ : ∃ k, max n 10 = 10 + k := Nat.exists_eq_add_of_le (Nat.le_max_right n 10)
    have hlater := hready (max n 10) (Nat.le_max_left n 10)
    dsimp only at hlater
    rw [hk, interruption_rests] at hlater
    exact absurd hlater (interruption_not_ready i)

/-! ### Where more is sent -/

/-- A round of thread 0: a playback is committed, its cancellation rejected twice, and it is cleared. -/
def rejectedRound : List FlightEvent := submission ++ [⟨0, .cancel, false, false⟩, ⟨0, .cancel, false, false⟩,
  ⟨0, .cancel, false, false⟩, ⟨0, .cancel, false, false⟩, ⟨0, .cancel, false, false⟩, ⟨0, .cancel, false, false⟩,
  ⟨0, .cancel, false, false⟩, ⟨0, .cancel, false, false⟩, ⟨0, .clear, false, false⟩]

/-- A round without a cancellation. -/
def plainRound : List FlightEvent := submission ++ [⟨0, .clear, false, true⟩]

/-- The client between two rounds. -/
def between (next : Nat) : CancellationFlight := { nextPlaybackId := next }

theorem between_idle (next j : Nat) : (between next).threads j = .idle := rfl

theorem run_idle (hevents : ∀ event ∈ events, event.thread = 0) (hj : j ≠ 0) (hidle : s.threads j = .idle) :
    (StepRun.run step s events).threads j = .idle := by
  induction events generalizing s with
  | nil => exact hidle
  | cons event events ih =>
    refine ih (fun e he => hevents e (mem_cons_of_mem event he)) ?_
    have hne : j ≠ event.thread := by rwa [hevents event mem_cons_self]
    rcases others_step s event j hne with hsame | hwoken
    · exact hsame.trans hidle
    · rw [hwoken, hidle]
      rfl

theorem run_rejectedRound : StepRun.run step (between 1) rejectedRound = between 2 := by
  refine CancellationFlight.ext rfl rfl rfl rfl rfl rfl rfl rfl ?_
  funext j
  by_cases hj : j = 0
  · subst hj
    rfl
  · rw [run_idle (by decide) hj (between_idle 1 j), between_idle]

theorem run_plainRound (next : Nat) : StepRun.run step (between next) plainRound = between ((next + 1) % 2 ^ 64) := by
  refine CancellationFlight.ext rfl rfl rfl rfl rfl rfl rfl rfl ?_
  funext j
  by_cases hj : j = 0
  · subst hj
    rfl
  · rw [run_idle (by decide) hj (between_idle next j), between_idle]

theorem run_plainRounds (n : Nat) {next : Nat} (hlt : next < 2 ^ 64) :
    StepRun.run step (between next) (List.replicate n plainRound).flatten = between ((next + n) % 2 ^ 64) := by
  induction n generalizing next with
  | zero =>
    rw [Nat.add_zero, Nat.mod_eq_of_lt hlt]
    rfl
  | succ n ih =>
    rw [replicate_succ, flatten_cons, StepRun.run_append, run_plainRound,
      ih (Nat.mod_lt _ (by decide)), Nat.mod_add_mod, Nat.add_right_comm, Nat.add_assoc]

theorem sentOf_append (log log' : List FlightEffect) (p : Nat) :
    sentOf (log ++ log') p = sentOf log p + sentOf log' p := count_append

/-- **A flight that has been decided on is sent, though the playback is cleared in between**; and a playback whose
    number is handed out again gets two more. -/
theorem sent_behind_clear :
    (¬ ∀ events before p after, effects one events = before ++ .sent p :: after → .cleared p ∉ before) ∧
      ¬ ∀ events p, sentOf (effects one events) p ≤ 2 := by
  constructor <;> intro hclaim
  · have hlog : effects one (submission ++ [⟨1, .interrupt, false, true⟩, ⟨1, .cancel, false, true⟩,
        ⟨1, .cancel, false, true⟩, ⟨0, .clear, false, true⟩, ⟨1, .cancel, false, true⟩]) =
        [.none, .none, .numbered 1, .committed 1, .none, .none, .counted 1, .cleared 1] ++ [.sent 1] := by
      decide +kernel
    exact hclaim _ _ 1 [] hlog (by decide)
  · have hle := hclaim (rejectedRound ++ ((List.replicate (2 ^ 64 - 1) plainRound).flatten ++ rejectedRound)) 1
    have hround : sentOf ((StepRun.trace step (between 1) rejectedRound).map Prod.snd) 1 = 2 := by decide +kernel
    have hback : StepRun.run step (between 2) (List.replicate (2 ^ 64 - 1) plainRound).flatten = between 1 :=
      run_plainRounds (2 ^ 64 - 1) (by decide)
    have hinitial : initial one = between 1 := rfl
    unfold effects at hle
    rw [hinitial, StepRun.trace_append, StepRun.trace_append, map_append, map_append, sentOf_append,
      sentOf_append, run_rejectedRound, hback, hround] at hle
    omega

end Cockpit.Voice.CancellationFlight
