/-
  Whether the commands of the media player are atomic. The player has three copies of where it is: the index,
  the track of the status, and the position that `Pause` saved; `PlayUnlocked` sets them together, at its end.
-/
import Cockpit.Media.GstreamerMediaPlayer
import Mathlib.Data.List.Nodup

namespace Cockpit.Media

open StepRun List

namespace GstreamerMediaPlayer

/-! ## The law -/

/-- Playing or paused. -/
def isActive (s : GstreamerMediaPlayer) : Bool := s.status.state = .playing || s.status.state = .paused

/-- The position of the last pause of this track. -/
def lastPause (s : GstreamerMediaPlayer) (trackId : String) : Option Nat :=
  (s.pauses.find? fun pause => pause.1 = trackId).map Prod.snd

/-- The track at the index is the one of the status, and the one of the pipeline. -/
structure Named (tracks : List MediaManifestTrack) (s : GstreamerMediaPlayer) : Prop where
  index : s.currentIndex < tracks.length
  track : (trackAt tracks s.currentIndex).metadata.id = s.status.currentTrackId
  source : s.source = some (trackAt tracks s.currentIndex).file

/-- State, current track and paused position are as before. -/
structure Unchanged (s s' : GstreamerMediaPlayer) : Prop where
  state : s'.status.state = s.status.state
  index : s'.currentIndex = s.currentIndex
  track : s'.status.currentTrackId = s.status.currentTrackId
  position : s'.pausedPositionMs = s.pausedPositionMs

/-- What holds of a player after the commands. -/
structure CommandsAtomic (tracks : List MediaManifestTrack) (pipeline sink : Bool)
    (commands : List MediaCommand) : Prop where
  named : (after tracks pipeline sink commands).isActive = true → Named tracks (after tracks pipeline sink commands)
  /-- `Resume` continues the track of the status. -/
  resumed : ∀ before world rest, commands = before ++ .resume world :: rest →
    (step tracks (after tracks pipeline sink before) (.resume world)).2.ok = true →
    (step tracks (after tracks pipeline sink before) (.resume world)).1.status.currentTrackId =
      (after tracks pipeline sink before).status.currentTrackId
  /-- `Next` moves to the successor of the track of the status. -/
  moved : ∀ before world rest, commands = before ++ .next world :: rest →
    (step tracks (after tracks pipeline sink before) (.next world)).2.ok = true →
    Named tracks (after tracks pipeline sink before) ∧
    (step tracks (after tracks pipeline sink before) (.next world)).1.status.currentTrackId =
      (trackAt tracks (((after tracks pipeline sink before).currentIndex + 1) % tracks.length)).metadata.id
  failed : ∀ before command rest, commands = before ++ command :: rest →
    (step tracks (after tracks pipeline sink before) command).2.ok = false →
    Unchanged (after tracks pipeline sink before) (step tracks (after tracks pipeline sink before) command).1 ∨
    (step tracks (after tracks pipeline sink before) command).1.status.state = .faulted
  /-- `Resume` seeks to where the last successful `Pause` of the track was; to the start it does not have to. -/
  position : ∀ before world rest, commands = before ++ .resume world :: rest →
    (step tracks (after tracks pipeline sink before) (.resume world)).2.ok = true →
    ∀ positionMs,
      (after tracks pipeline sink before).lastPause (after tracks pipeline sink before).status.currentTrackId =
        some positionMs →
      (step tracks (after tracks pipeline sink before) (.resume world)).2.seekMs =
        if 0 < positionMs then some positionMs else none

end GstreamerMediaPlayer

/-! ## The steps at which it fails -/

/-- There is no URI, or no reset. -/
def GstreamerWorld.refusesTrack (world : GstreamerWorld) : Bool :=
  world.uri.isNone || !setStateAndWait .null world.reset

namespace GstreamerMediaPlayer

variable (tracks : List MediaManifestTrack)

/-- The track that `Next` goes to. -/
def successor (s : GstreamerMediaPlayer) : Nat := (s.currentIndex + 1) % tracks.length

/-- `Next` moves the index alone, before a failure; while paused it clears the position of a track that was paused
    before; and `Pause` saves the position alone, before a failure. -/
def Splits (s : GstreamerMediaPlayer) : MediaCommand → Prop
  | .next world =>
    s.isActive = true ∧ 2 ≤ tracks.length ∧ world.refusesTrack = true ∨
    s.status.state = .paused ∧ world.refusesTrack = false ∧ setStateAndWait .null world.start = true ∧
      (s.lastPause (trackAt tracks (s.successor tracks)).metadata.id).getD 0 ≠ 0
  | .pause world =>
    s.status.state = .playing ∧ setStateAndWait .null world.halt = false ∧
      s.positionToSave world ≠ s.pausedPositionMs
  | _ => False

instance (s : GstreamerMediaPlayer) (command : MediaCommand) : Decidable (Splits tracks s command) := by
  cases command
  all_goals
    unfold Splits
    infer_instance

variable {tracks}

/-! ## What the commands do -/

theorem find_track {id : String} (h : find tracks id < tracks.length) :
    (trackAt tracks (find tracks id)).metadata.id = id := by
  have hget : trackAt tracks (find tracks id) = tracks[find tracks id] := by
    rw [trackAt, getD_eq_getElem?_getD, List.getElem?_eq_getElem h, Option.getD_some]
  have hfound : decide (tracks[find tracks id].metadata.id = id) = true :=
    @findIdx_getElem _ (fun track : MediaManifestTrack => decide (track.metadata.id = id)) tracks h
  rw [hget]
  exact of_decide_eq_true hfound

theorem find_le (id : String) : find tracks id ≤ tracks.length := findIdx_le_length

/-- The three copies are set together. -/
def started (tracks : List MediaManifestTrack) (s : GstreamerMediaPlayer) (index : Nat)
    (requestedState : MediaPlaybackState) : GstreamerMediaPlayer :=
  { s with
    source := some (trackAt tracks index).file
    currentIndex := index, pausedPositionMs := 0
    status := { s.status with state := requestedState, positionMs := 0, lastError := "" } }.applyTrack
  (trackAt tracks index).metadata

variable (tracks) in
/-- A failure leaves all three copies, and else they are set together. -/
theorem playUnlocked_cases (s : GstreamerMediaPlayer) (id : String) (requestedState : MediaPlaybackState)
    (world : GstreamerWorld) :
    (∃ error, s.playUnlocked tracks id requestedState world = s.refuse error ∧
      (find tracks id = tracks.length ∨ world.refusesTrack = true)) ∨
    (∃ source message, s.playUnlocked tracks id requestedState world =
      (({ s with source }).fault message).refuse message) ∨
    (find tracks id < tracks.length ∧ world.refusesTrack = false ∧
      (requestedState = .paused → setStateAndWait .null world.start = true) ∧
      s.playUnlocked tracks id requestedState world = (s.started tracks (find tracks id) requestedState, {})) := by
  unfold playUnlocked GstreamerWorld.refusesTrack
  have hle := @find_le tracks id
  dsimp only
  split
  · rename_i hnone
    exact .inl ⟨_, rfl, .inl hnone⟩
  · rename_i hfound
    have hlt : find tracks id < tracks.length := by omega
    cases huri : world.uri with
    | none => exact .inl ⟨_, rfl, .inr rfl⟩
    | some uri =>
      dsimp only
      cases hreset : setStateAndWait .null world.reset with
      | false => exact .inl ⟨_, rfl, .inr rfl⟩
      | true =>
        cases hstart : setStateAndWait (if requestedState = .paused then .null else .playing) world.start with
        | false => exact .inr (.inl ⟨_, _, rfl⟩)
        | true =>
          refine .inr (.inr ⟨hlt, rfl, ?_, rfl⟩)
          intro hpaused
          rwa [if_pos hpaused] at hstart

variable {index : Nat}

theorem find_lt (h : index < tracks.length) : find tracks (trackAt tracks index).metadata.id < tracks.length := by
  apply findIdx_lt_length_of_exists
  refine ⟨tracks[index], getElem_mem h, ?_⟩
  rw [trackAt, getD_eq_getElem?_getD, List.getElem?_eq_getElem h, Option.getD_some]
  exact decide_eq_true rfl

theorem started_named (s : GstreamerMediaPlayer) (h : index < tracks.length) (requestedState : MediaPlaybackState) :
    Named tracks (s.started tracks index requestedState) :=
  ⟨h, rfl, rfl⟩

/-! ## The three copies stay together -/

/-- They agree. -/
structure Together (tracks : List MediaManifestTrack) (s : GstreamerMediaPlayer) : Prop where
  named : s.isActive = true → Named tracks s
  /-- A paused track that was not paused by `Pause` is at its start. -/
  saved : s.status.state = .paused → (s.lastPause s.status.currentTrackId).getD 0 = s.pausedPositionMs

variable {s : GstreamerMediaPlayer}

theorem Together.of_inactive (h : s.isActive = false) : Together tracks s where
  named := by
    intro hactive
    rw [h] at hactive
    cases hactive
  saved := by
    intro hpaused
    simp [isActive, hpaused] at h

theorem Together.of_fault (s : GstreamerMediaPlayer) (message : String) : Together tracks (s.fault message) :=
  Together.of_inactive rfl

theorem Unchanged.refl (s : GstreamerMediaPlayer) : Unchanged s s := ⟨rfl, rfl, rfl, rfl⟩

/-- What a step has to keep: the copies, and what it may do when it fails. -/
structure Keeps (tracks : List MediaManifestTrack) (s : GstreamerMediaPlayer)
    (next : GstreamerMediaPlayer × MediaAnswer) : Prop where
  together : Together tracks next.1
  failed : next.2.ok = false → Unchanged s next.1 ∨ next.1.status.state = .faulted

theorem Together.refuse (h : Together tracks s) (error : String) : Keeps tracks s (s.refuse error) :=
  ⟨h, fun _ => .inl (Unchanged.refl s)⟩

theorem keeps_fault (s s' : GstreamerMediaPlayer) (message error : String) :
    Keeps tracks s ((s'.fault message).refuse error) :=
  ⟨Together.of_fault s' message, fun _ => .inr rfl⟩

theorem started_keeps (s s' : GstreamerMediaPlayer) (h : index < tracks.length) {requestedState : MediaPlaybackState}
    (hsaved : requestedState = .paused → (s'.lastPause (trackAt tracks index).metadata.id).getD 0 = 0) :
    Keeps tracks s (s'.started tracks index requestedState, {}) :=
  ⟨⟨fun _ => started_named s' h requestedState, hsaved⟩, nofun⟩

section

variable (h : Together tracks s)
include h

theorem playUnlocked_keeps (id : String) (world : GstreamerWorld) :
    Keeps tracks s (s.playUnlocked tracks id .playing world) := by
  rcases playUnlocked_cases tracks s id .playing world with
    ⟨error, heq, -⟩ | ⟨source, message, heq⟩ | ⟨hlt, -, -, heq⟩
  · rw [heq]
    exact h.refuse error
  · rw [heq]
    exact keeps_fault s _ message message
  · rw [heq]
    exact started_keeps s s hlt nofun

theorem play_keeps (trackId : String) (world : GstreamerWorld) : Keeps tracks s (s.play tracks trackId world) := by
  unfold play
  split
  · exact h.refuse _
  · dsimp only
    generalize (if trackId = "default_track" && !tracks.isEmpty then (trackAt tracks 0).metadata.id
      else trackId) = resolved
    split
    · exact h.refuse _
    · exact playUnlocked_keeps h _ world

/-- A pause that does not split keeps them together. -/
theorem pause_keeps (world : GstreamerWorld) (hsplits : ¬ Splits tracks s (.pause world)) :
    Keeps tracks s (s.pause world) := by
  unfold pause
  split
  · exact h.refuse _
  · rename_i hplaying
    have hplaying : s.status.state = .playing := Decidable.not_not.mp hplaying
    dsimp only
    cases hhalt : setStateAndWait .null world.halt with
    | false =>
      -- the position that was read is the one that was saved
      have hsame : s.positionToSave world = s.pausedPositionMs :=
        Decidable.byContradiction fun hne => hsplits ⟨hplaying, hhalt, hne⟩
      rw [if_pos Bool.not_false, hsame]
      exact h.refuse _
    | true =>
      have hnamed := h.named (by simp [isActive, hplaying])
      refine ⟨⟨fun _ => ⟨hnamed.index, hnamed.track, hnamed.source⟩, fun _ => ?_⟩, nofun⟩
      simp [lastPause]

theorem resume_keeps (world : GstreamerWorld) : Keeps tracks s (s.resume tracks world) := by
  unfold resume
  split
  · exact h.refuse _
  · dsimp only
    rcases playUnlocked_cases tracks s (trackAt tracks s.currentIndex).metadata.id .playing world with
      ⟨error, heq, -⟩ | ⟨source, message, heq⟩ | ⟨hlt, -, -, heq⟩
    · rw [heq]
      exact h.refuse error
    · rw [heq]
      exact keeps_fault s _ message message
    · rw [heq]
      dsimp only
      rw [if_neg (by decide)]
      split
      · exact keeps_fault s _ _ _
      · exact ⟨⟨fun _ => ⟨hlt, rfl, rfl⟩, nofun⟩, nofun⟩

theorem stop_keeps (world : GstreamerWorld) : Keeps tracks s (s.stop world) := by
  unfold stop
  split
  · exact h.refuse _
  · exact ⟨Together.of_inactive rfl, nofun⟩

end

theorem successor_eq (hindex : s.currentIndex < tracks.length) (hone : ¬ 2 ≤ tracks.length) :
    s.successor tracks = s.currentIndex := by
  have hlen : tracks.length = 1 := by omega
  rw [successor, hlen, Nat.mod_one]
  omega

/-- So does a `Next` that does not split. -/
theorem next_keeps (h : Together tracks s) (world : GstreamerWorld) (hsplits : ¬ Splits tracks s (.next world)) :
    Keeps tracks s (s.next tracks world) := by
  unfold next
  split
  · exact h.refuse _
  · rename_i hstate
    have hactive : s.isActive = true := by
      cases hplaying : s.status.state <;> simp_all [isActive]
    have hnamed := h.named hactive
    rw [if_neg (by rw [isEmpty_iff_length_eq_zero]; have := hnamed.index; omega)]
    have hsuccessor : s.successor tracks < tracks.length := Nat.mod_lt _ (by have := hnamed.index; omega)
    dsimp only
    rcases playUnlocked_cases tracks { s with currentIndex := s.successor tracks }
        (trackAt tracks (s.successor tracks)).metadata.id s.status.state world with
      ⟨error, heq, hrefused⟩ | ⟨source, message, heq⟩ | ⟨hlt, hworld, hstart, heq⟩
    · have hrefuses : world.refusesTrack = true := by
        rcases hrefused with hnone | hrefuses
        · have hfound : find tracks (trackAt tracks (s.successor tracks)).metadata.id < tracks.length :=
            find_lt hsuccessor
          omega
        · exact hrefuses
      have hsame : s.successor tracks = s.currentIndex :=
        successor_eq hnamed.index fun htwo => hsplits (.inl ⟨hactive, htwo, hrefuses⟩)
      refine Eq.mpr (congrArg (Keeps tracks s) heq) ?_
      rw [hsame]
      exact h.refuse error
    · exact Eq.mpr (congrArg (Keeps tracks s) heq) (keeps_fault s _ message message)
    · refine Eq.mpr (congrArg (Keeps tracks s) heq) (started_keeps s _ hlt ?_)
      intro hpaused
      rw [find_track hlt]
      exact Decidable.byContradiction fun hsaved => hsplits (.inr ⟨hpaused, hworld, hstart hpaused, hsaved⟩)

theorem drainMessage_together (s : GstreamerMediaPlayer) (message : BusMessage) :
    Together tracks (s.drainMessage message) := by
  cases message with
  | eos => exact Together.of_inactive rfl
  | error message => exact Together.of_fault s _

theorem drainBus_together (h : Together tracks s) (messages : List BusMessage) :
    Together tracks (s.drainBus messages) := by
  unfold drainBus
  split
  · clear ‹s.pipeline = true›
    induction messages generalizing s with
    | nil => exact h
    | cons message messages ih => exact ih (drainMessage_together s message)
  · exact h

/-- And any other command. -/
theorem step_keeps (h : Together tracks s) (command : MediaCommand) (hsplits : ¬ Splits tracks s command) :
    Keeps tracks s (step tracks s command) := by
  cases command with
  | play trackId world => exact play_keeps h trackId world
  | pause world => exact pause_keeps h world hsplits
  | resume world => exact resume_keeps h world
  | stop world => exact stop_keeps h world
  | next world => exact next_keeps h world hsplits
  | status world => exact ⟨drainBus_together h world.bus, nofun⟩

/-! ## The law holds -/

theorem make_together (pipeline sink : Bool) : Together tracks (make pipeline sink) := by
  unfold make
  split <;> exact Together.of_inactive rfl

variable {world : GstreamerWorld}

theorem resume_ok (h : Together tracks s) (hok : (s.resume tracks world).2.ok = true) :
    s.status.state = .paused ∧
    (s.resume tracks world).1.status.currentTrackId = s.status.currentTrackId ∧
    (s.resume tracks world).2.seekMs = if 0 < s.pausedPositionMs then some s.pausedPositionMs else none := by
  revert hok
  unfold resume
  split
  · nofun
  · rename_i hstate
    have hpaused : s.status.state = .paused := Decidable.not_not.mp hstate
    have hnamed := h.named (by simp [isActive, hpaused])
    dsimp only
    rcases playUnlocked_cases tracks s (trackAt tracks s.currentIndex).metadata.id .playing world with
      ⟨error, heq, -⟩ | ⟨source, message, heq⟩ | ⟨hlt, -, -, heq⟩
    · rw [heq]
      nofun
    · rw [heq]
      nofun
    · rw [heq]
      dsimp only
      rw [if_neg (by decide)]
      split
      · nofun
      · intro _
        refine ⟨hpaused, ?_, rfl⟩
        exact (find_track hlt).trans hnamed.track

theorem next_ok (hok : (s.next tracks world).2.ok = true) :
    s.isActive = true ∧ (s.next tracks world).1.status.currentTrackId =
      (trackAt tracks ((s.currentIndex + 1) % tracks.length)).metadata.id := by
  revert hok
  unfold next
  split
  · nofun
  · rename_i hstate
    have hactive : s.isActive = true := by
      cases hplaying : s.status.state <;> simp_all [isActive]
    split
    · nofun
    · dsimp only
      rcases playUnlocked_cases tracks { s with currentIndex := (s.currentIndex + 1) % tracks.length }
          (trackAt tracks ((s.currentIndex + 1) % tracks.length)).metadata.id s.status.state world with
        ⟨error, heq, -⟩ | ⟨source, message, heq⟩ | ⟨hlt, -, -, heq⟩
      · rw [heq]
        nofun
      · rw [heq]
        nofun
      · rw [heq]
        exact fun _ => ⟨hactive, find_track hlt⟩

/-- **The commands are atomic in every run in which none of them moves one of the three copies by itself.** -/
theorem commands_atomic (tracks : List MediaManifestTrack) (pipeline sink : Bool) (commands : List MediaCommand)
    (h : Along (step tracks) (fun s command => ¬ Splits tracks s command) (make pipeline sink) commands) :
    CommandsAtomic tracks pipeline sink commands := by
  have hstep : ∀ s command, Together tracks s → ¬ Splits tracks s command → Together tracks (step tracks s command).1 :=
    fun s command hs hsplits => (step_keeps hs command hsplits).together
  have htogether : ∀ before rest, commands = before ++ rest → Together tracks (after tracks pipeline sink before) := by
    rintro before rest rfl
    exact Along.invariant hstep (make_together pipeline sink) ((along_append _ before rest).mp h).1
  constructor
  case named => exact (htogether commands [] (append_nil _).symm).named
  case resumed =>
    intro before world rest hsplit hok
    exact (resume_ok (htogether before _ hsplit) hok).2.1
  case moved =>
    intro before world rest hsplit hok
    obtain ⟨hactive, hmoved⟩ := next_ok hok
    exact ⟨(htogether before _ hsplit).named hactive, hmoved⟩
  case failed =>
    intro before command rest hsplit hfailed
    exact (step_keeps (htogether before _ hsplit) command
      (along_iff_split.mp h before command rest hsplit)).failed hfailed
  case position =>
    intro before world rest hsplit hok positionMs hlast
    have hbefore := htogether before _ hsplit
    obtain ⟨hpaused, -, hseek⟩ := resume_ok hbefore hok
    have hsaved := hbefore.saved hpaused
    rw [hlast, Option.getD_some] at hsaved
    rw [hsaved]
    exact hseek

def exampleTracks : List MediaManifestTrack := [{ metadata := { id := "a" } }, { metadata := { id := "b" } }]

theorem commands_atomic_twoTracks :
    Along (step exampleTracks) (fun s command => ¬ Splits exampleTracks s command) (make true true)
      [.play "a" {}, .pause { position := some 3000000 }, .resume {}, .next {}] ∧
    CommandsAtomic exampleTracks true true
      [.play "a" {}, .pause { position := some 3000000 }, .resume {}, .next {}] :=
  ⟨by decide +kernel, commands_atomic exampleTracks true true _ (by decide +kernel)⟩

/-! ## Where it does not -/

/-- The index is at the next track and the status at this one. -/
theorem not_named_of_next (h : Together tracks s) (hids : (tracks.map fun track => track.metadata.id).Nodup)
    (hactive : s.isActive = true) (htwo : 2 ≤ tracks.length) (hrefuses : world.refusesTrack = true) :
    (s.next tracks world).2.ok = false ∧ (s.next tracks world).1.isActive = true ∧
      ¬ Named tracks (s.next tracks world).1 := by
  have hnamed := h.named hactive
  have hindex := hnamed.index
  have hsuccessor : (s.currentIndex + 1) % tracks.length < tracks.length := Nat.mod_lt _ (by omega)
  have hne : (s.currentIndex + 1) % tracks.length ≠ s.currentIndex := by
    by_cases hlast : s.currentIndex + 1 = tracks.length
    · rw [hlast, Nat.mod_self]
      omega
    · rw [Nat.mod_eq_of_lt (by omega)]
      omega
  have hnext : s.next tracks world =
      ({ s with currentIndex := (s.currentIndex + 1) % tracks.length } : GstreamerMediaPlayer).playUnlocked tracks
        (trackAt tracks ((s.currentIndex + 1) % tracks.length)).metadata.id s.status.state world := by
    unfold next
    have hstate : ¬ (s.status.state ≠ .playing && s.status.state ≠ .paused) = true := by
      cases hplaying : s.status.state <;> simp_all [isActive]
    rw [if_neg hstate, if_neg (by rw [isEmpty_iff_length_eq_zero]; omega)]
  have hrefuse : ∃ error, s.next tracks world =
      ({ s with currentIndex := (s.currentIndex + 1) % tracks.length } : GstreamerMediaPlayer).refuse error := by
    rw [hnext]
    unfold playUnlocked
    dsimp only
    split
    · exact ⟨_, rfl⟩
    · cases huri : world.uri with
      | none => exact ⟨_, rfl⟩
      | some uri =>
        simp only [GstreamerWorld.refusesTrack, huri, Option.isNone_some, Bool.false_or] at hrefuses
        dsimp only
        rw [if_pos hrefuses]
        exact ⟨_, rfl⟩
  obtain ⟨error, heq⟩ := hrefuse
  rw [heq]
  refine ⟨rfl, hactive, fun hstill => hne ?_⟩
  -- the track at the new index would have the name of the old one
  have hsame : (trackAt tracks ((s.currentIndex + 1) % tracks.length)).metadata.id =
      (trackAt tracks s.currentIndex).metadata.id := hstill.track.trans hnamed.track.symm
  have hget : ∀ {index : Nat} (hlt : index < (tracks.map fun track => track.metadata.id).length),
      (trackAt tracks index).metadata.id = (tracks.map fun track => track.metadata.id)[index] := by
    intro index hlt
    rw [length_map] at hlt
    rw [getElem_map, trackAt, getD_eq_getElem?_getD, List.getElem?_eq_getElem hlt, Option.getD_some]
  rw [hget (by rw [length_map]; exact hsuccessor), hget (by rw [length_map]; exact hindex)] at hsame
  exact (List.Nodup.getElem_inj_iff hids).mp hsame

/-- The saved position is another one. -/
theorem not_unchanged_of_pause (hplaying : s.status.state = .playing)
    (hhalt : setStateAndWait .null world.halt = false) (hpos : s.positionToSave world ≠ s.pausedPositionMs) :
    (s.pause world).2.ok = false ∧ ¬ Unchanged s (s.pause world).1 ∧
      (s.pause world).1.status.state ≠ .faulted := by
  have hpause : s.pause world =
      ({ s with pausedPositionMs := s.positionToSave world } : GstreamerMediaPlayer).refuse
        "GStreamer failed to pause media playback" := by
    unfold pause
    rw [if_neg (Decidable.not_not.mpr hplaying)]
    dsimp only
    rw [hhalt, if_pos Bool.not_false]
  rw [hpause]
  refine ⟨rfl, fun h => hpos h.position, ?_⟩
  show s.status.state ≠ .faulted
  rw [hplaying]
  decide

theorem not_commands_atomic :
    ¬ ∀ tracks commands, tracks ≠ [] → CommandsAtomic tracks true true commands := by
  intro h
  have hatomic := h exampleTracks [.play "a" {}, .next { uri := none }] (cons_ne_nil _ _)
  have hnamed := hatomic.named (by decide +kernel)
  exact absurd hnamed.track (by decide +kernel)

end GstreamerMediaPlayer

end Cockpit.Media
