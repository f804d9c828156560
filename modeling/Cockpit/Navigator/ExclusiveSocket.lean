/-
  The Navigator's socket has one listener. Each failure of `Open` that goes through `Close` leaves nothing
  behind; that of `socket()` returns with the lock.
-/
import Cockpit.Navigator.IpcConnector

namespace Cockpit.Navigator

open StepRun IpcSystem

/-! ## The law -/

/-- No descriptor is open, and the process does not have the lock. -/
structure IpcConnector.HasNothing (i : Nat) (files : SocketFiles) (c : IpcConnector) : Prop where
  socketFd : c.socketFd = false
  probeFd : c.probeFd = false
  lockFd : c.lockFd = false
  lock : files.lock ≠ some i

/-- What holds of the processes after the calls. -/
structure ExclusiveSocket (socketPath : String) (node : PathNode) (calls : List IpcCall) : Prop where
  /-- A dead process does not listen. -/
  one : ∀ i j, ((after socketPath node calls).connectors i).listening = true →
    ((after socketPath node calls).connectors j).listening = true → i = j
  unlinks : ∀ before call rest removed, calls = before ++ call :: rest →
    (step socketPath (after socketPath node before) call).2 = some (.unlinked removed) →
    (∃ id, removed = .socket id) ∧
    ∀ j, j ≠ call.process → ((after socketPath node before).connectors j).listening = false
  refused : ∀ before call rest error, calls = before ++ call :: rest →
    (step socketPath (after socketPath node before) call).2 = some (.openReturned (.error error)) →
    ((after socketPath node (before ++ [call])).connectors call.process).HasNothing call.process
      (after socketPath node (before ++ [call])).files

/-- `socket()` fails in this step. -/
def SocketFails (s : IpcSystem) (call : IpcCall) : Prop :=
  match call.action with
  | .run outcome => (s.connectors call.process).place = .socket ∧ outcome.error ≠ none
  | _ => False

/-! ## What a connector has -/

namespace ConnectorPlace

/-- Only with the lock. -/
@[simp] def isLocked : ConnectorPlace → Bool
  | closeInspect _ | closeUnlink _ | socket | inspect | probeSocket | probeConnect | probeClose _ | unlinkStale
  | bind | inspectCreated | listen => true
  | _ => false

/-- There is a socket at the path. -/
@[simp] def seesSocket : ConnectorPlace → Bool
  | closeUnlink _ | probeSocket | probeConnect | probeClose _ | unlinkStale => true
  | _ => false

@[simp] def isOpened : ConnectorPlace → Bool
  | inspect | probeSocket | probeConnect | probeClose _ | unlinkStale | bind | inspectCreated | listen => true
  | _ => false

@[simp] def isClosed : ConnectorPlace → Bool
  | closeInspect _ | closeUnlink _ | closeLock _ | openLock | flock | socket => true
  | _ => false

@[simp] def isRemoved : ConnectorPlace → Bool
  | closeLock _ => true
  | _ => false

@[simp] def isProbing : ConnectorPlace → Bool
  | probeConnect | probeClose _ => true
  | _ => false

@[simp] def isLocking : ConnectorPlace → Bool
  | flock => true
  | _ => false

@[simp] def isUnlocked : ConnectorPlace → Bool
  | openLock => true
  | _ => false

end ConnectorPlace

/-- What the process `i` has, by where it is. -/
structure Owns (i : Nat) (files : SocketFiles) (c : IpcConnector) : Prop where
  locked : c.place.isLocked = true → files.lock = some i
  socketFd : c.socketFd = true → files.lock = some i
  socketPath : c.socketPath = true → files.lock = some i
  listening : c.listening = true → c.socketFd = true
  lockFd : files.lock = some i → c.lockFd = true
  sees : c.place.seesSocket = true → ∃ id, files.node = .socket id
  opened : c.place.isOpened = true → c.socketFd = true
  closed : c.place.isClosed = true → c.socketFd = false
  removed : c.place.isRemoved = true → c.socketPath = false
  probing : c.probeFd = true → c.place.isProbing = true
  locking : c.place.isLocking = true → c.lockFd = true
  unlocked : c.place.isUnlocked = true → c.lockFd = false

/-- What a step of the process `i` is allowed. -/
structure Fair (i : Nat) (files : SocketFiles) (c : IpcConnector) (next : ConnectorStep) : Prop where
  owns : Owns i next.1 next.2.1
  /-- What another one has locked stays as it is, and nobody gets the lock from outside. -/
  locked : ∀ j, j ≠ i → files.lock = some j → next.1 = files
  unlocked : ∀ j, j ≠ i → next.1.lock = some j → files.lock = some j
  unlinked : ∀ node, next.2.2 = some (.unlinked node) → files.lock = some i ∧ ∃ id, node = .socket id
  returned : ∀ error, next.2.2 = some (.openReturned (.error error)) → c.place ≠ .socket →
    next.2.1.HasNothing i next.1

namespace IpcConnector

variable {i : Nat} {files : SocketFiles} {c : IpcConnector}

variable {c' : IpcConnector}

theorem goTo_fair {place : ConnectorPlace} (hc : Owns i files { c' with place }) :
    Fair i files c (c'.goTo files place) :=
  ⟨hc, fun _ _ _ => rfl, fun _ _ => id, nofun, nofun⟩

theorem fail_fair {error : OpenError} (hc : Owns i files { c' with place := .closeSocket (.fails error) }) :
    Fair i files c (c'.fail files error) :=
  goTo_fair hc

variable {behind : CloseBehind}

theorem closeSocketStep_fair (h : Owns i files c) (hplace : c.place = .closeSocket behind) :
    Fair i files c (c.closeSocketStep files behind) := by
  have hprobe := h.probing
  have hpath := h.socketPath
  have hlock := h.lockFd
  unfold closeSocketStep
  apply goTo_fair
  split <;> constructor <;> simp_all

theorem closeInspectStep_fair (h : Owns i files c) (outcome : CallOutcome) (hplace : c.place = .closeInspect behind) :
    Fair i files c (c.closeInspectStep files behind outcome) := by
  obtain ⟨hlocked, hsocketFd, hpath, hlistening, hlockFd, hsees, hopened, hclosed, hremoved, hprobing, -, -⟩ := h
  unfold closeInspectStep
  split
  all_goals
    apply goTo_fair
    constructor <;> simp_all

theorem closeUnlinkStep_fair (h : Owns i files c) (outcome : CallOutcome) (hplace : c.place = .closeUnlink behind) :
    Fair i files c (c.closeUnlinkStep files behind outcome) := by
  obtain ⟨hlocked, hsocketFd, hpath, hlistening, hlockFd, hsees, hopened, hclosed, hremoved, hprobing, -, -⟩ := h
  have hlock : files.lock = some i := hlocked (by rw [hplace]; rfl)
  obtain ⟨id, hnode⟩ := hsees (by rw [hplace]; rfl)
  unfold closeUnlinkStep
  rw [hnode]
  cases outcome.error with
  | none =>
    refine ⟨?_, ?_, ?_, ?_, nofun⟩
    · constructor <;> simp_all [removed]
    · intro j hj hother
      exact absurd (Option.some.inj (hother.symm.trans hlock)) hj
    · exact fun _ _ => fun h => h
    · rintro node ⟨⟩
      exact ⟨hlock, id, hnode⟩
  | some errno =>
    refine ⟨?_, fun _ _ _ => rfl, fun _ _ => fun h => h, nofun, nofun⟩
    constructor <;> simp_all

theorem released_lock (files : SocketFiles) : (released files i).lock ≠ some i := by
  unfold released
  dsimp only
  split
  · nofun
  · assumption

theorem released_of_ne (h : files.lock ≠ some i) : released files i = files := by
  unfold released
  rw [if_neg h]

theorem released_other {j : Nat} (hj : j ≠ i) (h : files.lock = some j) : released files i = files :=
  released_of_ne fun hi => hj (Option.some.inj (h.symm.trans hi))

theorem released_inv {j : Nat} (h : (released files i).lock = some j) : files.lock = some j := by
  unfold released at h
  dsimp only at h
  split at h
  · cases h
  · exact h

section

variable (h : Owns i files c)
include h

theorem closeLockStep_fair (socketPath : String) (hplace : c.place = .closeLock behind) :
    Fair i files c (closeLockStep socketPath c files i behind) := by
  have hsocketFd : c.socketFd = false := h.closed (by rw [hplace]; rfl)
  have hpath : c.socketPath = false := h.removed (by rw [hplace]; rfl)
  have hlistening : c.listening = false := by
    cases hc : c.listening with
    | false => rfl
    | true => rw [h.listening hc] at hsocketFd; cases hsocketFd
  have hprobe : c.probeFd = false := by
    cases hc : c.probeFd with
    | false => rfl
    | true => have := h.probing hc; rw [hplace] at this; cases this
  -- without the descriptor there was no lock
  have hfiles : (if c.lockFd then released files i else files) = released files i := by
    split
    · rfl
    · rename_i hclosed
      exact (released_of_ne fun hlock => hclosed (h.lockFd hlock)).symm
  have hlock : (released files i).lock ≠ some i := released_lock files
  have howns : ∀ place : ConnectorPlace, place = .idle ∨ place = .openLock →
      Owns i (released files i) { c with socketId := {}, lockFd := false, place } := by
    rintro place (rfl | rfl) <;> constructor <;> simp_all
  have hnothing : HasNothing i (released files i) { c with socketId := {}, lockFd := false, place := .idle } :=
    ⟨hsocketFd, hprobe, rfl, hlock⟩
  have hother : ∀ j, j ≠ i → files.lock = some j → released files i = files := fun _ hj => released_other hj
  have hinv : ∀ j, j ≠ i → (released files i).lock = some j → files.lock = some j := fun _ _ => released_inv
  unfold closeLockStep
  rw [hfiles]
  cases behind with
  | returns => exact ⟨howns _ (.inl rfl), hother, hinv, nofun, nofun⟩
  | fails error => exact ⟨howns _ (.inl rfl), hother, hinv, nofun, fun _ _ _ => hnothing⟩
  | opens =>
    dsimp only
    split
    · exact ⟨howns _ (.inr rfl), hother, hinv, nofun, nofun⟩
    · exact ⟨howns _ (.inl rfl), hother, hinv, nofun, fun _ _ _ => hnothing⟩

theorem openLockStep_fair (outcome : CallOutcome) (hplace : c.place = .openLock) :
    Fair i files c (c.openLockStep files outcome) := by
  have hlockFd : c.lockFd = false := h.unlocked (by rw [hplace]; rfl)
  have hlock : files.lock ≠ some i := fun hlock => by
    rw [h.lockFd hlock] at hlockFd
    cases hlockFd
  have hsocketFd : c.socketFd = false := h.closed (by rw [hplace]; rfl)
  obtain ⟨-, -, hpath, hlistening, -, -, hopened, -, -, hprobing, -, -⟩ := h
  unfold openLockStep
  split
  · apply goTo_fair
    constructor <;> simp_all
  · refine ⟨?_, fun _ _ _ => rfl, fun _ _ h => h, nofun, fun _ _ _ => ⟨hsocketFd, ?_, hlockFd, hlock⟩⟩
    · constructor <;> simp_all [finish]
    · simpa [hplace, finish] using hprobing

theorem flockStep_fair (outcome : CallOutcome) (hplace : c.place = .flock) :
    Fair i files c (c.flockStep files i outcome) := by
  obtain ⟨-, hsocketFd, hpath, hlistening, hlockFd, -, hopened, hclosed, -, hprobing, hlocking, -⟩ := h
  unfold flockStep
  split
  · split
    · rename_i hfree
      refine ⟨?_, ?_, ?_, nofun, nofun⟩
      · constructor <;> simp_all [goTo]
      · intro j _ hother
        rw [hfree] at hother
        cases hother
      · intro j hj hother
        exact absurd (Option.some.inj hother).symm hj
    · apply fail_fair
      constructor <;> simp_all
  · apply fail_fair
    constructor <;> simp_all

theorem socketStep_fair (outcome : CallOutcome) (hplace : c.place = .socket) :
    Fair i files c (c.socketStep files outcome) := by
  obtain ⟨hlocked, hsocketFd, hpath, hlistening, hlockFd, -, hopened, hclosed, -, hprobing, -, -⟩ := h
  unfold socketStep
  split
  · apply goTo_fair
    constructor <;> simp_all
  · refine ⟨?_, fun _ _ _ => rfl, fun _ _ h => h, nofun, fun _ _ hnot => absurd hplace hnot⟩
    constructor <;> simp_all [finish]

theorem inspectStep_fair (outcome : CallOutcome) (hplace : c.place = .inspect) :
    Fair i files c (c.inspectStep files outcome) := by
  obtain ⟨hlocked, hsocketFd, hpath, hlistening, hlockFd, -, hopened, -, -, hprobing, -, -⟩ := h
  unfold inspectStep
  split
  · apply goTo_fair
    constructor <;> simp_all
  · apply goTo_fair
    constructor <;> simp_all
  · apply fail_fair
    constructor <;> simp_all
  · split
    · apply goTo_fair
      constructor <;> simp_all
    · apply fail_fair
      constructor <;> simp_all

theorem probeSocketStep_fair (outcome : CallOutcome) (hplace : c.place = .probeSocket) :
    Fair i files c (c.probeSocketStep files outcome) := by
  obtain ⟨hlocked, hsocketFd, hpath, hlistening, hlockFd, hsees, hopened, -, -, hprobing, -, -⟩ := h
  unfold probeSocketStep
  split
  · apply goTo_fair
    constructor <;> simp_all
  · apply fail_fair
    constructor <;> simp_all

theorem probeConnectStep_fair (outcome : CallOutcome) (hplace : c.place = .probeConnect) :
    Fair i files c (c.probeConnectStep files outcome) := by
  obtain ⟨hlocked, hsocketFd, hpath, hlistening, hlockFd, hsees, hopened, -, -, -, -, -⟩ := h
  apply goTo_fair
  constructor <;> simp_all

theorem probeCloseStep_fair {connected : Except Nat Unit}
    (hplace : c.place = .probeClose connected) : Fair i files c (c.probeCloseStep files connected) := by
  obtain ⟨hlocked, hsocketFd, hpath, hlistening, hlockFd, hsees, hopened, -, -, -, -, -⟩ := h
  unfold probeCloseStep
  split
  · apply fail_fair
    constructor <;> simp_all
  · split
    · apply goTo_fair
      constructor <;> simp_all
    · apply fail_fair
      constructor <;> simp_all

theorem unlinkStaleStep_fair (outcome : CallOutcome) (hplace : c.place = .unlinkStale) :
    Fair i files c (c.unlinkStaleStep files outcome) := by
  obtain ⟨hlocked, hsocketFd, hpath, hlistening, hlockFd, hsees, hopened, -, -, hprobing, -, -⟩ := h
  have hlock : files.lock = some i := hlocked (by rw [hplace]; rfl)
  obtain ⟨id, hnode⟩ := hsees (by rw [hplace]; rfl)
  unfold unlinkStaleStep
  rw [hnode]
  cases outcome.error with
  | none =>
    refine ⟨?_, ?_, fun _ _ h => h, ?_, nofun⟩
    · constructor <;> simp_all [removed]
    · intro j hj hother
      exact absurd (Option.some.inj (hother.symm.trans hlock)) hj
    · rintro node ⟨⟩
      exact ⟨hlock, id, hnode⟩
  | some errno =>
    apply fail_fair
    constructor <;> simp_all

theorem bindStep_fair (outcome : CallOutcome) (hplace : c.place = .bind) :
    Fair i files c (c.bindStep files outcome) := by
  obtain ⟨hlocked, hsocketFd, hpath, hlistening, hlockFd, -, hopened, -, -, hprobing, -, -⟩ := h
  have hlock : files.lock = some i := hlocked (by rw [hplace]; rfl)
  unfold bindStep
  split
  · split
    · refine ⟨?_, ?_, fun _ _ h => h, nofun, nofun⟩
      · constructor <;> simp_all [goTo]
      · intro j hj hother
        exact absurd (Option.some.inj (hother.symm.trans hlock)) hj
    · apply fail_fair
      constructor <;> simp_all
  · apply fail_fair
    constructor <;> simp_all

theorem inspectCreatedStep_fair (outcome : CallOutcome) (hplace : c.place = .inspectCreated) :
    Fair i files c (c.inspectCreatedStep files outcome) := by
  obtain ⟨hlocked, hsocketFd, hpath, hlistening, hlockFd, -, hopened, -, -, hprobing, -, -⟩ := h
  unfold inspectCreatedStep
  split
  · apply goTo_fair
    constructor <;> simp_all
  · apply fail_fair
    constructor <;> simp_all
  · apply fail_fair
    constructor <;> simp_all

theorem listenStep_fair (outcome : CallOutcome)
    (hplace : c.place = .listen) : Fair i files c (c.listenStep files outcome) := by
  obtain ⟨hlocked, hsocketFd, hpath, hlistening, hlockFd, -, hopened, -, -, hprobing, -, -⟩ := h
  unfold listenStep
  split
  · refine ⟨?_, fun _ _ _ => rfl, fun _ _ h => h, nofun, nofun⟩
    constructor <;> simp_all [finish]
  · apply fail_fair
    constructor <;> simp_all

theorem stay_fair : Fair i files c (files, c, none) :=
  ⟨h, fun _ _ _ => rfl, fun _ _ h => h, nofun, nofun⟩

theorem begin_fair (behind : CloseBehind) : Fair i files c (c.begin files behind) := by
  unfold begin
  split
  · rename_i hplace
    obtain ⟨-, hsocketFd, hpath, hlistening, hlockFd, -, -, -, -, hprobing, -, -⟩ := h
    apply goTo_fair
    constructor <;> simp_all
  · exact stay_fair h

end

theorem die_fair (i : Nat) (files : SocketFiles) (c : IpcConnector) : Fair i files c (die files i) := by
  refine ⟨?_, fun _ hj => released_other hj, fun _ _ => released_inv, nofun, nofun⟩
  have hlock : (released files i).lock ≠ some i := released_lock files
  constructor <;> simp_all [die]

theorem run_fair (h : Owns i files c) (socketPath : String) (outcome : CallOutcome) :
    Fair i files c (c.run socketPath files i outcome) := by
  unfold run
  cases hplace : c.place with
  | idle | dead => exact stay_fair h
  | closeSocket behind => exact closeSocketStep_fair h hplace
  | closeInspect behind => exact closeInspectStep_fair h outcome hplace
  | closeUnlink behind => exact closeUnlinkStep_fair h outcome hplace
  | closeLock behind => exact closeLockStep_fair h socketPath hplace
  | openLock => exact openLockStep_fair h outcome hplace
  | flock => exact flockStep_fair h outcome hplace
  | socket => exact socketStep_fair h outcome hplace
  | inspect => exact inspectStep_fair h outcome hplace
  | probeSocket => exact probeSocketStep_fair h outcome hplace
  | probeConnect => exact probeConnectStep_fair h outcome hplace
  | probeClose connected => exact probeCloseStep_fair h hplace
  | unlinkStale => exact unlinkStaleStep_fair h outcome hplace
  | bind => exact bindStep_fair h outcome hplace
  | inspectCreated => exact inspectCreatedStep_fair h outcome hplace
  | listen => exact listenStep_fair h outcome hplace

theorem Owns.other {j : Nat} (hj : j ≠ i) (h : Owns j files c') {next : ConnectorStep} (hfair : Fair i files c next) :
    Owns j next.1 c' := by
  have hsame : files.lock = some j → next.1 = files := hfair.locked j hj
  constructor
  case locked =>
    intro hc
    rw [hsame (h.locked hc)]
    exact h.locked hc
  case socketFd =>
    intro hc
    rw [hsame (h.socketFd hc)]
    exact h.socketFd hc
  case socketPath =>
    intro hc
    rw [hsame (h.socketPath hc)]
    exact h.socketPath hc
  case listening => exact h.listening
  case lockFd => exact fun hlock => h.lockFd (hfair.unlocked j hj hlock)
  case sees =>
    intro hc
    have hlocked : c'.place.isLocked = true := by
      cases hplace : c'.place <;> simp [hplace] at hc ⊢
    rw [hsame (h.locked hlocked)]
    exact h.sees hc
  case opened => exact h.opened
  case closed => exact h.closed
  case removed => exact h.removed
  case probing => exact h.probing
  case locking => exact h.locking
  case unlocked => exact h.unlocked

end IpcConnector

/-! ## All processes -/

namespace IpcSystem

variable {s : IpcSystem} {socketPath : String} {node : PathNode}

/-- Everything at the path is done under the lock. -/
def Owned (s : IpcSystem) : Prop := ∀ i, Owns i s.files (s.connectors i)

theorem start_owned (node : PathNode) : (start node).Owned := by
  intro i
  constructor <;> simp [start]

theorem connectorStep_fair (h : s.Owned) (socketPath : String) (call : IpcCall) :
    Fair call.process s.files (s.connectors call.process) (s.connectorStep socketPath call) := by
  unfold connectorStep
  cases call.action with
  | callOpen => exact IpcConnector.begin_fair (h call.process) .opens
  | callClose => exact IpcConnector.begin_fair (h call.process) .returns
  | run outcome => exact IpcConnector.run_fair (h call.process) socketPath outcome
  | die => exact IpcConnector.die_fair call.process s.files (s.connectors call.process)

/-- Every step keeps the ownership, of whatever process. -/
theorem step_owned (h : s.Owned) (socketPath : String) (call : IpcCall) : (step socketPath s call).1.Owned := by
  have hfair := connectorStep_fair h socketPath call
  intro j
  by_cases hj : j = call.process
  · subst hj
    simpa [step] using hfair.owns
  · have hsame : (step socketPath s call).1.connectors j = s.connectors j := by simp [step, hj]
    rw [hsame]
    exact IpcConnector.Owns.other hj (h j) hfair

theorem after_owned (socketPath : String) (node : PathNode) (calls : List IpcCall) :
    (after socketPath node calls).Owned := by
  have hstep : ∀ (s : IpcSystem) (call : IpcCall), s.Owned → (step socketPath s call).1.Owned :=
    fun _ call h => step_owned h socketPath call
  exact run_invariant hstep (start_owned node) calls

theorem lock_of_listening (h : s.Owned) {i : Nat} (hi : (s.connectors i).listening = true) : s.files.lock = some i :=
  (h i).socketFd ((h i).listening hi)

theorem after_snoc (before : List IpcCall) (call : IpcCall) :
    after socketPath node (before ++ [call]) = (step socketPath (after socketPath node before) call).1 :=
  run_append _ before [call]

/-- **A failed `socket()` returns with the lock**, and the descriptor of its file. -/
theorem keeps_lock_of_socket (h : s.Owned) {call : IpcCall} (hfails : SocketFails s call) :
    (∃ error, (step socketPath s call).2 = some (.openReturned (.error error))) ∧
    ((step socketPath s call).1.connectors call.process).lockFd = true ∧
    (step socketPath s call).1.files.lock = some call.process := by
  unfold SocketFails at hfails
  split at hfails
  · rename_i outcome haction
    obtain ⟨hplace, houtcome⟩ := hfails
    have hlock : s.files.lock = some call.process := (h call.process).locked (by rw [hplace]; rfl)
    have hlockFd := (h call.process).lockFd hlock
    cases herror : outcome.error with
    | none => exact absurd herror houtcome
    | some errno =>
      have hstep : s.connectorStep socketPath call =
          (s.connectors call.process).finish s.files (.openReturned (.error (.socket errno))) := by
        simp [connectorStep, haction, IpcConnector.run, hplace, IpcConnector.socketStep, herror]
      refine ⟨⟨.socket errno, ?_⟩, ?_, ?_⟩
      · simp [step, hstep, IpcConnector.finish]
      · simp [step, hstep, IpcConnector.finish, hlockFd]
      · simp [step, hstep, IpcConnector.finish, hlock]
  · exact absurd hfails id

theorem hasNothing_of_returned (h : s.Owned) {call : IpcCall} (hnot : ¬ SocketFails s call) {error : OpenError}
    (hret : (step socketPath s call).2 = some (.openReturned (.error error))) :
    ((step socketPath s call).1.connectors call.process).HasNothing call.process (step socketPath s call).1.files := by
  have hfair := connectorStep_fair h socketPath call
  have hplace : (s.connectors call.process).place ≠ .socket := by
    intro hplace
    have hevent : (s.connectorStep socketPath call).2.2 = some (.openReturned (.error error)) := hret
    unfold connectorStep at hevent
    cases haction : call.action with
    | callOpen | callClose => simp [haction, IpcConnector.begin, hplace] at hevent
    | die => simp [haction, IpcConnector.die] at hevent
    | run outcome =>
      cases herror : outcome.error with
      | none =>
        simp [haction, IpcConnector.run, hplace, IpcConnector.socketStep, herror, IpcConnector.goTo] at hevent
      | some errno => exact hnot (by simp [SocketFails, haction, hplace, herror])
  simpa [step] using hfair.returned error hret hplace

/-- **The socket is exclusive in the runs in which no `socket()` of an `Open` fails, and in no others.** -/
theorem exclusive_iff (socketPath : String) (node : PathNode) (calls : List IpcCall) :
    ExclusiveSocket socketPath node calls ↔
      Along (step socketPath) (fun s call => ¬ SocketFails s call) (start node) calls := by
  constructor <;> intro h
  · rw [along_iff_split]
    intro before call rest hsplit hfails
    obtain ⟨⟨error, hret⟩, hlockFd, -⟩ := keeps_lock_of_socket (after_owned socketPath node before) hfails
    have hnothing := h.refused before call rest error hsplit hret
    rw [after_snoc] at hnothing
    cases hlockFd.symm.trans hnothing.lockFd
  · constructor
    case one =>
      intro i j hi hj
      have howned := after_owned socketPath node calls
      exact Option.some.inj ((lock_of_listening howned hi).symm.trans (lock_of_listening howned hj))
    case unlinks =>
      intro before call rest removed _ hunlinked
      have howned := after_owned socketPath node before
      obtain ⟨hlock, hsocket⟩ := (connectorStep_fair howned socketPath call).unlinked removed hunlinked
      refine ⟨hsocket, fun j hj => ?_⟩
      rw [Bool.eq_false_iff]
      intro hlistening
      exact hj (Option.some.inj ((lock_of_listening howned hlistening).symm.trans hlock))
    case refused =>
      intro before call rest error hsplit hret
      rw [after_snoc]
      exact hasNothing_of_returned (after_owned socketPath node before)
        (along_iff_split.mp h before call rest hsplit) hret

/-- `socket()` fails behind the lock. -/
def failedSocket : List IpcCall :=
  [⟨0, .callOpen⟩, ⟨0, .run {}⟩, ⟨0, .run {}⟩, ⟨0, .run {}⟩, ⟨0, .run {}⟩]

theorem not_exclusive : ¬ ∀ socketPath node calls, ExclusiveSocket socketPath node calls := by
  intro h
  have hnothing := (h "n" .absent (failedSocket ++ [⟨0, .run { error := some 24 }⟩])).refused failedSocket
    ⟨0, .run { error := some 24 }⟩ [] (.socket 24) rfl rfl
  exact hnothing.lock rfl

/-- And the next `Open`, of process 1, is refused. -/
example : (step "n" (after "n" .absent (failedSocket ++ [⟨0, .run { error := some 24 }⟩, ⟨1, .callOpen⟩,
    ⟨1, .run {}⟩, ⟨1, .run {}⟩, ⟨1, .run {}⟩, ⟨1, .run {}⟩, ⟨1, .run {}⟩])) ⟨1, .run {}⟩).2 =
    some (.openReturned (.error .owned)) := rfl

end IpcSystem

end Cockpit.Navigator
