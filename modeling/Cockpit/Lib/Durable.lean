/-
  Procedures that may be cut off at any operation.

  A procedure works on a durable state `σ` one operation after the other.  The environment says what becomes of
  each operation, so a procedure is a function of these answers; a label stands for one operation of one call,
  and the answers of different operations are independent.

  The second half is for states that remember the operations performed on them: what has ever been published,
  launched or removed is read off the log, and a property of the log follows from the same property of each
  operation in the state it was performed in.
-/

namespace Durable

/-- What becomes of one operation. -/
inductive Answer where
  | done
  | failed
  | crashed
  deriving DecidableEq

/-- How a procedure ends: with a value, with an error, or with the machine. -/
inductive Outcome (ε α : Type) where
  | returned (value : α)
  | failed (error : ε)
  | crashed
  deriving DecidableEq

/-- The procedure has come to its end. -/
def Outcome.isReturned {ε α : Type} : Outcome ε α → Bool
  | .returned _ => true
  | _ => false

/-- A procedure; it crashes only where one of its operations does. -/
structure Program (ℓ ε σ α : Type) where
  run : (ℓ → Answer) → σ → Outcome ε α × σ
  live : ∀ answers s, (run answers s).1 = .crashed → ∃ label, answers label = .crashed

variable {ℓ κ ε ε' σ α β : Type}

/-! ## Building procedures -/

namespace Program

def bind (p : Program ℓ ε σ α) (f : α → Program ℓ ε σ β) : Program ℓ ε σ β where
  run answers s :=
    match p.run answers s with
    | (.returned a, s') => (f a).run answers s'
    | (.failed e, s') => (.failed e, s')
    | (.crashed, s') => (.crashed, s')
  live answers s hcrash := by
    rcases hrun : p.run answers s with ⟨o, s'⟩
    simp only [hrun] at hcrash
    cases o with
    | returned a => exact (f a).live answers s' hcrash
    | failed e => exact absurd hcrash nofun
    | crashed => exact p.live answers s (by rw [hrun])

instance : Monad (Program ℓ ε σ) where
  pure a := { run := fun _ s => (.returned a, s), live := nofun }
  bind := bind

/-- Look at the state. -/
def get : Program ℓ ε σ σ where
  run _ s := (.returned s, s)
  live := nofun

/-- Change what is not durable: no operation, so nothing can cut it off. -/
def modify (f : σ → σ) : Program ℓ ε σ Unit where
  run _ s := (.returned (), f s)
  live := nofun

/-- Throw. -/
def fail (error : ε) : Program ℓ ε σ α where
  run _ s := (.failed error, s)
  live := nofun

/-- One operation, with its label, what it does when it is done, and the error the procedure sees when it
    failed. -/
def act (label : ℓ) (effect : σ → σ) (error : ε) : Program ℓ ε σ Unit where
  run answers s :=
    match answers label with
    | .done => (.returned (), effect s)
    | .failed => (.failed error, s)
    | .crashed => (.crashed, s)
  live answers s hcrash := by
    refine ⟨label, ?_⟩
    cases hans : answers label with
    | done => simp [hans] at hcrash
    | failed => simp [hans] at hcrash
    | crashed => rfl

/-- An operation that changes nothing. -/
def check (label : ℓ) (error : ε) : Program ℓ ε σ Unit := act label id error

/-- Throw unless a condition holds. -/
def require (cond : Bool) (error : ε) : Program ℓ ε σ Unit := if cond then pure () else fail error

/-- What was computed before, error or value. -/
def ofExcept : Except ε α → Program ℓ ε σ α
  | .ok a => pure a
  | .error e => fail e

/-- `try` and `catch`: the error is a value to go on with; a crash is not caught. -/
def attempt (p : Program ℓ ε σ α) : Program ℓ ε' σ (Except ε α) where
  run answers s :=
    match p.run answers s with
    | (.returned a, s') => (.returned (.ok a), s')
    | (.failed e, s') => (.returned (.error e), s')
    | (.crashed, s') => (.crashed, s')
  live answers s hcrash := by
    rcases hrun : p.run answers s with ⟨o, s'⟩
    cases o with
    | returned a => simp [hrun] at hcrash
    | failed e => simp [hrun] at hcrash
    | crashed => exact p.live answers s (by rw [hrun])

/-- On an error note it in the state, and rethrow. -/
def onFail (note : ε → σ → σ) (p : Program ℓ ε σ α) : Program ℓ ε σ α where
  run answers s :=
    match p.run answers s with
    | (.failed e, s') => (.failed e, note e s')
    | result => result
  live answers s hcrash := by
    rcases hrun : p.run answers s with ⟨o, s'⟩
    cases o with
    | returned a => simp [hrun] at hcrash
    | failed e => simp [hrun] at hcrash
    | crashed => exact p.live answers s (by rw [hrun])

/-- The same procedure as a part of another one, with its operations named there. -/
def relabel (f : κ → ℓ) (p : Program κ ε σ α) : Program ℓ ε σ α where
  run answers s := p.run (answers ∘ f) s
  live answers s hcrash := by
    obtain ⟨label, hlabel⟩ := p.live (answers ∘ f) s hcrash
    exact ⟨f label, hlabel⟩

/-- A procedure that runs on answers of its own, as in another process; nothing of its end ends this one. -/
def detached (answers : κ → Answer) (p : Program κ ε σ α) : Program ℓ ε' σ (Option (Except ε α)) where
  run _ s :=
    match p.run answers s with
    | (.returned a, s') => (.returned (some (.ok a)), s')
    | (.failed e, s') => (.returned (some (.error e)), s')
    | (.crashed, s') => (.returned none, s')
  live _ s hcrash := by
    rcases hrun : p.run answers s with ⟨o, s'⟩
    cases o <;> simp [hrun] at hcrash

/-- Under these answers the procedure returns from this state. -/
def Returns (p : Program ℓ ε σ α) (answers : ℓ → Answer) (s : σ) : Prop :=
  (p.run answers s).1.isReturned = true

theorem returns (p : Program ℓ Empty σ α) {answers : ℓ → Answer} (hlive : ∀ label, answers label ≠ .crashed) (s : σ) :
    ∃ a s', p.run answers s = (.returned a, s') := by
  rcases hrun : p.run answers s with ⟨o, s'⟩
  cases o with
  | returned a => exact ⟨a, s', rfl⟩
  | failed e => exact e.elim
  | crashed =>
    obtain ⟨label, hlabel⟩ := p.live answers s (by rw [hrun])
    exact absurd hlabel (hlive label)

section Run

variable (answers : ℓ → Answer) (s : σ)

/-- A sequence ends where its first part ends, unless that returns. -/
theorem run_bind (p : Program ℓ ε σ α) (f : α → Program ℓ ε σ β) :
    (p >>= f).run answers s = match p.run answers s with
      | (.returned a, s') => (f a).run answers s'
      | (.failed e, s') => (.failed e, s')
      | (.crashed, s') => (.crashed, s') := rfl

theorem run_act (label : ℓ) (effect : σ → σ) (error : ε) :
    (act label effect error).run answers s = match answers label with
      | .done => (.returned (), effect s)
      | .failed => (.failed error, s)
      | .crashed => (.crashed, s) := rfl

theorem run_attempt (p : Program ℓ ε σ α) :
    (attempt p : Program ℓ ε' σ _).run answers s = match p.run answers s with
      | (.returned a, s') => (.returned (.ok a), s')
      | (.failed e, s') => (.returned (.error e), s')
      | (.crashed, s') => (.crashed, s') := rfl

theorem run_onFail (note : ε → σ → σ) (p : Program ℓ ε σ α) :
    (onFail note p).run answers s = match p.run answers s with
      | (.failed e, s') => (.failed e, note e s')
      | result => result := rfl

theorem run_detached (own : κ → Answer) (p : Program κ ε σ α) :
    (detached own p : Program ℓ ε' σ _).run answers s = match p.run own s with
      | (.returned a, s') => (.returned (some (.ok a)), s')
      | (.failed e, s') => (.returned (some (.error e)), s')
      | (.crashed, s') => (.returned none, s') := rfl

end Run

end Program

/-! ## Triples -/

/-- Started in `pre`, the procedure returns in `post`, or fails or crashes in `stop`. For crash consistency
    `stop` is the invariant of the durable state, and the rules below ask for it at every operation. -/
def Triple (answers : ℓ → Answer) (pre : σ → Prop) (p : Program ℓ ε σ α) (post : α → σ → Prop)
    (stop : σ → Prop) : Prop :=
  ∀ s, pre s → match p.run answers s with
    | (.returned a, s') => post a s'
    | (.failed _, s') => stop s'
    | (.crashed, s') => stop s'

namespace Triple

open Program

variable {answers : ℓ → Answer} {pre pre' : σ → Prop} {post post' : α → σ → Prop}
  {stop stop' : σ → Prop}

variable {p : Program ℓ ε σ α}

theorem returned (h : Triple answers pre p post stop) {s s' : σ} {a : α} (hs : pre s)
    (hrun : p.run answers s = (.returned a, s')) : post a s' := by
  have := h s hs
  rw [hrun] at this
  exact this

theorem anyway (h : Triple answers pre p post stop) {s : σ} (hs : pre s) (hpost : ∀ a s', post a s' → stop s') :
    stop (p.run answers s).2 := by
  have hrun := h s hs
  rcases hres : p.run answers s with ⟨o, s'⟩
  rw [hres] at hrun
  cases o with
  | returned a => exact hpost a s' hrun
  | failed e | crashed => exact hrun

theorem exists_returned (h : Triple answers pre p post fun _ => False) {s : σ} (hs : pre s) :
    ∃ a, (p.run answers s).1 = .returned a ∧ post a (p.run answers s).2 := by
  have hrun := h s hs
  rcases hres : p.run answers s with ⟨o, s'⟩
  rw [hres] at hrun
  cases o with
  | returned a => exact ⟨a, rfl, hrun⟩
  | failed e | crashed => exact absurd hrun not_false

protected theorem pure {a : α} (h : ∀ s, pre s → post a s) :
    Triple answers pre (pure a : Program ℓ ε σ α) post stop :=
  fun s hs => h s hs

protected theorem bind {f : α → Program ℓ ε σ β} {M : α → σ → Prop} {post : β → σ → Prop}
    (hp : Triple answers pre p M stop) (hf : ∀ a, Triple answers (M a) (f a) post stop) :
    Triple answers pre (p >>= f) post stop := by
  intro s hs
  have hrun := hp s hs
  rw [run_bind]
  rcases hres : p.run answers s with ⟨o, s'⟩
  rw [hres] at hrun
  cases o with
  | returned a => exact hf a s' hrun
  | failed e => exact hrun
  | crashed => exact hrun

protected theorem get {post : σ → σ → Prop} (h : ∀ s, pre s → post s s) :
    Triple answers pre (Program.get : Program ℓ ε σ σ) post stop :=
  fun s hs => h s hs

protected theorem modify {f : σ → σ} {post : Unit → σ → Prop} (h : ∀ s, pre s → post () (f s)) :
    Triple answers pre (Program.modify f : Program ℓ ε σ Unit) post stop :=
  fun s hs => h s hs

variable {error : ε}

protected theorem fail (h : ∀ s, pre s → stop s) :
    Triple answers pre (Program.fail error : Program ℓ ε σ α) post stop :=
  fun s hs => h s hs

protected theorem act {label : ℓ} {effect : σ → σ} {post : Unit → σ → Prop}
    (hdone : answers label = .done → ∀ s, pre s → post () (effect s))
    (hstop : answers label ≠ .done → ∀ s, pre s → stop s) :
    Triple answers pre (Program.act label effect error) post stop := by
  intro s hs
  rw [run_act]
  rcases hans : answers label with _ | _ | _
  · exact hdone hans s hs
  · exact hstop (by rw [hans]; decide) s hs
  · exact hstop (by rw [hans]; decide) s hs

protected theorem check {label : ℓ} (hstop : answers label ≠ .done → ∀ s, pre s → stop s) :
    Triple answers pre (Program.check label error) (fun _ => pre) stop :=
  Triple.act (fun _ _ hs => hs) hstop

theorem check_done {label : ℓ} (hstop : answers label ≠ .done → ∀ s, pre s → stop s) :
    Triple answers pre (Program.check label error) (fun _ s => answers label = .done ∧ pre s) stop :=
  Triple.act (fun hdone _ hs => ⟨hdone, hs⟩) hstop

protected theorem require {cond : Bool} (hstop : cond = false → ∀ s, pre s → stop s) :
    Triple answers pre (Program.require cond error) (fun _ s => cond = true ∧ pre s) stop := by
  intro s hs
  cases cond with
  | true => exact ⟨rfl, hs⟩
  | false => exact hstop rfl s hs

protected theorem ofExcept {r : Except ε α} (hok : ∀ a, r = .ok a → ∀ s, pre s → post a s)
    (hstop : ∀ e, r = .error e → ∀ s, pre s → stop s) :
    Triple answers pre (Program.ofExcept r) post stop := by
  cases r with
  | ok a => exact fun s hs => hok a rfl s hs
  | error e => exact fun s hs => hstop e rfl s hs

protected theorem attempt {post : Except ε α → σ → Prop} (h : Triple answers pre p (fun a => post (.ok a)) stop)
    (hfail : ∀ e s, stop s → post (.error e) s) :
    Triple answers pre (Program.attempt p : Program ℓ ε' σ _) post stop := by
  intro s hs
  have hrun := h s hs
  rw [run_attempt]
  rcases hres : p.run answers s with ⟨o, s'⟩
  rw [hres] at hrun
  cases o with
  | returned a => exact hrun
  | failed e => exact hfail e s' hrun
  | crashed => exact hrun

theorem attempt_live (hlive : ∀ label, answers label ≠ .crashed) {post : Except ε α → σ → Prop}
    (h : Triple answers pre p (fun a => post (.ok a)) stop) (hfail : ∀ e s, stop s → post (.error e) s) :
    Triple answers pre (Program.attempt p : Program ℓ ε' σ _) post stop' := by
  intro s hs
  have hrun := h s hs
  rw [run_attempt]
  rcases hres : p.run answers s with ⟨o, s'⟩
  rw [hres] at hrun
  cases o with
  | returned a => exact hrun
  | failed e => exact hfail e s' hrun
  | crashed =>
    obtain ⟨label, hlabel⟩ := p.live answers s (by rw [hres])
    exact absurd hlabel (hlive label)

variable {note : ε → σ → σ}

protected theorem onFail (h : Triple answers pre p post stop) (hcrash : ∀ s, stop s → stop' s)
    (hnote : ∀ e s, stop s → stop' (note e s)) :
    Triple answers pre (Program.onFail note p) post stop' := by
  intro s hs
  have hrun := h s hs
  rw [run_onFail]
  rcases hres : p.run answers s with ⟨o, s'⟩
  rw [hres] at hrun
  cases o with
  | returned a => exact hrun
  | failed e => exact hnote e s' hrun
  | crashed => exact hcrash s' hrun

theorem onFail_any (h : Triple answers pre p post fun _ => True) :
    Triple answers pre (Program.onFail note p) post fun _ => True :=
  Triple.onFail h (fun _ _ => trivial) fun _ _ _ => trivial

theorem onFail_live (hlive : ∀ label, answers label ≠ .crashed) (h : Triple answers pre p post stop)
    (hnote : ∀ e s, stop s → stop' (note e s)) : Triple answers pre (Program.onFail note p) post stop' := by
  intro s hs
  have hrun := h s hs
  rw [run_onFail]
  rcases hres : p.run answers s with ⟨o, s'⟩
  rw [hres] at hrun
  cases o with
  | returned a => exact hrun
  | failed e => exact hnote e s' hrun
  | crashed =>
    obtain ⟨label, hlabel⟩ := p.live answers s (by rw [hres])
    exact absurd hlabel (hlive label)

protected theorem detached {own : κ → Answer} {p : Program κ ε σ α}
    {post : Option (Except ε α) → σ → Prop} {stop' : σ → Prop}
    (h : Triple own pre p (fun a => post (some (.ok a))) stop')
    (hfail : ∀ e s, stop' s → post (some (.error e)) s) (hcrash : ∀ s, stop' s → post none s) :
    Triple answers pre (Program.detached own p : Program ℓ ε' σ _) post stop := by
  intro s hs
  have hrun := h s hs
  rw [run_detached]
  rcases hres : p.run own s with ⟨o, s'⟩
  rw [hres] at hrun
  cases o with
  | returned a => exact hrun
  | failed e => exact hfail e s' hrun
  | crashed => exact hcrash s' hrun

protected theorem relabel {f : κ → ℓ} {p : Program κ ε σ α}
    (h : Triple (answers ∘ f) pre p post stop) :
    Triple answers pre (Program.relabel f p) post stop :=
  h

protected theorem ite {c : Prop} [Decidable c] {q : Program ℓ ε σ α} (hp : c → Triple answers pre p post stop)
    (hq : ¬ c → Triple answers pre q post stop) :
    Triple answers pre (if c then p else q) post stop := by
  by_cases hc : c
  · rw [if_pos hc]; exact hp hc
  · rw [if_neg hc]; exact hq hc

protected theorem mono (h : Triple answers pre p post stop) (hpre : ∀ s, pre' s → pre s)
    (hpost : ∀ a s, post a s → post' a s) (hstop : ∀ s, stop s → stop' s) : Triple answers pre' p post' stop' := by
  intro s hs
  have hrun := h s (hpre s hs)
  rcases hres : p.run answers s with ⟨o, s'⟩
  rw [hres] at hrun
  cases o with
  | returned a => exact hpost a s' hrun
  | failed e => exact hstop s' hrun
  | crashed => exact hstop s' hrun

protected theorem and (h : Triple answers pre p post stop) (h' : Triple answers pre p post' stop') :
    Triple answers pre p (fun a s => post a s ∧ post' a s) (fun s => stop s ∧ stop' s) := by
  intro s hs
  have hrun := h s hs
  have hrun' := h' s hs
  rcases hres : p.run answers s with ⟨o, s'⟩
  rw [hres] at hrun hrun'
  cases o with
  | returned a => exact ⟨hrun, hrun'⟩
  | failed e => exact ⟨hrun, hrun'⟩
  | crashed => exact ⟨hrun, hrun'⟩

theorem returns {p : Program ℓ ε σ α} {s : σ} :
    Triple answers (· = s) p (fun _ _ => p.Returns answers s) (fun _ => ¬ p.Returns answers s) := by
  intro s' hs
  subst hs
  rcases hres : p.run answers s' with ⟨o, s''⟩
  cases o with
  | returned a | failed e | crashed => simp [Program.Returns, hres, Outcome.isReturned]

theorem of_pure {fact : Prop} (h : fact → Triple answers pre p post stop) :
    Triple answers (fun s => fact ∧ pre s) p post stop :=
  fun s hs => h hs.1 s hs.2

theorem of_state (h : ∀ s, pre s → Triple answers (· = s) p post stop) : Triple answers pre p post stop :=
  fun s hs => h s hs s rfl

end Triple

/-! ## States that remember what was done to them -/

/-- A state with the operations performed on it, each with the state it was performed in. -/
structure Journaled (ρ ω : Type) where
  root : ρ
  log : List (ρ × ω)

namespace Journaled

variable {ρ ω : Type}

/-- Do an operation, and remember it with the state it was done in. -/
def perform (apply : ω → ρ → ρ) (op : ω) (h : Journaled ρ ω) : Journaled ρ ω where
  root := apply op h.root
  log := h.log ++ [(h.root, op)]

/-- Every operation of the log was allowed in the state it was performed in. -/
def Allowed (allowed : ρ → ω → Prop) (h : Journaled ρ ω) : Prop := ∀ entry ∈ h.log, allowed entry.1 entry.2

variable {apply : ω → ρ → ρ} {op : ω} {h : Journaled ρ ω} {allowed : ρ → ω → Prop}

@[simp] theorem perform_root : (h.perform apply op).root = apply op h.root := rfl

@[simp] theorem mem_perform_log {entry : ρ × ω} :
    entry ∈ (h.perform apply op).log ↔ entry ∈ h.log ∨ entry = (h.root, op) := by
  simp [perform]

theorem Allowed.perform (hlog : h.Allowed allowed) (hop : allowed h.root op) :
    (h.perform apply op).Allowed allowed := by
  intro entry hmem
  rcases mem_perform_log.1 hmem with hmem | rfl
  · exact hlog entry hmem
  · exact hop

section Frame

variable {κ γ : Type} {touches : ω → κ → Prop} {view : ρ → κ → γ} {scope : κ → Prop} {root : ρ}

/-- Since `root`, the operations have touched places of the scope only, and every other place looks
    as it did. -/
structure Within (touches : ω → κ → Prop) (view : ρ → κ → γ) (scope : κ → Prop) (root : ρ)
    (h : Journaled ρ ω) : Prop where
  operations : h.Allowed fun _ op => ∀ place, touches op place → scope place
  others : ∀ place, ¬ scope place → view h.root place = view root place

theorem Within.start : ({ root := root, log := [] } : Journaled ρ ω).Within touches view scope root :=
  ⟨fun _ hmem => absurd hmem List.not_mem_nil, fun _ _ => rfl⟩

/-- Operations of the scope stay within it. -/
theorem Within.perform (hwithin : h.Within touches view scope root)
    (hframe : ∀ root' place, ¬ touches op place → view (apply op root') place = view root' place)
    (hop : ∀ place, touches op place → scope place) : (h.perform apply op).Within touches view scope root := by
  constructor
  · exact hwithin.operations.perform hop
  · intro place hplace
    have huntouched : ¬ touches op place := fun htouched => hplace (hop place htouched)
    rw [perform_root, hframe h.root place huntouched]
    exact hwithin.others place hplace

end Frame

end Journaled

end Durable
