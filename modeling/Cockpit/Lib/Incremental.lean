/-
  Reading a stream in pieces: what has been decided is not taken back when more of it comes.
-/
import Mathlib.Data.List.Basic

namespace Incremental

open List

variable {α σ ο ε : Type}

/-! ## The first occurrence of a mark -/

section Cut

variable [DecidableEq α]

/-- Take a text apart at the first mark. -/
def cutAt (mark : List α) : List α → Option (List α × List α)
  | [] => if mark = [] then some ([], []) else none
  | a :: text =>
    if mark <+: a :: text then some ([], (a :: text).drop mark.length)
    else (cutAt mark text).map fun (before, behind) => (a :: before, behind)

variable {mark text before behind : List α}

section

variable (h : cutAt mark text = some (before, behind))
include h

theorem cutAt_eq_append : text = before ++ mark ++ behind := by
  induction text generalizing before with
  | nil =>
    rw [cutAt] at h
    split at h
    case isTrue hmark =>
      cases h
      rw [hmark]
      rfl
    case isFalse => cases h
  | cons a text ih =>
    rw [cutAt] at h
    split at h
    case isTrue hmark =>
      obtain ⟨rest, hrest⟩ := hmark
      cases h
      rw [← hrest, drop_left]
      rfl
    case isFalse =>
      rw [Option.map_eq_some_iff] at h
      obtain ⟨⟨before', behind'⟩, hcut, heq⟩ := h
      cases heq
      rw [ih hcut]
      rfl

/-- **What is found stays found** when more of the text comes. -/
theorem cutAt_append (more : List α) : cutAt mark (text ++ more) = some (before, behind ++ more) := by
  induction text generalizing before with
  | nil =>
    rw [cutAt] at h
    split at h
    case isTrue hmark =>
      cases h
      rw [hmark]
      cases more with
      | nil | cons a more => rfl
    case isFalse => cases h
  | cons a text ih =>
    rw [cutAt] at h
    rw [cons_append, cutAt]
    split at h
    case isTrue hmark =>
      have hlonger : mark <+: a :: (text ++ more) := hmark.trans (prefix_append (a :: text) more)
      cases h
      rw [if_pos hlonger, ← cons_append, drop_append_of_le_length hmark.length_le]
    case isFalse hmark =>
      rw [Option.map_eq_some_iff] at h
      obtain ⟨⟨before', behind'⟩, hcut, heq⟩ := h
      cases heq
      have hlater : ¬ mark <+: a :: (text ++ more) := by
        intro hmore
        have htext := cutAt_eq_append hcut
        refine hmark (prefix_of_prefix_length_le hmore (prefix_append (a :: text) more) ?_)
        rw [htext]
        simp only [length_cons, length_append]
        omega
      rw [if_neg hlater, ih hcut]
      rfl

/-- The mark itself is found at once. -/
theorem cutAt_mark : cutAt mark (before ++ mark) = some (before, []) := by
  induction text generalizing before with
  | nil =>
    rw [cutAt] at h
    split at h
    case isTrue hmark =>
      cases h
      rw [hmark]
      rfl
    case isFalse => cases h
  | cons a text ih =>
    rw [cutAt] at h
    split at h
    case isTrue hmark =>
      cases h
      rw [nil_append]
      cases mark with
      | nil => rfl
      | cons b mark => rw [cutAt, if_pos (prefix_refl (b :: mark)), drop_length]
    case isFalse hmark =>
      rw [Option.map_eq_some_iff] at h
      obtain ⟨⟨before', behind'⟩, hcut, heq⟩ := h
      cases heq
      have hearlier : ¬ mark <+: a :: (before' ++ mark) := by
        intro hmore
        refine hmark (hmore.trans ?_)
        rw [cutAt_eq_append hcut, ← cons_append]
        exact prefix_append _ _
      rw [cons_append, cutAt, if_neg hearlier, ih hcut]
      rfl

theorem length_cutAt : text.length = before.length + mark.length + behind.length := by
  have := congrArg List.length (cutAt_eq_append h)
  simpa only [length_append] using this

end

end Cut

/-! ## Scanners -/

/-- Take something off the front, or wait for more, or stop. -/
inductive Round (σ α ε : Type) where
  | wait
  | next (s : σ) (rest : List α)
  | stop (e : ε)

def Round.map (f : σ → σ) : Round σ α ε → Round σ α ε
  | .wait => .wait
  | .next s rest => .next (f s) rest
  | .stop e => .stop e

/-- Where a scan is when the buffer gives nothing more. -/
inductive Scan (σ α ε : Type) where
  | paused (s : σ) (rest : List α)
  | stopped (e : ε)
  deriving DecidableEq

def Scan.map (f : σ → σ) : Scan σ α ε → Scan σ α ε
  | .paused s rest => .paused (f s) rest
  | .stopped e => .stopped e

/-- A loop over a buffer; its law is that no decision is taken back when the buffer gets longer. -/
structure Scanner (σ α ε : Type) where
  round : σ → List α → Round σ α ε
  shrinks : ∀ {s s' : σ} {p r : List α}, round s p = .next s' r → r.length < p.length
  next_append : ∀ {s s' : σ} {p r : List α} (q : List α), round s p = .next s' r →
    round s (p ++ q) = .next s' (r ++ q)
  stop_append : ∀ {s : σ} {p : List α} {e : ε} (q : List α), round s p = .stop e →
    round s (p ++ q) = .stop e

namespace Scanner

variable (m : Scanner σ α ε)

def scanFor : Nat → σ → List α → Scan σ α ε
  | 0, s, p => .paused s p
  | n + 1, s, p =>
    match m.round s p with
    | .wait => .paused s p
    | .next s' r => scanFor n s' r
    | .stop e => .stopped e

/-- Round by round. -/
def scan (s : σ) (p : List α) : Scan σ α ε := m.scanFor (p.length + 1) s p

variable {p : List α} {s : σ}

theorem scanFor_eq {n k : Nat} (hn : p.length < n) (hk : p.length < k) : m.scanFor n s p = m.scanFor k s p := by
  induction n generalizing k s p with
  | zero => omega
  | succ n ih =>
    obtain ⟨k, rfl⟩ : ∃ j, k = j + 1 := ⟨k - 1, by omega⟩
    rw [scanFor, scanFor]
    split
    case h_1 => rfl
    case h_2 s' r hround =>
      have := m.shrinks hround
      exact ih (by omega) (by omega)
    case h_3 => rfl

theorem scan_wait (h : m.round s p = .wait) : m.scan s p = .paused s p := by
  rw [scan, scanFor, h]

variable {r : List α} {s' : σ}

theorem scan_next (h : m.round s p = .next s' r) : m.scan s p = m.scan s' r := by
  have := m.shrinks h
  rw [scan, scanFor, h]
  exact m.scanFor_eq (by omega) (by omega)

theorem scan_stop {e : ε} (h : m.round s p = .stop e) : m.scan s p = .stopped e := by
  rw [scan, scanFor, h]

theorem scan_induction {motive : σ → List α → Prop} (wait : ∀ s p, m.round s p = .wait → motive s p)
    (next : ∀ s p s' r, m.round s p = .next s' r → motive s' r → motive s p)
    (stop : ∀ s p e, m.round s p = .stop e → motive s p) (s : σ) (p : List α) : motive s p := by
  induction hlen : p.length using Nat.strongRecOn generalizing s p with
  | _ n ih =>
    cases hround : m.round s p with
    | wait => exact wait s p hround
    | next s' r =>
      have := m.shrinks hround
      exact next s p s' r hround (ih r.length (by omega) s' r rfl)
    | stop e => exact stop s p e hround

/-- **To scan a text is to scan a part of it, and then what that left with the other part.** -/
theorem scan_append (s : σ) (p q : List α) :
    m.scan s (p ++ q) =
      match m.scan s p with
      | .paused s' r => m.scan s' (r ++ q)
      | .stopped e => .stopped e := by
  induction s, p using m.scan_induction with
  | wait s p hround => rw [m.scan_wait hround]
  | next s p s' r hround ih => rw [m.scan_next hround, m.scan_next (m.next_append q hround), ih]
  | stop s p e hround => rw [m.scan_stop hround, m.scan_stop (m.stop_append q hround)]

theorem scan_append_paused (h : m.scan s p = .paused s' r) (q : List α) : m.scan s (p ++ q) = m.scan s' (r ++ q) := by
  rw [m.scan_append, h]

theorem scan_append_stopped {e : ε} (h : m.scan s p = .stopped e) (q : List α) : m.scan s (p ++ q) = .stopped e := by
  rw [m.scan_append, h]

theorem exists_round_of_stopped {e : ε} (h : m.scan s p = .stopped e) : ∃ s' r, m.round s' r = .stop e := by
  induction s, p using m.scan_induction with
  | wait s p hround =>
    rw [m.scan_wait hround] at h
    cases h
  | next s p s' r hround ih =>
    rw [m.scan_next hround] at h
    exact ih h
  | stop s p e' hround =>
    rw [m.scan_stop hround] at h
    cases h
    exact ⟨s, p, hround⟩

theorem scan_map {f : σ → σ} (h : ∀ s p, m.round (f s) p = (m.round s p).map f) (s : σ) (p : List α) :
    m.scan (f s) p = (m.scan s p).map f := by
  induction s, p using m.scan_induction with
  | wait s p hround =>
    have hf := h s p
    rw [hround] at hf
    rw [m.scan_wait hround, m.scan_wait hf, Scan.map]
  | next s p s' r hround ih =>
    have hf := h s p
    rw [hround] at hf
    rw [m.scan_next hround, m.scan_next hf, ih]
  | stop s p e hround =>
    have hf := h s p
    rw [hround] at hf
    rw [m.scan_stop hround, m.scan_stop hf, Scan.map]

/-! ### Where a scan ends

`reach` keeps what `scan` gives up when a round stops: the state in which it was, and the rest of the
buffer. -/

def reachFor : Nat → σ → List α → σ × List α × Option ε
  | 0, s, p => (s, p, none)
  | n + 1, s, p =>
    match m.round s p with
    | .wait => (s, p, none)
    | .next s' r => reachFor n s' r
    | .stop e => (s, p, some e)

/-- Where the scan ends, also when it stops. -/
def reach (s : σ) (p : List α) : σ × List α × Option ε := m.reachFor (p.length + 1) s p

theorem reachFor_eq {n k : Nat} (hn : p.length < n) (hk : p.length < k) : m.reachFor n s p = m.reachFor k s p := by
  induction n generalizing k s p with
  | zero => omega
  | succ n ih =>
    obtain ⟨k, rfl⟩ : ∃ j, k = j + 1 := ⟨k - 1, by omega⟩
    rw [reachFor, reachFor]
    split
    case h_1 => rfl
    case h_2 s' r hround =>
      have := m.shrinks hround
      exact ih (by omega) (by omega)
    case h_3 => rfl

theorem reach_wait (h : m.round s p = .wait) : m.reach s p = (s, p, none) := by
  rw [reach, reachFor, h]

theorem reach_next (h : m.round s p = .next s' r) : m.reach s p = m.reach s' r := by
  have := m.shrinks h
  rw [reach, reachFor, h]
  exact m.reachFor_eq (by omega) (by omega)

theorem reach_stop {e : ε} (h : m.round s p = .stop e) : m.reach s p = (s, p, some e) := by
  rw [reach, reachFor, h]

theorem wait_of_reach (h : m.reach s p = (s', r, none)) : m.round s' r = .wait := by
  induction s, p using m.scan_induction with
  | wait s p hround =>
    rw [m.reach_wait hround] at h
    cases h
    exact hround
  | next s p s₁ r₁ hround ih =>
    rw [m.reach_next hround] at h
    exact ih h
  | stop s p e hround =>
    rw [m.reach_stop hround] at h
    cases h

theorem scan_eq_reach (s : σ) (p : List α) :
    m.scan s p =
      match m.reach s p with
      | (s', r, none) => .paused s' r
      | (_, _, some e) => .stopped e := by
  induction s, p using m.scan_induction with
  | wait s p hround => rw [m.scan_wait hround, m.reach_wait hround]
  | next s p s' r hround ih => rw [m.scan_next hround, m.reach_next hround, ih]
  | stop s p e hround => rw [m.scan_stop hround, m.reach_stop hround]

theorem reach_append (s : σ) (p q : List α) :
    m.reach s (p ++ q) =
      match m.reach s p with
      | (s', r, none) => m.reach s' (r ++ q)
      | (s', r, some e) => (s', r ++ q, some e) := by
  induction s, p using m.scan_induction with
  | wait s p hround => rw [m.reach_wait hround]
  | next s p s' r hround ih => rw [m.reach_next hround, m.reach_next (m.next_append q hround), ih]
  | stop s p e hround => rw [m.reach_stop hround, m.reach_stop (m.stop_append q hround)]

theorem reach_map {f : σ → σ} (h : ∀ s p, m.round (f s) p = (m.round s p).map f) (s : σ) (p : List α) :
    m.reach (f s) p = Prod.map f id (m.reach s p) := by
  induction s, p using m.scan_induction with
  | wait s p hround =>
    have hf := h s p
    rw [hround] at hf
    rw [m.reach_wait hround, m.reach_wait hf]
    rfl
  | next s p s' r hround ih =>
    have hf := h s p
    rw [hround] at hf
    rw [m.reach_next hround, m.reach_next hf, ih]
  | stop s p e hround =>
    have hf := h s p
    rw [hround] at hf
    rw [m.reach_stop hround, m.reach_stop hf]
    rfl

end Scanner

/-! ## Receivers -/

/-- What a block leads to: the receiver goes on, or it has its outcome. -/
inductive Received (σ ο : Type) where
  | next (s : σ)
  | stop (o : ο)
  deriving DecidableEq

/-- It gets a stream block by block and gives one outcome; its law is that the cut makes no difference to its
    state. -/
structure Receiver (σ α ο : Type) where
  receive : σ → List α → Received σ ο
  finish : σ → ο
  next_append : ∀ {s s' : σ} {x : List α} (y : List α), receive s x = .next s' →
    receive s (x ++ y) = receive s' y
  stop_append : ∀ {s : σ} {x : List α} {o : ο} (y : List α), receive s x = .stop o →
    ∃ o', receive s (x ++ y) = .stop o'

/-- `blocks` is the stream, cut into non-empty blocks of at most `limit` elements. -/
structure Cut (limit : Nat) (stream : List α) (blocks : List (List α)) : Prop where
  joined : blocks.flatten = stream
  nonempty : ∀ block ∈ blocks, block ≠ []
  bounded : ∀ block ∈ blocks, block.length ≤ limit

variable {limit : Nat}

theorem Cut.append {x y : List α} {as bs : List (List α)} (ha : Cut limit x as) (hb : Cut limit y bs) :
    Cut limit (x ++ y) (as ++ bs) where
  joined := by rw [flatten_append, ha.joined, hb.joined]
  nonempty := by
    intro block hblock
    rcases mem_append.mp hblock with h | h
    · exact ha.nonempty block h
    · exact hb.nonempty block h
  bounded := by
    intro block hblock
    rcases mem_append.mp hblock with h | h
    · exact ha.bounded block h
    · exact hb.bounded block h

theorem Cut.single {block : List α} (hne : block ≠ []) (hle : block.length ≤ limit) : Cut limit block [block] where
  joined := flatten_singleton
  nonempty := by
    intro b hb
    rwa [mem_singleton.mp hb]
  bounded := by
    intro b hb
    rwa [mem_singleton.mp hb]

theorem Cut.singles (hlimit : 0 < limit) (stream : List α) : Cut limit stream (stream.map fun a => [a]) := by
  induction stream with
  | nil => exact ⟨rfl, fun _ h => (nomatch h), fun _ h => (nomatch h)⟩
  | cons a stream ih => exact (Cut.single (cons_ne_nil a []) hlimit).append ih

namespace Receiver

variable (m : Receiver σ α ο)

/-- All blocks of a stream. -/
def run : σ → List (List α) → ο
  | s, [] => m.finish s
  | s, block :: blocks =>
    match m.receive s block with
    | .next s' => run s' blocks
    | .stop o => o

/-- Some block that it could be given stops it with this outcome. -/
def CanStop (limit : Nat) (s : σ) (stream : List α) (o : ο) : Prop :=
  ∃ before block s', before ++ block <+: stream ∧ block.length ≤ limit ∧
    m.receive s before = .next s' ∧ m.receive s (before ++ block) = .stop o

variable {s : σ}

theorem receive_nil {s' : σ} {x : List α} (h : m.receive s x = .next s') : m.receive s' [] = .next s' := by
  rw [← m.next_append [] h, append_nil, h]

theorem going_of_append {s' : σ} {x y : List α} (h : m.receive s (x ++ y) = .next s') :
    ∃ s₁, m.receive s x = .next s₁ ∧ m.receive s₁ y = .next s' := by
  cases hx : m.receive s x with
  | next s₁ => exact ⟨s₁, rfl, by rw [← m.next_append y hx, h]⟩
  | stop o =>
    obtain ⟨o', hstop⟩ := m.stop_append y hx
    rw [hstop] at h
    cases h

theorem run_append {s' : σ} {as bs : List (List α)} (hs : m.receive s [] = .next s)
    (h : m.receive s as.flatten = .next s') : m.run s (as ++ bs) = m.run s' bs := by
  induction as generalizing s with
  | nil =>
    rw [flatten_nil, hs] at h
    cases h
    rfl
  | cons a as ih =>
    rw [flatten_cons] at h
    obtain ⟨s₁, hfirst, hrest⟩ := m.going_of_append h
    rw [cons_append, run, hfirst]
    exact ih (m.receive_nil hfirst) hrest

variable {stream : List α} {limit : Nat}

/-- **A run stops at a block, or goes on to the end**, and then it does so however the stream is cut. -/
theorem run_cases {blocks : List (List α)} (hs : m.receive s [] = .next s) (hcut : Cut limit stream blocks) :
    m.CanStop limit s stream (m.run s blocks)
      ∨ ∃ s', m.receive s stream = .next s' ∧ m.run s blocks = m.finish s' := by
  induction blocks generalizing s stream with
  | nil =>
    right
    refine ⟨s, ?_, rfl⟩
    rw [← hcut.joined]
    exact hs
  | cons block blocks ih =>
    have hjoined : block ++ blocks.flatten = stream := hcut.joined
    cases hblock : m.receive s block with
    | stop o =>
      left
      refine ⟨[], block, s, ?_, hcut.bounded block mem_cons_self, hs, ?_⟩
      · rw [← hjoined]
        exact prefix_append block blocks.flatten
      · rw [run, hblock]
        exact hblock
    | next s₁ =>
      have hrest : Cut limit blocks.flatten blocks :=
        ⟨rfl, fun b hb => hcut.nonempty b (mem_cons_of_mem block hb),
          fun b hb => hcut.bounded b (mem_cons_of_mem block hb)⟩
      have hrun : m.run s (block :: blocks) = m.run s₁ blocks := by rw [run, hblock]
      rw [hrun, ← hjoined]
      rcases ih (m.receive_nil hblock) hrest with ⟨before, last, s', hwithin, hbounded, hgoing, hstops⟩ |
        ⟨s', hend, hfinish⟩
      · left
        refine ⟨block ++ before, last, s', ?_, hbounded, ?_, ?_⟩
        · rw [append_assoc]
          exact (prefix_append_right_inj block).mpr hwithin
        · rw [m.next_append before hblock, hgoing]
        · rw [append_assoc, m.next_append (before ++ last) hblock, hstops]
      · right
        exact ⟨s', by rw [m.next_append blocks.flatten hblock, hend], hfinish⟩

/-- **Every block that the receiver could stop at is a block of some cut**, in which it does stop there. -/
theorem exists_cut (hlimit : 0 < limit) {o : ο} (hs : m.receive s [] = .next s) (h : m.CanStop limit s stream o) :
    ∃ blocks, Cut limit stream blocks ∧ m.run s blocks = o := by
  obtain ⟨before, block, s', ⟨rest, hstream⟩, hbounded, hgoing, hstops⟩ := h
  have hne : block ≠ [] := by
    intro hnil
    rw [hnil, append_nil, hgoing] at hstops
    cases hstops
  have hbefore := Cut.singles hlimit before
  refine ⟨before.map (fun a => [a]) ++ ([block] ++ rest.map fun a => [a]), ?_, ?_⟩
  · rw [← hstream, append_assoc]
    exact hbefore.append ((Cut.single hne hbounded).append (Cut.singles hlimit rest))
  · have hflatten : m.receive s (before.map fun a => [a]).flatten = .next s' := by
      rw [hbefore.joined, hgoing]
    rw [m.run_append hs hflatten, singleton_append, run, ← m.next_append block hgoing, hstops]

/-- **The outcomes of all cuttings agree if and only if all the blocks that the receiver could stop at give
    the same one.** -/
theorem cuts_agree_iff (hlimit : 0 < limit) (hs : m.receive s [] = .next s) :
    (∀ as bs, Cut limit stream as → Cut limit stream bs → m.run s as = m.run s bs) ↔
      ∀ o o', m.CanStop limit s stream o → m.CanStop limit s stream o' → o = o' := by
  constructor
  · intro hagree o o' h h'
    obtain ⟨as, hcut, hrun⟩ := m.exists_cut hlimit hs h
    obtain ⟨bs, hcut', hrun'⟩ := m.exists_cut hlimit hs h'
    rw [← hrun, ← hrun']
    exact hagree as bs hcut hcut'
  · intro hagree as bs hcut hcut'
    have hcontra : ∀ {o : ο} {s' : σ}, m.CanStop limit s stream o → m.receive s stream ≠ .next s' := by
      intro o s' h hend
      obtain ⟨before, block, _, ⟨rest, hstream⟩, _, _, hstops⟩ := h
      obtain ⟨o', hstop⟩ := m.stop_append rest hstops
      rw [hstream, hend] at hstop
      cases hstop
    rcases m.run_cases hs hcut with h | ⟨s', hend, hfinish⟩ <;>
      rcases m.run_cases hs hcut' with h' | ⟨s'', hend', hfinish'⟩
    · exact hagree _ _ h h'
    · exact absurd hend' (hcontra h)
    · exact absurd hend (hcontra h')
    · rw [hend] at hend'
      cases hend'
      rw [hfinish, hfinish']

end Receiver

end Incremental
