/-
  The window of the GOP ring: the longest end of what was accepted since the last `Clear` that is made of whole
  GOPs and not older than the limit, and never less than the current GOP.
-/
import Mathlib.Data.List.TakeWhile
import Cockpit.Recording.EventVideoRecorder

namespace Cockpit.Recording

open StepRun List

namespace H264GopRing

/-- `Clear`. -/
def clear (ring : H264GopRing) : H264GopRing := { ring with gops := [], current := [] }

end H264GopRing

/-! ## Windows -/

/-- From the last keyframe on. -/
def lastGop : List EncodedVideoPacket → List EncodedVideoPacket
  | [] => []
  | packet :: packets => if packets.any (·.keyframe) then lastGop packets else packet :: packets

def BeginsAtKeyframe (packets : List EncodedVideoPacket) : Prop := ∃ first ∈ packets.head?, first.keyframe = true

/-- Timestamps do not go back. -/
def Forward (packets : List EncodedVideoPacket) : Prop := packets.Pairwise fun p q => p.pts ≤ q.pts

/-- From the first to the newest within the limit. -/
def Lasts (limit : Int) (packets : List EncodedVideoPacket) : Prop :=
  ∀ first ∈ packets.head?, ∀ newest ∈ packets.getLast?, newest.pts - first.pts ≤ limit

/-- `kept` is what is to be kept of `log`. -/
structure Window (limit : Int) (log kept : List EncodedVideoPacket) : Prop where
  suffix : kept <:+ log
  keyframe : kept = [] ∨ BeginsAtKeyframe kept
  current : lastGop log <:+ kept
  lasts : Lasts limit kept ∨ kept = lastGop log
  longest : ∀ packets, packets <:+ log → BeginsAtKeyframe packets → Lasts limit packets →
    packets.length ≤ kept.length

theorem lastGop_snoc (log : List EncodedVideoPacket) (packet : EncodedVideoPacket) :
    lastGop (log ++ [packet]) = if packet.keyframe then [packet] else lastGop log ++ [packet] := by
  induction log with
  | nil =>
    unfold lastGop
    cases packet.keyframe <;> rfl
  | cons first log ih =>
    rw [cons_append, lastGop, lastGop, any_append, ih]
    cases hlog : log.any (·.keyframe) with
    | true => simp
    | false =>
      cases hkey : packet.keyframe with
      | true | false => simp [hkey]

variable {log : List EncodedVideoPacket}

theorem lastGop_eq_nil : lastGop log = [] ↔ log = [] := by
  constructor
  · intro h
    induction log with
    | nil => rfl
    | cons packet log ih =>
      unfold lastGop at h
      split at h
      · rename_i hany
        rw [ih h] at hany
        cases hany
      · cases h
  · rintro rfl
    rfl

/-! ## The invariant -/

namespace H264GopRing

variable {ring : H264GopRing} {log : List EncodedVideoPacket} {packet : EncodedVideoPacket}

/-- The ring has whole GOPs of the accepted packets, and what it has dropped is too old. -/
structure Held (log : List EncodedVideoPacket) (ring : H264GopRing) : Prop extends ring.Keeps log where
  last : ring.current = lastGop log
  old : ∃ dropped, dropped ++ ring.snapshot = log ∧ ∀ packet ∈ dropped, packet.keyframe = true →
    ∀ newest ∈ log.getLast?, ring.maxDurationPts < newest.pts - packet.pts

theorem isOld_of_mem_takeWhile {newest limit : Int} {gops : List (List EncodedVideoPacket)}
    (h : ∀ gop ∈ gops, IsGop gop) : ∀ packet ∈ (gops.takeWhile (isOld newest limit)).flatten, packet.keyframe = true →
      limit < newest - packet.pts := by
  intro packet hmem hkey
  obtain ⟨gop, hgop, hpacket⟩ := mem_flatten.1 hmem
  have hold : isOld newest limit gop = true := mem_takeWhile_imp hgop
  have hwhole := h gop ((List.takeWhile_prefix _).subset hgop)
  cases gop with
  | nil => cases hpacket
  | cons first rest =>
    rcases mem_cons.1 hpacket with rfl | hrest
    · exact of_decide_eq_true hold
    · rw [hwhole.2 packet hrest] at hkey
      cases hkey

theorem Held.create (maxDurationMs : Int) (fps : Nat) : (create maxDurationMs fps).Held [] where
  toKeeps := keeps_create maxDurationMs fps
  last := rfl
  old := ⟨[], rfl, fun _ hmem => absurd hmem not_mem_nil⟩

theorem Held.trim {before : H264GopRing} (h : before.Held log) (hmax : ring.maxDurationPts = before.maxDurationPts)
    (hsnapshot : ring.snapshot = before.snapshot ++ [packet]) (hgops : ∀ gop ∈ ring.gops, IsGop gop)
    (hlast : ring.current.getLast? = some packet) (hpts : ∀ newest ∈ log.getLast?, newest.pts ≤ packet.pts) :
    ∃ dropped, dropped ++ ring.trim.snapshot = log ++ [packet] ∧ ∀ q ∈ dropped, q.keyframe = true →
      ∀ newest ∈ (log ++ [packet]).getLast?, ring.trim.maxDurationPts < newest.pts - q.pts := by
  obtain ⟨dropped, hdropped, hold⟩ := h.old
  have htrim : (ring.gops.takeWhile (isOld packet.pts ring.maxDurationPts)).flatten ++ ring.trim.snapshot =
      ring.snapshot := by
    unfold snapshot
    rw [trim_gops hlast, trim_current, ← append_assoc, ← flatten_append, takeWhile_append_dropWhile]
  refine ⟨dropped ++ (ring.gops.takeWhile (isOld packet.pts ring.maxDurationPts)).flatten, ?_, ?_⟩
  · rw [append_assoc, htrim, hsnapshot, ← append_assoc, hdropped]
  · intro q hq hkey newest hnewest
    rw [List.getLast?_concat] at hnewest
    obtain rfl := Option.some.inj hnewest
    rw [trim_maxDurationPts]
    rcases mem_append.1 hq with hq | hq
    · -- What was dropped before was too old for an earlier packet.
      have hne : log ≠ [] := by
        rintro rfl
        rw [(append_eq_nil_iff.1 hdropped).1] at hq
        cases hq
      have hlimit := hold q hq hkey _ (List.getLast?_eq_some_getLast hne)
      have hnewer := hpts _ (List.getLast?_eq_some_getLast hne)
      omega
    · exact isOld_of_mem_takeWhile hgops q hq hkey

/-- **An accepted packet keeps the invariant.** -/
theorem Held.append (h : ring.Held log) (hacc : (ring.append packet).2 = true)
    (hpts : ∀ newest ∈ log.getLast?, newest.pts ≤ packet.pts) : (ring.append packet).1.Held (log ++ [packet]) := by
  have hkeeps := h.toKeeps.append hacc
  rcases append_of_accepted hacc with ⟨hring, hkey, hcur⟩ | ⟨hring, hkey, hcur⟩ | ⟨hring, hkey, hcur⟩
  · -- A keyframe closes the current GOP.
    rw [hring] at hkeeps ⊢
    refine ⟨hkeeps, ?_, h.trim rfl ?_ ?_ rfl hpts⟩
    · rw [trim_current, lastGop_snoc, if_pos hkey]
    · unfold snapshot
      rw [flatten_append, flatten_singleton]
    · intro gop hgop
      rcases mem_append.1 hgop with hgop | hgop
      · exact h.gops gop hgop
      · rw [mem_singleton.1 hgop]
        exact h.toKeeps.current.resolve_left fun hnone => hcur hnone.1
  · -- The first keyframe of all.
    rw [hring] at hkeeps ⊢
    refine ⟨hkeeps, ?_, h.trim rfl ?_ h.gops rfl hpts⟩
    · rw [trim_current, lastGop_snoc, if_pos hkey]
    · unfold snapshot
      rw [hcur, append_nil]
  · rw [hring] at hkeeps ⊢
    refine ⟨hkeeps, ?_, h.trim rfl ?_ h.gops List.getLast?_concat hpts⟩
    · rw [trim_current, lastGop_snoc, if_neg (by rw [hkey]; decide), ← h.last]
    · unfold snapshot
      rw [append_assoc]

theorem Held.clear : ring.clear.Held [] where
  suffix := suffix_refl []
  gops _ hgop := absurd hgop not_mem_nil
  current := .inl ⟨rfl, rfl⟩
  recent _ _ hgops := nomatch hgops
  last := rfl
  old := ⟨[], rfl, fun _ hmem => absurd hmem not_mem_nil⟩

theorem Held.lasts (h : ring.Held log) : Lasts ring.maxDurationPts ring.snapshot ∨ ring.snapshot = lastGop log := by
  cases hgops : ring.gops with
  | nil =>
    right
    unfold snapshot
    rw [hgops, flatten_nil, nil_append, h.last]
  | cons gop gops =>
    left
    intro first hfirst newest hnewest
    have hrecent := h.recent gop gops hgops newest hnewest
    have hwhole := h.gops gop (by rw [hgops]; exact mem_cons_self)
    cases gop with
    | nil => exact hwhole.elim
    | cons head rest =>
      have hhead : ring.snapshot.head? = some head := by
        unfold snapshot
        rw [hgops]
        rfl
      rw [hhead] at hfirst
      obtain rfl := Option.some.inj hfirst
      have hyoung : ¬ ring.maxDurationPts < newest.pts - head.pts := of_decide_eq_false hrecent
      omega

theorem Held.longest (h : ring.Held log) {packets : List EncodedVideoPacket} (hsuffix : packets <:+ log)
    (hbegins : BeginsAtKeyframe packets) (hlasts : Lasts ring.maxDurationPts packets) :
    packets.length ≤ ring.snapshot.length := by
  refine Nat.le_of_not_lt fun hlonger => ?_
  obtain ⟨dropped, hdropped, hold⟩ := h.old
  obtain ⟨first, hfirst, hkey⟩ := hbegins
  obtain ⟨front, hfront⟩ := suffix_of_suffix_length_le h.suffix hsuffix (Nat.le_of_lt hlonger)
  have hne : packets ≠ [] := by
    rintro rfl
    cases hfirst
  have hmem : first ∈ dropped := by
    obtain ⟨before, hbefore⟩ := hsuffix
    rw [← hfront, ← hdropped, ← append_assoc] at hbefore
    rw [← append_cancel_right hbefore]
    cases front with
    | nil =>
      rw [← hfront, nil_append] at hlonger
      exact absurd hlonger (Nat.lt_irrefl _)
    | cons q front =>
      rw [← hfront] at hfirst
      obtain rfl := Option.some.inj hfirst
      exact mem_append_right before mem_cons_self
  have hnewest : log.getLast? = packets.getLast? := by
    obtain ⟨before, rfl⟩ := hsuffix
    rw [List.getLast?_append, List.getLast?_eq_some_getLast hne]
    rfl
  have hlimit := hold first hmem hkey _ (hnewest.trans (List.getLast?_eq_some_getLast hne))
  have hwithin := hlasts first hfirst _ (List.getLast?_eq_some_getLast hne)
  omega

/-- **What the ring has is the window.** -/
theorem Held.window (h : ring.Held log) : Window ring.maxDurationPts log ring.snapshot where
  suffix := h.suffix
  keyframe := by
    rcases h.toKeeps.startsAtKeyframe with hnone | ⟨first, rest, hsnapshot, hkey, -⟩
    · exact .inl hnone
    · exact .inr ⟨first, by rw [hsnapshot]; rfl, hkey⟩
  current := by
    rw [← h.last]
    exact suffix_append _ _
  lasts := h.lasts
  longest _ := h.longest

/-- Only data before the first keyframe, and no data, are refused. -/
theorem Held.append_accepts_iff (h : ring.Held log) :
    (ring.append packet).2 = true ↔ packet.data ≠ [] ∧ (packet.keyframe = true ∨ log ≠ []) := by
  have hlog : ring.current = [] ↔ log = [] := by rw [h.last, lastGop_eq_nil]
  rw [← isEmpty_eq_false_iff, ne_eq, ← hlog]
  unfold H264GopRing.append
  cases packet.data.isEmpty with
  | true => simp
  | false =>
    cases hcur : ring.current <;> cases packet.keyframe <;> simp [hcur]

theorem append_maxDurationPts (ring : H264GopRing) (packet : EncodedVideoPacket) :
    (ring.append packet).1.maxDurationPts = ring.maxDurationPts := by
  cases hacc : (ring.append packet).2 with
  | false => rw [append_of_refused hacc]
  | true =>
    rcases append_of_accepted hacc with ⟨hring, -⟩ | ⟨hring, -⟩ | ⟨hring, -⟩ <;>
      rw [hring, trim_maxDurationPts]

end H264GopRing

/-! ## Runs -/

/-- The calls. -/
inductive RingCall where
  | append (packet : EncodedVideoPacket)
  | clear

namespace RingCall

def packet? : RingCall → Option EncodedVideoPacket
  | append packet => some packet
  | clear => none

end RingCall

def H264GopRing.call (ring : H264GopRing) : RingCall → H264GopRing × Option Bool
  | .append packet => ((ring.append packet).1, some (ring.append packet).2)
  | .clear => (ring.clear, none)

/-- What is accepted, until the ring is cleared. -/
def take (log : List EncodedVideoPacket) : RingCall × Option Bool → List EncodedVideoPacket
  | (.clear, _) => []
  | (.append packet, some true) => log ++ [packet]
  | (.append _, _) => log

/-- What the calls have left. -/
def sinceClear (history : List (RingCall × Option Bool)) : List EncodedVideoPacket := history.foldl take []

/-- **The run**: what is still to come is not older than what was accepted. -/
theorem H264GopRing.Held.run {ring : H264GopRing} (h : ring.Held log) (calls : List RingCall)
    (hpts : Forward (log ++ calls.filterMap RingCall.packet?)) :
    (StepRun.run H264GopRing.call ring calls).Held ((trace H264GopRing.call ring calls).foldl take log) ∧
      (StepRun.run H264GopRing.call ring calls).maxDurationPts = ring.maxDurationPts := by
  induction calls generalizing ring log with
  | nil => exact ⟨h, rfl⟩
  | cons call calls ih =>
    cases call with
    | clear =>
      have hrest : Forward ([] ++ calls.filterMap RingCall.packet?) :=
        hpts.sublist (sublist_append_right _ _)
      exact ih H264GopRing.Held.clear hrest
    | append packet =>
      have hcall : RingCall.packet? (.append packet) = some packet := rfl
      rw [filterMap_cons_some hcall] at hpts
      cases hacc : (ring.append packet).2 with
      | true =>
        have hnewest : ∀ newest ∈ log.getLast?, newest.pts ≤ packet.pts := fun newest hmem =>
          (pairwise_append.1 hpts).2.2 newest (mem_of_getLast? hmem) packet mem_cons_self
        rw [append_cons] at hpts
        obtain ⟨hrun, hmax⟩ := ih (h.append hacc hnewest) hpts
        rw [ring.append_maxDurationPts packet] at hmax
        rw [trace, foldl_cons]
        have hstep : H264GopRing.call ring (.append packet) = ((ring.append packet).1, some true) := by
          rw [← hacc]
          rfl
        rw [hstep, run_cons, hstep]
        exact ⟨hrun, hmax⟩
      | false =>
        have hrest : Forward (log ++ calls.filterMap RingCall.packet?) :=
          hpts.sublist (List.Sublist.append_left (sublist_cons_self _ _) log)
        have hstep : H264GopRing.call ring (.append packet) = (ring, some false) := by
          show ((ring.append packet).1, some (ring.append packet).2) = _
          rw [hacc, H264GopRing.append_of_refused hacc]
        rw [trace, foldl_cons, run_cons, hstep]
        exact ih h hrest

/-- **The ring has the window of what it was given**, after any appends whose timestamps do not go back and any
    clears; and the next append is refused just if its packet is empty or comes before the first keyframe. -/
theorem gop_window (maxDurationMs : Int) (fps : Nat) (calls : List RingCall)
    (hpts : Forward (calls.filterMap RingCall.packet?)) :
    let ring := run H264GopRing.call (H264GopRing.create maxDurationMs fps) calls
    let log := sinceClear (trace H264GopRing.call (H264GopRing.create maxDurationMs fps) calls)
    Window (H264GopRing.create maxDurationMs fps).maxDurationPts log ring.snapshot ∧
      ∀ packet, (ring.append packet).2 = true ↔ packet.data ≠ [] ∧ (packet.keyframe = true ∨ log ≠ []) := by
  obtain ⟨hheld, hmax⟩ := (H264GopRing.Held.create maxDurationMs fps).run calls hpts
  refine ⟨?_, fun packet => hheld.append_accepts_iff⟩
  rw [← hmax]
  exact hheld.window

def threeGops : List RingCall :=
  [.append ⟨[1], 0, false⟩, .append ⟨[1], 0, true⟩, .append ⟨[2], 20, false⟩, .append ⟨[3], 30, true⟩,
    .append ⟨[4], 40, true⟩]

theorem gop_window_threeGops :
    Window 30 [⟨[1], 0, true⟩, ⟨[2], 20, false⟩, ⟨[3], 30, true⟩, ⟨[4], 40, true⟩]
      [⟨[3], 30, true⟩, ⟨[4], 40, true⟩] ∧
    ∀ packet, ((run H264GopRing.call (H264GopRing.create 1000 30) threeGops).append packet).2 = true ↔
      packet.data ≠ [] ∧ (packet.keyframe = true ∨
        sinceClear (trace H264GopRing.call (H264GopRing.create 1000 30) threeGops) ≠ []) := by
  have hforward : Forward (threeGops.filterMap RingCall.packet?) := by
    unfold Forward
    decide
  exact gop_window 1000 30 threeGops hforward

end Cockpit.Recording
