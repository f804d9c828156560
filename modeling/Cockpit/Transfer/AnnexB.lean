/-
  From start codes to lengths: `Nals` and `Avcc`. In an Annex B stream a NAL unit stands behind a start code of
  three or four bytes; in an AVCC stream it stands behind its length, in 32 bits.
-/
import Cockpit.Lib.LengthPrefix
import Cockpit.Lib.StepRun
import Cockpit.Transfer.RtspServer

namespace Cockpit.Transfer

open Cockpit.Camera LengthPrefix List

/-! ## Annex B -/

/-- Of three or of four bytes. -/
inductive StartCode where
  | three
  | four
  deriving DecidableEq

def StartCode.bytes : StartCode → List UInt8
  | three => [0, 0, 1]
  | four => [0, 0, 0, 1]

/-- Not empty, not ending in a zero byte, and without three bytes that start a code. -/
structure IsNal (nal : List UInt8) : Prop where
  nonempty : nal ≠ []
  last : nal.getLast? ≠ some 0
  zeros : ¬ [0, 0, 0] <:+: nal
  code : ¬ [0, 0, 1] <:+: nal

/-- Each unit behind its start code. -/
def annexB (units : List (StartCode × List UInt8)) : List UInt8 :=
  units.flatMap fun unit => unit.1.bytes ++ unit.2

/-- Where the start codes of the units are, the first of them at `i`. -/
def codePositions : Nat → List (StartCode × List UInt8) → List (Nat × Nat)
  | _, [] => []
  | i, (code, nal) :: units =>
    (i, i + code.bytes.length) :: codePositions (i + code.bytes.length + nal.length) units

theorem startCodes_three (i : Nat) {nal : List UInt8} (hne : nal ≠ []) (rest : List UInt8) :
    startCodes i ([0, 0, 1] ++ (nal ++ rest)) = (i, i + 3) :: startCodes (i + 3) (nal ++ rest) := by
  obtain ⟨b, bytes, rfl⟩ := exists_cons_of_ne_nil hne
  rfl

theorem startCodes_four (i : Nat) (rest : List UInt8) :
    startCodes i ([0, 0, 0, 1] ++ rest) = (i, i + 4) :: startCodes (i + 4) rest := rfl

theorem startCodes_skip {i : Nat} {b : UInt8} {rest : List UInt8}
    (hthree : ¬ [0, 0, 1] <+: b :: rest) (hfour : ¬ [0, 0, 0, 1] <+: b :: rest) :
    startCodes i (b :: rest) = startCodes (i + 1) rest := by
  match rest with
  | [] | [_] | [_, _] => rfl
  | c :: d :: e :: rest =>
    have hthree' : ¬ (b = 0 ∧ c = 0 ∧ d = 1) := by
      rintro ⟨rfl, rfl, rfl⟩
      exact hthree ⟨e :: rest, rfl⟩
    have hfour' : ¬ (b = 0 ∧ c = 0 ∧ d = 0 ∧ e = 1) := by
      rintro ⟨rfl, rfl, rfl, rfl⟩
      exact hfour ⟨rest, rfl⟩
    rw [startCodes, if_neg (by simpa [and_assoc] using hthree'), if_neg (by simpa [and_assoc] using hfour')]

theorem prefix_of_nal {b y : UInt8} {p rest : List UInt8} (hlast : (b :: p).getLast? ≠ some 0)
    (h : [0, 0, y] <+: b :: (p ++ rest)) : [0, 0, y] <+: b :: p := by
  obtain ⟨behind, hbytes⟩ := h
  match p, hlast, hbytes with
  | [], hlast, hbytes =>
    injection hbytes with hb _
    exact absurd (congrArg some hb.symm) hlast
  | [c], hlast, hbytes =>
    injection hbytes with _ hbytes
    injection hbytes with hc _
    exact absurd (congrArg some hc.symm) hlast
  | c :: d :: p, _, hbytes =>
    injection hbytes with hb hbytes
    injection hbytes with hc hbytes
    injection hbytes with hd _
    exact ⟨p, by rw [← hb, ← hc, ← hd]; rfl⟩

/-- **No start code begins in a unit**: it is gone through byte by byte. -/
theorem startCodes_nal {p : List UInt8} (hlast : p.getLast? ≠ some 0) (hzeros : ¬ [0, 0, 0] <:+: p)
    (hcode : ¬ [0, 0, 1] <:+: p) (i : Nat) (rest : List UInt8) :
    startCodes i (p ++ rest) = startCodes (i + p.length) rest := by
  induction p generalizing i with
  | nil => rfl
  | cons b p ih =>
    have hthree : ¬ [0, 0, 1] <+: b :: (p ++ rest) :=
      fun h => hcode (prefix_of_nal hlast h).isInfix
    have hfour : ¬ [0, 0, 0, 1] <+: b :: (p ++ rest) := by
      intro h
      have hshort : [0, 0, 0] <+: ([0, 0, 0, 1] : List UInt8) := ⟨[1], rfl⟩
      exact hzeros (prefix_of_nal hlast (hshort.trans h)).isInfix
    have hlast' : p.getLast? ≠ some 0 := by
      intro h
      refine hlast ?_
      rw [List.getLast?_cons, h]
      rfl
    have hin : p <:+: b :: p := (suffix_cons b p).isInfix
    rw [cons_append, startCodes_skip hthree hfour,
      ih hlast' (fun h => hzeros (h.trans hin)) (fun h => hcode (h.trans hin)), length_cons]
    congr 1
    omega

variable {units : List (StartCode × List UInt8)}

/-- **The start codes that are found are those of the units.** -/
theorem startCodes_annexB (h : ∀ unit ∈ units, IsNal unit.2) (i : Nat) :
    startCodes i (annexB units) = codePositions i units := by
  induction units generalizing i with
  | nil => rfl
  | cons unit units ih =>
    obtain ⟨code, nal⟩ := unit
    rw [forall_mem_cons] at h
    obtain ⟨hnal, hunits⟩ := h
    have hbehind : ∀ j, startCodes j (nal ++ annexB units) = codePositions (j + nal.length) units := by
      intro j
      rw [startCodes_nal hnal.last hnal.zeros hnal.code, ih hunits]
    have hstream : annexB ((code, nal) :: units) = code.bytes ++ (nal ++ annexB units) := by
      unfold annexB
      rw [flatMap_cons, append_assoc]
    rw [hstream]
    cases code with
    | three =>
      show startCodes i ([0, 0, 1] ++ (nal ++ annexB units)) = _
      rw [startCodes_three i hnal.nonempty, hbehind]
      rfl
    | four =>
      show startCodes i ([0, 0, 0, 1] ++ (nal ++ annexB units)) = _
      rw [startCodes_four, hbehind]
      rfl

/-! ## `Nals` -/

/-- The bytes between a start code and the next. -/
def between (data : List UInt8) : (Nat × Nat) × Nat → Option (List UInt8)
  | ((_, first), last) => if first < last then some ((data.take last).drop first) else none

theorem between_nal {before code nal : List UInt8} (hne : nal ≠ []) (rest : List UInt8) {i first last : Nat}
    (hfirst : first = before.length + code.length) (hlast : last = first + nal.length) :
    between (before ++ (code ++ (nal ++ rest))) ((i, first), last) = some nal := by
  have hpos : 0 < nal.length := length_pos_iff.2 hne
  have hfront : (before ++ code).length = first := by rw [length_append, hfirst]
  have hunit : before ++ (code ++ (nal ++ rest)) = (before ++ code ++ nal) ++ rest := by
    rw [append_assoc, append_assoc]
  have hend : (before ++ code ++ nal).length = last := by rw [length_append, hfront, hlast]
  show (if first < last then _ else _) = _
  rw [if_pos (by omega), hunit, take_left' hend, drop_left' hfront]

theorem filterMap_between (h : ∀ unit ∈ units, unit.2 ≠ []) (before : List UInt8) :
    ((codePositions before.length units).zip ((codePositions before.length units).tail.map (·.1) ++
        [(before ++ annexB units).length])).filterMap (between (before ++ annexB units)) = units.map Prod.snd := by
  induction units generalizing before with
  | nil => rfl
  | cons unit units ih =>
    obtain ⟨code, nal⟩ := unit
    rw [forall_mem_cons] at h
    obtain ⟨hnal, hunits⟩ := h
    have hstream : before ++ annexB ((code, nal) :: units) = before ++ (code.bytes ++ (nal ++ annexB units)) := by
      unfold annexB
      rw [flatMap_cons, append_assoc]
    have hbehind : before ++ (code.bytes ++ (nal ++ annexB units)) =
        (before ++ code.bytes ++ nal) ++ annexB units := by
      rw [append_assoc, append_assoc]
    have hlen : (before ++ code.bytes ++ nal).length = before.length + code.bytes.length + nal.length := by
      rw [length_append, length_append]
    have hrest := ih hunits (before ++ code.bytes ++ nal)
    rw [hlen, ← hbehind] at hrest
    rw [hstream, codePositions, tail_cons]
    cases units with
    | nil =>
      have hend : (before ++ (code.bytes ++ (nal ++ annexB []))).length =
          before.length + code.bytes.length + nal.length := by
        rw [hbehind, length_append, hlen]
        rfl
      show ([((before.length, before.length + code.bytes.length), _)]).filterMap _ = [nal]
      rw [filterMap_cons, between_nal hnal _ rfl hend]
      rfl
    | cons unit' units =>
      rw [codePositions, map_cons, cons_append, zip_cons_cons, filterMap_cons, between_nal hnal _ rfl rfl]
      rw [codePositions, tail_cons] at hrest
      show nal :: _ = nal :: _
      rw [hrest]

/-- **`Nals` gives back the units of an Annex B stream.** -/
theorem nals_annexB (hne : units ≠ []) (h : ∀ unit ∈ units, IsNal unit.2) :
    nals (annexB units) = units.map Prod.snd := by
  have hcut := filterMap_between (fun unit hmem => (h unit hmem).nonempty) []
  have hstarts := startCodes_annexB h 0
  obtain ⟨unit, units, rfl⟩ := exists_cons_of_ne_nil hne
  unfold nals
  rw [hstarts]
  exact hcut

/-! ## `Avcc` -/

theorem avcc_eq (data : List UInt8) : avcc data = (nals data).flatMap (frame 4) := rfl

/-- **An AVCC reader finds the units** in what `Avcc` makes of the stream where their lengths fit in 32 bits, and
    only there. -/
theorem readFrames_avcc_iff (hne : units ≠ []) (h : ∀ unit ∈ units, IsNal unit.2) :
    readFrames 4 (avcc (annexB units)) = some (units.map Prod.snd) ↔
      ∀ unit ∈ units, unit.2.length < 2 ^ 32 := by
  rw [avcc_eq, nals_annexB hne h, readFrames_frames_iff (by decide)]
  exact forall_mem_map

/-- **The conversion is exact.** -/
theorem nals_exact {units : List (StartCode × List UInt8)} (hne : units ≠ [])
    (h : ∀ unit ∈ units, IsNal unit.2) :
    nals (annexB units) = units.map Prod.snd ∧
      (readFrames 4 (avcc (annexB units)) = some (units.map Prod.snd) ↔
        ∀ unit ∈ units, unit.2.length < 2 ^ 32) :=
  ⟨nals_annexB hne h, readFrames_avcc_iff hne h⟩

theorem nals_exact_oneByte :
    nals (annexB [(.three, [0x65]), (.four, [0x41])]) = [[0x65], [0x41]] ∧
      (readFrames 4 (avcc (annexB [(.three, [0x65]), (.four, [0x41])])) = some [[0x65], [0x41]] ↔
        ∀ unit ∈ [(StartCode.three, [(0x65 : UInt8)]), (.four, [0x41])], unit.2.length < 2 ^ 32) := by
  have hnal : ∀ unit ∈ [(StartCode.three, [(0x65 : UInt8)]), (.four, [0x41])], IsNal unit.2 := by
    have hone : ∀ b : UInt8, b ≠ 0 → IsNal [b] := by
      intro b hb
      have hshort : ∀ t : List UInt8, t.length = 3 → ¬ t <:+: [b] := by
        intro t ht hinfix
        have hle := hinfix.length_le
        rw [ht, length_singleton] at hle
        exact absurd hle (by decide)
      exact ⟨cons_ne_nil _ _, fun hlast => hb (Option.some.inj hlast), hshort _ rfl, hshort _ rfl⟩
    refine forall_mem_cons.2 ⟨hone 0x65 (by decide), ?_⟩
    exact forall_mem_singleton.2 (hone 0x41 (by decide))
  exact nals_exact (cons_ne_nil _ _) hnal

theorem isNal_replicate {n : Nat} (hn : n ≠ 0) {b : UInt8} (hb : b ≠ 0) : IsNal (List.replicate n b) := by
  have hzero : ∀ t : List UInt8, 0 ∈ t → ¬ t <:+: List.replicate n b :=
    fun t ht hrun => hb (eq_of_mem_replicate (hrun.subset ht)).symm
  refine ⟨fun hnil => hn ((replicate_eq_nil_iff b).1 hnil), ?_, hzero _ (by decide), hzero _ (by decide)⟩
  intro hlast
  rw [List.getLast?_replicate, if_neg hn] at hlast
  exact hb (Option.some.inj hlast)

/-- A unit whose length does not fit. -/
def longUnit : List (StartCode × List UInt8) := [(.four, List.replicate (2 ^ 32) 0x65)]

/-- It is not read back. -/
theorem longUnit_lost : (∀ unit ∈ longUnit, IsNal unit.2) ∧
    readFrames 4 (avcc (annexB longUnit)) ≠ some (longUnit.map Prod.snd) := by
  have hnal : ∀ unit ∈ longUnit, IsNal unit.2 :=
    forall_mem_singleton.2 (isNal_replicate (by decide) (by decide))
  refine ⟨hnal, fun hread => ?_⟩
  have hshort := (readFrames_avcc_iff (cons_ne_nil _ _) hnal).1 hread
  have hlen := forall_mem_singleton.1 hshort
  rw [length_replicate] at hlen
  exact absurd hlen (Nat.lt_irrefl _)

end Cockpit.Transfer
