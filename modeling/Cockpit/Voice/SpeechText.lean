/-
  The segments of `SplitSpeechText` are the text but whitespace, each of them within the limit, and no code
  point is cut.

  In the loop of the source the number of tokens stands for "no boundary yet" and for "no segment ends here",
  although it is the end of the text as well.
-/
import Cockpit.Lib.Utf8Text
import Cockpit.Voice.SpeechSegmenter

namespace Cockpit.Voice

open List

/-! ## The loop by its indices -/

/-- The variables of the loop. -/
structure SplitState where
  segmentStart : Nat
  index : Nat
  lastSoftBoundary : Nat
  start_le : segmentStart ≤ index

section Loop

variable {maxCodepoints : Nat} {tokens : List TextToken}

/-- `last_soft_boundary`, with the token at the index. -/
def SplitState.softBoundary (s : SplitState) (token : TextToken) : Nat :=
  if token.softBoundary then s.index else s.lastSoftBoundary

variable (s : SplitState)

/-- `segment_end`; the number of tokens when no segment ends at the index. -/
def SplitState.segmentEnd (maxCodepoints size : Nat) (token : TextToken) : Nat :=
  let lastSoftBoundary := s.softBoundary token
  if token.hardBoundary then s.index + 1
  else if s.index - s.segmentStart + 1 ≥ maxCodepoints then
    if lastSoftBoundary ≠ size ∧ lastSoftBoundary ≥ s.segmentStart then lastSoftBoundary + 1
    else s.index + 1
  else size

theorem SplitState.segmentStart_lt {size : Nat} {token : TextToken} (h : s.segmentEnd maxCodepoints size token ≠ size) :
    s.segmentStart < s.segmentEnd maxCodepoints size token := by
  have hstart := s.start_le
  unfold segmentEnd at h ⊢
  dsimp only at h ⊢
  split
  case isTrue => omega
  case isFalse hhard =>
    rw [if_neg hhard] at h
    split
    case isTrue =>
      split
      case isTrue hsoft => omega
      case isFalse => omega
    case isFalse hshort =>
      rw [if_neg hshort] at h
      exact absurd rfl h

/-- The loop of `SplitSpeechText`, and what comes behind it. -/
def splitLoop (maxCodepoints : Nat) (tokens : List TextToken) (s : SplitState) : List (List UInt8) :=
  if hindex : s.index < tokens.length then
    let segmentEnd := s.segmentEnd maxCodepoints tokens.length tokens[s.index]
    if segmentEnd ≠ tokens.length then
      segment ((tokens.take segmentEnd).drop s.segmentStart) ++
        splitLoop maxCodepoints tokens ⟨segmentEnd, segmentEnd, tokens.length, Nat.le_refl segmentEnd⟩
    else
      splitLoop maxCodepoints tokens ⟨s.segmentStart, s.index + 1, s.softBoundary tokens[s.index],
        Nat.le_succ_of_le s.start_le⟩
  else if s.segmentStart < tokens.length then segment (tokens.drop s.segmentStart)
  else []
termination_by (tokens.length - s.segmentStart, tokens.length - s.index)
decreasing_by
  · have hlt := s.segmentStart_lt (by assumption)
    have hstart := s.start_le
    apply Prod.Lex.left
    show tokens.length - s.segmentEnd _ _ _ < tokens.length - s.segmentStart
    omega
  · apply Prod.Lex.right
    show tokens.length - (s.index + 1) < tokens.length - s.index
    omega

/-! ## The loop computes `splitTokens` -/

theorem lastSoftBoundary_concat (seen : List TextToken) (token : TextToken) :
    lastSoftBoundary (seen ++ [token]) =
      if token.softBoundary then some (seen.length + 1) else lastSoftBoundary seen := by
  unfold lastSoftBoundary
  rw [reverse_append, reverse_singleton, singleton_append, List.findIdx?_cons,
    length_append, length_singleton]
  cases token.softBoundary with
  | true => rfl
  | false =>
    cases seen.reverse.findIdx? TextToken.softBoundary with
    | none => rfl
    | some behind =>
      show some (seen.length + 1 - (behind + 1)) = some (seen.length - behind)
      congr 1
      omega

theorem lastSoftBoundary_bounds {seen : List TextToken} {n : Nat} (h : lastSoftBoundary seen = some n) :
    0 < n ∧ n ≤ seen.length := by
  unfold lastSoftBoundary at h
  cases hfind : seen.reverse.findIdx? TextToken.softBoundary with
  | none =>
    rw [hfind] at h
    cases h
  | some behind =>
    rw [hfind] at h
    obtain rfl : seen.length - behind = n := Option.some.inj h
    obtain ⟨hlt, -⟩ := List.findIdx?_eq_some_iff_getElem.mp hfind
    rw [length_reverse] at hlt
    omega

/-- The index of the last soft boundary in the segment so far, and the same in `splitTokens`. -/
def SoftAt (size start lastSoft : Nat) (seen : List TextToken) : Prop :=
  match lastSoftBoundary seen with
  | none => lastSoft = size
  | some n => lastSoft + 1 = start + n

/-- The tokens of the segment so far. -/
def SplitState.seen (tokens : List TextToken) : List TextToken :=
  (tokens.take s.index).drop s.segmentStart

theorem softAt_concat {s : SplitState} {size : Nat} {seen : List TextToken} (token : TextToken)
    (hsoft : SoftAt size s.segmentStart s.lastSoftBoundary seen) (hlen : s.segmentStart + seen.length = s.index) :
    SoftAt size s.segmentStart (s.softBoundary token) (seen ++ [token]) := by
  unfold SoftAt SplitState.softBoundary
  rw [lastSoftBoundary_concat]
  cases htoken : token.softBoundary with
  | true =>
    show s.index + 1 = s.segmentStart + (seen.length + 1)
    omega
  | false => exact hsoft

/-- The index says what `segmentEnd` finds. -/
theorem segmentEnd_spec (maxCodepoints : Nat) {s : SplitState} {size : Nat} {seen : List TextToken} (token : TextToken)
    (hsoft : SoftAt size s.segmentStart s.lastSoftBoundary seen) (hlen : s.segmentStart + seen.length = s.index)
    (hindex : s.index < size) :
    match segmentEnd maxCodepoints (seen ++ [token]) token with
    | some n => 0 < n ∧ n ≤ seen.length + 1 ∧ s.segmentEnd maxCodepoints size token = s.segmentStart + n
    | none => s.segmentEnd maxCodepoints size token = size := by
  have hseen : (seen ++ [token]).length = seen.length + 1 := by
    rw [length_append, length_singleton]
  have hnext := softAt_concat token hsoft hlen
  unfold segmentEnd SplitState.segmentEnd
  rw [hseen]
  cases hhard : token.hardBoundary with
  | true =>
    show 0 < seen.length + 1 ∧ seen.length + 1 ≤ seen.length + 1 ∧ s.index + 1 = s.segmentStart + (seen.length + 1)
    omega
  | false =>
    simp only [Bool.false_eq_true, if_false]
    rw [show s.index - s.segmentStart = seen.length by omega]
    by_cases hlong : seen.length + 1 ≥ maxCodepoints
    · rw [if_pos hlong, if_pos hlong]
      dsimp only
      unfold SoftAt at hnext
      cases hboundary : lastSoftBoundary (seen ++ [token]) with
      | none =>
        rw [hboundary] at hnext
        have hnone : s.softBoundary token = size := hnext
        rw [if_neg (by rw [hnone]; exact fun h => h.1 rfl)]
        show 0 < seen.length + 1 ∧ seen.length + 1 ≤ seen.length + 1 ∧ s.index + 1 = s.segmentStart + (seen.length + 1)
        omega
      | some n =>
        obtain ⟨hpos, hle⟩ := lastSoftBoundary_bounds hboundary
        rw [hseen] at hle
        rw [hboundary] at hnext
        have hsome : s.softBoundary token + 1 = s.segmentStart + n := hnext
        rw [if_pos (by omega)]
        exact ⟨hpos, hle, hsome⟩
    · rw [if_neg hlong, if_neg hlong]

theorem seen_next {s : SplitState} (hindex : s.index < tokens.length) :
    (tokens.take (s.index + 1)).drop s.segmentStart = s.seen tokens ++ [tokens[s.index]] := by
  have hstart := s.start_le
  unfold SplitState.seen
  rw [take_add_one, List.getElem?_eq_getElem hindex, drop_append_of_le_length]
  · rfl
  · rw [length_take]
    omega

theorem length_seen {s : SplitState} (hindex : s.index ≤ tokens.length) :
    s.segmentStart + (s.seen tokens).length = s.index := by
  have hstart := s.start_le
  unfold SplitState.seen
  rw [length_drop, length_take]
  omega

/-- **The loop computes `splitTokens`**, from any state that it can be in. -/
theorem splitLoop_eq (maxCodepoints : Nat) (tokens : List TextToken) (s : SplitState)
    (hsoft : SoftAt tokens.length s.segmentStart s.lastSoftBoundary (s.seen tokens)) :
    splitLoop maxCodepoints tokens s = splitTokens maxCodepoints (s.seen tokens) (tokens.drop s.index) := by
  induction s using splitLoop.induct maxCodepoints tokens with
  | case1 s hindex ends hend ih =>
    have hlen := length_seen (Nat.le_of_lt hindex)
    have hspec := segmentEnd_spec maxCodepoints tokens[s.index] hsoft hlen hindex
    rw [splitLoop, dif_pos hindex]
    dsimp only
    rw [if_pos hend, drop_eq_getElem_cons hindex, splitTokens]
    cases hcut : segmentEnd maxCodepoints (s.seen tokens ++ [tokens[s.index]]) tokens[s.index] with
    | none =>
      rw [hcut] at hspec
      exact absurd hspec hend
    | some n =>
      rw [hcut] at hspec
      obtain ⟨hpos, hle, heq⟩ := hspec
      have hends : ends = s.segmentStart + n := heq
      have hseen : (s.seen tokens ++ [tokens[s.index]]).length = (s.seen tokens).length + 1 := by
        rw [length_append, length_singleton]
      have hinside : ¬ (n = 0 ∨ (n ≥ (s.seen tokens ++ [tokens[s.index]]).length ∧
          tokens.drop (s.index + 1) = [])) := by
        rintro (hzero | ⟨hall, hnil⟩)
        · omega
        · have hlast := drop_eq_nil_iff.mp hnil
          omega
      have htake : (tokens.take ends).drop s.segmentStart = (s.seen tokens ++ [tokens[s.index]]).take n := by
        rw [← seen_next hindex, take_drop, hends, take_take, Nat.min_eq_left (by omega)]
      have hdrop : (s.seen tokens ++ [tokens[s.index]]).drop n ++ tokens.drop (s.index + 1) =
          tokens.drop ends := by
        rw [← seen_next hindex, drop_drop, ← hends]
        conv_rhs => rw [← take_append_drop (s.index + 1) tokens]
        rw [drop_append_of_le_length]
        rw [length_take]
        omega
      have hnil : SplitState.seen ⟨ends, ends, tokens.length, Nat.le_refl ends⟩ tokens = [] := by
        show (tokens.take ends).drop ends = []
        exact drop_eq_nil_of_le (by rw [length_take]; omega)
      dsimp only
      rw [if_neg hinside, hdrop, ← htake, ih (by rw [hnil]; rfl), hnil]
  | case2 s hindex ends hend ih =>
    have hlen := length_seen (Nat.le_of_lt hindex)
    have hspec := segmentEnd_spec maxCodepoints tokens[s.index] hsoft hlen hindex
    have hseen : SplitState.seen ⟨s.segmentStart, s.index + 1, s.softBoundary tokens[s.index],
        Nat.le_succ_of_le s.start_le⟩ tokens = s.seen tokens ++ [tokens[s.index]] := seen_next hindex
    have hnext := softAt_concat tokens[s.index] hsoft hlen
    rw [← hseen] at hnext
    rw [splitLoop, dif_pos hindex]
    dsimp only
    rw [if_neg hend, ih hnext, hseen, drop_eq_getElem_cons hindex]
    conv_rhs => rw [splitTokens]
    dsimp only
    cases hcut : segmentEnd maxCodepoints (s.seen tokens ++ [tokens[s.index]]) tokens[s.index] with
    | none => rfl
    | some n =>
      -- the segment would end with the text, and is left to what comes behind the loop
      rw [hcut] at hspec
      obtain ⟨-, hle, heq⟩ := hspec
      have hends : s.segmentStart + n = tokens.length := heq.symm.trans (Decidable.not_not.mp hend)
      have hlast : n ≥ (s.seen tokens ++ [tokens[s.index]]).length ∧ tokens.drop (s.index + 1) = [] := by
        rw [length_append, length_singleton, drop_eq_nil_iff]
        omega
      dsimp only
      rw [if_pos (.inr hlast)]
  | case3 s hindex hstart =>
    have hdrop : tokens.drop s.index = [] := drop_eq_nil_of_le (by omega)
    rw [splitLoop, dif_neg hindex, if_pos hstart, hdrop, splitTokens]
    unfold SplitState.seen
    rw [take_of_length_le (by omega)]
  | case4 s hindex hstart =>
    have hseen : s.seen tokens = [] := by
      unfold SplitState.seen
      rw [take_of_length_le (by omega), drop_eq_nil_of_le (by omega)]
    rw [splitLoop, dif_neg hindex, if_neg hstart, drop_eq_nil_of_le (by omega), splitTokens, hseen]
    rfl

end Loop

variable (text : List UInt8)

/-- `SplitSpeechText` -/
def splitByIndex (maxCodepoints : Nat) : List (List UInt8) :=
  if text = [] || maxCodepoints = 0 then []
  else splitLoop maxCodepoints (tokens text) ⟨0, 0, (tokens text).length, Nat.le_refl 0⟩

theorem splitByIndex_eq (maxCodepoints : Nat) :
    splitByIndex text maxCodepoints = splitSpeechText text maxCodepoints := by
  unfold splitByIndex splitSpeechText
  split
  case isTrue => rfl
  case isFalse => exact splitLoop_eq maxCodepoints (tokens text) _ rfl

/-! ## The tokens -/

theorem flatMap_tokens : (tokens text).flatMap TextToken.bytes = text := by
  induction text using tokens.induct with
  | case1 =>
    rw [tokens]
    rfl
  | case2 lead text ih =>
    rw [tokens, flatMap_cons, ih]
    exact take_append_drop _ _

theorem take_append_prefix {k : Nat} {l part : List UInt8} (h : part <+: l.drop k) :
    (l.take k ++ part).take k = l.take k ∧ (l.take k ++ part).drop k = part := by
  rcases Nat.le_total k l.length with hle | hge
  · have hlen : (l.take k).length = k := by
      rw [length_take, Nat.min_eq_left hle]
    exact ⟨take_left' hlen, drop_left' hlen⟩
  · rw [drop_eq_nil_of_le hge, prefix_nil] at h
    rw [h, append_nil, take_take, Nat.min_self, drop_take, Nat.sub_self, take_zero]
    exact ⟨rfl, rfl⟩

theorem tokens_split {front behind : List TextToken} (h : tokens text = front ++ behind) :
    tokens (front.flatMap TextToken.bytes) = front ∧ tokens (behind.flatMap TextToken.bytes) = behind := by
  have hnil : tokens [] = [] := by rw [tokens]
  induction text using tokens.induct generalizing front with
  | case1 =>
    rw [hnil] at h
    obtain ⟨rfl, rfl⟩ := append_eq_nil_iff.mp h.symm
    exact ⟨hnil, hnil⟩
  | case2 lead text ih =>
    cases front with
    | nil =>
      have hall : tokens (lead :: text) = behind := h
      refine ⟨hnil, ?_⟩
      rw [← hall, flatMap_tokens]
    | cons first front =>
      rw [tokens] at h
      obtain ⟨rfl, hrest⟩ := cons_eq_cons.mp h
      change _ = front ++ behind at hrest
      obtain ⟨hfront, hbehind⟩ := ih hrest
      refine ⟨?_, hbehind⟩
      have hpart : front.flatMap TextToken.bytes <+: (lead :: text).drop (utf8CodePointBytes lead) := by
        have htext := flatMap_tokens ((lead :: text).drop (utf8CodePointBytes lead))
        rw [hrest, flatMap_append] at htext
        exact ⟨_, htext⟩
      obtain ⟨htake, hdrop⟩ := take_append_prefix hpart
      -- the lead byte is the same
      obtain ⟨more, hmore⟩ : ∃ more, (lead :: text).take (utf8CodePointBytes lead) ++
          front.flatMap TextToken.bytes = lead :: more := by
        obtain ⟨n, hn⟩ := Nat.exists_eq_add_of_lt (utf8CodePointBytes_pos lead)
        rw [hn, take_succ_cons]
        exact ⟨_, rfl⟩
      rw [hmore] at htake hdrop
      rw [flatMap_cons]
      show tokens ((lead :: text).take (utf8CodePointBytes lead) ++ front.flatMap TextToken.bytes) = _
      rw [hmore, tokens, htake, hdrop, hfront]

theorem length_tokens_take (n : Nat) : (tokens (text.take n)).length ≤ (tokens text).length := by
  induction text using tokens.induct generalizing n with
  | case1 => exact Nat.le_of_eq (by rw [take_nil])
  | case2 lead text ih =>
    cases n with
    | zero =>
      rw [take_zero, tokens]
      exact Nat.zero_le _
    | succ n =>
      rw [tokens, take_succ_cons, tokens, length_cons, length_cons, ← take_succ_cons, drop_take]
      exact Nat.succ_le_succ (ih _)

theorem isSpace_spec : ∀ b, isSpace b = true → b.toNat ≤ 0x7F ∧ utf8CodePointBytes b = 1 :=
  Utf8.forall_byte (by decide +kernel)

theorem length_tokens_dropWhile : (tokens (text.dropWhile isSpace)).length ≤ (tokens text).length := by
  induction text with
  | nil => exact Nat.le_refl _
  | cons lead text ih =>
    rw [dropWhile_cons]
    split
    case isTrue hspace =>
      have hone : utf8CodePointBytes lead = 1 := (isSpace_spec lead hspace).2
      rw [tokens, hone]
      exact Nat.le_succ_of_le ih
    case isFalse => exact Nat.le_refl _

/-! ## The segments -/

theorem filter_dropWhile (p : UInt8 → Bool) (text : List UInt8) :
    (text.dropWhile p).filter (fun b => !p b) = text.filter fun b => !p b := by
  induction text with
  | nil => rfl
  | cons b text ih =>
    rw [dropWhile_cons]
    split
    case isTrue hb => rw [ih, filter_cons_of_neg (by rw [hb]; decide)]
    case isFalse => rfl

theorem filter_trimAsciiWhitespace :
    (trimAsciiWhitespace text).filter (fun b => !isSpace b) = text.filter fun b => !isSpace b := by
  unfold trimAsciiWhitespace
  rw [filter_reverse, filter_dropWhile, filter_reverse, reverse_reverse, filter_dropWhile]

/-- A text with no whitespace at its ends. -/
structure Trimmed (text : List UInt8) : Prop where
  ne_nil : text ≠ []
  first : ∀ b ∈ text.head?, isSpace b = false
  last : ∀ b ∈ text.getLast?, isSpace b = false

theorem trimmed_trimAsciiWhitespace {text : List UInt8} (h : trimAsciiWhitespace text ≠ []) :
    Trimmed (trimAsciiWhitespace text) := by
  have hhead : ∀ (l : List UInt8), ∀ b ∈ (l.dropWhile isSpace).head?, isSpace b = false := by
    intro l b hb
    have hspec := List.head?_dropWhile_not isSpace l
    rw [hb] at hspec
    simpa using hspec
  refine ⟨h, ?_, ?_⟩ <;> intro b hb
  · -- the first byte is the one that stopped the first loop, since the second one has left something
    unfold trimAsciiWhitespace at h hb
    obtain ⟨cut, hcut⟩ : ∃ cut, ((text.dropWhile isSpace).reverse.dropWhile isSpace).reverse ++ cut =
        text.dropWhile isSpace := by
      have hsuffix := dropWhile_suffix (l := (text.dropWhile isSpace).reverse) isSpace
      obtain ⟨cut, hcut⟩ := hsuffix
      refine ⟨cut.reverse, ?_⟩
      rw [← reverse_append, hcut, reverse_reverse]
    have hfirst := hhead text b
    rw [← hcut, List.head?_append_of_ne_nil _ h] at hfirst
    exact hfirst hb
  · unfold trimAsciiWhitespace at hb
    rw [List.getLast?_reverse] at hb
    exact hhead _ b hb

theorem segmentEnd_bounds {maxCodepoints n : Nat} {seen : List TextToken} {last : TextToken} (hne : seen ≠ [])
    (h : segmentEnd maxCodepoints seen last = some n) : 0 < n ∧ n ≤ seen.length := by
  have hpos : 0 < seen.length := length_pos_iff.mpr hne
  unfold segmentEnd at h
  split at h
  · obtain rfl := Option.some.inj h
    exact ⟨hpos, Nat.le_refl _⟩
  · split at h
    · obtain rfl := Option.some.inj h
      cases hboundary : lastSoftBoundary seen with
      | none => exact ⟨hpos, Nat.le_refl _⟩
      | some n => exact lastSoftBoundary_bounds hboundary
    · cases h

theorem length_lt_of_segmentEnd {maxCodepoints : Nat} {seen : List TextToken} {last : TextToken}
    (h : segmentEnd maxCodepoints seen last = none) : seen.length < maxCodepoints := by
  unfold segmentEnd at h
  split at h
  · cases h
  · split at h
    · cases h
    · omega

/-- **The segments are those of groups of tokens**, none of them too long, which are all of the tokens.  Until
    the last token is reached there is room for one more in the segment so far. -/
theorem splitTokens_groups {maxCodepoints : Nat} (hmax : 0 < maxCodepoints) (current rest : List TextToken)
    (hle : current.length ≤ maxCodepoints) (hlt : rest ≠ [] → current.length < maxCodepoints) :
    ∃ groups : List (List TextToken), groups.flatten = current ++ rest ∧
      (∀ group ∈ groups, group.length ≤ maxCodepoints) ∧
      splitTokens maxCodepoints current rest = groups.flatMap segment := by
  induction current, rest using splitTokens.induct maxCodepoints with
  | case1 current =>
    refine ⟨[current], ?_, ?_, ?_⟩
    · rw [flatten_singleton, append_nil]
    · rw [forall_mem_singleton]
      exact hle
    · rw [splitTokens, flatMap_singleton]
  | case2 current token rest seen n hcut hlast ih =>
    have hseen : seen.length = current.length + 1 := by
      rw [length_append, length_singleton]
    have hroom : current.length < maxCodepoints := hlt (cons_ne_nil _ _)
    obtain ⟨hpos, -⟩ := segmentEnd_bounds (append_ne_nil_of_right_ne_nil _ (cons_ne_nil _ _)) hcut
    have hrest : rest = [] := (hlast.resolve_left (by omega)).2
    obtain ⟨groups, hflatten, hlengths, hsegments⟩ := ih (by omega) (fun hne => absurd hrest hne)
    refine ⟨groups, ?_, hlengths, ?_⟩
    · rw [hflatten]
      exact append_assoc current [token] rest
    · rw [splitTokens, hcut]
      dsimp only
      rw [if_pos hlast]
      exact hsegments
  | case3 current token rest seen n hcut hlast ih =>
    have hseen : seen.length = current.length + 1 := by
      rw [length_append, length_singleton]
    have hroom : current.length < maxCodepoints := hlt (cons_ne_nil _ _)
    obtain ⟨groups, hflatten, hlengths, hsegments⟩ := ih (Nat.zero_le _) (fun _ => hmax)
    refine ⟨seen.take n :: groups, ?_, ?_, ?_⟩
    · rw [flatten_cons, hflatten, nil_append, ← append_assoc, take_append_drop]
      exact append_assoc current [token] rest
    · rw [forall_mem_cons]
      refine ⟨?_, hlengths⟩
      rw [length_take]
      omega
    · rw [splitTokens, hcut]
      dsimp only
      rw [if_neg hlast, flatMap_cons, ← hsegments]
  | case4 current token rest seen hcut ih =>
    have hroom : seen.length < maxCodepoints := length_lt_of_segmentEnd hcut
    obtain ⟨groups, hflatten, hlengths, hsegments⟩ := ih (Nat.le_of_lt hroom) (fun _ => hroom)
    refine ⟨groups, ?_, hlengths, ?_⟩
    · rw [hflatten]
      exact append_assoc current [token] rest
    · rw [splitTokens, hcut]
      exact hsegments

/-- What is said of every segment. -/
structure IsSegment (maxCodepoints : Nat) (text : List UInt8) : Prop extends Trimmed text where
  length_le : (tokens text).length ≤ maxCodepoints

theorem mem_segment {group : List TextToken} {text : List UInt8} (h : text ∈ segment group) :
    text = trimAsciiWhitespace (group.flatMap TextToken.bytes) ∧ text ≠ [] := by
  unfold segment at h
  dsimp only at h
  split at h
  case isTrue => cases h
  case isFalse hne =>
    rw [mem_singleton.mp h]
    exact ⟨rfl, hne⟩

theorem isSegment_of_mem {maxCodepoints : Nat} {group : List TextToken} {text : List UInt8}
    (hlen : group.length ≤ maxCodepoints) (htokens : tokens (group.flatMap TextToken.bytes) = group)
    (h : text ∈ segment group) : IsSegment maxCodepoints text := by
  obtain ⟨rfl, hne⟩ := mem_segment h
  refine ⟨trimmed_trimAsciiWhitespace hne, ?_⟩
  -- the whitespace behind is taken away from the text, and so is that in front
  have hfront := length_tokens_dropWhile (group.flatMap TextToken.bytes)
  have hprefix : trimAsciiWhitespace (group.flatMap TextToken.bytes) <+:
      (group.flatMap TextToken.bytes).dropWhile isSpace := by
    unfold trimAsciiWhitespace
    rw [← reverse_suffix, reverse_reverse]
    exact dropWhile_suffix isSpace
  have htake := length_tokens_take ((group.flatMap TextToken.bytes).dropWhile isSpace)
    (trimAsciiWhitespace (group.flatMap TextToken.bytes)).length
  rw [← prefix_iff_eq_take.mp hprefix] at htake
  rw [htokens] at hfront
  omega

theorem filter_segment (group : List TextToken) :
    (segment group).flatten.filter (fun b => !isSpace b) =
      (group.flatMap TextToken.bytes).filter fun b => !isSpace b := by
  unfold segment
  dsimp only
  split
  case isTrue hnil =>
    have hfilter := filter_trimAsciiWhitespace (group.flatMap TextToken.bytes)
    rw [hnil] at hfilter
    exact hfilter
  case isFalse => rw [flatten_singleton, filter_trimAsciiWhitespace]

/-- The length, by the range of the lead byte. -/
theorem utf8CodePointBytes_spec : ∀ b : UInt8, (b.toNat ≤ 0x7F → utf8CodePointBytes b = 1) ∧
    (0xC2 ≤ b.toNat → b.toNat ≤ 0xDF → utf8CodePointBytes b = 2) ∧
    (0xE0 ≤ b.toNat → b.toNat ≤ 0xEF → utf8CodePointBytes b = 3) ∧
    (0xF0 ≤ b.toNat → b.toNat ≤ 0xF4 → utf8CodePointBytes b = 4) :=
  Utf8.forall_byte (by decide +kernel)

/-- A character is one token. -/
theorem tokens_sequence {t : List UInt8} (h : Utf8.Sequence t) (rest : List UInt8) :
    tokens (t ++ rest) = ⟨t, isHardBoundary t, isSoftBoundary t⟩ :: tokens rest := by
  cases h with
  | @one a ha =>
    have hbytes : utf8CodePointBytes a = 1 := (utf8CodePointBytes_spec a).1 ha
    rw [cons_append, tokens, hbytes]
    rfl
  | @two a b hlow hhigh =>
    have hbytes : utf8CodePointBytes a = 2 := (utf8CodePointBytes_spec a).2.1 hlow hhigh
    rw [cons_append, tokens, hbytes]
    rfl
  | @three a b c hlow hhigh =>
    have hbytes : utf8CodePointBytes a = 3 := (utf8CodePointBytes_spec a).2.2.1 hlow hhigh
    rw [cons_append, tokens, hbytes]
    rfl
  | @four a b c d hlow hhigh =>
    have hbytes : utf8CodePointBytes a = 4 := (utf8CodePointBytes_spec a).2.2.2 hlow hhigh
    rw [cons_append, tokens, hbytes]
    rfl

theorem valid_token {text : List UInt8} (h : Utf8.Valid text) : ∀ token ∈ tokens text, Utf8.Valid token.bytes := by
  obtain ⟨chars, rfl⟩ := h
  induction chars with
  | nil =>
    rw [flatMap_nil, tokens]
    exact fun _ hmem => absurd hmem not_mem_nil
  | cons c chars ih =>
    have hseq := Utf8.sequence_encode c
    rw [flatMap_cons, tokens_sequence hseq, forall_mem_cons]
    exact ⟨hseq.valid, ih⟩

theorem valid_segment {group : List TextToken} (h : ∀ token ∈ group, Utf8.Valid token.bytes)
    {text : List UInt8} (hmem : text ∈ segment group) : Utf8.Valid text := by
  have hascii : ∀ b, isSpace b = true → b.toNat ≤ 0x7F := fun b hb => (isSpace_spec b hb).1
  obtain ⟨rfl, -⟩ := mem_segment hmem
  exact ((Utf8.valid_flatMap h).dropWhile hascii).dropWhileEnd hascii

/-- **The segments are the text but whitespace**: each is a group of at most so many tokens, trimmed; and where
    the text is UTF-8, so are the segments. -/
theorem segments_are_the_text (text : List UInt8) (maxCodepoints : Nat) (hmax : 0 < maxCodepoints) :
    (∃ groups : List (List TextToken), groups.flatten = tokens text ∧
      (∀ group ∈ groups, group.length ≤ maxCodepoints) ∧
      splitByIndex text maxCodepoints = groups.flatMap segment) ∧
    (∀ part ∈ splitByIndex text maxCodepoints, IsSegment maxCodepoints part) ∧
    (splitByIndex text maxCodepoints).flatten.filter (fun b => !isSpace b) =
      text.filter (fun b => !isSpace b) ∧
    (Utf8.Valid text → ∀ part ∈ splitByIndex text maxCodepoints, Utf8.Valid part) := by
  obtain ⟨groups, hflatten, hlengths, hsegments⟩ : ∃ groups : List (List TextToken),
      groups.flatten = tokens text ∧ (∀ group ∈ groups, group.length ≤ maxCodepoints) ∧
      splitByIndex text maxCodepoints = groups.flatMap segment := by
    rw [splitByIndex_eq]
    unfold splitSpeechText
    by_cases hnil : text = []
    · refine ⟨[], ?_, fun _ hmem => (nomatch hmem), ?_⟩
      · rw [hnil, tokens]
        rfl
      · rw [hnil]
        rfl
    · rw [if_neg (by simp [hnil]; omega)]
      exact splitTokens_groups hmax [] (tokens text) (Nat.zero_le _) (fun _ => hmax)
  refine ⟨⟨groups, hflatten, hlengths, hsegments⟩, ?_, ?_, ?_⟩
  · intro part hpart
    rw [hsegments] at hpart
    obtain ⟨group, hgroup, hmem⟩ := mem_flatMap.mp hpart
    -- the tokens of the group stand in those of the text
    obtain ⟨front, behind, hsplit⟩ := append_of_mem hgroup
    rw [hsplit, flatten_append, flatten_cons] at hflatten
    have hbehind := (tokens_split text hflatten.symm).2
    have htokens := (tokens_split _ hbehind).1
    exact isSegment_of_mem (hlengths group hgroup) htokens hmem
  · rw [hsegments]
    conv_rhs => rw [← flatMap_tokens text, ← hflatten]
    clear hflatten hlengths hsegments
    induction groups with
    | nil => rfl
    | cons group groups ih =>
      rw [flatMap_cons, flatten_append, filter_append, ih, filter_segment, flatten_cons,
        flatMap_append, filter_append]
  · intro hvalid part hpart
    rw [hsegments] at hpart
    obtain ⟨group, hgroup, hmem⟩ := mem_flatMap.mp hpart
    refine valid_segment (fun token htoken => ?_) hmem
    exact valid_token hvalid token (hflatten ▸ mem_flatten_of_mem hgroup htoken)

theorem segments_of_words :
    (splitByIndex [0x6F, 0x6E, 0x65, 0x20, 0x74, 0x77, 0x6F] 5).flatten.filter (fun b => !isSpace b) =
      [0x6F, 0x6E, 0x65, 0x74, 0x77, 0x6F] := by
  have hparts := segments_are_the_text [0x6F, 0x6E, 0x65, 0x20, 0x74, 0x77, 0x6F] 5 (by decide)
  exact hparts.2.2.1

end Cockpit.Voice
