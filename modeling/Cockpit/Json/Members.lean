/-
  The members of the objects in a JSON text, where their keys stand, in the order of the text.
-/
import Cockpit.Json.Validation

namespace Cockpit.Json

open Abnf ByteText Computability Grammar List

/-- A member: what stands between the quotes of its key, the text of its value, and what is left of the whole text
    behind its colon. -/
structure Member where
  key : Bytes
  value : Bytes
  behind : Bytes

/-- The two kinds of brackets. -/
inductive Bracket where
  | array
  | object

def Bracket.opening : Bracket → UInt8
  | .array => 0x5B
  | .object => 0x7B

def Bracket.closing : Bracket → UInt8
  | .array => 0x5D
  | .object => 0x7D

/-- The parts of a text: a value, an item or a member with the blanks around it, and a row of them with commas
    between them. -/
inductive Part where
  | value
  | element (bracket : Bracket)
  | row (bracket : Bracket)

/-- The text, followed by the second one, is such a part and has these members. -/
inductive Lists : Part → Bytes → Bytes → List Member → Prop where
  | scalar {t q : Bytes} (h : t ∈ literal + number) : Lists .value t q []
  | string {characters q : Bytes} (h : characters ∈ char∗) : Lists .value (0x22 :: (characters ++ [0x22])) q []
  | empty (bracket : Bracket) {w q : Bytes} (hw : w ∈ ws) :
      Lists .value (bracket.opening :: (w ++ [bracket.closing])) q []
  | enclosed (bracket : Bracket) {t q : Bytes} {members : List Member}
      (h : Lists (.row bracket) t (bracket.closing :: q) members) :
      Lists .value (bracket.opening :: (t ++ [bracket.closing])) q members
  | item {w t w' q : Bytes} {members : List Member} (hw : w ∈ ws) (hw' : w' ∈ ws)
      (h : Lists .value t (w' ++ q) members) : Lists (.element .array) (w ++ (t ++ w')) q members
  | member {w key w₁ w₂ t w' q : Bytes} {members : List Member} (hw : w ∈ ws) (hkey : key ∈ char∗) (hw₁ : w₁ ∈ ws)
      (hw₂ : w₂ ∈ ws) (hw' : w' ∈ ws) (h : Lists .value t (w' ++ q) members) :
      Lists (.element .object) (w ++ 0x22 :: (key ++ 0x22 :: (w₁ ++ 0x3A :: (w₂ ++ (t ++ w'))))) q
        (⟨key, t, w₂ ++ (t ++ (w' ++ q))⟩ :: members)
  | last {bracket : Bracket} {t q : Bytes} {members : List Member} (h : Lists (.element bracket) t q members) :
      Lists (.row bracket) t q members
  | more {bracket : Bracket} {t u q : Bytes} {members members' : List Member}
      (h : Lists (.element bracket) t (0x2C :: (u ++ q)) members) (hrow : Lists (.row bracket) u q members') :
      Lists (.row bracket) (t ++ 0x2C :: u) q (members ++ members')

/-- The text, as one value. -/
def MembersOf (input : Bytes) (members : List Member) : Prop := Lists (.element .array) input [] members

variable {t q w w' : Bytes} {members : List Member} {part : Part}

/-! ## Every text can be read -/

theorem exists_item (h : ∀ q, ∃ members, Lists (.element .array) t q members) (hw : w ∈ ws) (hw' : w' ∈ ws)
    (q : Bytes) : ∃ members, Lists (.element .array) (w ++ (t ++ w')) q members := by
  obtain ⟨members, hitem⟩ := h (w' ++ q)
  generalize hq : w' ++ q = behind at hitem
  cases hitem with
  | @item w₁ t w₂ _ _ hw₁ hw₂ hvalue =>
    rw [← hq, ← append_assoc] at hvalue
    refine ⟨members, ?_⟩
    have heq : w ++ (w₁ ++ (t ++ w₂) ++ w') = w ++ w₁ ++ (t ++ (w₂ ++ w')) := by
      simp only [append_assoc]
    rw [heq]
    exact .item (append_mem_ws hw hw₁) (append_mem_ws hw₂ hw') hvalue

variable {rule : Language UInt8}

theorem exists_member (hrule : ∀ t ∈ rule, ∀ q, ∃ members, Lists (.element .array) t q members) (h : t ∈ member rule)
    (hw : w ∈ ws) (hw' : w' ∈ ws) (q : Bytes) : ∃ members, Lists (.element .object) (w ++ (t ++ w')) q members := by
  obtain ⟨_, hbefore, v, hv, rfl⟩ := Language.mem_mul.mp h
  obtain ⟨s, hs, _, hname, rfl⟩ := Language.mem_mul.mp hbefore
  obtain ⟨w₁, hw₁, w₂, hw₂, rfl⟩ := mem_structural.mp hname
  obtain ⟨key, hkey, rfl⟩ := mem_string.mp hs
  obtain ⟨members, hitem⟩ := hrule v hv (w' ++ q)
  generalize hq : w' ++ q = behind at hitem
  cases hitem with
  | @item w₃ t w₄ _ _ hw₃ hw₄ hvalue =>
    rw [← hq, ← append_assoc] at hvalue
    refine ⟨⟨key, t, w₂ ++ w₃ ++ (t ++ (w₄ ++ w' ++ q))⟩ :: members, ?_⟩
    have heq : w ++ (0x22 :: (key ++ [0x22]) ++ (w₁ ++ 0x3A :: w₂) ++ (w₃ ++ (t ++ w₄)) ++ w') =
        w ++ 0x22 :: (key ++ 0x22 :: (w₁ ++ 0x3A :: (w₂ ++ w₃ ++ (t ++ (w₄ ++ w'))))) := by
      simp only [append_assoc, cons_append, nil_append]
    rw [heq]
    exact .member hw hkey hw₁ (append_mem_ws hw₂ hw₃) (append_mem_ws hw₄ hw') hvalue

theorem exists_row {bracket : Bracket}
    (hrule : ∀ t ∈ rule, ∀ w ∈ ws, ∀ w' ∈ ws, ∀ q, ∃ members, Lists (.element bracket) (w ++ (t ++ w')) q members) :
    ∀ t ∈ separated rule (structural 0x2C), ∀ w ∈ ws, ∀ w' ∈ ws, ∀ q,
      ∃ members, Lists (.row bracket) (w ++ (t ++ w')) q members := by
  refine separated_induction ?_ ?_
  · intro t ht w hw w' hw' q
    obtain ⟨members, h⟩ := hrule t ht w hw w' hw' q
    exact ⟨members, .last h⟩
  · intro t ht s hs u ih w hw w' hw' q
    obtain ⟨w₁, hw₁, w₂, hw₂, rfl⟩ := mem_structural.mp hs
    obtain ⟨members', hrow⟩ := ih w₂ hw₂ w' hw' q
    obtain ⟨members, h⟩ := hrule t ht w hw w₁ hw₁ (0x2C :: (w₂ ++ (u ++ w') ++ q))
    have heq : w ++ (t ++ (w₁ ++ 0x2C :: w₂ ++ u) ++ w') = w ++ (t ++ w₁) ++ 0x2C :: (w₂ ++ (u ++ w')) := by
      simp only [append_assoc, cons_append]
    rw [heq]
    exact ⟨_, .more h hrow⟩

theorem exists_enclosed_lists (bracket : Bracket)
    (hrule : ∀ t ∈ rule, ∀ w ∈ ws, ∀ w' ∈ ws, ∀ q, ∃ members, Lists (.element bracket) (w ++ (t ++ w')) q members)
    (h : t ∈ Grammar.enclosed bracket.opening bracket.closing rule) (q : Bytes) :
    ∃ members, Lists (.element .array) t q members := by
  obtain ⟨w, hw, w₁, hw₁, w₂, hw₂, w', hw', u, hu, rfl⟩ := mem_enclosed.mp h
  rcases mem_optional.mp hu with rfl | hrow
  · have heq : w ++ bracket.opening :: (w₁ ++ ([] ++ (w₂ ++ bracket.closing :: w'))) =
        w ++ (bracket.opening :: (w₁ ++ w₂ ++ [bracket.closing]) ++ w') := by
      simp only [append_assoc, cons_append, nil_append]
    rw [heq]
    exact ⟨[], .item hw hw' (.empty bracket (append_mem_ws hw₁ hw₂))⟩
  · obtain ⟨members, hlists⟩ := exists_row hrule u hrow w₁ hw₁ w₂ hw₂ (bracket.closing :: (w' ++ q))
    have heq : w ++ bracket.opening :: (w₁ ++ (u ++ (w₂ ++ bracket.closing :: w'))) =
        w ++ (bracket.opening :: (w₁ ++ (u ++ w₂) ++ [bracket.closing]) ++ w') := by
      simp only [append_assoc, cons_append, nil_append]
    rw [heq]
    exact ⟨members, .item hw hw' (.enclosed bracket hlists)⟩

/-- **The values of the grammar**, at every level. -/
theorem exists_lists (n : Nat) : ∀ t ∈ value n, ∀ q, ∃ members, Lists (.element .array) t q members := by
  induction n with
  | zero => exact fun t ht => absurd ht (Language.notMem_zero t)
  | succ n ih =>
    intro t ht q
    have hbare : ∀ {members}, Lists .value t ([] ++ q) members → ∃ members, Lists (.element .array) t q members := by
      intro members h
      have hitem := Lists.item nil_mem_ws nil_mem_ws h
      rw [nil_append, append_nil] at hitem
      exact ⟨members, hitem⟩
    rcases ht with (((hliteral | hobject) | harray) | hnum) | hstring
    · exact hbare (.scalar (.inl hliteral))
    · refine exists_enclosed_lists .object (fun t ht w hw w' hw' q => ?_) hobject q
      exact exists_member ih ht hw hw' q
    · refine exists_enclosed_lists .array (fun t ht w hw w' hw' q => ?_) harray q
      exact exists_item (ih t ht) hw hw' q
    · exact hbare (.scalar (.inr hnum))
    · obtain ⟨characters, hcharacters, rfl⟩ := mem_string.mp hstring
      exact hbare (.string hcharacters)

/-- **A text that is accepted has members**, maybe none. -/
theorem exists_membersOf {input : Bytes} (h : Parser.isValidValue input = .ok none) :
    ∃ members, MembersOf input members := by
  have hmem : input ∈ text kMaximumDepth := by
    rcases Parser.isValidValue_correct input with ⟨hmem, _⟩ | ⟨_, error, _, herror⟩
    · exact hmem
    · rw [h] at herror
      cases herror
  obtain ⟨_, hbefore, w', hw', rfl⟩ := Language.mem_mul.mp hmem
  obtain ⟨w, hw, t, ht, rfl⟩ := Language.mem_mul.mp hbefore
  rw [append_assoc]
  exact exists_item (exists_lists _ t ht) hw hw' []

/-! ## Where a member stands -/

/-- Where a member stands in the text. -/
theorem Lists.place (h : Lists part t q members) : ∀ m ∈ members, ∃ front, ∃ w ∈ ws,
    t ++ q = front ++ 0x22 :: (m.key ++ 0x22 :: (w ++ 0x3A :: m.behind)) := by
  induction h with
  | scalar | string | empty => exact nofun
  | @enclosed bracket t q members h ih =>
    intro m hm
    obtain ⟨front, w, hw, heq⟩ := ih m hm
    refine ⟨bracket.opening :: front, w, hw, ?_⟩
    rw [cons_append, append_assoc, cons_append]
    exact congrArg (bracket.opening :: ·) heq
  | @item w₁ t w₂ q members hw₁ hw₂ h ih =>
    intro m hm
    obtain ⟨front, w, hw, heq⟩ := ih m hm
    refine ⟨w₁ ++ front, w, hw, ?_⟩
    rw [append_assoc, append_assoc, append_assoc, heq]
  | @member w₀ key w₁ w₂ t w' q members hw₀ hkey hw₁ hw₂ hw' h ih =>
    intro m hm
    rcases mem_cons.mp hm with rfl | hm
    · refine ⟨w₀, w₁, hw₁, ?_⟩
      simp only [append_assoc, cons_append]
    · obtain ⟨front, w, hw, heq⟩ := ih m hm
      refine ⟨w₀ ++ 0x22 :: (key ++ 0x22 :: (w₁ ++ 0x3A :: (w₂ ++ front))), w, hw, ?_⟩
      simp only [append_assoc, cons_append]
      rw [heq]
  | last _ ih => exact ih
  | @more bracket t u q members members' h hrow ih ih' =>
    intro m hm
    rcases mem_append.mp hm with hm | hm
    · obtain ⟨front, w, hw, heq⟩ := ih m hm
      refine ⟨front, w, hw, ?_⟩
      rw [append_assoc, cons_append]
      exact heq
    · obtain ⟨front, w, hw, heq⟩ := ih' m hm
      refine ⟨t ++ 0x2C :: front, w, hw, ?_⟩
      rw [append_assoc, cons_append, heq, append_assoc, cons_append]

theorem Lists.behind_eq (h : Lists part t q members) : ∀ m ∈ members, ∃ w ∈ ws, ∃ r, m.behind = w ++ (m.value ++ r) := by
  induction h with
  | scalar | string | empty => exact nofun
  | enclosed _ _ ih | item _ _ _ ih => exact ih
  | @member w₀ key w₁ w₂ t w' q members hw₀ hkey hw₁ hw₂ hw' h ih =>
    intro m hm
    rcases mem_cons.mp hm with rfl | hm
    · exact ⟨w₂, hw₂, w' ++ q, rfl⟩
    · exact ih m hm
  | last _ ih => exact ih
  | more _ _ ih ih' =>
    intro m hm
    rcases mem_append.mp hm with hm | hm
    · exact ih m hm
    · exact ih' m hm

end Cockpit.Json
