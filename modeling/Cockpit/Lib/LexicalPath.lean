/-
  Paths as text, and the operations on paths that look at nothing but the text.
-/
import Cockpit.Lib.ByteText

namespace LexicalPath

open ByteText List Bool

def slash : UInt8 := 0x2F

def root : Bytes := [slash]

def dot : Bytes := [0x2E]

def dotdot : Bytes := [0x2E, 0x2E]

def isAbsolute (path : Bytes) : Bool := path.head? = some slash

/-- What stands between the slashes. -/
def names (path : Bytes) : List Bytes := (path.splitOn slash).filter fun name => !name.isEmpty

def endsInSlash (path : Bytes) : Bool := (path.splitOn slash).getLast? = some []

/-- What iterating over a path gives: the root directory, the names, and an empty element for a slash at the
    end. -/
def elements (path : Bytes) : List Bytes :=
  (if isAbsolute path then [root] else []) ++
    (names path ++ if !(names path).isEmpty && endsInSlash path then [[]] else [])

/-- The division of paths. -/
def divide (path tail : Bytes) : Bytes :=
  if isAbsolute tail then tail else if endsInSlash path then path ++ tail else path ++ slash :: tail

/-- A name that stands for an entry of its directory. -/
structure IsName (name : Bytes) : Prop where
  ne_nil : name ≠ []
  ne_dot : name ≠ dot
  ne_dotdot : name ≠ dotdot
  no_slash : slash ∉ name

variable {name : Bytes}

theorem isName_iff : IsName name ↔ name ≠ [] ∧ name ≠ dot ∧ name ≠ dotdot ∧ slash ∉ name :=
  ⟨fun h => ⟨h.ne_nil, h.ne_dot, h.ne_dotdot, h.no_slash⟩, fun h => ⟨h.1, h.2.1, h.2.2.1, h.2.2.2⟩⟩

instance (name : Bytes) : Decidable (IsName name) := decidable_of_iff _ isName_iff.symm

/-! ## Normal forms -/

/-- A path in its parts; `slash` is one at the end. -/
structure Parts where
  root : Bool := false
  names : List Bytes := []
  slash : Bool := false
  deriving DecidableEq

namespace Parts

def elements (p : Parts) : List Bytes :=
  (if p.root then [LexicalPath.root] else []) ++ (p.names ++ if p.slash then [[]] else [])

/-- Its parts are these again. -/
def text (p : Parts) : Bytes :=
  (if p.root then [LexicalPath.slash] else []) ++
    [LexicalPath.slash].intercalate (p.names ++ if p.slash then [[]] else [])

def push (p : Parts) (name : Bytes) : Parts := { p with names := p.names ++ [name], slash := false }

/-- A dot goes by itself, two dots with the name before them, or by themselves below the root directory. -/
def step (p : Parts) (element : Bytes) : Parts :=
  if element = LexicalPath.root then { root := true }
  else if element = dotdot then
    if p.names.isEmpty then if p.root then p else p.push dotdot
    else if p.names.getLast? = some dotdot then p.push dotdot
    else { p with names := p.names.dropLast, slash := !p.names.dropLast.isEmpty }
  else if element = dot || element.isEmpty then { p with slash := !p.names.isEmpty }
  else p.push element

def finish (p : Parts) : Parts :=
  if p.slash && p.names.getLast? = some dotdot then { p with slash := false }
  else if !p.root && p.names.isEmpty then { p with names := [dot] }
  else p

end Parts

/-- `lexically_normal`. -/
def lexicallyNormal (path : Bytes) : Bytes :=
  if path.isEmpty then [] else ((elements path).foldl Parts.step {}).finish.text

example : lexicallyNormal (ascii "/a//b/./../c/") = ascii "/a/c/" := by decide

example : lexicallyNormal (ascii "/../a/../..") = ascii "/" ∧ lexicallyNormal (ascii "a/../../b") = ascii "../b" := by
  decide

/-! ## The text of a path -/

variable {path : Bytes}

theorem no_slash_of_mem_splitOn {piece : Bytes} (h : piece ∈ path.splitOn slash) : slash ∉ piece := by
  induction path generalizing piece with
  | nil =>
    rw [splitOn_nil, mem_singleton] at h
    rw [h]
    exact not_mem_nil
  | cons b path ih =>
    rw [splitOn_cons_eq_if_modifyHead] at h
    split at h
    case isTrue =>
      rcases mem_cons.mp h with rfl | h
      · exact not_mem_nil
      · exact ih h
    case isFalse hb =>
      cases hpieces : path.splitOn slash with
      | nil => exact absurd hpieces (splitOn_ne_nil _ _)
      | cons first pieces =>
        rw [hpieces, modifyHead_cons] at h
        rcases mem_cons.mp h with rfl | h
        · intro hmem
          rcases mem_cons.mp hmem with hslash | hmem
          · exact hb (beq_iff_eq.mpr hslash.symm)
          · exact ih (by rw [hpieces]; exact mem_cons_self) hmem
        · exact ih (by rw [hpieces]; exact mem_cons_of_mem _ h)

theorem of_mem_names (h : name ∈ names path) : name ≠ [] ∧ slash ∉ name := by
  obtain ⟨hpiece, hne⟩ := mem_filter.mp h
  refine ⟨fun hnil => ?_, no_slash_of_mem_splitOn hpiece⟩
  rw [hnil] at hne
  cases hne

theorem names_append_slash (path tail : Bytes) : names (path ++ slash :: tail) = names path ++ names tail := by
  unfold names
  rw [splitOn_append_cons_self, filter_append]

theorem endsInSlash_append_slash (path tail : Bytes) : endsInSlash (path ++ slash :: tail) = endsInSlash tail := by
  unfold endsInSlash
  rw [splitOn_append_cons_self, List.getLast?_append]
  cases hlast : (tail.splitOn slash).getLast? with
  | none => exact absurd (List.getLast?_eq_none_iff.mp hlast) (splitOn_ne_nil _ _)
  | some last => rfl

variable {list : List Bytes}

theorem IsName.filter (h : ∀ name ∈ list, IsName name) : list.filter (fun name => !name.isEmpty) = list := by
  refine filter_eq_self.mpr fun name hname => ?_
  cases name with
  | nil => exact absurd rfl (h [] hname).ne_nil
  | cons => rfl

theorem splitOn_intercalate_slash (h : ∀ name ∈ list, slash ∉ name) (hne : list ≠ []) :
    ([slash].intercalate list).splitOn slash = list :=
  splitOn_intercalate slash h hne

theorem names_intercalate (h : ∀ name ∈ list, IsName name) : names ([slash].intercalate list) = list := by
  cases list with
  | nil => rfl
  | cons name list =>
    unfold names
    rw [splitOn_intercalate_slash (fun name hname => (h name hname).no_slash) (cons_ne_nil _ _)]
    exact IsName.filter h

theorem intercalate_append {a b : List Bytes} (ha : a ≠ []) (hb : b ≠ []) :
    [slash].intercalate (a ++ b) = [slash].intercalate a ++ slash :: [slash].intercalate b := by
  induction a with
  | nil => exact absurd rfl ha
  | cons first a ih =>
    cases a with
    | nil => rw [singleton_append, intercalate_cons_of_ne_nil hb, intercalate_singleton,
        append_assoc, singleton_append]
    | cons second a =>
      rw [cons_append, intercalate_cons_of_ne_nil (by exact cons_ne_nil _ _),
        ih (cons_ne_nil _ _), intercalate_cons_of_ne_nil (cons_ne_nil second a), append_assoc,
        append_assoc, append_assoc]

/-! ## Absolute paths -/

namespace Parts

/-- The parts of a normal form that is absolute. -/
structure Rooted (p : Parts) : Prop where
  root : p.root = true
  names : ∀ name ∈ p.names, IsName name
  slash : p.slash = true → p.names ≠ []

variable {p n r : Parts}

section

variable (h : p.Rooted)
include h

theorem Rooted.elements_eq : p.elements = LexicalPath.root :: (p.names ++ if p.slash then [[]] else []) := by
  unfold elements
  rw [h.root]
  rfl

theorem Rooted.text_eq :
    p.text = LexicalPath.slash :: [LexicalPath.slash].intercalate (p.names ++ if p.slash then [[]] else []) := by
  unfold text
  rw [h.root]
  rfl

theorem Rooted.isAbsolute_text : isAbsolute p.text = true := by
  rw [h.text_eq]
  rfl

theorem Rooted.splitOn_text : p.text.splitOn LexicalPath.slash =
    if p.names = [] then [[], []] else [] :: (p.names ++ if p.slash then [[]] else []) := by
  rw [h.text_eq]
  show ([] ++ LexicalPath.slash :: _).splitOn LexicalPath.slash = _
  rw [splitOn_append_cons_self, splitOn_nil, singleton_append]
  by_cases hnames : p.names = []
  · have hslash : p.slash = false := eq_false_iff.mpr fun hslash => h.slash hslash hnames
    rw [if_pos hnames, hnames, hslash]
    rfl
  · rw [if_neg hnames, splitOn_intercalate_slash]
    · intro name hname
      rcases mem_append.mp hname with hname | hname
      · exact (h.names name hname).no_slash
      · split at hname
        · rw [List.mem_singleton.mp hname]
          exact not_mem_nil
        · cases hname
    · exact fun hnil => hnames (List.append_eq_nil_iff.mp hnil).1

theorem Rooted.names_text : LexicalPath.names p.text = p.names := by
  unfold LexicalPath.names
  rw [h.splitOn_text]
  split
  case isTrue hnames =>
    rw [hnames]
    rfl
  case isFalse =>
    rw [filter_cons_of_neg (by decide), filter_append, IsName.filter h.names]
    cases p.slash <;> exact List.append_nil _

theorem Rooted.endsInSlash_text (hnames : p.names ≠ []) : endsInSlash p.text = p.slash := by
  unfold endsInSlash
  rw [h.splitOn_text, if_neg hnames]
  cases p.slash with
  | true =>
    have hlast : (([] :: p.names) ++ [[]]).getLast? = some ([] : Bytes) := List.getLast?_concat
    exact decide_eq_true hlast
  | false =>
    have hlast := (h.names _ (getLast_mem hnames)).ne_nil
    simp [List.getLast?_cons, List.getLast?_eq_some_getLast hnames, hlast]

/-- **The text of a normal form** has the elements that it is made of. -/
theorem Rooted.elements_text : LexicalPath.elements p.text = p.elements := by
  unfold LexicalPath.elements
  rw [h.isAbsolute_text, h.names_text, h.elements_eq]
  by_cases hnames : p.names = []
  · have hslash : p.slash = false := eq_false_iff.mpr fun hslash => h.slash hslash hnames
    rw [hnames, hslash]
    rfl
  · have hempty : p.names.isEmpty = false := by rw [isEmpty_eq_false_iff]; exact hnames
    rw [h.endsInSlash_text hnames, hempty]
    rfl

end

/-! ## The normal form of an absolute path -/

theorem step_root (p : Parts) : p.step LexicalPath.root = { root := true } := if_pos rfl

theorem step_name (p : Parts) {name : Bytes} (h : IsName name) : p.step name = p.push name := by
  unfold step
  have hroot : name ≠ LexicalPath.root := fun heq => h.no_slash (by rw [heq]; exact List.mem_singleton_self _)
  rw [if_neg hroot, if_neg h.ne_dotdot, if_neg]
  rw [Bool.or_eq_true, decide_eq_true_eq, List.isEmpty_iff]
  exact not_or.mpr ⟨h.ne_dot, h.ne_nil⟩

theorem Rooted.push (h : p.Rooted) {name : Bytes} (hname : IsName name) : (p.push name).Rooted where
  root := h.root
  names other hother := by
    rcases mem_append.mp hother with hother | hother
    · exact h.names other hother
    · rw [List.mem_singleton.mp hother]
      exact hname
  slash := nofun

theorem Rooted.step (h : p.Rooted) {element : Bytes} (hslash : LexicalPath.slash ∉ element) :
    (p.step element).Rooted := by
  have hroot : element ≠ LexicalPath.root := fun heq => hslash (by rw [heq]; exact List.mem_singleton_self _)
  by_cases hdotdot : element = dotdot
  · unfold Parts.step
    rw [if_neg hroot, if_pos hdotdot, h.root, if_pos rfl]
    split
    case isTrue => exact h
    case isFalse hnames =>
      rw [if_neg]
      · refine ⟨rfl, fun name hname => h.names name (dropLast_subset _ hname), fun hslash => ?_⟩
        intro hnil
        rw [show p.names.dropLast = [] from hnil] at hslash
        cases hslash
      · intro hlast
        exact (h.names dotdot (mem_of_getLast? hlast)).ne_dotdot rfl
  · by_cases hdot : (element = dot || element.isEmpty) = true
    · unfold Parts.step
      rw [if_neg hroot, if_neg hdotdot, if_pos hdot]
      refine ⟨h.root, h.names, fun hslash hnil => ?_⟩
      rw [show p.names = [] from hnil] at hslash
      cases hslash
    · rw [not_eq_true, or_eq_false_iff, decide_eq_false_iff_not, isEmpty_eq_false_iff] at hdot
      have hname : IsName element := ⟨hdot.2, hdot.1, hdotdot, hslash⟩
      rw [step_name p hname]
      exact h.push hname

theorem Rooted.foldl (h : p.Rooted) {list : List Bytes} (hlist : ∀ element ∈ list, LexicalPath.slash ∉ element) :
    (list.foldl Parts.step p).Rooted := by
  induction list generalizing p with
  | nil => exact h
  | cons element list ih =>
    exact ih (h.step (hlist element mem_cons_self)) fun other hother => hlist other (mem_cons_of_mem _ hother)

theorem Rooted.finish (h : p.Rooted) : p.finish = p := by
  unfold Parts.finish
  rw [if_neg, if_neg]
  · rw [h.root]
    exact Bool.false_ne_true
  · intro hboth
    rw [and_eq_true, decide_eq_true_eq] at hboth
    exact (h.names dotdot (mem_of_getLast? hboth.2)).ne_dotdot rfl

theorem foldl_names {list : List Bytes} (h : ∀ name ∈ list, IsName name) (p : Parts) (hp : p.slash = false) :
    list.foldl Parts.step p = { p with names := p.names ++ list } := by
  induction list generalizing p with
  | nil =>
    rw [List.append_nil]
    rfl
  | cons name list ih =>
    rw [foldl_cons, step_name p (h name mem_cons_self),
      ih (fun other hother => h other (mem_cons_of_mem _ hother)) _ rfl]
    unfold Parts.push
    rw [append_assoc, singleton_append, hp]

theorem Rooted.foldl_elements (h : p.Rooted) : p.elements.foldl Parts.step {} = p := by
  rw [h.elements_eq, foldl_cons, step_root, foldl_append, foldl_names h.names _ rfl, List.nil_append]
  obtain ⟨root, names, slash⟩ := p
  obtain rfl : root = true := h.root
  cases slash with
  | false => rfl
  | true =>
    have hnames : names.isEmpty = false := List.isEmpty_eq_false_iff.mpr (h.slash rfl)
    show Parts.step { root := true, names := names } [] = _
    unfold Parts.step
    rw [if_neg (by decide), if_neg (by decide), if_pos (by decide)]
    show Parts.mk true names (!names.isEmpty) = _
    rw [hnames]
    rfl

end Parts

theorem elements_absolute (h : isAbsolute path = true) :
    ∃ rest, elements path = root :: rest ∧ ∀ element ∈ rest, slash ∉ element := by
  unfold elements
  rw [h]
  refine ⟨names path ++ _, rfl, fun element hmem => ?_⟩
  rcases mem_append.mp hmem with hmem | hmem
  · exact (of_mem_names hmem).2
  · split at hmem
    · rw [List.mem_singleton.mp hmem]
      exact not_mem_nil
    · cases hmem

theorem lexicallyNormal_absolute (h : isAbsolute path = true) :
    lexicallyNormal path = ((elements path).foldl Parts.step {}).finish.text := by
  unfold lexicallyNormal
  cases path with
  | nil => cases h
  | cons => rfl

/-- **The normal form of an absolute path**: no name of it is a dot or two. -/
theorem rooted_normal (h : isAbsolute path = true) :
    ∃ p : Parts, p.Rooted ∧ lexicallyNormal path = p.text ∧ p = (elements path).foldl Parts.step {} := by
  obtain ⟨rest, helements, hrest⟩ := elements_absolute h
  have hstart : Parts.Rooted { root := true } := ⟨rfl, nofun, nofun⟩
  have hrooted : ((elements path).foldl Parts.step {}).Rooted := by
    rw [helements, foldl_cons, Parts.step_root]
    exact hstart.foldl hrest
  refine ⟨_, hrooted, ?_, rfl⟩
  rw [lexicallyNormal_absolute h, hrooted.finish]

theorem normal_text {p : Parts} (h : p.Rooted) : lexicallyNormal p.text = p.text := by
  rw [lexicallyNormal_absolute h.isAbsolute_text, h.elements_text, h.foldl_elements, h.finish]

/-! ## Containment -/

/-- **What comes behind a normal form in another one** is names, so that it is inside. -/
theorem exists_rest {n r : Parts} (hn : n.Rooted) (hr : r.Rooted) (hbegins : n.elements <+: r.elements)
    (hne : r.elements ≠ n.elements) (hslash : r.slash = false) :
    ∃ rest, rest ≠ [] ∧ r.elements = n.elements ++ rest ∧ ∀ name ∈ rest, IsName name := by
  obtain ⟨rest, hrest⟩ := hbegins
  refine ⟨rest, fun hnil => ?_, hrest.symm, fun name hname => ?_⟩
  · rw [hnil, List.append_nil] at hrest
    exact hne hrest.symm
  · rw [hn.elements_eq, hr.elements_eq, hslash, cons_append] at hrest
    have hnames := (List.cons.inj hrest).2
    rw [if_neg Bool.false_ne_true, List.append_nil] at hnames
    refine hr.names name ?_
    rw [← hnames]
    exact mem_append_right _ hname

/-! ## Paths below a path -/

theorem isAbsolute_intercalate (h : ∀ name ∈ list, IsName name) (hne : list ≠ []) :
    isAbsolute ([slash].intercalate list) = false := by
  cases list with
  | nil => exact absurd rfl hne
  | cons name list =>
    have hname := h name mem_cons_self
    obtain ⟨b, rest, rfl⟩ := exists_cons_of_ne_nil hname.ne_nil
    have hb : b ≠ slash := fun heq => hname.no_slash (by rw [heq]; exact mem_cons_self)
    have hhead : ([slash].intercalate ((b :: rest) :: list)).head? = some b := by
      cases list with
      | nil => rw [intercalate_singleton]; rfl
      | cons second list => rw [intercalate_cons_of_ne_nil (cons_ne_nil second list)]; rfl
    unfold isAbsolute
    rw [decide_eq_false_iff_not, hhead, Option.some.injEq]
    exact hb

/-- **Names behind a normal form** are names of a normal form. -/
theorem divide_names {p : Parts} (h : p.Rooted) (hnames : p.names ≠ []) (hslash : p.slash = false)
    (hlist : ∀ name ∈ list, IsName name) (hne : list ≠ []) :
    Parts.Rooted { p with names := p.names ++ list } ∧
      divide p.text ([slash].intercalate list) = Parts.text { p with names := p.names ++ list } := by
  have hrooted : Parts.Rooted { p with names := p.names ++ list } := by
    refine ⟨h.root, fun name hname => ?_, fun _ hnil => hnames (List.append_eq_nil_iff.mp hnil).1⟩
    rcases mem_append.mp hname with hname | hname
    · exact h.names name hname
    · exact hlist name hname
  refine ⟨hrooted, ?_⟩
  unfold divide
  rw [isAbsolute_intercalate hlist hne, if_neg Bool.false_ne_true, h.endsInSlash_text hnames, hrooted.text_eq,
    h.text_eq, hslash, if_neg Bool.false_ne_true, if_neg Bool.false_ne_true, List.append_nil, List.append_nil,
    intercalate_append hnames hne]
  rfl

theorem exists_front (h : endsInSlash path = true) : path = [] ∨ ∃ front, path = front ++ [slash] := by
  unfold endsInSlash at h
  rw [decide_eq_true_eq] at h
  obtain ⟨front, hfront⟩ := List.getLast?_eq_some_iff.mp h
  have hpath : [slash].intercalate (path.splitOn slash) = path := intercalate_splitOn slash
  rw [hfront] at hpath
  cases front with
  | nil => exact .inl hpath.symm
  | cons piece front =>
    rw [intercalate_append (cons_ne_nil _ _) (cons_ne_nil _ _)] at hpath
    exact .inr ⟨_, hpath.symm⟩

theorem getLast?_elements_divide (path : Bytes) {tail : Bytes} (hrelative : isAbsolute tail = false)
    (hnames : names tail ≠ []) : (elements (divide path tail)).getLast? = (elements tail).getLast? := by
  have hbehind (front : Bytes) : (elements (front ++ slash :: tail)).getLast? = (elements tail).getLast? := by
    have hempty : (names tail).isEmpty = false := List.isEmpty_eq_false_iff.mpr hnames
    have hempty' : (names front ++ names tail).isEmpty = false :=
      List.isEmpty_eq_false_iff.mpr fun hnil => hnames (List.append_eq_nil_iff.mp hnil).2
    unfold elements
    rw [names_append_slash, endsInSlash_append_slash, hrelative, hempty, hempty', append_assoc (names front)]
    generalize hrest : names tail ++ (if (!false && endsInSlash tail) = true then [[]] else []) = rest
    have hne : rest ≠ [] := by
      rw [← hrest]
      exact fun hnil => hnames (List.append_eq_nil_iff.mp hnil).1
    rw [List.getLast?_append_of_ne_nil _ (by exact fun hnil => hne (List.append_eq_nil_iff.mp hnil).2),
      List.getLast?_append_of_ne_nil _ hne, if_neg Bool.false_ne_true, List.nil_append]
  unfold divide
  rw [hrelative, if_neg Bool.false_ne_true]
  split
  case isTrue hends =>
    rcases exists_front hends with rfl | ⟨front, rfl⟩
    · rfl
    · rw [append_assoc]
      exact hbehind front
  case isFalse => exact hbehind path

/-- **A path that ends in a name** has a normal form that does. -/
theorem normal_of_getLast? (habsolute : isAbsolute path = true) (hlast : (elements path).getLast? = some name)
    (hname : IsName name) :
    ∃ p : Parts, p.Rooted ∧ lexicallyNormal path = p.text ∧ p.names ≠ [] ∧ p.slash = false := by
  obtain ⟨p, hrooted, htext, hp⟩ := rooted_normal habsolute
  obtain ⟨front, hfront⟩ := List.getLast?_eq_some_iff.mp hlast
  have hpush : p = (front.foldl Parts.step {}).push name := by
    rw [hp, hfront, foldl_append, foldl_cons, foldl_nil, Parts.step_name _ hname]
  refine ⟨p, hrooted, htext, ?_, ?_⟩ <;> rw [hpush]
  · exact append_ne_nil_of_right_ne_nil _ (cons_ne_nil _ _)
  · rfl

/-! ## A name alone -/

section Name

variable {name : Bytes}

section

variable (h : IsName name)
include h

theorem IsName.mem_singleton : ∀ other ∈ [name], IsName other := by
  intro other hother
  rw [List.mem_singleton.mp hother]
  exact h

theorem IsName.isAbsolute : isAbsolute name = false := by
  have habsolute := isAbsolute_intercalate h.mem_singleton (cons_ne_nil _ _)
  rw [intercalate_singleton] at habsolute
  exact habsolute

theorem IsName.names : names name = [name] := by
  have hnames := names_intercalate h.mem_singleton
  rw [intercalate_singleton] at hnames
  exact hnames

theorem IsName.endsInSlash : endsInSlash name = false := by
  cases hslash : LexicalPath.endsInSlash name with
  | false => rfl
  | true =>
    rcases exists_front hslash with rfl | ⟨front, rfl⟩
    · exact absurd rfl h.ne_nil
    · exact absurd (mem_append_right _ (List.mem_singleton_self _)) h.no_slash

theorem IsName.elements : elements name = [name] := by
  unfold LexicalPath.elements
  rw [h.isAbsolute, h.names, h.endsInSlash]
  rfl

/-- **A name put behind a path** is its last element. -/
theorem IsName.getLast?_divide (path : Bytes) : (LexicalPath.elements (divide path name)).getLast? = some name := by
  rw [getLast?_elements_divide path h.isAbsolute (by rw [h.names]; exact cons_ne_nil _ _), h.elements]
  rfl

theorem IsName.getLast?_divide_divide (front path : Bytes)
    (hrelative : LexicalPath.isAbsolute (divide path name) = false) :
    (LexicalPath.elements (divide front (divide path name))).getLast? = some name := by
  have hlast := h.getLast?_divide path
  rw [getLast?_elements_divide front hrelative, hlast]
  intro hnames
  unfold LexicalPath.elements at hlast
  rw [hrelative, hnames] at hlast
  cases hlast

end

end Name

end LexicalPath
