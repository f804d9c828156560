/-
  The integrity check and the recorder agree: of a session whose data files are copied, whose `Stop` returned
  true and whose directory nothing touched afterwards, `Verify` finds one healthy file and one checksum for each
  call.
-/
import Mathlib.Algebra.Group.Int.Defs
import Mathlib.Data.Option.Basic
import Cockpit.Recording.RecordingIntegrity
import Cockpit.Recording.SessionFiles

namespace Cockpit.Recording

open ByteText Durable Durable.Program Json LexicalPath List Bool

/-! ## Scalars -/

/-- A value of a line. -/
inductive Scalar where
  | string (text : Bytes)
  | integer (n : Int)
  | boolean (value : Bool)

namespace Scalar

/-- As it is written. -/
def text : Scalar → Bytes
  | string text => quoted text
  | integer n => intNumeral n
  | boolean value => ascii (if value then "true" else "false")

/-- Texts are UTF-8. -/
def Valid : Scalar → Prop
  | string text => WellFormed text
  | _ => True

/-- What the parser makes of it. -/
def value : Scalar → Value
  | string text => .string text
  | integer n => .number (intNumeral n)
  | boolean value => .boolean value

theorem denotes {levels : Nat} (hlevels : 0 < levels) {scalar : Scalar} (h : scalar.Valid) :
    Denotes levels scalar.text scalar.value := by
  cases scalar with
  | string text => exact denotes_quoted hlevels h
  | integer n => exact denotes_intNumeral hlevels n
  | boolean value => exact denotes_boolean hlevels value

theorem newline_notMem_natNumeral (n : Nat) : newline ∉ natNumeral n := by
  intro hmem
  have hdigit := isDigit_of_mem_natNumeral _ hmem
  cases hdigit

theorem newline_notMem_text {scalar : Scalar} (h : scalar.Valid) : newline ∉ scalar.text := by
  cases scalar with
  | string text =>
    intro hmem
    rcases mem_cons.mp hmem with hmem | hmem
    · cases hmem
    · rcases mem_append.mp hmem with hmem | hmem
      · exact newline_notMem_escapeString h hmem
      · cases mem_singleton.mp hmem
  | integer n =>
    show newline ∉ intNumeral n
    unfold intNumeral
    split
    · intro hmem
      rcases mem_cons.mp hmem with hmem | hmem
      · cases hmem
      · exact newline_notMem_natNumeral _ hmem
    · exact newline_notMem_natNumeral _
  | boolean value => cases value <;> decide

end Scalar

/-- An object of scalars. -/
def scalarObject (members : List (String × Scalar)) (last : String × Scalar) : Bytes :=
  objectText (members.map fun member => (member.1, member.2.text)) last.1 last.2.text

theorem newline_notMem_memberText {key : String} (hkey : PlainKey key) {text : Bytes} (h : newline ∉ text) :
    newline ∉ memberText key text := by
  intro hmem
  rcases mem_cons.mp hmem with hmem | hmem
  · cases hmem
  rcases mem_append.mp hmem with hmem | hmem
  · -- A newline would have been escaped.
    rw [← hkey.1] at hmem
    exact newline_notMem_escapeString (WellFormed.of_ascii hkey.2) hmem
  rcases mem_cons.mp hmem with hmem | hmem
  · cases hmem
  rcases mem_cons.mp hmem with hmem | hmem
  · cases hmem
  · exact h hmem

/-- **An object of scalars is one line.** -/
theorem newline_notMem_scalarObject {members : List (String × Scalar)} {last : String × Scalar}
    (h : ∀ member ∈ members ++ [last], PlainKey member.1 ∧ member.2.Valid) : newline ∉ scalarObject members last := by
  have htext : ∀ member ∈ members ++ [last], newline ∉ memberText member.1 member.2.text := fun member hmember =>
    newline_notMem_memberText (h member hmember).1 (Scalar.newline_notMem_text (h member hmember).2)
  intro hmem
  rcases mem_cons.mp hmem with hmem | hmem
  · cases hmem
  rcases mem_append.mp hmem with hmem | hmem
  · obtain ⟨written, hwritten, hmem⟩ := mem_flatMap.mp hmem
    obtain ⟨member, hmember, rfl⟩ := mem_map.mp hwritten
    rcases mem_append.mp hmem with hmem | hmem
    · exact htext member (mem_append_left _ hmember) hmem
    · cases mem_singleton.mp hmem
  rcases mem_append.mp hmem with hmem | hmem
  · exact htext last (mem_append_right _ (mem_singleton_self _)) hmem
  · cases mem_singleton.mp hmem

/-- **What the validator makes of it**: an object with the values of the scalars. -/
theorem parse_scalarObject {members : List (String × Scalar)} {last : String × Scalar}
    (h : ∀ member ∈ members ++ [last], PlainKey member.1 ∧ member.2.Valid) :
    parse (scalarObject members last) = some (.object ((members ++ [last]).map fun member => ascii member.1)
      ((members ++ [last]).map fun member => member.2.value)) := by
  have hfront : ∀ member ∈ members, PlainKey member.1 ∧ member.2.Valid := fun member hmember =>
    h member (mem_append_left _ hmember)
  obtain ⟨hkey, hvalid⟩ := h last (mem_append_right _ (mem_singleton_self _))
  have hmembers : MembersDenote kMaximumDepth (members.map fun member => (member.1, member.2.text))
      (members.map fun member => member.2.value) := by
    refine ⟨fun written hwritten => ?_, ?_⟩
    · obtain ⟨member, hmember, rfl⟩ := mem_map.mp hwritten
      exact (hfront member hmember).1
    · rw [forall₂_map_left_iff, forall₂_map_right_iff, forall₂_same]
      exact fun member hmember => Scalar.denotes (by decide) (hfront member hmember).2
  unfold scalarObject
  rw [parse_objectText hmembers hkey (Scalar.denotes (by decide) hvalid), map_append, map_append, map_map]
  rfl

/-- The library reads the scalar. -/
def Yaml.Reads {Node : Type} (yaml : Yaml Node) (node : Node) : Scalar → Prop
  | .string text => yaml.asString node = some text
  | .integer n => ∀ value : UInt64, n = value.toNat → yaml.asUInt64 node = some value
  | .boolean value => yaml.asBool node = some value

def kMaximumKeyLength : Nat := 1024

/-- **The YAML library reads an object of scalars**, each member under its key. -/
structure ReadsScalars {Node : Type} (yaml : Yaml Node) : Prop where
  load : ∀ (members : List (String × Scalar)) (last : String × Scalar),
    (∀ member ∈ members ++ [last], PlainKey member.1 ∧ member.1.length + 2 ≤ kMaximumKeyLength ∧ member.2.Valid) →
    ((members ++ [last]).map fun member => ascii member.1).Nodup →
      ∃ node, yaml.load (scalarObject members last) = some node ∧ yaml.isMap node = true ∧
        ∀ member ∈ members ++ [last], yaml.Reads (yaml.get node member.1) member.2

/-! ## The line of a data file -/

namespace RecordingDataFile

/-- What `ToJson` writes. -/
def members (file : RecordingDataFile) : List (String × Scalar) :=
  [("timestamp_ms", .integer file.timestampMs.toInt), ("source", .string file.source), ("kind", .string file.kind),
    ("path", .string file.path), ("size_bytes", .integer file.sizeBytes.toNat), ("checksum", .string file.checksum)]

def lastMember (file : RecordingDataFile) : String × Scalar := ("copied_into_session", .boolean file.copyIntoSession)

theorem toJson_eq (file : RecordingDataFile) : file.toJson = scalarObject file.members file.lastMember := rfl

/-- The texts of a data file are UTF-8. -/
structure Utf8 (file : RecordingDataFile) : Prop where
  source : WellFormed file.source
  kind : WellFormed file.kind
  path : WellFormed file.path
  checksum : WellFormed file.checksum

variable {file : RecordingDataFile}

theorem Utf8.members (h : file.Utf8) {member : String × Scalar} (hmem : member ∈ file.members ++ [file.lastMember]) :
    PlainKey member.1 ∧ member.1.length + 2 ≤ kMaximumKeyLength ∧ member.2.Valid := by
  have hkeys : ∀ key ∈ ["timestamp_ms", "source", "kind", "path", "size_bytes", "checksum", "copied_into_session"],
      PlainKey key ∧ key.length + 2 ≤ kMaximumKeyLength := by
    decide +kernel
  have hvalid : ∀ scalar ∈ (file.members ++ [file.lastMember]).map Prod.snd, scalar.Valid := by
    intro scalar hscalar
    rcases mem_cons.mp hscalar with rfl | hscalar
    · trivial
    rcases mem_cons.mp hscalar with rfl | hscalar
    · exact h.source
    rcases mem_cons.mp hscalar with rfl | hscalar
    · exact h.kind
    rcases mem_cons.mp hscalar with rfl | hscalar
    · exact h.path
    rcases mem_cons.mp hscalar with rfl | hscalar
    · trivial
    rcases mem_cons.mp hscalar with rfl | hscalar
    · exact h.checksum
    · rw [mem_singleton.mp hscalar]
      trivial
  have hkey : member.1 ∈ (file.members ++ [file.lastMember]).map Prod.fst := mem_map_of_mem hmem
  obtain ⟨hkey, hlen⟩ := hkeys member.1 hkey
  exact ⟨hkey, hlen, hvalid member.2 (mem_map_of_mem hmem)⟩

/-- What the index should say. -/
def indexed (file : RecordingDataFile) : IndexedFile where
  source := file.source
  path := file.path
  sizeBytes := file.sizeBytes
  checksum := file.checksum
  copiedIntoSession := file.copyIntoSession

end RecordingDataFile

/-- **The line read back** is what was recorded. -/
theorem parseIndexLine_toJson {Node : Type} {yaml : Yaml Node} (hyaml : ReadsScalars yaml) {file : RecordingDataFile}
    (h : file.Utf8) (hsource : file.source ≠ []) (hpath : file.path ≠ [])
    (hlen : file.toJson.length ≤ kMaximumLineBytes) : parseIndexLine yaml file.toJson = some file.indexed := by
  have hmembers : ∀ member ∈ file.members ++ [file.lastMember], PlainKey member.1 ∧ member.2.Valid :=
    fun member hmember => ⟨(h.members hmember).1, (h.members hmember).2.2⟩
  obtain ⟨node, hload, hmap, hreads⟩ := hyaml.load file.members file.lastMember (fun _ hmember => h.members hmember)
    (show (["timestamp_ms", "source", "kind", "path", "size_bytes", "checksum", "copied_into_session"].map ascii).Nodup
      by decide)
  have hvalid : isValidValue file.toJson = true := by
    unfold isValidValue
    rw [file.toJson_eq, parse_scalarObject hmembers]
    rfl
  have hsourceRead : yaml.asString (yaml.get node "source") = some file.source :=
    hreads ("source", .string file.source) (.tail _ (.head _))
  have hpathRead : yaml.asString (yaml.get node "path") = some file.path :=
    hreads ("path", .string file.path) (.tail _ (.tail _ (.tail _ (.head _))))
  have hsizeRead : yaml.asUInt64 (yaml.get node "size_bytes") = some file.sizeBytes :=
    hreads ("size_bytes", .integer file.sizeBytes.toNat) (.tail _ (.tail _ (.tail _ (.tail _ (.head _))))) _ rfl
  have hchecksumRead : yaml.asString (yaml.get node "checksum") = some file.checksum :=
    hreads ("checksum", .string file.checksum) (.tail _ (.tail _ (.tail _ (.tail _ (.tail _ (.head _))))))
  have hcopiedRead : yaml.asBool (yaml.get node "copied_into_session") = some file.copyIntoSession :=
    hreads file.lastMember (mem_append_right _ (mem_singleton_self _))
  unfold parseIndexLine
  rw [hvalid, decide_eq_true hlen, file.toJson_eq, hload]
  simp [hmap, hsourceRead, hpathRead, hsizeRead, hchecksumRead, hcopiedRead, hsource, hpath,
    RecordingDataFile.indexed]

/-! ## The directory -/

/-- The file system has the file under `path`, which is `canonical` when all links are followed. -/
structure ShowsFile (fs : FileSystem) (path canonical content : Bytes) : Prop where
  existsAt : fs.existsAt path = .ok true
  leadsTo : fs.canonical path = some canonical
  isRegularFile : fs.isRegularFile path = true
  fileSize : fs.fileSize path = some (UInt64.ofNat content.length)
  openRead : fs.openRead path = some (content, false)

/-- The file system has the directory under `path`, with the index and the copies. -/
structure Shows (fs : FileSystem) (path canonical : Bytes) (d : Directory) : Prop where
  leadsTo : fs.canonical path = some canonical
  index : ∀ lines, d.records .dataFiles = some lines →
    fs.openRead (divide path (ascii "data_files.jsonl")) = some (lines.flatMap (· ++ [newline]), false)
  artifacts : ∀ name content, IsName name → d.artifacts name = some content →
    ∃ found, elements found = elements canonical ++ [ascii "artifacts", name] ∧
      ShowsFile fs (divide path (ascii "artifacts/" ++ name)) found content

/-- **The directory is reached** by its path, and by the normal form of that. -/
structure Reached (fs : FileSystem) (directory canonical : Bytes) (d : Directory) (p : Parts) : Prop where
  rooted : p.Rooted
  names : p.names ≠ []
  slash : p.slash = false
  normal : ∃ base, absolute fs directory = some base ∧ lexicallyNormal base = p.text
  shown : Shows fs directory canonical d
  shownNormal : Shows fs p.text canonical d

theorem getLast?_absolute {fs : FileSystem} {sessions name base : Bytes} (hname : IsName name)
    (hbase : absolute fs (divide sessions name) = some base) : (elements base).getLast? = some name := by
  unfold absolute at hbase
  split at hbase
  · cases hbase
  · split at hbase
    case isTrue =>
      rw [← Option.some.inj hbase]
      exact hname.getLast?_divide sessions
    case isFalse hrelative =>
      obtain ⟨current, -, rfl⟩ := Option.map_eq_some_iff.mp hbase
      exact hname.getLast?_divide_divide current sessions (eq_false_iff.mpr hrelative)

/-- **The directory of a session** is reached where its normal form leads to it. -/
theorem exists_reached {fs : FileSystem} {sessions name base canonical : Bytes} {d : Directory} (hname : IsName name)
    (hbase : absolute fs (divide sessions name) = some base) (hshown : Shows fs (divide sessions name) canonical d)
    (hnormal : Shows fs (lexicallyNormal base) canonical d) :
    ∃ p, Reached fs (divide sessions name) canonical d p := by
  obtain ⟨p, hrooted, htext, hnames, hslash⟩ :=
    normal_of_getLast? (isAbsolute_absolute hbase) (getLast?_absolute hname hbase) hname
  rw [htext] at hnormal
  exact ⟨p, hrooted, hnames, hslash, ⟨base, hbase, htext⟩, hshown, hnormal⟩

/-! ## One copy -/

theorem intercalate_artifact (name : Bytes) :
    [LexicalPath.slash].intercalate [ascii "artifacts", name] = ascii "artifacts/" ++ name := by
  rw [intercalate_cons_of_ne_nil (List.cons_ne_nil _ _), intercalate_singleton]
  rfl

theorem isName_artifact {name : Bytes} (h : IsName name) : ∀ other ∈ [ascii "artifacts", name], IsName other := by
  intro other hother
  rcases mem_cons.mp hother with rfl | hother
  · exact ⟨by decide, by decide, by decide, by decide⟩
  · rw [mem_singleton.mp hother]
    exact h

/-- **An artifact below a normal form** is a normal form, with two elements more. -/
theorem divide_artifact {p : Parts} (hrooted : p.Rooted) (hnames : p.names ≠ []) (hslash : p.slash = false)
    {name : Bytes} (hname : IsName name) :
    lexicallyNormal (divide p.text (ascii "artifacts/" ++ name)) = divide p.text (ascii "artifacts/" ++ name) ∧
      elements (divide p.text (ascii "artifacts/" ++ name)) = elements p.text ++ [ascii "artifacts", name] := by
  obtain ⟨hbelow, hdivide⟩ := divide_names hrooted hnames hslash (isName_artifact hname) (List.cons_ne_nil _ _)
  rw [intercalate_artifact] at hdivide
  refine ⟨by rw [hdivide, normal_text hbelow], ?_⟩
  rw [hdivide, hbelow.elements_text, hrooted.elements_text, hbelow.elements_eq, hrooted.elements_eq, hslash,
    if_neg Bool.false_ne_true, List.append_nil, List.append_nil, List.cons_append]

section Reached

variable {fs : FileSystem} {directory canonical : Bytes} {d : Directory} {p : Parts}

/-- **An artifact is safe**, and is looked for right below the normal form of the directory. -/
theorem Reached.resolvePath_eq (h : Reached fs directory canonical d p) {file : IndexedFile} {name : Bytes}
    (hname : IsName name) (hcopied : file.copiedIntoSession = true) (hpath : file.path = ascii "artifacts/" ++ name) :
    resolvePath fs file directory = some (divide p.text (ascii "artifacts/" ++ name), true) := by
  obtain ⟨base, hbase, hnormal⟩ := h.normal
  obtain ⟨hbelow, helements⟩ := divide_artifact h.rooted h.names h.slash hname
  have hrelative := isAbsolute_intercalate (isName_artifact hname) (List.cons_ne_nil _ _)
  rw [intercalate_artifact] at hrelative
  have hwithin : isWithinDirectory (divide p.text (ascii "artifacts/" ++ name)) p.text = true := by
    unfold isWithinDirectory
    rw [helements, List.isPrefixOf_iff_prefix]
    exact prefix_append _ _
  have hne : elements (divide p.text (ascii "artifacts/" ++ name)) ≠ elements p.text := by
    rw [helements]
    exact fun heq => absurd (append_right_eq_self.mp heq) (List.cons_ne_nil _ _)
  unfold resolvePath
  rw [hcopied, hpath, hrelative, if_neg (by decide), if_neg (by decide), hbase]
  dsimp only [Option.bind_eq_bind, Option.bind_some]
  rw [hnormal, hbelow, hwithin, decide_eq_true hne]
  rfl

theorem Reached.resolvesInside_eq (h : Reached fs directory canonical d p) {path found content : Bytes}
    (hfile : ShowsFile fs path found content) {rest : List Bytes} (hne : rest ≠ [])
    (hfound : elements found = elements canonical ++ rest) : resolvesInside fs path directory = true := by
  have hdiffers : elements found ≠ elements canonical := by
    rw [hfound]
    intro heq
    exact hne (append_right_eq_self.mp heq)
  unfold resolvesInside
  rw [h.shown.leadsTo, hfile.leadsTo]
  dsimp only
  rw [decide_eq_true hdiffers, Bool.and_true]
  unfold isWithinDirectory
  rw [hfound, List.isPrefixOf_iff_prefix]
  exact prefix_append _ _

end Reached

/-! ## The counts -/

/-- `n` files, all of them well. -/
def agreed (n : Nat) : RecordingIntegrityResult where
  indexEntries := n
  filesChecked := n
  checksumsChecked := n

section Counts

variable {answers : Empty → Answer} {fs : FileSystem} {stop : Verification → Prop}

/-- The result so far. -/
def Results (result : RecordingIntegrityResult) (v : Verification) : Prop := v.result = result

theorem fileChecksum_eq {path content : Bytes} (h : fs.openRead path = some (content, false)) :
    fileChecksum fs path = .ok (digest content) := by
  unfold fileChecksum
  rw [h]
  rfl

/-- **The digest that was recorded** is found again. -/
theorem verifyChecksum_agrees {file : IndexedFile} {path content : Bytes} (hread : fs.openRead path = some (content, false))
    (hchecksum : file.checksum = digest content) (lineNumber : Nat) (result : RecordingIntegrityResult) :
    Triple answers (Results result) (verifyChecksum fs file lineNumber path)
      (fun _ => Results { result with checksumsChecked := result.checksumsChecked + 1 }) stop := by
  have hbegins : kFnvPrefix.isPrefixOf file.checksum = true := by
    rw [hchecksum, List.isPrefixOf_iff_prefix]
    exact prefix_append _ _
  have hempty : file.checksum.isEmpty = false := by
    rw [hchecksum]
    rfl
  unfold verifyChecksum
  rw [hempty, hbegins, if_neg (by decide), fileChecksum_eq hread]
  refine .bind (M := fun _ => Results result) (.modify fun v hv => hv) fun _ => ?_
  refine .bind (M := fun _ => Results { result with checksumsChecked := result.checksumsChecked + 1 })
    (.modify ?_) fun _ => ?_
  · rintro v rfl
    rfl
  rw [hchecksum, if_neg (not_not_intro rfl)]
  exact .pure fun v hv => hv

theorem verifyContent_agrees {file : IndexedFile} {path found content : Bytes} (hfile : ShowsFile fs path found content)
    (hsize : file.sizeBytes.toNat = content.length) (hchecksum : file.checksum = digest content) (lineNumber : Nat)
    (result : RecordingIntegrityResult) : Triple answers (Results result) (verifyContent fs file lineNumber path)
      (fun _ => Results { result with
        filesChecked := result.filesChecked + 1, checksumsChecked := result.checksumsChecked + 1 }) stop := by
  have hactual : UInt64.ofNat content.length = file.sizeBytes := by
    rw [← hsize]
    exact UInt64.ofNat_toNat
  unfold verifyContent
  rw [hfile.fileSize, hactual]
  refine .bind (M := fun _ => Results result) (.modify fun v hv => hv) fun _ => ?_
  refine .bind (M := fun _ => Results { result with filesChecked := result.filesChecked + 1 })
    (.modify ?_) fun _ => ?_
  · rintro v rfl
    rfl
  refine .bind (M := fun _ => Results { result with filesChecked := result.filesChecked + 1 }) ?_ fun _ => ?_
  · unfold verifySize
    rw [if_neg (not_not_intro rfl)]
    exact .pure fun v hv => hv
  · exact verifyChecksum_agrees hfile.openRead hchecksum lineNumber _

variable {Node : Type} {yaml : Yaml Node} {directory canonical : Bytes} {d : Directory} {p : Parts}

/-- The artifact of a data file, with the size of its content and the digest. -/
def HasCopy (artifacts : Bytes → Option Bytes) (recorded : RecordingDataFile) : Prop :=
  ∃ name content, LexicalPath.IsName name ∧ recorded.path = ascii "artifacts/" ++ name ∧
    artifacts name = some content ∧ recorded.sizeBytes.toNat = content.length ∧ recorded.checksum = digest content

theorem verifyFile_agrees (h : Reached fs directory canonical d p) {file : RecordingDataFile}
    (hcopied : file.copyIntoSession = true) (hcopy : HasCopy d.artifacts file) (lineNumber : Nat)
    (result : RecordingIntegrityResult) :
    Triple answers (Results result) (verifyFile fs file.indexed lineNumber directory)
      (fun _ => Results { result with
        filesChecked := result.filesChecked + 1, checksumsChecked := result.checksumsChecked + 1 }) stop := by
  obtain ⟨name, content, hname, hpath, hcontent, hsize, hchecksum⟩ := hcopy
  obtain ⟨found, hfound, hfile⟩ := h.shownNormal.artifacts name content hname hcontent
  have hindexed : file.indexed.copiedIntoSession = true := hcopied
  have hresolved := h.resolvePath_eq hname hindexed hpath
  have hinside := h.resolvesInside_eq hfile (List.cons_ne_nil _ _) hfound
  unfold verifyFile
  rw [hresolved]
  dsimp only
  rw [if_neg (by decide), hfile.existsAt]
  dsimp only
  rw [hindexed, hinside, hfile.isRegularFile, if_neg (by decide), if_neg (by decide)]
  exact verifyContent_agrees hfile hsize hchecksum lineNumber result

/-- A data file whose copy is in the directory, and whose line is one that the check takes. -/
structure InIndex (d : Directory) (file : RecordingDataFile) : Prop where
  utf8 : file.Utf8
  source : file.source ≠ []
  length : file.toJson.length ≤ kMaximumLineBytes
  copied : file.copyIntoSession = true
  copy : HasCopy d.artifacts file

/-- **One line** is one entry, one file and one checksum. -/
theorem verifyLine_agrees (hyaml : ReadsScalars yaml) (h : Reached fs directory canonical d p)
    {file : RecordingDataFile} (hfile : InIndex d file) (lineNumber n : Nat) :
    Triple answers (Results (agreed n)) (verifyLine fs yaml directory lineNumber file.toJson)
      (fun _ => Results (agreed (n + 1))) stop := by
  have hpath : file.path ≠ [] := by
    obtain ⟨name, content, -, hpath, -⟩ := hfile.copy
    rw [hpath]
    exact append_ne_nil_of_left_ne_nil (by decide) name
  unfold verifyLine
  rw [parseIndexLine_toJson hyaml hfile.utf8 hfile.source hpath hfile.length]
  refine .bind (M := fun _ => Results { agreed n with indexEntries := n + 1 }) (.modify ?_) fun _ => ?_
  · rintro v hv
    show { v.result with indexEntries := v.result.indexEntries + 1 } = _
    rw [show v.result = agreed n from hv]
    rfl
  · exact verifyFile_agrees h hfile.copied hfile.copy lineNumber _

theorem verifyLines_agrees (hyaml : ReadsScalars yaml) (h : Reached fs directory canonical d p)
    {files : List RecordingDataFile} (hfiles : ∀ file ∈ files, InIndex d file) (lineNumber n : Nat) :
    Triple answers (Results (agreed n))
      (verifyLines fs yaml directory lineNumber (files.map RecordingDataFile.toJson))
      (fun _ => Results (agreed (n + files.length))) stop := by
  induction files generalizing lineNumber n with
  | nil => exact .pure fun v hv => hv
  | cons file files ih =>
    rw [map_cons, verifyLines, length_cons, Nat.add_comm files.length 1, ← Nat.add_assoc]
    refine .bind (verifyLine_agrees hyaml h (hfiles file mem_cons_self) (lineNumber + 1) n) fun _ => ?_
    exact ih (fun other hother => hfiles other (mem_cons_of_mem _ hother)) (lineNumber + 1) (n + 1)

theorem lines_index {files : List RecordingDataFile} (hfiles : ∀ file ∈ files, InIndex d file) :
    lines ((files.map RecordingDataFile.toJson).flatMap (· ++ [newline])) = files.map RecordingDataFile.toJson := by
  rw [lines_flatMap]
  induction files with
  | nil => rfl
  | cons file files ih =>
    have hutf8 := (hfiles file mem_cons_self).utf8
    have hnewline : newline ∉ file.toJson := by
      rw [file.toJson_eq]
      exact newline_notMem_scalarObject fun _ hmember => ⟨(hutf8.members hmember).1, (hutf8.members hmember).2.2⟩
    rw [map_cons, flatMap_cons, lines_snoc_newline hnewline,
      ih fun other hother => hfiles other (mem_cons_of_mem _ hother), singleton_append]

/-- **The whole index**: all that is found is well. -/
theorem runVerify_agrees (hyaml : ReadsScalars yaml) (h : Reached fs directory canonical d p)
    {files : List RecordingDataFile} (hindex : d.records .dataFiles = some (files.map RecordingDataFile.toJson))
    (hfiles : ∀ file ∈ files, InIndex d file) :
    (runVerify fs yaml directory).1 = .returned (.ok (agreed files.length)) := by
  have htriple : ∀ answers : Empty → Answer, Triple answers (Results {}) (verify fs yaml directory)
      (fun r _ => r = .ok (agreed files.length)) (fun _ => False) := by
    intro answers
    unfold verify
    dsimp only
    rw [h.shown.index _ hindex]
    unfold indexLines
    dsimp only
    rw [if_neg (by decide), lines_index hfiles]
    refine .bind ((verifyLines_agrees hyaml h hfiles 0 0).mono (fun v hv => hv) (fun _ v hv => hv)
      fun v hv => hv) fun _ => ?_
    rw [if_neg (by decide)]
    refine .bind (M := fun a _ => a.result = agreed files.length) (.get fun v hv => ?_) fun a => ?_
    · rw [← Nat.zero_add files.length]
      exact hv
    · refine .pure fun v hv => ?_
      rw [hv]
  have hreturns : ∀ answers : Empty → Answer,
      ((verify fs yaml directory).run answers {}).1 = .returned (.ok (agreed files.length)) := by
    intro answers
    obtain ⟨result, hret, rfl⟩ := (htriple answers).exists_returned (show Results {} {} from rfl)
    exact hret
  exact hreturns _

end Counts

/-! ## The texts of a copy -/

theorem wellFormed_append {front text : Bytes} (hfront : ∀ b ∈ front, b ≤ 0x7F) (h : WellFormed text) :
    WellFormed (front ++ text) := by
  induction front with
  | nil => exact h
  | cons b front ih =>
    exact .one (hfront b mem_cons_self) (ih fun other hother => hfront other (mem_cons_of_mem _ hother))

theorem natNumeral_ascii {n : Nat} {b : UInt8} (h : b ∈ natNumeral n) : b ≤ 0x7F := by
  have hdigit := isDigit_of_mem_natNumeral b h
  unfold isDigit at hdigit
  rw [and_eq_true, decide_eq_true_eq, decide_eq_true_eq] at hdigit
  exact UInt8.le_trans hdigit.2 (by decide)

theorem hexDigits_ascii {n value : Nat} {b : UInt8} (h : b ∈ hexDigits n value) : b ≤ 0x7F := by
  induction n generalizing value with
  | zero => cases h
  | succ n ih =>
    have hdigits : ∀ k : Fin 16, (if k.val < 10 then digit k.val else UInt8.ofNat (0x57 + k.val)) ≤ 0x7F := by decide
    unfold hexDigits at h
    rcases mem_append.mp h with h | h
    · exact ih h
    · rw [mem_singleton.mp h]
      exact hdigits ⟨value % 16, Nat.mod_lt _ (by decide)⟩

theorem wellFormed_digest (content : Bytes) : WellFormed (digest content) := by
  refine WellFormed.of_ascii fun b hb => ?_
  rcases mem_append.mp hb with hb | hb
  · exact (show ∀ b ∈ ascii "fnv1a64:", b ≤ 0x7F by decide +kernel) b hb
  · exact hexDigits_ascii hb

theorem filename_append (front : Bytes) {name : Bytes} (h : LexicalPath.slash ∉ name) :
    filename (front ++ LexicalPath.slash :: name) = name := by
  have hname : ∀ b ∈ name.reverse, decide (b ≠ 0x2F) = true := by
    intro b hb
    rw [decide_eq_true_eq]
    rintro rfl
    exact h (mem_reverse.mp hb)
  unfold filename
  rw [reverse_append, reverse_cons, append_assoc, takeWhile_append_of_pos hname,
    singleton_append, takeWhile_cons_of_neg (by decide), List.append_nil, reverse_reverse]

theorem filename_artifact {name : Bytes} (h : IsName name) : filename (ascii "artifacts/" ++ name) = name :=
  filename_append (ascii "artifacts") h.no_slash

/-! ## Calls -/

/-- The name of the session's directory. -/
def SessionId.text (id : SessionId) : Bytes :=
  intNumeral id.milliseconds ++ 0x5F :: (natNumeral id.pid ++ 0x5F :: natNumeral id.sequence)

theorem SessionId.isName_text (id : SessionId) : IsName id.text := by
  have hmem : (0x5F : UInt8) ∈ id.text := mem_append_right _ mem_cons_self
  have hnat (n : Nat) : LexicalPath.slash ∉ natNumeral n := by
    intro hslash
    have hdigit := isDigit_of_mem_natNumeral _ hslash
    cases hdigit
  refine ⟨fun heq => ?_, fun heq => ?_, fun heq => ?_, fun hslash => ?_⟩
  · rw [heq] at hmem
    cases hmem
  · rw [heq] at hmem
    exact absurd hmem (by decide)
  · rw [heq] at hmem
    exact absurd hmem (by decide)
  · rcases mem_append.mp hslash with hslash | hslash
    · unfold intNumeral at hslash
      split at hslash
      · rcases mem_cons.mp hslash with hslash | hslash
        · cases hslash
        · exact hnat _ hslash
      · exact hnat _ hslash
    rcases mem_cons.mp hslash with hslash | hslash
    · cases hslash
    rcases mem_append.mp hslash with hslash | hslash
    · exact hnat _ hslash
    rcases mem_cons.mp hslash with hslash | hslash
    · cases hslash
    · exact hnat _ hslash

def SessionCall.isDataFile : SessionCall → Bool
  | .appendDataFile _ _ _ => true
  | _ => false

/-- No `Stop`; and a data file is copied, without a checksum of the caller's, and its line is one that `Verify` reads. -/
def Copies (w : World) (i : SessionCall × (Operation → Bool)) : Prop :=
  match i.1 with
  | .appendDataFile file _ _ =>
    file.copyIntoSession = true ∧ file.checksum = [] ∧
      WellFormed file.source ∧ WellFormed file.kind ∧ WellFormed (filename file.path) ∧
      ∃ record ∈ w.recordOf i, record.toJson.length ≤ kMaximumLineBytes
  | .stop _ => False
  | _ => True

/-- The data files among the records. -/
def dataFilesOf (records : List Record) : List RecordingDataFile :=
  records.filterMap fun record =>
    match record with
    | .dataFile file => some file
    | _ => none

theorem linesOf_dataFiles (records : List Record) :
    linesOf .dataFiles records = (dataFilesOf records).map RecordingDataFile.toJson := by
  induction records with
  | nil => rfl
  | cons record records ih =>
    unfold linesOf dataFilesOf at *
    cases record with
    | vehicleState state | event event => exact ih
    | dataFile file =>
      rw [filter_cons_of_pos (by rfl), map_cons, filterMap_cons_some (by rfl), map_cons, ih]
      rfl

/-- What the calls promise of a data file that was recorded. -/
structure Noted (artifacts : Bytes → Option Bytes) (file : RecordingDataFile) : Prop where
  source : WellFormed file.source
  ne_nil : file.source ≠ []
  kind : WellFormed file.kind
  filename : WellFormed (filename file.path)
  copied : file.copyIntoSession = true
  length : file.toJson.length ≤ kMaximumLineBytes
  copy : HasCopy artifacts file

variable {artifacts : Bytes → Option Bytes}

theorem noted_of_gives {w : World} {i : SessionCall × (Operation → Bool)} (hcopies : Copies w i)
    (hgives : ∀ record ∈ w.recordOf i, i.1.Gives artifacts record) :
    (∀ file ∈ dataFilesOf (w.recordOf i).toList, Noted artifacts file) ∧
      (dataFilesOf (w.recordOf i).toList).length = if i.1.isDataFile then 1 else 0 := by
  obtain ⟨call, succeeds⟩ := i
  cases call with
  | appendDataFile file copy environment =>
    obtain ⟨hcopied, hnone, hsource, hkind, hfilename, record, hrecord, hlen⟩ := hcopies
    obtain ⟨hvalid, recorded, rfl, hrecorded⟩ := hgives record hrecord
    unfold RecordingDataFile.RecordedAs at hrecorded
    rw [if_pos hcopied] at hrecorded
    obtain ⟨n, content, hcontent, hsize, heq⟩ := hrecorded
    rw [hnone] at heq
    have hpath : recorded.path = ascii "artifacts/" ++ artifactName n (Recording.filename file.path) := by rw [heq]
    have hname := isName_artifactName n file.path
    rw [show w.recordOf _ = some (.dataFile recorded) from hrecord]
    refine ⟨fun other hother => ?_, rfl⟩
    rw [mem_singleton.mp hother]
    refine ⟨?_, ?_, ?_, ?_, ?_, hlen, _, content, hname, hpath, hcontent, hsize, ?_⟩
    · rw [heq]
      exact hsource
    · unfold RecordingDataFile.isValid at hvalid
      simp only [and_eq_true, not_eq_true', isEmpty_eq_false_iff] at hvalid
      rw [heq]
      exact hvalid.1.1.2
    · rw [heq]
      exact hkind
    · rw [hpath, filename_artifact hname]
      unfold artifactName
      exact wellFormed_append (fun b hb => natNumeral_ascii hb) (.one (by decide) hfilename)
    · rw [heq]
      exact hcopied
    · rw [heq]
      rfl
  | append state environment =>
    cases hrecord : w.recordOf (.append state environment, succeeds) with
    | none => exact ⟨nofun, rfl⟩
    | some record =>
      have hgiven : record = .vehicleState state := hgives record hrecord
      rw [hgiven]
      exact ⟨nofun, rfl⟩
  | appendEvent event environment =>
    cases hrecord : w.recordOf (.appendEvent event environment, succeeds) with
    | none => exact ⟨nofun, rfl⟩
    | some record =>
      have hgiven : record = .event event := (hgives record hrecord).1
      rw [hgiven]
      exact ⟨nofun, rfl⟩
  | setExistingBytes existingBytes =>
    cases hrecord : w.recordOf (.setExistingBytes existingBytes, succeeds) with
    | none => exact ⟨nofun, rfl⟩
    | some record => exact absurd (hgives record hrecord) not_false
  | start trigger clocks =>
    cases hrecord : w.recordOf (.start trigger clocks, succeeds) with
    | none => exact ⟨nofun, rfl⟩
    | some record => exact absurd (hgives record hrecord) not_false
  | stop stoppedAtMs => exact absurd hcopies not_false

theorem dataFilesOf_append (records others : List Record) :
    dataFilesOf (records ++ others) = dataFilesOf records ++ dataFilesOf others := filterMap_append

theorem Copies.isStop {w : World} {i : SessionCall × (Operation → Bool)} (h : Copies w i) : i.1.isStop = false := by
  obtain ⟨call, succeeds⟩ := i
  cases call with
  | stop stoppedAtMs => exact absurd h not_false
  | _ => rfl

/-- **The calls of a session that copies** leave one data file each. -/
theorem noted_run {w : World} {calls : List (SessionCall × (Operation → Bool))}
    (hcalls : StepRun.Along World.call Copies w calls)
    (hgives : StepRun.Along World.call (fun w i => ∀ record ∈ w.recordOf i, i.1.Gives artifacts record) w calls) :
    (∀ file ∈ dataFilesOf (recordsOf w calls), Noted artifacts file) ∧
      (dataFilesOf (recordsOf w calls)).length = calls.countP fun i => i.1.isDataFile := by
  induction calls generalizing w with
  | nil => exact ⟨nofun, rfl⟩
  | cons i calls ih =>
    obtain ⟨hnoted, hcount⟩ := noted_of_gives hcalls.1 hgives.1
    obtain ⟨hrest, hlen⟩ := ih hcalls.2 hgives.2
    rw [recordsOf, dataFilesOf_append, length_append, hcount, hlen, countP_cons, Nat.add_comm]
    refine ⟨fun file hfile => ?_, rfl⟩
    rcases mem_append.mp hfile with hfile | hfile
    · exact hnoted file hfile
    · exact hrest file hfile

theorem along_isStop {w : World} {calls : List (SessionCall × (Operation → Bool))}
    (h : StepRun.Along World.call Copies w calls) : ∀ i ∈ calls, i.1.isStop = false := by
  induction calls generalizing w with
  | nil => exact fun i hi => absurd hi not_mem_nil
  | cons i calls ih =>
    intro j hj
    rcases mem_cons.mp hj with rfl | hj
    · exact h.1.isStop
    · exact ih h.2 j hj

theorem Noted.inIndex {file : RecordingDataFile} {d : Directory} (h : Noted d.artifacts file) : InIndex d file := by
  refine ⟨⟨h.source, h.kind, ?_, ?_⟩, h.ne_nil, h.length, h.copied, h.copy⟩
  · obtain ⟨name, content, hname, hpath, -⟩ := h.copy
    have hfilename := h.filename
    rw [hpath, filename_artifact hname] at hfilename
    rw [hpath]
    exact wellFormed_append (by decide +kernel) hfilename
  · obtain ⟨name, content, -, -, -, -, hchecksum⟩ := h.copy
    rw [hchecksum]
    exact wellFormed_digest content

/-! ## The session -/

/-- **A session that copies its data files**: `Start` makes its directory and returns true, the calls copy, and `Stop`
    returns true. -/
structure RecordedSession where
  world : World
  trigger : String
  clocks : StartClocks
  startSucceeds : Operation → Bool
  calls : List (SessionCall × (Operation → Bool))
  stoppedAtMs : Int
  stopSucceeds : Operation → Bool
  fresh : world.disk (.recording (world.makeSessionId clocks.idMs)) = none
  started : (world.call (.start trigger clocks, startSucceeds)).2 = true
  copies : StepRun.Along World.call Copies (world.call (.start trigger clocks, startSucceeds)).1 calls
  stopped : ((StepRun.run World.call (world.call (.start trigger clocks, startSucceeds)).1 calls).call
    (.stop stoppedAtMs, stopSucceeds)).2 = true

namespace RecordedSession

def id (r : RecordedSession) : SessionId := r.world.makeSessionId r.clocks.idMs

def active (r : RecordedSession) : World :=
  StepRun.run World.call (r.world.call (.start r.trigger r.clocks, r.startSucceeds)).1 r.calls

/-- The session behind its `Stop`. -/
def final (r : RecordedSession) : World := (r.active.call (.stop r.stoppedAtMs, r.stopSucceeds)).1

/-- How many data files the calls gave. -/
def dataFiles (r : RecordedSession) : Nat := r.calls.countP fun i => i.1.isDataFile

end RecordedSession

theorem call_returned {w : World} {i : SessionCall × (Operation → Bool)} {I : World → Prop}
    {post : Option Record → World → Prop} (h : Triple (answersOf i.2) I i.1.program post fun _ => True) (hw : I w)
    (hret : (w.call i).2 = true) : ∃ record, post record (w.call i).1 := by
  have hrun := h w hw
  unfold World.call at hret ⊢
  rcases hres : i.1.program.run (answersOf i.2) w with ⟨outcome, s⟩
  rw [hres] at hrun hret
  cases outcome with
  | returned record => exact ⟨record, hrun⟩
  | failed error | crashed => cases hret

/-! ## A session that is stopped -/

/-- What is in the directory of a session: in each file the lines of what the calls that returned true have recorded; and
    each of these has recorded what it was given, a data file that is not copied itself, and one that is copied by its
    artifact, which is there with this size and checksum. -/
structure Recorded (w : World) (calls : List (SessionCall × (Operation → Bool))) (d : Directory) : Prop where
  records : ∀ f, d.records f = some (linesOf f (recordsOf w calls))
  gives : StepRun.Along World.call (fun w i => ∀ record ∈ w.recordOf i, i.1.Gives d.artifacts record) w calls

section

variable {id : SessionId} {w : World} {calls : List (SessionCall × (Operation → Bool))}

theorem call_start {trigger : String} {clocks : StartClocks} {started : Operation → Bool}
    (hfresh : w.disk (.recording (w.makeSessionId clocks.idMs)) = none)
    (hstarted : (w.call (.start trigger clocks, started)).2 = true) :
    Active (fun _ => none) (w.makeSessionId clocks.idMs) [] (w.call (.start trigger clocks, started)).1 := by
  have hstart : Triple (answersOf started) (· = w) (SessionCall.start trigger clocks).program
      (fun _ => Active (fun _ => none) (w.makeSessionId clocks.idMs) []) fun _ => True :=
    .bind (start_opens trigger clocks hfresh) fun _ => .pure fun _ hs => hs
  obtain ⟨-, hactive⟩ := call_returned (I := (· = w)) hstart rfl hstarted
  exact hactive

theorem call_stop (h : Active (fun _ => none) id [] w) (hcalls : ∀ i ∈ calls, i.1.isStop = false) {stoppedAtMs : Int}
    {stopped : Operation → Bool}
    (hstopped : ((StepRun.run World.call w calls).call (.stop stoppedAtMs, stopped)).2 = true) :
    ∃ d, ((StepRun.run World.call w calls).call (.stop stoppedAtMs, stopped)).1.disk (.session id) = some d ∧
      Recorded w calls d := by
  obtain ⟨hrun, halong⟩ := run_files h hcalls
  have hstop : Triple (answersOf stopped) (Active (StepRun.run World.call w calls).artifacts id (recordsOf w calls))
      (SessionCall.stop stoppedAtMs).program
      (fun _ s => ∃ d, s.disk (.session id) = some d ∧
        Complete (StepRun.run World.call w calls).artifacts (recordsOf w calls) d) fun _ => True :=
    .bind (stop_files stoppedAtMs) fun _ => .pure fun _ hs => hs
  obtain ⟨-, d, hd, hcomplete⟩ := call_returned hstop hrun.keep.1 hstopped
  exact ⟨d, hd, hcomplete.records, halong d.artifacts hcomplete.copies⟩

end

/-- **What is on the disk** after `Stop`: the index of the data files that were recorded, and their copies. -/
theorem RecordedSession.directory (r : RecordedSession) :
    ∃ (d : Directory) (files : List RecordingDataFile), r.final.disk (.session r.id) = some d ∧
      d.records .dataFiles = some (files.map RecordingDataFile.toJson) ∧
      (∀ file ∈ files, InIndex d file) ∧ files.length = r.dataFiles := by
  obtain ⟨d, hd, hrecords, hgives⟩ := call_stop (call_start r.fresh r.started) (along_isStop r.copies) r.stopped
  obtain ⟨hnoted, hlen⟩ := noted_run r.copies hgives
  refine ⟨d, _, hd, ?_, fun file hfile => (hnoted file hfile).inIndex, hlen⟩
  rw [hrecords, linesOf_dataFiles]

/-- **Where `Start` and `Stop` return true the session is complete** under its final name, whatever was called in
    between. -/
theorem stopped_complete (w : World) (trigger : String) (clocks : StartClocks) (started stopped : Operation → Bool)
    (calls : List (SessionCall × (Operation → Bool))) (stoppedAtMs : Int)
    (hfresh : w.disk (.recording (w.makeSessionId clocks.idMs)) = none)
    (hstarted : (w.call (.start trigger clocks, started)).2 = true) (hcalls : ∀ i ∈ calls, i.1.isStop = false)
    (hstopped : ((StepRun.run World.call (w.call (.start trigger clocks, started)).1 calls).call
      (.stop stoppedAtMs, stopped)).2 = true) :
    ∃ d, ((StepRun.run World.call (w.call (.start trigger clocks, started)).1 calls).call
        (.stop stoppedAtMs, stopped)).1.disk (.session (w.makeSessionId clocks.idMs)) = some d ∧
      Recorded (w.call (.start trigger clocks, started)).1 calls d :=
  call_stop (call_start hfresh hstarted) hcalls hstopped

/-! ## A reader of JSON -/

/-- YAML, as far as it is JSON. -/
def Yaml.ofJson : Yaml Value where
  load := parse
  isMap
    | .object _ _ => true
    | _ => false
  get
    | .object keys values, key => ((keys.zip values).lookup (ascii key)).getD .null
    | _, _ => .null
  asString
    | .string text => some text
    | _ => none
  asUInt64
    | .number text =>
      if 0 ≤ ofNumeral text ∧ ofNumeral text < 2 ^ 64 then some (UInt64.ofNat (ofNumeral text).toNat) else none
    | _ => none
  asBool
    | .boolean value => some value
    | _ => none

theorem lookup_of_nodup {members : List (String × Scalar)} (h : (members.map fun member => ascii member.1).Nodup)
    {member : String × Scalar} (hmember : member ∈ members) :
    (members.map fun member => (ascii member.1, member.2.value)).lookup (ascii member.1) = some member.2.value := by
  induction members with
  | nil => cases hmember
  | cons first members ih =>
    rw [map_cons, nodup_cons] at h
    rw [map_cons, lookup_cons]
    rcases mem_cons.mp hmember with rfl | hmember
    · rw [beq_self_eq_true]
    · have hne : ascii member.1 ≠ ascii first.1 := by
        intro heq
        rw [← heq] at h
        exact h.1 (mem_map_of_mem hmember)
      rw [beq_false_of_ne hne]
      exact ih h.2 hmember

theorem readsScalars_ofJson : ReadsScalars Yaml.ofJson := by
  refine ⟨fun members last hmembers hnodup => ?_⟩
  refine ⟨_, parse_scalarObject fun member hmember => ⟨(hmembers member hmember).1, (hmembers member hmember).2.2⟩,
    rfl, fun member hmember => ?_⟩
  have hget : Yaml.ofJson.get (.object ((members ++ [last]).map fun member => ascii member.1)
      ((members ++ [last]).map fun member => member.2.value)) member.1 = member.2.value := by
    show ((List.zip _ _).lookup _).getD _ = _
    rw [zip_map', lookup_of_nodup hnodup hmember]
    rfl
  rw [hget]
  obtain ⟨key, scalar⟩ := member
  cases scalar with
  | string text | boolean value => rfl
  | integer n =>
    rintro value rfl
    show (if 0 ≤ ofNumeral _ ∧ ofNumeral _ < 2 ^ 64 then _ else _) = _
    rw [ofNumeral_intNumeral, if_pos ⟨Int.natCast_nonneg _, by have := value.toNat_lt; omega⟩, Int.toNat_natCast,
      UInt64.ofNat_toNat]

/-! ## A file system with one session in it -/

def contentAt (directory : Bytes) (d : Directory) (path : Bytes) : Option Bytes :=
  if (directory ++ ascii "/artifacts/").isPrefixOf path then
    d.artifacts (path.drop (directory ++ ascii "/artifacts/").length)
  else if path = directory ++ ascii "/data_files.jsonl" then
    (d.records .dataFiles).map fun lines => lines.flatMap (· ++ [newline])
  else none

/-- A file system in which the session is at its directory. -/
def FileSystem.showing (directory canonical : Bytes) (d : Directory) (current : Bytes)
    (hcur : isAbsolute current = true) : FileSystem where
  currentPath := some current
  existsAt path := .ok (path = directory || (contentAt directory d path).isSome)
  canonical path :=
    if path = directory || (contentAt directory d path).isSome then some (canonical ++ path.drop directory.length)
    else none
  isRegularFile path := (contentAt directory d path).isSome && !endsInSlash path
  fileSize path := (contentAt directory d path).map fun content => UInt64.ofNat content.length
  openRead path := (contentAt directory d path).map fun content => (content, false)
  isAbsolute_currentPath := by
    rintro path ⟨⟩
    exact hcur
  not_isRegularFile := by
    intro path hpath
    rw [hpath]
    exact and_false _

theorem shows_showing {directory current : Bytes} {d : Directory} {p : Parts} (hends : endsInSlash directory = false)
    (hrooted : p.Rooted) (hnames : p.names ≠ []) (hslash : p.slash = false) (hcur : isAbsolute current = true) :
    Shows (.showing directory p.text d current hcur) directory p.text d := by
  have hdivide {tail : Bytes} (hrelative : isAbsolute tail = false) :
      divide directory tail = directory ++ LexicalPath.slash :: tail := by
    unfold divide
    rw [hrelative, hends, if_neg Bool.false_ne_true, if_neg Bool.false_ne_true]
  refine ⟨?_, fun lines hlines => ?_, fun name content hname hcontent => ?_⟩
  · show (if _ then some (p.text ++ directory.drop directory.length) else none) = some p.text
    rw [decide_eq_true rfl, Bool.true_or, if_pos rfl, List.drop_length, List.append_nil]
  · have hat : contentAt directory d (directory ++ ascii "/data_files.jsonl") =
        some (lines.flatMap (· ++ [newline])) := by
      unfold contentAt
      rw [if_neg, if_pos rfl, hlines]
      · rfl
      · rw [List.isPrefixOf_iff_prefix, prefix_append_right_inj]
        decide
    rw [hdivide (by decide)]
    show (contentAt directory d (directory ++ ascii "/data_files.jsonl")).map _ = _
    rw [hat]
    rfl
  · have hat : contentAt directory d (directory ++ (ascii "/artifacts/" ++ name)) = some content := by
      unfold contentAt
      rw [← append_assoc, if_pos (List.isPrefixOf_iff_prefix.mpr (prefix_append _ _)), List.drop_left]
      exact hcontent
    have hrelative : isAbsolute (ascii "artifacts/" ++ name) = false := rfl
    have hendsInSlash : endsInSlash (directory ++ (ascii "/artifacts/" ++ name)) = false := by
      show endsInSlash (directory ++ LexicalPath.slash :: (ascii "artifacts" ++ LexicalPath.slash :: name)) = false
      rw [endsInSlash_append_slash, endsInSlash_append_slash, hname.endsInSlash]
    rw [hdivide hrelative]
    refine ⟨divide p.text (ascii "artifacts/" ++ name), (divide_artifact hrooted hnames hslash hname).2, ?_⟩
    show ShowsFile _ (directory ++ (ascii "/artifacts/" ++ name)) _ content
    refine ⟨?_, ?_, ?_, ?_, ?_⟩
    · show Except.ok (_ || (contentAt directory d _).isSome) = Except.ok true
      rw [hat, Option.isSome_some, Bool.or_true]
    · show (if (_ || (contentAt directory d _).isSome) = true then some (p.text ++ _) else none) = some _
      rw [hat, Option.isSome_some, Bool.or_true, if_pos rfl, List.drop_left]
      unfold divide
      rw [hrelative, hrooted.endsInSlash_text hnames, hslash]
      rfl
    · show ((contentAt directory d _).isSome && _) = true
      rw [hat, hendsInSlash]
      rfl
    · show (contentAt directory d _).map _ = _
      rw [hat]
      rfl
    · show (contentAt directory d _).map _ = _
      rw [hat]
      rfl

/-! ## Agreement -/

/-- **The check stays inside the session, and agrees with the recorder**: for every index and every file system, what
    is opened for a copied entry is below the session directory; and of a session that copies its data files it says
    that one file and one checksum for each call are well, if the normal form of its absolute path leads to it. -/
theorem verify_inside_and_agrees {Node : Type} (yaml : Yaml Node) :
    (∀ (fs : FileSystem) (sessionDirectory : Bytes),
      Logged (Inside fs sessionDirectory) (runVerify fs yaml sessionDirectory).2) ∧
    (ReadsScalars yaml → ∀ r : RecordedSession, ∃ d, r.final.disk (.session r.id) = some d ∧
      ∀ (fs : FileSystem) (sessions canonical base : Bytes),
        absolute fs (divide sessions r.id.text) = some base →
        Shows fs (divide sessions r.id.text) canonical d → Shows fs (lexicallyNormal base) canonical d →
          (runVerify fs yaml (divide sessions r.id.text)).1 = .returned (.ok (agreed r.dataFiles))) := by
  refine ⟨fun fs sessionDirectory => accesses_inside fs yaml sessionDirectory, fun hyaml r => ?_⟩
  obtain ⟨d, files, hd, hindex, hfiles, hlen⟩ := r.directory
  refine ⟨d, hd, fun fs sessions canonical base hbase hshown hnormal => ?_⟩
  obtain ⟨p, hreached⟩ := exists_reached r.id.isName_text hbase hshown hnormal
  rw [← hlen]
  exact runVerify_agrees hyaml hreached hindex hfiles


def oneFile : SessionCall × (Operation → Bool) :=
  (.appendDataFile ⟨5, ascii "can0", ascii "trace", ascii "/tmp/a", 0, [], true⟩
    ⟨.ok 2, ⟨1, some (4096, 4096)⟩, [.bytes [0x61, 0x62] [.wrote 2]]⟩ ⟨⟨1, some (4096, 4096)⟩, 0⟩, fun _ => true)

def oneFileSession : RecordedSession where
  world := World.boot (fun _ => none) 7 0 ⟨0, 0, 0, 0⟩ 0
  trigger := ""
  clocks := ⟨1, 1, 1⟩
  startSucceeds := fun _ => true
  calls := [oneFile]
  stoppedAtMs := 9
  stopSucceeds := fun _ => true
  fresh := rfl
  started := by decide +kernel
  copies := by
    have hrecorded : (((World.boot (fun _ => none) 7 0 ⟨0, 0, 0, 0⟩ 0).call
        (.start "" ⟨1, 1, 1⟩, fun _ => true)).1.recordOf oneFile).any
          (fun record => record.toJson.length ≤ kMaximumLineBytes) = true := by
      decide +kernel
    obtain ⟨record, hrecord, hlen⟩ := (Option.any_eq_true _ _).mp hrecorded
    exact ⟨⟨rfl, rfl, WellFormed.of_ascii (by decide +kernel), WellFormed.of_ascii (by decide +kernel),
      WellFormed.of_ascii (by decide +kernel), record, hrecord, of_decide_eq_true hlen⟩, trivial⟩
  stopped := by decide +kernel

theorem stopped_complete_oneFile :
    ∃ d, oneFileSession.final.disk (.session oneFileSession.id) = some d ∧ ∀ f, (d.records f).isSome = true := by
  have hcomplete (r : RecordedSession) (hcalls : ∀ i ∈ r.calls, i.1.isStop = false) :
      ∃ d, r.final.disk (.session r.id) = some d ∧ ∀ f, (d.records f).isSome = true := by
    obtain ⟨d, hd, hrecords, -⟩ := stopped_complete r.world r.trigger r.clocks r.startSucceeds r.stopSucceeds r.calls
      r.stoppedAtMs r.fresh r.started hcalls r.stopped
    exact ⟨d, hd, fun f => hrecords f ▸ rfl⟩
  exact hcomplete oneFileSession (by decide)

def oneFileDirectory : Directory := (oneFileSession.final.disk (.session oneFileSession.id)).getD {}

theorem oneFileDirectory_eq {d : Directory} (h : oneFileSession.final.disk (.session oneFileSession.id) = some d) :
    oneFileDirectory = d := by
  unfold oneFileDirectory
  rw [h]
  rfl

def oneFileSystem : FileSystem :=
  .showing (ascii "/r/sessions/1_7_0") (ascii "/r/sessions/1_7_0") oneFileDirectory (ascii "/w") rfl

theorem verify_oneFileSession :
    Logged (Inside oneFileSystem (ascii "/r/sessions/1_7_0"))
      (runVerify oneFileSystem Yaml.ofJson (ascii "/r/sessions/1_7_0")).2 ∧
    (runVerify oneFileSystem Yaml.ofJson (ascii "/r/sessions/1_7_0")).1 = .returned (.ok (agreed 1)) := by
  obtain ⟨hinside, hagrees⟩ := verify_inside_and_agrees Yaml.ofJson
  obtain ⟨d, hd, hagrees⟩ := hagrees readsScalars_ofJson oneFileSession
  obtain rfl := oneFileDirectory_eq hd
  have hrooted : Parts.Rooted { root := true, names := [ascii "r", ascii "sessions", ascii "1_7_0"] } :=
    ⟨rfl, by decide, nofun⟩
  have hshown : Shows oneFileSystem (ascii "/r/sessions/1_7_0") (ascii "/r/sessions/1_7_0") oneFileDirectory :=
    shows_showing (by decide) hrooted (List.cons_ne_nil _ _) rfl rfl
  have hnormal : lexicallyNormal (ascii "/r/sessions/1_7_0") = ascii "/r/sessions/1_7_0" := by decide
  have hpath : divide (ascii "/r/sessions") oneFileSession.id.text = ascii "/r/sessions/1_7_0" := by decide +kernel
  have hrun := hagrees oneFileSystem (ascii "/r/sessions") (ascii "/r/sessions/1_7_0") (ascii "/r/sessions/1_7_0")
  rw [hpath, hnormal] at hrun
  exact ⟨hinside _ _, hrun rfl hshown hshown⟩

def isHealthy : Outcome Bytes (Except Bytes RecordingIntegrityResult) → Bool
  | .returned (.ok result) => result.healthy
  | _ => false

/-- The directory's text has a link in front of two dots. -/
def linkedFileSystem : FileSystem :=
  .showing (ascii "/w/l/../r/1_7_0") (ascii "/a/r/1_7_0") oneFileDirectory (ascii "/w") rfl

/-- **Dots behind a link** lead elsewhere as text, and there the check misses the copy. -/
theorem not_verify_inside_and_agrees_linked :
    ¬ ∀ (Node : Type) (yaml : Yaml Node),
      (∀ (fs : FileSystem) (sessionDirectory : Bytes),
        Logged (Inside fs sessionDirectory) (runVerify fs yaml sessionDirectory).2) ∧
      (ReadsScalars yaml → ∀ r : RecordedSession, ∃ d, r.final.disk (.session r.id) = some d ∧
        ∀ (fs : FileSystem) (sessions canonical : Bytes), Shows fs (divide sessions r.id.text) canonical d →
          (runVerify fs yaml (divide sessions r.id.text)).1 = .returned (.ok (agreed r.dataFiles))) := by
  intro h
  obtain ⟨d, hd, hagrees⟩ := (h Value Yaml.ofJson).2 readsScalars_ofJson oneFileSession
  obtain rfl := oneFileDirectory_eq hd
  have hrooted : Parts.Rooted { root := true, names := [ascii "a", ascii "r", ascii "1_7_0"] } :=
    ⟨rfl, by decide, nofun⟩
  have hshown : Shows linkedFileSystem (ascii "/w/l/../r/1_7_0") (ascii "/a/r/1_7_0") oneFileDirectory :=
    shows_showing (by decide) hrooted (List.cons_ne_nil _ _) rfl rfl
  have hpath : divide (ascii "/w/l/../r") oneFileSession.id.text = ascii "/w/l/../r/1_7_0" := by decide +kernel
  have hrun := hagrees linkedFileSystem (ascii "/w/l/../r") (ascii "/a/r/1_7_0")
  rw [hpath] at hrun
  have hmissed : isHealthy (runVerify linkedFileSystem Yaml.ofJson (ascii "/w/l/../r/1_7_0")).1 = false := by
    decide +kernel
  rw [hrun hshown] at hmissed
  cases hmissed

end Cockpit.Recording
