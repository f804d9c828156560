/-
  The requests to the Navigator (`navigator/connection/ipc_connector.cc`): a client sends a request and a
  newline, and the Navigator reads until it has the newline. How the bytes are cut into reads is up to the
  kernel.
-/
import Cockpit.Navigator.IpcConnector

namespace Cockpit.Navigator

open List

/-! ## The client -/

def kNewline : UInt8 := 10

/-- What `send` answers: the bytes that it took, or `errno`. -/
inductive SendAnswer where
  | interrupted
  | failed (errno : Nat)
  | sent (count : Nat)
  deriving DecidableEq

section Send

variable (strerror : Nat → String)

/-- `write` until everything is sent; `none` when the answers are at an end. -/
def writeAll : List UInt8 → List SendAnswer → List UInt8 × Option (Except String Unit)
  | [], _ => ([], some (.ok ()))
  | _ :: _, [] => ([], none)
  | value, .interrupted :: answers => writeAll value answers
  | _, .failed errno :: _ =>
    ([], some (.error (if errno = EWOULDBLOCK then "timed out writing Unix socket request"
      else "failed to write Unix socket: " ++ strerror errno)))
  | _, .sent 0 :: _ => ([], some (.error "Unix socket closed while writing request"))
  | value, .sent (count + 1) :: answers =>
    let (left, result) := writeAll (value.drop (count + 1)) answers
    (value.take (count + 1) ++ left, result)

/-- The request and its newline. -/
def sendRequest (request : List UInt8) (answers : List SendAnswer) : List UInt8 × Option (Except String Unit) :=
  writeAll strerror (request ++ [kNewline]) answers

end Send

/-! ## The Navigator -/

def kMaximumRequestBytes : Nat := 64 * 1024

def kRequestTooLong : String := "ERROR request exceeds 64 KiB\n"

/-- What happens in one turn of the loop; `read` of no bytes is the end of the stream. -/
inductive ReadTurn where
  | deadlinePassed
  | pollInterrupted
  | pollFailed
  | readInterrupted
  | readFailed
  | read (bytes : List UInt8)
  deriving DecidableEq

/-- What happens before the loop. -/
inductive ClientAnswer where
  | notReady
  | acceptFailed
  | optionFailed
  | accepted
  deriving DecidableEq

/-- What a wait for a request comes to. -/
inductive WaitResult where
  /-- `-1` without a client. -/
  | noClient
  /-- `-1`, and the client is closed without a word. -/
  | closed
  /-- `-1`, and the client is closed with an answer. -/
  | refused (response : String)
  /-- The client, and its request. -/
  | request (request : List UInt8)
  /-- The loop waits for another turn. -/
  | waiting
  deriving DecidableEq

/-- The size is looked at in two places: where the newline stands, and how much has come without one. -/
def readRequest : List UInt8 → List ReadTurn → WaitResult
  | _, [] => .waiting
  | _, .deadlinePassed :: _ => .closed
  | request, .pollInterrupted :: turns => readRequest request turns
  | _, .pollFailed :: _ => .closed
  | request, .readInterrupted :: turns => readRequest request turns
  | _, .readFailed :: _ => .closed
  | request, .read bytes :: turns =>
    if bytes.isEmpty then .closed
    else
      let request := request ++ bytes
      match request.findIdx? (· == kNewline) with
      | some newline =>
        if newline > kMaximumRequestBytes then .refused kRequestTooLong
        else .request (request.take newline)
      | none =>
        if request.length > kMaximumRequestBytes then .refused kRequestTooLong
        else readRequest request turns

/-- One client. -/
def waitForRequest (client : ClientAnswer) (turns : List ReadTurn) : WaitResult :=
  match client with
  | .notReady => .noClient
  | .acceptFailed => .noClient
  | .optionFailed => .closed
  | .accepted => readRequest [] turns

/-! ## What is sent -/

variable {strerror : Nat → String}

theorem writeAll_sends (value : List UInt8) (answers : List SendAnswer) :
    (writeAll strerror value answers).1 <+: value ∧
      ((writeAll strerror value answers).2 = some (.ok ()) → (writeAll strerror value answers).1 = value) := by
  induction value, answers using writeAll.induct strerror with
  | case1 answers => simp [writeAll]
  | case2 byte bytes => exact ⟨List.nil_prefix, fun h => absurd h (by simp [writeAll])⟩
  | case3 value answers hvalue ih => simpa [writeAll] using ih
  | case4 value errno answers hvalue | case5 value answers hvalue =>
    exact ⟨by simp [writeAll], fun h => absurd h (by simp [writeAll])⟩
  | case6 value count answers hvalue left result hsent ih =>
    rw [hsent] at ih
    obtain ⟨⟨others, hstart⟩, hall⟩ := ih
    dsimp only at hstart hall
    have hvalue' : value.take (count + 1) ++ value.drop (count + 1) = value := take_append_drop _ _
    simp only [writeAll, hsent]
    refine ⟨⟨others, ?_⟩, ?_⟩
    · rw [append_assoc, hstart, hvalue']
    · intro h
      rw [hall h, hvalue']

/-! ## One answer for every cutting -/

/-- The stream, as far as it was read. -/
def received : List ReadTurn → List UInt8
  | [] => []
  | .read bytes :: turns => bytes ++ received turns
  | _ :: turns => received turns

/-- The turns bring the text piece by piece, in time and without a failure; what follows does not matter.  A read
    brings at most 1024 bytes, on which nothing depends. -/
inductive Arrives : List ReadTurn → List UInt8 → Prop where
  | done (turns : List ReadTurn) : Arrives turns []
  | pollInterrupted {turns : List ReadTurn} {text : List UInt8} (h : Arrives turns text) :
      Arrives (.pollInterrupted :: turns) text
  | readInterrupted {turns : List ReadTurn} {text : List UInt8} (h : Arrives turns text) :
      Arrives (.readInterrupted :: turns) text
  | read {turns : List ReadTurn} {text : List UInt8} (bytes : List UInt8) (hbytes : 1 ≤ bytes.length)
      (h : Arrives turns text) : Arrives (.read bytes :: turns) (bytes ++ text)

/-- What should become of a request. -/
def verdict (request : List UInt8) : WaitResult :=
  if request.length ≤ kMaximumRequestBytes then .request request else .refused kRequestTooLong

variable {request : List UInt8}

theorem findIdx?_newline_append (h : kNewline ∉ request) :
    (request ++ [kNewline]).findIdx? (· == kNewline) = some request.length := by
  rw [List.findIdx?_eq_some_iff_getElem]
  refine ⟨by simp, by simp, ?_⟩
  intro i hi
  have hmem : request[i] ∈ request := getElem_mem hi
  rw [getElem_append_left hi]
  intro heq
  rw [beq_iff_eq] at heq
  exact h (heq ▸ hmem)

theorem findIdx?_newline_none {text : List UInt8} (h : kNewline ∉ text) : text.findIdx? (· == kNewline) = none := by
  rw [List.findIdx?_eq_none_iff]
  intro byte hbyte
  have hne : byte ≠ kNewline := fun heq => h (heq ▸ hbyte)
  simpa using hne

/-- **Every cutting gives the verdict on the request.** -/
theorem readRequest_arrives {turns : List ReadTurn} {text : List UInt8} (harrives : Arrives turns text)
    {kept : List UInt8} (hreq : kNewline ∉ request) (htext : kept ++ text = request ++ [kNewline])
    (hopen : kept.length ≤ request.length) : readRequest kept turns = verdict request := by
  induction harrives generalizing kept with
  | done turns =>
    -- the newline is still to come
    have hlen := congrArg List.length htext
    simp only [append_nil, length_append, length_singleton] at hlen
    omega
  | pollInterrupted _ ih | readInterrupted _ ih => exact ih htext hopen
  | read bytes hbytes _ ih =>
    rename_i turns text _
    have hempty : bytes.isEmpty = false := by
      cases bytes with
      | nil => exact absurd hbytes (by decide)
      | cons byte bytes => rfl
    rw [← append_assoc] at htext
    have hlen := congrArg List.length htext
    simp only [length_append, length_singleton] at hlen
    rw [readRequest, hempty, if_neg Bool.false_ne_true]
    by_cases hend : text = []
    · rw [hend, append_nil] at htext
      simp only [htext, findIdx?_newline_append hreq, take_left, verdict]
      by_cases hfits : request.length ≤ kMaximumRequestBytes
      · rw [if_pos hfits, if_neg (by omega)]
      · rw [if_neg hfits, if_pos (by omega)]
    · have hpositive := List.length_pos_iff.2 hend
      have hkept : (kept ++ bytes).length = kept.length + bytes.length := length_append
      have hstart : kept ++ bytes <+: request :=
        prefix_of_prefix_length_le ⟨text, htext⟩ (prefix_append _ _) (by omega)
      have hnone : kNewline ∉ kept ++ bytes := fun hmem => hreq (hstart.subset hmem)
      simp only [findIdx?_newline_none hnone]
      by_cases hfits : (kept ++ bytes).length > kMaximumRequestBytes
      · have hlong : ¬ request.length ≤ kMaximumRequestBytes := by
          have := hstart.length_le
          omega
        rw [if_pos hfits, verdict, if_neg hlong]
      · rw [if_neg hfits]
        exact ih htext hstart.length_le

/-! ## Nothing else is a request -/

/-- **A request that is returned came with its newline**, and with nothing in front of it. -/
theorem readRequest_accepted {kept : List UInt8} {turns : List ReadTurn}
    (h : readRequest kept turns = .request request) :
    kNewline ∉ request ∧ request.length ≤ kMaximumRequestBytes ∧
      request ++ [kNewline] <+: kept ++ received turns := by
  induction turns generalizing kept with
  | nil => exact absurd h (by simp [readRequest])
  | cons turn turns ih =>
    cases turn with
    | deadlinePassed => exact absurd h (by simp [readRequest])
    | pollInterrupted => exact ih h
    | pollFailed => exact absurd h (by simp [readRequest])
    | readInterrupted => exact ih h
    | readFailed => exact absurd h (by simp [readRequest])
    | read bytes =>
      rw [readRequest] at h
      split at h
      · exact absurd h (by simp)
      · dsimp only at h
        split at h
        · rename_i newline hfind
          split at h
          · exact absurd h (by simp)
          · rename_i hfits
            cases h
            obtain ⟨hlt, hnewline, hfirst⟩ := List.findIdx?_eq_some_iff_getElem.1 hfind
            rw [beq_iff_eq] at hnewline
            refine ⟨?_, ?_, ?_⟩
            · intro hmem
              obtain ⟨i, hi, hget⟩ := getElem_of_mem hmem
              rw [length_take] at hi
              rw [getElem_take] at hget
              exact hfirst i (by omega) (by rw [hget]; decide)
            · rw [length_take]
              omega
            · have hsplit : (kept ++ bytes).take newline ++ [kNewline] = (kept ++ bytes).take (newline + 1) := by
                rw [take_add_one, List.getElem?_eq_getElem hlt, hnewline]
                rfl
              rw [hsplit, received, ← append_assoc]
              exact (List.take_prefix _ _).trans (prefix_append _ _)
        · split at h
          · exact absurd h (by simp)
          · obtain ⟨hreq, hfits, hstart⟩ := ih h
            rw [append_assoc] at hstart
            exact ⟨hreq, hfits, hstart⟩

/-- **Request framing.**  Every cutting of a request and its newline gives the verdict on the request; nothing is
    returned that did not come with a newline behind it; and what a client sends is a request and its newline, or a
    part of it without the newline. -/
theorem request_framing (strerror : Nat → String) :
    (∀ (request : List UInt8) (turns : List ReadTurn), kNewline ∉ request →
      Arrives turns (request ++ [kNewline]) →
      waitForRequest .accepted turns =
        if request.length ≤ 65536 then .request request
        else .refused "ERROR request exceeds 64 KiB\n") ∧
    (∀ (request : List UInt8) (turns turns' : List ReadTurn), kNewline ∉ request →
      Arrives turns (request ++ [kNewline]) → Arrives turns' (request ++ [kNewline]) →
      waitForRequest .accepted turns = waitForRequest .accepted turns') ∧
    (∀ (client : ClientAnswer) (turns : List ReadTurn) (request : List UInt8),
      waitForRequest client turns = .request request →
      request.length ≤ 65536 ∧ kNewline ∉ request ∧ request ++ [kNewline] <+: received turns) ∧
    (∀ (client : ClientAnswer) (turns : List ReadTurn), kNewline ∉ received turns →
      ∀ request, waitForRequest client turns ≠ .request request) ∧
    (∀ (request : List UInt8) (answers : List SendAnswer),
      (sendRequest strerror request answers).1 <+: request ++ [kNewline] ∧
      ((sendRequest strerror request answers).2 = some (.ok ()) →
        (sendRequest strerror request answers).1 = request ++ [kNewline])) := by
  have hverdict : ∀ (request : List UInt8) (turns : List ReadTurn), kNewline ∉ request →
      Arrives turns (request ++ [kNewline]) → waitForRequest .accepted turns = verdict request := by
    intro request turns hreq harrives
    exact readRequest_arrives harrives hreq rfl (Nat.zero_le _)
  have hacc : ∀ (client : ClientAnswer) (turns : List ReadTurn) (request : List UInt8),
      waitForRequest client turns = .request request →
      request.length ≤ 65536 ∧ kNewline ∉ request ∧ request ++ [kNewline] <+: received turns := by
    intro client turns request h
    cases client with
    | notReady | acceptFailed | optionFailed => exact absurd h (by simp [waitForRequest])
    | accepted =>
      obtain ⟨hreq, hfits, hstart⟩ := readRequest_accepted h
      exact ⟨hfits, hreq, hstart⟩
  refine ⟨hverdict, ?_, hacc, ?_, ?_⟩
  · intro request turns turns' hreq harrives harrives'
    rw [hverdict request turns hreq harrives, hverdict request turns' hreq harrives']
  · intro client turns hnone request h
    obtain ⟨-, -, hstart⟩ := hacc client turns request h
    exact hnone (hstart.subset (by simp))
  · intro request answers
    exact writeAll_sends _ _

theorem request_framing_go :
    waitForRequest .accepted [.read [103], .pollInterrupted, .read [111], .read [10]] = .request [103, 111] := by
  have harrives : Arrives [.read [103], .pollInterrupted, .read [111], .read [10]] ([103, 111] ++ [kNewline]) :=
    .read [103] (by decide) (.pollInterrupted (.read [111] (by decide) (.read [10] (by decide) (.done []))))
  rw [(request_framing toString).1 [103, 111] _ (by decide) harrives]
  rfl

end Cockpit.Navigator
