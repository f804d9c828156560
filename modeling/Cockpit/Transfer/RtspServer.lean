/-
  `RtspServer`: from the fragments of the camera's publisher to the medias of the RTSP clients.
-/
import Cockpit.Camera.H264Udp

namespace Cockpit.Transfer

open Cockpit.Camera NetworkOrder

/-! ## `Receive` -/

def kMagic : UInt32 := 0x43525031

def kHeaderSize : Nat := 24

def get16 (bytes : List UInt8) (start : Nat) : UInt16 := UInt16.ofNat (field bytes start 2)

def get32 (bytes : List UInt8) (start : Nat) : UInt32 := UInt32.ofNat (field bytes start 4)

def get64 (bytes : List UInt8) (start : Nat) : Int64 := (UInt64.ofNat (field bytes start 8)).toInt64

/-- What `Receive` keeps between two datagrams.  `keyframe` is a local variable of it, the rest are
    members of the server. -/
structure Reassembly where
  frameId : UInt32 := 0
  expectedFragments : UInt16 := 0
  fragments : List (List UInt8) := []
  pts : Int64 := 0
  keyframe : Bool := false

namespace Reassembly

variable (r : Reassembly)

/-- The datagram is taken to belong to the packet at hand. -/
def continues (datagram : List UInt8) : Bool :=
  get32 datagram 4 = r.frameId && get16 datagram 10 = r.expectedFragments

/-- The reassembly of the packet that the datagram names. -/
def begin_ (datagram : List UInt8) : Reassembly :=
  { frameId := get32 datagram 4
    expectedFragments := get16 datagram 10
    fragments := List.replicate (get16 datagram 10).toNat []
    pts := get64 datagram 12
    keyframe := get32 datagram 20 ≠ 0 }

/-- Put a fragment at its place. -/
def take (datagram : List UInt8) : Reassembly :=
  { r with fragments := r.fragments.set (get16 datagram 8).toNat (datagram.drop kHeaderSize) }

/-- The packet for `Push`, once there is a fragment in every place. -/
def finish : Reassembly × Option H264Packet :=
  if r.fragments.any (· = []) then (r, none)
  else ({ r with expectedFragments := 0 },
    some { data := r.fragments.flatten, pts := r.pts, keyframe := r.keyframe })

/-- One pass of the loop of `Receive`; the buffer of `recv` has 65536 bytes. -/
def receive (sent : List UInt8) : Reassembly × Option H264Packet :=
  let datagram := sent.take 65536
  if datagram.length < kHeaderSize || get32 datagram 0 ≠ kMagic then (r, none)
  else if get16 datagram 10 = 0 || get16 datagram 8 ≥ get16 datagram 10 then (r, none)
  else if r.continues datagram then (r.take datagram).finish
  else ((begin_ datagram).take datagram).finish

/-- `Stop`, `Start`: the new thread of `Receive` has a new local variable, and the members as they
    were. -/
def restart : Reassembly := { r with keyframe := false }

end Reassembly

/-! ## `Avcc` -/

/-- The start codes of an Annex B stream: where each begins and ends. -/
def startCodes : Nat → List UInt8 → List (Nat × Nat)
  | i, a :: b :: c :: d :: rest =>
    if a = 0 && b = 0 && c = 1 then (i, i + 3) :: startCodes (i + 3) (d :: rest)
    else if a = 0 && b = 0 && c = 0 && d = 1 then (i, i + 4) :: startCodes (i + 4) rest
    else startCodes (i + 1) (b :: c :: d :: rest)
  | _, _ => []

/-- The NAL units between the start codes; data without any is one unit. -/
def nals (data : List UInt8) : List (List UInt8) :=
  match startCodes 0 data with
  | [] => if data = [] then [] else [data]
  | starts =>
    (starts.zip (starts.tail.map (·.1) ++ [data.length])).filterMap fun ((_, first), last) =>
      if first < last then some ((data.take last).drop first) else none

/-- Each unit behind its length instead of a start code. -/
def avcc (data : List UInt8) : List UInt8 :=
  (nals data).flatMap fun nal => put 4 nal.length ++ nal

/-! ## The medias -/

/-- `GST_SECOND`. -/
def kSecond : Nat := 1000000000

/-- `gst_util_uint64_scale`. -/
def scale (value num denom : Nat) : Nat := min (value * num / denom) (2 ^ 64 - 1)

/-- What the appsrc is given. -/
structure MediaBuffer where
  data : List UInt8
  pts : Nat
  duration : Nat

/-- A buffer in an appsrc, with the number of the packet (among those that `Push` received) that it
    was made of. -/
structure Sample where
  number : Nat
  buffer : MediaBuffer

/-- The server from `Push` on.  `appsrc` names one of the appsrcs of the medias so far, `received` and
    `pendingNumber` only count. -/
structure Medias where
  fps : UInt32 := 30
  appsrc : Option Nat := none
  sources : List (List Sample) := []
  pendingPacket : List UInt8 := []
  pendingPts : Int := 0
  pendingKeyframe : Bool := false
  haveInputPts : Bool := false
  inputPtsOrigin : Int := 0
  lastInputPts : Int := 0
  received : List H264Packet := []
  pendingNumber : Nat := 0

namespace Medias

variable (s : Medias)

def buffer (data : List UInt8) (pts : Int) : MediaBuffer :=
  { data := avcc data
    pts := scale pts.toNat kSecond s.fps.toNat
    duration := scale kSecond 1 s.fps.toNat }

/-- Timestamps count from the first packet, and again from a keyframe that goes back in time. -/
def rebase (packet : H264Packet) : Medias :=
  { s with
    inputPtsOrigin :=
      if !s.haveInputPts || (packet.keyframe && packet.pts.toInt < s.lastInputPts) then
        packet.pts.toInt
      else s.inputPtsOrigin
    haveInputPts := true
    lastInputPts := packet.pts.toInt }

/-- To the client's media, if there is one; while there is none, the last keyframe is kept for the next. -/
def push (packet : H264Packet) : Medias :=
  if packet.data = [] then s
  else
    let s' := { s.rebase packet with received := s.received ++ [packet] }
    let pts := max 0 (packet.pts.toInt - s'.inputPtsOrigin)
    match s.appsrc with
    | none =>
      if packet.keyframe then
        { s' with pendingPacket := packet.data, pendingPts := pts, pendingKeyframe := true
                  pendingNumber := s.received.length }
      else s'
    | some appsrc =>
      let sample := { number := s.received.length, buffer := s.buffer packet.data pts }
      { s' with sources := s.sources.modify appsrc (· ++ [sample]) }

/-- `source`: the media has an element of that name, a new appsrc. -/
def mediaConfigure (source : Bool) : Medias :=
  if !source then { s with appsrc := none }
  else if s.pendingPacket ≠ [] && s.pendingKeyframe then
    { s with
      appsrc := some s.sources.length
      sources := s.sources ++
        [[{ number := s.pendingNumber, buffer := s.buffer s.pendingPacket s.pendingPts }]]
      pendingPacket := []
      pendingKeyframe := false }
  else { s with appsrc := some s.sources.length, sources := s.sources ++ [[]] }

/-- `source`: the appsrc of the media, if it is found. -/
def mediaUnprepared (source : Option Nat) : Medias :=
  if s.appsrc ≠ none && (source = none || source = s.appsrc) then { s with appsrc := none } else s

end Medias

end Cockpit.Transfer
