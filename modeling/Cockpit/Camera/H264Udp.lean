/-
  `H264UdpPublisher`: encoded packets as numbered UDP fragments, cut into chunks of `mtu - 24` bytes.
-/
import Cockpit.Lib.NetworkOrder

namespace Cockpit.Camera

open NetworkOrder List

/-- `EncodedPacket`. -/
structure H264Packet where
  data : List UInt8
  pts : Int64 := 0
  keyframe : Bool := false
  deriving DecidableEq

structure H264UdpPublisherConfig where
  host : String := "127.0.0.1"
  port : UInt16 := 8556
  mtu : Nat := 1200

/-! ## The header -/

def kUdpMagic : UInt32 := 0x43525031

def kUdpHeaderSize : Nat := 24

def put16 (value : UInt16) : List UInt8 := put 2 value.toNat

def put32 (value : UInt32) : List UInt8 := put 4 value.toNat

def put64 (value : Int64) : List UInt8 := put 8 value.toUInt64.toNat

/-- How many chunks a packet is cut into. -/
def fragmentCount (payload size : Nat) : Nat := (size + payload - 1) / payload

/-- One of them. -/
def chunk (payload : Nat) (data : List UInt8) (index : Nat) : List UInt8 :=
  (data.drop (index * payload)).take payload

variable {payload : Nat}

variable {index : Nat}

theorem pos_of_lt_fragmentCount {size : Nat} (h : index < fragmentCount payload size) : 0 < payload := by
  cases payload with
  | zero =>
    rw [fragmentCount, Nat.div_zero] at h
    omega
  | succ n => omega

theorem lt_of_lt_fragmentCount {size : Nat} (h : index < fragmentCount payload size) : index * payload < size := by
  have hpayload := pos_of_lt_fragmentCount h
  rw [fragmentCount, Nat.lt_iff_add_one_le, Nat.le_div_iff_mul_le hpayload, Nat.add_one_mul] at h
  omega

theorem le_fragmentCount_mul (h : 0 < payload) (size : Nat) : size ≤ fragmentCount payload size * payload := by
  have hdiv := Nat.lt_div_mul_add h (a := size + payload - 1)
  rw [fragmentCount]
  omega

theorem chunk_ne_nil {data : List UInt8} (h : index < fragmentCount payload data.length) :
    chunk payload data index ≠ [] := by
  have hlt := lt_of_lt_fragmentCount h
  have hpayload := pos_of_lt_fragmentCount h
  have hlen : 0 < (chunk payload data index).length := by
    rw [chunk, length_take, length_drop]
    omega
  exact ne_nil_of_length_pos hlen

theorem length_chunk_le (payload : Nat) (data : List UInt8) (index : Nat) :
    (chunk payload data index).length ≤ payload := by
  rw [chunk, length_take]
  omega

theorem flatten_chunks (payload : Nat) (data : List UInt8) (count : Nat) :
    ((List.range count).map (chunk payload data)).flatten = data.take (count * payload) := by
  induction count with
  | zero => rw [Nat.zero_mul, take_zero]; rfl
  | succ count ih =>
    rw [range_succ, map_append, flatten_append, ih, Nat.add_one_mul, take_add]
    simp [chunk]

theorem flatten_all_chunks (h : 0 < payload) (data : List UInt8) :
    ((List.range (fragmentCount payload data.length)).map (chunk payload data)).flatten = data := by
  rw [flatten_chunks]
  exact take_of_length_le (le_fragmentCount_mul h data.length)

/-- It names the packet by its frame id, gives the chunk's place and their number, and repeats the packet's pts
    and keyframe flag. -/
def header (frame : UInt32) (index total : Nat) (packet : H264Packet) : List UInt8 :=
  put32 kUdpMagic ++ (put32 frame ++ (put16 (UInt16.ofNat index) ++ (put16 (UInt16.ofNat total) ++
    (put64 packet.pts ++ put32 (if packet.keyframe then 1 else 0)))))

/-- One chunk behind its header. -/
def fragmentDatagram (payload : Nat) (frame : UInt32) (packet : H264Packet) (index : Nat) : List UInt8 :=
  header frame index (fragmentCount payload packet.data.length) packet ++
    chunk payload packet.data index

/-! ## The publisher -/

structure H264UdpPublisher where
  isOpen : Bool := false
  mtu : Nat := 0
  frameId : UInt32 := 0

namespace H264UdpPublisher

def close (publisher : H264UdpPublisher) : H264UdpPublisher := { publisher with isOpen := false }

/-- The frame id starts at 0 again. -/
def open_ (publisher : H264UdpPublisher) (config : H264UdpPublisherConfig)
    (resolved created : Bool) : H264UdpPublisher × Except String Unit :=
  if config.host = "" || config.port = 0 || (config.mtu ≠ 0 && config.mtu ≤ kUdpHeaderSize + 1) then
    (publisher.close, .error "invalid H264 UDP publisher configuration")
  else if !resolved then
    (publisher.close, .error ("resolve H264 UDP host failed: " ++ config.host))
  else if !created then (publisher.close, .error "create H264 UDP socket failed")
  else ({ isOpen := true, mtu := config.mtu, frameId := 0 }, .ok ())

/-- Send until one fails. -/
def sendAll (datagrams : List (List UInt8)) (failsAt : Option Nat) (error : String) :
    List (List UInt8) × Except String Unit :=
  match failsAt with
  | some k => if k < datagrams.length then (datagrams.take k, .error error) else (datagrams, .ok ())
  | none => (datagrams, .ok ())

/-- All fragments of one packet. -/
def publish (publisher : H264UdpPublisher) (packet : H264Packet) (failsAt : Option Nat) :
    H264UdpPublisher × List (List UInt8) × Except String Unit :=
  if !publisher.isOpen || packet.data = [] then
    (publisher, [], .error "H264 UDP publisher is not open or packet is empty")
  else if publisher.mtu = 0 then
    (publisher, sendAll [packet.data] failsAt "send H264 UDP packet failed")
  else
    let payload := publisher.mtu - kUdpHeaderSize
    let fragments := fragmentCount payload packet.data.length
    if 65535 < fragments then
      (publisher, [], .error "H264 packet is too large for UDP fragmentation")
    else
      ({ publisher with frameId := publisher.frameId + 1 },
        sendAll ((List.range fragments).map (fragmentDatagram payload publisher.frameId packet))
          failsAt "send H264 UDP fragment failed")

end H264UdpPublisher

end Cockpit.Camera
