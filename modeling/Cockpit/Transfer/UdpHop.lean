/-
  The hop from the camera's publisher to the server's receiver: datagrams go over the loopback in order, and any
  of them may be lost. It is intact along the runs in which no datagram is put to fragments of an earlier
  lifetime of the publisher, nor to a keyframe's fragments from before a restart.
-/
import Cockpit.Lib.StepRun
import Cockpit.Lib.ListUpdate
import Cockpit.Transfer.RtspServer

namespace Cockpit.Transfer

open Cockpit.Camera NetworkOrder StepRun ListUpdate List Option

/-! ## The wire format -/

variable {start : Nat}

theorem get16_append (before : List UInt8) (value : UInt16) (after : List UInt8) (h : before.length = start) :
    get16 (before ++ (put16 value ++ after)) start = value := by
  rw [get16, put16, field_append value.toNat_lt h, UInt16.ofNat_toNat]

theorem get32_append (before : List UInt8) (value : UInt32) (after : List UInt8) (h : before.length = start) :
    get32 (before ++ (put32 value ++ after)) start = value := by
  rw [get32, put32, field_append value.toNat_lt h, UInt32.ofNat_toNat]

theorem get64_append (before : List UInt8) (value : Int64) (after : List UInt8) (h : before.length = start) :
    get64 (before ++ (put64 value ++ after)) start = value := by
  rw [get64, put64, field_append value.toUInt64.toNat_lt h, UInt64.ofNat_toNat, Int64.toInt64_toUInt64]

@[simp] theorem length_put16 (value : UInt16) : (put16 value).length = 2 := length_put ..

@[simp] theorem length_put32 (value : UInt32) : (put32 value).length = 4 := length_put ..

@[simp] theorem length_put64 (value : Int64) : (put64 value).length = 8 := length_put ..

theorem length_header (frame : UInt32) (index total : Nat) (packet : H264Packet) :
    (header frame index total packet).length = kHeaderSize := by
  simp [header, kHeaderSize]

section Header

variable (frame : UInt32) (index total : Nat) (packet : H264Packet) (payload : List UInt8)

theorem get_magic : get32 (header frame index total packet ++ payload) 0 = kMagic := by
  rw [header, append_assoc]
  exact get32_append [] kUdpMagic _ rfl

theorem get_frame : get32 (header frame index total packet ++ payload) 4 = frame := by
  rw [header, append_assoc, append_assoc]
  exact get32_append (put32 kUdpMagic) frame _ (length_put32 _)

theorem get_index : get16 (header frame index total packet ++ payload) 8 = UInt16.ofNat index := by
  have h : (put32 kUdpMagic ++ put32 frame).length = 8 := by simp
  simpa only [header, append_assoc] using get16_append _ (UInt16.ofNat index)
    (put16 (UInt16.ofNat total) ++ (put64 packet.pts ++
      (put32 (if packet.keyframe then 1 else 0) ++ payload))) h

theorem get_total : get16 (header frame index total packet ++ payload) 10 = UInt16.ofNat total := by
  have h : (put32 kUdpMagic ++ (put32 frame ++ put16 (UInt16.ofNat index))).length = 10 := by simp
  simpa only [header, append_assoc] using get16_append _ (UInt16.ofNat total)
    (put64 packet.pts ++ (put32 (if packet.keyframe then 1 else 0) ++ payload)) h

theorem get_pts : get64 (header frame index total packet ++ payload) 12 = packet.pts := by
  have h : (put32 kUdpMagic ++ (put32 frame ++ (put16 (UInt16.ofNat index) ++
      put16 (UInt16.ofNat total)))).length = 12 := by simp
  simpa only [header, append_assoc] using get64_append _ packet.pts
    (put32 (if packet.keyframe then 1 else 0) ++ payload) h

theorem get_keyframe : get32 (header frame index total packet ++ payload) 20 ≠ 0 ↔ packet.keyframe := by
  have h : (put32 kUdpMagic ++ (put32 frame ++ (put16 (UInt16.ofNat index) ++
      (put16 (UInt16.ofNat total) ++ put64 packet.pts)))).length = 20 := by simp
  have hget : get32 (header frame index total packet ++ payload) 20
      = if packet.keyframe then 1 else 0 := by
    simpa only [header, append_assoc] using get32_append _ (if packet.keyframe then 1 else 0)
      payload h
  rw [hget]
  cases packet.keyframe <;> simp

end Header

/-! ## The hop -/

/-- A datagram on the wire.  The two numbers are no part of it: they say which chunk of which
    publication it carries. -/
structure Datagram where
  bytes : List UInt8
  publication : Nat
  index : Nat

/-- A packet that was accepted for publication, in the lifetime of the publisher that it falls in, and
    which of its chunks have arrived. -/
structure Publication where
  lifetime : Nat
  frameId : UInt32
  mtu : Nat
  packet : H264Packet
  arrived : List Nat := []

namespace Publication

/-- How many datagrams it is sent as. -/
def fragments (p : Publication) : Nat :=
  if p.mtu = 0 then 1 else fragmentCount (p.mtu - kUdpHeaderSize) p.packet.data.length

/-- All of its datagrams have arrived. -/
def delivered (p : Publication) : Bool := (List.range p.fragments).all (· ∈ p.arrived)

def receive (p : Publication) (index : Nat) : Publication := { p with arrived := index :: p.arrived }

end Publication

/-- Both ends, the datagrams under way, and every publication with what has arrived of it. -/
structure Hop where
  publisher : H264UdpPublisher := {}
  receiver : Reassembly := {}
  wire : List Datagram := []
  /-- The lifetimes of the publisher so far, and the calls of `Publish` in the current one. -/
  lifetimes : Nat := 0
  calls : Nat := 0
  published : List Publication := []
  /-- The publication whose datagram began the reassembly, and if the receiver restarted since. -/
  origin : Nat := 0
  restarted : Bool := false

/-- What happens: a call of the publisher (with the answers of the system), the datagram in front is
    lost or comes to the receiver, the receiver is stopped and started. -/
inductive Event where
  | open_ (config : H264UdpPublisherConfig) (resolved created : Bool)
  | publish (packet : H264Packet) (failsAt : Option Nat)
  | close
  | lose
  | deliver
  | restart

namespace Hop

/-- A packet is accepted for publication. -/
def accepts (s : Hop) (packet : H264Packet) : Bool :=
  s.publisher.isOpen && packet.data ≠ [] &&
    (s.publisher.mtu = 0 ||
      fragmentCount (s.publisher.mtu - kUdpHeaderSize) packet.data.length ≤ 65535)

def open_ (s : Hop) (config : H264UdpPublisherConfig) (resolved created : Bool) : Hop :=
  { s with
    publisher := (s.publisher.open_ config resolved created).1
    lifetimes := s.lifetimes + 1
    calls := 0 }

def publish (s : Hop) (packet : H264Packet) (failsAt : Option Nat) : Hop :=
  let (publisher, sent, _) := s.publisher.publish packet failsAt
  { s with
    publisher := publisher
    wire := s.wire ++ sent.zipIdx.map fun (bytes, index) =>
      { bytes := bytes, publication := s.published.length, index := index }
    calls := s.calls + 1
    published :=
      if s.accepts packet then
        s.published ++ [{ lifetime := s.lifetimes, frameId := s.publisher.frameId
                          mtu := s.publisher.mtu, packet := packet }]
      else s.published }

/-- The receiver takes the datagram `d`. -/
def receive (s : Hop) (d : Datagram) : Hop × Option H264Packet :=
  let (receiver, pushed) := s.receiver.receive d.bytes
  ({ s with
      receiver := receiver
      published := s.published.modify d.publication (·.receive d.index)
      origin := if s.receiver.continues d.bytes then s.origin else d.publication
      restarted := s.restarted && s.receiver.continues d.bytes }, pushed)

def step (s : Hop) : Event → Hop × Option H264Packet
  | .open_ config resolved created => (s.open_ config resolved created, none)
  | .publish packet failsAt => (s.publish packet failsAt, none)
  | .close => ({ s with publisher := s.publisher.close }, none)
  | .lose => ({ s with wire := s.wire.tail }, none)
  | .deliver =>
    match s.wire with
    | [] => (s, none)
    | d :: wire => { s with wire := wire }.receive d
  | .restart => ({ s with receiver := s.receiver.restart, restarted := true }, none)

/-- The packets that the receiver handed to `Push`. -/
def handed (history : List (Event × Option H264Packet)) : List H264Packet := history.filterMap (·.2)

theorem handed_snoc (history : List (Event × Option H264Packet)) (event : Event) (packet : Option H264Packet) :
    handed (history ++ [(event, packet)]) = handed history ++ packet.toList := by
  rw [handed, filterMap_append]
  cases packet <;> rfl

/-- The packets that the receiver handed on, in order. -/
def pushed (s : Hop) (events : List Event) : List H264Packet := handed (trace step s events)

/-- The datagram in front would be put to fragments that it does not go with: those of an earlier
    lifetime of the publisher; or, for a keyframe, those from before a restart of the receiver. -/
def mixes (s : Hop) : Event → Bool
  | .deliver =>
    s.wire.head?.any fun d =>
      s.receiver.continues d.bytes &&
        ((s.published[s.origin]?.map (·.lifetime)) ≠ (s.published[d.publication]?.map (·.lifetime))
          || (s.restarted && s.published[d.publication]?.any (·.packet.keyframe)))
  | _ => false

/-- The mtu of an opened publisher is in range, and a lifetime has fewer than 2^32 calls. -/
def InRange (s : Hop) : Event → Prop
  | .open_ config _ _ => 26 ≤ config.mtu ∧ config.mtu ≤ 65507
  | .publish _ _ => s.calls + 1 < 2 ^ 32
  | _ => True

instance (s : Hop) (event : Event) : Decidable (s.InRange event) :=
  match event with
  | .open_ config _ _ => inferInstanceAs (Decidable (26 ≤ config.mtu ∧ config.mtu ≤ 65507))
  | .publish _ _ => inferInstanceAs (Decidable (s.calls + 1 < 2 ^ 32))
  | .close | .lose | .deliver | .restart => isTrue trivial

end Hop

/-! ## One publication at the receiver -/

namespace Publication

/-- What the publisher makes sure of. -/
structure Sound (p : Publication) : Prop where
  mtu : 26 ≤ p.mtu ∧ p.mtu ≤ 65507
  data : p.packet.data ≠ []
  fragments : p.fragments ≤ 65535

def payload (p : Publication) : Nat := p.mtu - kUdpHeaderSize

def datagram (p : Publication) (index : Nat) : List UInt8 :=
  fragmentDatagram p.payload p.frameId p.packet index

/-- The chunk, if its datagram has arrived. -/
def place (p : Publication) (index : Nat) : List UInt8 :=
  if index ∈ p.arrived then chunk p.payload p.packet.data index else []

/-- The receiver with what has arrived of the publication, and nothing else. -/
def reassembly (p : Publication) (restarted : Bool) : Reassembly :=
  { frameId := p.frameId
    expectedFragments := UInt16.ofNat p.fragments
    fragments := (List.range p.fragments).map p.place
    pts := p.packet.pts
    keyframe := p.packet.keyframe && !restarted }

variable {p : Publication} {index : Nat}

/-- A publication is delivered when each of its fragments has arrived. -/
theorem delivered_iff : p.delivered ↔ ∀ index < p.fragments, index ∈ p.arrived := by
  simp [delivered]

theorem not_delivered (h : index < p.fragments) (harrived : index ∉ p.arrived) : p.delivered = false := by
  rw [Bool.eq_false_iff]
  intro hdelivered
  exact harrived (delivered_iff.1 hdelivered index h)

namespace Sound

variable (h : p.Sound)
include h

theorem payload_pos : 0 < p.payload := by
  have := h.mtu
  rw [payload, kUdpHeaderSize]
  omega

theorem fragments_eq : p.fragments = fragmentCount p.payload p.packet.data.length := by
  have := h.mtu
  rw [Publication.fragments, if_neg (by omega)]
  rfl

theorem fragments_pos : 0 < p.fragments := by
  have hlen := length_pos_iff.2 h.data
  have hle := le_fragmentCount_mul h.payload_pos p.packet.data.length
  rw [← h.fragments_eq] at hle
  rcases Nat.eq_zero_or_pos p.fragments with hzero | hpos
  · rw [hzero, Nat.zero_mul] at hle
    omega
  · exact hpos

theorem toNat_fragments : (UInt16.ofNat p.fragments).toNat = p.fragments := by
  have := h.fragments
  exact UInt16.toNat_ofNat_of_lt' (show p.fragments < 65536 by omega)

theorem ofNat_fragments_ne_zero : UInt16.ofNat p.fragments ≠ 0 := by
  intro hzero
  have hnat := h.toNat_fragments
  rw [hzero] at hnat
  exact absurd hnat.symm (Nat.pos_iff_ne_zero.1 h.fragments_pos)

theorem not_delivered_of_nil (hnil : p.arrived = []) : p.delivered = false :=
  not_delivered h.fragments_pos (by simp [hnil])

theorem datagram_eq (index : Nat) :
    p.datagram index = header p.frameId index p.fragments p.packet ++ chunk p.payload p.packet.data index := by
  rw [datagram, fragmentDatagram, ← h.fragments_eq]

theorem length_datagram (index : Nat) :
    kHeaderSize ≤ (p.datagram index).length ∧ (p.datagram index).length ≤ 65536 := by
  have hchunk := length_chunk_le p.payload p.packet.data index
  have hmtu := h.mtu
  rw [payload, kUdpHeaderSize] at hchunk
  rw [h.datagram_eq, length_append, length_header, kHeaderSize, payload, kUdpHeaderSize]
  omega

theorem drop_datagram (index : Nat) : (p.datagram index).drop kHeaderSize = chunk p.payload p.packet.data index := by
  rw [h.datagram_eq]
  exact drop_left' (length_header ..)

/-- A datagram continues a packet by frame id and number of fragments alone. -/
theorem continues_iff (r : Reassembly) (index : Nat) :
    r.continues (p.datagram index) ↔
      p.frameId = r.frameId ∧ UInt16.ofNat p.fragments = r.expectedFragments := by
  rw [h.datagram_eq, Reassembly.continues, get_frame, get_total, Bool.and_eq_true,
    decide_eq_true_eq, decide_eq_true_eq]

theorem begin_datagram (index : Nat) (hnil : p.arrived = []) :
    Reassembly.begin_ (p.datagram index) = p.reassembly false := by
  have hplace : p.place = fun _ => [] := by
    funext i
    simp [place, hnil]
  have hkey : decide (get32 (p.datagram index) 20 ≠ 0) = p.packet.keyframe := by
    rw [h.datagram_eq, Bool.eq_iff_iff, decide_eq_true_eq]
    exact get_keyframe ..
  rw [Reassembly.begin_, hkey, reassembly, hplace, h.datagram_eq, get_frame, get_total, get_pts,
    h.toNat_fragments, List.map_const', List.length_range, Bool.not_false, Bool.and_true]

theorem take_datagram (hindex : index < p.fragments) (restarted : Bool) :
    (p.reassembly restarted).take (p.datagram index) = (p.receive index).reassembly restarted := by
  have hfragments := h.fragments
  have hget : (get16 (p.datagram index) 8).toNat = index := by
    rw [h.datagram_eq, get_index]
    exact UInt16.toNat_ofNat_of_lt' (show index < 65536 by omega)
  have hset : ((List.range p.fragments).map p.place).set index
      (chunk p.payload p.packet.data index) = (List.range p.fragments).map (p.receive index).place := by
    apply ext_getElem
    · simp
    · intro i hi hi'
      rw [getElem_set, getElem_map, getElem_map, getElem_range]
      by_cases heq : index = i
      · subst heq
        simp [place, Publication.receive, payload]
      · simp [place, Publication.receive, payload, heq, Ne.symm heq]
  rw [Reassembly.take, hget, h.drop_datagram, reassembly, hset]
  rfl

theorem finish_reassembly (restarted : Bool) :
    (p.reassembly restarted).finish =
      if p.delivered then
        ({ p.reassembly restarted with expectedFragments := 0 },
          some { p.packet with keyframe := p.packet.keyframe && !restarted })
      else (p.reassembly restarted, none) := by
  have hplace : ∀ i < p.fragments, (p.place i = [] ↔ i ∉ p.arrived) := by
    intro i hi
    rw [h.fragments_eq] at hi
    by_cases harrived : i ∈ p.arrived
    · simp [place, harrived, chunk_ne_nil hi]
    · simp [place, harrived]
  have hany : (p.reassembly restarted).fragments.any (· = []) = false ↔ p.delivered := by
    rw [List.any_eq_false, delivered_iff, reassembly]
    constructor
    · intro hall i hi
      have hne := hall (p.place i) (mem_map_of_mem (mem_range.2 hi))
      simpa [hplace i hi] using hne
    · intro hall x hx
      obtain ⟨i, hi, rfl⟩ := mem_map.1 hx
      have hi := mem_range.1 hi
      simpa [hplace i hi] using hall i hi
  rw [Reassembly.finish]
  cases hdelivered : p.delivered
  · rw [hdelivered, Bool.eq_false_iff, ne_eq] at hany
    have hmissing : (p.reassembly restarted).fragments.any (· = []) = true := by
      simpa using hany
    rw [if_pos hmissing, if_neg (by decide)]
  · have hall := delivered_iff.1 hdelivered
    have hdata : (p.reassembly restarted).fragments.flatten = p.packet.data := by
      have hplaces : (List.range p.fragments).map p.place =
          (List.range p.fragments).map (chunk p.payload p.packet.data) := by
        refine map_congr_left fun i hi => ?_
        rw [place, if_pos (hall i (mem_range.1 hi))]
      rw [reassembly, hplaces, h.fragments_eq, flatten_all_chunks h.payload_pos]
    rw [if_neg (by simp [hany.2 hdelivered]), if_pos rfl, hdata]
    rfl

theorem receive_datagram (hindex : index < p.fragments) (r : Reassembly) :
    r.receive (p.datagram index) =
      ((if r.continues (p.datagram index) then r else Reassembly.begin_ (p.datagram index)).take
        (p.datagram index)).finish := by
  have hfragments := h.fragments
  obtain ⟨hheader, hbuffer⟩ := h.length_datagram index
  have hmagic : get32 (p.datagram index) 0 = kMagic := by rw [h.datagram_eq, get_magic]
  have htotal : get16 (p.datagram index) 10 = UInt16.ofNat p.fragments := by
    rw [h.datagram_eq, get_total]
  have hplace : get16 (p.datagram index) 8 < get16 (p.datagram index) 10 := by
    rw [htotal, h.datagram_eq, get_index, UInt16.lt_iff_toNat_lt, h.toNat_fragments,
      UInt16.toNat_ofNat_of_lt' (show index < 65536 by omega)]
    exact hindex
  have hvalid : ¬(get16 (p.datagram index) 10 = 0 || get16 (p.datagram index) 8
      ≥ get16 (p.datagram index) 10) = true := by
    rw [Bool.or_eq_true, decide_eq_true_eq, decide_eq_true_eq]
    intro hinvalid
    rcases hinvalid with hzero | hge
    · exact h.ofNat_fragments_ne_zero (htotal.symm.trans hzero)
    · exact UInt16.not_le.2 hplace hge
  simp only [Reassembly.receive]
  rw [take_of_length_le hbuffer, if_neg (by simp [hmagic, Nat.not_lt.2 hheader]),
    if_neg hvalid]
  split <;> rfl

end Sound

end Publication

/-! ## The invariant -/

/-- The order of the datagrams on the wire. -/
def Datagram.Precedes (d d' : Datagram) : Prop :=
  d.publication < d'.publication ∨ (d.publication = d'.publication ∧ d.index < d'.index)

namespace Hop

/-- What `out`, the packets handed to `Push` so far, and the state have to do with each other. -/
structure Inv (out : List H264Packet) (s : Hop) : Prop where
  mtu : s.publisher.isOpen → 26 ≤ s.publisher.mtu ∧ s.publisher.mtu ≤ 65507
  frames : s.publisher.isOpen → s.publisher.frameId.toNat ≤ s.calls
  sound : ∀ p ∈ s.published, p.Sound
  /-- Frame ids are handed out in order, and no lifetime has one twice. -/
  numbered : ∀ p ∈ s.published, p.lifetime ≤ s.lifetimes ∧
    (s.publisher.isOpen → p.lifetime = s.lifetimes → p.frameId.toNat < s.publisher.frameId.toNat)
  distinct : s.published.Pairwise fun p q => p.lifetime = q.lifetime → p.frameId ≠ q.frameId
  ordered : s.wire.Pairwise Datagram.Precedes
  /-- Of the publication of a datagram on the wire, only chunks before it have arrived, and if any
      has, the receiver is at it. -/
  carries : ∀ d ∈ s.wire, ∃ p, s.published[d.publication]? = some p ∧ d.index < p.fragments ∧
    d.bytes = p.datagram d.index ∧ (∀ i ∈ p.arrived, i < d.index) ∧
    (p.arrived ≠ [] → s.receiver.expectedFragments ≠ 0 ∧ s.origin = d.publication)
  ahead : ∀ d ∈ s.wire, ∀ n q, d.publication < n → s.published[n]? = some q → q.arrived = []
  /-- The receiver has what has arrived of one publication. -/
  partial_ : s.receiver.expectedFragments ≠ 0 → ∃ p, s.published[s.origin]? = some p ∧
    s.receiver = p.reassembly s.restarted ∧ p.delivered = false
  /-- The packets that have arrived are the packets that were pushed. -/
  pushed : out = (s.published.filter (·.delivered)).map (·.packet)

theorem Inv.init : Inv [] {} where
  mtu h := by cases h
  frames h := by cases h
  sound p hp := by cases hp
  numbered p hp := by cases hp
  distinct := .nil
  ordered := .nil
  carries d hd := by cases hd
  ahead d hd := by cases hd
  partial_ h := absurd rfl h
  pushed := rfl

variable {out : List H264Packet} {p : Publication} {s : Hop}

theorem Inv.place_eq (h : s.Inv out) {a b : Nat} {q : Publication} (hp : s.published[a]? = some p)
    (hq : s.published[b]? = some q) (hlifetime : p.lifetime = q.lifetime) (hframe : p.frameId = q.frameId) : a = b := by
  obtain ⟨ha, rfl⟩ := List.getElem?_eq_some_iff.1 hp
  obtain ⟨hb, rfl⟩ := List.getElem?_eq_some_iff.1 hq
  have hdistinct := pairwise_iff_getElem.1 h.distinct
  rcases Nat.lt_trichotomy a b with hlt | heq | hgt
  · exact absurd hframe (hdistinct a b ha hb hlt hlifetime)
  · exact heq
  · exact absurd hframe.symm (hdistinct b a hb ha hgt hlifetime.symm)

theorem Inv.of_publisher {s' : Hop} (h : s.Inv out) (hwire : s'.wire = s.wire)
    (hpublished : s'.published = s.published) (hreceiver : s'.receiver = s.receiver) (horigin : s'.origin = s.origin)
    (hrestarted : s'.restarted = s.restarted)
    (hmtu : s'.publisher.isOpen → 26 ≤ s'.publisher.mtu ∧ s'.publisher.mtu ≤ 65507)
    (hframes : s'.publisher.isOpen → s'.publisher.frameId.toNat ≤ s'.calls)
    (hnumbered : ∀ p ∈ s.published, p.lifetime ≤ s'.lifetimes ∧ (s'.publisher.isOpen → p.lifetime = s'.lifetimes →
      p.frameId.toNat < s'.publisher.frameId.toNat)) : s'.Inv out where
  mtu := hmtu
  frames := hframes
  sound := hpublished ▸ h.sound
  numbered := hpublished ▸ hnumbered
  distinct := hpublished ▸ h.distinct
  ordered := hwire ▸ h.ordered
  carries := by
    rw [hwire, hpublished, hreceiver, horigin]
    exact h.carries
  ahead := by
    rw [hwire, hpublished]
    exact h.ahead
  partial_ := by
    rw [hreceiver, hpublished, horigin, hrestarted]
    exact h.partial_
  pushed := hpublished ▸ h.pushed

theorem Inv.close (h : s.Inv out) : { s with publisher := s.publisher.close }.Inv out := by
  refine h.of_publisher rfl rfl rfl rfl rfl ?_ ?_ ?_
  · intro hopen
    cases hopen
  · intro hopen
    cases hopen
  · intro p hp
    refine ⟨(h.numbered p hp).1, fun hopen => ?_⟩
    cases hopen

theorem open_cases (publisher : H264UdpPublisher) (config : H264UdpPublisherConfig) (resolved created : Bool) :
    (publisher.open_ config resolved created).1 = publisher.close ∨
      (publisher.open_ config resolved created).1 = { isOpen := true, mtu := config.mtu, frameId := 0 } := by
  unfold H264UdpPublisher.open_
  split
  · exact .inl rfl
  · split
    · exact .inl rfl
    · split
      · exact .inl rfl
      · exact .inr rfl

theorem Inv.open_ (h : s.Inv out) {config : H264UdpPublisherConfig} (hconfig : 26 ≤ config.mtu ∧ config.mtu ≤ 65507)
    (resolved created : Bool) : (s.open_ config resolved created).Inv out := by
  have hlifetime : ∀ p ∈ s.published, p.lifetime ≤ s.lifetimes + 1 ∧ p.lifetime ≠ s.lifetimes + 1 := by
    intro p hp
    have := (h.numbered p hp).1
    omega
  refine h.of_publisher rfl rfl rfl rfl rfl ?_ ?_ ?_ <;> unfold Hop.open_ <;> dsimp only
  · intro hopen
    rcases open_cases s.publisher config resolved created with hclosed | hopened
    · rw [hclosed] at hopen
      cases hopen
    · rw [hopened]
      exact hconfig
  · intro hopen
    rcases open_cases s.publisher config resolved created with hclosed | hopened
    · rw [hclosed] at hopen
      cases hopen
    · rw [hopened]
      exact Nat.le_refl 0
  · intro p hp
    exact ⟨(hlifetime p hp).1, fun _ heq => absurd heq (hlifetime p hp).2⟩

theorem Inv.lose (h : s.Inv out) : { s with wire := s.wire.tail }.Inv out where
  mtu := h.mtu
  frames := h.frames
  sound := h.sound
  numbered := h.numbered
  distinct := h.distinct
  ordered := h.ordered.tail
  carries d hd := h.carries d (mem_of_mem_tail hd)
  ahead d hd := h.ahead d (mem_of_mem_tail hd)
  partial_ := h.partial_
  pushed := h.pushed

theorem Inv.restart (h : s.Inv out) : { s with receiver := s.receiver.restart, restarted := true }.Inv out where
  mtu := h.mtu
  frames := h.frames
  sound := h.sound
  numbered := h.numbered
  distinct := h.distinct
  ordered := h.ordered
  carries := h.carries
  ahead := h.ahead
  partial_ hpartial := by
    obtain ⟨p, hp, hreceiver, hdelivered⟩ := h.partial_ hpartial
    refine ⟨p, hp, ?_, hdelivered⟩
    rw [hreceiver]
    simp [Reassembly.restart, Publication.reassembly]
  pushed := h.pushed

theorem sendAll_fst (datagrams : List (List UInt8)) (failsAt : Option Nat) (error : String) :
    ∃ k, (H264UdpPublisher.sendAll datagrams failsAt error).1 = datagrams.take k := by
  unfold H264UdpPublisher.sendAll
  split
  case h_1 k =>
    split
    · exact ⟨k, rfl⟩
    · exact ⟨datagrams.length, (take_length ..).symm⟩
  case h_2 => exact ⟨datagrams.length, (take_length ..).symm⟩

variable {packet : H264Packet}

theorem publish_of_refuses (h : s.accepts packet = false) (failsAt : Option Nat) :
    (s.publisher.publish packet failsAt).1 = s.publisher ∧
      (s.publisher.publish packet failsAt).2.1 = [] := by
  unfold H264UdpPublisher.publish
  by_cases hclosed : (!s.publisher.isOpen || packet.data = []) = true
  · rw [if_pos hclosed]
    exact ⟨rfl, rfl⟩
  · rw [if_neg hclosed]
    have hlarge : s.publisher.mtu ≠ 0 ∧
        65535 < fragmentCount (s.publisher.mtu - kUdpHeaderSize) packet.data.length := by
      simp only [Bool.or_eq_true, Bool.not_eq_true', decide_eq_true_eq, not_or, Bool.not_eq_false]
        at hclosed
      simpa [accepts, hclosed.1, hclosed.2] using h
    rw [if_neg hlarge.1]
    dsimp only
    rw [if_pos hlarge.2]
    exact ⟨rfl, rfl⟩

theorem publish_of_accepts (h : s.accepts packet) (hmtu : s.publisher.mtu ≠ 0) (failsAt : Option Nat) :
    (s.publisher.publish packet failsAt).1
        = { s.publisher with frameId := s.publisher.frameId + 1 } ∧
      ∃ k, (s.publisher.publish packet failsAt).2.1 =
        ((List.range (fragmentCount (s.publisher.mtu - kUdpHeaderSize) packet.data.length)).map
          (fragmentDatagram (s.publisher.mtu - kUdpHeaderSize) s.publisher.frameId packet)).take k := by
  simp only [accepts, Bool.and_eq_true, Bool.or_eq_true, decide_eq_true_eq] at h
  obtain ⟨⟨hopen, hdata⟩, hfits⟩ := h
  have hfits := hfits.resolve_left hmtu
  unfold H264UdpPublisher.publish
  rw [if_neg (by simp [hopen, hdata]), if_neg hmtu]
  dsimp only
  rw [if_neg (by omega)]
  exact ⟨rfl, sendAll_fst ..⟩

theorem Inv.refuse (h : s.Inv out) (hrefuses : s.accepts packet = false) (failsAt : Option Nat) :
    (s.publish packet failsAt).Inv out := by
  obtain ⟨hpublisher, hsent⟩ := publish_of_refuses hrefuses failsAt
  refine h.of_publisher ?_ ?_ rfl rfl rfl ?_ ?_ ?_ <;> simp only [Hop.publish]
  · rw [hsent]
    simp
  · rw [hrefuses]
    rfl
  · rw [hpublisher]
    exact h.mtu
  · rw [hpublisher]
    intro hopen
    have := h.frames hopen
    omega
  · rw [hpublisher]
    exact h.numbered

/-- The first `k` datagrams of the publication `n`, on the wire. -/
def sentDatagrams (p : Publication) (n k : Nat) : List Datagram :=
  (((List.range p.fragments).map p.datagram).take k).zipIdx.map fun (bytes, index) =>
    { bytes := bytes, publication := n, index := index }

variable {d : Datagram}

theorem mem_sentDatagrams {n k : Nat} (h : d ∈ sentDatagrams p n k) :
    d.publication = n ∧ d.index < p.fragments ∧ d.bytes = p.datagram d.index := by
  obtain ⟨⟨bytes, index⟩, hmem, rfl⟩ := mem_map.1 h
  have hget : (((List.range p.fragments).map p.datagram).take k)[index]? = some bytes :=
    mem_zipIdx_iff_getElem?.1 hmem
  rw [List.getElem?_take] at hget
  split at hget
  case isFalse => cases hget
  rw [List.getElem?_map] at hget
  obtain ⟨i, hi, rfl⟩ := map_eq_some_iff.1 hget
  obtain ⟨hlt, rfl⟩ := List.getElem?_eq_some_iff.1 hi
  rw [List.length_range] at hlt
  simp [hlt]

theorem pairwise_sentDatagrams (p : Publication) (n k : Nat) : (sentDatagrams p n k).Pairwise Datagram.Precedes := by
  rw [sentDatagrams, pairwise_map]
  have hlt : ((((List.range p.fragments).map p.datagram).take k).zipIdx.map Prod.snd).Pairwise
      (· < ·) := by
    rw [zipIdx_map_snd]
    exact pairwise_lt_range'
  rw [pairwise_map] at hlt
  exact hlt.imp fun h => .inr ⟨rfl, h⟩

/-- **A publication**: its datagrams come behind all others on the wire. -/
theorem Inv.accept (h : s.Inv out) (haccepts : s.accepts packet) (hcalls : s.calls + 1 < 2 ^ 32)
    (failsAt : Option Nat) : (s.publish packet failsAt).Inv out := by
  have hchecks := haccepts
  simp only [accepts, Bool.and_eq_true, Bool.or_eq_true, decide_eq_true_eq] at hchecks
  obtain ⟨⟨hopen, hdata⟩, hfits⟩ := hchecks
  have hmtu := h.mtu hopen
  have hframes := h.frames hopen
  have hnonzero : s.publisher.mtu ≠ 0 := by omega
  obtain ⟨hpublisher, k, hsent⟩ := publish_of_accepts haccepts hnonzero failsAt
  have hnext : (s.publisher.frameId + 1).toNat = s.publisher.frameId.toNat + 1 := by
    rw [UInt32.toNat_add]
    exact Nat.mod_eq_of_lt (by show s.publisher.frameId.toNat + 1 < 2 ^ 32; omega)
  let new : Publication :=
    { lifetime := s.lifetimes, frameId := s.publisher.frameId, mtu := s.publisher.mtu
      packet := packet }
  have hfragments : new.fragments =
      fragmentCount (s.publisher.mtu - kUdpHeaderSize) packet.data.length := if_neg hnonzero
  have hsound : new.Sound := ⟨hmtu, hdata, hfragments ▸ hfits.resolve_left hnonzero⟩
  have hpublished : (s.publish packet failsAt).published = s.published ++ [new] := if_pos haccepts
  have hwire : (s.publish packet failsAt).wire
      = s.wire ++ sentDatagrams new s.published.length k := by
    simp only [Hop.publish, hsent, sentDatagrams, hfragments]
    rfl
  have hpub : (s.publish packet failsAt).publisher
      = { s.publisher with frameId := s.publisher.frameId + 1 } := hpublisher
  have hold : ∀ {n p}, s.published[n]? = some p → (s.published ++ [new])[n]? = some p :=
    fun h => getElem?_snoc.2 (.inl h)
  constructor
  · intro _
    exact hpub ▸ hmtu
  · intro _
    rw [hpub]
    show (s.publisher.frameId + 1).toNat ≤ s.calls + 1
    omega
  · rw [hpublished]
    intro p hp
    rcases mem_append.1 hp with hp | hp
    · exact h.sound p hp
    · exact mem_singleton.1 hp ▸ hsound
  · rw [hpublished, hpub]
    intro p hp
    rcases mem_append.1 hp with hp | hp
    · obtain ⟨hle, hlt⟩ := h.numbered p hp
      refine ⟨hle, fun _ heq => ?_⟩
      have := hlt hopen heq
      show p.frameId.toNat < (s.publisher.frameId + 1).toNat
      omega
    · obtain rfl := mem_singleton.1 hp
      refine ⟨Nat.le_refl s.lifetimes, fun _ _ => ?_⟩
      show s.publisher.frameId.toNat < (s.publisher.frameId + 1).toNat
      omega
  · rw [hpublished, pairwise_append]
    refine ⟨h.distinct, pairwise_singleton .., fun p hp q hq => ?_⟩
    obtain rfl := mem_singleton.1 hq
    intro heq hframe
    have hlt := (h.numbered p hp).2 hopen heq
    rw [hframe] at hlt
    exact absurd hlt (Nat.lt_irrefl _)
  · rw [hwire, pairwise_append]
    refine ⟨h.ordered, pairwise_sentDatagrams .., fun d hd d' hd' => .inl ?_⟩
    obtain ⟨p, hp, -⟩ := h.carries d hd
    rw [(mem_sentDatagrams hd').1]
    exact (List.getElem?_eq_some_iff.1 hp).1
  · rw [hwire, hpublished]
    intro d hd
    rcases mem_append.1 hd with hd | hd
    · obtain ⟨p, hp, hrest⟩ := h.carries d hd
      exact ⟨p, hold hp, hrest⟩
    · obtain ⟨hn, hindex, hbytes⟩ := mem_sentDatagrams hd
      refine ⟨new, getElem?_snoc.2 (.inr ⟨hn, rfl⟩), hindex, hbytes, ?_, fun hne => absurd rfl hne⟩
      intro i hi
      cases hi
  · rw [hwire, hpublished]
    intro d hd n q hlt hq
    rcases getElem?_snoc.1 hq with hq | ⟨hn, rfl⟩
    · rcases mem_append.1 hd with hd | hd
      · exact h.ahead d hd n q hlt hq
      · rw [(mem_sentDatagrams hd).1] at hlt
        exact absurd (List.getElem?_eq_some_iff.1 hq).1 (Nat.lt_asymm hlt)
    · rfl
  · rw [hpublished]
    intro hpartial
    obtain ⟨p, hp, hrest⟩ := h.partial_ hpartial
    exact ⟨p, hold hp, hrest⟩
  · rw [hpublished, filter_append, map_append, h.pushed]
    have hnone : [new].filter (·.delivered) = [] := by
      rw [filter_cons_of_neg (by simp [hsound.not_delivered_of_nil rfl]), filter_nil]
    rw [hnone, map_nil, append_nil]

/-! ### A datagram arrives -/

/-- **The datagram in front goes where it belongs**: to the fragments of its own publication, or to none.
    For a keyframe, the receiver has not restarted since the first of them. -/
theorem Inv.continues_own (h : s.Inv out) {wire : List Datagram} (hwire : s.wire = d :: wire)
    (hmixes : s.mixes .deliver = false) (hp : s.published[d.publication]? = some p)
    (hbytes : d.bytes = p.datagram d.index) :
    if s.receiver.continues d.bytes then
      s.origin = d.publication ∧ s.receiver = p.reassembly s.restarted ∧ (s.restarted → p.packet.keyframe = false)
    else p.arrived = [] := by
  have hsound := h.sound p (mem_of_getElem? hp)
  have hiff := hsound.continues_iff s.receiver d.index
  rw [← hbytes] at hiff
  split
  case isTrue hcontinues =>
    obtain ⟨hframe, htotal⟩ := hiff.1 hcontinues
    have hexpected : s.receiver.expectedFragments ≠ 0 := htotal ▸ hsound.ofNat_fragments_ne_zero
    obtain ⟨q, hq, hreceiver, -⟩ := h.partial_ hexpected
    simp only [mixes, hwire, List.head?_cons, Option.any_some, hcontinues, Bool.true_and, hp, hq,
      Option.map_some, Bool.or_eq_false_iff, decide_eq_false_iff_not, Decidable.not_not,
      Option.some.injEq] at hmixes
    have hplace : s.origin = d.publication :=
      h.place_eq hq hp hmixes.1 (by rw [hframe, hreceiver]; rfl)
    rw [hplace] at hq
    obtain rfl : p = q := Option.some.inj (hp.symm.trans hq)
    refine ⟨hplace, hreceiver, fun hrestarted => ?_⟩
    simpa [hrestarted] using hmixes.2
  case isFalse hnew =>
    obtain ⟨q, hq, -, -, -, hat⟩ := h.carries d (hwire ▸ List.mem_cons_self)
    obtain rfl : p = q := Option.some.inj (hp.symm.trans hq)
    refine Decidable.not_not.1 fun hne => hnew (hiff.2 ?_)
    obtain ⟨hexpected, horigin⟩ := hat hne
    obtain ⟨q, hq, hreceiver, -⟩ := h.partial_ hexpected
    rw [horigin] at hq
    obtain rfl : p = q := Option.some.inj (hp.symm.trans hq)
    rw [hreceiver]
    exact ⟨rfl, rfl⟩

theorem Sound_receive (h : p.Sound) (index : Nat) : (p.receive index).Sound :=
  ⟨h.mtu, h.data, h.fragments⟩

theorem Inv.receive_head (h : s.Inv out) {wire : List Datagram} (hwire : s.wire = d :: wire)
    (hmixes : s.mixes .deliver = false) :
    ∃ p restarted, s.published[d.publication]? = some p ∧
      (s.receive d).1.origin = d.publication ∧ (s.receive d).1.restarted = restarted ∧
      ((s.receive d).1.receiver, (s.receive d).2) =
        if (p.receive d.index).delivered then
          ({ (p.receive d.index).reassembly restarted with expectedFragments := 0 }, some p.packet)
        else ((p.receive d.index).reassembly restarted, none) := by
  obtain ⟨p, hp, hindex, hbytes, -, -⟩ := h.carries d (hwire ▸ List.mem_cons_self)
  have hsound := h.sound p (mem_of_getElem? hp)
  have hown := h.continues_own hwire hmixes hp hbytes
  refine ⟨p, _, hp, ?_, rfl, ?_⟩
  · simp only [Hop.receive]
    split at hown
    case isTrue hcontinues => rw [if_pos hcontinues, hown.1]
    case isFalse hnew => rw [if_neg hnew]
  · have hreceive := hsound.receive_datagram hindex s.receiver
    rw [← hbytes] at hreceive
    simp only [Hop.receive]
    rw [hreceive]
    split at hown
    case isTrue hcontinues =>
      obtain ⟨-, hreceiver, hkeyframe⟩ := hown
      have htake := hsound.take_datagram hindex s.restarted
      rw [← hreceiver, ← hbytes] at htake
      have hflag : (p.packet.keyframe && !s.restarted) = p.packet.keyframe := by
        cases hrestarted : s.restarted
        · simp
        · simp [hkeyframe hrestarted]
      rw [if_pos hcontinues, htake, (Sound_receive hsound _).finish_reassembly, hcontinues, Bool.and_true]
      show (if _ then (_, some { p.packet with keyframe := p.packet.keyframe && !s.restarted })
        else _) = _
      rw [hflag]
    case isFalse hnew =>
      have htake := hsound.take_datagram hindex false
      rw [← hsound.begin_datagram d.index hown, ← hbytes] at htake
      rw [if_neg hnew, htake, (Sound_receive hsound _).finish_reassembly, Bool.eq_false_iff.2 hnew,
        Bool.and_false]
      show (if _ then (_, some { p.packet with keyframe := p.packet.keyframe && !false })
        else _) = _
      rw [Bool.not_false, Bool.and_true]

theorem Inv.deliver (h : s.Inv out) (hmixes : s.mixes .deliver = false) :
    (s.step .deliver).1.Inv (out ++ (s.step .deliver).2.toList) := by
  cases hwire : s.wire with
  | nil =>
    simp only [Hop.step, hwire, toList_none, append_nil]
    exact h
  | cons d wire =>
    obtain ⟨p, hp, hindex, -, hbehind, -⟩ := h.carries d (hwire ▸ List.mem_cons_self)
    obtain ⟨p', restarted, hp', horigin, hrestarted, hreceive⟩ := h.receive_head hwire hmixes
    obtain rfl : p = p' := Option.some.inj (hp.symm.trans hp')
    have hsound := Sound_receive (h.sound p (mem_of_getElem? hp)) d.index
    have hordered := pairwise_cons.1 (hwire ▸ h.ordered)
    have hstep : s.step .deliver = ({ (s.receive d).1 with wire := wire }, (s.receive d).2) := by
      simp only [Hop.step, hwire]
      rfl
    have hpublished : (s.receive d).1.published
        = s.published.modify d.publication (·.receive d.index) := rfl
    have hentry : (s.receive d).1.published[d.publication]? = some (p.receive d.index) := by
      rw [hpublished, List.getElem?_modify, hp]
      simp
    have hother : ∀ n, d.publication ≠ n → (s.receive d).1.published[n]? = s.published[n]? := by
      intro n hne
      rw [hpublished, List.getElem?_modify]
      simp [hne]
    have hnot : p.delivered = false :=
      Publication.not_delivered hindex fun harrived => Nat.lt_irrefl _ (hbehind _ harrived)
    rw [hstep]
    constructor
    · exact h.mtu
    · exact h.frames
    · intro q hq
      obtain hq | ⟨a, ha, rfl⟩ := mem_modify hq
      · exact h.sound q hq
      · exact Sound_receive (h.sound a (mem_of_getElem? ha)) _
    · intro q hq
      obtain hq | ⟨a, ha, rfl⟩ := mem_modify hq
      · exact h.numbered q hq
      · exact h.numbered a (mem_of_getElem? ha)
    · show (s.published.modify d.publication (·.receive d.index)).Pairwise _
      have hkeys : ((s.published.modify d.publication (·.receive d.index)).map
          fun p => (p.lifetime, p.frameId)).Pairwise fun a b => a.1 = b.1 → a.2 ≠ b.2 := by
        rw [map_modify (f := fun q : Publication => q.receive d.index) (fun _ => rfl), pairwise_map]
        exact h.distinct
      exact pairwise_map.1 hkeys
    · exact hordered.2
    · intro d' hd'
      obtain ⟨q, hq, hindex', hbytes', hbehind', -⟩ := h.carries d' (hwire ▸ mem_cons_of_mem _ hd')
      rcases hordered.1 d' hd' with hlt | ⟨heq, hlt⟩
      · have hnil := h.ahead d (hwire ▸ List.mem_cons_self) _ q hlt hq
        refine ⟨q, (hother _ (Nat.ne_of_lt hlt)).trans hq, hindex', hbytes', hbehind', ?_⟩
        intro hne
        exact absurd hnil hne
      · rw [← heq] at hq
        obtain rfl : p = q := Option.some.inj (hp.symm.trans hq)
        have hundelivered : (p.receive d.index).delivered = false := by
          refine Publication.not_delivered hindex' fun harrived => ?_
          rcases mem_cons.1 harrived with hsame | harrived
          · omega
          · exact Nat.lt_irrefl _ (hbehind' _ harrived)
        rw [hundelivered, if_neg (by decide)] at hreceive
        refine ⟨p.receive d.index, heq ▸ hentry, hindex', hbytes', ?_, fun _ => ⟨?_, horigin.trans heq⟩⟩
        · intro i hi
          rcases mem_cons.1 hi with rfl | hi
          · exact hlt
          · exact hbehind' i hi
        · show (s.receive d).1.receiver.expectedFragments ≠ 0
          rw [(Prod.mk.inj hreceive).1]
          exact hsound.ofNat_fragments_ne_zero
    · intro d' hd' n q hlt hq
      have hle : d.publication ≤ d'.publication := by
        rcases hordered.1 d' hd' with hlt | ⟨heq, -⟩
        · exact Nat.le_of_lt hlt
        · exact Nat.le_of_eq heq
      rw [show ({ (s.receive d).1 with wire := wire } : Hop).published = (s.receive d).1.published from
        rfl, hother n (by omega)] at hq
      exact h.ahead d' (hwire ▸ mem_cons_of_mem _ hd') n q hlt hq
    · intro hpartial
      have hpartial : (s.receive d).1.receiver.expectedFragments ≠ 0 := hpartial
      refine ⟨p.receive d.index, by rw [← hentry]; exact congrArg _ horigin, ?_⟩
      split at hreceive
      · rw [(Prod.mk.inj hreceive).1] at hpartial
        exact absurd rfl hpartial
      case isFalse hundelivered =>
        refine ⟨?_, Bool.eq_false_iff.2 hundelivered⟩
        show (s.receive d).1.receiver = (p.receive d.index).reassembly (s.receive d).1.restarted
        rw [(Prod.mk.inj hreceive).1, hrestarted]
    · have hlast := filter_modify (c := Publication.delivered) (f := (·.receive d.index)) hp hnot
        fun m q hlt hq => ?_
      · show _ = ((s.published.modify d.publication (·.receive d.index)).filter _).map _
        rw [hlast, map_append, h.pushed]
        congr 1
        split at hreceive <;> rename_i hdelivered <;> rw [(Prod.mk.inj hreceive).2]
        · rw [if_pos hdelivered]
          rfl
        · rw [if_neg hdelivered]
          rfl
      · have hnil := h.ahead d (hwire ▸ List.mem_cons_self) m q hlt hq
        exact (h.sound q (mem_of_getElem? hq)).not_delivered_of_nil hnil

/-- **The step lemma.** -/
theorem Inv.step (h : s.Inv out) (event : Event) (hrange : s.InRange event) (hmixes : s.mixes event = false) :
    (s.step event).1.Inv (out ++ (s.step event).2.toList) := by
  cases event with
  | open_ config resolved created =>
    rw [show (s.step (.open_ config resolved created)).2 = none from rfl, toList_none, append_nil]
    exact h.open_ hrange resolved created
  | publish packet failsAt =>
    rw [show (s.step (.publish packet failsAt)).2 = none from rfl, toList_none, append_nil]
    cases haccepts : s.accepts packet
    · exact h.refuse haccepts failsAt
    · exact h.accept haccepts hrange failsAt
  | close =>
    rw [show (s.step .close).2 = none from rfl, toList_none, append_nil]
    exact h.close
  | lose =>
    rw [show (s.step .lose).2 = none from rfl, toList_none, append_nil]
    exact h.lose
  | deliver => exact h.deliver hmixes
  | restart =>
    rw [show (s.step .restart).2 = none from rfl, toList_none, append_nil]
    exact h.restart

/-- **The hop is intact.**  Along every run in which no datagram is put to fragments it does not go
    with, the packets that `Push` gets are the published packets all of whose datagrams have arrived,
    each once and in the order of publication. -/
theorem hop_intact (events : List Event) (hrange : Along step InRange {} events)
    (hmixes : Along step (fun s event => s.mixes event = false) {} events) :
    pushed {} events = ((run step {} events).published.filter (·.delivered)).map (·.packet) := by
  have hinv : (run step {} events).Inv (handed ([] ++ trace step {} events)) :=
    Along.trace_invariant (I := fun history s => Inv (handed history) s)
      (fun history s event h hevent => by
        rw [handed_snoc]
        exact h.step event hevent.1 hevent.2)
      Inv.init (hrange.and hmixes)
  exact hinv.pushed

/-- A publisher whose packets go in chunks of two bytes. -/
def openSmall : Event := .open_ { mtu := 26 } true true

def publishBytes (data : List UInt8) (pts : Int64) (keyframe : Bool) : Event :=
  .publish { data := data, pts := pts, keyframe := keyframe } none

/-- A fragment is lost, and the receiver restarts with a packet half received. -/
def lossyEvents : List Event :=
  [openSmall, publishBytes [1, 2, 3] 10 true, .deliver, .deliver, publishBytes [4, 5, 6] 11 false,
   .deliver, .lose, publishBytes [7, 8, 9, 10, 11] 12 false, .deliver, .restart, .deliver, .deliver,
   .close]

theorem hop_intact_lossy :
    pushed {} lossyEvents
        = ((run step {} lossyEvents).published.filter (·.delivered)).map (·.packet) ∧
      (pushed {} lossyEvents).map (·.pts) = [10, 12] :=
  ⟨hop_intact lossyEvents (by decide +kernel) (by decide +kernel), by decide +kernel⟩

/-- The last fragment of the first packet is lost.  Then the publisher is closed and opened, and all of
    its next packet arrives. -/
def reopenedEvents : List Event :=
  [openSmall, publishBytes [1, 2, 3] 10 true, .deliver, .lose, .close, openSmall,
   publishBytes [4, 5, 6] 20 false, .deliver, .deliver]

/-- The first fragment of that packet is lost as well. -/
def combinedEvents : List Event :=
  [openSmall, publishBytes [1, 2, 3] 10 true, .deliver, .lose, .close, openSmall,
   publishBytes [4, 5, 6] 20 false, .lose, .deliver]

/-- **A new packet under an old header**: with nothing lost of it, it is pushed with the pts and the
    keyframe flag of a packet from before; and two packets of two lifetimes are pushed as one. -/
theorem hop_mixes :
    Along step InRange {} reopenedEvents ∧
      pushed {} reopenedEvents = [{ data := [4, 5, 6], pts := 10, keyframe := true }] ∧
      ((run step {} reopenedEvents).published.filter (·.delivered)).map (·.packet)
        = [{ data := [4, 5, 6], pts := 20, keyframe := false }] ∧
      Along step InRange {} combinedEvents ∧
      pushed {} combinedEvents = [{ data := [1, 2, 6], pts := 10, keyframe := true }] := by
  decide +kernel

end Hop

end Cockpit.Transfer
