/-
  What a recording session records: vehicle states, events and data files, each a JSON object on a line of
  its own file.
-/
import Cockpit.Lib.Binary64
import Cockpit.Json.Writing

namespace Cockpit.Recording

open ByteText Json

/-! ## Vehicle states -/

/-- A double as a stream prints it: with the sign bit, which also shows of a zero and of a NaN, and the
    magnitude of a finite value in units of `2^-1074`. -/
inductive Double where
  | nan (negative : Bool)
  | infinity (negative : Bool)
  | finite (negative : Bool) (units : Nat) (h : Ieee754.Representable units)

namespace Double

def tenths (units : Nat) : Nat := Ieee754.Binary64.roundHalfEven (units * 10) 1074

/-- `%.1f`. -/
def fixed : Double → Bytes
  | nan negative => (if negative then [0x2D] else []) ++ ascii "nan"
  | infinity negative => (if negative then [0x2D] else []) ++ ascii "inf"
  | finite negative units _ => signed negative (tenths units / 10) [0x2E, digit (tenths units % 10)]

end Double

structure VehicleState where
  timestampMs : Int64
  speedKph : Double
  gear : Int
  socPercent : Int
  cloudEnabled : Bool
  source : Bytes

def VehicleState.toJson (state : VehicleState) : Bytes :=
  objectText
    [("timestamp_ms", intNumeral state.timestampMs.toInt), ("speed_kph", state.speedKph.fixed),
      ("gear", intNumeral state.gear), ("soc_percent", intNumeral state.socPercent),
      ("cloud_enabled", ascii (if state.cloudEnabled then "true" else "false"))]
    "source" (quoted state.source)

/-! ## Events -/

structure RecordingEvent where
  timestampMs : Int64
  topic : Bytes
  payloadJson : Bytes
  deriving DecidableEq

/-- What `AppendEvent` takes. -/
def RecordingEvent.isValid (event : RecordingEvent) : Bool :=
  0 < event.timestampMs && !event.topic.isEmpty && !event.payloadJson.isEmpty &&
    isValidValue event.payloadJson

def RecordingEvent.head (event : RecordingEvent) : List (String × Bytes) :=
  [("timestamp_ms", intNumeral event.timestampMs.toInt), ("topic", quoted event.topic)]

def RecordingEvent.toJson (event : RecordingEvent) : Bytes :=
  objectText event.head "payload" event.payloadJson

/-! ## Data files -/

structure RecordingDataFile where
  timestampMs : Int64
  source : Bytes
  kind : Bytes
  path : Bytes
  sizeBytes : UInt64
  checksum : Bytes
  copyIntoSession : Bool
  deriving DecidableEq

/-- What `AppendDataFile` takes. -/
def RecordingDataFile.isValid (file : RecordingDataFile) : Bool :=
  0 < file.timestampMs && !file.source.isEmpty && !file.kind.isEmpty && !file.path.isEmpty

def RecordingDataFile.toJson (file : RecordingDataFile) : Bytes :=
  objectText
    [("timestamp_ms", intNumeral file.timestampMs.toInt), ("source", quoted file.source),
      ("kind", quoted file.kind), ("path", quoted file.path),
      ("size_bytes", intNumeral file.sizeBytes.toNat), ("checksum", quoted file.checksum)]
    "copied_into_session" (ascii (if file.copyIntoSession then "true" else "false"))

/-! ## Records -/

/-- The files of a session that records are written to: `vehicle_state.jsonl`, `events.jsonl` and
    `data_files.jsonl`. -/
inductive RecordFile where
  | vehicleState
  | events
  | dataFiles
  deriving DecidableEq

/-- The record of one call. -/
inductive Record where
  | vehicleState (state : VehicleState)
  | event (event : RecordingEvent)
  | dataFile (file : RecordingDataFile)

namespace Record

def file : Record → RecordFile
  | .vehicleState _ => .vehicleState
  | .event _ => .events
  | .dataFile _ => .dataFiles

def toJson : Record → Bytes
  | .vehicleState state => state.toJson
  | .event e => e.toJson
  | .dataFile entry => entry.toJson

end Record

example : (RecordingEvent.mk 7 (ascii "a\"b") (ascii "[1]")).toJson =
    ascii "\x7b\"timestamp_ms\":7,\"topic\":\"a\\\"b\",\"payload\":[1]\x7d" := by decide

end Cockpit.Recording
