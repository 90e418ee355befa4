import Mathlib.Data.Nat.Notation

/-! # The telemetry packet

`Packet` and `Sensor` of `include/sensors/sensor.h`. Drivers and tasks only move floats around or
hand them to library functions, so the type `F` of a C `float` is a parameter. Where the bytes of a
packet matter, `bits` is the object representation of a float.
-/

namespace CommonDrivers.Sensors

/-- The packed record that is saved to flash. -/
structure Packet (F : Type) where
  magic : Int16
  status : UInt32
  timeUs : UInt32
  mainVoltageV : F
  pyroVoltageV : F
  numSatellites : UInt8
  gpsFixType : UInt8
  latitudeDegrees : F
  longitudeDegrees : F
  gpsHMSLM : F
  barometerHMSLM : F
  temperatureC : F
  accelerationXMss : F
  accelerationYMss : F
  accelerationZMss : F
  angularVelocityXRads : F
  angularVelocityYRads : F
  angularVelocityZRads : F
  gaussX : F
  gaussY : F
  gaussZ : F
  kfAccelerationMss : F
  kfVelocityMs : F
  kfPositionM : F
  w : F
  x : F
  y : F
  z : F
  checksum : UInt32
deriving DecidableEq, Repr

/-- The packet of the default constructor. -/
def Packet.initial {F : Type} [Zero F] : Packet F where
  magic := 0xBEEF
  status := 0
  timeUs := 0
  mainVoltageV := 0
  pyroVoltageV := 0
  numSatellites := 0
  gpsFixType := 0
  latitudeDegrees := 0
  longitudeDegrees := 0
  gpsHMSLM := 0
  barometerHMSLM := 0
  temperatureC := 0
  accelerationXMss := 0
  accelerationYMss := 0
  accelerationZMss := 0
  angularVelocityXRads := 0
  angularVelocityYRads := 0
  angularVelocityZRads := 0
  gaussX := 0
  gaussY := 0
  gaussZ := 0
  kfAccelerationMss := 0
  kfVelocityMs := 0
  kfPositionM := 0
  w := 0
  x := 0
  y := 0
  z := 0
  checksum := 0

/-! ## The bytes of a packet -/

/-- A 16-bit word in little-endian order. -/
def le16 (v : UInt16) : List UInt8 := [v.toUInt8, (v >>> 8).toUInt8]

/-- A 32-bit word in little-endian order. -/
def le32 (v : UInt32) : List UInt8 :=
  [v.toUInt8, (v >>> 8).toUInt8, (v >>> 16).toUInt8, (v >>> 24).toUInt8]

@[simp] theorem le16_length (v : UInt16) : (le16 v).length = 2 := rfl

@[simp] theorem le32_length (v : UInt32) : (le32 v).length = 4 := rfl

namespace Packet

variable {F : Type} (bits : F → UInt32) (p : Packet F)

def setTimeUs (t : UInt32) : Packet F := { p with timeUs := t }

def setChecksum (c : UInt32) : Packet F := { p with checksum := c }

/-- The fields before `timeUs`: 6 bytes. -/
def header : List UInt8 := le16 p.magic.toUInt16 ++ le32 p.status

/-- The fields between `timeUs` and `checksum`: 94 bytes. -/
def body : List UInt8 :=
  [p.mainVoltageV, p.pyroVoltageV].flatMap (fun v => le32 (bits v)) ++
  [p.numSatellites, p.gpsFixType] ++
  [p.latitudeDegrees, p.longitudeDegrees, p.gpsHMSLM, p.barometerHMSLM, p.temperatureC,
    p.accelerationXMss, p.accelerationYMss, p.accelerationZMss, p.angularVelocityXRads,
    p.angularVelocityYRads, p.angularVelocityZRads, p.gaussX, p.gaussY, p.gaussZ,
    p.kfAccelerationMss, p.kfVelocityMs, p.kfPositionM, p.w, p.x, p.y, p.z].flatMap
      fun v => le32 (bits v)

/-- The packet as it lies in memory: 108 bytes. -/
def bytes : List UInt8 := p.header ++ (le32 p.timeUs ++ (p.body bits ++ le32 p.checksum))

@[simp] theorem header_length : p.header.length = 6 := rfl

@[simp] theorem body_length : (p.body bits).length = 94 := by
  simp only [body, List.length_append, List.length_flatMap, le32_length, List.map_cons,
    List.map_nil, List.sum_cons, List.sum_nil, List.length_cons, List.length_nil, Nat.reduceAdd]

@[simp] theorem bytes_length : (p.bytes bits).length = 108 := by
  simp only [bytes, List.length_append, header_length, body_length, le32_length]

@[simp] theorem setChecksum_checksum (c : UInt32) : (p.setChecksum c).checksum = c := rfl

theorem setTimeUs_bytes (t : UInt32) :
    (p.setTimeUs t).bytes bits = p.header ++ (le32 t ++ (p.body bits ++ le32 p.checksum)) := rfl

theorem setChecksum_bytes (c : UInt32) :
    (p.setChecksum c).bytes bits = p.header ++ (le32 p.timeUs ++ (p.body bits ++ le32 c)) := rfl

/-- Stamping a packet changes none of its bytes but those of `timeUs`. -/
theorem setTimeUs_bytes_getElem? (t : UInt32) {i : ℕ} (h : i < 6 ∨ 10 ≤ i) :
    ((p.setTimeUs t).bytes bits)[i]? = (p.bytes bits)[i]? := by
  rw [setTimeUs_bytes, bytes]
  rcases h with h | h
  · rw [List.getElem?_append_left h, List.getElem?_append_left h]
  · have hlo : p.header.length ≤ i := by
      rw [header_length]
      omega
    have hhi : ∀ v, (le32 v).length ≤ i - p.header.length := fun v => by
      rw [header_length, le32_length]
      omega
    rw [List.getElem?_append_right hlo, List.getElem?_append_right hlo,
      List.getElem?_append_right (hhi _), List.getElem?_append_right (hhi _), le32_length,
      le32_length]

/-- Setting the checksum changes no byte before it. -/
theorem setChecksum_bytes_take (c : UInt32) :
    ((p.setChecksum c).bytes bits).take 104 = (p.bytes bits).take 104 := by
  have htake : ∀ v, (p.header ++ (le32 p.timeUs ++ (p.body bits ++ le32 v))).take 104 =
      p.header ++ (le32 p.timeUs ++ p.body bits) := fun v => by
    rw [← List.append_assoc (le32 p.timeUs), ← List.append_assoc p.header]
    refine List.take_left' ?_
    simp only [List.length_append, header_length, body_length, le32_length]
  rw [setChecksum_bytes, bytes, htake, htake]

theorem setChecksum_bytes_getElem? (c : UInt32) {i : ℕ} (h : i < 104) :
    ((p.setChecksum c).bytes bits)[i]? = (p.bytes bits)[i]? := by
  rw [← List.getElem?_take_of_lt h, setChecksum_bytes_take, List.getElem?_take_of_lt h]

end Packet

/-! ## Sensors -/

/-- A sensor's `read` updates a packet in place and returns `true` on success. -/
abbrev SensorRead (F : Type) := Packet F → Bool × Packet F

end CommonDrivers.Sensors
