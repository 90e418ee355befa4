import CommonDrivers.Lib.Exact
import CommonDrivers.Sensors.Bosch
import CommonDrivers.Sensors.Gps

/-! # Honest sensors

`Sensor::read` promises to return `true` on success. A read is honest if it also leaves the packet
alone when it fails, and writes no field of another sensor when it succeeds. The Bosch sensors are
honest as long as their library reports no error, which they never look at; the GPS receiver is
unless the first sentence in its buffer hides one that could be parsed.
-/

namespace CommonDrivers.Sensors

/-- The reception buffer of the GPS receiver, NUL-terminated. -/
structure GpsBuffer where
  bytes : List UInt8
  length_eq : bytes.length = 128
  terminated : Gps.NUL ∈ bytes

/-- A sensor and what its read is given: the buffer and the memory behind it, or the outcomes of the
library calls. -/
inductive Source (F : Type)
  | gps (buffer : GpsBuffer) (beyond : List UInt8)
  | bmp581 (getSensorData : Outcome (Bmp581.SensorData F))
  | bmi088 (dev : Bmi088.Dev) (getAccelData getGyroData : Outcome Bmi088.SensorData)

namespace Source

variable {F : Type}

/-- The underlying data could be obtained. -/
def Obtained : Source F → Prop
  | gps buffer _ => Gps.Parsable buffer.bytes
  | bmp581 getSensorData => getSensorData.Ok
  | bmi088 _ getAccelData getGyroData => getAccelData.Ok ∧ getGyroData.Ok

/-- No call of the Bosch library returns an error code, and the first sentence in the buffer can be
parsed if any can. -/
def Undisturbed : Source F → Prop
  | gps buffer _ => Gps.Parsable buffer.bytes → Gps.FirstParsable buffer.bytes
  | bmp581 getSensorData => getSensorData.Ok
  | bmi088 _ getAccelData getGyroData => getAccelData.Ok ∧ getGyroData.Ok

/-- `q` differs from `p` at most in the fields of the sensor. -/
def ChangesOnlyOwn (p q : Packet F) : Source F → Prop
  | gps _ _ => q = { p with
      latitudeDegrees := q.latitudeDegrees
      longitudeDegrees := q.longitudeDegrees
      gpsFixType := q.gpsFixType
      numSatellites := q.numSatellites
      gpsHMSLM := q.gpsHMSLM }
  | bmp581 _ => q = { p with
      barometerHMSLM := q.barometerHMSLM
      temperatureC := q.temperatureC
      kfPositionM := q.kfPositionM }
  | bmi088 _ _ _ => q = { p with
      accelerationXMss := q.accelerationXMss
      accelerationYMss := q.accelerationYMss
      accelerationZMss := q.accelerationZMss
      angularVelocityXRads := q.angularVelocityXRads
      angularVelocityYRads := q.angularVelocityYRads
      angularVelocityZRads := q.angularVelocityZRads }

variable [CMath F]

/-- The `read` of the sensor. -/
def read (packet : Packet F) : Source F → Option (Bool × Packet F)
  | gps buffer beyond => Gps.read (buffer.bytes ++ beyond) packet
  | bmp581 getSensorData => some (Bmp581.read getSensorData packet)
  | bmi088 dev getAccelData getGyroData => some (Bmi088.read dev getAccelData getGyroData packet)

/-- The read succeeds and changes only the sensor's own fields if the data could be obtained, and
fails and changes nothing otherwise. -/
def Honest (source : Source F) (packet : Packet F) : Prop :=
  ∃ ok packet', source.read packet = some (ok, packet') ∧
    (source.Obtained → ok = true ∧ source.ChangesOnlyOwn packet packet') ∧
    (¬ source.Obtained → ok = false ∧ packet' = packet)

/-- A read that succeeds is honest exactly when the data could be obtained. -/
theorem honest_iff_obtained {source : Source F} {packet packet' : Packet F}
    (hread : source.read packet = some (true, packet'))
    (hown : source.ChangesOnlyOwn packet packet') : source.Honest packet ↔ source.Obtained := by
  refine (Exec.returns_iff hread).trans ⟨?_, ?_⟩
  · rintro ⟨-, hfail⟩
    by_contra hnot
    cases (hfail hnot).1
  · exact fun h => ⟨fun _ => ⟨rfl, hown⟩, fun hnot => absurd h hnot⟩

/-- A read that fails and changes nothing is honest exactly when the data could not be obtained. -/
theorem honest_iff_not_obtained {source : Source F} {packet : Packet F}
    (hread : source.read packet = some (false, packet)) :
    source.Honest packet ↔ ¬ source.Obtained := by
  refine (Exec.returns_iff hread).trans ⟨?_, ?_⟩
  · rintro ⟨hsuccess, -⟩ hobtained
    cases (hsuccess hobtained).1
  · exact fun h => ⟨fun hobtained => absurd hobtained h, fun _ => ⟨rfl, rfl⟩⟩

/-- The GPS receiver decides by the first sentence in its buffer. -/
theorem gps_honest_iff (buffer : GpsBuffer) (beyond : List UInt8) (packet : Packet F) :
    (gps buffer beyond : Source F).Honest packet ↔
      (Gps.Parsable buffer.bytes → Gps.FirstParsable buffer.bytes) := by
  obtain ⟨hfirst, hnot⟩ := Gps.read_eq buffer.terminated beyond packet
  by_cases h : Gps.FirstParsable buffer.bytes
  · obtain ⟨fields, hread⟩ := hfirst h
    have hiff : (gps buffer beyond).Honest packet ↔ Gps.Parsable buffer.bytes :=
      honest_iff_obtained hread rfl
    rw [hiff]
    exact iff_of_true h.parsable fun _ => h
  · have hiff : (gps buffer beyond).Honest packet ↔ ¬ Gps.Parsable buffer.bytes :=
      honest_iff_not_obtained (hnot h)
    rw [hiff]
    exact ⟨fun hnone hsome => absurd hsome hnone, fun hcond hsome => h (hcond hsome)⟩

/-- **A sensor read is honest if and only if no call of the Bosch library returns an error and the
first sentence in the buffer of the receiver can be parsed if any can.** -/
theorem honest_iff (source : Source F) (packet : Packet F) :
    source.Honest packet ↔ source.Undisturbed := by
  cases source with
  | gps buffer beyond => exact gps_honest_iff buffer beyond packet
  | bmp581 getSensorData => exact honest_iff_obtained rfl rfl
  | bmi088 dev getAccelData getGyroData => exact honest_iff_obtained rfl rfl

/-- A failed transfer to the barometer is reported as success, with whatever the struct held. -/
theorem bmp581_reports_garbage :
    ¬ (bmp581 ⟨-2, 101325, 0⟩ : Source ℝ).Honest Packet.initial := by
  rintro ⟨ok, q, hread, -, hfail⟩
  obtain ⟨rfl, -⟩ := Prod.mk.inj (Option.some.inj hread)
  cases (hfail (by simp [Obtained, Outcome.Ok])).1

end Source

end CommonDrivers.Sensors
