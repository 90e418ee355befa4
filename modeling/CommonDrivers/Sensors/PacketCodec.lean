import CommonDrivers.Lib.Codec
import CommonDrivers.Sensors.Packet

/-! # Reading packets back

The packets that are saved to flash are read back on the ground, where the struct is only a layout
of bytes. `packetCodec` is that layout: every packet has one byte string of 108 bytes and every such
string is a packet, and a file of packets that breaks off in the middle of one still gives back all
packets before it.
-/

namespace CommonDrivers.Sensors

open Codec

variable {F : Type}

/-- The fields of a packet in the order of the struct. -/
abbrev Packet.Fields (F : Type) : Type :=
  (UInt16 × UInt32 × UInt32) × (F × F) × (UInt8 × UInt8) ×
    (F × F × F × F × F) × (F × F × F) × (F × F × F) × (F × F × F) × (F × F × F) ×
    (F × F × F × F) × UInt32

def Packet.toFields (p : Packet F) : Packet.Fields F :=
  ((p.magic.toUInt16, p.status, p.timeUs), (p.mainVoltageV, p.pyroVoltageV),
    (p.numSatellites, p.gpsFixType),
    (p.latitudeDegrees, p.longitudeDegrees, p.gpsHMSLM, p.barometerHMSLM, p.temperatureC),
    (p.accelerationXMss, p.accelerationYMss, p.accelerationZMss),
    (p.angularVelocityXRads, p.angularVelocityYRads, p.angularVelocityZRads),
    (p.gaussX, p.gaussY, p.gaussZ), (p.kfAccelerationMss, p.kfVelocityMs, p.kfPositionM),
    (p.w, p.x, p.y, p.z), p.checksum)

def Packet.ofFields : Packet.Fields F → Packet F
  | ((magic, status, timeUs), (main, pyro), (satellites, fix), (lat, lon, gps, baro, temp),
      (ax, ay, az), (gx, gy, gz), (mx, my, mz), (ka, kv, kp), (w, x, y, z), checksum) =>
    ⟨magic.toInt16, status, timeUs, main, pyro, satellites, fix, lat, lon, gps, baro, temp, ax, ay,
      az, gx, gy, gz, mx, my, mz, ka, kv, kp, w, x, y, z, checksum⟩

/-- A packet is its fields. -/
def Packet.fields : Packet F ≃ Packet.Fields F where
  toFun := Packet.toFields
  invFun := Packet.ofFields
  left_inv _ := rfl
  right_inv _ := rfl

section

variable (floats : F ≃ UInt32)

/-- A float, by its object representation. -/
def floatCodec : Codec F := Codec.le32.rename floats

/-- The packed struct. -/
def packetCodec : Codec (Packet F) :=
  let float := floatCodec floats
  let vector := float.pair (float.pair float)
  (((Codec.le16.pair (Codec.le32.pair Codec.le32)).pair
    ((float.pair float).pair
      ((byte.pair byte).pair
        ((float.pair (float.pair (float.pair (float.pair float)))).pair
          (vector.pair (vector.pair (vector.pair (vector.pair
            ((float.pair (float.pair (float.pair float))).pair Codec.le32)))))))))).rename
    Packet.fields

@[simp] theorem packetCodec_size : (packetCodec floats).size = 108 := rfl

theorem packetCodec_size_pos : 0 < (packetCodec floats).size := by
  rw [packetCodec_size]
  decide

/-- The layout is that of the bytes in memory. -/
theorem packetCodec_encode (p : Packet F) : (packetCodec floats).encode p = p.bytes floats := by
  have hword : ∀ v, Codec.le32.encode v = le32 v := fun _ => rfl
  have hhalf : ∀ v, Codec.le16.encode v = le16 v := fun _ => rfl
  have hbyte : ∀ b, byte.encode b = [b] := fun _ => rfl
  have hfields : Packet.fields p = p.toFields := rfl
  simp only [packetCodec, floatCodec, Codec.pair, Codec.rename, hfields, Packet.toFields,
    hword, hhalf, hbyte, Packet.bytes, Packet.header, Packet.body, List.flatMap_cons,
    List.flatMap_nil, List.append_nil, List.append_assoc, List.cons_append, List.nil_append]

/-- **The saved bytes determine the packets.** Each packet is read back from its bytes, each string
of 108 bytes is the bytes of a packet, and of a file of packets that breaks off after `n` bytes
exactly the first `n / 108` packets are read back. -/
theorem packet_round_trip :
    (∀ p : Packet F, (packetCodec floats).decode (p.bytes floats) = p) ∧
    (∀ bs : List UInt8, bs.length = 108 →
      ((packetCodec floats).decode bs).bytes floats = bs) ∧
    ∀ (ps : List (Packet F)) (n : ℕ),
      (packetCodec floats).decodeAll ((ps.flatMap (Packet.bytes floats)).take n) =
        ps.take (n / 108) := by
  have hencode : Packet.bytes floats = (packetCodec floats).encode :=
    funext fun p => (packetCodec_encode floats p).symm
  rw [hencode]
  exact ⟨(packetCodec floats).decode_encode, (packetCodec floats).encode_decode,
    Codec.decodeAll_take (packetCodec_size_pos floats)⟩

end

end CommonDrivers.Sensors
