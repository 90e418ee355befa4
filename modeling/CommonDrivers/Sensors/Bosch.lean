import CommonDrivers.Lib.CFloat
import CommonDrivers.Sensors.Packet

/-! # The Bosch sensors

`BMP581::read` of `src/sensors/bmp581.cpp` and `BMI088::read` of `src/sensors/bmi088.cpp`. The Bosch
driver library is not part of the repository: an `Outcome` is what one of its calls returns and what
it leaves in its output struct, which is anything at all when the call fails.
-/

namespace CommonDrivers.Sensors

/-- A call of the Bosch library. -/
structure Outcome (α : Type) where
  result : Int8
  data : α

/-- The call succeeded: `BMP5_OK` and `BMI08_OK` are both 0. -/
def Outcome.Ok {α : Type} (o : Outcome α) : Prop := o.result = 0

variable {F : Type} [CMath F]

/-! ## The barometer -/

namespace Bmp581

def gravityAccel : F := CFloat.lit 9.80665

def airMolarMass : F := CFloat.lit 0.0289644

def gasConstant : F := CFloat.lit 8.31446

def tropopausePressure : F := CFloat.lit 22630

def stratosphereMiddlePressure : F := CFloat.lit 5475

def standardSeaLevelPressure : F := CFloat.lit 101325

def standardSeaLevelTemp : F := CFloat.lit 288.15

def stratosphereBaseTemp : F := CFloat.lit 216.65

def tropopauseBaseAltitude : F := CFloat.lit 11000

def stratosphereMiddleBaseAltitude : F := CFloat.lit 20000

def troposphereLapseRate : F := CFloat.lit (-0.0065)

def upperStratosphereLapseRate : F := CFloat.lit 0.001

def calcAltitudeTroposphereMsl (pressure : F) : F :=
  let exponent : F := (-gasConstant * troposphereLapseRate) / (gravityAccel * airMolarMass)
  let pressureRatio := pressure / standardSeaLevelPressure
  let powerTerm := CMath.pow pressureRatio exponent - CFloat.lit 1
  (standardSeaLevelTemp / troposphereLapseRate) * powerTerm

def calcAltitudeLowerStratosphereMsl (pressure : F) : F :=
  let scaleFactor : F := (gasConstant * stratosphereBaseTemp) / (gravityAccel * airMolarMass)
  let logRatio := CMath.log (pressure / tropopausePressure)
  tropopauseBaseAltitude - scaleFactor * logRatio

def calcAltitudeUpperStratosphereMsl (pressure : F) : F :=
  let exponent : F := (-gasConstant * upperStratosphereLapseRate) / (gravityAccel * airMolarMass)
  let pressureRatio := pressure / stratosphereMiddlePressure
  let powerTerm := CMath.pow pressureRatio exponent - CFloat.lit 1
  stratosphereMiddleBaseAltitude + (stratosphereBaseTemp / upperStratosphereLapseRate) * powerTerm

/-- The altitude above mean sea level in the standard atmosphere. -/
def estimateAltitudeMsl (pressure : F) : F :=
  if CMath.gt pressure tropopausePressure then calcAltitudeTroposphereMsl pressure
  else if CMath.gt pressure stratosphereMiddlePressure then
    calcAltitudeLowerStratosphereMsl pressure
  else calcAltitudeUpperStratosphereMsl pressure

/-- The output struct of `bmp5_get_sensor_data`. -/
structure SensorData (F : Type) where
  pressure : F
  temperature : F

/-- `BMP581::read`; the result of the call is not looked at. -/
def read (getSensorData : Outcome (SensorData F)) (packet : Packet F) : Bool × Packet F :=
  let data := getSensorData.data
  (true, { packet with
    barometerHMSLM := estimateAltitudeMsl data.pressure
    temperatureC := data.temperature
    kfPositionM := data.pressure })

end Bmp581

/-! ## The inertial unit -/

namespace Bmi088

/-- The ranges in the device struct. -/
structure Dev where
  accelRange : UInt8
  gyroRange : UInt8

/-- The output struct of `bmi08a_get_data` and `bmi08g_get_data`. -/
structure SensorData where
  x : Int16
  y : Int16
  z : Int16

def convertAccelAxisData (dev : Dev) (axisData : Int16) : F :=
  (CFloat.lit axisData.toInt / CFloat.lit 32768 * CFloat.lit 1000 *
    CMath.pow (CFloat.lit 2) (CFloat.lit (dev.accelRange.toNat + 1)) * CFloat.lit 1.5) *
  CFloat.lit 0.00981

/-- The macro `CONVERT_GYRO_RAW_RANGE`. -/
def convertGyroRawRange (raw : Int16) (range : Rat) : F :=
  CFloat.lit raw.toInt * CFloat.lit range / CFloat.lit 32768 * (CMath.pi / CFloat.lit 180)

/-- The cases are the values of `BMI08_GYRO_RANGE_2000_DPS` to `BMI08_GYRO_RANGE_125_DPS`. -/
def convertGyroAxisData (dev : Dev) (axisData : Int16) : F :=
  match dev.gyroRange with
  | 0 => convertGyroRawRange axisData 2000
  | 1 => convertGyroRawRange axisData 1000
  | 2 => convertGyroRawRange axisData 500
  | 3 => convertGyroRawRange axisData 250
  | 4 => convertGyroRawRange axisData 125
  | _ => 0

/-- `BMI088::read`; the results of the calls are not looked at. -/
def read (dev : Dev) (getAccelData getGyroData : Outcome SensorData) (packet : Packet F) :
    Bool × Packet F :=
  let accelData := getAccelData.data
  let gyroData := getGyroData.data
  (true, { packet with
    accelerationXMss := convertAccelAxisData dev accelData.x
    accelerationYMss := convertAccelAxisData dev accelData.y
    accelerationZMss := convertAccelAxisData dev accelData.z
    angularVelocityXRads := convertGyroAxisData dev gyroData.x
    angularVelocityYRads := convertGyroAxisData dev gyroData.y
    angularVelocityZRads := convertGyroAxisData dev gyroData.z })

end Bmi088

end CommonDrivers.Sensors
