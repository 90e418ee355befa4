import CommonDrivers.Delay
import CommonDrivers.Lib.Program
import CommonDrivers.Protocols.Spi
import CommonDrivers.Sensors.Bosch

/-! # Initialising the Bosch sensors

`BMP581::init` and `BMI088::init` hand callbacks to the Bosch library and call its routines one
after the other. The library is not part of the repository: a routine is a program over the
callbacks, of which is known only that it returns an error if one of its transfers did. Unlike the
receiver and the flash, the two sensors then never report success over a failed transfer.
-/

namespace CommonDrivers.Sensors

open Exec

/-! ## The callbacks -/

/-- What the `intf_ptr`s of the device structs point to. -/
inductive Interface
  | barometer
  | accel
  | gyro
deriving DecidableEq, Repr

/-- A call of a callback. -/
inductive BoschCall
  | read (intf : Interface) (regAddr : UInt8) (regData : List UInt8)
  | write (intf : Interface) (regAddr : UInt8) (regData : List UInt8)
  | delay (period : UInt32)

/-- What the callback returns. A read also has the data. -/
def BoschCall.Reply : BoschCall → Type
  | read .. => Int8 × List UInt8
  | write .. => Int8
  | delay _ => Unit

/-- The transfer has returned an error. -/
def BoschCall.Fails : (c : BoschCall) → c.Reply → Prop
  | read .., r => r.1 ≠ 0
  | write .., (r : Int8) => r ≠ 0
  | delay _, _ => False

/-- The result of a transfer as an `int8_t`. -/
def interfaceResult (failed : Bool) : Int8 := if failed then 1 else 0

section Callbacks

variable {σ : Type} (P : Protocol σ)

def boschRead (regAddr : UInt8) (regData : List UInt8) : Exec σ (Int8 × List UInt8) := do
  let res ← P.read [regAddr] regData .byte
  return (interfaceResult res.1, res.2)

def boschWrite (regAddr : UInt8) (regData : List UInt8) : Exec σ Int8 := do
  let res ← P.write [regAddr] regData .byte
  return interfaceResult res

/-- The callbacks over the buses of the sensors. `sleep` is what becomes of the hardware while the
task waits for so many ticks. -/
def callback (buses : Interface → Protocol σ) (sleep : ℕ → σ → σ) (tickRateHz : ℕ) :
    (c : BoschCall) → Exec σ c.Reply
  | .read intf regAddr regData => boschRead (buses intf) regAddr regData
  | .write intf regAddr regData => boschWrite (buses intf) regAddr regData
  | .delay period => total fun s => ((), sleep (Delay.boschDelay tickRateHz period) s)

end Callbacks

/-- A routine of the library: it works on a device struct and returns `BMP5_OK` or `BMI08_OK`, which
are both 0, or an error. -/
abbrev Routine (D : Type) : Type := D → Program BoschCall BoschCall.Reply (Int8 × D)

/-- The routine returns an error if one of its transfers did. -/
def Routine.Reports {D : Type} (routine : Routine D) : Prop :=
  ∀ dev trace res, (routine dev).Yields trace res → (∃ e ∈ trace, e.call.Fails e.reply) → res.1 ≠ 0

/-- The routines one after the other, up to the first one that returns an error. -/
def inOrder {σ D : Type} (serve : ∀ c : BoschCall, Exec σ c.Reply) :
    List (Routine D) → D → Exec σ (Bool × D)
  | [], dev => return (true, dev)
  | routine :: routines, dev => do
    let res ← (routine dev).run serve
    if res.1 ≠ 0 then
      return (false, res.2)
    inOrder serve routines res.2

/-! ## The barometer -/

namespace Bmp581

structure OsrOdrPressConfig where
  osrT : UInt8
  osrP : UInt8
  pressEn : UInt8
  odr : UInt8

structure IntSourceSelect where
  drdyEn : UInt8
  fifoFullEn : UInt8
  fifoThresEn : UInt8
  oorPressEn : UInt8

inductive IntrMode
  | pulsed
  | latched

inductive IntrPolarity
  | activeLow
  | activeHigh

inductive IntrDrive
  | pushPull
  | openDrain

inductive PowerMode
  | standby
  | normal
  | forced
  | continuous
  | deepStandby

/-- The routines that `init` calls. -/
structure Library (D : Type) where
  softReset : Routine D
  init : Routine D
  setOsrOdrPressConfig : OsrOdrPressConfig → Routine D
  intSourceSelect : IntSourceSelect → Routine D
  configureInterrupt : IntrMode → IntrPolarity → IntrDrive → Bool → Routine D
  setPowerMode : PowerMode → Routine D

/-- The members of the class, but for the protocol. -/
structure Members (D : Type) where
  dev : D
  odrConfig : OsrOdrPressConfig
  intConfig : IntSourceSelect

variable {σ D : Type} (lib : Library D)

/-- What `init` calls, in this order. -/
def initRoutines (self : Members D) : List (Routine D) :=
  [lib.softReset, lib.init, lib.setOsrOdrPressConfig self.odrConfig,
    lib.intSourceSelect self.intConfig, lib.configureInterrupt .pulsed .activeHigh .pushPull true,
    lib.setPowerMode .normal]

/-- `BMP5_ODR_240_HZ` and `BMP5_DISABLE` are 0, `BMP5_ENABLE` is 1. -/
def configured (self : Members D) : Members D :=
  { self with
    odrConfig := { self.odrConfig with odr := 0, pressEn := 1 }
    intConfig := ⟨1, 0, 0, 0⟩ }

def init (serve : ∀ c : BoschCall, Exec σ c.Reply) (self : Members D) :
    Exec σ (Bool × Members D) := do
  let self := configured self
  let res ← inOrder serve (initRoutines lib self) self.dev
  return (res.1, { self with dev := res.2 })

end Bmp581

/-! ## The inertial unit -/

namespace Bmi088

structure Config where
  power : UInt8
  range : UInt8
  bw : UInt8
  odr : UInt8

/-- The device struct; `rest` is what only the library looks at. -/
structure Struct (D : Type) where
  accelCfg : Config
  gyroCfg : Config
  rest : D

inductive IntType
  | accelDataRdy
  | gyroDataRdy

structure IntPinConfig where
  lvl : UInt8
  outputMode : UInt8
  enableIntPin : UInt8

structure IntChannelConfig where
  intChannel : ℕ
  intType : IntType
  intPinCfg : IntPinConfig

/-- The routines that `init` calls. -/
structure Library (D : Type) where
  accelSoftReset : Routine (Struct D)
  accelInit : Routine (Struct D)
  accelLoadConfigFile : Routine (Struct D)
  accelSetPowerMode : Routine (Struct D)
  accelSetMeasConf : Routine (Struct D)
  accelSetIntConfig : IntChannelConfig → Routine (Struct D)
  gyroSoftReset : Routine (Struct D)
  gyroInit : Routine (Struct D)
  gyroSetPowerMode : Routine (Struct D)
  gyroSetMeasConf : Routine (Struct D)
  gyroSetIntConfig : IntChannelConfig → Routine (Struct D)

/-- `BMI08_INT_ACTIVE_HIGH` and `BMI08_ENABLE` are 1, `BMI08_INT_MODE_PUSH_PULL` is 0. -/
def dataReadyPin : IntPinConfig := ⟨1, 0, 1⟩

variable {σ D : Type} (lib : Library D)

/-- What `init` calls, in this order. -/
def initRoutines : List (Routine (Struct D)) :=
  [lib.accelSoftReset, lib.accelInit, lib.accelLoadConfigFile, lib.accelSetPowerMode,
    lib.accelSetMeasConf, lib.accelSetIntConfig ⟨1, .accelDataRdy, dataReadyPin⟩,
    lib.gyroSoftReset, lib.gyroInit, lib.gyroSetPowerMode, lib.gyroSetMeasConf,
    lib.gyroSetIntConfig ⟨3, .gyroDataRdy, dataReadyPin⟩]

/-- Active, 24 g, normal bandwidth and 800 Hz for the accelerometer; normal, 2000 degrees a second
and 116 Hz at 1000 Hz for the gyroscope. -/
def configured (self : Struct D) : Struct D :=
  { self with
    accelCfg := { power := 0, range := 3, bw := 2, odr := 0x0B }
    gyroCfg := { power := 0, range := 0, bw := 2, odr := 2 } }

def init (serve : ∀ c : BoschCall, Exec σ c.Reply) (self : Struct D) :
    Exec σ (Bool × Struct D) :=
  inOrder serve (initRoutines lib) (configured self)

end Bmi088

/-! ## A caller that retries -/

/-- A call of an init: what it returned, and the transfers that it made. -/
structure InitAttempt (σ : Type) where
  ok : Bool
  sent : List (Sent σ)

/-- The calls of an init until one returns `true`, at most `n` of them; none behind one that
aborts. -/
def initAttempts {σ S : Type} (init : S → Exec (σ × List (Sent σ)) (Bool × S)) :
    ℕ → S → σ → List (InitAttempt σ)
  | 0, _, _ => []
  | n + 1, self, s =>
    match init self (s, []) with
    | none => []
    | some ((true, _), _, sent) => [⟨true, sent⟩]
    | some ((false, self'), s', sent) => ⟨false, sent⟩ :: initAttempts init n self' s'

/-- The init returns from every state and every object, and it returns `true` only if all of its
transfers have succeeded. -/
def NeverLies {σ S : Type} (init : S → Exec (σ × List (Sent σ)) (Bool × S)) : Prop :=
  ∀ self s log, ∃ ok self' s' sent, init self (s, log) = some ((ok, self'), s', log ++ sent) ∧
    (ok = true → ∀ e ∈ sent, e.failed = false)

/-- A caller gives up after `n` attempts, or stops at one whose transfers have all succeeded. -/
theorem NeverLies.initAttempts {σ S : Type} {init : S → Exec (σ × List (Sent σ)) (Bool × S)}
    (h : NeverLies init) (n : ℕ) (self : S) (s : σ) :
    ((initAttempts init n self s).length = n ∧ ∀ a ∈ initAttempts init n self s, a.ok = false) ∨
      ∃ failed sent, initAttempts init n self s = failed ++ [⟨true, sent⟩] ∧
        (∀ a ∈ failed, a.ok = false) ∧ ∀ e ∈ sent, e.failed = false := by
  induction n generalizing self s with
  | zero => exact .inl ⟨rfl, fun _ ha => absurd ha List.not_mem_nil⟩
  | succ n ih =>
    obtain ⟨ok, self', s', sent, hrun, hclean⟩ := h self s []
    rw [List.nil_append] at hrun
    cases ok with
    | true =>
      have hlast : Sensors.initAttempts init (n + 1) self s = [⟨true, sent⟩] := by
        rw [Sensors.initAttempts, hrun]
      exact .inr ⟨[], sent, hlast, fun _ ha => absurd ha List.not_mem_nil, hclean rfl⟩
    | false =>
      have hfirst : Sensors.initAttempts init (n + 1) self s =
          ⟨false, sent⟩ :: Sensors.initAttempts init n self' s' := by
        rw [Sensors.initAttempts, hrun]
      rw [hfirst]
      rcases ih self' s' with ⟨hlen, hall⟩ | ⟨failed, last, hsplit, hall, hlast⟩
      · exact .inl ⟨congrArg (· + 1) hlen, List.forall_mem_cons.mpr ⟨rfl, hall⟩⟩
      · refine .inr ⟨⟨false, sent⟩ :: failed, last, ?_, List.forall_mem_cons.mpr ⟨rfl, hall⟩, hlast⟩
        rw [hsplit, List.cons_append]

/-! ## The transfers of an init -/

/-- The bus aborts on nothing but an empty command. -/
structure Accepts {σ : Type} (P : Protocol σ) : Prop where
  read : ∀ cmd buffer size s, cmd ≠ [] → ∃ r, P.read cmd buffer size s = some r
  write : ∀ cmd buffer size s, cmd ≠ [] → ∃ r, P.write cmd buffer size s = some r

section Sent

variable {σ D : Type} (buses : Interface → Protocol σ) (sleep : ℕ → σ → σ) (tickRateHz : ℕ)

/-- The callbacks with a record of the transfers. -/
def tracedCallback : (c : BoschCall) → Exec (σ × List (Sent σ)) c.Reply :=
  callback (fun intf => (buses intf).traced) (fun ticks s => (sleep ticks s.1, s.2)) tickRateHz

variable {buses} (hbuses : ∀ intf, Accepts (buses intf))
include hbuses

/-- A failed transfer makes its callback return an error. -/
theorem callback_sent (c : BoschCall) (s : σ) (log : List (Sent σ)) :
    ∃ r s' sent, tracedCallback buses sleep tickRateHz c (s, log) = some (r, s', log ++ sent) ∧
      ((∃ e ∈ sent, e.failed = true) → c.Fails r) := by
  cases c with
  | read intf regAddr regData =>
    obtain ⟨⟨⟨failed, data⟩, s'⟩, hread⟩ :=
      (hbuses intf).read [regAddr] regData .byte s (List.cons_ne_nil _ _)
    refine ⟨(interfaceResult failed, data), s', [⟨s, [regAddr], failed⟩], ?_, ?_⟩
    · simp only [tracedCallback, callback, boschRead, bind_apply, Protocol.traced_read, hread,
        Option.map_some, Option.bind_some, pure_apply]
      rfl
    · rintro ⟨e, he, hfailed⟩
      obtain rfl := List.mem_singleton.mp he
      obtain rfl : failed = true := hfailed
      exact (by decide : interfaceResult true ≠ 0)
  | write intf regAddr regData =>
    obtain ⟨⟨failed, s'⟩, hwrite⟩ :=
      (hbuses intf).write [regAddr] regData .byte s (List.cons_ne_nil _ _)
    refine ⟨interfaceResult failed, s', [⟨s, [regAddr], failed⟩], ?_, ?_⟩
    · simp only [tracedCallback, callback, boschWrite, bind_apply, Protocol.traced_write, hwrite,
        Option.map_some, Option.bind_some, pure_apply]
      rfl
    · rintro ⟨e, he, hfailed⟩
      obtain rfl := List.mem_singleton.mp he
      obtain rfl : failed = true := hfailed
      exact (by decide : interfaceResult true ≠ 0)
  | delay period =>
    refine ⟨(), sleep (Delay.boschDelay tickRateHz period) s, [], ?_, ?_⟩
    · rw [List.append_nil]
      rfl
    · rintro ⟨e, he, -⟩
      exact absurd he List.not_mem_nil

theorem served_sent {s s' : σ} {log log' : List (Sent σ)}
    {trace : List (Program.Event BoschCall.Reply)}
    (h : Program.Served (tracedCallback buses sleep tickRateHz) (s, log) trace (s', log')) :
    ∃ sent, log' = log ++ sent ∧
      ((∃ e ∈ sent, e.failed = true) → ∃ e ∈ trace, e.call.Fails e.reply) := by
  induction trace generalizing s log with
  | nil =>
    obtain ⟨-, rfl⟩ := Prod.mk.inj h
    exact ⟨[], (List.append_nil _).symm, fun ⟨e, he, _⟩ => absurd he List.not_mem_nil⟩
  | cons e trace ih =>
    obtain ⟨s₁, hserve, hrest⟩ := h
    obtain ⟨r, s₂, sent, hcall, hfails⟩ := callback_sent sleep tickRateHz hbuses e.call s log
    obtain ⟨hr, rfl⟩ := Prod.mk.inj (Option.some.inj (hcall.symm.trans hserve))
    obtain ⟨sent', rfl, hfails'⟩ := ih hrest
    refine ⟨sent ++ sent', List.append_assoc _ _ _, ?_⟩
    rintro ⟨x, hx, hfailed⟩
    rcases List.mem_append.mp hx with hx | hx
    · exact ⟨e, List.mem_cons_self, hr ▸ hfails ⟨x, hx, hfailed⟩⟩
    · obtain ⟨e', he', hfail⟩ := hfails' ⟨x, hx, hfailed⟩
      exact ⟨e', List.mem_cons_of_mem e he', hfail⟩

/-- A routine that returns no error has made no transfer that failed. -/
theorem Routine.Reports.sent {routine : Routine D} (h : routine.Reports) (dev : D) (s : σ)
    (log : List (Sent σ)) :
    ∃ res s' sent, (routine dev).run (tracedCallback buses sleep tickRateHz) (s, log) =
        some (res, s', log ++ sent) ∧ (res.1 = 0 → ∀ e ∈ sent, e.failed = false) := by
  have hreturns : ∀ c t, ∃ r t', tracedCallback buses sleep tickRateHz c t = some (r, t') := by
    rintro c ⟨s, log⟩
    obtain ⟨r, s', sent, hcall, -⟩ := callback_sent sleep tickRateHz hbuses c s log
    exact ⟨r, _, hcall⟩
  obtain ⟨res, ⟨s', log'⟩, trace, hrun, hyields, hserved⟩ :=
    Program.run_served hreturns (routine dev) (s, log)
  obtain ⟨sent, rfl, hfails⟩ := served_sent sleep tickRateHz hbuses hserved
  refine ⟨res, s', sent, hrun, fun hres e he => ?_⟩
  -- a transfer that failed would be a callback of the trace that failed
  by_contra hfailed
  exact h dev trace res hyields (hfails ⟨e, he, by simpa using hfailed⟩) hres

theorem inOrder_sent {routines : List (Routine D)} (h : ∀ r ∈ routines, r.Reports) :
    NeverLies (inOrder (tracedCallback buses sleep tickRateHz) routines) := by
  induction routines with
  | nil =>
    intro dev s log
    exact ⟨true, dev, s, [], by rw [List.append_nil]; rfl,
      fun _ e he => absurd he List.not_mem_nil⟩
  | cons routine routines ih =>
    intro dev s log
    obtain ⟨hroutine, hroutines⟩ := List.forall_mem_cons.mp h
    obtain ⟨⟨ret, dev₁⟩, s₁, sent, hrun, hclean⟩ :=
      hroutine.sent sleep tickRateHz hbuses dev s log
    by_cases hret : ret = 0
    · obtain ⟨ok, dev', s', sent', hrest, hclean'⟩ := ih hroutines dev₁ s₁ (log ++ sent)
      refine ⟨ok, dev', s', sent ++ sent', ?_, fun hok => ?_⟩
      · rw [inOrder, bind_apply, hrun, Option.bind_some]
        simp only [hret, ne_eq, not_true_eq_false, if_false]
        rw [hrest, List.append_assoc]
      · exact List.forall_mem_append.mpr ⟨hclean hret, hclean' hok⟩
    · refine ⟨false, dev₁, s₁, sent, ?_, Bool.noConfusion⟩
      -- the error of the routine ends the init
      rw [inOrder, bind_apply, hrun, Option.bind_some]
      exact congrFun (if_pos hret) _

end Sent

/-! ## The two sensors -/

/-- The library with the device structs of both drivers. -/
structure BoschLibrary (D E : Type) where
  bmp5 : Bmp581.Library D
  bmi08 : Bmi088.Library E

/-- The routines that the inits call return an error if one of their transfers did. -/
structure BoschLibrary.Reports {D E : Type} (lib : BoschLibrary D E) : Prop where
  bmp5 : ∀ self, ∀ routine ∈ Bmp581.initRoutines lib.bmp5 self, routine.Reports
  bmi08 : ∀ routine ∈ Bmi088.initRoutines lib.bmi08, routine.Reports

inductive BoschSensor (D E : Type)
  | bmp581 (self : Bmp581.Members D)
  | bmi088 (self : Bmi088.Struct E)

/-- The `init` of the sensor, and the sensor after it. -/
def BoschSensor.init {σ D E : Type} (lib : BoschLibrary D E)
    (serve : ∀ c : BoschCall, Exec σ c.Reply) :
    BoschSensor D E → Exec σ (Bool × BoschSensor D E)
  | bmp581 self => do
    let res ← Bmp581.init lib.bmp5 serve self
    return (res.1, bmp581 res.2)
  | bmi088 self => do
    let res ← Bmi088.init lib.bmi08 serve self
    return (res.1, bmi088 res.2)

section Sensors

variable {σ D E : Type} {lib : BoschLibrary D E} (hlib : lib.Reports)
variable {buses : Interface → Protocol σ} (hbuses : ∀ intf, Accepts (buses intf))
variable (sleep : ℕ → σ → σ) (tickRateHz : ℕ)
include hlib hbuses

theorem BoschSensor.init_neverLies :
    NeverLies (BoschSensor.init lib (tracedCallback buses sleep tickRateHz)) := by
  intro sensor s log
  cases sensor with
  | bmp581 self =>
    obtain ⟨ok, dev', s', sent, hrun, hclean⟩ :=
      inOrder_sent sleep tickRateHz hbuses (hlib.bmp5 (Bmp581.configured self))
        (Bmp581.configured self).dev s log
    refine ⟨ok, .bmp581 { Bmp581.configured self with dev := dev' }, s', sent, ?_, hclean⟩
    rw [BoschSensor.init, bind_apply, Bmp581.init, bind_apply, hrun]
    rfl
  | bmi088 self =>
    obtain ⟨ok, dev', s', sent, hrun, hclean⟩ :=
      inOrder_sent sleep tickRateHz hbuses hlib.bmi08 (Bmi088.configured self) s log
    refine ⟨ok, .bmi088 dev', s', sent, ?_, hclean⟩
    rw [BoschSensor.init, bind_apply, Bmi088.init, hrun]
    rfl

/-- **A caller that retries the init of a Bosch sensor stops only at an attempt whose transfers have
all succeeded**, whatever the buses, whatever the state in which the attempts before have left them
and the sensor, and whatever the library does between its transfers. -/
theorem BoschSensor.initAttempts_truthful (n : ℕ) (sensor : BoschSensor D E) (s : σ) :
    let attempts := initAttempts
      (BoschSensor.init lib (tracedCallback buses sleep tickRateHz)) n sensor s
    (attempts.length = n ∧ ∀ a ∈ attempts, a.ok = false) ∨
      ∃ failed sent, attempts = failed ++ [⟨true, sent⟩] ∧ (∀ a ∈ failed, a.ok = false) ∧
        ∀ e ∈ sent, e.failed = false :=
  (BoschSensor.init_neverLies hlib hbuses sleep tickRateHz).initAttempts n sensor s

end Sensors

/-- A routine that writes one register. -/
def writeOnce (D : Type) (intf : Interface) : Routine D := fun dev =>
  .call (.write intf 0x7E [0xB6]) fun (r : Int8) => .done (r, dev)

theorem writeOnce_yields {D : Type} {intf : Interface} {dev : D}
    {trace : List (Program.Event BoschCall.Reply)} {res : Int8 × D}
    (h : (writeOnce D intf dev).Yields trace res) :
    trace = [⟨.write intf 0x7E [0xB6], res.1⟩] ∧ res.2 = dev := by
  cases h with
  | call h =>
    cases h with
    | done => exact ⟨rfl, rfl⟩

theorem writeOnce_reports (D : Type) (intf : Interface) : (writeOnce D intf).Reports := by
  intro dev trace res hyields hfails
  obtain ⟨rfl, -⟩ := writeOnce_yields hyields
  obtain ⟨e, he, hfail⟩ := hfails
  obtain rfl := List.mem_singleton.mp he
  exact hfail

/-- A library of such routines. -/
def writeOnceLibrary : BoschLibrary Unit Unit :=
  let pressure := writeOnce Unit .barometer
  let accel := writeOnce (Bmi088.Struct Unit) .accel
  let gyro := writeOnce (Bmi088.Struct Unit) .gyro
  { bmp5 := ⟨pressure, pressure, fun _ => pressure, fun _ => pressure,
      fun _ _ _ _ => pressure, fun _ => pressure⟩
    bmi08 := ⟨accel, accel, accel, accel, accel, fun _ => accel, gyro, gyro, gyro, gyro,
      fun _ => gyro⟩ }

/-- Every routine that the inertial unit calls is one of them. -/
theorem mem_writeOnceLibrary {routine : Routine (Bmi088.Struct Unit)}
    (h : routine ∈ Bmi088.initRoutines writeOnceLibrary.bmi08) :
    ∃ intf, routine = writeOnce _ intf := by
  have hall : Bmi088.initRoutines writeOnceLibrary.bmi08 =
    List.replicate 6 (writeOnce (Bmi088.Struct Unit) .accel) ++
      List.replicate 5 (writeOnce (Bmi088.Struct Unit) .gyro) := rfl
  rw [hall] at h
  rcases List.mem_append.mp h with h | h
  · exact ⟨.accel, List.eq_of_mem_replicate h⟩
  · exact ⟨.gyro, List.eq_of_mem_replicate h⟩

theorem writeOnceLibrary_reports : writeOnceLibrary.Reports where
  bmp5 self routine h := by
    have hall : Bmp581.initRoutines writeOnceLibrary.bmp5 self =
      List.replicate 6 (writeOnce Unit .barometer) := rfl
    rw [hall] at h
    rw [List.eq_of_mem_replicate h]
    exact writeOnce_reports Unit .barometer
  bmi08 routine h := by
    obtain ⟨intf, rfl⟩ := mem_writeOnceLibrary h
    exact writeOnce_reports _ intf

/-- The bus of an `SPI` object aborts on nothing but an empty command. -/
theorem accepts_spi (script : SpiScript) (spi : Spi) : Accepts (Spi.bus script spi) where
  read cmd buffer size s hcmd := by
    obtain ⟨res, s', hrun, -⟩ := Spi.read_transaction script spi hcmd buffer size s
    exact ⟨_, hrun⟩
  write cmd buffer size s hcmd := by
    obtain ⟨res, s', hrun, -⟩ := Spi.write_transaction script spi hcmd buffer size s
    exact ⟨_, hrun⟩

/-- A transmit of the second register write times out, and the second attempt succeeds. -/
theorem BoschSensor.initAttempts_truthful_retry :
    let script : SpiScript :=
      ⟨fun k => if k = 5 then .timeout else .ok, fun _ buffer => buffer⟩
    let bus := Spi.bus script (Spi.new 0x10)
    let sensor : BoschSensor Unit Unit := .bmp581 ⟨(), ⟨0, 0, 0, 0⟩, ⟨0, 0, 0, 0⟩⟩
    let attempts := initAttempts (BoschSensor.init writeOnceLibrary
      (tracedCallback (fun _ => bus) (fun _ s => s) 1000)) 5 sensor ⟨0xFFFF, []⟩
    attempts.map (·.ok) = [false, true] ∧
      ∃ failed sent, attempts = failed ++ [⟨true, sent⟩] ∧ (∀ a ∈ failed, a.ok = false) ∧
        ∀ e ∈ sent, e.failed = false := by
  intro script bus sensor attempts
  have hok : attempts.map (·.ok) = [false, true] := by
    simp only [attempts, sensor, bus, script]
    decide +kernel
  have hlen : attempts.length ≠ 5 := by
    rw [← List.length_map (·.ok), hok]
    decide
  exact ⟨hok, (initAttempts_truthful writeOnceLibrary_reports
    (fun _ => accepts_spi _ _) _ _ 5 sensor _).resolve_left fun h => hlen h.1⟩

end CommonDrivers.Sensors
