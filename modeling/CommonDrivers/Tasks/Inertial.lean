import CommonDrivers.Sensors.FullScale
import CommonDrivers.Tasks.SensorSpan

/-! # The inertial readings of a run

With an inertial unit among the sensors, every packet that is committed carries the raw values of
its own round in SI units, wherever the unit stands in the span, however the tasks are interleaved,
and whether or not the init of the unit has succeeded.
-/

namespace CommonDrivers.Sensors

variable {F : Type}

/-! ## The fields of the inertial unit -/

/-- The accelerations and the angular velocities. -/
def Packet.inertial (p : Packet F) : List F × List F :=
  ([p.accelerationXMss, p.accelerationYMss, p.accelerationZMss],
    [p.angularVelocityXRads, p.angularVelocityYRads, p.angularVelocityZRads])

section Update

variable [CMath F]

/-- The values that a read of the inertial unit stores. -/
def Bmi088.converted (dev : Bmi088.Dev) (accel gyro : Bmi088.SensorData) : List F × List F :=
  ([accel.x, accel.y, accel.z].map (Bmi088.convertAccelAxisData dev),
    [gyro.x, gyro.y, gyro.z].map (Bmi088.convertGyroAxisData dev))

theorem Source.update_bmi088_inertial (dev : Bmi088.Dev) (a g : Outcome Bmi088.SensorData)
    (p : Packet F) :
    ((Source.bmi088 dev a g).update p).inertial = Bmi088.converted dev a.data g.data := rfl

theorem Source.update_other_inertial {source : Source F} (h : source.kind ≠ .bmi088)
    (p : Packet F) : (source.update p).inertial = p.inertial := by
  cases source with
  | gps buffer beyond =>
    rcases Source.gps_update (F := F) buffer beyond with hsame | ⟨fields, hstore⟩
    · rw [hsame]
    · rw [hstore]
      rfl
  | bmp581 o => rfl
  | bmi088 dev a g => exact absurd rfl h

end Update

/-- The acceleration of a raw value at 24 g, in m/s². -/
noncomputable def accelerationMss (raw : Int16) : ℝ := raw.toInt * (24 * 9.81) / 32768

/-- The angular velocity of a raw value at 2000 degrees a second, in rad/s. -/
noncomputable def angularVelocityRads (raw : Int16) : ℝ :=
  raw.toInt * 2000 / 32768 * (Real.pi / 180)

theorem converted_real (accel gyro : Bmi088.SensorData) :
    Bmi088.converted ⟨3, 0⟩ accel gyro =
      ([accel.x, accel.y, accel.z].map accelerationMss,
        [gyro.x, gyro.y, gyro.z].map angularVelocityRads) := by
  have haccel : (Bmi088.convertAccelAxisData ⟨3, 0⟩ : Int16 → ℝ) = accelerationMss := by
    funext raw
    rw [Bmi088.convertAccelAxisData_real, accelerationMss]
    norm_num [show (3 : UInt8).toNat = 3 from rfl]
  have hgyro : (Bmi088.convertGyroAxisData ⟨3, 0⟩ : Int16 → ℝ) = angularVelocityRads := by
    funext raw
    rw [Bmi088.convertGyroAxisData_real, if_pos (by decide), angularVelocityRads]
    norm_num [show (0 : UInt8).toNat = 0 from rfl]
  unfold Bmi088.converted
  rw [haccel, hgyro]

/-- A raw value is a part of the full scale. -/
theorem abs_toInt_le (raw : Int16) : |(raw.toInt : ℝ)| ≤ 32768 := by
  have hlo : ((-2 ^ 15 : ℤ) : ℝ) ≤ raw.toInt := Int.cast_le.mpr raw.le_toInt
  have hhi : (raw.toInt : ℝ) ≤ ((2 ^ 15 : ℤ) : ℝ) := Int.cast_le.mpr raw.toInt_lt.le
  norm_num at hlo hhi
  exact abs_le.mpr ⟨hlo, hhi⟩

theorem abs_accelerationMss_le (raw : Int16) : |accelerationMss raw| ≤ 24 * 9.81 := by
  have hraw := abs_toInt_le raw
  rw [accelerationMss, abs_div, abs_mul, abs_of_pos (by norm_num : (0 : ℝ) < 24 * 9.81),
    abs_of_pos (by norm_num : (0 : ℝ) < 32768), div_le_iff₀ (by norm_num)]
  linarith

theorem abs_angularVelocityRads_le (raw : Int16) :
    |angularVelocityRads raw| ≤ 2000 * (Real.pi / 180) := by
  have hpi : 0 < Real.pi / 180 := div_pos Real.pi_pos (by norm_num)
  have hraw : |(raw.toInt : ℝ) * 2000 / 32768| ≤ 2000 := by
    have hle := abs_toInt_le raw
    rw [abs_div, abs_mul, abs_of_pos (by norm_num : (0 : ℝ) < 2000),
      abs_of_pos (by norm_num : (0 : ℝ) < 32768), div_le_iff₀ (by norm_num)]
    linarith
  rw [angularVelocityRads, abs_mul, abs_of_pos hpi]
  exact mul_le_mul_of_nonneg_right hraw hpi.le

end CommonDrivers.Sensors

namespace CommonDrivers.Tasks

open Sensors

variable {F τ : Type} [CMath F]

/-! ## The readings of a round -/

theorem foldl_other_inertial {cycle : ℕ} {devices : List (Device F)}
    (h : ∀ device ∈ devices, (device cycle).kind ≠ .bmi088) (p : Packet F) :
    (devices.foldl (fun p device => (device cycle).update p) p).inertial = p.inertial := by
  induction devices generalizing p with
  | nil => rfl
  | cons device devices ih =>
    obtain ⟨hdevice, hdevices⟩ := List.forall_mem_cons.mp h
    rw [List.foldl_cons, ih hdevices, Source.update_other_inertial hdevice]

/-- The last read of an inertial unit decides. -/
theorem foldl_bmi088_inertial {cycle : ℕ} {devices : List (Device F)} {device : Device F}
    (hmem : device ∈ devices)
    (hunique : ∀ other ∈ devices, (other cycle).kind = .bmi088 → other = device)
    {dev : Bmi088.Dev} {a g : Outcome Bmi088.SensorData} (hdevice : device cycle = .bmi088 dev a g)
    (p : Packet F) :
    (devices.foldl (fun p device => (device cycle).update p) p).inertial =
      Bmi088.converted dev a.data g.data := by
  induction devices generalizing p with
  | nil => exact absurd hmem List.not_mem_nil
  | cons first devices ih =>
    obtain ⟨hfirst, hrest⟩ := List.forall_mem_cons.mp hunique
    rw [List.foldl_cons]
    -- the device may stand in the span more than once
    by_cases hlater : device ∈ devices
    · exact ih hlater hrest _
    · obtain rfl : device = first := (List.mem_cons.mp hmem).resolve_right hlater
      have hother : ∀ other ∈ devices, (other cycle).kind ≠ .bmi088 := by
        intro other hin hkind
        exact hlater (hrest other hin hkind ▸ hin)
      rw [foldl_other_inertial hother, hdevice]
      exact Source.update_bmi088_inertial dev a g p

theorem refresh_inertial (env : SensorEnv F) {span : List (Option (Device F))}
    (hspan : OneOfEach span) {device : Device F} (hmem : some device ∈ span) {cycle : ℕ}
    {dev : Bmi088.Dev} {a g : Outcome Bmi088.SensorData} (hdevice : device cycle = .bmi088 dev a g)
    (p : Packet F) :
    ((env.withSpan span).refresh cycle p).inertial = Bmi088.converted dev a.data g.data := by
  have hin : device ∈ span.filterMap id := List.mem_filterMap.mpr ⟨some device, hmem, rfl⟩
  have hunique : ∀ other ∈ span.filterMap id, (other cycle).kind = .bmi088 → other = device := by
    intro other hother hkind
    refine hspan other hother device hin cycle (hkind.trans ?_)
    rw [hdevice]
    rfl
  have hread := foldl_bmi088_inertial hin hunique hdevice p
  rw [← readSensors_span] at hread
  exact hread

namespace System

variable [DecidableEq τ]

/-- **Every packet that is committed has the raw values of its own round in SI units**, and so
within the full scale, in every interleaving, if the inertial unit is in the span, with at most one
device of each kind, and has in all rounds the ranges that an `init` left, with whatever result, in
which the library kept the configurations it was given. -/
theorem run_inertial (env : SensorEnv ℝ) (handle : τ) {span : List (Option (Device ℝ))}
    (hspan : OneOfEach span) {device : Device ℝ} (hmem : some device ∈ span) {s : System ℝ τ}
    (h : s.Booted (env.withSpan span)) {σ D : Type} {serve : ∀ c : BoschCall, Exec σ c.Reply}
    {lib : Bmi088.Library D} (hlib : ∀ r ∈ Bmi088.initRoutines lib, Bmi088.KeepsConfig r)
    {self self' : Bmi088.Struct D} {t t' : σ} {ok : Bool}
    (hinit : Bmi088.init lib serve self t = some ((ok, self'), t'))
    {accel gyro : ℕ → Outcome Bmi088.SensorData}
    (hdevice : ∀ cycle, device cycle = .bmi088 self'.ranges (accel cycle) (gyro cycle))
    (acts : List SystemAct) (k : ℕ) (q : Packet ℝ)
    (hq : (commitsIn (run (env.withSpan span) handle s acts).shared.log)[k]? = some q) :
    q.inertial =
        ([(accel k).data.x, (accel k).data.y, (accel k).data.z].map accelerationMss,
          [(gyro k).data.x, (gyro k).data.y, (gyro k).data.z].map angularVelocityRads) ∧
      (∀ x ∈ q.inertial.1, |x| ≤ 24 * 9.81) ∧
      ∀ x ∈ q.inertial.2, |x| ≤ 2000 * (Real.pi / 180) := by
  have hvalues : q.inertial =
      ([(accel k).data.x, (accel k).data.y, (accel k).data.z].map accelerationMss,
        [(gyro k).data.x, (gyro k).data.y, (gyro k).data.z].map angularVelocityRads) := by
    have hrec : Recording (env.withSpan span) s.shared.mem.read
        (run (env.withSpan span) handle s acts) := h.run_recording acts
    rw [hrec.commits, List.getElem?_map] at hq
    obtain ⟨j, hj, rfl⟩ := Option.map_eq_some_iff.mp hq
    obtain ⟨-, rfl⟩ := List.getElem?_eq_some_iff.mp hj
    rw [List.getElem_range, SensorEnv.committed, refresh_inertial env hspan hmem (hdevice k),
      Bmi088.init_ranges hlib hinit, converted_real]
  refine ⟨hvalues, ?_, ?_⟩
  · rw [hvalues]
    intro x hx
    obtain ⟨raw, -, rfl⟩ := List.mem_map.mp hx
    exact abs_accelerationMss_le raw
  · rw [hvalues]
    intro x hx
    obtain ⟨raw, -, rfl⟩ := List.mem_map.mp hx
    exact abs_angularVelocityRads_le raw

/-- The init of the unit has failed at its first transfer. -/
theorem run_inertial_failed_init :
    let accel : Outcome Bmi088.SensorData := ⟨-1, ⟨100, -200, 300⟩⟩
    let gyro : Outcome Bmi088.SensorData := ⟨0, ⟨4, 5, 6⟩⟩
    let unit : Device ℝ := fun _ => .bmi088 ⟨3, 0⟩ accel gyro
    let env : SensorEnv ℝ := ⟨[], 0, fun _ => 0, 1, 1000, fun _ => 0, fun _ => 0⟩
    let s : System ℝ Unit := ⟨SensorTask.start env, .subscribe,
      ⟨.initial Packet.initial, Registry.fresh, ⟨fun _ => 0, fun _ => false, []⟩, []⟩⟩
    ∃ q, (commitsIn (run (env.withSpan [none, some unit]) () s
        (List.replicate 14 .sensor)).shared.log)[0]? = some q ∧
      q.inertial.1 = [100, -200, 300].map accelerationMss := by
  intro accel gyro unit env s
  have hspan : OneOfEach [none, some unit] := by
    intro x hx y hy _ _
    obtain rfl : x = unit := List.mem_singleton.mp hx
    exact (List.mem_singleton.mp hy).symm
  have hboot : s.Booted (env.withSpan [none, some unit]) := ⟨rfl, rfl, rfl⟩
  have hkeeps : ∀ r ∈ Bmi088.initRoutines writeOnceLibrary.bmi08, Bmi088.KeepsConfig r := by
    intro r hr dev trace res hyields
    obtain ⟨intf, rfl⟩ := mem_writeOnceLibrary hr
    rw [(writeOnce_yields hyields).2]
    exact ⟨rfl, rfl⟩
  let bus := scriptedBus .spi (fun k => decide (k = 0)) fun _ buffer => buffer
  have hinit : Bmi088.init writeOnceLibrary.bmi08 (callback (fun _ => bus) (fun _ t => t) 1000)
      ⟨⟨9, 9, 9, 9⟩, ⟨9, 9, 9, 9⟩, ()⟩ [] =
      some ((false, ⟨⟨0, 3, 2, 0x0B⟩, ⟨0, 0, 2, 2⟩, ()⟩), [true]) := rfl
  obtain ⟨q, hq⟩ : ∃ q, (commitsIn (run (env.withSpan [none, some unit]) () s
    (List.replicate 14 .sensor)).shared.log)[0]? = some q := ⟨_, rfl⟩
  have hmem : some unit ∈ [none, some unit] := List.mem_cons_of_mem _ List.mem_cons_self
  exact ⟨q, hq, congrArg Prod.fst (run_inertial env () hspan hmem hboot hkeeps hinit (fun _ => rfl)
    (List.replicate 14 .sensor) 0 q hq).1⟩

end System

end CommonDrivers.Tasks
