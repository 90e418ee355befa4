import CommonDrivers.Sensors.Bosch
import CommonDrivers.Sensors.Honest
import CommonDrivers.Tasks.SavedPackets

/-! # The order of the sensors

The span of a sensor task holds the sensors in some order, with null pointers in between. Each of
the three sensors writes fields of its own, and what it writes does not depend on the packet, so the
order is of no consequence: given what the devices and the tick counter hold in each round, in no
interleaving does it change a packet that is committed.
-/

namespace CommonDrivers.Sensors

variable {F : Type}

/-! ## The fields that no sensor has -/

/-- `q` has the values of `p` in all fields that no code of the drivers writes. -/
structure Packet.SameUnsensed (p q : Packet F) : Prop where
  magic : q.magic = p.magic
  status : q.status = p.status
  voltages : (q.mainVoltageV, q.pyroVoltageV) = (p.mainVoltageV, p.pyroVoltageV)
  gauss : (q.gaussX, q.gaussY, q.gaussZ) = (p.gaussX, p.gaussY, p.gaussZ)
  kf : (q.kfAccelerationMss, q.kfVelocityMs) = (p.kfAccelerationMss, p.kfVelocityMs)
  quaternion : (q.w, q.x, q.y, q.z) = (p.w, p.x, p.y, p.z)

theorem Packet.SameUnsensed.refl (p : Packet F) : p.SameUnsensed p := ⟨rfl, rfl, rfl, rfl, rfl, rfl⟩

theorem Packet.SameUnsensed.trans {p q r : Packet F} (h : p.SameUnsensed q)
    (h' : q.SameUnsensed r) : p.SameUnsensed r where
  magic := h'.magic.trans h.magic
  status := h'.status.trans h.status
  voltages := h'.voltages.trans h.voltages
  gauss := h'.gauss.trans h.gauss
  kf := h'.kf.trans h.kf
  quaternion := h'.quaternion.trans h.quaternion

namespace Source

variable [CMath F]

/-! ## What a read makes of the packet -/

inductive Kind
  | gps
  | bmp581
  | bmi088
deriving DecidableEq, Repr

/-- Which sensor it is. -/
def kind : Source F → Kind
  | gps .. => .gps
  | bmp581 .. => .bmp581
  | bmi088 .. => .bmi088

/-- The `read` as the sensor task calls it. -/
def reader (source : Source F) : SensorRead F := fun p => (source.read p).getD (false, p)

/-- What the `read` makes of a packet. -/
def update (source : Source F) (p : Packet F) : Packet F := (source.reader p).2

/-- The receiver leaves every packet alone or stores the same fields in every packet. -/
theorem gps_update (buffer : GpsBuffer) (beyond : List UInt8) :
    (∀ p : Packet F, (gps buffer beyond).update p = p) ∨
      ∃ fields, ∀ p : Packet F, (gps buffer beyond).update p = Gps.store fields p := by
  -- whether there is a sentence does not depend on the packet
  cases hscan : Gps.scan (buffer.bytes ++ beyond) with
  | none =>
    left
    intro p
    simp only [update, reader, read, Gps.read, hscan]
    rfl
  | some start =>
    cases hsplit : Gps.split (Gps.copyLine 119 start) with
    | none =>
      left
      intro p
      simp only [update, reader, read, Gps.read, hscan, hsplit]
      rfl
    | some s =>
      by_cases hfields : s.fieldIndex < 9
      · left
        intro p
        simp only [update, reader, read, Gps.read, hscan, hsplit, Option.map_some, if_pos hfields]
        rfl
      · right
        refine ⟨s.fields, fun p => ?_⟩
        simp only [update, reader, read, Gps.read, hscan, hsplit, Option.map_some, if_neg hfields]
        rfl

/-- The reads of different sensors commute. -/
theorem update_comm {x y : Source F} (h : x.kind ≠ y.kind) (p : Packet F) :
    x.update (y.update p) = y.update (x.update p) := by
  have gps_comm : ∀ buffer beyond (y : Source F), y.kind ≠ .gps →
      (gps buffer beyond).update (y.update p) = y.update ((gps buffer beyond).update p) := by
    intro buffer beyond y hy
    rcases gps_update (F := F) buffer beyond with hsame | ⟨fields, hstore⟩
    · rw [hsame, hsame]
    · rw [hstore, hstore]
      cases y with
      | gps buffer' beyond' => exact absurd rfl hy
      | bmp581 o => rfl
      | bmi088 dev a g => rfl
  cases x with
  | gps buffer beyond => exact gps_comm buffer beyond y h.symm
  | bmp581 o =>
    cases y with
    | gps buffer beyond => exact (gps_comm buffer beyond _ h).symm
    | bmp581 o' => exact absurd rfl h
    | bmi088 dev a g => rfl
  | bmi088 dev a g =>
    cases y with
    | gps buffer beyond => exact (gps_comm buffer beyond _ h).symm
    | bmp581 o => rfl
    | bmi088 dev' a' g' => exact absurd rfl h

/-- A read keeps the fields that no sensor has. -/
theorem update_sameUnsensed (source : Source F) (p : Packet F) :
    p.SameUnsensed (source.update p) := by
  cases source with
  | gps buffer beyond =>
    rcases gps_update (F := F) buffer beyond with hsame | ⟨fields, hstore⟩
    · rw [hsame]
      exact .refl p
    · rw [hstore]
      exact ⟨rfl, rfl, rfl, rfl, rfl, rfl⟩
  | bmp581 o => exact ⟨rfl, rfl, rfl, rfl, rfl, rfl⟩
  | bmi088 dev a g => exact ⟨rfl, rfl, rfl, rfl, rfl, rfl⟩

end Source

end CommonDrivers.Sensors

namespace CommonDrivers.Tasks

open Sensors

variable {F τ : Type} [CMath F]

/-! ## Rounds over a span of sensors -/

/-- What a task has of a sensor: what its read is given in each round. -/
abbrev Device (F : Type) : Type := ℕ → Source F

/-- The surroundings with a span of sensors. -/
def SensorEnv.withSpan (env : SensorEnv F) (span : List (Option (Device F))) : SensorEnv F :=
  { env with
    sensors := span.map fun sensor => sensor.map fun device cycle => (device cycle).reader }

/-- No two different devices of the span are of one kind. -/
def OneOfEach (span : List (Option (Device F))) : Prop :=
  ∀ x ∈ span.filterMap id, ∀ y ∈ span.filterMap id, ∀ cycle, (x cycle).kind = (y cycle).kind → x = y

/-- The reads of a round, without the null pointers. -/
theorem readSensors_span (cycle : ℕ) (span : List (Option (Device F))) (p : Packet F) :
    SensorEnv.readSensors cycle
        (span.map fun sensor => sensor.map fun device cycle => (device cycle).reader) p =
      (span.filterMap id).foldl (fun p device => (device cycle).update p) p := by
  induction span generalizing p with
  | nil => rfl
  | cons sensor span ih =>
    cases sensor with
    | none => exact ih p
    | some device => exact ih _

section Order

variable (env : SensorEnv F) {span span' : List (Option (Device F))}

/-- The order of the sensors does not change what a round makes of a packet. -/
theorem refresh_perm (hspan : OneOfEach span)
    (hperm : (span.filterMap id).Perm (span'.filterMap id)) (cycle : ℕ) (p : Packet F) :
    (env.withSpan span).refresh cycle p = (env.withSpan span').refresh cycle p := by
  have hread : SensorEnv.readSensors cycle (env.withSpan span).sensors p =
      SensorEnv.readSensors cycle (env.withSpan span').sensors p := by
    refine (readSensors_span cycle span p).trans (Eq.trans ?_ (readSensors_span cycle span' p).symm)
    refine hperm.foldl_eq' (fun x hx y hy q => ?_) p
    -- two sensors of one kind are the same device
    by_cases hkind : (x cycle).kind = (y cycle).kind
    · rw [hspan x hx y hy cycle hkind]
    · exact (Source.update_comm hkind q).symm
  rw [SensorEnv.refresh, SensorEnv.refresh, hread]
  rfl

theorem committed_perm (hspan : OneOfEach span)
    (hperm : (span.filterMap id).Perm (span'.filterMap id)) (p : Packet F) (n : ℕ) :
    (env.withSpan span).committed p n = (env.withSpan span').committed p n := by
  induction n with
  | zero => rfl
  | succ n ih => rw [SensorEnv.committed, SensorEnv.committed, ih, refresh_perm env hspan hperm]

/-- A round keeps the fields that no sensor has. -/
theorem refresh_sameUnsensed (span : List (Option (Device F))) (cycle : ℕ) (p : Packet F) :
    p.SameUnsensed ((env.withSpan span).refresh cycle p) := by
  have hread : ∀ (devices : List (Device F)) (p : Packet F),
      p.SameUnsensed (devices.foldl (fun p device => (device cycle).update p) p) := by
    intro devices
    induction devices with
    | nil => exact .refl
    | cons device devices ih =>
      exact fun p => ((device cycle).update_sameUnsensed p).trans (ih _)
  have h := hread (span.filterMap id) p
  rw [← readSensors_span] at h
  exact ⟨h.magic, h.status, h.voltages, h.gauss, h.kf, h.quaternion⟩

theorem committed_sameUnsensed (span : List (Option (Device F))) (p : Packet F) (n : ℕ) :
    p.SameUnsensed ((env.withSpan span).committed p n) := by
  induction n with
  | zero => exact .refl p
  | succ n ih => exact ih.trans (refresh_sameUnsensed env span n _)

end Order

namespace System

variable [DecidableEq τ]

/-- **For the same device data and tick count in each round, the packets that are committed depend
neither on the order of the sensors in the span, nulls included, nor on the interleaving**: of two
runs, one commits what the other does and perhaps more. The fields that no sensor has keep their
first values in every commit. -/
theorem run_sensor_order (env : SensorEnv F) (handle handle' : τ)
    {span span' : List (Option (Device F))} (hspan : OneOfEach span)
    (hperm : (span.filterMap id).Perm (span'.filterMap id)) {s s' : System F τ}
    (h : s.Booted (env.withSpan span)) (h' : s'.Booted (env.withSpan span'))
    (hmem : s.shared.mem.read = s'.shared.mem.read) (acts acts' : List SystemAct) :
    let commits := commitsIn (run (env.withSpan span) handle s acts).shared.log
    let commits' := commitsIn (run (env.withSpan span') handle' s' acts').shared.log
    (commits <+: commits' ∨ commits' <+: commits) ∧
      ∀ q ∈ commits, s.shared.mem.read.SameUnsensed q := by
  intro commits commits'
  obtain ⟨n, hn⟩ : ∃ n, commits = (List.range n).map fun k =>
      (env.withSpan span).committed s.shared.mem.read (k + 1) :=
    ⟨_, (h.run_recording acts).commits⟩
  obtain ⟨n', hn'⟩ : ∃ n, commits' = (List.range n).map fun k =>
      (env.withSpan span).committed s.shared.mem.read (k + 1) := by
    refine ⟨_, (h'.run_recording acts').commits.trans (List.map_congr_left fun k _ => ?_)⟩
    rw [committed_perm env hspan hperm, hmem]
  constructor
  · -- both logs are beginnings of one sequence
    have htake : ∀ {m m' : ℕ}, m ≤ m' → List.range m <+: List.range m' := fun hm => by
      rw [← Nat.min_eq_left hm, ← List.take_range]
      exact List.take_prefix _ _
    rw [hn, hn']
    rcases Nat.le_total n n' with hle | hle
    · exact .inl ((htake hle).map _)
    · exact .inr ((htake hle).map _)
  · intro q hq
    rw [hn] at hq
    obtain ⟨k, -, rfl⟩ := List.mem_map.mp hq
    exact committed_sameUnsensed env span _ _

/-- The two Bosch sensors in either order, with a null pointer in between or without. -/
theorem run_sensor_order_bosch :
    let bmp581 : Device ℝ := fun _ => .bmp581 ⟨0, 101325, 15⟩
    let bmi088 : Device ℝ := fun _ => .bmi088 ⟨3, 0⟩ ⟨0, 1, 2, 3⟩ ⟨0, 4, 5, 6⟩
    let env : SensorEnv ℝ := ⟨[], 0, fun _ => 0, 1, 1000, fun _ => 0, fun _ => 0⟩
    let s : System ℝ Unit := ⟨SensorTask.start env, .subscribe,
      ⟨.initial Packet.initial, Registry.fresh, ⟨fun _ => 0, fun _ => false, []⟩, []⟩⟩
    let commits (span : List (Option (Device ℝ))) (n : ℕ) :=
      commitsIn (run (env.withSpan span) () s (List.replicate n .sensor)).shared.log
    commits [some bmp581, none, some bmi088] 14 <+: commits [some bmi088, some bmp581] 30 ∨
      commits [some bmi088, some bmp581] 30 <+: commits [some bmp581, none, some bmi088] 14 := by
  intro bmp581 bmi088 env s commits
  have hspan : OneOfEach [some bmp581, none, some bmi088] := by
    intro x hx y hy cycle hkind
    simp only [List.filterMap_cons, id, List.filterMap_nil, List.mem_cons, List.not_mem_nil,
      or_false] at hx hy
    rcases hx with rfl | rfl
    · rcases hy with rfl | rfl
      · rfl
      · cases hkind
    · rcases hy with rfl | rfl
      · cases hkind
      · rfl
  have hperm : ([some bmp581, none, some bmi088].filterMap id).Perm
    ([some bmi088, some bmp581].filterMap id) := .swap bmi088 bmp581 []
  have hboot : s.Booted (env.withSpan [some bmp581, none, some bmi088]) := ⟨rfl, rfl, rfl⟩
  have hboot' : s.Booted (env.withSpan [some bmi088, some bmp581]) := ⟨rfl, rfl, rfl⟩
  exact (run_sensor_order env () () hspan hperm hboot hboot' rfl (List.replicate 14 .sensor)
    (List.replicate 30 .sensor)).1

end System

end CommonDrivers.Tasks
