import CommonDrivers.Tasks.SensorTask

/-! # Runs of the sensor task

The task on its own, from the top of the loop, for any number of steps. `Tally` is the bookkeeping
of a run: where each statement of the loop stands in the sequence of steps, and what the log has
counted by then. `Staged` follows the packet through a round.
-/

namespace CommonDrivers.Tasks

open Sensors

variable {F τ : Type} [DecidableEq τ]

/-! ## Counting steps and calls -/

def Event.isDelay : Event F → Bool
  | .delayUntil _ _ => true
  | _ => false

/-- The steps taken, the counter of the loop, and the calls in the log. -/
@[ext] structure Tally where
  steps : ℕ
  counter : ℕ
  commits : ℕ
  telemetry : ℕ
  staging : ℕ
  delays : ℕ

namespace SensorTask

/-- The tally of a state. -/
def tally (steps : ℕ) (t : SensorTask) (log : List (Event F)) : Tally where
  steps := steps
  counter := t.counter.toNat
  commits := log.countP Event.isCommit
  telemetry := log.countP (Event.isPublish TaskEvent.Telemetry)
  staging := log.countP (Event.isPublish TaskEvent.Staging)
  delays := log.countP Event.isDelay

/-- The steps of `n` rounds: every second round has one more, the publish of `Telemetry`. -/
def rounds (env : SensorEnv F) (n : ℕ) : ℕ := n * (env.sensors.length + 7) + n / 2

/-- The tally of each statement in each round. -/
def expected (env : SensorEnv F) (t : SensorTask) : Tally :=
  let c := t.cycle
  let len := env.sensors.length
  match t.pc with
  | .write => ⟨rounds env c, c % 2, c, c / 2, c, 0⟩
  | .sensor k => ⟨rounds env c + k + 1, c % 2, c, c / 2, c, 0⟩
  | .stamp => ⟨rounds env c + len + 2, c % 2, c, c / 2, c, 0⟩
  | .checksum => ⟨rounds env c + len + 3, c % 2, c, c / 2, c, 0⟩
  | .commit => ⟨rounds env c + len + 4, c % 2, c, c / 2, c, 0⟩
  | .count => ⟨rounds env c + len + 5, c % 2, c + 1, c / 2, c, 0⟩
  | .telemetry => ⟨rounds env c + len + 6, 0, c + 1, c / 2, c, 0⟩
  | .staging => ⟨rounds env c + len + 6 + c % 2, (c + 1) % 2, c + 1, (c + 1) / 2, c, 0⟩
  | .delay | .returned => ⟨0, 0, 0, 0, 0, 0⟩

theorem rounds_succ (env : SensorEnv F) (n : ℕ) :
    rounds env (n + 1) = rounds env n + env.sensors.length + 7 + n % 2 := by
  have hdiv : (n + 1) / 2 = n / 2 + n % 2 := by omega
  rw [rounds, rounds, Nat.add_one_mul, hdiv]
  omega

theorem rounds_mono (env : SensorEnv F) {m n : ℕ} (h : m ≤ n) : rounds env m ≤ rounds env n := by
  have := Nat.mul_le_mul_right (env.sensors.length + 7) h
  rw [rounds, rounds]
  omega

section Tally

variable (steps : ℕ) (t : SensorTask) (log : List (Event F))

theorem tally_commit (p : Packet F) : t.tally steps (log ++ [.commit p]) =
    { t.tally steps log with commits := (t.tally steps log).commits + 1 } := by
  simp [tally, Event.isCommit, Event.isPublish, Event.isDelay]

private theorem telemetry_ne_staging : TaskEvent.Telemetry ≠ TaskEvent.Staging := by decide

theorem tally_telemetry : t.tally steps (log ++ [.publish TaskEvent.Telemetry]) =
    { t.tally steps log with telemetry := (t.tally steps log).telemetry + 1 } := by
  simp [tally, Event.isCommit, Event.isPublish, Event.isDelay, telemetry_ne_staging]

theorem tally_staging : t.tally steps (log ++ [.publish TaskEvent.Staging]) =
    { t.tally steps log with staging := (t.tally steps log).staging + 1 } := by
  simp [tally, Event.isCommit, Event.isPublish, Event.isDelay, telemetry_ne_staging.symm]

end Tally

/-- The task is in its loop, inside the span, and has its expected tally. -/
structure Tallied (env : SensorEnv F) (steps : ℕ) (t : SensorTask) (log : List (Event F)) :
    Prop where
  looping : t.pc ≠ .delay ∧ t.pc ≠ .returned
  sensor_le : ∀ k, t.pc = .sensor k → k ≤ env.sensors.length
  odd : t.pc = .telemetry → t.cycle % 2 = 1
  tally_eq : t.tally steps log = t.expected env

/-- The statements outside the loop over the sensors, other than the publish of `Telemetry`. -/
def isPlain : SensorPc → Bool
  | .write | .stamp | .checksum | .commit | .count | .staging => true
  | .sensor _ | .telemetry | .delay | .returned => false

/-- At a plain statement nothing but the tally matters. -/
theorem tallied_of_plain {env : SensorEnv F} {steps : ℕ} {t : SensorTask} {log : List (Event F)}
    (hplain : isPlain t.pc = true) (heq : t.tally steps log = t.expected env) :
    t.Tallied env steps log := by
  refine ⟨⟨?_, ?_⟩, fun k => ?_, ?_, heq⟩
  all_goals
    intro hpc
    rw [hpc] at hplain
    cases hplain

theorem tallied_step {env : SensorEnv F} {steps : ℕ} {t : SensorTask} {s : Shared F τ}
    (h : t.Tallied env steps s.log) :
    (t.step env s).1.Tallied env (steps + 1) (t.step env s).2.log := by
  obtain ⟨hloop, hle, hodd, heq⟩ := h
  cases hpc : t.pc with
  | write =>
    rw [step_write hpc]
    simp only [expected, hpc, tally, Tally.mk.injEq] at heq
    refine ⟨by simp, by simp, by simp, ?_⟩
    simp only [tally, expected, Tally.mk.injEq]
    omega
  | sensor k =>
    simp only [expected, hpc, tally, Tally.mk.injEq] at heq
    have hk := hle k hpc
    cases hget : env.sensors[k]? with
    | none =>
      have hge := List.getElem?_eq_none_iff.mp hget
      rw [step_sensor_end hpc hget]
      refine tallied_of_plain rfl ?_
      simp only [tally, expected, Tally.mk.injEq]
      omega
    | some sensor =>
      have hlt := (List.getElem?_eq_some_iff.mp hget).1
      cases sensor with
      | none =>
        rw [step_sensor_null hpc hget]
        refine ⟨by simp, by simp; omega, by simp, ?_⟩
        simp only [tally, expected, Tally.mk.injEq]
        omega
      | some read =>
        rw [step_sensor_read hpc hget]
        refine ⟨by simp, by simp; omega, by simp, ?_⟩
        simp only [tally, expected, Tally.mk.injEq]
        omega
  | stamp =>
    rw [step_stamp hpc]
    simp only [expected, hpc, tally, Tally.mk.injEq] at heq
    refine tallied_of_plain rfl ?_
    simp only [tally, expected, Tally.mk.injEq]
    omega
  | checksum =>
    rw [step_checksum hpc]
    simp only [expected, hpc, tally, Tally.mk.injEq] at heq
    refine tallied_of_plain rfl ?_
    simp only [tally, expected, Tally.mk.injEq]
    omega
  | commit =>
    rw [step_commit hpc]
    simp only [expected, hpc, tally, Tally.mk.injEq] at heq
    refine tallied_of_plain rfl ?_
    rw [Shared.commit, Shared.emit, tally_commit]
    simp only [tally, expected, Tally.mk.injEq]
    omega
  | count =>
    simp only [expected, hpc, tally, Tally.mk.injEq] at heq
    -- the counter is 0 or 1 here, so the increment does not wrap
    have hnext : (t.counter + 1).toNat = t.counter.toNat + 1 := by
      rw [UInt32.toNat_add]
      exact Nat.mod_eq_of_lt (by simp; omega)
    by_cases hc : t.counter + 1 ≥ 2
    · have htwo : 2 ≤ (t.counter + 1).toNat := UInt32.le_iff_toNat_le.mp hc
      rw [step_count_telemetry hpc hc]
      refine ⟨by simp, by simp, fun _ => by simp only; omega, ?_⟩
      simp only [tally, expected, Tally.mk.injEq, UInt32.toNat_zero, true_and]
      omega
    · have htwo : (t.counter + 1).toNat < 2 := by
        rw [ge_iff_le, UInt32.le_iff_toNat_le] at hc
        exact Nat.lt_of_not_le hc
      rw [step_count_staging hpc hc]
      refine tallied_of_plain rfl ?_
      simp only [tally, expected, Tally.mk.injEq]
      omega
  | telemetry =>
    have := hodd hpc
    rw [step_telemetry hpc]
    simp only [expected, hpc, tally, Tally.mk.injEq] at heq
    refine tallied_of_plain rfl ?_
    rw [Shared.publish, Shared.emit, tally_telemetry]
    simp only [tally, expected, Tally.mk.injEq]
    omega
  | staging =>
    rw [step_staging hpc]
    simp only [expected, hpc, tally, Tally.mk.injEq] at heq
    refine tallied_of_plain rfl ?_
    rw [Shared.publish, Shared.emit, tally_staging]
    simp only [tally, expected, Tally.mk.injEq, rounds_succ]
    omega
  | delay => exact absurd hpc hloop.1
  | returned => exact absurd hpc hloop.2

/-- The tally after any number of steps. -/
theorem tallied_run (env : SensorEnv F) (d : DoubleBuffer (Packet F)) (registry : Registry τ)
    (kernel : Kernel τ) (steps : ℕ) :
    (run env ⟨d, registry, kernel, []⟩ steps).1.Tallied env steps
      (run env ⟨d, registry, kernel, []⟩ steps).2.log := by
  induction steps with
  | zero =>
    refine tallied_of_plain rfl ?_
    simp [run, start, tally, expected, rounds]
  | succ steps ih => exact tallied_step ih

/-! ## Pacing -/

/-- Between any two consecutive commits the task delays itself by `period`. -/
def Paced (period : UInt32) (log : List (Event F)) : Prop :=
  ∀ pre p mid q post, log = pre ++ .commit p :: (mid ++ .commit q :: post) →
    (∀ e ∈ mid, ¬ e.isCommit) → ∃ last, .delayUntil last period ∈ mid

private theorem exists_first {α : Type} {P : α → Bool} {l : List α} (h : 0 < l.countP P) :
    ∃ pre a post, l = pre ++ a :: post ∧ P a ∧ ∀ b ∈ pre, ¬ P b := by
  obtain ⟨a, ha, hPa⟩ := List.countP_pos_iff.mp h
  obtain ⟨b, hb⟩ := Option.isSome_iff_exists.mp (List.find?_isSome.mpr ⟨a, ha, hPa⟩)
  obtain ⟨hPb, pre, post, hl, hpre⟩ := List.find?_eq_some_iff_append.mp hb
  exact ⟨pre, b, post, hl, hPb, fun c hc => by simpa using hpre c hc⟩

/-- Without a delay a log is paced only up to its first commit. -/
theorem paced_iff {period : UInt32} {log : List (Event F)} (h : log.countP Event.isDelay = 0) :
    Paced period log ↔ log.countP Event.isCommit ≤ 1 := by
  constructor
  · intro hpaced
    by_contra hlt
    obtain ⟨pre, e, rest, hlog, he, hpre⟩ :=
      exists_first (P := Event.isCommit) (l := log) (by omega)
    have hrest : 0 < rest.countP Event.isCommit := by
      have hpre0 : pre.countP Event.isCommit = 0 := List.countP_eq_zero.mpr hpre
      rw [hlog, List.countP_append, hpre0, List.countP_cons_of_pos he] at hlt
      omega
    obtain ⟨mid, e', post, hmid, he', hnot⟩ := exists_first hrest
    obtain ⟨p, rfl⟩ : ∃ p, e = .commit p := by cases e <;> simp_all [Event.isCommit]
    obtain ⟨q, rfl⟩ : ∃ q, e' = .commit q := by cases e' <;> simp_all [Event.isCommit]
    obtain ⟨last, hlast⟩ := hpaced pre p mid q post (by rw [hlog, hmid]) hnot
    exact List.countP_eq_zero.mp h (.delayUntil last period) (by simp [hlog, hmid, hlast]) rfl
  · intro hle pre p mid q post hlog _
    rw [hlog, List.countP_append, List.countP_cons_of_pos rfl, List.countP_append,
      List.countP_cons_of_pos rfl] at hle
    omega

/-- The second commit is the last of `2 * sensors + 12` steps. -/
theorem Tallied.commits_le_one_iff {env : SensorEnv F} {steps : ℕ} {t : SensorTask}
    {log : List (Event F)} (h : t.Tallied env steps log) :
    log.countP Event.isCommit ≤ 1 ↔ steps < 2 * env.sensors.length + 12 := by
  obtain ⟨hloop, hle, hodd, heq⟩ := h
  -- the second commit belongs to round 1, so only the first rounds have to be located
  have htwo : 2 ≤ t.cycle → 2 * env.sensors.length + 15 ≤ rounds env t.cycle := fun h2 => by
    have := rounds_mono env h2
    simp only [rounds] at this ⊢
    omega
  have hzero : t.cycle = 0 → rounds env t.cycle = 0 := fun h0 => by simp [h0, rounds]
  have hone : t.cycle = 1 → rounds env t.cycle = env.sensors.length + 7 := fun h1 => by
    simp [h1, rounds]
  cases hpc : t.pc with
  | sensor k =>
    have := hle k hpc
    simp only [tally, expected, hpc, Tally.mk.injEq] at heq
    omega
  | delay => exact absurd hpc hloop.1
  | returned => exact absurd hpc hloop.2
  | _ =>
    simp only [tally, expected, hpc, Tally.mk.injEq] at heq
    omega

/-- **A run of the sensor task is paced if and only if it ends before its second commit**, which is
step `2 * sensors + 12`: the delay stands after the endless loop. -/
theorem run_paced_iff (env : SensorEnv F) (d : DoubleBuffer (Packet F)) (registry : Registry τ)
    (kernel : Kernel τ) (steps : ℕ) :
    Paced (env.tickRateHz / 200) (run env ⟨d, registry, kernel, []⟩ steps).2.log ↔
      steps < 2 * env.sensors.length + 12 := by
  have h := tallied_run env d registry kernel steps
  have hdelay := congrArg Tally.delays h.tally_eq
  rw [paced_iff, h.commits_le_one_iff]
  refine hdelay.trans ?_
  rw [expected]
  split <;> rfl

/-- Two rounds without a sensor commit twice, in 12 steps, and never delay. -/
theorem run_not_paced :
    let env : SensorEnv UInt32 := ⟨[], 0, fun _ => 0, 1, 1000, fun _ => 0, id⟩
    ¬ Paced (env.tickRateHz / 200)
      (run env ⟨.initial (@Packet.initial _ ⟨0⟩), (Registry.fresh : Registry Unit),
        ⟨fun _ => 0, fun _ => false, []⟩, []⟩ 12).2.log := by
  intro env hpaced
  have h := tallied_run env (.initial (@Packet.initial _ ⟨0⟩)) (Registry.fresh : Registry Unit)
    ⟨fun _ => 0, fun _ => false, []⟩ 12
  have hdelay := congrArg Tally.delays h.tally_eq
  have hle := (paced_iff hdelay).mp hpaced
  exact absurd (h.commits_le_one_iff.mp hle) (by decide)

end SensorTask

/-! ## The packet of a round -/

namespace SensorEnv

variable (env : SensorEnv F) (cycle : ℕ) (p : Packet F)

/-- What the sensors of a span make of a packet. -/
def readSensors (cycle : ℕ) (sensors : List (Option (ℕ → SensorRead F))) (p : Packet F) :
    Packet F :=
  sensors.foldl (fun p sensor => match sensor with
    | some read => (read cycle p).2
    | none => p) p

/-- What a round makes of the packet of the previous one. -/
def refresh : Packet F := env.setCrc (env.stamp cycle (readSensors cycle env.sensors p))

/-- The committed packets of a run. -/
def committed : ℕ → Packet F
  | 0 => p
  | n + 1 => env.refresh n (committed n)

/-- No sensor writes byte `i` of the packet in the round that starts from `p`. -/
def Untouched (i : ℕ) : Prop :=
  ∀ k read, env.sensors[k]? = some (some read) →
    let q := readSensors cycle (env.sensors.take k) p
    ((read cycle q).2.bytes env.bits)[i]? = (q.bytes env.bits)[i]?

theorem readSensors_take_succ (k : ℕ) :
    readSensors cycle (env.sensors.take (k + 1)) p =
      readSensors cycle env.sensors[k]?.toList (readSensors cycle (env.sensors.take k) p) := by
  rw [List.take_add_one, readSensors, List.foldl_append]
  rfl

variable {env cycle p}

/-- The sensors leave an untouched byte as it was. -/
theorem Untouched.readSensors_bytes {i : ℕ} (h : env.Untouched cycle p i) (k : ℕ) :
    ((readSensors cycle (env.sensors.take k) p).bytes env.bits)[i]? = (p.bytes env.bits)[i]? := by
  induction k with
  | zero => rfl
  | succ k ih =>
    rw [readSensors_take_succ, ← ih]
    cases hk : env.sensors[k]? with
    | none => rfl
    | some sensor =>
      cases sensor with
      | none => rfl
      | some read => exact h k read hk

/-- The checksum covers neither itself nor what stands before byte 2. -/
theorem covered_setChecksum (c : UInt32) : env.covered (p.setChecksum c) = env.covered p := by
  have hdrop : ∀ l : List UInt8, (l.drop 2).take (108 - 6) = (l.take 104).drop 2 := fun _ => by
    rw [List.drop_take]
  rw [covered, covered, hdrop, hdrop, Packet.setChecksum_bytes_take]

/-- A round leaves a packet that carries its own checksum. -/
theorem refresh_checksum :
    (env.refresh cycle p).checksum = env.crcCalculate (env.covered (env.refresh cycle p)) := by
  rw [refresh, setCrc, covered_setChecksum]
  rfl

/-- A round keeps the bytes that no sensor writes, apart from the time stamp and the checksum. -/
theorem refresh_bytes {i : ℕ} (hi : i < 104) (htime : i < 6 ∨ 10 ≤ i)
    (h : env.Untouched cycle p i) :
    ((env.refresh cycle p).bytes env.bits)[i]? = (p.bytes env.bits)[i]? := by
  rw [refresh, setCrc, Packet.setChecksum_bytes_getElem? _ _ _ hi, stamp,
    Packet.setTimeUs_bytes_getElem? _ _ _ htime, ← h.readSensors_bytes env.sensors.length,
    List.take_length]

end SensorEnv

namespace SensorTask

/-- What the back buffer holds at each statement between `write` and `commit`. -/
def draft (env : SensorEnv F) (t : SensorTask) (p : Packet F) : Option (Packet F) :=
  match t.pc with
  | .sensor k => some (SensorEnv.readSensors t.cycle (env.sensors.take k) p)
  | .stamp => some (SensorEnv.readSensors t.cycle env.sensors p)
  | .checksum => some (env.stamp t.cycle (SensorEnv.readSensors t.cycle env.sensors p))
  | .commit => some (env.refresh t.cycle p)
  | _ => none

/-- The number of commits before a statement. -/
def commits (env : SensorEnv F) (t : SensorTask) : ℕ := (t.expected env).commits

/-- The front buffer holds the last committed packet and the back buffer the draft of the next. -/
structure Staged (env : SensorEnv F) (p : Packet F) (t : SensorTask) (d : DoubleBuffer (Packet F)) :
    Prop where
  ready : t.Ready d
  front : d.read = env.committed p (t.commits env)
  back : ∀ q, t.draft env (env.committed p t.cycle) = some q → d.buffer (d.idx ^^^ 1) = q

theorem staged_start (env : SensorEnv F) (d : DoubleBuffer (Packet F)) :
    (start env).Staged env d.read d where
  ready := ready_start env d
  front := rfl
  back := by simp [start, draft]

/-- A step that leaves the buffers alone, to a statement with the same draft or none. -/
theorem Staged.keep {env : SensorEnv F} {p : Packet F} {t t' : SensorTask}
    {d : DoubleBuffer (Packet F)} (h : t.Staged env p d) (hready : t'.Ready d)
    (hcommits : t'.commits env = t.commits env)
    (hdraft : ∀ q, t'.draft env (env.committed p t'.cycle) = some q →
      t.draft env (env.committed p t.cycle) = some q) : t'.Staged env p d where
  ready := hready
  front := hcommits ▸ h.front
  back q hq := h.back q (hdraft q hq)

/-- A change through the reference shows in the draft only. -/
theorem Staged.modify {env : SensorEnv F} {p q : Packet F} {t t' : SensorTask}
    {d : DoubleBuffer (Packet F)} (h : t.Staged env p d) (hptr : t.ptr = d.idx ^^^ 1)
    (f : Packet F → Packet F) (hready : t'.Ready (d.modify t.ptr f))
    (hcommits : t'.commits env = t.commits env)
    (hdraft : t.draft env (env.committed p t.cycle) = some q)
    (hdraft' : t'.draft env (env.committed p t'.cycle) = some (f q)) :
    t'.Staged env p (d.modify t.ptr f) where
  ready := hready
  front := by rw [DoubleBuffer.modify_read _ hptr f, hcommits, h.front]
  back r hr := by
    obtain rfl := Option.some.inj (hdraft'.symm.trans hr)
    rw [DoubleBuffer.modify_idx, hptr, DoubleBuffer.modify_buffer_self, h.back q hdraft]

theorem staged_step {env : SensorEnv F} {p : Packet F} {t : SensorTask} {s : Shared F τ}
    (h : t.Staged env p s.mem) : (t.step env s).1.Staged env p (t.step env s).2.mem := by
  have hready := (step_effect env h.ready).1
  obtain ⟨hloop, hptr⟩ := h.ready
  cases hpc : t.pc with
  | write =>
    have hfront := h.front
    rw [step_write hpc] at hready ⊢
    simp only [commits, expected, hpc] at hfront
    refine ⟨hready, by simpa [commits, expected] using hfront, ?_⟩
    rintro q hq
    obtain rfl := Option.some.inj hq
    exact (DoubleBuffer.write_buffer_back _).trans hfront
  | sensor k =>
    cases hk : env.sensors[k]? with
    | none =>
      have hall := List.take_of_length_le (List.getElem?_eq_none_iff.mp hk)
      rw [step_sensor_end hpc hk] at hready ⊢
      refine h.keep hready (by simp only [commits, expected, hpc]) fun q hq => ?_
      rw [draft, hpc, ← hq]
      simp only [draft, hall]
    | some sensor =>
      have hsucc := env.readSensors_take_succ t.cycle (env.committed p t.cycle) k
      rw [hk] at hsucc
      cases sensor with
      | none =>
        rw [step_sensor_null hpc hk] at hready ⊢
        refine h.keep hready (by simp only [commits, expected, hpc]) fun q hq => ?_
        rw [draft, hpc, ← hq]
        exact congrArg some hsucc.symm
      | some read =>
        rw [step_sensor_read hpc hk] at hready ⊢
        exact h.modify (hptr (.inl ⟨k, hpc⟩)) (fun p => (read t.cycle p).2) hready
          (by simp only [commits, expected, hpc]) (by rw [draft, hpc]) (congrArg some hsucc)
  | stamp =>
    rw [step_stamp hpc] at hready ⊢
    exact h.modify (hptr (.inr (.inl hpc))) (env.stamp t.cycle) hready
      (by simp only [commits, expected, hpc]) (by rw [draft, hpc]) rfl
  | checksum =>
    rw [step_checksum hpc] at hready ⊢
    exact h.modify (hptr (.inr (.inr (.inl hpc)))) env.setCrc hready
      (by simp only [commits, expected, hpc]) (by rw [draft, hpc]) rfl
  | commit =>
    have hq := h.back _ (by rw [draft, hpc])
    rw [step_commit hpc] at hready ⊢
    refine ⟨hready, ?_, by simp [draft]⟩
    simp only [commits, expected]
    exact hq
  | count =>
    by_cases hc : t.counter + 1 ≥ 2
    · rw [step_count_telemetry hpc hc] at hready ⊢
      exact h.keep hready (by simp only [commits, expected, hpc]) (by simp [draft])
    · rw [step_count_staging hpc hc] at hready ⊢
      exact h.keep hready (by simp only [commits, expected, hpc]) (by simp [draft])
  | telemetry =>
    rw [step_telemetry hpc] at hready ⊢
    exact h.keep hready (by simp only [commits, expected, hpc]) (by simp [draft])
  | staging =>
    rw [step_staging hpc] at hready ⊢
    exact h.keep hready (by simp only [commits, expected, hpc]) (by simp [draft])
  | delay => exact absurd hpc hloop.1
  | returned => exact absurd hpc hloop.2

theorem staged_run (env : SensorEnv F) (s : Shared F τ) (steps : ℕ) :
    (run env s steps).1.Staged env s.mem.read (run env s steps).2.mem := by
  induction steps with
  | zero => exact staged_start env s.mem
  | succ steps ih => exact staged_step ih

/-- After any number of steps the front packet is the one of the last commit in the log. -/
theorem run_read (env : SensorEnv F) (d : DoubleBuffer (Packet F)) (registry : Registry τ)
    (kernel : Kernel τ) (steps : ℕ) :
    let r := run env ⟨d, registry, kernel, []⟩ steps
    r.2.mem.read = env.committed d.read (r.2.log.countP Event.isCommit) := by
  intro r
  have hcommits : r.2.log.countP Event.isCommit = r.1.commits env :=
    congrArg Tally.commits (tallied_run env d registry kernel steps).tally_eq
  rw [hcommits]
  exact (staged_run env ⟨d, registry, kernel, []⟩ steps).front

/-- The task is back at the top of the loop after each round. -/
theorem run_rounds_pc (env : SensorEnv F) (d : DoubleBuffer (Packet F)) (registry : Registry τ)
    (kernel : Kernel τ) (n : ℕ) :
    let r := run env ⟨d, registry, kernel, []⟩ (rounds env n)
    r.1.pc = .write ∧ r.1.cycle = n := by
  intro r
  obtain ⟨hloop, hle, hodd, heq⟩ := tallied_run env d registry kernel (rounds env n)
  change r.1.pc ≠ _ ∧ _ at hloop
  change ∀ k, r.1.pc = _ → _ at hle
  change r.1.tally (rounds env n) r.2.log = r.1.expected env at heq
  have hsteps := congrArg Tally.steps heq
  -- in any other round the tally has too few or too many steps
  have hlt : r.1.cycle < n → rounds env (r.1.cycle + 1) ≤ rounds env n := fun h =>
    rounds_mono env h
  have hgt : n < r.1.cycle → rounds env (n + 1) ≤ rounds env r.1.cycle := fun h =>
    rounds_mono env h
  rw [rounds_succ] at hlt hgt
  have hrounds : r.1.cycle = n → rounds env r.1.cycle = rounds env n := fun h => by rw [h]
  simp only [tally] at hsteps
  cases hpc : r.1.pc with
  | sensor k =>
    have := hle k hpc
    simp only [expected, hpc] at hsteps
    omega
  | delay => exact absurd hpc hloop.1
  | returned => exact absurd hpc hloop.2
  | write =>
    simp only [expected, hpc] at hsteps
    exact ⟨rfl, by omega⟩
  | _ =>
    simp only [expected, hpc] at hsteps
    omega

/-- **After each commit the front packet carries the checksum of its own bytes 2 to 103 and keeps
every byte that no sensor wrote in its round, and `n` rounds publish `Telemetry` `n / 2` times and
`Staging` `n` times.** -/
theorem run_packet (env : SensorEnv F) (d : DoubleBuffer (Packet F)) (registry : Registry τ)
    (kernel : Kernel τ) :
    let after (steps : ℕ) : SensorTask × Shared F τ := run env ⟨d, registry, kernel, []⟩ steps
    (∀ n steps steps', (after steps).2.log.countP Event.isCommit = n + 1 →
      (after steps').2.log.countP Event.isCommit = n →
      let p := (after steps).2.mem.read
      let prev := (after steps').2.mem.read
      p.checksum = env.crcCalculate (((p.bytes env.bits).drop 2).take 102) ∧
      ∀ i < 104, i < 6 ∨ 10 ≤ i → env.Untouched n prev i →
        (p.bytes env.bits)[i]? = (prev.bytes env.bits)[i]?) ∧
    ∀ n, (after (rounds env n)).1.pc = .write ∧
      (after (rounds env n)).2.log.countP Event.isCommit = n ∧
      (after (rounds env n)).2.log.countP (Event.isPublish TaskEvent.Telemetry) = n / 2 ∧
      (after (rounds env n)).2.log.countP (Event.isPublish TaskEvent.Staging) = n := by
  intro after
  constructor
  · intro n steps steps' hn hn' p prev
    have hprev : prev = env.committed d.read n := hn' ▸ run_read env d registry kernel steps'
    have hp : p = env.refresh n prev := by
      rw [hprev]
      exact (hn ▸ run_read env d registry kernel steps : p = env.committed d.read (n + 1))
    rw [hp]
    exact ⟨SensorEnv.refresh_checksum, fun i hi htime h => SensorEnv.refresh_bytes hi htime h⟩
  · intro n
    obtain ⟨hpc, hcycle⟩ := run_rounds_pc env d registry kernel n
    have heq := (tallied_run env d registry kernel (rounds env n)).tally_eq
    simp only [expected, hpc, hcycle] at heq
    exact ⟨hpc, congrArg Tally.commits heq, congrArg Tally.telemetry heq,
      congrArg Tally.staging heq⟩

end SensorTask

end CommonDrivers.Tasks
