import Mathlib.Data.List.Induction
import CommonDrivers.Tasks.SensorLoop
import CommonDrivers.Tasks.Telemetry

/-! # Where the saved packets come from

The sensor task writes a packet while the flash task copies one, and any other task or interrupt may
ask for telemetry at any time. Whatever the order of the steps, the sensor task commits the packets
that it would commit if it ran alone, and each packet that reaches the flash is one of these as a
whole, in the order of the commits.
-/

namespace CommonDrivers.Tasks

open Flags Sensors

variable {F τ : Type}

/-! ## Reading the log -/

namespace Event

def committed? : Event F → Option (Packet F)
  | .commit p => some p
  | _ => none

def appended? : Event F → Option (Packet F)
  | .append p => some p
  | _ => none

end Event

/-- The packets that the calls of a log commit. -/
def commitsIn (log : List (Event F)) : List (Packet F) := log.filterMap Event.committed?

/-- The packets that the calls of a log hand to `append`. -/
def appendsIn (log : List (Event F)) : List (Packet F) := log.filterMap Event.appended?

theorem commitsIn_append (log calls : List (Event F)) :
    commitsIn (log ++ calls) = commitsIn log ++ commitsIn calls := List.filterMap_append

theorem appendsIn_append (log calls : List (Event F)) :
    appendsIn (log ++ calls) = appendsIn log ++ appendsIn calls := List.filterMap_append

/-- The packet that the flash task has copied for its next `append`. -/
def FlashPc.held : FlashPc F → List (Packet F)
  | .append _ copy => [copy]
  | _ => []

/-! ## Packets in the order of their commits -/

/-- Packets of the sequence `committed`, none of them later than the `n`-th, in its order. -/
def InOrder (committed : ℕ → Packet F) (n : ℕ) (packets : List (Packet F)) : Prop :=
  ∃ ks : List ℕ, packets = ks.map committed ∧ ks.Pairwise (· ≤ ·) ∧ ∀ k ∈ ks, k ≤ n

section InOrder

variable {committed : ℕ → Packet F} {n : ℕ} {packets rest : List (Packet F)}

theorem InOrder.nil : InOrder committed n [] := ⟨[], rfl, .nil, by simp⟩

theorem InOrder.mono (h : InOrder committed n packets) {m : ℕ} (hm : n ≤ m) :
    InOrder committed m packets := by
  obtain ⟨ks, hks, hsorted, hle⟩ := h
  exact ⟨ks, hks, hsorted, fun k hk => Nat.le_trans (hle k hk) hm⟩

/-- The latest packet can always follow. -/
theorem InOrder.snoc (h : InOrder committed n packets) :
    InOrder committed n (packets ++ [committed n]) := by
  obtain ⟨ks, hks, hsorted, hle⟩ := h
  refine ⟨ks ++ [n], by rw [hks, List.map_append]; rfl, ?_, ?_⟩
  · rw [List.pairwise_append]
    refine ⟨hsorted, List.pairwise_singleton _ _, ?_⟩
    intro k hk j hj
    rw [List.mem_singleton.mp hj]
    exact hle k hk
  · intro k hk
    rcases List.mem_append.mp hk with hk | hk
    · exact hle k hk
    · exact Nat.le_of_eq (List.mem_singleton.mp hk)

theorem InOrder.of_append (h : InOrder committed n (packets ++ rest)) :
    InOrder committed n packets := by
  obtain ⟨ks, hks, hsorted, hle⟩ := h
  obtain ⟨ks₁, ks₂, rfl, hks₁, -⟩ := List.map_eq_append_iff.mp hks.symm
  exact ⟨ks₁, hks₁.symm, (List.pairwise_append.mp hsorted).1,
    fun k hk => hle k (List.mem_append_left _ hk)⟩

end InOrder

variable [DecidableEq τ]

/-! ## What one step adds -/

/-- Between `write` and `commit` the task fills the back buffer. -/
def SensorTask.filling (t : SensorTask) : Bool :=
  match t.pc with
  | .sensor _ | .stamp | .checksum | .commit => true
  | _ => false

omit [DecidableEq τ] in
theorem SensorTask.Ready.ptr_of_filling {t : SensorTask} {d : DoubleBuffer (Packet F)}
    (h : t.Ready d) (hfill : t.filling = true) : t.ptr = d.idx ^^^ 1 := by
  apply h.ptr_eq
  cases hpc : t.pc with
  | sensor k => exact .inl ⟨k, rfl⟩
  | stamp => exact .inr (.inl rfl)
  | checksum => exact .inr (.inr (.inl rfl))
  | commit => exact .inr (.inr (.inr rfl))
  | _ => simp [filling, hpc] at hfill

/-- What the next step of the sensor task does, whatever the tasks share: it takes a reference,
assigns through it, commits, or leaves the packets alone. -/
inductive SensorTask.Move (τ : Type) [DecidableEq τ] (env : SensorEnv F) (t : SensorTask) : Prop
  | write (hpc : t.pc = .write)
  | modify (t' : SensorTask) (f : Packet F → Packet F)
      (hstep : ∀ s : Shared F τ, t.step env s = (t', { s with mem := s.mem.modify t.ptr f }))
      (hfill : t.filling = true) (hcommits : t'.commits env = t.commits env)
  | commit (t' : SensorTask) (hstep : ∀ s : Shared F τ, t.step env s = (t', s.commit))
      (hfill : t'.filling = false) (hcommits : t'.commits env = t.commits env + 1)
  | leave (t' : SensorTask) (act : Shared F τ → Shared F τ)
      (hstep : ∀ s : Shared F τ, t.step env s = (t', act s)) (hmem : ∀ s, (act s).mem = s.mem)
      (hlog : ∀ s, commitsIn (act s).log = commitsIn s.log)
      (hfill : t'.filling = t.filling) (hcommits : t'.commits env = t.commits env)

theorem SensorTask.move (env : SensorEnv F) (t : SensorTask) : Move τ env t := by
  -- the event word of a publish is not a commit
  have publish : ∀ (event : UInt32) (s : Shared F τ),
      commitsIn (s.publish event).log = commitsIn s.log := by
    intro event s
    rw [Shared.publish_log, commitsIn_append]
    exact List.append_nil _
  cases hpc : t.pc with
  | write => exact .write hpc
  | sensor k =>
    have hfill : t.filling = true := by rw [filling, hpc]
    cases hk : env.sensors[k]? with
    | none =>
      exact .leave _ id (fun s => step_sensor_end hpc hk) (fun _ => rfl) (fun _ => rfl) hfill.symm
        (by simp only [commits, expected, hpc])
    | some sensor =>
      cases sensor with
      | none =>
        exact .leave _ id (fun s => step_sensor_null hpc hk) (fun _ => rfl) (fun _ => rfl)
          hfill.symm (by simp only [commits, expected, hpc])
      | some read =>
        exact .modify _ _ (fun s => step_sensor_read hpc hk) hfill
          (by simp only [commits, expected, hpc])
  | stamp =>
    exact .modify _ _ (fun s => step_stamp hpc) (by rw [filling, hpc])
      (by simp only [commits, expected, hpc])
  | checksum =>
    exact .modify _ _ (fun s => step_checksum hpc) (by rw [filling, hpc])
      (by simp only [commits, expected, hpc])
  | commit =>
    exact .commit _ (fun s => step_commit hpc) rfl (by simp only [commits, expected, hpc])
  | count =>
    have hfill : t.filling = false := by rw [filling, hpc]
    by_cases hc : t.counter + 1 ≥ 2
    · exact .leave _ id (fun s => step_count_telemetry hpc hc) (fun _ => rfl) (fun _ => rfl)
        hfill.symm (by simp only [commits, expected, hpc])
    · exact .leave _ id (fun s => step_count_staging hpc hc) (fun _ => rfl) (fun _ => rfl)
        hfill.symm (by simp only [commits, expected, hpc])
  | telemetry =>
    exact .leave _ (·.publish TaskEvent.Telemetry) (fun s => step_telemetry hpc) (fun _ => rfl)
      (publish _) (by simp only [filling, hpc]) (by simp only [commits, expected, hpc])
  | staging =>
    exact .leave _ (·.publish TaskEvent.Staging) (fun s => step_staging hpc) (fun _ => rfl)
      (publish _) (by simp only [filling, hpc]) (by simp only [commits, expected, hpc])
  | delay =>
    refine .leave { t with pc := .returned }
      (·.emit (.delayUntil t.lastWakeUp (env.tickRateHz / 200))) (fun s => ?_) (fun _ => rfl)
      (fun s => ?_) (by simp only [filling, hpc]) (by simp only [commits, expected, hpc])
    · simp only [step, hpc]
    · rw [Shared.emit_log, commitsIn_append]
      exact List.append_nil _
  | returned =>
    refine .leave t id (fun s => ?_) (fun _ => rfl) (fun _ => rfl) rfl rfl
    simp only [step, hpc]
    rfl

/-- A step of the sensor task adds nothing to the commits or the packet it publishes. -/
theorem SensorTask.step_commitsIn (env : SensorEnv F) (t : SensorTask) (s : Shared F τ) :
    (t.step env s).1.commits env = t.commits env ∧
        commitsIn (t.step env s).2.log = commitsIn s.log ∨
      (t.step env s).1.commits env = t.commits env + 1 ∧
        commitsIn (t.step env s).2.log = commitsIn s.log ++ [(t.step env s).2.mem.read] := by
  cases t.move (τ := τ) env with
  | write hpc =>
    rw [step_write hpc]
    exact .inl ⟨by simp only [commits, expected, hpc], rfl⟩
  | modify t' f hstep hfill hcommits =>
    rw [hstep]
    exact .inl ⟨hcommits, rfl⟩
  | commit t' hstep hfill hcommits =>
    rw [hstep]
    refine .inr ⟨hcommits, ?_⟩
    rw [Shared.commit_log, commitsIn_append]
    rfl
  | leave t' act hstep hmem hlog hfill hcommits =>
    rw [hstep]
    exact .inl ⟨hcommits, hlog s⟩

/-- A step of the sensor task reads nothing but its own state and the packet buffer. -/
theorem SensorTask.step_congr (env : SensorEnv F) (t : SensorTask) {s s' : Shared F τ}
    (h : s.mem = s'.mem) : (t.step env s).1 = (t.step env s').1 ∧
      (t.step env s).2.mem = (t.step env s').2.mem := by
  cases t.move (τ := τ) env with
  | write hpc =>
    rw [step_write hpc, step_write hpc, h]
    exact ⟨rfl, rfl⟩
  | modify t' f hstep =>
    rw [hstep, hstep, h]
    exact ⟨rfl, rfl⟩
  | commit t' hstep =>
    rw [hstep, hstep]
    exact ⟨rfl, congrArg DoubleBuffer.commit h⟩
  | leave t' act hstep hmem =>
    rw [hstep, hstep, hmem, hmem]
    exact ⟨rfl, h⟩

/-- No effect of a publisher is an append. -/
theorem SensorTask.Effect.appendsIn_eq {s s' : Shared F τ} {e : Option UInt32}
    (h : SensorTask.Effect s e s') : appendsIn s'.log = appendsIn s.log := by
  cases h with
  | silent d hd => rfl
  | commit =>
    rw [Shared.commit_log, appendsIn_append]
    exact List.append_nil _
  | publish event =>
    rw [Shared.publish_log, appendsIn_append]
    exact List.append_nil _

/-- A step of the flash task commits nothing, and copies the front packet before it appends it. -/
theorem FlashPc.step_saves (handle : τ) (pc : FlashPc F) (s : Shared F τ) :
    commitsIn (pc.step handle s).2.log = commitsIn s.log ∧
    (appendsIn (pc.step handle s).2.log ++ (pc.step handle s).1.held =
        appendsIn s.log ++ pc.held ∨
      appendsIn (pc.step handle s).2.log ++ (pc.step handle s).1.held =
        appendsIn s.log ++ pc.held ++ [s.mem.read]) := by
  have quiet : ∀ x : Event F, x.committed? = none → x.appended? = none →
      commitsIn (s.log ++ [x]) = commitsIn s.log ∧ appendsIn (s.log ++ [x]) = appendsIn s.log := by
    intro x hc ha
    rw [commitsIn_append, appendsIn_append]
    simp [commitsIn, appendsIn, hc, ha]
  cases pc with
  | subscribe =>
    cases hr : Registry.subscribe (some handle)
        (TaskEvent.FlashDisabled ||| TaskEvent.Telemetry) s.registry with
    | none =>
      rw [step_subscribe_full hr]
      exact ⟨rfl, .inl rfl⟩
    | some r =>
      obtain ⟨⟨⟩, r⟩ := r
      rw [step_subscribe hr]
      exact ⟨rfl, .inl rfl⟩
  | wait =>
    by_cases hp : s.kernel.pending handle = 0
    · rw [step_wait_blocked hp]
      exact ⟨rfl, .inl rfl⟩
    · obtain ⟨hcommits, happends⟩ := quiet (.take (s.kernel.pending handle)) rfl rfl
      rw [step_wait hp]
      exact ⟨hcommits, .inl (congrArg (· ++ []) happends)⟩
  | telemetry event =>
    by_cases hm : Meets event TaskEvent.Telemetry
    · rw [step_telemetry hm]
      refine ⟨rfl, .inr ?_⟩
      exact congrArg (· ++ [s.mem.read]) (List.append_nil _).symm
    · rw [step_no_telemetry hm]
      exact ⟨rfl, .inl rfl⟩
  | append event copy =>
    refine ⟨?_, .inl ?_⟩
    · rw [step, Shared.emit_log, commitsIn_append]
      exact List.append_nil _
    · rw [step, Shared.emit_log, appendsIn_append]
      exact List.append_nil _
  | disabled event =>
    by_cases hm : Meets event TaskEvent.FlashDisabled
    · obtain ⟨hcommits, happends⟩ := quiet .close rfl rfl
      rw [step_disabled hm]
      exact ⟨hcommits, .inl (congrArg (· ++ []) happends)⟩
    · rw [step_not_disabled hm]
      exact ⟨rfl, .inl rfl⟩
  | unmount =>
    obtain ⟨hcommits, happends⟩ := quiet .unmount rfl rfl
    exact ⟨hcommits, .inl (congrArg (· ++ []) happends)⟩
  | delete =>
    obtain ⟨hcommits, happends⟩ := quiet .delete rfl rfl
    exact ⟨hcommits, .inl (congrArg (· ++ []) happends)⟩
  | deleted => exact ⟨rfl, .inl rfl⟩
  | aborted => exact ⟨rfl, .inl rfl⟩

/-! ## Runs of the system -/

namespace System

/-- The system before its first step. -/
structure Booted (env : SensorEnv F) (s : System F τ) : Prop where
  sensor : s.sensor = SensorTask.start env
  flash : s.flash = .subscribe
  log : s.shared.log = []

/-- The sensor task has committed the packets of its own sequence, and what the flash task has
appended or copied stands in that order. -/
structure Recording (env : SensorEnv F) (p : Packet F) (s : System F τ) : Prop where
  staged : s.sensor.Staged env p s.shared.mem
  commits : commitsIn s.shared.log =
    (List.range (s.sensor.commits env)).map fun k => env.committed p (k + 1)
  appends : InOrder (env.committed p) (s.sensor.commits env)
    (appendsIn s.shared.log ++ s.flash.held)

variable {env : SensorEnv F} {handle : τ} {p : Packet F} {s : System F τ}

omit [DecidableEq τ] in
theorem Booted.recording (h : s.Booted env) : Recording env s.shared.mem.read s := by
  obtain ⟨hsensor, hflash, hlog⟩ := h
  refine ⟨?_, ?_, ?_⟩
  · rw [hsensor]
    exact SensorTask.staged_start env s.shared.mem
  · rw [hsensor, hlog]
    rfl
  · rw [hlog, hflash]
    exact InOrder.nil

/-- A step of the sensor task. -/
theorem Recording.sensor_step (h : Recording env p s) :
    Recording env p (step env handle s .sensor) := by
  have hstaged := SensorTask.staged_step h.staged
  have happends := (SensorTask.step_effect env h.staged.ready).2.appendsIn_eq
  rcases s.sensor.step_commitsIn env s.shared with ⟨hcount, hlog⟩ | ⟨hcount, hlog⟩
  · refine ⟨hstaged, ?_, ?_⟩
    · rw [step, hlog, hcount]
      exact h.commits
    · rw [step, happends, hcount]
      exact h.appends
  · refine ⟨hstaged, ?_, ?_⟩
    · -- the new front packet is the next one of the sequence
      rw [step, hlog, hstaged.front, hcount, h.commits, List.range_succ, List.map_append]
      rfl
    · rw [step, happends, hcount]
      exact h.appends.mono (Nat.le_succ _)

/-- A step of the flash task. -/
theorem Recording.flash_step (h : Recording env p s) :
    Recording env p (step env handle s .flash) := by
  have hmem := flash_step_mem handle s.flash s.shared
  obtain ⟨hcommits, happends⟩ := s.flash.step_saves handle s.shared
  refine ⟨?_, ?_, ?_⟩
  · rw [step, hmem]
    exact h.staged
  · rw [step, hcommits]
    exact h.commits
  · rw [step]
    rcases happends with happends | happends
    · rw [happends]
      exact h.appends
    · rw [happends, h.staged.front]
      exact h.appends.snoc

/-- The publish of another task or an interrupt. -/
theorem Recording.publish (h : Recording env p s) (event : UInt32) :
    Recording env p { s with shared := s.shared.publish event } := by
  refine ⟨h.staged, ?_, ?_⟩
  · rw [Shared.publish_log, commitsIn_append]
    exact (List.append_nil _).trans h.commits
  · rw [Shared.publish_log, appendsIn_append]
    exact (List.append_nil (appendsIn s.shared.log)).symm ▸ h.appends

theorem Recording.step (h : Recording env p s) (a : SystemAct) :
    Recording env p (step env handle s a) := by
  cases a with
  | sensor => exact h.sensor_step
  | flash => exact h.flash_step
  | publish event => exact h.publish event
  | publishIsr event => exact h.publish event

theorem Booted.run_recording (h : s.Booted env) (acts : List SystemAct) :
    Recording env s.shared.mem.read (run env handle s acts) :=
  Run.run_invariant (fun _ a hs => hs.step a) h.recording acts

/-- The sensor task is where `steps` steps of its own would have brought it. -/
structure Alone (env : SensorEnv F) (start : Shared F τ) (steps : ℕ) (s : System F τ) : Prop where
  sensor : s.sensor = (SensorTask.run env start steps).1
  mem : s.shared.mem = (SensorTask.run env start steps).2.mem

theorem Alone.step {start : Shared F τ} {steps : ℕ} (h : Alone env start steps s) (a : SystemAct) :
    Alone env start (steps + [a].count .sensor) (step env handle s a) := by
  cases a with
  | sensor =>
    obtain ⟨hsensor, hmem⟩ := SensorTask.step_congr env s.sensor h.mem
    rw [h.sensor] at hsensor hmem
    refine ⟨?_, ?_⟩
    · rw [System.step, h.sensor]
      exact hsensor
    · rw [System.step, h.sensor]
      exact hmem
  | flash => exact ⟨h.sensor, (flash_step_mem handle s.flash s.shared).trans h.mem⟩
  | publish event => exact ⟨h.sensor, h.mem⟩
  | publishIsr event => exact ⟨h.sensor, h.mem⟩

/-- Nothing that the others do reaches the sensor task. -/
theorem Booted.run_alone (h : s.Booted env) (acts : List SystemAct) :
    Alone env s.shared (acts.count .sensor) (run env handle s acts) := by
  induction acts using List.reverseRecOn with
  | nil => exact ⟨h.sensor, rfl⟩
  | append_singleton acts a ih =>
    rw [run, Run.run, List.foldl_concat, List.count_append]
    exact ih.step a

/-- A committed packet carries the checksum of its own bytes. -/
theorem committed_checksum (env : SensorEnv F) (p : Packet F) {k : ℕ} (hk : 0 < k) :
    (env.committed p k).checksum = env.crcCalculate (env.covered (env.committed p k)) := by
  obtain ⟨n, rfl⟩ : ∃ n, k = n + 1 := ⟨k - 1, (Nat.sub_add_cancel hk).symm⟩
  exact SensorEnv.refresh_checksum

/-- **In every interleaving the sensor task and its packet buffer are as if it had run alone, on the
device data and the tick count of each round, it commits one packet after the other of its sequence,
and the flash task appends whole packets of the sequence, none of them before one that was committed
earlier. Each appended packet carries its own checksum or is the one from before the first
commit.** -/
theorem run_packets (handle : τ) (h : s.Booted env) (acts : List SystemAct) :
    let r := run env handle s acts
    let alone := SensorTask.run env s.shared (acts.count .sensor)
    let sequence := env.committed s.shared.mem.read
    r.sensor = alone.1 ∧ r.shared.mem = alone.2.mem ∧
    ∃ n, commitsIn r.shared.log = (List.range n).map (fun k => sequence (k + 1)) ∧
      r.shared.mem.read = sequence n ∧
      InOrder sequence n (appendsIn r.shared.log) ∧
      ∀ q ∈ appendsIn r.shared.log,
        q = s.shared.mem.read ∨ q.checksum = env.crcCalculate (env.covered q) := by
  intro r alone sequence
  have halone : Alone env s.shared (acts.count .sensor) r := h.run_alone acts
  have hrec : Recording env s.shared.mem.read r := h.run_recording acts
  have horder := hrec.appends.of_append
  refine ⟨halone.sensor, halone.mem, r.sensor.commits env, hrec.commits, hrec.staged.front, horder,
    ?_⟩
  obtain ⟨ks, hks, -, -⟩ := horder
  intro q hq
  rw [hks] at hq
  obtain ⟨k, -, rfl⟩ := List.mem_map.mp hq
  rcases Nat.eq_zero_or_pos k with rfl | hk
  · exact .inl rfl
  · exact .inr (committed_checksum env _ hk)

/-- A round of the sensor task, in which another task asks for telemetry while it is half done. -/
theorem run_packets_one_round :
    let env : SensorEnv UInt32 := ⟨[], 0, fun _ => 0, 1, 1000, fun _ => 0, id⟩
    let s : System UInt32 Unit := ⟨SensorTask.start env, .subscribe,
      ⟨.initial (@Packet.initial _ ⟨0⟩), Registry.fresh, ⟨fun _ => 0, fun _ => false, []⟩, []⟩⟩
    let r := run env () s [.flash, .sensor, .sensor, .publish TaskEvent.Telemetry, .flash, .sensor,
      .sensor, .sensor, .flash, .flash]
    let sequence := env.committed s.shared.mem.read
    ∃ n, commitsIn r.shared.log = (List.range n).map (fun k => sequence (k + 1)) ∧
      InOrder sequence n (appendsIn r.shared.log) := by
  intro env s r sequence
  have hboot : s.Booted env := ⟨rfl, rfl, rfl⟩
  obtain ⟨-, -, n, hcommits, -, horder, -⟩ := run_packets () hboot [.flash, .sensor, .sensor,
    .publish TaskEvent.Telemetry, .flash, .sensor, .sensor, .sensor, .flash, .flash]
  exact ⟨n, hcommits, horder⟩

end System

end CommonDrivers.Tasks
