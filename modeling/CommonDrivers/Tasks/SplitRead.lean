import CommonDrivers.Sensors.PacketCodec
import CommonDrivers.Tasks.SavedPackets

/-! # Copying a packet byte by byte

`System` copies the front packet in one step. Here the flash task loads `idx` and then copies one
byte per step, and every other task may run in between. A run in which the sensor task starts no
round on the buffer that is being copied is a run of `System`, with the copy at the load; so what is
true of the runs of `System` is true of it.
-/

namespace CommonDrivers.Tasks

open Flags Sensors

variable {F τ : Type}

/-! ## The flash task with a split read -/

/-- The flash task between two calls, or in the middle of `packet.read(copy)`. -/
inductive SplitPc (F : Type)
  | call (pc : FlashPc F)
  | copying (event : UInt32) (slot : Fin 2) (copied : List UInt8)

section Machine

variable [DecidableEq τ] (floats : F ≃ UInt32)

/-- The copy with its next byte. -/
def copyByte (copied bytes : List UInt8) : List UInt8 :=
  copied ++ (bytes.drop copied.length).take 1

def SplitPc.step (handle : τ) (pc : SplitPc F) (s : Shared F τ) : SplitPc F × Shared F τ :=
  match pc with
  | .call (.telemetry event) =>
    if Meets event TaskEvent.Telemetry then (.copying event s.mem.idx [], s)
    else (.call (.disabled event), s)
  | .call pc => (.call (pc.step handle s).1, (pc.step handle s).2)
  | .copying event slot copied =>
    let copied := copyByte copied ((s.mem.buffer slot).bytes floats)
    if copied.length < 108 then (.copying event slot copied, s)
    else (.call (.append event ((packetCodec floats).decode copied)), s)

end Machine

/-- The running system with a split read. -/
structure SplitSystem (F τ : Type) where
  sensor : SensorTask
  flash : SplitPc F
  shared : Shared F τ

namespace SplitSystem

/-- The system as if the copy had been taken at the load. -/
def whole (s : SplitSystem F τ) : System F τ where
  sensor := s.sensor
  flash := match s.flash with
    | .call pc => pc
    | .copying event slot _ => .append event (s.shared.mem.buffer slot)
  shared := s.shared

/-- The sensor task does not start a round on the buffer that is being copied. -/
def Undisturbed (s : SplitSystem F τ) (a : SystemAct) : Prop :=
  ∀ event slot copied, s.flash = .copying event slot copied →
    a = .sensor → s.sensor.pc = .write → slot = s.shared.mem.idx

/-- The sensor task has committed its packet and not yet begun the next one. -/
def Committed (t : SensorTask) : Prop :=
  t.pc = .count ∨ t.pc = .telemetry ∨ t.pc = .staging ∨ t.pc = .write

/-- What has been copied is the beginning of one packet, in the front buffer or in the buffer that
was it before the last commit. -/
structure Copying (floats : F ≃ UInt32) (s : SplitSystem F τ) : Prop where
  ready : s.sensor.Ready s.shared.mem
  copied : ∀ event slot copied, s.flash = .copying event slot copied →
    copied.length < 108 ∧
      copied = ((s.shared.mem.buffer slot).bytes floats).take copied.length
  front : ∀ event slot copied, s.flash = .copying event slot copied →
    slot = s.shared.mem.idx ∨ Committed s.sensor

variable [DecidableEq τ] (floats : F ≃ UInt32) (env : SensorEnv F) (handle : τ)

def step (s : SplitSystem F τ) : SystemAct → SplitSystem F τ
  | .sensor =>
    let r := s.sensor.step env s.shared
    { s with sensor := r.1, shared := r.2 }
  | .flash =>
    let r := s.flash.step floats handle s.shared
    { s with flash := r.1, shared := r.2 }
  | .publish event => { s with shared := s.shared.publish event }
  | .publishIsr event => { s with shared := s.shared.publishIsr event }

def run (s : SplitSystem F τ) (acts : List SystemAct) : SplitSystem F τ :=
  Run.run (step floats env handle) s acts

end SplitSystem

/-! ## What the split read does -/

section Machine

variable [DecidableEq τ] (floats : F ≃ UInt32) (handle : τ)

/-- Between two calls the flash task takes a step of its own or loads `idx`. -/
theorem SplitPc.step_call (pc : FlashPc F) (s : Shared F τ) :
    (∃ event, pc = .telemetry event ∧ Meets event TaskEvent.Telemetry ∧
        SplitPc.step floats handle (.call pc) s = (.copying event s.mem.idx [], s)) ∨
      SplitPc.step floats handle (.call pc) s =
        (.call (pc.step handle s).1, (pc.step handle s).2) := by
  cases pc with
  | telemetry event =>
    by_cases hm : Meets event TaskEvent.Telemetry
    · exact .inl ⟨event, rfl, hm, if_pos hm⟩
    · right
      rw [FlashPc.step_no_telemetry hm]
      exact if_neg hm
  | _ => exact .inr rfl

section Copying

variable (event : UInt32) {slot : Fin 2} {copied : List UInt8} (s : Shared F τ)

theorem SplitPc.step_copying
    (h : (copyByte copied ((s.mem.buffer slot).bytes floats)).length < 108) :
    SplitPc.step floats handle (.copying event slot copied) s =
      (.copying event slot (copyByte copied ((s.mem.buffer slot).bytes floats)), s) := if_pos h

theorem SplitPc.step_last
    (h : ¬ (copyByte copied ((s.mem.buffer slot).bytes floats)).length < 108) :
    SplitPc.step floats handle (.copying event slot copied) s =
      (.call (.append event ((packetCodec floats).decode
        (copyByte copied ((s.mem.buffer slot).bytes floats)))), s) := if_neg h

end Copying

end Machine

/-! ## The buffer that is being copied -/

/-- A task in its loop has committed its packet unless it is filling the next one. -/
theorem SplitSystem.committed_iff {t : SensorTask} (h : t.pc ≠ .delay ∧ t.pc ≠ .returned) :
    Committed t ↔ t.filling = false := by
  cases hpc : t.pc with
  | delay => exact absurd hpc h.1
  | returned => exact absurd hpc h.2
  | _ => simp [Committed, SensorTask.filling, hpc]

/-- A step of the sensor task leaves the front buffer alone, and after a commit the old one, too,
until it begins the next round. -/
theorem SensorTask.step_buffer [DecidableEq τ] (env : SensorEnv F) {t : SensorTask}
    {s : Shared F τ} {slot : Fin 2} (h : t.Ready s.mem)
    (hslot : slot = s.mem.idx ∨ SplitSystem.Committed t)
    (hwrite : t.pc = .write → slot = s.mem.idx) :
    (t.step env s).2.mem.buffer slot = s.mem.buffer slot ∧
      (slot = (t.step env s).2.mem.idx ∨ SplitSystem.Committed (t.step env s).1) := by
  have hlooping := (step_effect env h).1.looping
  -- what is assigned to is the back buffer
  have back : slot = s.mem.idx → slot ≠ s.mem.idx ^^^ 1 := fun hs => by
    rw [hs]
    exact (DoubleBuffer.xor_one_ne _).symm
  rw [SplitSystem.committed_iff h.looping] at hslot
  rw [SplitSystem.committed_iff hlooping]
  cases t.move (τ := τ) env with
  | write hpc =>
    have hs := hwrite hpc
    rw [step_write hpc]
    exact ⟨Function.update_of_ne (back hs) .., .inl hs⟩
  | modify t' f hstep hfill =>
    have hs : slot = s.mem.idx := hslot.resolve_right (by rw [hfill]; exact Bool.noConfusion)
    rw [hstep]
    refine ⟨DoubleBuffer.modify_buffer_of_ne _ ?_ f, .inl hs⟩
    rw [h.ptr_of_filling hfill]
    exact back hs
  | commit t' hstep hfill =>
    rw [hstep]
    exact ⟨rfl, .inr hfill⟩
  | leave t' act hstep hmem hlog hfill =>
    rw [hstep, hmem, hfill]
    exact ⟨rfl, hslot⟩

/-! ## The bytes of the copy -/

/-- The copy of a part grows by one byte. -/
theorem copyByte_take {copied bytes : List UInt8} (h : copied = bytes.take copied.length)
    (hlt : copied.length < bytes.length) :
    (copyByte copied bytes).length = copied.length + 1 ∧
      copyByte copied bytes = bytes.take (copied.length + 1) := by
  have hlen : ((bytes.drop copied.length).take 1).length = 1 := by
    rw [List.length_take, List.length_drop]
    omega
  constructor
  · rw [copyByte, List.length_append, hlen]
  · rw [copyByte, List.take_add, ← h]

namespace SplitSystem

variable [DecidableEq τ] {floats : F ≃ UInt32} {env : SensorEnv F} {handle : τ}
  {s : SplitSystem F τ}

/-! ## One step -/

omit [DecidableEq τ] in
/-- A state whose flash task is between two calls. -/
theorem Copying.of_call (hready : s.sensor.Ready s.shared.mem) {pc : FlashPc F}
    (hpc : s.flash = .call pc) : Copying floats s where
  ready := hready
  copied _ _ _ h := by
    rw [hpc] at h
    cases h
  front _ _ _ h := by
    rw [hpc] at h
    cases h

/-- A step of the sensor task that does not disturb the copy. -/
theorem Copying.sensor_step (env : SensorEnv F) (handle : τ) (h : Copying floats s)
    (hquiet : s.Undisturbed .sensor) :
    Copying floats (step floats env handle s .sensor) ∧
      (step floats env handle s .sensor).whole = System.step env handle s.whole .sensor := by
  have hready := (SensorTask.step_effect env h.ready).1
  have hbuffer := fun event slot copied (hpc : s.flash = .copying event slot copied) =>
    SensorTask.step_buffer env h.ready (h.front event slot copied hpc)
      (hquiet event slot copied hpc rfl)
  refine ⟨⟨hready, ?_, ?_⟩, ?_⟩
  · intro event slot copied hpc
    rw [step, (hbuffer event slot copied hpc).1]
    exact h.copied event slot copied hpc
  · exact fun event slot copied hpc => (hbuffer event slot copied hpc).2
  · rw [step, System.step, whole, whole]
    cases hpc : s.flash with
    | call pc => rfl
    | copying event slot copied => simp only [(hbuffer event slot copied hpc).1]

/-- A step of the flash task is one of `System`, or goes on with the copy. -/
theorem Copying.flash_step (env : SensorEnv F) (handle : τ) (h : Copying floats s) :
    Copying floats (step floats env handle s .flash) ∧
      ((step floats env handle s .flash).whole = System.step env handle s.whole .flash ∨
        (step floats env handle s .flash).whole = s.whole) := by
  cases hpc : s.flash with
  | call pc =>
    have hwhole : s.whole = ⟨s.sensor, pc, s.shared⟩ := by rw [whole, hpc]
    have hmem := System.flash_step_mem handle pc s.shared
    rw [step, hpc, hwhole, System.step]
    rcases SplitPc.step_call floats handle pc s.shared with ⟨event, rfl, hm, hstep⟩ | hstep
    · -- the load is the step in which `System` copies the packet
      rw [hstep, FlashPc.step_telemetry hm]
      refine ⟨⟨h.ready, ?_, ?_⟩, .inl rfl⟩
      · rintro event slot copied ⟨⟩
        exact ⟨by decide, rfl⟩
      · rintro event slot copied ⟨⟩
        exact .inl rfl
    · rw [hstep]
      refine ⟨Copying.of_call ?_ rfl, .inl rfl⟩
      exact hmem.symm ▸ h.ready
  | copying event slot copied =>
    obtain ⟨hlt, hcopied⟩ := h.copied event slot copied hpc
    have hfront := h.front event slot copied hpc
    obtain ⟨hlen, hnext⟩ := copyByte_take hcopied (by rw [Packet.bytes_length]; exact hlt)
    have hwhole : s.whole = ⟨s.sensor, .append event (s.shared.mem.buffer slot), s.shared⟩ := by
      rw [whole, hpc]
    rw [step, hpc, hwhole]
    -- the last byte completes the packet
    by_cases hmore : copied.length + 1 < 108
    · have hstep := SplitPc.step_copying floats handle event s.shared (by rw [hlen]; exact hmore)
      rw [hstep]
      refine ⟨⟨h.ready, ?_, ?_⟩, .inr rfl⟩
      · rintro event slot copied ⟨⟩
        rw [hlen]
        exact ⟨hmore, hnext⟩
      · rintro event slot copied ⟨⟩
        exact hfront
    · have hall : copyByte copied ((s.shared.mem.buffer slot).bytes floats) =
          (packetCodec floats).encode (s.shared.mem.buffer slot) := by
        rw [hnext, packetCodec_encode]
        exact List.take_of_length_le (by rw [Packet.bytes_length]; omega)
      have hstep := SplitPc.step_last floats handle event s.shared (by rw [hlen]; exact hmore)
      rw [hall, (packetCodec floats).decode_encode] at hstep
      rw [hstep]
      exact ⟨Copying.of_call h.ready rfl, .inr rfl⟩

/-! ## Runs -/

theorem Copying.step (h : Copying floats s) {a : SystemAct} (hquiet : s.Undisturbed a) :
    Copying floats (SplitSystem.step floats env handle s a) ∧
      ((SplitSystem.step floats env handle s a).whole = System.step env handle s.whole a ∨
        decide (a ≠ .flash) = false ∧
          (SplitSystem.step floats env handle s a).whole = s.whole) := by
  cases a with
  | sensor =>
    have hstep := h.sensor_step env handle hquiet
    exact ⟨hstep.1, .inl hstep.2⟩
  | flash =>
    have hstep := h.flash_step env handle
    exact ⟨hstep.1, hstep.2.imp_right fun hstay => ⟨rfl, hstay⟩⟩
  | publish event => exact ⟨⟨h.ready, h.copied, h.front⟩, .inl rfl⟩
  | publishIsr event => exact ⟨⟨h.ready, h.copied, h.front⟩, .inl rfl⟩

/-- An undisturbed run is a run of `System` without some of the steps of the flash task. -/
theorem Copying.run_whole (h : Copying floats s) {acts : List SystemAct}
    (hquiet : Run.Along (SplitSystem.step floats env handle) Undisturbed s acts) :
    ∃ acts', List.Sublist acts' acts ∧
      acts'.filter (· ≠ .flash) = acts.filter (· ≠ .flash) ∧
      (run floats env handle s acts).whole = System.run env handle s.whole acts' :=
  (Run.run_stutters (fun _ _ h hquiet => (h.step hquiet).1) (fun _ _ h hquiet => (h.step hquiet).2)
    h hquiet).2

omit [DecidableEq τ] in
theorem copying_of_booted (h : s.whole.Booted env) : Copying floats s := by
  have hready : s.sensor.Ready s.shared.mem := by
    have hsensor : s.sensor = SensorTask.start env := h.sensor
    rw [hsensor]
    exact SensorTask.ready_start env _
  cases hpc : s.flash with
  | call pc => exact Copying.of_call hready hpc
  | copying event slot copied =>
    have hflash := h.flash
    rw [whole, hpc] at hflash
    cases hflash

/-- **Copying the packet byte by byte changes nothing in any run in which the sensor task starts no
round on the buffer that is being copied.** The run shares its log, its buffers and its kernel with
a run of `System` in which the others take the same steps, and what it appends is whole packets in
the order of their commits. -/
theorem run_split (floats : F ≃ UInt32) (handle : τ) (h : s.whole.Booted env)
    (acts : List SystemAct)
    (hquiet : Run.Along (SplitSystem.step floats env handle) Undisturbed s acts) :
    let r := run floats env handle s acts
    (∃ acts', List.Sublist acts' acts ∧
      acts'.filter (· ≠ .flash) = acts.filter (· ≠ .flash) ∧
      r.sensor = (System.run env handle s.whole acts').sensor ∧
      r.shared = (System.run env handle s.whole acts').shared) ∧
    ∃ n, r.shared.mem.read = env.committed s.shared.mem.read n ∧
      InOrder (env.committed s.shared.mem.read) n (appendsIn r.shared.log) := by
  intro r
  have hcopying : Copying floats s := copying_of_booted h
  obtain ⟨acts', hsub, hvisible, hwhole⟩ := hcopying.run_whole hquiet
  have hsensor : r.sensor = _ := congrArg System.sensor hwhole
  have hshared : r.shared = _ := congrArg System.shared hwhole
  have hrec : System.Recording env s.shared.mem.read (System.run env handle s.whole acts') :=
    h.run_recording acts'
  refine ⟨⟨acts', hsub, hvisible, hsensor, hshared⟩, ?_⟩
  rw [hshared]
  exact ⟨_, hrec.staged.front, hrec.appends.of_append⟩

/-- A whole round of the sensor task between the load and the first byte. -/
theorem run_split_one_round :
    let env : SensorEnv UInt32 := ⟨[], 0, fun _ => 0, 1, 1000, fun _ => 0, Equiv.refl UInt32⟩
    let s : SplitSystem UInt32 Unit := ⟨SensorTask.start env, .call .subscribe,
      ⟨.initial (@Packet.initial _ ⟨0⟩), Registry.fresh, ⟨fun _ => 0, fun _ => false, []⟩, []⟩⟩
    let r := run (Equiv.refl UInt32) env () s [.flash, .publish TaskEvent.Telemetry, .flash, .flash,
      .sensor, .sensor, .sensor, .sensor, .sensor, .flash]
    ∃ n, r.shared.mem.read = env.committed s.shared.mem.read n ∧
      InOrder (env.committed s.shared.mem.read) n (appendsIn r.shared.log) := by
  intro env s r
  have hboot : s.whole.Booted env := ⟨rfl, rfl, rfl⟩
  refine (run_split (Equiv.refl UInt32) () hboot [.flash, .publish TaskEvent.Telemetry, .flash,
    .flash, .sensor, .sensor, .sensor, .sensor, .sensor, .flash] ?_).2
  have hload : let r := run (Equiv.refl UInt32) env () s [.flash, .publish TaskEvent.Telemetry,
        .flash, .flash]
      r.flash = .copying TaskEvent.Telemetry ⟨0, Nat.two_pos⟩ [] ∧
        r.shared.mem.idx = ⟨0, Nat.two_pos⟩ := by
    simp only [s, env]
    exact ⟨rfl, rfl⟩
  have other : ∀ (s : SplitSystem UInt32 Unit) a, a ≠ .sensor → s.Undisturbed a :=
    fun _ _ hne _ _ _ _ hact => absurd hact hne
  have loop : ∀ (s : SplitSystem UInt32 Unit) a, s.sensor.pc ≠ .write → s.Undisturbed a :=
    fun _ _ hne _ _ _ _ _ hwrite => absurd hwrite hne
  refine ⟨other _ _ (by decide), other _ _ (by decide), other _ _ (by decide),
    other _ _ (by decide), ?_, loop _ _ nofun, loop _ _ nofun, loop _ _ nofun, loop _ _ nofun,
    other _ _ (by decide), trivial⟩
  -- the round starts on the other buffer
  rintro event slot copied hcopying - -
  have hslot := (SplitPc.copying.inj (hload.1.symm.trans hcopying)).2.1
  exact hslot.symm.trans hload.2.symm

end SplitSystem

end CommonDrivers.Tasks
