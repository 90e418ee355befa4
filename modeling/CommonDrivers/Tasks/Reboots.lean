import CommonDrivers.Tasks.PacketFile

/-! # One file over many boots

At each boot the packet file is opened at its end and the tasks start from scratch; at some time the
power is lost, between any two steps. The file then holds the packets of the boots that got as far
as closing it, each of them with all of its packets, and nothing of the others.
-/

namespace CommonDrivers.Tasks

open Flash Sensors

variable {F τ φ : Type} [DecidableEq τ] {floats : F ≃ UInt32}

/-- A boot: the system at its start, and the steps that it takes before the power is lost. -/
structure Boot (F τ : Type) [DecidableEq τ] (floats : F ≃ UInt32) where
  env : SensorEnv F
  bits : env.bits = floats
  handle : τ
  start : System F τ
  booted : start.Booted env
  acts : List SystemAct

namespace Boot

/-- The system when the power is lost. -/
def final (b : Boot F τ floats) : System F τ := System.run b.env b.handle b.start b.acts

/-- The packets that the boot has appended. -/
def appended (b : Boot F τ floats) : List (Packet F) := appendsIn b.final.shared.log

/-- The packets that the boot has stored. -/
def kept (b : Boot F τ floats) : List (Packet F) := if b.final.flash.closed then b.appended else []

theorem length_kept_le (b : Boot F τ floats) : b.kept.length ≤ b.appended.length := by
  rw [kept]
  split
  · exact Nat.le_refl _
  · exact Nat.zero_le _

section Medium

variable (lfs : LfsFile φ) (close : φ → φ) (reopen : List UInt8 → φ) (durable : φ → List UInt8)
  (blockSize : UInt32)

/-- What is stored after a boot. -/
def step (stored : List UInt8) (b : Boot F τ floats) : List UInt8 :=
  durable (fileAfter lfs close blockSize floats (openFile lfs reopen stored).2 b.final.shared.log)

variable {lfs close reopen durable blockSize} {content : φ → List UInt8}
variable (hlfs : AllSucceed lfs content) (hstores : StoresOnClose lfs close content durable)
  (hopens : Reopens reopen content durable) (hB : 128 ≤ blockSize.toNat)
include hlfs hstores hopens hB

/-- One boot adds what it keeps. -/
theorem step_encodeAll (b : Boot F τ floats) (ps : List (Packet F))
    (hlt : (ps.length + b.appended.length) * 108 < 2 ^ 31) :
    step lfs close reopen durable blockSize ((packetCodec floats).encodeAll ps) b =
      (packetCodec floats).encodeAll (ps ++ b.kept) := by
  obtain ⟨f, hf⟩ : ∃ f, (openFile lfs reopen ((packetCodec floats).encodeAll ps)).2 = f := ⟨_, rfl⟩
  have hcontent : content f = (packetCodec floats).encodeAll ps :=
    hf ▸ hopens.content_reopen _
  have hdurable : durable f = (packetCodec floats).encodeAll ps :=
    hf ▸ hopens.durable_reopen _
  have hfull := b.booted.run_content b.handle b.bits hlfs hstores.content_close hB f b.acts (by
    rw [hcontent, Codec.length_encodeAll, packetCodec_size, ← Nat.add_mul]
    exact hlt)
  have hstored := b.booted.run_durable b.handle hstores hB f b.acts
  rw [b.bits] at hfull hstored
  rw [step, hf, kept]
  refine hstored.trans ?_
  change (if b.final.flash.closed = true then _ else _) = _
  -- without the close the appends of the boot are lost
  cases b.final.flash.closed with
  | false => exact hdurable.trans (congrArg _ (List.append_nil ps).symm)
  | true =>
    refine hfull.trans ?_
    rw [hcontent, ← Codec.encodeAll_append]
    rfl

/-- Several boots add what each of them keeps. -/
theorem run_encodeAll (boots : List (Boot F τ floats)) (ps : List (Packet F))
    (hlt : (ps.length + (boots.flatMap appended).length) * 108 < 2 ^ 31) :
    Run.run (step lfs close reopen durable blockSize) ((packetCodec floats).encodeAll ps) boots =
        (packetCodec floats).encodeAll (ps ++ boots.flatMap kept) ∧
      (ps ++ boots.flatMap kept).length * 108 < 2 ^ 31 := by
  induction boots generalizing ps with
  | nil =>
    rw [List.flatMap_nil, List.append_nil]
    exact ⟨rfl, hlt⟩
  | cons b boots ih =>
    -- what is kept is no longer than what was appended, so the file stays small
    have hle := b.length_kept_le
    rw [List.flatMap_cons, List.length_append] at hlt
    have hone := step_encodeAll hlfs hstores hopens hB b ps (by omega)
    rw [Run.run_cons, hone, List.flatMap_cons, ← List.append_assoc]
    refine ih (ps ++ b.kept) ?_
    rw [List.length_append]
    omega

/-- **After any boots, each cut off between any two steps of any interleaving, the file holds
exactly the packets of the boots that closed it, whole and in order**, and opening it again returns
their size. -/
theorem run_boots (boots : List (Boot F τ floats)) (ps : List (Packet F))
    (hlt : (ps.length + (boots.flatMap appended).length) * 108 < 2 ^ 31) :
    let stored := Run.run (step lfs close reopen durable blockSize)
      ((packetCodec floats).encodeAll ps) boots
    (packetCodec floats).decodeAll stored = ps ++ boots.flatMap kept ∧
    (openFile lfs reopen stored).1.toNat = (ps ++ boots.flatMap kept).length * 108 := by
  intro stored
  obtain ⟨hstored, hsize⟩ := run_encodeAll hlfs hstores hopens hB boots ps hlt
  have hlen : stored.length = (ps ++ boots.flatMap kept).length * 108 :=
    (congrArg List.length hstored).trans (Codec.length_encodeAll _ _)
  constructor
  · exact (congrArg _ hstored).trans
      ((packetCodec floats).decodeAll_encodeAll (packetCodec_size_pos floats) _)
  · have hopened := hopens.content_reopen stored
    rw [openFile, hlfs.size_eq _ (by rw [hopened, hlen]; exact hsize), hopened, hlen]

end Medium

/-- A boot that is cut off before the close, and the same boot with the close. -/
theorem run_boots_two :
    let env : SensorEnv UInt32 := ⟨[], 0, fun _ => 0, 1, 1000, fun _ => 0, Equiv.refl UInt32⟩
    let s : System UInt32 Unit := ⟨SensorTask.start env, .subscribe,
      ⟨.initial (@Packet.initial _ ⟨0⟩), Registry.fresh, ⟨fun _ => 0, fun _ => false, []⟩, []⟩⟩
    let acts : List SystemAct := [.flash, .publish TaskEvent.Telemetry, .flash, .flash, .flash,
      .flash, .publish TaskEvent.FlashDisabled, .flash, .flash]
    let cut : Boot UInt32 Unit (Equiv.refl UInt32) := ⟨env, rfl, (), s, ⟨rfl, rfl, rfl⟩, acts⟩
    let closed : Boot UInt32 Unit (Equiv.refl UInt32) :=
      ⟨env, rfl, (), s, ⟨rfl, rfl, rfl⟩, acts ++ [.flash]⟩
    (packetCodec (Equiv.refl UInt32)).decodeAll (Run.run (step (buffered listFile) store
        (fun bytes => (bytes, bytes)) (fun f => f.2) 128) [] [cut, closed]) =
      [cut, closed].flatMap kept := by
  intro env s acts cut closed
  have hB : 128 ≤ (128 : UInt32).toNat := by decide
  have hlt : (0 + ([cut, closed].flatMap appended).length) * 108 < 2 ^ 31 := by
    simp only [cut, closed, acts, s, env]
    decide
  exact (run_boots allSucceed_listFile.buffered (storesOnClose_buffered listFile id)
    reopens_buffered hB [cut, closed] [] hlt).1

end Boot

end CommonDrivers.Tasks
