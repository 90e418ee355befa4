import CommonDrivers.Flash.Storage
import CommonDrivers.Sensors.PacketCodec
import CommonDrivers.Tasks.SavedPackets

/-! # The packet file

What the calls of the flash task make of the file that it was given: which packets can be read back
from it, and which of them survive a loss of power. The task looks at no result of `append` and
never syncs, so the first write that fails decides how far the file can be read, and everything is
lost that is not followed by the orderly shutdown.
-/

namespace CommonDrivers.Tasks

open Flash Flags Sensors

variable {F τ φ : Type}

/-! ## The calls on the file -/

/-- The call is one on the packet file. -/
def Event.isFile : Event F → Bool
  | .append _ | .close => true
  | _ => false

section Replay

variable (lfs : LfsFile φ) (close : φ → φ) (blockSize : UInt32) (bits : F → UInt32)

/-- What a call makes of the packet file. -/
def onFile (f : φ) : Event F → φ
  | .append p => (append lfs blockSize (p.bytes bits) f).2
  | .close => close f
  | _ => f

/-- The packet file after the calls of a log. -/
def fileAfter (f : φ) (log : List (Event F)) : φ := log.foldl (onFile lfs close blockSize bits) f

/-- Only the calls on the file matter. -/
theorem fileAfter_filter (f : φ) (log : List (Event F)) :
    fileAfter lfs close blockSize bits f (log.filter Event.isFile) =
      fileAfter lfs close blockSize bits f log := by
  have hstep : (fun (f : φ) (e : Event F) =>
      if e.isFile = true then onFile lfs close blockSize bits f e else f) =
      onFile lfs close blockSize bits := by
    funext f e
    cases e <;> rfl
  rw [fileAfter, List.foldl_filter, hstep]
  rfl

theorem fileAfter_appends (f : φ) (packets : List (Packet F)) :
    fileAfter lfs close blockSize bits f (packets.map .append) =
      appendAll lfs blockSize (packets.map (Packet.bytes bits)) f := by
  induction packets generalizing f with
  | nil => rfl
  | cons p packets ih => exact ih (append lfs blockSize (p.bytes bits) f).2

end Replay

/-! ## The close is the last of them -/

/-- The flash task has closed the file. -/
def FlashPc.closed : FlashPc F → Bool
  | .unmount | .delete | .deleted => true
  | _ => false

/-- The calls on the file are the appends and, once it is made, the close behind them. -/
def ClosesLast (pc : FlashPc F) (s : Shared F τ) : Prop :=
  s.log.filter Event.isFile =
    (appendsIn s.log).map .append ++ if pc.closed then [.close] else []

section ClosesLast

variable {pc pc' : FlashPc F} {s s' : Shared F τ}

/-- Before the close there are only the appends. -/
theorem ClosesLast.of_open (h : ClosesLast pc s) (hpc : pc.closed = false) :
    s.log.filter Event.isFile = (appendsIn s.log).map .append := by
  rw [ClosesLast, hpc, if_neg Bool.false_ne_true, List.append_nil] at h
  exact h

/-- A call that is none on the file. -/
theorem ClosesLast.other {x : Event F} (h : ClosesLast pc s) (hx : x.isFile = false)
    (hlog : s'.log = s.log ++ [x]) (hpc : pc'.closed = pc.closed) : ClosesLast pc' s' := by
  have hnone : x.appended? = none := by
    cases x with
    | append p => cases hx
    | _ => rfl
  have happends : appendsIn [x] = [] := by rw [appendsIn, List.filterMap_cons_none hnone]; rfl
  rw [ClosesLast, hlog, List.filter_append, appendsIn_append, happends, List.append_nil, hpc, h,
    List.filter_cons_of_neg (by simp [hx])]
  exact List.append_nil _

/-- A step without a call. -/
theorem ClosesLast.silent (h : ClosesLast pc s) (hlog : s'.log = s.log)
    (hpc : pc'.closed = pc.closed) : ClosesLast pc' s' := by
  rw [ClosesLast, hlog, hpc]
  exact h

variable [DecidableEq τ] {handle : τ}

theorem ClosesLast.effect {e : Option UInt32} (h : ClosesLast pc s)
    (he : SensorTask.Effect s e s') : ClosesLast pc s' := by
  cases he with
  | silent d hd => exact h
  | commit => exact h.other rfl s.commit_log rfl
  | publish event => exact h.other rfl (s.publish_log event) rfl

theorem ClosesLast.flash_step (h : ClosesLast pc s) :
    ClosesLast (pc.step handle s).1 (pc.step handle s).2 := by
  cases pc with
  | subscribe =>
    cases hr : Registry.subscribe (some handle)
        (TaskEvent.FlashDisabled ||| TaskEvent.Telemetry) s.registry with
    | none =>
      rw [FlashPc.step_subscribe_full hr]
      exact h.silent rfl rfl
    | some r =>
      obtain ⟨⟨⟩, r⟩ := r
      rw [FlashPc.step_subscribe hr]
      exact h.silent rfl rfl
  | wait =>
    by_cases hp : s.kernel.pending handle = 0
    · rw [FlashPc.step_wait_blocked hp]
      exact h
    · rw [FlashPc.step_wait hp]
      exact h.other (x := .take _) rfl rfl rfl
  | telemetry event =>
    by_cases hm : Meets event TaskEvent.Telemetry
    · rw [FlashPc.step_telemetry hm]
      exact h.silent rfl rfl
    · rw [FlashPc.step_no_telemetry hm]
      exact h.silent rfl rfl
  | append event copy =>
    -- the file is open here, so the append stands behind appends only
    rw [FlashPc.step, ClosesLast, Shared.emit_log, List.filter_append, appendsIn_append,
      h.of_open rfl, List.map_append]
    exact (List.append_nil _).symm
  | disabled event =>
    by_cases hm : Meets event TaskEvent.FlashDisabled
    · rw [FlashPc.step_disabled hm, ClosesLast, Shared.emit_log, List.filter_append,
        appendsIn_append, h.of_open rfl]
      exact congrArg (List.map _ · ++ [Event.close]) (List.append_nil _).symm
    · rw [FlashPc.step_not_disabled hm]
      exact h.silent rfl rfl
  | unmount => exact h.other (x := .unmount) rfl rfl rfl
  | delete => exact h.other (x := .delete) rfl rfl rfl
  | deleted => exact h
  | aborted => exact h

end ClosesLast

section File

variable {lfs : LfsFile φ} {close : φ → φ} {blockSize : UInt32} {bits : F → UInt32}

/-- The file is that of a run of appends, closed or not. -/
theorem ClosesLast.fileAfter_eq {pc : FlashPc F} {s : Shared F τ} (h : ClosesLast pc s) (f : φ) :
    fileAfter lfs close blockSize bits f s.log =
      (if pc.closed then close else id)
        (appendAll lfs blockSize ((appendsIn s.log).map (Packet.bytes bits)) f) := by
  rw [← fileAfter_filter, h, fileAfter, List.foldl_append]
  change List.foldl _ (fileAfter lfs close blockSize bits f _) _ = _
  rw [fileAfter_appends]
  cases pc.closed <;> rfl

end File

/-! ## Reading the file back -/

/-- The records of a file are the bytes of its packets. -/
theorem encodeAll_eq (floats : F ≃ UInt32) (packets : List (Packet F)) :
    (packets.map (Packet.bytes floats)).flatten = (packetCodec floats).encodeAll packets := by
  rw [← List.flatMap_def, Codec.encodeAll]
  exact List.flatMap_congr fun p _ => (packetCodec_encode floats p).symm

theorem length_records (floats : F ≃ UInt32) (packets : List (Packet F)) :
    (packets.map (Packet.bytes floats)).flatten.length = packets.length * 108 := by
  rw [encodeAll_eq, Codec.length_encodeAll, packetCodec_size]

/-- Up to the first record that is cut the records are whole. -/
theorem zipWith_take_whole (ks : List ℕ) (runs : List (List UInt8)) :
    let whole := List.zipWith (fun k (bytes : List UInt8) => decide (bytes.length ≤ k)) ks runs
    ∃ rest, (List.zipWith List.take ks runs).flatten =
      (runs.take (whole.takeWhile id).length).flatten ++ rest := by
  intro whole
  induction ks generalizing runs with
  | nil => exact ⟨[], rfl⟩
  | cons k ks ih =>
    cases runs with
    | nil => exact ⟨[], rfl⟩
    | cons bytes runs =>
      by_cases hk : bytes.length ≤ k
      · obtain ⟨rest, hrest⟩ := ih runs
        refine ⟨rest, ?_⟩
        simp only [List.zipWith_cons_cons, List.flatten_cons, List.take_of_length_le hk, hrest,
          whole, hk, decide_true, List.takeWhile_cons, id, if_true, List.length_cons,
          List.take_succ_cons, List.append_assoc]
      · refine ⟨(List.zipWith List.take (k :: ks) (bytes :: runs)).flatten, ?_⟩
        -- the first record is cut, so none of them counts as whole
        simp only [whole, List.zipWith_cons_cons, hk, decide_false, List.takeWhile_cons, id,
          Bool.false_eq_true, if_false, List.length_nil, List.take_zero, List.flatten_nil,
          List.nil_append]

namespace System

variable [DecidableEq τ] {env : SensorEnv F} (handle : τ) {s : System F τ}
variable {lfs : LfsFile φ} {content : φ → List UInt8} {blockSize : UInt32} {floats : F ≃ UInt32}

theorem Booted.run_closesLast (h : s.Booted env) (acts : List SystemAct) :
    ClosesLast (run env handle s acts).flash (run env handle s acts).shared := by
  have hready : s.Ready := by
    rw [Ready, h.sensor]
    exact SensorTask.ready_start env s.shared.mem
  have hstart : ClosesLast s.flash s.shared := by
    rw [ClosesLast, h.log, h.flash]
    rfl
  exact (run_invariant env handle (fun _ _ _ _ h he => h.effect he) (fun _ _ h => h.flash_step)
    hready hstart acts).2

/-- **With writes that may fail, as long as the flash task has not closed the file nothing that it
has appended is stored. The file has gained a prefix of each packet, in order, and gives back all
packets up to the first one whose `append` failed.** -/
theorem run_file_pieces (h : s.Booted env) (hbits : env.bits = floats)
    (hlfs : MayStop lfs content) (durable : φ → List UInt8)
    (hwrite : ∀ bytes f, durable (lfs.write bytes f).2 = durable f) (close : φ → φ)
    (hB : 128 ≤ blockSize.toNat) {f : φ} {ps : List (Packet F)}
    (hf : content f = (packetCodec floats).encodeAll ps) (acts : List SystemAct)
    (hopen : (run env handle s acts).flash.closed = false)
    (hlt : (content f).length +
      (appendsIn (run env handle s acts).shared.log).length * 108 < 2 ^ 31) :
    let log := (run env handle s acts).shared.log
    let f' := fileAfter lfs close blockSize env.bits f log
    let records := (appendsIn log).map (Packet.bytes env.bits)
    let saved := results lfs blockSize records f
    durable f' = durable f ∧
    (∃ ks : List ℕ, ks.length = records.length ∧
      content f' = content f ++ (List.zipWith List.take ks records).flatten) ∧
    ps ++ (appendsIn log).take (saved.takeWhile id).length <+:
      (packetCodec floats).decodeAll (content f') := by
  intro log f' records saved
  have hrecords : records = (appendsIn log).map (Packet.bytes floats) := by
    simp only [records, hbits]
  have hfile : f' = appendAll lfs blockSize records f := by
    have hcloses : ClosesLast (run env handle s acts).flash _ := h.run_closesLast handle acts
    have heq : f' = _ := hcloses.fileAfter_eq f
    rw [hopen] at heq
    exact heq
  have hlen : records.flatten.length = (appendsIn log).length * 108 := by
    rw [hrecords, length_records]
  obtain ⟨ks, hks, hcontent, hresults⟩ := appendAll_pieces hB hlfs records f (by
    rw [hlen]
    exact hlt)
  rw [← hfile] at hcontent
  refine ⟨?_, ⟨ks, hks, hcontent⟩, ?_⟩
  · rw [hfile, appendAll_durable hB hwrite]
  · obtain ⟨rest, hrest⟩ := zipWith_take_whole ks records
    have hsaved : saved = _ := hresults
    rw [hcontent, hrest, ← hsaved, hrecords, ← List.map_take, encodeAll_eq, hf, ← List.append_assoc,
      ← Codec.encodeAll_append]
    exact ⟨_, (Codec.decodeAll_append (packetCodec_size_pos floats) _ rest).symm⟩

/-- Two requests on a medium with room for 130 bytes. -/
theorem run_file_pieces_full_medium :
    let env : SensorEnv UInt32 := ⟨[], 0, fun _ => 0, 1, 1000, fun _ => 0, Equiv.refl UInt32⟩
    let s : System UInt32 Unit := ⟨SensorTask.start env, .subscribe,
      ⟨.initial (@Packet.initial _ ⟨0⟩), Registry.fresh, ⟨fun _ => 0, fun _ => false, []⟩, []⟩⟩
    let acts : List SystemAct := [.flash, .publish TaskEvent.Telemetry, .flash, .flash, .flash,
      .flash, .publish TaskEvent.Telemetry, .flash, .flash, .flash]
    let log := (run env () s acts).shared.log
    let f' := fileAfter (buffered (boundedFile 130)) store 128 env.bits ([], []) log
    f'.2 = [] ∧
    ∃ ks : List ℕ, ks.length = 2 ∧
      f'.1 = (List.zipWith List.take ks ((appendsIn log).map (Packet.bytes env.bits))).flatten := by
  intro env s acts log f'
  have hboot : s.Booted env := ⟨rfl, rfl, rfl⟩
  have hbits : env.bits = Equiv.refl UInt32 := rfl
  have htwo : (appendsIn log).length = 2 := by
    simp only [log, s, env]
    rfl
  have hopen : (run env () s acts).flash.closed = false := by
    simp only [acts, s, env]
    rfl
  have hlt : 0 + (appendsIn log).length * 108 < 2 ^ 31 := by
    rw [htwo]
    decide
  have hB : 128 ≤ (128 : UInt32).toNat := by decide
  have hf : id (([], []) : List UInt8 × List UInt8).1 =
    (packetCodec (Equiv.refl UInt32)).encodeAll [] := rfl
  obtain ⟨hstored, ⟨ks, hks, hcontent⟩, -⟩ := run_file_pieces () hboot hbits
    (mayStop_boundedFile 130).buffered (fun f => f.2) (fun _ _ => rfl) store hB hf acts hopen hlt
  exact ⟨hstored, ks, by rw [hks, List.length_map, htwo], hcontent⟩

/-- On a medium without failures the file holds all packets that were appended. -/
theorem Booted.run_content (h : s.Booted env) (hbits : env.bits = floats)
    (hlfs : AllSucceed lfs content) {close : φ → φ} (hclose : ∀ f, content (close f) = content f)
    (hB : 128 ≤ blockSize.toNat) (f : φ) (acts : List SystemAct)
    (hlt : (content f).length +
      (appendsIn (run env handle s acts).shared.log).length * 108 < 2 ^ 31) :
    content (fileAfter lfs close blockSize env.bits f (run env handle s acts).shared.log) =
      content f ++ (packetCodec floats).encodeAll
        (appendsIn (run env handle s acts).shared.log) := by
  rw [(h.run_closesLast handle acts).fileAfter_eq f, hbits, ← encodeAll_eq]
  have hall := appendAll_content hB hlfs
    ((appendsIn (run env handle s acts).shared.log).map (Packet.bytes floats)) f (by
      rw [length_records]
      exact hlt)
  cases (run env handle s acts).flash.closed with
  | false => exact hall
  | true => exact (hclose _).trans hall

/-- What is stored of the file changes with the close only. -/
theorem Booted.run_durable (h : s.Booted env) {durable : φ → List UInt8} {close : φ → φ}
    (hstores : StoresOnClose lfs close content durable) (hB : 128 ≤ blockSize.toNat) (f : φ)
    (acts : List SystemAct) :
    let f' := fileAfter lfs close blockSize env.bits f (run env handle s acts).shared.log
    durable f' = if (run env handle s acts).flash.closed then content f' else durable f := by
  intro f'
  have hfile : f' = _ := (h.run_closesLast handle acts).fileAfter_eq f
  rw [hfile]
  -- before the close no call has stored anything
  cases (run env handle s acts).flash.closed with
  | false => exact appendAll_durable hB hstores.durable_write _ f
  | true => exact (hstores.durable_close _).trans (hstores.content_close _).symm

/-- **On a medium without failures, if the file holds stored packets at the start, then after every
run it reads back as these and the appended ones; a loss of power leaves the old ones alone until
the flash task has closed the file, and all from then on. The appended packets are whole packets of
the sequence of the sensor task in the order of their commits.** -/
theorem run_recovered (h : s.Booted env) (hbits : env.bits = floats)
    (hlfs : AllSucceed lfs content) {durable : φ → List UInt8} {close : φ → φ}
    (hstores : StoresOnClose lfs close content durable)
    (hB : 128 ≤ blockSize.toNat) {f : φ} {ps : List (Packet F)}
    (hf : content f = (packetCodec floats).encodeAll ps) (hdurable : durable f = content f)
    (acts : List SystemAct)
    (hlt : (content f).length +
      (appendsIn (run env handle s acts).shared.log).length * 108 < 2 ^ 31) :
    let r := run env handle s acts
    let f' := fileAfter lfs close blockSize env.bits f r.shared.log
    let sequence := env.committed s.shared.mem.read
    (packetCodec floats).decodeAll (content f') = ps ++ appendsIn r.shared.log ∧
    (packetCodec floats).decodeAll (durable f') =
      ps ++ (if r.flash.closed then appendsIn r.shared.log else []) ∧
    ∃ n, r.shared.mem.read = sequence n ∧ InOrder sequence n (appendsIn r.shared.log) := by
  intro r f' sequence
  have hrec : Recording env s.shared.mem.read r := h.run_recording acts
  have hread := (packetCodec floats).decodeAll_encodeAll (packetCodec_size_pos floats)
  have hcontent : content f' = _ :=
    h.run_content handle hbits hlfs hstores.content_close hB f acts hlt
  have hstored : durable f' = if r.flash.closed then content f' else durable f :=
    h.run_durable handle hstores hB f acts
  rw [hf, ← Codec.encodeAll_append] at hcontent
  rw [hdurable, hf, hcontent] at hstored
  refine ⟨by rw [hcontent, hread], ?_, r.sensor.commits env, hrec.staged.front,
    hrec.appends.of_append⟩
  rw [hstored]
  cases r.flash.closed with
  | false => exact (hread ps).trans (List.append_nil ps).symm
  | true => exact hread _

/-- A request, the shutdown, and a loss of power right behind the close. -/
theorem run_recovered_close :
    let env : SensorEnv UInt32 := ⟨[], 0, fun _ => 0, 1, 1000, fun _ => 0, Equiv.refl UInt32⟩
    let s : System UInt32 Unit := ⟨SensorTask.start env, .subscribe,
      ⟨.initial (@Packet.initial _ ⟨0⟩), Registry.fresh, ⟨fun _ => 0, fun _ => false, []⟩, []⟩⟩
    let acts : List SystemAct := [.flash, .publish TaskEvent.Telemetry, .flash, .flash, .flash,
      .flash, .publish TaskEvent.FlashDisabled, .flash, .flash, .flash]
    let log := (run env () s acts).shared.log
    let f' := fileAfter (buffered listFile) store 128 env.bits ([], []) log
    (packetCodec (Equiv.refl UInt32)).decodeAll f'.2 = appendsIn log := by
  intro env s acts log f'
  have hboot : s.Booted env := ⟨rfl, rfl, rfl⟩
  have hbits : env.bits = Equiv.refl UInt32 := rfl
  have hB : 128 ≤ (128 : UInt32).toNat := by decide
  have hf : id (([], []) : List UInt8 × List UInt8).1 =
    (packetCodec (Equiv.refl UInt32)).encodeAll [] := rfl
  have hclosed : (run env () s acts).flash.closed = true := by
    simp only [acts, s, env]
    rfl
  have hlt : 0 + (appendsIn log).length * 108 < 2 ^ 31 := by
    simp only [log, s, env]
    decide
  obtain ⟨-, hstored, -⟩ := run_recovered () hboot hbits allSucceed_listFile.buffered
    (storesOnClose_buffered listFile id) hB hf rfl acts hlt
  rw [hclosed] at hstored
  exact hstored

end System

end CommonDrivers.Tasks
