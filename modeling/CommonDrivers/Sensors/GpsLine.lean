import CommonDrivers.Lib.Run
import CommonDrivers.Protocols.Uart
import CommonDrivers.Sensors.GpsBounds
import CommonDrivers.Sensors.GpsDecode

/-! # The receiver on its line

`GPS::init` over a `UART` object, a caller that repeats it, and a receiver that sends whenever it
likes. An init whose transmit succeeds returns before it starts the reception. So on a line that
works no attempt lets a byte in; the reception starts with an attempt that fails to transmit, which
reports an error, too. It goes on until the line falls idle, and since nothing starts it again, what
has arrived by then is all that `GPS::read` ever sees. The HAL and the receiving hardware are
parameters of all this.
-/

namespace CommonDrivers.Sensors.Gps

open Exec Uart

/-- What happens: an init, a byte from the receiver, or a pause of it. -/
inductive LineAct
  | init
  | byte (b : UInt8)
  | pause
deriving DecidableEq, Repr

namespace LineAct

def byte? : LineAct → Option UInt8
  | byte b => some b
  | _ => none

end LineAct

/-- The bytes that arrive. -/
def burst (acts : List LineAct) : List UInt8 := acts.filterMap LineAct.byte?

section Steps

variable {ρ : Type} (hal : Hal ρ) (line : Line ρ)

/-- An init into the memory of the object. -/
def runInit (s : ρ) : Option (Bool × ρ) := Gps.init (Uart.bus hal) (line.memory s) s

def lineStep (s : ρ) : LineAct → ρ
  | .init => ((runInit hal line s).map Prod.snd).getD s
  | .byte b => line.arrive b s
  | .pause => line.pause s

/-- What an init returns. -/
def lineAnswer (s : ρ) : LineAct → Option Bool
  | .init => (runInit hal line s).map Prod.fst
  | _ => none

/-- An init sends its command. -/
def Sends (s : ρ) (a : LineAct) : Prop :=
  a = .init → ∃ s', hal.transmit command s = some (.ok, s')

/-- An init does not send its command, and its start of the reception succeeds. -/
def Starts (s : ρ) : Prop :=
  ∃ res s₁ s₂, hal.transmit command s = some (res, s₁) ∧ res ≠ .ok ∧
    hal.receiveToIdleDma (line.memory s) s₁ = some (.ok, s₂)

/-- Every init of the run sends its command. -/
def AllSend (s : ρ) (acts : List LineAct) : Prop :=
  Run.Along (lineStep hal line) (Sends hal) s acts

/-- No init of the run returns `true`. -/
def NeverSucceeds (s : ρ) (acts : List LineAct) : Prop :=
  Run.Along (lineStep hal line) (fun s a => lineAnswer hal line s a ≠ some true) s acts

end Steps

section Line

variable {ρ : Type} {hal : Hal ρ} {line : Line ρ}

/-! ## One init -/

/-- An init that sends its command reports an error and goes no further. -/
theorem runInit_sent {s s₁ : ρ} (h : hal.transmit command s = some (.ok, s₁)) :
    runInit hal line s = some (false, s₁) := by
  rw [runInit, Gps.init, bind_apply, bus_write, h]
  rfl

/-- An init that does not goes on to start the reception. -/
theorem runInit_started {s s₁ s₂ : ρ} {res : HalStatus}
    (h : hal.transmit command s = some (res, s₁)) (hres : res ≠ .ok)
    (hstart : hal.receiveToIdleDma (line.memory s) s₁ = some (.ok, s₂)) :
    runInit hal line s = some (false, s₂) := by
  rw [runInit, Gps.init, bind_apply, bus_write, h, Option.map_some, Option.bind_some]
  simp only [HalStatus.toBool_of_ne_ok hres, Bool.not_true, Bool.false_eq_true, if_false]
  rw [bind_apply, bus_readDMA, hstart]
  rfl

variable (h : ReceivesToIdle hal line)
include h

/-- The memory and the reception are as before behind an init that sends its command. -/
theorem step_sent {s : ρ} (hsends : Sends hal s .init) :
    line.memory (lineStep hal line s .init) = line.memory s ∧
      line.received (lineStep hal line s .init) = line.received s ∧
      lineAnswer hal line s .init = some false := by
  obtain ⟨s', hsent⟩ := hsends rfl
  obtain ⟨res, s₁, hrun, hmemory, hreceived⟩ := h.transmit_keeps command s
  obtain ⟨-, rfl⟩ := Prod.mk.inj (Option.some.inj (hsent.symm.trans hrun))
  rw [lineStep, lineAnswer, runInit_sent hsent]
  exact ⟨hmemory, hreceived, rfl⟩

/-- The init that starts the reception. -/
theorem step_started {s : ρ} (hs : line.received s = none) (hstarts : Starts hal line s) :
    line.memory (lineStep hal line s .init) = line.memory s ∧
      line.received (lineStep hal line s .init) = some 0 ∧
      lineAnswer hal line s .init = some false := by
  obtain ⟨res, s₁, s₂, hrun, hres, hstart⟩ := hstarts
  obtain ⟨res', s₁', hrun', hmemory, hreceived⟩ := h.transmit_keeps command s
  obtain ⟨-, rfl⟩ := Prod.mk.inj (Option.some.inj (hrun.symm.trans hrun'))
  obtain ⟨res₂, s₂', hstart', hmemory', hreceived'⟩ := h.start s₁ (hreceived.trans hs)
  rw [hmemory] at hstart'
  obtain ⟨rfl, rfl⟩ := Prod.mk.inj (Option.some.inj (hstart.symm.trans hstart'))
  rw [lineStep, lineAnswer, runInit_started hrun hres hstart]
  exact ⟨hmemory'.trans hmemory, hreceived', rfl⟩

/-! ## Runs -/

/-- Without a reception nothing is received. -/
theorem run_allSend {s : ρ} (hs : line.received s = none) {acts : List LineAct}
    (hacts : AllSend hal line s acts) :
    line.memory (Run.run (lineStep hal line) s acts) = line.memory s ∧
      line.received (Run.run (lineStep hal line) s acts) = none ∧
      NeverSucceeds hal line s acts := by
  induction acts generalizing s with
  | nil => exact ⟨rfl, hs, trivial⟩
  | cons a acts ih =>
    obtain ⟨hsends, hrest⟩ := hacts
    have hstep : line.memory (lineStep hal line s a) = line.memory s ∧
        line.received (lineStep hal line s a) = none ∧ lineAnswer hal line s a ≠ some true := by
      cases a with
      | init =>
        obtain ⟨hmemory, hreceived, hanswer⟩ := step_sent h hsends
        exact ⟨hmemory, hreceived.trans hs, hanswer.trans_ne (by decide)⟩
      | byte b =>
        obtain ⟨hmemory, hreceived⟩ := h.arrive_unheard b s hs
        exact ⟨hmemory, hreceived, nofun⟩
      | pause =>
        obtain ⟨hmemory, hreceived⟩ := h.pause_unheard s hs
        exact ⟨hmemory, hreceived, nofun⟩
    obtain ⟨hmemory, hreceived, hnever⟩ := ih hstep.2.1 hrest
    exact ⟨hmemory.trans hstep.1, hreceived, hstep.2.2, hnever⟩

/-- The bytes that arrive without a pause stand one behind the other. -/
theorem run_burst {s : ρ} {done rest : List UInt8} (hmemory : line.memory s = done ++ rest)
    (hreceived : line.received s = some done.length) {acts : List LineAct}
    (hacts : AllSend hal line s acts) (hpause : LineAct.pause ∉ acts)
    (hfits : (burst acts).length < rest.length) :
    line.memory (Run.run (lineStep hal line) s acts) =
        done ++ burst acts ++ rest.drop (burst acts).length ∧
      line.received (Run.run (lineStep hal line) s acts) =
        some (done.length + (burst acts).length) ∧
      NeverSucceeds hal line s acts := by
  induction acts generalizing s done rest with
  | nil => exact ⟨by simpa [burst] using hmemory, by simpa [burst] using hreceived, trivial⟩
  | cons a acts ih =>
    obtain ⟨hsends, hrest⟩ := hacts
    rw [List.mem_cons, not_or] at hpause
    cases a with
    | init =>
      obtain ⟨hmemory', hreceived', hanswer⟩ := step_sent h hsends
      obtain ⟨hrun, hcount, hnever⟩ := ih (hmemory'.trans hmemory) (hreceived'.trans hreceived)
        hrest hpause.2 hfits
      exact ⟨hrun, hcount, hanswer.trans_ne (by decide), hnever⟩
    | byte b =>
      have hburst : burst (.byte b :: acts) = b :: burst acts := rfl
      rw [hburst, List.length_cons] at hfits
      cases rest with
      | nil => cases hfits
      | cons old rest =>
        have hfits' : (burst acts).length < rest.length := Nat.lt_of_succ_lt_succ hfits
        have hroom : done.length + 1 < (line.memory s).length := by
          rw [hmemory, List.length_append, List.length_cons]
          omega
        obtain ⟨hmemory', hreceived'⟩ := h.arrive_stored b s _ hreceived hroom
        have hset : (done ++ old :: rest).set done.length b = (done ++ [b]) ++ rest := by
          rw [List.set_append_right _ _ (Nat.le_refl _), Nat.sub_self, List.set_cons_zero,
            List.append_assoc, List.singleton_append]
        rw [hmemory, hset] at hmemory'
        obtain ⟨hrun, hcount, hnever⟩ := ih hmemory'
          (hreceived'.trans (by rw [List.length_append, List.length_singleton])) hrest hpause.2
          hfits'
        refine ⟨hrun.trans ?_, hcount.trans ?_, nofun, hnever⟩
        · rw [hburst]
          simp
        · rw [hburst, List.length_append, List.length_singleton, List.length_cons]
          congr 1
          omega
    | pause => exact absurd rfl hpause.1

section Started

variable {s : ρ} (hs : line.received s = none) {before during : List LineAct}
variable (hbefore : AllSend hal line s before)
variable (hstarts : Starts hal line (Run.run (lineStep hal line) s before))
variable (hduring : AllSend hal line
  (lineStep hal line (Run.run (lineStep hal line) s before) .init) during)
variable (hpause : LineAct.pause ∉ during)
variable (hfits : (burst during).length < (line.memory s).length)
include hs hbefore hstarts hduring hpause hfits

/-- The first init that fails to send starts the reception. -/
theorem run_started :
    line.memory (Run.run (lineStep hal line) s (before ++ .init :: during)) =
        burst during ++ (line.memory s).drop (burst during).length ∧
      line.received (Run.run (lineStep hal line) s (before ++ .init :: during)) =
        some (burst during).length ∧
      NeverSucceeds hal line s (before ++ .init :: during) := by
  obtain ⟨hmemory, hreceived, hnever⟩ := run_allSend h hs hbefore
  obtain ⟨hmemory₁, hreceived₁, hanswer⟩ := step_started h hreceived hstarts
  have hempty : line.memory (lineStep hal line (Run.run (lineStep hal line) s before) .init) =
      [] ++ line.memory s := hmemory₁.trans hmemory
  obtain ⟨hmemory₂, hreceived₂, hnever₂⟩ := run_burst h hempty hreceived₁ hduring hpause hfits
  rw [List.nil_append] at hmemory₂
  rw [List.length_nil, Nat.zero_add] at hreceived₂
  rw [Run.run_append, Run.run_cons, NeverSucceeds, Run.along_append]
  exact ⟨hmemory₂, hreceived₂, hnever, hanswer.trans_ne (by decide), hnever₂⟩

end Started

/-! ## What a reception keeps -/

omit h in
/-- The memory begins with these bytes, and the reception, if it is running, is behind them. -/
structure Keeps (line : Line ρ) (done : List UInt8) (s : ρ) : Prop where
  stored : done <+: line.memory s
  behind : ∀ n, line.received s = some n → done.length ≤ n

/-- With a DMA in normal mode and without a new start they stay. -/
theorem Keeps.step (hends : EndsAtIdle line) {done : List UInt8} {s : ρ}
    (hkeeps : Keeps line done s) {a : LineAct} (hsends : Sends hal s a) :
    Keeps line done (lineStep hal line s a) ∧ lineAnswer hal line s a ≠ some true := by
  obtain ⟨hstored, hbehind⟩ := hkeeps
  cases a with
  | init =>
    obtain ⟨hmemory, hreceived, hanswer⟩ := step_sent h hsends
    exact ⟨⟨hmemory ▸ hstored, hreceived ▸ hbehind⟩, hanswer.trans_ne (by decide)⟩
  | byte b =>
    refine ⟨?_, nofun⟩
    rcases hreceived : line.received s with _ | n
    · obtain ⟨hmemory', hreceived'⟩ := h.arrive_unheard b s hreceived
      exact ⟨hmemory' ▸ hstored, fun m hm => nomatch hreceived'.symm.trans hm⟩
    · -- the byte is stored behind `done`
      have hn : done.length ≤ n := hbehind n hreceived
      have hset : done <+: (line.memory s).set n b := by
        obtain ⟨rest, hrest⟩ := hstored
        rw [← hrest, List.set_append_right _ _ hn]
        exact List.prefix_append _ _
      by_cases hroom : n + 1 < (line.memory s).length
      · obtain ⟨hmemory', hreceived'⟩ := h.arrive_stored b s n hreceived hroom
        refine ⟨hmemory' ▸ hset, fun m hm => ?_⟩
        rw [← Option.some.inj (hreceived'.symm.trans hm)]
        exact Nat.le_succ_of_le hn
      · obtain ⟨hmemory', hreceived'⟩ := hends.arrive_last b s n hreceived (Nat.not_lt.mp hroom)
        exact ⟨hmemory' ▸ hset, fun m hm => nomatch hreceived'.symm.trans hm⟩
  | pause =>
    refine ⟨?_, nofun⟩
    rcases hreceived : line.received s with _ | n
    · obtain ⟨hmemory', hreceived'⟩ := h.pause_unheard s hreceived
      exact ⟨hmemory' ▸ hstored, fun m hm => nomatch hreceived'.symm.trans hm⟩
    · obtain ⟨hmemory', hreceived'⟩ := hends.pause_ends s n hreceived
      refine ⟨hmemory' ▸ hstored, fun m hm => ?_⟩
      rcases hreceived' with hreceived' | hreceived'
      · cases hreceived'.symm.trans hm
      · rw [← Option.some.inj (hreceived'.symm.trans hm)]
        exact hbehind n hreceived

theorem Keeps.run (hends : EndsAtIdle line) {done : List UInt8} {s : ρ}
    (hkeeps : Keeps line done s) {acts : List LineAct} (hacts : AllSend hal line s acts) :
    Keeps line done (Run.run (lineStep hal line) s acts) ∧ NeverSucceeds hal line s acts := by
  induction acts generalizing s with
  | nil => exact ⟨hkeeps, trivial⟩
  | cons a acts ih =>
    obtain ⟨hsends, hrest⟩ := hacts
    obtain ⟨hkeeps', hanswer⟩ := hkeeps.step h hends hsends
    obtain ⟨hrun, hnever⟩ := ih hkeeps' hrest
    exact ⟨hrun, hanswer, hnever⟩

end Line

/-! ## The main results -/

/-- **Every read finds the first sentence.** Once the bytes that have arrived settle what a read
finds, with a DMA in normal mode every later read finds the same, whatever the receiver sends and
however often it pauses, if all further inits send their command, and none of the inits returns
`true`. -/
theorem run_rereads {F : Type} [CFloat F] {ρ : Type} {hal : Hal ρ} {line : Line ρ}
    (h : ReceivesToIdle hal line) (hends : EndsAtIdle line) {s : ρ} (hs : line.received s = none)
    {before during after : List LineAct} (hbefore : AllSend hal line s before)
    (hstarts : Starts hal line (Run.run (lineStep hal line) s before))
    (hduring : AllSend hal line
      (lineStep hal line (Run.run (lineStep hal line) s before) .init) during)
    (hpause : LineAct.pause ∉ during)
    (hfits : (burst during).length < (line.memory s).length)
    (hafter : AllSend hal line
      (Run.run (lineStep hal line) s (before ++ .init :: during)) after)
    (hsettled : (lineChecked (burst during)).isSome) (beyond : List UInt8) (packet : Packet F) :
    read (line.memory (Run.run (lineStep hal line) s ((before ++ .init :: during) ++ after)) ++
        beyond) packet = read (burst during) packet ∧
      NeverSucceeds hal line s ((before ++ .init :: during) ++ after) := by
  obtain ⟨hmemory, hreceived, hnever⟩ :=
    run_started h hs hbefore hstarts hduring hpause hfits
  have hkeeps : Keeps line (burst during)
      (Run.run (lineStep hal line) s (before ++ .init :: during)) :=
    ⟨hmemory ▸ List.prefix_append _ _, fun n hn => (Option.some.inj (hreceived.symm.trans hn)).le⟩
  obtain ⟨⟨⟨rest, hrest⟩, -⟩, hnever'⟩ := hkeeps.run h hends hafter
  obtain ⟨found, hfound⟩ := Option.isSome_iff_exists.mp hsettled
  constructor
  · have hread : read (burst during) packet = readLine packet found := by
      simpa using read_of_checked hfound [] packet
    rw [Run.run_append, ← hrest, List.append_assoc, read_of_checked hfound, hread]
  · rw [NeverSucceeds, Run.along_append]
    exact ⟨hnever, hnever'⟩

/-- A sentence behind an init that fails to send, a pause, and another sentence. -/
theorem run_rereads_southern :
    let s : Simulated := ⟨List.replicate 128 0, none, [.timeout]⟩
    let during : List LineAct := (southern.line ++ [CR]).map .byte
    let after : List LineAct := .pause :: gnTag.map .byte
    let s' := Run.run (lineStep Simulated.hal Simulated.line) s ((.init :: during) ++ after)
    read (Simulated.line.memory s') (@Packet.initial ℚ ⟨0⟩) =
      read (southern.line ++ [CR]) (@Packet.initial ℚ ⟨0⟩) := by
  intro s during after s'
  have hbytes : ∀ (bytes : List UInt8) (s : Simulated),
      AllSend Simulated.hal Simulated.line s (bytes.map .byte) := by
    intro bytes
    induction bytes with
    | nil => exact fun s => trivial
    | cons b bytes ih => exact fun s => ⟨nofun, ih _⟩
  have hburst : burst during = southern.line ++ [CR] := by
    simp [burst, during, List.filterMap_map, LineAct.byte?, Function.comp_def]
  have hbefore : AllSend Simulated.hal Simulated.line s [] := trivial
  have hstarts : Starts Simulated.hal Simulated.line s :=
    ⟨.timeout, _, _, rfl, by decide, rfl⟩
  have hafter : AllSend Simulated.hal Simulated.line
      (Run.run (lineStep Simulated.hal Simulated.line) s ([] ++ .init :: during)) after :=
    ⟨nofun, hbytes _ _⟩
  have hpause : LineAct.pause ∉ during := by simp [during]
  have hlength : (Simulated.line.memory s).length = 128 := List.length_replicate
  have hfits : (burst during).length < (Simulated.line.memory s).length := by
    rw [hlength, hburst]
    decide +kernel
  have hsettled : (lineChecked (burst during)).isSome := by
    rw [hburst]
    decide +kernel
  have hread := (run_rereads Simulated.receivesToIdle Simulated.endsAtIdle (s := s) rfl
    hbefore hstarts (hbytes _ _) hpause hfits hafter hsettled []
    (@Packet.initial ℚ ⟨0⟩)).1
  rw [List.nil_append, List.append_nil, hburst] at hread
  exact hread

end CommonDrivers.Sensors.Gps
