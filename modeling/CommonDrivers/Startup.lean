import CommonDrivers.Gd5f.Driver
import CommonDrivers.Sensors.Gps

/-! # Initialisation by a retrying caller

`GPS::init` and `GD5F1GQ5XE::init` return `true` on success, the transfers of a bus return `true` on
error. An attempt is one call of an init together with the outcome of each of its transfers, and a
caller retries until an attempt returns `true`.
-/

namespace CommonDrivers

/-- One call of an init. `fails` gives the outcomes of its transfers in order, `id` what the id read
of the flash leaves in its destination: the expected bytes if the read succeeds. -/
inductive Attempt
  | gps (buffer : List UInt8) (fails : ℕ → Bool)
  | flash (t : ProtocolType) (fails : ℕ → Bool) (id : UInt8 × UInt8)
      (expected : fails 0 = false → id = (0xC8, 0x31))

namespace Attempt

/-- What the init returns, and the outcomes of the transfers it issued. -/
def run : Attempt → Option (Bool × List Bool)
  | gps buffer fails => Sensors.Gps.init (scriptedBus .uart fails fun _ dest => dest) buffer []
  | flash t fails id _ => Gd5f.init (scriptedBus t fails fun _ _ => [id.1, id.2]) []

/-- The attempt returns `true`. -/
def succeeds (a : Attempt) : Bool := a.run.any fun r => r.1

/-- All transfers that the attempt issues succeed. -/
def clean (a : Attempt) : Bool := a.run.any fun r => !r.2.contains true

/-- The attempt returns, and it returns `true` exactly if its transfers succeeded. -/
def Truthful (a : Attempt) : Prop :=
  ∃ ok log, a.run = some (ok, log) ∧ (ok = true ↔ true ∉ log)

/-- Every attempt is truthful, and a caller that retries until `true` stops at the first attempt
whose transfers all succeed. -/
def Reliable (attempts : List Attempt) : Prop :=
  (∀ a ∈ attempts, a.Truthful) ∧ attempts.findIdx? succeeds = attempts.findIdx? clean

/-- The outcomes for which the init returns what it should: for the receiver, a failed write before
a successful reception start; for the flash, a failure that it looks at, or no failure at all. -/
def Respected : Attempt → Prop
  | gps _ fails => fails 0 = true ∧ fails 1 = false
  | flash t fails id _ =>
    (id.1 ≠ 0xC8 ∧ id.2 ≠ 0x31) ∨ fails 1 = true ∨
      (fails 0 = false ∧ fails 2 = false ∧ (t = .qspi → fails 3 = false))

/-! ## One attempt -/

/-- An attempt whose run is known is truthful exactly if its result fits its outcomes. -/
theorem truthful_of_run {a : Attempt} {ok : Bool} {log : List Bool} (h : a.run = some (ok, log)) :
    a.Truthful ↔ (ok = true ↔ true ∉ log) := Exec.returns_iff h

/-- The receiver's init takes each transfer's success for an error and the other way round. -/
theorem run_gps (buffer : List UInt8) (fails : ℕ → Bool) :
    (gps buffer fails).run =
      some (if fails 0 = true then (fails 1, [true, fails 1]) else (false, [false])) := by
  cases h0 : fails 0 <;> cases h1 : fails 1 <;>
    simp [run, Sensors.Gps.init, h0, h1]

section Flash

variable {t : ProtocolType} {fails : ℕ → Bool} {id : UInt8 × UInt8}
variable {expected : fails 0 = false → id = (0xC8, 0x31)}

theorem run_flash_wrong_id (hid : id.1 ≠ 0xC8 ∧ id.2 ≠ 0x31) :
    (flash t fails id expected).run = some (false, [fails 0]) := by
  simp [run, Gd5f.init, hid]

theorem run_flash_write_enable (hid : ¬(id.1 ≠ 0xC8 ∧ id.2 ≠ 0x31)) (hwe : fails 1 = true) :
    (flash t fails id expected).run = some (false, [fails 0, true]) := by
  simp [run, Gd5f.init, Gd5f.writeEnable, hid, hwe]

/-- Past the write enable no result is looked at. -/
theorem run_flash (hid : ¬(id.1 ≠ 0xC8 ∧ id.2 ≠ 0x31)) (hwe : fails 1 = false) :
    (flash t fails id expected).run =
      some (true, [fails 0, false, fails 2] ++ if t = .qspi then [fails 3] else []) := by
  by_cases ht : t = .qspi
  · simp [run, Gd5f.init, Gd5f.writeEnable, hid, hwe, ht]
  · simp [run, Gd5f.init, Gd5f.writeEnable, hid, hwe, ht]

end Flash

/-- **An attempt is truthful exactly if the outcomes of its transfers are respected.** -/
theorem truthful_iff (a : Attempt) : a.Truthful ↔ a.Respected := by
  cases a with
  | gps buffer fails =>
    rw [Respected]
    cases h0 : fails 0 with
    | false =>
      rw [truthful_of_run ((run_gps buffer fails).trans (by rw [if_neg (by simp [h0])]))]
      simp
    | true =>
      rw [truthful_of_run ((run_gps buffer fails).trans (by rw [if_pos h0]))]
      cases fails 1 <;> simp
  | flash t fails id expected =>
    rw [Respected]
    by_cases hid : id.1 ≠ 0xC8 ∧ id.2 ≠ 0x31
    · have h0 : fails 0 = true := by
        by_contra h
        rw [expected (by simpa using h)] at hid
        exact hid.1 rfl
      rw [truthful_of_run (run_flash_wrong_id hid), h0]
      simp [hid]
    rw [or_iff_right hid]
    cases hwe : fails 1 with
    | true =>
      rw [truthful_of_run (run_flash_write_enable hid hwe)]
      simp
    | false =>
      rw [truthful_of_run (run_flash hid hwe)]
      by_cases ht : t = .qspi <;> simp [ht]

/-! ## A caller that retries -/

theorem succeeds_eq_clean {a : Attempt} (h : a.Truthful) : a.succeeds = a.clean := by
  obtain ⟨ok, log, hrun, hok⟩ := h
  rw [Bool.eq_iff_iff, succeeds, clean, hrun]
  simpa using hok

/-- Two tests that agree on a list agree on the first index at which they hold. -/
theorem findIdx?_congr {α : Type} {p q : α → Bool} {l : List α} (h : ∀ x ∈ l, p x = q x) :
    l.findIdx? p = l.findIdx? q := by
  induction l with
  | nil => rfl
  | cons x l ih =>
    rw [List.findIdx?_cons, List.findIdx?_cons, h x (List.mem_cons_self ..),
      ih fun y hy => h y (List.mem_cons_of_mem x hy)]

/-- **A retrying caller can rely on a sequence of attempts exactly if the outcomes of each of them
are respected.** -/
theorem reliable_iff (attempts : List Attempt) :
    Reliable attempts ↔ ∀ a ∈ attempts, a.Respected := by
  constructor
  · exact fun h a ha => (truthful_iff a).mp (h.1 a ha)
  · intro h
    have htruthful : ∀ a ∈ attempts, a.Truthful := fun a ha => (truthful_iff a).mpr (h a ha)
    exact ⟨htruthful, findIdx?_congr fun a ha => succeeds_eq_clean (htruthful a ha)⟩

/-- The receiver's init reports an error though no transfer fails. -/
theorem gps_init_inverted : ¬ Reliable [gps (List.replicate 128 0) fun _ => false] := by
  intro h
  have hok := (truthful_of_run (run_gps _ _)).mp (h.1 _ (List.mem_singleton_self _))
  exact absurd (hok.mpr (by decide)) (by decide)

end Attempt

end CommonDrivers
