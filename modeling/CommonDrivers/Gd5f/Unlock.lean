import CommonDrivers.Gd5f.Driver

/-! # Unlocking the chip

`init` removes the block protection of the chip, so it must not go on with an unknown chip. Its gate
gives up only if both id bytes are wrong, which lets replies with one right byte through.
-/

namespace CommonDrivers.Gd5f

open Exec

variable (t : ProtocolType) (fails : ℕ → Bool) (a b : UInt8)

/-- A chip with whose id command the reply holds `a` and `b`, zeros after a transfer that failed
without an answer, over a bus with a script of failures. -/
abbrev idBus : Protocol (List Bool × List (Sent (List Bool))) :=
  (scriptedBus t fails fun _ _ => [a, b]).traced

/-- The protection register is written, and a write enable that succeeded was sent before any
register was written. -/
def EnabledBeforeUnlock {σ : Type} (log : List (Sent σ)) : Prop :=
  ∃ before e after, log = before ++ e :: after ∧ e.cmd = [gd5fSetFeature, 0xA0, 0x00] ∧
    (∀ x ∈ before, x.opcode ≠ some gd5fSetFeature) ∧
    ∃ x ∈ before, x.cmd = [gd5fWriteEnable] ∧ x.failed = false

/-- `init` returns; it sends a write enable or a set feature to the right chip only; with any other
chip it returns `false` and has sent nothing but the id command; and if it returns `true` the chip
was write enabled before it was unlocked. -/
def UnlocksOnlyRightChip : Prop :=
  ∃ ok s, init (idBus t fails a b) ([], []) = some (ok, s) ∧
    ((∃ e ∈ s.2, e.opcode = some gd5fWriteEnable ∨ e.opcode = some gd5fSetFeature) →
      a = 0xC8 ∧ b = 0x31) ∧
    (¬ (a = 0xC8 ∧ b = 0x31) → ok = false ∧ s.2.map Sent.cmd = [[gd5fReadId, 0x00]]) ∧
    (ok = true → EnabledBeforeUnlock s.2)

/-! ## The three ways `init` can go -/

variable {a b}

/-- The record of the id command. -/
def idSent : Sent (List Bool) := ⟨[], [gd5fReadId, 0x00], fails 0⟩

/-- The record of the write enable behind it. -/
def enableSent : Sent (List Bool) := ⟨[fails 0], [gd5fWriteEnable], fails 1⟩

/-- The record of the transfer that removes the protection. -/
def unlockSent : Sent (List Bool) := ⟨[fails 0, fails 1], [gd5fSetFeature, 0xA0, 0x00], fails 2⟩

/-- With both bytes wrong it stops behind the id. -/
theorem init_locked (ha : a ≠ 0xC8) (hb : b ≠ 0x31) :
    init (idBus t fails a b) ([], []) = some (false, [fails 0], [idSent fails]) := by
  simp [init, ha, hb, idSent]

/-- With one byte right it sends the write enable, and stops if that fails. -/
theorem init_not_enabled (hgate : a = 0xC8 ∨ b = 0x31) (hwe : fails 1 = true) :
    init (idBus t fails a b) ([], []) =
      some (false, [fails 0, fails 1], [idSent fails, enableSent fails]) := by
  rcases hgate with rfl | rfl
  · simp [init, writeEnable, hwe, idSent, enableSent]
  · simp [init, writeEnable, hwe, idSent, enableSent]

/-- With one byte right and the write enable sent, it unlocks the chip. -/
theorem init_unlocked (hgate : a = 0xC8 ∨ b = 0x31) (hwe : fails 1 = false) :
    ∃ r rest, init (idBus t fails a b) ([], []) =
      some (true, r, [idSent fails, enableSent fails, unlockSent fails] ++ rest) := by
  by_cases ht : t = .qspi
  · refine ⟨[fails 0, fails 1, fails 2, fails 3],
      [⟨[fails 0, fails 1, fails 2], [gd5fSetFeature, 0xB0, 0x01], fails 3⟩], ?_⟩
    rcases hgate with rfl | rfl
    · simp [init, writeEnable, hwe, ht, idSent, enableSent, unlockSent]
    · simp [init, writeEnable, hwe, ht, idSent, enableSent, unlockSent]
  · refine ⟨[fails 0, fails 1, fails 2], [], ?_⟩
    rcases hgate with rfl | rfl
    · simp [init, writeEnable, hwe, ht, idSent, enableSent, unlockSent]
    · simp [init, writeEnable, hwe, ht, idSent, enableSent, unlockSent]

/-- With the write enable sent, it is in force when the chip is unlocked. -/
theorem enabledBeforeUnlock_unlocked (hwe : fails 1 = false) (rest : List (Sent (List Bool))) :
    EnabledBeforeUnlock ([idSent fails, enableSent fails, unlockSent fails] ++ rest) := by
  refine ⟨[idSent fails, enableSent fails], unlockSent fails, rest, rfl, rfl, ?_, ?_⟩
  · simp [Sent.opcode, idSent, enableSent, gd5fReadId, gd5fWriteEnable, gd5fSetFeature]
  · exact ⟨enableSent fails, by simp, rfl, hwe⟩

/-! ## The gate -/

/-- **For both buses and all outcomes of the transfers, `init` unlocks only the right chip if and
only if the two id bytes are right together or wrong together.** -/
theorem unlocksOnlyRightChip_iff (t : ProtocolType) (fails : ℕ → Bool) (a b : UInt8) :
    UnlocksOnlyRightChip t fails a b ↔ (a = 0xC8 ↔ b = 0x31) := by
  by_cases hgate : a = 0xC8 ∨ b = 0x31
  · have hright : (a = 0xC8 ↔ b = 0x31) ↔ a = 0xC8 ∧ b = 0x31 := by
      constructor
      · intro h
        rcases hgate with ha | hb
        · exact ⟨ha, h.mp ha⟩
        · exact ⟨h.mpr hb, hb⟩
      · exact fun h => iff_of_true h.1 h.2
    rw [hright]
    cases hwe : fails 1 with
    | true =>
      rw [UnlocksOnlyRightChip, returns_iff (init_not_enabled t fails hgate hwe)]
      constructor
      · exact fun h => h.1 ⟨enableSent fails, by simp, Or.inl rfl⟩
      · intro h
        exact ⟨fun _ => h, fun hnot => absurd h hnot, fun hok => absurd hok (by decide)⟩
    | false =>
      obtain ⟨r, rest, hrun⟩ := init_unlocked t fails hgate hwe
      rw [UnlocksOnlyRightChip, returns_iff hrun]
      constructor
      · exact fun h => h.1 ⟨enableSent fails, by simp, Or.inl rfl⟩
      · intro h
        exact ⟨fun _ => h, fun hnot => absurd h hnot,
          fun _ => enabledBeforeUnlock_unlocked fails hwe rest⟩
  · -- both bytes are wrong, and the gate holds
    obtain ⟨ha, hb⟩ := not_or.mp hgate
    rw [UnlocksOnlyRightChip, returns_iff (init_locked t fails ha hb)]
    refine iff_of_true ⟨?_, fun _ => ⟨rfl, rfl⟩, fun hok => absurd hok (by decide)⟩
      (iff_of_false ha hb)
    rintro ⟨e, he, hop⟩
    have hopcode : (idSent fails).opcode = some gd5fReadId := rfl
    rw [List.mem_singleton.mp he, hopcode] at hop
    exact absurd hop (by decide)

/-- A chip with the right first byte and the wrong second one is unlocked. -/
theorem init_unlocks_wrong_chip : ¬ UnlocksOnlyRightChip .spi (fun _ => false) 0xC8 0x00 := by
  have hwe : (fun _ : ℕ => false) 1 = false := rfl
  obtain ⟨r, rest, hrun⟩ := init_unlocked .spi (fun _ => false) (a := 0xC8) (b := 0x00)
    (Or.inl rfl) hwe
  rw [UnlocksOnlyRightChip, returns_iff hrun]
  intro h
  have := h.1 ⟨enableSent fun _ => false, by simp, Or.inl rfl⟩
  exact absurd this (by decide)

end CommonDrivers.Gd5f
