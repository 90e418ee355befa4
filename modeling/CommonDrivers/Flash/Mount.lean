import CommonDrivers.Flash.BootCount

/-! # Mounting over the life of a medium

`Flash::mount` formats the medium when littlefs cannot mount it, and the boot counter starts again.
The stored counter never exceeds the number of boots since the last format, whichever calls fail;
if none of the calls on its file fails it is that number. A boot whose second mount fails, too, is
reported and not counted.
-/

namespace CommonDrivers.Flash

/-- A call of `mount`: what littlefs does when the medium is mounted. -/
structure Mounting where
  calls : MountCalls
  fails : Failures

namespace Mounting

/-- The medium could not be mounted at first. -/
def formats (b : Mounting) : Prop := b.calls.err ≠ 0

/-- The medium is mounted in the end. -/
def mounts (b : Mounting) : Prop := b.calls.err = 0 ∨ 0 ≤ b.calls.res

instance (b : Mounting) : Decidable b.mounts := inferInstanceAs (Decidable (_ ∨ _))

instance (b : Mounting) : Decidable b.formats := inferInstanceAs (Decidable (_ ≠ _))

def step (m : Medium) (b : Mounting) : Medium := (Flash.mount b.calls b.fails m).2

/-- The medium that `bootcount` finds. -/
def found (b : Mounting) (m : Medium) : Medium := if b.formats then b.calls.format m else m

/-- What a mount returns and leaves. -/
theorem mount_eq (b : Mounting) (m : Medium) :
    Flash.mount b.calls b.fails m =
      if b.mounts then (b.calls.fsSize, (bootcount b.fails true (b.found m)).2)
      else (0xFFFFFFFF, b.found m) := by
  by_cases herr : b.calls.err = 0
  · have hmounts : b.mounts := .inl herr
    have hformats : ¬ b.formats := not_not.mpr herr
    rw [Flash.mount, if_neg (not_not.mpr herr), if_pos hmounts, found, if_neg hformats]
  · have hformats : b.formats := herr
    rw [Flash.mount, if_pos herr, found, if_pos hformats]
    by_cases hres : b.calls.res < 0
    · have hmounts : ¬ b.mounts := fun h => by
        rcases h with h | h
        · exact herr h
        · omega
      rw [if_neg hmounts]
      exact if_pos hres
    · have hmounts : b.mounts := .inr (by omega)
      rw [if_pos hmounts]
      exact if_neg hres

/-- Whatever fails, an update raises the counter by one at most. -/
theorem bootcount_counter_le (fails : Failures) (m : Medium) :
    (bootcount fails true m).2.counter.toNat ≤ m.counter.toNat + 1 := by
  have hsucc : (m.counter + 1).toNat ≤ m.counter.toNat + 1 := by
    rw [UInt32.toNat_add]
    exact Nat.mod_le _ _
  cases hopen : fails.openFails with
  | true =>
    rw [bootcount_unopened m hopen]
    exact Nat.le_succ _
  | false =>
    cases hread : fails.readFails with
    | false =>
      rcases bootcount_read_counter m hopen hread with h | h
      · rw [h]
        exact Nat.le_succ _
      · rw [h]
        exact hsucc
    | true =>
      -- what the update counts up is the initial 0, so it writes 1 or nothing
      rw [bootcount_unread m hopen hread]
      split
      · have hsame : Medium.counter (some (m.getD .empty)) = m.counter := counter_getD m
        rw [hsame]
        exact Nat.le_succ _
      · have hone : Medium.counter (some ((m.getD .empty).write 0 1)) = 1 :=
          BootFile.counter_write _ 1
        rw [hone]
        exact Nat.succ_le_succ (Nat.zero_le _)

/-- The boots that mount the medium. -/
def mounted (boots : List Mounting) : ℕ := boots.countP fun b => b.mounts

theorem mounted_cons (b : Mounting) (boots : List Mounting) :
    mounted (b :: boots) = mounted [b] + mounted boots := by
  rw [mounted, mounted, mounted, ← List.countP_append, List.singleton_append]

/-- A boot on a medium that can be mounted, or one that formats. -/
theorem step_counter (b : Mounting) (m : Medium) :
    (step m b).counter.toNat ≤ (b.found m).counter.toNat + mounted [b] ∧
      (b.fails = {} → (step m b).counter =
        (b.found m).counter + UInt32.ofNat (mounted [b])) := by
  rw [step, mount_eq]
  by_cases hmounts : b.mounts
  · have hone : mounted [b] = 1 := by simp [mounted, hmounts]
    rw [if_pos hmounts, hone]
    refine ⟨bootcount_counter_le b.fails (b.found m), fun hclean => ?_⟩
    rw [hclean]
    exact (bootcount_clean (b.found m)).1
  · have hzero : mounted [b] = 0 := by simp [mounted, hmounts]
    rw [if_neg hmounts, hzero]
    exact ⟨Nat.le_refl _, fun _ => (UInt32.add_zero _).symm⟩

/-- Boots that do not format count from what they find. -/
theorem run_counter {boots : List Mounting} (h : ∀ b ∈ boots, ¬ b.formats) (m : Medium) :
    (Run.run step m boots).counter.toNat ≤ m.counter.toNat + mounted boots ∧
      ((∀ b ∈ boots, b.fails = {}) → (Run.run step m boots).counter =
        m.counter + UInt32.ofNat (mounted boots)) := by
  induction boots generalizing m with
  | nil => exact ⟨Nat.le_refl _, fun _ => (UInt32.add_zero _).symm⟩
  | cons b boots ih =>
    have hfound : b.found m = m := if_neg (h b List.mem_cons_self)
    obtain ⟨hle, heq⟩ := step_counter b m
    obtain ⟨hrest, hrestEq⟩ := ih (fun b' hb' => h b' (List.mem_cons_of_mem b hb')) (step m b)
    rw [hfound] at hle heq
    rw [Run.run_cons, mounted_cons]
    refine ⟨by omega, fun hclean => ?_⟩
    rw [hrestEq fun b' hb' => hclean b' (List.mem_cons_of_mem b hb'),
      heq (hclean b List.mem_cons_self), UInt32.add_assoc, ← UInt32.ofNat_add]

/-- **Since the last format the boot counter has counted at most the boots that mounted the medium,
whatever else fails, and exactly these if no call on its file fails; a boot whose mounts both fail
returns `0xFFFFFFFF` and is not counted.** -/
theorem run_since_format (before after : List Mounting) (fmt : Mounting) (hfmt : fmt.formats)
    (herased : ∀ m, fmt.calls.format m = none) (hafter : ∀ b ∈ after, ¬ b.formats) (m : Medium) :
    let stored := Run.run step m (before ++ fmt :: after)
    stored.counter.toNat ≤ mounted (fmt :: after) ∧
    ((∀ b ∈ fmt :: after, b.fails = {}) →
      stored.counter = UInt32.ofNat (mounted (fmt :: after))) ∧
    ∀ b : Mounting, (Flash.mount b.calls b.fails stored).1 =
      if b.mounts then b.calls.fsSize else 0xFFFFFFFF := by
  intro stored
  obtain ⟨mid, hmid⟩ : ∃ mid, Run.run step m before = mid := ⟨_, rfl⟩
  have hstored : stored = Run.run step (step mid fmt) after := by
    rw [← hmid]
    exact Run.run_append step m before (fmt :: after)
  -- whatever was counted before is gone
  have hzero : (fmt.found mid).counter = 0 := by
    rw [found, if_pos hfmt, herased]
    rfl
  obtain ⟨hle, heq⟩ := step_counter fmt mid
  obtain ⟨hrest, hrestEq⟩ := run_counter hafter (step mid fmt)
  rw [hzero] at hle heq
  rw [mounted_cons]
  refine ⟨?_, fun hclean => ?_, fun b => ?_⟩
  · rw [hstored]
    have : (0 : UInt32).toNat = 0 := rfl
    omega
  · rw [hstored, hrestEq fun b hb => hclean b (List.mem_cons_of_mem fmt hb),
      heq (hclean fmt List.mem_cons_self), UInt32.zero_add, ← UInt32.ofNat_add]
  · rw [mount_eq]
    split
    · rfl
    · rfl

/-- A medium that cannot be mounted at first, and two more boots. -/
theorem run_since_format_two :
    let fmt : Mounting := ⟨⟨-84, fun _ => none, 0, 4⟩, {}⟩
    let boot : Mounting := ⟨⟨0, id, 0, 4⟩, {}⟩
    (Run.run step (some ⟨[7, 0, 0, 0], .inr (Nat.le_refl _)⟩) [boot, fmt, boot, boot]).counter =
      3 := by
  intro fmt boot
  have hfmt : fmt.formats := by decide
  have hafter : ∀ b ∈ [boot, boot], ¬ b.formats := by decide
  exact (run_since_format [boot] [boot, boot] fmt hfmt (fun _ => rfl) hafter
    (some ⟨[7, 0, 0, 0], .inr (Nat.le_refl _)⟩)).2.1 (by decide)

end Mounting

end CommonDrivers.Flash
