import CommonDrivers.Gd5f.Issued

/-! # Faulty transfers

The callbacks look at the result of the write enable only, so they go on when a transfer was lost.
What they do to the chip then is not what was asked for, but it is confined: over any run, whatever
each transfer does and reports, a page that no request addresses keeps its bytes, bits are set by
erases only, and the callbacks are back in order as soon as the transfers are.
-/

namespace CommonDrivers.Gd5f

open Exec

/-! ## The faulty bus -/

/-- What happens to a transfer: whether its command arrives at the chip, and whether it is reported
as failed. -/
structure Fault where
  arrives : Bool
  reported : Bool
deriving DecidableEq, Repr

/-- A transfer that goes well. -/
def Fault.none : Fault := ⟨true, false⟩

/-- The chip on a bus of type `t` whose `k`-th transfer meets `faults k`; a read that does not
arrive leaves `noise k` in its destination. The state counts the transfers. -/
def faultyBus (t : ProtocolType) (faults : ℕ → Fault) (noise : ℕ → List UInt8 → List UInt8) :
    Protocol (Nand × ℕ) where
  type := t
  read cmd buffer _ := total fun s =>
    (((faults s.2).reported,
      if (faults s.2).arrives then s.1.reply cmd buffer else noise s.2 buffer), s.1, s.2 + 1)
  write cmd buffer _ := total fun s =>
    ((faults s.2).reported, if (faults s.2).arrives then s.1.command cmd buffer else s.1, s.2 + 1)
  configure _ := pure false
  readDMA _ := pure true

/-! ## What a request can touch -/

/-- The rows that a request addresses in order to change them. -/
def Request.Touches : Request → ℕ → Prop
  | .read _ _ _ _, _ => False
  | .prog block offset data _, row => RowsOf block offset data.length row
  | .erase block, row => row / gd5fPagesPerBlock = block

/-- The rows of the block that a request erases. -/
def Request.Erases : Request → ℕ → Prop
  | .erase block, row => row / gd5fPagesPerBlock = block
  | _, _ => False

/-- The chip `d'` differs from `d` in the rows in `touched` only, and outside the rows in `erased`
bits have been cleared only. -/
structure Confined (touched erased : ℕ → Prop) (d d' : Nand) : Prop where
  same : ∀ row, ¬ touched row → d'.pages row = d.pages row
  cleared : ∀ row, ¬ erased row → ∀ col, d'.pages row col &&& d.pages row col = d'.pages row col

section Confined

variable {touched erased : ℕ → Prop} {d d' d'' : Nand}

theorem Confined.of_pages_eq (h : d'.pages = d.pages) : Confined touched erased d d' :=
  ⟨fun row _ => congrFun h row, fun row _ col => by rw [h, UInt8.and_self]⟩

theorem Confined.trans (h : Confined touched erased d d') (h' : Confined touched erased d' d'') :
    Confined touched erased d d'' := by
  refine ⟨fun row hrow => (h'.same row hrow).trans (h.same row hrow), fun row hrow col => ?_⟩
  rw [← h'.cleared row hrow col, UInt8.and_assoc, h.cleared row hrow col]

theorem Confined.mono {touched' erased' : ℕ → Prop} (h : Confined touched erased d d')
    (ht : ∀ row, touched row → touched' row) (he : ∀ row, erased row → erased' row) :
    Confined touched' erased' d d' :=
  ⟨fun row hrow => h.same row (mt (ht row) hrow), fun row hrow => h.cleared row (mt (he row) hrow)⟩

/-- Programming a row, from whatever is in the cache. -/
theorem Confined.execute {row : ℕ} (hrow : touched row) :
    Confined touched erased d (d.execute row) := by
  rw [Nand.execute]
  split
  · refine ⟨fun r hr => ?_, fun r hr col => ?_⟩
    · have hne : r ≠ row := fun h => hr (h.symm ▸ hrow)
      exact Function.update_of_ne hne _ _
    · by_cases h : r = row
      · subst h
        simp only [Function.update_self]
        rw [UInt8.and_comm, ← UInt8.and_assoc, UInt8.and_self]
      · simp only [Function.update_of_ne h, UInt8.and_self]
  · exact Confined.of_pages_eq rfl

/-- Erasing the block of a row. -/
theorem Confined.eraseBlock {row : ℕ}
    (htouched : ∀ r, r / gd5fPagesPerBlock = row / gd5fPagesPerBlock → touched r)
    (herased : ∀ r, r / gd5fPagesPerBlock = row / gd5fPagesPerBlock → erased r) :
    Confined touched erased d (d.eraseBlock row) := by
  rw [Nand.eraseBlock]
  split
  · refine ⟨fun r hr => if_neg fun h => hr (htouched r h), fun r hr col => ?_⟩
    simp only [if_neg fun h => hr (herased r h), UInt8.and_self]
  · exact Confined.of_pages_eq rfl

end Confined

/-! ## One request -/

section Requests

variable (t : ProtocolType) (faults : ℕ → Fault) (noise : ℕ → List UInt8 → List UInt8)

/-- A transfer of a request, arrived or not, does no more to the chip than the request may. -/
theorem Request.command_confined (q : Request) (d : Nand) {op : UInt8} {cmd buffer : List UInt8}
    {size : AddressSize} (hop : op ∈ q.ops) (h : IssuedWrite t q.Rows (op :: cmd) buffer size) :
    Confined q.Touches q.Erases d (d.command (op :: cmd) buffer) := by
  cases h with
  | enable => exact Confined.of_pages_eq rfl
  | row hmem hr hlt =>
    have hrow := hlt.trans (by decide : gd5fBlockCount * gd5fPagesPerBlock < 2 ^ 24)
    rcases List.mem_cons.mp hmem with rfl | hmem
    · rw [Nand.command_fetch _ hrow]
      exact Confined.of_pages_eq rfl
    rcases List.mem_cons.mp hmem with rfl | hmem
    · -- only a program sends this command, and for the rows that it touches
      rw [Nand.command_execute _ hrow]
      cases q with
      | read block offset data hbound =>
        exact absurd (show gd5fProgramExecute ∈ readOps from hop) (by decide)
      | prog block offset data hbound => exact Confined.execute hr
      | erase block =>
        exact absurd (show gd5fProgramExecute ∈ eraseOps from hop) (by decide)
    · obtain rfl := List.mem_singleton.mp hmem
      -- only an erase sends this command, and for a row of its block
      rw [Nand.command_erase _ hrow]
      cases q with
      | read block offset data hbound =>
        exact absurd (show gd5fErase ∈ readOps from hop) (by decide)
      | prog block offset data hbound =>
        exact absurd (show gd5fErase ∈ progOps from hop) (by decide)
      | erase block =>
        have hdiv := Request.Rows.div_eq hr
        exact Confined.eraseBlock (fun r h => h.trans hdiv) fun r h => h.trans hdiv
  | load hcol hdata =>
    have hload : (if t = .qspi then gd5fProgramLoadQuad else gd5fProgramLoad) = gd5fProgramLoad ∨
        (if t = .qspi then gd5fProgramLoadQuad else gd5fProgramLoad) = gd5fProgramLoadQuad := by
      split
      · exact Or.inr rfl
      · exact Or.inl rfl
    rw [Nand.command_load _ hload hcol]
    exact Confined.of_pages_eq rfl
  | unlock => exact Confined.of_pages_eq rfl
  | quad ht => exact Confined.of_pages_eq rfl

/-- **One request.** Whatever happens to its transfers, it returns and does no more than it may. -/
theorem Request.run_confined (q : Request) (d : Nand) (k : ℕ) :
    ∃ x d' k', q.run (faultyBus t faults noise) (d, k) = some (x, d', k') ∧
      Confined q.Touches q.Erases d d' := by
  have hkeeps : Keeps (fun s : Nand × ℕ => Confined q.Touches q.Erases d s.1) (fun _ => True)
      (faultyBus t faults noise) q.ops q.Rows := by
    refine ⟨fun _ s hs => ⟨false, s, rfl, hs⟩, ?_, ?_⟩
    · intro op cmd buffer size hop hissued s hs
      refine ⟨_, _, rfl, trivial, ?_⟩
      show Confined _ _ d (if (faults s.2).arrives then s.1.command (op :: cmd) buffer else s.1)
      -- the transfer has arrived or it has not
      split
      · exact hs.trans (q.command_confined t s.1 hop hissued)
      · exact hs
    · exact fun op cmd buffer size hop hissued s hs => ⟨_, _, rfl, hs⟩
  obtain ⟨x, s, hrun, -, hs⟩ := q.run_keeps hkeeps (d, k) (Confined.of_pages_eq rfl)
  exact ⟨x, s.1, s.2, hrun, hs⟩

variable {faults} in
/-- From the transfer on from which all go well, the bus is the plain one. -/
theorem alike_recovered {k : ℕ} (h : ∀ i, k ≤ i → faults i = .none) (ops : List UInt8)
    (rows : ℕ → Prop) :
    Alike (fun s d => s.1 = d ∧ k ≤ s.2) (faultyBus t faults noise) (nandBus t) ops rows := by
  refine ⟨rfl, fun _ => Simulates.pure _, ?_, ?_⟩
  · rintro op cmd buffer size - - ⟨d, i⟩ _ ⟨rfl, hk⟩
    simp only [faultyBus, total_apply, nandBus_write, h i hk]
    exact .some ⟨rfl, rfl, hk.trans (Nat.le_succ i)⟩
  · rintro op cmd buffer size - - ⟨d, i⟩ _ ⟨rfl, hk⟩
    simp only [faultyBus, total_apply, nandBus_read, h i hk]
    exact .some ⟨rfl, rfl, hk.trans (Nat.le_succ i)⟩

end Requests

/-! ## Runs -/

section Runs

variable (t : ProtocolType) (faults : ℕ → Fault) (noise : ℕ → List UInt8 → List UInt8)

theorem serve_confined (qs : List Request) (d : Nand) (k : ℕ) :
    ∃ xs d' k', serve (faultyBus t faults noise) qs (d, k) = some (xs, d', k') ∧
      Confined (fun row => ∃ q ∈ qs, q.Touches row) (fun row => ∃ q ∈ qs, q.Erases row) d d' := by
  induction qs generalizing d k with
  | nil => exact ⟨[], d, k, rfl, Confined.of_pages_eq rfl⟩
  | cons q qs ih =>
    obtain ⟨x, d₁, k₁, hfirst, h₁⟩ := q.run_confined t faults noise d k
    obtain ⟨xs, d₂, k₂, hrest, h₂⟩ := ih d₁ k₁
    refine ⟨x :: xs, d₂, k₂, ?_, (h₁.mono ?_ ?_).trans (h₂.mono ?_ ?_)⟩
    · rw [serve, bind_apply, hfirst, Option.bind_some, bind_apply, hrest]
      rfl
    · exact fun row h => ⟨q, List.mem_cons_self, h⟩
    · exact fun row h => ⟨q, List.mem_cons_self, h⟩
    · rintro row ⟨r, hr, h⟩
      exact ⟨r, List.mem_cons_of_mem q hr, h⟩
    · rintro row ⟨r, hr, h⟩
      exact ⟨r, List.mem_cons_of_mem q hr, h⟩

theorem serve_recovered {faults : ℕ → Fault} {k : ℕ} (h : ∀ i, k ≤ i → faults i = .none)
    (qs : List Request) (d : Nand) :
    ∃ xs s, serve (faultyBus t faults noise) qs (d, k) = some (xs, s) ∧
      (xs, contents s.1) = BlockDevice.applyAll qs (contents d) := by
  have hcall : ∀ q (s : Nand × ℕ) e, contents s.1 = e ∧ k ≤ s.2 →
      ∃ s', Request.run (faultyBus t faults noise) q s = some ((BlockDevice.apply q e).1, s') ∧
        contents s'.1 = (BlockDevice.apply q e).2 ∧ k ≤ s'.2 := by
    rintro q s _ ⟨rfl, hk⟩
    obtain ⟨d', hrun, hcont⟩ := run_refines t q s.1
    obtain ⟨s', hrun', rfl, hk'⟩ :=
      (q.run_simulates (alike_recovered t noise h q.ops q.Rows)).returns ⟨rfl, hk⟩ hrun
    exact ⟨s', hrun', hcont, hk'⟩
  obtain ⟨s, hrun, hcont, -⟩ :=
    each_refines BlockDevice.apply hcall qs (⟨rfl, le_rfl⟩ : contents (d, k).1 = _ ∧ k ≤ k)
  rw [serve_eq_each, BlockDevice.applyAll_eq_steps]
  exact ⟨_, s, hrun, by rw [hcont]⟩

end Runs

/-- **The damage of faulty transfers is confined.** A sequence of requests over a bus on which each
transfer may be lost, or go through, and be reported either way, returns; it has changed only pages
that a program or an erase of it addresses, and has set bits only in blocks that it erases. If from
then on the transfers go well, every further sequence acts as on the ideal device. -/
theorem serve_faulty (t : ProtocolType) (faults : ℕ → Fault) (noise : ℕ → List UInt8 → List UInt8)
    (qs : List Request) (d : Nand) (k : ℕ) :
    ∃ xs d' k', serve (faultyBus t faults noise) qs (d, k) = some (xs, d', k') ∧
      Confined (fun row => ∃ q ∈ qs, q.Touches row) (fun row => ∃ q ∈ qs, q.Erases row) d d' ∧
      ((∀ i, k' ≤ i → faults i = .none) → ∀ qs', ∃ ys s'',
        serve (faultyBus t faults noise) qs' (d', k') = some (ys, s'') ∧
        (ys, contents s''.1) = BlockDevice.applyAll qs' (contents d')) := by
  obtain ⟨xs, d', k', hrun, hconf⟩ := serve_confined t faults noise qs d k
  exact ⟨xs, d', k', hrun, hconf, fun h qs' => serve_recovered t noise h qs' d'⟩

end CommonDrivers.Gd5f
