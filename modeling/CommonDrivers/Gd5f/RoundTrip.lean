import CommonDrivers.Gd5f.Issued

/-! # What is read back

A byte of the device is the AND of everything that was programmed to it since its block was erased.
So what is programmed once to an erased range is read back, however many requests to other places
come in between.
-/

namespace CommonDrivers.Gd5f

open Exec Overlay

/-! ## The history of one byte -/

variable (block : Fin gd5fBlockCount) (o : ℕ)

/-- What a request does to the byte at `o` of `block`. -/
def Request.onByte (x : UInt8) : Request → UInt8
  | .read _ _ _ _ => x
  | .prog b offset data _ => if block = b then overlay (· &&& ·) offset data o x else x
  | .erase b => if block = b then 0xFF else x

theorem BlockDevice.apply_byte (q : Request) (d : BlockDevice) (o : Fin gd5fBlockSize) :
    (BlockDevice.apply q d).2 block o = q.onByte block o (d block o) := by
  cases q with
  | read b offset data h => rfl
  | prog b offset data h =>
    simp only [BlockDevice.apply, Function.update_apply, Request.onByte]
    split
    · next hb => rw [hb]
    · rfl
  | erase b =>
    simp only [BlockDevice.apply, Function.update_apply, Request.onByte]
    split <;> rfl

/-- What a sequence of requests does to the byte. -/
theorem BlockDevice.steps_byte (qs : List Request) (d : BlockDevice) (o : Fin gd5fBlockSize) :
    (steps BlockDevice.apply qs d).2 block o = qs.foldl (Request.onByte block o) (d block o) := by
  induction qs generalizing d with
  | nil => rfl
  | cons q qs ih => rw [steps, ih, List.foldl_cons, BlockDevice.apply_byte]

/-! ## Requests to other places -/

/-- The request programs no byte at `o` of `block`. -/
def Request.Spares : Request → Prop
  | .prog b offset data _ => block = b → o < offset ∨ offset + data.length ≤ o
  | _ => True

/-- The request neither programs the byte nor erases its block. -/
def Request.Leaves (q : Request) : Prop := q.Spares block o ∧ q ≠ .erase block

variable {block o}

theorem Request.onByte_spared {q : Request} (h : q.Spares block o) :
    q.onByte block o 0xFF = 0xFF := by
  cases q with
  | read b offset data hbound => rfl
  | prog b offset data hbound =>
    simp only [onByte]
    split
    · next hb =>
      rcases h hb with hlt | hge
      · exact overlay_of_lt _ hlt data _
      · exact overlay_of_le _ hge _
    · rfl
  | erase b =>
    simp only [onByte, ite_self]

theorem Request.onByte_left {q : Request} (h : q.Leaves block o) (x : UInt8) :
    q.onByte block o x = x := by
  cases q with
  | read b offset data hbound => rfl
  | prog b offset data hbound =>
    simp only [onByte]
    split
    · next hb =>
      rcases h.1 hb with hlt | hge
      · exact overlay_of_lt _ hlt data _
      · exact overlay_of_le _ hge _
    · rfl
  | erase b =>
    refine if_neg fun hb => h.2 ?_
    rw [hb]

/-- An erased byte that is spared stays erased. -/
theorem foldl_onByte_spared {qs : List Request} (h : ∀ q ∈ qs, q.Spares block o) :
    qs.foldl (Request.onByte block o) 0xFF = 0xFF := by
  induction qs with
  | nil => rfl
  | cons q qs ih =>
    obtain ⟨hq, hqs⟩ := List.forall_mem_cons.mp h
    rw [List.foldl_cons, Request.onByte_spared hq, ih hqs]

/-- A byte that is left alone keeps its value. -/
theorem foldl_onByte_left {qs : List Request} (h : ∀ q ∈ qs, q.Leaves block o) (x : UInt8) :
    qs.foldl (Request.onByte block o) x = x := by
  induction qs with
  | nil => rfl
  | cons q qs ih =>
    obtain ⟨hq, hqs⟩ := List.forall_mem_cons.mp h
    rw [List.foldl_cons, Request.onByte_left hq, ih hqs]

/-- Programming an erased byte stores it. -/
theorem overlay_erased (offset : ℕ) {k : ℕ} {data : List UInt8} (hk : k < data.length) :
    overlay (· &&& ·) offset data (offset + k) 0xFF = data[k] := by
  simp only [overlay, Nat.le_add_right, if_true, Nat.add_sub_cancel_left,
    List.getElem?_eq_getElem hk, Option.elim_some]
  -- an erased byte has all its bits set
  rw [UInt8.and_comm]
  exact UInt8.and_neg_one

/-! ## The round trip -/

/-- A program of an erased range and its read-back, with other requests in between. -/
structure RoundTrip where
  block : Fin gd5fBlockCount
  offset : ℕ
  data : List UInt8
  bound : offset + data.length ≤ gd5fBlockSize
  /-- Requests between the erase and the program. -/
  between : List Request
  /-- Requests between the program and the read. -/
  after : List Request
  spared : ∀ q ∈ between, ∀ k < data.length, q.Spares block (offset + k)
  left : ∀ q ∈ after, ∀ k < data.length, q.Leaves block (offset + k)

namespace RoundTrip

/-- The requests up to the read. -/
def requests (r : RoundTrip) : List Request :=
  .erase r.block :: r.between ++ .prog r.block r.offset r.data r.bound :: r.after

/-- The read-back, into a destination that holds anything. -/
def readBack (r : RoundTrip) (buffer : List UInt8) (hlen : buffer.length = r.data.length) :
    Request :=
  .read r.block r.offset buffer (hlen ▸ r.bound)

/-- Behind the requests, the ideal device holds the data. -/
theorem steps_requests (r : RoundTrip) (d : BlockDevice) {k : ℕ} (hk : k < r.data.length) :
    (steps BlockDevice.apply r.requests d).2 r.block ⟨r.offset + k, by have := r.bound; omega⟩ =
      r.data[k] := by
  -- the byte is erased, spared, programmed and left alone, in this order
  rw [BlockDevice.steps_byte, requests, List.cons_append, List.foldl_cons, List.foldl_append,
    List.foldl_cons]
  simp only [Request.onByte, if_true]
  rw [foldl_onByte_spared fun q hq => r.spared q hq k hk,
    foldl_onByte_left fun q hq => r.left q hq k hk]
  exact overlay_erased r.offset hk

end RoundTrip

/-- **What is programmed is read back.** On either bus, from any state of the chip, behind any
requests: the data that is programmed to an erased range is what a read of the range returns, if the
requests in between leave the range alone. So it is with a device that takes no commands but those
of its bus. -/
theorem serve_reads_back (t : ProtocolType) (before : List Request) (r : RoundTrip)
    (buffer : List UInt8) (hlen : buffer.length = r.data.length) (d : Nand) :
    ∃ xs d',
      serve (nandBus t) (before ++ r.requests ++ [r.readBack buffer hlen]) d = some (xs, d') ∧
      serve (strictBus t) (before ++ r.requests ++ [r.readBack buffer hlen]) d = some (xs, d') ∧
      xs.getLast? = some (.ok, r.data) := by
  have hcall : ∀ q (n : Nand) e, contents n = e → ∃ n', Request.run (nandBus t) q n =
      some ((BlockDevice.apply q e).1, n') ∧ contents n' = (BlockDevice.apply q e).2 := by
    rintro q n _ rfl
    exact run_refines t q n
  obtain ⟨d', hrun, -⟩ :=
    each_refines BlockDevice.apply hcall (before ++ r.requests ++ [r.readBack buffer hlen])
      (rfl : contents d = _)
  rw [← serve_eq_each] at hrun
  refine ⟨_, d', hrun, serve_strict hrun, ?_⟩
  rw [steps_append, steps_append]
  simp only [steps, List.getLast?_append, List.getLast?_singleton, Option.some_or,
    RoundTrip.readBack, BlockDevice.apply, Option.some.injEq, Prod.mk.injEq, true_and]
  refine List.ext_getElem (by rw [List.length_ofFn, hlen]) fun k hk hk' => ?_
  rw [List.getElem_ofFn]
  exact r.steps_requests _ hk'

/-- Four bytes across a page boundary, with programs next to them on both pages. -/
def straddle : RoundTrip where
  block := ⟨3, by decide⟩
  offset := 2046
  data := [1, 2, 3, 4]
  bound := by decide
  between := [.prog ⟨3, by decide⟩ 2044 [0xAA, 0xBB] (by decide)]
  after := [.prog ⟨3, by decide⟩ 2050 [0xCC] (by decide), .erase ⟨4, by decide⟩]
  spared := by
    intro q hq k hk
    rw [List.mem_singleton.mp hq]
    exact fun _ => Or.inr (Nat.le_add_right 2046 k)
  left := by
    intro q hq k hk
    have hlt : 2046 + k < 2050 := Nat.add_lt_add_left hk 2046
    rcases List.mem_cons.mp hq with rfl | hq
    · exact ⟨fun _ => Or.inl hlt, by simp⟩
    · rw [List.mem_singleton.mp hq]
      exact ⟨trivial, by simp⟩

/-- On the quad bus, from a chip full of zeros. -/
theorem serve_reads_back_straddle :
    let requests := [] ++ straddle.requests ++ [straddle.readBack [0, 0, 0, 0] rfl]
    let zeros : Nand := ⟨fun _ _ => 0, fun _ => 0, false⟩
    ∃ xs d', serve (nandBus .qspi) requests zeros = some (xs, d') ∧
      serve (strictBus .qspi) requests zeros = some (xs, d') ∧
      xs.getLast? = some (.ok, [1, 2, 3, 4]) :=
  serve_reads_back .qspi [] straddle [0, 0, 0, 0] rfl _

end CommonDrivers.Gd5f
