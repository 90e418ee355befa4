import Mathlib.Data.List.GetD
import CommonDrivers.Sensors.Gps

/-! # The fields of a line

The table that the split of a line fills: field `k` holds the first 19 characters of the `k`-th
piece between the commas. The table starts out as NULs, so at any time the splitter is a function of
the pieces it has finished and the part of the current one it has seen.
-/

namespace CommonDrivers.Sensors.Gps

/-- A field with the first 19 characters of a piece and NULs behind them. -/
def packed (piece : List UInt8) : Vector UInt8 20 :=
  Vector.ofFn fun i => (piece.take 19).getD i NUL

/-- The table with the given pieces in its first fields. -/
def table (pieces : List (List UInt8)) : Vector (Vector UInt8 20) 20 :=
  Vector.ofFn fun k => packed (pieces.getD k [])

theorem getElem_packed (piece : List UInt8) {i : ℕ} (hi : i < 20) :
    (packed piece)[i] = (piece.take 19).getD i NUL := Vector.getElem_ofFn hi

theorem getElem_table (pieces : List (List UInt8)) {k : ℕ} (hk : k < 20) :
    (table pieces)[k] = packed (pieces.getD k []) := Vector.getElem_ofFn hk

/-! ## One field -/

/-- The NUL that ends a field is there already. -/
theorem packed_set_nul (cur : List UInt8) (h : min cur.length 19 < 20) :
    (packed cur).set (min cur.length 19) NUL h = packed cur := by
  refine Vector.ext fun i hi => ?_
  rw [Vector.getElem_set, getElem_packed]
  split
  · next heq =>
    rw [List.getD_eq_default _ _ (by rw [List.length_take]; omega)]
  · rfl

/-- A character that fits goes behind the ones already there. -/
theorem packed_set_char {cur : List UInt8} (hlen : cur.length < 19) (c : UInt8)
    (h : min cur.length 19 < 20) :
    (packed cur).set (min cur.length 19) c h = packed (cur ++ [c]) := by
  have hcur : cur.take 19 = cur := List.take_of_length_le hlen.le
  have hnext : (cur ++ [c]).take 19 = cur ++ [c] :=
    List.take_of_length_le (by rw [List.length_append, List.length_singleton]; omega)
  refine Vector.ext fun i hi => ?_
  rw [Vector.getElem_set, getElem_packed, getElem_packed, hcur, hnext]
  rcases Nat.lt_trichotomy i cur.length with hlt | rfl | hgt
  · rw [if_neg (by omega), List.getD_append _ _ _ _ hlt]
  · rw [if_pos (by omega), List.getD_append_right _ _ _ _ le_rfl, Nat.sub_self]
    rfl
  · rw [if_neg (by omega), List.getD_eq_default _ _ hgt.le,
      List.getD_eq_default _ _ (by simp; omega)]

/-- A character that does not fit is dropped. -/
theorem packed_full {cur : List UInt8} (hlen : 19 ≤ cur.length) (c : UInt8) :
    packed (cur ++ [c]) = packed cur := by
  rw [packed, packed, List.take_append_of_le_length hlen]

theorem toList_packed (piece : List UInt8) :
    (packed piece).toList =
      piece.take 19 ++ List.replicate (20 - (piece.take 19).length) NUL := by
  have hlen : (piece.take 19).length ≤ 19 := List.length_take_le 19 piece
  refine List.ext_getElem ?_ fun i hi hi' => ?_
  · rw [Vector.length_toList, List.length_append, List.length_replicate]
    omega
  · rw [Vector.length_toList] at hi
    rw [Vector.getElem_toList, getElem_packed]
    rcases Nat.lt_or_ge i (piece.take 19).length with hlt | hge
    · rw [List.getElem_append_left hlt, List.getD_eq_getElem _ _ hlt]
    · rw [List.getElem_append_right hge, List.getElem_replicate, List.getD_eq_default _ _ hge]

/-- The string in a field is the start of its piece. -/
theorem cString_packed {piece : List UInt8} (h : NUL ∉ piece) :
    cString (packed piece) = piece.take 19 := by
  have hall : ∀ c ∈ piece.take 19, decide (c ≠ NUL) = true := fun c hc =>
    decide_eq_true fun heq => h (heq ▸ List.mem_of_mem_take hc)
  rw [cString, toList_packed, List.takeWhile_append_of_pos hall]
  have hnul : (List.replicate (20 - (piece.take 19).length) NUL).takeWhile
      (fun c => decide (c ≠ NUL)) = [] := by
    cases 20 - (piece.take 19).length with
    | zero => rfl
    | succ n => rfl
  rw [hnul, List.append_nil]

/-! ## The splitter -/

/-- The splitter that has finished the pieces `done` and seen `cur` of the next one. -/
def stateAt (done : List (List UInt8)) (cur : List UInt8) : Splitter :=
  ⟨table (done ++ [cur]), done.length, min cur.length 19⟩

section Step

variable {done : List (List UInt8)} (hdone : done.length < 20)
include hdone

theorem table_set {cur cur' : List UInt8} {field : Vector UInt8 20} (hfield : field = packed cur') :
    (table (done ++ [cur])).set done.length field = table (done ++ [cur']) := by
  refine Vector.ext fun k hk => ?_
  rw [Vector.getElem_set, getElem_table, getElem_table]
  rcases Nat.lt_trichotomy k done.length with hlt | rfl | hgt
  · rw [if_neg (by omega), List.getD_append _ _ _ _ hlt, List.getD_append _ _ _ _ hlt]
  · rw [if_pos rfl, List.getD_append_right _ _ _ _ le_rfl, Nat.sub_self]
    exact hfield
  · rw [if_neg (by omega), List.getD_eq_default _ _ (by simp; omega),
      List.getD_eq_default _ _ (by simp; omega)]

theorem stateAt_put {cur cur' : List UInt8} {c : UInt8} (h : min cur.length 19 < 20)
    (hset : (packed cur).set (min cur.length 19) c h = packed cur') :
    (stateAt done cur).put c =
      some ⟨table (done ++ [cur']), done.length, min cur.length 19⟩ := by
  have hfield : (table (done ++ [cur]))[done.length] = packed cur := by
    rw [getElem_table, List.getD_append_right _ _ _ _ le_rfl, Nat.sub_self]
    rfl
  refine (dif_pos hdone).trans ((dif_pos h).trans (congrArg some ?_))
  refine congrArg (fun fields => Splitter.mk fields done.length (min cur.length 19)) ?_
  refine table_set hdone (Eq.trans ?_ hset)
  exact congrArg (fun f : Vector UInt8 20 => f.set (min cur.length 19) c h) hfield

/-- Ending a piece changes nothing. -/
theorem stateAt_put_nul (cur : List UInt8) :
    (stateAt done cur).put NUL = some (stateAt done cur) :=
  have h : min cur.length 19 < 20 := by omega
  stateAt_put hdone h (packed_set_nul cur h)

/-- A character that fits joins the piece. -/
theorem stateAt_put_char {cur : List UInt8} (hlen : cur.length < 19) (c : UInt8) :
    ((stateAt done cur).put c).map (fun s => { s with charIndex := s.charIndex + 1 }) =
      some (stateAt done (cur ++ [c])) := by
  have h : min cur.length 19 < 20 := by omega
  rw [stateAt_put hdone h (packed_set_char hlen c h), Option.map_some, stateAt]
  refine congrArg some (congrArg (Splitter.mk _ _) ?_)
  rw [List.length_append, List.length_singleton]
  change min cur.length 19 + 1 = min (cur.length + 1) 19
  omega

/-- A character that does not fit changes nothing. -/
theorem stateAt_full {cur : List UInt8} (hlen : 19 ≤ cur.length) (c : UInt8) :
    stateAt done (cur ++ [c]) = stateAt done cur := by
  have htable : table (done ++ [cur ++ [c]]) = table (done ++ [cur]) :=
    (@table_set done hdone cur (cur ++ [c]) _ (packed_full hlen c).symm).symm.trans
      (@table_set done hdone cur cur _ rfl)
  rw [stateAt, stateAt, htable, List.length_append, List.length_singleton,
    Nat.min_eq_right hlen, Nat.min_eq_right (Nat.le_succ_of_le hlen)]

end Step

/-- A comma begins an empty piece, for which nothing has to be stored. -/
theorem table_append_nil (pieces : List (List UInt8)) : table (pieces ++ [[]]) = table pieces := by
  refine Vector.ext fun k hk => ?_
  rw [getElem_table, getElem_table]
  refine congrArg packed ?_
  rcases Nat.lt_trichotomy k pieces.length with hlt | rfl | hgt
  · rw [List.getD_append _ _ _ _ hlt]
  · rw [List.getD_append_right _ _ _ _ le_rfl, List.getD_eq_default _ _ le_rfl, Nat.sub_self]
    rfl
  · rw [List.getD_eq_default _ _ hgt.le, List.getD_eq_default _ _ (by simp; omega)]

/-- The table of no pieces is the one that the split starts out with. -/
theorem table_nil : table [] = Vector.replicate 20 (Vector.replicate 20 0) := by
  refine Vector.ext fun k hk => Vector.ext fun i hi => ?_
  rw [getElem_table, getElem_packed, Vector.getElem_replicate, Vector.getElem_replicate]
  rfl

/-- Pieces behind the last field do not show. -/
theorem table_append_of_le {pieces : List (List UInt8)} (h : 20 ≤ pieces.length)
    (more : List (List UInt8)) : table (pieces ++ more) = table pieces := by
  refine Vector.ext fun k hk => ?_
  rw [getElem_table, getElem_table, List.getD_append _ _ _ _ (by omega)]

/-- The pieces of the rest of a line, the first of which goes on from `cur`. -/
def piecesFrom (cur rest : List UInt8) : List (List UInt8) :=
  (rest.splitOn comma).modifyHead (cur ++ ·)

theorem piecesFrom_start (line : List UInt8) : piecesFrom [] line = line.splitOn comma := by
  rw [piecesFrom]
  cases line.splitOn comma with
  | nil => rfl
  | cons piece pieces => rfl

theorem piecesFrom_nil (cur : List UInt8) : piecesFrom cur [] = [cur] := by
  rw [piecesFrom, List.splitOn_nil, List.modifyHead_cons, List.append_nil]

theorem piecesFrom_comma (cur rest : List UInt8) :
    piecesFrom cur (comma :: rest) = cur :: piecesFrom [] rest := by
  rw [piecesFrom_start, piecesFrom, List.splitOn_cons_eq_if_modifyHead,
    if_pos (beq_self_eq_true comma), List.modifyHead_cons, List.append_nil]

theorem piecesFrom_char {c : UInt8} (hc : c ≠ comma) (cur rest : List UInt8) :
    piecesFrom cur (c :: rest) = piecesFrom (cur ++ [c]) rest := by
  rw [piecesFrom, piecesFrom, List.splitOn_cons_eq_if_modifyHead, if_neg (by simpa using hc),
    List.modifyHead_modifyHead]
  simp [Function.comp_def]

theorem splitLoop_stateAt (line : List UInt8) {done : List (List UInt8)} (hdone : done.length < 20)
    (cur : List UInt8) :
    ∃ s, splitLoop line (stateAt done cur) = some s ∧
      s.fields = table (done ++ piecesFrom cur line) ∧
      (s.fieldIndex < 20 → ∃ done' cur', s = stateAt done' cur') := by
  induction line generalizing done cur with
  | nil =>
    refine ⟨stateAt done cur, rfl, ?_, fun _ => ⟨done, cur, rfl⟩⟩
    rw [piecesFrom_nil]
    rfl
  | cons c rest ih =>
    rw [splitLoop]
    by_cases hc : c = comma
    · rw [if_pos hc, stateAt_put_nul hdone, Option.bind_some, hc, piecesFrom_comma]
      have hlen : (done ++ [cur]).length = done.length + 1 := by simp
      by_cases hfull : done.length + 1 ≥ 20
      · refine ⟨_, if_pos hfull, ?_, fun h => ?_⟩
        · rw [← List.singleton_append, ← List.append_assoc, table_append_of_le (by omega)]
          rfl
        · exact absurd h (Nat.not_lt.mpr hfull)
      · obtain ⟨s, hs, hfields, hstate⟩ := ih (show (done ++ [cur]).length < 20 by omega) []
        refine ⟨s, ?_, ?_, hstate⟩
        · rw [← hs]
          refine (if_neg hfull).trans (congrArg (splitLoop rest) ?_)
          rw [stateAt, stateAt, table_append_nil, hlen]
          rfl
        · rw [hfields, List.append_assoc, List.singleton_append]
    · rw [if_neg hc, piecesFrom_char hc]
      by_cases hchar : cur.length < 19
      · obtain ⟨s₁, hput, hnext⟩ := Option.map_eq_some_iff.mp (stateAt_put_char hdone hchar c)
        have hindex : (stateAt done cur).charIndex < 19 := by
          change min cur.length 19 < 19
          omega
        rw [if_pos hindex, hput, Option.bind_some, hnext]
        exact ih hdone (cur ++ [c])
      · have hindex : ¬ (stateAt done cur).charIndex < 19 := by
          change ¬ min cur.length 19 < 19
          omega
        have hsame : stateAt done (cur ++ [c]) = stateAt done cur :=
          stateAt_full hdone (by omega) c
        rw [if_neg hindex, ← hsame]
        exact ih hdone (cur ++ [c])

/-- **The split of a line fills field `k` with the first 19 characters of its `k`-th piece, for each
of the twenty fields, and counts the commas up to twenty.** -/
theorem split_fields (line : List UInt8) :
    ∃ s, split line = some s ∧ s.fields = table (line.splitOn comma) ∧
      s.fieldIndex = min (line.count comma) 20 := by
  obtain ⟨s, hs, hindex⟩ := split_eq line
  refine ⟨s, hs, ?_, hindex⟩
  have hstart : stateAt [] [] = ⟨Vector.replicate 20 (Vector.replicate 20 0), 0, 0⟩ := by
    refine congrArg (fun fields => Splitter.mk fields 0 0) ?_
    exact (table_append_nil []).trans table_nil
  have hnone : ([] : List (List UInt8)).length < 20 := by decide
  obtain ⟨s', hs', hfields, hstate⟩ := splitLoop_stateAt line hnone []
  rw [List.nil_append, piecesFrom_start] at hfields
  rw [split, ← hstart, hs', Option.bind_some] at hs
  by_cases hlt : s'.fieldIndex < 20
  · obtain ⟨done, cur, rfl⟩ := hstate hlt
    rw [if_pos hlt, stateAt_put_nul hlt, Option.some.injEq] at hs
    rw [← hs, hfields]
  · rw [if_neg hlt, Option.some.injEq] at hs
    rw [← hs, hfields]

/-! ## Malformed lines -/

/-- A piece has no character that its line has not. -/
theorem mem_of_mem_splitOn {line piece : List UInt8} {c : UInt8}
    (hpiece : piece ∈ line.splitOn comma) (hc : c ∈ piece) : c ∈ line := by
  induction line generalizing piece with
  | nil =>
    rw [List.splitOn_nil, List.mem_singleton] at hpiece
    exact hpiece ▸ hc
  | cons d rest ih =>
    rw [List.splitOn_cons_eq_if_modifyHead] at hpiece
    split at hpiece
    · rcases List.mem_cons.mp hpiece with rfl | hpiece
      · exact absurd hc List.not_mem_nil
      · exact List.mem_cons_of_mem d (ih hpiece hc)
    · cases hsplit : rest.splitOn comma with
      | nil => exact absurd hsplit (List.splitOn_ne_nil comma rest)
      | cons head tail =>
        rw [hsplit] at hpiece ih
        rcases List.mem_cons.mp hpiece with rfl | hpiece
        · rcases List.mem_cons.mp hc with rfl | hc
          · exact List.mem_cons_self
          · exact List.mem_cons_of_mem d (ih List.mem_cons_self hc)
        · exact List.mem_cons_of_mem d (ih (List.mem_cons_of_mem head hpiece) hc)

/-- **The split of any line without NUL stays inside the table. Field `k` is then the C string of
the first 19 characters of the `k`-th piece, empty if there is none, and the test for nine commas
rejects exactly the lines with fewer.** -/
theorem split_total (line : List UInt8) (hnul : NUL ∉ line) :
    ∃ s, split line = some s ∧
      (∀ (k : ℕ) (hk : k < 20),
        cString s.fields[k] = ((line.splitOn comma).getD k []).take 19 ∧ s.fields[k][19] = NUL) ∧
      s.fieldIndex = min (line.count comma) 20 ∧
      (s.fieldIndex < 9 ↔ line.count comma < 9) := by
  obtain ⟨s, hs, hfields, hindex⟩ := split_fields line
  refine ⟨s, hs, fun k hk => ?_, hindex, by omega⟩
  have hpiece : NUL ∉ (line.splitOn comma).getD k [] := by
    intro hmem
    by_cases hlt : k < (line.splitOn comma).length
    · rw [List.getD_eq_getElem _ _ hlt] at hmem
      exact hnul (mem_of_mem_splitOn (List.getElem_mem hlt) hmem)
    · rw [List.getD_eq_default _ _ (Nat.le_of_not_lt hlt)] at hmem
      cases hmem
  simp only [hfields, getElem_table _ hk]
  refine ⟨cString_packed hpiece, ?_⟩
  rw [getElem_packed, List.getD_eq_default]
  exact List.length_take_le 19 _

/-- Two commas in a row, and one at the end. -/
theorem split_total_empty_pieces :
    ∃ s, split [65, comma, comma, 66, comma] = some s ∧
      (∀ (k : ℕ) (hk : k < 20),
        cString s.fields[k] = (([65, comma, comma, 66, comma].splitOn comma).getD k []).take 19 ∧
          s.fields[k][19] = NUL) ∧
      s.fieldIndex = min ([65, comma, comma, 66, comma].count comma) 20 ∧
      (s.fieldIndex < 9 ↔ [65, comma, comma, 66, comma].count comma < 9) :=
  split_total [65, comma, comma, 66, comma] (by decide)

end CommonDrivers.Sensors.Gps
