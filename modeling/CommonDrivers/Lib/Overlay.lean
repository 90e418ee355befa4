import Mathlib.Data.List.Basic

/-! # Overlaying bytes on a range of cells

`overlay op off data` combines `data` into the cells `off, off + 1, …` with `op` and leaves every
other cell alone. It acts on one indexed cell at a time, so it applies to a store of any shape.
`overlay_append` splits an overlay at any point; it is what makes a chunked write equal to one
large write.
-/

namespace Overlay

variable {α β : Type*} (op : α → β → α)

/-- The new content of cell `k`, which held `x`. -/
def overlay (off : ℕ) (data : List β) (k : ℕ) (x : α) : α :=
  if off ≤ k then (data[k - off]?).elim x (op x) else x

@[simp] theorem overlay_nil (off k : ℕ) (x : α) : overlay op off [] k x = x := by
  simp [overlay]

theorem overlay_of_lt {off k : ℕ} (h : k < off) (data : List β) (x : α) :
    overlay op off data k x = x := if_neg (by omega)

theorem overlay_of_le {off k : ℕ} {data : List β} (h : off + data.length ≤ k) (x : α) :
    overlay op off data k x = x := by
  rw [overlay, if_pos (by omega), List.getElem?_eq_none (by omega), Option.elim_none]

/-- Moving the range and the cell by the same distance changes nothing. -/
theorem overlay_add (off c : ℕ) (data : List β) (k : ℕ) (x : α) :
    overlay op (c + off) data (c + k) x = overlay op off data k x := by
  simp only [overlay, Nat.add_le_add_iff_left, Nat.add_sub_add_left]

/-- Combining with data that was laid over a neutral background is overlaying the data itself. -/
theorem op_overlay_neutral {op : α → α → α} {e : α} (he : ∀ x, op x e = x) (off : ℕ)
    (data : List α) (k : ℕ) (x : α) :
    op x (overlay (fun _ b => b) off data k e) = overlay op off data k x := by
  simp only [overlay]
  split
  · cases data[k - off]? with
    | none => exact he x
    | some b => rfl
  · exact he x

/-- A write may be split at any point. -/
theorem overlay_append (off : ℕ) (xs ys : List β) (k : ℕ) (x : α) :
    overlay op off (xs ++ ys) k x =
      overlay op (off + xs.length) ys k (overlay op off xs k x) := by
  by_cases hlo : off ≤ k
  · by_cases hmid : k < off + xs.length
    · rw [overlay_of_lt op hmid ys]
      simp only [overlay, if_pos hlo]
      rw [List.getElem?_append_left (by omega)]
    · have hge : off + xs.length ≤ k := by omega
      rw [overlay_of_le op hge]
      simp only [overlay, if_pos hlo, if_pos hge]
      rw [List.getElem?_append_right (by omega), Nat.sub_sub]
  · have hlt : k < off := by omega
    rw [overlay_of_lt op hlt, overlay_of_lt op hlt, overlay_of_lt op (by omega)]

end Overlay
