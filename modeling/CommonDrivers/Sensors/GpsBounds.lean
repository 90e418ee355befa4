import CommonDrivers.Sensors.Gps

/-! # Reads behind the reception buffer

Neither the scan for a tag nor the comparison with it nor the copy of the line stops at the end of
the buffer. The checked versions of these loops trap on the first read behind it; where they do not
trap they do what `read` does, whatever follows the buffer. `lineChecked_isSome_iff` says for which
contents of the buffer that is.
-/

namespace CommonDrivers.Sensors.Gps

/-! ## The loops with a trap -/

/-- `scan` on the rest of the buffer; `none` is a read behind its end. -/
def scanChecked : List UInt8 → Option (Option (List UInt8))
  | [] => none
  | c :: rest =>
    if c = NUL then some none
    else if c = '$'.toUInt8 then
      -- each comparison reads six bytes
      if rest.length < 5 then none
      else if (c :: rest).take 6 = gnTag ∨ (c :: rest).take 6 = gpTag then some (some (c :: rest))
      else scanChecked rest
    else scanChecked rest

/-- `copyLine` on the rest of the buffer; the next character is read before the room is tested. -/
def copyLineChecked : ℕ → List UInt8 → Option (List UInt8)
  | 0, [] => none
  | 0, _ :: _ => some []
  | _ + 1, [] => none
  | room + 1, c :: rest =>
    if c = NUL ∨ c = CR ∨ c = LF then some []
    else (copyLineChecked room rest).map (c :: ·)

/-- The line of the sentence that `read` finds, if there is one. -/
def lineChecked (buffer : List UInt8) : Option (Option (List UInt8)) :=
  (scanChecked buffer).bind fun
    | none => some none
    | some ggaStart => (copyLineChecked 119 ggaStart).map some

/-! ## Where they do not trap they are the loops of `read` -/

theorem scan_of_checked {buffer : List UInt8} {r : Option (List UInt8)}
    (h : scanChecked buffer = some r) (beyond : List UInt8) :
    scan (buffer ++ beyond) = r.map (· ++ beyond) := by
  induction buffer with
  | nil => cases h
  | cons c rest ih =>
    rw [scanChecked] at h
    rw [List.cons_append, scan]
    by_cases hnul : c = NUL
    · rw [if_pos hnul] at h ⊢
      rw [← Option.some.inj h]
      rfl
    rw [if_neg hnul] at h ⊢
    by_cases hdollar : c = '$'.toUInt8
    · rw [if_pos hdollar] at h
      by_cases hshort : rest.length < 5
      · rw [if_pos hshort] at h
        cases h
      rw [if_neg hshort] at h
      have htake : (c :: (rest ++ beyond)).take 6 = (c :: rest).take 6 := by
        rw [← List.cons_append, List.take_append_of_le_length (by simp; omega)]
      rw [htake]
      by_cases htag : (c :: rest).take 6 = gnTag ∨ (c :: rest).take 6 = gpTag
      · rw [if_pos htag] at h
        rw [if_pos ⟨hdollar, htag⟩, ← Option.some.inj h]
        rfl
      · rw [if_neg htag] at h
        rw [if_neg fun hboth => htag hboth.2]
        exact ih h
    · rw [if_neg hdollar] at h
      rw [if_neg fun hboth => hdollar hboth.1]
      exact ih h

theorem copyLine_of_checked {room : ℕ} {s line : List UInt8}
    (h : copyLineChecked room s = some line) (beyond : List UInt8) :
    copyLine room (s ++ beyond) = line := by
  induction room generalizing s line with
  | zero =>
    cases s with
    | nil => cases h
    | cons c rest => exact Option.some.inj h
  | succ room ih =>
    cases s with
    | nil => cases h
    | cons c rest =>
      rw [copyLineChecked] at h
      rw [List.cons_append, copyLine]
      by_cases hend : c = NUL ∨ c = CR ∨ c = LF
      · rw [if_pos hend] at h ⊢
        exact Option.some.inj h
      · rw [if_neg hend] at h ⊢
        obtain ⟨line', hline', rfl⟩ := Option.map_eq_some_iff.mp h
        rw [ih hline']

/-- What `read` does with the line it has found. -/
def readLine {F : Type} [CFloat F] (packet : Packet F) :
    Option (List UInt8) → Option (Bool × Packet F)
  | none => some (false, packet)
  | some line => (split line).map fun s =>
    if s.fieldIndex < 9 then (false, packet) else (true, store s.fields packet)

/-- A read that stays inside the buffer does not depend on what follows it. -/
theorem read_of_checked {F : Type} [CFloat F] {buffer : List UInt8} {r : Option (List UInt8)}
    (h : lineChecked buffer = some r) (beyond : List UInt8) (packet : Packet F) :
    read (buffer ++ beyond) packet = readLine packet r := by
  obtain ⟨found, hfound, hline⟩ := Option.bind_eq_some_iff.mp h
  rw [read, scan_of_checked hfound]
  cases found with
  | none =>
    rw [← Option.some.inj hline]
    rfl
  | some ggaStart =>
    obtain ⟨line, hcopy, rfl⟩ := Option.map_eq_some_iff.mp hline
    simp only [Option.map_some, copyLine_of_checked hcopy, readLine]

/-! ## The contents that keep the reads inside -/

/-- The copy of a line that begins here stays inside: there is room for all it reads, or something
ends the line. -/
def LineEnds (s : List UInt8) : Prop :=
  120 ≤ s.length ∨ ∃ c ∈ s, c = NUL ∨ c = CR ∨ c = LF

/-- Before any NUL or tag there is no `$` among the last five characters; then there is a NUL, or a
tag whose line ends. -/
def StaysInside (buffer : List UInt8) : Prop :=
  ∃ before rest, buffer = before ++ rest ∧
    (∀ pre c post, before = pre ++ c :: post → c ≠ NUL ∧ ¬ Tagged (c :: post ++ rest) ∧
      (c = '$'.toUInt8 → 6 ≤ (c :: post ++ rest).length)) ∧
    (rest.head? = some NUL ∨ Tagged rest ∧ LineEnds rest)

theorem staysInside_cons {c : UInt8} {l : List UInt8} (hnul : c ≠ NUL) (htag : ¬ Tagged (c :: l)) :
    StaysInside (c :: l) ↔ (c = '$'.toUInt8 → 6 ≤ (c :: l).length) ∧ StaysInside l := by
  constructor
  · rintro ⟨before, rest, hsplit, hbefore, hrest⟩
    cases before with
    | nil =>
      rw [List.nil_append] at hsplit
      subst hsplit
      rcases hrest with hhead | ⟨htagged, -⟩
      · exact absurd (Option.some.inj hhead) hnul
      · exact absurd htagged htag
    | cons a before =>
      obtain ⟨rfl, rfl⟩ := List.cons.inj hsplit
      refine ⟨(hbefore [] c before rfl).2.2, before, rest, rfl, fun pre d post hpre => ?_, hrest⟩
      exact hbefore (c :: pre) d post (by rw [hpre, List.cons_append])
  · rintro ⟨hdollar, before, rest, rfl, hbefore, hrest⟩
    refine ⟨c :: before, rest, rfl, fun pre d post hpre => ?_, hrest⟩
    cases pre with
    | nil =>
      obtain ⟨rfl, rfl⟩ := List.cons.inj hpre
      exact ⟨hnul, htag, hdollar⟩
    | cons a pre =>
      exact hbefore pre d post (List.cons.inj hpre).2

theorem staysInside_nul (l : List UInt8) : StaysInside (NUL :: l) :=
  ⟨[], NUL :: l, rfl, fun pre c post h => absurd h (by simp), Or.inl rfl⟩

theorem staysInside_tagged {l : List UInt8} (htag : Tagged l) : StaysInside l ↔ LineEnds l := by
  constructor
  · rintro ⟨before, rest, rfl, hbefore, hrest⟩
    cases before with
    | nil =>
      rcases hrest with hhead | ⟨-, hends⟩
      · -- a tag does not begin with a NUL
        obtain ⟨l, rfl⟩ : ∃ l, rest = NUL :: l := List.head?_eq_some_iff.mp hhead
        rcases htag with ⟨u, hu⟩ | ⟨u, hu⟩
        · exact absurd (List.cons.inj hu).1 (by decide)
        · exact absurd (List.cons.inj hu).1 (by decide)
      · exact hends
    | cons a before => exact absurd htag (hbefore [] a before rfl).2.1
  · exact fun hends => ⟨[], l, rfl, fun pre c post h => absurd h (by simp), Or.inr ⟨htag, hends⟩⟩

theorem copyLineChecked_isSome (room : ℕ) (s : List UInt8) :
    (copyLineChecked room s).isSome ↔
      room + 1 ≤ s.length ∨ ∃ c ∈ s, c = NUL ∨ c = CR ∨ c = LF := by
  induction room generalizing s with
  | zero =>
    cases s with
    | nil => simp [copyLineChecked]
    | cons c rest => exact iff_of_true rfl (Or.inl (by simp))
  | succ room ih =>
    cases s with
    | nil => simp [copyLineChecked]
    | cons c rest =>
      simp only [copyLineChecked, List.length_cons, Nat.succ_le_succ_iff, List.mem_cons,
        exists_eq_or_imp]
      by_cases hend : c = NUL ∨ c = CR ∨ c = LF
      · rw [if_pos hend]
        exact iff_of_true rfl (Or.inr (Or.inl hend))
      · rw [if_neg hend, Option.isSome_map, ih, or_iff_right hend]

/-- The reads stay inside the buffer exactly for these contents. -/
theorem lineChecked_isSome_iff (buffer : List UInt8) :
    (lineChecked buffer).isSome ↔ StaysInside buffer := by
  induction buffer with
  | nil =>
    refine iff_of_false (by simp [lineChecked, scanChecked]) ?_
    rintro ⟨before, rest, hsplit, -, hrest⟩
    obtain ⟨-, rfl⟩ := List.append_eq_nil_iff.mp hsplit.symm
    rcases hrest with hhead | ⟨htag, -⟩
    · cases hhead
    · exact absurd htag (by decide)
  | cons c rest ih =>
    rw [lineChecked, scanChecked]
    by_cases hnul : c = NUL
    · rw [if_pos hnul, hnul]
      exact iff_of_true rfl (staysInside_nul rest)
    rw [if_neg hnul]
    by_cases htag : Tagged (c :: rest)
    · -- the copy starts here
      have hlen := htag.length_le
      rw [List.length_cons] at hlen
      rw [if_pos htag.head_eq, if_neg (by omega), if_pos ((take_eq_tags_iff _).mpr htag),
        staysInside_tagged htag, Option.bind_some, Option.isSome_map, copyLineChecked_isSome,
        LineEnds]
    rw [staysInside_cons hnul htag, ← ih, if_neg (mt (take_eq_tags_iff _).mp htag)]
    by_cases hdollar : c = '$'.toUInt8
    · rw [if_pos hdollar]
      by_cases hshort : rest.length < 5
      · rw [if_pos hshort]
        refine iff_of_false (by simp) fun h => ?_
        have := h.1 hdollar
        rw [List.length_cons] at this
        omega
      · rw [if_neg hshort]
        exact (and_iff_right fun _ => by rw [List.length_cons]; omega).symm
    · rw [if_neg hdollar]
      exact (and_iff_right fun h => absurd h hdollar).symm

/-! ## The reception buffer -/

/-- No loop of `read` reads behind the buffer. -/
def ReadsInside (buffer : Vector UInt8 128) : Prop := (lineChecked buffer.toList).isSome

/-- **The reads stay inside the buffer if and only if it has a NUL or a tag with no `$` among its
last five bytes before that, and a tag begins at one of the first nine bytes or is followed by a
NUL, CR or LF.** -/
theorem readsInside_iff (buffer : Vector UInt8 128) :
    ReadsInside buffer ↔ StaysInside buffer.toList :=
  lineChecked_isSome_iff buffer.toList

/-- A reception that has filled the buffer with characters other than NUL. -/
theorem not_readsInside_full : ¬ ReadsInside (Vector.replicate 128 'A'.toUInt8) := by
  have hnone : lineChecked (Vector.replicate 128 'A'.toUInt8).toList = none := by decide
  rw [ReadsInside, hnone]
  exact Bool.false_ne_true

end CommonDrivers.Sensors.Gps
