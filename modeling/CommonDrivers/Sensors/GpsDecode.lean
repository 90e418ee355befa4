import CommonDrivers.Lib.Decimal
import CommonDrivers.Lib.Exact
import CommonDrivers.Sensors.GpsFields

/-! # Decoding what a receiver encodes

`Gga` is a GGA sentence as a receiver builds it from its numbers. `read_encoded` is the round trip
through the five stages of `read`: the search for the tag behind arbitrary characters, the cut of
the line, the split at the commas, the split of an angle into degrees and minutes, and the sign of
the hemisphere.
-/

namespace CommonDrivers.Sensors.Gps

open Decimal

/-! ## The sentence -/

/-- An angle of `width` digits of degrees, two digits of minutes and any number of fractional
digits. -/
structure Angle (width : ℕ) where
  degrees : List (Fin 10)
  degrees_length : degrees.length = width
  minutes : List (Fin 10)
  minutes_length : minutes.length = 2
  fraction : List (Fin 10)
  negative : Bool

namespace Angle

variable {width : ℕ} (a : Angle width)

/-- The number of the minutes. -/
def minutesNumber : Number := ⟨.none, a.minutes, some a.fraction⟩

/-- Degrees and minutes in one field. -/
def text : List UInt8 := digitText a.degrees ++ a.minutesNumber.text

/-- Decimal degrees, negative on the southern and the western hemisphere. -/
def value : ℚ :=
  (if a.negative then -1 else 1) * (digitValue a.degrees + a.minutesNumber.value / 60)

end Angle

/-- What a receiver puts into a sentence. -/
structure Gga where
  gn : Bool
  time : List UInt8
  latitude : Angle 2
  longitude : Angle 3
  fix : List (Fin 10)
  satellites : List (Fin 10)
  hdop : List UInt8
  altitude : Number
  further : List (List UInt8)

namespace Gga

variable (g : Gga)

def tag : List UInt8 := if g.gn then gnTag else gpTag

def fields : List (List UInt8) :=
  [g.tag, g.time, g.latitude.text, [if g.latitude.negative then 'S'.toUInt8 else 'N'.toUInt8],
    g.longitude.text, [if g.longitude.negative then 'W'.toUInt8 else 'E'.toUInt8],
    digitText g.fix, digitText g.satellites, g.hdop, g.altitude.text] ++ g.further

/-- The line that is sent. -/
def line : List UInt8 := [comma].intercalate g.fields

/-- The numbers fit into a byte, every field fits into the table and has no character that ends a
field or a line, and the line fits into the line buffer. -/
structure Valid : Prop where
  fix_le : digitValue g.fix ≤ 255
  satellites_le : digitValue g.satellites ≤ 255
  field_length : ∀ f ∈ g.fields, f.length ≤ 19
  field_chars : ∀ f ∈ g.fields, ∀ c ∈ f, c ≠ comma ∧ c ≠ NUL ∧ c ≠ CR ∧ c ≠ LF
  line_length : g.line.length ≤ 119

/-- The packet with the numbers of the sentence. -/
def storeIn (packet : Packet ℚ) : Packet ℚ :=
  { packet with
    latitudeDegrees := g.latitude.value
    longitudeDegrees := g.longitude.value
    gpsFixType := UInt8.ofNat (digitValue g.fix)
    numSatellites := UInt8.ofNat (digitValue g.satellites)
    gpsHMSLM := g.altitude.value }

end Gga

/-! ## Finding the sentence -/

/-- A tag that begins before a `$` ends before it. -/
theorem tag_prefix_of_append {tag q s : List UInt8} (hq : q ≠ []) (hs : s.head? = some '$'.toUInt8)
    (htail : '$'.toUInt8 ∉ tag.tail) (h : tag <+: q ++ s) : tag <+: q := by
  by_contra hnot
  have hlt : q.length < tag.length := by
    by_contra hle
    exact hnot (List.prefix_of_prefix_length_le h (List.prefix_append q s) (Nat.le_of_not_lt hle))
  obtain ⟨d, q, rfl⟩ := List.exists_cons_of_ne_nil hq
  obtain ⟨s, rfl⟩ := List.head?_eq_some_iff.mp hs
  obtain ⟨u, hu⟩ := h
  -- the `$` stands at a later position of the tag
  cases tag with
  | nil => cases hlt
  | cons a tag =>
    refine htail ?_
    have htl : tag ++ u = q ++ '$'.toUInt8 :: s := (List.cons.inj hu).2
    have hget : (tag ++ u)[q.length]? = some '$'.toUInt8 := by
      rw [htl, List.getElem?_append_right le_rfl, Nat.sub_self]
      rfl
    rw [List.getElem?_append_left (Nat.lt_of_succ_lt_succ hlt)] at hget
    exact List.mem_of_getElem? hget

/-- Behind characters without NUL and tag, the scan finds the sentence. -/
theorem scan_append {before s : List UInt8} (hnul : NUL ∉ before) (hgn : ¬ gnTag <:+: before)
    (hgp : ¬ gpTag <:+: before) (hs : Tagged s) : scan (before ++ s) = some s := by
  obtain ⟨c, s, rfl⟩ : ∃ c t, s = c :: t := by
    cases s with
    | nil => exact absurd hs.length_le (by decide)
    | cons c t => exact ⟨c, t, rfl⟩
  have hdollar := hs.head_eq
  induction before with
  | nil =>
    have hne : c ≠ NUL := by rw [hdollar]; decide
    rw [List.nil_append, scan, if_neg hne, if_pos ⟨hdollar, (take_eq_tags_iff _).mpr hs⟩]
  | cons a before ih =>
    have hne : a ≠ NUL := fun h => hnul (h ▸ List.mem_cons_self)
    have htag : ¬ Tagged (a :: before ++ c :: s) := by
      have hhead : (c :: s).head? = some '$'.toUInt8 := congrArg some hdollar
      rintro (h | h)
      · exact hgn (tag_prefix_of_append (List.cons_ne_nil _ _) hhead (by decide) h).isInfix
      · exact hgp (tag_prefix_of_append (List.cons_ne_nil _ _) hhead (by decide) h).isInfix
    rw [List.cons_append, scan, if_neg hne,
      if_neg fun h => htag ((take_eq_tags_iff _).mp h.2)]
    exact ih (fun h => hnul (List.mem_cons_of_mem a h))
      (fun h => hgn (h.trans (List.suffix_cons a before).isInfix))
      (fun h => hgp (h.trans (List.suffix_cons a before).isInfix))

/-- A line that fits is copied up to its end. -/
theorem copyLine_append {line : List UInt8} (hline : ∀ c ∈ line, c ≠ NUL ∧ c ≠ CR ∧ c ≠ LF)
    {eol : UInt8} (heol : eol = CR ∨ eol = LF) (after : List UInt8) {room : ℕ}
    (hroom : line.length ≤ room) : copyLine room (line ++ eol :: after) = line := by
  induction line generalizing room with
  | nil =>
    cases room with
    | zero => rfl
    | succ room => rw [List.nil_append, copyLine, if_pos (Or.inr heol)]
  | cons c line ih =>
    obtain ⟨hnul, hcr, hlf⟩ := hline c List.mem_cons_self
    cases room with
    | zero => cases hroom
    | succ room =>
      rw [List.cons_append, copyLine, if_neg (by simp [hnul, hcr, hlf]),
        ih (fun d hd => hline d (List.mem_cons_of_mem c hd)) (Nat.le_of_succ_le_succ hroom)]

/-! ## Decoding the fields -/

/-- A field that fits is read as it was sent. -/
theorem cString_packed_of_le {f : List UInt8} (hlen : f.length ≤ 19) (hnul : NUL ∉ f) :
    cString (packed f) = f := by
  rw [cString_packed hnul, List.take_of_length_le hlen]

theorem atof_digitText (ds : List (Fin 10)) :
    (CFloat.atof (digitText ds) : ℚ) = digitValue ds := by
  have h := decimal_text ⟨.none, ds, none⟩
  have htext : (⟨.none, ds, none⟩ : Number).text = digitText ds := List.append_nil _
  rw [htext] at h
  exact h.trans (add_zero _)

theorem toDegrees_angle {width : ℕ} (hwidth : 0 < width) (a : Angle width)
    (hlen : a.text.length ≤ 19) (hnul : NUL ∉ a.text) {negative hemisphere : UInt8}
    (hneg : hemisphere = negative ↔ a.negative = true) :
    (toDegrees width negative (packed a.text) (packed [hemisphere]) : ℚ) = a.value := by
  have hdegrees : (digitText a.degrees).length = width := by
    rw [digitText, List.length_map, a.degrees_length]
  have hlong : a.text.length ≥ 4 := by
    have hminutes : (digitText a.minutes).length = 2 := by
      rw [digitText, List.length_map, a.minutes_length]
    simp only [Angle.text, Angle.minutesNumber, Number.text, Sign.text, fractionText,
      List.length_append, List.length_cons, List.length_nil]
    omega
  have htake : a.text.take width = digitText a.degrees := List.take_left' hdegrees
  have hdrop : a.text.drop width = a.minutesNumber.text := List.drop_left' hdegrees
  have hminutes : (CFloat.atof a.minutesNumber.text : ℚ) = a.minutesNumber.value :=
    decimal_text a.minutesNumber
  have hhemisphere : (packed [hemisphere])[0] = hemisphere := getElem_packed _ (by decide)
  rw [toDegrees, cString_packed_of_le hlen hnul]
  simp only [hlong, htake, hdrop, atof_digitText, hminutes, hhemisphere, hneg, if_true]
  rw [Angle.value]
  split
  · exact (neg_one_mul _).symm
  · exact (one_mul _).symm

/-- A count that fits into a byte is stored as it was sent. -/
theorem ofInt_atoi {ds : List (Fin 10)} (hlen : (digitText ds).length ≤ 19)
    (hnul : NUL ∉ digitText ds) :
    UInt8.ofInt (CString.atoi (cString (packed (digitText ds)))) = UInt8.ofNat (digitValue ds) := by
  rw [cString_packed_of_le hlen hnul, atoi_digitText, UInt8.ofInt]
  refine UInt8.toNat_inj.mp ?_
  have hmod : ((digitValue ds : Int) % 2 ^ 8).toNat = digitValue ds % 2 ^ 8 := by omega
  rw [hmod, UInt8.toNat_ofNat', UInt8.toNat_ofNat', Nat.mod_mod]

/-- An altitude is read as it was sent; without one it is zero. -/
theorem atof_altitude {n : Number} (hlen : n.text.length ≤ 19) (hnul : NUL ∉ n.text) :
    (if (packed n.text)[0] ≠ NUL then CFloat.atof (cString (packed n.text)) else 0 : ℚ) =
      n.value := by
  rw [getElem_packed, List.take_of_length_le hlen, cString_packed_of_le hlen hnul,
    ← decimal_text]
  cases htext : n.text with
  | nil => exact Nat.cast_zero.symm.trans (atof_digitText []).symm
  | cons c text =>
    rw [htext] at hnul
    have hc : (c :: text).getD 0 NUL ≠ NUL := fun h => hnul (h ▸ List.mem_cons_self)
    rw [if_pos hc]
    rfl

/-- The table of a sentence is decoded to its numbers. -/
theorem store_table {g : Gga} (hg : g.Valid) (packet : Packet ℚ) :
    store (table g.fields) packet = g.storeIn packet := by
  have hlen : ∀ f ∈ g.fields, f.length ≤ 19 := hg.field_length
  have hnul : ∀ f ∈ g.fields, NUL ∉ f := fun f hf hmem => (hg.field_chars f hf NUL hmem).2.1 rfl
  have hfield : ∀ {k : ℕ} {f : List UInt8} (hk : k < 20), g.fields[k]? = some f →
      f ∈ g.fields ∧ (table g.fields)[k] = packed f := by
    intro k f hk hf
    refine ⟨List.mem_of_getElem? hf, ?_⟩
    rw [getElem_table, List.getD_eq_getElem?_getD, hf]
    rfl
  obtain ⟨m2, h2⟩ := hfield (k := 2) (by decide) rfl
  obtain ⟨-, h3⟩ := hfield (k := 3) (by decide) rfl
  obtain ⟨m4, h4⟩ := hfield (k := 4) (by decide) rfl
  obtain ⟨-, h5⟩ := hfield (k := 5) (by decide) rfl
  obtain ⟨m6, h6⟩ := hfield (k := 6) (by decide) rfl
  obtain ⟨m7, h7⟩ := hfield (k := 7) (by decide) rfl
  obtain ⟨m9, h9⟩ := hfield (k := 9) (by decide) rfl
  have hsouth : (if g.latitude.negative then 'S'.toUInt8 else 'N'.toUInt8) = 'S'.toUInt8 ↔
      g.latitude.negative = true := by
    cases g.latitude.negative <;> decide
  have hwest : (if g.longitude.negative then 'W'.toUInt8 else 'E'.toUInt8) = 'W'.toUInt8 ↔
      g.longitude.negative = true := by
    cases g.longitude.negative <;> decide
  rw [store, h2, h3, h4, h5, h6, h7, h9,
    toDegrees_angle (by decide) g.latitude (hlen _ m2) (hnul _ m2) hsouth,
    toDegrees_angle (by decide) g.longitude (hlen _ m4) (hnul _ m4) hwest,
    ofInt_atoi (hlen _ m6) (hnul _ m6), ofInt_atoi (hlen _ m7) (hnul _ m7),
    atof_altitude (hlen _ m9) (hnul _ m9), Gga.storeIn]

/-! ## The round trip -/

/-- A character of a joined line is a separator or belongs to a field. -/
theorem mem_intercalate {x c : UInt8} {ls : List (List UInt8)} (h : c ∈ [x].intercalate ls) :
    c = x ∨ ∃ l ∈ ls, c ∈ l := by
  induction ls with
  | nil => cases h
  | cons l ls ih =>
    cases ls with
    | nil => exact Or.inr ⟨l, List.mem_cons_self, by simpa using h⟩
    | cons l' ls =>
      rw [List.intercalate_cons_cons, List.mem_append, List.mem_append, List.mem_singleton] at h
      rcases h with (hl | rfl) | hrest
      · exact Or.inr ⟨l, List.mem_cons_self, hl⟩
      · exact Or.inl rfl
      · rcases ih hrest with hx | ⟨m, hm, hc⟩
        · exact Or.inl hx
        · exact Or.inr ⟨m, List.mem_cons_of_mem l hm, hc⟩

/-- Fields without a separator are joined by one separator less than there are fields. -/
theorem count_intercalate {x : UInt8} {ls : List (List UInt8)} (hls : ls ≠ [])
    (hx : ∀ l ∈ ls, x ∉ l) : ([x].intercalate ls).count x + 1 = ls.length := by
  induction ls with
  | nil => exact absurd rfl hls
  | cons l ls ih =>
    have hl : l.count x = 0 := List.count_eq_zero.mpr (hx l List.mem_cons_self)
    cases ls with
    | nil => simpa using hl
    | cons l' ls =>
      have hrest := ih (List.cons_ne_nil l' ls) fun m hm => hx m (List.mem_cons_of_mem l hm)
      rw [List.intercalate_cons_cons, List.count_append, List.count_append, hl,
        List.count_singleton_self, List.length_cons]
      omega

namespace Gga

variable {g : Gga} (hg : g.Valid)

theorem tagged_line_append (g : Gga) (after : List UInt8) : Tagged (g.line ++ after) := by
  obtain ⟨f, fs, hfields⟩ : ∃ f fs, g.fields = g.tag :: f :: fs := ⟨_, _, rfl⟩
  rw [line, hfields, List.intercalate_cons_cons, List.append_assoc, List.append_assoc, tag]
  split
  · exact Or.inl (List.prefix_append _ _)
  · exact Or.inr (List.prefix_append _ _)

include hg

theorem line_chars {c : UInt8} (hc : c ∈ g.line) : c ≠ NUL ∧ c ≠ CR ∧ c ≠ LF := by
  rcases mem_intercalate hc with rfl | ⟨f, hf, hmem⟩
  · decide
  · exact (hg.field_chars f hf c hmem).2

theorem comma_not_mem : ∀ f ∈ g.fields, comma ∉ f := fun f hf hmem =>
  (hg.field_chars f hf comma hmem).1 rfl

theorem splitOn_line : g.line.splitOn comma = g.fields :=
  List.splitOn_intercalate comma (comma_not_mem hg) (List.cons_ne_nil _ _)

theorem count_comma : g.line.count comma = g.further.length + 9 := by
  have hcount : g.line.count comma + 1 = g.fields.length :=
    count_intercalate (List.cons_ne_nil _ _) (comma_not_mem hg)
  have hlength : g.fields.length = 10 + g.further.length := by
    rw [fields, List.length_append]
    rfl
  omega

end Gga

/-- **A read of a buffer with a sentence behind characters without NUL and tag returns `true` and
stores the position, the fix, the satellites and the altitude of the sentence, and nothing
else.** -/
theorem read_encoded {g : Gga} (hg : g.Valid) {before : List UInt8} (hnul : NUL ∉ before)
    (hgn : ¬ gnTag <:+: before) (hgp : ¬ gpTag <:+: before) {eol : UInt8}
    (heol : eol = CR ∨ eol = LF) (after : List UInt8) (packet : Packet ℚ) :
    read (before ++ (g.line ++ eol :: after)) packet = some (true, g.storeIn packet) := by
  obtain ⟨s, hsplit, hfields, hindex⟩ := split_fields g.line
  have hmany : ¬ s.fieldIndex < 9 := by
    rw [hindex, Gga.count_comma hg]
    omega
  rw [read, scan_append hnul hgn hgp (g.tagged_line_append _)]
  simp only [copyLine_append (fun c => Gga.line_chars hg) heol after hg.line_length, hsplit,
    Option.map_some, if_neg hmany, hfields, Gga.splitOn_line hg, store_table hg]

/-- A position south of the equator: 48°07.038′ S, 11°31.5′ E, eight satellites, 545.4 m. -/
def southern : Gga where
  gn := true
  time := [49, 50, 51, 53, 49, 57]
  latitude := ⟨[4, 8], rfl, [0, 7], rfl, [0, 3, 8], true⟩
  longitude := ⟨[0, 1, 1], rfl, [3, 1], rfl, [5], false⟩
  fix := [1]
  satellites := [0, 8]
  hdop := [48, 46, 57]
  altitude := ⟨.none, [5, 4, 5], some [4]⟩
  further := [[77]]

theorem southern_valid : southern.Valid where
  fix_le := by decide
  satellites_le := by decide
  field_length := by decide
  field_chars := by decide +kernel
  line_length := by decide

/-- The position is read from behind two stray characters. -/
theorem read_encoded_southern :
    read ([71, 36] ++ (southern.line ++ CR :: [LF, NUL])) (@Packet.initial ℚ ⟨0⟩) =
      some (true, southern.storeIn (@Packet.initial ℚ ⟨0⟩)) :=
  read_encoded southern_valid (by decide) (by decide) (by decide) (Or.inl rfl) [LF, NUL]
    (@Packet.initial ℚ ⟨0⟩)

end CommonDrivers.Sensors.Gps
