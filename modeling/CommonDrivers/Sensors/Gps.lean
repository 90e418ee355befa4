import Mathlib.Data.List.TakeWhile
import CommonDrivers.Lib.CFloat
import CommonDrivers.Protocol
import CommonDrivers.Sensors.Packet

/-! # The GPS receiver

`GPS::init` and `GPS::read` of `src/sensors/cd-pa1616s.cpp`. A read finds a GGA sentence in the
reception buffer, copies its line, splits the line into fields at the commas, and decodes the
fields. A write outside the table of fields ends the model with `none`.
-/

namespace CommonDrivers.Sensors.Gps

def NUL : UInt8 := 0

def LF : UInt8 := 10

def CR : UInt8 := 13

def comma : UInt8 := ','.toUInt8

/-- The two tags of a GGA sentence. -/
def gnTag : List UInt8 := ['$', 'G', 'N', 'G', 'G', 'A'].map Char.toUInt8

def gpTag : List UInt8 := ['$', 'G', 'P', 'G', 'G', 'A'].map Char.toUInt8

/-! ## Initialisation -/

/-- The command that selects GGA sentences only, with the NUL of the string literal. -/
def command : List UInt8 :=
  "$PMTK314,0,0,0,1,0,0,0,0,0,0,0,0,0,0,0,0,0,0,0*29".toList.map Char.toUInt8 ++ [CR, LF, NUL]

/-- Configures the receiver and starts the reception into the buffer. -/
def init {σ : Type} (P : Protocol σ) (buffer : List UInt8) : Exec σ Bool := do
  let res ← P.write [] command .none
  if !res then
    return false
  let res ← P.readDMA buffer
  if !res then
    return false
  return true

/-! ## Finding and copying the sentence -/

/-- The first tag before a NUL, in the memory from the start of the buffer on. -/
def scan : List UInt8 → Option (List UInt8)
  | [] => none
  | c :: rest =>
    if c = NUL then none
    else if c = '$'.toUInt8 ∧ ((c :: rest).take 6 = gnTag ∨ (c :: rest).take 6 = gpTag) then
      some (c :: rest)
    else scan rest

/-- Copies a line into a buffer that has room for `room` characters. -/
def copyLine : ℕ → List UInt8 → List UInt8
  | 0, _ => []
  | _, [] => []
  | room + 1, c :: rest =>
    if c = NUL ∨ c = CR ∨ c = LF then [] else c :: copyLine room rest

/-! ## Splitting into fields -/

/-- The table of fields and the position in it. -/
structure Splitter where
  fields : Vector (Vector UInt8 20) 20
  fieldIndex : ℕ
  charIndex : ℕ

/-- `fields[fieldIndex][charIndex] = c`. -/
def Splitter.put (s : Splitter) (c : UInt8) : Option Splitter :=
  if hf : s.fieldIndex < 20 then
    if hc : s.charIndex < 20 then
      some { s with
        fields := s.fields.set s.fieldIndex (s.fields[s.fieldIndex].set s.charIndex c) }
    else none
  else none

def splitLoop : List UInt8 → Splitter → Option Splitter
  | [], s => some s
  | c :: rest, s =>
    if c = comma then
      -- end current field
      (s.put NUL).bind fun s =>
        let s := { s with fieldIndex := s.fieldIndex + 1, charIndex := 0 }
        if s.fieldIndex ≥ 20 then some s else splitLoop rest s
    else if s.charIndex < 19 then
      (s.put c).bind fun s => splitLoop rest { s with charIndex := s.charIndex + 1 }
    else splitLoop rest s

/-- The fields of a line. -/
def split (line : List UInt8) : Option Splitter :=
  (splitLoop line ⟨Vector.replicate 20 (Vector.replicate 20 0), 0, 0⟩).bind fun s =>
    -- Terminate the last field
    if s.fieldIndex < 20 then s.put NUL else some s

/-! ## Decoding -/

/-- The C string in a field. -/
def cString (field : Vector UInt8 20) : List UInt8 := field.toList.takeWhile (· ≠ NUL)

section Decode

variable {F : Type} [CFloat F]

/-- Decimal degrees of a field with `width` digits of degrees, the rest being minutes, and of the
hemisphere field that follows it. -/
def toDegrees (width : ℕ) (negative : UInt8) (field hemisphere : Vector UInt8 20) : F :=
  let s := cString field
  if s.length ≥ 4 then
    let degrees : F := CFloat.atof (s.take width)
    let minutes : F := CFloat.atof (s.drop width)
    let value := degrees + minutes / CFloat.lit 60
    if hemisphere[0] = negative then -value else value
  else 0

/-- Stores the decoded fields of a sentence. -/
def store (fields : Vector (Vector UInt8 20) 20) (packet : Packet F) : Packet F :=
  { packet with
    latitudeDegrees := toDegrees 2 'S'.toUInt8 fields[2] fields[3]
    longitudeDegrees := toDegrees 3 'W'.toUInt8 fields[4] fields[5]
    gpsFixType := UInt8.ofInt (CString.atoi (cString fields[6]))
    numSatellites := UInt8.ofInt (CString.atoi (cString fields[7]))
    gpsHMSLM := if fields[9][0] ≠ NUL then CFloat.atof (cString fields[9]) else 0 }

/-- `GPS::read` on the memory from the start of the buffer on. -/
def read (memory : List UInt8) (packet : Packet F) : Option (Bool × Packet F) :=
  match scan memory with
  | none => some (false, packet)
  | some ggaStart =>
    (split (copyLine 119 ggaStart)).map fun s =>
      -- Not enough fields for a valid GGA
      if s.fieldIndex < 9 then (false, packet) else (true, store s.fields packet)

end Decode

/-! ## The sentences of a buffer -/

/-- The characters of a buffer before its NUL. -/
def text (buffer : List UInt8) : List UInt8 := buffer.takeWhile (· ≠ NUL)

/-- A text that starts with one of the tags. -/
def Tagged (s : List UInt8) : Prop := gnTag <+: s ∨ gpTag <+: s

instance (s : List UInt8) : Decidable (Tagged s) := inferInstanceAs (Decidable (_ ∨ _))

/-- The comparisons of the scan. -/
theorem take_eq_tags_iff (s : List UInt8) : s.take 6 = gnTag ∨ s.take 6 = gpTag ↔ Tagged s := by
  rw [Tagged, List.prefix_iff_eq_take, List.prefix_iff_eq_take]
  exact or_congr eq_comm eq_comm

theorem Tagged.length_le {s : List UInt8} (h : Tagged s) : 6 ≤ s.length := by
  rcases h with h | h
  · exact h.length_le
  · exact h.length_le

theorem Tagged.head_eq {c : UInt8} {s : List UInt8} (h : Tagged (c :: s)) : c = '$'.toUInt8 := by
  rcases h with ⟨u, hu⟩ | ⟨u, hu⟩
  · exact (List.cons.inj hu).1.symm
  · exact (List.cons.inj hu).1.symm

/-- `s` is the text from its first tag on. -/
def FirstSentence (text s : List UInt8) : Prop :=
  Tagged s ∧ ∃ pre, text = pre ++ s ∧ ∀ pre' s', text = pre' ++ s' → Tagged s' →
    pre.length ≤ pre'.length

/-- The line of a sentence: up to CR or LF, and at most 119 characters. -/
def line (s : List UInt8) : List UInt8 := (s.takeWhile fun c => c ≠ CR ∧ c ≠ LF).take 119

/-- The buffer holds a GGA sentence that can be parsed: a tag and ten fields on its line. -/
def Parsable (buffer : List UInt8) : Prop :=
  ∃ s, s <:+ text buffer ∧ Tagged s ∧ 9 ≤ (line s).count comma

/-- The first GGA sentence of the buffer can be parsed. -/
def FirstParsable (buffer : List UInt8) : Prop :=
  ∃ s, FirstSentence (text buffer) s ∧ 9 ≤ (line s).count comma

theorem FirstParsable.parsable {buffer : List UInt8} (h : FirstParsable buffer) :
    Parsable buffer := by
  obtain ⟨s, ⟨htag, pre, htext, -⟩, hcount⟩ := h
  exact ⟨s, ⟨pre, htext.symm⟩, htag, hcount⟩

theorem nul_not_mem_text (buffer : List UInt8) : NUL ∉ text buffer := fun h => by
  simpa using List.mem_takeWhile_imp h

/-- A NUL-terminated buffer is its text, the NUL and what follows. -/
theorem exists_eq_text_append {buffer : List UInt8} (h : NUL ∈ buffer) :
    ∃ rest, buffer = text buffer ++ NUL :: rest := by
  induction buffer with
  | nil => cases h
  | cons c buffer ih =>
    by_cases hc : c = NUL
    · exact ⟨buffer, by simp [text, hc]⟩
    · obtain ⟨rest, hrest⟩ := ih ((List.mem_cons.mp h).resolve_left (Ne.symm hc))
      refine ⟨rest, ?_⟩
      rw [text, List.takeWhile_cons_of_pos (by simpa using hc), List.cons_append]
      exact congrArg (c :: ·) hrest

/-- A comparison with a tag does not see what stands behind a NUL. -/
theorem take_eq_tag {tag t rest : List UInt8} (htag : NUL ∉ tag) (hlen : tag.length = 6) :
    (t ++ NUL :: rest).take 6 = tag ↔ tag <+: t := by
  constructor
  · intro h
    by_cases ht : 6 ≤ t.length
    · rw [List.take_append_of_le_length ht] at h
      exact h ▸ List.take_prefix 6 t
    · rw [List.take_append] at h
      refine absurd (h ▸ ?_ : NUL ∈ tag) htag
      obtain ⟨n, hn⟩ : ∃ n, 6 - t.length = n + 1 := ⟨5 - t.length, by omega⟩
      rw [hn]
      simp
  · rintro ⟨u, rfl⟩
    rw [List.append_assoc, ← hlen, List.take_left]

theorem scan_cons {c : UInt8} {t rest : List UInt8} (hc : c ≠ NUL) :
    scan (c :: (t ++ NUL :: rest)) =
      if Tagged (c :: t) then some (c :: (t ++ NUL :: rest)) else scan (t ++ NUL :: rest) := by
  have htag : ∀ tag : List UInt8, NUL ∉ tag → tag.length = 6 → tag.head? = some '$'.toUInt8 →
      ((c = '$'.toUInt8 ∧ (c :: (t ++ NUL :: rest)).take 6 = tag) ↔ tag <+: c :: t) := by
    intro tag hnul hlen hhead
    rw [← List.cons_append, take_eq_tag hnul hlen, and_iff_right_iff_imp]
    rintro ⟨u, hu⟩
    cases tag with
    | nil => cases hhead
    | cons a as =>
      rw [List.cons_append] at hu
      exact (List.cons.inj hu).1.symm.trans (Option.some.inj hhead)
  rw [scan, if_neg hc]
  refine if_congr ?_ rfl rfl
  rw [and_or_left, htag gnTag (by decide) rfl rfl, htag gpTag (by decide) rfl rfl, Tagged]

theorem firstSentence_of_tagged {t s : List UInt8} (h : Tagged t) :
    FirstSentence t s ↔ s = t := by
  constructor
  · rintro ⟨-, pre, ht, hmin⟩
    have hpre := List.length_eq_zero_iff.mp (Nat.le_zero.mp (hmin [] t rfl h))
    rw [ht, hpre, List.nil_append]
  · rintro rfl
    exact ⟨h, [], rfl, fun _ _ _ _ => Nat.zero_le _⟩

theorem firstSentence_cons {c : UInt8} {t s : List UInt8} (h : ¬ Tagged (c :: t)) :
    FirstSentence (c :: t) s ↔ FirstSentence t s := by
  constructor
  · rintro ⟨htag, pre, ht, hmin⟩
    cases pre with
    | nil => exact absurd (ht ▸ htag) h
    | cons a pre =>
      obtain ⟨rfl, htail⟩ := List.cons.inj ht
      refine ⟨htag, pre, htail, fun pre' s' ht' htag' => ?_⟩
      have := hmin (c :: pre') s' (by rw [ht', List.cons_append]) htag'
      simpa using this
  · rintro ⟨htag, pre, rfl, hmin⟩
    refine ⟨htag, c :: pre, rfl, fun pre' s' ht' htag' => ?_⟩
    cases pre' with
    | nil => exact absurd (ht' ▸ htag') h
    | cons a pre' =>
      have := hmin pre' s' (List.cons.inj ht').2 htag'
      simpa using this

/-- The scan finds the first sentence of the text before the NUL, and nothing else. -/
theorem scan_eq_some {t rest : List UInt8} (ht : NUL ∉ t) {r : List UInt8} :
    scan (t ++ NUL :: rest) = some r ↔ ∃ s, FirstSentence t s ∧ r = s ++ NUL :: rest := by
  induction t with
  | nil =>
    have hnone : scan ([] ++ NUL :: rest) = none := by simp [scan]
    rw [hnone]
    refine ⟨nofun, ?_⟩
    rintro ⟨s, ⟨htag, pre, hnil, -⟩, -⟩
    obtain ⟨-, rfl⟩ := List.append_eq_nil_iff.mp hnil.symm
    exact absurd htag (by decide)
  | cons c t ih =>
    have hc : c ≠ NUL := fun h => ht (h ▸ List.mem_cons_self)
    rw [List.cons_append, scan_cons hc]
    by_cases htag : Tagged (c :: t)
    · simp only [if_pos htag, firstSentence_of_tagged htag, Option.some.injEq, exists_eq_left,
        List.cons_append, eq_comm]
    · simp only [if_neg htag, firstSentence_cons htag]
      exact ih fun h => ht (List.mem_cons_of_mem c h)

/-- The copied line of a sentence is its line. -/
theorem copyLine_eq {s rest : List UInt8} (hs : NUL ∉ s) (room : ℕ) :
    copyLine room (s ++ NUL :: rest) = (s.takeWhile fun c => c ≠ CR ∧ c ≠ LF).take room := by
  induction s generalizing room with
  | nil => cases room <;> simp [copyLine]
  | cons c s ih =>
    have hc : c ≠ NUL := fun h => hs (h ▸ List.mem_cons_self)
    cases room with
    | zero => simp [copyLine]
    | succ room =>
      rw [List.cons_append, copyLine, ih (fun h => hs (List.mem_cons_of_mem c h))]
      by_cases hend : c = CR ∨ c = LF
      · rw [if_pos (.inr hend),
          List.takeWhile_cons_of_neg (by rcases hend with rfl | rfl <;> decide)]
        rfl
      · rw [if_neg (by simpa [hc] using hend), List.takeWhile_cons_of_pos (by simpa using hend),
          List.take_succ_cons]

/-! ## The split -/

/-- The position of a splitter is inside the table. -/
structure Splitter.InTable (s : Splitter) : Prop where
  fieldIndex_lt : s.fieldIndex < 20
  charIndex_le : s.charIndex ≤ 19

theorem Splitter.InTable.put {s : Splitter} (h : s.InTable) (c : UInt8) :
    ∃ fields, s.put c = some { s with fields := fields } := by
  have hc : s.charIndex < 20 := Nat.lt_succ_of_le h.charIndex_le
  exact ⟨_, by rw [Splitter.put, dif_pos h.fieldIndex_lt, dif_pos hc]⟩

/-- The loop stays in the table and counts the commas, up to 20. -/
theorem splitLoop_eq {s : Splitter} (h : s.InTable) (line : List UInt8) :
    ∃ s', splitLoop line s = some s' ∧ s'.charIndex ≤ 19 ∧
      s'.fieldIndex = min (s.fieldIndex + line.count comma) 20 := by
  induction line generalizing s with
  | nil =>
    have := h.fieldIndex_lt
    exact ⟨s, rfl, h.charIndex_le, by simp; omega⟩
  | cons c rest ih =>
    have hlt := h.fieldIndex_lt
    rw [splitLoop]
    by_cases hc : c = comma
    · obtain ⟨fields, hput⟩ := h.put NUL
      rw [if_pos hc, hput, Option.bind_some, hc, List.count_cons_self]
      by_cases hfull : s.fieldIndex + 1 ≥ 20
      · -- the 20th comma ends the loop with the index just past the table
        exact ⟨_, if_pos hfull, Nat.zero_le _, by simp only; omega⟩
      · obtain ⟨s', hs', hchar, hfield⟩ :=
          ih (s := ⟨fields, s.fieldIndex + 1, 0⟩) ⟨by simp only; omega, Nat.zero_le _⟩
        refine ⟨s', (if_neg hfull).trans hs', hchar, ?_⟩
        simp only at hfield
        omega
    · rw [if_neg hc, List.count_cons_of_ne hc]
      by_cases hchar : s.charIndex < 19
      · obtain ⟨fields, hput⟩ := h.put c
        rw [if_pos hchar, hput, Option.bind_some]
        exact ih (s := ⟨fields, s.fieldIndex, s.charIndex + 1⟩) ⟨hlt, by simp only; omega⟩
      · rw [if_neg hchar]
        exact ih h

/-- The split never leaves the table and finds one field more than commas, up to 20. -/
theorem split_eq (line : List UInt8) :
    ∃ s, split line = some s ∧ s.fieldIndex = min (line.count comma) 20 := by
  obtain ⟨s, hs, hchar, hfield⟩ := splitLoop_eq
    (s := ⟨Vector.replicate 20 (Vector.replicate 20 0), 0, 0⟩) ⟨by decide, Nat.zero_le _⟩ line
  rw [Nat.zero_add] at hfield
  rw [split, hs, Option.bind_some]
  by_cases hlt : s.fieldIndex < 20
  · obtain ⟨fields, hput⟩ := Splitter.InTable.put ⟨hlt, hchar⟩ NUL
    exact ⟨_, (if_pos hlt).trans hput, hfield⟩
  · exact ⟨s, if_neg hlt, hfield⟩

/-! ## What a read does -/

section Read

variable {F : Type} [CFloat F]

/-- What a read does with the first sentence of its text. -/
theorem read_sentence {t s : List UInt8} (ht : NUL ∉ t) (hs : FirstSentence t s)
    (rest : List UInt8) (packet : Packet F) :
    ∃ sp : Splitter, sp.fieldIndex = min ((line s).count comma) 20 ∧
      read (t ++ NUL :: rest) packet =
        some (if sp.fieldIndex < 9 then (false, packet) else (true, store sp.fields packet)) := by
  obtain ⟨pre, hpre, -⟩ := hs.2
  have hnul : NUL ∉ s := fun hmem => ht (hpre ▸ List.mem_append_right pre hmem)
  obtain ⟨sp, hsp, hindex⟩ := split_eq (line s)
  refine ⟨sp, hindex, ?_⟩
  rw [read, (scan_eq_some ht).mpr ⟨s, hs, rfl⟩]
  simp only [copyLine_eq hnul]
  rw [← line, hsp, Option.map_some]

/-- A read of a NUL-terminated buffer stores the fields of the first sentence if it can be parsed,
and fails without touching the packet if not. -/
theorem read_eq {buffer : List UInt8} (h : NUL ∈ buffer) (beyond : List UInt8) (packet : Packet F) :
    (FirstParsable buffer →
      ∃ fields, read (buffer ++ beyond) packet = some (true, store fields packet)) ∧
      (¬ FirstParsable buffer → read (buffer ++ beyond) packet = some (false, packet)) := by
  obtain ⟨rest, hbuffer⟩ := exists_eq_text_append h
  have hmemory : buffer ++ beyond = text buffer ++ NUL :: (rest ++ beyond) := by
    rw [← List.cons_append, ← List.append_assoc, ← hbuffer]
  have htext := nul_not_mem_text buffer
  rw [hmemory]
  constructor
  · rintro ⟨s, hs, hcount⟩
    obtain ⟨sp, hindex, hread⟩ := read_sentence htext hs (rest ++ beyond) packet
    exact ⟨sp.fields, by rw [hread, if_neg (by omega)]⟩
  · intro hnot
    cases hscan : scan (text buffer ++ NUL :: (rest ++ beyond)) with
    | none => simp only [read, hscan]
    | some r =>
      obtain ⟨s, hs, -⟩ := (scan_eq_some htext).mp hscan
      obtain ⟨sp, hindex, hread⟩ := read_sentence htext hs (rest ++ beyond) packet
      have hfew : ¬ 9 ≤ (line s).count comma := fun h9 => hnot ⟨s, hs, h9⟩
      rw [hread, if_pos (by omega)]

end Read

end CommonDrivers.Sensors.Gps
