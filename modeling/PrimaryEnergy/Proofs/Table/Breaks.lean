/-
  Texts that are put together, and texts with other breaks.

  Empty lines hold nothing, so all that is read of a text is read of its other lines
  (`readWith_eq_readLines`), and these go one after the other (`readLines_append`).

  * `readWith_append`: a text of two parts with a break between them;
  * `read_append_break`: such texts of factors and of components, and texts that only differ in
    their breaks.
-/
import PrimaryEnergy.Proofs.Component.Text
import PrimaryEnergy.Proofs.Factor.Text
import PrimaryEnergy.Proofs.Text.Breaks

namespace PrimaryEnergy

open Text TableText

namespace TableText

variable {ρ : Type} (row : RowReader ρ) {s t b : String}

/-! ## Line by line -/

/-- Reads lines. -/
def readLines (ls : List (List Char)) : Except TableFault (Table ρ) :=
  match ls.mapM (readLine row) with
  | .ok parts => .ok (Table.concat parts)
  | .error e => .error e

/-- Lines are read one after the other, up to the first faulty one. -/
theorem readLines_append (ls ms : List (List Char)) :
    readLines row (ls ++ ms) = do
      let t ← readLines row ls
      let u ← readLines row ms
      return t ++ u := by
  unfold readLines
  rw [List.mapM_append]
  cases ls.mapM (readLine row) with
  | error e => rfl
  | ok parts =>
    cases ms.mapM (readLine row) with
    | error e => rfl
    | ok parts' => exact congrArg Except.ok (Table.concat_append parts parts')

theorem readLines_singleton_nil : readLines row [[]] = .ok {} := rfl

/-- Empty lines hold nothing. -/
theorem readLines_filter (ls : List (List Char)) :
    readLines row (ls.filter (· ≠ [])) = readLines row ls := by
  induction ls with
  | nil => rfl
  | cons l ls ih =>
    rw [← List.singleton_append, readLines_append]
    by_cases hl : l = []
    · rw [hl, readLines_singleton_nil, List.singleton_append,
        List.filter_cons_of_neg (by simp), ih]
      cases readLines row ls <;> rfl
    · rw [List.singleton_append, List.filter_cons_of_pos (by simpa using hl),
        ← List.singleton_append, readLines_append, ih]

theorem readWith_eq_readLines (s : String) : readWith row s = readLines row (fullLines s.toList) :=
  (readLines_filter row (splitLines s.toList)).symm

/-- **A text of two parts with a break between them** is read as one part, then the other. -/
theorem readWith_append (hb : b ∈ lineBreaks) (s t : String) :
    readWith row (s ++ b ++ t) = do
      let u ← readWith row s
      let v ← readWith row t
      return u ++ v := by
  simp only [readWith_eq_readLines]
  rw [String.toList_append, String.toList_append, fullLines_append hb, readLines_append]

theorem readWith_append_eq_ok_iff (hb : b ∈ lineBreaks) {w : Table ρ} :
    readWith row (s ++ b ++ t) = .ok w ↔
      ∃ u v, readWith row s = .ok u ∧ readWith row t = .ok v ∧ w = u ++ v := by
  rw [readWith_append row hb]
  cases readWith row s with
  | error e => exact ⟨nofun, fun ⟨_, _, h, _⟩ => by cases h⟩
  | ok u =>
    cases readWith row t with
    | error e => exact ⟨nofun, fun ⟨_, _, _, h, _⟩ => by cases h⟩
    | ok v =>
      constructor
      · rintro ⟨⟩
        exact ⟨u, v, rfl, rfl, rfl⟩
      · rintro ⟨_, _, ⟨⟩, ⟨⟩, rfl⟩
        rfl

/-- How the lines of a text are broken does not matter. -/
theorem readWith_congr (h : SameButBreaks s.toList t.toList) : readWith row s = readWith row t := by
  rw [readWith_eq_readLines, readWith_eq_readLines, h.fullLines_eq]

/-! ## Tables -/

/-- Rows of two tables have equally many values if those of each do, and those of one table have
    as many as those of the other. -/
theorem sameLength_append_iff {t u : ComponentTable Float} :
    (∀ c ∈ (t ++ u).rows, ∀ d ∈ (t ++ u).rows, c.values.length = d.values.length) ↔
      (∀ c ∈ t.rows, ∀ d ∈ t.rows, c.values.length = d.values.length) ∧
      (∀ c ∈ u.rows, ∀ d ∈ u.rows, c.values.length = d.values.length) ∧
      ∀ c ∈ t.rows, ∀ d ∈ u.rows, c.values.length = d.values.length := by
  simp only [Table.rows_append, List.forall_mem_append]
  constructor
  · rintro ⟨htt, huu⟩
    exact ⟨fun c hc => (htt c hc).1, fun c hc => (huu c hc).2, fun c hc => (htt c hc).2⟩
  · rintro ⟨ht, hu, htu⟩
    exact ⟨fun c hc => ⟨ht c hc, htu c hc⟩, fun c hc => ⟨fun d hd => (htu d hd c hc).symm, hu c hc⟩⟩

/-- **Texts that are put together with a break between them.**  Of factors, they are read as what
    the parts are read as, one after the other, and the first part that cannot be read decides;
    of components, they can be read if both parts can and all rows have equally many values.
    Texts that only differ in their breaks are read alike. -/
theorem read_append_break :
    (∀ {s t b : String}, b ∈ lineBreaks → FactorTable.read (s ++ b ++ t) = do
      let u ← FactorTable.read s
      let v ← FactorTable.read t
      return u ++ v) ∧
    (∀ {s t b : String}, b ∈ lineBreaks → ∀ w, ComponentTable.read (s ++ b ++ t) = .ok w ↔
      ∃ u v, ComponentTable.read s = .ok u ∧ ComponentTable.read t = .ok v ∧
        (∀ c ∈ u.rows, ∀ d ∈ v.rows, c.values.length = d.values.length) ∧ w = u ++ v) ∧
    ∀ {s t : String}, SameButBreaks s.toList t.toList →
      FactorTable.read s = FactorTable.read t ∧ ComponentTable.read s = ComponentTable.read t := by
  refine ⟨fun hb => readWith_append _ hb _ _, fun hb w => ?_, fun h => ⟨readWith_congr _ h, ?_⟩⟩
  · simp only [ComponentTable.read_eq_ok_iff, readWith_append_eq_ok_iff _ hb]
    constructor
    · rintro ⟨⟨u, v, hu, hv, rfl⟩, hlength⟩
      obtain ⟨hlu, hlv, huv⟩ := sameLength_append_iff.1 hlength
      exact ⟨u, v, ⟨hu, hlu⟩, ⟨hv, hlv⟩, huv, rfl⟩
    · rintro ⟨u, v, ⟨hu, hlu⟩, ⟨hv, hlv⟩, huv, rfl⟩
      exact ⟨⟨u, v, hu, hv, rfl⟩, sameLength_append_iff.2 ⟨hlu, hlv, huv⟩⟩
  · rw [ComponentTable.read, ComponentTable.read, readWith_congr _ h]

/-- A row, and a carriage return behind it. -/
def returned : String := "BIOMASA, CONSUMO, EPB, CAL, 10 # Caldera\r"

/-- Metadata and a row. -/
def framed : String := "#META CTE_AREAREF: 100.0\nBIOMASA, CONSUMO, NEPB, 3\x0b"

/-- The same with other breaks. -/
def reframed : String := "#META CTE_AREAREF: 100.0\u0085BIOMASA, CONSUMO, NEPB, 3\r\n"

theorem sameButBreaks_reframed : SameButBreaks framed.toList reframed.toList :=
  .append_line (l := "#META CTE_AREAREF: 100.0".toList) (by decide) <|
    .newline (b := "\n") (c := "\u0085") (by decide) (by decide) <|
      .append_line (l := "BIOMASA, CONSUMO, NEPB, 3".toList) (by decide) <|
        .newline (b := "\x0b") (c := "\r\n") (by decide) (by decide) .nil

theorem read_append_break_returned :
    ComponentTable.read (returned ++ "\n" ++ framed) =
      .ok ⟨[⟨"CTE_AREAREF", "100.0"⟩], [⟨.biomass, .assessedUse, .heating, [10], "Caldera"⟩,
        ⟨.biomass, .otherUse, .undefined, [3], ""⟩]⟩ ∧
    FactorTable.read (returned ++ "\n" ++ framed) =
      .error (.factorFields "BIOMASA, CONSUMO, EPB, CAL, 10 # Caldera") ∧
    ComponentTable.read reframed =
      .ok ⟨[⟨"CTE_AREAREF", "100.0"⟩], [⟨.biomass, .otherUse, .undefined, [3], ""⟩]⟩ := by
  have hb : "\n" ∈ lineBreaks := by decide
  have hreturned : ComponentTable.read returned =
      .ok ⟨[], [⟨.biomass, .assessedUse, .heating, [10], "Caldera"⟩]⟩ := by decide +kernel
  have hframed : ComponentTable.read framed =
      .ok ⟨[⟨"CTE_AREAREF", "100.0"⟩], [⟨.biomass, .otherUse, .undefined, [3], ""⟩]⟩ := by
    decide +kernel
  refine ⟨(read_append_break.2.1 hb _).2 ⟨_, _, hreturned, hframed, by decide, rfl⟩, ?_, ?_⟩
  · rw [read_append_break.1 hb]
    rfl
  · rw [← (read_append_break.2.2 sameButBreaks_reframed).2, hframed]

end TableText

end PrimaryEnergy
