/-
  The outcome of completion, read off the table that it starts from.

  The rules of completion look up rows that earlier rules have added.  Here the outcome is
  told without them:

  * `verdict` decides from the keys of a table whether completion fails and how;
  * `missing` are the rows that a table lacks: the rows of `requirements` whose patterns
    match nothing in it;
  * `derivation_spec`: this is what the rules do.
-/
import Mathlib.Data.List.Forall2
import PrimaryEnergy.Proofs.Completion.Rules

namespace PrimaryEnergy

/-- The keys of a factor table, row by row. -/
def FactorTable.keys {α : Type} (t : FactorTable α) : List Factor.Key := t.rows.map (·.key)

namespace Completion

/-! ## Failure -/

/-- The carriers, other than ambient energy, without a row for supply from the grid. -/
def unsupplied (keys : List Factor.Key) : List Carrier :=
  (distinct (keys.map (·.carrier))).filter fun c => c ≠ .ambient ∧ gridSupply c ∉ keys

theorem mem_unsupplied {keys : List Factor.Key} {c : Carrier} :
    c ∈ unsupplied keys ↔ (∃ k ∈ keys, k.carrier = c) ∧ c ≠ .ambient ∧ gridSupply c ∉ keys := by
  simp [unsupplied, mem_distinct]

/-- The supply of electricity generated on site in a step. -/
def onsiteSupply (s : Step) : Factor.Key := ⟨.electricity, .onsite, .supply, s⟩

/-- Electricity generated on site and exported, in step A. -/
def onsiteExport (d : Dest) : Factor.Key := ⟨.electricity, .onsite, d, .a⟩

/-- The first of the two exports of electricity generated on site that is not there. -/
def missingExport? (keys : List Factor.Key) : Option Dest :=
  [Dest.toGrid, Dest.toOtherUses].find? fun d => onsiteExport d ∉ keys

/-- Why a table with these keys cannot be completed, if it cannot. -/
def verdict (keys : List Factor.Key) : Option CompletionFault :=
  if unsupplied keys ≠ [] then some (.missingGrid (unsupplied keys))
  else if ∀ k ∈ keys, k.carrier ≠ .electricity then
    some (.missingSource (onsiteExport .toGrid) (onsiteSupply .a))
  else if onsiteSupply .b ∈ keys ∧ onsiteSupply .a ∉ keys then
    (missingExport? keys).map fun d => .missingSource (onsiteExport d) (onsiteSupply .a)
  else none

/-! ## Rows -/

/-- A row that a completed table has, unless it has one that the pattern matches. -/
structure Requirement where
  /-- What to look for. -/
  absent : Factor.Pattern
  /-- The row to add. -/
  row : Factor Float

namespace Requirement

/-- A row that is required unless there is one with its key. -/
def own (row : Factor Float) : Requirement := ⟨row.key.pattern, row⟩

/-- Whether a table meets the requirement already. -/
def isMet (q : Requirement) (rows : List (Factor Float)) : Bool := Factor.has rows q.absent

end Requirement

/-- The value of the first row with a key; all renewable if there is none. -/
def valueOf (rows : List (Factor Float)) (k : Factor.Key) : Pair Float :=
  ((Factor.find? rows k.pattern).map (·.value)).getD ⟨1, 0⟩

/-- The family of cogenerated electricity with a destination. -/
def cogeneratedFamily : Dest → Family
  | .toOtherUses => .cogenToOther
  | _ => .cogenToGrid

/-- The row for energy exported in step A. -/
def producedRow (rows : List (Factor Float)) (values defaults : PerFamily (Pair Float))
    (c : Carrier) (s : Source) (d : Dest) : Factor Float :=
  match s with
  | .cogeneration =>
    let i := cogeneratedFamily d
    ⟨⟨c, .cogeneration, d, .a⟩, values.get i,
      cogeneratedNote d ++ " " ++ originNote (values.get i) (defaults.get i)⟩
  | s => ⟨⟨c, s, d, .a⟩, valueOf rows ⟨c, s, .supply, .a⟩, exportNote d⟩

/-- The row for energy exported in step B. -/
def savedRow (rows : List (Factor Float)) (c : Carrier) (s : Source) (d : Dest) : Factor Float :=
  ⟨⟨c, s, d, .b⟩, valueOf rows (gridSupply c), savedNote d⟩

/-- The rows required for a carrier that is exported from a source. -/
def exportRequirements (rows : List (Factor Float)) (values defaults : PerFamily (Pair Float))
    (c : Carrier) (s : Source) : List Requirement :=
  [.own (producedRow rows values defaults c s .toGrid),
   .own (producedRow rows values defaults c s .toOtherUses),
   .own (savedRow rows c s .toGrid), .own (savedRow rows c s .toOtherUses)]

/-- The rows required before the grid is checked. -/
def firstRequirements : List Requirement :=
  [.own ambientOnsite, .own ambientGrid,
   ⟨⟨some .electricity, some .onsite, some .supply, none⟩, electricityOnsite⟩]

/-- The rows required after the grid is checked. -/
def laterRequirements (rows : List (Factor Float)) (values defaults : PerFamily (Pair Float)) :
    List Requirement :=
  ⟨⟨none, some .cogeneration, some .supply, none⟩, cogeneratedSupply⟩ ::
    (exported.flatMap (fun (c, s) => exportRequirements rows values defaults c s) ++
      [.own (district1Supply values.district1), .own (district2Supply values.district2)])

/-- The rows required of a completed table, in the order in which they are added. -/
def requirements (rows : List (Factor Float)) (values defaults : PerFamily (Pair Float)) :
    List Requirement :=
  firstRequirements ++ laterRequirements rows values defaults

/-- The rows of the requirements that a table does not meet. -/
def owed (rows : List (Factor Float)) (qs : List Requirement) : List (Factor Float) :=
  (qs.filter fun q => !q.isMet rows).map (·.row)

/-- The rows that a table lacks. -/
def missing (rows : List (Factor Float)) (values defaults : PerFamily (Pair Float)) :
    List (Factor Float) :=
  owed rows (requirements rows values defaults)

theorem mem_missing {rows : List (Factor Float)} {values defaults : PerFamily (Pair Float)}
    {f : Factor Float} :
    f ∈ missing rows values defaults ↔
      ∃ q ∈ requirements rows values defaults, q.isMet rows = false ∧ q.row = f := by
  simp [missing, owed, and_assoc]

/-! ## The rules in two parts -/

/-- The rules before the grid is checked. -/
def firstRules : List Rule :=
  [.add ambientOnsite.key.pattern ambientOnsite, .add ambientGrid.key.pattern ambientGrid,
   .addForCarrier .electricity ⟨some .electricity, some .onsite, some .supply, none⟩
     electricityOnsite]

/-- The rules after the grid is checked. -/
def laterRules (values defaults : PerFamily (Pair Float)) : List Rule :=
  .add ⟨none, some .cogeneration, some .supply, none⟩ cogeneratedSupply ::
    (exported.flatMap (fun (c, s) => exportRules values defaults c s) ++ districtRules values)

theorem rules_eq (values defaults : PerFamily (Pair Float)) :
    rules values defaults = firstRules ++ .gridSupplied :: laterRules values defaults := rfl

instance (rs : List Rule) : Decidable (Independent rs) :=
  inferInstanceAs (Decidable (List.Pairwise _ _))

theorem independent_firstRules : Independent firstRules := of_decide_eq_true rfl

theorem independent_laterRules (values defaults : PerFamily (Pair Float)) :
    Independent (laterRules values defaults) := of_decide_eq_true rfl

/-! ## After the first rules -/

variable {rows : List (Factor Float)}

/-- The rows that the first rules add. -/
def firstRows (rows : List (Factor Float)) : List (Factor Float) :=
  (survey rows firstRules).added

/-- A table after the first rules. -/
def supplied (rows : List (Factor Float)) : List (Factor Float) := rows ++ firstRows rows

theorem derive_firstRules (rows : List (Factor Float)) :
    derive rows firstRules = ⟨firstRows rows, none⟩ := by
  rw [derive_eq_survey independent_firstRules]; rfl

theorem mem_firstRows {f : Factor Float} :
    f ∈ firstRows rows ↔
      (Factor.has rows ambientOnsite.key.pattern = false ∧ f = ambientOnsite) ∨
      (Factor.has rows ambientGrid.key.pattern = false ∧ f = ambientGrid) ∨
      ((.electricity ∈ Factor.carriers rows ∧
          Factor.has rows ⟨some .electricity, some .onsite, some .supply, none⟩ = false) ∧
        f = electricityOnsite) := by
  simp [firstRows, firstRules, survey, Rule.step, @eq_comm _ f]

/-- The rows that the first rules may add do not match a pattern. -/
def Foreign (p : Factor.Pattern) : Prop :=
  ∀ f ∈ [ambientOnsite, ambientGrid, electricityOnsite], p.matches f.key = false

theorem foreign_pattern {k : Factor.Key}
    (h : k ∉ [ambientOnsite.key, ambientGrid.key, electricityOnsite.key]) : Foreign k.pattern := by
  intro f hf
  refine Bool.eq_false_iff.2 fun hm => h ?_
  rw [Factor.matches_pattern.1 hm]
  exact List.mem_map.2 ⟨f, hf, rfl⟩

theorem foreign_of_dest {k : Factor.Key} (h : k.dest ≠ .supply) : Foreign k.pattern := by
  refine foreign_pattern fun hk => h ?_
  simp only [List.mem_cons, List.not_mem_nil, or_false] at hk
  rcases hk with rfl | rfl | rfl <;> rfl

theorem has_supplied {p : Factor.Pattern} (h : Foreign p) :
    Factor.has (supplied rows) p = Factor.has rows p := by
  refine Factor.has_append_of_unmatched fun f hf => ?_
  rcases mem_firstRows.1 hf with ⟨-, rfl⟩ | ⟨-, rfl⟩ | ⟨-, rfl⟩ <;> exact h _ (by simp)

/-- A row that the first rules see to is there after them. -/
theorem has_supplied_of_firstRow {f : Factor Float}
    (h : Factor.has rows f.key.pattern = false → f ∈ firstRows rows) :
    Factor.has (supplied rows) f.key.pattern = true := by
  rw [supplied, Factor.has_append, Bool.or_eq_true]
  by_cases hr : Factor.has rows f.key.pattern = true
  · exact Or.inl hr
  · refine Or.inr (Factor.has_iff.2 ⟨f, h (by simpa using hr), ?_⟩)
    exact Factor.matches_pattern.2 rfl

theorem has_supplied_ambientOnsite :
    Factor.has (supplied rows) ambientOnsite.key.pattern = true :=
  has_supplied_of_firstRow fun h => mem_firstRows.2 (.inl ⟨h, rfl⟩)

theorem has_supplied_ambientGrid :
    Factor.has (supplied rows) (gridSupply .ambient).pattern = true :=
  has_supplied_of_firstRow (f := ambientGrid) fun h => mem_firstRows.2 (.inr (.inl ⟨h, rfl⟩))

/-- All rows that the first rules add are fully renewable. -/
theorem value_of_find?_supplied {k : Factor.Key} {f : Factor Float}
    (h : Factor.find? (supplied rows) k.pattern = some f) : f.value = valueOf rows k := by
  rw [supplied, Factor.find?_append] at h
  unfold valueOf
  cases hr : Factor.find? rows k.pattern with
  | some g => rw [hr, Option.some_or] at h; cases h; rfl
  | none =>
    rw [hr, Option.none_or] at h
    rcases mem_firstRows.1 (List.mem_of_find?_eq_some h) with ⟨-, rfl⟩ | ⟨-, rfl⟩ | ⟨-, rfl⟩ <;> rfl

/-! ## The check of the grid -/

theorem filter_carriers_supplied :
    ((Factor.carriers (supplied rows)).filter fun c =>
      !Factor.has (supplied rows) (gridSupply c).pattern) = unsupplied (rows.map (·.key)) := by
  have hgrid : (!Factor.has (supplied rows) (gridSupply .ambient).pattern) = false := by
    rw [has_supplied_ambientGrid]; rfl
  have hold : (distinct (rows.map (·.key.carrier))).filter (fun c =>
      !Factor.has (supplied rows) (gridSupply c).pattern) = unsupplied (rows.map (·.key)) := by
    rw [unsupplied, List.map_map]
    refine List.filter_congr fun c _ => ?_
    by_cases hc : c = .ambient
    · subst hc; rw [hgrid]; simp
    · have hf : Foreign (gridSupply c).pattern := by
        refine foreign_pattern ?_
        simp [gridSupply, ambientOnsite, ambientGrid, electricityOnsite, hc]
      rw [has_supplied hf, Bool.eq_iff_iff]
      simp [hc, ← Factor.has_pattern_iff]
  have hnew : ((distinct ((firstRows rows).map (·.key.carrier))).filter
      (· ∉ rows.map (·.key.carrier))).filter
        (fun c => !Factor.has (supplied rows) (gridSupply c).pattern) = [] := by
    refine List.filter_eq_nil_iff.2 fun c hc => ?_
    simp only [List.mem_filter, mem_distinct, List.mem_map, decide_eq_true_eq] at hc
    obtain ⟨⟨f, hf, rfl⟩, hn⟩ := hc
    rcases mem_firstRows.1 hf with ⟨-, rfl⟩ | ⟨-, rfl⟩ | ⟨⟨he, -⟩, rfl⟩
    · exact Bool.eq_false_iff.1 hgrid
    · exact Bool.eq_false_iff.1 hgrid
    · obtain ⟨g, hg, he⟩ := Factor.mem_carriers.1 he
      exact absurd ⟨g, hg, he⟩ hn
  rw [Factor.carriers, supplied, List.map_append, distinct_append, List.filter_append]
  exact (congrArg₂ (· ++ ·) hold hnew).trans (List.append_nil _)

theorem step_gridSupplied :
    Rule.step (supplied rows) .gridSupplied =
      match unsupplied (rows.map (·.key)) with
      | [] => .ok none
      | c :: cs => .error (.missingGrid (c :: cs)) := by
  cases h : unsupplied (rows.map (·.key)) with
  | nil => simp [Rule.step, filter_carriers_supplied, h]
  | cons c cs => simp [Rule.step, filter_carriers_supplied, h]

theorem gridSupply_mem {keys : List Factor.Key} (h : unsupplied keys = []) {k : Factor.Key}
    (hk : k ∈ keys) (hc : k.carrier ≠ .ambient) : gridSupply k.carrier ∈ keys := by
  by_contra hn
  have : k.carrier ∈ unsupplied keys := mem_unsupplied.2 ⟨⟨k, hk, rfl⟩, hc, hn⟩
  rw [h] at this
  exact absurd this List.not_mem_nil

/-! ## Rules and requirements -/

/-- Applied to some rows, a rule adds the row of a requirement unless the table meets it. -/
def Serves (rows now : List (Factor Float)) (r : Rule) (q : Requirement) : Prop :=
  r.step now = .ok (if q.isMet rows then none else some q.row)

theorem survey_of_serves {now : List (Factor Float)} {rs : List Rule} {qs : List Requirement}
    (h : List.Forall₂ (Serves rows now) rs qs) : survey now rs = ⟨owed rows qs, none⟩ := by
  induction h with
  | nil => rfl
  | @cons r q rs qs hr _ ih =>
    have hr : r.step now = .ok (if q.isMet rows then none else some q.row) := hr
    simp only [survey, hr, ih]
    cases hm : q.isMet rows <;> simp [owed, hm]

theorem serves_add {p : Factor.Pattern} {row : Factor Float} (h : Foreign p) :
    Serves rows (supplied rows) (.add p row) ⟨p, row⟩ := by
  rw [Serves, Rule.step, has_supplied h]; rfl

theorem serves_copy {k source : Factor.Key} {comment : String} (hk : k.dest ≠ .supply)
    (h : k ∈ rows.map (·.key) ∨ Factor.has (supplied rows) source.pattern = true) :
    Serves rows (supplied rows) (.copy k source comment)
      (.own ⟨k, valueOf rows source, comment⟩) := by
  rw [← Factor.has_pattern_iff] at h
  show Rule.step _ _ = Except.ok (if Factor.has rows k.pattern = true then _ else _)
  rw [Rule.step, has_supplied (foreign_of_dest hk)]
  by_cases hm : Factor.has rows k.pattern = true
  · rw [if_pos hm, if_pos hm]
  · rw [if_neg hm, if_neg hm]
    have hs := h.resolve_left hm
    rw [← Factor.isSome_find?, Option.isSome_iff_exists] at hs
    obtain ⟨f, hf⟩ := hs
    simp only [hf, value_of_find?_supplied hf]
    rfl

theorem serves_firstRules (h : .electricity ∈ Factor.carriers rows) :
    List.Forall₂ (Serves rows rows) firstRules firstRequirements := by
  refine .cons rfl (.cons rfl (.cons ?_ .nil))
  by_cases hm : Factor.has rows ⟨some .electricity, some .onsite, some .supply, none⟩ = true <;>
    simp [Serves, Rule.step, Requirement.isMet, h, hm]

/-- What the export of a carrier from a source is derived from is there where it is needed. -/
structure Derivable (rows : List (Factor Float)) (c : Carrier) (s : Source) : Prop where
  /-- Step B takes the supply from the grid. -/
  grid : Factor.has (supplied rows) (gridSupply c).pattern = true
  /-- Step A takes the supply from the source itself. -/
  own : s ≠ .cogeneration → ∀ d ∈ [Dest.toGrid, Dest.toOtherUses],
    (⟨c, s, d, .a⟩ : Factor.Key) ∈ rows.map (·.key) ∨
      Factor.has (supplied rows) (Factor.Key.pattern ⟨c, s, .supply, .a⟩) = true

theorem serves_exportRules {values defaults : PerFamily (Pair Float)} {c : Carrier} {s : Source}
    (h : Derivable rows c s) :
    List.Forall₂ (Serves rows (supplied rows)) (exportRules values defaults c s)
      (exportRequirements rows values defaults c s) := by
  refine .cons ?_ (.cons ?_ (.cons (serves_copy (by simp) (.inr h.grid))
    (.cons (serves_copy (by simp) (.inr h.grid)) .nil)))
  · cases s with
    | cogeneration => exact serves_add (foreign_of_dest (by simp))
    | grid => exact serves_copy (by simp) (h.own (by simp) .toGrid (by simp))
    | onsite => exact serves_copy (by simp) (h.own (by simp) .toGrid (by simp))
  · cases s with
    | cogeneration => exact serves_add (foreign_of_dest (by simp))
    | grid => exact serves_copy (by simp) (h.own (by simp) .toOtherUses (by simp))
    | onsite => exact serves_copy (by simp) (h.own (by simp) .toOtherUses (by simp))

theorem serves_laterRules {values defaults : PerFamily (Pair Float)}
    (h : ∀ e ∈ exported, Derivable rows e.1 e.2) :
    List.Forall₂ (Serves rows (supplied rows)) (laterRules values defaults)
      (laterRequirements rows values defaults) := by
  have hexports : List.Forall₂ (Serves rows (supplied rows))
      (exported.flatMap fun (c, s) => exportRules values defaults c s)
      (exported.flatMap fun (c, s) => exportRequirements rows values defaults c s) := by
    have hsame : List.Forall₂ (fun e e' => e = e' ∧ Derivable rows e.1 e.2) exported exported :=
      List.forall₂_same.2 fun e he => ⟨rfl, h e he⟩
    exact List.rel_flatMap hsame fun e e' ⟨he, hd⟩ => he ▸ serves_exportRules hd
  refine .cons (serves_add ?_) (List.rel_append hexports
    (.cons (serves_add ?_) (.cons (serves_add ?_) .nil)))
  · intro f hf
    simp only [List.mem_cons, List.not_mem_nil, or_false] at hf
    rcases hf with rfl | rfl | rfl <;> rfl
  · exact foreign_pattern (by decide)
  · exact foreign_pattern (by decide)

/-! ## The verdict -/

theorem mem_carriers_iff {c : Carrier} :
    c ∈ Factor.carriers rows ↔ ∃ k ∈ rows.map (·.key), k.carrier = c := by
  simp [Factor.mem_carriers]

theorem has_onsite :
    Factor.has rows ⟨some .electricity, some .onsite, some .supply, none⟩ = true ↔
      onsiteSupply .a ∈ rows.map (·.key) ∨ onsiteSupply .b ∈ rows.map (·.key) := by
  simp only [Factor.has_iff, List.mem_map, ← exists_or, ← and_or_left]
  refine exists_congr fun f => and_congr_right fun _ => ?_
  obtain ⟨⟨c, s, d, t⟩, v, n⟩ := f
  cases t <;> simp [Factor.Pattern.matches, Factor.Pattern.part, onsiteSupply, and_assoc,
    @eq_comm _ Carrier.electricity, @eq_comm _ Source.onsite, @eq_comm _ Dest.supply]

/-- The supply of electricity generated on site is there after the first rules, unless only
    its row for step B was there before or there was no electricity. -/
theorem has_supplied_onsite :
    Factor.has (supplied rows) (onsiteSupply .a).pattern = true ↔
      onsiteSupply .a ∈ rows.map (·.key) ∨
        .electricity ∈ Factor.carriers rows ∧ onsiteSupply .b ∉ rows.map (·.key) := by
  rw [supplied, Factor.has_append, Bool.or_eq_true, Factor.has_pattern_iff, Factor.has_pattern_iff]
  refine or_congr_right' fun ha => ?_
  have hb : Factor.has rows _ = true ↔ _ := has_onsite
  simp only [ha, false_or] at hb
  rw [← hb, Bool.not_eq_true, List.mem_map]
  constructor
  · rintro ⟨f, hf, hk⟩
    rcases mem_firstRows.1 hf with ⟨-, rfl⟩ | ⟨-, rfl⟩ | ⟨h, -⟩
    · exact absurd hk (by decide)
    · exact absurd hk (by decide)
    · exact h
  · exact fun h => ⟨electricityOnsite, mem_firstRows.2 (.inr (.inr ⟨h, rfl⟩)), rfl⟩

theorem missingExport?_eq_some_iff {keys : List Factor.Key} {d : Dest} :
    missingExport? keys = some d ↔
      (onsiteExport .toGrid ∉ keys ∧ d = .toGrid) ∨
      (onsiteExport .toGrid ∈ keys ∧ onsiteExport .toOtherUses ∉ keys ∧ d = .toOtherUses) := by
  by_cases hg : onsiteExport .toGrid ∈ keys <;> by_cases ho : onsiteExport .toOtherUses ∈ keys <;>
    simp [missingExport?, hg, ho, @eq_comm _ d]

theorem missingExport?_eq_none_iff {keys : List Factor.Key} :
    missingExport? keys = none ↔
      onsiteExport .toGrid ∈ keys ∧ onsiteExport .toOtherUses ∈ keys := by
  simp [missingExport?]

/-- What a table needs to be completed. -/
theorem verdict_eq_none_iff {keys : List Factor.Key} :
    verdict keys = none ↔
      unsupplied keys = [] ∧ (∃ k ∈ keys, k.carrier = .electricity) ∧
        (onsiteSupply .b ∈ keys ∧ onsiteSupply .a ∉ keys →
          onsiteExport .toGrid ∈ keys ∧ onsiteExport .toOtherUses ∈ keys) := by
  rw [verdict]
  split_ifs with hu he hs
  · exact ⟨nofun, fun h => absurd h.1 hu⟩
  · refine ⟨nofun, fun ⟨_, ⟨k, hk, hc⟩, _⟩ => absurd hc (he k hk)⟩
  · rw [Option.map_eq_none_iff, missingExport?_eq_none_iff]
    push Not at he
    exact ⟨fun h => ⟨not_not.1 hu, he, fun _ => h⟩, fun ⟨_, _, h⟩ => h hs⟩
  · push Not at he
    exact ⟨fun _ => ⟨not_not.1 hu, he, fun h => absurd h hs⟩, fun _ => rfl⟩

/-- With supply from the grid, all hangs on the supply of electricity generated on site. -/
theorem verdict_of_gridSupplied {keys : List Factor.Key} (hk : rows.map (·.key) = keys)
    (h : unsupplied keys = []) :
    verdict keys =
      if Factor.has (supplied rows) (onsiteSupply .a).pattern = true then none
      else (missingExport? keys).map fun d =>
        .missingSource (onsiteExport d) (onsiteSupply .a) := by
  subst hk
  rw [verdict, if_neg (not_not.2 h)]
  by_cases he : ∀ k ∈ rows.map (·.key), k.carrier ≠ .electricity
  · have hs : ¬ Factor.has (supplied rows) (onsiteSupply .a).pattern = true := by
      rw [has_supplied_onsite, mem_carriers_iff]
      rintro (ha | ⟨⟨k, hk, hc⟩, -⟩)
      · exact he _ ha rfl
      · exact he k hk hc
    have hm : missingExport? (rows.map (·.key)) = some .toGrid :=
      missingExport?_eq_some_iff.2 (.inl ⟨fun hk => he _ hk rfl, rfl⟩)
    rw [if_pos he, if_neg hs, hm]; rfl
  · have hc : .electricity ∈ Factor.carriers rows := by
      rw [mem_carriers_iff]; push Not at he; exact he
    rw [if_neg he]
    by_cases hs : Factor.has (supplied rows) (onsiteSupply .a).pattern = true
    · rw [if_pos hs, if_neg]
      rcases has_supplied_onsite.1 hs with ha | ⟨-, hb⟩
      · exact fun h => h.2 ha
      · exact fun h => hb h.1
    · rw [if_neg hs, if_pos]
      rw [has_supplied_onsite, not_or, not_and, not_not] at hs
      exact ⟨hs.2 hc, hs.1⟩

/-! ## What the rules do -/

theorem derivable_exported (hu : unsupplied (rows.map (·.key)) = [])
    (hc : .electricity ∈ Factor.carriers rows)
    (h : Factor.has (supplied rows) (onsiteSupply .a).pattern = true ∨
      missingExport? (rows.map (·.key)) = none) :
    ∀ e ∈ exported, Derivable rows e.1 e.2 := by
  have hgrid : Factor.has (supplied rows) (gridSupply .electricity).pattern = true := by
    obtain ⟨k, hk, hkc⟩ := mem_carriers_iff.1 hc
    have := gridSupply_mem hu hk (by simp [hkc])
    rw [supplied, Factor.has_append, Bool.or_eq_true]
    exact Or.inl (Factor.has_pattern_iff.2 (hkc ▸ this))
  have honsite : Derivable rows .electricity .onsite := by
    refine ⟨hgrid, fun _ d hd => ?_⟩
    rcases h with h | h
    · exact Or.inr h
    · rcases List.mem_pair.1 hd with rfl | rfl
      · exact Or.inl (missingExport?_eq_none_iff.1 h).1
      · exact Or.inl (missingExport?_eq_none_iff.1 h).2
  have hambient : Derivable rows .ambient .onsite :=
    ⟨has_supplied_ambientGrid, fun _ _ _ => Or.inr has_supplied_ambientOnsite⟩
  simp only [exported, List.mem_cons, List.not_mem_nil, or_false]
  rintro e (rfl | rfl | rfl)
  · exact honsite
  · exact ⟨hgrid, fun h => absurd rfl h⟩
  · exact hambient

theorem step_onsiteExport_of_mem {d : Dest} {comment : String} (hd : d ≠ .supply)
    (h : onsiteExport d ∈ rows.map (·.key)) :
    Rule.step (supplied rows) (.copy (onsiteExport d) (onsiteSupply .a) comment) = .ok none := by
  rw [Rule.step, has_supplied (foreign_of_dest hd), if_pos (Factor.has_pattern_iff.2 h)]

theorem step_onsiteExport_of_missing {d : Dest} {comment : String} (hd : d ≠ .supply)
    (h : onsiteExport d ∉ rows.map (·.key))
    (hs : Factor.has (supplied rows) (onsiteSupply .a).pattern = false) :
    Rule.step (supplied rows) (.copy (onsiteExport d) (onsiteSupply .a) comment) =
      .error (.missingSource (onsiteExport d) (onsiteSupply .a)) := by
  rw [← Factor.isSome_find?, Option.isSome_eq_false_iff, Option.isNone_iff_eq_none] at hs
  rw [Rule.step, has_supplied (foreign_of_dest hd), if_neg (mt Factor.has_pattern_iff.1 h), hs]

/-- Without supply of electricity generated on site, its first missing export fails. -/
theorem fault_survey_laterRules {values defaults : PerFamily (Pair Float)} {d : Dest}
    (hs : Factor.has (supplied rows) (onsiteSupply .a).pattern = false)
    (hd : missingExport? (rows.map (·.key)) = some d) :
    (survey (supplied rows) (laterRules values defaults)).fault =
      some (.missingSource (onsiteExport d) (onsiteSupply .a)) := by
  rcases missingExport?_eq_some_iff.1 hd with ⟨hg, rfl⟩ | ⟨hg, ho, rfl⟩
  · refine fault_survey_of_error (l := [_]) ?_ (step_onsiteExport_of_missing (by simp) hg hs)
    intro r hr
    rw [List.mem_singleton.1 hr]
    exact ⟨_, rfl⟩
  · refine fault_survey_of_error (l := [_, .copy (onsiteExport .toGrid) (onsiteSupply .a) _]) ?_
      (step_onsiteExport_of_missing (by simp) ho hs)
    intro r hr
    rcases List.mem_pair.1 hr with rfl | rfl
    · exact ⟨_, rfl⟩
    · exact ⟨_, step_onsiteExport_of_mem (by simp) hg⟩

/-- Once every carrier is supplied from the grid, the later rules fail as the verdict tells, or
    add what the table lacks. -/
theorem survey_laterRules {values defaults : PerFamily (Pair Float)}
    (hu : unsupplied (rows.map (·.key)) = []) :
    (survey (supplied rows) (laterRules values defaults)).fault = verdict (rows.map (·.key)) ∧
      (verdict (rows.map (·.key)) = none →
        firstRows rows ++ (survey (supplied rows) (laterRules values defaults)).added =
          missing rows values defaults) := by
  rw [verdict_of_gridSupplied rfl hu]
  have hok (hc : .electricity ∈ Factor.carriers rows)
      (h : Factor.has (supplied rows) (onsiteSupply .a).pattern = true ∨
        missingExport? (rows.map (·.key)) = none) :
      survey (supplied rows) (laterRules values defaults) =
          ⟨owed rows (laterRequirements rows values defaults), none⟩ ∧
        firstRows rows = owed rows firstRequirements := by
    rw [survey_of_serves (serves_laterRules (derivable_exported hu hc h)), firstRows,
      survey_of_serves (serves_firstRules hc)]
    exact ⟨rfl, rfl⟩
  have hmissing : owed rows firstRequirements ++
      owed rows (laterRequirements rows values defaults) = missing rows values defaults := by
    rw [missing, owed, owed, owed, requirements, List.filter_append, List.map_append]
  by_cases hs : Factor.has (supplied rows) (onsiteSupply .a).pattern = true
  · have hc : .electricity ∈ Factor.carriers rows := by
      rcases has_supplied_onsite.1 hs with ha | ⟨hc, -⟩
      · exact mem_carriers_iff.2 ⟨_, ha, rfl⟩
      · exact hc
    obtain ⟨hl, hf⟩ := hok hc (Or.inl hs)
    rw [if_pos hs, hl, hf]
    exact ⟨rfl, fun _ => hmissing⟩
  · rw [if_neg hs]
    cases hd : missingExport? (rows.map (·.key)) with
    | some d =>
      rw [fault_survey_laterRules (Bool.eq_false_iff.2 hs) hd]
      exact ⟨rfl, nofun⟩
    | none =>
      have hc := mem_carriers_iff.2 ⟨_, (missingExport?_eq_none_iff.1 hd).1, rfl⟩
      obtain ⟨hl, hf⟩ := hok hc (Or.inr hd)
      rw [hl, hf]
      exact ⟨rfl, fun _ => hmissing⟩

/-- **The outcome of the rules is told by the verdict and the missing rows.** -/
theorem derivation_spec (t : FactorTable Float) (values defaults : PerFamily (Pair Float)) :
    (t.derivation values defaults).fault = verdict t.keys ∧
      (verdict t.keys = none →
        (t.derivation values defaults).added = missing t.rows values defaults) := by
  have hgrid : Rule.step (t.rows ++ firstRows t.rows) .gridSupplied = _ := step_gridSupplied
  have hkeys : t.keys = t.rows.map (·.key) := rfl
  rw [FactorTable.derivation, rules_eq, derive_append, derive_firstRules]
  simp only [Derivation.andThen, derive, hgrid]
  cases hu : unsupplied (t.rows.map (·.key)) with
  | nil =>
    simp only [derive_eq_survey (independent_laterRules values defaults)]
    exact survey_laterRules hu
  | cons c cs =>
    have hv : verdict t.keys = some (.missingGrid (c :: cs)) := by
      rw [hkeys, verdict, hu, if_pos (List.cons_ne_nil c cs)]
    rw [hv]
    exact ⟨rfl, fun hn => absurd hn (Option.some_ne_none _)⟩

end Completion

namespace FactorTable

open Completion

/-- A table with the rows that it lacks. -/
def filledUp (t : FactorTable Float) (values defaults : PerFamily (Pair Float)) :
    FactorTable Float :=
  ⟨t.metadata, t.rows ++ missing t.rows values defaults⟩

/-- A table without factors for uses outside the assessment, if they are not wanted. -/
def stripped (t : FactorTable Float) (strip : Bool) : FactorTable Float :=
  if strip then t.withoutOtherUses else t

theorem fix_of_verdict {t : FactorTable Float} {values defaults : PerFamily (Pair Float)}
    {strip : Bool} {e : CompletionFault} (h : verdict t.keys = some e) :
    t.fix values defaults strip = .error e := by
  have hf := (derivation_spec t values defaults).1
  rw [h] at hf
  unfold fix
  split
  · rename_i hd; rw [hd] at hf; cases hf
  · rename_i hd; rw [hd] at hf; cases hf; rfl

theorem fix_of_no_verdict {t : FactorTable Float} {values defaults : PerFamily (Pair Float)}
    {strip : Bool} (h : verdict t.keys = none) :
    t.fix values defaults strip = .ok ((t.filledUp values defaults).stripped strip) := by
  obtain ⟨hf, ha⟩ := derivation_spec t values defaults
  replace ha := ha h
  rw [h] at hf
  unfold fix
  split
  · rename_i added hd
    have : added = missing t.rows values defaults := by rw [← ha, hd]
    subst this; rfl
  · rename_i hd; rw [hd] at hf; cases hf

theorem fix_eq_error_iff {t : FactorTable Float} {values defaults : PerFamily (Pair Float)}
    {strip : Bool} {e : CompletionFault} :
    t.fix values defaults strip = .error e ↔ verdict t.keys = some e := by
  refine ⟨fun h => ?_, fix_of_verdict⟩
  cases hv : verdict t.keys with
  | none => rw [fix_of_no_verdict hv] at h; cases h
  | some e' => rw [fix_of_verdict hv] at h; cases h; rfl

theorem fix_eq_ok_iff {t u : FactorTable Float} {values defaults : PerFamily (Pair Float)}
    {strip : Bool} :
    t.fix values defaults strip = .ok u ↔
      verdict t.keys = none ∧ u = (t.filledUp values defaults).stripped strip := by
  constructor
  · intro h
    cases hv : verdict t.keys with
    | none => rw [fix_of_no_verdict hv] at h; cases h; exact ⟨rfl, rfl⟩
    | some e => rw [fix_of_verdict hv] at h; cases h
  · rintro ⟨hv, rfl⟩
    exact fix_of_no_verdict hv

theorem verdict_eq_missingSource {keys : List Factor.Key} {k source : Factor.Key}
    (h : verdict keys = some (.missingSource k source)) :
    ∃ d ∈ [Dest.toGrid, Dest.toOtherUses], k = onsiteExport d := by
  unfold verdict at h
  split_ifs at h
  · cases h
  · cases h; exact ⟨.toGrid, by simp, rfl⟩
  · obtain ⟨d, hd, he⟩ := Option.map_eq_some_iff.1 h
    cases he
    exact ⟨d, List.mem_of_find?_eq_some hd, rfl⟩

/-- **The keys of a table decide whether and how completion fails**, whatever the values of
    the families are and whether rows are removed at the end.  The only row whose source can be
    missing is the export of electricity generated on site in step A. -/
theorem completion_decided_by_keys (t : FactorTable Float) (o : Overrides)
    (values defaults : PerFamily (Pair Float)) (strip : Bool) :
    ((∀ e, t.fix values defaults strip = .error e ↔ verdict t.keys = some e) ∧
      ((∃ u, t.fix values defaults strip = .ok u) ↔ verdict t.keys = none)) ∧
    ((∀ e, t.complete o defaults strip = .error e ↔ verdict t.keys = some e) ∧
      ((∃ u, t.complete o defaults strip = .ok u) ↔ verdict t.keys = none)) ∧
    ¬ ∃ k source, t.fix values defaults strip = .error (.missingSource k source) ∧
      (k.step = .b ∨ k.carrier ≠ .electricity ∨ k.source ≠ .onsite) := by
  have decided (t : FactorTable Float) (values : PerFamily (Pair Float)) :
      (∀ e, t.fix values defaults strip = .error e ↔ verdict t.keys = some e) ∧
        ((∃ u, t.fix values defaults strip = .ok u) ↔ verdict t.keys = none) :=
    ⟨fun e => fix_eq_error_iff, fun ⟨u, hu⟩ => (fix_eq_ok_iff.1 hu).1,
      fun h => ⟨_, fix_of_no_verdict h⟩⟩
  refine ⟨decided t values, decided (t.recordValues _) _, ?_⟩
  rintro ⟨k, source, he, hk⟩
  obtain ⟨d, -, rfl⟩ := verdict_eq_missingSource (fix_eq_error_iff.1 he)
  simp [onsiteExport] at hk

/-- **Completion adds the rows that the table lacks**, in the order of the requirements, and
    nothing else: they are read off the table that it starts from. -/
theorem fix_adds_missing (t u : FactorTable Float) (values defaults : PerFamily (Pair Float)) :
    t.fix values defaults false = .ok u ↔
      verdict t.keys = none ∧ u.metadata = t.metadata ∧
        u.rows = t.rows ++ missing t.rows values defaults := by
  rw [fix_eq_ok_iff]
  refine and_congr_right fun _ => ?_
  obtain ⟨m, rows⟩ := u
  exact Table.mk.injEq .. ▸ Iff.rfl

end FactorTable

end PrimaryEnergy
