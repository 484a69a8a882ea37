/-
  Rules that read and add rows.

  A rule looks up some patterns and adds at most one row, whose key is known beforehand.
  Rows that a rule does not look up make no difference to it; so a list of rules none of
  which reads what an earlier one adds can be judged on the table that it starts from.

  * `Rule.reads` and `Rule.target?` are what a rule looks up and what it may add, and
    `step_append` is the frame law;
  * `derive_append`: rules one list after the other;
  * `survey` applies every rule to the same rows, and `derive_eq_survey`: for independent
    rules this is what `derive` does.
-/
import PrimaryEnergy.Factor.Completion

namespace PrimaryEnergy

namespace Factor

variable {α : Type}

theorem has_iff {rows : List (Factor α)} {p : Pattern} :
    has rows p = true ↔ ∃ f ∈ rows, p.matches f.key = true := by
  simp [has]

theorem has_pattern_iff {rows : List (Factor α)} {k : Key} :
    has rows k.pattern = true ↔ k ∈ rows.map (·.key) := by
  simp [has_iff, @eq_comm _ k]

theorem has_append (rows added : List (Factor α)) (p : Pattern) :
    has (rows ++ added) p = (has rows p || has added p) := by
  simp [has]

theorem find?_append (rows added : List (Factor α)) (p : Pattern) :
    find? (rows ++ added) p = (find? rows p).or (find? added p) := by
  simp [find?]

/-- Rows that a pattern does not match are not found by it. -/
theorem find?_append_of_unmatched {rows added : List (Factor α)} {p : Pattern}
    (h : ∀ f ∈ added, p.matches f.key = false) : find? (rows ++ added) p = find? rows p := by
  have hn : find? added p = none := List.find?_eq_none.2 fun f hf => by simp [h f hf]
  rw [find?_append, hn, Option.or_none]

theorem has_append_of_unmatched {rows added : List (Factor α)} {p : Pattern}
    (h : ∀ f ∈ added, p.matches f.key = false) : has (rows ++ added) p = has rows p := by
  rw [← isSome_find?, ← isSome_find?, find?_append_of_unmatched h]

theorem mem_carriers {rows : List (Factor α)} {c : Carrier} :
    c ∈ carriers rows ↔ ∃ f ∈ rows, f.key.carrier = c := by
  simp [carriers, mem_distinct]

/-- A carrier occurs if the pattern with nothing but the carrier matches a row. -/
theorem mem_carriers_iff_has {rows : List (Factor α)} {c : Carrier} :
    c ∈ carriers rows ↔ has rows { carrier := some c } = true := by
  rw [mem_carriers, has_iff]
  refine exists_congr fun f => and_congr_right fun _ => ?_
  simp only [Pattern.matches, Pattern.part, Option.all_some, Option.all_none, Bool.and_true,
    beq_iff_eq]
  exact eq_comm

end Factor

namespace Completion

/-! ## What a rule depends on -/

/-- The patterns that a rule looks up. -/
def Rule.reads : Rule → List Factor.Pattern
  | add absent _ => [absent]
  | addForCarrier c absent _ => [{ carrier := some c }, absent]
  | gridSupplied => [{}]
  | copy key source _ => [key.pattern, source.pattern]

/-- The key of the row that a rule may add. -/
def Rule.target? : Rule → Option Factor.Key
  | add _ row | addForCarrier _ _ row => some row.key
  | gridSupplied => none
  | copy key _ _ => some key

/-- Whether rows with a key make a difference to a rule. -/
def Rule.sees (r : Rule) (k : Factor.Key) : Bool := r.reads.any (·.matches k)

theorem Rule.matches_of_sees {r : Rule} {k : Factor.Key} (h : r.sees k = false)
    {p : Factor.Pattern} (hp : p ∈ r.reads) : p.matches k = false := by
  simp only [sees, List.any_eq_false] at h
  simpa using h p hp

/-- **Frame.**  Rows that a rule does not see make no difference to it. -/
theorem Rule.step_append {r : Rule} {rows added : List (Factor Float)}
    (h : ∀ f ∈ added, r.sees f.key = false) : r.step (rows ++ added) = r.step rows := by
  have unmatched : ∀ p ∈ r.reads, ∀ f ∈ added, p.matches f.key = false :=
    fun p hp f hf => matches_of_sees (h f hf) hp
  cases r with
  | add absent row =>
    simp only [step, Factor.has_append_of_unmatched (unmatched absent (by simp [reads]))]
  | addForCarrier c absent row =>
    simp only [step, Factor.mem_carriers_iff_has,
      Factor.has_append_of_unmatched (unmatched absent (by simp [reads])),
      Factor.has_append_of_unmatched (unmatched { carrier := some c } (by simp [reads]))]
  | gridSupplied =>
    cases added with
    | nil => rw [List.append_nil]
    | cons f fs =>
      have := unmatched {} (by simp [reads]) f (by simp)
      simp [Factor.Pattern.matches, Factor.Pattern.part] at this
  | copy key source comment =>
    simp only [step, Factor.has_append_of_unmatched (unmatched key.pattern (by simp [reads])),
      Factor.find?_append_of_unmatched (unmatched source.pattern (by simp [reads]))]

/-- A rule adds a row with its own key only. -/
theorem Rule.key_of_step {r : Rule} {rows : List (Factor Float)} {f : Factor Float}
    (h : r.step rows = .ok (some f)) : r.target? = some f.key := by
  cases r with
  | add absent row =>
    simp only [step] at h
    split at h
    · simp at h
    · cases h; rfl
  | addForCarrier c absent row =>
    simp only [step] at h
    split at h
    · cases h; rfl
    · simp at h
  | gridSupplied =>
    simp only [step] at h
    split at h <;> simp at h
  | copy key source comment =>
    simp only [step] at h
    split at h
    · simp at h
    · split at h
      · cases h; rfl
      · simp at h

/-! ## Lists of rules -/

/-- Goes on after a derivation that has not failed, with the rows that it added. -/
def Derivation.andThen (d : Derivation) (next : List (Factor Float) → Derivation) : Derivation :=
  match d.fault with
  | some _ => d
  | none => ⟨d.added ++ (next d.added).added, (next d.added).fault⟩

theorem derive_append (rows : List (Factor Float)) (rs rs' : List Rule) :
    derive rows (rs ++ rs') =
      (derive rows rs).andThen fun added => derive (rows ++ added) rs' := by
  induction rs generalizing rows with
  | nil => simp [derive, Derivation.andThen]
  | cons r rs ih =>
    simp only [List.cons_append, derive]
    cases r.step rows with
    | error e => rfl
    | ok added =>
      cases added with
      | none => exact ih rows
      | some f =>
        simp only [ih, Derivation.andThen]
        cases hf : (derive (rows ++ [f]) rs).fault <;> simp [hf]

/-- Applies every rule to the same rows, up to the first failure. -/
def survey (rows : List (Factor Float)) : List Rule → Derivation
  | [] => ⟨[], none⟩
  | r :: rs =>
    match r.step rows with
    | .error e => ⟨[], some e⟩
    | .ok added => ⟨added.toList ++ (survey rows rs).added, (survey rows rs).fault⟩

/-- No rule sees what an earlier one may add. -/
def Independent (rs : List Rule) : Prop :=
  rs.Pairwise fun r r' => ∀ k ∈ r.target?, r'.sees k = false

theorem derive_append_eq_survey {rs : List Rule} (hi : Independent rs)
    (rows : List (Factor Float)) {added : List (Factor Float)}
    (h : ∀ r ∈ rs, ∀ f ∈ added, r.sees f.key = false) :
    derive (rows ++ added) rs = survey rows rs := by
  induction rs generalizing added with
  | nil => rfl
  | cons r rs ih =>
    obtain ⟨hr, hrs⟩ := List.pairwise_cons.1 hi
    simp only [derive, survey, Rule.step_append (h r (by simp))]
    cases hs : r.step rows with
    | error e => rfl
    | ok new =>
      cases new with
      | none => simp [ih hrs fun r' hr' => h r' (by simp [hr'])]
      | some f =>
        have hf : ∀ r' ∈ rs, ∀ g ∈ added ++ [f], r'.sees g.key = false := by
          intro r' hr' g hg
          rcases List.mem_append.1 hg with hg | hg
          · exact h r' (by simp [hr']) g hg
          · rw [List.mem_singleton.1 hg]; exact hr r' hr' f.key (Rule.key_of_step hs)
        simp [List.append_assoc, ih hrs hf]

/-- **Independent rules can be judged on the rows that they start from.** -/
theorem derive_eq_survey {rs : List Rule} (hi : Independent rs) (rows : List (Factor Float)) :
    derive rows rs = survey rows rs := by
  have h : derive (rows ++ []) rs = survey rows rs := derive_append_eq_survey hi rows (by simp)
  rwa [List.append_nil] at h

/-- The first rule that fails decides. -/
theorem fault_survey_of_error {rows : List (Factor Float)} {l l' : List Rule} {r : Rule}
    {e : CompletionFault} (h : ∀ r ∈ l, ∃ added, r.step rows = .ok added)
    (hr : r.step rows = .error e) : (survey rows (l ++ r :: l')).fault = some e := by
  induction l with
  | nil => simp [survey, hr]
  | cons r' l ih =>
    obtain ⟨added, ha⟩ := h r' (by simp)
    simp only [List.cons_append, survey, ha]
    exact ih fun r'' hr'' => h r'' (by simp [hr''])

end Completion

end PrimaryEnergy
