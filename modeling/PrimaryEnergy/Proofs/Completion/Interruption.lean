/-
  Exports that cannot be derived to the end.

  The four rows for a carrier that is exported from a source are derived one after the other.  If
  what one of them is derived from is not there, the rows before it stay in the table.

  * `ExportOutcome` is what may come of it, told by the keys that the table lacks: `finished` or
    `interrupted`;
  * `exportOutcome_survey`: the rules for any list of exports have such an outcome;
  * `ExportOutcome.again`: on the table that is left, nothing is added and the failure is the same;
  * `exportDerivation_resumable`: so it is for the four rows, whatever the table, the carrier and
    the source.
-/
import PrimaryEnergy.Proofs.Completion.Outcome

namespace PrimaryEnergy

namespace Completion

/-! ## Keys of exports -/

/-- The keys of the rows for a carrier that is exported from a source, in the order in which they
    are derived. -/
def exportKeys (c : Carrier) (s : Source) : List Factor.Key :=
  [⟨c, s, .toGrid, .a⟩, ⟨c, s, .toOtherUses, .a⟩, ⟨c, s, .toGrid, .b⟩, ⟨c, s, .toOtherUses, .b⟩]

/-- The key of the row that the row with a key is derived from, if its value is not one that the
    user sets. -/
def origin? (k : Factor.Key) : Option Factor.Key :=
  match k.step, k.source with
  | .a, .cogeneration => none
  | .a, s => some ⟨k.carrier, s, .supply, .a⟩
  | .b, _ => some (gridSupply k.carrier)

/-- The keys that a table lacks. -/
def lacking (rows : List (Factor Float)) (ks : List Factor.Key) : List Factor.Key :=
  ks.filter (· ∉ rows.map (·.key))

/-- Whether the row that the row with a key is derived from is there, if there has to be one. -/
def IsDerivable (rows : List (Factor Float)) (k : Factor.Key) : Prop :=
  ∀ o ∈ origin? k, o ∈ rows.map (·.key)

/-- The rule that adds the row with the key of an export. -/
def exportRule (values defaults : PerFamily (Pair Float)) (k : Factor.Key) : Rule :=
  match k.step with
  | .a =>
    producedRule k.carrier k.source k.dest (values.get (cogeneratedFamily k.dest))
      (defaults.get (cogeneratedFamily k.dest))
  | .b => savedRule k.carrier k.source k.dest

/-- The row with the key of an export. -/
def exportRow (rows : List (Factor Float)) (values defaults : PerFamily (Pair Float))
    (k : Factor.Key) : Factor Float :=
  match k.step with
  | .a => producedRow rows values defaults k.carrier k.source k.dest
  | .b => savedRow rows k.carrier k.source k.dest

/-- What may come of deriving the rows with the given keys, which are those that the table lacks. -/
inductive ExportOutcome (rows : List (Factor Float)) (values defaults : PerFamily (Pair Float)) :
    List Factor.Key → Derivation → Prop where
  | finished {missing : List Factor.Key} (derivable : ∀ k ∈ missing, IsDerivable rows k) :
      ExportOutcome rows values defaults missing
        ⟨missing.map (exportRow rows values defaults), none⟩
  /-- The first row that cannot be derived stops the others. -/
  | interrupted {before after : List Factor.Key} {k o : Factor.Key}
      (derivable : ∀ k' ∈ before, IsDerivable rows k') (origin : origin? k = some o)
      (absent : o ∉ rows.map (·.key)) :
      ExportOutcome rows values defaults (before ++ k :: after)
        ⟨before.map (exportRow rows values defaults), some (.missingSource k o)⟩

section
variable {rows added : List (Factor Float)} {values defaults : PerFamily (Pair Float)}
variable {k o : Factor.Key} {ks : List Factor.Key} {d : Derivation}

theorem mem_lacking : k ∈ lacking rows ks ↔ k ∈ ks ∧ k ∉ rows.map (·.key) := by
  simp [lacking]

theorem lacking_append :
    lacking (rows ++ added) ks = (lacking rows ks).filter (· ∉ added.map (·.key)) := by
  rw [lacking, lacking, List.filter_filter]
  refine List.filter_congr fun k _ => ?_
  rw [List.map_append, ← Bool.decide_and, decide_eq_decide, List.mem_append, not_or]
  exact and_comm

theorem dest_of_origin? (h : origin? k = some o) : o.dest = .supply := by
  obtain ⟨c, s, d, t⟩ := k
  cases t <;> cases s <;> cases h <;> rfl

theorem key_exportRow (rows : List (Factor Float)) (values defaults : PerFamily (Pair Float))
    (k : Factor.Key) : (exportRow rows values defaults k).key = k := by
  obtain ⟨c, s, d, t⟩ := k
  cases t <;> cases s <;> rfl

theorem keys_map_exportRow (rows : List (Factor Float)) (values defaults : PerFamily (Pair Float))
    (ks : List Factor.Key) : (ks.map (exportRow rows values defaults)).map (·.key) = ks := by
  rw [List.map_map]
  exact List.map_id'' (key_exportRow rows values defaults) ks

/-! ## One rule -/

/-- A row is added with the value of the user, or it is copied from the one that it is derived
    from. -/
theorem exportRule_cases (rows : List (Factor Float)) (values defaults : PerFamily (Pair Float))
    (k : Factor.Key) :
    (origin? k = none ∧
        exportRule values defaults k = .add k.pattern (exportRow rows values defaults k)) ∨
      ∃ o comment, origin? k = some o ∧ exportRule values defaults k = .copy k o comment ∧
        exportRow rows values defaults k = ⟨k, valueOf rows o, comment⟩ := by
  obtain ⟨c, s, d, t⟩ := k
  cases t with
  | a =>
    cases s with
    | cogeneration => exact .inl ⟨rfl, rfl⟩
    | grid => exact .inr ⟨_, _, rfl, rfl, rfl⟩
    | onsite => exact .inr ⟨_, _, rfl, rfl, rfl⟩
  | b => exact .inr ⟨_, _, rfl, rfl, rfl⟩

theorem step_exportRule_of_mem (h : k ∈ rows.map (·.key)) :
    (exportRule values defaults k).step rows = .ok none := by
  rw [← Factor.has_pattern_iff] at h
  rcases exportRule_cases rows values defaults k with ⟨-, hr⟩ | ⟨o, comment, -, hr, -⟩
  · rw [hr, Rule.step, if_pos h]
  · rw [hr, Rule.step, if_pos h]

theorem step_exportRule_of_derivable (h : k ∉ rows.map (·.key)) (hd : IsDerivable rows k) :
    (exportRule values defaults k).step rows = .ok (some (exportRow rows values defaults k)) := by
  rw [← Factor.has_pattern_iff] at h
  rcases exportRule_cases rows values defaults k with ⟨-, hr⟩ | ⟨o, comment, ho, hr, hrow⟩
  · rw [hr, Rule.step, if_neg h]
  · have hfound := Factor.has_pattern_iff.2 (hd o ho)
    rw [← Factor.isSome_find?] at hfound
    obtain ⟨f, hf⟩ := Option.isSome_iff_exists.1 hfound
    rw [hr, hrow, Rule.step, if_neg h, valueOf, hf]
    rfl

theorem step_exportRule_of_not_mem (h : k ∉ rows.map (·.key)) (ho : origin? k = some o)
    (hm : o ∉ rows.map (·.key)) :
    (exportRule values defaults k).step rows = .error (.missingSource k o) := by
  rw [← Factor.has_pattern_iff] at h hm
  rcases exportRule_cases rows values defaults k with ⟨hnone, -⟩ | ⟨o', comment, ho', hr, -⟩
  · rw [hnone] at ho
    cases ho
  · obtain rfl : o' = o := Option.some_inj.1 (ho'.symm.trans ho)
    have hfind : Factor.find? rows o'.pattern = none := by
      rw [← Option.not_isSome_iff_eq_none, Factor.isSome_find?]
      exact hm
    rw [hr, Rule.step, if_neg h, hfind]

/-- A rule for an export looks for its own row and for the one that it is derived from. -/
theorem sees_exportRule {k' : Factor.Key} (h : (exportRule values defaults k).sees k' = true) :
    k' = k ∨ origin? k = some k' := by
  rcases exportRule_cases [] values defaults k with ⟨-, hr⟩ | ⟨o, comment, ho, hr, -⟩
  · rw [hr] at h
    have h : k = k' := by simpa [Rule.sees, Rule.reads] using h
    exact Or.inl h.symm
  · rw [hr] at h
    have h : k = k' ∨ o = k' := by simpa [Rule.sees, Rule.reads] using h
    exact h.imp Eq.symm fun h => ho.trans (congrArg some h)

theorem target?_exportRule : (exportRule values defaults k).target? = some k := by
  rcases exportRule_cases [] values defaults k with ⟨-, hr⟩ | ⟨o, comment, -, hr, -⟩
  · rw [hr, Rule.target?, key_exportRow]
  · rw [hr, Rule.target?]

/-! ## All rules -/

/-- Rows that are exported are not what others are derived from. -/
theorem independent_exportRules (hn : ks.Nodup) (hs : ∀ k ∈ ks, k.dest ≠ .supply) :
    Independent (ks.map (exportRule values defaults)) := by
  refine List.pairwise_map.2 (hn.imp_of_mem fun {k k'} hk hk' hne => ?_)
  rw [target?_exportRule]
  intro _ heq
  obtain rfl := Option.mem_some.1 heq
  refine Bool.eq_false_iff.2 fun hsees => ?_
  rcases sees_exportRule hsees with heq | ho
  · exact hne heq
  · exact hs k hk (dest_of_origin? ho)

theorem ExportOutcome.cons {missing : List Factor.Key} (hk : IsDerivable rows k)
    (h : ExportOutcome rows values defaults missing d) :
    ExportOutcome rows values defaults (k :: missing)
      ⟨exportRow rows values defaults k :: d.added, d.fault⟩ := by
  cases h with
  | finished derivable => exact .finished (List.forall_mem_cons.2 ⟨hk, derivable⟩)
  | @interrupted before after k' o derivable origin absent =>
    have hbefore := List.forall_mem_cons.2 ⟨hk, derivable⟩
    exact ExportOutcome.interrupted hbefore origin absent

/-- **Any list of exports** is derived up to the first row that cannot be. -/
theorem exportOutcome_survey (rows : List (Factor Float)) (values defaults : PerFamily (Pair Float))
    (ks : List Factor.Key) :
    ExportOutcome rows values defaults (lacking rows ks)
      (survey rows (ks.map (exportRule values defaults))) := by
  induction ks with
  | nil => exact .finished (by simp [lacking])
  | cons k ks ih =>
    rw [List.map_cons, survey]
    by_cases hm : k ∈ rows.map (·.key)
    · have hl : lacking rows (k :: ks) = lacking rows ks :=
        List.filter_cons_of_neg (by simpa using hm)
      rw [step_exportRule_of_mem hm, hl]
      exact ih
    · have hl : lacking rows (k :: ks) = k :: lacking rows ks :=
        List.filter_cons_of_pos (by simpa using hm)
      rw [hl]
      by_cases hd : IsDerivable rows k
      · rw [step_exportRule_of_derivable hm hd]
        exact ih.cons hd
      · obtain ⟨o, ho⟩ := not_forall.1 hd
        obtain ⟨ho, hmo⟩ := Classical.not_imp.1 ho
        rw [step_exportRule_of_not_mem hm ho hmo]
        have hbefore := List.forall_mem_nil (IsDerivable rows)
        exact ExportOutcome.interrupted hbefore ho hmo

/-! ## On the table that is left -/

theorem ExportOutcome.eq_of_nil (h : ExportOutcome rows values defaults [] d) : d = ⟨[], none⟩ := by
  generalize hnil : ([] : List Factor.Key) = missing at h
  cases h with
  | finished => subst hnil; rfl
  | interrupted => simp at hnil

/-- If the first row cannot be derived, none is. -/
theorem ExportOutcome.eq_of_absent (origin : origin? k = some o) (absent : o ∉ rows.map (·.key))
    (h : ExportOutcome rows values defaults (k :: ks) d) :
    d = ⟨[], some (.missingSource k o)⟩ := by
  generalize hcons : k :: ks = missing at h
  cases h with
  | finished derivable => exact absurd (derivable k (hcons ▸ List.mem_cons_self) o origin) absent
  | @interrupted before after k' o' derivable origin' _ =>
    cases before with
    | nil =>
      obtain ⟨rfl, -⟩ := List.cons.inj hcons
      obtain rfl : o' = o := Option.some_inj.1 (origin'.symm.trans origin)
      rfl
    | cons k'' before =>
      obtain ⟨rfl, -⟩ := List.cons.inj hcons
      exact absurd (derivable k List.mem_cons_self o origin) absent

/-- **On the table that is left** nothing is added, and what is missing is missing still. -/
theorem ExportOutcome.again {values' defaults' : PerFamily (Pair Float)} {d' : Derivation}
    (hn : ks.Nodup) (hs : ∀ k ∈ ks, k.dest ≠ .supply)
    (h : ExportOutcome rows values defaults (lacking rows ks) d)
    (h' : ExportOutcome (rows ++ d.added) values' defaults' (lacking (rows ++ d.added) ks) d') :
    d' = ⟨[], d.fault⟩ := by
  have hlacking : ∀ k ∈ lacking rows ks, k.dest ≠ .supply := fun k hk => hs k (mem_lacking.1 hk).1
  have hnodup : (lacking rows ks).Nodup := hn.filter _
  rw [lacking_append] at h'
  generalize lacking rows ks = missing at h hlacking hnodup h'
  cases h with
  | finished =>
    rw [keys_map_exportRow, List.filter_eq_nil_iff.2 (by simp)] at h'
    exact h'.eq_of_nil
  | @interrupted before after k o _ origin absent =>
    obtain ⟨-, -, hdisjoint⟩ := List.nodup_append.1 hnodup
    have hbefore : before.filter (· ∉ before) = [] := List.filter_eq_nil_iff.2 (by simp)
    have hrest : (k :: after).filter (· ∉ before) = k :: after :=
      List.filter_eq_self.2 fun k' hk' => by simpa using fun hb => hdisjoint k' hb k' hk' rfl
    rw [keys_map_exportRow, List.filter_append, hbefore, hrest, List.nil_append] at h'
    -- exports that were added are nothing to derive from
    have hmissing : o ∉ (rows ++ before.map (exportRow rows values defaults)).map (·.key) := by
      rw [List.map_append, keys_map_exportRow, List.mem_append, not_or]
      exact ⟨absent, fun hb => hlacking o (List.mem_append_left _ hb) (dest_of_origin? origin)⟩
    exact h'.eq_of_absent origin hmissing

end

/-! ## The four rows of an export -/

theorem nodup_exportKeys (c : Carrier) (s : Source) : (exportKeys c s).Nodup := by
  simp [exportKeys]

theorem dest_of_mem_exportKeys (c : Carrier) (s : Source) :
    ∀ k ∈ exportKeys c s, k.dest ≠ .supply := by
  simp [exportKeys]

end Completion

namespace FactorTable

open Completion

theorem exportDerivation_eq_survey (t : FactorTable Float)
    (values defaults : PerFamily (Pair Float)) (c : Carrier) (s : Source) :
    t.exportDerivation values defaults c s =
      survey t.rows ((exportKeys c s).map (exportRule values defaults)) :=
  derive_eq_survey
    (independent_exportRules (nodup_exportKeys c s) (dest_of_mem_exportKeys c s)) t.rows

/-- **The rows of an export are derived in order**, those that the table lacks and no others, until
    there is nothing to derive one from.  On the table that is left, whether it failed or not, with
    the same or other values, nothing is added and the failure is the same. -/
theorem exportDerivation_resumable (t : FactorTable Float)
    (values defaults : PerFamily (Pair Float)) (c : Carrier) (s : Source) :
    ExportOutcome t.rows values defaults (lacking t.rows (exportKeys c s))
        (t.exportDerivation values defaults c s) ∧
      ∀ values' defaults',
        exportDerivation { t with rows := t.rows ++ (t.exportDerivation values defaults c s).added }
            values' defaults' c s =
          ⟨[], (t.exportDerivation values defaults c s).fault⟩ := by
  have houtcome (t : FactorTable Float) (values defaults : PerFamily (Pair Float)) :
      ExportOutcome t.rows values defaults (lacking t.rows (exportKeys c s))
        (t.exportDerivation values defaults c s) := by
    rw [exportDerivation_eq_survey]
    exact exportOutcome_survey t.rows values defaults (exportKeys c s)
  refine ⟨houtcome t values defaults, fun values' defaults' => ?_⟩
  exact (houtcome t values defaults).again (nodup_exportKeys c s) (dest_of_mem_exportKeys c s)
    (houtcome { t with rows := t.rows ++ (t.exportDerivation values defaults c s).added } values'
      defaults')

/-- Without supply from the grid, step A is derived and step B is not. -/
example :
    (exportDerivation ⟨[], [⟨⟨.biomass, .onsite, .supply, .a⟩, ⟨1, 0⟩, ""⟩]⟩ (.of fun _ => ⟨0, 1⟩)
        (.of fun _ => ⟨0, 1⟩) .biomass .onsite).fault =
      some (.missingSource ⟨.biomass, .onsite, .toGrid, .b⟩ (gridSupply .biomass)) := by
  rfl

end FactorTable

end PrimaryEnergy
