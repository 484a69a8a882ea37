/-
  Completion of a table that has been completed.

  * `recordValues_again`: the values of the families may come from other places the second
    time, but they have the same texts;
  * `isMet_completed`: the completed table meets every requirement, except for rows that have
    been removed, so that nothing is added that stays (`filledUp_completed`);
  * `verdict_completed`: whether the completed table can be completed again.
-/
import PrimaryEnergy.Proofs.Completion.Outcome
import PrimaryEnergy.Proofs.Pair

namespace PrimaryEnergy

/-! ## Values in the metadata -/

theorem Family.resolve_argument (i : Family) (t : FactorTable Float) (p default : Pair Float) :
    i.resolve t (some p) default = ⟨p, .argument⟩ := rfl

theorem Family.resolve_metadata {i : Family} {t : FactorTable Float} {p : Pair Float}
    (h : t.metadata.pair? i.metaKey = some p) (default : Pair Float) :
    i.resolve t none default = ⟨p, .metadata⟩ := by
  unfold Family.resolve
  rw [h]

namespace FactorTable

variable {t u : FactorTable Float} {values : PerFamily (Pair Float)}

/-- The metadata hold the texts of these values. -/
def Records (t : FactorTable Float) (values : PerFamily (Pair Float)) : Prop :=
  ∀ i : Family, t.metadata.get? i.metaKey = some (values.get i).metaText

theorem records_recordValues (t : FactorTable Float) (values : PerFamily (Pair Float)) :
    (t.recordValues values).Records values := by
  intro i
  have hne : ∀ i j : Family, i ≠ j → i.metaKey ≠ j.metaKey := by
    intro i j; cases i <;> cases j <;> decide
  simp only [recordValues, Family.all, List.foldl, Table.setMeta]
  cases i <;> simp [Metadata.get?_set_of_ne, hne]

theorem recordValues_eq_self (h : t.Records values) : t.recordValues values = t := by
  have hset (i : Family) : t.setMeta i.metaKey (values.get i).metaText = t := by
    rw [Table.setMeta, Metadata.set_eq_self (h i)]
  simp only [recordValues, Family.all, List.foldl, hset]

/-- The texts of the values decide what is recorded. -/
theorem Records.congr {values' : PerFamily (Pair Float)} (h : t.Records values)
    (ht : ∀ i, (values'.get i).metaText = (values.get i).metaText) : t.Records values' :=
  fun i => (h i).trans (congrArg some (ht i).symm)

/-- Values that have been recorded have the same texts when they are resolved again. -/
theorem metaText_userValues {o : Overrides} {defaults : PerFamily (Pair Float)}
    (h : u.Records values) (ho : ∀ i p, o.get i = some p → values.get i = p) (i : Family) :
    ((u.userValues o defaults).get i).metaText = (values.get i).metaText := by
  have hpair : u.metadata.pair? i.metaKey = some (values.get i).rounded := by
    rw [Metadata.pair?, h i, Option.bind_some, Pair.ofText_metaText]; rfl
  rw [userValues, PerFamily.get_of, resolve, PerFamily.get_of]
  cases hi : o.get i with
  | some p => rw [Family.resolve_argument, ho i p hi]
  | none => rw [Family.resolve_metadata hpair, Pair.metaText_rounded]

/-- Explicit values are taken as they are. -/
theorem userValues_of_override {o : Overrides} {defaults : PerFamily (Pair Float)} {i : Family}
    {p : Pair Float} (h : o.get i = some p) : (t.userValues o defaults).get i = p := by
  rw [userValues, PerFamily.get_of, resolve, PerFamily.get_of, h, Family.resolve_argument]

/-- **Recording the values again changes nothing.** -/
theorem recordValues_again {o : Overrides} {defaults : PerFamily (Pair Float)}
    (h : u.Records (t.userValues o defaults)) : u.recordValues (u.userValues o defaults) = u := by
  refine recordValues_eq_self (h.congr fun i => ?_)
  exact metaText_userValues h (fun _ _ hp => userValues_of_override hp) i

end FactorTable

/-! ## Requirements of a completed table -/

namespace Completion

variable {rows rows' : List (Factor Float)}
  {values values' defaults defaults' : PerFamily (Pair Float)}

namespace Requirement

/-- What a requirement looks for and what it adds, apart from the value. -/
def shape (q : Requirement) : Factor.Pattern × Factor.Key := (q.absent, q.row.key)

end Requirement

/-- The rows and the values only show in the values and comments of what is required. -/
theorem shape_requirements :
    (requirements rows values defaults).map Requirement.shape =
      (requirements rows' values' defaults').map Requirement.shape := rfl

/-- A row that is added is one that was looked for, with the destination that was looked for. -/
theorem matches_of_mem_requirements : ∀ q ∈ requirements rows values defaults,
    q.absent.matches q.row.key = true ∧ q.absent.dest = some q.row.key.dest :=
  of_decide_eq_true rfl

theorem dest_of_matches {p : Factor.Pattern} {k : Factor.Key} {d : Dest}
    (h : p.matches k = true) (hd : p.dest = some d) : k.dest = d := by
  simp only [Factor.Pattern.matches, Bool.and_eq_true, hd] at h
  exact Eq.symm (by simpa [Factor.Pattern.part] using h.1.2)

/-- A table with the rows that it lacks meets all requirements. -/
theorem isMet_append_missing {q : Requirement} (hq : q ∈ requirements rows values defaults) :
    q.isMet (rows ++ missing rows values defaults) = true := by
  rw [Requirement.isMet, Factor.has_append, Bool.or_eq_true]
  by_cases hm : q.isMet rows = true
  · exact Or.inl hm
  · refine Or.inr (Factor.has_iff.2 ⟨q.row, ?_, (matches_of_mem_requirements q hq).1⟩)
    refine List.mem_map.2 ⟨q, List.mem_filter.2 ⟨hq, ?_⟩, rfl⟩
    rw [Bool.eq_false_iff.2 hm]; rfl

end Completion

/-! ## The completed table -/

namespace FactorTable

open Completion

/-- Whether a row stays. -/
def stays (strip : Bool) (f : Factor Float) : Bool := !strip || f.key.dest != .toOtherUses

theorem rows_stripped (t : FactorTable Float) (strip : Bool) :
    (t.stripped strip).rows = t.rows.filter (stays strip) := by
  cases strip with
  | false => exact (List.filter_eq_self.2 fun _ _ => rfl).symm
  | true => rfl

theorem metadata_stripped (t : FactorTable Float) (strip : Bool) :
    (t.stripped strip).metadata = t.metadata := by
  cases strip <;> rfl

section
variable {t : FactorTable Float} {values values' defaults defaults' : PerFamily (Pair Float)}
  {strip : Bool}

/-- A completed table meets every requirement, except for rows that do not stay. -/
theorem isMet_completed {rows : List (Factor Float)} {q : Requirement}
    (hq : q ∈ requirements rows values' defaults') (hs : stays strip q.row = true) :
    q.isMet ((t.filledUp values defaults).stripped strip).rows = true := by
  obtain ⟨q', hq', hshape⟩ : ∃ q' ∈ requirements t.rows values defaults, q'.shape = q.shape := by
    have : q.shape ∈ (requirements t.rows values defaults).map Requirement.shape :=
      shape_requirements ▸ List.mem_map_of_mem hq
    exact List.mem_map.1 this
  obtain ⟨habsent, hkey⟩ : q'.absent = q.absent ∧ q'.row.key = q.row.key := Prod.mk.inj hshape
  obtain ⟨f, hf, hm⟩ := Factor.has_iff.1 (isMet_append_missing hq')
  rw [Requirement.isMet, rows_stripped]
  refine Factor.has_iff.2 ⟨f, List.mem_filter.2 ⟨hf, ?_⟩, habsent ▸ hm⟩
  -- the row that is found has the destination of the row that would be added
  have hd : f.key.dest = q.row.key.dest :=
    dest_of_matches hm ((matches_of_mem_requirements q' hq').2.trans (congrArg _ (by rw [hkey])))
  rwa [stays, hd]

/-- All that a completed table lacks are rows that do not stay. -/
theorem not_stays_of_mem_missing {f : Factor Float}
    (hf : f ∈ missing ((t.filledUp values defaults).stripped strip).rows values' defaults) :
    stays strip f = false := by
  obtain ⟨q, hq, hm, rfl⟩ := mem_missing.1 hf
  refine Bool.eq_false_iff.2 fun hs => ?_
  exact Bool.false_ne_true (hm.symm.trans (isMet_completed hq hs))

/-- **Completing the rows again adds nothing that stays.** -/
theorem filledUp_completed :
    ((((t.filledUp values defaults).stripped strip).filledUp values' defaults).stripped strip) =
      (t.filledUp values defaults).stripped strip := by
  obtain ⟨u, hu⟩ : ∃ u, u = (t.filledUp values defaults).stripped strip := ⟨_, rfl⟩
  have hrows : ((u.filledUp values' defaults).stripped strip).rows = u.rows := by
    have hold : u.rows.filter (stays strip) = u.rows := by
      rw [hu, rows_stripped, List.filter_filter]
      simp
    have hnew : (missing u.rows values' defaults).filter (stays strip) = [] := by
      refine List.filter_eq_nil_iff.2 fun f hf => ?_
      rw [hu] at hf
      rw [not_stays_of_mem_missing hf]
      exact Bool.false_ne_true
    rw [rows_stripped, filledUp, List.filter_append, hold, hnew, List.append_nil]
  have hmeta : ((u.filledUp values' defaults).stripped strip).metadata = u.metadata :=
    metadata_stripped _ _
  rw [← hu]
  obtain ⟨m, rows⟩ := u
  generalize (filledUp _ _ _).stripped strip = v at hrows hmeta
  obtain ⟨m', rows'⟩ := v
  exact congrArg₂ Table.mk hmeta hrows

/-! ## Its keys -/

theorem mem_keys_completed {k : Factor.Key} :
    k ∈ ((t.filledUp values defaults).stripped strip).keys ↔
      (k ∈ t.keys ∨ ∃ q ∈ requirements t.rows values defaults,
        q.isMet t.rows = false ∧ q.row.key = k) ∧ (strip = true → k.dest ≠ .toOtherUses) := by
  have hstays (f : Factor Float) :
      stays strip f = true ↔ (strip = true → f.key.dest ≠ .toOtherUses) := by
    cases strip <;> simp [stays]
  rw [keys, rows_stripped, filledUp]
  constructor
  · intro h
    obtain ⟨f, hf, rfl⟩ := List.mem_map.1 h
    obtain ⟨hf, hs⟩ := List.mem_filter.1 hf
    refine ⟨?_, (hstays f).1 hs⟩
    rcases List.mem_append.1 hf with hf | hf
    · exact Or.inl (List.mem_map_of_mem hf)
    · obtain ⟨q, hq, hm, rfl⟩ := mem_missing.1 hf
      exact Or.inr ⟨q, hq, hm, rfl⟩
  · rintro ⟨h | ⟨q, hq, hm, rfl⟩, hs⟩
    · obtain ⟨f, hf, rfl⟩ := List.mem_map.1 h
      exact List.mem_map_of_mem
        (List.mem_filter.2 ⟨List.mem_append_left _ hf, (hstays f).2 hs⟩)
    · refine List.mem_map_of_mem
        (List.mem_filter.2 ⟨List.mem_append_right _ ?_, (hstays q.row).2 hs⟩)
      exact mem_missing.2 ⟨q, hq, hm, rfl⟩

/-! ## Whether it can be completed again -/

theorem onsiteSupply_b_mem_completed :
    onsiteSupply .b ∈ ((t.filledUp values defaults).stripped strip).keys ↔
      onsiteSupply .b ∈ t.keys := by
  have hne : ∀ q ∈ requirements t.rows values defaults, q.row.key ≠ onsiteSupply .b :=
    of_decide_eq_true rfl
  rw [mem_keys_completed]
  constructor
  · rintro ⟨h | ⟨q, hq, -, hk⟩, -⟩
    · exact h
    · exact absurd hk (hne q hq)
  · exact fun h => ⟨Or.inl h, fun _ => nofun⟩

theorem onsiteSupply_a_mem_completed :
    onsiteSupply .a ∈ ((t.filledUp values defaults).stripped strip).keys ↔
      onsiteSupply .a ∈ t.keys ∨ onsiteSupply .b ∉ t.keys := by
  have hrow : ∀ q ∈ requirements t.rows values defaults, q.row.key = onsiteSupply .a →
      q.absent = ⟨some .electricity, some .onsite, some .supply, none⟩ := of_decide_eq_true rfl
  rw [mem_keys_completed]
  constructor
  · rintro ⟨h | ⟨q, hq, hm, hk⟩, -⟩
    · exact Or.inl h
    · refine Or.inr fun hb => ?_
      rw [Requirement.isMet, hrow q hq hk, has_onsite.2 (Or.inr hb)] at hm
      exact Bool.noConfusion hm
  · intro h
    refine ⟨?_, fun _ => by decide⟩
    by_cases ha : onsiteSupply .a ∈ t.keys
    · exact Or.inl ha
    · refine Or.inr ⟨⟨⟨some .electricity, some .onsite, some .supply, none⟩, electricityOnsite⟩,
        by simp [requirements, firstRequirements], Bool.eq_false_iff.2 fun hm => ?_, rfl⟩
      rcases has_onsite.1 hm with hs | hs
      · exact ha hs
      · exact h.resolve_left ha hs

theorem unsupplied_completed (h : verdict t.keys = none) :
    unsupplied ((t.filledUp values defaults).stripped strip).keys = [] := by
  obtain ⟨hu, ⟨e, he, hec⟩, -⟩ := verdict_eq_none_iff.1 h
  have hcarrier : ∀ q ∈ requirements t.rows values defaults, q.row.key.carrier = .ambient ∨
      q.row.key.carrier = .electricity ∨ q.row.key = gridSupply q.row.key.carrier :=
    of_decide_eq_true rfl
  refine List.eq_nil_iff_forall_not_mem.2 fun c hc => ?_
  obtain ⟨⟨k, hk, rfl⟩, hne, hn⟩ := mem_unsupplied.1 hc
  refine hn (mem_keys_completed.2 ⟨?_, fun _ => nofun⟩)
  rcases (mem_keys_completed.1 hk).1 with hk | ⟨q, hq, hm, rfl⟩
  · exact Or.inl (gridSupply_mem hu hk hne)
  · rcases hcarrier q hq with h | h | h
    · exact absurd h hne
    · rw [h, ← hec]
      exact Or.inl (gridSupply_mem hu he (by rw [hec]; nofun))
    · exact Or.inr ⟨q, hq, hm, h⟩

/-- **Whether a completed table can be completed again.**  It cannot if only step B of the supply
    of electricity generated on site was there and the exports for other uses are removed:
    those of step A cannot be derived again. -/
theorem verdict_completed (h : verdict t.keys = none) :
    verdict ((t.filledUp values defaults).stripped strip).keys =
      if strip = true ∧ onsiteSupply .b ∈ t.keys ∧ onsiteSupply .a ∉ t.keys then
        some (.missingSource (onsiteExport .toOtherUses) (onsiteSupply .a))
      else none := by
  obtain ⟨hu, ⟨e, he, hec⟩, hexports⟩ := verdict_eq_none_iff.1 h
  have hgrid : gridSupply .electricity ∈ ((t.filledUp values defaults).stripped strip).keys :=
    mem_keys_completed.2
      ⟨Or.inl (hec ▸ gridSupply_mem hu he (by rw [hec]; decide)), fun _ => by decide⟩
  have hsome : ∃ k ∈ ((t.filledUp values defaults).stripped strip).keys, k.carrier = .electricity :=
    ⟨_, hgrid, rfl⟩
  by_cases hs : onsiteSupply .b ∈ t.keys ∧ onsiteSupply .a ∉ t.keys
  · have hs' : onsiteSupply .b ∈ ((t.filledUp values defaults).stripped strip).keys ∧
        onsiteSupply .a ∉ ((t.filledUp values defaults).stripped strip).keys := by
      rw [onsiteSupply_b_mem_completed, onsiteSupply_a_mem_completed]
      exact ⟨hs.1, fun ha => ha.elim hs.2 fun hb => hb hs.1⟩
    obtain ⟨hg, ho⟩ := hexports hs
    have hg' : onsiteExport .toGrid ∈ ((t.filledUp values defaults).stripped strip).keys :=
      mem_keys_completed.2 ⟨Or.inl hg, fun _ => by decide⟩
    cases strip with
    | false =>
      rw [if_neg (by simp), verdict_eq_none_iff]
      exact ⟨unsupplied_completed h, hsome, fun _ =>
        ⟨hg', mem_keys_completed.2 ⟨Or.inl ho, fun hf => absurd hf (by decide)⟩⟩⟩
    | true =>
      have ho' : onsiteExport .toOtherUses ∉ ((t.filledUp values defaults).stripped true).keys :=
        fun hm => (mem_keys_completed.1 hm).2 rfl rfl
      have hmissing := missingExport?_eq_some_iff.2 (Or.inr ⟨hg', ho', rfl⟩)
      rw [if_pos ⟨rfl, hs⟩, verdict, if_neg (not_not.2 (unsupplied_completed h)), if_neg,
        if_pos hs', hmissing]
      · rfl
      · obtain ⟨k, hk, hc⟩ := hsome
        exact fun hall => hall k hk hc
  · rw [if_neg fun h => hs h.2, verdict_eq_none_iff, onsiteSupply_b_mem_completed,
      onsiteSupply_a_mem_completed]
    refine ⟨unsupplied_completed h, hsome, fun hm => ?_⟩
    exact absurd ⟨hm.1, fun ha => hm.2 (Or.inl ha)⟩ hs

end

/-! ## Completing again -/

/-- Electricity with step B of its supply from the site, but not step A. -/
def secondStepOnly : FactorTable Float :=
  ⟨[], [⟨gridSupply .electricity, ⟨1, 2⟩, ""⟩, ⟨onsiteSupply .b, ⟨1, 0⟩, ""⟩,
    ⟨onsiteExport .toGrid, ⟨1, 0⟩, ""⟩, ⟨onsiteExport .toOtherUses, ⟨1, 0⟩, ""⟩]⟩

theorem verdict_secondStepOnly : verdict secondStepOnly.keys = none := by decide

theorem complete_eq_ok_iff {t u : FactorTable Float} {o : Overrides}
    {defaults : PerFamily (Pair Float)} {strip : Bool} :
    t.complete o defaults strip = .ok u ↔
      verdict t.keys = none ∧
        u = (((t.recordValues (t.userValues o defaults)).filledUp (t.userValues o defaults)
          defaults).stripped strip) :=
  fix_eq_ok_iff

theorem exists_complete_eq_ok {t : FactorTable Float} (h : verdict t.keys = none) (o : Overrides)
    (defaults : PerFamily (Pair Float)) (strip : Bool) : ∃ u, t.complete o defaults strip = .ok u :=
  ⟨_, complete_eq_ok_iff.2 ⟨h, rfl⟩⟩

/-- A completed table holds the values that it has been completed with. -/
theorem records_of_complete {t u : FactorTable Float} {o : Overrides}
    {defaults : PerFamily (Pair Float)} {strip : Bool} (h : t.complete o defaults strip = .ok u) :
    u.Records (t.userValues o defaults) := by
  obtain ⟨-, rfl⟩ := complete_eq_ok_iff.1 h
  intro i
  rw [metadata_stripped]
  exact records_recordValues t (t.userValues o defaults) i

/-- Only the keys of the rows tell whether a requirement is met. -/
theorem isMet_of_keys {t u : FactorTable Float} (h : t.keys = u.keys) (q : Requirement) :
    q.isMet t.rows = q.isMet u.rows := by
  have hhas (t : FactorTable Float) : q.isMet t.rows = t.keys.any q.absent.matches := by
    rw [Requirement.isMet, Factor.has, keys, List.any_map]; rfl
  rw [hhas, hhas, h]

/-- A table with the metadata and the keys of a completed one is complete. -/
theorem complete_eq_self {t u t' : FactorTable Float} {o : Overrides}
    {defaults : PerFamily (Pair Float)} (h : t.complete o defaults false = .ok u)
    (hm : t'.metadata = u.metadata) (hk : t'.keys = u.keys) :
    t'.complete o defaults false = .ok t' := by
  have hrecords : t'.Records (t.userValues o defaults) := by
    intro i
    rw [hm]
    exact records_of_complete h i
  obtain ⟨hv, rfl⟩ := complete_eq_ok_iff.1 h
  have hverdict : verdict t'.keys = none := by
    rw [hk]
    exact (verdict_completed (t := t.recordValues (t.userValues o defaults)) hv).trans
      (if_neg (by simp))
  have hmissing : missing t'.rows (t'.userValues o defaults) defaults = [] := by
    refine List.map_eq_nil_iff.2 (List.filter_eq_nil_iff.2 fun q hq => ?_)
    rw [isMet_of_keys hk, isMet_completed hq rfl]
    exact Bool.false_ne_true
  rw [complete, recordValues_again hrecords, fix_of_no_verdict hverdict, stripped, filledUp,
    hmissing, List.append_nil]
  rfl

/-- **Completing a completed table again changes nothing**, unless rows for other uses are
    removed and only step B of the supply of electricity generated on site was there: then it
    fails. -/
theorem complete_again {t u : FactorTable Float} {o : Overrides}
    {defaults : PerFamily (Pair Float)} {strip : Bool} (h : t.complete o defaults strip = .ok u) :
    u.complete o defaults strip =
      if strip = true ∧ onsiteSupply .b ∈ t.keys ∧ onsiteSupply .a ∉ t.keys then
        .error (.missingSource (onsiteExport .toOtherUses) (onsiteSupply .a))
      else .ok u := by
  have hrecorded := recordValues_again (records_of_complete h)
  obtain ⟨hv, hu⟩ := complete_eq_ok_iff.1 h
  have hverdict : verdict u.keys =
      if strip = true ∧ onsiteSupply .b ∈ t.keys ∧ onsiteSupply .a ∉ t.keys then
        some (.missingSource (onsiteExport .toOtherUses) (onsiteSupply .a))
      else none := by
    rw [hu]; exact verdict_completed (t := t.recordValues (t.userValues o defaults)) hv
  have hfilled : ((u.filledUp (u.userValues o defaults) defaults).stripped strip) = u := by
    rw [hu]; exact filledUp_completed
  rw [complete, hrecorded]
  split_ifs at hverdict ⊢ with hs
  · exact fix_of_verdict hverdict
  · rw [fix_of_no_verdict hverdict, hfilled]

theorem complete_again_secondStepOnly :
    ∃ u, secondStepOnly.complete .none (.of fun _ => ⟨0, 1⟩) true = .ok u ∧
      u.complete .none (.of fun _ => ⟨0, 1⟩) true =
        .error (.missingSource (onsiteExport .toOtherUses) (onsiteSupply .a)) := by
  obtain ⟨u, hu⟩ := exists_complete_eq_ok verdict_secondStepOnly .none (.of fun _ => ⟨0, 1⟩) true
  exact ⟨u, hu, (complete_again hu).trans (if_pos (by decide))⟩

/-- Completion is not idempotent. -/
theorem not_complete_idempotent :
    ¬ ∀ (t u : FactorTable Float) (o : Overrides) (defaults : PerFamily (Pair Float)) (strip : Bool),
      t.complete o defaults strip = .ok u → u.complete o defaults strip = .ok u := by
  intro h
  obtain ⟨u, hu⟩ := exists_complete_eq_ok verdict_secondStepOnly .none (.of fun _ => ⟨0, 1⟩) true
  have hagain := (complete_eq_ok_iff.1 (h _ _ _ _ _ hu)).1
  rw [(complete_eq_ok_iff.1 hu).2, verdict_completed (by exact verdict_secondStepOnly),
    if_pos] at hagain
  · cases hagain
  · exact ⟨rfl, by decide⟩

end FactorTable

end PrimaryEnergy
