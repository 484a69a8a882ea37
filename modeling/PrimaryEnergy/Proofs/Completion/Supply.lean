/-
  The supply of completed tables.

  Two rules of completion look for any row like the one that they add, and are content with
  a row of another step or of another carrier.

  * `rowKey_mem_iff`: a required row that stays is there afterwards unless such a row has been
    in its place;
  * `gridSupply_mem_iff`: the carriers that are supplied from the grid are those of the table,
    ambient energy and the district networks;
  * `supply_of_complete`: the supply of electricity generated on site or by cogeneration can be
    missing, all other supply is there.
-/
import PrimaryEnergy.Proofs.Completion.Again

namespace PrimaryEnergy

namespace Completion

variable {rows : List (Factor Float)} {values defaults : PerFamily (Pair Float)}

/-- The supply of cogenerated electricity. -/
def cogeneratedKey : Factor.Key := ⟨.electricity, .cogeneration, .supply, .a⟩

/-- The supply that completion has rules for, apart from that of the carriers of a table. -/
def promisedSupply : List Factor.Key :=
  [⟨.ambient, .onsite, .supply, .a⟩, gridSupply .ambient, onsiteSupply .a, cogeneratedKey,
    gridSupply .district1, gridSupply .district2]

/-- The keys of the rows that are required, in the order in which they are added. -/
def requiredKeys : List Factor.Key :=
  promisedSupply.take 4 ++
    exported.flatMap (fun (c, s) => [⟨c, s, .toGrid, .a⟩, ⟨c, s, .toOtherUses, .a⟩,
      ⟨c, s, .toGrid, .b⟩, ⟨c, s, .toOtherUses, .b⟩]) ++
    promisedSupply.drop 4

theorem map_key_requirements (rows : List (Factor Float))
    (values defaults : PerFamily (Pair Float)) :
    (requirements rows values defaults).map (·.row.key) = requiredKeys := rfl

theorem nodup_requiredKeys : requiredKeys.Nodup := by decide

theorem eq_of_key_eq {q q' : Requirement} (hq : q ∈ requirements rows values defaults)
    (hq' : q' ∈ requirements rows values defaults) (h : q.row.key = q'.row.key) : q = q' := by
  have hnodup : ((requirements rows values defaults).map (·.row.key)).Nodup := by
    rw [map_key_requirements]
    exact nodup_requiredKeys
  exact List.inj_on_of_nodup_map hnodup hq hq' h

/-- All but two of the required rows are looked for by their own keys. -/
theorem absent_of_mem_requirements : ∀ q ∈ requirements rows values defaults,
    q.row.key ≠ onsiteSupply .a → q.row.key ≠ cogeneratedKey → q.absent = q.row.key.pattern :=
  of_decide_eq_true rfl

theorem export_mem_requiredKeys {c : Carrier} {s : Source} {d : Dest} (h : (c, s) ∈ exported)
    (hd : d ≠ .supply) (k : Step) : ⟨c, s, d, k⟩ ∈ requiredKeys := by
  refine List.mem_append_left _ (List.mem_append_right _ (List.mem_flatMap.2 ⟨(c, s), h, ?_⟩))
  cases d <;> cases k <;> simp at hd ⊢

theorem has_cogenerated :
    Factor.has rows ⟨none, some .cogeneration, some .supply, none⟩ = true ↔
      ∃ k ∈ rows.map (·.key), k.source = .cogeneration ∧ k.dest = .supply := by
  simp only [Factor.has_iff, List.mem_map, exists_exists_and_eq_and]
  refine exists_congr fun f => and_congr_right fun _ => ?_
  simp [Factor.Pattern.matches, Factor.Pattern.part, @eq_comm _ Source.cogeneration,
    @eq_comm _ Dest.supply]

end Completion

namespace FactorTable

open Completion

variable {t u : FactorTable Float} {o : Overrides} {defaults : PerFamily (Pair Float)}
  {strip : Bool} (h : t.complete o defaults strip = .ok u)
include h

theorem keys_of_complete : verdict t.keys = none ∧
    u.keys = ((t.filledUp (t.userValues o defaults) defaults).stripped strip).keys := by
  obtain ⟨hv, rfl⟩ := complete_eq_ok_iff.1 h
  cases strip <;> exact ⟨hv, rfl⟩

/-- A completed table has its keys and the required ones, without those that are removed. -/
theorem mem_keys_of_complete {k : Factor.Key} (hk : k ∈ u.keys) :
    (k ∈ t.keys ∨ k ∈ requiredKeys) ∧ (strip = true → k.dest ≠ .toOtherUses) := by
  obtain ⟨-, hkeys⟩ := keys_of_complete h
  rw [hkeys] at hk
  obtain ⟨hk | ⟨q, hq, -, rfl⟩, hs⟩ := mem_keys_completed.1 hk
  · exact ⟨Or.inl hk, hs⟩
  · rw [← map_key_requirements t.rows (t.userValues o defaults) defaults]
    exact ⟨Or.inr (List.mem_map_of_mem hq), hs⟩

theorem mem_keys_of_mem {k : Factor.Key} (hk : k ∈ t.keys)
    (hs : strip = true → k.dest ≠ .toOtherUses) : k ∈ u.keys := by
  obtain ⟨-, hkeys⟩ := keys_of_complete h
  rw [hkeys]
  exact mem_keys_completed.2 ⟨Or.inl hk, hs⟩

/-- A required row that stays is there afterwards unless another row has been in its place. -/
theorem rowKey_mem_iff {q : Requirement}
    (hq : q ∈ requirements t.rows (t.userValues o defaults) defaults)
    (hs : strip = true → q.row.key.dest ≠ .toOtherUses) :
    q.row.key ∈ u.keys ↔ q.row.key ∈ t.keys ∨ q.isMet t.rows = false := by
  obtain ⟨-, hkeys⟩ := keys_of_complete h
  rw [hkeys, mem_keys_completed]
  constructor
  · rintro ⟨hk | ⟨q', hq', hm, hk⟩, -⟩
    · exact Or.inl hk
    -- no two required rows have the same key, so the row that was added is this one
    · obtain rfl := eq_of_key_eq hq' hq hk
      exact Or.inr hm
  · rintro (hk | hm)
    · exact ⟨Or.inl hk, hs⟩
    · exact ⟨Or.inr ⟨q, hq, hm, rfl⟩, hs⟩

/-- All but two of the required rows are there afterwards if they stay. -/
theorem requiredKey_mem {k : Factor.Key} (hk : k ∈ requiredKeys)
    (hs : strip = true → k.dest ≠ .toOtherUses) (honsite : k ≠ onsiteSupply .a)
    (hcogenerated : k ≠ cogeneratedKey) : k ∈ u.keys := by
  rw [← map_key_requirements t.rows (t.userValues o defaults) defaults] at hk
  obtain ⟨q, hq, rfl⟩ := List.mem_map.1 hk
  refine (rowKey_mem_iff h hq hs).2 (or_iff_not_imp_left.2 fun hn => ?_)
  rw [Requirement.isMet, absent_of_mem_requirements q hq honsite hcogenerated]
  exact Bool.eq_false_iff.2 fun hm => hn (Factor.has_pattern_iff.1 hm)

/-! ## Exports and supply -/

/-- The rows for an export are there, unless they are for other uses and are removed. -/
theorem export_mem_iff {c : Carrier} {s : Source} {d : Dest} (he : (c, s) ∈ exported)
    (hd : d ≠ .supply) (k : Step) :
    ⟨c, s, d, k⟩ ∈ u.keys ↔ (strip = true → d ≠ .toOtherUses) := by
  constructor
  · exact fun hm => (mem_keys_of_complete h hm).2
  · intro hs
    refine requiredKey_mem h (export_mem_requiredKeys he hd k) hs ?_ ?_
    · exact fun hk => hd (congrArg Factor.Key.dest hk)
    · exact fun hk => hd (congrArg Factor.Key.dest hk)

/-- Completion adds supply from the grid for ambient energy and the district networks only. -/
theorem gridSupply_mem_iff {c : Carrier} :
    gridSupply c ∈ u.keys ↔
      c ∈ Factor.carriers t.rows ∨ c ∈ [.ambient, .district1, .district2] := by
  have hrequired : ∀ k ∈ requiredKeys, k = gridSupply k.carrier ↔
      k ∈ [gridSupply .ambient, gridSupply .district1, gridSupply .district2] := by decide
  have hadded (hc : c ∈ [.ambient, .district1, .district2]) : gridSupply c ∈ u.keys := by
    simp only [List.mem_cons, List.not_mem_nil, or_false] at hc
    rcases hc with rfl | rfl | rfl
    all_goals exact requiredKey_mem h (by decide) (fun _ => by decide) (by decide) (by decide)
  constructor
  · intro hm
    rcases (mem_keys_of_complete h hm).1 with hk | hk
    · exact Or.inl (mem_carriers_iff.2 ⟨_, hk, rfl⟩)
    · have hc := (hrequired _ hk).1 rfl
      simpa [gridSupply] using Or.inr hc
  · rintro (hc | hc)
    · obtain ⟨k, hk, rfl⟩ := mem_carriers_iff.1 hc
      -- ambient energy alone may come without its supply: the fictitious grid is added before
      -- the carriers are checked
      by_cases ha : k.carrier = .ambient
      · exact hadded (by simp [ha])
      · have hu := (verdict_eq_none_iff.1 (keys_of_complete h).1).1
        exact mem_keys_of_mem h (gridSupply_mem hu hk ha) fun _ hd => by cases hd
    · exact hadded hc

theorem gridSupply_mem_of_carrier {c : Carrier} (hc : c ∈ Factor.carriers u.rows) :
    gridSupply c ∈ u.keys := by
  have hrequired : ∀ k ∈ requiredKeys,
      k.carrier = .electricity ∨ k.carrier ∈ [.ambient, .district1, .district2] := by decide
  obtain ⟨k, hk, rfl⟩ := mem_carriers_iff.1 hc
  rw [gridSupply_mem_iff h]
  rcases (mem_keys_of_complete h hk).1 with hk | hk
  · exact Or.inl (mem_carriers_iff.2 ⟨k, hk, rfl⟩)
  -- electricity that completion adds rows for is in the table already, or it would fail
  · rcases hrequired k hk with he | hadded
    · rw [he]
      exact Or.inl (mem_carriers_iff.2 (verdict_eq_none_iff.1 (keys_of_complete h).1).2.1)
    · exact Or.inr hadded

theorem onsiteSupply_mem_iff :
    onsiteSupply .a ∈ u.keys ↔ onsiteSupply .a ∈ t.keys ∨ onsiteSupply .b ∉ t.keys := by
  rw [(keys_of_complete h).2]
  exact onsiteSupply_a_mem_completed

theorem cogeneratedKey_mem_iff :
    cogeneratedKey ∈ u.keys ↔
      cogeneratedKey ∈ t.keys ∨ ∀ k ∈ t.keys, k.source = .cogeneration → k.dest ≠ .supply := by
  have hq : ⟨⟨none, some .cogeneration, some .supply, none⟩, cogeneratedSupply⟩ ∈
      requirements t.rows (t.userValues o defaults) defaults :=
    List.mem_append_right _ List.mem_cons_self
  refine (rowKey_mem_iff h hq fun _ => nofun).trans (or_congr_right ?_)
  rw [← Bool.not_eq_true, Requirement.isMet, has_cogenerated]
  simp [keys]

/-- **The supply of a completed table.**  Every carrier is supplied from the grid, and what
    completion has rules for is there, except in two cases: a row of step B stands in for the
    supply of electricity generated on site, and cogenerated supply of any carrier for that of
    electricity. -/
theorem supply_of_complete :
    (∀ c ∈ Factor.carriers u.rows, gridSupply c ∈ u.keys) ∧
    (∀ k ∈ promisedSupply, k ≠ onsiteSupply .a → k ≠ cogeneratedKey → k ∈ u.keys) ∧
    (onsiteSupply .a ∈ u.keys ↔ onsiteSupply .a ∈ t.keys ∨ onsiteSupply .b ∉ t.keys) ∧
    (cogeneratedKey ∈ u.keys ↔
      cogeneratedKey ∈ t.keys ∨ ∀ k ∈ t.keys, k.source = .cogeneration → k.dest ≠ .supply) := by
  have hsupply : ∀ k ∈ promisedSupply, k ∈ requiredKeys ∧ k.dest = .supply := by decide
  refine ⟨fun c hc => gridSupply_mem_of_carrier h hc, ?_, onsiteSupply_mem_iff h,
    cogeneratedKey_mem_iff h⟩
  intro k hk honsite hcogenerated
  obtain ⟨hrequired, hd⟩ := hsupply k hk
  exact requiredKey_mem h hrequired (fun _ => by rw [hd]; nofun) honsite hcogenerated

omit h

/-- Electricity and biomass from the grid, and supply that is cogenerated from biomass. -/
def cogeneratedBiomass : FactorTable Float :=
  ⟨[], [⟨gridSupply .electricity, ⟨1, 2⟩, ""⟩, ⟨gridSupply .biomass, ⟨1, 0⟩, ""⟩,
    ⟨⟨.biomass, .cogeneration, .supply, .a⟩, ⟨1, 0⟩, ""⟩]⟩

theorem verdict_cogeneratedBiomass : verdict cogeneratedBiomass.keys = none := by decide

theorem supply_of_complete_cogeneratedBiomass :
    ∃ u, cogeneratedBiomass.complete .none (.of fun _ => ⟨0, 1⟩) false = .ok u ∧
      gridSupply .biomass ∈ u.keys ∧ gridSupply .district1 ∈ u.keys ∧
      onsiteSupply .a ∈ u.keys ∧ cogeneratedKey ∉ u.keys := by
  obtain ⟨u, hu⟩ :=
    exists_complete_eq_ok verdict_cogeneratedBiomass .none (.of fun _ => ⟨0, 1⟩) false
  obtain ⟨-, hpromised, honsite, hcogenerated⟩ := supply_of_complete hu
  refine ⟨u, hu, ?_, hpromised _ (by decide) (by decide) (by decide), honsite.2 (by decide), ?_⟩
  · exact (gridSupply_mem_iff hu).2 (by decide)
  · exact fun hm => absurd (hcogenerated.1 hm) (by decide)

/-- Completion does not see to all of the supply that it has rules for. -/
theorem not_promisedSupply_of_complete :
    ¬ ∀ (t u : FactorTable Float) (o : Overrides) (defaults : PerFamily (Pair Float))
        (strip : Bool), t.complete o defaults strip = .ok u →
      (∀ k ∈ promisedSupply, k ∈ u.keys) ∧
        ∀ c ∈ Factor.carriers u.rows, gridSupply c ∈ u.keys := by
  intro h
  obtain ⟨u, hu⟩ :=
    exists_complete_eq_ok verdict_cogeneratedBiomass .none (.of fun _ => ⟨0, 1⟩) false
  have hm : cogeneratedKey ∈ u.keys := (h _ _ _ _ _ hu).1 _ (by decide)
  exact absurd ((cogeneratedKey_mem_iff hu).1 hm) (by decide)

end FactorTable

end PrimaryEnergy
