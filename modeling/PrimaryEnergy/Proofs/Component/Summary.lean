/-
  The summary of components.

  The rows are split among the lines: each row counts in one line, that of its group, and the lines
  are in the order of their texts.

  * `rowsOf`: the rows of a group, in their order; `flatMap_rowsOf_perm`: those of all groups are
    all rows;
  * `pairwise_groups` and `groups_congr`: the lines, and what they depend on;
  * `summary_partition`: the lines with their totals.
-/
import Mathlib.Data.String.Basic
import PrimaryEnergy.Component.Summary
import PrimaryEnergy.Proofs.Series.Sum
import PrimaryEnergy.Proofs.Table.Field

namespace PrimaryEnergy

/-! ## Lists that are split by a key -/

/-- Lists are split by a key without loss. -/
theorem flatMap_filter_perm {ι τ : Type} [DecidableEq ι] (f : τ → ι) {keys : List ι}
    (hkeys : keys.Nodup) {l : List τ} (hl : ∀ a ∈ l, f a ∈ keys) :
    (keys.flatMap fun k => l.filter (f · == k)).Perm l := by
  induction keys generalizing l with
  | nil =>
    rw [List.eq_nil_iff_forall_not_mem.2 fun a ha => absurd (hl a ha) List.not_mem_nil]
    exact .refl _
  | cons k keys ih =>
    obtain ⟨hk, hkeys⟩ := List.nodup_cons.1 hkeys
    have hrest : (keys.flatMap fun k' => l.filter (f · == k')) =
        keys.flatMap fun k' => (l.filter fun a => !(f a == k)).filter (f · == k') := by
      refine List.flatMap_congr fun k' hk' => ?_
      rw [List.filter_filter]
      refine List.filter_congr fun a _ => ?_
      have : k' ≠ k := fun h => hk (h ▸ hk')
      by_cases ha : f a = k' <;> simp [ha, this]
    rw [List.flatMap_cons, hrest]
    refine (List.Perm.append_left _ (ih hkeys fun a ha => ?_)).trans (List.filter_append_perm _ _)
    rw [List.mem_filter] at ha
    simpa using (List.mem_cons.1 (hl a ha.1)).resolve_left (by simpa using ha.2)

namespace Component

/-! ## The groups -/

/-- Lists of tokens are ordered like words in a dictionary. -/
theorem tokensOrdered_iff {ss ts : List String} : tokensOrdered ss ts = true ↔ ss ≤ ts := by
  induction ss generalizing ts with
  | nil =>
    refine iff_of_true (by rw [tokensOrdered]) ?_
    cases ts with
    | nil => exact le_rfl
    | cons t ts => exact (List.nil_lt_cons t ts).le
  | cons s ss ih =>
    cases ts with
    | nil => exact iff_of_false (by simp [tokensOrdered]) (List.nil_lt_cons s ss).not_ge
    | cons t ts =>
      rw [tokensOrdered, Bool.or_eq_true, decide_eq_true_iff, Bool.and_eq_true, beq_iff_eq, ih,
        le_iff_lt_or_eq, le_iff_lt_or_eq, List.cons_lt_cons_iff, List.cons.injEq]
      tauto

theorem Group.tokens_injective : Function.Injective Group.tokens := by
  rintro ⟨k, f, s⟩ ⟨k', f', s'⟩ h
  simp only [Group.tokens, List.cons.injEq, and_true] at h
  obtain ⟨hk, ht, hu, hs⟩ := h
  have hf : Flow.of? f'.type f'.subtype = some f :=
    Flow.of?_eq_some_iff.2 ⟨Token.text_injective ht, Token.text_injective hu⟩
  rw [Flow.of?_eq_some_iff.2 ⟨rfl, rfl⟩] at hf
  rw [Token.text_injective hk, Token.text_injective hs, Option.some.inj hf]

variable {α : Type} {rows rows' : List (Component α)} {g : Group}

theorem mem_groups : g ∈ groups rows ↔ ∃ c ∈ rows, c.group = g := by
  rw [groups, List.mem_mergeSort, mem_distinct, List.mem_map]

theorem pairwise_groups (rows : List (Component α)) :
    (groups rows).Pairwise fun g h => g.tokens < h.tokens := by
  have hle : (groups rows).Pairwise fun g h => g.tokens ≤ h.tokens := by
    refine (List.pairwise_mergeSort (fun a b c hab hbc => ?_) (fun a b => ?_) _).imp
      tokensOrdered_iff.1
    · rw [tokensOrdered_iff] at hab hbc ⊢
      exact hab.trans hbc
    · rw [Bool.or_eq_true, tokensOrdered_iff, tokensOrdered_iff]
      exact le_total _ _
  have hnodup : (groups rows).Nodup :=
    (List.mergeSort_perm _ _).nodup_iff.2 (nodup_distinct _)
  refine (hle.and hnodup).imp fun ⟨h, hne⟩ => h.lt_of_ne fun heq => hne ?_
  exact Group.tokens_injective heq

theorem nodup_groups (rows : List (Component α)) : (groups rows).Nodup :=
  (pairwise_groups rows).imp fun h heq => h.ne (congrArg _ heq)

/-! ## Their rows -/

/-- The rows of a group, in their order. -/
def rowsOf (rows : List (Component α)) (g : Group) : List (Component α) :=
  rows.filter (·.group == g)

/-- The rows of the groups are all rows. -/
theorem flatMap_rowsOf_perm (rows : List (Component α)) :
    ((groups rows).flatMap (rowsOf rows)).Perm rows :=
  flatMap_filter_perm group (nodup_groups rows) fun c hc => mem_groups.2 ⟨c, hc, rfl⟩

theorem rowsOf_eq_nil_iff : rowsOf rows g = [] ↔ g ∉ groups rows := by
  simp [rowsOf, mem_groups, List.filter_eq_nil_iff]

/-- The groups are determined by the rows of each group. -/
theorem groups_congr (h : ∀ g, rowsOf rows g = rowsOf rows' g) : groups rows = groups rows' := by
  refine List.Perm.eq_of_pairwise (fun a b _ _ hab hba => absurd hba hab.asymm)
    (pairwise_groups rows) (pairwise_groups rows') ?_
  refine (List.perm_ext_iff_of_nodup (nodup_groups rows) (nodup_groups rows')).2 fun g => ?_
  rw [← not_iff_not, ← rowsOf_eq_nil_iff, ← rowsOf_eq_nil_iff, h]

/-! ## Their totals -/

section
variable [Zero α] [Add α] [Sub α] [BEq α]

theorem mem_summary {x : α} : (g, x) ∈ summary rows ↔
    (∃ c ∈ rows, c.group = g) ∧ x = Series.compensatedSum ((rowsOf rows g).map total) := by
  rw [← mem_groups, summary, List.mem_map]
  constructor
  · rintro ⟨g, hg, ⟨⟩⟩
    exact ⟨hg, rfl⟩
  · rintro ⟨hg, rfl⟩
    exact ⟨g, hg, rfl⟩

theorem map_fst_summary (rows : List (Component α)) :
    (summary rows).map Prod.fst = groups rows := by
  simp [summary, Function.comp_def]

theorem summary_congr (h : ∀ g, rowsOf rows g = rowsOf rows' g) : summary rows = summary rows' := by
  rw [summary, summary, groups_congr h]
  refine List.map_congr_left fun g _ => ?_
  rw [groupTotal, groupTotal, ← rowsOf, ← rowsOf, h]

end

section
variable [AddCommGroup α] [BEq α] [ReflBEq α]

theorem groupTotal_eq_sum (rows : List (Component α)) (g : Group) :
    groupTotal rows g = ((rowsOf rows g).map total).sum :=
  Series.compensatedSum_eq_sum _

/-- All totals together are all values together. -/
theorem sum_map_groupTotal (rows : List (Component α)) :
    ((groups rows).map (groupTotal rows)).sum = (rows.flatMap (·.values)).sum := by
  calc ((groups rows).map (groupTotal rows)).sum
      = ((groups rows).flatMap fun g => (rowsOf rows g).map total).sum := by
        rw [List.flatMap, List.sum_flatten, List.map_map]
        exact congrArg List.sum (List.map_congr_left fun g _ => groupTotal_eq_sum rows g)
    _ = (((groups rows).flatMap (rowsOf rows)).map total).sum := by rw [List.map_flatMap]
    _ = (rows.map total).sum := ((flatMap_rowsOf_perm rows).map total).sum_eq
    _ = (rows.flatMap (·.values)).sum := by
        rw [List.flatMap, List.sum_flatten, List.map_map]
        exact congrArg List.sum (List.map_congr_left fun c _ => Series.leftSum_eq_sum c.values)

end

/-- **The summary splits the rows among its lines.**  It has one line for each group that occurs,
    in the order of their texts; its total is computed from the rows of the group in their order,
    and only the order of these matters.  Over exact numbers the total of a line is the sum of
    those of its rows, and the lines add up to all values. -/
theorem summary_partition :
    (∀ {α : Type} [Zero α] [Add α] [Sub α] [BEq α] (rows : List (Component α)),
      ((summary rows).map Prod.fst).Pairwise (fun g h => g.tokens < h.tokens) ∧
      (∀ g x, (g, x) ∈ summary rows ↔
        (∃ c ∈ rows, c.group = g) ∧ x = Series.compensatedSum ((rowsOf rows g).map total)) ∧
      ((summary rows).flatMap fun l => rowsOf rows l.1).Perm rows ∧
      ∀ rows', (∀ g, rowsOf rows g = rowsOf rows' g) → summary rows = summary rows') ∧
    ∀ {α : Type} [AddCommGroup α] [BEq α] [ReflBEq α] (rows : List (Component α)),
      (∀ g x, (g, x) ∈ summary rows → x = ((rowsOf rows g).map total).sum) ∧
      (∀ c ∈ rows, c.total = c.values.sum) ∧
      ((summary rows).map Prod.snd).sum = (rows.flatMap (·.values)).sum := by
  refine ⟨fun rows => ⟨?_, fun g x => mem_summary, ?_, fun rows' => summary_congr⟩,
    fun rows => ⟨fun g x h => ?_, fun c _ => Series.leftSum_eq_sum c.values, ?_⟩⟩
  · rw [map_fst_summary]
    exact pairwise_groups rows
  · rw [← List.flatMap_map (f := Prod.fst) (g := rowsOf rows), map_fst_summary]
    exact flatMap_rowsOf_perm rows
  · rw [(mem_summary.1 h).2, Series.compensatedSum_eq_sum]
  · have hsnd : (summary rows).map Prod.snd = (groups rows).map (groupTotal rows) := by
      simp [summary, Function.comp_def]
    rw [hsnd, sum_map_groupTotal]

/-- Heating before and after ventilation, and the same with the ventilation last. -/
def interleaved : List (Component ℤ) :=
  [⟨.biomass, .assessedUse, .heating, [1, 2], ""⟩,
    ⟨.electricity, .assessedUse, .ventilation, [4, 8], ""⟩,
    ⟨.biomass, .assessedUse, .heating, [16, 32], "Boiler"⟩]

def grouped : List (Component ℤ) :=
  [⟨.biomass, .assessedUse, .heating, [1, 2], ""⟩,
    ⟨.biomass, .assessedUse, .heating, [16, 32], "Boiler"⟩,
    ⟨.electricity, .assessedUse, .ventilation, [4, 8], ""⟩]

theorem summary_partition_interleaved : summary interleaved = summary grouped ∧
    ((summary interleaved).map Prod.snd).sum = 63 := by
  have hrows (g : Group) : rowsOf interleaved g = rowsOf grouped g := by
    by_cases hg : (⟨.electricity, .assessedUse, .ventilation⟩ : Group) = g
    · subst hg
      decide
    · have hno : ((⟨.electricity, .assessedUse, .ventilation⟩ : Group) == g) = false := by
        simpa using hg
      simp [rowsOf, interleaved, grouped, group, List.filter_cons, hno]
  exact ⟨(summary_partition.1 interleaved).2.2.2 grouped hrows,
    (summary_partition.2 interleaved).2.2.trans (by decide)⟩

end Component

end PrimaryEnergy
