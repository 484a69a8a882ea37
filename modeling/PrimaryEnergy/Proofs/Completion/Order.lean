/-
  Completion and the order of rows.

  Completion looks rows up by whole keys and by parts of keys, and the first row counts.  By parts
  of a key it only asks whether there is a row; so if no key is repeated, two orders of the same
  rows are looked up alike.

  * `Factor.find?_perm`: the row with a key does not depend on the order;
  * `verdict_perm` and `missing_perm`: two orders fail alike, and lack the same rows in one order;
  * `fix_perm`: so the completed tables have the same rows.
-/
import PrimaryEnergy.Proofs.Completion.Record

namespace PrimaryEnergy

theorem distinct_perm {τ : Type} [DecidableEq τ] {l l' : List τ} (h : l.Perm l') :
    (distinct l).Perm (distinct l') := by
  rw [List.perm_ext_iff_of_nodup (nodup_distinct l) (nodup_distinct l')]
  intro a
  rw [mem_distinct, mem_distinct, h.mem_iff]

namespace Factor

variable {α : Type} {rows rows' : List (Factor α)}

theorem has_perm (h : rows.Perm rows') (p : Pattern) : has rows p = has rows' p := by
  rw [Bool.eq_iff_iff, has_iff, has_iff]
  simp only [h.mem_iff]

/-- The row with a key is found in any order, if no key is repeated. -/
theorem find?_perm (h : rows.Perm rows') (hn : (rows.map (·.key)).Nodup) (k : Key) :
    find? rows k.pattern = find? rows' k.pattern := by
  cases hf : find? rows k.pattern with
  | some f =>
    obtain rfl := key_of_find? hf
    have hf' : f ∈ rows' := h.subset (List.mem_of_find?_eq_some hf)
    exact (find?_eq_some_of_nodup ((h.map _).nodup_iff.1 hn) hf').symm
  | none =>
    have hs : (find? rows' k.pattern).isSome = false := by
      rw [isSome_find?, ← has_perm h, ← isSome_find?, hf]
      rfl
    exact (Option.isNone_iff_eq_none.1 (by simpa using hs)).symm

end Factor

/-- Failures that name the same carriers in any order, or the same row that cannot be derived. -/
inductive CompletionFault.Same : CompletionFault → CompletionFault → Prop
  | missingGrid {cs cs' : List Carrier} : cs.Perm cs' → Same (.missingGrid cs) (.missingGrid cs')
  | missingSource (key required : Factor.Key) :
    Same (.missingSource key required) (.missingSource key required)

namespace Completion

/-! ## Failure -/

section
variable {keys keys' : List Factor.Key} (h : keys.Perm keys')
include h

theorem unsupplied_perm : (unsupplied keys).Perm (unsupplied keys') := by
  unfold unsupplied
  simp only [h.mem_iff]
  exact (distinct_perm (h.map _)).filter _

/-- **Two orders of the same keys fail alike.** -/
theorem verdict_perm : Option.Rel CompletionFault.Same (verdict keys) (verdict keys') := by
  have hu := unsupplied_perm h
  have hnil : unsupplied keys ≠ [] ↔ unsupplied keys' ≠ [] := by
    rw [Ne, Ne, ← List.length_eq_zero_iff, ← List.length_eq_zero_iff, hu.length_eq]
  have hexport : missingExport? keys = missingExport? keys' := by
    simp only [missingExport?, h.mem_iff]
  have hsame (e : Option Dest) (f : Dest → Factor.Key) (k : Factor.Key) :
      Option.Rel CompletionFault.Same (e.map fun d => .missingSource (f d) k)
        (e.map fun d => .missingSource (f d) k) := by
    cases e with
    | none => exact .none
    | some d => exact .some (.missingSource _ _)
  simp only [verdict, hnil, h.mem_iff, hexport]
  split_ifs
  · exact .some (.missingGrid hu)
  · exact .some (.missingSource _ _)
  · exact hsame _ _ _
  · exact .none

end

/-! ## Rows -/

section
variable {rows rows' : List (Factor Float)} (h : rows.Perm rows')
  (hn : (rows.map (·.key)).Nodup) (values defaults : PerFamily (Pair Float))
include h

theorem isMet_perm (q : Requirement) : q.isMet rows = q.isMet rows' := Factor.has_perm h q.absent

include hn

theorem valueOf_perm (k : Factor.Key) : valueOf rows k = valueOf rows' k := by
  rw [valueOf, valueOf, Factor.find?_perm h hn]

theorem exportRequirements_perm (c : Carrier) (s : Source) :
    exportRequirements rows values defaults c s = exportRequirements rows' values defaults c s := by
  cases s <;> simp only [exportRequirements, producedRow, savedRow, valueOf_perm h hn]

/-- **Two orders of the same rows lack the same rows**, in one order. -/
theorem missing_perm : missing rows values defaults = missing rows' values defaults := by
  simp only [missing, owed, requirements, laterRequirements, isMet_perm h,
    exportRequirements_perm h hn values defaults]

end

end Completion

namespace FactorTable

open Completion

/-- **The order of rows makes no difference to completion**, if no key is repeated: two orders of
    the same rows are both completed, to tables with the same rows and the same metadata, or fail
    for the same carriers, or fail for the same row that cannot be derived. -/
theorem fix_perm {t u : FactorTable Float} (hm : t.metadata = u.metadata)
    (hp : t.rows.Perm u.rows) (hn : t.keys.Nodup) (values defaults : PerFamily (Pair Float))
    (strip : Bool) :
    (∃ t' u', t.fix values defaults strip = .ok t' ∧ u.fix values defaults strip = .ok u' ∧
      t'.metadata = u'.metadata ∧ t'.rows.Perm u'.rows) ∨
    (∃ cs cs', t.fix values defaults strip = .error (.missingGrid cs) ∧
      u.fix values defaults strip = .error (.missingGrid cs') ∧ cs.Perm cs') ∨
    ∃ key required, t.fix values defaults strip = .error (.missingSource key required) ∧
      u.fix values defaults strip = .error (.missingSource key required) := by
  have hv : Option.Rel CompletionFault.Same (verdict t.keys) (verdict u.keys) :=
    verdict_perm (hp.map _)
  generalize ht : verdict t.keys = vt at hv
  generalize hu : verdict u.keys = vu at hv
  cases hv with
  | none =>
    refine .inl ⟨_, _, fix_of_no_verdict ht, fix_of_no_verdict hu, ?_, ?_⟩
    · rw [metadata_stripped, metadata_stripped]
      exact hm
    · rw [rows_stripped, rows_stripped, filledUp, filledUp, missing_perm hp hn]
      exact (hp.append_right _).filter _
  | some he =>
    cases he with
    | missingGrid hcs => exact .inr (.inl ⟨_, _, fix_of_verdict ht, fix_of_verdict hu, hcs⟩)
    | missingSource key required =>
      exact .inr (.inr ⟨key, required, fix_of_verdict ht, fix_of_verdict hu⟩)

/-- Gas, and electricity from the grid and from the site. -/
def gasFirst : FactorTable Float :=
  ⟨[⟨Metadata.locationKey, "CANARIAS"⟩], [⟨gridSupply .naturalGas, ⟨0, 1.25⟩, "Gas"⟩,
    ⟨onsiteSupply .a, ⟨0.75, 0.25⟩, ""⟩, ⟨gridSupply .electricity, ⟨0.5, 2⟩, ""⟩]⟩

/-- The same rows in another order. -/
def gasLast : FactorTable Float := ⟨gasFirst.metadata, gasFirst.rows.reverse⟩

theorem fix_perm_gasLast :
    gasFirst.metadata = gasLast.metadata ∧ gasFirst.rows.Perm gasLast.rows ∧
      gasFirst.keys.Nodup ∧
      ∃ t' u', gasFirst.fix (.of fun _ => ⟨0, 1⟩) (.of fun _ => ⟨0, 2⟩) true = .ok t' ∧
        gasLast.fix (.of fun _ => ⟨0, 1⟩) (.of fun _ => ⟨0, 2⟩) true = .ok u' ∧
        t'.metadata = u'.metadata ∧ t'.rows.Perm u'.rows := by
  have hm : gasFirst.metadata = gasLast.metadata := rfl
  have hp : gasFirst.rows.Perm gasLast.rows := (List.reverse_perm _).symm
  have hn : gasFirst.keys.Nodup := by decide
  have hv : verdict gasFirst.keys = none := by decide
  refine ⟨hm, hp, hn, ?_⟩
  rcases fix_perm hm hp hn (.of fun _ => ⟨0, 1⟩) (.of fun _ => ⟨0, 2⟩) true with
    h | ⟨cs, -, h, -⟩ | ⟨key, required, h, -⟩
  · exact h
  · rw [fix_eq_error_iff, hv] at h
    cases h
  · rw [fix_eq_error_iff, hv] at h
    cases h

end FactorTable

end PrimaryEnergy
