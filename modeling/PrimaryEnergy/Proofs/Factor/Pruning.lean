/-
  Pruning: which look-ups it keeps.

  What is kept of a table depends on the keys of its rows only, so rows with one key, which are
  looked up by the first of them, are kept or removed together.

  * `keep` are the rows whose keys pass a test; `find?_keep` and `filter_key_keep`: keys that pass
    find the same rows, in the same order;
  * `IsNeededBy` are the keys that components need, and `IsNeededBy.mono`: only the carriers and
    subtypes that occur in the components count;
  * `pruned_lookups`: pruning keeps the look-ups of these keys, and no row of another.
-/
import Mathlib.Data.List.Basic
import PrimaryEnergy.Factor.Pruning
import PrimaryEnergy.Proofs.Completion.Outcome

namespace PrimaryEnergy

variable {α β γ : Type}

/-! ## Rows whose keys pass a test -/

namespace FactorTable

/-- Keeps the rows whose keys pass a test. -/
def keep (test : Factor.Key → Bool) (t : FactorTable α) : FactorTable α :=
  { t with rows := t.rows.filter fun f => test f.key }

variable {test test' : Factor.Key → Bool} {t : FactorTable α} {k : Factor.Key}

theorem keep_keep (test test' : Factor.Key → Bool) (t : FactorTable α) :
    (t.keep test).keep test' = t.keep fun k => test k && test' k := by
  simp only [keep, List.filter_filter, Bool.and_comm]

theorem keep_comm (test test' : Factor.Key → Bool) (t : FactorTable α) :
    (t.keep test).keep test' = (t.keep test').keep test := by
  simp only [keep_keep, Bool.and_comm]

theorem keys_keep (test : Factor.Key → Bool) (t : FactorTable α) :
    (t.keep test).keys = t.keys.filter test := by
  rw [keys, keys, List.filter_map]
  rfl

theorem mem_keys_keep : k ∈ (t.keep test).keys ↔ k ∈ t.keys ∧ test k = true := by
  rw [keys_keep, List.mem_filter]

/-- All rows with a key that passes are kept. -/
theorem filter_key_keep (h : test k = true) :
    (t.keep test).rows.filter (·.key = k) = t.rows.filter (·.key = k) := by
  rw [keep, List.filter_filter]
  refine List.filter_congr fun f _ => ?_
  by_cases hk : f.key = k
  · simp [hk, h]
  · simp [hk]

/-- Looking up a key finds the first row with it. -/
theorem find?_pattern (rows : List (Factor α)) (k : Factor.Key) :
    Factor.find? rows k.pattern = (rows.filter (·.key = k)).head? := by
  rw [Factor.find?, List.head?_filter]
  congr 1
  funext f
  rw [Bool.eq_iff_iff, Factor.matches_pattern, decide_eq_true_iff, eq_comm]

theorem find?_keep (h : test k = true) :
    Factor.find? (t.keep test).rows k.pattern = Factor.find? t.rows k.pattern := by
  rw [find?_pattern, find?_pattern, filter_key_keep h]

theorem rows_keep_sublist (h : ∀ k, test k = true → test' k = true) (t : FactorTable α) :
    (t.keep test).rows.Sublist (t.keep test').rows :=
  List.monotone_filter_right _ fun f => h f.key

end FactorTable

/-! ## Needed keys -/

/-- The carriers of components, each with the subtype of the flow. -/
def Component.kinds (rows : List (Component β)) : List (Carrier × FlowSubtype) :=
  rows.map fun x => (x.carrier, x.flow.subtype)

theorem Component.exists_of_kinds_subset {rows : List (Component β)} {rows' : List (Component γ)}
    (h : kinds rows ⊆ kinds rows') {x : Component β} (hx : x ∈ rows) :
    ∃ y ∈ rows', y.carrier = x.carrier ∧ y.flow.subtype = x.flow.subtype := by
  obtain ⟨y, hy, hxy⟩ := List.mem_map.1 (h (List.mem_map.2 ⟨x, hx, rfl⟩))
  exact ⟨y, hy, congrArg Prod.fst hxy, congrArg Prod.snd hxy⟩

theorem Flow.subtype_injective : Function.Injective Flow.subtype := by
  intro f g h
  cases f <;> cases g <;> first | rfl | cases h

namespace Factor.Key

/-- Components need the factors with a key. -/
structure IsNeededBy (k : Key) (rows : List (Component β)) : Prop where
  carrier : ∃ x ∈ rows, x.carrier = k.carrier
  cogeneration : k.source = .cogeneration → ∃ x ∈ rows, x.flow.subtype = .cogeneration
  otherUses : k.dest = .toOtherUses → ∃ x ∈ rows, x.flow.subtype = .notAssessed
  onsite : k.carrier = .electricity → k.source = .onsite →
    ∃ x ∈ rows, x.carrier = .electricity ∧ x.flow.subtype = .onsite

variable {k : Key} {rows : List (Component β)} {rows' : List (Component γ)}

theorem isUsedBy_iff : k.isUsedBy rows = true ↔
    (∃ x ∈ rows, x.carrier = k.carrier) ∧
    (k.source = .cogeneration → ∃ x ∈ rows, x.flow = .cogeneratedProduction) ∧
    (k.dest = .toOtherUses → ∃ x ∈ rows, x.flow = .otherUse) ∧
    (k.carrier = .electricity → k.source = .onsite →
      ∃ x ∈ rows, x.carrier = .electricity ∧ x.flow = .onsiteProduction) := by
  simp [isUsedBy, and_assoc, imp_iff_not_or, or_assoc]

theorem isUsedBy_iff_isNeededBy : k.isUsedBy rows = true ↔ k.IsNeededBy rows := by
  have hflow (f g : Flow) : f = g ↔ f.subtype = g.subtype := Flow.subtype_injective.eq_iff.symm
  simp only [isUsedBy_iff, hflow]
  constructor
  · rintro ⟨hcarrier, hcogeneration, hother, honsite⟩
    exact ⟨hcarrier, hcogeneration, hother, honsite⟩
  · rintro ⟨hcarrier, hcogeneration, hother, honsite⟩
    exact ⟨hcarrier, hcogeneration, hother, honsite⟩

instance (k : Key) (rows : List (Component β)) : Decidable (k.IsNeededBy rows) :=
  decidable_of_iff _ isUsedBy_iff_isNeededBy

/-- What components need is needed by all that have their carriers and subtypes. -/
theorem IsNeededBy.mono (h : Component.kinds rows ⊆ Component.kinds rows')
    (hk : k.IsNeededBy rows) : k.IsNeededBy rows' := by
  have hmove (P : Carrier → FlowSubtype → Prop) :
      (∃ x ∈ rows, P x.carrier x.flow.subtype) → ∃ y ∈ rows', P y.carrier y.flow.subtype := by
    rintro ⟨x, hx, hP⟩
    obtain ⟨y, hy, hcarrier, hsubtype⟩ := Component.exists_of_kinds_subset h hx
    exact ⟨y, hy, by rwa [hcarrier, hsubtype]⟩
  exact {
    carrier := hmove (fun c _ => c = k.carrier) hk.carrier
    cogeneration := fun hs => hmove (fun _ s => s = .cogeneration) (hk.cogeneration hs)
    otherUses := fun hd => hmove (fun _ s => s = .notAssessed) (hk.otherUses hd)
    onsite := fun hc hs =>
      hmove (fun c s => c = .electricity ∧ s = .onsite) (hk.onsite hc hs) }

theorem isUsedBy_mono (h : Component.kinds rows ⊆ Component.kinds rows')
    (hk : k.isUsedBy rows = true) : k.isUsedBy rows' = true :=
  isUsedBy_iff_isNeededBy.2 ((isUsedBy_iff_isNeededBy.1 hk).mono h)

end Factor.Key

/-! ## Pruning -/

namespace FactorTable

variable {t : FactorTable α} {rows : List (Component β)} {rows' : List (Component γ)}

theorem prune_eq_keep (t : FactorTable α) (rows : List (Component β)) :
    t.prune rows = t.keep (·.isUsedBy rows) :=
  rfl

theorem mem_keys_prune {k : Factor.Key} :
    k ∈ (t.prune rows).keys ↔ k ∈ t.keys ∧ k.isUsedBy rows = true := by
  rw [prune_eq_keep, mem_keys_keep]

/-- Pruning for more components before changes nothing. -/
theorem prune_prune (h : Component.kinds rows ⊆ Component.kinds rows') (t : FactorTable α) :
    (t.prune rows').prune rows = t.prune rows := by
  rw [prune_eq_keep, prune_eq_keep, prune_eq_keep, keep_keep]
  congr 1
  funext k
  exact Bool.and_eq_right_iff_imp.2 (Factor.Key.isUsedBy_mono h)

theorem prune_congr (h : ∀ kind, kind ∈ Component.kinds rows ↔ kind ∈ Component.kinds rows')
    (t : FactorTable α) : t.prune rows = t.prune rows' := by
  rw [prune_eq_keep, prune_eq_keep]
  congr 1
  funext k
  exact Bool.eq_iff_iff.2 ⟨Factor.Key.isUsedBy_mono fun kind => (h kind).1,
    Factor.Key.isUsedBy_mono fun kind => (h kind).2⟩

/-- **Pruning keeps the look-ups that components need, and nothing else.**  All rows with a
    needed key are kept, so that it finds the same row; no row with another key is.  Pruning
    again changes nothing, more kinds of components keep more rows, and only these kinds count. -/
theorem pruned_lookups (t : FactorTable α) (rows : List (Component β)) :
    (∀ k : Factor.Key,
      (k.IsNeededBy rows →
        Factor.find? (t.prune rows).rows k.pattern = Factor.find? t.rows k.pattern ∧
        (t.prune rows).rows.filter (·.key = k) = t.rows.filter (·.key = k)) ∧
      (¬ k.IsNeededBy rows → k ∉ (t.prune rows).keys)) ∧
    (t.prune rows).metadata = t.metadata ∧
    (t.prune rows).prune rows = t.prune rows ∧
    ∀ rows' : List (Component γ),
      (Component.kinds rows ⊆ Component.kinds rows' →
        (t.prune rows).rows.Sublist (t.prune rows').rows) ∧
      ((∀ kind, kind ∈ Component.kinds rows ↔ kind ∈ Component.kinds rows') →
        t.prune rows = t.prune rows') := by
  refine ⟨fun k => ⟨fun hk => ?_, fun hk hmem => ?_⟩, rfl, prune_prune (List.Subset.refl _) t,
    fun rows' => ⟨fun h => ?_, fun h => prune_congr h t⟩⟩
  · have hused := Factor.Key.isUsedBy_iff_isNeededBy.2 hk
    rw [prune_eq_keep]
    exact ⟨find?_keep hused, filter_key_keep hused⟩
  · exact hk (Factor.Key.isUsedBy_iff_isNeededBy.1 (mem_keys_prune.1 hmem).2)
  · rw [prune_eq_keep, prune_eq_keep]
    exact rows_keep_sublist (fun _ => Factor.Key.isUsedBy_mono h) t

/-- Supply of electricity that is listed twice, its cogeneration and the supply of gas. -/
def twiceSupplied : FactorTable Float :=
  ⟨[], [⟨Completion.gridSupply .electricity, ⟨1, 2⟩, ""⟩,
    ⟨⟨.electricity, .cogeneration, .supply, .a⟩, ⟨0, 0⟩, ""⟩,
    ⟨Completion.gridSupply .naturalGas, ⟨0, 1⟩, ""⟩,
    ⟨Completion.gridSupply .electricity, ⟨0, 3⟩, ""⟩]⟩

/-- Electricity for lighting. -/
def lighting : Component Float := ⟨.electricity, .assessedUse, .lighting, [10], ""⟩

/-- Gas for heating. -/
def gasBoiler : Component Float := ⟨.naturalGas, .assessedUse, .heating, [10], ""⟩

theorem pruned_lookups_lighting :
    Factor.find? (twiceSupplied.prune [lighting]).rows
        (Completion.gridSupply .electricity).pattern =
      some ⟨Completion.gridSupply .electricity, ⟨1, 2⟩, ""⟩ ∧
    ⟨.electricity, .cogeneration, .supply, .a⟩ ∉ (twiceSupplied.prune [lighting]).keys ∧
    (twiceSupplied.prune [lighting]).rows.Sublist
      (twiceSupplied.prune [gasBoiler, lighting]).rows ∧
    twiceSupplied.prune [lighting] = twiceSupplied.prune [lighting, lighting] := by
  obtain ⟨hkeys, -, -, hrows⟩ := pruned_lookups (γ := Float) twiceSupplied [lighting]
  refine ⟨?_, (hkeys _).2 (by decide), (hrows [gasBoiler, lighting]).1 ?_,
    (hrows [lighting, lighting]).2 ?_⟩
  · exact ((hkeys (Completion.gridSupply .electricity)).1 (by decide)).1.trans rfl
  · intro kind hkind
    exact List.mem_cons_of_mem _ hkind
  · intro kind
    simp [Component.kinds]

end FactorTable

end PrimaryEnergy
