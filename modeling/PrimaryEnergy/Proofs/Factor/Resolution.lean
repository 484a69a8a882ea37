/-
  The values of the families: where they come from, and where they are recorded.

  A value is the one that is given, else the pair in the first metadata entry of its family, else
  that of the first row of its family, else the one of the regulation.  A first entry that is no
  pair hides all later ones.

  * `IsFirst` is the first element of a kind in a list, `pair?_eq_some_iff` and
    `find?_eq_some_iff` look it up;
  * `IsResolved` are the four places, and `resolve_eq_iff`: the first one that has a value counts;
  * `map_key_recordValues`: the keys that recording appends;
  * `resolved_and_recorded`: which values a table has, and what recording them changes.
-/
import PrimaryEnergy.Proofs.Completion.Settled

namespace PrimaryEnergy

/-! ## First elements -/

/-- The first element of a list with a property. -/
def IsFirst {α : Type} (P : α → Prop) (l : List α) (a : α) : Prop :=
  ∃ before after, l = before ++ a :: after ∧ P a ∧ ∀ b ∈ before, ¬ P b

theorem find?_eq_some_iff_isFirst {α : Type} {P : α → Prop} {test : α → Bool}
    (h : ∀ a, test a = true ↔ P a) {l : List α} {a : α} :
    l.find? test = some a ↔ IsFirst P l a := by
  simp only [List.find?_eq_some_iff_append, Bool.not_eq_eq_eq_not, Bool.not_true,
    Bool.eq_false_iff, ne_eq, h, IsFirst]
  constructor
  · rintro ⟨ha, before, after, hl, hb⟩
    exact ⟨before, after, hl, ha, hb⟩
  · rintro ⟨before, after, hl, ha, hb⟩
    exact ⟨ha, before, after, hl, hb⟩

namespace Metadata

/-- The first entry with a key. -/
def IsFirstEntry (m : Metadata) (k : String) (e : MetaEntry) : Prop :=
  IsFirst (fun e => e.key = k) m e

theorem get?_eq_find? (m : Metadata) (k : String) :
    m.get? k = (m.find? fun e => e.key = k).map (·.value) := by
  induction m with
  | nil => rfl
  | cons e m ih =>
    by_cases h : e.key = k
    · simp [get?, h]
    · simp [get?, h, ih]

theorem get?_eq_some_iff {m : Metadata} {k v : String} :
    m.get? k = some v ↔ ∃ e, m.IsFirstEntry k e ∧ e.value = v := by
  rw [get?_eq_find?, Option.map_eq_some_iff]
  exact exists_congr fun e =>
    and_congr_left' (find?_eq_some_iff_isFirst fun _ => decide_eq_true_iff)

/-- Only the first entry with a key is read. -/
theorem pair?_eq_some_iff {m : Metadata} {k : String} {p : Pair Float} :
    m.pair? k = some p ↔ ∃ e, m.IsFirstEntry k e ∧ Pair.IsText e.value p := by
  have hread (v : String) : (Pair.ofText v).toOption = some p ↔ Pair.IsText v p := by
    rw [← Pair.ofText_eq_ok_iff]
    cases Pair.ofText v <;> simp [Except.toOption]
  simp only [pair?, Option.bind_eq_some_iff, get?_eq_some_iff, hread]
  constructor
  · rintro ⟨v, ⟨e, he, rfl⟩, hv⟩
    exact ⟨e, he, hv⟩
  · rintro ⟨e, he, hv⟩
    exact ⟨_, ⟨e, he, rfl⟩, hv⟩

end Metadata

/-! ## Resolution -/

namespace Family

/-- The keys of the rows that the value of a family may be taken from. -/
def Suits : Family → Factor.Key → Prop
  | cogenToGrid, k => k.source = .cogeneration ∧ k.dest = .toGrid ∧ k.step = .a
  | cogenToOther, k => k.source = .cogeneration ∧ k.dest = .toOtherUses ∧ k.step = .a
  | district1, k => k.carrier = .district1 ∧ k.dest = .supply ∧ k.step = .a
  | district2, k => k.carrier = .district2 ∧ k.dest = .supply ∧ k.step = .a

theorem matches_iff {i : Family} {k : Factor.Key} : i.pattern.matches k = true ↔ i.Suits k := by
  cases i <;>
    simp [pattern, Suits, Factor.Pattern.matches, Factor.Pattern.part, and_assoc,
      @eq_comm _ Source.cogeneration, @eq_comm _ Dest.toGrid, @eq_comm _ Dest.toOtherUses,
      @eq_comm _ Dest.supply, @eq_comm _ Carrier.district1, @eq_comm _ Carrier.district2,
      @eq_comm _ Step.a]

theorem find?_eq_some_iff {i : Family} {rows : List (Factor Float)} {f : Factor Float} :
    Factor.find? rows i.pattern = some f ↔ IsFirst (fun g => i.Suits g.key) rows f :=
  find?_eq_some_iff_isFirst fun _ => matches_iff

theorem find?_eq_none_iff {i : Family} {rows : List (Factor Float)} :
    Factor.find? rows i.pattern = none ↔ ∀ f ∈ rows, ¬ i.Suits f.key := by
  simp [Factor.find?, ← matches_iff]

/-- The metadata tell a value of a family: its first entry is a pair. -/
def IsTold (i : Family) (t : FactorTable Float) (p : Pair Float) : Prop :=
  ∃ e, t.metadata.IsFirstEntry i.metaKey e ∧ Pair.IsText e.value p

/-- The value of a family and the place where it is found. -/
inductive IsResolved (i : Family) (t : FactorTable Float) (argument : Option (Pair Float))
    (default : Pair Float) : Resolved → Prop
  | argument {p : Pair Float} (h : argument = some p) :
      IsResolved i t argument default ⟨p, .argument⟩
  /-- Nothing is given, and the first entry of the family is a pair. -/
  | metadata {p : Pair Float} (ha : argument = none) (h : i.IsTold t p) :
      IsResolved i t argument default ⟨p, .metadata⟩
  /-- There is no first entry, or it is no pair, whatever later entries are. -/
  | table {f : Factor Float} (ha : argument = none) (hm : ∀ p, ¬ i.IsTold t p)
      (h : IsFirst (fun g => i.Suits g.key) t.rows f) :
      IsResolved i t argument default ⟨f.value, .table⟩
  | regulation (ha : argument = none) (hm : ∀ p, ¬ i.IsTold t p)
      (hr : ∀ f ∈ t.rows, ¬ i.Suits f.key) : IsResolved i t argument default ⟨default, .regulation⟩

variable {i : Family} {t : FactorTable Float} {argument : Option (Pair Float)}
  {default : Pair Float}

theorem pair?_eq_none_iff : t.metadata.pair? i.metaKey = none ↔ ∀ p, ¬ i.IsTold t p := by
  rw [Option.eq_none_iff_forall_ne_some]
  exact forall_congr' fun p => not_congr Metadata.pair?_eq_some_iff

/-- Every family is resolved. -/
theorem isResolved_resolve : i.IsResolved t argument default (i.resolve t argument default) := by
  unfold resolve
  split
  · exact .argument rfl
  · next hm => exact .metadata rfl (Metadata.pair?_eq_some_iff.1 hm)
  · next hm hf => exact .table rfl (pair?_eq_none_iff.1 hm) (find?_eq_some_iff.1 hf)
  · next hm hf => exact .regulation rfl (pair?_eq_none_iff.1 hm) (find?_eq_none_iff.1 hf)

/-- **A family has one value, found at one place.** -/
theorem resolve_eq_iff {r : Resolved} :
    i.resolve t argument default = r ↔ i.IsResolved t argument default r := by
  constructor
  · rintro rfl
    exact isResolved_resolve
  · intro h
    unfold resolve
    cases h with
    | argument ha => rw [ha]
    | metadata ha h => rw [ha, Metadata.pair?_eq_some_iff.2 h]
    | table ha hm h => rw [ha, pair?_eq_none_iff.2 hm, find?_eq_some_iff.2 h]
    | regulation ha hm hr => rw [ha, pair?_eq_none_iff.2 hm, find?_eq_none_iff.2 hr]

end Family

/-! ## Recording -/

namespace FactorTable

theorem nodup_familyKeys : familyKeys.Nodup := by decide

/-- Recording appends the keys that are not there, in the order of the families. -/
theorem map_key_recordValues (t : FactorTable Float) (values : PerFamily (Pair Float)) :
    (t.recordValues values).metadata.map (·.key) =
      t.metadata.map (·.key) ++ familyKeys.filter (· ∉ t.metadata.map (·.key)) := by
  have hnodup := nodup_familyKeys
  unfold recordValues familyKeys at *
  generalize Family.all = families at hnodup ⊢
  induction families generalizing t with
  | nil => simp
  | cons i families ih =>
    obtain ⟨hi, hrest⟩ := List.nodup_cons.1 hnodup
    have hset (v : String) : (t.setMeta i.metaKey v).metadata.map (·.key) =
        t.metadata.map (·.key) ++ if i.metaKey ∈ t.metadata.map (·.key) then [] else [i.metaKey] :=
      Metadata.map_key_set t.metadata i.metaKey v
    rw [List.foldl_cons, ih _ hrest, hset]
    by_cases hk : i.metaKey ∈ t.metadata.map (·.key)
    · rw [if_pos hk, List.append_nil, List.map_cons, List.filter_cons_of_neg (by simpa using hk)]
    · -- the new key is none of those that are still to come
      have hlater : (families.map (·.metaKey)).filter
            (· ∉ t.metadata.map (·.key) ++ [i.metaKey]) =
          (families.map (·.metaKey)).filter (· ∉ t.metadata.map (·.key)) := by
        refine List.filter_congr fun k hk' => ?_
        have hne : k ≠ i.metaKey := by
          rintro rfl
          exact hi hk'
        simp [hne]
      rw [if_neg hk, hlater, List.append_assoc, List.map_cons,
        List.filter_cons_of_pos (by simpa using hk), List.singleton_append]

/-- **Where the values of the families come from, and what recording them changes.**  Each value
    is found at the first of four places that has one.  Recording sets the first entry of each
    family to the text of its value; all other entries stay in their places, and what is
    appended are the keys that were not there. -/
theorem resolved_and_recorded (t : FactorTable Float) (o : Overrides)
    (defaults : PerFamily (Pair Float)) :
    (∀ (i : Family) (p : Pair Float), (t.userValues o defaults).get i = p ↔
      ∃ origin, i.IsResolved t (o.get i) (defaults.get i) ⟨p, origin⟩) ∧
    (∀ (i : Family) (r : Family.Resolved), (t.resolve o defaults).get i = r ↔
      i.IsResolved t (o.get i) (defaults.get i) r) ∧
    ∀ values : PerFamily (Pair Float),
      (t.recordValues values).rows = t.rows ∧
      (∀ i : Family,
        (t.recordValues values).getMeta? i.metaKey = some (values.get i).metaText) ∧
      (∀ before e after, t.metadata = before ++ e :: after →
        (e.key ∈ familyKeys → ∃ a ∈ before, a.key = e.key) →
          (t.recordValues values).metadata[before.length]? = some e) ∧
      (t.recordValues values).metadata.map (·.key) =
        t.metadata.map (·.key) ++ familyKeys.filter (· ∉ t.metadata.map (·.key)) := by
  have hresolve (i : Family) (r : Family.Resolved) : (t.resolve o defaults).get i = r ↔
      i.IsResolved t (o.get i) (defaults.get i) r := by
    rw [resolve, PerFamily.get_of, Family.resolve_eq_iff]
  refine ⟨fun i p => ?_, hresolve, fun values => ⟨rfl, records_recordValues t values,
    fun before e after hm he => ?_, map_key_recordValues t values⟩⟩
  · rw [userValues, PerFamily.get_of]
    constructor
    · rintro rfl
      exact ⟨_, (hresolve i _).1 rfl⟩
    · rintro ⟨origin, h⟩
      rw [(hresolve i _).2 h]
  · exact (changesFirst_recordValues t values).getElem?_eq hm he

/-- A table with a row for cogeneration and, in its metadata, a text that is no pair before one
    that is. -/
def twiceRecorded : FactorTable Float :=
  ⟨[⟨"CTE_COGEN", "2.5"⟩, ⟨"CTE_RED1", "0.1, 1.5"⟩, ⟨"CTE_COGEN", "0, 1"⟩],
    [⟨⟨.biomass, .cogeneration, .toGrid, .a⟩, ⟨1, 2⟩, ""⟩]⟩

/-- The text that is no pair hides the later one, which stays where it is. -/
theorem resolved_and_recorded_twice :
    let values := twiceRecorded.userValues .none (.of fun _ => ⟨0, 2⟩)
    values.get .cogenToGrid = ⟨1, 2⟩ ∧ values.get .district1 = ⟨0.1, 1.5⟩ ∧
    values.get .district2 = ⟨0, 2⟩ ∧
    (twiceRecorded.recordValues values).metadata[2]? = some ⟨"CTE_COGEN", "0, 1"⟩ ∧
    (twiceRecorded.recordValues values).metadata.map (·.key) =
      ["CTE_COGEN", "CTE_RED1", "CTE_COGEN", "CTE_COGENNEPB", "CTE_RED2"] := by
  obtain ⟨hvalues, -, hrecorded⟩ :=
    resolved_and_recorded twiceRecorded .none (.of fun _ => ⟨0, 2⟩)
  obtain ⟨-, -, hothers, hkeys⟩ :=
    hrecorded (twiceRecorded.userValues .none (.of fun _ => ⟨0, 2⟩))
  have hcogen : twiceRecorded.metadata.pair? Family.cogenToGrid.metaKey = none := by
    decide +kernel
  have hdistrict1 : twiceRecorded.metadata.pair? Family.district1.metaKey =
      some ⟨0.1, 1.5⟩ := by
    decide +kernel
  have hdistrict2 : twiceRecorded.metadata.pair? Family.district2.metaKey = none := by
    decide +kernel
  refine ⟨(hvalues .cogenToGrid _).2 ⟨.table, ?_⟩, (hvalues .district1 _).2 ⟨.metadata, ?_⟩,
    (hvalues .district2 _).2 ⟨.regulation, ?_⟩, ?_, hkeys.trans (by decide)⟩
  · exact .table rfl (Family.pair?_eq_none_iff.1 hcogen)
      ⟨[], [], rfl, ⟨rfl, rfl, rfl⟩, fun _ hb => absurd hb List.not_mem_nil⟩
  · exact .metadata rfl (Metadata.pair?_eq_some_iff.1 hdistrict1)
  · exact .regulation rfl (Family.pair?_eq_none_iff.1 hdistrict2)
      (by simp [twiceRecorded, Family.Suits])
  · exact hothers [_, _] _ [] rfl fun _ => ⟨_, List.mem_cons_self, rfl⟩

end FactorTable

end PrimaryEnergy
