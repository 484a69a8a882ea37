/-
  The families of factors that the user may define do not interfere.

  Completion is run twice on one table, with explicit values that differ for one family.

  * `SameButFirst` is how the results compare: two lists that are the same but for the first
    entry with a property;
  * `recordValues_apart` and `missing_apart`: a family shows in the entry under its metadata
    key and in the row with its key, and nowhere else, although rows that are added are looked
    up for others;
  * `complete_apart`: so it is for whole runs, and for their failures.
-/
import PrimaryEnergy.Proofs.Completion.Record

namespace PrimaryEnergy

/-- Two lists are the same but for their first entries with a property, which stand at the same
    place. -/
inductive SameButFirst {β : Type} (P : β → Prop) : List β → List β → Prop
  | here {x x' : β} {l : List β} : P x → P x' → SameButFirst P (x :: l) (x' :: l)
  | there {y : β} {l l' : List β} : ¬ P y → SameButFirst P l l' → SameButFirst P (y :: l) (y :: l')

namespace SameButFirst

variable {β : Type} {P : β → Prop} {l l' : List β}

theorem exists_left (h : SameButFirst P l l') : ∃ x ∈ l, P x := by
  induction h with
  | here hx => exact ⟨_, by simp, hx⟩
  | there _ _ ih =>
    obtain ⟨x, hx, hp⟩ := ih
    exact ⟨x, by simp [hx], hp⟩

theorem append_left {before : List β} (hb : ∀ y ∈ before, ¬ P y) (h : SameButFirst P l l') :
    SameButFirst P (before ++ l) (before ++ l') := by
  induction before with
  | nil => exact h
  | cons y before ih => exact .there (hb y (by simp)) (ih fun y' hy' => hb y' (by simp [hy']))

/-- A filter that cannot tell the two entries apart keeps both or removes both. -/
theorem filter {q : β → Bool} (hq : ∀ x x', P x → P x' → q x = q x') (h : SameButFirst P l l') :
    l.filter q = l'.filter q ∨ SameButFirst P (l.filter q) (l'.filter q) := by
  induction h with
  | @here x x' l hx hx' =>
    have hxx := hq x x' hx hx'
    by_cases hqx : q x = true
    · rw [List.filter_cons_of_pos hqx, List.filter_cons_of_pos (hxx ▸ hqx)]
      exact Or.inr (.here hx hx')
    · rw [List.filter_cons_of_neg hqx, List.filter_cons_of_neg (hxx ▸ hqx)]
      exact Or.inl rfl
  | @there y l l' hy _ ih =>
    by_cases hqy : q y = true
    · rw [List.filter_cons_of_pos hqy, List.filter_cons_of_pos hqy]
      exact ih.imp (congrArg _) (.there hy)
    · rw [List.filter_cons_of_neg hqy, List.filter_cons_of_neg hqy]
      exact ih

theorem map_eq {γ : Type} {f : β → γ} (hf : ∀ x x', P x → P x' → f x = f x')
    (h : SameButFirst P l l') : l.map f = l'.map f := by
  induction h with
  | here hx hx' => rw [List.map_cons, List.map_cons, hf _ _ hx hx']
  | there _ _ ih => rw [List.map_cons, List.map_cons, ih]

end SameButFirst

/-! ## Metadata -/

namespace Metadata

variable {m m' : Metadata} {k : String}

theorem sameButFirst_set (m : Metadata) (k v v' : String) :
    SameButFirst (·.key = k) (m.set k v) (m.set k v') := by
  induction m with
  | nil => exact .here rfl rfl
  | cons e es ih =>
    unfold set
    split
    · exact .here rfl rfl
    · rename_i he; exact .there he ih

/-- Setting the value of another key keeps two lists the same but for the one key. -/
theorem set_sameButFirst (h : SameButFirst (fun e : MetaEntry => e.key = k) m m') {k' : String}
    (hk : k' ≠ k) (v : String) : SameButFirst (·.key = k) (m.set k' v) (m'.set k' v) := by
  induction h with
  | here hx hx' =>
    rw [set, set, if_neg fun he => hk (he.symm.trans hx), if_neg fun he => hk (he.symm.trans hx')]
    exact .here hx hx'
  | there hy h ih =>
    unfold set
    split
    · exact .there hk h
    · exact .there hy ih

end Metadata

/-- The metadata key tells the family. -/
theorem Family.metaKey_ne {i j : Family} (h : j ≠ i) : j.metaKey ≠ i.metaKey := by
  cases i <;> cases j <;> first | exact absurd rfl h | decide

namespace FactorTable

variable {t : FactorTable Float} {i : Family} {values values' : PerFamily (Pair Float)}

/-- Values that differ for one family are recorded with a difference under its key only. -/
theorem recordValues_apart (t : FactorTable Float) (h : ∀ j, j ≠ i → values.get j = values'.get j) :
    SameButFirst (·.key = i.metaKey) (t.recordValues values).metadata
      (t.recordValues values').metadata := by
  have later {m m' : Metadata} {j : Family} (hj : j ≠ i)
      (hm : SameButFirst (fun e : MetaEntry => e.key = i.metaKey) m m') :
      SameButFirst (fun e : MetaEntry => e.key = i.metaKey)
        (m.set j.metaKey (values.get j).metaText) (m'.set j.metaKey (values'.get j).metaText) := by
    rw [← h j hj]
    exact Metadata.set_sameButFirst hm (Family.metaKey_ne hj) _
  simp only [recordValues, Family.all, List.foldl, Table.setMeta]
  -- the families before `i` are recorded alike, the later ones next to a difference
  cases i with
  | cogenToGrid =>
    exact later (by simp) (later (by simp) (later (by simp) (Metadata.sameButFirst_set ..)))
  | cogenToOther =>
    rw [h .cogenToGrid (by simp)]
    exact later (by simp) (later (by simp) (Metadata.sameButFirst_set ..))
  | district1 =>
    rw [h .cogenToGrid (by simp), h .cogenToOther (by simp)]
    exact later (by simp) (Metadata.sameButFirst_set ..)
  | district2 =>
    rw [h .cogenToGrid (by simp), h .cogenToOther (by simp), h .district1 (by simp)]
    exact Metadata.sameButFirst_set ..

end FactorTable

/-! ## Rows -/

namespace Completion

variable {rows : List (Factor Float)} {values values' defaults : PerFamily (Pair Float)}
variable {i : Family}

/-- Two factors have the same key, and are the same if it is not the key of the family. -/
def AgreesBut (i : Family) (f f' : Factor Float) : Prop :=
  f.key = f'.key ∧ (f.key ≠ i.key → f = f')

/-- Two requirements look for the same and add the same, but for the row of the family. -/
def Requirement.AgreesBut (i : Family) (q q' : Requirement) : Prop :=
  q.absent = q'.absent ∧ Completion.AgreesBut i q.row q'.row

theorem Requirement.AgreesBut.refl (q : Requirement) : q.AgreesBut i q := ⟨rfl, rfl, fun _ => rfl⟩

theorem Requirement.AgreesBut.own {f f' : Factor Float} (h : Completion.AgreesBut i f f') :
    Requirement.AgreesBut i (.own f) (.own f') :=
  ⟨congrArg Factor.Key.pattern h.1, h⟩

theorem agreesBut_producedRow (h : ∀ j, j ≠ i → values.get j = values'.get j) {c : Carrier}
    {s : Source} {d : Dest} (hc : s = .cogeneration → (cogeneratedFamily d).key = ⟨c, s, d, .a⟩) :
    AgreesBut i (producedRow rows values defaults c s d)
      (producedRow rows values' defaults c s d) := by
  cases s with
  | cogeneration =>
    refine ⟨rfl, fun hk => ?_⟩
    have hf : cogeneratedFamily d ≠ i := fun hi => hk (hi ▸ (hc rfl).symm)
    simp only [producedRow, h _ hf]
  | grid | onsite => exact ⟨rfl, fun _ => rfl⟩

theorem agreesBut_exportRequirements (h : ∀ j, j ≠ i → values.get j = values'.get j)
    {e : Carrier × Source} (he : e ∈ exported) :
    List.Forall₂ (Requirement.AgreesBut i) (exportRequirements rows values defaults e.1 e.2)
      (exportRequirements rows values' defaults e.1 e.2) := by
  have hkey : ∀ e ∈ exported, ∀ d ∈ [Dest.toGrid, Dest.toOtherUses],
      e.2 = .cogeneration → (cogeneratedFamily d).key = ⟨e.1, e.2, d, .a⟩ := by decide
  exact .cons (.own (agreesBut_producedRow h (hkey e he _ (by simp))))
    (.cons (.own (agreesBut_producedRow h (hkey e he _ (by simp))))
      (.cons (.refl _) (.cons (.refl _) .nil)))

theorem agreesBut_requirements (h : ∀ j, j ≠ i → values.get j = values'.get j) :
    List.Forall₂ (Requirement.AgreesBut i) (requirements rows values defaults)
      (requirements rows values' defaults) := by
  have hfirst : List.Forall₂ (Requirement.AgreesBut i) firstRequirements firstRequirements :=
    List.forall₂_same.2 fun q _ => .refl q
  have hsame : List.Forall₂ (fun e e' => e = e' ∧ e ∈ exported) exported exported :=
    List.forall₂_same.2 fun e he => ⟨rfl, he⟩
  have hdistrict1 : AgreesBut i (district1Supply values.district1)
      (district1Supply values'.district1) :=
    ⟨rfl, fun hk => congrArg district1Supply (h .district1 fun hi => hk (congrArg Family.key hi))⟩
  have hdistrict2 : AgreesBut i (district2Supply values.district2)
      (district2Supply values'.district2) :=
    ⟨rfl, fun hk => congrArg district2Supply (h .district2 fun hi => hk (congrArg Family.key hi))⟩
  refine List.rel_append hfirst (.cons (.refl _) (List.rel_append (List.rel_flatMap hsame ?_)
    (.cons (.own hdistrict1) (.cons (.own hdistrict2) .nil))))
  rintro e _ ⟨rfl, he⟩
  exact agreesBut_exportRequirements h he

theorem agreesBut_missing (h : ∀ j, j ≠ i → values.get j = values'.get j) :
    List.Forall₂ (AgreesBut i) (missing rows values defaults) (missing rows values' defaults) := by
  have hmet : ∀ q q', Requirement.AgreesBut i q q' →
      ((!q.isMet rows) = true ↔ (!q'.isMet rows) = true) :=
    fun q q' hq => by rw [Requirement.isMet, hq.1]; rfl
  exact List.rel_map (fun _ _ hq => hq.2) (List.rel_filter hmet (agreesBut_requirements h))

theorem eq_of_agreesBut {l l' : List (Factor Float)} (h : List.Forall₂ (AgreesBut i) l l')
    (hk : i.key ∉ l.map (·.key)) : l = l' := by
  induction h with
  | nil => rfl
  | cons hf _ ih =>
    rw [List.map_cons, List.mem_cons, not_or] at hk
    rw [hf.2 (Ne.symm hk.1), ih hk.2]

/-- With keys that differ, rows that agree but for a family are the same but for its row. -/
theorem sameButFirst_of_agreesBut {l l' : List (Factor Float)}
    (h : List.Forall₂ (AgreesBut i) l l') (hn : (l.map (·.key)).Nodup) :
    l = l' ∨ SameButFirst (fun f : Factor Float => f.key = i.key) l l' := by
  induction h with
  | nil => exact Or.inl rfl
  | @cons f f' l l' hf h ih =>
    obtain ⟨hfl, hn⟩ := List.nodup_cons.1 hn
    by_cases hk : f.key = i.key
    · rw [← eq_of_agreesBut h (hk ▸ hfl)]
      exact Or.inr (.here hk (hf.1 ▸ hk))
    · rw [← hf.2 hk]
      exact (ih hn).imp (congrArg _) (.there hk)

/-- **Rows are added alike**, but for the row of the family if the table has none. -/
theorem missing_apart (rows : List (Factor Float)) (defaults : PerFamily (Pair Float))
    (h : ∀ j, j ≠ i → values.get j = values'.get j) :
    missing rows values defaults = missing rows values' defaults ∨
      i.key ∉ rows.map (·.key) ∧ SameButFirst (fun f : Factor Float => f.key = i.key)
        (missing rows values defaults) (missing rows values' defaults) := by
  refine (sameButFirst_of_agreesBut (agreesBut_missing h) nodup_keys_missing).imp_right fun hs => ?_
  obtain ⟨f, hf, hk⟩ := hs.exists_left
  exact ⟨hk ▸ key_not_mem_of_mem_missing hf, hs⟩

end Completion

namespace FactorTable

open Completion

variable {i : Family} {o o' : Overrides}

theorem userValues_eq (t : FactorTable Float) (defaults : PerFamily (Pair Float)) {j : Family}
    (h : o.get j = o'.get j) :
    (t.userValues o defaults).get j = (t.userValues o' defaults).get j := by
  simp only [userValues, resolve, PerFamily.get_of, h]

theorem rows_completed (t : FactorTable Float) (values defaults : PerFamily (Pair Float))
    (strip : Bool) :
    (((t.recordValues values).filledUp values defaults).stripped strip).rows =
      (t.rows ++ missing t.rows values defaults).filter (stays strip) :=
  rows_stripped _ strip

theorem completedRows_apart (rows : List (Factor Float)) (defaults : PerFamily (Pair Float))
    (strip : Bool) {values values' : PerFamily (Pair Float)}
    (h : ∀ j, j ≠ i → values.get j = values'.get j) :
    (rows ++ missing rows values defaults).filter (stays strip) =
        (rows ++ missing rows values' defaults).filter (stays strip) ∨
      i.key ∉ rows.map (·.key) ∧ SameButFirst (fun f : Factor Float => f.key = i.key)
        ((rows ++ missing rows values defaults).filter (stays strip))
        ((rows ++ missing rows values' defaults).filter (stays strip)) := by
  rcases missing_apart rows defaults h with hm | ⟨hk, hm⟩
  · rw [hm]; exact Or.inl rfl
  · have hold : ∀ f ∈ rows, f.key ≠ i.key :=
      fun f hf hfk => hk (List.mem_map.2 ⟨f, hf, hfk⟩)
    have hstays : ∀ f f' : Factor Float, f.key = i.key → f'.key = i.key →
        stays strip f = stays strip f' :=
      fun f f' hf hf' => by rw [stays, stays, hf, hf']
    exact ((hm.append_left hold).filter hstays).imp_right (⟨hk, ·⟩)

/-- **The families do not interfere.**  Two runs of completion on one table whose explicit
    values differ for one family at most fail alike, or give tables that are the same but for
    the value under the metadata key of the family and, if the table has no row with the key of
    the family, for the one that is added. -/
theorem complete_apart (t : FactorTable Float) (defaults : PerFamily (Pair Float)) (strip : Bool)
    (h : ∀ j, j ≠ i → o.get j = o'.get j) :
    (∃ e, t.complete o defaults strip = .error e ∧ t.complete o' defaults strip = .error e) ∨
    ∃ u u', t.complete o defaults strip = .ok u ∧ t.complete o' defaults strip = .ok u' ∧
      u.keys = u'.keys ∧
      SameButFirst (fun e : MetaEntry => e.key = i.metaKey) u.metadata u'.metadata ∧
      (u.rows = u'.rows ∨
        i.key ∉ t.keys ∧ SameButFirst (fun f : Factor Float => f.key = i.key) u.rows u'.rows) := by
  have hvalues : ∀ j, j ≠ i → (t.userValues o defaults).get j = (t.userValues o' defaults).get j :=
    fun j hj => userValues_eq t defaults (h j hj)
  cases hv : verdict t.keys with
  | some e => exact Or.inl ⟨e, fix_of_verdict hv, fix_of_verdict hv⟩
  | none =>
    refine Or.inr ⟨_, _, complete_eq_ok_iff.2 ⟨hv, rfl⟩, complete_eq_ok_iff.2 ⟨hv, rfl⟩, ?_⟩
    simp only [keys, rows_completed, metadata_stripped]
    have hrows := completedRows_apart t.rows defaults strip hvalues
    refine ⟨?_, recordValues_apart t hvalues, hrows⟩
    rcases hrows with hrows | ⟨-, hrows⟩
    · rw [hrows]
    · exact hrows.map_eq fun f f' hf hf' => hf.trans hf'.symm

/-- The table has a row for the network, so that a value for it shows in the metadata only. -/
theorem complete_apart_ownDistrict :
    ∃ u u', ownDistrict.complete Overrides.none (.of fun _ => ⟨0, 2⟩) true = .ok u ∧
      ownDistrict.complete otherDistrict (.of fun _ => ⟨0, 2⟩) true = .ok u' ∧
      u.rows = u'.rows ∧
      SameButFirst (fun e : MetaEntry => e.key = "CTE_RED1") u.metadata u'.metadata := by
  have h : ∀ j, j ≠ Family.district1 → Overrides.none.get j = otherDistrict.get j := by
    intro j hj
    cases j <;> first | rfl | exact absurd rfl hj
  rcases complete_apart ownDistrict (.of fun _ => ⟨0, 2⟩) true h with
    ⟨e, he, -⟩ | ⟨u, u', hu, hu', -, hm, hrows⟩
  · obtain ⟨u, hu⟩ :=
      exists_complete_eq_ok verdict_ownDistrict Overrides.none (.of fun _ => ⟨0, 2⟩) true
    cases he.symm.trans hu
  · exact ⟨u, u', hu, hu', hrows.resolve_right fun hk => hk.1 (by decide), hm⟩

end FactorTable

end PrimaryEnergy
