/-
  Metadata with repeated keys.

  Reading uses the first value of a key, a record of a run the last one.

  * `forall_set`: a value that is set;
  * `set_set` and `filter_set`: a later value of the same key, and the entries with other keys;
  * `ChangesFirst` and `changesFirst_set`: it takes the place of the first value of its key;
  * `ChangesFirst.getElem?_eq`: all other entries stay where they are;
  * `get?_eq_head?` and `get?_lastValues`: both among the values of a key;
  * `field?_toFields`: the texts that a record names.
-/
import Mathlib.Data.List.Basic
import PrimaryEnergy.Document.Records

namespace PrimaryEnergy.Metadata

/-- What holds of all entries still does when a value is set for which it holds. -/
theorem forall_set {P : MetaEntry → Prop} {m : Metadata} {k v : String}
    (hm : ∀ e ∈ m, P e) (h : P ⟨k, v⟩) : ∀ e ∈ m.set k v, P e := by
  induction m with
  | nil =>
    intro e he
    rw [List.mem_singleton.1 he]
    exact h
  | cons a m ih =>
    intro e he
    rw [set] at he
    split_ifs at he
    · rcases List.mem_cons.1 he with rfl | he
      · exact h
      · exact hm e (List.mem_cons_of_mem _ he)
    · rcases List.mem_cons.1 he with rfl | he
      · exact hm _ List.mem_cons_self
      · exact ih (fun b hb => hm b (List.mem_cons_of_mem _ hb)) e he

/-- The values of a key, in order. -/
def values (m : Metadata) (k : String) : List String :=
  (m.filter fun e => e.key = k).map (·.value)

theorem values_cons_self (m : Metadata) (e : MetaEntry) :
    values (e :: m) e.key = e.value :: values m e.key := by
  simp [values]

theorem values_cons_of_ne (m : Metadata) {e : MetaEntry} {k : String} (h : e.key ≠ k) :
    values (e :: m) k = values m k := by
  simp [values, h]

theorem values_ne_nil_iff {m : Metadata} {k : String} :
    m.values k ≠ [] ↔ ∃ e ∈ m, e.key = k := by
  simp [values]

theorem values_append (m m' : Metadata) (k : String) :
    values (m ++ m') k = values m k ++ values m' k := by
  simp [values]

/-- As many values as there are entries with the key. -/
theorem length_values (m : Metadata) (k : String) :
    (m.values k).length = (m.map (·.key)).count k := by
  rw [values, List.length_map, List.count, List.countP_map, List.countP_eq_length_filter]
  rfl

theorem get?_eq_head? (m : Metadata) (k : String) : m.get? k = (m.values k).head? := by
  induction m with
  | nil => rfl
  | cons e es ih =>
    by_cases h : e.key = k
    · subst h; simp [get?, values_cons_self]
    · rw [get?, if_neg h, ih, values_cons_of_ne es h]

/-- The value of an entry among the values of its key. -/
theorem getElem?_values (before after : Metadata) (e : MetaEntry) :
    (values (before ++ e :: after) e.key)[(values before e.key).length]? = some e.value := by
  rw [values_append, values_cons_self, List.getElem?_append_right (Nat.le_refl _), Nat.sub_self]
  rfl

/-! ## First entries -/

theorem map_key_set (m : Metadata) (k v : String) :
    (m.set k v).map (·.key) =
      m.map (·.key) ++ if k ∈ m.map (·.key) then [] else [k] := by
  induction m with
  | nil => rfl
  | cons e es ih =>
    unfold set
    by_cases h : e.key = k
    · subst h; simp
    · rw [if_neg h, List.map_cons, ih, List.map_cons, List.cons_append]
      simp [List.mem_cons, Ne.symm h]

theorem length_set_le (m : Metadata) (k v : String) : (m.set k v).length ≤ m.length + 1 := by
  have hkeys := congrArg List.length (map_key_set m k v)
  rw [List.length_map, List.length_append, List.length_map] at hkeys
  rw [hkeys]
  split_ifs <;> simp

/-- A value that is set takes the place of the first one. -/
theorem values_set (m : Metadata) (k v : String) :
    (m.set k v).values k = v :: (m.values k).tail := by
  induction m with
  | nil => exact values_cons_self [] ⟨k, v⟩
  | cons e es ih =>
    unfold set
    by_cases h : e.key = k
    · subst h
      rw [if_pos rfl, values_cons_self es e, List.tail_cons]
      exact values_cons_self es ⟨e.key, v⟩
    · rw [if_neg h, values_cons_of_ne _ h, values_cons_of_ne es h, ih]

theorem values_set_of_ne (m : Metadata) {k k' : String} (v : String) (h : k' ≠ k) :
    (m.set k v).values k' = m.values k' := by
  induction m with
  | nil => exact values_cons_of_ne [] (Ne.symm h)
  | cons e es ih =>
    unfold set
    by_cases he : e.key = k
    · have hnew : (⟨k, v⟩ : MetaEntry).key ≠ k' := Ne.symm h
      rw [if_pos he, values_cons_of_ne es hnew, values_cons_of_ne es (he ▸ hnew)]
    · rw [if_neg he]
      by_cases he' : e.key = k'
      · subst he'
        rw [values_cons_self, values_cons_self, ih]
      · rw [values_cons_of_ne _ he', values_cons_of_ne _ he', ih]

/-- Of two values that are set one after the other, the second stays. -/
theorem set_set (m : Metadata) (k v v' : String) : (m.set k v).set k v' = m.set k v' := by
  induction m with
  | nil => exact if_pos rfl
  | cons e es ih =>
    by_cases h : e.key = k
    · simp only [set, if_pos h, if_pos]
    · simp only [set, if_neg h, ih]

/-- Entries with other keys stay, in their order. -/
theorem filter_set {p : MetaEntry → Bool} {k : String}
    (h : ∀ e : MetaEntry, e.key = k → p e = false) (m : Metadata) (v : String) : (m.set k v).filter p = m.filter p := by
  induction m with
  | nil => simp [set, h]
  | cons e es ih =>
    by_cases hk : e.key = k
    · rw [set, if_pos hk, List.filter_cons_of_neg (by simp [h]),
        List.filter_cons_of_neg (by simp [h e hk])]
    · rw [set, if_neg hk, List.filter_cons, List.filter_cons, ih]

/-- The metadata `m'` come from `m` by changes to the first entries with some keys, which may
    be new; all other entries are the same, in their places. -/
structure ChangesFirst (ks : List String) (m m' : Metadata) : Prop where
  /-- Every entry keeps its key, and the keys of new entries are among these. -/
  keys : ∃ new ⊆ ks, m'.map (·.key) = m.map (·.key) ++ new
  /-- Other keys have the same values. -/
  others : ∀ k ∉ ks, m'.values k = m.values k
  /-- Values after the first one are the same. -/
  later : ∀ k ∈ ks, (m'.values k).tail = (m.values k).tail

namespace ChangesFirst

variable {ks : List String} {m m' m'' : Metadata}

theorem refl (ks : List String) (m : Metadata) : ChangesFirst ks m m :=
  ⟨⟨[], by simp⟩, fun _ _ => rfl, fun _ _ => rfl⟩

theorem trans (h : ChangesFirst ks m m') (h' : ChangesFirst ks m' m'') :
    ChangesFirst ks m m'' := by
  obtain ⟨new, hn, hk⟩ := h.keys
  obtain ⟨new', hn', hk'⟩ := h'.keys
  refine ⟨⟨new ++ new', ?_, ?_⟩, fun k hk => ?_, fun k hk => ?_⟩
  · exact List.append_subset.2 ⟨hn, hn'⟩
  · rw [hk', hk, List.append_assoc]
  · rw [h'.others k hk, h.others k hk]
  · rw [h'.later k hk, h.later k hk]

/-- An entry with another key, and one that is not the first with its key, stays in its place. -/
theorem getElem?_eq (h : ChangesFirst ks m m') {before after : Metadata} {e : MetaEntry}
    (hm : m = before ++ e :: after) (he : e.key ∈ ks → ∃ a ∈ before, a.key = e.key) :
    m'[before.length]? = some e := by
  subst hm
  obtain ⟨new, -, hkeys⟩ := h.keys
  rw [List.map_append, List.append_assoc, List.map_cons, List.cons_append] at hkeys
  obtain ⟨before', rest, rfl, hbefore, hrest⟩ := List.map_eq_append_iff.1 hkeys
  obtain ⟨e', after', rfl, hkey, -⟩ := List.map_eq_cons_iff.1 hrest
  have hlength : before'.length = before.length := by simpa using congrArg List.length hbefore
  -- both entries are the values of one key at one position, which is not the first if it may change
  have hcount : (values before' e.key).length = (values before e.key).length := by
    rw [length_values, length_values, hbefore]
  have hold := getElem?_values before after e
  have hnew := getElem?_values before' after' e'
  rw [hkey, hcount] at hnew
  have hsame : (values (before' ++ e' :: after') e.key)[(values before e.key).length]? =
      (values (before ++ e :: after) e.key)[(values before e.key).length]? := by
    by_cases hk : e.key ∈ ks
    · have hpos : values before e.key ≠ [] := values_ne_nil_iff.2 (he hk)
      obtain ⟨n, hn⟩ := Nat.exists_eq_succ_of_ne_zero (List.length_eq_zero_iff.not.2 hpos)
      rw [hn, Nat.succ_eq_add_one, ← List.getElem?_tail, ← List.getElem?_tail, h.later _ hk]
    · rw [h.others _ hk]
  have hvalue : e'.value = e.value := Option.some.inj (hnew.symm.trans (hsame.trans hold))
  have heq : e' = e := by
    cases e
    cases e'
    exact congrArg₂ MetaEntry.mk hkey hvalue
  rw [← hlength, List.getElem?_append_right (Nat.le_refl _), Nat.sub_self, heq]
  rfl

end ChangesFirst

theorem changesFirst_set {ks : List String} {k : String} (hk : k ∈ ks) (m : Metadata)
    (v : String) : ChangesFirst ks m (m.set k v) := by
  refine ⟨⟨_, ?_, map_key_set m k v⟩, fun k' hk' => ?_, fun k' _ => ?_⟩
  · split_ifs <;> simp [hk]
  · refine values_set_of_ne m v ?_
    rintro rfl
    exact hk' hk
  · by_cases h : k' = k
    · rw [h, values_set, List.tail_cons]
    · rw [values_set_of_ne m v h]

/-! ## Last entries -/

/-- One value after the other is set: the last one stays. -/
theorem get?_foldl_set (m d : Metadata) (k : String) :
    get? (m.foldl (fun d e => d.set e.key e.value) d) k =
      (m.values k).getLast?.or (d.get? k) := by
  induction m generalizing d with
  | nil => rfl
  | cons e es ih =>
    rw [List.foldl_cons, ih]
    by_cases h : e.key = k
    · subst h
      rw [get?_set, values_cons_self, List.getLast?_cons]
      cases (values es e.key).getLast? <;> rfl
    · rw [get?_set_of_ne d e.value (Ne.symm h), values_cons_of_ne es h]

theorem get?_lastValues (m : Metadata) (k : String) :
    m.lastValues.get? k = (m.values k).getLast? := by
  rw [lastValues, get?_foldl_set, get?, Option.or_none]

theorem field?_toFields (m : Metadata) (k : String) :
    m.toFields.field? k = (m.get? k).map .text := by
  simp only [toFields, Document.field?]
  induction m with
  | nil => rfl
  | cons e es ih =>
    rw [List.map_cons, List.lookup_cons, get?]
    by_cases h : e.key = k
    · subst h; simp
    · rw [if_neg h, beq_eq_false_iff_ne.2 (Ne.symm h)]
      exact ih

end PrimaryEnergy.Metadata
