/-
  Tables written and read again.

  A text shows every number with fixed places, so what is read from it is not the table but a
  transcript: metadata, words and comments are the same, and every number is the one that its
  text denotes.

  * `FactorTable.factors_survive_text_iff` and `ComponentTable.components_survive_text_iff`:
    the tables of which a transcript is read are those that can be written (`IsWritable`), and
    all tables of factors that are read can be written.
-/
import PrimaryEnergy.Proofs.Component.Text
import PrimaryEnergy.Proofs.Factor.Text

namespace PrimaryEnergy

open Text TableText Decimal

/-! ## Transcripts -/

theorem forall₂_iff_eq_map {α β : Type} {R : α → β → Prop} {f : α → β}
    (h : ∀ x y, R x y ↔ y = f x) {xs : List α} {ys : List β} :
    List.Forall₂ R xs ys ↔ ys = xs.map f := by
  induction xs generalizing ys with
  | nil => cases ys <;> simp
  | cons x xs ih => cases ys <;> simp [h, ih]

/-- The text of `x` with fixed places denotes `y`. -/
def Decimal.Denotes (places : Nat) (x y : Float) : Prop :=
  freeNumber? (fixed places x).toList = some y

theorem Decimal.denotes_iff {places : Nat} (x y : Float) :
    Denotes places x y ↔ y = roundedTo places x := by
  rw [Denotes, toList_fixed, freeNumber?_fixedChars, Option.some_inj, eq_comm]

/-- The factor `g` is what the line of `f` shows. -/
structure Factor.IsTranscript (f g : Factor Float) : Prop where
  key : g.key = f.key
  ren : Denotes 3 f.value.ren g.value.ren
  nren : Denotes 3 f.value.nren g.value.nren
  comment : g.comment = f.comment

/-- The component `d` is what the line of `c` shows. -/
structure Component.IsTranscript (c d : Component Float) : Prop where
  carrier : d.carrier = c.carrier
  flow : d.flow = c.flow
  service : d.service = c.service
  values : List.Forall₂ (Denotes 2) c.values d.values
  comment : d.comment = c.comment

/-- The table `u` has the metadata of `t` and, in order, transcripts of its rows. -/
structure Table.IsTranscript {ρ : Type} (R : ρ → ρ → Prop) (t u : Table ρ) : Prop where
  metadata : u.metadata = t.metadata
  rows : List.Forall₂ R t.rows u.rows

theorem Factor.isTranscript_iff (f g : Factor Float) : f.IsTranscript g ↔ g = f.rounded := by
  constructor
  · rintro ⟨hk, hr, hn, hc⟩
    obtain ⟨k, ⟨r, n⟩, c⟩ := g
    obtain rfl : k = f.key := hk
    obtain rfl : r = roundedTo 3 f.value.ren := (denotes_iff _ _).1 hr
    obtain rfl : n = roundedTo 3 f.value.nren := (denotes_iff _ _).1 hn
    obtain rfl : c = f.comment := hc
    rfl
  · rintro rfl
    exact ⟨rfl, (denotes_iff _ _).2 rfl, (denotes_iff _ _).2 rfl, rfl⟩

theorem Component.isTranscript_iff (c d : Component Float) :
    c.IsTranscript d ↔ d = c.rounded := by
  constructor
  · rintro ⟨hk, hf, hs, hv, hc⟩
    obtain ⟨k, f, s, v, n⟩ := d
    obtain rfl : k = c.carrier := hk
    obtain rfl : f = c.flow := hf
    obtain rfl : s = c.service := hs
    obtain rfl : v = c.values.map (roundedTo 2) := (forall₂_iff_eq_map denotes_iff).1 hv
    obtain rfl : n = c.comment := hc
    rfl
  · rintro rfl
    exact ⟨rfl, rfl, rfl, (forall₂_iff_eq_map denotes_iff).2 rfl, rfl⟩

theorem Table.isTranscript_iff {ρ : Type} {R : ρ → ρ → Prop} {f : ρ → ρ}
    (h : ∀ r s, R r s ↔ s = f r) {t u : Table ρ} :
    t.IsTranscript R u ↔ u = ⟨t.metadata, t.rows.map f⟩ := by
  constructor
  · rintro ⟨hm, hr⟩
    obtain ⟨m, rows⟩ := u
    obtain rfl : m = t.metadata := hm
    obtain rfl : rows = t.rows.map f := (forall₂_iff_eq_map h).1 hr
    rfl
  · rintro rfl
    exact ⟨rfl, (forall₂_iff_eq_map h).2 rfl⟩

/-! ## What can be written is decidable -/

instance (s : List Char) : Decidable (IsTrimmed s) := decidable_of_iff _ isTrimmed_iff.symm

instance (s : String) : Decidable (IsRemark s) :=
  decidable_of_iff (OneLine s.toList ∧ IsTrimmed s.toList)
    ⟨fun h => ⟨h.1, h.2⟩, fun h => ⟨h.oneLine, h.isTrimmed⟩⟩

instance (e : MetaEntry) : Decidable e.IsWritable :=
  decidable_of_iff (e.key.toList ≠ [] ∧ ':' ∉ e.key.toList ∧ IsRemark e.key ∧ IsRemark e.value)
    ⟨fun ⟨h, hc, hk, hv⟩ => ⟨h, hc, hk, hv⟩,
      fun h => ⟨h.key_ne_nil, h.key_colon, h.key_isRemark, h.value_isRemark⟩⟩

instance (t : FactorTable Float) : Decidable t.IsWritable :=
  decidable_of_iff ((∀ e ∈ t.metadata, e.IsWritable) ∧ ∀ f ∈ t.rows, IsRemark f.comment)
    ⟨fun h => ⟨h.1, h.2⟩, fun h => ⟨h.metadata, h.comments⟩⟩

instance (t : ComponentTable Float) : Decidable t.IsWritable :=
  decidable_of_iff ((∀ e ∈ t.metadata, e.IsWritable) ∧ (∀ c ∈ t.rows, IsRemark c.comment) ∧
      (∀ c ∈ t.rows, c.values ≠ []) ∧
      ∀ c ∈ t.rows, ∀ d ∈ t.rows, c.values.length = d.values.length)
    ⟨fun ⟨hm, hc, hv, hl⟩ => ⟨hm, hc, hv, hl⟩,
      fun h => ⟨h.metadata, h.comments, h.values_ne_nil, h.sameLength⟩⟩

/-! ## Factors -/

namespace FactorTable

theorem isWritable_rounded_iff {t : FactorTable Float} : t.rounded.IsWritable ↔ t.IsWritable := by
  constructor
  · rintro ⟨hm, hc⟩
    exact ⟨hm, fun f hf => hc f.rounded (List.mem_map_of_mem hf)⟩
  · rintro ⟨hm, hc⟩
    exact ⟨hm, List.forall_mem_map.2 hc⟩

/-- **The tables of factors that survive their text** are those that can be written; all tables
    that are read are such tables. -/
theorem factors_survive_text_iff (t : FactorTable Float) :
    ((∃ u, read t.text = .ok u ∧ t.IsTranscript Factor.IsTranscript u) ↔ t.IsWritable) ∧
      ∀ s, read s = .ok t → t.IsWritable := by
  refine ⟨⟨?_, ?_⟩, fun s => isWritable_of_read⟩
  · rintro ⟨u, hread, htranscript⟩
    obtain rfl : u = t.rounded := (Table.isTranscript_iff Factor.isTranscript_iff).1 htranscript
    exact isWritable_rounded_iff.1 (isWritable_of_read hread)
  · intro h
    exact ⟨t.rounded, read_text h, (Table.isTranscript_iff Factor.isTranscript_iff).2 rfl⟩

/-- Marks of lines and fields in metadata and comments, and numbers that are none. -/
def marked : FactorTable Float :=
  ⟨[⟨"#META", "a: b # c, d"⟩, ⟨"vector", ""⟩],
    [⟨⟨.electricity, .grid, .supply, .a⟩, ⟨0 / 0, -0.0⟩, "# ELECTRICIDAD, RED"⟩]⟩

theorem factors_survive_text_marked :
    (∃ u, read marked.text = .ok u ∧ marked.IsTranscript Factor.IsTranscript u) ∧
      ∃ s, read s = .ok marked.rounded ∧ marked.rounded.IsWritable := by
  have h : marked.IsWritable := by decide
  have hread : read marked.text = .ok marked.rounded := read_text h
  exact ⟨(factors_survive_text_iff marked).1.2 h,
    marked.text, hread, (factors_survive_text_iff marked.rounded).2 _ hread⟩

/-- A key with a colon is cut short. -/
example : ¬ IsWritable ⟨[⟨"a:b", "c"⟩], []⟩ := by decide

end FactorTable

/-! ## Components -/

namespace ComponentTable

theorem isWritable_rounded_iff {t : ComponentTable Float} :
    t.rounded.IsWritable ↔ t.IsWritable := by
  have hmem : ∀ c ∈ t.rows, c.rounded ∈ t.rounded.rows := fun c => List.mem_map_of_mem
  constructor
  · rintro ⟨hm, hc, hv, hl⟩
    refine ⟨hm, ?_, ?_, ?_⟩
    · intro c hx
      exact hc c.rounded (hmem c hx)
    · intro c hx h
      exact hv c.rounded (hmem c hx) (by rw [Component.rounded, h]; rfl)
    · intro c hx d hy
      simpa [Component.rounded] using hl c.rounded (hmem c hx) d.rounded (hmem d hy)
  · rintro ⟨hm, hc, hv, hl⟩
    have hall {P : Component Float → Prop} (h : ∀ c ∈ t.rows, P c.rounded) :
        ∀ c ∈ t.rounded.rows, P c := List.forall_mem_map.2 h
    refine ⟨hm, hall hc, hall ?_, hall ?_⟩
    · intro c hx h
      exact hv c hx (List.map_eq_nil_iff.1 h)
    · intro c hx
      refine hall ?_
      intro d hy
      simpa [Component.rounded] using hl c hx d hy

/-- **The tables of components that survive their text** are those that can be written. -/
theorem components_survive_text_iff (t : ComponentTable Float) :
    (∃ u, read t.text = .ok u ∧ t.IsTranscript Component.IsTranscript u) ↔ t.IsWritable := by
  constructor
  · rintro ⟨u, hread, htranscript⟩
    obtain rfl : u = t.rounded :=
      (Table.isTranscript_iff Component.isTranscript_iff).1 htranscript
    exact isWritable_rounded_iff.1 (isWritable_of_read hread)
  · intro h
    exact ⟨t.rounded, read_text h, (Table.isTranscript_iff Component.isTranscript_iff).2 rfl⟩

/-- A row without values is written, but not read again. -/
example : ¬ IsWritable ⟨[], [⟨.biomass, .assessedUse, .heating, [], ""⟩]⟩ := by decide

end ComponentTable

end PrimaryEnergy
