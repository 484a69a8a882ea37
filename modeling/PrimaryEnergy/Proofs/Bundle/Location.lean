/-
  Bundles for the factors of a location.

  A bundle may name a location and give values of the families as texts.  What a run computes of
  such a bundle are the completed factors of the location, if all texts can be read.  A factor
  table may be there, too: nothing is taken from it, but a run reads it and fails if it cannot.

  * `AreValues`: what the texts stand for;
  * `RunSettings.Configures`: settings with a location and texts, and what is read of them;
  * `RunSettings.map_factors_prepare`: without pruning, factors are prepared as the regulation
    completes them;
  * `Bundle.IsFor.result_eq_ok_iff`: a run of such a bundle.
-/
import PrimaryEnergy.Proofs.Bundle.Inputs
import PrimaryEnergy.Regulation.Completed

namespace PrimaryEnergy

open Document Checked

/-! ## Values that are given as texts -/

/-- What a text stands for that may be given: no value, or a pair. -/
inductive IsValue : Option String → Option (Pair Float) → Prop where
  | none : IsValue none none
  | some {s : String} {p : Pair Float} (h : Pair.ofText s = .ok p) : IsValue (some s) (some p)

/-- What the texts stand for that are given for the families. -/
def AreValues (texts : PerFamily (Option String)) (o : Overrides) : Prop :=
  ∀ i, IsValue (texts.get i) (o.get i)

variable {texts : PerFamily (Option String)} {o o' : Overrides}

theorem isValue_none_iff {x : Option (Pair Float)} : IsValue none x ↔ x = none := by
  constructor
  · rintro ⟨⟩
    rfl
  · rintro rfl
    exact .none

theorem isValue_some_iff {s : String} {x : Option (Pair Float)} :
    IsValue (some s) x ↔ ∃ p, Pair.ofText s = .ok p ∧ x = some p := by
  constructor
  · rintro (_ | h)
    exact ⟨_, h, rfl⟩
  · rintro ⟨p, h, rfl⟩
    exact .some h

theorem IsValue.unique {s : Option String} {x y : Option (Pair Float)} (hx : IsValue s x)
    (hy : IsValue s y) : x = y := by
  cases hx with
  | none => exact (isValue_none_iff.1 hy).symm
  | some h =>
    obtain ⟨p, h', rfl⟩ := isValue_some_iff.1 hy
    rw [Except.ok.inj (h.symm.trans h')]

theorem PerFamily.ext_get {β : Type} {v w : PerFamily β} (h : ∀ i, v.get i = w.get i) : v = w := by
  obtain ⟨a, b, c, d⟩ := v
  obtain ⟨a', b', c', d'⟩ := w
  obtain rfl : a = a' := h .cogenToGrid
  obtain rfl : b = b' := h .cogenToOther
  obtain rfl : c = c' := h .district1
  obtain rfl : d = d' := h .district2
  rfl

theorem AreValues.unique (h : AreValues texts o) (h' : AreValues texts o') : o = o' :=
  PerFamily.ext_get fun i => (h i).unique (h' i)

theorem areValues_mk_iff {p q r s : Option (Pair Float)} : AreValues texts ⟨p, q, r, s⟩ ↔
    IsValue (texts.get .cogenToGrid) p ∧ IsValue (texts.get .cogenToOther) q ∧
      IsValue (texts.get .district1) r ∧ IsValue (texts.get .district2) s := by
  constructor
  · intro h
    exact ⟨h .cogenToGrid, h .cogenToOther, h .district1, h .district2⟩
  · rintro ⟨hp, hq, hr, hs⟩ i
    cases i
    exacts [hp, hq, hr, hs]

/-! ## Settings -/

namespace RunSettings

/-- A record of settings with a location and values of the families as they are given, without
    pruning; what else it holds can be read. -/
structure Configures (d : Document) (place : String) (texts : PerFamily (Option String))
    (strip nearby : Bool) : Prop where
  object : ∃ fields, d = .object fields
  location : d.field? "location" = some (.text place)
  family (i : Family) : d.field? i.name = (texts.get i).map .text ∨
    texts.get i = none ∧ d.field? i.name = some .null
  strip : optional d "strip_nepb" true asTruth = .valid strip
  nearby : optional d "nearby" false asTruth = .valid nearby
  prune : optional d "prune" false asTruth = .valid false
  runId : ∃ s, required d "run_id" asText = .valid s
  service : ∃ v : Option Service, optional d "service" none (orNull asWord) = .valid v
  exportCredit : ∃ x, optional d "k_exp" 0 asReal = .valid x
  area : ∃ x, optional d "arearef" 1 asPositive = .valid x

variable {d : Document} {place : String} {strip nearby : Bool}

theorem familyOf_eq_valid_iff {s : String} {x : Option (Pair Float)} :
    familyOf (.text s) = .valid x ↔ IsValue (some s) x := by
  cases hp : Pair.ofText s with
  | error e => simp [familyOf, hp, fail, isValue_some_iff]
  | ok p => simp [familyOf, hp, isValue_some_iff, eq_comm]

theorem family_eq_valid_iff {i : Family} {x : Option (Pair Float)}
    (h : d.field? i.name = (texts.get i).map .text ∨
      texts.get i = none ∧ d.field? i.name = some .null) :
    optional d i.name none familyOf = .valid x ↔ IsValue (texts.get i) x := by
  cases ht : texts.get i with
  | none =>
    have hread : optional d i.name none familyOf = .valid none := by
      rcases h with h | ⟨-, h⟩
      · rw [ht] at h
        simp only [Document.optional, h, Option.map_none]
      · simp only [Document.optional, h]
        rfl
    rw [hread, isValue_none_iff, valid.injEq, eq_comm]
  | some s =>
    have hs : d.field? i.name = some (.text s) := by simpa [ht] using h
    simp only [Document.optional, hs, under_eq_valid_iff, familyOf_eq_valid_iff]

namespace Configures

variable {s : RunSettings} (h : Configures d place texts strip nearby)
include h

theorem overridesOf_eq_valid_iff : overridesOf d = .valid o ↔ AreValues texts o := by
  obtain ⟨p, q, r, s⟩ := o
  have hread (i : Family) {x : Option (Pair Float)} := family_eq_valid_iff (x := x) (h.family i)
  simp only [areValues_mk_iff, ← hread]
  simp only [overridesOf, seq_eq_valid_iff, map_eq_valid_iff]
  constructor
  · rintro ⟨_, s, ⟨_, r, ⟨_, q, ⟨p, hp, rfl⟩, hq, rfl⟩, hr, rfl⟩, hs, ⟨⟩⟩
    exact ⟨hp, hq, hr, hs⟩
  · rintro ⟨hp, hq, hr, hs⟩
    exact ⟨_, s, ⟨_, r, ⟨_, q, ⟨p, hp, rfl⟩, hq, rfl⟩, hr, rfl⟩, hs, rfl⟩

theorem read_location : (optional d "location" none (orNull asText)).map (·.map normalLocation) =
    .valid (some (normalLocation place)) := by
  simp only [Document.optional, h.location]
  rfl

/-- Such settings can be read if all values can. -/
theorem exists_ofDocument (ho : AreValues texts o) : ∃ s, ofDocument d = .ok s := by
  obtain ⟨id, hid⟩ := h.runId
  obtain ⟨service, hservice⟩ := h.service
  obtain ⟨credit, hcredit⟩ := h.exportCredit
  obtain ⟨area, harea⟩ := h.area
  have hlocation := h.read_location
  have hoverrides := h.overridesOf_eq_valid_iff.2 ho
  have hstrip := h.strip
  have hnearby := h.nearby
  have hprune := h.prune
  obtain ⟨fields, rfl⟩ := h.object
  simp only [ofDocument]
  rw [hid, hlocation, hoverrides, hstrip, hservice, hnearby, hprune, hcredit, harea]
  exact ⟨_, rfl⟩

/-- What is read of such settings. -/
theorem of_ofDocument (hs : ofDocument d = .ok s) :
    s.location = some (normalLocation place) ∧ AreValues texts s.overrides ∧ s.strip = strip ∧
      s.nearby = nearby ∧ s.prune = false := by
  have hlocation := h.read_location
  have hoverrides := fun o => (h.overridesOf_eq_valid_iff (o := o)).1
  have hstrip := h.strip
  have hnearby := h.nearby
  have hprune := h.prune
  obtain ⟨fields, rfl⟩ := h.object
  simp only [ofDocument, hlocation, hstrip, hnearby, hprune, toExcept_eq_ok_iff, seq_eq_valid_iff,
    map_eq_valid_iff] at hs
  -- the fields, from the last to the first
  obtain ⟨_, _, ⟨_, _, ⟨_, _, ⟨_, _, ⟨_, _, ⟨_, _, ⟨_, o, ⟨_, _, ⟨_, -, rfl⟩, ⟨⟩, rfl⟩, ho, rfl⟩,
    ⟨⟩, rfl⟩, -, rfl⟩, ⟨⟩, rfl⟩, ⟨⟩, rfl⟩, -, rfl⟩, -, rfl⟩ := hs
  exact ⟨rfl, hoverrides o ho, rfl, rfl, rfl⟩

end Configures

/-! ## What is prepared -/

/-- Without pruning, the factors of a location are prepared as they are completed. -/
theorem map_factors_prepare {s : RunSettings} (hl : s.location = some place)
    (hp : s.prune = false) (c : ComponentTable Float) (w : Option (FactorTable Float))
    (r : Regulation) : (s.prepare c w r).map Prepared.factors =
      r.completed place s.overrides s.strip s.nearby := by
  unfold prepare rawFactors Regulation.completed
  simp only [hl]
  cases r.table place with
  | error e => rfl
  | ok raw =>
    simp only [Except.mapError, FactorTable.completeUnder]
    cases raw.complete s.overrides r.defaults s.strip with
    | error e => rfl
    | ok full => simp [Except.map, adapt, hp]

end RunSettings

/-! ## Bundles -/

namespace Bundle

open FileTree

variable {t : Files} {p : Path} {r : Regulation}

/-- A bundle whose settings name a location, whose components can be read, and in which no
    directory is in the place of a result. -/
structure IsFor (t : Files) (p : Path) (place : String) (texts : PerFamily (Option String))
    (strip nearby : Bool) : Prop where
  settings : ∃ c d, t.read (p.child settingsFile) = .ok c ∧ c.document = .ok d ∧
    RunSettings.Configures d place texts strip nearby
  components : ∃ c, readComponents t p = .ok c
  clear : ∀ name ∈ [completedFile, preparedFile, recordFile],
    t.find? (p.child name) ≠ some .directory

namespace IsFor

variable {place : String} {strip nearby : Bool} (h : IsFor t p place texts strip nearby)
include h

theorem isFolder : ∃ q, t.IsFolder p q := by
  obtain ⟨c, d, hread, -⟩ := h.settings
  exact isFolder_of_read_child hread

theorem accepts_results {x : Prepared} : ∀ f ∈ results x r none, t.accepts p f.1 = true := by
  obtain ⟨q, hq⟩ := h.isFolder
  intro f hf
  rw [accepts_iff, hq.held_eq]
  refine h.clear f.1 ?_
  simpa [results] using List.mem_map_of_mem hf

theorem exists_readSettings (ho : AreValues texts o) : ∃ s, readSettings t p = .ok s := by
  obtain ⟨c, d, hread, hd, hc⟩ := h.settings
  obtain ⟨s, hs⟩ := hc.exists_ofDocument ho
  exact ⟨s, by simp only [readSettings, hread, hd, hs, Except.mapError]⟩

theorem of_readSettings {s : RunSettings} (hs : readSettings t p = .ok s) :
    s.location = some (RunSettings.normalLocation place) ∧ AreValues texts s.overrides ∧
      s.strip = strip ∧ s.nearby = nearby ∧ s.prune = false := by
  obtain ⟨c, d, hread, hd, hc⟩ := h.settings
  cases hs' : RunSettings.ofDocument d with
  | error e => simp only [readSettings, hread, hd, hs', Except.mapError, reduceCtorEq] at hs
  | ok s' =>
    simp only [readSettings, hread, hd, hs', Except.mapError, Except.ok.injEq] at hs
    exact hs ▸ hc.of_ofDocument hs'

/-- What can be computed of such a bundle are the completed factors of the location. -/
theorem map_factors_outcome {x : Prepared} {b : Option Balance}
    (hx : outcome t p r none = .ok (x, b)) : (∃ f, readFactors t p = .ok f) ∧
      ∃ o, AreValues texts o ∧
        r.completed (RunSettings.normalLocation place) o strip nearby = .ok x.factors := by
  obtain ⟨l, hl, hx⟩ := prepare_of_outcome hx
  obtain ⟨hs, -, hf⟩ := of_load hl
  obtain ⟨hlocation, ho, rfl, rfl, hprune⟩ := h.of_readSettings hs
  refine ⟨⟨l.factors, hf⟩, l.settings.overrides, ho, ?_⟩
  rw [← RunSettings.map_factors_prepare hlocation hprune l.components l.factors, hx]
  rfl

/-- These can be computed if all values can be read, and the factor table if there is one. -/
theorem exists_outcome {w : FactorTable Float} (hf : ∃ f, readFactors t p = .ok f) (ho : AreValues texts o)
    (hw : r.completed (RunSettings.normalLocation place) o strip nearby = .ok w) :
    ∃ x, outcome t p r none = .ok (x, none) := by
  obtain ⟨s, hs⟩ := h.exists_readSettings ho
  obtain ⟨hlocation, ho', rfl, rfl, hprune⟩ := h.of_readSettings hs
  obtain ⟨c, hc⟩ := h.components
  obtain ⟨f, hf⟩ := hf
  obtain ⟨q, hq⟩ := h.isFolder
  have hload : load t p = .ok ⟨s, c, f⟩ := by
    rw [load, if_pos hq.has, hs, hc, hf]
    rfl
  rw [ho.unique ho', ← RunSettings.map_factors_prepare hlocation hprune c f] at hw
  simp only [outcome, hload, Loaded.outcome_none]
  cases hx : s.prepare c f r with
  | error e => rw [hx] at hw; cases hw
  | ok x => exact ⟨x, rfl⟩

/-- **A run of such a bundle** leads to the completed factors of the location, and succeeds if
    there are any and the factor table can be read, if there is one. -/
theorem result_eq_ok_iff (label : String) {w : FactorTable Float} :
    (∃ x b, (run t p label r none).result = .ok (x, b) ∧ x.factors = w) ↔
      (∃ f, readFactors t p = .ok f) ∧ ∃ o, AreValues texts o ∧
        r.completed (RunSettings.normalLocation place) o strip nearby = .ok w := by
  constructor
  · rintro ⟨x, b, hx, rfl⟩
    exact h.map_factors_outcome (outcome_of_run hx).1
  · rintro ⟨hf, o, ho, hw⟩
    obtain ⟨x, hx⟩ := h.exists_outcome hf ho hw
    obtain ⟨-, o', ho', hx'⟩ := h.map_factors_outcome hx
    rw [ho'.unique ho] at hx'
    exact ⟨x, none, result_of_outcome hx h.accepts_results label,
      Except.ok.inj (hx'.symm.trans hw)⟩

end IsFor

end Bundle

end PrimaryEnergy
