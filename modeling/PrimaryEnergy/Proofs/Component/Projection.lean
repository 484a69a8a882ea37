/-
  Selection of a service is a projection.

  What is selected belongs to the service, so unless no service in particular is selected, a
  second selection finds nothing to share out: it keeps all rows or none of them, and the mark of
  the last selection stays.

  * `IsShareOf` and `shares_reassigned`: what is added is a scaled row for each production that is
    shared;
  * `ofService_ofService` and `metadata_select_select`: the rows and the metadata of two
    selections;
  * `select_projects`: what is selected once, twice, and for two services.
-/
import PrimaryEnergy.Proofs.Component.Processed

namespace PrimaryEnergy

open Series Text

namespace Component

section
variable {α : Type} [Zero α] [Add α] [Mul α] [Div α] [LT α] [DecidableLT α]
  {rows : List (Component α)} {c : Component α} {s : Service}

/-! ## Rows -/

theorem service_of_mem_ofService (h : c ∈ ofService rows s) : c.service = s := by
  rcases List.mem_append.1 h with h | h
  · exact beq_iff_eq.1 (List.mem_filter.1 h).2
  · obtain ⟨d, -, rfl⟩ := mem_reassigned h
    rfl

/-- The row `d` is the part of the production `c` that a service is given, with a remark. -/
structure IsShareOf (s : Service) (share : α) (c d : Component α) : Prop where
  carrier : d.carrier = c.carrier
  flow : d.flow = c.flow
  service : d.service = s
  values : d.values = c.values.map (· * share)
  comment : d.comment = trimText (c.comment ++ " " ++ reassignedNote)

/-- Each production that is shared is scaled by the share of the service, if it has one. -/
theorem shares_reassigned (rows : List (Component α)) (s : Service) :
    reassigned rows s = [] ∨ 0 < electricityShare rows s ∧
      List.Forall₂ (IsShareOf s (electricityShare rows s)) (sharedProduction rows)
        (reassigned rows s) := by
  unfold reassigned
  simp only
  split_ifs with hshare
  · refine .inr ⟨hshare, List.forall₂_map_right_iff.2 (List.forall₂_same.2 fun c hc => ?_)⟩
    have hkind := (List.mem_filter.1 hc).2
    simp only [Bool.and_eq_true, beq_iff_eq] at hkind
    exact ⟨hkind.1.1.symm, hkind.1.2.symm, rfl, rfl, rfl⟩
  · exact .inl rfl

/-- Nothing is left to share out. -/
theorem reassigned_ofService (h : s ≠ .undefined) (rows : List (Component α)) (s' : Service) :
    reassigned (ofService rows s) s' = [] := by
  have hshared : sharedProduction (ofService rows s) = [] :=
    List.filter_eq_nil_iff.2 fun c hc => by simp [service_of_mem_ofService hc, h]
  simp [reassigned, hshared]

/-- A second selection keeps all rows, or none of them. -/
theorem ofService_ofService (h : s ≠ .undefined) (rows : List (Component α)) (s' : Service) :
    ofService (ofService rows s) s' = if s' = s then ofService rows s else [] := by
  rw [ofService.eq_def (ofService rows s), reassigned_ofService h, List.append_nil]
  split_ifs with hs
  · exact List.filter_eq_self.2 fun c hc => beq_iff_eq.2 (hs ▸ service_of_mem_ofService hc)
  · refine List.filter_eq_nil_iff.2 fun c hc => ?_
    rw [service_of_mem_ofService hc, beq_iff_eq]
    exact Ne.symm hs

end

end Component

/-! ## Tables -/

namespace ComponentTable

open Component

section
variable {α : Type} [Zero α] [Add α] [Mul α] [Div α] [LT α] [DecidableLT α]

/-- The keys of the entries that mark a table. -/
def markKeys : List String := [Metadata.perimeterKey, Metadata.serviceKey]

theorem filter_metadata_select (t : ComponentTable α) (s : Service) :
    (t.select s).metadata.filter (·.key ∉ markKeys) = t.metadata.filter (·.key ∉ markKeys) := by
  have hmark : ∀ k ∈ markKeys, ∀ e : MetaEntry, e.key = k → decide (e.key ∉ markKeys) = false :=
    fun k hk e he => by simp [he, hk]
  rw [select, Metadata.filter_set (hmark _ (by decide)), Metadata.filter_set (hmark _ (by decide))]

/-- The marks of the last selection stay. -/
theorem metadata_select_select (t : ComponentTable α) (s s' : Service) :
    ((t.select s).select s').metadata = (t.select s').metadata := by
  have hmarked : (t.select s).metadata.get? Metadata.perimeterKey =
      some Metadata.nearbyPerimeter := by
    rw [select, Metadata.get?_set_of_ne _ _ (by decide), Metadata.get?_set]
  have hagain : (t.select s).metadata.set Metadata.perimeterKey Metadata.nearbyPerimeter =
      (t.select s).metadata := Metadata.set_eq_self hmarked
  rw [select.eq_def (t.select s), hagain]
  exact Metadata.set_set _ _ _ _

/-- A second selection keeps the table, or leaves its metadata only. -/
theorem select_select {s : Service} (h : s ≠ .undefined) (t : ComponentTable α) (s' : Service) :
    (t.select s).select s' = if s' = s then t.select s else ⟨(t.select s').metadata, []⟩ := by
  have hmetadata := metadata_select_select t s s'
  have hrows : ((t.select s).select s').rows = _ := ofService_ofService h t.rows s'
  split_ifs at hrows ⊢ with hs
  · subst hs
    exact congrArg₂ Table.mk hmetadata hrows
  · exact congrArg₂ Table.mk hmetadata hrows

/-- **Selection is a projection.**  What is selected belongs to the service: its rows, as they are
    and in their order, and perhaps a scaled row for each production that is shared.  All metadata
    but the marks stay.  Unless no service in particular is selected, selecting the service again
    changes nothing, and selecting another one leaves no rows. -/
theorem select_projects (t : ComponentTable α) (s s' : Service) :
    (∀ c ∈ (t.select s).rows, c.service = s) ∧
    (∃ added, (t.select s).rows = t.rows.filter (·.service = s) ++ added ∧
      (added = [] ∨ 0 < electricityShare t.rows s ∧
        List.Forall₂ (IsShareOf s (electricityShare t.rows s)) (sharedProduction t.rows) added)) ∧
    (t.select s).metadata.filter (·.key ∉ markKeys) = t.metadata.filter (·.key ∉ markKeys) ∧
    (s ≠ .undefined →
      (t.select s).select s = t.select s ∧
      (s' ≠ s → ((t.select s).select s').rows = [] ∧
        ((t.select s).select s').getMeta? Metadata.serviceKey = some (Token.text s'))) := by
  refine ⟨fun c => service_of_mem_ofService, ⟨_, ?_, shares_reassigned t.rows s⟩,
    filter_metadata_select t s, fun hs => ⟨?_, fun hs' => ?_⟩⟩
  · simp only [select, ofService, Bool.beq_eq_decide_eq]
  · rw [select_select hs, if_pos rfl]
  · rw [select_select hs, if_neg hs']
    exact ⟨rfl, Metadata.get?_set _ _ _⟩

end

/-- A roof that several services share, with marks of earlier selections. -/
def markedRoof : ComponentTable Float :=
  ⟨[⟨"CTE_SERVICIO", "REF"⟩, ⟨"CTE_AREAREF", "100.0"⟩, ⟨"CTE_SERVICIO", "ACS"⟩],
    [⟨.electricity, .assessedUse, .hotWater, [0.1, 0.2], ""⟩,
      ⟨.electricity, .onsiteProduction, .undefined, [8, 4], " PV "⟩,
      ⟨.electricity, .otherUse, .heating, [30, 0.3], "Pump"⟩,
      ⟨.electricity, .onsiteProduction, .undefined, [0.7], ""⟩]⟩

theorem select_projects_markedRoof :
    (∃ c ∈ (markedRoof.select .hotWater).rows, c.isProduction = true ∧ c.service = .hotWater) ∧
    (markedRoof.select .hotWater).select .hotWater = markedRoof.select .hotWater ∧
    ((markedRoof.select .hotWater).select .heating).rows = [] ∧
    ((markedRoof.select .hotWater).select .heating).getMeta? Metadata.serviceKey = some "CAL" := by
  obtain ⟨hown, -, -, hagain⟩ := select_projects markedRoof .hotWater .heating
  obtain ⟨hsame, hother⟩ := hagain nofun
  obtain ⟨c, hc, hproduction⟩ :
      ∃ c ∈ (markedRoof.select .hotWater).rows, c.isProduction = true := by decide +kernel
  exact ⟨⟨c, hc, hproduction, hown c hc⟩, hsame, hother nofun⟩

end ComponentTable

end PrimaryEnergy
