/-
  Balancing and the selection of a service, one after the other.

  Balancing adds ambient energy and looks at nothing else; selection adds electricity, by a share
  that only hangs on electricity.  So neither sees what the other has added, and in which order
  they are done shows in the order of the added rows only.

  * `reassigned_append`: selection does not see added ambient energy;
  * `missingProduction_ofService`: of selected components balancing sees one service, as it was;
  * `balance_select`: the two orders.
-/
import PrimaryEnergy.Proofs.Component.Locality
import PrimaryEnergy.Proofs.Component.Projection

namespace PrimaryEnergy

namespace Component

variable {α : Type} {rows rows' added : List (Component α)} {c : Component α} {s : Service}

/-! ## Selection after balancing -/

section
variable (h : ∀ c ∈ added, c.carrier = .ambient)
include h

theorem electricityUse_append : electricityUse (rows ++ added) = electricityUse rows := by
  have hnil : electricityUse added = [] :=
    List.filter_eq_nil_iff.2 fun c hc => by simp [h c hc]
  rw [electricityUse, List.filter_append]
  exact (congrArg _ hnil).trans (List.append_nil _)

theorem sharedProduction_append : sharedProduction (rows ++ added) = sharedProduction rows := by
  have hnil : sharedProduction added = [] :=
    List.filter_eq_nil_iff.2 fun c hc => by simp [h c hc]
  rw [sharedProduction, List.filter_append]
  exact (congrArg _ hnil).trans (List.append_nil _)

variable [Zero α] [Add α] [Div α] [LT α] [DecidableLT α]

/-- Added ambient energy is no electricity, so it changes no share of it. -/
theorem electricityShare_append (s : Service) :
    electricityShare (rows ++ added) s = electricityShare rows s := by
  rw [electricityShare, electricityShare, electricityUse_append h]

theorem reassigned_append [Mul α] (s : Service) :
    reassigned (rows ++ added) s = reassigned rows s := by
  rw [reassigned, reassigned, electricityShare_append h, sharedProduction_append h]

end

variable [Zero α] [Add α] [LT α] [DecidableLT α]

/-! ## Balancing after selection -/

variable [Sub α] [Mul α] [Div α] [BEq α]

/-- Of the components of a service, that service alone can lack something. -/
theorem missingProduction_ofService (rows : List (Component α)) (s : Service) :
    missingProduction (ofService rows s) = (missingFor rows s).toList := by
  have hown : ∀ c ∈ ambient (ofService rows s), c.service = s :=
    fun c hc => service_of_mem_ofService (List.mem_filter.1 hc).1
  rw [missingProduction_of_service hown]
  exact congrArg _ (missingFor_congr fun f => by rw [ambientSeries_ofService, if_pos rfl])

/-- The components of a service after balancing. -/
theorem ofService_append_missingProduction (rows : List (Component α)) (s : Service) :
    ofService (rows ++ missingProduction rows) s =
      rows.filter (fun c => c.service == s) ++
        ((missingFor rows s).toList ++ reassigned rows s) := by
  have hambient : ∀ c ∈ missingProduction rows, c.carrier = .ambient := by
    intro c hc
    obtain ⟨s', -, rfl⟩ := exists_of_mem_missingProduction hc
    rfl
  rw [ofService, List.filter_append, filter_service_missingProduction,
    reassigned_append hambient, List.append_assoc]

/-- The components of a service, balanced. -/
theorem ofService_append_missingProduction_ofService (rows : List (Component α)) (s : Service) :
    ofService rows s ++ missingProduction (ofService rows s) =
      rows.filter (fun c => c.service == s) ++
        (reassigned rows s ++ (missingFor rows s).toList) := by
  rw [missingProduction_ofService, ofService, List.append_assoc]

end Component

/-- **Balancing and selection commute.**  Whichever comes first, the metadata are the same and so
    are the rows, up to the order of those that are added; the rows that are kept come first, in
    their order. -/
theorem ComponentTable.balance_select (t : ComponentTable Float) (s : Service) :
    (t.balance.select s).metadata = (t.select s).balance.metadata ∧
    (t.balance.select s).rows.Perm (t.select s).balance.rows ∧
    t.rows.filter (fun c => c.service == s) <+: (t.balance.select s).rows ∧
    t.rows.filter (fun c => c.service == s) <+: (t.select s).balance.rows := by
  have hfirst : (t.balance.select s).rows = _ :=
    Component.ofService_append_missingProduction t.rows s
  have hlast : (t.select s).balance.rows = _ :=
    Component.ofService_append_missingProduction_ofService t.rows s
  rw [hfirst, hlast]
  exact ⟨rfl, List.perm_append_comm.append_left _, List.prefix_append _ _, List.prefix_append _ _⟩

end PrimaryEnergy
