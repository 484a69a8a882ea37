/-
  Components that are processed can be written and read again.

  A table that has been read has rows of one length, and comments and metadata that survive in
  lines.  What balancing and the selection of a service add to it keeps to that, whatever the
  values are: they may be undefined or infinite.

  * `length_of_mem_missingProduction` and `length_of_mem_ofService`: the new rows are as long as
    the old ones;
  * `isWritable_balance` and `isWritable_select`: each step keeps what can be written;
  * `processed_survive_text`: so the text of a table that is read, balanced and perhaps selected
    from is read as what it shows.
-/
import PrimaryEnergy.Component.Selection
import PrimaryEnergy.Proofs.Component.Balance
import PrimaryEnergy.Proofs.Metadata
import PrimaryEnergy.Proofs.Table.RoundTrip

namespace PrimaryEnergy

open Text TableText Series

namespace Series

theorem longest_eq {α : Type} {vs : List (List α)} {n : Nat} (hne : vs ≠ [])
    (h : ∀ v ∈ vs, v.length = n) : longest vs = n := by
  obtain ⟨v, vs, rfl⟩ := List.exists_cons_of_ne_nil hne
  refine le_antisymm (longest_le_iff.2 fun w hw => (h w hw).le) ?_
  rw [← h v List.mem_cons_self]
  exact length_le_longest List.mem_cons_self

end Series

/-! ## Lengths -/

namespace Component

section
variable {α : Type} {rows : List (Component α)} {n : Nat}

theorem length_of_mem_ambient (h : ∀ c ∈ rows, c.values.length = n) (s : Service) :
    ∀ v ∈ ambientUse rows s ++ ambientProduction rows s, v.length = n := by
  intro v hv
  rcases List.mem_append.1 hv with hv | hv
  all_goals
    obtain ⟨c, hc, rfl⟩ := List.mem_map.1 hv
    exact h c (List.mem_filter.1 (List.mem_filter.1 hc).1).1

theorem length_of_mem_missingProduction [Zero α] [Add α] [Sub α] [LT α] [DecidableLT α] [BEq α]
    (h : ∀ c ∈ rows, c.values.length = n) :
    ∀ c ∈ missingProduction rows, c.comment = balanceNote ∧ c.values.length = n := by
  intro c hc
  obtain ⟨s, -, hs⟩ := List.mem_filterMap.1 hc
  obtain ⟨hused, rfl⟩ := of_missingFor hs
  refine ⟨rfl, ?_⟩
  rw [length_deficit]
  exact longest_eq (fun hnil => hused (List.append_eq_nil_iff.1 hnil).1) (length_of_mem_ambient h s)

theorem mem_reassigned [Zero α] [Add α] [Div α] [LT α] [DecidableLT α] [Mul α] {s : Service}
    {c : Component α} (h : c ∈ reassigned rows s) :
    ∃ d ∈ rows, c = reassign s (electricityShare rows s) d := by
  unfold reassigned at h
  simp only at h
  split at h
  · obtain ⟨d, hd, rfl⟩ := List.mem_map.1 h
    exact ⟨d, (List.mem_filter.1 hd).1, rfl⟩
  · cases h

theorem length_of_mem_ofService [Zero α] [Add α] [Div α] [LT α] [DecidableLT α] [Mul α]
    (h : ∀ c ∈ rows, c.values.length = n) (s : Service) :
    ∀ c ∈ ofService rows s, c.values.length = n := by
  intro c hc
  rcases List.mem_append.1 hc with hc | hc
  · exact h c (List.mem_filter.1 hc).1
  · obtain ⟨d, hd, rfl⟩ := mem_reassigned hc
    exact (length_scale _ _).trans (h d hd)

end

theorem isRemark_balanceNote : IsRemark balanceNote := by decide +kernel

theorem isRemark_comment_reassign {c : Component Float} (h : IsRemark c.comment) (s : Service)
    (share : Float) : IsRemark (reassign s share c).comment := by
  have hline : OneLine (c.comment ++ " " ++ reassignedNote).toList := by
    rw [String.toList_append, String.toList_append]
    exact oneLine_append (oneLine_append h.oneLine (by decide)) (by decide +kernel)
  exact isRemark_trim hline

end Component

/-! ## Tables -/

namespace ComponentTable

open Component

variable {t : ComponentTable Float}

theorem IsWritable.exists_length (h : t.IsWritable) :
    ∃ n ≠ 0, ∀ c ∈ t.rows, c.values.length = n := by
  rcases hrows : t.rows with _ | ⟨c, rows⟩
  · exact ⟨1, one_ne_zero, fun c hc => absurd hc List.not_mem_nil⟩
  · have hc : c ∈ t.rows := hrows ▸ List.mem_cons_self
    refine ⟨c.values.length, ?_, fun d hd => h.sameLength d (hrows ▸ hd) c hc⟩
    exact fun h0 => h.values_ne_nil c hc (List.length_eq_zero_iff.1 h0)

theorem isWritable_of_length {n : Nat} (hn : n ≠ 0) (hm : ∀ e ∈ t.metadata, e.IsWritable)
    (h : ∀ c ∈ t.rows, IsRemark c.comment ∧ c.values.length = n) : t.IsWritable := by
  refine ⟨hm, fun c hc => (h c hc).1, ?_, ?_⟩
  · rintro c hc hnil
    exact hn ((h c hc).2.symm.trans (congrArg List.length hnil))
  · intro c hc d hd
    rw [(h c hc).2, (h d hd).2]

theorem isWritable_balance (h : t.IsWritable) : t.balance.IsWritable := by
  obtain ⟨n, hn, hlength⟩ := h.exists_length
  refine isWritable_of_length hn h.metadata fun c hc => ?_
  rcases List.mem_append.1 hc with hc | hc
  · exact ⟨h.comments c hc, hlength c hc⟩
  · obtain ⟨hcomment, hl⟩ := length_of_mem_missingProduction hlength c hc
    exact ⟨hcomment ▸ isRemark_balanceNote, hl⟩

theorem isWritable_select (h : t.IsWritable) (s : Service) : (t.select s).IsWritable := by
  obtain ⟨n, hn, hlength⟩ := h.exists_length
  have hperimeter : MetaEntry.IsWritable ⟨Metadata.perimeterKey, Metadata.nearbyPerimeter⟩ := by
    decide
  have hservice : MetaEntry.IsWritable ⟨Metadata.serviceKey, Token.text s⟩ := by
    cases s <;> decide
  refine isWritable_of_length hn ?_ fun c hc => ⟨?_, length_of_mem_ofService hlength s c hc⟩
  · exact Metadata.forall_set (Metadata.forall_set h.metadata hperimeter) hservice
  · rcases List.mem_append.1 hc with hc | hc
    · exact h.comments c (List.mem_filter.1 hc).1
    · obtain ⟨d, hd, rfl⟩ := mem_reassigned hc
      exact isRemark_comment_reassign (h.comments d hd) s _

/-- A table in good order: its rows have equally many values, but not none, its subtypes go with
    its types, and what its text is read as is what its lines show. -/
structure Survives (t : ComponentTable Float) : Prop where
  length : ∃ n ≠ 0, ∀ c ∈ t.rows, c.values.length = n
  subtype : ∀ c ∈ t.rows, Flow.of? c.flow.type c.flow.subtype = some c.flow
  text : ∃ u, read t.text = .ok u ∧ t.IsTranscript Component.IsTranscript u

theorem survives_of_isWritable (h : t.IsWritable) : t.Survives where
  length := h.exists_length
  subtype _ _ := Flow.of?_eq_some_iff.2 ⟨rfl, rfl⟩
  text := ⟨t.rounded, read_text h, (Table.isTranscript_iff Component.isTranscript_iff).2 rfl⟩

/-- **What is made of a text can be written and read again**: the balanced table, and what is
    selected from it for a service. -/
theorem processed_survive_text {s : String} (h : read s = .ok t) :
    t.balance.Survives ∧ ∀ v, (t.balance.select v).Survives := by
  have hbalance : t.balance.IsWritable := isWritable_balance (isWritable_of_read h)
  exact ⟨survives_of_isWritable hbalance, fun v =>
    survives_of_isWritable (isWritable_select hbalance v)⟩

/-- A heat pump with values that are infinite and undefined, on a roof that several share. -/
def brokenMeter : ComponentTable Float :=
  ⟨[], [⟨.electricity, .assessedUse, .heating, [1 / 0, 20], ""⟩,
    ⟨.electricity, .onsiteProduction, .undefined, [0 / 0, 30], "PV"⟩,
    ⟨.ambient, .assessedUse, .heating, [0 / 0, 40], ""⟩]⟩

theorem processed_survive_text_brokenMeter :
    ∃ t, read brokenMeter.text = .ok t ∧ t.balance.Survives ∧
      (t.balance.select .heating).Survives := by
  have h : read brokenMeter.text = .ok brokenMeter.rounded := read_text (by decide)
  exact ⟨_, h, (processed_survive_text h).1, (processed_survive_text h).2 .heating⟩

end ComponentTable

end PrimaryEnergy
