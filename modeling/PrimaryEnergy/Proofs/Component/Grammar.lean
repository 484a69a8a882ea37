/-
  The grammar of component tables.

  A row may start with a number and may leave out its service, so a field has no fixed place; what
  tells the places apart is that no carrier is a number of a row and no service is a number.

  * `Component.Spelling` is a row as it is spelt, `Component.Spelling.IsOf` tells what it stands
    for: `readRow_eq_ok_iff`;
  * `ComponentTable.IsText` tells which texts stand for tables, `ComponentTable.IsFault` what is
    wrong with the others: `ComponentTable.read_isText`.
-/
import PrimaryEnergy.Proofs.Component.Text
import PrimaryEnergy.Proofs.Table.Line

namespace PrimaryEnergy

open Text TableText Decimal

/-! ## Fields -/

theorem mapM_eq_some_iff {α β : Type} (f : α → Option β) {xs : List α} {ys : List β} :
    xs.mapM f = some ys ↔ List.Forall₂ (fun x y => f x = some y) xs ys := by
  induction xs generalizing ys with
  | nil => cases ys <;> simp
  | cons x xs ih =>
    rw [List.mapM_cons]
    cases ys with
    | nil =>
      cases f x with
      | none => simp
      | some y => cases xs.mapM f <;> simp
    | cons y ys =>
      simp only [Option.bind_eq_bind, Option.bind_eq_some_iff, ih, List.forall₂_cons,
        Option.pure_def, Option.some.injEq, List.cons.injEq]
      constructor
      · rintro ⟨y', hx, ys', hxs, rfl, rfl⟩
        exact ⟨hx, hxs⟩
      · rintro ⟨hx, hxs⟩
        exact ⟨y, hx, ys, hxs, rfl, rfl⟩

namespace Component

/-- A number of a row: minus signs, then digits of any script. -/
def IsRowNumber (s : List Char) : Prop :=
  ∃ k ds, s = List.replicate k '-' ++ ds ∧ ds ≠ [] ∧ ∀ d ∈ ds, isDigit d = true

theorem isRowNumber_iff {s : List Char} : isRowNumber s = true ↔ IsRowNumber s := by
  simp only [isRowNumber, Bool.and_eq_true, Bool.not_eq_true', List.isEmpty_eq_false_iff,
    List.all_eq_true]
  constructor
  · rintro ⟨hne, hd⟩
    refine ⟨(s.takeWhile (· == '-')).length, s.dropWhile (· == '-'), ?_, hne, hd⟩
    have hsigns : s.takeWhile (· == '-') = List.replicate (s.takeWhile (· == '-')).length '-' :=
      List.eq_replicate_of_mem fun c hc =>
        beq_iff_eq.1 (List.mem_takeWhile_imp (p := (· == '-')) hc)
    rw [← hsigns, List.takeWhile_append_dropWhile]
  · rintro ⟨k, ds, rfl, hne, hd⟩
    have hsigns : ∀ c ∈ List.replicate k '-', (c == '-') = true := fun c hc =>
      beq_iff_eq.2 (List.eq_of_mem_replicate hc)
    have hdrop : (List.replicate k '-' ++ ds).dropWhile (· == '-') = ds := by
      obtain ⟨d, r, rfl⟩ := List.exists_cons_of_ne_nil hne
      have hd0 : ¬ (d == '-') = true := fun h => by
        have := hd d List.mem_cons_self
        rw [beq_iff_eq.1 h] at this
        exact absurd this (by decide)
      rw [List.dropWhile_append_of_pos hsigns, List.dropWhile_cons_of_neg (p := (· == '-')) hd0]
    rw [hdrop]
    exact ⟨hne, hd⟩

instance (s : List Char) : Decidable (IsRowNumber s) := decidable_of_iff _ isRowNumber_iff

/-- No service is a number. -/
theorem freeNumber?_service (s : Service) : freeNumber? (Token.text s).toList = none := by
  cases s <;> decide +kernel

/-! ## Rows -/

/-- A row as it is spelt: its number and its service may be left out. -/
structure Spelling where
  number : Option (List Char) := none
  carrier : Carrier
  flow : Flow
  service : Option Service := none
  values : List (List Char)

namespace Spelling

def words (w : Spelling) : List (List Char) :=
  [(Token.text w.carrier).toList, (Token.text w.flow.type).toList,
    (Token.text w.flow.subtype).toList]

/-- What follows the subtype. -/
def rest (w : Spelling) : List (List Char) :=
  w.service.toList.map (fun s => (Token.text s).toList) ++ w.values

def fields (w : Spelling) : List (List Char) := w.number.toList ++ w.words ++ w.rest

/-- What a spelling stands for: its number does not count, and no service is the undefined
    one. -/
structure IsOf (w : Spelling) (c : Component Float) : Prop where
  number : ∀ n ∈ w.number, IsRowNumber n
  carrier : c.carrier = w.carrier
  flow : c.flow = w.flow
  service : c.service = w.service.getD .undefined
  values_ne_nil : w.values ≠ []
  values : List.Forall₂ (fun v x => freeNumber? v = some x) w.values c.values

variable {w w' : Spelling} {c : Component Float}

/-- Another spelling of the same: with a number or without, with the undefined service or none. -/
inductive Change (w : Spelling) : Spelling → Prop where
  | addNumber {n : List Char} (h : w.number = none) (hn : IsRowNumber n) :
      Change w { w with number := some n }
  | dropNumber : Change w { w with number := none }
  | writeService (h : w.service = none) : Change w { w with service := some .undefined }
  | omitService (h : w.service = some .undefined) : Change w { w with service := none }

theorem Change.isOf (h : w.Change w') (hw : w.IsOf c) : w'.IsOf c := by
  obtain ⟨hnumber, hcarrier, hflow, hservice, hne, hvalues⟩ := hw
  cases h with
  | addNumber h hn =>
    exact ⟨by simpa using hn, hcarrier, hflow, hservice, hne, hvalues⟩
  | dropNumber => exact ⟨nofun, hcarrier, hflow, hservice, hne, hvalues⟩
  | writeService h | omitService h =>
    rw [h] at hservice
    exact ⟨hnumber, hcarrier, hflow, hservice, hne, hvalues⟩

theorem dropRowNumber_fields (h : ∀ n ∈ w.number, IsRowNumber n) :
    dropRowNumber w.fields = w.words ++ w.rest := by
  unfold fields
  cases hn : w.number with
  | none => simp [words, dropRowNumber, isRowNumber_carrier]
  | some n => simp [dropRowNumber, isRowNumber_iff.2 (h n hn)]

theorem splitService_rest (h : w.IsOf c) :
    splitService w.rest = (w.service.getD .undefined, w.values) := by
  unfold rest
  cases w.service with
  | some s => exact splitService_text s w.values
  | none =>
    obtain ⟨v, vs, hv⟩ := List.exists_cons_of_ne_nil h.values_ne_nil
    have hvalues := h.values
    rw [hv, List.forall₂_cons_left_iff] at hvalues
    obtain ⟨x, -, hnum, -⟩ := hvalues
    -- the first value is a number, and so is not taken for a service
    have hword : (Token.ofChars? v : Option Service) = none := by
      rw [Option.eq_none_iff_forall_ne_some]
      intro s hs
      rw [Token.ofChars?_eq_some_iff.1 hs, freeNumber?_service] at hnum
      cases hnum
    rw [hv]
    simp [splitService, hword]

end Spelling

section
variable {raw comment : List Char} {fs : List (List Char)} {c : Component Float}

/-- The fields start with the number of the row, if there is one. -/
theorem exists_number (fs : List (List Char)) :
    ∃ n : Option (List Char), (∀ x ∈ n, IsRowNumber x) ∧ fs = n.toList ++ dropRowNumber fs := by
  cases fs with
  | nil => exact ⟨none, nofun, rfl⟩
  | cons f fs =>
    by_cases hf : isRowNumber f = true
    · refine ⟨some f, fun x hx => ?_, by simp [dropRowNumber, hf]⟩
      rw [← Option.mem_some_iff.1 hx]
      exact isRowNumber_iff.1 hf
    · exact ⟨none, nofun, by simp [dropRowNumber, hf]⟩

/-- The fields after the subtype start with the service, if there is one. -/
theorem exists_service (fs : List (List Char)) :
    ∃ o : Option Service,
      fs = o.toList.map (fun s => (Token.text s).toList) ++ (splitService fs).2 ∧
      (splitService fs).1 = o.getD .undefined := by
  cases fs with
  | nil => exact ⟨none, rfl, rfl⟩
  | cons f fs =>
    cases hs : (Token.ofChars? f : Option Service) with
    | none => exact ⟨none, by simp [splitService, hs], by simp [splitService, hs]⟩
    | some s =>
      obtain rfl := Token.ofChars?_eq_some_iff.1 hs
      exact ⟨some s, by simp [splitService, hs], by simp [splitService, hs]⟩

theorem ofTokens_eq_ok_iff {x y z : List Char} {k : Carrier} {f : Flow} :
    ofTokens x y z = .ok (k, f) ↔ x = (Token.text k).toList ∧
      y = (Token.text f.type).toList ∧ z = (Token.text f.subtype).toList := by
  constructor
  · intro h
    unfold ofTokens at h
    split at h
    · rename_i c t s hc ht hs
      split at h
      · rename_i g hg
        cases h
        obtain ⟨rfl, rfl⟩ := Flow.of?_eq_some_iff.1 hg
        exact ⟨Token.ofChars?_eq_some_iff.1 hc, Token.ofChars?_eq_some_iff.1 ht,
          Token.ofChars?_eq_some_iff.1 hs⟩
      · cases h
    · cases h
  · rintro ⟨rfl, rfl, rfl⟩
    exact ofTokens_text k f

/-- **The spellings of rows are read as what they stand for, and no other fields are read.** -/
theorem readRow_eq_ok_iff {o : Option (Component Float)} : readRow raw fs comment = .ok o ↔
    ∃ (w : Spelling) (c : Component Float), o = some c ∧ fs = w.fields ∧ w.IsOf c ∧
      c.comment = String.ofList comment := by
  constructor
  · intro h
    unfold readRow at h
    split at h
    · rename_i x y z v vs hdrop
      obtain ⟨n, hn, hfs⟩ := exists_number fs
      obtain ⟨s, hs, hservice⟩ := exists_service (v :: vs)
      generalize splitService (v :: vs) = p at h hs hservice
      obtain ⟨service, values⟩ := p
      simp only at h hs hservice
      split at h
      · rename_i _ xs hxs
        split at h
        · rename_i k f hkf
          cases h
          obtain ⟨rfl, rfl, rfl⟩ := ofTokens_eq_ok_iff.1 hkf
          refine ⟨⟨n, k, f, s, _⟩, _, rfl, ?_, ⟨hn, rfl, rfl, hservice, List.cons_ne_nil _ _,
            (mapM_eq_some_iff _).1 hxs⟩, rfl⟩
          rw [hfs, hdrop, hs]
          simp [Spelling.fields, Spelling.words, Spelling.rest]
        · cases h
      · cases h
    · cases h
  · rintro ⟨w, c, rfl, rfl, hw, hcomment⟩
    have hsplit := Spelling.splitService_rest hw
    have hdrop := Spelling.dropRowNumber_fields hw.number
    have hvalues := (mapM_eq_some_iff _).2 hw.values
    have hne : w.rest ≠ [] := fun h0 => hw.values_ne_nil (List.append_eq_nil_iff.1 h0).2
    obtain ⟨r, rs, hr⟩ := List.exists_cons_of_ne_nil hne
    obtain ⟨v, vs, hv⟩ := List.exists_cons_of_ne_nil hw.values_ne_nil
    rw [hv] at hvalues
    rw [hr, hv] at hsplit
    rw [hr] at hdrop
    simp only [readRow, hdrop, Spelling.words, List.cons_append, List.nil_append, hsplit, hvalues,
      ofTokens_text]
    rw [← hcomment, ← hw.carrier, ← hw.flow, ← hw.service]

end

end Component

/-! ## Texts -/

open Component

namespace ComponentTable

variable {l : List Char} {s : String} {p t : ComponentTable Float}

/-- What a line stands for: nothing, an entry of metadata, or a row. -/
inductive IsLine (l : List Char) : ComponentTable Float → Prop where
  | ignored (h : IsIgnored l) : IsLine l {}
  | metadata {e : MetaEntry} (h : IsMetaLine l e) : IsLine l ⟨[e], []⟩
  | row {w : Spelling} {c : Component Float} (h : IsRowLine l w.fields c.comment.toList)
      (hw : w.IsOf c) : IsLine l ⟨[], [c]⟩

/-- What a text stands for: its lines do, one after the other, and all rows have equally many
    values. -/
def IsText (s : String) (t : ComponentTable Float) : Prop :=
  ∃ parts, List.Forall₂ IsLine (splitLines s.toList) parts ∧ t = Table.concat parts ∧
    ∀ c ∈ t.rows, ∀ d ∈ t.rows, c.values.length = d.values.length

/-- What may be wrong with a line, which is quoted. -/
inductive IsLineFault (l : List Char) : TableFault → Prop where
  | malformedMeta : IsLineFault l (.malformedMeta (String.ofList (trim l)))
  | tooFewFields : IsLineFault l (.tooFewFields (String.ofList l))
  | nonNumeric : IsLineFault l (.nonNumeric (String.ofList l))
  | malformedComponent (n : Nat) : IsLineFault l (.malformedComponent (String.ofList l) n)

/-- What is wrong with a text: the first line that stands for nothing, or else the numbers of
    values. -/
inductive IsFault (s : String) : TableFault → Prop where
  | line {ls ms : List (List Char)} {l : List Char} {e : TableFault}
      (hs : splitLines s.toList = ls ++ l :: ms) (hls : ∀ k ∈ ls, ∃ p, IsLine k p)
      (hl : ∀ p, ¬ IsLine l p) (he : IsLineFault l e) : IsFault s e
  | lengths {parts : List (ComponentTable Float)}
      (hparts : List.Forall₂ IsLine (splitLines s.toList) parts)
      (h : ∃ c ∈ (Table.concat parts).rows, ∃ d ∈ (Table.concat parts).rows,
        c.values.length ≠ d.values.length) :
      IsFault s (.mixedLengths (lengths (Table.concat parts).rows))

theorem readLine_eq_ok_iff_isLine : readLine readRow l = .ok p ↔ IsLine l p := by
  rw [readLine_eq_ok_iff]
  constructor
  · rintro (⟨h, rfl⟩ | ⟨e, h, rfl⟩ | ⟨fs, comment, o, h, ho, rfl⟩)
    · exact .ignored h
    · exact .metadata h
    · obtain ⟨w, c, rfl, rfl, hw, hcomment⟩ := readRow_eq_ok_iff.1 ho
      refine .row ?_ hw
      rwa [hcomment, String.toList_ofList]
  · rintro (h | h | ⟨h, hw⟩)
    · exact .inl ⟨h, rfl⟩
    · exact .inr (.inl ⟨_, h, rfl⟩)
    · refine .inr (.inr ⟨_, _, _, h, readRow_eq_ok_iff.2 ⟨_, _, rfl, rfl, hw, ?_⟩, rfl⟩)
      rw [String.ofList_toList]

/-- A line stands for one thing at most. -/
theorem IsLine.unique {q : ComponentTable Float} (hp : IsLine l p) (hq : IsLine l q) : p = q :=
  Except.ok.inj ((readLine_eq_ok_iff_isLine.2 hp).symm.trans (readLine_eq_ok_iff_isLine.2 hq))

theorem read_eq_ok_iff_isText : read s = .ok t ↔ IsText s t := by
  simp only [read_eq_ok_iff, readWith_eq_ok_iff, readLine_eq_ok_iff_isLine, IsText]
  constructor
  · rintro ⟨⟨parts, hparts, rfl⟩, hlength⟩
    exact ⟨parts, hparts, rfl, hlength⟩
  · rintro ⟨parts, hparts, rfl, hlength⟩
    exact ⟨⟨parts, hparts, rfl⟩, hlength⟩

theorem isLineFault_of_readRow {fs : List (List Char)} {comment : List Char} {e : TableFault}
    (h : readRow l fs comment = .error e) : IsLineFault l e := by
  unfold readRow at h
  split at h
  · rename_i v vs _
    generalize splitService (v :: vs) = q at h
    obtain ⟨service, values⟩ := q
    simp only at h
    split at h
    · split at h <;> cases h
      exact .malformedComponent _
    · cases h
      exact .nonNumeric
  · cases h
    exact .tooFewFields

theorem isLineFault_of_readLine {e : TableFault} (h : readLine readRow l = .error e) :
    IsLineFault l e := by
  unfold readLine at h
  split at h
  · cases h
  · split at h
    · cases h
    · cases h
      exact .malformedMeta
  · rename_i fs comment _
    cases hr : readRow l fs comment with
    | ok o => simp [hr] at h
    | error e' =>
      simp only [hr, Except.error.injEq] at h
      exact h ▸ isLineFault_of_readRow hr

theorem isFault_of_read {e : TableFault} (h : read s = .error e) : IsFault s e := by
  unfold read at h
  cases hs : readWith readRow s with
  | error e' =>
    rw [hs] at h
    cases h
    obtain ⟨ls, l, ms, hlines, hls, hl⟩ := readWith_eq_error hs
    refine .line hlines (fun k hk => ?_) (fun p hp => ?_) (isLineFault_of_readLine hl)
    · obtain ⟨p, hp⟩ := hls k hk
      exact ⟨p, readLine_eq_ok_iff_isLine.1 hp⟩
    · rw [readLine_eq_ok_iff_isLine.2 hp] at hl
      cases hl
  | ok u =>
    obtain ⟨parts, hparts, rfl⟩ := readWith_eq_ok_iff.1 hs
    simp only [readLine_eq_ok_iff_isLine] at hparts
    simp only [hs, length_lengths_le_one_iff] at h
    split_ifs at h with hlength
    cases h
    push Not at hlength
    exact .lengths hparts hlength

/-! ## Other spellings -/

/-- A line, and the same line with its row in another spelling. -/
inductive Respelled (l : List Char) : List Char → Prop where
  | same : Respelled l l
  | row {l' : List Char} {w w' : Spelling} {c : Component Float}
      (h : IsRowLine l w.fields c.comment.toList) (hw : w.IsOf c) (hchange : w.Change w')
      (h' : IsRowLine l' w'.fields c.comment.toList) : Respelled l l'

theorem Respelled.isLine {l' : List Char} (h : Respelled l l') (hp : IsLine l p) : IsLine l' p := by
  cases h with
  | same => exact hp
  | row h hw hchange h' =>
    obtain rfl := hp.unique (.row h hw)
    exact .row h' (hchange.isOf hw)

theorem forall₂_isLine_of_respelled {ls ls' : List (List Char)}
    {parts : List (ComponentTable Float)} (h : List.Forall₂ Respelled ls ls')
    (hparts : List.Forall₂ IsLine ls parts) : List.Forall₂ IsLine ls' parts := by
  induction h generalizing parts with
  | nil => exact hparts
  | cons hl _ ih =>
    rw [List.forall₂_cons_left_iff] at hparts
    obtain ⟨p, ps, hp, hps, rfl⟩ := hparts
    exact .cons (hl.isLine hp) (ih hps)

/-- **The texts of tables are read as the tables, and no others are read**: what is reported of
    those is their first faulty line, or that rows have different numbers of values.  How rows are
    spelt does not matter. -/
theorem read_isText (s : String) :
    (∀ t, read s = .ok t ↔ IsText s t) ∧
    ((∀ t, ¬ IsText s t) ↔ ∃ e, read s = .error e ∧ IsFault s e) ∧
    ∀ s' t, IsText s t → List.Forall₂ Respelled (splitLines s.toList) (splitLines s'.toList) →
      read s' = .ok t := by
  refine ⟨fun t => read_eq_ok_iff_isText, ⟨fun h => ?_, ?_⟩, ?_⟩
  · cases hs : read s with
    | ok t => exact absurd (read_eq_ok_iff_isText.1 hs) (h t)
    | error e => exact ⟨e, rfl, isFault_of_read hs⟩
  · rintro ⟨e, he, -⟩ t ht
    rw [read_eq_ok_iff_isText.2 ht] at he
    cases he
  · rintro s' t ⟨parts, hparts, rfl, hlength⟩ hlines
    exact read_eq_ok_iff_isText.2 ⟨parts, forall₂_isLine_of_respelled hlines hparts, rfl, hlength⟩

/-- Metadata and rows. -/
def plain : List String :=
  ["#META CTE_AREAREF: 100.0", "BIOMASA, CONSUMO, EPB, 10 # Boiler",
    "-2, GASNATURAL, CONSUMO, NEPB, CAL, 3", "RED1, CONSUMO, EPB, NDEF, 1e1"]

/-- The same with a service more, a number less and a number more. -/
def respelt : List String :=
  ["#META CTE_AREAREF: 100.0", "BIOMASA, CONSUMO, EPB, NDEF, 10 # Boiler",
    "GASNATURAL, CONSUMO, NEPB, CAL, 3", "7, RED1, CONSUMO, EPB, NDEF, 1e1"]

/-- What both stand for. -/
def spelt : ComponentTable Float :=
  ⟨[⟨"CTE_AREAREF", "100.0"⟩], [⟨.biomass, .assessedUse, .undefined, [10], "Boiler"⟩,
    ⟨.naturalGas, .otherUse, .heating, [3], ""⟩, ⟨.district1, .assessedUse, .undefined, [10], ""⟩]⟩

theorem respelled_respelt :
    List.Forall₂ Respelled (plain.map String.toList) (respelt.map String.toList) := by
  have hwrite : Respelled "BIOMASA, CONSUMO, EPB, 10 # Boiler".toList
      "BIOMASA, CONSUMO, EPB, NDEF, 10 # Boiler".toList := by
    refine .row (w := ⟨none, .biomass, .assessedUse, none, [['1', '0']]⟩)
      (c := ⟨.biomass, .assessedUse, .undefined, [10], "Boiler"⟩) (by decide) ?_
      (.writeService rfl) (by decide)
    exact ⟨nofun, rfl, rfl, rfl, nofun, .cons (by decide +kernel) .nil⟩
  have hdrop : Respelled "-2, GASNATURAL, CONSUMO, NEPB, CAL, 3".toList
      "GASNATURAL, CONSUMO, NEPB, CAL, 3".toList := by
    refine .row (w := ⟨some ['-', '2'], .naturalGas, .otherUse, some .heating, [['3']]⟩)
      (c := ⟨.naturalGas, .otherUse, .heating, [3], ""⟩) (by decide) ?_ .dropNumber (by decide)
    exact ⟨by decide, rfl, rfl, rfl, nofun, .cons (by decide +kernel) .nil⟩
  have hadd : Respelled "RED1, CONSUMO, EPB, NDEF, 1e1".toList
      "7, RED1, CONSUMO, EPB, NDEF, 1e1".toList := by
    refine .row (w := ⟨none, .district1, .assessedUse, some .undefined, [['1', 'e', '1']]⟩)
      (c := ⟨.district1, .assessedUse, .undefined, [10], ""⟩) (by decide) ?_
      (.addNumber (n := ['7']) rfl (by decide)) (by decide)
    exact ⟨nofun, rfl, rfl, rfl, nofun, .cons (by decide +kernel) .nil⟩
  exact .cons .same (.cons hwrite (.cons hdrop (.cons hadd .nil)))

theorem read_isText_respelt :
    read (joinLines plain) = .ok spelt ∧ read (joinLines respelt) = .ok spelt := by
  have hplain : read (joinLines plain) = .ok spelt := by decide +kernel
  have hlines : List.Forall₂ Respelled (splitLines (joinLines plain).toList)
      (splitLines (joinLines respelt).toList) := by
    rw [splitLines_joinLines (by decide) (by decide), splitLines_joinLines (by decide) (by decide)]
    exact respelled_respelt
  obtain ⟨hread, -, hrespelled⟩ := read_isText (joinLines plain)
  exact ⟨hplain, hrespelled _ _ ((hread _).1 hplain) hlines⟩

end ComponentTable

end PrimaryEnergy
