/-
  The command that prints the factors of a location.

  * `gives_factorsLine`: a location, texts for the families and flags can be given as arguments;
  * `run_of_gives`: what the command leads to;
  * `factors_agree`: it prints what a run of a bundle writes;
  * `not_exit_iff_run`: a factor table that cannot be read stops the run and not the command.
-/
import PrimaryEnergy.CommandLine.Commands
import PrimaryEnergy.Proofs.Bundle.Location

namespace PrimaryEnergy

namespace CommandLine

variable {texts : PerFamily (Option String)} {o : Overrides} {a : Arguments} {place : String}

/-! ## What it prints -/

theorem familyOption_eq_ok_iff {i : Family} {x : Option (Pair Float)} :
    familyOption a i = .ok x ↔ IsValue (a.option? i.name) x := by
  unfold familyOption
  cases a.option? i.name with
  | none => rw [isValue_none_iff, Except.ok.injEq, eq_comm]
  | some s =>
    cases hp : Pair.ofText s with
    | error e => simp [hp, isValue_some_iff]
    | ok p => simp [hp, isValue_some_iff, eq_comm]

theorem overridesOf_eq_ok_iff (h : ∀ i : Family, a.option? i.name = texts.get i) :
    overridesOf a = .ok o ↔ AreValues texts o := by
  obtain ⟨p, q, r, s⟩ := o
  simp only [areValues_mk_iff, ← h, ← familyOption_eq_ok_iff]
  unfold overridesOf
  cases familyOption a .cogenToGrid <;> cases familyOption a .cogenToOther <;>
    cases familyOption a .district1 <;> cases familyOption a .district2 <;>
    simp [bind, Except.bind, pure, Except.pure]

theorem printFactors_eq_ok_iff (h : ∀ i : Family, a.option? i.name = texts.get i) {s : String} :
    (printFactors a place).1 = .ok s ↔ ∃ o w, AreValues texts o ∧
      Regulation.current.completed (Text.upperText place) o (!a.flag "keep-nepb")
        (a.flag "nearby") = .ok w ∧ s = w.text := by
  unfold printFactors
  cases ho : overridesOf a with
  | error m =>
    constructor
    · intro hs
      cases hs
    · rintro ⟨o, w, ho', -⟩
      rw [(overridesOf_eq_ok_iff h).2 ho'] at ho
      cases ho
  | ok o =>
    have ho := (overridesOf_eq_ok_iff h).1 ho
    have hunique (o' : Overrides) (ho' : AreValues texts o') : o' = o := ho'.unique ho
    simp only [orFail]
    cases hw : Regulation.current.completed (Text.upperText place) o (!a.flag "keep-nepb")
      (a.flag "nearby") with
    | error e =>
      constructor
      · intro hs
        cases hs
      · rintro ⟨o', w, ho', hw', -⟩
        rw [hunique o' ho', hw] at hw'
        cases hw'
    | ok w =>
      constructor
      · rintro ⟨⟩
        exact ⟨o, w, ho, hw, rfl⟩
      · rintro ⟨o', w', ho', hw', rfl⟩
        rw [hunique o' ho', hw] at hw'
        cases hw'
        rfl

/-! ## What it leads to -/

/-- Arguments that give a location, values of the families and the two flags. -/
def Gives (args : List String) (place : String) (texts : PerFamily (Option String))
    (keep nearby : Bool) : Prop :=
  ∃ a : Arguments, Command.factors.signature.read args = some a ∧ a.operands = [place] ∧
    (∀ i : Family, a.option? i.name = texts.get i) ∧ a.flag "keep-nepb" = keep ∧
    a.flag "nearby" = nearby

theorem run_factors (t : Files) (h : a.operands = [place]) :
    Command.factors.run t a = printing t (printFactors a place) := by
  obtain ⟨operands, options, flags⟩ := a
  obtain rfl : operands = [place] := h
  rfl

/-- What the command leads to: the table of the completed factors, or a failure without output. -/
theorem run_of_gives {args : List String} {keep nearby : Bool} (t : Files)
    (h : Gives args place texts keep nearby) :
    (∃ o w, AreValues texts o ∧
      Regulation.current.completed (Text.upperText place) o (!keep) nearby = .ok w ∧
      (run t (Command.factors.name :: args)).exit = 0 ∧
      (run t (Command.factors.name :: args)).stdout = w.text) ∨
    ((∀ o w, AreValues texts o →
      Regulation.current.completed (Text.upperText place) o (!keep) nearby ≠ .ok w) ∧
      (run t (Command.factors.name :: args)).exit = 1 ∧
      (run t (Command.factors.name :: args)).stdout = "") := by
  obtain ⟨a, hread, hplace, htexts, rfl, rfl⟩ := h
  have hrun : run t (Command.factors.name :: args) = printing t (printFactors a place) := by
    have hname : Command.all.find? (fun c => c.name == Command.factors.name) = some .factors := by
      decide
    have hcommand : run t (Command.factors.name :: args) =
        runNamed t (Command.factors.name :: args) := rfl
    rw [hcommand, runNamed, hname]
    simp only [hread]
    exact run_factors t hplace
  rw [hrun]
  have hiff (s : String) : (printFactors a place).1 = .ok s ↔ _ :=
    printFactors_eq_ok_iff htexts
  generalize printFactors a place = y at hiff ⊢
  obtain ⟨y, events⟩ := y
  cases y with
  | error m =>
    refine .inr ⟨fun o w ho hw => ?_, rfl, rfl⟩
    exact absurd ((hiff _).2 ⟨o, w, ho, hw, rfl⟩) nofun
  | ok s =>
    obtain ⟨o, w, ho, hw, rfl⟩ := (hiff s).1 rfl
    exact .inl ⟨o, w, ho, hw, rfl, rfl⟩

/-! ## Its arguments -/

/-- The options that give values of families. -/
def familyEntries (texts : PerFamily (Option String)) (families : List Family) :
    List (String × String) :=
  families.flatMap fun i => (texts.get i).toList.map fun s => (i.name, s)

/-- The flags that are set. -/
def flagEntries (keep nearby : Bool) : List (String × Bool) :=
  (if keep then [("keep-nepb", true)] else []) ++ if nearby then [("nearby", true)] else []

/-- A location, options with the values of families that are given, and flags. -/
def factorsLine (place : String) (texts : PerFamily (Option String)) (keep nearby : Bool) :
    List String :=
  place :: ((familyEntries texts Family.all).flatMap (fun o => ["--" ++ o.1, o.2]) ++
    (flagEntries keep nearby).map fun f => "--" ++ f.1)

theorem scan_operand {g : Signature} (h : isOption place = false) (rest : List String) :
    g.scan (place :: rest) =
      (g.scan rest).map fun a => { a with operands := place :: a.operands } := by
  have hne : place ≠ "--" := by
    rintro rfl
    exact absurd h (by decide)
  rw [Signature.scan, if_neg hne, h]
  rfl

theorem scan_family (i : Family) (s : String) (rest : List String) :
    Command.factors.signature.scan (("--" ++ i.name) :: s :: rest) =
      (Command.factors.signature.scan rest).map fun a =>
        { a with options := (i.name, s) :: a.options } := by
  have hne : "--" ++ i.name ≠ "--" := by cases i <;> decide
  have hoption : isOption ("--" ++ i.name) = true := by cases i <;> decide
  have hsplit : splitOption ("--" ++ i.name) = ("--" ++ i.name, none) := by cases i <;> decide
  have hname : Command.factors.signature.option? ("--" ++ i.name) = some i.name := by
    cases i <;> decide
  rw [Signature.scan, if_neg hne, hoption, hsplit]
  simp only [hname, if_true]

theorem scan_families (families : List Family) (rest : List String) :
    Command.factors.signature.scan
        ((familyEntries texts families).flatMap (fun o => ["--" ++ o.1, o.2]) ++ rest) =
      (Command.factors.signature.scan rest).map fun a =>
        { a with options := familyEntries texts families ++ a.options } := by
  induction families with
  | nil => simp [familyEntries]
  | cons i families ih =>
    cases hs : texts.get i with
    | none => simpa [familyEntries, hs] using ih
    | some s =>
      have hentries : familyEntries texts (i :: families) =
          (i.name, s) :: familyEntries texts families := by simp [familyEntries, hs]
      rw [hentries, List.flatMap_cons, List.append_assoc, List.cons_append, List.cons_append,
        List.nil_append, scan_family, ih, Option.map_map]
      rfl

theorem option?_familyEntries {a : Arguments} (h : a.options = familyEntries texts Family.all)
    (i : Family) : a.option? i.name = texts.get i := by
  obtain ⟨p, q, r, s⟩ := texts
  rw [Arguments.option?, h, lastOf]
  cases p <;> cases q <;> cases r <;> cases s <;> cases i <;> rfl

theorem gives_factorsLine (h : place.toList.head? ≠ some '-') (keep nearby : Bool) :
    Gives (factorsLine place texts keep nearby) place texts keep nearby := by
  have hoption : isOption place = false := by
    unfold isOption
    split
    · rename_i hp
      rw [hp] at h
      exact absurd rfl h
    · rfl
  have hflags :
      Command.factors.signature.scan ((flagEntries keep nearby).map fun f => "--" ++ f.1) =
        some { flags := flagEntries keep nearby } := by
    cases keep <;> cases nearby <;> decide
  refine ⟨⟨[place], familyEntries texts Family.all, flagEntries keep nearby⟩, ?_, rfl,
    option?_familyEntries rfl, ?_, ?_⟩
  · rw [Signature.read, factorsLine, scan_operand hoption, scan_families, hflags]
    simp only [Option.map_some, List.append_nil]
    exact Option.filter_some_pos rfl
  · cases keep <;> cases nearby <;> rfl
  · cases keep <;> cases nearby <;> rfl

/-! ## Agreement -/

theorem normalLocation_eq_upperText (h : Text.IsTrimmed place.toList) :
    RunSettings.normalLocation place = Text.upperText place := by
  rw [RunSettings.normalLocation, Text.trimText, Text.trim_eq_self h, String.ofList_toList]

/-- **The command and a run print the same factors.**  A location without blanks around it that
    does not start with a hyphen can be given to the command, with any texts and flags.  However
    these are given, a run of a bundle with the same location, texts and flags succeeds just if
    the command does and the factor table of the bundle can be read, if there is one; and then it
    writes as completed factors what the command prints.  If the command does not succeed, its
    exit code is 1, and it prints nothing. -/
theorem factors_agree {keep nearby : Bool} (hplace : Text.IsTrimmed place.toList)
    (hhyphen : place.toList.head? ≠ some '-') :
    Gives (factorsLine place texts keep nearby) place texts keep nearby ∧
    ∀ {args : List String} {t₀ t : Files} {p : Path} (label : String),
      Gives args place texts keep nearby → Bundle.IsFor t p place texts (!keep) nearby →
        let o := run t₀ (Command.factors.name :: args)
        let r := Bundle.run t p label .current none
        ((∃ x, r.result = .ok x) ↔ o.exit = 0 ∧ ∃ f, Bundle.readFactors t p = .ok f) ∧
        ((∃ x, r.result = .ok x) →
          r.files.find? (p.child Bundle.completedFile) = some (.file (.raw o.stdout))) ∧
        (o.exit = 0 ∨ o.exit = 1 ∧ o.stdout = "") := by
  refine ⟨gives_factorsLine hhyphen keep nearby, fun {args t₀ t p} label ha hb => ?_⟩
  have hrun {w : FactorTable Float} := hb.result_eq_ok_iff (r := .current) label (w := w)
  rw [normalLocation_eq_upperText hplace] at hrun
  rcases run_of_gives t₀ ha with ⟨o, w, ho, hw, hexit, hout⟩ | ⟨hnone, hexit, hout⟩
  · refine ⟨⟨?_, ?_⟩, ?_, .inl hexit⟩
    · rintro ⟨⟨x, b⟩, hx⟩
      exact ⟨hexit, (hrun.1 ⟨x, b, hx, rfl⟩).1⟩
    · rintro ⟨-, hf⟩
      obtain ⟨x, b, hx, -⟩ := hrun.2 ⟨hf, o, ho, hw⟩
      exact ⟨_, hx⟩
    · rintro ⟨⟨x, b⟩, hx⟩
      obtain ⟨-, o', ho', hw'⟩ := hrun.1 ⟨x, b, hx, rfl⟩
      rw [ho'.unique ho, hw] at hw'
      obtain rfl : w = x.factors := Except.ok.inj hw'
      rw [hout]
      exact Bundle.find?_results_of_run hx (Bundle.completedFile, .raw x.factors.text)
        (by simp [Bundle.results])
  · have hfailed : ¬ ∃ x, (Bundle.run t p label .current none).result = .ok x := by
      rintro ⟨⟨x, b⟩, hx⟩
      obtain ⟨-, o, ho, hw⟩ := hrun.1 ⟨x, b, hx, rfl⟩
      exact hnone o _ ho hw
    refine ⟨iff_of_false hfailed fun h => ?_, fun h => absurd h hfailed, .inr ⟨hexit, hout⟩⟩
    rw [hexit] at h
    exact absurd h.1 (by decide)

/-- A run for a location, with a value for the first district network, for the nearby
    perimeter. -/
def coastFile : Content :=
  .raw "run_id: coast\nlocation: canarias\nred1: 0.5, 0.6\nstrip_nepb: false\nnearby: true\n"

/-- What is in this file. -/
def coastDocument : Document :=
  .object [("run_id", .text "coast"), ("location", .text "canarias"), ("red1", .text "0.5, 0.6"),
    ("strip_nepb", .bool false), ("nearby", .bool true)]

/-- Whether two records have the same texts and truth values under the same names. -/
def sameRecord : Document → Document → Bool
  | .object fields, .object fields' => fields.isEqv fields' fun f g => f.1 == g.1 &&
    match f.2, g.2 with
    | .text s, .text t => s == t
    | .bool b, .bool c => b == c
    | _, _ => false
  | _, _ => false

theorem eq_of_sameRecord {d e : Document} (h : sameRecord d e = true) : d = e := by
  unfold sameRecord at h
  split at h
  · rename_i fields fields'
    congr 1
    induction fields generalizing fields' with
    | nil =>
      cases fields' with
      | nil => rfl
      | cons g fields' => simp at h
    | cons f fields ih =>
      cases fields' with
      | nil => simp at h
      | cons g fields' =>
        obtain ⟨name, value⟩ := f
        obtain ⟨name', value'⟩ := g
        simp only [List.isEqv_cons_cons, Bool.and_eq_true, beq_iff_eq] at h
        obtain ⟨⟨rfl, hvalue⟩, hrest⟩ := h
        rw [ih fields' hrest]
        split at hvalue
        · rw [beq_iff_eq.1 hvalue]
        · rw [beq_iff_eq.1 hvalue]
        · cases hvalue
  · cases h

theorem document_coastFile : coastFile.document = .ok coastDocument := by
  have hsame : (match coastFile.document with
      | .ok d => sameRecord d coastDocument
      | .error _ => false) = true := by decide +kernel
  generalize coastFile.document = x at hsame ⊢
  cases x with
  | error e => cases hsame
  | ok d => rw [eq_of_sameRecord hsame]

/-- The files of this run; a factor table that is astray among them cannot be read. -/
def coastFiles (astray : Bool) : Files :=
  ⟨[(.ofText "coast", .directory),
    (Path.child (.ofText "coast") Bundle.settingsFile, .file coastFile),
    (Path.child (.ofText "coast") Bundle.componentsFile,
      .file (.raw "GASNATURAL, CONSUMO, EPB, CAL, 10\n"))] ++
    if astray then
      [(Path.child (.ofText "coast") Bundle.factorsFile, .file (.raw "no factors\n"))]
    else []⟩

/-- The value of the first district network. -/
def coastTexts : PerFamily (Option String) := ⟨none, none, some "0.5, 0.6", none⟩

theorem configures_coastDocument :
    RunSettings.Configures coastDocument "canarias" coastTexts false true := by
  refine ⟨⟨_, rfl⟩, rfl, fun i => ?_, rfl, rfl, rfl, ⟨_, rfl⟩, ⟨_, rfl⟩, ⟨_, rfl⟩, ⟨_, rfl⟩⟩
  cases i <;> exact .inl rfl

theorem isFor_coastFiles (astray : Bool) :
    Bundle.IsFor (coastFiles astray) (.ofText "coast") "canarias" coastTexts false true where
  settings :=
    ⟨coastFile, coastDocument, by cases astray <;> decide +kernel, document_coastFile,
      configures_coastDocument⟩
  components :=
    ⟨⟨[], [⟨.naturalGas, .assessedUse, .heating, [10], ""⟩]⟩,
      by cases astray <;> decide +kernel⟩
  clear := by cases astray <;> decide +kernel

theorem isTrimmed_canarias : Text.IsTrimmed "canarias".toList := Text.isTrimmed_iff.2 (by decide)

theorem exit_coast :
    (run {} (Command.factors.name :: factorsLine "canarias" coastTexts true true)).exit = 0 := by
  decide +kernel

theorem factors_agree_coast :
    let o := run {} ["wfactors", "canarias", "--red1", "0.5, 0.6", "--keep-nepb", "--nearby"]
    let r := Bundle.run (coastFiles false) (.ofText "coast") "coast" .current none
    o.exit = 0 ∧ (∃ x, r.result = .ok x) ∧
      r.files.find? (Path.child (.ofText "coast") Bundle.completedFile) =
        some (.file (.raw o.stdout)) := by
  obtain ⟨hgives, hagree⟩ :=
    @factors_agree coastTexts "canarias" true true isTrimmed_canarias (by decide)
  obtain ⟨hiff, hfile, -⟩ := @hagree _ {} _ _ "coast" hgives (isFor_coastFiles false)
  have hrun := hiff.2 ⟨exit_coast, none, by decide +kernel⟩
  exact ⟨exit_coast, hrun, hfile hrun⟩

/-- The command does not read the factor table that stops the run. -/
theorem not_exit_iff_run :
    ¬ ∀ (place : String) (texts : PerFamily (Option String)) (keep nearby : Bool)
        (args : List String) (t₀ t : Files) (p : Path) (label : String),
      Text.IsTrimmed place.toList → place.toList.head? ≠ some '-' →
      Gives args place texts keep nearby → Bundle.IsFor t p place texts (!keep) nearby →
        ((run t₀ (Command.factors.name :: args)).exit = 0 ↔
          ∃ x, (Bundle.run t p label .current none).result = .ok x) := by
  intro h
  have hiff := h "canarias" coastTexts true true (factorsLine "canarias" coastTexts true true) {}
    (coastFiles true) (.ofText "coast") "coast" isTrimmed_canarias (by decide)
    (gives_factorsLine (by decide) true true) (isFor_coastFiles true)
  obtain ⟨⟨x, b⟩, hx⟩ := hiff.1 exit_coast
  obtain ⟨⟨f, hf⟩, -⟩ := ((isFor_coastFiles true).result_eq_ok_iff "coast").1 ⟨x, b, hx, rfl⟩
  have hunreadable : (Bundle.readFactors (coastFiles true) (.ofText "coast")).isOk = false := by
    decide +kernel
  rw [hf] at hunreadable
  cases hunreadable

end CommandLine

end PrimaryEnergy
