/-
  Files of one directory.

  A path may lead to its directory through others; what is written into a directory goes to
  one place, and the way there stays.

  * `IsFolder.find?_child`: a name is looked up at the place of the directory;
  * `isFolder_of_makeDirectories` and `IsFolder.makeDirectories_eq_self`: directories that are
    made are there, and are not made again;
  * `Wrote`: under each name there is what was written last, or else what was there;
  * `IsFolder.writeAll_children`: files are written up to the first that is not accepted;
  * `IsFolder.isDirectory_of_read` and `IsFolder.isDirectory_of_writeAll`: why not.
-/
import Mathlib.Data.List.TakeWhile
import PrimaryEnergy.Files.Tree

namespace PrimaryEnergy

namespace Path

theorem isAbove_child {q : Path} {name : String} (hn : name ≠ upward) :
    (q.child name).isAbove = false := by
  simp [isAbove, child, hn]

end Path

namespace FileTree

variable {γ : Type} {t t' : FileTree γ} {p q r : Path} {name : String} {c : γ}

/-! ## Ways -/

theorem follow_eq_ok_iff {here next : Path} :
    t.follow here name = .ok next ↔ t.get? here = some .directory ∧ here.step name = next := by
  unfold follow
  cases t.get? here with
  | none => simp
  | some n => cases n <;> simp

/-- A way through directories is there in every tree with these directories. -/
theorem locate_mono (hd : ∀ r, t.get? r = some .directory → t'.get? r = some .directory)
    (h : t.locate p = .ok q) : t'.locate p = .ok q := by
  rw [locate_eq_ok_iff] at h ⊢
  generalize p.start = here at h ⊢
  generalize p.parts = names at h ⊢
  induction names generalizing here with
  | nil => exact h
  | cons name names ih =>
    rw [List.foldlM_cons] at h ⊢
    cases hf : t.follow here name with
    | error e => rw [hf] at h; cases h
    | ok next =>
      rw [hf] at h
      obtain ⟨hh, hs⟩ := follow_eq_ok_iff.1 hf
      rw [follow_eq_ok_iff.2 ⟨hd _ hh, hs⟩]
      exact ih next h

/-- Where there is no directory, nothing leads through. -/
theorem get?_put_of_directory {n : Node γ} (hr : t.get? r ≠ some .directory)
    (h : t.get? q = some .directory) : (t.put r n).get? q = some .directory := by
  have hne : q ≠ r := by
    rintro rfl
    exact hr h
  rw [get?_put_of_ne t n hne, h]

/-! ## Directories -/

/-- A path leads to a directory, which is at the place `q`. -/
structure IsFolder (t : FileTree γ) (p q : Path) : Prop where
  /-- The path leads to the place. -/
  located : t.locate p = .ok q
  /-- There is a directory. -/
  isDirectory : t.get? q = some .directory

namespace IsFolder

theorem mono (hd : ∀ r, t.get? r = some .directory → t'.get? r = some .directory)
    (h : t.IsFolder p q) : t'.IsFolder p q :=
  ⟨locate_mono hd h.located, hd q h.isDirectory⟩

theorem put {n : Node γ} (h : t.IsFolder p q) (hr : t.get? r ≠ some .directory) :
    (t.put r n).IsFolder p q :=
  h.mono fun _ => get?_put_of_directory hr

theorem has (h : t.IsFolder p q) : t.has p = true := by
  simp [FileTree.has, find?, h.located, h.isDirectory]

theorem find?_child (h : t.IsFolder p q) (hn : name ≠ Path.upward) :
    t.find? (p.child name) = t.get? (q.child name) := by
  simp only [find?, locate_child h.located h.isDirectory hn]

/-- What is found under a name decides what is read. -/
theorem read_child_eq (h : t.IsFolder p q) (hn : name ≠ Path.upward) :
    t.read (p.child name) =
      match t.find? (p.child name) with
      | some (.file c) => .ok c
      | some .directory => .error (.isDirectory (p.child name))
      | none => .error (.noSuchFile (p.child name)) := by
  rw [h.find?_child hn]
  cases hg : t.get? (q.child name) with
  | none => simp only [read, locate_child h.located h.isDirectory hn, hg]
  | some n => cases n <;> simp only [read, locate_child h.located h.isDirectory hn, hg]

/-- A file is read where it is found. -/
theorem read_child (h : t.IsFolder p q) (hn : name ≠ Path.upward)
    (hf : t.find? (p.child name) = some (.file c)) : t.read (p.child name) = .ok c := by
  rw [h.read_child_eq hn, hf]

/-- Of what is there, only a directory cannot be read. -/
theorem isDirectory_of_read (h : t.IsFolder p q) (hn : name ≠ Path.upward)
    (hh : t.has (p.child name) = true) {e : FileFault} (he : t.read (p.child name) = .error e) :
    e = .isDirectory (p.child name) := by
  rw [h.read_child_eq hn] at he
  rw [FileTree.has] at hh
  cases hf : t.find? (p.child name) with
  | none => simp [hf] at hh
  | some n => cases n <;> simp_all

end IsFolder

theorem has_of_read (h : t.read p = .ok c) : t.has p = true := by
  unfold read at h
  unfold FileTree.has find?
  cases hl : t.locate p with
  | error e => simp [hl] at h
  | ok q => cases hg : t.get? q <;> simp [hl, hg] at h ⊢

/-- A way that goes on behind a path leads through a directory. -/
theorem isFolder_of_locate_child (h : t.locate (p.child name) = .ok r) : ∃ q, t.IsFolder p q := by
  have hp : (p.parts ++ [name]).foldlM t.follow p.start = .ok r := locate_eq_ok_iff.1 h
  rw [List.foldlM_append] at hp
  cases hq : p.parts.foldlM t.follow p.start with
  | error e => rw [hq] at hp; cases hp
  | ok q =>
    rw [hq] at hp
    cases hf : t.follow q name with
    | error e => simp [bind, Except.bind, hf] at hp
    | ok next => exact ⟨q, locate_eq_ok_iff.2 hq, (follow_eq_ok_iff.1 hf).1⟩

theorem isFolder_of_read_child (h : t.read (p.child name) = .ok c) : ∃ q, t.IsFolder p q := by
  unfold read at h
  cases hl : t.locate (p.child name) with
  | error e => rw [hl] at h; cases h
  | ok r => exact isFolder_of_locate_child hl

/-! ## Making directories -/

theorem isFolder_of_makeDirectory (h : t.makeDirectory p = .ok t') : ∃ q, t'.IsFolder p q := by
  unfold makeDirectory at h
  cases hl : t.locate p with
  | error e => simp [hl] at h
  | ok q =>
    cases hg : t.get? q with
    | some n =>
      cases n with
      | directory =>
        simp only [hl, hg, Except.ok.injEq] at h
        subst h
        exact ⟨q, hl, hg⟩
      | file c => simp [hl, hg] at h
    | none =>
      simp only [hl, hg, Except.ok.injEq] at h
      subst h
      have hq : q.isAbove = false := by
        rw [Bool.eq_false_iff]
        intro ha
        simp [get?, ha] at hg
      have hd : t.get? q ≠ some .directory := by simp [hg]
      exact ⟨q, locate_mono (fun _ => get?_put_of_directory hd) hl, get?_put t _ hq⟩

theorem IsFolder.makeDirectory_eq_self (h : t.IsFolder p q) : t.makeDirectory p = .ok t := by
  simp only [makeDirectory, h.located, h.isDirectory]

theorem isFolder_of_makeDirectories (h : t.makeDirectories p = .ok t') : ∃ q, t'.IsFolder p q := by
  unfold makeDirectories onTheWay at h
  rw [List.range_succ, List.map_append, List.foldlM_append] at h
  cases hi : ((List.range p.parts.length).map fun n => { p with parts := p.parts.take n }).foldlM
    (fun t q => (t.makeDirectory q).mapError fun e => if q = p then e else .notDirectory p) t with
  | error e => rw [hi] at h; cases h
  | ok u =>
    rw [hi] at h
    have hp : ({ p with parts := p.parts.take p.parts.length } : Path) = p := by
      rw [List.take_length]
    cases hu : u.makeDirectory p with
    | error e => simp [bind, Except.bind, hu, Except.mapError] at h
    | ok v =>
      have hv : v = t' := by
        simpa [bind, Except.bind, pure, Except.pure, hp, hu, Except.mapError] using h
      exact isFolder_of_makeDirectory (hv ▸ hu)

/-- The directories on the way to a directory. -/
theorem IsFolder.onTheWay (h : t.IsFolder p q) (hr : r ∈ onTheWay p) : ∃ q', t.IsFolder r q' := by
  obtain ⟨n, -, rfl⟩ := List.mem_map.1 hr
  have hp := locate_eq_ok_iff.1 h.located
  rw [← List.take_append_drop n p.parts, List.foldlM_append] at hp
  cases hh : (p.parts.take n).foldlM t.follow p.start with
  | error e => rw [hh] at hp; cases hp
  | ok here =>
    rw [hh] at hp
    refine ⟨here, locate_eq_ok_iff.2 hh, ?_⟩
    -- the rest of the way starts at this place
    cases hd : p.parts.drop n with
    | nil =>
      rw [hd] at hp
      cases hp
      exact h.isDirectory
    | cons name names =>
      rw [hd] at hp
      cases hf : t.follow here name with
      | error e => simp [bind, Except.bind, hf] at hp
      | ok next => exact (follow_eq_ok_iff.1 hf).1

theorem IsFolder.makeDirectories_eq_self (h : t.IsFolder p q) : t.makeDirectories p = .ok t := by
  have hw : ∀ r ∈ FileTree.onTheWay p, t.makeDirectory r = .ok t := fun r hr => by
    obtain ⟨q', hq'⟩ := h.onTheWay hr
    exact hq'.makeDirectory_eq_self
  unfold makeDirectories
  generalize FileTree.onTheWay p = ways at hw ⊢
  induction ways with
  | nil => rfl
  | cons r rs ih =>
    rw [List.foldlM_cons, hw r List.mem_cons_self]
    exact ih fun r hr => hw r (List.mem_cons_of_mem _ hr)

/-! ## What a directory holds -/

/-- What a directory holds under a name, once the directory is made. -/
def held (t : FileTree γ) (p : Path) (name : String) : Option (Node γ) :=
  match t.makeDirectories p with
  | .ok t => t.find? (p.child name)
  | .error _ => none

theorem IsFolder.held_eq (h : t.IsFolder p q) : t.held p name = t.find? (p.child name) := by
  simp only [held, h.makeDirectories_eq_self]

theorem held_of_makeDirectories (h : t.makeDirectories p = .ok t') :
    t'.held p name = t.held p name := by
  obtain ⟨q, hq⟩ := isFolder_of_makeDirectories h
  simp only [held, h, hq.makeDirectories_eq_self]

/-- Whether a file can be written under a name: there is no directory. -/
def accepts (t : FileTree γ) (p : Path) (name : String) : Bool :=
  match t.held p name with
  | some .directory => false
  | _ => true

theorem accepts_iff : t.accepts p name = true ↔ t.held p name ≠ some .directory := by
  unfold accepts
  split <;> simp_all

/-- A file is written into a directory just if its name is accepted. -/
theorem IsFolder.write_child_eq_ok_iff (h : t.IsFolder p q) (hn : name ≠ Path.upward) :
    t.write (p.child name) c = .ok t' ↔
      t.accepts p name = true ∧ t' = t.put (q.child name) (.file c) := by
  have hp : t.get? (q.child name).parent = some .directory := by
    rw [Path.parent_child, h.isDirectory]
  rw [accepts_iff, h.held_eq, h.find?_child hn]
  simp only [write, locate_child h.located h.isDirectory hn, hp]
  cases t.get? (q.child name) with
  | none => simp [eq_comm]
  | some n => cases n <;> simp [eq_comm]

/-- Only a directory keeps a file from being written. -/
theorem IsFolder.isDirectory_of_write (h : t.IsFolder p q) (hn : name ≠ Path.upward)
    {e : FileFault} (he : t.write (p.child name) c = .error e) :
    e = .isDirectory (p.child name) := by
  have hp : t.get? (q.child name).parent = some .directory := by
    rw [Path.parent_child, h.isDirectory]
  simp only [write, locate_child h.located h.isDirectory hn, hp] at he
  cases hg : t.get? (q.child name) with
  | none => simp [hg] at he
  | some n => cases n <;> simp_all

theorem IsFolder.put_child (h : t.IsFolder p q) (hn : name ≠ Path.upward)
    (ha : t.accepts p name = true) : (t.put (q.child name) (.file c)).IsFolder p q := by
  rw [accepts_iff, h.held_eq, h.find?_child hn] at ha
  exact h.put ha

/-- What a directory holds after a file is written. -/
theorem IsFolder.held_put_child (h : t.IsFolder p q) (hn : name ≠ Path.upward)
    (ha : t.accepts p name = true) {name' : String} (hn' : name' ≠ Path.upward) :
    (t.put (q.child name) (.file c)).held p name' =
      if name' = name then some (.file c) else t.held p name' := by
  have hq := h.put_child (c := c) hn ha
  rw [hq.held_eq, hq.find?_child hn', h.held_eq, h.find?_child hn']
  split
  · next e => rw [e, get?_put t _ (Path.isAbove_child hn)]
  · next e => exact get?_put_of_ne t _ fun e' => e (Path.child_inj.1 e')

/-! ## Writes -/

/-- What the last of several writes leaves under a name. -/
def lastWrite (ws : List (String × γ)) (name : String) : Option (Node γ) :=
  (ws.reverse.lookup name).map .file

theorem lastWrite_append (ws ws' : List (String × γ)) (name : String) :
    lastWrite (ws ++ ws') name = (lastWrite ws' name).or (lastWrite ws name) := by
  simp only [lastWrite, List.reverse_append, List.lookup_append, Option.map_or]

theorem isSome_lastWrite_iff {ws : List (String × γ)} :
    (lastWrite ws name).isSome ↔ name ∈ ws.map (·.1) := by
  simp only [lastWrite, Option.isSome_map, List.lookup_isSome_iff, List.mem_reverse, beq_iff_eq,
    List.mem_map]
  exact exists_congr fun _ => and_congr_right fun _ => eq_comm

/-- With distinct names, each write is the last one under its name. -/
theorem lastWrite_of_mem {ws : List (String × γ)} (hn : (ws.map (·.1)).Nodup)
    (hf : (name, c) ∈ ws) : lastWrite ws name = some (.file c) := by
  induction ws with
  | nil => cases hf
  | cons w ws ih =>
    obtain ⟨hw, hws⟩ := List.nodup_cons.1 hn
    rw [← List.singleton_append, lastWrite_append]
    rcases List.mem_cons.1 hf with rfl | hf
    · have hnone : lastWrite ws name = none := by
        rwa [← Option.not_isSome_iff_eq_none, isSome_lastWrite_iff]
      rw [hnone, Option.none_or]
      simp [lastWrite]
    · rw [ih hws hf, Option.some_or]

/-- The tree `t'` has come from `t` by writes into one directory. -/
def Wrote (p : Path) (ws : List (String × γ)) (t t' : FileTree γ) : Prop :=
  ∀ name ≠ Path.upward, t'.held p name = (lastWrite ws name).or (t.held p name)

namespace Wrote

variable {ws ws' : List (String × γ)} {u : FileTree γ}

theorem refl (t : FileTree γ) : Wrote p [] t t := fun _ _ => rfl

theorem trans (h : Wrote p ws t t') (h' : Wrote p ws' t' u) : Wrote p (ws ++ ws') t u := by
  intro name hn
  rw [h' name hn, h name hn, lastWrite_append, Option.or_assoc]

theorem put_child (h : t.IsFolder p q) (hn : name ≠ Path.upward) (ha : t.accepts p name = true) :
    Wrote p [(name, c)] t (t.put (q.child name) (.file c)) := by
  intro name' hn'
  rw [h.held_put_child hn ha hn']
  by_cases he : name' = name
  · simp [lastWrite, he]
  · simp [lastWrite, List.lookup_cons, he, beq_eq_false_iff_ne.2 he]

/-- What is there stays, and what is new has been written. -/
theorem isSome_held_iff (h : Wrote p ws t t') (hn : name ≠ Path.upward) :
    (t'.held p name).isSome ↔ name ∈ ws.map (·.1) ∨ (t.held p name).isSome := by
  rw [h name hn, Option.isSome_or, Bool.or_eq_true, isSome_lastWrite_iff]

/-- Writes change nothing about which names are accepted. -/
theorem accepts_eq (h : Wrote p ws t t') (hws : ∀ f ∈ ws, t.accepts p f.1 = true)
    (hn : name ≠ Path.upward) : t'.accepts p name = t.accepts p name := by
  rw [Bool.eq_iff_iff, accepts_iff, accepts_iff, h name hn]
  cases hl : lastWrite ws name with
  | none => rw [Option.none_or]
  | some n =>
    obtain ⟨f, hf, rfl⟩ := List.mem_map.1 (isSome_lastWrite_iff.1 (Option.isSome_of_eq_some hl))
    obtain ⟨c, -, rfl⟩ := Option.map_eq_some_iff.1 hl
    simp [accepts_iff.1 (hws f hf)]

end Wrote

/-- Files of a directory. -/
def children (p : Path) (files : List (String × γ)) : List (Path × γ) :=
  files.map fun f => (p.child f.1, f.2)

/-- **Writing into a directory.**  The files up to the first that is not accepted are
    written. -/
theorem IsFolder.writeAll_children {files : List (String × γ)} {g : String × γ → Bool}
    (h : t.IsFolder p q) (hn : ∀ f ∈ files, f.1 ≠ Path.upward)
    (hg : ∀ f ∈ files, g f = t.accepts p f.1) :
    (t.writeAll (children p files)).1.IsFolder p q ∧
      Wrote p (files.takeWhile g) t (t.writeAll (children p files)).1 ∧
      ((t.writeAll (children p files)).2 = none ↔ ∀ f ∈ files, g f = true) := by
  induction files generalizing t with
  | nil => exact ⟨h, .refl t, by simp [children, writeAll]⟩
  | cons f fs ih =>
    obtain ⟨name, c⟩ := f
    obtain ⟨hname, hnames⟩ := List.forall_mem_cons.1 hn
    obtain ⟨hfirst, hrest⟩ := List.forall_mem_cons.1 hg
    rw [List.forall_mem_cons, List.takeWhile_cons, hfirst]
    simp only [children, List.map_cons, writeAll]
    cases hw : t.write (p.child name) c with
    | error e =>
      have ha : t.accepts p name = false := by
        rw [Bool.eq_false_iff]
        intro ha
        rw [(h.write_child_eq_ok_iff hname).2 ⟨ha, rfl⟩] at hw
        cases hw
      rw [ha]
      exact ⟨h, .refl t, by simp⟩
    | ok u =>
      obtain ⟨ha, rfl⟩ := (h.write_child_eq_ok_iff hname).1 hw
      have hput := Wrote.put_child (c := c) h hname ha
      obtain ⟨hf, hws, hnone⟩ := ih (h.put_child (c := c) hname ha) hnames fun f hf => by
        rw [hrest f hf, hput.accepts_eq (by simp [ha]) (hnames f hf)]
      rw [ha, and_iff_right rfl]
      exact ⟨hf, hput.trans hws, hnone⟩

/-- Files are not all written only because of a directory under one of the names. -/
theorem IsFolder.isDirectory_of_writeAll {files : List (String × γ)} (h : t.IsFolder p q)
    (hn : ∀ f ∈ files, f.1 ≠ Path.upward) {e : FileFault}
    (he : (t.writeAll (children p files)).2 = some e) :
    ∃ f ∈ files, e = .isDirectory (p.child f.1) := by
  induction files generalizing t with
  | nil => cases he
  | cons f fs ih =>
    obtain ⟨hname, hnames⟩ := List.forall_mem_cons.1 hn
    simp only [children, List.map_cons, writeAll] at he
    cases hw : t.write (p.child f.1) f.2 with
    | error e' =>
      rw [hw] at he
      cases he
      exact ⟨f, List.mem_cons_self, h.isDirectory_of_write hname hw⟩
    | ok u =>
      rw [hw] at he
      obtain ⟨ha, rfl⟩ := (h.write_child_eq_ok_iff hname).1 hw
      obtain ⟨g, hg, hge⟩ := ih (h.put_child hname ha) hnames he
      exact ⟨g, List.mem_cons_of_mem _ hg, hge⟩

/-- If no name is refused, all files are written. -/
theorem IsFolder.wrote_of_writeAll_children {files : List (String × γ)} (h : t.IsFolder p q)
    (hn : ∀ f ∈ files, f.1 ≠ Path.upward)
    (hw : t.writeAll (children p files) = (t', none)) :
    t'.IsFolder p q ∧ Wrote p files t t' := by
  obtain ⟨hf, hws, hnone⟩ := h.writeAll_children hn fun f _ => (rfl : _ = t.accepts p f.1)
  rw [hw] at hf hws hnone
  rw [List.takeWhile_eq_self_iff.2 (hnone.1 rfl)] at hws
  exact ⟨hf, hws⟩

end FileTree

end PrimaryEnergy
