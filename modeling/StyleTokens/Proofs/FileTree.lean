import StyleTokens.File.Tree
import StyleTokens.Proofs.Basic

/-!
What the operations on a tree of files change.

* `FileTree.get?_put`: what stands at a location that is given an entry, and elsewhere;
  `file?_eq_some_iff`, `hasDirectory_iff`: files and directories as entries;
* `FileTree.walk_cons_eq_ok_iff`, `FileTree.walk_append`: names that can be followed, one after the
  other;
* `FileTree.resolve_eq_of_follow`, `FileTree.resolve_eq_of_target`: a path name that can be followed
  leads to its location;
* `FileTree.Reaches`: what a path name must be like for its last name to have a place;
* `FileTree.Grows`: directories are made at some locations where nothing was, and nothing else
  happens; `Grows.get?_eq_or`, `Grows.eq_of_get?`: what that leaves;
* `Pathname.LeadsThrough`: the locations on the way to the last name of a path name;
* `FileTree.makeDirectories_grows`, `FileTree.install_ok`, `FileTree.install_error`: what is left when
  directories are made and when a file is written, also if that fails.
-/

namespace StyleTokens

/-- The location is one that the path name leads through, before its last name. -/
def Pathname.LeadsThrough (cwd : Location) (p : Pathname) (l : Location) : Prop :=
  ∃ k < p.parts.length, l = ({ p with parts := p.parts.take k } : Pathname).resolve cwd

namespace FileTree

variable {t t' t'' : FileTree} {cwd l l' : Location} {p : Pathname} {ways : Location → Prop}

/-! ### Entries -/

/-- An entry stands at the location that was given it, and other locations keep theirs. -/
lemma get?_put (hl : l ≠ []) (e : Entry) (k : Location) :
    (t.put l e).get? k = if k = l then some e else t.get? k := by
  have hlookup : (putEntry l e t.entries).lookup k
      = if k = l then some e else t.entries.lookup k :=
    lookup_of_put (putEntry l e) rfl (fun _ _ _ => rfl) t.entries k
  simp only [get?, put, hlookup]
  by_cases hk : k = []
  · have hne : k ≠ l := fun h => hl (h.symm.trans hk)
    rw [if_pos hk, if_neg hne, if_pos hk]
  · rw [if_neg hk, if_neg hk]

/-- A location has a file if and only if that is its entry. -/
lemma file?_eq_some_iff {content : List UInt8} {stamp : Stamp} :
    t.file? l = some (content, stamp) ↔ t.get? l = some (.file content stamp) := by
  rw [file?]
  split
  · next h => simp [h]
  · next h => simpa using h content stamp

lemma hasDirectory_iff : t.hasDirectory l = true ↔ t.get? l = some .directory := by
  rw [hasDirectory]
  split
  · next h => simp [h]
  · next h => simpa using h

/-! ### Following path names -/

/-- A name is followed from a directory: double dots back, and other names to what stands there. -/
lemma walk_cons_eq_ok_iff {name : String} {names : List String} :
    t.walk l (name :: names) = .ok l' ↔ t.hasDirectory l ∧
      (name = ".." ∧ t.walk l.dropLast names = .ok l' ∨
        name ≠ ".." ∧ name.utf8ByteSize ≤ nameLimit ∧ (t.get? (l ++ [name])).isSome ∧
          t.walk (l ++ [name]) names = .ok l') := by
  rw [walk]
  by_cases hdir : t.hasDirectory l
  · by_cases hdots : name = ".."
    · simp [hdir, hdots]
    · by_cases hshort : nameLimit < name.utf8ByteSize
      · simp [hdir, hdots, hshort, Nat.not_le.mpr hshort]
      · by_cases hstands : (t.get? (l ++ [name])).isSome
        · simp [hdir, hdots, hshort, hstands, Nat.not_lt.mp hshort]
        · simp [hdir, hdots, hshort, hstands]
  · simp [hdir]

/-- Names are followed one after the other. -/
lemma walk_append {names names' : List String} (h : t.walk l names = .ok l') :
    t.walk l (names ++ names') = t.walk l' names' := by
  induction names generalizing l with
  | nil =>
      obtain rfl : l = l' := Except.ok.inj h
      rfl
  | cons name names ih =>
      obtain ⟨hdir, ⟨hdots, hrest⟩ | ⟨hdots, hshort, hstands, hrest⟩⟩ := walk_cons_eq_ok_iff.mp h
      · rw [List.cons_append, walk, if_pos hdir, if_pos hdots, ih hrest]
      · rw [List.cons_append, walk, if_pos hdir, if_neg hdots, if_neg (Nat.not_lt.mpr hshort),
          if_pos hstands, ih hrest]

/-- Names that can be followed lead to the location that they spell. -/
lemma eq_foldl_of_walk {names : List String} (h : t.walk l names = .ok l') :
    l' = names.foldl Location.step l := by
  induction names generalizing l with
  | nil => exact (Except.ok.inj h).symm
  | cons name names ih =>
      rw [List.foldl_cons, Location.step]
      rcases (walk_cons_eq_ok_iff.mp h).2 with ⟨hdots, hrest⟩ | ⟨hdots, -, -, hrest⟩
      · rw [if_pos hdots]
        exact ih hrest
      · rw [if_neg hdots]
        exact ih hrest

/-- A path name that can be followed leads to its location. -/
lemma resolve_eq_of_follow (h : t.follow cwd p = .ok l) : l = p.resolve cwd := by
  rw [follow] at h
  split at h
  · exact absurd h (by simp)
  · exact eq_foldl_of_walk h

/-- Something that stands at a path name stands at the location that the path name leads to. -/
lemma exists_follow_of_entryAt? {e : Entry} (h : t.entryAt? cwd p = .ok (some e)) :
    ∃ l, t.follow cwd p = .ok l ∧ t.get? l = some e := by
  rw [entryAt?] at h
  split at h
  · next l hl => exact ⟨l, hl, Except.ok.inj h⟩
  · cases h
  · cases h

/-- The path name has a last name, which is no double dots and not too long, and the names before it lead
to a directory around it. -/
structure Reaches (t : FileTree) (cwd : Location) (p : Pathname) (around : Location)
    (name : String) : Prop where
  fault : p.fault? = none
  parts : p.parts = p.parent.parts ++ [name]
  follow : t.follow cwd p.parent = .ok around
  directory : t.hasDirectory around
  ne_dots : name ≠ ".."
  short : name.utf8ByteSize ≤ nameLimit

/-- The place of a last name lies in the directory that the names before it lead to. -/
lemma exists_reaches_of_target (h : t.target cwd p = .ok (some l)) :
    ∃ around name, t.Reaches cwd p around name ∧ l = around ++ [name] := by
  rw [target] at h
  split at h
  · cases h
  · next name hname =>
      split at h
      · obtain ⟨_, -, hnone⟩ := exists_of_map_eq_ok h
        cases hnone
      · next hdots =>
          cases hfault : p.fault? with
          | some fault => rw [hfault] at h; cases h
          | none =>
              rw [hfault] at h
              obtain ⟨around, haround, h⟩ := exists_of_bind_eq_ok h
              dsimp only at h
              split at h
              · cases h
              · next hdir =>
                  split at h
                  · cases h
                  · next hshort =>
                      have hparts : p.parts = p.parent.parts ++ [name] :=
                        (List.dropLast_append_getLast? name hname).symm
                      have hreaches : t.Reaches cwd p around name :=
                        ⟨hfault, hparts, haround, by simpa using hdir, hdots, Nat.not_lt.mp hshort⟩
                      exact ⟨around, name, hreaches, (Option.some.inj (Except.ok.inj h)).symm⟩

/-- The place of the last name of a path name is its location, which is not the root. -/
lemma resolve_eq_of_target (h : t.target cwd p = .ok (some l)) : l = p.resolve cwd ∧ l ≠ [] := by
  obtain ⟨around, name, hreaches, rfl⟩ := exists_reaches_of_target h
  refine ⟨?_, by simp⟩
  rw [Pathname.resolve, hreaches.parts, List.foldl_append, List.foldl_cons, List.foldl_nil,
    Location.step, if_neg hreaches.ne_dots, resolve_eq_of_follow hreaches.follow]
  rfl

/-! ### Making directories -/

/-- Directories are made one after the other at some of the given locations, each where nothing
was. -/
inductive Grows (ways : Location → Prop) (t : FileTree) : FileTree → Prop where
  | refl : Grows ways t t
  | snoc {t' : FileTree} {l : Location} : Grows ways t t' → ways l → l ≠ [] → t'.get? l = none →
      Grows ways t (t'.put l .directory)

namespace Grows

lemma trans (h : Grows ways t t') (h' : Grows ways t' t'') : Grows ways t t'' := by
  induction h' with
  | refl => exact h
  | snoc _ hl hne hnone ih => exact ih.snoc hl hne hnone

lemma mono {ways' : Location → Prop} (h : Grows ways t t') (hways : ∀ l, ways l → ways' l) :
    Grows ways' t t' := by
  induction h with
  | refl => exact .refl
  | snoc _ hl hne hnone ih => exact ih.snoc (hways _ hl) hne hnone

/-- Every location keeps what it has, or is one where nothing was and a directory is now. -/
lemma get?_eq_or (h : Grows ways t t') (l : Location) :
    t'.get? l = t.get? l ∨ t.get? l = none ∧ t'.get? l = some .directory ∧ ways l := by
  induction h with
  | refl => exact .inl rfl
  | @snoc t₁ l₁ _ hl hne hnone ih =>
      rw [get?_put hne]
      split
      · next heq =>
          subst heq
          rcases ih with ih | ⟨-, hdir, -⟩
          · exact .inr ⟨ih ▸ hnone, rfl, hl⟩
          · exact absurd (hnone.symm.trans hdir) (by simp)
      · exact ih

/-- If no directory is new, nothing has happened. -/
lemma eq_of_get? (h : Grows ways t t')
    (hnone : ∀ l, ways l → t.get? l = none → t'.get? l = none) : t' = t := by
  cases h with
  | refl => rfl
  | @snoc t₁ l h hl hne hnew =>
      have hput : (t₁.put l .directory).get? l = some .directory := by
        rw [get?_put hne, if_pos rfl]
      rcases h.get?_eq_or l with hsame | ⟨-, hdir, -⟩
      · exact absurd (hput.symm.trans (hnone l hl (hsame ▸ hnew))) (by simp)
      · exact absurd (hnew.symm.trans hdir) (by simp)

/-- Directories do not count as changes of files. -/
lemma ticks_eq (h : Grows ways t t') : t'.ticks = t.ticks := by
  induction h with
  | refl => rfl
  | snoc _ _ _ _ ih => exact ih

end Grows

/-- One directory is made at the location of its path name, where nothing was. -/
lemma makeDirectory_ok (h : t.makeDirectory cwd p = .ok t') :
    p.resolve cwd ≠ [] ∧ t.get? (p.resolve cwd) = none ∧
      t' = t.put (p.resolve cwd) .directory := by
  rw [makeDirectory] at h
  obtain ⟨place, hplace, h⟩ := exists_of_bind_eq_ok h
  cases place with
  | none => cases h
  | some l =>
      obtain ⟨rfl, hne⟩ := resolve_eq_of_target hplace
      dsimp only at h
      split at h
      · cases h
      · next hnone => exact ⟨hne, by simpa using hnone, (Except.ok.inj h).symm⟩

lemma ensureDirectory_grows (t : FileTree) (cwd : Location) (p : Pathname) :
    Grows (· = p.resolve cwd) t (t.ensureDirectory cwd p).1 := by
  rw [ensureDirectory]
  split
  · next t' h =>
      obtain ⟨hne, hnone, rfl⟩ := makeDirectory_ok h
      exact .snoc .refl rfl hne hnone
  · exact .refl

/-- **Making directories changes the locations of the path name and those around it alone**, and only
where nothing was, whether or not it fails. -/
theorem makeDirectories_grows (cwd : Location) (p : Pathname) (count : ℕ) (t : FileTree) :
    Grows (fun l => ∃ k ≤ count, l = ({ p with parts := p.parts.take k } : Pathname).resolve cwd)
      t (makeDirectories cwd p count t).1 := by
  induction count generalizing t with
  | zero => exact .refl
  | succ count ih =>
      have hlast : ∀ t : FileTree, Grows (fun l => ∃ k ≤ count + 1,
          l = ({ p with parts := p.parts.take k } : Pathname).resolve cwd) t
          (t.ensureDirectory cwd { p with parts := p.parts.take (count + 1) }).1 :=
        fun t => (ensureDirectory_grows t cwd _).mono fun l hl => ⟨count + 1, Nat.le_refl _, hl⟩
      have hbefore : Grows (fun l => ∃ k ≤ count + 1,
          l = ({ p with parts := p.parts.take k } : Pathname).resolve cwd) t
          (makeDirectories cwd p count t).1 :=
        (ih t).mono fun l ⟨k, hk, hl⟩ => ⟨k, by omega, hl⟩
      rw [makeDirectories]
      split
      · split
        · next t₁ h =>
            rw [h] at hbefore
            exact hbefore.trans (hlast t₁)
        · exact hbefore
      · exact hlast t

/-! ### Writing files -/

variable {content : List UInt8} {stamp : Option Stamp}

/-- A file is written at the location of its path name, where no directory stands. -/
lemma writeFile_ok (h : t.writeFile cwd p content stamp = .ok t') :
    p.resolve cwd ≠ [] ∧ t.get? (p.resolve cwd) ≠ some .directory ∧
      t' = { t.put (p.resolve cwd) (.file content (stamp.getD (.tick t.ticks))) with
        ticks := t.ticks + 1 } := by
  rw [writeFile] at h
  split at h
  · cases h
  · cases h
  · next l hplace =>
      obtain ⟨rfl, hne⟩ := resolve_eq_of_target hplace
      split at h
      · cases h
      · next hdir => exact ⟨hne, fun hd => hdir hd, (Except.ok.inj h).symm⟩

/-- Before a file is written, directories are made on the way of its path name alone. -/
lemma makeDirectories_leadsThrough (t : FileTree) (cwd : Location) (p : Pathname) :
    Grows (p.LeadsThrough cwd) t
      (makeDirectories cwd p.parent p.parent.parts.length t).1 := by
  cases hparts : p.parts with
  | nil =>
      rw [Pathname.parent, hparts]
      exact .refl
  | cons name names =>
      refine (makeDirectories_grows cwd p.parent _ t).mono ?_
      rintro l ⟨k, hk, rfl⟩
      have hlength : p.parent.parts.length + 1 = p.parts.length := by
        rw [Pathname.parent, hparts]
        simp
      refine ⟨k, by omega, ?_⟩
      rw [Pathname.parent, List.dropLast_eq_take, List.take_take, Nat.min_eq_left]
      omega

/-- A file is written after directories are made on its way. -/
lemma exists_writeFile_of_install (h : t.install cwd p content stamp = (t', .ok ())) :
    ∃ t₁, Grows (p.LeadsThrough cwd) t t₁ ∧ t₁.writeFile cwd p content stamp = .ok t' := by
  have hgrows := makeDirectories_leadsThrough t cwd p
  rw [install] at h
  split at h
  · next t₁ hmade =>
      rw [hmade] at hgrows
      split at h
      · next t₂ hwritten =>
          obtain ⟨rfl, -⟩ := Prod.mk.inj h
          exact ⟨t₁, hgrows, hwritten⟩
      · cases h
  · next hfailed =>
      rw [h] at hfailed
      exact absurd rfl (hfailed t')

/-- **A file that is written** stands at the location of its path name, and beside it only directories
on the way are new. -/
theorem install_ok (h : t.install cwd p content stamp = (t', .ok ())) :
    ∃ t₁, Grows (p.LeadsThrough cwd) t t₁ ∧ p.resolve cwd ≠ [] ∧
      t₁.get? (p.resolve cwd) ≠ some .directory ∧
      t' = { t₁.put (p.resolve cwd) (.file content (stamp.getD (.tick t₁.ticks))) with
        ticks := t₁.ticks + 1 } := by
  obtain ⟨t₁, hgrows, hwritten⟩ := exists_writeFile_of_install h
  exact ⟨t₁, hgrows, writeFile_ok hwritten⟩

/-- **A file that cannot be written** leaves the tree as it was but for directories on the way. -/
theorem install_error {e : SystemError} (h : t.install cwd p content stamp = (t', .error e)) :
    Grows (p.LeadsThrough cwd) t t' := by
  have hgrows := makeDirectories_leadsThrough t cwd p
  rw [install] at h
  split at h
  · next t₁ hmade =>
      rw [hmade] at hgrows
      split at h
      · cases h
      · obtain ⟨rfl, -⟩ := Prod.mk.inj h
        exact hgrows
  · rw [h] at hgrows
    exact hgrows

end FileTree

end StyleTokens
