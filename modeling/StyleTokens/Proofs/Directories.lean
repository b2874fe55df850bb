import StyleTokens.Proofs.FileTree

/-!
Trees in which everything lies in a directory.

* `IsFileName`, `Pathname.IsProper`: texts that can be the name of a file, and path names as they are
  read from text;
* `FileTree.WellFormed`: every entry has the name of a file and lies in a directory;
  `WellFormed.get?_of_append`, `WellFormed.isFileName`: so it is all the way to an entry;
* `FileTree.wellFormed_empty`, `WellFormed.install`, `WellFormed.makeDirectories`, `WellFormed.delete`:
  the empty tree is well formed, and changes keep it so;
* `Location.Fits`, `WellFormed.entryAt?_pathname`: what stands at a location within the limits of the
  system is found under its path name.
-/

namespace StyleTokens

/-! ### Names of files -/

/-- The text can be the name of a file. -/
structure IsFileName (name : String) : Prop where
  ne_empty : name ≠ ""
  ne_dot : name ≠ "."
  ne_dots : name ≠ ".."
  no_slash : '/' ∉ name.toList
  no_null : hasNull name = false
  short : name.utf8ByteSize ≤ nameLimit

/-- No part of the path name is empty or a single dot, and none has a slash. -/
def Pathname.IsProper (p : Pathname) : Prop :=
  ∀ part ∈ p.parts, part ≠ "" ∧ part ≠ "." ∧ '/' ∉ part.toList

/-- Path names that are read from text are proper. -/
lemma Pathname.isProper_read (s : String) : (Pathname.read s).IsProper := by
  intro part hpart
  obtain ⟨cs, hcs, rfl⟩ := List.mem_map.mp hpart
  obtain ⟨hsegment, hsays⟩ := List.mem_filter.mp hcs
  have hsays : cs ≠ [] ∧ cs ≠ ['.'] := by simpa using hsays
  refine ⟨fun h => hsays.1 ?_, fun h => hsays.2 ?_, ?_⟩
  · simpa using congrArg String.toList h
  · simpa using congrArg String.toList h
  · simpa using (Text.segments_spec hsegment).1

/-- The parts of a text without null characters have none. -/
lemma Pathname.any_hasNull_read {s : String} (h : hasNull s = false) :
    (Pathname.read s).parts.any hasNull = false := by
  rw [← Bool.not_eq_true, List.any_eq_true]
  rintro ⟨part, hpart, hnull⟩
  obtain ⟨cs, hcs, rfl⟩ := List.mem_map.mp hpart
  obtain ⟨c, hc, hzero⟩ := List.any_eq_true.mp hnull
  have hmem : c ∈ s.toList :=
    (Text.segments_spec (List.mem_filter.mp hcs).1).2 (by simpa using hc)
  exact Bool.false_ne_true (h.symm.trans (List.any_eq_true.mpr ⟨c, hmem, hzero⟩))

/-- A path name of some of the parts of a proper one is proper. -/
lemma Pathname.IsProper.of_subset {p q : Pathname} (h : p.IsProper) (hsub : q.parts ⊆ p.parts) :
    q.IsProper := fun part hpart => h part (hsub hpart)

/-- Null characters are a fault. -/
lemma Pathname.hasNull_of_fault? {p : Pathname} (h : p.fault? = none) {part : String}
    (hpart : part ∈ p.parts) : hasNull part = false := by
  rw [Pathname.fault?] at h
  split at h
  · cases h
  · next hnull => exact Bool.eq_false_iff.mpr fun hp => hnull (List.any_eq_true.mpr ⟨part, hpart, hp⟩)

/-! ### Locations and their path names -/

/-- Names that are no double dots lead on from a location. -/
lemma Location.foldl_step {names : List String} (h : ".." ∉ names) (l : Location) :
    names.foldl Location.step l = l ++ names := by
  induction names generalizing l with
  | nil => simp
  | cons name names ih =>
      obtain ⟨hname, hnames⟩ : ".." ≠ name ∧ ".." ∉ names := by simpa using h
      rw [List.foldl_cons, Location.step, if_neg hname.symm, ih hnames, ← List.append_cons]

/-- A location without double dots is that of its path name. -/
lemma Location.resolve_pathname {l : Location} (h : ".." ∉ l) (cwd : Location) :
    l.pathname.resolve cwd = l := Location.foldl_step h []

/-- The location is within the limits of the system. -/
structure Location.Fits (l : Location) : Prop where
  text : l.pathname.text.utf8ByteSize < pathLimit
  names : ∀ name ∈ l, name.utf8ByteSize ≤ nameLimit

/-- Within the limits, null characters are the one fault of a path name. -/
lemma Location.Fits.fault?_pathname {l : Location} (h : l.Fits) :
    l.pathname.fault? = if l.any hasNull then some .nullCharacter else none := by
  have hshort : ¬ pathLimit ≤ l.pathname.text.utf8ByteSize := Nat.not_le.mpr h.text
  rw [Pathname.fault?, if_neg hshort]
  rfl

namespace FileTree

variable {t t' : FileTree} {cwd l : Location} {p : Pathname}

/-! ### Well-formed trees -/

/-- Every entry has the name of a file and lies in a directory. -/
structure WellFormed (t : FileTree) : Prop where
  name : ∀ l name, (t.get? (l ++ [name])).isSome → IsFileName name
  around : ∀ l name, (t.get? (l ++ [name])).isSome → t.get? l = some .directory

/-- The empty tree is well formed. -/
lemma wellFormed_empty : ({} : FileTree).WellFormed where
  name l name h := by simp [get?] at h
  around l name h := by simp [get?] at h

namespace WellFormed

/-- The places on the way to an entry are directories. -/
lemma get?_of_append (ht : t.WellFormed) {rest : List String}
    (h : (t.get? (l ++ rest)).isSome) (hrest : rest ≠ []) : t.get? l = some .directory := by
  induction rest generalizing l with
  | nil => exact absurd rfl hrest
  | cons name rest ih =>
      rw [List.append_cons] at h
      cases rest with
      | nil => exact ht.around l name (by simpa using h)
      | cons next rest =>
          have hnext : t.get? (l ++ [name]) = some .directory := ih h (by simp)
          exact ht.around l name (by rw [hnext]; rfl)

/-- The names on the way to an entry are names of files. -/
lemma isFileName (ht : t.WellFormed) (h : (t.get? l).isSome) : ∀ name ∈ l, IsFileName name := by
  intro name hname
  obtain ⟨before, after, rfl⟩ := List.append_of_mem hname
  rw [List.append_cons] at h
  cases after with
  | nil => exact ht.name before name (by simpa using h)
  | cons next after =>
      have hdir := ht.get?_of_append h (by simp)
      exact ht.name before name (by rw [hdir]; rfl)

/-- An entry is put under the name of a file in a directory, where no directory is. -/
lemma put (ht : t.WellFormed) {name : String} (hname : IsFileName name)
    (haround : t.get? l = some .directory) (hfree : t.get? (l ++ [name]) ≠ some .directory)
    (e : Entry) : (t.put (l ++ [name]) e).WellFormed := by
  have hget : ∀ k, (t.put (l ++ [name]) e).get? k
      = if k = l ++ [name] then some e else t.get? k := get?_put (by simp) e
  have hkeeps : ∀ k, t.get? k = some .directory →
      (t.put (l ++ [name]) e).get? k = some .directory := by
    intro k hk
    rw [hget, if_neg, hk]
    rintro rfl
    exact hfree hk
  refine ⟨fun k n h => ?_, fun k n h => ?_⟩ <;> rw [hget] at h <;> split at h
  · next heq =>
      obtain ⟨-, heq⟩ := List.append_inj' heq rfl
      exact List.singleton_inj.mp heq ▸ hname
  · exact ht.name k n h
  · next heq =>
      obtain ⟨rfl, -⟩ := List.append_inj' heq rfl
      exact hkeeps k haround
  · exact hkeeps k (ht.around k n h)

/-- Entries are taken away, with every directory all that lies in it. -/
lemma filter (ht : t.WellFormed) (keeps : Location → Bool)
    (hkeeps : ∀ l name, keeps (l ++ [name]) → keeps l) :
    ({ t with entries := t.entries.filter fun e => keeps e.1 } : FileTree).WellFormed := by
  have hget : ∀ k, ({ t with entries := t.entries.filter fun e => keeps e.1 } : FileTree).get? k
      = if k = [] then some .directory else if keeps k then t.get? k else none := by
    intro k
    rw [get?, lookup_filter]
    split
    · rfl
    · next hk => rw [get?, if_neg hk]
  refine ⟨fun l name h => ?_, fun l name h => ?_⟩ <;> rw [hget, if_neg (by simp)] at h <;>
    split at h
  · exact ht.name l name h
  · exact absurd h (by simp)
  · next hkept =>
      rw [hget, if_pos (hkeeps l name hkept), ht.around l name h]
      exact ite_self _
  · exact absurd h (by simp)

lemma remove (ht : t.WellFormed) (l : Location) : (t.remove l).WellFormed := by
  refine ht.filter (fun k => !l.isPrefixOf k) fun k name h => ?_
  simp only [Bool.not_eq_true', ← Bool.not_eq_true, List.isPrefixOf_iff_prefix] at h ⊢
  exact fun hk => h (hk.trans (List.prefix_append k [name]))

lemma clear (ht : t.WellFormed) (l : Location) : (t.clear l).WellFormed := by
  refine ht.filter (fun k => !l.isPrefixOf k || k == l) fun k name h => ?_
  simp only [Bool.or_eq_true, Bool.not_eq_true', ← Bool.not_eq_true, List.isPrefixOf_iff_prefix,
    beq_iff_eq] at h ⊢
  left
  rcases h with h | h
  · exact fun hk => h (hk.trans (List.prefix_append k [name]))
  · intro hk
    have hlength := hk.length_le
    rw [← h, List.length_append, List.length_singleton] at hlength
    omega

/-- Trees stay well formed when something is deleted, whether or not that fails. -/
lemma delete (ht : t.WellFormed) (cwd : Location) (p : Pathname) :
    (t.delete cwd p).1.WellFormed := by
  rw [FileTree.delete]
  split
  · exact ht
  · split
    · exact ht.clear _
    · split
      · exact ht.clear _
      · exact ht.remove _

end WellFormed

/-! ### Making directories and files -/

/-- The place of the last name of a proper path name has the name of a file and lies in a
directory. -/
lemma isFileName_of_target (hp : p.IsProper) (h : t.target cwd p = .ok (some l)) :
    ∃ around name, l = around ++ [name] ∧ IsFileName name ∧ t.get? around = some .directory := by
  obtain ⟨around, name, hreaches, hl⟩ := exists_reaches_of_target h
  have hmem : name ∈ p.parts := by simp [hreaches.parts]
  obtain ⟨hempty, hdot, hslash⟩ := hp name hmem
  exact ⟨around, name, hl, ⟨hempty, hdot, hreaches.ne_dots, hslash,
    Pathname.hasNull_of_fault? hreaches.fault hmem, hreaches.short⟩,
    hasDirectory_iff.mp hreaches.directory⟩

namespace WellFormed

lemma makeDirectory (ht : t.WellFormed) (hp : p.IsProper) (h : t.makeDirectory cwd p = .ok t') :
    t'.WellFormed := by
  rw [FileTree.makeDirectory] at h
  obtain ⟨place, hplace, h⟩ := exists_of_bind_eq_ok h
  cases place with
  | none => cases h
  | some l =>
      obtain ⟨around, name, rfl, hname, haround⟩ := isFileName_of_target hp hplace
      dsimp only at h
      split at h
      · cases h
      · next hnone =>
          obtain rfl := Except.ok.inj h
          refine ht.put hname haround (fun hdir => hnone ?_) .directory
          rw [hdir]
          rfl

lemma ensureDirectory (ht : t.WellFormed) (hp : p.IsProper) (cwd : Location) :
    (t.ensureDirectory cwd p).1.WellFormed := by
  rw [FileTree.ensureDirectory]
  split
  · next t' h => exact ht.makeDirectory hp h
  · exact ht

/-- **Trees stay well formed when directories are made**, whether or not that fails. -/
theorem makeDirectories (ht : t.WellFormed) (hp : p.IsProper) (cwd : Location) (count : ℕ) :
    (makeDirectories cwd p count t).1.WellFormed := by
  induction count generalizing t with
  | zero => exact ht
  | succ count ih =>
      have hfront : ({ p with parts := p.parts.take (count + 1) } : Pathname).IsProper :=
        hp.of_subset (List.take_subset _ _)
      have hbefore := ih ht
      rw [FileTree.makeDirectories]
      split
      · split
        · next t₁ h =>
            rw [h] at hbefore
            exact hbefore.ensureDirectory hfront cwd
        · exact hbefore
      · exact ht.ensureDirectory hfront cwd

variable {content : List UInt8} {stamp : Option Stamp}

lemma writeFile (ht : t.WellFormed) (hp : p.IsProper)
    (h : t.writeFile cwd p content stamp = .ok t') : t'.WellFormed := by
  rw [FileTree.writeFile] at h
  split at h
  · cases h
  · cases h
  · next l hplace =>
      obtain ⟨around, name, rfl, hname, haround⟩ := isFileName_of_target hp hplace
      split at h
      · cases h
      · next hfree =>
          obtain rfl := Except.ok.inj h
          have hput := ht.put hname haround (fun hdir => hfree hdir)
            (.file content (stamp.getD (.tick t.ticks)))
          exact ⟨hput.name, hput.around⟩

/-- **Trees stay well formed when a file is written** after the directories around it, whether or not
that fails. -/
theorem install (ht : t.WellFormed) (hp : p.IsProper) (cwd : Location) (content : List UInt8)
    (stamp : Option Stamp) : (t.install cwd p content stamp).1.WellFormed := by
  have hparent : p.parent.IsProper := hp.of_subset (List.dropLast_subset _)
  have hmade := ht.makeDirectories hparent cwd p.parent.parts.length
  rw [FileTree.install]
  split
  · next t₁ h =>
      rw [h] at hmade
      split
      · next h => exact hmade.writeFile hp h
      · exact hmade
  · exact hmade

end WellFormed

/-! ### Looking in well-formed trees -/

/-- Names that are not too long are no reason to stop. -/
lemma walk_ne_nameTooLong {names : List String}
    (h : ∀ name ∈ names, name.utf8ByteSize ≤ nameLimit) :
    t.walk l names ≠ .error .nameTooLong := by
  induction names generalizing l with
  | nil => simp [walk]
  | cons name names ih =>
      have hshort : ¬ nameLimit < name.utf8ByteSize := by
        have := h name (by simp)
        omega
      have hrest : ∀ l, t.walk l names ≠ .error .nameTooLong :=
        fun l => ih fun name hname => h name (by simp [hname])
      rw [walk, if_neg hshort]
      split
      · split
        · exact hrest _
        · split
          · exact hrest _
          · simp
      · simp

/-- Nor are null characters, which are looked for before the walk. -/
lemma walk_ne_nullCharacter {names : List String} : t.walk l names ≠ .error .nullCharacter := by
  induction names generalizing l with
  | nil => simp [walk]
  | cons name names ih =>
      rw [walk]
      split
      · split
        · exact ih
        · split
          · simp
          · split
            · exact ih
            · simp
      · simp

namespace WellFormed

/-- The way to an entry can be followed. -/
lemma walk_of_append (ht : t.WellFormed) {names : List String}
    (h : (t.get? (l ++ names)).isSome) : t.walk l names = .ok (l ++ names) := by
  induction names generalizing l with
  | nil => rw [walk, List.append_nil]
  | cons name names ih =>
      have hname : IsFileName name := ht.isFileName h name (by simp)
      have hdir : t.hasDirectory l := hasDirectory_iff.mpr (ht.get?_of_append h (by simp))
      rw [List.append_cons] at h ⊢
      have hnext : (t.get? (l ++ [name])).isSome := by
        cases names with
        | nil => simpa using h
        | cons next names => rw [ht.get?_of_append h (by simp)]; rfl
      exact walk_cons_eq_ok_iff.mpr ⟨hdir, .inr ⟨hname.ne_dots, hname.short, hnext, ih h⟩⟩

/-- **What stands at a location is found under its path name**, if it is within the limits of the
system. -/
theorem entryAt?_pathname (ht : t.WellFormed) (hplain : ".." ∉ l) (hfits : l.Fits)
    (cwd : Location) : t.entryAt? cwd l.pathname = .ok (t.get? l) := by
  have hfollow : t.follow cwd l.pathname
      = if l.any hasNull then .error .nullCharacter else t.walk [] l := by
    rw [follow, hfits.fault?_pathname]
    by_cases hnull : l.any hasNull
    · rw [if_pos hnull, if_pos hnull]
    · rw [if_neg hnull, if_neg hnull]
      rfl
  have hfound : (t.get? l).isSome → t.follow cwd l.pathname = .ok l := by
    intro h
    have hnull : ¬ l.any hasNull := by
      rw [List.any_eq_true]
      rintro ⟨name, hname, hnull⟩
      exact Bool.false_ne_true ((ht.isFileName h name hname).no_null.symm.trans hnull)
    have hwalk : t.walk [] l = .ok ([] ++ l) := ht.walk_of_append h
    rw [hfollow, if_neg hnull, hwalk, List.nil_append]
  rw [entryAt?]
  split
  · next l' h =>
      rw [resolve_eq_of_follow h, Location.resolve_pathname hplain]
  · next h =>
      rw [hfollow] at h
      split at h
      · cases h
      · exact absurd h (walk_ne_nameTooLong hfits.names)
  · next h =>
      cases hget : t.get? l with
      | none => rfl
      | some e => exact absurd (h.symm.trans (hfound (by rw [hget]; rfl))) (by simp)

end WellFormed

end FileTree

end StyleTokens
