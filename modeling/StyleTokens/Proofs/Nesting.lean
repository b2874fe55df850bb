import StyleTokens.Output.NameTree
import StyleTokens.Proofs.Basic

/-!
Names put into a tree.

* `NameTree.at?`, `NameTree.keysAt`: what stands at a path of a tree, and the keys of the group there;
* `Path.next?`: the key by which a path goes on from another one;
* `NameTree.Puts`: a name that is put at a path stands there, groups lead to it, each with one more
  key unless it had this key, and all other paths keep what they have;
* `NameTree.Blocks`, `NameTree.insert_cases`: a name is put at a path unless a name stands on the way
  or a group at its end; what stands in the way is reported by its path.
-/

namespace StyleTokens

/-- The key by which a path goes on from another one, if it begins with that one. -/
def Path.next? : Path → Path → Option String
  | [], path => path.head?
  | _ :: _, [] => none
  | k :: q, key :: path => if k = key then next? q path else none

lemma Path.next?_eq_some_iff {q path : Path} {key : String} :
    Path.next? q path = some key ↔ ∃ rest, path = q ++ key :: rest := by
  induction q generalizing path with
  | nil => cases path <;> simp [next?, eq_comm]
  | cons k q ih =>
      cases path with
      | nil => simp [next?]
      | cons k' path =>
          by_cases hk : k = k'
          · simp [next?, hk, ih]
          · simp [next?, hk, Ne.symm hk]

/-- A path goes on from another one exactly if it runs through that one. -/
lemma Path.exists_next?_iff {q path : Path} :
    (∃ key, Path.next? q path = some key) ↔ q <+: path ∧ q ≠ path := by
  simp only [Path.next?_eq_some_iff]
  constructor
  · rintro ⟨key, rest, rfl⟩
    exact ⟨List.prefix_append q _, by simp⟩
  · rintro ⟨⟨rest, rfl⟩, hne⟩
    cases rest with
    | nil => exact absurd (List.append_nil q).symm hne
    | cons key rest => exact ⟨key, rest, rfl⟩

namespace NameTree

variable {entries entries' : List (String × NameTree)} {name : String} {before path q : Path}

/-! ### Looking into a tree -/

/-- What stands at a path below the groups of a tree. -/
def at? : NameTree → Path → Option NameTree
  | tree, [] => some tree
  | .leaf _, _ :: _ => none
  | .group entries, key :: path => (entries.lookup key).bind fun tree => at? tree path

/-- What stands below a key after it was given a tree. -/
lemma at?_put (key : String) (tree : NameTree) (k : String) (path : Path) :
    at? (.group (put key tree entries)) (k :: path)
      = if k = key then at? tree path else at? (.group entries) (k :: path) := by
  have hlookup : (put key tree entries).lookup k
      = if k = key then some tree else entries.lookup k :=
    lookup_of_put (put key tree) rfl (fun _ _ _ => rfl) entries k
  rw [at?, hlookup]
  split
  · rfl
  · rw [at?]

lemma at?_singleton (entries : List (String × NameTree)) (key : String) :
    at? (.group entries) [key] = entries.lookup key := by
  rw [at?]
  cases entries.lookup key <;> rfl

/-- The group below a key, which is empty if no group stands there. -/
def groupAt (entries : List (String × NameTree)) (key : String) : List (String × NameTree) :=
  match entries.lookup key with
  | some (.group inner) => inner
  | _ => []

/-- Nothing stands below a name, or below a key that is missing. -/
lemma at?_cons (entries : List (String × NameTree)) (key : String) (hpath : path ≠ []) :
    at? (.group entries) (key :: path) = at? (.group (groupAt entries key)) path := by
  obtain ⟨k, rest, rfl⟩ := List.exists_cons_of_ne_nil hpath
  rw [at?, groupAt]
  cases entries.lookup key with
  | none => rfl
  | some tree => cases tree <;> rfl

/-- The keys of the group at a path; there are none if no group stands there. -/
def keysAt (entries : List (String × NameTree)) (path : Path) : List String :=
  match at? (.group entries) path with
  | some (.group inner) => inner.map Prod.fst
  | _ => []

lemma keysAt_cons (entries : List (String × NameTree)) (key : String) (path : Path) :
    keysAt entries (key :: path) = keysAt (groupAt entries key) path := by
  rw [keysAt, keysAt]
  cases path with
  | nil =>
      rw [at?_singleton, groupAt, at?]
      cases entries.lookup key with
      | none => rfl
      | some tree => cases tree <;> rfl
  | cons k path => rw [at?_cons entries key (List.cons_ne_nil k path)]

/-- The keys of a group after one of them was given a tree: the key comes last if it is new. -/
lemma keys_put (key : String) (tree : NameTree) (entries : List (String × NameTree)) :
    (put key tree entries).map Prod.fst
      = if key ∈ entries.map Prod.fst then entries.map Prod.fst
        else entries.map Prod.fst ++ [key] := by
  refine keys_of_put (put key tree) rfl (fun entry rest => ?_) entries
  rw [put]
  split
  · next h => rw [List.map_cons, h]
  · rfl

/-! ### Putting a name into a tree -/

/-- A name stands at a path, groups lead to it, and all other paths have what they had. The key by
which the path goes on from a group comes last there if it is new. -/
structure Puts (name : String) (path : Path) (entries entries' : List (String × NameTree)) :
    Prop where
  leaf : at? (.group entries') path = some (.leaf name)
  around : ∀ q, q <+: path → q ≠ path → ∃ inner, at? (.group entries') q = some (.group inner)
  other : ∀ q, ¬ q <+: path → at? (.group entries') q = at? (.group entries) q
  keys : ∀ q key, Path.next? q path = some key → keysAt entries' q
    = if key ∈ keysAt entries q then keysAt entries q else keysAt entries q ++ [key]

/-- A key that has no group is given a name. -/
lemma puts_leaf {key : String} (h : ∀ inner, entries.lookup key ≠ some (.group inner)) :
    Puts name [key] entries (put key (.leaf name) entries) := by
  have hgroup : groupAt entries key = [] := by
    rw [groupAt]
    split
    · next inner hinner => exact absurd hinner (h inner)
    · rfl
  refine ⟨by rw [at?_put, if_pos rfl, at?], fun q hq hne => ?_, fun q hq => ?_, fun q k hk => ?_⟩
  · obtain rfl : q = [] := by
      rcases List.prefix_cons_iff.mp hq with rfl | ⟨rest, rfl, hrest⟩
      · rfl
      · exact absurd (by rw [List.prefix_nil.mp hrest]) hne
    exact ⟨_, rfl⟩
  · cases q with
    | nil => exact absurd List.nil_prefix hq
    | cons k q =>
        rw [at?_put]
        split
        · next hk =>
            have hne : q ≠ [] := fun e => hq (List.cons_prefix_cons.mpr ⟨hk, by simp [e]⟩)
            obtain ⟨k', rest, rfl⟩ := List.exists_cons_of_ne_nil hne
            rw [at?_cons entries k hne, hk, hgroup]
            rfl
        · rfl
  · -- the path goes on from the root alone
    obtain ⟨rest, hrest⟩ := Path.next?_eq_some_iff.mp hk
    obtain ⟨rfl, hkey⟩ | ⟨-, h⟩ := List.singleton_eq_append_iff.mp hrest
    · obtain rfl := (List.cons.inj hkey).1
      exact keys_put _ _ entries
    · exact absurd h (by simp)

/-- What is put into the group below a key is put below the key. -/
lemma Puts.inGroup {key : String} {inner : List (String × NameTree)}
    (h : Puts name path (groupAt entries key) inner) :
    Puts name (key :: path) entries (put key (.group inner) entries) := by
  refine ⟨by rw [at?_put, if_pos rfl, h.leaf], fun q hq hne => ?_, fun q hq => ?_,
    fun q k hk => ?_⟩
  · cases q with
    | nil => exact ⟨_, rfl⟩
    | cons k q =>
        obtain ⟨hk, hq⟩ := List.cons_prefix_cons.mp hq
        rw [at?_put, if_pos hk]
        exact h.around q hq fun e => hne (by rw [hk, e])
  · cases q with
    | nil => exact absurd List.nil_prefix hq
    | cons k q =>
        rw [at?_put]
        split
        · next hk =>
            have hq' : ¬ q <+: path := fun e => hq (List.cons_prefix_cons.mpr ⟨hk, e⟩)
            have hne : q ≠ [] := fun e => hq' (e ▸ List.nil_prefix)
            rw [h.other q hq', hk, at?_cons entries key hne]
        · rfl
  · cases q with
    | nil =>
        obtain rfl : key = k := by simpa [Path.next?] using hk
        exact keys_put _ _ entries
    | cons k' q =>
        rw [Path.next?] at hk
        split at hk
        · next hk' =>
            have hbelow : keysAt (put key (.group inner) entries) (k' :: q) = keysAt inner q := by
              rw [keysAt, at?_put, if_pos hk']
              rfl
            rw [hbelow, h.keys q k hk, hk', keysAt_cons]
        · exact absurd hk (by simp)

/-- A path of several keys is followed into the group below the first one, unless that is a name. -/
lemma insert_cons_cons {key next : String}
    (h : ∀ n, entries.lookup key ≠ some (.leaf n)) :
    insert name before (key :: next :: path) entries
      = (insert name (before ++ [key]) (next :: path) (groupAt entries key)).map fun inner =>
          put key (.group inner) entries := by
  rw [insert, groupAt]
  · cases hkey : entries.lookup key with
    | none => rfl
    | some tree =>
        cases tree with
        | leaf n => exact absurd hkey (h n)
        | group inner => rfl
  · exact List.cons_ne_nil next path

/-- What stands at a path keeps a name from being put at another one: it is a name on the way, or a
group at the end. -/
def Blocks (entries : List (String × NameTree)) (path q : Path) : Prop :=
  (q <+: path ∧ q ≠ path ∧ ∃ n, at? (.group entries) q = some (.leaf n)) ∨
    q = path ∧ ∃ inner, at? (.group entries) q = some (.group inner)

section Free

variable (hfree : ∀ q, ¬ Blocks entries path q)

include hfree

/-- If nothing was in the way, names stand where they stood, and the new one at its path. -/
lemma Puts.leaf_iff (h : Puts name path entries entries') (q : Path) (n : String) :
    at? (.group entries') q = some (.leaf n)
      ↔ if path = q then name = n else at? (.group entries) q = some (.leaf n) := by
  by_cases hq : path = q
  · rw [if_pos hq, ← hq, h.leaf]
    simp
  · rw [if_neg hq]
    by_cases hwithin : q <+: path
    · -- a group leads to the new name, and no name stood there
      obtain ⟨inner, hinner⟩ := h.around q hwithin (Ne.symm hq)
      refine iff_of_false (by simp [hinner]) fun hn => ?_
      exact hfree q (.inl ⟨hwithin, Ne.symm hq, n, hn⟩)
    · rw [h.other q hwithin]

/-- Groups stand where they stood, and on the way to the new name. -/
lemma Puts.group_iff (h : Puts name path entries entries') (q : Path) :
    (∃ inner, at? (.group entries') q = some (.group inner))
      ↔ (∃ inner, at? (.group entries) q = some (.group inner)) ∨ q <+: path ∧ q ≠ path := by
  by_cases hwithin : q <+: path
  · by_cases hq : q = path
    · refine iff_of_false (by simp [hq, h.leaf]) ?_
      rintro (hold | ⟨-, hne⟩)
      · exact hfree q (.inr ⟨hq, hold⟩)
      · exact hne hq
    · exact iff_of_true (h.around q hwithin hq) (.inr ⟨hwithin, hq⟩)
  · rw [h.other q hwithin]
    exact (or_iff_left fun hon => hwithin hon.1).symm

/-- A group that the path does not go on from has the keys that it had. -/
lemma Puts.keysAt_of_next?_eq_none (h : Puts name path entries entries')
    (hnext : Path.next? q path = none) : keysAt entries' q = keysAt entries q := by
  by_cases hq : q = path
  · -- the new name has no keys, and no group stood in its place
    have hnew : keysAt entries' path = [] := by rw [keysAt, h.leaf]
    have hold : keysAt entries path = [] := by
      rw [keysAt]
      split
      · next inner hinner => exact absurd (.inr ⟨rfl, inner, hinner⟩) (hfree path)
      · rfl
    rw [hq, hnew, hold]
  · have hwithin : ¬ q <+: path := by
      intro hwithin
      obtain ⟨key, hkey⟩ := Path.exists_next?_iff.mpr ⟨hwithin, hq⟩
      exact absurd (hnext.symm.trans hkey) (by simp)
    rw [keysAt, keysAt, h.other q hwithin]

end Free

/-- What is in the way at the first key is a group there. -/
lemma blocks_singleton_iff {key : String} :
    Blocks entries [key] q ↔ q = [key] ∧ ∃ inner, entries.lookup key = some (.group inner) := by
  rw [← at?_singleton]
  constructor
  · rintro (⟨hwithin, hne, n, hn⟩ | ⟨rfl, h⟩)
    · rcases List.prefix_cons_iff.mp hwithin with rfl | ⟨rest, rfl, hrest⟩
      · exact absurd hn (by simp [at?])
      · exact absurd (by rw [List.prefix_nil.mp hrest]) hne
    · exact ⟨rfl, h⟩
  · rintro ⟨rfl, h⟩
    exact .inr ⟨rfl, h⟩

/-- What is in the way behind the first key stands in the group below it, unless that is a name. -/
lemma blocks_cons_iff {key : String} (h : ∀ n, entries.lookup key ≠ some (.leaf n))
    (hpath : path ≠ []) : Blocks entries (key :: path) q ↔
      ∃ q', q = key :: q' ∧ Blocks (groupAt entries key) path q' := by
  have hroot : ∀ n, at? (.group (groupAt entries key)) [] ≠ some (.leaf n) := by simp [at?]
  constructor
  · rintro (⟨hwithin, hne, n, hn⟩ | ⟨rfl, inner, hinner⟩)
    · rcases List.prefix_cons_iff.mp hwithin with rfl | ⟨q', rfl, hq'⟩
      · exact absurd hn (by simp [at?])
      · have hne' : q' ≠ [] := by
          rintro rfl
          rw [at?_singleton] at hn
          exact h n hn
        rw [at?_cons entries key hne'] at hn
        exact ⟨q', rfl, .inl ⟨hq', fun e => hne (by rw [e]), n, hn⟩⟩
    · rw [at?_cons entries key hpath] at hinner
      exact ⟨path, rfl, .inr ⟨rfl, inner, hinner⟩⟩
  · rintro ⟨q', rfl, ⟨hwithin, hne, n, hn⟩ | ⟨rfl, inner, hinner⟩⟩
    · have hne' : q' ≠ [] := fun e => hroot n (e ▸ hn)
      rw [← at?_cons entries key hne'] at hn
      exact .inl ⟨List.cons_prefix_cons.mpr ⟨rfl, hwithin⟩, by simpa using hne, n, hn⟩
    · rw [← at?_cons entries key hpath] at hinner
      exact .inr ⟨rfl, inner, hinner⟩

/-- **What putting a name into a tree can come to**: the name stands at its path and nothing was in
the way, or it fails with the path of what is in the way. -/
theorem insert_cases (name : String) (before : Path) (entries : List (String × NameTree))
    (hpath : path ≠ []) :
    (∃ entries', insert name before path entries = .ok entries' ∧
      Puts name path entries entries' ∧ ∀ q, ¬ Blocks entries path q) ∨
    ∃ q, Blocks entries path q ∧
      insert name before path entries = .error (.tokenAndGroup (before ++ q)) := by
  induction path generalizing before entries with
  | nil => exact absurd rfl hpath
  | cons key path ih =>
      cases path with
      | nil =>
          by_cases hkey : ∃ inner, entries.lookup key = some (.group inner)
          · refine .inr ⟨[key], blocks_singleton_iff.mpr ⟨rfl, hkey⟩, ?_⟩
            obtain ⟨inner, hinner⟩ := hkey
            rw [insert, hinner]
          · have hfree : ∀ inner, entries.lookup key ≠ some (.group inner) :=
              fun inner h => hkey ⟨inner, h⟩
            refine .inl ⟨put key (.leaf name) entries, ?_, puts_leaf hfree,
              fun q hq => hkey (blocks_singleton_iff.mp hq).2⟩
            rw [insert]
            split
            · next inner hinner => exact absurd hinner (hfree inner)
            · rfl
      | cons next path =>
          have hnext : next :: path ≠ [] := List.cons_ne_nil next path
          by_cases hkey : ∃ n, entries.lookup key = some (.leaf n)
          · obtain ⟨n, hn⟩ := hkey
            refine .inr ⟨[key], .inl ⟨by simp, by simp, n, ?_⟩, ?_⟩
            · rw [at?_singleton, hn]
            · rw [insert, hn]
              exact hnext
          · have hkey : ∀ n, entries.lookup key ≠ some (.leaf n) := fun n h => hkey ⟨n, h⟩
            rw [insert_cons_cons hkey]
            rcases ih (before ++ [key]) (groupAt entries key) hnext with
              ⟨inner, hinner, hputs, hfree⟩ | ⟨q, hq, herror⟩
            · rw [hinner]
              refine .inl ⟨put key (.group inner) entries, rfl, hputs.inGroup, fun q hq => ?_⟩
              obtain ⟨q', -, hq'⟩ := (blocks_cons_iff hkey hnext).mp hq
              exact hfree q' hq'
            · refine .inr ⟨key :: q, (blocks_cons_iff hkey hnext).mpr ⟨q, rfl, hq⟩, ?_⟩
              rw [herror, List.append_assoc]
              rfl

end NameTree

end StyleTokens
