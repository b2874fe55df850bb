import Mathlib.Data.List.Nodup
import Mathlib.Tactic.Common
import StyleTokens.Proofs.Definitions

/-!
The objects that are looked into on the way to tokens.

* `Json.groups`, `Fields.groups`: the objects below a value that declare no value themselves;
* `Fields.HasDistinctKeys`, `Fields.HasPlainKeys`: in each of them no key comes twice, and keys can
  be joined with dots; `Fields.HasOpenGroups`: none of them is metadata;
* `Json.at?`: what stands at a path inside a value;
* `Document.nodup_tokensIn`, `Document.exists_at_of_mem_tokensIn`: the tokens of a document have
  distinct paths, and each is made of the object at its path.
-/

namespace StyleTokens

/-! ### Groups -/

namespace Json

/-- Is the value a group: an object that declares no value? -/
def isGroup : Json → Bool
  | .obj fields => !Fields.declaresValue fields
  | _ => false

mutual

/-- The group that a value is, and all groups below it. -/
def groups : Json → List Fields
  | .obj fields => if Fields.declaresValue fields then [] else fields :: groupsIn fields
  | _ => []

/-- The same for the values of entries. -/
def groupsIn : List (String × Json) → List Fields
  | [] => []
  | (_, x) :: rest => groups x ++ groupsIn rest

end

lemma groups_obj {fields : Fields} (h : fields.declaresValue = false) :
    groups (.obj fields) = fields :: groupsIn fields := by
  rw [groups, h]
  rfl

lemma groupsIn_eq_flatMap (fields : Fields) : groupsIn fields = fields.flatMap fun e => e.2.groups := by
  induction fields with
  | nil => rfl
  | cons entry rest ih => rw [groupsIn, ih, List.flatMap_cons]

end Json

namespace Fields

variable {fields : Fields}

/-- The object and all groups below it. -/
def groups (fields : Fields) : List Fields := fields :: Json.groupsIn fields

/-- No key comes twice in an object that is looked into. -/
def HasDistinctKeys (fields : Fields) : Prop := ∀ g ∈ fields.groups, (g.map Prod.fst).Nodup

/-- Can keys be joined with dots? They are not empty and hold no dot. -/
def IsPlainKey (key : String) : Prop := key ≠ "" ∧ '.' ∉ key.toList

/-- The keys of the objects that are looked into can be joined with dots. -/
def HasPlainKeys (fields : Fields) : Prop := ∀ g ∈ fields.groups, ∀ e ∈ g, IsPlainKey e.1

/-- No group stands under a key with a `$`. -/
def HasOpenGroups (fields : Fields) : Prop :=
  ∀ g ∈ fields.groups, ∀ e ∈ g, isMetadataKey e.1 = true → e.2.isGroup = false

instance (fields : Fields) : Decidable fields.HasDistinctKeys :=
  inferInstanceAs (Decidable (∀ g ∈ fields.groups, (g.map Prod.fst).Nodup))

instance (key : String) : Decidable (IsPlainKey key) := inferInstanceAs (Decidable (_ ∧ _))

instance (fields : Fields) : Decidable fields.HasPlainKeys :=
  inferInstanceAs (Decidable (∀ g ∈ fields.groups, ∀ e ∈ g, IsPlainKey e.1))

instance (fields : Fields) : Decidable fields.HasOpenGroups :=
  inferInstanceAs (Decidable (∀ g ∈ fields.groups, ∀ e ∈ g,
    isMetadataKey e.1 = true → e.2.isGroup = false))

/-- What holds of all groups of an object holds of the object and of the groups below it. -/
lemma forall_mem_groups {P : Fields → Prop} :
    (∀ g ∈ fields.groups, P g) ↔ P fields ∧ ∀ g ∈ Json.groupsIn fields, P g :=
  List.forall_mem_cons

/-- The first value of a key is found, and other keys are looked for behind it. -/
lemma get?_cons (key : String) (x : Json) (rest : Fields) (k : String) :
    get? ((key, x) :: rest) k = if k = key then some x else get? rest k := by
  by_cases h : k = key
  · simp [get?, h]
  · simp [get?, List.lookup_cons, h, beq_false_of_ne h]

/-- Whether an object declares a value is told by its keys. -/
lemma has_iff_mem_keys {key : String} : fields.has key = true ↔ key ∈ fields.map Prod.fst := by
  induction fields with
  | nil => simp [has]
  | cons entry rest ih =>
      obtain ⟨k, x⟩ := entry
      rw [has] at ih ⊢
      rw [get?_cons, List.map_cons, List.mem_cons]
      by_cases h : key = k
      · simp [h]
      · simp [h, ih]

end Fields

/-! ### Places -/

/-- What stands at a path inside a value. -/
def Json.at? : Json → Path → Option Json
  | v, [] => some v
  | .obj fields, key :: path => (Fields.get? fields key).bind fun v => v.at? path
  | _, _ :: _ => none

/-- What stands behind the first key of entries, and behind other keys. -/
lemma Json.at?_obj_cons (key : String) (x : Json) (rest : Fields) (k : String) (path : Path) :
    (Json.obj ((key, x) :: rest)).at? (k :: path)
      = if k = key then x.at? path else (Json.obj rest).at? (k :: path) := by
  rw [at?, Fields.get?_cons]
  split
  · rfl
  · rw [at?]

/-! ### The tokens of a document -/

namespace Document

variable {label : String} {t : Token}

mutual

/-- A token at a key is made of the object at its path, to which the keys of groups lead. -/
theorem exists_at_of_mem_tokensAt {path : Path} {key : String} : ∀ {x : Json},
    (∀ g ∈ x.groups, (g.map Prod.fst).Nodup) → t ∈ tokensAt label path key x →
      ∃ keys node, t = Token.ofNode label (path ++ key :: keys) node ∧
        x.at? keys = some (.obj node) ∧ Fields.declaresValue node = true ∧
        ∀ k ∈ keys, ∃ g ∈ x.groups, k ∈ g.map Prod.fst
  | .null, _, ht => by simp [tokensAt] at ht
  | .bool _, _, ht => by simp [tokensAt] at ht
  | .int _, _, ht => by simp [tokensAt] at ht
  | .float _, _, ht => by simp [tokensAt] at ht
  | .str _, _, ht => by simp [tokensAt] at ht
  | .arr _, _, ht => by simp [tokensAt] at ht
  | .obj fields, h, ht => by
      rw [tokensAt] at ht
      split at ht
      · next hvalue =>
          exact ⟨[], fields, List.mem_singleton.mp ht, rfl, hvalue, by simp⟩
      · next hvalue =>
          split at ht
          · exact absurd ht (by simp)
          · rw [Json.groups_obj (by simpa using hvalue)] at h ⊢
            rw [List.forall_mem_cons] at h
            obtain ⟨next, keys, node, rfl, hat, hnode, hnext, hkeys⟩ :=
              exists_at_of_mem_tokensIn h.1 h.2 ht
            refine ⟨next :: keys, node, by simp, hat, hnode, ?_⟩
            refine List.forall_mem_cons.mpr ⟨⟨fields, by simp, hnext⟩, fun k hk => ?_⟩
            obtain ⟨g, hg, hkg⟩ := hkeys k hk
            exact ⟨g, by simp [hg], hkg⟩

/-- The same for the entries of an object. -/
theorem exists_at_of_mem_tokensIn {path : Path} : ∀ {fields : List (String × Json)},
    (fields.map Prod.fst).Nodup → (∀ g ∈ Json.groupsIn fields, (g.map Prod.fst).Nodup) →
      t ∈ tokensIn label path fields →
        ∃ key keys node, t = Token.ofNode label (path ++ key :: keys) node ∧
          (Json.obj fields).at? (key :: keys) = some (.obj node) ∧
          Fields.declaresValue node = true ∧ key ∈ fields.map Prod.fst ∧
          ∀ k ∈ keys, ∃ g ∈ Json.groupsIn fields, k ∈ g.map Prod.fst
  | [], _, _, ht => by simp [tokensIn] at ht
  | (key, x) :: rest, hkeys, h, ht => by
      rw [List.map_cons, List.nodup_cons] at hkeys
      rw [Json.groupsIn] at h ⊢
      rw [List.forall_mem_append] at h
      rw [tokensIn] at ht
      rcases List.mem_append.mp ht with ht | ht
      · obtain ⟨keys, node, rfl, hat, hnode, hgroups⟩ := exists_at_of_mem_tokensAt h.1 ht
        refine ⟨key, keys, node, rfl, ?_, hnode, by simp, fun k hk => ?_⟩
        · rw [Json.at?_obj_cons, if_pos rfl, hat]
        · obtain ⟨g, hg, hkg⟩ := hgroups k hk
          exact ⟨g, by simp [hg], hkg⟩
      · obtain ⟨next, keys, node, rfl, hat, hnode, hnext, hgroups⟩ :=
          exists_at_of_mem_tokensIn hkeys.2 h.2 ht
        -- the key of the first entry does not come again
        have hne : next ≠ key := fun e => hkeys.1 (e ▸ hnext)
        refine ⟨next, keys, node, rfl, ?_, hnode, by simp [hnext], fun k hk => ?_⟩
        · rw [Json.at?_obj_cons, if_neg hne, hat]
        · obtain ⟨g, hg, hkg⟩ := hgroups k hk
          exact ⟨g, by simp [hg], hkg⟩

end

mutual

/-- The tokens at a key have distinct paths if no group below has a key twice. -/
theorem nodup_tokensAt {path : Path} {key : String} : ∀ {x : Json},
    (∀ g ∈ x.groups, (g.map Prod.fst).Nodup) →
      ((tokensAt label path key x).map Token.path).Nodup
  | .null, _ => by simp [tokensAt]
  | .bool _, _ => by simp [tokensAt]
  | .int _, _ => by simp [tokensAt]
  | .float _, _ => by simp [tokensAt]
  | .str _, _ => by simp [tokensAt]
  | .arr _, _ => by simp [tokensAt]
  | .obj fields, h => by
      rw [tokensAt]
      split
      · simp
      · next hvalue =>
          rw [Json.groups_obj (by simpa using hvalue), List.forall_mem_cons] at h
          split
          · simp
          · exact nodup_tokensIn h.1 h.2

/-- The same for the entries of an object. -/
theorem nodup_tokensIn {path : Path} : ∀ {fields : List (String × Json)}, (fields.map Prod.fst).Nodup →
    (∀ g ∈ Json.groupsIn fields, (g.map Prod.fst).Nodup) →
      ((tokensIn label path fields).map Token.path).Nodup
  | [], _, _ => by simp [tokensIn]
  | (key, x) :: rest, hkeys, h => by
      rw [List.map_cons, List.nodup_cons] at hkeys
      rw [Json.groupsIn, List.forall_mem_append] at h
      rw [tokensIn, List.map_append]
      refine List.nodup_append.mpr
        ⟨nodup_tokensAt h.1, nodup_tokensIn hkeys.2 h.2, fun p hp q hq hpq => ?_⟩
      -- the paths of both parts go on with different keys
      obtain ⟨t, ht, rfl⟩ := List.mem_map.mp hp
      obtain ⟨u, hu, rfl⟩ := List.mem_map.mp hq
      obtain ⟨keys, node, rfl, -⟩ := exists_at_of_mem_tokensAt h.1 ht
      obtain ⟨next, keys', node', rfl, -, -, hnext, -⟩ := exists_at_of_mem_tokensIn hkeys.2 h.2 hu
      obtain ⟨rfl, -⟩ := List.cons.inj (List.append_cancel_left hpq)
      exact hkeys.1 hnext

end

end Document

end StyleTokens
