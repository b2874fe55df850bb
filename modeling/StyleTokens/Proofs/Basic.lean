import Mathlib.Data.List.Forall2
import Mathlib.Data.List.Nodup
import Mathlib.Tactic.Common

/-!
General facts.

* `exists_of_bind_eq_ok`, `ok_bind`, `exists_of_map_eq_ok`, `eq_ok_of_mapError_eq_ok`,
  `mapError_eq_ok_iff`, `exists_of_mapError_eq_error`, `bind_eq_error_iff`: computations that can
  fail;
* `forall₂_of_mapM`, `mapM_eq_ok_iff`, `exists_mapM_eq_ok_iff`, `mapM_eq_error_iff`, `mapM_map`,
  `filterM_sublist`, `exists_filterM_eq_ok_iff`, `mem_of_findM?`: lists whose elements are changed or
  chosen by such computations;
* `find?_key_eq_some_iff`: look-up among elements with distinct keys;
* `lookup_of_put`, `keys_of_put`, `nodup_keys_foldl`: keys that are given values; `lookup_filter`: keys
  that are kept; `eraseDups_concat`: keys in the order in which they come first;
* `toNat_toLower`: characters in lower case.
-/

namespace StyleTokens

variable {ε α β : Type}

/-! ### Computations that can fail -/

/-- A computation in two steps that does not fail. -/
lemma exists_of_bind_eq_ok {x : Except ε α} {f : α → Except ε β} {b : β} (h : x >>= f = .ok b) :
    ∃ a, x = .ok a ∧ f a = .ok b := by
  cases x with
  | error e => exact absurd h (by simp [bind, Except.bind])
  | ok a => exact ⟨a, rfl, h⟩

/-- A computation whose first step does not fail is its second step. -/
lemma ok_bind (a : α) (f : α → Except ε β) : (Except.ok a >>= f) = f a := rfl

/-- A result that is seen differently is one that was there. -/
lemma exists_of_map_eq_ok {x : Except ε α} {f : α → β} {b : β} (h : x.map f = .ok b) :
    ∃ a, x = .ok a ∧ f a = b := by
  cases x with
  | error e => cases h
  | ok a => exact ⟨a, rfl, Except.ok.inj h⟩

/-- What happens to a result does not make it fail. -/
lemma eq_error_of_map_eq_error {x : Except ε α} {f : α → β} {e : ε} (h : x.map f = .error e) :
    x = .error e := by
  cases x with
  | ok a => cases h
  | error e' => exact congrArg Except.error (Except.error.inj h)

/-- A result among failures that are seen differently is one that was there. -/
lemma eq_ok_of_mapError_eq_ok {ε' : Type} {x : Except ε α} {f : ε → ε'} {a : α}
    (h : x.mapError f = .ok a) : x = .ok a := by
  cases x with
  | ok b => exact congrArg Except.ok (Except.ok.inj h)
  | error e => cases h

lemma mapError_eq_ok_iff {ε' : Type} {x : Except ε α} {f : ε → ε'} {a : α} :
    x.mapError f = .ok a ↔ x = .ok a :=
  ⟨eq_ok_of_mapError_eq_ok, fun h => h ▸ rfl⟩

/-- A failure that is seen differently is one that was there. -/
lemma exists_of_mapError_eq_error {ε' : Type} {x : Except ε α} {f : ε → ε'} {e' : ε'}
    (h : x.mapError f = .error e') : ∃ e, x = .error e ∧ f e = e' := by
  cases x with
  | ok a => cases h
  | error e => exact ⟨e, rfl, Except.error.inj h⟩

/-- A computation in two steps fails at the first step, or at the second one after it. -/
lemma bind_eq_error_iff {x : Except ε α} {f : α → Except ε β} {e : ε} :
    x >>= f = .error e ↔ x = .error e ∨ ∃ a, x = .ok a ∧ f a = .error e := by
  cases x with
  | error e' => simp [bind, Except.bind]
  | ok a => simp [bind, Except.bind]

/-- The elements of a list, changed one by one without failure. -/
lemma forall₂_of_mapM {f : α → Except ε β} {xs : List α} {ys : List β}
    (h : xs.mapM f = .ok ys) : List.Forall₂ (fun x y => f x = .ok y) xs ys := by
  induction xs generalizing ys with
  | nil =>
      obtain rfl : [] = ys := Except.ok.inj h
      exact .nil
  | cons x xs ih =>
      rw [List.mapM_cons] at h
      obtain ⟨y, hy, h⟩ := exists_of_bind_eq_ok h
      obtain ⟨rest, hrest, h⟩ := exists_of_bind_eq_ok h
      obtain rfl : y :: rest = ys := Except.ok.inj h
      exact .cons hy (ih hrest)

/-- What the elements of a list are changed to one by one. -/
lemma mapM_eq_ok_iff {f : α → Except ε β} {xs : List α} {ys : List β} :
    xs.mapM f = .ok ys ↔ List.Forall₂ (fun x y => f x = .ok y) xs ys := by
  refine ⟨forall₂_of_mapM, fun h => ?_⟩
  induction h with
  | nil => rfl
  | cons hy _ ih =>
      rw [List.mapM_cons, hy, ok_bind, ih]
      rfl

/-- The elements of a list can be changed one by one exactly if each can. -/
lemma exists_mapM_eq_ok_iff {f : α → Except ε β} {xs : List α} :
    (∃ ys, xs.mapM f = .ok ys) ↔ ∀ x ∈ xs, ∃ y, f x = .ok y := by
  induction xs with
  | nil => simp [pure, Except.pure]
  | cons x xs ih =>
      rw [List.forall_mem_cons, ← ih, List.mapM_cons]
      constructor
      · rintro ⟨ys, h⟩
        obtain ⟨y, hy, h⟩ := exists_of_bind_eq_ok h
        obtain ⟨rest, hrest, -⟩ := exists_of_bind_eq_ok h
        exact ⟨⟨y, hy⟩, rest, hrest⟩
      · rintro ⟨⟨y, hy⟩, rest, hrest⟩
        exact ⟨y :: rest, by rw [hy, ok_bind, hrest]; rfl⟩

/-- Elements that are changed one by one fail at the first one that does. -/
lemma mapM_eq_error_iff {f : α → Except ε β} {xs : List α} {e : ε} :
    xs.mapM f = .error e ↔ ∃ before x after, xs = before ++ x :: after ∧
      (∀ y ∈ before, ∃ z, f y = .ok z) ∧ f x = .error e := by
  constructor
  · intro h
    induction xs with
    | nil => cases h
    | cons x xs ih =>
        rw [List.mapM_cons, bind_eq_error_iff] at h
        rcases h with h | ⟨y, hy, h⟩
        · exact ⟨[], x, xs, rfl, by simp, h⟩
        · rcases bind_eq_error_iff.mp h with h | ⟨_, -, h⟩
          · obtain ⟨before, u, after, rfl, hbefore, hu⟩ := ih h
            exact ⟨x :: before, u, after, rfl, List.forall_mem_cons.mpr ⟨⟨y, hy⟩, hbefore⟩, hu⟩
          · cases h
  · rintro ⟨before, x, after, rfl, hbefore, hx⟩
    obtain ⟨ys, hys⟩ := exists_mapM_eq_ok_iff.mpr hbefore
    rw [List.mapM_append, hys, ok_bind, List.mapM_cons, hx]
    rfl

/-- Elements whose results are seen differently are a list that is seen differently. -/
lemma mapM_map {γ : Type} (f : α → Except ε β) (g : β → γ) (xs : List α) :
    (xs.mapM fun x => (f x).map g) = (xs.mapM f).map (List.map g) := by
  induction xs with
  | nil => rfl
  | cons x xs ih =>
      rw [List.mapM_cons, List.mapM_cons, ih]
      cases f x with
      | error e => rfl
      | ok y => cases xs.mapM f <;> rfl

/-- An element of the second list comes from one of the first. -/
lemma exists_of_mem_forall₂ {R : α → β → Prop} {xs : List α} {ys : List β}
    (h : List.Forall₂ R xs ys) {y : β} (hy : y ∈ ys) : ∃ x ∈ xs, R x y := by
  induction h with
  | nil => exact absurd hy (by simp)
  | cons hxy _ ih =>
      rcases List.mem_cons.mp hy with rfl | hy
      · exact ⟨_, by simp, hxy⟩
      · obtain ⟨x, hx, hR⟩ := ih hy
        exact ⟨x, by simp [hx], hR⟩

/-- The elements that are kept stay in order behind those kept before. -/
lemma filterAuxM_sublist {p : α → Except ε Bool} {xs acc ys : List α}
    (h : xs.filterAuxM p acc = .ok ys) : ys.reverse.Sublist (acc.reverse ++ xs) := by
  induction xs generalizing acc with
  | nil =>
      obtain rfl : acc = ys := Except.ok.inj h
      simp
  | cons x xs ih =>
      rw [List.filterAuxM] at h
      obtain ⟨kept, -, h⟩ := exists_of_bind_eq_ok h
      cases kept with
      | true => simpa using ih h
      | false => exact (ih h).trans (List.Sublist.append_left (List.sublist_cons_self x xs) _)

/-- The elements that are kept are in order. -/
lemma filterM_sublist {p : α → Except ε Bool} {xs ys : List α} (h : xs.filterM p = .ok ys) :
    ys.Sublist xs := by
  obtain ⟨kept, hkept, h⟩ := exists_of_bind_eq_ok h
  obtain rfl : kept.reverse = ys := Except.ok.inj h
  simpa using filterAuxM_sublist hkept

/-- Elements can be chosen exactly if each of them can be looked at. -/
lemma exists_filterM_eq_ok_iff {p : α → Except ε Bool} {xs : List α} :
    (∃ ys, xs.filterM p = .ok ys) ↔ ∀ x ∈ xs, ∃ b, p x = .ok b := by
  have haux : ∀ acc, (∃ ys, xs.filterAuxM p acc = .ok ys) ↔ ∀ x ∈ xs, ∃ b, p x = .ok b := by
    induction xs with
    | nil => exact fun acc => iff_of_true ⟨acc, rfl⟩ (by simp)
    | cons x xs ih =>
        intro acc
        rw [List.filterAuxM, List.forall_mem_cons]
        cases hx : p x with
        | error e => exact iff_of_false (by rintro ⟨_, ⟨⟩⟩) (by rintro ⟨⟨_, ⟨⟩⟩, -⟩)
        | ok b =>
            have hhead : ∃ b', (Except.ok b : Except ε Bool) = .ok b' := ⟨b, rfl⟩
            rw [ok_bind, ih]
            exact (and_iff_right hhead).symm
  rw [← haux [], List.filterM]
  cases xs.filterAuxM p [] with
  | ok kept => exact iff_of_true ⟨_, rfl⟩ ⟨_, rfl⟩
  | error e => exact iff_of_false (by rintro ⟨_, ⟨⟩⟩) (by rintro ⟨_, ⟨⟩⟩)

/-- An element that is found is one of the list. -/
lemma mem_of_findM? {p : α → Except ε Bool} {xs : List α} {x : α}
    (h : xs.findM? p = .ok (some x)) : x ∈ xs := by
  induction xs with
  | nil => cases h
  | cons y ys ih =>
      rw [List.findM?] at h
      obtain ⟨found, -, h⟩ := exists_of_bind_eq_ok h
      cases found with
      | true =>
          obtain rfl : y = x := Option.some.inj (Except.ok.inj h)
          simp
      | false => exact List.mem_cons_of_mem y (ih h)

/-! ### Keys and values -/

/-- A key has the value that it is given, in the place of the one that it had or at the end, and other
keys keep theirs. -/
lemma lookup_of_put {κ : Type} [BEq κ] [LawfulBEq κ] [DecidableEq κ] {key : κ} {a : α}
    (put : List (κ × α) → List (κ × α))
    (hnil : put [] = [(key, a)])
    (hcons : ∀ k b rest, put ((k, b) :: rest)
      = if k = key then (k, a) :: rest else (k, b) :: put rest)
    (entries : List (κ × α)) (k : κ) :
    (put entries).lookup k = if k = key then some a else entries.lookup k := by
  induction entries with
  | nil =>
      rw [hnil]
      by_cases hk : k = key
      · simp [hk]
      · simp [hk, List.lookup_cons, beq_false_of_ne hk]
  | cons entry rest ih =>
      obtain ⟨k', b⟩ := entry
      rw [hcons]
      split
      · next h =>
          subst h
          by_cases hk : k = k'
          · simp [hk]
          · simp [hk, List.lookup_cons, beq_false_of_ne hk]
      · next h =>
          rw [List.lookup_cons, List.lookup_cons, ih]
          by_cases hk : k = k'
          · subst hk
            simp [h]
          · simp [beq_false_of_ne hk]

/-- The value of a key among the entries whose keys are kept. -/
lemma lookup_filter {κ : Type} [BEq κ] [LawfulBEq κ] (keeps : κ → Bool)
    (entries : List (κ × α)) (key : κ) :
    (entries.filter fun e => keeps e.1).lookup key
      = if keeps key then entries.lookup key else none := by
  induction entries with
  | nil => simp
  | cons entry rest ih =>
      obtain ⟨k, a⟩ := entry
      rw [List.filter_cons, List.lookup_cons]
      by_cases hk : key = k
      · subst hk
        by_cases hkept : keeps key
        · simp [hkept]
        · simp [hkept, ih]
      · by_cases hkept : keeps k
        · simp [hkept, ih, List.lookup_cons, beq_false_of_ne hk]
        · simp [hkept, ih, beq_false_of_ne hk]

/-- An element at the end of a list comes first there exactly if it does not come up before. -/
lemma eraseDups_concat {κ : Type} [BEq κ] [LawfulBEq κ] (xs : List κ) (x : κ) :
    (xs ++ [x]).eraseDups = if x ∈ xs then xs.eraseDups else xs.eraseDups ++ [x] := by
  rw [List.eraseDups_append, List.removeAll, List.filter_singleton]
  have hsingle : [x].eraseDups = [x] := rfl
  by_cases h : x ∈ xs <;> simp [h, hsingle]

section Keyed

variable {κ : Type} [BEq κ] [LawfulBEq κ] {f : α → κ} {key : κ} {xs : List α}

/-- Among elements with distinct keys, the one that is found at a key is the one that has it. -/
lemma find?_key_eq_some_iff (h : (xs.map f).Nodup) {x : α} :
    (xs.find? fun y => f y == key) = some x ↔ x ∈ xs ∧ f x = key := by
  constructor
  · intro hfind
    exact ⟨List.mem_of_find?_eq_some hfind, by simpa using List.find?_some hfind⟩
  · rintro ⟨hmem, rfl⟩
    have hsome : (xs.find? fun y => f y == f x).isSome :=
      List.find?_isSome.mpr ⟨x, hmem, by simp⟩
    obtain ⟨y, hy⟩ := Option.isSome_iff_exists.mp hsome
    have hkey : f y = f x := by simpa using List.find?_some hy
    rw [hy, List.inj_on_of_nodup_map h (List.mem_of_find?_eq_some hy) hmem hkey]

/-- The keys after an element is put in the place of the one with its key, or at the end. -/
lemma keys_of_put [DecidableEq κ] (put : List α → List α) (hnil : (put []).map f = [key])
    (hcons : ∀ x rest, (put (x :: rest)).map f
      = if f x = key then key :: rest.map f else f x :: (put rest).map f) (xs : List α) :
    (put xs).map f = if key ∈ xs.map f then xs.map f else xs.map f ++ [key] := by
  induction xs with
  | nil => simpa using hnil
  | cons x rest ih =>
      rw [hcons]
      by_cases hx : f x = key
      · simp [hx]
      · rw [if_neg hx, ih, List.map_cons]
        by_cases hmem : key ∈ rest.map f
        · simp [hmem]
        · simp [hmem, Ne.symm hx]

/-- Keys stay distinct when elements are put one after the other. -/
lemma nodup_keys_foldl {put : β → List α → List α} {g : β → κ}
    (hput : ∀ b xs, (put b xs).map f
      = if g b ∈ xs.map f then xs.map f else xs.map f ++ [g b])
    (bs : List β) (h : (xs.map f).Nodup) :
    ((bs.foldl (fun acc b => put b acc) xs).map f).Nodup := by
  induction bs generalizing xs with
  | nil => exact h
  | cons b bs ih =>
      refine ih ?_
      rw [hput]
      split
      · exact h
      · next hnew => exact List.concat_eq_append ▸ h.concat hnew

end Keyed

/-! ### Characters -/

/-- The letters of ASCII have their lower case 32 places higher, and other characters stay. -/
lemma toNat_toLower (c : Char) :
    c.toLower.toNat = if 65 ≤ c.toNat ∧ c.toNat ≤ 90 then c.toNat + 32 else c.toNat := by
  by_cases h : c.val ≥ 'A'.val ∧ c.val ≤ 'Z'.val
  · have hrange : 65 ≤ c.toNat ∧ c.toNat ≤ 90 :=
      ⟨UInt32.le_iff_toNat_le.mp h.1, UInt32.le_iff_toNat_le.mp h.2⟩
    have hval : c.toLower.val = c.val + 32 := congrArg Char.val (dif_pos h)
    rw [if_pos hrange, ← Char.toNat_val, hval, UInt32.toNat_add]
    exact Nat.mod_eq_of_lt (by omega : c.toNat + 32 < 2 ^ 32)
  · have hrange : ¬ (65 ≤ c.toNat ∧ c.toNat ≤ 90) := fun hr =>
      h ⟨UInt32.le_iff_toNat_le.mpr hr.1, UInt32.le_iff_toNat_le.mpr hr.2⟩
    rw [if_neg hrange]
    exact congrArg Char.toNat (dif_neg h : c.toLower = c)

end StyleTokens
