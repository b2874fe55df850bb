import Mathlib.Data.List.GetD
import StyleTokens.Proofs.Solution

/-!
What a refusal of documents says.

* `exists_walk_of_isChain`: a chain that comes back to its first member, as a walk with numbered
  stations;
* `stripped_of_mem_references`: the references of a value have no white space around them;
* `resolve_error_truthful`: a reported cycle is one of distinct paths, each of which refers to the
  next, and a reported reference stands in its owner and names no path.
-/

namespace StyleTokens

/-! ### Cycles -/

/-- A chain of distinct members that comes back to the first of them is a walk: its stations up to
the last one are distinct, each is related to the next, and the last is the first. -/
lemma exists_walk_of_isChain {α : Type} {R : α → α → Prop} {a : α} {between : List α}
    (hnodup : (a :: between).Nodup) (hchain : (a :: between ++ [a]).IsChain R) :
    ∃ (k : ℕ) (q : ℕ → α), 1 ≤ k ∧ a :: between ++ [a] = (List.range (k + 1)).map q ∧
      q k = q 0 ∧ (∀ i < k, ∀ j < k, q i = q j → i = j) ∧ ∀ i < k, R (q i) (q (i + 1)) := by
  have hlength : (a :: between ++ [a]).length = between.length + 2 := by simp
  have hlength' : (a :: between).length = between.length + 1 := rfl
  -- the stations are the members of the chain; behind its end any value does
  let q : ℕ → α := fun i => (a :: between ++ [a]).getD i a
  have hq : ∀ i (hi : i < (a :: between ++ [a]).length), q i = (a :: between ++ [a])[i] := by
    intro i hi
    exact List.getD_eq_getElem _ _ hi
  have hfront : ∀ i (hi : i < (a :: between).length), q i = (a :: between)[i] := by
    intro i hi
    rw [hq i (by omega)]
    exact List.getElem_append_left hi
  refine ⟨between.length + 1, q, by omega, ?_, ?_, ?_, ?_⟩
  · refine List.ext_getElem (by simp) fun i hi _ => ?_
    rw [List.getElem_map, List.getElem_range, hq i hi]
  · rw [hq _ (by omega), hq 0 (by omega)]
    simp
  · intro i hi j hj hij
    rw [hfront i hi, hfront j hj] at hij
    exact (hnodup.getElem_inj_iff).mp hij
  · intro i hi
    rw [hq i (by omega), hq (i + 1) (by omega)]
    exact List.isChain_iff_getElem.mp hchain i (by omega)

/-! ### Dangling references -/

/-- The references of a value have no white space around them. -/
lemma stripped_of_mem_references {v : Json} {r : String} (h : r ∈ v.references) :
    Text.stripped r = r := by
  obtain ⟨s, -, hr⟩ := Json.mem_references.mp h
  obtain ⟨name, -, rfl⟩ := mem_references_str.mp hr
  exact Text.stripped_stripped _

/-! ### Refusals -/

lemma ResolveError.message_circular (chain : List Path) : (circular chain).message
    = "Circular token reference: " ++ " -> ".intercalate (chain.map Path.dotted) := rfl

lemma ResolveError.message_dangling (owner : Path) (reference : String) :
    (dangling owner reference).message
      = "Token '" ++ owner.dotted ++ "' references missing token '\x7b" ++ reference ++ "\x7d'" :=
  rfl

/-- **What a refusal says is so.** A reported cycle is a sequence of defined paths `q 0, …, q k`
that ends where it begins and has no other repetition, in which the value defined at each path has a
reference to the next one; it is shown as these paths with dots. A reported reference stands in
the value defined at its owner, and cut at its dots it names no defined path. -/
theorem resolve_error_truthful {docs : List Document} {e : ResolveError}
    (h : resolve docs = .error e) :
    (∀ chain, e = .circular chain →
      ∃ (k : ℕ) (q : ℕ → Path), 1 ≤ k ∧ chain = (List.range (k + 1)).map q ∧ q k = q 0 ∧
        (∀ i < k, ∀ j < k, q i = q j → i = j) ∧
        (∀ i < k, ∃ t, lastDefinition docs (q i) = some t ∧
          ∃ r ∈ t.value.references, Reference.target r = q (i + 1)) ∧
        e.message = "Circular token reference: " ++
          " -> ".intercalate ((List.range (k + 1)).map fun i => (q i).dotted)) ∧
    ∀ owner reference, e = .dangling owner reference →
      ∃ t, lastDefinition docs owner = some t ∧ reference ∈ t.value.references ∧
        lastDefinition docs (Text.ofDotted reference) = none ∧
        e.message = "Token '" ++ t.dotted ++ "' references missing token '\x7b" ++ reference ++
          "\x7d'" := by
  have hjustified := justified_of_resolve h
  constructor
  · intro chain he
    subst he
    obtain ⟨p, between, rfl, hnodup, hchain⟩ := hjustified
    obtain ⟨k, q, hk, hwalk, hclosed, hdistinct, hsteps⟩ := exists_walk_of_isChain hnodup hchain
    refine ⟨k, q, hk, hwalk, hclosed, hdistinct, hsteps, ?_⟩
    rw [ResolveError.message_circular, hwalk, List.map_map]
    rfl
  · intro owner reference he
    subst he
    obtain ⟨t, ht, hreference, hnone⟩ := hjustified
    rw [Reference.target, stripped_of_mem_references hreference] at hnone
    refine ⟨t, ht, hreference, hnone, ?_⟩
    rw [ResolveError.message_dangling, Token.dotted, path_of_lastDefinition ht]

/-- An edge that leads to a gap, which refers to a size that refers back to it inside an object. -/
def windingSizes : Document :=
  ⟨"winding", [
    ("base", .obj [("value", .int 4)]),
    ("edge", .obj [("value", .arr [.str "\x7bbase\x7dpx", .str "\x7bgap\x7d solid"])]),
    ("gap", .obj [("value", .str "\x7bsize\x7d")]),
    ("size", .obj [("value", .obj [("least", .str "\x7b gap \x7dpx")])])]⟩

/-- A size in the place of the one that refers back. -/
def strayingSizes : Document :=
  ⟨"straying", [("size", .obj [("value", .arr [.str "1px \x7b no.such \x7d"])])]⟩

/-- The edge leads to the cycle and is no part of what is reported; without the cycle, the reference
to nothing is reported for the size that holds it. -/
theorem resolve_error_winding :
    (∃ (k : ℕ) (q : ℕ → Path), 1 ≤ k ∧ [["gap"], ["size"], ["gap"]] = (List.range (k + 1)).map q ∧
      q k = q 0 ∧ ∀ i < k, ∃ t, lastDefinition [windingSizes] (q i) = some t ∧
        ∃ r ∈ t.value.references, Reference.target r = q (i + 1)) ∧
    ∃ t, lastDefinition [windingSizes, strayingSizes] ["size"] = some t ∧
      "no.such" ∈ t.value.references ∧
      lastDefinition [windingSizes, strayingSizes] (Text.ofDotted "no.such") = none := by
  have hcycle : resolve [windingSizes] = .error (.circular [["gap"], ["size"], ["gap"]]) := rfl
  have hstray : resolve [windingSizes, strayingSizes] = .error (.dangling ["size"] "no.such") := rfl
  obtain ⟨k, q, hk, hchain, hclosed, -, hsteps, -⟩ := (resolve_error_truthful hcycle).1 _ rfl
  obtain ⟨t, ht, hreference, hnone, -⟩ := (resolve_error_truthful hstray).2 _ _ rfl
  exact ⟨⟨k, q, hk, hchain, hclosed, hsteps⟩, t, ht, hreference, hnone⟩

end StyleTokens
