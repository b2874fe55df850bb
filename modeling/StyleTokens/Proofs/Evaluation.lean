import Mathlib.Data.List.Chain
import Mathlib.Data.List.Perm.Subperm
import Mathlib.Logic.Relation
import StyleTokens.Proofs.Definitions
import StyleTokens.Proofs.Knowledge

/-!
Following references.

* `Refers`: the value defined at a path has a reference to another path;
* `ResolveError.Justified`: a failure that says the truth: a cycle is one of distinct paths, each of
  which refers to the next, and a dangling reference stands in its owner and names no path;
* `evaluate_keeps`: evaluating a token keeps every invariant that finding one more value keeps, ends
  with the value of the token known, and fails only with a justified error; the fuel never runs out;
* `Memo.Ordered`: the values found so far in the order in which they were found, each of them
  replaced from earlier ones; `Ordered.acc`: such values rest on no cycle;
  `Ordered.le_of_solves`: whatever solves the equations of the definitions has them;
* `resolveEach_spec`: the same for the tokens of a table one after the other.
-/

namespace StyleTokens

/-- The value defined at the first path has a reference to the second one. -/
def Refers (defs : Path → Option Token) (p q : Path) : Prop :=
  ∃ t, defs p = some t ∧ ∃ r ∈ t.value.references, Reference.target r = q

/-- What a failure says is so. -/
def ResolveError.Justified (defs : Path → Option Token) : ResolveError → Prop
  | .circular chain => ∃ p between, chain = p :: between ++ [p] ∧ (p :: between).Nodup ∧
      chain.IsChain (Refers defs)
  | .dangling owner reference => ∃ t, defs owner = some t ∧ reference ∈ t.value.references ∧
      defs (Reference.target reference) = none
  | .compositeTag kind => ∃ p t, defs p = some t ∧ t.hasKnownTag = .error kind

/-! ### Chains of references -/

section Chains

variable {α : Type} {R : α → α → Prop}

/-- Every member of a chain but the last one is related to another. -/
lemma exists_of_isChain {l : List α} {x a : α} (h : (l ++ [x]).IsChain R) (ha : a ∈ l) :
    ∃ b, R a b := by
  obtain ⟨front, back, rfl⟩ := List.append_of_mem ha
  rw [List.append_assoc, List.cons_append] at h
  have hback := h.right_of_append
  cases back with
  | nil => exact ⟨x, hback.rel⟩
  | cons b back => exact ⟨b, hback.rel⟩

/-- A chain leads from its first member to its last one. -/
lemma transGen_of_isChain {l : List α} {a b : α} (h : (a :: l ++ [b]).IsChain R) :
    Relation.TransGen R a b := by
  induction l generalizing a with
  | nil => exact .single h.rel
  | cons c l ih => exact .head h.rel (ih h.tail)

/-- What leads nowhere for ever does not lead back to itself. -/
lemma not_transGen_of_acc {a : α} (h : Acc (fun y x => R x y) a) : ¬ Relation.TransGen R a a := by
  induction h with
  | intro a _ ih =>
      intro hcycle
      obtain ⟨b, hab, hba⟩ := Relation.TransGen.head'_iff.mp hcycle
      exact ih b hab (.tail' hba hab)

/-- A list from the first occurrence of a member on. -/
lemma exists_dropWhile [DecidableEq α] {l : List α} {a : α} (h : a ∈ l) :
    ∃ front back, l = front ++ a :: back ∧ l.dropWhile (· ≠ a) = a :: back := by
  induction l with
  | nil => simp at h
  | cons b l ih =>
      by_cases hb : b = a
      · exact ⟨[], l, by simp [hb], by simp [hb]⟩
      · obtain ⟨front, back, hl, hdrop⟩ := ih ((List.mem_cons.mp h).resolve_left (Ne.symm hb))
        refine ⟨b :: front, back, by simp [hl], ?_⟩
        rw [List.dropWhile_cons_of_pos (by simpa using hb), hdrop]

end Chains

namespace TokenTable

variable {table : TokenTable}

/-! ### Evaluating a token -/

/-- The paths whose values are being computed, on the way to a path: each refers to the next, and no
path comes twice. -/
structure Trail (table : TokenTable) (active : List Path) (path : Path) : Prop where
  chain : (active ++ [path]).IsChain (Refers table.get?)
  nodup : active.Nodup

lemma Trail.nil (path : Path) : Trail table [] path := ⟨.singleton _, List.nodup_nil⟩

/-- A trail goes on along a reference to any path that is not new to it only at its end. -/
lemma Trail.snoc {active : List Path} {p q : Path} (h : Trail table active p) (hp : p ∉ active)
    (hpq : Refers table.get? p q) : Trail table (active ++ [p]) q := by
  refine ⟨List.isChain_append.mpr ⟨h.chain, .singleton _, ?_⟩, ?_⟩
  · intro x hx y hy
    obtain rfl : p = x := by simpa using hx
    obtain rfl : q = y := by simpa using hy
    exact hpq
  · refine List.nodup_append.mpr ⟨h.nodup, List.nodup_singleton _, fun x hx y hy => ?_⟩
    rw [List.mem_singleton.mp hy]
    exact fun e => hp (e ▸ hx)

/-- A trail is no longer than the table. -/
lemma Trail.length_le {active : List Path} {path : Path} (h : Trail table active path) :
    active.length ≤ table.length := by
  have hsub : active ⊆ table.map Token.path := by
    intro p hp
    obtain ⟨q, t, ht, -⟩ := exists_of_isChain h.chain hp
    obtain ⟨hmem, rfl⟩ := mem_of_get? ht
    exact List.mem_map_of_mem hmem
  simpa using (List.subperm_of_subset h.nodup hsub).length_le

/-- A trail that comes back to one of its paths has gone round a cycle. -/
lemma Trail.justified {active : List Path} {path : Path} (h : Trail table active path)
    (hmem : path ∈ active) :
    (ResolveError.circular (active.dropWhile (· ≠ path) ++ [path])).Justified table.get? := by
  obtain ⟨front, back, hactive, hdrop⟩ := exists_dropWhile hmem
  refine ⟨path, back, by rw [hdrop], ?_, ?_⟩
  · have hnodup := h.nodup
    rw [hactive] at hnodup
    exact (List.nodup_append.mp hnodup).2.1
  · have hchain := h.chain
    rw [hactive, List.append_assoc] at hchain
    rw [hdrop]
    exact hchain.right_of_append

/-- How a token looks up the names of its references. -/
def lookUp (table : TokenTable) (fuel : Nat) (active : List Path) (token : Token)
    (name : String) : Resolving Json :=
  match table.get? (Reference.target name) with
  | some t => evaluate table fuel (active ++ [token.path]) t
  | none => throw (.dangling token.path (Text.stripped name))

/-- A value that was found is given again. -/
lemma run_evaluate_known {fuel : Nat} {active : List Path} {token : Token} {memo : Memo} {v : Json}
    (h : memo.values token.path = some v) :
    (evaluate table (fuel + 1) active token).run memo = .ok (v, memo) := by
  have h : memo.lookup token.path = some v := h
  simp [evaluate, h]
  rfl

/-- A token whose value is being computed stands on a cycle. -/
lemma run_evaluate_active {fuel : Nat} {active : List Path} {token : Token} {memo : Memo}
    (h : memo.values token.path = none) (hmem : token.path ∈ active) :
    (evaluate table (fuel + 1) active token).run memo
      = .error (.circular (active.dropWhile (· ≠ token.path) ++ [token.path])) := by
  have h : memo.lookup token.path = none := h
  simp [evaluate, h, hmem]
  rfl

/-- Any other token has its references replaced, and its value is kept. -/
lemma run_evaluate_new {fuel : Nat} {active : List Path} {token : Token} {memo : Memo}
    (h : memo.values token.path = none) (hmem : token.path ∉ active) :
    (evaluate table (fuel + 1) active token).run memo
      = match (replaceReferences (lookUp table fuel active token) token.value).run memo with
        | .ok (v, memo') => .ok (v, (token.path, v) :: memo')
        | .error e => .error e := by
  have h : memo.lookup token.path = none := h
  simp only [evaluate, StateT.run_bind, StateT.run_get, pure_bind, h, hmem, if_false]
  change ((replaceReferences (lookUp table fuel active token) token.value).run memo >>= _) = _
  cases (replaceReferences (lookUp table fuel active token) token.value).run memo <;> rfl

/-- A property of the values found so far that stays when the value of one more definition is
found. -/
def KeptByFinding (defs : Path → Option Token) (Inv : Memo → Prop) : Prop :=
  ∀ memo t v, Inv memo → defs t.path = some t → memo.values t.path = none →
    Substituted memo.values t.value v → Inv ((t.path, v) :: memo)

/-- The invariant holds, and no path has a value whose value is still being computed. -/
def Pending (Inv : Memo → Prop) (active : List Path) (memo : Memo) : Prop :=
  Inv memo ∧ ∀ p ∈ active, memo.values p = none

/-- The value that a token has found is put to the others. -/
lemma Pending.cons {Inv : Memo → Prop} (hInv : KeptByFinding table.get? Inv) {active : List Path}
    {memo : Memo} {t : Token} {v : Json} (h : Pending Inv (active ++ [t.path]) memo)
    (ht : table.get? t.path = some t) (hmem : t.path ∉ active)
    (hv : Substituted memo.values t.value v) : Pending Inv active ((t.path, v) :: memo) := by
  obtain ⟨hinv, hfresh⟩ := h
  refine ⟨hInv memo t v hinv ht (hfresh _ (by simp)) hv, fun p hp => ?_⟩
  have hne : p ≠ t.path := fun e => hmem (e ▸ hp)
  rw [Memo.values_cons, if_neg hne]
  exact hfresh p (by simp [hp])

/-- A token without a value can be put to those whose values are being computed. -/
lemma Pending.snoc {Inv : Memo → Prop} {active : List Path} {memo : Memo} {path : Path}
    (h : Pending Inv active memo) (hnew : memo.values path = none) :
    Pending Inv (active ++ [path]) memo := by
  refine ⟨h.1, fun p hp => ?_⟩
  rcases List.mem_append.mp hp with hp | hp
  · exact h.2 p hp
  · rw [List.mem_singleton.mp hp, hnew]

/-- Looking up a reference of a token finds the value that it names, if evaluating the tokens that
are one reference further does. -/
lemma finds_lookUp {Inv : Memo → Prop} {fuel : Nat} {active : List Path} {token : Token}
    (htoken : table.get? token.path = some token) (hmem : token.path ∉ active)
    (htrail : Trail table active token.path)
    (hnext : ∀ t, table.get? t.path = some t → Trail table (active ++ [token.path]) t.path →
      Resolving.Keeps (Pending Inv (active ++ [token.path])) (ResolveError.Justified table.get?)
        (evaluate table fuel (active ++ [token.path]) t) fun σ v => σ t.path = some v)
    {name : String} (hname : Text.stripped name ∈ token.value.references) :
    Resolving.Finds (Pending Inv (active ++ [token.path])) (ResolveError.Justified table.get?)
      (lookUp table fuel active token) name := by
  rw [Resolving.Finds, lookUp]
  split
  · next t ht =>
      obtain ⟨-, hpath⟩ := mem_of_get? ht
      have hrefers : Refers table.get? token.path t.path :=
        ⟨token, htoken, _, hname, by simp [hpath]⟩
      have hkeeps := hnext t (by rw [hpath, ht]) (htrail.snoc hmem hrefers)
      refine hkeeps.imp fun σ v hv => ?_
      rw [Values.named, ← hpath, hv]
  · next hnone => exact fun _ _ => ⟨token, htoken, hname, by simpa using hnone⟩

/-- **Evaluating a token** keeps the invariant, forgets no value, ends with its value known, and
fails only with a justified error. The paths being computed and the fuel add up to more than the
table has, so the fuel does not run out. -/
theorem evaluate_keeps {Inv : Memo → Prop} (hInv : KeptByFinding table.get? Inv) {fuel : Nat}
    {active : List Path} {token : Token} (htoken : table.get? token.path = some token)
    (htrail : Trail table active token.path) (hfuel : table.length < active.length + fuel) :
    Resolving.Keeps (Pending Inv active) (ResolveError.Justified table.get?)
      (evaluate table fuel active token) fun σ v => σ token.path = some v := by
  induction fuel generalizing active token with
  | zero => exact absurd htrail.length_le (by omega)
  | succ fuel ih =>
      intro memo hmemo
      cases hknown : memo.values token.path with
      | some v =>
          rw [run_evaluate_known hknown]
          exact ⟨hmemo, .refl _, hknown⟩
      | none =>
          by_cases hmem : token.path ∈ active
          · rw [run_evaluate_active hknown hmem]
            exact htrail.justified hmem
          · have hlength : table.length < (active ++ [token.path]).length + fuel := by
              rw [List.length_append, List.length_singleton]
              omega
            have hreplace := Resolving.keeps_replaceReferences
              (fun name hname => finds_lookUp htoken hmem htrail
                (fun t ht htrail' => ih ht htrail' hlength) hname) memo (hmemo.snoc hknown)
            rw [run_evaluate_new hknown hmem]
            cases hrun : (replaceReferences (lookUp table fuel active token)
                token.value).run memo with
            | error e =>
                rw [hrun] at hreplace
                exact hreplace
            | ok p =>
                obtain ⟨v, memo'⟩ := p
                rw [hrun] at hreplace
                obtain ⟨hpending, hle, hv⟩ := hreplace
                have hnew := hpending.2 token.path (by simp)
                exact ⟨hpending.cons hInv htoken hmem hv, hle.trans (Memo.le_cons hnew v),
                  by simp [Memo.values_cons]⟩

/-! ### The tokens of a table one after the other -/

end TokenTable

/-- A definition with the value that is known for its path. -/
def Token.settled (values : Values) (token : Token) : Token :=
  token.resolved ((values token.path).getD .null)

namespace TokenTable

variable {table : TokenTable}

/-- A resolution without failure gives every token the value that is known in the end, and has looked
at every type tag; any other one fails for a good reason. -/
def Settles (Inv : Memo → Prop) (defs : Path → Option Token) (tokens : List Token) (memo : Memo)
    (r : Resolution) : Prop :=
  match r.failure with
  | none => ∃ memo', Inv memo' ∧ memo.values.Le memo'.values ∧
      (∀ t ∈ tokens, ∃ v, memo'.values t.path = some v) ∧
      (∀ t ∈ tokens, ∃ known, t.hasKnownTag = .ok known) ∧
      r.tokens = tokens.map (Token.settled memo'.values)
  | some e => e.Justified defs

/-- **Resolving tokens one after the other** keeps the invariant, gives every token the value that
is known in the end, and fails only with a justified error. -/
theorem resolveEach_spec {Inv : Memo → Prop} (hInv : KeptByFinding table.get? Inv)
    {tokens : List Token} (htokens : ∀ t ∈ tokens, table.get? t.path = some t) {memo : Memo}
    (hmemo : Inv memo) : Settles Inv table.get? tokens memo (table.resolveEach tokens memo) := by
  induction tokens generalizing memo with
  | nil => exact ⟨memo, hmemo, .refl _, by simp, by simp, rfl⟩
  | cons t rest ih =>
      have ht := htokens t (by simp)
      rw [resolveEach]
      cases htag : t.hasKnownTag with
      | error kind => exact ⟨t.path, t, ht, htag⟩
      | ok known =>
          have hfuel : table.length < ([] : List Path).length + (table.length + 1) := by simp
          have heval := evaluate_keeps hInv ht (.nil _) hfuel memo ⟨hmemo, by simp⟩
          cases hrun : (table.evaluate (table.length + 1) [] t).run memo with
          | error e =>
              rw [hrun] at heval
              exact heval
          | ok p =>
              obtain ⟨v, memo₁⟩ := p
              rw [hrun] at heval
              obtain ⟨⟨hinv, -⟩, hle, hv⟩ := heval
              have hrest := ih (fun u hu => htokens u (by simp [hu])) hinv
              simp only [Settles] at hrest ⊢
              split at hrest
              · obtain ⟨memo', hinv', hle', hall, htags, htoks⟩ := hrest
                have hv' := hle' _ _ hv
                refine ⟨memo', hinv', hle.trans hle', ?_, ?_, ?_⟩
                · exact List.forall_mem_cons.mpr ⟨⟨v, hv'⟩, hall⟩
                · exact List.forall_mem_cons.mpr ⟨⟨known, htag⟩, htags⟩
                · simp [htoks, Token.settled, hv']
              · exact hrest

end TokenTable

/-! ### The order in which values are found -/

/-- Values in the order in which they were found, the last one first: each is the value of a
definition, with its references replaced from earlier ones. -/
inductive Memo.Ordered (defs : Path → Option Token) : Memo → Prop where
  | nil : Ordered defs []
  | cons {memo : Memo} {t : Token} {v : Json} : Ordered defs memo → defs t.path = some t →
      memo.values t.path = none → Substituted memo.values t.value v →
        Ordered defs ((t.path, v) :: memo)

/-- The values solve the equations that the definitions make: where there is a definition, the value
is that of the definition with its references replaced, and elsewhere there is none. -/
def Solves (defs : Path → Option Token) (values : Values) : Prop :=
  ∀ path, match defs path with
    | some t => ∃ v, values path = some v ∧ Substituted values t.value v
    | none => values path = none

namespace Solves

variable {defs : Path → Option Token} {values : Values}

/-- A definition has a value, which is its own with the references replaced. -/
lemma exists_value (h : Solves defs values) {p : Path} {t : Token} (ht : defs p = some t) :
    ∃ v, values p = some v ∧ Substituted values t.value v := by
  have hp := h p
  rw [ht] at hp
  exact hp

/-- A value is that of a definition with the references replaced. -/
lemma exists_definition (h : Solves defs values) {p : Path} {v : Json} (hv : values p = some v) :
    ∃ t, defs p = some t ∧ Substituted values t.value v := by
  have hp := h p
  split at hp
  · next t ht =>
      obtain ⟨w, hw, hsub⟩ := hp
      obtain rfl := Option.some.inj (hv.symm.trans hw)
      exact ⟨t, ht, hsub⟩
  · rw [hv] at hp
    exact absurd hp (by simp)

end Solves

namespace Memo.Ordered

variable {defs : Path → Option Token} {memo : Memo}

lemma keptByFinding : TokenTable.KeptByFinding defs (Memo.Ordered defs) :=
  fun _ _ _ h ht hnew hv => h.cons ht hnew hv

/-- A value that was found is that of a definition with its references replaced. -/
lemma substituted (h : memo.Ordered defs) {p : Path} {v : Json} (hv : memo.values p = some v) :
    ∃ t, defs p = some t ∧ Substituted memo.values t.value v := by
  induction h with
  | nil => simp at hv
  | @cons memo t w _ ht hnew hw ih =>
      have hle := Memo.le_cons hnew w
      rw [Memo.values_cons] at hv
      split at hv
      · next hp =>
          obtain rfl := Option.some.inj hv
          exact ⟨t, by rw [hp, ht], hw.le hle⟩
      · obtain ⟨u, hu, hsub⟩ := ih hv
        exact ⟨u, hu, hsub.le hle⟩

/-- Whatever solves the equations has the values that were found. -/
lemma le_of_solves (h : memo.Ordered defs) {τ : Values} (hτ : Solves defs τ) :
    memo.values.Le τ := by
  induction h with
  | nil => intro p v hv; simp at hv
  | @cons memo t w _ ht _ hw ih =>
      intro p v hv
      rw [Memo.values_cons] at hv
      split at hv
      · next hp =>
          obtain ⟨u, hu, hsub⟩ := hτ.exists_value ht
          rw [hp, hu, ← (hw.le ih).unique hsub, hv]
      · exact ih p v hv

/-- The references of a path with a value lead to paths with values. -/
lemma values_of_refers (h : memo.Ordered defs) {p q : Path} {v : Json}
    (hv : memo.values p = some v) (hpq : Refers defs p q) : ∃ w, memo.values q = some w := by
  obtain ⟨t, ht, hsub⟩ := h.substituted hv
  obtain ⟨u, hu, r, hr, rfl⟩ := hpq
  rw [ht] at hu
  obtain rfl := Option.some.inj hu
  exact hsub.defined hr

/-- From a path with a value no references lead on for ever. -/
lemma acc (h : memo.Ordered defs) {p : Path} {v : Json} (hv : memo.values p = some v) :
    Acc (fun q p => Refers defs p q) p := by
  induction h generalizing p v with
  | nil => simp at hv
  | @cons memo t w _ ht _ hw ih =>
      rw [Memo.values_cons] at hv
      split at hv
      · next hp =>
          -- the references of the newest value have older ones
          refine .intro p fun q hpq => ?_
          obtain ⟨u, hu, r, hr, rfl⟩ := hpq
          rw [hp, ht] at hu
          obtain rfl := Option.some.inj hu
          obtain ⟨x, hx⟩ := hw.defined hr
          exact ih hx
      · exact ih hv

end Memo.Ordered

end StyleTokens
