import StyleTokens.Output.Source
import StyleTokens.Proofs.Arrangement

/-!
The leaves of nested objects.

* `Output.constants`, `Output.moduleText`: the constants of a file, and the file as text;
* `Output.LeafLaw`: the leaf at the path of a token is an identifier that is declared once, as the
  literal of its value;
* `Output.typeScript_leaves_iff`: the tokens of documents obey this law exactly if no two paths have
  one name and the names are identifiers. `Output.colliding_gaps_break_leaf` has two of one name.
-/

namespace StyleTokens

namespace Output

/-! ### Constants and leaves -/

/-- The constants that a file declares, with their literals. -/
abbrev Constants := List (String × String)

/-- The constants for a list of tokens. -/
def constants (c : TokenList) : Constants := c.tokens.map fun t => (t.name, t.value.typeScript)

/-- A file with constants and a nested object, as text. -/
def moduleText (options : Fields) (now : Moment) (ks : Constants) (tree : NameTree) : String :=
  header .block "TypeScript" options now ++ "\n\n" ++
    joinLines (ks.map fun k => "export const " ++ k.1 ++ " = " ++ k.2 ++ ";") ++
    "\n\nexport const tokens = " ++ tree.format 0 ++ " as const;\n"

/-- The written file is the text of the constants and the tree of the tokens. -/
lemma typeScript_eq_moduleText {c : TokenList} {tree : NameTree}
    (h : NameTree.ofTokens c.tokens = .ok tree) (options : Fields) (now : Moment) :
    typeScript c options now = .ok (moduleText options now (constants c) tree) := by
  rw [typeScript, h, moduleText, constants, List.map_map]
  rfl

/-- The leaf of the tree at the path of a token is an identifier that is declared exactly once, and
declared as the literal of the value of this token. -/
def LeafLaw (isIdentifier : String → Prop) (ks : Constants) (tree : NameTree) (t : Token) : Prop :=
  ∃ name, tree.at? t.path = some (.leaf name) ∧ isIdentifier name ∧
    ks.filter (fun k => k.1 = name) = [(name, t.value.typeScript)]

/-- A name is declared exactly once for its token if no other token has it. -/
lemma filter_constants {c : TokenList} (hnames : (c.tokens.map Token.name).Nodup) {t : Token}
    (ht : t ∈ c.tokens) :
    (constants c).filter (fun k => k.1 = t.name) = [(t.name, t.value.typeScript)] := by
  rw [constants]
  generalize c.tokens = tokens at hnames ht
  induction tokens with
  | nil => exact absurd ht (by simp)
  | cons u rest ih =>
      rw [List.map_cons, List.nodup_cons] at hnames
      obtain ⟨hu, hrest⟩ := hnames
      rw [List.map_cons]
      rcases List.mem_cons.mp ht with rfl | ht
      · rw [List.filter_cons_of_pos (by simp), List.filter_eq_nil_iff.mpr]
        intro k hk hname
        obtain ⟨v, hv, rfl⟩ := List.mem_map.mp hk
        exact hu (of_decide_eq_true hname ▸ List.mem_map_of_mem hv)
      · have hne : u.name ≠ t.name := fun e => hu (e ▸ List.mem_map_of_mem ht)
        rw [List.filter_cons_of_neg (by simpa using hne), ih hrest ht]

/-- If every name is declared exactly once, no two tokens have one. -/
lemma nodup_names_of_filter {c : TokenList}
    (h : ∀ t ∈ c.tokens, ∃ literal,
      (constants c).filter (fun k => k.1 = t.name) = [(t.name, literal)]) :
    (c.tokens.map Token.name).Nodup := by
  have hnames : (constants c).map Prod.fst = c.tokens.map Token.name := by
    rw [constants, List.map_map]
    rfl
  refine List.nodup_iff_count_le_one.mpr fun name => ?_
  by_cases hmem : name ∈ c.tokens.map Token.name
  · obtain ⟨t, ht, rfl⟩ := List.mem_map.mp hmem
    obtain ⟨literal, hfilter⟩ := h t ht
    rw [← hnames, List.count, List.countP_map, List.countP_eq_length_filter]
    exact le_of_eq (congrArg List.length hfilter)
  · rw [List.count_eq_zero_of_not_mem hmem]
    omega

/-! ### The tokens of documents -/

section Documents

variable {docs : List Document} {c : TokenList} {t : Token}

/-- The name of a resolved token is made of its path. -/
lemma name_of_mem_resolve (h : resolve docs = .ok c) (ht : t ∈ c.tokens) :
    t.name = camelName t.path := by
  obtain ⟨d, hd, hresolved⟩ := exists_definition_of_mem_resolve h ht
  rw [hresolved, Token.resolved, path_of_lastDefinition hd]

/-- Resolved tokens have distinct names exactly if no two of their paths have one. -/
lemma nodup_names_iff (h : resolve docs = .ok c) : (c.tokens.map Token.name).Nodup ↔
    ∀ t ∈ c.tokens, ∀ u ∈ c.tokens, camelName t.path = camelName u.path → t.path = u.path := by
  have hnodup : c.tokens.Nodup := List.Nodup.of_map _ (nodup_paths_of_resolve h)
  constructor
  · intro hnames t ht u hu htu
    rw [← name_of_mem_resolve h ht, ← name_of_mem_resolve h hu] at htu
    rw [List.inj_on_of_nodup_map hnames ht hu htu]
  · intro hinj
    refine hnodup.map_on fun t ht u hu htu => ?_
    rw [name_of_mem_resolve h ht, name_of_mem_resolve h hu] at htu
    exact List.inj_on_of_nodup_map (nodup_paths_of_resolve h) ht hu (hinj t ht u hu htu)

/-- **The tokens of documents obey the leaf law exactly if no two paths have one name and the names
are identifiers.** If no path runs through another one, the file is written: its nested object has
at the path of every token the name that is made of the path, whether or not the law holds. The
law is that this leaf is an identifier, whatever counts as one, which is declared exactly once, as
the literal of the value of the token. -/
theorem typeScript_leaves_iff (h : resolve docs = .ok c)
    (hfree : PrefixFree (c.tokens.map Token.path)) :
    ∃ tree, NameTree.ofTokens c.tokens = .ok tree ∧
      (∀ options now,
        typeScript c options now = .ok (moduleText options now (constants c) tree)) ∧
      (∀ t ∈ c.tokens, tree.at? t.path = some (.leaf (camelName t.path))) ∧
      ∀ isIdentifier : String → Prop,
        (∀ t ∈ c.tokens, LeafLaw isIdentifier (constants c) tree t) ↔
          (∀ t ∈ c.tokens, ∀ u ∈ c.tokens,
            camelName t.path = camelName u.path → t.path = u.path) ∧
          ∀ t ∈ c.tokens, isIdentifier (camelName t.path) := by
  obtain ⟨tree, htree, hleaves⟩ := NameTree.exists_ofTokens
    (fun t ht => path_ne_nil_of_mem_resolve h ht) (nodup_paths_of_resolve h) hfree
  refine ⟨tree, htree, typeScript_eq_moduleText htree, fun t ht => ?_,
    fun isIdentifier => ⟨?_, ?_⟩⟩
  · rw [hleaves t ht, name_of_mem_resolve h ht]
  · intro hlaw
    -- the identifier of the law is the name that stands at the path
    have hname : ∀ t ∈ c.tokens, isIdentifier t.name ∧
        (constants c).filter (fun k => k.1 = t.name) = [(t.name, t.value.typeScript)] := by
      intro t ht
      obtain ⟨name, hleaf, hidentifier, hfilter⟩ := hlaw t ht
      rw [hleaves t ht] at hleaf
      obtain rfl := NameTree.leaf.inj (Option.some.inj hleaf)
      exact ⟨hidentifier, hfilter⟩
    refine ⟨(nodup_names_iff h).mp (nodup_names_of_filter fun t ht => ⟨_, (hname t ht).2⟩), ?_⟩
    intro t ht
    rw [← name_of_mem_resolve h ht]
    exact (hname t ht).1
  · rintro ⟨hdistinct, hidentifiers⟩ t ht
    refine ⟨t.name, hleaves t ht, ?_, filter_constants ((nodup_names_iff h).mpr hdistinct) ht⟩
    rw [name_of_mem_resolve h ht]
    exact hidentifiers t ht

end Documents

/-- Gaps with distinct names, one of which is a number with a letter. -/
def nestedGaps : Document :=
  ⟨"nested", [
    ("gap", .obj [
      ("small", .obj [("value", .int 4)]),
      ("2xl", .obj [("value", .str "\x7bgaps.wide\x7d")])]),
    ("gaps", .obj [("wide", .obj [("value", .str "5em")])])]⟩

/-- The leaf of every gap is declared once, as the literal of its value. -/
theorem typeScript_leaves_nested :
    ∃ c tree, resolve [nestedGaps] = .ok c ∧ PrefixFree (c.tokens.map Token.path) ∧
      constants c = [("gapSmall", "4"), ("gap2xl", "'5em'"), ("gapsWide", "'5em'")] ∧
      NameTree.ofTokens c.tokens = .ok tree ∧
      (∀ options now,
        typeScript c options now = .ok (moduleText options now (constants c) tree)) ∧
      ∀ t ∈ c.tokens, LeafLaw (fun name => (name.toList.head?.any Words.isLower) = true)
        (constants c) tree t := by
  obtain ⟨c, hc, hpaths, hconstants⟩ : ∃ c, resolve [nestedGaps] = .ok c ∧
      c.tokens.map Token.path = [["gap", "small"], ["gap", "2xl"], ["gaps", "wide"]] ∧
      constants c = [("gapSmall", "4"), ("gap2xl", "'5em'"), ("gapsWide", "'5em'")] :=
    ⟨_, rfl, rfl, rfl⟩
  have hfree : PrefixFree (c.tokens.map Token.path) := by
    rw [hpaths]
    unfold PrefixFree
    decide
  have hdistinct : ∀ t ∈ c.tokens, ∀ u ∈ c.tokens,
      camelName t.path = camelName u.path → t.path = u.path := by
    have hlist : ∀ p ∈ c.tokens.map Token.path, ∀ q ∈ c.tokens.map Token.path,
        camelName p = camelName q → p = q := by
      rw [hpaths]
      decide
    exact fun t ht u hu => hlist _ (List.mem_map_of_mem ht) _ (List.mem_map_of_mem hu)
  have hidentifiers : ∀ t ∈ c.tokens,
      ((camelName t.path).toList.head?.any Words.isLower) = true := by
    have hlist : ∀ p ∈ c.tokens.map Token.path,
        ((camelName p).toList.head?.any Words.isLower) = true := by
      rw [hpaths]
      decide
    exact fun t ht => hlist _ (List.mem_map_of_mem ht)
  obtain ⟨tree, htree, hwritten, -, hlaw⟩ := typeScript_leaves_iff hc hfree
  exact ⟨c, tree, hc, hfree, hconstants, htree, hwritten,
    (hlaw _).mpr ⟨hdistinct, hidentifiers⟩⟩

/-- A small gap inside a group, and one whose key has the words of its path. -/
def collidingGaps : Document :=
  ⟨"colliding", [
    ("gap", .obj [("small", .obj [("value", .int 4)])]),
    ("gapSmall", .obj [("value", .int 6)])]⟩

/-- Two gaps have one name, which is declared twice: no leaf is declared exactly once, and both
leaves name the same constants. -/
theorem colliding_gaps_break_leaf :
    ∃ c tree, resolve [collidingGaps] = .ok c ∧ PrefixFree (c.tokens.map Token.path) ∧
      NameTree.ofTokens c.tokens = .ok tree ∧
      (∀ options now,
        typeScript c options now = .ok (moduleText options now (constants c) tree)) ∧
      constants c = [("gapSmall", "4"), ("gapSmall", "6")] ∧
      ∀ isIdentifier, ∀ t ∈ c.tokens, ¬ LeafLaw isIdentifier (constants c) tree t := by
  obtain ⟨c, tree, hc, hpaths, htree, hleaves, hconstants⟩ : ∃ c tree,
      resolve [collidingGaps] = .ok c ∧
      c.tokens.map Token.path = [["gap", "small"], ["gapSmall"]] ∧
      NameTree.ofTokens c.tokens = .ok tree ∧
      (c.tokens.map fun t => tree.at? t.path)
        = [some (.leaf "gapSmall"), some (.leaf "gapSmall")] ∧
      constants c = [("gapSmall", "4"), ("gapSmall", "6")] :=
    ⟨_, _, rfl, rfl, rfl, rfl, rfl⟩
  refine ⟨c, tree, hc, ?_, htree, typeScript_eq_moduleText htree, hconstants, ?_⟩
  · rw [hpaths]
    unfold PrefixFree
    decide
  · rintro isIdentifier t ht ⟨name, hleaf, -, hfilter⟩
    have hmem : tree.at? t.path ∈ c.tokens.map fun t => tree.at? t.path :=
      List.mem_map_of_mem (f := fun t => tree.at? t.path) ht
    rw [hleaves, hleaf] at hmem
    obtain rfl : name = "gapSmall" := by simpa using hmem
    rw [hconstants] at hfilter
    have htwice : 2 = 1 := congrArg List.length hfilter
    exact absurd htwice (by decide)

end Output

end StyleTokens
