import Mathlib.Algebra.GroupWithZero.Nat
import StyleTokens.Proofs.Categories
import StyleTokens.Proofs.LineBreaks

/-!
The lines of files.

* `Output.LaidOut`: texts of which some are the frame of a file and the others entries of tokens;
* `Output.LaidOut.sum_lineCount`: how many lines such texts have;
* `Output.IsFrame`: the frame of a file, which does not depend on the values of tokens;
* `Output.exists_laidOut`: every file is its frame with one entry for every token;
* `Output.HasEntry.breaks_iff`: an entry is one line unless the value of its token is a string with
  a line break;
* `Output.entries_unbroken_iff`: so a file has the lines of its frame, one for every token, and one
  for every line feed in these strings. `Output.broken_note_splits_literals` has such a string.
-/

namespace StyleTokens.Output

open Text

/-! ### Frames and entries -/

/-- How many lines does the text have? It goes on with a new one after every line feed. -/
def lineCount (s : String) : Nat := occurrences '\n' s + 1

/-- The texts are those of the frame and the entries of the tokens, both in their orders. -/
inductive LaidOut (f : OutputFormat) : List String → List String → List Token → Prop where
  | nil : LaidOut f [] [] []
  | frame {texts frame : List String} {tokens : List Token} (s : String) :
      LaidOut f texts frame tokens → LaidOut f (s :: texts) (s :: frame) tokens
  | entry {texts frame : List String} {tokens : List Token} {t : Token} {line : String} :
      HasEntry f t line → LaidOut f texts frame tokens → LaidOut f (line :: texts) frame (t :: tokens)

section LaidOut

variable {f : OutputFormat} {texts texts' frame frame' : List String} {tokens tokens' : List Token}

lemma LaidOut.append (h : LaidOut f texts frame tokens) (h' : LaidOut f texts' frame' tokens') :
    LaidOut f (texts ++ texts') (frame ++ frame') (tokens ++ tokens') := by
  induction h with
  | nil => exact h'
  | frame s _ ih => exact .frame s ih
  | entry hentry _ ih => exact .entry hentry ih

lemma LaidOut.ne_nil (h : LaidOut f texts frame tokens) (hframe : frame ≠ []) : texts ≠ [] := by
  cases h with
  | nil => exact hframe
  | frame s _ => exact List.cons_ne_nil _ _
  | entry _ _ => exact List.cons_ne_nil _ _

/-- Texts of the frame alone. -/
lemma laidOut_frame (texts : List String) : LaidOut f texts texts [] := by
  induction texts with
  | nil => exact .nil
  | cons s texts ih => exact .frame s ih

/-- Entries alone. -/
lemma laidOut_entries (h : List.Forall₂ (HasEntry f) tokens texts) : LaidOut f texts [] tokens := by
  induction h with
  | nil => exact .nil
  | cons hentry _ ih => exact .entry hentry ih

/-- The same for entries that are made of every token. -/
lemma laidOut_map {line : Token → String} (h : ∀ t, HasEntry f t (line t)) (tokens : List Token) :
    LaidOut f (tokens.map line) [] tokens :=
  laidOut_entries (List.forall₂_map_right_iff.mpr (List.forall₂_same.mpr fun t _ => h t))

/-- **There are the lines of the frame, one line for every entry, and one for every line feed that a
value brings.** -/
theorem LaidOut.sum_lineCount (h : LaidOut f texts frame tokens)
    (hnames : ∀ t ∈ tokens, '\n' ∉ t.name.toList) :
    (texts.map lineCount).sum
      = (frame.map lineCount).sum + tokens.length + (tokens.map (brought f '\n')).sum := by
  induction h with
  | nil => rfl
  | frame s _ ih =>
      rw [List.map_cons, List.map_cons, List.sum_cons, List.sum_cons, ih hnames]
      omega
  | entry hentry _ ih =>
      obtain ⟨hname, hnames⟩ := List.forall_mem_cons.mp hnames
      rw [List.map_cons, List.map_cons, List.sum_cons, List.sum_cons, ih hnames, lineCount,
        hentry.occurrences_eq (by decide) hname, List.length_cons]
      omega

end LaidOut

/-! ### Joined lines -/

/-- Joined texts have the lines of all of them. -/
lemma lineCount_joinLines {texts : List String} (h : texts ≠ []) :
    lineCount (joinLines texts) = (texts.map lineCount).sum := by
  have hfeed : occurrences '\n' "\n" = 1 := by decide
  induction texts with
  | nil => exact absurd rfl h
  | cons s texts ih =>
      cases texts with
      | nil => simp [joinLines_singleton]
      | cons s' texts =>
          rw [List.map_cons, List.sum_cons, ← ih (List.cons_ne_nil _ _), joinLines_cons_cons,
            lineCount, lineCount, lineCount, occurrences_append, occurrences_append, hfeed]
          omega

/-- An empty text stands for entries where there are none. -/
def orEmpty (texts : List String) : List String := if texts = [] then [""] else texts

lemma orEmpty_ne_nil (texts : List String) : orEmpty texts ≠ [] := by
  rw [orEmpty]
  split
  · exact List.cons_ne_nil _ _
  · assumption

lemma joinLines_orEmpty (texts : List String) : joinLines (orEmpty texts) = joinLines texts := by
  rw [orEmpty]
  split
  · next h => rw [h]; rfl
  · rfl

/-! ### The frames of files -/

/-- The first line of the enumeration for a category. -/
def enumHead (category : String) : String :=
  let name := pascalName [category]
  "    public enum " ++ (if name = "" then "Misc" else name) ++ " \x7b"

/-- An empty text, if there are no tokens. -/
def placeholder (c : TokenList) : List String := if c.tokens = [] then [""] else []

section Files

variable {c : TokenList} {options : Fields} {now : Moment}

/-- The texts of a file around the entries of its tokens. They are made of options, names and
paths. -/
inductive IsFrame (c : TokenList) (options : Fields) (now : Moment) :
    OutputFormat → List String → Prop where
  | scss : IsFrame c options now .scss [header .line "SCSS" options now, "", ""]
  | typeScript {tree : NameTree} : NameTree.ofTokens c.tokens = .ok tree →
      IsFrame c options now .typeScript
        ([header .block "TypeScript" options now, ""] ++ placeholder c ++
          ["", "export const tokens = " ++ tree.format 0 ++ " as const;", ""])
  | brightScript : IsFrame c options now .brightScript
      ([header .apostrophe "BrightScript" options now, "",
        "function " ++ optionText options "namespace" usualNamespace ++ "() as object",
        "    return \x7b"] ++ placeholder c ++ ["    \x7d", "end function", ""])
  | swift : IsFrame c options now .swift
      ([header .line "Swift" options now, "", "import SwiftUI", "",
        "public enum " ++ optionText options "namespace" usualNamespace ++ " \x7b"] ++
        (c.tokens.map Token.category).eraseDups.flatMap (fun key => [enumHead key, "    \x7d"]) ++
        ["\x7d", "", swiftExtension])

lemma IsFrame.ne_nil {f : OutputFormat} {frame : List String} (h : IsFrame c options now f frame) :
    frame ≠ [] := by
  cases h <;> simp

lemma laidOut_orEmpty {f : OutputFormat} {line : Token → String} (h : ∀ t, HasEntry f t (line t)) :
    LaidOut f (orEmpty (c.tokens.map line)) (placeholder c) c.tokens := by
  obtain ⟨tokens⟩ := c
  cases tokens with
  | nil => exact laidOut_frame [""]
  | cons t tokens => exact laidOut_map h (t :: tokens)

lemma scss_eq_joinLines : scss c options now
    = joinLines ([header .line "SCSS" options now, ""] ++ c.tokens.map scssLine ++ [""]) := by
  rw [joinLines_append (by simp) (List.cons_ne_nil _ _), joinLines_singleton, String.append_empty]
  rfl

lemma typeScript_eq_joinLines {tree : NameTree} (h : NameTree.ofTokens c.tokens = .ok tree) :
    typeScript c options now = .ok (joinLines
      ([header .block "TypeScript" options now, ""] ++ orEmpty (c.tokens.map typeScriptLine) ++
        ["", "export const tokens = " ++ tree.format 0 ++ " as const;", ""])) := by
  have hne := orEmpty_ne_nil (c.tokens.map typeScriptLine)
  rw [typeScript, h, ok_bind, joinLines_append (by simp) (by simp), joinLines_append (by simp) hne,
    joinLines_orEmpty]
  simp only [joinLines_cons_cons, joinLines_singleton]
  refine congrArg Except.ok (String.toList_injective ?_)
  simp [String.toList_append]

lemma brightScript_eq_joinLines : brightScript c options now
    = joinLines ([header .apostrophe "BrightScript" options now, "",
        "function " ++ optionText options "namespace" usualNamespace ++ "() as object",
        "    return \x7b"] ++ orEmpty (c.tokens.map brightScriptLine) ++
        ["    \x7d", "end function", ""]) := by
  have hne := orEmpty_ne_nil (c.tokens.map brightScriptLine)
  rw [brightScript, joinLines_append (by simp) (by simp), joinLines_append (by simp) hne,
    joinLines_orEmpty]
  simp only [joinLines_cons_cons, joinLines_singleton]
  refine String.toList_injective ?_
  simp [String.toList_append]

lemma swiftText_eq_joinLines (enums : List Enumeration) : swiftText options now enums
    = joinLines ([header .line "Swift" options now, "", "import SwiftUI", "",
        "public enum " ++ optionText options "namespace" usualNamespace ++ " \x7b"] ++
        enums.flatMap Enumeration.lines ++ ["\x7d", "", swiftExtension]) := by
  rw [swiftText, joinLines_append (by simp) (List.cons_ne_nil _ _),
    joinLines_append (by simp) (List.cons_ne_nil _ _)]
  simp only [joinLines_cons_cons, joinLines_singleton, String.append_assoc]
  rfl

/-- The texts of an enumeration. -/
lemma laidOut_enumeration {e : Enumeration}
    (h : List.Forall₂ (fun t d => swiftDeclaration t = .ok d) e.members e.declarations) :
    LaidOut .swift e.lines [enumHead e.category, "    \x7d"] e.members := by
  have hentries : LaidOut .swift (e.declarations.map ("        " ++ ·)) [] e.members := by
    refine laidOut_entries ?_
    rw [List.forall₂_map_right_iff]
    exact h.imp fun _ _ hdeclaration => .swift hdeclaration
  have hlines := (hentries.append (laidOut_frame ["    \x7d"])).frame (enumHead e.category)
  rwa [List.nil_append, List.append_nil] at hlines

/-- The texts of enumerations, one after the other. -/
lemma laidOut_enumerations {enums : List Enumeration}
    (h : ∀ e ∈ enums, List.Forall₂ (fun t d => swiftDeclaration t = .ok d) e.members e.declarations) :
    LaidOut .swift (enums.flatMap Enumeration.lines)
      ((enums.map Enumeration.category).flatMap fun key => [enumHead key, "    \x7d"])
      (enums.flatMap Enumeration.members) := by
  induction enums with
  | nil => exact .nil
  | cons e enums ih =>
      obtain ⟨hfirst, hrest⟩ := List.forall_mem_cons.mp h
      exact (laidOut_enumeration hfirst).append (ih hrest)

/-- **A file is its frame with one entry for every token.** -/
theorem exists_laidOut {f : OutputFormat} {text : String}
    (hf : f ∈ [OutputFormat.scss, .brightScript, .swift, .typeScript])
    (h : f.content c options now = .ok text) :
    ∃ texts frame tokens, text = joinLines texts ∧ LaidOut f texts frame tokens ∧
      IsFrame c options now f frame ∧ tokens.Perm c.tokens := by
  simp only [List.mem_cons, List.not_mem_nil, or_false] at hf
  rcases hf with rfl | rfl | rfl | rfl
  · obtain rfl := Except.ok.inj h
    have hentries : LaidOut .scss (c.tokens.map scssLine) [] c.tokens := laidOut_map .scss c.tokens
    refine ⟨_, _, _, scss_eq_joinLines,
      ((laidOut_frame _).append hentries).append (laidOut_frame [""]), .scss, ?_⟩
    simp
  · obtain rfl := Except.ok.inj h
    refine ⟨_, _, _, brightScript_eq_joinLines,
      ((laidOut_frame _).append (laidOut_orEmpty .brightScript)).append (laidOut_frame _),
      .brightScript, ?_⟩
    simp
  · have hmap : (enumerations c.tokens).map (swiftText options now) = .ok text :=
      (swift_eq_map c options now).symm.trans h
    obtain ⟨enums, henums, rfl⟩ := exists_of_map_eq_ok hmap
    have henumerations := laidOut_enumerations (spec_of_enumerations henums).2
    rw [categories_of_enumerations henums] at henumerations
    refine ⟨_, _, _, swiftText_eq_joinLines enums,
      ((laidOut_frame _).append henumerations).append (laidOut_frame _), .swift, ?_⟩
    simpa using perm_of_enumerations henums
  · obtain ⟨tree, htree, hline⟩ := exists_of_bind_eq_ok h
    obtain rfl : _ = text := Except.ok.inj ((typeScript_eq_joinLines htree).symm.trans h)
    refine ⟨_, _, _, rfl,
      ((laidOut_frame _).append (laidOut_orEmpty .typeScript)).append (laidOut_frame _),
      .typeScript htree, ?_⟩
    simp

end Files

/-! ### Lines -/

/-- Does the value of the token bring a line break into its entry: is it a string with one, and is it
written? -/
def BreaksLine (f : OutputFormat) (t : Token) : Prop :=
  ¬ (f = .swift ∧ t.tag.isText "color" = true) ∧
    ∃ s, t.value = .str s ∧ ∃ d ∈ s.toList, IsLineBreak d

section Lines

variable {f : OutputFormat} {t : Token} {line : String}

lemma brought_ne_zero_iff {d : Char} : brought f d t ≠ 0 ↔
    ¬ (f = .swift ∧ t.tag.isText "color" = true) ∧ ∃ s, t.value = .str s ∧ d ∈ s.toList := by
  rw [brought]
  split
  · next h => exact iff_of_false (fun hne => hne rfl) fun hneg => hneg.1 h
  · next h =>
      rw [and_iff_right h]
      cases t.value with
      | str s => simp [Json.occurrences, occurrences_eq_zero_iff]
      | _ => simp [Json.occurrences]

/-- **An entry is more than one line exactly if the value of its token brings a line break.** -/
theorem HasEntry.breaks_iff (h : HasEntry f t line) (hname : ∀ d ∈ t.name.toList, ¬ IsLineBreak d) :
    (∃ d ∈ line.toList, IsLineBreak d) ↔ BreaksLine f t := by
  have hchar : ∀ d, IsLineBreak d → (d ∈ line.toList ↔ brought f d t ≠ 0) := by
    intro d hd
    rw [← h.occurrences_eq hd.not_isPrintable fun hmem => hname d hmem hd, ne_eq,
      occurrences_eq_zero_iff, not_not]
  constructor
  · rintro ⟨d, hmem, hd⟩
    obtain ⟨hwritten, s, hs, hmem⟩ := brought_ne_zero_iff.mp ((hchar d hd).mp hmem)
    exact ⟨hwritten, s, hs, d, hmem, hd⟩
  · rintro ⟨hwritten, s, hs, d, hmem, hd⟩
    exact ⟨d, (hchar d hd).mpr (brought_ne_zero_iff.mpr ⟨hwritten, s, hs, hmem⟩), hd⟩

end Lines

/-- **A token takes one line, unless its value is a string with a line break.** If no name has a line
break, then a file of one of the four formats is a frame, which does not depend on values, with one
entry for every token. The entry of a token has a line break exactly if the value is a string with one
and is not written as a colour. The file has the lines of the frame, one for every token, and one for
every line feed in such a string. -/
theorem entries_unbroken_iff {f : OutputFormat}
    (hf : f ∈ [OutputFormat.scss, .brightScript, .swift, .typeScript]) {c : TokenList}
    (hnames : ∀ t ∈ c.tokens, ∀ d ∈ t.name.toList, ¬ IsLineBreak d) {options : Fields} {now : Moment}
    {text : String} (h : f.content c options now = .ok text) :
    ∃ texts frame tokens, text = joinLines texts ∧ LaidOut f texts frame tokens ∧
      IsFrame c options now f frame ∧ tokens.Perm c.tokens ∧
      (∀ t ∈ c.tokens, ∀ line, HasEntry f t line →
        ((∃ d ∈ line.toList, IsLineBreak d) ↔ BreaksLine f t)) ∧
      lineCount text = (frame.map lineCount).sum + c.tokens.length
        + (c.tokens.map (brought f '\n')).sum := by
  obtain ⟨texts, frame, tokens, rfl, hlaid, hframe, hperm⟩ := exists_laidOut hf h
  have hfeeds : ∀ t ∈ tokens, '\n' ∉ t.name.toList := fun t ht hmem =>
    hnames t (hperm.mem_iff.mp ht) '\n' hmem (by decide)
  refine ⟨texts, frame, tokens, rfl, hlaid, hframe, hperm,
    fun t ht line hentry => hentry.breaks_iff (hnames t ht), ?_⟩
  rw [lineCount_joinLines (hlaid.ne_nil hframe.ne_nil), hlaid.sum_lineCount hfeeds, hperm.length_eq,
    (hperm.map _).sum_nat]

/-- Colours, one of them with line feeds around it, and a size. -/
def paddedColors : TokenList :=
  ⟨[{ path := ["ink", "dark"], value := .str "\n#123\n", tag := .str "color", name := "inkDark" },
    { path := ["gap"], value := .int 4, name := "gap" },
    { path := ["ink", "light"], value := .str "#FEDCBA80", tag := .str "color", name := "inkLight" }]⟩

/-- The enumerations have one line for each. -/
theorem entries_unbroken_colors :
    OutputFormat.swift ∈ [OutputFormat.scss, .brightScript, .swift, .typeScript] ∧
      (∀ t ∈ paddedColors.tokens, ∀ d ∈ t.name.toList, ¬ IsLineBreak d) ∧
      ∀ now, ∃ text frame, OutputFormat.swift.content paddedColors [] now = .ok text ∧
        IsFrame paddedColors [] now .swift frame ∧
        lineCount text = (frame.map lineCount).sum + 3 := by
  have hformat : OutputFormat.swift ∈ [OutputFormat.scss, .brightScript, .swift, .typeScript] := by
    decide
  have hnames : ∀ t ∈ paddedColors.tokens, ∀ d ∈ t.name.toList, ¬ IsLineBreak d := by
    have hplain : ∀ t ∈ paddedColors.tokens, t.HasPlainName := by
      simp only [Token.HasPlainName]
      decide
    exact fun t ht => (hplain t ht).not_isLineBreak
  refine ⟨hformat, hnames, fun now => ?_⟩
  obtain ⟨text, htext⟩ : ∃ text, OutputFormat.swift.content paddedColors [] now = .ok text :=
    ⟨_, rfl⟩
  obtain ⟨-, frame, -, -, -, hframe, -, -, hlines⟩ := entries_unbroken_iff hformat hnames htext
  exact ⟨text, frame, htext, hframe, hlines⟩

/-- A text of two lines. -/
def brokenNote : Token := { path := ["note"], value := .str "a\nb", name := "note" }

/-- It is in the literals of three formats as it is, and in the style sheet. -/
theorem broken_note_splits_literals :
    (∀ d ∈ brokenNote.name.toList, ¬ IsLineBreak d) ∧
      (∀ f ∈ [OutputFormat.scss, .brightScript, .swift, .typeScript], ∀ now,
        ∃ text, f.content ⟨[brokenNote]⟩ [] now = .ok text) ∧
      HasEntry .scss brokenNote "$note: a\nb;" ∧
      HasEntry .brightScript brokenNote "        note: \"a\nb\"" ∧
      HasEntry .swift brokenNote ("        " ++ "public static let note = \"a\nb\"") ∧
      HasEntry .typeScript brokenNote "export const note = 'a\nb';" ∧
      ∀ f line, HasEntry f brokenNote line → ∃ d ∈ line.toList, IsLineBreak d := by
  have hname : ∀ d ∈ brokenNote.name.toList, ¬ IsLineBreak d := by
    have hplain : brokenNote.HasPlainName := by
      rw [Token.HasPlainName]
      decide
    exact hplain.not_isLineBreak
  refine ⟨hname, fun f hf now => ?_, .scss _, .brightScript _, .swift rfl, .typeScript _,
    fun f line hentry => ?_⟩
  · simp only [List.mem_cons, List.not_mem_nil, or_false] at hf
    rcases hf with rfl | rfl | rfl | rfl <;> exact ⟨_, rfl⟩
  · exact (hentry.breaks_iff hname).mpr ⟨fun h => Bool.false_ne_true h.2, _, rfl, '\n', by decide,
      by decide⟩

end StyleTokens.Output
