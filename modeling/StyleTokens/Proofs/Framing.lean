import StyleTokens.Output.Format
import StyleTokens.Proofs.Basic

/-!
What stands around the header of a file.

* `Fields.AgreeBesideHeader`: options that are the same but for the title and the time stamp;
* `OutputFormat.header`: the header of a file in a format;
* `Framed`: texts that are the same but for their headers, or none for one and the same reason;
  `framed_lines`, `framed_front` and `Framed.bind` put them together;
* `OutputFormat.framed_content`: the files for options that agree in this way are such texts;
* `OutputFormat.content_framed`: so title, time stamp and moment have no effect outside the header.
-/

namespace StyleTokens

/-! ### Options -/

/-- The options are the same but for the title and the time stamp. -/
def Fields.AgreeBesideHeader (options options' : Fields) : Prop :=
  ∀ key, key ≠ "title" → key ≠ "timestamp" → options'.get? key = options.get? key

namespace Fields.AgreeBesideHeader

variable {options options' : Fields}

lemma getD_eq (h : options.AgreeBesideHeader options') {key : String} (htitle : key ≠ "title")
    (hstamp : key ≠ "timestamp") : options'.getD key = options.getD key := by
  rw [getD, getD, h key htitle hstamp]

/-- Options that agree have the same selector. -/
lemma cssSelector_eq (h : options.AgreeBesideHeader options') :
    Output.cssSelector options' = Output.cssSelector options := by
  rw [Output.cssSelector, Output.cssSelector, h "selector" (by decide) (by decide)]

/-- Options that agree have the same namespace. -/
lemma namespace_eq (h : options.AgreeBesideHeader options') (default : String) :
    Output.optionText options' "namespace" default
      = Output.optionText options "namespace" default := by
  rw [Output.optionText, Output.optionText, h.getD_eq (by decide) (by decide)]

end Fields.AgreeBesideHeader

/-! ### Headers of formats -/

namespace OutputFormat

/-- The comments of files in a format. -/
def comments : OutputFormat → CommentSyntax
  | .css | .javaScript | .typeScript => .block
  | .scss | .swift => .line
  | .brightScript => .apostrophe
  | .xaml | .androidColors | .androidResources => .xml

/-- What the header calls a format. -/
def label : OutputFormat → String
  | .css => "CSS"
  | .scss => "SCSS"
  | .javaScript => "JavaScript"
  | .typeScript => "TypeScript"
  | .brightScript => "BrightScript"
  | .swift => "Swift"
  | .xaml => "XAML"
  | .androidColors | .androidResources => "Android"

/-- The header of a file in a format. -/
def header (f : OutputFormat) (options : Fields) (now : Moment) : String :=
  Output.header f.comments f.label options now

end OutputFormat

/-! ### Texts around a header -/

/-- Either there is no text for any of the headers, and one reason for all, or the texts are the
same before and behind their headers. -/
def Framed {ι : Type} (header : ι → String) (text : ι → Except OutputError String) : Prop :=
  (∃ e, ∀ i, text i = .error e) ∨
    ∃ before after, ∀ i, text i = .ok (before ++ header i ++ after)

section Framed

variable {ι α : Type} {header : ι → String}

/-- Texts that begin with their headers. -/
lemma framed_front (after : String) : Framed header fun i => .ok (header i ++ after) :=
  .inr ⟨"", after, fun i => by rw [String.empty_append]⟩

/-- Lines behind other lines. -/
lemma joinLines_append {first rest : List String} (hfirst : first ≠ []) (hrest : rest ≠ []) :
    Output.joinLines (first ++ rest)
      = Output.joinLines first ++ "\n" ++ Output.joinLines rest :=
  String.intercalate_append_of_ne_nil hfirst hrest

lemma joinLines_singleton (line : String) : Output.joinLines [line] = line :=
  String.intercalate_singleton

lemma joinLines_cons_cons (line next : String) (rest : List String) :
    Output.joinLines (line :: next :: rest) = line ++ "\n" ++ Output.joinLines (next :: rest) := by
  rw [← List.singleton_append, joinLines_append (List.cons_ne_nil _ _) (List.cons_ne_nil _ _),
    joinLines_singleton]

/-- Texts of which one line is the header. -/
lemma framed_lines (first rest : List String) (tail : String) :
    Framed header fun i => .ok (Output.joinLines (first ++ header i :: rest) ++ tail) := by
  have hrest : ∃ after, ∀ i, Output.joinLines (header i :: rest) = header i ++ after := by
    cases rest with
    | nil => exact ⟨"", fun i => by rw [String.append_empty, joinLines_singleton]⟩
    | cons line rest =>
        refine ⟨"\n" ++ Output.joinLines (line :: rest), fun i => ?_⟩
        rw [joinLines_cons_cons, String.append_assoc]
  obtain ⟨after, hafter⟩ := hrest
  cases first with
  | nil =>
      refine .inr ⟨"", after ++ tail, fun i => congrArg Except.ok ?_⟩
      rw [List.nil_append, hafter, String.empty_append, String.append_assoc]
  | cons line first =>
      refine .inr ⟨Output.joinLines (line :: first) ++ "\n", after ++ tail,
        fun i => congrArg Except.ok ?_⟩
      rw [joinLines_append (by simp) (by simp), hafter]
      simp only [String.append_assoc]

/-- Texts behind a step that knows nothing of the headers. -/
lemma Framed.bind {x : Except OutputError α} {text : ι → α → Except OutputError String}
    (h : ∀ a, Framed header fun i => text i a) : Framed header fun i => x >>= text i := by
  cases x with
  | ok a => exact h a
  | error e => exact .inl ⟨e, fun _ => rfl⟩

end Framed

/-! ### Files -/

/-- Options that agree with given ones but for title and time stamp, and the moment of a file. -/
abbrev Fields.Rendering (options : Fields) : Type :=
  {o : Fields × Moment // options.AgreeBesideHeader o.1}

/-- The header of a file. -/
abbrev Fields.Rendering.header (options : Fields) (style : CommentSyntax) (label : String)
    (o : options.Rendering) : String :=
  Output.header style label o.1.1 o.1.2

namespace Output

variable (c : TokenList) (options : Fields)

lemma framed_css : Framed (Fields.Rendering.header options .block "CSS")
    fun o => .ok (css c o.1.1 o.1.2) := by
  have hcss : ∀ o : options.Rendering, css c o.1.1 o.1.2
      = joinLines ([] ++ o.header options .block "CSS" :: "" :: (cssSelector options ++ " \x7b") ::
          (c.tokens.map (cssLine (options.getD "output_references").isTruthy c) ++ ["\x7d"])) ++
        "\n" := by
    intro o
    rw [css, o.2.cssSelector_eq, o.2.getD_eq (by decide) (by decide)]
    rfl
  simp only [hcss]
  exact framed_lines _ _ _

lemma framed_scss : Framed (Fields.Rendering.header options .line "SCSS")
    fun o => .ok (scss c o.1.1 o.1.2) :=
  framed_lines [] ("" :: c.tokens.map scssLine) "\n"

lemma framed_javaScript : Framed (Fields.Rendering.header options .block "JavaScript")
    fun o => javaScript c o.1.1 o.1.2 :=
  Framed.bind fun lines => framed_lines [] ("" :: lines) "\n"

lemma framed_typeScript : Framed (Fields.Rendering.header options .block "TypeScript")
    fun o => typeScript c o.1.1 o.1.2 := by
  refine Framed.bind fun tree => ?_
  simp only [String.append_assoc]
  exact framed_front _

lemma framed_brightScript :
    Framed (Fields.Rendering.header options .apostrophe "BrightScript")
      fun o => .ok (brightScript c o.1.1 o.1.2) := by
  have hbrightScript : ∀ o : options.Rendering, brightScript c o.1.1 o.1.2
      = o.header options .apostrophe "BrightScript" ++ ("\n\nfunction " ++
        optionText options "namespace" usualNamespace ++ "() as object\n    return \x7b\n" ++
        joinLines (c.tokens.map brightScriptLine) ++ "\n    \x7d\nend function\n") := by
    intro o
    rw [brightScript, o.2.namespace_eq]
    simp only [String.append_assoc]
  simp only [hbrightScript]
  exact framed_front _

lemma framed_swift : Framed (Fields.Rendering.header options .line "Swift")
    fun o => swift c o.1.1 o.1.2 := by
  refine Framed.bind fun enums => ?_
  have hlines : ∀ o : options.Rendering,
      joinLines ([Output.header .line "Swift" o.1.1 o.1.2, "", "import SwiftUI", "",
          "public enum " ++ optionText o.1.1 "namespace" usualNamespace ++ " \x7b"] ++
        enums.flatten ++ ["\x7d"]) ++ "\n\n" ++ swiftExtension
      = joinLines ([] ++ o.header options .line "Swift" :: "" :: "import SwiftUI" :: "" ::
          ("public enum " ++ optionText options "namespace" usualNamespace ++ " \x7b") ::
          (enums.flatten ++ ["\x7d"])) ++ ("\n\n" ++ swiftExtension) := by
    intro o
    rw [o.2.namespace_eq, String.append_assoc]
    rfl
  simp only [hlines]
  exact framed_lines _ _ _

lemma framed_xaml : Framed (Fields.Rendering.header options .xml "XAML")
    fun o => .ok (xaml c o.1.1 o.1.2) :=
  framed_lines [] (xamlOpening ++ c.tokens.map xamlLine ++ ["</ResourceDictionary>"]) "\n"

/-- Resources of one kind, or of kinds that are told by the type tags. -/
lemma framed_android (resourceType : Json) :
    Framed (Fields.Rendering.header options .xml "Android")
      fun o => android resourceType c o.1.1 o.1.2 :=
  Framed.bind fun entries => framed_lines ["<?xml version=\"1.0\" encoding=\"UTF-8\"?>"]
    ("<resources>" :: entries ++ ["</resources>"]) "\n"

end Output

namespace OutputFormat

/-- The files for options that agree are framed by the same texts. -/
lemma framed_content (f : OutputFormat) (c : TokenList) (options : Fields) :
    Framed (fun o : options.Rendering => f.header o.1.1 o.1.2)
      fun o => f.content c o.1.1 o.1.2 := by
  cases f with
  | css => exact Output.framed_css c options
  | scss => exact Output.framed_scss c options
  | javaScript => exact Output.framed_javaScript c options
  | typeScript => exact Output.framed_typeScript c options
  | brightScript => exact Output.framed_brightScript c options
  | swift => exact Output.framed_swift c options
  | xaml => exact Output.framed_xaml c options
  | androidColors => exact Output.framed_android c options (.str "color")
  | androidResources =>
      have hkind : ∀ o : options.Rendering,
          o.1.1.getD "resource_type" = options.getD "resource_type" :=
        fun o => o.2.getD_eq (by decide) (by decide)
      simp only [content, hkind]
      exact Output.framed_android c options _

/-- **Title, time stamp and moment have no effect outside the header.** Whatever the format and the
tokens are, either there is no file for any options that agree with the given ones in all other
keys, and the reason is the same for all of them; or all of these files have one text before their
own header and one text behind it. -/
theorem content_framed (f : OutputFormat) (c : TokenList) (options : Fields) :
    (∃ e, ∀ options' now, options.AgreeBesideHeader options' →
      f.content c options' now = .error e) ∨
    ∃ before after, ∀ options' now, options.AgreeBesideHeader options' →
      f.content c options' now = .ok (before ++ f.header options' now ++ after) := by
  rcases f.framed_content c options with ⟨e, hnone⟩ | ⟨before, after, htext⟩
  · exact .inl ⟨e, fun options' now h => hnone ⟨(options', now), h⟩⟩
  · exact .inr ⟨before, after, fun options' now h => htext ⟨(options', now), h⟩⟩

/-- Options with a selector alone. -/
def selectorOptions : Fields := [("selector", .str "body")]

/-- The same with a title, and with a number for a time stamp. -/
def titledOptions : Fields :=
  [("title", .str "Sizes"), ("selector", .str "body"), ("timestamp", .int 1)]

lemma agree_titledOptions : selectorOptions.AgreeBesideHeader titledOptions := by
  intro key htitle hstamp
  simp only [selectorOptions, titledOptions, Fields.get?, List.lookup_cons, List.lookup_nil,
    beq_false_of_ne htitle, beq_false_of_ne hstamp]

/-- One size. -/
def oneSize : TokenList := ⟨[{ path := ["size"], value := .int 16, name := "size" }]⟩

/-- A style sheet with another title at another moment differs in its header alone. -/
theorem content_framed_titled :
    selectorOptions.AgreeBesideHeader titledOptions ∧ ∃ before after,
      css.content oneSize selectorOptions { year := 2024, month := 1, day := 1, offset := some 0 }
        = .ok (before ++ ("/**\n * Design Tokens - CSS\n * Auto-generated - DO NOT EDIT\n" ++
            " * Generated: 2024-01-01T00:00:00.000Z\n */") ++ after) ∧
      css.content oneSize titledOptions { year := 2024, month := 2, day := 29, hour := 12 }
        = .ok (before ++ ("/**\n * Sizes - CSS\n * Auto-generated - DO NOT EDIT\n" ++
            " * Generated: 2024-02-29T12:00:00.000\n */") ++ after) := by
  refine ⟨agree_titledOptions, ?_⟩
  rcases content_framed css oneSize selectorOptions with ⟨e, hnone⟩ | ⟨before, after, hframe⟩
  · exact absurd (hnone selectorOptions { year := 2024, month := 1, day := 1 } fun _ _ _ => rfl)
      (by simp [content])
  · refine ⟨before, after, ?_, ?_⟩
    · rw [hframe _ _ fun _ _ _ => rfl]
      rfl
    · rw [hframe _ _ agree_titledOptions]
      rfl

end OutputFormat

end StyleTokens
