import StyleTokens.Output.Format
import StyleTokens.Proofs.Entities
import StyleTokens.Proofs.Findings

/-!
Files of markup, taken apart.

* `Output.Element`, `Output.readElement?`: an element with one attribute, and its parts in a text;
* `Output.readElement?_text`: an element is found in its text;
* `Output.Element.Tells`: an element from which name and value of a token can be decoded;
* `Output.isEntry_of_text`: what is written for a token is such an element;
* `Output.exists_androidLine_iff`: which tokens there are resources for;
* `Output.entries_read_back`: so name and value of every token can be decoded from files of markup.
-/

namespace StyleTokens.Output

/-! ### Elements -/

/-- An element with an attribute, and with text between its tags. -/
structure Element where
  tag : List Char
  key : List Char
  /-- The mark around the value of the attribute. -/
  mark : Char
  /-- What stands between the marks. -/
  inside : List Char
  /-- What stands between the tags. -/
  content : List Char

/-- An element as text. -/
def Element.text (e : Element) : List Char :=
  '<' :: e.tag ++ ' ' :: e.key ++ '=' :: e.mark :: e.inside ++ e.mark :: '>' :: e.content ++
    '<' :: '/' :: e.tag ++ ['>']

/-- A text up to the first occurrence of a character, and what stands behind that. -/
def cut? (c : Char) (cs : List Char) : Option (List Char × List Char) :=
  match cs.dropWhile (· != c) with
  | [] => none
  | _ :: rest => some (cs.takeWhile (· != c), rest)

/-- The element on a line: a bracket begins the tag and a blank ends it, the name of the attribute ends
at an equals sign, its value at the next mark of the kind with which it begins, and the text between
the tags at the next bracket. -/
def readElement? (line : List Char) : Option Element := do
  let (_, afterBracket) ← cut? '<' line
  let (tag, afterTag) ← cut? ' ' afterBracket
  let (key, value) ← cut? '=' afterTag
  match value with
  | [] => none
  | mark :: afterMark =>
    let (inside, afterInside) ← cut? mark afterMark
    let (_, afterOpening) ← cut? '>' afterInside
    let (content, closing) ← cut? '<' afterOpening
    if closing = '/' :: tag ++ ['>'] then some ⟨tag, key, mark, inside, content⟩ else none

lemma cut?_append {c : Char} {cs : List Char} (h : c ∉ cs) (rest : List Char) :
    cut? c (cs ++ c :: rest) = some (cs, rest) := by
  have hcs : ∀ d ∈ cs, (d != c) = true := by
    intro d hd
    simpa using fun heq : d = c => h (heq ▸ hd)
  have hstop : ¬ (c != c) = true := by simp
  have hdrop : (c :: rest).dropWhile (· != c) = c :: rest := List.dropWhile_cons_of_neg hstop
  have htake : (c :: rest).takeWhile (· != c) = [] := List.takeWhile_cons_of_neg hstop
  rw [cut?, List.dropWhile_append_of_pos hcs, List.takeWhile_append_of_pos hcs, hdrop, htake,
    List.append_nil]

/-- **An element is found in its text**, if its parts do not hold the characters that end them. -/
theorem readElement?_text {e : Element} {indent : List Char} (hindent : '<' ∉ indent)
    (htag : ' ' ∉ e.tag) (hkey : '=' ∉ e.key) (hinside : e.mark ∉ e.inside)
    (hcontent : '<' ∉ e.content) : readElement? (indent ++ e.text) = some e := by
  have htext : indent ++ e.text = indent ++ '<' :: (e.tag ++ ' ' :: (e.key ++ '=' :: e.mark ::
      (e.inside ++ e.mark :: ([] ++ '>' :: (e.content ++ '<' :: ('/' :: e.tag ++ ['>'])))))) := by
    simp [Element.text]
  rw [htext, readElement?, cut?_append hindent]
  simp only [Option.bind_eq_bind, Option.bind_some, cut?_append htag, cut?_append hkey,
    cut?_append hinside, cut?_append (List.not_mem_nil), cut?_append hcontent, if_pos]

/-! ### Entries -/

/-- Name and value of a token can be decoded from the element. The value of the attribute stands between
marks that do not occur in it, and the text between the tags has no brackets. -/
structure Element.Tells (e : Element) (t : Token) : Prop where
  mark : e.mark = '"' ∨ e.mark = '\''
  inside : e.mark ∉ e.inside
  name : decode? attributeEntities e.inside = some t.name.toList
  brackets : '<' ∉ e.content ∧ '>' ∉ e.content
  entities : OnlyEntities textEntities e.content
  value : decode? textEntities e.content = some t.value.bareText.toList

/-- The entry is an indented element under a tag, with an attribute under a key, which can be taken
apart and tells the token. -/
def IsEntry (tag key : String) (t : Token) (entry : String) : Prop :=
  ∃ e indent, e.tag = tag.toList ∧ e.key = key.toList ∧
    entry.toList = List.replicate indent ' ' ++ e.text ∧ readElement? entry.toList = some e ∧ e.Tells t

/-- **What is written for a token tells it**, whatever its name and its value are. -/
theorem isEntry_of_text {tag key entry : String} {t : Token} (htag : ' ' ∉ tag.toList)
    (hkey : '=' ∉ key.toList) (indent : Nat)
    (hentry : entry.toList = List.replicate indent ' ' ++ ('<' :: tag.toList ++ ' ' :: key.toList ++
      '=' :: (xmlAttribute t.name).toList ++ '>' :: (xmlText t.value.bareText).toList ++
      '<' :: '/' :: tag.toList ++ ['>'])) : IsEntry tag key t entry := by
  obtain ⟨mark, inside, hmark, hattribute, hfree, hname⟩ := exists_xmlAttribute t.name
  have hvalue : decode? textEntities (xmlText t.value.bareText).toList
      = some t.value.bareText.toList := by
    rw [xmlText, String.toList_ofList]
    exact decode?_flatMap writesEntities_xmlChar _
  have hbrackets := not_mem_xmlText t.value.bareText
  generalize (xmlText t.value.bareText).toList = content at hentry hvalue hbrackets
  have htext : entry.toList = List.replicate indent ' ' ++
      (Element.mk tag.toList key.toList mark inside content).text := by
    rw [hentry, hattribute]
    simp [Element.text]
  have hindent : '<' ∉ List.replicate indent ' ' := fun h =>
    absurd (List.eq_of_mem_replicate h) (by decide)
  refine ⟨_, indent, rfl, rfl, htext, ?_, ?_⟩
  · rw [htext]
    exact readElement?_text hindent htag hkey hfree hbrackets.1
  · exact ⟨hmark, hfree, hname, hbrackets, onlyEntities_of_decode? (by decide) hvalue, hvalue⟩

lemma isEntry_xamlLine (t : Token) : IsEntry (xamlTag t) "x:Key" t (xamlLine t) := by
  have htag : ' ' ∉ (xamlTag t).toList := by
    rw [xamlTag]
    split
    · decide
    split <;> decide
  refine isEntry_of_text htag (by decide) 4 ?_
  simp [xamlLine]

/-! ### Resources -/

/-- Is the character one of names for tags: no white space, no bracket, and nothing else that has a
meaning inside tags? -/
def isTagChar (c : Char) : Bool := !" \t\n\r<>/=&\"'".toList.contains c

/-- The name is one for tags. -/
def IsTagName (name : String) : Prop := name ≠ "" ∧ name.toList.all isTagChar = true

instance (name : String) : Decidable (IsTagName name) := inferInstanceAs (Decidable (_ ∧ _))

section Resources

variable {kind : Json} {t : Token}

/-- There is a tag for a token if the kind is given, or the type tag is neither a list nor an object. -/
lemma exists_androidTag_iff : (∃ tag, androidTag kind t = .ok tag) ↔
    kind.isTruthy = true ∨ t.tag.compositeKey? = none := by
  rw [androidTag]
  by_cases hkind : kind.isTruthy = true
  · simp [hkind]
  · rw [if_neg hkind, or_iff_right hkind]
    cases htag : t.tag.compositeKey? with
    | some composite =>
        rw [Json.isText_of_composite htag, Json.isOneOf_of_composite _ htag]
        simp [Except.mapError]
    | none =>
        rw [Json.isOneOf_of_plain _ htag]
        simp only [iff_true]
        split
        · exact ⟨_, rfl⟩
        · exact ⟨_, rfl⟩

/-- The tag of a token is a name for tags if a given kind is one. -/
lemma isTagName_of_androidTag (hkind : kind.isTruthy = true → IsTagName kind.plain) {tag : String}
    (h : androidTag kind t = .ok tag) : IsTagName tag := by
  rw [androidTag] at h
  split at h
  · next htruthy =>
      obtain rfl := Except.ok.inj h
      exact hkind htruthy
  split at h
  · obtain rfl := Except.ok.inj h
    decide
  · obtain ⟨numeric, -, h⟩ := exists_of_bind_eq_ok h
    obtain rfl := Except.ok.inj h
    cases numeric <;> decide

/-- A resource is an entry under the tag of its token. -/
lemma isEntry_androidLine (hkind : kind.isTruthy = true → IsTagName kind.plain) {entry : String}
    (h : androidLine kind t = .ok entry) :
    ∃ tag, androidTag kind t = .ok tag ∧ IsEntry tag "name" t entry := by
  obtain ⟨tag, htag, h⟩ := exists_of_bind_eq_ok h
  obtain rfl := Except.ok.inj h
  have hblank : ' ' ∉ tag.toList := fun hmem =>
    absurd (List.all_eq_true.mp (isTagName_of_androidTag hkind htag).2 _ hmem) (by decide)
  refine ⟨tag, htag, isEntry_of_text hblank (by decide) 2 ?_⟩
  simp

/-- There is a resource for a token if and only if there is a tag for it. -/
lemma exists_androidLine_iff : (∃ entry, androidLine kind t = .ok entry) ↔
    kind.isTruthy = true ∨ t.tag.compositeKey? = none := by
  rw [← exists_androidTag_iff]
  constructor
  · rintro ⟨entry, h⟩
    obtain ⟨tag, htag, -⟩ := exists_of_bind_eq_ok h
    exact ⟨tag, htag⟩
  · rintro ⟨tag, htag⟩
    rw [androidLine, htag]
    exact ⟨_, rfl⟩

end Resources

/-! ### Files -/

/-- A resource dictionary with entries. -/
def dictionaryText (options : Fields) (now : Moment) (entries : List String) : String :=
  joinLines ([header .xml "XAML" options now] ++ xamlOpening ++ entries ++
    ["</ResourceDictionary>"]) ++ "\n"

/-- A file of resources with entries. -/
def resourcesText (options : Fields) (now : Moment) (entries : List String) : String :=
  joinLines (["<?xml version=\"1.0\" encoding=\"UTF-8\"?>", header .xml "Android" options now,
    "<resources>"] ++ entries ++ ["</resources>"]) ++ "\n"

/-- The kind of resources in files of a format: colours, or what the options say. -/
def resourceKind? (options : Fields) : OutputFormat → Option Json
  | .androidColors => some (.str "color")
  | .androidResources => some (options.getD "resource_type")
  | _ => none

section Files

variable (c : TokenList) (options : Fields) (now : Moment)

lemma content_of_resourceKind? {f : OutputFormat} {kind : Json}
    (h : resourceKind? options f = some kind) : f.content c options now
      = c.tokens.mapM (androidLine kind) >>= fun entries =>
        .ok (resourcesText options now entries) := by
  cases f <;> cases h <;> rfl

/-- **Entries of files of markup tell their tokens**, whatever their names, values and type tags are.
A resource dictionary has an entry for every token. There is a file of resources if their kind is
given, or no type tag is a list or an object; if a given kind is a name for tags, the file has an entry
for every token as well. An entry can be taken apart into its tag, the attribute and the text between
the tags. The value of the attribute does not hold the mark with which it begins, and stands for the
name of the token; the text has no brackets, and no ampersands but those of its entities, and stands for
the value as bare text. -/
theorem entries_read_back :
    (∃ entries, OutputFormat.xaml.content c options now
        = .ok (dictionaryText options now entries) ∧
      List.Forall₂ (fun t => IsEntry (xamlTag t) "x:Key" t) c.tokens entries) ∧
    ∀ f kind, resourceKind? options f = some kind →
      (kind.isTruthy = true → IsTagName kind.plain) →
      ((∃ text, f.content c options now = .ok text) ↔
        kind.isTruthy = true ∨ ∀ t ∈ c.tokens, t.tag.compositeKey? = none) ∧
      ∀ text, f.content c options now = .ok text → ∃ entries,
        text = resourcesText options now entries ∧
        List.Forall₂ (fun t entry =>
          ∃ tag, androidTag kind t = .ok tag ∧ IsEntry tag "name" t entry) c.tokens entries := by
  refine ⟨⟨c.tokens.map xamlLine, rfl, ?_⟩, fun f kind hf hkind => ⟨?_, fun text htext => ?_⟩⟩
  · rw [List.forall₂_map_right_iff, List.forall₂_same]
    exact fun t _ => isEntry_xamlLine t
  · rw [content_of_resourceKind? c options now hf]
    have hentries : (∃ entries, c.tokens.mapM (androidLine kind) = .ok entries) ↔
        kind.isTruthy = true ∨ ∀ t ∈ c.tokens, t.tag.compositeKey? = none := by
      rw [exists_mapM_eq_ok_iff]
      simp only [exists_androidLine_iff]
      by_cases hgiven : kind.isTruthy = true <;> simp [hgiven]
    rw [← hentries]
    constructor
    · rintro ⟨text, htext⟩
      obtain ⟨entries, hentries, -⟩ := exists_of_bind_eq_ok htext
      exact ⟨entries, hentries⟩
    · rintro ⟨entries, hentries⟩
      rw [hentries]
      exact ⟨_, rfl⟩
  · rw [content_of_resourceKind? c options now hf] at htext
    obtain ⟨entries, hentries, htext⟩ := exists_of_bind_eq_ok htext
    refine ⟨entries, (Except.ok.inj htext).symm, ?_⟩
    exact (mapM_eq_ok_iff.mp hentries).imp fun t entry h => isEntry_androidLine hkind h

end Files

/-- A token whose name holds marks of both kinds and white space, and whose value holds entities. -/
def entityNote : Token :=
  { path := ["note"], value := .str "&lt; <b> &amp;lt;", name := "say \"it's\" &\t<a>" }

/-- A token with a number, under a name with double marks. -/
def markedSize : Token := { path := ["size"], value := .int 4, name := "\"size\"" }

example : androidLine (.str "item") entityNote
    = .ok ("  <item name=\"say &quot;it's&quot; &amp;&#9;&lt;a&gt;\">" ++
        "&amp;lt; &lt;b&gt; &amp;amp;lt;</item>") := rfl

/-- Both of them. -/
def markedTokens : TokenList := ⟨[entityNote, markedSize]⟩

/-- Options that give a kind of resources. -/
def itemOptions : Fields := [("resource_type", .str "item")]

/-- Their entries in files of both kinds tell them. -/
theorem entries_read_back_marked :
    resourceKind? itemOptions .androidResources = some (.str "item") ∧
      ((Json.str "item").isTruthy = true → IsTagName (Json.str "item").plain) ∧
      ∀ now, ∃ entries text resources,
        OutputFormat.xaml.content markedTokens itemOptions now
          = .ok (dictionaryText itemOptions now entries) ∧
        List.Forall₂ (fun t => IsEntry (xamlTag t) "x:Key" t) markedTokens.tokens entries ∧
        OutputFormat.androidResources.content markedTokens itemOptions now = .ok text ∧
        text = resourcesText itemOptions now resources ∧
        List.Forall₂ (IsEntry "item" "name") markedTokens.tokens resources := by
  have hkind : resourceKind? itemOptions .androidResources = some (.str "item") := rfl
  have hname : (Json.str "item").isTruthy = true → IsTagName (Json.str "item").plain :=
    fun _ => by decide
  refine ⟨hkind, hname, fun now => ?_⟩
  obtain ⟨⟨entries, hxaml, hentries⟩, hresources⟩ :=
    entries_read_back markedTokens itemOptions now
  obtain ⟨hwritten, hread⟩ := hresources .androidResources (.str "item") hkind hname
  obtain ⟨text, htext⟩ := hwritten.mpr (.inl rfl)
  obtain ⟨resources, hresources, htells⟩ := hread text htext
  refine ⟨entries, text, resources, hxaml, hentries, htext, hresources, ?_⟩
  refine htells.imp fun t entry => ?_
  rintro ⟨tag, htag, hentry⟩
  obtain rfl : "item" = tag := Except.ok.inj htag
  exact hentry

end StyleTokens.Output
