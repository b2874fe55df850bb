import StyleTokens.Check.Key
import StyleTokens.Check.Value
import StyleTokens.Proofs.Basic
import StyleTokens.Proofs.Entries

/-!
What is seen of metadata.

* `Place`, `Place.fill`: a place at any depth of an object, and the object with a value there;
* `IsWalk`, `IsWalk.exists_fill`: a walk through groups gives something before the place, what it
  gives there, and something behind it;
* `Place.tokensIn_congr`, `Place.visitIn_fill`, `Place.keyMessages_fill`,
  `Place.checkDeclarations_fill`: the four walks through documents;
* `SeenAlike`: documents that no walk tells apart;
* `metadata_seen_iff`: other metadata gives the same tokens, and the same entries, messages and
  findings exactly if those inside the metadata are the same.
-/

namespace StyleTokens

/-! ### Groups -/

section Groups

variable {fields : Fields}

/-- The entries at a group are those in it. -/
lemma TokenEntry.visitAt_group (h : fields.declaresValue = false) (path key : String) :
    visitAt path key (.obj fields) = visitIn (dottedKey path key) fields := by
  simp only [visitAt, h, Bool.false_eq_true, if_false]

/-- The messages at a group are those for the keys in it. -/
lemma keyMessagesAt_group (h : fields.declaresValue = false) (file path key : String) :
    keyMessagesAt file path key (.obj fields) = keyMessagesIn file (dottedKey path key) fields := by
  simp only [keyMessagesAt, h, Bool.false_eq_true, if_false]

/-- The findings at a group are those in it. -/
lemma checkAt_group (h : fields.declaresValue = false) (file path key : String) :
    checkAt file path key (.obj fields) = checkIn file (dottedKey path key) fields := by
  simp only [checkAt, h, Bool.false_eq_true, if_false]

end Groups

/-! ### Places -/

/-- A place in an object: an entry, or a place in the object that stands at an entry. -/
inductive Place where
  | entry (before : Fields) (key : String) (after : Fields)
  | under (before : Fields) (key : String) (after : Fields) (inner : Place)

namespace Place

/-- The object with a value at the place. -/
def fill : Place → Json → Fields
  | entry before key after, x => before ++ (key, x) :: after
  | under before key after inner, x => before ++ (key, .obj (inner.fill x)) :: after

/-- The key at which the value stands. -/
def key : Place → String
  | entry _ key _ => key
  | under _ _ _ inner => inner.key

/-- The dotted path of the object around the value, below a dotted path. -/
def parent (path : String) : Place → String
  | entry _ _ _ => path
  | under _ key _ inner => inner.parent (dottedKey path key)

/-- The dotted path of the value. -/
def dotted (place : Place) : String := dottedKey (place.parent "") place.key

/-- Is the place reached through groups alone? -/
def isOpen : Place → Bool
  | entry _ _ _ => true
  | under _ _ _ inner => !Fields.declaresValue (inner.fill .null) && inner.isOpen

/-- Whether an object declares a value is told by its keys. -/
lemma declaresValue_congr {fields fields' : Fields}
    (h : fields.map Prod.fst = fields'.map Prod.fst) :
    fields.declaresValue = fields'.declaresValue := by
  have hhas : ∀ key, fields.has key = fields'.has key := by
    intro key
    rw [Bool.eq_iff_iff, Fields.has_iff_mem_keys, Fields.has_iff_mem_keys, h]
  rw [Fields.declaresValue, Fields.declaresValue, hhas, hhas]

/-- What stands at a place does not matter for whether the object declares a value. -/
lemma declaresValue_fill (place : Place) (x y : Json) :
    (place.fill x).declaresValue = (place.fill y).declaresValue := by
  apply declaresValue_congr
  cases place <;> simp [fill]

/-- An open place below an entry stands in a group, whatever it holds. -/
lemma isOpen_under {before after : Fields} {key : String} {inner : Place}
    (h : (under before key after inner).isOpen = true) :
    (∀ x, (inner.fill x).declaresValue = false) ∧ inner.isOpen = true := by
  rw [isOpen, Bool.and_eq_true, Bool.not_eq_true'] at h
  exact ⟨fun x => (declaresValue_fill inner x .null).trans h.1, h.2⟩

end Place

/-! ### Walks -/

/-- A walk gives for an object what it gives for the entries, one after the other. -/
structure IsWalk {M P : Type} (mul : M → M → M) (walk : P → Fields → M)
    (visit : P → String → Json → M) : Prop where
  assoc : ∀ a b c, mul (mul a b) c = mul a (mul b c)
  nil : ∀ path a, mul (walk path []) a = a
  cons : ∀ path key x rest, walk path ((key, x) :: rest) = mul (visit path key x) (walk path rest)

namespace IsWalk

variable {M P : Type} {mul : M → M → M}

/-- A walk passes an entry between those before it and those behind it. -/
lemma split {walk : P → Fields → M} {visit : P → String → Json → M} (h : IsWalk mul walk visit)
    (path : P) (before : Fields) (key : String) (x : Json) (after : Fields) :
    walk path (before ++ (key, x) :: after)
      = mul (walk path before) (mul (visit path key x) (walk path after)) := by
  induction before with
  | nil => rw [List.nil_append, h.nil, h.cons]
  | cons e before ih => rw [List.cons_append, h.cons, h.cons, ih, h.assoc]

/-- **A walk through groups passes an open place in between**: if it gives for a group what it gives
for the object, it gives for an object with a value at the place something before it and something
behind it, which do not depend on the value, and in between what it gives for the value. -/
theorem exists_fill {walk : String → Fields → M} {visit : String → String → Json → M}
    (h : IsWalk mul walk visit)
    (hgroup : ∀ path key, ∃ a, ∀ fields, Fields.declaresValue fields = false →
      visit path key (.obj fields) = mul a (walk (dottedKey path key) fields))
    {place : Place} (hopen : place.isOpen = true) (path : String) :
    ∃ front back, ∀ x,
      walk path (place.fill x) = mul front (mul (visit (place.parent path) place.key x) back) := by
  induction place generalizing path with
  | entry before key after =>
      exact ⟨walk path before, walk path after, fun x => h.split path before key x after⟩
  | under before key after inner ih =>
      obtain ⟨hgroups, hinner⟩ := Place.isOpen_under hopen
      obtain ⟨front, back, hwalk⟩ := ih hinner (dottedKey path key)
      obtain ⟨a, ha⟩ := hgroup path key
      refine ⟨mul (walk path before) (mul a front), mul back (walk path after), fun x => ?_⟩
      let here := visit (inner.parent (dottedKey path key)) inner.key x
      calc walk path ((Place.under before key after inner).fill x)
          = mul (walk path before)
              (mul (visit path key (.obj (inner.fill x))) (walk path after)) :=
            h.split path before key _ after
        _ = mul (walk path before)
              (mul (mul a (mul front (mul here back))) (walk path after)) := by
            rw [ha _ (hgroups x), hwalk]
        _ = mul (mul (walk path before) (mul a front))
              (mul here (mul back (walk path after))) := by
            simp only [h.assoc]

end IsWalk

/-- The tokens of a document are found by a walk. -/
lemma Document.isWalk (label : String) :
    IsWalk (· ++ ·) (tokensIn label) fun path key x => tokensAt label path key x where
  assoc := List.append_assoc
  nil _ _ := rfl
  cons _ _ _ _ := rfl

/-- The entries of an object are found by a walk. -/
lemma TokenEntry.isWalk : IsWalk (· ++ ·) visitIn visitAt where
  assoc := List.append_assoc
  nil _ _ := rfl
  cons _ _ _ _ := rfl

/-- The messages for one key. -/
def ownMessages (file path key : String) : List String :=
  (keyMessage? key (if path = "" then "root" else path) file).toList

/-- The messages for one key and for those below it. -/
def entryMessages (file path key : String) (x : Json) : List String :=
  ownMessages file path key ++ keyMessagesAt file path key x

/-- The messages for keys are found by a walk. -/
lemma isWalk_keyMessages (file : String) :
    IsWalk (· ++ ·) (keyMessagesIn file) (entryMessages file) where
  assoc := List.append_assoc
  nil _ _ := rfl
  cons _ _ _ _ := rfl

/-- The findings of two checks, one after the other. -/
def both (a b : Except CheckFailure Findings) : Except CheckFailure Findings :=
  a.bind fun f => b.map fun g => f.append g

lemma ok_both (b : Except CheckFailure Findings) : both (.ok {}) b = b := by
  cases b <;> simp [both, Except.bind, Except.map, Findings.append]

/-- What stands between findings that are known is told by the whole. -/
lemma both_cancel {a b : Findings} {x y : Except CheckFailure Findings}
    (h : both (.ok a) (both x (.ok b)) = both (.ok a) (both y (.ok b))) : x = y := by
  cases x with
  | error e => cases y with
    | error e' => exact h
    | ok g => cases h
  | ok f => cases y with
    | error e' => cases h
    | ok g =>
        have happend : a.append (f.append b) = a.append (g.append b) := Except.ok.inj h
        obtain ⟨herrors, hwarnings⟩ := Findings.mk.inj happend
        have hf : f.errors = g.errors := List.append_cancel_right (List.append_cancel_left herrors)
        have hw : f.warnings = g.warnings :=
          List.append_cancel_right (List.append_cancel_left hwarnings)
        exact congrArg Except.ok (congrArg₂ Findings.mk hf hw)

/-- The findings are made by a walk. -/
lemma isWalk_check (file : String) : IsWalk both (checkIn file) (checkAt file) where
  assoc a b c := by
    cases a <;> cases b <;> cases c <;>
      simp [both, Except.bind, Except.map, Findings.append, List.append_assoc]
  nil path a := by rw [checkIn, ok_both]
  cons path key x rest := by
    rw [checkIn, both]
    cases checkAt file path key x <;> cases checkIn file path rest <;> rfl

namespace Place

section Walks

variable {place : Place} (hopen : place.isOpen = true)
include hopen

/-- The entries around a place. -/
lemma visitIn_fill : ∃ front back, ∀ x, TokenEntry.visitIn "" (place.fill x)
    = front ++ (TokenEntry.visitAt (place.parent "") place.key x ++ back) := by
  refine TokenEntry.isWalk.exists_fill (fun path key => ⟨[], fun fields h => ?_⟩) hopen ""
  rw [TokenEntry.visitAt_group h, List.nil_append]

/-- The messages around a place. -/
lemma keyMessages_fill (file : String) : ∃ front back, ∀ x, keyMessages file (place.fill x)
    = front ++ (entryMessages file (place.parent "") place.key x ++ back) := by
  refine (isWalk_keyMessages file).exists_fill
    (fun path key => ⟨ownMessages file path key, fun fields h => ?_⟩) hopen ""
  rw [entryMessages, keyMessagesAt_group h]

/-- The findings around a place. -/
lemma checkDeclarations_fill (file : String) :
    ∃ front back, ∀ x, checkDeclarations file (place.fill x)
      = both front (both (checkAt file (place.parent "") place.key x) back) := by
  refine (isWalk_check file).exists_fill (fun path key => ⟨.ok {}, fun fields h => ?_⟩) hopen ""
  rw [checkAt_group h, ok_both]

/-- The tokens around a place are the same if those at the place are. -/
lemma tokensIn_congr {label : String} {x y : Json}
    (h : ∀ path, Document.tokensAt label path place.key x = Document.tokensAt label path place.key y)
    (path : Path) :
    Document.tokensIn label path (place.fill x) = Document.tokensIn label path (place.fill y) := by
  induction place generalizing path with
  | entry before key after =>
      have hat : Document.tokensAt label path key x = Document.tokensAt label path key y := h path
      rw [fill, fill, (Document.isWalk label).split, (Document.isWalk label).split, hat]
  | under before key after inner ih =>
      obtain ⟨hgroups, hinner⟩ := isOpen_under hopen
      have hat : Document.tokensAt label path key (.obj (inner.fill x))
          = Document.tokensAt label path key (.obj (inner.fill y)) := by
        simp only [Document.tokensAt, hgroups, Bool.false_eq_true, if_false, ih hinner h]
      rw [fill, fill, (Document.isWalk label).split, (Document.isWalk label).split, hat]

/-! ### Two values at one place -/

variable {x y : Json}

/-- The entries are the same if those at the place are. -/
lemma ofFields_congr (h : TokenEntry.visitAt (place.parent "") place.key x
      = TokenEntry.visitAt (place.parent "") place.key y) :
    TokenEntry.ofFields "" (place.fill x) = TokenEntry.ofFields "" (place.fill y) := by
  obtain ⟨front, back, hvisit⟩ := visitIn_fill hopen
  rw [TokenEntry.ofFields, TokenEntry.ofFields, hvisit, hvisit, h]

/-- They differ if those at the place do, unless a path comes twice. -/
lemma visitAt_eq_of_ofFields (hx : ((TokenEntry.visitIn "" (place.fill x)).map TokenEntry.path).Nodup)
    (hy : ((TokenEntry.visitIn "" (place.fill y)).map TokenEntry.path).Nodup)
    (h : TokenEntry.ofFields "" (place.fill x) = TokenEntry.ofFields "" (place.fill y)) :
    TokenEntry.visitAt (place.parent "") place.key x
      = TokenEntry.visitAt (place.parent "") place.key y := by
  obtain ⟨front, back, hvisit⟩ := visitIn_fill hopen
  rw [TokenEntry.ofFields, TokenEntry.ofFields, TokenEntry.merge_eq_append hx,
    TokenEntry.merge_eq_append hy, List.nil_append, List.nil_append, hvisit, hvisit] at h
  exact List.append_cancel_right (List.append_cancel_left h)

/-- The messages are the same exactly if those below the place are. -/
lemma keyMessages_eq_iff (file : String) :
    keyMessages file (place.fill x) = keyMessages file (place.fill y)
      ↔ keyMessagesAt file (place.parent "") place.key x
        = keyMessagesAt file (place.parent "") place.key y := by
  obtain ⟨front, back, hmessages⟩ := keyMessages_fill hopen file
  rw [hmessages, hmessages, List.append_cancel_left_eq, List.append_cancel_right_eq, entryMessages,
    entryMessages, List.append_cancel_left_eq]

/-- The findings are the same if those at the place are. -/
lemma checkDeclarations_congr {file : String}
    (h : checkAt file (place.parent "") place.key x = checkAt file (place.parent "") place.key y) :
    checkDeclarations file (place.fill x) = checkDeclarations file (place.fill y) := by
  obtain ⟨front, back, hfindings⟩ := checkDeclarations_fill hopen file
  rw [hfindings, hfindings, h]

/-- They differ if those at the place do, unless the check of what is around fails. -/
lemma checkAt_eq_of_checkDeclarations {file : String} {f : Findings}
    (haround : checkDeclarations file (place.fill .null) = .ok f)
    (h : checkDeclarations file (place.fill x) = checkDeclarations file (place.fill y)) :
    checkAt file (place.parent "") place.key x = checkAt file (place.parent "") place.key y := by
  obtain ⟨front, back, hfindings⟩ := checkDeclarations_fill hopen file
  rw [hfindings, checkAt, ok_both] at haround
  · obtain ⟨a, rfl, haround⟩ := exists_of_bind_eq_ok haround
    obtain ⟨b, rfl, -⟩ := exists_of_map_eq_ok haround
    rw [hfindings, hfindings] at h
    exact both_cancel h
  · simp

end Walks

end Place

/-! ### Metadata -/

/-- No walk through documents tells the objects apart. -/
structure SeenAlike (label file : String) (fields fields' : Fields) : Prop where
  tokens : Document.flatten ⟨label, fields⟩ = Document.flatten ⟨label, fields'⟩
  entries : TokenEntry.ofFields "" fields = TokenEntry.ofFields "" fields'
  messages : keyMessages file fields = keyMessages file fields'
  findings : checkDeclarations file fields = checkDeclarations file fields'

section Metadata

variable {place : Place} {m m' node node' : Fields}

/-- Metadata holds no tokens, so other metadata gives the same tokens. -/
lemma flatten_metadata (hopen : place.isOpen = true) (hkey : isMetadataKey place.key = true)
    (hm : m.declaresValue = false) (hm' : m'.declaresValue = false) (label : String) :
    Document.flatten ⟨label, place.fill (.obj m)⟩
      = Document.flatten ⟨label, place.fill (.obj m')⟩ := by
  refine Place.tokensIn_congr hopen (fun path => ?_) []
  simp [Document.tokensAt, hm, hm', hkey]

/-- Tokens with the same value, type tag and description are seen alike, whatever else they hold. -/
lemma SeenAlike.of_declared (hopen : place.isOpen = true) (hnode : node.declaresValue = true)
    (hnode' : node'.declaresValue = true)
    (hsame : ∀ key ∈ ["value", "type", "description"], node.declared key = node'.declared key)
    (label file : String) :
    SeenAlike label file (place.fill (.obj node)) (place.fill (.obj node')) := by
  have hvalue : node.declared "value" = node'.declared "value" := hsame _ (by simp)
  have htag : node.declared "type" = node'.declared "type" := hsame _ (by simp)
  have htext : node.declared "description" = node'.declared "description" := hsame _ (by simp)
  constructor
  · refine Place.tokensIn_congr hopen (fun path => ?_) []
    simp [Document.tokensAt, hnode, hnode', Token.ofNode, hvalue, htag, htext]
  · refine Place.ofFields_congr hopen ?_
    simp [TokenEntry.visitAt, hnode, hnode', hvalue, htag]
  · rw [Place.keyMessages_eq_iff hopen]
    simp [keyMessagesAt, hnode, hnode']
  · refine Place.checkDeclarations_congr hopen ?_
    simp [checkAt, hnode, hnode', checkToken, hvalue, htag]

/-- **What is seen of metadata.** At any place that is reached through groups, other metadata gives
the same tokens. All that is inside is seen by the three other walks: the messages for keys are the
same exactly if those for the keys inside are, the entries exactly if those inside are, as long as no
path comes twice, and the findings exactly if those inside are, as long as what is around can be
checked. Metadata inside a token is not seen at all: tokens with the same value, type tag and
description are seen alike. -/
theorem metadata_seen_iff (hopen : place.isOpen = true) (label file : String) :
    (∀ m m' : Fields, isMetadataKey place.key = true → m.declaresValue = false →
      m'.declaresValue = false →
        Document.flatten ⟨label, place.fill (.obj m)⟩
          = Document.flatten ⟨label, place.fill (.obj m')⟩ ∧
        (keyMessages file (place.fill (.obj m)) = keyMessages file (place.fill (.obj m'))
          ↔ keyMessagesIn file place.dotted m = keyMessagesIn file place.dotted m') ∧
        (((TokenEntry.visitIn "" (place.fill (.obj m))).map TokenEntry.path).Nodup →
          ((TokenEntry.visitIn "" (place.fill (.obj m'))).map TokenEntry.path).Nodup →
            (TokenEntry.ofFields "" (place.fill (.obj m))
                = TokenEntry.ofFields "" (place.fill (.obj m'))
              ↔ TokenEntry.visitIn place.dotted m = TokenEntry.visitIn place.dotted m')) ∧
        ((∃ around, checkDeclarations file (place.fill .null) = .ok around) →
          (checkDeclarations file (place.fill (.obj m))
              = checkDeclarations file (place.fill (.obj m'))
            ↔ checkIn file place.dotted m = checkIn file place.dotted m'))) ∧
    ∀ node node' : Fields, node.declaresValue = true → node'.declaresValue = true →
      (∀ key ∈ ["value", "type", "description"], node.declared key = node'.declared key) →
        SeenAlike label file (place.fill (.obj node)) (place.fill (.obj node')) := by
  refine ⟨fun m m' hkey hm hm' => ⟨flatten_metadata hopen hkey hm hm' label, ?_, ?_, ?_⟩,
    fun node node' hnode hnode' hsame => .of_declared hopen hnode hnode' hsame label file⟩
  · have hmessages := Place.keyMessages_eq_iff hopen (x := .obj m) (y := .obj m') file
    rwa [keyMessagesAt_group hm, keyMessagesAt_group hm'] at hmessages
  · intro hx hy
    have hcongr := Place.ofFields_congr hopen (x := .obj m) (y := .obj m')
    have hcancel := Place.visitAt_eq_of_ofFields hopen hx hy
    rw [TokenEntry.visitAt_group hm, TokenEntry.visitAt_group hm'] at hcongr hcancel
    exact ⟨hcancel, hcongr⟩
  · rintro ⟨around, haround⟩
    have hm_at := checkAt_group hm file (place.parent "") place.key
    have hm_at' := checkAt_group hm' file (place.parent "") place.key
    rw [Place.dotted, ← hm_at, ← hm_at']
    exact ⟨Place.checkAt_eq_of_checkDeclarations hopen haround, Place.checkDeclarations_congr hopen⟩

/-- A theme with metadata in front of an ink. -/
def themeNotes : Place :=
  .under [] "theme" [] (.entry [] "$metadata" [("ink", .obj [("value", .str "black")])])

/-- The order of sets, and the same order with another one behind it. -/
theorem metadata_seen_iff_themeNotes :
    themeNotes.isOpen = true ∧ isMetadataKey themeNotes.key = true ∧
      Document.flatten ⟨"theme", themeNotes.fill (.obj [("order", .str "day")])⟩
        = Document.flatten ⟨"theme", themeNotes.fill (.obj [("setOrder", .str "night")])⟩ ∧
      keyMessages "theme" (themeNotes.fill (.obj [("order", .str "day")]))
        ≠ keyMessages "theme" (themeNotes.fill (.obj [("setOrder", .str "night")])) ∧
      TokenEntry.ofFields "" (themeNotes.fill (.obj [("order", .str "day")]))
        = TokenEntry.ofFields "" (themeNotes.fill (.obj [("setOrder", .str "night")])) ∧
      checkDeclarations "theme" (themeNotes.fill (.obj [("order", .str "day")]))
        = checkDeclarations "theme" (themeNotes.fill (.obj [("setOrder", .str "night")])) ∧
      SeenAlike "theme" "theme"
        (themeNotes.fill (.obj [("value", .int 4), ("$extensions", .obj [("value", .int 8)])]))
        (themeNotes.fill (.obj [("$value", .int 4)])) := by
  have hopen : themeNotes.isOpen = true := by decide
  have hkey : isMetadataKey themeNotes.key = true := by decide
  have hdotted : themeNotes.dotted = "theme.$metadata" := by decide
  obtain ⟨hmetadata, htokens⟩ := metadata_seen_iff hopen "theme" "theme"
  obtain ⟨hflatten, hmessages, hentries, hfindings⟩ :=
    hmetadata [("order", .str "day")] [("setOrder", .str "night")] hkey (by decide) (by decide)
  refine ⟨hopen, hkey, hflatten, fun h => ?_, ?_, ?_, ?_⟩
  · rw [hmessages, hdotted] at h
    exact absurd h (by decide)
  · exact (hentries (by decide) (by decide)).mpr rfl
  · exact (hfindings ⟨_, rfl⟩).mpr rfl
  · refine htokens _ _ (by decide) (by decide) ?_
    rw [List.forall_mem_cons, List.forall_mem_cons, List.forall_mem_singleton]
    exact ⟨rfl, rfl, rfl⟩

/-- Metadata with a token inside. -/
def gapNotes : Fields := [("Gap", .obj [("value", .int 4)])]

/-- A token inside metadata is no token of the document. It is an entry all the same, its key gets a
message, and that it has no type tag is an error. -/
theorem metadata_token_is_seen :
    isMetadataKey "$metadata" = true ∧ gapNotes.declaresValue = false ∧
      Fields.declaresValue [] = false ∧
      Document.flatten ⟨"notes", [("$metadata", .obj gapNotes)]⟩ = [] ∧
      TokenEntry.ofFields "" [("$metadata", .obj gapNotes)] = [⟨"$metadata.Gap", .int 4, .null⟩] ∧
      TokenEntry.ofFields "" [("$metadata", .obj [])] = [] ∧
      keyMessages "notes" [("$metadata", .obj gapNotes)]
        = ["notes: Key \"Gap\" at \"$metadata\" uses camelCase. " ++
            "Use snake_case instead (e.g., \"_gap\")"] ∧
      keyMessages "notes" [("$metadata", .obj [])] = [] ∧
      checkDeclarations "notes" [("$metadata", .obj gapNotes)]
        = .ok ⟨["notes: Token \"$metadata.Gap\" is missing \"type\" property"], []⟩ ∧
      checkDeclarations "notes" [("$metadata", .obj [])] = .ok ⟨[], []⟩ ∧
      ¬ SeenAlike "notes" "notes" [("$metadata", .obj gapNotes)] [("$metadata", .obj [])] := by
  refine ⟨by decide, by decide, by decide, rfl, rfl, rfl, ?_, rfl, rfl, rfl, fun h => ?_⟩
  · decide +kernel
  · exact absurd (congrArg List.length h.entries) (by decide)

end Metadata

end StyleTokens
