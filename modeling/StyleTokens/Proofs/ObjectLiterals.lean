import StyleTokens.Check.Key
import StyleTokens.Json.Reader
import StyleTokens.Proofs.Arrangement
import StyleTokens.Proofs.StringLiterals

/-!
Nested object literals, read back.

* `NameTree.readKey`, `NameTree.readTree`, `NameTree.read`: a reader of object literals. Keys are names
  or stand between single marks, and what stands under them are names or further objects;
* `NameTree.IsReadable`: trees whose keys need marks or are names, with names at their leaves;
* `NameTree.readTree_format`: such a tree is read back from its text, by induction on the tree;
* `NameTree.IsReadable.insert`: it stays so when a name is put in it;
* `NameTree.isReadable_of_ofTokens`: tokens whose keys and names follow the convention form one;
* `NameTree.read_ofTokens`: the tree of such tokens is what its text is read as.
-/

namespace StyleTokens

namespace NameTree

open Json (skipSpace isSpace)
open Output (Reading readBackslashed)

/-! ### A reader of object literals -/

/-- Can the character stand in a name? -/
def isNameChar (c : Char) : Bool := Words.isWordChar c || c == '_' || c == '$'

/-- A name at the front of a text. -/
def readName (cs : List Char) : Reading :=
  match cs.takeWhile isNameChar with
  | [] => none
  | c :: name => some (c :: name, cs.dropWhile isNameChar)

/-- A key at the front of a text: a string between single marks, or a name that does not begin with a
digit. -/
def readKey : List Char → Reading
  | [] => none
  | c :: rest =>
    if c = '\'' then readBackslashed '\'' rest
    else if Words.isDigit c then none
    else readName (c :: rest)

mutual
/-- A name or an object at the front of a text. The first argument bounds the number of steps. -/
def readTree : Nat → List Char → Option (NameTree × List Char)
  | 0, _ => none
  | fuel + 1, cs =>
    match skipSpace cs with
    | '{' :: inside =>
      match skipSpace inside with
      | '}' :: rest => some (.group [], rest)
      | inside => do
        let (entries, rest) ← readEntries fuel inside
        return (.group entries, rest)
    | cs => do
      let (name, rest) ← readName cs
      return (.leaf (String.ofList name), rest)
/-- The entries of an object up to its closing brace. -/
def readEntries : Nat → List Char → Option (List (String × NameTree) × List Char)
  | 0, _ => none
  | fuel + 1, cs => do
    let (key, afterKey) ← readKey (skipSpace cs)
    match skipSpace afterKey with
    | ':' :: afterColon => do
      let (tree, afterTree) ← readTree fuel afterColon
      match skipSpace afterTree with
      | '}' :: rest => return ([(String.ofList key, tree)], rest)
      | ',' :: next => do
        let (entries, rest) ← readEntries fuel next
        return ((String.ofList key, tree) :: entries, rest)
      | _ => none
    | _ => none
end

/-- A whole text as a name or an object. One step for every character and one more are enough. -/
def read (s : String) : Option NameTree := do
  let (tree, rest) ← readTree (s.toList.length + 1) s.toList
  if skipSpace rest = [] then some tree else none

/-! ### White space -/

lemma skipSpace_cons {c : Char} (h : isSpace c = false) (cs : List Char) :
    skipSpace (c :: cs) = c :: cs :=
  List.dropWhile_cons_of_neg (by simp [h])

lemma skipSpace_blanks (n : Nat) (cs : List Char) :
    skipSpace (List.replicate n ' ' ++ cs) = skipSpace cs := by
  refine List.dropWhile_append_of_pos fun c hc => ?_
  rw [List.eq_of_mem_replicate hc]
  rfl

/-- White space before a value is passed over. -/
lemma readTree_blank (fuel : Nat) (cs : List Char) :
    readTree fuel (' ' :: cs) = readTree fuel cs := by
  cases fuel <;> rfl

/-- So is a line feed before an entry. -/
lemma readEntries_lineFeed (fuel : Nat) (cs : List Char) :
    readEntries fuel ('\n' :: cs) = readEntries fuel cs := by
  cases fuel <;> rfl

/-! ### Names and keys -/

/-- The text is not empty, and all its characters can stand in names. -/
def IsName (s : String) : Prop := s.toList ≠ [] ∧ ∀ c ∈ s.toList, isNameChar c = true

/-- The key is written between marks, or as the name that it is. -/
def IsReadableKey (key : String) : Prop := needsMarks key = false → IsName key

/-- Characters of names are none of those that part a literal. -/
lemma isNameChar_spec {c : Char} (h : isNameChar c = true) :
    isSpace c = false ∧ c ≠ '{' ∧ c ≠ '}' ∧ c ≠ '\'' := by
  refine ⟨?_, ?_, ?_, ?_⟩
  · by_contra hspace
    rw [Bool.not_eq_false, isSpace] at hspace
    simp only [Bool.or_eq_true, beq_iff_eq, or_assoc] at hspace
    rcases hspace with rfl | rfl | rfl | rfl <;> exact absurd h (by decide)
  all_goals
    rintro rfl
    exact absurd h (by decide)

/-- A name is read up to the first character that cannot stand in one. -/
lemma readName_append {name : List Char} (hne : name ≠ []) (hname : ∀ c ∈ name, isNameChar c = true)
    {rest : List Char} (hrest : ∀ c ∈ rest.head?, isNameChar c = false) :
    readName (name ++ rest) = some (name, rest) := by
  have hstop : rest.takeWhile isNameChar = [] ∧ rest.dropWhile isNameChar = rest := by
    cases rest with
    | nil => exact ⟨rfl, rfl⟩
    | cons c rest =>
        have hc : ¬ isNameChar c = true := by simp [hrest c (by simp)]
        exact ⟨List.takeWhile_cons_of_neg hc, List.dropWhile_cons_of_neg hc⟩
  obtain ⟨c, cs, rfl⟩ := List.exists_cons_of_ne_nil hne
  rw [readName, List.takeWhile_append_of_pos hname, List.dropWhile_append_of_pos hname, hstop.1,
    hstop.2, List.append_nil]

/-- A key that needs no marks does not begin with a digit. -/
lemma isDigit_eq_false_of_needsMarks {key : String} (h : needsMarks key = false) {c : Char}
    {cs : List Char} (hkey : key.toList = c :: cs) : Words.isDigit c = false := by
  rw [needsMarks, hkey, Bool.or_eq_false_iff] at h
  simpa [Words.isDigit] using h.1

/-- A key as it is written does not begin with white space or a brace. -/
lemma exists_keyText {key : String} (h : IsReadableKey key) :
    ∃ c cs, (keyText key).toList = c :: cs ∧ isSpace c = false ∧ c ≠ '}' := by
  rw [keyText]
  split
  · exact ⟨'\'', _, by rw [Output.inSingleMarks, String.toList_ofList]; rfl, rfl, by decide⟩
  · next hmarks =>
      obtain ⟨hne, hall⟩ := h (by simpa using hmarks)
      obtain ⟨c, cs, hkey⟩ := List.exists_cons_of_ne_nil hne
      obtain ⟨hspace, -, hbrace, -⟩ := isNameChar_spec (hall c (by simp [hkey]))
      exact ⟨c, cs, hkey, hspace, hbrace⟩

/-- A key is read back as it was. -/
lemma readKey_keyText {key : String} (h : IsReadableKey key) (rest : List Char) :
    readKey ((keyText key).toList ++ ':' :: rest) = some (key.toList, ':' :: rest) := by
  rw [keyText]
  split
  · rw [Output.inSingleMarks, String.toList_ofList]
    have hread := @Output.readBackslashed_flatMap '\'' (by decide) key.toList
      ('\'' :: ':' :: rest)
    rw [Output.readBackslashed_mark, Output.Reading.prepend_some, List.append_nil] at hread
    simpa [readKey, Output.escapeWith] using hread
  · next hmarks =>
      have hmarks : needsMarks key = false := by simpa using hmarks
      obtain ⟨hne, hall⟩ := h hmarks
      obtain ⟨c, cs, hkey⟩ := List.exists_cons_of_ne_nil hne
      obtain ⟨-, -, -, hquote⟩ := isNameChar_spec (hall c (by simp [hkey]))
      have hdigit := isDigit_eq_false_of_needsMarks hmarks hkey
      have hcolon : ∀ d ∈ (':' :: rest).head?, isNameChar d = false := by
        simp only [List.head?_cons, Option.mem_some_iff, forall_eq']
        decide
      have hread := readName_append hne hall hcolon
      rw [hkey, List.cons_append] at hread ⊢
      rw [readKey, if_neg hquote, hdigit]
      exact hread

/-! ### Texts of trees -/

/-- The line of an entry. -/
def lineText (depth : Nat) (key : String) (tree : NameTree) : List Char :=
  List.replicate (2 * (depth + 1)) ' ' ++
    ((keyText key).toList ++ ':' :: ' ' :: (format (depth + 1) tree).toList)

/-- The lines of entries, with commas at their ends but for the last one. -/
def linesText (depth : Nat) (entries : List (String × NameTree)) : List Char :=
  (",\n".intercalate (formatEntries depth entries)).toList

/-- The line that closes a group. -/
def closing (depth : Nat) : List Char := '\n' :: (List.replicate (2 * depth) ' ' ++ ['}'])

lemma skipSpace_closing (depth : Nat) (rest : List Char) :
    skipSpace (closing depth ++ rest) = '}' :: rest := by
  rw [closing, List.cons_append, List.append_assoc]
  exact (skipSpace_blanks (2 * depth) _).trans (skipSpace_cons rfl rest)

section Texts

variable (depth : Nat) (key : String) (tree : NameTree) (entry : String × NameTree)
  (rest : List (String × NameTree))

lemma linesText_singleton : linesText depth [(key, tree)] = lineText depth key tree := by
  simp [linesText, lineText, formatEntries, indentation]

lemma linesText_cons_cons : linesText depth ((key, tree) :: entry :: rest)
    = lineText depth key tree ++ ',' :: '\n' :: linesText depth (entry :: rest) := by
  obtain ⟨k, t⟩ := entry
  simp [linesText, lineText, formatEntries, indentation, String.intercalate_cons_cons]

lemma toList_format_group : (format depth (.group (entry :: rest))).toList
    = '{' :: '\n' :: (linesText depth (entry :: rest) ++ closing depth) := by
  simp [format, linesText, closing, indentation]

end Texts

/-! ### Steps of the reader -/

mutual
/-- The number of steps that reading a tree takes. -/
def steps : NameTree → Nat
  | .leaf _ => 1
  | .group entries => 1 + stepsIn entries
/-- The number of steps that reading entries takes. -/
def stepsIn : List (String × NameTree) → Nat
  | [] => 0
  | (_, tree) :: rest => 1 + steps tree + stepsIn rest
end

mutual
/-- There are at most as many steps as characters, and one more. -/
theorem steps_le (depth : Nat) : ∀ tree : NameTree,
    steps tree ≤ (format depth tree).toList.length + 1
  | .leaf name => by simp [steps]
  | .group [] => by simp [steps, stepsIn]
  | .group (entry :: rest) => by
      have hlines := stepsIn_le depth (entry :: rest)
      rw [steps, toList_format_group]
      simp only [List.length_append, List.length_cons]
      omega
/-- The same for entries. -/
theorem stepsIn_le (depth : Nat) : ∀ entries : List (String × NameTree),
    stepsIn entries ≤ (linesText depth entries).length
  | [] => by simp [stepsIn]
  | [(key, tree)] => by
      have htree := steps_le (depth + 1) tree
      rw [stepsIn, stepsIn, linesText_singleton, lineText]
      simp only [List.length_append, List.length_cons]
      omega
  | (key, tree) :: entry :: rest => by
      have htree := steps_le (depth + 1) tree
      have hrest := stepsIn_le depth (entry :: rest)
      rw [stepsIn, linesText_cons_cons, lineText]
      simp only [List.length_append, List.length_cons]
      omega
end

/-! ### Trees that are read back -/

/-- The keys of all groups can be read back, and names stand at the leaves. -/
inductive IsReadable : NameTree → Prop where
  | leaf {name : String} : IsName name → IsReadable (.leaf name)
  | group {entries : List (String × NameTree)} : (∀ e ∈ entries, IsReadableKey e.1) →
      (∀ e ∈ entries, IsReadable e.2) → IsReadable (.group entries)

/-- An entry is read up to what follows its tree, which tells whether it is the last one. -/
lemma readEntries_line {depth fuel : Nat} {key : String} {tree : NameTree} {after : List Char}
    (hkey : IsReadableKey key)
    (htree : readTree fuel ((format (depth + 1) tree).toList ++ after) = some (tree, after)) :
    readEntries (fuel + 1) (lineText depth key tree ++ after)
      = match skipSpace after with
        | '}' :: rest => some ([(key, tree)], rest)
        | ',' :: next => do
          let (entries, rest) ← readEntries fuel next
          return ((key, tree) :: entries, rest)
        | _ => none := by
  obtain ⟨c, cs, hc, hspace, -⟩ := exists_keyText hkey
  have hskip : skipSpace (lineText depth key tree ++ after)
      = (keyText key).toList ++ ':' :: ' ' :: ((format (depth + 1) tree).toList ++ after) := by
    rw [lineText, List.append_assoc, skipSpace_blanks, hc]
    simpa using skipSpace_cons hspace _
  rw [readEntries, hskip, readKey_keyText hkey]
  simp only [Option.bind_eq_bind, Option.bind_some, skipSpace_cons (rfl : isSpace ':' = false)]
  rw [readTree_blank, htree, String.ofList_toList]
  rfl

/-- The lines of entries begin with the first key. -/
lemma exists_skipSpace_linesText {key : String} (h : IsReadableKey key) (depth : Nat)
    (tree : NameTree) (entries : List (String × NameTree)) (rest : List Char) :
    ∃ c cs, skipSpace ('\n' :: (linesText depth ((key, tree) :: entries) ++ rest)) = c :: cs ∧
      isSpace c = false ∧ c ≠ '}' := by
  obtain ⟨c, cs, hc, hspace, hbrace⟩ := exists_keyText h
  obtain ⟨ds, hds⟩ : ∃ ds, linesText depth ((key, tree) :: entries)
      = List.replicate (2 * (depth + 1)) ' ' ++ c :: ds := by
    cases entries with
    | nil => exact ⟨_, by rw [linesText_singleton, lineText, hc]; rfl⟩
    | cons entry entries => exact ⟨_, by rw [linesText_cons_cons, lineText, hc]; simp; rfl⟩
  refine ⟨c, ds ++ rest, ?_, hspace, hbrace⟩
  rw [hds, List.append_assoc]
  exact (skipSpace_blanks _ _).trans (skipSpace_cons hspace _)

/-- A name is read as a leaf. -/
lemma readTree_leaf {name : String} (hname : IsName name) (fuel : Nat) {rest : List Char}
    (hrest : ∀ c ∈ rest.head?, isNameChar c = false) :
    readTree (fuel + 1) (name.toList ++ rest) = some (.leaf name, rest) := by
  obtain ⟨c, cs, hcs⟩ := List.exists_cons_of_ne_nil hname.1
  obtain ⟨hspace, hbrace, -, -⟩ := isNameChar_spec (hname.2 c (by simp [hcs]))
  have hread := readName_append hname.1 hname.2 hrest
  rw [hcs, List.cons_append] at hread
  rw [readTree, hcs, List.cons_append, skipSpace_cons hspace]
  split
  · next h => exact absurd (List.cons.inj h).1 hbrace
  · rw [hread, ← hcs]
    simp

/-- An object is read by its entries if the first of them does not begin with a brace. -/
lemma readTree_group {fuel : Nat} {inside rest : List Char} {entries : List (String × NameTree)}
    {c : Char} {cs : List Char} (hinside : skipSpace inside = c :: cs) (hspace : isSpace c = false)
    (hc : c ≠ '}') (hentries : readEntries fuel inside = some (entries, rest)) :
    readTree (fuel + 1) ('{' :: inside) = some (.group entries, rest) := by
  -- white space before the entries is passed over once or twice
  have hskip : readEntries fuel (c :: cs) = readEntries fuel inside := by
    cases fuel with
    | zero => rfl
    | succ fuel => rw [readEntries, readEntries, hinside, skipSpace_cons hspace]
  have hread : readTree (fuel + 1) ('{' :: inside)
      = match skipSpace inside with
        | '}' :: rest => some (.group [], rest)
        | inside => do
          let (entries, rest) ← readEntries fuel inside
          return (.group entries, rest) := by
    rw [readTree, skipSpace_cons rfl]
    rfl
  rw [hread, hinside]
  split
  · next h => exact absurd (List.cons.inj h).1 hc
  · rw [hskip, hentries]
    rfl

/-! ### Reading back -/

/-- What follows the tree of an entry is no part of a name. -/
lemma isNameChar_head?_eq_false {c : Char} {cs : List Char} (h : isNameChar c = false) :
    ∀ d ∈ (c :: cs).head?, isNameChar d = false := by
  simpa using h

mutual

/-- **A tree is read back from its text**, if what follows cannot be part of a name. -/
theorem readTree_format : ∀ {tree : NameTree} {depth fuel : Nat} {rest : List Char},
    tree.IsReadable → steps tree ≤ fuel → (∀ c ∈ rest.head?, isNameChar c = false) →
      readTree fuel ((format depth tree).toList ++ rest) = some (tree, rest)
  | .leaf name, depth, fuel, rest, h, hfuel, hrest => by
      obtain ⟨n, rfl⟩ : ∃ n, fuel = n + 1 := ⟨fuel - 1, by rw [steps] at hfuel; omega⟩
      cases h with
      | leaf hname =>
          rw [format]
          exact readTree_leaf hname n hrest
  | .group [], depth, fuel, rest, _, hfuel, _ => by
      obtain ⟨n, rfl⟩ : ∃ n, fuel = n + 1 := ⟨fuel - 1, by rw [steps] at hfuel; omega⟩
      rw [format]
      rfl
  | .group ((key, tree) :: entries), depth, fuel, rest, h, hfuel, _ => by
      rw [steps] at hfuel
      obtain ⟨n, rfl⟩ : ∃ n, fuel = n + 1 := ⟨fuel - 1, by omega⟩
      cases h with
      | group hkeys htrees =>
          have hread := @readEntries_format ((key, tree) :: entries) depth n rest
            (List.cons_ne_nil _ _) hkeys htrees (by omega)
          obtain ⟨c, cs, hfront, hspace, hbrace⟩ := exists_skipSpace_linesText
            (hkeys _ (List.mem_cons_self ..)) depth tree entries (closing depth ++ rest)
          rw [toList_format_group, List.cons_append, List.cons_append, List.append_assoc]
          exact readTree_group hfront hspace hbrace ((readEntries_lineFeed n _).trans hread)

/-- **Entries are read back from their lines**, up to the brace that closes them. -/
theorem readEntries_format : ∀ {entries : List (String × NameTree)} {depth fuel : Nat}
    {rest : List Char}, entries ≠ [] → (∀ e ∈ entries, IsReadableKey e.1) →
      (∀ e ∈ entries, IsReadable e.2) → stepsIn entries ≤ fuel →
        readEntries fuel (linesText depth entries ++ (closing depth ++ rest))
          = some (entries, rest)
  | [], _, _, _, hne, _, _, _ => absurd rfl hne
  | [(key, tree)], depth, fuel, rest, _, hkeys, htrees, hfuel => by
      rw [stepsIn, stepsIn] at hfuel
      obtain ⟨n, rfl⟩ : ∃ n, fuel = n + 1 := ⟨fuel - 1, by omega⟩
      have htree := @readTree_format tree (depth + 1) n (closing depth ++ rest)
        (htrees _ (List.mem_cons_self ..)) (by omega) (isNameChar_head?_eq_false rfl)
      rw [linesText_singleton, readEntries_line (hkeys _ (List.mem_cons_self ..)) htree,
        skipSpace_closing]
      rfl
  | (key, tree) :: entry :: entries, depth, fuel, rest, _, hkeys, htrees, hfuel => by
      rw [stepsIn] at hfuel
      obtain ⟨n, rfl⟩ : ∃ n, fuel = n + 1 := ⟨fuel - 1, by omega⟩
      have htree := @readTree_format tree (depth + 1) n
        (',' :: '\n' :: (linesText depth (entry :: entries) ++ (closing depth ++ rest)))
        (htrees _ (List.mem_cons_self ..)) (by omega) (isNameChar_head?_eq_false rfl)
      have hrest := @readEntries_format (entry :: entries) depth n rest (List.cons_ne_nil _ _)
        (fun e he => hkeys e (List.mem_cons_of_mem _ he))
        (fun e he => htrees e (List.mem_cons_of_mem _ he)) (by omega)
      -- after the comma the lines of the other entries are read as they would be alone
      rw [linesText_cons_cons, List.append_assoc, List.cons_append, List.cons_append,
        readEntries_line (hkeys _ (List.mem_cons_self ..)) htree, skipSpace_cons rfl]
      calc
        _ = (readEntries n (linesText depth (entry :: entries) ++ (closing depth ++ rest))).bind
              fun (es, r) => some ((key, tree) :: es, r) := by rw [← readEntries_lineFeed]; rfl
        _ = _ := by rw [hrest]; rfl

end

/-- **A readable tree is what its text is read as.** -/
theorem read_format {tree : NameTree} (h : tree.IsReadable) (depth : Nat) :
    read (format depth tree) = some tree := by
  have hread := @readTree_format tree depth _ [] h (steps_le depth tree) (by simp)
  rw [List.append_nil] at hread
  rw [read, hread]
  rfl

/-- A key that begins with a digit is read between marks only. -/
example : (read "\x7b'2xl': gap\x7d").isSome ∧ read "\x7b2xl: gap\x7d" = none := by
  decide +kernel

/-- Readable trees with the same text are the same. -/
lemma format_inj {tree tree' : NameTree} {depth : Nat} (h : tree.IsReadable) (h' : tree'.IsReadable)
    (htext : format depth tree = format depth tree') : tree = tree' :=
  Option.some.inj (calc
    some tree = read (format depth tree) := (read_format h depth).symm
    _ = read (format depth tree') := by rw [htext]
    _ = some tree' := read_format h' depth)

/-! ### Trees of tokens that follow the convention -/

lemma mem_put {key : String} {tree : NameTree} {entries : List (String × NameTree)}
    {e : String × NameTree} (h : e ∈ put key tree entries) : e = (key, tree) ∨ e ∈ entries := by
  induction entries with
  | nil => exact .inl (List.mem_singleton.mp h)
  | cons entry rest ih =>
      rw [put] at h
      split at h <;> rcases List.mem_cons.mp h with rfl | h
      · next hk => exact .inl (by rw [hk])
      · exact .inr (List.mem_cons_of_mem _ h)
      · exact .inr (List.mem_cons_self ..)
      · exact (ih h).imp_right (List.mem_cons_of_mem _)

/-- A readable group stays so when a readable key is given a readable tree. -/
lemma IsReadable.put {key : String} {tree : NameTree} {entries : List (String × NameTree)}
    (h : IsReadable (.group entries)) (hkey : IsReadableKey key) (htree : tree.IsReadable) :
    IsReadable (.group (put key tree entries)) := by
  cases h with
  | group hkeys htrees =>
      refine .group (fun e he => ?_) (fun e he => ?_)
      · rcases mem_put he with rfl | he
        · exact hkey
        · exact hkeys e he
      · rcases mem_put he with rfl | he
        · exact htree
        · exact htrees e he

/-- The group below a key of a readable group is readable. -/
lemma IsReadable.groupAt {entries : List (String × NameTree)} (h : IsReadable (.group entries))
    (key : String) : IsReadable (.group (groupAt entries key)) := by
  rw [NameTree.groupAt]
  split
  · next inner hinner =>
      obtain ⟨before, after, rfl, -⟩ := List.lookup_eq_some_iff.mp hinner
      cases h with
      | group _ htrees => exact htrees (key, .group inner) (by simp)
  · exact .group (by simp) (by simp)

/-- **A readable tree stays so when a name is put in it** at a path of readable keys. -/
theorem IsReadable.insert {name : String} (hname : IsName name) {path before : Path}
    {entries entries' : List (String × NameTree)} (h : IsReadable (.group entries))
    (hpath : ∀ key ∈ path, IsReadableKey key)
    (hinsert : insert name before path entries = .ok entries') : IsReadable (.group entries') := by
  induction path generalizing before entries entries' with
  | nil => cases hinsert
  | cons key path ih =>
      have hkey := hpath key (List.mem_cons_self ..)
      cases path with
      | nil =>
          rw [NameTree.insert] at hinsert
          split at hinsert
          · cases hinsert
          · obtain rfl := Except.ok.inj hinsert
            exact h.put hkey (.leaf hname)
      | cons next path =>
          by_cases hleaf : ∃ n, entries.lookup key = some (.leaf n)
          · obtain ⟨n, hn⟩ := hleaf
            rw [NameTree.insert, hn] at hinsert
            · cases hinsert
            · exact List.cons_ne_nil next path
          · rw [insert_cons_cons fun n hn => hleaf ⟨n, hn⟩] at hinsert
            obtain ⟨inner, hinner, rfl⟩ := exists_of_map_eq_ok hinsert
            exact h.put hkey
              (ih (h.groupAt key) (fun k hk => hpath k (List.mem_cons_of_mem _ hk)) hinner)

/-- A key that follows the convention is written between marks, or is a name. -/
lemma isReadableKey_of_isConventional {key : String} (h : isConventional key.toList = true) :
    IsReadableKey key := by
  intro hmarks
  rw [isConventional.eq_def] at h
  split at h
  · cases h
  · next c rest hkey =>
      rw [isDigit_eq_false_of_needsMarks hmarks hkey] at h
      split at h
      · next hlower =>
          rw [List.all_eq_true] at h
          refine ⟨by simp [hkey], fun d hd => ?_⟩
          rw [hkey] at hd
          rw [isNameChar, Words.isWordChar]
          rcases List.mem_cons.mp hd with rfl | hd
          · simp [hlower]
          · have hd := h d hd
            simp only [Bool.or_eq_true] at hd ⊢
            tauto
      · cases h

end NameTree

/-- The keys of all paths follow the convention, and names are made of ASCII letters and digits. -/
def TokenList.FollowsConvention (c : TokenList) : Prop :=
  ∀ t ∈ c.tokens, (∀ key ∈ t.path, isConventional key.toList = true) ∧
    t.name ≠ "" ∧ t.name.toList.all Words.isWordChar = true

namespace NameTree

variable {c : TokenList}

/-- Names of tokens that follow the convention are put into a readable tree, one after the other. -/
lemma isReadable_of_entriesOf {tokens : List Token} {entries : List (String × NameTree)}
    (hc : TokenList.FollowsConvention ⟨tokens⟩) (hentries : entriesOf tokens = .ok entries) :
    IsReadable (.group entries) := by
  induction tokens using List.reverseRecOn generalizing entries with
  | nil =>
      obtain rfl : [] = entries := Except.ok.inj hentries
      exact .group (by simp) (by simp)
  | append_singleton tokens t ih =>
      rw [entriesOf_concat] at hentries
      obtain ⟨earlier, hearlier, hinsert⟩ := exists_of_bind_eq_ok hentries
      obtain ⟨hkeys, hne, hname⟩ := hc t (by simp)
      have hname : IsName t.name := by
        refine ⟨by simpa using hne, fun ch hch => ?_⟩
        simp [isNameChar, List.all_eq_true.mp hname ch hch]
      exact (ih (fun u hu => hc u (by simp [hu])) hearlier).insert hname
        (fun key hkey => isReadableKey_of_isConventional (hkeys key hkey)) hinsert

/-- The tree of tokens that follow the convention is readable. -/
lemma isReadable_of_ofTokens {tree : NameTree} (hc : c.FollowsConvention)
    (htree : ofTokens c.tokens = .ok tree) : tree.IsReadable := by
  obtain ⟨entries, hentries, htree⟩ := exists_of_bind_eq_ok htree
  obtain rfl := Except.ok.inj htree
  exact isReadable_of_entriesOf hc hentries

/-- **The text of a tree of tokens tells the tree.** Tokens whose keys and names follow the convention
form a tree if they have paths that do not run through each other. The text of such a tree is read as
the tree, with the keys in their order, and is the text of no other tree of such tokens. -/
theorem read_ofTokens (hc : c.FollowsConvention) :
    ((∀ t ∈ c.tokens, t.path ≠ []) → PrefixFree (c.tokens.map Token.path) →
      ∃ tree, ofTokens c.tokens = .ok tree) ∧
    ∀ tree, ofTokens c.tokens = .ok tree → read (format 0 tree) = some tree ∧
      ∀ c' tree', TokenList.FollowsConvention c' → ofTokens c'.tokens = .ok tree' →
        format 0 tree' = format 0 tree → tree' = tree := by
  refine ⟨fun hpaths hfree => ?_, fun tree htree => ?_⟩
  · obtain ⟨tree, htree, -⟩ := exists_arranges hpaths hfree
    exact ⟨tree, htree⟩
  · have hreadable := isReadable_of_ofTokens hc htree
    exact ⟨read_format hreadable 0, fun c' tree' hc' htree' htext =>
      format_inj (isReadable_of_ofTokens hc' htree') hreadable htext⟩

/-- Gaps on a scale of numbers, of sizes and of words, and one with a name that begins with a digit. -/
def scaledGaps : TokenList :=
  ⟨[{ path := ["gap", "2xl"], value := .int 32, name := "gap2xl" },
    { path := ["size"], value := .int 16, name := "9size" },
    { path := ["gap", "500"], value := .int 20, name := "gap500" },
    { path := ["gap", "dense", "x_2"], value := .int 1, name := "gapDenseX2" }]⟩

/-- Keys that begin with a digit are written between marks, and all keys come back in their order. -/
theorem read_ofTokens_scaledGaps :
    scaledGaps.FollowsConvention ∧ (∀ t ∈ scaledGaps.tokens, t.path ≠ []) ∧
      PrefixFree (scaledGaps.tokens.map Token.path) ∧
      ∃ tree, ofTokens scaledGaps.tokens = .ok tree ∧
        format 0 tree = "\x7b\n  gap: \x7b\n    '2xl': gap2xl,\n    '500': gap500,\n    dense: \x7b\n" ++
          "      x_2: gapDenseX2\n    \x7d\n  \x7d,\n  size: 9size\n\x7d" ∧
        read (format 0 tree) = some tree := by
  have hc : scaledGaps.FollowsConvention := by
    rw [TokenList.FollowsConvention]
    decide
  have hpaths : ∀ t ∈ scaledGaps.tokens, t.path ≠ [] := by decide
  have hfree : PrefixFree (scaledGaps.tokens.map Token.path) := by
    rw [PrefixFree]
    decide
  obtain ⟨hforms, hreads⟩ := read_ofTokens hc
  obtain ⟨tree, htree⟩ := hforms hpaths hfree
  refine ⟨hc, hpaths, hfree, tree, htree, ?_, (hreads tree htree).1⟩
  obtain rfl := Except.ok.inj ((rfl : ofTokens scaledGaps.tokens = .ok _).symm.trans htree)
  decide

end NameTree

end StyleTokens
