import StyleTokens.Proofs.JoinedWords

/-!
Where words end.

* `Words.IsGroups`, `Words.EndsInGroups`: texts that end in groups of two upper case letters and a
  lower case one;
* `Words.endsInGroups_rises`, `Words.endsInGroups_capitalises`, `Words.endsInGroups_cons`: such texts
  behind the stretches that `splitCase` looks at;
* `Words.IsJoint`, `Words.isJoint_of_rises`: between a lower case and an upper case letter there is a
  blank, unless the text before the second one ends in groups;
* `Words.exists_pieces_adjacent`: letters that stand side by side are in one word;
* `Words.EndsBetween`, `Words.endsBetween_iff`: the places of a text at which a word ends;
* `wordsOf_ends_iff`: the rises of case at which a word ends. At `swallowed_rise_ends_no_word` none
  does.
-/

namespace StyleTokens

open Words (isDigit isLower isUpper isWordChar)

namespace Words

/-! ### Groups of capitals -/

/-- The text is made of groups of two upper case letters and a lower case one, at least one. -/
inductive IsGroups : List Char → Prop
  | single {x y z : Char} (h : capitalises x y z = true) : IsGroups [x, y, z]
  | cons {x y z : Char} {cs : List Char} (h : capitalises x y z = true) (hcs : IsGroups cs) :
      IsGroups (x :: y :: z :: cs)

/-- The text ends in groups of two upper case letters and a lower case one, and no lower case letter
or digit stands before them. -/
def EndsInGroups (cs : List Char) : Prop :=
  ∃ front groups, cs = front ++ groups ∧ IsGroups groups ∧
    ∀ c, front.getLast? = some c → isLower c = false ∧ isDigit c = false

section Groups

variable {x y z : Char} {cs : List Char}

lemma rises_iff : rises x y = true ↔ (isLower x = true ∨ isDigit x = true) ∧ isUpper y = true := by
  rw [rises, Bool.and_eq_true, Bool.or_eq_true]

lemma capitalises_iff : capitalises x y z = true ↔
    isUpper x = true ∧ isUpper y = true ∧ isLower z = true := by
  rw [capitalises, Bool.and_eq_true, Bool.and_eq_true, and_assoc]

lemma not_isLower_isDigit (h : isUpper x = true) : isLower x = false ∧ isDigit x = false := by
  rw [isUpper_iff] at h
  rw [Bool.eq_false_iff, Bool.eq_false_iff, ne_eq, ne_eq, isLower_iff, isDigit_iff]
  omega

/-- Groups begin with two upper case letters. -/
lemma IsGroups.exists_front (h : IsGroups cs) : ∃ x y z rest, cs = x :: y :: z :: rest ∧
    isUpper x = true ∧ isUpper y = true ∧ isLower z = true := by
  cases h with
  | single h => exact ⟨_, _, _, _, rfl, capitalises_iff.mp h⟩
  | cons h _ => exact ⟨_, _, _, _, rfl, capitalises_iff.mp h⟩

/-- What stands before the groups may be longer. -/
lemma EndsInGroups.append (h : EndsInGroups cs) (front : List Char)
    (hfront : IsGroups cs → ∀ c, front.getLast? = some c → isLower c = false ∧ isDigit c = false) :
    EndsInGroups (front ++ cs) := by
  obtain ⟨front', groups, rfl, hgroups, hlast⟩ := h
  refine ⟨front ++ front', groups, by simp, hgroups, ?_⟩
  cases front' with
  | nil => simpa using hfront hgroups
  | cons c cs =>
      rw [List.getLast?_append_of_ne_nil _ (by simp)]
      exact hlast

lemma IsGroups.endsInGroups (h : IsGroups cs) : EndsInGroups cs := ⟨[], cs, rfl, h, by simp⟩

/-- What stands before the groups may be shorter. -/
lemma IsGroups.endsInGroups_of_append (h : IsGroups cs) (front front' : List Char)
    (hlast : ∀ c, (front ++ front').getLast? = some c → isLower c = false ∧ isDigit c = false) :
    EndsInGroups (front' ++ cs) := by
  refine ⟨front', cs, rfl, h, fun c hc => ?_⟩
  cases front' with
  | nil => cases hc
  | cons d front' => exact hlast c (by rwa [List.getLast?_append_of_ne_nil _ (by simp)])

/-- A rise of case belongs to no groups. -/
lemma endsInGroups_rises (h : rises x y = true) :
    EndsInGroups (x :: y :: cs) ↔ EndsInGroups cs := by
  obtain ⟨hx, hy⟩ := rises_iff.mp h
  constructor
  · rintro ⟨front, groups, heq, hgroups, hlast⟩
    match front with
    | [] =>
        obtain ⟨x', y', z', rest, rfl, hx', -⟩ := hgroups.exists_front
        obtain ⟨rfl, -⟩ := List.cons.inj heq
        simp [not_isLower_isDigit hx'] at hx
    | [p] =>
        obtain ⟨rfl, -⟩ := List.cons.inj heq
        simp [hlast x rfl] at hx
    | p :: q :: front =>
        simp only [List.cons_append, List.cons.injEq] at heq
        obtain ⟨-, -, rfl⟩ := heq
        exact hgroups.endsInGroups_of_append [p, q] front hlast
  · intro h
    refine h.append [x, y] fun _ c hc => ?_
    obtain rfl : y = c := by simpa using hc
    exact not_isLower_isDigit hy

/-- A group belongs to those behind it, if there is nothing else before them. -/
lemma endsInGroups_capitalises (h : capitalises x y z = true) :
    EndsInGroups (x :: y :: z :: cs) ↔ cs = [] ∨ EndsInGroups cs := by
  obtain ⟨-, -, hz⟩ := capitalises_iff.mp h
  have hupper : ¬ isUpper z = true := by simp [isUpper_eq_false (.inl hz)]
  constructor
  · rintro ⟨front, groups, heq, hgroups, hlast⟩
    match front with
    | [] =>
        rw [List.nil_append] at heq
        rw [← heq] at hgroups
        cases hgroups with
        | single => exact .inl rfl
        | cons _ hcs => exact .inr hcs.endsInGroups
    -- no group begins inside the group
    | [p] =>
        obtain ⟨x', y', z', rest, rfl, -, hy', -⟩ := hgroups.exists_front
        simp only [List.cons_append, List.nil_append, List.cons.injEq] at heq
        exact absurd (heq.2.2.1 ▸ hy') hupper
    | [p, q] =>
        obtain ⟨x', y', z', rest, rfl, hx', -⟩ := hgroups.exists_front
        simp only [List.cons_append, List.nil_append, List.cons.injEq] at heq
        exact absurd (heq.2.2.1 ▸ hx') hupper
    | [p, q, r] =>
        simp only [List.cons_append, List.cons.injEq] at heq
        rw [heq.2.2.1, (hlast r rfl).1] at hz
        cases hz
    | p :: q :: r :: d :: front =>
        simp only [List.cons_append, List.cons.injEq] at heq
        obtain ⟨-, -, -, rfl⟩ := heq
        exact .inr (hgroups.endsInGroups_of_append [p, q, r] (d :: front) hlast)
  · rintro (rfl | ⟨front, groups, rfl, hgroups, hlast⟩)
    · exact (IsGroups.single h).endsInGroups
    · cases front with
      | nil => exact (IsGroups.cons h hgroups).endsInGroups
      | cons d front => exact ⟨x :: y :: z :: d :: front, groups, rfl, hgroups, hlast⟩

/-- Where neither rule applies to a character, it does not matter. -/
lemma endsInGroups_cons (hrises : ∀ y rest, cs = y :: rest → rises x y = false)
    (hcapitalises : ∀ y z rest, cs = y :: z :: rest → capitalises x y z = false) :
    EndsInGroups (x :: cs) ↔ EndsInGroups cs := by
  constructor
  · rintro ⟨front, groups, heq, hgroups, hlast⟩
    cases front with
    | nil =>
        rw [List.nil_append] at heq
        rw [← heq] at hgroups
        cases hgroups with
        | single h => exact absurd h (by simp [hcapitalises _ _ _ rfl])
        | cons h _ => exact absurd h (by simp [hcapitalises _ _ _ rfl])
    | cons p front =>
        obtain ⟨rfl, rfl⟩ := List.cons.inj heq
        exact hgroups.endsInGroups_of_append [x] front hlast
  · intro h
    refine h.append [x] fun hgroups c hc => ?_
    obtain rfl : x = c := by simpa using hc
    obtain ⟨y, z, w, rest, rfl, hy, -⟩ := hgroups.exists_front
    simpa [rises, hy] using hrises y _ rfl

/-- One character is no group. -/
lemma not_endsInGroups_singleton (c : Char) : ¬ EndsInGroups [c] := by
  rintro ⟨front, groups, heq, hgroups, -⟩
  obtain ⟨x, y, z, rest, rfl, -⟩ := hgroups.exists_front
  have hlength := congrArg List.length heq
  simp only [List.length_append, List.length_cons, List.length_nil] at hlength
  omega

end Groups

/-! ### Blanks at rises of case -/

/-- The first character stays in front. -/
lemma exists_splitCase_cons (b : Char) (cs : List Char) : ∃ v, splitCase (b :: cs) = b :: v := by
  match cs with
  | [] => exact ⟨[], rfl⟩
  | [c] =>
      rw [splitCase]
      split <;> exact ⟨_, rfl⟩
  | c :: d :: rest =>
      rw [splitCase]
      split
      · exact ⟨_, rfl⟩
      · split <;> exact ⟨_, rfl⟩

section Joint

variable {a b x y z : Char} {before after : List Char}

/-- At the joint of two texts, between a lower case letter and an upper case one, there is a blank,
or there is none because the first text ends in groups. -/
def IsJoint (before : List Char) (a b : Char) (after : List Char) : Prop :=
  ∃ u gap v, splitCase (before ++ a :: b :: after) = u ++ a :: (gap ++ b :: v) ∧
    u.filter isWordChar = before.filter isWordChar ∧
    (gap = [' '] ∧ ¬ EndsInGroups (before ++ [a]) ∨ gap = [] ∧ EndsInGroups (before ++ [a]))

lemma isWordChar_blank : isWordChar ' ' = false := by decide

/-- A stretch in front of the joint from which the pass goes on. -/
lemma IsJoint.append (h : IsJoint before a b after) (front front' : List Char)
    (hsplit : splitCase (front ++ (before ++ a :: b :: after))
      = front' ++ splitCase (before ++ a :: b :: after))
    (hfront : front'.filter isWordChar = front.filter isWordChar)
    (hgroups : EndsInGroups (front ++ (before ++ [a])) ↔ EndsInGroups (before ++ [a])) :
    IsJoint (front ++ before) a b after := by
  obtain ⟨u, gap, v, huv, hu, hgap⟩ := h
  refine ⟨front' ++ u, gap, v, ?_, ?_, ?_⟩
  · rw [List.append_assoc, hsplit, huv, List.append_assoc]
  · rw [List.filter_append, List.filter_append, hfront, hu]
  · rwa [List.append_assoc, hgroups]

lemma isJoint_nil (hab : rises a b = true) (after : List Char) : IsJoint [] a b after := by
  have hsplit : ∃ v, splitCase (a :: b :: after) = a :: ' ' :: b :: v := by
    cases after with
    | nil => exact ⟨[], by rw [splitCase, if_pos hab]⟩
    | cons c rest => exact ⟨splitCase (c :: rest), by rw [splitCase, if_pos hab]⟩
  obtain ⟨v, hv⟩ := hsplit
  exact ⟨[], [' '], v, hv, rfl, .inl ⟨rfl, not_endsInGroups_singleton a⟩⟩

/-- The joint is behind a rise of case. -/
lemma IsJoint.behind_rise (h : IsJoint before a b after) (hxy : rises x y = true) :
    IsJoint (x :: y :: before) a b after := by
  obtain ⟨z, rest, hrest⟩ : ∃ z rest, before ++ a :: b :: after = z :: rest :=
    List.exists_cons_of_ne_nil (by simp)
  refine h.append [x, y] [x, ' ', y] ?_ ?_ (endsInGroups_rises hxy)
  · rw [hrest, List.cons_append, List.singleton_append, splitCase, if_pos hxy]
    rfl
  · simp [List.filter_cons, isWordChar_blank]

lemma rises_eq_false_of_capitalises (hxyz : capitalises x y z = true) : ¬ rises x y = true := by
  obtain ⟨hx, -⟩ := capitalises_iff.mp hxyz
  simp [rises, not_isLower_isDigit hx]

/-- The joint is behind a group. -/
lemma IsJoint.behind_group (h : IsJoint before a b after) (hxyz : capitalises x y z = true) :
    IsJoint (x :: y :: z :: before) a b after := by
  refine h.append [x, y, z] [x, ' ', y, z] ?_ ?_ ?_
  · rw [List.cons_append, List.cons_append, List.singleton_append, splitCase,
      if_neg (rises_eq_false_of_capitalises hxyz), if_pos hxyz]
    rfl
  · simp [List.filter_cons, isWordChar_blank]
  · exact (endsInGroups_capitalises hxyz).trans (or_iff_right (by simp))

/-- The joint is at the end of a group, whose last letter is passed over with it. -/
lemma isJoint_of_capitalises (hxya : capitalises x y a = true) (b : Char) (after : List Char) :
    IsJoint [x, y] a b after := by
  obtain ⟨v, hv⟩ := exists_splitCase_cons b after
  refine ⟨[x, ' ', y], [], v, ?_, by simp [List.filter_cons, isWordChar_blank], .inr ⟨rfl, ?_⟩⟩
  · rw [List.cons_append, List.singleton_append, splitCase,
      if_neg (rises_eq_false_of_capitalises hxya), if_pos hxya, hv]
    rfl
  · exact (endsInGroups_capitalises hxya).mpr (.inl rfl)

/-- The joint is behind a character to which neither rule applies. -/
lemma IsJoint.behind_char (h : IsJoint before a b after) {rest : List Char}
    (hrest : before ++ a :: b :: after = y :: z :: rest) (hxy : ¬ rises x y = true)
    (hxyz : ¬ capitalises x y z = true) : IsJoint (x :: before) a b after := by
  have hfront : ∀ {w}, before ++ [a] ++ w = before ++ a :: w := by simp
  refine h.append [x] [x] ?_ rfl (endsInGroups_cons ?_ ?_)
  · rw [hrest, List.singleton_append, splitCase, if_neg hxy, if_neg hxyz]
    rfl
  · intro y' rest' (heq : before ++ [a] = y' :: rest')
    rw [← hfront, heq] at hrest
    obtain ⟨rfl, -⟩ := List.cons.inj hrest
    simpa using hxy
  · intro y' z' rest' (heq : before ++ [a] = y' :: z' :: rest')
    rw [← hfront, heq] at hrest
    simp only [List.cons_append, List.cons.injEq] at hrest
    obtain ⟨rfl, rfl, -⟩ := hrest
    simpa using hxyz

/-- **Between a lower case letter and an upper case one there is a blank**, unless the text up to the
lower case letter ends in groups. -/
theorem isJoint_of_rises (ha : isLower a = true) (hb : isUpper b = true)
    (before after : List Char) : IsJoint before a b after := by
  have hupper : ¬ isUpper a = true := by simp [isUpper_eq_false (.inl ha)]
  -- on what the pass has left of the text before the joint
  induction hn : before.length using Nat.strong_induction_on generalizing before with
  | _ n ih =>
  have ih : ∀ left : List Char, left.length < before.length → IsJoint left a b after :=
    fun left hlt => ih _ (hn ▸ hlt) left rfl
  match before with
  | [] => exact isJoint_nil (rises_iff.mpr ⟨.inl ha, hb⟩) after
  | [x] =>
      have hxa : ¬ rises x a = true := fun h => hupper (rises_iff.mp h).2
      have hxab : ¬ capitalises x a b = true := fun h => hupper (capitalises_iff.mp h).2.1
      exact (ih [] (by simp)).behind_char rfl hxa hxab
  | [x, y] =>
      by_cases hxy : rises x y = true
      · exact (ih [] (by simp)).behind_rise hxy
      · by_cases hxya : capitalises x y a = true
        · exact isJoint_of_capitalises hxya b after
        · exact (ih [y] (by simp)).behind_char rfl hxy hxya
  | x :: y :: z :: left =>
      by_cases hxy : rises x y = true
      · exact (ih (z :: left) (by simp)).behind_rise hxy
      · by_cases hxyz : capitalises x y z = true
        · exact (ih left (by simp; omega)).behind_group hxyz
        · exact (ih (y :: z :: left) (by simp)).behind_char rfl hxy hxyz

end Joint

/-! ### Words at a joint -/

section Runs

variable {a b : Char}

/-- Characters that stand side by side and are no separators are in one part. -/
lemma exists_part_adjacent (isSep : Char → Bool) (ha : isSep a = false) (hb : isSep b = false)
    (u v : List Char) : ∃ parts q q' parts', (u ++ a :: b :: v).splitOnP isSep
        = parts ++ (q ++ a :: b :: q') :: parts' ∧
      parts.flatten ++ q = u.filter fun c => !isSep c := by
  induction u with
  | nil =>
      obtain ⟨q', parts', hv⟩ := List.exists_cons_of_ne_nil (List.splitOnP_ne_nil isSep v)
      refine ⟨[], [], q', parts', ?_, rfl⟩
      simp [List.splitOnP_cons_eq_if_modifyHead, ha, hb, hv]
  | cons c u ih =>
      obtain ⟨parts, q, q', parts', hparts, hletters⟩ := ih
      rw [List.cons_append, List.splitOnP_cons_eq_if_modifyHead, hparts, List.filter_cons]
      cases hc : isSep c with
      | true => exact ⟨[] :: parts, q, q', parts', by simp, by simp [hletters]⟩
      | false =>
          cases parts with
          | nil => exact ⟨[], c :: q, q', parts', by simp, by simpa using hletters⟩
          | cons part parts =>
              exact ⟨(c :: part) :: parts, q, q', parts', by simp, by simpa using hletters⟩

/-- A list of texts that is cut in two is cut before or behind each of them. -/
lemma length_flatten_of_append_eq {ws ws' parts parts' : List (List Char)} {w : List Char}
    (h : ws ++ ws' = parts ++ w :: parts') : ws.flatten.length ≤ parts.flatten.length ∨
      parts.flatten.length + w.length ≤ ws.flatten.length := by
  rcases List.append_eq_append_iff.mp h with ⟨rest, rfl, -⟩ | ⟨rest, rfl, hrest⟩
  · exact .inl (by simp)
  · cases rest with
    | nil => exact .inl (by simp)
    | cons w' rest =>
        obtain ⟨rfl, -⟩ := List.cons.inj hrest
        exact .inr (by simp)

end Runs

section Ends

variable {a b : Char}

/-- The letters and digits of a text, in lower case. -/
def letters (cs : List Char) : List Char := (cs.filter isWordChar).map Char.toLower

/-- A word ends between the two parts of a text: the words are those with the letters and digits of
the first part, and those with the letters and digits of the second one. -/
def EndsBetween (before after : List Char) : Prop :=
  ∃ ws ws', ofText (before ++ after) = ws ++ ws' ∧
    ws.flatten = letters before ∧ ws'.flatten = letters after

/-- The words of a text whose changes of case are marked with blanks. -/
def pieces (cs : List Char) : List (List Char) :=
  ((cs.splitOnP fun c => !isWordChar c).filter (· ≠ [])).map (·.map Char.toLower)

lemma ofText_eq (cs : List Char) : ofText cs = pieces (splitCase cs) := by
  rw [ofText, runs, Text.segmentsBy_eq_splitOnP, pieces]

lemma flatten_pieces (cs : List Char) : (pieces cs).flatten = letters cs := by
  rw [pieces, ← List.map_flatten, List.flatten_filter_ne_nil, ← Text.segmentsBy_eq_splitOnP,
    Text.flatten_segmentsBy, letters]
  simp

lemma pieces_append_blank (u v : List Char) : pieces (u ++ ' ' :: v) = pieces u ++ pieces v := by
  rw [pieces, List.splitOnP_append_cons _ _ (by decide), List.filter_append, List.map_append,
    pieces, pieces]

/-- Letters side by side are in one word. -/
lemma exists_pieces_adjacent (ha : isWordChar a = true) (hb : isWordChar b = true)
    (u v : List Char) : ∃ ws q q' ws', pieces (u ++ a :: b :: v) = ws ++ (q ++ a :: b :: q').map
        Char.toLower :: ws' ∧
      ws.flatten.length + q.length = (letters u).length := by
  have ha' : (!isWordChar a) = false := by simp [ha]
  have hb' : (!isWordChar b) = false := by simp [hb]
  obtain ⟨parts, q, q', parts', hparts, hletters⟩ :=
    exists_part_adjacent (fun c => !isWordChar c) ha' hb' u v
  refine ⟨(parts.filter (· ≠ [])).map (·.map Char.toLower), q, q',
    (parts'.filter (· ≠ [])).map (·.map Char.toLower), ?_, ?_⟩
  · rw [pieces, hparts, List.filter_append, List.filter_cons_of_pos (by simp), List.map_append,
      List.map_cons]
  · rw [← List.map_flatten, List.flatten_filter_ne_nil, List.length_map, ← List.length_append,
      hletters, letters, List.length_map]
    simp

/-- **A word ends where a lower case letter is followed by an upper case one**, unless the text up to
the first of them ends in groups. -/
theorem endsBetween_iff (ha : isLower a = true) (hb : isUpper b = true)
    (before after : List Char) :
    EndsBetween (before ++ [a]) (b :: after) ↔ ¬ EndsInGroups (before ++ [a]) := by
  have hjoin : before ++ [a] ++ b :: after = before ++ a :: b :: after := by simp
  have ha' : isWordChar a = true := by simp [isWordChar, ha]
  have hb' : isWordChar b = true := by simp [isWordChar, hb]
  obtain ⟨u, gap, v, huv, hu, hgap⟩ := isJoint_of_rises ha hb before after
  rw [EndsBetween, hjoin, ofText_eq, huv]
  have hfront : letters (u ++ [a]) = letters (before ++ [a]) := by
    rw [letters, letters, List.filter_append, List.filter_append, hu]
  rcases hgap with ⟨rfl, hgroups⟩ | ⟨rfl, hgroups⟩
  · have hback : letters (b :: v) = letters (b :: after) := by
      have hall := filter_splitCase (before ++ a :: b :: after)
      rw [huv, List.filter_append, List.filter_append, hu] at hall
      have hrest : v.filter isWordChar = after.filter isWordChar := by
        simpa [ha', hb', isWordChar_blank] using hall
      simp [letters, hb', hrest]
    refine iff_of_true ⟨pieces (u ++ [a]), pieces (b :: v), ?_, ?_, ?_⟩ hgroups
    · rw [← pieces_append_blank]
      simp
    · rw [flatten_pieces, hfront]
    · rw [flatten_pieces, hback]
  · refine iff_of_false ?_ (not_not.mpr hgroups)
    rintro ⟨ws, ws', hws, hletters, -⟩
    obtain ⟨parts, q, q', parts', hparts, hlength⟩ := exists_pieces_adjacent ha' hb' u v
    rw [List.nil_append, hparts] at hws
    have hcount : ws.flatten.length = (letters u).length + 1 := by
      rw [hletters, ← hfront]
      simp [letters, ha']
    rcases length_flatten_of_append_eq hws.symm with hle | hle
    · omega
    · simp only [List.length_map, List.length_append, List.length_cons] at hle
      omega

end Ends

end Words

open Words

/-- **Which rises of case end a word.** In a key of a path, where a lower case letter is followed by an
upper case one, a word ends between the two exactly if the key up to the first of them does not end in
groups of two upper case letters and a lower case one, before which there is no lower case letter or
digit. The last letter of such a group is passed over together with the group. -/
theorem wordsOf_ends_iff (keys keys' : Path) (before after : List Char) {a b : Char}
    (ha : isLower a = true) (hb : isUpper b = true) :
    (∃ ws ws', wordsOf (keys ++ String.ofList (before ++ a :: b :: after) :: keys')
        = wordsOf keys ++ (ws ++ ws') ++ wordsOf keys' ∧
      ws.flatten = letters (before ++ [a]) ∧ ws'.flatten = letters (b :: after)) ↔
      ¬ EndsInGroups (before ++ [a]) := by
  rw [← endsBetween_iff ha hb before after, EndsBetween]
  have hwords : wordsOf (keys ++ String.ofList (before ++ a :: b :: after) :: keys')
      = wordsOf keys ++ ofText (before ++ [a] ++ b :: after) ++ wordsOf keys' := by
    simp [wordsOf]
  simp only [hwords, List.append_cancel_left_eq, List.append_cancel_right_eq]

/-- Behind capitals of which the last begins a word of its own, the next rise still ends a word. -/
theorem wordsOf_ends_httpRequest :
    isLower 'p' = true ∧ isUpper 'R' = true ∧
      wordsOf ["api", "XMLHttpRequest"] = ["api", "xml", "http", "request"].map String.toList ∧
      ¬ EndsInGroups "XMLHttp".toList := by
  have ha : isLower 'p' = true := by decide
  have hb : isUpper 'R' = true := by decide
  refine ⟨ha, hb, by decide, ?_⟩
  exact (wordsOf_ends_iff ["api"] [] "XMLHtt".toList "equest".toList ha hb).mp
    ⟨["xml", "http"].map String.toList, ["request"].map String.toList, by decide, by decide,
      by decide⟩

/-- The rise behind a group of capitals ends no word. -/
theorem swallowed_rise_ends_no_word :
    wordsOf ["IDOfItem"] = ["id", "ofitem"].map String.toList ∧
      isLower 'f' = true ∧ isUpper 'I' = true ∧
      ¬ ∃ ws ws', wordsOf ["IDOfItem"] = ws ++ ws' ∧ ws.flatten = letters "IDOf".toList ∧
        ws'.flatten = letters "Item".toList := by
  have hgroups : EndsInGroups "IDOf".toList := by
    refine ⟨['I'], ['D', 'O', 'f'], rfl, .single (by decide), ?_⟩
    rintro c ⟨⟩
    decide
  have hends : ¬ EndsBetween "IDOf".toList "Item".toList := fun h =>
    (endsBetween_iff (by decide) (by decide) "IDO".toList "tem".toList).mp h hgroups
  refine ⟨by decide, by decide, by decide, ?_⟩
  rintro ⟨ws, ws', h⟩
  exact hends ⟨ws, ws', by simpa [wordsOf] using h⟩

end StyleTokens
