import ConflictResolver.Cargo.Patterns

/-!
What the drivers and pieces of the patterns do, stated once so that later proofs never unfold a
matcher. `Avoids` says that no occurrence of a text starts inside a stretch.
-/

namespace ConflictResolver

variable {α : Type}

/-! ### Positions a text cannot start at -/

/-- No occurrence of `needle` starts inside `text`, whatever text follows it. -/
def Avoids (needle text : Text) : Prop :=
  ∀ i < text.length, ¬ needle <+: text.drop i ∧ ¬ text.drop i <+: needle

instance (needle text : Text) : Decidable (Avoids needle text) :=
  inferInstanceAs (Decidable (∀ i < text.length, _))

theorem Avoids.not_prefix_at {needle text : Text} (avoids : Avoids needle text) {i : Nat}
    (inside : i < text.length) (rest : Text) : ¬ needle <+: text.drop i ++ rest := fun pre =>
  (List.prefix_or_prefix_of_prefix pre (List.prefix_append _ _)).elim (avoids i inside).1
    (avoids i inside).2

theorem avoids_nil (needle : Text) : Avoids needle [] := fun _ outside => absurd outside (by simp)

theorem Avoids.append {needle front back : Text} (first : Avoids needle front)
    (second : Avoids needle back) : Avoids needle (front ++ back) := by
  intro i inside
  by_cases inFront : i < front.length
  · rw [List.drop_append_of_le_length inFront.le]
    exact ⟨first.not_prefix_at inFront back,
      fun pre => (first i inFront).2 ((List.prefix_append _ _).trans pre)⟩
  · rw [List.drop_append_eq_append_drop, List.drop_eq_nil_of_le (by omega), List.nil_append]
    exact second _ (by simp at inside; omega)

theorem avoids_of_line {needle line : Text} (plain : '\n' ∉ needle)
    (absent : ¬ needle <:+: line) : Avoids needle (line ++ ['\n']) := by
  intro i inside
  rw [List.drop_append_of_le_length (by simp at inside; omega)]
  refine ⟨fun pre => absent ?_, fun pre => plain (pre.subset (by simp))⟩
  exact (prefix_of_prefix_append_cons plain pre).isInfix.trans (List.drop_suffix i line).isInfix

theorem avoids_of_last {needle text : Text} (absent : ¬ needle <:+: text)
    (last : ∀ c ∈ text.getLast?, c ∉ needle) : Avoids needle text := by
  intro i inside
  refine ⟨fun pre => absent (pre.isInfix.trans (List.drop_suffix i text).isInfix), fun pre => ?_⟩
  have nonempty : text.drop i ≠ [] := by simp; omega
  obtain ⟨c, lastC⟩ := Option.ne_none_iff_exists'.mp (mt List.getLast?_eq_none_iff.mp nonempty)
  have same : text.getLast? = some c := by
    rw [← List.take_append_drop i text, List.getLast?_append, lastC]; rfl
  exact last c same (pre.subset (List.mem_of_getLast?_eq_some lastC))

theorem avoids_of_endsLine {needle text : Text} (plain : '\n' ∉ needle)
    (absent : ¬ needle <:+: text) (ends : EndsLine text) : Avoids needle text :=
  avoids_of_last absent fun c last => by
    rcases ends with rfl | ends
    · cases last
    · exact (Option.some.inj (ends.symm.trans last)) ▸ plain

theorem Avoids.drop_append {needle front back : Text} (avoids : Avoids needle front) {n : Nat}
    (pre : needle <+: (front ++ back).drop n) :
    front.length ≤ n ∧ (front ++ back).drop n = back.drop (n - front.length) := by
  by_cases inFront : n < front.length
  · rw [List.drop_append_of_le_length inFront.le] at pre
    exact absurd pre (avoids.not_prefix_at inFront back)
  · refine ⟨by omega, ?_⟩
    rw [List.drop_append_eq_append_drop, List.drop_eq_nil_of_le (by omega), List.nil_append]

theorem fails_of_avoids {β : Type} {matcher : Text → Option β} {needle front : Text}
    (anchored : ∀ text, ¬ needle <+: text → matcher text = none) (avoids : Avoids needle front)
    (back : Text) : ∀ i < front.length, matcher (front.drop i ++ back) = none :=
  fun _ inside => anchored _ (avoids.not_prefix_at inside back)

theorem fails_of_absent {β : Type} {matcher : Text → Option β} {needle text : Text}
    (anchored : ∀ text, ¬ needle <+: text → matcher text = none) (absent : ¬ needle <:+: text) :
    ∀ i < text.length, matcher (text.drop i ++ []) = none := fun i _ =>
  anchored _ fun pre =>
    absent (pre.isInfix.trans (by simpa using (List.drop_suffix i text).isInfix))

/-! ### Lazy groups and searches -/

section Search

variable (cont : Text → Option α)

theorem lazyGroup_of_success {text : Text} {found : α} (success : cont text = some found) :
    lazyGroup cont text = some ([], found) := by
  cases text <;> simp [lazyGroup, success]

theorem lazyGroup_cons_of_fail {c : Char} {rest : Text} (fail : cont (c :: rest) = none) :
    lazyGroup cont (c :: rest) =
      (lazyGroup cont rest).map fun (group, found) => (c :: group, found) := by
  simp [lazyGroup, fail]

theorem lazyGroup_append_of_fails (front back : Text)
    (fails : ∀ i < front.length, cont (front.drop i ++ back) = none) :
    lazyGroup cont (front ++ back) =
      (lazyGroup cont back).map fun (group, found) => (front ++ group, found) := by
  induction front with
  | nil => simp
  | cons c front ih =>
      have first : cont (c :: (front ++ back)) = none := fails 0 (by simp)
      rw [List.cons_append, lazyGroup_cons_of_fail cont first,
        ih fun i inside => fails (i + 1) (by simp; omega), Option.map_map]
      rfl

theorem lazyGroup_eq_some {text group : Text} {found : α}
    (grouped : lazyGroup cont text = some (group, found)) :
    ∃ rest, text = group ++ rest ∧ cont rest = some found := by
  induction text generalizing group with
  | nil =>
      simp only [lazyGroup, Option.map_eq_some'] at grouped
      obtain ⟨found', success, same⟩ := grouped
      cases same
      exact ⟨[], rfl, success⟩
  | cons c rest ih =>
      cases success : cont (c :: rest) with
      | some found' =>
          rw [lazyGroup_of_success cont success] at grouped
          cases grouped
          exact ⟨c :: rest, rfl, success⟩
      | none =>
          rw [lazyGroup_cons_of_fail cont success, Option.map_eq_some'] at grouped
          obtain ⟨⟨group', found'⟩, inner, same⟩ := grouped
          cases same
          obtain ⟨after, split, success'⟩ := ih inner
          exact ⟨after, by rw [split]; rfl, success'⟩

theorem lazyGroup_fails_before {text group : Text} {found : α}
    (grouped : lazyGroup cont text = some (group, found)) :
    ∀ i < group.length, cont (text.drop i) = none := by
  induction text generalizing group with
  | nil =>
      simp only [lazyGroup, Option.map_eq_some'] at grouped
      obtain ⟨_, _, same⟩ := grouped
      cases same
      simp
  | cons c rest ih =>
      cases success : cont (c :: rest) with
      | some found' =>
          rw [lazyGroup_of_success cont success] at grouped
          cases grouped
          simp
      | none =>
          rw [lazyGroup_cons_of_fail cont success, Option.map_eq_some'] at grouped
          obtain ⟨⟨group', found'⟩, inner, same⟩ := grouped
          cases same
          intro i inside
          cases i with
          | zero => exact success
          | succ i => exact ih inner i (by simpa using inside)

theorem exists_first_success (front back : Text) :
    (∀ i < front.length, cont (front.drop i ++ back) = none) ∨
      ∃ p < front.length, (∀ i < p, cont (front.drop i ++ back) = none) ∧
        cont (front.drop p ++ back) ≠ none := by
  induction front with
  | nil => exact Or.inl fun _ inside => absurd inside (by simp)
  | cons c front ih =>
      by_cases here : cont (c :: front ++ back) = none
      · rcases ih with fails | ⟨p, inside, before, success⟩
        · refine Or.inl fun i inside => ?_
          cases i with
          | zero => exact here
          | succ i => exact fails i (by simpa using inside)
        · refine Or.inr ⟨p + 1, by simpa using inside, fun i earlier => ?_, success⟩
          cases i with
          | zero => exact here
          | succ i => exact before i (by omega)
      · exact Or.inr ⟨0, by simp, fun _ none => absurd none (by omega), here⟩

theorem take_drop_append {front back : Text} {p i : Nat} (inside : i ≤ (front.take p).length) :
    (front.take p).drop i ++ (front.drop p ++ back) = front.drop i ++ back := by
  rw [← List.append_assoc, ← List.drop_append_of_le_length inside, List.take_append_drop]

theorem lazyGroup_append_upto {front back : Text} {p : Nat}
    (fails : ∀ i < p, cont (front.drop i ++ back) = none) :
    lazyGroup cont (front ++ back) =
      (lazyGroup cont (front.drop p ++ back)).map fun (group, found) => (front.take p ++ group, found) := by
  conv_lhs => rw [← List.take_append_drop p front, List.append_assoc]
  refine lazyGroup_append_of_fails cont _ _ fun i inside => ?_
  rw [take_drop_append inside.le]
  exact fails i (by simp at inside; omega)

theorem searchFirst_of_success {text : Text} {found : α} (success : cont text = some found) :
    searchFirst cont text = some found := by
  simp [searchFirst, lazyGroup_of_success cont success]

theorem searchFirst_append_of_fails (front back : Text)
    (fails : ∀ i < front.length, cont (front.drop i ++ back) = none) :
    searchFirst cont (front ++ back) = searchFirst cont back := by
  simp only [searchFirst, lazyGroup_append_of_fails cont front back fails, Option.map_map]
  rfl

theorem searchFirst_eq_none {needle text : Text} (nonempty : needle ≠ [])
    (anchored : ∀ text, ¬ needle <+: text → cont text = none) (absent : ¬ needle <:+: text) :
    searchFirst cont text = none := by
  rw [← List.append_nil text,
    searchFirst_append_of_fails cont text [] (fails_of_absent anchored absent)]
  simp [searchFirst, lazyGroup, anchored [] fun pre => nonempty (List.prefix_nil.mp pre)]

theorem searchFirst_eq_some {text : Text} {found : α}
    (searched : searchFirst cont text = some found) :
    ∃ rest, rest <:+ text ∧ cont rest = some found := by
  obtain ⟨⟨group, found'⟩, grouped, same⟩ := Option.map_eq_some'.mp searched
  cases same
  obtain ⟨rest, split, success⟩ := lazyGroup_eq_some cont grouped
  exact ⟨rest, ⟨group, split.symm⟩, success⟩

end Search

/-! ### `re.sub` and `re.finditer` -/

section Drivers

variable (matcher : Text → Option (α × Text))

theorem subFrom_skip (replace : α → Text) {skip : Nat} {text : Text} (within : skip ≤ text.length) :
    subFrom matcher replace skip text = subFrom matcher replace 0 (text.drop skip) := by
  induction text generalizing skip with
  | nil => cases skip <;> simp_all
  | cons c rest ih =>
      cases skip with
      | zero => rfl
      | succ skip => exact ih (by simp at within; omega)

theorem subFrom_nil (replace : α → Text) (empty : matcher [] = none) :
    subFrom matcher replace 0 [] = [] := by
  simp [subFrom, empty]

theorem subFrom_cons_of_fail (replace : α → Text) {c : Char} {rest : Text}
    (fail : matcher (c :: rest) = none) :
    subFrom matcher replace 0 (c :: rest) = c :: subFrom matcher replace 0 rest := by
  simp [subFrom, fail]

theorem subFrom_of_match (replace : α → Text) {c : Char} {rest after : Text} {found : α}
    (matched : matcher (c :: rest) = some (found, after)) (suffix : after <:+ rest) :
    subFrom matcher replace 0 (c :: rest) = replace found ++ subFrom matcher replace 0 after := by
  have tail : matchTail (c :: rest) after = rest.length - after.length := by
    simp only [matchTail, List.length_cons]; omega
  simp only [subFrom, matched, tail]
  rw [subFrom_skip matcher replace (Nat.sub_le _ _), ← List.suffix_iff_eq_drop.mp suffix]

theorem subFrom_append_of_fails (replace : α → Text) (front back : Text)
    (fails : ∀ i < front.length, matcher (front.drop i ++ back) = none) :
    subFrom matcher replace 0 (front ++ back) = front ++ subFrom matcher replace 0 back := by
  induction front with
  | nil => rfl
  | cons c front ih =>
      have first : matcher (c :: (front ++ back)) = none := fails 0 (by simp)
      rw [List.cons_append, subFrom_cons_of_fail matcher replace first,
        ih fun i inside => fails (i + 1) (by simp; omega)]
      rfl

theorem subFrom_append_upto (replace : α → Text) {front back : Text} {p : Nat}
    (fails : ∀ i < p, matcher (front.drop i ++ back) = none) :
    subFrom matcher replace 0 (front ++ back) =
      front.take p ++ subFrom matcher replace 0 (front.drop p ++ back) := by
  conv_lhs => rw [← List.take_append_drop p front, List.append_assoc]
  refine subFrom_append_of_fails matcher replace _ _ fun i inside => ?_
  rw [take_drop_append inside.le]
  exact fails i (by simp at inside; omega)

theorem subFrom_eq_self (replace : α → Text) {needle text : Text} (nonempty : needle ≠ [])
    (anchored : ∀ text, ¬ needle <+: text → matcher text = none) (absent : ¬ needle <:+: text) :
    subFrom matcher replace 0 text = text := by
  rw [← List.append_nil text, subFrom_append_of_fails matcher replace text []
      (fails_of_absent anchored absent),
    subFrom_nil matcher replace (anchored [] fun pre => nonempty (List.prefix_nil.mp pre))]

theorem subFrom_pieces {β : Type} (replace : α → Text)
    {needle : Text} (nonempty : needle ≠ [])
    (anchored : ∀ text, ¬ needle <+: text → matcher text = none) (gap hit out : β → Text) :
    ∀ {pieces : List β}, (∀ piece ∈ pieces, Avoids needle (gap piece) ∧ hit piece ≠ [] ∧
        ∀ rest, ∃ found, matcher (hit piece ++ rest) = some (found, rest) ∧
          replace found = out piece) →
      ∀ {tail : Text}, ¬ needle <:+: tail →
      subFrom matcher replace 0 (pieces.flatMap (fun piece => gap piece ++ hit piece) ++ tail) =
        pieces.flatMap (fun piece => gap piece ++ out piece) ++ tail
  | [], _, _, absent => subFrom_eq_self matcher replace nonempty anchored absent
  | piece :: pieces, sound, tail, absent => by
      obtain ⟨avoids, filled, hits⟩ := sound piece (List.mem_cons_self _ _)
      obtain ⟨c, hitRest, split⟩ := List.exists_cons_of_ne_nil filled
      obtain ⟨found, matched, replaced⟩ :=
        hits (pieces.flatMap (fun piece => gap piece ++ hit piece) ++ tail)
      rw [split, List.cons_append] at matched
      simp only [List.flatMap_cons, List.append_assoc]
      rw [subFrom_append_of_fails matcher replace _ _ (fails_of_avoids anchored avoids _), split,
        List.cons_append, subFrom_of_match matcher replace matched (List.suffix_append _ _),
        subFrom_pieces replace nonempty anchored gap hit out
          (fun other member => sound other (List.mem_cons_of_mem _ member)) absent, replaced]

theorem subFrom_eq_first_match (replace : α → Text)
    (proper : ∀ text found after, matcher text = some (found, after) → after <:+ text.tail)
    (empty : matcher [] = none) (text : Text) :
    subFrom matcher replace 0 text =
      match lazyGroup matcher text with
      | none => text
      | some (front, found, after) =>
          front ++ replace found ++ subFrom matcher replace 0 after := by
  induction text with
  | nil => simp [subFrom_nil matcher replace empty, lazyGroup, empty]
  | cons c rest ih =>
      cases matched : matcher (c :: rest) with
      | some result =>
          obtain ⟨found, after⟩ := result
          rw [subFrom_of_match matcher replace matched (proper _ _ _ matched),
            lazyGroup_of_success matcher matched]
          rfl
      | none =>
          rw [subFrom_cons_of_fail matcher replace matched, lazyGroup_cons_of_fail matcher matched,
            ih]
          cases lazyGroup matcher rest <;> rfl

theorem infix_subFrom {needle mid : Text} {first last : Char} (replace : α → Text)
    (proper : ∀ text found after, matcher text = some (found, after) → after <:+ text.tail)
    (empty : matcher [] = none)
    (shape : ∀ text found after, matcher text = some (found, after) →
      replace found = first :: mid ++ [last])
    (firstAbsent : first ∉ needle) (lastAbsent : last ∉ needle)
    (text : Text) (inf : needle <:+: subFrom matcher replace 0 text) :
    needle <:+: text ∨ needle <:+: mid := by
  rw [subFrom_eq_first_match matcher _ proper empty] at inf
  cases grouped : lazyGroup matcher text with
  | none => rw [grouped] at inf; exact Or.inl inf
  | some result =>
      obtain ⟨front, found, after⟩ := result
      rw [grouped] at inf
      obtain ⟨rest, split, matched⟩ := lazyGroup_eq_some matcher grouped
      have suffix : after <:+ text :=
        ((proper _ _ _ matched).trans (List.tail_suffix rest)).trans ⟨front, split.symm⟩
      have shorter : after.length < text.length := by
        have := (proper _ _ _ matched).length_le
        cases rest with
        | nil => simp [empty] at matched
        | cons c rest => rw [split]; simp at this ⊢; omega
      simp only at inf
      rw [shape _ _ _ matched] at inf
      simp only [List.append_assoc, List.cons_append] at inf
      rcases infix_append_cons firstAbsent inf with inFront | inTail
      · exact Or.inl (inFront.trans (by rw [split]; exact (List.prefix_append _ _).isInfix))
      · rcases infix_append_cons lastAbsent inTail with inMid | inAfter
        · exact Or.inr inMid
        · exact (infix_subFrom replace proper empty shape firstAbsent lastAbsent after
            inAfter).imp_left fun inside => inside.trans suffix.isInfix
termination_by text.length

theorem findFrom_skip {skip : Nat} {text : Text} (within : skip ≤ text.length) :
    findFrom matcher skip text = findFrom matcher 0 (text.drop skip) := by
  induction text generalizing skip with
  | nil => cases skip <;> simp_all
  | cons c rest ih =>
      cases skip with
      | zero => rfl
      | succ skip => exact ih (by simp at within; omega)

theorem findFrom_nil (empty : matcher [] = none) : findFrom matcher 0 [] = [] := by
  simp [findFrom, empty]

theorem findFrom_cons_of_fail {c : Char} {rest : Text} (fail : matcher (c :: rest) = none) :
    findFrom matcher 0 (c :: rest) = findFrom matcher 0 rest := by
  simp [findFrom, fail]

theorem findFrom_of_match {c : Char} {rest after : Text} {found : α}
    (matched : matcher (c :: rest) = some (found, after)) (suffix : after <:+ rest) :
    findFrom matcher 0 (c :: rest) = found :: findFrom matcher 0 after := by
  have tail : matchTail (c :: rest) after = rest.length - after.length := by
    simp only [matchTail, List.length_cons]; omega
  simp only [findFrom, matched, tail]
  rw [findFrom_skip matcher (Nat.sub_le _ _), ← List.suffix_iff_eq_drop.mp suffix]

theorem findFrom_append_of_fails (front back : Text)
    (fails : ∀ i < front.length, matcher (front.drop i ++ back) = none) :
    findFrom matcher 0 (front ++ back) = findFrom matcher 0 back := by
  induction front with
  | nil => rfl
  | cons c front ih =>
      have first : matcher (c :: (front ++ back)) = none := fails 0 (by simp)
      rw [List.cons_append, findFrom_cons_of_fail matcher first,
        ih fun i inside => fails (i + 1) (by simp; omega)]

/-- `found` is what the pattern gives at some position of the text. -/
def MatchesIn (text : Text) (found : α) : Prop :=
  ∃ start after, start <:+ text ∧ matcher start = some (found, after)

variable {matcher}

theorem MatchesIn.of_suffix {text whole : Text} {found : α}
    (inText : MatchesIn matcher text found) (suffix : text <:+ whole) :
    MatchesIn matcher whole found :=
  let ⟨start, after, inside, matched⟩ := inText
  ⟨start, after, inside.trans suffix, matched⟩

theorem MatchesIn.cons {c : Char} {rest : Text} {found : α}
    (inRest : MatchesIn matcher rest found) : MatchesIn matcher (c :: rest) found :=
  inRest.of_suffix (List.suffix_cons c rest)

theorem MatchesIn.here {text after : Text} {found : α}
    (matched : matcher text = some (found, after)) : MatchesIn matcher text found :=
  ⟨text, after, List.suffix_refl _, matched⟩

theorem mem_or_replaced_cons {replace : α → Text} {x c : Char} {rest : Text}
    (inRest : c ∈ rest ∨ ∃ found, MatchesIn matcher rest found ∧ c ∈ replace found) :
    c ∈ x :: rest ∨ ∃ found, MatchesIn matcher (x :: rest) found ∧ c ∈ replace found :=
  inRest.imp (List.mem_cons_of_mem x) fun ⟨found, inRest, inReplace⟩ =>
    ⟨found, inRest.cons, inReplace⟩

variable (matcher)

theorem matchesIn_of_mem_findFrom {skip : Nat} {text : Text} {x : α}
    (member : x ∈ findFrom matcher skip text) : MatchesIn matcher text x := by
  induction skip, text using findFrom.induct matcher with
  | case1 => simp [findFrom] at member
  | case2 skip c rest ih => exact (ih member).cons
  | case3 =>
      cases matched : matcher [] with
      | none => simp [findFrom, matched] at member
      | some result =>
          obtain ⟨found, after⟩ := result
          simp only [findFrom, matched, Option.map_some', Option.getD_some,
            List.mem_singleton] at member
          exact member ▸ MatchesIn.here matched
  | case4 c rest found after matched ih =>
      simp only [findFrom, matched, List.mem_cons] at member
      rcases member with rfl | later
      · exact MatchesIn.here matched
      · exact (ih later).cons
  | case5 c rest matched ih =>
      simp only [findFrom, matched] at member
      exact (ih member).cons

theorem mem_subFrom (replace : α → Text) {skip : Nat} {text : Text} {c : Char}
    (member : c ∈ subFrom matcher replace skip text) :
    c ∈ text ∨ ∃ found, MatchesIn matcher text found ∧ c ∈ replace found := by
  induction skip, text using subFrom.induct matcher replace with
  | case1 => simp [subFrom] at member
  | case2 skip x rest ih => exact mem_or_replaced_cons (ih member)
  | case3 =>
      cases matched : matcher [] with
      | none => simp [subFrom, matched] at member
      | some result =>
          obtain ⟨found, after⟩ := result
          simp only [subFrom, matched, Option.map_some', Option.getD_some] at member
          exact Or.inr ⟨found, MatchesIn.here matched, member⟩
  | case4 x rest found after matched ih =>
      simp only [subFrom, matched, List.mem_append] at member
      rcases member with inReplace | later
      · exact Or.inr ⟨found, MatchesIn.here matched, inReplace⟩
      · exact mem_or_replaced_cons (ih later)
  | case5 x rest matched ih =>
      simp only [subFrom, matched, List.mem_cons] at member
      rcases member with rfl | later
      · exact Or.inl (List.mem_cons_self _ _)
      · exact mem_or_replaced_cons (ih later)

end Drivers

/-! ### The pieces -/

theorem dropWhile_line {line : Text} (plain : '\n' ∉ line) (after : Text) :
    (line ++ '\n' :: after).dropWhile (· != '\n') = '\n' :: after := by
  rw [List.dropWhile_append_of_pos fun c inLine =>
    bne_iff_ne.mpr fun (same : c = '\n') => plain (same ▸ inLine)]
  simp

theorem lineRest_line {line : Text} (plain : '\n' ∉ line) (after : Text) :
    lineRest (line ++ '\n' :: after) = some after := by
  simp [lineRest, dropWhile_line plain]

theorem lineRest_suffix {text after : Text} (rested : lineRest text = some after) :
    after <:+ text := by
  unfold lineRest at rested
  split at rested
  · cases rested
  · cases rested
    rename_i stopped
    exact (List.suffix_cons _ _).trans (stopped ▸ List.dropWhile_suffix _)

theorem dropLine_line {line : Text} (plain : '\n' ∉ line) (after : Text) :
    dropLine (line ++ '\n' :: after) = after := by
  simp [dropLine, dropWhile_line plain]

theorem startLineRest_line {label : Text} (plain : '\n' ∉ label) (after : Text) :
    startLineRest (bareStartMarker ++ label ++ '\n' :: after) = some after := by
  simp only [startLineRest, List.append_assoc,
    List.isPrefixOf_iff_prefix.mpr (List.prefix_append _ _), if_true]
  exact lineRest_line plain after

theorem startLineRest_eq_none {text : Text} (unmarked : ¬ bareStartMarker <+: text) :
    startLineRest text = none := by
  simp [startLineRest, List.isPrefixOf_iff_prefix, unmarked]

theorem startLineRest_suffix {text after : Text} (rested : startLineRest text = some after) :
    after <:+ text.tail := by
  unfold startLineRest at rested
  split at rested
  · exact (lineRest_suffix rested).trans (by simpa using List.drop_suffix 6 text.tail)
  · cases rested

theorem separatorRest_line (after : Text) :
    separatorRest (separatorMarker ++ '\n' :: after) = some after := by
  simp [separatorRest, separatorMarker]

theorem separatorRest_eq_none {text : Text} (unmarked : ¬ separatorMarker <+: text) :
    separatorRest text = none := by
  simp only [separatorRest, List.isPrefixOf_iff_prefix]
  exact if_neg fun pre => unmarked ((List.prefix_append _ _).trans pre)

theorem separatorRest_suffix {text after : Text} (rested : separatorRest text = some after) :
    after <:+ text.tail := by
  unfold separatorRest at rested
  split at rested
  · cases rested
    simpa using List.drop_suffix 7 text.tail
  · cases rested

theorem endLineRest_line {label : Text} (plain : '\n' ∉ label) (after : Text) :
    endLineRest (bareEndMarker ++ label ++ '\n' :: after) = some after := by
  simp only [endLineRest, List.append_assoc,
    List.isPrefixOf_iff_prefix.mpr (List.prefix_append _ _), if_true]
  exact congrArg some (dropLine_line plain after)

theorem endLineRest_eq_none {text : Text} (unmarked : ¬ bareEndMarker <+: text) :
    endLineRest text = none := by
  simp [endLineRest, List.isPrefixOf_iff_prefix, unmarked]

theorem endLineRest_eq_some {text after : Text} (rested : endLineRest text = some after) :
    bareEndMarker <+: text ∧ after = dropLine (text.drop 7) := by
  unfold endLineRest at rested
  split at rested
  · cases rested
    exact ⟨List.isPrefixOf_iff_prefix.mp ‹_›, rfl⟩
  · cases rested

theorem dropLine_suffix (text : Text) : dropLine text <:+ text :=
  (List.drop_suffix 1 _).trans (List.dropWhile_suffix _)

theorem endLineRest_suffix {text after : Text} (rested : endLineRest text = some after) :
    after <:+ text.tail := by
  obtain ⟨_, rfl⟩ := endLineRest_eq_some rested
  exact (dropLine_suffix _).trans (by simpa using List.drop_suffix 6 text.tail)

theorem membersHead_eq_none {text : Text} (unkeyed : ¬ membersKey <+: text) :
    membersHead text = none := by
  simp [membersHead, List.isPrefixOf_iff_prefix, unkeyed]

theorem membersHead_suffix {text inner : Text} (headed : membersHead text = some inner) :
    inner <:+ text.tail := by
  unfold membersHead at headed
  split at headed
  · split at headed
    · rename_i rest spaced
      split at headed
      · rename_i inner' spaced'
        cases headed
        have first : '=' :: rest <:+ text.drop 7 := spaced ▸ List.dropWhile_suffix _
        have second : '[' :: inner <:+ rest := spaced' ▸ List.dropWhile_suffix _
        exact (List.suffix_cons _ _).trans (second.trans ((List.suffix_cons _ _).trans
          (first.trans (by simpa using List.drop_suffix 6 text.tail))))
      · cases headed
    · cases headed
  · cases headed

theorem closeBracket_suffix {text after : Text} (closed : closeBracket text = some after) :
    after <:+ text.tail := by
  unfold closeBracket at closed
  split at closed
  · cases closed
    exact List.suffix_refl _
  · cases closed

theorem matchMembersArray_suffix {text content after : Text}
    (matched : matchMembersArray text = some (content, after)) : after <:+ text.tail := by
  obtain ⟨inner, headed, grouped⟩ := Option.bind_eq_some.mp matched
  obtain ⟨rest, split, closed⟩ := lazyGroup_eq_some closeBracket grouped
  have inside : rest <:+ inner := ⟨content, split.symm⟩
  exact (closeBracket_suffix closed).trans
    ((List.tail_suffix rest).trans (inside.trans (membersHead_suffix headed)))

theorem optionalMembers_eq_some {cont : Text → Option α} {text : Text} {found : α}
    (matched : optionalMembers cont text = some found) :
    ∃ rest, rest <:+ text ∧ cont rest = some found := by
  unfold optionalMembers at matched
  cases searched : searchFirst matchMembersArray text with
  | none =>
      simp only [searched, Option.none_bind, Option.orElse] at matched
      exact ⟨text, List.suffix_refl _, matched⟩
  | some result =>
      obtain ⟨content, after⟩ := result
      cases inner : searchFirst cont after with
      | none =>
          simp only [searched, Option.some_bind, inner, Option.orElse] at matched
          exact ⟨text, List.suffix_refl _, matched⟩
      | some found' =>
          simp only [searched, Option.some_bind, inner, Option.orElse, Option.some.injEq] at matched
          cases matched
          obtain ⟨rest, suffix, success⟩ := searchFirst_eq_some cont inner
          obtain ⟨start, startSuffix, array⟩ := searchFirst_eq_some matchMembersArray searched
          exact ⟨rest, suffix.trans ((matchMembersArray_suffix array).trans
            ((List.tail_suffix start).trans startSuffix)), success⟩

theorem infix_of_matchGeneric {text ours after : Text}
    (matched : matchGeneric text = some (ours, after)) : ours <:+: text := by
  obtain ⟨body, rested, grouped⟩ := Option.bind_eq_some.mp matched
  obtain ⟨rest, split, _⟩ := lazyGroup_eq_some _ grouped
  exact (split ▸ List.prefix_append ours rest).isInfix.trans
    ((startLineRest_suffix rested).trans (List.tail_suffix text)).isInfix

theorem infix_of_matchConflict {text ours after : Text} {theirs : Option Text}
    (matched : matchConflict text = some ((ours, theirs), after)) :
    ours <:+: text ∧ ∀ side ∈ theirs, side <:+: text := by
  obtain ⟨body, rested, grouped⟩ := Option.bind_eq_some.mp matched
  obtain ⟨⟨ours', theirs', after'⟩, grouped, same⟩ := Option.map_eq_some'.mp grouped
  cases same
  obtain ⟨rest, split, tail⟩ := lazyGroup_eq_some _ grouped
  have inBody : body <:+ text := (startLineRest_suffix rested).trans (List.tail_suffix text)
  refine ⟨(split ▸ List.prefix_append ours rest).isInfix.trans inBody.isInfix, ?_⟩
  rintro side (⟨⟩ : theirs = some side)
  unfold conflictTail at tail
  cases separated : (separatorRest rest).bind (lazyGroup endLineRest) with
  | none => simp [separated] at tail
  | some result =>
      simp only [separated, Option.map_some', Option.orElse, Option.some.injEq,
        Prod.mk.injEq] at tail
      obtain ⟨rfl, -⟩ := tail
      obtain ⟨inner, separator, lazy⟩ := Option.bind_eq_some.mp separated
      obtain ⟨rest', split', _⟩ := lazyGroup_eq_some _ lazy
      have inRest : inner <:+ rest := (separatorRest_suffix separator).trans (List.tail_suffix rest)
      have restSuffix : rest <:+ body := ⟨ours, split.symm⟩
      exact (split' ▸ List.prefix_append _ rest').isInfix.trans
        (inRest.trans (restSuffix.trans inBody)).isInfix

end ConflictResolver
