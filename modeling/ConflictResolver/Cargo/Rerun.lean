import ConflictResolver.Cargo.Calm
import ConflictResolver.Cargo.Written

/-!
The second run of `resolve_cargo_conflict` over the file the first one wrote. The clean-up
`re.sub(r'\n{3,}', '\n\n', ...)` commutes with every pattern that neither starts on a newline nor
reads one it cannot skip, so the second run's members substitution over the cleaned text is the
first run's substitution, cleaned (`subFrom_collapseRuns`). Once the members block stands as the
first array (`Settled`), the substitution gives the text back, and so does the whole rewrite.
-/

namespace ConflictResolver

variable {α : Type}

/-! ### The clean-up, character by character -/

section Collapse

theorem collapseRuns_newline_cons (pending : Nat) (rest : Text) :
    collapseRuns pending ('\n' :: rest) = collapseRuns (pending + 1) rest := by
  simp [collapseRuns]

theorem collapseRuns_cons_of_ne (pending : Nat) {c : Char} (other : c ≠ '\n') (rest : Text) :
    collapseRuns pending (c :: rest) = newlineRun pending ++ c :: collapseRuns 0 rest := by
  simp [collapseRuns, other]

theorem collapseRuns_zero_cons {c : Char} (other : c ≠ '\n') (rest : Text) :
    collapseRuns 0 (c :: rest) = c :: collapseRuns 0 rest := by
  simp [collapseRuns_cons_of_ne 0 other, newlineRun]

theorem collapseRuns_append_of_last {front : Text} (last : ∀ c ∈ front.getLast?, c ≠ '\n')
    (back : Text) :
    collapseRuns 0 (front ++ back) = collapseRuns 0 front ++ collapseRuns 0 back :=
  collapseBlankLines_append_of_last last

theorem collapseRuns_append_plain {front : Text} (plain : '\n' ∉ front) (back : Text) :
    collapseRuns 0 (front ++ back) = front ++ collapseRuns 0 back := by
  induction front with
  | nil => rfl
  | cons c front ih =>
      rw [List.cons_append,
        collapseRuns_zero_cons (fun same => plain (same ▸ List.mem_cons_self _ _)),
        ih fun inFront => plain (List.mem_cons_of_mem c inFront)]
      rfl

theorem collapseRuns_starts_newline (pending : Nat) (rest : Text) :
    ∃ more, collapseRuns pending ('\n' :: rest) = '\n' :: more := by
  rw [collapseRuns_newline_cons]
  exact collapseRuns_succ pending rest

theorem prefix_collapseRuns_iff {needle : Text} (plain : '\n' ∉ needle) {text : Text} :
    needle <+: collapseRuns 0 text ↔ needle <+: text := by
  refine ⟨fun pre => ?_, fun ⟨rest, split⟩ => ⟨collapseRuns 0 rest, by
    rw [← split, collapseRuns_append_plain plain]⟩⟩
  induction needle generalizing text with
  | nil => exact List.nil_prefix
  | cons n needle ih =>
      have other : n ≠ '\n' := fun same => plain (same ▸ List.mem_cons_self _ _)
      cases text with
      | nil => exact absurd pre.length_le (by simp [collapseRuns, newlineRun])
      | cons c rest =>
          by_cases newline : c = '\n'
          · subst newline
            obtain ⟨more, starts⟩ := collapseRuns_starts_newline 0 rest
            rw [starts] at pre
            exact absurd (List.cons_prefix_cons.mp pre).1 other
          · rw [collapseRuns_zero_cons newline] at pre
            obtain ⟨same, later⟩ := List.cons_prefix_cons.mp pre
            exact List.cons_prefix_cons.mpr
              ⟨same, ih (fun inNeedle => plain (List.mem_cons_of_mem n inNeedle)) later⟩

theorem newlineRun_of_not_triple {pending : Nat} {rest : Text}
    (clean : ¬ ['\n', '\n', '\n'] <:+: List.replicate pending '\n' ++ rest) :
    newlineRun pending = List.replicate pending '\n' := by
  refine if_neg fun long => clean ?_
  rw [← Nat.add_sub_cancel' long, List.replicate_add, List.append_assoc]
  exact (List.prefix_append _ _).isInfix

theorem collapseRuns_of_not_triple {pending : Nat} {text : Text}
    (clean : ¬ ['\n', '\n', '\n'] <:+: List.replicate pending '\n' ++ text) :
    collapseRuns pending text = List.replicate pending '\n' ++ text := by
  induction text generalizing pending with
  | nil => rw [collapseRuns, newlineRun_of_not_triple clean, List.append_nil]
  | cons c rest ih =>
      by_cases newline : c = '\n'
      · subst newline
        rw [collapseRuns_newline_cons, ih (by rwa [List.replicate_succ', List.append_assoc]),
          List.replicate_succ', List.append_assoc, List.singleton_append]
      · rw [collapseRuns_cons_of_ne pending newline, newlineRun_of_not_triple clean,
          @ih 0 fun inf =>
            clean (inf.trans ((List.suffix_cons c rest).trans (List.suffix_append _ _)).isInfix)]
        rfl

theorem collapseBlankLines_of_not_triple {text : Text} (clean : ¬ ['\n', '\n', '\n'] <:+: text) :
    collapseRuns 0 text = text :=
  collapseRuns_of_not_triple clean

theorem dropWhile_isSpace_collapseRuns (pending : Nat) (text : Text) :
    (collapseRuns pending text).dropWhile isSpace = collapseRuns 0 (text.dropWhile isSpace) := by
  have run : ∀ count, ∀ c ∈ newlineRun count, isSpace c = true := fun count c member => by
    rw [mem_newlineRun member]
    rfl
  induction text generalizing pending with
  | nil =>
      rw [collapseRuns, List.dropWhile_eq_nil_iff.mpr (run pending)]
      rfl
  | cons c rest ih =>
      by_cases newline : c = '\n'
      · subst newline
        rw [collapseRuns_newline_cons, ih, List.dropWhile_cons_of_pos (by rfl)]
      · rw [collapseRuns_cons_of_ne pending newline, List.dropWhile_append_of_pos (run pending)]
        by_cases spaced : isSpace c = true
        · rw [List.dropWhile_cons_of_pos (by simpa using spaced),
            List.dropWhile_cons_of_pos (by simpa using spaced), ih]
        · rw [List.dropWhile_cons_of_neg (by simpa using spaced),
            List.dropWhile_cons_of_neg (by simpa using spaced), collapseRuns_zero_cons newline]

end Collapse

/-! ### Patterns that commute with the clean-up -/

theorem fails_of_newlines {β : Type} {matcher : Text → Option β}
    (newline : ∀ rest, matcher ('\n' :: rest) = none) {front : Text}
    (newlines : ∀ c ∈ front, c = '\n') (back : Text) :
    ∀ i < front.length, matcher (front.drop i ++ back) = none := fun i inside => by
  rw [List.drop_eq_getElem_cons inside, newlines _ (List.getElem_mem inside)]
  exact newline _

section Commute

variable {β : Type} (matcher : Text → Option β) (g : β → β)
  (newline : ∀ rest, matcher ('\n' :: rest) = none) (empty : matcher [] = none)
  (clean : ∀ text, matcher (collapseRuns 0 text) = (matcher text).map g)
include newline empty clean

/-- The shortest prefix after which a pattern matches, found in the cleaned text: the cleaned
prefix of the text's own. -/
theorem lazyGroup_collapseRuns (pending : Nat) (text : Text) :
    lazyGroup matcher (collapseRuns pending text) =
      (lazyGroup matcher text).map (Prod.map (collapseRuns pending) g) := by
  induction text generalizing pending with
  | nil =>
      rw [collapseRuns, ← List.append_nil (newlineRun pending),
        lazyGroup_append_of_fails matcher _ _
          (fails_of_newlines newline (fun _ => mem_newlineRun) [])]
      simp [lazyGroup, empty]
  | cons c rest ih =>
      by_cases isNewline : c = '\n'
      · subst isNewline
        rw [collapseRuns_newline_cons, ih, lazyGroup_cons_of_fail matcher (newline rest),
          Option.map_map]
        simp only [Function.comp_def, Prod.map, collapseRuns_newline_cons]
        rfl
      · rw [collapseRuns_cons_of_ne pending isNewline, lazyGroup_append_of_fails matcher _ _
          (fails_of_newlines newline (fun _ => mem_newlineRun) _)]
        have cleanCons := clean (c :: rest)
        rw [collapseRuns_zero_cons isNewline] at cleanCons
        cases matched : matcher (c :: rest) with
        | some found =>
            rw [matched, Option.map_some'] at cleanCons
            rw [lazyGroup_of_success matcher cleanCons, lazyGroup_of_success matcher matched]
            simp [Prod.map, collapseRuns]
        | none =>
            rw [matched, Option.map_none'] at cleanCons
            rw [lazyGroup_cons_of_fail matcher cleanCons, lazyGroup_cons_of_fail matcher matched,
              ih 0]
            simp only [Option.map_map, Function.comp_def, Prod.map,
              collapseRuns_cons_of_ne pending isNewline]

theorem searchFirst_collapseRuns (pending : Nat) (text : Text) :
    searchFirst matcher (collapseRuns pending text) = (searchFirst matcher text).map g := by
  simp only [searchFirst, lazyGroup_collapseRuns matcher g newline empty clean, Option.map_map]
  rfl

end Commute

theorem length_lt_of_lazyGroup {matcher : Text → Option (α × Text)}
    (proper : ∀ text found after, matcher text = some (found, after) → after <:+ text.tail)
    (empty : matcher [] = none) {text front after : Text} {found : α}
    (grouped : lazyGroup matcher text = some (front, found, after)) :
    after.length < text.length := by
  obtain ⟨rest, split, matched⟩ := lazyGroup_eq_some matcher grouped
  have := (proper _ _ _ matched).length_le
  cases rest with
  | nil => simp [empty] at matched
  | cons c rest => rw [split]; simp at this ⊢; omega

theorem collapseRuns_append_block (pending : Nat) {block : Text}
    (filled : block ≠ []) (first : ∀ c ∈ block.head?, c ≠ '\n')
    (last : ∀ c ∈ block.getLast?, c ≠ '\n') (fixed : collapseRuns 0 block = block)
    (front back : Text) :
    collapseRuns pending (front ++ (block ++ back)) =
      collapseRuns pending front ++ (block ++ collapseRuns 0 back) := by
  have spliced : collapseRuns pending (front ++ (block ++ back)) =
      collapseRuns pending front ++ collapseRuns 0 (block ++ back) := by
    cases block with
    | nil => exact absurd rfl filled
    | cons c rest =>
        have other : c ≠ '\n' := first c rfl
        rw [List.cons_append, collapseRuns_append_cons pending front other,
          collapseRuns_zero_cons other]
  rw [spliced, collapseRuns_append_of_last last, fixed]

section Substitution

variable {matcher : Text → Option (α × Text)} {f : α → α}
  (newline : ∀ rest, matcher ('\n' :: rest) = none) (empty : matcher [] = none)
  (clean : ∀ text, matcher (collapseRuns 0 text) = (matcher text).map (Prod.map f (collapseRuns 0)))
  (proper : ∀ text found after, matcher text = some (found, after) → after <:+ text.tail)
  {block : Text} (first : ∀ c ∈ block.head?, c ≠ '\n') (last : ∀ c ∈ block.getLast?, c ≠ '\n')
  (filled : block ≠ []) (fixed : collapseRuns 0 block = block)
include newline empty clean proper first last filled fixed

/-- A substitution with a fixed text that starts and ends on a character other than a newline,
by a pattern that commutes with the clean-up, commutes with the clean-up. -/
theorem subFrom_collapseRuns (pending : Nat) (text : Text) :
    subFrom matcher (fun _ => block) 0 (collapseRuns pending text) =
      collapseRuns pending (subFrom matcher (fun _ => block) 0 text) := by
  rw [subFrom_eq_first_match matcher _ proper empty,
    lazyGroup_collapseRuns matcher _ newline empty clean,
    subFrom_eq_first_match matcher _ proper empty text]
  cases grouped : lazyGroup matcher text with
  | none => rfl
  | some result =>
      obtain ⟨front, found, after⟩ := result
      have shorter := length_lt_of_lazyGroup proper empty grouped
      simp only [Option.map_some', Prod.map]
      rw [subFrom_collapseRuns 0 after]
      simp only [List.append_assoc, collapseRuns_append_block pending filled first last fixed]
termination_by text.length

end Substitution

/-! ### The members patterns and the clean-up -/

/-- `\s*` followed by the character `c`: the text after `c`. -/
def spacedChar (c : Char) (text : Text) : Option Text :=
  match text.dropWhile isSpace with
  | d :: rest => if d = c then some rest else none
  | [] => none

theorem spacedChar_cons (c d : Char) (rest : Text) :
    (match d :: rest with
      | d :: rest => if d = c then some rest else none
      | [] => none) = if d = c then some rest else none := rfl

theorem membersHead_eq_spacedChar (text : Text) :
    membersHead text =
      if membersKey.isPrefixOf text then (spacedChar '=' (text.drop 7)).bind (spacedChar '[')
      else none := by
  unfold membersHead spacedChar
  split
  · split
    · next rest spaced =>
        simp only [spaced, spacedChar_cons, if_pos, Option.some_bind]
        split
        · next inner spaced' => simp only [spaced', spacedChar_cons, if_pos]
        · next notBracket =>
            cases spaced' : rest.dropWhile isSpace with
            | nil => rfl
            | cons e inner =>
                by_cases bracket : e = '['
                · exact absurd (bracket ▸ spaced') (notBracket inner)
                · simp [bracket]
    · next notEquals =>
        cases spaced : (text.drop 7).dropWhile isSpace with
        | nil => rfl
        | cons d rest =>
            by_cases equals : d = '='
            · exact absurd (equals ▸ spaced) (notEquals rest)
            · simp [equals]
  · rfl

theorem spacedChar_suffix {c : Char} {text rest : Text} (spaced : spacedChar c text = some rest) :
    c :: rest <:+ text := by
  unfold spacedChar at spaced
  split at spaced
  · rename_i d after dropped
    split at spaced
    · cases spaced
      subst ‹d = c›
      exact dropped ▸ List.dropWhile_suffix _
    · cases spaced
  · cases spaced

theorem spacedChar_collapseRuns (c : Char) (text : Text) :
    spacedChar c (collapseRuns 0 text) = (spacedChar c text).map (collapseRuns 0) := by
  unfold spacedChar
  rw [dropWhile_isSpace_collapseRuns]
  have head := List.head?_dropWhile_not isSpace text
  cases spaced : text.dropWhile isSpace with
  | nil => rfl
  | cons d rest =>
      have notSpace : isSpace d = false := by simpa [spaced] using head
      have newline : d ≠ '\n' := by
        rintro rfl
        exact absurd notSpace (by decide)
      rw [collapseRuns_zero_cons newline]
      by_cases same : d = c <;> simp [same]

/-- `\s*` and a character, over a text whose next character after `front` is not a space: the
match ends inside `front` and that character, whatever follows. -/
theorem spacedChar_append_cons (c : Char) {e : Char} (notSpace : isSpace e = false)
    (front rest : Text) :
    spacedChar c (front ++ e :: rest) = (spacedChar c (front ++ [e])).map (· ++ rest) := by
  unfold spacedChar
  cases spaced : front.dropWhile isSpace with
  | nil =>
      simp only [List.dropWhile_append, spaced, List.isEmpty_nil, if_true,
        List.dropWhile_cons_of_neg (by simpa using notSpace)]
      by_cases same : e = c <;> simp [same]
  | cons d after =>
      simp only [List.dropWhile_append, spaced, List.isEmpty_cons, Bool.false_eq_true, if_false,
        List.cons_append]
      by_cases same : d = c <;> simp [same]

theorem membersHead_collapseRuns (text : Text) :
    membersHead (collapseRuns 0 text) = (membersHead text).map (collapseRuns 0) := by
  by_cases keyed : membersKey <+: text
  · obtain ⟨rest, rfl⟩ := keyed
    have dropKey : ∀ x : Text, (membersKey ++ x).drop 7 = x := fun _ => List.drop_left' rfl
    have prefixed : ∀ x : Text, membersKey.isPrefixOf (membersKey ++ x) = true :=
      fun _ => List.isPrefixOf_iff_prefix.mpr (List.prefix_append _ _)
    rw [collapseRuns_append_plain (by decide), membersHead_eq_spacedChar,
      membersHead_eq_spacedChar, if_pos (prefixed _), if_pos (prefixed _), dropKey, dropKey,
      spacedChar_collapseRuns]
    cases spacedChar '=' rest with
    | none => rfl
    | some after => exact spacedChar_collapseRuns '[' after
  · rw [membersHead_eq_none keyed,
      membersHead_eq_none (mt (prefix_collapseRuns_iff (by decide)).mp keyed)]
    rfl

theorem closeBracket_collapseRuns (text : Text) :
    closeBracket (collapseRuns 0 text) = (closeBracket text).map (collapseRuns 0) := by
  cases text with
  | nil => rfl
  | cons c rest =>
      by_cases newline : c = '\n'
      · subst newline
        obtain ⟨more, starts⟩ := collapseRuns_starts_newline 0 rest
        rw [starts]
        rfl
      · rw [collapseRuns_zero_cons newline]
        by_cases bracket : c = ']'
        · subst bracket
          rfl
        · simp [closeBracket, bracket]

theorem membersHead_cons_of_ne {d : Char} (other : d ≠ 'm') (rest : Text) :
    membersHead (d :: rest) = none :=
  membersHead_eq_none fun pre =>
    other (List.cons_prefix_cons.mp (show 'm' :: "embers".toList <+: d :: rest from pre)).1.symm

theorem matchMembersArray_cons_of_ne {d : Char} (other : d ≠ 'm') (rest : Text) :
    matchMembersArray (d :: rest) = none := by
  simp [matchMembersArray, membersHead_cons_of_ne other]

/-- `members\s*=\s*\[(.*?)\]` over the cleaned text: the cleaned groups of the text's own
match. -/
theorem matchMembersArray_collapseRuns (text : Text) :
    matchMembersArray (collapseRuns 0 text) =
      (matchMembersArray text).map (Prod.map (collapseRuns 0) (collapseRuns 0)) := by
  rw [matchMembersArray, matchMembersArray, membersHead_collapseRuns]
  cases membersHead text with
  | none => rfl
  | some inner =>
      exact lazyGroup_collapseRuns closeBracket (collapseRuns 0) (fun _ => rfl) rfl
        closeBracket_collapseRuns 0 inner

theorem searchFirst_matchMembersArray_collapseRuns (text : Text) :
    searchFirst matchMembersArray (collapseRuns 0 text) =
      (searchFirst matchMembersArray text).map (Prod.map (collapseRuns 0) (collapseRuns 0)) :=
  searchFirst_collapseRuns matchMembersArray _ (matchMembersArray_cons_of_ne (by decide))
    rfl matchMembersArray_collapseRuns 0 text

/-- Only the text after a match matters to a substitution with a fixed text. -/
theorem subFrom_const_congr {β : Type} {matcher : Text → Option (α × Text)}
    {other : Text → Option (β × Text)}
    (same : ∀ text, (matcher text).map Prod.snd = (other text).map Prod.snd) (block : Text) :
    ∀ (skip : Nat) (text : Text),
      subFrom matcher (fun _ => block) skip text = subFrom other (fun _ => block) skip text
  | _ + 1, [] => rfl
  | skip + 1, _ :: rest => subFrom_const_congr same block skip rest
  | 0, [] => by
      have agree := same []
      simp only [subFrom]
      rcases matched : matcher [] with _ | ⟨x, after⟩ <;>
        rcases matched' : other [] with _ | ⟨y, after'⟩ <;>
        simp_all
  | 0, c :: rest => by
      have agree := same (c :: rest)
      simp only [subFrom]
      rcases matched : matcher (c :: rest) with _ | ⟨x, after⟩ <;>
        rcases matched' : other (c :: rest) with _ | ⟨y, after'⟩ <;>
        simp only [matched, matched', Option.map_none', Option.map_some',
          reduceCtorEq, Option.some.injEq] at agree ⊢
      · rw [subFrom_const_congr same block 0 rest]
      · rw [agree, subFrom_const_congr same block]

theorem subFrom_matchMembersSpan (block : Text) (text : Text) :
    subFrom matchMembersSpan (fun _ => block) 0 text =
      subFrom matchMembersArray (fun _ => block) 0 text :=
  subFrom_const_congr (fun text => by
    unfold matchMembersSpan
    cases matchMembersArray text <;> rfl) block 0 text

/-! ### Where a key can start before a fixed text -/

@[simp] theorem length_membersKey : membersKey.length = 7 := rfl

theorem prefix_append_iff_of_le {needle front : Text} (long : needle.length ≤ front.length)
    (back : Text) : needle <+: front ++ back ↔ needle <+: front :=
  ⟨fun pre => List.prefix_of_prefix_length_le pre (List.prefix_append front back) long,
    fun pre => pre.trans (List.prefix_append _ _)⟩

theorem eq_of_suffix_concat {a b : Char} {front back : Text}
    (suffix : front ++ [a] <:+ back ++ [b]) : a = b := by
  have pre := List.reverse_prefix.mpr suffix
  simp only [List.reverse_append, List.reverse_singleton, List.singleton_append] at pre
  exact (List.cons_prefix_cons.mp pre).1

/-- `members\s*=\s*\[` over a text whose character after `front` is neither a space nor `=`,
where no key starts inside `front` and runs past it: the match ends inside `front` and that
character, whatever follows. -/
theorem membersHead_append_cons {front rest : Text} {c : Char} (notSpace : isSpace c = false)
    (notEquals : c ≠ '=') (unkeyed : front.length < 7 → ¬ membersKey <+: front ++ c :: rest) :
    membersHead (front ++ c :: rest) = (membersHead (front ++ [c])).map (· ++ rest) := by
  by_cases long : 7 ≤ front.length
  · have keyed : ∀ back : Text,
        membersKey.isPrefixOf (front ++ back) = membersKey.isPrefixOf front := fun back =>
      Bool.eq_iff_iff.mpr (by
        simp only [List.isPrefixOf_iff_prefix]
        exact prefix_append_iff_of_le (show membersKey.length ≤ front.length from long) back)
    rw [membersHead_eq_spacedChar, membersHead_eq_spacedChar, keyed, keyed]
    split
    · rw [List.drop_append_of_le_length long, List.drop_append_of_le_length long,
        spacedChar_append_cons '=' notSpace]
      cases spaced : spacedChar '=' (front.drop 7 ++ [c]) with
      | none => rfl
      | some after =>
          have suffix := spacedChar_suffix spaced
          rcases List.eq_nil_or_concat after with rfl | ⟨init, d, rfl⟩
          · exact absurd (eq_of_suffix_concat (show [] ++ ['='] <:+ _ from suffix)).symm notEquals
          · rw [List.concat_eq_append] at suffix
            have same := eq_of_suffix_concat (show ('=' :: init) ++ [d] <:+ _ from suffix)
            subst same
            simp only [Option.map_some', Option.some_bind, List.concat_eq_append,
              List.append_assoc, List.singleton_append]
            exact spacedChar_append_cons '[' notSpace init rest
    · rfl
  · have short : front.length < 7 := by omega
    rw [membersHead_eq_none (unkeyed short), membersHead_eq_none fun pre => unkeyed short ?_]
    · rfl
    · have whole : membersKey = front ++ [c] := pre.eq_of_length (by
        have := pre.length_le
        simp only [List.length_append, List.length_singleton, length_membersKey] at this ⊢
        omega)
      rw [whole]
      exact ⟨rest, by simp⟩

theorem membersHead_before_bracket (front rest : Text) :
    membersHead (front ++ '[' :: rest) = (membersHead (front ++ ['['])).map (· ++ rest) :=
  membersHead_append_cons (by decide) (by decide) fun short pre =>
    absurd (prefix_of_prefix_append_cons (by decide) pre).length_le (by simp; omega)

/-- `members` has no border: a key that starts inside a non-empty `front` cannot run into a key
that follows it. -/
theorem membersHead_before_key {front : Text} (nonempty : front ≠ []) (rest : Text) :
    membersHead (front ++ (membersKey ++ rest)) =
      (membersHead (front ++ ['m'])).map (· ++ ("embers".toList ++ rest)) :=
  membersHead_append_cons (by decide) (by decide) fun short pre => by
    have borderless : ∀ l < 7, 0 < l → ¬ membersKey.drop l <+: membersKey := by decide
    obtain ⟨tail, split⟩ : front <+: membersKey :=
      List.prefix_of_prefix_length_le (List.prefix_append _ _) pre (by simp; omega)
    have inKey : tail <+: membersKey := by
      have whole : front ++ tail <+: front ++ (membersKey ++ rest) := split.symm ▸ pre
      refine List.prefix_of_prefix_length_le ((List.prefix_append_right_inj front).mp whole)
        (List.prefix_append _ _) ?_
      have := congrArg List.length split
      simp only [List.length_append] at this
      omega
    have dropped : membersKey.drop front.length = tail := by rw [← split, List.drop_left]
    exact borderless front.length short (List.length_pos.mpr nonempty) (dropped ▸ inKey)

theorem lazyGroup_closeBracket_of_mem {text : Text} (member : ']' ∈ text) :
    lazyGroup closeBracket text ≠ none := by
  induction text with
  | nil => cases member
  | cons c rest ih =>
      by_cases bracket : c = ']'
      · subst bracket
        rw [lazyGroup_of_success closeBracket
          (show closeBracket (']' :: rest) = some rest from rfl)]
        simp
      · rw [lazyGroup_cons_of_fail closeBracket (by simp [closeBracket, bracket])]
        simpa using ih ((List.mem_cons.mp member).resolve_left (Ne.symm bracket))

theorem keyed_of_matchMembersArray {text : Text} (arrayed : matchMembersArray text ≠ none) :
    ∃ tail, text = membersKey ++ tail ∧ ']' ∈ tail := by
  obtain ⟨⟨content, after⟩, matched⟩ := Option.ne_none_iff_exists'.mp arrayed
  obtain ⟨inner, headed, grouped⟩ := Option.bind_eq_some.mp matched
  obtain ⟨tail, split⟩ : membersKey <+: text := by
    by_contra unkeyed
    rw [membersHead_eq_none unkeyed] at headed
    cases headed
  obtain ⟨rest, innerSplit, closed⟩ := lazyGroup_eq_some closeBracket grouped
  have inInner : ']' ∈ inner := by
    unfold closeBracket at closed
    split at closed
    · rw [innerSplit]
      simp
    · cases closed
  have inText := (membersHead_suffix headed).subset inInner
  rw [← split] at inText
  refine ⟨tail, split.symm, ?_⟩
  simpa [membersKey] using List.mem_of_mem_tail inText

/-- A position before a text's first array stays one when another text starting with the key
takes the array's place. -/
theorem matchMembersArray_before_key {front rest : Text} (nonempty : front ≠ [])
    (fails : matchMembersArray (front ++ rest) = none) (arrayed : matchMembersArray rest ≠ none)
    (back : Text) : matchMembersArray (front ++ (membersKey ++ back)) = none := by
  obtain ⟨tail, rfl, bracket⟩ := keyed_of_matchMembersArray arrayed
  rw [matchMembersArray, membersHead_before_key nonempty] at fails ⊢
  cases headed : membersHead (front ++ ['m']) with
  | none => rfl
  | some inner =>
      rw [headed] at fails
      simp only [Option.map_some', Option.some_bind] at fails
      exact absurd fails (lazyGroup_closeBracket_of_mem (by simp [bracket]))

theorem matchMembersArray_before_first {text front after content : Text}
    (grouped : lazyGroup matchMembersArray text = some (front, content, after)) (back : Text) :
    ∀ i < front.length, matchMembersArray (front.drop i ++ (membersKey ++ back)) = none :=
  fun i inside => by
    obtain ⟨rest, split, matched⟩ := lazyGroup_eq_some matchMembersArray grouped
    have fails := lazyGroup_fails_before matchMembersArray grouped i inside
    rw [split, List.drop_append_of_le_length inside.le] at fails
    exact matchMembersArray_before_key (by rw [Ne, List.drop_eq_nil_iff]; omega) fails
      (by rw [matched]; simp) back

theorem searchFirst_eq_none_iff {β : Type} {cont : Text → Option β} :
    ∀ {text : Text}, searchFirst cont text = none ↔ ∀ i, cont (text.drop i) = none
  | [] => by simp [searchFirst, lazyGroup]
  | c :: rest => by
      cases here : cont (c :: rest) with
      | some found =>
          rw [searchFirst_of_success cont here]
          exact ⟨Option.noConfusion, fun fails => by simpa [here] using fails 0⟩
      | none =>
          rw [show searchFirst cont (c :: rest) = searchFirst cont rest by
            simp [searchFirst, lazyGroup_cons_of_fail cont here, Option.map_map]; rfl,
            searchFirst_eq_none_iff]
          exact ⟨fun fails i => i.casesOn here fun i => fails i, fun fails i => fails (i + 1)⟩

theorem searchFirst_drop_eq_none {β : Type} {cont : Text → Option β} {text : Text}
    (searched : searchFirst cont text = none) (k : Nat) : searchFirst cont (text.drop k) = none :=
  searchFirst_eq_none_iff.mpr fun i => by
    rw [List.drop_drop]
    exact searchFirst_eq_none_iff.mp searched _

theorem fails_append {β : Type} {matcher : Text → Option β} {front middle back : Text}
    (first : ∀ i < front.length, matcher (front.drop i ++ (middle ++ back)) = none)
    (second : ∀ i < middle.length, matcher (middle.drop i ++ back) = none) :
    ∀ i < (front ++ middle).length, matcher ((front ++ middle).drop i ++ back) = none := by
  intro i inside
  by_cases inFront : i < front.length
  · rw [List.drop_append_of_le_length inFront.le, List.append_assoc]
    exact first i inFront
  · rw [List.drop_append_eq_append_drop, List.drop_eq_nil_of_le (by omega), List.nil_append]
    exact second _ (by simp at inside; omega)

/-- `members\s*=\s*\[` starts nowhere before the text the header substitution puts after a header
of a text without a key: a match there would read at most the header's `[`. -/
theorem matchMembersArray_before_header {text front after : Text}
    (headless : searchFirst membersHead text = none)
    (split : text = front ++ (workspaceHeader ++ after)) (back : Text) :
    ∀ i < (front ++ '[' :: "workspace]\n".toList).length,
      matchMembersArray ((front ++ '[' :: "workspace]\n".toList).drop i ++ back) = none := by
  rw [show front ++ '[' :: "workspace]\n".toList = (front ++ ['[']) ++ "workspace]\n".toList by
    simp]
  refine fails_append (fun i inside => ?_)
    (fails_of_not_mem (c := 'm') (fun _ rest other => matchMembersArray_cons_of_ne other rest)
      (by decide) back)
  have atFront : i ≤ front.length := by simp at inside; omega
  have unheaded := searchFirst_eq_none_iff.mp headless i
  rw [split, List.drop_append_of_le_length atFront,
    show workspaceHeader ++ after = '[' :: ("workspace]".toList ++ after) from rfl,
    membersHead_before_bracket] at unheaded
  rw [List.drop_append_of_le_length atFront, List.append_assoc, List.singleton_append,
    matchMembersArray, membersHead_before_bracket]
  cases headed : membersHead (front.drop i ++ ['[']) with
  | none => rfl
  | some inner => rw [headed] at unheaded; cases unheaded

/-! ### What the last substitution settles -/

section Settle

variable {β : Type} {matcher : Text → Option (β × Text)} (replace : β → Text)
  (proper : ∀ text found after, matcher text = some (found, after) → after <:+ text.tail)
  (empty : matcher [] = none)
include proper empty

theorem subFrom_of_lazyGroup_none {text : Text} (grouped : lazyGroup matcher text = none) :
    subFrom matcher replace 0 text = text := by
  rw [subFrom_eq_first_match matcher replace proper empty, grouped]

theorem subFrom_of_lazyGroup_some {text front after : Text} {found : β}
    (grouped : lazyGroup matcher text = some (front, found, after)) :
    subFrom matcher replace 0 text =
      front ++ (replace found ++ subFrom matcher replace 0 after) := by
  rw [subFrom_eq_first_match matcher replace proper empty, grouped]
  exact List.append_assoc _ _ _

end Settle

theorem matchMembersArray_proper : ∀ text found after,
    matchMembersArray text = some (found, after) → after <:+ text.tail :=
  fun _ _ _ => matchMembersArray_suffix

theorem matchWorkspace_proper : ∀ text found after,
    matchWorkspace text = some (found, after) → after <:+ text.tail :=
  fun _ _ _ matched => (matchWorkspace_eq_some matched).2

theorem matchWorkspace_split {text found after : Text}
    (matched : matchWorkspace text = some (found, after)) :
    found = workspaceHeader ∧ text = workspaceHeader ++ after := by
  unfold matchWorkspace at matched
  split at matched
  · cases matched
    exact ⟨rfl, (List.prefix_iff_eq_append.mp (List.isPrefixOf_iff_prefix.mp ‹_›)).symm⟩
  · cases matched

theorem lazyGroup_matchMembersArray_of_headless {text : Text}
    (headless : searchFirst membersHead text = none) : lazyGroup matchMembersArray text = none := by
  have arrayless : searchFirst matchMembersArray text = none :=
    searchFirst_eq_none_iff.mpr fun i => by
      simp [matchMembersArray, searchFirst_eq_none_iff.mp headless i]
  simpa [searchFirst] using arrayless

theorem MembersArray.text_eq_key (a : MembersArray) : ∃ tail, a.text = membersKey ++ tail :=
  ⟨a.keySpace ++ '=' :: a.valueSpace ++ '[' :: (a.lead ++ a.body) ++ [']'], by
    simp only [MembersArray.text, List.append_assoc]⟩

theorem MembersArray.Sound.subFrom_text {a : MembersArray} (sound : a.Sound)
    (replace : Text → Text) (rest : Text) :
    subFrom ConflictResolver.matchMembersArray replace 0 (a.text ++ rest) =
      replace (a.lead ++ a.body) ++ subFrom ConflictResolver.matchMembersArray replace 0 rest := by
  have matched := sound.matchMembersArray rest
  rw [MembersArray.text_cons] at matched ⊢
  exact subFrom_of_match _ replace matched (List.suffix_append _ _)

/-- What the last substitution leaves for a second run: a text in which
`members\s*=\s*\[.*?\]` matches nowhere, or one whose first match is `block`, which the
substitution of `block` gives back. -/
def Settled (block text : Text) : Prop :=
  searchFirst matchMembersArray text = none ∨
    (∃ front rest, text = front ++ (block ++ rest) ∧
      ∀ i < front.length, matchMembersArray (front.drop i ++ (block ++ rest)) = none) ∧
    subFrom matchMembersArray (fun _ => block) 0 text = text

theorem inserted_eq (block front rest : Text) :
    front ++ (workspaceHeader ++ '\n' :: block ++ rest) =
      (front ++ '[' :: "workspace]\n".toList) ++ (block ++ rest) := by
  simp [workspaceHeader]

section Block

variable {a : MembersArray} (sound : a.Sound)
include sound

/-- The substitution of an array's text for every array is a fixed point: the text it puts in
is the first array after the text before it, and the rest is settled the same way. -/
theorem subFrom_array_idempotent (text : Text) :
    subFrom matchMembersArray (fun _ => a.text) 0
        (subFrom matchMembersArray (fun _ => a.text) 0 text) =
      subFrom matchMembersArray (fun _ => a.text) 0 text := by
  cases grouped : lazyGroup matchMembersArray text with
  | none =>
      have same := subFrom_of_lazyGroup_none (fun _ => a.text) matchMembersArray_proper rfl grouped
      rw [same, same]
  | some result =>
      obtain ⟨front, content, after⟩ := result
      have shorter := length_lt_of_lazyGroup matchMembersArray_proper rfl grouped
      obtain ⟨tail, key⟩ := a.text_eq_key
      rw [subFrom_of_lazyGroup_some _ matchMembersArray_proper rfl grouped,
        subFrom_append_of_fails _ _ front _ fun i inside => by
          rw [key, List.append_assoc]
          exact matchMembersArray_before_first grouped _ i inside,
        sound.subFrom_text, subFrom_array_idempotent after]
termination_by text.length

theorem settled_subFrom (text : Text) :
    Settled a.text (subFrom matchMembersArray (fun _ => a.text) 0 text) := by
  cases grouped : lazyGroup matchMembersArray text with
  | none =>
      left
      rw [subFrom_of_lazyGroup_none _ matchMembersArray_proper rfl grouped]
      simp [searchFirst, grouped]
  | some result =>
      obtain ⟨front, content, after⟩ := result
      obtain ⟨tail, key⟩ := a.text_eq_key
      refine Or.inr ⟨⟨front, _, subFrom_of_lazyGroup_some _ matchMembersArray_proper rfl grouped,
        fun i inside => ?_⟩,
        subFrom_array_idempotent sound text⟩
      rw [key, List.append_assoc]
      exact matchMembersArray_before_first grouped _ i inside

/-- Over a text without a key, the substitution of an array's text after every header is a
fixed point of the substitution of that text for every array. -/
theorem subFrom_headers_idempotent (text : Text) (headless : searchFirst membersHead text = none) :
    subFrom matchMembersArray (fun _ => a.text) 0
        (subFrom matchWorkspace (fun header => header ++ '\n' :: a.text) 0 text) =
      subFrom matchWorkspace (fun header => header ++ '\n' :: a.text) 0 text := by
  cases grouped : lazyGroup matchWorkspace text with
  | none =>
      rw [subFrom_of_lazyGroup_none _ matchWorkspace_proper rfl grouped,
        subFrom_of_lazyGroup_none _ matchMembersArray_proper rfl
          (lazyGroup_matchMembersArray_of_headless headless)]
  | some result =>
      obtain ⟨front, header, after⟩ := result
      obtain ⟨rest, split, matched⟩ := lazyGroup_eq_some matchWorkspace grouped
      obtain ⟨rfl, rfl⟩ := matchWorkspace_split matched
      have shorter := length_lt_of_lazyGroup matchWorkspace_proper rfl grouped
      have headlessAfter : searchFirst membersHead after = none := by
        simpa [split] using searchFirst_drop_eq_none headless (front.length + 11)
      rw [subFrom_of_lazyGroup_some _ matchWorkspace_proper rfl grouped, inserted_eq,
        subFrom_append_of_fails _ _ _ _ (matchMembersArray_before_header headless split _),
        sound.subFrom_text, subFrom_headers_idempotent after headlessAfter]
termination_by text.length

theorem settled_headers {text : Text} (headless : searchFirst membersHead text = none) :
    Settled a.text (subFrom matchWorkspace (fun header => header ++ '\n' :: a.text) 0 text) := by
  cases grouped : lazyGroup matchWorkspace text with
  | none =>
      left
      rw [subFrom_of_lazyGroup_none _ matchWorkspace_proper rfl grouped]
      simp [searchFirst, lazyGroup_matchMembersArray_of_headless headless]
  | some result =>
      obtain ⟨front, header, after⟩ := result
      obtain ⟨rest, split, matched⟩ := lazyGroup_eq_some matchWorkspace grouped
      obtain ⟨rfl, rfl⟩ := matchWorkspace_split matched
      refine Or.inr ⟨⟨front ++ '[' :: "workspace]\n".toList,
        subFrom matchWorkspace (fun header => header ++ '\n' :: a.text) 0 after, ?_,
        matchMembersArray_before_header headless split _⟩,
        subFrom_headers_idempotent sound text headless⟩
      rw [subFrom_of_lazyGroup_some _ matchWorkspace_proper rfl grouped, inserted_eq]

end Block

/-! ### Texts without end-marker text -/

theorem infix_of_infix_newlines_append {needle : Text} (plain : '\n' ∉ needle)
    (nonempty : needle ≠ []) {back : Text} :
    ∀ {front : Text}, (∀ c ∈ front, c = '\n') → needle <:+: front ++ back → needle <:+: back
  | [], _, inf => inf
  | c :: front, newlines, inf => by
      rcases List.infix_cons_iff.mp inf with pre | later
      · obtain ⟨n, rest, rfl⟩ := List.exists_cons_of_ne_nil nonempty
        have same := (List.cons_prefix_cons.mp pre).1
        rw [newlines c (List.mem_cons_self _ _)] at same
        exact absurd (same ▸ List.mem_cons_self n rest) plain
      · exact infix_of_infix_newlines_append plain nonempty
          (fun d member => newlines d (List.mem_cons_of_mem _ member)) later

/-- The clean-up only shortens runs of newlines, so a text without a newline it finds in the
cleaned text was in the text. -/
theorem infix_of_infix_collapseRuns {needle : Text} (plain : '\n' ∉ needle)
    (nonempty : needle ≠ []) : ∀ {pending : Nat} {text : Text},
      needle <:+: collapseRuns pending text → needle <:+: text
  | pending, [], inf => by
      obtain ⟨c, member⟩ := List.exists_mem_of_ne_nil _ nonempty
      exact absurd (mem_newlineRun (inf.subset member) ▸ member) plain
  | pending, c :: rest, inf => by
      by_cases newline : c = '\n'
      · subst newline
        rw [collapseRuns_newline_cons] at inf
        exact (infix_of_infix_collapseRuns plain nonempty inf).trans (List.suffix_cons _ _).isInfix
      · rw [collapseRuns_cons_of_ne pending newline] at inf
        rcases List.infix_cons_iff.mp (infix_of_infix_newlines_append plain nonempty
            (fun _ => mem_newlineRun) inf) with pre | later
        · rw [← collapseRuns_zero_cons newline, prefix_collapseRuns_iff plain] at pre
          exact pre.isInfix
        · exact (infix_of_infix_collapseRuns plain nonempty later).trans
            (List.suffix_cons _ _).isInfix

section Ended

variable {β : Type} {matcher : Text → Option (β × Text)}
  (ended : ∀ text found after, matcher text = some (found, after) →
    ∃ last, last <:+ text.tail ∧ endLineRest last = some after)
  {text : Text} (free : ¬ bareEndMarker <:+: text)
include ended free

theorem fails_of_ended (i : Nat) : matcher (text.drop i) = none := by
  cases matched : matcher (text.drop i) with
  | none => rfl
  | some result =>
      obtain ⟨last, suffix, rested⟩ := ended _ _ _ matched
      exact absurd ((endLineRest_eq_some rested).1.isInfix.trans
        ((suffix.trans ((List.tail_suffix _).trans (List.drop_suffix i text))).isInfix)) free

theorem subFrom_of_ended (replace : β → Text) : subFrom matcher replace 0 text = text := by
  rw [← List.append_nil text, subFrom_append_of_fails matcher replace text []
      fun i _ => by rw [List.append_nil]; exact fails_of_ended ended free i,
    subFrom_nil matcher replace (by simpa using fails_of_ended ended free text.length)]

theorem findFrom_of_ended : findFrom matcher 0 text = [] := by
  rw [← List.append_nil text, findFrom_append_of_fails matcher text []
      fun i _ => by rw [List.append_nil]; exact fails_of_ended ended free i,
    findFrom_nil matcher (by simpa using fails_of_ended ended free text.length)]

end Ended

section Free

variable {text : Text} (free : ¬ bareEndMarker <:+: text)
include free

theorem dropMembersConflicts_of_free : dropMembersConflicts text = text :=
  subFrom_of_ended (fun _ _ _ => matchMembersConflict_after) free _

theorem keepOurs_of_free : keepOurs text = text :=
  subFrom_of_ended (fun _ _ _ => matchGeneric_after) free _

/-- Without end-marker text, `conflict_pattern` finds no region: the members are those of the
first array of the whole text. -/
theorem mem_cargoMembers_of_free {m : Text} :
    m ∈ cargoMembers text ↔ m ∈ extractMembersFromBlock text := by
  have regionless : regionMembers text = PySet.empty := by
    rw [regionMembers, findFrom_of_ended (fun _ _ _ => matchConflict_after) free]
    rfl
  rw [mem_cargoMembers, regionMembers, cleanContent,
    subFrom_of_ended (fun _ _ _ => matchConflict_after) free, ← regionMembers, regionless]
  simp [PySet.not_mem_empty]

end Free

/-! ### The block of members a second run reads back -/

/-- A member the block can hold and a second run read back as it is: a non-empty text without
a quote or a bracket, as `extract_members_from_block` reads them, without a backslash, which the
replacement template would read, and without a run of three newlines, which the clean-up would
shorten. -/
structure PlainMember (m : Text) : Prop where
  filled : m ≠ []
  unquoted : '"' ∉ m
  unbracketed : ']' ∉ m
  unescaped : '\\' ∉ m
  unrun : ¬ ['\n', '\n', '\n'] <:+: m

section Plain

variable {members : List Text} (plain : ∀ m ∈ members, PlainMember m)
include plain

theorem membersBlock_sound : (blockArray members).Sound :=
  blockArray_sound fun m member =>
    ⟨(plain m member).filled, (plain m member).unquoted, (plain m member).unbracketed⟩

theorem membersBlock_untripled : ¬ ['\n', '\n', '\n'] <:+: membersBlock members := fun inf => by
  obtain ⟨m, member, inM⟩ := infix_membersBlock (by decide) (by decide) inf
  exact (plain m member).unrun inM

theorem membersBlock_subFrom_collapseRuns (pending : Nat) (text : Text) :
    subFrom matchMembersArray (fun _ => membersBlock members) 0 (collapseRuns pending text) =
      collapseRuns pending (subFrom matchMembersArray (fun _ => membersBlock members) 0 text) := by
  obtain ⟨mid, shape⟩ := membersBlock_shape members
  exact subFrom_collapseRuns (matchMembersArray_cons_of_ne (by decide)) rfl
    matchMembersArray_collapseRuns matchMembersArray_proper
    (by rw [shape]; simp) (by rw [shape, List.getLast?_append]; simp) (by rw [shape]; simp)
    (collapseBlankLines_of_not_triple (membersBlock_untripled plain)) pending text

end Plain

theorem placeMembers_eq_self {block text : Text} {hasMembers : Bool} (plain : '\\' ∉ block)
    (fixed : subFrom matchMembersSpan (fun _ => block) 0 text = text)
    (headed : (searchFirst membersHead text).isSome ∨ hasMembers = false) :
    placeMembers block hasMembers text = .ok text := by
  unfold placeMembers
  split
  · rw [reSub_plain plain, fixed]
  · rcases headed with headed | absent
    · contradiction
    · simp [absent]

theorem isSome_searchFirst_membersHead {text : Text}
    (arrayed : searchFirst matchMembersArray text ≠ none) :
    (searchFirst membersHead text).isSome := by
  by_contra headless
  exact arrayed (by
    simp [searchFirst, lazyGroup_matchMembersArray_of_headless
      (Option.not_isSome_iff_eq_none.mp headless)])

/-! ### The second run -/

section Second

variable {members : List Text} (plain : ∀ m ∈ members, PlainMember m)
  (strict : members.Pairwise (· < ·))
include plain strict

/-- The second run over the cleaned text of a settled text without end-marker text, written with
the block of strictly ascending members: its passes before the last change nothing, it reads the
same members back, and its last substitution and clean-up give the text back. -/
theorem cargoRewrite_settled (iter : SetIter) {out : Text}
    (settled : Settled (membersBlock members) out) (free : ¬ bareEndMarker <:+: out) :
    cargoRewrite (collapseRuns 0 out)
        (sortedBy id ((cargoMembers (collapseRuns 0 out)).toList iter)) =
      .ok (collapseRuns 0 out) := by
  have cleanFree : ¬ bareEndMarker <:+: collapseRuns 0 out :=
    fun inf => free (infix_of_infix_collapseRuns (by decide) (by decide) inf)
  suffices placed : placeMembers
      (membersBlock (sortedBy id ((cargoMembers (collapseRuns 0 out)).toList iter)))
      (!(sortedBy id ((cargoMembers (collapseRuns 0 out)).toList iter)).isEmpty)
      (collapseRuns 0 out) = .ok (collapseRuns 0 out) by
    rw [cargoRewrite, dropMembersConflicts_of_free cleanFree, keepOurs_of_free cleanFree, placed]
    exact congrArg Except.ok (collapseBlankLines_idempotent out)
  have searched := searchFirst_matchMembersArray_collapseRuns out
  rcases settled with arrayless | ⟨⟨front, rest, split, fails⟩, fixed⟩
  · have unread : (cargoMembers (collapseRuns 0 out)).toList iter = [] :=
      List.eq_nil_iff_forall_not_mem.mpr fun m member => by
        have read := mem_cargoMembers_of_free cleanFree |>.mp (PySet.mem_toList.mp member)
        rw [arrayless] at searched
        simp [extractMembersFromBlock, searched, PySet.not_mem_empty] at read
    rw [unread, show sortedBy id [] = [] from rfl]
    refine placeMembers_eq_self (by decide) ?_ (Or.inr rfl)
    rw [subFrom_matchMembersSpan,
      membersBlock_subFrom_collapseRuns (fun _ absent => absurd absent (List.not_mem_nil _)),
      subFrom_of_lazyGroup_none _ matchMembersArray_proper rfl
        (by simpa [searchFirst] using arrayless)]
  · have sound := membersBlock_sound plain
    have first : searchFirst matchMembersArray out =
        some ((blockArray members).lead ++ (blockArray members).body, rest) := by
      rw [split, searchFirst_append_of_fails _ _ _ fails, membersBlock_eq_text,
        searchFirst_of_success _ (sound.matchMembersArray rest)]
    have body : collapseRuns 0 ((blockArray members).lead ++ (blockArray members).body) =
        (blockArray members).lead ++ (blockArray members).body :=
      collapseBlankLines_of_not_triple fun inf => membersBlock_untripled plain
        (by
          rw [membersBlock_eq_text]
          exact inf.trans ⟨membersKey ++ (blockArray members).keySpace ++
            '=' :: (blockArray members).valueSpace ++ ['['], [']'], by simp [MembersArray.text]⟩)
    have read : ∀ m, m ∈ (cargoMembers (collapseRuns 0 out)).toList iter ↔ m ∈ members :=
      fun m => by
        rw [PySet.mem_toList, mem_cargoMembers_of_free cleanFree, extractMembersFromBlock,
          searched, first]
        simp [Prod.map, body, sound.findFrom_quoted, blockArray_names, PySet.mem_update,
          PySet.not_mem_empty]
    have ascending : sortedBy id members = members := List.Sorted.insertionSort_eq
      (strict.imp le_of_lt)
    rw [sortedBy_id_eq_of_perm ((List.perm_ext_iff_of_nodup (PySet.nodup_toList _ _)
        (strict.imp ne_of_lt)).mpr read), ascending]
    refine placeMembers_eq_self (membersBlock_plain fun m member => (plain m member).unescaped)
      ?_ (Or.inl (isSome_searchFirst_membersHead (by rw [searched, first]; simp)))
    rw [subFrom_matchMembersSpan, membersBlock_subFrom_collapseRuns plain, fixed]

end Second

/-! ### The first run -/

theorem bracket_not_mem_of_matchMembersArray {text content after : Text}
    (matched : matchMembersArray text = some (content, after)) : ']' ∉ content := by
  obtain ⟨inner, _, grouped⟩ := Option.bind_eq_some.mp matched
  obtain ⟨rest, split, _⟩ := lazyGroup_eq_some closeBracket grouped
  intro inContent
  obtain ⟨i, inside, bracket⟩ := List.getElem_of_mem inContent
  have fails := lazyGroup_fails_before closeBracket grouped i inside
  rw [split, List.drop_append_of_le_length inside.le, List.drop_eq_getElem_cons inside,
    bracket] at fails
  cases fails

theorem entry_of_matchQuoted {text group after : Text}
    (matched : matchQuoted text = some (group, after)) : group ≠ [] ∧ '"' ∉ group := by
  unfold matchQuoted at matched
  split at matched
  · rename_i rest
    split at matched
    · split at matched
      · cases matched
      · cases matched
        refine ⟨‹_›, fun inGroup => ?_⟩
        simpa using List.mem_takeWhile_imp inGroup
    · cases matched
  · cases matched

/-- What `extract_members_from_block` reads: non-empty quoted texts inside the brackets of an
array, so without a quote or a bracket. -/
theorem entry_of_mem_extractMembersFromBlock {block x : Text}
    (member : x ∈ extractMembersFromBlock block) : x ≠ [] ∧ '"' ∉ x ∧ ']' ∉ x := by
  unfold extractMembersFromBlock at member
  cases searched : searchFirst matchMembersArray block with
  | none => simp [searched, PySet.mem_def, PySet.empty] at member
  | some result =>
      obtain ⟨content, after⟩ := result
      simp only [searched, PySet.mem_update, PySet.not_mem_empty, false_or] at member
      obtain ⟨_, _, arrayed⟩ := searchFirst_eq_some _ searched
      obtain ⟨start, rest, suffix, quoted⟩ := matchesIn_of_mem_findFrom matchQuoted member
      obtain ⟨filled, unquoted⟩ := entry_of_matchQuoted quoted
      exact ⟨filled, unquoted, fun inX => bracket_not_mem_of_matchMembersArray arrayed
        (((infix_of_matchQuoted quoted).trans suffix.isInfix).subset inX)⟩

theorem entry_of_mem_cargoMembers {content x : Text} (member : x ∈ cargoMembers content) :
    x ≠ [] ∧ '"' ∉ x ∧ ']' ∉ x := by
  rcases mem_cargoMembers.mp member with inRegions | inClean
  · obtain ⟨_, _, inSides⟩ := mem_regionMembers.mp inRegions
    exact inSides.elim entry_of_mem_extractMembersFromBlock entry_of_mem_extractMembersFromBlock
  · exact entry_of_mem_extractMembersFromBlock inClean

/-- Over a calm document, the last substitution of the first run leaves a settled text without
end-marker text, whichever of its three branches it takes. -/
theorem placeMembers_calm {chunks : List Chunk} (calm : ∀ chunk ∈ chunks, chunk.Calm)
    {members : List Text} (plain : ∀ m ∈ members, PlainMember m)
    (unended : ∀ m ∈ members, ¬ bareEndMarker <:+: m) (hasMembers : Bool) :
    ∃ out, placeMembers (membersBlock members) hasMembers
        (keepOurs (dropMembersConflicts (docText chunks))) = .ok out ∧
      Settled (membersBlock members) out ∧ ¬ bareEndMarker <:+: out := by
  have free := keepOurs_dropMembersConflicts_endFree calm
  have sound := membersBlock_sound plain
  have blockPlain : '\\' ∉ membersBlock members :=
    membersBlock_plain fun m member => (plain m member).unescaped
  obtain ⟨mid, shape⟩ := membersBlock_shape members
  have midFree : ¬ bareEndMarker <:+: mid := fun inf => by
    obtain ⟨m, member, inM⟩ := infix_membersBlock (by decide) (by decide)
      (inf.trans (by rw [shape]; exact ⟨['m'], [']'], rfl⟩))
    exact unended m member inM
  generalize keepOurs (dropMembersConflicts (docText chunks)) = resolved at free
  unfold placeMembers
  split
  · rw [reSub_plain blockPlain, subFrom_matchMembersSpan, membersBlock_eq_text]
    refine ⟨_, rfl, settled_subFrom sound resolved, fun inf => ?_⟩
    rw [← membersBlock_eq_text] at inf
    exact (infix_subFrom matchMembersArray _ matchMembersArray_proper rfl
      (fun _ _ _ _ => shape) (by decide) (by decide) resolved inf).elim free midFree
  · next unheaded =>
    have headless := Option.not_isSome_iff_eq_none.mp unheaded
    split
    · rw [reSub_groupOne blockPlain, membersBlock_eq_text]
      refine ⟨_, rfl, settled_headers sound headless, fun inf => ?_⟩
      rw [← membersBlock_eq_text] at inf
      have shaped : ∀ text found after, matchWorkspace text = some (found, after) →
          found ++ '\n' :: membersBlock members =
            '[' :: ("workspace]\n".toList ++ 'm' :: mid) ++ [']'] := fun _ _ _ matched => by
        rw [(matchWorkspace_eq_some matched).1, shape]
        simp [workspaceHeader]
      rcases infix_subFrom matchWorkspace _ matchWorkspace_proper rfl shaped (by decide)
          (by decide) resolved inf with inResolved | inMid
      · exact free inResolved
      · rcases infix_append_cons (by decide) inMid with inHeader | inMid
        · exact absurd inHeader (by decide)
        · exact midFree inMid
    · exact ⟨resolved, rfl,
        Or.inl (by simpa [searchFirst] using lazyGroup_matchMembersArray_of_headless headless),
        free⟩

/-! ### Running twice -/

/-- A workspace whose members array is in conflict, with a comment after the region that starts
with `<<<<<<< `: the file the first run writes still holds start-marker text, so the second run
rewrites it again. -/
def notedChunks : List Chunk :=
  [.outside "[workspace]\n".toList,
    .region ⟨"ours".toList, "members = [\"a\"]\n".toList, "members = [\"b\"]\n".toList,
      "theirs".toList⟩,
    .outside "# <<<<<<< kept as a note\n".toList]

/-- The text of `notedChunks`. -/
def notedCargo : Text :=
  ("[workspace]\n<<<<<<< ours\nmembers = [\"a\"]\n=======\nmembers = [\"b\"]\n" ++
    ">>>>>>> theirs\n# <<<<<<< kept as a note\n").toList

/-- When the tool returns on `raw`, run again on the file it wrote it returns and leaves that
file as it is. -/
def RerunStable (iter : SetIter) (filePath raw : Text) : Prop :=
  (resolveCargoConflict iter filePath (some raw)).result = .returned true →
    ∀ output ∈ (resolveCargoConflict iter filePath (some raw)).file,
      (resolveCargoConflict iter filePath (some output)).result = .returned true ∧
        (resolveCargoConflict iter filePath (some output)).file = some output

instance (iter : SetIter) (filePath raw : Text) : Decidable (RerunStable iter filePath raw) :=
  inferInstanceAs (Decidable (_ → ∀ output ∈ _, _))

/-- A region nested inside another one's ours side. The generic pattern pairs the outer start
marker with the inner separator, so the first run writes `<<<<<<< b`, `x`, `=======`, `z`,
`>>>>>>> d`, and the second run keeps `x`. -/
def nestedCargo : Text :=
  "<<<<<<< a\n<<<<<<< b\nx\n=======\ny\n>>>>>>> c\n=======\nz\n>>>>>>> d\n".toList

/-- Outside text holding `>>>>>>> `: the ours side of the region runs on to it, and the first
run's members array, written inside that text, is emptied by the second run. -/
def endMarkedCargo : Text :=
  "<<<<<<< \n=======\nmembers=[\"q\"]\n>>>>>>> \n<<<<<<<members=[]>>>>>>> <<<<<<< \n".toList

/-- Outside text holding `>=======`: the first run writes one region's markers back, which the
second run resolves to nothing. -/
def gtSepCargo : Text :=
  ("<<<<<<<\n<<<<<<< \n=======\n\n>>>>>>> \n=======\n<<<<<<<\n>=======\n" ++
    "<<<<<<< \n=======\n\n>>>>>>> \n>>>>>>\n").toList

/-- Outside text holding `><<<<<<<`: as with `gtSepCargo`, a region's markers survive the first
run and are resolved by the second. -/
def gtStartCargo : Text :=
  ("<<<<<<<\n<<<<<<< \n=======\n\n>>>>>>> \n=======\n><<<<<<<\n>>>>>>\n" ++
    "<<<<<<< \n=======\n\n>>>>>>> \n").toList

/-- A member holding a backslash: the first run writes it into the replacement text of
`re.sub`, which reads `\\` as one backslash, and the second run's replacement text then holds
the bad escape `\y`. -/
def escapedCargo : Text :=
  "[workspace]\n<<<<<<< \nmembers=[\"\\\\y\"]\n=======\n>>>>>>> \n<<<<<<< \n".toList

/-- A member holding three newlines: the first run's clean-up collapses it onto the other side's
member, so the block it writes holds that member twice, and the second run keeps one. -/
def tripleCargo : Text :=
  ("[workspace]\n<<<<<<< \nmembers=[\"x\n\n\ny\"]\n=======\nmembers=[\"x\n\ny\"]\n" ++
    ">>>>>>> \n<<<<<<< \n").toList

end ConflictResolver
