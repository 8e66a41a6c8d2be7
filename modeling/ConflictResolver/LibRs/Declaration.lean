import ConflictResolver.Python

/-!
The pattern `^pub(?:\([^)]+\))?\s+mod\s+\w+\s*;` of `resolve_librs_conflict.py`, with
`extract_pub_mods` and `extract_mod_name`. No piece of it can give back a character and still
lead to a match, so each piece is read greedily; `PubModDecl` is the grammar it spells.
-/

namespace ConflictResolver

/-- The class `\w` of Python's `re` on `str` patterns: `str.isalnum()` or `_`. Its Unicode
tables belong to Python, so the model takes the class as given, with the two facts about it
that the patterns here rely on. -/
structure WordClass where
  isWord : Char → Bool
  not_space : ∀ c, isWord c = true → isSpace c = false
  semicolon : isWord ';' = false

/-- `\w` on ASCII text, where Python's class is letters, digits and `_`. -/
def WordClass.ascii : WordClass where
  isWord c :=
    let n := c.toNat
    (48 ≤ n && n ≤ 57) || (65 ≤ n && n ≤ 90) || (97 ≤ n && n ≤ 122) || n == 95
  not_space c word := by
    cases spaceCheck : isSpace c with
    | false => rfl
    | true =>
        simp only [isSpace, Bool.or_eq_true, Bool.and_eq_true, decide_eq_true_eq, beq_iff_eq]
          at spaceCheck word
        omega
  semicolon := rfl

/-! ### Pieces of the pattern -/

/-- The text after the literal `token`, when it starts with it. -/
def dropToken (token text : Text) : Option Text :=
  if token.isPrefixOf text then some (text.drop token.length) else none

/-- `[class]+` read greedily: at least one character of the class, then all that follow. -/
def runRest (inClass : Char → Bool) : Text → Option Text
  | [] => none
  | c :: rest => if inClass c then some (rest.dropWhile inClass) else none

/-- `(?:\([^)]+\))?` followed by `\s+`: a text that starts with `(` can only match through the
group, since `\s+` cannot read `(`; any other text skips the group. -/
def qualifierRest : Text → Option Text
  | [] => some []
  | c :: rest =>
      if c = '(' then
        match rest.dropWhile (· != ')') with
        | [] => none
        | _ :: after => if rest.takeWhile (· != ')') = [] then none else some after
      else some (c :: rest)

/-- `\s*;`. -/
def semicolonRest (text : Text) : Option Text :=
  match text.dropWhile isSpace with
  | [] => none
  | c :: after => if c = ';' then some after else none

/-- What `re.match(r'^pub(?:\([^)]+\))?\s+mod\s+\w+\s*;', text)` leaves of `text`. -/
def pubModRest (w : WordClass) (text : Text) : Option Text := do
  let rest ← dropToken "pub".toList text
  let rest ← qualifierRest rest
  let rest ← runRest isSpace rest
  let rest ← dropToken "mod".toList rest
  let rest ← runRest isSpace rest
  let rest ← runRest w.isWord rest
  semicolonRest rest

/-- Group 1 of `re.match(r'^(pub(?:\([^)]+\))?\s+mod\s+\w+\s*;)', text)`: the matched
declaration, a prefix of `text`. -/
def matchPubMod (w : WordClass) (text : Text) : Option Text :=
  (pubModRest w text).map fun rest => text.take (text.length - rest.length)

/-- The declaration one line of a block yields in `extract_pub_mods`. -/
def lineDecl (w : WordClass) (line : Text) : Option Text := matchPubMod w (strip line)

/-- `extract_pub_mods(block)`: group 1 of the match on each stripped line. The result is a
Python set; the list may repeat an element. -/
def extractPubMods (w : WordClass) (block : Text) : List Text :=
  (splitLines block).filterMap (lineDecl w)

/-- Group 1 of `mod\s+(\w+)` matched at the start of `text`. -/
def modNameAt (w : WordClass) (text : Text) : Option Text := do
  let rest ← dropToken "mod".toList text
  let rest ← runRest isSpace rest
  let name := rest.takeWhile w.isWord
  if name.isEmpty then none else some name

/-- `re.search(r'mod\s+(\w+)', text)`: the leftmost match. -/
def searchModName (w : WordClass) : Text → Option Text
  | [] => none
  | c :: rest => (modNameAt w (c :: rest)).orElse fun _ => searchModName w rest

/-- `extract_mod_name(declaration)`. -/
def extractModName (w : WordClass) (declaration : Text) : Text :=
  (searchModName w declaration).getD declaration

/-! ### The grammar -/

/-- The declarations the pattern accepts: `pub`, an optional parenthesised qualifier, spaces,
`mod`, spaces, a name of word characters, optional spaces, `;`. -/
inductive PubModDecl (w : WordClass) : Text → Prop
  | mk {qualifier lead gap name pad : Text}
      (qualifierShape :
        qualifier = [] ∨ ∃ inner, inner ≠ [] ∧ ')' ∉ inner ∧ qualifier = '(' :: inner ++ [')'])
      (leadSpaces : lead ≠ [] ∧ ∀ c ∈ lead, isSpace c = true)
      (gapSpaces : gap ≠ [] ∧ ∀ c ∈ gap, isSpace c = true)
      (nameWord : name ≠ [] ∧ ∀ c ∈ name, w.isWord c = true)
      (padSpaces : ∀ c ∈ pad, isSpace c = true) :
      PubModDecl w ("pub".toList ++ qualifier ++ lead ++ "mod".toList ++ gap ++ name ++ pad ++
        [';'])

/-! ### Greedy runs -/

section Runs

variable {p : Char → Bool}

theorem dropWhile_run_append {run rest : Text} (inRun : ∀ c ∈ run, p c = true)
    (stop : ∀ c ∈ rest.head?, p c = false) : (run ++ rest).dropWhile p = rest := by
  induction run with
  | nil =>
      cases rest with
      | nil => rfl
      | cons c rest => simp [stop c rfl]
  | cons c run ih =>
      simp only [List.cons_append, List.dropWhile_cons, inRun c (List.mem_cons_self _ _),
        if_true]
      exact ih fun x member => inRun x (List.mem_cons_of_mem _ member)

theorem takeWhile_run_append {run rest : Text} (inRun : ∀ c ∈ run, p c = true)
    (stop : ∀ c ∈ rest.head?, p c = false) : (run ++ rest).takeWhile p = run := by
  have whole := List.takeWhile_append_dropWhile p (run ++ rest)
  rw [dropWhile_run_append inRun stop] at whole
  exact List.append_cancel_right whole

theorem head_dropWhile_stop (text : Text) : ∀ c ∈ (text.dropWhile p).head?, p c = false := by
  intro c member
  have stop := List.head?_dropWhile_not p text
  rw [Option.mem_def.mp member] at stop
  simpa using stop

end Runs

/-! ### One lemma per piece -/

theorem dropToken_eq_some {token text rest : Text} :
    dropToken token text = some rest ↔ text = token ++ rest := by
  unfold dropToken
  split
  · next pre =>
      obtain ⟨suffix, rfl⟩ := List.isPrefixOf_iff_prefix.mp pre
      simp
  · next notPre =>
      simp only [reduceCtorEq, false_iff]
      rintro rfl
      exact notPre (List.isPrefixOf_iff_prefix.mpr (List.prefix_append _ _))

theorem runRest_eq_some {inClass : Char → Bool} {text rest : Text} :
    runRest inClass text = some rest ↔
      ∃ run, run ≠ [] ∧ (∀ c ∈ run, inClass c = true) ∧
        (∀ c ∈ rest.head?, inClass c = false) ∧ text = run ++ rest := by
  constructor
  · intro read
    cases text with
    | nil => simp [runRest] at read
    | cons c rest' =>
        simp only [runRest] at read
        split at read
        · next first =>
            cases read
            refine ⟨c :: rest'.takeWhile inClass, List.cons_ne_nil _ _, ?_,
              head_dropWhile_stop rest', by simp⟩
            intro x member
            rcases List.mem_cons.mp member with rfl | later
            · exact first
            · exact List.mem_takeWhile_imp later
        · cases read
  · rintro ⟨run, nonempty, inRun, stop, rfl⟩
    obtain ⟨c, run, rfl⟩ := List.exists_cons_of_ne_nil nonempty
    simp only [runRest, List.cons_append, inRun c (List.mem_cons_self _ _), if_true]
    rw [dropWhile_run_append (fun x member => inRun x (List.mem_cons_of_mem _ member)) stop]

theorem qualifierRest_eq_some {text rest : Text} :
    qualifierRest text = some rest ↔
      (text.head? ≠ some '(' ∧ rest = text) ∨
        ∃ inner, inner ≠ [] ∧ ')' ∉ inner ∧ text = '(' :: inner ++ ')' :: rest := by
  constructor
  · intro read
    cases text with
    | nil => simp_all [qualifierRest]
    | cons c rest' =>
        simp only [qualifierRest] at read
        split at read
        · next opening =>
            subst opening
            right
            split at read
            · cases read
            · next close after split =>
                split at read
                · cases read
                · next nonempty =>
                    cases read
                    have stop := head_dropWhile_stop (p := (· != ')')) rest'
                    rw [split] at stop
                    have isClose : close = ')' := by simpa using stop close rfl
                    subst isClose
                    refine ⟨rest'.takeWhile (· != ')'), nonempty, ?_, ?_⟩
                    · intro inside
                      simpa using List.mem_takeWhile_imp inside
                    · rw [← split, List.cons_append, List.takeWhile_append_dropWhile]
        · next other => exact Or.inl ⟨by simpa using other, (Option.some.inj read).symm⟩
  · rintro (⟨notOpen, rfl⟩ | ⟨inner, nonempty, closed, rfl⟩)
    · cases rest with
      | nil => rfl
      | cons c rest' =>
          have other : c ≠ '(' := fun same => notOpen (by simp [same])
          simp [qualifierRest, other]
    · have plain : ∀ c ∈ inner, (c != ')') = true := fun c member => by
        have different : c ≠ ')' := fun same => closed (same ▸ member)
        simpa using different
      have stop : ∀ c ∈ (')' :: rest).head?, (c != ')') = false := by simp
      simp only [List.cons_append, qualifierRest, if_true, dropWhile_run_append plain stop,
        takeWhile_run_append plain stop, if_neg nonempty]

theorem semicolonRest_eq_some {text rest : Text} :
    semicolonRest text = some rest ↔
      ∃ pad, (∀ c ∈ pad, isSpace c = true) ∧ text = pad ++ ';' :: rest := by
  constructor
  · intro read
    unfold semicolonRest at read
    split at read
    · cases read
    · next c after split =>
        split at read
        · next semi =>
            cases read
            subst semi
            exact ⟨text.takeWhile isSpace, fun x member => List.mem_takeWhile_imp member,
              by rw [← split, List.takeWhile_append_dropWhile]⟩
        · cases read
  · rintro ⟨pad, spaces, rfl⟩
    have stop : ∀ c ∈ (';' :: rest).head?, isSpace c = false := by simp [isSpace]
    simp [semicolonRest, dropWhile_run_append spaces stop]

/-! ### The matcher accepts exactly the grammar -/

theorem pubModRest_eq_some {w : WordClass} {text rest : Text} :
    pubModRest w text = some rest ↔ ∃ decl, PubModDecl w decl ∧ text = decl ++ rest := by
  constructor
  · intro read
    simp only [pubModRest, Option.bind_eq_bind, Option.bind_eq_some] at read
    obtain ⟨afterPub, pubStep, afterQualifier, qualifierStep, afterLead, leadStep, afterMod,
      modStep, afterGap, gapStep, afterName, nameStep, semicolonStep⟩ := read
    rw [dropToken_eq_some] at pubStep modStep
    obtain ⟨lead, leadNonempty, leadSpaces, -, rfl⟩ := runRest_eq_some.mp leadStep
    obtain ⟨gap, gapNonempty, gapSpaces, -, rfl⟩ := runRest_eq_some.mp gapStep
    obtain ⟨name, nameNonempty, nameWord, -, rfl⟩ := runRest_eq_some.mp nameStep
    obtain ⟨pad, padSpaces, rfl⟩ := semicolonRest_eq_some.mp semicolonStep
    subst pubStep modStep
    rcases qualifierRest_eq_some.mp qualifierStep with ⟨-, rfl⟩ | ⟨inner, nonempty, closed, rfl⟩
    · exact ⟨_, @PubModDecl.mk w [] _ _ _ _ (Or.inl rfl) ⟨leadNonempty, leadSpaces⟩
        ⟨gapNonempty, gapSpaces⟩ ⟨nameNonempty, nameWord⟩ padSpaces, by simp⟩
    · exact ⟨_, PubModDecl.mk (Or.inr ⟨inner, nonempty, closed, rfl⟩) ⟨leadNonempty, leadSpaces⟩
        ⟨gapNonempty, gapSpaces⟩ ⟨nameNonempty, nameWord⟩ padSpaces, by simp⟩
  · rintro ⟨_, ⟨qualifierShape, ⟨leadNonempty, leadSpaces⟩, ⟨gapNonempty, gapSpaces⟩,
      ⟨nameNonempty, nameWord⟩, padSpaces⟩, rfl⟩
    rename_i qualifier lead gap name pad
    obtain ⟨l, lead, rfl⟩ := List.exists_cons_of_ne_nil leadNonempty
    obtain ⟨n, name, rfl⟩ := List.exists_cons_of_ne_nil nameNonempty
    have qualifierStep : qualifierRest (qualifier ++ (l :: lead ++ ("mod".toList ++
        (gap ++ (n :: name ++ (pad ++ ';' :: rest)))))) =
          some (l :: lead ++ ("mod".toList ++ (gap ++ (n :: name ++ (pad ++ ';' :: rest))))) := by
      apply qualifierRest_eq_some.mpr
      rcases qualifierShape with rfl | ⟨inner, nonempty, closed, rfl⟩
      · refine Or.inl ⟨fun opening => ?_, rfl⟩
        cases Option.some.inj opening
        cases leadSpaces _ (List.mem_cons_self _ _)
      · exact Or.inr ⟨inner, nonempty, closed, by simp⟩
    have leadStep := runRest_eq_some.mpr ⟨l :: lead, leadNonempty, leadSpaces,
      (by rintro c ⟨⟩; rfl :
        ∀ c ∈ ("mod".toList ++ (gap ++ (n :: name ++ (pad ++ ';' :: rest)))).head?,
          isSpace c = false), rfl⟩
    have gapStep := runRest_eq_some.mpr ⟨gap, gapNonempty, gapSpaces,
      (by rintro c ⟨⟩; exact w.not_space n (nameWord n (List.mem_cons_self _ _)) :
        ∀ c ∈ (n :: name ++ (pad ++ ';' :: rest)).head?, isSpace c = false), rfl⟩
    have padStop : ∀ c ∈ (pad ++ ';' :: rest).head?, w.isWord c = false := by
      cases pad with
      | nil => rintro c ⟨⟩; exact w.semicolon
      | cons x pad =>
          rintro c ⟨⟩
          cases wordCheck : w.isWord x with
          | false => rfl
          | true =>
              have := w.not_space x wordCheck
              simp [padSpaces x (List.mem_cons_self _ _)] at this
    have nameStep := runRest_eq_some.mpr ⟨n :: name, nameNonempty, nameWord, padStop, rfl⟩
    have semicolonStep : semicolonRest (pad ++ ';' :: rest) = some rest :=
      semicolonRest_eq_some.mpr ⟨pad, padSpaces, rfl⟩
    have whole : "pub".toList ++ qualifier ++ l :: lead ++ "mod".toList ++ gap ++ n :: name ++
        pad ++ [';'] ++ rest = "pub".toList ++ (qualifier ++ (l :: lead ++ ("mod".toList ++
          (gap ++ (n :: name ++ (pad ++ ';' :: rest)))))) := by
      simp only [List.append_assoc, List.singleton_append]
    rw [whole, pubModRest, Option.bind_eq_bind, dropToken_eq_some.mpr rfl, Option.some_bind,
      qualifierStep, Option.some_bind, leadStep, Option.some_bind, dropToken_eq_some.mpr rfl,
      Option.some_bind, gapStep, Option.some_bind, nameStep, Option.some_bind, semicolonStep]

theorem matchPubMod_eq_some_iff {w : WordClass} {text decl : Text} :
    matchPubMod w text = some decl ↔ PubModDecl w decl ∧ decl <+: text := by
  constructor
  · intro matched
    obtain ⟨rest, read, rfl⟩ := Option.map_eq_some'.mp matched
    obtain ⟨decl, grammar, rfl⟩ := pubModRest_eq_some.mp read
    simp only [List.length_append, Nat.add_sub_cancel, List.take_left']
    exact ⟨grammar, List.prefix_append _ _⟩
  · rintro ⟨grammar, after, rfl⟩
    simp [matchPubMod, pubModRest_eq_some.mpr ⟨decl, grammar, rfl⟩]

theorem matchPubMod_self {w : WordClass} {text decl : Text}
    (matched : matchPubMod w text = some decl) : matchPubMod w decl = some decl :=
  matchPubMod_eq_some_iff.mpr ⟨(matchPubMod_eq_some_iff.mp matched).1, List.prefix_refl _⟩

theorem PubModDecl.starts_pub {w : WordClass} {decl : Text} (grammar : PubModDecl w decl) :
    "pub".toList <+: decl := by
  cases grammar
  simp only [List.append_assoc]
  exact List.prefix_append _ _

/-! ### Stripping -/

theorem strip_contained (text : Text) : strip text <:+: text := by
  have front := List.rdropWhile_prefix (p := isSpace) (l := text.dropWhile isSpace)
  exact front.isInfix.trans (List.dropWhile_suffix isSpace).isInfix

theorem strip_eq_self {text : Text} (first : ∀ c ∈ text.head?, isSpace c = false)
    (last : ∀ c ∈ text.getLast?, isSpace c = false) : strip text = text := by
  have front : text.dropWhile isSpace = text := by
    cases text with
    | nil => rfl
    | cons c rest => simp [first c rfl]
  rw [strip, front, List.rdropWhile_eq_self_iff]
  intro nonempty
  simp [last _ (List.getLast?_eq_getLast text nonempty)]

theorem strip_strip (text : Text) : strip (strip text) = strip text := by
  apply strip_eq_self
  · intro c first
    obtain ⟨suffix, whole⟩ := List.rdropWhile_prefix (p := isSpace) (l := text.dropWhile isSpace)
    apply head_dropWhile_stop text c
    rw [← whole]
    cases stripped : (text.dropWhile isSpace).rdropWhile isSpace with
    | nil => simp [strip, stripped] at first
    | cons x more =>
        simp only [strip, stripped, List.head?_cons, Option.mem_def, Option.some.injEq] at first
        simp [first]
  · intro c last
    have nonempty : strip text ≠ [] := by
      rintro empty
      simp [empty] at last
    have := List.rdropWhile_last_not (p := isSpace) (l := text.dropWhile isSpace) nonempty
    rw [List.getLast?_eq_getLast _ nonempty] at last
    cases Option.some.inj last
    simpa using this

theorem PubModDecl.strip_eq {w : WordClass} {decl : Text} (grammar : PubModDecl w decl) :
    strip decl = decl := by
  cases grammar
  apply strip_eq_self
  · simp [isSpace]
  · intro c last
    simp only [List.getLast?_append, List.getLast?_singleton, Option.mem_def] at last
    cases Option.some.inj last
    simp [isSpace]

theorem lineDecl_strip (w : WordClass) (line : Text) :
    lineDecl w (strip line) = lineDecl w line := by
  rw [lineDecl, lineDecl, strip_strip]

theorem lineDecl_of_matchPubMod {w : WordClass} {text decl : Text}
    (matched : matchPubMod w text = some decl) : lineDecl w decl = some decl := by
  rw [lineDecl, ((matchPubMod_eq_some_iff.mp matched).1).strip_eq, matchPubMod_self matched]

theorem mem_extractPubMods {w : WordClass} {block decl : Text}
    (member : decl ∈ extractPubMods w block) :
    lineDecl w decl = some decl ∧ ∃ line ∈ splitLines block, decl <:+: line := by
  obtain ⟨line, inBlock, matched⟩ := List.mem_filterMap.mp member
  exact ⟨lineDecl_of_matchPubMod matched, line, inBlock,
    (matchPubMod_eq_some_iff.mp matched).2.isInfix.trans (strip_contained line)⟩

end ConflictResolver
