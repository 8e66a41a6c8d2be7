import ConflictResolver.Cargo.Patterns

/-!
Replacement strings of `re.sub`, as CPython 3.12's `re._parser.parse_template` compiles them
before any match: a token machine (`TemplateState`) whose errors keep the position
`Tokenizer.error` gives them.
-/

namespace ConflictResolver

/-! ### Tokens -/

/-- A token of `Tokenizer`: one character, or a backslash with the character after it. -/
inductive TemplateToken where
  | plain (c : Char)
  | escape (c : Char)
  deriving DecidableEq, Repr

/-- How many characters of the source a token takes. -/
def TemplateToken.width : TemplateToken → Nat
  | .plain _ => 1
  | .escape _ => 2

/-- The text of a token. -/
def TemplateToken.text : TemplateToken → Text
  | .plain c => [c]
  | .escape c => ['\\', c]

/-- The tokens of a replacement string, and whether a lone backslash ends it. -/
def templateTokens : Text → List TemplateToken × Bool
  | [] => ([], false)
  | ['\\'] => ([], true)
  | '\\' :: c :: rest =>
      ((TemplateToken.escape c) :: (templateTokens rest).1, (templateTokens rest).2)
  | c :: rest => ((TemplateToken.plain c) :: (templateTokens rest).1, (templateTokens rest).2)

/-! ### Pieces and errors -/

/-- A piece of a compiled template: a character, or the text of a group of the match. -/
inductive TemplatePiece where
  | literal (c : Char)
  | group (index : Nat)
  deriving DecidableEq, Repr

/-- What compiling a replacement string can raise, with the position `Tokenizer.error` gives. -/
inductive TemplateError where
  /-- `bad escape (end of pattern)`, at the last character. -/
  | badEscapeEnd
  | missingLess (pos : Nat)
  | missingGroupName (pos : Nat)
  | unterminatedName (pos : Nat)
  /-- `checkgroupname` on a name that is not an identifier. -/
  | badGroupName (name : Text) (pos : Nat)
  /-- The `IndexError` of an identifier that names no group. -/
  | unknownGroupName (name : Text)
  | invalidGroupReference (index pos : Nat)
  | octalOutOfRange (escape : Text) (pos : Nat)
  | badEscape (c : Char) (pos : Nat)
  deriving DecidableEq, Repr

/-- `str.isidentifier()` on ASCII text; a character beyond ASCII is taken as a letter. -/
def isIdentifier : Text → Bool
  | [] => false
  | c :: rest =>
      (c.isAlpha || c == '_' || 127 < c.toNat) &&
        rest.all fun d => d.isAlphanum || d == '_' || 127 < d.toNat

/-- `repr(text)`: single quotes unless the text holds one and no double quote, with the
backslash, the quote and the common control characters escaped. -/
def pyRepr (text : Text) : Text :=
  let quote := if Char.ofNat 39 ∈ text ∧ '"' ∉ text then '"' else Char.ofNat 39
  let escaped := text.flatMap fun c =>
    if c = '\\' then ['\\', '\\']
    else if c = quote then ['\\', c]
    else if c = '\n' then ['\\', 'n']
    else if c = '\r' then ['\\', 'r']
    else if c = '\t' then ['\\', 't']
    else [c]
  quote :: escaped ++ [quote]

/-- `re.error(msg, source, pos)`: the message with its position, and its line and column when
the source has more than one line. -/
def errorAt (source msg : Text) (pos : Nat) : Text :=
  msg ++ " at position ".toList ++ (toString pos).toList ++
    if '\n' ∈ source then
      " (line ".toList ++ (toString ((source.take pos).count '\n' + 1)).toList ++
        ", column ".toList ++
        (toString (((source.take pos).reverse.takeWhile (· != '\n')).length + 1)).toList ++
        ")".toList
    else []

/-- The text of the exception, as `str(e)` gives it. -/
def TemplateError.message (source : Text) : TemplateError → Text
  | .badEscapeEnd => errorAt source "bad escape (end of pattern)".toList (source.length - 1)
  | .missingLess pos => errorAt source "missing <".toList pos
  | .missingGroupName pos => errorAt source "missing group name".toList pos
  | .unterminatedName pos => errorAt source "missing >, unterminated name".toList pos
  | .badGroupName name pos =>
      errorAt source ("bad character in group name ".toList ++ pyRepr name) pos
  | .unknownGroupName name => "unknown group name '".toList ++ name ++ "'".toList
  | .invalidGroupReference index pos =>
      errorAt source ("invalid group reference ".toList ++ (toString index).toList) pos
  | .octalOutOfRange escape pos =>
      errorAt source
        ("octal escape value ".toList ++ escape ++ " outside of range 0-0o377".toList) pos
  | .badEscape c pos => errorAt source ("bad escape \\".toList ++ [c]) pos

/-! ### The compiler -/

/-- The escapes of `ESCAPES` and the character each stands for. -/
def escapeValue : Char → Option Char
  | 'a' => some (Char.ofNat 7)
  | 'b' => some (Char.ofNat 8)
  | 'f' => some (Char.ofNat 12)
  | 'n' => some '\n'
  | 'r' => some '\r'
  | 't' => some '\t'
  | 'v' => some (Char.ofNat 11)
  | '\\' => some '\\'
  | _ => none

/-- A character of `OCTDIGITS`. -/
def isOctDigit (c : Char) : Bool := '0' ≤ c && c ≤ '7'

/-- The value of a string of decimal or octal digits in base `base`. -/
def digitsValue (base : Nat) (digits : Text) : Nat :=
  digits.foldl (fun value d => base * value + (d.toNat - '0'.toNat)) 0

/-- What the compiler has read of an escape whose end depends on the tokens after it. -/
inductive TemplateState where
  /-- Between escapes. -/
  | ready
  /-- After `\0` and the octal digits taken with it so far. -/
  | octalZero (digits : Text)
  /-- After a backslash and one digit `1` to `9`. -/
  | oneDigit (first : Char)
  /-- After a backslash and two decimal digits. -/
  | twoDigits (first second : Char)
  /-- After `\g`. -/
  | groupOpen
  /-- Inside `\g<`, with the name read so far. -/
  | groupName (name : Text)
  deriving DecidableEq, Repr

/-- `Tokenizer.get`: taking a token raises when the token after it is a lone backslash. -/
def takeToken (raises : Bool) : Except TemplateError Unit :=
  if raises then .error .badEscapeEnd else pure ()

/-- `addgroup(index, offset)`, at the position the offset leads back to. -/
def addGroup (groups index pos : Nat) : Except TemplateError (List TemplatePiece) :=
  if groups < index then .error (.invalidGroupReference index pos) else pure [.group index]

/-- The end of `\g<name>`, whose name starts at `pos`. -/
def closeGroupName (groups : Nat) (name : Text) (pos : Nat) :
    Except TemplateError (List TemplatePiece) :=
  if name.all Char.isDigit then addGroup groups (digitsValue 10 name) pos
  else if isIdentifier name then .error (.unknownGroupName name)
  else .error (.badGroupName name pos)

/-- The octal escape `\0`, `\0d` or `\0dd`. -/
def octalZeroPiece (digits : Text) : TemplatePiece :=
  .literal (Char.ofNat (digitsValue 8 digits % 256))

/-- A token taken between escapes, at `pos`. -/
def readToken (raises : Bool) (pos : Nat) :
    TemplateToken → Except TemplateError (List TemplatePiece × TemplateState)
  | .plain c => do
      takeToken raises
      pure ([.literal c], .ready)
  | .escape c => do
      takeToken raises
      if c = 'g' then pure ([], .groupOpen)
      else if c = '0' then pure ([], .octalZero [])
      else if c.isDigit then pure ([], .oneDigit c)
      else
        match escapeValue c with
        | some value => pure ([.literal value], .ready)
        | none =>
            if c.isAlpha then .error (.badEscape c pos)
            else pure ([.literal '\\', .literal c], .ready)

/-- The compiler meets the token `t` at `pos` in `state`; `raises` says that `t` is the last
token before a lone backslash. -/
def templateStep (groups : Nat) (raises : Bool) (state : TemplateState) (pos : Nat)
    (t : TemplateToken) : Except TemplateError (List TemplatePiece × TemplateState) :=
  match state, t with
  | .ready, t => readToken raises pos t
  | .octalZero digits, .plain d =>
      if isOctDigit d then do
        takeToken raises
        if digits.length = 1 then pure ([octalZeroPiece (digits ++ [d])], .ready)
        else pure ([], .octalZero (digits ++ [d]))
      else do
        let (pieces, next) ← readToken raises pos (.plain d)
        pure (octalZeroPiece digits :: pieces, next)
  | .octalZero digits, t => do
      let (pieces, next) ← readToken raises pos t
      pure (octalZeroPiece digits :: pieces, next)
  | .oneDigit c, .plain d =>
      if d.isDigit then do
        takeToken raises
        pure ([], .twoDigits c d)
      else do
        let reference ← addGroup groups (digitsValue 10 [c]) (pos - 1)
        let (pieces, next) ← readToken raises pos (.plain d)
        pure (reference ++ pieces, next)
  | .oneDigit c, t => do
      let reference ← addGroup groups (digitsValue 10 [c]) (pos - 1)
      let (pieces, next) ← readToken raises pos t
      pure (reference ++ pieces, next)
  | .twoDigits c d, .plain e =>
      if isOctDigit c && isOctDigit d && isOctDigit e then do
        takeToken raises
        if 255 < digitsValue 8 [c, d, e] then .error (.octalOutOfRange ['\\', c, d, e] (pos - 3))
        else pure ([.literal (Char.ofNat (digitsValue 8 [c, d, e]))], .ready)
      else do
        let reference ← addGroup groups (digitsValue 10 [c, d]) (pos - 2)
        let (pieces, next) ← readToken raises pos (.plain e)
        pure (reference ++ pieces, next)
  | .twoDigits c d, t => do
      let reference ← addGroup groups (digitsValue 10 [c, d]) (pos - 2)
      let (pieces, next) ← readToken raises pos t
      pure (reference ++ pieces, next)
  | .groupOpen, .plain '<' => do
      takeToken raises
      pure ([], .groupName [])
  | .groupOpen, _ => .error (.missingLess pos)
  | .groupName name, .plain '>' => do
      takeToken raises
      if name = [] then .error (.missingGroupName pos)
      else
        let reference ← closeGroupName groups name (pos - name.length)
        pure (reference, .ready)
  | .groupName name, t => do
      takeToken raises
      pure ([], .groupName (name ++ t.text))

/-- The end of the string, `length` characters long, in `state`. -/
def finishTemplate (groups length : Nat) : TemplateState → Except TemplateError (List TemplatePiece)
  | .ready => pure []
  | .octalZero digits => pure [octalZeroPiece digits]
  | .oneDigit c => addGroup groups (digitsValue 10 [c]) (length - 1)
  | .twoDigits c d => addGroup groups (digitsValue 10 [c, d]) (length - 2)
  | .groupOpen => .error (.missingLess length)
  | .groupName name =>
      if name = [] then .error (.missingGroupName length)
      else .error (.unterminatedName (length - name.length))

/-- The compiler over the tokens from `pos` on. -/
def parseTokens (groups length : Nat) (badEnd : Bool) :
    TemplateState → Nat → List TemplateToken → Except TemplateError (List TemplatePiece)
  | state, _, [] => finishTemplate groups length state
  | state, pos, t :: rest => do
      let (pieces, next) ← templateStep groups (badEnd && rest.isEmpty) state pos t
      let later ← parseTokens groups length badEnd next (pos + t.width) rest
      pure (pieces ++ later)

/-- `parse_template(source, pattern)` for a pattern with `groups` groups: the tokenizer raises
at once on the string `\`. -/
def parseTemplate (groups : Nat) (source : Text) : Except TemplateError (List TemplatePiece) :=
  if (templateTokens source).1 = [] ∧ (templateTokens source).2 then .error .badEscapeEnd
  else parseTokens groups source.length (templateTokens source).2 .ready 0 (templateTokens source).1

/-- The text a compiled template gives for a match whose groups `group` reads. -/
def expandTemplate (pieces : List TemplatePiece) (group : Nat → Text) : Text :=
  pieces.flatMap fun
    | .literal c => [c]
    | .group index => group index

/-- `re.sub(pattern, repl, text)` with a string `repl`, for a pattern with `groups` groups
that `group` reads off a match: the literal path when `repl` has no backslash, the compiled
template otherwise, and the text of the `re.error` or `IndexError` when compiling fails. -/
def reSub {α : Type} (matcher : Text → Option (α × Text)) (groups : Nat)
    (group : α → Nat → Text) (repl text : Text) : Except Text Text :=
  if '\\' ∈ repl then
    match parseTemplate groups repl with
    | .ok pieces => .ok (subFrom matcher (fun found => expandTemplate pieces (group found)) 0 text)
    | .error e => .error (e.message repl)
  else .ok (subFrom matcher (fun _ => repl) 0 text)

/-! ### Replacement strings that double their backslashes -/

/-- The text with each backslash written twice: how a replacement string spells a backslash it
means literally. -/
def doubleBackslashes (text : Text) : Text :=
  text.flatMap fun c => if c = '\\' then ['\\', '\\'] else [c]

@[simp] theorem doubleBackslashes_nil : doubleBackslashes [] = [] := rfl

theorem doubleBackslashes_cons (c : Char) (rest : Text) :
    doubleBackslashes (c :: rest) =
      (if c = '\\' then ['\\', '\\'] else [c]) ++ doubleBackslashes rest := rfl

@[simp] theorem doubleBackslashes_append (front back : Text) :
    doubleBackslashes (front ++ back) = doubleBackslashes front ++ doubleBackslashes back :=
  List.flatMap_append _ _ _

theorem doubleBackslashes_plain {text : Text} (plain : '\\' ∉ text) :
    doubleBackslashes text = text := by
  induction text with
  | nil => rfl
  | cons c rest ih =>
      have other : c ≠ '\\' := fun same => plain (same ▸ List.mem_cons_self _ _)
      rw [doubleBackslashes_cons, if_neg other,
        ih fun inRest => plain (List.mem_cons_of_mem _ inRest)]
      rfl

theorem backslash_mem_doubleBackslashes {text : Text} :
    '\\' ∈ doubleBackslashes text ↔ '\\' ∈ text := by
  induction text with
  | nil => rfl
  | cons c rest ih =>
      rw [doubleBackslashes_cons, List.mem_append, ih, List.mem_cons]
      by_cases same : c = '\\' <;> simp [same, eq_comm]

theorem templateTokens_cons_of_ne {c : Char} (rest : Text) (other : c ≠ '\\') :
    templateTokens (c :: rest) =
      (.plain c :: (templateTokens rest).1, (templateTokens rest).2) :=
  templateTokens.eq_4 c rest (fun same => absurd same other) fun _ _ same => absurd same other

/-- The token a character of the spelled text becomes. -/
def doubledToken (c : Char) : TemplateToken := if c = '\\' then .escape '\\' else .plain c

theorem templateTokens_doubleBackslashes (text : Text) :
    templateTokens (doubleBackslashes text) = (text.map doubledToken, false) := by
  induction text with
  | nil => rfl
  | cons c rest ih =>
      by_cases same : c = '\\'
      · subst same
        rw [doubleBackslashes_cons, if_pos rfl, List.cons_append, List.cons_append,
          List.nil_append, templateTokens.eq_3, ih]
        simp [doubledToken]
      · rw [doubleBackslashes_cons, if_neg same, List.singleton_append,
          templateTokens_cons_of_ne _ same, ih]
        simp [doubledToken, same]

theorem readToken_backslash (pos : Nat) :
    readToken false pos (.escape '\\') = .ok ([.literal '\\'], .ready) := by
  have g : ('\\' : Char) ≠ 'g' := by decide
  have z : ('\\' : Char) ≠ '0' := by decide
  have d : ('\\' : Char).isDigit = false := by decide
  have v : escapeValue '\\' = some '\\' := by decide
  simp only [readToken, takeToken, if_neg g, if_neg z, d, v]
  rfl

theorem parseTokens_doubled (groups length pos : Nat) (text : Text) :
    parseTokens groups length false .ready pos (text.map doubledToken) =
      .ok (text.map .literal) := by
  induction text generalizing pos with
  | nil => rfl
  | cons c rest ih =>
      have step : templateStep groups (false && (rest.map doubledToken).isEmpty) .ready pos
          (doubledToken c) = .ok ([.literal c], .ready) := by
        by_cases same : c = '\\'
        · subst same
          exact readToken_backslash pos
        · rw [doubledToken, if_neg same]
          rfl
      simp only [List.map_cons, parseTokens, step, bind, Except.bind, ih]
      rfl

theorem parseTemplate_doubleBackslashes (groups : Nat) (text : Text) :
    parseTemplate groups (doubleBackslashes text) = .ok (text.map .literal) := by
  rw [parseTemplate, templateTokens_doubleBackslashes, if_neg (by simp)]
  exact parseTokens_doubled groups _ 0 text

theorem parseTemplate_groupOne_doubled (text : Text) :
    parseTemplate 1 ("\\1\n".toList ++ doubleBackslashes text) =
      .ok (.group 1 :: ('\n' :: text).map .literal) := by
  have tokens : templateTokens ("\\1\n".toList ++ doubleBackslashes text) =
      (.escape '1' :: ('\n' :: text).map doubledToken, false) := by
    rw [show "\\1\n".toList ++ doubleBackslashes text =
        '\\' :: '1' :: doubleBackslashes ('\n' :: text) from rfl,
      templateTokens.eq_3, templateTokens_doubleBackslashes]
  have escape : templateStep 1
      (false && (doubledToken '\n' :: text.map doubledToken).isEmpty)
      .ready 0 (.escape '1') = .ok ([], .oneDigit '1') := rfl
  have newline : templateStep 1 (false && (text.map doubledToken).isEmpty)
      (.oneDigit '1') 2 (doubledToken '\n') = .ok ([.group 1, .literal '\n'], .ready) := rfl
  rw [parseTemplate, tokens, if_neg (by simp)]
  simp only [List.map_cons, parseTokens, escape, bind, Except.bind, TemplateToken.width,
    Nat.zero_add, newline, parseTokens_doubled]
  rfl

theorem expandTemplate_literals (text : Text) (group : Nat → Text) :
    expandTemplate (text.map .literal) group = text := by
  induction text with
  | nil => rfl
  | cons c rest ih => exact congrArg (c :: ·) ih

theorem expandTemplate_group_literals (n : Nat) (text : Text) (group : Nat → Text) :
    expandTemplate (.group n :: text.map .literal) group = group n ++ text := by
  rw [expandTemplate, List.flatMap_cons, ← expandTemplate, expandTemplate_literals]

theorem reSub_doubleBackslashes {α : Type} (matcher : Text → Option (α × Text)) (groups : Nat)
    (group : α → Nat → Text) (text target : Text) :
    reSub matcher groups group (doubleBackslashes text) target =
      .ok (subFrom matcher (fun _ => text) 0 target) := by
  by_cases inText : '\\' ∈ text
  · rw [reSub, if_pos (backslash_mem_doubleBackslashes.mpr inText),
      parseTemplate_doubleBackslashes]
    simp only [expandTemplate_literals]
  · rw [reSub, doubleBackslashes_plain inText, if_neg inText]

theorem reSub_groupOne_doubled {α : Type} (matcher : Text → Option (α × Text))
    (group : α → Nat → Text) (text target : Text) :
    reSub matcher 1 group ("\\1\n".toList ++ doubleBackslashes text) target =
      .ok (subFrom matcher (fun found => group found 1 ++ '\n' :: text) 0 target) := by
  rw [reSub, if_pos (by simp), parseTemplate_groupOne_doubled]
  simp only [expandTemplate_group_literals]

/-! ### Replacement strings without a backslash -/

theorem reSub_plain {α : Type} {matcher : Text → Option (α × Text)} {groups : Nat}
    {group : α → Nat → Text} {repl : Text} (plain : '\\' ∉ repl) (text : Text) :
    reSub matcher groups group repl text = .ok (subFrom matcher (fun _ => repl) 0 text) := by
  simp [reSub, plain]

theorem reSub_groupOne {α : Type} {matcher : Text → Option (α × Text)} {group : α → Nat → Text}
    {text : Text} (plain : '\\' ∉ text) (target : Text) :
    reSub matcher 1 group ("\\1\n".toList ++ text) target =
      .ok (subFrom matcher (fun found => group found 1 ++ '\n' :: text) 0 target) := by
  simpa only [doubleBackslashes_plain plain] using reSub_groupOne_doubled matcher group text target

/-! ### A bad escape -/

theorem isDigit_eq_false_of_isAlpha {c : Char} (alpha : c.isAlpha = true) : c.isDigit = false := by
  revert alpha
  simp only [Char.isAlpha, Char.isUpper, Char.isLower, Char.isDigit, UInt32.le_def, BitVec.le_def,
    Bool.or_eq_true, Bool.and_eq_true, decide_eq_true_eq, Bool.and_eq_false_iff,
    decide_eq_false_iff_not]
  simp
  omega

theorem readToken_badEscape {c : Char} (alpha : c.isAlpha = true) (unknown : escapeValue c = none)
    (notGroup : c ≠ 'g') (pos : Nat) :
    readToken false pos (.escape c) = .error (.badEscape c pos) := by
  have digit := isDigit_eq_false_of_isAlpha alpha
  have zero : c ≠ '0' := fun same => absurd (same ▸ digit) (by decide)
  simp only [readToken, takeToken, if_neg notGroup, if_neg zero, digit, unknown, alpha]
  rfl

theorem templateTokens_plain_append {front : Text} (plain : '\\' ∉ front) (rest : Text) :
    templateTokens (front ++ rest) =
      (front.map .plain ++ (templateTokens rest).1, (templateTokens rest).2) := by
  induction front with
  | nil => rfl
  | cons c front ih =>
      have other : c ≠ '\\' := fun same => plain (same ▸ List.mem_cons_self _ _)
      rw [List.cons_append, templateTokens_cons_of_ne _ other,
        ih fun inFront => plain (List.mem_cons_of_mem _ inFront)]
      rfl

theorem templateTokens_ne_nil (x y : Char) (rest : Text) :
    (templateTokens (x :: y :: rest)).1 ≠ [] := by
  by_cases backslash : x = '\\'
  · subst backslash
    simp [templateTokens]
  · simp [templateTokens_cons_of_ne _ backslash]

theorem parseTokens_badEscape (groups length : Nat) (badEnd : Bool) {c : Char}
    (alpha : c.isAlpha = true) (unknown : escapeValue c = none) (notGroup : c ≠ 'g')
    {more : List TemplateToken} (later : more ≠ []) (front : Text) (pos : Nat) :
    parseTokens groups length badEnd .ready pos (front.map .plain ++ .escape c :: more) =
      .error (.badEscape c (pos + front.length)) := by
  induction front generalizing pos with
  | nil =>
      have last : (badEnd && more.isEmpty) = false := by simp [later]
      have step : templateStep groups false .ready pos (.escape c) = .error (.badEscape c pos) :=
        readToken_badEscape alpha unknown notGroup pos
      simp only [List.map_nil, List.nil_append, parseTokens, last, step, bind, Except.bind,
        List.length_nil, Nat.add_zero]
  | cons d front ih =>
      have last : (badEnd && (front.map TemplateToken.plain ++ .escape c :: more).isEmpty) =
          false := by simp
      have step : templateStep groups false .ready pos (.plain d) = .ok ([.literal d], .ready) :=
        rfl
      simp only [List.map_cons, List.cons_append, parseTokens, List.append_eq, last, step,
        TemplateToken.width, bind, Except.bind, ih, List.length_cons]
      rw [Nat.add_comm front.length 1, ← Nat.add_assoc]

theorem parseTemplate_badEscape (groups : Nat) {front : Text} (plain : '\\' ∉ front) {c : Char}
    (alpha : c.isAlpha = true) (unknown : escapeValue c = none) (notGroup : c ≠ 'g')
    {rest : Text} (later : 2 ≤ rest.length) :
    parseTemplate groups (front ++ '\\' :: c :: rest) = .error (.badEscape c front.length) := by
  obtain ⟨x, y, rest, rfl⟩ : ∃ x y more, rest = x :: y :: more := by
    match rest, later with
    | x :: y :: more, _ => exact ⟨x, y, more, rfl⟩
  rw [parseTemplate, templateTokens_plain_append plain, templateTokens.eq_3, if_neg (by simp)]
  simpa using parseTokens_badEscape groups _ _ alpha unknown notGroup
    (templateTokens_ne_nil x y rest) front 0

end ConflictResolver
