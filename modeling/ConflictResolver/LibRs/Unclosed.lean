import ConflictResolver.LibRs.Output

/-!
Regions that no end marker closes: lines a second start marker cuts off leave no trace, and
without any end marker the declarations go after the leading `use` lines.
-/

namespace ConflictResolver

/-! ### Where an open region's lines go -/

/-- Whether the first line that begins with a start or a separator marker begins with a
separator marker: the lines read in an open region reach `extract_pub_mods` there. -/
def nextMarkerIsSeparator (lines : List Text) : Bool :=
  ((lines.find? fun line => startMarker.isPrefixOf line || separatorMarker.isPrefixOf line).map
    separatorMarker.isPrefixOf).getD false

theorem start_not_separator {line : Text} (start : startMarker.isPrefixOf line = true) :
    separatorMarker.isPrefixOf line = false := by
  obtain ⟨rest, rfl⟩ := List.isPrefixOf_iff_prefix.mp start
  rfl

theorem nextMarkerIsSeparator_start {line : Text} (start : startMarker.isPrefixOf line = true)
    (rest : List Text) : nextMarkerIsSeparator (line :: rest) = false := by
  simp [nextMarkerIsSeparator, start, start_not_separator start]

theorem nextMarkerIsSeparator_separator {line : Text}
    (separator : separatorMarker.isPrefixOf line = true) (rest : List Text) :
    nextMarkerIsSeparator (line :: rest) = true := by
  simp [nextMarkerIsSeparator, separator]

theorem nextMarkerIsSeparator_plain {line : Text} (notStart : startMarker.isPrefixOf line = false)
    (notSeparator : separatorMarker.isPrefixOf line = false) (rest : List Text) :
    nextMarkerIsSeparator (line :: rest) = nextMarkerIsSeparator rest := by
  simp [nextMarkerIsSeparator, notStart, notSeparator]

theorem exists_suffix_cons_iff {α : Type} {P : α → List α → Prop} {a : α} {rest : List α} :
    (∃ l back, l :: back <:+ a :: rest ∧ P l back) ↔
      P a rest ∨ ∃ l back, l :: back <:+ rest ∧ P l back := by
  simp [List.suffix_cons_iff, or_and_right, exists_or, and_assoc]

section Open

variable (w : WordClass)

theorem scanLines_plain_inside {state : ScanState} (inside : state.inConflict = true)
    {body : List Text} (plain : ∀ line ∈ body, IsPlainLine line) :
    scanLines w state body =
      { state with conflictSection := state.conflictSection ++ body.flatMap (· ++ ['\n']) } := by
  induction body generalizing state with
  | nil => simp [scanLines_nil]
  | cons line rest ih =>
      rw [scanLines_cons, scanLine_inside w (plain line (List.mem_cons_self _ _)) inside,
        @ih { state with conflictSection := state.conflictSection ++ line ++ ['\n'] } inside
          fun other member => plain other (List.mem_cons_of_mem _ member)]
      simp [List.append_assoc]

theorem scanLines_start_plain (state : ScanState) {start : Text}
    (opens : startMarker.isPrefixOf start = true) {body : List Text}
    (plain : ∀ line ∈ body, IsPlainLine line) :
    scanLines w state (start :: body) =
      { state with inConflict := true, conflictSection := body.flatMap (· ++ ['\n']) } := by
  rw [scanLines_cons, scanLine_start w opens, scanLines_plain_inside w rfl plain]
  rfl

theorem scanLines_unclosed_kept {post : List Text}
    (unclosed : ∀ line ∈ post, endMarker.isPrefixOf line = false) {state : ScanState}
    (inside : state.inConflict = true) :
    (scanLines w state post).resolvedLines = state.resolvedLines ∧
      (scanLines w state post).insertionPoint = state.insertionPoint := by
  induction post generalizing state with
  | nil => exact ⟨rfl, rfl⟩
  | cons line rest ih =>
      have later := fun other member => unclosed other (List.mem_cons_of_mem line member)
      rw [scanLines_cons]
      by_cases start : startMarker.isPrefixOf line = true
      · rw [scanLine_start w start]
        exact ih later rfl
      have notStart := Bool.eq_false_iff.mpr start
      by_cases separator : separatorMarker.isPrefixOf line = true
      · rw [scanLine_separator w notStart separator]
        exact ih later inside
      have plain : IsPlainLine line :=
        ⟨notStart, Bool.eq_false_iff.mpr separator, unclosed line (List.mem_cons_self _ _)⟩
      rw [scanLine_inside w plain inside]
      exact ih later inside

theorem scanLines_unclosed_collected {post : List Text}
    (unclosed : ∀ line ∈ post, endMarker.isPrefixOf line = false)
    (unbroken : ∀ line ∈ post, '\n' ∉ line) {state : ScanState}
    (inside : state.inConflict = true) (shape : EndsLine state.conflictSection) (x : Text) :
    x ∈ (scanLines w state post).allPubMods ↔
      x ∈ state.allPubMods ∨
        (x ∈ extractPubMods w state.conflictSection ∧ nextMarkerIsSeparator post = true) ∨
        ∃ line back, line :: back <:+ post ∧ IsPlainLine line ∧ lineDecl w line = some x ∧
          nextMarkerIsSeparator back = true := by
  induction post generalizing state with
  | nil => simp [scanLines_nil, nextMarkerIsSeparator]
  | cons line rest ih =>
      have later := fun other member => unclosed other (List.mem_cons_of_mem line member)
      have laterUnbroken := fun other member => unbroken other (List.mem_cons_of_mem line member)
      rw [scanLines_cons, exists_suffix_cons_iff]
      by_cases start : startMarker.isPrefixOf line = true
      · have notPlain : ¬ IsPlainLine line := fun plain => absurd plain.1 (by simp [start])
        rw [scanLine_start w start, @ih later laterUnbroken
          { state with inConflict := true, conflictSection := [] } rfl (Or.inl rfl),
          nextMarkerIsSeparator_start start]
        simp [extractPubMods_nil, notPlain]
      have notStart := Bool.eq_false_iff.mpr start
      by_cases separator : separatorMarker.isPrefixOf line = true
      · have notPlain : ¬ IsPlainLine line := fun plain => absurd plain.2.1 (by simp [separator])
        rw [scanLine_separator w notStart separator, @ih later laterUnbroken
          { state with
            allPubMods := state.allPubMods.update (extractPubMods w state.conflictSection)
            conflictSection := [] } inside (Or.inl rfl),
          nextMarkerIsSeparator_separator separator, PySet.mem_update]
        simp [extractPubMods_nil, notPlain, or_assoc]
      have notSeparator := Bool.eq_false_iff.mpr separator
      have plain : IsPlainLine line :=
        ⟨notStart, notSeparator, unclosed line (List.mem_cons_self _ _)⟩
      rw [scanLine_inside w plain inside, @ih later laterUnbroken
          { state with conflictSection := state.conflictSection ++ line ++ ['\n'] } inside
          (Or.inr (by simp)),
        nextMarkerIsSeparator_plain notStart notSeparator,
        mem_extractPubMods_append_line w shape (unbroken line (List.mem_cons_self _ _))]
      simp only [plain, true_and, or_and_right, or_assoc]

end Open

/-! ### What a region cut off leaves -/

section Cut

variable (w : WordClass) (iter : SetIter) (filePath : Text)

theorem resolveLibrsConflict_congr {raw other : Text}
    (marked : containsText startMarker (readText raw) = true)
    (markedOther : containsText startMarker (readText other) = true)
    (kept : (librsScan w (readText raw)).resolvedLines =
      (librsScan w (readText other)).resolvedLines)
    (collected : (librsScan w (readText raw)).allPubMods =
      (librsScan w (readText other)).allPubMods)
    (point : (librsScan w (readText raw)).insertionPoint =
      (librsScan w (readText other)).insertionPoint) :
    resolveLibrsConflict w iter filePath (some raw) =
      resolveLibrsConflict w iter filePath (some other) := by
  simp only [resolveLibrsConflict, marked, markedOther, Bool.not_true, Bool.false_eq_true,
    if_false]
  generalize librsScan w (readText raw) = first at *
  generalize librsScan w (readText other) = second at *
  cases first
  cases second
  cases kept
  cases collected
  cases point
  rfl

/-- The lines of a region that the next start marker or the end of the file cuts off before a
separator or an end marker change nothing, declarations included: the run over the file is
the run over the file without them. -/
theorem resolveLibrsConflict_abandoned {raw trimmed start : Text} {pre body rest : List Text}
    (lines : textLines raw = pre ++ start :: (body ++ rest))
    (without : textLines trimmed = pre ++ start :: rest)
    (opens : startMarker.isPrefixOf start = true) (plain : ∀ line ∈ body, IsPlainLine line)
    (cut : ∀ next ∈ rest.head?, startMarker.isPrefixOf next = true) :
    resolveLibrsConflict w iter filePath (some raw) =
      resolveLibrsConflict w iter filePath (some trimmed) := by
  have marked := marked_of_startMarker raw (by rw [lines]; simp) opens
  have markedTrimmed := marked_of_startMarker trimmed (by rw [without]; simp) opens
  have scanRaw : librsScan w (readText raw) =
      scanLines w { scanLines w ScanState.initial pre with
        inConflict := true, conflictSection := body.flatMap (· ++ ['\n']) } rest := by
    show scanLines w ScanState.initial (textLines raw) = _
    rw [lines, scanLines_append, ← List.cons_append, scanLines_append,
      scanLines_start_plain w _ opens plain]
  have scanTrimmed : librsScan w (readText trimmed) =
      scanLines w { scanLines w ScanState.initial pre with
        inConflict := true, conflictSection := [] } rest := by
    show scanLines w ScanState.initial (textLines trimmed) = _
    rw [without, scanLines_append, scanLines_cons, scanLine_start w opens]
  cases rest with
  | nil =>
      exact resolveLibrsConflict_congr w iter filePath marked markedTrimmed
        (by rw [scanRaw, scanTrimmed]; rfl) (by rw [scanRaw, scanTrimmed]; rfl)
        (by rw [scanRaw, scanTrimmed]; rfl)
  | cons next post =>
      have same : librsScan w (readText raw) = librsScan w (readText trimmed) := by
        rw [scanRaw, scanTrimmed, scanLines_cons, scanLines_cons,
          scanLine_start w (cut next rfl), scanLine_start w (cut next rfl)]
      exact resolveLibrsConflict_congr w iter filePath marked markedTrimmed
        (by rw [same]) (by rw [same]) (by rw [same])

/-- A region whose ours lines a second start marker cuts off. -/
def nestedStartLibrs : Text :=
  "use a;\n<<<<<<< x\npub mod b;\nfn f() {}\n<<<<<<< y\npub mod c;\n=======\n>>>>>>> z\n".toList

/-- The same file without the lines the second start marker cuts off. -/
def nestedStartTrimmed : Text :=
  "use a;\n<<<<<<< x\n<<<<<<< y\npub mod c;\n=======\n>>>>>>> z\n".toList

theorem nested_start_drops_lines :
    resolveLibrsConflict WordClass.ascii SetIter.stored "src/lib.rs".toList
        (some nestedStartLibrs) =
      resolveLibrsConflict WordClass.ascii SetIter.stored "src/lib.rs".toList
        (some nestedStartTrimmed) :=
  @resolveLibrsConflict_abandoned WordClass.ascii SetIter.stored "src/lib.rs".toList
    nestedStartLibrs nestedStartTrimmed "<<<<<<< x".toList ["use a;".toList]
    ["pub mod b;".toList, "fn f() {}".toList]
    ["<<<<<<< y".toList, "pub mod c;".toList, "=======".toList, ">>>>>>> z".toList, []]
    (by decide) (by decide) (by decide) (by decide) (by rintro _ ⟨⟩; decide)

end Cut

/-! ### A region that no end marker closes -/

section Tail

variable (w : WordClass)

theorem librsScan_opened {content start : Text} {pre post : List Text}
    (lines : splitLines content = pre ++ start :: post)
    (opens : startMarker.isPrefixOf start = true) :
    librsScan w content = scanLines w { scanLines w ScanState.initial pre with
      inConflict := true, conflictSection := [] } post := by
  rw [librsScan, lines, scanLines_append, scanLines_cons, scanLine_start w opens]

theorem librsScan_unclosed_kept {content start : Text} {pre post : List Text}
    (lines : splitLines content = pre ++ start :: post)
    (opens : startMarker.isPrefixOf start = true)
    (unclosed : ∀ line ∈ post, endMarker.isPrefixOf line = false) :
    (librsScan w content).resolvedLines = (scanLines w ScanState.initial pre).resolvedLines ∧
      (librsScan w content).insertionPoint = (scanLines w ScanState.initial pre).insertionPoint := by
  rw [librsScan_opened w lines opens]
  exact scanLines_unclosed_kept w unclosed rfl

/-- After a start marker that no end marker follows, the loop keeps no more lines and records no
insertion point; besides what it collected before that marker, it collects the declarations
of the lines that a separator line follows before the next start marker. -/
theorem librsScan_unclosed {content start : Text} {pre post : List Text}
    (lines : splitLines content = pre ++ start :: post)
    (opens : startMarker.isPrefixOf start = true)
    (unclosed : ∀ line ∈ post, endMarker.isPrefixOf line = false) :
    (librsScan w content).resolvedLines = (scanLines w ScanState.initial pre).resolvedLines ∧
      (librsScan w content).insertionPoint = (scanLines w ScanState.initial pre).insertionPoint ∧
      ∀ x, x ∈ (librsScan w content).allPubMods ↔
        x ∈ (scanLines w ScanState.initial pre).allPubMods ∨
          ∃ line back, line :: back <:+ post ∧ IsPlainLine line ∧ lineDecl w line = some x ∧
            nextMarkerIsSeparator back = true := by
  obtain ⟨kept, point⟩ := librsScan_unclosed_kept w lines opens unclosed
  refine ⟨kept, point, fun x => ?_⟩
  rw [librsScan_opened w lines opens, scanLines_unclosed_collected w unclosed
    (fun line member => newline_not_mem_of_mem_splitLines (by rw [lines]; simp [member]))
    rfl (Or.inl rfl) x]
  simp [extractPubMods_nil]

/-- A region opened after `use a;` and never closed, with a declaration on each side of its
separator. -/
def unclosedLibrs : Text := "use a;\n<<<<<<< x\npub mod b;\n=======\npub mod c;\n".toList

theorem unclosed_keeps_separated :
    (librsScan WordClass.ascii unclosedLibrs).resolvedLines =
        (scanLines WordClass.ascii ScanState.initial ["use a;".toList]).resolvedLines ∧
      (librsScan WordClass.ascii unclosedLibrs).insertionPoint =
        (scanLines WordClass.ascii ScanState.initial ["use a;".toList]).insertionPoint ∧
      ∀ x, x ∈ (librsScan WordClass.ascii unclosedLibrs).allPubMods ↔
        x ∈ (scanLines WordClass.ascii ScanState.initial ["use a;".toList]).allPubMods ∨
          ∃ line back,
            line :: back <:+ ["pub mod b;".toList, "=======".toList, "pub mod c;".toList, []] ∧
            IsPlainLine line ∧ lineDecl WordClass.ascii line = some x ∧
            nextMarkerIsSeparator back = true :=
  @librsScan_unclosed WordClass.ascii _ "<<<<<<< x".toList ["use a;".toList]
    ["pub mod b;".toList, "=======".toList, "pub mod c;".toList, []] (by decide) (by decide)
    (by decide)

end Tail

/-! ### The fallback insertion point -/

/-- A `use` line, once stripped. -/
def isUseLine (line : Text) : Bool := "use ".toList.isPrefixOf (strip line)

/-- A line the scan for `insert_at` passes over: a `use` line, a blank line, a `//` comment or
a `#` attribute, once stripped. -/
def isHeadLine (line : Text) : Bool :=
  isUseLine line || (strip line).isEmpty || "//".toList.isPrefixOf (strip line) ||
    "#".toList.isPrefixOf (strip line)

/-- One past the last `use` line among the head lines a list of lines begins with: those head
lines without the ones after their last `use` line. -/
def useBlockEnd (lines : List Text) : Nat :=
  ((lines.takeWhile isHeadLine).rdropWhile fun line => !isUseLine line).length

theorem length_rdropWhile_cons {α : Type} (p : α → Bool) (x : α) (xs : List α) :
    (List.rdropWhile p (x :: xs)).length =
      if (List.rdropWhile p xs).length = 0 then (if p x then 0 else 1)
      else (List.rdropWhile p xs).length + 1 := by
  simp only [List.rdropWhile, List.reverse_cons, List.length_reverse, List.dropWhile_append,
    List.isEmpty_iff_length_eq_zero]
  split
  · simp only [List.dropWhile_cons, List.dropWhile_nil]
    split <;> rfl
  · simp

theorem useBlockEnd_cons (line : Text) (rest : List Text) :
    useBlockEnd (line :: rest) =
      if isUseLine line then useBlockEnd rest + 1
      else if isHeadLine line then (if useBlockEnd rest = 0 then 0 else useBlockEnd rest + 1)
      else 0 := by
  by_cases head : isHeadLine line = true
  · simp only [useBlockEnd, List.takeWhile_cons, head, if_true, length_rdropWhile_cons]
    by_cases use : isUseLine line = true
    · simp only [use, Bool.not_true, Bool.false_eq_true, if_true, if_false]
      split <;> omega
    · simp [use]
  · have notUse : isUseLine line = false := by
      simp only [isHeadLine, Bool.or_eq_true, not_or] at head
      exact Bool.eq_false_iff.mpr head.1.1.1
    simp [useBlockEnd, List.takeWhile_cons, head, notUse]

theorem afterUseLines_eq (index found : Nat) (lines : List Text) :
    afterUseLines index found lines =
      if useBlockEnd lines = 0 then found else index + useBlockEnd lines := by
  induction lines generalizing index found with
  | nil => rfl
  | cons line rest ih =>
      rw [afterUseLines, useBlockEnd_cons]
      by_cases use : isUseLine line = true
      · have first : "use ".toList.isPrefixOf (strip line) = true := use
        rw [if_pos first, if_pos use, ih, if_neg (Nat.succ_ne_zero _)]
        split <;> omega
      · have notUse := Bool.eq_false_iff.mpr use
        have first : "use ".toList.isPrefixOf (strip line) = false := notUse
        have code : (!(strip line).isEmpty && !"//".toList.isPrefixOf (strip line) &&
            !"#".toList.isPrefixOf (strip line)) = !isHeadLine line := by
          simp only [isHeadLine, notUse, Bool.false_or, Bool.not_or]
        rw [first, code, if_neg use]
        by_cases head : isHeadLine line = true
        · simp only [head, Bool.not_true, Bool.false_eq_true, if_false, if_true, ih]
          by_cases empty : useBlockEnd rest = 0
          · simp [empty]
          · simp only [empty, if_false, Nat.add_eq_zero_iff, one_ne_zero, and_false]
            omega
        · simp [head]

theorem afterUseLines_zero (lines : List Text) : afterUseLines 0 0 lines = useBlockEnd lines := by
  rw [afterUseLines_eq]
  split <;> omega

section Head

variable (w : WordClass)

theorem scanLines_head {pre : List Text}
    (before : ∀ line ∈ pre, startMarker.isPrefixOf line = false ∧
      endMarker.isPrefixOf line = false ∧ lineDecl w line = none)
    {state : ScanState} (outside : state.inConflict = false)
    (cleared : state.conflictSection = []) :
    scanLines w state pre = { state with resolvedLines :=
      state.resolvedLines ++ (pre.filter fun line => !separatorMarker.isPrefixOf line) } := by
  induction pre generalizing state with
  | nil => simp [scanLines_nil]
  | cons line rest ih =>
      obtain ⟨notStart, notEnd, none⟩ := before line (List.mem_cons_self _ _)
      have later := fun other member => before other (List.mem_cons_of_mem line member)
      rw [scanLines_cons]
      by_cases separator : separatorMarker.isPrefixOf line = true
      · have same : { state with
            allPubMods := state.allPubMods.update (extractPubMods w state.conflictSection)
            conflictSection := [] } = state := by
          cases state
          cases cleared
          rfl
        rw [scanLine_separator w notStart separator, same, ih later outside cleared]
        simp [separator]
      · have plain : IsPlainLine line := ⟨notStart, Bool.eq_false_iff.mpr separator, notEnd⟩
        rw [scanLine_outsideKept w plain outside none, @ih later
          { state with resolvedLines := state.resolvedLines ++ [line] } outside cleared]
        simp [separator]

variable (iter : SetIter) (filePath : Text)

/-- When no line ends a region and no line before the first start marker declares, the loop
records no insertion point: the declarations it collects go after the last `use` line of the
head lines the kept lines begin with, or first when there is none, blank lines aside. -/
theorem resolveLibrsConflict_fallback_point {raw start : Text} {pre post : List Text}
    (lines : textLines raw = pre ++ start :: post)
    (opens : startMarker.isPrefixOf start = true)
    (before : ∀ line ∈ pre, startMarker.isPrefixOf line = false ∧ lineDecl w line = none)
    (unclosed : ∀ line ∈ pre ++ post, endMarker.isPrefixOf line = false) (output : Text)
    (written : (resolveLibrsConflict w iter filePath (some raw)).file = some output) :
    (librsScan w (readText raw)).insertionPoint = none ∧
    ∃ above below, textLines output =
        above ++ sortedPubMods w iter (librsScan w (readText raw)) ++ below ∧
      above.filter (fun line => !line.isEmpty) =
        ((pre.filter fun line => !separatorMarker.isPrefixOf line).take
          (useBlockEnd (pre.filter fun line => !separatorMarker.isPrefixOf line))).filter
          (fun line => !line.isEmpty) ∧
      below.filter (fun line => !line.isEmpty) =
        ((pre.filter fun line => !separatorMarker.isPrefixOf line).drop
          (useBlockEnd (pre.filter fun line => !separatorMarker.isPrefixOf line))).filter
          (fun line => !line.isEmpty) := by
  have marked := marked_of_startMarker raw (by rw [lines]; simp) opens
  rw [resolveLibrsConflict_marked w iter filePath raw marked] at written
  cases Option.some.inj written
  have stored := librsScan_stored w (return_not_mem_readText raw)
  have head := @scanLines_head w pre (fun line member => ⟨(before line member).1,
    unclosed line (List.mem_append_left _ member), (before line member).2⟩) ScanState.initial
    rfl rfl
  obtain ⟨kept, point⟩ := librsScan_unclosed_kept w lines opens
    fun line member => unclosed line (List.mem_append_right _ member)
  rw [head] at kept point
  have insert : insertAt (librsScan w (readText raw)) =
      useBlockEnd (pre.filter fun line => !separatorMarker.isPrefixOf line) := by
    rw [insertAt, point, kept]
    simp only [ScanState.initial, List.nil_append, Option.getD_none, afterUseLines_zero]
  rw [textLines_resolvedText w iter stored]
  obtain ⟨above, below, split, aboveLines, belowLines⟩ :=
    splitLines_resolvedText_around w iter stored
  rw [insert, kept] at aboveLines belowLines
  exact ⟨by rw [point]; rfl, above, below, split, aboveLines, belowLines⟩

/-- A file whose only region never closes, after a comment, two `use` lines and code. -/
def headedUnclosedLibrs : Text :=
  "// top\nuse a;\n\nuse b;\nfn x() {}\n<<<<<<< o\npub mod m;\n=======\npub mod n;\n".toList

/-- The lines of `headedUnclosedLibrs` before its start marker. -/
def headedUnclosedHead : List Text :=
  ["// top".toList, "use a;".toList, [], "use b;".toList, "fn x() {}".toList]

theorem headed_unclosed_point :
    (librsScan WordClass.ascii (readText headedUnclosedLibrs)).insertionPoint = none ∧
    ∃ above below, textLines "// top\nuse a;\n\nuse b;\npub mod m;\nfn x() {}\n".toList =
        above ++ sortedPubMods WordClass.ascii SetIter.stored
          (librsScan WordClass.ascii (readText headedUnclosedLibrs)) ++ below ∧
      above.filter (fun line => !line.isEmpty) =
        ((headedUnclosedHead.filter fun line => !separatorMarker.isPrefixOf line).take
          (useBlockEnd (headedUnclosedHead.filter fun line =>
            !separatorMarker.isPrefixOf line))).filter (fun line => !line.isEmpty) ∧
      below.filter (fun line => !line.isEmpty) =
        ((headedUnclosedHead.filter fun line => !separatorMarker.isPrefixOf line).drop
          (useBlockEnd (headedUnclosedHead.filter fun line =>
            !separatorMarker.isPrefixOf line))).filter (fun line => !line.isEmpty) :=
  @resolveLibrsConflict_fallback_point WordClass.ascii SetIter.stored "src/lib.rs".toList
    headedUnclosedLibrs "<<<<<<< o".toList headedUnclosedHead
    ["pub mod m;".toList, "=======".toList, "pub mod n;".toList, []]
    (by decide) (by decide) (by decide) (by decide) _ (by decide)

end Head

end ConflictResolver
