import ConflictResolver.LibRs.Regions

/-!
The loop of `resolve_librs_conflict` read against the region scan, one segment at a time
(`RunEffect`), and the invariant `ScanState.Stored` over every run.
-/

namespace ConflictResolver

/-! ### Marker lines declare nothing -/

theorem head_of_matchPubMod {w : WordClass} {text decl : Text}
    (matched : matchPubMod w text = some decl) : text.head? = some 'p' := by
  obtain ⟨grammar, pre⟩ := matchPubMod_eq_some_iff.mp matched
  obtain ⟨rest, rfl⟩ := grammar.starts_pub.trans pre
  rfl

theorem lineDecl_eq_none_of_head (w : WordClass) {line : Text} {c : Char}
    (head : line.head? = some c) (notSpace : isSpace c = false) (notPub : c ≠ 'p') :
    lineDecl w line = none := by
  obtain ⟨rest, rfl⟩ : ∃ rest, line = c :: rest := by
    cases line with
    | nil => cases head
    | cons x rest => exact ⟨rest, by simpa using head⟩
  cases matched : lineDecl w (c :: rest) with
  | none => rfl
  | some decl =>
      have pHead := head_of_matchPubMod matched
      obtain ⟨suffix, whole⟩ := List.rdropWhile_prefix (p := isSpace) (l := c :: rest)
      have front : (c :: rest).dropWhile isSpace = c :: rest := by simp [notSpace]
      simp only [strip, front] at pHead
      cases stripped : (c :: rest).rdropWhile isSpace with
      | nil => simp [stripped] at pHead
      | cons x more =>
          rw [stripped] at whole pHead
          simp only [List.cons_append, List.cons.injEq] at whole
          simp only [List.head?_cons, Option.some.injEq] at pHead
          exact absurd (whole.1 ▸ pHead) notPub

theorem lineDecl_of_isPrefixOf (w : WordClass) {marker line : Text} {c : Char}
    (head : marker.head? = some c) (notSpace : isSpace c = false) (notPub : c ≠ 'p')
    (pre : marker.isPrefixOf line = true) : lineDecl w line = none := by
  obtain ⟨rest, rfl⟩ := List.isPrefixOf_iff_prefix.mp pre
  cases marker with
  | nil => cases head
  | cons x tail =>
      cases Option.some.inj head
      exact lineDecl_eq_none_of_head w rfl notSpace notPub

theorem lineDecl_of_startMarker (w : WordClass) {line : Text}
    (start : startMarker.isPrefixOf line = true) : lineDecl w line = none :=
  @lineDecl_of_isPrefixOf w startMarker _ _ rfl (by decide) (by decide) start

theorem lineDecl_of_separatorMarker (w : WordClass) {line : Text}
    (separator : separatorMarker.isPrefixOf line = true) : lineDecl w line = none :=
  @lineDecl_of_isPrefixOf w separatorMarker _ _ rfl (by decide) (by decide) separator

theorem lineDecl_of_endMarker (w : WordClass) {line : Text}
    (finish : endMarker.isPrefixOf line = true) : lineDecl w line = none :=
  @lineDecl_of_isPrefixOf w endMarker _ _ rfl (by decide) (by decide) finish

theorem separator_not_start_or_end {line : Text}
    (separator : separatorMarker.isPrefixOf line = true) :
    startMarker.isPrefixOf line = false ∧ endMarker.isPrefixOf line = false := by
  obtain ⟨rest, rfl⟩ := List.isPrefixOf_iff_prefix.mp separator
  exact ⟨rfl, rfl⟩

theorem end_not_start_or_separator {line : Text} (finish : endMarker.isPrefixOf line = true) :
    startMarker.isPrefixOf line = false ∧ separatorMarker.isPrefixOf line = false := by
  obtain ⟨rest, rfl⟩ := List.isPrefixOf_iff_prefix.mp finish
  exact ⟨rfl, rfl⟩

/-! ### The conflict section -/

theorem lineDecl_nil (w : WordClass) : lineDecl w [] = none := rfl

theorem extractPubMods_nil (w : WordClass) : extractPubMods w [] = [] := rfl

theorem splitLines_of_plain {line : Text} (plain : '\n' ∉ line) : splitLines line = [line] :=
  List.splitOnP_eq_single _ _ fun _ member same => plain (beq_iff_eq.mp same ▸ member)

theorem mem_extractPubMods_append_line (w : WordClass) {text line : Text}
    (shape : EndsLine text) (plain : '\n' ∉ line) {decl : Text} :
    decl ∈ extractPubMods w (text ++ line ++ ['\n']) ↔
      decl ∈ extractPubMods w text ∨ lineDecl w line = some decl := by
  have lineThenNewline : splitLines (line ++ ['\n']) = [line, []] := by
    rw [splitLines_append_newline, splitLines_of_plain plain]; rfl
  rcases shape.cases with rfl | ⟨front, rfl⟩
  · simp [extractPubMods, lineThenNewline, lineDecl_nil]
  · have joined : front ++ ['\n'] ++ line ++ ['\n'] = front ++ '\n' :: (line ++ ['\n']) := by simp
    simp only [extractPubMods, joined, splitLines_append_newline, lineThenNewline,
      List.filterMap_append, List.mem_append, List.filterMap_cons, lineDecl_nil,
      List.filterMap_nil]
    cases lineDecl w line <;> simp [lineDecl_nil, eq_comm]

/-! ### Inside a region -/

/-- A pending declaration: collected already, or still in `conflict_section`. -/
def ScanState.Pending (w : WordClass) (state : ScanState) (decl : Text) : Prop :=
  decl ∈ state.allPubMods ∨ decl ∈ extractPubMods w state.conflictSection

section Body

variable (w : WordClass)

theorem scanLines_body {body : List Text}
    (between : ∀ line ∈ body, startMarker.isPrefixOf line = false ∧
      endMarker.isPrefixOf line = false)
    (plain : ∀ line ∈ body, '\n' ∉ line) {state : ScanState}
    (inside : state.inConflict = true) (shape : EndsLine state.conflictSection) :
    (scanLines w state body).inConflict = true ∧
      (scanLines w state body).resolvedLines = state.resolvedLines ∧
      (scanLines w state body).insertionPoint = state.insertionPoint ∧
      EndsLine (scanLines w state body).conflictSection ∧
      ∀ decl, (scanLines w state body).Pending w decl ↔
        state.Pending w decl ∨ decl ∈ body.filterMap (lineDecl w) := by
  induction body generalizing state with
  | nil => exact ⟨inside, rfl, rfl, shape, by simp [scanLines_nil]⟩
  | cons line rest ih =>
      obtain ⟨notStart, notEnd⟩ := between line (List.mem_cons_self _ _)
      have restBetween := fun l member => between l (List.mem_cons_of_mem line member)
      have restPlain := fun l member => plain l (List.mem_cons_of_mem line member)
      rw [scanLines_cons]
      by_cases separator : separatorMarker.isPrefixOf line = true
      · rw [scanLine_separator w notStart separator]
        obtain ⟨open', kept, point, shape', pending⟩ :=
          @ih restBetween restPlain { state with
            allPubMods := state.allPubMods.update (extractPubMods w state.conflictSection)
            conflictSection := [] } inside (Or.inl rfl)
        refine ⟨open', kept, point, shape', fun decl => ?_⟩
        rw [pending]
        simp [ScanState.Pending, PySet.mem_update, extractPubMods_nil,
          lineDecl_of_separatorMarker w separator, or_assoc]
      · have plainLine : IsPlainLine line := ⟨notStart, Bool.eq_false_iff.mpr separator, notEnd⟩
        rw [scanLine_inside w plainLine inside]
        obtain ⟨open', kept, point, shape', pending⟩ :=
          @ih restBetween restPlain
            { state with conflictSection := state.conflictSection ++ line ++ ['\n'] } inside
            (Or.inr (by simp))
        refine ⟨open', kept, point, shape', fun decl => ?_⟩
        rw [pending]
        simp only [ScanState.Pending, mem_extractPubMods_append_line w shape
          (plain line (List.mem_cons_self _ _)), List.filterMap_cons]
        cases lineDecl w line <;> simp [eq_comm, or_assoc, or_left_comm]

end Body

/-! ### Segment by segment -/

/-- The lines of a segment the loop appends to `resolved_lines`: an outside line that is no
separator, end marker or declaration. -/
def Segment.kept (w : WordClass) : Segment → List Text
  | .outside line =>
      if separatorMarker.isPrefixOf line || endMarker.isPrefixOf line || (lineDecl w line).isSome
      then [] else [line]
  | .region .. => []

/-- What the loop adds to `all_pub_mods` for a segment: the whole stripped line for an outside
declaration, and what `extract_pub_mods` takes from a region's lines. -/
def Segment.collected (w : WordClass) : Segment → List Text
  | .outside line =>
      if separatorMarker.isPrefixOf line || endMarker.isPrefixOf line then []
      else if (lineDecl w line).isSome then [strip line] else []
  | .region _ ours theirs _ => (regionBody ours theirs).filterMap (lineDecl w)

/-- Whether the loop records `pub_mods_insertion_point` at a segment: at every end marker,
and at an outside declaration. -/
def Segment.marks (w : WordClass) : Segment → Bool
  | .outside line =>
      !separatorMarker.isPrefixOf line && (endMarker.isPrefixOf line || (lineDecl w line).isSome)
  | .region .. => true

/-- `pub_mods_insertion_point` after the segments, from `current` with `count` kept lines. -/
def pointAfter (w : WordClass) (current : Option Nat) (count : Nat) : List Segment → Option Nat
  | [] => current
  | segment :: rest =>
      pointAfter w (if segment.marks w then some (current.getD count) else current)
        (count + (segment.kept w).length) rest

/-- How reading some segments from outside every region changes the loop's state. -/
structure RunEffect (w : WordClass) (segments : List Segment) (before after : ScanState) :
    Prop where
  outside : after.inConflict = false
  cleared : after.conflictSection = []
  kept : after.resolvedLines = before.resolvedLines ++ segments.flatMap (Segment.kept w)
  point : after.insertionPoint =
    pointAfter w before.insertionPoint before.resolvedLines.length segments
  collected : ∀ x, x ∈ after.allPubMods ↔
    x ∈ before.allPubMods ∨ x ∈ segments.flatMap (Segment.collected w)

section Segments

variable (w : WordClass) {state : ScanState}

theorem scanLines_outside {line : Text} (notStart : startMarker.isPrefixOf line = false)
    (outside : state.inConflict = false) (cleared : state.conflictSection = []) :
    RunEffect w [.outside line] state (scanLines w state [line]) := by
  rw [scanLines_cons, scanLines_nil]
  by_cases separator : separatorMarker.isPrefixOf line = true
  · rw [scanLine_separator w notStart separator]
    exact ⟨outside, rfl, by simp [Segment.kept, separator], by simp [pointAfter, Segment.marks,
      separator], fun x => by simp [Segment.collected, separator, cleared, PySet.mem_update,
        extractPubMods_nil]⟩
  · have notSeparator := Bool.eq_false_iff.mpr separator
    by_cases finish : endMarker.isPrefixOf line = true
    · rw [scanLine_end w notStart notSeparator finish]
      exact ⟨rfl, rfl, by simp [Segment.kept, finish], by simp [pointAfter, Segment.marks,
        notSeparator, finish], fun x => by simp [Segment.collected, finish, cleared,
          PySet.mem_update, extractPubMods_nil]⟩
    · have plain : IsPlainLine line := ⟨notStart, notSeparator, Bool.eq_false_iff.mpr finish⟩
      cases matched : lineDecl w line with
      | none =>
          rw [scanLine_outsideKept w plain outside matched]
          exact ⟨outside, cleared, by simp [Segment.kept, plain.2.1, plain.2.2, matched],
            by simp [pointAfter, Segment.marks, plain.2.1, plain.2.2, matched],
            fun x => by simp [Segment.collected, plain.2.1, plain.2.2, matched]⟩
      | some decl =>
          rw [scanLine_outsideDecl w plain outside matched]
          exact ⟨outside, cleared, by simp [Segment.kept, plain.2.1, plain.2.2, matched],
            by simp [pointAfter, Segment.marks, plain.2.1, plain.2.2, matched],
            fun x => by simp [Segment.collected, plain.2.1, plain.2.2, matched, PySet.mem_add, or_comm]⟩

theorem scanLines_region {startLine endLine : Text} {ours : List Text}
    {theirs : Option (Text × List Text)} (valid : (Segment.region startLine ours theirs endLine).Valid)
    (plain : ∀ line ∈ regionBody ours theirs, '\n' ∉ line) :
    RunEffect w [.region startLine ours theirs endLine] state
      (scanLines w state (startLine :: regionBody ours theirs ++ [endLine])) := by
  obtain ⟨start, finish, oursPlain, theirsLines⟩ := valid
  have between : ∀ line ∈ regionBody ours theirs,
      startMarker.isPrefixOf line = false ∧ endMarker.isPrefixOf line = false := by
    intro line member
    cases theirs with
    | none => exact ⟨(oursPlain line member).1, (oursPlain line member).2.2⟩
    | some part =>
        obtain ⟨separator, rest⟩ := part
        obtain ⟨separatorLine, restLines⟩ := theirsLines _ rfl
        simp only [regionBody, List.mem_append, List.mem_cons] at member
        rcases member with inOurs | rfl | inRest
        · exact ⟨(oursPlain line inOurs).1, (oursPlain line inOurs).2.2⟩
        · exact separator_not_start_or_end separatorLine
        · exact restLines line inRest
  rw [scanLines_append, scanLines_cons w state, scanLine_start w start]
  obtain ⟨inside, kept, point, -, pending⟩ :=
    @scanLines_body w _ between plain { state with inConflict := true, conflictSection := [] }
      rfl (Or.inl rfl)
  obtain ⟨notStart, notSeparator⟩ := end_not_start_or_separator finish
  rw [scanLines_cons, scanLines_nil, scanLine_end w notStart notSeparator finish]
  refine ⟨rfl, rfl, by simp [kept, Segment.kept], by simp [pointAfter, Segment.marks, point,
    kept], fun x => ?_⟩
  rw [PySet.mem_update]
  exact (pending x).trans (by simp [ScanState.Pending, extractPubMods_nil, Segment.collected])

theorem RunEffect.cons {segment : Segment} {rest : List Segment} {middle after : ScanState}
    (first : RunEffect w [segment] state middle) (later : RunEffect w rest middle after) :
    RunEffect w (segment :: rest) state after :=
  ⟨later.outside, later.cleared, by simp [later.kept, first.kept],
    by simp [later.point, first.point, first.kept, pointAfter],
    fun x => by simp [later.collected, first.collected, or_assoc]⟩

theorem scanLines_run {segments : List Segment} (valid : ∀ segment ∈ segments, segment.Valid)
    (plain : ∀ line ∈ segments.flatMap Segment.lines, '\n' ∉ line)
    (outside : state.inConflict = false) (cleared : state.conflictSection = []) :
    RunEffect w segments state (scanLines w state (segments.flatMap Segment.lines)) := by
  induction segments generalizing state with
  | nil => exact ⟨outside, cleared, by simp [scanLines_nil], rfl, by simp [scanLines_nil]⟩
  | cons segment rest ih =>
      rw [List.flatMap_cons, scanLines_append]
      have first : RunEffect w [segment] state (scanLines w state segment.lines) := by
        cases segment with
        | outside line => exact scanLines_outside w (valid _ (List.mem_cons_self _ _)) outside cleared
        | region startLine ours theirs endLine =>
            exact scanLines_region w (valid _ (List.mem_cons_self _ _))
              fun line member => plain line (by simp [Segment.lines, member])
      exact first.cons w (ih (fun other member => valid other (List.mem_cons_of_mem _ member))
        (fun line member => plain line (by simp [member])) first.outside first.cleared)

theorem librsScan_effect {content : Text} (wellFormed : regionsWellFormed (splitLines content)) :
    RunEffect w (segmentsOf (splitLines content)) ScanState.initial (librsScan w content) := by
  obtain ⟨whole, valid⟩ := segmentsOf_sound wellFormed
  have run := @scanLines_run w ScanState.initial _ valid
    (fun line member => newline_not_mem_of_mem_splitLines (by rw [whole]; exact member)) rfl rfl
  rw [← whole] at run
  exact run

end Segments

/-! ### What the loop stores, over any lines -/

/-- A text with no line break of either kind. -/
def Unbroken (text : Text) : Prop := '\n' ∉ text ∧ '\r' ∉ text

theorem Unbroken.of_contained {piece text : Text} (inside : piece <:+: text) (unbroken : Unbroken text) :
    Unbroken piece :=
  ⟨fun member => unbroken.1 (inside.subset member), fun member => unbroken.2 (inside.subset member)⟩

/-- What the loop only ever stores, whatever shape the regions have: kept lines of `source` that
are no marker and declare nothing, collected texts that declare, and no carriage return. -/
structure ScanState.Stored (w : WordClass) (source : List Text) (state : ScanState) : Prop where
  kept : ∀ line ∈ state.resolvedLines,
    line ∈ source ∧ IsPlainLine line ∧ lineDecl w line = none ∧ Unbroken line
  collected : ∀ x ∈ state.allPubMods, (lineDecl w x).isSome ∧ Unbroken x
  pending : '\r' ∉ state.conflictSection

section Stored

variable (w : WordClass) {source : List Text} {state : ScanState}

theorem ScanState.stored_initial : ScanState.initial.Stored w source :=
  ⟨fun _ member => absurd member (List.not_mem_nil _),
    fun x member => absurd member (PySet.not_mem_empty x), List.not_mem_nil _⟩

theorem ScanState.Stored.update (stored : state.Stored w source) :
    ∀ x ∈ state.allPubMods.update (extractPubMods w state.conflictSection),
      (lineDecl w x).isSome ∧ Unbroken x := by
  intro x member
  rcases PySet.mem_update.mp member with old | new
  · exact stored.collected x old
  · obtain ⟨declares, line, inSection, inside⟩ := mem_extractPubMods new
    refine ⟨by simp [declares], Unbroken.of_contained inside ⟨newline_not_mem_of_mem_splitLines
      inSection, fun returned => stored.pending (mem_of_mem_splitLines inSection returned)⟩⟩

theorem scanLine_stored {line : Text} (stored : state.Stored w source) (fromSource : line ∈ source)
    (unbroken : Unbroken line) : (scanLine w state line).Stored w source := by
  rcases scanLine_cases w state line with same | same | same | same | ⟨declares, same⟩ |
      ⟨plain, unmatched, same⟩ <;> rw [same]
  · exact ⟨stored.kept, stored.collected, List.not_mem_nil _⟩
  · exact ⟨stored.kept, stored.update w, List.not_mem_nil _⟩
  · exact ⟨stored.kept, stored.update w, List.not_mem_nil _⟩
  · exact ⟨stored.kept, stored.collected, by simp [stored.pending, unbroken.2]⟩
  · refine ⟨stored.kept, fun x member => ?_, stored.pending⟩
    rcases PySet.mem_add.mp member with rfl | old
    · exact ⟨by rw [lineDecl_strip]; exact declares, unbroken.of_contained (strip_contained line)⟩
    · exact stored.collected x old
  · refine ⟨fun kept member => ?_, stored.collected, stored.pending⟩
    rcases List.mem_append.mp member with old | new
    · exact stored.kept kept old
    · rw [List.mem_singleton.mp new]
      exact ⟨fromSource, plain, unmatched, unbroken⟩

theorem scanLines_stored {lines : List Text} (stored : state.Stored w source)
    (fromSource : ∀ line ∈ lines, line ∈ source) (unbroken : ∀ line ∈ lines, Unbroken line) :
    (scanLines w state lines).Stored w source := by
  induction lines generalizing state with
  | nil => exact stored
  | cons line rest ih =>
      exact ih (scanLine_stored w stored (fromSource line (List.mem_cons_self _ _))
        (unbroken line (List.mem_cons_self _ _)))
        (fun other member => fromSource other (List.mem_cons_of_mem _ member))
        fun other member => unbroken other (List.mem_cons_of_mem _ member)

theorem librsScan_stored {content : Text} (noReturn : '\r' ∉ content) :
    (librsScan w content).Stored w (splitLines content) :=
  scanLines_stored w (ScanState.stored_initial w) (fun _ member => member) fun _ member =>
    ⟨newline_not_mem_of_mem_splitLines member,
      fun returned => noReturn (mem_of_mem_splitLines member returned)⟩

end Stored

end ConflictResolver
