import ConflictResolver.CleanUp
import ConflictResolver.LibRs.Simulation

/-!
What `resolve_librs_conflict` writes: the merged lines with runs of blank lines shrunk and a
final newline, the declaration block as whole lines, the report, and the exit status of `main`.
-/

namespace ConflictResolver

/-- `insert_at`: the recorded insertion point, or one past the leading `use` lines. -/
def insertAt (state : ScanState) : Nat :=
  state.insertionPoint.getD (afterUseLines 0 0 state.resolvedLines)

/-! ### The merged lines -/

section Merge

variable (w : WordClass) (iter : SetIter) (state : ScanState)

theorem mem_sortedPubMods {x : Text} : x ∈ sortedPubMods w iter state ↔ x ∈ state.allPubMods :=
  mem_sortedBy.trans PySet.mem_toList

theorem sortedPubMods_iter (other : SetIter)
    (distinctNames : ∀ x ∈ state.allPubMods, ∀ y ∈ state.allPubMods,
      extractModName w x = extractModName w y → x = y) :
    sortedPubMods w iter state = sortedPubMods w other state :=
  sortedBy_eq_of_perm ((iter.perm _).trans (other.perm _).symm) (PySet.nodup_toList iter _)
    fun x inX y inY => distinctNames x (PySet.mem_toList.mp inX) y (PySet.mem_toList.mp inY)

theorem mergedLines_eq :
    mergedLines w iter state = state.resolvedLines.take (insertAt state) ++
      sortedPubMods w iter state ++ state.resolvedLines.drop (insertAt state) := by
  have block : ∀ position, (if (sortedPubMods w iter state).isEmpty then state.resolvedLines
      else insertEach state.resolvedLines position (sortedPubMods w iter state)) =
      state.resolvedLines.take position ++ sortedPubMods w iter state ++
        state.resolvedLines.drop position := by
    intro position
    split
    · next empty => simp [List.isEmpty_iff.mp empty]
    · exact insertEach_eq _ _ _
  unfold mergedLines insertAt
  cases state.insertionPoint <;> exact block _

theorem mem_mergedLines {line : Text} :
    line ∈ mergedLines w iter state ↔ line ∈ state.resolvedLines ∨ line ∈ state.allPubMods := by
  have split : line ∈ state.resolvedLines ↔ line ∈ state.resolvedLines.take (insertAt state) ∨
      line ∈ state.resolvedLines.drop (insertAt state) := by
    rw [← List.mem_append, List.take_append_drop]
  rw [mergedLines_eq, split, ← mem_sortedPubMods w iter state]
  simp only [List.mem_append]
  tauto

theorem resolvedLines_sublist_mergedLines :
    List.Sublist state.resolvedLines (mergedLines w iter state) := by
  rw [mergedLines_eq]
  conv => lhs; rw [← List.take_append_drop (insertAt state) state.resolvedLines]
  exact (List.sublist_append_left _ _).append (List.Sublist.refl _)

end Merge

/-! ### The text written -/

section Written

variable (w : WordClass) (iter : SetIter) {source : List Text} {state : ScanState}

theorem unbroken_of_mem_mergedLines (stored : state.Stored w source) {line : Text}
    (member : line ∈ mergedLines w iter state) : Unbroken line :=
  ((mem_mergedLines w iter state).mp member).elim (fun kept => (stored.kept line kept).2.2.2)
    fun collected => (stored.collected line collected).2

theorem filledLines_resolvedText (stored : state.Stored w source) :
    filledLines (resolvedText w iter state) =
      (mergedLines w iter state).filter (fun line => !line.isEmpty) := by
  rw [resolvedText, filledLines_ensureTrailingNewline, filledLines_collapseBlankLines,
    filledLines_joinLines fun line member => (unbroken_of_mem_mergedLines w iter stored member).1]

theorem return_not_mem_resolvedText (stored : state.Stored w source) :
    '\r' ∉ resolvedText w iter state := by
  intro member
  have notNewline : '\r' ≠ '\n' := by decide
  rcases mem_ensureTrailingNewline member with newline | collapsed
  · exact notNewline newline
  rcases mem_collapseRuns collapsed with newline | joined
  · exact notNewline newline
  rcases mem_joinLines joined with newline | ⟨line, merged, inLine⟩
  · exact notNewline newline
  · exact (unbroken_of_mem_mergedLines w iter stored merged).2 inLine

theorem textLines_resolvedText (stored : state.Stored w source) :
    textLines (resolvedText w iter state) = splitLines (resolvedText w iter state) := by
  rw [textLines, readText_eq_self (return_not_mem_resolvedText w iter stored)]

theorem mem_lines_resolvedText (stored : state.Stored w source) {line : Text}
    (member : line ∈ textLines (resolvedText w iter state)) :
    line = [] ∨ line ∈ state.resolvedLines ∨ line ∈ state.allPubMods := by
  rw [textLines_resolvedText w iter stored] at member
  cases line with
  | nil => exact Or.inl rfl
  | cons c rest =>
      have filled : c :: rest ∈ filledLines (resolvedText w iter state) :=
        List.mem_filter.mpr ⟨member, rfl⟩
      rw [filledLines_resolvedText w iter stored] at filled
      exact Or.inr ((mem_mergedLines w iter state).mp (List.mem_filter.mp filled).1)

theorem filled_mergedLines_sublist (stored : state.Stored w source) :
    List.Sublist ((mergedLines w iter state).filter (fun line => !line.isEmpty))
      (textLines (resolvedText w iter state)) := by
  rw [textLines_resolvedText w iter stored, ← filledLines_resolvedText w iter stored]
  exact List.filter_sublist _

theorem mem_textLines_resolvedText (stored : state.Stored w source) {x : Text}
    (member : x ∈ state.allPubMods) : x ∈ textLines (resolvedText w iter state) := by
  apply (filled_mergedLines_sublist w iter stored).subset
  refine List.mem_filter.mpr ⟨(mem_mergedLines w iter state).mpr (Or.inr member), ?_⟩
  cases x with
  | nil => cases (stored.collected [] member).1
  | cons => rfl

theorem lineDecl_lines_resolvedText (stored : state.Stored w source) {decl : Text} :
    (∃ line ∈ textLines (resolvedText w iter state), lineDecl w line = some decl) ↔
      ∃ x ∈ state.allPubMods, lineDecl w x = some decl := by
  constructor
  · rintro ⟨line, member, declares⟩
    rcases mem_lines_resolvedText w iter stored member with rfl | kept | collected
    · cases declares
    · rw [(stored.kept line kept).2.2.1] at declares
      cases declares
    · exact ⟨line, collected, declares⟩
  · rintro ⟨x, member, declares⟩
    exact ⟨x, mem_textLines_resolvedText w iter stored member, declares⟩

theorem ne_nil_of_mem_sortedPubMods (stored : state.Stored w source) {x : Text}
    (member : x ∈ sortedPubMods w iter state) : x ≠ [] := by
  rintro rfl
  have declares := (stored.collected [] ((mem_sortedPubMods w iter state).mp member)).1
  rw [lineDecl_nil] at declares
  cases declares

theorem splitLines_resolvedText (stored : state.Stored w source) :
    ∃ above below, splitLines (resolvedText w iter state) =
        above ++ sortedPubMods w iter state ++ below ∧
      ∀ line ∈ above ++ below, line = [] ∨ line ∈ state.resolvedLines := by
  have merged := mergedLines_eq w iter state
  obtain ⟨above, below, lines, around⟩ := @splitLines_cleanUp_block
    (state.resolvedLines.take (insertAt state)) (sortedPubMods w iter state)
    (state.resolvedLines.drop (insertAt state))
    (fun line member => (unbroken_of_mem_mergedLines w iter stored (merged ▸ member)).1)
    (fun _ member => ne_nil_of_mem_sortedPubMods w iter stored member)
  refine ⟨above, below, by rw [resolvedText, merged]; exact lines, fun line member => ?_⟩
  refine (around line member).imp_right fun kept => ?_
  rcases List.mem_append.mp kept with front | back
  · exact List.mem_of_mem_take front
  · exact List.mem_of_mem_drop back

theorem splitLines_resolvedText_filled (stored : state.Stored w source)
    (nonempty : sortedPubMods w iter state ≠ []) :
    ∃ above below, splitLines (resolvedText w iter state) =
        above ++ sortedPubMods w iter state ++ below ∧
      above.filter (fun line => !line.isEmpty) =
        (state.resolvedLines.take (insertAt state)).filter (fun line => !line.isEmpty) ∧
      below.filter (fun line => !line.isEmpty) =
        (state.resolvedLines.drop (insertAt state)).filter (fun line => !line.isEmpty) := by
  have merged := mergedLines_eq w iter state
  obtain ⟨above, below, lines, aboveLines, belowLines⟩ := @splitLines_cleanUp_filled_block
    (state.resolvedLines.take (insertAt state)) (sortedPubMods w iter state)
    (state.resolvedLines.drop (insertAt state))
    (fun line member => (unbroken_of_mem_mergedLines w iter stored (merged ▸ member)).1)
    (fun _ member => ne_nil_of_mem_sortedPubMods w iter stored member) nonempty
  exact ⟨above, below, by rw [resolvedText, merged]; exact lines, aboveLines, belowLines⟩

theorem splitLines_resolvedText_around (stored : state.Stored w source) :
    ∃ above below, splitLines (resolvedText w iter state) =
        above ++ sortedPubMods w iter state ++ below ∧
      above.filter (fun line => !line.isEmpty) =
        (state.resolvedLines.take (insertAt state)).filter (fun line => !line.isEmpty) ∧
      below.filter (fun line => !line.isEmpty) =
        (state.resolvedLines.drop (insertAt state)).filter (fun line => !line.isEmpty) := by
  by_cases empty : sortedPubMods w iter state = []
  · have whole := filledLines_resolvedText w iter stored
    rw [filledLines, mergedLines_eq, empty, List.append_nil, List.filter_append] at whole
    obtain ⟨above, below, split, aboveLines, belowLines⟩ := List.filter_eq_append_iff.mp whole
    exact ⟨above, below, by rw [empty, List.append_nil]; exact split, aboveLines, belowLines⟩
  · exact splitLines_resolvedText_filled w iter stored empty

theorem declLines_resolvedText (stored : state.Stored w source) :
    (splitLines (resolvedText w iter state)).filter (fun line => (lineDecl w line).isSome) =
      sortedPubMods w iter state := by
  obtain ⟨above, below, lines, around⟩ := splitLines_resolvedText w iter stored
  have undeclared : ∀ line ∈ above ++ below, (lineDecl w line).isSome = false := by
    intro line member
    rcases around line member with rfl | kept
    · rw [lineDecl_nil]; rfl
    · rw [(stored.kept line kept).2.2.1]; rfl
  have declared : ∀ x ∈ sortedPubMods w iter state, (lineDecl w x).isSome = true :=
    fun x member => (stored.collected x ((mem_sortedPubMods w iter state).mp member)).1
  have outside : ∀ part, List.Subset part (above ++ below) →
      part.filter (fun line => (lineDecl w line).isSome) = [] := fun part sub =>
    List.filter_eq_nil_iff.mpr fun line member => by simp [undeclared line (sub member)]
  rw [lines, List.filter_append, List.filter_append, List.filter_eq_self.mpr declared,
    outside above (List.subset_append_left _ _), outside below (List.subset_append_right _ _),
    List.nil_append, List.append_nil]

end Written

/-! ### Declarations, segment by segment -/

section Accounting

variable (w : WordClass)

theorem lineDecl_self_of_mem_filterMap {lines : List Text} {x : Text}
    (member : x ∈ lines.filterMap (lineDecl w)) : lineDecl w x = some x := by
  obtain ⟨_, -, matched⟩ := List.mem_filterMap.mp member
  exact lineDecl_of_matchPubMod matched

theorem mem_extractPubMods_joinLines {lines : List Text} (plain : ∀ line ∈ lines, '\n' ∉ line)
    {decl : Text} : decl ∈ extractPubMods w (joinLines lines) ↔ decl ∈ lines.filterMap (lineDecl w) := by
  by_cases empty : lines = []
  · subst empty
    exact Iff.rfl
  · rw [extractPubMods, splitLines_joinLines plain empty]

theorem regionLines_lineDecls {startLine endLine : Text} {ours : List Text}
    {theirs : Option (Text × List Text)} (start : startMarker.isPrefixOf startLine = true)
    (finish : endMarker.isPrefixOf endLine = true) :
    (startLine :: regionBody ours theirs ++ [endLine]).filterMap (lineDecl w) =
      (regionBody ours theirs).filterMap (lineDecl w) := by
  simp [lineDecl_of_startMarker w start, lineDecl_of_endMarker w finish]

theorem Segment.mem_lineDecls {segment : Segment} (valid : segment.Valid) {decl : Text} :
    decl ∈ segment.lines.filterMap (lineDecl w) ↔
      decl ∈ segment.oursLines.filterMap (lineDecl w) ∨
        decl ∈ segment.theirsLines.filterMap (lineDecl w) := by
  cases segment with
  | outside line => simp [Segment.lines, Segment.oursLines, Segment.theirsLines]
  | region startLine ours theirs endLine =>
      obtain ⟨start, finish, -, theirsValid⟩ := valid
      rw [Segment.lines, regionLines_lineDecls w start finish]
      cases theirs with
      | none => simp [regionBody, Segment.oursLines, Segment.theirsLines]
      | some part =>
          simp [regionBody, Segment.oursLines, Segment.theirsLines,
            lineDecl_of_separatorMarker w (theirsValid part rfl).1]

theorem Segment.collected_lineDecls {segment : Segment} (valid : segment.Valid) {decl : Text} :
    (∃ x ∈ segment.collected w, lineDecl w x = some decl) ↔
      decl ∈ segment.lines.filterMap (lineDecl w) := by
  cases segment with
  | outside line =>
      simp only [Segment.collected, Segment.lines]
      by_cases separator : separatorMarker.isPrefixOf line = true
      · simp [separator, lineDecl_of_separatorMarker w separator]
      by_cases finish : endMarker.isPrefixOf line = true
      · simp [finish, lineDecl_of_endMarker w finish]
      cases matched : lineDecl w line with
      | none => simp [separator, finish, matched]
      | some found => simp [separator, finish, matched, lineDecl_strip, eq_comm]
  | region startLine ours theirs endLine =>
      obtain ⟨start, finish, -⟩ := valid
      rw [Segment.collected, Segment.lines, regionLines_lineDecls w start finish]
      constructor
      · rintro ⟨x, member, declares⟩
        rw [lineDecl_self_of_mem_filterMap w member] at declares
        exact Option.some.inj declares ▸ member
      · exact fun member => ⟨decl, member, lineDecl_self_of_mem_filterMap w member⟩

theorem mem_lineDecls_versions {lines : List Text} (wellFormed : regionsWellFormed lines = true)
    {decl : Text} :
    decl ∈ lines.filterMap (lineDecl w) ↔ decl ∈ (oursVersion lines).filterMap (lineDecl w) ∨
      decl ∈ (theirsVersion lines).filterMap (lineDecl w) := by
  obtain ⟨whole, valid⟩ := segmentsOf_sound wellFormed
  conv => lhs; rw [whole]
  simp only [oursVersion, theirsVersion, List.filterMap_flatMap, List.mem_flatMap]
  constructor
  · rintro ⟨segment, member, declared⟩
    exact ((segment.mem_lineDecls w (valid segment member)).mp declared).imp
      (fun ours => ⟨segment, member, ours⟩) fun theirs => ⟨segment, member, theirs⟩
  · rintro (⟨segment, member, declared⟩ | ⟨segment, member, declared⟩)
    · exact ⟨segment, member, (segment.mem_lineDecls w (valid segment member)).mpr (Or.inl declared)⟩
    · exact ⟨segment, member, (segment.mem_lineDecls w (valid segment member)).mpr (Or.inr declared)⟩

theorem collected_lineDecls_iff {content : Text}
    (wellFormed : regionsWellFormed (splitLines content) = true) {decl : Text} :
    (∃ x ∈ (librsScan w content).allPubMods, lineDecl w x = some decl) ↔
      decl ∈ (splitLines content).filterMap (lineDecl w) := by
  have effect := librsScan_effect w wellFormed
  obtain ⟨whole, valid⟩ := segmentsOf_sound wellFormed
  conv => rhs; rw [whole]
  simp only [effect.collected, ScanState.initial, PySet.not_mem_empty, false_or,
    List.filterMap_flatMap, List.mem_flatMap]
  constructor
  · rintro ⟨x, ⟨segment, member, collected⟩, declares⟩
    exact ⟨segment, member, (segment.collected_lineDecls w (valid segment member)).mp
      ⟨x, collected, declares⟩⟩
  · rintro ⟨segment, member, declared⟩
    obtain ⟨x, collected, declares⟩ :=
      (segment.collected_lineDecls w (valid segment member)).mpr declared
    exact ⟨x, ⟨segment, member, collected⟩, declares⟩

end Accounting

/-! ### Where the block goes -/

section Point

variable (w : WordClass)

theorem pointAfter_some (point count : Nat) (segments : List Segment) :
    pointAfter w (some point) count segments = some point := by
  induction segments generalizing count with
  | nil => rfl
  | cons segment rest ih =>
      simp only [pointAfter, Option.getD_some, ite_self]
      exact ih _

theorem Segment.marks_of_mem_collected {segment : Segment} {x : Text}
    (member : x ∈ segment.collected w) : segment.marks w = true := by
  cases segment with
  | outside line =>
      simp only [Segment.collected] at member
      split_ifs at member with marker declares
      · cases member
      · simp only [Bool.or_eq_true, not_or] at marker
        simp [Segment.marks, marker.1, declares]
      · cases member
  | region => rfl

theorem pointAfter_takeWhile (count : Nat) {segments : List Segment}
    (marked : ∃ segment ∈ segments, segment.marks w = true) :
    pointAfter w none count segments = some (count +
      ((segments.takeWhile fun segment => !segment.marks w).flatMap (Segment.kept w)).length) := by
  induction segments generalizing count with
  | nil =>
      obtain ⟨_, member, _⟩ := marked
      cases member
  | cons segment rest ih =>
      by_cases marks : segment.marks w = true
      · simp [pointAfter, marks, pointAfter_some]
      · have later : ∃ other ∈ rest, other.marks w = true := by
          obtain ⟨other, member, otherMarks⟩ := marked
          rcases List.mem_cons.mp member with rfl | inRest
          · exact absurd otherMarks marks
          · exact ⟨other, inRest, otherMarks⟩
        simp [pointAfter, marks, ih _ later, Nat.add_assoc]

theorem kept_around_insertAt {content : Text}
    (wellFormed : regionsWellFormed (splitLines content) = true) {x : Text}
    (collected : x ∈ (librsScan w content).allPubMods) :
    (librsScan w content).resolvedLines.take (insertAt (librsScan w content)) =
        ((segmentsOf (splitLines content)).takeWhile fun segment => !segment.marks w).flatMap
          (Segment.kept w) ∧
      (librsScan w content).resolvedLines.drop (insertAt (librsScan w content)) =
        ((segmentsOf (splitLines content)).dropWhile fun segment => !segment.marks w).flatMap
          (Segment.kept w) := by
  have effect := librsScan_effect w wellFormed
  rw [effect.collected] at collected
  simp only [ScanState.initial, PySet.not_mem_empty, false_or, List.mem_flatMap] at collected
  obtain ⟨segment, member, inSegment⟩ := collected
  have point : insertAt (librsScan w content) =
      (((segmentsOf (splitLines content)).takeWhile fun segment => !segment.marks w).flatMap
        (Segment.kept w)).length := by
    rw [insertAt, effect.point]
    simp [ScanState.initial,
      pointAfter_takeWhile w 0 ⟨segment, member, segment.marks_of_mem_collected w inSegment⟩]
  rw [point, effect.kept, ScanState.initial, List.nil_append,
    ← List.takeWhile_append_dropWhile (fun segment => !segment.marks w)
      (segmentsOf (splitLines content)), List.flatMap_append, List.takeWhile_append_dropWhile]
  exact ⟨List.take_left' rfl, List.drop_left' rfl⟩

end Point

/-! ### The two ways a run ends -/

section Outcome

variable (w : WordClass) (iter : SetIter) (filePath raw : Text)

theorem resolveLibrsConflict_success :
    (resolveLibrsConflict w iter filePath (some raw)).success = true := by
  simp only [resolveLibrsConflict]
  split <;> rfl

theorem resolveLibrsConflict_unmarked (unmarked : containsText startMarker (readText raw) = false) :
    (resolveLibrsConflict w iter filePath (some raw)).file = some raw := by
  simp [resolveLibrsConflict, unmarked]

theorem resolveLibrsConflict_marked (marked : containsText startMarker (readText raw) = true) :
    (resolveLibrsConflict w iter filePath (some raw)).file =
      some (resolvedText w iter (librsScan w (readText raw))) := by
  simp [resolveLibrsConflict, marked]

theorem marked_of_startMarker {line : Text} (member : line ∈ textLines raw)
    (start : startMarker.isPrefixOf line = true) :
    containsText startMarker (readText raw) = true :=
  decide_eq_true ((List.isPrefixOf_iff_prefix.mp start).isInfix.trans
    (infix_of_mem_splitLines member))

/-- Past the marker guard, whatever the regions look like, the file written ends its lines with
line feeds only, ends with one, and never holds three in a row. -/
theorem resolveLibrsConflict_written_shape
    (marked : containsText startMarker (readText raw) = true) (output : Text)
    (written : (resolveLibrsConflict w iter filePath (some raw)).file = some output) :
    '\r' ∉ output ∧ output.getLast? = some '\n' ∧ ¬ ['\n', '\n', '\n'] <:+: output := by
  rw [resolveLibrsConflict_marked w iter filePath raw marked] at written
  cases Option.some.inj written
  exact ⟨return_not_mem_resolvedText w iter (librsScan_stored w (return_not_mem_readText raw)),
    cleanUp_shape _⟩

/-- A file with carriage returns, a run of blank lines and no final newline. -/
def crlfLibrs : Text :=
  "use x;\r\n<<<<<<< a\r\npub mod b;\r\n=======\r\n>>>>>>> c\r\n\r\n\r\n\r\nfn main() {}".toList

theorem crlf_written_shape :
    '\r' ∉ "use x;\npub mod b;\n\nfn main() {}\n".toList ∧
      ("use x;\npub mod b;\n\nfn main() {}\n".toList).getLast? = some '\n' ∧
      ¬ ['\n', '\n', '\n'] <:+: "use x;\npub mod b;\n\nfn main() {}\n".toList :=
  resolveLibrsConflict_written_shape WordClass.ascii SetIter.stored "src/lib.rs".toList crlfLibrs
    (by decide) _ (by decide)

/-- Past the marker guard, what is printed describes the file written: its declaration lines,
counted and named in the order they stand in the file, and nothing on standard error. -/
theorem resolveLibrsConflict_report (marked : containsText startMarker (readText raw) = true) :
    ∃ output, (resolveLibrsConflict w iter filePath (some raw)).file = some output ∧
      (resolveLibrsConflict w iter filePath (some raw)).stdout =
        librsReport w filePath ((textLines output).filter fun line => (lineDecl w line).isSome) ∧
      (resolveLibrsConflict w iter filePath (some raw)).stderr = [] := by
  have stored := librsScan_stored w (return_not_mem_readText raw)
  refine ⟨_, resolveLibrsConflict_marked w iter filePath raw marked, ?_, ?_⟩ <;>
    simp [resolveLibrsConflict, marked, textLines_resolvedText w iter stored,
      declLines_resolvedText w iter stored]

/-- A declaration with a trailing comment outside the regions, and one on each side. -/
def reportLibrs : Text :=
  "use x;\n<<<<<<< a\npub mod c;\n=======\npub mod b;\n>>>>>>> t\npub mod a; // x\n".toList

theorem commented_declaration_reported :
    ∃ output, (resolveLibrsConflict WordClass.ascii SetIter.stored "src/lib.rs".toList
        (some reportLibrs)).file = some output ∧
      (resolveLibrsConflict WordClass.ascii SetIter.stored "src/lib.rs".toList
        (some reportLibrs)).stdout = librsReport WordClass.ascii "src/lib.rs".toList
          ((textLines output).filter fun line => (lineDecl WordClass.ascii line).isSome) ∧
      (resolveLibrsConflict WordClass.ascii SetIter.stored "src/lib.rs".toList
        (some reportLibrs)).stderr = [] :=
  resolveLibrsConflict_report WordClass.ascii SetIter.stored "src/lib.rs".toList reportLibrs
    (by decide)

end Outcome

/-! ### `main` -/

section Main

variable (w : WordClass) (iter : SetIter) (argument : Option Text) (files : Text → Option PyFile)

theorem librsMain_status_eq_zero_iff :
    (librsMain w iter argument files).status = 0 ↔
      ∃ file raw, files (argument.getD "src/lib.rs".toList) = some file ∧ file.read = .ok raw ∧
        (containsText startMarker (readText raw) = true → file.writeError = none) := by
  cases found : files (argument.getD "src/lib.rs".toList) with
  | none => simp only [librsMain, found]; simp [resolveLibrsConflict, exitStatus]
  | some file =>
      cases read : file.read with
      | error message => simp only [librsMain, found, read]; simp [read]
      | ok raw =>
          simp only [librsMain, found, read]
          cases marked : containsText startMarker (readText raw) <;>
            cases written : file.writeError <;>
            simp [read, marked, written, resolveLibrsConflict_success, exitStatus]

theorem librsMain_file_of_failed (failed : (librsMain w iter argument files).status ≠ 0) :
    (librsMain w iter argument files).file = files (argument.getD "src/lib.rs".toList) := by
  revert failed
  cases found : files (argument.getD "src/lib.rs".toList) with
  | none => simp only [librsMain, found]; simp
  | some file =>
      cases read : file.read with
      | error message => simp only [librsMain, found, read]; simp
      | ok raw =>
          simp only [librsMain, found, read]
          cases marked : containsText startMarker (readText raw) <;>
            cases written : file.writeError <;>
            simp [marked, written, resolveLibrsConflict_success, exitStatus]

end Main

end ConflictResolver
