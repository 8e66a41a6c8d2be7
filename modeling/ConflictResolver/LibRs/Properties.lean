import ConflictResolver.LibRs.Rerun

/-!
What `resolve_librs_conflict` guarantees about the file it writes, for every word class and
every set enumeration, and fixed documents where the loop drops what the ours version keeps.
-/

namespace ConflictResolver

/-- A lib.rs with one region whose two sides add different modules. -/
def sampleLibrs : Text :=
  "use x;\n<<<<<<< ours\npub mod b;\n=======\npub mod a;\n>>>>>>> theirs\nfn main() {}\n".toList

/-- What `resolve_librs_conflict` writes for `sampleLibrs`. -/
def sampleResolved : Text := "use x;\npub mod a;\npub mod b;\nfn main() {}\n".toList

/-- The default path of `main`. -/
def defaultLibrsPath : Text := "src/lib.rs".toList

/-! ### Declarations -/

/-- Over a well-formed document, the written file declares exactly the modules that the ours
version or the theirs version declares. -/
theorem resolveLibrsConflict_declarations (w : WordClass) (iter : SetIter) (filePath raw : Text)
    (wellFormed : regionsWellFormed (textLines raw) = true) (output : Text)
    (written : (resolveLibrsConflict w iter filePath (some raw)).file = some output)
    (decl : Text) :
    decl ∈ extractPubMods w (readText output) ↔
      decl ∈ extractPubMods w (joinLines (oursVersion (textLines raw))) ∨
        decl ∈ extractPubMods w (joinLines (theirsVersion (textLines raw))) := by
  have plain : ∀ line ∈ textLines raw, '\n' ∉ line := fun _ => newline_not_mem_of_mem_splitLines
  rw [mem_extractPubMods_joinLines w fun line member =>
      plain line (mem_of_mem_oursVersion wellFormed member),
    mem_extractPubMods_joinLines w fun line member =>
      plain line (mem_of_mem_theirsVersion wellFormed member),
    ← mem_lineDecls_versions w wellFormed]
  cases marked : containsText startMarker (readText raw)
  · rw [resolveLibrsConflict_unmarked w iter filePath raw marked] at written
    cases Option.some.inj written
    exact Iff.rfl
  · rw [resolveLibrsConflict_marked w iter filePath raw marked] at written
    cases Option.some.inj written
    have stored := librsScan_stored w (return_not_mem_readText raw)
    calc decl ∈ extractPubMods w (readText (resolvedText w iter (librsScan w (readText raw))))
        ↔ ∃ line ∈ textLines (resolvedText w iter (librsScan w (readText raw))),
            lineDecl w line = some decl := List.mem_filterMap
      _ ↔ ∃ x ∈ (librsScan w (readText raw)).allPubMods, lineDecl w x = some decl :=
          lineDecl_lines_resolvedText w iter stored
      _ ↔ decl ∈ (textLines raw).filterMap (lineDecl w) := collected_lineDecls_iff w wellFormed

theorem sample_declarations :
    "pub mod a;".toList ∈ extractPubMods WordClass.ascii (readText sampleResolved) ↔
      "pub mod a;".toList ∈ extractPubMods WordClass.ascii
          (joinLines (oursVersion (textLines sampleLibrs))) ∨
        "pub mod a;".toList ∈ extractPubMods WordClass.ascii
          (joinLines (theirsVersion (textLines sampleLibrs))) :=
  resolveLibrsConflict_declarations WordClass.ascii SetIter.stored defaultLibrsPath sampleLibrs
    (by decide) sampleResolved (by decide) "pub mod a;".toList

/-! ### The declaration grammar -/

section Grammar

variable (w : WordClass)

theorem mem_extractPubMods_iff (block decl : Text) : decl ∈ extractPubMods w block ↔
    ∃ line ∈ splitLines block, PubModDecl w decl ∧ decl <+: strip line := by
  simp only [extractPubMods, List.mem_filterMap, lineDecl, matchPubMod_eq_some_iff]

theorem scanLine_outside_collected (state : ScanState) (line : Text)
    (outside : state.inConflict = false) (plain : IsPlainLine line) (x : Text) :
    x ∈ (scanLine w state line).allPubMods ↔ x ∈ state.allPubMods ∨
      (x = strip line ∧ ∃ decl, PubModDecl w decl ∧ decl <+: strip line) := by
  cases matched : lineDecl w line with
  | none =>
      have unmatched : ¬ ∃ decl, PubModDecl w decl ∧ decl <+: strip line := fun ⟨decl, found⟩ =>
        by rw [lineDecl, matchPubMod_eq_some_iff.mpr found] at matched; cases matched
      rw [scanLine_outsideKept w plain outside matched]
      simp [unmatched]
  | some decl =>
      rw [scanLine_outsideDecl w plain outside matched, PySet.mem_add]
      exact ⟨fun found => found.elim (fun same => Or.inr ⟨same, decl,
        matchPubMod_eq_some_iff.mp matched⟩) Or.inl,
        fun found => found.elim Or.inr fun ⟨same, _⟩ => Or.inl same⟩

theorem lineDecl_of_pubModDecl (line : Text) (grammar : PubModDecl w (strip line)) :
    lineDecl w line = some (strip line) :=
  matchPubMod_eq_some_iff.mpr ⟨grammar, List.prefix_refl _⟩

/-- A side's line yields the declaration its stripped text begins with, `pub` being required and
anything allowed after the `;`; an outside line that begins so is collected as the whole
stripped line. A stripped line that is a declaration as a whole is collected whole on a side too. -/
theorem declaration_collected :
    (∀ block decl : Text, decl ∈ extractPubMods w block ↔
      ∃ line ∈ splitLines block, PubModDecl w decl ∧ decl <+: strip line) ∧
    (∀ (state : ScanState) (line : Text), state.inConflict = false → IsPlainLine line →
      ∀ x, x ∈ (scanLine w state line).allPubMods ↔ x ∈ state.allPubMods ∨
        (x = strip line ∧ ∃ decl, PubModDecl w decl ∧ decl <+: strip line)) ∧
    (∀ line : Text, PubModDecl w (strip line) → lineDecl w line = some (strip line)) :=
  ⟨mem_extractPubMods_iff w, scanLine_outside_collected w, lineDecl_of_pubModDecl w⟩

end Grammar

theorem commented_declaration_collected :
    ScanState.initial.inConflict = false ∧ IsPlainLine "pub mod a; // x".toList ∧
      ("pub mod a; // x".toList ∈
          (scanLine WordClass.ascii ScanState.initial "pub mod a; // x".toList).allPubMods ↔
        "pub mod a; // x".toList ∈ ScanState.initial.allPubMods ∨
          ("pub mod a; // x".toList = strip "pub mod a; // x".toList ∧
            ∃ decl, PubModDecl WordClass.ascii decl ∧ decl <+: strip "pub mod a; // x".toList)) :=
  ⟨rfl, by decide, (declaration_collected WordClass.ascii).2.1 ScanState.initial _ rfl
    (by decide) _⟩

/-- A line without `pub` declares nothing, and a side keeps only the declaration a line begins
with, not the whole stripped line. -/
theorem declaration_grammar_needs_pub :
    ¬ (∀ w : WordClass, (lineDecl w "mod a;".toList).isSome = true) ∧
      ¬ ∀ (w : WordClass) (line decl : Text), lineDecl w line = some decl → decl = strip line :=
  ⟨fun always => absurd (always WordClass.ascii) (by decide),
    fun always => absurd (always WordClass.ascii "pub mod a; // x".toList "pub mod a;".toList
      (by decide)) (by decide)⟩

/-! ### Outside lines -/

theorem Segment.filter_outsideLines_sublist (w : WordClass) (segment : Segment) :
    List.Sublist (segment.outsideLines.filter fun line =>
        !(strip line).isEmpty && (lineDecl w line).isNone &&
          !separatorMarker.isPrefixOf line && !endMarker.isPrefixOf line)
      ((segment.kept w).filter fun line => !line.isEmpty) := by
  cases segment with
  | region => exact List.nil_sublist _
  | outside line =>
      by_cases keep : (!(strip line).isEmpty && (lineDecl w line).isNone &&
          !separatorMarker.isPrefixOf line && !endMarker.isPrefixOf line) = true
      · have parts := keep
        simp only [Bool.and_eq_true, Bool.not_eq_true'] at parts
        obtain ⟨⟨⟨filled, undeclared⟩, notSeparator⟩, notEnd⟩ := parts
        have nonempty : (!line.isEmpty) = true := by
          cases line with
          | nil => cases filled
          | cons => rfl
        have kept : Segment.kept w (.outside line) = [line] := by
          simp [Segment.kept, notSeparator, notEnd, Option.isNone_iff_eq_none.mp undeclared]
        simp only [kept, Segment.outsideLines, List.filter_cons, List.filter_nil, keep, nonempty,
          if_true]
        exact List.Sublist.refl _
      · simp only [Segment.outsideLines, List.filter_cons, List.filter_nil, keep, if_false]
        exact List.nil_sublist _

/-- Over a well-formed document, the non-blank outside lines that declare nothing and begin
with neither `=======` nor `>>>>>>> ` are lines of the written file, in their order. -/
theorem resolveLibrsConflict_keeps_outside_lines (w : WordClass) (iter : SetIter)
    (filePath raw : Text) (wellFormed : regionsWellFormed (textLines raw) = true) (output : Text)
    (written : (resolveLibrsConflict w iter filePath (some raw)).file = some output) :
    List.Sublist ((outsideLines (textLines raw)).filter fun line =>
        !(strip line).isEmpty && (lineDecl w line).isNone &&
          !separatorMarker.isPrefixOf line && !endMarker.isPrefixOf line)
      (textLines output) := by
  cases marked : containsText startMarker (readText raw)
  · rw [resolveLibrsConflict_unmarked w iter filePath raw marked] at written
    cases Option.some.inj written
    exact (List.filter_sublist _).trans (outsideLines_sublist wellFormed)
  · rw [resolveLibrsConflict_marked w iter filePath raw marked] at written
    cases Option.some.inj written
    have stored := librsScan_stored w (return_not_mem_readText raw)
    refine List.Sublist.trans ?_ (filled_mergedLines_sublist w iter stored)
    refine List.Sublist.trans ?_ ((resolvedLines_sublist_mergedLines w iter _).filter _)
    rw [(librsScan_effect w wellFormed).kept, outsideLines, List.filter_flatMap]
    simpa [ScanState.initial, List.filter_flatMap] using
      flatMap_sublist_flatMap fun segment _ => segment.filter_outsideLines_sublist w

/-- A document whose one region is followed by a separator line outside every region. -/
def straySeparatorLibrs : Text := "<<<<<<< a\n>>>>>>> b\n=======\n".toList

/-- The loop tests the separator prefix before it asks whether a region is open, so the line
`=======` outside every region is dropped and the file written is one empty line. -/
theorem outside_separator_line_dropped :
    regionsWellFormed (textLines straySeparatorLibrs) = true ∧
      "=======".toList ∈ outsideLines (textLines straySeparatorLibrs) ∧
      (resolveLibrsConflict WordClass.ascii SetIter.stored defaultLibrsPath
        (some straySeparatorLibrs)).file = some "\n".toList := by
  decide

theorem sample_keeps_outside_lines :
    List.Sublist ((outsideLines (textLines sampleLibrs)).filter fun line =>
        !(strip line).isEmpty && (lineDecl WordClass.ascii line).isNone &&
          !separatorMarker.isPrefixOf line && !endMarker.isPrefixOf line)
      (textLines sampleResolved) :=
  resolveLibrsConflict_keeps_outside_lines WordClass.ascii SetIter.stored defaultLibrsPath
    sampleLibrs (by decide) sampleResolved (by decide)

/-! ### Regions -/

theorem startMarker_of_region {lines : List Text} (wellFormed : regionsWellFormed lines = true)
    {before after : List Segment} {startLine endLine : Text} {ours : List Text}
    {theirs : Option (Text × List Text)}
    (cut : segmentsOf lines = before ++ Segment.region startLine ours theirs endLine :: after) :
    startLine ∈ lines ∧ startMarker.isPrefixOf startLine = true := by
  obtain ⟨whole, valid⟩ := segmentsOf_sound wellFormed
  have member : Segment.region startLine ours theirs endLine ∈ segmentsOf lines := by
    rw [cut]
    exact List.mem_append_right _ (List.mem_cons_self _ _)
  refine ⟨?_, (valid _ member).1⟩
  rw [whole]
  exact List.mem_flatMap.mpr ⟨_, member, List.mem_cons_self _ _⟩

/-- A region is replaced by no line at all, whether its sides declare modules or not: blank
lines aside, the written file holds the kept lines of the segments before it and after it,
with the sorted declarations inserted as one block at `insert_at`. -/
theorem resolveLibrsConflict_drops_region (w : WordClass) (iter : SetIter) (filePath raw : Text)
    (wellFormed : regionsWellFormed (textLines raw) = true) (before after : List Segment)
    (startLine endLine : Text) (ours : List Text) (theirs : Option (Text × List Text))
    (cut : segmentsOf (textLines raw) =
      before ++ Segment.region startLine ours theirs endLine :: after)
    (output : Text) (written : (resolveLibrsConflict w iter filePath (some raw)).file = some output) :
    (textLines output).filter (fun line => !line.isEmpty) =
      ((before.flatMap (Segment.kept w) ++ after.flatMap (Segment.kept w)).take
            (insertAt (librsScan w (readText raw))) ++
          sortedPubMods w iter (librsScan w (readText raw)) ++
          (before.flatMap (Segment.kept w) ++ after.flatMap (Segment.kept w)).drop
            (insertAt (librsScan w (readText raw)))).filter (fun line => !line.isEmpty) := by
  obtain ⟨member, start⟩ := startMarker_of_region wellFormed cut
  rw [resolveLibrsConflict_marked w iter filePath raw (marked_of_startMarker raw member start)]
    at written
  cases Option.some.inj written
  have stored := librsScan_stored w (return_not_mem_readText raw)
  have kept : (librsScan w (readText raw)).resolvedLines =
      before.flatMap (Segment.kept w) ++ after.flatMap (Segment.kept w) := by
    have segments : segmentsOf (splitLines (readText raw)) =
        before ++ Segment.region startLine ours theirs endLine :: after := cut
    simp [(librsScan_effect w wellFormed).kept, ScanState.initial, segments, Segment.kept]
  rw [textLines_resolvedText w iter stored, ← filledLines, filledLines_resolvedText w iter stored,
    mergedLines_eq, kept]

/-- A region whose two sides define the same function differently and declare no module. -/
def helperRegionLibrs : Text :=
  ("use x;\n<<<<<<< HEAD\nfn helper() -> u32 { 1 }\n=======\nfn helper() -> u32 { 2 }\n" ++
    ">>>>>>> branch\nfn main() {}\n").toList

/-- The loop only collects declarations from a region, so both versions of `helper` are lost. -/
theorem generic_region_ours_dropped :
    regionsWellFormed (textLines helperRegionLibrs) = true ∧
      (resolveLibrsConflict WordClass.ascii SetIter.stored defaultLibrsPath
        (some helperRegionLibrs)).file = some "use x;\nfn main() {}\n".toList := by
  decide

theorem sample_drops_region :
    (textLines sampleResolved).filter (fun line => !line.isEmpty) =
      (([Segment.outside "use x;".toList].flatMap (Segment.kept WordClass.ascii) ++
          [Segment.outside "fn main() {}".toList, Segment.outside []].flatMap
            (Segment.kept WordClass.ascii)).take
            (insertAt (librsScan WordClass.ascii (readText sampleLibrs))) ++
          sortedPubMods WordClass.ascii SetIter.stored
            (librsScan WordClass.ascii (readText sampleLibrs)) ++
          ([Segment.outside "use x;".toList].flatMap (Segment.kept WordClass.ascii) ++
            [Segment.outside "fn main() {}".toList, Segment.outside []].flatMap
              (Segment.kept WordClass.ascii)).drop
            (insertAt (librsScan WordClass.ascii (readText sampleLibrs)))).filter
        (fun line => !line.isEmpty) :=
  resolveLibrsConflict_drops_region WordClass.ascii SetIter.stored defaultLibrsPath sampleLibrs
    (by decide) [Segment.outside "use x;".toList]
    [Segment.outside "fn main() {}".toList, Segment.outside []] "<<<<<<< ours".toList
    ">>>>>>> theirs".toList ["pub mod b;".toList] (some ("=======".toList, ["pub mod a;".toList]))
    (by decide) sampleResolved (by decide)

/-! ### Where the block goes -/

/-- Past the marker guard, over a well-formed document that declares a module, the sorted
declarations are one block of whole lines of the written file. Blank lines aside, the lines
before the block are the lines kept from the segments before the first one that records the
insertion point (a region, an outside end-marker line or an outside declaration), and the lines
after it are those kept from the rest. -/
theorem resolveLibrsConflict_insertion_point (w : WordClass) (iter : SetIter) (filePath raw : Text)
    (wellFormed : regionsWellFormed (textLines raw) = true)
    (marked : containsText startMarker (readText raw) = true)
    (declared : ∃ line ∈ textLines raw, (lineDecl w line).isSome) (output : Text)
    (written : (resolveLibrsConflict w iter filePath (some raw)).file = some output) :
    ∃ above below,
      textLines output = above ++ sortedPubMods w iter (librsScan w (readText raw)) ++ below ∧
      above.filter (fun line => !line.isEmpty) =
        (((segmentsOf (textLines raw)).takeWhile fun segment => !segment.marks w).flatMap
          (Segment.kept w)).filter (fun line => !line.isEmpty) ∧
      below.filter (fun line => !line.isEmpty) =
        (((segmentsOf (textLines raw)).dropWhile fun segment => !segment.marks w).flatMap
          (Segment.kept w)).filter (fun line => !line.isEmpty) := by
  obtain ⟨line, member, declares⟩ := declared
  obtain ⟨decl, found⟩ := Option.isSome_iff_exists.mp declares
  obtain ⟨x, collected, -⟩ := (collected_lineDecls_iff w wellFormed).mpr
    (List.mem_filterMap.mpr ⟨line, member, found⟩)
  rw [resolveLibrsConflict_marked w iter filePath raw marked] at written
  cases Option.some.inj written
  have stored := librsScan_stored w (return_not_mem_readText raw)
  obtain ⟨front, back⟩ := kept_around_insertAt w wellFormed collected
  obtain ⟨above, below, lines, aboveLines, belowLines⟩ := splitLines_resolvedText_filled w iter
    stored (List.ne_nil_of_mem ((mem_sortedPubMods w iter _).mpr collected))
  refine ⟨above, below, ?_, ?_, ?_⟩
  · rw [textLines_resolvedText w iter stored, lines]
  · rw [aboveLines, front]
    rfl
  · rw [belowLines, back]
    rfl

theorem sample_insertion_point :
    ∃ above below, textLines sampleResolved = above ++
        sortedPubMods WordClass.ascii SetIter.stored
          (librsScan WordClass.ascii (readText sampleLibrs)) ++ below ∧
      above.filter (fun line => !line.isEmpty) =
        (((segmentsOf (textLines sampleLibrs)).takeWhile fun segment =>
          !segment.marks WordClass.ascii).flatMap (Segment.kept WordClass.ascii)).filter
          (fun line => !line.isEmpty) ∧
      below.filter (fun line => !line.isEmpty) =
        (((segmentsOf (textLines sampleLibrs)).dropWhile fun segment =>
          !segment.marks WordClass.ascii).flatMap (Segment.kept WordClass.ascii)).filter
          (fun line => !line.isEmpty) :=
  resolveLibrsConflict_insertion_point WordClass.ascii SetIter.stored defaultLibrsPath sampleLibrs
    (by decide) (by decide) (by decide) sampleResolved (by decide)

/-- A region whose sides declare nothing, before a declaration outside every region. -/
def codeThenDeclLibrs : Text :=
  "use x;\n<<<<<<< a\nfn f() {}\n=======\nfn g() {}\n>>>>>>> b\nfn main() {}\npub mod z;\n".toList

/-- The end marker of the region records the insertion point although the region declares
nothing, so the block lands before `fn main() {}` rather than at the declaration. -/
theorem declarationless_region_sets_point :
    ¬ ∀ (w : WordClass) (iter : SetIter) (filePath raw : Text),
      regionsWellFormed (textLines raw) = true →
      containsText startMarker (readText raw) = true →
      (∃ line ∈ textLines raw, (lineDecl w line).isSome) →
      ∀ output : Text, (resolveLibrsConflict w iter filePath (some raw)).file = some output →
        (((segmentsOf (textLines raw)).takeWhile fun segment =>
            (segment.collected w).isEmpty).flatMap (Segment.kept w)).filter
            (fun line => !line.isEmpty) ++ sortedPubMods w iter (librsScan w (readText raw)) <+:
          (textLines output).filter (fun line => !line.isEmpty) :=
  fun always => absurd (always WordClass.ascii SetIter.stored defaultLibrsPath codeThenDeclLibrs
    (by decide) (by decide) (by decide) "use x;\npub mod z;\nfn main() {}\n".toList (by decide))
    (by decide)

/-! ### Marker lines -/

/-- A region whose markers carry no label and no space after them. -/
def unlabelledLibrs : Text := "<<<<<<<\n=======\n>>>>>>>\n".toList

/-- A module declared outside every region with a trailing comment, and in a region without. -/
def commentedDuplicateLibrs : Text :=
  "pub mod a; // x\n<<<<<<< o\npub mod a;\n=======\n>>>>>>> t\n".toList

/-- The loop stores the whole stripped outside line while `extract_pub_mods` stores the matched
declaration, so one module comes out on two lines whatever order the set is read in. -/
theorem librs_output_repeats_declaration (iter : SetIter) :
    ∃ output, (resolveLibrsConflict WordClass.ascii iter defaultLibrsPath
        (some commentedDuplicateLibrs)).file = some output ∧
      "pub mod a; // x".toList ∈ textLines output ∧ "pub mod a;".toList ∈ textLines output ∧
      lineDecl WordClass.ascii "pub mod a; // x".toList = some "pub mod a;".toList ∧
      lineDecl WordClass.ascii "pub mod a;".toList = some "pub mod a;".toList := by
  have stored := librsScan_stored WordClass.ascii (return_not_mem_readText commentedDuplicateLibrs)
  exact ⟨_, resolveLibrsConflict_marked _ iter _ _ (by decide),
    mem_textLines_resolvedText _ iter stored (by decide),
    mem_textLines_resolvedText _ iter stored (by decide), by decide, by decide⟩

/-! ### Documents without marker lines -/

/-- A file whose only `<<<<<<< ` is inside a comment, with a `=======` line in a block comment. -/
def commentedMarkerLibrs : Text :=
  ("// resolve <<<<<<< markers by hand\n/*\n=======\n*/\npub mod b;\nfn f() {}\n" ++
    "pub mod a;\n").toList

set_option maxRecDepth 4000 in
/-- The guard looks for `<<<<<<< ` anywhere, so a file without a marker line is rewritten: the
`=======` line is dropped and the declarations are gathered and sorted. -/
theorem commented_marker_rewrites :
    (∀ line ∈ textLines commentedMarkerLibrs, bareStartMarker.isPrefixOf line = false) ∧
      (resolveLibrsConflict WordClass.ascii SetIter.stored defaultLibrsPath
        (some commentedMarkerLibrs)).file =
        some "// resolve <<<<<<< markers by hand\n/*\n*/\npub mod a;\npub mod b;\nfn f() {}\n".toList := by
  decide

/-! ### Running twice -/

/-- Run again on the file it wrote, the resolver leaves it as it is, when the set is enumerated
as a function of its contents. -/
theorem resolveLibrsConflict_idempotent (w : WordClass) (iter : SetIter)
    (canonical : iter.Canonical) (filePath raw output : Text)
    (written : (resolveLibrsConflict w iter filePath (some raw)).file = some output) :
    (resolveLibrsConflict w iter filePath (some output)).success = true ∧
      (resolveLibrsConflict w iter filePath (some output)).file = some output := by
  refine ⟨resolveLibrsConflict_success w iter filePath output, ?_⟩
  cases marked : containsText startMarker (readText raw)
  · rw [resolveLibrsConflict_unmarked w iter filePath raw marked] at written
    cases Option.some.inj written
    exact resolveLibrsConflict_unmarked w iter filePath raw marked
  · rw [resolveLibrsConflict_marked w iter filePath raw marked] at written
    cases Option.some.inj written
    have stored := librsScan_stored w (return_not_mem_readText raw)
    cases again : containsText startMarker (readText (resolvedText w iter (librsScan w (readText raw))))
    · exact resolveLibrsConflict_unmarked w iter filePath _ again
    · rw [resolveLibrsConflict_marked w iter filePath _ again,
        readText_eq_self (return_not_mem_resolvedText w iter stored),
        resolvedText_rerun w iter canonical stored (librsScan_stripped w _)]

theorem sample_resolved_idempotent :
    (resolveLibrsConflict WordClass.ascii SetIter.sorted defaultLibrsPath
        (some sampleResolved)).success = true ∧
      (resolveLibrsConflict WordClass.ascii SetIter.sorted defaultLibrsPath
        (some sampleResolved)).file = some sampleResolved :=
  resolveLibrsConflict_idempotent WordClass.ascii SetIter.sorted SetIter.sorted_canonical
    defaultLibrsPath sampleLibrs sampleResolved (by decide)

/-! ### Enumeration order -/

/-- When no two collected declarations name the same module, a run does not depend on the order
the set of declarations is enumerated in. -/
theorem resolveLibrsConflict_deterministic (w : WordClass) (iter other : SetIter)
    (filePath raw : Text)
    (distinctNames : ∀ x ∈ (librsScan w (readText raw)).allPubMods,
      ∀ y ∈ (librsScan w (readText raw)).allPubMods,
        extractModName w x = extractModName w y → x = y) :
    resolveLibrsConflict w iter filePath (some raw) =
      resolveLibrsConflict w other filePath (some raw) := by
  have sorted := sortedPubMods_iter w iter _ other distinctNames
  have text : resolvedText w iter (librsScan w (readText raw)) =
      resolvedText w other (librsScan w (readText raw)) := by
    simp only [resolvedText, mergedLines_eq, sorted]
  simp only [resolveLibrsConflict, text, sorted]

theorem sample_deterministic :
    resolveLibrsConflict WordClass.ascii SetIter.stored defaultLibrsPath (some sampleLibrs) =
      resolveLibrsConflict WordClass.ascii SetIter.sorted defaultLibrsPath (some sampleLibrs) :=
  resolveLibrsConflict_deterministic WordClass.ascii SetIter.stored SetIter.sorted
    defaultLibrsPath sampleLibrs (by decide)

/-- Enumerating a set backwards from its storage order. -/
def SetIter.reversed : SetIter := ⟨List.reverse, List.reverse_perm⟩

/-- Two declarations of one module with different visibility, one on each side. -/
def sameNameLibrs : Text :=
  "<<<<<<< o\npub mod a;\n=======\npub(crate) mod a;\n>>>>>>> t\n".toList

/-- The sort is stable and both declarations have the key `a`, so they are written in the order
the set is enumerated in. -/
theorem same_name_follows_enumeration :
    ¬ ∀ (w : WordClass) (iter other : SetIter) (filePath raw : Text),
      (resolveLibrsConflict w iter filePath (some raw)).file =
        (resolveLibrsConflict w other filePath (some raw)).file :=
  fun always => absurd (always WordClass.ascii SetIter.stored SetIter.reversed defaultLibrsPath
    sameNameLibrs) (by decide)

end ConflictResolver
