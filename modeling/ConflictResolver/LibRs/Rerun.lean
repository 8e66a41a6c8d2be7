import ConflictResolver.LibRs.Output

/-!
A second run of `resolve_librs_conflict` over the file the first run wrote: every line lies
outside every region, and with a set enumeration that depends only on the set the same text is
written.
-/

namespace ConflictResolver

/-! ### What the loop collects is stripped -/

section Stripped

variable (w : WordClass)

theorem strip_of_lineDecl_self {x : Text} (declares : lineDecl w x = some x) : strip x = x :=
  (matchPubMod_eq_some_iff.mp declares).1.strip_eq

theorem scanLine_stripped {state : ScanState} (stripped : ∀ x ∈ state.allPubMods, strip x = x)
    (line : Text) : ∀ x ∈ (scanLine w state line).allPubMods, strip x = x := by
  have updated : ∀ x ∈ state.allPubMods.update (extractPubMods w state.conflictSection),
      strip x = x := fun x member =>
    (PySet.mem_update.mp member).elim (stripped x) fun new =>
      strip_of_lineDecl_self w (mem_extractPubMods new).1
  rcases scanLine_cases w state line with same | same | same | same | ⟨-, same⟩ | ⟨-, -, same⟩ <;>
    rw [same]
  · exact stripped
  · exact updated
  · exact updated
  · exact stripped
  · intro x member
    rcases PySet.mem_add.mp member with rfl | old
    · exact strip_strip line
    · exact stripped x old
  · exact stripped

theorem librsScan_stripped (content : Text) :
    ∀ x ∈ (librsScan w content).allPubMods, strip x = x := by
  suffices run : ∀ (lines : List Text) (state : ScanState),
      (∀ x ∈ state.allPubMods, strip x = x) → ∀ x ∈ (scanLines w state lines).allPubMods, strip x = x
    from run _ _ fun x member => absurd member (PySet.not_mem_empty x)
  intro lines
  induction lines with
  | nil => exact fun _ stripped => stripped
  | cons line rest ih => exact fun state stripped => ih _ (scanLine_stripped w stripped line)

end Stripped

/-! ### A text without marker lines -/

section Unmarked

variable (w : WordClass)

theorem IsPlainLine.nil : IsPlainLine [] := ⟨rfl, rfl, rfl⟩

theorem IsPlainLine.of_lineDecl {line : Text} (declares : (lineDecl w line).isSome) :
    IsPlainLine line := by
  refine ⟨?_, ?_, ?_⟩ <;> refine Bool.eq_false_iff.mpr fun marker => ?_
  · rw [lineDecl_of_startMarker w marker] at declares; cases declares
  · rw [lineDecl_of_separatorMarker w marker] at declares; cases declares
  · rw [lineDecl_of_endMarker w marker] at declares; cases declares

theorem flatMap_outside_lines (lines : List Text) :
    (lines.map Segment.outside).flatMap Segment.lines = lines := by
  induction lines with
  | nil => rfl
  | cons line rest ih => simp [Segment.lines, ih]

theorem librsScan_unmarked {content : Text}
    (plain : ∀ line ∈ splitLines content, IsPlainLine line) :
    RunEffect w ((splitLines content).map Segment.outside) ScanState.initial
      (librsScan w content) := by
  have run := @scanLines_run w ScanState.initial ((splitLines content).map Segment.outside)
    (fun segment member => by
      obtain ⟨line, inLines, rfl⟩ := List.mem_map.mp member
      exact (plain line inLines).1)
    (by
      rw [flatMap_outside_lines]
      exact fun line member => newline_not_mem_of_mem_splitLines member) rfl rfl
  rwa [flatMap_outside_lines] at run

variable {lines : List Text}

theorem outside_quiet (quiet : ∀ line ∈ lines, IsPlainLine line ∧ lineDecl w line = none) :
    (lines.map Segment.outside).flatMap (Segment.kept w) = lines ∧
      (lines.map Segment.outside).flatMap (Segment.collected w) = [] ∧
      ∀ current count rest, pointAfter w current count (lines.map Segment.outside ++ rest) =
        pointAfter w current (count + lines.length) rest := by
  induction lines with
  | nil => exact ⟨rfl, rfl, fun _ _ _ => rfl⟩
  | cons line more ih =>
      obtain ⟨⟨_, separator, finish⟩, none⟩ := quiet line (List.mem_cons_self _ _)
      obtain ⟨kept, collected, point⟩ :=
        ih fun other member => quiet other (List.mem_cons_of_mem _ member)
      refine ⟨?_, ?_, fun current count rest => ?_⟩
      · simp [Segment.kept, separator, finish, none, kept]
      · simp [Segment.collected, separator, finish, none, collected]
      · simp only [List.map_cons, List.cons_append, pointAfter, Segment.marks, separator, finish,
          none, Segment.kept]
        simp [point, Nat.add_comm more.length, Nat.add_assoc]

theorem outside_declaring
    (declaring : ∀ line ∈ lines, IsPlainLine line ∧ (lineDecl w line).isSome ∧ strip line = line) :
    (lines.map Segment.outside).flatMap (Segment.kept w) = [] ∧
      (lines.map Segment.outside).flatMap (Segment.collected w) = lines := by
  induction lines with
  | nil => exact ⟨rfl, rfl⟩
  | cons line more ih =>
      obtain ⟨⟨_, separator, finish⟩, declares, stripped⟩ := declaring line (List.mem_cons_self _ _)
      obtain ⟨kept, collected⟩ := ih fun other member => declaring other (List.mem_cons_of_mem _ member)
      exact ⟨by simp [Segment.kept, separator, finish, declares, kept],
        by simp [Segment.collected, separator, finish, declares, stripped, collected]⟩

theorem librsScan_block {content : Text} {above block below : List Text}
    (lines : splitLines content = above ++ block ++ below)
    (quiet : ∀ line ∈ above ++ below, IsPlainLine line ∧ lineDecl w line = none)
    (declaring : ∀ x ∈ block, IsPlainLine x ∧ (lineDecl w x).isSome ∧ strip x = x) :
    (librsScan w content).resolvedLines = above ++ below ∧
      (∀ x, x ∈ (librsScan w content).allPubMods ↔ x ∈ block) ∧
      (block = [] ∨ insertAt (librsScan w content) = above.length) := by
  have quietAbove := outside_quiet w fun line member => quiet line (List.mem_append_left _ member)
  have quietBelow := outside_quiet w fun line member => quiet line (List.mem_append_right _ member)
  have collected := outside_declaring w declaring
  have effect := @librsScan_unmarked w content (by
    rw [lines]
    intro line member
    rcases List.mem_append.mp member with front | back
    · rcases List.mem_append.mp front with inAbove | inBlock
      · exact (quiet line (List.mem_append_left _ inAbove)).1
      · exact (declaring line inBlock).1
    · exact (quiet line (List.mem_append_right _ back)).1)
  rw [lines] at effect
  refine ⟨?_, fun x => ?_, ?_⟩
  · simp only [effect.kept, ScanState.initial, List.append_assoc, List.map_append,
      List.flatMap_append, quietAbove.1, collected.1, quietBelow.1, List.nil_append]
  · simp only [effect.collected, ScanState.initial, PySet.not_mem_empty, List.append_assoc,
      List.map_append, List.flatMap_append, quietAbove.2.1, collected.2, quietBelow.2.1,
      List.append_nil, List.nil_append, false_or]
  · cases block with
    | nil => exact Or.inl rfl
    | cons x more =>
        obtain ⟨⟨_, separator, _⟩, declares, _⟩ := declaring x (List.mem_cons_self _ _)
        refine Or.inr ?_
        rw [insertAt, effect.point, List.map_append, List.map_append, List.append_assoc,
          quietAbove.2.2]
        simp [pointAfter, Segment.marks, separator, declares, ScanState.initial, pointAfter_some]

end Unmarked

/-! ### The second run -/

section Rerun

variable (w : WordClass) (iter : SetIter) {source : List Text} {state : ScanState}

theorem sortedPubMods_congr (canonical : iter.Canonical) {other : ScanState}
    (same : ∀ x, x ∈ state.allPubMods ↔ x ∈ other.allPubMods) :
    sortedPubMods w iter state = sortedPubMods w iter other := by
  unfold sortedPubMods PySet.toList
  rw [canonical _ _ ((List.perm_ext_iff_of_nodup state.allPubMods.nodup
    other.allPubMods.nodup).mpr same)]

theorem resolvedText_rerun (canonical : iter.Canonical) (stored : state.Stored w source)
    (stripped : ∀ x ∈ state.allPubMods, strip x = x) :
    resolvedText w iter (librsScan w (resolvedText w iter state)) = resolvedText w iter state := by
  obtain ⟨above, below, lines, around⟩ := splitLines_resolvedText w iter stored
  obtain ⟨kept, collected, point⟩ := librsScan_block w lines
    (fun line member => (around line member).elim (fun blank => blank ▸ ⟨IsPlainLine.nil, rfl⟩)
      fun kept => ⟨(stored.kept line kept).2.1, (stored.kept line kept).2.2.1⟩)
    (fun x member =>
      have collected := (mem_sortedPubMods w iter state).mp member
      ⟨IsPlainLine.of_lineDecl w (stored.collected x collected).1,
        (stored.collected x collected).1, stripped x collected⟩)
  have sorted : sortedPubMods w iter (librsScan w (resolvedText w iter state)) =
      sortedPubMods w iter state :=
    sortedPubMods_congr w iter canonical fun x => (collected x).trans (mem_sortedPubMods w iter state)
  have merged : mergedLines w iter (librsScan w (resolvedText w iter state)) =
      splitLines (resolvedText w iter state) := by
    rw [mergedLines_eq, sorted, kept, lines]
    rcases point with empty | atBlock
    · rw [empty, List.append_nil, List.append_nil, List.take_append_drop]
    · rw [atBlock, List.take_left', List.drop_left'] <;> rfl
  calc resolvedText w iter (librsScan w (resolvedText w iter state))
      = ensureTrailingNewline (collapseBlankLines (resolvedText w iter state)) := by
        rw [resolvedText, merged, joinLines_splitLines]
    _ = resolvedText w iter state := cleanUp_cleanUp _

end Rerun

end ConflictResolver
