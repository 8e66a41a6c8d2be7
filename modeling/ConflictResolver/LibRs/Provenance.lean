import ConflictResolver.LibRs.Output

/-!
Every line `resolve_librs_conflict` writes is blank, a line it read, or the start of one once
stripped: the run invariant `ScanState.Sourced`, whatever the regions look like.
-/

namespace ConflictResolver

/-- Everything the loop stores was read from `source`: the kept lines, the collected texts and
the declarations of the pending region, which is made of whole lines. -/
structure ScanState.Sourced (w : WordClass) (source : List Text) (state : ScanState) : Prop where
  kept : ∀ line ∈ state.resolvedLines, line ∈ source
  collected : ∀ x ∈ state.allPubMods, ∃ line ∈ source, x <+: strip line
  pending : EndsLine state.conflictSection ∧
    ∀ x ∈ extractPubMods w state.conflictSection, ∃ line ∈ source, x <+: strip line

section Sourced

variable (w : WordClass) {source : List Text} {state : ScanState}

theorem ScanState.sourced_initial : ScanState.initial.Sourced w source :=
  ⟨fun _ member => absurd member (List.not_mem_nil _),
    fun x member => absurd member (PySet.not_mem_empty x),
    Or.inl rfl, fun _ member => absurd member (List.not_mem_nil _)⟩

theorem ScanState.Sourced.update (sourced : state.Sourced w source) :
    ∀ x ∈ state.allPubMods.update (extractPubMods w state.conflictSection),
      ∃ line ∈ source, x <+: strip line := fun x member =>
  (PySet.mem_update.mp member).elim (sourced.collected x) (sourced.pending.2 x)

theorem sourced_cleared :
    EndsLine ([] : Text) ∧ ∀ x ∈ extractPubMods w [], ∃ line ∈ source, x <+: strip line :=
  ⟨Or.inl rfl, fun _ member => absurd member (List.not_mem_nil _)⟩

theorem scanLine_sourced {line : Text} (sourced : state.Sourced w source)
    (fromSource : line ∈ source) (plain : '\n' ∉ line) :
    (scanLine w state line).Sourced w source := by
  rcases scanLine_cases w state line with same | same | same | same | ⟨_, same⟩ | ⟨_, _, same⟩ <;>
    rw [same]
  · exact ⟨sourced.kept, sourced.collected, sourced_cleared w⟩
  · exact ⟨sourced.kept, sourced.update w, sourced_cleared w⟩
  · exact ⟨sourced.kept, sourced.update w, sourced_cleared w⟩
  · refine ⟨sourced.kept, sourced.collected, ⟨Or.inr (by simp), fun x member => ?_⟩⟩
    rcases (mem_extractPubMods_append_line w sourced.pending.1 plain).mp member with old | new
    · exact sourced.pending.2 x old
    · exact ⟨line, fromSource, (matchPubMod_eq_some_iff.mp new).2⟩
  · refine ⟨sourced.kept, fun x member => ?_, sourced.pending⟩
    rcases PySet.mem_add.mp member with rfl | old
    · exact ⟨line, fromSource, List.prefix_refl _⟩
    · exact sourced.collected x old
  · refine ⟨fun kept member => ?_, sourced.collected, sourced.pending⟩
    rcases List.mem_append.mp member with old | new
    · exact sourced.kept kept old
    · exact List.mem_singleton.mp new ▸ fromSource

theorem scanLines_sourced {lines : List Text} (sourced : state.Sourced w source)
    (fromSource : ∀ line ∈ lines, line ∈ source) (plain : ∀ line ∈ lines, '\n' ∉ line) :
    (scanLines w state lines).Sourced w source := by
  induction lines generalizing state with
  | nil => exact sourced
  | cons line rest ih =>
      exact ih (scanLine_sourced w sourced (fromSource line (List.mem_cons_self _ _))
        (plain line (List.mem_cons_self _ _)))
        (fun other member => fromSource other (List.mem_cons_of_mem _ member))
        fun other member => plain other (List.mem_cons_of_mem _ member)

theorem librsScan_sourced (content : Text) :
    (librsScan w content).Sourced w (splitLines content) :=
  scanLines_sourced w (ScanState.sourced_initial w) (fun _ member => member)
    fun _ member => newline_not_mem_of_mem_splitLines member

end Sourced

variable (w : WordClass) (iter : SetIter) (filePath : Text)

/-- Every line of the file written is blank, a line of the file read, or, once that line is
stripped, the start of it. -/
theorem resolveLibrsConflict_lines_sourced (raw output : Text)
    (written : (resolveLibrsConflict w iter filePath (some raw)).file = some output) :
    ∀ line ∈ textLines output,
      line = [] ∨ line ∈ textLines raw ∨ ∃ read ∈ textLines raw, line <+: strip read := by
  intro line member
  cases marked : containsText startMarker (readText raw)
  · rw [resolveLibrsConflict_unmarked w iter filePath raw marked] at written
    cases Option.some.inj written
    exact Or.inr (Or.inl member)
  · rw [resolveLibrsConflict_marked w iter filePath raw marked] at written
    cases Option.some.inj written
    have sourced := librsScan_sourced w (readText raw)
    rcases mem_lines_resolvedText w iter (librsScan_stored w (return_not_mem_readText raw))
        member with blank | kept | collected
    · exact Or.inl blank
    · exact Or.inr (Or.inl (sourced.kept line kept))
    · exact Or.inr (Or.inr (sourced.collected line collected))

/-- A declaration with a trailing comment outside every region, and one inside a region. -/
def commentedLibrs : Text :=
  "pub mod a; // x\n<<<<<<< o\n  pub mod b; // y\n=======\n>>>>>>> t\n".toList

/-- What the tool writes for `commentedLibrs`. -/
def commentedResolved : Text := "pub mod a; // x\npub mod b;\n".toList

theorem commented_lines_sourced :
    (resolveLibrsConflict WordClass.ascii SetIter.stored "src/lib.rs".toList
        (some commentedLibrs)).file = some commentedResolved ∧
      ∀ line ∈ textLines commentedResolved,
        line = [] ∨ line ∈ textLines commentedLibrs ∨
          ∃ read ∈ textLines commentedLibrs, line <+: strip read :=
  ⟨by decide, resolveLibrsConflict_lines_sourced WordClass.ascii SetIter.stored
    "src/lib.rs".toList commentedLibrs commentedResolved (by decide)⟩

end ConflictResolver
