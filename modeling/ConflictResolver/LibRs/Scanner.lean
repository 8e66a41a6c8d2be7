import ConflictResolver.LibRs.Declaration

/-!
`resolve_librs_conflict`: the line loop (`ScanState`, `scanLine`, in the source's order of
tests), the insertion of the sorted declarations, the clean-up and `main`.
-/

namespace ConflictResolver

/-- The variables of the loop: `resolved_lines`, `all_pub_mods`, `in_conflict`,
`conflict_section` and `pub_mods_insertion_point`. -/
structure ScanState where
  resolvedLines : List Text
  allPubMods : PySet
  inConflict : Bool
  conflictSection : Text
  insertionPoint : Option Nat

def ScanState.initial : ScanState := ⟨[], PySet.empty, false, [], none⟩

section Loop

variable (w : WordClass)

/-- One pass of the loop body. -/
def scanLine (state : ScanState) (line : Text) : ScanState :=
  if startMarker.isPrefixOf line then
    { state with inConflict := true, conflictSection := [] }
  else if separatorMarker.isPrefixOf line then
    { state with
      allPubMods := state.allPubMods.update (extractPubMods w state.conflictSection)
      conflictSection := [] }
  else if endMarker.isPrefixOf line then
    { state with
      allPubMods := state.allPubMods.update (extractPubMods w state.conflictSection)
      inConflict := false
      conflictSection := []
      insertionPoint := some (state.insertionPoint.getD state.resolvedLines.length) }
  else if state.inConflict then
    { state with conflictSection := state.conflictSection ++ line ++ ['\n'] }
  else if (matchPubMod w (strip line)).isSome then
    { state with
      allPubMods := state.allPubMods.add (strip line)
      insertionPoint := some (state.insertionPoint.getD state.resolvedLines.length) }
  else
    { state with resolvedLines := state.resolvedLines ++ [line] }

/-- The whole loop, from `state`. -/
def scanLines (state : ScanState) (lines : List Text) : ScanState :=
  lines.foldl (scanLine w) state

end Loop

/-- The fallback insertion point: one past the last `use` line, scanning from line `index`
until a line that is neither blank, a `//` comment nor a `#` attribute. -/
def afterUseLines (index found : Nat) : List Text → Nat
  | [] => found
  | line :: rest =>
      if "use ".toList.isPrefixOf (strip line) then afterUseLines (index + 1) (index + 1) rest
      else if !(strip line).isEmpty && !"//".toList.isPrefixOf (strip line) &&
          !"#".toList.isPrefixOf (strip line) then found
      else afterUseLines (index + 1) found rest

/-- `for j, mod_decl in enumerate(sorted_mods): resolved_lines.insert(insert_at + j, mod_decl)`. -/
def insertEach (lines : List Text) (position : Nat) : List Text → List Text
  | [] => lines
  | decl :: rest => insertEach (listInsert lines position decl) (position + 1) rest

section Rewrite

variable (w : WordClass) (iter : SetIter)

/-- `sorted(all_pub_mods, key=extract_mod_name)`. -/
def sortedPubMods (state : ScanState) : List Text :=
  sortedBy (extractModName w) (state.allPubMods.toList iter)

/-- The lines after the sorted declarations are inserted: at the recorded point when there is
one, otherwise after the leading `use` lines. -/
def mergedLines (state : ScanState) : List Text :=
  match state.insertionPoint with
  | some point =>
      if (sortedPubMods w iter state).isEmpty then state.resolvedLines
      else insertEach state.resolvedLines point (sortedPubMods w iter state)
  | none =>
      if (sortedPubMods w iter state).isEmpty then state.resolvedLines
      else insertEach state.resolvedLines (afterUseLines 0 0 state.resolvedLines)
        (sortedPubMods w iter state)

/-- The text written back: the merged lines joined, blank runs collapsed, a final newline. -/
def resolvedText (state : ScanState) : Text :=
  ensureTrailingNewline (collapseBlankLines (joinLines (mergedLines w iter state)))

/-- The loop state after reading the whole of `content`. -/
def librsScan (content : Text) : ScanState :=
  scanLines w ScanState.initial (splitLines content)

/-- What one run leaves behind: the returned flag, the target file afterwards (absent when
it does not exist), and the lines printed to standard output and standard error. -/
structure Outcome where
  success : Bool
  file : Option Text
  stdout : List Text
  stderr : List Text

/-- The lines printed after a rewrite. -/
def librsReport (filePath : Text) (sortedMods : List Text) : List Text :=
  ("Resolved ".toList ++ filePath) ::
    if sortedMods.isEmpty then []
    else ("  Merged ".toList ++ (toString sortedMods.length).toList ++
        " pub mod declarations:".toList) ::
      sortedMods.map fun decl => "    - ".toList ++ extractModName w decl

/-- `resolve_librs_conflict(file_path)` on a target whose content is `file`, if it exists. -/
def resolveLibrsConflict (filePath : Text) : Option Text → Outcome
  | none => ⟨false, none, [], ["Error: File not found: ".toList ++ filePath]⟩
  | some raw =>
      if !containsText startMarker (readText raw) then
        ⟨true, some raw, ["No conflict markers found in ".toList ++ filePath], []⟩
      else
        let state := librsScan w (readText raw)
        ⟨true, some (resolvedText w iter state),
          librsReport w filePath (sortedPubMods w iter state), []⟩

/-- `main()` for the optional path argument, whose default is `src/lib.rs`. An exception from
`read_text` or `write_text` is printed as `Error: ...` with exit status 1; the report is printed
after the write. -/
def librsMain (argument : Option Text) (files : Text → Option PyFile) : MainOutcome :=
  let filePath := argument.getD "src/lib.rs".toList
  match files filePath with
  | none =>
      let run := resolveLibrsConflict w iter filePath none
      ⟨exitStatus run.success, none, run.stdout, run.stderr⟩
  | some file =>
      match file.read with
      | .error message => ⟨1, some file, [], [errorLine message]⟩
      | .ok raw =>
          let run := resolveLibrsConflict w iter filePath (some raw)
          match containsText startMarker (readText raw), file.writeError with
          | true, some message => ⟨1, some file, [], [errorLine message]⟩
          | true, none =>
              ⟨exitStatus run.success, some (file.write (run.file.getD raw)), run.stdout, run.stderr⟩
          | false, _ => ⟨exitStatus run.success, some file, run.stdout, run.stderr⟩

end Rewrite

/-! ### One lemma per kind of line -/

/-- A line the scanner reads as none of its three markers. -/
def IsPlainLine (line : Text) : Prop :=
  startMarker.isPrefixOf line = false ∧ separatorMarker.isPrefixOf line = false ∧
    endMarker.isPrefixOf line = false

instance (line : Text) : Decidable (IsPlainLine line) := inferInstanceAs (Decidable (_ ∧ _ ∧ _))

section Steps

variable (w : WordClass) {state : ScanState} {line : Text}

theorem scanLine_start (start : startMarker.isPrefixOf line = true) :
    scanLine w state line = { state with inConflict := true, conflictSection := [] } := by
  simp [scanLine, start]

theorem scanLine_separator (notStart : startMarker.isPrefixOf line = false)
    (separator : separatorMarker.isPrefixOf line = true) :
    scanLine w state line =
      { state with
        allPubMods := state.allPubMods.update (extractPubMods w state.conflictSection)
        conflictSection := [] } := by
  simp [scanLine, notStart, separator]

theorem scanLine_end (notStart : startMarker.isPrefixOf line = false)
    (notSeparator : separatorMarker.isPrefixOf line = false)
    (finish : endMarker.isPrefixOf line = true) :
    scanLine w state line =
      { state with
        allPubMods := state.allPubMods.update (extractPubMods w state.conflictSection)
        inConflict := false
        conflictSection := []
        insertionPoint := some (state.insertionPoint.getD state.resolvedLines.length) } := by
  simp [scanLine, notStart, notSeparator, finish]

theorem scanLine_inside (plain : IsPlainLine line) (inside : state.inConflict = true) :
    scanLine w state line = { state with conflictSection := state.conflictSection ++ line ++ ['\n'] } := by
  simp [scanLine, plain.1, plain.2.1, plain.2.2, inside]

theorem scanLine_outsideDecl (plain : IsPlainLine line) (outside : state.inConflict = false)
    {decl : Text} (matched : lineDecl w line = some decl) :
    scanLine w state line =
      { state with
        allPubMods := state.allPubMods.add (strip line)
        insertionPoint := some (state.insertionPoint.getD state.resolvedLines.length) } := by
  simp only [lineDecl] at matched
  simp [scanLine, plain.1, plain.2.1, plain.2.2, outside, matched]

theorem scanLine_outsideKept (plain : IsPlainLine line) (outside : state.inConflict = false)
    (unmatched : lineDecl w line = none) :
    scanLine w state line = { state with resolvedLines := state.resolvedLines ++ [line] } := by
  simp only [lineDecl] at unmatched
  simp [scanLine, plain.1, plain.2.1, plain.2.2, outside, unmatched]

theorem scanLine_cases (state : ScanState) (line : Text) :
    scanLine w state line = { state with inConflict := true, conflictSection := [] } ∨
    scanLine w state line =
      { state with
        allPubMods := state.allPubMods.update (extractPubMods w state.conflictSection)
        conflictSection := [] } ∨
    scanLine w state line =
      { state with
        allPubMods := state.allPubMods.update (extractPubMods w state.conflictSection)
        inConflict := false
        conflictSection := []
        insertionPoint := some (state.insertionPoint.getD state.resolvedLines.length) } ∨
    scanLine w state line =
      { state with conflictSection := state.conflictSection ++ line ++ ['\n'] } ∨
    ((lineDecl w line).isSome ∧ scanLine w state line =
      { state with
        allPubMods := state.allPubMods.add (strip line)
        insertionPoint := some (state.insertionPoint.getD state.resolvedLines.length) }) ∨
    (IsPlainLine line ∧ lineDecl w line = none ∧
      scanLine w state line = { state with resolvedLines := state.resolvedLines ++ [line] }) := by
  by_cases start : startMarker.isPrefixOf line = true
  · exact Or.inl (scanLine_start w start)
  have notStart := Bool.eq_false_iff.mpr start
  by_cases separator : separatorMarker.isPrefixOf line = true
  · exact Or.inr (Or.inl (scanLine_separator w notStart separator))
  have notSeparator := Bool.eq_false_iff.mpr separator
  by_cases finish : endMarker.isPrefixOf line = true
  · exact Or.inr (Or.inr (Or.inl (scanLine_end w notStart notSeparator finish)))
  have plain : IsPlainLine line := ⟨notStart, notSeparator, Bool.eq_false_iff.mpr finish⟩
  by_cases inside : state.inConflict = true
  · exact Or.inr (Or.inr (Or.inr (Or.inl (scanLine_inside w plain inside))))
  have outside := Bool.eq_false_iff.mpr inside
  cases matched : lineDecl w line with
  | none => exact Or.inr (Or.inr (Or.inr (Or.inr (Or.inr
      ⟨plain, rfl, scanLine_outsideKept w plain outside matched⟩))))
  | some decl => exact Or.inr (Or.inr (Or.inr (Or.inr (Or.inl
      ⟨rfl, scanLine_outsideDecl w plain outside matched⟩))))

end Steps

theorem scanLines_nil (w : WordClass) (state : ScanState) : scanLines w state [] = state := rfl

theorem scanLines_cons (w : WordClass) (state : ScanState) (line : Text) (lines : List Text) :
    scanLines w state (line :: lines) = scanLines w (scanLine w state line) lines := rfl

theorem scanLines_append (w : WordClass) (state : ScanState) (front back : List Text) :
    scanLines w state (front ++ back) = scanLines w (scanLines w state front) back :=
  List.foldl_append _ _ _ _

/-! ### Insertion -/

theorem listInsert_take_drop {α : Type} (items : List α) (position : Nat) (item : α) :
    (listInsert items position item).take (position + 1) = items.take position ++ [item] ∧
      (listInsert items position item).drop (position + 1) = items.drop position := by
  unfold listInsert
  by_cases within : position ≤ items.length
  · have size : (items.take position).length = position := List.length_take_of_le within
    exact ⟨by simp [List.take_append_eq_append_take, size],
      by simp [List.drop_append_eq_append_drop, size]⟩
  · have whole : items.take position = items := List.take_of_length_le (by omega)
    have none : items.drop position = [] := List.drop_of_length_le (by omega)
    rw [whole, none]
    exact ⟨List.take_of_length_le (by simp; omega), List.drop_of_length_le (by simp; omega)⟩

theorem insertEach_eq (lines : List Text) (position : Nat) (decls : List Text) :
    insertEach lines position decls = lines.take position ++ decls ++ lines.drop position := by
  induction decls generalizing lines position with
  | nil => simp [insertEach]
  | cons decl rest ih =>
      rw [insertEach, ih]
      obtain ⟨front, back⟩ := listInsert_take_drop lines position decl
      rw [front, back]
      simp

end ConflictResolver
