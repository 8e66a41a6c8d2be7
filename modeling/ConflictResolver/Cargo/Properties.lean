import ConflictResolver.Cargo.Merge
import ConflictResolver.LibRs.Regions

/-!
What `resolve_cargo_conflict` guarantees about the file it writes, and fixed manifests on which
its patterns reach beyond one region or miss a region.
-/

namespace ConflictResolver

/-- The default path of `main`. -/
def defaultCargoPath : Text := "Cargo.toml".toList

/-- A workspace whose members array is in conflict. -/
def sampleCargo : Text :=
  ("[workspace]\n<<<<<<< HEAD\nmembers = [\"a\", \"c\"]\n=======\n" ++
    "members = [\"b\"]\n>>>>>>> br\n").toList

/-- `sampleCargo` as a members conflict. -/
def sampleMembersConflict : MembersConflict where
  front := []
  back := ['\n']
  startLabel := "HEAD".toList
  oursFront := []
  ours := ⟨[' '], [' '], [], [("a".toList, ", ".toList), ("c".toList, [])]⟩
  oursBack := ['\n']
  theirsFront := []
  theirs := ⟨[' '], [' '], [], [("b".toList, [])]⟩
  theirsBack := ['\n']
  endLabel := "br".toList
  after := []

/-! ### Marker elimination -/

/-- Over a sound document without a backslash the tool returns, and no line of the file it
writes begins with a marker. -/
theorem resolveCargoConflict_removes_markers (iter : SetIter) (filePath raw : Text)
    (chunks : List Chunk) (sound : ∀ chunk ∈ chunks, chunk.Sound)
    (layout : readText raw = docText chunks) (plain : '\\' ∉ raw) :
    ∃ output, (resolveCargoConflict iter filePath (some raw)).result = .returned true ∧
      (resolveCargoConflict iter filePath (some raw)).file = some output ∧
      ∀ line ∈ textLines output, bareStartMarker.isPrefixOf line = false ∧
        separatorMarker.isPrefixOf line = false ∧ bareEndMarker.isPrefixOf line = false := by
  obtain ⟨output, returned, written, free⟩ := resolveCargoConflict_sound sound layout plain
  exact ⟨output, returned, written, free.lines⟩

theorem sample_removes_markers :
    ∃ output, (resolveCargoConflict SetIter.stored defaultCargoPath (some sampleCargo)).result =
        .returned true ∧
      (resolveCargoConflict SetIter.stored defaultCargoPath (some sampleCargo)).file = some output ∧
      ∀ line ∈ textLines output, bareStartMarker.isPrefixOf line = false ∧
        separatorMarker.isPrefixOf line = false ∧ bareEndMarker.isPrefixOf line = false :=
  resolveCargoConflict_removes_markers SetIter.stored defaultCargoPath sampleCargo
    sampleMembersConflict.chunks (by decide) (by decide) (by decide)

/-- A region without a separator. -/
def separatorlessCargo : Text := "<<<<<<< a\nb\n>>>>>>> c\n".toList

/-- `conflict_pattern` reads a region without a separator, but neither rewrite pattern matches
it, so the file is written back as it was, marker lines included. -/
theorem separatorless_region_survives (iter : SetIter) :
    markersNest .outside (textLines separatorlessCargo) = true ∧
      (resolveCargoConflict iter defaultCargoPath (some separatorlessCargo)).result =
        .returned true ∧
      (resolveCargoConflict iter defaultCargoPath (some separatorlessCargo)).file =
        some separatorlessCargo := by
  rw [resolveCargoConflict_iter]
  decide

/-! ### Merging the members -/

/-- On a manifest whose region holds a `members` array on each side, the tool returns and writes
the outside text without the region, with the block of the union of the two arrays' entries,
ascending and each once, right after the header. -/
theorem resolveCargoConflict_merges_members (iter : SetIter) (filePath raw : Text)
    (c : MembersConflict) (sound : c.Sound) (layout : readText raw = docText c.chunks)
    (plain : ∀ m ∈ c.ours.names ++ c.theirs.names, '\\' ∉ m)
    (nonempty : c.ours.names ++ c.theirs.names ≠ []) :
    ∃ merged : List Text, merged.Pairwise (· < ·) ∧
      (∀ m, m ∈ merged ↔ m ∈ c.ours.names ∨ m ∈ c.theirs.names) ∧
      (resolveCargoConflict iter filePath (some raw)).result = .returned true ∧
      (resolveCargoConflict iter filePath (some raw)).file = some (collapseBlankLines
        (c.front ++ workspaceHeader ++ '\n' :: membersBlock merged ++ c.back ++ c.after)) := by
  have members : ∀ m, m ∈ sortedBy id ((cargoMembers (readText raw)).toList iter) ↔
      m ∈ c.ours.names ∨ m ∈ c.theirs.names := fun m => by
    rw [mem_sortedBy, PySet.mem_toList, layout, sound.mem_cargoMembers]
  have filled : (!(sortedBy id ((cargoMembers (readText raw)).toList iter)).isEmpty) = true := by
    obtain ⟨m, member⟩ := List.exists_mem_of_ne_nil _ nonempty
    simpa using List.ne_nil_of_mem ((members m).mpr (List.mem_append.mp member))
  have marked : containsText startMarker (readText raw) = true := by
    rw [layout]
    exact decide_eq_true (c.region.startMarker_in_text.trans
      (@infix_docText (.region c.region) c.chunks (by simp [MembersConflict.chunks])))
  have rewritten := sound.placeMembers (membersBlock_plain fun m member =>
    plain m (List.mem_append.mpr ((members m).mp member)))
  rw [← filled, ← keepOurs_of_markerFree sound.outside, ← sound.dropMembersConflicts, ← layout]
    at rewritten
  exact ⟨_, sortedBy_strict (PySet.nodup_toList _ _), members,
    resolveCargoConflict_rewritten marked (by rw [cargoRewrite, rewritten]; rfl)⟩

theorem sample_merges_members :
    ∃ merged : List Text, merged.Pairwise (· < ·) ∧
      (∀ m, m ∈ merged ↔ m ∈ sampleMembersConflict.ours.names ∨
        m ∈ sampleMembersConflict.theirs.names) ∧
      (resolveCargoConflict SetIter.stored defaultCargoPath (some sampleCargo)).result =
        .returned true ∧
      (resolveCargoConflict SetIter.stored defaultCargoPath (some sampleCargo)).file =
        some (collapseBlankLines (sampleMembersConflict.front ++ workspaceHeader ++
          '\n' :: membersBlock merged ++ sampleMembersConflict.back ++
          sampleMembersConflict.after)) :=
  resolveCargoConflict_merges_members SetIter.stored defaultCargoPath sampleCargo
    sampleMembersConflict (by decide) (by decide) (by decide) (by decide)

/-- A conflict inside the brackets of the array: the ours version lists `a` and the theirs
version `b`, but neither side holds the key, and outside the region the array is empty. -/
def splitArrayCargo : Text :=
  "[workspace]\nmembers = [\n<<<<<<< HEAD\n    \"a\",\n=======\n    \"b\",\n>>>>>>> br\n]\n".toList

/-- The tool finds no member and empties the array. -/
theorem split_array_loses_members (iter : SetIter) :
    (resolveCargoConflict iter defaultCargoPath (some splitArrayCargo)).file =
      some "[workspace]\nmembers = []\n".toList := by
  rw [resolveCargoConflict_iter]
  decide

/-! ### Regions the members-conflict pattern runs into -/

/-- A region without members, an outside line, and a region whose sides hold arrays. -/
def crossRegionCargo : Text :=
  ("[workspace]\n<<<<<<< a\nx = 1\n=======\nx = 2\n>>>>>>> b\nresolver = \"2\"\n" ++
    "<<<<<<< c\nmembers = [\"p\"]\n=======\nmembers = [\"q\"]\n>>>>>>> d\n").toList

/-- The merged manifest the tool writes for `crossRegionCargo` and `adjacentRegionsCargo`. -/
def mergedPQ : Text := "[workspace]\nmembers = [\n    \"p\",\n    \"q\",\n]\n".toList

set_option maxRecDepth 20000 in
/-- The members-conflict match started at the first region runs to the end of the second: the
outside line between them is deleted with both. -/
theorem cargo_drops_line_between_regions (iter : SetIter) :
    (resolveCargoConflict iter defaultCargoPath (some crossRegionCargo)).file = some mergedPQ := by
  rw [resolveCargoConflict_iter]
  decide

/-- A region without members right before a region whose sides hold arrays. -/
def adjacentRegionsCargo : Text :=
  ("[workspace]\n<<<<<<< a\nx = 1\n=======\nx = 2\n>>>>>>> b\n" ++
    "<<<<<<< c\nmembers = [\"p\"]\n=======\nmembers = [\"q\"]\n>>>>>>> d\n").toList

set_option maxRecDepth 20000 in
/-- The first region is deleted with the second, and its ours line `x = 1` is lost. -/
theorem cargo_drops_generic_ours (iter : SetIter) :
    (resolveCargoConflict iter defaultCargoPath (some adjacentRegionsCargo)).file =
      some mergedPQ := by
  rw [resolveCargoConflict_iter]
  decide

/-! ### Texts without a marker line -/

/-- A manifest whose only `<<<<<<< ` is in a comment, with `default-members` before `members`. -/
def commentedMarkerCargo : Text :=
  ("# see <<<<<<< markers\n[workspace]\ndefault-members = [\"x\"]\n" ++
    "members = [\"a\", \"x\"]\n").toList

/-- What the tool writes for `commentedMarkerCargo`. -/
def defaultOnlyCargo : Text :=
  ("# see <<<<<<< markers\n[workspace]\ndefault-members = [\n    \"x\",\n]\n" ++
    "members = [\n    \"x\",\n]\n").toList

set_option maxRecDepth 20000 in
/-- The guard looks for `<<<<<<< ` anywhere, so a manifest without a marker line is rewritten:
the members are read from the `default-members` array and member `a` is lost. -/
theorem commented_marker_loses_member (iter : SetIter) :
    (∀ line ∈ textLines commentedMarkerCargo, bareStartMarker.isPrefixOf line = false) ∧
      (resolveCargoConflict iter defaultCargoPath (some commentedMarkerCargo)).file =
        some defaultOnlyCargo := by
  rw [resolveCargoConflict_iter]
  decide

/-! ### Reading a members array -/

/-- A text without `members` gives no member, and a text whose first `members` is the key of an
array as TOML writes it gives exactly that array's entries, whatever follows the array. -/
theorem extractMembersFromBlock_arrays :
    (∀ block : Text, ¬ membersKey <:+: block → extractMembersFromBlock block = PySet.empty) ∧
      ∀ (a : MembersArray) (pre post : Text), a.Sound → Avoids membersKey pre →
        ∀ x, x ∈ extractMembersFromBlock (pre ++ (a.text ++ post)) ↔ x ∈ a.names :=
  ⟨fun _ unkeyed => extractMembersFromBlock_eq_empty unkeyed,
    fun _ _ post sound before x => sound.extract before post x⟩

/-- The array `members = ["a"]` after a workspace header. -/
def sampleArray : MembersArray := ⟨[' '], [' '], [], [("a".toList, [])]⟩

theorem sample_array_extracted :
    sampleArray.Sound ∧ Avoids membersKey "[workspace]\n".toList ∧
      ("a".toList ∈ extractMembersFromBlock ("[workspace]\n".toList ++ (sampleArray.text ++ [])) ↔
        "a".toList ∈ sampleArray.names) :=
  ⟨by decide, by decide, extractMembersFromBlock_arrays.2 sampleArray _ [] (by decide) (by decide) _⟩

/-- A `default-members` array before the `members` array. -/
def defaultMembersBlock : Text := "default-members = [\"x\"]\nmembers = [\"a\"]\n".toList

/-- Two `members` arrays. -/
def twoArraysBlock : Text := "members = [\"a\"]\nmembers = [\"b\"]\n".toList

/-- `members\s*=\s*\[` is searched for anywhere and only its first match is read, so the
entries of `default-members` are taken for the members and a second `members` array is not
read. -/
theorem members_first_array_only :
    "x".toList ∈ extractMembersFromBlock defaultMembersBlock ∧
      "a".toList ∉ extractMembersFromBlock defaultMembersBlock ∧
      "b".toList ∉ extractMembersFromBlock twoArraysBlock := by
  decide

/-! ### The block written back -/

/-- The block the tool writes for the sorted members of a set of non-empty strings without a quote
or a bracket reads back as exactly that set. -/
theorem membersBlock_round_trip (S : PySet) (clean : ∀ m ∈ S, m ≠ [] ∧ '"' ∉ m ∧ ']' ∉ m)
    (iter : SetIter) (x : Text) :
    x ∈ extractMembersFromBlock (membersBlock (sortedBy id (S.toList iter))) ↔ x ∈ S := by
  have sound : (blockArray (sortedBy id (S.toList iter))).Sound := blockArray_sound fun m member =>
    clean m (PySet.mem_toList.mp (mem_sortedBy.mp member))
  rw [membersBlock_eq_text, ← List.nil_append (blockArray _).text,
    ← List.append_nil (blockArray _).text, sound.extract (avoids_nil membersKey) [] x,
    blockArray_names, mem_sortedBy, PySet.mem_toList]

/-- The set of the two members `b` and `a`. -/
def sampleMemberSet : PySet := ⟨["b".toList, "a".toList], by decide⟩

theorem sample_round_trip :
    "a".toList ∈ extractMembersFromBlock
        (membersBlock (sortedBy id (sampleMemberSet.toList SetIter.stored))) ↔
      "a".toList ∈ sampleMemberSet :=
  membersBlock_round_trip sampleMemberSet (by decide) SetIter.stored "a".toList

end ConflictResolver
