import ConflictResolver.Cargo.Members

/-!
What the four passes of `resolve_cargo_conflict` leave of a sound document, and how a run
ends; no run depends on the order the member set is enumerated in.
-/

namespace ConflictResolver

/-! ### The patterns of the last substitution -/

theorem matchMembersSpan_suffix {text found after : Text}
    (matched : matchMembersSpan text = some (found, after)) : after <:+ text.tail := by
  obtain ⟨⟨content, after'⟩, array, same⟩ := Option.map_eq_some'.mp matched
  cases same
  exact matchMembersArray_suffix array

theorem matchWorkspace_eq_some {text found after : Text}
    (matched : matchWorkspace text = some (found, after)) :
    found = workspaceHeader ∧ after <:+ text.tail := by
  unfold matchWorkspace at matched
  split at matched
  · cases matched
    exact ⟨rfl, by simpa using List.drop_suffix 10 text.tail⟩
  · cases matched

theorem matchWorkspace_eq_none {text : Text} (unheaded : ¬ workspaceHeader <+: text) :
    matchWorkspace text = none := by
  simp [matchWorkspace, List.isPrefixOf_iff_prefix, unheaded]

theorem matchWorkspace_header (rest : Text) :
    matchWorkspace (workspaceHeader ++ rest) = some (workspaceHeader, rest) := by
  rw [matchWorkspace, if_pos (List.isPrefixOf_iff_prefix.mpr (List.prefix_append _ _)),
    @List.drop_left' _ workspaceHeader rest 11 rfl]

theorem MarkerFree.subFrom {α : Type} {matcher : Text → Option (α × Text)} {replace : α → Text}
    {first last : Char} {mid text : Text} (free : MarkerFree text)
    (proper : ∀ text found after, matcher text = some (found, after) → after <:+ text.tail)
    (empty : matcher [] = none)
    (shape : ∀ text found after, matcher text = some (found, after) →
      replace found = first :: mid ++ [last])
    (breaksFirst : BreaksMarkers first) (breaksLast : BreaksMarkers last)
    (freeMid : MarkerFree mid) : MarkerFree (subFrom matcher replace 0 text) :=
  fun marker member inf =>
    (infix_subFrom matcher replace proper empty shape (breaksFirst marker member)
      (breaksLast marker member) text inf).elim (free marker member) (freeMid marker member)

theorem placeMembers_markerFree {block resolved : Text} (hasMembers : Bool)
    (plain : '\\' ∉ block) (shape : ∃ mid, block = 'm' :: mid ++ [']'])
    (freeBlock : MarkerFree block) (free : MarkerFree resolved) :
    ∃ out, placeMembers block hasMembers resolved = .ok out ∧ MarkerFree out := by
  obtain ⟨mid, rfl⟩ := shape
  have freeMid : MarkerFree mid :=
    freeBlock.mono ((List.infix_cons (List.prefix_append mid [']']).isInfix))
  unfold placeMembers
  split_ifs with headed header
  · rw [reSub_plain plain]
    exact ⟨_, rfl, free.subFrom (fun _ _ _ => matchMembersSpan_suffix) rfl
      (fun _ _ _ _ => rfl) (by decide) (by decide) freeMid⟩
  · have framed : ∀ text found after, matchWorkspace text = some (found, after) →
        found ++ '\n' :: ('m' :: mid ++ [']']) =
          '[' :: ("workspace]\nm".toList ++ mid) ++ [']'] := by
      intro _ found _ matched
      rw [(matchWorkspace_eq_some matched).1]
      rfl
    rw [reSub_groupOne plain]
    exact ⟨_, rfl, free.subFrom (fun _ _ _ matched => (matchWorkspace_eq_some matched).2) rfl
      framed (by decide) (by decide) (MarkerFree.plain_append (by decide) freeMid)⟩
  · exact ⟨resolved, rfl, free⟩

/-! ### The block and the members -/

theorem barMarkers_unframed :
    ∀ marker ∈ barMarkers, '"' ∉ marker ∧ ∀ frame ∈ blockFrames, ¬ marker <:+: frame := by
  decide

theorem membersBlock_markerFree {members : List Text} (free : ∀ m ∈ members, MarkerFree m) :
    MarkerFree (membersBlock members) := fun marker member inf => by
  obtain ⟨unquoted, unframed⟩ := barMarkers_unframed marker member
  obtain ⟨m, inMembers, inM⟩ := infix_membersBlock unquoted unframed inf
  exact free m inMembers marker member inM

theorem membersBlock_plain {members : List Text} (plain : ∀ m ∈ members, '\\' ∉ m) :
    '\\' ∉ membersBlock members := fun inBlock => by
  obtain ⟨m, inMembers, inM⟩ := @infix_membersBlock ['\\'] (by decide) (by decide) _
    (singleton_infix_iff.mpr inBlock)
  exact plain m inMembers (singleton_infix_iff.mp inM)

theorem infix_docText {chunk : Chunk} {chunks : List Chunk} (member : chunk ∈ chunks) :
    chunk.text <:+: docText chunks :=
  List.infix_of_mem_flatten (List.mem_map_of_mem Chunk.text member)

theorem GitRegion.startMarker_in_text (r : GitRegion) : startMarker <:+: r.text :=
  ⟨[], r.startLabel ++ ['\n'] ++ r.ours ++ separatorLine ++ r.theirs ++ r.endLine,
    by simp [GitRegion.text, GitRegion.startLine]⟩

theorem GitRegion.ours_in_text (r : GitRegion) : r.ours <:+: r.text :=
  ⟨r.startLine, separatorLine ++ r.theirs ++ r.endLine, by simp [GitRegion.text]⟩

theorem GitRegion.theirs_in_text (r : GitRegion) : r.theirs <:+: r.text :=
  ⟨r.startLine ++ r.ours ++ separatorLine, r.endLine, by simp [GitRegion.text]⟩

theorem markerFree_outside {chunks : List Chunk} (sound : ∀ chunk ∈ chunks, chunk.Sound) :
    MarkerFree (chunks.flatMap (Chunk.mapRegion fun _ => [])) :=
  markerFree_flatMap fun chunk member =>
    match chunk, sound chunk member with
    | .outside _, outside => outside
    | .region _, _ => ⟨Or.inl rfl, markerFree_nil⟩

theorem markerFree_unmarked {chunks : List Chunk} (sound : ∀ chunk ∈ chunks, chunk.Sound)
    (unmarked : ¬ startMarker <:+: docText chunks) : MarkerFree (docText chunks) :=
  markerFree_flatMap fun chunk member =>
    match chunk, sound chunk member with
    | .outside _, outside => outside
    | .region r, _ => absurd (r.startMarker_in_text.trans (infix_docText member)) unmarked

theorem cargoMembers_clean {chunks : List Chunk} (sound : ∀ chunk ∈ chunks, chunk.Sound)
    (plain : '\\' ∉ docText chunks) {x : Text} (member : x ∈ cargoMembers (docText chunks)) :
    MarkerFree x ∧ '\\' ∉ x := by
  suffices within : ∃ piece, MarkerFree piece ∧ piece ⊆ docText chunks ∧ x <:+: piece by
    obtain ⟨piece, free, sub, inf⟩ := within
    exact ⟨free.mono inf, fun inX => plain (sub (inf.subset inX))⟩
  rcases mem_cargoMembers.mp member with inRegion | inClean
  · obtain ⟨sides, found, inSide⟩ := mem_regionMembers.mp inRegion
    rw [findFrom_matchConflict_docText sound] at found
    obtain ⟨r, isRegion, rfl⟩ := List.mem_map.mp found
    obtain ⟨chunk, inChunks, regionOf⟩ := List.mem_filterMap.mp isRegion
    cases chunk with
    | outside => cases regionOf
    | region r' =>
        cases regionOf
        have regionSound : r.Sound := sound _ inChunks
        have inDoc := infix_docText inChunks
        rcases inSide with inOurs | inTheirs
        · exact ⟨r.ours, regionSound.ours.2, (r.ours_in_text.trans inDoc).subset,
            infix_of_mem_extractMembersFromBlock inOurs⟩
        · exact ⟨r.theirs, regionSound.theirs.2, (r.theirs_in_text.trans inDoc).subset,
            infix_of_mem_extractMembersFromBlock inTheirs⟩
  · refine ⟨_, markerFree_outside sound, fun c inOutside => ?_,
      cleanContent_docText sound ▸ infix_of_mem_extractMembersFromBlock inClean⟩
    obtain ⟨chunk, inChunks, inPiece⟩ := List.mem_flatMap.mp inOutside
    cases chunk with
    | outside text => exact List.mem_flatMap.mpr ⟨_, inChunks, inPiece⟩
    | region => cases inPiece

/-! ### The rewrite -/

theorem keepOurs_of_markerFree {text : Text} (free : MarkerFree text) : keepOurs text = text :=
  subFrom_eq_self matchGeneric id (by decide) (fun _ => matchGeneric_eq_none)
    (free _ (by decide))

theorem cargoRewrite_markerFree {chunks : List Chunk} (sound : ∀ chunk ∈ chunks, chunk.Sound)
    {members : List Text} (clean : ∀ m ∈ members, MarkerFree m ∧ '\\' ∉ m) :
    ∃ out, cargoRewrite (docText chunks) members = .ok out ∧ MarkerFree out := by
  obtain ⟨kept, sub, dropped⟩ := dropMembersConflicts_docText sound
  have keptSound : ∀ chunk ∈ kept, chunk.Sound :=
    fun chunk member => sound chunk (sub.subset member)
  have resolvedFree : MarkerFree (keepOurs (docText kept)) := by
    rw [keepOurs_docText keptSound]
    exact markerFree_flatMap fun chunk member =>
      match chunk, keptSound chunk member with
      | .outside _, outside => outside
      | .region _, regionSound => regionSound.ours
  obtain ⟨out, placed, free⟩ := placeMembers_markerFree (!members.isEmpty)
    (membersBlock_plain fun m member => (clean m member).2) (membersBlock_shape members)
    (membersBlock_markerFree fun m member => (clean m member).1) resolvedFree
  exact ⟨collapseBlankLines out, by rw [cargoRewrite, dropped, placed]; rfl,
    free.collapseBlankLines⟩

/-! ### How a run ends -/

theorem resolveCargoConflict_unmarked {iter : SetIter} {filePath raw : Text}
    (unmarked : containsText startMarker (readText raw) = false) :
    resolveCargoConflict iter filePath (some raw) =
      ⟨.returned true, some raw, ["No conflict markers found in ".toList ++ filePath], []⟩ := by
  simp [resolveCargoConflict, unmarked]

theorem resolveCargoConflict_rewritten {iter : SetIter} {filePath raw out : Text}
    (marked : containsText startMarker (readText raw) = true)
    (rewritten : cargoRewrite (readText raw)
      (sortedBy id ((cargoMembers (readText raw)).toList iter)) = .ok out) :
    (resolveCargoConflict iter filePath (some raw)).result = .returned true ∧
      (resolveCargoConflict iter filePath (some raw)).file = some out := by
  simp [resolveCargoConflict, marked, rewritten]

theorem MarkerFree.unmarked {text : Text} (free : MarkerFree text) :
    containsText startMarker text = false :=
  decide_eq_false fun found =>
    free bareStartMarker (by decide) ((by decide : bareStartMarker <:+: startMarker).trans found)

theorem resolveCargoConflict_sound {iter : SetIter} {filePath raw : Text} {chunks : List Chunk}
    (sound : ∀ chunk ∈ chunks, chunk.Sound) (layout : readText raw = docText chunks)
    (plain : '\\' ∉ raw) :
    ∃ output, (resolveCargoConflict iter filePath (some raw)).result = .returned true ∧
      (resolveCargoConflict iter filePath (some raw)).file = some output ∧
      MarkerFree (readText output) := by
  have plainDoc : '\\' ∉ docText chunks := fun inDoc => plain (singleton_infix_iff.mp
    (infix_of_infix_readText (by decide) (by decide) (layout ▸ singleton_infix_iff.mpr inDoc)))
  cases marked : containsText startMarker (readText raw)
  · have unmarked : ¬ startMarker <:+: docText chunks := by
      simpa [containsText, layout] using marked
    rw [resolveCargoConflict_unmarked marked]
    exact ⟨raw, rfl, rfl, layout ▸ markerFree_unmarked sound unmarked⟩
  · have clean : ∀ m ∈ sortedBy id ((cargoMembers (docText chunks)).toList iter),
        MarkerFree m ∧ '\\' ∉ m := fun _ member =>
      cargoMembers_clean sound plainDoc (PySet.mem_toList.mp (mem_sortedBy.mp member))
    obtain ⟨out, rewritten, free⟩ := cargoRewrite_markerFree sound clean
    obtain ⟨returned, written⟩ :=
      resolveCargoConflict_rewritten marked (by rw [layout]; exact rewritten)
    exact ⟨out, returned, written, free.readText⟩

theorem resolveCargoConflict_iter (iter : SetIter) (filePath : Text) (file : Option Text) :
    resolveCargoConflict iter filePath file =
      resolveCargoConflict SetIter.stored filePath file := by
  cases file with
  | none => rfl
  | some raw =>
      simp only [resolveCargoConflict, PySet.toList, SetIter.stored, id,
        sortedBy_id_eq_of_perm (iter.perm (cargoMembers (readText raw)).elems)]

end ConflictResolver
