import ConflictResolver.Cargo.Merge
import ConflictResolver.Cargo.Unkeyed

/-!
A members conflict below other regions: the optional groups of `members_conflict_pattern` run
past end lines, so the first pass deletes the earlier regions and the text between them too.
-/

namespace ConflictResolver

theorem mem_regionMembers_docText {chunks : List Chunk} (sound : ∀ chunk ∈ chunks, chunk.Sound)
    {x : Text} :
    x ∈ regionMembers (docText chunks) ↔ ∃ r, Chunk.region r ∈ chunks ∧
      (x ∈ extractMembersFromBlock r.ours ∨ x ∈ extractMembersFromBlock r.theirs) := by
  rw [mem_regionMembers, findFrom_matchConflict_docText sound]
  constructor
  · rintro ⟨sides, found, inSides⟩
    obtain ⟨r, inRegions, rfl⟩ := List.mem_map.mp found
    obtain ⟨chunk, inChunks, isRegion⟩ := List.mem_filterMap.mp inRegions
    cases chunk with
    | outside _ => cases isRegion
    | region r' =>
        obtain rfl : r' = r := Option.some.inj isRegion
        exact ⟨r', inChunks, inSides⟩
  · rintro ⟨r, inChunks, inSides⟩
    exact ⟨(r.ours, some r.theirs),
      List.mem_map.mpr ⟨r, List.mem_filterMap.mpr ⟨_, inChunks, rfl⟩, rfl⟩, inSides⟩

/-- The manifest of `c` with a region `r` and the chunks `mid` between the text before the
header's region and the members conflict. -/
def MembersConflict.leadChunks (c : MembersConflict) (r : GitRegion) (mid : List Chunk) :
    List Chunk :=
  .outside c.before :: .region r :: mid ++ [.region c.region, .outside c.after]

theorem MembersConflict.docText_leadChunks (c : MembersConflict) (r : GitRegion)
    (mid : List Chunk) :
    docText (c.leadChunks r mid) =
      c.before ++ (r.text ++ (docText mid ++ (c.region.text ++ c.after))) := by
  simp [MembersConflict.leadChunks, docText, Chunk.text]

theorem MembersConflict.Sound.leadChunks_sound {c : MembersConflict} (sound : c.Sound) {r : GitRegion}
    {mid : List Chunk} (lead : ∀ chunk ∈ .region r :: mid, chunk.Sound) :
    ∀ chunk ∈ c.leadChunks r mid, chunk.Sound := by
  intro chunk member
  simp only [MembersConflict.leadChunks, List.cons_append, List.mem_cons, List.mem_append,
    List.mem_singleton, List.mem_nil_iff, or_false] at member
  rcases member with rfl | rfl | inMid | rfl | rfl
  · exact sound.chunks _ (by simp [MembersConflict.chunks])
  · exact lead _ (List.mem_cons_self _ _)
  · exact lead _ (List.mem_cons_of_mem _ inMid)
  · exact sound.region
  · exact sound.chunks _ (by simp [MembersConflict.chunks])

section Lead

variable {c : MembersConflict} (sound : c.Sound) {r : GitRegion} {mid : List Chunk}
  (lead : ∀ chunk ∈ .region r :: mid, chunk.Sound)
  (unkeyed : ¬ membersKey <:+: docText (.region r :: mid) ++ c.region.startLine)
include sound lead unkeyed

theorem MembersConflict.Sound.matchMembersConflict_lead (rest : Text) :
    matchMembersConflict (r.text ++ (docText mid ++ (c.region.text ++ rest))) = some ((), rest) := by
  have rSound : r.Sound := lead _ (List.mem_cons_self _ _)
  have avoids : Avoids membersKey (r.ours ++ (separatorLine ++ (r.theirs ++ (r.endLine ++
      (docText mid ++ c.region.startLine))))) :=
    avoids_of_endsLine (by decide)
      (fun inf => unkeyed (inf.trans ⟨r.startLine, [], by simp [GitRegion.text, Chunk.text]⟩))
      (Or.inr (by simp [GitRegion.startLine]))
  have separated := sound.optionalMembers_region avoids rest
  simp only [List.append_assoc] at separated
  rw [ConflictResolver.matchMembersConflict, rSound.startLineRest_text, Option.some_bind]
  simp only [GitRegion.text, List.append_assoc, separated]
  rfl

theorem MembersConflict.Sound.dropMembersConflicts_lead :
    ConflictResolver.dropMembersConflicts (docText (c.leadChunks r mid)) = c.before ++ c.after := by
  have before : EndsLine c.before ∧ MarkerFree c.before :=
    sound.chunks (.outside c.before) (by simp [MembersConflict.chunks])
  have after : EndsLine c.after ∧ MarkerFree c.after :=
    sound.chunks (.outside c.after) (by simp [MembersConflict.chunks])
  have matched := sound.matchMembersConflict_lead lead unkeyed c.after
  rw [GitRegion.text_cons] at matched
  rw [MembersConflict.docText_leadChunks, dropMembersConflicts_outside_append before,
    ConflictResolver.dropMembersConflicts, GitRegion.text_cons, subFrom_of_match _ _ matched
      ⟨r.text.tail ++ docText mid ++ c.region.text, by simp only [List.append_assoc]⟩,
    List.nil_append, ← ConflictResolver.dropMembersConflicts, ← List.append_nil c.after,
    dropMembersConflicts_outside_append after]
  rfl

theorem MembersConflict.Sound.mem_cargoMembers_lead {x : Text} :
    x ∈ cargoMembers (docText (c.leadChunks r mid)) ↔ x ∈ c.ours.names ∨ x ∈ c.theirs.names := by
  have chunksSound := sound.leadChunks_sound lead
  have leadFree : ¬ membersKey <:+: docText (.region r :: mid) :=
    fun inf => unkeyed (inf.trans (List.infix_append [] _ _))
  have midFree : ¬ membersKey <:+: docText mid :=
    fun inf => leadFree (inf.trans (List.suffix_append r.text (docText mid)).isInfix)
  have outsideFree : ∀ x, Chunk.outside x ∈ c.leadChunks r mid → ¬ membersKey <:+: x := by
    intro x member inf
    simp only [MembersConflict.leadChunks, List.cons_append, List.mem_cons, List.mem_append,
      List.mem_singleton, List.mem_nil_iff, or_false, Chunk.outside.injEq, reduceCtorEq,
      false_or] at member
    rcases member with rfl | inMid | rfl
    · exact sound.unkeyed (inf.trans (List.infix_append [] _ _))
    · exact midFree (inf.trans (infix_docText inMid))
    · exact sound.unkeyed (inf.trans (List.suffix_append _ _).isInfix)
  have clean : ¬ membersKey <:+: cleanContent (docText (c.leadChunks r mid)) := by
    rw [cleanContent_docText chunksSound]
    intro inf
    obtain ⟨chunk, member, inPiece⟩ := infix_flatMap_of_endsLine (by decide) (by decide)
      (fun chunk member => match chunk, member with
        | .outside _, member => (chunksSound _ member).1
        | .region _, _ => Or.inl rfl) inf
    cases chunk with
    | outside x => exact outsideFree x member inPiece
    | region _ => exact absurd (List.eq_nil_of_infix_nil inPiece) (by decide)
  have regionsOf : ∀ r', Chunk.region r' ∈ c.leadChunks r mid →
      Chunk.region r' ∈ Chunk.region r :: mid ∨ r' = c.region := by
    intro r' member
    simp only [MembersConflict.leadChunks, List.cons_append, List.mem_cons, List.mem_append,
      List.mem_singleton, List.mem_nil_iff, or_false, Chunk.region.injEq, reduceCtorEq,
      false_or] at member ⊢
    exact member.elim (Or.inl ∘ Or.inl) fun later => later.imp_left Or.inr
  rw [ConflictResolver.mem_cargoMembers, mem_regionMembers_docText chunksSound,
    extractMembersFromBlock_eq_empty clean, or_iff_left (PySet.not_mem_empty x)]
  constructor
  · rintro ⟨r', member, inSides⟩
    rcases regionsOf r' member with inLead | rfl
    · have noKey : ¬ membersKey <:+: r'.text := fun inf => leadFree (inf.trans (infix_docText inLead))
      rw [extractMembersFromBlock_eq_empty fun inf => noKey (inf.trans r'.ours_in_text),
        extractMembersFromBlock_eq_empty fun inf => noKey (inf.trans r'.theirs_in_text)] at inSides
      exact absurd inSides (by simp [PySet.not_mem_empty])
    · simp only [MembersConflict.region, List.append_assoc] at inSides
      rwa [sound.ours.1.extract sound.ours.2, sound.theirs.1.extract sound.theirs.2] at inSides
  · intro inArrays
    refine ⟨c.region, by simp [MembersConflict.leadChunks], ?_⟩
    simp only [MembersConflict.region, List.append_assoc]
    rwa [sound.ours.1.extract sound.ours.2, sound.theirs.1.extract sound.theirs.2]

end Lead

/-- On a manifest whose members conflict comes after other regions, with no `members` key from
the first of them up to the start line of the members conflict, the tool returns and writes the
file it writes for the manifest without any of that text: the outside text without the regions,
with the block of the union of the two arrays' entries, ascending and each once, right after the
header. Every line from the first start marker to the members conflict's end marker is lost. -/
theorem resolveCargoConflict_drops_lead (iter : SetIter) (filePath raw : Text)
    (c : MembersConflict) (sound : c.Sound) (r : GitRegion) (mid : List Chunk)
    (lead : ∀ chunk ∈ .region r :: mid, chunk.Sound)
    (unkeyed : ¬ membersKey <:+: docText (.region r :: mid) ++ c.region.startLine)
    (layout : readText raw = docText (c.leadChunks r mid))
    (plain : ∀ m ∈ c.ours.names ++ c.theirs.names, '\\' ∉ m)
    (nonempty : c.ours.names ++ c.theirs.names ≠ []) :
    ∃ merged : List Text, merged.Pairwise (· < ·) ∧
      (∀ m, m ∈ merged ↔ m ∈ c.ours.names ∨ m ∈ c.theirs.names) ∧
      (resolveCargoConflict iter filePath (some raw)).result = .returned true ∧
      (resolveCargoConflict iter filePath (some raw)).file = some (collapseBlankLines
        (c.front ++ workspaceHeader ++ '\n' :: membersBlock merged ++ c.back ++ c.after)) := by
  have members : ∀ m, m ∈ sortedBy id ((cargoMembers (readText raw)).toList iter) ↔
      m ∈ c.ours.names ∨ m ∈ c.theirs.names := fun m => by
    rw [mem_sortedBy, PySet.mem_toList, layout, sound.mem_cargoMembers_lead lead unkeyed]
  have filled : (!(sortedBy id ((cargoMembers (readText raw)).toList iter)).isEmpty) = true := by
    obtain ⟨m, member⟩ := List.exists_mem_of_ne_nil _ nonempty
    simpa using List.ne_nil_of_mem ((members m).mpr (List.mem_append.mp member))
  have marked : containsText startMarker (readText raw) = true := by
    rw [layout]
    exact decide_eq_true (r.startMarker_in_text.trans
      (@infix_docText (.region r) (c.leadChunks r mid) (by simp [MembersConflict.leadChunks])))
  have rewritten := sound.placeMembers (membersBlock_plain fun m member =>
    plain m (List.mem_append.mpr ((members m).mp member)))
  rw [← filled, ← keepOurs_of_markerFree sound.outside, ← sound.dropMembersConflicts_lead lead unkeyed,
    ← layout] at rewritten
  exact ⟨_, sortedBy_strict (PySet.nodup_toList _ _), members,
    resolveCargoConflict_rewritten marked (by rw [cargoRewrite, rewritten]; rfl)⟩

/-- A members conflict under `[workspace]` and `resolver`, with the arrays `a`, `b` and `a`, `c`,
above the dependencies. -/
def leadConflict : MembersConflict where
  front := []
  back := "\nresolver = \"2\"\n".toList
  startLabel := "HEAD".toList
  oursFront := []
  ours := ⟨[' '], [' '], [], [("a".toList, ", ".toList), ("b".toList, [])]⟩
  oursBack := ['\n']
  theirsFront := []
  theirs := ⟨[' '], [' '], [], [("a".toList, ", ".toList), ("c".toList, [])]⟩
  theirsBack := ['\n']
  endLabel := "br".toList
  after := "\n[dependencies]\nx = \"1\"\n".toList

/-- A region over `exclude` before the members conflict. -/
def excludeRegion : GitRegion :=
  ⟨"HEAD".toList, "exclude = [\"x\"]\n".toList, "exclude = [\"y\"]\n".toList, "br".toList⟩

set_option maxRecDepth 4000 in
theorem exclude_region_lost :
    ∃ merged : List Text, merged.Pairwise (· < ·) ∧
      (∀ m, m ∈ merged ↔ m ∈ leadConflict.ours.names ∨ m ∈ leadConflict.theirs.names) ∧
      (resolveCargoConflict SetIter.stored "Cargo.toml".toList (some (docText
          (leadConflict.leadChunks excludeRegion [.outside "default-run = \"a\"\n".toList])))).result =
        .returned true ∧
      (resolveCargoConflict SetIter.stored "Cargo.toml".toList (some (docText
          (leadConflict.leadChunks excludeRegion [.outside "default-run = \"a\"\n".toList])))).file =
        some (collapseBlankLines (leadConflict.front ++ workspaceHeader ++
          '\n' :: membersBlock merged ++ leadConflict.back ++ leadConflict.after)) :=
  resolveCargoConflict_drops_lead SetIter.stored "Cargo.toml".toList _ leadConflict (by decide)
    excludeRegion [.outside "default-run = \"a\"\n".toList] (by decide) (by decide) (by decide)
    (by decide) (by decide)

end ConflictResolver
