import ConflictResolver.Cargo.Rewrite

/-!
The conflict the tool was written for (`MembersConflict`): one region whose sides are
`members` arrays, below the `[workspace]` header.
-/

namespace ConflictResolver

/-- A manifest with one conflict region whose two sides each hold a whole `members` array after
text without the key, below the `[workspace]` header. -/
structure MembersConflict where
  front : Text
  back : Text
  startLabel : Text
  oursFront : Text
  ours : MembersArray
  oursBack : Text
  theirsFront : Text
  theirs : MembersArray
  theirsBack : Text
  endLabel : Text
  after : Text
  deriving DecidableEq, Repr

/-- The outside text before the region: the header, with what surrounds it. -/
def MembersConflict.before (c : MembersConflict) : Text := c.front ++ workspaceHeader ++ c.back

def MembersConflict.region (c : MembersConflict) : GitRegion :=
  ⟨c.startLabel, c.oursFront ++ c.ours.text ++ c.oursBack,
    c.theirsFront ++ c.theirs.text ++ c.theirsBack, c.endLabel⟩

def MembersConflict.chunks (c : MembersConflict) : List Chunk :=
  [.outside c.before, .region c.region, .outside c.after]

/-- The two outside chunks are whole lines and the region is as git writes it; each array is the
first `members` key of its side and the key occurs nowhere outside the region; the header
starts in the text before the region, and nowhere after it. -/
structure MembersConflict.Sound (c : MembersConflict) : Prop where
  chunks : ∀ chunk ∈ c.chunks, chunk.Sound
  ours : c.ours.Sound ∧ Avoids membersKey c.oursFront
  theirs : c.theirs.Sound ∧ Avoids membersKey c.theirsFront
  unkeyed : ¬ membersKey <:+: c.before ++ c.after
  header : Avoids workspaceHeader c.front ∧ ¬ workspaceHeader <:+: c.back ++ c.after

instance (c : MembersConflict) : Decidable c.Sound :=
  decidable_of_iff (_ ∧ _ ∧ _ ∧ _ ∧ _)
    ⟨fun ⟨a, b, c, d, e⟩ => ⟨a, b, c, d, e⟩, fun ⟨a, b, c, d, e⟩ => ⟨a, b, c, d, e⟩⟩

theorem MembersConflict.docText_chunks (c : MembersConflict) :
    docText c.chunks = c.before ++ (c.region.text ++ c.after) := by
  simp [MembersConflict.chunks, Chunk.text]

theorem avoids_after_array {marker front back : Text} {a : MembersArray}
    (member : marker ∈ barMarkers) (side : EndsLine (front ++ a.text ++ back) ∧
      MarkerFree (front ++ a.text ++ back)) : Avoids marker back :=
  avoids_of_markerFree member (side.2.mono (List.suffix_append _ _).isInfix)
    (EndsLine.of_append side.1)

section Sound

variable {c : MembersConflict} (sound : c.Sound)
include sound

theorem MembersConflict.Sound.region : c.region.Sound :=
  sound.chunks (.region c.region) (by simp [MembersConflict.chunks])

theorem MembersConflict.Sound.outside : MarkerFree (c.before ++ c.after) :=
  have before : EndsLine c.before ∧ MarkerFree c.before :=
    sound.chunks (.outside c.before) (by simp [MembersConflict.chunks])
  have after : EndsLine c.after ∧ MarkerFree c.after :=
    sound.chunks (.outside c.after) (by simp [MembersConflict.chunks])
  before.2.append_of_endsLine before.1 after.2

theorem MembersConflict.Sound.optionalMembers_region {lead : Text}
    (first : Avoids membersKey lead) (rest : Text) :
    optionalMembers (fun text => (separatorRest text).bind (optionalMembers endLineRest))
      (lead ++ (c.region.ours ++ (separatorLine ++ (c.region.theirs ++ (c.region.endLine ++
        rest))))) = some rest := by
  have region := sound.region
  have endFails := fails_of_avoids (fun _ => endLineRest_eq_none)
    (avoids_after_array (by decide) region.theirs) (c.region.endLine ++ rest)
  have ended : optionalMembers endLineRest (c.region.theirs ++ (c.region.endLine ++ rest)) =
      some rest := by
    simpa [MembersConflict.region] using
      sound.theirs.1.optionalMembers sound.theirs.2 endFails (region.endLineRest_endLine rest)
  have separatorFails : ∀ i < c.oursBack.length, (fun text => (separatorRest text).bind
      (optionalMembers endLineRest)) (c.oursBack.drop i ++
        (separatorLine ++ (c.region.theirs ++ (c.region.endLine ++ rest)))) = none :=
    fun i inside => by
      simp [separatorRest_eq_none
        ((avoids_after_array (by decide) region.ours).not_prefix_at inside _)]
  have separated := @MembersArray.Sound.optionalMembers c.ours sound.ours.1 _
    (fun text => (separatorRest text).bind (optionalMembers endLineRest)) (lead ++ c.oursFront)
    c.oursBack _ _ (first.append sound.ours.2) separatorFails
    (by dsimp only; rw [separatorRest_separatorLine, Option.some_bind, ended])
  simpa only [MembersConflict.region, List.append_assoc] using separated

theorem MembersConflict.Sound.matchMembersConflict_region (rest : Text) :
    matchMembersConflict (c.region.text ++ rest) = some ((), rest) := by
  have separated := sound.optionalMembers_region (avoids_nil membersKey) rest
  rw [List.nil_append] at separated
  simp only [ConflictResolver.matchMembersConflict, sound.region.startLineRest_text,
    Option.some_bind, separated]
  rfl

theorem MembersConflict.Sound.dropMembersConflicts :
    dropMembersConflicts (docText c.chunks) = c.before ++ c.after := by
  rw [ConflictResolver.dropMembersConflicts, subFrom_docText sound.chunks matchMembersConflict
    (fun _ => []) (fun _ => ()) (fun _ => matchMembersConflict_eq_none)
    fun r member rest => by
      obtain rfl : r = c.region := by simpa [MembersConflict.chunks] using member
      exact sound.matchMembersConflict_region rest]
  simp [MembersConflict.chunks, Chunk.mapRegion]

theorem MembersConflict.Sound.mem_cargoMembers {x : Text} :
    x ∈ cargoMembers (docText c.chunks) ↔ x ∈ c.ours.names ∨ x ∈ c.theirs.names := by
  have clean : cleanContent (docText c.chunks) = c.before ++ c.after := by
    rw [cleanContent_docText sound.chunks]
    simp [MembersConflict.chunks, Chunk.mapRegion]
  rw [ConflictResolver.mem_cargoMembers, mem_regionMembers,
    findFrom_matchConflict_docText sound.chunks,
    clean, extractMembersFromBlock_eq_empty sound.unkeyed]
  simp only [MembersConflict.chunks, List.filterMap_cons, Chunk.region?, List.filterMap_nil,
    List.map_cons, List.map_nil, List.mem_singleton, exists_eq_left, Option.getD_some,
    PySet.not_mem_empty, or_false, MembersConflict.region, List.append_assoc]
  rw [sound.ours.1.extract sound.ours.2, sound.theirs.1.extract sound.theirs.2]

theorem MembersConflict.Sound.placeMembers {block : Text} (plain : '\\' ∉ block) :
    placeMembers block true (c.before ++ c.after) =
      .ok (c.front ++ workspaceHeader ++ '\n' :: block ++ c.back ++ c.after) := by
  have unheaded := searchFirst_eq_none membersHead (by decide)
    (fun _ => membersHead_eq_none) sound.unkeyed
  have headed : containsText workspaceHeader (c.before ++ c.after) = true :=
    decide_eq_true ⟨c.front, c.back ++ c.after, by simp [MembersConflict.before]⟩
  have matched : matchWorkspace ('[' :: ("workspace]".toList ++ (c.back ++ c.after))) =
      some (workspaceHeader, c.back ++ c.after) := matchWorkspace_header _
  rw [ConflictResolver.placeMembers, if_neg (by simp [unheaded]), if_pos (by simp [headed]),
    reSub_groupOne plain, MembersConflict.before, List.append_assoc, List.append_assoc,
    subFrom_append_of_fails _ _ _ _ (fails_of_avoids (fun _ => matchWorkspace_eq_none)
      sound.header.1 _),
    show workspaceHeader ++ (c.back ++ c.after) =
      '[' :: ("workspace]".toList ++ (c.back ++ c.after)) from rfl,
    subFrom_of_match _ _ matched (List.suffix_append _ _),
    subFrom_eq_self _ _ (by decide) (fun _ => matchWorkspace_eq_none) sound.header.2]
  simp

end Sound

end ConflictResolver
