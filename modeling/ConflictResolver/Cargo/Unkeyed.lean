import ConflictResolver.Cargo.Written

/-!
Manifests whose regions hold no `members` key: the first pass deletes only regions with both
sides empty, and the generic pass keeps every ours side.
-/

namespace ConflictResolver

/-- A region both of whose sides are empty. -/
def GitRegion.isEmpty (r : GitRegion) : Bool := r.ours.isEmpty && r.theirs.isEmpty

/-- A chunk that is a region with two empty sides. -/
def Chunk.isEmptyRegion : Chunk → Bool
  | .outside _ => false
  | .region r => r.isEmpty

theorem Avoids.not_prefix_head {needle text : Text} (avoids : Avoids needle text)
    (nonempty : text ≠ []) (rest : Text) : ¬ needle <+: text ++ rest := by
  simpa using avoids.not_prefix_at (List.length_pos.mpr nonempty) rest

theorem optionalMembers_unkeyed {α : Type} {cont : Text → Option α} {text : Text}
    (unkeyed : ¬ membersKey <:+: text) : optionalMembers cont text = cont text := by
  simp [optionalMembers, searchFirst_eq_none matchMembersArray (by decide)
    (fun _ => matchMembersArray_eq_none) unkeyed]

theorem GitRegion.Sound.matchMembersConflict_unkeyed {r : GitRegion} (sound : r.Sound)
    {rest : Text} (unkeyed : ¬ membersKey <:+: r.text ++ rest) :
    matchMembersConflict (r.text ++ rest) = if r.isEmpty then some ((), rest) else none := by
  have started := sound.startLineRest_text rest
  have ahead : ∀ t, t <:+ r.ours ++ (separatorLine ++ (r.theirs ++ (r.endLine ++ rest))) →
      ¬ membersKey <:+: t := fun t suffix inT =>
    unkeyed (inT.trans ((suffix.trans ((startLineRest_suffix started).trans
      (List.tail_suffix _))).isInfix))
  simp only [matchMembersConflict, started, Option.some_bind,
    optionalMembers_unkeyed (ahead _ (List.suffix_refl _))]
  cases ours : r.ours with
  | cons c t =>
      rw [← ours, separatorRest_eq_none ((sound.avoids_ours (by decide)).not_prefix_head
        (by simp [ours]) _)]
      simp [ours, GitRegion.isEmpty]
  | nil =>
      have afterSeparator := ahead (r.theirs ++ (r.endLine ++ rest))
        (by rw [ours]; exact List.suffix_append _ _)
      rw [List.nil_append, separatorRest_separatorLine, Option.some_bind,
        optionalMembers_unkeyed afterSeparator]
      cases theirs : r.theirs with
      | cons c t =>
          rw [← theirs, endLineRest_eq_none ((sound.avoids_theirs (by decide)).not_prefix_head
            (by simp [theirs]) _)]
          simp [theirs, GitRegion.isEmpty]
      | nil => simp [sound.endLineRest_endLine, GitRegion.isEmpty, ours, theirs]


/-! ### The passes -/

theorem flatMap_filter_eq {β : Type} {p : β → Bool} {f g : β → Text} :
    ∀ {items : List β}, (∀ x ∈ items, p x = true → f x = g x) →
      (∀ x ∈ items, p x = false → g x = []) → (items.filter p).flatMap f = items.flatMap g
  | [], _, _ => rfl
  | x :: items, agree, dropped => by
      have rest := flatMap_filter_eq (fun y member => agree y (List.mem_cons_of_mem x member))
        (fun y member => dropped y (List.mem_cons_of_mem x member))
      cases kept : p x
      · rw [List.filter_cons_of_neg (by simp [kept]), rest, List.flatMap_cons,
          dropped x (List.mem_cons_self x items) kept, List.nil_append]
      · rw [List.filter_cons_of_pos kept, List.flatMap_cons, List.flatMap_cons, rest,
          agree x (List.mem_cons_self x items) kept]

theorem not_mem_regionMembers {chunks : List Chunk} (sound : ∀ chunk ∈ chunks, chunk.Sound)
    (unkeyed : ∀ r, Chunk.region r ∈ chunks → ¬ membersKey <:+: r.text) (x : Text) :
    x ∉ regionMembers (docText chunks) := by
  intro member
  obtain ⟨sides, found, inSides⟩ := mem_regionMembers.mp member
  rw [findFrom_matchConflict_docText sound] at found
  obtain ⟨r, inRegions, rfl⟩ := List.mem_map.mp found
  obtain ⟨chunk, inChunks, isRegion⟩ := List.mem_filterMap.mp inRegions
  cases chunk with
  | outside _ => cases isRegion
  | region r' =>
      obtain rfl : r' = r := Option.some.inj isRegion
      have noKey := unkeyed r' inChunks
      rcases inSides with fromOurs | fromTheirs
      · rw [extractMembersFromBlock_eq_empty fun inf => noKey (inf.trans r'.ours_in_text)]
          at fromOurs
        exact PySet.not_mem_empty x fromOurs
      · change x ∈ extractMembersFromBlock r'.theirs at fromTheirs
        rw [extractMembersFromBlock_eq_empty fun inf => noKey (inf.trans r'.theirs_in_text)]
          at fromTheirs
        exact PySet.not_mem_empty x fromTheirs

section Unkeyed

variable {chunks : List Chunk} (sound : ∀ chunk ∈ chunks, chunk.Sound)
  (unkeyed : ¬ membersKey <:+: docText chunks)
include sound unkeyed

theorem dropMembersConflicts_unkeyed :
    dropMembersConflicts (docText chunks) = docText (chunks.filter fun c => !c.isEmptyRegion) := by
  rw [dropMembersConflicts, subFrom_docText_of_regions sound _ _
    (fun r => if r.isEmpty then some () else none)
    (fun _ => matchMembersConflict_eq_none) fun r member rest suffix => by
      rw [GitRegion.Sound.matchMembersConflict_unkeyed (sound _ member)
        fun inf => unkeyed (inf.trans suffix.isInfix)]
      cases empty : r.isEmpty <;> simp [empty]]
  refine (flatMap_filter_eq (fun c _ kept => ?_) fun c _ dropped => ?_).symm
  · cases c with
    | outside text => rfl
    | region r =>
        have full : r.isEmpty = false := by simpa [Chunk.isEmptyRegion] using kept
        simp [Chunk.mapRegion, Chunk.text, full]
  · cases c with
    | outside text => cases dropped
    | region r =>
        have empty : r.isEmpty = true := by simpa [Chunk.isEmptyRegion] using dropped
        simp [Chunk.mapRegion, empty]

theorem keepOurs_dropMembersConflicts_unkeyed :
    keepOurs (dropMembersConflicts (docText chunks)) =
      chunks.flatMap (Chunk.mapRegion GitRegion.ours) := by
  rw [dropMembersConflicts_unkeyed sound unkeyed, keepOurs_docText fun c member =>
    sound c (List.mem_of_mem_filter member)]
  refine flatMap_filter_eq (fun _ _ _ => rfl) fun c _ dropped => ?_
  cases c with
  | outside text => cases dropped
  | region r =>
      have empty : r.isEmpty = true := by simpa [Chunk.isEmptyRegion] using dropped
      exact (by simpa [GitRegion.isEmpty] using empty : r.ours = [] ∧ r.theirs = []).1

theorem unkeyed_flatMap_mapRegion {f : GitRegion → Text} (inside : ∀ r, f r <:+: r.text)
    (ends : ∀ r, .region r ∈ chunks → EndsLine (f r)) :
    ¬ membersKey <:+: chunks.flatMap (Chunk.mapRegion f) := by
  intro inf
  have pieces : ∀ c ∈ chunks, EndsLine (c.mapRegion f) ∧ c.mapRegion f <:+: c.text
    | .outside _, member => ⟨(sound _ member).1, List.infix_refl _⟩
    | .region r, member => ⟨ends r member, inside r⟩
  obtain ⟨c, member, inPiece⟩ := infix_flatMap_of_endsLine (by decide) (by decide)
    (fun c member => (pieces c member).1) inf
  exact unkeyed (inPiece.trans ((pieces c member).2.trans (infix_docText member)))

theorem cargoMembers_unkeyed : (cargoMembers (docText chunks)).elems = [] := by
  refine List.eq_nil_iff_forall_not_mem.mpr fun x member => ?_
  rcases mem_cargoMembers.mp member with inRegions | inClean
  · exact not_mem_regionMembers sound (fun r member inText =>
      unkeyed (inText.trans (infix_docText member))) x inRegions
  · rw [cleanContent_docText sound, extractMembersFromBlock_eq_empty
      (unkeyed_flatMap_mapRegion sound unkeyed (fun _ => List.nil_infix) fun _ _ => Or.inl rfl)]
      at inClean
    exact PySet.not_mem_empty x inClean

end Unkeyed

theorem dropMembersConflicts_outside_append {text : Text}
    (outside : EndsLine text ∧ MarkerFree text) (rest : Text) :
    dropMembersConflicts (text ++ rest) = text ++ dropMembersConflicts rest :=
  subFrom_append_of_fails _ _ _ _ (fails_of_avoids (fun _ => matchMembersConflict_eq_none)
    (avoids_of_markerFree (by decide) outside.2 outside.1) _)

theorem keepOurs_outside_append {text : Text} (outside : EndsLine text ∧ MarkerFree text)
    (rest : Text) : keepOurs (text ++ rest) = text ++ keepOurs rest :=
  subFrom_append_of_fails _ _ _ _ (fails_of_avoids (fun _ => matchGeneric_eq_none)
    (avoids_of_markerFree (by decide) outside.2 outside.1) _)

theorem placeMembers_unkeyed {block resolved : Text} (unkeyed : ¬ membersKey <:+: resolved) :
    placeMembers block false resolved = .ok resolved := by
  simp [placeMembers, searchFirst_eq_none membersHead (by decide)
    (fun _ => membersHead_eq_none) unkeyed]

/-- On a sound document with a region and no `members` key anywhere the tool warns that it
found no member, puts no block in, and writes the ours version of the document with runs of
blank lines collapsed. -/
theorem resolveCargoConflict_memberless (iter : SetIter) (filePath raw : Text)
    (chunks : List Chunk) (sound : ∀ chunk ∈ chunks, chunk.Sound)
    (layout : readText raw = docText chunks) (unkeyed : ¬ membersKey <:+: docText chunks)
    (conflicted : ∃ r, Chunk.region r ∈ chunks) :
    resolveCargoConflict iter filePath (some raw) =
      ⟨.returned true, some (collapseBlankLines (chunks.flatMap (Chunk.mapRegion GitRegion.ours))),
        ["Resolved ".toList ++ filePath],
        ["Warning: No workspace members found in ".toList ++ filePath]⟩ := by
  obtain ⟨r, member⟩ := conflicted
  have marked : containsText startMarker (readText raw) = true :=
    decide_eq_true (layout ▸ r.startMarker_in_text.trans (infix_docText member))
  have empty : (cargoMembers (readText raw)).elems = [] :=
    layout ▸ cargoMembers_unkeyed sound unkeyed
  have sorted : sortedBy id ((cargoMembers (readText raw)).toList iter) = [] := by
    rw [PySet.toList, empty, (iter.perm []).eq_nil]
    rfl
  have rewritten : cargoRewrite (readText raw) [] =
      .ok (collapseBlankLines (chunks.flatMap (Chunk.mapRegion GitRegion.ours))) := by
    rw [cargoRewrite, layout, keepOurs_dropMembersConflicts_unkeyed sound unkeyed]
    have oursLines : ∀ r, Chunk.region r ∈ chunks → EndsLine r.ours := fun r member =>
      (show r.Sound from sound _ member).ours.1
    rw [List.isEmpty_nil, Bool.not_true, placeMembers_unkeyed
      (unkeyed_flatMap_mapRegion sound unkeyed GitRegion.ours_in_text oursLines)]
    rfl
  simp [resolveCargoConflict, marked, empty, sorted, rewritten, cargoReport]


/-- A manifest without workspace members: a region over the version, an empty region and a run
of blank lines. -/
def memberlessChunks : List Chunk :=
  [.outside "[package]\nname = \"x\"\n".toList,
    .region ⟨"HEAD".toList, "version = \"1\"\n".toList, "version = \"2\"\n".toList, "b".toList⟩,
    .region ⟨"c".toList, [], [], "d".toList⟩,
    .outside "\n\n\nedition = \"2021\"\n".toList]

set_option maxRecDepth 4000 in
theorem memberless_keeps_ours :
    resolveCargoConflict SetIter.stored "Cargo.toml".toList (some (docText memberlessChunks)) =
      ⟨.returned true,
        some (collapseBlankLines (memberlessChunks.flatMap (Chunk.mapRegion GitRegion.ours))),
        ["Resolved ".toList ++ "Cargo.toml".toList],
        ["Warning: No workspace members found in ".toList ++ "Cargo.toml".toList]⟩ :=
  resolveCargoConflict_memberless SetIter.stored "Cargo.toml".toList _ memberlessChunks
    (by decide) (by decide) (by decide) ⟨_, List.mem_cons_of_mem _ (List.mem_cons_self _ _)⟩

/-! ### One array above the regions -/

theorem unkeyed_docText_later {back : Text} {chunks : List Chunk}
    (later : ¬ membersKey <:+: back ++ docText chunks) : ¬ membersKey <:+: docText chunks :=
  fun inf => later (inf.trans (List.suffix_append _ _).isInfix)

theorem containsText_startMarker_of_region {raw outside : Text} {chunks : List Chunk}
    (layout : readText raw = docText (.outside outside :: chunks))
    (conflicted : ∃ r, Chunk.region r ∈ chunks) :
    containsText startMarker (readText raw) = true :=
  let ⟨r, member⟩ := conflicted
  decide_eq_true (layout ▸ r.startMarker_in_text.trans
    (infix_docText (List.mem_cons_of_mem _ member)))

section Above

variable {outside : Text} {chunks : List Chunk}
  (sound : ∀ chunk ∈ .outside outside :: chunks, chunk.Sound)
include sound

theorem mem_cargoMembers_above (unkeyed : ¬ membersKey <:+: docText chunks) {front rest : Text}
    {a : MembersArray} (split : outside = front ++ a.text ++ rest) (arraySound : a.Sound)
    (first : Avoids membersKey front) (m : Text) :
    m ∈ cargoMembers (docText (.outside outside :: chunks)) ↔ m ∈ a.names := by
  have regionFree := not_mem_regionMembers sound (fun r member => by
    rcases List.mem_cons.mp member with same | inChunks
    · cases same
    · exact fun inf => unkeyed (inf.trans (infix_docText inChunks))) m
  rw [mem_cargoMembers, cleanContent_docText sound, or_iff_right regionFree]
  subst split
  simp only [List.flatMap_cons, Chunk.mapRegion, List.append_assoc]
  exact arraySound.extract first _ m

theorem keepOurs_dropMembersConflicts_above (unkeyed : ¬ membersKey <:+: docText chunks) :
    keepOurs (dropMembersConflicts (docText (.outside outside :: chunks))) =
      outside ++ chunks.flatMap (Chunk.mapRegion GitRegion.ours) := by
  have outsideSound : EndsLine outside ∧ MarkerFree outside := sound _ (List.mem_cons_self _ _)
  rw [docText_cons, Chunk.text, dropMembersConflicts_outside_append outsideSound,
    keepOurs_outside_append outsideSound,
    keepOurs_dropMembersConflicts_unkeyed (Chunk.sound_tail sound) unkeyed]

theorem unkeyed_back_ours {front back : Text} (split : outside = front ++ back)
    (later : ¬ membersKey <:+: back ++ docText chunks) :
    ¬ membersKey <:+: back ++ chunks.flatMap (Chunk.mapRegion GitRegion.ours) := by
  have outsideSound : EndsLine outside ∧ MarkerFree outside := sound _ (List.mem_cons_self _ _)
  subst split
  have backSound : ∀ chunk ∈ .outside back :: chunks, chunk.Sound := fun chunk member =>
    (List.mem_cons.mp member).elim (fun same => same ▸ ⟨outsideSound.1.of_append,
      outsideSound.2.mono (List.suffix_append _ _).isInfix⟩) (Chunk.sound_tail sound chunk)
  exact unkeyed_flatMap_mapRegion backSound later GitRegion.ours_in_text fun r member =>
    (show r.Sound from backSound _ member).ours.1

theorem mem_sorted_above (unkeyed : ¬ membersKey <:+: docText chunks) {front rest : Text}
    {a : MembersArray} (split : outside = front ++ a.text ++ rest) (arraySound : a.Sound)
    (first : Avoids membersKey front) (iter : SetIter) {raw : Text}
    (layout : readText raw = docText (.outside outside :: chunks)) (m : Text) :
    m ∈ sortedBy id ((cargoMembers (readText raw)).toList iter) ↔ m ∈ a.names := by
  rw [mem_sortedBy, PySet.mem_toList, layout,
    mem_cargoMembers_above sound unkeyed split arraySound first]

theorem resolveCargoConflict_above_placed (unkeyed : ¬ membersKey <:+: docText chunks)
    (iter : SetIter) (filePath raw : Text)
    (layout : readText raw = docText (.outside outside :: chunks))
    (conflicted : ∃ r, Chunk.region r ∈ chunks) {out : Text}
    (placed : placeMembers (membersBlock (sortedBy id ((cargoMembers (readText raw)).toList iter)))
      (!(sortedBy id ((cargoMembers (readText raw)).toList iter)).isEmpty)
      (outside ++ chunks.flatMap (Chunk.mapRegion GitRegion.ours)) = .ok out) :
    (resolveCargoConflict iter filePath (some raw)).result = .returned true ∧
      (resolveCargoConflict iter filePath (some raw)).file = some (collapseBlankLines out) := by
  have resolved := keepOurs_dropMembersConflicts_above sound unkeyed
  rw [← layout] at resolved
  refine resolveCargoConflict_rewritten (containsText_startMarker_of_region layout conflicted) ?_
  rw [cargoRewrite, resolved, placed]
  rfl

end Above

/-- On a sound document whose outside text before every region holds arrays whose keys end in
`members`, each after a stretch in which no key starts, and whose later text holds no key, the
tool rewrites every one of those arrays as the block of the first array's entries, ascending
and each once, and keeps the ours side of every region. A `default-members` array ahead of
`members` so gives its entries to both, and one after it receives all the members. -/
theorem resolveCargoConflict_arrays_above (iter : SetIter) (filePath raw front back : Text)
    (a : MembersArray) (pieces : List (Text × MembersArray)) (chunks : List Chunk)
    (sound : ∀ chunk ∈ .outside (front ++ a.text ++
      pieces.flatMap (fun piece => piece.1 ++ piece.2.text) ++ back) :: chunks, chunk.Sound)
    (layout : readText raw = docText (.outside (front ++ a.text ++
      pieces.flatMap (fun piece => piece.1 ++ piece.2.text) ++ back) :: chunks))
    (arraySound : a.Sound) (first : Avoids membersKey front)
    (arrays : ∀ piece ∈ pieces, Avoids membersKey piece.1 ∧ piece.2.Sound)
    (later : ¬ membersKey <:+: back ++ docText chunks) (plain : ∀ m ∈ a.names, '\\' ∉ m)
    (conflicted : ∃ r, Chunk.region r ∈ chunks) :
    ∃ merged : List Text, merged.Pairwise (· < ·) ∧ (∀ m, m ∈ merged ↔ m ∈ a.names) ∧
      (resolveCargoConflict iter filePath (some raw)).result = .returned true ∧
      (resolveCargoConflict iter filePath (some raw)).file = some (collapseBlankLines
        (front ++ membersBlock merged ++
          pieces.flatMap (fun piece => piece.1 ++ membersBlock merged) ++ back ++
          chunks.flatMap (Chunk.mapRegion GitRegion.ours))) := by
  have unkeyed := unkeyed_docText_later later
  have members := mem_sorted_above sound unkeyed (List.append_assoc _ _ back) arraySound first
    iter layout
  refine ⟨_, sortedBy_strict (PySet.nodup_toList _ _), members,
    resolveCargoConflict_above_placed sound unkeyed iter filePath raw layout conflicted ?_⟩
  conv_lhs => rw [← doubleBackslashes_plain (membersBlock_plain fun m member =>
    plain m ((members m).mp member))]
  simpa only [List.flatMap_cons, List.append_assoc] using
    placeMembers_arrays_doubled _ _ (List.cons_ne_nil (front, a) pieces)
      (List.forall_mem_cons.mpr ⟨⟨first, arraySound⟩, arrays⟩) (unkeyed_back_ours sound rfl later)

/-- A `default-members` array under `[workspace]`, ahead of the `members` array. -/
def defaultArray : MembersArray := ⟨[' '], [' '], [], [("x".toList, [])]⟩

/-- The `members` array after `defaultArray`, which also lists `a`. -/
def membersAfterDefault : List (Text × MembersArray) :=
  [("\n".toList, ⟨[' '], [' '], [], [("a".toList, ", ".toList), ("x".toList, [])]⟩)]

/-- The chunks after the outside text that holds the arrays. -/
def aboveChunks : List Chunk :=
  [.region ⟨"HEAD".toList, "x = \"1\"\n".toList, "x = \"2\"\n".toList, "br".toList⟩,
    .outside "\n\n\n[features]\n".toList]

set_option maxRecDepth 4000 in
theorem default_members_overwrite :
    ∃ merged : List Text, merged.Pairwise (· < ·) ∧ (∀ m, m ∈ merged ↔ m ∈ defaultArray.names) ∧
      (resolveCargoConflict SetIter.stored "Cargo.toml".toList (some (docText
          (.outside ("[workspace]\ndefault-".toList ++ defaultArray.text ++
            membersAfterDefault.flatMap (fun piece => piece.1 ++ piece.2.text) ++
            "\n[dependencies]\n".toList) :: aboveChunks)))).result = .returned true ∧
      (resolveCargoConflict SetIter.stored "Cargo.toml".toList (some (docText
          (.outside ("[workspace]\ndefault-".toList ++ defaultArray.text ++
            membersAfterDefault.flatMap (fun piece => piece.1 ++ piece.2.text) ++
            "\n[dependencies]\n".toList) :: aboveChunks)))).file =
        some (collapseBlankLines ("[workspace]\ndefault-".toList ++ membersBlock merged ++
          membersAfterDefault.flatMap (fun piece => piece.1 ++ membersBlock merged) ++
          "\n[dependencies]\n".toList ++ aboveChunks.flatMap (Chunk.mapRegion GitRegion.ours))) :=
  resolveCargoConflict_arrays_above SetIter.stored "Cargo.toml".toList _
    "[workspace]\ndefault-".toList "\n[dependencies]\n".toList defaultArray membersAfterDefault
    aboveChunks (by decide) (by decide) (by decide) (by decide) (by decide) (by decide)
    (by decide) ⟨_, List.mem_cons_self _ _⟩

end ConflictResolver
