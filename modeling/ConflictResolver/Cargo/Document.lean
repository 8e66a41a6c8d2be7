import ConflictResolver.Cargo.Matching
import ConflictResolver.Cargo.Resolve

/-!
A Cargo manifest as outside text and conflict regions as git writes them (`Chunk`, `GitRegion`),
and what each pattern finds in such a document: every pattern but `members_conflict_pattern`
acts region by region, and that one deletes whole chunks.
-/

namespace ConflictResolver

/-! ### Marker texts -/

/-- The three marker texts, without the space git writes after the start and end markers. -/
def barMarkers : List Text := [bareStartMarker, separatorMarker, bareEndMarker]

/-- A text in which no marker text occurs. -/
def MarkerFree (text : Text) : Prop := ∀ marker ∈ barMarkers, ¬ marker <:+: text

instance (text : Text) : Decidable (MarkerFree text) :=
  inferInstanceAs (Decidable (∀ marker ∈ barMarkers, _))

theorem newline_not_mem_marker {marker : Text} (member : marker ∈ barMarkers) :
    '\n' ∉ marker := by
  simp only [barMarkers, List.mem_cons, List.mem_singleton, List.not_mem_nil, or_false] at member
  rcases member with rfl | rfl | rfl <;> decide

/-- A character that no marker text contains. -/
def BreaksMarkers (c : Char) : Prop := ∀ marker ∈ barMarkers, c ∉ marker

instance (c : Char) : Decidable (BreaksMarkers c) :=
  inferInstanceAs (Decidable (∀ marker ∈ barMarkers, _))

theorem MarkerFree.mono {text whole : Text} (free : MarkerFree whole) (inf : text <:+: whole) :
    MarkerFree text := fun marker member inText => free marker member (inText.trans inf)

theorem markerFree_nil : MarkerFree [] := fun marker member inNil => by
  simp only [barMarkers, List.mem_cons, List.mem_singleton, List.not_mem_nil, or_false] at member
  rcases member with rfl | rfl | rfl <;> exact absurd (List.eq_nil_of_infix_nil inNil) (by decide)

theorem MarkerFree.append_cons {front back : Text} {c : Char} (first : MarkerFree front)
    (second : MarkerFree back) (breaks : BreaksMarkers c) : MarkerFree (front ++ c :: back) :=
  fun marker member inf =>
    (infix_append_cons (breaks marker member) inf).elim (first marker member) (second marker member)

theorem MarkerFree.cons {back : Text} {c : Char} (free : MarkerFree back)
    (breaks : BreaksMarkers c) :
    MarkerFree (c :: back) :=
  markerFree_nil.append_cons free breaks

theorem MarkerFree.append_of_endsLine {front back : Text} (first : MarkerFree front)
    (ends : EndsLine front) (second : MarkerFree back) : MarkerFree (front ++ back) := by
  rcases ends.cases with rfl | ⟨line, rfl⟩
  · exact second
  · rw [List.append_assoc, List.singleton_append]
    exact (first.mono (List.prefix_append _ _).isInfix).append_cons second
      fun marker member => newline_not_mem_marker member

theorem markerFree_of_lines {text : Text} (lines : ∀ line ∈ splitLines text, MarkerFree line) :
    MarkerFree text := fun marker member inf => by
  obtain ⟨line, inLines, inLine⟩ := exists_line_containing (newline_not_mem_marker member) inf
  exact lines line inLines marker member inLine

theorem MarkerFree.plain_append {front back : Text} (plain : ∀ c ∈ front, BreaksMarkers c)
    (free : MarkerFree back) : MarkerFree (front ++ back) := by
  induction front with
  | nil => exact free
  | cons c front ih =>
      exact (ih fun d member => plain d (List.mem_cons_of_mem c member)).cons
        (plain c (List.mem_cons_self c front))

theorem markerFree_flatMap {β : Type} {items : List β} {f : β → Text}
    (pieces : ∀ item ∈ items, EndsLine (f item) ∧ MarkerFree (f item)) :
    MarkerFree (items.flatMap f) := by
  induction items with
  | nil => exact markerFree_nil
  | cons item items ih =>
      obtain ⟨ends, free⟩ := pieces item (List.mem_cons_self _ _)
      exact free.append_of_endsLine ends
        (ih fun other member => pieces other (List.mem_cons_of_mem _ member))

theorem MarkerFree.collapseBlankLines {text : Text} (free : MarkerFree text) :
    MarkerFree (collapseBlankLines text) := by
  refine markerFree_of_lines fun line member => ?_
  by_cases empty : line = []
  · exact empty ▸ markerFree_nil
  · have filled : line ∈ filledLines (ConflictResolver.collapseBlankLines text) := by
      simp [filledLines, member, empty]
    rw [filledLines_collapseBlankLines] at filled
    exact free.mono (infix_of_mem_splitLines (List.mem_filter.mp filled).1)

theorem MarkerFree.readText {text : Text} (free : MarkerFree text) :
    MarkerFree (readText text) := fun marker member inf => by
  simp only [barMarkers, List.mem_cons, List.mem_singleton, List.not_mem_nil, or_false] at member
  rcases member with rfl | rfl | rfl <;>
    exact free _ (by simp [barMarkers]) (infix_of_infix_readText (by decide) (by decide) inf)

theorem MarkerFree.lines {text : Text} (free : MarkerFree text) :
    ∀ line ∈ splitLines text, bareStartMarker.isPrefixOf line = false ∧
      separatorMarker.isPrefixOf line = false ∧ bareEndMarker.isPrefixOf line = false := by
  intro line member
  have inLine := free.mono (infix_of_mem_splitLines member)
  simp only [Bool.eq_false_iff, ne_eq, List.isPrefixOf_iff_prefix]
  exact ⟨fun pre => inLine _ (by simp [barMarkers]) pre.isInfix,
    fun pre => inLine _ (by simp [barMarkers]) pre.isInfix,
    fun pre => inLine _ (by simp [barMarkers]) pre.isInfix⟩

theorem avoids_of_markerFree {marker text : Text} (member : marker ∈ barMarkers)
    (free : MarkerFree text) (ends : EndsLine text) : Avoids marker text :=
  avoids_of_endsLine (newline_not_mem_marker member) (free marker member) ends

theorem avoids_label {marker label : Text} (member : marker ∈ barMarkers)
    (free : MarkerFree label) : Avoids marker (label ++ ['\n']) :=
  avoids_of_line (newline_not_mem_marker member) (free marker member)

/-! ### Regions and documents -/

/-- The separator line. -/
def separatorLine : Text := separatorMarker ++ ['\n']

/-- A conflict region as git writes it. -/
structure GitRegion where
  startLabel : Text
  ours : Text
  theirs : Text
  endLabel : Text
  deriving DecidableEq, Repr

/-- `<<<<<<< ` and the label. -/
def GitRegion.startLine (r : GitRegion) : Text := startMarker ++ r.startLabel ++ ['\n']

/-- `>>>>>>> ` and the label. -/
def GitRegion.endLine (r : GitRegion) : Text := endMarker ++ r.endLabel ++ ['\n']

def GitRegion.text (r : GitRegion) : Text :=
  r.startLine ++ r.ours ++ separatorLine ++ r.theirs ++ r.endLine

/-- What git guarantees of a region: each label stays on its line, each side is made of whole
lines, and no marker text occurs in a label or a side. -/
structure GitRegion.Sound (r : GitRegion) : Prop where
  startLabel : '\n' ∉ r.startLabel ∧ MarkerFree r.startLabel
  ours : EndsLine r.ours ∧ MarkerFree r.ours
  theirs : EndsLine r.theirs ∧ MarkerFree r.theirs
  endLabel : '\n' ∉ r.endLabel ∧ MarkerFree r.endLabel

instance (r : GitRegion) : Decidable r.Sound :=
  decidable_of_iff (_ ∧ _ ∧ _ ∧ _)
    ⟨fun ⟨a, b, c, d⟩ => ⟨a, b, c, d⟩, fun ⟨a, b, c, d⟩ => ⟨a, b, c, d⟩⟩

/-- A stretch of a document: text outside every region, or a region. -/
inductive Chunk where
  | outside (text : Text)
  | region (r : GitRegion)
  deriving DecidableEq, Repr

def Chunk.text : Chunk → Text
  | .outside text => text
  | .region r => r.text

/-- Outside text is made of whole lines without marker texts; a region is sound. -/
def Chunk.Sound : Chunk → Prop
  | .outside text => EndsLine text ∧ MarkerFree text
  | .region r => r.Sound

instance : (chunk : Chunk) → Decidable chunk.Sound
  | .outside _ => inferInstanceAs (Decidable (_ ∧ _))
  | .region r => inferInstanceAs (Decidable r.Sound)

/-- Outside text in which no end-marker text starts, or a sound region: in a document of such
chunks the end-marker text only starts end lines. -/
def Chunk.Closed : Chunk → Prop
  | .outside text => Avoids bareEndMarker text
  | .region r => r.Sound

theorem Chunk.Sound.closed {chunk : Chunk} (sound : chunk.Sound) : chunk.Closed := by
  cases chunk with
  | outside text => exact avoids_of_markerFree (by decide) sound.2 sound.1
  | region r => exact sound

/-- The text of a document. -/
def docText (chunks : List Chunk) : Text := chunks.flatMap Chunk.text

@[simp] theorem docText_nil : docText [] = [] := rfl

@[simp] theorem docText_cons (chunk : Chunk) (chunks : List Chunk) :
    docText (chunk :: chunks) = chunk.text ++ docText chunks := rfl

/-- A chunk with its region, if it is one, replaced by `f` of it. -/
def Chunk.mapRegion (f : GitRegion → Text) : Chunk → Text
  | .outside text => text
  | .region r => f r

/-- The region a chunk is, if it is one. -/
def Chunk.region? : Chunk → Option GitRegion
  | .outside _ => none
  | .region r => some r

/-! ### Where markers start in a region -/

theorem startMarker_eq : startMarker = bareStartMarker ++ [' '] := rfl

theorem endMarker_eq : endMarker = bareEndMarker ++ [' '] := rfl

theorem GitRegion.text_cons (r : GitRegion) (rest : Text) :
    r.text ++ rest = '<' :: (r.text.tail ++ rest) := rfl

theorem GitRegion.text_eq (r : GitRegion) (rest : Text) :
    r.text ++ rest = bareStartMarker ++ (' ' :: r.startLabel) ++
      '\n' :: (r.ours ++ (separatorLine ++ (r.theirs ++ (r.endLine ++ rest)))) := by
  simp [GitRegion.text, GitRegion.startLine, startMarker_eq]

theorem separatorRest_separatorLine (rest : Text) :
    separatorRest (separatorLine ++ rest) = some rest := by
  simpa [separatorLine] using separatorRest_line rest

section Sound

variable {r : GitRegion} (sound : r.Sound)
include sound

theorem GitRegion.Sound.avoids_ours {marker : Text} (member : marker ∈ barMarkers) :
    Avoids marker r.ours :=
  avoids_of_markerFree member sound.ours.2 sound.ours.1

theorem GitRegion.Sound.avoids_theirs {marker : Text} (member : marker ∈ barMarkers) :
    Avoids marker r.theirs :=
  avoids_of_markerFree member sound.theirs.2 sound.theirs.1

theorem GitRegion.Sound.avoids_start_tail : Avoids bareStartMarker r.text.tail := by
  have tail : r.text.tail = "<<<<<< ".toList ++ (r.startLabel ++ ['\n']) ++ r.ours ++
      separatorLine ++ r.theirs ++ endMarker ++ (r.endLabel ++ ['\n']) := by
    simp [GitRegion.text, GitRegion.startLine, GitRegion.endLine]; rfl
  rw [tail]
  have member : bareStartMarker ∈ barMarkers := by decide
  exact (((((((by decide : Avoids bareStartMarker "<<<<<< ".toList).append
    (avoids_label member sound.startLabel.2)).append (sound.avoids_ours member)).append
    (by decide)).append (sound.avoids_theirs member)).append (by decide)).append
    (avoids_label member sound.endLabel.2))

theorem GitRegion.Sound.avoids_end_before :
    Avoids bareEndMarker (r.startLine ++ r.ours ++ separatorLine ++ r.theirs) := by
  have member : bareEndMarker ∈ barMarkers := by decide
  exact ((((by decide : Avoids bareEndMarker startMarker).append
    (avoids_label member sound.startLabel.2)).append (sound.avoids_ours member)).append
    (by decide)).append (sound.avoids_theirs member)

theorem GitRegion.Sound.avoids_end_tail : Avoids bareEndMarker r.endLine.tail :=
  (by decide : Avoids bareEndMarker ">>>>>> ".toList).append
    (avoids_label (by decide) sound.endLabel.2)

/-! ### The patterns at a region -/

theorem GitRegion.Sound.startLineRest_text (rest : Text) :
    startLineRest (r.text ++ rest) =
      some (r.ours ++ (separatorLine ++ (r.theirs ++ (r.endLine ++ rest)))) := by
  rw [GitRegion.text_eq]
  exact startLineRest_line (by simpa using sound.startLabel.1) _

theorem GitRegion.Sound.endLineRest_endLine (rest : Text) :
    endLineRest (r.endLine ++ rest) = some rest := by
  simpa [GitRegion.endLine, endMarker_eq] using
    @endLineRest_line (' ' :: r.endLabel) (by simpa using sound.endLabel.1) rest

theorem GitRegion.Sound.lazyGroup_endLineRest (rest : Text) :
    lazyGroup endLineRest (r.theirs ++ (r.endLine ++ rest)) = some (r.theirs, rest) := by
  rw [lazyGroup_append_of_fails endLineRest _ _
    (fails_of_avoids (fun _ => endLineRest_eq_none) (sound.avoids_theirs (by decide)) _),
    lazyGroup_of_success _ (sound.endLineRest_endLine rest)]
  simp

theorem GitRegion.Sound.searchFirst_endLineRest (rest : Text) :
    searchFirst endLineRest (r.theirs ++ (r.endLine ++ rest)) = some rest := by
  simp [searchFirst, sound.lazyGroup_endLineRest rest]

theorem GitRegion.Sound.lazyGroup_ours (rest : Text) :
    lazyGroup (fun rest => (separatorRest rest).bind (searchFirst endLineRest))
      (r.ours ++ (separatorLine ++ (r.theirs ++ (r.endLine ++ rest)))) = some (r.ours, rest) := by
  have fails := @fails_of_avoids _ (fun rest => (separatorRest rest).bind
      (searchFirst endLineRest)) _ _ (fun _ unmarked => by simp [separatorRest_eq_none unmarked])
    (sound.avoids_ours (by decide : separatorMarker ∈ barMarkers))
    (separatorLine ++ (r.theirs ++ (r.endLine ++ rest)))
  rw [lazyGroup_append_of_fails _ _ _ fails, lazyGroup_of_success _
    (by rw [separatorRest_separatorLine, Option.some_bind, sound.searchFirst_endLineRest])]
  simp

theorem GitRegion.Sound.matchGeneric_text (rest : Text) :
    matchGeneric (r.text ++ rest) = some (r.ours, rest) := by
  simp only [matchGeneric, sound.startLineRest_text, Option.some_bind, sound.lazyGroup_ours]

theorem GitRegion.Sound.matchConflict_text (rest : Text) :
    matchConflict (r.text ++ rest) = some ((r.ours, some r.theirs), rest) := by
  have fails : ∀ i < r.ours.length, conflictTail (r.ours.drop i ++
      (separatorLine ++ (r.theirs ++ (r.endLine ++ rest)))) = none := fun i inside => by
    simp [conflictTail,
      separatorRest_eq_none ((sound.avoids_ours (by decide)).not_prefix_at inside _),
      endLineRest_eq_none ((sound.avoids_ours (by decide)).not_prefix_at inside _)]
  simp only [matchConflict, sound.startLineRest_text, Option.some_bind]
  rw [lazyGroup_append_of_fails _ _ _ fails, lazyGroup_of_success _
    (by simp [conflictTail, separatorRest_separatorLine, sound.lazyGroup_endLineRest]; rfl)]
  simp

theorem GitRegion.Sound.fails_tail {β : Type} {matcher : Text → Option β}
    (anchored : ∀ text, ¬ bareStartMarker <+: text → matcher text = none) (rest : Text)
    (first : matcher (r.text ++ rest) = none) :
    ∀ i < r.text.length, matcher (r.text.drop i ++ rest) = none
  | 0, _ => first
  | i + 1, inside => by
      rw [← List.drop_tail]
      exact anchored _ (sound.avoids_start_tail.not_prefix_at (by simp at inside ⊢; omega) rest)

end Sound

/-! ### Where the patterns can start and end -/

theorem matchGeneric_eq_none {text : Text} (unmarked : ¬ bareStartMarker <+: text) :
    matchGeneric text = none := by
  simp [matchGeneric, startLineRest_eq_none unmarked]

theorem matchConflict_eq_none {text : Text} (unmarked : ¬ bareStartMarker <+: text) :
    matchConflict text = none := by
  simp [matchConflict, startLineRest_eq_none unmarked]

theorem matchMembersConflict_eq_none {text : Text} (unmarked : ¬ bareStartMarker <+: text) :
    matchMembersConflict text = none := by
  simp [matchMembersConflict, startLineRest_eq_none unmarked]

theorem matchMembersConflict_after {text after : Text} {u : Unit}
    (matched : matchMembersConflict text = some (u, after)) :
    ∃ last, last <:+ text.tail ∧ endLineRest last = some after := by
  obtain ⟨body, started, found⟩ := Option.bind_eq_some.mp matched
  obtain ⟨after', optional, same⟩ := Option.map_eq_some'.mp found
  cases same
  obtain ⟨separated, separatedSuffix, tail⟩ := optionalMembers_eq_some optional
  obtain ⟨theirs, separator, ending⟩ := Option.bind_eq_some.mp tail
  obtain ⟨last, lastSuffix, ended⟩ := optionalMembers_eq_some ending
  exact ⟨last, lastSuffix.trans ((separatorRest_suffix separator).trans ((List.tail_suffix _).trans
    (separatedSuffix.trans (startLineRest_suffix started)))), ended⟩

theorem matchMembersConflict_suffix {text after : Text} {u : Unit}
    (matched : matchMembersConflict text = some (u, after)) : after <:+ text.tail := by
  obtain ⟨last, suffix, ended⟩ := matchMembersConflict_after matched
  exact (endLineRest_suffix ended).trans ((List.tail_suffix _).trans suffix)

theorem matchGeneric_after {text ours after : Text} (matched : matchGeneric text = some (ours, after)) :
    ∃ last, last <:+ text.tail ∧ endLineRest last = some after := by
  obtain ⟨body, started, grouped⟩ := Option.bind_eq_some.mp matched
  obtain ⟨rest, split, tail⟩ := lazyGroup_eq_some _ grouped
  obtain ⟨theirs, separator, searched⟩ := Option.bind_eq_some.mp tail
  obtain ⟨last, lastSuffix, ended⟩ := searchFirst_eq_some _ searched
  exact ⟨last, lastSuffix.trans ((separatorRest_suffix separator).trans ((List.tail_suffix _).trans
    ((show rest <:+ body from ⟨ours, split.symm⟩).trans (startLineRest_suffix started)))), ended⟩

theorem matchConflict_after {text after : Text} {sides : Text × Option Text}
    (matched : matchConflict text = some (sides, after)) :
    ∃ last, last <:+ text.tail ∧ endLineRest last = some after := by
  obtain ⟨body, started, grouped⟩ := Option.bind_eq_some.mp matched
  obtain ⟨⟨ours, theirs, after'⟩, grouped, same⟩ := Option.map_eq_some'.mp grouped
  cases same
  obtain ⟨rest, split, tail⟩ := lazyGroup_eq_some _ grouped
  have inBody : rest <:+ text.tail :=
    (show rest <:+ body from ⟨ours, split.symm⟩).trans (startLineRest_suffix started)
  unfold conflictTail at tail
  cases separated : (separatorRest rest).bind (lazyGroup endLineRest) with
  | some found =>
      obtain ⟨theirsText, ended⟩ := found
      rw [separated] at tail
      cases tail
      obtain ⟨stop, separator, grouped'⟩ := Option.bind_eq_some.mp separated
      obtain ⟨last, lastSplit, endedLast⟩ := lazyGroup_eq_some _ grouped'
      exact ⟨last, (show last <:+ stop from ⟨theirsText, lastSplit.symm⟩).trans ((separatorRest_suffix
        separator).trans ((List.tail_suffix _).trans inBody)), endedLast⟩
  | none =>
      rw [separated] at tail
      obtain ⟨after'', ended, same⟩ := Option.map_eq_some'.mp tail
      cases same
      exact ⟨rest, inBody, ended⟩

/-! ### The passes over a sound document -/

theorem Chunk.sound_tail {chunk : Chunk} {chunks : List Chunk}
    (sound : ∀ c ∈ chunk :: chunks, c.Sound) : ∀ c ∈ chunks, c.Sound :=
  fun c member => sound c (List.mem_cons_of_mem _ member)


section Passes

variable {α : Type} {chunks : List Chunk} (sound : ∀ chunk ∈ chunks, chunk.Sound)
include sound

theorem subFrom_docText_of_regions (matcher : Text → Option (α × Text)) (replace : α → Text)
    (found : GitRegion → Option α)
    (anchored : ∀ text, ¬ bareStartMarker <+: text → matcher text = none)
    (exact : ∀ r, .region r ∈ chunks → ∀ rest, r.text ++ rest <:+ docText chunks →
      matcher (r.text ++ rest) = (found r).map fun x => (x, rest)) :
    subFrom matcher replace 0 (docText chunks) =
      chunks.flatMap (Chunk.mapRegion fun r => ((found r).map replace).getD r.text) := by
  induction chunks with
  | nil => exact subFrom_nil matcher replace (anchored [] (by decide))
  | cons chunk chunks ih =>
      have rest := ih (Chunk.sound_tail sound) fun r member rest suffix =>
        exact r (List.mem_cons_of_mem _ member) rest (suffix.trans (List.suffix_append _ _))
      cases chunk with
      | outside text =>
          have outside : EndsLine text ∧ MarkerFree text := sound _ (List.mem_cons_self _ _)
          rw [docText_cons, Chunk.text, subFrom_append_of_fails matcher replace _ _
            (fails_of_avoids anchored (avoids_of_markerFree (by decide) outside.2 outside.1) _),
            rest]
          rfl
      | region r =>
          have regionSound : r.Sound := sound _ (List.mem_cons_self _ _)
          have matched := exact r (List.mem_cons_self _ _) (docText chunks) (List.suffix_refl _)
          cases regionFound : found r with
          | none =>
              rw [regionFound] at matched
              rw [docText_cons, Chunk.text, subFrom_append_of_fails matcher replace _ _
                (regionSound.fails_tail anchored _ matched), rest]
              simp [Chunk.mapRegion, regionFound]
          | some x =>
              rw [regionFound, Option.map_some', GitRegion.text_cons] at matched
              rw [docText_cons, Chunk.text, GitRegion.text_cons,
                subFrom_of_match matcher replace matched (List.suffix_append _ _), rest]
              simp [Chunk.mapRegion, regionFound]

theorem subFrom_docText (matcher : Text → Option (α × Text)) (replace : α → Text)
    (found : GitRegion → α) (anchored : ∀ text, ¬ bareStartMarker <+: text → matcher text = none)
    (exact : ∀ r, .region r ∈ chunks → ∀ rest, matcher (r.text ++ rest) = some (found r, rest)) :
    subFrom matcher replace 0 (docText chunks) =
      chunks.flatMap (Chunk.mapRegion fun r => replace (found r)) :=
  subFrom_docText_of_regions sound matcher replace (fun r => some (found r)) anchored
    fun r member rest _ => exact r member rest

theorem findFrom_docText (matcher : Text → Option (α × Text)) (found : GitRegion → α)
    (anchored : ∀ text, ¬ bareStartMarker <+: text → matcher text = none)
    (exact : ∀ r, .region r ∈ chunks → ∀ rest, matcher (r.text ++ rest) = some (found r, rest)) :
    findFrom matcher 0 (docText chunks) = (chunks.filterMap Chunk.region?).map found := by
  induction chunks with
  | nil => exact findFrom_nil matcher (anchored [] (by decide))
  | cons chunk chunks ih =>
      have rest := ih (Chunk.sound_tail sound) fun r member =>
        exact r (List.mem_cons_of_mem _ member)
      cases chunk with
      | outside text =>
          have outside : EndsLine text ∧ MarkerFree text := sound _ (List.mem_cons_self _ _)
          rw [docText_cons, Chunk.text, findFrom_append_of_fails matcher _ _
            (fails_of_avoids anchored (avoids_of_markerFree (by decide) outside.2 outside.1) _),
            rest]
          rfl
      | region r =>
          have matched := exact r (List.mem_cons_self _ _) (docText chunks)
          rw [GitRegion.text_cons] at matched
          rw [docText_cons, Chunk.text, GitRegion.text_cons,
            findFrom_of_match matcher matched (List.suffix_append _ _), rest]
          rfl

theorem keepOurs_docText :
    keepOurs (docText chunks) = chunks.flatMap (Chunk.mapRegion GitRegion.ours) :=
  subFrom_docText sound matchGeneric id GitRegion.ours (fun _ => matchGeneric_eq_none)
    fun _ member rest => GitRegion.Sound.matchGeneric_text (sound _ member) rest

theorem cleanContent_docText :
    cleanContent (docText chunks) = chunks.flatMap (Chunk.mapRegion fun _ => []) :=
  subFrom_docText sound matchConflict (fun _ => []) (fun r => (r.ours, some r.theirs))
    (fun _ => matchConflict_eq_none) fun _ member rest =>
    GitRegion.Sound.matchConflict_text (sound _ member) rest

theorem findFrom_matchConflict_docText :
    findFrom matchConflict 0 (docText chunks) =
      (chunks.filterMap Chunk.region?).map fun r => (r.ours, some r.theirs) :=
  findFrom_docText sound matchConflict (fun r => (r.ours, some r.theirs))
    (fun _ => matchConflict_eq_none) fun _ member rest =>
    GitRegion.Sound.matchConflict_text (sound _ member) rest

end Passes

theorem endLine_position {chunks : List Chunk} (closed : ∀ chunk ∈ chunks, chunk.Closed) {n : Nat}
    (pre : bareEndMarker <+: (docText chunks).drop n) :
    ∃ k, 0 < k ∧ dropLine (((docText chunks).drop n).drop 7) = docText (chunks.drop k) := by
  induction chunks generalizing n with
  | nil => exact absurd (List.prefix_nil.mp (by simpa using pre)) (by decide)
  | cons chunk chunks ih =>
      have later : ∀ m, (docText (chunk :: chunks)).drop n = (docText chunks).drop m →
          ∃ k, 0 < k ∧ dropLine (((docText (chunk :: chunks)).drop n).drop 7) =
            docText ((chunk :: chunks).drop k) := fun m same => by
        rw [same] at pre ⊢
        obtain ⟨k, _, found⟩ := ih (fun c member => closed c (List.mem_cons_of_mem _ member)) pre
        exact ⟨k + 1, by omega, found⟩
      cases chunk with
      | outside text =>
          have outside : Avoids bareEndMarker text := closed _ (List.mem_cons_self _ _)
          exact later _ (outside.drop_append pre).2
      | region r =>
          have regionSound : r.Sound := closed _ (List.mem_cons_self _ _)
          have split : docText (.region r :: chunks) =
              (r.startLine ++ r.ours ++ separatorLine ++ r.theirs) ++
                (r.endLine ++ docText chunks) := by
            simp [Chunk.text, GitRegion.text]
          rw [split] at pre later ⊢
          have skip := (regionSound.avoids_end_before.drop_append pre).2
          rw [skip] at pre later ⊢
          generalize n - _ = j at pre later ⊢
          cases j with
          | zero =>
              refine ⟨1, Nat.one_pos, ?_⟩
              simpa [GitRegion.endLine, endMarker_eq] using
                dropLine_line (by simpa using regionSound.endLabel.1) (docText chunks)
          | succ j =>
              have step : (r.endLine ++ docText chunks).drop (j + 1) =
                  (r.endLine.tail ++ docText chunks).drop j := by
                rw [← List.drop_tail]; rfl
              rw [step] at pre later ⊢
              exact later _ (regionSound.avoids_end_tail.drop_append pre).2

theorem after_endLine {chunks : List Chunk} (closed : ∀ chunk ∈ chunks, chunk.Closed)
    {last after : Text} (suffix : last <:+ docText chunks) (ended : endLineRest last = some after) :
    ∃ k, 0 < k ∧ after = docText (chunks.drop k) := by
  obtain ⟨pre, rfl⟩ := endLineRest_eq_some ended
  rw [List.suffix_iff_eq_drop.mp suffix] at pre ⊢
  exact endLine_position closed pre

theorem dropMembersConflicts_docText : ∀ {chunks : List Chunk}, (∀ chunk ∈ chunks, chunk.Sound) →
    ∃ kept, kept.Sublist chunks ∧ dropMembersConflicts (docText chunks) = docText kept
  | [], _ => ⟨[], List.Sublist.slnil, subFrom_nil _ _ rfl⟩
  | .outside text :: chunks, sound => by
      have outside : EndsLine text ∧ MarkerFree text := sound _ (List.mem_cons_self _ _)
      obtain ⟨kept, sub, dropped⟩ := @dropMembersConflicts_docText chunks (Chunk.sound_tail sound)
      refine ⟨.outside text :: kept, sub.cons₂ _, ?_⟩
      rw [docText_cons, Chunk.text, dropMembersConflicts, subFrom_append_of_fails _ _ _ _
        (fails_of_avoids (fun _ => matchMembersConflict_eq_none)
          (avoids_of_markerFree (by decide) outside.2 outside.1) _)]
      exact congrArg (text ++ ·) dropped
  | .region r :: chunks, sound => by
      have regionSound : r.Sound := sound _ (List.mem_cons_self _ _)
      cases matched : matchMembersConflict (r.text ++ docText chunks) with
      | none =>
          obtain ⟨kept, sub, dropped⟩ :=
            @dropMembersConflicts_docText chunks (Chunk.sound_tail sound)
          refine ⟨.region r :: kept, sub.cons₂ _, ?_⟩
          rw [docText_cons, Chunk.text, dropMembersConflicts, subFrom_append_of_fails _ _ _ _
            (regionSound.fails_tail (fun _ => matchMembersConflict_eq_none) _ matched)]
          exact congrArg (r.text ++ ·) dropped
      | some result =>
          obtain ⟨u, after⟩ := result
          obtain ⟨last, suffix, ended⟩ := matchMembersConflict_after matched
          obtain ⟨pre, after_eq⟩ := endLineRest_eq_some ended
          have whole : last <:+ docText (.region r :: chunks) :=
            suffix.trans (List.tail_suffix _)
          rw [List.suffix_iff_eq_drop.mp whole] at pre after_eq
          obtain ⟨k, positive, reached⟩ :=
            endLine_position (fun c member => (sound c member).closed) pre
          obtain ⟨j, rfl⟩ : ∃ j, k = j + 1 := ⟨k - 1, by omega⟩
          have shorter : (chunks.drop j).length < (Chunk.region r :: chunks).length := by
            simp; omega
          obtain ⟨kept, sub, dropped⟩ := @dropMembersConflicts_docText (chunks.drop j)
            fun c member => sound c (List.mem_cons_of_mem _ ((List.drop_sublist j _).subset member))
          refine ⟨kept, (sub.trans (List.drop_sublist j _)).cons _, ?_⟩
          have afterText : after = docText (chunks.drop j) := after_eq.trans reached
          rw [afterText, GitRegion.text_cons] at matched
          rw [docText_cons, Chunk.text, dropMembersConflicts, GitRegion.text_cons,
            subFrom_of_match _ _ matched (matchMembersConflict_suffix matched)]
          exact dropped
termination_by chunks => chunks.length

end ConflictResolver
