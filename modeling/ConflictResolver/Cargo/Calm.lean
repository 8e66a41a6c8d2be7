import ConflictResolver.Cargo.Members

/-!
Manifests whose outside text may hold start-marker and separator text, as comments do, and
what the first run of `resolve_cargo_conflict` leaves of them. Every match of a rewrite pattern
ends at the end line of a region, so the members pass cuts the text between chunk boundaries
and a start marker, and when no end-marker text stands outside the regions the text the generic
pass leaves holds none (`keepOurs_dropMembersConflicts_endFree`).
-/

namespace ConflictResolver

/-! ### Calm text -/

/-- The characters the marker texts are runs of. -/
def markerChars : Text := "<=>".toList

theorem barMarker_chars : ∀ marker ∈ barMarkers, ∀ c ∈ marker, c ∈ markerChars := by decide

/-- Text a rewrite pass can leave next to any other text: no end-marker text, no separator text
right after `>`, no start-marker text right after `=` or `>`, and a last character that is not
a marker character. -/
structure Calm (text : Text) : Prop where
  ending : ¬ bareEndMarker <:+: text
  separator : ¬ ('>' :: separatorMarker) <:+: text
  starts : ∀ c ∈ "=>".toList, ¬ (c :: bareStartMarker) <:+: text
  last : ∀ c ∈ text.getLast?, c ∉ markerChars

theorem Calm.of_infix {text whole : Text} (calm : Calm whole) (inf : text <:+: whole)
    (last : ∀ c ∈ text.getLast?, c ∉ markerChars) : Calm text where
  ending inText := calm.ending (inText.trans inf)
  separator inText := calm.separator (inText.trans inf)
  starts c member inText := calm.starts c member (inText.trans inf)
  last := last

theorem getLast?_drop_mem {text : Text} {n : Nat} {c : Char} (member : c ∈ (text.drop n).getLast?) :
    c ∈ text.getLast? := by
  rw [← List.take_append_drop n text, List.getLast?_append, member]; rfl

theorem Calm.drop {text : Text} (calm : Calm text) (n : Nat) : Calm (text.drop n) :=
  calm.of_infix (List.drop_suffix n text).isInfix fun _ member =>
    calm.last _ (getLast?_drop_mem member)

theorem calm_nil : Calm [] where
  ending inf := absurd (List.eq_nil_of_infix_nil inf) (by decide)
  separator inf := absurd (List.eq_nil_of_infix_nil inf) (by decide)
  starts _ _ inf := absurd (List.eq_nil_of_infix_nil inf) (by simp)
  last _ member := by cases member

theorem prefix_of_prefix_append_last {needle front back : Text} (pre : needle <+: front ++ back)
    (nonempty : front ≠ []) (last : ∀ c ∈ front.getLast?, c ∉ needle) : needle <+: front :=
  (List.prefix_or_prefix_of_prefix pre (List.prefix_append front back)).elim id fun inNeedle => by
    obtain ⟨c, lastC⟩ := Option.ne_none_iff_exists'.mp (mt List.getLast?_eq_none_iff.mp nonempty)
    exact absurd (inNeedle.subset (List.mem_of_getLast?_eq_some lastC)) (last c lastC)

/-- In calm text a marker text that the text from some position on begins with lies within it,
whatever follows the text. -/
theorem Calm.prefix_drop {text back marker : Text} (calm : Calm text) (member : marker ∈ barMarkers)
    {p : Nat} (inside : p < text.length) (pre : marker <+: text.drop p ++ back) :
    marker <+: text.drop p :=
  prefix_of_prefix_append_last pre (by simp; omega) fun c lastC inMarker =>
    calm.last c (getLast?_drop_mem lastC) (barMarker_chars marker member c inMarker)

theorem Calm.avoids_end {text : Text} (calm : Calm text) : Avoids bareEndMarker text :=
  avoids_of_last calm.ending fun c lastC inMarker =>
    calm.last c lastC (barMarker_chars _ (by decide) c inMarker)

/-- What stands right before a marker text in calm text is no marker character that could form
a longer marker text with it, nor the one the calm condition forbids there. -/
theorem infix_of_getLast?_take {text needle : Text} {p : Nat} (marked : needle <+: text.drop p)
    {c : Char} (lastC : c ∈ (text.take p).getLast?) : c :: needle <:+: text := by
  obtain ⟨init, split⟩ := List.getLast?_eq_some_iff.mp lastC
  obtain ⟨rest, restEq⟩ := marked
  exact ⟨init, rest, by rw [← List.take_append_drop p text, split, ← restEq]; simp⟩

theorem Calm.before_start {text : Text} (calm : Calm text) {p : Nat}
    (marked : bareStartMarker <+: text.drop p) :
    ∀ c ∈ (text.take p).getLast?, c ≠ '=' ∧ c ≠ '>' := fun c lastC =>
  ⟨fun same => calm.starts '=' (by decide) (same ▸ infix_of_getLast?_take marked lastC),
    fun same => calm.starts '>' (by decide) (same ▸ infix_of_getLast?_take marked lastC)⟩

/-! ### Calm documents -/

/-- A chunk a rewrite pass can leave: calm outside text, or a sound region. -/
def Chunk.Calm : Chunk → Prop
  | .outside text => ConflictResolver.Calm text
  | .region r => r.Sound

/-- Outside text of a manifest the tool can be run on twice: whole lines, no end-marker text, no
separator text right after `>`, and no start-marker text right after `=` or `>`. A comment such
as `# <<<<<<< ...` or `# =======` is quiet text. -/
def Quiet (text : Text) : Prop :=
  EndsLine text ∧ ¬ bareEndMarker <:+: text ∧ ¬ ('>' :: separatorMarker) <:+: text ∧
    ∀ c ∈ "=>".toList, ¬ (c :: bareStartMarker) <:+: text

instance (text : Text) : Decidable (Quiet text) := inferInstanceAs (Decidable (_ ∧ _ ∧ _ ∧ _))

/-- Quiet outside text, or a sound region. -/
def Chunk.Quiet : Chunk → Prop
  | .outside text => ConflictResolver.Quiet text
  | .region r => r.Sound

instance : (chunk : Chunk) → Decidable chunk.Quiet
  | .outside text => inferInstanceAs (Decidable (Quiet text))
  | .region r => inferInstanceAs (Decidable r.Sound)

theorem Quiet.calm {text : Text} (quiet : Quiet text) : Calm text where
  ending := quiet.2.1
  separator := quiet.2.2.1
  starts := quiet.2.2.2
  last c member := by
    rcases quiet.1 with rfl | ends
    · cases member
    · rw [Option.some.inj (ends.symm.trans member).symm]; decide

theorem Chunk.Quiet.calm {chunk : Chunk} (quiet : chunk.Quiet) : chunk.Calm := by
  cases chunk with
  | outside text => exact ConflictResolver.Quiet.calm quiet
  | region r => exact quiet

theorem Chunk.Calm.closed {chunk : Chunk} (calm : chunk.Calm) : chunk.Closed := by
  cases chunk with
  | outside text => exact Calm.avoids_end calm
  | region r => exact calm

theorem Chunk.calm_tail {chunk : Chunk} {chunks : List Chunk}
    (calm : ∀ c ∈ chunk :: chunks, c.Calm) :
    ∀ c ∈ chunks, c.Calm :=
  fun c member => calm c (List.mem_cons_of_mem _ member)

theorem Chunk.calm_drop {chunks : List Chunk} (calm : ∀ c ∈ chunks, c.Calm) (n : Nat) :
    ∀ c ∈ chunks.drop n, c.Calm :=
  fun c member => calm c ((List.drop_sublist n chunks).subset member)

/-- A match that ends with an end line, started in calm outside text, ends at a chunk boundary. -/
theorem after_of_outside {text : Text} {chunks : List Chunk} (calm : Calm text)
    (calmChunks : ∀ chunk ∈ chunks, chunk.Calm) {last after : Text}
    (suffix : last <:+ text ++ docText chunks) (ended : endLineRest last = some after) :
    ∃ j, after = docText (chunks.drop j) := by
  obtain ⟨k, positive, reached⟩ := @after_endLine (.outside text :: chunks)
    (List.forall_mem_cons.mpr ⟨calm.avoids_end, fun c inChunks => (calmChunks c inChunks).closed⟩)
    _ _ suffix ended
  obtain ⟨j, rfl⟩ : ∃ j, k = j + 1 := ⟨k - 1, by omega⟩
  exact ⟨j, reached⟩

/-! ### Texts no end marker can start in -/

/-- Text in which no end-marker text occurs and which does not end with `>`, so that no
end-marker text starts in it whatever follows. -/
structure EndFree (text : Text) : Prop where
  absent : ¬ bareEndMarker <:+: text
  last : ∀ c ∈ text.getLast?, c ≠ '>'

theorem endFree_nil : EndFree [] where
  absent inf := absurd (List.eq_nil_of_infix_nil inf) (by decide)
  last _ member := by cases member

theorem EndFree.append {front back : Text} (first : EndFree front) (second : EndFree back) :
    EndFree (front ++ back) where
  absent inf := by
    rcases List.eq_nil_or_concat front with rfl | ⟨init, d, rfl⟩
    · exact second.absent inf
    · simp only [List.concat_eq_append] at first inf
      have other : d ∉ bareEndMarker := fun inMarker =>
        first.last d (by simp) (by simpa [bareEndMarker] using inMarker)
      rw [List.append_assoc, List.singleton_append] at inf
      rcases infix_append_cons other inf with inInit | inBack
      · exact first.absent (inInit.trans (List.prefix_append init [d]).isInfix)
      · exact second.absent inBack
  last c member := by
    rw [List.getLast?_append] at member
    cases lastBack : back.getLast? with
    | none => simp only [lastBack, Option.none_or] at member; exact first.last c member
    | some d => exact second.last c (lastBack ▸ member)

theorem Calm.endFree {text : Text} (calm : Calm text) : EndFree text where
  absent := calm.ending
  last c member same := calm.last c member (same ▸ by decide)

theorem endFree_of_markerFree {text : Text} (free : MarkerFree text) (ends : EndsLine text) :
    EndFree text where
  absent := free _ (by decide)
  last c member := by
    rcases ends with rfl | ends
    · cases member
    · rw [Option.some.inj (ends.symm.trans member).symm]; decide

/-! ### The members pass -/

theorem startLineRest_cons_of_marked {text : Text} (marked : bareStartMarker <+: text) :
    startLineRest ('<' :: text) = startLineRest text := by
  obtain ⟨rest, rfl⟩ := marked
  simp [startLineRest, lineRest, bareStartMarker]

theorem matchMembersConflict_cons_of_marked {text : Text} (marked : bareStartMarker <+: text) :
    matchMembersConflict ('<' :: text) = matchMembersConflict text := by
  simp only [matchMembersConflict, startLineRest_cons_of_marked marked]

/-- Where the members pass first matches in calm outside text, the text before the match is
calm again: the match starts at the first `<` of a run, so no `<` is left before it. -/
theorem calm_take_first {text back : Text} (calm : Calm text) {p : Nat} (inside : p < text.length)
    (before : ∀ i < p, matchMembersConflict (text.drop i ++ back) = none)
    (success : matchMembersConflict (text.drop p ++ back) ≠ none) : Calm (text.take p) := by
  have marked : bareStartMarker <+: text.drop p := calm.prefix_drop (by decide) inside
    (Decidable.byContradiction fun unmarked => success (matchMembersConflict_eq_none unmarked))
  refine calm.of_infix (List.take_prefix p text).isInfix fun c lastC => ?_
  obtain ⟨unequal, ungreater⟩ := calm.before_start marked c lastC
  obtain ⟨init, split⟩ := List.getLast?_eq_some_iff.mp lastC
  have position : init.length < p := by
    have := congrArg List.length split
    simp at this; omega
  have dropped : text.drop init.length = c :: text.drop p := by
    conv_lhs => rw [← List.take_append_drop p text, split]
    simp
  intro inChars
  have less : c = '<' := by simp [markerChars] at inChars; tauto
  subst less
  have failed := before _ position
  rw [dropped, List.cons_append, matchMembersConflict_cons_of_marked
    (marked.trans (List.prefix_append _ _))] at failed
  exact success failed

theorem dropMembersConflicts_calm : ∀ {chunks : List Chunk}, (∀ chunk ∈ chunks, chunk.Calm) →
    ∃ kept, (∀ chunk ∈ kept, chunk.Calm) ∧ dropMembersConflicts (docText chunks) = docText kept
  | [], _ => ⟨[], by simp, subFrom_nil _ _ rfl⟩
  | .region r :: chunks, calm => by
      have regionSound : r.Sound := calm _ (List.mem_cons_self _ _)
      cases matched : matchMembersConflict (r.text ++ docText chunks) with
      | none =>
          obtain ⟨kept, keptCalm, dropped⟩ := dropMembersConflicts_calm (Chunk.calm_tail calm)
          refine ⟨.region r :: kept, List.forall_mem_cons.mpr ⟨regionSound, keptCalm⟩, ?_⟩
          rw [docText_cons, Chunk.text, dropMembersConflicts, subFrom_append_of_fails _ _ _ _
            (regionSound.fails_tail (fun _ => matchMembersConflict_eq_none) _ matched)]
          exact congrArg (r.text ++ ·) dropped
      | some result =>
          obtain ⟨u, after⟩ := result
          obtain ⟨last, suffix, ended⟩ := matchMembersConflict_after matched
          obtain ⟨k, _, reached⟩ := after_endLine (fun c member => (calm c member).closed)
            (suffix.trans (List.tail_suffix _)) ended
          obtain ⟨j, rfl⟩ : ∃ j, k = j + 1 := ⟨k - 1, by omega⟩
          have shorter : (chunks.drop j).length < (Chunk.region r :: chunks).length := by
            simp; omega
          obtain ⟨kept, keptCalm, dropped⟩ :=
            dropMembersConflicts_calm (Chunk.calm_drop (Chunk.calm_tail calm) j)
          refine ⟨kept, keptCalm, ?_⟩
          rw [reached, GitRegion.text_cons] at matched
          rw [docText_cons, Chunk.text, dropMembersConflicts, GitRegion.text_cons,
            subFrom_of_match _ _ matched (matchMembersConflict_suffix matched)]
          exact dropped
  | .outside text :: chunks, calm => by
      have outside : Calm text := calm _ (List.mem_cons_self _ _)
      rcases exists_first_success matchMembersConflict text (docText chunks) with
        fails | ⟨p, inside, before, success⟩
      · obtain ⟨kept, keptCalm, dropped⟩ := dropMembersConflicts_calm (Chunk.calm_tail calm)
        refine ⟨.outside text :: kept, List.forall_mem_cons.mpr ⟨outside, keptCalm⟩, ?_⟩
        rw [docText_cons, Chunk.text, dropMembersConflicts, subFrom_append_of_fails _ _ _ _ fails]
        exact congrArg (text ++ ·) dropped
      · obtain ⟨⟨u, after⟩, matched⟩ := Option.ne_none_iff_exists'.mp success
        obtain ⟨c, rest, split⟩ := List.exists_cons_of_ne_nil
          (show text.drop p ++ docText chunks ≠ [] by simp; omega)
        obtain ⟨last, suffix, ended⟩ := matchMembersConflict_after matched
        obtain ⟨j, reached⟩ := after_of_outside (outside.drop p) (Chunk.calm_tail calm)
          (suffix.trans (List.tail_suffix _)) ended
        have shorter : (chunks.drop j).length < (Chunk.outside text :: chunks).length := by
          simp; omega
        obtain ⟨kept, keptCalm, dropped⟩ :=
          dropMembersConflicts_calm (Chunk.calm_drop (Chunk.calm_tail calm) j)
        refine ⟨.outside (text.take p) :: kept,
          List.forall_mem_cons.mpr ⟨calm_take_first outside inside before success, keptCalm⟩, ?_⟩
        rw [split] at matched
        rw [docText_cons, Chunk.text, dropMembersConflicts, subFrom_append_upto _ _ before, split,
          subFrom_of_match _ _ matched (matchMembersConflict_suffix matched), List.nil_append,
          reached]
        exact congrArg (text.take p ++ ·) dropped
termination_by chunks => chunks.length

theorem Avoids.endFree {text : Text} (avoids : Avoids bareEndMarker text) : EndFree text where
  absent := by
    rintro ⟨front, back, rfl⟩
    have inside : front.length < (front ++ bareEndMarker ++ back).length := by simp [bareEndMarker]
    exact (avoids _ inside).1 (by simp)
  last c member same := by
    obtain ⟨init, split⟩ := List.getLast?_eq_some_iff.mp member
    have inside : init.length < text.length := by rw [split]; simp
    refine (avoids _ inside).2 ?_
    rw [split, List.drop_left, same]
    decide

/-! ### The generic pass -/

theorem separatorMarker_prefix_of_separated {text : Text}
    (separated : (separatorRest text).bind (searchFirst endLineRest) ≠ none) :
    separatorMarker <+: text :=
  Decidable.byContradiction fun unmarked => separated (by simp [separatorRest_eq_none unmarked])

/-- The lazy ours group of the generic pattern, read from calm text on, ends at a separator
that follows no `>`, or it runs on with what the text after it gives. -/
theorem separated_calm {back : Text}
    (atBack : ∀ {group after : Text}, lazyGroup (fun rest => (separatorRest rest).bind
      (searchFirst endLineRest)) back = some (group, after) → EndFree group)
    {text group after : Text} (calm : Calm text)
    (grouped : lazyGroup (fun rest => (separatorRest rest).bind (searchFirst endLineRest))
      (text ++ back) = some (group, after)) : EndFree group := by
  rcases exists_first_success (fun rest => (separatorRest rest).bind (searchFirst endLineRest))
    text back with fails | ⟨p, inside, before, success⟩
  · rw [lazyGroup_append_of_fails _ _ _ fails] at grouped
    obtain ⟨⟨front, found⟩, inner, same⟩ := Option.map_eq_some'.mp grouped
    cases same
    exact calm.endFree.append (atBack inner)
  · obtain ⟨found, separated⟩ := Option.ne_none_iff_exists'.mp success
    rw [lazyGroup_append_upto _ before, lazyGroup_of_success _ separated] at grouped
    cases grouped
    have marked := calm.prefix_drop (by decide) inside
      (separatorMarker_prefix_of_separated (separated ▸ Option.some_ne_none _))
    refine ⟨fun inf => calm.ending (inf.trans (by simpa using (List.take_prefix p text).isInfix)),
      fun c lastC same =>
        calm.separator (same ▸ infix_of_getLast?_take marked (by simpa using lastC))⟩

theorem GitRegion.Sound.lazyGroup_text {r : GitRegion} (sound : r.Sound) (rest : Text) :
    lazyGroup (fun rest => (separatorRest rest).bind (searchFirst endLineRest)) (r.text ++ rest) =
      some (r.startLine ++ r.ours, rest) := by
  have avoids : Avoids separatorMarker r.startLine := by
    simpa [GitRegion.startLine] using (by decide : Avoids separatorMarker startMarker).append
      (avoids_label (by decide) sound.startLabel.2)
  have split : r.text ++ rest =
      r.startLine ++ (r.ours ++ (separatorLine ++ (r.theirs ++ (r.endLine ++ rest)))) := by
    simp [GitRegion.text]
  rw [split, lazyGroup_append_of_fails _ _ _ (fails_of_avoids (fun _ unmarked => by
    simp [separatorRest_eq_none unmarked]) avoids _), sound.lazyGroup_ours]
  rfl

theorem GitRegion.Sound.endFree_startLine {r : GitRegion} (sound : r.Sound) :
    EndFree r.startLine := by
  simpa [GitRegion.startLine] using ((by decide : Avoids bareEndMarker startMarker).append
    (avoids_label (by decide) sound.startLabel.2)).endFree

theorem separated_docText : ∀ {chunks : List Chunk}, (∀ chunk ∈ chunks, chunk.Calm) →
    ∀ {group after : Text}, lazyGroup (fun rest => (separatorRest rest).bind
      (searchFirst endLineRest)) (docText chunks) = some (group, after) → EndFree group
  | [], _, _, _, grouped => by simp [lazyGroup, separatorRest] at grouped
  | .outside text :: chunks, calm, _, _, grouped =>
      separated_calm (separated_docText (Chunk.calm_tail calm)) (calm _ (List.mem_cons_self _ _))
        grouped
  | .region r :: chunks, calm, _, _, grouped => by
      have sound : r.Sound := calm _ (List.mem_cons_self _ _)
      rw [docText_cons, Chunk.text, sound.lazyGroup_text] at grouped
      cases grouped
      exact sound.endFree_startLine.append (sound.avoids_ours (by decide)).endFree

theorem lineRest_newline_cons (text : Text) : lineRest ('\n' :: text) = some text := by
  simp [lineRest]

theorem lineRest_cons_of_ne {c : Char} (other : c ≠ '\n') (text : Text) :
    lineRest (c :: text) = lineRest text := by
  simp [lineRest, other]

theorem GitRegion.Sound.lineRest_text {r : GitRegion} (sound : r.Sound) (rest : Text) :
    lineRest (r.text ++ rest) =
      some (r.ours ++ (separatorLine ++ (r.theirs ++ (r.endLine ++ rest)))) := by
  rw [GitRegion.text_eq, List.append_assoc]
  exact lineRest_line (by simpa [bareStartMarker] using sound.startLabel.1) _

theorem lineRest_separated_append {back : Text}
    (atBack : ∀ {ours after : Text}, (lineRest back).bind (lazyGroup fun rest =>
      (separatorRest rest).bind (searchFirst endLineRest)) = some (ours, after) → EndFree ours)
    (separatedBack : ∀ {group after : Text}, lazyGroup (fun rest => (separatorRest rest).bind
      (searchFirst endLineRest)) back = some (group, after) → EndFree group) :
    ∀ {text ours after : Text}, Calm text → (lineRest (text ++ back)).bind (lazyGroup fun rest =>
      (separatorRest rest).bind (searchFirst endLineRest)) = some (ours, after) → EndFree ours
  | [], _, _, _, grouped => atBack grouped
  | c :: text, _, _, calm, grouped => by
      by_cases newline : c = '\n'
      · subst newline
        rw [List.cons_append, lineRest_newline_cons, Option.some_bind] at grouped
        exact separated_calm separatedBack (calm.drop 1) grouped
      · rw [List.cons_append, lineRest_cons_of_ne newline] at grouped
        exact lineRest_separated_append atBack separatedBack (calm.drop 1) grouped

theorem lineRest_separated_docText : ∀ {chunks : List Chunk}, (∀ chunk ∈ chunks, chunk.Calm) →
    ∀ {ours after : Text}, (lineRest (docText chunks)).bind (lazyGroup fun rest =>
      (separatorRest rest).bind (searchFirst endLineRest)) = some (ours, after) → EndFree ours
  | [], _, _, _, grouped => by simp [lineRest] at grouped
  | .outside text :: chunks, calm, _, _, grouped =>
      lineRest_separated_append (lineRest_separated_docText (Chunk.calm_tail calm))
        (separated_docText (Chunk.calm_tail calm)) (calm _ (List.mem_cons_self _ _)) grouped
  | .region r :: chunks, calm, _, _, grouped => by
      have sound : r.Sound := calm _ (List.mem_cons_self _ _)
      rw [docText_cons, Chunk.text, sound.lineRest_text, Option.some_bind,
        sound.lazyGroup_ours] at grouped
      cases grouped
      exact (sound.avoids_ours (by decide)).endFree

/-- The ours group of a generic match that starts in calm outside text holds no end-marker
text and does not end with `>`. -/
theorem matchGeneric_calm {text : Text} {chunks : List Chunk} (calm : Calm text)
    (calmChunks : ∀ chunk ∈ chunks, chunk.Calm) (marked : bareStartMarker <+: text)
    {ours after : Text} (matched : matchGeneric (text ++ docText chunks) = some (ours, after)) :
    EndFree ours := by
  have long : 7 ≤ text.length := marked.length_le
  rw [matchGeneric, startLineRest, if_pos (List.isPrefixOf_iff_prefix.mpr
    (marked.trans (List.prefix_append _ _))), List.drop_append_of_le_length long] at matched
  exact lineRest_separated_append (lineRest_separated_docText calmChunks)
    (separated_docText calmChunks) (calm.drop 7) matched

/-! ### Passes that cut at start markers and end lines -/

section Passes

variable {α : Type} (matcher : Text → Option (α × Text)) (replace : α → Text)
  (anchored : ∀ text, ¬ bareStartMarker <+: text → matcher text = none)
  (ends : ∀ text found after, matcher text = some (found, after) →
    ∃ last, last <:+ text.tail ∧ endLineRest last = some after)
  (atRegion : ∀ (r : GitRegion) (rest : Text), r.Sound →
    ∃ found, matcher (r.text ++ rest) = some (found, rest) ∧ EndFree (replace found))
  (inOutside : ∀ text chunks found after, Calm text → (∀ chunk ∈ chunks, chunk.Calm) →
    bareStartMarker <+: text → matcher (text ++ docText chunks) = some (found, after) →
      EndFree (replace found))
include anchored ends atRegion inOutside

/-- A pass whose matches start at a start marker and end with an end line, and whose
replacements are end free, leaves an end-free text of a calm document. -/
theorem subFrom_endFree : ∀ {chunks : List Chunk}, (∀ chunk ∈ chunks, chunk.Calm) →
    EndFree (subFrom matcher replace 0 (docText chunks))
  | [], _ => by
      rw [docText_nil, subFrom_nil matcher replace (anchored [] (by decide))]
      exact endFree_nil
  | .region r :: chunks, calm => by
      obtain ⟨found, matched, free⟩ :=
        atRegion r (docText chunks) (calm _ (List.mem_cons_self _ _))
      rw [GitRegion.text_cons] at matched
      rw [docText_cons, Chunk.text, GitRegion.text_cons,
        subFrom_of_match matcher replace matched (List.suffix_append _ _)]
      exact free.append (subFrom_endFree (Chunk.calm_tail calm))
  | .outside text :: chunks, calm => by
      have outside : Calm text := calm _ (List.mem_cons_self _ _)
      rcases exists_first_success matcher text (docText chunks) with
        fails | ⟨p, inside, before, success⟩
      · rw [docText_cons, Chunk.text, subFrom_append_of_fails matcher replace _ _ fails]
        exact outside.endFree.append (subFrom_endFree (Chunk.calm_tail calm))
      · obtain ⟨⟨found, after⟩, matched⟩ := Option.ne_none_iff_exists'.mp success
        have marked : bareStartMarker <+: text.drop p := outside.prefix_drop (by decide) inside
          (Decidable.byContradiction fun unmarked => success (anchored _ unmarked))
        have freeFound := inOutside _ _ _ _ (outside.drop p) (Chunk.calm_tail calm) marked matched
        obtain ⟨c, rest, split⟩ := List.exists_cons_of_ne_nil
          (show text.drop p ++ docText chunks ≠ [] by simp; omega)
        obtain ⟨last, suffix, ended⟩ := ends _ _ _ matched
        obtain ⟨j, reached⟩ := after_of_outside (outside.drop p) (Chunk.calm_tail calm)
          (suffix.trans (List.tail_suffix _)) ended
        rw [split] at matched suffix
        have shorter : (chunks.drop j).length < (Chunk.outside text :: chunks).length := by
          simp; omega
        have freeTake : EndFree (text.take p) :=
          ⟨fun inf => outside.ending (inf.trans (List.take_prefix p text).isInfix),
            fun c lastC => (outside.before_start marked c lastC).2⟩
        rw [docText_cons, Chunk.text, subFrom_append_upto matcher replace before, split,
          subFrom_of_match matcher replace matched
            ((endLineRest_suffix ended).trans ((List.tail_suffix _).trans suffix)), reached]
        exact freeTake.append (freeFound.append
          (subFrom_endFree (Chunk.calm_drop (Chunk.calm_tail calm) j)))
termination_by chunks => chunks.length

end Passes

theorem keepOurs_endFree {chunks : List Chunk} (calm : ∀ chunk ∈ chunks, chunk.Calm) :
    EndFree (keepOurs (docText chunks)) :=
  subFrom_endFree matchGeneric id (fun _ => matchGeneric_eq_none)
    (fun _ _ _ matched => matchGeneric_after matched)
    (fun r rest sound =>
      ⟨r.ours, sound.matchGeneric_text rest, (sound.avoids_ours (by decide)).endFree⟩)
    (fun _ _ _ _ calm calmChunks marked => matchGeneric_calm calm calmChunks marked)
    calm

theorem cleanContent_endFree {chunks : List Chunk} (calm : ∀ chunk ∈ chunks, chunk.Calm) :
    EndFree (cleanContent (docText chunks)) :=
  subFrom_endFree matchConflict (fun _ => []) (fun _ => matchConflict_eq_none)
    (fun _ _ _ matched => matchConflict_after matched)
    (fun _ rest sound => ⟨_, sound.matchConflict_text rest, endFree_nil⟩)
    (fun _ _ _ _ _ _ _ _ => endFree_nil) calm

/-! ### The members collected -/

theorem not_infix_of_lazyGroup {α : Type} {cont : Text → Option α} {needle text group : Text}
    {found : α} (nonempty : needle ≠ []) (stops : ∀ rest, needle <+: rest → cont rest ≠ none)
    (grouped : lazyGroup cont text = some (group, found)) : ¬ needle <:+: group := by
  rintro ⟨front, back, rfl⟩
  obtain ⟨rest, split, _⟩ := lazyGroup_eq_some cont grouped
  have failed := lazyGroup_fails_before cont grouped front.length
    (by have := List.length_pos.mpr nonempty; simp; omega)
  rw [split, List.append_assoc, List.append_assoc, List.drop_left] at failed
  exact stops _ (List.prefix_append _ _) failed

theorem endLineRest_ne_none {text : Text} (pre : bareEndMarker <+: text) :
    endLineRest text ≠ none := by
  simp [endLineRest, List.isPrefixOf_iff_prefix.mpr pre]

/-- No group of a `conflict_pattern` match holds end-marker text: the lazy groups stop at the
first one. -/
theorem matchConflict_sides_endFree {text after : Text} {sides : Text × Option Text}
    (matched : matchConflict text = some (sides, after)) :
    ¬ bareEndMarker <:+: sides.1 ∧ ∀ theirs ∈ sides.2, ¬ bareEndMarker <:+: theirs := by
  obtain ⟨body, _, grouped⟩ := Option.bind_eq_some.mp matched
  obtain ⟨⟨ours, theirs, after'⟩, grouped, same⟩ := Option.map_eq_some'.mp grouped
  cases same
  refine ⟨not_infix_of_lazyGroup (by decide) (fun rest pre => ?_) grouped, fun side member => ?_⟩
  · unfold conflictTail
    cases (separatorRest rest).bind (lazyGroup endLineRest) <;>
      simp [Option.orElse, endLineRest_ne_none pre]
  · obtain ⟨rest, _, tail⟩ := lazyGroup_eq_some _ grouped
    unfold conflictTail at tail
    cases separated : (separatorRest rest).bind (lazyGroup endLineRest) with
    | some found =>
        rw [separated] at tail
        cases tail
        cases member
        obtain ⟨stop, _, theirsGroup⟩ := Option.bind_eq_some.mp separated
        exact not_infix_of_lazyGroup (by decide) (fun _ pre => endLineRest_ne_none pre) theirsGroup
    | none =>
        rw [separated] at tail
        obtain ⟨_, _, same⟩ := Option.map_eq_some'.mp tail
        cases same
        cases member

/-- No member the tool collects from a calm document holds end-marker text. -/
theorem cargoMembers_endFree {chunks : List Chunk} (calm : ∀ chunk ∈ chunks, chunk.Calm)
    {m : Text} (member : m ∈ cargoMembers (docText chunks)) : ¬ bareEndMarker <:+: m := by
  rcases mem_cargoMembers.mp member with inRegions | inClean
  · obtain ⟨sides, found, inSides⟩ := mem_regionMembers.mp inRegions
    obtain ⟨_, _, _, matched⟩ := matchesIn_of_mem_findFrom matchConflict found
    have free := matchConflict_sides_endFree matched
    rcases inSides with inOurs | inTheirs
    · exact fun inf => free.1 (inf.trans (infix_of_mem_extractMembersFromBlock inOurs))
    · have inSide := infix_of_mem_extractMembersFromBlock inTheirs
      cases side : sides.2 with
      | none =>
          rw [side] at inSide
          exact fun inf => absurd (List.eq_nil_of_infix_nil (inf.trans inSide)) (by decide)
      | some theirs =>
          rw [side] at inSide
          exact fun inf => free.2 theirs side (inf.trans inSide)
  · exact fun inf => (cleanContent_endFree calm).absent
      (inf.trans (infix_of_mem_extractMembersFromBlock inClean))

/-- Over a calm document the members pass and the generic pass leave no end-marker text. -/
theorem keepOurs_dropMembersConflicts_endFree {chunks : List Chunk}
    (calm : ∀ chunk ∈ chunks, chunk.Calm) :
    ¬ bareEndMarker <:+: keepOurs (dropMembersConflicts (docText chunks)) := by
  obtain ⟨kept, keptCalm, dropped⟩ := dropMembersConflicts_calm calm
  rw [dropped]
  exact (keepOurs_endFree keptCalm).absent

end ConflictResolver
