import ConflictResolver.LibRs.Scanner

/-!
A lib.rs document as outside lines and conflict regions. A line beginning with `<<<<<<< `
opens a region, the first line beginning with `=======` in it starts the theirs lines, and the
first line beginning with `>>>>>>> ` closes it; the ours and theirs versions replace each region
by one of its sides.
-/

namespace ConflictResolver

/-- A piece of a document: a line outside every region, or a whole region with its start line,
ours lines, separator and theirs lines when there is a separator, and end line. -/
inductive Segment where
  | outside (line : Text)
  | region (startLine : Text) (ours : List Text) (theirs : Option (Text × List Text))
      (endLine : Text)
  deriving DecidableEq

/-- The lines between a region's start and end lines. -/
def regionBody (ours : List Text) : Option (Text × List Text) → List Text
  | none => ours
  | some (separator, theirs) => ours ++ separator :: theirs

def Segment.lines : Segment → List Text
  | .outside line => [line]
  | .region startLine ours theirs endLine => startLine :: regionBody ours theirs ++ [endLine]

def Segment.oursLines : Segment → List Text
  | .outside line => [line]
  | .region _ ours _ _ => ours

def Segment.theirsLines : Segment → List Text
  | .outside line => [line]
  | .region _ _ theirs _ => (theirs.map Prod.snd).getD []

def Segment.outsideLines : Segment → List Text
  | .outside line => [line]
  | .region .. => []

/-- The three states of the scan, with the lines of the open region read so far. -/
inductive Phase where
  | outside
  | inOurs (startLine : Text) (ours : List Text)
  | inTheirs (startLine : Text) (ours : List Text) (separator : Text) (theirs : List Text)

/-- The scan: the segments of the lines, or `none` when a region opens inside another or is
still open at the end. -/
def scanRegions : Phase → List Text → Option (List Segment)
  | .outside, [] => some []
  | .inOurs .., [] => none
  | .inTheirs .., [] => none
  | .outside, line :: rest =>
      if startMarker.isPrefixOf line then scanRegions (.inOurs line []) rest
      else (scanRegions .outside rest).map (.outside line :: ·)
  | .inOurs startLine ours, line :: rest =>
      if startMarker.isPrefixOf line then none
      else if separatorMarker.isPrefixOf line then
        scanRegions (.inTheirs startLine ours line []) rest
      else if endMarker.isPrefixOf line then
        (scanRegions .outside rest).map (.region startLine ours none line :: ·)
      else scanRegions (.inOurs startLine (ours ++ [line])) rest
  | .inTheirs startLine ours separator theirs, line :: rest =>
      if startMarker.isPrefixOf line then none
      else if endMarker.isPrefixOf line then
        (scanRegions .outside rest).map (.region startLine ours (some (separator, theirs)) line :: ·)
      else scanRegions (.inTheirs startLine ours separator (theirs ++ [line])) rest

/-- Every line beginning with `<<<<<<< ` is followed, before the next such line, by a line
beginning with `>>>>>>> `. -/
def regionsWellFormed (lines : List Text) : Bool := (scanRegions .outside lines).isSome

/-- The segments of a well-formed document. -/
def segmentsOf (lines : List Text) : List Segment := (scanRegions .outside lines).getD []

/-- Every region replaced by its lines before its first separator. -/
def oursVersion (lines : List Text) : List Text := (segmentsOf lines).flatMap Segment.oursLines

/-- Every region replaced by its lines after its first separator. -/
def theirsVersion (lines : List Text) : List Text := (segmentsOf lines).flatMap Segment.theirsLines

/-- The lines outside every region. -/
def outsideLines (lines : List Text) : List Text := (segmentsOf lines).flatMap Segment.outsideLines

/-! ### What the scan produces -/

/-- The shape each segment the scan produces has. -/
def Segment.Valid : Segment → Prop
  | .outside line => startMarker.isPrefixOf line = false
  | .region startLine ours theirs endLine =>
      startMarker.isPrefixOf startLine = true ∧ endMarker.isPrefixOf endLine = true ∧
        (∀ line ∈ ours, IsPlainLine line) ∧
        ∀ part ∈ theirs, separatorMarker.isPrefixOf part.1 = true ∧
          ∀ line ∈ part.2, startMarker.isPrefixOf line = false ∧
            endMarker.isPrefixOf line = false

/-- The lines of the open region. -/
def Phase.pending : Phase → List Text
  | .outside => []
  | .inOurs startLine ours => startLine :: ours
  | .inTheirs startLine ours separator theirs => startLine :: ours ++ separator :: theirs

def Phase.Valid : Phase → Prop
  | .outside => True
  | .inOurs startLine ours =>
      startMarker.isPrefixOf startLine = true ∧ ∀ line ∈ ours, IsPlainLine line
  | .inTheirs startLine ours separator theirs =>
      startMarker.isPrefixOf startLine = true ∧ (∀ line ∈ ours, IsPlainLine line) ∧
        separatorMarker.isPrefixOf separator = true ∧
        ∀ line ∈ theirs, startMarker.isPrefixOf line = false ∧ endMarker.isPrefixOf line = false

theorem scanRegions_segment {line : Text} {pending rest : List Text} {segment : Segment}
    {segments : List Segment} (scan : (scanRegions .outside rest).map (segment :: ·) = some segments)
    (lines : pending ++ [line] = segment.lines) (valid : segment.Valid)
    (ih : ∀ {segments}, Phase.outside.Valid → scanRegions .outside rest = some segments →
      Phase.outside.pending ++ rest = segments.flatMap Segment.lines ∧
        ∀ segment ∈ segments, segment.Valid) :
    pending ++ line :: rest = segments.flatMap Segment.lines ∧
      ∀ segment ∈ segments, segment.Valid := by
  obtain ⟨later, scanRest, rfl⟩ := Option.map_eq_some'.mp scan
  obtain ⟨whole, laterValid⟩ := ih trivial scanRest
  refine ⟨by simpa [← lines, Phase.pending] using whole, ?_⟩
  rintro other (_ | ⟨_, member⟩)
  · exact valid
  · exact laterValid other member

theorem scanRegions_sound {phase : Phase} {lines : List Text} {segments : List Segment}
    (valid : phase.Valid) (scan : scanRegions phase lines = some segments) :
    phase.pending ++ lines = segments.flatMap Segment.lines ∧
      ∀ segment ∈ segments, segment.Valid := by
  induction phase, lines using scanRegions.induct generalizing segments with
  | case1 =>
      cases Option.some.inj scan
      simp [Phase.pending]
  | case2 | case3 | case6 | case10 => simp_all [scanRegions]
  | case4 line rest start ih =>
      rw [scanRegions, if_pos start] at scan
      simpa [Phase.pending] using ih ⟨start, by simp⟩ scan
  | case5 line rest notStart ih =>
      rw [scanRegions, if_neg notStart] at scan
      exact scanRegions_segment scan rfl (Bool.eq_false_iff.mpr notStart) ih
  | case7 startLine ours line rest notStart separator ih =>
      rw [scanRegions, if_neg notStart, if_pos separator] at scan
      simpa [Phase.pending] using ih ⟨valid.1, valid.2, separator, by simp⟩ scan
  | case8 startLine ours line rest notStart notSeparator finish ih =>
      rw [scanRegions, if_neg notStart, if_neg notSeparator, if_pos finish] at scan
      exact scanRegions_segment scan (by simp [Phase.pending, Segment.lines, regionBody])
        ⟨valid.1, finish, valid.2, by simp⟩ ih
  | case9 startLine ours line rest notStart notSeparator notFinish ih =>
      rw [scanRegions, if_neg notStart, if_neg notSeparator, if_neg notFinish] at scan
      have plain : IsPlainLine line := ⟨Bool.eq_false_iff.mpr notStart,
        Bool.eq_false_iff.mpr notSeparator, Bool.eq_false_iff.mpr notFinish⟩
      simpa [Phase.pending] using
        ih ⟨valid.1, List.forall_mem_append.mpr ⟨valid.2, List.forall_mem_singleton.mpr plain⟩⟩ scan
  | case11 startLine ours separator theirs line rest notStart finish ih =>
      rw [scanRegions, if_neg notStart, if_pos finish] at scan
      obtain ⟨start, oursPlain, separated, theirsLines⟩ := valid
      exact scanRegions_segment scan (by simp [Phase.pending, Segment.lines, regionBody])
        ⟨start, finish, oursPlain, by rintro _ ⟨⟩; exact ⟨separated, theirsLines⟩⟩ ih
  | case12 startLine ours separator theirs line rest notStart notFinish ih =>
      rw [scanRegions, if_neg notStart, if_neg notFinish] at scan
      obtain ⟨start, oursPlain, separated, theirsLines⟩ := valid
      simpa [Phase.pending] using ih ⟨start, oursPlain, separated, List.forall_mem_append.mpr
        ⟨theirsLines, List.forall_mem_singleton.mpr
          ⟨Bool.eq_false_iff.mpr notStart, Bool.eq_false_iff.mpr notFinish⟩⟩⟩ scan

theorem segmentsOf_sound {lines : List Text} (wellFormed : regionsWellFormed lines = true) :
    lines = (segmentsOf lines).flatMap Segment.lines ∧
      ∀ segment ∈ segmentsOf lines, segment.Valid := by
  obtain ⟨segments, scan⟩ := Option.isSome_iff_exists.mp wellFormed
  simpa [segmentsOf, scan, Phase.pending] using @scanRegions_sound .outside _ _ trivial scan

theorem flatMap_sublist_flatMap {α β : Type} {items : List α} {f g : α → List β}
    (each : ∀ item ∈ items, List.Sublist (f item) (g item)) :
    List.Sublist (items.flatMap f) (items.flatMap g) := by
  induction items with
  | nil => exact List.Sublist.slnil
  | cons item rest ih =>
      simp only [List.flatMap_cons]
      exact (each item (List.mem_cons_self _ _)).append
        (ih fun other member => each other (List.mem_cons_of_mem _ member))

theorem outsideLines_sublist {lines : List Text} (wellFormed : regionsWellFormed lines = true) :
    List.Sublist (outsideLines lines) lines := by
  conv => rhs; rw [(segmentsOf_sound wellFormed).1]
  refine flatMap_sublist_flatMap fun segment _ => ?_
  cases segment with
  | outside line => exact List.Sublist.refl _
  | region => exact List.nil_sublist _

theorem Segment.oursLines_sublist (segment : Segment) :
    List.Sublist segment.oursLines segment.lines := by
  cases segment with
  | outside => exact List.Sublist.refl _
  | region startLine ours theirs endLine =>
      have body : List.Sublist ours (regionBody ours theirs) := by
        cases theirs <;> simp [regionBody]
      exact (body.cons startLine).trans (List.sublist_append_left _ [endLine])

theorem Segment.theirsLines_sublist (segment : Segment) :
    List.Sublist segment.theirsLines segment.lines := by
  cases segment with
  | outside => exact List.Sublist.refl _
  | region startLine ours theirs endLine =>
      cases theirs with
      | none => exact List.nil_sublist _
      | some part =>
          have body : List.Sublist part.2 (regionBody ours (some part)) :=
            (List.sublist_cons_self part.1 part.2).trans (List.sublist_append_right ours _)
          exact (body.cons startLine).trans (List.sublist_append_left _ [endLine])

theorem mem_of_mem_oursVersion {lines : List Text} (wellFormed : regionsWellFormed lines = true)
    {line : Text} (member : line ∈ oursVersion lines) : line ∈ lines := by
  rw [(segmentsOf_sound wellFormed).1]
  exact (flatMap_sublist_flatMap fun segment _ => segment.oursLines_sublist).subset member

theorem mem_of_mem_theirsVersion {lines : List Text} (wellFormed : regionsWellFormed lines = true)
    {line : Text} (member : line ∈ theirsVersion lines) : line ∈ lines := by
  rw [(segmentsOf_sound wellFormed).1]
  exact (flatMap_sublist_flatMap fun segment _ => segment.theirsLines_sublist).subset member

/-! ### Marker lines alone -/

/-- Where a scan of the marker lines alone is: outside every region, before a region's
separator, or after it. -/
inductive MarkerPhase where
  | outside
  | ours
  | theirs

/-- Whether the lines beginning with `<<<<<<<`, `=======` or `>>>>>>>` form regions that do not
nest, each a start line, at most one separator line and an end line. Other lines are skipped. -/
def markersNest : MarkerPhase → List Text → Bool
  | .outside, [] => true
  | _, [] => false
  | phase, line :: rest =>
      if bareStartMarker.isPrefixOf line then
        match phase with
        | .outside => markersNest .ours rest
        | _ => false
      else if separatorMarker.isPrefixOf line then
        match phase with
        | .ours => markersNest .theirs rest
        | _ => false
      else if bareEndMarker.isPrefixOf line then
        match phase with
        | .outside => false
        | _ => markersNest .outside rest
      else markersNest phase rest

theorem markersNest_unstarted {lines : List Text} (nest : markersNest .outside lines = true)
    (unstarted : ∀ line ∈ lines, bareStartMarker.isPrefixOf line = false) :
    ∀ line ∈ lines, separatorMarker.isPrefixOf line = false ∧
      bareEndMarker.isPrefixOf line = false := by
  induction lines with
  | nil => exact fun _ member => absurd member (List.not_mem_nil _)
  | cons first rest ih =>
      have notStart := unstarted first (List.mem_cons_self _ _)
      simp only [markersNest, notStart, Bool.false_eq_true, if_false] at nest
      split_ifs at nest with separator finish
      rintro line (_ | ⟨_, member⟩)
      · exact ⟨Bool.eq_false_iff.mpr separator, Bool.eq_false_iff.mpr finish⟩
      · exact ih nest (fun other member => unstarted other (List.mem_cons_of_mem _ member))
          line member

end ConflictResolver
