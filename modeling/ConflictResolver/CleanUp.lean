import ConflictResolver.Python

/-!
The clean-up both resolvers end with (`re.sub(r'\n{3,}', '\n\n', text)` and a final newline),
read a second time: it gives back its own output, and a block of non-empty lines stays a block
of whole lines.
-/

namespace ConflictResolver

/-! ### Joining lines -/

theorem joinLines_cons_cons (line next : Text) (rest : List Text) :
    joinLines (line :: next :: rest) = line ++ '\n' :: joinLines (next :: rest) := by
  simp [joinLines, List.intercalate]

theorem joinLines_append {front back : List Text} (frontNonempty : front ≠ [])
    (backNonempty : back ≠ []) :
    joinLines (front ++ back) = joinLines front ++ '\n' :: joinLines back := by
  obtain ⟨next, rest, rfl⟩ := List.exists_cons_of_ne_nil backNonempty
  induction front with
  | nil => exact absurd rfl frontNonempty
  | cons line more ih =>
      cases more with
      | nil => simp [joinLines_cons_cons, joinLines, List.intercalate]
      | cons other more =>
          have inner := ih (List.cons_ne_nil _ _)
          rw [List.cons_append] at inner
          rw [List.cons_append, List.cons_append, joinLines_cons_cons line other (more ++ _), inner,
            joinLines_cons_cons line other more, List.append_assoc, List.cons_append]

/-! ### Runs of newlines -/

section Runs

theorem collapseRuns_replicate (pending count : Nat) :
    collapseRuns pending (List.replicate count '\n') = newlineRun (pending + count) := by
  induction count generalizing pending with
  | zero => rfl
  | succ count ih =>
      rw [List.replicate_succ, collapseRuns, if_pos rfl, ih, Nat.add_assoc, Nat.add_comm 1]

theorem collapseRuns_newlineRun (count : Nat) :
    collapseRuns 0 (newlineRun count) = newlineRun count := by
  unfold newlineRun
  split
  · rfl
  · rw [collapseRuns_replicate, Nat.zero_add, newlineRun, if_neg ‹_›]

theorem collapseRuns_append_cons (pending : Nat) (front : Text) {c : Char} (other : c ≠ '\n')
    (rest : Text) :
    collapseRuns pending (front ++ c :: rest) =
      collapseRuns pending front ++ c :: collapseRuns 0 rest := by
  induction front generalizing pending with
  | nil => simp [collapseRuns, other]
  | cons d front ih => by_cases newline : d = '\n' <;> simp [collapseRuns, newline, ih]

theorem collapseRuns_collapseRuns (pending : Nat) (text : Text) :
    collapseRuns 0 (collapseRuns pending text) = collapseRuns pending text := by
  induction text generalizing pending with
  | nil => exact collapseRuns_newlineRun pending
  | cons c rest ih =>
      by_cases newline : c = '\n'
      · simp only [collapseRuns, if_pos newline]
        exact ih _
      · simp only [collapseRuns, if_neg newline]
        rw [collapseRuns_append_cons 0 _ newline, collapseRuns_newlineRun, ih]

theorem collapseRuns_succ (count : Nat) (text : Text) :
    ∃ rest, collapseRuns (count + 1) text = '\n' :: rest := by
  induction text generalizing count with
  | nil =>
      obtain ⟨more, run⟩ := newlineRun_succ count
      exact ⟨_, run⟩
  | cons c rest ih =>
      by_cases newline : c = '\n'
      · simp only [collapseRuns, if_pos newline]
        exact ih _
      · obtain ⟨more, run⟩ := newlineRun_succ count
        simp only [collapseRuns, if_neg newline, run, List.cons_append]
        exact ⟨_, rfl⟩

theorem collapseRuns_concat_newline (pending : Nat) (text : Text) :
    ∃ front, collapseRuns pending (text ++ ['\n']) = front ++ ['\n'] := by
  induction text generalizing pending with
  | nil =>
      obtain ⟨more, run⟩ := newlineRun_succ pending
      refine ⟨List.replicate more '\n', ?_⟩
      simp only [List.nil_append, collapseRuns, if_pos, run, ← List.replicate_succ',
        ← List.replicate_succ]
  | cons c rest ih =>
      by_cases newline : c = '\n'
      · simp only [List.cons_append, collapseRuns, if_pos newline]
        exact ih _
      · obtain ⟨front, shrunk⟩ := ih 0
        refine ⟨newlineRun pending ++ c :: front, ?_⟩
        rw [List.cons_append, collapseRuns, if_neg newline, shrunk]
        simp

end Runs

/-! ### The clean-up of a whole text -/

section Clean

variable {front back text : Text}

@[simp] theorem collapseBlankLines_nil : collapseBlankLines [] = [] := rfl

theorem collapseBlankLines_cons {c : Char} (other : c ≠ '\n') (text : Text) :
    collapseBlankLines (c :: text) = c :: collapseBlankLines text := by
  simp [collapseBlankLines, collapseRuns, other, newlineRun]

theorem collapseBlankLines_idempotent (text : Text) :
    collapseBlankLines (collapseBlankLines text) = collapseBlankLines text :=
  collapseRuns_collapseRuns 0 text

theorem collapseBlankLines_append_of_head (head : ∀ c ∈ back.head?, c ≠ '\n') :
    collapseBlankLines (front ++ back) = collapseBlankLines front ++ collapseBlankLines back := by
  cases back with
  | nil => simp
  | cons c rest =>
      rw [collapseBlankLines, collapseRuns_append_cons 0 front (head c rfl),
        collapseBlankLines_cons (head c rfl)]
      rfl

theorem collapseBlankLines_append_of_last (last : ∀ c ∈ front.getLast?, c ≠ '\n') :
    collapseBlankLines (front ++ back) = collapseBlankLines front ++ collapseBlankLines back := by
  rcases List.eq_nil_or_concat front with rfl | ⟨init, d, rfl⟩
  · simp
  · rw [List.concat_eq_append] at last ⊢
    have other := last d (by simp)
    simp only [collapseBlankLines, List.append_assoc, List.singleton_append,
      collapseRuns_append_cons 0 init other]
    rfl

theorem collapseBlankLines_eq_self (filled : [] ∉ (splitLines text).tail) :
    collapseBlankLines text = text := by
  induction text with
  | nil => rfl
  | cons c rest ih =>
      by_cases newline : c = '\n'
      · subst newline
        rw [splitLines_newline_cons, List.tail_cons] at filled
        cases rest with
        | nil => exact absurd (List.mem_singleton_self _) filled
        | cons d more =>
            by_cases twice : d = '\n'
            · subst twice
              exact absurd (by rw [splitLines_newline_cons]; exact List.mem_cons_self _ _) filled
            · have clean := ih (fun blank => filled (List.mem_of_mem_tail blank))
              rw [collapseBlankLines_cons twice] at clean
              simp only [collapseBlankLines, collapseRuns, if_pos, if_neg twice] at clean ⊢
              rw [clean]
              rfl
      · rw [collapseBlankLines_cons newline, ih]
        obtain ⟨first, later, split⟩ := List.exists_cons_of_ne_nil (splitLines_ne_nil rest)
        rw [splitLines_cons_of_ne _ newline, split] at filled
        rw [split]
        exact filled

theorem EndsLine.collapseBlankLines (ends : EndsLine text) :
    EndsLine (collapseBlankLines text) := by
  rcases ends.cases with rfl | ⟨line, rfl⟩
  · exact Or.inl rfl
  · obtain ⟨front, shrunk⟩ := collapseRuns_concat_newline 0 line
    exact Or.inr (by rw [ConflictResolver.collapseBlankLines, shrunk]; simp)

theorem ensureTrailingNewline_cons (c : Char) (text : Text) :
    ∃ rest, ensureTrailingNewline (c :: text) = c :: rest := by
  unfold ensureTrailingNewline
  split
  · exact ⟨text, rfl⟩
  · exact ⟨text ++ ['\n'], rfl⟩

theorem ensureTrailingNewline_append_of_last (nonempty : front ≠ [])
    (last : ∀ c ∈ front.getLast?, c ≠ '\n') :
    ensureTrailingNewline (front ++ back) = front ++ ensureTrailingNewline back := by
  rcases List.eq_nil_or_concat back with rfl | ⟨init, d, rfl⟩
  · have ends := last _ (List.getLast?_eq_getLast front nonempty)
    simp [ensureTrailingNewline, List.getLast?_eq_getLast front nonempty, ends]
  · rw [List.concat_eq_append, ← List.append_assoc]
    by_cases newline : d = '\n' <;> simp [ensureTrailingNewline, newline]

theorem ensureTrailingNewline_idempotent (text : Text) :
    ensureTrailingNewline (ensureTrailingNewline text) = ensureTrailingNewline text := by
  unfold ensureTrailingNewline
  split
  · next ends => simp [ends]
  · simp

theorem cleanUp_cleanUp (text : Text) :
    ensureTrailingNewline (collapseBlankLines (ensureTrailingNewline (collapseBlankLines text))) =
      ensureTrailingNewline (collapseBlankLines text) := by
  have shrunk : collapseBlankLines (ensureTrailingNewline (collapseBlankLines text)) =
      ensureTrailingNewline (collapseBlankLines text) := by
    unfold ensureTrailingNewline
    split
    · exact collapseBlankLines_idempotent text
    · next notEnds =>
        rw [collapseBlankLines_append_of_last fun c found => fun same => notEnds (same ▸ found),
          collapseBlankLines_idempotent]
        rfl
  rw [shrunk, ensureTrailingNewline_idempotent]

theorem length_newlineRun_le (count : Nat) : (newlineRun count).length ≤ 2 := by
  unfold newlineRun
  split
  · decide
  · simp only [List.length_replicate]
    omega

theorem triple_not_infix_collapseRuns (pending : Nat) (text : Text) :
    ¬ ['\n', '\n', '\n'] <:+: collapseRuns pending text := by
  have short : ∀ count, ¬ ['\n', '\n', '\n'] <:+: newlineRun count := fun count inf =>
    absurd (inf.length_le.trans (length_newlineRun_le count)) (by decide)
  induction text generalizing pending with
  | nil => exact short pending
  | cons c rest ih =>
      by_cases newline : c = '\n'
      · rw [collapseRuns, if_pos newline]
        exact ih _
      · rw [collapseRuns, if_neg newline]
        intro inf
        rcases infix_append_cons (fun member => newline (by simpa using member)) inf with
          run | later
        · exact short pending run
        · exact ih 0 later

theorem ensureTrailingNewline_getLast (text : Text) :
    (ensureTrailingNewline text).getLast? = some '\n' := by
  unfold ensureTrailingNewline
  split
  · assumption
  · simp

theorem triple_not_infix_ensureTrailingNewline (clean : ¬ ['\n', '\n', '\n'] <:+: text) :
    ¬ ['\n', '\n', '\n'] <:+: ensureTrailingNewline text := by
  unfold ensureTrailingNewline
  split
  · exact clean
  · next notEnds =>
      intro inf
      rcases List.eq_nil_or_concat text with rfl | ⟨init, d, rfl⟩
      · exact absurd inf.length_le (by decide)
      · rw [List.concat_eq_append] at inf clean
        rw [List.append_assoc, List.singleton_append] at inf
        have other : d ≠ '\n' := fun same => notEnds (by simp [same])
        rcases infix_append_cons (fun member => other (by simpa using member)) inf with
          front | back
        · exact clean (front.trans (List.prefix_append init [d]).isInfix)
        · exact absurd back.length_le (by decide)

theorem cleanUp_shape (text : Text) :
    (ensureTrailingNewline (collapseBlankLines text)).getLast? = some '\n' ∧
      ¬ ['\n', '\n', '\n'] <:+: ensureTrailingNewline (collapseBlankLines text) :=
  ⟨ensureTrailingNewline_getLast _,
    triple_not_infix_ensureTrailingNewline (triple_not_infix_collapseRuns 0 text)⟩

end Clean

/-! ### A block of filled lines -/

section Block

variable {text : Text}

theorem mem_splitLines_filled {line : Text} (member : line ∈ splitLines text) :
    line = [] ∨ line ∈ filledLines text := by
  cases line with
  | nil => exact Or.inl rfl
  | cons => exact Or.inr (List.mem_filter.mpr ⟨member, rfl⟩)

theorem filledLines_concat_newline (text : Text) :
    filledLines (text ++ ['\n']) = filledLines text := by
  simp [filledLines, splitLines_append_newline]

theorem filter_dropLast_splitLines (ends : EndsLine text) :
    (splitLines text).dropLast.filter (fun line => !line.isEmpty) = filledLines text := by
  rcases ends.cases with rfl | ⟨line, rfl⟩
  · rfl
  · rw [filledLines_concat_newline, splitLines_append_newline, splitLines_nil,
      List.dropLast_concat]
    rfl

theorem splitLines_append_of_endsLine (ends : EndsLine text) (back : Text) :
    splitLines (text ++ back) = (splitLines text).dropLast ++ splitLines back := by
  rcases ends.cases with rfl | ⟨line, rfl⟩
  · rfl
  · rw [List.append_assoc, List.singleton_append, splitLines_append_newline,
      splitLines_append_newline, splitLines_nil, List.dropLast_concat]

theorem ne_nil_of_filled (filled : [] ∉ splitLines text) : text ≠ [] := by
  rintro rfl
  exact filled (List.mem_singleton_self _)

theorem head_ne_newline_of_filled (filled : [] ∉ splitLines text) :
    ∀ c ∈ text.head?, c ≠ '\n' := by
  cases text with
  | nil => exact fun c found => absurd found (by simp)
  | cons c rest =>
      rintro _ ⟨⟩ rfl
      exact filled (by rw [splitLines_newline_cons]; exact List.mem_cons_self _ _)

theorem last_ne_newline_of_filled (filled : [] ∉ splitLines text) :
    ∀ c ∈ text.getLast?, c ≠ '\n' := by
  rcases List.eq_nil_or_concat text with rfl | ⟨init, d, rfl⟩
  · exact fun c found => absurd found (by simp)
  · intro c found newline
    rw [List.concat_eq_append] at filled found
    simp only [List.getLast?_concat, Option.mem_def, Option.some.injEq] at found
    subst found newline
    exact filled (by rw [splitLines_append_newline]; simp)

theorem cleanUp_newline_cons (rest : Text) :
    ∃ after, ensureTrailingNewline (collapseBlankLines ('\n' :: rest)) = '\n' :: after := by
  obtain ⟨shrunk, run⟩ := collapseRuns_succ 0 rest
  obtain ⟨after, ends⟩ := ensureTrailingNewline_cons '\n' shrunk
  refine ⟨after, ?_⟩
  rw [← ends, ← run]
  rfl

variable {front block back : List Text} (plain : ∀ line ∈ front ++ block ++ back, '\n' ∉ line)
include plain

theorem joinLines_front (nonempty : block ++ back ≠ []) :
    ∃ pre, joinLines (front ++ block ++ back) = pre ++ joinLines (block ++ back) ∧
      EndsLine pre ∧ filledLines pre = front.filter (fun line => !line.isEmpty) := by
  by_cases empty : front = []
  · subst empty
    exact ⟨[], rfl, Or.inl rfl, rfl⟩
  · refine ⟨joinLines front ++ ['\n'], ?_, Or.inr (by simp), ?_⟩
    · rw [List.append_assoc, joinLines_append empty nonempty, List.append_assoc]
      rfl
    · rw [filledLines_concat_newline, filledLines_joinLines
        fun line member => plain line (by simp [member])]

theorem joinLines_back (nonempty : block ≠ []) :
    ∃ post, joinLines (block ++ back) = joinLines block ++ post ∧
      (post = [] ∨ ∃ rest, post = '\n' :: rest) ∧
      filledLines post = back.filter (fun line => !line.isEmpty) := by
  by_cases empty : back = []
  · subst empty
    exact ⟨[], by simp, Or.inl rfl, rfl⟩
  · refine ⟨'\n' :: joinLines back, joinLines_append nonempty empty, Or.inr ⟨_, rfl⟩, ?_⟩
    rw [filledLines_newline_cons, filledLines_joinLines
      fun line member => plain line (by simp [member])]

theorem splitLines_cleanUp_filled_block (filled : ∀ line ∈ block, line ≠ [])
    (nonempty : block ≠ []) :
    ∃ above below, splitLines (ensureTrailingNewline (collapseBlankLines
        (joinLines (front ++ block ++ back)))) = above ++ block ++ below ∧
      above.filter (fun line => !line.isEmpty) = front.filter (fun line => !line.isEmpty) ∧
      below.filter (fun line => !line.isEmpty) = back.filter (fun line => !line.isEmpty) := by
  have blockLines : splitLines (joinLines block) = block :=
    splitLines_joinLines (fun line member => plain line (by simp [member])) nonempty
  have blank : [] ∉ splitLines (joinLines block) := fun member =>
    filled [] (blockLines ▸ member) rfl
  obtain ⟨pre, framed, ends, preLines⟩ := joinLines_front plain (by simp [nonempty])
  obtain ⟨post, blockFramed, starts, postLines⟩ := joinLines_back plain nonempty
  obtain ⟨after, afterStarts⟩ : ∃ after,
      ensureTrailingNewline (collapseBlankLines post) = '\n' :: after := by
    rcases starts with rfl | ⟨rest, rfl⟩
    · exact ⟨[], rfl⟩
    · exact cleanUp_newline_cons rest
  have written : ensureTrailingNewline (collapseBlankLines (joinLines (front ++ block ++ back))) =
      collapseBlankLines pre ++ (joinLines block ++ '\n' :: after) := by
    have blockNonempty := ne_nil_of_filled blank
    have blockLast := last_ne_newline_of_filled blank
    rw [framed, blockFramed, collapseBlankLines_append_of_head (by
        rw [List.head?_append_of_ne_nil _ blockNonempty]
        exact head_ne_newline_of_filled blank),
      collapseBlankLines_append_of_last blockLast,
      collapseBlankLines_eq_self (fun member => blank (List.mem_of_mem_tail member)),
      ← List.append_assoc, ensureTrailingNewline_append_of_last (by simp [blockNonempty])
        (by rw [List.getLast?_append_of_ne_nil _ blockNonempty]; exact blockLast),
      afterStarts, List.append_assoc]
  refine ⟨(splitLines (collapseBlankLines pre)).dropLast, splitLines after, ?_, ?_, ?_⟩
  · rw [written, splitLines_append_of_endsLine ends.collapseBlankLines, splitLines_append_newline,
      blockLines, List.append_assoc]
  · rw [filter_dropLast_splitLines ends.collapseBlankLines, filledLines_collapseBlankLines,
      preLines]
  · rw [← filledLines, ← filledLines_newline_cons, ← afterStarts, filledLines_ensureTrailingNewline,
      filledLines_collapseBlankLines, postLines]

theorem splitLines_cleanUp_block (filled : ∀ line ∈ block, line ≠ []) :
    ∃ above below, splitLines (ensureTrailingNewline (collapseBlankLines
        (joinLines (front ++ block ++ back)))) = above ++ block ++ below ∧
      ∀ line ∈ above ++ below, line = [] ∨ line ∈ front ++ back := by
  by_cases empty : block = []
  · subst empty
    refine ⟨splitLines (ensureTrailingNewline (collapseBlankLines (joinLines (front ++ [] ++ back)))),
      [], by simp only [List.append_nil], fun line member => ?_⟩
    rw [List.append_nil] at member
    refine (mem_splitLines_filled member).imp_right fun filledLine => ?_
    rw [filledLines_ensureTrailingNewline, filledLines_collapseBlankLines, filledLines_joinLines
      fun line member => plain line member] at filledLine
    simpa using (List.mem_filter.mp filledLine).1
  obtain ⟨above, below, lines, aboveLines, belowLines⟩ :=
    splitLines_cleanUp_filled_block plain filled empty
  refine ⟨above, below, lines, fun line member => ?_⟩
  cases line with
  | nil => exact Or.inl rfl
  | cons c rest =>
      refine Or.inr ?_
      rcases List.mem_append.mp member with inAbove | inBelow
      · have kept : c :: rest ∈ above.filter (fun line => !line.isEmpty) :=
          List.mem_filter.mpr ⟨inAbove, rfl⟩
        rw [aboveLines] at kept
        exact List.mem_append_left _ (List.mem_filter.mp kept).1
      · have kept : c :: rest ∈ below.filter (fun line => !line.isEmpty) :=
          List.mem_filter.mpr ⟨inBelow, rfl⟩
        rw [belowLines] at kept
        exact List.mem_append_right _ (List.mem_filter.mp kept).1

end Block

end ConflictResolver
