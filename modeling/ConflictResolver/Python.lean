import Mathlib.Data.Char
import Mathlib.Data.List.Basic
import Mathlib.Data.List.DropRight
import Mathlib.Data.List.Infix
import Mathlib.Data.List.Lex
import Mathlib.Data.List.Sort

/-!
Python's string, list and set operations as the two worktree conflict resolvers use them.
A `str` is a list of code points; the order CPython enumerates a `set` in depends on string
hashes and is left open (`SetIter`).
-/

namespace ConflictResolver

/-- A Python `str`. -/
abbrev Text := List Char

/-! ### Characters and lines -/

/-- `str.isspace()` on one code point. The regular-expression class `\s` and `str.strip()`
use the same table. -/
def isSpace (c : Char) : Bool :=
  let n := c.toNat
  (9 ≤ n && n ≤ 13) || (28 ≤ n && n ≤ 32) || n == 0x85 || n == 0xA0 || n == 0x1680 ||
    (0x2000 ≤ n && n ≤ 0x200A) || n == 0x2028 || n == 0x2029 || n == 0x202F ||
    n == 0x205F || n == 0x3000

/-- `text.strip()`. -/
def strip (text : Text) : Text := (text.dropWhile isSpace).rdropWhile isSpace

/-- `text.split('\n')`. -/
def splitLines (text : Text) : List Text := text.splitOn '\n'

/-- `'\n'.join(lines)`. -/
def joinLines (lines : List Text) : Text := ['\n'].intercalate lines

/-- `needle in haystack`. -/
def containsText (needle haystack : Text) : Bool := decide (needle <:+: haystack)

/-- `Path.read_text()`: text mode reads with universal newlines, so `\r\n` and a lone `\r`
both arrive as `\n`. -/
def readText : Text → Text
  | [] => []
  | '\r' :: '\n' :: rest => '\n' :: readText rest
  | '\r' :: rest => '\n' :: readText rest
  | c :: rest => c :: readText rest

/-- The lines of a file as a program reading it in text mode sees them. -/
def textLines (file : Text) : List Text := splitLines (readText file)

/-- A file as `pathlib.Path` sees it: what `read_text()` returns, or the text of the exception it
raises (a file that does not decode or cannot be read), and the text of the exception
`write_text()` raises when it cannot write the file. -/
structure PyFile where
  read : Except Text Text
  writeError : Option Text

/-- The file after a `write_text(text)` that raised nothing. -/
def PyFile.write (file : PyFile) (text : Text) : PyFile := { file with read := .ok text }

/-- What `main()` leaves behind: the exit status, the target file afterwards, and the lines
printed to standard output and standard error. -/
structure MainOutcome where
  status : Nat
  file : Option PyFile
  stdout : List Text
  stderr : List Text

/-- `print(f"Error: {e}", file=sys.stderr)`. -/
def errorLine (message : Text) : Text := "Error: ".toList ++ message

/-- `sys.exit(0 if success else 1)`. -/
def exitStatus (success : Bool) : Nat := if success then 0 else 1

/-- What `re.sub(r'\n{3,}', '\n\n', ...)` leaves of a maximal run of `count` newlines. -/
def newlineRun (count : Nat) : Text :=
  if 3 ≤ count then ['\n', '\n'] else List.replicate count '\n'

/-- `re.sub(r'\n{3,}', '\n\n', text)` after `pending` newlines of the current run: the greedy
`\n{3,}` takes a whole maximal run of three or more newlines at once. -/
def collapseRuns (pending : Nat) : Text → Text
  | [] => newlineRun pending
  | c :: rest =>
      if c = '\n' then collapseRuns (pending + 1) rest
      else newlineRun pending ++ c :: collapseRuns 0 rest

/-- `re.sub(r'\n{3,}', '\n\n', text)`. -/
def collapseBlankLines (text : Text) : Text := collapseRuns 0 text

/-- `if not text.endswith('\n'): text += '\n'`. -/
def ensureTrailingNewline (text : Text) : Text :=
  if text.getLast? = some '\n' then text else text ++ ['\n']

/-! ### Git's conflict markers -/

/-- Git's start marker with the space after it: the text both resolvers test for, with `in`
and with `line.startswith`. -/
def startMarker : Text := "<<<<<<< ".toList

/-- The separator line, the prefix `line.startswith("=======")` tests. -/
def separatorMarker : Text := "=======".toList

/-- The prefix `line.startswith(">>>>>>> ")` tests. -/
def endMarker : Text := ">>>>>>> ".toList

/-- The start and end marker prefixes without the space after them. -/
def bareStartMarker : Text := "<<<<<<<".toList

def bareEndMarker : Text := ">>>>>>>".toList

/-! ### Lists and sets -/

/-- `items.insert(index, item)` for a non-negative index; past the end it appends. -/
def listInsert {α : Type} (items : List α) (index : Nat) (item : α) : List α :=
  items.take index ++ item :: items.drop index

/-- `sorted(items, key=key)`: CPython's sort is stable, and strings compare by code point. A
stable sort's result is fixed by the keys and the input order, so insertion sort, which is
stable, gives the same list. -/
def sortedBy (key : Text → Text) (items : List Text) : List Text :=
  items.insertionSort (fun a b => key a ≤ key b)

/-- A Python `set` of strings, each element held once. The list order is storage only. -/
structure PySet where
  elems : List Text
  nodup : elems.Nodup

instance : Membership Text PySet := ⟨fun set item => item ∈ set.elems⟩

instance (set : PySet) (item : Text) : Decidable (item ∈ set) :=
  inferInstanceAs (Decidable (item ∈ set.elems))

instance (set : PySet) (p : Text → Prop) [DecidablePred p] : Decidable (∀ x ∈ set, p x) :=
  inferInstanceAs (Decidable (∀ x ∈ set.elems, p x))

def PySet.empty : PySet := ⟨[], List.nodup_nil⟩

/-- `set.add(item)`. -/
def PySet.add (set : PySet) (item : Text) : PySet :=
  if present : item ∈ set.elems then set
  else ⟨item :: set.elems, List.nodup_cons.mpr ⟨present, set.nodup⟩⟩

/-- `set.update(items)`. -/
def PySet.update (set : PySet) (items : List Text) : PySet := items.foldl PySet.add set

/-- The order CPython enumerates a set of strings in. It depends on the string hashes of the
process, not on the program, so the model leaves it open: any ordering of the elements. -/
structure SetIter where
  order : List Text → List Text
  perm : ∀ elems, List.Perm (order elems) elems

/-- Iterating a set, as `sorted(set, ...)` does. -/
def PySet.toList (iter : SetIter) (set : PySet) : List Text := iter.order set.elems

/-- Enumerating a set in its storage order, one of the orders `SetIter` allows. -/
def SetIter.stored : SetIter := ⟨id, fun _ => List.Perm.refl _⟩

/-- An enumeration that depends only on which elements a set holds, not on the order they were
stored in. -/
def SetIter.Canonical (iter : SetIter) : Prop :=
  ∀ elems others, List.Perm elems others → iter.order elems = iter.order others

/-! ### Sets -/

theorem PySet.mem_def {set : PySet} {item : Text} : item ∈ set ↔ item ∈ set.elems := Iff.rfl

theorem PySet.not_mem_empty (item : Text) : item ∉ PySet.empty := List.not_mem_nil item

theorem PySet.mem_add {set : PySet} {item x : Text} :
    x ∈ set.add item ↔ x = item ∨ x ∈ set := by
  unfold PySet.add
  split
  · next present =>
      exact ⟨Or.inr, fun held => held.elim (fun same => same ▸ present) id⟩
  · exact List.mem_cons

theorem PySet.mem_update {set : PySet} {items : List Text} {x : Text} :
    x ∈ set.update items ↔ x ∈ set ∨ x ∈ items := by
  induction items generalizing set with
  | nil => simp [PySet.update]
  | cons item rest ih =>
      simp only [PySet.update, List.foldl_cons] at ih ⊢
      rw [ih, PySet.mem_add, List.mem_cons]
      tauto

theorem PySet.mem_toList {iter : SetIter} {set : PySet} {x : Text} :
    x ∈ set.toList iter ↔ x ∈ set := (iter.perm _).mem_iff

theorem PySet.nodup_toList (iter : SetIter) (set : PySet) : (set.toList iter).Nodup :=
  (iter.perm _).nodup_iff.mpr set.nodup

/-! ### Sorting -/

instance (key : Text → Text) : IsTotal Text (fun a b => key a ≤ key b) :=
  ⟨fun a b => le_total (key a) (key b)⟩

instance (key : Text → Text) : IsTrans Text (fun a b => key a ≤ key b) :=
  ⟨fun _ _ _ => le_trans⟩

theorem sortedBy_perm (key : Text → Text) (items : List Text) :
    List.Perm (sortedBy key items) items :=
  List.perm_insertionSort _ _

theorem mem_sortedBy {key : Text → Text} {items : List Text} {x : Text} :
    x ∈ sortedBy key items ↔ x ∈ items :=
  List.mem_insertionSort _

theorem sortedBy_sorted (key : Text → Text) (items : List Text) :
    (sortedBy key items).Pairwise (fun a b => key a ≤ key b) :=
  List.sorted_insertionSort _ _

theorem sortedBy_id_eq_of_perm {items others : List Text} (perm : items.Perm others) :
    sortedBy id items = sortedBy id others :=
  @List.eq_of_perm_of_sorted _ (· ≤ ·) _ _ _
    (((sortedBy_perm id items).trans perm).trans (sortedBy_perm id others).symm)
    (sortedBy_sorted id items) (sortedBy_sorted id others)

theorem sortedBy_eq_of_perm {key : Text → Text} {items others : List Text}
    (perm : items.Perm others) (nodup : items.Nodup)
    (distinct : ∀ x ∈ items, ∀ y ∈ items, key x = key y → x = y) :
    sortedBy key items = sortedBy key others := by
  have strict : ∀ {list : List Text}, list.Perm items →
      (sortedBy key list).Pairwise (fun a b => key a < key b) := fun {list} listPerm => by
    have sortedPerm := (sortedBy_perm key list).trans listPerm
    refine ((sortedBy_sorted key list).and (sortedPerm.nodup_iff.mpr nodup)).imp_of_mem
      fun inA inB ⟨le, ne⟩ => lt_of_le_of_ne le fun same => ne ?_
    exact distinct _ (sortedPerm.subset inA) _ (sortedPerm.subset inB) same
  exact @List.eq_of_perm_of_sorted _ (fun a b => key a < key b)
    ⟨fun _ _ ab ba => absurd (ab.trans ba) (lt_irrefl _)⟩ _ _
    (((sortedBy_perm key items).trans perm).trans (sortedBy_perm key others).symm)
    (strict (List.Perm.refl _)) (strict perm.symm)

theorem sortedBy_strict {items : List Text} (nodup : items.Nodup) :
    (sortedBy id items).Pairwise (· < ·) :=
  ((sortedBy_sorted id items).and ((sortedBy_perm id items).nodup_iff.mpr nodup)).imp
    fun ⟨le, ne⟩ => lt_of_le_of_ne le ne

/-- Enumerating a set in ascending order. -/
def SetIter.sorted : SetIter := ⟨sortedBy id, sortedBy_perm id⟩

theorem SetIter.sorted_canonical : SetIter.sorted.Canonical :=
  fun _ _ perm => sortedBy_id_eq_of_perm perm

/-! ### Lines -/

theorem splitLines_ne_nil (text : Text) : splitLines text ≠ [] := List.splitOnP_ne_nil _ _

@[simp] theorem splitLines_nil : splitLines [] = [[]] := rfl

theorem splitLines_newline_cons (text : Text) :
    splitLines ('\n' :: text) = [] :: splitLines text := by
  simp [splitLines, List.splitOn, List.splitOnP_cons]

theorem splitLines_cons_of_ne {c : Char} (text : Text) (other : c ≠ '\n') :
    splitLines (c :: text) = (splitLines text).modifyHead (c :: ·) := by
  simp [splitLines, List.splitOn, List.splitOnP_cons, other]

theorem splitLines_append_newline (front back : Text) :
    splitLines (front ++ '\n' :: back) = splitLines front ++ splitLines back := by
  induction front with
  | nil => rw [List.nil_append, splitLines_newline_cons]; rfl
  | cons c front ih =>
      by_cases newline : c = '\n'
      · subst newline
        rw [List.cons_append, splitLines_newline_cons, splitLines_newline_cons, ih]; rfl
      · rw [List.cons_append, splitLines_cons_of_ne _ newline, splitLines_cons_of_ne _ newline,
          ih]
        obtain ⟨first, later, split⟩ := List.exists_cons_of_ne_nil (splitLines_ne_nil front)
        rw [split]; rfl

theorem newline_not_mem_of_mem_splitLines {text line : Text} (member : line ∈ splitLines text) :
    '\n' ∉ line := by
  induction text generalizing line with
  | nil => simp_all
  | cons c text ih =>
      by_cases newline : c = '\n'
      · subst newline
        rw [splitLines_newline_cons] at member
        rcases List.mem_cons.mp member with rfl | inner
        · exact List.not_mem_nil _
        · exact ih inner
      · rw [splitLines_cons_of_ne _ newline] at member
        obtain ⟨first, later, split⟩ := List.exists_cons_of_ne_nil (splitLines_ne_nil text)
        rw [split] at member
        rcases List.mem_cons.mp member with rfl | inner
        · have firstPlain := ih (split ▸ List.mem_cons_self first later)
          simp [Ne.symm newline, firstPlain]
        · exact ih (split ▸ List.mem_cons_of_mem first inner)

theorem splitLines_joinLines {lines : List Text} (plain : ∀ line ∈ lines, '\n' ∉ line)
    (nonempty : lines ≠ []) : splitLines (joinLines lines) = lines :=
  List.splitOn_intercalate lines '\n' plain nonempty

theorem joinLines_splitLines (text : Text) : joinLines (splitLines text) = text :=
  List.intercalate_splitOn text '\n'

/-! ### Non-empty lines survive the clean-up -/

/-- The non-empty lines of a text, in order. -/
def filledLines (text : Text) : List Text := (splitLines text).filter (fun line => !line.isEmpty)

/-- The text before the first newline. -/
def firstLine (text : Text) : Text := (splitLines text).headD []

/-- The non-empty lines after the first newline. -/
def laterLines (text : Text) : List Text :=
  (splitLines text).tail.filter (fun line => !line.isEmpty)

theorem firstLine_newline_cons (text : Text) : firstLine ('\n' :: text) = [] := by
  simp [firstLine, splitLines_newline_cons]

theorem laterLines_newline_cons (text : Text) :
    laterLines ('\n' :: text) = filledLines text := by
  simp [laterLines, filledLines, splitLines_newline_cons]

theorem lines_cons_of_ne {c : Char} (text : Text) (other : c ≠ '\n') :
    firstLine (c :: text) = c :: firstLine text ∧ laterLines (c :: text) = laterLines text := by
  obtain ⟨first, later, split⟩ := List.exists_cons_of_ne_nil (splitLines_ne_nil text)
  simp [firstLine, laterLines, splitLines_cons_of_ne _ other, split]

theorem filledLines_cons_of_ne {c : Char} (text : Text) (other : c ≠ '\n') :
    filledLines (c :: text) = (c :: firstLine text) :: laterLines text := by
  obtain ⟨first, later, split⟩ := List.exists_cons_of_ne_nil (splitLines_ne_nil text)
  simp [filledLines, firstLine, laterLines, splitLines_cons_of_ne _ other, split]

theorem filledLines_eq_of_lines {left right : Text} (first : firstLine left = firstLine right)
    (later : laterLines left = laterLines right) : filledLines left = filledLines right := by
  obtain ⟨l, ls, leftSplit⟩ := List.exists_cons_of_ne_nil (splitLines_ne_nil left)
  obtain ⟨r, rs, rightSplit⟩ := List.exists_cons_of_ne_nil (splitLines_ne_nil right)
  simp only [firstLine, laterLines, leftSplit, rightSplit, List.headD_cons, List.tail_cons]
    at first later
  simp only [filledLines, leftSplit, rightSplit, List.filter_cons, first, later]

theorem filledLines_newline_cons (text : Text) :
    filledLines ('\n' :: text) = filledLines text := by
  simp [filledLines, splitLines_newline_cons]

theorem filledLines_replicate_append (count : Nat) (text : Text) :
    filledLines (List.replicate count '\n' ++ text) = filledLines text := by
  induction count with
  | zero => rfl
  | succ count ih => rw [List.replicate_succ, List.cons_append, filledLines_newline_cons, ih]

theorem newlineRun_succ (count : Nat) :
    ∃ more, newlineRun (count + 1) = '\n' :: List.replicate more '\n' := by
  unfold newlineRun
  split
  · exact ⟨1, rfl⟩
  · exact ⟨count, rfl⟩

theorem collapseRuns_lines (pending : Nat) (text : Text) :
    firstLine (collapseRuns pending text) =
        firstLine (List.replicate pending '\n' ++ text) ∧
      laterLines (collapseRuns pending text) =
        laterLines (List.replicate pending '\n' ++ text) := by
  induction text generalizing pending with
  | nil =>
      cases pending with
      | zero => exact ⟨rfl, rfl⟩
      | succ count =>
          obtain ⟨more, run⟩ := newlineRun_succ count
          simp only [collapseRuns, run, List.replicate_succ, List.cons_append,
            firstLine_newline_cons, laterLines_newline_cons, true_and]
          rw [← List.append_nil (List.replicate more '\n'), filledLines_replicate_append,
            filledLines_replicate_append]
  | cons c rest ih =>
      by_cases newline : c = '\n'
      · subst newline
        simp only [collapseRuns, if_pos]
        rw [← List.singleton_append, ← List.append_assoc, ← List.replicate_succ']
        exact ih (pending + 1)
      · have tail := ih 0
        simp only [List.replicate_zero, List.nil_append] at tail
        simp only [collapseRuns, if_neg newline]
        cases pending with
        | zero =>
            have empty : newlineRun 0 = [] := rfl
            simp only [empty, List.replicate_zero, List.nil_append,
              (lines_cons_of_ne _ newline).1, (lines_cons_of_ne _ newline).2, tail, and_self]
        | succ count =>
            obtain ⟨more, run⟩ := newlineRun_succ count
            simp only [run, List.replicate_succ, List.cons_append, firstLine_newline_cons,
              laterLines_newline_cons, filledLines_replicate_append,
              filledLines_cons_of_ne _ newline, tail, true_and]

theorem filledLines_collapseBlankLines (text : Text) :
    filledLines (collapseBlankLines text) = filledLines text :=
  filledLines_eq_of_lines (collapseRuns_lines 0 text).1 (collapseRuns_lines 0 text).2

theorem filledLines_ensureTrailingNewline (text : Text) :
    filledLines (ensureTrailingNewline text) = filledLines text := by
  unfold ensureTrailingNewline
  split
  · rfl
  · simp [filledLines, splitLines_append_newline]

theorem filledLines_joinLines {lines : List Text} (plain : ∀ line ∈ lines, '\n' ∉ line) :
    filledLines (joinLines lines) = lines.filter (fun line => !line.isEmpty) := by
  by_cases empty : lines = []
  · subst empty; rfl
  · rw [filledLines, splitLines_joinLines plain empty]

/-! ### Text-mode reads -/

theorem return_not_mem_readText (text : Text) : '\r' ∉ readText text := by
  induction text using readText.induct with
  | case1 => exact List.not_mem_nil _
  | case2 rest ih => simp [readText, ih]
  | case3 rest noNewline ih => simp [readText.eq_3 rest noNewline, ih]
  | case4 c rest notPair notReturn ih =>
      simp [readText.eq_4 c rest notPair notReturn, ih, Ne.symm notReturn]

theorem mem_readText {text : Text} {c : Char} (member : c ∈ readText text) :
    c = '\n' ∨ c ∈ text := by
  induction text using readText.induct with
  | case1 => exact absurd member (List.not_mem_nil c)
  | case2 rest ih =>
      rcases List.mem_cons.mp member with rfl | later
      · exact Or.inl rfl
      · exact (ih later).imp_right fun inRest => by simp [inRest]
  | case3 rest noNewline ih =>
      rw [readText.eq_3 rest noNewline] at member
      rcases List.mem_cons.mp member with rfl | later
      · exact Or.inl rfl
      · exact (ih later).imp_right (List.mem_cons_of_mem _)
  | case4 x rest notPair notReturn ih =>
      rw [readText.eq_4 x rest notPair notReturn] at member
      rcases List.mem_cons.mp member with rfl | later
      · exact Or.inr (List.mem_cons_self _ _)
      · exact (ih later).imp_right (List.mem_cons_of_mem _)

theorem not_mem_readText {text : Text} {c : Char} (other : c ≠ '\n') (absent : c ∉ text) :
    c ∉ readText text := fun member =>
  (mem_readText member).elim other absent

theorem readText_eq_self {text : Text} (noReturn : '\r' ∉ text) : readText text = text := by
  induction text using readText.induct with
  | case1 => rfl
  | case2 rest _ => simp at noReturn
  | case3 rest _ _ => simp at noReturn
  | case4 c rest notPair notReturn ih =>
      rw [readText.eq_4 c rest notPair notReturn, ih (fun inRest => noReturn (by simp [inRest]))]

section Plain

variable {needle : Text} (noReturn : '\r' ∉ needle) (noNewline : '\n' ∉ needle)
include noReturn noNewline

theorem prefix_of_prefix_readText {text : Text} (pre : needle <+: readText text) :
    needle <+: text := by
  induction text using readText.induct generalizing needle with
  | case1 => exact (List.prefix_nil.mp pre) ▸ List.nil_prefix
  | case2 rest _ =>
      rcases List.prefix_cons_iff.mp pre with empty | ⟨tail, rfl, _⟩
      · exact empty ▸ List.nil_prefix
      · simp at noNewline
  | case3 rest noPair _ =>
      rw [readText.eq_3 rest noPair] at pre
      rcases List.prefix_cons_iff.mp pre with empty | ⟨tail, rfl, _⟩
      · exact empty ▸ List.nil_prefix
      · simp at noNewline
  | case4 c rest notPair notReturn ih =>
      rw [readText.eq_4 c rest notPair notReturn] at pre
      rcases List.prefix_cons_iff.mp pre with empty | ⟨tail, rfl, tailPre⟩
      · exact empty ▸ List.nil_prefix
      · simp only [List.mem_cons, not_or] at noReturn noNewline
        exact List.prefix_cons_inj c |>.mpr (ih noReturn.2 noNewline.2 tailPre)

theorem infix_of_infix_readText {text : Text} (inf : needle <:+: readText text) :
    needle <:+: text := by
  induction text using readText.induct with
  | case1 => exact (List.eq_nil_of_infix_nil inf) ▸ List.nil_infix
  | case2 rest ih =>
      rcases List.infix_cons_iff.mp inf with pre | inner
      · exact (@prefix_of_prefix_readText _ noReturn noNewline
          ('\r' :: '\n' :: rest) (by simpa [readText] using pre)).isInfix
      · exact List.infix_cons (List.infix_cons (ih inner))
  | case3 rest noPair ih =>
      rw [readText.eq_3 rest noPair] at inf
      rcases List.infix_cons_iff.mp inf with pre | inner
      · exact (@prefix_of_prefix_readText _ noReturn noNewline
          ('\r' :: rest) (by rwa [readText.eq_3 rest noPair])).isInfix
      · exact List.infix_cons (ih inner)
  | case4 c rest notPair notReturn ih =>
      rw [readText.eq_4 c rest notPair notReturn] at inf
      rcases List.infix_cons_iff.mp inf with pre | inner
      · exact (@prefix_of_prefix_readText _ noReturn noNewline
          (c :: rest) (by rwa [readText.eq_4 c rest notPair notReturn])).isInfix
      · exact List.infix_cons (ih inner)

end Plain

/-! ### Characters of the rewritten text -/

theorem mem_newlineRun {count : Nat} {c : Char} (member : c ∈ newlineRun count) : c = '\n' := by
  unfold newlineRun at member
  split at member
  · simp_all
  · exact List.eq_of_mem_replicate member

theorem mem_collapseRuns {pending : Nat} {text : Text} {c : Char}
    (member : c ∈ collapseRuns pending text) : c = '\n' ∨ c ∈ text := by
  induction text generalizing pending with
  | nil => exact Or.inl (mem_newlineRun member)
  | cons x rest ih =>
      simp only [collapseRuns] at member
      split at member
      · exact (ih member).imp_right (List.mem_cons_of_mem x)
      · simp only [List.mem_append, List.mem_cons] at member
        rcases member with run | rfl | later
        · exact Or.inl (mem_newlineRun run)
        · exact Or.inr (List.mem_cons_self _ _)
        · exact (ih later).imp_right (List.mem_cons_of_mem x)

theorem mem_ensureTrailingNewline {text : Text} {c : Char}
    (member : c ∈ ensureTrailingNewline text) : c = '\n' ∨ c ∈ text := by
  unfold ensureTrailingNewline at member
  split at member
  · exact Or.inr member
  · simp only [List.mem_append, List.mem_singleton] at member
    exact member.symm

theorem mem_joinLines {lines : List Text} {c : Char} (member : c ∈ joinLines lines) :
    c = '\n' ∨ ∃ line ∈ lines, c ∈ line := by
  match lines, member with
  | [line], member =>
      exact Or.inr ⟨line, List.mem_singleton_self _,
        by simpa [joinLines, List.intercalate] using member⟩
  | line :: next :: rest, member =>
      have split : joinLines (line :: next :: rest) = line ++ '\n' :: joinLines (next :: rest) := by
        simp [joinLines, List.intercalate]
      rw [split] at member
      simp only [List.mem_append, List.mem_cons] at member
      rcases member with inLine | newline | later
      · exact Or.inr ⟨line, List.mem_cons_self _ _, inLine⟩
      · exact Or.inl newline
      · rcases mem_joinLines later with newline | ⟨other, otherMem, inOther⟩
        · exact Or.inl newline
        · exact Or.inr ⟨other, List.mem_cons_of_mem _ otherMem, inOther⟩

theorem infix_joinLines_of_mem {lines : List Text} {line : Text} (member : line ∈ lines) :
    line <:+: joinLines lines := by
  match lines, member with
  | [_], .head _ => simp [joinLines, List.intercalate]
  | first :: next :: rest, member =>
      have split :
          joinLines (first :: next :: rest) = first ++ '\n' :: joinLines (next :: rest) := by
        simp [joinLines, List.intercalate]
      rw [split]
      rcases List.mem_cons.mp member with rfl | later
      · exact (List.prefix_append _ _).isInfix
      · exact (infix_joinLines_of_mem later).trans
          ((List.infix_cons (List.infix_refl _)).trans (List.suffix_append _ _).isInfix)

theorem infix_of_mem_splitLines {text line : Text} (member : line ∈ splitLines text) :
    line <:+: text :=
  joinLines_splitLines text ▸ infix_joinLines_of_mem member

theorem mem_of_mem_splitLines {text line : Text} {c : Char} (member : line ∈ splitLines text)
    (inLine : c ∈ line) : c ∈ text :=
  (infix_of_mem_splitLines member).subset inLine

/-! ### Where a text can occur -/

theorem singleton_infix_iff {c : Char} {text : Text} : [c] <:+: text ↔ c ∈ text :=
  ⟨fun inf => List.singleton_sublist.mp inf.sublist, fun member => by
    obtain ⟨front, back, rfl⟩ := List.append_of_mem member
    exact ⟨front, back, by simp⟩⟩

/-- A text that is empty or ends with a newline, so that what follows it starts a line. -/
def EndsLine (text : Text) : Prop := text = [] ∨ text.getLast? = some '\n'

instance (text : Text) : Decidable (EndsLine text) := inferInstanceAs (Decidable (_ ∨ _))

theorem EndsLine.cases {text : Text} (ends : EndsLine text) :
    text = [] ∨ ∃ line, text = line ++ ['\n'] :=
  ends.imp_right List.getLast?_eq_some_iff.mp

theorem EndsLine.append {front back : Text} (first : EndsLine front) (second : EndsLine back) :
    EndsLine (front ++ back) := by
  rcases second with rfl | last
  · simpa using first
  · exact Or.inr (by rw [List.getLast?_append, last]; rfl)

theorem EndsLine.of_append {front back : Text} (ends : EndsLine (front ++ back)) :
    EndsLine back := by
  cases last : back.getLast? with
  | none => exact Or.inl (List.getLast?_eq_none_iff.mp last)
  | some c =>
      rcases ends with empty | ends
      · exact Or.inl (List.append_eq_nil.mp empty).2
      · rw [List.getLast?_append, last] at ends
        exact Or.inr (last.trans ends)

theorem prefix_of_prefix_append_cons {needle front back : Text} {x : Char} (absent : x ∉ needle)
    (pre : needle <+: front ++ x :: back) : needle <+: front := by
  induction front generalizing needle with
  | nil =>
      rcases List.prefix_cons_iff.mp pre with rfl | ⟨t, rfl, _⟩
      · exact List.prefix_refl _
      · exact absurd (List.mem_cons_self x t) absent
  | cons c front ih =>
      rcases List.prefix_cons_iff.mp pre with rfl | ⟨t, rfl, later⟩
      · exact List.nil_prefix
      · exact List.cons_prefix_cons.mpr
          ⟨rfl, ih (fun inT => absent (List.mem_cons_of_mem c inT)) later⟩

theorem infix_append_cons {needle front back : Text} {x : Char} (absent : x ∉ needle)
    (inf : needle <:+: front ++ x :: back) : needle <:+: front ∨ needle <:+: back := by
  induction front with
  | nil =>
      rcases List.infix_cons_iff.mp inf with pre | inner
      · exact Or.inl (prefix_of_prefix_append_cons absent pre).isInfix
      · exact Or.inr inner
  | cons c front ih =>
      rcases List.infix_cons_iff.mp inf with pre | inner
      · exact Or.inl (@prefix_of_prefix_append_cons _ (c :: front) _ _ absent pre).isInfix
      · exact (ih inner).imp_left List.infix_cons

theorem infix_flatMap_of_endsLine {β : Type} {needle : Text} (plain : '\n' ∉ needle)
    (nonempty : needle ≠ []) {f : β → Text} : ∀ {items : List β},
      (∀ item ∈ items, EndsLine (f item)) →
      needle <:+: items.flatMap f → ∃ item ∈ items, needle <:+: f item
  | [], _, inf => absurd (List.eq_nil_of_infix_nil inf) nonempty
  | item :: items, ends, inf => by
      rw [List.flatMap_cons] at inf
      rcases (ends item (List.mem_cons_self _ _)).cases with empty | ⟨line, split⟩
      · rw [empty, List.nil_append] at inf
        obtain ⟨other, member, inOther⟩ := infix_flatMap_of_endsLine plain nonempty
          (fun x member => ends x (List.mem_cons_of_mem _ member)) inf
        exact ⟨other, List.mem_cons_of_mem _ member, inOther⟩
      · rw [split, List.append_assoc, List.singleton_append] at inf
        rcases infix_append_cons plain inf with inLine | inRest
        · exact ⟨item, List.mem_cons_self _ _,
            inLine.trans (split ▸ (List.prefix_append line ['\n']).isInfix)⟩
        · obtain ⟨other, member, inOther⟩ := infix_flatMap_of_endsLine plain nonempty
            (fun x member => ends x (List.mem_cons_of_mem _ member)) inRest
          exact ⟨other, List.mem_cons_of_mem _ member, inOther⟩

theorem exists_line_containing {needle text : Text} (plain : '\n' ∉ needle)
    (inf : needle <:+: text) : ∃ line ∈ splitLines text, needle <:+: line := by
  by_cases broken : '\n' ∈ text
  · obtain ⟨front, back, rfl⟩ := List.append_of_mem broken
    rw [splitLines_append_newline]
    have shorter : front.length < (front ++ '\n' :: back).length ∧
        back.length < (front ++ '\n' :: back).length := by simp; omega
    rcases infix_append_cons plain inf with inFront | inBack
    · obtain ⟨line, member, inLine⟩ := exists_line_containing plain inFront
      exact ⟨line, List.mem_append_left _ member, inLine⟩
    · obtain ⟨line, member, inLine⟩ := exists_line_containing plain inBack
      exact ⟨line, List.mem_append_right _ member, inLine⟩
  · have single : splitLines text = [text] := by
      simpa [joinLines, List.intercalate] using
        @splitLines_joinLines [text] (by simpa using broken) (List.cons_ne_nil _ _)
    exact ⟨text, single ▸ List.mem_singleton_self _, inf⟩
termination_by text.length

end ConflictResolver
