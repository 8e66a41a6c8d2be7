import ConflictResolver.Cargo.Unkeyed
import Mathlib.Data.Set.List

/-!
Members that hold a backslash: the block goes through the template compiler, which halves a
doubled backslash and raises `bad escape` at `\c` for a letter `c` that is no escape.
-/

namespace ConflictResolver

/-! ### Doubled backslashes are halved -/

theorem doubleBackslashes_intercalate (sep : Text) :
    ∀ texts : List Text, doubleBackslashes (sep.intercalate texts) =
      (doubleBackslashes sep).intercalate (texts.map doubleBackslashes)
  | [] => rfl
  | [_] => by simp [List.intercalate]
  | x :: y :: rest => by
      have ih := doubleBackslashes_intercalate sep (y :: rest)
      simp only [List.map_cons, List.intercalate, List.intersperse_cons_cons, List.flatten_cons,
        doubleBackslashes_append] at ih ⊢
      rw [ih]

theorem membersBlock_doubleBackslashes (names : List Text) :
    membersBlock (names.map doubleBackslashes) = doubleBackslashes (membersBlock names) := by
  have quote : quoted ∘ doubleBackslashes = doubleBackslashes ∘ quoted := funext fun m => by
    simp [quoted, doubleBackslashes_cons]
  unfold membersBlock
  by_cases empty : names = []
  · subst empty; rfl
  · rw [if_neg (by simpa using empty), if_neg empty]
    simp only [doubleBackslashes_append, doubleBackslashes_intercalate, List.map_map, quote]
    rfl

/-- On a sound document whose only `members` key is one array in the outside text before every
region, when every entry of the array spells each of its backslashes twice, as a TOML string
escapes a backslash, the tool writes the block of the entries with every doubled backslash
halved: the block goes in as a replacement string, which reads `\\` as one backslash. -/
theorem resolveCargoConflict_halves_backslashes (iter : SetIter) (filePath raw front back : Text)
    (a : MembersArray) (chunks : List Chunk)
    (sound : ∀ chunk ∈ .outside (front ++ a.text ++ back) :: chunks, chunk.Sound)
    (layout : readText raw = docText (.outside (front ++ a.text ++ back) :: chunks))
    (arraySound : a.Sound) (first : Avoids membersKey front)
    (later : ¬ membersKey <:+: back ++ docText chunks)
    (doubled : ∀ m ∈ a.names, ∃ n, doubleBackslashes n = m)
    (conflicted : ∃ r, Chunk.region r ∈ chunks) :
    ∃ merged names : List Text, names.map doubleBackslashes = merged ∧
      merged.Pairwise (· < ·) ∧ (∀ m, m ∈ merged ↔ m ∈ a.names) ∧
      (resolveCargoConflict iter filePath (some raw)).result = .returned true ∧
      (resolveCargoConflict iter filePath (some raw)).file = some (collapseBlankLines
        (front ++ membersBlock names ++ back ++
          chunks.flatMap (Chunk.mapRegion GitRegion.ours))) := by
  have unkeyed := unkeyed_docText_later later
  have members := mem_sorted_above sound unkeyed rfl arraySound first iter layout
  obtain ⟨names, halved⟩ := (Set.ext_iff.mp (Set.range_list_map doubleBackslashes) _).mpr
    fun m member => doubled m ((members m).mp member)
  refine ⟨_, names, halved, sortedBy_strict (PySet.nodup_toList _ _), members,
    resolveCargoConflict_above_placed sound unkeyed iter filePath raw layout conflicted ?_⟩
  rw [← halved, membersBlock_doubleBackslashes]
  simpa only [List.flatMap_cons, List.flatMap_nil, List.append_nil, List.append_assoc] using
    placeMembers_arrays_doubled _ _ (List.cons_ne_nil (front, a) [])
      (by simpa using And.intro first arraySound) (unkeyed_back_ours sound rfl later)

/-- An array whose first entry spells one backslash twice. -/
def doubledArray : MembersArray :=
  ⟨[' '], [' '], [], [("a\\\\b".toList, ", ".toList), ("c".toList, [])]⟩

set_option maxRecDepth 4000 in
theorem doubled_backslash_halved :
    ∃ merged names : List Text, names.map doubleBackslashes = merged ∧
      merged.Pairwise (· < ·) ∧ (∀ m, m ∈ merged ↔ m ∈ doubledArray.names) ∧
      (resolveCargoConflict SetIter.stored "Cargo.toml".toList (some (docText
          (.outside ("[workspace]\n".toList ++ doubledArray.text ++ "\n".toList) ::
            aboveChunks)))).result = .returned true ∧
      (resolveCargoConflict SetIter.stored "Cargo.toml".toList (some (docText
          (.outside ("[workspace]\n".toList ++ doubledArray.text ++ "\n".toList) ::
            aboveChunks)))).file =
        some (collapseBlankLines ("[workspace]\n".toList ++ membersBlock names ++ "\n".toList ++
          aboveChunks.flatMap (Chunk.mapRegion GitRegion.ours))) :=
  resolveCargoConflict_halves_backslashes SetIter.stored "Cargo.toml".toList _
    "[workspace]\n".toList "\n".toList doubledArray aboveChunks (by decide) (by decide)
    (by decide) (by decide) (by decide)
    (List.forall_mem_cons.mpr ⟨⟨"a\\b".toList, rfl⟩,
      List.forall_mem_cons.mpr ⟨⟨"c".toList, rfl⟩, fun _ => (List.not_mem_nil _).elim⟩⟩)
    ⟨_, List.mem_cons_self _ _⟩

/-! ### A bad escape -/

theorem intercalate_cons_of_ne_nil {sep x : Text} {rest : List Text} (nonempty : rest ≠ []) :
    sep.intercalate (x :: rest) = x ++ sep ++ sep.intercalate rest := by
  obtain ⟨y, rest, rfl⟩ := List.exists_cons_of_ne_nil nonempty
  simp [List.intercalate]

theorem membersBlock_append_cons (before after : List Text) (m : Text) :
    ∃ tail, tail ≠ [] ∧ membersBlock (before ++ m :: after) =
      "members = [\n    ".toList ++ before.flatMap (fun x => quoted x ++ ",\n    ".toList) ++
        '"' :: (m ++ '"' :: tail) := by
  have entries : ∀ before : List Text,
      ",\n    ".toList.intercalate ((before ++ m :: after).map quoted) =
        before.flatMap (fun x => quoted x ++ ",\n    ".toList) ++
          ",\n    ".toList.intercalate ((m :: after).map quoted) := by
    intro before
    induction before with
    | nil => rfl
    | cons x before ih =>
        rw [List.cons_append, List.map_cons, intercalate_cons_of_ne_nil (by simp), ih,
          List.flatMap_cons]
        simp only [List.append_assoc]
  obtain ⟨tail, nonempty, closed⟩ : ∃ tail, tail ≠ [] ∧
      ",\n    ".toList.intercalate ((m :: after).map quoted) ++ ",\n]".toList =
        '"' :: (m ++ '"' :: tail) := by
    cases after with
    | nil => exact ⟨",\n]".toList, by simp, by simp [List.intercalate, quoted]⟩
    | cons y after =>
        refine ⟨",\n    ".toList ++ ",\n    ".toList.intercalate ((y :: after).map quoted) ++
          ",\n]".toList, by simp, ?_⟩
        rw [List.map_cons, intercalate_cons_of_ne_nil (by simp)]
        simp [quoted]
  refine ⟨tail, nonempty, ?_⟩
  rw [membersBlock, if_neg (by simp), entries]
  simp only [List.append_assoc, closed]

theorem membersBlock_first_backslash {before : List Text} (after : List Text) {pre : Text}
    (c : Char) (post : Text) (plainBefore : ∀ x ∈ before, '\\' ∉ x) (plainPre : '\\' ∉ pre) :
    ∃ head tail, '\\' ∉ head ∧ 2 ≤ tail.length ∧
      membersBlock (before ++ (pre ++ '\\' :: c :: post) :: after) = head ++ '\\' :: c :: tail := by
  obtain ⟨tail, nonempty, block⟩ := membersBlock_append_cons before after (pre ++ '\\' :: c :: post)
  refine ⟨"members = [\n    ".toList ++ before.flatMap (fun x => quoted x ++ ",\n    ".toList) ++
      '"' :: pre, post ++ '"' :: tail, by simpa [quoted, plainPre] using plainBefore, ?_,
    by rw [block]; simp only [List.append_assoc, List.cons_append]⟩
  have := List.length_pos.mpr nonempty
  simp only [List.length_append, List.length_cons]
  omega

theorem resolveCargoConflict_raised {iter : SetIter} {filePath raw message : Text}
    (marked : containsText startMarker (readText raw) = true)
    (collected : (cargoMembers (readText raw)).elems ≠ [])
    (raised : cargoRewrite (readText raw)
      (sortedBy id ((cargoMembers (readText raw)).toList iter)) = .error message) :
    resolveCargoConflict iter filePath (some raw) = ⟨.raised message, some raw, [], []⟩ := by
  simp [resolveCargoConflict, marked, raised, collected]

/-- When the smallest entry of the array that holds a backslash has, right after its first
backslash, a letter that is neither an escape nor `g`, the run raises `bad escape` at the first
backslash of the block, leaves the file as it was and prints nothing. -/
theorem resolveCargoConflict_bad_escape (iter : SetIter) (filePath raw front back : Text)
    (a : MembersArray) (chunks : List Chunk)
    (sound : ∀ chunk ∈ .outside (front ++ a.text ++ back) :: chunks, chunk.Sound)
    (layout : readText raw = docText (.outside (front ++ a.text ++ back) :: chunks))
    (arraySound : a.Sound) (first : Avoids membersKey front)
    (unkeyed : ¬ membersKey <:+: docText chunks) {pre post : Text} {c : Char}
    (member : pre ++ '\\' :: c :: post ∈ a.names) (plainPre : '\\' ∉ pre)
    (alpha : c.isAlpha = true) (unknown : escapeValue c = none) (notGroup : c ≠ 'g')
    (least : ∀ x ∈ a.names, x < pre ++ '\\' :: c :: post → '\\' ∉ x)
    (conflicted : ∃ r, Chunk.region r ∈ chunks) :
    ∃ merged : List Text, merged.Pairwise (· < ·) ∧ (∀ x, x ∈ merged ↔ x ∈ a.names) ∧
      resolveCargoConflict iter filePath (some raw) =
        ⟨.raised ((TemplateError.badEscape c ((membersBlock merged).indexOf '\\')).message
          (membersBlock merged)), some raw, [], []⟩ := by
  have members := mem_sorted_above sound unkeyed rfl arraySound first iter layout
  have strict := sortedBy_strict (PySet.nodup_toList iter (cargoMembers (readText raw)))
  refine ⟨_, strict, members, ?_⟩
  obtain ⟨before, after, split⟩ := List.append_of_mem ((members _).mpr member)
  have plainBefore : ∀ x ∈ before, '\\' ∉ x := fun x inBefore =>
    least x ((members x).mp (split ▸ List.mem_append_left _ inBefore))
      ((List.pairwise_append.mp (split ▸ strict)).2.2 x inBefore _ (List.mem_cons_self _ _))
  obtain ⟨head, tail, plainHead, longer, shape⟩ :=
    membersBlock_first_backslash after c post plainBefore plainPre
  rw [← split] at shape
  have resolved := keepOurs_dropMembersConflicts_above sound unkeyed
  rw [← layout] at resolved
  have headed := arraySound.headed first (back ++ chunks.flatMap (Chunk.mapRegion GitRegion.ours))
  rw [← List.append_assoc] at headed
  rw [shape, List.indexOf_append_of_not_mem plainHead, List.indexOf_cons_self, Nat.add_zero]
  refine resolveCargoConflict_raised (containsText_startMarker_of_region layout conflicted)
    (List.ne_nil_of_mem (PySet.mem_def.mp (PySet.mem_toList.mp
      (mem_sortedBy.mp ((members _).mpr member))))) ?_
  rw [cargoRewrite, resolved, placeMembers, if_pos headed, reSub, shape, if_pos (by simp),
    parseTemplate_badEscape 0 plainHead alpha unknown notGroup longer]
  rfl

/-- An array whose entries `a\\q` and `c\\qz` hold the bad escape `\\q`, after `b`. -/
def badEscapeArray : MembersArray :=
  ⟨[' '], [' '], [],
    [("b".toList, ", ".toList), ("a\\q".toList, ", ".toList), ("c\\qz".toList, [])]⟩

set_option maxRecDepth 4000 in
theorem bad_escape_raised :
    ∃ merged : List Text, merged.Pairwise (· < ·) ∧
      (∀ x, x ∈ merged ↔ x ∈ badEscapeArray.names) ∧
      resolveCargoConflict SetIter.stored "Cargo.toml".toList (some (docText
          (.outside ("[workspace]\n".toList ++ badEscapeArray.text ++ "\n[dependencies]\n".toList) ::
            aboveChunks))) =
        ⟨.raised ((TemplateError.badEscape 'q' ((membersBlock merged).indexOf '\\')).message
          (membersBlock merged)), some (docText
          (.outside ("[workspace]\n".toList ++ badEscapeArray.text ++ "\n[dependencies]\n".toList) ::
            aboveChunks)), [], []⟩ :=
  @resolveCargoConflict_bad_escape SetIter.stored "Cargo.toml".toList _ "[workspace]\n".toList
    "\n[dependencies]\n".toList badEscapeArray aboveChunks (by decide) (by decide) (by decide)
    (by decide) (by decide) "a".toList [] 'q' (by decide) (by decide) (by decide) (by decide)
    (by decide) (by decide) ⟨_, List.mem_cons_self _ _⟩

end ConflictResolver
