import ConflictResolver.Cargo.Rewrite
import ConflictResolver.CleanUp

/-!
What a run of `resolve_cargo_conflict` writes over every input, and what `main` returns: the
characters written, the arrays and headers the block goes into.
-/

namespace ConflictResolver

/-! ### The passes copy characters -/

theorem prefix_of_matchWorkspace {text found after : Text}
    (matched : matchWorkspace text = some (found, after)) : found <+: text := by
  unfold matchWorkspace at matched
  split at matched
  · cases matched
    exact List.isPrefixOf_iff_prefix.mp ‹_›
  · cases matched

theorem mem_of_mem_dropMembersConflicts {text : Text} {c : Char}
    (member : c ∈ dropMembersConflicts text) : c ∈ text :=
  (mem_subFrom matchMembersConflict _ member).elim id fun ⟨_, _, replaced⟩ =>
    absurd replaced (List.not_mem_nil c)

theorem mem_of_mem_keepOurs {text : Text} {c : Char} (member : c ∈ keepOurs text) : c ∈ text :=
  (mem_subFrom matchGeneric id member).elim id fun ⟨_, ⟨_, _, suffix, matched⟩, inOurs⟩ =>
    ((infix_of_matchGeneric matched).trans suffix.isInfix).subset inOurs

theorem placeMembers_chars {block : Text} (hasMembers : Bool) (resolved : Text)
    (plain : '\\' ∉ block) :
    ∃ out, placeMembers block hasMembers resolved = .ok out ∧
      ∀ c ∈ out, c ∈ resolved ∨ c ∈ block ∨ c = '\n' := by
  unfold placeMembers
  split_ifs
  · rw [reSub_plain plain]
    refine ⟨_, rfl, fun c member => ?_⟩
    rcases mem_subFrom matchMembersSpan _ member with kept | ⟨_, _, inBlock⟩
    · exact Or.inl kept
    · exact Or.inr (Or.inl inBlock)
  · rw [reSub_groupOne plain]
    refine ⟨_, rfl, fun c member => ?_⟩
    rcases mem_subFrom matchWorkspace _ member with kept | ⟨_, ⟨_, _, suffix, matched⟩, inPut⟩
    · exact Or.inl kept
    · rcases List.mem_append.mp inPut with inHeader | inLine
      · exact Or.inl (((prefix_of_matchWorkspace matched).isInfix.trans suffix.isInfix).subset
          inHeader)
      · exact Or.inr (List.mem_cons.mp inLine).symm
  · exact ⟨resolved, rfl, fun _ member => Or.inl member⟩

/-! ### The block -/

/-- The characters the members block writes around its members. -/
def blockPunctuation : Text := "members =[],\"\n".toList

theorem mem_membersBlock {members : List Text} {c : Char} (member : c ∈ membersBlock members) :
    c ∈ blockPunctuation ∨ ∃ m ∈ members, c ∈ m := by
  by_cases punctuation : c ∈ blockPunctuation
  · exact Or.inl punctuation
  · have framed : ∀ frame ∈ blockFrames, ∀ x ∈ frame, x ∈ blockPunctuation := by decide
    obtain ⟨m, inMembers, inM⟩ := @infix_membersBlock [c]
      (fun quote => punctuation (List.mem_singleton.mp quote ▸ by decide))
      (fun frame inFrames inFrame =>
        punctuation (framed frame inFrames c (singleton_infix_iff.mp inFrame)))
      members (singleton_infix_iff.mpr member)
    exact Or.inr ⟨m, inMembers, singleton_infix_iff.mp inM⟩

/-! ### The rewrite -/

theorem plain_cargoMembers {content : Text} (plain : '\\' ∉ content) :
    ∀ m ∈ cargoMembers content, '\\' ∉ m :=
  fun _ member inM => plain (mem_of_mem_cargoMembers member inM)

theorem cargoRewrite_chars {content : Text} (plain : ∀ m ∈ cargoMembers content, '\\' ∉ m)
    (iter : SetIter) :
    ∃ out, cargoRewrite content (sortedBy id ((cargoMembers content).toList iter)) = .ok out ∧
      ∀ c ∈ out, c ∈ content ∨ c ∈ blockPunctuation := by
  have fromText : ∀ m ∈ sortedBy id ((cargoMembers content).toList iter), ∀ c ∈ m, c ∈ content :=
    fun _ member _ => mem_of_mem_cargoMembers (PySet.mem_toList.mp (mem_sortedBy.mp member))
  obtain ⟨out, placed, chars⟩ := placeMembers_chars _ (keepOurs (dropMembersConflicts content))
    (membersBlock_plain fun m member => plain m (PySet.mem_toList.mp (mem_sortedBy.mp member)))
  have newline : '\n' ∈ blockPunctuation := by decide
  refine ⟨collapseBlankLines out, by rw [cargoRewrite, placed]; rfl, fun c member => ?_⟩
  rcases mem_collapseRuns member with rfl | inOut
  · exact Or.inr newline
  · rcases chars c inOut with kept | inBlock | rfl
    · exact Or.inl (mem_of_mem_dropMembersConflicts (mem_of_mem_keepOurs kept))
    · exact (mem_membersBlock inBlock).elim Or.inr fun ⟨m, inMembers, inM⟩ =>
        Or.inl (fromText m inMembers c inM)
    · exact Or.inr newline

/-! ### Every array is replaced -/

theorem matchMembersSpan_eq_none {text : Text} (unkeyed : ¬ membersKey <+: text) :
    matchMembersSpan text = none := by
  simp [matchMembersSpan, matchMembersArray_eq_none unkeyed]

theorem MembersArray.text_cons (a : MembersArray) (rest : Text) :
    a.text ++ rest = 'm' :: (a.text.tail ++ rest) := rfl

theorem MembersArray.Sound.matchMembersSpan {a : MembersArray} (sound : a.Sound) (rest : Text) :
    ∃ found, ConflictResolver.matchMembersSpan (a.text ++ rest) = some (found, rest) :=
  ⟨_, by rw [ConflictResolver.matchMembersSpan, sound.matchMembersArray rest]; rfl⟩

theorem subFrom_matchMembersSpan_arrays (block : Text) {pieces : List (Text × MembersArray)}
    (sound : ∀ piece ∈ pieces, Avoids membersKey piece.1 ∧ piece.2.Sound) {tail : Text}
    (unkeyed : ¬ membersKey <:+: tail) :
    subFrom matchMembersSpan (fun _ => block) 0
        (pieces.flatMap (fun piece => piece.1 ++ piece.2.text) ++ tail) =
      pieces.flatMap (fun piece => piece.1 ++ block) ++ tail :=
  subFrom_pieces matchMembersSpan _ (by decide) (fun _ => matchMembersSpan_eq_none) Prod.fst
    (fun piece : Text × MembersArray => piece.2.text) (fun _ => block) (fun piece member =>
      ⟨(sound piece member).1, by simp [MembersArray.text, membersKey], fun rest =>
        ((sound piece member).2.matchMembersSpan rest).imp fun _ matched => ⟨matched, rfl⟩⟩)
    unkeyed

theorem MembersArray.Sound.headed {a : MembersArray} (sound : a.Sound) {front : Text}
    (first : Avoids membersKey front) (rest : Text) :
    (searchFirst ConflictResolver.membersHead (front ++ a.text ++ rest)).isSome := by
  rw [List.append_assoc,
    searchFirst_append_of_fails _ _ _ (fails_of_avoids (fun _ => membersHead_eq_none) first _),
    searchFirst_of_success _ (sound.membersHead _)]
  rfl

theorem placeMembers_arrays_doubled (block : Text) (hasMembers : Bool)
    {pieces : List (Text × MembersArray)} (nonempty : pieces ≠ [])
    (sound : ∀ piece ∈ pieces, Avoids membersKey piece.1 ∧ piece.2.Sound)
    {tail : Text} (unkeyed : ¬ membersKey <:+: tail) :
    placeMembers (doubleBackslashes block) hasMembers
        (pieces.flatMap (fun piece => piece.1 ++ piece.2.text) ++ tail) =
      .ok (pieces.flatMap (fun piece => piece.1 ++ block) ++ tail) := by
  obtain ⟨⟨gap, a⟩, pieces, rfl⟩ := List.exists_cons_of_ne_nil nonempty
  obtain ⟨avoids, arraySound⟩ := sound (gap, a) (List.mem_cons_self _ _)
  have headed : (searchFirst membersHead
      (((gap, a) :: pieces).flatMap (fun piece => piece.1 ++ piece.2.text) ++ tail)).isSome := by
    simpa only [List.flatMap_cons, List.append_assoc] using
      arraySound.headed avoids (pieces.flatMap (fun piece => piece.1 ++ piece.2.text) ++ tail)
  rw [placeMembers, if_pos headed, reSub_doubleBackslashes,
    subFrom_matchMembersSpan_arrays block sound unkeyed]

/-- `re.sub(r'members\s*=\s*\[.*?\]', new_members_block, ...)` replaces every array of a
text made of arrays, each after a stretch in which no key starts, and a tail without a key: the
pattern is not anchored where a key starts, so a `default-members` array is replaced too. -/
theorem placeMembers_arrays {block : Text} (plain : '\\' ∉ block) (hasMembers : Bool)
    {pieces : List (Text × MembersArray)} (nonempty : pieces ≠ [])
    (sound : ∀ piece ∈ pieces, Avoids membersKey piece.1 ∧ piece.2.Sound)
    {tail : Text} (unkeyed : ¬ membersKey <:+: tail) :
    placeMembers block hasMembers
        (pieces.flatMap (fun piece => piece.1 ++ piece.2.text) ++ tail) =
      .ok (pieces.flatMap (fun piece => piece.1 ++ block) ++ tail) := by
  have placed := placeMembers_arrays_doubled block hasMembers nonempty sound unkeyed
  rwa [doubleBackslashes_plain plain] at placed

/-- Two arrays after the header: `default-members`, then `members`. -/
def twoArrays : List (Text × MembersArray) :=
  [("[workspace]\ndefault-".toList, ⟨[' '], [' '], [], [("x".toList, [])]⟩),
    ("\n".toList, ⟨[' '], [' '], [], [("a".toList, [])]⟩)]

theorem two_arrays_replaced :
    placeMembers (membersBlock ["a".toList]) true
        (twoArrays.flatMap (fun piece => piece.1 ++ piece.2.text) ++ "\n".toList) =
      .ok (twoArrays.flatMap (fun piece => piece.1 ++ membersBlock ["a".toList]) ++ "\n".toList) :=
  placeMembers_arrays (by decide) true (by decide) (by decide) (by decide)

/-- `re.sub(r'(\[workspace\])', '\\1\n' + new_members_block, ...)`, on a text without a key
and with members, puts the block after every `[workspace]`, wherever it stands: in a comment, or
inside a line. -/
theorem placeMembers_headers {block : Text} (plain : '\\' ∉ block) {pieces : List Text}
    (nonempty : pieces ≠ []) (gaps : ∀ gap ∈ pieces, Avoids workspaceHeader gap) {tail : Text}
    (untailed : ¬ workspaceHeader <:+: tail)
    (unkeyed : ¬ membersKey <:+: pieces.flatMap (· ++ workspaceHeader) ++ tail) :
    placeMembers block true (pieces.flatMap (· ++ workspaceHeader) ++ tail) =
      .ok (pieces.flatMap (· ++ (workspaceHeader ++ '\n' :: block)) ++ tail) := by
  obtain ⟨gap, pieces, rfl⟩ := List.exists_cons_of_ne_nil nonempty
  have unheaded := searchFirst_eq_none membersHead (by decide) (fun _ => membersHead_eq_none)
    unkeyed
  have headed : containsText workspaceHeader
      ((gap :: pieces).flatMap (· ++ workspaceHeader) ++ tail) = true :=
    decide_eq_true ⟨gap, pieces.flatMap (· ++ workspaceHeader) ++ tail, by simp⟩
  rw [placeMembers, unheaded, Option.isSome_none, if_neg Bool.false_ne_true, headed,
    Bool.true_and, if_pos rfl, reSub_groupOne plain]
  exact congrArg Except.ok (subFrom_pieces matchWorkspace _ (by decide)
    (fun _ => matchWorkspace_eq_none) id (fun _ => workspaceHeader)
    (fun _ => workspaceHeader ++ '\n' :: block) (fun piece member =>
      ⟨gaps piece member, (by decide : workspaceHeader ≠ []),
        fun rest => ⟨_, matchWorkspace_header rest, rfl⟩⟩) untailed)

theorem two_headers_filled :
    placeMembers (membersBlock ["a".toList]) true
        (["".toList, "\n# see ".toList].flatMap (· ++ workspaceHeader) ++ " above\n".toList) =
      .ok (["".toList, "\n# see ".toList].flatMap
        (· ++ (workspaceHeader ++ '\n' :: membersBlock ["a".toList])) ++ " above\n".toList) :=
  placeMembers_headers (by decide) (by decide) (by decide) (by decide) (by decide)

/-! ### What a run writes -/

section Run

variable (iter : SetIter) (filePath raw : Text)

/-- A conflicted manifest, with Windows line endings and a run of blank lines. -/
def crlfCargo : Text :=
  ("[workspace]\r\n\r\n\r\n\r\n<<<<<<< a\r\nmembers = [\"p\"]\r\n=======\r\n" ++
    "members = [\"q\"]\r\n>>>>>>> b\r\n").toList

/-- What the tool writes for `crlfCargo`. -/
def crlfCargoResolved : Text := "[workspace]\nmembers = [\n    \"p\",\n    \"q\",\n]\n\n".toList

/-- When the guard lets a text without a backslash through, the file written holds only
characters of the text read and of the block's punctuation, so no carriage return. -/
theorem resolveCargoConflict_written_chars
    (marked : containsText startMarker (readText raw) = true) (plain : '\\' ∉ raw)
    (output : Text) (written : (resolveCargoConflict iter filePath (some raw)).file = some output) :
    '\r' ∉ output ∧ ∀ c ∈ output, c ∈ readText raw ∨ c ∈ blockPunctuation := by
  obtain ⟨out, rewritten, chars⟩ :=
    cargoRewrite_chars (plain_cargoMembers (not_mem_readText (by decide) plain)) iter
  rw [(@resolveCargoConflict_rewritten iter filePath raw out marked rewritten).2] at written
  cases Option.some.inj written
  refine ⟨fun inOut => ?_, chars⟩
  rcases chars '\r' inOut with inRead | punctuation
  · exact return_not_mem_readText raw inRead
  · exact absurd punctuation (by decide)

theorem crlf_cargo_chars :
    '\r' ∉ crlfCargoResolved ∧
      ∀ c ∈ crlfCargoResolved, c ∈ readText crlfCargo ∨ c ∈ blockPunctuation :=
  resolveCargoConflict_written_chars SetIter.stored "Cargo.toml".toList crlfCargo (by decide)
    (by decide) crlfCargoResolved (by decide)

end Run

/-! ### `main` -/

section Main

variable (iter : SetIter) (argument : Option Text) (files : Text → Option PyFile)

theorem resolveCargoConflict_returned {filePath raw : Text} {success : Bool}
    (returned : (resolveCargoConflict iter filePath (some raw)).result = .returned success) :
    success = true := by
  cases marked : containsText startMarker (readText raw)
  · rw [resolveCargoConflict_unmarked marked] at returned
    cases returned
    rfl
  · cases rewritten : cargoRewrite (readText raw)
        (sortedBy id ((cargoMembers (readText raw)).toList iter)) with
    | ok out =>
        rw [(resolveCargoConflict_rewritten marked rewritten).1] at returned
        cases returned
        rfl
    | error message => simp [resolveCargoConflict, marked, rewritten] at returned

theorem resolveCargoConflict_stderr (filePath raw : Text) :
    ∀ line ∈ (resolveCargoConflict iter filePath (some raw)).stderr,
      line = "Warning: No workspace members found in ".toList ++ filePath := by
  intro line member
  cases marked : containsText startMarker (readText raw)
  · simp [resolveCargoConflict_unmarked marked] at member
  · cases rewritten : cargoRewrite (readText raw)
        (sortedBy id ((cargoMembers (readText raw)).toList iter)) <;>
      simp only [resolveCargoConflict, marked, rewritten, Bool.not_true] at member <;>
      split at member <;> simp_all

theorem cargoMain_status_eq_zero_iff :
    (cargoMain iter argument files).status = 0 ↔
      ∃ file raw, files (argument.getD "Cargo.toml".toList) = some file ∧ file.read = .ok raw ∧
        (resolveCargoConflict iter (argument.getD "Cargo.toml".toList) (some raw)).result =
          .returned true ∧
        (containsText startMarker (readText raw) = true → file.writeError = none) := by
  simp only [cargoMain]
  generalize argument.getD "Cargo.toml".toList = filePath
  cases files filePath with
  | none => simp [exitStatus]
  | some file =>
      cases read : file.read with
      | error message => simp [read]
      | ok raw =>
          simp only [read]
          cases result : (resolveCargoConflict iter filePath (some raw)).result with
          | raised message => simp [read, result]
          | returned success =>
              cases resolveCargoConflict_returned iter result
              cases marked : containsText startMarker (readText raw) <;>
                cases written : file.writeError <;> simp [read, result, marked, written, exitStatus]

theorem cargoMain_file_of_failed (failed : (cargoMain iter argument files).status ≠ 0) :
    (cargoMain iter argument files).file = files (argument.getD "Cargo.toml".toList) := by
  revert failed
  simp only [cargoMain]
  generalize argument.getD "Cargo.toml".toList = filePath
  cases files filePath with
  | none => simp
  | some file =>
      cases read : file.read with
      | error message => simp [read]
      | ok raw =>
          simp only [read]
          cases result : (resolveCargoConflict iter filePath (some raw)).result with
          | raised message => simp [read, result]
          | returned success =>
              cases resolveCargoConflict_returned iter result
              cases marked : containsText startMarker (readText raw) <;>
                cases written : file.writeError <;> simp [read, result, marked, written, exitStatus]

end Main

end ConflictResolver
