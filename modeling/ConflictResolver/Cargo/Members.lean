import ConflictResolver.Cargo.Document

/-!
The `members` arrays of a manifest (`MembersArray`): what `extract_members_from_block` reads
from them, what the tool collects from a conflicted text, and the block it writes back.
-/

namespace ConflictResolver

/-! ### Arrays -/

/-- A `members` array as TOML writes it: the spaces before and after `=`, the text between `[`
and the first entry, and each entry with the text after its closing quote. -/
structure MembersArray where
  keySpace : Text
  valueSpace : Text
  lead : Text
  entries : List (Text × Text)
  deriving DecidableEq, Repr

/-- The quoted entries, each with the text after it. -/
def MembersArray.body (a : MembersArray) : Text :=
  a.entries.flatMap fun entry => '"' :: (entry.1 ++ '"' :: entry.2)

def MembersArray.text (a : MembersArray) : Text :=
  membersKey ++ a.keySpace ++ '=' :: a.valueSpace ++ '[' :: (a.lead ++ a.body) ++ [']']

/-- The entries, in order. -/
def MembersArray.names (a : MembersArray) : List Text := a.entries.map Prod.fst

/-- Spaces around `=`, entries that are non-empty quoted strings without a quote or a bracket,
and separating text without either. -/
structure MembersArray.Sound (a : MembersArray) : Prop where
  keySpace : ∀ c ∈ a.keySpace, isSpace c = true
  valueSpace : ∀ c ∈ a.valueSpace, isSpace c = true
  lead : '"' ∉ a.lead ∧ ']' ∉ a.lead
  entries : ∀ entry ∈ a.entries,
    entry.1 ≠ [] ∧ '"' ∉ entry.1 ∧ ']' ∉ entry.1 ∧ '"' ∉ entry.2 ∧ ']' ∉ entry.2

instance (a : MembersArray) : Decidable a.Sound :=
  decidable_of_iff (_ ∧ _ ∧ _ ∧ _)
    ⟨fun ⟨a, b, c, d⟩ => ⟨a, b, c, d⟩, fun ⟨a, b, c, d⟩ => ⟨a, b, c, d⟩⟩

theorem fails_of_not_mem {β : Type} {matcher : Text → Option β} {c : Char}
    (needs : ∀ d rest, d ≠ c → matcher (d :: rest) = none) {front : Text} (absent : c ∉ front)
    (back : Text) : ∀ i < front.length, matcher (front.drop i ++ back) = none := fun i inside => by
  rw [List.drop_eq_getElem_cons inside]
  exact needs _ _ fun same => absent (same ▸ List.getElem_mem inside)

theorem matchMembersArray_eq_none {text : Text} (unkeyed : ¬ membersKey <+: text) :
    matchMembersArray text = none := by
  simp [matchMembersArray, membersHead_eq_none unkeyed]

theorem dropWhile_spaces {spaces : Text} (spaced : ∀ c ∈ spaces, isSpace c = true) {c : Char}
    (other : isSpace c = false) (rest : Text) :
    (spaces ++ c :: rest).dropWhile isSpace = c :: rest := by
  rw [List.dropWhile_append_of_pos spaced, List.dropWhile_cons_of_neg (by simp [other])]

theorem matchQuoted_entry {entry : Text} (nonempty : entry ≠ []) (unquoted : '"' ∉ entry)
    (after : Text) : matchQuoted ('"' :: (entry ++ '"' :: after)) = some (entry, after) := by
  have inEntry : ∀ c ∈ entry, (c != '"') = true :=
    fun c member => bne_iff_ne.mpr fun (same : c = '"') => unquoted (same ▸ member)
  simp [matchQuoted, List.dropWhile_append_of_pos inEntry, List.takeWhile_append_of_pos inEntry,
    nonempty]

theorem needsQuote (d : Char) (rest : Text) (other : d ≠ '"') :
    matchQuoted (d :: rest) = none := by
  simp [matchQuoted, other]

theorem findFrom_quoted_entries {entries : List (Text × Text)}
    (sound : ∀ entry ∈ entries, entry.1 ≠ [] ∧ '"' ∉ entry.1 ∧ '"' ∉ entry.2) :
    findFrom matchQuoted 0 (entries.flatMap fun entry => '"' :: (entry.1 ++ '"' :: entry.2)) =
      entries.map Prod.fst := by
  induction entries with
  | nil => rfl
  | cons entry entries ih =>
      obtain ⟨nonempty, unquoted, gapUnquoted⟩ := sound entry (List.mem_cons_self _ _)
      simp only [List.flatMap_cons, List.cons_append, List.append_assoc]
      rw [findFrom_of_match _ (matchQuoted_entry nonempty unquoted _)
          ((List.suffix_cons _ _).trans (List.suffix_append _ _)),
        findFrom_append_of_fails _ _ _ (fails_of_not_mem needsQuote gapUnquoted _),
        ih fun other member => sound other (List.mem_cons_of_mem _ member)]
      rfl

section Sound

variable {a : MembersArray} (sound : a.Sound)
include sound

theorem MembersArray.Sound.no_bracket : ']' ∉ a.lead ++ a.body := by
  simp only [List.mem_append, MembersArray.body, List.mem_flatMap, not_or, not_exists, not_and]
  refine ⟨sound.lead.2, fun entry member => ?_⟩
  have := sound.entries entry member
  simp [this.2.2.1, this.2.2.2.2]

theorem MembersArray.Sound.membersHead (rest : Text) :
    membersHead (a.text ++ rest) = some (a.lead ++ a.body ++ ']' :: rest) := by
  have split : a.text ++ rest = membersKey ++ (a.keySpace ++ '=' :: (a.valueSpace ++
      '[' :: (a.lead ++ a.body ++ ']' :: rest))) := by
    simp [MembersArray.text]
  rw [ConflictResolver.membersHead, split, List.isPrefixOf_iff_prefix.mpr (List.prefix_append _ _),
    if_pos rfl, @List.drop_left' _ membersKey _ 7 rfl, dropWhile_spaces sound.keySpace (by decide)]
  simp [dropWhile_spaces sound.valueSpace (by decide : isSpace '[' = false)]

theorem MembersArray.Sound.matchMembersArray (rest : Text) :
    matchMembersArray (a.text ++ rest) = some (a.lead ++ a.body, rest) := by
  rw [ConflictResolver.matchMembersArray, sound.membersHead, Option.some_bind,
    lazyGroup_append_of_fails _ _ _ (fails_of_not_mem (c := ']') (fun d rest other => by
      simp [closeBracket, other]) sound.no_bracket _),
    lazyGroup_of_success _ (show closeBracket (']' :: rest) = some rest from rfl)]
  simp

theorem MembersArray.Sound.findFrom_quoted :
    findFrom matchQuoted 0 (a.lead ++ a.body) = a.names := by
  rw [← List.append_nil (a.lead ++ a.body), List.append_assoc,
    findFrom_append_of_fails _ _ _ (fails_of_not_mem needsQuote sound.lead.1 _), List.append_nil]
  exact findFrom_quoted_entries fun entry member =>
    ⟨(sound.entries entry member).1, (sound.entries entry member).2.1,
      (sound.entries entry member).2.2.2.1⟩

theorem MembersArray.Sound.extract {pre : Text} (before : Avoids membersKey pre) (post : Text)
    (x : Text) : x ∈ extractMembersFromBlock (pre ++ (a.text ++ post)) ↔ x ∈ a.names := by
  rw [extractMembersFromBlock, searchFirst_append_of_fails _ pre _
    (fails_of_avoids (fun _ => matchMembersArray_eq_none) before _),
    searchFirst_of_success _ (sound.matchMembersArray post)]
  simp only [sound.findFrom_quoted, PySet.mem_update, PySet.not_mem_empty, false_or]

theorem MembersArray.Sound.optionalMembers {β : Type} {cont : Text → Option β}
    {front back tail : Text} {found : β} (first : Avoids membersKey front)
    (fails : ∀ i < back.length, cont (back.drop i ++ tail) = none)
    (success : cont tail = some found) :
    optionalMembers cont (front ++ (a.text ++ (back ++ tail))) = some found := by
  simp only [ConflictResolver.optionalMembers, searchFirst_append_of_fails _ front _
      (fails_of_avoids (fun _ => matchMembersArray_eq_none) first _),
    searchFirst_of_success _ (sound.matchMembersArray _), Option.some_bind,
    searchFirst_append_of_fails _ back _ fails, searchFirst_of_success _ success]
  rfl

end Sound

theorem extractMembersFromBlock_eq_empty {text : Text} (unkeyed : ¬ membersKey <:+: text) :
    extractMembersFromBlock text = PySet.empty := by
  rw [extractMembersFromBlock, searchFirst_eq_none _ (by decide)
    (fun _ => matchMembersArray_eq_none) unkeyed]

/-! ### Where the collected members come from -/

theorem infix_of_mem_findFrom {matcher : Text → Option (Text × Text)}
    (found : ∀ text group after, matcher text = some (group, after) → group <:+: text)
    {skip : Nat} {text x : Text} (member : x ∈ findFrom matcher skip text) : x <:+: text :=
  let ⟨_, _, suffix, matched⟩ := matchesIn_of_mem_findFrom matcher member
  (found _ _ _ matched).trans suffix.isInfix

theorem infix_of_matchQuoted {text group after : Text}
    (matched : matchQuoted text = some (group, after)) : group <:+: text := by
  unfold matchQuoted at matched
  split at matched
  · rename_i rest
    split at matched
    · split at matched
      · cases matched
      · cases matched
        exact (List.takeWhile_prefix _).isInfix.trans (List.suffix_cons _ _).isInfix
    · cases matched
  · cases matched

theorem infix_of_matchMembersArray {text group after : Text}
    (matched : matchMembersArray text = some (group, after)) : group <:+: text := by
  obtain ⟨inner, headed, grouped⟩ := Option.bind_eq_some.mp matched
  obtain ⟨rest, split, _⟩ := lazyGroup_eq_some closeBracket grouped
  exact (split ▸ List.prefix_append group rest).isInfix.trans
    ((membersHead_suffix headed).trans (List.tail_suffix text)).isInfix

theorem infix_of_mem_extractMembersFromBlock {block x : Text}
    (member : x ∈ extractMembersFromBlock block) : x <:+: block := by
  unfold extractMembersFromBlock at member
  cases searched : searchFirst matchMembersArray block with
  | none => simp [searched, PySet.mem_def, PySet.empty] at member
  | some result =>
      obtain ⟨content, after⟩ := result
      simp only [searched, PySet.mem_update, PySet.not_mem_empty, false_or] at member
      obtain ⟨rest, suffix, array⟩ := searchFirst_eq_some _ searched
      exact (infix_of_mem_findFrom (fun _ _ _ => infix_of_matchQuoted) member).trans
        ((infix_of_matchMembersArray array).trans suffix.isInfix)

theorem mem_regionMembers {content x : Text} :
    x ∈ regionMembers content ↔ ∃ sides ∈ findFrom matchConflict 0 content,
      x ∈ extractMembersFromBlock sides.1 ∨ x ∈ extractMembersFromBlock (sides.2.getD []) := by
  suffices folded : ∀ (found : List (Text × Option Text)) (members : PySet),
      x ∈ found.foldl (fun members (sides : Text × Option Text) =>
        (members.update (extractMembersFromBlock sides.1).elems).update
          (extractMembersFromBlock (sides.2.getD [])).elems) members ↔
        x ∈ members ∨ ∃ sides ∈ found,
          x ∈ extractMembersFromBlock sides.1 ∨ x ∈ extractMembersFromBlock (sides.2.getD []) by
    simpa [regionMembers, PySet.mem_def, PySet.empty] using folded _ PySet.empty
  intro found
  induction found with
  | nil => simp
  | cons sides found ih =>
      intro members
      rw [List.foldl_cons, ih, PySet.mem_update, PySet.mem_update]
      simp only [List.mem_cons, exists_eq_or_imp, PySet.mem_def, or_assoc]

theorem mem_cargoMembers {content x : Text} :
    x ∈ cargoMembers content ↔
      x ∈ regionMembers content ∨ x ∈ extractMembersFromBlock (cleanContent content) := by
  rw [cargoMembers, PySet.mem_update]
  rfl

theorem exists_block_of_mem_regionMembers {content x : Text} (member : x ∈ regionMembers content) :
    ∃ block, block <:+: content ∧ x ∈ extractMembersFromBlock block := by
  obtain ⟨⟨ours, theirs⟩, found, inSides⟩ := mem_regionMembers.mp member
  obtain ⟨start, after, suffix, matched⟩ := matchesIn_of_mem_findFrom matchConflict found
  obtain ⟨inOurs, inTheirs⟩ := infix_of_matchConflict matched
  rcases inSides with fromOurs | fromTheirs
  · exact ⟨ours, inOurs.trans suffix.isInfix, fromOurs⟩
  · cases theirs with
    | none => exact ⟨[], List.nil_infix, fromTheirs⟩
    | some side => exact ⟨side, (inTheirs side rfl).trans suffix.isInfix, fromTheirs⟩

theorem mem_of_mem_cargoMembers {content x : Text} (member : x ∈ cargoMembers content)
    {c : Char} (inX : c ∈ x) : c ∈ content := by
  rcases mem_cargoMembers.mp member with inRegions | inClean
  · obtain ⟨block, inContent, fromBlock⟩ := exists_block_of_mem_regionMembers inRegions
    exact ((infix_of_mem_extractMembersFromBlock fromBlock).trans inContent).subset inX
  · rcases mem_subFrom matchConflict _ ((infix_of_mem_extractMembersFromBlock inClean).subset inX)
      with kept | ⟨_, _, replaced⟩
    · exact kept
    · exact absurd replaced (List.not_mem_nil c)

/-! ### The block written back -/

/-- The fixed text of the block, around its members. -/
def blockFrames : List Text :=
  ["members = []".toList, "members = [\n    ".toList, ",\n    ".toList, ",\n]".toList]

theorem infix_quoted {needle sep : Text} (unquoted : '"' ∉ needle) :
    ∀ {members : List Text}, members ≠ [] → ∀ (front back : Text),
      needle <:+: front ++ sep.intercalate (members.map quoted) ++ back →
      needle <:+: front ∨ needle <:+: sep ∨ needle <:+: back ∨ ∃ m ∈ members, needle <:+: m
  | [], nonempty, _, _, _ => absurd rfl nonempty
  | [m], _, front, back, inf => by
      have single : sep.intercalate ([m].map quoted) = '"' :: m ++ ['"'] := by
        simp [List.intercalate, quoted]
      rw [single] at inf
      simp only [List.append_assoc, List.cons_append, List.singleton_append] at inf
      rcases infix_append_cons unquoted inf with inFront | inRest
      · exact Or.inl inFront
      · rcases infix_append_cons unquoted inRest with inMember | inBack
        · exact Or.inr (Or.inr (Or.inr ⟨m, List.mem_singleton_self m, inMember⟩))
        · exact Or.inr (Or.inr (Or.inl inBack))
  | m :: next :: rest, _, front, back, inf => by
      have split : sep.intercalate ((m :: next :: rest).map quoted) =
          '"' :: m ++ '"' :: (sep ++ sep.intercalate ((next :: rest).map quoted)) := by
        simp [List.intercalate, quoted]
      rw [split] at inf
      simp only [List.append_assoc, List.cons_append] at inf
      rcases infix_append_cons unquoted inf with inFront | inRest
      · exact Or.inl inFront
      · rcases infix_append_cons unquoted inRest with inMember | inLater
        · exact Or.inr (Or.inr (Or.inr ⟨m, List.mem_cons_self m _, inMember⟩))
        · rcases infix_quoted unquoted (List.cons_ne_nil next rest) sep back
            (by simpa only [List.append_assoc] using inLater) with
            inSep | inSep | inBack | ⟨other, member, inOther⟩
          · exact Or.inr (Or.inl inSep)
          · exact Or.inr (Or.inl inSep)
          · exact Or.inr (Or.inr (Or.inl inBack))
          · exact Or.inr (Or.inr (Or.inr ⟨other, List.mem_cons_of_mem m member, inOther⟩))

theorem infix_membersBlock {needle : Text} (unquoted : '"' ∉ needle)
    (unframed : ∀ frame ∈ blockFrames, ¬ needle <:+: frame) {members : List Text}
    (inf : needle <:+: membersBlock members) : ∃ m ∈ members, needle <:+: m := by
  unfold membersBlock at inf
  split at inf
  · exact absurd inf (unframed _ (by simp [blockFrames]))
  · rename_i nonempty
    rcases infix_quoted unquoted nonempty _ _ inf with inFront | inSep | inBack | found
    · exact absurd inFront (unframed _ (by simp [blockFrames]))
    · exact absurd inSep (unframed _ (by simp [blockFrames]))
    · exact absurd inBack (unframed _ (by simp [blockFrames]))
    · exact found

theorem membersBlock_shape (members : List Text) :
    ∃ mid, membersBlock members = 'm' :: mid ++ [']'] := by
  unfold membersBlock
  split
  · exact ⟨"embers = [".toList, rfl⟩
  · exact ⟨"embers = [\n    ".toList ++
      ",\n    ".toList.intercalate (members.map quoted) ++ ",\n".toList,
      by simp⟩

/-! ### The block written back is an array -/

/-- The entries of the block the tool writes: each member with the text after its closing quote,
`,\n    ` before the next member and `,\n` after the last. -/
def blockEntries : List Text → List (Text × Text)
  | [] => []
  | [m] => [(m, ",\n".toList)]
  | m :: next :: rest => (m, ",\n    ".toList) :: blockEntries (next :: rest)

/-- The block the tool writes, read as a `members` array. -/
def blockArray (members : List Text) : MembersArray :=
  ⟨[' '], [' '], if members = [] then [] else "\n    ".toList, blockEntries members⟩

theorem blockArray_names (members : List Text) : (blockArray members).names = members := by
  induction members using blockEntries.induct with
  | case1 => rfl
  | case2 m => rfl
  | case3 m next rest ih =>
      simp only [blockArray, MembersArray.names, blockEntries, List.map_cons] at ih ⊢
      rw [ih]

theorem mem_blockEntries {members : List Text} {entry : Text × Text}
    (member : entry ∈ blockEntries members) :
    entry.1 ∈ members ∧ (entry.2 = ",\n".toList ∨ entry.2 = ",\n    ".toList) := by
  induction members using blockEntries.induct with
  | case1 => cases member
  | case2 m =>
      rw [blockEntries, List.mem_singleton] at member
      subst member
      exact ⟨List.mem_singleton_self m, Or.inl rfl⟩
  | case3 m next rest ih =>
      rw [blockEntries, List.mem_cons] at member
      rcases member with rfl | later
      · exact ⟨List.mem_cons_self _ _, Or.inr rfl⟩
      · exact (ih later).imp_left (List.mem_cons_of_mem m)

theorem blockEntries_body {members : List Text} (nonempty : members ≠ []) :
    (blockEntries members).flatMap (fun entry => '"' :: (entry.1 ++ '"' :: entry.2)) =
      ",\n    ".toList.intercalate (members.map quoted) ++ ",\n".toList := by
  induction members using blockEntries.induct with
  | case1 => exact absurd rfl nonempty
  | case2 m => simp [blockEntries, List.intercalate, quoted]
  | case3 m next rest ih =>
      rw [blockEntries, List.flatMap_cons, ih (List.cons_ne_nil _ _)]
      simp [List.intercalate, quoted]

theorem membersBlock_eq_text (members : List Text) :
    membersBlock members = (blockArray members).text := by
  unfold membersBlock
  split
  · next empty => subst empty; rfl
  · next nonempty =>
      simp only [MembersArray.text, MembersArray.body, blockArray, if_neg nonempty,
        blockEntries_body nonempty]
      generalize ",\n    ".toList.intercalate (members.map quoted) = inner
      simp [membersKey]

theorem blockArray_sound {members : List Text}
    (clean : ∀ m ∈ members, m ≠ [] ∧ '"' ∉ m ∧ ']' ∉ m) : (blockArray members).Sound where
  keySpace c (member : c ∈ [' ']) := by rw [List.mem_singleton.mp member]; rfl
  valueSpace c (member : c ∈ [' ']) := by rw [List.mem_singleton.mp member]; rfl
  lead := by
    show '"' ∉ (if members = [] then [] else "\n    ".toList) ∧
      ']' ∉ (if members = [] then [] else "\n    ".toList)
    split <;> decide
  entries entry member := by
    obtain ⟨named, gap⟩ := mem_blockEntries member
    obtain ⟨nonempty, unquoted, unbracketed⟩ := clean _ named
    refine ⟨nonempty, unquoted, unbracketed, ?_⟩
    rcases gap with same | same <;> rw [same] <;> decide

end ConflictResolver
