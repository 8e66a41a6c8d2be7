import ConflictResolver.Python

/-!
The regular expressions of `resolve_cargo_conflict`, compiled by hand in Python's backtracking
order. No pattern is anchored, so a matcher reads the text from a position on and returns the
groups and the rest; `findFrom` and `subFrom` are `re.finditer` and `re.sub`. A lazy `.*?`
tries the shortest prefix first (`lazyGroup`); the optional group of `members_conflict_pattern`
succeeds at the first position after the first array from which the rest matches.
-/

namespace ConflictResolver

/-! ### Drivers -/

/-- `.*?` followed by `cont`: the shortest prefix after which `cont` succeeds, with the result
of `cont` there. -/
def lazyGroup {α : Type} (cont : Text → Option α) : Text → Option (Text × α)
  | [] => (cont []).map fun found => ([], found)
  | c :: rest =>
      match cont (c :: rest) with
      | some found => some ([], found)
      | none => (lazyGroup cont rest).map fun (group, found) => (c :: group, found)

/-- `re.search`: the result of `matcher` at the first position where it succeeds. -/
def searchFirst {α : Type} (matcher : Text → Option α) (text : Text) : Option α :=
  (lazyGroup matcher text).map Prod.snd

/-- How many characters a match that starts at `text` and leaves `after` consumes past its
first one. -/
def matchTail (text after : Text) : Nat := text.length - after.length - 1

/-- `re.finditer`, resuming after each match. -/
def findFrom {α : Type} (matcher : Text → Option (α × Text)) : Nat → Text → List α
  | _ + 1, [] => []
  | skip + 1, _ :: rest => findFrom matcher skip rest
  | 0, [] => ((matcher []).map fun (found, _) => [found]).getD []
  | 0, c :: rest =>
      match matcher (c :: rest) with
      | some (found, after) => found :: findFrom matcher (matchTail (c :: rest) after) rest
      | none => findFrom matcher 0 rest

/-- `re.sub` with a replacement computed from each match. -/
def subFrom {α : Type} (matcher : Text → Option (α × Text)) (replace : α → Text) :
    Nat → Text → Text
  | _ + 1, [] => []
  | skip + 1, _ :: rest => subFrom matcher replace skip rest
  | 0, [] => ((matcher []).map fun (found, _) => replace found).getD []
  | 0, c :: rest =>
      match matcher (c :: rest) with
      | some (found, after) =>
          replace found ++ subFrom matcher replace (matchTail (c :: rest) after) rest
      | none => c :: subFrom matcher replace 0 rest

/-! ### Pieces -/

/-- `[^\n]*\n`: the rest of the line and its newline. -/
def lineRest (text : Text) : Option Text :=
  match text.dropWhile (· != '\n') with
  | [] => none
  | _ :: after => some after

/-- `[^\n]*\n?`: the rest of the line, and its newline if there is one. -/
def dropLine (text : Text) : Text := (text.dropWhile (· != '\n')).drop 1

/-- `<<<<<<<[^\n]*\n` -/
def startLineRest (text : Text) : Option Text :=
  if bareStartMarker.isPrefixOf text then lineRest (text.drop 7) else none

/-- `=======\n` -/
def separatorRest (text : Text) : Option Text :=
  if (separatorMarker ++ ['\n']).isPrefixOf text then some (text.drop 8) else none

/-- `>>>>>>>[^\n]*\n?` -/
def endLineRest (text : Text) : Option Text :=
  if bareEndMarker.isPrefixOf text then some (dropLine (text.drop 7)) else none

/-- The key both `members` patterns start with. -/
def membersKey : Text := "members".toList

/-- `members\s*=\s*\[`: the text after the bracket. -/
def membersHead (text : Text) : Option Text :=
  if membersKey.isPrefixOf text then
    match (text.drop 7).dropWhile isSpace with
    | '=' :: rest =>
        match rest.dropWhile isSpace with
        | '[' :: inner => some inner
        | _ => none
    | _ => none
  else none

/-- `\]` -/
def closeBracket : Text → Option Text
  | ']' :: rest => some rest
  | _ => none

/-! ### The patterns -/

/-- `members\s*=\s*\[(.*?)\]`: the text between the brackets and the text after them. -/
def matchMembersArray (text : Text) : Option (Text × Text) :=
  (membersHead text).bind (lazyGroup closeBracket)

/-- `"([^"]+)"`: the quoted text and the text after the closing quote. -/
def matchQuoted : Text → Option (Text × Text)
  | '"' :: rest =>
      match rest.dropWhile (· != '"') with
      | '"' :: after =>
          if rest.takeWhile (· != '"') = [] then none else some (rest.takeWhile (· != '"'), after)
      | _ => none
  | _ => none

/-- `extract_members_from_block`: the quoted strings of the first `members = [...]` array. -/
def extractMembersFromBlock (block : Text) : PySet :=
  match searchFirst matchMembersArray block with
  | some (content, _) => PySet.empty.update (findFrom matchQuoted 0 content)
  | none => PySet.empty

/-- After the ours group of `conflict_pattern`: `(?:=======\n(.*?))?>>>>>>>[^\n]*\n?`, the
separator branch first. -/
def conflictTail (text : Text) : Option (Option Text × Text) :=
  (((separatorRest text).bind (lazyGroup endLineRest)).map fun (theirs, after) =>
      (some theirs, after)).orElse
    fun _ => (endLineRest text).map fun after => (none, after)

/-- `conflict_pattern`, `<<<<<<<[^\n]*\n(.*?)(?:=======\n(.*?))?>>>>>>>[^\n]*\n?`: the ours
group, the theirs group when the separator branch matched, and the text after the match. -/
def matchConflict (text : Text) : Option ((Text × Option Text) × Text) :=
  (startLineRest text).bind fun body =>
    (lazyGroup conflictTail body).map fun (ours, theirs, after) => ((ours, theirs), after)

/-- `(?:.*?members\s*=\s*\[.*?\].*?)?` followed by `cont`. -/
def optionalMembers {α : Type} (cont : Text → Option α) (text : Text) : Option α :=
  ((searchFirst matchMembersArray text).bind fun (_, after) => searchFirst cont after).orElse
    fun _ => cont text

/-- `members_conflict_pattern`: the text after the match; it has no group. -/
def matchMembersConflict (text : Text) : Option (Unit × Text) :=
  (startLineRest text).bind fun body =>
    (optionalMembers (fun rest => (separatorRest rest).bind (optionalMembers endLineRest))
      body).map fun after => ((), after)

/-- The generic pattern `<<<<<<<[^\n]*\n(.*?)=======\n.*?>>>>>>>[^\n]*\n?`: the ours group and
the text after the match. -/
def matchGeneric (text : Text) : Option (Text × Text) :=
  (startLineRest text).bind
    (lazyGroup fun rest => (separatorRest rest).bind (searchFirst endLineRest))

/-- The header the members block is put after. -/
def workspaceHeader : Text := "[workspace]".toList

/-- `(\[workspace\])`: the group and the text after it. -/
def matchWorkspace (text : Text) : Option (Text × Text) :=
  if workspaceHeader.isPrefixOf text then some (workspaceHeader, text.drop 11) else none

end ConflictResolver
