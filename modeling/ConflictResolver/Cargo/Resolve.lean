import ConflictResolver.Cargo.Template

/-!
`resolve_cargo_conflict` and `main`: member collection, the members block, the four rewrite
passes and the run.
-/

namespace ConflictResolver

/-! ### Collecting the members -/

/-- The members of both sides of every region `conflict_pattern` finds; a region without a
separator has an empty theirs side (`match.group(2) or ""`). -/
def regionMembers (content : Text) : PySet :=
  (findFrom matchConflict 0 content).foldl
    (fun members (ours, theirs) =>
      (members.update (extractMembersFromBlock ours).elems).update
        (extractMembersFromBlock (theirs.getD [])).elems)
    PySet.empty

/-- `clean_content`: the text with the regions `conflict_pattern` finds removed. -/
def cleanContent (content : Text) : Text := subFrom matchConflict (fun _ => []) 0 content

/-- `all_members`. -/
def cargoMembers (content : Text) : PySet :=
  (regionMembers content).update (extractMembersFromBlock (cleanContent content)).elems

/-- `f'"{m}"'`. -/
def quoted (m : Text) : Text := '"' :: m ++ ['"']

/-- `new_members_block` for the sorted members. -/
def membersBlock (members : List Text) : Text :=
  if members = [] then "members = []".toList
  else
    "members = [\n    ".toList ++ ",\n    ".toList.intercalate (members.map quoted) ++
      ",\n]".toList

/-! ### Rewriting -/

/-- `members\s*=\s*\[.*?\]`, which has no group: the whole match and the text after it. -/
def matchMembersSpan (text : Text) : Option (Text × Text) :=
  (matchMembersArray text).map fun (_, after) => (text.take (text.length - after.length), after)

/-- `re.sub(members_conflict_pattern, replace_members_conflict, ...)`. -/
def dropMembersConflicts (content : Text) : Text :=
  subFrom matchMembersConflict (fun _ => []) 0 content

/-- `re.sub(..., resolve_generic_conflict, ...)`: each remaining conflict becomes its ours
group. -/
def keepOurs (content : Text) : Text := subFrom matchGeneric id 0 content

/-- The block in place of every `members` array when the text has one, else after every
`[workspace]` header when there are members. Both substitutions pass a string, whose only
group references can name the whole match or the header, the same text. -/
def placeMembers (block : Text) (hasMembers : Bool) (resolved : Text) : Except Text Text :=
  if (searchFirst membersHead resolved).isSome then
    reSub matchMembersSpan 0 (fun whole _ => whole) block resolved
  else if containsText workspaceHeader resolved && hasMembers then
    reSub matchWorkspace 1 (fun header _ => header) ("\\1\n".toList ++ block) resolved
  else .ok resolved

/-- The text written back for the sorted members, or the message of what the substitution
raised. -/
def cargoRewrite (content : Text) (sortedMembers : List Text) : Except Text Text :=
  (placeMembers (membersBlock sortedMembers) (!sortedMembers.isEmpty)
    (keepOurs (dropMembersConflicts content))).map collapseBlankLines

/-! ### The run -/

/-- How a run of `resolve_cargo_conflict` ends: it returns its flag, or it raises, with the text
of the exception. -/
inductive CargoResult where
  | returned (success : Bool)
  | raised (message : Text)
  deriving DecidableEq, Repr

/-- What one run leaves behind: how it ended, the target file afterwards (absent when it does
not exist), and the lines printed to standard output and standard error. -/
structure CargoOutcome where
  result : CargoResult
  file : Option Text
  stdout : List Text
  stderr : List Text
  deriving DecidableEq, Repr

/-- The lines printed after a rewrite. -/
def cargoReport (filePath : Text) (sortedMembers : List Text) : List Text :=
  ("Resolved ".toList ++ filePath) ::
    if sortedMembers.isEmpty then []
    else ("  Merged ".toList ++ (toString sortedMembers.length).toList ++
        " workspace members:".toList) ::
      sortedMembers.map fun m => "    - ".toList ++ m

/-- `resolve_cargo_conflict(file_path)` on a target whose content is `file`, if it exists, with
the set `all_members` enumerated in the order `iter`. -/
def resolveCargoConflict (iter : SetIter) (filePath : Text) : Option Text → CargoOutcome
  | none => ⟨.returned false, none, [], ["Error: File not found: ".toList ++ filePath]⟩
  | some raw =>
      if !containsText startMarker (readText raw) then
        ⟨.returned true, some raw, ["No conflict markers found in ".toList ++ filePath], []⟩
      else
        let members := cargoMembers (readText raw)
        let warning :=
          if members.elems = [] then ["Warning: No workspace members found in ".toList ++ filePath]
          else []
        let sortedMembers := sortedBy id (members.toList iter)
        match cargoRewrite (readText raw) sortedMembers with
        | .ok resolved =>
            ⟨.returned true, some resolved, cargoReport filePath sortedMembers, warning⟩
        | .error message => ⟨.raised message, some raw, [], warning⟩

/-- `main()` for the optional path argument, whose default is `Cargo.toml`. An exception from
`read_text`, from the substitution or from `write_text` is printed as `Error: ...` with exit
status 1. The warning is printed before the write and the report after it. -/
def cargoMain (iter : SetIter) (argument : Option Text) (files : Text → Option PyFile) :
    MainOutcome :=
  let filePath := argument.getD "Cargo.toml".toList
  match files filePath with
  | none =>
      let run := resolveCargoConflict iter filePath none
      ⟨exitStatus false, none, run.stdout, run.stderr⟩
  | some file =>
      match file.read with
      | .error message => ⟨1, some file, [], [errorLine message]⟩
      | .ok raw =>
          let run := resolveCargoConflict iter filePath (some raw)
          match run.result, containsText startMarker (readText raw), file.writeError with
          | .raised message, _, _ => ⟨1, some file, run.stdout, run.stderr ++ [errorLine message]⟩
          | .returned _, true, some message => ⟨1, some file, [], run.stderr ++ [errorLine message]⟩
          | .returned success, true, none =>
              ⟨exitStatus success, some (file.write (run.file.getD raw)), run.stdout, run.stderr⟩
          | .returned success, false, _ => ⟨exitStatus success, some file, run.stdout, run.stderr⟩

end ConflictResolver
