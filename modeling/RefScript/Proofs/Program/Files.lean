import RefScript.Program.FileTree
import RefScript.Proofs.Program.Agreement

namespace RefScript

/-!
# Sessions on file trees

A session that is run in a directory reads the entries that its options name. If
they hold texts, it is the session on these texts; if one is missing, or is no file,
the session ends there. Other paths are followed name by name: what stands behind a
slash is looked for in what stands before it, which has to be a directory.
-/

namespace FileSpot

variable {spot : FileSpot} {names : List String} {problem : FileProblem}

theorem follow_cons (spot : FileSpot) (name : String) (names : List String) :
    spot.follow (name :: names) = (spot.enter name).bind fun entered => entered.follow names :=
  List.foldlM_cons

/-- A path is followed up to any of its names, and from there on. -/
theorem follow_append (spot : FileSpot) (earlier later : List String) :
    spot.follow (earlier ++ later) =
      (spot.follow earlier).bind fun reached => reached.follow later :=
  List.foldlM_append

/-- A path fails at the first of its names that cannot be followed, with the problem there. -/
theorem follow_eq_error_iff :
    spot.follow names = .error problem ↔
      ∃ earlier name later reached,
        names = earlier ++ name :: later ∧
          spot.follow earlier = .ok reached ∧ reached.enter name = .error problem := by
  constructor
  · intro fails
    induction names generalizing spot with
    | nil =>
        contradiction
    | cons name rest inductionHypothesis =>
        rw [follow_cons] at fails
        cases entered : spot.enter name with
        | error first =>
            rw [entered] at fails
            cases fails
            exact ⟨[], name, rest, spot, rfl, rfl, entered⟩
        | ok next =>
            rw [entered] at fails
            obtain ⟨earlier, failing, later, reached, rfl, follows, stops⟩ :=
              inductionHypothesis fails
            refine ⟨name :: earlier, failing, later, reached, rfl, ?_, stops⟩
            rw [follow_cons, entered]
            exact follows
  · rintro ⟨earlier, name, later, reached, rfl, follows, stops⟩
    rw [follow_append, follows]
    change reached.follow (name :: later) = .error problem
    rw [follow_cons, stops]
    rfl

/-- What an empty name at the end leads to cannot be read, as it is a directory if it is there. -/
theorem exists_problem_of_blank (spot : FileSpot) (names : List String) :
    ∃ problem,
      ((spot.follow (names ++ [""])).bind fun reached => reached.node.contents) =
        .error problem := by
  rw [follow_append]
  cases spot.follow names with
  | error problem => exact ⟨problem, rfl⟩
  | ok reached =>
      change ∃ problem,
        ((reached.follow [""]).bind fun final => final.node.contents) = .error problem
      rw [follow_cons, enter]
      cases isNode : reached.node with
      | file contents => exact ⟨.notADirectory, rfl⟩
      | directory entries =>
          refine ⟨.isADirectory, ?_⟩
          change reached.node.contents = .error .isADirectory
          rw [isNode]
          rfl

end FileSpot

namespace FileTree

variable {tree : FileTree} {entries : List (String × FileNode)} {name : String}

/-- A name that can only be that of an entry: no path, no dots, and not too long. -/
structure IsEntryName (name : String) : Prop where
  nonempty : name ≠ ""
  notHere : name ≠ "."
  notParent : name ≠ ".."
  noSlash : '/' ∉ name.toList
  fits : name.utf8ByteSize ≤ FileSpot.maxNameBytes

theorem namesOf_of_noSlash (noSlash : '/' ∉ name.toList) : namesOf name = [name] := by
  rw [namesOf, List.splitOn_eq_singleton noSlash, List.map_singleton, String.ofList_toList]

/-- A trailing slash adds a name that is empty. -/
theorem namesOf_append_slash (path : String) : namesOf (path ++ "/") = namesOf path ++ [""] := by
  have characters : (path ++ "/").toList = path.toList ++ '/' :: [] := String.toList_append
  rw [namesOf, characters, List.splitOn_append_cons_self, List.map_append]
  rfl

/-- The name of an entry is looked up in the working directory. -/
theorem read_entryName
    (isEntry : IsEntryName name)
    (isDirectory : tree.working.node = .directory entries) :
    tree.read name = (entries.lookup name).elim (.error .missing) FileNode.contents := by
  obtain ⟨nonempty, notHere, notParent, noSlash, fits⟩ := isEntry
  have notLong : ¬ tooLongPathBytes ≤ name.utf8ByteSize :=
    Nat.not_le_of_lt (Nat.lt_of_le_of_lt fits (by decide))
  have startsHere : tree.start name = tree.working := by
    refine if_neg fun startsAtRoot => noSlash ?_
    exact List.mem_of_head? startsAtRoot
  have entered :
      tree.working.enter name =
        (entries.lookup name).elim (.error .missing) fun entry =>
          .ok ⟨entry, tree.working.node :: tree.working.above⟩ := by
    simp only [FileSpot.enter, isDirectory, nonempty, notHere, notParent, Nat.not_lt_of_le fits,
      or_self, ↓reduceIte]
    cases entries.lookup name <;> rfl
  have led : tree.spot name = tree.working.enter name := by
    have notEmpty : name.isEmpty = false := by simpa using nonempty
    rw [spot, notEmpty, startsHere, namesOf_of_noSlash noSlash, FileSpot.follow_cons]
    simp only [Bool.false_eq_true, notLong, ↓reduceIte]
    cases tree.working.enter name <;> rfl
  rw [read, led, entered]
  cases entries.lookup name <;> rfl

/-- A path that ends in a slash leads to no file. -/
theorem read_append_slash (tree : FileTree) (path : String) :
    ∃ problem, tree.read (path ++ "/") = .error problem := by
  unfold read spot
  split_ifs
  · exact ⟨.missing, rfl⟩
  · exact ⟨.nameTooLong, rfl⟩
  · rw [namesOf_append_slash]
    exact FileSpot.exists_problem_of_blank _ _

end FileTree

/-! ## Sessions -/

/-- The session on the files of a tree. -/
def sessionIn (tree : FileTree) (options : Options) : Transcript :=
  sessionWith tree.read options

section Sessions

variable {tree : FileTree} {entries : List (String × FileNode)} {options : Options}

/-- In a directory with texts under the names that it is given, a session is one on these texts. -/
theorem sessionIn_eq_sessionOn
    {texts : String → String}
    (isDirectory : tree.working.node = .directory entries)
    (areEntries : ∀ file ∈ options.files, FileTree.IsEntryName file)
    (holds : ∀ file ∈ options.files, entries.lookup file = some (.file (texts file).toUTF8)) :
    sessionIn tree options = sessionOn texts options := by
  have sameContents (file : String) (named : file ∈ options.files) :
      tree.read file = .ok (texts file).toUTF8 := by
    rw [FileTree.read_entryName (areEntries file named) isDirectory, holds file named]
    rfl
  exact sessionWith_congr sameContents

/-- The file with the name of an entry is missing where there is no such entry. -/
theorem textOf_eq_missing_iff
    {file : String}
    (isDirectory : tree.working.node = .directory entries)
    (isEntry : FileTree.IsEntryName file) :
    textOf tree.read file = .error .missing ↔ entries.lookup file = none := by
  rw [textOf, FileTree.read_entryName isEntry isDirectory]
  cases entries.lookup file with
  | none => simp
  | some entry =>
      cases entry with
      | file bytes => cases isText : String.fromUTF8? bytes <;> simp [FileNode.contents, isText]
      | directory inner => simp [FileNode.contents]

/-- A session misses the script if there is none, and after it the data file if there is none. -/
theorem failure_eq_missing_iff
    {file : String}
    (isDirectory : tree.working.node = .directory entries)
    (isEntry : FileTree.IsEntryName file) :
    (sessionIn tree options).failure = some (.unreadable file .missing) ↔
      entries.lookup file = none ∧
        (options.script = file ∨
          options.data = some file ∧
            ∃ script commands,
              textOf tree.read options.script = .ok script ∧ scriptOf script = .ok commands) := by
  rw [sessionIn, failure_eq_unreadable_iff, textOf_eq_missing_iff isDirectory isEntry]

/-- With a slash behind the name of the script, no session runs. -/
theorem sessionIn_of_slash
    {path : String} (trailing : options.script = path ++ "/") :
    ∃ problem, sessionIn tree options = ⟨[], some (.unreadable options.script problem)⟩ := by
  obtain ⟨problem, unread⟩ := tree.read_append_slash path
  have noText : textOf tree.read options.script = .error problem := by
    rw [textOf, trailing, unread]
  exact ⟨problem, by rw [sessionIn, sessionWith_eq, noText]⟩

end Sessions

end RefScript
